import Realm.Main
import Realm.Stamp
import Realm.Proofs.Attempt
import Realm.Proofs.Attempt.Depth
import Realm.Proofs.Catalog.Order
import Realm.Proofs.Catalog.Admission
import Realm.Proofs.Catalog.Description
import Realm.Proofs.Catalog
import Realm.Proofs.Catalog.Display
import Realm.Proofs.Catalog.Wording
import Realm.Proofs.Content
import Realm.Proofs.Document
import Realm.Proofs.Json
import Realm.Proofs.Placeholder
import Realm.Proofs.Skips
import Realm.Proofs.Requirement
import Realm.Proofs.Amount.Order
import Realm.Proofs.Amount.Nearest
import Realm.Proofs.Amount.Sign
import Realm.Proofs.Ledger.Write
import Realm.Proofs.Ledger.Bounds
import Realm.Proofs.Ledger.Rollup
import Realm.Proofs.Ledger.Local
import Realm.Proofs.Ledger.Initial
import Realm.Proofs.Ledger.Finite
import Realm.Proofs.Ledger.Payment
import Realm.Proofs.Ledger.Commuting
import Realm.Proofs.Ledger.Undoing
import Realm.Proofs.Effect.Step
import Realm.Proofs.Effect.Dispatch
import Realm.Proofs.Effect.Removal
import Realm.Proofs.Effect.Detaching
import Realm.Proofs.Effect.Vacating
import Realm.Proofs.Effect.Application
import Realm.Proofs.Effect.Run
import Realm.Proofs.Effect.TierPassives
import Realm.Proofs.Effect.Rollup
import Realm.Proofs.Effect.Lands
import Realm.Proofs.Effect.Known
import Realm.Proofs.Effect.Tiers
import Realm.Proofs.Effect.Room
import Realm.Proofs.Effect.Nesting
import Realm.Proofs.Effect.Grants
import Realm.Proofs.Effect.Undoing
import Realm.Proofs.Effect.Sparing
import Realm.Proofs.Session.Commit
import Realm.Proofs.Session.Perform
import Realm.Proofs.Session.Search
import Realm.Proofs.Session.Call
import Realm.Proofs.Session.Reach
import Realm.Proofs.Session.Players
import Realm.Proofs.Session.Housing
import Realm.Proofs.Session.Landing
import Realm.Proofs.Session.Known
import Realm.Proofs.Session.Paying
import Realm.Proofs.Document.Returning
import Realm.Proofs.Skips.Records
import Realm.Proofs.Amount.Exact
import Realm.Proofs.Ledger.Gains
import Realm.Proofs.Player
import Realm.Proofs.Effect.Gains
import Realm.Proofs.Session.Feed
import Realm.Proofs.Clock.Order
import Realm.Proofs.Session.Position
import Realm.Proofs.Playbook
import Realm.Proofs.Playbook.Seeking
import Realm.Proofs.Playbook.Ending
import Realm.Proofs.Effect.Repetition
import Realm.Proofs.Effect.Leaves
import Realm.Proofs.Ledger.Known
import Realm.Proofs.Ledger.Validation
import Realm.Proofs.Amount.Growth
import Realm.Proofs.Amount.Rounding
import Realm.Proofs.Amount.Floor
import Realm.Proofs.Ledger.Widening
import Realm.Proofs.Effect.Resources
import Realm.Proofs.Ledger.Seeding
import Realm.Proofs.Effect.Expiry
import Realm.Proofs.Session.Entering
import Realm.Proofs.Requirement.Modes
import Realm.Proofs.Requirement.Costs
