import Realm.Proofs.Effect.Run
import Realm.Proofs.Ledger.Rollup

/-!
# Effects keep the parents up to date

The interpreter has one way to the ledger, and that is writing. So the parents of groups hold the
totals of their children in every player that effects can make of a new one, and in what a failed
effect leaves of a player as well.
-/

set_option autoImplicit false

namespace Realm

variable {α : Type} [Amount α]

theorem Draft.Change.rolledUp {setting : Setting α} {before after : Draft α}
    (hc : setting.content.catalog.Consistent) (h : Draft.Change setting before after)
    (hbefore : before.player.resources.RolledUp setting.content.catalog) :
    after.player.resources.RolledUp setting.content.catalog :=
  h.ledger (fun _ call hledger => hledger.write hc call) hbefore

/-- **Parents always hold the totals of their children**: in a ledger after any sequence of calls,
    and in a player after any sequence of effects. -/
theorem parents_rolledUp {resources : List (Resource α)} {groups : List Group}
    {catalog : Catalog α} (hbuild : Catalog.build resources groups = .ok catalog) :
    (∀ commands : List (Ledger.Command α),
      (Ledger.afterAll catalog commands).RolledUp catalog) ∧
    ∀ setting : Setting α, setting.content.catalog = catalog →
      ∀ (id name : String) (commands : List (Draft.Command α)),
        (Draft.afterAll setting id name commands).player.resources.RolledUp catalog := by
  have hc := Catalog.build_consistent hbuild
  refine ⟨Ledger.rolledUp_afterAll hc, ?_⟩
  rintro setting rfl id name commands
  exact Draft.holds_afterAll (fun player => player.resources.RolledUp setting.content.catalog)
    (fun _ _ h => h.rolledUp hc) (Ledger.rolledUp_initial hc) commands

/-- A raise that is refused, and one that is not. -/
theorem parents_rolledUp_sample :
    Catalog.build [Sample.happiness] [Sample.moods] = .ok Sample.catalog ∧
    (Ledger.afterAll Sample.catalog
      [.write (.apply { resource := "happiness", magnitude := Amount.ofInt 30 }),
       .write (.apply { resource := "happiness", magnitude := Amount.ofInt 3 })]).RolledUp
      Sample.catalog :=
  ⟨Sample.build_catalog, (parents_rolledUp Sample.build_catalog).1 _⟩

end Realm
