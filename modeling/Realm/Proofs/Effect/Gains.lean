import Realm.Proofs.Effect.Run
import Realm.Proofs.Ledger.Gains

/-!
# The gains on a draft

A draft carries the gains that have been recorded while it was worked on. They are only ever added
to, and all in the name of the player who is worked on (`Draft.Recorded`); and where amounts are
exact they account for the player's amounts: what has been recorded of a resource since some moment
is by how much its amount has changed since then (`Draft.Accounted`).

Amounts are written in one place of the interpreter, which is also where gains are recorded, so both
are a matter of that one step (`Draft.Change.quiet_or_write`): a write that went well has recorded
what it tells of, and one that failed has recorded nothing and changed no amount. The rest is putting
one stretch of work after another.
-/

set_option autoImplicit false

namespace Realm
namespace Draft

variable {α : Type} [Amount α] {setting : Setting α}

/-! ## Changes of amounts -/

/-- A change of a draft is a write, or it concerns neither amounts nor gains. -/
theorem Change.quiet_or_write {before after : Draft α} (h : Draft.Change setting before after) :
    (after.gains = before.gains ∧ after.player.id = before.player.id ∧
      after.player.resources = before.player.resources) ∨
    ∃ call : Ledger.Write α,
      after = (Draft.record (call.attempt setting.content.catalog)).after before := by
  cases h with
  | write call => exact .inr ⟨call, rfl⟩
  | step _ h =>
    cases h with
    | taking _ h =>
      cases h with
      | write call hlower => exact .inr ⟨call, rfl⟩
      | skip add phase step source => exact .inl ⟨rfl, rfl, rfl⟩
      | detach id active hactive => exact .inl ⟨rfl, rfl, rfl⟩
      | disown id howned => exact .inl ⟨rfl, rfl, rfl⟩
      | raze id named land hland => exact .inl ⟨rfl, rfl, rfl⟩
    | addLand slots hslots => exact .inl ⟨rfl, rfl, rfl⟩
    | till id land hland => exact .inl ⟨rfl, rfl, rfl⟩
    | attach active hnew => exact .inl ⟨rfl, rfl, rfl⟩
    | own id hknown hnew => exact .inl ⟨rfl, rfl, rfl⟩
    | build id named land hknown hland => exact .inl ⟨rfl, rfl, rfl⟩
    | leaveTier resource => exact .inl ⟨rfl, rfl, rfl⟩
    | enterTier resource tier => exact .inl ⟨rfl, rfl, rfl⟩

/-! ## What is recorded -/

/-- Gains have been recorded after those of the draft, in the name of its player. -/
structure Recorded (before : Draft α) (recorded : List (Gain α)) (after : Draft α) : Prop where
  gains : after.gains = before.gains ++ recorded
  player : after.player.id = before.player.id
  named : ∀ gain ∈ recorded, gain.playerId = some before.player.id

namespace Recorded

omit [Amount α] in
theorem nothing {before after : Draft α} (hgains : after.gains = before.gains)
    (hplayer : after.player.id = before.player.id) : Recorded before [] after where
  gains := by rw [hgains, List.append_nil]
  player := hplayer
  named _ h := (List.not_mem_nil h).elim

omit [Amount α] in
theorem trans {before between after : Draft α} {recorded further : List (Gain α)}
    (h : Recorded before recorded between) (hnext : Recorded between further after) :
    Recorded before (recorded ++ further) after where
  gains := by rw [hnext.gains, h.gains, List.append_assoc]
  player := hnext.player.trans h.player
  named gain hgain := by
    rcases List.mem_append.1 hgain with hold | hnew
    · exact h.named gain hold
    · rw [hnext.named gain hnew, h.player]

/-- What is told of a write is recorded. -/
theorem write (call : Ledger.Write α) (catalog : Catalog α) (draft : Draft α) :
    Recorded draft
      (told draft.player.id ((call.attempt catalog).outcome draft.player.resources))
      ((Draft.record (call.attempt catalog)).after draft) where
  gains := record_gains _ _
  player := by rw [Draft.record_player]
  named gain hgain := by
    cases houtcome : (call.attempt catalog).outcome draft.player.resources with
    | error error =>
      rw [houtcome] at hgain
      cases hgain
    | ok change =>
      rw [houtcome] at hgain
      obtain ⟨other, -, rfl⟩ := List.mem_map.1 hgain
      rfl

end Recorded

theorem Change.recorded {before after : Draft α} (h : Draft.Change setting before after) :
    ∃ recorded, Recorded before recorded after := by
  rcases h.quiet_or_write with ⟨hgains, hplayer, -⟩ | ⟨call, rfl⟩
  · exact ⟨[], .nothing hgains hplayer⟩
  · exact ⟨_, .write call _ before⟩

/-- So have they after any number of steps. -/
theorem recorded_of_steps {before after : Draft α}
    (h : Relation.ReflTransGen (Draft.Step setting) before after) :
    ∃ recorded, Recorded before recorded after := by
  induction h with
  | refl => exact ⟨[], .nothing rfl rfl⟩
  | tail _ hlast ih =>
    obtain ⟨recorded, hrecorded⟩ := ih
    obtain ⟨further, hfurther⟩ := Change.recorded (.step _ hlast)
    exact ⟨recorded ++ further, hrecorded.trans hfurther⟩

/-! ## What it adds up to -/

/-- The gains that have been recorded account for the amounts: of every resource, they add up to the
    change of its amount. -/
structure Accounted (before : Draft α) (recorded : List (Gain α)) (after : Draft α) : Prop
    extends Recorded before recorded after where
  total : ∀ resource, Gain.total resource recorded
    = after.player.resources.amount resource - before.player.resources.amount resource

section

variable [Amount.Exact α]

theorem Accounted.nothing {before after : Draft α} (h : Recorded before [] after)
    (hresources : ∀ resource, after.player.resources.amount resource
      = before.player.resources.amount resource) : Accounted before [] after where
  toRecorded := h
  total resource := by
    rw [hresources, Amount.Exact.sub_self]
    rfl

theorem Accounted.trans {before between after : Draft α} {recorded further : List (Gain α)}
    (h : Accounted before recorded between) (hnext : Accounted between further after) :
    Accounted before (recorded ++ further) after where
  toRecorded := h.toRecorded.trans hnext.toRecorded
  total resource := by
    rw [Gain.total_append, h.total, hnext.total, Amount.Exact.sub_add_sub]

/-- A write accounts for itself, also when it fails. -/
theorem Accounted.write (call : Ledger.Write α) (catalog : Catalog α) (draft : Draft α) :
    Accounted draft
      (told draft.player.id ((call.attempt catalog).outcome draft.player.resources))
      ((Draft.record (call.attempt catalog)).after draft) where
  toRecorded := .write call catalog draft
  total := by
    have haccounts := call.accounts catalog draft.player.resources
    rw [Draft.record_player, Attempt.outcome_def, Attempt.after_def]
    generalize (call.attempt catalog).run draft.player.resources = result at haccounts ⊢
    obtain ⟨outcome, resources⟩ := result
    intro resource
    cases outcome with
    | error error =>
      exact (Amount.Exact.sub_self _).symm.trans (congrArg (· - _) (haccounts resource).symm)
    | ok change => exact (Gain.total_map_named _ _ _).trans (haccounts resource)

theorem Change.accounted {before after : Draft α} (h : Draft.Change setting before after) :
    ∃ recorded, Accounted before recorded after := by
  rcases h.quiet_or_write with ⟨hgains, hplayer, hresources⟩ | ⟨call, rfl⟩
  · exact ⟨[], .nothing (.nothing hgains hplayer) fun _ => by rw [hresources]⟩
  · exact ⟨_, .write call _ before⟩

/-- **The gains account for the amounts.** Where amounts are exact, any sequence of calls on a draft
    — effects, payments and other writes, passives that come and go, passes over the tiers — each of
    them succeeding or failing half-way, records gains of the draft's player, and of every resource,
    derived ones included, these add up to what its amount is afterwards less what it was before. -/
theorem gains_account_for_amounts (setting : Setting α) (draft : Draft α)
    (commands : List (Draft.Command α)) :
    ∃ recorded, (draft.performAll setting commands).gains = draft.gains ++ recorded ∧
      (∀ resource, Gain.total resource recorded
        = (draft.performAll setting commands).player.resources.amount resource
          - draft.player.resources.amount resource) ∧
      ∀ gain ∈ recorded, gain.playerId = some draft.player.id := by
  have hinitial : ∃ recorded, Accounted draft recorded draft :=
    ⟨[], .nothing (.nothing rfl rfl) fun _ => rfl⟩
  obtain ⟨recorded, haccounted⟩ := Draft.holds_performAll
    (fun after => ∃ recorded, Accounted draft recorded after)
    (fun before after hchange hbefore => by
      obtain ⟨recorded, hrecorded⟩ := hbefore
      obtain ⟨further, hfurther⟩ := hchange.accounted
      exact ⟨recorded ++ further, hrecorded.trans hfurther⟩)
    hinitial commands
  exact ⟨recorded, haccounted.gains, haccounted.total, haccounted.named⟩

end

end Draft

namespace Sample

/-- Cattle of which there may be nine, in a game that counts in whole numbers. -/
def cattle : Resource Whole :=
  { id := "cattle", label := "Cattle", bounds := { lower := some ⟨0⟩, upper := some ⟨9⟩ } }

def livestock : Group :=
  { id := "livestock", parent := { id := "stock", label := "Stock" }, childIds := ["cattle"] }

def ranch : Setting Whole :=
  { content := { catalog := (Catalog.build [cattle] [livestock]).toOption.getD .empty } }

def rancher : Draft Whole := { player := .initial ranch.content.catalog "A" "Ada" }

def buy : Effect Whole :=
  { family := "resource", method := "add"
    params := .record [("resourceId", .text "cattle"), ("amount", .integer 12)]
    note := some { reconciliation := some .clamp } }

/-- More cattle than there may be, a payment, and an effect that nobody knows. -/
def drive : List (Draft.Command Whole) :=
  [.apply buy 1,
    .write (.apply { resource := "cattle", direction := .remove, magnitude := ⟨2⟩ }),
    .apply { family := "cattle", method := "rustle" } 1]

end Sample

/-- Of the twelve that come nine are kept and two are paid, and seven is what the gains tell of, of
    the cattle and of all stock. -/
theorem Draft.gains_account_for_amounts_drive :
    ∃ recorded, (Sample.rancher.performAll Sample.ranch Sample.drive).gains = recorded ∧
      Gain.total "cattle" recorded = ⟨7⟩ ∧ Gain.total "stock" recorded = ⟨7⟩ ∧
      ∀ gain ∈ recorded, gain.playerId = some "A" := by
  obtain ⟨recorded, hgains, htotal, hnamed⟩ :=
    Draft.gains_account_for_amounts Sample.ranch Sample.rancher Sample.drive
  refine ⟨recorded, hgains, ?_, ?_, hnamed⟩
  · rw [htotal]
    decide +kernel
  · rw [htotal]
    decide +kernel

end Realm
