import Realm.Proofs.Amount.Order
import Realm.Proofs.Ledger.Write

/-!
# Amounts stay within their bounds

A ledger is *sound* if every resource that is not derived has a finite amount within finite bounds.
No write takes a sound ledger to one that is not, whatever it is given and however it ends
(`write_keeps_sound`), and the amount that a write stores is the attempted one or the very bound
that it went beyond.

Clamping is right only between bounds that do not cross, and nothing keeps the bounds of a ledger
from crossing but the invariant itself: where an amount lies within its bounds, the lower bound is
not above the upper one (`uncrossed_of_contains`). New bounds are checked instead
(`uncrossed_of_areUsable`), because no amount need lie within them yet.
-/

set_option autoImplicit false

namespace Realm

open Amount Amount.Ordered

/-! ## Bounds -/

namespace Bounds

variable {α : Type} [Amount α]

/-- The bounds that are there are finite. -/
structure Finite (bounds : Bounds α) : Prop where
  lower : ∀ lower, bounds.lower = some lower → isFinite lower = true
  upper : ∀ upper, bounds.upper = some upper → isFinite upper = true

/-- The lower bound is not above the upper one. -/
def Uncrossed (bounds : Bounds α) : Prop :=
  ∀ lower upper, bounds.lower = some lower → bounds.upper = some upper → lower ≤ upper

/-- The bound that an amount has gone beyond. -/
inductive Exceeded (bounds : Bounds α) (amount : α) : α → Prop
  | above (upper : α) (hupper : bounds.upper = some upper) (h : upper < amount) :
      Exceeded bounds amount upper
  | below (lower : α) (hlower : bounds.lower = some lower) (h : amount < lower) :
      Exceeded bounds amount lower

theorem contains_iff {bounds : Bounds α} {amount : α} :
    bounds.contains amount = true ↔
      (∀ lower, bounds.lower = some lower → lower ≤ amount) ∧
      (∀ upper, bounds.upper = some upper → amount ≤ upper) := by
  unfold contains
  rw [Bool.and_eq_true]
  cases bounds.lower <;> cases bounds.upper <;> simp

theorem finite_of_areUsable {bounds : Bounds α} (h : bounds.areUsable = true) : bounds.Finite := by
  unfold areUsable at h
  obtain ⟨hall, -⟩ := Bool.and_eq_true _ _ |>.mp h
  rw [List.all_eq_true] at hall
  refine ⟨fun lower hlower => hall lower ?_, fun upper hupper => hall upper ?_⟩
  · simp [hlower]
  · simp [hupper]

variable [Amount.Ordered α]

theorem uncrossed_of_areUsable {bounds : Bounds α} (h : bounds.areUsable = true) :
    bounds.Uncrossed := by
  have hfinite := finite_of_areUsable h
  intro lower upper hlower hupper
  unfold areUsable at h
  rw [hlower, hupper] at h
  obtain ⟨-, hordered⟩ := Bool.and_eq_true _ _ |>.mp h
  refine le_of_not_lt (hfinite.upper upper hupper) (hfinite.lower lower hlower) ?_
  simpa using hordered

/-- Bounds with something between them do not cross. -/
theorem uncrossed_of_contains {bounds : Bounds α} (hfinite : bounds.Finite) {amount : α}
    (hamount : isFinite amount = true) (h : bounds.contains amount = true) : bounds.Uncrossed := by
  obtain ⟨hlower, hupper⟩ := contains_iff.1 h
  intro lower upper hl hu
  exact le_trans (hfinite.lower lower hl) hamount (hfinite.upper upper hu) (hlower lower hl)
    (hupper upper hu)

/-- An amount outside uncrossed bounds has gone beyond one of them, and clamping gives that one. -/
theorem exceeded_clamp {bounds : Bounds α} (hfinite : bounds.Finite) (huncrossed : bounds.Uncrossed)
    {amount : α} (hamount : isFinite amount = true) (h : bounds.contains amount = false) :
    bounds.Exceeded amount (bounds.clamp amount) := by
  have houtside : ¬ bounds.contains amount = true := by simp [h]
  rw [contains_iff] at houtside
  unfold clamp
  cases hu : bounds.upper with
  | none =>
    cases hl : bounds.lower with
    | none => exact absurd ⟨by simp [hl], by simp [hu]⟩ houtside
    | some lower =>
      have hlf := hfinite.lower lower hl
      have hbelow : ¬ lower ≤ amount := by
        intro hle
        exact houtside ⟨by simpa [hl] using hle, by simp [hu]⟩
      dsimp only
      rw [max_eq hamount hlf, if_neg hbelow]
      exact .below lower hl ((lt_iff_not_le hamount hlf).2 hbelow)
  | some upper =>
    have huf := hfinite.upper upper hu
    dsimp only
    rw [min_eq hamount huf]
    by_cases habove : amount ≤ upper
    · rw [if_pos habove]
      cases hl : bounds.lower with
      | none => exact absurd ⟨by simp [hl], by simpa [hu] using habove⟩ houtside
      | some lower =>
        have hlf := hfinite.lower lower hl
        have hbelow : ¬ lower ≤ amount := by
          intro hle
          exact houtside ⟨by simpa [hl] using hle, by simpa [hu] using habove⟩
        dsimp only
        rw [max_eq hamount hlf, if_neg hbelow]
        exact .below lower hl ((lt_iff_not_le hamount hlf).2 hbelow)
    · rw [if_neg habove]
      have hexceeded := Exceeded.above upper hu ((lt_iff_not_le huf hamount).2 habove)
      cases hl : bounds.lower with
      | none => exact hexceeded
      | some lower =>
        dsimp only
        rw [max_eq huf (hfinite.lower lower hl), if_pos (huncrossed lower upper hl hu)]
        exact hexceeded

/-- Either of two uncrossed bounds lies within them. -/
theorem Exceeded.contains {bounds : Bounds α} (hfinite : bounds.Finite)
    (huncrossed : bounds.Uncrossed) {amount bound : α} (h : bounds.Exceeded amount bound) :
    isFinite bound = true ∧ bounds.contains bound = true := by
  cases h with
  | above hupper _ =>
    have huf := hfinite.upper bound hupper
    refine ⟨huf, contains_iff.2 ⟨fun lower hlower => ?_, fun other hother => ?_⟩⟩
    · exact huncrossed lower bound hlower hupper
    · rw [hupper] at hother
      cases hother
      exact le_refl huf
  | below hlower _ =>
    have hlf := hfinite.lower bound hlower
    refine ⟨hlf, contains_iff.2 ⟨fun other hother => ?_, fun upper hupper => ?_⟩⟩
    · rw [hlower] at hother
      cases hother
      exact le_refl hlf
    · exact huncrossed bound upper hlower hupper

/-- Clamping leaves an amount alone that is within the bounds, -/
theorem clamp_of_contains {bounds : Bounds α} (hfinite : bounds.Finite) {amount : α}
    (hamount : isFinite amount = true) (h : bounds.contains amount = true) :
    bounds.clamp amount = amount := by
  obtain ⟨hlower, hupper⟩ := contains_iff.1 h
  have hmin : ∀ upper, bounds.upper = some upper → min amount upper = amount := by
    intro upper hu
    rw [min_eq hamount (hfinite.upper upper hu), if_pos (hupper upper hu)]
  have hmax : ∀ lower, bounds.lower = some lower → max amount lower = amount := by
    intro lower hl
    rw [max_eq hamount (hfinite.lower lower hl), if_pos (hlower lower hl)]
  unfold clamp
  cases hu : bounds.upper <;> cases hl : bounds.lower <;> simp_all

/-- and always ends within usable ones. -/
theorem contains_clamp {bounds : Bounds α} (husable : bounds.areUsable = true) {amount : α}
    (hamount : isFinite amount = true) :
    isFinite (bounds.clamp amount) = true ∧ bounds.contains (bounds.clamp amount) = true := by
  have hfinite := finite_of_areUsable husable
  by_cases h : bounds.contains amount = true
  · rw [clamp_of_contains hfinite hamount h]
    exact ⟨hamount, h⟩
  · have huncrossed := uncrossed_of_areUsable husable
    exact (exceeded_clamp hfinite huncrossed hamount (by simpa using h)).contains hfinite huncrossed

end Bounds

/-! ## Sound ledgers -/

namespace Ledger

variable {α : Type} [Amount α]

/-- A resource has a finite amount within finite bounds. -/
structure SoundAt (ledger : Ledger α) (id : String) : Prop where
  amount : isFinite (ledger.amount id) = true
  bounds : (ledger.boundsOf id).Finite
  within : (ledger.boundsOf id).contains (ledger.amount id) = true

/-- Every resource that is not derived has a finite amount within finite bounds. -/
def Sound (catalog : Catalog α) (ledger : Ledger α) : Prop :=
  ∀ id, catalog.contains id = true → catalog.isParent id = false → ledger.SoundAt id

/-- What becomes of an attempted amount: it is stored if it lies within the bounds, and otherwise,
    under a policy that clamps, the bound that it has gone beyond. -/
inductive Settled (bounds : Bounds α) (policy : Reconciliation) (attempted : α) : α → Prop
  | within (h : bounds.contains attempted = true) : Settled bounds policy attempted attempted
  | clamped (bound : α) (h : bounds.contains attempted = false) (hpolicy : policy = .clamp)
      (hbound : bounds.Exceeded attempted bound) : Settled bounds policy attempted bound

variable [Amount.Ordered α]

theorem settled_of_reconcile {resource : String} {bounds : Bounds α} {attempted amount : α}
    {policy : Reconciliation} (hfinite : bounds.Finite) (huncrossed : bounds.Uncrossed)
    (hattempted : isFinite attempted = true)
    (h : reconcile resource bounds attempted policy = .ok amount) :
    Settled bounds policy attempted amount := by
  unfold reconcile at h
  by_cases hwithin : bounds.contains attempted = true
  · rw [if_pos hwithin] at h
    cases h
    exact .within hwithin
  · rw [if_neg hwithin] at h
    have houtside : bounds.contains attempted = false := by simpa using hwithin
    cases policy with
    | reject => cases h
    | clamp =>
      cases h
      exact .clamped _ houtside rfl (Bounds.exceeded_clamp hfinite huncrossed hattempted houtside)

theorem Settled.contains {bounds : Bounds α} {policy : Reconciliation} {attempted amount : α}
    (hfinite : bounds.Finite) (huncrossed : bounds.Uncrossed)
    (hattempted : isFinite attempted = true) (h : Settled bounds policy attempted amount) :
    isFinite amount = true ∧ bounds.contains amount = true := by
  cases h with
  | within h => exact ⟨hattempted, h⟩
  | clamped _ _ _ hbound => exact hbound.contains hfinite huncrossed

/-- The bounds a write is measured against are finite and do not cross: new ones have been checked,
    old ones have an amount between them. -/
theorem Write.rebound_bounds {ledger : Ledger α} {write : Write α} (husable : write.BoundsUsable)
    (hsound : ledger.SoundAt write.resource) :
    ((write.rebound ledger).boundsOf write.resource).Finite ∧
      ((write.rebound ledger).boundsOf write.resource).Uncrossed := by
  have hold : (ledger.boundsOf write.resource).Finite ∧
      (ledger.boundsOf write.resource).Uncrossed :=
    ⟨hsound.bounds, Bounds.uncrossed_of_contains hsound.bounds hsound.amount hsound.within⟩
  cases write with
  | apply delta => exact hold
  | setAmount resource amount policy => exact hold
  | setBounds resource bounds policy =>
    show (Ledger.boundsOf _ resource).Finite ∧ (Ledger.boundsOf _ resource).Uncrossed
    rw [rebound_boundsOf_setBounds]
    exact ⟨Bounds.finite_of_areUsable husable, Bounds.uncrossed_of_areUsable husable⟩

omit [Amount.Ordered α] in
/-- Being sound at a resource is a matter of its amount and its bounds. -/
theorem SoundAt.congr {before after : Ledger α} {id : String} (h : before.SoundAt id)
    (hamount : after.amount id = before.amount id)
    (hbounds : after.boundsOf id = before.boundsOf id) : after.SoundAt id where
  amount := by rw [hamount]; exact h.amount
  bounds := by rw [hbounds]; exact h.bounds
  within := by rw [hamount, hbounds]; exact h.within

omit [Amount.Ordered α] in
theorem SoundAt.rebound_of_ne {ledger : Ledger α} {id : String} (h : ledger.SoundAt id)
    {write : Write α} (hne : write.resource ≠ id) : (write.rebound ledger).SoundAt id :=
  h.congr (write.rebound_amount ledger id) (write.rebound_boundsOf_of_ne ledger hne)

omit [Amount.Ordered α] in
theorem SoundAt.store_of_ne {catalog : Catalog α} (hc : catalog.Consistent) {ledger : Ledger α}
    {id : String} (hid : catalog.isParent id = false) (h : ledger.SoundAt id) {resource : String}
    {amount : α} (hne : resource ≠ id) : (ledger.store catalog resource amount).SoundAt id := by
  refine h.congr ?_ (store_boundsOf catalog ledger resource amount id)
  rw [amount_store_of_not_parent hc hid, if_neg hne]

/-- A resource is sound after an amount within the bounds of a write has been stored for it. -/
theorem SoundAt.store {catalog : Catalog α} (hc : catalog.Consistent) {ledger : Ledger α}
    {write : Write α} {amount : α} (hid : catalog.isParent write.resource = false)
    (h : ledger.SoundAt write.resource) (husable : write.BoundsUsable)
    (hamount : isFinite amount = true ∧
      ((write.rebound ledger).boundsOf write.resource).contains amount = true) :
    ((write.rebound ledger).store catalog write.resource amount).SoundAt write.resource := by
  have hstored : ((write.rebound ledger).store catalog write.resource amount).amount write.resource
      = amount := by
    rw [amount_store_of_not_parent hc hid, if_pos rfl]
  refine ⟨?_, ?_, ?_⟩
  · rw [hstored]; exact hamount.1
  · rw [store_boundsOf]; exact (Write.rebound_bounds husable h).1
  · rw [store_boundsOf, hstored]; exact hamount.2

/-- However a write ends, it leaves a resource sound that was so, whatever the others are. -/
theorem SoundAt.write {catalog : Catalog α} (hc : catalog.Consistent) {ledger : Ledger α}
    {id : String} (hid : catalog.isParent id = false) (h : ledger.SoundAt id) (write : Write α) :
    ((write.attempt catalog).after ledger).SoundAt id := by
  rw [Attempt.after_def]
  have hending := write.ending catalog ledger
  generalize (write.attempt catalog).run ledger = result at hending
  cases hending with
  | refused error => exact h
  | stranded error _ _ hamount =>
    refine h.rebound_of_ne ?_
    rintro rfl
    rw [h.amount] at hamount
    cases hamount
  | written attempted amount _ husable _ hfinite hreconcile =>
    by_cases hwritten : write.resource = id
    · subst hwritten
      obtain ⟨hboundsFinite, huncrossed⟩ := Write.rebound_bounds husable h
      have hsettled := settled_of_reconcile hboundsFinite huncrossed hfinite hreconcile
      exact h.store hc hid husable (hsettled.contains hboundsFinite huncrossed hfinite)
    · exact (h.rebound_of_ne hwritten).store_of_ne hc hid hwritten

/-- A written amount is settled, and the ledger is sound again. -/
theorem Sound.store {catalog : Catalog α} (hc : catalog.Consistent) {ledger : Ledger α}
    (hsound : ledger.Sound catalog) {write : Write α} {amount : α}
    (husable : write.BoundsUsable) (hresource : ledger.SoundAt write.resource)
    (hamount : isFinite amount = true ∧
      ((write.rebound ledger).boundsOf write.resource).contains amount = true) :
    ((write.rebound ledger).store catalog write.resource amount).Sound catalog := by
  intro id hknown hparent
  by_cases hid : write.resource = id
  · subst hid
    exact hresource.store hc hparent husable hamount
  · exact ((hsound id hknown hparent).rebound_of_ne hid).store_of_ne hc hparent hid

/-- **No write takes a resource out of its bounds.** Whatever is written and however it ends, a
    sound ledger stays sound; and if it succeeds, the amount in the ledger is the attempted one or
    the bound that it went beyond. -/
theorem write_keeps_sound {resources : List (Resource α)} {groups : List Group}
    {catalog : Catalog α} (hbuild : Catalog.build resources groups = .ok catalog)
    {ledger : Ledger α} (hsound : ledger.Sound catalog) (write : Write α) :
    ((write.attempt catalog).after ledger).Sound catalog ∧
    ∀ change after, (write.attempt catalog).run ledger = (.ok change, after) →
      ∃ attempted, write.attempted ledger = .ok attempted ∧
        Settled ((write.rebound ledger).boundsOf write.resource) write.policy attempted
          (after.amount write.resource) := by
  have hc := Catalog.build_consistent hbuild
  have hat : catalog.requireWritable write.resource = .ok () → ledger.SoundAt write.resource := by
    intro hwritable
    obtain ⟨hknown, hparent⟩ := Catalog.requireWritable_eq_ok.1 hwritable
    exact hsound write.resource hknown hparent
  rw [Attempt.after_def]
  have hending := write.ending catalog ledger
  generalize (write.attempt catalog).run ledger = result at hending
  cases hending with
  | refused error =>
    refine ⟨hsound, ?_⟩
    intro change after h
    cases h
  | stranded error hwritable _ hamount =>
    rw [(hat hwritable).amount] at hamount
    cases hamount
  | written attempted amount hwritable husable hattempted hfinite hreconcile =>
    have hresource := hat hwritable
    obtain ⟨hboundsFinite, huncrossed⟩ := Write.rebound_bounds husable hresource
    have hsettled := settled_of_reconcile hboundsFinite huncrossed hfinite hreconcile
    refine ⟨hsound.store hc husable hresource
      (hsettled.contains hboundsFinite huncrossed hfinite), ?_⟩
    intro change after h
    cases h
    refine ⟨attempted, hattempted, ?_⟩
    rw [amount_store_of_not_parent hc (Catalog.requireWritable_eq_ok.1 hwritable).2, if_pos rfl]
    exact hsettled

theorem sound_sample : (initial Sample.catalog).Sound Sample.catalog := by
  intro id hknown hparent
  have hid : id ∈ Sample.catalog.definitions.keys := Table.mem_keys_iff.2 hknown
  rw [show Sample.catalog.definitions.keys = ["happiness", "mood"] from rfl] at hid
  simp only [List.mem_cons, List.not_mem_nil, or_false] at hid
  rcases hid with rfl | rfl
  · exact ⟨by decide +kernel, Bounds.finite_of_areUsable (by decide +kernel), by decide +kernel⟩
  · exact absurd hparent (by decide +kernel)

/-- An amount far beyond the upper bound, clamped: it settles at that bound. -/
theorem write_keeps_sound_clamped :
    Catalog.build [Sample.happiness] [Sample.moods] = .ok Sample.catalog ∧
    (initial Sample.catalog).Sound Sample.catalog ∧
    ∃ change after, ((Write.setAmount "happiness" (Amount.ofInt 30) .clamp).attempt
        Sample.catalog).run (initial Sample.catalog) = (.ok change, after) ∧
      after.Sound Sample.catalog ∧ after.amount "happiness" = Amount.ofInt 10 := by
  have hfine : (((Write.setAmount "happiness" (Amount.ofInt 30) .clamp).attempt
      Sample.catalog).outcome (initial Sample.catalog)).isOk = true := by decide +kernel
  obtain ⟨hsound, hstored⟩ := write_keeps_sound Sample.build_catalog sound_sample
    (.setAmount "happiness" (Amount.ofInt 30) .clamp)
  rw [Attempt.outcome_def] at hfine
  rw [Attempt.after_def] at hsound
  generalize ((Write.setAmount "happiness" (Amount.ofInt 30) .clamp).attempt Sample.catalog).run
    (initial Sample.catalog) = result at hfine hsound hstored ⊢
  obtain ⟨outcome, after⟩ := result
  cases outcome with
  | error error => cases hfine
  | ok change =>
  refine ⟨Sample.build_catalog, sound_sample, change, after, rfl, hsound, ?_⟩
  obtain ⟨attempted, hattempted, hsettled⟩ := hstored change after rfl
  have hsettled : Settled Sample.happiness.bounds .clamp (Amount.ofInt 30)
      (after.amount "happiness") := Except.ok.inj hattempted ▸ hsettled
  generalize after.amount "happiness" = amount at hsettled ⊢
  cases hsettled with
  | within h => exact absurd h (by decide +kernel)
  | clamped _ _ _ hexceeded =>
    cases hexceeded with
    | above hupper => exact (Option.some.inj hupper).symm
    | below hlower h =>
      rw [← Option.some.inj hlower] at h
      exact absurd h (by decide +kernel)

end Ledger

end Realm
