import Mathlib.Data.List.Forall2
import Realm.Proofs.Effect.Dispatch

/-!
# Taking away

A removal takes a thing off the player and then takes back what the thing's effects did, which may
remove further things, however the content's things refer to each other. What is left of the player
afterwards has only been detached from (`Player.Detached`), and every thing taken away leaves one
thing less to take (`Player.attachments`).

`Removes` says when an invariant and a kind of error make all removals safe, and `removeWithin_safe`
and the lemmas after it that they are then. The proof is one induction on the number of things that
are left; that the number suffices is one use of it (`Realm.Proofs.Effect.Detaching`), that no
operation is found missing is another.
-/

set_option autoImplicit false

namespace Realm

/-! ## What is left of a player -/

/-- A land with some of its developments gone. -/
structure Land.Razed (before after : Land) : Prop where
  id : after.id = before.id
  slots : after.slots = before.slots
  tilled : after.tilled = before.tilled
  developments : after.developments.Sublist before.developments

theorem Land.Razed.refl (land : Land) : land.Razed land := ⟨rfl, rfl, rfl, .refl _⟩

theorem Land.Razed.trans {first second third : Land} (h : first.Razed second)
    (h' : second.Razed third) : first.Razed third :=
  ⟨h'.id.trans h.id, h'.slots.trans h.slots, h'.tilled.trans h.tilled,
    h'.developments.trans h.developments⟩

theorem Land.razed_raze (land : Land) (development : String) : land.Razed (land.raze development) :=
  ⟨rfl, rfl, rfl, List.erase_sublist⟩

theorem Land.forall₂_razed_trans {first second third : List Land}
    (h : List.Forall₂ Land.Razed first second) (h' : List.Forall₂ Land.Razed second third) :
    List.Forall₂ Land.Razed first third := by
  induction h generalizing third with
  | nil =>
    cases h'
    exact .nil
  | cons hland _ ih =>
    cases h' with
    | cons hland' hrest' => exact .cons (hland.trans hland') (ih hrest')

/-- Changing the first land that passes a test changes one land at most. -/
theorem Land.forall₂_updateFirst {test : Land → Bool} {change : Land → Land}
    {related : Land → Land → Prop} (hrefl : ∀ land, related land land)
    (hchange : ∀ land, test land = true → related land (change land)) (lands : List Land) :
    List.Forall₂ related lands (Land.updateFirst test change lands) := by
  induction lands with
  | nil => exact .nil
  | cons land rest ih =>
    unfold Land.updateFirst
    split
    · rename_i htest
      exact .cons (hchange land htest) (List.forall₂_same.2 fun other _ => hrefl other)
    · exact .cons (hrefl land) ih

theorem Land.length_developments_le {before after : List Land}
    (h : List.Forall₂ Land.Razed before after) :
    (after.flatMap (·.developments)).length ≤ (before.flatMap (·.developments)).length := by
  induction h with
  | nil => exact Nat.le_refl 0
  | cons hland _ ih =>
    have hlength := hland.developments.length_le
    simp only [List.flatMap_cons, List.length_append]
    omega

theorem Land.length_developments_raze_lt (development : String) {test : Land → Bool}
    {lands : List Land} (htest : ∀ land, test land = true → development ∈ land.developments)
    (h : ∃ land ∈ lands, test land = true) :
    ((Land.updateFirst test (·.raze development) lands).flatMap (·.developments)).length
      < (lands.flatMap (·.developments)).length := by
  induction lands with
  | nil => simp at h
  | cons land rest ih =>
    unfold Land.updateFirst
    split
    · rename_i hland
      have hmem := htest land hland
      have hpos : 0 < land.developments.length := List.length_pos_of_mem hmem
      have herase : (land.raze development).developments.length = land.developments.length - 1 :=
        List.length_erase_of_mem hmem
      simp only [List.flatMap_cons, List.length_append, herase]
      omega
    · rename_i hland
      obtain ⟨other, hother, hpass⟩ := h
      rcases List.mem_cons.1 hother with rfl | hother
      · exact absurd hpass hland
      · have hrest := ih ⟨other, hother, hpass⟩
        simp only [List.flatMap_cons, List.length_append]
        omega

variable {α : Type}

/-- A player with some passives, buildings and developments gone, and nothing else of what is owned
    changed. -/
structure Player.Detached (before after : Player α) : Prop where
  passives : after.passives.Sublist before.passives
  buildings : ∀ id, after.buildings.contains id = true → before.buildings.contains id = true
  lands : List.Forall₂ Land.Razed before.lands after.lands
  tiers : after.tiers = before.tiers
  landCounter : after.landCounter = before.landCounter

theorem Player.Detached.refl (player : Player α) : player.Detached player :=
  ⟨.refl _, fun _ h => h, List.forall₂_same.2 fun land _ => .refl land, rfl, rfl⟩

theorem Player.Detached.trans {first second third : Player α} (h : first.Detached second)
    (h' : second.Detached third) : first.Detached third := by
  exact ⟨h'.passives.trans h.passives, fun id hid => h.buildings id (h'.buildings id hid),
    Land.forall₂_razed_trans h.lands h'.lands, h'.tiers.trans h.tiers,
    h'.landCounter.trans h.landCounter⟩

theorem Player.Detached.attachments_le {before after : Player α} (h : before.Detached after) :
    after.attachments ≤ before.attachments := by
  have hpassives := h.passives.length_le
  have hbuildings := Table.size_le h.buildings
  have hdevelopments := Land.length_developments_le h.lands
  unfold Player.attachments
  omega

theorem exists_land_of_landWithDevelopment {player : Player α} {development : String}
    {named : Option String} {land : Land}
    (h : landWithDevelopment player development named = .ok (some land)) :
    ∃ other ∈ player.lands,
      (other.id == land.id && other.developments.contains development) = true := by
  have hfound : land ∈ player.lands ∧ land.developments.contains development = true := by
    unfold landWithDevelopment at h
    cases named with
    | none =>
      have hfind := Except.ok.inj h
      have hhas := List.find?_some hfind
      exact ⟨List.mem_of_find?_eq_some hfind, hhas⟩
    | some id =>
      dsimp only at h
      cases hland : player.land? id with
      | none =>
        rw [hland] at h
        cases h
      | some found =>
        rw [hland] at h
        dsimp only at h
        split at h
        · rename_i hhas
          cases h
          exact ⟨List.mem_of_find?_eq_some hland, hhas⟩
        · cases h
  refine ⟨land, hfound.1, ?_⟩
  rw [hfound.2, beq_self_eq_true, Bool.and_self]

namespace Draft

variable [Amount α] {setting : Setting α} {before after : Draft α}

theorem Taking.detached (h : Taking setting before after) :
    before.player.Detached after.player := by
  cases h with
  | write call =>
    rw [record_player]
    exact { Player.Detached.refl before.player with tiers := rfl }
  | skip add phase step source => exact { Player.Detached.refl before.player with tiers := rfl }
  | detach id active hactive => exact { Player.Detached.refl before.player with
      passives := List.eraseP_sublist }
  | disown id howned => exact { Player.Detached.refl before.player with
      buildings := fun _ => Table.contains_of_contains_erase }
  | raze id named land hland => exact { Player.Detached.refl before.player with
      lands := Land.forall₂_updateFirst .refl (fun land _ => land.razed_raze id) _ }

/-! A thing taken away is one thing less. -/

omit [Amount α] in
theorem attachments_detach {player : Player α} {id : String} {active : ActivePassive α}
    (h : player.passive? id = some active) :
    (player.withoutPassive id).attachments < player.attachments := by
  have hmem : active ∈ player.passives := List.mem_of_find?_eq_some h
  have hid := List.find?_some h
  have herase : (player.passives.eraseP fun active => active.id == id).length
      = player.passives.length - 1 := List.length_eraseP_of_mem hmem hid
  have hpos := List.length_pos_of_mem hmem
  unfold Player.attachments Player.withoutPassive
  dsimp only
  omega

omit [Amount α] in
theorem attachments_disown {player : Player α} {id : String}
    (h : player.buildings.contains id = true) :
    { player with buildings := player.buildings.erase id }.attachments < player.attachments := by
  have hsize := Table.size_erase_lt h
  unfold Player.attachments
  dsimp only
  omega

omit [Amount α] in
theorem attachments_raze {player : Player α} {id : String} {named : Option String} {land : Land}
    (h : landWithDevelopment player id named = .ok (some land)) :
    { player with lands := Land.updateFirst (fun other => other.id == land.id &&
        other.developments.contains id) (·.raze id) player.lands }.attachments
      < player.attachments := by
  have hfewer := Land.length_developments_raze_lt id (fun other hother => ?_)
    (exists_land_of_landWithDevelopment h)
  · unfold Player.attachments
    dsimp only
    omega
  · rw [Bool.and_eq_true] at hother
    exact List.contains_iff_mem.1 hother.2

end Draft

variable [Amount α] {setting : Setting α}

/-! ## Safe removals -/

/-- Taking the effect back does not fail in a bad way for want of the operation. -/
def Effect.Revertible (setting : Setting α) (bad : EffectError α → Prop) (effect : Effect α) :
    Prop :=
  ∀ undoing inverse, effect.inverse? = some (undoing, inverse) →
    bad (.unknownEffect inverse.family inverse.method) →
    setting.operations.contains (.undoing undoing) = true

/-- What makes removals safe: an invariant that taking away keeps, and bad errors that only come of
    dispatch; under the invariant, whatever is taken away has effects that can be taken back. -/
structure Removes (setting : Setting α) (bad : EffectError α → Prop)
    (holds : Draft α → Prop) : Prop where
  dispatch : ∀ error, bad error → error.isDispatch = true
  keeps : ∀ before after, Draft.Taking setting before after → holds before → holds after
  passive : ∀ draft, holds draft → ∀ active ∈ draft.player.passives,
    ∀ effect ∈ active.definition.effects, effect.Revertible setting bad
  development : ∀ id development, setting.content.developments.find? id = some development →
    ∀ effect ∈ development.effects, effect.Revertible setting bad

/-- The invariant, with fewer than `bound` things left to take away. -/
def Draft.HasFewer (bound : Nat) (holds : Draft α → Prop) (draft : Draft α) : Prop :=
  holds draft ∧ draft.player.attachments < bound

section

variable {bad : EffectError α → Prop} {holds : Draft α → Prop}

theorem Removes.not_bad (h : Removes setting bad holds) {error : EffectError α}
    (herror : error.isDispatch = false) : ¬ bad error := by
  intro hbad
  rw [h.dispatch error hbad] at herror
  cases herror

theorem Removes.keeps_fewer (h : Removes setting bad holds) (bound : Nat)
    (before after : Draft α) (hstep : Draft.Taking setting before after)
    (hbefore : before.HasFewer bound holds) : after.HasFewer bound holds :=
  ⟨h.keeps before after hstep hbefore.1,
    Nat.lt_of_le_of_lt hstep.detached.attachments_le hbefore.2⟩

theorem Removes.fewer_of_lt (h : Removes setting bad holds) {bound : Nat}
    {before after : Draft α} (hstep : Draft.Taking setting before after)
    (hless : after.player.attachments < before.player.attachments)
    (hbefore : before.HasFewer (bound + 1) holds) : after.HasFewer bound holds := by
  refine ⟨h.keeps before after hstep hbefore.1, ?_⟩
  have hfew := hbefore.2
  omega

omit [Amount α] in
theorem Draft.HasFewer.succ {bound : Nat} {draft : Draft α} (h : draft.HasFewer bound holds) :
    draft.HasFewer (bound + 1) holds :=
  ⟨h.1, Nat.lt_succ_of_lt h.2⟩

theorem revertWith_safe (h : Removes setting bad holds) {bound : Nat}
    {remove : Removal → DraftAttempt α Unit}
    (hremove : ∀ removal draft, draft.HasFewer bound holds →
      (remove removal).SafeAt (Draft.HasFewer bound holds) bad draft)
    {effect : Effect α} (heffect : effect.Revertible setting bad) {draft : Draft α}
    (hdraft : draft.HasFewer bound holds) :
    (revertWith setting remove effect).SafeAt (Draft.HasFewer bound holds) bad draft := by
  unfold revertWith
  cases hinverse : effect.inverse? with
  | none => exact Attempt.safeAt_pure hdraft
  | some inverse =>
    obtain ⟨undoing, inverse⟩ := inverse
    dsimp only
    split
    · refine Attempt.safeAt_ofExcept_bind hdraft ?_ fun instruction hread => ?_
      · intro error herror
        exact h.not_bad (undoing.read_mild inverse error herror)
      · cases instruction with
        | inl leaf =>
          refine (Leaf.apply_taking (Undoing.isUndoing_of_read hread) _ draft).safeAt
            (h.keeps_fewer bound) hdraft fun error herror hbad => ?_
          exact (leaf.apply_mild setting _ draft).2 error herror (h.dispatch error hbad)
        | inr removal => exact Attempt.safeAt_times (hremove removal) _ hdraft
    · -- The operation that would take the effect back is not in force.
      rename_i hmissing
      refine Attempt.safeAt_fail hdraft fun hbad => ?_
      exact hmissing (heffect undoing inverse hinverse hbad)

section

variable {bound : Nat} {revert : List (Effect α) → DraftAttempt α Unit}
  (hrevert : ∀ effects, (∀ effect ∈ effects, effect.Revertible setting bad) →
    ∀ draft, draft.HasFewer bound holds →
      (revert effects).SafeAt (Draft.HasFewer bound holds) bad draft)
include hrevert

theorem removePassiveWith_safe (h : Removes setting bad holds) (id : String) {draft : Draft α}
    (hdraft : draft.HasFewer (bound + 1) holds) :
    (removePassiveWith revert id).SafeAt (Draft.HasFewer (bound + 1) holds) bad draft := by
  refine Draft.safeAt_current ?_
  cases hactive : draft.player.passive? id with
  | none => exact Attempt.safeAt_pure hdraft
  | some active =>
    -- The passive goes before its effects are taken back: they start with one thing less.
    have hfewer := h.fewer_of_lt (.detach id active hactive)
      (Draft.attachments_detach hactive) hdraft
    refine (Draft.safeAt_update hfewer.succ).bind fun _ between hbetween _ => ?_
    cases hbetween
    have heffects := h.passive draft hdraft.1 active (List.mem_of_find?_eq_some hactive)
    refine Attempt.SafeAt.bind_pure ?_ _
    exact (hrevert _ heffects _ hfewer).mono (fun _ => Draft.HasFewer.succ) fun _ hbad => hbad

theorem removeOwnedWith_safe (h : Removes setting bad holds) (owner : String) {draft : Draft α}
    (hdraft : draft.HasFewer (bound + 1) holds) :
    (removeOwnedWith revert owner).SafeAt (Draft.HasFewer (bound + 1) holds) bad draft := by
  refine Draft.safeAt_current ?_
  refine Attempt.SafeAt.bind_pure ?_ _
  refine Attempt.safeAt_forM (fun id _ state hstate => ?_) hdraft
  exact (removePassiveWith_safe hrevert h id hstate).bind_pure _

theorem removeBuildingWith_safe (h : Removes setting bad holds) (id : String) {draft : Draft α}
    (hdraft : draft.HasFewer (bound + 1) holds) :
    (removeBuildingWith revert id).SafeAt (Draft.HasFewer (bound + 1) holds) bad draft := by
  refine Draft.safeAt_current ?_
  split
  · rename_i howned
    have hfewer := h.fewer_of_lt (.disown id howned) (Draft.attachments_disown howned) hdraft
    refine (Draft.safeAt_update hfewer.succ).bind fun _ between _ hbetween => ?_
    exact (removeOwnedWith_safe hrevert h _ hbetween).bind_pure _
  · exact Attempt.safeAt_pure hdraft

theorem removeDevelopmentWith_safe (h : Removes setting bad holds) (id : String)
    (land : Option String) {draft : Draft α} (hdraft : draft.HasFewer (bound + 1) holds) :
    (removeDevelopmentWith setting revert id land).SafeAt
      (Draft.HasFewer (bound + 1) holds) bad draft := by
  refine Attempt.safeAt_ofOption_bind hdraft (fun _ => h.not_bad rfl) fun development hfind => ?_
  refine Draft.safeAt_current (Attempt.safeAt_ofExcept_bind hdraft ?_ fun found hland => ?_)
  · intro error herror
    exact h.not_bad (landWithDevelopment_mild _ _ _ error herror)
  · cases found with
    | none => exact Attempt.safeAt_pure hdraft
    | some found =>
      have hfewer := h.fewer_of_lt (.raze id land found hland) (Draft.attachments_raze hland) hdraft
      refine (Draft.safeAt_update hfewer.succ).bind fun _ between hbetween _ => ?_
      cases hbetween
      refine Attempt.SafeAt.bind_pure ?_ _
      exact (hrevert _ (h.development id development hfind) _ hfewer).mono
        (fun _ => Draft.HasFewer.succ) fun _ hbad => hbad

theorem removeWith_safe (h : Removes setting bad holds) (removal : Removal) {draft : Draft α}
    (hdraft : draft.HasFewer (bound + 1) holds) :
    (removeWith setting revert removal).SafeAt (Draft.HasFewer (bound + 1) holds) bad draft := by
  cases removal with
  | building id =>
    exact (removeBuildingWith_safe hrevert h id hdraft).bind_pure _
  | passive id =>
    exact (removePassiveWith_safe hrevert h id hdraft).bind_pure _
  | development id land =>
    exact (removeDevelopmentWith_safe hrevert h id land hdraft).bind_pure _

end

theorem revertAllWith_safe (h : Removes setting bad holds) {bound : Nat}
    {remove : Removal → DraftAttempt α Unit}
    (hremove : ∀ removal draft, draft.HasFewer bound holds →
      (remove removal).SafeAt (Draft.HasFewer bound holds) bad draft)
    {effects : List (Effect α)} (heffects : ∀ effect ∈ effects, effect.Revertible setting bad)
    {draft : Draft α} (hdraft : draft.HasFewer bound holds) :
    (revertAllWith setting remove effects).SafeAt (Draft.HasFewer bound holds) bad draft := by
  refine Attempt.safeAt_forM (fun effect heffect state hstate => ?_) hdraft
  exact revertWith_safe h hremove (heffects effect (List.mem_reverse.1 heffect)) hstate

/-- Removals are safe within a bound on what is left, by induction on the bound: where nothing is
    left, nothing can be taken away. -/
theorem removeWithin_safe (h : Removes setting bad holds) (bound : Nat) (removal : Removal)
    {draft : Draft α} (hdraft : draft.HasFewer bound holds) :
    (removeWithin setting bound removal).SafeAt (Draft.HasFewer bound holds) bad draft := by
  induction bound generalizing removal draft with
  | zero => exact absurd hdraft.2 (Nat.not_lt_zero _)
  | succ bound ih =>
    refine removeWith_safe (fun effects heffects state hstate => ?_) h removal hdraft
    exact revertAllWith_safe h (fun removal _ hstate => ih removal hstate) heffects hstate

theorem revertAll_safe (h : Removes setting bad holds) {effects : List (Effect α)}
    (heffects : ∀ effect ∈ effects, effect.Revertible setting bad) {bound : Nat} {draft : Draft α}
    (hdraft : draft.HasFewer bound holds) :
    (revertAll setting effects).SafeAt (Draft.HasFewer bound holds) bad draft := by
  refine Draft.safeAt_current ?_
  refine (revertAllWith_safe h (fun removal _ => removeWithin_safe h _ removal) heffects
    ⟨hdraft.1, Nat.lt_succ_self _⟩).mono (fun last hlast => ⟨hlast.1, ?_⟩) fun _ hbad => hbad
  exact Nat.lt_of_le_of_lt (Nat.le_of_lt_succ hlast.2) hdraft.2

/-! Without a bound the recursion starts from what the player has. -/

theorem removePassive_safe (h : Removes setting bad holds) (id : String) {draft : Draft α}
    (hdraft : holds draft) : (removePassive setting id).SafeAt holds bad draft :=
  (removePassiveWith_safe (fun _ heffects _ => revertAll_safe h heffects) h id
    ⟨hdraft, Nat.lt_succ_self _⟩).mono (fun _ hlast => hlast.1) fun _ hbad => hbad

theorem removeOwned_safe (h : Removes setting bad holds) (owner : String) {draft : Draft α}
    (hdraft : holds draft) : (removeOwned setting owner).SafeAt holds bad draft :=
  (removeOwnedWith_safe (fun _ heffects _ => revertAll_safe h heffects) h owner
    ⟨hdraft, Nat.lt_succ_self _⟩).mono (fun _ hlast => hlast.1) fun _ hbad => hbad

theorem removeBuilding_safe (h : Removes setting bad holds) (id : String) {draft : Draft α}
    (hdraft : holds draft) : (removeBuilding setting id).SafeAt holds bad draft :=
  (removeBuildingWith_safe (fun _ heffects _ => revertAll_safe h heffects) h id
    ⟨hdraft, Nat.lt_succ_self _⟩).mono (fun _ hlast => hlast.1) fun _ hbad => hbad

theorem removeDevelopment_safe (h : Removes setting bad holds) (id : String)
    (land : Option String) {draft : Draft α} (hdraft : holds draft) :
    (removeDevelopment setting id land).SafeAt holds bad draft :=
  (removeDevelopmentWith_safe (fun _ heffects _ => revertAll_safe h heffects) h id land
    ⟨hdraft, Nat.lt_succ_self _⟩).mono (fun _ hlast => hlast.1) fun _ hbad => hbad

theorem Removal.apply_safe (h : Removes setting bad holds) (removal : Removal) {draft : Draft α}
    (hdraft : holds draft) : (removal.apply setting).SafeAt holds bad draft :=
  (removeWith_safe (fun _ heffects _ => revertAll_safe h heffects) h removal
    ⟨hdraft, Nat.lt_succ_self _⟩).mono (fun _ hlast => hlast.1) fun _ hbad => hbad

end

end Realm
