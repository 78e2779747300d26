import Mathlib.Logic.Relation
import Realm.Amount.Binary64
import Realm.Content.Loading
import Realm.Proofs.Attempt.Depth
import Realm.Proofs.Document
import Realm.Proofs.Effect.Detaching
import Realm.Proofs.Effect.Room

/-!
# When adding comes to an end

Adding a thing applies its effects, which may add further things, and nothing in the interpreter
looks whether it has been there before. What brakes it is that additions take room
(`Setting.room`), and what releases the brakes again is a removal, or a leaf that adds lands. So an
effect that can bring itself about and release room on the way may go on forever, as
`rebuilding_never_ends` does: a building whose passive takes the building away and adds it again.

Where no cycle of effects releases room, adding ends (`applyWithin_settles`). An effect that
releases nothing, whatever it sets off, ends because each addition takes room, or goes further into
the parameters that it was written in. Any other effect lies on no cycle, so it can only be followed
by others finitely often.
-/

set_option autoImplicit false

namespace Realm

variable {α : Type} [Amount α] {setting : Setting α}

/-! ## More depth changes nothing -/

section

variable {out : EffectError α} {applyAll longer : List (Effect α) → DraftAttempt α Unit}
  (h : ∀ effects, (applyAll effects).ExtendedBy out (longer effects))
include h

omit [Amount α] in
theorem addPassiveWith_extendedBy (definition : Passive α) (tag : PassiveTag) :
    (addPassiveWith applyAll definition tag).ExtendedBy out
      (addPassiveWith longer definition tag) := by
  refine Attempt.ExtendedBy.bind (.refl _) fun player => ?_
  split
  · exact .refl _
  · exact Attempt.ExtendedBy.bind (.refl _) fun _ => h definition.effects

omit [Amount α] in
theorem addBuildingWith_extendedBy (id : String) :
    (addBuildingWith setting applyAll id).ExtendedBy out (addBuildingWith setting longer id) := by
  refine Attempt.ExtendedBy.bind (.refl _) fun building => ?_
  refine Attempt.ExtendedBy.bind (.refl _) fun player => ?_
  split
  · exact .refl _
  · refine Attempt.ExtendedBy.bind (.refl _) fun _ => ?_
    refine Attempt.ExtendedBy.bind (Attempt.extendedBy_forM fun passive _ => ?_) fun _ => .refl _
    exact addPassiveWith_extendedBy h passive _

omit [Amount α] in
theorem addDevelopmentWith_extendedBy (id : String) (land : Option String) :
    (addDevelopmentWith setting applyAll id land).ExtendedBy out
      (addDevelopmentWith setting longer id land) := by
  refine Attempt.ExtendedBy.bind (.refl _) fun development => ?_
  refine Attempt.ExtendedBy.bind (.refl _) fun player => ?_
  refine Attempt.ExtendedBy.bind (.refl _) fun chosen => ?_
  refine Attempt.ExtendedBy.bind (.refl _) fun _ => ?_
  exact (h development.effects).bind fun _ => .refl _

omit [Amount α] in
theorem addWith_extendedBy (addition : Addition α) :
    (addWith setting applyAll addition).ExtendedBy out (addWith setting longer addition) := by
  cases addition with
  | building id => exact (addBuildingWith_extendedBy h id).bind fun _ => .refl _
  | passive definition source => exact addPassiveWith_extendedBy h _ _
  | development id land => exact (addDevelopmentWith_extendedBy h id land).bind fun _ => .refl _

end

/-- What effects do within some depth, they do within every greater one. -/
theorem applyWithin_extendedBy {depth deeper : Nat} (hle : depth ≤ deeper) (effect : Effect α)
    (multiplier : Nat) : (applyWithin setting depth effect multiplier).ExtendedBy .nestedTooDeeply
      (applyWithin setting deeper effect multiplier) := by
  induction depth generalizing deeper effect multiplier with
  | zero => exact Attempt.extendedBy_fail _
  | succ depth ih =>
    obtain ⟨deeper, rfl⟩ : ∃ n, deeper = n + 1 := ⟨deeper - 1, by omega⟩
    unfold applyWithin
    split
    · exact .refl _
    · refine Attempt.ExtendedBy.bind (.refl _) fun instruction => ?_
      cases instruction with
      | leaf leaf => exact .refl _
      | removal removal => exact .refl _
      | addition addition =>
        refine Attempt.extendedBy_times (addWith_extendedBy (fun effects => ?_) addition) _
        exact Attempt.extendedBy_forM fun inner _ => ih (by omega) inner 1

/-! ## Additions that settle -/

section

variable {out : EffectError α} {holds : Draft α → Prop} {draft : Draft α}

omit [Amount α] in
theorem settles_current {β : Type} {next : Nat → Player α → DraftAttempt α β}
    (h : Attempt.Settles out holds (fun depth => next depth draft.player) draft) :
    Attempt.Settles out holds (fun depth => Draft.current >>= next depth) draft := h

omit [Amount α] in
theorem settles_update {β : Type} {change : Player α → Player α}
    {next : Nat → Unit → DraftAttempt α β}
    (h : Attempt.Settles out holds (fun depth => next depth ())
      { draft with player := change draft.player }) :
    Attempt.Settles out holds (fun depth => Draft.update change >>= next depth) draft := h

variable (hout : out.isDispatch = true) {applies : Nat → List (Effect α) → DraftAttempt α Unit}
include hout

omit [Amount α] in
theorem ne_of_isDispatch {error : EffectError α} (herror : error.isDispatch = false) :
    error ≠ out := by
  rintro rfl
  rw [hout] at herror
  cases herror

omit [Amount α] in
theorem addPassiveWith_settles {passive : Passive α} (tag : PassiveTag) (hdraft : holds draft)
    (happly : ∀ tag, draft.player.hasPassive passive.id = false →
      Attempt.Settles out holds (fun depth => applies depth passive.effects)
        { draft with player := { draft.player with
          passives := draft.player.passives ++ [{ definition := passive, tag }] } }) :
    Attempt.Settles out holds (fun depth => addPassiveWith (applies depth) passive tag) draft := by
  refine settles_current ?_
  split
  · exact Attempt.settles_fail hdraft (ne_of_isDispatch hout rfl)
  · rename_i hactive
    exact settles_update (happly _ (by simpa using hactive))

omit [Amount α] in
/-- Adding a building settles if its passives do, from what holds once it is owned. -/
theorem addBuildingWith_settles (owned : Draft α → Prop) {id : String} (hdraft : holds draft)
    (hweaken : ∀ state, owned state → holds state)
    (hown : setting.content.buildings.contains id = true →
      draft.player.buildings.contains id = false →
      owned { draft with player := { draft.player with
        buildings := draft.player.buildings.add id } })
    (hpassives : ∀ passive ∈ (Addition.building id).passives setting.content, ∀ tag state,
      owned state → Attempt.Settles out owned
        (fun depth => addPassiveWith (applies depth) passive tag) state) :
    Attempt.Settles out holds (fun depth => addBuildingWith setting (applies depth) id) draft := by
  refine Attempt.settles_ofOption_bind hdraft (ne_of_isDispatch hout rfl) fun building hfind => ?_
  refine settles_current ?_
  dsimp only
  split
  · exact Attempt.settles_pure hdraft
  · rename_i hnew
    refine settles_update (Attempt.Settles.mono ?_ hweaken)
    refine Attempt.Settles.bind_pure ?_ _
    refine Attempt.settles_forM (fun passive hmem state hstate => ?_)
      (hown (Table.contains_of_find? hfind) (by simpa using hnew))
    rw [Addition.passives_building hfind] at hpassives
    exact hpassives passive hmem _ state hstate

omit [Amount α] in
theorem addDevelopmentWith_settles {id : String} {land : Option String} (hdraft : holds draft)
    (happly : ∀ chosen, landWithFreeSlot draft.player land = .ok chosen →
      Attempt.Settles out holds
        (fun depth => applies depth ((Addition.development id land).effects setting.content))
        { draft with player := { draft.player with
          lands := Land.updateFirst
            (fun land => land.id == chosen.id && decide (0 < land.freeSlots)) (·.build id)
            draft.player.lands } }) :
    Attempt.Settles out holds (fun depth => addDevelopmentWith setting (applies depth) id land)
      draft := by
  refine Attempt.settles_ofOption_bind hdraft (ne_of_isDispatch hout rfl)
    fun development hfind => ?_
  rw [Addition.effects_development hfind] at happly
  refine settles_current ?_
  refine Attempt.settles_ofExcept_bind hdraft ?_ fun chosen hland => ?_
  · intro herror
    exact ne_of_isDispatch hout (landWithFreeSlot_mild _ _ _ herror) rfl
  · refine settles_update ?_
    exact (happly chosen hland).bind_pure _

end

/-! ## Effects that settle -/

theorem settles_of_instruction {holds : Draft α → Prop} {effect : Effect α}
    (hleaf : ∀ leaf, setting.instruction? effect = some (.leaf leaf) →
      ∀ before after, leaf.Step setting before after → holds before → holds after)
    (hremoval : ∀ removal, setting.instruction? effect = some (.removal removal) →
      ∀ state, holds state →
        (removal.apply setting).SafeAt holds (fun error => error = .nestedTooDeeply) state)
    (haddition : ∀ addition, setting.instruction? effect = some (.addition addition) →
      ∀ state, holds state → Attempt.Settles .nestedTooDeeply holds (fun depth => addWith setting
        (fun effects => effects.forM fun inner => applyWithin setting depth inner 1) addition)
        state)
    (multiplier : Nat) {draft : Draft α} (hdraft : holds draft) :
    Attempt.Settles .nestedTooDeeply holds
      (fun depth => applyWithin setting depth effect multiplier) draft := by
  refine Attempt.Settles.of_succ ?_
  unfold applyWithin
  cases hoperation : setting.operation? effect.family effect.method with
  | none => exact Attempt.settles_fail hdraft fun herror => by cases herror
  | some operation =>
    refine Attempt.settles_ofExcept_bind hdraft ?_ fun instruction hread => ?_
    · intro herror
      exact ne_of_isDispatch rfl (operation.read_mild effect _ herror) rfl
    have hinstruction := Setting.instruction?_eq_some_iff.2 ⟨operation, hoperation, hread⟩
    cases instruction with
    | leaf leaf =>
      refine Attempt.settles_const ?_
      refine (leaf.apply_steps _ draft).safeAt (hleaf leaf hinstruction) hdraft ?_
      rintro error herror rfl
      exact (leaf.apply_mild setting _ draft).2 _ herror rfl
    | removal removal =>
      exact Attempt.settles_const (Attempt.safeAt_times (hremoval removal hinstruction) _ hdraft)
    | addition addition => exact Attempt.settles_times (haddition addition hinstruction) _ hdraft

/-! ## What effects set off -/

/-- The effect makes room again. -/
def Setting.Releases (setting : Setting α) (effect : Effect α) : Prop :=
  (∃ removal, setting.instruction? effect = some (.removal removal)) ∨
  ∃ count slots, setting.instruction? effect = some (.leaf (.addLands count slots))

/-- Nothing that the effect sets off makes room. -/
def Setting.Quiet (setting : Setting α) (effect : Effect α) : Prop :=
  ∀ inner, Relation.ReflTransGen setting.Brings effect inner → ¬ setting.Releases inner

/-- Whatever the effect sets off, and sets itself off again, makes no room. -/
def Setting.Braked (setting : Setting α) (effect : Effect α) : Prop :=
  ∀ inner, Relation.ReflTransGen setting.Brings effect inner →
    Relation.TransGen setting.Brings inner inner → setting.Quiet inner

theorem Setting.Quiet.brings {outer inner : Effect α} (h : setting.Quiet outer)
    (hbrings : setting.Brings outer inner) : setting.Quiet inner :=
  fun other hother => h other (.head hbrings hother)

theorem Setting.Braked.brings {outer inner : Effect α} (h : setting.Braked outer)
    (hbrings : setting.Brings outer inner) : setting.Braked inner :=
  fun other hother => h other (.head hbrings hother)

/-- The effects that come with what content declares. -/
def Content.granted (content : Content α) : List (Effect α) :=
  (content.buildings.values.flatMap fun building => building.passives.flatMap (·.effects))
    ++ content.developments.values.flatMap (·.effects)
    ++ content.passives.values.flatMap (·.effects)

/-- What an effect sets off came with what is declared, or stands inside its parameters. -/
theorem Setting.Brings.granted_or_inline {outer inner : Effect α} (h : setting.Brings outer inner) :
    inner ∈ setting.content.granted ∨ inner.params.weight < outer.params.weight := by
  obtain ⟨addition, hinstruction, hinner⟩ := h
  unfold Content.granted
  rw [List.mem_append, List.mem_append]
  cases addition with
  | building id =>
    obtain ⟨passive, hpassive, heffect⟩ := List.mem_flatMap.1 hinner
    obtain ⟨building, hbuilding, hpassive⟩ := Addition.exists_building hpassive
    refine .inl (.inl (.inl (List.mem_flatMap.2 ⟨building, hbuilding, ?_⟩)))
    exact List.mem_flatMap.2 ⟨passive, hpassive, heffect⟩
  | passive definition source =>
    obtain ⟨passive, hpassive, heffect⟩ := List.mem_flatMap.1 hinner
    cases List.mem_singleton.1 hpassive
    rcases setting.content.resolvePassive_cases definition with hdeclared | hwritten
    · exact .inl (.inr (List.mem_flatMap.2 ⟨_, hdeclared, heffect⟩))
    · rw [hwritten] at heffect
      exact .inr (Effect.weight_lt_of_inline
        (Setting.addPassive_of_instruction? hinstruction).2 heffect)
  | development id land =>
    exact .inl (.inl (.inr (List.mem_flatMap.2 (Addition.exists_development hinner))))

/-! ## Quiet effects -/

/-- Quiet effects settle and make no room. The induction is on the room there is, and with the same
    room on how much stands in the parameters. -/
theorem settles_of_quiet (room weight : Nat) {effect : Effect α} (hquiet : setting.Quiet effect)
    (hweight : effect.params.weight ≤ weight) (multiplier : Nat) {draft : Draft α}
    (hdraft : setting.room draft.player ≤ room) :
    Attempt.Settles .nestedTooDeeply (fun after => setting.room after.player ≤ room)
      (fun depth => applyWithin setting depth effect multiplier) draft := by
  induction room using Nat.strongRecOn generalizing weight effect multiplier draft with
  | ind room ihRoom =>
  induction weight using Nat.strongRecOn generalizing effect multiplier draft with
  | ind weight ihWeight =>
  -- Once there is less room, whatever is set off settles.
  have hless : ∀ effects : List (Effect α), (∀ inner ∈ effects, setting.Brings effect inner) →
      ∀ state : Draft α, setting.room state.player < room →
      Attempt.Settles (.nestedTooDeeply : EffectError α)
        (fun after : Draft α => setting.room after.player ≤ setting.room state.player)
        (fun depth => effects.forM fun inner => applyWithin setting depth inner 1) state := by
    intro effects hbrings state hstate
    refine Attempt.settles_forM (fun inner hinner between hbetween => ?_) (Nat.le_refl _)
    exact ihRoom _ hstate _ (hquiet.brings (hbrings inner hinner)) (Nat.le_refl _) 1 hbetween
  refine settles_of_instruction (fun leaf hleaf before after hstep hbefore => ?_)
    (fun removal hremoval => ?_) (fun addition haddition state hstate => ?_) multiplier hdraft
  · refine Nat.le_trans (hstep.room_le fun count slots hadds => ?_) hbefore
    exact hquiet effect .refl (.inr ⟨count, slots, hadds ▸ hleaf⟩)
  · exact absurd (.inl ⟨removal, hremoval⟩) (hquiet effect .refl)
  · have hbrings : ∀ inner ∈ addition.effects setting.content, setting.Brings effect inner :=
      fun inner hinner => ⟨addition, haddition, hinner⟩
    cases addition with
    | building id =>
      refine Attempt.Settles.bind_pure ?_ _
      refine addBuildingWith_settles rfl (fun between => setting.room between.player < room) hstate
        (fun _ hbetween => Nat.le_of_lt hbetween)
        (fun hknown hnew => Nat.lt_of_lt_of_le (Setting.room_own_lt hknown hnew) hstate) ?_
      intro passive hpassive tag between hbetween
      refine addPassiveWith_settles rfl tag hbetween fun tag hnew => ?_
      have hattached := Nat.lt_of_le_of_lt
        (Setting.room_attach_le between.player { definition := passive, tag }) hbetween
      refine (hless passive.effects (fun inner hinner => ?_) _ hattached).mono ?_
      · exact hbrings inner (Addition.mem_effects_of_passive hpassive hinner)
      · exact fun after hafter => Nat.lt_of_le_of_lt hafter hattached
    | passive definition source =>
      unfold addWith
      refine addPassiveWith_settles rfl _ hstate fun tag hnew => ?_
      rcases setting.content.resolvePassive_cases definition with hdeclared | hwritten
      · -- A declared passive takes room.
        have hattached := Nat.lt_of_lt_of_le
          (Setting.room_attach_lt ⟨_, tag⟩ hdeclared hnew) hstate
        refine (hless _ (fun inner hinner => ?_) _ hattached).mono ?_
        · exact hbrings inner (Addition.mem_effects_of_passive (.head _) hinner)
        · exact fun after hafter => Nat.le_of_lt (Nat.lt_of_le_of_lt hafter hattached)
      · -- One that is written may leave as much room as there was, but it stands further inside.
        have hattached :=
          Nat.le_trans (Setting.room_attach_le state.player ⟨definition, tag⟩) hstate
        rw [hwritten]
        refine Attempt.settles_forM (fun inner hinner between hbetween => ?_) hattached
        refine ihWeight inner.params.weight ?_ (hquiet.brings ?_) (Nat.le_refl _) 1 hbetween
        · exact Nat.lt_of_lt_of_le (Effect.weight_lt_of_inline
            (Setting.addPassive_of_instruction? haddition).2 hinner) hweight
        · refine hbrings inner (Addition.mem_effects_of_passive (.head _) ?_)
          rwa [hwritten]
    | development id land =>
      refine Attempt.Settles.bind_pure ?_ _
      refine addDevelopmentWith_settles rfl hstate fun chosen hland => ?_
      have hbuilt := Nat.lt_of_lt_of_le (Setting.room_build_lt id hland) hstate
      refine (hless _ hbrings _ hbuilt).mono ?_
      exact fun after hafter => Nat.le_of_lt (Nat.lt_of_le_of_lt hafter hbuilt)

/-! ## Braked effects -/

/-- An addition settles if the effects that come with it do, whatever the draft. -/
theorem addWith_settles {addition : Addition α}
    (h : ∀ inner ∈ addition.effects setting.content, ∀ state : Draft α,
      Attempt.Settles .nestedTooDeeply (fun _ => True)
        (fun depth => applyWithin setting depth inner 1) state) (state : Draft α) :
    Attempt.Settles .nestedTooDeeply (fun _ => True) (fun depth => addWith setting
      (fun effects => effects.forM fun inner => applyWithin setting depth inner 1) addition)
      state := by
  have hall : ∀ effects : List (Effect α), (∀ inner ∈ effects, inner ∈ addition.effects
      setting.content) → ∀ state : Draft α, Attempt.Settles .nestedTooDeeply (fun _ => True)
        (fun depth => effects.forM fun inner => applyWithin setting depth inner 1) state := by
    intro effects heffects state
    exact Attempt.settles_forM (fun inner hinner state _ => h inner (heffects inner hinner) state)
      trivial
  unfold addWith
  cases addition with
  | building id =>
    refine Attempt.Settles.bind_pure ?_ _
    refine addBuildingWith_settles rfl (fun _ => True) trivial (fun _ _ => trivial)
      (fun _ _ => trivial) ?_
    intro passive hpassive tag between _
    refine addPassiveWith_settles rfl tag trivial fun tag _ => hall _ ?_ _
    exact fun inner hinner => Addition.mem_effects_of_passive hpassive hinner
  | passive definition source =>
    refine addPassiveWith_settles rfl _ trivial fun tag _ => hall _ ?_ _
    exact fun inner hinner => Addition.mem_effects_of_passive (.head _) hinner
  | development id land =>
    refine Attempt.Settles.bind_pure ?_ _
    exact addDevelopmentWith_settles rfl trivial fun chosen _ => hall _ (fun _ h => h) _

/-- Braked effects settle. The induction is on how many of the declared effects that are not quiet
    can still be met, and with the same ones on how much stands in the parameters: such an effect is
    not met a second time. -/
theorem settles_of_braked (pending : List (Effect α)) (weight : Nat) {effect : Effect α}
    (hbraked : setting.Braked effect)
    (hpending : ∀ inner ∈ setting.content.granted, Relation.TransGen setting.Brings effect inner →
      ¬ setting.Quiet inner → inner ∈ pending)
    (hweight : effect.params.weight ≤ weight) (multiplier : Nat) (draft : Draft α) :
    Attempt.Settles .nestedTooDeeply (fun _ => True)
      (fun depth => applyWithin setting depth effect multiplier) draft := by
  classical
  induction hlength : pending.length using Nat.strongRecOn
    generalizing pending weight effect multiplier draft with
  | ind length ihLength =>
  induction weight using Nat.strongRecOn generalizing effect multiplier draft with
  | ind weight ihWeight =>
  by_cases hquiet : setting.Quiet effect
  · exact (settles_of_quiet _ _ hquiet (Nat.le_refl _) multiplier (Nat.le_refl _)).mono
      fun _ _ => trivial
  refine settles_of_instruction (fun _ _ _ _ _ _ => trivial) (fun removal _ state _ => ?_)
    (fun addition haddition state _ => ?_) multiplier trivial
  · exact (removal.apply_safe (removes_detached setting state.player) (.refl _)).mono
      (fun _ _ => trivial) fun _ hbad => hbad
  refine addWith_settles (fun inner hinner state => ?_) state
  have hbrings : setting.Brings effect inner := ⟨addition, haddition, hinner⟩
  rcases hbrings.granted_or_inline with hgranted | hinline
  · by_cases hinnerQuiet : setting.Quiet inner
    · exact (settles_of_quiet _ _ hinnerQuiet (Nat.le_refl _) 1 (Nat.le_refl _)).mono
        fun _ _ => trivial
    -- An effect that is not quiet is struck off: to meet it again it would have to set itself off.
    have hmem : inner ∈ pending := hpending inner hgranted (.single hbrings) hinnerQuiet
    have hless : (pending.filter (· ≠ inner)).length < length := by
      rw [← hlength]
      exact List.length_filter_lt_length_iff_exists.2 ⟨inner, hmem, by simp⟩
    refine ihLength _ hless _ _ (hbraked.brings hbrings) (fun other hother hreached hloud => ?_)
      (Nat.le_refl _) 1 state rfl
    refine List.mem_filter.2 ⟨hpending other hother (.head hbrings hreached) hloud, ?_⟩
    refine decide_eq_true fun hsame => hinnerQuiet ?_
    exact hbraked inner (.single hbrings) (hsame ▸ hreached)
  · -- The effect stands in the parameters: as many are pending as before.
    refine ihWeight _ (Nat.lt_of_lt_of_le hinline hweight) (hbraked.brings hbrings) ?_
      (Nat.le_refl _) 1 state
    exact fun other hother hreached => hpending other hother (.head hbrings hreached)

/-- **Effects that come to an end.** Where no effect that sets itself off again makes room on the
    way, some depth is enough, every greater one gives the same, and so does every smaller one that
    does not run out. -/
theorem applyWithin_settles (setting : Setting α) (effect : Effect α)
    (h : setting.Braked effect) (multiplier : Nat) (draft : Draft α) :
    ∃ result : Except (EffectError α) Unit × Draft α, result.1 ≠ .error .nestedTooDeeply ∧
      (∃ depth, ∀ deeper, depth ≤ deeper →
        (applyWithin setting deeper effect multiplier).run draft = result) ∧
      ∀ depth, (applyWithin setting depth effect multiplier).outcome draft
          ≠ .error .nestedTooDeeply →
        (applyWithin setting depth effect multiplier).run draft = result := by
  obtain ⟨depth, result, hresult, -, hdepth⟩ := settles_of_braked setting.content.granted _ h
    (fun _ hinner _ _ => hinner) (Nat.le_refl _) multiplier draft
  refine ⟨result, hresult, ⟨depth, hdepth⟩, fun other hother => ?_⟩
  rw [← hdepth (max depth other) (Nat.le_max_left depth other)]
  exact (applyWithin_extendedBy (Nat.le_max_right depth other) effect multiplier draft hother).symm

/-! ## A village that grows

A village adds another one for as long as there are free slots. It sets itself off again, but on the
way it only takes room. -/

namespace Sample

def growth : Effect Binary64 :=
  { family := "development", method := "add", params := .record [("id", .text "village")] }

def village : Development Binary64 := { id := "village", name := "Village", effects := [growth] }

def growing : Setting Binary64 :=
  { content :=
      { catalog := .empty, developments := Table.empty.insert "village" village } }

def settler : Draft Binary64 :=
  { player := (Player.initial growing.content.catalog "A" "Player A").addLand 2 }

end Sample

theorem applyWithin_settles_growing :
    Sample.growing.Brings Sample.growth Sample.growth ∧ Sample.growing.Braked Sample.growth ∧
    ∃ result : Except (EffectError Binary64) Unit × Draft Binary64,
      result.1 ≠ .error .nestedTooDeeply ∧ ∃ depth, ∀ deeper, depth ≤ deeper →
        (applyWithin Sample.growing deeper Sample.growth 1).run Sample.settler = result := by
  have hinstruction : Sample.growing.instruction? Sample.growth
      = some (.addition (.development "village" none)) := rfl
  have hself : Sample.growing.Brings Sample.growth Sample.growth :=
    ⟨_, hinstruction, List.mem_cons_self⟩
  have honly : ∀ inner, Relation.ReflTransGen Sample.growing.Brings Sample.growth inner →
      inner = Sample.growth := by
    intro inner hreached
    induction hreached with
    | refl => rfl
    | tail _ hbrings ih =>
      obtain ⟨addition, haddition, hinner⟩ := ih ▸ hbrings
      cases hinstruction.symm.trans haddition
      exact List.mem_singleton.1 hinner
  have hbraked : Sample.growing.Braked Sample.growth := by
    intro inner hinner _ other hother hreleases
    rw [honly inner hinner] at hother
    rw [honly other hother] at hreleases
    obtain ⟨removal, hremoval⟩ | ⟨count, slots, hadds⟩ := hreleases
    · cases hinstruction.symm.trans hremoval
    · cases hinstruction.symm.trans hadds
  obtain ⟨result, hresult, hdepth, -⟩ :=
    applyWithin_settles Sample.growing Sample.growth hbraked 1 Sample.settler
  exact ⟨hself, hbraked, result, hresult, hdepth⟩

/-! ## A building that rebuilds itself

The passive of the forge takes the forge away, and the passive with it, and adds the forge again. So
the player is back where the first addition began. -/

namespace Sample

def razing : Effect Binary64 :=
  { family := "building", method := "remove", params := .record [("id", .text "forge")] }

def raising : Effect Binary64 :=
  { family := "building", method := "add", params := .record [("id", .text "forge")] }

def rebuild : Passive Binary64 := { id := "rebuild", effects := [razing, raising] }

def forge : Building Binary64 := { id := "forge", name := "Forge", passives := [rebuild] }

def rebuilding : Setting Binary64 :=
  { content := { catalog := .empty, buildings := Table.empty.insert "forge" forge } }

/-- The same with actions, and with another depth. -/
def rebuildingAmong (actions : Table (Action Binary64)) (nesting : Nat) : Setting Binary64 :=
  { content := { rebuilding.content with actions }, nesting }

def homeless : Draft Binary64 :=
  { player := .initial rebuilding.content.catalog "A" "Player A" }

def housed : Draft Binary64 :=
  { player := { homeless.player with
      buildings := homeless.player.buildings.add "forge"
      passives := [{ definition := rebuild, tag :=
        { source := some (buildingOwner "forge"), owner := some (buildingOwner "forge") } }] } }

end Sample

section

variable (actions : Table (Action Binary64)) (nesting : Nat)

/-- Taking the forge away leaves nothing of it. -/
theorem run_razing (depth : Nat) :
    (applyWithin (Sample.rebuildingAmong actions nesting) (depth + 1) Sample.razing 1).run
      Sample.housed = (.ok (), Sample.homeless) := rfl

/-- Adding the forge runs out of depth if its passive does. -/
theorem run_raising {depth : Nat} {after : Draft Binary64}
    (h : (Sample.rebuild.effects.forM fun effect =>
      applyWithin (Sample.rebuildingAmong actions nesting) depth effect 1).run Sample.housed
        = (.error .nestedTooDeeply, after)) :
    (applyWithin (Sample.rebuildingAmong actions nesting) (depth + 1) Sample.raising 1).run
      Sample.homeless = (.error .nestedTooDeeply, after) := by
  -- Nothing follows the passive's effects: not in attaching it, in adding the building, in the
  -- addition or in its repetitions.
  show (((((Sample.rebuild.effects.forM fun effect =>
      applyWithin (Sample.rebuildingAmong actions nesting) depth effect 1)
    >>= fun _ => pure PUnit.unit) >>= fun _ => pure true) >>= fun _ => pure ())
    >>= fun _ => pure () : DraftAttempt Binary64 Unit).run Sample.housed = _
  refine Attempt.run_bind_of_error (Attempt.run_bind_of_error ?_)
  exact Attempt.run_bind_of_error (Attempt.run_bind_of_error h)

theorem raising_runs_out (depth : Nat) :
    (applyWithin (Sample.rebuildingAmong actions nesting) depth Sample.raising 1).outcome
      Sample.homeless = .error .nestedTooDeeply := by
  induction depth with
  | zero => rfl
  | succ depth ih =>
    suffices h : ∃ after, (Sample.rebuild.effects.forM fun effect =>
        applyWithin (Sample.rebuildingAmong actions nesting) depth effect 1).run Sample.housed
          = (.error .nestedTooDeeply, after) by
      obtain ⟨after, hafter⟩ := h
      rw [Attempt.outcome_def, run_raising actions nesting hafter]
    cases depth with
    | zero => exact ⟨_, rfl⟩
    | succ depth =>
      exact ⟨_, (Attempt.run_bind_of_ok (run_razing actions nesting depth)).trans
        (Attempt.run_bind_of_error (Attempt.run_eq_of_outcome ih))⟩

end

/-- Effects that never come to an end, however deep they may nest. -/
theorem rebuilding_never_ends :
    Content.check Sample.rebuilding = .ok () ∧
    Sample.raising ∈ Sample.rebuilding.content.granted ∧
    ∀ depth, (applyWithin Sample.rebuilding depth Sample.raising 1).outcome Sample.homeless
      = .error .nestedTooDeeply :=
  ⟨by decide +kernel, .tail _ (.head _), raising_runs_out .empty nestingLimit⟩

end Realm
