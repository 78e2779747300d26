import Realm.Proofs.Effect.Application

/-!
# Room for additions

What keeps additions from going on forever is that there is less and less to add: a building is
owned once, a declared passive is active once, and a development takes a slot that was free.
`Setting.room` counts all three, slots with the number that a land may be tilled to. Every addition
takes room, except for a passive that is written in an effect's parameters, and no leaf makes room
but one that adds lands.
-/

set_option autoImplicit false

namespace Realm

theorem countP_lt_countP {β : Type} {p q : β → Bool} {items : List β}
    (h : ∀ item ∈ items, p item = true → q item = true) {item : β} (hitem : item ∈ items)
    (hp : p item = false) (hq : q item = true) : items.countP p < items.countP q := by
  induction items with
  | nil => cases hitem
  | cons first rest ih =>
    have hrest : rest.countP p ≤ rest.countP q :=
      List.countP_mono_left fun other hother => h other (List.mem_cons_of_mem _ hother)
    rcases List.mem_cons.1 hitem with rfl | hitem
    · rw [List.countP_cons_of_neg (by simp [hp]), List.countP_cons_of_pos hq]
      omega
    · have hlt := ih (fun other hother => h other (List.mem_cons_of_mem _ hother)) hitem
      have hfirst := h first List.mem_cons_self
      rw [List.countP_cons, List.countP_cons]
      cases hpf : p first with
      | false => simp; omega
      | true => simp [hfirst hpf, hlt]

/-! ## Slots -/

/-- The slots that a land has or may get, and no development takes. -/
def Land.spare (limit : Nat) (land : Land) : Nat :=
  max land.slots limit - land.developments.length

def Land.spareOn (limit : Nat) : List Land → Nat
  | [] => 0
  | land :: rest => land.spare limit + spareOn limit rest

theorem Land.spare_till (limit : Nat) (land : Land) :
    (land.till limit).spare limit = land.spare limit := by
  unfold Land.spare Land.till
  dsimp only
  split
  · rename_i hless
    rw [Nat.max_eq_right hless, Nat.max_eq_right (Nat.le_of_lt hless)]
  · rfl

theorem Land.spareOn_updateFirst_le (limit : Nat) {test : Land → Bool} {change : Land → Land}
    (h : ∀ land, test land = true → (change land).spare limit ≤ land.spare limit)
    (lands : List Land) :
    spareOn limit (Land.updateFirst test change lands) ≤ spareOn limit lands := by
  induction lands with
  | nil => exact Nat.le_refl 0
  | cons land rest ih =>
    unfold Land.updateFirst
    split
    · rename_i htest
      exact Nat.add_le_add_right (h land htest) _
    · exact Nat.add_le_add_left ih _

theorem Land.spareOn_updateFirst_lt (limit : Nat) {test : Land → Bool} {change : Land → Land}
    (h : ∀ land, test land = true → (change land).spare limit < land.spare limit)
    {lands : List Land} (hexists : ∃ land ∈ lands, test land = true) :
    spareOn limit (Land.updateFirst test change lands) < spareOn limit lands := by
  induction lands with
  | nil => simp at hexists
  | cons land rest ih =>
    unfold Land.updateFirst
    split
    · rename_i htest
      exact Nat.add_lt_add_right (h land htest) _
    · rename_i htest
      obtain ⟨other, hother, hpass⟩ := hexists
      rcases List.mem_cons.1 hother with rfl | hother
      · exact absurd hpass htest
      · exact Nat.add_lt_add_left (ih ⟨other, hother, hpass⟩) _

theorem Land.spare_build_lt {limit : Nat} {land : Land} (h : 0 < land.freeSlots) (id : String) :
    (land.build id).spare limit < land.spare limit := by
  unfold Land.freeSlots at h
  have hmax : land.slots ≤ max land.slots limit := Nat.le_max_left _ _
  show max land.slots limit - (land.developments ++ [id]).length
    < max land.slots limit - land.developments.length
  rw [List.length_append, List.length_singleton]
  omega

variable {α : Type}

/-- The land that a development is to stand on is there, and has a free slot. -/
theorem exists_land_of_landWithFreeSlot {player : Player α} {named : Option String} {land : Land}
    (h : landWithFreeSlot player named = .ok land) :
    ∃ other ∈ player.lands, (other.id == land.id && decide (0 < other.freeSlots)) = true := by
  have hfound : land ∈ player.lands ∧ 0 < land.freeSlots := by
    unfold landWithFreeSlot at h
    cases named with
    | none =>
      dsimp only at h
      split at h
      · rename_i found hfind
        cases h
        have hfree := List.find?_some hfind
        exact ⟨List.mem_of_find?_eq_some hfind, of_decide_eq_true hfree⟩
      · cases h
    | some id =>
      dsimp only at h
      cases hland : player.land? id with
      | none =>
        rw [hland] at h
        cases h
      | some found =>
        rw [hland] at h
        dsimp only at h
        split at h
        · cases h
        · rename_i hfree
          cases h
          exact ⟨List.mem_of_find?_eq_some hland, Nat.pos_of_ne_zero hfree⟩
  refine ⟨land, hfound.1, ?_⟩
  simp [hfound.2]

/-! ## Room -/

/-- How many things effects can add to a player, passives written in parameters aside: buildings
    that are not owned, declared passives that are not active, and developments for which there is
    or may be a slot. -/
def Setting.room (setting : Setting α) (player : Player α) : Nat :=
  setting.content.buildings.keys.countP (fun id => !player.buildings.contains id)
    + setting.content.passives.values.countP (fun passive => !player.hasPassive passive.id)
    + Land.spareOn setting.rules.maxSlotsPerLand player.lands

theorem Player.hasPassive_append (player : Player α) (active : ActivePassive α) (id : String) :
    { player with passives := player.passives ++ [active] }.hasPassive id
      = (player.hasPassive id || active.id == id) := by
  unfold Player.hasPassive Player.passive?
  rw [List.find?_append]
  cases player.passives.find? fun active => active.id == id with
  | some found => rfl
  | none =>
    by_cases hid : (active.id == id) = true
    · simp [List.find?, hid]
    · simp [List.find?, hid]

variable {setting : Setting α}

theorem Setting.room_own_lt {player : Player α} {id : String}
    (hknown : setting.content.buildings.contains id = true)
    (hnew : player.buildings.contains id = false) :
    setting.room { player with buildings := player.buildings.add id } < setting.room player := by
  have hless : setting.content.buildings.keys.countP
        (fun other => !(player.buildings.add id).contains other)
      < setting.content.buildings.keys.countP (fun other => !player.buildings.contains other) := by
    -- The building itself is counted before and not after.
    refine countP_lt_countP (fun other _ hother => ?_) (Table.mem_keys_iff.2 hknown) ?_ ?_
    · unfold Names.add at hother
      rw [Table.contains_insert] at hother
      simp only [Bool.not_or, Bool.and_eq_true] at hother
      exact hother.2
    · unfold Names.add
      rw [Table.contains_insert]
      simp
    · simp [hnew]
  unfold Setting.room Player.hasPassive Player.passive?
  dsimp only
  omega

theorem Setting.room_attach_le (player : Player α) (active : ActivePassive α) :
    setting.room { player with passives := player.passives ++ [active] } ≤ setting.room player := by
  have hle : setting.content.passives.values.countP (fun passive =>
        !({ player with passives := player.passives ++ [active] } : Player α).hasPassive passive.id)
      ≤ setting.content.passives.values.countP (fun passive => !player.hasPassive passive.id) := by
    refine List.countP_mono_left fun passive _ hpassive => ?_
    rw [Player.hasPassive_append] at hpassive
    simp only [Bool.not_or, Bool.and_eq_true] at hpassive
    exact hpassive.1
  unfold Setting.room
  dsimp only
  omega

theorem Setting.room_attach_lt {player : Player α} (active : ActivePassive α)
    (hdeclared : active.definition ∈ setting.content.passives.values)
    (hnew : player.hasPassive active.id = false) :
    setting.room { player with passives := player.passives ++ [active] } < setting.room player := by
  have hless : setting.content.passives.values.countP (fun other =>
        !({ player with passives := player.passives ++ [active] } : Player α).hasPassive other.id)
      < setting.content.passives.values.countP (fun other => !player.hasPassive other.id) := by
    refine countP_lt_countP (fun other _ hother => ?_) hdeclared ?_ ?_
    · rw [Player.hasPassive_append] at hother
      simp only [Bool.not_or, Bool.and_eq_true] at hother
      exact hother.1
    · rw [Player.hasPassive_append]
      simp [ActivePassive.id]
    · simpa [ActivePassive.id] using hnew
  unfold Setting.room
  dsimp only
  omega

theorem Setting.room_build_lt {player : Player α} (id : String) {named : Option String}
    {land : Land} (h : landWithFreeSlot player named = .ok land) :
    setting.room { player with
      lands := Land.updateFirst (fun other => other.id == land.id && decide (0 < other.freeSlots))
        (·.build id) player.lands } < setting.room player := by
  have hbuild : ∀ other : Land, (other.id == land.id && decide (0 < other.freeSlots)) = true →
      (other.build id).spare setting.rules.maxSlotsPerLand
        < other.spare setting.rules.maxSlotsPerLand := by
    intro other hother
    rw [Bool.and_eq_true] at hother
    exact Land.spare_build_lt (of_decide_eq_true hother.2) id
  have hless := Land.spareOn_updateFirst_lt setting.rules.maxSlotsPerLand hbuild
    (exists_land_of_landWithFreeSlot h)
  unfold Setting.room Player.hasPassive Player.passive?
  dsimp only
  omega

/-- A leaf that adds no lands makes no room. -/
theorem Leaf.Step.room_le [Amount α] {leaf : Leaf α}
    (hleaf : ∀ count slots, leaf ≠ .addLands count slots) {before after : Draft α}
    (h : leaf.Step setting before after) :
    setting.room after.player ≤ setting.room before.player := by
  cases h with
  | write call =>
    rw [Draft.record_player]
    exact Nat.le_refl _
  | skip add phase step source => exact Nat.le_refl _
  | addLand count given hadds slots hslots => exact absurd hadds (hleaf count given)
  | till id land hland =>
    have htill : ∀ other : Land, (other.id == id) = true →
        (other.till setting.rules.maxSlotsPerLand).spare setting.rules.maxSlotsPerLand
          ≤ other.spare setting.rules.maxSlotsPerLand :=
      fun other _ => Nat.le_of_eq (other.spare_till _)
    have hslots := Land.spareOn_updateFirst_le _ htill before.player.lands
    unfold Setting.room Player.hasPassive Player.passive?
    dsimp only
    omega

end Realm
