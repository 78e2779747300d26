import Realm.Proofs.Effect.Run

/-!
# Lands

Lands are numbered in the order in which they are won, and the numbers make their ids. What is done
to a land afterwards leaves its id alone and keeps the land within what rules and content allow
(`Land.Follows`): tilling stops at the limit, building takes a free slot and a declared development,
razing gives a slot back. No step of the interpreter does anything else to a land, so both are true
of the lands of a player at any time, whatever has failed before (`lands_numbered`).

The counter stops at the limit of counts, and from there on every new land gets the same id. Up to
the limit the ids are distinct.
-/

set_option autoImplicit false

namespace Realm

variable {α : Type} [Amount α]

/-! ## One land -/

namespace Land

variable {rules : Rules} {content : Content α} {land : Land}

/-- A land that rules and content allow. -/
structure Allowed (rules : Rules) (content : Content α) (land : Land) : Prop where
  slots : land.slots ≤ rules.maxSlotsPerLand
  room : land.developments.length ≤ land.slots
  declared : ∀ development ∈ land.developments, content.developments.contains development = true

omit [Amount α] in
theorem Allowed.till (h : land.Allowed rules content) :
    (land.till rules.maxSlotsPerLand).Allowed rules content := by
  obtain ⟨hslots, hroom, hdeclared⟩ := h
  have hmore : land.slots ≤ (land.till rules.maxSlotsPerLand).slots ∧
      (land.till rules.maxSlotsPerLand).slots ≤ rules.maxSlotsPerLand := by
    unfold Land.till
    dsimp only
    split <;> omega
  exact ⟨hmore.2, Nat.le_trans hroom hmore.1, hdeclared⟩

omit [Amount α] in
theorem Allowed.build (h : land.Allowed rules content) {development : String}
    (hfree : 0 < land.freeSlots) (hknown : content.developments.contains development = true) :
    (land.build development).Allowed rules content := by
  refine ⟨h.slots, ?_, ?_⟩
  · unfold Land.freeSlots at hfree
    simp only [Land.build, List.length_append, List.length_singleton]
    omega
  · intro other hother
    rcases List.mem_append.1 hother with hold | hnew
    · exact h.declared other hold
    · rw [List.mem_singleton.1 hnew]
      exact hknown

omit [Amount α] in
theorem Allowed.raze (h : land.Allowed rules content) (development : String) :
    (land.raze development).Allowed rules content := by
  refine ⟨h.slots, Nat.le_trans List.length_erase_le h.room, ?_⟩
  intro other hother
  exact h.declared other (List.mem_of_mem_erase hother)

/-- A land has the id it had and is as allowed as it was. -/
structure Follows (rules : Rules) (content : Content α) (before after : Land) : Prop where
  id : after.id = before.id
  allowed : before.Allowed rules content → after.Allowed rules content

variable {before after : List Land}

omit [Amount α] in
theorem ids_of_follows (h : List.Forall₂ (Follows rules content) before after) :
    after.map (·.id) = before.map (·.id) := by
  induction h with
  | nil => rfl
  | cons hland _ ih => simp only [List.map_cons, hland.id, ih]

omit [Amount α] in
theorem allowed_of_follows (h : List.Forall₂ (Follows rules content) before after)
    (hbefore : ∀ land ∈ before, land.Allowed rules content) :
    ∀ land ∈ after, land.Allowed rules content := by
  induction h with
  | nil => exact hbefore
  | cons hland _ ih =>
    rw [List.forall_mem_cons] at hbefore ⊢
    exact ⟨hland.allowed hbefore.1, ih hbefore.2⟩

end Land

/-! ## The lands of a player -/

/-- The id of the land that is won after so many others. -/
def Player.landId (player : String) (place : Nat) : String :=
  player ++ "-L" ++ toString (min (place + 1) Document.countLimit)

/-- The lands of a player as the steps of the interpreter keep them. -/
structure Player.Settled (setting : Setting α) (id : String) (player : Player α) : Prop where
  owner : player.id = id
  counter : player.landCounter = min player.lands.length Document.countLimit
  ids : player.lands.map (·.id) = (List.range player.lands.length).map (Player.landId id)
  allowed : ∀ land ∈ player.lands, land.Allowed setting.rules setting.content

namespace Player

variable {setting : Setting α} {id : String} {player : Player α}

omit [Amount α] in
theorem Settled.congr (h : player.Settled setting id) {other : Player α}
    (hid : other.id = player.id) (hcounter : other.landCounter = player.landCounter)
    (hlands : other.lands = player.lands) : other.Settled setting id where
  owner := by rw [hid, h.owner]
  counter := by rw [hcounter, hlands, h.counter]
  ids := by rw [hlands, h.ids]
  allowed := by rw [hlands]; exact h.allowed

theorem settled_initial (setting : Setting α) (id name : String) :
    (initial setting.content.catalog id name).Settled setting id := by
  refine ⟨rfl, rfl, rfl, ?_⟩
  intro land hland
  cases hland

omit [Amount α] in
theorem Settled.addLand (h : player.Settled setting id) {slots : Nat}
    (hslots : slots ≤ setting.rules.maxSlotsPerLand) :
    (player.addLand slots).Settled setting id := by
  -- Counting one land more and stopping at the limit commute.
  have hcounter : min (player.landCounter + 1) Document.countLimit
      = min (player.lands.length + 1) Document.countLimit := by
    rw [h.counter]
    omega
  refine ⟨h.owner, ?_, ?_, ?_⟩
  · simp only [Player.addLand, nextLandId, List.length_append, List.length_singleton]
    exact hcounter
  · simp only [Player.addLand, nextLandId, List.map_append, List.map_cons, List.map_nil,
      List.length_append, List.length_singleton, List.range_succ, h.ids, h.owner, hcounter, landId]
  · intro land hland
    rcases List.mem_append.1 hland with hold | hnew
    · exact h.allowed land hold
    · rw [List.mem_singleton.1 hnew]
      refine ⟨hslots, Nat.zero_le _, ?_⟩
      intro development hdevelopment
      cases hdevelopment

omit [Amount α] in
/-- Lands that follow those there were stand in the same order and keep their ids. -/
theorem Settled.follow (h : player.Settled setting id) {lands : List Land}
    (hlands : List.Forall₂ (Land.Follows setting.rules setting.content) player.lands lands) :
    ({ player with lands } : Player α).Settled setting id := by
  refine ⟨h.owner, ?_, ?_, Land.allowed_of_follows hlands h.allowed⟩
  · dsimp only
    rw [← hlands.length_eq]
    exact h.counter
  · dsimp only
    rw [← hlands.length_eq, Land.ids_of_follows hlands]
    exact h.ids

end Player

/-! ## Steps -/

namespace Draft

variable {setting : Setting α} {id : String} {before after : Draft α}

theorem Taking.settled (h : Taking setting before after)
    (hbefore : before.player.Settled setting id) : after.player.Settled setting id := by
  cases h with
  | write call hlower =>
    rw [record_player]
    exact hbefore.congr rfl rfl rfl
  | skip add phase step source => exact hbefore.congr rfl rfl rfl
  | detach passive active hactive => exact hbefore.congr rfl rfl rfl
  | disown building howned => exact hbefore.congr rfl rfl rfl
  | raze development named land hland =>
    refine hbefore.follow (Land.forall₂_updateFirst (fun _ => ⟨rfl, fun hold => hold⟩) ?_ _)
    intro other _
    exact ⟨rfl, fun hold => hold.raze development⟩

theorem Step.settled (h : Step setting before after)
    (hbefore : before.player.Settled setting id) : after.player.Settled setting id := by
  cases h with
  | taking _ h => exact h.settled hbefore
  | addLand slots hslots => exact hbefore.addLand hslots
  | till name land hland =>
    refine hbefore.follow (Land.forall₂_updateFirst (fun _ => ⟨rfl, fun hold => hold⟩) ?_ _)
    intro other _
    exact ⟨rfl, fun hold => hold.till⟩
  | attach active hnew => exact hbefore.congr rfl rfl rfl
  | own building hknown hnew => exact hbefore.congr rfl rfl rfl
  | build development named land hknown hland =>
    -- Whichever land is the first that is looked for, it has been found to have a free slot.
    refine hbefore.follow (Land.forall₂_updateFirst (fun _ => ⟨rfl, fun hold => hold⟩) ?_ _)
    intro other hother
    rw [Bool.and_eq_true, decide_eq_true_eq] at hother
    exact ⟨rfl, fun hold => hold.build hother.2 hknown⟩
  | leaveTier resource => exact hbefore.congr rfl rfl rfl
  | enterTier resource tier => exact hbefore.congr rfl rfl rfl

theorem Change.settled (h : Change setting before after)
    (hbefore : before.player.Settled setting id) : after.player.Settled setting id := by
  cases h with
  | step _ h => exact h.settled hbefore
  | write call =>
    rw [record_player]
    exact hbefore.congr rfl rfl rfl

end Draft

/-! ## Runs -/

/-- Numbers are written differently if they are different: the digits can be read back. -/
theorem toString_injective {m n : Nat} (h : toString m = toString n) : m = n := by
  have hread := congrArg (fun text : String => Nat.ofDigitChars 10 text.toList 0) h
  simpa using hread

/-- The lands are numbered from one on, in order, and no two have the same id. -/
structure Player.Numbered (id : String) (player : Player α) : Prop where
  counter : player.landCounter = player.lands.length
  ids : ∀ place land, player.lands[place]? = some land →
    land.id = id ++ "-L" ++ toString (place + 1)
  distinct : (player.lands.map (·.id)).Nodup

omit [Amount α] in
theorem Player.Settled.numbered {setting : Setting α} {id : String} {player : Player α}
    (h : player.Settled setting id) (hfew : player.lands.length ≤ Document.countLimit) :
    player.Numbered id := by
  have hid : ∀ place, place < player.lands.length →
      landId id place = id ++ "-L" ++ toString (place + 1) := by
    intro place hplace
    unfold landId
    rw [Nat.min_eq_left (by omega)]
  refine ⟨?_, ?_, ?_⟩
  · rw [h.counter]
    exact Nat.min_eq_left hfew
  · intro place land hland
    obtain ⟨hplace, rfl⟩ := List.getElem?_eq_some_iff.1 hland
    have hread := congrArg (fun ids : List String => ids[place]?) h.ids
    rw [← hid place hplace]
    simpa [hplace] using hread
  · rw [h.ids, List.nodup_iff_pairwise_ne, List.pairwise_map]
    refine List.Pairwise.imp_of_mem ?_ List.nodup_range
    intro first second hfirst hsecond hne heq
    rw [hid first (List.mem_range.1 hfirst), hid second (List.mem_range.1 hsecond),
      String.append_right_inj] at heq
    have := toString_injective heq
    omega

theorem Draft.settled_afterAll (setting : Setting α) (id name : String)
    (commands : List (Draft.Command α)) :
    (Draft.afterAll setting id name commands).player.Settled setting id :=
  holds_afterAll (fun player => player.Settled setting id) (fun _ _ h => h.settled)
    (Player.settled_initial setting id name) commands

/-- **Lands are numbered as they are won, and filled as they may be.** Whatever has been called for
    and whatever of it has failed, the lands of a player carry the numbers from one on in their ids
    as long as the counter can count them, no land has more slots than the rules allow or more
    developments than slots, and every development on it is declared. -/
theorem lands_numbered (setting : Setting α) (id name : String)
    (commands : List (Draft.Command α)) :
    ((Draft.afterAll setting id name commands).player.lands.length ≤ Document.countLimit →
      (Draft.afterAll setting id name commands).player.Numbered id) ∧
    ∀ land ∈ (Draft.afterAll setting id name commands).player.lands,
      land.Allowed setting.rules setting.content := by
  have hsettled := Draft.settled_afterAll setting id name commands
  exact ⟨hsettled.numbered, hsettled.allowed⟩

namespace Sample

/-- Winning lands under rules that allow three slots, with nothing in the content. -/
def frontier : Setting Binary64 :=
  { content := { catalog := .empty }, rules := { maxSlotsPerLand := 3 } }

def winLands (count : Nat) : Draft.Command Binary64 :=
  .apply { family := "land", method := "add", params := .record [("count", .count count)] } 1

end Sample

theorem lands_numbered_frontier :
    (Draft.afterAll Sample.frontier "A" "Ada" [Sample.winLands 2]).player.lands.length
      ≤ Document.countLimit ∧
    (Draft.afterAll Sample.frontier "A" "Ada" [Sample.winLands 2]).player.Numbered "A" := by
  have hfew : (Draft.afterAll Sample.frontier "A" "Ada" [Sample.winLands 2]).player.lands.length
      ≤ Document.countLimit := by
    decide +kernel
  exact ⟨hfew, (lands_numbered Sample.frontier "A" "Ada" [Sample.winLands 2]).1 hfew⟩

end Realm
