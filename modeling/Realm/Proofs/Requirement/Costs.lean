import Realm.Proofs.Requirement.Modes
import Realm.Proofs.Session.Paying

/-!
# What a cost is examined against

A session does not compare amounts with costs itself. It writes every cost of an action as a
requirement, a comparison in its JSON form, and leaves it to the evaluation to read the parameters.
An operand is written without a tag that says whether it is a number or a source, so it is for the
reader to find out, for each kind of source from its own parameters; and since every comparison that
can be written is read back as it was (`comparisons_survive`), a cost is compared with the amount of
the resource that it was written for.

What cannot be written is a number that is not finite. Content has none, but the costs of an action
and of every action together may be too much for the format, and a requirement for such a cost
cannot be read: the evaluation refuses it, and nothing is compared with anything else instead.
-/

set_option autoImplicit false

namespace Realm
namespace Requirement

variable {α : Type} [Amount α] {content : Content α} {rules : Rules} {player : Player α}

/-! ## One cost -/

theorem read_compare {left right : Operand α} (comparator : Comparator)
    (hleft : left.isFinite = true) (hright : right.isFinite = true) :
    (compare { left, comparator, right }).read = .ok { left, comparator, right } := by
  unfold read
  rw [comparison?_compare, if_pos ⟨hleft, hright⟩]
  rfl

/-- Where a cost can be examined at all, it is told exactly if there is not as much. -/
theorem Valid.told_cost {entry : String × α} (h : (costRequirement entry).Valid content rules) :
    told content rules player (costRequirement entry)
      = if player.affords entry = true then none
        else some (costUnmet content rules player entry) :=
  (check_cost (h.check player)).2.2

/-- How a cost is examined: by the resource and the amount that it was written with. -/
theorem check_costRequirement (content : Content α) (rules : Rules) (player : Player α)
    (entry : String × α) : check content rules player (costRequirement entry) =
      if Amount.isFinite entry.2 = true then
        if content.catalog.contains entry.1 = true then
          .ok (if player.affords entry = true then none
            else some (costUnmet content rules player entry))
        else .error (.ledger (.unknownResource entry.1))
      else .error (.invalidParams compareKey .malformed) := by
  by_cases hfinite : Amount.isFinite entry.2 = true
  · rw [if_pos hfinite]
    have hread : (costRequirement entry).read = .ok (costComparison entry) := by
      rw [read_costRequirement, if_pos hfinite]
    have hkey : (costComparison entry).left.key? rules = some entry.1 := rfl
    have hleft := Operand.value_eq content rules player (costComparison entry).left
    rw [hkey] at hleft
    unfold check
    rw [hread]
    show ((costComparison entry).left.value content rules player >>= _) = _
    rw [hleft]
    dsimp only
    by_cases hknown : content.catalog.contains entry.1 = true
    · rw [if_pos hknown, if_pos hknown]
      show (if player.affords entry = true then _ else _) = _
      split <;> rfl
    · rw [if_neg hknown, if_neg hknown]
      rfl
  · rw [if_neg hfinite]
    unfold check
    rw [read_costRequirement, if_neg hfinite]
    rfl

end Requirement

/-! ## The costs of an action -/

namespace Session

variable {α : Type} [Amount α] {session : Session α} {player : Player α} {action : Action α}
  {requirements : List (Requirement α)} {unmet : List (Unmet α)}

/-- An examination that has an answer tells of the requirements that are unmet and then of the costs
    for which there is not as much. -/
theorem unmet_of_examine (h : session.examine player action requirements = .ok unmet) :
    unmet = requirements.filterMap (Requirement.told session.content session.config.rules player)
      ++ ((action.bill session.content.catalog).filter fun entry => !player.affords entry).map
        (costUnmet session.content session.config.rules player) := by
  obtain ⟨hvalid, rfl⟩ := Requirement.collectAll_eq_ok.1 h
  rw [List.filterMap_append, List.filterMap_map, ← List.filterMap_eq_map, List.filterMap_filter]
  congr 1
  refine List.filterMap_congr fun entry hentry => ?_
  have hcost : (costRequirement entry).Valid session.content session.config.rules :=
    hvalid _ (List.mem_append_right _ (List.mem_map_of_mem hentry))
  rw [Function.comp_apply, hcost.told_cost]
  cases player.affords entry <;> rfl

end Session

namespace Requirement

/-- **Comparisons survive being written.** Whatever the operands, two that can be written and any
    comparator are read back as they were. So a cost is examined by the resource and the amount that
    it was written with, and only for want of a number for the amount, or of the resource, by
    nothing at all; and an examination that has an answer tells, after the requirements that are
    unmet, of the costs of the action for which there is not as much, with what there is and what
    there would have to be. -/
theorem comparisons_survive {α : Type} [Amount α] :
    (∀ (left right : Operand α) (comparator : Comparator), left.isFinite = true →
      right.isFinite = true →
      (compare { left, comparator, right }).read = .ok { left, comparator, right }) ∧
    (∀ (content : Content α) (rules : Rules) (player : Player α) (entry : String × α),
      check content rules player (costRequirement entry) =
        if Amount.isFinite entry.2 = true then
          if content.catalog.contains entry.1 = true then
            .ok (if player.affords entry = true then none
              else some (costUnmet content rules player entry))
          else .error (.ledger (.unknownResource entry.1))
        else .error (.invalidParams compareKey .malformed)) ∧
    ∀ (session : Session α) (player : Player α) (action : Action α)
      (requirements : List (Requirement α)) (unmet : List (Unmet α)),
      session.examine player action requirements = .ok unmet →
      unmet = requirements.filterMap (told session.content session.config.rules player)
        ++ ((action.bill session.content.catalog).filter fun entry => !player.affords entry).map
          (costUnmet session.content session.config.rules player) :=
  ⟨fun _ _ comparator hleft hright => read_compare comparator hleft hright,
    check_costRequirement, fun _ _ _ _ _ h => Session.unmet_of_examine h⟩

end Requirement

namespace Sample

/-- There are to be three inhabitants at the most, of whatever role. -/
def crowd : Comparison Binary64 :=
  { left := .source (.population none), comparator := .atMost, right := .literal (Amount.ofInt 3) }

/-- A player on the market without any gold. -/
def pauper : Player Binary64 := .initial (market none).catalog "A" "Alice"

/-- Three pieces of a resource. -/
def three (resource : String) : String × Binary64 := (resource, Amount.ofInt 3)

def haggling : Session Binary64 :=
  { config := marketDay
    content := market none
    clock := { players := ["A"], phases := marketDay.phases }
    players := [pauper] }

end Sample

namespace Requirement

open Sample in
/-- The source without a role and the number are told apart; and without gold, the price of three
    pieces is all that keeps a player from buying. -/
theorem comparisons_survive_crowd :
    crowd.left.isFinite = true ∧ crowd.right.isFinite = true ∧
      (compare crowd).read = .ok crowd ∧
      check haggling.content haggling.config.rules pauper (costRequirement (three "gold"))
        = .ok (some (costUnmet haggling.content haggling.config.rules pauper (three "gold"))) ∧
      check haggling.content haggling.config.rules pauper (costRequirement (three "silver"))
        = .error (.ledger (.unknownResource "silver")) ∧
      ∃ unmet, haggling.examine pauper buying [] = .ok unmet ∧
        unmet = [costUnmet haggling.content haggling.config.rules pauper (three "gold")] := by
  have hleft : crowd.left.isFinite = true := rfl
  have hright : crowd.right.isFinite = true := by decide +kernel
  obtain ⟨hread, hcheck, hexamine⟩ := @comparisons_survive Binary64 _
  have hfinite : ∀ resource, Amount.isFinite (three resource).2 = true := by
    intro resource
    exact (by decide +kernel : Amount.isFinite (Amount.ofInt 3 : Binary64) = true)
  have hpoor : pauper.affords (three "gold") = false := by decide +kernel
  have hgold : haggling.content.catalog.contains (three "gold").1 = true := rfl
  have hsilver : haggling.content.catalog.contains (three "silver").1 = false := rfl
  have hbill : buying.bill haggling.content.catalog = [three "gold"] := by decide +kernel
  have hprice : check haggling.content haggling.config.rules pauper (costRequirement (three "gold"))
      = .ok (some (costUnmet haggling.content haggling.config.rules pauper (three "gold"))) := by
    rw [hcheck, if_pos (hfinite _), if_pos hgold, hpoor, if_neg Bool.false_ne_true]
  have hanswer : ∃ unmet, haggling.examine pauper buying [] = .ok unmet := by
    unfold Session.examine
    rw [hbill, List.nil_append, List.map_singleton, evaluate, hprice]
    exact ⟨_, rfl⟩
  refine ⟨hleft, hright, hread _ _ crowd.comparator hleft hright, hprice, ?_, ?_⟩
  · rw [hcheck, if_pos (hfinite _), hsilver, if_neg Bool.false_ne_true]
    rfl
  · obtain ⟨unmet, hunmet⟩ := hanswer
    refine ⟨unmet, hunmet, ?_⟩
    rw [hexamine haggling pauper buying [] unmet hunmet, hbill, List.filter_singleton, hpoor]
    rfl

end Requirement

end Realm
