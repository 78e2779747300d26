import Realm.Requirement.Evaluation

/-!
# Comparisons are read back as they were written

A comparison is written as a requirement with parameters, and evaluated by reading the parameters.
Reading gives the comparison back, with one exception: there is no JSON number for an amount that is
not finite, so a comparison with such a literal cannot be read at all (`comparison?_compare`).
-/

set_option autoImplicit false

namespace Realm

variable {α : Type}

theorem Source.ofDocument?_toJson (source : Source) :
    Source.ofDocument? (.ofJson (source.toJson : Json α)) = some source := by
  cases source with
  | resource key => rfl
  | stat key => rfl
  | population role => cases role <;> rfl
  | building id => rfl
  | land => rfl
  | development id => rfl

theorem Comparator.oneOf?_name (comparator : Comparator) :
    Document.oneOf? Comparator.names (.text comparator.name : Document α) = some comparator := by
  cases comparator <;> rfl

variable [Amount α]

/-- Whether an operand can be written: a literal if it is finite, a source always. -/
def Operand.isFinite : Operand α → Bool
  | .literal value => Amount.isFinite value
  | .source _ => true

theorem Operand.ofDocument?_toJson (operand : Operand α) :
    Operand.ofDocument? (.ofJson operand.toJson)
      = if operand.isFinite = true then some operand else none := by
  cases operand with
  | literal value =>
    have hwritten : (literal value).toJson
        = if Amount.isFinite value = true then .number value else .null := rfl
    rw [hwritten, show (literal value).isFinite = Amount.isFinite value from rfl]
    split <;> rfl
  | source origin =>
    have hamount : Document.amount? (.ofJson (origin.toJson : Json α)) = none := by
      cases origin <;> rfl
    unfold ofDocument? toJson
    rw [hamount]
    dsimp only
    rw [Source.ofDocument?_toJson]
    rfl

namespace Requirement

theorem slots?_compare (comparison : Comparison α) :
    Document.slots? [["left"], ["right"], ["operator"]] (.ofJson comparison.toJson)
      = some [some (.ofJson comparison.left.toJson), some (.ofJson comparison.right.toJson),
          some (.text comparison.comparator.name)] := rfl

/-- A comparison is read back if both its operands can be written. -/
theorem comparison?_compare (comparison : Comparison α) :
    (compare comparison).comparison?
      = if comparison.left.isFinite = true ∧ comparison.right.isFinite = true then .ok comparison
        else .error .malformed := by
  have hread : Comparison.ofDocument? (.ofJson comparison.toJson)
      = if comparison.left.isFinite = true ∧ comparison.right.isFinite = true then some comparison
        else none := by
    unfold Comparison.ofDocument?
    rw [slots?_compare]
    by_cases hleft : comparison.left.isFinite = true <;>
      by_cases hright : comparison.right.isFinite = true <;>
      simp [Document.required, Operand.ofDocument?_toJson, Comparator.oneOf?_name, hleft, hright]
  have hcompare : (compare comparison).family = "evaluator" ∧
      (compare comparison).method = "compare" := ⟨rfl, rfl⟩
  unfold comparison?
  rw [if_pos hcompare, show (compare comparison).params = comparison.toJson from rfl, hread]
  by_cases hfinite : comparison.left.isFinite = true ∧ comparison.right.isFinite = true
  · rw [if_pos hfinite, if_pos hfinite]
  · rw [if_neg hfinite, if_neg hfinite]

end Requirement

end Realm
