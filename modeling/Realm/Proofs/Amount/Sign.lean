import Realm.Amount.Binary64

/-!
# Amounts with a sign

What taking a change back relies on: subtracting is adding the negative, a negative has a negative,
and a finite sum has finite summands. That subtracting gives back what there was before is no law;
sums are rounded.
-/

set_option autoImplicit false

namespace Realm

open Amount

/-- Subtracting is adding the negative, and no sum loses sight of a summand that is not finite. -/
class Amount.Signed (α : Type) [Amount α] : Prop where
  sub_eq : ∀ x y : α, x - y = x + -y
  neg_neg : ∀ x : α, - -x = x
  isFinite_of_add : ∀ {x y : α}, isFinite (x + y) = true → isFinite x = true

instance : Amount.Signed Binary64 where
  sub_eq _ _ := rfl
  neg_neg x := by
    show x.neg.neg = x
    cases x <;> simp [Binary64.neg]
  isFinite_of_add {x y} h := by
    cases x with
    | finite negative units fits => rfl
    | nan => exact h
    | infinite negative =>
      -- Adding to an infinite number gives an infinite one or none at all.
      cases y with
      | nan => exact h
      | finite _ _ _ => exact h
      | infinite negative' =>
        have hsum : (if negative = negative' then Binary64.infinite negative
            else .nan).isFinite = true := h
        split at hsum
        · cases hsum
        · cases hsum

end Realm
