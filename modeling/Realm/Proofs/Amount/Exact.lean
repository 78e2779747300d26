import Mathlib.Algebra.Group.Basic
import Mathlib.Algebra.BigOperators.Group.List.Basic
import Realm.Amount

/-!
# Amounts that lose nothing

What it takes to account for amounts: they form a commutative group under addition, and every change
but the change by zero is large enough to be recorded. Numbers of a fixed size do neither. They
round their sums, and what is below their resolution is not recorded.

The whole numbers do both (`Whole`), and they have everything else that the rules need of a number.
-/

set_option autoImplicit false

namespace Realm

/-- Sums are exact, and no change is too small to be recorded. -/
class Amount.Exact (α : Type) [Amount α] : Prop where
  add_assoc : ∀ x y z : α, x + y + z = x + (y + z)
  add_comm : ∀ x y : α, x + y = y + x
  zero_add : ∀ x : α, 0 + x = x
  neg_add_cancel : ∀ x : α, -x + x = 0
  sub_eq_add_neg : ∀ x y : α, x - y = x + -y
  noticeable_iff : ∀ x : α, Amount.noticeable x = true ↔ x ≠ 0

namespace Amount.Exact

section

variable {α : Type} [Amount α] [Amount.Exact α]

theorem add_zero (x : α) : x + 0 = x := by rw [add_comm, zero_add]

theorem sub_self (x : α) : x - x = 0 := by rw [sub_eq_add_neg, add_comm, neg_add_cancel]

/-- The group that exact amounts form. -/
abbrev group (α : Type) [Amount α] [Amount.Exact α] : AddCommGroup α where
  add_assoc := add_assoc
  add_comm := add_comm
  zero_add := zero_add
  add_zero := add_zero
  neg_add_cancel := neg_add_cancel
  sub_eq_add_neg := sub_eq_add_neg
  nsmul := nsmulRec
  zsmul := zsmulRec

/-- Two changes, one after the other, are the change from the first amount to the last. -/
theorem sub_add_sub (x y z : α) : (y - x) + (z - y) = z - x :=
  letI := group α
  sub_add_sub_cancel' y x z

theorem sum_append (xs ys : List α) : (xs ++ ys).sum = xs.sum + ys.sum :=
  letI := group α
  List.sum_append

end

end Amount.Exact

/-! ## Whole numbers -/

/-- A whole number, to be used as an amount. -/
structure Whole where
  value : Int
  deriving DecidableEq

namespace Whole

/-- The nearest whole number to `± digits · 10^exponent`, of two equally near ones the one that is
    farther from zero. -/
def ofDecimal (negative : Bool) (digits : Nat) (exponent : Int) : Whole :=
  let magnitude : Nat := match exponent with
    | .ofNat places => digits * Nat.pow 10 places
    | .negSucc places =>
      let unit := Nat.pow 10 (places + 1)
      (2 * digits + unit) / (2 * unit)
  ⟨if negative then -magnitude else magnitude⟩

instance : Amount Whole where
  zero := ⟨0⟩
  add x y := ⟨x.value + y.value⟩
  sub x y := ⟨x.value - y.value⟩
  mul x y := ⟨x.value * y.value⟩
  div x y := ⟨x.value / y.value⟩
  neg x := ⟨-x.value⟩
  le x y := x.value ≤ y.value
  lt x y := x.value < y.value
  min x y := if x.value ≤ y.value then x else y
  max x y := if x.value ≤ y.value then y else x
  decEq := inferInstance
  decLe x y := inferInstanceAs (Decidable (x.value ≤ y.value))
  decLt x y := inferInstanceAs (Decidable (x.value < y.value))
  ofInt := mk
  ofDecimal := ofDecimal
  toDecimal x := .finite (decide (x.value < 0)) x.value.natAbs 0
  floor x := x
  ceil x := x
  isFinite _ := true
  order x y := compare x.value y.value
  noticeable x := decide (x.value ≠ 0)

instance : Amount.Exact Whole where
  add_assoc x y z := congrArg mk (Int.add_assoc x.value y.value z.value)
  add_comm x y := congrArg mk (Int.add_comm x.value y.value)
  zero_add x := congrArg mk (Int.zero_add x.value)
  neg_add_cancel x := congrArg mk (Int.add_left_neg x.value)
  sub_eq_add_neg x y := congrArg mk Int.sub_eq_add_neg
  noticeable_iff x := by
    have hzero : x = 0 ↔ x.value = 0 := by
      constructor
      · intro h
        rw [h]
        rfl
      · exact congrArg mk
    rw [ne_eq, hzero]
    exact decide_eq_true_iff

end Whole

end Realm
