import Mathlib.Algebra.Order.Floor.Ring
import Mathlib.Data.Rat.Floor
import Mathlib.Tactic.Linarith
import Realm.Amount

/-!
# Rounding of fractions

Fractions are amounts like any other (`Fraction`), and with them nothing is lost on the way: a mode
of rounding does what its cases say, and no more. `Rounding.whole` says it in whole numbers
(`Fraction.value_round`), where the laws of the modes are those of floors and ceilings.

Up and down are one function on either side of zero and its mirror image on the other. Each case of
them takes zero to zero, so zero may be counted to either side, and then rounding `-value` is
rounding `value` with the cases exchanged. To the nearest has no mirror image: it is one function
throughout, the floor of what is half a unit above.
-/

set_option autoImplicit false

namespace Realm
namespace Rounding

/-! ## What a fraction is rounded to -/

/-- The whole number that a fraction is rounded to. -/
def whole : Rounding → ℚ → ℤ
  | .up, value => if 0 ≤ value then ⌈value⌉ else ⌊value⌋
  | .down, value => if 0 ≤ value then ⌊value⌋ else ⌈value⌉
  | .nearest, value => ⌊value + 1 / 2⌋

variable {value : ℚ}

theorem whole_up_of_nonneg (h : 0 ≤ value) : whole .up value = ⌈value⌉ := if_pos h

theorem whole_down_of_nonneg (h : 0 ≤ value) : whole .down value = ⌊value⌋ := if_pos h

theorem whole_up_of_nonpos (h : value ≤ 0) : whole .up value = ⌊value⌋ := by
  rcases h.eq_or_lt with rfl | hneg
  · exact (whole_up_of_nonneg le_rfl).trans (Int.ceil_zero.trans Int.floor_zero.symm)
  · exact if_neg hneg.not_ge

theorem whole_down_of_nonpos (h : value ≤ 0) : whole .down value = ⌈value⌉ := by
  rcases h.eq_or_lt with rfl | hneg
  · exact (whole_down_of_nonneg le_rfl).trans (Int.floor_zero.trans Int.ceil_zero.symm)
  · exact if_neg hneg.not_ge

theorem whole_nearest (value : ℚ) : whole .nearest value = ⌊value + 1 / 2⌋ := rfl

/-- The mirror image of rounding up. -/
theorem whole_up_neg (value : ℚ) : whole .up (-value) = -whole .up value := by
  rcases le_total 0 value with h | h
  · rw [whole_up_of_nonpos (neg_nonpos.2 h), whole_up_of_nonneg h, Int.floor_neg]
  · rw [whole_up_of_nonneg (neg_nonneg.2 h), whole_up_of_nonpos h, Int.ceil_neg]

theorem whole_down_neg (value : ℚ) : whole .down (-value) = -whole .down value := by
  rcases le_total 0 value with h | h
  · rw [whole_down_of_nonpos (neg_nonpos.2 h), whole_down_of_nonneg h, Int.ceil_neg]
  · rw [whole_down_of_nonneg (neg_nonneg.2 h), whole_down_of_nonpos h, Int.floor_neg]

theorem whole_intCast (mode : Rounding) (n : ℤ) : mode.whole n = n := by
  cases mode with
  | up => rw [whole, Int.ceil_intCast, Int.floor_intCast, ite_self]
  | down => rw [whole, Int.ceil_intCast, Int.floor_intCast, ite_self]
  | nearest =>
    rw [whole_nearest, Int.floor_intCast_add, show ⌊(1 / 2 : ℚ)⌋ = 0 by norm_num, add_zero]

/-- Where the cases change, at zero, both of them are zero. -/
theorem whole_mono (mode : Rounding) {value other : ℚ} (h : value ≤ other) :
    mode.whole value ≤ mode.whole other := by
  cases mode with
  | up =>
    rcases le_total 0 value with hvalue | hvalue
    · rw [whole_up_of_nonneg hvalue, whole_up_of_nonneg (hvalue.trans h)]
      exact Int.ceil_le_ceil h
    · rw [whole_up_of_nonpos hvalue]
      rcases le_total 0 other with hother | hother
      · rw [whole_up_of_nonneg hother]
        calc ⌊value⌋ ≤ 0 := Int.floor_nonpos hvalue
          _ ≤ ⌈other⌉ := Int.ceil_nonneg hother
      · rw [whole_up_of_nonpos hother]
        exact Int.floor_le_floor h
  | down =>
    rcases le_total 0 value with hvalue | hvalue
    · rw [whole_down_of_nonneg hvalue, whole_down_of_nonneg (hvalue.trans h)]
      exact Int.floor_le_floor h
    · rw [whole_down_of_nonpos hvalue]
      rcases le_total 0 other with hother | hother
      · rw [whole_down_of_nonneg hother]
        calc ⌈value⌉ ≤ 0 := Int.ceil_nonpos.2 hvalue
          _ ≤ ⌊other⌋ := Int.floor_nonneg.2 hother
      · rw [whole_down_of_nonpos hother]
        exact Int.ceil_le_ceil h
  | nearest => exact Int.floor_le_floor (add_le_add_left h _)

/-! ### How far it moves -/

theorem abs_whole_up (value : ℚ) : |(whole .up value : ℚ)| = ⌈|value|⌉ := by
  rcases le_total 0 value with h | h
  · rw [whole_up_of_nonneg h, abs_of_nonneg h, abs_of_nonneg (Int.cast_nonneg (Int.ceil_nonneg h))]
  · rw [whole_up_of_nonpos h, abs_of_nonpos h, Int.ceil_neg, Int.cast_neg,
      abs_of_nonpos (Int.cast_nonpos.2 (Int.floor_nonpos h))]

theorem abs_whole_down (value : ℚ) : |(whole .down value : ℚ)| = ⌊|value|⌋ := by
  rcases le_total 0 value with h | h
  · rw [whole_down_of_nonneg h, abs_of_nonneg h,
      abs_of_nonneg (Int.cast_nonneg (Int.floor_nonneg.2 h))]
  · rw [whole_down_of_nonpos h, abs_of_nonpos h, Int.floor_neg, Int.cast_neg,
      abs_of_nonpos (Int.cast_nonpos.2 (Int.ceil_nonpos.2 h))]

theorem abs_floor_sub_lt_one (value : ℚ) : |(⌊value⌋ : ℚ) - value| < 1 := by
  rw [abs_lt]
  constructor <;> linarith [Int.floor_le value, Int.lt_floor_add_one value]

theorem abs_ceil_sub_lt_one (value : ℚ) : |(⌈value⌉ : ℚ) - value| < 1 := by
  rw [abs_lt]
  constructor <;> linarith [Int.le_ceil value, Int.ceil_lt_add_one value]

theorem abs_whole_up_sub_lt_one (value : ℚ) : |(whole .up value : ℚ) - value| < 1 := by
  rcases le_total 0 value with h | h
  · rw [whole_up_of_nonneg h]
    exact abs_ceil_sub_lt_one value
  · rw [whole_up_of_nonpos h]
    exact abs_floor_sub_lt_one value

theorem abs_whole_down_sub_lt_one (value : ℚ) : |(whole .down value : ℚ) - value| < 1 := by
  rcases le_total 0 value with h | h
  · rw [whole_down_of_nonneg h]
    exact abs_floor_sub_lt_one value
  · rw [whole_down_of_nonpos h]
    exact abs_ceil_sub_lt_one value

theorem abs_whole_nearest_sub_le (value : ℚ) : |(whole .nearest value : ℚ) - value| ≤ 1 / 2 := by
  rw [whole_nearest, abs_le]
  constructor <;> linarith [Int.floor_le (value + 1 / 2), Int.lt_floor_add_one (value + 1 / 2)]

/-- Half-way between two whole numbers it is the greater one. -/
theorem whole_nearest_of_half (h : value - ⌊value⌋ = 1 / 2) :
    (whole .nearest value : ℚ) = value + 1 / 2 := by
  have hvalue : value + 1 / 2 = ((⌊value⌋ + 1 : ℤ) : ℚ) := by
    push_cast
    linarith
  rw [whole_nearest, hvalue, Int.floor_intCast]

/-- The floor, and one more if the rest is half a unit or more. -/
theorem whole_nearest_eq (value : ℚ) :
    whole .nearest value = if 1 / 2 ≤ value - ⌊value⌋ then ⌊value⌋ + 1 else ⌊value⌋ := by
  have hfloor := Int.floor_le value
  have hbelow := Int.lt_floor_add_one value
  rw [whole_nearest, Int.floor_eq_iff]
  split <;> push_cast <;> constructor <;> linarith

/-! ## Rounding amounts -/

section

variable {α : Type} [Amount α] {is : α → ℚ → Prop} {x : α}

/-- The amount's arithmetic goes along with that of its value as far as rounding asks for it; `is`
    says which amount is which fraction. -/
structure Follows (is : α → ℚ → Prop) (x : α) (value : ℚ) : Prop where
  nonneg : 0 ≤ x ↔ 0 ≤ value
  floor : is (Amount.floor x) ⌊value⌋
  ceil : is (Amount.ceil x) ⌈value⌉
  half : Amount.half ≤ x - Amount.floor x ↔ 1 / 2 ≤ value - ⌊value⌋
  next : 1 / 2 ≤ value - ⌊value⌋ → is (Amount.floor x + Amount.one) (⌊value⌋ + 1)

/-- An amount is rounded to what its value is rounded to. -/
theorem Follows.round (h : Follows is x value) (mode : Rounding) :
    is (mode.round x) (mode.whole value) := by
  cases mode with
  | up =>
    show is (if 0 ≤ x then Amount.ceil x else Amount.floor x) _
    by_cases hvalue : 0 ≤ value
    · rw [whole_up_of_nonneg hvalue, if_pos (h.nonneg.2 hvalue)]
      exact h.ceil
    · rw [whole_up_of_nonpos (le_of_not_ge hvalue), if_neg (mt h.nonneg.1 hvalue)]
      exact h.floor
  | down =>
    show is (if 0 ≤ x then Amount.floor x else Amount.ceil x) _
    by_cases hvalue : 0 ≤ value
    · rw [whole_down_of_nonneg hvalue, if_pos (h.nonneg.2 hvalue)]
      exact h.floor
    · rw [whole_down_of_nonpos (le_of_not_ge hvalue), if_neg (mt h.nonneg.1 hvalue)]
      exact h.ceil
  | nearest =>
    show is (if Amount.half ≤ x - Amount.floor x then Amount.floor x + Amount.one
      else Amount.floor x) _
    rw [whole_nearest_eq]
    by_cases hhalf : 1 / 2 ≤ value - ⌊value⌋
    · rw [if_pos hhalf, if_pos (h.half.2 hhalf), Int.cast_add, Int.cast_one]
      exact h.next hhalf
    · rw [if_neg hhalf, if_neg (mt h.half.1 hhalf)]
      exact h.floor

end

end Rounding

/-! ## Fractions -/

/-- A fraction, to be used as an amount. -/
@[ext]
structure Fraction where
  value : ℚ
  deriving DecidableEq

namespace Fraction

/-- `± digits · 10^exponent`. -/
def ofDecimal (negative : Bool) (digits : Nat) (exponent : Int) : Fraction :=
  let magnitude : ℚ := match exponent with
    | .ofNat places => mkRat (digits * Nat.pow 10 places) 1
    | .negSucc places => mkRat digits (Nat.pow 10 (places + 1))
  ⟨if negative then -magnitude else magnitude⟩

/-- The digits of a fraction that has finitely many of them. -/
def toDecimal (x : Fraction) : Decimal :=
  let places := x.value.den.log2
  let unit := Nat.pow 10 places
  if x.value.den ∣ unit then
    .finite (decide (x.value < 0)) (x.value.num.natAbs * (unit / x.value.den)) (-places)
  else .undefined

instance : Amount Fraction where
  zero := ⟨0⟩
  add x y := ⟨x.value + y.value⟩
  sub x y := ⟨x.value - y.value⟩
  mul x y := ⟨x.value * y.value⟩
  div x y := ⟨x.value / y.value⟩
  neg x := ⟨-x.value⟩
  le x y := x.value ≤ y.value
  lt x y := x.value < y.value
  min x y := if x.value ≤ y.value then x else y
  max x y := if x.value ≤ y.value then y else x
  decEq := inferInstance
  decLe x y := inferInstanceAs (Decidable (x.value ≤ y.value))
  decLt x y := inferInstanceAs (Decidable (x.value < y.value))
  ofInt n := ⟨n⟩
  ofDecimal := ofDecimal
  toDecimal := toDecimal
  floor x := ⟨⌊x.value⌋⟩
  ceil x := ⟨⌈x.value⌉⟩
  isFinite _ := true
  order x y := compare x.value y.value
  noticeable x := decide (x.value ≠ 0)

theorem value_half : (Amount.half : Fraction).value = 1 / 2 := by
  show mkRat 5 10 = 1 / 2
  norm_num [Rat.mkRat_eq_div]

theorem follows (x : Fraction) :
    Rounding.Follows (fun y value => y.value = value) x x.value where
  nonneg := Iff.rfl
  floor := rfl
  ceil := rfl
  half := by
    show (Amount.half : Fraction).value ≤ x.value - ⌊x.value⌋ ↔ _
    rw [value_half]
  next _ := congrArg (_ + ·) Int.cast_one

/-- A fraction is rounded to what it is meant to be rounded to. -/
theorem value_round (mode : Rounding) (x : Fraction) : (mode.round x).value = mode.whole x.value :=
  x.follows.round mode

theorem round_eq (mode : Rounding) (x : Fraction) : mode.round x = ⟨mode.whole x.value⟩ :=
  Fraction.ext (value_round mode x)

theorem round_neg {mode : Rounding} {x : Fraction}
    (h : mode.whole (-x.value) = -mode.whole x.value) : mode.round (-x) = -mode.round x := by
  refine Fraction.ext ?_
  show (mode.round (-x)).value = -(mode.round x).value
  rw [value_round, value_round, ← Int.cast_neg, ← h]
  rfl

end Fraction

end Realm
