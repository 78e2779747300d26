import Realm.Amount.Binary64

/-!
# The order of finite amounts

What the book-keeping relies on when it holds an amount within bounds: any two finite amounts can
be compared, comparing is transitive, and `min` and `max` choose by comparison. Nothing is asked of
arithmetic, and nothing of amounts that are not finite.

There is no antisymmetry. Two zeros of different sign are below each other and not equal; of two
such amounts `min` and `max` give the first.
-/

set_option autoImplicit false

namespace Realm

open Amount

/-- Finite amounts are totally ordered, and `min` and `max` follow the order. -/
class Amount.Ordered (α : Type) [Amount α] : Prop where
  le_total : ∀ {x y : α}, isFinite x = true → isFinite y = true → x ≤ y ∨ y ≤ x
  le_trans : ∀ {x y z : α}, isFinite x = true → isFinite y = true → isFinite z = true →
    x ≤ y → y ≤ z → x ≤ z
  lt_iff_not_le : ∀ {x y : α}, isFinite x = true → isFinite y = true → (x < y ↔ ¬ y ≤ x)
  min_eq : ∀ {x y : α}, isFinite x = true → isFinite y = true → min x y = if x ≤ y then x else y
  max_eq : ∀ {x y : α}, isFinite x = true → isFinite y = true → max x y = if y ≤ x then x else y

namespace Amount.Ordered

variable {α : Type} [Amount α] [Amount.Ordered α] {x y : α}

theorem le_refl (hx : isFinite x = true) : x ≤ x := (le_total hx hx).elim id id

theorem le_of_lt (hx : isFinite x = true) (hy : isFinite y = true) (h : x < y) : x ≤ y :=
  (le_total hx hy).resolve_right ((lt_iff_not_le hx hy).1 h)

theorem le_of_not_lt (hx : isFinite x = true) (hy : isFinite y = true) (h : ¬ x < y) : y ≤ x :=
  Classical.byContradiction fun hle => h ((lt_iff_not_le hx hy).2 hle)

end Amount.Ordered

/-- Equal as numbers, which zeros of either sign are. -/
def Amount.Same {α : Type} [Amount α] (x y : α) : Prop := order x y = .eq

/-! ## Sixty-four bit binary numbers -/

namespace Binary64

/-- The value of a finite number, in units. -/
def units : Binary64 → Int
  | .finite negative units _ => signed negative units
  | _ => 0

theorem le_iff_units {x y : Binary64} (hx : isFinite x = true) (hy : isFinite y = true) :
    x ≤ y ↔ x.units ≤ y.units := by
  cases x <;> cases y <;> simp_all only [isFinite, Bool.false_eq_true]
  show le _ _ = true ↔ _
  simp [le, isNan, order, units, Int.isLE_compare]

theorem lt_iff_units {x y : Binary64} (hx : isFinite x = true) (hy : isFinite y = true) :
    x < y ↔ x.units < y.units := by
  cases x <;> cases y <;> simp_all only [isFinite, Bool.false_eq_true]
  show lt _ _ = true ↔ _
  simp [lt, isNan, order, units, Int.compare_eq_lt]

/-- Among finite numbers the total order is the partial one. -/
theorem isGE_order_iff {x y : Binary64} (hx : isFinite x = true) (hy : isFinite y = true) :
    (order x y).isGE = true ↔ y ≤ x := by
  rw [le_iff_units hy hx]
  cases x <;> cases y <;> simp_all only [isFinite, Bool.false_eq_true]
  simp [order, units, Int.isGE_compare]

theorem same_self (x : Binary64) : Amount.Same x x := by
  show order x x = .eq
  cases x with
  | nan => rfl
  | infinite negative => cases negative <;> rfl
  | finite negative units fits => exact Int.compare_eq_eq.2 rfl

theorem isNan_of_isFinite {x : Binary64} (hx : isFinite x = true) : x.isNan = false := by
  cases x <;> simp_all [isFinite, isNan]

instance : Amount.Ordered Binary64 where
  le_total hx hy := by
    rw [le_iff_units hx hy, le_iff_units hy hx]
    exact Int.le_total _ _
  le_trans hx hy hz hxy hyz := by
    rw [le_iff_units hx hy] at hxy
    rw [le_iff_units hy hz] at hyz
    rw [le_iff_units hx hz]
    exact Int.le_trans hxy hyz
  lt_iff_not_le hx hy := by
    rw [lt_iff_units hx hy, le_iff_units hy hx]
    exact Int.not_le.symm
  min_eq {x y} hx hy := by
    have hlt : lt y x = true ↔ ¬ x ≤ y := by
      rw [le_iff_units hx hy, Int.not_le]
      exact lt_iff_units hy hx
    show Binary64.min x y = _
    unfold Binary64.min
    by_cases h : x ≤ y <;> simp_all [isNan_of_isFinite hx]
  max_eq {x y} hx hy := by
    have hlt : lt x y = true ↔ ¬ y ≤ x := by
      rw [le_iff_units hy hx, Int.not_le]
      exact lt_iff_units hx hy
    show Binary64.max x y = _
    unfold Binary64.max
    by_cases h : y ≤ x <;> simp_all [isNan_of_isFinite hx]

end Binary64

end Realm
