import Realm.Proofs.Amount.Nearest

/-!
# Adding what is not negative

Sums are rounded, and yet adding something that is not negative never leads below what there was
(`le_add`). It would be hard to see from how sums are rounded, but it need not be: rounding does not
carry a count of units past a number of the format, neither upwards (`nearest_le`) nor downwards
(`le_nearest`), and the first summand is such a number.

Two numbers that are the same differ by nothing that is worth recording (`noticeable_sub_of_same`),
and that is also so of the totals that have overflowed.
-/

set_option autoImplicit false

namespace Realm

/-- A count is an amount as a whole number is. Stated of every `Amount`, for at the numbers of a
    game comparing the two sides would compute. -/
theorem Amount.ofCount_eq {α : Type} [Amount α] (n : Nat) :
    (Amount.ofCount n : α) = Amount.ofInt n := rfl

namespace Binary64

/-! ## Rounding -/

theorem le_div_mul {limit units step : Nat} (hstep : step ∣ limit) (h : limit ≤ units) :
    limit ≤ units / step * step := by
  calc limit = limit / step * step := (Nat.div_mul_cancel hstep).symm
    _ ≤ units / step * step := Nat.mul_le_mul_right _ (Nat.div_le_div_right h)

/-- Rounding does not fall back behind a number of the format. -/
theorem le_nearest {units limit : Nat} (h : limit ≤ units) (hlimit : fits limit = true) :
    limit ≤ nearest units 1 := by
  have hbelow : limit ≤ units / spacing units * spacing units := by
    by_cases hlog : limit.log2 = units.log2
    · refine le_div_mul ?_ h
      rw [spacing_eq, ← hlog, ← spacing_eq]
      exact (fits_iff.1 hlimit).1
    · -- Between the two there is a power of two, and it belongs to the format.
      have hlt : limit.log2 < units.log2 := Nat.lt_of_le_of_ne (log2_le_log2 h) hlog
      have hunits : units ≠ 0 := by
        rintro rfl
        exact absurd hlt (Nat.not_lt_zero _)
      have hpower : limit ≤ power units.log2 :=
        Nat.le_of_lt ((log2_lt_iff (Nat.zero_lt_of_lt hlt)).1 hlt)
      exact Nat.le_trans hpower
        (le_div_mul (power_dvd_power (Nat.sub_le _ _)) (Nat.log2_self_le hunits))
  rcases nearest_cases units with hround | ⟨-, hround⟩
  · rw [hround]
    exact hbelow
  · rw [hround]
    exact Nat.le_trans hbelow (Nat.mul_le_mul_right _ (Nat.le_succ _))

/-! ## Sums -/

theorem isFinite_of_add_right {x y : Binary64} (hx : isFinite x = true)
    (h : isFinite (x + y) = true) : isFinite y = true := by
  cases x with
  | nan => cases hx
  | infinite negative => cases hx
  | finite negative units fits =>
    cases y with
    | nan => exact h
    | infinite negative => exact h
    | finite negative units fits => rfl

theorem ofUnits_units {negative : Bool} {count : Nat}
    (h : isFinite (ofUnits negative count) = true) :
    (ofUnits negative count).units = signed negative count := by
  unfold ofUnits at h ⊢
  split at h
  · rename_i hfits
    rw [dif_pos hfits]
    rfl
  · cases h

/-- Adding what is not negative does not lead below what there was. -/
theorem le_add {x y : Binary64} (hx : isFinite x = true) (hy : 0 ≤ y.units)
    (hsum : isFinite (x + y) = true) : x ≤ x + y := by
  have hfinite := isFinite_of_add_right hx hsum
  rw [le_iff_units hx hsum]
  obtain ⟨negative, heq, hsign, -⟩ := add_eq hx hfinite
  rw [heq] at hsum ⊢
  rw [ofUnits_units hsum]
  have hfits := fits_natAbs_units hx
  rcases Int.lt_or_le 0 (x.units + y.units) with hpos | hneg
  · rw [hsign hpos]
    show x.units ≤ (nearest (x.units + y.units).natAbs 1 : Int)
    rcases Int.lt_or_le x.units 0 with hbelow | habove
    · omega
    · have hnearest : x.units.natAbs ≤ nearest (x.units + y.units).natAbs 1 :=
        le_nearest (by omega) hfits
      omega
  · -- The sum is not positive, so it is nearer to zero than what there was.
    have hnearest : nearest (x.units + y.units).natAbs 1 ≤ x.units.natAbs :=
      nearest_le (by omega) hfits
    unfold signed
    split <;> omega

theorem nearest_zero {den : Nat} (hden : 0 < den) : nearest 0 den = 0 := by
  have hstep : 0 < den * spacing 0 := Nat.mul_pos hden (spacing_pos 0)
  unfold nearest
  simp only [Nat.zero_div, Nat.zero_mod]
  rw [if_neg (by omega), Nat.zero_mul]

theorem scale_pos : 0 < scale := by decide +kernel

theorem signed_zero (negative : Bool) : signed negative 0 = 0 := by cases negative <;> rfl

/-- Multiplying two numbers neither of which is negative gives none. -/
theorem units_mul_nonneg {x : Binary64} (hx : 0 ≤ x.units) {count : Nat}
    (h : isFinite (x * ofUnits false count) = true) : 0 ≤ (x * ofUnits false count).units := by
  change isFinite (mul x (ofUnits false count)) = true at h
  show 0 ≤ (mul x (ofUnits false count)).units
  by_cases hcount : fits count = true
  · rw [show ofUnits false count = .finite false count hcount from dif_pos hcount] at h ⊢
    cases x with
    | nan => cases h
    | infinite negative =>
      unfold mul at h
      dsimp only at h
      split at h <;> cases h
    | finite negative units hunits =>
      show 0 ≤ (ofUnits (negative != false) (nearest (units * count) scale)).units
      rw [ofUnits_units h]
      cases negative with
      | false => exact Int.natCast_nonneg _
      | true =>
        -- The only number with this sign that is not negative is a zero.
        have hzero : units = 0 := by
          change 0 ≤ -(units : Int) at hx
          omega
        have hproduct : signed (true != false) (nearest (units * count) scale) = 0 := by
          rw [hzero, Nat.zero_mul, nearest_zero scale_pos, signed_zero]
        exact Int.le_of_eq hproduct.symm
  · rw [show ofUnits false count = .infinite false from dif_neg hcount] at h
    cases x with
    | nan => cases h
    | infinite negative => cases h
    | finite negative units hunits =>
      unfold mul at h
      dsimp only at h
      split at h <;> cases h

theorem ofInt_eq {n : Int} (hn : 0 ≤ n) :
    ofInt n = ofUnits false (nearest (n.natAbs * scale) 1) := by
  unfold ofInt ofQuotient
  rw [decide_eq_false (by omega)]

theorem amount_ofInt (n : Int) : (Amount.ofInt n : Binary64) = ofInt n := rfl

/-- **What is added so many times does not lead below what there was.** -/
theorem le_add_mul {x y : Binary64} (hx : isFinite x = true) (hy : isFinite y = true)
    (hpos : ¬ y < 0) {n : Nat} (hsum : isFinite (x + y * Amount.ofCount n) = true) :
    x ≤ x + y * Amount.ofCount n := by
  have hunits : 0 ≤ y.units := by
    rw [lt_iff_units hy isFinite_zero, units_zero] at hpos
    omega
  refine le_add hx ?_ hsum
  have hproduct := isFinite_of_add_right hx hsum
  rw [Amount.ofCount_eq, amount_ofInt, ofInt_eq (Int.natCast_nonneg n)] at hproduct ⊢
  exact units_mul_nonneg hunits hproduct

/-! ## Differences -/

/-- The same number twice makes no difference worth recording. -/
theorem noticeable_sub_of_same {x y : Binary64} (h : Amount.Same x y) :
    noticeable (x - y) = false := by
  change order x y = .eq at h
  show noticeable (add x (neg y)) = false
  cases x with
  | nan => rfl
  | infinite negative =>
    cases y with
    | nan => rfl
    | infinite other => cases negative <;> cases other <;> first | rfl | cases h
    | finite other units fits => cases negative <;> cases h
  | finite negative units fits =>
    cases y with
    | nan => rfl
    | infinite other => cases other <;> cases h
    | finite other count hcount =>
      have hsame : signed negative units = signed other count := Int.compare_eq_eq.1 h
      have hzero : signed negative units + signed (!other) count = 0 := by
        rw [hsame]
        cases other with
        | false => exact Int.add_right_neg _
        | true => exact Int.add_left_neg _
      have hsum : add (.finite negative units fits) (neg (.finite other count hcount))
          = ofUnits (negative && !other) 0 := if_pos hzero
      rw [hsum]
      unfold ofUnits
      rw [dif_pos (by decide)]
      unfold noticeable
      exact decide_eq_false (Nat.not_lt_zero _)

end Binary64

end Realm
