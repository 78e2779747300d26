import Realm.Proofs.Amount.Order

/-!
# Sums of finite numbers

A sum of finite numbers is the exact sum of their units brought to the nearest number of the
format. Of the rounding only one thing is used here: it does not carry a count of units past a
number of the format that the count has not reached (`nearest_le`). So whatever bounds an exact sum
bounds the rounded one, provided that the bound belongs to the format (`add_within`), and this is
all it takes to see that taking away what is there leaves a finite rest (`take_within`) and that a
sum of not too many not too large numbers does not overflow (`isFinite_sum`).
-/

set_option autoImplicit false

namespace Realm
namespace Binary64

/-! ## Counts of units -/

theorem log2_le_log2 {a b : Nat} (h : a ≤ b) : a.log2 ≤ b.log2 := by
  by_cases ha : a = 0
  · subst ha
    exact Nat.zero_le _
  · have hb : b ≠ 0 := by omega
    exact (Nat.le_log2 hb).2 (Nat.le_trans (Nat.log2_self_le ha) h)

/-- A power of two. Counts of units from `power 2098` on are too large for the format. -/
def power (exponent : Nat) : Nat := Nat.pow 2 exponent

theorem power_pos (exponent : Nat) : 0 < power exponent := Nat.two_pow_pos exponent

theorem power_add (m n : Nat) : power (m + n) = power m * power n := Nat.pow_add 2 m n

theorem power_dvd_power {m n : Nat} (h : m ≤ n) : power m ∣ power n := Nat.pow_dvd_pow 2 h

theorem log2_power (exponent : Nat) : (power exponent).log2 = exponent := Nat.log2_two_pow

theorem log2_lt_iff {units exponent : Nat} (h : 0 < exponent) :
    units.log2 < exponent ↔ units < power exponent := by
  by_cases hzero : units = 0
  · subst hzero
    exact iff_of_true h (power_pos exponent)
  · exact Nat.log2_lt hzero

theorem spacing_eq (units : Nat) : spacing units = power (units.log2 - 52) := rfl

theorem spacing_pos (units : Nat) : 0 < spacing units := power_pos _

theorem spacing_dvd_spacing {a b : Nat} (h : a ≤ b) : spacing a ∣ spacing b :=
  power_dvd_power (Nat.sub_le_sub_right (log2_le_log2 h) 52)

theorem fits_iff {units : Nat} :
    fits units = true ↔ spacing units ∣ units ∧ units < power 2098 := by
  unfold fits
  rw [Bool.and_eq_true, beq_iff_eq, decide_eq_true_eq, Nat.dvd_iff_mod_eq_zero,
    log2_lt_iff (by decide)]

/-- A multiple of a power of two belongs to the format if the factor has at most 53 bits. -/
theorem fits_mul_power {factor exponent : Nat} (hfactor : factor ≤ power 53)
    (hsize : factor * power exponent < power 2098) : fits (factor * power exponent) = true := by
  refine fits_iff.2 ⟨?_, hsize⟩
  rw [spacing_eq]
  rcases Nat.lt_or_eq_of_le hfactor with hlt | heq
  · have hlog : (factor * power exponent).log2 < 53 + exponent := by
      rw [log2_lt_iff (by omega), power_add]
      exact Nat.mul_lt_mul_of_pos_right hlt (power_pos exponent)
    exact Nat.dvd_mul_left_of_dvd (power_dvd_power (by omega)) factor
  · -- The one factor with 54 bits is a power of two itself.
    rw [heq, ← power_add, log2_power]
    exact power_dvd_power (by omega)

/-! ## Rounding -/

/-- Rounding a whole count gives a neighbour of it among the multiples of its spacing, and the
    count itself where it is one. -/
theorem nearest_cases (units : Nat) :
    nearest units 1 = units / spacing units * spacing units ∨
      (¬ spacing units ∣ units ∧
        nearest units 1 = (units / spacing units + 1) * spacing units) := by
  unfold nearest
  simp only [Nat.div_one, Nat.one_mul]
  split
  · rename_i hup
    right
    refine ⟨fun hdvd => ?_, rfl⟩
    have hpos := spacing_pos units
    rw [Nat.mod_eq_zero_of_dvd hdvd] at hup
    omega
  · exact .inl rfl

/-- Rounding does not go past a number of the format. -/
theorem nearest_le {units limit : Nat} (h : units ≤ limit) (hlimit : fits limit = true) :
    nearest units 1 ≤ limit := by
  rcases nearest_cases units with hdown | ⟨hdvd, hup⟩
  · rw [hdown]
    exact Nat.le_trans (Nat.div_mul_le_self _ _) h
  · rw [hup]
    obtain ⟨count, hcount⟩ := Nat.dvd_trans (spacing_dvd_spacing h) (fits_iff.1 hlimit).1
    -- The limit is a multiple of the same spacing, and the count of units lies strictly below it.
    have hne : units ≠ limit := by
      rintro rfl
      exact hdvd ⟨count, hcount⟩
    have hlt : units < count * spacing units := by
      rw [Nat.mul_comm, ← hcount]
      omega
    have hstep : units / spacing units < count := Nat.div_lt_of_lt_mul (by rwa [Nat.mul_comm] at hlt)
    calc (units / spacing units + 1) * spacing units
        ≤ count * spacing units := Nat.mul_le_mul_right _ hstep
      _ = limit := by rw [Nat.mul_comm, ← hcount]

/-- Rounding gives a number of the format, if there is one to stay below. -/
theorem fits_nearest {units limit : Nat} (h : units ≤ limit) (hlimit : fits limit = true) :
    fits (nearest units 1) = true := by
  have hsize : nearest units 1 < power 2098 :=
    Nat.lt_of_le_of_lt (nearest_le h hlimit) (fits_iff.1 hlimit).2
  -- The quotient has at most 53 bits, and 54 if rounding up makes it a power of two.
  have hquotient : units / spacing units + 1 ≤ power 53 := by
    refine Nat.div_lt_of_lt_mul ?_
    rw [spacing_eq, ← power_add, ← log2_lt_iff (by omega)]
    omega
  rcases nearest_cases units with hround | ⟨-, hround⟩
  · rw [hround] at hsize ⊢
    exact fits_mul_power (by omega) hsize
  · rw [hround] at hsize ⊢
    exact fits_mul_power hquotient hsize

/-! ## Sums -/

theorem fits_natAbs_units {x : Binary64} (hx : isFinite x = true) :
    fits x.units.natAbs = true := by
  cases x with
  | nan => cases hx
  | infinite negative => cases hx
  | finite negative count hfits =>
    cases negative with
    | false => exact hfits
    | true =>
      show fits (-(count : Int)).natAbs = true
      rw [Int.natAbs_neg, Int.natAbs_natCast]
      exact hfits

theorem isFinite_neg (x : Binary64) : isFinite (-x) = isFinite x := by
  cases x <;> rfl

theorem units_neg (x : Binary64) : (-x).units = -x.units := by
  cases x with
  | nan => rfl
  | infinite negative => rfl
  | finite negative count hfits =>
    show signed (!negative) count = -signed negative count
    cases negative with
    | false => rfl
    | true => exact (Int.neg_neg _).symm

/-- The sum of two finite numbers: their units added up and rounded. -/
theorem add_eq {x y : Binary64} (hx : isFinite x = true) (hy : isFinite y = true) :
    ∃ negative, x + y = ofUnits negative (nearest (x.units + y.units).natAbs 1) ∧
      (0 < x.units + y.units → negative = false) ∧ (x.units + y.units < 0 → negative = true) := by
  cases x <;> cases y <;> simp only [isFinite, Bool.false_eq_true] at hx hy
  rename_i a m _ b n _
  show ∃ negative, add (.finite a m _) (.finite b n _) = _ ∧ _
  unfold add
  dsimp only [units]
  by_cases hzero : signed a m + signed b n = 0
  · refine ⟨a && b, ?_, fun h => ?_, fun h => ?_⟩
    · rw [if_pos hzero, hzero]
      rfl
    · omega
    · omega
  · refine ⟨decide (signed a m + signed b n < 0), ?_, fun h => ?_, fun h => ?_⟩
    · rw [if_neg hzero]
      rfl
    · exact decide_eq_false (by omega)
    · exact decide_eq_true h

/-- What bounds the exact sum bounds the rounded one. -/
theorem add_within {x y : Binary64} (hx : isFinite x = true) (hy : isFinite y = true) {limit : Nat}
    (hlimit : fits limit = true) (h : (x.units + y.units).natAbs ≤ limit) :
    isFinite (x + y) = true ∧ (x + y).units.natAbs ≤ limit ∧
      (0 ≤ x.units + y.units → 0 ≤ (x + y).units) := by
  obtain ⟨negative, hsum, hsign, -⟩ := add_eq hx hy
  have hfits := fits_nearest h hlimit
  have hle := nearest_le h hlimit
  rw [hsum]
  unfold ofUnits
  rw [dif_pos hfits]
  refine ⟨rfl, ?_, fun hpos => ?_⟩
  · show (signed negative _).natAbs ≤ limit
    unfold signed
    split <;> omega
  · show 0 ≤ signed negative _
    rcases Int.lt_or_eq_of_le hpos with hlt | heq
    · rw [hsign hlt]
      exact Int.natCast_nonneg _
    · rw [← heq]
      cases negative <;> decide

theorem isFinite_zero : isFinite 0 = true := by decide +kernel

theorem units_zero : units 0 = 0 := by decide +kernel

/-- Taking a positive amount from one that is at least as large leaves a finite rest that is neither
    negative nor larger than what there was. -/
theorem take_within {x y : Binary64} (hx : isFinite x = true) (hy : isFinite y = true)
    (hpos : 0 < y) (hle : y ≤ x) :
    isFinite (x + -y) = true ∧ 0 ≤ x + -y ∧ x + -y ≤ x := by
  rw [lt_iff_units isFinite_zero hy, units_zero] at hpos
  rw [le_iff_units hy hx] at hle
  have hneg : isFinite (-y) = true := by rw [isFinite_neg, hy]
  have hrest : x.units + (-y).units = x.units - y.units := by rw [units_neg, Int.sub_eq_add_neg]
  obtain ⟨hfinite, hbound, hsign⟩ :=
    add_within hx hneg (fits_natAbs_units hx) (by rw [hrest]; omega)
  rw [le_iff_units isFinite_zero hfinite, units_zero, le_iff_units hfinite hx]
  have hsigned := hsign (by rw [hrest]; omega)
  exact ⟨hfinite, hsigned, by omega⟩

/-- A running sum of numbers, none larger than a power of two, stays finite as long as so many
    times the power is not too large. -/
theorem isFinite_foldl_add {amounts : List Binary64} {exponent : Nat}
    (hamounts : ∀ amount ∈ amounts,
      isFinite amount = true ∧ amount.units.natAbs ≤ power exponent)
    {seen : Nat} {total : Binary64} (htotal : isFinite total = true)
    (hseen : total.units.natAbs ≤ seen * power exponent)
    (hcount : seen + amounts.length ≤ power 53)
    (hroom : (seen + amounts.length) * power exponent < power 2098) :
    isFinite (amounts.foldl (· + ·) total) = true := by
  induction amounts generalizing seen total with
  | nil => exact htotal
  | cons amount rest ih =>
    obtain ⟨hamount, hsmall⟩ := hamounts amount List.mem_cons_self
    rw [List.length_cons] at hcount hroom
    have hle : (seen + 1) * power exponent ≤ (seen + (rest.length + 1)) * power exponent :=
      Nat.mul_le_mul_right _ (by omega)
    have hlimit : fits ((seen + 1) * power exponent) = true :=
      fits_mul_power (by omega) (Nat.lt_of_le_of_lt hle hroom)
    have hexact : (total.units + amount.units).natAbs ≤ (seen + 1) * power exponent := by
      rw [Nat.add_mul, Nat.one_mul]
      exact Nat.le_trans (Int.natAbs_add_le _ _) (Nat.add_le_add hseen hsmall)
    obtain ⟨hfinite, hbound, -⟩ := add_within htotal hamount hlimit hexact
    rw [List.foldl_cons]
    have hshift : seen + 1 + rest.length = seen + (rest.length + 1) := by omega
    refine ih (fun other hother => hamounts other (List.mem_cons_of_mem _ hother)) hfinite hbound
      ?_ ?_
    · rw [hshift]
      exact hcount
    · rw [hshift]
      exact hroom

/-- A sum does not overflow if its summands are not too many and not too large. -/
theorem isFinite_sum {amounts : List Binary64} {exponent : Nat}
    (hamounts : ∀ amount ∈ amounts,
      isFinite amount = true ∧ amount.units.natAbs ≤ power exponent)
    (hcount : amounts.length ≤ power 53)
    (hroom : amounts.length * power exponent < power 2098) :
    isFinite (Amount.sum amounts) = true := by
  have hstart : isFinite (-0) = true ∧ (-0 : Binary64).units.natAbs ≤ 0 * power exponent := by
    rw [isFinite_neg, units_neg, units_zero, Nat.zero_mul]
    exact ⟨isFinite_zero, Nat.le_refl 0⟩
  refine isFinite_foldl_add hamounts hstart.1 hstart.2 ?_ ?_
  · rw [Nat.zero_add]
    exact hcount
  · rw [Nat.zero_add]
    exact hroom

end Binary64

end Realm
