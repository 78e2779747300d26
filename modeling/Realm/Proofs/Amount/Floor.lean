import Mathlib.Tactic.Ring
import Realm.Ledger
import Realm.Proofs.Amount.Growth
import Realm.Proofs.Amount.Rounding

/-!
# Rounding of finite numbers

A finite number is a fraction of which the units are counted (`Binary64.fraction`), and its sums are
rounded to 53 bits. Rounding to whole numbers takes two sums: it asks for the rest above the floor,
and it may add one to the floor. Neither spoils the result.

The floor is a number of the format. What has a rest is below `2^52`, where the whole numbers all
belong to the format, so one can be added to it. The rest itself may be rounded: what is little less
than a whole number above another leaves a rest that is too long. But a rest of less than a half is
not, for it is a multiple of the spacing of the number, and not larger (`fits_emod`). And a rest of
more is not rounded past a half, which belongs to the format. So a finite number is rounded as its
fraction is (`fraction_round`), and what is proved of fractions is true of the numbers of a game.
-/

set_option autoImplicit false

namespace Realm
namespace Binary64

/-! ## Counts of units -/

theorem scale_eq : scale = power 1074 := by decide +kernel

theorem scale_eq_two_mul : scale = 2 * power 1073 := by decide +kernel

theorem intCast_scale_pos : (0 : Int) < scale := Int.natCast_pos.2 scale_pos

theorem cast_scale_pos : (0 : ℚ) < scale := Nat.cast_pos.2 scale_pos

/-- A count of the format is one of whole units of one, or it is below `2^52` of them and its
    spacing divides one. -/
theorem whole_or_small {count : Nat} (h : fits count = true) :
    scale ∣ count ∨ count < power 52 * scale ∧ spacing count ∣ scale := by
  have hpower : power 52 * scale = power 1126 := by decide +kernel
  rw [hpower, scale_eq, spacing_eq]
  rcases Nat.lt_or_ge count.log2 1126 with hlog | hlog
  · exact .inr ⟨(log2_lt_iff (by decide)).1 hlog, power_dvd_power (by omega)⟩
  · exact .inl (Nat.dvd_trans (power_dvd_power (by omega)) (fits_iff.1 h).1)

/-- Not too many units of one belong to the format. -/
theorem fits_mul_scale {factor : Nat} (h : factor ≤ power 53) : fits (factor * scale) = true := by
  have hsize : power 53 * scale < power 2098 := by decide +kernel
  rw [scale_eq] at hsize ⊢
  exact fits_mul_power h (Nat.lt_of_le_of_lt (Nat.mul_le_mul_right _ h) hsize)

theorem nearest_of_fits {count : Nat} (h : fits count = true) : nearest count 1 = count :=
  Nat.le_antisymm (nearest_le le_rfl h) (le_nearest le_rfl h)

/-- Rounding does not hide whether a number of the format has been reached. -/
theorem le_nearest_iff {count limit : Nat} (hlimit : fits limit = true)
    (h : count < limit → fits count = true) : limit ≤ nearest count 1 ↔ limit ≤ count := by
  refine ⟨fun hle => Nat.le_of_not_lt fun hlt => ?_, fun hle => le_nearest hle hlimit⟩
  rw [nearest_of_fits (h hlt)] at hle
  omega

theorem ofUnits_of_fits (negative : Bool) {count : Nat} (h : fits count = true) :
    isFinite (ofUnits negative count) = true ∧
      (ofUnits negative count).units = signed negative count := by
  unfold ofUnits
  rw [dif_pos h]
  exact ⟨rfl, rfl⟩

/-! ## Floors and ceilings -/

-- Stated of any count, for where a count is a multiple of `scale` comparing the sides would compute.
theorem signed_true (count : Nat) : signed true count = -(count : Int) := rfl

theorem signed_false (count : Nat) : signed false count = count := rfl

theorem units_finite (negative : Bool) (count : Nat) (h : fits count = true) :
    (Binary64.finite negative count h).units = signed negative count := rfl

theorem truncate_eq (count : Nat) : truncate count = count / scale * scale := rfl

theorem dvd_signed {negative : Bool} {unit count : Nat} (h : unit ∣ count) :
    (unit : Int) ∣ signed negative count := by
  cases negative with
  | false => exact Int.natCast_dvd_natCast.2 h
  | true => exact Int.dvd_neg.2 (Int.natCast_dvd_natCast.2 h)

/-- Of what is below zero and not whole the floor is the next whole number. -/
theorem neg_ediv_of_not_dvd {unit count : Nat} (hunit : 0 < unit) (h : ¬ unit ∣ count) :
    -(count : Int) / unit = -((count / unit + 1 : Nat) : Int) := by
  rw [Int.neg_ediv, if_neg (mt Int.natCast_dvd_natCast.1 h),
    Int.sign_eq_one_of_pos (Int.natCast_pos.2 hunit), ← Int.natCast_ediv]
  push_cast
  omega

theorem units_floor {x : Binary64} (hx : isFinite x = true) :
    isFinite (floor x) = true ∧ (floor x).units = x.units / scale * scale := by
  cases x with
  | nan => cases hx
  | infinite negative => cases hx
  | finite negative count hfits =>
    rw [units_finite]
    unfold floor
    dsimp only
    by_cases hwhole : scale ∣ count
    · rw [if_neg fun h => h.2 (Nat.mod_eq_zero_of_dvd hwhole), truncate_eq,
        Nat.div_mul_cancel hwhole, Int.ediv_mul_cancel (dvd_signed hwhole)]
      exact ofUnits_of_fits negative hfits
    · obtain ⟨hsmall, -⟩ := (whole_or_small hfits).resolve_left hwhole
      have hquotient : count / scale < power 52 := Nat.div_lt_of_lt_mul (by rwa [Nat.mul_comm])
      have hroom : power 52 < power 53 := by decide +kernel
      cases negative with
      | false =>
        rw [if_neg fun h => Bool.false_ne_true h.1, truncate_eq, signed_false, ← Int.natCast_ediv,
          ← Int.natCast_mul, ← signed_false]
        exact ofUnits_of_fits false (fits_mul_scale (by omega))
      | true =>
        have hnext : count / scale * scale + scale = (count / scale + 1) * scale := by
          rw [Nat.add_mul, Nat.one_mul]
        rw [if_pos ⟨rfl, mt Nat.dvd_of_mod_eq_zero hwhole⟩, truncate_eq, hnext, signed_true,
          neg_ediv_of_not_dvd scale_pos hwhole, Int.neg_mul, ← Int.natCast_mul, ← signed_true]
        exact ofUnits_of_fits true (fits_mul_scale (by omega))

theorem neg_ofUnits (negative : Bool) (count : Nat) :
    -ofUnits negative count = ofUnits (!negative) count := by
  unfold ofUnits
  split <;> rfl

/-- The ceiling is the mirror image of the floor. -/
theorem ceil_eq (x : Binary64) : ceil x = -floor (-x) := by
  cases x with
  | nan => rfl
  | infinite negative => cases negative <;> rfl
  | finite negative count hfits =>
    show ceil (.finite negative count hfits) = -floor (.finite (!negative) count hfits)
    unfold ceil floor
    dsimp only
    split
    · rw [neg_ofUnits]
      rfl
    · rw [neg_ofUnits, Bool.not_not]

theorem units_ceil {x : Binary64} (hx : isFinite x = true) :
    isFinite (ceil x) = true ∧ (ceil x).units = -(-x.units / scale * scale) := by
  obtain ⟨hfinite, hunits⟩ := units_floor ((isFinite_neg x).trans hx)
  rw [ceil_eq, isFinite_neg, units_neg, hunits, units_neg]
  exact ⟨hfinite, rfl⟩

/-! ## Rests -/

variable {x y : Binary64}

/-- The sum of two finite numbers is the exact sum, rounded without regard to its sign. -/
theorem units_add (hx : isFinite x = true) (hy : isFinite y = true)
    (h : isFinite (x + y) = true) :
    (x + y).units = signed (decide (x.units + y.units < 0))
      (nearest (x.units + y.units).natAbs 1) := by
  obtain ⟨negative, hsum, hpos, hneg⟩ := add_eq hx hy
  rw [hsum] at h ⊢
  rw [ofUnits_units h]
  rcases Int.lt_trichotomy (x.units + y.units) 0 with hlt | hzero | hgt
  · rw [hneg hlt, decide_eq_true hlt]
  · rw [hzero, Int.natAbs_zero, nearest_zero Nat.one_pos, signed_zero, signed_zero]
  · rw [hpos hgt, decide_eq_false (by omega)]

theorem signed_natAbs (total : Int) : signed (decide (total < 0)) total.natAbs = total := by
  by_cases h : total < 0
  · rw [decide_eq_true h, signed_true]
    omega
  · rw [decide_eq_false h, signed_false]
    omega

/-- A sum that belongs to the format is exact. -/
theorem add_exact (hx : isFinite x = true) (hy : isFinite y = true)
    (h : fits (x.units + y.units).natAbs = true) :
    isFinite (x + y) = true ∧ (x + y).units = x.units + y.units := by
  have hfinite := (add_within hx hy h le_rfl).1
  refine ⟨hfinite, ?_⟩
  rw [units_add hx hy hfinite, nearest_of_fits h, signed_natAbs]

/-- What is above the last whole number belongs to the format as long as it is less than a half. -/
theorem fits_emod {total : Int} (h : fits total.natAbs = true)
    (hrest : (total % scale).natAbs < power 1073) : fits (total % scale).natAbs = true := by
  by_cases hwhole : scale ∣ total.natAbs
  · rw [Int.emod_eq_zero_of_dvd (Int.natCast_dvd.2 hwhole)]
    decide
  · obtain ⟨-, hscale⟩ := (whole_or_small h).resolve_left hwhole
    obtain ⟨hspacing, hsize⟩ := fits_iff.1 h
    have hdvd : spacing total.natAbs ∣ (total % scale).natAbs := by
      rw [← Int.natCast_dvd, Int.emod_def]
      exact Int.dvd_sub (Int.natCast_dvd.2 hspacing)
        (Int.dvd_mul_of_dvd_left (Int.natCast_dvd_natCast.2 hscale))
    have hle : (total % scale).natAbs ≤ total.natAbs := by
      rcases Int.eq_nat_or_neg total with ⟨count, rfl | rfl⟩
      · rw [← Int.natCast_emod, Int.natAbs_natCast, Int.natAbs_natCast]
        exact Nat.mod_le count scale
      · -- What is less than a half above a number below zero is more than a half below the next.
        rw [Int.natAbs_neg, Int.natAbs_natCast] at hwhole ⊢
        rw [Int.neg_emod, if_neg (mt Int.natCast_dvd_natCast.1 hwhole), Int.natAbs_natCast,
          ← Int.natCast_emod] at hrest ⊢
        have hmod := Nat.mod_le count scale
        have htwice := scale_eq_two_mul
        omega
    exact fits_iff.2 ⟨Nat.dvd_trans (spacing_dvd_spacing hle) hdvd, Nat.lt_of_le_of_lt hle hsize⟩

theorem units_half : (Amount.half : Binary64).units = power 1073 := by decide +kernel

theorem isFinite_half : isFinite (Amount.half : Binary64) = true := by decide +kernel

theorem units_one : (Amount.one : Binary64).units = scale := by decide +kernel

theorem isFinite_one : isFinite (Amount.one : Binary64) = true := by decide +kernel

/-- The rest is rounded, but not past a half. -/
theorem half_le_rest_iff (hx : isFinite x = true) :
    Amount.half ≤ x - floor x ↔ (power 1073 : Int) ≤ x.units % scale := by
  obtain ⟨hfloor, hunits⟩ := units_floor hx
  have hneg : isFinite (-floor x) = true := (isFinite_neg _).trans hfloor
  have hsum : x.units + (-floor x).units = x.units % scale := by
    rw [units_neg, hunits, Int.emod_def, Int.mul_comm, Int.sub_eq_add_neg]
  have hnonneg := Int.emod_nonneg x.units intCast_scale_pos.ne'
  have hlt := Int.emod_lt_of_pos x.units intCast_scale_pos
  have hfinite : isFinite (x + -floor x) = true := by
    have hone : fits scale = true := by
      rw [← Nat.one_mul scale]
      exact fits_mul_scale (by decide +kernel)
    refine (add_within hx hneg hone ?_).1
    rw [hsum]
    omega
  show Amount.half ≤ x + -floor x ↔ _
  rw [le_iff_units isFinite_half hfinite, units_half, units_add hx hneg hfinite, hsum,
    decide_eq_false (by omega), signed_false, Int.ofNat_le]
  have hhalf : fits (power 1073) = true := by decide +kernel
  refine (le_nearest_iff hhalf fun hrest => fits_emod (fits_natAbs_units hx) hrest).trans ?_
  omega

/-- From a half on there is a next whole number, and it is not rounded. -/
theorem units_floor_add_one (hx : isFinite x = true)
    (hrest : (power 1073 : Int) ≤ x.units % scale) :
    isFinite (floor x + Amount.one) = true ∧
      (floor x + Amount.one).units = (x.units / scale + 1) * scale := by
  obtain ⟨hfloor, hunits⟩ := units_floor hx
  have hsum : (floor x).units + (Amount.one : Binary64).units = (x.units / scale + 1) * scale := by
    rw [hunits, units_one, Int.add_mul, Int.one_mul]
  have hwhole : ¬ scale ∣ x.units.natAbs := by
    intro hdvd
    rw [Int.emod_eq_zero_of_dvd (Int.natCast_dvd.2 hdvd)] at hrest
    have hpos := power_pos 1073
    omega
  obtain ⟨hsmall, -⟩ := (whole_or_small (fits_natAbs_units hx)).resolve_left hwhole
  have hupper : x.units / scale < power 52 := by
    refine Int.ediv_lt_of_lt_mul intCast_scale_pos ?_
    rw [← Int.natCast_mul]
    omega
  have hlower : -(power 52 : Int) ≤ x.units / scale := by
    refine Int.le_ediv_of_mul_le intCast_scale_pos ?_
    rw [Int.neg_mul, ← Int.natCast_mul]
    omega
  have hroom : power 52 < power 53 := by decide +kernel
  rw [← hsum]
  refine add_exact hfloor isFinite_one ?_
  rw [hsum, Int.natAbs_mul, Int.natAbs_natCast]
  exact fits_mul_scale (by omega)

/-! ## Rounding -/

/-- The fraction that a finite number is. -/
def fraction (x : Binary64) : Fraction := ⟨x.units / scale⟩

theorem fraction_of_units {whole : ℤ} (h : x.units = whole * scale) :
    x.fraction.value = whole := by
  show (x.units : ℚ) / scale = whole
  rw [h, Int.cast_mul, Int.cast_natCast, mul_div_cancel_right₀ _ cast_scale_pos.ne']

theorem floor_fraction (x : Binary64) : ⌊x.fraction.value⌋ = x.units / scale :=
  Rat.floor_intCast_div_natCast x.units scale

theorem half_le_fract_iff (x : Binary64) :
    1 / 2 ≤ x.fraction.value - ⌊x.fraction.value⌋ ↔ (power 1073 : Int) ≤ x.units % scale := by
  have hrest : x.fraction.value - ⌊x.fraction.value⌋ = (x.units % scale : ℤ) / scale := by
    rw [floor_fraction, Int.emod_def, Int.cast_sub, Int.cast_mul, Int.cast_natCast, sub_div,
      mul_div_cancel_left₀ _ cast_scale_pos.ne']
    rfl
  have hscale : (scale : ℚ) = 2 * power 1073 := by
    rw [scale_eq_two_mul, Nat.cast_mul, Nat.cast_ofNat]
  have hhalf : 1 / 2 * (scale : ℚ) = ((power 1073 : ℤ) : ℚ) := by
    rw [hscale, Int.cast_natCast]
    ring
  rw [hrest, le_div_iff₀ cast_scale_pos, hhalf, Int.cast_le]

/-- As far as rounding asks for it, the arithmetic of a finite number is that of its fraction. -/
theorem follows (hx : isFinite x = true) :
    Rounding.Follows (fun y value => isFinite y = true ∧ y.fraction.value = value) x
      x.fraction.value where
  nonneg := by
    show 0 ≤ x ↔ (0 : ℚ) ≤ x.units / scale
    rw [le_iff_units isFinite_zero hx, units_zero, le_div_iff₀ cast_scale_pos, zero_mul,
      Int.cast_nonneg_iff]
  floor := by
    obtain ⟨hfinite, hunits⟩ := units_floor hx
    rw [floor_fraction]
    exact ⟨hfinite, fraction_of_units hunits⟩
  ceil := by
    obtain ⟨hfinite, hunits⟩ := units_ceil hx
    have hceil : ⌈x.fraction.value⌉ = -(-x.units / scale) :=
      Rat.ceil_intCast_div_natCast x.units scale
    rw [hceil]
    refine ⟨hfinite, fraction_of_units (hunits.trans ?_)⟩
    rw [Int.neg_mul]
  half := (half_le_rest_iff hx).trans (half_le_fract_iff x).symm
  next hhalf := by
    obtain ⟨hfinite, hunits⟩ := units_floor_add_one hx ((half_le_fract_iff x).1 hhalf)
    rw [floor_fraction]
    exact ⟨hfinite, (fraction_of_units hunits).trans (Int.cast_add _ _)⟩

/-- **A finite number is rounded to the number that its fraction is rounded to.** -/
theorem fraction_round (hx : isFinite x = true) (mode : Rounding) :
    isFinite (mode.round x) = true ∧ (mode.round x).fraction = mode.round x.fraction := by
  obtain ⟨hfinite, hvalue⟩ := (follows hx).round mode
  exact ⟨hfinite, Fraction.ext (hvalue.trans (x.fraction.value_round mode).symm)⟩

end Binary64

/-! ## What rounding does -/

namespace Rounding

open Fraction (value_round round_eq round_neg)

/-- What rounding does to a fraction. It gives a whole number, the same if it was one already, and
    keeps the order. Up does not come nearer to zero and down does not go farther from it; both move
    a fraction by less than one, and by as much on the other side of zero. To the nearest is the
    floor of what is half a unit above, so it moves by half a unit at most, and where it is half a
    unit it moves upwards, below zero too. What is rounded is the magnitude of a change, so a
    removal takes what the addition would bring. And finite numbers of a game are rounded to the
    numbers that their fractions are rounded to. -/
theorem rounding_laws :
    (∀ (mode : Rounding) (x : Fraction), (∃ n : ℤ, (mode.round x).value = n) ∧
      mode.round (mode.round x) = mode.round x) ∧
    (∀ (mode : Rounding) (n : ℤ), mode.round (⟨n⟩ : Fraction) = ⟨n⟩) ∧
    (∀ (mode : Rounding) (x y : Fraction), x ≤ y → mode.round x ≤ mode.round y) ∧
    (∀ x : Fraction, |x.value| ≤ |(up.round x).value| ∧ |(up.round x).value - x.value| < 1 ∧
      up.round (-x) = -up.round x) ∧
    (∀ x : Fraction, |(down.round x).value| ≤ |x.value| ∧ |(down.round x).value - x.value| < 1 ∧
      down.round (-x) = -down.round x) ∧
    (∀ x : Fraction, (nearest.round x).value = ⌊x.value + 1 / 2⌋ ∧
      |(nearest.round x).value - x.value| ≤ 1 / 2 ∧
      (x.value - ⌊x.value⌋ = 1 / 2 → (nearest.round x).value = x.value + 1 / 2)) ∧
    (∀ (α : Type) [Amount α] (mode : Rounding) (delta : Delta α),
      Amount.isFinite delta.magnitude = true →
        { delta with rounding := some mode, direction := .add }.signedAmount
          = .ok (mode.round delta.magnitude) ∧
        { delta with rounding := some mode, direction := .remove }.signedAmount
          = .ok (-mode.round delta.magnitude)) ∧
    ∀ (mode : Rounding) (x : Binary64), Amount.isFinite x = true →
      Amount.isFinite (mode.round x) = true ∧
        (mode.round x).fraction = mode.round x.fraction := by
  have hwhole (mode : Rounding) (n : ℤ) : mode.round (⟨n⟩ : Fraction) = ⟨n⟩ := by
    rw [round_eq, whole_intCast]
  refine ⟨fun mode x => ⟨⟨_, value_round mode x⟩, ?_⟩, hwhole, fun mode x y h => ?_, fun x => ?_,
    fun x => ?_, fun x => ?_, fun α _ mode delta hfinite => ⟨if_pos hfinite, if_pos hfinite⟩,
    fun mode x hx => Binary64.fraction_round hx mode⟩
  · rw [round_eq mode x, hwhole]
  · show (mode.round x).value ≤ (mode.round y).value
    rw [value_round, value_round, Int.cast_le]
    exact whole_mono mode h
  · rw [value_round, abs_whole_up]
    exact ⟨Int.le_ceil _, abs_whole_up_sub_lt_one x.value, round_neg (whole_up_neg x.value)⟩
  · rw [value_round, abs_whole_down]
    exact ⟨Int.floor_le _, abs_whole_down_sub_lt_one x.value, round_neg (whole_down_neg x.value)⟩
  · rw [value_round]
    exact ⟨rfl, abs_whole_nearest_sub_le x.value, whole_nearest_of_half⟩

/-- Half a unit is rounded upwards on either side of zero, so the mirror image is another number. -/
example : nearest.round (⟨-5 / 2⟩ : Fraction) = ⟨-2⟩ ∧
    -nearest.round (⟨5 / 2⟩ : Fraction) = ⟨-3⟩ := by decide +kernel

theorem rounding_laws_halves :
    (⟨-5 / 2⟩ : Fraction) ≤ ⟨5 / 2⟩ ∧
      nearest.round (⟨-5 / 2⟩ : Fraction) ≤ nearest.round ⟨5 / 2⟩ ∧
    (-5 / 2 : ℚ) - ⌊(-5 / 2 : ℚ)⌋ = 1 / 2 ∧
      (nearest.round (⟨-5 / 2⟩ : Fraction)).value = -5 / 2 + 1 / 2 ∧
    Amount.isFinite (Binary64.ofDecimal true 25 (-1)) = true ∧
      ({ resource := "gold", direction := .remove, magnitude := .ofDecimal true 25 (-1),
          rounding := some nearest } : Delta Binary64).signedAmount
        = .ok (-nearest.round (.ofDecimal true 25 (-1))) ∧
      (nearest.round (Binary64.ofDecimal true 25 (-1))).fraction
        = nearest.round (Binary64.ofDecimal true 25 (-1)).fraction := by
  obtain ⟨-, -, hmono, -, -, hnearest, hsigned, hnumbers⟩ := rounding_laws
  have hle : (⟨-5 / 2⟩ : Fraction) ≤ ⟨5 / 2⟩ := by
    show (-5 / 2 : ℚ) ≤ 5 / 2
    norm_num
  have hhalf : (-5 / 2 : ℚ) - ⌊(-5 / 2 : ℚ)⌋ = 1 / 2 := by norm_num
  have hfinite : Amount.isFinite (Binary64.ofDecimal true 25 (-1)) = true := by decide +kernel
  -- The number is not looked at any more.
  generalize Binary64.ofDecimal true 25 (-1) = loss at hfinite ⊢
  exact ⟨hle, hmono nearest _ _ hle, hhalf, (hnearest ⟨-5 / 2⟩).2.2 hhalf, hfinite,
    (hsigned Binary64 nearest { resource := "gold", magnitude := loss } hfinite).2,
    (hnumbers nearest loss hfinite).2⟩

end Rounding

end Realm
