import Realm.Amount

/-!
# Sixty-four bit binary numbers

The amounts a game runs on. A finite number is a sign and a whole number of *units* of `2^-1074`,
the least positive number of the format; a count of units belongs to the format when it has at most
53 significant bits and stays below `2^2098`. With every number measured in one unit there is no
exponent to align: a sum is a sum of whole numbers, a comparison a comparison of whole numbers, and
the only place where precision is lost is `nearest`, which brings an exact quotient back to 53 bits.

`finite` carries the proof that its units belong to the format, so each number of the format has
one representation and equality of values is equality of representations — but for the two zeros,
which differ and compare equal.
-/

set_option autoImplicit false

namespace Realm

namespace Binary64

/-- The units in one. -/
def scale : Nat := Nat.pow 2 1074

/-- The spacing of the format's numbers around a count of units. -/
def spacing (units : Nat) : Nat := Nat.pow 2 (units.log2 - 52)

/-- Whether a count of units belongs to the format. -/
def fits (units : Nat) : Bool := units % spacing units == 0 && decide (units.log2 < 2098)

/-- The quotient of two whole numbers brought to 53 significant bits: the nearest such number, of
    two equally near ones the one whose last bit is zero. -/
def nearest (num den : Nat) : Nat :=
  let step := spacing (num / den)
  let quotient := num / (den * step)
  let rest := num % (den * step)
  if den * step < 2 * rest ∨ (2 * rest = den * step ∧ quotient % 2 = 1) then (quotient + 1) * step
  else quotient * step

end Binary64

/-- A number of the sixty-four bit binary format. -/
inductive Binary64 where
  | nan
  | infinite (negative : Bool)
  | finite (negative : Bool) (units : Nat) (fits : Binary64.fits units = true)
  deriving DecidableEq

namespace Binary64

/-- The number with a sign and a count of units; a count outside the format is too large for it. -/
def ofUnits (negative : Bool) (units : Nat) : Binary64 :=
  if h : fits units = true then .finite negative units h else .infinite negative

/-- The nearest number to a signed quotient of whole numbers, in units. -/
def ofQuotient (negative : Bool) (num den : Nat) : Binary64 := ofUnits negative (nearest num den)

/-- Units with their sign. -/
def signed (negative : Bool) (units : Nat) : Int := if negative then -units else units

def zero : Binary64 := ofUnits false 0

def neg : Binary64 → Binary64
  | .nan => .nan
  | .infinite negative => .infinite (!negative)
  | .finite negative units h => .finite (!negative) units h

/-- The exact sum, rounded. A sum of zero is positive unless both summands are negative. -/
def add : Binary64 → Binary64 → Binary64
  | .nan, _ | _, .nan => .nan
  | .infinite a, .infinite b => if a = b then .infinite a else .nan
  | .infinite a, .finite .. => .infinite a
  | .finite .., .infinite b => .infinite b
  | .finite a x _, .finite b y _ =>
    let total := signed a x + signed b y
    if total = 0 then ofUnits (a && b) 0
    else ofQuotient (decide (total < 0)) total.natAbs 1

def sub (x y : Binary64) : Binary64 := add x (neg y)

/-- The exact product, rounded. -/
def mul : Binary64 → Binary64 → Binary64
  | .nan, _ | _, .nan => .nan
  | .infinite a, .infinite b => .infinite (a != b)
  | .infinite a, .finite b y _ => if y = 0 then .nan else .infinite (a != b)
  | .finite a x _, .infinite b => if x = 0 then .nan else .infinite (a != b)
  | .finite a x _, .finite b y _ => ofQuotient (a != b) (x * y) scale

/-- The exact quotient, rounded. -/
def div : Binary64 → Binary64 → Binary64
  | .nan, _ | _, .nan => .nan
  | .infinite _, .infinite _ => .nan
  | .infinite a, .finite b _ _ => .infinite (a != b)
  | .finite a _ _, .infinite b => ofUnits (a != b) 0
  | .finite a x _, .finite b y _ =>
    if y = 0 then (if x = 0 then .nan else .infinite (a != b))
    else ofQuotient (a != b) (x * scale) y

/-- Drops the part after the point. -/
def truncate (units : Nat) : Nat := units / scale * scale

def floor : Binary64 → Binary64
  | .finite negative units _ =>
    if negative ∧ units % scale ≠ 0 then ofUnits true (truncate units + scale)
    else ofUnits negative (truncate units)
  | x => x

def ceil : Binary64 → Binary64
  | .finite negative units _ =>
    if !negative ∧ units % scale ≠ 0 then ofUnits false (truncate units + scale)
    else ofUnits negative (truncate units)
  | x => x

def isFinite : Binary64 → Bool
  | .finite .. => true
  | _ => false

/-- The total order; undefined values are equal to each other and above all others. -/
def order : Binary64 → Binary64 → Ordering
  | .nan, .nan => .eq
  | .nan, _ => .gt
  | _, .nan => .lt
  | .infinite a, .infinite b => compare b.toNat a.toNat
  | .infinite a, .finite .. => if a then .lt else .gt
  | .finite .., .infinite b => if b then .gt else .lt
  | .finite a x _, .finite b y _ => compare (signed a x) (signed b y)

def isNan : Binary64 → Bool
  | .nan => true
  | _ => false

/-- The comparison that no undefined value satisfies. -/
def le (x y : Binary64) : Bool := !x.isNan && !y.isNan && (order x y).isLE

def lt (x y : Binary64) : Bool := !x.isNan && !y.isNan && (order x y).isLT

/-- The smaller of two numbers; an undefined value gives way to the other, equals keep the first. -/
def min (x y : Binary64) : Binary64 := if x.isNan || lt y x then y else x

/-- The greater of two numbers; an undefined value gives way to the other, equals keep the first. -/
def max (x y : Binary64) : Binary64 := if x.isNan || lt x y then y else x

def ofInt (n : Int) : Binary64 := ofQuotient (decide (n < 0)) (n.natAbs * scale) 1

/-! ## Decimal notation -/

/-- `digits · 10^exponent` in units, rounded. Magnitudes far outside the format are settled without
    computing the power. -/
def ofDecimal (negative : Bool) (digits : Nat) (exponent : Int) : Binary64 :=
  let size : Int := exponent + (digits.log2 : Int)
  if digits = 0 then ofUnits negative 0
  else if 400 < exponent then .infinite negative
  else if size < -2000 then ofUnits negative 0
  else if 0 ≤ exponent then ofQuotient negative (digits * Nat.pow 10 exponent.toNat * scale) 1
  else ofQuotient negative (digits * scale) (Nat.pow 10 (-exponent).toNat)

/-- Compares `units` with `10^exponent`: whether the power is not above. -/
def reaches (units : Nat) (exponent : Int) : Bool :=
  if 0 ≤ exponent then decide (Nat.pow 10 exponent.toNat * scale ≤ units)
  else decide (scale ≤ units * Nat.pow 10 (-exponent).toNat)

/-- The exponent of the leading decimal digit of a positive count of units. The logarithm to base
    ten is estimated from the one to base two and is off by at most one. -/
def leadingExponent (units : Nat) : Int :=
  let guess := (((units.log2 : Int) - 1074) * 30103).fdiv 100000
  if reaches units (guess + 1) then guess + 1
  else if reaches units guess then guess
  else guess - 1

/-- The units that `digits · 10^exponent` reads as. -/
def readBack (digits : Nat) (exponent : Int) : Nat :=
  if 0 ≤ exponent then nearest (digits * Nat.pow 10 exponent.toNat * scale) 1
  else nearest (digits * scale) (Nat.pow 10 (-exponent).toNat)

/-- The multiple of `10^exponent` that stands for a count of units, if its two neighbours on that
    grid include one that reads back: the nearer such neighbour, of two equally near the even one. -/
def onGrid? (units : Nat) (exponent : Int) : Option Nat :=
  let num := if 0 ≤ exponent then units else units * Nat.pow 10 (-exponent).toNat
  let den := if 0 ≤ exponent then scale * Nat.pow 10 exponent.toNat else scale
  let below := num / den
  let rest := num % den
  let lowReads := readBack below exponent == units
  let highReads := readBack (below + 1) exponent == units
  if lowReads && highReads then
    if 2 * rest < den ∨ (2 * rest = den ∧ below % 2 = 0) then some below else some (below + 1)
  else if lowReads then some below
  else if highReads then some (below + 1)
  else none

/-- The fewest digits that read back, and their power of ten. Seventeen always do. -/
def shortest (units : Nat) : Nat × Int :=
  let lead := leadingExponent units
  ((List.range 17).findSome? fun (n : Nat) =>
    (onGrid? units (lead - n)).map fun digits => (digits, lead - (n : Int))).getD (0, 0)

def toDecimal : Binary64 → Decimal
  | .nan => .undefined
  | .infinite negative => .infinite negative
  | .finite negative units _ =>
    if units = 0 then .finite negative 0 0
    else
      let (digits, exponent) := shortest units
      .finite negative digits exponent

/-! ## The amounts of a game -/

/-- A change is recorded when it is larger than `2^-52`, the resolution of the format at one. -/
def noticeable : Binary64 → Bool
  | .nan => false
  | .infinite _ => true
  | .finite _ units _ => decide (Nat.pow 2 (1074 - 52) < units)

instance : Amount Binary64 where
  zero := zero
  add := add
  sub := sub
  mul := mul
  div := div
  neg := neg
  le x y := le x y = true
  lt x y := lt x y = true
  min := min
  max := max
  decEq := inferInstance
  decLe x y := inferInstanceAs (Decidable (le x y = true))
  decLt x y := inferInstanceAs (Decidable (lt x y = true))
  ofInt := ofInt
  ofDecimal := ofDecimal
  toDecimal := toDecimal
  floor := floor
  ceil := ceil
  isFinite := isFinite
  order := order
  noticeable := noticeable

end Binary64

end Realm
