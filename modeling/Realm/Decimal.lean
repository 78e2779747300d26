/-!
# Decimal notation

How amounts are written. A `Decimal` is what stands on paper — a sign, digits and a power of ten,
or one of the three non-numbers — and a `Layout` says which of the possible spellings of it is
used. Three spellings occur: running text (`Layout.prose`), the fields of a printed record
(`Layout.field`), and data files (`Layout.data`).

The layouts agree on everything but three decisions, so those decisions are the record: when
positional notation gives way to a power of ten, whether a whole number keeps a point, and whether
a positive exponent is signed.
-/

set_option autoImplicit false

namespace Realm

/-- A number as written: `± digits · 10^exponent`, or no number at all. -/
inductive Decimal where
  | undefined
  | infinite (negative : Bool)
  | finite (negative : Bool) (digits : Nat) (exponent : Int)
  deriving DecidableEq

namespace Decimal

/-- The decisions of a written form. The leading digit of `d.ddd · 10^e` has exponent `e`; a bound
    that is absent never asks for a power of ten. -/
structure Layout where
  /-- Below this leading exponent a power of ten is written. -/
  powerBelow : Option Int
  /-- From this leading exponent on a power of ten is written. -/
  powerFrom : Option Int
  /-- Whole numbers end in a point and a zero. -/
  pointed : Bool
  /-- Positive powers carry a plus sign. -/
  plus : Bool

namespace Layout

/-- Running text: always positional, nothing after a whole number. -/
def prose : Layout := { powerBelow := none, powerFrom := none, pointed := false, plus := false }

/-- Fields of a printed record: positional from 0.0001 up to but not including 10^16. -/
def field : Layout := { powerBelow := some (-4), powerFrom := some 16, pointed := true, plus := false }

/-- Data files: positional from 0.00001 up to but not including 10^16, signed powers. -/
def data : Layout := { powerBelow := some (-5), powerFrom := some 16, pointed := true, plus := true }

end Layout

/-- Moves trailing zeros of the digits into the exponent, at most `fuel` of them. -/
def trim : Nat → Nat → Int → Nat × Int
  | 0, digits, exponent => (digits, exponent)
  | fuel + 1, digits, exponent =>
    if digits ≠ 0 ∧ digits % 10 = 0 then trim fuel (digits / 10) (exponent + 1)
    else (digits, exponent)

/-- The digits of a number with a point `point` places from the left. -/
private def positional (digits : List Char) (point : Int) (pointed : Bool) : List Char :=
  let length : Int := digits.length
  if point ≤ 0 then
    '0' :: '.' :: (List.replicate (-point).toNat '0' ++ digits)
  else if point < length then
    digits.take point.toNat ++ '.' :: digits.drop point.toNat
  else
    digits ++ List.replicate (point - length).toNat '0' ++ (if pointed then ['.', '0'] else [])

/-- One digit before the point, and a power of ten. -/
private def scientific (digits : List Char) (lead : Int) (plus : Bool) : List Char :=
  let mantissa :=
    match digits with
    | [] => ['0']
    | [d] => [d]
    | d :: rest => d :: '.' :: rest
  let sign := if plus ∧ 0 ≤ lead then ['+'] else []
  mantissa ++ 'e' :: (sign ++ (toString lead).toList)

/-- The written form of a number under a layout. -/
def write (layout : Layout) : Decimal → String
  | .undefined => "NaN"
  | .infinite negative => if negative then "-inf" else "inf"
  | .finite negative digits exponent =>
    let sign := if negative then ['-'] else []
    if digits = 0 then
      String.ofList (sign ++ positional ['0'] 1 layout.pointed)
    else
      let (digits, exponent) := trim digits.log2 digits exponent
      let text := (toString digits).toList
      let point : Int := exponent + text.length
      let lead : Int := point - 1
      let low := match layout.powerBelow with | some bound => decide (lead < bound) | none => false
      let high := match layout.powerFrom with | some bound => decide (bound ≤ lead) | none => false
      if low || high then String.ofList (sign ++ scientific text lead layout.plus)
      else String.ofList (sign ++ positional text point layout.pointed)

/-! ## Reading -/

/-- The number whose decimal digits are given, most significant first. -/
def natOfDigits (digits : List Char) : Nat :=
  digits.foldl (fun n c => n * 10 + (c.toNat - '0'.toNat)) 0

/-- The parts of a numeral without its sign. -/
structure Numeral where
  whole : List Char
  /-- The digits after the point, if there is a point. -/
  fraction : Option (List Char)
  /-- The power of ten, if one is written. -/
  power : Option Int

namespace Numeral

/-- The digits of the numeral as one number; its power of ten is `exponent`. -/
def digits (n : Numeral) : Nat := natOfDigits (n.whole ++ n.fraction.getD [])

def exponent (n : Numeral) : Int := n.power.getD 0 - ((n.fraction.getD []).length : Int)

/-- Splits a signed power of ten off a list of characters. A mark with no digit after it is
    refused. -/
private def scanPower : List Char → Option (Option Int × List Char)
  | [] => some (none, [])
  | mark :: rest =>
    if mark = 'e' ∨ mark = 'E' then
      let (negative, rest) :=
        match rest with
        | '-' :: rest => (true, rest)
        | '+' :: rest => (false, rest)
        | rest => (false, rest)
      let digits := rest.takeWhile Char.isDigit
      if digits.isEmpty then none
      else
        let size : Int := natOfDigits digits
        some (some (if negative then -size else size), rest.dropWhile Char.isDigit)
    else some (none, mark :: rest)

/-- Splits the longest unsigned numeral off a list of characters; its parts may be empty. -/
def scan (chars : List Char) : Option (Numeral × List Char) := do
  let whole := chars.takeWhile Char.isDigit
  let rest := chars.dropWhile Char.isDigit
  let (fraction, rest) :=
    match rest with
    | '.' :: rest => (some (rest.takeWhile Char.isDigit), rest.dropWhile Char.isDigit)
    | rest => (none, rest)
  let (power, rest) ← scanPower rest
  return ({ whole, fraction, power }, rest)

end Numeral

end Decimal

end Realm
