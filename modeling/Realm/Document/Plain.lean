import Realm.Amount

/-!
# Plain scalars

A configuration file may write a scalar without quotes, and what such a scalar is depends on what
is wanted of it: `10` is a whole number where a number is wanted and a name where a name is wanted.
This module holds the readings of a plain scalar, one per kind of value.
-/

set_option autoImplicit false

namespace Realm.Plain

/-- The spellings of an absent value; an empty scalar is one. -/
def isNull (text : String) : Bool :=
  text = "" || text = "~" || text = "null" || text = "Null" || text = "NULL"

def bool? (text : String) : Option Bool :=
  if text = "true" ∨ text = "True" ∨ text = "TRUE" then some true
  else if text = "false" ∨ text = "False" ∨ text = "FALSE" then some false
  else none

/-- The value of a digit in bases up to sixteen. -/
def digit? (base : Nat) (c : Char) : Option Nat :=
  let value :=
    if '0' ≤ c ∧ c ≤ '9' then c.toNat - '0'.toNat
    else if 'a' ≤ c ∧ c ≤ 'f' then c.toNat - 'a'.toNat + 10
    else if 'A' ≤ c ∧ c ≤ 'F' then c.toNat - 'A'.toNat + 10
    else base
  if value < base then some value else none

/-- The number that a non-empty list of digits denotes in a base. -/
def ofDigits? (base : Nat) (digits : List Char) : Option Nat :=
  if digits.isEmpty then none
  else digits.foldl (fun acc c => do return (← acc) * base + (← digit? base c)) (some 0)

/-- More than one digit, the first a zero: a name, not a number. -/
def zeroLed (text : List Char) : Bool :=
  let digits :=
    match text with
    | '-' :: rest | '+' :: rest => rest
    | text => text
  match digits with
  | '0' :: d :: rest => (d :: rest).all Char.isDigit
  | _ => false

/-- Splits off the mark of a base. -/
def base? : List Char → Option (Nat × List Char)
  | '0' :: 'x' :: rest => some (16, rest)
  | '0' :: 'o' :: rest => some (8, rest)
  | '0' :: 'b' :: rest => some (2, rest)
  | _ => none

/-- A whole number without its sign. -/
private def magnitude? (zeroLed : Bool) (chars : List Char) : Option Nat :=
  let decimal := if zeroLed then none else ofDigits? 10 chars
  match base? chars with
  | some (base, digits) => (ofDigits? base digits).orElse fun _ => decimal
  | none => decimal

/-- A whole number: an optional sign, then decimal digits or digits after the mark of a base. -/
def integer? (text : String) : Option Int :=
  let chars := text.toList
  match chars with
  | '-' :: rest => (magnitude? (zeroLed chars) rest).map fun n => -(n : Int)
  | '+' :: rest => (magnitude? (zeroLed chars) rest).map Int.ofNat
  | _ => (magnitude? (zeroLed chars) chars).map Int.ofNat

variable {α : Type} [Amount α]

/-- A number with an optional sign, point and power of ten, or the marked infinities and the marked
    undefined value. A finite numeral too large for an amount is refused. -/
def amount? (text : String) : Option α :=
  let large : α := Amount.ofDecimal false 1 1000
  let undefined : α := large - large
  if text = ".nan" ∨ text = ".NaN" ∨ text = ".NAN" then some undefined
  else
    let (negative, chars) :=
      match text.toList with
      | '-' :: rest => (true, rest)
      | '+' :: rest => (false, rest)
      | chars => (false, chars)
    if chars = ".inf".toList ∨ chars = ".Inf".toList ∨ chars = ".INF".toList then
      some (if negative then -large else large)
    else
      match Decimal.Numeral.scan chars with
      | some (numeral, []) =>
        if numeral.whole.isEmpty && (numeral.fraction.getD []).isEmpty then none
        else
          let value : α := Amount.ofDecimal negative numeral.digits numeral.exponent
          if Amount.isFinite value then some value else none
      | _ => none

end Realm.Plain
