import Realm.Document

/-!
# Reading JSON

A strict reader of JSON texts. It takes exactly one value, with nothing but blanks around it, and
refuses what the grammar has no place for: trailing commas, leading zeros and plus signs, bare
points, control characters in texts, escapes that are half a character. Values nest at most 127
deep.

The reader keeps duplicate keys, which `Document` leaves to whoever wants the record. Recursion is
on the depth that is left; inside one level the loops over items and characters run on `size`, which
is above the length of the whole text, and each turn takes at least one character of it.
-/

set_option autoImplicit false

namespace Realm.Json.Reader

/-- Drops blanks. -/
def skipBlanks (chars : List Char) : List Char :=
  chars.dropWhile fun c => c = ' ' || c = '\t' || c = '\n' || c = '\r'

/-- Four hexadecimal digits. -/
def hex4? : List Char → Option (Nat × List Char)
  | a :: b :: c :: d :: rest => do
    let digits ← Plain.ofDigits? 16 [a, b, c, d]
    return (digits, rest)
  | _ => none

/-- The character of an escape, after the backslash. Two halves of a surrogate pair make one
    character; a half alone is refused. -/
def escape? : List Char → Option (Char × List Char)
  | '"' :: rest => some ('"', rest)
  | '\\' :: rest => some ('\\', rest)
  | '/' :: rest => some ('/', rest)
  | 'b' :: rest => some (Char.ofNat 8, rest)
  | 'f' :: rest => some (Char.ofNat 12, rest)
  | 'n' :: rest => some ('\n', rest)
  | 'r' :: rest => some ('\r', rest)
  | 't' :: rest => some ('\t', rest)
  | 'u' :: rest => do
    let (high, rest) ← hex4? rest
    if 0xD800 ≤ high ∧ high < 0xDC00 then
      match rest with
      | '\\' :: 'u' :: rest =>
        let (low, rest) ← hex4? rest
        if 0xDC00 ≤ low ∧ low < 0xE000 then
          some (Char.ofNat (0x10000 + (high - 0xD800) * 0x400 + (low - 0xDC00)), rest)
        else none
      | _ => none
    else if 0xDC00 ≤ high ∧ high < 0xE000 then none
    else some (Char.ofNat high, rest)
  | _ => none

/-- The rest of a text after its opening quote. -/
def quoted? : Nat → List Char → List Char → Option (String × List Char)
  | 0, _, _ => none
  | size + 1, done, chars =>
    match chars with
    | [] => none
    | '"' :: rest => some (String.ofList done.reverse, rest)
    | '\\' :: rest => do
      let (c, rest) ← escape? rest
      quoted? size (c :: done) rest
    | c :: rest => if c.toNat < 32 then none else quoted? size (c :: done) rest

variable {α : Type} [Amount α]

/-- A number: whole numbers up to 64 bits stay whole, everything else is an amount, and an amount
    has to be finite. Minus zero is an amount. -/
def number? (chars : List Char) : Option (Document α × List Char) := do
  let (negative, chars) :=
    match chars with
    | '-' :: rest => (true, rest)
    | chars => (false, chars)
  let (numeral, rest) ← Decimal.Numeral.scan chars
  let wholeOk :=
    match numeral.whole with
    | [] => false
    | ['0'] => true
    | '0' :: _ => false
    | _ => true
  let fractionOk := match numeral.fraction with | some [] => false | _ => true
  if !wholeOk || !fractionOk then none
  else
    let value : α := Amount.ofDecimal negative numeral.digits numeral.exponent
    let amount : Option (Document α × List Char) :=
      if Amount.isFinite value then some (.number value, rest) else none
    if numeral.fraction.isSome || numeral.power.isSome then amount
    else if negative then
      if numeral.digits = 0 ∨ 9223372036854775808 < numeral.digits then amount
      else some (.integer (-(numeral.digits : Int)), rest)
    else if numeral.digits < 18446744073709551616 then some (.integer numeral.digits, rest)
    else amount

/-- The items of a list after its first bracket and up to its last, given a reader of values. -/
def items? (value? : List Char → Option (Document α × List Char)) :
    Nat → List (Document α) → List Char → Option (List (Document α) × List Char)
  | 0, _, _ => none
  | size + 1, done, chars => do
    let (item, rest) ← value? (skipBlanks chars)
    match skipBlanks rest with
    | ',' :: rest => items? value? size (item :: done) rest
    | ']' :: rest => some ((item :: done).reverse, rest)
    | _ => none

/-- The fields of a record after its first brace and up to its last, given a reader of values. -/
def fields? (value? : List Char → Option (Document α × List Char)) :
    Nat → List (String × Document α) → List Char →
      Option (List (String × Document α) × List Char)
  | 0, _, _ => none
  | size + 1, done, chars =>
    match skipBlanks chars with
    | '"' :: rest => do
      let (name, rest) ← quoted? (size + 1) [] rest
      match skipBlanks rest with
      | ':' :: rest =>
        let (value, rest) ← value? (skipBlanks rest)
        match skipBlanks rest with
        | ',' :: rest => fields? value? size ((name, value) :: done) rest
        | '\x7d' :: rest => some (((name, value) :: done).reverse, rest)
        | _ => none
      | _ => none
    | _ => none

/-- A value that nests less than `depth` deep. -/
def value? (size : Nat) : Nat → List Char → Option (Document α × List Char)
  | _, 'n' :: 'u' :: 'l' :: 'l' :: rest => some (.null, rest)
  | _, 't' :: 'r' :: 'u' :: 'e' :: rest => some (.bool true, rest)
  | _, 'f' :: 'a' :: 'l' :: 's' :: 'e' :: rest => some (.bool false, rest)
  | _, '"' :: rest => do
    let (chars, rest) ← quoted? size [] rest
    return (.text chars, rest)
  | depth + 1, '[' :: rest =>
    match skipBlanks rest with
    | ']' :: rest => if depth = 0 then none else some (.list true [], rest)
    | rest =>
      if depth = 0 then none
      else do
        let (items, rest) ← items? (value? size depth) size [] rest
        return (.list true items, rest)
  | depth + 1, '\x7b' :: rest =>
    match skipBlanks rest with
    | '\x7d' :: rest => if depth = 0 then none else some (.record [], rest)
    | rest =>
      if depth = 0 then none
      else do
        let (fields, rest) ← fields? (value? size depth) size [] rest
        return (.record fields, rest)
  | _, chars => number? chars

end Realm.Json.Reader

namespace Realm.Document

/-- Reads a JSON text. -/
def ofJsonText? {α : Type} [Amount α] (text : String) : Option (Document α) :=
  let chars := text.toList
  match Json.Reader.value? (chars.length + 1) 128 (Json.Reader.skipBlanks chars) with
  | some (document, rest) => if (Json.Reader.skipBlanks rest).isEmpty then some document else none
  | none => none

end Realm.Document
