import Realm.Document.Plain

/-!
# Scalars of a configuration file

The three ways to write a scalar in YAML: plain, between single quotes and between double quotes.
A scalar may go over several lines; the break between two lines is then read as one space, and each
further empty line as a line break (`fold`).
-/

set_option autoImplicit false

namespace Realm.Yaml

def isBlank (c : Char) : Bool := c = ' ' || c = '\t'

/-- Whether a text ends here or goes on with a blank or a line break. -/
def atSeparator : List Char → Bool
  | [] => true
  | c :: _ => isBlank c || c = '\n'

/-- The characters that structure flow collections. -/
def isFlowMark (c : Char) : Bool :=
  c = ',' || c = '[' || c = ']' || c = '\x7b' || c = '\x7d'

/-- What stands between two parts of a scalar: the blanks of a line, or the line breaks. The text
    is kept in reverse. -/
inductive Gap where
  | blanks (reversed : List Char)
  | breaks (count : Nat)

/-- Closes a gap. -/
def fold (done : List Char) : Gap → List Char
  | .blanks reversed => reversed ++ done
  | .breaks 0 => done
  | .breaks 1 => ' ' :: done
  | .breaks (count + 2) => List.replicate (count + 1) '\n' ++ done

/-- A gap with one more blank. Blanks at the start of a line do not count. -/
def Gap.blank (c : Char) : Gap → Gap
  | .blanks reversed => .blanks (c :: reversed)
  | gap => gap

/-- A gap with one more line break. Blanks at the end of a line do not count. -/
def Gap.break : Gap → Gap
  | .blanks _ => .breaks 1
  | .breaks count => .breaks (count + 1)

def Gap.none : Gap := .blanks []

/-- A quoted scalar: its text, whether it stands on one line, and what follows it. -/
structure Quoted where
  text : String
  oneLine : Bool
  rest : List Char

/-- The rest of a scalar in single quotes, after the first quote. A quote is written twice. -/
def single? (oneLine : Bool) (done : List Char) (gap : Gap) : List Char → Option Quoted
  | [] => none
  | '\'' :: '\'' :: rest => single? oneLine ('\'' :: fold done gap) .none rest
  | '\'' :: rest => some { text := String.ofList (fold done gap).reverse, oneLine, rest }
  | '\n' :: rest => single? false done gap.break rest
  | c :: rest =>
    if isBlank c then single? oneLine done (gap.blank c) rest
    else single? oneLine (c :: fold done gap) .none rest

/-- The characters that stand for one letter after a backslash. -/
def escapes : List (Char × Nat) :=
  [('0', 0), ('a', 7), ('b', 8), ('t', 9), ('\t', 9), ('n', 10), ('v', 11), ('f', 12), ('r', 13),
   ('e', 27), (' ', 32), ('"', 34), ('/', 47), ('\\', 92), ('N', 0x85), ('_', 0xA0),
   ('L', 0x2028), ('P', 0x2029)]

/-- The number of hexadecimal digits that some letters ask for after a backslash. -/
def hexLengths : List (Char × Nat) := [('x', 2), ('u', 4), ('U', 8)]

/-- The character of an escape, and what follows it. -/
def escape? (letter : Char) (rest : List Char) : Option (Char × List Char) :=
  match escapes.find? (·.1 = letter) with
  | some (_, code) => some (Char.ofNat code, rest)
  | none => do
    let (_, length) ← hexLengths.find? (·.1 = letter)
    if rest.length < length then none
    else
      let code ← Plain.ofDigits? 16 (rest.take length)
      if code < 0xD800 ∨ (0xE000 ≤ code ∧ code < 0x110000) then
        some (Char.ofNat code, rest.drop length)
      else none

/-- The rest of a scalar in double quotes, after the first quote. -/
def double? : Nat → Bool → List Char → Gap → List Char → Option Quoted
  | 0, _, _, _, _ => none
  | fuel + 1, oneLine, done, gap, chars =>
    match chars with
    | [] => none
    | '"' :: rest => some { text := String.ofList (fold done gap).reverse, oneLine, rest }
    | '\\' :: '\n' :: rest => double? fuel false (fold done gap) (.breaks 0) rest
    | '\\' :: letter :: rest => do
      let (c, rest) ← escape? letter rest
      double? fuel oneLine (c :: fold done gap) .none rest
    | '\n' :: rest => double? fuel false done gap.break rest
    | c :: rest =>
      if isBlank c then double? fuel oneLine done (gap.blank c) rest
      else double? fuel oneLine (c :: fold done gap) .none rest

/-- A quoted scalar, if one begins here. -/
def quoted? : List Char → Option Quoted
  | '\'' :: rest => single? true [] .none rest
  | '"' :: rest => double? (rest.length + 1) true [] .none rest
  | _ => none

/-! ## Plain scalars -/

/-- Whether a plain scalar may begin here. -/
def startsPlain (flow : Bool) : List Char → Bool
  | [] => false
  | c :: rest =>
    if c = '-' || c = '?' || c = ':' then
      !atSeparator rest && !(flow && (rest.head?.map isFlowMark).getD false)
    else
      !(isBlank c || c = '\n' || isFlowMark c || c = '#' || c = '&' || c = '*' || c = '!'
        || c = '|' || c = '>' || c = '\'' || c = '"' || c = '%' || c = '@' || c.toNat = 96)

/-- The part of a plain scalar that stands on one line, in reverse, and what follows it. It ends
    before a colon that separates, before a comment, and in a flow collection before its marks. -/
def plainLine (flow : Bool) (done blanks : List Char) : List Char → List Char × List Char
  | [] => (done, [])
  | c :: rest =>
    if c = '\n' then (done, c :: rest)
    else if isBlank c then plainLine flow done (c :: blanks) rest
    else if c = '#' && !blanks.isEmpty then (done, c :: rest)
    else if c = ':' && (atSeparator rest || (flow && (rest.head?.map isFlowMark).getD false)) then
      (done, c :: rest)
    else if flow && isFlowMark c then (done, c :: rest)
    else plainLine flow (c :: (blanks ++ done)) [] rest

/-- Counts line breaks up to the next line that is not empty: how many, that line's indentation,
    and the line. -/
def nextLine (breaks column : Nat) : List Char → Nat × Nat × List Char
  | '\n' :: rest => nextLine (breaks + 1) 0 rest
  | ' ' :: rest => nextLine breaks (column + 1) rest
  | '\t' :: rest => nextLine breaks (column + 1) rest
  | rest => (breaks, column, rest)

/-- Whether a line is the mark between documents, or the mark after one. -/
def isMarker (mark : Char) (column : Nat) : List Char → Bool
  | a :: b :: c :: rest => column = 0 && a = mark && b = mark && c = mark && atSeparator rest
  | _ => false

/-- The further lines of a plain scalar: those that are indented by more than `indent`, or any in a
    flow collection. The text is kept in reverse. -/
def plainLines (flow : Bool) (indent : Int) : Nat → List Char → List Char → List Char × List Char
  | 0, done, chars => (done, chars)
  | fuel + 1, done, chars =>
    match chars with
    | '\n' :: _ =>
      let (breaks, column, line) := nextLine 0 0 chars
      match line with
      | [] => (done, chars)
      | c :: rest =>
        if (!flow && (column : Int) ≤ indent) || c = '#' || isMarker '-' column line
            || isMarker '.' column line || (flow && isFlowMark c)
            || (c = ':' && (flow || atSeparator rest)) then (done, chars)
        else
          let (part, rest) := plainLine flow [] [] line
          plainLines flow indent fuel (part ++ fold done (.breaks breaks)) rest
    | _ => (done, chars)

end Realm.Yaml
