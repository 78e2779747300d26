import Realm.Document
import Realm.Yaml.Scalar

/-!
# Reading YAML

A reader of configuration files: block and flow collections, plain and quoted scalars, comments,
and the marks around a document. Anchors, tags, block scalars and keys that are collections have no
use in a configuration and are refused.

In block collections the column of a line decides what it belongs to. A mapping owns the lines that
begin in its column, a sequence those that begin there with a dash, and a node ends before the
first line that is not indented further than what it belongs to. A sequence that is the value of a
key may stand in the key's own column.

All readers run on one count, which starts above the length of the text and goes down with every
call; each call takes a character or hands over to one that does.
-/

set_option autoImplicit false

namespace Realm.Yaml

/-- What is left of a text, and the column it begins in. -/
structure Cursor where
  rest : List Char
  column : Nat

/-- Skips blanks, comments and line breaks, and says whether a line break was among them. A
    tabulator does not indent. -/
def skip (flow comment crossed : Bool) (column : Nat) : List Char → Bool × Cursor
  | [] => (crossed, { rest := [], column })
  | c :: rest =>
    if c = '\n' then skip flow false true 0 rest
    else if comment then skip flow true crossed (column + 1) rest
    else if c = ' ' then skip flow false crossed (column + 1) rest
    else if c = '\t' && (flow || !crossed) then skip flow false crossed (column + 1) rest
    else if c = '#' then skip flow true crossed (column + 1) rest
    else (crossed, { rest := c :: rest, column })

/-- The next thing after a node. -/
def Cursor.next (cursor : Cursor) (flow : Bool) : Bool × Cursor :=
  skip flow false false cursor.column cursor.rest

/-- Whether nothing of the document is left. -/
def Cursor.atEnd (cursor : Cursor) : Bool :=
  cursor.rest.isEmpty || isMarker '-' cursor.column cursor.rest
    || isMarker '.' cursor.column cursor.rest

/-- Whether an item of a sequence begins here. -/
def Cursor.atDash (cursor : Cursor) : Bool :=
  match cursor.rest with
  | '-' :: rest => atSeparator rest
  | _ => false

/-- What follows the colon of a key, if one is here. -/
def afterColon? : List Char → Option (List Char)
  | ':' :: rest => if atSeparator rest then some rest else none
  | ' ' :: rest => afterColon? rest
  | _ => none

/-- A key on one line with its colon, and what follows. -/
def key? (chars : List Char) : Option (String × List Char) :=
  match quoted? chars with
  | some quoted =>
    if quoted.oneLine then (afterColon? quoted.rest).map fun rest => (quoted.text, rest) else none
  | none =>
    if startsPlain false chars then
      let (text, rest) := plainLine false [] [] chars
      (afterColon? rest).map fun rest => (String.ofList text.reverse, rest)
    else none

/-- Where a node stands: where a block collection may begin, or behind a key. -/
inductive Place where
  | own
  | behindKey
  deriving DecidableEq

variable {α : Type}

/-- The absent value. -/
def absent : Document α := .plain ""

mutual

/-- A node of a flow collection, beginning here. -/
def flowNode? : Nat → List Char → Option (Document α × List Char)
  | 0, _ => none
  | fuel + 1, chars =>
    match chars with
    | '[' :: rest => flowItems? fuel [] rest
    | '\x7b' :: rest => flowFields? fuel [] rest
    | _ =>
      match quoted? chars with
      | some quoted => some (.text quoted.text, quoted.rest)
      | none =>
        if startsPlain true chars then
          let (first, rest) := plainLine true [] [] chars
          let (text, rest) := plainLines true 0 fuel first rest
          some (.plain (String.ofList text.reverse), rest)
        else none

/-- The value of a flow key, after its colon: it is absent before a mark. -/
def flowValue? : Nat → List Char → Option (Document α × List Char)
  | 0, _ => none
  | fuel + 1, chars =>
    let rest := (skip true false false 0 chars).2.rest
    match rest with
    | c :: _ =>
      if c = ',' || c = ']' || c = '\x7d' then some (absent, rest) else flowNode? fuel rest
    | [] => none

/-- The items of a flow sequence, after its first bracket. An item may be a single pair. -/
def flowItems? : Nat → List (Document α) → List Char → Option (Document α × List Char)
  | 0, _, _ => none
  | fuel + 1, done, chars =>
    let rest := (skip true false false 0 chars).2.rest
    match rest with
    | ']' :: rest => some (.list false done.reverse, rest)
    | _ => do
      let (item, rest) ← flowNode? fuel rest
      let (item, rest) ← match (skip true false false 0 rest).2.rest with
        | ':' :: rest => do
          let name ← item.text?
          let (value, rest) ← flowValue? fuel rest
          some (Document.record [(name, value)], rest)
        | rest => some (item, rest)
      match (skip true false false 0 rest).2.rest with
      | ',' :: rest => flowItems? fuel (item :: done) rest
      | ']' :: rest => some (.list false (item :: done).reverse, rest)
      | _ => none

/-- The fields of a flow mapping, after its first brace. -/
def flowFields? : Nat → List (String × Document α) → List Char → Option (Document α × List Char)
  | 0, _, _ => none
  | fuel + 1, done, chars =>
    let rest := (skip true false false 0 chars).2.rest
    match rest with
    | '\x7d' :: rest => some (.record done.reverse, rest)
    | _ => do
      let (key, rest) ← flowNode? fuel rest
      let name ← key.text?
      let (value, rest) ← match (skip true false false 0 rest).2.rest with
        | ':' :: rest => flowValue? fuel rest
        | rest => some (absent, rest)
      match (skip true false false 0 rest).2.rest with
      | ',' :: rest => flowFields? fuel ((name, value) :: done) rest
      | '\x7d' :: rest => some (.record ((name, value) :: done).reverse, rest)
      | _ => none

end

mutual

/-- A node that belongs to something in column `indent` and begins here. -/
def node? : Nat → Place → Int → Cursor → Option (Document α × Cursor)
  | 0, _, _, _ => none
  | fuel + 1, place, indent, cursor =>
    match place, key? cursor.rest with
    | .own, some (name, rest) =>
      mapping? fuel cursor.column [] name { rest, column := cursor.column + 1 }
    | _, _ =>
      if cursor.atDash then
        if place = .own then sequence? fuel cursor.column [] cursor else none
      else
        match cursor.rest with
        | '[' :: _ | '\x7b' :: _ => do
          let (node, rest) ← flowNode? fuel cursor.rest
          return (node, { rest, column := cursor.column + 1 })
        | _ =>
          match quoted? cursor.rest with
          | some quoted =>
            some (.text quoted.text, { rest := quoted.rest, column := cursor.column + 1 })
          | none =>
            if startsPlain false cursor.rest then
              let (first, rest) := plainLine false [] [] cursor.rest
              let (text, rest) := plainLines false indent fuel first rest
              some (.plain (String.ofList text.reverse), { rest, column := cursor.column + 1 })
            else none

/-- A mapping in a column, after the colon of a key. -/
def mapping? : Nat → Nat → List (String × Document α) → String → Cursor →
    Option (Document α × Cursor)
  | 0, _, _, _, _ => none
  | fuel + 1, column, done, name, cursor => do
    let (crossed, start) := cursor.next false
    let (value, stop) ←
      if !crossed && !start.rest.isEmpty then node? fuel .behindKey column start
      else if !start.atEnd && (column < start.column || (start.column = column && start.atDash)) then
        if start.column = column then sequence? fuel column [] start
        else node? fuel .own column start
      else some (absent, cursor)
    let (crossed, next) := stop.next false
    if next.rest.isEmpty || (crossed && (next.atEnd || next.column < column)) then
      return (.record ((name, value) :: done).reverse, stop)
    else if crossed && next.column = column then
      let (other, rest) ← key? next.rest
      mapping? fuel column ((name, value) :: done) other { rest, column := column + 1 }
    else none

/-- A sequence in a column, at the dash of an item. -/
def sequence? : Nat → Nat → List (Document α) → Cursor → Option (Document α × Cursor)
  | 0, _, _, _ => none
  | fuel + 1, column, done, cursor => do
    let behind : Cursor := { rest := cursor.rest.drop 1, column := column + 1 }
    let (crossed, start) := behind.next false
    let (item, stop) ←
      if !start.rest.isEmpty && (!crossed || (!start.atEnd && column < start.column)) then
        node? fuel .own column start
      else some (absent, behind)
    let (crossed, next) := stop.next false
    if next.rest.isEmpty || (crossed && (next.atEnd || next.column < column)) then
      return (.list false (item :: done).reverse, stop)
    else if crossed && next.column = column then
      if next.atDash then sequence? fuel column (item :: done) next
      else return (.list false (item :: done).reverse, stop)
    else none

end

/-- A document after its first mark, if it has one. -/
def body? (fuel : Nat) (cursor : Cursor) (place : Place) : Option (Document α × Cursor) :=
  if cursor.atEnd then some (absent, cursor) else node? fuel place (-1) cursor

/-- Whether nothing but blanks and comments follows a document, maybe after the mark of its end. -/
def endsHere (cursor : Cursor) : Bool :=
  let (crossed, next) := cursor.next false
  if next.rest.isEmpty then true
  else if (crossed || next.column = 0) && isMarker '.' next.column next.rest then
    (skip false false false 3 (next.rest.drop 3)).2.rest.isEmpty
  else false

/-- Line breaks of all kinds as one character. -/
def unifyBreaks : List Char → List Char
  | [] => []
  | '\r' :: '\n' :: rest => '\n' :: unifyBreaks rest
  | '\r' :: rest => '\n' :: unifyBreaks rest
  | c :: rest => c :: unifyBreaks rest

end Realm.Yaml

namespace Realm.Document

/-- Reads a YAML text that has one document. A text without a document is the absent value. -/
def ofYamlText? {α : Type} (text : String) : Option (Document α) := do
  let chars := Yaml.unifyBreaks text.toList
  let chars := match chars with
    | c :: rest => if c.toNat = 0xFEFF then rest else c :: rest
    | [] => []
  let fuel := 4 * chars.length + 8
  let start := (Yaml.skip false false true 0 chars).2
  let (document, stop) ←
    if Yaml.isMarker '-' start.column start.rest then
      let (crossed, start) := Yaml.skip false false false 3 (start.rest.drop 3)
      Yaml.body? fuel start (if crossed then .own else .behindKey)
    else Yaml.body? fuel start .own
  if Yaml.endsHere stop then some document else none

end Realm.Document
