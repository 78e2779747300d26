import Realm.Decimal

/-!
# Amounts

The numbers that resources hold. The rules of the realm never look inside a number: they add,
subtract, scale, round, compare and clamp. `Amount` names exactly those operations, and everything
above this module is written for any type that has them. A game runs on `Binary64`; the laws that
concern the book-keeping rather than the arithmetic are stated for every `Amount`, and those that
need exact arithmetic at the whole numbers.

Three of the operations deserve a word. `order` is total — it also places the values that are no
numbers — while `≤` and `<` are the partial comparisons that no undefined value satisfies.
`noticeable` tells a change worth recording from one below the resolution of the arithmetic.
`toDecimal` and `ofDecimal` tie a number to its written form.
-/

set_option autoImplicit false

namespace Realm

/-- What the rules need of a number. -/
class Amount (α : Type) extends Zero α, Add α, Sub α, Mul α, Div α, Neg α, LE α, LT α, Min α, Max α where
  decEq : DecidableEq α
  decLe : DecidableLE α
  decLt : DecidableLT α
  /-- The nearest amount to a whole number. -/
  ofInt : Int → α
  /-- The nearest amount to `± digits · 10^exponent`. -/
  ofDecimal : Bool → Nat → Int → α
  /-- The fewest digits that read back as the amount. -/
  toDecimal : α → Decimal
  /-- The greatest whole amount that is not above. -/
  floor : α → α
  /-- The least whole amount that is not below. -/
  ceil : α → α
  /-- Neither infinite nor undefined. -/
  isFinite : α → Bool
  /-- The total order; both zeros are equal, and an undefined value is above all others. -/
  order : α → α → Ordering
  /-- Large enough a change to be recorded. -/
  noticeable : α → Bool

attribute [reducible, instance] Amount.decEq Amount.decLe Amount.decLt

namespace Amount

variable {α : Type} [Amount α]

/-- One hundred, for percentages. -/
def hundred : α := ofInt 100

/-- One half. -/
def half : α := ofDecimal false 5 (-1)

/-- One. -/
def one : α := ofInt 1

/-- A count as an amount. -/
def ofCount (n : Nat) : α := ofInt n

/-- The sum of a list, from the left. It starts at minus zero, the one start that changes no
    summand, so the sum of nothing is minus zero. -/
def sum (amounts : List α) : α := amounts.foldl (· + ·) (-0)

/-- An amount in running text. -/
def text (amount : α) : String := (toDecimal amount).write .prose

/-- An amount as the field of a printed record. -/
def fieldText (amount : α) : String := (toDecimal amount).write .field

end Amount

/-! ## Rounding to whole amounts -/

/-- How a fractional amount becomes whole. -/
inductive Rounding where
  /-- Away from zero. -/
  | up
  /-- Towards zero. -/
  | down
  /-- To the nearest whole amount; a half goes to the greater one, for negative amounts too. -/
  | nearest
  deriving DecidableEq

namespace Rounding

/-- The rule that applies where none is named. -/
def standard : Rounding := .nearest

/-- Rounds an amount. -/
def round {α : Type} [Amount α] (mode : Rounding) (amount : α) : α :=
  match mode with
  | .up => if 0 ≤ amount then Amount.ceil amount else Amount.floor amount
  | .down => if 0 ≤ amount then Amount.floor amount else Amount.ceil amount
  | .nearest =>
    let below := Amount.floor amount
    if Amount.half ≤ amount - below then below + Amount.one else below

end Rounding

end Realm
