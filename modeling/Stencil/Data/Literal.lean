import Stencil.Number.Numeral
import Stencil.Number.Shortest

/-!
# Scalars and literals

A scalar is a datum with nothing inside it. Besides the usual kinds there is the foreign scalar,
of which only the written form is known; dates, times and bytes are such.

A literal is finite data written out in full. The keys of a mapping are literals: any scalar, or a
tuple of keys. Two keys are the same when they are equal as data, where numbers of different kinds
are compared by what they denote and truth values count as zero and one.

Everything has a written form but whole numbers of very many digits and what holds one of these.
-/

set_option autoImplicit false

namespace Stencil

/-- A scalar that is only known by what it is, how it is written by itself, and how it is written
inside other data. -/
structure Foreign where
  sort : String
  text : String
  quoted : String
  /-- Two foreign scalars of one sort are equal if this is. -/
  identity : String
  /-- Whether it counts as true where only truth matters. -/
  holds : Bool := true
deriving DecidableEq, Repr

inductive Scalar
  | null
  | bool (value : Bool)
  | int (value : Int)
  | float (value : Double)
  | text (value : String)
  | foreign (value : Foreign)
deriving DecidableEq, Repr

namespace Scalar

/-- A scalar as it is written by itself. -/
def written : Scalar → Except NumeralError String
  | .null => .ok "None"
  | .bool true => .ok "True"
  | .bool false => .ok "False"
  | .int value => writeInteger value
  | .float value => .ok value.text
  | .text value => .ok value
  | .foreign value => .ok value.text

/-- A scalar as it is written inside other data. -/
def quoted : Scalar → Except NumeralError String
  | .text value => .ok (Text.quoted value)
  | .foreign value => .ok value.quoted
  | scalar => scalar.written

/-- Whether a scalar counts as true where only truth matters. -/
def holds : Scalar → Bool
  | .null => false
  | .bool value => value
  | .int value => value != 0
  | .float value => !value.isZero
  | .text value => !value.isEmpty
  | .foreign value => value.holds

/-- The whole number that a scalar denotes, if it denotes one. -/
def toInt? : Scalar → Option Int
  | .bool value => some (if value then 1 else 0)
  | .int value => some value
  | .float value => value.toInt?
  | _ => none

/-- Whether two scalars are the same key, where two values that are no number count as the same iff
`nanSame` says so. -/
def sameBy (nanSame : Bool) (a b : Scalar) : Bool :=
  match a.toInt?, b.toInt? with
  | some m, some n => m == n
  | none, none =>
    match a, b with
    | .float .notANumber, .float .notANumber => nanSame
    | .foreign x, .foreign y => x.sort == y.sort && x.identity == y.identity
    | _, _ => a == b
  | _, _ => false

/-- Whether two scalars are the same key. What is no number is not even the same as itself. -/
def same : Scalar → Scalar → Bool := sameBy false

end Scalar

inductive Literal
  | scalar (value : Scalar)
  | tuple (items : List Literal)
  | list (items : List Literal)
  | mapping (entries : List (Literal × Literal))
deriving Repr

instance : Inhabited Literal := ⟨.scalar .null⟩

namespace Literal

def text (value : String) : Literal := .scalar (.text value)

/-- The text that a literal is, if it is one. -/
def text? : Literal → Option String
  | .scalar (.text value) => some value
  | _ => none

def bracket (opening closing : String) (items : List String) : String :=
  opening ++ ", ".intercalate items ++ closing

/-- A tuple of one item keeps a comma, so that it is not taken for an item in brackets. -/
def tupleText : List String → String
  | [item] => "(" ++ item ++ ",)"
  | items => bracket "(" ")" items

/-- Items as a set of them is written. -/
def setText : List String → String
  | [] => "set()"
  | items => bracket "\x7b" "\x7d" items

mutual

/-- A literal as it is written inside other data. -/
def quoted : Literal → Except NumeralError String
  | .scalar value => value.quoted
  | .tuple items => return tupleText (← quotedAll items)
  | .list items => return bracket "[" "]" (← quotedAll items)
  | .mapping entries => return bracket "\x7b" "\x7d" (← quotedEntries entries)

def quotedAll : List Literal → Except NumeralError (List String)
  | [] => return []
  | item :: rest => return (← item.quoted) :: (← quotedAll rest)

def quotedEntries : List (Literal × Literal) → Except NumeralError (List String)
  | [] => return []
  | (key, value) :: rest =>
    return ((← key.quoted) ++ ": " ++ (← value.quoted)) :: (← quotedEntries rest)

end

/-- A literal as it is written by itself. -/
def written : Literal → Except NumeralError String
  | .scalar value => value.written
  | literal => literal.quoted

mutual

/-- Whether two literals are the same key, where two values that are no number count as the same iff
`nanSame` says so. -/
def sameBy (nanSame : Bool) : Literal → Literal → Bool
  | .scalar a, .scalar b => a.sameBy nanSame b
  | .tuple as, .tuple bs => sameAllBy nanSame as bs
  | _, _ => false

def sameAllBy (nanSame : Bool) : List Literal → List Literal → Bool
  | [], [] => true
  | a :: as, b :: bs => a.sameBy nanSame b && sameAllBy nanSame as bs
  | _, _ => false

end

def same : Literal → Literal → Bool := sameBy false

end Literal

end Stencil
