import Stencil.Data.Literal

/-!
# The order of the members of a set

A set has no order of its own, but its members are written one after another. They are kept in a
table, at least twice as large as there are members, and written in the order of their places. A
member is put where its hash asks for, or at one of the places after that, or else further away where
more of the hash asks for, whichever is free first.

Numbers are hashed by what they denote, so that equal numbers of different kinds have one hash,
tuples are hashed by their items, and the empty text has the hash zero. Nothing is known of the hashes
of other members: a set that has one of them is written in the order in which it was made.
-/

set_option autoImplicit false

namespace Stencil

/-! ## Hashes -/

/-- The prime number modulo which numbers are hashed. -/
def hashModulus : Nat := Nat.pow 2 61 - 1

/-- The hash of a number with a sign. It is never minus one. -/
def signedHash (negative : Bool) (size : Nat) : UInt64 :=
  if !negative then size.toUInt64 else if size = 1 then -2 else -size.toUInt64

/-- The hash of a scalar, if it is known. Two to the power of 61 is one modulo the prime. -/
def Scalar.hash? : Scalar → Option UInt64
  | .bool value => some (signedHash false (if value then 1 else 0))
  | .int value => some (signedHash (value < 0) (value.natAbs % hashModulus))
  | .float (.infinite negative) => some (signedHash negative 314159)
  | .float (.finite negative mantissa exponent) =>
    some (signedHash negative (mantissa * Nat.pow 2 (exponent % 61).toNat % hashModulus))
  | .text "" => some 0
  | _ => none

/-- The hash of a tuple, of the hashes of its items. -/
def tupleHash (items : List UInt64) : UInt64 :=
  let start : UInt64 := 2870177450012600261
  let mix (mixed item : UInt64) : UInt64 :=
    let sum := mixed + item * 14029467366897019727
    ((sum <<< 31) ||| (sum >>> 33)) * 11400714785074694791
  let result := items.foldl mix start + (items.length.toUInt64 ^^^ start ^^^ 3527539)
  if result = -1 then 1546275796 else result

namespace Literal

mutual

/-- The hash of a literal, if it is known. -/
def hash? : Literal → Option UInt64
  | .scalar value => value.hash?
  | .tuple items => (hashAll? items).map tupleHash
  | _ => none

def hashAll? : List Literal → Option (List UInt64)
  | [] => some []
  | item :: rest => do return (← item.hash?) :: (← hashAll? rest)

end

/-! ## Places -/

/-- The size of the table for a number of members, a power of two. -/
def tableSize (count : Nat) : Nat := if count < 5 then 8 else Nat.pow 2 (Nat.log2 (2 * count) + 1)

/-- A place that is free, from one on. Ten places in a row are tried, unless the table ends before
them, and then the next place follows from this one and the rest of the hash. When nothing is left of
the hash the places follow in a cycle of all there are. -/
def freePlace {α : Type} (table : Array (Option α)) : Nat → Nat → Nat → Nat
  | 0, place, _ => place
  | fuel + 1, place, hash =>
    let run := if place + 10 ≤ table.size then 10 else 1
    match (List.range run).find? fun step => (table.getD (place + step) none).isNone with
    | some step => place + step
    | none =>
      let hash := hash / 32
      freePlace table fuel ((5 * place + 1 + hash) % table.size) hash

/-- A table with one more member. Nothing is left of a hash after thirteen turns. -/
def enter {α : Type} (table : Array (Option α)) (member : α) (hash : Nat) : Array (Option α) :=
  let place := freePlace table (table.size + 13) (hash % table.size) hash
  table.setIfInBounds place (some member)

/-- The members of a set in the order in which they are written. -/
def inWrittenOrder (members : List Literal) : List Literal :=
  match hashAll? members with
  | none => members
  | some hashes =>
    let empty := Array.replicate (tableSize members.length) none
    let table := (members.zip hashes).foldl (fun table entry =>
      enter table entry.1 entry.2.toNat) empty
    table.toList.filterMap id

end Literal

end Stencil
