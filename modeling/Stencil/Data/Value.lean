import Stencil.Data.Graph

/-!
# Values of a template

What a template sees of a datum is a value of one of four kinds: text, list, truth value or object.
Wrapping a datum looks at one container only; items and fields are wrapped when they are reached.

The names of fields are texts. An entry whose key is exactly that text comes first; failing that,
a key of another kind answers to the name that it is written as. The attributes of a record that
start with an underscore are its own affair and are not fields. The items of a list answer to their
positions, counted from zero, in the decimal digits of any script.

A number too long to be written has no value, and a name that can only be compared with the text of
such a number cannot be looked up.
-/

set_option autoImplicit false

namespace Stencil

inductive ValueKind
  | text
  | list
  | bool
  | object
deriving DecidableEq, Repr

def ValueKind.word : ValueKind → String
  | .text => "text"
  | .list => "list"
  | .bool => "bool"
  | .object => "object"

/-- Where the fields of an object are kept. -/
inductive Fields (ν : Type)
  | mapping (entries : List (Literal × Datum ν))
  | record (attributes : List (String × Datum ν))
deriving Repr

inductive Value (ν : Type)
  | text (content : String)
  | bool (flag : Bool)
  | list (items : List (Datum ν))
  | object (fields : Fields ν)
deriving Repr

/-- Whether an attribute of this name is hidden from templates. -/
def isHidden (name : String) : Bool := name.toList.head? == some '_'

/-- The first entry whose key is no text but is written as a name. -/
def findWritten {ν : Type} (name : String) :
    List (Literal × Datum ν) → Except NumeralError (Option (Datum ν))
  | [] => .ok none
  | (key, value) :: rest =>
    if key.text?.isSome then findWritten name rest
    else do
      if (← key.written) == name then return some value
      findWritten name rest

/-- The datum of a field, if there is a field of this name. -/
def Fields.get? {ν : Type} (fields : Fields ν) (name : String) :
    Except NumeralError (Option (Datum ν)) :=
  match fields with
  | .mapping entries =>
    match entries.find? (fun entry => entry.1.text? == some name) with
    | some entry => .ok (some entry.2)
    | none => findWritten name entries
  | .record attributes => .ok (if isHidden name then none else attributes.lookup name)

namespace Value

variable {ν : Type}

/-- What a template sees of a container. A record without an attribute that shows is its text. -/
def ofCell : Cell ν → Except NumeralError (Value ν)
  | .list items => .ok (.list items)
  | .mapping entries _ => .ok (.object (.mapping entries))
  | .set members => (Literal.quotedAll members).map fun texts => .text (Literal.setText texts)
  | .record attributes written =>
    if attributes.any (fun named => !isHidden named.1) then
      .ok (.object (.record attributes))
    else .ok (.text written)

/-- What a template sees of a scalar. -/
def ofScalar : Scalar → Except NumeralError (Value ν)
  | .null => .ok (.bool false)
  | .bool flag => .ok (.bool flag)
  | scalar => scalar.written.map .text

/-- What a template sees of a datum. -/
def wrap (graph : Graph ν) : Datum ν → Except NumeralError (Value ν)
  | .scalar value => ofScalar value
  | .container reference => ofCell (graph reference)

def kind : Value ν → ValueKind
  | .text _ => .text
  | .bool _ => .bool
  | .list _ => .list
  | .object _ => .object

/-- What stands for a value in the output. Lists and objects leave no trace there. -/
def asText : Value ν → String
  | .text content => content
  | .bool flag => if flag then "true" else "false"
  | .list _ => ""
  | .object _ => ""

/-- Whether a section is rendered for a value. Empty texts and empty lists are not true, but every
object is. -/
def isTruthy : Value ν → Bool
  | .text content => !content.isEmpty
  | .bool flag => flag
  | .list items => !items.isEmpty
  | .object _ => true

/-- The items of a list; other values have none. -/
def items (graph : Graph ν) : Value ν → Except NumeralError (List (Value ν))
  | .list items => items.mapM (wrap graph)
  | _ => .ok []

/-- Whether a name is taken for a position in a list. -/
def isPosition (name : String) : Bool := !name.isEmpty && name.toList.all Text.isDigit

/-- The value of a datum, if there is a datum. -/
def wrapFound (graph : Graph ν) : Option (Datum ν) → Except NumeralError (Option (Value ν))
  | some datum => (wrap graph datum).map some
  | none => .ok none

/-- The field of an object or the item of a list that a name leads to. A name that is taken for a
position can fail to denote one. -/
def field (graph : Graph ν) (value : Value ν) (name : String) :
    Except NumeralError (Option (Value ν)) :=
  match value with
  | .object fields =>
    match fields.get? name with
    | .ok found => wrapFound graph found
    | .error error => .error error
  | .list items =>
    if isPosition name then
      match readIndex name with
      | .ok index => wrapFound graph items[index]?
      | .error error => .error error
    else .ok none
  | _ => .ok none

/-- The value that a path of names leads to. -/
def follow (graph : Graph ν) (value : Value ν) :
    List String → Except NumeralError (Option (Value ν))
  | [] => .ok (some value)
  | name :: rest =>
    match value.field graph name with
    | .ok (some next) => next.follow graph rest
    | .ok none => .ok none
    | .error error => .error error

end Value

end Stencil
