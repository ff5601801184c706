import Stencil.Text.Blank

/-!
# Paths

A path is a list of components, from a root or from wherever it is used. Writing a path drops
nothing but empty components and components that are a single dot; two dots stay, since what they
mean depends on where the path leads. `resolve` takes them away, for a tree without links: each
takes the component before it along, and at the root there is nothing to take.

Exactly two slashes at the start of a path are kept apart from one, as the standard for such paths
allows; resolving makes no difference between them.
-/

set_option autoImplicit false

namespace Stencil.Files

/-- What a path starts from. -/
inductive Anchor
  | here
  | root
  | doubleRoot
deriving DecidableEq, Repr

structure Path where
  anchor : Anchor := .here
  components : List String := []
deriving DecidableEq, Repr

namespace Path

def anchorOf : List Char → Anchor
  | '/' :: '/' :: '/' :: _ => .root
  | '/' :: '/' :: _ => .doubleRoot
  | '/' :: _ => .root
  | _ => .here

/-- The components of a written path that mean something. -/
def componentsOf (text : List Char) : List String :=
  let parts := Text.split (· == '/') text
  ((parts.1 :: parts.2).filter fun part => !part.isEmpty && part != ['.']).map String.ofList

def ofText (text : String) : Path := ⟨anchorOf text.toList, componentsOf text.toList⟩

def isAbsolute (path : Path) : Bool := path.anchor != .here

def text (path : Path) : String :=
  let names := "/".intercalate path.components
  match path.anchor with
  | .here => if path.components.isEmpty then "." else names
  | .root => "/" ++ names
  | .doubleRoot => "//" ++ names

/-- A path from another one on; an absolute path leads to the same place from everywhere. -/
def join (path next : Path) : Path :=
  if next.isAbsolute then next else { path with components := path.components ++ next.components }

def parent (path : Path) : Path := { path with components := path.components.dropLast }

/-- Goes on from a place, given by its components in reverse. -/
def resolveFrom (place : List String) : List String → List String
  | [] => place.reverse
  | name :: rest => resolveFrom (if name = ".." then place.tail else name :: place) rest

/-- The components of the place that a path leads to, seen from a working directory. -/
def resolve (working : List String) (path : Path) : List String :=
  if path.isAbsolute then resolveFrom [] path.components
  else resolveFrom [] (working ++ path.components)

/-- The path from the root to a place. -/
def ofPlace (place : List String) : Path := ⟨.root, place⟩

/-- Whether a component holds a character that no file name can hold. -/
def hasNull (path : Path) : Bool := path.components.any fun name => name.toList.contains '\x00'

end Path

end Stencil.Files
