import Stencil.Files.Tree
import Stencil.Partials.Loader

/-!
# Partials in a directory

The partial of a name is the file in the directory whose path is the name with a suffix. Names come
from templates, so they may try to leave the directory, by two dots or by starting at the root. The
path is resolved first, and only a place whose components start with those of the directory counts
as inside; comparing the written paths would take `parts2` for a place inside `parts`.
-/

set_option autoImplicit false

namespace Stencil

open Files

structure PartialDirectory where
  /-- The components of the directory's place. -/
  place : List String
  suffix : String
deriving Repr

namespace PartialDirectory

/-- The partials in the directory that a path leads to. -/
def ofPath (tree : Tree) (path : Path) (suffix : String) : Except FileError PartialDirectory :=
  if path.hasNull then .error .embeddedNull else .ok ⟨path.resolve tree.working, suffix⟩

def path (directory : PartialDirectory) : Path := .ofPlace directory.place

def pathOf (directory : PartialDirectory) (name : String) : Path :=
  directory.path.join (.ofText (name ++ directory.suffix))

def contains (directory : PartialDirectory) (place : List String) : Bool :=
  directory.place.isPrefixOf place

def loader (directory : PartialDirectory) (tree : Tree) : Loader FileError := fun name =>
  if name.isEmpty then ([], .ok none)
  else
    let path := directory.pathOf name
    if path.hasNull then ([], .error .embeddedNull)
    else
      let place := path.resolve []
      let target := Path.ofPlace place
      if !directory.contains place then
        ([.partialOutside name directory.path.text], .ok none)
      else
        match tree.isFile target with
        | .error error => ([], .error error)
        | .ok false => ([.partialNotFile name target.text], .ok none)
        | .ok true => ([], tree.readText target)

end PartialDirectory

end Stencil
