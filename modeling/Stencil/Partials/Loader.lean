import Stencil.Notice

/-!
# Loaders of partials

A loader answers a name with the source of a partial, or says that there is none; it can also fail,
and it can have something to report in any case.
-/

set_option autoImplicit false

namespace Stencil

abbrev Loader (ε : Type) := String → List Notice × Except ε (Option String)

namespace Loader

variable {ε : Type}

def ofList (partials : List (String × String)) : Loader ε := fun name =>
  ([], .ok (partials.lookup name))

def empty : Loader ε := ofList []

end Loader

end Stencil
