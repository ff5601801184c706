import Stencil.Files.Path
import Stencil.Proofs.Files.Access
import Stencil.Proofs.Text.Words

/-!
# Where a written path leads

A written path is read part by part, from one slash to the next, and each part moves the place that one
is at: nothing and a single dot stay there, two dots go up, which at the root is no move, and any other
part is a name and goes down. A path that starts with a slash starts at the root. That is all there is
to `destination`, and joining and resolving paths comes to the same (`resolve_join`).

A step up is taken at once, so no destination has one left in it, and it has no names but those of the
place it was left from and those that were written.
-/

set_option autoImplicit false

namespace Stencil.Files

/-- What is written between the slashes. -/
def slashed (text : String) : List String :=
  let parts := Text.split (· == '/') text.toList
  (parts.1 :: parts.2).map String.ofList

/-- Where one part of a written path leads from a place. -/
def advance (place : List String) (part : String) : List String :=
  if part = "" ∨ part = "." then place
  else if part = ".." then place.dropLast
  else place ++ [part]

/-- Where a written path leads from a place. -/
def destination (place : List String) (text : String) : List String :=
  (slashed text).foldl advance (if text.toList.head? = some '/' then [] else place)

theorem mem_of_mem_advance {place : List String} {part name : String} (h : name ∈ advance place part) :
    name ∈ place ∨ name = part ∧ name ≠ ".." := by
  unfold advance at h
  split at h
  · exact .inl h
  · split at h
    · exact .inl (List.dropLast_subset place h)
    · next hup =>
      rcases List.mem_append.1 h with hm | hm
      · exact .inl hm
      · obtain rfl := List.mem_singleton.1 hm
        exact .inr ⟨rfl, hup⟩

theorem mem_of_mem_foldl_advance {place parts : List String} {name : String}
    (h : name ∈ parts.foldl advance place) : name ∈ place ∨ name ∈ parts ∧ name ≠ ".." := by
  induction parts generalizing place with
  | nil => exact .inl h
  | cons part rest ih =>
    rcases ih h with hm | ⟨hm, hup⟩
    · rcases mem_of_mem_advance hm with hm | ⟨rfl, hup⟩
      · exact .inl hm
      · exact .inr ⟨List.mem_cons_self, hup⟩
    · exact .inr ⟨List.mem_cons_of_mem _ hm, hup⟩

theorem mem_of_mem_split {isSeparator : Char → Bool} {text part : List Char}
    (hp : part ∈ (Text.split isSeparator text).1 :: (Text.split isSeparator text).2) {c : Char}
    (hc : c ∈ part) : c ∈ text := by
  induction text generalizing part with
  | nil =>
    obtain rfl : part = [] := by simpa [Text.split] using hp
    cases hc
  | cons d rest ih =>
    rw [Text.split] at hp
    split at hp
    · rcases List.mem_cons.1 hp with rfl | hm
      · cases hc
      · exact List.mem_cons_of_mem d (ih hm hc)
    · rcases List.mem_cons.1 hp with rfl | hm
      · rcases List.mem_cons.1 hc with rfl | hc
        · exact List.mem_cons_self
        · exact List.mem_cons_of_mem d (ih List.mem_cons_self hc)
      · exact List.mem_cons_of_mem d (ih (List.mem_cons_of_mem _ hm) hc)

theorem mem_of_mem_slashed {text part : String} (h : part ∈ slashed text) {c : Char}
    (hc : c ∈ part.toList) : c ∈ text.toList := by
  obtain ⟨chars, hm, rfl⟩ := List.mem_map.1 h
  rw [String.toList_ofList] at hc
  exact mem_of_mem_split hm hc

/-- From a plain place, a path without characters that no name can hold leads to a plain place. -/
theorem ordinary_destination {place : List String} {text : String} (hp : Ordinary place)
    (ht : '\x00' ∉ text.toList) : Ordinary (destination place text) := by
  intro name hm
  rcases mem_of_mem_foldl_advance hm with hm | ⟨hm, hup⟩
  · split at hm
    · cases hm
    · exact hp name hm
  · exact ⟨hup, fun hc => ht (mem_of_mem_slashed hm hc)⟩

/-! ## Resolving -/

theorem componentsOf_eq (text : String) :
    Path.componentsOf text.toList = (slashed text).filter fun part => part ≠ "" ∧ part ≠ "." := by
  rw [Path.componentsOf, slashed, List.filter_map]
  congr 1
  apply List.filter_congr
  intro chars _
  have hempty : String.ofList chars = "" ↔ chars = [] := by
    rw [← String.toList_inj, String.toList_ofList, String.toList_empty]
  have hdot : String.ofList chars = "." ↔ chars = ['.'] := by
    rw [← String.toList_inj, String.toList_ofList]
    rfl
  rw [Bool.eq_iff_iff]
  simp [hempty, hdot]

theorem advance_of_ne {place : List String} {part : String} (h : part ≠ "" ∧ part ≠ ".") :
    advance place part = if part = ".." then place.dropLast else place ++ [part] :=
  if_neg (not_or.2 h)

theorem foldl_advance_filter (place parts : List String) :
    (parts.filter fun part => part ≠ "" ∧ part ≠ ".").foldl advance place =
      parts.foldl advance place := by
  induction parts generalizing place with
  | nil => rfl
  | cons part rest ih =>
    by_cases hpart : part ≠ "" ∧ part ≠ "."
    · rw [List.filter_cons_of_pos (by simpa using hpart), List.foldl_cons, List.foldl_cons, ih]
    · have hstay : advance place part = place := if_pos (by tauto)
      rw [List.filter_cons_of_neg (by simpa using hpart), List.foldl_cons, hstay, ih]

theorem resolveFrom_eq_foldl {place names : List String} (hn : ∀ name ∈ names, name ≠ "" ∧ name ≠ ".") :
    Path.resolveFrom place names = names.foldl advance place.reverse := by
  induction names generalizing place with
  | nil => rfl
  | cons name rest ih =>
    obtain ⟨hname, hrest⟩ := List.forall_mem_cons.1 hn
    rw [Path.resolveFrom, ih hrest, List.foldl_cons, advance_of_ne hname]
    split
    · rw [List.dropLast_reverse]
    · rw [List.reverse_cons]

theorem resolveFrom_append {place names rest : List String} (hn : ∀ name ∈ names, name ≠ "..") :
    Path.resolveFrom place (names ++ rest) = Path.resolveFrom (names.reverse ++ place) rest := by
  induction names generalizing place with
  | nil => rfl
  | cons name others ih =>
    obtain ⟨hname, hothers⟩ := List.forall_mem_cons.1 hn
    rw [List.cons_append, Path.resolveFrom, if_neg hname, ih hothers, List.reverse_cons,
      List.append_assoc]
    rfl

theorem isAbsolute_ofText (text : String) :
    (Path.ofText text).isAbsolute = true ↔ text.toList.head? = some '/' := by
  rw [Path.ofText, Path.isAbsolute]
  dsimp only
  cases text.toList with
  | nil => decide
  | cons c rest =>
    by_cases hc : c = '/'
    · subst hc
      unfold Path.anchorOf
      split <;> simp_all
    · unfold Path.anchorOf
      split <;> simp_all

/-- **Joining a written path to a place and resolving it is going where it leads.** -/
theorem resolve_join {place : List String} (hp : ∀ name ∈ place, name ≠ "..") (text : String) :
    ((Path.ofPlace place).join (.ofText text)).resolve [] = destination place text := by
  have hnames : ∀ name ∈ Path.componentsOf text.toList, name ≠ "" ∧ name ≠ "." := by
    intro name hm
    rw [componentsOf_eq, List.mem_filter] at hm
    simpa using hm.2
  rw [destination, Path.join]
  by_cases ha : (Path.ofText text).isAbsolute = true
  · rw [if_pos ha, Path.resolve, if_pos ha, if_pos ((isAbsolute_ofText text).1 ha), Path.ofText,
      resolveFrom_eq_foldl hnames, componentsOf_eq, foldl_advance_filter]
    rfl
  · rw [if_neg ha, if_neg (mt (isAbsolute_ofText text).2 ha)]
    show Path.resolveFrom [] (place ++ Path.componentsOf text.toList) = _
    rw [resolveFrom_append hp, resolveFrom_eq_foldl hnames, componentsOf_eq, foldl_advance_filter,
      List.append_nil, List.reverse_reverse]

theorem mem_of_mem_resolveFrom {place names : List String} {name : String}
    (h : name ∈ Path.resolveFrom place names) : name ∈ place ∨ name ∈ names ∧ name ≠ ".." := by
  induction names generalizing place with
  | nil => exact .inl (List.mem_reverse.1 h)
  | cons other rest ih =>
    rw [Path.resolveFrom] at h
    split at h
    · rcases ih h with hm | ⟨hm, hup⟩
      · exact .inl (List.mem_of_mem_tail hm)
      · exact .inr ⟨List.mem_cons_of_mem _ hm, hup⟩
    · next hother =>
      rcases ih h with hm | ⟨hm, hup⟩
      · rcases List.mem_cons.1 hm with rfl | hm
        · exact .inr ⟨List.mem_cons_self, hother⟩
        · exact .inl hm
      · exact .inr ⟨List.mem_cons_of_mem _ hm, hup⟩

/-- Where a path is resolved to from a working directory is a plain place, if all names can be had. -/
theorem ordinary_resolve {working : List String} {path : Path}
    (hw : ∀ name ∈ working, '\x00' ∉ name.toList) (hp : path.hasNull = false) :
    Ordinary (path.resolve working) := by
  have hnames : ∀ name ∈ path.components, '\x00' ∉ name.toList := by
    rw [Path.hasNull, List.any_eq_false] at hp
    intro name hm
    simpa using hp name hm
  intro name hm
  rw [Path.resolve] at hm
  split at hm
  · rcases mem_of_mem_resolveFrom hm with hm | ⟨hm, hup⟩
    · cases hm
    · exact ⟨hup, hnames name hm⟩
  · rcases mem_of_mem_resolveFrom hm with hm | ⟨hm, hup⟩
    · cases hm
    · exact ⟨hup, (List.mem_append.1 hm).elim (hw name) (hnames name)⟩

theorem hasNull_join {place : List String} (hp : Ordinary place) {text : String}
    (ht : '\x00' ∉ text.toList) : ((Path.ofPlace place).join (.ofText text)).hasNull = false := by
  have hwritten : ∀ name ∈ Path.componentsOf text.toList, '\x00' ∉ name.toList := by
    intro name hm hc
    rw [componentsOf_eq] at hm
    exact ht (mem_of_mem_slashed (List.mem_filter.1 hm).1 hc)
  rw [Path.hasNull, List.any_eq_false]
  intro name hm
  have hnull : '\x00' ∉ name.toList := by
    rw [Path.join] at hm
    split at hm
    · exact hwritten name hm
    · exact (List.mem_append.1 hm).elim (fun hm => (hp name hm).2) (hwritten name)
  simpa using hnull

/-! ## Names with slashes between them -/

/-- A part of a written path that is the name of an entry. -/
def IsName (part : String) : Prop := part ≠ "" ∧ part ≠ "." ∧ part ≠ ".." ∧ '/' ∉ part.toList

theorem slashed_intercalate {first : String} {rest : List String} (hn : ∀ part ∈ first :: rest, IsName part) :
    slashed ("/".intercalate (first :: rest)) = first :: rest := by
  obtain ⟨hfirst, hrest⟩ := List.forall_mem_cons.1 hn
  have hlist : ("/".intercalate (first :: rest)).toList =
      ['/'].intercalate (first.toList :: rest.map String.toList) := String.toList_intercalate
  have hparts : ∀ part ∈ rest.map String.toList, '/' ∉ part := by
    intro part hm
    obtain ⟨name, hname, rfl⟩ := List.mem_map.1 hm
    exact (hrest name hname).2.2.2
  rw [slashed, hlist, Text.split_intercalate hfirst.2.2.2 hparts]
  simp [Function.comp_def]

theorem foldl_advance_names {place names : List String} (hn : ∀ part ∈ names, IsName part) :
    names.foldl advance place = place ++ names := by
  induction names generalizing place with
  | nil => rw [List.append_nil]; rfl
  | cons part rest ih =>
    obtain ⟨⟨hempty, hdot, hup, _⟩, hrest⟩ := List.forall_mem_cons.1 hn
    rw [List.foldl_cons, advance_of_ne ⟨hempty, hdot⟩, if_neg hup, ih hrest, List.append_assoc]
    rfl

/-- Names with slashes between them lead down from name to name. -/
theorem destination_intercalate {place : List String} {first : String} {rest : List String}
    (hn : ∀ part ∈ first :: rest, IsName part) :
    destination place ("/".intercalate (first :: rest)) = place ++ first :: rest := by
  have hrelative : ("/".intercalate (first :: rest)).toList.head? ≠ some '/' := by
    obtain ⟨⟨hempty, _, _, hslash⟩, _⟩ := List.forall_mem_cons.1 hn
    cases hchars : first.toList with
    | nil => exact absurd (String.toList_eq_nil_iff.1 hchars) hempty
    | cons c chars =>
      have hc : c ≠ '/' := by
        rintro rfl
        exact hslash (hchars ▸ List.mem_cons_self)
      cases rest with
      | nil => simpa [hchars] using hc
      | cons second rest => simpa [hchars, String.intercalate_cons_cons] using hc
  rw [destination, if_neg hrelative, slashed_intercalate hn, foldl_advance_names hn]

end Stencil.Files
