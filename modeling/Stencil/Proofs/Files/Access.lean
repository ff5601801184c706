import Mathlib.Data.List.Basic
import Stencil.Files.Tree
import Stencil.Proofs.Files.Content

/-!
# What a path gives access to

Whatever is asked of a path, there are two things that can go wrong: the path is too long, or what is
there is no text (`tooLong_of_probe`, `not_isText_of_readText`).

A path is followed from directory to directory. Where it has nothing in it but names, it leads to the
entry that the tree has at that place, if there is one, and otherwise nowhere (`probe_ofPlace`,
`readText_ofPlace`).
-/

set_option autoImplicit false

namespace Stencil.Files

/-! ## What goes wrong -/

/-- The path, or a name in it, is longer than a file system takes. -/
def Path.TooLong (path : Path) : Prop :=
  pathLimit ≤ path.text.utf8ByteSize ∨ ∃ name ∈ path.components, nameLimit < name.utf8ByteSize

theorem exists_of_followFrom {tree : Tree} {place components : List String}
    (h : tree.followFrom place components = .error .nameTooLong) :
    ∃ name ∈ components, nameLimit < name.utf8ByteSize := by
  induction components generalizing place with
  | nil =>
    rw [Tree.followFrom] at h
    split at h <;> cases h
  | cons name rest ih =>
    rw [Tree.followFrom] at h
    split at h
    · cases h
    · cases h
    · split at h
      · obtain ⟨other, hm, hlong⟩ := ih h
        exact ⟨other, List.mem_cons_of_mem _ hm, hlong⟩
      · split at h
        · next hlong => exact ⟨name, List.mem_cons_self, hlong⟩
        · split at h
          · cases h
          · obtain ⟨other, hm, hlong⟩ := ih h
            exact ⟨other, List.mem_cons_of_mem _ hm, hlong⟩

theorem tooLong_of_access {tree : Tree} {path : Path} (h : tree.access path = .error .nameTooLong) :
    path.TooLong := by
  unfold Tree.access at h
  split at h
  · cases h
  · split at h
    · next hlong => exact .inl hlong
    · exact .inr (exists_of_followFrom h)

/-- Asking whether something is at a path fails only if the path is too long. -/
theorem tooLong_of_probe {tree : Tree} {path : Path} {test : Entry → Bool} {error : FileError}
    (h : tree.probe path test = .error error) : error = .nameTooLong path.text ∧ path.TooLong := by
  unfold Tree.probe at h
  split at h
  · cases h
  · next ha =>
    cases h
    exact ⟨rfl, tooLong_of_access ha⟩
  · cases h

/-- Reading the text at a path fails only if what is there is no text. -/
theorem not_isText_of_readText {tree : Tree} {path : Path} {error : FileError}
    (h : tree.readText path = .error error) :
    ∃ fault content, error = .undecodable fault ∧ tree.access path = .ok (.file content) ∧
      ¬ IsText content := by
  unfold Tree.readText at h
  split at h
  · next content ha =>
    split at h
    · cases h
    · next fault hf =>
      cases h
      exact ⟨fault, content, rfl, ha, not_isText_of_textOf hf⟩
  · cases h

/-! ## Places -/

/-- A place without a step up and without a name that no file can have. -/
def Ordinary (place : List String) : Prop := ∀ name ∈ place, name ≠ ".." ∧ '\x00' ∉ name.toList

theorem Ordinary.hasNull {path : Path} (h : Ordinary path.components) : path.hasNull = false := by
  rw [Path.hasNull, List.any_eq_false]
  intro name hm
  simpa using (h name hm).2

/-- A place is found by way of any place on the way to it. -/
theorem find?_append (entry : Entry) (place names : List String) :
    entry.find? (place ++ names) = (entry.find? place).bind fun middle => middle.find? names := by
  induction place generalizing entry with
  | nil => rfl
  | cons name rest ih =>
    rw [List.cons_append, Entry.find?, Entry.find?]
    cases entry.child? name with
    | none => rfl
    | some next => exact ih next

variable {tree : Tree} {place : List String}

theorem followFrom_eq_ok_iff {names : List String} {entry : Entry} (hp : Ordinary names)
    (hl : ∀ name ∈ names, ¬ nameLimit < name.utf8ByteSize) :
    tree.followFrom place names = .ok entry ↔ tree.root.find? (place ++ names) = some entry := by
  induction names generalizing place with
  | nil =>
    rw [Tree.followFrom, List.append_nil]
    cases tree.root.find? place <;> simp
  | cons name rest ih =>
    obtain ⟨⟨hup, _⟩, hrest⟩ := List.forall_mem_cons.1 hp
    obtain ⟨hname, hnames⟩ := List.forall_mem_cons.1 hl
    -- one name further is one child further, since finding an entry goes name by name as well
    have hchild : tree.root.find? (place ++ [name]) = (tree.root.find? place).bind (·.child? name) := by
      rw [find?_append]
      congr 1
      funext middle
      rw [Entry.find?]
      cases middle.child? name <;> rfl
    have hsplit : tree.root.find? (place ++ name :: rest) =
        (tree.root.find? (place ++ [name])).bind fun next => next.find? rest := by
      rw [List.append_cons, find?_append]
    rw [Tree.followFrom]
    cases hfound : tree.root.find? place with
    | none => simp [hsplit, hchild, hfound]
    | some middle =>
      cases middle with
      | file content => simp [hsplit, hchild, hfound, Entry.child?]
      | directory entries =>
        simp only [if_neg hup, if_neg hname]
        cases hnext : (Entry.directory entries).child? name with
        | none => simp [hsplit, hchild, hfound, hnext]
        | some next =>
          rw [Option.isNone_some, if_neg Bool.false_ne_true, ih hrest hnames, ← List.append_cons]

theorem access_ofPlace_iff {entry : Entry} (hp : Ordinary place) (hl : ¬ (Path.ofPlace place).TooLong) :
    tree.access (.ofPlace place) = .ok entry ↔ tree.root.find? place = some entry := by
  obtain ⟨hpath, hnames⟩ := not_or.1 hl
  rw [Tree.access, Ordinary.hasNull hp, if_neg Bool.false_ne_true, if_neg hpath]
  exact followFrom_eq_ok_iff hp fun name hm hlong => hnames ⟨name, hm, hlong⟩

/-- A place is asked about, and there is an entry there that satisfies the test or there is none. -/
theorem probe_ofPlace (hp : Ordinary place) (hl : ¬ (Path.ofPlace place).TooLong) (test : Entry → Bool) :
    tree.probe (.ofPlace place) test = .ok ((tree.root.find? place).any test) := by
  rw [Tree.probe]
  cases ha : tree.access (.ofPlace place) with
  | ok entry => rw [(access_ofPlace_iff hp hl).1 ha, Option.any_some]
  | error error =>
    have hnone : tree.root.find? place = none := by
      rw [Option.eq_none_iff_forall_ne_some]
      intro entry hfound
      rw [(access_ofPlace_iff hp hl).2 hfound] at ha
      cases ha
    rw [hnone, Option.any_none]
    cases error with
    | nameTooLong => exact absurd (tooLong_of_access ha) hl
    | missing | notDirectory | embeddedNull => rfl

theorem readText_ofPlace {content : List UInt8} (hp : Ordinary place)
    (hl : ¬ (Path.ofPlace place).TooLong) (hf : tree.root.find? place = some (.file content)) :
    tree.readText (.ofPlace place) =
      match textOf content with
      | .ok text => .ok (some text)
      | .error fault => .error (.undecodable fault) := by
  cases ht : textOf content with
  | ok text => simp only [Tree.readText, (access_ofPlace_iff hp hl).2 hf, ht]
  | error fault => simp only [Tree.readText, (access_ofPlace_iff hp hl).2 hf, ht]

end Stencil.Files
