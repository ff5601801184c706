import Stencil.Partials.Directory
import Stencil.Proofs.Files.Destination

/-!
# Partials stay in their directory

The name of a partial is written by whoever writes templates, and may be anything. Where it leads from
the directory, together with the suffix, is settled before anything is looked at, and what is looked at
is only what is below the directory, as a list of names and not as a text. So a file outside the
directory is never read, and every file inside that has the suffix can be (`loader_contained`).
-/

set_option autoImplicit false

namespace Stencil.PartialDirectory

open Files

variable {tree : Tree} {directory : PartialDirectory} {name : String}

theorem pathOf_resolve (hp : Ordinary directory.place) (name : String) :
    (directory.pathOf name).resolve [] = destination directory.place (name ++ directory.suffix) :=
  resolve_join (fun part hm => (hp part hm).1) _

/-- The place that a partial would be at: the file there is the partial, if the place is inside. -/
theorem loader_eq (hp : Ordinary directory.place) (hne : name ≠ "")
    (hn : '\x00' ∉ (name ++ directory.suffix).toList) {place : List String}
    (hd : destination directory.place (name ++ directory.suffix) = place)
    (hl : ¬ (Path.ofPlace place).TooLong) :
    (directory.loader tree name).2 =
      if directory.place <+: place ∧ (tree.root.find? place).any Entry.isFile = true then
        tree.readText (.ofPlace place)
      else .ok none := by
  have hplace : Ordinary place := hd ▸ ordinary_destination hp hn
  have hempty : name.isEmpty = false := by simpa using hne
  have hnull : (directory.pathOf name).hasNull = false := hasNull_join hp hn
  have hfile : tree.isFile (.ofPlace place) = .ok ((tree.root.find? place).any Entry.isFile) :=
    probe_ofPlace hplace hl Entry.isFile
  simp only [loader, hempty, hnull, pathOf_resolve hp, hd, hfile, Bool.false_eq_true, if_false]
  by_cases hin : directory.place <+: place
  · have hcontains : directory.contains place = true := List.isPrefixOf_iff_prefix.2 hin
    simp only [hcontains, Bool.not_true, Bool.false_eq_true, if_false, hin, true_and]
    cases (tree.root.find? place).any Entry.isFile <;> rfl
  · have hcontains : directory.contains place = false :=
      Bool.eq_false_iff.2 (mt List.isPrefixOf_iff_prefix.1 hin)
    simp [hcontains, hin]

/-- What is written leads from the root to a place that is not outside, and at that place is a file. -/
def HasFile (tree : Tree) (root : List String) (written : String) (content : List UInt8) : Prop :=
  root <+: destination root written ∧
    tree.root.find? (destination root written) = some (.file content)

section Loader

variable (hp : Ordinary directory.place) (hn : '\x00' ∉ (name ++ directory.suffix).toList)
  (hl : ¬ (Path.ofPlace (destination directory.place (name ++ directory.suffix))).TooLong)

include hp hn hl

theorem loader_of_hasFile (hne : name ≠ "") {content : List UInt8}
    (hf : HasFile tree directory.place (name ++ directory.suffix) content) :
    (directory.loader tree name).2 =
      match textOf content with
      | .ok text => .ok (some text)
      | .error fault => .error (.undecodable fault) := by
  obtain ⟨hin, hfound⟩ := hf
  rw [loader_eq hp hne hn rfl hl, if_pos ⟨hin, by rw [hfound]; rfl⟩]
  exact readText_ofPlace (ordinary_destination hp hn) hl hfound

theorem loader_of_not_hasFile
    (hf : ∀ content, ¬ HasFile tree directory.place (name ++ directory.suffix) content) :
    (directory.loader tree name).2 = .ok none := by
  by_cases hne : name = ""
  · rw [hne]
    rfl
  · rw [loader_eq hp hne hn rfl hl, if_neg]
    rintro ⟨hin, hany⟩
    obtain ⟨entry, hfound, hfile⟩ := (Option.any_eq_true _ _).1 hany
    cases entry with
    | file content => exact hf content ⟨hin, hfound⟩
    | directory entries => cases hfile

/-- If the file that there is is a text, it is given. -/
theorem exists_loader_of_hasFile (hne : name ≠ "") {content : List UInt8}
    (ht : IsText content) (hf : HasFile tree directory.place (name ++ directory.suffix) content) :
    ∃ text, textOf content = .ok text ∧ (directory.loader tree name).2 = .ok (some text) := by
  rw [loader_of_hasFile hp hn hl hne hf]
  cases htext : textOf content with
  | ok text => exact ⟨text, rfl, rfl⟩
  | error fault => exact absurd ht (not_isText_of_textOf htext)

/-- What is given is the text of a file. -/
theorem hasFile_of_loader {text : String} (h : (directory.loader tree name).2 = .ok (some text)) :
    name ≠ "" ∧ ∃ content, HasFile tree directory.place (name ++ directory.suffix) content ∧
      textOf content = .ok text := by
  have hne : name ≠ "" := by
    rintro rfl
    cases h
  refine ⟨hne, ?_⟩
  by_contra hnone
  have hf : ∀ content, ¬ HasFile tree directory.place (name ++ directory.suffix) content := by
    intro content hf
    rw [loader_of_hasFile hp hn hl hne hf] at h
    cases htext : textOf content with
    | ok read =>
      rw [htext] at h
      cases h
      exact hnone ⟨content, hf, htext⟩
    | error fault =>
      rw [htext] at h
      cases h
  rw [loader_of_not_hasFile hp hn hl hf] at h
  cases h

end Loader

theorem of_ofPath {path : Path} {suffix : String} (h : ofPath tree path suffix = .ok directory) :
    path.hasNull = false ∧ path.resolve tree.working = directory.place ∧ suffix = directory.suffix := by
  unfold ofPath at h
  split at h
  · cases h
  · next hnull =>
    cases h
    exact ⟨by simpa using hnull, rfl, rfl⟩

/-- **A directory of partials gives what is in it, and nothing else.** The root is where its path leads
from the working directory. A name gives the text of a file if the place it leads to, with the suffix,
has the root for its beginning and a file at it, and otherwise nothing; so does every list of names from
the root to a file that is written as some name with the suffix. -/
theorem loader_contained {path : Path} {suffix : String}
    (hw : ∀ part ∈ tree.working, '\x00' ∉ part.toList)
    (hd : ofPath tree path suffix = .ok directory) (hn : '\x00' ∉ (name ++ suffix).toList)
    (hl : ¬ (Path.ofPlace (destination (path.resolve tree.working) (name ++ suffix))).TooLong)
    (ht : ∀ content, tree.root.find? (destination (path.resolve tree.working) (name ++ suffix)) =
      some (.file content) → IsText content) :
    (∀ text, (directory.loader tree name).2 = .ok (some text) ↔
        name ≠ "" ∧ ∃ content, HasFile tree (path.resolve tree.working) (name ++ suffix) content ∧
          textOf content = .ok text) ∧
      ((directory.loader tree name).2 = .ok none ↔
        ¬ (name ≠ "" ∧
          ∃ content, HasFile tree (path.resolve tree.working) (name ++ suffix) content)) ∧
      ∀ first rest content, (∀ part ∈ first :: rest, IsName part) → name ≠ "" →
        name ++ suffix = "/".intercalate (first :: rest) →
        tree.root.find? (path.resolve tree.working ++ first :: rest) = some (.file content) →
        ∃ text, textOf content = .ok text ∧ (directory.loader tree name).2 = .ok (some text) := by
  obtain ⟨hpath, hroot, rfl⟩ := of_ofPath hd
  have hp : Ordinary directory.place := hroot ▸ ordinary_resolve hw hpath
  rw [hroot] at hl ht ⊢
  refine ⟨fun text => ⟨hasFile_of_loader hp hn hl, ?_⟩, ⟨?_, ?_⟩, ?_⟩
  · rintro ⟨hne, content, hf, htext⟩
    rw [loader_of_hasFile hp hn hl hne hf, htext]
  · rintro h ⟨hne, content, hf⟩
    obtain ⟨text, _, hloader⟩ := exists_loader_of_hasFile hp hn hl hne (ht content hf.2) hf
    rw [h] at hloader
    cases hloader
  · intro h
    by_cases hne : name = ""
    · rw [hne]
      rfl
    · exact loader_of_not_hasFile hp hn hl fun content hf => h ⟨hne, content, hf⟩
  · intro first rest content hnames hne hwritten hfound
    -- names that are joined lead to the place that they list, which has the root for its beginning
    have hf : HasFile tree directory.place (name ++ directory.suffix) content := by
      rw [HasFile, hwritten, destination_intercalate hnames]
      exact ⟨List.prefix_append _ _, hfound⟩
    exact exists_loader_of_hasFile hp hn hl hne (ht content hf.2) hf

/-- Beside the directory `parts` there is one whose name starts the same. -/
def partsTree : Tree where
  root := .directory [("srv", .directory [
    ("parts", .directory [("a.txt", .file [0x41]), ("sub", .directory [("b.txt", .file [0x42])])]),
    ("parts2", .directory [("c.txt", .file [0x43])])])]
  working := ["srv"]

/-- By whatever way a name goes, it comes to a partial inside, and not to the file beside. -/
theorem loader_contained_partsTree :
    ofPath partsTree (.ofText "parts") ".txt" = .ok ⟨["srv", "parts"], ".txt"⟩ ∧
      ((⟨["srv", "parts"], ".txt"⟩ : PartialDirectory).loader partsTree "../x/../parts//sub/./b").2 =
        .ok (some "B") ∧
      ((⟨["srv", "parts"], ".txt"⟩ : PartialDirectory).loader partsTree "../parts2/c").2 =
        .ok none := by
  have hd : ofPath partsTree (.ofText "parts") ".txt" = .ok ⟨["srv", "parts"], ".txt"⟩ := rfl
  have hw : ∀ part ∈ partsTree.working, '\x00' ∉ part.toList := by decide
  have hb : '\x00' ∉ ("../x/../parts//sub/./b" ++ ".txt").toList := by decide
  have hc : '\x00' ∉ ("../parts2/c" ++ ".txt").toList := by decide
  obtain ⟨hsome, _⟩ := loader_contained hw hd hb (by unfold Path.TooLong; decide) (by
    rintro content ⟨⟩
    exact ⟨['B'], by decide⟩)
  obtain ⟨_, hnone, _⟩ := loader_contained hw hd hc (by unfold Path.TooLong; decide) (by
    rintro content ⟨⟩
    exact ⟨['C'], by decide⟩)
  refine ⟨hd, (hsome "B").2 ⟨by decide, [0x42], ⟨by decide, rfl⟩, rfl⟩, hnone.2 ?_⟩
  -- the place begins as the root is written, but not with the names of the root
  rintro ⟨_, content, hin, _⟩
  exact absurd hin (by decide)

end Stencil.PartialDirectory
