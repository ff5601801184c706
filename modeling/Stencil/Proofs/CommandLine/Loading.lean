import Stencil.Proofs.Settings

/-!
# Failures of settings and data

What a command complains about, or what breaks it off, when a file of settings or of data cannot be used
(`foreseen_of_settings`, `foreseen_of_load`). Reading is the same for both; then data are whatever they
are, while settings have to be a mapping of options that are known, each with a value of its sort
(`refused_of_ofDatum`).
-/

set_option autoImplicit false

namespace Stencil

namespace CommandLine

open Files

/-! ## Files of settings and data -/

/-- Why there are no data from what is at a path. -/
inductive Unloadable (tree : Tree) (reader : Yaml.Reader) (path : Path) : LoadError → Prop
  | unreadable {error : ConfigError} (hu : Unreadable tree reader path error) :
    Unloadable tree reader path (.config error)
  | bytes {content : List UInt8} {fault : Text.Utf8.Fault}
    (ha : tree.access path = .ok (.file content)) (ht : ¬ IsText content) :
    Unloadable tree reader path (.file (.undecodable fault))
  | tooLong (hl : path.TooLong) : Unloadable tree reader path (.file (.nameTooLong path.text))
  | meaning {content : List UInt8} {text : String} {minor : Nat} {fault : Yaml.Fault}
    (ha : tree.access path = .ok (.file content)) (ht : textOfPieces content = .ok text)
    (hf : reader text minor = .error fault) (hm : fault ≠ .malformed) :
    Unloadable tree reader path (.yaml fault)

theorem Unloadable.foreseen {tree : Tree} {invocation : Invocation} {reader : Yaml.Reader} {path : Path}
    {error : LoadError} (h : Unloadable tree reader path error) (hp : DataAt tree invocation path) :
    Foreseen tree invocation reader (.ofLoad error) := by
  cases h with
  | unreadable hu => exact Complaint.unreadable hp hu
  | bytes ha ht => exact Culprit.bytes (.inr hp) ha ht
  | tooLong hl => exact Culprit.tooLong (.inr hp) hl
  | meaning ha ht hf hm => exact Culprit.meaning hp ha ht hf hm

variable {tree : Tree} {reader : Yaml.Reader} {path : Path} {minor : Nat}

theorem unloadable_of_ofBytes {content : List UInt8} {error : LoadError}
    (ha : tree.access path = .ok (.file content))
    (h : DataFile.ofBytes path.text content minor reader = .error error) :
    Unloadable tree reader path error := by
  unfold DataFile.ofBytes at h
  cases ht : textOfPieces content with
  | error fault =>
    rw [ht] at h
    cases h
    exact .bytes ha (not_isText_of_textOfPieces ht)
  | ok text =>
    rw [ht] at h
    dsimp only at h
    -- of what a reader can fail with, one fault is the user's to put right, and the others are culprits
    split at h
    · cases h
    · next hf =>
      cases h
      exact .unreadable (.malformed ha ht hf)
    · next fault hm hf =>
      cases h
      exact .meaning ha ht hf hm

theorem unloadable_of_read {error : LoadError}
    (h : DataFile.read? tree path minor reader = .error error) : Unloadable tree reader path error := by
  unfold DataFile.read? at h
  split at h
  · next content ha =>
    cases hb : DataFile.ofBytes path.text content minor reader with
    | ok data =>
      rw [hb] at h
      cases h
    | error other =>
      rw [hb] at h
      cases h
      exact unloadable_of_ofBytes ha hb
  · next ha =>
    cases h
    exact .unreadable (.directory ha)
  · next ha =>
    cases h
    exact .tooLong (tooLong_of_access ha)
  · cases h

/-- Nothing is read only where there is nothing. -/
theorem access_of_read_none (h : DataFile.read? tree path minor reader = .ok none) (entry : Entry) :
    tree.access path ≠ .ok entry := by
  intro ha
  unfold DataFile.read? at h
  rw [ha] at h
  cases entry with
  | file content =>
    dsimp only at h
    cases hb : DataFile.ofBytes path.text content minor reader with
    | ok data =>
      rw [hb] at h
      cases h
    | error error =>
      rw [hb] at h
      cases h
  | directory entries => cases h

theorem foreseen_of_load {invocation : Invocation} {path : String} {error : LoadError}
    (hc : invocation.command = .render) (hd : invocation.data = some path)
    (h : DataFile.load tree (.ofText path) minor reader = .error error) :
    Foreseen tree invocation reader (.ofLoad error) := by
  unfold DataFile.load at h
  split at h
  · split at h <;> cases h
  · next hr =>
    cases h
    exact Complaint.noData hc hd (access_of_read_none hr)
  · next hr =>
    cases h
    exact (unloadable_of_read hr).foreseen (.data hc hd)

/-! ## Settings -/

/-- Settings are refused for something that is wrong, unless a key would have to be quoted that cannot
be written. -/
inductive Refused (wrong : ConfigError → Prop) (unwritten : Prop) : LoadError → Prop
  | config {error : ConfigError} (h : wrong error) : Refused wrong unwritten (.config error)
  | numeral {error : NumeralError} (h : unwritten) : Refused wrong unwritten (.numeral error)

theorem refused_of_ofDatum {data : Yaml.Document} {error : LoadError}
    (h : Settings.ofDatum path data.graph data.root = .error error) :
    Refused (Misset path data) (∃ entry, data.HasEntry entry ∧ entry.1.Unwritable) error := by
  cases Settings.ofDatum_eq_error_iff.1 h with
  | notMapping hh hm =>
    exact .config (.notMapping hh fun reference entries ordered hroot hcell =>
      hm entries ⟨reference, ordered, hroot, hcell⟩)
  | @option before rest entry _ hm _ hf =>
    have he : data.HasEntry entry := hm.hasEntry (by simp)
    cases hf with
    | config hb => exact .config (.option he hb)
    | numeral _ hw => exact .numeral ⟨entry, he, (Literal.written_fails_iff _).1 ⟨_, hw⟩⟩
  | limit hm _ hl =>
    simp only [Settings.Limited, not_forall, Int.not_le] at hl
    obtain ⟨limit, hgiven, hlt⟩ := hl
    -- the limit was given by an entry, since the default is not too low
    obtain ⟨entry, he, hk, hv⟩ := Settings.exists_of_given? hgiven
    exact .config (.limit (hm.hasEntry he) hk (Datum.eq_of_int? hv) hlt)

theorem foreseen_of_settings {invocation : Invocation} {error : LoadError}
    (hc : invocation.command = .render)
    (h : Settings.load tree (settingsPath tree invocation) reader = .error error) :
    Foreseen tree invocation reader (.ofLoad error) := by
  unfold Settings.load at h
  split at h
  · next data hr =>
    cases refused_of_ofDatum h with
    | config hm => exact Complaint.settings hc hr hm
    | numeral hkey =>
      obtain ⟨entry, ⟨reference, entries, ordered, _, hcell, hm⟩, hkey⟩ := hkey
      refine Culprit.number (.settings hc) hr fun hw => ?_
      have hcontainer := hw.graph reference
      rw [hcell] at hcontainer
      exact (hcontainer entry hm).1 hkey
  · cases h
  · next hr =>
    cases h
    exact (unloadable_of_read hr).foreseen (.settings hc)

/-! ## Data -/

theorem writable_empty :
    Yaml.Document.Writable { root := .container 0, cells := #[.mapping []] } where
  graph reference := by
    cases reference with
    | zero => exact nofun
    | succ reference => exact nofun
  root h := by
    cases h with
    | set hc => cases hc

/-- Data that are there come from a file, unless there is nothing in them. -/
theorem writable_or_exists {invocation : Invocation} (hc : invocation.command = .render)
    {data : Yaml.Document} (h : DataFor tree invocation reader data) :
    data.Writable ∨ ∃ path minor, DataAt tree invocation path ∧
      DataFile.read? tree path minor reader = .ok (some data) := by
  cases h with
  | none => exact .inl writable_empty
  | @file path _ hd hl =>
    unfold DataFile.load at hl
    split at hl
    · next document hr =>
      -- null in a file stands for an empty mapping, in which there are no numbers
      split at hl
      · cases hl
        exact .inl writable_empty
      · cases hl
        exact .inr ⟨_, _, .data hc hd, hr⟩
    · cases hl
    · cases hl

end CommandLine

end Stencil
