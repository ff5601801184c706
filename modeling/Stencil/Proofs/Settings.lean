import Mathlib.Data.List.Nodup
import Stencil.Proofs.CommandLine.Culprit

/-!
# Which settings a file makes

Data that have been read from a file of settings are accepted or refused (`Settings.load_decides`). The
options in them are taken into account one after the other, but each is judged by itself: either it is
admitted, or it is refused with an error that says nothing of the options before it. So options that are
all admitted make what the last one of each name gives (`foldlM_set_eq_ok_iff`), and otherwise the first
one that is not admitted is what is wrong (`foldlM_set_eq_error_iff`).

Only null and mappings are meant to make settings, but what does not count as true is not looked at
(`Overlooked`): a file that holds an empty list is taken for one without data.
-/

set_option autoImplicit false

namespace Stencil

open Files

/-! ## What is in a file of settings -/

namespace Datum

variable {ν : Type}

/-- The truth value that a datum is, if it is one. -/
def bool? : Datum ν → Option Bool
  | .scalar (.bool flag) => some flag
  | _ => none

/-- The whole number that a datum is, if it is one. -/
def int? : Datum ν → Option Int
  | .scalar (.int n) => some n
  | _ => none

/-- The text that a datum is, if it is one. -/
def text? : Datum ν → Option String
  | .scalar (.text text) => some text
  | _ => none

variable {value : Datum ν}

theorem eq_of_int? {n : Int} (h : value.int? = some n) : value = .scalar (.int n) := by
  unfold int? at h
  split at h
  · cases h
    rfl
  · cases h

theorem not_fits {expected : String}
    (hb : ∀ flag, value = .scalar (.bool flag) → "bool" ≠ expected)
    (hi : ∀ n, value = .scalar (.int n) → "int" ≠ expected)
    (ht : ∀ text, value = .scalar (.text text) → "str" ≠ expected) : ¬ value.Fits expected := by
  unfold Fits
  split
  · exact fun he => hb _ rfl he.symm
  · exact fun he => hi _ rfl he.symm
  · exact fun he => ht _ rfl he.symm
  · exact id

end Datum

namespace Yaml.Document

variable {data : Yaml.Document} {entries : List (Literal × Datum Nat)}

/-- The data are the mapping with these entries. -/
def Maps (data : Yaml.Document) (entries : List (Literal × Datum Nat)) : Prop :=
  ∃ reference ordered, data.root = .container reference ∧
    data.graph reference = .mapping entries ordered

theorem Maps.hasEntry (h : data.Maps entries) {entry : Literal × Datum Nat} (hm : entry ∈ entries) :
    data.HasEntry entry := by
  obtain ⟨reference, ordered, hroot, hcell⟩ := h
  exact ⟨reference, entries, ordered, hroot, hcell, hm⟩

/-- The data are neither null nor a mapping, and yet do not count as true. -/
structure Overlooked (data : Yaml.Document) : Prop where
  holds_eq : data.root.holds data.graph = false
  root_ne : data.root ≠ .scalar .null
  not_maps : ∀ entries, ¬ data.Maps entries

end Yaml.Document

namespace Settings

variable {ν α : Type} {path : Path} {graph : Graph ν} {settings after : Settings}
  {entry : Literal × Datum ν} {before entries : List (Literal × Datum ν)} {error : LoadError}

/-- What the last entry with this key gives, of those whose values can be read. -/
def given? (name : String) (read : Datum ν → Option α) (entries : List (Literal × Datum ν)) : Option α :=
  (entries.filterMap fun entry => if entry.1.text? = some name then read entry.2 else none).getLast?

/-- Where an option that names a directory leads to: from the directory of the file on. -/
def directoryAt (path : Path) (directory : String) : Path :=
  if (Path.ofText directory).isAbsolute then .ofText directory
  else path.parent.join (.ofText directory)

/-- The settings, with whatever the entries of a file at a path give instead. -/
def given (path : Path) (settings : Settings) (entries : List (Literal × Datum ν)) : Settings where
  rendering :=
    { escape := (given? "escape" Datum.bool? entries).getD settings.rendering.escape
      inclusionLimit :=
        (given? "max_partial_depth" Datum.int? entries).getD settings.rendering.inclusionLimit }
  partialsPath :=
    ((given? "partials_dir" Datum.text? entries).map (directoryAt path)).or settings.partialsPath
  partialsSuffix := (given? "partials_suffix" Datum.text? entries).getD settings.partialsSuffix

theorem directoryAt_eq_join (path : Path) (directory : String) :
    directoryAt path directory = path.parent.join (.ofText directory) := by
  unfold directoryAt
  split
  · next h => rw [Path.join, if_pos h]
  · rfl

theorem exists_of_given? {name : String} {read : Datum ν → Option α} {answer : α}
    (h : given? name read entries = some answer) :
    ∃ entry ∈ entries, entry.1.text? = some name ∧ read entry.2 = some answer := by
  obtain ⟨entry, hm, he⟩ := List.mem_filterMap.1 (List.mem_of_getLast? h)
  split at he
  · next hk => exact ⟨entry, hm, hk, he⟩
  · cases he

theorem given?_append (name : String) (read : Datum ν → Option α) :
    given? name read (before ++ entries) = (given? name read entries).or (given? name read before) := by
  rw [given?, List.filterMap_append, List.getLast?_append]
  rfl

theorem given_nil : given path settings ([] : List (Literal × Datum ν)) = settings := rfl

/-- What comes later takes the place of what came before. -/
theorem given_append (path : Path) (settings : Settings) (before entries : List (Literal × Datum ν)) :
    given path settings (before ++ entries) = given path (given path settings before) entries := by
  simp only [given, given?_append, Option.getD_or, Option.map_or, Option.or_assoc]

/-! ## One option -/

/-- The entry sets an option that there is to a value of its sort. -/
def Admits (entry : Literal × Datum ν) : Prop :=
  ∃ option ∈ CommandLine.options, entry.1.text? = some option.1 ∧ entry.2.Fits option.2

/-- What an entry is refused with. -/
inductive Faulty (path : Path) (graph : Graph ν) (entry : Literal × Datum ν) : LoadError → Prop
  | config {error : ConfigError} (h : CommandLine.BadOption path graph entry error) :
    Faulty path graph entry (.config error)
  /-- The key is not known, but it cannot be written in a message either. -/
  | numeral {error : NumeralError} (hk : ∀ option ∈ CommandLine.options, entry.1.text? ≠ some option.1)
    (hw : entry.1.written = .error error) : Faulty path graph entry (.numeral error)

theorem faulty_of_unknownOption (hk : ∀ option ∈ CommandLine.options, entry.1.text? ≠ some option.1) :
    Faulty path graph entry (unknownOption path entry.1) := by
  unfold unknownOption
  cases hw : entry.1.written with
  | ok name => exact .config (.unknown hk hw)
  | error number => exact .numeral hk hw

/-- Each option is judged by itself, whatever the settings are before it. -/
theorem set_cases (path : Path) (graph : Graph ν) (settings : Settings) (entry : Literal × Datum ν) :
    Admits entry ∧ set path graph settings entry = .ok (given path settings [entry]) ∨
      ∃ error, Faulty path graph entry error ∧ set path graph settings entry = .error error := by
  unfold set
  dsimp only
  -- a case for each line of the match: a known key with a value of its sort, with any other, or no
  -- known key
  split
  case h_1 flag hk hv =>
    refine .inl ⟨⟨("escape", "bool"), by decide, hk, by rw [hv]; rfl⟩, ?_⟩
    simp [given, given?, hk, hv, Datum.bool?]
  case h_3 limit hk hv =>
    refine .inl ⟨⟨("max_partial_depth", "int"), by decide, hk, by rw [hv]; rfl⟩, ?_⟩
    simp [given, given?, hk, hv, Datum.int?]
  case h_5 directory hk hv =>
    refine .inl ⟨⟨("partials_dir", "str"), by decide, hk, by rw [hv]; rfl⟩, ?_⟩
    simp [given, given?, hk, hv, Datum.text?, directoryAt_eq_join]
  case h_7 suffix hk hv =>
    refine .inl ⟨⟨("partials_suffix", "str"), by decide, hk, by rw [hv]; rfl⟩, ?_⟩
    simp [given, given?, hk, hv, Datum.text?]
  case h_2 hk hv =>
    have hnot : ¬ entry.2.Fits "bool" := Datum.not_fits (fun _ hb => (hv _ hb).elim) (by simp) (by simp)
    exact .inr ⟨_, .config (.sort hk (by decide) hnot), rfl⟩
  case h_4 hk hv =>
    have hnot : ¬ entry.2.Fits "int" := Datum.not_fits (by simp) (fun _ hi => (hv _ hi).elim) (by simp)
    exact .inr ⟨_, .config (.sort hk (by decide) hnot), rfl⟩
  case h_6 hk hv | h_8 hk hv =>
    have hnot : ¬ entry.2.Fits "str" := Datum.not_fits (by simp) (by simp) fun _ ht => (hv _ ht).elim
    exact .inr ⟨_, .config (.sort hk (by decide) hnot), rfl⟩
  case h_9 hescape hdepth hdirectory hsuffix _ _ _ _ =>
    refine .inr ⟨_, faulty_of_unknownOption fun option ho => ?_, rfl⟩
    simp only [CommandLine.options, List.mem_cons, List.not_mem_nil, or_false] at ho
    obtain rfl | rfl | rfl | rfl := ho
    · exact hescape
    · exact hdepth
    · exact hdirectory
    · exact hsuffix

theorem sort_unique {key expected other : String} (h : (key, expected) ∈ CommandLine.options)
    (ho : (key, other) ∈ CommandLine.options) : expected = other := by
  have hnodup : (CommandLine.options.map Prod.fst).Nodup := by decide
  exact congrArg Prod.snd (List.inj_on_of_nodup_map hnodup h ho rfl)

theorem Faulty.not_admits (h : Faulty path graph entry error) : ¬ Admits entry := by
  rintro ⟨⟨key, expected⟩, ho, hk, hv⟩
  cases h with
  | config hb =>
    cases hb with
    | unknown hunknown => exact hunknown _ ho hk
    | sort hkey hsort hnot =>
      obtain rfl := Option.some.inj (hkey.symm.trans hk)
      rw [sort_unique hsort ho] at hnot
      exact hnot hv
  | numeral hunknown => exact hunknown _ ho hk

theorem Faulty.unique {other : LoadError} (h : Faulty path graph entry error)
    (ho : Faulty path graph entry other) : error = other := by
  -- which errors go together is settled by the key: it is known or not, and it can be written or not
  cases h with
  | config hb =>
    cases hb with
    | unknown hk hw =>
      cases ho with
      | config hb' =>
        cases hb' with
        | unknown _ hw' => rw [Except.ok.inj (hw.symm.trans hw')]
        | sort hk' hs' _ => exact absurd hk' (hk _ hs')
      | numeral _ hw' => cases hw.symm.trans hw'
    | sort hk hs hv =>
      cases ho with
      | config hb' =>
        cases hb' with
        | unknown hk' _ => exact absurd hk (hk' _ hs)
        | sort hk' hs' _ =>
          obtain rfl := Option.some.inj (hk.symm.trans hk')
          rw [sort_unique hs hs']
      | numeral hk' _ => exact absurd hk (hk' _ hs)
  | numeral hk hw =>
    cases ho with
    | config hb' =>
      cases hb' with
      | unknown _ hw' => cases hw.symm.trans hw'
      | sort hk' hs' _ => exact absurd hk' (hk _ hs')
    | numeral _ hw' => rw [Except.error.inj (hw.symm.trans hw')]

theorem set_eq_error_iff :
    set path graph settings entry = .error error ↔ Faulty path graph entry error := by
  rcases set_cases path graph settings entry with ⟨ha, hset⟩ | ⟨other, hf, hset⟩
  · rw [hset]
    exact iff_of_false nofun fun h => h.not_admits ha
  · rw [hset, Except.error.injEq]
    constructor
    · rintro rfl
      exact hf
    · exact hf.unique

/-! ## All options -/

theorem foldlM_set_eq_ok_iff :
    entries.foldlM (set path graph) settings = .ok after ↔
      (∀ entry ∈ entries, Admits entry) ∧ after = given path settings entries := by
  -- over the entries and from any settings on, since each entry adds to what came before
  induction entries generalizing settings with
  | nil =>
    rw [List.foldlM_nil, given_nil, and_iff_right nofun]
    exact ⟨fun h => (Except.ok.inj h).symm, fun h => congrArg _ h.symm⟩
  | cons entry rest ih =>
    rw [List.foldlM_cons, List.forall_mem_cons]
    rcases set_cases path graph settings entry with ⟨ha, hset⟩ | ⟨error, hf, hset⟩
    · have hgiven : given path settings (entry :: rest) = given path (given path settings [entry]) rest :=
        given_append path settings [entry] rest
      rw [hset, hgiven, and_iff_right ha]
      exact ih
    · rw [hset]
      exact iff_of_false nofun fun h => hf.not_admits h.1.1

theorem exists_faulty_of_foldlM (h : entries.foldlM (set path graph) settings = .error error) :
    ∃ before entry rest, entries = before ++ entry :: rest ∧ (∀ other ∈ before, Admits other) ∧
      Faulty path graph entry error := by
  induction entries generalizing settings with
  | nil => cases h
  | cons entry rest ih =>
    rw [List.foldlM_cons] at h
    rcases set_cases path graph settings entry with ⟨ha, hset⟩ | ⟨other, hf, hset⟩
    · rw [hset] at h
      obtain ⟨before, next, rest, rfl, hb, hf⟩ := ih h
      exact ⟨entry :: before, next, rest, rfl, List.forall_mem_cons.2 ⟨ha, hb⟩, hf⟩
    · rw [hset] at h
      cases h
      exact ⟨[], entry, rest, rfl, nofun, hf⟩

/-- The first option that is not admitted is what is wrong. -/
theorem foldlM_set_eq_error_iff :
    entries.foldlM (set path graph) settings = .error error ↔
      ∃ before entry rest, entries = before ++ entry :: rest ∧ (∀ other ∈ before, Admits other) ∧
        Faulty path graph entry error := by
  constructor
  · exact exists_faulty_of_foldlM
  · rintro ⟨before, entry, rest, rfl, hb, hf⟩
    have hrest : (entry :: rest).foldlM (set path graph) (given path settings before) = .error error := by
      rw [List.foldlM_cons, set_eq_error_iff.2 hf]
      rfl
    rw [List.foldlM_append, foldlM_set_eq_ok_iff.2 ⟨hb, rfl⟩]
    exact hrest

/-- The limit of the inclusion depth is at least one, if it is given. -/
def Limited (entries : List (Literal × Datum ν)) : Prop :=
  ∀ limit, given? "max_partial_depth" Datum.int? entries = some limit → 1 ≤ limit

theorem limited_iff :
    Limited entries ↔ ¬ (given path {} entries).rendering.inclusionLimit < 1 := by
  unfold Limited given
  cases given? "max_partial_depth" Datum.int? entries with
  | none => simp
  | some limit => simp

theorem ofEntries_of_admits (h : ∀ entry ∈ entries, Admits entry) :
    ofEntries path graph entries =
      if (given path {} entries).rendering.inclusionLimit < 1 then
        .error (.config (.limitTooLow path.text))
      else .ok (given path {} entries) := by
  rw [ofEntries, foldlM_set_eq_ok_iff.2 ⟨h, rfl⟩]

theorem ofEntries_of_faulty {rest : List (Literal × Datum ν)} (h : ∀ other ∈ before, Admits other)
    (hf : Faulty path graph entry error) :
    ofEntries path graph (before ++ entry :: rest) = .error error := by
  rw [ofEntries, foldlM_set_eq_error_iff.2 ⟨before, entry, rest, rfl, h, hf⟩]

theorem admits_or_faulty (path : Path) (graph : Graph ν) (entries : List (Literal × Datum ν)) :
    (∀ entry ∈ entries, Admits entry) ∨
      ∃ before entry rest error, entries = before ++ entry :: rest ∧ (∀ other ∈ before, Admits other) ∧
        Faulty path graph entry error := by
  cases hfold : entries.foldlM (set path graph) {} with
  | ok settings => exact .inl (foldlM_set_eq_ok_iff.1 hfold).1
  | error error =>
    obtain ⟨before, entry, rest, hentries, hb, hf⟩ := foldlM_set_eq_error_iff.1 hfold
    exact .inr ⟨before, entry, rest, error, hentries, hb, hf⟩

/-! ## Data -/

variable {data : Yaml.Document}

/-- The settings that data in a file at a path make, if they make any. -/
inductive Accepts (path : Path) (data : Yaml.Document) : Settings → Prop
  | null (h : data.root = .scalar .null) : Accepts path data {}
  | overlooked (h : data.Overlooked) : Accepts path data {}
  | options {entries : List (Literal × Datum Nat)} (hm : data.Maps entries)
    (ha : ∀ entry ∈ entries, Admits entry) (hl : Limited entries) :
    Accepts path data (given path {} entries)

/-- What data in a file at a path are refused with, if they are. -/
inductive Rejects (path : Path) (data : Yaml.Document) : LoadError → Prop
  | notMapping (hh : data.root.holds data.graph = true) (hm : ∀ entries, ¬ data.Maps entries) :
    Rejects path data (.config (.notMapping path.text))
  /-- The first option that is not admitted is what is wrong. -/
  | option {before rest : List (Literal × Datum Nat)} {entry : Literal × Datum Nat} {error : LoadError}
    (hm : data.Maps (before ++ entry :: rest)) (ha : ∀ other ∈ before, Admits other)
    (hf : Faulty path data.graph entry error) : Rejects path data error
  | limit {entries : List (Literal × Datum Nat)} (hm : data.Maps entries)
    (ha : ∀ entry ∈ entries, Admits entry) (hl : ¬ Limited entries) :
    Rejects path data (.config (.limitTooLow path.text))

theorem ofDatum_of_maps {entries : List (Literal × Datum Nat)} (h : data.Maps entries) :
    ofDatum path data.graph data.root = ofEntries path data.graph entries := by
  obtain ⟨reference, ordered, hroot, hcell⟩ := h
  have hholds : data.root.holds data.graph = !entries.isEmpty := by
    rw [hroot, Datum.holds, hcell, Cell.holds]
  unfold ofDatum
  rw [hholds, hroot]
  dsimp only
  rw [hcell]
  -- no entries are no options, whether they are looked at or not
  cases entries with
  | nil => rfl
  | cons entry rest => rfl

theorem ofDatum_of_not_maps (h : ∀ entries, ¬ data.Maps entries) :
    ofDatum path data.graph data.root =
      if data.root.holds data.graph = true then .error (.config (.notMapping path.text)) else .ok {} := by
  unfold ofDatum
  by_cases hh : data.root.holds data.graph = true
  · rw [hh, if_pos rfl]
    cases hroot : data.root with
    | scalar value => rfl
    | container reference =>
      dsimp only
      cases hcell : data.graph reference with
      | mapping entries ordered => exact absurd ⟨reference, ordered, hroot, hcell⟩ (h entries)
      | list | set | record => rfl
  · rw [if_neg hh, if_pos (by simpa using hh)]

theorem ofDatum_of_accepts (h : Accepts path data settings) :
    ofDatum path data.graph data.root = .ok settings := by
  cases h with
  | null hnull =>
    rw [hnull]
    rfl
  | overlooked ho => rw [ofDatum_of_not_maps ho.not_maps, ho.holds_eq, if_neg Bool.false_ne_true]
  | options hm ha hl => rw [ofDatum_of_maps hm, ofEntries_of_admits ha, if_neg (limited_iff.1 hl)]

theorem ofDatum_of_rejects (h : Rejects path data error) :
    ofDatum path data.graph data.root = .error error := by
  cases h with
  | notMapping hh hm => rw [ofDatum_of_not_maps hm, if_pos hh]
  | option hm ha hf => rw [ofDatum_of_maps hm, ofEntries_of_faulty ha hf]
  | limit hm ha hl =>
    rw [ofDatum_of_maps hm, ofEntries_of_admits ha, if_pos (not_not.1 (mt limited_iff.2 hl))]

theorem accepts_or_rejects (path : Path) (data : Yaml.Document) :
    (∃ settings, Accepts path data settings) ∨ ∃ error, Rejects path data error := by
  by_cases hm : ∃ entries, data.Maps entries
  · obtain ⟨entries, hm⟩ := hm
    rcases admits_or_faulty path data.graph entries with ha | ⟨_, _, _, _, rfl, hb, hf⟩
    · by_cases hl : Limited entries
      · exact .inl ⟨_, .options hm ha hl⟩
      · exact .inr ⟨_, .limit hm ha hl⟩
    · exact .inr ⟨_, .option hm hb hf⟩
  · rw [not_exists] at hm
    cases hh : data.root.holds data.graph with
    | true => exact .inr ⟨_, .notMapping hh hm⟩
    | false =>
      by_cases hnull : data.root = .scalar .null
      · exact .inl ⟨_, .null hnull⟩
      · exact .inl ⟨_, .overlooked ⟨hh, hnull, hm⟩⟩

theorem ofDatum_eq_ok_iff :
    ofDatum path data.graph data.root = .ok settings ↔ Accepts path data settings := by
  refine ⟨fun h => ?_, ofDatum_of_accepts⟩
  rcases accepts_or_rejects path data with ⟨other, ha⟩ | ⟨error, hr⟩
  · rw [ofDatum_of_accepts ha] at h
    cases h
    exact ha
  · rw [ofDatum_of_rejects hr] at h
    cases h

theorem ofDatum_eq_error_iff :
    ofDatum path data.graph data.root = .error error ↔ Rejects path data error := by
  refine ⟨fun h => ?_, ofDatum_of_rejects⟩
  rcases accepts_or_rejects path data with ⟨settings, ha⟩ | ⟨other, hr⟩
  · rw [ofDatum_of_accepts ha] at h
    cases h
  · rw [ofDatum_of_rejects hr] at h
    cases h
    exact hr

/-- **A file of settings that has been read makes settings or is refused, by what its data are,** and
not by which reader of YAML has read it. Null makes the defaults, and a mapping whose options are all
admitted makes what these give, if the limit is not too low. Data that do not count as true make the
defaults as well, whatever they are. All others are refused with an error of the user's, unless a key
would have to be quoted that cannot be written. -/
theorem load_decides {tree : Tree} {reader : Yaml.Reader}
    (h : DataFile.read? tree path Yaml.currentMinor reader = .ok (some data)) :
    (∀ settings, load tree path reader = .ok settings ↔ Accepts path data settings) ∧
      ∀ error, load tree path reader = .error error ↔ Rejects path data error := by
  have hload : load tree path reader = ofDatum path data.graph data.root := by rw [load, h]
  rw [hload]
  exact ⟨fun _ => ofDatum_eq_ok_iff, fun _ => ofDatum_eq_error_iff⟩

/-- A file of settings in a directory of its own, with the directory of partials beside it. -/
def confTree : Tree where
  root := .directory [("conf", .directory
    [("stache.yaml", .file "max_partial_depth: 4\npartials_dir: parts\n".toUTF8.toList)])]
  working := []

theorem load_decides_confTree :
    ∃ data, DataFile.read? confTree (.ofText "conf/stache.yaml") Yaml.currentMinor
        Yaml.Document.ofText = .ok (some data) ∧
      Accepts (.ofText "conf/stache.yaml") data
        { rendering := { inclusionLimit := 4 }, partialsPath := some (.ofText "conf/parts") } := by
  have hload : load confTree (.ofText "conf/stache.yaml") =
      .ok { rendering := { inclusionLimit := 4 }, partialsPath := some (.ofText "conf/parts") } := by
    decide +kernel
  -- these are not the defaults, so there are data, and they are whatever the reader makes of the file
  cases hr : DataFile.read? confTree (.ofText "conf/stache.yaml") Yaml.currentMinor
      Yaml.Document.ofText with
  | error error =>
    rw [load, hr] at hload
    cases hload
  | ok found =>
    cases found with
    | none =>
      rw [load, hr] at hload
      cases hload
    | some data => exact ⟨data, rfl, ((load_decides hr).1 _).1 hload⟩

/-- In the file there is a list, with nothing in it. -/
def listTree : Tree where
  root := .directory [("stache.yaml", .file "[]\n".toUTF8.toList)]
  working := []

/-- The list is taken for a file without options, and not for the error that any other list is. -/
theorem load_emptyList :
    (DataFile.read? listTree (.ofText "stache.yaml") Yaml.currentMinor Yaml.Document.ofText).map
        (Option.map fun data => data.root.sort data.graph) = .ok (some "list") ∧
      load listTree (.ofText "stache.yaml") = .ok {} := by
  decide +kernel

end Settings

end Stencil
