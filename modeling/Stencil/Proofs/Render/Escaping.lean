import Stencil.Proofs.Render.Accounts
import Stencil.Proofs.Render.Chunks

/-!
# What escaping does

Whether values are escaped for markup is an option, and it is looked at in one place: when the value of a
variable is written. So with the option on, a rendering does what it does with the option off, for a host
that escapes the texts of variables itself (`visit_of_escape`). For a sink that does not heed the texts it
is given, that makes no difference.

`Host.Heedless` says that of a host by a relation on worlds: worlds that differ in nothing but texts that
were written. The account of a rendering with escaping is then the account without it, each text that was
written for a variable being escaped (`Renderer.account_escaped`).
-/

set_option autoImplicit false

namespace Stencil

open Walk

variable {ω ε ν κ α β : Type}

/-- What the host does depends on no text that was written to it. Worlds that are related differ in such
texts and in nothing that shows. -/
structure Host.Heedless (host : Host ω ε ν) (worlds : ω → ω → Prop) : Prop where
  write : ∀ text other, Matches Eq worlds (host.write text) (host.write other)
  lookup : ∀ name, Matches Eq worlds (host.context.lookup name) (host.context.lookup name)
  load : ∀ name, Matches Eq worlds (host.load name) (host.load name)
  note : ∀ notice {world around}, worlds world around →
    worlds (host.note notice world) (host.note notice around)
  push : ∀ {scopes}, host.context.scopes = some scopes →
    ∀ value, Matches Eq worlds (scopes.push value) (scopes.push value)
  pop : ∀ {scopes}, host.context.scopes = some scopes → Matches Eq worlds scopes.pop scopes.pop

/-- A stage keeps what is written, and does nothing else with it. -/
theorem Stage.heedless (context : Context κ ε ν) (loader : Loader ε) :
    (Stage.host context loader).Heedless fun stage other =>
      stage.context = other.context ∧ stage.notices = other.notices where
  write text other stage beside hs := .ok rfl hs
  lookup name stage beside hs := by
    simp only [Stage.host, Context.zoom, zoom, hs.1]
    cases context.lookup name beside.context with
    | ok found after => exact .ok rfl ⟨rfl, hs.2⟩
    | error error after => exact .error ⟨rfl, hs.2⟩
  load name stage beside hs := by
    simp only [Stage.host, hs.2]
    cases (loader name).2 with
    | ok source => exact .ok rfl ⟨hs.1, rfl⟩
    | error error => exact .error ⟨hs.1, rfl⟩
  note notice stage beside hs := ⟨hs.1, congrArg (notice :: ·) hs.2⟩
  push hscopes value stage beside hs := by
    obtain ⟨scopes, _, rfl⟩ := Option.map_eq_some_iff.1 hscopes
    simp only [zoom, hs.1]
    cases scopes.push value beside.context with
    | ok u after => exact .ok rfl ⟨rfl, hs.2⟩
    | error error after => exact .error ⟨rfl, hs.2⟩
  pop hscopes stage beside hs := by
    obtain ⟨scopes, _, rfl⟩ := Option.map_eq_some_iff.1 hscopes
    simp only [zoom, hs.1]
    cases scopes.pop beside.context with
    | ok value after => exact .ok rfl ⟨rfl, hs.2⟩
    | error error after => exact .error ⟨rfl, hs.2⟩

/-! ## Texts of variables -/

/-- A text that is written for a label, escaped if that is a variable. -/
def escapedFor : Option Label → String → String
  | some (.tag tag), text => if tag.type = .escaped then Text.escapeMarkup text else text
  | _, text => text

/-- A charge with its text escaped, if it was written for a variable. -/
def escapeCharge : Charge ν → Charge ν
  | (origin, .write text) => (origin, .write (escapedFor origin text))
  | charge => charge

/-- The host with a sink that escapes what is written to it for this label, if that is a variable. -/
def Host.escaping (host : Host ω ε ν) (origin : Option Label) : Host ω ε ν :=
  { host with write := fun text => host.write (escapedFor origin text) }

namespace Render

theorem substitute_of_escape (host : Host ω ε ν) {tag : Tag} (ht : tag.type = .escaped) :
    substitute host tag.name true =
      substitute (host.escaping (some (.tag tag))) tag.name false := by
  unfold substitute
  simp only [Host.escaping, escapedFor, substitution, ht, if_true, Bool.false_eq_true, if_false]

theorem substitute_of_unescaped (host : Host ω ε ν) {tag : Tag} (ht : tag.type = .unescaped) :
    substitute host tag.name false =
      substitute (host.escaping (some (.tag tag))) tag.name false := by
  unfold substitute
  simp [Host.escaping, escapedFor, ht]

/-- The option is as good as a sink that escapes. -/
theorem visit_of_escape (limit : Int) (host : Host ω ε ν) (graph : Graph ν) (node : Node)
    (depth : Int) :
    visit { escape := true, inclusionLimit := limit } host graph node depth =
      visit { escape := false, inclusionLimit := limit } (host.escaping (some node.label)) graph node
        depth := by
  cases hl : node.label with
  | root => simp only [visit, hl]
  | text content position =>
    simp only [visit, hl]
    rfl
  | tag tag =>
    cases ht : tag.type with
    | escaped => simp only [visit, hl, ht, substitute_of_escape host ht]
    | unescaped => simp only [visit, hl, ht, substitute_of_unescaped host ht]
    | sectionBegin | invertedBegin | inclusion =>
      simp only [visit, hl, ht]
      rfl
    | invalid | sectionEnd | comment | switch => simp only [visit, hl, ht]

theorem visitorAt_of_escape (limit : Int) (hosts : Option Label → Host ω ε ν) (graph : Graph ν) :
    visitorAt { escape := true, inclusionLimit := limit } hosts graph =
      visitorAt { escape := false, inclusionLimit := limit }
        (fun origin => (hosts origin).escaping origin) graph := by
  have hvisit : (visitorAt { escape := true, inclusionLimit := limit } hosts graph).visit =
      (visitorAt { escape := false, inclusionLimit := limit }
        (fun origin => (hosts origin).escaping origin) graph).visit := by
    funext node depth
    exact visit_of_escape limit (hosts (some node.label)) graph node depth
  rw [visitorAt, visitorAt, Visitor.mk.injEq]
  exact ⟨hvisit, rfl, rfl⟩

/-! ## Accounts side by side -/

/-- Related worlds, with accounts of which the first is the second with escaping. -/
structure EscapedBeside (worlds : ω → ω → Prop) (whole beside : ω × List (Charge ν)) : Prop where
  world : worlds whole.1 beside.1
  charges : whole.2 = beside.2.map escapeCharge

variable {host : Host ω ε ν} {worlds : ω → ω → Prop}

theorem EscapedBeside.add {whole beside : ω × List (Charge ν)} (h : EscapedBeside worlds whole beside)
    {world around : ω} (hw : worlds world around) {charge other : Charge ν}
    (he : escapeCharge other = charge) :
    EscapedBeside worlds (world, whole.2 ++ [charge]) (around, beside.2 ++ [other]) := by
  refine ⟨hw, ?_⟩
  show whole.2 ++ [charge] = (beside.2 ++ [other]).map escapeCharge
  rw [List.map_append, ← h.charges, ← he]
  rfl

theorem matches_charging {answers : α → β → Prop} {origin : Option Label} {call other : Call ν}
    {action : EStateM ε ω α} {second : EStateM ε ω β} (h : Matches answers worlds action second)
    (he : escapeCharge (origin, other) = (origin, call)) :
    Matches answers (EscapedBeside worlds) (charging origin call action)
      (charging origin other second) := by
  intro whole beside hb
  simp only [charging]
  rcases (h _ _ hb.world).exists_eq with ⟨_, _, _, _, ha, hr, hanswer, hw⟩ | ⟨error, _, _, ha, hr, hw⟩
  · rw [ha, hr]
    exact .ok hanswer (hb.add hw he)
  · rw [ha, hr]
    exact .error (hb.add hw he)

theorem escaping_alike (h : host.Heedless worlds) (origin : Option Label) :
    ((host.charged origin).escaping origin).Alike (host.charged origin) Set.univ Eq
      (EscapedBeside worlds) where
  lookup name _ := (matches_charging (h.lookup name) rfl).mono fun found reply heq => by
    subst heq
    exact optionRel_refl (fun _ => rfl) _
  write text := matches_charging (h.write (escapedFor origin text) text) rfl
  load name := (matches_charging (h.load name) rfl).mono fun answer reply heq =>
    ⟨heq, fun source _ => sourceWithin_univ source⟩
  note notice whole beside hb := hb.add (h.note notice hb.world) rfl
  scopes := by
    show Option.Rel _ (host.context.scopes.map _) (host.context.scopes.map _)
    cases hs : host.context.scopes with
    | none => exact .none
    | some scopes =>
      refine .some ⟨fun {value beside} hv => ?_, matches_charging (h.pop hs) rfl⟩
      subst hv
      exact matches_charging (h.push hs value) rfl

end Render

namespace Renderer

open Render

/-- **The escape option affects the texts of variables and nothing else.** For a sink that does not heed
what is written, a rendering with escaping makes the calls that it makes without, for the same nodes and
in the same order, and ends in the same way. The texts that it writes are the same as well, except that
those written for variables are escaped. -/
theorem account_escaped (limit : Int) (cache : Cache) (host : Host ω ε ν) (graph : Graph ν)
    (document : Document) {worlds : ω → ω → Prop} (hh : host.Heedless worlds) {world around : ω}
    (hw : worlds world around) :
    let markup : Renderer := ⟨{ escape := true, inclusionLimit := limit }, cache⟩
    let plain : Renderer := ⟨{ escape := false, inclusionLimit := limit }, cache⟩
    let first := markup.account host graph document world
    let second := plain.account host graph document around
    (first.result = second.result ∧ first.world.2 = second.world.2.map escapeCharge ∧
      first.renderer.cache = second.renderer.cache ∧ worlds first.world.1 second.world.1) ∧
      markup.render host.recorded graph document (world, []) = first.calls ∧
      plain.render host.recorded graph document (around, []) = second.calls := by
  intro markup plain first second
  -- the option is given up for a sink that escapes, and then the hosts differ in their texts only
  have hsimulates := simulates_at plain.options graph (escaping_alike hh)
  rw [show visitorAt plain.options (fun origin => (host.charged origin).escaping origin) graph =
    visitorAt markup.options host.charged graph from
      (visitorAt_of_escape limit host.charged graph).symm] at hsimulates
  have hstart : EscapedBeside worlds (world, ([] : List (Charge ν))) (around, []) := ⟨hw, rfl⟩
  obtain ⟨hverdict, hpass⟩ := hsimulates.run (start_at document.nodes cache 0 hstart)
    (halts_account markup.options host graph document.nodes cache world)
    (halts_account plain.options host graph document.nodes cache around)
  have hresult : first.result = second.result := congrArg (Except.map fun _ => ()) hverdict
  refine ⟨⟨hresult, hpass.world.charges, hpass.cache, hpass.world.world⟩, ?_, ?_⟩
  · exact (markup.calls_account host graph document world).symm
  · exact (plain.calls_account host graph document around).symm

/-- A text, and a variable that is written twice, once as it is. -/
def twiceDocument : Document :=
  ⟨[⟨.text "<b>" 0, []⟩, ⟨.tag ⟨"v", .escaped, 3⟩, []⟩, ⟨.tag ⟨"v", .unescaped, 8⟩, []⟩], ""⟩

theorem account_escaped_twice :
    let markup : Renderer := ⟨{ escape := true, inclusionLimit := 32 }, []⟩
    let plain : Renderer := ⟨{ escape := false, inclusionLimit := 32 }, []⟩
    let first := markup.account sampleHost sampleGraph twiceDocument markupStage
    let second := plain.account sampleHost sampleGraph twiceDocument markupStage
    first.world.2 = second.world.2.map escapeCharge ∧
      chunks first.calls.world.2 = ["<b>", "&lt;&amp;&#x27;", "<&'"] ∧
      chunks second.calls.world.2 = ["<b>", "<&'", "<&'"] := by
  intro markup plain first second
  have hsame : markupStage.context = markupStage.context ∧ markupStage.notices = markupStage.notices :=
    ⟨rfl, rfl⟩
  obtain ⟨⟨_, hcharges, _, _⟩, hfirst, hsecond⟩ := account_escaped 32 [] sampleHost sampleGraph
    twiceDocument (Stage.heedless (.ofStack sampleGraph) .empty) hsame
  refine ⟨hcharges, ?_, ?_⟩
  -- the renderings can be computed without accounts, and the theorem ties the two together
  · show chunks (markup.account sampleHost sampleGraph twiceDocument markupStage).calls.world.2 = _
    rw [← hfirst, render_eq_of_ends ⟨12, rfl⟩]
    rfl
  · show chunks (plain.account sampleHost sampleGraph twiceDocument markupStage).calls.world.2 = _
    rw [← hsecond, render_eq_of_ends ⟨12, rfl⟩]
    rfl

end Renderer

end Stencil
