/-!
# Blanks and splitting

Only six ASCII characters count as blank; a no-break space or an ideographic space is an ordinary
character everywhere in a template. Everything here works on `List Char`, so that a length is a
number of code points.

`split` never returns an empty list of parts, and says so by its type: a first part and the rest.
Joining the parts again gives the text back (`intercalate_split`).
-/

set_option autoImplicit false

namespace Stencil.Text

/-- The characters that a tag may carry around its name without effect. -/
def isBlank (c : Char) : Bool :=
  c == ' ' || c == '\t' || c == '\n' || c == '\x0b' || c == '\x0c' || c == '\r'

/-- The text without the blanks at its end. -/
def trimEnd (text : List Char) : List Char :=
  (text.reverse.dropWhile isBlank).reverse

/-- The text without the blanks at its two ends. -/
def trim (text : List Char) : List Char :=
  trimEnd (text.dropWhile isBlank)

/-- The parts between the separators, the first one apart. Two separators in a row have an empty
part between them. -/
def split (isSeparator : Char → Bool) : List Char → List Char × List (List Char)
  | [] => ([], [])
  | c :: rest =>
    let parts := split isSeparator rest
    if isSeparator c then ([], parts.1 :: parts.2) else (c :: parts.1, parts.2)

/-- The longest runs of characters that are not blank. -/
def words (text : List Char) : List (List Char) :=
  let parts := split isBlank text
  (parts.1 :: parts.2).filter (fun part => !part.isEmpty)

theorem not_isSeparator_of_mem_split {isSeparator : Char → Bool} {text part : List Char}
    (hp : part ∈ (split isSeparator text).1 :: (split isSeparator text).2) :
    ∀ c ∈ part, isSeparator c = false := by
  induction text generalizing part with
  | nil => simp_all [split]
  | cons d rest ih =>
    by_cases hd : isSeparator d = true
    · simp only [split, hd, if_true, List.mem_cons] at hp
      rcases hp with rfl | hp
      · simp
      · exact ih (List.mem_cons.2 hp)
    · simp only [split, hd] at hp
      rcases List.mem_cons.1 hp with rfl | hp
      · intro c hc
        rcases List.mem_cons.1 hc with rfl | hc
        · simpa using hd
        · exact ih (List.mem_cons.2 (.inl rfl)) c hc
      · exact ih (List.mem_cons.2 (.inr hp))

/-- Splitting at one character loses nothing: the parts, with that character between them, are
the text. -/
theorem intercalate_split (separator : Char) (text : List Char) :
    [separator].intercalate
      ((split (· == separator) text).1 :: (split (· == separator) text).2) = text := by
  induction text with
  | nil => rfl
  | cons d rest ih =>
    by_cases hd : d = separator
    · subst hd
      simpa [split, List.intercalate, List.intersperse] using ih
    · have hd' : (d == separator) = false := by simpa using hd
      simp only [split, hd']
      cases hr : (split (· == separator) rest).2 with
      | nil => simp_all [List.intercalate]
      | cons p ps => simp_all [List.intercalate]

end Stencil.Text
