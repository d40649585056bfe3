import Mathlib.Data.List.DropRight
import JobRelay.Model.Schema

/-! # Blank characters and validated texts

Three definitions of a blank character meet in the texts of a job: the Unicode property `White_Space`, which
the validation of a field strips, what `str.strip` of the API strips, and what `trim` of the page strips. The
validators return the text to store, or nothing when they raise.
-/

namespace JobRelay.Model

/-- The blank characters that all three definitions share. -/
def isSpaceSeparator (c : Char) : Bool :=
  (0x09 ≤ c.val && c.val ≤ 0x0d) || c.val = 0x20 || c.val = 0xa0 || c.val = 0x1680 ||
    (0x2000 ≤ c.val && c.val ≤ 0x200a) || c.val = 0x2028 || c.val = 0x2029 || c.val = 0x202f ||
    c.val = 0x205f || c.val = 0x3000

/-- The Unicode property `White_Space`, which `strip_whitespace` strips. -/
def isWhiteSpace (c : Char) : Bool := isSpaceSeparator c || c.val = 0x85

/-- What `str.strip()` strips. -/
def isPythonSpace (c : Char) : Bool := isWhiteSpace c || (0x1c ≤ c.val && c.val ≤ 0x1f)

/-- What `String.prototype.trim` strips: white space, line terminators and U+FEFF. -/
def isTrimmed (c : Char) : Bool := isSpaceSeparator c || c.val = 0xfeff

/-- A text without the blanks at its ends. -/
def stripped (blank : Char → Bool) (text : String) : String :=
  String.ofList ((text.toList.dropWhile blank).rdropWhile blank)

/-- A text with a character that is not blank. -/
def Visible (blank : Char → Bool) (text : String) : Prop := ∃ c ∈ text.toList, blank c = false

/-- Stripping leaves something of exactly the visible texts. -/
theorem stripped_isEmpty {blank : Char → Bool} {text : String} :
    (stripped blank text).isEmpty = false ↔ Visible blank text := by
  rw [Bool.eq_false_iff, ne_eq, String.isEmpty_iff, stripped, String.ofList_eq_empty_iff, List.rdropWhile_eq_nil_iff,
    Visible]
  constructor
  · intro some
    by_contra none
    refine some fun c member => ?_
    by_contra seen
    exact none ⟨c, (List.dropWhile_suffix blank).subset member, Bool.eq_false_iff.mpr seen⟩
  · rintro ⟨c, member, seen⟩ all
    have whole : ∀ c ∈ text.toList, blank c = true := by
      intro c member
      rw [← List.takeWhile_append_dropWhile (p := blank) (l := text.toList)] at member
      rcases List.mem_append.mp member with first | rest
      · exact List.mem_takeWhile_imp first
      · exact all c rest
    rw [whole c member] at seen
    cases seen

theorem stripped_stripped (blank : Char → Bool) (text : String) :
    stripped blank (stripped blank text) = stripped blank text := by
  have begins : ((text.toList.dropWhile blank).rdropWhile blank).dropWhile blank =
      (text.toList.dropWhile blank).rdropWhile blank := by
    refine List.dropWhile_eq_self_iff.mpr fun nonempty => ?_
    obtain ⟨rest, whole⟩ := List.rdropWhile_prefix blank (text.toList.dropWhile blank)
    have shorter := (List.rdropWhile_prefix blank (text.toList.dropWhile blank)).length_le
    have first := List.dropWhile_get_zero_not blank text.toList (nonempty.trans_le shorter)
    have same : (text.toList.dropWhile blank).get ⟨0, nonempty.trans_le shorter⟩ =
        ((text.toList.dropWhile blank).rdropWhile blank)[0] :=
      (List.IsPrefix.getElem ⟨rest, whole⟩ nonempty).symm
    rwa [same] at first
  rw [stripped, stripped, String.toList_ofList, begins, List.rdropWhile_idempotent]

/-- `_reject_control_characters`; the category `Cc` is the class `[[:cntrl:]]`. -/
def rejectControlCharacters (value : String) : Option String :=
  if value.toList.any isControl then none else some value

/-- `_require_visible_content`. -/
def requireVisibleContent (value : String) : Option String :=
  if (stripped isPythonSpace value).isEmpty then none else some value

/-- `StringConstraints(strip_whitespace=True, min_length=1, max_length=n)`, then the check of characters. -/
def strippedText (maxLength : ℕ) (value : String) : Option String :=
  let text := stripped isWhiteSpace value
  if 1 ≤ text.length ∧ text.length ≤ maxLength then rejectControlCharacters text else none

/-- The type `JobKind`. -/
def jobKind (value : String) : Option String := strippedText 100 value

/-- The type `JobPayload`. -/
def jobPayload (value : String) : Option String :=
  if 1 ≤ value.length then (rejectControlCharacters value).bind requireVisibleContent else none

theorem rejectControlCharacters_some {value text : String} :
    rejectControlCharacters value = some text ↔ value.toList.any isControl = false ∧ value = text := by
  rw [rejectControlCharacters]
  split <;> simp_all

/-- A validated text is stripped, short enough and without control characters. -/
theorem strippedText_some {maxLength : ℕ} {value text : String} :
    strippedText maxLength value = some text ↔ stripped isWhiteSpace value = text ∧
      (1 ≤ text.length ∧ text.length ≤ maxLength) ∧ text.toList.any isControl = false := by
  simp only [strippedText]
  constructor
  · intro accepted
    split at accepted
    · next fits =>
      obtain ⟨clean, rfl⟩ := rejectControlCharacters_some.mp accepted
      exact ⟨rfl, fits, clean⟩
    · cases accepted
  · rintro ⟨rfl, fits, clean⟩
    rw [if_pos fits]
    exact rejectControlCharacters_some.mpr ⟨clean, rfl⟩

/-- Validating a validated text again changes nothing. -/
theorem strippedText_again {maxLength : ℕ} {value text : String} (accepted : strippedText maxLength value = some text) :
    strippedText maxLength text = some text := by
  obtain ⟨rfl, fits, clean⟩ := strippedText_some.mp accepted
  exact strippedText_some.mpr ⟨stripped_stripped _ _, fits, clean⟩

theorem jobPayload_some {value : String} (visible : Visible isPythonSpace value)
    (clean : value.toList.any isControl = false) : jobPayload value = some value := by
  obtain ⟨c, member, _⟩ := id visible
  have long : 1 ≤ value.length := by
    rw [← String.length_toList]
    exact List.length_pos_of_mem member
  rw [jobPayload, if_pos long, rejectControlCharacters_some.mpr ⟨clean, rfl⟩, Option.bind_some,
    requireVisibleContent, stripped_isEmpty.mpr visible]
  rfl

/-- The database accepts every kind that the API accepts. -/
theorem kindAccepted_of_jobKind {isSpace : Char → Bool} (spaces : ∀ c, isSpace c = true → isWhiteSpace c = true)
    {value kind : String} (accepted : jobKind value = some kind) : kindAccepted isSpace kind = true := by
  obtain ⟨stripped_eq, fits, clean⟩ := strippedText_some.mp accepted
  have visible : Visible isWhiteSpace kind := by
    rw [← stripped_isEmpty, ← stripped_eq, stripped_stripped, stripped_eq, Bool.eq_false_iff, ne_eq,
      String.isEmpty_iff]
    rintro rfl
    exact absurd fits.1 (by decide)
  obtain ⟨c, member, seen⟩ := visible
  have content : kind.toList.any (fun c => !isSpace c) = true := by
    refine List.any_eq_true.mpr ⟨c, member, ?_⟩
    by_contra blank
    rw [spaces c (by simpa using blank)] at seen
    cases seen
  rw [kindAccepted, hasContent, content, clean, decide_eq_true fits]
  rfl

end JobRelay.Model
