import Mathlib.Data.List.SplitBy
import JobRelay.Model.Migrations

/-! # The separator of statements

`NEXT_STATEMENT_PATTERN` as the engine of regular expressions reads it, one character after the other, and its
matches in terms of lines: it matches the marker, with tabs and spaces around it, as a whole line. Splitting at
its matches is splitting the lines of a text at these lines.
-/

namespace JobRelay.Model.Migrations

/-- The class `[\t ]`. -/
def isTabOrSpace (c : Char) : Bool := c = '\t' || c = ' '

inductive LineEnd where
  | lf
  | crlf
deriving DecidableEq

def LineEnd.text : LineEnd → List Char
  | .lf => ['\n']
  | .crlf => ['\r', '\n']

/-- A line that consists of the marker, with tabs and spaces around it; only the last line may lack its end. -/
structure MarkerLine where
  lead : List Char
  trail : List Char
  lineEnd : Option LineEnd
  leads : ∀ c ∈ lead, isTabOrSpace c = true
  trails : ∀ c ∈ trail, isTabOrSpace c = true

namespace MarkerLine

def ending (line : MarkerLine) : List Char := (line.lineEnd.map LineEnd.text).getD []

def text (line : MarkerLine) : List Char :=
  line.lead ++ (NEXT_STATEMENT_MARKER.toList ++ (line.trail ++ line.ending))

/-- What follows the line is on the lines after it. -/
def Before (line : MarkerLine) (rest : List Char) : Prop := line.lineEnd = none → rest = []

end MarkerLine

section Blanks

private theorem dropWhile_blanks {blanks text : List Char} (all : ∀ c ∈ blanks, isTabOrSpace c = true)
    (first : ∀ c ∈ text.head?, isTabOrSpace c = false) : (blanks ++ text).dropWhile isTabOrSpace = text := by
  rw [List.dropWhile_append_of_pos all]
  cases text with
  | nil => rfl
  | cons c text => rw [List.dropWhile_cons, first c rfl, if_neg Bool.false_ne_true]

private theorem rdropWhile_blanks {blanks text : List Char} (all : ∀ c ∈ blanks, isTabOrSpace c = true)
    (last : ∀ c ∈ text.getLast?, isTabOrSpace c = false) : (text ++ blanks).rdropWhile isTabOrSpace = text := by
  have first : ∀ c ∈ text.reverse.head?, isTabOrSpace c = false := by
    rw [List.head?_reverse]
    exact last
  have reversed : ∀ c ∈ blanks.reverse, isTabOrSpace c = true := by
    intro c member
    exact all c (List.mem_reverse.mp member)
  rw [List.rdropWhile, List.reverse_append, dropWhile_blanks reversed first, List.reverse_reverse]

/-- The marker begins and ends with a visible character. -/
private theorem marker_first (rest : List Char) :
    ∀ c ∈ (NEXT_STATEMENT_MARKER.toList ++ rest).head?, isTabOrSpace c = false := by
  rw [List.head?_append_of_ne_nil _ (by decide), (by decide : NEXT_STATEMENT_MARKER.toList.head? = some '-')]
  rintro c ⟨⟩
  rfl

private theorem marker_last : ∀ c ∈ NEXT_STATEMENT_MARKER.toList.getLast?, isTabOrSpace c = false := by
  rw [(by decide : NEXT_STATEMENT_MARKER.toList.getLast? = some 't')]
  rintro c ⟨⟩
  rfl

private theorem last_of_blanks {text blanks : List Char} {last : Char} (ends : text.getLast? = some last)
    (all : ∀ c ∈ blanks, isTabOrSpace c = true) :
    ∃ c, (text ++ blanks).getLast? = some c ∧ (c = last ∨ isTabOrSpace c = true) := by
  rcases List.eq_nil_or_concat blanks with rfl | ⟨front, c, rfl⟩
  · exact ⟨last, by rw [List.append_nil, ends], .inl rfl⟩
  · refine ⟨c, ?_, .inr (all c (by simp))⟩
    rw [List.concat_eq_append, ← List.append_assoc, List.getLast?_concat]

end Blanks

namespace NEXT_STATEMENT_PATTERN

/-- Where `(?:\r?\n|$)` matches, what follows the match; `$` before a line feed comes too late. -/
def lineEnd : List Char → Option (List Char)
  | [] => some []
  | '\n' :: after => some after
  | '\r' :: '\n' :: after => some after
  | _ => none

/-- Where the pattern matches at the start of a line, what follows the match. -/
def after (text : List Char) : Option (List Char) :=
  let marked := text.dropWhile isTabOrSpace
  if NEXT_STATEMENT_MARKER.toList <+: marked then
    lineEnd ((marked.drop NEXT_STATEMENT_MARKER.toList.length).dropWhile isTabOrSpace)
  else none

theorem length_of_lineEnd {text rest : List Char} (ends : lineEnd text = some rest) :
    rest.length ≤ text.length := by
  unfold lineEnd at ends
  split at ends <;> simp only [Option.some.injEq, reduceCtorEq] at ends <;> subst ends <;> grind

theorem length_of_after {text rest : List Char} (found : after text = some rest) :
    rest.length < text.length := by
  rw [after] at found
  split at found
  · next marked =>
    have ends := length_of_lineEnd found
    have dropped := (List.dropWhile_sublist isTabOrSpace
      (l := (text.dropWhile isTabOrSpace).drop NEXT_STATEMENT_MARKER.toList.length)).length_le
    have marker := marked.length_le
    have blanks := (List.dropWhile_sublist isTabOrSpace (l := text)).length_le
    have positive : 0 < NEXT_STATEMENT_MARKER.toList.length := by decide
    rw [List.length_drop] at dropped
    omega
  · cases found

/-- `NEXT_STATEMENT_PATTERN.split`, after what is read of a piece, at the start of a line or not. -/
def split (start : Bool) (piece : List Char) : List Char → List (List Char)
  | [] => [piece]
  | c :: text =>
      match _found : if start then after (c :: text) else none with
      | some rest => piece :: split true [] rest
      | none => split (c = '\n') (piece ++ [c]) text
termination_by text => text.length
decreasing_by
  · cases start
    · cases _found
    · exact length_of_after _found
  · simp

end NEXT_STATEMENT_PATTERN

namespace NEXT_STATEMENT_PATTERN

theorem lineEnd_eq_some {text rest : List Char} : lineEnd text = some rest ↔
    ∃ ending : Option LineEnd, text = (ending.map LineEnd.text).getD [] ++ rest ∧ (ending = none → rest = []) := by
  constructor
  · intro ends
    unfold lineEnd at ends
    split at ends <;> simp only [Option.some.injEq, reduceCtorEq] at ends <;> subst ends
    · exact ⟨none, rfl, fun _ => rfl⟩
    · exact ⟨some .lf, rfl, by simp⟩
    · exact ⟨some .crlf, rfl, by simp⟩
  · rintro ⟨ending, rfl, last⟩
    rcases ending with _ | _ | _
    · rw [last rfl]
      rfl
    · rfl
    · rfl

/-- The pattern matches exactly the lines that consist of the marker. -/
theorem after_eq_some {text rest : List Char} :
    after text = some rest ↔ ∃ line : MarkerLine, text = line.text ++ rest ∧ line.Before rest := by
  constructor
  · intro found
    rw [after] at found
    split at found
    · next marked =>
      obtain ⟨behind, whole⟩ := marked
      rw [← whole, List.drop_left] at found
      obtain ⟨ending, same, last⟩ := lineEnd_eq_some.mp found
      let line : MarkerLine := ⟨text.takeWhile isTabOrSpace, behind.takeWhile isTabOrSpace, ending,
        fun c => List.mem_takeWhile_imp, fun c => List.mem_takeWhile_imp⟩
      have behind_eq : line.trail ++ (line.ending ++ rest) = behind := by
        rw [MarkerLine.ending, ← same, List.takeWhile_append_dropWhile]
      refine ⟨line, ?_, last⟩
      calc text = line.lead ++ (NEXT_STATEMENT_MARKER.toList ++ (line.trail ++ (line.ending ++ rest))) := by
            rw [behind_eq, whole, List.takeWhile_append_dropWhile]
        _ = line.text ++ rest := by simp only [MarkerLine.text, List.append_assoc]
    · cases found
  · rintro ⟨line, rfl, last⟩
    have marked : (line.text ++ rest).dropWhile isTabOrSpace =
        NEXT_STATEMENT_MARKER.toList ++ (line.trail ++ (line.ending ++ rest)) := by
      rw [MarkerLine.text, List.append_assoc, List.append_assoc, List.append_assoc]
      exact dropWhile_blanks line.leads (marker_first _)
    have ended : (line.trail ++ (line.ending ++ rest)).dropWhile isTabOrSpace = line.ending ++ rest := by
      apply dropWhile_blanks line.trails
      cases same : line.lineEnd with
      | none => simp [MarkerLine.ending, same, last same]
      | some ending => cases ending <;> simp [MarkerLine.ending, same, LineEnd.text, isTabOrSpace]
    rw [after, marked, if_pos (List.prefix_append _ _), List.drop_left, ended]
    exact lineEnd_eq_some.mpr ⟨line.lineEnd, rfl, last⟩

end NEXT_STATEMENT_PATTERN

namespace MarkerLine

variable (line : MarkerLine)

theorem text_eq : line.text = (line.lead ++ (NEXT_STATEMENT_MARKER.toList ++ line.trail)) ++ line.ending := by
  simp only [text, List.append_assoc]

/-- Before its end, the line does not end in a character of a line end. -/
theorem last : ∃ last, (line.lead ++ (NEXT_STATEMENT_MARKER.toList ++ line.trail)).getLast? = some last ∧
    last ≠ '\n' ∧ last ≠ '\r' := by
  have marked : (line.lead ++ NEXT_STATEMENT_MARKER.toList).getLast? = some 't' := by
    rw [List.getLast?_append_of_ne_nil _ (by decide)]
    decide
  obtain ⟨last, ends, kind⟩ := last_of_blanks marked line.trails
  refine ⟨last, by rw [← List.append_assoc, ends], ?_⟩
  constructor <;> rintro rfl <;> revert kind <;> decide

/-- A line feed can only be the last character of the line. -/
theorem inner : '\n' ∉ line.lead ++ (NEXT_STATEMENT_MARKER.toList ++ line.trail) := by
  simp only [List.mem_append, not_or]
  refine ⟨fun member => ?_, by decide, fun member => ?_⟩
  · exact absurd (line.leads _ member) (by decide)
  · exact absurd (line.trails _ member) (by decide)

end MarkerLine

section Lines

/-- A line is its text and its end. -/
private theorem untermined_append (line : List Char) :
    ∃ ending : Option LineEnd, untermined line ++ (ending.map LineEnd.text).getD [] = line := by
  rcases List.eq_nil_or_concat line with rfl | ⟨body, last, rfl⟩
  · exact ⟨none, rfl⟩
  · by_cases feed : last = '\n'
    · subst feed
      rcases List.eq_nil_or_concat body with rfl | ⟨front, before, rfl⟩
      · exact ⟨some .lf, rfl⟩
      · by_cases carriage : before = '\r'
        · subst carriage
          exact ⟨some .crlf, by simp [untermined, LineEnd.text]⟩
        · exact ⟨some .lf, by simp [untermined, LineEnd.text, carriage]⟩
    · exact ⟨none, by simp [untermined, feed]⟩

private theorem untermined_of_last {body : List Char} (ending : Option LineEnd) {last : Char}
    (ends : body.getLast? = some last) (feed : last ≠ '\n') (carriage : last ≠ '\r') :
    untermined (body ++ (ending.map LineEnd.text).getD []) = body := by
  rcases ending with _ | _ | _
  · simp [untermined, ends, feed]
  · simp [untermined, LineEnd.text, ends, carriage]
  · have whole : body ++ ['\r', '\n'] = (body ++ ['\r']) ++ ['\n'] := by simp
    simp only [Option.map_some, Option.getD_some, LineEnd.text, whole, untermined, List.getLast?_concat,
      List.dropLast_concat, if_true]

/-- The lines that the model takes for separators are those that consist of the marker. -/
theorem isNextStatement_iff {text : List Char} : isNextStatement text = true ↔ ∃ line : MarkerLine, text = line.text := by
  have unfolded : isNextStatement text = true ↔ ((untermined text).dropWhile isTabOrSpace).rdropWhile isTabOrSpace =
      NEXT_STATEMENT_MARKER.toList := decide_eq_true_iff
  rw [unfolded]
  constructor
  · intro same
    obtain ⟨ending, whole⟩ := untermined_append text
    let line : MarkerLine := ⟨(untermined text).takeWhile isTabOrSpace,
      ((untermined text).dropWhile isTabOrSpace).rtakeWhile isTabOrSpace, ending,
      fun c => List.mem_takeWhile_imp, fun c => List.mem_rtakeWhile_imp⟩
    have behind : NEXT_STATEMENT_MARKER.toList ++ line.trail = (untermined text).dropWhile isTabOrSpace := by
      rw [← same, List.rdropWhile_append_rtakeWhile]
    refine ⟨line, ?_⟩
    calc text = (line.lead ++ (NEXT_STATEMENT_MARKER.toList ++ line.trail)) ++ line.ending := by
          rw [behind, List.takeWhile_append_dropWhile]
          exact whole.symm
      _ = line.text := line.text_eq.symm
  · rintro ⟨line, rfl⟩
    obtain ⟨last, ends, feed, carriage⟩ := line.last
    rw [line.text_eq, MarkerLine.ending, untermined_of_last _ ends feed carriage, dropWhile_blanks line.leads,
      rdropWhile_blanks line.trails marker_last]
    exact marker_first _

/-- The lines of a text, each with its end. -/
abbrev lines (text : List Char) : List (List Char) := text.splitBy fun c _ => c != '\n'

/-- A text whose last line is complete. -/
def EndsLine (text : List Char) : Prop := text = [] ∨ text.getLast? = some '\n'

instance (text : List Char) : Decidable (EndsLine text) := inferInstanceAs (Decidable (_ ∨ _))

/-- A line in front of the rest of a text. -/
structure FirstLine (line rest : List Char) : Prop where
  nonempty : line ≠ []
  inner : '\n' ∉ line.dropLast
  ends : line.getLast? = some '\n' ∨ rest = []

theorem lines_append {text : List Char} (ends : EndsLine text) (rest : List Char) :
    lines (text ++ rest) = lines text ++ lines rest := by
  apply List.splitBy_append
  intro last found _ _
  rcases ends with rfl | ends
  · cases found
  · rw [ends] at found
    cases found
    rfl

namespace FirstLine

variable {line rest : List Char}

private theorem chain {front : List Char} (inner : '\n' ∉ front) (last : Char) :
    (front ++ [last]).IsChain fun c _ => (c != '\n') = true := by
  induction front with
  | nil => exact .singleton last
  | cons c front ih =>
    rw [List.mem_cons, not_or] at inner
    rw [List.cons_append, List.isChain_cons]
    exact ⟨fun _ _ => by simpa using Ne.symm inner.1, ih inner.2⟩

theorem of_feed {front : List Char} (inner : '\n' ∉ front) (rest : List Char) :
    FirstLine (front ++ ['\n']) rest where
  nonempty := by simp
  inner := by rwa [List.dropLast_concat]
  ends := .inl (by rw [List.getLast?_concat])

theorem lines_eq (first : FirstLine line rest) : lines (line ++ rest) = line :: lines rest := by
  have single : lines line = [line] := by
    apply List.splitBy_of_isChain first.nonempty
    rw [← List.dropLast_append_getLast first.nonempty]
    exact chain first.inner _
  rcases first.ends with feed | rfl
  · rw [lines_append (.inr feed), single]
    rfl
  · rw [List.append_nil, single]
    rfl

/-- A text has one first line. -/
theorem unique (first : FirstLine line rest) {other behind : List Char} (second : FirstLine other behind)
    (same : line ++ rest = other ++ behind) : line = other := by
  have equal := first.lines_eq
  rw [same, second.lines_eq] at equal
  exact (List.cons.inj equal).1.symm

end FirstLine

/-- Induction over the lines of a text. -/
theorem lines_induction {motive : List Char → Prop} (nil : motive [])
    (step : ∀ line rest, FirstLine line rest → motive rest → motive (line ++ rest)) (text : List Char) :
    motive text := by
  induction size : text.length using Nat.strong_induction_on generalizing text with
  | _ length ih =>
    by_cases feed : '\n' ∈ text
    · obtain ⟨front, rest, rfl, inner⟩ := List.eq_append_cons_of_mem feed
      have first : FirstLine (front ++ ['\n']) rest := .of_feed inner rest
      rw [List.length_append, List.length_cons] at size
      rw [List.append_cons]
      exact step _ rest first (ih rest.length (by omega) rest rfl)
    · by_cases empty : text = []
      · exact empty ▸ nil
      · have first : FirstLine text [] := ⟨empty, fun member => feed (List.mem_of_mem_dropLast member), .inr rfl⟩
        rw [← List.append_nil text]
        exact step text [] first nil

/-- A line of the marker, before what follows it. -/
theorem MarkerLine.first {line : MarkerLine} {rest : List Char} (before : line.Before rest) :
    FirstLine line.text rest := by
  obtain ⟨last, ends, feed, -⟩ := line.last
  have inner := line.inner
  rw [line.text_eq]
  cases same : line.lineEnd with
  | none =>
    rw [ending, same, Option.map_none, Option.getD_none, List.append_nil]
    refine ⟨?_, fun member => inner (List.mem_of_mem_dropLast member), .inr (before same)⟩
    rintro empty
    rw [empty] at ends
    cases ends
  | some lineEnd =>
    cases lineEnd with
    | lf =>
      rw [ending, same]
      exact .of_feed inner rest
    | crlf =>
      have split : LineEnd.crlf.text = ['\r'] ++ ['\n'] := rfl
      rw [ending, same, Option.map_some, Option.getD_some, split, ← List.append_assoc]
      exact .of_feed (by simpa using inner) rest

theorem MarkerLine.before_of_first (line : MarkerLine) {rest : List Char} (first : FirstLine line.text rest) :
    line.Before rest := by
  intro unended
  obtain ⟨last, ends, feed, -⟩ := line.last
  rcases first.ends with fed | empty
  · rw [line.text_eq, ending, unended, Option.map_none, Option.getD_none, List.append_nil, ends] at fed
    exact absurd (Option.some.inj fed) feed
  · exact empty

theorem EndsLine.append {line rest before : List Char} (first : FirstLine line rest) (nonempty : rest ≠ [])
    (ends : EndsLine before) : EndsLine (line ++ before) := by
  rcases ends with rfl | ends
  · rw [List.append_nil]
    exact .inr (first.ends.resolve_right nonempty)
  · right
    rw [List.getLast?_append, ends]
    rfl

/-- The lines of a text that are separators. -/
theorem exists_marker_line {text : List Char} : (∃ line ∈ lines text, isNextStatement line = true) ↔
    ∃ before after, ∃ line : MarkerLine, text = before ++ (line.text ++ after) ∧ EndsLine before ∧ line.Before after := by
  constructor
  · induction text using lines_induction with
    | nil => simp
    | step line rest first ih =>
      rw [first.lines_eq]
      rintro ⟨marked, member, next⟩
      rcases List.mem_cons.mp member with rfl | later
      · obtain ⟨marker, rfl⟩ := isNextStatement_iff.mp next
        exact ⟨[], rest, marker, rfl, .inl rfl, marker.before_of_first first⟩
      · obtain ⟨before, after, marker, rfl, ends, last⟩ := ih ⟨marked, later, next⟩
        have nonempty : before ++ (marker.text ++ after) ≠ [] := by
          simp [(MarkerLine.first last).nonempty]
        exact ⟨line ++ before, after, marker, by rw [List.append_assoc], ends.append first nonempty, last⟩
  · rintro ⟨before, after, line, rfl, ends, last⟩
    refine ⟨line.text, ?_, isNextStatement_iff.mpr ⟨line, rfl⟩⟩
    rw [lines_append ends, (MarkerLine.first last).lines_eq]
    simp

end Lines

namespace NEXT_STATEMENT_PATTERN

variable {line rest piece : List Char}

theorem after_of_next (first : FirstLine line rest) (next : isNextStatement line = true) :
    after (line ++ rest) = some rest := by
  obtain ⟨marker, rfl⟩ := isNextStatement_iff.mp next
  exact after_eq_some.mpr ⟨marker, rfl, marker.before_of_first first⟩

theorem after_of_other (first : FirstLine line rest) (other : isNextStatement line = false) :
    after (line ++ rest) = none := by
  by_contra found
  obtain ⟨behind, found⟩ := Option.ne_none_iff_exists'.mp found
  obtain ⟨marker, whole, last⟩ := after_eq_some.mp found
  obtain rfl := first.unique (MarkerLine.first last) whole
  rw [isNextStatement_iff.mpr ⟨marker, rfl⟩] at other
  cases other

theorem split_of_some {text : List Char} (found : after text = some rest) :
    split true piece text = piece :: split true [] rest := by
  cases text with
  | nil => cases found
  | cons c text =>
    rw [split]
    split
    · next other same =>
      rw [if_pos rfl, found] at same
      cases same
      rfl
    · next same =>
      rw [if_pos rfl, found] at same
      cases same

/-- Where the pattern does not match, a piece goes on. -/
theorem split_of_none {text : List Char} (none : after text = none) : split true piece text = split false piece text := by
  cases text with
  | nil => rw [split, split]
  | cons c text =>
    rw [split, split]
    split
    · next found =>
      rw [if_pos rfl, none] at found
      cases found
    · rfl

theorem split_inside {front : List Char} (inner : '\n' ∉ front) :
    split false piece (front ++ rest) = split false (piece ++ front) rest := by
  induction front generalizing piece with
  | nil => simp
  | cons c front ih =>
    rw [List.mem_cons, not_or] at inner
    rw [List.cons_append, split]
    simp [Ne.symm inner.1, ih inner.2]

theorem split_other (first : FirstLine line rest) (other : isNextStatement line = false) :
    split true piece (line ++ rest) = split true (piece ++ line) rest := by
  have whole := List.dropLast_append_getLast first.nonempty
  rw [split_of_none (after_of_other first other), ← whole, List.append_assoc, split_inside first.inner]
  rcases first.ends with feed | rfl
  · have last : line.getLast first.nonempty = '\n' := by
      rw [List.getLast?_eq_getLast_of_ne_nil first.nonempty] at feed
      exact Option.some.inj feed
    rw [last, List.singleton_append, split]
    simp
  · simp [split]

/-- Splitting at the matches of the pattern is splitting the lines at those that consist of the marker. -/
theorem split_eq (text : List Char) : split true piece text =
    (((lines text).splitOnP isNextStatement).map List.flatten).modifyHead (piece ++ ·) := by
  induction text using lines_induction generalizing piece with
  | nil => simp [split]
  | step line rest first ih =>
    rw [first.lines_eq, List.splitOnP_cons_eq_if_modifyHead]
    cases next : isNextStatement line with
    | true =>
      rw [split_of_some (after_of_next first next), ih]
      obtain ⟨head, tail, pieces⟩ := List.exists_cons_of_ne_nil (List.splitOnP_ne_nil isNextStatement (lines rest))
      simp [pieces]
    | false =>
      rw [split_other first next, ih]
      obtain ⟨head, tail, pieces⟩ := List.exists_cons_of_ne_nil (List.splitOnP_ne_nil isNextStatement (lines rest))
      simp [pieces]

end NEXT_STATEMENT_PATTERN

/-- `[statement for statement in NEXT_STATEMENT_PATTERN.split(sql) if statement.strip()]` -/
theorem nonTransactionalStatements_eq (sql : String) : nonTransactionalStatements sql =
    ((NEXT_STATEMENT_PATTERN.split true [] sql.toList).map String.ofList).filter
      fun statement => !(stripped isPythonSpace statement).isEmpty := by
  rw [NEXT_STATEMENT_PATTERN.split_eq, nonTransactionalStatements]
  obtain ⟨head, tail, pieces⟩ := List.exists_cons_of_ne_nil (List.splitOnP_ne_nil isNextStatement (lines sql.toList))
  simp [pieces, Function.comp_def]

end JobRelay.Model.Migrations
