import JobRelay.Model.NextStatement

/-! # Joined statements

What the runner reads of a migration whose statements were joined with lines of the marker: exactly the
statements, each with the line ends between it and the marker. Blanks between two markers are no statement.
-/

namespace JobRelay.Guarantees

open Model Model.Migrations

/-- A statement of a migration, with the line ends that are put after it. -/
structure Piece where
  statement : String
  ends : List LineEnd

def Piece.text (piece : Piece) : String :=
  piece.statement ++ String.ofList (piece.ends.map LineEnd.text).flatten

/-- A text has a line that consists only of the marker, with tabs and spaces around it. -/
def HasMarkerLine (text : String) : Prop :=
  ∃ before after, ∃ line : MarkerLine, text.toList = before ++ (line.text ++ after) ∧ EndsLine before ∧
    line.Before after

theorem hasMarkerLine_iff {text : String} :
    HasMarkerLine text ↔ ∃ line ∈ lines text.toList, isNextStatement line = true := exists_marker_line.symm

instance (text : String) : Decidable (HasMarkerLine text) := decidable_of_iff _ hasMarkerLine_iff.symm

instance (blank : Char → Bool) (text : String) : Decidable (Visible blank text) :=
  List.decidableBEx (fun c => blank c = false) text.toList

/-- The texts in which lines of the marker stand between pieces and blanks, and maybe at the end. -/
inductive Joined : List Piece → List Char → Prop where
  | blanks {text : List Char} (blank : ∀ c ∈ text, isPythonSpace c = true) : Joined [] text
  | statement (statement : String) : Joined [⟨statement, []⟩] statement.toList
  | afterBlanks {text rest : List Char} {pieces : List Piece} (line : MarkerLine)
      (blank : ∀ c ∈ text, isPythonSpace c = true) (ends : EndsLine text) (before : line.Before rest)
      (joined : Joined pieces rest) : Joined pieces (text ++ (line.text ++ rest))
  | afterPiece {rest : List Char} {pieces : List Piece} (piece : Piece) (line : MarkerLine)
      (ends : EndsLine piece.text.toList) (before : line.Before rest) (joined : Joined pieces rest) :
      Joined (piece :: pieces) (piece.text.toList ++ (line.text ++ rest))

section Pieces

/-- What is read of a text without a line of the marker. -/
theorem statements_of_clean {text : String} (clean : ¬HasMarkerLine text) :
    nonTransactionalStatements text = [text].filter fun statement => !(stripped isPythonSpace statement).isEmpty := by
  have none : ∀ line ∈ lines text.toList, isNextStatement line = false := by
    intro line member
    by_contra next
    exact clean (hasMarkerLine_iff.mpr ⟨line, member, by simpa using next⟩)
  rw [nonTransactionalStatements, List.splitOnP_eq_singleton none]
  simp

/-- A line of the marker parts what is read before it from what is read after it. -/
theorem statements_of_line {text : String} (ends : EndsLine text.toList) {line : MarkerLine} {rest : List Char}
    (before : line.Before rest) :
    nonTransactionalStatements (String.ofList (text.toList ++ (line.text ++ rest))) =
      nonTransactionalStatements text ++ nonTransactionalStatements (String.ofList rest) := by
  have next : isNextStatement line.text = true := isNextStatement_iff.mpr ⟨line, rfl⟩
  have split : lines (text.toList ++ (line.text ++ rest)) = lines text.toList ++ line.text :: lines rest := by
    rw [lines_append ends, (MarkerLine.first before).lines_eq]
  rw [nonTransactionalStatements, String.toList_ofList]
  change List.filter _ (List.map _ ((lines _).splitOnP _)) = _
  rw [split, List.splitOnP_append_cons _ _ next, List.map_append, List.filter_append]
  simp only [nonTransactionalStatements, String.toList_ofList]

theorem not_hasMarkerLine_of_blank {text : List Char} (blank : ∀ c ∈ text, isPythonSpace c = true) :
    ¬HasMarkerLine (String.ofList text) := by
  rintro ⟨before, after, line, whole, -, -⟩
  rw [String.toList_ofList] at whole
  have member : '-' ∈ text := by
    have marker : '-' ∈ NEXT_STATEMENT_MARKER.toList := by decide
    rw [whole, MarkerLine.text]
    simp [marker]
  exact absurd (blank '-' member) (by decide)

theorem statements_of_blank {text : List Char} (blank : ∀ c ∈ text, isPythonSpace c = true) :
    nonTransactionalStatements (String.ofList text) = [] := by
  have unseen : ¬Visible isPythonSpace (String.ofList text) := by
    rintro ⟨c, member, seen⟩
    rw [String.toList_ofList] at member
    rw [blank c member] at seen
    cases seen
  rw [statements_of_clean (not_hasMarkerLine_of_blank blank)]
  simpa [← stripped_isEmpty] using unseen

/-- A piece is read as it is. -/
theorem statements_of_piece {piece : Piece} (visible : Visible isPythonSpace piece.statement)
    (clean : ¬HasMarkerLine piece.text) : nonTransactionalStatements piece.text = [piece.text] := by
  obtain ⟨c, member, seen⟩ := visible
  have shown : Visible isPythonSpace piece.text := ⟨c, by simp [Piece.text, member], seen⟩
  rw [statements_of_clean clean]
  simp [stripped_isEmpty.mpr shown]

end Pieces

/-- Splitting a text of joined statements gives them back, in their order, each with the line ends before its
marker: no statement is lost, merged with another or split. With its line ends none may have a line of the marker. -/
theorem joined_statements {pieces : List Piece} {sql : String} (joined : Joined pieces sql.toList)
    (statements : ∀ piece ∈ pieces, Visible isPythonSpace piece.statement ∧ ¬HasMarkerLine piece.text) :
    nonTransactionalStatements sql = pieces.map Piece.text := by
  rw [← String.ofList_toList (s := sql)]
  generalize sql.toList = text at joined
  induction joined with
  | blanks blank => exact statements_of_blank blank
  | statement statement =>
    obtain ⟨visible, clean⟩ := statements _ (List.mem_singleton_self _)
    have whole : (Piece.mk statement []).text = statement := by simp [Piece.text]
    have read := statements_of_piece visible clean
    rw [whole] at read
    simp [whole, read]
  | @afterBlanks text rest pieces line blank ends before _ ih =>
    have parted := @statements_of_line (String.ofList text) (by simpa using ends) line rest before
    rw [String.toList_ofList, statements_of_blank blank, List.nil_append] at parted
    rw [parted, ih statements]
  | @afterPiece rest pieces piece line ends before _ ih =>
    obtain ⟨visible, clean⟩ := statements piece (List.mem_cons_self ..)
    rw [statements_of_line ends before, statements_of_piece visible clean,
      ih fun other member => statements other (List.mem_cons_of_mem _ member)]
    rfl

/-- A blank line, a marker in a longer line, lines that end either way, and a marker that ends the text. -/
def joinedMigration : String :=
  "\n\t-- migration: next-statement\nSELECT 'a;b'; -- migration: next-statement?\r\n" ++
    "-- migration: next-statement \r\nSELECT 2;\n-- migration: next-statement"

theorem joined_statements_migration : nonTransactionalStatements joinedMigration =
    ["SELECT 'a;b'; -- migration: next-statement?\r\n", "SELECT 2;\n"] := by
  have last : Joined [] [] := .blanks (by simp)
  have second := Joined.afterPiece ⟨"SELECT 2;", [.lf]⟩ ⟨[], [], none, by simp, by simp⟩ (by decide) (fun _ => rfl) last
  have first := Joined.afterPiece ⟨"SELECT 'a;b'; -- migration: next-statement?", [.crlf]⟩
    ⟨[], [' '], some .crlf, by simp, by simp [isTabOrSpace]⟩ (by decide) (by simp [MarkerLine.Before]) second
  have blank : ∀ c ∈ ['\n'], isPythonSpace c = true := by
    intro c member
    rw [List.mem_singleton.mp member]
    decide
  have joined := @Joined.afterBlanks ['\n'] _ _ ⟨['\t'], [], some .lf, by simp [isTabOrSpace], by simp⟩ blank (by decide)
    (by simp [MarkerLine.Before]) first
  obtain ⟨text, whole, joined⟩ : ∃ text, joinedMigration.toList = text ∧ Joined _ text :=
    ⟨_, by decide +kernel, joined⟩
  rw [← whole] at joined
  exact joined_statements joined (by decide +kernel)

/-- A statement whose last line is the marker and a carriage return, which is no line of the marker yet. -/
def carriageStatement : String := "SELECT 1;\n-- migration: next-statement\r"

/-- The line feed put after the statement makes its last line a line of the marker, and the line is lost. -/
theorem carriage_statement_cut : Visible isPythonSpace carriageStatement ∧ ¬HasMarkerLine carriageStatement ∧
    ∃ sql : String, Joined [⟨carriageStatement, [.lf]⟩] sql.toList ∧
      nonTransactionalStatements sql = ["SELECT 1;\n"] := by
  refine ⟨by decide +kernel, by decide +kernel, carriageStatement ++ "\n-- migration: next-statement\n", ?_,
    by decide +kernel⟩
  have last : Joined [] [] := .blanks (by simp)
  have joined := Joined.afterPiece ⟨carriageStatement, [.lf]⟩ ⟨[], [], some .lf, by simp, by simp⟩ (by decide)
    (by simp [MarkerLine.Before]) last
  obtain ⟨text, whole, joined⟩ : ∃ text,
      (carriageStatement ++ "\n-- migration: next-statement\n").toList = text ∧ Joined _ text :=
    ⟨_, by decide +kernel, joined⟩
  rw [← whole] at joined
  exact joined

end JobRelay.Guarantees
