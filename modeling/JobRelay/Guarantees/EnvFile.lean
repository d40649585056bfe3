import JobRelay.Model.EnvFile

/-! # What the services read from their environment files

A file that decodes yields entries whose keys and values have a plain form, and these are exactly the entries that can
be written as `KEY="value"` lines and read back. Reading a file never touches a variable that the process has.
-/

namespace JobRelay.Guarantees

open Sessions Model EnvFile

/-! ## Stripped texts -/

theorem dropWhile_of_head {blank : Char → Bool} {text : List Char} (begins : ∀ c ∈ text.head?, blank c = false) :
    text.dropWhile blank = text := by
  apply List.dropWhile_eq_self_iff.mpr
  intro long
  rw [begins _ (List.head?_eq_getElem? ▸ List.getElem?_eq_getElem long)]
  exact Bool.false_ne_true

theorem rdropWhile_of_last {blank : Char → Bool} {text : List Char} (ends : ∀ c ∈ text.getLast?, blank c = false) :
    text.rdropWhile blank = text := by
  apply List.rdropWhile_eq_self_iff.mpr
  intro nonempty
  rw [ends _ (List.getLast?_eq_some_getLast nonempty)]
  exact Bool.false_ne_true

/-- A text is stripped where neither of its ends is blank. -/
theorem stripped_eq_iff {blank : Char → Bool} {text : String} :
    stripped blank text = text ↔
      (∀ c ∈ text.toList.head?, blank c = false) ∧ ∀ c ∈ text.toList.getLast?, blank c = false := by
  constructor
  · intro same
    have prefixed := List.rdropWhile_prefix blank (text.toList.dropWhile blank)
    have whole : (text.toList.dropWhile blank).rdropWhile blank = text.toList := by
      rw [← String.toList_ofList (l := (text.toList.dropWhile blank).rdropWhile blank)]
      exact congrArg String.toList same
    have shorter : (text.toList.dropWhile blank).length ≤ text.toList.length :=
      (List.dropWhile_suffix blank).length_le
    have left : text.toList.dropWhile blank = text.toList := by
      apply (List.dropWhile_suffix blank).eq_of_length
      have longer := prefixed.length_le
      rw [whole] at longer
      omega
    rw [left] at whole
    constructor
    · intro c first
      cases read : text.toList with
      | nil =>
        rw [read] at first
        cases first
      | cons head rest =>
        rw [read] at first left
        obtain rfl : head = c := by simpa using first
        have seen := List.dropWhile_eq_self_iff.mp left (Nat.succ_pos _)
        simpa using seen
    · intro c final
      have nonempty : text.toList ≠ [] := by
        rintro none
        rw [none] at final
        cases final
      have seen := List.rdropWhile_eq_self_iff.mp whole nonempty
      rw [List.getLast?_eq_some_getLast nonempty] at final
      obtain rfl : text.toList.getLast nonempty = c := by simpa using final
      simpa using seen
  · rintro ⟨begins, ends⟩
    rw [stripped, dropWhile_of_head begins, rdropWhile_of_last ends, String.ofList_toList]

/-- The characters of a stripped text are characters of the text. -/
theorem mem_stripped {blank : Char → Bool} {text : String} {c : Char} (member : c ∈ (stripped blank text).toList) :
    c ∈ text.toList := by
  rw [stripped, String.toList_ofList] at member
  exact (List.dropWhile_suffix blank).subset ((List.rdropWhile_prefix blank _).subset member)

theorem head_of_prefix {short long : List Char} (prefixed : short <+: long) {c : Char} (first : short.head? = some c) :
    long.head? = some c := by
  obtain ⟨rest, rfl⟩ := prefixed
  rw [List.head?_append, first, Option.some_or]

/-- A text that begins with a character that is not blank keeps it. -/
theorem head_stripped {blank : Char → Bool} {text : String} (begins : ∀ c ∈ text.toList.head?, blank c = false)
    {c : Char} (first : (stripped blank text).toList.head? = some c) : text.toList.head? = some c := by
  rw [stripped, dropWhile_of_head begins, String.toList_ofList] at first
  exact head_of_prefix (List.rdropWhile_prefix blank text.toList) first

/-! ## Lines -/

theorem boundary_newline : isLineBoundary '\n' = true := rfl

theorem boundary_return : isLineBoundary '\r' = true := rfl

/-- No line has a character that ends lines. -/
theorem boundary_of_mem_line {file line : List Char} {c : Char} (cut : line ∈ splitLines file) (member : c ∈ line) :
    isLineBoundary c = false := by
  induction file using splitLines.induct generalizing line with
  | case1 => cases cut
  | case2 rest ih =>
    rw [splitLines] at cut
    rcases List.mem_cons.mp cut with rfl | later
    · cases member
    · exact ih later member
  | case3 head rest plain ends ih =>
    rw [splitLines, if_pos ends] at cut
    · rcases List.mem_cons.mp cut with rfl | later
      · cases member
      · exact ih later member
    · exact plain
  | case4 head rest plain inside none ih =>
    rw [splitLines, if_neg inside, none] at cut
    · obtain rfl := List.mem_singleton.mp cut
      obtain rfl := List.mem_singleton.mp member
      exact Bool.eq_false_iff.mpr inside
    · exact plain
  | case5 head rest plain inside first lines more ih =>
    rw [splitLines, if_neg inside, more] at cut
    · rw [more] at ih
      rcases List.mem_cons.mp cut with rfl | later
      · rcases List.mem_cons.mp member with rfl | member
        · exact Bool.eq_false_iff.mpr inside
        · exact ih (List.mem_cons_self ..) member
      · exact ih (List.mem_cons_of_mem _ later) member
    · exact plain

/-- A line that ends in a newline is cut off there. -/
theorem splitLines_line {line : List Char} (inside : ∀ c ∈ line, isLineBoundary c = false) (rest : List Char) :
    splitLines (line ++ '\n' :: rest) = line :: splitLines rest := by
  induction line with
  | nil =>
    rw [List.nil_append, splitLines, if_pos boundary_newline]
    intro _ impossible
    cases impossible
  | cons head tail ih =>
    have ordinary := inside head (List.mem_cons_self ..)
    rw [List.cons_append, splitLines, if_neg (Bool.eq_false_iff.mp ordinary),
      ih fun c member => inside c (List.mem_cons_of_mem _ member)]
    rintro _ rfl _
    exact Bool.false_ne_true (ordinary.symm.trans boundary_return)

/-- Where no carriage return stands, reading changes nothing. -/
theorem translateNewlines_of_no_return {text : List Char} (clean : '\r' ∉ text) : translateNewlines text = text := by
  induction text with
  | nil => rfl
  | cons head rest ih =>
    have other : head ≠ '\r' := fun same => clean (same ▸ List.mem_cons_self ..)
    rw [translateNewlines, ih fun member => clean (List.mem_cons_of_mem _ member)]
    · intro _ same
      exact absurd same other
    · exact other

/-- A text is read from its own bytes. -/
theorem readText_toUTF8 (text : String) : readText text.toUTF8 = .ok (translateNewlines text.toList) := by
  have valid : text.toUTF8.IsValidUTF8 := text.isValidUTF8
  have decodes : String.fromUTF8? text.toUTF8 = some text := by
    rw [String.fromUTF8?, dif_pos valid]
    rfl
  rw [readText, decodes]

/-- What is not UTF-8 cannot be read. -/
theorem readText_ok {file : ByteArray} : (∃ text, readText file = .ok text) ↔ file.IsValidUTF8 := by
  rw [readText, String.fromUTF8?]
  by_cases valid : file.IsValidUTF8
  · simp [valid]
  · simp [valid]

/-! ## Entries -/

/-- The plain form of an entry. -/
structure Writable (entry : String × String) : Prop where
  named : entry.1 ≠ ""
  key_stripped : stripped isPythonSpace entry.1 = entry.1
  no_comment : entry.1.toList.head? ≠ some '#'
  no_equals : '=' ∉ entry.1.toList
  key_inside : ∀ c ∈ entry.1.toList, isLineBoundary c = false
  unquoted : stripped isQuote entry.2 = entry.2
  value_inside : ∀ c ∈ entry.2.toList, isLineBoundary c = false

/-- The line of an entry, without its newline. -/
def writeEntry (entry : String × String) : List Char :=
  entry.1.toList ++ '=' :: '"' :: (entry.2.toList ++ ['"'])

/-- A file with one line for each entry. -/
def writeEnvFile (values : Values) : ByteArray :=
  (String.ofList (values.rows.flatMap fun entry => writeEntry entry ++ ['\n'])).toUTF8

/-- What a line is read as has the plain form. -/
theorem writable_parseLine {line : List Char} (inside : ∀ c ∈ line, isLineBoundary c = false)
    {entry : String × String} (accepted : parseLine line = some entry) : Writable entry := by
  simp only [parseLine] at accepted
  set text := stripped isPythonSpace (String.ofList line) with bare
  have contained : ∀ c ∈ text.toList, c ∈ line := by
    intro c member
    have member := mem_stripped member
    rwa [String.toList_ofList] at member
  split at accepted
  · cases accepted
  · next passed =>
    split at accepted
    · cases accepted
    · next nonempty =>
      obtain rfl := Option.some.inj accepted
      have left : ∀ c, c ∈ (stripped isPythonSpace (String.ofList (text.toList.takeWhile (· ≠ '=')))).toList →
          c ∈ text.toList.takeWhile (· ≠ '=') := by
        intro c member
        have member := mem_stripped member
        rwa [String.toList_ofList] at member
      have right : ∀ c, c ∈ (stripped isQuote (stripped isPythonSpace
          (String.ofList (text.toList.dropWhile (· ≠ '=')).tail))).toList → c ∈ text.toList := by
        intro c member
        have member := mem_stripped (mem_stripped member)
        rw [String.toList_ofList] at member
        exact (List.dropWhile_suffix _).subset (List.mem_of_mem_tail member)
      refine ⟨?named, stripped_stripped _ _, ?no_comment, ?no_equals, ?key_inside, stripped_stripped _ _,
        ?value_inside⟩
      case named =>
        rw [ne_eq, ← String.isEmpty_iff]
        exact nonempty
      case no_comment =>
        intro comment
        have begins := (stripped_eq_iff.mp (stripped_stripped isPythonSpace (String.ofList line))).1
        have leading : ∀ c, (text.toList.takeWhile (· ≠ '=')).head? = some c → text.toList.head? = some c :=
          fun _ first => head_of_prefix (List.takeWhile_prefix _) first
        -- the key begins where the line does, which is not blank
        have key : (String.ofList (text.toList.takeWhile (· ≠ '='))).toList.head? = some '#' := by
          refine head_stripped ?_ comment
          intro c first
          rw [String.toList_ofList] at first
          exact begins c (leading c first)
        rw [String.toList_ofList] at key
        exact passed (.inr (.inl (leading _ key)))
      case no_equals =>
        intro member
        have other := List.mem_takeWhile_imp (left _ member)
        simp at other
      case key_inside =>
        intro c member
        exact inside c (contained c ((List.takeWhile_prefix _).subset (left c member)))
      case value_inside =>
        intro c member
        exact inside c (contained c (right c member))

private theorem takeWhile_writeEntry {key : List Char} (plain : '=' ∉ key) (rest : List Char) :
    (key ++ '=' :: rest).takeWhile (· ≠ '=') = key ∧ (key ++ '=' :: rest).dropWhile (· ≠ '=') = '=' :: rest := by
  have other : ∀ c ∈ key, decide (c ≠ '=') = true := by
    intro c member
    exact decide_eq_true fun same => plain (same ▸ member)
  constructor
  · rw [List.takeWhile_append_of_pos other, List.takeWhile_cons_of_neg (by decide), List.append_nil]
  · rw [List.dropWhile_append_of_pos other, List.dropWhile_cons_of_neg (by decide)]

/-- Quotes around a text without blank ends come off, and no more. -/
theorem stripped_quoted {value : String} (unquoted : stripped isQuote value = value) :
    stripped isQuote (stripped isPythonSpace (String.ofList ('"' :: (value.toList ++ ['"'])))) = value := by
  have quoted : stripped isPythonSpace (String.ofList ('"' :: (value.toList ++ ['"']))) =
      String.ofList ('"' :: (value.toList ++ ['"'])) := by
    rw [stripped_eq_iff, String.toList_ofList]
    constructor
    · intro c first
      obtain rfl : '"' = c := by simpa using first
      rfl
    · intro c final
      rw [← List.cons_append, List.getLast?_concat] at final
      obtain rfl : '"' = c := by simpa using final
      rfl
  obtain ⟨begins, ends⟩ := stripped_eq_iff.mp unquoted
  rw [quoted, stripped, String.toList_ofList, List.dropWhile_cons_of_pos rfl]
  by_cases none : value.toList = []
  · rw [none, String.toList_eq_nil_iff.mp none]
    rfl
  · have inner : (value.toList ++ ['"']).dropWhile isQuote = value.toList ++ ['"'] := by
      apply dropWhile_of_head
      intro c first
      rw [List.head?_append_of_ne_nil _ none] at first
      exact begins c first
    rw [inner, List.rdropWhile_concat_pos _ _ _ rfl, rdropWhile_of_last ends, String.ofList_toList]

/-- The line of a plain entry is read as the entry. -/
theorem parseLine_writeEntry {entry : String × String} (writable : Writable entry) :
    parseLine (writeEntry entry) = some entry := by
  have ends := stripped_eq_iff.mp writable.key_stripped
  obtain ⟨head, rest, whole⟩ : ∃ head rest, entry.1.toList = head :: rest :=
    List.exists_cons_of_ne_nil fun none => writable.named (String.toList_eq_nil_iff.mp none)
  have bare : stripped isPythonSpace (String.ofList (writeEntry entry)) = String.ofList (writeEntry entry) := by
    rw [stripped_eq_iff, String.toList_ofList, writeEntry]
    constructor
    · intro c first
      apply ends.1
      rw [whole, List.cons_append, List.head?_cons] at first
      rw [whole, List.head?_cons]
      exact first
    · intro c final
      rw [List.getLast?_append, List.getLast?_cons_cons, ← List.cons_append, List.getLast?_concat,
        Option.some_or] at final
      obtain rfl : '"' = c := by simpa using final
      rfl
  have passed : ¬ (writeEntry entry = [] ∨ (writeEntry entry).head? = some '#' ∨ '=' ∉ writeEntry entry) := by
    rintro (none | comment | absent)
    · rw [writeEntry, whole] at none
      cases none
    · rw [writeEntry, whole, List.cons_append, List.head?_cons] at comment
      exact writable.no_comment (by rw [whole, List.head?_cons, comment])
    · exact absent (List.mem_append_right _ (List.mem_cons_self ..))
  have named : (stripped isPythonSpace (String.ofList entry.1.toList)).isEmpty = false := by
    rw [String.ofList_toList, writable.key_stripped, Bool.eq_false_iff, ne_eq, String.isEmpty_iff]
    exact writable.named
  obtain ⟨left, right⟩ := takeWhile_writeEntry writable.no_equals ('"' :: (entry.2.toList ++ ['"']))
  rw [parseLine]
  simp only [bare, String.toList_ofList]
  rw [if_neg passed, writeEntry, left, right, named, List.tail_cons, stripped_quoted writable.unquoted,
    String.ofList_toList, writable.key_stripped]
  rfl

/-! ## Assignments -/

theorem get?_assign (values : Values) (key value k : String) :
    get? (assign values key value) k = if key = k then some value else get? values k := by
  simp only [get?, assign]
  by_cases same : key = k
  · subst same
    rw [if_pos rfl]
    cases stored : values.find? key with
    | none =>
      have same : values.put (key, value) = values := Table.put_of_absent stored
      have inserted : (values.insert (key, value)).find? key = some (key, value) := Table.find?_insert_self stored
      rw [same, inserted, Option.map_some]
    | some old =>
      have present : (values.put (key, value)).find? key = some (key, value) := Table.find?_put_self stored
      rw [Table.insert_of_present present, present, Option.map_some]
  · rw [if_neg same, Table.find?_insert_ne same, Table.find?_put_ne same]

theorem rows_assign {values : Values} {key : String} (absent : get? values key = none) (value : String) :
    (assign values key value).rows = values.rows ++ [(key, value)] := by
  have absent : values.find? key = none := by simpa [get?] using absent
  have same : values.put (key, value) = values := Table.put_of_absent absent
  rw [assign, same, Table.rows_insert absent]

theorem mem_values {values : Values} {entry : String × String} :
    entry ∈ values.rows ↔ get? values entry.1 = some entry.2 := by
  rw [Table.mem_rows_iff, get?, Option.map_eq_some_iff]
  constructor
  · intro stored
    exact ⟨entry, stored, rfl⟩
  · rintro ⟨other, stored, same⟩
    rwa [Prod.ext (Table.find?_key stored) same] at stored

/-- The assignments of a text, in its order. -/
def assignments (text : List Char) : List (String × String) := (splitLines text).filterMap parseLine

def assignAll (values : Values) (entries : List (String × String)) : Values :=
  entries.foldl (fun values entry => assign values entry.1 entry.2) values

theorem parseEnvFile_eq (file : ByteArray) :
    parseEnvFile file = (readText file).map fun text => assignAll .empty (assignments text) := by
  rw [parseEnvFile]
  cases readText file with
  | error error => rfl
  | ok text =>
    refine congrArg Except.ok ?_
    simp only [assignAll, assignments, List.foldl_filterMap]
    apply List.foldl_ext
    intro values line _
    cases parseLine line <;> rfl

theorem parseEnvFile_ok {file : ByteArray} {values : Values} :
    parseEnvFile file = .ok values ↔ ∃ text, readText file = .ok text ∧ assignAll .empty (assignments text) = values := by
  rw [parseEnvFile_eq]
  cases readText file with
  | error error => simp [Except.map]
  | ok text => simp [Except.map]

/-- The last assignment to a key is the one that counts. -/
theorem get?_assignAll (values : Values) (entries : List (String × String)) (key : String) :
    get? (assignAll values entries) key =
      ((entries.reverse.find? (fun entry => entry.1 = key)).map Prod.snd).or (get? values key) := by
  induction entries generalizing values with
  | nil => rfl
  | cons entry rest ih =>
    have step : assignAll values (entry :: rest) = assignAll (assign values entry.1 entry.2) rest := rfl
    rw [step, ih, get?_assign, List.reverse_cons, List.find?_append]
    by_cases same : entry.1 = key
    · cases found : rest.reverse.find? (fun entry => entry.1 = key) <;> simp [same]
    · cases found : rest.reverse.find? (fun entry => entry.1 = key) <;> simp [same]

/-- New keys are appended in order. -/
theorem rows_assignAll {values : Values} {entries : List (String × String)} (distinct : (entries.map Prod.fst).Nodup)
    (absent : ∀ entry ∈ entries, get? values entry.1 = none) :
    (assignAll values entries).rows = values.rows ++ entries := by
  induction entries generalizing values with
  | nil => exact (List.append_nil _).symm
  | cons entry rest ih =>
    rw [List.map_cons, List.nodup_cons] at distinct
    have step : assignAll values (entry :: rest) = assignAll (assign values entry.1 entry.2) rest := rfl
    rw [step, ih distinct.2, rows_assign (absent entry (List.mem_cons_self ..)), List.append_assoc,
      List.singleton_append]
    intro other member
    rw [get?_assign, if_neg, absent other (List.mem_cons_of_mem _ member)]
    intro same
    exact distinct.1 (same ▸ List.mem_map_of_mem member)

/-! ## The round trip -/

private theorem writable_assignments {text : List Char} {entry : String × String} (member : entry ∈ assignments text) :
    Writable entry := by
  obtain ⟨line, cut, accepted⟩ := List.mem_filterMap.mp member
  exact writable_parseLine (fun _ => boundary_of_mem_line cut) accepted

/-- Every entry of a file has the plain form. -/
theorem writable_parseEnvFile {file : ByteArray} {values : Values} (parsed : parseEnvFile file = .ok values)
    {entry : String × String} (member : entry ∈ values.rows) : Writable entry := by
  obtain ⟨text, _, rfl⟩ := parseEnvFile_ok.mp parsed
  rw [mem_values, get?_assignAll] at member
  have found : ((assignments text).reverse.find? (fun other => other.1 = entry.1)).map Prod.snd = some entry.2 := by
    simpa [get?, Table.find?, Table.empty] using member
  obtain ⟨other, found, same⟩ := Option.map_eq_some_iff.mp found
  have key : other.1 = entry.1 := by simpa using List.find?_some found
  rw [← Prod.ext key same]
  exact writable_assignments (List.mem_reverse.mp (List.mem_of_find?_eq_some found))

theorem boundary_writeEntry {entry : String × String} (writable : Writable entry) {c : Char}
    (member : c ∈ writeEntry entry) : isLineBoundary c = false := by
  rw [writeEntry] at member
  rcases List.mem_append.mp member with member | member
  · exact writable.key_inside c member
  rcases List.mem_cons.mp member with rfl | member
  · rfl
  rcases List.mem_cons.mp member with rfl | member
  · rfl
  rcases List.mem_append.mp member with member | member
  · exact writable.value_inside c member
  · obtain rfl := List.mem_singleton.mp member
    rfl

private theorem splitLines_entries {entries : List (String × String)} (writable : ∀ entry ∈ entries, Writable entry) :
    splitLines (entries.flatMap fun entry => writeEntry entry ++ ['\n']) = entries.map writeEntry := by
  induction entries with
  | nil => rfl
  | cons entry rest ih =>
    have inside := writable entry (List.mem_cons_self ..)
    rw [List.flatMap_cons, List.append_assoc, List.singleton_append,
      splitLines_line fun _ => boundary_writeEntry inside,
      ih fun other member => writable other (List.mem_cons_of_mem _ member), List.map_cons]

/-- Plain entries are read back from their lines. -/
theorem parseEnvFile_writeEnvFile {values : Values} (writable : ∀ entry ∈ values.rows, Writable entry) :
    parseEnvFile (writeEnvFile values) = .ok values := by
  set text := values.rows.flatMap fun entry => writeEntry entry ++ ['\n'] with written
  have clean : '\r' ∉ text := by
    intro member
    obtain ⟨entry, stored, member⟩ := List.mem_flatMap.mp member
    rcases List.mem_append.mp member with member | member
    · exact Bool.false_ne_true ((boundary_writeEntry (writable entry stored) member).symm.trans boundary_return)
    · simp at member
  have all : assignments text = values.rows := by
    rw [assignments, written, splitLines_entries writable, List.filterMap_map]
    have each : ∀ entry ∈ values.rows, (parseLine ∘ writeEntry) entry = some entry := by
      intro entry stored
      rw [Function.comp_apply]
      exact parseLine_writeEntry (writable entry stored)
    rw [List.filterMap_congr each, List.filterMap_some]
  have rows : (assignAll .empty values.rows).rows = values.rows := rows_assignAll values.unique fun _ _ => rfl
  refine parseEnvFile_ok.mpr ⟨text, ?_, ?_⟩
  · rw [writeEnvFile, readText_toUTF8, String.toList_ofList, translateNewlines_of_no_return clean]
  · rw [all]
    exact Table.rows_injective rows

theorem parseEnvFile_isOk {file : ByteArray} : (∃ values, parseEnvFile file = .ok values) ↔ file.IsValidUTF8 := by
  rw [← readText_ok]
  constructor
  · rintro ⟨values, parsed⟩
    obtain ⟨text, read, _⟩ := parseEnvFile_ok.mp parsed
    exact ⟨text, read⟩
  · rintro ⟨text, read⟩
    exact ⟨_, parseEnvFile_ok.mpr ⟨text, read, rfl⟩⟩

/-- A file is read if it decodes. The dictionaries that files are read into are those of plain entries, and writing one
and reading it again gives it back. -/
theorem env_file_round_trip :
    (∀ file, (∃ values, parseEnvFile file = .ok values) ↔ file.IsValidUTF8) ∧
      (∀ values : Values, (∃ file, parseEnvFile file = .ok values) ↔ ∀ entry ∈ values.rows, Writable entry) ∧
      ∀ file values, parseEnvFile file = .ok values → parseEnvFile (writeEnvFile values) = .ok values := by
  refine ⟨fun file => parseEnvFile_isOk, fun values => ⟨?_, ?_⟩, fun file values parsed => ?_⟩
  · rintro ⟨file, parsed⟩ entry stored
    exact writable_parseEnvFile parsed stored
  · intro writable
    exact ⟨writeEnvFile values, parseEnvFile_writeEnvFile writable⟩
  · exact parseEnvFile_writeEnvFile fun _ => writable_parseEnvFile parsed

/-! ## What the settings are taken from -/

/-- The last assignment of a list to a key. -/
def lastValue (entries : List (String × String)) (key : String) : Option String :=
  (entries.reverse.find? fun entry => entry.1 = key).map Prod.snd

/-- An entry that the operating system takes as a variable. -/
def Settable (entry : String × String) : Prop := '\x00' ∉ entry.1.toList ∧ '\x00' ∉ entry.2.toList

theorem get?_assignments (text : List Char) (key : String) :
    get? (assignAll .empty (assignments text)) key = lastValue (assignments text) key := by
  rw [get?_assignAll]
  exact Option.or_none

theorem setDefault_present {environ : Values} {key value : String} (present : (get? environ key).isSome = true) :
    setDefault environ key value = .ok environ := by
  rw [setDefault, if_pos present]

theorem setDefault_absent {environ : Values} {key value : String} (absent : get? environ key = none) :
    setDefault environ key value =
      if '\x00' ∈ key.toList ∨ '\x00' ∈ value.toList then .error .embeddedNullByte
      else .ok (assign environ key value) := by
  rw [setDefault, absent, Option.isSome_none, if_neg Bool.false_ne_true]

/-- A variable that is set stays, and a new one gets its first value of the list. -/
theorem get?_setDefaults {environ after : Values} {entries : List (String × String)}
    (loaded : setDefaults environ entries = .ok after) (key : String) :
    get? after key = (get? environ key).or ((entries.find? fun entry => entry.1 = key).map Prod.snd) := by
  induction entries generalizing environ with
  | nil =>
    obtain rfl := Except.ok.inj loaded
    exact Option.or_none.symm
  | cons entry rest ih =>
    rw [setDefaults] at loaded
    cases stored : get? environ entry.1 with
    | some old =>
      rw [setDefault_present (by rw [stored, Option.isSome_some])] at loaded
      rw [ih loaded]
      by_cases same : entry.1 = key
      · rw [← same, stored, Option.some_or, Option.some_or]
      · rw [List.find?_cons_of_neg (by simpa using same)]
    | none =>
      rw [setDefault_absent stored] at loaded
      by_cases null : '\x00' ∈ entry.1.toList ∨ '\x00' ∈ entry.2.toList
      · rw [if_pos null] at loaded
        cases loaded
      · rw [if_neg null] at loaded
        rw [ih loaded, get?_assign]
        by_cases same : entry.1 = key
        · rw [if_pos same, ← same, stored, List.find?_cons_of_pos (by simp)]
          rfl
        · rw [if_neg same, List.find?_cons_of_neg (by simpa using same)]

/-- Only a new variable with a null character fails. -/
theorem setDefaults_ok {environ : Values} {entries : List (String × String)} (distinct : (entries.map Prod.fst).Nodup) :
    (∃ after, setDefaults environ entries = .ok after) ↔
      ∀ entry ∈ entries, get? environ entry.1 = none → Settable entry := by
  induction entries generalizing environ with
  | nil =>
    constructor
    · rintro _ entry member
      cases member
    · intro _
      exact ⟨environ, rfl⟩
  | cons entry rest ih =>
    rw [List.map_cons, List.nodup_cons] at distinct
    rw [setDefaults, List.forall_mem_cons]
    cases stored : get? environ entry.1 with
    | some old =>
      rw [setDefault_present (by rw [stored, Option.isSome_some])]
      constructor
      · intro loaded
        refine ⟨?_, (ih distinct.2).mp loaded⟩
        intro impossible
        cases impossible
      · rintro ⟨_, later⟩
        exact (ih distinct.2).mpr later
    | none =>
      rw [setDefault_absent stored]
      by_cases null : '\x00' ∈ entry.1.toList ∨ '\x00' ∈ entry.2.toList
      · rw [if_pos null]
        constructor
        · rintro ⟨after, loaded⟩
          cases loaded
        · rintro ⟨settable, _⟩
          exact absurd null (not_or.mpr (settable rfl))
      · have untouched : ∀ other ∈ rest, get? (assign environ entry.1 entry.2) other.1 = get? environ other.1 := by
          intro other member
          rw [get?_assign, if_neg]
          intro same
          exact distinct.1 (same ▸ List.mem_map_of_mem member)
        rw [if_neg null]
        constructor
        · intro loaded
          refine ⟨fun _ => not_or.mp null, fun other member absent => ?_⟩
          exact (ih distinct.2).mp loaded other member ((untouched other member).trans absent)
        · rintro ⟨_, later⟩
          apply (ih distinct.2).mpr
          intro other member absent
          exact later other member ((untouched other member).symm.trans absent)

/-- Where every variable is set, nothing changes. -/
theorem setDefaults_present {environ : Values} {entries : List (String × String)}
    (present : ∀ entry ∈ entries, (get? environ entry.1).isSome = true) : setDefaults environ entries = .ok environ := by
  induction entries with
  | nil => rfl
  | cons entry rest ih =>
    rw [setDefaults, setDefault_present (present entry (List.mem_cons_self ..))]
    exact ih fun other member => present other (List.mem_cons_of_mem _ member)

theorem loadEnv_ok {environ after values : Values} {file : ByteArray} :
    loadEnv environ (some file) = .ok (after, values) ↔
      parseEnvFile file = .ok values ∧ setDefaults environ values.rows = .ok after := by
  rw [loadEnv]
  cases parseEnvFile file with
  | error error => simp [bind, Except.bind]
  | ok read =>
    cases loaded : setDefaults environ read.rows with
    | error error =>
      simp only [bind, Except.bind, loaded, Except.ok.injEq, reduceCtorEq, false_iff]
      rintro ⟨rfl, impossible⟩
      rw [loaded] at impossible
      cases impossible
    | ok environ =>
      simp only [bind, Except.bind, loaded, pure, Except.pure, Except.ok.injEq, Prod.mk.injEq]
      constructor
      · rintro ⟨rfl, rfl⟩
        exact ⟨rfl, loaded⟩
      · rintro ⟨rfl, again⟩
        rw [loaded] at again
        exact ⟨Except.ok.inj again, rfl⟩

/-- The process comes first, then the last line of the file. -/
theorem get?_loadEnv {environ after values : Values} {file : ByteArray}
    (loaded : loadEnv environ (some file) = .ok (after, values)) {text : List Char} (read : readText file = .ok text)
    (key : String) : get? after key = (get? environ key).or (lastValue (assignments text) key) := by
  obtain ⟨parsed, set⟩ := loadEnv_ok.mp loaded
  obtain ⟨_, read', rfl⟩ := parseEnvFile_ok.mp parsed
  rw [read, Except.ok.injEq] at read'
  subst read'
  rw [get?_setDefaults set, ← get?_assignments]
  rfl

theorem mem_fromEnviron {upper : String → String} {fields : List String} {environ : Values} {name value : String} :
    (name, value) ∈ fromEnviron upper fields environ ↔ name ∈ fields ∧ get? environ (upper name) = some value := by
  simp only [fromEnviron, List.mem_filterMap, Option.map_eq_some_iff]
  constructor
  · rintro ⟨field, member, read, stored, same⟩
    cases same
    exact ⟨member, stored⟩
  · rintro ⟨member, stored⟩
    exact ⟨name, member, value, stored, rfl⟩

/-- A load that succeeds is stable: loading the same file again changes nothing. -/
theorem loadEnv_again {environ after values : Values} {file : ByteArray}
    (loaded : loadEnv environ (some file) = .ok (after, values)) :
    loadEnv after (some file) = .ok (after, values) := by
  obtain ⟨parsed, set⟩ := loadEnv_ok.mp loaded
  refine loadEnv_ok.mpr ⟨parsed, setDefaults_present ?_⟩
  intro entry member
  have found : (values.rows.find? fun other => other.1 = entry.1).map Prod.snd = some entry.2 := mem_values.mp member
  rw [get?_setDefaults set, found, Option.isSome_or, Option.isSome_some, Bool.or_true]

/-- A load fails only for a file that does not decode, or for a null character in a new variable; one that succeeds is
stable, and the settings are taken from the process first and from the last assignment of the file else. -/
theorem configuration_precedence (environ : Values) (file : ByteArray) :
    ((∃ loaded, loadEnv environ (some file) = .ok loaded) ↔
        file.IsValidUTF8 ∧ ∀ values, parseEnvFile file = .ok values →
          ∀ entry ∈ values.rows, get? environ entry.1 = none → Settable entry) ∧
      ∀ after values, loadEnv environ (some file) = .ok (after, values) →
        loadEnv after (some file) = .ok (after, values) ∧
        ∃ text, readText file = .ok text ∧
          ∀ (upper : String → String) (fields : List String) (name value : String),
            (name, value) ∈ fromEnviron upper fields after ↔
              name ∈ fields ∧
                (get? environ (upper name)).or (lastValue (assignments text) (upper name)) = some value := by
  constructor
  · constructor
    · rintro ⟨⟨after, values⟩, loaded⟩
      obtain ⟨parsed, set⟩ := loadEnv_ok.mp loaded
      refine ⟨parseEnvFile_isOk.mp ⟨values, parsed⟩, fun others same => ?_⟩
      rw [parsed, Except.ok.injEq] at same
      subst same
      exact (setDefaults_ok values.unique).mp ⟨after, set⟩
    · rintro ⟨valid, settable⟩
      obtain ⟨values, parsed⟩ := parseEnvFile_isOk.mpr valid
      obtain ⟨after, set⟩ := (setDefaults_ok values.unique).mpr (settable values parsed)
      exact ⟨(after, values), loadEnv_ok.mpr ⟨parsed, set⟩⟩
  · intro after values loaded
    obtain ⟨text, read, _⟩ := parseEnvFile_ok.mp (loadEnv_ok.mp loaded).1
    refine ⟨loadEnv_again loaded, text, read, fun upper fields name value => ?_⟩
    rw [mem_fromEnviron, get?_loadEnv loaded read]

/-- The process has the URL, the file assigns the pool twice and quotes a limit. -/
private def officeEnviron : Values := assign .empty "DATABASE_URL" "postgresql://office"

private def officeText : String := "DATABASE_URL=elsewhere\nDB_POOL_SIZE=5\r\n# limit\nDB_POOL_SIZE = '7'"

private def officeFields : List String := ["database_url", "db_pool_size", "cors_origins"]

theorem configuration_precedence_office :
    ∃ after values, loadEnv officeEnviron (some officeText.toUTF8) = .ok (after, values) ∧
      loadEnv after (some officeText.toUTF8) = .ok (after, values) ∧
      ("database_url", "postgresql://office") ∈ fromEnviron String.toUpper officeFields after ∧
      ("db_pool_size", "7") ∈ fromEnviron String.toUpper officeFields after := by
  have settable : ∀ values, parseEnvFile officeText.toUTF8 = .ok values → ∀ entry ∈ values.rows,
      get? officeEnviron entry.1 = none → '\x00' ∉ entry.1.toList ∧ '\x00' ∉ entry.2.toList := by
    intro values parsed
    rw [parseEnvFile_eq, readText_toUTF8, Except.map, Except.ok.injEq] at parsed
    rw [← parsed]
    decide +kernel
  obtain ⟨⟨after, values⟩, loaded⟩ :=
    (configuration_precedence officeEnviron officeText.toUTF8).1.mpr ⟨officeText.isValidUTF8, settable⟩
  obtain ⟨again, text, read, taken⟩ := (configuration_precedence officeEnviron _).2 after values loaded
  rw [readText_toUTF8, Except.ok.injEq] at read
  subst read
  refine ⟨after, values, loaded, again, ?_, ?_⟩
  · exact (taken _ _ _ _).mpr (by decide +kernel)
  · exact (taken _ _ _ _).mpr (by decide +kernel)

end JobRelay.Guarantees
