import KataGo.Core.ConfigLines

/-! Configuration files that are read, printed and read again. -/

namespace KataGo.Core.ConfigParser
open KataGo.Game KataGo.Lib

variable {self : ConfigParser} {c : Char} {key value line : Text} {curFileKeys lines : List Text}
  {entries : List (Text × Text)} {processFile : ConfigParser → Text → Except ConfigError ConfigParser}

/-- A key and a value that one line can hold. -/
structure Writable (key value : Text) : Prop where
  key_nonempty : key ≠ []
  key_chars : ∀ c ∈ key, isKeyChar c = true
  value_nonempty : value ≠ []
  value_line : '\n' ∉ value

/-- A pair with its value in quotes, as a line of a file. -/
structure QuotedLine where
  key : Text
  value : Text
  indent : Text
  beforeEquals : Text
  afterEquals : Text
  afterValue : Text
  comment : Text
  writable : Writable key value
  blank : ∀ c ∈ indent ++ beforeEquals ++ afterEquals ++ afterValue, Global.isDelim c = true ∧ c ≠ '\n'
  comment_start : ∀ c ∈ comment.head?, c = '#'
  comment_line : '\n' ∉ comment

namespace QuotedLine

def text (row : QuotedLine) : Text :=
  row.indent ++ (row.key ++ (row.beforeEquals ++ '=' :: (row.afterEquals ++ '"' :: (row.value.flatMap escapeChar ++
    '"' :: (row.afterValue ++ row.comment)))))

def pair (row : QuotedLine) : Text × Text := (row.key, row.value)

end QuotedLine

/-- A line as it is printed. -/
def printed (it : Text × Text) : Text := it.1 ++ " = ".toList ++ it.2

section Rows

theorem newline_not_keyChar (keyChars : ∀ c ∈ key, isKeyChar c = true) : '\n' ∉ key := fun member =>
  absurd (keyChars '\n' member) (by decide)

theorem newline_not_escaped (clean : '\n' ∉ value) : '\n' ∉ value.flatMap escapeChar := by
  intro member
  obtain ⟨c, inside, shown⟩ := List.mem_flatMap.1 member
  unfold escapeChar at shown
  split_ifs at shown
  · rcases List.mem_cons.1 shown with slash | newline
    · exact absurd slash (by decide)
    · exact clean (List.mem_singleton.1 newline ▸ inside)
  · exact clean (List.mem_singleton.1 shown ▸ inside)

theorem QuotedLine.text_line (row : QuotedLine) : '\n' ∉ row.text := by
  have blanks : '\n' ∉ row.indent ++ row.beforeEquals ++ row.afterEquals ++ row.afterValue := fun member =>
    (row.blank '\n' member).2 rfl
  have keyLine := newline_not_keyChar row.writable.key_chars
  have valueLine := newline_not_escaped row.writable.value_line
  have commentLine := row.comment_line
  simp only [List.mem_append, not_or] at blanks
  simp [QuotedLine.text, blanks, keyLine, valueLine, commentLine]

theorem printed_line (writable : Writable key value) : '\n' ∉ printed (key, value) := by
  have keyLine := newline_not_keyChar writable.key_chars
  have valueLine := writable.value_line
  simp [printed, keyLine, valueLine]

/-- The start of a line with a key. -/
theorem key_start (writable : Writable key value) (rest : Text) :
    ∃ c tail, key ++ rest = c :: tail ∧ isKeyChar c = true := by
  obtain ⟨c, tail, rfl⟩ := List.exists_cons_of_ne_nil writable.key_nonempty
  exact ⟨c, tail ++ rest, rfl, writable.key_chars c List.mem_cons_self⟩

theorem trim_printed (writable : Writable key value) :
    Global.trim (printed (key, value)) = key ++ ([' '] ++ '=' :: (' ' :: value).rdropWhile Global.isDelim) := by
  have shape : printed (key, value) = (key ++ [' ']) ++ '=' :: (' ' :: value) := by
    simp [printed]
  have first : ∀ c ∈ ((key ++ [' ']) ++ ['=']).head?, Global.isDelim c = false := by
    obtain ⟨c, tail, start, keyChar⟩ := key_start writable ([' '] ++ ['='])
    intro b found
    rw [List.append_assoc, start, List.head?_cons, Option.mem_some_iff] at found
    exact not_delim (keyChar_visible (found ▸ keyChar))
  rw [shape, Global.trim, TextFields.trim_append_stop _ first (by decide), List.append_assoc]

theorem parse_printed (writable : Writable key value) :
    self.parseKeyValue (Global.trim (printed (key, value))) =
      (readValue (self.parsingError "Could not parse key value pair") ((' ' :: value).rdropWhile Global.isDelim) >>=
        fun value => pure (key, value)) := by
  rw [trim_printed writable, parseKeyValue_eq writable.key_nonempty writable.key_chars (List.all_eq_true.mp (by decide))]

theorem QuotedLine.trim_text (row : QuotedLine) :
    Global.trim row.text = row.key ++ (row.beforeEquals ++ '=' :: (row.afterEquals ++ '"' ::
      (row.value.flatMap escapeChar ++ '"' :: (row.afterValue ++ row.comment).rdropWhile Global.isDelim))) := by
  have indent : ∀ c ∈ row.indent, Global.isDelim c = true := fun c member => (row.blank c (by simp [member])).1
  have front : row.key ++ (row.beforeEquals ++ '=' :: (row.afterEquals ++ '"' :: (row.value.flatMap escapeChar ++
      '"' :: (row.afterValue ++ row.comment)))) =
      (row.key ++ (row.beforeEquals ++ '=' :: (row.afterEquals ++ '"' :: row.value.flatMap escapeChar))) ++
        '"' :: (row.afterValue ++ row.comment) := by
    simp
  have first : ∀ c ∈ ((row.key ++ (row.beforeEquals ++ '=' :: (row.afterEquals ++ '"' ::
      row.value.flatMap escapeChar))) ++ ['"']).head?, Global.isDelim c = false := by
    obtain ⟨c, tail, start, keyChar⟩ := key_start row.writable
      (row.beforeEquals ++ '=' :: (row.afterEquals ++ '"' :: row.value.flatMap escapeChar) ++ ['"'])
    intro b found
    rw [List.append_assoc, start, List.head?_cons, Option.mem_some_iff] at found
    exact not_delim (keyChar_visible (found ▸ keyChar))
  rw [QuotedLine.text, Global.trim, TextFields.trim_blank_append indent, front,
    TextFields.trim_append_stop _ first (by decide)]
  simp

/-- A value in quotes is read as it is. -/
theorem QuotedLine.parse_text (row : QuotedLine) : self.parseKeyValue (Global.trim row.text) = pure row.pair := by
  have beforeEquals : ∀ c ∈ row.beforeEquals, isWhitespace c = true := fun c member =>
    isWhitespace_of_delim (row.blank c (by simp [member])).1
  have afterEquals : ∀ c ∈ row.afterEquals, isWhitespace c = true := fun c member =>
    isWhitespace_of_delim (row.blank c (by simp [member])).1
  have afterValue : ∀ c ∈ row.afterValue, Global.isDelim c = true := fun c member => (row.blank c (by simp [member])).1
  rw [row.trim_text, parseKeyValue_eq row.writable.key_nonempty row.writable.key_chars beforeEquals,
    readValue_quoted afterEquals (checkRemainder_comment afterValue row.comment_start) row.writable.value_nonempty,
    pure_bind]
  rfl

end Rows

section Loop

/-- A line with a key is given to the scanner. -/
theorem readLines_key (start : ∃ c tail, Global.trim line = c :: tail ∧ isKeyChar c = true) :
    readLines processFile (line :: lines) self curFileKeys = (do
      let self := { self with curLineNum := self.curLineNum + 1 }
      match ← (self.parseKeyValue (Global.trim line)).run with
      | none => readLines processFile lines self curFileKeys
      | some (key, value) => do
        let self ← self.addKeyValue curFileKeys key value
        readLines processFile lines self (key :: curFileKeys)) := by
  obtain ⟨c, tail, trimmed, keyChar⟩ := start
  have noHash : c ≠ '#' := by
    rintro rfl
    exact absurd keyChar (by decide)
  have noAt : c ≠ '@' := by
    rintro rfl
    exact absurd keyChar (by decide)
  rw [readLines, trimmed]
  exact (if_neg (by simpa using noHash)).trans (if_neg (by simpa using noAt))

/-- A key that no line of the file and no other file has set. -/
def Absent (self : ConfigParser) (curFileKeys : List Text) (key : Text) : Prop :=
  key ∉ curFileKeys ∧ ∀ e ∈ self.keyValues.entries, e.1 ≠ key

theorem addKeyValue_absent (absent : Absent self curFileKeys key) (value : Text) :
    ∃ added, self.addKeyValue curFileKeys key value = pure added ∧ added.keyValues = self.keyValues.set key value := by
  have missing : self.keyValues.contains key = false := by
    rw [SortedMap.contains, List.any_eq_false]
    exact fun e member => by simpa using absent.2 e member
  exact ⟨_, (if_neg fun wrong => absent.1 wrong.1).trans (if_neg fun wrong => by simp [missing] at wrong), rfl⟩

/-- A line whose pair has a new key. -/
theorem readLines_pair (processFile : ConfigParser → Text → Except ConfigError ConfigParser) (lines : List Text)
    (start : ∃ c tail, Global.trim line = c :: tail ∧ isKeyChar c = true)
    (parsed : { self with curLineNum := self.curLineNum + 1 : ConfigParser }.parseKeyValue (Global.trim line) =
      pure (key, value))
    (absent : Absent self curFileKeys key) :
    ∃ added, readLines processFile (line :: lines) self curFileKeys =
      readLines processFile lines added (key :: curFileKeys) ∧ added.keyValues = self.keyValues.set key value := by
  have counted : Absent { self with curLineNum := self.curLineNum + 1 } curFileKeys key := absent
  obtain ⟨added, recorded, values⟩ := addKeyValue_absent counted value
  refine ⟨added, ?_, values⟩
  rw [readLines_key start]
  simp only [parsed, OptionT.run_pure, pure_bind, recorded]

theorem quoted_start (row : QuotedLine) : ∃ c tail, Global.trim row.text = c :: tail ∧ isKeyChar c = true := by
  rw [row.trim_text]
  exact key_start row.writable _

theorem printed_start (writable : Writable key value) :
    ∃ c tail, Global.trim (printed (key, value)) = c :: tail ∧ isKeyChar c = true := by
  rw [trim_printed writable]
  exact key_start writable _

end Loop

section Runs

variable {rows : List QuotedLine} {added loaded again : ConfigParser} {other : Text}

theorem Absent.step (absent : Absent self curFileKeys other) (different : other ≠ key)
    (values : added.keyValues = self.keyValues.set key value) : Absent added (key :: curFileKeys) other := by
  refine ⟨fun member => ?_, fun e member => ?_⟩
  · exact (List.mem_cons.1 member).elim different absent.1
  · rw [values] at member
    rcases SortedMap.mem_insert member with rfl | before
    · exact different.symm
    · exact absent.2 e before

/-- The loop records the pairs of lines with distinct keys. -/
theorem readLines_quoted (distinct : (rows.map (·.key)).Nodup)
    (absent : ∀ row ∈ rows, Absent self curFileKeys row.key) :
    ∃ loaded, readLines processFile (rows.map QuotedLine.text) self curFileKeys = pure loaded ∧
      ∀ e, e ∈ loaded.keyValues.entries ↔ e ∈ self.keyValues.entries ∨ e ∈ rows.map QuotedLine.pair := by
  induction rows generalizing self curFileKeys with
  | nil => exact ⟨self, rfl, fun e => by simp⟩
  | cons row rows ih =>
    obtain ⟨new, distinct⟩ := List.nodup_cons.1 distinct
    have absentRow := absent row List.mem_cons_self
    obtain ⟨added, step, values⟩ :=
      readLines_pair processFile (rows.map QuotedLine.text) (quoted_start row) row.parse_text absentRow
    have later : ∀ row' ∈ rows, Absent added (row.key :: curFileKeys) row'.key := fun row' member =>
      (absent row' (List.mem_cons_of_mem _ member)).step
        (fun same => new (List.mem_map.2 ⟨row', member, same⟩)) values
    obtain ⟨loaded, run, pairs⟩ := ih distinct later
    refine ⟨loaded, step.trans run, fun e => ?_⟩
    have inserted : e ∈ added.keyValues.entries ↔ e = row.pair ∨ e ∈ self.keyValues.entries := by
      rw [values]
      exact SortedMap.mem_insert_absent absentRow.2
    rw [pairs, inserted, List.map_cons, List.mem_cons]
    exact (or_congr or_comm Iff.rfl).trans or_assoc

theorem readLines_quoted_empty (empty : self.keyValues.entries = []) (distinct : (rows.map (·.key)).Nodup) :
    ∃ loaded, readLines processFile (rows.map QuotedLine.text) self [] = pure loaded ∧
      ∀ e, e ∈ loaded.keyValues.entries ↔ e ∈ rows.map QuotedLine.pair := by
  have absent : ∀ row ∈ rows, Absent self [] row.key := by
    intro row _
    refine ⟨List.not_mem_nil, ?_⟩
    rw [empty]
    exact fun e member => absurd member List.not_mem_nil
  obtain ⟨loaded, run, pairs⟩ := readLines_quoted distinct absent
  refine ⟨loaded, run, fun e => ?_⟩
  rw [pairs, empty]
  exact or_iff_right List.not_mem_nil

/-- Entries whose keys come after those that the parser has. -/
structure Next (parser : ConfigParser) (curFileKeys : List Text) (entries : List (Text × Text)) : Prop where
  writable : ∀ e ∈ entries, Writable e.1 e.2
  ordered : entries.Pairwise fun a b => a.1 < b.1
  unseen : ∀ e ∈ entries, e.1 ∉ curFileKeys
  after : ∀ first ∈ parser.keyValues.entries, ∀ e ∈ entries, first.1 < e.1

theorem Next.absent (next : Next self curFileKeys ((key, value) :: entries)) : Absent self curFileKeys key :=
  ⟨next.unseen _ List.mem_cons_self, fun e member => ne_of_lt (next.after e member _ List.mem_cons_self)⟩

theorem Next.append (next : Next self curFileKeys ((key, value) :: entries)) {found : Text}
    (values : added.keyValues = self.keyValues.set key found) :
    added.keyValues.entries = self.keyValues.entries ++ [(key, found)] := by
  rw [values]
  exact SortedMap.insert_last fun e member => next.after e member _ List.mem_cons_self

theorem Next.tail (next : Next self curFileKeys ((key, value) :: entries)) {found : Text}
    (values : added.keyValues = self.keyValues.set key found) : Next added (key :: curFileKeys) entries := by
  obtain ⟨least, ordered⟩ := List.pairwise_cons.1 next.ordered
  refine ⟨fun e member => next.writable e (List.mem_cons_of_mem _ member), ordered, fun e member => ?_,
    fun first old e member => ?_⟩
  · intro seen
    rcases List.mem_cons.1 seen with same | before
    · exact ne_of_lt (least e member) same.symm
    · exact next.unseen e (List.mem_cons_of_mem _ member) before
  · rw [next.append values, List.mem_append, List.mem_singleton] at old
    rcases old with old | rfl
    · exact next.after first old e (List.mem_cons_of_mem _ member)
    · exact least e member

/-- The error for the line that comes next. -/
def lineError (self : ConfigParser) : ConfigError :=
  { self with curLineNum := self.curLineNum + 1 : ConfigParser }.parsingError "Could not parse key value pair"

/-- A printed line whose value is not read stops the loop. -/
theorem readLines_raised (writable : Writable key value)
    (raised : readValue self.lineError ((' ' :: value).rdropWhile Global.isDelim) = raise self.lineError) :
    readLines processFile (printed (key, value) :: lines) self curFileKeys = throw self.lineError := by
  have scanned : { self with curLineNum := self.curLineNum + 1 : ConfigParser }.parseKeyValue
      (Global.trim (printed (key, value))) = raise self.lineError := by
    rw [parse_printed writable]
    exact congrArg (· >>= fun value => pure (key, value)) raised
  rw [readLines_key (printed_start writable)]
  simp only [scanned]
  rfl

/-- A printed line whose value is read records what is read. -/
theorem readLines_value (processFile : ConfigParser → Text → Except ConfigError ConfigParser) (lines : List Text)
    (next : Next self curFileKeys ((key, value) :: entries)) {found : Text}
    (read : readValue self.lineError ((' ' :: value).rdropWhile Global.isDelim) = pure found) :
    ∃ added, readLines processFile (printed (key, value) :: lines) self curFileKeys =
      readLines processFile lines added (key :: curFileKeys) ∧ added.keyValues = self.keyValues.set key found := by
  have writable : Writable key value := next.writable _ List.mem_cons_self
  refine readLines_pair processFile lines (printed_start writable) ?_ next.absent
  rw [parse_printed writable]
  exact congrArg (· >>= fun value => pure (key, value)) read

/-- Plain values are read again as they were printed. -/
theorem readLines_plain (next : Next self curFileKeys entries) (plain : ∀ e ∈ entries, Plain e.2) :
    ∃ again, readLines processFile (entries.map printed) self curFileKeys = pure again ∧
      again.keyValues.entries = self.keyValues.entries ++ entries := by
  induction entries generalizing self curFileKeys with
  | nil => exact ⟨self, rfl, (List.append_nil _).symm⟩
  | cons e entries ih =>
    obtain ⟨key, value⟩ := e
    have writable : Writable key value := next.writable _ List.mem_cons_self
    obtain ⟨added, step, values⟩ := readLines_value processFile (entries.map printed) next
      ((readValue_printed writable.value_nonempty).2 (plain _ List.mem_cons_self))
    obtain ⟨again, run, same⟩ := ih (next.tail values) fun e member => plain e (List.mem_cons_of_mem _ member)
    refine ⟨again, step.trans run, ?_⟩
    rw [same, next.append values, List.append_assoc]
    rfl

/-- An entry that is printed, and what is read for it. -/
def Reread (e parsed : Text × Text) : Prop :=
  ∃ fail, readValue fail ((' ' :: e.2).rdropWhile Global.isDelim) = pure parsed.2

theorem readLines_printed (next : Next self curFileKeys entries)
    (run : readLines processFile (entries.map printed) self curFileKeys = pure again) :
    ∃ parsed, again.keyValues.entries = self.keyValues.entries ++ parsed ∧ List.Forall₂ Reread entries parsed := by
  induction entries generalizing self curFileKeys with
  | nil =>
    obtain rfl : self = again := Except.ok.inj run
    exact ⟨[], (List.append_nil _).symm, .nil⟩
  | cons e entries ih =>
    obtain ⟨key, value⟩ := e
    have writable : Writable key value := next.writable _ List.mem_cons_self
    have decided : Decided self.lineError (readValue self.lineError _) :=
      readValue_decided ((' ' :: value).rdropWhile Global.isDelim)
    rcases decided with raised | ⟨found, read⟩
    · rw [List.map_cons, readLines_raised writable raised] at run
      cases run
    · obtain ⟨added, step, values⟩ := readLines_value processFile (entries.map printed) next read
      obtain ⟨parsed, same, rest⟩ := ih (next.tail values) (step.symm.trans run)
      refine ⟨(key, found) :: parsed, ?_, .cons ⟨_, read⟩ rest⟩
      rw [same, next.append values, List.append_assoc]
      rfl

/-- Reading printed entries gives them back exactly if their values are plain. -/
theorem readLines_printed_iff (processFile : ConfigParser → Text → Except ConfigError ConfigParser)
    (next : Next self curFileKeys entries) :
    (∃ again, readLines processFile (entries.map printed) self curFileKeys = pure again ∧
      again.keyValues.entries = self.keyValues.entries ++ entries) ↔ ∀ e ∈ entries, Plain e.2 := by
  constructor
  · rintro ⟨again, run, same⟩ e member
    obtain ⟨parsed, entries_eq, reread⟩ := readLines_printed next run
    obtain rfl := List.append_cancel_left (entries_eq.symm.trans same)
    obtain ⟨fail, read⟩ := List.forall₂_same.1 reread e member
    exact (readValue_printed (next.writable e member).value_nonempty).1 read
  · exact readLines_plain next

end Runs

section Files

variable {files : Text → Option Text} {depth : Nat} {stream : Text} {keysOverride keysOverrideFromIncludes : Bool}

theorem readStreamContent_with (files : Text → Option Text) (depth : Nat) :
    ∃ processFile, readStreamContent files depth = readStreamWith processFile := by
  cases depth with
  | zero => exact ⟨_, rfl⟩
  | succ depth => exact ⟨_, rfl⟩

/-- The text of a file with lines in quotes. -/
def fileText (rows : List QuotedLine) : Text := rows.flatMap fun row => row.text ++ ['\n']

theorem split_fileText (rows : List QuotedLine) : Global.split (fileText rows) '\n' = rows.map QuotedLine.text := by
  have shape : fileText rows = (rows.map QuotedLine.text).flatMap fun row => row ++ ['\n'] :=
    (List.flatMap_map QuotedLine.text (fun row => row ++ ['\n']) rows).symm
  rw [shape]
  refine TextFields.split_rows fun row member => ?_
  obtain ⟨quoted, -, rfl⟩ := List.mem_map.1 member
  exact quoted.text_line

theorem split_getAllKeyVals (writable : ∀ e ∈ self.keyValues.entries, Writable e.1 e.2) :
    Global.split self.getAllKeyVals '\n' = self.keyValues.entries.map printed := by
  have shape : self.getAllKeyVals = (self.keyValues.entries.map printed).flatMap fun row => row ++ ['\n'] :=
    (List.flatMap_map printed (fun row => row ++ ['\n']) self.keyValues.entries).symm
  rw [shape]
  refine TextFields.split_rows fun row member => ?_
  obtain ⟨e, inside, rfl⟩ := List.mem_map.1 member
  exact printed_line (writable e inside)

theorem exists_bind_pure {ε α β : Type} {step : Except ε α} {g : α → β} {q : β → Prop} :
    (∃ b, (step >>= fun a => pure (g a)) = pure b ∧ q b) ↔ ∃ a, step = pure a ∧ q (g a) := by
  cases step with
  | error e =>
    constructor
    · rintro ⟨_, wrong, _⟩
      cases wrong
    · rintro ⟨_, wrong, _⟩
      cases wrong
  | ok a =>
    constructor
    · rintro ⟨b, same, holds⟩
      exact ⟨a, rfl, Except.ok.inj same ▸ holds⟩
    · rintro ⟨b, same, holds⟩
      exact ⟨g b, by rw [same]; rfl, holds⟩

/-- A stream is read by its loop from a parser with no pairs. -/
theorem initializeInternal_iff (files : Text → Option Text) (depth : Nat) :
    ∃ processFile, ∀ (self : ConfigParser) (stream : Text) (q : SortedMap Text Text → Prop),
      (∃ loaded, initializeInternal files depth self stream = pure loaded ∧ q loaded.keyValues) ↔
        ∃ loaded, readLines processFile (Global.split stream '\n')
          { self with keyValues := .empty, contents := [], curFilename := self.fileName, curLineNum := 0 } [] =
            pure loaded ∧ q loaded.keyValues := by
  obtain ⟨processFile, same⟩ := readStreamContent_with files depth
  refine ⟨processFile, fun self stream q => ?_⟩
  rw [initializeInternal, same]
  exact exists_bind_pure (q := fun loaded : ConfigParser => q loaded.keyValues)

theorem initializeStream_iff {q : SortedMap Text Text → Prop} (fresh : self.initialized = false) :
    (∃ loaded, initializeStream files depth self stream = pure loaded ∧ q loaded.keyValues) ↔
      ∃ loaded, initializeInternal files depth self stream = pure loaded ∧ q loaded.keyValues := by
  have ready : self.notInitialized = pure () := if_neg (by simp [fresh])
  rw [initializeStream, ready, pure_bind]
  exact exists_bind_pure (q := fun loaded : ConfigParser => q loaded.keyValues)

theorem initializeFile_iff {fname : Text} {q : SortedMap Text Text → Prop} (fresh : self.initialized = false)
    (file : files fname = some stream) :
    (∃ loaded, initializeFile files depth self fname = pure loaded ∧ q loaded.keyValues) ↔
      ∃ loaded, initializeInternal files depth { self with
        fileName := fname
        baseDirs := if extractBaseDir fname = [] then self.baseDirs
          else self.baseDirs ++ [extractBaseDir fname] } stream = pure loaded ∧ q loaded.keyValues := by
  have ready : self.notInitialized = pure () := if_neg (by simp [fresh])
  have opened : openFile files fname = pure stream := by rw [openFile, file]
  rw [initializeFile, ready, pure_bind, opened, pure_bind]
  exact exists_bind_pure (q := fun loaded : ConfigParser => q loaded.keyValues)

/-- A file with lines in quotes is loaded. -/
theorem initializeFile_quoted {fname : Text} {rows : List QuotedLine} (distinct : (rows.map (·.key)).Nodup)
    (fresh : self.initialized = false) (file : files fname = some (fileText rows)) :
    ∃ loaded, initializeFile files depth self fname = pure loaded ∧
      ∀ e, e ∈ loaded.keyValues.entries ↔ e ∈ rows.map QuotedLine.pair := by
  obtain ⟨processFile, internal⟩ := initializeInternal_iff files depth
  refine (initializeFile_iff (q := fun m => ∀ e, e ∈ m.entries ↔ e ∈ rows.map QuotedLine.pair) fresh file).2 ?_
  refine (internal _ _ fun m => ∀ e, e ∈ m.entries ↔ e ∈ rows.map QuotedLine.pair).2 ?_
  rw [split_fileText]
  exact readLines_quoted_empty rfl distinct

/-- The printed pairs of a parser are read back exactly if their values are plain. -/
theorem initializeStream_printed {printer : ConfigParser} (writable : ∀ e ∈ printer.keyValues.entries, Writable e.1 e.2)
    (fresh : self.initialized = false) :
    (∃ again, initializeStream files depth self printer.getAllKeyVals = pure again ∧
      again.keyValues = printer.keyValues) ↔ ∀ e ∈ printer.keyValues.entries, Plain e.2 := by
  obtain ⟨processFile, internal⟩ := initializeInternal_iff files depth
  rw [initializeStream_iff (q := fun m => m = printer.keyValues) fresh,
    internal self printer.getAllKeyVals fun m => m = printer.keyValues, split_getAllKeyVals writable]
  have next : Next { self with keyValues := .empty, contents := [], curFilename := self.fileName, curLineNum := 0 } []
      printer.keyValues.entries := {
    writable
    ordered := printer.keyValues.ordered
    unseen := fun _ _ => List.not_mem_nil
    after := fun first member => absurd member List.not_mem_nil }
  refine Iff.trans ?_ (readLines_printed_iff processFile next)
  refine exists_congr fun again => and_congr_right fun _ => ⟨fun same => ?_, fun same => ?_⟩
  · rw [same]
    rfl
  · exact SortedMap.ext_entries same

end Files

/-- A value in quotes is read as it is, and pairs that are loaded from a file and printed are read back exactly if
every value is plain. -/
theorem getAllKeyVals_reread :
    (∀ (self : ConfigParser) (row : QuotedLine),
      self.parseKeyValue (Global.trim row.text) = pure (row.key, row.value)) ∧
      ∀ (files : Text → Option Text) (depth : Nat) (fname : Text) (reader printer : ConfigParser)
        (rows : List QuotedLine), (rows.map (·.key)).Nodup → files fname = some (fileText rows) →
          reader.initialized = false → printer.initialized = false →
          ∃ loaded, initializeFile files depth printer fname = .ok loaded ∧
            (∀ e, e ∈ loaded.keyValues.entries ↔ ∃ row ∈ rows, e = (row.key, row.value)) ∧
            ((∃ again, initializeStream files depth reader loaded.getAllKeyVals = .ok again ∧
              again.keyValues = loaded.keyValues) ↔ ∀ row ∈ rows, Plain row.value) := by
  refine ⟨fun self row => row.parse_text, ?_⟩
  intro files depth fname reader printer rows distinct file freshReader freshPrinter
  obtain ⟨loaded, run, pairs⟩ := initializeFile_quoted distinct freshPrinter file
  have members : ∀ e, e ∈ loaded.keyValues.entries ↔ ∃ row ∈ rows, e = (row.key, row.value) := by
    intro e
    rw [pairs, List.mem_map]
    exact exists_congr fun row => and_congr_right fun _ => eq_comm
  have writable : ∀ e ∈ loaded.keyValues.entries, Writable e.1 e.2 := by
    intro e member
    obtain ⟨row, -, rfl⟩ := (members e).1 member
    exact row.writable
  refine ⟨loaded, run, members, (initializeStream_printed writable freshReader).trans ?_⟩
  refine ⟨fun plain row member => ?_, fun plain e member => ?_⟩
  · exact plain (row.key, row.value) ((members _).2 ⟨row, member, rfl⟩)
  · obtain ⟨row, inside, rfl⟩ := (members e).1 member
    exact plain row inside

/-- A pair on a line of its own. -/
def bareLine (key value : Text) (writable : Writable key value) : QuotedLine where
  key
  value
  indent := []
  beforeEquals := []
  afterEquals := []
  afterValue := []
  comment := []
  writable
  blank := by simp
  comment_start := by simp
  comment_line := by simp

def spacedLine : QuotedLine :=
  bareLine "k".toList "a b".toList ⟨by decide, List.all_eq_true.mp (by decide), by decide, by decide⟩

theorem getAllKeyVals_reread_spaced :
    ∃ loaded, initializeFile (fun _ => some (fileText [spacedLine])) 0 (.new false false) "f".toList = .ok loaded ∧
      ∃ again, initializeStream (fun _ => none) 0 (.new false false) loaded.getAllKeyVals = .ok again ∧
        again.keyValues = loaded.keyValues := by
  obtain ⟨loaded, run, -, reread⟩ := getAllKeyVals_reread.2 (fun _ => some (fileText [spacedLine])) 0 "f".toList
    (.new false false) (.new false false) [spacedLine] (by decide) rfl rfl rfl
  have plain : Plain spacedLine.value :=
    ⟨by decide, fun c found => by cases found; decide, fun c found => by cases found; decide⟩
  obtain ⟨again, same⟩ := reread.2 (List.forall_mem_singleton.mpr plain)
  exact ⟨loaded, run, again, same⟩

def hashLine : QuotedLine :=
  bareLine "k".toList "a#b".toList ⟨by decide, List.all_eq_true.mp (by decide), by decide, by decide⟩

/-- The value `a#b` is loaded, and its printed text is read as the value `a`. -/
theorem getAllKeyVals_comment :
    (initializeFile (fun _ => some (fileText [hashLine])) 0 (.new false false) "f".toList).map
        (fun loaded => loaded.keyValues.entries) = .ok [("k".toList, "a#b".toList)] ∧
      ((initializeFile (fun _ => some (fileText [hashLine])) 0 (.new false false) "f".toList) >>= fun loaded =>
        initializeStream (fun _ => none) 0 (.new false false) loaded.getAllKeyVals).map
          (fun again => again.keyValues.entries) = .ok [("k".toList, "a".toList)] := by
  decide +kernel

end KataGo.Core.ConfigParser
