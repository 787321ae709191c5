import KataGo.Core.ConfigParser

/-! Lines with one pair of a key and a value: in quotes, and as they are printed. -/

namespace KataGo.Core.ConfigParser
open KataGo.Game KataGo.Lib

variable {fail : ConfigError} {self : ConfigParser} {c : Char} {key value found blanks rest acc : Text} {α β : Type}

section Characters

theorem whitespace_cases (blank : isWhitespace c = true) : c ∈ ['\x00', ' ', '\t', '\r', '\n', '\x0b', '\x0c'] := by
  rw [isWhitespace, Global.isDelim, Bool.or_eq_true, decide_eq_true_eq, decide_eq_true_eq] at blank
  exact List.mem_cons.2 blank

theorem isWhitespace_of_delim (delim : Global.isDelim c = true) : isWhitespace c = true := by
  rw [isWhitespace, delim, Bool.or_true]

theorem not_delim (visible : isWhitespace c = false) : Global.isDelim c = false :=
  (Bool.or_eq_false_iff.1 visible).2

/-- What ends a key starts no comment. -/
theorem separator_facts (separator : isWhitespace c = true ∨ c = '=') : isKeyChar c = false ∧ c ≠ '#' := by
  have cases_ : c ∈ ['\x00', ' ', '\t', '\r', '\n', '\x0b', '\x0c', '='] := by
    rcases separator with blank | rfl
    · exact List.mem_append_left ['='] (whitespace_cases blank)
    · decide
  have all : (['\x00', ' ', '\t', '\r', '\n', '\x0b', '\x0c', '='].all fun c => !isKeyChar c && c != '#') = true := by decide
  have this := List.all_eq_true.mp all c cases_
  rw [Bool.and_eq_true, Bool.not_eq_true', bne_iff_ne] at this
  exact this

theorem keyChar_visible (keyChar : isKeyChar c = true) : isWhitespace c = false :=
  Bool.eq_false_iff.2 fun blank => Bool.eq_false_iff.1 (separator_facts (.inl blank)).1 keyChar

end Characters

section Scan

theorem raise_bind (f : α → Scan β) : (raise fail >>= f) = raise fail := rfl

theorem raise_ne_pure {a : α} : raise fail ≠ (pure a : Scan α) := nofun

theorem pure_inj {a b : α} (same : (pure a : Scan α) = pure b) : a = b :=
  Option.some.inj (Except.ok.inj same)

/-- A result comes from a result of the first step. -/
theorem bind_eq_pure {step : Scan α} {f : α → Scan β} {b : β} (result : (step >>= f) = pure b) :
    ∃ a, step = pure a ∧ f a = pure b := by
  match step, result with
  | .ok (some a), result => exact ⟨a, rfl, result⟩

theorem ite_eq_pure {p : Prop} [Decidable p] {a b : α} (result : (if p then pure a else raise fail : Scan α) = pure b) :
    p ∧ a = b := by
  split_ifs at result with holds
  · exact ⟨holds, pure_inj result⟩
  · exact absurd result raise_ne_pure

/-- A step that does not return `false`. -/
def Decided (fail : ConfigError) (step : Scan α) : Prop := step = raise fail ∨ ∃ a, step = pure a

theorem Decided.bind {step : Scan α} {f : α → Scan β} (first : Decided fail step) (next : ∀ a, Decided fail (f a)) :
    Decided fail (step >>= f) := by
  rcases first with rfl | ⟨a, rfl⟩
  · exact .inl (raise_bind f)
  · rw [pure_bind]
    exact next a

theorem Decided.ite {p : Prop} [Decidable p] {left right : Scan α} (yes : Decided fail left) (no : Decided fail right) :
    Decided fail (if p then left else right) := by
  split_ifs
  · exact yes
  · exact no

theorem decided_pure (a : α) : Decided fail (pure a : Scan α) := .inr ⟨a, rfl⟩

theorem decided_raise : Decided fail (raise fail : Scan α) := .inl rfl

end Scan

section Key

theorem parseKey_append (keyChars : ∀ c ∈ key, isKeyChar c = true) (acc rest : Text) :
    parseKey fail acc (key ++ rest) = parseKey fail (acc ++ key) rest := by
  induction key generalizing acc with
  | nil => rw [List.nil_append, List.append_nil]
  | cons c key ih =>
    rw [List.cons_append, parseKey, if_pos (keyChars c List.mem_cons_self),
      ih (fun c member => keyChars c (List.mem_cons_of_mem _ member)), List.append_assoc]
    rfl

theorem parseKey_separator (separator : isWhitespace c = true ∨ c = '=') (acc rest : Text) :
    parseKey fail acc (c :: rest) = pure (acc, c :: rest) := by
  obtain ⟨stop, different⟩ := separator_facts separator
  rw [parseKey, if_neg (by simp [stop]), if_neg different, if_pos separator]

theorem skipToEquals_blanks (blank : ∀ c ∈ blanks, isWhitespace c = true) (found : Bool) (rest : Text) :
    skipToEquals fail found (blanks ++ '=' :: rest) = pure ('=' :: rest) := by
  induction blanks with
  | nil => rfl
  | cons c blanks ih =>
    rw [List.cons_append, skipToEquals, if_pos (blank c List.mem_cons_self),
      ih fun c member => blank c (List.mem_cons_of_mem _ member)]

/-- After a key, a value may not be missing. -/
theorem skipToValue_eq (rest : Text) :
    skipToValue fail true rest =
      if (rest.dropWhile isWhitespace).head? = some '#' then raise fail else pure (rest.dropWhile isWhitespace) := by
  induction rest with
  | nil => rfl
  | cons c rest ih =>
    rw [skipToValue]
    by_cases blank : isWhitespace c = true
    · rw [if_pos blank, ih, List.dropWhile_cons_of_pos blank]
    · rw [if_neg blank, List.dropWhile_cons_of_neg blank, List.head?_cons]
      by_cases comment : c = '#'
      · rw [if_pos comment, if_pos rfl, if_pos (congrArg some comment)]
      · rw [if_neg comment, if_neg (by simpa using comment)]

end Key

/-- What follows the equals sign of a key. -/
def readValue (fail : ConfigError) (rest : Text) : Scan Text := do
  let rest ← skipToValue fail true rest
  let found ← parseValue fail rest
  if found.foundAnyValue then return found.value else raise fail

theorem parseKeyValue_eq (nonempty : key ≠ []) (keyChars : ∀ c ∈ key, isKeyChar c = true)
    (blank : ∀ c ∈ blanks, isWhitespace c = true) (rest : Text) :
    self.parseKeyValue (key ++ (blanks ++ '=' :: rest)) =
      (readValue (self.parsingError "Could not parse key value pair") rest >>= fun value => pure (key, value)) := by
  have stopped : parseKey (self.parsingError "Could not parse key value pair") [] (key ++ (blanks ++ '=' :: rest)) =
      pure (key, blanks ++ '=' :: rest) := by
    rw [parseKey_append keyChars, List.nil_append]
    cases blanks with
    | nil => exact parseKey_separator (.inr rfl) key rest
    | cons c blanks => exact parseKey_separator (.inl (blank c List.mem_cons_self)) key _
  simp only [parseKeyValue, stopped, pure_bind, skipToEquals_blanks blank, readValue, bind_assoc]
  simp only [decide_eq_true nonempty, ne_eq, reduceCtorEq, not_false_eq_true, decide_true, Bool.true_or, List.tail_cons,
    Bool.true_and]
  congr 1
  funext after
  congr 1
  funext ⟨quotes, any, value⟩
  cases any
  · cases quotes <;> rfl
  · cases quotes <;> rfl

section Quoted

/-- A character of a value in quotes. -/
def escapeChar (c : Char) : Text := if c = '\x22' ∨ c = '\\' then ['\\', c] else [c]

theorem quotedValue_char (c : Char) (acc rest : Text) :
    quotedValue fail acc (escapeChar c ++ rest) = quotedValue fail (acc ++ [c]) rest := by
  unfold escapeChar
  split_ifs with special
  · rw [List.cons_append, List.singleton_append, quotedValue]
  · rw [List.singleton_append, quotedValue]
    · exact fun slash _ => special (.inr slash)
    · exact fun _ _ slash _ => special (.inr slash)
    · exact fun quote => special (.inl quote)

theorem quotedValue_escaped (value acc rest : Text) :
    quotedValue fail acc (value.flatMap escapeChar ++ '"' :: rest) = pure (acc ++ value, rest) := by
  induction value generalizing acc with
  | nil => rw [List.append_nil, List.flatMap_nil, List.nil_append, quotedValue]
  | cons c value ih =>
    rw [List.flatMap_cons, List.append_assoc, quotedValue_char, ih, List.append_assoc]
    rfl

/-- A quoted value is shorter than its text with the closing quote. -/
theorem quotedValue_length (read : quotedValue fail acc rest = pure (value, found)) :
    value.length + 1 ≤ acc.length + rest.length := by
  induction acc, rest using quotedValue.induct with
  | case1 => exact absurd read raise_ne_pure
  | case2 => exact absurd read raise_ne_pure
  | case3 acc c rest ih =>
    have bound := ih read
    rw [List.length_append, List.length_singleton] at bound
    simp only [List.length_cons]
    omega
  | case4 acc rest =>
    rw [quotedValue] at read
    obtain ⟨rfl, rfl⟩ := Prod.mk.inj (pure_inj read)
    simp only [List.length_cons]
    omega
  | case5 acc c rest last slash quote ih =>
    rw [quotedValue.eq_5 _ _ _ _ last slash quote] at read
    have bound := ih read
    rw [List.length_append, List.length_singleton] at bound
    simp only [List.length_cons]
    omega

theorem quotedValue_decided (acc rest : Text) : Decided fail (quotedValue fail acc rest) := by
  induction acc, rest using quotedValue.induct with
  | case1 => exact decided_raise
  | case2 => exact decided_raise
  | case3 acc c rest ih =>
    rw [quotedValue]
    exact ih
  | case4 acc rest =>
    rw [quotedValue]
    exact decided_pure _
  | case5 acc c rest last slash quote ih =>
    rw [quotedValue.eq_5 _ _ _ _ last slash quote]
    exact ih

/-- A comment may follow the closing quote. -/
theorem checkRemainder_comment {comment : Text} (blank : ∀ c ∈ blanks, Global.isDelim c = true)
    (start : ∀ c ∈ comment.head?, c = '#') :
    checkRemainder fail ((blanks ++ comment).rdropWhile Global.isDelim) = pure () := by
  have trimmed : Global.trim ((blanks ++ comment).rdropWhile Global.isDelim) = Global.trim comment :=
    (TextFields.trim_rdropWhile _).trans (TextFields.trim_blank_append blank comment)
  rw [checkRemainder, trimmed]
  cases comment with
  | nil => rfl
  | cons c comment =>
    obtain rfl := start c rfl
    have hash : Global.trim ('#' :: comment) = '#' :: comment.rdropWhile Global.isDelim :=
      TextFields.trim_cons_stop comment (by decide)
    rw [hash]
    exact if_neg fun wrong => wrong.2 rfl

theorem parseValue_quoted {remainder : Text} (checked : checkRemainder fail remainder = pure ()) (value : Text) :
    parseValue fail ('"' :: (value.flatMap escapeChar ++ '"' :: remainder)) = pure ⟨true, value ≠ [], value⟩ := by
  rw [parseValue, quotedValue_escaped, pure_bind]
  show (checkRemainder fail remainder >>= fun _ => _) = _
  rw [checked, pure_bind]
  rfl

theorem readValue_quoted {remainder : Text} (blank : ∀ c ∈ blanks, isWhitespace c = true)
    (checked : checkRemainder fail remainder = pure ()) (nonempty : value ≠ []) :
    readValue fail (blanks ++ '"' :: (value.flatMap escapeChar ++ '"' :: remainder)) = pure value := by
  rw [readValue, skipToValue_eq, List.dropWhile_append_of_pos blank, List.dropWhile_cons_of_neg (by decide),
    if_neg (by rw [List.head?_cons]; decide), pure_bind, parseValue_quoted checked, pure_bind]
  exact if_pos (decide_eq_true nonempty)

end Quoted

section Bare

/-- A value that is read as it stands: it starts no comment, and its ends are neither blank nor a quote that opens. -/
def Plain (value : Text) : Prop :=
  '#' ∉ value ∧ (∀ c ∈ value.head?, isWhitespace c = false ∧ c ≠ '"') ∧ ∀ c ∈ value.getLast?, Global.isDelim c = false

instance (value : Text) : Decidable (Plain value) :=
  @instDecidableAnd _ _ inferInstance (@instDecidableAnd _ _ (Option.decidableForallMem _) (Option.decidableForallMem _))

theorem parseValue_bare (bare : rest.head? ≠ some '"') :
    parseValue fail rest =
      pure ⟨false, rest.takeWhile (· ≠ '#') ≠ [], Global.trim (rest.takeWhile (· ≠ '#'))⟩ := by
  unfold parseValue
  split
  · exact absurd rfl bare
  · rfl

/-- What is left of a text without its comment and its blanks. -/
theorem plain_trim (visible : isWhitespace c = false) (noQuote : c ≠ '"') (noComment : c ≠ '#') (rest : Text) :
    Plain (Global.trim ((c :: rest).takeWhile (· ≠ '#'))) := by
  have kept : (c :: rest).takeWhile (· ≠ '#') = c :: rest.takeWhile (· ≠ '#') :=
    List.takeWhile_cons_of_pos (by simpa using noComment)
  have trimmed : Global.trim (c :: rest.takeWhile (· ≠ '#')) =
      c :: (rest.takeWhile (· ≠ '#')).rdropWhile Global.isDelim :=
    TextFields.trim_cons_stop _ (not_delim visible)
  refine ⟨fun member => ?_, fun first found => ?_, fun last found => TextFields.getLast?_trim found⟩
  · have inside := (TextFields.trim_sublist _).subset member
    simpa using List.mem_takeWhile_imp inside
  · rw [kept, trimmed, List.head?_cons, Option.mem_some_iff] at found
    subst found
    exact ⟨visible, noQuote⟩

/-- A value that is read is plain, or longer with its quotes. -/
theorem readValue_cases (read : readValue fail rest = pure value) :
    Plain value ∨ value.length + 2 ≤ (rest.dropWhile isWhitespace).length := by
  rw [readValue, skipToValue_eq] at read
  obtain ⟨after, skipped, read⟩ := bind_eq_pure read
  obtain ⟨⟨quotes, any, content⟩, parsed, read⟩ := bind_eq_pure read
  obtain ⟨nonempty, rfl⟩ := ite_eq_pure read
  split_ifs at skipped with comment
  · exact absurd skipped raise_ne_pure
  obtain rfl := pure_inj skipped
  by_cases quote : (rest.dropWhile isWhitespace).head? = some '"'
  · obtain ⟨quoted, same⟩ := List.head?_eq_some_iff.1 quote
    rw [same, parseValue] at parsed
    obtain ⟨⟨content, remainder⟩, closed, parsed⟩ := bind_eq_pure parsed
    obtain ⟨-, -, parsed⟩ := bind_eq_pure parsed
    obtain rfl : content = _ := congrArg Found.value (pure_inj parsed)
    have bound := quotedValue_length closed
    rw [List.length_nil] at bound
    rw [same, List.length_cons]
    exact .inr (by show content.length + 2 ≤ _; omega)
  · rw [parseValue_bare quote] at parsed
    obtain ⟨rfl, rfl, rfl⟩ := Found.mk.inj (pure_inj parsed)
    cases dropped : rest.dropWhile isWhitespace with
    | nil =>
      rw [dropped] at nonempty
      exact absurd nonempty (by decide)
    | cons c after =>
      rw [dropped, List.head?_cons] at comment quote
      have visible : isWhitespace c = false := by
        have first := List.head?_dropWhile_not isWhitespace rest
        rw [dropped] at first
        simpa using first
      exact .inl (plain_trim visible (by simpa using quote) (by simpa using comment) after)

theorem readValue_decided (rest : Text) : Decided fail (readValue fail rest) := by
  refine .bind ?_ fun after => .bind ?_ fun found => .ite (decided_pure _) decided_raise
  · rw [skipToValue_eq]
    exact .ite decided_raise (decided_pure _)
  · unfold parseValue
    split
    · refine .bind (quotedValue_decided _ _) fun closed => ?_
      exact .bind (.ite decided_raise (decided_pure _)) fun _ => decided_pure _
    · exact decided_pure _

/-- A printed value is read as itself exactly if it is plain. -/
theorem readValue_printed (nonempty : value ≠ []) :
    readValue fail ((' ' :: value).rdropWhile Global.isDelim) = pure value ↔ Plain value := by
  constructor
  · intro read
    refine (readValue_cases read).resolve_right fun longer => ?_
    have front := List.rdropWhile_prefix Global.isDelim (' ' :: value)
    rcases List.prefix_cons_iff.1 front with empty | ⟨front, same, shorter⟩
    · rw [empty] at longer
      exact absurd longer (by simp)
    · rw [same, List.dropWhile_cons_of_pos (by decide)] at longer
      have bound := (List.dropWhile_sublist (l := front) isWhitespace).length_le.trans shorter.length_le
      omega
  · rintro ⟨noComment, first, last⟩
    obtain ⟨c, tail, rfl⟩ := List.exists_cons_of_ne_nil nonempty
    obtain ⟨visible, noQuote⟩ := first c rfl
    have kept : (' ' :: c :: tail).rdropWhile Global.isDelim = ' ' :: c :: tail := by
      refine List.rdropWhile_eq_self_iff.2 fun _ => ?_
      rw [Bool.not_eq_true]
      refine last _ ?_
      rw [List.getLast_cons (List.cons_ne_nil c tail)]
      exact List.getLast_mem_getLast? _
    have whole : (c :: tail).takeWhile (· ≠ '#') = c :: tail :=
      List.takeWhile_eq_self_iff.2 fun b member => by
        rw [decide_eq_true_eq]
        rintro rfl
        exact noComment member
    have trimmed : Global.trim (c :: tail) = c :: tail :=
      TextFields.trim_eq_self (fun b found => by
        obtain rfl : c = b := by simpa using found
        exact not_delim visible) last
    have start : c ≠ '#' := fun hash => noComment (hash ▸ List.mem_cons_self)
    rw [readValue, skipToValue_eq, kept, List.dropWhile_cons_of_pos (by decide),
      List.dropWhile_cons_of_neg (by simp [visible]), if_neg (by simpa using start), pure_bind,
      parseValue_bare (by simpa using noQuote), pure_bind, whole, trimmed]
    rfl

end Bare

end KataGo.Core.ConfigParser
