import KataGo.Lib.JsonText
import KataGo.Lib.Utf8
import Mathlib.Data.Nat.Digits.Lemmas
import Mathlib.Tactic.IntervalCases
import Mathlib.Algebra.Order.BigOperators.Group.List

/-! The parser reads the text of a value back as the same value. -/

namespace KataGo.Lib

namespace NumberToken

variable {rest : List Char}

theorem isDigit_digitChar : ∀ {d : Nat}, d < 10 → isDigit (Nat.digitChar d) = true := by
  decide

theorem Stops.takeWhile (stops : Stops rest) : rest.takeWhile isDigit = [] := by
  cases rest with
  | nil => rfl
  | cons c rest => simp [(stops c rfl).1]

theorem Stops.dropWhile (stops : Stops rest) : rest.dropWhile isDigit = rest := by
  cases rest with
  | nil => rfl
  | cons c rest => simp [(stops c rfl).1]

theorem takeWhile_digits {digits : List Char} (all : ∀ c ∈ digits, isDigit c = true) (stops : Stops rest) :
    (digits ++ rest).takeWhile isDigit = digits := by
  rw [List.takeWhile_append_of_pos all, stops.takeWhile, List.append_nil]

theorem dropWhile_digits {digits : List Char} (all : ∀ c ∈ digits, isDigit c = true) (stops : Stops rest) :
    (digits ++ rest).dropWhile isDigit = rest := by
  rw [List.dropWhile_append_of_pos all, stops.dropWhile]

theorem Stops.scanFraction (stops : Stops rest) : scanFraction rest = ([], rest) := by
  unfold NumberToken.scanFraction
  split
  next c rest => exact absurd rfl (stops '.' rfl).2.1
  next => rfl

theorem Stops.scanExponent (stops : Stops rest) : scanExponent rest = ([], rest) := by
  have other : ∀ e ∈ rest.head?, ¬(e = 'e' ∨ e = 'E') := by
    rintro e first (same | same)
    · exact (stops e first).2.2.1 same
    · exact (stops e first).2.2.2 same
  unfold NumberToken.scanExponent
  split
  next e sign c rest => simp [other e rfl]
  next e c => simp [other e rfl]
  next => rfl

theorem Stops.scan_zero (stops : Stops rest) : scan ('0' :: '.' :: '0' :: rest) = some (⟨['0', '.', '0'], true⟩, rest) := by
  have fraction : NumberToken.scanFraction ('.' :: '0' :: rest) = (['.', '0'], rest) := by
    show ('.' :: '0' :: rest.takeWhile isDigit, rest.dropWhile isDigit) = _
    rw [stops.takeWhile, stops.dropWhile]
  simp only [scan, scanWhole, Option.bind_eq_bind, Option.bind_some, fraction, stops.scanExponent]
  rfl

/-- A digit that does not start a longer number with a zero. -/
theorem scanWhole_digit {c : Char} {digits : List Char} (digit : isDigit c = true) (nonzero : c ≠ '0')
    (all : ∀ c ∈ digits, isDigit c = true) (stops : Stops rest) :
    scanWhole (c :: digits ++ rest) = some (c :: digits, rest) ∧
      scanWhole ('-' :: c :: digits ++ rest) = some ('-' :: c :: digits, rest) := by
  have notSign : c ≠ '-' := by
    rintro rfl
    cases digit
  constructor
  · simp [scanWhole, notSign, digit, takeWhile_digits all stops, dropWhile_digits all stops]
  · simp [scanWhole, digit, takeWhile_digits all stops, dropWhile_digits all stops]

end NumberToken

namespace Json

variable {F : Type} {rest : List Char}

theorem decimal_cases (n : Nat) : (n = 0 ∧ decimal n = ['0']) ∨
    ∃ c digits, decimal n = c :: digits ∧ NumberToken.isDigit c = true ∧ c ≠ '0' ∧
      ∀ c ∈ digits, NumberToken.isDigit c = true := by
  by_cases zero : n = 0
  · exact .inl ⟨zero, if_pos zero⟩
  · right
    have below : ∀ d ∈ (Nat.digits 10 n).reverse, d < 10 := by
      intro d member
      exact Nat.digits_lt_base (by decide) (List.mem_reverse.mp member)
    have leading := Nat.getLast_digit_ne_zero 10 zero
    have nonempty : Nat.digits 10 n ≠ [] := Nat.digits_ne_nil_iff_ne_zero.mpr zero
    rw [decimal, if_neg zero]
    cases reversed : (Nat.digits 10 n).reverse with
    | nil => exact absurd (List.reverse_eq_nil_iff.mp reversed) nonempty
    | cons d digits =>
      have first : (Nat.digits 10 n).getLast nonempty = d := by
        rw [List.getLast_eq_head_reverse]
        simp [reversed]
      rw [reversed] at below
      have small : d < 10 := below d List.mem_cons_self
      refine ⟨Nat.digitChar d, digits.map Nat.digitChar, rfl, NumberToken.isDigit_digitChar small, ?_, ?_⟩
      · have positive : d ≠ 0 := first ▸ leading
        clear first reversed below
        interval_cases d <;> first | exact absurd rfl positive | decide
      · intro c member
        obtain ⟨d', there, rfl⟩ := List.mem_map.mp member
        exact NumberToken.isDigit_digitChar (below d' (List.mem_cons_of_mem _ there))

theorem decimal_isDigit (n : Nat) : ∀ c ∈ decimal n, NumberToken.isDigit c = true := by
  intro c member
  rcases decimal_cases n with ⟨-, zero⟩ | ⟨first, digits, equal, digit, -, all⟩
  · rw [zero, List.mem_singleton] at member
    subst member
    decide
  · rw [equal] at member
    rcases List.mem_cons.mp member with rfl | later
    · exact digit
    · exact all c later

theorem foldl_decimal (n : Nat) :
    (decimal n).foldl (fun n c => n * 10 + (c.toNat - '0'.toNat)) 0 = n := by
  have value : ∀ digits : List Nat, (∀ d ∈ digits, d < 10) →
      (digits.reverse.map Nat.digitChar).foldl (fun n c => n * 10 + (c.toNat - '0'.toNat)) 0 =
        Nat.ofDigits 10 digits := by
    intro digits
    induction digits with
    | nil =>
      intro _
      rfl
    | cons d digits ih =>
      intro below
      have small : d < 10 := below d List.mem_cons_self
      have digit : (Nat.digitChar d).toNat - '0'.toNat = d := by
        clear below ih
        interval_cases d <;> rfl
      rw [List.reverse_cons, List.map_append, List.foldl_append,
        ih fun d' member => below d' (List.mem_cons_of_mem _ member), Nat.ofDigits_cons]
      simp only [List.map_cons, List.map_nil, List.foldl_cons, List.foldl_nil, digit]
      omega
  by_cases zero : n = 0
  · subst zero
    rfl
  · rw [decimal, if_neg zero, value _ fun d member => Nat.digits_lt_base (by decide) member, Nat.ofDigits_digits]

theorem foldl_zeros (count : Nat) (digits : List Char) :
    (List.replicate count '0' ++ digits).foldl (fun n c => n * 10 + (c.toNat - '0'.toNat)) 0 =
      digits.foldl (fun n c => n * 10 + (c.toNat - '0'.toNat)) 0 := by
  induction count with
  | zero => rfl
  | succ count ih =>
    rw [List.replicate_succ, List.cons_append, List.foldl_cons]
    exact ih

theorem intOfText_intText (n : Int) : intOfText (intText n) = n := by
  rw [intText]
  split
  next negative =>
    rw [intOfText, foldl_decimal]
    omega
  next positive =>
    have unsigned : ∀ digits, intOfText (decimal n.natAbs) = digits → digits = (n.natAbs : Int) := by
      intro digits result
      unfold intOfText at result
      split at result
      next rest equal =>
        have sign : NumberToken.isDigit '-' = true := decimal_isDigit n.natAbs '-' (by rw [equal]; simp)
        cases sign
      next => rw [← result, foldl_decimal]
    rw [unsigned _ rfl]
    omega

theorem intText_digits (n : Int) :
    ((intText n).filter NumberToken.isDigit).length = (decimal n.natAbs).length := by
  have all : (decimal n.natAbs).filter NumberToken.isDigit = decimal n.natAbs :=
    List.filter_eq_self.mpr (decimal_isDigit n.natAbs)
  rw [intText]
  split
  · have sign : NumberToken.isDigit '-' = false := by decide
    rw [List.filter_cons, sign, all]
    rfl
  · rw [all]

theorem scanWhole_intText (n : Int) (stops : NumberToken.Stops rest) :
    NumberToken.scanWhole (intText n ++ rest) = some (intText n, rest) := by
  rw [intText]
  rcases decimal_cases n.natAbs with ⟨zero, equal⟩ | ⟨c, digits, equal, digit, nonzero, all⟩
  · rw [equal]
    split
    · rfl
    · rfl
  · rw [equal]
    obtain ⟨positive, negative⟩ := NumberToken.scanWhole_digit digit nonzero all stops
    split
    · exact negative
    · exact positive

theorem scan_intText (n : Int) (stops : NumberToken.Stops rest) :
    NumberToken.scan (intText n ++ rest) = some (⟨intText n, false⟩, rest) := by
  rw [NumberToken.scan, scanWhole_intText n stops]
  simp [stops.scanFraction, stops.scanExponent]

theorem hexValue_hexDigit : ∀ {d : Nat}, d < 16 → hexValue (hexDigit d) = some d := by
  decide

theorem parseString_cons {c : Char} (plain : c ≠ '"') (other : c ≠ '\\') (visible : 32 ≤ c.toNat) :
    parseString none (c :: rest) = (parseString none rest).map fun result => (c :: result.1, result.2) := by
  rw [parseString]
  · cases parseString none rest with
    | none => rfl
    | some result => simp [visible, other]
  all_goals simp_all

theorem parseString_unescape {e c : Char} (found : unescape e = some c) :
    parseString none ('\\' :: e :: rest) = (parseString none rest).map fun result => (c :: result.1, result.2) := by
  have other : e ≠ 'u' := by
    rintro rfl
    cases found
  rw [parseString]
  · rw [found]
    cases parseString none rest with
    | none => rfl
    | some result => rfl
  · intro a b c d rest' equal
    exact absurd equal other

theorem parseString_hex {c : Char} (small : c.toNat < 32) :
    parseString none ('\\' :: 'u' :: '0' :: '0' :: hexDigit (c.toNat / 16) :: hexDigit (c.toNat % 16) :: rest) =
      (parseString none rest).map fun result => (c :: result.1, result.2) := by
  have code : hex4 '0' '0' (hexDigit (c.toNat / 16)) (hexDigit (c.toNat % 16)) = some c.toNat := by
    have zero : hexValue '0' = some 0 := by decide
    rw [hex4, zero, hexValue_hexDigit (show c.toNat / 16 < 16 by omega),
      hexValue_hexDigit (show c.toNat % 16 < 16 by omega)]
    show some _ = some _
    congr 1
    omega
  have notHigh : isHigh c.toNat = false := by
    simp [isHigh]
    omega
  have notLow : isLow c.toNat = false := by
    simp [isLow]
    omega
  rw [parseString, code]
  simp only [Option.bind_eq_bind, Option.bind_some, notHigh, notLow, Bool.false_eq_true, if_false, Char.ofNat_toNat]
  cases parseString none rest with
  | none => rfl
  | some result => rfl

theorem unescape_shortEscape {c e : Char} (found : shortEscape c = some e) : unescape e = some c := by
  unfold shortEscape at found
  split at found <;> cases found <;> rfl

theorem parseString_escape (c : Char) :
    parseString none (escape c ++ rest) = (parseString none rest).map fun result => (c :: result.1, result.2) := by
  unfold escape
  split
  next e found => exact parseString_unescape (unescape_shortEscape found)
  next absent =>
    split
    next small => exact parseString_hex small
    next large =>
      apply parseString_cons _ _ (by omega)
      · rintro rfl
        cases absent
      · rintro rfl
        cases absent

/-- A string reads back as itself. -/
theorem parseString_quoted (cs : List Char) : parseString none (cs.flatMap escape ++ '"' :: rest) = some (cs, rest) := by
  induction cs with
  | nil => rfl
  | cons c cs ih =>
    rw [List.flatMap_cons, List.append_assoc, parseString_escape, ih]
    rfl

theorem lookup_eq_some_iff {fields : List (String × Json F)} (distinct : (fields.map Prod.fst).Nodup) {key : String}
    {v : Json F} : fields.lookup key = some v ↔ (key, v) ∈ fields := by
  induction fields with
  | nil => simp
  | cons field fields ih =>
    obtain ⟨key', w⟩ := field
    rw [List.map_cons, List.nodup_cons] at distinct
    rw [List.lookup_cons, List.mem_cons]
    by_cases same : key = key'
    · subst same
      have absent : (key, v) ∉ fields := fun member => distinct.1 (List.mem_map.mpr ⟨(key, v), member, rfl⟩)
      simp [absent, eq_comm]
    · have other : (key == key') = false := by simpa using same
      simp [other, same, ih distinct.2]

/-- The order of the fields does not matter for the value of a key. -/
theorem get_perm {fields fields' : List (String × Json F)} (distinct : (fields.map Prod.fst).Nodup)
    (perm : fields'.Perm fields) (key : String) : get fields' key = get fields key := by
  have distinct' : (fields'.map Prod.fst).Nodup := (perm.map Prod.fst).nodup_iff.mpr distinct
  have same : fields'.lookup key = fields.lookup key := by
    apply Option.ext
    intro v
    exact (lookup_eq_some_iff distinct').trans (perm.mem_iff.trans (lookup_eq_some_iff distinct).symm)
  rw [get, same, get]

section Values

variable [NumberText F] {hooks : Hooks F}

omit [NumberText F] in
/-- Induction over the values nested in a value. -/
theorem induction {P : Json F → Prop} (null : P .null) (bool : ∀ b, P (.bool b)) (int : ∀ n, P (.int n))
    (float : ∀ x, P (.float x)) (str : ∀ s, P (.str s)) (arr : ∀ items, (∀ v ∈ items, P v) → P (.arr items))
    (obj : ∀ fields : List (String × Json F), (∀ field ∈ fields, P field.2) → P (.obj fields)) (v : Json F) : P v := by
  refine @Json.rec F P (fun items => ∀ v ∈ items, P v) (fun fields => ∀ field ∈ fields, P field.2)
    (fun field => P field.2) null bool int float str arr obj (by simp) ?_ (by simp) ?_ (fun _ _ holds => holds) v
  · intro first rest holds all v member
    rcases List.mem_cons.mp member with rfl | later
    · exact holds
    · exact all v later
  · intro first rest holds all field member
    rcases List.mem_cons.mp member with rfl | later
    · exact holds
    · exact all field later

/-- A character that starts a value: no space, no closing bracket and no byte order mark. -/
def Opens (c : Char) : Prop := c ∉ [' ', '\t', '\n', '\r', ']', '}', Char.ofNat 0xFEFF]

instance (c : Char) : Decidable (Opens c) := inferInstanceAs (Decidable (c ∉ _))

theorem skipSpace_opens {c : Char} {cs : List Char} (opens : Opens c) : skipSpace (c :: cs) = c :: cs := by
  simp only [Opens, List.mem_cons, List.not_mem_nil, or_false, not_or] at opens
  simp [skipSpace, opens]

theorem skipSpace_closing {c : Char} (closing : c = ',' ∨ c = ']' ∨ c = '}' ∨ c = ':') {cs : List Char} :
    skipSpace (c :: cs) = c :: cs := by
  rcases closing with rfl | rfl | rfl | rfl <;> rfl

theorem opens_digit {c : Char} (digit : NumberToken.isDigit c = true) : Opens c := by
  intro member
  simp only [List.mem_cons, List.not_mem_nil, or_false] at member
  rcases member with rfl | rfl | rfl | rfl | rfl | rfl | rfl <;> cases digit

theorem scanWhole_head {cs : List Char} {result : List Char × List Char}
    (found : NumberToken.scanWhole cs = some result) :
    ∃ c rest, cs = c :: rest ∧ (NumberToken.isDigit c = true ∨
      (c = '-' ∧ ∃ d rest', rest = d :: rest' ∧ NumberToken.isDigit d = true)) := by
  unfold NumberToken.scanWhole at found
  split at found
  next rest => exact ⟨'-', '0' :: rest, rfl, .inr ⟨rfl, '0', rest, rfl, by decide⟩⟩
  next c rest _ =>
    split at found
    next digit => exact ⟨'-', c :: rest, rfl, .inr ⟨rfl, c, rest, rfl, digit⟩⟩
    next => cases found
  next rest => exact ⟨'0', rest, rfl, .inl (by decide)⟩
  next c rest _ _ _ =>
    split at found
    next digit => exact ⟨c, rest, rfl, .inl digit⟩
    next => cases found
  next => cases found

theorem scanWhole_of_scan {cs : List Char} {result : NumberToken × List Char}
    (found : NumberToken.scan cs = some result) : ∃ whole, NumberToken.scanWhole cs = some whole := by
  rw [NumberToken.scan] at found
  cases scanned : NumberToken.scanWhole cs with
  | none => simp [scanned] at found
  | some whole => exact ⟨whole, rfl⟩

/-- A text that scans as a number is read as a number. -/
theorem parseValue_number {cs : List Char} {result : NumberToken × List Char} {fuel : Nat}
    (found : NumberToken.scan cs = some result) : parseValue hooks (fuel + 1) cs = parseNumber cs := by
  obtain ⟨whole, scanned⟩ := scanWhole_of_scan found
  obtain ⟨c, rest, rfl, digit | ⟨rfl, d, rest', rfl, digit⟩⟩ := scanWhole_head scanned
  · rw [parseValue]
    all_goals
      intro rest' same
      cases same
      cases digit
  · rw [parseValue]
    all_goals
      intro rest same
      first
      | (cases same; done)
      | (cases same; cases digit)

/-- How every value reads back, with what follows it left over. -/
def ReadsBack (hooks : Hooks F) (v : Json F) : Prop :=
  ∀ fuel rest, NumberToken.Stops rest → 2 * (text v).length ≤ fuel →
    parseValue hooks fuel (text v ++ rest) = some (v, rest)

theorem text_opens {v : Json F} (writable : encodable v = true) : ∃ c cs, text v = c :: cs ∧ Opens c := by
  have stops : NumberToken.Stops [] := by
    intro c member
    cases member
  cases v with
  | null => exact ⟨_, _, rfl, by decide⟩
  | bool b => cases b <;> exact ⟨_, _, rfl, by decide⟩
  | str s => exact ⟨_, _, rfl, by decide⟩
  | arr items => cases items <;> exact ⟨_, _, rfl, by decide⟩
  | obj fields => cases fields <;> exact ⟨_, _, rfl, by decide⟩
  | int n =>
    have scanned := scanWhole_intText n stops
    rw [List.append_nil] at scanned
    obtain ⟨c, rest, equal, digit | ⟨rfl, -⟩⟩ := scanWhole_head scanned
    · exact ⟨c, rest, equal, opens_digit digit⟩
    · exact ⟨'-', rest, equal, by decide⟩
  | float x =>
    obtain ⟨whole, scanned⟩ := scanWhole_of_scan (NumberText.scan_repr x [] writable stops)
    rw [List.append_nil] at scanned
    obtain ⟨c, rest, equal, digit | ⟨rfl, -⟩⟩ := scanWhole_head scanned
    · exact ⟨c, rest, equal, opens_digit digit⟩
    · exact ⟨'-', rest, equal, by decide⟩

theorem stops_closing {c : Char} (closing : c = ',' ∨ c = ']' ∨ c = '}' ∨ c = ':') : NumberToken.Stops (c :: rest) := by
  intro c' first
  cases first
  rcases closing with rfl | rfl | rfl | rfl <;> decide

theorem parseItems_text {v : Json F} {items : List (Json F)}
    (all : ∀ w ∈ v :: items, ReadsBack hooks w ∧ encodable w = true) {fuel : Nat}
    (enough : 2 * (text v ++ textItems items).length ≤ fuel) :
    parseItems hooks fuel (text v ++ textItems items ++ rest) = some (v :: items, rest) := by
  induction items generalizing v fuel with
  | nil =>
    have longer : (text v ++ textItems ([] : List (Json F))).length = (text v).length + 1 := by simp [textItems]
    obtain ⟨fuel, rfl⟩ : ∃ fuel', fuel = fuel' + 1 := ⟨fuel - 1, by omega⟩
    have first := (all v List.mem_cons_self).1 fuel (']' :: rest) (stops_closing (by simp)) (by omega)
    rw [List.append_assoc, parseItems]
    show (parseValue hooks fuel (text v ++ ']' :: rest)).bind _ = _
    rw [first]
    rfl
  | cons w items ih =>
    have longer : (text v ++ textItems (w :: items)).length =
        (text v).length + 1 + (text w ++ textItems items).length := by
      simp [textItems]
      omega
    obtain ⟨fuel, rfl⟩ : ∃ fuel', fuel = fuel' + 1 := ⟨fuel - 1, by omega⟩
    have first := (all v List.mem_cons_self).1 fuel (',' :: (text w ++ textItems items ++ rest))
      (stops_closing (by simp)) (by omega)
    have others : parseItems hooks fuel (text w ++ textItems items ++ rest) = some (w :: items, rest) :=
      ih (fun u member => all u (List.mem_cons_of_mem _ member)) (by omega)
    obtain ⟨c, cs, equal, opens⟩ := text_opens (all w (by simp)).2
    have space : skipSpace (text w ++ textItems items ++ rest) = text w ++ textItems items ++ rest := by
      rw [equal]
      exact skipSpace_opens opens
    have split : text v ++ textItems (w :: items) ++ rest = text v ++ ',' :: (text w ++ textItems items ++ rest) := by
      simp [textItems]
    rw [split, parseItems]
    show (parseValue hooks fuel _).bind _ = _
    rw [first]
    show (parseItems hooks fuel (skipSpace (text w ++ textItems items ++ rest))).bind _ = _
    rw [space, others]
    rfl

theorem skipSpace_text {v : Json F} (writable : encodable v = true) (cs : List Char) :
    skipSpace (text v ++ cs) = text v ++ cs := by
  obtain ⟨c, cs', equal, opens⟩ := text_opens writable
  rw [equal]
  exact skipSpace_opens opens

/-- One pair of an object, and what the parser does after it. -/
theorem parsePairs_pair {key : String} {v : Json F} (reads : ReadsBack hooks v) (writable : encodable v = true)
    {fuel : Nat} (enough : 2 * (text v).length ≤ fuel) (cs : List Char) :
    parsePairs hooks (fuel + 1) (quoted key ++ ':' :: text v ++ '}' :: cs) = some ([(key, v)], cs) ∧
      parsePairs hooks (fuel + 1) (quoted key ++ ':' :: text v ++ ',' :: cs) =
        (parsePairs hooks fuel (skipSpace cs)).map fun result => ((key, v) :: result.1, result.2) := by
  have start : ∀ cs : List Char, quoted key ++ ':' :: text v ++ cs =
      '"' :: (key.toList.flatMap escape ++ '"' :: ':' :: (text v ++ cs)) := by
    intro cs
    simp [quoted]
  have unquoted : String.ofList key.toList = key := String.ofList_toList
  constructor
  · rw [start, parsePairs]
    show (parseString none _).bind _ = _
    rw [parseString_quoted]
    show (parseValue hooks fuel (skipSpace (text v ++ '}' :: cs))).bind _ = _
    rw [skipSpace_text writable, reads fuel _ (stops_closing (by simp)) enough]
    show some ([(String.ofList key.toList, v)], cs) = _
    rw [unquoted]
  · rw [start, parsePairs]
    show (parseString none _).bind _ = _
    rw [parseString_quoted]
    show (parseValue hooks fuel (skipSpace (text v ++ ',' :: cs))).bind _ = _
    rw [skipSpace_text writable, reads fuel _ (stops_closing (by simp)) enough]
    show (parsePairs hooks fuel (skipSpace cs)).bind (fun result =>
      some ((String.ofList key.toList, v) :: result.1, result.2)) = _
    rw [unquoted, Option.map_eq_bind]
    rfl

theorem parsePairs_text {key : String} {v : Json F} {fields : List (String × Json F)}
    (all : ∀ field ∈ (key, v) :: fields, ReadsBack hooks field.2 ∧ encodable field.2 = true) {fuel : Nat}
    (enough : 2 * (quoted key ++ ':' :: text v ++ textFields fields).length ≤ fuel) :
    parsePairs hooks fuel (quoted key ++ ':' :: text v ++ textFields fields ++ rest) =
      some ((key, v) :: fields, rest) := by
  induction fields generalizing key v fuel with
  | nil =>
    obtain ⟨reads, writable⟩ := all _ List.mem_cons_self
    have longer : (quoted key ++ ':' :: text v ++ textFields ([] : List (String × Json F))).length =
        (quoted key).length + (text v).length + 2 := by
      simp [textFields]
      omega
    obtain ⟨fuel, rfl⟩ : ∃ fuel', fuel = fuel' + 1 := ⟨fuel - 1, by omega⟩
    rw [List.append_assoc]
    exact (parsePairs_pair reads writable (by show 2 * (text v).length ≤ fuel; omega) rest).1
  | cons field fields ih =>
    obtain ⟨key', w⟩ := field
    obtain ⟨reads, writable⟩ := all _ List.mem_cons_self
    have longer : (quoted key ++ ':' :: text v ++ textFields ((key', w) :: fields)).length =
        (quoted key).length + (text v).length + 2 + (quoted key' ++ ':' :: text w ++ textFields fields).length := by
      simp [textFields]
      omega
    obtain ⟨fuel, rfl⟩ : ∃ fuel', fuel = fuel' + 1 := ⟨fuel - 1, by omega⟩
    have others : parsePairs hooks fuel (quoted key' ++ ':' :: text w ++ textFields fields ++ rest) =
        some ((key', w) :: fields, rest) :=
      ih (fun field member => all field (List.mem_cons_of_mem _ member)) (by omega)
    have space : skipSpace (quoted key' ++ ':' :: text w ++ textFields fields ++ rest) =
        quoted key' ++ ':' :: text w ++ textFields fields ++ rest := skipSpace_opens (by decide)
    have split : quoted key ++ ':' :: text v ++ textFields ((key', w) :: fields) ++ rest =
        quoted key ++ ':' :: text v ++ ',' :: (quoted key' ++ ':' :: text w ++ textFields fields ++ rest) := by
      simp [textFields]
    rw [split, (parsePairs_pair reads writable (by show 2 * (text v).length ≤ fuel; omega) _).2, space, others]
    rfl

/-- The parser builds an object from pairs whose keys are different. -/
def Hooks.Faithful (hooks : Hooks F) : Prop :=
  ∀ fields : List (String × Json F), (fields.map Prod.fst).Nodup → hooks.object fields = some (.obj fields)

theorem encodableItems_iff {items : List (Json F)} :
    encodableItems items = true ↔ ∀ v ∈ items, encodable v = true := by
  induction items with
  | nil => simp [encodableItems]
  | cons v items ih => simp [encodableItems, ih]

theorem encodableFields_iff {fields : List (String × Json F)} :
    encodableFields fields = true ↔ ∀ field ∈ fields, encodable field.2 = true := by
  induction fields with
  | nil => simp [encodableFields]
  | cons field fields ih =>
    obtain ⟨key, v⟩ := field
    simp [encodableFields, ih]

omit [NumberText F] in
theorem keyedItems_iff {items : List (Json F)} : keyedItems items = true ↔ ∀ v ∈ items, keyed v = true := by
  induction items with
  | nil => simp [keyedItems]
  | cons v items ih => simp [keyedItems, ih]

omit [NumberText F] in
theorem keyedFields_iff {fields : List (String × Json F)} :
    keyedFields fields = true ↔ ∀ field ∈ fields, keyed field.2 = true := by
  induction fields with
  | nil => simp [keyedFields]
  | cons field fields ih =>
    obtain ⟨key, v⟩ := field
    simp [keyedFields, ih]

/-- What reads a number token: enough fuel for a text that is not empty. -/
theorem readsBack_of_number {v : Json F} (writable : encodable v = true)
    (read : ∀ rest, NumberToken.Stops rest → ∃ token, NumberToken.scan (text v ++ rest) = some (token, rest) ∧
      parseNumber (text v ++ rest) = some (v, rest)) : ReadsBack hooks v := by
  intro fuel rest stops enough
  obtain ⟨c, cs, equal, -⟩ := text_opens writable
  have positive : 0 < (text v).length := by
    rw [equal]
    simp
  obtain ⟨fuel, rfl⟩ : ∃ fuel', fuel = fuel' + 1 := ⟨fuel - 1, by omega⟩
  obtain ⟨token, scanned, value⟩ := read rest stops
  rw [parseValue_number scanned]
  exact value

theorem readsBack_int {n : Int} (writable : encodable (.int n : Json F) = true) :
    ReadsBack hooks (.int n : Json F) := by
  apply readsBack_of_number writable
  intro rest stops
  have scanned := scan_intText n stops
  refine ⟨_, scanned, ?_⟩
  have short : withinDigits F ((intText n).filter NumberToken.isDigit).length = true := by
    rw [intText_digits]
    exact writable
  show parseNumber (intText n ++ rest) = _
  rw [parseNumber, scanned]
  simp [short, intOfText_intText]

theorem readsBack_float {x : F} (writable : encodable (.float x : Json F) = true) :
    ReadsBack hooks (.float x : Json F) := by
  apply readsBack_of_number writable
  intro rest stops
  have scanned := NumberText.scan_repr x rest writable stops
  refine ⟨_, scanned, ?_⟩
  show parseNumber (NumberText.repr x ++ rest) = _
  rw [parseNumber, scanned]
  simp [NumberText.parse_repr x writable]

theorem readsBack_arr {items : List (Json F)}
    (all : ∀ v ∈ items, ReadsBack hooks v ∧ encodable v = true) : ReadsBack hooks (.arr items) := by
  intro fuel rest stops enough
  cases items with
  | nil =>
    obtain ⟨fuel, rfl⟩ : ∃ fuel', fuel = fuel' + 1 := ⟨fuel - 1, by simp [text] at enough; omega⟩
    rfl
  | cons v items =>
    have longer : (text (.arr (v :: items))).length = 1 + (text v ++ textItems items).length := by
      simp [text]
      omega
    obtain ⟨fuel, rfl⟩ : ∃ fuel', fuel = fuel' + 1 := ⟨fuel - 1, by omega⟩
    have inner : parseItems hooks fuel (text v ++ textItems items ++ rest) = some (v :: items, rest) :=
      parseItems_text all (by omega)
    obtain ⟨c, cs, equal, opens⟩ := text_opens (all v List.mem_cons_self).2
    have notClosed : c ≠ ']' := by
      rintro rfl
      exact opens (by simp)
    have start : text (.arr (v :: items)) ++ rest = '[' :: c :: (cs ++ textItems items ++ rest) := by
      simp [text, equal]
    rw [equal] at inner
    rw [start, parseValue, skipSpace_opens opens]
    simp only [List.cons_append] at inner
    split
    next closed => exact absurd (List.cons.inj closed).1 notClosed
    next =>
      rw [inner]
      rfl

theorem readsBack_obj {fields : List (String × Json F)} (faithful : hooks.Faithful)
    (distinct : (fields.map Prod.fst).Nodup)
    (all : ∀ field ∈ fields, ReadsBack hooks field.2 ∧ encodable field.2 = true) : ReadsBack hooks (.obj fields) := by
  intro fuel rest stops enough
  cases fields with
  | nil =>
    obtain ⟨fuel, rfl⟩ : ∃ fuel', fuel = fuel' + 1 := ⟨fuel - 1, by simp [text] at enough; omega⟩
    show (hooks.object []).bind _ = _
    rw [faithful [] distinct]
    rfl
  | cons field fields =>
    obtain ⟨key, v⟩ := field
    have longer : (text (.obj ((key, v) :: fields))).length =
        1 + (quoted key ++ ':' :: text v ++ textFields fields).length := by
      simp [text]
      omega
    obtain ⟨fuel, rfl⟩ : ∃ fuel', fuel = fuel' + 1 := ⟨fuel - 1, by omega⟩
    have inner : parsePairs hooks fuel (quoted key ++ ':' :: text v ++ textFields fields ++ rest) =
        some ((key, v) :: fields, rest) := parsePairs_text all (by omega)
    have start : text (.obj ((key, v) :: fields)) ++ rest =
        '{' :: (quoted key ++ ':' :: text v ++ textFields fields ++ rest) := by
      simp [text]
    have space : skipSpace (quoted key ++ ':' :: text v ++ textFields fields ++ rest) =
        quoted key ++ ':' :: text v ++ textFields fields ++ rest := skipSpace_opens (by decide)
    rw [start]
    show (parsePairs hooks fuel (skipSpace (quoted key ++ ':' :: text v ++ textFields fields ++ rest))).bind _ = _
    rw [space, inner]
    show (hooks.object ((key, v) :: fields)).bind _ = _
    rw [faithful _ distinct]
    rfl

/-- Every value that can be written reads back. -/
theorem readsBack (faithful : hooks.Faithful) (v : Json F) (writable : encodable v = true) (distinct : keyed v = true) :
    ReadsBack hooks v := by
  induction v using Json.induction with
  | null =>
    intro fuel rest stops enough
    obtain ⟨fuel, rfl⟩ : ∃ fuel', fuel = fuel' + 1 := ⟨fuel - 1, by simp [text] at enough; omega⟩
    rfl
  | bool b =>
    intro fuel rest stops enough
    cases b <;>
      obtain ⟨fuel, rfl⟩ : ∃ fuel', fuel = fuel' + 1 := ⟨fuel - 1, by simp [text] at enough; omega⟩ <;> rfl
  | int n => exact readsBack_int writable
  | float x => exact readsBack_float writable
  | str s =>
    intro fuel rest stops enough
    obtain ⟨fuel, rfl⟩ : ∃ fuel', fuel = fuel' + 1 := ⟨fuel - 1, by simp [text, quoted] at enough; omega⟩
    have start : text (.str s : Json F) ++ rest = '"' :: (s.toList.flatMap escape ++ '"' :: rest) := by
      simp [text, quoted]
    rw [start]
    show (parseString none (s.toList.flatMap escape ++ '"' :: rest)).bind _ = _
    rw [parseString_quoted]
    show some ((.str (String.ofList s.toList) : Json F), rest) = _
    rw [String.ofList_toList]
  | arr items ih =>
    have each := encodableItems_iff.mp writable
    have keys := keyedItems_iff.mp distinct
    exact readsBack_arr fun v member => ⟨ih v member (each v member) (keys v member), each v member⟩
  | obj fields ih =>
    have each := encodableFields_iff.mp writable
    obtain ⟨here, below⟩ := Bool.and_eq_true_iff.mp distinct
    have keys := keyedFields_iff.mp below
    exact readsBack_obj faithful (of_decide_eq_true here) fun field member =>
      ⟨ih field member (each field member) (keys field member), each field member⟩

/-- The text of a value, with a newline after it or without, loads as the value. -/
theorem loads_text (faithful : hooks.Faithful) (v : Json F) (writable : encodable v = true) (distinct : keyed v = true)
    (blank : rest = [] ∨ rest = ['\n']) : loads hooks (text v ++ rest) = some v := by
  obtain ⟨c, cs, equal, opens⟩ := text_opens writable
  have mark : (text v ++ rest).head? ≠ some (Char.ofNat 0xFEFF) := by
    rw [equal]
    intro same
    cases same
    exact opens (by simp)
  have stops : NumberToken.Stops rest := by
    rcases blank with rfl | rfl
    · intro c member
      cases member
    · intro c member
      cases member
      decide
  have ended : skipSpace rest = [] := by
    rcases blank with rfl | rfl <;> rfl
  rw [loads, skipSpace_text writable, readsBack faithful v writable distinct _ rest stops (by simp; omega)]
  show (if _ ∧ _ then some v else none) = _
  rw [if_pos ⟨mark, ended⟩]

omit [NumberText F] in
theorem sortedItems_eq (items : List (Json F)) : sortedItems items = items.map sorted := by
  induction items with
  | nil => rfl
  | cons v items ih => rw [sortedItems, ih, List.map_cons]

omit [NumberText F] in
theorem sortedFields_eq (fields : List (String × Json F)) :
    sortedFields fields = fields.map fun field => (field.1, sorted field.2) := by
  induction fields with
  | nil => rfl
  | cons field fields ih => rw [sortedFields, ih, List.map_cons]

omit [NumberText F] in
/-- The fields of an object in order are the fields with their values in order. -/
theorem mem_sorted_fields {fields : List (String × Json F)} {field : String × Json F} :
    field ∈ (sortedFields fields).insertionSort keyLe ↔
      ∃ old ∈ fields, field = (old.1, sorted old.2) := by
  rw [(List.perm_insertionSort keyLe _).mem_iff, sortedFields_eq, List.mem_map]
  constructor
  · rintro ⟨old, member, rfl⟩
    exact ⟨old, member, rfl⟩
  · rintro ⟨old, member, rfl⟩
    exact ⟨old, member, rfl⟩

theorem encodable_sorted (v : Json F) : encodable (sorted v) = encodable v := by
  induction v using Json.induction with
  | arr items ih =>
    rw [Bool.eq_iff_iff]
    show encodableItems (sortedItems items) = true ↔ encodableItems items = true
    rw [encodableItems_iff, encodableItems_iff, sortedItems_eq, List.forall_mem_map]
    exact forall₂_congr fun v member => by rw [ih v member]
  | obj fields ih =>
    rw [Bool.eq_iff_iff]
    show encodableFields _ = true ↔ encodableFields fields = true
    rw [encodableFields_iff, encodableFields_iff]
    constructor
    · intro all field member
      rw [← ih field member]
      exact all (field.1, sorted field.2) (mem_sorted_fields.mpr ⟨field, member, rfl⟩)
    · intro all field member
      obtain ⟨old, there, rfl⟩ := mem_sorted_fields.mp member
      exact (ih old there).trans (all old there)
  | _ => rfl

omit [NumberText F] in
theorem sorted_keys (fields : List (String × Json F)) :
    (((sortedFields fields).insertionSort keyLe).map Prod.fst).Perm (fields.map Prod.fst) := by
  refine ((List.perm_insertionSort keyLe _).map Prod.fst).trans ?_
  rw [sortedFields_eq, List.map_map]
  rfl

omit [NumberText F] in
theorem keyed_sorted (v : Json F) : keyed (sorted v) = keyed v := by
  induction v using Json.induction with
  | arr items ih =>
    rw [Bool.eq_iff_iff]
    show keyedItems (sortedItems items) = true ↔ keyedItems items = true
    rw [keyedItems_iff, keyedItems_iff, sortedItems_eq, List.forall_mem_map]
    exact forall₂_congr fun v member => by rw [ih v member]
  | obj fields ih =>
    rw [Bool.eq_iff_iff]
    show (decide _ && keyedFields _) = true ↔ (decide _ && keyedFields fields) = true
    rw [Bool.and_eq_true, Bool.and_eq_true, decide_eq_true_iff, decide_eq_true_iff, (sorted_keys fields).nodup_iff,
      keyedFields_iff, keyedFields_iff]
    refine and_congr Iff.rfl ⟨fun all field member => ?_, fun all field member => ?_⟩
    · rw [← ih field member]
      exact all (field.1, sorted field.2) (mem_sorted_fields.mpr ⟨field, member, rfl⟩)
    · obtain ⟨old, there, rfl⟩ := mem_sorted_fields.mp member
      exact (ih old there).trans (all old there)
  | _ => rfl

instance : IsTrans (String × Json F) keyLe := ⟨fun _ _ _ first second => le_trans first second⟩

instance : Std.Total (keyLe (F := F)) := ⟨fun a b => le_total a.1 b.1⟩

omit [NumberText F] in
theorem sorted_sorted (v : Json F) : sorted (sorted v) = sorted v := by
  induction v using Json.induction with
  | arr items ih =>
    show Json.arr (sortedItems (sortedItems items)) = .arr (sortedItems items)
    rw [sortedItems_eq, sortedItems_eq, List.map_map]
    congr 1
    exact List.map_congr_left ih
  | obj fields ih =>
    show Json.obj ((sortedFields ((sortedFields fields).insertionSort keyLe)).insertionSort keyLe) = .obj _
    congr 1
    have fixed : sortedFields ((sortedFields fields).insertionSort keyLe) =
        (sortedFields fields).insertionSort keyLe := by
      rw [sortedFields_eq]
      conv_rhs => rw [← List.map_id ((sortedFields fields).insertionSort keyLe)]
      apply List.map_congr_left
      intro field member
      obtain ⟨old, there, rfl⟩ := mem_sorted_fields.mp member
      rw [ih old there]
      rfl
    rw [fixed]
    exact (List.pairwise_insertionSort keyLe _).insertionSort_eq
  | _ => rfl

/-- How many bytes a field takes, with its colon and one more sign. -/
def fieldSize (field : String × Json F) : Nat := Utf8.size (quoted field.1) + Utf8.size (text field.2) + 2

theorem fieldSize_eq (key : String) (v : Json F) :
    fieldSize (key, v) = Utf8.size (quoted key) + Utf8.size (text v) + 2 := rfl

omit [NumberText F] in
theorem size_cons_ascii {c : Char} (ascii : c.utf8Size = 1) (cs : List Char) : Utf8.size (c :: cs) = 1 + Utf8.size cs := by
  simp [Utf8.size, ascii]

theorem size_textFields (fields : List (String × Json F)) :
    Utf8.size (textFields fields) = 1 + (fields.map fieldSize).sum := by
  induction fields with
  | nil => rfl
  | cons field fields ih =>
    obtain ⟨key, v⟩ := field
    have split : textFields ((key, v) :: fields) = ',' :: (quoted key ++ ':' :: (text v ++ textFields fields)) := by
      simp [textFields]
    rw [split, size_cons_ascii (by decide), Utf8.size_append, size_cons_ascii (by decide), Utf8.size_append, ih,
      List.map_cons, List.sum_cons, fieldSize_eq]
    omega

/-- An object takes one byte more than its fields. -/
theorem size_text_obj {fields : List (String × Json F)} (nonempty : fields ≠ []) :
    Utf8.size (text (.obj fields)) = 1 + (fields.map fieldSize).sum := by
  cases fields with
  | nil => exact absurd rfl nonempty
  | cons field fields =>
    obtain ⟨key, v⟩ := field
    have split : text (.obj ((key, v) :: fields)) = '{' :: (quoted key ++ ':' :: (text v ++ textFields fields)) := by
      simp [text]
    rw [split, size_cons_ascii (by decide), Utf8.size_append, size_cons_ascii (by decide), Utf8.size_append,
      size_textFields, List.map_cons, List.sum_cons, fieldSize_eq]
    omega

theorem size_text_sorted {fields : List (String × Json F)} (nonempty : fields ≠ [])
    (fixed : sortedFields fields = fields) :
    Utf8.size (text (Json.obj fields).sorted) = 1 + (fields.map fieldSize).sum := by
  show Utf8.size (text (.obj ((sortedFields fields).insertionSort keyLe))) = _
  have perm := List.perm_insertionSort keyLe fields
  rw [fixed, size_text_obj, (perm.map fieldSize).sum_eq]
  intro empty
  rw [empty] at perm
  exact nonempty perm.symm.eq_nil

theorem fieldSize_le {fields : List (String × Json F)} {field : String × Json F} (member : field ∈ fields) :
    fieldSize field ≤ Utf8.size (text (.obj fields)) := by
  have one := List.single_le_sum (by simp) _ (List.mem_map_of_mem (f := fieldSize) member)
  rw [size_text_obj (List.ne_nil_of_mem member)]
  omega

/-- A field of an object takes no more than the whole, in the order of the keys too. -/
theorem size_sorted_le {fields : List (String × Json F)} {key : String} {v : Json F} (member : (key, v) ∈ fields) :
    Utf8.size (text v.sorted) ≤ Utf8.size (text (Json.obj fields).sorted) := by
  have perm := List.perm_insertionSort keyLe (sortedFields fields)
  have there : (key, v.sorted) ∈ (sortedFields fields).insertionSort keyLe := by
    rw [perm.mem_iff, sortedFields_eq]
    exact List.mem_map.mpr ⟨(key, v), member, rfl⟩
  have whole := fieldSize_le there
  rw [fieldSize_eq] at whole
  show _ ≤ Utf8.size (text (.obj ((sortedFields fields).insertionSort keyLe)))
  omega

/-- A string of digits takes two bytes more than it has digits. -/
theorem size_quoted_digits {digits : List Char} (hex : ∀ c ∈ digits, ∃ n < 16, c = Nat.digitChar n) :
    Utf8.size (quoted (String.ofList digits)) = digits.length + 2 := by
  have plain : ∀ n < 16, escape (Nat.digitChar n) = [Nat.digitChar n] ∧ (Nat.digitChar n).utf8Size = 1 := by decide
  have body : Utf8.size (digits.flatMap escape) = digits.length := by
    induction digits with
    | nil => rfl
    | cons c digits ih =>
      obtain ⟨n, small, rfl⟩ := hex c List.mem_cons_self
      obtain ⟨same, one⟩ := plain n small
      rw [List.flatMap_cons, same, Utf8.size_append, ih fun c member => hex c (List.mem_cons_of_mem _ member),
        List.length_cons]
      simp [Utf8.size, one]
      omega
  rw [quoted, String.toList_ofList, List.cons_append, size_cons_ascii (by decide), Utf8.size_append, body]
  show 1 + (digits.length + 1) = _
  omega

omit [NumberText F] in
theorem escape_ne_nil (c : Char) : 1 ≤ (escape c).length := by
  rw [escape]
  split
  · exact Nat.le_add_left 1 1
  · split
    · exact Nat.le_add_left 1 5
    · exact Nat.le_refl 1

omit [NumberText F] in
/-- A string is no longer than its text. -/
theorem length_le_quoted (s : String) : s.toList.length ≤ Utf8.size (quoted s) := by
  have body : ∀ cs : List Char, cs.length ≤ (cs.flatMap escape).length := by
    intro cs
    induction cs with
    | nil => exact Nat.le_refl 0
    | cons c cs ih =>
      have one := escape_ne_nil c
      rw [List.flatMap_cons, List.length_append, List.length_cons]
      omega
  calc s.toList.length
    _ ≤ (s.toList.flatMap escape).length := body s.toList
    _ ≤ (quoted s).length := by
      rw [quoted, List.length_append, List.length_cons]
      omega
    _ ≤ Utf8.size (quoted s) := Utf8.length_le_size (quoted s)

end Values

end Json
end KataGo.Lib
