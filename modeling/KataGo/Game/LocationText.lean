import KataGo.Game.SymmetryGroup
import KataGo.Lib.JsonRoundTrip
import KataGo.Lib.TextFields
import Mathlib.Data.Int.ModEq

/-! The text of a location, after `Location` in `cpp/game/board.cpp` and the helpers of
`cpp/core/global.cpp` that it uses. A text is the list of its characters. -/

namespace KataGo.Game
open KataGo.Lib SymmetryHelpers

namespace Global

/-- The default delimiters of `trim`. -/
def isDelim (c : Char) : Bool := c ∈ [' ', '\t', '\r', '\n', '\x0b', '\x0c']

def trim (s : List Char) : List Char := TextFields.trim isDelim s

def split (s : List Char) (delim : Char) : List (List Char) := TextFields.split delim s

def isDigit (c : Char) : Bool := '0' ≤ c ∧ c ≤ '9'

def isAlpha (c : Char) : Bool := ('A' ≤ c ∧ c ≤ 'Z') ∨ ('a' ≤ c ∧ c ≤ 'z')

def isEqualCaseInsensitive (s0 s1 : List Char) : Bool := s0.map Char.toLower = s1.map Char.toLower

/-- Read an `int` with `>>`, with nothing left over. -/
def tryStringToInt (str : List Char) : Option Int :=
  let s := trim str
  let digits := if s.head? = some '-' ∨ s.head? = some '+' then s.tail else s
  let val : Int := (digits.foldl (fun n c => n * 10 + (c.toNat - '0'.toNat)) 0 : Nat)
  let val := if s.head? = some '-' then -val else val
  if digits ≠ [] ∧ digits.all isDigit ∧ -2 ^ 31 ≤ val ∧ val < 2 ^ 31 then some val else none

end Global

namespace Location

/-- The conversion to `Loc`, which has 16 bits. -/
def toLoc (n : Int) : Loc := n.bmod (2 ^ 16)

/-- A letter of the columns, of which `I` is none. -/
def xChar (i : Int) : Char := ("ABCDEFGHJKLMNOPQRSTUVWXYZ".toList ++ ['\x00']).getD i.toNat '\x00'

def toStringMach (loc : Loc) (xSize : Nat) : List Char :=
  if loc = passLoc then "pass".toList
  else if loc = nullLoc then "null".toList
  else '(' :: Json.intText (getX loc xSize) ++ ',' :: Json.intText (getY loc xSize) ++ [')']

def toString (loc : Loc) (xSize ySize : Nat) : List Char :=
  if xSize > 25 * 25 then toStringMach loc xSize
  else if loc = passLoc then "pass".toList
  else if loc = nullLoc then "null".toList
  else
    let x := getX loc xSize
    let y := getY loc xSize
    if x ≥ xSize ∨ x < 0 ∨ y < 0 ∨ y ≥ ySize then toStringMach loc xSize
    else if x ≤ 24 then xChar x :: Json.intText (ySize - y)
    else xChar (x / 25 - 1) :: xChar (x % 25) :: Json.intText (ySize - y)

def tryParseLetterCoordinate (c : Char) : Option Int :=
  if 'A' ≤ c ∧ c ≤ 'H' then some (c.toNat - 'A'.toNat)
  else if 'a' ≤ c ∧ c ≤ 'h' then some (c.toNat - 'a'.toNat)
  else if 'J' ≤ c ∧ c ≤ 'Z' then some (c.toNat - 'A'.toNat - 1)
  else if 'j' ≤ c ∧ c ≤ 'z' then some (c.toNat - 'a'.toNat - 1)
  else none

/-- The two numbers between parentheses. -/
def tryParsePair (s : List Char) : Option (Int × Int) :=
  if s.getLast? ≠ some ')' then none
  else match Global.split s.tail.dropLast ',' with
    | [first, second] => do
        let x ← Global.tryStringToInt first
        let y ← Global.tryStringToInt second
        return (x, y)
    | _ => none

/-- One letter or two, and what follows them. -/
def tryParseColumn : List Char → Option (Int × List Char)
  | c :: c1 :: rest => do
      let x ← tryParseLetterCoordinate c
      if Global.isAlpha c1 then do
        let x1 ← tryParseLetterCoordinate c1
        return ((x + 1) * 25 + x1, rest)
      else return (x, c1 :: rest)
  | _ => none

/-- A column in letters and a row counted from below. -/
def tryParseLetters (s : List Char) (xSize ySize : Nat) : Option (Int × Int) := do
  let (x, s) ← tryParseColumn s
  let y ← Global.tryStringToInt s
  let y := ySize - y
  if x < 0 ∨ y < 0 ∨ x ≥ xSize ∨ y ≥ ySize then none else return (x, y)

def tryOfString (str : List Char) (xSize ySize : Nat) : Option Loc :=
  let s := Global.trim str
  if s.length < 2 then none
  else if Global.isEqualCaseInsensitive s "pass".toList ∨ Global.isEqualCaseInsensitive s "pss".toList then some passLoc
  else if s.head? = some '(' then (tryParsePair s).map fun xy => toLoc (ofXY xy.1 xy.2 xSize)
  else (tryParseLetters s xSize ySize).map fun xy => toLoc (ofXY xy.1 xy.2 xSize)

def tryOfStringAllowNull (str : List Char) (xSize ySize : Nat) : Option Loc :=
  if str = "null".toList then some nullLoc else tryOfString str xSize ySize

end Location

variable {n loc x y : Int} {c : Char} {cs : List Char} {xSize ySize : Nat}

section Numbers
open Global

/-- The characters that stand in the text of a location. -/
def Shown (c : Char) : Prop := isDigit c = true ∨ isAlpha c = true ∨ c ∈ ['-', '(', ',', ')']

theorem Shown.not_delim (shown : Shown c) : isDelim c = false := by
  refine Bool.eq_false_iff.2 fun delim => ?_
  rw [isDelim, decide_eq_true_eq] at delim
  simp only [List.mem_cons, List.not_mem_nil, or_false] at delim
  rcases delim with rfl | rfl | rfl | rfl | rfl | rfl <;>
    exact absurd shown (by unfold Shown; decide)

theorem trim_shown (shown : ∀ c ∈ cs, Shown c) : trim cs = cs := TextFields.trim_of_all fun c member => (shown c member).not_delim

theorem intText_digits_or (n : Int) (member : c ∈ Json.intText n) : c = '-' ∨ isDigit c = true := by
  unfold Json.intText at member
  split at member
  · rcases List.mem_cons.1 member with rfl | digit
    · exact .inl rfl
    · exact .inr (Json.decimal_isDigit _ _ digit)
  · exact .inr (Json.decimal_isDigit _ _ member)

theorem intText_shown (member : c ∈ Json.intText n) : Shown c :=
  (intText_digits_or n member).elim (fun minus => .inr (.inr (by rw [minus]; decide))) .inl

theorem decimal_ne_nil (k : Nat) : Json.decimal k ≠ [] := by
  rcases Json.decimal_cases k with ⟨-, zero⟩ | ⟨c, digits, equal, -⟩
  · rw [zero]
    decide
  · rw [equal]
    exact List.cons_ne_nil _ _

theorem intText_ne_nil (n : Int) : Json.intText n ≠ [] := by
  unfold Json.intText
  split
  · exact List.cons_ne_nil _ _
  · exact decimal_ne_nil _

/-- A number that fits is read back from its text. -/
theorem tryStringToInt_intText (low : -2 ^ 31 ≤ n) (high : n < 2 ^ 31) : tryStringToInt (Json.intText n) = some n := by
  have digits : ∀ k, (Json.decimal k).all isDigit = true := fun k => List.all_eq_true.2 (Json.decimal_isDigit k)
  have unsigned : ∀ k, ¬((Json.decimal k).head? = some '-' ∨ (Json.decimal k).head? = some '+') := by
    intro k sign
    rcases sign with minus | plus
    · exact absurd (Json.decimal_isDigit k _ (List.mem_of_mem_head? minus)) (by decide)
    · exact absurd (Json.decimal_isDigit k _ (List.mem_of_mem_head? plus)) (by decide)
  rw [tryStringToInt, trim_shown fun c => intText_shown, Json.intText]
  by_cases negative : n < 0
  · have value : -(n.natAbs : Int) = n := by omega
    simp only [if_pos negative, List.head?_cons, true_or, if_true, List.tail_cons, Json.foldl_decimal, value]
    rw [if_pos ⟨decimal_ne_nil _, digits _, low, high⟩]
  · have value : (n.natAbs : Int) = n := by omega
    simp only [if_neg negative, if_neg (unsigned _), if_neg fun minus => unsigned _ (.inl minus), Json.foldl_decimal, value]
    rw [if_pos ⟨decimal_ne_nil _, digits _, low, high⟩]

end Numbers

namespace Location
open Global

theorem toLoc_of_range (low : -2 ^ 15 ≤ loc) (high : loc < 2 ^ 15) : toLoc loc = loc := by
  exact Int.bmod_eq_of_le_mul_two (by omega) (by omega)

theorem toLoc_eq_iff {m : Int} : toLoc n = toLoc m ↔ n ≡ m [ZMOD 2 ^ 16] := by
  constructor
  · intro same
    have remainder := congrArg (· % ((2 ^ 16 : Nat) : Int)) same
    simp only [toLoc, Int.bmod_emod] at remainder
    exact remainder
  · intro congruent
    rw [toLoc, toLoc, ← Int.emod_bmod, ← Int.emod_bmod m]
    exact congrArg (Int.bmod · (2 ^ 16)) congruent

/-- Every location has the text of its two coordinates. -/
theorem ofXY_getXY : ofXY (getX loc xSize) (getY loc xSize) xSize = loc := by
  have divided := Int.tmod_add_mul_tdiv loc (xSize + 1)
  unfold ofXY getX getY
  rw [Int.sub_add_cancel, Int.sub_add_cancel, Int.mul_comm]
  exact divided

theorem getXY_range (low : -2 ^ 15 ≤ loc) (high : loc < 2 ^ 15) :
    (-2 ^ 31 ≤ getX loc xSize ∧ getX loc xSize < 2 ^ 31) ∧ -2 ^ 31 ≤ getY loc xSize ∧ getY loc xSize < 2 ^ 31 := by
  have remainder : (loc.tmod (xSize + 1)).natAbs ≤ loc.natAbs := by
    rw [Int.natAbs_tmod]
    exact Nat.mod_le _ _
  have quotient : (loc.tdiv (xSize + 1)).natAbs ≤ loc.natAbs := by
    rw [Int.natAbs_tdiv]
    exact Nat.div_le_self _ _
  unfold getX getY
  omega

theorem tryParsePair_text (columns : -2 ^ 31 ≤ x ∧ x < 2 ^ 31) (rows : -2 ^ 31 ≤ y ∧ y < 2 ^ 31) :
    tryParsePair ('(' :: Json.intText x ++ ',' :: Json.intText y ++ [')']) = some (x, y) := by
  have comma : ∀ n : Int, ',' ∉ Json.intText n := fun n member =>
    (intText_digits_or n member).elim (by decide) (by decide)
  have closed : ('(' :: Json.intText x ++ ',' :: Json.intText y ++ [')']).getLast? = some ')' := List.getLast?_concat
  have inner : ('(' :: Json.intText x ++ ',' :: Json.intText y ++ [')']).tail.dropLast =
      Json.intText x ++ ',' :: Json.intText y := by
    rw [List.cons_append, List.cons_append, List.tail_cons, List.dropLast_concat]
  rw [tryParsePair, if_neg (not_not.2 closed), inner, split, TextFields.split_two (comma x) (comma y) (intText_ne_nil y)]
  simp only [tryStringToInt_intText columns.1 columns.2, tryStringToInt_intText rows.1 rows.2]
  rfl

/-- The numeric text of any location is read back, also of one off the board. -/
theorem tryOfString_toStringMach (low : -2 ^ 15 ≤ loc) (high : loc < 2 ^ 15) (proper : loc ≠ nullLoc) :
    tryOfString (toStringMach loc xSize) xSize ySize = some loc := by
  by_cases pass : loc = passLoc
  · rw [toStringMach, if_pos pass, pass]
    rfl
  · obtain ⟨columns, rows⟩ := @getXY_range _ xSize low high
    have clean : trim (toStringMach loc xSize) = toStringMach loc xSize := by
      refine trim_shown fun c member => ?_
      rw [toStringMach, if_neg pass, if_neg proper] at member
      simp only [List.cons_append, List.mem_cons, List.mem_append, List.not_mem_nil, or_false] at member
      rcases member with rfl | (digit | rfl | digit) | rfl
      · exact .inr (.inr (by decide))
      · exact intText_shown digit
      · exact .inr (.inr (by decide))
      · exact intText_shown digit
      · exact .inr (.inr (by decide))
    rw [tryOfString, clean, toStringMach, if_neg pass, if_neg proper]
    rw [if_neg (by simp), if_neg (by simp [isEqualCaseInsensitive]), if_pos (by rfl), tryParsePair_text columns rows,
      Option.map_some, ofXY_getXY, toLoc_of_range low high]

theorem tryParseLetterCoordinate_xChar (low : 0 ≤ x) (high : x < 25) :
    tryParseLetterCoordinate (xChar x) = some x ∧ isAlpha (xChar x) = true ∧ xChar x ≠ '(' := by
  have all : ∀ k < 25, tryParseLetterCoordinate (xChar (k : Nat)) = some (k : Int) ∧ isAlpha (xChar (k : Nat)) = true ∧
      xChar (k : Nat) ≠ '(' := by decide
  obtain ⟨k, rfl⟩ := Int.eq_ofNat_of_zero_le low
  exact all k (by omega)

theorem toLower_of_digit (digit : isDigit c = true) : c.toLower = c := by
  rw [isDigit, decide_eq_true_eq] at digit
  exact dif_neg fun upper => absurd (le_trans upper.1 digit.2) (by decide)

/-- A text that ends with a digit is no name of the pass. -/
theorem not_pass_of_digit {last : Char} (ends : cs.getLast? = some last) (digit : isDigit last = true) :
    ¬(isEqualCaseInsensitive cs "pass".toList ∨ isEqualCaseInsensitive cs "pss".toList) := by
  have mapped : (cs.map Char.toLower).getLast? = some last := by
    rw [List.getLast?_map, ends, Option.map_some, toLower_of_digit digit]
  unfold isEqualCaseInsensitive
  rw [decide_eq_true_eq, decide_eq_true_eq]
  rintro (same | same) <;>
  · rw [same] at mapped
    obtain rfl : 's' = last := Option.some.inj mapped
    exact absurd digit (by decide)

/-- What reading a text in letters comes to. -/
theorem tryOfString_of_letters {last : Char} (shown : ∀ c ∈ cs, Shown c) (long : 2 ≤ cs.length)
    (ends : cs.getLast? = some last) (digit : isDigit last = true) (first : cs.head? ≠ some '(')
    (parsed : tryParseLetters cs xSize ySize = some (x, y)) :
    tryOfString cs xSize ySize = some (toLoc (ofXY x y xSize)) := by
  rw [tryOfString, trim_shown shown, if_neg (by omega), if_neg (not_pass_of_digit ends digit), if_neg first, parsed]
  rfl

theorem intText_cons (n : Int) : ∃ c rest, Json.intText n = c :: rest ∧ isAlpha c = false := by
  obtain ⟨c, rest, shape⟩ := List.exists_cons_of_ne_nil (intText_ne_nil n)
  refine ⟨c, rest, shape, ?_⟩
  rcases intText_digits_or n (by rw [shape]; exact List.mem_cons_self) with rfl | digit
  · rfl
  · refine Bool.eq_false_iff.2 fun letter => ?_
    rw [isAlpha, decide_eq_true_eq] at letter
    rw [isDigit, decide_eq_true_eq] at digit
    rcases letter with upper | lower
    · exact absurd (le_trans upper.1 digit.2) (by decide)
    · exact absurd (le_trans lower.1 digit.2) (by decide)

/-- The text of a positive number ends with a digit. -/
theorem intText_last (positive : 0 < n) : ∃ last, (Json.intText n).getLast? = some last ∧ isDigit last = true := by
  rw [Json.intText, if_neg (by omega)]
  obtain ⟨last, found⟩ := Option.isSome_iff_exists.1 (List.getLast?_isSome.2 (decimal_ne_nil n.natAbs))
  exact ⟨last, found, Json.decimal_isDigit _ _ (List.mem_of_getLast? found)⟩

theorem tryParseColumn_one (left : 0 ≤ x ∧ x < 25) (other : isAlpha c = false) :
    tryParseColumn (xChar x :: c :: cs) = some (x, c :: cs) := by
  rw [tryParseColumn, (tryParseLetterCoordinate_xChar left.1 left.2).1, other]
  rfl

theorem tryParseColumn_two (left : 25 ≤ x ∧ x < 25 * 25) :
    tryParseColumn (xChar (x / 25 - 1) :: xChar (x % 25) :: cs) = some (x, cs) := by
  obtain ⟨letter, -, -⟩ := tryParseLetterCoordinate_xChar (x := x / 25 - 1) (by omega) (by omega)
  obtain ⟨letter1, alpha1, -⟩ := tryParseLetterCoordinate_xChar (x := x % 25) (by omega) (by omega)
  have column : (x / 25 - 1 + 1) * 25 + x % 25 = x := by omega
  rw [tryParseColumn, letter, alpha1, letter1]
  simp only [if_true, Option.bind_eq_bind, Option.bind_some, Option.pure_def, column]

theorem tryParseLetters_of_column (column : tryParseColumn cs = some (x, Json.intText (ySize - y))) (left : 0 ≤ x ∧ x < xSize)
    (below : 0 ≤ y ∧ y < ySize) (small : ySize < 2 ^ 31) : tryParseLetters cs xSize ySize = some (x, y) := by
  have number : tryStringToInt (Json.intText (ySize - y)) = some (ySize - y) := tryStringToInt_intText (by omega) (by omega)
  have back : (ySize : Int) - (ySize - y) = y := by omega
  have range : ¬(x < 0 ∨ y < 0 ∨ x ≥ xSize ∨ y ≥ ySize) := by omega
  simp only [tryParseLetters, column, Option.bind_eq_bind, Option.bind_some, number, back, if_neg range, Option.pure_def]

/-- A point of the board is read back from its text in letters. -/
theorem tryOfString_letters (narrow : xSize ≤ 25 * 25) (left : 0 ≤ x ∧ x < xSize) (below : 0 ≤ y ∧ y < ySize)
    (small : ySize < 2 ^ 31) : tryOfString (toString (ofXY x y xSize) xSize ySize) xSize ySize = some (toLoc (ofXY x y xSize)) := by
  obtain ⟨column, row⟩ := getXY_ofXY left below.1
  have proper := @ofXY_proper xSize x y left.1 below.1
  rw [not_or] at proper
  obtain ⟨last, ends, digit⟩ := intText_last (n := ySize - y) (by omega)
  obtain ⟨c1, rest, shape, other⟩ := intText_cons (ySize - y)
  rw [toString, if_neg (by omega), if_neg proper.2, if_neg proper.1]
  simp only [column, row]
  rw [if_neg (by omega)]
  by_cases single : x ≤ 24
  · obtain ⟨-, alpha, plain⟩ := tryParseLetterCoordinate_xChar left.1 (by omega : x < 25)
    rw [if_pos single]
    refine tryOfString_of_letters (fun c member => ?_) ?_ ?_ digit ?_ ?_
    · rcases List.mem_cons.1 member with rfl | inside
      · exact .inr (.inl alpha)
      · exact intText_shown inside
    · rw [shape]
      simp
    · rw [List.getLast?_cons, ends]
      rfl
    · simpa using plain
    · refine tryParseLetters_of_column ?_ left below small
      rw [shape]
      exact tryParseColumn_one ⟨left.1, by omega⟩ other
  · obtain ⟨-, alpha, plain⟩ := tryParseLetterCoordinate_xChar (x := x / 25 - 1) (by omega) (by omega)
    obtain ⟨-, alpha1, -⟩ := tryParseLetterCoordinate_xChar (x := x % 25) (by omega) (by omega)
    rw [if_neg single]
    refine tryOfString_of_letters (fun c member => ?_) ?_ ?_ digit ?_ ?_
    · rcases List.mem_cons.1 member with rfl | inside
      · exact .inr (.inl alpha)
      · rcases List.mem_cons.1 inside with rfl | inside
        · exact .inr (.inl alpha1)
        · exact intText_shown inside
    · simp
    · rw [List.getLast?_cons, List.getLast?_cons, ends]
      rfl
    · simpa using plain
    · exact tryParseLetters_of_column (tryParseColumn_two (by omega)) left below small

/-- The sizes for which every location of the board is a `Loc`. -/
def Admits (xSize ySize : Nat) : Prop := xSize + ySize * (xSize + 1) < 2 ^ 15

theorem Admits.range (admits : Admits xSize ySize) (left : 0 ≤ x ∧ x < xSize) (below : 0 ≤ y ∧ y < ySize) :
    -2 ^ 15 ≤ ofXY x y xSize ∧ ofXY x y xSize < 2 ^ 15 := by
  have upper : (y + 1) * ((xSize : Int) + 1) ≤ ySize * (xSize + 1) := Int.mul_le_mul_of_nonneg_right (by omega) (by omega)
  have lower : 0 ≤ (y + 1) * ((xSize : Int) + 1) := Int.mul_nonneg (by omega) (by omega)
  have total : ((xSize + ySize * (xSize + 1) : Nat) : Int) < 2 ^ 15 := by exact_mod_cast admits
  push_cast at total
  show (-2 ^ 15 : Int) ≤ (x + 1) + (y + 1) * ((xSize : Int) + 1) ∧ (x + 1) + (y + 1) * ((xSize : Int) + 1) < (2 : Int) ^ 15
  omega

/-- A pair of numbers that names the pass or a point of the board, up to the wrap-around of `Loc`. -/
def PairOnBoard (xSize ySize : Nat) (xy : Int × Int) : Prop :=
  ofXY xy.1 xy.2 xSize ≡ passLoc [ZMOD 2 ^ 16] ∨
    ∃ loc ∈ boardLocs xSize ySize, ofXY xy.1 xy.2 xSize ≡ loc [ZMOD 2 ^ 16]

theorem toLoc_point (admits : Admits xSize ySize) (point : loc ∈ boardLocs xSize ySize) : toLoc loc = loc := by
  obtain ⟨x, y, left, below, rfl⟩ := mem_boardLocs_ofXY.1 point
  obtain ⟨low, high⟩ := admits.range left below
  exact toLoc_of_range low high

theorem pairOnBoard_iff (admits : Admits xSize ySize) {xy : Int × Int} :
    PairOnBoard xSize ySize xy ↔
      toLoc (ofXY xy.1 xy.2 xSize) = passLoc ∨ toLoc (ofXY xy.1 xy.2 xSize) ∈ boardLocs xSize ySize := by
  have pass : toLoc passLoc = passLoc := by decide
  unfold PairOnBoard
  rw [← toLoc_eq_iff, pass]
  refine or_congr_right ⟨?_, fun point => ?_⟩
  · rintro ⟨loc, point, congruent⟩
    rw [toLoc_eq_iff.2 congruent, toLoc_point admits point]
    exact point
  · exact ⟨_, point, toLoc_eq_iff.1 (toLoc_point admits point).symm⟩

theorem tryParseLetters_range {xy : Int × Int} (parsed : tryParseLetters cs xSize ySize = some xy) :
    (0 ≤ xy.1 ∧ xy.1 < xSize) ∧ 0 ≤ xy.2 ∧ xy.2 < ySize := by
  obtain ⟨⟨x, s⟩, -, parsed⟩ := Option.bind_eq_some_iff.1 parsed
  obtain ⟨y, -, parsed⟩ := Option.bind_eq_some_iff.1 parsed
  dsimp only at parsed
  split_ifs at parsed with outside
  obtain rfl := Option.some.inj parsed
  dsimp only
  omega

/-- A pair of numbers between parentheses is taken for the location that it adds up to. -/
theorem tryOfString_pair {xy : Int × Int} (bracket : (trim cs).head? = some '(') (parsed : tryParsePair (trim cs) = some xy) :
    tryOfString cs xSize ySize = some (toLoc (ofXY xy.1 xy.2 xSize)) := by
  have closed : (trim cs).getLast? = some ')' := by
    by_contra absent
    rw [tryParsePair, if_pos absent] at parsed
    cases parsed
  obtain ⟨c, rest, shape⟩ : ∃ c rest, trim cs = '(' :: c :: rest := by
    cases text : trim cs with
    | nil => simp [text] at bracket
    | cons first rest =>
      rw [text] at bracket closed
      obtain rfl : first = '(' := Option.some.inj bracket
      cases rest with
      | nil => exact absurd closed (by decide)
      | cons c rest => exact ⟨c, rest, rfl⟩
  rw [tryOfString, if_neg (by rw [shape]; simp), if_neg (by rw [shape]; simp [isEqualCaseInsensitive]), if_pos bracket, parsed]
  rfl

/-- Locations are read back from their texts. A text that is read names the pass or a point of the board, unless it is
a pair of numbers between parentheses: these are not compared with the sizes. -/
theorem tryOfString_exact (xSize ySize : Nat) (admits : Admits xSize ySize) :
    (∀ loc, loc = passLoc ∨ loc ∈ boardLocs xSize ySize → tryOfString (toString loc xSize ySize) xSize ySize = some loc) ∧
      ∀ s, (∀ loc, tryOfString s xSize ySize = some loc → loc = passLoc ∨ loc ∈ boardLocs xSize ySize) ↔
        ∀ xy, (trim s).head? = some '(' → tryParsePair (trim s) = some xy → PairOnBoard xSize ySize xy := by
  refine ⟨?_, fun s => ⟨fun sound xy bracket parsed => ?_, fun pairs loc read => ?_⟩⟩
  · rintro loc (rfl | point)
    · unfold toString
      split <;> rfl
    · obtain ⟨x, y, left, below, rfl⟩ := mem_boardLocs_ofXY.1 point
      obtain ⟨low, high⟩ := admits.range left below
      by_cases wide : xSize > 25 * 25
      · rw [toString, if_pos wide]
        exact tryOfString_toStringMach low high fun null => ofXY_proper left.1 below.1 (.inl null)
      · have small : ySize < 2 ^ 31 := by
          have rows : ySize * 1 ≤ ySize * (xSize + 1) := Nat.mul_le_mul_left _ (by omega)
          unfold Admits at admits
          omega
        rw [tryOfString_letters (by omega) left below small, toLoc_of_range low high]
  · exact (pairOnBoard_iff admits).2 (sound _ (tryOfString_pair bracket parsed))
  · unfold tryOfString at read
    dsimp only at read
    split_ifs at read with short pass bracket
    · exact .inl (Option.some.inj read).symm
    · obtain ⟨xy, parsed, rfl⟩ := Option.map_eq_some_iff.1 read
      exact (pairOnBoard_iff admits).1 (pairs xy bracket parsed)
    · obtain ⟨xy, parsed, rfl⟩ := Option.map_eq_some_iff.1 read
      obtain ⟨left, below⟩ := tryParseLetters_range parsed
      obtain ⟨low, high⟩ := admits.range left below
      rw [toLoc_of_range low high]
      exact .inr (mem_boardLocs_ofXY.2 ⟨xy.1, xy.2, left, below, rfl⟩)

/-- A nineteen by nineteen board has a text for each of its points. -/
theorem tryOfString_exact_nineteen : tryOfString (toString (getLoc 3 15 19) 19 19) 19 19 = some (getLoc 3 15 19) :=
  (tryOfString_exact 19 19 (by unfold Admits; decide)).1 _ (.inr (mem_boardLocs.2 ⟨15, by decide, 3, by decide, rfl⟩))

theorem tryOfString_off_board :
    ¬ ∀ s loc, tryOfString s 19 19 = some loc → loc = passLoc ∨ loc ∈ boardLocs 19 19 := by
  intro sound
  rcases sound "(100,100)".toList 2121 (by decide) with pass | point
  · exact absurd pass (by decide)
  · obtain ⟨-, below⟩ := boardLocs_bounds (by decide) (by decide) point
    exact absurd below (by decide)

end Location
end KataGo.Game
