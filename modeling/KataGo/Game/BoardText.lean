import KataGo.Game.LocationText
import KataGo.Game.SetStones
import KataGo.Lib.Loops

/-! The text and the JSON form of a board, after `toStringSimple`, `parseBoard`, `toJson` and
`ofJson` in `cpp/game/board.cpp`. A `StringError` carries its message. -/

namespace KataGo.Game
open KataGo.Lib Location SymmetryHelpers

namespace PlayerIO

def colorToChar : Color → Char
  | .black => 'X'
  | .white => 'O'
  | .empty => '.'
  | .wall => '#'

end PlayerIO

/-- A result, a thrown message, or a run that fails in the board itself. -/
abbrev Throws := ExceptT String Option

namespace Board

def rowString (b : Board) (y : Nat) : List Char :=
  (List.range b.xSize).map fun x => PlayerIO.colorToChar (b.colors (Location.getLoc x y b.xSize))

def toStringSimple (b : Board) (lineDelimiter : Char) : List Char :=
  (List.range b.ySize).flatMap fun y => b.rowString y ++ [lineDelimiter]

section Parse

variable [Zobrist]

def parseStone (b : Board) (loc : Loc) (pla : Player) : Throws Board := do
  let (b', suc) ← ExceptT.lift (b.setStoneFailIfNoLibs loc pla)
  if !suc then
    throw ("Board::parseBoard - zero-liberty group near " ++ String.ofList (Location.toString loc b.xSize b.ySize))
  else return b'

def parseChar (b : Board) (loc : Loc) (c : Char) : Throws Board :=
  if c ∈ ['.', ' ', '*', ',', '\x60'] then return b
  else if c = 'o' ∨ c = 'O' then b.parseStone loc .white
  else if c = 'x' ∨ c = 'X' then b.parseStone loc .black
  else throw ("Board::parseBoard - could not parse board character: " ++ String.ofList [c])

def parseRow (b : Board) (y : Nat) (line : List Char) : Throws Board :=
  let line := Global.trim ((Global.trim line).dropWhile Global.isDigit)
  if line.length ≠ b.xSize ∧ line.length ≠ 2 * b.xSize - 1 then
    throw "Board::parseBoard - line length not compatible with xSize"
  else (List.range b.xSize).foldlM (fun b' x =>
    b'.parseChar (Location.getLoc x y b.xSize) (if line.length = b.xSize then line.getD x ' ' else line.getD (x * 2) ' ')) b

/-- The constructor with its range check. -/
def initChecked (xS yS : Int) : Throws Board :=
  if xS < 0 ∨ yS < 0 ∨ xS > maxLen ∨ yS > maxLen then throw "Board::init - invalid board size"
  else ExceptT.lift (init xS.toNat yS.toNat)

def parseBoard (xSize ySize : Int) (s : List Char) (lineDelimiter : Char) : Throws Board := do
  let board ← initChecked xSize ySize
  let lines := Global.split (Global.trim s) lineDelimiter
  let lines := if lines.length = board.ySize + 1 ∧ ['A'].isPrefixOf (lines.headD []) then lines.tail else lines
  if lines.length ≠ board.ySize then
    throw "Board::parseBoard - string has different number of board rows than ySize"
  else (List.range board.ySize).foldlM (fun b y => b.parseRow y (lines.getD y [])) board

end Parse

section Json

variable {F : Type}

def toJson (b : Board) : Json F :=
  .obj [("koLoc", .str (String.ofList (Location.toString b.koLoc b.xSize b.ySize))),
    ("numBlackCaptures", .int b.numBlackCaptures),
    ("numWhiteCaptures", .int b.numWhiteCaptures),
    ("stones", .str (String.ofList (b.toStringSimple '|'))),
    ("xSize", .int b.xSize),
    ("ySize", .int b.ySize)]

/-- A field of an object. The library fails on anything else. -/
def jsonField (data : Json F) (key : String) : Throws (Json F) :=
  match data with
  | .obj fields => ExceptT.lift (fields.lookup key)
  | _ => ExceptT.lift none

/-- The library's conversion to `int`, which also takes the other numbers and the Booleans. -/
def jsonInt (truncate : F → Int) : Json F → Throws Int
  | .int n => return n
  | .bool b => return if b then 1 else 0
  | .float x => return truncate x
  | _ => ExceptT.lift none

def jsonString : Json F → Throws (List Char)
  | .str s => return s.toList
  | _ => ExceptT.lift none

def ofStringAllowNull (str : List Char) (b : Board) : Throws Loc :=
  match Location.tryOfStringAllowNull str b.xSize b.ySize with
  | some loc => return loc
  | none => throw ("Could not parse board location: " ++ String.ofList str)

def ofJson [Zobrist] (truncate : F → Int) (data : Json F) : Throws Board := do
  let xSize ← jsonInt truncate (← jsonField data "xSize")
  let ySize ← jsonInt truncate (← jsonField data "ySize")
  let stones ← jsonString (← jsonField data "stones")
  let board ← parseBoard xSize ySize stones '|'
  let koLoc ← ofStringAllowNull (← jsonString (← jsonField data "koLoc")) board
  let numBlackCaptures ← jsonInt truncate (← jsonField data "numBlackCaptures")
  let numWhiteCaptures ← jsonInt truncate (← jsonField data "numWhiteCaptures")
  return { board with koLoc := koLoc, numBlackCaptures := numBlackCaptures, numWhiteCaptures := numWhiteCaptures }

end Json

variable {b b' : Board} {loc : Loc} {done : Loc → Prop} {x y : Nat}

section RoundTrip

variable [Zobrist]

/-- `b'` holds the stones of `b` at the points that are done, and no others. -/
structure Reread (b : Board) (done : Loc → Prop) (b' : Board) : Prop where
  consistent : b'.Consistent
  xSize : b'.xSize = b.xSize
  ySize : b'.ySize = b.ySize
  kept : ∀ q, done q → b'.colors q = b.colors q
  blank : ∀ q ∈ b.locs, ¬ done q → b'.colors q = .empty

theorem Reread.congr {done' : Loc → Prop} (reread : Reread b done b') (same : ∀ q, done q ↔ done' q) : Reread b done' b' :=
  ⟨reread.consistent, reread.xSize, reread.ySize, fun q known => reread.kept q ((same q).2 known),
    fun q point fresh => reread.blank q point fun known => fresh ((same q).1 known)⟩

/-- Every point that is read has its colour of `b` or is empty. -/
theorem Reread.fewer (reread : Reread b done b') (consistent : b.Consistent) (q : Loc) :
    b'.colors q = b.colors q ∨ b'.colors q = .empty := by
  by_cases point : q ∈ b.locs
  · by_cases known : done q
    · exact .inl (reread.kept q known)
    · exact .inr (reread.blank q point known)
  · left
    rw [(consistent.shape.wall_iff q).2 point, (reread.consistent.shape.wall_iff q).2]
    rw [Board.locs, reread.xSize, reread.ySize]
    exact point

/-- A stone of `b` can be put back at any time: some stones of `b` alone have a liberty each. -/
theorem Reread.parseStone (reread : Reread b done b') (consistent : b.Consistent) (point : loc ∈ b.locs) (fresh : ¬ done loc)
    (stone : (b.colors loc).IsStone) :
    Ends (b'.parseStone loc (b.colors loc)) (Reread b fun q => done q ∨ q = loc) fun _ => False := by
  have point' : loc ∈ b'.locs := by
    rw [Board.locs, reread.xSize, reread.ySize]
    exact point
  obtain ⟨b₁, ok, run, consistent₁, success, result⟩ :=
    setStoneFailIfNoLibs_stone reread.consistent point' (reread.blank loc point fresh) stone
  obtain rfl : ok = true := by
    refine success.2 fun q => ?_
    rw [reread.xSize]
    refine not_dead_of_fewer (c := b.colors) (fun q => ?_) (dead_free_iff.2 consistent.allAlive) q
    by_cases here : q = loc
    · rw [here, Function.update_self]
      exact .inl rfl
    · rw [Function.update_of_ne here]
      exact reread.fewer consistent q
  obtain ⟨xSize₁, ySize₁, colors₁⟩ := result rfl
  refine (Ends.lift run (P := fun r => r = (b₁, true)) rfl).bind ?_
  rintro _ rfl
  refine Ends.pure ⟨consistent₁, xSize₁.trans reread.xSize, ySize₁.trans reread.ySize, ?_, ?_⟩
  · rintro q (known | rfl)
    · rw [colors₁, Function.update_of_ne (fun here : q = loc => fresh (here ▸ known)), reread.kept q known]
    · rw [colors₁, Function.update_self]
  · intro q inside outside
    rw [not_or] at outside
    rw [colors₁, Function.update_of_ne outside.2, reread.blank q inside outside.1]

theorem Reread.parseChar (reread : Reread b done b') (consistent : b.Consistent) (point : loc ∈ b.locs) (fresh : ¬ done loc) :
    Ends (b'.parseChar loc ( PlayerIO.colorToChar (b.colors loc))) (Reread b fun q => done q ∨ q = loc) fun _ => False := by
  cases color : b.colors loc with
  | empty =>
    refine Ends.pure ⟨reread.consistent, reread.xSize, reread.ySize, ?_, fun q inside outside =>
      reread.blank q inside fun known => outside (.inl known)⟩
    rintro q (known | rfl)
    · exact reread.kept q known
    · rw [color, reread.blank q point fresh]
  | black =>
    have stone := reread.parseStone consistent point fresh (.inl color)
    rw [color] at stone
    exact stone
  | white =>
    have stone := reread.parseStone consistent point fresh (.inr color)
    rw [color] at stone
    exact stone
  | wall => exact absurd color fun wall => (consistent.shape.wall_iff _).1 wall point

omit [Zobrist] in
theorem colorToChar_clean (k : Color) : Global.isDelim ( PlayerIO.colorToChar k) = false ∧
    Global.isDigit ( PlayerIO.colorToChar k) = false ∧ PlayerIO.colorToChar k ≠ '|' := by
  cases k <;> decide

omit [Zobrist] in
theorem mem_rowString {c : Char} (member : c ∈ b.rowString y) : ∃ k, c = PlayerIO.colorToChar k := by
  obtain ⟨x, -, rfl⟩ := List.mem_map.1 member
  exact ⟨_, rfl⟩

omit [Zobrist] in
/-- Nothing is cut off a row. -/
theorem trim_rowString : Global.trim ((Global.trim (b.rowString y)).dropWhile Global.isDigit) = b.rowString y := by
  have whole : Global.trim (b.rowString y) = b.rowString y := TextFields.trim_of_all fun c member => by
    obtain ⟨k, rfl⟩ := mem_rowString member
    exact (colorToChar_clean k).1
  have digits : (b.rowString y).dropWhile Global.isDigit = b.rowString y := by
    cases row : b.rowString y with
    | nil => rfl
    | cons c rest =>
      obtain ⟨k, rfl⟩ := mem_rowString (b := b) (y := y) (c := c) (by rw [row]; exact List.mem_cons_self)
      rw [List.dropWhile_cons_of_neg (by rw [(colorToChar_clean k).2.1]; decide)]
  rw [whole, digits, whole]

omit [Zobrist] in
theorem split_toStringSimple :
    Global.split (Global.trim (b.toStringSimple '|')) '|' = (List.range b.ySize).map b.rowString := by
  have rows : b.toStringSimple '|' = ((List.range b.ySize).map b.rowString).flatMap fun row => row ++ ['|'] := by
    rw [List.flatMap_map]
    rfl
  have whole : Global.trim (b.toStringSimple '|') = b.toStringSimple '|' := TextFields.trim_of_all fun c member => by
    obtain ⟨y, -, inRow⟩ := List.mem_flatMap.1 member
    rcases List.mem_append.1 inRow with color | bar
    · obtain ⟨k, rfl⟩ := mem_rowString color
      exact (colorToChar_clean k).1
    · rw [List.mem_singleton.1 bar]
      decide
  rw [whole, rows, Global.split, TextFields.split_rows]
  intro row member bar
  obtain ⟨y, -, rfl⟩ := List.mem_map.1 member
  obtain ⟨k, same⟩ := mem_rowString bar
  exact (colorToChar_clean k).2.2 same.symm

/-- The points of the rows in a list. -/
def InRows (b : Board) (rows : List Nat) (q : Loc) : Prop := ∃ y ∈ rows, ∃ x < b.xSize, q = getLoc x y b.xSize

theorem Reread.parseRow {rows : List Nat} (reread : Reread b (b.InRows rows) b') (consistent : b.Consistent) (below : y < b.ySize)
    (fresh : y ∉ rows) :
    Ends (b'.parseRow y (b.rowString y)) (Reread b (b.InRows (rows ++ [y]))) fun _ => False := by
  have length : (b.rowString y).length = b.xSize := by rw [rowString, List.length_map, List.length_range]
  rw [Board.parseRow, trim_rowString, reread.xSize, length, if_neg fun wrong => wrong.1 rfl]
  simp only [if_true]
  have loop := Ends.foldlM (f := fun b₁ x => b₁.parseChar (getLoc x y b.xSize) ((b.rowString y).getD x ' '))
    (l := List.range b.xSize) (s := b') (E := fun _ => False)
    (fun seen => Reread b fun q => b.InRows rows q ∨ ∃ x ∈ seen, q = getLoc x y b.xSize)
    (fun seen x rest b₁ split kept => ?_) (reread.congr fun q => by simp)
  · refine loop.imp fun b₁ done => done.congr fun q => ?_
    simp only [InRows, List.mem_append, List.mem_singleton, List.mem_range, or_and_right, exists_or, exists_eq_left]
  · have left : x < b.xSize := List.mem_range.1 (split ▸ List.mem_append_right seen List.mem_cons_self)
    have new : x ∉ seen := fun old => by
      have nodup : (seen ++ x :: rest).Nodup := split ▸ List.nodup_range
      exact (List.nodup_append.1 nodup).2.2 x old x List.mem_cons_self rfl
    have char : (b.rowString y).getD x ' ' = PlayerIO.colorToChar (b.colors (getLoc x y b.xSize)) := by
      rw [rowString, List.getD_eq_getElem?_getD, List.getElem?_map, List.getElem?_range left]
      rfl
    rw [char]
    refine (kept.parseChar consistent (mem_boardLocs.2 ⟨y, below, x, left, rfl⟩) ?_).imp fun b₂ done => done.congr fun q => ?_
    · rintro (⟨y', old, x', left', same⟩ | ⟨x', old, same⟩)
      · exact fresh ((getLoc_injective left left' same).2 ▸ old)
      · have left' : x' < b.xSize := List.mem_range.1 (split ▸ List.mem_append_left _ old)
        exact new ((getLoc_injective left left' same).1 ▸ old)
    · simp only [List.mem_append, List.mem_singleton, or_assoc, or_and_right, exists_or, exists_eq_left]

theorem parseBoard_toStringSimple (consistent : b.Consistent) :
    Ends (parseBoard b.xSize b.ySize (b.toStringSimple '|') '|') (Reread b fun q => q ∈ b.locs) fun _ => False := by
  obtain ⟨b₀, start, consistent₀⟩ := init_consistent b.xSize b.ySize consistent.wide consistent.high
  have wide := consistent.wide
  have high := consistent.high
  have begun : Reread b (b.InRows []) b₀ := by
    unfold init at start
    split_ifs at start
    cases start
    refine ⟨consistent₀, rfl, rfl, ?_, fun q point _ => ?_⟩
    · rintro q ⟨y, none, -⟩
      cases none
    · exact (foldl_update_apply (boardLocs b.xSize b.ySize) (fun _ => Color.wall) .empty q).trans (if_pos point)
  have checked : Ends (initChecked b.xSize b.ySize) (Reread b (b.InRows [])) fun _ => False := by
    rw [initChecked, if_neg (by omega), Int.toNat_natCast, Int.toNat_natCast]
    exact Ends.lift start begun
  refine checked.bind fun b₁ reread => ?_
  have lines : (Global.split (Global.trim (b.toStringSimple '|')) '|').length = b.ySize := by
    rw [split_toStringSimple, List.length_map, List.length_range]
  have plain : ¬((Global.split (Global.trim (b.toStringSimple '|')) '|').length = b.ySize + 1 ∧
      ['A'].isPrefixOf ((Global.split (Global.trim (b.toStringSimple '|')) '|').headD []) = true) := fun header => by omega
  simp only [reread.ySize, if_neg plain]
  rw [if_neg (not_not.2 lines)]
  have loop := Ends.foldlM (f := fun b₁ y => Board.parseRow b₁ y ((Global.split (Global.trim (b.toStringSimple '|')) '|').getD y []))
    (l := List.range b.ySize) (s := b₁) (E := fun _ => False) (fun rows => Reread b (b.InRows rows))
    (fun rows y rest b₂ split kept => ?_) reread
  · refine loop.imp fun b₂ done => done.congr fun q => ?_
    rw [Board.locs, mem_boardLocs]
    exact exists_congr fun y => and_congr_left fun _ => List.mem_range
  · have below : y < b.ySize := List.mem_range.1 (split ▸ List.mem_append_right rows List.mem_cons_self)
    have fresh : y ∉ rows := fun old => by
      have nodup : (rows ++ y :: rest).Nodup := split ▸ List.nodup_range
      exact (List.nodup_append.1 nodup).2.2 y old y List.mem_cons_self rfl
    have line : (Global.split (Global.trim (b.toStringSimple '|')) '|').getD y [] = b.rowString y := by
      rw [split_toStringSimple, List.getD_eq_getElem?_getD, List.getElem?_map, List.getElem?_range below]
      rfl
    rw [line]
    exact kept.parseRow consistent below fresh

end RoundTrip

/-- Any location is read back from its text on a board of the usual sizes. -/
theorem tryOfStringAllowNull_toString {xSize ySize : Nat} (wide : xSize ≤ maxLen) (high : ySize ≤ maxLen)
    (low : -2 ^ 15 ≤ loc) (up : loc < 2 ^ 15) :
    tryOfStringAllowNull (Location.toString loc xSize ySize) xSize ySize = some loc := by
  have narrow : ¬ xSize > 25 * 25 := by
    unfold maxLen at wide
    omega
  have small : ySize < 2 ^ 31 := by
    unfold maxLen at high
    omega
  by_cases null : loc = nullLoc
  · rw [null, Location.toString, if_neg narrow]
    rfl
  · have back : tryOfString (Location.toString loc xSize ySize) xSize ySize = some loc := by
      by_cases pass : loc = passLoc
      · rw [pass, Location.toString, if_neg narrow]
        rfl
      · by_cases off : getX loc xSize ≥ xSize ∨ getX loc xSize < 0 ∨ getY loc xSize < 0 ∨ getY loc xSize ≥ ySize
        · have mach : Location.toString loc xSize ySize = toStringMach loc xSize := by
            rw [Location.toString, if_neg narrow, if_neg pass, if_neg null]
            exact if_pos off
          rw [mach, tryOfString_toStringMach low up null]
        · simp only [not_or, not_le, not_lt, ge_iff_le] at off
          have letters := @tryOfString_letters _ _ xSize ySize (by omega) ⟨off.2.1, off.1⟩
            ⟨off.2.2.1, off.2.2.2⟩ small
          rw [ofXY_getXY, toLoc_of_range low up] at letters
          exact letters
    rw [tryOfStringAllowNull, if_neg, back]
    intro named
    rw [named] at back
    have unread : tryOfString "null".toList xSize ySize = none := rfl
    rw [unread] at back
    cases back

/-- A board is read back from its JSON form. -/
theorem ofJson_toJson [Zobrist] {F : Type} (truncate : F → Int) (b : Board) (consistent : b.Consistent)
    (low : -2 ^ 15 ≤ b.koLoc) (up : b.koLoc < 2 ^ 15) :
    ∃ b', (ofJson truncate b.toJson).run = some (.ok b') ∧ b'.Consistent ∧ b'.xSize = b.xSize ∧ b'.ySize = b.ySize ∧
      b'.colors = b.colors ∧ b'.koLoc = b.koLoc ∧ b'.posHash = b.posHash ∧
      b'.numBlackCaptures = b.numBlackCaptures ∧ b'.numWhiteCaptures = b.numWhiteCaptures := by
  rcases parseBoard_toStringSimple consistent with ⟨board, parsed, reread⟩ | ⟨e, -, absurd⟩
  · have colors : board.colors = b.colors := by
      funext q
      by_cases point : q ∈ b.locs
      · exact reread.kept q point
      · rw [(consistent.shape.wall_iff q).2 point, (reread.consistent.shape.wall_iff q).2]
        rw [Board.locs, reread.xSize, reread.ySize]
        exact point
    have ko : (ofStringAllowNull (Location.toString b.koLoc b.xSize b.ySize) board).run = some (.ok b.koLoc) := by
      rw [ofStringAllowNull, reread.xSize, reread.ySize,
        tryOfStringAllowNull_toString consistent.wide.2 consistent.high.2 low up]
      rfl
    have same : SameChains board { board with
        koLoc := b.koLoc, numBlackCaptures := b.numBlackCaptures, numWhiteCaptures := b.numWhiteCaptures } :=
      ⟨rfl, rfl, rfl, rfl, rfl, rfl, rfl⟩
    refine ⟨_, ?_, same.consistent reread.consistent, reread.xSize, reread.ySize, colors, rfl, ?_, rfl, rfl⟩
    · have sizes : jsonField (b.toJson : Json F) "xSize" = pure (.int b.xSize) ∧
          jsonField (b.toJson : Json F) "ySize" = pure (.int b.ySize) := ⟨rfl, rfl⟩
      have texts : jsonField (b.toJson : Json F) "stones" = pure (.str (String.ofList (b.toStringSimple '|'))) ∧
          jsonField (b.toJson : Json F) "koLoc" = pure (.str (String.ofList (Location.toString b.koLoc b.xSize b.ySize))) :=
        ⟨rfl, rfl⟩
      have captures : jsonField (b.toJson : Json F) "numBlackCaptures" = pure (.int b.numBlackCaptures) ∧
          jsonField (b.toJson : Json F) "numWhiteCaptures" = pure (.int b.numWhiteCaptures) := ⟨rfl, rfl⟩
      simp only [ofJson, sizes, texts, captures, pure_bind, jsonInt, jsonString, String.toList_ofList]
      rw [ExceptT.run_bind, parsed]
      show ExceptT.run (ofStringAllowNull _ board >>= _) = _
      rw [ExceptT.run_bind, ko]
      rfl
    · show board.posHash = b.posHash
      rw [reread.consistent.hash, consistent.hash, colors, reread.xSize, reread.ySize]
  · exact absurd.elim
/-- The three stones come back from their JSON form. -/
theorem ofJson_toJson_three :
    letI := Zobrist.blank
    ∃ b b', threeStones = some b ∧ (ofJson (fun _ : Empty => 0) b.toJson).run = some (.ok b') ∧ b'.colors = b.colors ∧
      b'.koLoc = b.koLoc := by
  let _ := Zobrist.blank
  obtain ⟨b, made, consistent⟩ := threeStones_consistent
  have ko : threeStones.map (fun b => b.koLoc) = some nullLoc := by decide +kernel
  rw [made] at ko
  have null : b.koLoc = nullLoc := Option.some.inj ko
  obtain ⟨b', run, -, -, -, colors, same, -⟩ := ofJson_toJson (fun _ : Empty => 0) b consistent
    (by rw [null]; decide) (by rw [null]; decide)
  exact ⟨b, b', made, run, colors, same⟩

end Board
end KataGo.Game
