import KataGo.Game.SymmetryGroup
import KataGo.History.Record

/-! `SymmetryHelpers::markDuplicateMoveLocs`: the moves at the root that a symmetry of the position
makes equal to others. -/

namespace KataGo.Game
open KataGo.Lib

namespace SymmetryHelpers

section Detection

variable (board : Board) (hist : BoardHistory)

/-- The stones, the ko marks of the encore and the stones at the start of the second encore agree at a
point and at its image. -/
def symPointAgrees (loc symLoc : Loc) : Bool :=
  let isStoneSym := decide (board.colors loc = board.colors symLoc)
  let isKoRecapBlockedSym :=
    if hist.encorePhase > 0 then decide (hist.koRecapBlocked loc = hist.koRecapBlocked symLoc) else true
  let isSecondEncoreStartColorsSym :=
    if hist.encorePhase = 2 then decide (hist.secondEncoreStartColors loc = hist.secondEncoreStartColors symLoc) else true
  isStoneSym && isKoRecapBlockedSym && isSecondEncoreStartColorsSym

def isBoardSym (symmetry : Nat) : Bool :=
  (boardXYs board.xSize board.ySize).all fun xy =>
    symPointAgrees board hist (Location.getLoc xy.1 xy.2 board.xSize)
      (getSymLocXY xy.1 xy.2 board.xSize board.ySize symmetry)

/-- Boards that are not square have no transposing symmetry. -/
def symmetrySearchUpperBound : Nat :=
  if board.xSize = board.ySize then numSymmetries else numSymmetriesWithoutTranspose

def validSymmetries (onlySymmetries : Option (List Nat)) : List Nat :=
  0 :: ((List.range (symmetrySearchUpperBound board)).drop 1).filter fun symmetry =>
    onlySymmetries.all (·.contains symmetry) && isBoardSym board hist symmetry

/-- Black's moves are kept at the right and at the top, White's at the left and at the bottom. -/
def scanXYs : List (Nat × Nat) :=
  if hist.presumedNextMovePla = .black then
    (List.range board.xSize).reverse.flatMap fun x => (List.range board.ySize).map fun y => (x, y)
  else (List.range board.xSize).flatMap fun x => (List.range board.ySize).reverse.map fun y => (x, y)

def isAvoided (avoidMoves : List Int) (loc : Loc) : Bool :=
  decide (avoidMoves.length > 0) && decide (avoidMoves.getD loc.toNat 0 > 0)

/-- Returns `isSymDupLoc` and `validSymmetries`. -/
def markDuplicateMoveLocs (onlySymmetries : Option (List Nat)) (avoidMoves : List Int) : (Loc → Bool) × List Nat :=
  -- The board should never be considered symmetric if any moves are banned by ko or superko
  if board.koLoc ≠ nullLoc then (fun _ => false, [0])
  else if board.locs.any hist.superKoBanned then (fun _ => false, [0])
  else
    let validSymmetries := validSymmetries board hist onlySymmetries
    let isSymDupLoc := (scanXYs board hist).foldl (fun isSymDupLoc xy =>
      let loc := Location.getLoc xy.1 xy.2 board.xSize
      if isAvoided avoidMoves loc then isSymDupLoc
      else validSymmetries.foldl (fun isSymDupLoc symmetry =>
        if symmetry = 0 then isSymDupLoc
        else
          let symLoc := getSymLocXY xy.1 xy.2 board.xSize board.ySize symmetry
          if isSymDupLoc loc = false ∧ loc ≠ symLoc then Function.update isSymDupLoc symLoc true else isSymDupLoc)
        isSymDupLoc) fun _ => false
    (isSymDupLoc, validSymmetries)

end Detection

section Closure

variable {board : Board} {hist : BoardHistory} {s : Nat} {loc p q : Loc}

theorem lt_numSymmetries (valid : s < symmetrySearchUpperBound board) : s < numSymmetries := by
  unfold symmetrySearchUpperBound at valid
  split_ifs at valid
  · exact valid
  · exact valid.trans (by decide)

theorem invert_lt_upperBound (valid : s < symmetrySearchUpperBound board) : invert s < symmetrySearchUpperBound board := by
  unfold symmetrySearchUpperBound at valid ⊢
  split_ifs at valid ⊢
  · exact invert_lt valid
  · exact invert_lt_withoutTranspose valid

/-- A symmetry that is searched keeps the shape of the board. -/
theorem symXSize_upperBound (valid : s < symmetrySearchUpperBound board) :
    symXSize board.xSize board.ySize s = board.xSize ∧ symXSize board.ySize board.xSize s = board.ySize := by
  unfold symmetrySearchUpperBound at valid
  split_ifs at valid with square
  · rw [square]
    unfold symXSize
    exact ⟨ite_self _, ite_self _⟩
  · unfold symXSize
    rw [isTranspose_eq_false valid]
    exact ⟨rfl, rfl⟩

theorem getSymLoc_mem_locs (valid : s < symmetrySearchUpperBound board) (onBoard : loc ∈ board.locs) :
    getSymLoc loc board.xSize board.ySize s ∈ board.locs := by
  have image := getSymLoc_mem (s := s) onBoard
  rwa [(symXSize_upperBound valid).1, (symXSize_upperBound valid).2] at image

theorem getSymLoc_invert_locs (valid : s < symmetrySearchUpperBound board) (onBoard : loc ∈ board.locs) :
    getSymLoc (getSymLoc loc board.xSize board.ySize s) board.xSize board.ySize (invert s) = loc := by
  have back := getSymLoc_invert (lt_numSymmetries valid) (Or.inl onBoard)
  rwa [(symXSize_upperBound valid).1, (symXSize_upperBound valid).2] at back

theorem getLoc_mem_locs {x y : Nat} (left : x < board.xSize) (below : y < board.ySize) :
    Location.getLoc x y board.xSize ∈ board.locs := mem_boardLocs.mpr ⟨y, below, x, left, rfl⟩

theorem getSymLocXY_eq {x y : Nat} (left : x < board.xSize) :
    getSymLocXY x y board.xSize board.ySize s = getSymLoc (Location.getLoc x y board.xSize) board.xSize board.ySize s :=
  (getSymLoc_ofXY (by omega) (by omega)).symm

theorem isBoardSym_iff : isBoardSym board hist s = true ↔
    ∀ loc ∈ board.locs, symPointAgrees board hist loc (getSymLoc loc board.xSize board.ySize s) = true := by
  unfold isBoardSym
  rw [List.all_eq_true]
  constructor
  · intro agrees loc onBoard
    obtain ⟨y, below, x, left, rfl⟩ := mem_boardLocs.mp onBoard
    rw [← getSymLocXY_eq left]
    exact agrees (x, y) (mem_boardXYs.mpr ⟨left, below⟩)
  · intro agrees xy inside
    obtain ⟨left, below⟩ := mem_boardXYs.mp inside
    rw [getSymLocXY_eq left]
    exact agrees _ (getLoc_mem_locs left below)

theorem symPointAgrees_comm : symPointAgrees board hist p q = symPointAgrees board hist q p := by
  simp only [symPointAgrees, eq_comm]

/-- A position that a symmetry preserves is preserved by its inverse. -/
theorem isBoardSym_invert (valid : s < symmetrySearchUpperBound board) (preserved : isBoardSym board hist s = true) :
    isBoardSym board hist (invert s) = true := by
  rw [isBoardSym_iff] at preserved ⊢
  intro loc onBoard
  have valid' := invert_lt_upperBound valid
  have forth := getSymLoc_invert_locs valid' onBoard
  rw [invert_invert (lt_numSymmetries valid)] at forth
  have agrees := preserved _ (getSymLoc_mem_locs valid' onBoard)
  rwa [forth, symPointAgrees_comm] at agrees

theorem mem_validSymmetries : s ∈ validSymmetries board hist none ↔
    s = 0 ∨ s ≠ 0 ∧ s < symmetrySearchUpperBound board ∧ isBoardSym board hist s = true := by
  have searched : s ∈ (List.range (symmetrySearchUpperBound board)).drop 1 ↔ s ≠ 0 ∧ s < symmetrySearchUpperBound board := by
    rw [List.mem_drop_iff_getElem]
    simp only [List.getElem_range, List.length_range]
    constructor
    · rintro ⟨i, inside, rfl⟩
      exact ⟨by omega, by omega⟩
    · rintro ⟨positive, inside⟩
      exact ⟨s - 1, by omega, by omega⟩
  simp only [validSymmetries, List.mem_cons, List.mem_filter, searched, Option.all_none, Bool.true_and, and_assoc]

theorem upperBound_pos : 0 < symmetrySearchUpperBound board := by
  unfold symmetrySearchUpperBound
  split_ifs <;> decide

theorem lt_of_mem_validSymmetries (member : s ∈ validSymmetries board hist none) : s < symmetrySearchUpperBound board := by
  rcases mem_validSymmetries.mp member with rfl | ⟨_, searched, _⟩
  · exact upperBound_pos
  · exact searched

theorem invert_mem_validSymmetries (member : s ∈ validSymmetries board hist none) :
    invert s ∈ validSymmetries board hist none := by
  rcases mem_validSymmetries.mp member with rfl | ⟨proper, searched, preserved⟩
  · exact member
  · refine mem_validSymmetries.mpr (Or.inr ⟨fun zero => proper ?_, invert_lt_upperBound searched,
      isBoardSym_invert searched preserved⟩)
    exact (invert_eq_zero (lt_numSymmetries searched)).mp zero

end Closure

section Marks

variable (board : Board) (hist : BoardHistory) (avoidMoves : List Int)

/-- The images of a point under the symmetries found, but for the identity. -/
def symImages (loc : Loc) : List Loc :=
  ((validSymmetries board hist none).filter (· ≠ 0)).map fun s => getSymLoc loc board.xSize board.ySize s

def scanLocs : List Loc := (scanXYs board hist).map fun xy => Location.getLoc xy.1 xy.2 board.xSize

variable {board hist avoidMoves}

theorem mem_scanXYs {xy : Nat × Nat} : xy ∈ scanXYs board hist ↔ xy.1 < board.xSize ∧ xy.2 < board.ySize := by
  obtain ⟨x, y⟩ := xy
  unfold scanXYs
  split_ifs <;> simp [and_comm, eq_comm]

theorem mem_scanLocs {loc : Loc} : loc ∈ scanLocs board hist ↔ loc ∈ board.locs := by
  simp only [scanLocs, List.mem_map, mem_scanXYs, Prod.exists]
  rw [Board.locs, mem_boardLocs]
  constructor
  · rintro ⟨x, y, ⟨left, below⟩, rfl⟩
    exact ⟨y, below, x, left, rfl⟩
  · rintro ⟨y, below, x, left, rfl⟩
    exact ⟨x, y, ⟨left, below⟩, rfl⟩

theorem mem_symImages {p q : Loc} : q ∈ symImages board hist p ↔
    ∃ s ∈ validSymmetries board hist none, s ≠ 0 ∧ getSymLoc p board.xSize board.ySize s = q := by
  simp [symImages, and_assoc]

theorem symImages_symm {p q : Loc} (onBoard : p ∈ board.locs) (image : q ∈ symImages board hist p) :
    p ∈ symImages board hist q := by
  obtain ⟨s, member, proper, rfl⟩ := mem_symImages.mp image
  have searched := lt_of_mem_validSymmetries member
  refine mem_symImages.mpr ⟨invert s, invert_mem_validSymmetries member, ?_, getSymLoc_invert_locs searched onBoard⟩
  exact fun zero => proper ((invert_eq_zero (lt_numSymmetries searched)).mp zero)

/-- The loops of the source mark the images of each point in turn. -/
theorem markDuplicateMoveLocs_eq (noKo : board.koLoc = nullLoc) (unbanned : board.locs.any hist.superKoBanned = false) :
    markDuplicateMoveLocs board hist none avoidMoves =
      ((scanLocs board hist).foldl (markImages (isAvoided avoidMoves) (symImages board hist)) fun _ => false,
        validSymmetries board hist none) := by
  unfold markDuplicateMoveLocs
  rw [if_neg (not_not.mpr noKo), if_neg (by rw [unbanned]; decide)]
  refine congrArg (·, _) ?_
  rw [scanLocs, List.foldl_map]
  refine List.foldl_ext _ _ _ fun marked xy inside => ?_
  have left := (mem_scanXYs.mp inside).1
  simp only [markImages, symImages, List.foldl_map, List.foldl_filter, getSymLocXY_eq left]
  refine if_congr Iff.rfl rfl ?_
  refine List.foldl_ext _ _ _ fun marked s _ => ?_
  by_cases zero : s = 0 <;> simp [zero]

theorem markDuplicateMoveLocs_marking (noKo : board.koLoc = nullLoc) (unbanned : board.locs.any hist.superKoBanned = false) :
    Marking (isAvoided avoidMoves) (symImages board hist) (· ∈ board.locs)
      (markDuplicateMoveLocs board hist none avoidMoves).1 := by
  rw [markDuplicateMoveLocs_eq noKo unbanned]
  have nothing : Marking (isAvoided avoidMoves) (symImages board hist) (fun _ => False) fun _ => false := .nothing
  have symmetric : ∀ v ∈ scanLocs board hist, ∀ p, False ∨ p ∈ scanLocs board hist → p ∈ symImages board hist v →
      v ∈ symImages board hist p := fun v member p _ image => symImages_symm (mem_scanLocs.mp member) image
  have scanned := nothing.scan symmetric
  simpa only [false_or, mem_scanLocs] using scanned

theorem getSymLoc_zero_of_known {loc : Loc} (known : loc ∈ board.locs ∨ loc = passLoc) :
    getSymLoc loc board.xSize board.ySize 0 = loc := by
  rcases known with onBoard | off
  · exact getSymLoc_zero onBoard
  · exact getSymLoc_off (Or.inr off)

/-- Without a ko every location that is not avoided is kept or has a kept location behind it. -/
theorem exists_kept {loc : Loc} (noKo : board.koLoc = nullLoc) (unbanned : board.locs.any hist.superKoBanned = false)
    (known : loc ∈ board.locs ∨ loc = passLoc) (free : isAvoided avoidMoves loc = false) :
    ∃ s ∈ validSymmetries board hist none, ∃ kept, (kept ∈ board.locs ∨ kept = passLoc) ∧
      isAvoided avoidMoves kept = false ∧ (markDuplicateMoveLocs board hist none avoidMoves).1 kept = false ∧
      getSymLoc kept board.xSize board.ySize s = loc := by
  have marking : Marking (isAvoided avoidMoves) (symImages board hist) (· ∈ board.locs) _ :=
    markDuplicateMoveLocs_marking noKo unbanned
  cases seen : (markDuplicateMoveLocs board hist none avoidMoves).1 loc with
  | false => exact ⟨0, mem_validSymmetries.mpr (Or.inl rfl), loc, known, free, seen, getSymLoc_zero_of_known known⟩
  | true =>
    obtain ⟨kept, onBoard, unavoided, unmarked, image⟩ := marking.behind loc seen
    obtain ⟨s, valid, _, same⟩ := mem_symImages.mp image
    exact ⟨s, valid, kept, Or.inl onBoard, unavoided, unmarked, same⟩

/-- Without a ko two kept locations are not images of each other. -/
theorem kept_apart {p q : Loc} (noKo : board.koLoc = nullLoc) (unbanned : board.locs.any hist.superKoBanned = false)
    (known : p ∈ board.locs ∨ p = passLoc) (apart : p ≠ q) (free : isAvoided avoidMoves p = false)
    (unmarked : (markDuplicateMoveLocs board hist none avoidMoves).1 p = false)
    (unmarked' : (markDuplicateMoveLocs board hist none avoidMoves).1 q = false)
    {s : Nat} (valid : s ∈ validSymmetries board hist none) : getSymLoc p board.xSize board.ySize s ≠ q := by
  intro image
  rcases known with onBoard | rfl
  · have proper : s ≠ 0 := by
      rintro rfl
      exact apart ((getSymLoc_zero onBoard).symm.trans image)
    have marks := (markDuplicateMoveLocs_marking noKo unbanned).spread p onBoard free unmarked q
      (mem_symImages.mpr ⟨s, valid, proper, image⟩) apart.symm
    rw [unmarked'] at marks
    exact absurd marks (by decide)
  · exact apart ((getSymLoc_off (Or.inr rfl)).symm.trans image)

theorem markDuplicateMoveLocs_snd (noKo : board.koLoc = nullLoc) (unbanned : board.locs.any hist.superKoBanned = false) :
    (markDuplicateMoveLocs board hist none avoidMoves).2 = validSymmetries board hist none := by
  rw [markDuplicateMoveLocs_eq noKo unbanned]

/-- With a ko nothing is marked, and the identity alone is valid. -/
theorem markDuplicateMoveLocs_ko (ko : ¬(board.koLoc = nullLoc ∧ board.locs.any hist.superKoBanned = false)) :
    markDuplicateMoveLocs board hist none avoidMoves = (fun _ => false, [0]) := by
  unfold markDuplicateMoveLocs
  by_cases noKo : board.koLoc = nullLoc
  · have banned : board.locs.any hist.superKoBanned = true := by simpa [noKo] using ko
    rw [if_neg (not_not.mpr noKo), if_pos banned]
  · rw [if_pos noKo]

end Marks

/-- Symmetry pruning loses no move and keeps no duplicate: a location that is not avoided is the image of
one that is neither avoided nor marked, and no two such locations are images of each other. -/
theorem markDuplicateMoveLocs_transversal (board : Board) (hist : BoardHistory) (avoidMoves : List Int) :
    let result := markDuplicateMoveLocs board hist none avoidMoves
    (∀ loc, loc ∈ board.locs ∨ loc = passLoc → isAvoided avoidMoves loc = false →
      ∃ s ∈ result.2, ∃ kept, (kept ∈ board.locs ∨ kept = passLoc) ∧ isAvoided avoidMoves kept = false ∧ result.1 kept = false ∧
        getSymLoc kept board.xSize board.ySize s = loc) ∧
    ∀ p q, (p ∈ board.locs ∨ p = passLoc) → (q ∈ board.locs ∨ q = passLoc) → p ≠ q →
      isAvoided avoidMoves p = false → result.1 p = false → isAvoided avoidMoves q = false → result.1 q = false →
        ∀ s ∈ result.2, getSymLoc p board.xSize board.ySize s ≠ q := by
  by_cases calm : board.koLoc = nullLoc ∧ board.locs.any hist.superKoBanned = false
  · obtain ⟨noKo, unbanned⟩ := calm
    have symmetries : (markDuplicateMoveLocs board hist none avoidMoves).2 = _ := markDuplicateMoveLocs_snd noKo unbanned
    refine ⟨fun loc known free => ?_, fun p q known known' apart free unmarked free' unmarked' s valid => ?_⟩
    · rw [symmetries]
      exact exists_kept noKo unbanned known free
    · rw [symmetries] at valid
      exact kept_apart noKo unbanned known apart free unmarked unmarked' valid
  · rw [markDuplicateMoveLocs_ko calm]
    refine ⟨fun loc known free => ?_, fun p q known _ apart _ _ _ _ s valid image => ?_⟩
    · exact ⟨0, List.mem_singleton_self 0, loc, known, free, rfl, getSymLoc_zero_of_known known⟩
    · rw [List.mem_singleton.mp valid, getSymLoc_zero_of_known known] at image
      exact apart image

end SymmetryHelpers
end KataGo.Game
