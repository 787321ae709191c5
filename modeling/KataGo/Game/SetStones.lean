import KataGo.Game.Placement
import KataGo.Game.UnconditionalLife
import Mathlib.Data.List.Perm.Basic

/-! What the set-up operations do to the position: replacing a stone, and placing many stones at once. -/

namespace KataGo.Game
open KataGo.Lib CircularList Labelling

namespace Board

variable {b b' : Board} {p q e loc : Loc} {pla k : Color} {placements rest : List Move}

/-- The placements laid over some colours, one after another. -/
def overlaid (c : Loc → Color) (placements : List Move) : Loc → Color :=
  placements.foldl (fun c m => Function.update c m.loc m.pla) c

/-- A stone whose group has no liberty. -/
def DeadIn (xSize : Nat) (c : Loc → Color) (q : Loc) : Prop :=
  (c q).IsStone ∧ ¬ ∃ e, Liberty (grid xSize) .empty c q e

theorem dead_free_iff : (∀ q, ¬ DeadIn b.xSize b.colors q) ↔ b.AllAlive := by
  unfold DeadIn AllAlive
  simp only [not_and, not_not]
  rfl

section Overlay

theorem overlaid_of_notMem {c : Loc → Color} (outside : q ∉ placements.map Move.loc) : overlaid c placements q = c q := by
  induction placements generalizing c with
  | nil => rfl
  | cons m rest ih =>
    rw [List.map_cons, List.mem_cons, not_or] at outside
    exact (ih outside.2).trans (Function.update_of_ne outside.1 ..)

theorem overlaid_of_mem {c : Loc → Color} {m : Move} (distinct : (placements.map Move.loc).Nodup) (member : m ∈ placements) :
    overlaid c placements m.loc = m.pla := by
  induction placements generalizing c with
  | nil => cases member
  | cons first rest ih =>
    obtain ⟨fresh, distinct⟩ := List.nodup_cons.1 distinct
    rcases List.mem_cons.1 member with rfl | later
    · exact (overlaid_of_notMem fresh).trans (Function.update_self ..)
    · exact ih distinct later

/-- The order of placements at different points does not matter. -/
theorem overlaid_perm {c : Loc → Color} {placements' : List Move} (distinct : (placements.map Move.loc).Nodup)
    (perm : placements'.Perm placements) : overlaid c placements' = overlaid c placements := by
  have distinct' : (placements'.map Move.loc).Nodup := (perm.map Move.loc).nodup_iff.2 distinct
  funext q
  by_cases set : q ∈ placements.map Move.loc
  · obtain ⟨m, member, rfl⟩ := List.mem_map.1 set
    rw [overlaid_of_mem distinct member, overlaid_of_mem distinct' (perm.mem_iff.2 member)]
  · rw [overlaid_of_notMem set, overlaid_of_notMem fun member => set ((perm.map Move.loc).mem_iff.1 member)]

/-- Only what is overwritten is forgotten. -/
theorem overlaid_congr {c c' : Loc → Color} (same : ∀ q, q ∉ placements.map Move.loc → c q = c' q) (distinct : (placements.map Move.loc).Nodup) :
    overlaid c placements = overlaid c' placements := by
  funext q
  by_cases set : q ∈ placements.map Move.loc
  · obtain ⟨m, member, rfl⟩ := List.mem_map.1 set
    rw [overlaid_of_mem distinct member, overlaid_of_mem distinct member]
  · rw [overlaid_of_notMem set, overlaid_of_notMem set, same q set]

end Overlay

theorem settable_iff (shape : b.Shape) : b.settable loc k = true ↔ loc ∈ b.locs ∧ (k = .empty ∨ k.IsStone) := by
  have color : (!(decide (k ≠ .black) && decide (k ≠ .white) && decide (k ≠ .empty))) = true ↔ k = .empty ∨ k.IsStone := by
    cases k <;> decide
  have point : (!(decide (loc < 0) || decide (loc ≥ maxArrSize) || decide (b.colors loc = .wall))) = true ↔ loc ∈ b.locs := by
    simp only [Bool.not_eq_true', Bool.or_eq_false_iff, decide_eq_false_iff_not, shape.wall_iff, not_not]
    constructor
    · exact fun all => all.2
    · intro inside
      have bounds := boardLocs_bounds shape.wide.2 shape.high.2 inside
      exact ⟨⟨Int.not_lt.2 (Int.le_of_lt (Int.lt_trans Int.one_pos bounds.1)), Int.not_le.2 bounds.2⟩, inside⟩
  rw [settable, Bool.and_eq_true, color, point]

variable [Zobrist]

section Replace

/-- Once a stone has been taken off, the other side's chains next to it have a liberty besides its point. -/
theorem one_lt_of_removed {b₁ : Board} (consistent : b.Consistent) (consistent₁ : b₁.Consistent) (xSize : b₁.xSize = b.xSize)
    (colors : b₁.colors = Function.update b.colors loc .empty) (stone : (b.colors loc).IsStone)
    (other : b.colors loc ≠ k) {a : Loc} (near : a ∈ b₁.adj loc) (mine : b₁.colors a = k) (player : k.IsStone) :
    b₁.getNumLiberties a > 1 := by
  have here : a ≠ loc := ne_of_mem_adj near
  have label : b.colors a = k := by rw [← mine, colors, Function.update_of_ne here]
  have blank : b₁.colors loc = .empty := by rw [colors, Function.update_self]
  have isStone : (b.colors a).IsStone := by rw [label]; exact player
  obtain ⟨e, free⟩ := consistent.allAlive a isStone
  have apart : e ≠ loc := by
    rintro rfl
    exact stone.ne_empty free.1
  refine (one_lt_numLiberties_iff consistent₁.regular blank near (by rw [mine]; exact player)).2 ⟨e, apart, ?_⟩
  rw [liberties, xSize, colors]
  refine Liberty.relabel (fun x path => Function.update_of_ne ?_ ..) ?_ free
  · rintro rfl
    exact other (path.label.trans label)
  · rw [Function.update_of_ne apart]
    exact free.1

/-- Where a stone has just been taken off, the two tests for suicide are the same. -/
theorem isSuicide_of_removed {b₁ : Board} (consistent₁ : b₁.Consistent) (blank : b₁.colors loc = .empty)
    (many : ∀ a ∈ b₁.adj loc, b₁.colors a = k → b₁.getNumLiberties a > 1) :
    b₁.isIllegalSuicide loc k true = b₁.isSuicide loc k := by
  have notPass : loc ≠ passLoc := consistent₁.shape.ne_pass (by rw [blank]; decide)
  rw [isIllegalSuicide, isSuicide, if_neg notPass]
  congr 1
  refine Bool.eq_iff_iff.2 ?_
  rw [List.any_eq_true, List.any_eq_true]
  refine exists_congr fun a => and_congr_right fun near => ?_
  by_cases mine : b₁.colors a = k
  · simp [mine, many a near mine]
  · simp [mine]

theorem getNumLiberties_congr (consistent : b.Consistent) (consistent' : b'.Consistent) (xSize : b'.xSize = b.xSize)
    (colors : b'.colors = b.colors) (stone : (b.colors p).IsStone) : b'.getNumLiberties p = b.getNumLiberties p := by
  rw [consistent'.regular.getNumLiberties (by rw [colors]; exact stone), consistent.regular.getNumLiberties stone,
    liberties, liberties, xSize, colors]

/-- Putting another colour on a stone is taking the stone off and then putting the colour on the empty point. -/
theorem setStone_replace (b : Board) (loc : Loc) (color : Color) (consistent : b.Consistent) (stone : (b.colors loc).IsStone)
    (settable : color = .empty ∨ color.IsStone) (different : color ≠ b.colors loc) :
    ∃ b' b₁ b'' flag, b.setStone loc color = some (b', flag) ∧ b.setStone loc .empty = some (b₁, true) ∧
      b₁.setStone loc color = some (b'', flag) ∧ b''.colors = b'.colors ∧ b''.posHash = b'.posHash ∧
      ∀ p, (b'.colors p).IsStone → b''.getNumLiberties p = b'.getNumLiberties p := by
  have point : loc ∈ b.locs := consistent.shape.stone_mem_locs stone
  obtain ⟨b₁, remove, consistent₁, xSize₁, ySize₁, colors₁⟩ := removeSingleStone_spec consistent stone
  have blank₁ : b₁.colors loc = .empty := by rw [colors₁, Function.update_self]
  have withKo := (sameChains_withKo b₁ nullLoc).consistent consistent₁
  have taken : b.setStone loc .empty = some ({ b₁ with koLoc := nullLoc }, true) := by
    rw [setStone, if_neg (by rw [(settable_iff consistent.shape).2 ⟨point, .inl rfl⟩]; decide), replaceStone,
      if_neg stone.ne_empty, if_neg stone.ne_empty, if_pos rfl, remove]
    rfl
  have settable₁ : ({ b₁ with koLoc := nullLoc } : Board).settable loc color = true := by
    refine (settable_iff withKo.shape).2 ⟨?_, settable⟩
    rw [locs, xSize₁, ySize₁]
    exact point
  have start : b.settable loc color = true := (settable_iff consistent.shape).2 ⟨point, settable⟩
  have result : ∃ b' b'', (b.replaceStone loc color = some b' ∧ b'.Consistent ∧ b'.xSize = b₁.xSize ∧ b'.ySize = b₁.ySize) ∧
      (({ b₁ with koLoc := nullLoc } : Board).replaceStone loc color = some b'' ∧ b''.Consistent ∧ b''.xSize = b₁.xSize ∧
        b''.ySize = b₁.ySize) ∧ b''.colors = b'.colors := by
    rcases settable with rfl | player
    · refine ⟨b₁, { b₁ with koLoc := nullLoc }, ⟨?_, consistent₁, rfl, rfl⟩, ⟨if_pos blank₁, withKo, rfl, rfl⟩, rfl⟩
      rw [replaceStone, if_neg different.symm, if_neg stone.ne_empty, if_pos rfl]
      exact remove
    · have tests : ({ b₁ with koLoc := nullLoc } : Board).isIllegalSuicide loc color true = b₁.isSuicide loc color :=
        isSuicide_of_removed withKo blank₁ fun a near mine =>
          one_lt_of_removed consistent consistent₁ xSize₁ colors₁ stone different.symm near mine player
      have direct : b.replaceStone loc color = if b₁.isSuicide loc color then some b₁ else b₁.playMoveAssumeLegal loc color := by
        rw [replaceStone, if_neg different.symm, if_neg stone.ne_empty, if_neg player.ne_empty, remove]
        rfl
      have later : ({ b₁ with koLoc := nullLoc } : Board).replaceStone loc color =
          if b₁.isSuicide loc color then some { b₁ with koLoc := nullLoc }
          else ({ b₁ with koLoc := nullLoc } : Board).playMoveAssumeLegal loc color := by
        rw [replaceStone, if_neg (by rw [blank₁]; exact player.ne_empty.symm), if_pos blank₁, tests]
      rw [direct, later]
      by_cases suicide : b₁.isSuicide loc color = true
      · rw [if_pos suicide, if_pos suicide]
        exact ⟨b₁, _, ⟨rfl, consistent₁, rfl, rfl⟩, ⟨rfl, withKo, rfl, rfl⟩, rfl⟩
      · rw [if_neg suicide, if_neg suicide]
        obtain ⟨b', run, played⟩ := playMoveAssumeLegal_spec consistent₁ blank₁ player
        obtain ⟨b'', run', played'⟩ := playMoveAssumeLegal_spec withKo blank₁ player
        exact ⟨b', b'', ⟨run, played.consistent, played.xSize, played.ySize⟩,
          ⟨run', played'.consistent, played'.xSize, played'.ySize⟩, played'.colors.trans played.colors.symm⟩
  obtain ⟨b', b'', ⟨run, consistent', xSize', ySize'⟩, ⟨run', consistent'', xSize'', ySize''⟩, colors⟩ := result
  refine ⟨{ b' with koLoc := nullLoc }, { b₁ with koLoc := nullLoc }, { b'' with koLoc := nullLoc }, true, ?_, taken, ?_,
    colors, ?_, fun p isStone => ?_⟩
  · rw [setStone, if_neg (by rw [start]; decide), run]
    rfl
  · rw [setStone, if_neg (by rw [settable₁]; decide), run']
    rfl
  · show b''.posHash = b'.posHash
    rw [consistent''.hash, consistent'.hash, colors, xSize'', ySize'', xSize', ySize']
  · have liberties : b''.getNumLiberties p = b'.getNumLiberties p :=
      getNumLiberties_congr consistent' consistent'' (xSize''.trans xSize'.symm) colors isStone
    exact liberties

omit [Zobrist] in
/-- The stone in the middle of three becomes a white one. -/
theorem setStone_replace_three :
    letI := Zobrist.blank
    ∃ b b' b₁ b'' flag, threeStones = some b ∧ b.setStone (Location.getLoc 1 1 3) .white = some (b', flag) ∧
      b.setStone (Location.getLoc 1 1 3) .empty = some (b₁, true) ∧
      b₁.setStone (Location.getLoc 1 1 3) .white = some (b'', flag) ∧ b''.colors = b'.colors := by
  let _ := Zobrist.blank
  obtain ⟨b, made, consistent⟩ := threeStones_consistent
  have black : threeStones.map (fun b => b.colors (Location.getLoc 1 1 3)) = some .black := by decide +kernel
  rw [made] at black
  have label : b.colors (Location.getLoc 1 1 3) = .black := Option.some.inj black
  obtain ⟨b', b₁, b'', flag, direct, taken, again, same, -⟩ :=
    setStone_replace b (Location.getLoc 1 1 3) .white consistent (.inl label) (.inr (.inr rfl)) (by rw [label]; decide)
  exact ⟨b, b', b₁, b'', flag, made, direct, taken, again, same⟩

end Replace

section Tolerant

omit [Zobrist] in
/-- Placements on the board are all laid over the colours. -/
theorem foldl_overlay (shape : b.Shape) (points : ∀ m ∈ placements, m.loc ∈ b.locs)
    (colours : ∀ m ∈ placements, m.pla = .empty ∨ m.pla.IsStone) :
    placements.foldl overlay b = { b with colors := overlaid b.colors placements } := by
  induction placements generalizing b with
  | nil => rfl
  | cons m rest ih =>
    have settable := (settable_iff shape).2 ⟨points m List.mem_cons_self, colours m List.mem_cons_self⟩
    have first : b.overlay m = b.setColor m.loc m.pla := if_pos settable
    have shape₁ : (b.setColor m.loc m.pla).Shape := by
      rw [← first]
      exact overlay_shape shape m
    rw [List.foldl_cons, first, ih shape₁ (fun m member => points m (List.mem_cons_of_mem _ member))
      fun m member => colours m (List.mem_cons_of_mem _ member)]
    rfl

/-- Placements at different points: the overlay without its dead groups, all taken off at the same time. -/
theorem setStonesTolerant_exact (b : Board) (placements : List Move) (consistent : b.Consistent)
    (distinct : (placements.map Move.loc).Nodup) (points : ∀ m ∈ placements, m.loc ∈ b.locs)
    (colours : ∀ m ∈ placements, m.pla = .empty ∨ m.pla.IsStone) :
    ∃ b', b.setStonesTolerant placements =
        some (b', ({q | DeadIn b.xSize (overlaid b.colors placements) q}.ncard : Int)) ∧
      b'.Consistent ∧ b'.AllAlive ∧ b'.xSize = b.xSize ∧ b'.ySize = b.ySize ∧ b'.koLoc = nullLoc ∧
      (∀ q, (DeadIn b.xSize (overlaid b.colors placements) q → b'.colors q = .empty) ∧
        (¬ DeadIn b.xSize (overlaid b.colors placements) q → b'.colors q = overlaid b.colors placements q)) ∧
      ∀ placements', placements'.Perm placements →
        b.setStonesTolerant placements' = b.setStonesTolerant placements := by
  have laid := foldl_overlay consistent.shape points colours
  obtain ⟨b₁, b', regen, regular, position, run, consistent', xSize', ySize', koLoc, colors'⟩ :=
    setStonesTolerant_spec consistent placements
  have same : b₁.colors = overlaid b.colors placements := by rw [position.colors, laid]
  have xSize : b₁.xSize = b.xSize := by rw [position.xSize, laid]
  have ySize : b₁.ySize = b.ySize := by rw [position.ySize, laid]
  have dead : ∀ q, q ∈ b₁.locs ∧ (b₁.colors q).IsStone ∧ b₁.getNumLiberties q = 0 ↔
      DeadIn b.xSize (overlaid b.colors placements) q := by
    intro q
    rw [← same, ← xSize]
    constructor
    · rintro ⟨-, stone, none⟩
      exact ⟨stone, (regular.numLiberties_eq_zero_iff stone).1 none⟩
    · rintro ⟨stone, trapped⟩
      exact ⟨regular.shape.stone_mem_locs stone, stone, (regular.numLiberties_eq_zero_iff stone).2 trapped⟩
  have number : {q | DeadIn b.xSize (overlaid b.colors placements) q}.ncard =
      b₁.locs.countP fun q => (b₁.colors q).IsStone ∧ b₁.getNumLiberties q = 0 := by
    have nodup : b₁.locs.Nodup := boardLocs_nodup _ _
    rw [List.countP_eq_length_filter, ← List.toFinset_card_of_nodup (nodup.filter _), ← Set.ncard_coe_finset]
    congr 1
    ext q
    rw [Set.mem_ofPred_eq, ← dead q, Finset.mem_coe, List.mem_toFinset, List.mem_filter, decide_eq_true_eq]
  refine ⟨b', by rw [run, number], consistent', consistent'.allAlive, xSize'.trans xSize, ySize'.trans ySize, koLoc,
    fun q => ⟨fun gone => ?_, fun kept => ?_⟩, fun placements' perm => ?_⟩
  · rw [colors' q, if_pos ((dead q).2 gone)]
  · rw [colors' q, if_neg fun all => kept ((dead q).1 all), same]
  · have laid' : placements'.foldl overlay b = placements.foldl overlay b := by
      rw [laid, foldl_overlay consistent.shape (fun m member => points m (perm.mem_iff.1 member))
        fun m member => colours m (perm.mem_iff.1 member), overlaid_perm distinct perm]
    rw [setStonesTolerant, setStonesTolerant, laid']

omit [Zobrist] in
/-- Two white stones between the three black ones and the edge. -/
theorem setStonesTolerant_exact_three :
    letI := Zobrist.blank
    ∃ b b' n, threeStones = some b ∧
      b.setStonesTolerant [⟨Location.getLoc 2 0 3, .white⟩, ⟨Location.getLoc 2 1 3, .white⟩] = some (b', n) ∧
      b.setStonesTolerant [⟨Location.getLoc 2 1 3, .white⟩, ⟨Location.getLoc 2 0 3, .white⟩] = some (b', n) ∧
      b'.Consistent := by
  let _ := Zobrist.blank
  obtain ⟨b, made, consistent⟩ := threeStones_consistent
  have sizes : threeStones.map (fun b => (b.xSize, b.ySize)) = some (3, 2) := by decide +kernel
  rw [made] at sizes
  have locs : b.locs = boardLocs 3 2 := by
    rw [Board.locs, (Prod.mk.inj (Option.some.inj sizes)).1, (Prod.mk.inj (Option.some.inj sizes)).2]
  obtain ⟨b', run, consistent', -, -, -, -, -, order⟩ := setStonesTolerant_exact b
    [⟨Location.getLoc 2 0 3, .white⟩, ⟨Location.getLoc 2 1 3, .white⟩] consistent (by decide)
    (by rw [locs]; decide) (by decide)
  exact ⟨b, b', _, made, run, (order _ (.swap ..)).trans run, consistent'⟩

end Tolerant

section FailIfNoLibs

/-- What `setStonesFailIfNoLibs` accepts. -/
structure Fits (b : Board) (placements : List Move) : Prop where
  distinct : (placements.map Move.loc).Nodup
  points : ∀ m ∈ placements, m.loc ∈ b.locs
  colours : ∀ m ∈ placements, m.pla = .empty ∨ m.pla.IsStone
  alive : ∀ q, ¬ DeadIn b.xSize (overlaid b.colors placements) q

omit [Zobrist] in
theorem Fits.perm {placements' : List Move} (fits : b.Fits placements) (perm : placements'.Perm placements) :
    b.Fits placements' :=
  ⟨(perm.map Move.loc).nodup_iff.2 fits.distinct, fun m member => fits.points m (perm.mem_iff.1 member),
    fun m member => fits.colours m (perm.mem_iff.1 member), by rw [overlaid_perm fits.distinct perm]; exact fits.alive⟩

theorem setStoneFailIfNoLibs_off (off : b.settable loc k ≠ true) : b.setStoneFailIfNoLibs loc k = some (b, false) :=
  if_pos (by simpa using off)

/-- Emptying a point of the board always works. -/
theorem setStoneFailIfNoLibs_empty (consistent : b.Consistent) (point : loc ∈ b.locs) :
    ∃ b', b.setStoneFailIfNoLibs loc .empty = some (b', true) ∧ b'.Consistent ∧ b'.xSize = b.xSize ∧ b'.ySize = b.ySize ∧
      b'.colors = Function.update b.colors loc .empty := by
  have settable := (settable_iff consistent.shape).2 ⟨point, .inl (rfl : Color.empty = .empty)⟩
  rw [setStoneFailIfNoLibs, if_neg (by rw [settable]; decide)]
  by_cases blank : b.colors loc = .empty
  · rw [if_pos blank]
    exact ⟨_, rfl, (sameChains_withKo b nullLoc).consistent consistent, rfl, rfl, (Function.update_eq_self_iff.2 blank.symm).symm⟩
  · obtain ⟨b₁, remove, consistent₁, xSize₁, ySize₁, colors₁⟩ :=
      removeSingleStone_spec consistent (stone_of_settable settable blank)
    rw [if_neg blank, if_neg blank, if_pos rfl, remove]
    exact ⟨_, rfl, (sameChains_withKo b₁ nullLoc).consistent consistent₁, xSize₁, ySize₁, colors₁⟩

/-- A stone is put on an empty point unless this would leave some group without a liberty. -/
theorem setStoneFailIfNoLibs_stone (consistent : b.Consistent) (point : loc ∈ b.locs) (blank : b.colors loc = .empty)
    (player : k.IsStone) :
    ∃ b' ok, b.setStoneFailIfNoLibs loc k = some (b', ok) ∧ b'.Consistent ∧
      (ok = true ↔ ∀ q, ¬ DeadIn b.xSize (Function.update b.colors loc k) q) ∧
      (ok = true → b'.xSize = b.xSize ∧ b'.ySize = b.ySize ∧ b'.colors = Function.update b.colors loc k) := by
  have regular := consistent.regular
  have settable := (settable_iff consistent.shape).2 ⟨point, .inr player⟩
  have same : b.colors loc ≠ k := by rw [blank]; exact player.ne_empty.symm
  rw [setStoneFailIfNoLibs, if_neg (by rw [settable]; decide), if_neg same, if_pos blank]
  have capture : b.wouldBeCapture loc k = true ↔ ∃ a ∈ b.adj loc, b.colors a = getOpp k ∧ b.getNumLiberties a = 1 := by
    rw [wouldBeCapture, if_neg (not_not.2 blank), List.any_eq_true]
    exact exists_congr fun a => and_congr_right fun _ => decide_eq_true_iff
  have suicide := isSuicide_iff regular blank player
  by_cases refused : (b.isSuicide loc k || b.wouldBeCapture loc k) = true
  · rw [if_pos refused]
    refine ⟨b, false, rfl, consistent, iff_of_false Bool.false_ne_true fun alive => ?_, fun absent => (nomatch absent)⟩
    rcases Bool.or_eq_true_iff.1 refused with own | captures
    · exact alive loc ⟨by rw [Function.update_self]; exact player, (suicide.1 own).2⟩
    · obtain ⟨a, near, opposite, one⟩ := capture.1 captures
      refine alive a ⟨?_, (captures_iff regular blank player near opposite).1 one⟩
      rw [Function.update_of_ne (ne_of_mem_adj near), opposite]
      exact player.opp
  · rw [if_neg refused]
    rw [Bool.or_eq_true, not_or] at refused
    have noCapture : ∀ a ∈ b.adj loc, b.colors a = getOpp k → b.getNumLiberties a ≠ 1 := fun a near opposite one =>
      refused.2 (capture.2 ⟨a, near, opposite, one⟩)
    have own : ∃ e, Liberty (grid b.xSize) .empty (Function.update b.colors loc k) loc e :=
      not_not.1 fun trapped => refused.1 (suicide.2 ⟨noCapture, trapped⟩)
    have opponents : ∀ q, Function.update b.colors loc k q = getOpp k →
        ∃ e, Liberty (grid b.xSize) .empty (Function.update b.colors loc k) q e := by
      intro q opposite
      by_contra trapped
      have gone := congrFun (removeDead_eq_self consistent blank player noCapture) q
      rw [removeDead_of_dead opposite trapped, opposite] at gone
      exact player.opp.ne_empty gone.symm
    obtain ⟨b', run, played⟩ := playMoveAssumeLegal_spec consistent blank player
    have colors : b'.colors = Function.update b.colors loc k := by rw [played.colors, play_eq_update opponents own]
    rw [run]
    refine ⟨_, true, rfl, (sameChains_withKo b' nullLoc).consistent played.consistent, iff_of_true rfl ?_,
      fun _ => ⟨played.xSize, played.ySize, colors⟩⟩
    rw [← colors, ← played.xSize]
    exact dead_free_iff.2 played.consistent.allAlive

/-- The first loop empties every point that is named. -/
theorem setEach_empty (consistent : b.Consistent) (points : ∀ m ∈ placements, m.loc ∈ b.locs) :
    ∃ b', setEach (fun _ => .empty) placements b = some (b', true) ∧ b'.Consistent ∧ b'.xSize = b.xSize ∧
      b'.ySize = b.ySize ∧ ∀ q, b'.colors q = if q ∈ placements.map Move.loc then .empty else b.colors q := by
  induction placements generalizing b with
  | nil => exact ⟨b, rfl, consistent, rfl, rfl, fun q => by simp⟩
  | cons m rest ih =>
    obtain ⟨b₁, run, consistent₁, xSize₁, ySize₁, colors₁⟩ :=
      setStoneFailIfNoLibs_empty consistent (points m List.mem_cons_self)
    obtain ⟨b', tail, consistent', xSize', ySize', colors'⟩ := ih consistent₁ fun m member => by
      rw [locs, xSize₁, ySize₁]
      exact points _ (List.mem_cons_of_mem _ member)
    refine ⟨b', ?_, consistent', xSize'.trans xSize₁, ySize'.trans ySize₁, fun q => ?_⟩
    · rw [setEach, run]
      exact tail
    · rw [colors' q, colors₁]
      by_cases here : q = m.loc
      · simp [here]
      · simp [here]

theorem setEach_off (consistent : b.Consistent) {m : Move} (member : m ∈ placements) (off : m.loc ∉ b.locs) :
    ∃ b', setEach (fun _ => .empty) placements b = some (b', false) := by
  induction placements generalizing b with
  | nil => cases member
  | cons first rest ih =>
    by_cases point : first.loc ∈ b.locs
    · obtain ⟨b₁, run, consistent₁, xSize₁, ySize₁, -⟩ := setStoneFailIfNoLibs_empty consistent point
      obtain ⟨b', tail⟩ := ih consistent₁ ((List.mem_cons.1 member).resolve_left fun same => off (same ▸ point)) (by
        rw [locs, xSize₁, ySize₁]
        exact off)
      refine ⟨b', ?_⟩
      rw [setEach, run]
      exact tail
    · refine ⟨b, ?_⟩
      rw [setEach, setStoneFailIfNoLibs_off fun settable => point ((settable_iff consistent.shape).1 settable).1]
      rfl

omit [Zobrist] in
/-- Taking stones off leaves no dead group where there was none. -/
theorem not_dead_of_fewer {xSize : Nat} {c c' : Loc → Color} (fewer : ∀ q, c' q = c q ∨ c' q = .empty)
    (alive : ∀ q, ¬ DeadIn xSize c q) (q : Loc) : ¬ DeadIn xSize c' q := by
  rintro ⟨stone, trapped⟩
  have stays := (fewer q).resolve_right stone.ne_empty
  obtain ⟨e, free⟩ := not_not.1 fun cut => alive q ⟨stays ▸ stone, cut⟩
  exact trapped (free.of_blanked fewer stays)

/-- The second loop, on empty points: it succeeds when the overlay has no dead group. -/
theorem setEach_stones (consistent : b.Consistent) (distinct : (placements.map Move.loc).Nodup)
    (points : ∀ m ∈ placements, m.loc ∈ b.locs) (blank : ∀ m ∈ placements, b.colors m.loc = .empty) :
    ∃ b' ok, setEach Move.pla placements b = some (b', ok) ∧
      (ok = true ↔ (∀ m ∈ placements, m.pla = .empty ∨ m.pla.IsStone) ∧
        ∀ q, ¬ DeadIn b.xSize (overlaid b.colors placements) q) ∧
      (ok = true → b'.colors = overlaid b.colors placements) := by
  induction placements generalizing b with
  | nil =>
    exact ⟨b, true, rfl, iff_of_true rfl ⟨fun _ absent => absurd absent List.not_mem_nil, dead_free_iff.2 consistent.allAlive⟩, fun _ => rfl⟩
  | cons m rest ih =>
    obtain ⟨fresh, distinct⟩ := List.nodup_cons.1 distinct
    have point := points m List.mem_cons_self
    have free := blank m List.mem_cons_self
    have proceed : ∀ b₁ : Board, b.setStoneFailIfNoLibs m.loc m.pla = some (b₁, true) → b₁.Consistent → b₁.xSize = b.xSize →
        b₁.ySize = b.ySize → b₁.colors = Function.update b.colors m.loc m.pla → (m.pla = .empty ∨ m.pla.IsStone) →
        ∃ b' ok, setEach Move.pla (m :: rest) b = some (b', ok) ∧
          (ok = true ↔ (∀ m' ∈ m :: rest, m'.pla = .empty ∨ m'.pla.IsStone) ∧
            ∀ q, ¬ DeadIn b.xSize (overlaid b.colors (m :: rest)) q) ∧
          (ok = true → b'.colors = overlaid b.colors (m :: rest)) := by
      intro b₁ run consistent₁ xSize₁ ySize₁ colors₁ color
      obtain ⟨b', ok, tail, success, colors'⟩ := ih consistent₁ distinct
        (fun m' member => by
          rw [locs, xSize₁, ySize₁]
          exact points m' (List.mem_cons_of_mem _ member))
        (fun m' member => by
          have other : m'.loc ≠ m.loc := fun same => fresh (same ▸ List.mem_map_of_mem member)
          rw [colors₁, Function.update_of_ne other]
          exact blank m' (List.mem_cons_of_mem _ member))
      rw [colors₁] at colors' success
      refine ⟨b', ok, ?_, ?_, colors'⟩
      · rw [setEach, run]
        exact tail
      · rw [success, xSize₁, List.forall_mem_cons, and_iff_right color]
        rfl
    have stops : b.setStoneFailIfNoLibs m.loc m.pla = some (b, false) ∨ (∃ b₁, b.setStoneFailIfNoLibs m.loc m.pla = some (b₁, false)) →
        ∃ b', setEach Move.pla (m :: rest) b = some (b', false) := by
      rintro (run | ⟨b₁, run⟩)
      · exact ⟨b, by rw [setEach, run]; rfl⟩
      · exact ⟨b₁, by rw [setEach, run]; rfl⟩
    by_cases color : m.pla = .empty ∨ m.pla.IsStone
    · rcases color with none | player
      · obtain ⟨b₁, run, consistent₁, xSize₁, ySize₁, colors₁⟩ := setStoneFailIfNoLibs_empty consistent point
        exact proceed b₁ (by rw [none]; exact run) consistent₁ xSize₁ ySize₁ (by rw [none]; exact colors₁) (.inl none)
      · obtain ⟨b₁, ok, run, consistent₁, success, result⟩ := setStoneFailIfNoLibs_stone consistent point free player
        cases ok with
        | true =>
          obtain ⟨xSize₁, ySize₁, colors₁⟩ := result rfl
          exact proceed b₁ run consistent₁ xSize₁ ySize₁ colors₁ (.inr player)
        | false =>
          obtain ⟨b', stopped⟩ := stops (.inr ⟨b₁, run⟩)
          refine ⟨b', false, stopped, iff_of_false Bool.false_ne_true fun all => ?_, fun absent => absurd absent Bool.false_ne_true⟩
          refine Bool.false_ne_true (success.2 (not_dead_of_fewer (fun q => ?_) all.2))
          -- The stones that are still to come are put on empty points.
          by_cases later : q ∈ rest.map Move.loc
          · obtain ⟨m', member, rfl⟩ := List.mem_map.1 later
            have other : m'.loc ≠ m.loc := fun same => fresh (same ▸ later)
            refine .inr ?_
            rw [Function.update_of_ne other]
            exact blank m' (List.mem_cons_of_mem _ member)
          · exact .inl (overlaid_of_notMem (c := Function.update b.colors m.loc m.pla) later).symm
    · obtain ⟨b', stopped⟩ := stops (.inl (setStoneFailIfNoLibs_off fun settable =>
        color ((settable_iff consistent.shape).1 settable).2))
      exact ⟨b', false, stopped, iff_of_false Bool.false_ne_true fun all => color (all.1 m List.mem_cons_self),
        fun absent => absurd absent Bool.false_ne_true⟩

/-- The placements are accepted exactly when they are at different points of the board, have colours that can be set
and leave no dead group, in whatever order they come; and then the overlay is what is left. -/
theorem setStonesFailIfNoLibs_exact (b : Board) (placements : List Move) (consistent : b.Consistent) :
    ∃ b' ok, b.setStonesFailIfNoLibs placements = some (b', ok) ∧ (ok = true ↔ b.Fits placements) ∧
      (ok = true → b'.colors = overlaid b.colors placements ∧
        ∀ placements', placements'.Perm placements →
          ∃ b'', b.setStonesFailIfNoLibs placements' = some (b'', true) ∧ b''.colors = b'.colors) := by
  have runs : ∀ placements, ∃ b' ok, b.setStonesFailIfNoLibs placements = some (b', ok) ∧ (ok = true ↔ b.Fits placements) ∧
      (ok = true → b'.colors = overlaid b.colors placements) := by
    intro placements
    unfold setStonesFailIfNoLibs
    by_cases distinct : (placements.map Move.loc).Nodup
    · rw [if_neg (not_not.2 distinct)]
      by_cases points : ∀ m ∈ placements, m.loc ∈ b.locs
      · obtain ⟨b₁, first, consistent₁, xSize₁, ySize₁, colors₁⟩ := setEach_empty consistent points
        obtain ⟨b', ok, second, success, colors'⟩ := setEach_stones consistent₁ distinct
          (fun m member => by
            rw [locs, xSize₁, ySize₁]
            exact points m member)
          fun m member => by rw [colors₁, if_pos (List.mem_map_of_mem member)]
        have same : overlaid b₁.colors placements = overlaid b.colors placements :=
          overlaid_congr (fun q outside => by rw [colors₁, if_neg outside]) distinct
        rw [same, xSize₁] at success
        rw [same] at colors'
        rw [first]
        refine ⟨b', ok, second, success.trans ⟨fun all => ⟨distinct, points, all.1, all.2⟩, fun fits => ?_⟩, colors'⟩
        exact ⟨fits.colours, fits.alive⟩
      · push Not at points
        obtain ⟨m, member, off⟩ := points
        obtain ⟨b', first⟩ := setEach_off consistent member off
        rw [first]
        exact ⟨b', false, rfl, iff_of_false Bool.false_ne_true fun fits => off (fits.points m member),
          fun absent => absurd absent Bool.false_ne_true⟩
    · rw [if_pos distinct]
      exact ⟨b, false, rfl, iff_of_false Bool.false_ne_true fun fits => distinct fits.distinct, fun absent => absurd absent Bool.false_ne_true⟩
  obtain ⟨b', ok, run, success, colors'⟩ := runs placements
  refine ⟨b', ok, run, success, fun accepted => ⟨colors' accepted, fun placements' perm => ?_⟩⟩
  have fits := success.1 accepted
  obtain ⟨b'', ok'', run'', success'', colors''⟩ := runs placements'
  have accepted'' := success''.2 (fits.perm perm)
  refine ⟨b'', accepted'' ▸ run'', ?_⟩
  rw [colors'' accepted'', colors' accepted, overlaid_perm fits.distinct perm]

omit [Zobrist] in
/-- A white stone with a liberty of its own fits beside the three black ones. -/
theorem setStonesFailIfNoLibs_exact_three :
    letI := Zobrist.blank
    ∃ b b', threeStones = some b ∧ b.Fits [⟨Location.getLoc 2 0 3, .white⟩] ∧
      b.setStonesFailIfNoLibs [⟨Location.getLoc 2 0 3, .white⟩] = some (b', true) ∧
      b'.colors = overlaid b.colors [⟨Location.getLoc 2 0 3, .white⟩] := by
  let _ := Zobrist.blank
  obtain ⟨b, made, consistent⟩ := threeStones_consistent
  obtain ⟨b', ok, run, success, result⟩ :=
    setStonesFailIfNoLibs_exact b [⟨Location.getLoc 2 0 3, .white⟩] consistent
  have accepts : (threeStones.bind fun b => b.setStonesFailIfNoLibs [⟨Location.getLoc 2 0 3, .white⟩]).map Prod.snd = some true := by
    decide +kernel
  rw [made, Option.bind_some, run] at accepts
  obtain rfl : ok = true := Option.some.inj accepts
  exact ⟨b, b', made, success.1 rfl, run, (result rfl).1⟩

end FailIfNoLibs

end Board
end KataGo.Game
