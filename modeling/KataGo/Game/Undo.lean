import KataGo.Game.Fill
import KataGo.Game.Mend

/-! `undo`, on any regular board that shows the position after the recorded move. It first
puts back what the move took, by flood fill; then it takes the stone away and mends the
chain it belonged to. -/

namespace KataGo.Game
open KataGo.Lib CircularList Labelling

variable [Zobrist]

namespace Board

variable {B b b' : Board} {p q e loc a : Loc} {pla : Player}

section Refill

/-- Putting captured chains back, after the directions `seen`. `B` is the board before the
move and `b'` the board that is being undone. -/
structure RefillInv (B b' : Board) (loc : Loc) (pla : Player) (seen : List Loc) (b : Board) : Prop where
  regular : b.Regular
  xSize : b.xSize = B.xSize
  ySize : b.ySize = B.ySize
  koLoc : b.koLoc = b'.koLoc
  back : ∀ q, DeadBy B.xSize (Function.update B.colors loc pla) (getOpp pla) seen q → b.colors q = getOpp pla
  gone : ∀ q, DeadBy B.xSize (Function.update B.colors loc pla) (getOpp pla) (B.adj loc) q →
    ¬ DeadBy B.xSize (Function.update B.colors loc pla) (getOpp pla) seen q → b.colors q = .empty
  kept : ∀ q, ¬ DeadBy B.xSize (Function.update B.colors loc pla) (getOpp pla) (B.adj loc) q →
    b.colors q = Function.update B.colors loc pla q
  captures : ∀ k, k.IsStone → b.captures k = b'.captures k - if k = getOpp pla then
    ({q | DeadBy B.xSize (Function.update B.colors loc pla) (getOpp pla) seen q}.ncard : Int) else 0

/-- The region around a captured stone is the chain that was captured there. -/
theorem RefillInv.region {seen : List Loc} (inv : RefillInv B b' loc pla seen b) (player : pla.IsStone)
    (dead : DeadBy B.xSize (Function.update B.colors loc pla) (getOpp pla) (B.adj loc) a)
    (fresh : ¬ DeadBy B.xSize (Function.update B.colors loc pla) (getOpp pla) seen a) :
    (∀ q, q ∈ b.component a ↔ Chain (grid B.xSize) (Function.update B.colors loc pla) a q) ∧
      ∀ q, q ∈ b.component a → ∀ x ∈ b.adj q, b.colors x ≠ getOpp pla := by
  have solid : Function.update B.colors loc pla a ≠ .empty := by
    rw [dead.1]
    exact player.opp.ne_empty
  have blanked : ∀ q, Chain (grid B.xSize) (Function.update B.colors loc pla) a q → b.colors q = .empty :=
    fun q path => inv.gone q (dead.of_chain path) fun found => fresh (found.of_chain path.symm)
  obtain ⟨same, border⟩ := blanked_region solid dead.2.1 blanked
    (fun x _ other => inv.kept x fun found => other (found.1.trans dead.1.symm))
  have members : ∀ q, q ∈ b.component a ↔ Chain (grid B.xSize) (Function.update B.colors loc pla) a q := by
    intro q
    rw [component, inv.xSize]
    exact same q
  refine ⟨members, fun q inside x adjacent => ?_⟩
  rw [← dead.1]
  rw [adj, inv.xSize] at adjacent
  exact border q ((members q).1 inside) x adjacent

theorem RefillInv.skip {seen : List Loc} (inv : RefillInv B b' loc pla seen b)
    (known : ∀ q, DeadBy B.xSize (Function.update B.colors loc pla) (getOpp pla) (seen ++ [a]) q ↔
      DeadBy B.xSize (Function.update B.colors loc pla) (getOpp pla) seen q) :
    RefillInv B b' loc pla (seen ++ [a]) b := by
  refine ⟨inv.regular, inv.xSize, inv.ySize, inv.koLoc, fun q dead => inv.back q ((known q).1 dead),
    fun q dead fresh => inv.gone q dead fun found => fresh ((known q).2 found), inv.kept, fun k stone => ?_⟩
  simp only [known]
  exact inv.captures k stone

theorem RefillInv.fill {seen : List Loc} (inv : RefillInv B b' loc pla seen b) (player : pla.IsStone)
    (dead : DeadBy B.xSize (Function.update B.colors loc pla) (getOpp pla) (B.adj loc) a)
    (fresh : ¬ DeadBy B.xSize (Function.update B.colors loc pla) (getOpp pla) seen a) :
    ∃ b₁, b.addChain a (getOpp pla) = some b₁ ∧
      RefillInv B b' loc pla (seen ++ [a]) (b₁.addCaptures (getOpp pla) (-b₁.getChainSize a)) := by
  obtain ⟨members, border⟩ := inv.region player dead fresh
  obtain ⟨b₁, run, regular, refilled⟩ := addChain_spec inv.regular player.opp (inv.gone a dead fresh) border
  have same := sameChains_addCaptures b₁ (getOpp pla) (-b₁.getChainSize a)
  have koLoc : (b₁.addCaptures (getOpp pla) (-b₁.getChainSize a)).koLoc = b₁.koLoc := by
    unfold addCaptures
    split_ifs <;> rfl
  have snoc : ∀ q, DeadBy B.xSize (Function.update B.colors loc pla) (getOpp pla) (seen ++ [a]) q ↔
      DeadBy B.xSize (Function.update B.colors loc pla) (getOpp pla) seen q ∨ q ∈ b.component a := by
    intro q
    rw [deadBy_snoc, members q]
    refine or_congr_right ⟨fun found => found.2.2.symm, fun path => ?_⟩
    have found := dead.of_chain path
    exact ⟨found.1, found.2.1, path.symm⟩
  refine ⟨b₁, run, same.regular regular, same.xSize.trans (refilled.xSize.trans inv.xSize),
    same.ySize.trans (refilled.ySize.trans inv.ySize), koLoc.trans (refilled.koLoc.trans inv.koLoc), ?_, ?_, ?_, ?_⟩
  · intro q found
    rw [same.colors]
    by_cases inside : q ∈ b.component a
    · exact refilled.filled q inside
    · rw [refilled.kept q inside]
      exact inv.back q (((snoc q).1 found).resolve_right inside)
  · intro q found unseen
    have outside : q ∉ b.component a := fun inside => unseen ((snoc q).2 (Or.inr inside))
    rw [same.colors, refilled.kept q outside]
    exact inv.gone q found fun old => unseen ((snoc q).2 (Or.inl old))
  · intro q alive
    have outside : q ∉ b.component a := fun inside => alive (dead.of_chain ((members q).1 inside))
    rw [same.colors, refilled.kept q outside]
    exact inv.kept q alive
  · intro k stone
    have before : b₁.captures k = b.captures k := by
      simp only [Board.captures, refilled.numBlackCaptures, refilled.numWhiteCaptures]
    rw [captures_addCaptures stone player.opp, before, inv.captures k stone, refilled.size]
    split_ifs with opposite
    · have union : {q | DeadBy B.xSize (Function.update B.colors loc pla) (getOpp pla) (seen ++ [a]) q} =
          {q | DeadBy B.xSize (Function.update B.colors loc pla) (getOpp pla) seen q} ∪ b.component a := by
        ext q
        exact snoc q
      have disjoint : Disjoint {q | DeadBy B.xSize (Function.update B.colors loc pla) (getOpp pla) seen q}
          (b.component a) := by
        rw [Set.disjoint_left]
        intro q found inside
        exact fresh (DeadBy.of_chain found ((members q).1 inside).symm)
      have finite : ∀ S : Set Loc, (∀ q ∈ S, b.colors q ≠ .wall) → S.Finite := fun S points =>
        Set.Finite.subset (Finset.finite_toSet b.locs.toFinset) fun q inside =>
          Finset.mem_coe.2 (List.mem_toFinset.2 (inv.regular.shape.mem_locs (points q inside)))
      rw [union, Set.ncard_union_eq disjoint (finite _ fun q found => ?_) (finite _ fun q inside => ?_)]
      · push_cast
        ring
      · rw [inv.back q found]
        exact player.opp.ne_wall
      · rw [Chain.label inside, inv.gone a dead fresh]
        decide
    · ring

theorem refillInv_start (regular : b.Regular) (alive : B.AllAlive) (blank : B.colors loc = .empty)
    (player : pla.IsStone) (xSize : b.xSize = B.xSize) (ySize : b.ySize = B.ySize)
    (colors : b.colors = removeDead (grid B.xSize) .empty (getOpp pla) (Function.update B.colors loc pla)) :
    RefillInv B b loc pla [] b := by
  have nobody : ∀ q, ¬ DeadBy B.xSize (Function.update B.colors loc pla) (getOpp pla) [] q := by
    rintro q ⟨-, -, x, member, -⟩
    simp at member
  refine ⟨regular, xSize, ySize, rfl, fun q found => absurd found (nobody q), ?_, ?_, ?_⟩
  · intro q dead _
    obtain ⟨label, trapped⟩ := (deadBy_adj alive blank player).1 dead
    rw [colors, removeDead_of_dead label trapped]
  · intro q other
    rw [colors, removeDead_of_alive]
    intro label
    by_contra trapped
    exact other ((deadBy_adj alive blank player).2 ⟨label, trapped⟩)
  · intro k _
    simp [nobody]

variable (ko : Loc)

/-- The record that `playMoveRecorded` makes. -/
def recordOf (B : Board) (loc : Loc) (pla : Player) (ko : Loc) : MoveRecord :=
  ⟨pla, loc, ko, B.captureDirs loc pla⟩

theorem RefillInv.step {seen : List Loc} {x : Loc × Nat} (inv : RefillInv B b' loc pla seen b)
    (consistent : B.Consistent) (blank : B.colors loc = .empty) (player : pla.IsStone)
    (member : x ∈ (B.adj loc).zipIdx) :
    ∃ b₁, undoCaptured (B.recordOf loc pla ko) b x = some b₁ ∧ RefillInv B b' loc pla (seen ++ [x.1]) b₁ := by
  have near : x.1 ∈ B.adj loc := List.fst_mem_of_mem_zipIdx member
  have opponent : (if pla = .black then Color.white else .black) = getOpp pla := by
    rcases player with rfl | rfl <;> rfl
  have apart : x.1 ≠ loc := ne_of_mem_adj near
  have bit : (B.captureDirs loc pla).getLsbD x.2 = true ↔
      DeadBy B.xSize (Function.update B.colors loc pla) (getOpp pla) (B.adj loc) x.1 := by
    rw [(captureDirs_spec B loc pla).1 x member, decide_eq_true_eq,
      deadBy_adj consistent.allAlive blank player, Function.update_of_ne apart]
    exact and_congr_right fun opposite => captures_iff consistent.regular blank player near opposite
  unfold undoCaptured recordOf
  by_cases fill : (B.captureDirs loc pla).getLsbD x.2 = true ∧ b.colors x.1 = .empty
  · have dead := bit.1 fill.1
    have fresh : ¬ DeadBy B.xSize (Function.update B.colors loc pla) (getOpp pla) seen x.1 := by
      intro found
      exact player.opp.ne_empty ((inv.back x.1 found).symm.trans fill.2)
    obtain ⟨b₁, run, next⟩ := inv.fill player dead fresh
    refine ⟨_, ?_, next⟩
    rw [if_pos fill]
    simp only [run, opponent, Option.bind_eq_bind, Option.bind_some, Option.pure_def]
  · refine ⟨b, if_neg fill, inv.skip fun q => ?_⟩
    rw [deadBy_snoc]
    refine ⟨fun found => found.elim id fun ⟨label, trapped, path⟩ => ?_, Or.inl⟩
    -- The stones connected to this neighbour are dead with it, so they are back already.
    have dead := (bit.2 ((deadBy_adj consistent.allAlive blank player).2 ⟨path.label.trans label,
      fun ⟨e, free⟩ => trapped ⟨e, free.of_chain path⟩⟩))
    have dead' := bit.1 dead
    by_contra fresh
    exact fill ⟨dead, inv.gone x.1 dead' fun found => fresh (found.of_chain path.symm)⟩

theorem RefillInv.loop (consistent : B.Consistent) (blank : B.colors loc = .empty) (player : pla.IsStone)
    (rest : List (Loc × Nat)) (sub : ∀ x ∈ rest, x ∈ (B.adj loc).zipIdx) {seen : List Loc}
    (inv : RefillInv B b' loc pla seen b) :
    ∃ b₁, rest.foldlM (undoCaptured (B.recordOf loc pla ko)) b = some b₁ ∧
      RefillInv B b' loc pla (seen ++ rest.map Prod.fst) b₁ := by
  induction rest generalizing b seen with
  | nil => exact ⟨b, rfl, by simpa using inv⟩
  | cons x rest ih =>
    obtain ⟨b₁, first, next⟩ := inv.step ko consistent blank player (sub x (by simp))
    obtain ⟨b₂, tail, final⟩ := ih (fun y member => sub y (by simp [member])) next
    refine ⟨b₂, ?_, by simpa using final⟩
    rw [List.foldlM_cons, first]
    exact tail

/-- Without a capture bit nothing is put back. -/
theorem undoCaptured_none {record : MoveRecord} (rest : List (Loc × Nat))
    (none : ∀ x ∈ rest, record.capDirs.getLsbD x.2 = false) :
    rest.foldlM (undoCaptured record) b = some b := by
  induction rest with
  | nil => rfl
  | cons x rest ih =>
    have off : undoCaptured record b x = some b := if_neg (by simp [none x (by simp)])
    rw [List.foldlM_cons, off]
    exact ih fun y member => none y (by simp [member])

/-- `b₂` is the board under undo with all stones back, the new one included. -/
structure Restored (B b' b₂ : Board) (loc : Loc) (pla : Player) : Prop where
  regular : b₂.Regular
  xSize : b₂.xSize = B.xSize
  ySize : b₂.ySize = B.ySize
  koLoc : b₂.koLoc = b'.koLoc
  colors : b₂.colors = Function.update B.colors loc pla
  captures : ∀ k, k.IsStone → b₂.captures k =
    b'.captures k - (taken (Function.update B.colors loc pla) b'.colors k).ncard

/-- A move that leaves its stone a liberty: the loop puts everything back. -/
theorem refill_captured (consistent : B.Consistent) (blank : B.colors loc = .empty) (player : pla.IsStone)
    (regular : b'.Regular) (xSize : b'.xSize = B.xSize) (ySize : b'.ySize = B.ySize)
    (colors : b'.colors = removeDead (grid B.xSize) .empty (getOpp pla) (Function.update B.colors loc pla)) :
    ∃ b₁, (B.adj loc).zipIdx.foldlM (undoCaptured (B.recordOf loc pla ko)) b' = some b₁ ∧
      Restored B b' b₁ loc pla := by
  have alive := consistent.allAlive
  obtain ⟨b₁, run, inv⟩ := (refillInv_start regular alive blank player xSize ySize colors).loop ko consistent
    blank player (B.adj loc).zipIdx (fun x member => member)
  have all : ([] : List Loc) ++ (B.adj loc).zipIdx.map Prod.fst = B.adj loc := by
    rw [List.nil_append, List.zipIdx_map_fst]
  rw [all] at inv
  have colours : b₁.colors = Function.update B.colors loc pla := by
    funext q
    by_cases dead : DeadBy B.xSize (Function.update B.colors loc pla) (getOpp pla) (B.adj loc) q
    · rw [inv.back q dead, dead.1]
    · exact inv.kept q dead
  refine ⟨b₁, run, inv.regular, inv.xSize, inv.ySize, inv.koLoc, colours, fun k stone => ?_⟩
  rw [inv.captures k stone]
  rcases player.eq_or_eq_opp stone with rfl | rfl
  · rw [if_neg player.opp_ne.symm, colors, taken_removeDead_eq_empty player, Set.ncard_empty]
    rfl
  · rw [if_pos rfl]
    congr 3
    ext q
    simp only [Set.mem_ofPred_eq, deadBy_adj alive blank player]
    refine and_congr_right fun label => ?_
    rw [colors]
    refine ⟨fun trapped => removeDead_of_dead label trapped, fun gone free => ?_⟩
    rw [removeDead_of_alive fun _ => free, label] at gone
    exact player.opp.ne_empty gone

/-- A suicide: nothing else was taken, and the fill puts the mover's chain back. -/
theorem refill_suicide (player : pla.IsStone) (regular : b'.Regular) (xSize : b'.xSize = B.xSize)
    (ySize : b'.ySize = B.ySize)
    (dead : ¬ ∃ e, Liberty (grid B.xSize) .empty (Function.update B.colors loc pla) loc e)
    (blanked : ∀ q, Chain (grid B.xSize) (Function.update B.colors loc pla) loc q → b'.colors q = .empty)
    (kept : ∀ q, ¬ Chain (grid B.xSize) (Function.update B.colors loc pla) loc q →
      b'.colors q = Function.update B.colors loc pla q) :
    ∃ b₁, b'.addChain loc pla = some b₁ ∧ Restored B b' (b₁.addCaptures pla (-b₁.getChainSize loc)) loc pla := by
  have placed : Function.update B.colors loc pla loc = pla := Function.update_self ..
  have solid : Function.update B.colors loc pla loc ≠ .empty := by
    rw [placed]
    exact player.ne_empty
  obtain ⟨same, border⟩ := blanked_region solid dead blanked
    (fun x _ other => kept x fun path => other path.label)
  have members : ∀ q, q ∈ b'.component loc ↔ Chain (grid B.xSize) (Function.update B.colors loc pla) loc q := by
    intro q
    rw [component, xSize]
    exact same q
  obtain ⟨b₁, run, regular₁, refilled⟩ := addChain_spec regular player (blanked loc (Chain.refl loc))
    (fun q inside x adjacent => by
      rw [adj, xSize] at adjacent
      have other := border q ((members q).1 inside) x adjacent
      rwa [placed] at other)
  have frame := sameChains_addCaptures b₁ pla (-b₁.getChainSize loc)
  have koLoc : (b₁.addCaptures pla (-b₁.getChainSize loc)).koLoc = b₁.koLoc := by
    unfold addCaptures
    split_ifs <;> rfl
  refine ⟨b₁, run, frame.regular regular₁, frame.xSize.trans (refilled.xSize.trans xSize),
    frame.ySize.trans (refilled.ySize.trans ySize), koLoc.trans refilled.koLoc, ?_, ?_⟩
  · funext q
    rw [frame.colors]
    by_cases inside : q ∈ b'.component loc
    · rw [refilled.filled q inside, ((members q).1 inside).label, placed]
    · rw [refilled.kept q inside, kept q fun path => inside ((members q).2 path)]
  · intro k stone
    have before : b₁.captures k = b'.captures k := by
      simp only [Board.captures, refilled.numBlackCaptures, refilled.numWhiteCaptures]
    have takenIff : ∀ q, q ∈ taken (Function.update B.colors loc pla) b'.colors k ↔
        k = pla ∧ q ∈ b'.component loc := by
      intro q
      rw [members q]
      constructor
      · rintro ⟨label, gone⟩
        by_cases path : Chain (grid B.xSize) (Function.update B.colors loc pla) loc q
        · exact ⟨label.symm.trans (path.label.trans placed), path⟩
        · rw [kept q path, label] at gone
          exact absurd gone stone.ne_empty
      · rintro ⟨rfl, path⟩
        exact ⟨path.label.trans placed, blanked q path⟩
    rw [captures_addCaptures stone player, before, refilled.size]
    split_ifs with mine
    · have whole : taken (Function.update B.colors loc pla) b'.colors k = b'.component loc := by
        ext q
        rw [takenIff q, and_iff_right mine]
      rw [whole, sub_eq_add_neg]
    · have none : taken (Function.update B.colors loc pla) b'.colors k = ∅ := by
        ext q
        rw [takenIff q]
        exact iff_of_false (fun found => mine found.1) (Set.notMem_empty q)
      rw [none, Set.ncard_empty]
      rfl

theorem refill_spec (consistent : B.Consistent) (blank : B.colors loc = .empty) (player : pla.IsStone)
    (regular : b'.Regular) (xSize : b'.xSize = B.xSize) (ySize : b'.ySize = B.ySize)
    (colors : b'.colors = play (grid B.xSize) .empty pla (getOpp pla) B.colors loc) :
    ∃ b₁ b₂, (B.adj loc).zipIdx.foldlM (undoCaptured (B.recordOf loc pla ko)) b' = some b₁ ∧
      undoSuicide (B.recordOf loc pla ko) b₁ = some b₂ ∧ Restored B b' b₂ loc pla := by
  have suicideBit := (captureDirs_spec B loc pla).2
  rw [isSuicide_iff consistent.regular blank player] at suicideBit
  have itself : (if pla = .black then Color.black else .white) = pla := by
    rcases player with rfl | rfl <;> rfl
  by_cases free : ∃ e, Liberty (grid B.xSize) .empty
      (removeDead (grid B.xSize) .empty (getOpp pla) (Function.update B.colors loc pla)) loc e
  · rw [play_of_alive free] at colors
    obtain ⟨b₁, run, restored⟩ := refill_captured ko consistent blank player regular xSize ySize colors
    refine ⟨b₁, b₁, run, if_neg fun bit => ?_, restored⟩
    obtain ⟨-, none, trapped⟩ := suicideBit.1 bit
    rw [removeDead_eq_self consistent blank player none] at free
    exact trapped free
  · -- A captured neighbour would be a liberty of the new stone.
    have noCapture : ∀ a ∈ B.adj loc, B.colors a = getOpp pla → B.getNumLiberties a ≠ 1 := by
      intro a near opposite last
      have dead := (captures_iff consistent.regular blank player near opposite).1 last
      refine free ⟨a, removeDead_of_dead ?_ dead, loc, Chain.refl loc, near⟩
      rw [Function.update_of_ne (ne_of_mem_adj near), opposite]
    have nothing := removeDead_eq_self consistent blank player noCapture
    have colours : ∀ q, b'.colors q = _ := fun q => (congrFun colors q).trans (play_of_dead free)
    rw [nothing] at free colours
    have bit : B.captureDirs loc pla = 0x10#8 := suicideBit.2 ⟨noCapture, noCapture, free⟩
    obtain ⟨b₁, run, restored⟩ := refill_suicide player regular xSize ySize free
      (fun q path => by rw [colours q, if_pos path]) (fun q path => by rw [colours q, if_neg path])
    refine ⟨b', _, undoCaptured_none _ fun x member => ?_, ?_, restored⟩
    · change (B.captureDirs loc pla).getLsbD x.2 = false
      rw [(captureDirs_spec B loc pla).1 x member, decide_eq_false_iff_not]
      exact fun found => noCapture x.1 (List.fst_mem_of_mem_zipIdx member) found.1 found.2
    · have empty : b'.colors loc = .empty := by rw [colours loc, if_pos (Chain.refl loc)]
      unfold undoSuicide recordOf
      simp only [bit, if_true, empty, guard_true, Option.pure_def, Option.bind_eq_bind, Option.bind_some, run,
        itself]

end Refill

variable (ko : Loc)

/-- Undoing a recorded move, on any regular board that shows the position after it. -/
theorem undo_spec (consistent : B.Consistent) (blank : B.colors loc = .empty) (player : pla.IsStone)
    (regular : b'.Regular) (xSize : b'.xSize = B.xSize) (ySize : b'.ySize = B.ySize)
    (colors : b'.colors = play (grid B.xSize) .empty pla (getOpp pla) B.colors loc) :
    ∃ b'', b'.undo (B.recordOf loc pla ko) = some b'' ∧ b''.Consistent ∧ b''.xSize = B.xSize ∧
      b''.ySize = B.ySize ∧ b''.colors = B.colors ∧ b''.koLoc = ko ∧
      ∀ k, k.IsStone → b''.captures k =
        b'.captures k - (taken (Function.update B.colors loc pla) b'.colors k).ncard := by
  have notPass : loc ≠ passLoc := consistent.shape.ne_pass (by rw [blank]; decide)
  obtain ⟨b₀, b₀Eq⟩ : ∃ b₀ : Board, b₀ = { b' with koLoc := ko } := ⟨_, rfl⟩
  have same : SameChains b' b₀ := by
    rw [b₀Eq]
    exact sameChains_withKo b' ko
  obtain ⟨b₁, b₂, fill, suicide, restored⟩ := refill_spec ko consistent blank player (same.regular regular)
    (same.xSize.trans xSize) (same.ySize.trans ySize) (same.colors.trans colors)
  have placed : b₂.colors loc = pla := by rw [restored.colors, Function.update_self]
  obtain ⟨b'', mend, regular'', sizeX, sizeY, koLoc, black, white, colours⟩ :=
    mend_spec restored.regular player placed
  have back : b''.colors = B.colors := by
    rw [colours, restored.colors, Function.update_idem, ← blank, Function.update_eq_self]
  refine ⟨b'', ?_, regular''.consistent ?_, sizeX.trans restored.xSize, sizeY.trans restored.ySize, back, ?_, ?_⟩
  · have start : b'.undo (B.recordOf loc pla ko) = (do
        let b ← (b₀.adj loc).zipIdx.foldlM (undoCaptured (B.recordOf loc pla ko)) b₀
        let b ← undoSuicide (B.recordOf loc pla ko) b
        let b := removeStone (getOpp pla) b loc
        if b.getChainSize loc > 1 then
          if ((b.adj loc).countP fun a => b.colors a = pla) ≤ 1 then b.undoDetach loc
          else b.undoRebuild loc pla
        else some b) := by
      rw [undo, b₀Eq]
      exact if_neg notPass
    have adjacent : b₀.adj loc = B.adj loc := by rw [adj, adj, same.xSize, xSize]
    rw [start, adjacent, fill]
    simp only [Option.bind_eq_bind, Option.bind_some, suicide]
    exact mend
  · intro p stone
    rw [back] at stone
    rw [liberties, sizeX, restored.xSize, back]
    exact consistent.allAlive p stone
  · rw [koLoc, restored.koLoc, b₀Eq]
  · intro k stone
    have before : b₀.captures k = b'.captures k := by rw [b₀Eq]; rfl
    have after : b''.captures k = b₂.captures k := by simp only [Board.captures, black, white]
    rw [after, restored.captures k stone, before, same.colors]

section Nesting

/-- Everything a caller can see of a board besides its chains. -/
structure SameView (B b : Board) : Prop where
  xSize : b.xSize = B.xSize
  ySize : b.ySize = B.ySize
  colors : b.colors = B.colors
  koLoc : b.koLoc = B.koLoc
  posHash : b.posHash = B.posHash
  numBlackCaptures : b.numBlackCaptures = B.numBlackCaptures
  numWhiteCaptures : b.numWhiteCaptures = B.numWhiteCaptures

omit [Zobrist] in
theorem SameView.refl (b : Board) : SameView b b := ⟨rfl, rfl, rfl, rfl, rfl, rfl, rfl⟩

omit [Zobrist] in
theorem SameView.trans {b₁ b₂ b₃ : Board} (first : SameView b₁ b₂) (second : SameView b₂ b₃) : SameView b₁ b₃ :=
  ⟨second.xSize.trans first.xSize, second.ySize.trans first.ySize, second.colors.trans first.colors,
    second.koLoc.trans first.koLoc, second.posHash.trans first.posHash,
    second.numBlackCaptures.trans first.numBlackCaptures, second.numWhiteCaptures.trans first.numWhiteCaptures⟩

/-- A pass, or an empty point where `pla` does not commit suicide under one of the two rules. -/
def Playable (b : Board) (loc : Loc) (pla : Player) : Prop :=
  loc = passLoc ∨ b.colors loc = .empty ∧ ∃ isMultiStoneSuicideLegal,
    b.isIllegalSuicide loc pla isMultiStoneSuicideLegal = false

/-- Recorded moves and their undos, properly nested. -/
inductive Nested : Board → Board → Prop where
  | done (b : Board) : Nested b b
  | bracket {b b₁ b₂ b₃ b₄ : Board} {loc : Loc} {pla : Player} {record : MoveRecord} (player : pla.IsStone)
      (playable : b.Playable loc pla) (play : b.playMoveRecorded loc pla = some (b₁, record))
      (inner : Nested b₁ b₂) (undo : b₂.undo record = some b₃) (rest : Nested b₃ b₄) : Nested b b₄

/-- One recorded move, and its undo from any board with the view it left. -/
theorem undo_view (consistent : B.Consistent) (player : pla.IsStone) (playable : B.Playable loc pla) :
    ∃ b₁ record, B.playMoveRecorded loc pla = some (b₁, record) ∧ b₁.Consistent ∧
      ∀ b₂ : Board, b₂.Consistent → SameView b₁ b₂ →
        ∃ b₃, b₂.undo record = some b₃ ∧ b₃.Consistent ∧ SameView B b₃ := by
  rcases playable with rfl | ⟨blank, -⟩
  · refine ⟨{ B with koLoc := nullLoc }, ⟨pla, passLoc, B.koLoc, 0#8⟩, rfl,
      (sameChains_withKo B nullLoc).consistent consistent, fun b₂ consistent₂ view => ?_⟩
    exact ⟨{ b₂ with koLoc := B.koLoc }, by rw [undo]; exact if_pos rfl, (sameChains_withKo b₂ B.koLoc).consistent consistent₂,
      ⟨view.xSize, view.ySize, view.colors, rfl, view.posHash, view.numBlackCaptures, view.numWhiteCaptures⟩⟩
  · have notPass : loc ≠ passLoc := consistent.shape.ne_pass (by rw [blank]; decide)
    obtain ⟨b₁, run, played⟩ := playMoveAssumeLegal_spec consistent blank player
    refine ⟨b₁, B.recordOf loc pla B.koLoc, ?_, played.consistent, fun b₂ consistent₂ view => ?_⟩
    · rw [playMoveRecorded, run, if_neg notPass]
      rfl
    · have sizeX := view.xSize.trans played.xSize
      have sizeY := view.ySize.trans played.ySize
      obtain ⟨b₃, undo, consistent₃, xSize, ySize, colours, koLoc, counts⟩ := undo_spec B.koLoc consistent blank
        player consistent₂.regular sizeX sizeY (view.colors.trans played.colors)
      have captures : ∀ k, k.IsStone → b₃.captures k = B.captures k := by
        intro k stone
        have before : b₂.captures k = b₁.captures k := by
          simp only [Board.captures, view.numBlackCaptures, view.numWhiteCaptures]
        rw [counts k stone, before, played.captures k stone, view.colors]
        ring
      refine ⟨b₃, undo, consistent₃, xSize, ySize, colours, koLoc, ?_, captures .black (Or.inl rfl),
        captures .white (Or.inr rfl)⟩
      rw [consistent₃.hash, consistent.hash, xSize, ySize, colours]

theorem Nested.sameView {b b' : Board} (nested : Nested b b') (consistent : b.Consistent) :
    b'.Consistent ∧ SameView b b' := by
  induction nested with
  | done b => exact ⟨consistent, SameView.refl b⟩
  | bracket player playable play _ undo _ inner rest =>
    obtain ⟨b₁, record, run, consistent₁, undoes⟩ := undo_view consistent player playable
    obtain ⟨rfl, rfl⟩ := Prod.mk.inj (Option.some.inj (run.symm.trans play))
    obtain ⟨consistent₂, view₂⟩ := inner consistent₁
    obtain ⟨b₃, back, consistent₃, view₃⟩ := undoes _ consistent₂ view₂
    obtain rfl := Option.some.inj (back.symm.trans undo)
    obtain ⟨consistent₄, view₄⟩ := rest consistent₃
    exact ⟨consistent₄, view₃.trans view₄⟩

/-- A recorded move can be undone, at once or after any properly nested moves and undos, and
what is seen of the board is then as it was; so is it after any nesting as a whole. -/
theorem playMoveRecorded_undo (B : Board) (loc : Loc) (pla : Player) (consistent : B.Consistent)
    (player : pla.IsStone) (playable : B.Playable loc pla) :
    (∃ b₁ record, B.playMoveRecorded loc pla = some (b₁, record) ∧
      ∀ b₂, Nested b₁ b₂ → ∃ b₃, b₂.undo record = some b₃ ∧ b₃.Consistent ∧ SameView B b₃) ∧
    ∀ b', Nested B b' → b'.Consistent ∧ SameView B b' := by
  refine ⟨?_, fun b' nested => nested.sameView consistent⟩
  obtain ⟨b₁, record, run, consistent₁, undoes⟩ := undo_view consistent player playable
  refine ⟨b₁, record, run, fun b₂ nested => ?_⟩
  obtain ⟨consistent₂, view⟩ := nested.sameView consistent₁
  exact undoes b₂ consistent₂ view

omit [Zobrist] in
/-- A first move, and its undo. -/
theorem playMoveRecorded_undo_opening :
    letI := Zobrist.blank
    ∃ B b₁ record b₃, init 3 3 = some B ∧
      B.playMoveRecorded (Location.getLoc 1 1 3) .black = some (b₁, record) ∧
      b₁.undo record = some b₃ ∧ b₃.Consistent ∧ SameView B b₃ := by
  let _ := Zobrist.blank
  obtain ⟨B, start, consistent⟩ := init_consistent 3 3 (by decide) (by decide)
  have playable : B.Playable (Location.getLoc 1 1 3) .black := by
    obtain rfl := Option.some.inj start
    exact Or.inr ⟨by decide, false, by decide⟩
  obtain ⟨⟨b₁, record, run, undoes⟩, -⟩ := playMoveRecorded_undo B _ .black consistent (by decide) playable
  obtain ⟨b₃, undo, result⟩ := undoes b₁ (Nested.done b₁)
  exact ⟨B, b₁, record, b₃, start, run, undo, result⟩

end Nesting

end Board
end KataGo.Game
