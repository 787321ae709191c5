import KataGo.Game.Move

/-! What the queries of a consistent board say about the position: which neighbours a move
would capture, and when it is suicide. -/

namespace KataGo.Game
open KataGo.Lib CircularList Labelling

variable [Zobrist]

namespace Board

variable {b : Board} {p q e loc a : Loc} {pla : Player}

omit [Zobrist] in
theorem mem_liberties_of_adj (blank : b.colors loc = .empty) (adjacent : a ∈ b.adj loc) : loc ∈ b.liberties a :=
  ⟨blank, a, Chain.refl a, adjs_symm adjacent⟩

omit [Zobrist] in
/-- A stone of the other colour costs a chain exactly the point it is put on. -/
theorem liberty_placed_iff (blank : b.colors loc = .empty) (player : pla.IsStone)
    (opposite : b.colors q = getOpp pla) :
    Liberty (grid b.xSize) .empty (Function.update b.colors loc pla) q e ↔ e ≠ loc ∧ e ∈ b.liberties q := by
  have stone : (b.colors q).IsStone := by rw [opposite]; exact player.opp
  constructor
  · rintro ⟨free, x, path, adjacent⟩
    have apart : e ≠ loc := by
      rintro rfl
      rw [Function.update_self] at free
      exact player.ne_empty free
    rw [Function.update_of_ne apart] at free
    have here : q ≠ loc := by
      rintro rfl
      exact stone.ne_empty blank
    refine ⟨apart, free, x, path.weaken (k := getOpp pla) (fun y label => ?_) ?_, adjacent⟩
    · rwa [Function.update_of_ne] at label
      rintro rfl
      rw [Function.update_self] at label
      exact player.opp_ne label.symm
    · rw [Function.update_of_ne here, opposite]
  · rintro ⟨apart, free⟩
    exact liberty_of_ne blank stone apart free

theorem one_lt_numLiberties_iff (regular : b.Regular) (blank : b.colors loc = .empty) (adjacent : a ∈ b.adj loc)
    (stone : (b.colors a).IsStone) : b.getNumLiberties a > 1 ↔ ∃ e, e ≠ loc ∧ e ∈ b.liberties a := by
  have here := mem_liberties_of_adj blank adjacent
  rw [regular.getNumLiberties stone, gt_iff_lt, Nat.one_lt_cast,
    Set.one_lt_ncard_iff (regular.liberties_finite stone)]
  constructor
  · rintro ⟨x, y, freeX, freeY, apart⟩
    by_cases same : x = loc
    · exact ⟨y, fun equal => apart (same.trans equal.symm), freeY⟩
    · exact ⟨x, same, freeX⟩
  · rintro ⟨e, apart, free⟩
    exact ⟨e, loc, free, here, apart⟩

theorem numLiberties_eq_one_iff (regular : b.Regular) (blank : b.colors loc = .empty) (adjacent : a ∈ b.adj loc)
    (stone : (b.colors a).IsStone) : b.getNumLiberties a = 1 ↔ ¬ ∃ e, e ≠ loc ∧ e ∈ b.liberties a := by
  rw [← one_lt_numLiberties_iff regular blank adjacent stone]
  have positive := (regular.numLiberties_pos_iff stone).2 ⟨loc, mem_liberties_of_adj blank adjacent⟩
  change 1 ≤ b.getNumLiberties a at positive
  omega

/-- The test for a capture: the neighbour's last liberty is `loc`. -/
theorem captures_iff (regular : b.Regular) (blank : b.colors loc = .empty) (player : pla.IsStone)
    (adjacent : a ∈ b.adj loc) (opposite : b.colors a = getOpp pla) :
    b.getNumLiberties a = 1 ↔
      ¬ ∃ e, Liberty (grid b.xSize) .empty (Function.update b.colors loc pla) a e := by
  rw [numLiberties_eq_one_iff regular blank adjacent (by rw [opposite]; exact player.opp)]
  simp only [liberty_placed_iff blank player opposite]

omit [Zobrist] in
/-- The chain of a new stone is made of the chains next to it. -/
theorem chain_placed_iff (blank : b.colors loc = .empty) (player : pla.IsStone) :
    Chain (grid b.xSize) (Function.update b.colors loc pla) loc q ↔
      q = loc ∨ ∃ a ∈ b.adj loc, b.colors a = pla ∧ Chain (grid b.xSize) b.colors a q := by
  have other : ∀ x, b.colors x = pla → x ≠ loc := by
    rintro x mine rfl
    exact player.ne_empty (mine.symm.trans blank)
  constructor
  · refine Chain.mem_of_closed (S := fun q => q = loc ∨ ∃ a ∈ b.adj loc, b.colors a = pla ∧
      Chain (grid b.xSize) b.colors a q) (Or.inl rfl) ?_
    intro x y found adjacent same
    by_cases here : y = loc
    · exact Or.inl here
    rw [Function.update_of_ne here] at same
    rcases found with rfl | ⟨a, near, mine, path⟩
    · rw [Function.update_self] at same
      exact Or.inr ⟨y, adjacent, same, Chain.refl y⟩
    · rw [Function.update_of_ne (other x (path.label.trans mine))] at same
      exact Or.inr ⟨a, near, mine, path.trans (Chain.single adjacent same)⟩
  · rintro (rfl | ⟨a, near, mine, path⟩)
    · exact Chain.refl q
    · have first : Chain (grid b.xSize) (Function.update b.colors loc pla) loc a := by
        refine Chain.single near ?_
        rw [Function.update_self, Function.update_of_ne (other a mine), mine]
      refine first.trans (path.weaken (k := pla) (fun x label => ?_) mine)
      rw [Function.update_of_ne (other x label), label]

omit [Zobrist] in
theorem isSuicide_iff_tests (notPass : loc ≠ passLoc) (player : pla.IsStone) :
    b.isSuicide loc pla = true ↔ ∀ a ∈ b.adj loc, b.colors a ≠ .empty ∧
      (b.colors a = pla → ¬ b.getNumLiberties a > 1) ∧ (b.colors a = getOpp pla → b.getNumLiberties a ≠ 1) := by
  rw [isSuicide, if_neg notPass, Bool.not_eq_true', List.any_eq_false]
  refine forall₂_congr fun a _ => ?_
  by_cases free : b.colors a = .empty
  · simp [free]
  by_cases mine : b.colors a = pla
  · simp [mine, player.ne_empty, player.opp_ne.symm]
  · simp [free, mine]

theorem isSuicide_iff (regular : b.Regular) (blank : b.colors loc = .empty) (player : pla.IsStone) :
    b.isSuicide loc pla = true ↔
      (∀ a ∈ b.adj loc, b.colors a = getOpp pla → b.getNumLiberties a ≠ 1) ∧
        ¬ ∃ e, Liberty (grid b.xSize) .empty (Function.update b.colors loc pla) loc e := by
  have notPass : loc ≠ passLoc := regular.shape.ne_pass (by rw [blank]; decide)
  have other : ∀ x, b.colors x = pla → x ≠ loc := by
    rintro x mine rfl
    exact player.ne_empty (mine.symm.trans blank)
  rw [isSuicide_iff_tests notPass player]
  constructor
  · intro tests
    refine ⟨fun a near => (tests a near).2.2, ?_⟩
    rintro ⟨e, free, x, path, adjacent⟩
    have apart : e ≠ loc := by
      rintro rfl
      rw [Function.update_self] at free
      exact player.ne_empty free
    rw [Function.update_of_ne apart] at free
    rcases (chain_placed_iff blank player).1 path with rfl | ⟨a, near, mine, along⟩
    · exact (tests e adjacent).1 free
    · refine (tests a near).2.1 mine ((one_lt_numLiberties_iff regular blank near (by rw [mine]; exact player)).2 ?_)
      exact ⟨e, apart, free, x, along, adjacent⟩
  · rintro ⟨noCapture, trapped⟩ a near
    refine ⟨fun free => trapped ⟨a, ?_, loc, Chain.refl loc, near⟩, fun mine many => ?_, noCapture a near⟩
    · rw [Function.update_of_ne (ne_of_mem_adj near), free]
    · obtain ⟨e, apart, free, x, path, adjacent⟩ :=
        (one_lt_numLiberties_iff regular blank near (by rw [mine]; exact player)).1 many
      refine trapped ⟨e, ?_, x, (chain_placed_iff blank player).2 (Or.inr ⟨a, near, mine, path⟩), adjacent⟩
      rw [Function.update_of_ne apart, free]

/-- If no neighbour is captured, nothing is. -/
theorem removeDead_eq_self (consistent : b.Consistent) (blank : b.colors loc = .empty) (player : pla.IsStone)
    (noCapture : ∀ a ∈ b.adj loc, b.colors a = getOpp pla → b.getNumLiberties a ≠ 1) :
    removeDead (grid b.xSize) .empty (getOpp pla) (Function.update b.colors loc pla) =
      Function.update b.colors loc pla := by
  funext q
  refine removeDead_of_alive fun label => by_contra fun dead => ?_
  obtain ⟨-, -, a, near, path⟩ := (deadBy_adj consistent.allAlive blank player).2 ⟨label, dead⟩
  have opposite : b.colors a = getOpp pla := by
    rw [← label, ← path.label, Function.update_of_ne (ne_of_mem_adj near)]
  refine noCapture a near opposite ((captures_iff consistent.regular blank player near opposite).2 ?_)
  exact fun ⟨e, free⟩ => dead ⟨e, free.of_chain path⟩

omit [Zobrist] in
theorem captureBits (t₀ t₁ t₂ t₃ suicide : Bool) :
    let dirs := [t₀, t₁, t₂, t₃].zipIdx.foldl (fun dirs (t, i) => if t then dirs ||| (1#8 <<< i) else dirs) 0#8
    let record := if dirs = 0#8 ∧ suicide then 0x10#8 else dirs
    (record.getLsbD 0 = t₀ ∧ record.getLsbD 1 = t₁ ∧ record.getLsbD 2 = t₂ ∧ record.getLsbD 3 = t₃) ∧
      (record = 0x10#8 ↔ (t₀ = false ∧ t₁ = false ∧ t₂ = false ∧ t₃ = false) ∧ suicide = true) := by
  revert t₀ t₁ t₂ t₃ suicide
  decide

omit [Zobrist] in
/-- The bits of a capture record: one for each direction, and one for suicide. -/
theorem captureDirs_spec (b : Board) (loc : Loc) (pla : Player) :
    (∀ x ∈ (b.adj loc).zipIdx, (b.captureDirs loc pla).getLsbD x.2 =
      decide (b.colors x.1 = getOpp pla ∧ b.getNumLiberties x.1 = 1)) ∧
    (b.captureDirs loc pla = 0x10#8 ↔
      (∀ a ∈ b.adj loc, b.colors a = getOpp pla → b.getNumLiberties a ≠ 1) ∧ b.isSuicide loc pla = true) := by
  obtain ⟨a₀, a₁, a₂, a₃, four⟩ : ∃ a₀ a₁ a₂ a₃, b.adj loc = [a₀, a₁, a₂, a₃] := ⟨_, _, _, _, rfl⟩
  have bits := captureBits (decide (b.colors a₀ = getOpp pla ∧ b.getNumLiberties a₀ = 1))
    (decide (b.colors a₁ = getOpp pla ∧ b.getNumLiberties a₁ = 1))
    (decide (b.colors a₂ = getOpp pla ∧ b.getNumLiberties a₂ = 1))
    (decide (b.colors a₃ = getOpp pla ∧ b.getNumLiberties a₃ = 1)) (b.isSuicide loc pla)
  rw [captureDirs, four]
  simp only [List.zipIdx_cons, List.zipIdx_nil, List.foldl_cons, List.foldl_nil, List.mem_cons, List.not_mem_nil,
    or_false, forall_eq_or_imp, forall_eq, zero_add, decide_eq_true_eq, decide_eq_false_iff_not, not_and] at bits ⊢
  exact bits

end Board
end KataGo.Game
