import KataGo.Game.Queries

/-! A move on a consistent board, read off the chains next to it: what it captures, and the liberties of the
chain that it makes. -/

namespace KataGo.Game
open KataGo.Lib CircularList Labelling

theorem Color.eq_empty_or_isStone {c : Color} (point : c ≠ .wall) : c = .empty ∨ c.IsStone := by
  cases c with
  | empty => exact Or.inl rfl
  | black => exact Or.inr (Or.inl rfl)
  | white => exact Or.inr (Or.inr rfl)
  | wall => exact absurd rfl point

namespace Board

variable {b : Board} {p q e loc a : Loc} {pla : Player}

/-- The colours with the new stone, when the opponent's dead chains are off. -/
noncomputable def afterCaptures (b : Board) (loc : Loc) (pla : Player) : Loc → Color :=
  removeDead (grid b.xSize) .empty (getOpp pla) (Function.update b.colors loc pla)

/-- `a` is a stone next to `loc` whose chain a move there captures. -/
def CapturedDir (b : Board) (loc : Loc) (pla : Player) (a : Loc) : Prop :=
  a ∈ b.adj loc ∧ b.colors a = getOpp pla ∧ b.getNumLiberties a = 1

/-- The empty points and the stones captured. -/
def BecomesEmpty (b : Board) (loc : Loc) (pla : Player) (q : Loc) : Prop :=
  q ≠ loc ∧ (b.colors q = .empty ∨ ∃ a, b.CapturedDir loc pla a ∧ q ∈ b.component a)

/-- `e` is next to the new stone or to a chain that it joins. -/
def NextToJoined (b : Board) (loc : Loc) (pla : Player) (e : Loc) : Prop :=
  e ∈ b.adj loc ∨ ∃ a ∈ b.adj loc, b.colors a = pla ∧ ∃ q ∈ b.component a, e ∈ b.adj q

theorem afterCaptures_of_not_empty (filled : b.afterCaptures loc pla q ≠ .empty) :
    b.afterCaptures loc pla q = Function.update b.colors loc pla q := by
  unfold afterCaptures removeDead at filled ⊢
  split_ifs at filled ⊢ with dead
  · exact absurd rfl filled
  · rfl

theorem afterCaptures_loc (player : pla.IsStone) : b.afterCaptures loc pla loc = pla :=
  removeDead_placed player.ne_empty.symm player.opp_ne.symm

variable [Zobrist]

section Effect

variable (consistent : b.Consistent) (blank : b.colors loc = .empty) (player : pla.IsStone)
include consistent blank player

theorem dead_iff : Function.update b.colors loc pla q = getOpp pla ∧
    (¬ ∃ e, Liberty (grid b.xSize) .empty (Function.update b.colors loc pla) q e) ↔
      ∃ a, b.CapturedDir loc pla a ∧ q ∈ b.component a := by
  rw [← deadBy_adj consistent.allAlive blank player]
  constructor
  · rintro ⟨label, trapped, a, near, path⟩
    have opposite : b.colors a = getOpp pla := by
      rw [← label, ← path.label, Function.update_of_ne (ne_of_mem_adj near)]
    have last := (captures_iff consistent.regular blank player near opposite).2 fun ⟨e, free⟩ =>
      trapped ⟨e, free.of_chain path⟩
    refine ⟨a, ⟨near, opposite, last⟩, path.symm.weaken (k := getOpp pla) (fun x same => ?_) (path.label.trans label)⟩
    rwa [Function.update_of_ne] at same
    rintro rfl
    rw [Function.update_self] at same
    exact player.opp_ne same.symm
  · rintro ⟨a, ⟨near, opposite, last⟩, path⟩
    have stays : ∀ x, b.colors x = getOpp pla → Function.update b.colors loc pla x = getOpp pla := by
      intro x same
      rw [Function.update_of_ne, same]
      rintro rfl
      exact player.opp.ne_empty (same.symm.trans blank)
    have along : Chain (grid b.xSize) (Function.update b.colors loc pla) a q := path.weaken stays opposite
    have trapped := (captures_iff consistent.regular blank player near opposite).1 last
    exact ⟨along.label.trans (stays a opposite), fun ⟨e, free⟩ => trapped ⟨e, free.of_chain along⟩, a, near, along.symm⟩

theorem afterCaptures_eq_empty_iff : b.afterCaptures loc pla q = .empty ↔ b.BecomesEmpty loc pla q := by
  unfold BecomesEmpty
  rw [← dead_iff consistent blank player]
  by_cases here : q = loc
  · subst here
    rw [afterCaptures, removeDead_placed player.ne_empty.symm player.opp_ne.symm]
    exact iff_of_false player.ne_empty fun found => found.1 rfl
  · unfold afterCaptures removeDead
    rw [Function.update_of_ne here]
    split_ifs with dead
    · exact iff_of_true rfl ⟨here, Or.inr dead⟩
    · exact ⟨fun free => ⟨here, Or.inl free⟩, fun found => found.2.resolve_right dead⟩

omit [Zobrist] consistent in
/-- Captures take none of the mover's stones. -/
theorem chain_afterCaptures_iff : Chain (grid b.xSize) (b.afterCaptures loc pla) loc q ↔
    q = loc ∨ ∃ a ∈ b.adj loc, b.colors a = pla ∧ q ∈ b.component a := by
  refine Iff.trans ⟨?_, ?_⟩ (chain_placed_iff blank player)
  · refine fun path => path.weaken (k := pla) (fun x same => ?_) (afterCaptures_loc player)
    rw [← afterCaptures_of_not_empty (by rw [same]; exact player.ne_empty), same]
  · refine fun path => path.weaken (k := pla) (fun x same => ?_) (Function.update_self ..)
    rw [afterCaptures, removeDead_of_ne (by rw [same]; exact player.opp_ne.symm), same]

theorem liberty_afterCaptures_iff : Liberty (grid b.xSize) .empty (b.afterCaptures loc pla) loc e ↔
    b.BecomesEmpty loc pla e ∧ b.NextToJoined loc pla e := by
  unfold Liberty NextToJoined
  rw [afterCaptures_eq_empty_iff consistent blank player]
  simp only [chain_afterCaptures_iff blank player]
  refine and_congr_right fun _ => ⟨?_, ?_⟩
  · rintro ⟨q, rfl | ⟨a, near, mine, inside⟩, adjacent⟩
    · exact Or.inl adjacent
    · exact Or.inr ⟨a, near, mine, q, inside, adjacent⟩
  · rintro (near | ⟨a, near, mine, q, inside, adjacent⟩)
    · exact ⟨loc, Or.inl rfl, near⟩
    · exact ⟨q, Or.inr ⟨a, near, mine, inside⟩, adjacent⟩

end Effect

section Result

variable {b' : Board}

/-- The new stone keeps a liberty, and only captures are made. -/
theorem Played.colors_of_alive (played : Played b b' loc pla)
    (alive : ∃ e, Liberty (grid b.xSize) .empty (b.afterCaptures loc pla) loc e) :
    b'.colors = b.afterCaptures loc pla := by
  rw [played.colors]
  exact play_of_alive alive

/-- The new stone is taken off again with its chain. -/
theorem Played.colors_of_dead (played : Played b b' loc pla)
    (dead : ¬ ∃ e, Liberty (grid b.xSize) .empty (b.afterCaptures loc pla) loc e)
    (inside : Chain (grid b.xSize) (b.afterCaptures loc pla) loc q) : b'.colors q = .empty := by
  rw [played.colors, play_of_dead dead]
  exact if_pos inside

theorem Played.colors_of_outside (played : Played b b' loc pla)
    (outside : ¬ Chain (grid b.xSize) (b.afterCaptures loc pla) loc q) :
    b'.colors q = b.afterCaptures loc pla q := by
  rw [played.colors]
  exact play_of_not_chain outside

theorem Played.colors_loc_iff (played : Played b b' loc pla) (player : pla.IsStone) :
    b'.colors loc = .empty ↔ ¬ ∃ e, Liberty (grid b.xSize) .empty (b.afterCaptures loc pla) loc e := by
  refine ⟨fun gone alive => ?_, fun dead => ?_⟩
  · rw [played.colors_of_alive alive, afterCaptures_loc player] at gone
    exact player.ne_empty gone
  · exact played.colors_of_dead dead (Chain.refl loc)

/-- The opponent loses the chains in the captured directions. -/
theorem Played.mem_taken_iff (played : Played b b' loc pla) (consistent : b.Consistent)
    (blank : b.colors loc = .empty) (player : pla.IsStone) :
    q ∈ taken (Function.update b.colors loc pla) b'.colors (getOpp pla) ↔
      ∃ a, b.CapturedDir loc pla a ∧ q ∈ b.component a := by
  rw [← dead_iff consistent blank player]
  refine and_congr_right fun theirs => ?_
  have before : b.afterCaptures loc pla q = .empty ↔
      ¬ ∃ e, Liberty (grid b.xSize) .empty (Function.update b.colors loc pla) q e := by
    refine ⟨fun gone alive => ?_, fun dead => removeDead_of_dead theirs dead⟩
    rw [afterCaptures, removeDead_of_alive fun _ => alive, theirs] at gone
    exact player.opp.ne_empty gone
  rw [← before]
  rw [played.colors_of_outside fun inside => ?_]
  have mine : b.afterCaptures loc pla q = pla := (Chain.label inside).trans (afterCaptures_loc player)
  rw [afterCaptures_of_not_empty (by rw [mine]; exact player.ne_empty), theirs] at mine
  exact player.opp_ne mine

end Result

end Board
end KataGo.Game
