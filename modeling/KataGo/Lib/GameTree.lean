import Mathlib.Data.Bool.Basic
import Mathlib.Data.Set.Basic

/-! Searches of a game of two players, each of whom looks for a move that decides the game. A search
that ends has found an answer; there is at most one, and games that match move by move have the same. -/

namespace KataGo.Lib

/-- `d` is the player to move. A position may be settled; of the moves those with no result are illegal. -/
structure Game (P M : Type*) where
  settled : Bool → P → Option Bool
  moves : Bool → P → Set M
  play : Bool → P → M → Option P

namespace Game

variable {P P' M : Type*} {G : Game P M} {G' : Game P' M} {d v v' : Bool} {p : P} {p' : P'}

/-- The answer `!d` is the one that `d` looks for. -/
inductive Answer (G : Game P M) : Bool → P → Bool → Prop where
  | settled {d v : Bool} {p : P} (value : G.settled d p = some v) : G.Answer d p v
  | found {d : Bool} {p q : P} {m : M} (unsettled : G.settled d p = none) (candidate : m ∈ G.moves d p)
      (played : G.play d p m = some q) (deeper : G.Answer (!d) q (!d)) : G.Answer d p (!d)
  | exhausted {d : Bool} {p : P} (unsettled : G.settled d p = none)
      (failed : ∀ m ∈ G.moves d p, ∀ q, G.play d p m = some q → G.Answer (!d) q d) : G.Answer d p d

theorem Answer.unique (first : G.Answer d p v) (second : G.Answer d p v') : v = v' := by
  induction first generalizing v' with
  | settled value =>
    cases second with
    | settled value' => exact Option.some.inj (value.symm.trans value')
    | found unsettled => exact (Option.some_ne_none _ (value.symm.trans unsettled)).elim
    | exhausted unsettled => exact (Option.some_ne_none _ (value.symm.trans unsettled)).elim
  | found unsettled candidate played deeper ih =>
    cases second with
    | settled value => exact (Option.some_ne_none _ (value.symm.trans unsettled)).elim
    | found => rfl
    | exhausted _ failed => exact ih (failed _ candidate _ played)
  | exhausted unsettled failed ih =>
    cases second with
    | settled value => exact (Option.some_ne_none _ (value.symm.trans unsettled)).elim
    | found _ candidate played deeper => exact ih _ candidate _ played deeper
    | exhausted => rfl

/-- Related positions are settled alike, have the same moves, and stay related. -/
structure Matching (G : Game P M) (G' : Game P' M) (R : Bool → P → P' → Prop) : Prop where
  settled : ∀ {d p p'}, R d p p' → G'.settled d p' = G.settled d p
  moves : ∀ {d p p'}, R d p p' → G'.moves d p' = G.moves d p
  forth : ∀ {d p p' m q}, R d p p' → G.settled d p = none → m ∈ G.moves d p → G.play d p m = some q →
    ∃ q', G'.play d p' m = some q' ∧ R (!d) q q'
  back : ∀ {d p p' m q'}, R d p p' → G.settled d p = none → m ∈ G.moves d p → G'.play d p' m = some q' →
    ∃ q, G.play d p m = some q ∧ R (!d) q q'

theorem Answer.of_matching {R : Bool → P → P' → Prop} (matching : Matching G G' R) (related : R d p p')
    (answer : G.Answer d p v) : G'.Answer d p' v := by
  induction answer generalizing p' with
  | settled value => exact .settled ((matching.settled related).trans value)
  | found unsettled candidate played deeper ih =>
    obtain ⟨q', played', related'⟩ := matching.forth related unsettled candidate played
    exact .found ((matching.settled related).trans unsettled) ((matching.moves related).symm ▸ candidate) played'
      (ih related')
  | exhausted unsettled failed ih =>
    refine .exhausted ((matching.settled related).trans unsettled) fun m candidate q' played' => ?_
    rw [matching.moves related] at candidate
    obtain ⟨q, played, related'⟩ := matching.back related unsettled candidate played'
    exact ih m candidate q played related'

end Game

end KataGo.Lib
