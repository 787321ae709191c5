import KataGo.Lib.Loops
import KataGo.Python.Ladder

/-! What the ladder search leaves behind. The rounds of its loop are read as the levels of a
recursion, and each level puts back what it played. -/

namespace KataGo.Python
open KataGo.Lib
open KataGo.Game (Color Player getOpp Loc)

namespace Board

/-- Who moves at a level. -/
def mover (pla : Player) (isDefender : Bool) : Player := if isDefender then pla else getOpp pla

theorem isDefender_succ (defenderFirst : Bool) (stackIdx : Nat) :
    isDefender defenderFirst (stackIdx + 1) = !isDefender defenderFirst stackIdx := by
  unfold isDefender
  rcases Nat.mod_two_eq_zero_or_one stackIdx with even | odd
  · have next : (stackIdx + 1) % 2 = 1 := by omega
    rw [even, next]
    cases defenderFirst <;> rfl
  · have next : (stackIdx + 1) % 2 = 0 := by omega
    rw [odd, next]
    cases defenderFirst <;> rfl

theorem isDefender_zero (defenderFirst : Bool) : isDefender defenderFirst 0 = defenderFirst := by
  cases defenderFirst <;> rfl

variable [ZobristStone] {loc : Loc} {pla : Player} {defenderFirst : Bool}

/-- A level that starts on `b`, with its moves still to be generated (`none`) or to be tried, ends with
`value` on `b'`. -/
inductive Searched (loc : Loc) (pla : Player) : Bool → Option (List Loc) → Board → Bool → Board → Prop where
  | settled {isDefender value : Bool} {b : Board} (entered : enterLevel loc pla isDefender b = some (.inl value)) :
      Searched loc pla isDefender none b value b
  | listed {isDefender value : Bool} {b b' : Board} {moves : List Loc}
      (entered : enterLevel loc pla isDefender b = some (.inr moves))
      (tried : Searched loc pla isDefender (some moves) b value b') : Searched loc pla isDefender none b value b'
  | exhausted {isDefender : Bool} {b : Board} : Searched loc pla isDefender (some []) b isDefender b
  | illegal {isDefender value : Bool} {b b' : Board} {move : Loc} {moves : List Loc}
      (banned : b.wouldBeLegal (mover pla isDefender) move = false)
      (tried : Searched loc pla isDefender (some moves) b value b') :
      Searched loc pla isDefender (some (move :: moves)) b value b'
  | decided {isDefender : Bool} {b b₁ b₂ b' : Board} {record : MoveRecord} {move : Loc} {moves : List Loc}
      (legal : b.wouldBeLegal (mover pla isDefender) move = true)
      (played : b.playRecordedUnsafe (mover pla isDefender) move = some (b₁, record))
      (deeper : Searched loc pla (!isDefender) none b₁ (!isDefender) b₂) (undone : b₂.undo record = some b') :
      Searched loc pla isDefender (some (move :: moves)) b (!isDefender) b'
  | failed {isDefender value : Bool} {b b₁ b₂ b₃ b' : Board} {record : MoveRecord} {move : Loc} {moves : List Loc}
      (legal : b.wouldBeLegal (mover pla isDefender) move = true)
      (played : b.playRecordedUnsafe (mover pla isDefender) move = some (b₁, record))
      (deeper : Searched loc pla (!isDefender) none b₁ isDefender b₂) (undone : b₂.undo record = some b₃)
      (tried : Searched loc pla isDefender (some moves) b₃ value b') :
      Searched loc pla isDefender (some (move :: moves)) b value b'

/-- The loop from a level just entered, and from the choice of a move, up to the return of that level. -/
structure Returns (loc : Loc) (pla : Player) (defenderFirst : Bool) (rounds : Nat) : Prop where
  enter : ∀ {b : Board} {moves : List Loc} {record : Option MoveRecord} {rest : List Frame} {returnValue fromDeeper : Bool}
    {final : Search},
    searchLoop loc pla defenderFirst rounds ⟨b, ⟨moves, none, record⟩ :: rest, returnValue, fromDeeper⟩ = some final →
    ∃ value b' rounds', rounds' ≤ rounds ∧ Searched loc pla (isDefender defenderFirst rest.length) none b value b' ∧
      searchLoop loc pla defenderFirst rounds' ⟨b', rest, value, true⟩ = some final
  tries : ∀ {s : Search} {frame : Frame} {rest : List Frame} {cur : Nat} {final : Search},
    tryMove pla defenderFirst s frame rest cur >>= searchLoop loc pla defenderFirst rounds = some final →
    ∃ value b' rounds', rounds' ≤ rounds ∧
      Searched loc pla (isDefender defenderFirst rest.length) (some (frame.moves.drop cur)) s.board value b' ∧
      searchLoop loc pla defenderFirst rounds' ⟨b', rest, value, true⟩ = some final

theorem searchLoop_cons (rounds : Nat) (b : Board) (frame : Frame) (rest : List Frame) (returnValue fromDeeper : Bool) :
    searchLoop loc pla defenderFirst (rounds + 1) ⟨b, frame :: rest, returnValue, fromDeeper⟩ =
      searchStep loc pla defenderFirst ⟨b, frame :: rest, returnValue, fromDeeper⟩ frame rest >>=
        searchLoop loc pla defenderFirst rounds := rfl

theorem searchLoop_zero (b : Board) (frame : Frame) (rest : List Frame) (returnValue fromDeeper : Bool) :
    searchLoop loc pla defenderFirst 0 ⟨b, frame :: rest, returnValue, fromDeeper⟩ = none := rfl

theorem enter_of_tries {rounds : Nat} (before : Returns loc pla defenderFirst rounds)
    {b : Board} {moves : List Loc} {record : Option MoveRecord} {rest : List Frame} {returnValue fromDeeper : Bool}
    {final : Search}
    (run : searchLoop loc pla defenderFirst (rounds + 1) ⟨b, ⟨moves, none, record⟩ :: rest, returnValue, fromDeeper⟩ =
      some final) :
    ∃ value b' rounds', rounds' ≤ rounds ∧ Searched loc pla (isDefender defenderFirst rest.length) none b value b' ∧
      searchLoop loc pla defenderFirst rounds' ⟨b', rest, value, true⟩ = some final := by
  rw [searchLoop_cons] at run
  unfold searchStep at run
  obtain ⟨s, step, run⟩ := Option.bind_eq_some_iff.mp run
  obtain ⟨entered, result, step⟩ := Option.bind_eq_some_iff.mp step
  cases entered with
  | inl value =>
    obtain rfl := Option.some.inj step
    exact ⟨value, b, rounds, le_rfl, .settled result, run⟩
  | inr generated =>
    have run' : tryMove pla defenderFirst ⟨b, ⟨moves, none, record⟩ :: rest, returnValue, fromDeeper⟩
        ⟨generated, none, record⟩ rest 0 >>= searchLoop loc pla defenderFirst rounds = some final := by
      rw [show tryMove pla defenderFirst _ _ rest 0 = some s from step]
      exact run
    obtain ⟨value, b', rounds', fewer, searched, after⟩ := before.tries run'
    exact ⟨value, b', rounds', fewer, .listed result searched, after⟩

/-- A round at a level that has a current move. -/
theorem searchLoop_resume {rounds : Nat} {b : Board} {frame : Frame} {rest : List Frame} {returnValue fromDeeper : Bool}
    {final : Search} {cur : Nat} (current : frame.cur = some cur)
    (run : searchLoop loc pla defenderFirst rounds ⟨b, frame :: rest, returnValue, fromDeeper⟩ = some final) :
    ∃ rounds' b', rounds = rounds' + 1 ∧ (if fromDeeper then frame.record >>= b.undo else some b) = some b' ∧
      (returnValue = !isDefender defenderFirst rest.length →
        searchLoop loc pla defenderFirst rounds' ⟨b', rest, returnValue, true⟩ = some final) ∧
      (returnValue = isDefender defenderFirst rest.length →
        tryMove pla defenderFirst ⟨b', frame :: rest, returnValue, fromDeeper⟩ frame rest (cur + 1) >>=
          searchLoop loc pla defenderFirst rounds' = some final) := by
  cases rounds with
  | zero => exact (nomatch run)
  | succ rounds' =>
    rw [searchLoop_cons] at run
    obtain ⟨s, step, run⟩ := Option.bind_eq_some_iff.mp run
    unfold searchStep at step
    rw [current] at step
    obtain ⟨-, step⟩ := guard_bind_eq_some.mp step
    obtain ⟨b', undone, step⟩ := Option.bind_eq_some_iff.mp step
    refine ⟨rounds', b', rfl, undone, fun decided => ?_, fun failed => ?_⟩
    · rw [if_pos (by rw [decided]; cases isDefender defenderFirst rest.length <;> simp)] at step
      obtain rfl := Option.some.inj step
      exact run
    · rw [if_neg (by rw [failed]; cases isDefender defenderFirst rest.length <;> simp)] at step
      rw [step]
      exact run

theorem tries_of_smaller {rounds : Nat} (smaller : ∀ rounds' < rounds, Returns loc pla defenderFirst rounds')
    (enter : ∀ {b : Board} {moves : List Loc} {record : Option MoveRecord} {rest : List Frame}
      {returnValue fromDeeper : Bool} {final : Search},
      searchLoop loc pla defenderFirst rounds ⟨b, ⟨moves, none, record⟩ :: rest, returnValue, fromDeeper⟩ = some final →
      ∃ value b' rounds', rounds' ≤ rounds ∧ Searched loc pla (isDefender defenderFirst rest.length) none b value b' ∧
        searchLoop loc pla defenderFirst rounds' ⟨b', rest, value, true⟩ = some final)
    {s : Search} {frame : Frame} {rest : List Frame} {cur : Nat} {final : Search}
    (run : tryMove pla defenderFirst s frame rest cur >>= searchLoop loc pla defenderFirst rounds = some final) :
    ∃ value b' rounds', rounds' ≤ rounds ∧
      Searched loc pla (isDefender defenderFirst rest.length) (some (frame.moves.drop cur)) s.board value b' ∧
      searchLoop loc pla defenderFirst rounds' ⟨b', rest, value, true⟩ = some final := by
  obtain ⟨s', step, run⟩ := Option.bind_eq_some_iff.mp run
  unfold tryMove at step
  cases chosen : frame.moves[cur]? with
  | none =>
    rw [chosen] at step
    obtain rfl := Option.some.inj step
    rw [List.drop_eq_nil_of_le (List.getElem?_eq_none_iff.mp chosen)]
    exact ⟨_, s.board, rounds, le_rfl, .exhausted, run⟩
  | some move =>
    rw [chosen] at step
    obtain ⟨inside, here⟩ := List.getElem?_eq_some_iff.mp chosen
    rw [List.drop_eq_getElem_cons inside, here]
    cases legal : s.board.wouldBeLegal (mover pla (isDefender defenderFirst rest.length)) move with
    | false =>
      have banned : (!s.board.wouldBeLegal (mover pla (isDefender defenderFirst rest.length)) move) = true := by
        rw [legal]
        rfl
      rw [mover] at banned
      simp only [banned, if_true] at step
      obtain rfl := Option.some.inj step
      obtain ⟨rounds', b', rfl, same, -, failed⟩ := searchLoop_resume rfl run
      obtain rfl := Option.some.inj same
      obtain ⟨value, b', rounds'', fewer, searched, after⟩ := (smaller rounds' (Nat.lt_succ_self _)).tries (failed rfl)
      exact ⟨value, b', rounds'', fewer.trans (Nat.le_succ _), .illegal legal searched, after⟩
    | true =>
      have allowed : (!s.board.wouldBeLegal (mover pla (isDefender defenderFirst rest.length)) move) = false := by
        rw [legal]
        rfl
      rw [mover] at allowed
      simp only [allowed, Bool.false_eq_true, if_false] at step
      obtain ⟨⟨b₁, record⟩, played, step⟩ := Option.bind_eq_some_iff.mp step
      obtain ⟨-, step⟩ := guard_bind_eq_some.mp step
      obtain rfl := Option.some.inj step
      obtain ⟨value, b₂, rounds', fewer, deeper, run⟩ := enter run
      rw [List.length_cons, isDefender_succ] at deeper
      obtain ⟨rounds'', b₃, rfl, undone, decided, failed⟩ := searchLoop_resume rfl run
      have undone : b₂.undo record = some b₃ := undone
      by_cases settles : value = !isDefender defenderFirst rest.length
      · subst settles
        exact ⟨_, b₃, rounds'', by omega, .decided legal played deeper undone, decided rfl⟩
      · have same : value = isDefender defenderFirst rest.length := by
          revert settles
          cases value <;> cases isDefender defenderFirst rest.length <;> decide
        subst same
        obtain ⟨value, b', rounds', fewer', searched, after⟩ := (smaller rounds'' (by omega)).tries (failed rfl)
        exact ⟨value, b', rounds', by omega, .failed legal played deeper undone searched, after⟩

/-- The loop is a recursion over the levels. -/
theorem returns (rounds : Nat) : Returns loc pla defenderFirst rounds := by
  induction rounds using Nat.strong_induction_on with
  | _ rounds smaller =>
    have enter : ∀ {b : Board} {moves : List Loc} {record : Option MoveRecord} {rest : List Frame}
        {returnValue fromDeeper : Bool} {final : Search},
        searchLoop loc pla defenderFirst rounds ⟨b, ⟨moves, none, record⟩ :: rest, returnValue, fromDeeper⟩ = some final →
        ∃ value b' rounds', rounds' ≤ rounds ∧ Searched loc pla (isDefender defenderFirst rest.length) none b value b' ∧
          searchLoop loc pla defenderFirst rounds' ⟨b', rest, value, true⟩ = some final := by
      intro b moves record rest returnValue fromDeeper final run
      cases rounds with
      | zero => exact (nomatch run)
      | succ before =>
        obtain ⟨value, b', rounds', fewer, searched, after⟩ := enter_of_tries (smaller before (Nat.lt_succ_self _)) run
        exact ⟨value, b', rounds', fewer.trans (Nat.le_succ _), searched, after⟩
    exact ⟨enter, tries_of_smaller smaller enter⟩

/-- A search that returns has searched the level it starts with. -/
theorem searched_of_loop {rounds : Nat} {b : Board} {final : Search}
    (run : searchLoop loc pla defenderFirst rounds ⟨b, [⟨[], none, none⟩], false, false⟩ = some final) :
    Searched loc pla defenderFirst none b final.returnValue final.board := by
  obtain ⟨value, b', rounds', -, searched, after⟩ := (returns rounds).enter run
  rw [List.length_nil, isDefender_zero] at searched
  have done : searchLoop loc pla defenderFirst rounds' ⟨b', [], value, true⟩ = some ⟨b', [], value, true⟩ := by
    cases rounds' <;> rfl
  rw [done] at after
  obtain rfl := Option.some.inj after
  exact searched

end Board
end KataGo.Python
