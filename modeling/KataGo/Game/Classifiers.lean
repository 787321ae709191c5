import KataGo.Game.MoveEffect

/-! The classifiers of `cpp/game/board.cpp` that say without playing it whether a move is suicide, a capture or
a ko. -/

namespace KataGo.Game
open KataGo.Lib CircularList Labelling

namespace Board

def wouldBeKoCapture (b : Board) (loc : Loc) (pla : Player) : Bool :=
  if b.colors loc ≠ .empty then false
  else if (b.adj loc).any fun a => b.colors a ≠ .wall ∧ b.colors a ≠ getOpp pla then false
  else match (b.adj loc).filter fun a => b.colors a = getOpp pla ∧ b.getNumLiberties a = 1 with
    | [oppCapturableLoc] => decide (b.getChainSize oppCapturableLoc = 1)
    | _ => false

/-- The stone that a play at `loc` would take in a ko, or `nullLoc`. -/
def getKoCaptureLoc (b : Board) (loc : Loc) (pla : Player) : Loc :=
  if b.colors loc ≠ .empty then nullLoc
  else if (b.adj loc).any fun a => b.colors a ≠ .wall ∧ b.colors a ≠ getOpp pla then nullLoc
  else match (b.adj loc).filter fun a => b.colors a = getOpp pla ∧ b.getNumLiberties a = 1 with
    | [oppCapturableLoc] => if b.getChainSize oppCapturableLoc ≠ 1 then nullLoc else oppCapturableLoc
    | _ => nullLoc

/-- All neighbours are the opponent's or walls, and one of them, `p`, is a lone stone that can be taken. -/
def KoShape (b : Board) (loc : Loc) (pla : Player) (p : Loc) : Prop :=
  (∀ a ∈ b.adj loc, b.colors a = .wall ∨ b.colors a = getOpp pla) ∧ (∀ a, b.CapturedDir loc pla a ↔ a = p) ∧
    b.component p = {p}

variable {b b' : Board} {loc p : Loc} {pla : Player}

theorem surrounded_iff : ((b.adj loc).any fun a => b.colors a ≠ .wall ∧ b.colors a ≠ getOpp pla) = false ↔
    ∀ a ∈ b.adj loc, b.colors a = .wall ∨ b.colors a = getOpp pla := by
  simp only [List.any_eq_false, decide_eq_true_eq]
  exact forall₂_congr fun a _ => by tauto

/-- The loop finds `p` alone. -/
theorem filter_captured_iff (shape : b.Shape) :
    (b.adj loc).filter (fun a => b.colors a = getOpp pla ∧ b.getNumLiberties a = 1) = [p] ↔
      ∀ a, b.CapturedDir loc pla a ↔ a = p := by
  have members : ∀ a, a ∈ (b.adj loc).filter (fun a => b.colors a = getOpp pla ∧ b.getNumLiberties a = 1) ↔
      b.CapturedDir loc pla a := by
    intro a
    rw [List.mem_filter, decide_eq_true_eq]
    exact Iff.rfl
  constructor
  · intro found a
    rw [← members, found, List.mem_singleton]
  · intro alone
    refine List.perm_singleton.1 ((List.perm_ext_iff_of_nodup ((shape.adj_nodup loc).filter _)
      (List.nodup_singleton p)).2 fun a => ?_)
    rw [members, alone, List.mem_singleton]

variable [Zobrist]

theorem getChainSize_eq_one_iff (regular : b.Regular) (stone : (b.colors p).IsStone) :
    b.getChainSize p = 1 ↔ b.component p = {p} := by
  rw [regular.getChainSize stone]
  constructor
  · intro size
    obtain ⟨x, alone⟩ := Set.ncard_eq_one.1 (by exact_mod_cast size)
    have inside : p ∈ b.component p := Chain.refl p
    rw [alone, Set.mem_singleton_iff] at inside
    rw [alone, inside]
  · intro alone
    rw [alone, Set.ncard_singleton, Nat.cast_one]

theorem KoShape.classified (shape : b.KoShape loc pla p) (regular : b.Regular) (blank : b.colors loc = .empty)
    (player : pla.IsStone) : b.wouldBeKoCapture loc pla = true ∧ b.getKoCaptureLoc loc pla = p := by
  obtain ⟨surrounded, alone, single⟩ := shape
  have captured := (alone p).2 rfl
  have size : b.getChainSize p = 1 :=
    (getChainSize_eq_one_iff regular (by rw [captured.2.1]; exact player.opp)).2 single
  rw [wouldBeKoCapture, getKoCaptureLoc, surrounded_iff.2 surrounded, (filter_captured_iff regular.shape).2 alone]
  simp [blank, size]

theorem classified_of_not_koShape (regular : b.Regular) (player : pla.IsStone)
    (none : ¬ ∃ p, b.KoShape loc pla p) :
    b.wouldBeKoCapture loc pla = false ∧ b.getKoCaptureLoc loc pla = nullLoc := by
  unfold wouldBeKoCapture getKoCaptureLoc
  split_ifs with filled surrounded
  · exact ⟨rfl, rfl⟩
  · exact ⟨rfl, rfl⟩
  split
  · rename_i p found
    have alone := (filter_captured_iff regular.shape).1 found
    have captured := (alone p).2 rfl
    have size : b.getChainSize p ≠ 1 := fun one => none ⟨p,
      surrounded_iff.1 (Bool.eq_false_iff.2 surrounded), alone,
      (getChainSize_eq_one_iff regular (by rw [captured.2.1]; exact player.opp)).1 one⟩
    exact ⟨decide_eq_false size, if_pos size⟩
  · exact ⟨rfl, rfl⟩

section Play

variable (played : Played b b' loc pla) (consistent : b.Consistent) (blank : b.colors loc = .empty)
  (player : pla.IsStone)
include played consistent blank player

theorem isSuicide_iff_gone : b.isSuicide loc pla = true ↔ b'.colors loc = .empty := by
  rw [isSuicide_iff consistent.regular blank player, played.colors_loc_iff player]
  constructor
  · rintro ⟨noCapture, trapped⟩
    rwa [afterCaptures, removeDead_eq_self consistent blank player noCapture]
  · intro dead
    have noCapture : ∀ a ∈ b.adj loc, b.colors a = getOpp pla → b.getNumLiberties a ≠ 1 := by
      intro a near theirs last
      refine dead ⟨a, (liberty_afterCaptures_iff consistent blank player).2 ⟨⟨ne_of_mem_adj near, Or.inr ?_⟩, Or.inl near⟩⟩
      exact ⟨a, ⟨near, theirs, last⟩, Chain.refl a⟩
    refine ⟨noCapture, ?_⟩
    rwa [← removeDead_eq_self consistent blank player noCapture]

theorem wouldBeCapture_iff_grows :
    b.wouldBeCapture loc pla = true ↔ b.captures (getOpp pla) < b'.captures (getOpp pla) := by
  have found : b.wouldBeCapture loc pla = true ↔ ∃ a, b.CapturedDir loc pla a := by
    rw [wouldBeCapture, if_neg (by rw [not_not]; exact blank), List.any_eq_true]
    exact exists_congr fun a => by rw [decide_eq_true_eq]; exact Iff.rfl
  have shape : (taken (Function.update b.colors loc pla) b'.colors (getOpp pla)).Finite :=
    taken_finite played.consistent.shape
  rw [found, played.captures _ player.opp, lt_add_iff_pos_right, Int.natCast_pos, Set.ncard_pos shape]
  constructor
  · rintro ⟨a, captured⟩
    exact ⟨a, (played.mem_taken_iff consistent blank player).2 ⟨a, captured, Chain.refl a⟩⟩
  · rintro ⟨q, gone⟩
    obtain ⟨a, captured, -⟩ := (played.mem_taken_iff consistent blank player).1 gone
    exact ⟨a, captured⟩

/-- The shape before the move decides where the ko is after it. -/
theorem koPoint_iff_koShape : KoPoint b b' loc pla p ↔ b.KoShape loc pla p := by
  constructor
  · rintro ⟨one, alone, liberty⟩
    have free : p ∈ b'.liberties loc := by rw [liberty]; rfl
    obtain ⟨gone, x, path, near⟩ := free
    obtain rfl : x = loc := by
      have inside : x ∈ b'.component loc := path
      rwa [alone] at inside
    have near' : p ∈ b.adj x := by
      rw [played.xSize] at near
      exact near
    have alive : ∃ e, Liberty (grid b.xSize) .empty (b.afterCaptures x pla) x e := by
      by_contra dead
      have same : p ∈ b'.component x := Chain.single near (gone.trans (played.colors_of_dead dead (Chain.refl x)).symm)
      rw [alone] at same
      exact ne_of_mem_adj near' same
    have libertyIff : ∀ e, b.BecomesEmpty x pla e ∧ b.NextToJoined x pla e ↔ e = p := by
      intro e
      rw [← liberty_afterCaptures_iff consistent blank player, ← played.colors_of_alive alive, ← played.xSize]
      exact Set.ext_iff.1 liberty e
    have taken : ∀ q, (∃ a, b.CapturedDir x pla a ∧ q ∈ b.component a) ↔ q = p := by
      intro q
      rw [← played.mem_taken_iff consistent blank player, one, Set.mem_singleton_iff]
    have only : ∀ a, b.CapturedDir x pla a → a = p := fun a captured => (taken a).1 ⟨a, captured, Chain.refl a⟩
    obtain ⟨a, captured, -⟩ := (taken p).2 rfl
    obtain rfl := only a captured
    refine ⟨fun y adjacent => ?_, fun y => ⟨only y, ?_⟩, ?_⟩
    · by_contra other
      rw [not_or] at other
      rcases Color.eq_empty_or_isStone other.1 with free | stone
      · obtain rfl := (libertyIff y).1 ⟨⟨ne_of_mem_adj adjacent, Or.inl free⟩, Or.inl adjacent⟩
        exact player.opp.ne_empty (captured.2.1.symm.trans free)
      · have mine : b.colors y = pla := (player.eq_or_eq_opp stone).resolve_right other.2
        have joined : y ∈ b'.component x := by
          rw [component, played.xSize, played.colors_of_alive alive]
          exact (chain_afterCaptures_iff blank player).2 (Or.inr ⟨y, adjacent, mine, Chain.refl y⟩)
        rw [alone] at joined
        exact ne_of_mem_adj adjacent joined
    · rintro rfl
      exact captured
    · ext q
      refine ⟨fun inside => (taken q).1 ⟨a, captured, inside⟩, ?_⟩
      rintro rfl
      exact Chain.refl q
  · rintro ⟨surrounded, alone, single⟩
    have captured := (alone p).2 rfl
    have empties : ∀ q, (∃ a, b.CapturedDir loc pla a ∧ q ∈ b.component a) ↔ q = p := by
      intro q
      simp only [alone, exists_eq_left, single, Set.mem_singleton_iff]
    have libertyIff : ∀ e, b.BecomesEmpty loc pla e ∧ b.NextToJoined loc pla e ↔ e = p := by
      intro e
      unfold BecomesEmpty NextToJoined
      rw [empties]
      constructor
      · rintro ⟨⟨-, free⟩, near⟩
        refine free.resolve_left fun blankE => ?_
        rcases near with near | ⟨a, near, mine, -⟩
        · rcases surrounded e near with wall | theirs
          · exact absurd (wall.symm.trans blankE) (by decide)
          · exact player.opp.ne_empty (theirs.symm.trans blankE)
        · rcases surrounded a near with wall | theirs
          · exact player.ne_wall (mine.symm.trans wall)
          · exact player.opp_ne (theirs.symm.trans mine)
      · rintro rfl
        exact ⟨⟨ne_of_mem_adj captured.1, Or.inr rfl⟩, Or.inl captured.1⟩
    have alive : ∃ e, Liberty (grid b.xSize) .empty (b.afterCaptures loc pla) loc e :=
      ⟨p, (liberty_afterCaptures_iff consistent blank player).2 ((libertyIff p).2 rfl)⟩
    refine ⟨?_, ?_, ?_⟩
    · ext q
      rw [played.mem_taken_iff consistent blank player, empties, Set.mem_singleton_iff]
    · ext q
      rw [component, played.xSize, played.colors_of_alive alive]
      refine (chain_afterCaptures_iff blank player).trans (or_iff_left ?_)
      rintro ⟨a, near, mine, -⟩
      rcases surrounded a near with wall | theirs
      · exact player.ne_wall (mine.symm.trans wall)
      · exact player.opp_ne (theirs.symm.trans mine)
    · ext e
      rw [liberties, played.xSize, played.colors_of_alive alive]
      exact (liberty_afterCaptures_iff consistent blank player).trans (libertyIff e)

end Play

/-- What the classifiers say of a move is what playing it does: suicide leaves the point empty, a capture makes
the opponent's count grow, and the ko capture is the ko point after the move. -/
theorem classifiers_eq_play (b : Board) (loc : Loc) (pla : Player) (consistent : b.Consistent)
    (blank : b.colors loc = .empty) (player : pla.IsStone) :
    ∃ b', b.playMoveAssumeLegal loc pla = some b' ∧
      (b.isSuicide loc pla = true ↔ b'.colors loc = .empty) ∧
      (b.wouldBeCapture loc pla = true ↔ b.captures (getOpp pla) < b'.captures (getOpp pla)) ∧
      (b.wouldBeKoCapture loc pla = true ↔ b'.koLoc ≠ nullLoc) ∧ b.getKoCaptureLoc loc pla = b'.koLoc := by
  obtain ⟨b', run, played⟩ := playMoveAssumeLegal_spec consistent blank player
  refine ⟨b', run, isSuicide_iff_gone played consistent blank player,
    wouldBeCapture_iff_grows played consistent blank player, ?_⟩
  by_cases some : ∃ p, b.KoShape loc pla p
  · obtain ⟨p, shape⟩ := some
    have koLoc := played.ko p ((koPoint_iff_koShape played consistent blank player).2 shape)
    obtain ⟨would, target⟩ := shape.classified consistent.regular blank player
    have point : p ≠ nullLoc := by
      have theirs := ((shape.2.1 p).2 rfl).2.1
      exact consistent.shape.ne_null (by rw [theirs]; exact player.opp.ne_wall)
    rw [koLoc]
    exact ⟨iff_of_true would point, target⟩
  · have koLoc := played.noKo fun ⟨p, point⟩ => some ⟨p, (koPoint_iff_koShape played consistent blank player).1 point⟩
    obtain ⟨would, target⟩ := classified_of_not_koShape consistent.regular player some
    rw [koLoc]
    exact ⟨iff_of_false (by rw [would]; decide) fun other => other rfl, target⟩

omit [Zobrist] in
/-- A first move in the middle of a small board is none of the three. -/
theorem classifiers_eq_play_opening :
    letI := Zobrist.blank
    ∃ b b', init 3 3 = some b ∧ b.playMoveAssumeLegal (Location.getLoc 1 1 3) .black = some b' ∧
      b'.colors (Location.getLoc 1 1 3) ≠ .empty ∧ b'.koLoc = nullLoc := by
  let _ := Zobrist.blank
  obtain ⟨b, start, consistent⟩ := init_consistent 3 3 (by decide) (by decide)
  have facts : b.colors (Location.getLoc 1 1 3) = .empty ∧
      b.isSuicide (Location.getLoc 1 1 3) .black = false ∧
      b.getKoCaptureLoc (Location.getLoc 1 1 3) .black = nullLoc := by
    obtain rfl := Option.some.inj start
    decide
  obtain ⟨b', run, suicide, -, -, ko⟩ := classifiers_eq_play b _ .black consistent facts.1 (Or.inl rfl)
  refine ⟨b, b', start, run, fun gone => ?_, ko.symm.trans facts.2.2⟩
  exact Bool.eq_false_iff.1 facts.2.1 (suicide.2 gone)

end Board
end KataGo.Game
