import KataGo.Lib.Benson

/-! Two labelled graphs that are one up to the names of their vertices. Vertices with the label
`wall` have no counterpart; they bound the graphs, and nothing that is said about the
others can see where they are. -/

namespace KataGo.Lib.Labelling

variable {V V' κ : Type*} {G : SimpleGraph V} {G' : SimpleGraph V'} {c : V → κ} {c' : V' → κ} {f : V → V'} {wall : κ}
  {p q x y e v : V}

/-- Removing dead components moves no walls. -/
theorem removeDead_eq_wall_iff {blank you : κ} (solid : blank ≠ wall) (yours : you ≠ wall) :
    removeDead G blank you c p = wall ↔ c p = wall := by
  unfold removeDead
  split_ifs with dead
  · exact iff_of_false solid fun same => yours (dead.1.symm.trans same)
  · exact Iff.rfl

/-- `f` carries the vertices of `c` that are not walls to those of `c'`. -/
structure Relocation (G : SimpleGraph V) (G' : SimpleGraph V') (wall : κ) (c : V → κ) (c' : V' → κ) (f : V → V') :
    Prop where
  label : ∀ p, c p ≠ wall → c' (f p) = c p
  adj : ∀ p q, c p ≠ wall → c q ≠ wall → (G'.Adj (f p) (f q) ↔ G.Adj p q)
  onto : ∀ p', c' p' ≠ wall → ∃ p, c p ≠ wall ∧ f p = p'
  injective : ∀ p q, c p ≠ wall → c q ≠ wall → f p = f q → p = q

namespace Relocation

theorem label_iff {k : κ} (reloc : Relocation G G' wall c c' f) (point : c p ≠ wall) : c' (f p) = k ↔ c p = k := by
  rw [reloc.label p point]

theorem point (reloc : Relocation G G' wall c c' f) (here : c p ≠ wall) : c' (f p) ≠ wall := by
  rwa [reloc.label p here]

/-- What holds of every vertex, and of some vertex, can be said about either graph. -/
theorem forall_iff (reloc : Relocation G G' wall c c' f) {P : V' → Prop} :
    (∀ q', c' q' ≠ wall → P q') ↔ ∀ q, c q ≠ wall → P (f q) := by
  refine ⟨fun all q here => all (f q) (reloc.point here), fun all q' here => ?_⟩
  obtain ⟨q, point, rfl⟩ := reloc.onto q' here
  exact all q point

theorem exists_iff (reloc : Relocation G G' wall c c' f) {P : V' → Prop} :
    (∃ q', c' q' ≠ wall ∧ P q') ↔ ∃ q, c q ≠ wall ∧ P (f q) := by
  constructor
  · rintro ⟨q', here, holds⟩
    obtain ⟨q, point, rfl⟩ := reloc.onto q' here
    exact ⟨q, point, holds⟩
  · rintro ⟨q, here, holds⟩
    exact ⟨f q, reloc.point here, holds⟩

theorem chain (reloc : Relocation G G' wall c c' f) (here : c p ≠ wall) (path : Chain G c p q) :
    Chain G' c' (f p) (f q) := by
  induction path with
  | refl => exact Chain.refl _
  | @tail y z path step ih =>
    have pointY : c y ≠ wall := by rwa [Chain.label path]
    have pointZ : c z ≠ wall := by rwa [step.2]
    refine ih.trans (Chain.single ((reloc.adj y z pointY pointZ).2 step.1) ?_)
    rw [reloc.label z pointZ, reloc.label y pointY, step.2]

theorem chain_back {q' : V'} (reloc : Relocation G G' wall c c' f) (here : c p ≠ wall)
    (path : Chain G' c' (f p) q') : ∃ q, c q ≠ wall ∧ f q = q' ∧ Chain G c p q := by
  induction path with
  | refl => exact ⟨p, here, rfl, Chain.refl p⟩
  | @tail y' z' path step ih =>
    obtain ⟨y, pointY, rfl, back⟩ := ih
    have pointZ' : c' z' ≠ wall := by
      rw [step.2]
      exact reloc.point pointY
    obtain ⟨z, pointZ, rfl⟩ := reloc.onto z' pointZ'
    refine ⟨z, pointZ, rfl, back.trans (Chain.single ((reloc.adj y z pointY pointZ).1 step.1) ?_)⟩
    rw [← reloc.label z pointZ, ← reloc.label y pointY, step.2]

theorem chain_iff (reloc : Relocation G G' wall c c' f) (here : c p ≠ wall) (there : c q ≠ wall) :
    Chain G' c' (f p) (f q) ↔ Chain G c p q := by
  refine ⟨fun path => ?_, reloc.chain here⟩
  obtain ⟨x, point, same, back⟩ := reloc.chain_back here path
  rwa [reloc.injective x q point there same] at back

theorem liberty_iff {blank : κ} (reloc : Relocation G G' wall c c' f) (here : c p ≠ wall) (there : c e ≠ wall) :
    Liberty G' blank c' (f p) (f e) ↔ Liberty G blank c p e := by
  unfold Liberty
  rw [reloc.label_iff there]
  refine and_congr_right fun _ => ⟨?_, ?_⟩
  · rintro ⟨q', path, adjacent⟩
    obtain ⟨q, point, rfl, back⟩ := reloc.chain_back here path
    exact ⟨q, back, (reloc.adj q e point there).1 adjacent⟩
  · rintro ⟨q, path, adjacent⟩
    have point : c q ≠ wall := by rwa [Chain.label path]
    exact ⟨f q, reloc.chain here path, (reloc.adj q e point there).2 adjacent⟩

theorem exists_liberty_iff {blank : κ} (solid : blank ≠ wall) (reloc : Relocation G G' wall c c' f)
    (here : c p ≠ wall) : (∃ e', Liberty G' blank c' (f p) e') ↔ ∃ e, Liberty G blank c p e := by
  constructor
  · rintro ⟨e', free⟩
    obtain ⟨e, point, rfl⟩ := reloc.onto e' (by rw [free.1]; exact solid)
    exact ⟨e, (reloc.liberty_iff here point).1 free⟩
  · rintro ⟨e, free⟩
    exact ⟨f e, (reloc.liberty_iff here (by rw [free.1]; exact solid)).2 free⟩

/-- Other labels on the same vertices. -/
theorem relabel {d : V → κ} {d' : V' → κ} (reloc : Relocation G G' wall c c' f)
    (walls : ∀ p, d p = wall ↔ c p = wall) (walls' : ∀ p', d' p' = wall ↔ c' p' = wall)
    (labels : ∀ p, c p ≠ wall → d' (f p) = d p) : Relocation G G' wall d d' f := by
  have point : ∀ {p}, d p ≠ wall → c p ≠ wall := fun here there => here ((walls _).2 there)
  refine ⟨fun p here => labels p (point here), fun p q first second => reloc.adj p q (point first) (point second),
    fun p' here => ?_, fun p q first second => reloc.injective p q (point first) (point second)⟩
  obtain ⟨p, there, rfl⟩ := reloc.onto p' fun there => here ((walls' p').2 there)
  exact ⟨p, fun wall => there ((walls p).1 wall), rfl⟩

section Play

variable [DecidableEq V] [DecidableEq V'] {blank me you : κ} (solid : blank ≠ wall) (mine : me ≠ wall)
include solid mine

omit solid in
theorem update (reloc : Relocation G G' wall c c' f) (here : c v ≠ wall) :
    Relocation G G' wall (Function.update c v me) (Function.update c' (f v) me) f := by
  refine reloc.relabel (fun p => ?_) (fun p' => ?_) fun p point => ?_
  · by_cases same : p = v
    · rw [same, Function.update_self]
      exact iff_of_false mine here
    · rw [Function.update_of_ne same]
  · by_cases same : p' = f v
    · rw [same, Function.update_self]
      exact iff_of_false mine (reloc.point here)
    · rw [Function.update_of_ne same]
  · by_cases same : p = v
    · rw [same, Function.update_self, Function.update_self]
    · rw [Function.update_of_ne same, Function.update_of_ne fun equal => same (reloc.injective p v point here equal),
        reloc.label p point]

omit [DecidableEq V] [DecidableEq V'] mine in
theorem removeDead (yours : you ≠ wall) (reloc : Relocation G G' wall c c' f) :
    Relocation G G' wall (removeDead G blank you c) (removeDead G' blank you c') f := by
  refine reloc.relabel (fun p => removeDead_eq_wall_iff solid yours) (fun p' => removeDead_eq_wall_iff solid yours)
    fun p here => ?_
  unfold Labelling.removeDead
  rw [reloc.label p here, reloc.exists_liberty_iff solid here]

/-- A move on one graph is the same move on the other. -/
theorem play (yours : you ≠ wall) (reloc : Relocation G G' wall c c' f) (here : c v ≠ wall) :
    Relocation G G' wall (play G blank me you c v) (play G' blank me you c' (f v)) f := by
  have captured := (reloc.update mine here).removeDead solid yours
  have solidV : Labelling.removeDead G blank you (Function.update c v me) v ≠ wall := by
    unfold Labelling.removeDead
    rw [Function.update_self]
    split_ifs
    · exact solid
    · exact mine
  have alive := captured.exists_liberty_iff solid solidV
  unfold Labelling.play
  by_cases free : ∃ e, Liberty G blank (Labelling.removeDead G blank you (Function.update c v me)) v e
  · rw [if_pos free, if_pos (alive.2 free)]
    exact captured
  · rw [if_neg free, if_neg fun found => free (alive.1 found)]
    refine captured.relabel (fun p => ?_) (fun p' => ?_) fun p point => ?_
    · split_ifs with path
      · exact iff_of_false solid (by rw [path.label]; exact solidV)
      · exact Iff.rfl
    · split_ifs with path
      · exact iff_of_false solid (by rw [path.label]; exact captured.point solidV)
      · exact Iff.rfl
    · rw [captured.label p point, captured.chain_iff solidV point]

end Play

section Life
open Benson

variable {s : Side κ} {suicide safe : Prop} {S : V → Prop} {S' : V' → Prop}

/-- The three labels of a side are no walls. -/
structure Solid (s : Side κ) (wall : κ) : Prop where
  blank : s.blank ≠ wall
  me : s.me ≠ wall
  you : s.you ≠ wall

theorem Solid.space (solid : Solid s wall) (space : Space s c p) : c p ≠ wall := by
  rcases space with free | theirs
  · rw [free]
    exact solid.blank
  · rw [theirs]
    exact solid.you

variable (solid : Solid s wall) (reloc : Relocation G G' wall c c' f)
include solid reloc

/-- Spaces are relocated too. -/
theorem space : Relocation G G' False (Space s c) (Space s c') f := by
  have of : ∀ {d : V → κ} {p : V}, Space s d p ≠ False → d p ≠ wall := fun here => solid.space (of_not_not fun none =>
    here (eq_false none))
  have of' : ∀ {p' : V'}, Space s c' p' ≠ False → c' p' ≠ wall := fun here => solid.space (of_not_not fun none =>
    here (eq_false none))
  refine ⟨fun p here => ?_, fun p q first second => reloc.adj p q (of first) (of second), fun p' here => ?_,
    fun p q first second => reloc.injective p q (of first) (of second)⟩
  · unfold Space
    rw [reloc.label p (of here)]
  · obtain ⟨p, point, rfl⟩ := reloc.onto p' (of' here)
    refine ⟨p, fun none => here ?_, rfl⟩
    rw [← none]
    unfold Space
    rw [reloc.label p point]

theorem region_iff (here : Space s c p) (there : c q ≠ wall) :
    Region G' s c' (f p) (f q) ↔ Region G s c p q := by
  have spaces := reloc.space solid
  by_cases inside : Space s c q
  · exact spaces.chain_iff (fun none => none.mp here) fun none => none.mp inside
  · have outside : ¬ Space s c' (f q) := by
      unfold Space at inside ⊢
      rwa [reloc.label q there]
    have here' : Space s c' (f p) := by
      unfold Space at here ⊢
      rwa [reloc.label p (solid.space here)]
    exact iff_of_false (fun region => outside (Region.space region |>.2 here'))
      fun region => inside (Region.space region |>.2 here)

omit solid in
theorem touches_iff (here : c x ≠ wall) (there : c q ≠ wall) : Touches G' c' (f x) (f q) ↔ Touches G c x q := by
  constructor
  · rintro ⟨y', path, adjacent⟩
    obtain ⟨y, point, rfl, back⟩ := reloc.chain_back here path
    exact ⟨y, back, (reloc.adj q y there point).1 adjacent⟩
  · rintro ⟨y, path, adjacent⟩
    have point : c y ≠ wall := by rwa [Chain.label path]
    exact ⟨f y, reloc.chain here path, (reloc.adj q y there point).2 adjacent⟩

omit solid in
theorem space_iff (here : c p ≠ wall) : Space s c' (f p) ↔ Space s c p := by
  unfold Space
  rw [reloc.label p here]

theorem vital_iff (here : Space s c p) (there : c x ≠ wall) :
    Vital G' s suicide c' (f p) (f x) ↔ Vital G s suicide c p x := by
  have point := solid.space here
  constructor
  · intro vital q region counts
    have inside := solid.space ((Region.space region).2 here)
    refine (reloc.touches_iff there inside).1 (vital (f q) ((reloc.region_iff solid here inside).2 region) ?_)
    rwa [reloc.label q inside]
  · intro vital q' region counts
    have space' := (Region.space region).2 ((reloc.space_iff point).2 here)
    obtain ⟨q, inside, rfl⟩ := reloc.onto q' (solid.space space')
    refine (reloc.touches_iff there inside).2 (vital q ((reloc.region_iff solid here inside).1 region) ?_)
    rwa [reloc.label q inside] at counts

theorem borders_iff (here : Space s c p) (there : c x ≠ wall) :
    Borders G' s c' (f p) (f x) ↔ Borders G s c p x := by
  have point := solid.space here
  unfold Borders
  rw [reloc.label x there]
  refine and_congr_right fun _ => ⟨?_, ?_⟩
  · rintro ⟨q', region, adjacent⟩
    have space' := (Region.space region).2 ((reloc.space_iff point).2 here)
    obtain ⟨q, inside, rfl⟩ := reloc.onto q' (solid.space space')
    exact ⟨q, (reloc.region_iff solid here inside).1 region, (reloc.adj q x inside there).1 adjacent⟩
  · rintro ⟨q, region, adjacent⟩
    have inside := solid.space ((Region.space region).2 here)
    exact ⟨f q, (reloc.region_iff solid here inside).2 region, (reloc.adj q x inside there).2 adjacent⟩

/-- Whatever holds of all stones around a region holds of their counterparts. -/
theorem forall_borders_iff (same : ∀ y, c y ≠ wall → (S' (f y) ↔ S y)) (here : Space s c p) :
    (∀ y', Borders G' s c' (f p) y' → S' y') ↔ ∀ y, Borders G s c p y → S y := by
  have stone : ∀ {y}, Borders G s c p y → c y ≠ wall := fun borders => by
    rw [borders.1]
    exact solid.me
  constructor
  · intro all y borders
    exact (same y (stone borders)).1 (all (f y) ((reloc.borders_iff solid here (stone borders)).2 borders))
  · intro all y' borders
    obtain ⟨y, point, rfl⟩ := reloc.onto y' (by rw [borders.1]; exact solid.me)
    exact (same y point).2 (all y ((reloc.borders_iff solid here point).1 borders))

theorem eye_iff (same : ∀ y, c y ≠ wall → (S' (f y) ↔ S y)) (point : c p ≠ wall) (there : c x ≠ wall) :
    Eye G' s suicide c' S' (f p) (f x) ↔ Eye G s suicide c S p x := by
  unfold Eye
  rw [reloc.label p point]
  refine and_congr_right fun free => ?_
  rw [reloc.vital_iff solid (.inl free) there, reloc.forall_borders_iff solid same (.inl free)]

theorem twoEyes_iff (same : ∀ y, c y ≠ wall → (S' (f y) ↔ S y)) (there : c x ≠ wall) :
    TwoEyes G' s suicide c' S' (f x) ↔ TwoEyes G s suicide c S x := by
  constructor
  · rintro ⟨p₁', p₂', apart, first, second⟩
    obtain ⟨p₁, point₁, rfl⟩ := reloc.onto p₁' (by rw [first.1]; exact solid.blank)
    obtain ⟨p₂, point₂, rfl⟩ := reloc.onto p₂' (by rw [second.1]; exact solid.blank)
    rw [reloc.eye_iff solid same point₁ there] at first
    rw [reloc.eye_iff solid same point₂ there] at second
    rw [reloc.region_iff solid (.inl first.1) point₂] at apart
    exact ⟨p₁, p₂, apart, first, second⟩
  · rintro ⟨p₁, p₂, apart, first, second⟩
    have point₁ : c p₁ ≠ wall := by
      rw [first.1]
      exact solid.blank
    have point₂ : c p₂ ≠ wall := by
      rw [second.1]
      exact solid.blank
    rw [← reloc.region_iff solid (.inl first.1) point₂] at apart
    exact ⟨f p₁, f p₂, apart, (reloc.eye_iff solid same point₁ there).2 first,
      (reloc.eye_iff solid same point₂ there).2 second⟩

theorem passAlive_iff (there : c x ≠ wall) : PassAlive G' s suicide c' (f x) ↔ PassAlive G s suicide c x := by
  constructor
  · rintro ⟨S', closed, inside⟩
    refine ⟨fun y => c y ≠ wall ∧ S' (f y), fun y member => ?_, there, inside⟩
    obtain ⟨label, eyes⟩ := closed (f y) member.2
    refine ⟨by rwa [reloc.label y member.1] at label, (reloc.twoEyes_iff solid (fun z point => ?_) member.1).1 eyes⟩
    exact (and_iff_right point).symm
  · rintro ⟨S, closed, inside⟩
    refine ⟨fun y' => ∃ y, c y ≠ wall ∧ f y = y' ∧ S y, ?_, x, there, rfl, inside⟩
    rintro y' ⟨y, point, rfl, member⟩
    obtain ⟨label, eyes⟩ := closed y member
    refine ⟨by rwa [reloc.label y point], (reloc.twoEyes_iff solid (fun z pointZ => ⟨?_, fun found =>
      ⟨z, pointZ, rfl, found⟩⟩) point).2 eyes⟩
    rintro ⟨w, pointW, same, found⟩
    rwa [reloc.injective w z pointW pointZ same] at found

theorem enclosed_iff (point : c p ≠ wall) : Enclosed G' s suicide c' (f p) ↔ Enclosed G s suicide c p := by
  unfold Enclosed
  rw [reloc.space_iff point]
  exact and_congr_right fun here => reloc.forall_borders_iff solid (fun y there => reloc.passAlive_iff solid there) here

theorem internal_iff (here : Space s c p) (there : c q ≠ wall) :
    Internal G' s c' (f p) (f q) ↔ Internal G s c p q := by
  unfold Internal
  rw [reloc.region_iff solid here there]
  refine and_congr_right fun _ => ⟨?_, ?_⟩
  · intro none y adjacent mine
    have point : c y ≠ wall := by
      rw [mine]
      exact solid.me
    exact none (f y) ((reloc.adj q y there point).2 adjacent) (by rw [reloc.label y point, mine])
  · intro none y' adjacent mine
    obtain ⟨y, point, rfl⟩ := reloc.onto y' (by rw [mine]; exact solid.me)
    rw [reloc.label y point] at mine
    exact none y ((reloc.adj q y there point).1 adjacent) mine

theorem small_iff (here : Space s c p) : Small G' s c' (f p) ↔ Small G s c p := by
  have point := solid.space here
  have inside : ∀ {q}, Internal G s c p q → c q ≠ wall := fun internal =>
    solid.space ((Region.space internal.1).2 here)
  constructor
  · intro small q r first second
    refine reloc.injective q r (inside first) (inside second) (small (f q) (f r) ?_ ?_)
    · exact (reloc.internal_iff solid here (inside first)).2 first
    · exact (reloc.internal_iff solid here (inside second)).2 second
  · intro small q' r' first second
    have space' : ∀ {q'}, Internal G' s c' (f p) q' → c' q' ≠ wall := fun internal =>
      solid.space ((Region.space internal.1).2 ((reloc.space_iff point).2 here))
    obtain ⟨q, pointQ, rfl⟩ := reloc.onto q' (space' first)
    obtain ⟨r, pointR, rfl⟩ := reloc.onto r' (space' second)
    rw [small q r ((reloc.internal_iff solid here pointQ).1 first) ((reloc.internal_iff solid here pointR).1 second)]

theorem clear_iff (here : Space s c p) : Clear G' s c' (f p) ↔ Clear G s c p := by
  have point := solid.space here
  constructor
  · intro clear q region theirs
    have inside := solid.space ((Region.space region).2 here)
    exact clear (f q) ((reloc.region_iff solid here inside).2 region) (by rw [reloc.label q inside, theirs])
  · intro clear q' region theirs
    obtain ⟨q, inside, rfl⟩ := reloc.onto q' (by rw [theirs]; exact solid.you)
    rw [reloc.label q inside] at theirs
    exact clear q ((reloc.region_iff solid here inside).1 region) theirs

theorem exists_stone_iff : (∃ x', c' x' = s.me) ↔ ∃ x, c x = s.me := by
  constructor
  · rintro ⟨x', mine⟩
    obtain ⟨x, point, rfl⟩ := reloc.onto x' (by rw [mine]; exact solid.me)
    exact ⟨x, by rwa [reloc.label x point] at mine⟩
  · rintro ⟨x, mine⟩
    exact ⟨f x, by rw [reloc.label x (by rw [mine]; exact solid.me), mine]⟩

/-- What belongs to a player for good has its counterpart on the other graph. -/
theorem owned_iff (point : c p ≠ wall) : Owned G' s suicide c' safe (f p) ↔ Owned G s suicide c safe p := by
  unfold Owned
  rw [reloc.passAlive_iff solid point, reloc.enclosed_iff solid point, reloc.exists_stone_iff solid]
  refine or_congr_right (and_congr_right fun enclosed => ?_)
  rw [reloc.small_iff solid enclosed.1, reloc.clear_iff solid enclosed.1]

theorem surrounded_iff (point : c p ≠ wall) : Surrounded G' s c' (f p) ↔ Surrounded G s c p := by
  unfold Surrounded
  rw [reloc.space_iff point, reloc.exists_stone_iff solid]
  exact and_congr_right fun here => by rw [reloc.clear_iff solid here]

end Life

end Relocation
end KataGo.Lib.Labelling
