import KataGo.Lib.Labelling

/-! Unconditional life on a labelled graph, after Benson. The regions of a player are the
connected sets without stones of his; a stone is alive if its chain has two regions of its
own that only living stones border on. Alive stones survive whatever the opponent plays,
and the two players' territories do not meet. -/

namespace KataGo.Lib.Benson
open Labelling

variable {V κ : Type*}

/-- The labels of the two players, as one of them sees them. -/
structure Side (κ : Type*) where
  blank : κ
  me : κ
  you : κ
  me_ne : me ≠ blank
  you_ne : you ≠ blank
  apart : me ≠ you

def Side.swap (s : Side κ) : Side κ := ⟨s.blank, s.you, s.me, s.you_ne, s.me_ne, s.apart.symm⟩

section Position

variable (G : SimpleGraph V) (s : Side κ) (suicide : Prop) (c : V → κ)

/-- Where the player has no stone. -/
def Space (p : V) : Prop := c p = s.blank ∨ c p = s.you

/-- Blank or a stone of one of the two. -/
def OnBoard (p : V) : Prop := Space s c p ∨ c p = s.me

/-- Connected through spaces. -/
def Region (p q : V) : Prop := Chain G (Space s c) p q

/-- Next to the chain of `x`. -/
def Touches (x q : V) : Prop := ∃ y, Chain G c x y ∧ G.Adj q y

/-- The region of `p` is an eye of the chain of `x`: all its blank points are liberties, and if
the opponent may take his own stones off, all its points are. -/
def Vital (p x : V) : Prop := ∀ q, Region G s c p q → suicide ∨ c q = s.blank → Touches G c x q

def Borders (p x : V) : Prop := c x = s.me ∧ ∃ q, Region G s c p q ∧ G.Adj q x

/-- An eye that only stones of `S` border on. -/
def Eye (S : V → Prop) (p x : V) : Prop :=
  c p = s.blank ∧ Vital G s suicide c p x ∧ ∀ y, Borders G s c p y → S y

def TwoEyes (S : V → Prop) (x : V) : Prop :=
  ∃ p₁ p₂, ¬ Region G s c p₁ p₂ ∧ Eye G s suicide c S p₁ x ∧ Eye G s suicide c S p₂ x

/-- The stones of the greatest set in which every chain has two eyes. -/
def PassAlive (x : V) : Prop :=
  ∃ S : V → Prop, (∀ y, S y → c y = s.me ∧ TwoEyes G s suicide c S y) ∧ S x

/-- In a region with only living stones around. -/
def Enclosed (p : V) : Prop := Space s c p ∧ ∀ y, Borders G s c p y → PassAlive G s suicide c y

/-- A point of the region of `p` that is not next to any stone of the player. -/
def Internal (p q : V) : Prop := Region G s c p q ∧ ∀ y, G.Adj q y → c y ≠ s.me

/-- The region is too small for a living stone of the opponent. -/
def Small (p : V) : Prop := ∀ q r, Internal G s c p q → Internal G s c p r → q = r

/-- There is no stone of the opponent in the region. -/
def Clear (p : V) : Prop := ∀ q, Region G s c p q → c q ≠ s.you

/-- What belongs to the player for good: living stones and what they enclose. -/
def Owned (safe : Prop) (p : V) : Prop :=
  PassAlive G s suicide c p ∨
    Enclosed G s suicide c p ∧ (Small G s c p ∨ safe ∧ Clear G s c p) ∧ ∃ x, c x = s.me

/-- What the player surrounds as things stand. -/
def Surrounded (p : V) : Prop := Space s c p ∧ Clear G s c p ∧ ∃ x, c x = s.me

end Position

section Static

variable {G : SimpleGraph V} {s : Side κ} {suicide safe : Prop} {c c₀ : V → κ} {p q r x y v w : V}

theorem Region.refl (p : V) : Region G s c p p := Chain.refl p

theorem Region.trans (first : Region G s c p q) (second : Region G s c q r) : Region G s c p r :=
  Chain.trans first second

theorem Region.symm (region : Region G s c p q) : Region G s c q p := Chain.symm region

theorem Region.space (region : Region G s c p q) : Space s c q ↔ Space s c p := iff_of_eq (Chain.label region)

theorem Region.step (here : Space s c p) (there : Space s c q) (adjacent : G.Adj p q) : Region G s c p q :=
  Chain.single adjacent (propext (iff_of_true there here))

/-- The chains of the opponent lie inside the regions. -/
theorem Region.of_chain (space : Space s c p) (chain : Chain G c p q) : Region G s c p q := by
  refine (Chain.mem_of_closed (S := fun q => Region G s c p q ∧ c q = c p) ⟨Region.refl p, rfl⟩ ?_ chain).1
  rintro x y ⟨region, label⟩ adjacent same
  have here := region.space.mpr space
  refine ⟨region.trans (Region.step here ?_ adjacent), same.trans label⟩
  rwa [Space, same, label]

theorem Touches.of_chain (chain : Chain G c x y) (touches : Touches G c x q) : Touches G c y q := by
  obtain ⟨z, along, adjacent⟩ := touches
  exact ⟨z, chain.symm.trans along, adjacent⟩

theorem Eye.of_chain {S : V → Prop} (chain : Chain G c x y) (eye : Eye G s suicide c S p x) :
    Eye G s suicide c S p y :=
  ⟨eye.1, fun q region point => (eye.2.1 q region point).of_chain chain, eye.2.2⟩

theorem Eye.mono {S S' : V → Prop} (more : ∀ y, S y → S' y) (eye : Eye G s suicide c S p x) :
    Eye G s suicide c S' p x :=
  ⟨eye.1, eye.2.1, fun y borders => more y (eye.2.2 y borders)⟩

theorem TwoEyes.mono {S S' : V → Prop} (more : ∀ y, S y → S' y) (eyes : TwoEyes G s suicide c S x) :
    TwoEyes G s suicide c S' x := by
  obtain ⟨p₁, p₂, apart, first, second⟩ := eyes
  exact ⟨p₁, p₂, apart, first.mono more, second.mono more⟩

theorem TwoEyes.of_chain {S : V → Prop} (chain : Chain G c x y) (eyes : TwoEyes G s suicide c S x) :
    TwoEyes G s suicide c S y := by
  obtain ⟨p₁, p₂, apart, first, second⟩ := eyes
  exact ⟨p₁, p₂, apart, first.of_chain chain, second.of_chain chain⟩

theorem PassAlive.label (alive : PassAlive G s suicide c x) : c x = s.me := by
  obtain ⟨S, closed, inside⟩ := alive
  exact (closed x inside).1

theorem PassAlive.twoEyes (alive : PassAlive G s suicide c x) :
    TwoEyes G s suicide c (PassAlive G s suicide c) x := by
  obtain ⟨S, closed, inside⟩ := alive
  exact (closed x inside).2.mono fun y member => ⟨S, closed, member⟩

/-- The two eyes of a living stone are two of its liberties. -/
theorem PassAlive.liberties (alive : PassAlive G s suicide c x) :
    ∃ e₁ e₂, e₁ ≠ e₂ ∧ Liberty G s.blank c x e₁ ∧ Liberty G s.blank c x e₂ := by
  obtain ⟨p₁, p₂, apart, first, second⟩ := alive.twoEyes
  have liberty : ∀ p, Eye G s suicide c (PassAlive G s suicide c) p x → Liberty G s.blank c x p := by
    intro p eye
    obtain ⟨y, chain, adjacent⟩ := eye.2.1 p (Region.refl p) (.inr eye.1)
    exact ⟨eye.1, y, chain, adjacent.symm⟩
  refine ⟨p₁, p₂, ?_, liberty p₁ first, liberty p₂ second⟩
  rintro rfl
  exact apart (Region.refl p₁)

/-- What belongs to a player under the stricter test belongs to him under the other. -/
theorem Owned.mono {safe' : Prop} (weaker : safe → safe') (owned : Owned G s suicide c safe p) :
    Owned G s suicide c safe' p := by
  rcases owned with living | ⟨enclosed, territory, stone⟩
  · exact .inl living
  · exact .inr ⟨enclosed, territory.imp_right fun both => ⟨weaker both.1, both.2⟩, stone⟩

theorem PassAlive.of_chain (alive : PassAlive G s suicide c x) (chain : Chain G c x y) :
    PassAlive G s suicide c y := by
  refine ⟨fun z => ∃ x, PassAlive G s suicide c x ∧ Chain G c x z, ?_, x, alive, chain⟩
  rintro z ⟨x, alive, chain⟩
  refine ⟨chain.label.trans alive.label, (alive.twoEyes.of_chain chain).mono fun y living => ?_⟩
  exact ⟨y, living, Chain.refl y⟩

/-- The region of an eye has only living stones around it. -/
theorem Eye.enclosed (eye : Eye G s suicide c (PassAlive G s suicide c) p x) : Enclosed G s suicide c p :=
  ⟨.inl eye.1, eye.2.2⟩

theorem Enclosed.of_region (enclosed : Enclosed G s suicide c p) (region : Region G s c p q) :
    Enclosed G s suicide c q := by
  refine ⟨region.space.mpr enclosed.1, fun y borders => enclosed.2 y ?_⟩
  obtain ⟨label, r, inside, adjacent⟩ := borders
  exact ⟨label, r, region.trans inside, adjacent⟩

theorem Small.of_region (small : Small G s c p) (region : Region G s c p q) : Small G s c q := by
  intro x y first second
  exact small x y ⟨region.trans first.1, first.2⟩ ⟨region.trans second.1, second.2⟩

theorem Clear.of_region (clear : Clear G s c p) (region : Region G s c p q) : Clear G s c q :=
  fun x inside => clear x (region.trans inside)

/-- A blank point next to an opponent's chain is in the region of that chain. -/
theorem region_of_touches (stone : c w = s.you) (touches : Touches G c w q) (free : c q = s.blank) :
    Region G s c w q := by
  obtain ⟨z, chain, adjacent⟩ := touches
  have here : Space s c w := .inr stone
  have region := Region.of_chain here chain
  exact region.trans (Region.step (region.space.mpr here) (.inl free) adjacent.symm)

/-- A living stone of the opponent sees no stone of the player through its eyes. -/
theorem eye_clear (alive : ∀ x, c x = s.me → ∃ e, Liberty G s.blank c x e)
    (living : PassAlive G s.swap suicide c w) (inside : Region G s c p w) (enclosed : Enclosed G s suicide c p)
    (eye : Eye G s.swap suicide c (PassAlive G s.swap suicide c) q w) : Clear G s.swap c q := by
  intro x region mine
  have seen : ∀ e, c e = s.blank → Region G s.swap c q e → Region G s c p e := by
    intro e free there
    exact inside.trans (region_of_touches living.label (eye.2.1 e there (.inr free)) free)
  have space : Space s.swap c x := .inr mine
  obtain ⟨e, free, y, chain, adjacent⟩ := alive x mine
  have near := region.trans (Region.of_chain space chain)
  have here : Space s.swap c y := near.space.mpr (.inl eye.1)
  have border : Borders G s c p y :=
    ⟨chain.label.trans mine, e, seen e free (near.trans (Region.step here (.inl free) adjacent)), adjacent.symm⟩
  -- The stone at the edge is alive, and both its eyes would be in the region of `p`.
  obtain ⟨p₁, p₂, apart, first, second⟩ := (enclosed.2 y border).twoEyes
  have within : ∀ r, Eye G s suicide c (PassAlive G s suicide c) r y → Region G s c p r := by
    intro r other
    obtain ⟨z, along, next⟩ := other.2.1 r (Region.refl r) (.inr other.1)
    have far := near.trans (Region.of_chain here along)
    exact seen r other.1 (far.trans (Region.step (far.space.mpr (.inl eye.1)) (.inl other.1) next.symm))
  exact apart ((within p₁ first).symm.trans (within p₂ second))

/-- No stone of the opponent lives in a small region. -/
theorem not_passAlive_of_small (alive : ∀ x, c x = s.me → ∃ e, Liberty G s.blank c x e)
    (living : PassAlive G s.swap suicide c w) (inside : Region G s c p w) (enclosed : Enclosed G s suicide c p) :
    ¬ Small G s c p := by
  intro small
  obtain ⟨p₁, p₂, apart, first, second⟩ := living.twoEyes
  have internal : ∀ q, Eye G s.swap suicide c (PassAlive G s.swap suicide c) q w → Internal G s c p q := by
    intro q eye
    have touches := eye.2.1 q (Region.refl q) (.inr eye.1)
    refine ⟨inside.trans (region_of_touches living.label touches eye.1), fun y adjacent mine => ?_⟩
    exact eye_clear alive living inside enclosed eye y (Region.step (.inl eye.1) (.inr mine) adjacent) mine
  have same := small p₁ p₂ (internal p₁ first) (internal p₂ second)
  exact apart (same ▸ Region.refl p₁)

/-- Walking from a region to a stone of the player one meets a stone that borders on it. -/
theorem exists_borders (space : Space s c p) (stone : c x = s.me)
    (path : Relation.ReflTransGen (fun q r => G.Adj q r ∧ OnBoard s c r) p x) :
    ∃ y, Borders G s c p y := by
  by_contra none
  have stays : ∀ z, Relation.ReflTransGen (fun q r => G.Adj q r ∧ OnBoard s c r) p z →
      Region G s c p z := by
    intro z along
    induction along with
    | refl => exact Region.refl p
    | @tail q r _ step ih =>
      rcases step.2 with free | mine
      · exact ih.trans (Region.step (ih.space.mpr space) free step.1)
      · exact absurd ⟨r, mine, q, ih, step.1⟩ none
  rcases (stays x path).space.mpr space with free | theirs
  · exact s.me_ne (stone.symm.trans free)
  · exact s.apart (stone.symm.trans theirs)

/-- Every point can be reached from every other one. -/
def Joined (G : SimpleGraph V) (s : Side κ) (c : V → κ) : Prop :=
  ∀ p x, OnBoard s c p → OnBoard s c x → Relation.ReflTransGen (fun q r => G.Adj q r ∧ OnBoard s c r) p x

/-- A region that is blank as far as the opponent's own region does not reach his stones. -/
theorem blank_region (space : c p = s.blank) (none : ∀ w, Region G s c p w → ¬ Borders G s.swap c p w) (q : V)
    (region : Region G s c p q) : c q = s.blank ∧ Region G s.swap c p q := by
  refine (Chain.mem_of_closed (S := fun q => Region G s c p q ∧ c q = s.blank ∧ Region G s.swap c p q)
    ⟨Region.refl p, space, Region.refl p⟩ ?_ region).2
  rintro x y ⟨inside, free, other⟩ adjacent same
  have next : Space s c y := (iff_of_eq same).mpr (.inl free)
  have far := inside.trans (Region.step (.inl free) next adjacent)
  rcases next with blank | theirs
  · exact ⟨far, blank, other.trans (Region.step (.inl free) (.inl blank) adjacent)⟩
  · exact absurd ⟨theirs, x, other, adjacent⟩ (none y far)

/-- Where the opponent's stones are out of sight, the player's stones are in sight of the
opponent's region. -/
theorem exists_stone_swap (joined : Joined G s c) (space : c p = s.blank) (stone : ∃ x, c x = s.me)
    (blank : ∀ q, Region G s c p q → c q = s.blank ∧ Region G s.swap c p q) :
    ∃ y, Borders G s c p y ∧ Region G s.swap c p y := by
  obtain ⟨x, mine⟩ := stone
  obtain ⟨y, label, q, region, adjacent⟩ := exists_borders (.inl space) mine (joined p x (.inl (.inl space)) (.inr mine))
  obtain ⟨free, other⟩ := blank q region
  exact ⟨y, ⟨label, q, region, adjacent⟩, other.trans (Region.step (.inl free) (.inr label) adjacent)⟩

/-- A region with a living stone of the opponent is nobody's. -/
theorem not_territory (alive : ∀ x, c x = s.me → ∃ e, Liberty G s.blank c x e)
    (living : PassAlive G s.swap suicide c w) (inside : Region G s c p w) (enclosed : Enclosed G s suicide c p) :
    ¬ (Small G s c p ∨ safe ∧ Clear G s c p) := by
  rintro (small | ⟨-, clear⟩)
  · exact not_passAlive_of_small alive living inside enclosed small
  · exact clear w inside living.label

/-- Nothing belongs to both players for good. -/
theorem owned_disjoint (mine : ∀ x, c x = s.me → ∃ e, Liberty G s.blank c x e)
    (yours : ∀ x, c x = s.you → ∃ e, Liberty G s.blank c x e) (joined : Joined G s c)
    (own : Owned G s suicide c safe p) : ¬ Owned G s.swap suicide c safe p := by
  intro other
  rcases own with living | ⟨enclosed, territory, stone⟩
  · rcases other with foreign | ⟨enclosed', territory', -⟩
    · exact s.apart (living.label.symm.trans foreign.label)
    · exact not_territory yours living (Region.refl p) enclosed' territory'
  · rcases other with foreign | ⟨enclosed', territory', -⟩
    · exact not_territory mine foreign (Region.refl p) enclosed territory
    · have blank : c p = s.blank := by
        rcases enclosed.1 with free | theirs
        · exact free
        · rcases enclosed'.1 with free | ours
          · exact free
          · exact absurd (ours.symm.trans theirs) s.apart
      by_cases none : ∀ w, Region G s c p w → ¬ Borders G s.swap c p w
      · obtain ⟨y, borders, there⟩ := exists_stone_swap joined blank stone (blank_region blank none)
        exact not_territory yours (enclosed.2 y borders) there enclosed' territory'
      · push Not at none
        obtain ⟨w, region, borders⟩ := none
        exact not_territory mine (enclosed'.2 w borders) region enclosed territory

/-- Nothing is surrounded by both players. -/
theorem surrounded_disjoint (joined : Joined G s c) (own : Surrounded G s c p) : ¬ Surrounded G s.swap c p := by
  rintro ⟨space', clear', -⟩
  obtain ⟨space, clear, stone⟩ := own
  have blank : c p = s.blank := by
    rcases space with free | theirs
    · exact free
    · exact absurd theirs (clear p (Region.refl p))
  obtain ⟨y, borders, there⟩ := exists_stone_swap joined blank stone (blank_region blank fun w region borders =>
    clear w region borders.1)
  exact clear' y there borders.1

end Static

section Relabel

variable {κ' : Type*} {G : SimpleGraph V} {s : Side κ} {suicide safe : Prop} {c : V → κ} {f : κ → κ'} {p q x : V}

/-- The same two players under other labels. -/
def Side.map (s : Side κ) (f : κ → κ') (injective : Function.Injective f) : Side κ' :=
  ⟨f s.blank, f s.me, f s.you, injective.ne s.me_ne, injective.ne s.you_ne, injective.ne s.apart⟩

variable (injective : Function.Injective f)
include injective

theorem chain_map : Chain G (fun v => f (c v)) = Chain G c := by
  unfold Chain
  simp only [injective.eq_iff]

theorem region_map : Region G (s.map f injective) (fun v => f (c v)) = Region G s c := by
  unfold Region Space
  simp only [Side.map, injective.eq_iff]

theorem borders_map : Borders G (s.map f injective) (fun v => f (c v)) = Borders G s c := by
  unfold Borders
  simp only [region_map injective]
  simp only [Side.map, injective.eq_iff]

theorem eye_map : Eye G (s.map f injective) suicide (fun v => f (c v)) = Eye G s suicide c := by
  unfold Eye Vital Touches
  simp only [region_map injective, borders_map injective, chain_map injective]
  simp only [Side.map, injective.eq_iff]

/-- Life does not depend on what the labels are. -/
theorem passAlive_map : PassAlive G (s.map f injective) suicide (fun v => f (c v)) = PassAlive G s suicide c := by
  unfold PassAlive TwoEyes
  simp only [region_map injective, eye_map injective]
  simp only [Side.map, injective.eq_iff]

theorem owned_map : Owned G (s.map f injective) suicide (fun v => f (c v)) safe = Owned G s suicide c safe := by
  unfold Owned Enclosed Small Internal Clear Space
  simp only [region_map injective, borders_map injective, passAlive_map injective]
  simp only [Side.map, injective.eq_iff, ne_eq]

theorem surrounded_map : Surrounded G (s.map f injective) (fun v => f (c v)) = Surrounded G s c := by
  unfold Surrounded Clear Space
  simp only [region_map injective]
  simp only [Side.map, injective.eq_iff, ne_eq]

end Relabel

section Moves

variable {G : SimpleGraph V} {s : Side κ} {suicide : Prop} {c c₀ : V → κ} {p q x y v : V}

/-- What is left of the living stones and of their regions after some moves of the opponent. -/
structure Holds (G : SimpleGraph V) (s : Side κ) (suicide : Prop) (c₀ c : V → κ) : Prop where
  stones : ∀ x, PassAlive G s suicide c₀ x → c x = s.me
  spaces : ∀ p, Enclosed G s suicide c₀ p → Space s c p
  kept : ¬ suicide → ∀ p, Enclosed G s suicide c₀ p → c₀ p = s.you → c p = s.you
  walls : ∀ p, OnBoard s c p → OnBoard s c₀ p

theorem holds_self (G : SimpleGraph V) (s : Side κ) (suicide : Prop) (c : V → κ) : Holds G s suicide c c :=
  ⟨fun _ alive => alive.label, fun _ enclosed => enclosed.1, fun _ _ _ label => label, fun _ point => point⟩

/-- The opponent's stones do not leave a region. -/
theorem Holds.region_step (holds : Holds G s suicide c₀ c) (enclosed : Enclosed G s suicide c₀ p)
    (region : Region G s c₀ p x) (adjacent : G.Adj x y) (space : Space s c y) : Region G s c₀ p y := by
  have here := region.space.mpr enclosed.1
  rcases holds.walls y (.inl space) with there | mine
  · exact region.trans (Region.step here there adjacent)
  · have stays := holds.stones y (enclosed.2 y ⟨mine, x, region, adjacent⟩)
    rcases space with free | theirs
    · exact absurd (stays.symm.trans free) s.me_ne
    · exact absurd (stays.symm.trans theirs) s.apart

/-- An enclosed region always has a blank point. -/
theorem Holds.exists_blank (holds : Holds G s suicide c₀ c) (yours : ∀ x, c x = s.you → ∃ e, Liberty G s.blank c x e)
    (enclosed : Enclosed G s suicide c₀ p) : ∃ e, Region G s c₀ p e ∧ c e = s.blank := by
  rcases holds.spaces p enclosed with free | theirs
  · exact ⟨p, Region.refl p, free⟩
  · obtain ⟨e, free, x, chain, adjacent⟩ := yours p theirs
    have inside : Region G s c₀ p x ∧ c x = s.you := by
      refine Chain.mem_of_closed (S := fun x => Region G s c₀ p x ∧ c x = s.you) ⟨Region.refl p, theirs⟩ ?_ chain
      rintro y z ⟨region, label⟩ next same
      have label' := same.trans label
      exact ⟨holds.region_step enclosed region next (.inr label'), label'⟩
    exact ⟨e, holds.region_step enclosed inside.1 adjacent (.inl free), free⟩

theorem Holds.liberty_of_eye (holds : Holds G s suicide c₀ c)
    (yours : ∀ x, c x = s.you → ∃ e, Liberty G s.blank c x e) (living : PassAlive G s suicide c₀ x)
    (eye : Eye G s suicide c₀ (PassAlive G s suicide c₀) p x) : ∃ e, Region G s c₀ p e ∧ Liberty G s.blank c x e := by
  obtain ⟨e, region, free⟩ := holds.exists_blank yours eye.enclosed
  have point : suicide ∨ c₀ e = s.blank := by
    by_cases allowed : suicide
    · exact .inl allowed
    · right
      rcases region.space.mpr eye.enclosed.1 with before | theirs
      · exact before
      · have label := holds.kept allowed e (eye.enclosed.of_region region) theirs
        exact absurd (label.symm.trans free) s.you_ne
  obtain ⟨y, chain, adjacent⟩ := eye.2.1 e region point
  refine ⟨e, region, free, y, chain.relabel fun z path => ?_, adjacent.symm⟩
  rw [holds.stones z (living.of_chain path), (living.of_chain path).label]

/-- One move cannot take the last liberty of a living stone. -/
theorem Holds.exists_liberty (holds : Holds G s suicide c₀ c)
    (yours : ∀ x, c x = s.you → ∃ e, Liberty G s.blank c x e) (living : PassAlive G s suicide c₀ x) (v : V) :
    ∃ e, e ≠ v ∧ Liberty G s.blank c x e := by
  obtain ⟨p₁, p₂, apart, first, second⟩ := living.twoEyes
  obtain ⟨e₁, region₁, free₁⟩ := holds.liberty_of_eye yours living first
  obtain ⟨e₂, region₂, free₂⟩ := holds.liberty_of_eye yours living second
  by_cases same : e₁ = v
  · refine ⟨e₂, fun same' => apart ?_, free₂⟩
    rw [same] at region₁
    rw [same'] at region₂
    exact region₁.trans region₂.symm
  · exact ⟨e₁, same, free₁⟩

variable [DecidableEq V]

/-- What becomes of the points of a position in a move of the opponent. -/
theorem play_cases (blank : c v = s.blank) (p : V) :
    (play G s.blank s.you s.me c v p = s.blank ∧ OnBoard s c p) ∨
      (play G s.blank s.you s.me c v p = s.you ∧ Space s c p) ∨ play G s.blank s.you s.me c v p = c p := by
  have placed : removeDead G s.blank s.me (Function.update c v s.you) v = s.you :=
    removeDead_placed s.you_ne.symm s.apart.symm
  have captured : (removeDead G s.blank s.me (Function.update c v s.you) p = s.blank ∧ OnBoard s c p) ∨
      (removeDead G s.blank s.me (Function.update c v s.you) p = s.you ∧ Space s c p) ∨
        removeDead G s.blank s.me (Function.update c v s.you) p = c p := by
    by_cases here : p = v
    · rw [here]
      exact .inr (.inl ⟨placed, .inl blank⟩)
    · by_cases dead : c p = s.me ∧ ¬ ∃ e, Liberty G s.blank (Function.update c v s.you) p e
      · exact .inl ⟨removeDead_of_dead (by rw [Function.update_of_ne here, dead.1]) dead.2, .inr dead.1⟩
      · right; right
        rw [removeDead_of_alive, Function.update_of_ne here]
        intro label
        rw [Function.update_of_ne here] at label
        exact not_not.mp fun trapped => dead ⟨label, trapped⟩
  by_cases inside : Chain G (removeDead G s.blank s.me (Function.update c v s.you)) v p
  · by_cases free : ∃ e, Liberty G s.blank (removeDead G s.blank s.me (Function.update c v s.you)) v e
    · rw [play_of_alive free]
      exact captured
    · rw [play_of_dead free, if_pos inside]
      have theirs := inside.label.trans placed
      refine .inl ⟨rfl, .inl ?_⟩
      rcases captured with ⟨gone, -⟩ | ⟨-, space⟩ | same
      · exact absurd (theirs.symm.trans gone) s.you_ne
      · exact space
      · exact .inr (same.symm.trans theirs)
  · rw [play_of_not_chain inside]
    exact captured

/-- What the opponent's move leaves in place. -/
theorem Holds.play (holds : Holds G s suicide c₀ c) (yours : ∀ x, c x = s.you → ∃ e, Liberty G s.blank c x e)
    (blank : c v = s.blank)
    (legal : suicide ∨ ∃ e, Liberty G s.blank (removeDead G s.blank s.me (Function.update c v s.you)) v e) :
    Holds G s suicide c₀ (play G s.blank s.you s.me c v) := by
  have placed : removeDead G s.blank s.me (Function.update c v s.you) v = s.you :=
    removeDead_placed s.you_ne.symm s.apart.symm
  refine ⟨fun x living => ?_, fun p enclosed => ?_, fun forbidden p enclosed before => ?_, fun p point => ?_⟩
  · have label := holds.stones x living
    have apart : x ≠ v := by
      rintro rfl
      exact s.me_ne (label.symm.trans blank)
    obtain ⟨e, other, free⟩ := holds.exists_liberty yours living v
    have free' : Liberty G s.blank (Function.update c v s.you) x e := by
      refine free.relabel (fun y chain => Function.update_of_ne ?_ _ _) ?_
      · rintro rfl
        exact s.me_ne (label.symm.trans (chain.label.symm.trans blank))
      · rw [Function.update_of_ne other, free.1]
    have stays : removeDead G s.blank s.me (Function.update c v s.you) x = s.me := by
      rw [removeDead_of_alive fun _ => ⟨e, free'⟩, Function.update_of_ne apart, label]
    rw [play_of_not_chain, stays]
    intro chain
    exact s.apart (stays.symm.trans (chain.label.trans placed))
  · rcases play_cases (G := G) blank p with ⟨gone, -⟩ | ⟨theirs, -⟩ | same
    · exact .inl gone
    · exact .inr theirs
    · rw [Space, same]
      exact holds.spaces p enclosed
  · have label := holds.kept forbidden p enclosed before
    have apart : p ≠ v := by
      rintro rfl
      exact s.you_ne (label.symm.trans blank)
    have same : Function.update c v s.you p = s.you := by rw [Function.update_of_ne apart, label]
    rw [play_of_alive (legal.resolve_left forbidden), removeDead_of_ne (by rw [same]; exact s.apart.symm), same]
  · apply holds.walls
    rcases play_cases (G := G) blank p with ⟨-, before⟩ | ⟨-, before⟩ | same
    · exact before
    · exact .inl before
    · rwa [OnBoard, Space, same] at point

end Moves

end KataGo.Lib.Benson
