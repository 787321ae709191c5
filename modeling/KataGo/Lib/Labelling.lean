import Mathlib.Combinatorics.SimpleGraph.Basic
import Mathlib.Logic.Relation
import Mathlib.Logic.Function.Basic

/-! Connected components of the labels on a graph, the vertices with a blank label next
to them, and the capture rule of a game played by labelling vertices. -/

namespace KataGo.Lib.Labelling

variable {V κ : Type*} {G : SimpleGraph V} {c c' : V → κ} {p q r : V}

/-- `q` is in the component of `p`: a path of equal labels leads from `p` to `q`. -/
def Chain (G : SimpleGraph V) (c : V → κ) : V → V → Prop :=
  Relation.ReflTransGen fun p q => G.Adj p q ∧ c q = c p

theorem Chain.refl (p : V) : Chain G c p p := Relation.ReflTransGen.refl

theorem Chain.label (chain : Chain G c p q) : c q = c p := by
  induction chain with
  | refl => rfl
  | tail _ step ih => exact step.2.trans ih

theorem Chain.trans (first : Chain G c p q) (second : Chain G c q r) : Chain G c p r :=
  Relation.ReflTransGen.trans first second

theorem Chain.single (adjacent : G.Adj p q) (same : c q = c p) : Chain G c p q :=
  Relation.ReflTransGen.single ⟨adjacent, same⟩

theorem Chain.symm (chain : Chain G c p q) : Chain G c q p := by
  induction chain with
  | refl => exact Chain.refl _
  | tail _ step ih => exact (Chain.single step.1.symm step.2.symm).trans ih

/-- A set that contains `p` and every equally labelled neighbour of its members contains the
component of `p`. -/
theorem Chain.mem_of_closed {S : V → Prop} (start : S p)
    (closed : ∀ q a, S q → G.Adj q a → c a = c q → S a) (chain : Chain G c p q) : S q := by
  induction chain with
  | refl => exact start
  | tail _ step ih => exact closed _ _ ih step.1 step.2

/-- A component survives any relabelling that keeps the label on each of its vertices. -/
theorem Chain.relabel (keep : ∀ x, Chain G c p x → c' x = c x) (chain : Chain G c p q) :
    Chain G c' p q := by
  induction chain with
  | refl => exact Chain.refl _
  | tail path step ih =>
    refine ih.trans (Chain.single step.1 ?_)
    rw [keep _ path, keep _ (path.tail step), step.2]

/-- Components with one label only grow when more vertices get it. -/
theorem Chain.weaken {k : κ} (more : ∀ x, c x = k → c' x = k) (start : c p = k) (chain : Chain G c p q) :
    Chain G c' p q :=
  chain.relabel fun x path => by
    have label := path.label.trans start
    rw [label, more x label]

/-- The component of `p` is any set around `p` that is closed and connected. -/
theorem chain_iff {S : V → Prop} (start : S p)
    (closed : ∀ q a, S q → G.Adj q a → c a = c q → S a)
    (connected : ∀ q, S q → Chain G c p q) (q : V) : Chain G c p q ↔ S q :=
  ⟨Chain.mem_of_closed start closed, connected q⟩

/-- `e` is blank and next to the component of `p`. -/
def Liberty (G : SimpleGraph V) (blank : κ) (c : V → κ) (p e : V) : Prop :=
  c e = blank ∧ ∃ q, Chain G c p q ∧ G.Adj q e

theorem Liberty.of_chain {blank : κ} {e : V} (chain : Chain G c p q) (free : Liberty G blank c q e) :
    Liberty G blank c p e :=
  ⟨free.1, free.2.imp fun _ found => ⟨chain.trans found.1, found.2⟩⟩

/-- A liberty survives any relabelling that keeps the component and the liberty. -/
theorem Liberty.relabel {blank : κ} {e : V} (keep : ∀ x, Chain G c p x → c' x = c x) (still : c' e = blank)
    (free : Liberty G blank c p e) : Liberty G blank c' p e :=
  ⟨still, free.2.imp fun _ found => ⟨found.1.relabel keep, found.2⟩⟩

/-- Blanking vertices never takes the last liberty of a vertex that stays. -/
theorem Liberty.of_blanked {blank : κ} {e : V} (fewer : ∀ x, c' x = c x ∨ c' x = blank) (stays : c' p = c p)
    (free : Liberty G blank c p e) : ∃ e', Liberty G blank c' p e' := by
  by_contra trapped
  obtain ⟨isBlank, q, chain, adjacent⟩ := free
  -- The component loses nothing, since a vertex it lost would be a liberty.
  have path : ∀ x, Chain G c p x → Chain G c' p x := by
    intro x along
    induction along with
    | refl => exact Chain.refl p
    | @tail y z before step ih =>
      have labelY : c' y = c y := by rw [ih.label, stays, Chain.label before]
      rcases fewer z with same | gone
      · exact ih.trans (Chain.single step.1 (by rw [same, labelY, step.2]))
      · exact absurd ⟨z, gone, y, ih, step.1⟩ trapped
  refine trapped ⟨e, ?_, q, path q chain, adjacent⟩
  exact (fewer e).elim (fun same => same.trans isBlank) id

/-- A component without liberties, once blanked, is a whole blank component, provided that the
other labels around it were kept; and its old label does not border on it. -/
theorem blanked_region {blank : κ} (solid : c p ≠ blank) (dead : ¬ ∃ e, Liberty G blank c p e)
    (blanked : ∀ q, Chain G c p q → c' q = blank) (others : ∀ x, c x ≠ blank → c x ≠ c p → c' x = c x) :
    (∀ q, Chain G c' p q ↔ Chain G c p q) ∧ ∀ q, Chain G c p q → ∀ a, G.Adj q a → c' a ≠ c p := by
  have border : ∀ q, Chain G c p q → ∀ a, G.Adj q a → ¬ Chain G c p a → c a ≠ blank ∧ c a ≠ c p := by
    intro q chain a adjacent outside
    exact ⟨fun free => dead ⟨a, free, q, chain, adjacent⟩,
      fun same => outside (chain.trans (Chain.single adjacent (same.trans chain.label.symm)))⟩
  refine ⟨fun q => chain_iff (Chain.refl p) ?_ ?_ q, ?_⟩
  · intro q a chain adjacent same
    by_contra outside
    obtain ⟨filled, other⟩ := border q chain a adjacent outside
    rw [others a filled other, blanked q chain] at same
    exact filled same
  · intro q chain
    refine (Chain.mem_of_closed (S := fun q => Chain G c p q ∧ Chain G c' p q) ⟨Chain.refl p, Chain.refl p⟩
      ?_ chain).2
    rintro x a ⟨before, after⟩ adjacent same
    have next := before.trans (Chain.single adjacent same)
    exact ⟨next, after.trans (Chain.single adjacent (by rw [blanked a next, blanked x before]))⟩
  · intro q chain a adjacent same
    by_cases inside : Chain G c p a
    · rw [blanked a inside] at same
      exact solid same.symm
    · obtain ⟨filled, other⟩ := border q chain a adjacent inside
      rw [others a filled other] at same
      exact other same

section Cleared

/-- Every vertex of `S` is blanked, `S` consists of whole components labelled `k`, and the
other labels stay. -/
structure Cleared (G : SimpleGraph V) (blank k : κ) (c c' : V → κ) (S : V → Prop) : Prop where
  whole : ∀ x y, S x → Chain G c x y → S y
  label : ∀ x, S x → c x = k
  blanked : ∀ x, S x → c' x = blank
  kept : ∀ x, ¬ S x → c' x = c x
  solid : blank ≠ k

namespace Cleared

variable {blank k : κ} {S : V → Prop} {e : V}

theorem label_eq (cleared : Cleared G blank k c c' S) (label : c' p = k) : c p = k ∧ ¬ S p := by
  have outside : ¬ S p := fun inside => cleared.solid ((cleared.blanked p inside).symm.trans label)
  exact ⟨(cleared.kept p outside).symm.trans label, outside⟩

/-- The components that stay are the same as before. -/
theorem chain_iff (cleared : Cleared G blank k c c' S) (label : c' p = k) : Chain G c' p q ↔ Chain G c p q := by
  refine ⟨Chain.weaken (fun x same => (cleared.label_eq same).1) label, Chain.relabel fun x path => ?_⟩
  exact cleared.kept x fun inside => (cleared.label_eq label).2 (cleared.whole x p inside path.symm)

/-- They gain no liberty, since a removed neighbour with their label would have taken them along. -/
theorem liberty_iff (cleared : Cleared G blank k c c' S) (label : c' p = k) :
    Liberty G blank c' p e ↔ Liberty G blank c p e := by
  obtain ⟨before, outside⟩ := cleared.label_eq label
  constructor
  · rintro ⟨free, q, path, adjacent⟩
    have path' := (cleared.chain_iff label).1 path
    refine ⟨?_, q, path', adjacent⟩
    by_cases inside : S e
    · have back : Chain G c e q := Chain.single adjacent.symm (by
        rw [path'.label, before, cleared.label e inside])
      exact absurd (cleared.whole e p inside (back.trans path'.symm)) outside
    · rw [← cleared.kept e inside, free]
  · rintro ⟨free, q, path, adjacent⟩
    refine ⟨?_, q, (cleared.chain_iff label).2 path, adjacent⟩
    rw [cleared.kept e fun inside => cleared.solid (free.symm.trans (cleared.label e inside)), free]

end Cleared
end Cleared

section Play
open scoped Classical

/-- Blank every vertex labelled `k` whose component has no blank neighbour. -/
noncomputable def removeDead (G : SimpleGraph V) (blank k : κ) (c : V → κ) : V → κ :=
  fun p => if c p = k ∧ ¬ ∃ e, Liberty G blank c p e then blank else c p

variable [DecidableEq V]

/-- Place `me` on `v`, remove the components of `you` without blank neighbours, and then
the component of `v` if it has none either. -/
noncomputable def play (G : SimpleGraph V) (blank me you : κ) (c : V → κ) (v : V) : V → κ :=
  let captured := removeDead G blank you (Function.update c v me)
  if ∃ e, Liberty G blank captured v e then captured
  else fun p => if Chain G captured v p then blank else captured p

variable {blank me you k : κ} {v : V}

omit [DecidableEq V] in
theorem removeDead_of_dead (label : c p = k) (dead : ¬ ∃ e, Liberty G blank c p e) :
    removeDead G blank k c p = blank := if_pos ⟨label, dead⟩

omit [DecidableEq V] in
theorem removeDead_of_alive (alive : c p = k → ∃ e, Liberty G blank c p e) : removeDead G blank k c p = c p :=
  if_neg fun found => found.2 (alive found.1)

omit [DecidableEq V] in
theorem removeDead_of_ne (other : c p ≠ k) : removeDead G blank k c p = c p :=
  removeDead_of_alive fun label => absurd label other

omit [DecidableEq V] in
theorem removeDead_eq_iff {j : κ} (notBlank : blank ≠ j) (other : j ≠ k) :
    removeDead G blank k c p = j ↔ c p = j := by
  unfold removeDead
  split_ifs with dead
  · exact iff_of_false notBlank fun label => other (label.symm.trans dead.1)
  · exact Iff.rfl

theorem play_of_alive (alive : ∃ e, Liberty G blank (removeDead G blank you (Function.update c v me)) v e) :
    play G blank me you c v = removeDead G blank you (Function.update c v me) := if_pos alive

theorem play_of_dead (dead : ¬ ∃ e, Liberty G blank (removeDead G blank you (Function.update c v me)) v e) :
    play G blank me you c v p =
      if Chain G (removeDead G blank you (Function.update c v me)) v p then blank
      else removeDead G blank you (Function.update c v me) p := congrFun (if_neg dead) p

/-- The last step of a move keeps every vertex outside the component of `v`. -/
theorem play_of_not_chain (outside : ¬ Chain G (removeDead G blank you (Function.update c v me)) v p) :
    play G blank me you c v p = removeDead G blank you (Function.update c v me) p := by
  by_cases alive : ∃ e, Liberty G blank (removeDead G blank you (Function.update c v me)) v e
  · rw [play_of_alive alive]
  · rw [play_of_dead alive, if_neg outside]

theorem play_blank (free : c p = blank) (apart : p ≠ v) : play G blank me you c v p = blank := by
  have captured : removeDead G blank you (Function.update c v me) p = blank := by
    unfold removeDead
    split_ifs
    · rfl
    · rw [Function.update_of_ne apart, free]
  unfold play
  split_ifs <;> simp [captured]

/-- A move after which everything still has liberties only places its stone. -/
theorem play_eq_update (opponents : ∀ p, Function.update c v me p = you →
      ∃ e, Liberty G blank (Function.update c v me) p e)
    (own : ∃ e, Liberty G blank (Function.update c v me) v e) :
    play G blank me you c v = Function.update c v me := by
  have captured : removeDead G blank you (Function.update c v me) = Function.update c v me :=
    funext fun p => removeDead_of_alive (opponents p)
  rw [play_of_alive (by rw [captured]; exact own), captured]

section Alive

variable (meBlank : blank ≠ me) (youBlank : blank ≠ you) (apart : me ≠ you) (free : c v = blank)
include meBlank apart

theorem removeDead_placed : removeDead G blank you (Function.update c v me) v = me :=
  (removeDead_eq_iff meBlank apart).2 (Function.update_self ..)

include youBlank in
/-- After a move the opponent's components have liberties. -/
theorem play_alive_you (label : play G blank me you c v p = you) :
    ∃ e, Liberty G blank (play G blank me you c v) p e := by
  have placed := removeDead_placed (G := G) (c := c) (v := v) meBlank apart
  have outside : ∀ x, Function.update c v me x = you →
      ¬ Chain G (removeDead G blank you (Function.update c v me)) v x := by
    intro x other chain
    have same := chain.label.trans placed
    rw [removeDead_eq_iff meBlank apart, other] at same
    exact apart same.symm
  have captured : removeDead G blank you (Function.update c v me) p = you := by
    by_cases inside : Chain G (removeDead G blank you (Function.update c v me)) v p
    · exfalso
      have mine := inside.label.trans placed
      by_cases alive : ∃ e, Liberty G blank (removeDead G blank you (Function.update c v me)) v e
      · rw [play_of_alive alive, mine] at label
        exact apart label
      · rw [play_of_dead alive, if_pos inside] at label
        exact youBlank label
    · rwa [play_of_not_chain inside] at label
  have before : Function.update c v me p = you ∧ ∃ e, Liberty G blank (Function.update c v me) p e := by
    unfold removeDead at captured
    split_ifs at captured with dead
    · exact absurd captured youBlank
    · exact ⟨captured, by_contra fun none => dead ⟨captured, none⟩⟩
  obtain ⟨placedLabel, e, liberty⟩ := before
  refine ⟨e, liberty.relabel ?_ ?_⟩
  · intro x chain
    have labelX := chain.label.trans placedLabel
    rw [play_of_not_chain (outside x labelX),
      removeDead_of_alive fun _ => ⟨e, liberty.of_chain chain.symm⟩]
  · have notPlaced : e ≠ v := by
      rintro rfl
      exact meBlank (liberty.1.symm.trans (Function.update_self ..))
    refine play_blank ?_ notPlaced
    rw [← liberty.1, Function.update_of_ne notPlaced]

include free

/-- After a move the mover's components have liberties. -/
theorem play_alive_me (alive : ∀ x, c x = me → ∃ e, Liberty G blank c x e)
    (label : play G blank me you c v p = me) : ∃ e, Liberty G blank (play G blank me you c v) p e := by
  by_cases inside : Chain G (removeDead G blank you (Function.update c v me)) v p
  · by_cases free : ∃ e, Liberty G blank (removeDead G blank you (Function.update c v me)) v e
    · rw [play_of_alive free]
      exact free.imp fun e liberty => liberty.of_chain inside.symm
    · rw [play_of_dead free, if_pos inside] at label
      exact absurd label meBlank
  · have placed := removeDead_placed (G := G) (c := c) (v := v) meBlank apart
    rw [play_of_not_chain inside, removeDead_eq_iff meBlank apart] at label
    have notPlaced : ∀ x, c x = me → x ≠ v := by
      rintro x mine rfl
      exact meBlank (free.symm.trans mine)
    have old : c p = me := by
      rwa [Function.update_of_ne] at label
      rintro rfl
      exact inside (Chain.refl _)
    have captured : ∀ x, c x = me → removeDead G blank you (Function.update c v me) x = me := by
      intro x mine
      rw [removeDead_eq_iff meBlank apart, Function.update_of_ne (notPlaced x mine), mine]
    obtain ⟨e, liberty⟩ := alive p old
    have outside : ∀ x, Chain G c p x → ¬ Chain G (removeDead G blank you (Function.update c v me)) v x :=
      fun x chain found => inside (found.trans (Chain.symm (chain.weaken captured old)))
    refine ⟨e, liberty.relabel ?_ ?_⟩
    · intro x chain
      have labelX := chain.label.trans old
      rw [play_of_not_chain (outside x chain), captured x labelX, labelX]
    · refine play_blank liberty.1 ?_
      rintro rfl
      obtain ⟨-, q, chain, adjacent⟩ := liberty
      refine outside q chain (Chain.single adjacent.symm ?_)
      rw [captured q (chain.label.trans old), placed]

end Alive

end Play

end KataGo.Lib.Labelling
