import KataGo.Game.Chains

/-! What the chain operations compute: removing a chain and merging two, each with the
effect on every other chain. -/

namespace KataGo.Game
open KataGo.Lib CircularList Labelling

theorem ChainData.bump_bump (d : ChainData) (m n : Int) : (d.bump m).bump n = d.bump (m + n) := by
  simp only [ChainData.bump, add_assoc]

@[simp] theorem ChainData.bump_zero (d : ChainData) : d.bump 0 = d := by simp [ChainData.bump]

namespace Board

variable {b b' : Board} {h p q e loc : Loc} {pla k : Color} {extra delta : Int}

section Liberties

theorem changeLibertiesFrom_frame (earlier rest : List Loc) (b : Board) :
    changeLibertiesFrom pla delta earlier rest b =
      { b with chainData := (changeLibertiesFrom pla delta earlier rest b).chainData } := by
  induction rest generalizing earlier b with
  | nil => rfl
  | cons a rest ih =>
    rw [changeLibertiesFrom]
    split_ifs
    · exact ih (earlier ++ [a]) (b.addLiberties (b.chainHead a) delta)
    · exact ih (earlier ++ [a]) b

theorem changeLibertiesFrom_chainData (earlier rest : List Loc) (b : Board) (h : Loc) :
    (changeLibertiesFrom pla delta earlier rest b).chainData h =
      if (∃ a ∈ rest, b.colors a = pla ∧ b.chainHead a = h) ∧
          ¬ ∃ e ∈ earlier, b.colors e = pla ∧ b.chainHead e = h then (b.chainData h).bump delta
      else b.chainData h := by
  induction rest generalizing earlier b with
  | nil => simp [changeLibertiesFrom]
  | cons a rest ih =>
    rw [changeLibertiesFrom, ih]
    -- Only the chain of `a` can be affected by this neighbour, and only if it is new.
    by_cases fresh : b.colors a = pla ∧
        ¬ earlier.any (fun e => b.colors e = pla ∧ b.chainHead e = b.chainHead a)
    · simp only [if_pos fresh]
      obtain ⟨mine, unseen⟩ := fresh
      simp only [List.any_eq_true, decide_eq_true_eq] at unseen
      by_cases same : h = b.chainHead a
      · subst same
        rw [if_neg, if_pos ⟨⟨a, by simp, mine, rfl⟩, unseen⟩]
        · exact Function.update_self ..
        · rintro ⟨-, old⟩
          exact old ⟨a, by simp, mine, rfl⟩
      · have apart : ¬ (b.colors a = pla ∧ b.chainHead a = h) := fun found => same found.2.symm
        have keep : (b.addLiberties (b.chainHead a) delta).chainData h = b.chainData h :=
          Function.update_of_ne same ..
        rw [keep]
        congr 1
        simp [addLiberties, apart, or_and_right, exists_or]
    · simp only [if_neg fresh]
      congr 1
      simp only [List.any_eq_true, decide_eq_true_eq, not_and, not_not] at fresh
      by_cases here : b.colors a = pla ∧ b.chainHead a = h
      · have seen := fresh here.1
        rw [here.2] at seen
        simp [here, seen, or_and_right, exists_or]
      · simp [here, or_and_right, exists_or]

/-- Every chain of colour `pla` next to `loc` has its counter changed once. -/
theorem changeSurroundingLiberties_chainData (b : Board) (loc : Loc) (pla : Color) (delta : Int) (h : Loc) :
    (b.changeSurroundingLiberties loc pla delta).chainData h =
      if ∃ a ∈ b.adj loc, b.colors a = pla ∧ b.chainHead a = h then (b.chainData h).bump delta
      else b.chainData h := by
  rw [changeSurroundingLiberties, changeLibertiesFrom_chainData]
  simp

theorem changeSurroundingLiberties_frame (b : Board) (loc : Loc) (pla : Color) (delta : Int) :
    b.changeSurroundingLiberties loc pla delta =
      { b with chainData := (b.changeSurroundingLiberties loc pla delta).chainData } :=
  changeLibertiesFrom_frame [] (b.adj loc) b

@[simp] theorem addLiberties_chainHead (b : Board) (g : Loc) (delta : Int) :
    (b.addLiberties g delta).chainHead = b.chainHead := rfl

@[simp] theorem addLiberties_colors (b : Board) (g : Loc) (delta : Int) :
    (b.addLiberties g delta).colors = b.colors := rfl

theorem addLiberties_chainData (b : Board) (g : Loc) (delta : Int) (h : Loc) :
    (b.addLiberties g delta).chainData h = (b.chainData h).bump (if h = g then delta else 0) := by
  by_cases same : h = g
  · subst same
    rw [if_pos rfl]
    exact Function.update_self ..
  · rw [if_neg same, ChainData.bump_zero]
    exact Function.update_of_ne same ..

theorem ChainOk.addLiberties (ok : b.ChainOk h extra) (g : Loc) (delta : Int) :
    (b.addLiberties g delta).ChainOk h (extra + if h = g then delta else 0) := by
  have libs : (b.addLiberties g delta).libs h = b.libs h := rfl
  refine ok.frame (fun _ => Iff.rfl) (fun _ _ => rfl) (fun _ _ => rfl) ?_ ?_ ?_
  · rw [addLiberties_chainData]
    rfl
  · rw [addLiberties_chainData]
    rfl
  · rw [addLiberties_chainData, libs, ChainData.bump, ok.liberties, add_assoc]

end Liberties

section Remove

variable [Zobrist]

/-- `b'` is `b` after the stones `l` of colour `k` were taken off and the opposing counters
around each of them went up. -/
structure Cleared (b b' : Board) (l : List Loc) (k : Color) : Prop where
  xSize : b'.xSize = b.xSize
  ySize : b'.ySize = b.ySize
  chainHead : b'.chainHead = b.chainHead
  nextInChain : b'.nextInChain = b.nextInChain
  koLoc : b'.koLoc = b.koLoc
  numBlackCaptures : b'.numBlackCaptures = b.numBlackCaptures
  numWhiteCaptures : b'.numWhiteCaptures = b.numWhiteCaptures
  colors : ∀ q, b'.colors q = if q ∈ l then .empty else b.colors q
  chainData : ∀ h, b'.chainData h = (b.chainData h).bump
    (l.countP fun cur => ∃ a ∈ b.adj cur, b.colors a = getOpp k ∧ b.chainHead a = h)
  posHash : b.posHash = positionHash b.xSize b.ySize b.colors →
    b'.posHash = positionHash b'.xSize b'.ySize b'.colors

theorem removeStone_colors (opp : Color) (b : Board) (cur : Loc) :
    (removeStone opp b cur).colors = Function.update b.colors cur .empty := by
  rw [removeStone, changeSurroundingLiberties_frame]
  rfl

theorem cleared_removeStone (shape : b.Shape) (stone : k.IsStone) {cur : Loc} (colour : b.colors cur = k) :
    Cleared b (removeStone (getOpp k) b cur) [cur] k := by
  have member : cur ∈ b.locs := shape.stone_mem_locs (by rw [colour]; exact stone)
  have frame := changeSurroundingLiberties_frame ((b.xorHash cur (b.colors cur)).setColor cur .empty) cur
    (getOpp k) 1
  refine ⟨by rw [removeStone, frame]; rfl, by rw [removeStone, frame]; rfl, by rw [removeStone, frame]; rfl,
    by rw [removeStone, frame]; rfl, by rw [removeStone, frame]; rfl, by rw [removeStone, frame]; rfl,
    by rw [removeStone, frame]; rfl, ?_, ?_, ?_⟩
  · intro q
    rw [removeStone_colors]
    by_cases same : q = cur <;> simp [same]
  · intro h
    rw [removeStone, changeSurroundingLiberties_chainData]
    have opposite : ∀ a, ((b.xorHash cur (b.colors cur)).setColor cur .empty).colors a = getOpp k ↔
        b.colors a = getOpp k := by
      intro a
      change Function.update b.colors cur .empty a = getOpp k ↔ _
      by_cases same : a = cur
      · subst same
        rw [Function.update_self, colour]
        exact iff_of_false stone.opp.ne_empty.symm stone.opp_ne.symm
      · rw [Function.update_of_ne same]
    simp only [opposite]
    change (if ∃ a ∈ b.adj cur, b.colors a = getOpp k ∧ b.chainHead a = h then (b.chainData h).bump 1
      else b.chainData h) = _
    split_ifs with found <;> simp [found]
  · intro hash
    rw [removeStone, frame]
    change b.posHash ^^^ Zobrist.boardHash cur (b.colors cur) =
      positionHash b.xSize b.ySize (Function.update b.colors cur .empty)
    rw [positionHash_update member, hash, stoneHash_empty, Hash128.xor_zero,
      stoneHash_of_stone (by rw [colour]; exact stone)]

theorem Cleared.cons {b₁ : Board} {cur : Loc} {l : List Loc} (stone : k.IsStone) (fresh : cur ∉ l)
    (colour : b.colors cur = k) (first : Cleared b b₁ [cur] k) (rest : Cleared b₁ b' l k) :
    Cleared b b' (cur :: l) k := by
  have opposite : ∀ a, b₁.colors a = getOpp k ↔ b.colors a = getOpp k := by
    intro a
    rw [first.colors a]
    by_cases same : a = cur
    · subst same
      rw [colour]
      simpa using iff_of_false stone.opp.ne_empty.symm stone.opp_ne.symm
    · simp [same]
  have adjacent : ∀ a, b₁.adj a = b.adj a := fun a => by rw [adj, adj, first.xSize]
  refine ⟨rest.xSize.trans first.xSize, rest.ySize.trans first.ySize, rest.chainHead.trans first.chainHead,
    rest.nextInChain.trans first.nextInChain, rest.koLoc.trans first.koLoc,
    rest.numBlackCaptures.trans first.numBlackCaptures, rest.numWhiteCaptures.trans first.numWhiteCaptures,
    ?_, ?_, fun hash => rest.posHash (first.posHash hash)⟩
  · intro q
    rw [rest.colors, first.colors]
    by_cases inside : q ∈ l
    · simp [inside]
    · by_cases same : q = cur <;> simp [inside, same]
  · intro h
    rw [rest.chainData, first.chainData, ChainData.bump_bump]
    simp only [opposite, adjacent, first.chainHead]
    rw [← List.singleton_append (l := l), List.countP_append]
    push_cast
    rfl

theorem cleared_foldl (shape : b.Shape) (stone : k.IsStone) {l : List Loc} (nodup : l.Nodup)
    (colour : ∀ q ∈ l, b.colors q = k) : Cleared b (l.foldl (removeStone (getOpp k)) b) l k := by
  induction l generalizing b with
  | nil => exact ⟨rfl, rfl, rfl, rfl, rfl, rfl, rfl, by simp, by simp, fun hash => hash⟩
  | cons cur l ih =>
    have apart := List.nodup_cons.1 nodup
    have here := colour cur (by simp)
    have first := cleared_removeStone shape stone here
    refine Cleared.cons stone apart.1 here first (ih ?_ apart.2 ?_)
    · apply shape.recolor first.xSize first.ySize
      intro p
      rw [first.colors p]
      by_cases same : p = cur
      · subst same
        simpa [here] using stone.ne_wall
      · simp [same]
    · intro q member
      have different : q ≠ cur := fun same => apart.1 (same ▸ member)
      rw [first.colors q, if_neg (by simpa using different)]
      exact colour q (by simp [member])

/-- Removing a chain takes off exactly its stones. -/
theorem removeChain_eq (shape : b.Shape) (ok : b.ChainOk h extra) (inside : b.InChain h loc) :
    ∃ b' l, b.removeChain loc = some (b', (b.chainData h).numLocs) ∧ b.Ring h l ∧
      (b.chainData h).numLocs = l.length ∧ Cleared b b' l (b.colors h) := by
  obtain ⟨t, walked, ring, size⟩ := ok.chainLocs shape inside
  refine ⟨_, loc :: t, ?_, ring, size, cleared_foldl shape ok.stone ring.nodup
    fun q member => ok.colour q ((ring.mem q).1 member)⟩
  rw [removeChain, walked, size, ok.colour loc inside]
  rfl

theorem Cleared.shape {l : List Loc} (cleared : Cleared b b' l k) (shape : b.Shape)
    (points : ∀ q ∈ l, b.colors q ≠ .wall) : b'.Shape := by
  apply shape.recolor cleared.xSize cleared.ySize
  intro p
  rw [cleared.colors p]
  split_ifs with inside
  · exact iff_of_false (by decide) (points p inside)
  · exact Iff.rfl

/-- Taking off stones of one chain leaves the record of every other chain correct, provided no
stone of their colour outside the chain stands next to them. -/
theorem Cleared.chainOk {g : Loc} {l : List Loc} (cleared : Cleared b b' l (b.colors g)) (shape : b.Shape)
    (nodup : l.Nodup) (inside : ∀ q ∈ l, b.InChain g q) (stone : (b.colors g).IsStone)
    (isolated : ∀ q ∈ l, ∀ a ∈ b.adj q, b.colors a = b.colors g → b.InChain g a)
    (ok : b.ChainOk h extra) (other : h ≠ g) : b'.ChainOk h extra := by
  have outside : ∀ q, b.InChain h q → q ∉ l := fun q found member =>
    other (found.2.symm.trans (inside q member).2)
  have members : ∀ q, b'.InChain h q ↔ b.InChain h q := by
    intro q
    rw [InChain, InChain, cleared.colors q, cleared.chainHead]
    split_ifs with member
    · exact iff_of_false (fun found => found.1.ne_empty rfl) (fun found => outside q found member)
    · exact Iff.rfl
  have shape' := cleared.shape shape fun q member => (inside q member).1.ne_wall
  -- The counter went up once for every removed stone next to the chain.
  have count : (l.countP fun cur => ∃ a ∈ b.adj cur, b.colors a = getOpp (b.colors g) ∧ b.chainHead a = h) =
      (l.toFinset.filter fun cur => ∃ a ∈ b.adj cur, b.InChain h a).card := by
    rw [List.countP_eq_length_filter, ← List.toFinset_card_of_nodup (nodup.filter _), List.toFinset_filter]
    congr 1
    ext cur
    simp only [Finset.mem_filter, List.mem_toFinset, decide_eq_true_eq, and_congr_right_iff]
    intro member
    refine exists_congr fun a => and_congr_right fun adjacent => ?_
    constructor
    · rintro ⟨opposite, head⟩
      exact ⟨by rw [opposite]; exact stone.opp, head⟩
    · rintro ⟨isStone, head⟩
      refine ⟨(stone.eq_or_eq_opp isStone).resolve_left fun same => ?_, head⟩
      exact other (head.symm.trans (isolated cur member a adjacent same).2)
  have grown : b'.libs h = b.libs h ∪ l.toFinset.filter fun cur => ∃ a ∈ b.adj cur, b.InChain h a := by
    ext e
    rw [mem_libs shape', Finset.mem_union, mem_libs shape, Finset.mem_filter, List.mem_toFinset,
      cleared.colors e]
    simp only [members, adj, cleared.xSize]
    by_cases member : e ∈ l
    · simp [member, (inside e member).1.ne_empty]
    · simp [member]
  have disjoint : Disjoint (b.libs h) (l.toFinset.filter fun cur => ∃ a ∈ b.adj cur, b.InChain h a) := by
    rw [Finset.disjoint_left]
    intro e free member
    have filled := (inside e (List.mem_toFinset.1 (Finset.mem_filter.1 member).1)).1
    exact filled.ne_empty ((mem_libs shape).1 free).1
  refine ok.frame members ?_ ?_ ?_ ?_ ?_
  · intro q found
    rw [cleared.colors q, if_neg (outside q found)]
  · intro q _
    rw [cleared.nextInChain]
  · rw [cleared.chainData]
    rfl
  · rw [cleared.chainData]
    rfl
  · rw [cleared.chainData, ChainData.bump, count, grown, Finset.card_union_of_disjoint disjoint, ok.liberties]
    push_cast
    ring

end Remove

section Merge

theorem foldl_update_apply {β : Type*} (l : List Loc) (f : Loc → β) (value : β) (q : Loc) :
    l.foldl (fun f cur => Function.update f cur value) f q = if q ∈ l then value else f q := by
  induction l generalizing f with
  | nil => simp
  | cons cur l ih =>
    rw [List.foldl_cons, ih]
    by_cases inside : q ∈ l
    · simp [inside]
    · by_cases same : q = cur <;> simp [inside, same]

theorem setHeads_chainHead (b : Board) (l : List Loc) (head q : Loc) :
    (b.setHeads l head).chainHead q = if q ∈ l then head else b.chainHead q :=
  foldl_update_apply l b.chainHead head q

/-- The merge loop moves the heads over and counts the liberties that are new to `h`. -/
theorem foldl_mergeStone (shape : b.Shape) (stone : (b.colors h).IsStone)
    (colour : ∀ q, b.InChain h q → b.colors q = b.colors h) {l : List Loc} (nodup : l.Nodup)
    (joining : ∀ q ∈ l, b.colors q = b.colors h ∧ b.chainHead q ≠ h) (n : Int) :
    l.foldl (mergeStone h) (b, n) =
      (b.setHeads l h, n + (((b.setHeads l h).libs h).card - (b.libs h).card)) := by
  induction l generalizing b n with
  | nil => simp [setHeads]
  | cons q l ih =>
    have apart := List.nodup_cons.1 nodup
    obtain ⟨same, outside⟩ := joining q (by simp)
    have isStone : (b.colors q).IsStone := by rw [same]; exact stone
    have step : mergeStone h (b, n) q = ({ b with chainHead := Function.update b.chainHead q h },
        n + (({ b with chainHead := Function.update b.chainHead q h } : Board).libs h).card -
          (b.libs h).card) := by
      rw [mergeStone, countP_new_liberties shape stone colour, card_libs_join shape isStone outside]
      push_cast
      simp only [Prod.mk.injEq, true_and]
      ring
    rw [List.foldl_cons, step, ih (b := { b with chainHead := Function.update b.chainHead q h })]
    · simp only [Prod.mk.injEq]
      refine ⟨rfl, ?_⟩
      rw [show ({ b with chainHead := Function.update b.chainHead q h } : Board).setHeads l h =
        b.setHeads (q :: l) h from rfl]
      ring
    · exact shape.recolor rfl rfl fun _ => Iff.rfl
    · exact stone
    · rintro x ⟨xStone, head⟩
      by_cases here : x = q
      · subst here
        exact same
      · exact colour x ⟨xStone, (Function.update_of_ne here ..).symm.trans head⟩
    · exact apart.2
    · intro x member
      have different : x ≠ q := fun here => apart.1 (here ▸ member)
      obtain ⟨sameX, outsideX⟩ := joining x (by simp [member])
      exact ⟨sameX, by simpa [Function.update_of_ne different] using outsideX⟩

/-- `b'` is `b` with the chain of `h₂` merged into the chain of `h₁`. -/
structure Merged (b b' : Board) (h₁ h₂ : Loc) : Prop where
  xSize : b'.xSize = b.xSize
  ySize : b'.ySize = b.ySize
  colors : b'.colors = b.colors
  koLoc : b'.koLoc = b.koLoc
  posHash : b'.posHash = b.posHash
  numBlackCaptures : b'.numBlackCaptures = b.numBlackCaptures
  numWhiteCaptures : b'.numWhiteCaptures = b.numWhiteCaptures
  chainHead : ∀ q, b'.chainHead q = if b.InChain h₂ q then h₁ else b.chainHead q
  joined : b'.ChainOk h₁ 0
  others : ∀ h extra, h ≠ h₁ → h ≠ h₂ → b.ChainOk h extra → b'.ChainOk h extra

theorem mergeInto_spec {h₁ h₂ : Loc} (shape : b.Shape) (ok₁ : b.ChainOk h₁ 0) (ok₂ : b.ChainOk h₂ 0)
    (apart : h₁ ≠ h₂) (same : b.colors h₂ = b.colors h₁) :
    ∃ b', b.mergeInto h₁ h₂ = some b' ∧ Merged b b' h₁ h₂ := by
  obtain ⟨t₂, walked, ring₂, size₂⟩ := ok₂.chainLocs shape ok₂.head_mem
  obtain ⟨t₁, -, ring₁, size₁⟩ := ok₁.chainLocs shape ok₁.head_mem
  obtain ⟨m, z, split⟩ : ∃ m z, h₂ :: t₂ = m ++ [z] :=
    ⟨_, _, (List.dropLast_append_getLast (List.cons_ne_nil h₂ t₂)).symm⟩
  have last : (h₂ :: t₂).getLast? = some z := by rw [split]; simp
  have outside : ∀ q ∈ h₂ :: t₂, b.colors q = b.colors h₁ ∧ b.chainHead q ≠ h₁ := by
    intro q member
    have inside := (ring₂.mem q).1 member
    exact ⟨(ok₂.colour q inside).trans same, by rw [inside.2]; exact apart.symm⟩
  have fold := foldl_mergeStone (b := b.addLocs h₁ (b.chainData h₂).numLocs)
    (shape.recolor rfl rfl fun _ => Iff.rfl) ok₁.stone ok₁.colour ring₂.nodup outside 0
  have linked₂ : Linked b.nextInChain (z :: m) := by
    rw [← linked_rotated (List.isRotated_concat z m), ← split]
    exact ring₂.linked
  have nextLast : b.nextInChain z = h₂ := by
    have chain := linked_cons.1 linked₂
    rw [← split, List.isChain_cons_cons] at chain
    exact chain.1
  have disjoint : ∀ q, q ∈ h₁ :: t₁ → q ∈ z :: m → False := by
    intro q first second
    have inSecond : q ∈ h₂ :: t₂ := by
      rw [split]
      simpa [or_comm] using second
    exact (outside q inSecond).2 ((ring₁.mem q).1 first).2
  have nodup₂ : (z :: m).Nodup := by
    have rotated := (List.isRotated_concat z m).nodup_iff.1
    rw [← split] at rotated
    exact rotated ring₂.nodup
  have spliced := linked_splice ring₁.linked linked₂
    (List.nodup_append.2 ⟨ring₁.nodup, nodup₂, fun x first y second equal =>
      disjoint x first (equal ▸ second)⟩)
  rw [nextLast, ← split] at spliced
  have heads : ∀ q, (b.setHeads (h₂ :: t₂) h₁).chainHead q =
      if b.InChain h₂ q then h₁ else b.chainHead q := by
    intro q
    rw [setHeads_chainHead]
    simp only [ring₂.mem q]
  have inJoined : ∀ q, (b.setHeads (h₂ :: t₂) h₁).InChain h₁ q ↔ b.InChain h₁ q ∨ b.InChain h₂ q := by
    intro q
    rw [InChain, heads q]
    split_ifs with second
    · exact iff_of_true ⟨second.1, rfl⟩ (Or.inr second)
    · simp only [second, or_false]
      exact Iff.rfl
  have form : b.mergeStones h₁ h₂ (h₂ :: t₂) z = { b.setHeads (h₂ :: t₂) h₁ with
      chainData := Function.update b.chainData h₁ ⟨(b.chainData h₁).owner,
        (b.chainData h₁).numLocs + (b.chainData h₂).numLocs,
        (b.chainData h₁).numLiberties + (((b.setHeads (h₂ :: t₂) h₁).libs h₁).card - (b.libs h₁).card)⟩
      nextInChain := Function.update (Function.update b.nextInChain z (b.nextInChain h₁)) h₁ h₂ } := by
    rw [mergeStones, fold]
    simp only [addLiberties, addLocs, setHeads, ChainData.bump, Function.update_self, Function.update_idem,
      zero_add]
    rfl
  refine ⟨b.mergeStones h₁ h₂ (h₂ :: t₂) z, by simp [mergeInto, walked, last], ?_⟩
  rw [form]
  refine ⟨rfl, rfl, rfl, rfl, rfl, rfl, rfl, heads, ?_, ?_⟩
  · refine ⟨ok₁.stone, ((inJoined h₁).2 (Or.inl ok₁.head_mem)).2,
      ⟨h₁ :: ((h₂ :: t₂) ++ t₁), ⟨?_, ?_, spliced⟩, ?_⟩, ?_, ?_, ?_⟩
    · have perm : (h₁ :: ((h₂ :: t₂) ++ t₁)).Perm ((h₁ :: t₁) ++ (h₂ :: t₂)) :=
        List.Perm.cons h₁ List.perm_append_comm
      rw [perm.nodup_iff, List.nodup_append]
      refine ⟨ring₁.nodup, ring₂.nodup, fun x first y second equal => ?_⟩
      subst equal
      exact (outside x second).2 ((ring₁.mem x).1 first).2
    · intro q
      refine Iff.trans ?_ (inJoined q).symm
      rw [← ring₁.mem q, ← ring₂.mem q]
      simp only [List.mem_cons, List.mem_append]
      tauto
    · simp only [Function.update_self, size₁, size₂, List.length_cons, List.length_append]
      push_cast
      ring
    · intro q inside
      rcases (inJoined q).1 inside with first | second
      · exact ok₁.colour q first
      · exact (ok₂.colour q second).trans same
    · simp only [Function.update_self]
      exact ok₁.owner
    · simp only [Function.update_self, ok₁.liberties]
      change _ = (((b.setHeads (h₂ :: t₂) h₁).libs h₁).card : Int) + 0
      ring
  · intro h extra first second ok
    have members : ∀ q, (b.setHeads (h₂ :: t₂) h₁).InChain h q ↔ b.InChain h q := by
      intro q
      rw [InChain, heads q]
      split_ifs with inside
      · exact iff_of_false (fun found => first found.2.symm)
          (fun found => second (found.2.symm.trans inside.2))
      · exact Iff.rfl
    refine ok.frame members (fun _ _ => rfl) ?_ ?_ ?_ ?_
    · intro q inside
      have notHead : q ≠ h₁ := by
        rintro rfl
        exact first (inside.2.symm.trans ok₁.self)
      have notLast : q ≠ z := by
        rintro rfl
        have member : q ∈ h₂ :: t₂ := by rw [split]; simp
        exact second (inside.2.symm.trans ((ring₂.mem q).1 member).2)
      simp only [Function.update_of_ne notHead, Function.update_of_ne notLast]
    · simp only [Function.update_of_ne first]
    · simp only [Function.update_of_ne first]
    · simp only [Function.update_of_ne first, ok.liberties]
      change _ = (((b.setHeads (h₂ :: t₂) h₁).libs h).card : Int) + extra
      have libs : (b.setHeads (h₂ :: t₂) h₁).libs h = b.libs h := libs_congr rfl rfl (fun _ => Iff.rfl) members
      rw [libs]

/-- Which of the two heads survives depends on the sizes; the result is one chain. -/
theorem mergeChains_spec {p₁ p₂ : Loc} (shape : b.Shape) (ok₁ : b.ChainOk (b.chainHead p₁) 0)
    (ok₂ : b.ChainOk (b.chainHead p₂) 0) (apart : b.chainHead p₁ ≠ b.chainHead p₂)
    (same : b.colors (b.chainHead p₂) = b.colors (b.chainHead p₁)) :
    ∃ b' h₁ h₂, b.mergeChains p₁ p₂ = some b' ∧ Merged b b' h₁ h₂ ∧
      ((h₁ = b.chainHead p₁ ∧ h₂ = b.chainHead p₂) ∨ (h₁ = b.chainHead p₂ ∧ h₂ = b.chainHead p₁)) := by
  have owners : (b.chainData (b.chainHead p₁)).owner = (b.chainData (b.chainHead p₂)).owner := by
    rw [ok₁.owner, ok₂.owner, same]
  by_cases smaller : (b.chainData (b.chainHead p₁)).numLocs < (b.chainData (b.chainHead p₂)).numLocs
  · obtain ⟨b', merged, spec⟩ := mergeInto_spec shape ok₂ ok₁ apart.symm same.symm
    exact ⟨b', _, _, by simp [mergeChains, apart, owners, smaller, merged], spec, Or.inr ⟨rfl, rfl⟩⟩
  · obtain ⟨b', merged, spec⟩ := mergeInto_spec shape ok₁ ok₂ apart same
    exact ⟨b', _, _, by simp [mergeChains, apart, owners, smaller, merged], spec, Or.inl ⟨rfl, rfl⟩⟩

end Merge

end Board
end KataGo.Game
