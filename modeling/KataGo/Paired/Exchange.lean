import KataGo.Paired.Scan

/-! The two bots of a match exchange their roles: what the validation then reads from the same rows. -/

namespace KataGo.Paired
open KataGo.Lib

/-- The game is between the two bots: each has one of the colours, and only that one. -/
def GameBetween (a b : Value) (row : Row) : Prop :=
  let black := Json.get row "blackBot"
  let white := Json.get row "whiteBot"
  (sameJson black a = true ∧ sameJson white a = false ∧ sameJson black b = false ∧ sameJson white b = true) ∨
    (sameJson black a = false ∧ sameJson white a = true ∧ sameJson black b = true ∧ sameJson white b = false)

namespace Context

/-- The context of the same game with the other bot as the candidate. -/
def exchanged (bot : Value) (c : Context) : Context :=
  { c with
    candidateIsBlack := c.candidateIsWhite
    candidateIsWhite := c.candidateIsBlack
    candidateColor := if c.candidateIsWhite then some "B" else if c.candidateIsBlack then some "W" else none
    candidateBot := bot
    referenceBot := if c.candidateIsWhite then c.whiteBot else if c.candidateIsBlack then c.blackBot else .null
    outcome := c.outcome.map Neg.neg
    candidateMargin := c.candidateMargin.map Neg.neg }

/-- The candidate has one colour, and the fields that follow from it. -/
structure Colored (c : Context) : Prop where
  one : c.candidateIsBlack = !c.candidateIsWhite
  color : c.candidateColor = some (if c.candidateIsBlack then "B" else "W")
  reference : c.referenceBot = if c.candidateIsBlack then c.whiteBot else c.blackBot

end Context

section Row

variable {a b : Value} {row : Row} {index : Nat}

theorem GameBetween.black (between : GameBetween a b row) :
    sameJson (Json.get row "blackBot") b = sameJson (Json.get row "whiteBot") a := by
  rcases between with ⟨_, white, black, _⟩ | ⟨_, white, black, _⟩ <;> rw [white, black]

theorem GameBetween.white (between : GameBetween a b row) :
    sameJson (Json.get row "whiteBot") b = sameJson (Json.get row "blackBot") a := by
  rcases between with ⟨black, _, _, white⟩ | ⟨black, _, _, white⟩ <;> rw [white, black]

theorem GameBetween.one (between : GameBetween a b row) :
    sameJson (Json.get row "blackBot") a = !sameJson (Json.get row "whiteBot") a := by
  rcases between with ⟨black, white, _, _⟩ | ⟨black, white, _, _⟩ <;> rw [white, black] <;> rfl

theorem outcomeOf_exchanged (noResult turnLimit : Bool) (winner : Option String) {black white : Bool}
    (one : black = !white) :
    outcomeOf noResult turnLimit winner white black = (outcomeOf noResult turnLimit winner black white).map Neg.neg := by
  subst one
  unfold outcomeOf
  by_cases none : noResult
  · simp [none]
  · by_cases limit : turnLimit
    · simp [none, limit]
    · by_cases draw : winner = some "draw"
      · simp [none, limit, draw]
      · by_cases named : winner = some "B" ∨ winner = some "W"
        · rcases named with rfl | rfl <;> cases white <;> simp [none, limit]
        · simp [none, limit, draw, named]

theorem marginOf_exchanged (score : Option ℚ) {black white : Bool} (one : black = !white) :
    marginOf score white black = (marginOf score black white).map Neg.neg := by
  subst one
  cases score <;> cases white <;> simp [marginOf]

theorem rowContext_exchanged (between : GameBetween a b row) :
    rowContext b index row = (rowContext a index row).exchanged b := by
  simp only [rowContext, Context.exchanged]
  rw [between.black, between.white, outcomeOf_exchanged _ _ _ between.one, marginOf_exchanged _ between.one]
  rfl

theorem rowContext_colored (between : GameBetween a b row) : (rowContext a index row).Colored := by
  have one := between.one
  refine ⟨one, ?_, ?_⟩ <;> simp only [rowContext, one] <;> cases sameJson (Json.get row "whiteBot") a <;> rfl

theorem Context.Colored.exchanged {c : Context} (colored : c.Colored) (bot : Value) : (c.exchanged bot).Colored := by
  obtain ⟨one, color, reference⟩ := colored
  refine ⟨?_, ?_, ?_⟩ <;> simp only [Context.exchanged, one] <;> cases c.candidateIsWhite <;> rfl

/-- What is wrong with a row does not depend on the roles. -/
theorem rowIssues_exchanged (seen : List (String × Nat)) (bot : Value) (c : Context) :
    rowIssues seen (c.exchanged bot) = rowIssues seen c := by
  have unresolved : (c.exchanged bot).outcome.isNone = c.outcome.isNone := by
    simp [Context.exchanged]
  have colors : ((c.exchanged bot).candidateIsBlack == (c.exchanged bot).candidateIsWhite) =
      (c.candidateIsBlack == c.candidateIsWhite) := by
    simp [Context.exchanged, Bool.beq_comm]
  simp only [rowIssues, resultIssues, botIssues, unresolved, colors]
  rfl

end Row

section Scan

variable {a b : Value}

/-- The two loops, over the same rows with either bot as the candidate, at the same place. -/
structure Parallel (b : Value) (s t : Scan) : Prop where
  issues : t.issues = s.issues
  contexts : t.contexts = s.contexts.map (Context.exchanged b)
  seen : t.seenGameIds = s.seenGameIds

theorem Parallel.step {s t : Scan} (parallel : Parallel b s t) {entry : Value × Nat}
    (between : ∀ row, entry.1 = .obj row → GameBetween a b row) : Parallel b (scanRow a s entry) (scanRow b t entry) := by
  obtain ⟨value, i⟩ := entry
  unfold scanRow
  cases value with
  | obj row =>
    have exchanged : rowContext b i row = (rowContext a i row).exchanged b := rowContext_exchanged (between row rfl)
    refine ⟨?_, ?_, ?_⟩
    · simp only [exchanged, rowIssues_exchanged, parallel.issues, parallel.seen]
    · simp only [exchanged, parallel.contexts, List.map_append, List.map_cons, List.map_nil]
    · simp only [exchanged, parallel.seen]
      rfl
  | _ => exact ⟨by rw [parallel.issues], parallel.contexts, parallel.seen⟩

theorem Parallel.foldl (entries : List (Value × Nat)) {s t : Scan} (parallel : Parallel b s t)
    (between : ∀ entry ∈ entries, ∀ row, entry.1 = .obj row → GameBetween a b row) :
    Parallel b (entries.foldl (scanRow a) s) (entries.foldl (scanRow b) t) := by
  induction entries generalizing s t with
  | nil => exact parallel
  | cons entry entries ih =>
    obtain ⟨here, rest⟩ := List.forall_mem_cons.1 between
    exact ih (parallel.step here) rest

theorem scanRows_parallel {rows : List Value} (between : ∀ row, .obj row ∈ rows → GameBetween a b row) :
    Parallel b (scanRows rows a) (scanRows rows b) := by
  refine Parallel.foldl rows.zipIdx ⟨rfl, rfl, rfl⟩ fun entry member row object => between row ?_
  rw [← object]
  exact List.mem_of_getElem? (List.mem_zipIdx_iff_getElem?.1 member)

theorem pairIds_exchanged (contexts : List Context) :
    pairIds (contexts.map (Context.exchanged b)) = pairIds contexts := by
  rw [pairIds, pairIds, List.filterMap_map]
  rfl

theorem pairMembers_exchanged (contexts : List Context) (pairId : String) :
    pairMembers (contexts.map (Context.exchanged b)) pairId = (pairMembers contexts pairId).map (Context.exchanged b) := by
  rw [pairMembers, pairMembers, List.filter_map]
  rfl

/-- The candidate plays both colours in the pair. -/
theorem pairColors_iff {first second : Context} (one : first.Colored) (two : second.Colored) :
    ([first, second].filterMap Context.candidateColor).insertionSort (· ≤ ·) = ["B", "W"] ↔
      first.candidateIsBlack = !second.candidateIsBlack := by
  simp only [List.filterMap_cons, one.color, two.color, List.filterMap_nil]
  cases first.candidateIsBlack <;> cases second.candidateIsBlack <;> decide

/-- A pair that is well formed for one of the bots is so for the other. -/
theorem memberIssues_exchanged {pairId : String} {first second : Context} (one : first.Colored) (two : second.Colored)
    (clean : memberIssues pairId first second = []) :
    memberIssues pairId (first.exchanged b) (second.exchanged b) = [] := by
  have one' := one.exchanged b
  have two' := two.exchanged b
  simp only [memberIssues, List.append_eq_nil_iff, issueIf_eq_nil, ne_eq, decide_eq_false_iff_not, not_not,
    Bool.not_eq_false', pairColors_iff one two, pairColors_iff one' two', Bool.and_eq_true] at clean ⊢
  obtain ⟨⟨⟨⟨⟨schedule, position⟩, colors⟩, reversed⟩, -⟩, seeds⟩ := clean
  refine ⟨⟨⟨⟨⟨schedule, position⟩, ?_⟩, reversed⟩, ?_⟩, seeds⟩
  · show first.candidateIsWhite = !second.candidateIsWhite
    rw [one.one, two.one, Bool.not_not, Bool.not_eq_eq_eq_not] at colors
    exact colors
  · -- the other bot's opponent is the candidate, whom the reversed pair names twice
    rw [one'.reference, two'.reference]
    show sameJson (if first.candidateIsWhite then first.whiteBot else first.blackBot)
      (if second.candidateIsWhite then second.whiteBot else second.blackBot) = true
    rw [one.one, two.one, Bool.not_not, Bool.not_eq_eq_eq_not] at colors
    rw [colors]
    cases second.candidateIsWhite
    · exact reversed.2
    · exact reversed.1

theorem pairIssues_exchanged {pairId : String} {members : List Context} (colored : ∀ c ∈ members, c.Colored)
    (clean : pairIssues pairId members = []) : pairIssues pairId (members.map (Context.exchanged b)) = [] := by
  unfold pairIssues at clean
  split at clean
  next first second =>
    exact memberIssues_exchanged (colored first (by simp)) (colored second (by simp)) clean
  next => split at clean <;> simp at clean

/-- Only a bot that is missing is the same as one that is missing. -/
theorem missingBot_of_same {v bot : Value} (same : sameJson v bot = true) (missing : missingBot bot = true) :
    missingBot v = true := by
  cases bot with
  | null =>
    cases v <;> simp [sameJson, Json.isNull, Json.isStr, Json.number] at same ⊢
    rfl
  | str s =>
    cases v <;> simp [sameJson, Json.isNull, Json.isStr, Json.number] at same
    subst same
    exact missing
  | _ => cases missing

theorem bots_present {row : Row} {index : Nat} {seen : List (String × Nat)}
    (clean : rowIssues seen (rowContext a index row) = []) :
    missingBot (Json.get row "blackBot") = false ∧ missingBot (Json.get row "whiteBot") = false := by
  simp only [rowIssues, botIssues, List.append_eq_nil_iff, issueIf_eq_nil, Bool.or_eq_false_iff] at clean
  exact clean.1.1.2.1.1

/-- The other bot is not missing: it plays in the first row. -/
theorem other_present {rows : List Value} (between : ∀ row, .obj row ∈ rows → GameBetween a b row)
    (clean : matchIssues rows a = []) : missingBot b = false := by
  obtain ⟨some_, entries⟩ := clean_of_promotionValid clean
  obtain ⟨value, rest, rfl⟩ := List.exists_cons_of_ne_nil some_
  obtain ⟨row, seen, object, nothing⟩ := entries (value, 0) (List.mem_cons_self ..)
  have present := bots_present nothing
  rw [← Bool.not_eq_true]
  intro missing
  rcases between row (object ▸ List.mem_cons_self ..) with ⟨-, -, -, white⟩ | ⟨-, -, black, -⟩
  · exact absurd (missingBot_of_same white missing) (by rw [present.2]; decide)
  · exact absurd (missingBot_of_same black missing) (by rw [present.1]; decide)

theorem contexts_colored {rows : List Value} (between : ∀ row, .obj row ∈ rows → GameBetween a b row) :
    ∀ c ∈ (scanRows rows a).contexts, c.Colored := by
  intro c member
  rw [scanRows_contexts] at member
  obtain ⟨⟨value, i⟩, entry, context⟩ := List.mem_filterMap.1 member
  cases value with
  | obj row =>
    simp only [contextOf, Option.some.injEq] at context
    subst context
    exact rowContext_colored (between row (List.mem_of_getElem? (List.mem_zipIdx_iff_getElem?.1 entry)))
  | _ => cases context

theorem matchIssues_exchanged {rows : List Value} (between : ∀ row, .obj row ∈ rows → GameBetween a b row)
    (clean : matchIssues rows a = []) : matchIssues rows b = [] := by
  have parallel := scanRows_parallel between
  obtain ⟨loop, pairs⟩ := List.append_eq_nil_iff.1 clean
  rw [List.flatMap_eq_nil_iff] at pairs
  refine List.append_eq_nil_iff.2 ⟨parallel.issues.trans loop, List.flatMap_eq_nil_iff.2 fun pairId member => ?_⟩
  rw [parallel.contexts, pairIds_exchanged] at member
  rw [parallel.contexts, pairMembers_exchanged]
  exact pairIssues_exchanged (fun c inside => contexts_colored between c (List.mem_of_mem_filter inside)) (pairs pairId member)

/-- Rows that are valid for one of the bots are valid for the other, and the contexts of the games
are exchanged. -/
theorem validateAndContext_exchanged {rows : List Value} {report : Report} {contexts : List Context}
    (between : ∀ row, .obj row ∈ rows → GameBetween a b row)
    (accepted : validateAndContext rows a = .ok (report, contexts)) (valid : report.promotionValid = true) :
    ∃ report', validateAndContext rows b = .ok (report', contexts.map (Context.exchanged b)) ∧
      report'.promotionValid = true := by
  obtain ⟨-, rfl, verdict⟩ := validateAndContext_ok accepted
  have clean := List.isEmpty_iff.1 (verdict ▸ valid)
  rw [← scanRows_contexts, ← (scanRows_parallel between).contexts]
  exact validateAndContext_clean (other_present between clean) (matchIssues_exchanged between clean)

end Scan

end KataGo.Paired
