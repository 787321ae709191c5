import KataGo.Paired.Validation

/-! What the loop over the rows of a match collects. -/

namespace KataGo.Paired
open KataGo.Lib

@[simp] theorem issueIf_eq_nil (found : Bool) (issue : Issue) : issueIf found issue = [] ↔ found = false := by
  cases found <;> simp [issueIf]

/-- The context that the loop makes of an entry, where the entry is an object. -/
def contextOf (candidateBot : Value) (entry : Value × Nat) : Option Context :=
  match entry.1 with
  | .obj row => some (rowContext candidateBot entry.2 row)
  | _ => none

theorem scanRow_contexts (candidateBot : Value) (s : Scan) (entry : Value × Nat) :
    (scanRow candidateBot s entry).contexts = s.contexts ++ (contextOf candidateBot entry).toList := by
  unfold scanRow contextOf
  cases entry.1 with
  | obj row => simp
  | _ => simp

theorem foldl_scanRow_contexts (candidateBot : Value) (entries : List (Value × Nat)) (s : Scan) :
    (entries.foldl (scanRow candidateBot) s).contexts = s.contexts ++ entries.filterMap (contextOf candidateBot) := by
  induction entries generalizing s with
  | nil => simp
  | cons entry entries ih =>
    rw [List.foldl_cons, ih, scanRow_contexts, List.append_assoc, List.filterMap_cons]
    cases contextOf candidateBot entry <;> rfl

theorem scanRows_contexts (rows : List Value) (candidateBot : Value) :
    (scanRows rows candidateBot).contexts = rows.zipIdx.filterMap (contextOf candidateBot) := by
  simp [scanRows, foldl_scanRow_contexts]

/-- An entry in which the loop finds nothing wrong, whatever the games that it has seen. -/
def CleanEntry (candidateBot : Value) (entry : Value × Nat) : Prop :=
  ∃ row seen, entry.1 = .obj row ∧ rowIssues seen (rowContext candidateBot entry.2 row) = []

theorem scanRow_clean {candidateBot : Value} {s : Scan} {entry : Value × Nat}
    (clean : (scanRow candidateBot s entry).issues = []) : s.issues = [] ∧ CleanEntry candidateBot entry := by
  unfold scanRow at clean
  split at clean
  next row object =>
    obtain ⟨before, here⟩ := List.append_eq_nil_iff.1 clean
    exact ⟨before, row, _, object, here⟩
  next => simp at clean

theorem foldl_scanRow_clean {candidateBot : Value} (entries : List (Value × Nat)) {s : Scan}
    (clean : (entries.foldl (scanRow candidateBot) s).issues = []) :
    s.issues = [] ∧ ∀ entry ∈ entries, CleanEntry candidateBot entry := by
  induction entries generalizing s with
  | nil => exact ⟨clean, by simp⟩
  | cons entry entries ih =>
    obtain ⟨middle, rest⟩ := ih (s := scanRow candidateBot s entry) clean
    obtain ⟨before, here⟩ := scanRow_clean middle
    exact ⟨before, List.forall_mem_cons.2 ⟨here, rest⟩⟩

/-- Rows in which the validation finds nothing wrong. -/
theorem clean_of_promotionValid {rows : List Value} {candidateBot : Value} (clean : matchIssues rows candidateBot = []) :
    rows ≠ [] ∧ ∀ entry ∈ rows.zipIdx, CleanEntry candidateBot entry := by
  obtain ⟨before, entries⟩ := foldl_scanRow_clean rows.zipIdx (List.append_eq_nil_iff.1 clean).1
  refine ⟨fun none => ?_, entries⟩
  rw [if_pos none] at before
  simp at before

theorem validateAndContext_ok {rows : List Value} {candidateBot : Value} {report : Report} {contexts : List Context}
    (accepted : validateAndContext rows candidateBot = .ok (report, contexts)) :
    missingBot candidateBot = false ∧ contexts = rows.zipIdx.filterMap (contextOf candidateBot) ∧
      report.promotionValid = (matchIssues rows candidateBot).isEmpty := by
  unfold validateAndContext at accepted
  split at accepted
  · simp at accepted
  next present =>
    simp only [Except.ok.injEq, Prod.mk.injEq] at accepted
    obtain ⟨rfl, rfl⟩ := accepted
    exact ⟨by simpa using present, scanRows_contexts rows candidateBot, rfl⟩

theorem validateAndContext_clean {rows : List Value} {candidateBot : Value} (present : missingBot candidateBot = false)
    (clean : matchIssues rows candidateBot = []) :
    ∃ report, validateAndContext rows candidateBot = .ok (report, (scanRows rows candidateBot).contexts) ∧
      report.promotionValid = true :=
  ⟨_, if_neg (by rw [present]; decide), List.isEmpty_iff.2 clean⟩

end KataGo.Paired
