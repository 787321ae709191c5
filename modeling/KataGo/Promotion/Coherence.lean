import KataGo.Promotion.Provenance

/-! The champion and its current generation. The generation is looked up anew by each
rollback, and the lookup may find none; and a rollback that was started may end in
quarantine, with the generation still the current one. -/

namespace KataGo.Promotion
open KataGo.Lib

variable {F : Type} {b b' b₁ : RegistryBuilder} {e : PromotionEvent F} {log : List (PromotionEvent F)}
  {id champion : String} {generation : GenerationRecord}

theorem latest_mem {generations : List GenerationRecord} (found : latest generations = some generation) :
    generation ∈ generations := by
  cases generations with
  | nil => cases found
  | cons first rest =>
    cases found
    suffices kept : ∀ (rest : List GenerationRecord) (best : GenerationRecord),
        rest.foldl (fun best item => if best.lastSequence < item.lastSequence then item else best) best ∈
          best :: rest from kept rest first
    intro rest
    induction rest with
    | nil =>
      intro best
      exact List.mem_cons_self
    | cons item rest ih =>
      intro best
      rw [List.foldl_cons]
      split
      · exact List.mem_cons_of_mem _ (ih item)
      · rcases List.mem_cons.mp (ih best) with same | later
        · rw [same]
          exact List.mem_cons_self
        · exact List.mem_cons_of_mem _ (List.mem_cons_of_mem _ later)

theorem latest_eq_none_iff {generations : List GenerationRecord} : latest generations = none ↔ generations = [] := by
  cases generations with
  | nil => simp [latest]
  | cons first rest => simp [latest]

/-- A generation of the champion that is active. -/
def RegistryBuilder.HasActive (b : RegistryBuilder) (champion : String) : Prop :=
  ∃ id generation, b.generations.get id = some generation ∧ generation.candidateHash = champion ∧
    generation.state = .active

theorem activeGenerationFor_eq_none_iff : b.activeGenerationFor champion = none ↔ ¬b.HasActive champion := by
  rw [RegistryBuilder.activeGenerationFor, Option.map_eq_none_iff, latest_eq_none_iff, List.filter_eq_nil_iff]
  constructor
  · rintro absent ⟨id, generation, present, candidate, active⟩
    exact absent generation (Dict.mem_values_iff.mpr ⟨id, present⟩) (by simp [candidate, active])
  · intro absent generation member found
    obtain ⟨id, present⟩ := Dict.mem_values_iff.mp member
    simp only [decide_eq_true_eq] at found
    exact absent ⟨id, generation, present, found.1, found.2⟩

/-- The states that the current generation can be in. -/
def GenerationState.Installed (state : GenerationState) : Prop :=
  state = .active ∨ state = .rollbackPending ∨ state = .quarantined

structure Coherent (b : RegistryBuilder) : Prop where
  ids : ∀ id generation, b.generations.get id = some generation → generation.generationId = id
  current : ∀ id, b.currentGenerationId = some id → ∃ generation, b.generations.get id = some generation ∧
    b.currentChampionHash = some generation.candidateHash ∧ generation.state.Installed

theorem Coherent.activeGenerationFor (coherent : Coherent b) (found : b.activeGenerationFor champion = some id) :
    ∃ generation, b.generations.get id = some generation ∧ generation.candidateHash = champion ∧
      generation.state = .active := by
  obtain ⟨generation, best, rfl⟩ := Option.map_eq_some_iff.mp found
  obtain ⟨member, holds⟩ := List.mem_filter.mp (latest_mem best)
  obtain ⟨id, present⟩ := Dict.mem_values_iff.mp member
  simp only [decide_eq_true_eq] at holds
  refine ⟨generation, ?_, holds.1, holds.2⟩
  rw [coherent.ids id generation present]
  exact present

theorem restoreAfter_rolledBack {restore : Option String}
    (restored : RegistryBuilder.restoreAfter generation .rolledBack e = .ok restore) :
    restore = generation.previousChampionHash := by
  simp only [RegistryBuilder.restoreAfter, reduceCtorEq, or_true, if_true, bind_eq_ok, require_eq_ok,
    exists_const] at restored
  obtain ⟨supplied, -, same, -, result⟩ := restored
  cases result
  exact same

theorem championAfter_rolledBack {restore next current : Option String}
    (decided : b.championAfter generation .rolledBack id restore = .ok (next, current)) :
    next = restore ∧ current = restore.bind b.activeGenerationFor := by
  simp only [RegistryBuilder.championAfter, reduceCtorEq, if_false, if_true, bind_eq_ok, require_eq_ok,
    exists_const] at decided
  obtain ⟨-, result⟩ := decided
  cases result
  exact ⟨rfl, rfl⟩

theorem state_before_rolledBack {state : GenerationState} (legal : GenerationState.rolledBack ∈ state.legalTransitions) :
    state = .rollbackPending := by
  cases state <;> first | rfl | exact absurd legal (by decide)

/-- What the current generation can move to without a decision about the champion. -/
theorem installed_step {state target : GenerationState} (installed : state.Installed)
    (legal : target ∈ state.legalTransitions) (kept : target ≠ .rolledBack) : target.Installed := by
  rcases installed with rfl | rfl | rfl
  · rw [List.mem_singleton.mp legal]
    exact .inr (.inl rfl)
  · rcases List.mem_pair.mp legal with rfl | rfl
    · exact absurd rfl kept
    · exact .inr (.inr rfl)
  · cases legal

theorem Coherent.ids_set {record : GenerationRecord} (coherent : Coherent b) (named : record.generationId = id) :
    ∀ id' generation, (b.generations.set id record).get id' = some generation → generation.generationId = id' := by
  intro id' generation present
  by_cases same : id' = id
  · subst same
    cases (Dict.get_set_self _ _ _).symm.trans present
    exact named
  · exact coherent.ids id' generation ((Dict.get_set_ne _ _ same).symm.trans present)

/-- The current generation after an event that moves a generation. -/
theorem Coherent.current_move (coherent : Coherent b) {target : GenerationState}
    {restore next current : Option String} {id' : String} (named : e.transition.generationTarget = some target)
    (present : b.generations.get id = some generation) (previous : generation.previousChampionHash = some e.championHash)
    (legal : target ∈ generation.state.legalTransitions)
    (restored : RegistryBuilder.restoreAfter generation target e = .ok restore)
    (decided : b.championAfter generation target id restore = .ok (next, current)) (is : current = some id') :
    ∃ found, (b.generations.set id { generation with
        state := target
        restoreChampionHash := restore
        lastSequence := e.sequence }).get id' = some found ∧
      next = some found.candidateHash ∧ found.state.Installed := by
  by_cases activated : target = .active
  · subst activated
    obtain ⟨-, rfl, rfl⟩ := championAfter_active decided
    cases is
    exact ⟨_, Dict.get_set_self _ _ _, rfl, .inl rfl⟩
  by_cases rolledBack : target = .rolledBack
  · subst rolledBack
    obtain ⟨rfl, rfl⟩ := championAfter_rolledBack decided
    obtain rfl := restoreAfter_rolledBack restored
    rw [previous] at is
    obtain ⟨found, there, candidate, active⟩ := coherent.activeGenerationFor is
    -- the generation that is rolled back was pending, so the lookup found another one
    have different : id' ≠ id := by
      rintro rfl
      cases present.symm.trans there
      rw [state_before_rolledBack legal] at active
      cases active
    refine ⟨found, (Dict.get_set_ne _ _ different).trans there, ?_, .inl active⟩
    rw [previous, candidate]
  · obtain ⟨rfl, rfl⟩ := championAfter_other activated rolledBack decided
    obtain ⟨found, there, champion, installed⟩ := coherent.current id' is
    by_cases same : id' = id
    · subst same
      cases present.symm.trans there
      exact ⟨_, Dict.get_set_self _ _ _, champion, installed_step installed legal rolledBack⟩
    · exact ⟨found, (Dict.get_set_ne _ _ same).trans there, champion, installed⟩

/-- What one event preserves. -/
theorem Coherent.apply (coherent : Coherent b) (accepted : b.apply e = .ok b') : Coherent b' := by
  cases apply_applied accepted with
  | bootstrapped id =>
    refine ⟨coherent.ids_set rfl, fun id' is => ?_⟩
    cases is
    exact ⟨bootRecord e id, Dict.get_set_self _ _ _, rfl, .inl rfl⟩
  | intended hash path id record named candidate champion found confirmed fresh =>
    refine ⟨coherent.ids_set rfl, fun id' is => ?_⟩
    obtain ⟨generation, present, same, installed⟩ := coherent.current id' is
    have different : id' ≠ id := by
      rintro rfl
      cases fresh.symm.trans present
    exact ⟨generation, (Dict.get_set_ne _ _ different).trans present, same, installed⟩
  | moved hash path id target generation restore champion current started named later candidate payload present same
      previous legal restored decided =>
    refine ⟨coherent.ids_set (coherent.ids id generation present), fun id' is => ?_⟩
    exact coherent.current_move named present previous legal restored decided is
  | _ => exact ⟨coherent.ids, coherent.current⟩

theorem rebuild_coherent (accepted : rebuild log = .ok b) : Coherent b := by
  apply replay_invariant (fun (_ : List (PromotionEvent F)) b => Coherent b) _
    (fun _ _ _ _ coherent step => coherent.apply step) accepted
  constructor
  · intro id generation present
    cases present
  · intro id is
    cases is

/-- The last decision about the champion was a rollback, and no generation of the champion
that it restored was active then. -/
def Orphaned (log : List (PromotionEvent F)) : Prop :=
  ∃ before e after b, log = before ++ e :: after ∧ e.transition = .generationRolledBack ∧
    (∀ e' ∈ after, e'.transition ∉ Transition.deciding) ∧ rebuild before = .ok b ∧ ¬b.HasActive e.championHash

theorem orphaned_concat_iff (other : e.transition ∉ Transition.deciding) : Orphaned (log ++ [e]) ↔ Orphaned log := by
  constructor
  · rintro ⟨before, rollback, after, b, split, named, last, accepted, none⟩
    rcases List.eq_nil_or_concat after with rfl | ⟨after, e', rfl⟩
    · obtain ⟨-, same⟩ := List.append_inj' split rfl
      cases same
      exact absurd (by rw [named]; decide) other
    · have split : log ++ [e] = (before ++ rollback :: after) ++ [e'] := by simpa using split
      obtain ⟨rfl, -⟩ := List.append_inj' split rfl
      exact ⟨before, rollback, after, b, rfl, named, fun e' member => last e' (by simp [member]), accepted, none⟩
  · rintro ⟨before, rollback, after, b, rfl, named, last, accepted, none⟩
    refine ⟨before, rollback, after ++ [e], b, by simp, named, ?_, accepted, none⟩
    intro e' member
    rcases List.mem_append.mp member with old | new
    · exact last e' old
    · rw [List.mem_singleton.mp new]
      exact other

/-- After a decision only that decision matters. -/
theorem orphaned_concat_deciding (accepted : rebuild log = .ok b) (deciding : e.transition ∈ Transition.deciding) :
    Orphaned (log ++ [e]) ↔ e.transition = .generationRolledBack ∧ ¬b.HasActive e.championHash := by
  constructor
  · rintro ⟨before, rollback, after, b₁, split, named, last, accepted', none⟩
    rcases List.eq_nil_or_concat after with rfl | ⟨after, e', rfl⟩
    · obtain ⟨rfl, same⟩ := List.append_inj' split rfl
      cases same
      cases accepted.symm.trans accepted'
      exact ⟨named, none⟩
    · have split : log ++ [e] = (before ++ rollback :: after) ++ [e'] := by simpa using split
      obtain ⟨-, same⟩ := List.append_inj' split rfl
      cases same
      exact absurd deciding (last e (by simp))
  · rintro ⟨named, none⟩
    exact ⟨log, e, [], b, rfl, named, by simp, accepted, none⟩

theorem champion_isSome (accepted : b.apply e = .ok b') : b'.currentChampionHash ≠ none := by
  cases apply_applied accepted with
  | bootstrapped => simp
  | moved hash path id target generation restore champion current started named later candidate payload present same
      previous legal restored decided =>
    show champion ≠ none
    by_cases activated : target = .active
    · subst activated
      rw [(championAfter_active decided).2.1]
      simp
    by_cases rolledBack : target = .rolledBack
    · subst rolledBack
      rw [(championAfter_rolledBack decided).1, restoreAfter_rolledBack restored, previous]
      simp
    · rw [(championAfter_other activated rolledBack decided).1]
      exact started
  | discovered hash path named candidate champion => exact Option.ne_none_iff_exists'.mpr ⟨_, champion⟩
  | advanced hash path target current tested key named later candidate champion =>
    exact Option.ne_none_iff_exists'.mpr ⟨_, champion⟩
  | intended hash path id record named candidate champion => exact Option.ne_none_iff_exists'.mpr ⟨_, champion⟩
  | pinned id pin named champion => exact Option.ne_none_iff_exists'.mpr ⟨_, champion⟩
  | unpinned id named champion => exact Option.ne_none_iff_exists'.mpr ⟨_, champion⟩

/-- The generation after a decision. -/
theorem current_of_deciding (accepted : b.apply e = .ok b') (deciding : e.transition ∈ Transition.deciding) :
    b'.currentGenerationId = none ↔ e.transition = .generationRolledBack ∧ ¬b.HasActive e.championHash := by
  cases apply_applied accepted with
  | bootstrapped id named => simp [named]
  | moved hash path id target generation restore champion current started named later candidate payload present same
      previous legal restored decided =>
    show current = none ↔ _
    by_cases activated : target = .active
    · subst activated
      rw [(championAfter_active decided).2.2, transition_eq_activated named]
      simp
    by_cases rolledBack : target = .rolledBack
    · subst rolledBack
      rw [(championAfter_rolledBack decided).2, restoreAfter_rolledBack restored, previous,
        transition_eq_rolledBack named, Option.bind_some]
      simp [activeGenerationFor_eq_none_iff]
    · exfalso
      rcases List.mem_cons.mp deciding with first | deciding
      · rw [first] at named
        cases named
      · rcases List.mem_pair.mp deciding with active | back
        · rw [active] at named
          exact activated (Option.some.inj named).symm
        · rw [back] at named
          exact rolledBack (Option.some.inj named).symm
  | discovered hash path named => exact absurd deciding (by rw [named]; decide)
  | advanced hash path target current tested key named =>
    exfalso
    simp only [Transition.deciding, List.mem_cons, List.not_mem_nil, or_false] at deciding
    rcases deciding with decided | decided | decided
    all_goals
      rw [decided] at named
      cases named
  | intended hash path id record named => exact absurd deciding (by rw [named]; decide)
  | pinned id pin named => exact absurd deciding (by rw [named]; decide)
  | unpinned id named => exact absurd deciding (by rw [named]; decide)

theorem current_eq_none_iff (accepted : rebuild log = .ok b) (started : b.currentChampionHash ≠ none) :
    b.currentGenerationId = none ↔ Orphaned log := by
  induction log using List.reverseRecOn generalizing b with
  | nil =>
    cases accepted
    exact absurd rfl started
  | append_singleton log e ih =>
    obtain ⟨b₁, before, step⟩ := replay_concat.mp accepted
    by_cases deciding : e.transition ∈ Transition.deciding
    · rw [current_of_deciding step deciding, orphaned_concat_deciding before deciding]
    · obtain ⟨champion, current⟩ := (apply_applied step).keeps_champion deciding
      rw [current, orphaned_concat_iff deciding]
      exact ih before (champion ▸ started)

theorem champion_of_nonempty (accepted : rebuild log = .ok b) (some : log ≠ []) : b.currentChampionHash ≠ none := by
  obtain ⟨log, e, rfl⟩ := (List.eq_nil_or_concat log).resolve_left some
  obtain ⟨b₁, -, step⟩ := replay_concat.mp (List.concat_eq_append ▸ accepted)
  exact champion_isSome step

/-- Once there is a champion there always is one. The current generation, when there is one,
is a generation of the champion that was activated and not rolled back; there is none
exactly when the last decision was a rollback that found no active generation of the
champion it restored. -/
theorem current_generation_coherent (accepted : rebuild log = .ok b)
    (bootstrapped : ∃ e ∈ log, e.transition = .championBootstrapped) :
    b.currentChampionHash ≠ none ∧
    (∀ id, b.currentGenerationId = some id → ∃ generation, b.generations.get id = some generation ∧
      b.currentChampionHash = some generation.candidateHash ∧
      (generation.state = .active ∨ generation.state = .rollbackPending ∨ generation.state = .quarantined)) ∧
    (b.currentGenerationId = none ↔ Orphaned log) := by
  obtain ⟨e, member, -⟩ := bootstrapped
  have started := champion_of_nonempty accepted (List.ne_nil_of_mem member)
  exact ⟨started, (rebuild_coherent accepted).current, current_eq_none_iff accepted started⟩

section Sample

/-- An event of the rollback of a generation. -/
def rollback (sequence : Int) (transition : Transition) (champion candidate id : String) : PromotionEvent Empty :=
  sampleEvent sequence transition champion (some candidate) none
    [("generation_id", .str id), ("restore_champion_hash", .str champion)]

/-- The second generation is promoted over the first while that one waits for its rollback,
and is then rolled back itself: no generation of the restored champion is active. -/
def orphanedLog : List (PromotionEvent Empty) :=
  bootstrap (digest 'a') "g0" :: promotion 2 (digest 'a') (digest 'b') "g1" ++
    [rollback 13 .generationRollbackStarted (digest 'a') (digest 'b') "g1"] ++
    promotion 14 (digest 'b') (digest 'c') "g2" ++
    [rollback 25 .generationRollbackStarted (digest 'b') (digest 'c') "g2",
      rollback 26 .generationRolledBack (digest 'b') (digest 'c') "g2"]

theorem current_generation_coherent_orphaned :
    ∃ b, rebuild orphanedLog = .ok b ∧ b.currentChampionHash ≠ none ∧
      (b.currentGenerationId = none ↔ Orphaned orphanedLog) := by
  obtain ⟨b, accepted⟩ : ∃ b, rebuild orphanedLog = .ok b := exists_ok (by decide +kernel)
  obtain ⟨champion, -, orphaned⟩ := current_generation_coherent accepted ⟨_, List.mem_cons_self, rfl⟩
  exact ⟨b, accepted, champion, orphaned⟩

/-- There may be no current generation, and the current generation may be quarantined. -/
theorem current_generation_not_always_live :
    (∃ b, rebuild orphanedLog = .ok b ∧ b.currentGenerationId = none) ∧
    ∃ b, rebuild (bootstrap (digest 'a') "g0" :: promotion 2 (digest 'a') (digest 'b') "g1" ++
        [rollback 13 .generationRollbackStarted (digest 'a') (digest 'b') "g1",
          rollback 14 .generationQuarantined (digest 'a') (digest 'b') "g1"]) = .ok b ∧
      (b.currentGenerationId.bind b.generations.get).map GenerationRecord.state = some .quarantined := by
  constructor
  · exact exists_ok_map RegistryBuilder.currentGenerationId (by decide +kernel)
  · exact exists_ok_map (fun b : RegistryBuilder => (b.currentGenerationId.bind b.generations.get).map GenerationRecord.state)
      (by decide +kernel)

end Sample

end KataGo.Promotion
