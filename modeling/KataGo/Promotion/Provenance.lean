import KataGo.Promotion.Steps

/-! Where a champion comes from: a candidate becomes champion only after the whole sequence of
its evaluation and rollout events, tested against the very champion that it replaces. -/

namespace KataGo.Promotion
open KataGo.Lib

variable {F : Type} {b b' : RegistryBuilder} {e : PromotionEvent F} {log : List (PromotionEvent F)}
  {c p key : String} {stages later : List Transition}

/-- The events are about the candidate and name these transitions, in this order. -/
def Names (c : String) (events : List (PromotionEvent F)) (stages : List Transition) : Prop :=
  events.map PromotionEvent.transition = stages ∧ ∀ e ∈ events, e.candidateHash = some c

/-- The log has events of the candidate for these transitions, in this order. -/
def Passed (c : String) (stages : List Transition) (log : List (PromotionEvent F)) : Prop :=
  ∃ events, events.Sublist log ∧ Names c events stages

def isConfirmationStart (c : String) (e : PromotionEvent F) : Prop :=
  e.transition = .evaluationConfirmationStarted ∧ e.candidateHash = some c

/-- The stages before a confirmation. -/
def screening : List Transition :=
  [.candidateDiscovered, .candidateClaimed, .evaluationIntegrityStarted, .evaluationScreenStarted,
    .evaluationFinalistStarted]

/-- The log has the last start of a confirmation of the candidate against champion `p` under
one key, the screening before it and the later stages after it; the confirmation and the
intent name the same champion and the same key. -/
def Confirming (c p key : String) (later : List Transition) (log : List (PromotionEvent F)) : Prop :=
  ∃ before started after tail, log = before ++ started :: after ∧ Passed c screening before ∧
    isConfirmationStart c started ∧ started.championHash = p ∧ started.evaluationKey = some key ∧
    (∀ e ∈ after, ¬isConfirmationStart c e) ∧ tail.Sublist after ∧ Names c tail later ∧
    ∀ e ∈ tail, e.transition = .candidateConfirmed ∨ e.transition = .generationPromotionIntent →
      e.championHash = p ∧ e.evaluationKey = some key

theorem Names.concat {events : List (PromotionEvent F)} (names : Names c events stages)
    (candidate : e.candidateHash = some c) : Names c (events ++ [e]) (stages ++ [e.transition]) := by
  obtain ⟨transitions, candidates⟩ := names
  constructor
  · rw [List.map_append, transitions]
    rfl
  · intro e' member
    rcases List.mem_append.mp member with old | new
    · exact candidates e' old
    · rw [List.mem_singleton.mp new]
      exact candidate

theorem Passed.nil : Passed c [] log := ⟨[], List.nil_sublist log, rfl, by simp⟩

theorem Passed.mono (passed : Passed c stages log) : Passed c stages (log ++ [e]) := by
  obtain ⟨events, sublist, names⟩ := passed
  exact ⟨events, sublist.trans (List.sublist_append_left log [e]), names⟩

theorem Passed.concat (passed : Passed c stages log) (candidate : e.candidateHash = some c) :
    Passed c (stages ++ [e.transition]) (log ++ [e]) := by
  obtain ⟨events, sublist, names⟩ := passed
  exact ⟨events ++ [e], sublist.append (List.Sublist.refl [e]), names.concat candidate⟩

theorem Confirming.start (passed : Passed c screening log) (start : isConfirmationStart c e)
    (evaluation : e.evaluationKey = some key) : Confirming c e.championHash key [] (log ++ [e]) :=
  ⟨log, e, [], [], rfl, passed, start, rfl, evaluation, by simp, List.nil_sublist _, ⟨rfl, by simp⟩, by simp⟩

theorem Confirming.mono (confirming : Confirming c p key later log) (other : ¬isConfirmationStart c e) :
    Confirming c p key later (log ++ [e]) := by
  obtain ⟨before, started, after, tail, rfl, passed, start, champion, evaluation, last, sublist, names, agree⟩ :=
    confirming
  refine ⟨before, started, after ++ [e], tail, by simp, passed, start, champion, evaluation, ?_,
    sublist.trans (List.sublist_append_left after [e]), names, agree⟩
  intro e' member
  rcases List.mem_append.mp member with old | new
  · exact last e' old
  · rw [List.mem_singleton.mp new]
    exact other

theorem Confirming.concat (confirming : Confirming c p key later log) (other : ¬isConfirmationStart c e)
    (candidate : e.candidateHash = some c)
    (same : e.transition = .candidateConfirmed ∨ e.transition = .generationPromotionIntent →
      e.championHash = p ∧ e.evaluationKey = some key) :
    Confirming c p key (later ++ [e.transition]) (log ++ [e]) := by
  obtain ⟨before, started, after, tail, rfl, passed, start, champion, evaluation, last, sublist, names, agree⟩ :=
    confirming
  refine ⟨before, started, after ++ [e], tail ++ [e], by simp, passed, start, champion, evaluation, ?_,
    sublist.append (List.Sublist.refl [e]), names.concat candidate, ?_⟩
  · intro e' member
    rcases List.mem_append.mp member with old | new
    · exact last e' old
    · rw [List.mem_singleton.mp new]
      exact other
  · intro e' member
    rcases List.mem_append.mp member with old | new
    · exact agree e' old
    · rw [List.mem_singleton.mp new]
      exact same

/-- A confirmation may be started again, under a new key and against a new champion. -/
theorem Confirming.screened (confirming : Confirming c p key later log) : Passed c screening log := by
  obtain ⟨before, started, after, _, rfl, ⟨events, sublist, names⟩, _⟩ := confirming
  exact ⟨events, sublist.trans (List.sublist_append_left before _), names⟩

/-- What a candidate has passed when it reaches a state of its screening. -/
def CandidateState.passed : CandidateState → List Transition
  | discovered => screening.take 1
  | claimed => screening.take 2
  | evaluatingIntegrity => screening.take 3
  | evaluatingScreen => screening.take 4
  | evaluatingFinalist => screening
  | _ => []

/-- What has followed the last start of the confirmation of a candidate. -/
def CandidateState.followed : CandidateState → Option (List Transition)
  | evaluatingConfirmation => some []
  | confirmed => some [.candidateConfirmed]
  | _ => none

def GenerationState.followed : GenerationState → Option (List Transition)
  | promotionIntent => some [.candidateConfirmed, .generationPromotionIntent]
  | canary => some [.candidateConfirmed, .generationPromotionIntent, .generationCanaryStarted]
  | rollout => some [.candidateConfirmed, .generationPromotionIntent, .generationCanaryStarted,
      .generationRolloutStarted]
  | _ => none

structure CandidateTraced (log : List (PromotionEvent F)) (c : String) (record : CandidateRecord) : Prop where
  passed : Passed c record.state.passed log
  followed : ∀ later, record.state.followed = some later → ∃ p key, record.testedChampionHash = some p ∧
    record.evaluationKey = some key ∧ Confirming c p key later log

structure GenerationTraced (log : List (PromotionEvent F)) (b : RegistryBuilder) (generation : GenerationRecord) :
    Prop where
  followed : ∀ later, generation.state.followed = some later →
    ∃ p key, generation.previousChampionHash = some p ∧ Confirming generation.candidateHash p key later log
  confirmed : ∀ later, generation.state.followed = some later →
    ∃ record, b.candidates.get generation.candidateHash = some record ∧ record.state = .confirmed

/-- Every candidate and every generation has the events behind it that its state stands for. -/
structure Traced (log : List (PromotionEvent F)) (b : RegistryBuilder) : Prop where
  candidates : ∀ c record, b.candidates.get c = some record → CandidateTraced log c record
  generations : ∀ id generation, b.generations.get id = some generation → GenerationTraced log b generation

theorem evaluationAfter_evaluating {current : CandidateRecord} {target : CandidateState} {tested key : Option String}
    (evaluating : target.isEvaluating = true)
    (evaluation : RegistryBuilder.evaluationAfter current target e = .ok (tested, key)) :
    e.evaluationKey ≠ none ∧ tested = some e.championHash ∧ key = e.evaluationKey := by
  simp only [RegistryBuilder.evaluationAfter, evaluating, if_true, bind_eq_ok, require_eq_ok, exists_const] at evaluation
  obtain ⟨given, result⟩ := evaluation
  cases result
  exact ⟨given, rfl, rfl⟩

theorem evaluationAfter_confirmed {current : CandidateRecord} {tested key : Option String}
    (evaluation : RegistryBuilder.evaluationAfter current .confirmed e = .ok (tested, key)) :
    e.evaluationKey = current.evaluationKey ∧ some e.championHash = current.testedChampionHash ∧
      tested = current.testedChampionHash ∧ key = current.evaluationKey := by
  simp only [RegistryBuilder.evaluationAfter, CandidateState.isEvaluating, Bool.false_eq_true, if_false, if_true,
    bind_eq_ok, require_eq_ok, exists_const] at evaluation
  obtain ⟨⟨_, same, champion⟩, result⟩ := evaluation
  cases result
  exact ⟨same, champion, rfl, rfl⟩

theorem CandidateTraced.mono {record : CandidateRecord} (traced : CandidateTraced log c record)
    (other : ¬isConfirmationStart c e) : CandidateTraced (log ++ [e]) c record := by
  refine ⟨traced.passed.mono, fun later state => ?_⟩
  obtain ⟨p, key, tested, evaluation, confirming⟩ := traced.followed later state
  exact ⟨p, key, tested, evaluation, confirming.mono other⟩

/-- What the record of a candidate says about its evaluation is all that is traced. -/
theorem CandidateTraced.congr {record record' : CandidateRecord} (traced : CandidateTraced log c record)
    (state : record'.state = record.state) (tested : record'.testedChampionHash = record.testedChampionHash)
    (key : record'.evaluationKey = record.evaluationKey) : CandidateTraced log c record' := by
  constructor
  · rw [state]
    exact traced.passed
  · rw [state, tested, key]
    exact traced.followed

theorem not_start_of_ne (different : e.candidateHash ≠ some c) : ¬isConfirmationStart c e :=
  fun start => different start.2

theorem not_start_of_target {target : CandidateState} (named : e.transition.candidateTarget = some target)
    (other : target ≠ .evaluatingConfirmation) : ¬isConfirmationStart c e := by
  rintro ⟨start, -⟩
  rw [start] at named
  exact other (Option.some.inj named).symm

theorem not_start_of_no_target (named : e.transition.candidateTarget = none) : ¬isConfirmationStart c e := by
  rintro ⟨start, -⟩
  rw [start] at named
  cases named

theorem candidateTarget_of_generationTarget {t : Transition} {target : GenerationState}
    (named : t.generationTarget = some target) : t.candidateTarget = none := by
  cases t <;> simp_all [Transition.generationTarget, Transition.candidateTarget]

/-- A confirmed candidate stays confirmed, and no confirmation of it starts again. -/
theorem Applied.keeps_confirmed (applied : Applied b e b') {record : CandidateRecord}
    (present : b.candidates.get c = some record) (confirmed : record.state = .confirmed) :
    ¬isConfirmationStart c e ∧ ∃ record', b'.candidates.get c = some record' ∧ record'.state = .confirmed := by
  cases applied with
  | bootstrapped id named =>
    exact ⟨not_start_of_no_target (by rw [named]; rfl), record, present, confirmed⟩
  | discovered hash path named candidate champion absent =>
    have different : c ≠ hash := by
      rintro rfl
      rw [absent] at present
      cases present
    refine ⟨not_start_of_target (by rw [named]; rfl) (by decide), record, ?_, confirmed⟩
    exact (Dict.get_set_ne _ _ different).trans present
  | advanced hash path target current tested key named later candidate champion found legal evaluation =>
    have different : c ≠ hash := by
      rintro rfl
      rw [present] at found
      cases found
      rw [confirmed] at legal
      cases legal
    refine ⟨not_start_of_ne ?_, record, (Dict.get_set_ne _ _ different).trans present, confirmed⟩
    rw [candidate]
    exact fun same => different (Option.some.inj same).symm
  | intended hash path id current named candidate champion found state =>
    refine ⟨not_start_of_no_target (by rw [named]; rfl), ?_⟩
    by_cases same : c = hash
    · subst same
      exact ⟨_, Dict.get_set_self _ _ _, state⟩
    · exact ⟨record, (Dict.get_set_ne _ _ same).trans present, confirmed⟩
  | moved hash path id target generation restore champion current started named =>
    exact ⟨not_start_of_no_target (candidateTarget_of_generationTarget named), record, present, confirmed⟩
  | pinned id pin named => exact ⟨not_start_of_no_target (by rw [named]; rfl), record, present, confirmed⟩
  | unpinned id named => exact ⟨not_start_of_no_target (by rw [named]; rfl), record, present, confirmed⟩

theorem GenerationTraced.mono {generation : GenerationRecord} (traced : GenerationTraced log b generation)
    (applied : Applied b e b') : GenerationTraced (log ++ [e]) b' generation := by
  constructor
  · intro later state
    obtain ⟨record, present, confirmed⟩ := traced.confirmed later state
    obtain ⟨p, key, previous, confirming⟩ := traced.followed later state
    exact ⟨p, key, previous, confirming.mono (applied.keeps_confirmed present confirmed).1⟩
  · intro later state
    obtain ⟨record, present, confirmed⟩ := traced.confirmed later state
    exact (applied.keeps_confirmed present confirmed).2

/-- A generation that is past its rollout has nothing left to trace. -/
theorem GenerationTraced.of_settled {generation : GenerationRecord} (settled : generation.state.followed = none) :
    GenerationTraced log b generation := by
  constructor
  · intro later state
    rw [settled] at state
    cases state
  · intro later state
    rw [settled] at state
    cases state

/-- One legal step of a candidate through its screening. -/
theorem passed_step {state target : CandidateState} {t : Transition} (legal : target ∈ state.legalTransitions)
    (named : t.candidateTarget = some target) : target.passed = [] ∨ target.passed = state.passed ++ [t] := by
  cases state <;> simp only [CandidateState.legalTransitions, List.mem_cons, List.not_mem_nil, or_false] at legal
  all_goals
    rcases legal with rfl | rfl | rfl | rfl <;>
      first
      | exact .inl rfl
      | (cases t <;> simp_all [Transition.candidateTarget, CandidateState.passed, screening])

theorem transition_eq_confirmationStarted (named : e.transition.candidateTarget = some .evaluatingConfirmation) :
    e.transition = .evaluationConfirmationStarted := by
  cases transition : e.transition <;> simp_all [Transition.candidateTarget]

theorem transition_eq_confirmed (named : e.transition.candidateTarget = some .confirmed) :
    e.transition = .candidateConfirmed := by
  cases transition : e.transition <;> simp_all [Transition.candidateTarget]

theorem CandidateTraced.screened {current : CandidateRecord} (traced : CandidateTraced log c current)
    (legal : CandidateState.evaluatingConfirmation ∈ current.state.legalTransitions) : Passed c screening log := by
  have passed := traced.passed
  have followed := traced.followed
  cases state : current.state <;> rw [state] at legal passed followed
  case evaluatingFinalist => exact passed
  case evaluatingConfirmation =>
    obtain ⟨p, key, -, -, confirming⟩ := followed [] rfl
    exact confirming.screened
  all_goals exact absurd legal (by decide)

theorem state_before_confirmed {state : CandidateState} (legal : CandidateState.confirmed ∈ state.legalTransitions) :
    state = .evaluatingConfirmation := by
  cases state <;> first | rfl | exact absurd legal (by decide)

/-- One step of a candidate. -/
theorem CandidateTraced.advance {current : CandidateRecord} {path : String} {target : CandidateState}
    {tested key : Option String} (traced : CandidateTraced log c current)
    (named : e.transition.candidateTarget = some target) (candidate : e.candidateHash = some c)
    (legal : target ∈ current.state.legalTransitions)
    (evaluation : RegistryBuilder.evaluationAfter current target e = .ok (tested, key)) :
    CandidateTraced (log ++ [e]) c { current with
      candidatePath := path
      state := target
      testedChampionHash := tested
      evaluationKey := key
      lastSequence := e.sequence } := by
  constructor
  · rcases passed_step legal named with none | one
    · show Passed c target.passed _
      rw [none]
      exact Passed.nil
    · show Passed c target.passed _
      rw [one]
      exact traced.passed.concat candidate
  · intro later state
    cases target with
    | evaluatingConfirmation =>
      cases state
      obtain ⟨given, rfl, rfl⟩ := evaluationAfter_evaluating rfl evaluation
      obtain ⟨key, given⟩ := Option.ne_none_iff_exists'.mp given
      exact ⟨e.championHash, key, rfl, given, Confirming.start (traced.screened legal)
        ⟨transition_eq_confirmationStarted named, candidate⟩ given⟩
    | confirmed =>
      cases state
      have before := state_before_confirmed legal
      obtain ⟨p, key, testedBefore, keyBefore, confirming⟩ := traced.followed [] (by rw [before]; rfl)
      obtain ⟨sameKey, sameChampion, rfl, rfl⟩ := evaluationAfter_confirmed evaluation
      have step := confirming.concat (not_start_of_target named (by decide)) candidate fun _ =>
        ⟨Option.some.inj (sameChampion.trans testedBefore), sameKey.trans keyBefore⟩
      rw [transition_eq_confirmed named] at step
      exact ⟨p, key, testedBefore, keyBefore, step⟩
    | _ => cases state

/-- One legal step of a generation through its rollout. -/
theorem followed_step {t : Transition} {state target : GenerationState} {after : List Transition}
    (named : t.generationTarget = some target) (legal : target ∈ state.legalTransitions)
    (followed : target.followed = some after) : ∃ before, state.followed = some before ∧ after = before ++ [t] := by
  cases target with
  | canary =>
    cases state <;> simp [GenerationState.legalTransitions] at legal
    cases followed
    cases t <;> simp_all [Transition.generationTarget, GenerationState.followed]
  | rollout =>
    cases state <;> simp [GenerationState.legalTransitions] at legal
    cases followed
    cases t <;> simp_all [Transition.generationTarget, GenerationState.followed]
  | promotionIntent => cases state <;> simp [GenerationState.legalTransitions] at legal
  | _ => cases followed

theorem not_confirmation_of_generationTarget {target : GenerationState}
    (named : e.transition.generationTarget = some target) (later : target ≠ .promotionIntent) :
    ¬(e.transition = .candidateConfirmed ∨ e.transition = .generationPromotionIntent) := by
  rintro (confirmed | intent)
  · rw [confirmed] at named
    cases named
  · rw [intent] at named
    exact later (Option.some.inj named).symm

/-- One step of a generation. -/
theorem GenerationTraced.move {generation : GenerationRecord} {target : GenerationState} {restore : Option String}
    (traced : GenerationTraced log b generation) (applied : Applied b e b')
    (named : e.transition.generationTarget = some target) (later : target ≠ .promotionIntent)
    (candidate : e.candidateHash = some generation.candidateHash) (legal : target ∈ generation.state.legalTransitions) :
    GenerationTraced (log ++ [e]) b' { generation with
      state := target
      restoreChampionHash := restore
      lastSequence := e.sequence } := by
  constructor
  · intro after state
    obtain ⟨before, followed, rfl⟩ := followed_step named legal state
    obtain ⟨p, key, previous, confirming⟩ := traced.followed before followed
    refine ⟨p, key, previous, confirming.concat ?_ candidate ?_⟩
    · exact not_start_of_no_target (candidateTarget_of_generationTarget named)
    · intro confirmation
      exact absurd confirmation (not_confirmation_of_generationTarget named later)
  · intro after state
    obtain ⟨before, followed, rfl⟩ := followed_step named legal state
    obtain ⟨record, present, confirmed⟩ := traced.confirmed before followed
    exact (applied.keeps_confirmed present confirmed).2

/-- An intent starts a generation from a confirmed candidate. -/
theorem GenerationTraced.intend {hash path id : String} {record record' : CandidateRecord}
    (traced : CandidateTraced log hash record) (named : e.transition = .generationPromotionIntent)
    (candidate : e.candidateHash = some hash) (confirmed : record.state = .confirmed)
    (tested : record.testedChampionHash = some e.championHash) (key : record.evaluationKey = e.evaluationKey)
    (present : b'.candidates.get hash = some record') (state : record'.state = .confirmed) :
    GenerationTraced (log ++ [e]) b' (intentRecord e hash path id) := by
  constructor
  · intro later followed
    cases followed
    obtain ⟨p, evaluation, testedAgainst, underKey, confirming⟩ := traced.followed _ (by rw [confirmed]; rfl)
    have champion : e.championHash = p := Option.some.inj (tested.symm.trans testedAgainst)
    have step := confirming.concat (not_start_of_no_target (by rw [named]; rfl)) candidate fun _ =>
      ⟨champion, key.symm.trans underKey⟩
    rw [named] at step
    exact ⟨p, evaluation, congrArg some champion, step⟩
  · intro later _
    exact ⟨record', present, state⟩

theorem Traced.candidates_apply (traced : Traced log b) (applied : Applied b e b') {record : CandidateRecord}
    (present : b'.candidates.get c = some record) : CandidateTraced (log ++ [e]) c record := by
  cases applied with
  | bootstrapped id named =>
    exact (traced.candidates c record present).mono (not_start_of_no_target (by rw [named]; rfl))
  | discovered hash path named candidate champion absent =>
    by_cases same : c = hash
    · subst same
      cases (Dict.get_set_self _ _ _).symm.trans present
      have passed : Passed c ([] ++ [e.transition]) (log ++ [e]) := Passed.nil.concat candidate
      rw [named] at passed
      exact ⟨passed, fun later state => by cases state⟩
    · refine (traced.candidates c record ((Dict.get_set_ne _ _ same).symm.trans present)).mono ?_
      exact not_start_of_target (by rw [named]; rfl) (by decide)
  | advanced hash path target current tested key named later candidate champion found legal evaluation =>
    by_cases same : c = hash
    · subst same
      cases (Dict.get_set_self _ _ _).symm.trans present
      exact (traced.candidates c current found).advance named candidate legal evaluation
    · refine (traced.candidates c record ((Dict.get_set_ne _ _ same).symm.trans present)).mono (not_start_of_ne ?_)
      rw [candidate]
      exact fun other => same (Option.some.inj other).symm
  | intended hash path id current named candidate champion found =>
    have other := not_start_of_no_target (c := c) (e := e) (by rw [named]; rfl)
    by_cases same : c = hash
    · subst same
      cases (Dict.get_set_self _ _ _).symm.trans present
      exact ((traced.candidates c current found).mono other).congr rfl rfl rfl
    · exact (traced.candidates c record ((Dict.get_set_ne _ _ same).symm.trans present)).mono other
  | moved hash path id target generation restore champion current started named =>
    exact (traced.candidates c record present).mono
      (not_start_of_no_target (candidateTarget_of_generationTarget named))
  | pinned id pin named =>
    exact (traced.candidates c record present).mono (not_start_of_no_target (by rw [named]; rfl))
  | unpinned id named =>
    exact (traced.candidates c record present).mono (not_start_of_no_target (by rw [named]; rfl))

theorem Traced.generations_apply (traced : Traced log b) (applied : Applied b e b') {id : String}
    {generation : GenerationRecord} (present : b'.generations.get id = some generation) :
    GenerationTraced (log ++ [e]) b' generation := by
  have kept : ∀ old, b.generations.get id = some old → GenerationTraced (log ++ [e]) b' old :=
    fun old found => (traced.generations id old found).mono applied
  cases applied with
  | bootstrapped id' =>
    by_cases same : id = id'
    · subst same
      cases (Dict.get_set_self _ _ _).symm.trans present
      exact GenerationTraced.of_settled rfl
    · exact kept generation ((Dict.get_set_ne _ _ same).symm.trans present)
  | discovered => exact kept generation present
  | advanced => exact kept generation present
  | intended hash path id' record named candidate champion found confirmed fresh free tested key =>
    by_cases same : id = id'
    · subst same
      cases (Dict.get_set_self _ _ _).symm.trans present
      exact GenerationTraced.intend (traced.candidates hash record found) named candidate confirmed tested key
        (Dict.get_set_self _ _ _) confirmed
    · exact kept generation ((Dict.get_set_ne _ _ same).symm.trans present)
  | moved hash path id' target old restore champion current started named later candidate payload found origin
      previous legal restored decided =>
    by_cases same : id = id'
    · subst same
      cases (Dict.get_set_self _ _ _).symm.trans present
      exact (traced.generations id old found).move (.moved hash path id target old restore champion current started
        named later candidate payload found origin previous legal restored decided) named later (origin ▸ candidate) legal
    · exact kept generation ((Dict.get_set_ne _ _ same).symm.trans present)
  | pinned => exact kept generation present
  | unpinned => exact kept generation present

/-- What one event preserves. -/
theorem Traced.apply (traced : Traced log b) (accepted : b.apply e = .ok b') : Traced (log ++ [e]) b' where
  candidates _ _ present := traced.candidates_apply (apply_applied accepted) present
  generations _ _ present := traced.generations_apply (apply_applied accepted) present

theorem rebuild_traced (accepted : rebuild log = .ok b) : Traced log b := by
  apply replay_invariant Traced _ (fun _ _ _ _ traced step => traced.apply step) accepted
  constructor
  · intro c record present
    cases present
  · intro id generation present
    cases present

theorem transition_eq_activated (named : e.transition.generationTarget = some .active) :
    e.transition = .generationActivated := by
  cases transition : e.transition <;> simp_all [Transition.generationTarget]

theorem transition_eq_rolledBack (named : e.transition.generationTarget = some .rolledBack) :
    e.transition = .generationRolledBack := by
  cases transition : e.transition <;> simp_all [Transition.generationTarget]

theorem state_before_active {state : GenerationState} (legal : GenerationState.active ∈ state.legalTransitions) :
    state = .rollout := by
  cases state <;> first | rfl | exact absurd legal (by decide)

theorem championAfter_active {generation : GenerationRecord} {id : String} {restore champion current : Option String}
    (decided : b.championAfter generation .active id restore = .ok (champion, current)) :
    b.currentChampionHash = generation.previousChampionHash ∧ champion = some generation.candidateHash ∧
      current = some id := by
  simp only [RegistryBuilder.championAfter, if_true, bind_eq_ok, require_eq_ok, exists_const] at decided
  obtain ⟨same, result⟩ := decided
  cases result
  exact ⟨same, rfl, rfl⟩

theorem championAfter_other {generation : GenerationRecord} {target : GenerationState} {id : String}
    {restore champion current : Option String} (activated : target ≠ .active) (rolledBack : target ≠ .rolledBack)
    (decided : b.championAfter generation target id restore = .ok (champion, current)) :
    champion = b.currentChampionHash ∧ current = b.currentGenerationId := by
  rw [RegistryBuilder.championAfter, if_neg activated, if_neg rolledBack] at decided
  cases decided
  exact ⟨rfl, rfl⟩

/-- The transitions that decide who is champion. -/
def Transition.deciding : List Transition := [.championBootstrapped, .generationActivated, .generationRolledBack]

theorem Applied.keeps_champion (applied : Applied b e b') (other : e.transition ∉ Transition.deciding) :
    b'.currentChampionHash = b.currentChampionHash ∧ b'.currentGenerationId = b.currentGenerationId := by
  cases applied with
  | bootstrapped id named => exact absurd (by rw [named]; decide) other
  | moved hash path id target generation restore champion current started named later candidate payload present same
      previous legal restored decided =>
    apply championAfter_other _ _ decided
    · rintro rfl
      exact other (by rw [transition_eq_activated named]; decide)
    · rintro rfl
      exact other (by rw [transition_eq_rolledBack named]; decide)
  | _ => exact ⟨rfl, rfl⟩

theorem Traced.activation (traced : Traced log b) (accepted : b.apply e = .ok b')
    (activated : e.transition = .generationActivated) :
    ∃ p c key, b.currentChampionHash = some p ∧ b'.currentChampionHash = some c ∧ e.candidateHash = some c ∧
      Confirming c p key [.candidateConfirmed, .generationPromotionIntent, .generationCanaryStarted,
        .generationRolloutStarted] log := by
  cases apply_applied accepted with
  | bootstrapped id named => cases activated.symm.trans named
  | discovered hash path named => cases activated.symm.trans named
  | advanced hash path target current tested key named =>
    rw [activated] at named
    cases named
  | intended hash path id record named => cases activated.symm.trans named
  | moved hash path id target generation restore champion current started named later candidate payload present same
      previous legal restored decided =>
    rw [activated] at named
    cases named
    obtain ⟨swapped, champion, -⟩ := championAfter_active decided
    obtain ⟨p, key, before, confirming⟩ :=
      (traced.generations id generation present).followed _ (by rw [state_before_active legal]; rfl)
    exact ⟨p, generation.candidateHash, key, swapped.trans before, champion, same ▸ candidate, confirming⟩
  | pinned id pin named => cases activated.symm.trans named
  | unpinned id named => cases activated.symm.trans named

/-- A candidate replaces a champion only after its screening, a last confirmation against that
champion, and the intent, canary and rollout that name the champion and the confirmation's
key. Only bootstraps, activations and rollbacks change the champion. -/
theorem activation_provenance (accepted : rebuild log = .ok b) :
    (∀ before e after, log = before ++ e :: after → e.transition = .generationActivated →
      ∃ b₁ b₂ p c key, rebuild before = .ok b₁ ∧ b₁.apply e = .ok b₂ ∧
        b₁.currentChampionHash = some p ∧ b₂.currentChampionHash = some c ∧ e.candidateHash = some c ∧
        Confirming c p key [.candidateConfirmed, .generationPromotionIntent, .generationCanaryStarted,
          .generationRolloutStarted] before) ∧
    ∀ before e after b₁ b₂, log = before ++ e :: after → rebuild before = .ok b₁ → b₁.apply e = .ok b₂ →
      e.transition ∉ [Transition.championBootstrapped, .generationActivated, .generationRolledBack] →
      b₂.currentChampionHash = b₁.currentChampionHash := by
  constructor
  · rintro before e after rfl activated
    obtain ⟨b₁, first, rest⟩ := replay_append.mp accepted
    obtain ⟨b₂, step, -⟩ := replay_cons.mp rest
    obtain ⟨p, c, key, was, becomes, candidate, confirming⟩ := (rebuild_traced first).activation step activated
    exact ⟨b₁, b₂, p, c, key, first, step, was, becomes, candidate, confirming⟩
  · intro before e after b₁ b₂ _ _ step other
    exact ((apply_applied step).keeps_champion other).1

section Sample

def digest (c : Char) : String := String.ofList (List.replicate 64 c)

def sampleEvent (sequence : Int) (transition : Transition) (champion : String) (candidate : Option String)
    (key : Option String) (payload : List (String × Json Empty)) : PromotionEvent Empty where
  schemaVersion := 1
  sequence := sequence
  previousHash := digest '0'
  timestampUtc := "2026-01-01T00:00:00Z"
  controllerHash := digest '0'
  sourceHash := digest '0'
  candidateHash := candidate
  candidatePath := candidate
  championHash := champion
  originalHash := digest '0'
  transition := transition
  evaluationKey := key
  configHash := digest '0'
  scheduleHash := digest '0'
  policyHash := digest '0'
  reason := "sample"
  actor := "controller"
  payload := payload
  eventHash := digest '0'

def bootstrap (champion id : String) : PromotionEvent Empty :=
  sampleEvent 1 .championBootstrapped champion none none [("generation_id", .str id)]

/-- The events of a promotion, numbered from the given one. -/
def promotion (first : Int) (champion candidate id : String) : List (PromotionEvent Empty) :=
  let event (offset : Int) (transition : Transition) (key : Option String) :=
    sampleEvent (first + offset) transition champion (some candidate) key [("generation_id", .str id)]
  [event 0 .candidateDiscovered none, event 1 .candidateClaimed none,
    event 2 .evaluationIntegrityStarted (some "integrity"), event 3 .evaluationScreenStarted (some "screen"),
    event 4 .evaluationFinalistStarted (some "finalist"), event 5 .evaluationConfirmationStarted (some "confirmation"),
    event 6 .candidateConfirmed (some "confirmation"), event 7 .generationPromotionIntent (some "confirmation"),
    event 8 .generationCanaryStarted none, event 9 .generationRolloutStarted none,
    event 10 .generationActivated none]

theorem exists_ok {ε α : Type} {x : Except ε α} (ok : x.isOk = true) : ∃ a, x = .ok a := by
  cases x with
  | error e => cases ok
  | ok a => exact ⟨a, rfl⟩

theorem exists_ok_map {ε α β : Type} {x : Except ε α} (f : α → β) {y : β} (found : x.toOption.map f = some y) :
    ∃ a, x = .ok a ∧ f a = y := by
  cases x with
  | error e => cases found
  | ok a => exact ⟨a, rfl, Option.some.inj found⟩

theorem activation_provenance_sample :
    ∃ b p key, rebuild (bootstrap (digest 'a') "g0" :: promotion 2 (digest 'a') (digest 'b') "g1") = .ok b ∧
      Confirming (digest 'b') p key [.candidateConfirmed, .generationPromotionIntent, .generationCanaryStarted,
        .generationRolloutStarted]
        (bootstrap (digest 'a') "g0" :: (promotion 2 (digest 'a') (digest 'b') "g1").dropLast) := by
  obtain ⟨b, accepted⟩ : ∃ b, rebuild (bootstrap (digest 'a') "g0" ::
      promotion 2 (digest 'a') (digest 'b') "g1") = .ok b := exists_ok (by decide +kernel)
  obtain ⟨_, _, p, c, key, _, _, _, _, candidate, confirming⟩ :=
    (activation_provenance accepted).1 (bootstrap (digest 'a') "g0" ::
      (promotion 2 (digest 'a') (digest 'b') "g1").dropLast) _ [] rfl rfl
  cases candidate
  exact ⟨b, p, key, accepted, confirming⟩

end Sample

end KataGo.Promotion
