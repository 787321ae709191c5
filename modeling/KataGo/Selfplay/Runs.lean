import KataGo.Selfplay.Conservation
import Mathlib.Tactic.Push

/-! Every interleaving of the game threads, the data write loops and the manager keeps the count of
every model, and no assertion on the way fails. -/

namespace KataGo.Selfplay
open KataGo.Lib KataGo.Game

variable {settings : Settings} {creditError : List FinishedGameData → Option String}

theorem GameThread.countP_reserves_le (threads : List GameThread) (m : Nat) :
    threads.countP (reserves m) ≤ threads.countP (holds m) :=
  List.countP_mono_left fun _ _ => holds_of_reserves

theorem GameThread.length_inHand_le (threads : List GameThread) (m : Nat) :
    (threads.flatMap (inHand m)).length ≤ threads.countP (reserves m) := by
  induction threads with
  | nil => exact Nat.le_refl 0
  | cons t rest ih =>
    have one := t.inHand_length m
    rw [List.flatMap_cons, List.length_append, List.countP_cons]
    omega

theorem ModelData.Sound.listed_congr {d : ModelData} {listed listed' : Prop} {held reserved due : Nat}
    {inHand : List FinishedGameData} (sound : d.Sound settings listed held reserved due inHand)
    (same : listed' ↔ listed) : d.Sound settings listed' held reserved due inHand := by
  rwa [propext same]

theorem ModelData.Sound.perm {d : ModelData} {listed : Prop} {held reserved due : Nat}
    {inHand inHand' : List FinishedGameData} (sound : d.Sound settings listed held reserved due inHand)
    (perm : inHand.Perm inHand') : d.Sound settings listed held reserved due inHand' :=
  { sound with
    inHand_le := by
      rw [← perm.length_eq]
      exact sound.inHand_le
    accounted := sound.accounted.trans (perm.append_right _) }

namespace State

/-- How many threads have acquired the model. -/
def held (s : State) (m : Nat) : Nat := s.threads.countP (GameThread.holds m)

/-- How many threads have a place at the model. -/
def reserved (s : State) (m : Nat) : Nat := s.threads.countP (GameThread.reserves m)

/-- The games that threads are handing over to the model. -/
def inHand (s : State) (m : Nat) : List FinishedGameData := s.threads.flatMap (GameThread.inHand m)

/-- The models whose loop is running. -/
def running (numLoaded : Nat) (data : Nat → ModelData) : Finset Nat :=
  (Finset.range numLoaded).filter fun m => (data m).loop ≠ .ended

structure Sound (settings : Settings) (s : State) : Prop where
  known : ∀ m ∈ s.modelDatas, m < s.numLoaded
  strangers : ∀ m, s.numLoaded ≤ m → s.held m = 0
  models : ∀ m < s.numLoaded,
    (s.data m).Sound settings (m ∈ s.modelDatas) (s.held m) (s.reserved m) 0 (s.inHand m)
  active : s.numDataWriteLoopsActive = (running s.numLoaded s.data).card

variable {s s' : State} {m i : Nat} {d : ModelData} {t u : GameThread}

namespace Sound

theorem start (settings : Settings) (numGameThreads : Nat) : (State.start settings numGameThreads).Sound settings where
  known m member := absurd member List.not_mem_nil
  strangers m _ := by
    show (List.replicate numGameThreads GameThread.idle).countP _ = 0
    simp [List.countP_replicate, GameThread.holds]
  models m below := absurd below (Nat.not_lt_zero m)
  active := rfl

theorem running_setData (same : d.loop = .ended ↔ (s.data m).loop = .ended) :
    running s.numLoaded (Function.update s.data m d) = running s.numLoaded s.data := by
  refine Finset.filter_congr fun k _ => not_congr ?_
  by_cases here : k = m
  · rw [here, Function.update_self, same]
  · rw [Function.update_of_ne here]

/-- One model changes, and the threads do not. -/
theorem setData (sound : s.Sound settings) (same : d.loop = .ended ↔ (s.data m).loop = .ended)
    (changed : d.Sound settings (m ∈ s.modelDatas) (s.held m) (s.reserved m) 0 (s.inHand m)) :
    (s.setData m d).Sound settings where
  known := sound.known
  strangers := sound.strangers
  models k below := by
    show (Function.update s.data m d k).Sound settings (k ∈ s.modelDatas) (s.held k) (s.reserved k) 0 (s.inHand k)
    by_cases here : k = m
    · rw [here, Function.update_self]
      exact changed
    · rw [Function.update_of_ne here]
      exact sound.models k below
  active := by
    show s.numDataWriteLoopsActive = (running s.numLoaded (Function.update s.data m d)).card
    rw [running_setData same]
    exact sound.active

/-- One thread and its model change. -/
theorem thread (sound : s.Sound settings) (here : s.threads[i]? = some t) (old : t.Only m) (new : u.Only m)
    (below : m < s.numLoaded ∨ u.holds m = false) (same : d.loop = .ended ↔ (s.data m).loop = .ended)
    (changed : ∀ held reserved inHand, (s.data m).Sound settings (m ∈ s.modelDatas) (held + (t.holds m).toNat)
        (reserved + (t.reserves m).toNat) 0 (t.inHand m ++ inHand) → reserved ≤ held → inHand.length ≤ reserved →
      d.Sound settings (m ∈ s.modelDatas) (held + (u.holds m).toNat) (reserved + (u.reserves m).toNat) 0
        (u.inHand m ++ inHand)) :
    { s.setData m d with threads := s.threads.set i u }.Sound settings := by
  obtain ⟨inside, found⟩ := List.getElem?_eq_some_iff.1 here
  have split : s.threads = s.threads.take i ++ t :: s.threads.drop (i + 1) := by
    rw [← found, List.cons_getElem_drop_succ, List.take_append_drop]
  have replaced : s.threads.set i u = s.threads.take i ++ u :: s.threads.drop (i + 1) := by
    rw [List.set_eq_take_append_cons_drop, if_pos inside]
  obtain ⟨before, named⟩ : ∃ before, before = s.threads.take i := ⟨_, rfl⟩
  obtain ⟨after, named'⟩ : ∃ after, after = s.threads.drop (i + 1) := ⟨_, rfl⟩
  rw [← named, ← named'] at split replaced
  have count : ∀ (p : GameThread → Bool) (t : GameThread),
      (before ++ t :: after).countP p = (before ++ after).countP p + (p t).toNat := by
    intro p t
    rw [List.countP_append, List.countP_append, List.countP_cons]
    cases p t with
    | true => exact (Nat.add_assoc _ _ 1).symm
    | false => rfl
  have collect : ∀ (m : Nat) (t : GameThread), ((before ++ t :: after).flatMap (GameThread.inHand m)).Perm
      (t.inHand m ++ (before ++ after).flatMap (GameThread.inHand m)) := by
    intro m t
    exact (List.perm_middle (a := t)).flatMap_right (GameThread.inHand m)
  refine ⟨sound.known, fun k above => ?_, fun k known => ?_, ?_⟩
  · show (s.threads.set i u).countP (GameThread.holds k) = 0
    have none := sound.strangers k above
    unfold held at none
    rw [split, count] at none
    have free : u.holds k = false := by
      by_cases at' : k = m
      · rw [at'] at above ⊢
        exact below.resolve_left (Nat.not_lt.2 above)
      · exact (new k at').1
    rw [replaced, count, free]
    exact Nat.eq_zero_of_add_eq_zero_right none
  · show (Function.update s.data m d k).Sound settings (k ∈ s.modelDatas) ((s.threads.set i u).countP _)
      ((s.threads.set i u).countP _) 0 ((s.threads.set i u).flatMap _)
    have model := sound.models k known
    unfold held reserved inHand at model
    rw [split, count, count] at model
    rw [replaced, count, count]
    by_cases at' : k = m
    · subst at'
      rw [Function.update_self]
      exact (changed _ _ _ (model.perm (collect k t)) (GameThread.countP_reserves_le _ k)
        (GameThread.length_inHand_le _ k)).perm (collect k u).symm
    · rw [Function.update_of_ne at', (new k at').1, (new k at').2.1]
      rw [(old k at').1, (old k at').2.1] at model
      refine model.perm (((collect k t).trans ?_).trans (collect k u).symm)
      rw [(old k at').2.2, (new k at').2.2]
  · show s.numDataWriteLoopsActive = (running s.numLoaded (Function.update s.data m d)).card
    rw [running_setData same]
    exact sound.active

/-- One thread moves on. -/
theorem moveOn (sound : s.Sound settings) (here : s.threads[i]? = some t) (old : t.Only m) (new : u.Only m)
    (below : m < s.numLoaded ∨ u.holds m = false) (holds : u.holds m = t.holds m)
    (reserves : u.reserves m = t.reserves m) (inHand : u.inHand m = t.inHand m) :
    { s with threads := s.threads.set i u }.Sound settings := by
  have still : s.setData m (s.data m) = s := by
    unfold State.setData
    rw [Function.update_eq_self]
  have moved := sound.thread (d := s.data m) here old new below Iff.rfl fun _ _ _ model _ _ => by
    rw [holds, reserves, inHand]
    exact model
  rwa [still] at moved

theorem listed_of_holds (sound : s.Sound settings) (here : s.threads[i]? = some t) (holds : t.holds m = true) :
    m < s.numLoaded ∧ m ∈ s.modelDatas := by
  have some : s.held m ≠ 0 := by
    have positive : 0 < s.threads.countP (GameThread.holds m) :=
      List.countP_pos_iff.2 ⟨t, List.mem_of_getElem? here, holds⟩
    exact Nat.pos_iff_ne_zero.1 positive
  have below : m < s.numLoaded := by
    by_contra above
    exact some (sound.strangers m (Nat.not_lt.1 above))
  exact ⟨below, (sound.models m below).listed_of_held some⟩

/-- Models that nobody has acquired leave the list. -/
theorem unlist (sound : s.Sound settings) {unused : List Nat} (free : ∀ m ∈ unused, s.held m = 0) :
    (s.unlist unused).Sound settings where
  known m member := sound.known m (List.mem_filter.1 member).1
  strangers := sound.strangers
  models m below := by
    have model := sound.models m below
    show (if m ∈ unused then { s.data m with dataQueueReadOnly := true } else s.data m).Sound settings
      (m ∈ s.modelDatas.filter (· ∉ unused)) (s.held m) (s.reserved m) 0 (s.inHand m)
    by_cases gone : m ∈ unused
    · rw [if_pos gone, show (m ∈ s.modelDatas.filter (· ∉ unused)) = False by simp [gone], free m gone]
      rw [free m gone] at model
      exact model.unlist
    · rw [if_neg gone, show (m ∈ s.modelDatas.filter (· ∉ unused)) = (m ∈ s.modelDatas) by simp [gone]]
      exact model
  active := by
    have same : running s.numLoaded (s.unlist unused).data = running s.numLoaded s.data := by
      refine Finset.filter_congr fun m _ => not_congr ?_
      show (if m ∈ unused then { s.data m with dataQueueReadOnly := true } else s.data m).loop = .ended ↔ _
      split_ifs <;> exact Iff.rfl
    show s.numDataWriteLoopsActive = (running s.numLoaded (s.unlist unused).data).card
    rw [same]
    exact sound.active

theorem maybeAutoCleanup (sound : s.Sound settings) :
    ∃ s', s.maybeAutoCleanup settings = .ok s' ∧ s'.Sound settings := by
  unfold State.maybeAutoCleanup
  dsimp only
  split_ifs with automatic agree
  · refine ⟨_, rfl, sound.unlist fun m member => ?_⟩
    obtain ⟨listed, unused⟩ := List.mem_filter.1 member
    have acquired := (sound.models m (sound.known m (List.mem_of_mem_dropLast listed))).acquired
    have unused := of_decide_eq_true unused
    omega
  · exfalso
    refine agree (List.all_eq_true.2 fun m member => ?_)
    obtain ⟨listed, unused⟩ := List.mem_filter.1 member
    have acquired := (sound.models m (sound.known m (List.mem_of_mem_dropLast listed))).acquired
    have unused := of_decide_eq_true unused
    rw [decide_eq_true_eq]
    omega
  · exact ⟨s, rfl, sound⟩

end Sound

/-- Cleaning up does not look at the threads. -/
theorem maybeAutoCleanup_threads (s : State) (threads : List GameThread) :
    ({ s with threads := threads } : State).maybeAutoCleanup settings =
      (s.maybeAutoCleanup settings).map fun s => { s with threads := threads } := by
  unfold State.maybeAutoCleanup
  dsimp only
  split_ifs <;> rfl

namespace Sound

theorem withId (sound : s.Sound settings) (id : BitVec 64) : { s with nextExtremeCohortId := id }.Sound settings :=
  ⟨sound.known, sound.strangers, sound.models, sound.active⟩

theorem taken_of_reserves (sound : s.Sound settings) (here : s.threads[i]? = some t) (reserves : t.reserves m = true) :
    1 ≤ (s.data m).numUnwrittenGames := by
  have below := (sound.listed_of_holds here (GameThread.holds_of_reserves reserves)).1
  have some : 0 < s.threads.countP (GameThread.reserves m) :=
    List.countP_pos_iff.2 ⟨t, List.mem_of_getElem? here, reserves⟩
  have counted := (sound.models m below).counted
  unfold reserved at counted
  omega

/-- A launch gives the game a place in a cohort, unless a name is missing. -/
theorem countOneGame (sound : s.Sound settings) (listed : m ∈ s.modelDatas) (opponent : String) :
    s.countOneGameStartedAndGetCohort settings m opponent = .error .invalidLaunch ∨
      ∃ started isOpen id next attempt assignment, (0 ≤ attempt ∧ attempt < settings.groupSize) ∧
        s.countOneGameStartedAndGetCohort settings m opponent =
          .ok ({ s.setData m ((s.data m).launched started isOpen id attempt) with nextExtremeCohortId := next },
            assignment) := by
  have attempts := (sound.models m (sound.known m listed)).attempts
  have size := settings.size.1
  unfold countOneGameStartedAndGetCohort
  rw [if_neg (not_not.2 listed)]
  by_cases missing : opponent = ""
  · exact .inl (if_pos missing)
  rw [if_neg missing]
  dsimp only
  by_cases isOpen : (s.data m).hasOpenExtremeCohort = true
  · simp only [isOpen, if_true]
    split_ifs with invalid last agree
    · exact .inl rfl
    · exact .inr ⟨_, _, _, _, 0, _, ⟨Int.le_refl 0, size⟩, rfl⟩
    · omega
    · exact .inr ⟨_, _, _, _, _, _, ⟨by omega, by omega⟩, rfl⟩
  · simp only [isOpen, if_false, Bool.false_eq_true]
    split_ifs with invalid last agree
    · exact .inl rfl
    · exact .inr ⟨_, _, _, _, 0, _, ⟨Int.le_refl 0, size⟩, rfl⟩
    · omega
    · exact .inr ⟨_, _, _, _, _, _, ⟨by omega, by omega⟩, rfl⟩

open GameThread in
/-- A step of a game thread can only fail when it launches a game without a name. -/
theorem gameStep (sound : s.Sound settings) (here : s.threads[i]? = some t) {input : Input}
    {outcome : Except Failure (State × GameThread)} (step : s.gameStep settings t input = some outcome) :
    outcome = .error .invalidLaunch ∨
      ∃ s' u, outcome = .ok (s', u) ∧ { s' with threads := s.threads.set i u }.Sound settings := by
  have listed : ∀ {m}, t.holds m = true → m < s.numLoaded ∧ m ∈ s.modelDatas := sound.listed_of_holds here
  -- The thread moves on, and its model stays as it is.
  have moveOn : ∀ {m u}, t.holds m = true → u.holds m = true → u.reserves m = t.reserves m →
      u.inHand m = t.inHand m → { s with threads := s.threads.set i u }.Sound settings := by
    intro m u holds holds' reserves inHand
    exact sound.moveOn here (only_of_holds holds) (only_of_holds holds') (.inl (listed holds).1)
      (holds'.trans holds.symm) reserves inHand
  unfold State.gameStep at step
  split at step
  · cases step
    exact .inr ⟨_, _, rfl, sound.moveOn (m := 0) here (fun _ _ => ⟨rfl, rfl, rfl⟩) (fun _ _ => ⟨rfl, rfl, rfl⟩)
      (.inr rfl) rfl rfl rfl⟩
  · rename_i m
    split_ifs at step with member
    cases step
    refine .inr ⟨_, _, rfl, sound.thread here (fun _ _ => ⟨rfl, rfl, rfl⟩) (only_of_holds (decide_eq_true rfl))
      (.inl (sound.known m member)) Iff.rfl fun held reserved inHand model _ _ => ?_⟩
    simp only [holds, reserves, GameThread.inHand, decide_true, Bool.toNat_true] at model ⊢
    exact model.acquire member
  · rename_i m stop
    rw [if_pos (listed (decide_eq_true rfl)).2] at step
    cases step
    exact .inr ⟨_, _, rfl, moveOn (decide_eq_true (Eq.refl m)) (decide_eq_true rfl) rfl rfl⟩
  · rename_i m stop
    rcases (s.data m).pollCapacity_cases settings stop with poll | poll | ⟨below, poll⟩
    · rw [poll] at step
      cases step
      exact .inr ⟨_, _, rfl, moveOn (decide_eq_true (Eq.refl m)) (decide_eq_true rfl) rfl rfl⟩
    · rw [poll] at step
      cases step
      exact .inr ⟨_, _, rfl, moveOn (decide_eq_true (Eq.refl m)) (decide_eq_true rfl) rfl rfl⟩
    · rw [poll] at step
      cases step
      refine .inr ⟨_, _, rfl, sound.thread here (only_of_holds (decide_eq_true rfl)) (only_of_holds (decide_eq_true rfl))
        (.inl (listed (decide_eq_true rfl)).1) Iff.rfl fun held reserved inHand model free _ => ?_⟩
      simp only [holds, reserves, GameThread.inHand, decide_true, Bool.toNat_true] at model ⊢
      exact model.reserve (Nat.lt_succ_of_le free) below
  · rename_i m
    cases step
    exact .inr ⟨_, _, rfl, moveOn (decide_eq_true (Eq.refl m)) (decide_eq_true rfl) rfl rfl⟩
  · rename_i m opponent
    rcases sound.countOneGame (listed (decide_eq_true (Eq.refl m))).2 opponent with
      missing | ⟨started, isOpen, id, next, attempt, assignment, inside, call⟩
    · rw [missing] at step
      cases step
      exact .inl rfl
    · rw [call] at step
      cases step
      have moved := sound.thread (m := m) (u := .playing m assignment)
        (d := (s.data m).launched started isOpen id attempt) here (only_of_holds (decide_eq_true rfl))
        (only_of_holds (decide_eq_true rfl)) (.inl (listed (decide_eq_true rfl)).1) Iff.rfl
        fun held reserved inHand model _ _ => by
          simp only [holds, reserves, GameThread.inHand, decide_true, Bool.toNat_true] at model ⊢
          exact model.launch started isOpen id inside
      exact .inr ⟨_, _, rfl, moved.withId next⟩
  · rename_i m assignment gameData
    cases step
    exact .inr ⟨_, _, rfl, moveOn (decide_eq_true (Eq.refl m)) (decide_eq_true rfl) rfl rfl⟩
  · rename_i m gameData stop
    rw [if_pos (listed (decide_eq_true rfl)).2] at step
    cases step
    refine .inr ⟨_, .pushing m gameData, rfl, sound.thread here (only_of_holds (decide_eq_true rfl))
      (only_of_holds (decide_eq_true rfl)) (.inl (listed (decide_eq_true rfl)).1) Iff.rfl
      fun held reserved inHand model _ free => ?_⟩
    simp only [holds, reserves, GameThread.inHand, decide_true, Bool.toNat_true, if_true] at model ⊢
    exact model.enqueue (List.Perm.refl _) (Nat.lt_succ_of_le free)
  · rename_i m stop
    rw [if_pos (listed (decide_eq_true rfl)).2] at step
    cases step
    exact .inr ⟨_, _, rfl, moveOn (decide_eq_true (Eq.refl m)) (decide_eq_true rfl) rfl rfl⟩
  · rename_i m gameData stop
    rcases (s.data m).waitPush_cases settings gameData with push | push | ⟨writable, push⟩
    · rw [push] at step
      cases step
    · rw [push] at step
      cases step
      exact .inr ⟨_, _, rfl, moveOn (decide_eq_true (Eq.refl m)) (decide_eq_true rfl) rfl rfl⟩
    · rw [push] at step
      cases step
      refine .inr ⟨_, .leaving m true, rfl, sound.thread here (only_of_holds (decide_eq_true rfl)) (only_of_holds (decide_eq_true rfl))
        (.inl (listed (decide_eq_true rfl)).1) Iff.rfl fun held reserved inHand model _ _ => ?_⟩
      simp only [holds, reserves, GameThread.inHand, decide_true, Bool.toNat_true, if_true] at model ⊢
      exact model.push (List.Perm.refl _) writable
  · rename_i m gameData stop
    have taken : 1 ≤ ((s.data m).delete [gameData]).numUnwrittenGames :=
      sound.taken_of_reserves here (decide_eq_true (Eq.refl m))
    rw [ModelData.releaseUnwrittenGames_one taken] at step
    cases step
    refine .inr ⟨_, .leaving m true, rfl, sound.thread here (only_of_holds (decide_eq_true rfl))
      (only_of_holds (decide_eq_true rfl)) (.inl (listed (decide_eq_true rfl)).1) Iff.rfl
      fun held reserved inHand model _ _ => ?_⟩
    simp only [holds, reserves, GameThread.inHand, decide_true, Bool.toNat_true, if_true] at model ⊢
    exact (model.refuse (List.Perm.refl _)).settle.2
  · rename_i m stop
    rw [ModelData.releaseUnwrittenGames_one (sound.taken_of_reserves here (decide_eq_true (Eq.refl m)))] at step
    cases step
    refine .inr ⟨_, .leaving m false, rfl, sound.thread here (only_of_holds (decide_eq_true rfl))
      (only_of_holds (decide_eq_true rfl)) (.inl (listed (decide_eq_true rfl)).1) Iff.rfl
      fun held reserved inHand model _ free => ?_⟩
    simp only [holds, reserves, GameThread.inHand, decide_true, Bool.toNat_true, List.nil_append] at model ⊢
    exact (model.cancel free).settle.2
  · rename_i m shouldContinue stop
    obtain ⟨u, named⟩ : ∃ u, u = if shouldContinue = true then GameThread.idle else .stopped := ⟨_, rfl⟩
    have quiet : ∀ k, u.holds k = false ∧ u.reserves k = false ∧ u.inHand k = [] := by
      intro k
      rw [named]
      split_ifs <;> exact ⟨rfl, rfl, rfl⟩
    have left := sound.thread (d := { s.data m with acquireCount := (s.data m).acquireCount - 1 }) (u := u) here
      (only_of_holds (decide_eq_true rfl)) (fun k _ => quiet k) (.inr (quiet m).1) Iff.rfl
      fun held reserved inHand model free _ => by
        rw [(quiet m).1, (quiet m).2.1, (quiet m).2.2]
        simp only [holds, reserves, GameThread.inHand, decide_true, Bool.toNat_true] at model
        exact model.release free
    obtain ⟨s', clean, sound'⟩ := left.maybeAutoCleanup
    rw [maybeAutoCleanup_threads] at clean
    rw [State.release, if_pos (listed (decide_eq_true rfl)).2, ← named] at step
    cases cleaned : (s.setData m { s.data m with acquireCount := (s.data m).acquireCount - 1 }).maybeAutoCleanup
      settings with
    | error failure =>
      rw [cleaned] at clean
      cases clean
    | ok s₂ =>
      rw [cleaned] at clean step
      cases clean
      cases step
      exact .inr ⟨s₂, u, rfl, sound'⟩
  · cases step

theorem load (sound : s.Sound settings) {modelName : String} {outcome : Except Failure State}
    (step : s.loadModelAndStartDataWriting settings modelName = some outcome) :
    ∃ s', outcome = .ok s' ∧ s'.Sound settings := by
  unfold loadModelAndStartDataWriting at step
  split_ifs at step
  cases step
  apply maybeAutoCleanup
  have fresh : ∀ m < s.numLoaded, m ≠ s.numLoaded := fun m below => Nat.ne_of_lt below
  have free : s.held s.numLoaded = 0 := sound.strangers _ (Nat.le_refl _)
  refine ⟨fun m member => ?_, fun m above => sound.strangers m (Nat.le_of_succ_le above), fun m below => ?_, ?_⟩
  · rcases List.mem_append.1 member with old | new
    · exact Nat.lt_succ_of_lt (sound.known m old)
    · rw [List.mem_singleton.1 new]
      exact Nat.lt_succ_self _
  · show (Function.update s.data s.numLoaded (ModelData.new modelName) m).Sound settings
      (m ∈ s.modelDatas ++ [s.numLoaded]) (s.held m) (s.reserved m) 0 (s.inHand m)
    by_cases last : m = s.numLoaded
    · subst last
      have none : s.reserved s.numLoaded = 0 :=
        Nat.le_zero.1 (free ▸ GameThread.countP_reserves_le s.threads s.numLoaded)
      have handless : s.inHand s.numLoaded = [] :=
        List.length_eq_zero_iff.1 (Nat.le_zero.1 (none ▸ GameThread.length_inHand_le s.threads s.numLoaded))
      rw [Function.update_self, free, none, handless]
      exact (ModelData.Sound.new settings modelName).listed_congr (by simp)
    · rw [Function.update_of_ne last]
      exact (sound.models m (Nat.lt_of_le_of_ne (Nat.le_of_lt_succ below) last)).listed_congr (by simp [last])
  · have grown : running (s.numLoaded + 1) (Function.update s.data s.numLoaded (ModelData.new modelName)) =
        insert s.numLoaded (running s.numLoaded s.data) := by
      unfold running
      rw [Finset.range_add_one, Finset.filter_insert, Function.update_self, if_pos (by simp [ModelData.new])]
      congr 1
      refine Finset.filter_congr fun m member => ?_
      rw [Function.update_of_ne (fresh m (Finset.mem_range.1 member))]
    have absent : s.numLoaded ∉ running s.numLoaded s.data := by simp [running]
    show s.numDataWriteLoopsActive + 1 =
      (running (s.numLoaded + 1) (Function.update s.data s.numLoaded (ModelData.new modelName))).card
    rw [grown, Finset.card_insert_of_notMem absent, sound.active]
    push_cast
    rfl

theorem shutdown (sound : s.Sound settings) {outcome : Except Failure State} (step : s.shutdown = some outcome) :
    ∃ s', outcome = .ok s' ∧ s'.Sound settings := by
  unfold State.shutdown at step
  split_ifs at step with stopped free
  · cases step
    refine ⟨_, rfl, sound.unlist fun m _ => ?_⟩
    refine List.countP_eq_zero.2 fun t member holds => ?_
    rw [of_decide_eq_true (List.all_eq_true.1 stopped t member)] at holds
    exact Bool.false_ne_true holds
  · refine absurd (List.all_eq_true.2 fun m member => decide_eq_true ?_) free
    have none : s.held m = 0 := by
      refine List.countP_eq_zero.2 fun t member holds => ?_
      rw [of_decide_eq_true (List.all_eq_true.1 stopped t member)] at holds
      exact Bool.false_ne_true holds
    rw [(sound.models m (sound.known m member)).acquired, none]
    rfl

theorem closeQueue (sound : s.Sound settings) {outcome : Except Failure State} (step : s.closeQueue m = some outcome) :
    ∃ s', outcome = .ok s' ∧ s'.Sound settings := by
  unfold State.closeQueue at step
  split_ifs at step with readOnly
  cases step
  exact ⟨_, rfl, sound.setData Iff.rfl ((sound.models m readOnly.1).close readOnly.2)⟩

/-- The last step of a loop takes it off the count of running loops. -/
theorem finish (sound : s.Sound settings) (below : m < s.numLoaded) (here : (s.data m).loop = .deleted) :
    { s.setData m { s.data m with loop := .ended } with
      numDataWriteLoopsActive := s.numDataWriteLoopsActive - 1 }.Sound settings := by
  have model := sound.models m below
  refine ⟨sound.known, sound.strangers, fun k known => ?_, ?_⟩
  · show (Function.update s.data m { s.data m with loop := .ended } k).Sound settings (k ∈ s.modelDatas) (s.held k)
      (s.reserved k) 0 (s.inHand k)
    by_cases same : k = m
    · rw [same, Function.update_self]
      exact model.advance (by rw [here]; rfl) (by simp [here]) (by rw [here]; rfl)
    · rw [Function.update_of_ne same]
      exact sound.models k known
  · have member : m ∈ running s.numLoaded s.data := Finset.mem_filter.2 ⟨Finset.mem_range.2 below, by simp [here]⟩
    have shrunk : running s.numLoaded (Function.update s.data m { s.data m with loop := .ended }) =
        (running s.numLoaded s.data).erase m := by
      ext k
      unfold running
      rw [Finset.mem_erase, Finset.mem_filter, Finset.mem_filter]
      by_cases same : k = m
      · simp [same]
      · rw [Function.update_of_ne same]
        exact (and_iff_right same).symm
    show s.numDataWriteLoopsActive - 1 =
      (running s.numLoaded (Function.update s.data m { s.data m with loop := .ended })).card
    rw [shrunk, Finset.card_erase_of_mem member, sound.active, Nat.cast_sub (Finset.card_pos.2 ⟨m, member⟩)]
    rfl

theorem loopStep (sound : s.Sound settings) (below : m < s.numLoaded) {outcome : Except Failure State}
    (step : s.loopStep settings creditError m = some outcome) : ∃ s', outcome = .ok s' ∧ s'.Sound settings := by
  have model := sound.models m below
  unfold State.loopStep at step
  dsimp only at step
  split at step
  · rename_i here
    obtain ⟨-, -, unlisted, -⟩ := model.ended (by rw [here]; rfl) (by simp [here])
    rw [if_neg unlisted] at step
    cases step
    exact ⟨_, rfl, sound.setData (by simp [here])
      (model.advance (by rw [here]; rfl) (by simp [here]) (by rw [here]; rfl))⟩
  · rename_i here
    have last := sound.finish below here
    have active : s.numDataWriteLoopsActive - 1 =
      (running s.numLoaded (Function.update s.data m { s.data m with loop := .ended })).card := last.active
    have listed : ∀ k ∈ s.modelDatas,
        k ∈ running s.numLoaded (Function.update s.data m { s.data m with loop := .ended }) := by
      intro k member
      refine Finset.mem_filter.2 ⟨Finset.mem_range.2 (last.known k member), fun done => ?_⟩
      have gone := (last.models k (last.known k member)).ended (by
        show (Function.update s.data m _ k).loop.pastQueue = true
        rw [done]
        rfl) (by
        show (Function.update s.data m _ k).loop ≠ .draining
        rw [done]
        exact WriteLoop.noConfusion)
      exact gone.2.2.1 member
    split_ifs at step with negative idle
    · omega
    · obtain ⟨k, rest, cons⟩ := List.exists_cons_of_ne_nil idle.2
      have member := listed k (by rw [show s.modelDatas = k :: rest from cons]; exact List.mem_cons_self)
      have positive := Finset.card_pos.2 ⟨k, member⟩
      omega
    · cases step
      exact ⟨_, rfl, last⟩
  · obtain ⟨outcome', local', rfl⟩ := Option.map_eq_some_iff.1 step
    obtain ⟨d, rfl, sound', running, running'⟩ := model.writeStep local'
    exact ⟨_, rfl, sound.setData (iff_of_false running' running) sound'⟩

/-- No step fails, but for a launch without a name, and every step keeps the count. -/
theorem step (sound : s.Sound settings) {action : Action} {outcome : Except Failure State}
    (step : s.step settings creditError action = some outcome) :
    outcome = .error .invalidLaunch ∨ ∃ s', outcome = .ok s' ∧ s'.Sound settings := by
  cases action with
  | load modelName => exact .inr (sound.load step)
  | shutdown => exact .inr (sound.shutdown step)
  | closeQueue m => exact .inr (sound.closeQueue step)
  | loop m =>
    unfold State.step at step
    simp only at step
    split_ifs at step with below
    exact .inr (sound.loopStep below step)
  | game i input =>
    unfold State.step at step
    simp only at step
    cases here : s.threads[i]? with
    | none =>
      rw [here] at step
      cases step
    | some t =>
      rw [here] at step
      obtain ⟨outcome', moved, rfl⟩ := Option.map_eq_some_iff.1 step
      rcases sound.gameStep here moved with rfl | ⟨s', u, rfl, sound'⟩
      · exact .inl rfl
      · exact .inr ⟨_, rfl, sound'⟩

theorem run (sound : s.Sound settings) (actions : List Action) {outcome : Except Failure State}
    (run : s.run settings creditError actions = some outcome) :
    outcome = .error .invalidLaunch ∨ ∃ s', outcome = .ok s' ∧ s'.Sound settings := by
  induction actions generalizing s with
  | nil =>
    cases run
    exact .inr ⟨s, rfl, sound⟩
  | cons action rest ih =>
    unfold State.run at run
    split at run
    · cases run
    · rename_i failure failed
      cases run
      rcases sound.step failed with same | ⟨s', same, -⟩
      · exact .inl same
      · cases same
    · rename_i s₁ moved
      rcases sound.step moved with same | ⟨s', same, sound'⟩
      · cases same
      · cases same
        exact ih sound' run

end Sound

/-- Whatever the order of the steps: no assertion of the manager and its loops fails; the counter of a model is
the number of places that threads have at it, of games in its queue, of games in the hands of its loop and of
games in its cohort buffer, and is at most the size of the queue; every game that is passed to
`enqueueDataToWrite` is in one of these places, or has been written, or deleted, once; and when
the loop has ended the counter is zero, and every game has been written or deleted. -/
theorem run_conserved (settings : Settings) (creditError : List FinishedGameData → Option String) (numGameThreads : Nat)
    (actions : List Action) (outcome : Except Failure State)
    (run : (start settings numGameThreads).run settings creditError actions = some outcome) :
    outcome = .error .invalidLaunch ∨ ∃ s, outcome = .ok s ∧ ∀ m < s.numLoaded,
      (s.data m).numUnwrittenGames = s.reserved m + (s.data m).finishedGameQueue.length +
        (s.data m).loop.games.length + (s.data m).cohortBuffer.numPendingGames ∧
      (s.data m).numUnwrittenGames ≤ settings.maxDataQueueSize ∧
      (s.data m).enqueued.Perm (s.inHand m ++ ((s.data m).finishedGameQueue ++ ((s.data m).loop.games ++
        ((s.data m).cohortBuffer.pendingGames ++ ((s.data m).written ++ (s.data m).deleted))))) ∧
      ((s.data m).loop.pastQueue = true → (s.data m).loop ≠ .draining →
        (s.data m).numUnwrittenGames = 0 ∧ (s.data m).enqueued.Perm ((s.data m).written ++ (s.data m).deleted)) := by
  rcases (Sound.start settings numGameThreads).run actions run with missing | ⟨s, same, sound⟩
  · exact .inl missing
  · refine .inr ⟨s, same, fun m below => ?_⟩
    have model := sound.models m below
    refine ⟨?_, model.bounded, model.accounted, fun past other => ?_⟩
    · rw [ExtremeCohortGameBuffer.numPendingGames_eq]
      exact model.counted
    · obtain ⟨none, -, -, all⟩ := model.ended past other
      exact ⟨none, all⟩

section Sample

/-- Cohorts of one game. -/
def single : Settings where
  groupSize := 1
  focalPla := .black
  configIdentity := "config"
  runIdentity := "run"
  cohortIdStart := 0
  maxDataQueueSize := 2
  autoCleanupAllButLatestIfUnused := true
  size := by decide
  player := by decide
  multiple := by decide
  identities := by decide

def assigned : FinishedGameData := ⟨⟨true, 1, 0, 0, 1, .black, "net", "opponent", "config", "run"⟩, 0, 3, by decide⟩

def unassigned : FinishedGameData := ⟨ExtremeCohortData.unassigned, 0, 3, by decide⟩

/-- Two threads play a game each; the second game has lost its assignment. -/
def twoGames : List Action :=
  [.load "net", .game 0 (.acquire 0), .game 0 (.shouldStop false), .game 0 (.shouldStop false),
    .game 0 (.launch "opponent"), .game 1 (.acquire 0), .game 1 (.shouldStop false), .game 1 (.shouldStop false),
    .game 1 (.launch "opponent"), .game 0 (.finish (some assigned)), .game 0 (.shouldStop false),
    .game 0 (.shouldStop false), .loop 0, .game 1 (.finish (some unassigned)), .game 1 (.shouldStop false), .loop 0,
    .loop 0, .loop 0, .game 1 (.shouldStop false), .loop 0, .loop 0, .game 0 (.shouldStop true),
    .game 1 (.shouldStop true), .game 0 (.shouldStop true), .game 1 (.shouldStop true), .shutdown, .closeQueue 0,
    .loop 0, .loop 0, .loop 0, .loop 0, .loop 0]

/-- The counter of the model at the end of both games. -/
theorem run_conserved_two_games : ∃ s, (start single 2).run single (fun _ => none) twoGames = some (.ok s) ∧
    (s.data 0).loop = .ended ∧ (s.data 0).numUnwrittenGames = 0 ∧
      (s.data 0).enqueued.Perm ((s.data 0).written ++ (s.data 0).deleted) := by
  have shape : ((start single 2).run single (fun _ => none) twoGames).map
      (fun outcome => outcome.map fun s => (s.numLoaded, (s.data 0).loop)) = some (.ok (1, .ended)) := by decide +kernel
  cases run : (start single 2).run single (fun _ => none) twoGames with
  | none =>
    rw [run] at shape
    cases shape
  | some outcome =>
    rcases run_conserved single (fun _ => none) 2 twoGames outcome run with rfl | ⟨s, rfl, counts⟩
    · rw [run] at shape
      cases shape
    · rw [run] at shape
      obtain ⟨loaded, loop⟩ := Prod.mk.inj (Except.ok.inj (Option.some.inj shape))
      obtain ⟨-, -, -, ended⟩ := counts 0 (by omega)
      obtain ⟨none, all⟩ := ended (by rw [loop]; rfl) (by rw [loop]; exact WriteLoop.noConfusion)
      exact ⟨s, rfl, loop, none, all⟩

/-- A game is handed over that is never written. -/
theorem enqueued_not_written : ((start single 2).run single (fun _ => none) twoGames).map (fun outcome =>
    outcome.map fun s => ((s.data 0).loop, decide (unassigned ∈ (s.data 0).enqueued),
      decide (unassigned ∈ (s.data 0).written))) = some (.ok (.ended, true, false)) := by
  decide +kernel

end Sample

end State
end KataGo.Selfplay
