import KataGo.Search.TimeControls
import Mathlib.Algebra.Order.Field.Rat
import Mathlib.Tactic.Linarith
import Mathlib.Tactic.NormNum
import Mathlib.Tactic.Positivity
import Mathlib.Tactic.Ring

/-! No move is given all of the time that is left. -/

namespace KataGo.Search
open KataGo.Game

variable {K : Type} [Field K] [LinearOrder K] {time lagBuffer perPeriodTime : K}

namespace Clock

variable {clock : Clock K} {numStonesPerPeriod : Int}

/-- The time until the clock runs out. -/
def remaining (perPeriodTime : K) (clock : Clock K) : K :=
  if clock.inOvertime then
    clock.timeLeftInPeriod + ((clock.numPeriodsLeftIncludingCurrent - 1 : Int) : K) * perPeriodTime
  else clock.mainTimeLeft + (clock.numPeriodsLeftIncludingCurrent : K) * perPeriodTime

section Roll

theorem enterOvertime_remaining (clock : Clock K) :
    (clock.enterOvertime perPeriodTime numStonesPerPeriod).remaining perPeriodTime = clock.remaining perPeriodTime := by
  unfold enterOvertime
  split_ifs with past
  · simp only [remaining, past.2, if_true, Bool.false_eq_true, if_false]
    push_cast
    ring
  · rfl

/-- Rolling keeps the time that remains. -/
theorem rollPeriods_remaining (later : Nat) (overtime : clock.inOvertime = true) :
    (clock.rollPeriods perPeriodTime later).remaining perPeriodTime = clock.remaining perPeriodTime := by
  induction later generalizing clock with
  | zero => rfl
  | succ later ih =>
    rw [rollPeriods]
    split_ifs
    · refine (ih (by exact overtime)).trans ?_
      simp only [remaining, overtime, if_true]
      push_cast
      ring
    · rfl

theorem roll_remaining (clock : Clock K) (perPeriodTime : K) (numStonesPerPeriod : Int) :
    (clock.roll perPeriodTime numStonesPerPeriod).remaining perPeriodTime = clock.remaining perPeriodTime := by
  rw [roll]
  split_ifs with overtime
  · rw [rollPeriods_remaining _ overtime, enterOvertime_remaining]
  · exact enterOvertime_remaining clock

/-- What rolling through periods leaves as it was. -/
theorem rollPeriods_frame (perPeriodTime : K) (later : Nat) (clock : Clock K) :
    (clock.rollPeriods perPeriodTime later).mainTimeLeft = clock.mainTimeLeft ∧
      (clock.rollPeriods perPeriodTime later).inOvertime = clock.inOvertime ∧
      (clock.rollPeriods perPeriodTime later).numStonesLeftInPeriod = clock.numStonesLeftInPeriod := by
  induction later generalizing clock with
  | zero => exact ⟨rfl, rfl, rfl⟩
  | succ later ih =>
    rw [rollPeriods]
    split_ifs
    · exact ih _
    · exact ⟨rfl, rfl, rfl⟩

theorem rollPeriods_periods (perPeriodTime : K) (later : Nat)
    (left : clock.numPeriodsLeftIncludingCurrent = later + 1) :
    1 ≤ (clock.rollPeriods perPeriodTime later).numPeriodsLeftIncludingCurrent ∧
      (clock.rollPeriods perPeriodTime later).numPeriodsLeftIncludingCurrent ≤ clock.numPeriodsLeftIncludingCurrent ∧
      (0 ≤ (clock.rollPeriods perPeriodTime later).timeLeftInPeriod ∨
        (clock.rollPeriods perPeriodTime later).numPeriodsLeftIncludingCurrent = 1) := by
  induction later generalizing clock with
  | zero =>
    rw [rollPeriods]
    exact ⟨by omega, le_rfl, .inr (by omega)⟩
  | succ later ih =>
    rw [rollPeriods]
    split_ifs with past
    · obtain ⟨least, most, period⟩ := @ih { clock with
        numPeriodsLeftIncludingCurrent := clock.numPeriodsLeftIncludingCurrent - 1
        timeLeftInPeriod := clock.timeLeftInPeriod + perPeriodTime } (by show _ - 1 = _; omega)
      exact ⟨least, most.trans (by show _ - 1 ≤ _; omega), period⟩
    · exact ⟨by omega, le_rfl, .inl (not_lt.1 past)⟩

theorem enterOvertime_frame (clock : Clock K) (perPeriodTime : K) (numStonesPerPeriod : Int) :
    (clock.enterOvertime perPeriodTime numStonesPerPeriod).mainTimeLeft = clock.mainTimeLeft ∧
      (clock.enterOvertime perPeriodTime numStonesPerPeriod).numPeriodsLeftIncludingCurrent =
        clock.numPeriodsLeftIncludingCurrent := by
  unfold enterOvertime
  split_ifs
  · exact ⟨rfl, rfl⟩
  · exact ⟨rfl, rfl⟩

theorem enterOvertime_overtime (clock : Clock K) (perPeriodTime : K) (numStonesPerPeriod : Int) :
    (clock.enterOvertime perPeriodTime numStonesPerPeriod).inOvertime = true ↔
      clock.inOvertime = true ∨ clock.mainTimeLeft < 0 := by
  unfold enterOvertime
  split_ifs with past
  · exact ⟨fun _ => .inr past.1, fun _ => rfl⟩
  · refine ⟨.inl, fun either => either.elim id fun negative => ?_⟩
    exact Bool.eq_false_imp_eq_true.1 fun before => absurd ⟨negative, before⟩ past

/-- What is left of a clock after it is rolled to where it is. -/
structure Rolled (perPeriodTime : K) (clock rolled : Clock K) : Prop where
  total : rolled.remaining perPeriodTime = clock.remaining perPeriodTime
  main : rolled.mainTimeLeft = clock.mainTimeLeft
  overtime : rolled.inOvertime = true ↔ clock.inOvertime = true ∨ clock.mainTimeLeft < 0
  least : 1 ≤ rolled.numPeriodsLeftIncludingCurrent
  most : rolled.numPeriodsLeftIncludingCurrent ≤ clock.numPeriodsLeftIncludingCurrent
  period : rolled.inOvertime = true → 0 ≤ rolled.timeLeftInPeriod ∨ rolled.numPeriodsLeftIncludingCurrent = 1

theorem roll_rolled (periods : 1 ≤ clock.numPeriodsLeftIncludingCurrent) :
    Rolled perPeriodTime clock (clock.roll perPeriodTime numStonesPerPeriod) := by
  obtain ⟨main, same⟩ := clock.enterOvertime_frame perPeriodTime numStonesPerPeriod
  have entered := clock.enterOvertime_overtime perPeriodTime numStonesPerPeriod
  have total := clock.roll_remaining perPeriodTime numStonesPerPeriod
  rw [roll] at total ⊢
  split_ifs at total ⊢ with overtime
  · have left : (clock.enterOvertime perPeriodTime numStonesPerPeriod).numPeriodsLeftIncludingCurrent =
        ((clock.enterOvertime perPeriodTime numStonesPerPeriod).numPeriodsLeftIncludingCurrent - 1).toNat + 1 := by
      omega
    obtain ⟨least, most, period⟩ := rollPeriods_periods perPeriodTime _ left
    obtain ⟨mainSame, overtimeSame, -⟩ := rollPeriods_frame perPeriodTime
      ((clock.enterOvertime perPeriodTime numStonesPerPeriod).numPeriodsLeftIncludingCurrent - 1).toNat
      (clock.enterOvertime perPeriodTime numStonesPerPeriod)
    exact ⟨total, mainSame.trans main, overtimeSame ▸ entered, least, most.trans same.le, fun _ => period⟩
  · exact ⟨total, main, entered, same ▸ periods, same.le, fun wrong => absurd wrong overtime⟩

end Roll

end Clock

variable [IsStrictOrderedRing K]

section Lag

theorem applyLagBuffer_lt (lag : 0 < lagBuffer) (positive : 0 < time) : applyLagBuffer time lagBuffer < time := by
  unfold applyLagBuffer
  split_ifs with negative short
  · exact absurd negative positive.not_gt
  · linarith
  · linarith

theorem applyLagBuffer_nonneg (lag : 0 < lagBuffer) (nonneg : 0 ≤ time) : 0 ≤ applyLagBuffer time lagBuffer := by
  unfold applyLagBuffer
  split_ifs with negative short
  · exact nonneg
  · linarith
  · linarith

theorem applyLagBuffer_nonpos (lag : 0 < lagBuffer) (nonpos : time ≤ 0) : applyLagBuffer time lagBuffer ≤ 0 := by
  unfold applyLagBuffer
  split_ifs with negative short
  · exact nonpos
  · linarith
  · linarith

end Lag

namespace TimeControls

variable {expNegOne : K} {self : TimeControls K} {turns : TurnsLeft K} {plan : Plan K} {clock : Clock K}

/-- The total time before the clock runs out. -/
def remaining (self : TimeControls K) : K :=
  if self.isFischer then self.mainTimeLeft else self.clock.remaining self.perPeriodTime

section Shares

variable {numStones : Int}

theorem shareOfPeriod_bounds (stones : 1 ≤ numStones) (nonneg : 0 ≤ time) :
    0 ≤ shareOfPeriod time numStones ∧ shareOfPeriod time numStones ≤ time := by
  have count : (1 : K) ≤ numStones := by exact_mod_cast stones
  have least : (1 : K) ≤ 0.75 * numStones + 0.25 := by linarith
  exact ⟨div_nonneg nonneg (zero_le_one.trans least), div_le_self nonneg least⟩

theorem shareOfPeriod_nonpos (stones : 1 ≤ numStones) (nonpos : time ≤ 0) : shareOfPeriod time numStones ≤ 0 := by
  have count : (1 : K) ≤ numStones := by exact_mod_cast stones
  exact div_nonpos_of_nonpos_of_nonneg nonpos (by linarith)

end Shares

/-- In main time, a move never takes more than what is left and one period. -/
theorem mainTimePlan_le (nonneg : 0 ≤ self.perPeriodTime) (stones : 1 ≤ self.numStonesPerPeriod) :
    (mainTimePlan expNegOne self turns lagBuffer clock).maxTime ≤ self.perPeriodTime + max 0 clock.mainTimeLeft := by
  obtain ⟨large, whole⟩ := shareOfPeriod_bounds stones nonneg
  have left : clock.mainTimeLeft ≤ max 0 clock.mainTimeLeft := le_max_right _ _
  have zero : 0 ≤ max 0 clock.mainTimeLeft := le_max_left _ _
  have fifth : clock.mainTimeLeft / 5 ≤ max 0 clock.mainTimeLeft := by
    rw [div_le_iff₀ (by norm_num)]
    linarith
  have part : max (min (shareOfPeriod self.perPeriodTime self.numStonesPerPeriod * 1.75) clock.mainTimeLeft)
      (clock.mainTimeLeft / 5) ≤ max 0 clock.mainTimeLeft :=
    max_le ((min_le_right _ _).trans left) fifth
  rw [mainTimePlan]
  dsimp only
  split_ifs
  · linarith
  · linarith

/-- A plan of a move that stays within the time that remains. -/
structure Within (plan : Plan K) (time : K) : Prop where
  max_le : plan.maxTime ≤ max 0 time
  lag : 0 < plan.lagBufferToUse

omit [IsStrictOrderedRing K] in
theorem fischerPlan_within (lag : 0 < lagBuffer) :
    Within (fischerPlan expNegOne self turns lagBuffer) self.mainTimeLeft := by
  unfold fischerPlan
  split_ifs
  · exact ⟨le_max_right _ _, lag⟩
  · exact ⟨(min_le_left _ _).trans (le_max_right _ _), lag⟩

/-- What the callers of `getTime` keep to. -/
structure Proper (controls : TimeControls K) : Prop where
  period : 0 ≤ controls.perPeriodTime
  overtime : controls.inOvertime = true → controls.mainTimeLeft = 0

section ByoYomi

variable {rolled : Clock K} (proper : self.Proper) (same : Clock.Rolled self.perPeriodTime self.clock rolled)
include proper same

/-- More periods than are reserved leave a whole one. -/
theorem period_le_remaining (many : rolled.numPeriodsLeftIncludingCurrent > numReservedPeriods) :
    self.perPeriodTime ≤ self.clock.remaining self.perPeriodTime := by
  have nonneg := proper.period
  have reserved : (6 : K) * self.perPeriodTime ≤ rolled.numPeriodsLeftIncludingCurrent * self.perPeriodTime :=
    mul_le_mul_of_nonneg_right (by exact_mod_cast many) nonneg
  rw [← same.total, Clock.remaining]
  split_ifs with overtime
  · have period : 0 ≤ rolled.timeLeftInPeriod :=
      (same.period overtime).resolve_right (by rw [gt_iff_lt, numReservedPeriods] at many; omega)
    push_cast
    linarith
  · have main : 0 ≤ rolled.mainTimeLeft := by
      rw [same.main]
      exact not_lt.1 fun negative => overtime (same.overtime.2 (.inr negative))
    linarith

/-- A move that is planned in main time can take all that is treated as main time, and one more period. -/
theorem reservePeriods_main (main : (reservePeriods self rolled).inOvertime = false) :
    self.perPeriodTime + max 0 (reservePeriods self rolled).mainTimeLeft ≤ self.clock.remaining self.perPeriodTime := by
  have left : rolled.mainTimeLeft = self.mainTimeLeft := same.main
  have nonneg := proper.period
  rw [← le_sub_iff_add_le']
  unfold reservePeriods at main ⊢
  split_ifs at main ⊢ with many own
  · have most : (rolled.numPeriodsLeftIncludingCurrent : K) * self.perPeriodTime ≤
        self.numPeriodsLeftIncludingCurrent * self.perPeriodTime :=
      mul_le_mul_of_nonneg_right (by exact_mod_cast same.most) nonneg
    refine max_le (sub_nonneg.2 (period_le_remaining proper same many)) ?_
    simp only [Clock.remaining, clock, own, Bool.false_eq_true, if_false, left, numReservedPeriods]
    push_cast
    linarith
  · have past : rolled.inOvertime = true := same.overtime.2 (.inl (Bool.eq_true_of_not_eq_false own))
    refine max_le (sub_nonneg.2 (period_le_remaining proper same many)) ?_
    rw [← same.total]
    simp only [Clock.remaining, past, if_true, left, proper.overtime (Bool.eq_true_of_not_eq_false own),
      numReservedPeriods]
    push_cast
    linarith
  · have least : (1 : K) * self.perPeriodTime ≤ rolled.numPeriodsLeftIncludingCurrent * self.perPeriodTime :=
      mul_le_mul_of_nonneg_right (by exact_mod_cast same.least) nonneg
    have positive : 0 ≤ rolled.mainTimeLeft := by
      rw [same.main]
      exact not_lt.1 fun negative => by simp [same.overtime.2 (.inr negative)] at main
    rw [max_eq_right positive, ← same.total]
    simp only [Clock.remaining, main, Bool.false_eq_true, if_false]
    linarith

omit [IsStrictOrderedRing K] proper same in
theorem usePeriod_remaining (self : TimeControls K) (lagBuffer : K) (clock : Clock K)
    (overtime : clock.inOvertime = true) :
    (usePeriod self lagBuffer clock).inOvertime = true ∧
      (usePeriod self lagBuffer clock).remaining self.perPeriodTime = clock.remaining self.perPeriodTime ∧
      (usePeriod self lagBuffer clock).numStonesLeftInPeriod = clock.numStonesLeftInPeriod := by
  unfold usePeriod
  split_ifs
  · refine ⟨overtime, ?_, rfl⟩
    simp only [Clock.remaining, overtime, if_true]
    push_cast
    ring
  · exact ⟨overtime, rfl, rfl⟩

/-- In overtime, a move takes no more than the current period. -/
theorem overtimePlan_le (overtime : rolled.inOvertime = true) (stones : 1 ≤ rolled.numStonesLeftInPeriod) :
    (overtimePlan self lagBuffer rolled).maxTime ≤ max 0 (self.clock.remaining self.perPeriodTime) := by
  obtain ⟨overtime', total, stonesSame⟩ := usePeriod_remaining self lagBuffer rolled overtime
  have least : 1 ≤ (usePeriod self lagBuffer rolled).numPeriodsLeftIncludingCurrent := by
    unfold usePeriod
    split_ifs with more
    · exact Int.le_sub_one_of_lt more.1
    · exact same.least
  have later : 0 ≤
      (((usePeriod self lagBuffer rolled).numPeriodsLeftIncludingCurrent - 1 : Int) : K) * self.perPeriodTime :=
    mul_nonneg (by exact_mod_cast Int.sub_nonneg.2 least) proper.period
  rw [Clock.remaining, if_pos overtime', same.total] at total
  show shareOfPeriod _ _ ≤ _
  rw [stonesSame]
  rcases le_total 0 (usePeriod self lagBuffer rolled).timeLeftInPeriod with positive | negative
  · have within : (usePeriod self lagBuffer rolled).timeLeftInPeriod ≤ self.clock.remaining self.perPeriodTime := by
      linarith
    exact (shareOfPeriod_bounds stones positive).2.trans (within.trans (le_max_right _ _))
  · exact (shareOfPeriod_nonpos stones negative).trans (le_max_left _ _)

end ByoYomi

section Checks

variable {times : Times K} {board : Board}

omit [LinearOrder K] [IsStrictOrderedRing K] in
theorem reservePeriods_overtime {rolled : Clock K} (overtime : ¬ (reservePeriods self rolled).inOvertime = false) :
    reservePeriods self rolled = rolled := by
  by_cases many : rolled.numPeriodsLeftIncludingCurrent > numReservedPeriods
  · rw [reservePeriods, if_pos many] at overtime
    exact absurd rfl overtime
  · exact if_neg many

omit [IsStrictOrderedRing K] in
theorem of_checkByoYomi (checked : self.checkByoYomi = .ok ()) : 1 ≤ self.numStonesPerPeriod := by
  by_contra few
  unfold checkByoYomi at checked
  rw [if_pos (show self.numStonesPerPeriod ≤ 0 by omega)] at checked
  split_ifs at checked

theorem lag_doubled {p : Prop} [Decidable p] (lag : 0 < lagBuffer) : 0 < if p then lagBuffer * 2 else lagBuffer := by
  split_ifs
  · exact mul_pos lag two_pos
  · exact lag

theorem byoYomiPlan_within (proper : self.Proper) (periods : 1 ≤ self.numPeriodsLeftIncludingCurrent)
    (stones : 1 ≤ self.numStonesPerPeriod) (lag : 0 < lagBuffer)
    (planned : byoYomiPlan expNegOne self turns lagBuffer = .ok plan) :
    Within plan (self.clock.remaining self.perPeriodTime) := by
  have same : Clock.Rolled self.perPeriodTime self.clock (self.clock.roll self.perPeriodTime self.numStonesPerPeriod) :=
    Clock.roll_rolled periods
  unfold byoYomiPlan at planned
  dsimp only at planned
  split_ifs at planned with main few
  · obtain rfl := Except.ok.inj planned
    have most := (reservePeriods_main proper same main).trans (le_max_right 0 _)
    exact ⟨(mainTimePlan_le proper.period stones).trans most, lag_doubled lag⟩
  · obtain rfl := Except.ok.inj planned
    have kept := reservePeriods_overtime main
    rw [kept] at main few ⊢
    exact ⟨overtimePlan_le proper same (Bool.eq_true_of_not_eq_false main) (not_lt.1 few), lag_doubled lag⟩

end Checks

section Finish

variable {remaining : K}

omit [IsStrictOrderedRing K] in
theorem clamp_nonneg (x : K) : 0 ≤ if x < 0 then 0 else x := by
  split_ifs with negative
  · exact le_rfl
  · exact not_lt.1 negative

omit [IsStrictOrderedRing K] in
theorem clamp_between {x most : K} (nonneg : 0 ≤ x) (order : 0 ≤ most) :
    0 ≤ (if x > most then most else x) ∧ (if x > most then most else x) ≤ most := by
  split_ifs with past
  · exact ⟨order, le_rfl⟩
  · exact ⟨nonneg, not_lt.1 past⟩

/-- The times of a move, when so much time remains. -/
structure Safe (controls : TimeControls K) (remaining : K) (times : Times K) : Prop where
  min_nonneg : 0 ≤ times.minTime
  min_le : times.minTime ≤ times.maxTime
  recommended_nonneg : 0 ≤ times.recommendedTime
  recommended_le : times.recommendedTime ≤ times.maxTime
  max_le : times.maxTime ≤ max 0 controls.maxTimePerMove
  max_lt : 0 < remaining → times.maxTime < remaining
  max_eq : remaining ≤ 0 → times.maxTime = 0

theorem finish_safe (within : Within plan remaining) : Safe self remaining (self.finish plan) := by
  obtain ⟨most, lag⟩ := within
  have nonneg : 0 ≤ (self.finish plan).maxTime := clamp_nonneg _
  obtain ⟨min_nonneg, min_le⟩ := clamp_between (clamp_nonneg (applyLagBuffer plan.minTime plan.lagBufferToUse)) nonneg
  obtain ⟨rec_nonneg, rec_le⟩ :=
    clamp_between (clamp_nonneg (applyLagBuffer plan.recommendedTime plan.lagBufferToUse)) nonneg
  have capped : min plan.maxTime self.maxTimePerMove ≤ 0 ∧ (self.finish plan).maxTime = 0 ∨
      0 < min plan.maxTime self.maxTimePerMove ∧
        (self.finish plan).maxTime < min plan.maxTime self.maxTimePerMove := by
    rcases le_or_gt (min plan.maxTime self.maxTimePerMove) 0 with none_ | some_
    · have low := applyLagBuffer_nonpos lag none_
      refine .inl ⟨none_, le_antisymm ?_ nonneg⟩
      show (if _ then (0 : K) else _) ≤ 0
      split_ifs
      · exact le_rfl
      · exact low
    · refine .inr ⟨some_, ?_⟩
      show (if _ then (0 : K) else _) < _
      split_ifs
      · exact some_
      · exact applyLagBuffer_lt lag some_
  refine ⟨min_nonneg, min_le, rec_nonneg, rec_le, ?_, fun positive => ?_, fun none_ => ?_⟩
  · rcases capped with ⟨-, zero⟩ | ⟨-, less⟩
    · exact zero.le.trans (le_max_left _ _)
    · exact less.le.trans ((min_le_right _ _).trans (le_max_right _ _))
  · rcases capped with ⟨-, zero⟩ | ⟨-, less⟩
    · rwa [zero]
    · exact less.trans_le ((min_le_left _ _).trans (most.trans (max_le positive.le le_rfl)))
  · rcases capped with ⟨-, zero⟩ | ⟨some_, -⟩
    · exact zero
    · exact absurd (some_.trans_le ((min_le_left _ _).trans (most.trans (max_le le_rfl none_)))) (lt_irrefl _)

omit [IsStrictOrderedRing K] in
/-- What a call that does not throw has checked and planned. -/
theorem getTime_cases {board : Board} {times : Times K} (planned : getTime expNegOne self lagBuffer board = .ok times) :
    (self.isFischer ∧ times = self.finish (fischerPlan expNegOne self (approxTurnsLeft board) lagBuffer)) ∨
      (¬ self.isFischer ∧ 1 ≤ self.numStonesPerPeriod ∧
        ∃ plan, byoYomiPlan expNegOne self (approxTurnsLeft board) lagBuffer = .ok plan ∧
          times = self.finish plan) := by
  unfold getTime at planned
  dsimp only at planned
  split_ifs at planned with fischer
  · cases checked : self.checkFischer with
    | error e =>
      rw [checked] at planned
      cases planned
    | ok =>
      rw [checked] at planned
      exact .inl ⟨fischer, (Except.ok.inj planned).symm⟩
  · cases checked : self.checkByoYomi with
    | error e =>
      rw [checked] at planned
      cases planned
    | ok =>
      rw [checked] at planned
      cases done : byoYomiPlan expNegOne self (approxTurnsLeft board) lagBuffer with
      | error e =>
        simp only [done] at planned
        cases planned
      | ok plan =>
        simp only [done] at planned
        exact .inr ⟨fischer, of_checkByoYomi checked, plan, rfl, (Except.ok.inj planned).symm⟩

omit [IsStrictOrderedRing K] in
theorem periods_of_not_fischer (byoYomi : ¬ self.isFischer) : 1 ≤ self.numPeriodsLeftIncludingCurrent := by
  have some_ := not_le.1 (not_or.1 byoYomi).2
  omega

theorem getTime_safe (proper : self.Proper) (lag : 0 < lagBuffer) {board : Board} {times : Times K}
    (planned : getTime expNegOne self lagBuffer board = .ok times) : Safe self self.remaining times := by
  rcases getTime_cases planned with ⟨fischer, rfl⟩ | ⟨byoYomi, stones, plan, done, rfl⟩
  · rw [remaining, if_pos fischer]
    exact finish_safe (fischerPlan_within lag)
  · rw [remaining, if_neg byoYomi]
    exact finish_safe (byoYomiPlan_within proper (periods_of_not_fischer byoYomi) stones lag done)

end Finish

section RoundUp

variable {timeUsed timeLimit rounded : K}

omit [LinearOrder K] [IsStrictOrderedRing K] in
theorem clockAfter_overtime (self : TimeControls K) (timeUsed : K) :
    (self.clockAfter timeUsed).inOvertime = self.inOvertime ∧
      (self.clockAfter timeUsed).numPeriodsLeftIncludingCurrent = self.numPeriodsLeftIncludingCurrent := by
  unfold clockAfter
  dsimp only
  split_ifs
  · exact ⟨rfl, rfl⟩
  · exact ⟨rfl, rfl⟩

omit [LinearOrder K] [IsStrictOrderedRing K] in
theorem clockAfter_remaining (self : TimeControls K) (timeUsed : K) :
    (self.clockAfter timeUsed).remaining self.perPeriodTime = self.clock.remaining self.perPeriodTime - timeUsed := by
  cases overtime : self.inOvertime
  · simp only [clockAfter, clock, Clock.remaining, overtime, if_true, Bool.false_eq_true, if_false]
    ring
  · simp only [clockAfter, clock, Clock.remaining, overtime, if_true, Bool.true_eq_false, if_false]
    ring

/-- The time for a move in byo yomi, less the lag, is less than a period. -/
theorem bufferedTime_lt (stones : 1 ≤ self.numStonesPerPeriod) (lag : 0 < lagBuffer)
    (positive : 0 < self.perPeriodTime) :
    applyLagBuffer (self.perPeriodTime / self.numStonesPerPeriod) lagBuffer < self.perPeriodTime := by
  have count : (1 : K) ≤ self.numStonesPerPeriod := by exact_mod_cast stones
  have share : 0 < self.perPeriodTime / self.numStonesPerPeriod := div_pos positive (zero_lt_one.trans_le count)
  exact (applyLagBuffer_lt lag share).trans_le (div_le_self positive.le count)

omit [IsStrictOrderedRing K] in
/-- A move with little main time left has a period to go to. -/
theorem period_pos (nonneg : 0 ≤ self.perPeriodTime) (left : 0 ≤ time)
    (little : time < self.perPeriodTime / self.numStonesPerPeriod * 0.5) : 0 < self.perPeriodTime := by
  refine lt_of_le_of_ne nonneg fun zero => ?_
  rw [← zero] at little
  simp at little
  exact absurd left little.not_ge

theorem roundedUpTimeUsage_lt (proper : self.Proper) (periods : 1 ≤ self.numPeriodsLeftIncludingCurrent)
    (stones : 1 ≤ self.numStonesPerPeriod) (lag : 0 < lagBuffer) (used : 0 ≤ timeUsed)
    (found : roundedUpTimeUsage self lagBuffer timeUsed = some rounded) :
    rounded < self.clock.remaining self.perPeriodTime := by
  obtain ⟨overtimeSame, periodsSame⟩ := clockAfter_overtime self timeUsed
  have same : Clock.Rolled self.perPeriodTime (self.clockAfter timeUsed)
      ((self.clockAfter timeUsed).roll self.perPeriodTime self.numStonesPerPeriod) :=
    Clock.roll_rolled (by rw [periodsSame]; exact periods)
  have total := same.total.trans (clockAfter_remaining self timeUsed)
  have nonneg := proper.period
  unfold roundedUpTimeUsage at found
  dsimp only at found
  generalize (self.clockAfter timeUsed).roll self.perPeriodTime self.numStonesPerPeriod = rolled at *
  have most : min (max lagBuffer (applyLagBuffer (self.perPeriodTime / self.numStonesPerPeriod) lagBuffer * 0.01))
      (applyLagBuffer (self.perPeriodTime / self.numStonesPerPeriod) lagBuffer) ≤
        applyLagBuffer (self.perPeriodTime / self.numStonesPerPeriod) lagBuffer := min_le_right _ _
  have later : (1 : K) * self.perPeriodTime ≤ rolled.numPeriodsLeftIncludingCurrent * self.perPeriodTime :=
    mul_le_mul_of_nonneg_right (by exact_mod_cast same.least) nonneg
  rw [Clock.remaining] at total
  split_ifs at found with main little single done several entering
  · obtain rfl := Option.some.inj found
    have positive : 0 ≤ rolled.mainTimeLeft := by
      rw [same.main]
      exact not_lt.1 fun negative => by simp [same.overtime.2 (.inr negative)] at main
    have buffered := bufferedTime_lt stones lag (period_pos proper.period positive little)
    rw [main, if_neg Bool.false_ne_true] at total
    linarith
  · obtain rfl := Option.some.inj found
    have positive : 0 ≤ rolled.mainTimeLeft := by
      rw [same.main]
      exact not_lt.1 fun negative => by simp [same.overtime.2 (.inr negative)] at main
    have buffered := bufferedTime_lt stones lag (period_pos proper.period positive little)
    rw [main, if_neg Bool.false_ne_true] at total
    linarith
  · obtain rfl := Option.some.inj found
    rw [if_pos (Bool.eq_true_of_not_eq_false main)] at total
    push_cast at total
    have before : (self.clockAfter timeUsed).inOvertime = false := overtimeSame.trans entering.1
    have negative : (self.clockAfter timeUsed).mainTimeLeft < 0 :=
      (same.overtime.1 (Bool.eq_true_of_not_eq_false main)).resolve_left (by simp [before])
    have start := clockAfter_remaining self timeUsed
    rw [Clock.remaining, before, if_neg Bool.false_ne_true] at start
    have positive : 0 < self.perPeriodTime := by
      refine lt_of_le_of_ne nonneg fun zero => done ?_
      rw [← zero, mul_zero, add_zero] at start total
      exact (total.trans start.symm).le.trans negative.le
    have buffered := bufferedTime_lt stones lag positive
    linarith
  · obtain rfl := Option.some.inj found
    rw [if_pos (Bool.eq_true_of_not_eq_false main)] at total
    push_cast at total
    have positive : 0 < timeUsed + rolled.timeLeftInPeriod := by linarith
    have buffered := applyLagBuffer_lt lag positive
    linarith

/-- Rounding a limit up leaves some of the time that remains. -/
theorem roundUp_safe (proper : self.Proper) (lag : 0 < lagBuffer) (used : 0 ≤ timeUsed)
    (checked : self.isFischer ∨ 1 ≤ self.numStonesPerPeriod) (limit : timeLimit < self.remaining) :
    timeLimit ≤ roundUpTimeLimitIfNeeded self lagBuffer timeUsed timeLimit ∧
      roundUpTimeLimitIfNeeded self lagBuffer timeUsed timeLimit < self.remaining := by
  unfold roundUpTimeLimitIfNeeded
  split_ifs with fischer
  · exact ⟨le_rfl, limit⟩
  · cases found : roundedUpTimeUsage self lagBuffer timeUsed with
    | none => exact ⟨le_rfl, limit⟩
    | some rounded =>
      have less := roundedUpTimeUsage_lt proper (periods_of_not_fischer fischer) (checked.resolve_left fischer) lag
        used found
      dsimp only
      split_ifs with _ longer
      · exact ⟨le_rfl, limit⟩
      · exact ⟨longer.le, by rwa [remaining, if_neg fischer]⟩
      · exact ⟨le_rfl, limit⟩

end RoundUp

/-- Neither the times of a move nor a limit that is rounded up use all of the time that remains. -/
theorem getTime_never_flags (proper : self.Proper) (lag : 0 < lagBuffer) {board : Board} {times : Times K}
    (planned : getTime expNegOne self lagBuffer board = .ok times) :
    Safe self self.remaining times ∧
      ∀ timeUsed timeLimit, 0 ≤ timeUsed → timeUsed ≤ timeLimit → timeLimit < self.remaining →
        timeLimit ≤ roundUpTimeLimitIfNeeded self lagBuffer timeUsed timeLimit ∧
          roundUpTimeLimitIfNeeded self lagBuffer timeUsed timeLimit < self.remaining := by
  refine ⟨getTime_safe proper lag planned, fun timeUsed timeLimit used _ limit => ?_⟩
  have checked : self.isFischer ∨ 1 ≤ self.numStonesPerPeriod :=
    (getTime_cases planned).imp And.left fun byoYomi => byoYomi.2.1
  exact roundUp_safe proper lag used checked limit

/-- A clock that has run into the first of its three periods. -/
def lateControls : TimeControls ℚ where
  originalMainTime := 600
  increment := 0
  mainTimeLimit := 10 ^ 40
  maxTimePerMove := 10 ^ 40
  originalNumPeriods := 3
  numStonesPerPeriod := 1
  perPeriodTime := 30
  mainTimeLeft := -12
  inOvertime := false
  numPeriodsLeftIncludingCurrent := 3
  numStonesLeftInPeriod := 0
  timeLeftInPeriod := 0

def smallBoard : Board where
  xSize := 2
  ySize := 2
  colors := fun _ => .empty
  chainData := fun _ => ⟨.empty, 0, 0⟩
  chainHead := fun _ => 0
  nextInChain := fun _ => 0
  koLoc := 0
  posHash := 0
  numBlackCaptures := 0
  numWhiteCaptures := 0

theorem getTime_never_flags_late :
    getTime (1 / 3) lateControls 1 smallBoard = .ok ⟨17, 17, 17⟩ ∧ (17 : ℚ) < lateControls.remaining ∧
      roundUpTimeLimitIfNeeded lateControls 1 5 10 < lateControls.remaining := by
  have planned : getTime (1 / 3) lateControls 1 smallBoard = .ok ⟨17, 17, 17⟩ := by decide +kernel
  obtain ⟨safe, rounded⟩ := getTime_never_flags ⟨by decide +kernel, by decide +kernel⟩ (by decide +kernel) planned
  exact ⟨planned, safe.max_lt (by decide +kernel),
    (rounded 5 10 (by decide +kernel) (by decide +kernel) (by decide +kernel)).2⟩

end TimeControls

end KataGo.Search
