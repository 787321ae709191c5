import KataGo.Game.Board
import KataGo.Lib.Numerals
import Mathlib.Algebra.Order.Field.Basic
import Mathlib.Data.Rat.Cast.Defs

/-! The time that a move may take, after `cpp/search/timecontrols.cpp`. Arithmetic is exact, over any ordered
field, and the value of `exp(-1.0)` is a parameter. -/

namespace KataGo.Search
open KataGo.Game

/-- `Board::numStonesOnBoard`. -/
def numStonesOnBoard (board : Board) : Nat :=
  (boardLocs board.xSize board.ySize).countP fun loc => board.colors loc = .black ∨ board.colors loc = .white

structure TimeControls (K : Type) where
  originalMainTime : K
  increment : K
  mainTimeLimit : K
  maxTimePerMove : K
  originalNumPeriods : Int
  numStonesPerPeriod : Int
  perPeriodTime : K
  mainTimeLeft : K
  inOvertime : Bool
  numPeriodsLeftIncludingCurrent : Int
  numStonesLeftInPeriod : Int
  timeLeftInPeriod : K

/-- The turns left over which main time is spent. -/
structure TurnsLeft (K : Type) where
  absolute : K
  increment : K
  byoYomi : K

/-- What has been worked out for a move before the lag buffer is applied. -/
structure Plan (K : Type) where
  minTime : K
  recommendedTime : K
  maxTime : K
  lagBufferToUse : K

structure Times (K : Type) where
  minTime : K
  recommendedTime : K
  maxTime : K
deriving DecidableEq

/-- The effective state of the clock. -/
structure Clock (K : Type) where
  mainTimeLeft : K
  inOvertime : Bool
  numPeriodsLeftIncludingCurrent : Int
  timeLeftInPeriod : K
  numStonesLeftInPeriod : Int

variable {K : Type} [Field K] [LinearOrder K]

def unlimitedTimeThreshold : K := 10 ^ 20

/-- All but the last periods are treated as main time. -/
def numReservedPeriods : Int := 5

def applyLagBuffer (time lagBuffer : K) : K :=
  if time < 0 then time
  else if time < 2 * lagBuffer then time * 0.5
  else time - lagBuffer

def approxTurnsLeft (board : Board) : TurnsLeft K :=
  let boardArea : K := (board.xSize * board.ySize : Nat)
  let numStones : K := numStonesOnBoard board
  { absolute := max (0.95 * boardArea + 20 - numStones) (0.15 * boardArea + 30) * 0.5
    increment := max (0.75 * boardArea + 15 - numStones) (0.10 * boardArea + 20) * 0.5
    byoYomi := max (0.50 * boardArea + 10 - numStones) (0.02 * boardArea + 4) * 0.5 }

namespace Clock

variable (perPeriodTime : K)

/-- Roll through the ends of periods that follow the current one. -/
def rollPeriods : Nat → Clock K → Clock K
  | 0, clock => clock
  | later + 1, clock =>
    if clock.timeLeftInPeriod < 0 then
      rollPeriods later { clock with
        numPeriodsLeftIncludingCurrent := clock.numPeriodsLeftIncludingCurrent - 1
        timeLeftInPeriod := clock.timeLeftInPeriod + perPeriodTime }
    else clock

/-- Main time that is negative has run into overtime. -/
def enterOvertime (numStonesPerPeriod : Int) (clock : Clock K) : Clock K :=
  if clock.mainTimeLeft < 0 ∧ clock.inOvertime = false then
    { clock with
      inOvertime := true
      timeLeftInPeriod := clock.mainTimeLeft + perPeriodTime
      numStonesLeftInPeriod := numStonesPerPeriod }
  else clock

/-- Roll from main time into overtime and through the periods that are over. -/
def roll (numStonesPerPeriod : Int) (clock : Clock K) : Clock K :=
  let clock := clock.enterOvertime perPeriodTime numStonesPerPeriod
  if clock.inOvertime then clock.rollPeriods perPeriodTime (clock.numPeriodsLeftIncludingCurrent - 1).toNat else clock

end Clock

namespace TimeControls

variable (expNegOne : K) (self : TimeControls K) (turns : TurnsLeft K) (lagBuffer : K)

/-- The turns to stretch main time over before overtime. -/
def turnsToUse (time byoYomiTimePerMove : K) : K :=
  let theoreticalOptimalTurnsToSpendOurTime := time / byoYomiTimePerMove * expNegOne
  let approxTurnsLeftToUse :=
    if turns.byoYomi > theoreticalOptimalTurnsToSpendOurTime then
      min turns.byoYomi (theoreticalOptimalTurnsToSpendOurTime * 1.75)
    else theoreticalOptimalTurnsToSpendOurTime
  let approxTurnsLeftToUse := if approxTurnsLeftToUse > turns.absolute then turns.absolute else approxTurnsLeftToUse
  if approxTurnsLeftToUse < 1 then 1 else approxTurnsLeftToUse

def divideTimeEvenlyForGame (time : K) (isIncrementOrAbs isByoYomi : Bool) : K :=
  let mainTimeToUseIfAbsolute := time / turns.absolute
  if isIncrementOrAbs then
    if time ≤ 0 then time
    else min (time / turns.increment) (mainTimeToUseIfAbsolute + 2 * self.increment)
  else if isByoYomi then
    if self.perPeriodTime ≤ 0 ∨ self.numStonesPerPeriod ≤ 0 then mainTimeToUseIfAbsolute
    else
      let byoYomiTimePerMove := self.perPeriodTime / self.numStonesPerPeriod
      let mainTimeToUse := time / turnsToUse expNegOne turns time byoYomiTimePerMove
      let mainTimeToUse := min mainTimeToUse (mainTimeToUseIfAbsolute + 3 * byoYomiTimePerMove)
      let mainTimeToUse := if mainTimeToUse < byoYomiTimePerMove then byoYomiTimePerMove else mainTimeToUse
      if mainTimeToUse < byoYomiTimePerMove * 1.5 ∧ time < byoYomiTimePerMove * 1.5 then time + byoYomiTimePerMove
      else mainTimeToUse
  else mainTimeToUseIfAbsolute

def checkFischer : Except String Unit :=
  if self.inOvertime then
    throw "TimeControls: inOvertime with Fischer or absolute time, inconsistent time control?"
  else if self.numPeriodsLeftIncludingCurrent ≠ 0 then
    throw "TimeControls: numPeriodsLeftIncludingCurrent != 0 with Fischer or absolute time, inconsistent time control?"
  else if self.mainTimeLimit < self.originalMainTime then
    throw "TimeControls: mainTimeLimit is smaller than original mainTime"
  else pure ()

/-- Fischer or absolute time. -/
def fischerPlan : Plan K :=
  let minTime := min (max 0 (self.mainTimeLeft * 0.5)) (max 0 (self.mainTimeLeft + self.increment - self.mainTimeLimit))
  if self.mainTimeLeft ≤ self.increment then
    { minTime
      recommendedTime := applyLagBuffer self.mainTimeLeft lagBuffer
      maxTime := self.mainTimeLeft
      lagBufferToUse := lagBuffer }
  else
    let excessMainTime := applyLagBuffer (self.mainTimeLeft - self.increment) lagBuffer
    { minTime
      recommendedTime := self.increment + divideTimeEvenlyForGame expNegOne self turns excessMainTime true false
      maxTime := min self.mainTimeLeft (self.increment + excessMainTime / 5)
      lagBufferToUse := lagBuffer }

def checkByoYomi : Except String Unit :=
  if self.mainTimeLimit < unlimitedTimeThreshold then
    throw "TimeControls: mainTimeLimit is used with byo-yomiish periods, inconsistent time control?"
  else if self.numStonesPerPeriod ≤ 0 then
    throw "TimeControls: numStonesPerPeriod <= 0 with byo-yomiish periods, inconsistent time control?"
  else if self.inOvertime = false ∧ self.numPeriodsLeftIncludingCurrent ≠ self.originalNumPeriods then
    throw "TimeControls: not in overtime, but numPeriodsLeftIncludingCurrent != originalNumPeriods"
  else if self.inOvertime ∧ self.numStonesLeftInPeriod < 1 then
    throw "TimeControls: numStonesLeftInPeriod < 1 while in overtime, inconsistent time control?"
  else pure ()

/-- The clock as it stands. -/
def clock : Clock K where
  mainTimeLeft := self.mainTimeLeft
  inOvertime := self.inOvertime
  numPeriodsLeftIncludingCurrent := self.numPeriodsLeftIncludingCurrent
  timeLeftInPeriod := self.timeLeftInPeriod
  numStonesLeftInPeriod := self.numStonesLeftInPeriod

/-- Crudely treat all but the last periods as main time. -/
def reservePeriods (clock : Clock K) : Clock K :=
  if clock.numPeriodsLeftIncludingCurrent > numReservedPeriods then
    { clock with
      inOvertime := false
      mainTimeLeft :=
        if self.inOvertime = false then
          clock.mainTimeLeft +
            self.perPeriodTime * ((clock.numPeriodsLeftIncludingCurrent - numReservedPeriods : Int) : K)
        else
          clock.mainTimeLeft + (clock.timeLeftInPeriod +
            self.perPeriodTime * ((clock.numPeriodsLeftIncludingCurrent - numReservedPeriods - 1 : Int) : K)) }
  else clock

/-- The upper limit for a move of so many stones in a period. -/
def shareOfPeriod (time : K) (numStones : Int) : K := time / (0.75 * numStones + 0.25)

def mainTimePlan (clock : Clock K) : Plan K :=
  let largeByoYomiTimePerMove := shareOfPeriod self.perPeriodTime self.numStonesPerPeriod
  let maxTime := largeByoYomiTimePerMove +
    max (min (largeByoYomiTimePerMove * 1.75) clock.mainTimeLeft) (clock.mainTimeLeft / 5)
  -- If we're going into byo yomi, we might as well allow using the whole period
  let maxTime :=
    if maxTime > clock.mainTimeLeft ∧ maxTime < clock.mainTimeLeft + largeByoYomiTimePerMove then
      clock.mainTimeLeft + largeByoYomiTimePerMove
    else maxTime
  { minTime := 0
    recommendedTime := divideTimeEvenlyForGame expNegOne self turns clock.mainTimeLeft false true
    maxTime
    lagBufferToUse :=
      if maxTime > clock.mainTimeLeft ∧ clock.numPeriodsLeftIncludingCurrent ≤ 1 ∧ self.numStonesPerPeriod ≤ 1 then
        lagBuffer * 2
      else lagBuffer }

/-- Use up a period that is nearly over, if there are more. -/
def usePeriod (clock : Clock K) : Clock K :=
  if clock.numPeriodsLeftIncludingCurrent > 1 ∧ applyLagBuffer clock.timeLeftInPeriod lagBuffer <
      applyLagBuffer (0.5 * self.perPeriodTime) lagBuffer * ((clock.numPeriodsLeftIncludingCurrent - 1 : Int) : K) /
        ((numReservedPeriods - 1 : Int) : K) then
    { clock with
      numPeriodsLeftIncludingCurrent := clock.numPeriodsLeftIncludingCurrent - 1
      timeLeftInPeriod := clock.timeLeftInPeriod + self.perPeriodTime }
  else clock

def overtimePlan (clock : Clock K) : Plan K :=
  let clock := usePeriod self lagBuffer clock
  { minTime := if clock.numStonesLeftInPeriod ≤ 1 then clock.timeLeftInPeriod else 0
    recommendedTime := clock.timeLeftInPeriod / clock.numStonesLeftInPeriod
    maxTime := shareOfPeriod clock.timeLeftInPeriod clock.numStonesLeftInPeriod
    lagBufferToUse :=
      if clock.numPeriodsLeftIncludingCurrent ≤ 1 ∧ clock.numStonesLeftInPeriod ≤ 1 then lagBuffer * 2 else lagBuffer }

/-- Byo yomi or canadian time. -/
def byoYomiPlan : Except String (Plan K) :=
  let clock := reservePeriods self (self.clock.roll self.perPeriodTime self.numStonesPerPeriod)
  if clock.inOvertime = false then pure (mainTimePlan expNegOne self turns lagBuffer clock)
  else if clock.numStonesLeftInPeriod < 1 then
    throw "TimeControls: effectiveNumStonesLeftInPeriod < 1 while in overtime, inconsistent time control?"
  else pure (overtimePlan self lagBuffer clock)

/-- Apply the lag buffer and put the times in order. -/
def finish (plan : Plan K) : Times K :=
  let maxTime := applyLagBuffer (min plan.maxTime self.maxTimePerMove) plan.lagBufferToUse
  let maxTime := if maxTime < 0 then 0 else maxTime
  let minTime := applyLagBuffer plan.minTime plan.lagBufferToUse
  let minTime := if minTime < 0 then 0 else minTime
  let recommendedTime := applyLagBuffer plan.recommendedTime plan.lagBufferToUse
  let recommendedTime := if recommendedTime < 0 then 0 else recommendedTime
  { minTime := if minTime > maxTime then maxTime else minTime
    recommendedTime := if recommendedTime > maxTime then maxTime else recommendedTime
    maxTime }

/-- There are no periods, or time is added after every move. -/
def isFischer : Prop := self.increment > 0 ∨ self.numPeriodsLeftIncludingCurrent ≤ 0

instance : Decidable self.isFischer := inferInstanceAs (Decidable (_ ∨ _))

def getTime (board : Board) : Except String (Times K) := do
  let turns := approxTurnsLeft board
  if self.isFischer then
    self.checkFischer
    return self.finish (fischerPlan expNegOne self turns lagBuffer)
  else
    self.checkByoYomi
    let plan ← byoYomiPlan expNegOne self turns lagBuffer
    return self.finish plan

/-- The clock after some of the time for a move. -/
def clockAfter (timeUsed : K) : Clock K :=
  let clock := self.clock
  if clock.inOvertime = false then { clock with mainTimeLeft := clock.mainTimeLeft - timeUsed }
  else { clock with timeLeftInPeriod := clock.timeLeftInPeriod - timeUsed }

/-- The time up to which thinking costs nothing more, if there is one. -/
def roundedUpTimeUsage (timeUsed : K) : Option K :=
  let clock := (self.clockAfter timeUsed).roll self.perPeriodTime self.numStonesPerPeriod
  let byoYomiTimePerMove := self.perPeriodTime / self.numStonesPerPeriod
  let byoYomiTimePerMoveBuffered := applyLagBuffer byoYomiTimePerMove lagBuffer
  let bitOfTime := min (max lagBuffer (byoYomiTimePerMoveBuffered * 0.01)) byoYomiTimePerMoveBuffered
  if clock.inOvertime = false then
    if clock.mainTimeLeft < byoYomiTimePerMove * 0.5 then
      if self.numStonesPerPeriod ≤ 1 then some (timeUsed + clock.mainTimeLeft + byoYomiTimePerMoveBuffered)
      else some (timeUsed + clock.mainTimeLeft + bitOfTime)
    else none
  else if clock.timeLeftInPeriod ≤ 0 then none
  else if clock.numStonesLeftInPeriod > 1 then
    if self.inOvertime = false ∧ self.perPeriodTime - clock.timeLeftInPeriod < bitOfTime then
      some (timeUsed + bitOfTime - (self.perPeriodTime - clock.timeLeftInPeriod))
    else none
  else some (applyLagBuffer (timeUsed + clock.timeLeftInPeriod) lagBuffer)

def roundUpTimeLimitIfNeeded (timeUsed timeLimit : K) : K :=
  if self.isFischer then timeLimit
  else match roundedUpTimeUsage self lagBuffer timeUsed with
    | none => timeLimit
    | some roundedUpTimeUsage =>
      if roundedUpTimeUsage < timeUsed then timeLimit
      else if timeLimit < roundedUpTimeUsage then roundedUpTimeUsage
      else timeLimit

end TimeControls

end KataGo.Search
