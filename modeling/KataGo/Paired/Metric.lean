import KataGo.Paired.Statistics

/-! `_metric_report` of `python/risk_score/paired_stats.py` and the Student-t quantile that it uses. -/

namespace KataGo.Paired
open KataGo.Lib

variable {K : Type} [Field K] [LinearOrder K]

/-- A number that is not too close to zero. -/
def awayFromZero (x : K) : K := if |x| < 1 / 10 ^ 300 then 1 / 10 ^ 300 else x

/-- The variables of the loop of the continued fraction. -/
structure Fraction (K : Type) where
  c : K
  d : K
  result : K

/-- One half of a round: the next convergent, and how much it changes the result. -/
def Fraction.next (f : Fraction K) (numerator : K) : Fraction K × K :=
  let d := 1 / awayFromZero (1 + numerator * f.d)
  let c := awayFromZero (1 + numerator / f.c)
  (⟨c, d, f.result * (d * c)⟩, d * c)

/-- The rounds of the continued fraction from round `iteration` on. -/
def fractionRounds (a b x : K) : Nat → Nat → Fraction K → Except String K
  | 0, _, _ => .error "incomplete beta continued fraction did not converge"
  | remaining + 1, iteration, f =>
      let n : K := iteration
      let even := n * (b - n) * x / ((a - 1 + 2 * n) * (a + 2 * n))
      let odd := -(a + n) * (a + b + n) * x / ((a + 2 * n) * (a + 1 + 2 * n))
      let (f, delta) := (f.next even).1.next odd
      if |delta - 1| ≤ 3 / 10 ^ 14 then .ok f.result else fractionRounds a b x remaining (iteration + 1) f

/-- `_beta_continued_fraction` -/
def betaContinuedFraction (a b x : K) : Except String K :=
  let d := 1 / awayFromZero (1 - (a + b) * x / (a + 1))
  fractionRounds a b x 300 1 ⟨1, d, d⟩

/-- `_regularized_incomplete_beta` -/
def regularizedIncompleteBeta (runtime : Runtime K) (a b x : K) : Except String K :=
  if x ≤ 0 then .ok 0
  else if x ≥ 1 then .ok 1
  else
    let front := runtime.exp (runtime.lgamma (a + b) - runtime.lgamma a - runtime.lgamma b + a * runtime.log x +
      b * runtime.log1p (-x))
    if x < (a + 1) / (a + b + 2) then do return front * (← betaContinuedFraction a b x) / a
    else do return 1 - front * (← betaContinuedFraction b a (1 - x)) / b

/-- `_student_t_cdf` -/
def studentTCdf (runtime : Runtime K) (value : K) (degreesOfFreedom : Nat) : Except String K :=
  if degreesOfFreedom = 0 then .error "degrees_of_freedom must be positive"
  else if value = 0 then .ok (1 / 2)
  else do
    let x := (degreesOfFreedom : K) / (degreesOfFreedom + value * value)
    let tail := 1 / 2 * (← regularizedIncompleteBeta runtime (degreesOfFreedom / 2) (1 / 2) x)
    return if value > 0 then 1 - tail else tail

/-- The first power of two that is high enough; it would exceed the limit after 27 doublings. -/
def bracket (cdf : K → Except String K) (probability : K) : Nat → K → Except String K
  | 0, _ => .error "could not bracket Student-t quantile"
  | remaining + 1, high => do
      if (← cdf high) < probability then
        if high * 2 > 10 ^ 8 then .error "could not bracket Student-t quantile"
        else bracket cdf probability remaining (high * 2)
      else return high

def bisect (cdf : K → Except String K) (probability : K) : Nat → K → K → Except String K
  | 0, low, high => .ok ((low + high) / 2)
  | remaining + 1, low, high => do
      let middle := (low + high) / 2
      if (← cdf middle) < probability then bisect cdf probability remaining middle high
      else bisect cdf probability remaining low middle

/-- `_student_t_quantile` -/
def studentTQuantile (runtime : Runtime K) (probability : K) (degreesOfFreedom : Nat) : Except String K :=
  if ¬ (1 / 2 < probability ∧ probability < 1) then .error "only upper-half Student-t quantiles are supported"
  else do
    let cdf := fun value => studentTCdf runtime value degreesOfFreedom
    bisect cdf probability 90 0 (← bracket cdf probability 28 1)

/-- `exact_zero_event_upper_bound` -/
def exactZeroEventUpperBound (runtime : Runtime K) (alpha : K) (independentClusters : Nat) : Except String K :=
  if ¬ (0 < alpha ∧ alpha < 1) then .error "alpha must be finite and strictly between zero and one"
  else if independentClusters = 0 then .error "independent_clusters must be a positive integer"
  else .ok (-runtime.expm1 (runtime.log alpha / independentClusters))

/-- The number of a seed that is derived from the seed of the policy and the name of the metric. -/
def derivedSeed (seed : Int) (metricName : String) : Nat :=
  let digest := Sha256.digest (Utf8.encode (toString seed ++ ":" ++ metricName).toList).toList
  digest.a.toNat * 2 ^ 32 + digest.b.toNat

/-- The number of events on each side, for a metric that counts events. -/
structure Events where
  candidate : Option Nat := none
  reference : Option Nat := none

structure Limits (K : Type) where
  lower : Option K := none
  upper : Option K := none

/-- `clamp` -/
def Limits.clamp (limits : Limits K) (value : K) : K :=
  let value := match limits.lower with
    | some lower => max lower value
    | none => value
  match limits.upper with
  | some upper => min upper value
  | none => value

structure MetricReport (K : Type) where
  metric : String
  available : Bool
  complete : Bool
  estimate : Option K
  standardError : Option K
  lowerBound : Option K
  upperBound : Option K
  alpha : K
  nominalConfidence : K
  positionClusters : Nat
  colorPairs : Nat
  degreesOfFreedom : Option Nat
  smallClusterFactor : Option K
  criticalValue : Option K
  bootstrap : Option (Bootstrap K)
  aggregation : Aggregation K
  events : Events
  zeroEventBound : Option K

/-- The standard error of the mean over the clusters. -/
def standardError (runtime : Runtime K) (values : List K) : K :=
  let estimate := fmean values
  let variance := (values.map fun value => (value - estimate) ^ 2).sum / ((values.length - 1 : Nat) : K)
  runtime.sqrt (max 0 variance / values.length)

/-- A bound that is not there or lower than the other is replaced by it. -/
def raiseTo (bound : K) (upper : Option K) : K :=
  match upper with
  | some upper => if upper < bound then bound else upper
  | none => bound

/-- The part of the report that needs two clusters. -/
structure Analytic (K : Type) where
  standardError : K
  criticalValue : K
  lowerBound : K
  upperBound : K

def analytic (runtime : Runtime K) (alpha : K) (values : List K) : Except String (Analytic K) := do
  let criticalValue ← studentTQuantile runtime (1 - alpha) (values.length - 1)
  let error := standardError runtime values
  return ⟨error, criticalValue, fmean values - criticalValue * error, fmean values + criticalValue * error⟩

/-- The bound for a metric without an event on either side. -/
def zeroEventBound (runtime : Runtime K) (alpha : K) (events : Events) (clusters : Nat) : Except String (Option K) :=
  if events.candidate = some 0 ∧ events.reference = some 0 ∧ 0 < clusters then
    (exactZeroEventUpperBound runtime alpha clusters).map some
  else .ok none

/-- The bounds of the bootstrap with the bound for no events, within the limits. -/
def boundedBootstrap (limits : Limits K) (zeroEvent : Option K) (bootstrap : Bootstrap K) : Bootstrap K :=
  let raised := match zeroEvent with
    | some bound =>
        if bootstrap.upperBound.all fun upper => upper < bound then
          { bootstrap with upperBound := some bound, zeroEventUpperBoundApplied := true }
        else bootstrap
    | none => bootstrap
  { raised with lowerBound := raised.lowerBound.map limits.clamp, upperBound := raised.upperBound.map limits.clamp }

/-- `_metric_report` -/
def metricReport [FloorRing K] (runtime : Runtime K) (settings : Settings K) (aggregation : Aggregation K)
    (metricName : String) (limits : Limits K) (complete : Bool) (events : Events) : Except String (MetricReport K) := do
  let values := aggregation.positionValues.map PositionValue.value
  let clusters := values.length
  let estimate := if values = [] then none else some (fmean values)
  let bounds ← if 2 ≤ clusters then (analytic runtime settings.alpha values).map some else .ok none
  let bootstrap := if 2 ≤ clusters then
      some (bootstrapBounds runtime aggregation.positionValues settings.alpha settings.replications
        (derivedSeed settings.seed metricName))
    else none
  let zeroEvent ← zeroEventBound runtime settings.alpha events clusters
  let upper := match zeroEvent with
    | some bound => some (raiseTo bound (bounds.map Analytic.upperBound))
    | none => bounds.map Analytic.upperBound
  return {
    metric := metricName
    available := 2 ≤ clusters
    complete := complete && aggregation.missingGameValues = 0
    estimate
    standardError := bounds.map Analytic.standardError
    lowerBound := (bounds.map Analytic.lowerBound).map limits.clamp
    upperBound := upper.map limits.clamp
    alpha := settings.alpha
    nominalConfidence := settings.nominalConfidence
    positionClusters := clusters
    colorPairs := aggregation.pairValues.length
    degreesOfFreedom := if 2 ≤ clusters then some (clusters - 1) else none
    smallClusterFactor := if 2 ≤ clusters then some ((clusters : K) / ((clusters : K) - 1)) else none
    criticalValue := bounds.map Analytic.criticalValue
    bootstrap := bootstrap.map (boundedBootstrap limits zeroEvent)
    aggregation
    events
    zeroEventBound := zeroEvent }

/-- The utility metric of `compute_paired_statistics`. -/
def utilityMetric [FloorRing K] (runtime : Runtime K) (settings : Settings K) (rows : List Value) (candidateBot : Value) :
    Except String (MetricReport K) := do
  let (report, contexts) ← validateAndContext rows candidateBot
  if report.promotionValid then
    let values ← utilityByGame runtime settings contexts []
    let aggregation ← aggregateValues runtime contexts values none
    metricReport runtime settings aggregation "realized_utility" {} true {}
  else .error ("invalid deterministic match rows: " ++ ", ".intercalate report.errorCodes)

end KataGo.Paired
