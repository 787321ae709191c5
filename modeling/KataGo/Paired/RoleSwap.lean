import KataGo.Paired.Exchange
import KataGo.Paired.Metric
import KataGo.Paired.Outcomes
import Mathlib.Algebra.BigOperators.Group.List.Basic
import Mathlib.Algebra.Order.Group.Unbundled.Abs
import Mathlib.Data.Rat.Cast.Lemmas
import Mathlib.Data.Rat.Floor

/-! The utility metric with the roles of the two bots exchanged. -/

namespace KataGo.Paired
open KataGo.Lib

section Utility

variable {K : Type} [Field K] [LinearOrder K] [IsStrictOrderedRing K]

theorem copysign_neg (x : K) {y : K} (some_ : y ≠ 0) : copysign x (-y) = -copysign x y := by
  unfold copysign
  rcases lt_or_gt_of_ne some_ with negative | positive
  · rw [if_neg (not_lt.2 (neg_nonneg.2 negative.le)), if_pos negative, neg_neg]
  · rw [if_pos (neg_neg_of_pos positive), if_neg (not_lt.2 positive.le)]

theorem scoreTerm_neg (runtime : Runtime K) (settings : Settings K) (margin : Option K) :
    scoreTerm runtime settings (margin.map Neg.neg) = -scoreTerm runtime settings margin := by
  cases margin with
  | none => simp [scoreTerm]
  | some margin =>
    by_cases zero : margin = 0
    · simp [scoreTerm, zero]
    · simp only [scoreTerm, Option.map_some, if_neg zero, if_neg (neg_ne_zero.2 zero), abs_neg, copysign_neg _ zero]

theorem realizedUtility_neg (runtime : Runtime K) (settings : Settings K) (outcome : K) (margin : Option K) :
    realizedUtility runtime settings (-outcome) (margin.map Neg.neg) =
      (realizedUtility runtime settings outcome margin).map Neg.neg := by
  have known : -outcome ∉ ([-1, 0, 1] : List K) ↔ outcome ∉ ([-1, 0, 1] : List K) := by
    simp only [List.mem_cons, List.not_mem_nil, or_false, neg_eq_iff_eq_neg, neg_neg, neg_zero]
    tauto
  unfold realizedUtility
  by_cases refused : outcome ∉ ([-1, 0, 1] : List K)
  · rw [if_pos refused, if_pos (known.2 refused)]
    rfl
  · rw [if_neg refused, if_neg (refused ∘ known.1), scoreTerm_neg, mul_neg, ← neg_add]
    rfl

/-- The values of the games with the roles exchanged. -/
def negated (values : GameValues K) : GameValues K := values.map fun entry => (entry.1, -entry.2)

theorem utilityByGame_exchanged (runtime : Runtime K) (settings : Settings K) (bot : Value) (contexts : List Context)
    (values : GameValues K) :
    utilityByGame runtime settings (contexts.map (Context.exchanged bot)) (negated values) =
      (utilityByGame runtime settings contexts values).map negated := by
  induction contexts generalizing values with
  | nil => rfl
  | cons c contexts ih =>
    simp only [List.map_cons, utilityByGame, Context.exchanged]
    cases c.outcome with
    | none => rfl
    | some outcome =>
      have margin : (c.candidateMargin.map Neg.neg).map (fun margin : ℚ => (margin : K)) =
          (c.candidateMargin.map fun margin : ℚ => (margin : K)).map Neg.neg := by
        cases c.candidateMargin <;> simp
      simp only [Option.map_some, Rat.cast_neg, margin, realizedUtility_neg]
      cases realizedUtility runtime settings (outcome : K) (c.candidateMargin.map fun margin : ℚ => (margin : K)) with
      | error error => rfl
      | ok utility => exact ih ((c.gameId, utility) :: values)

end Utility

section Aggregation

variable {K : Type} [Field K]

theorem fmean_neg (values : List K) : fmean (values.map Neg.neg) = -fmean values := by
  rw [fmean, fmean, List.length_map, ← List.sum_neg, neg_div]

theorem gameValue_negated (values : GameValues K) (bot : Value) (c : Context) :
    gameValue (negated values) (c.exchanged bot) = (gameValue values c).map Neg.neg := by
  have found (key : Option String) : (negated values).lookup key = (values.lookup key).map Neg.neg := by
    induction values with
    | nil => rfl
    | cons entry values ih =>
      obtain ⟨k, v⟩ := entry
      simp only [negated, List.map_cons, List.lookup_cons]
      split
      · rfl
      · exact ih
  unfold gameValue
  show (c.gameId.bind fun gameId => (negated values).lookup (some gameId)) = _
  cases c.gameId with
  | none => rfl
  | some gameId => exact found (some gameId)

/-- A pair with the value negated. -/
def PairValue.negated (pair : PairValue K) : PairValue K := { pair with value := -pair.value }

def PositionValue.negated (position : PositionValue K) : PositionValue K := { position with value := -position.value }

def Aggregation.negated (aggregation : Aggregation K) : Aggregation K :=
  { aggregation with
    pairValues := aggregation.pairValues.map PairValue.negated
    positionValues := aggregation.positionValues.map PositionValue.negated }

theorem pairValue_exchanged (runtime : Runtime K) (values : GameValues K) (bot : Value) (pairId : String)
    (members : List Context) :
    pairValue runtime (negated values) pairId (members.map (Context.exchanged bot)) =
      (pairValue runtime values pairId members).map (Option.map PairValue.negated) := by
  have collected : (members.map (Context.exchanged bot)).filterMap (gameValue (negated values)) =
      (members.filterMap (gameValue values)).map Neg.neg := by
    rw [List.filterMap_map, List.map_filterMap]
    exact List.filterMap_congr fun c _ => gameValue_negated values bot c
  have labels : ((members.map (Context.exchanged bot)).flatMap fun c => suiteLabels runtime c.row) =
      members.flatMap fun c => suiteLabels runtime c.row := List.flatMap_map ..
  have head (f : Context → Option String) (same : ∀ c, f (c.exchanged bot) = f c) :
      (members.map (Context.exchanged bot)).head?.bind f = members.head?.bind f := by
    rw [List.head?_map]
    cases members.head? with
    | none => rfl
    | some c => exact same c
  unfold pairValue
  rw [collected, labels, head Context.positionId fun _ => rfl, head Context.scheduleId fun _ => rfl]
  match members.filterMap (gameValue values) with
  | [] => rfl
  | [_] => rfl
  | _ :: _ :: _ :: _ => rfl
  | [first, second] =>
    have mean := fmean_neg [first, second]
    simp only [List.map_cons, List.map_nil] at mean ⊢
    rw [mean]
    split <;> rfl

theorem mapM_map_ok {α β γ : Type} {f : α → Except String β} {f' : α → Except String γ} (g : β → γ)
    (same : ∀ x, f' x = (f x).map g) (xs : List α) : xs.mapM f' = (xs.mapM f).map (List.map g) := by
  induction xs with
  | nil => rfl
  | cons x xs ih =>
    rw [List.mapM_cons, List.mapM_cons, same, ih]
    cases f x with
    | error error => rfl
    | ok y =>
      cases xs.mapM f with
      | error error => rfl
      | ok ys => rfl

theorem positionValue_negated (pairs : List (PairValue K)) (positionId : Option String) :
    positionValue (pairs.map PairValue.negated) positionId = (positionValue pairs positionId).negated := by
  have rows : (pairs.map PairValue.negated).filter (fun pair => pair.positionId = positionId) =
      (pairs.filter fun pair => pair.positionId = positionId).map PairValue.negated := List.filter_map
  have values (rows : List (PairValue K)) :
      (rows.map PairValue.negated).map PairValue.value = (rows.map PairValue.value).map Neg.neg := by
    rw [List.map_map, List.map_map]
    rfl
  unfold positionValue
  rw [rows]
  simp only [values, fmean_neg, List.length_map]
  simp only [List.map_map]
  rfl

theorem positionValues_negated (pairs : List (PairValue K)) :
    positionValues (pairs.map PairValue.negated) = (positionValues pairs).map PositionValue.negated := by
  have ids : (pairs.map PairValue.negated).map PairValue.positionId = pairs.map PairValue.positionId := by
    rw [List.map_map]
    rfl
  rw [positionValues, positionValues, ids, List.map_map]
  exact List.map_congr_left fun positionId _ => positionValue_negated pairs positionId

theorem aggregateValues_exchanged (runtime : Runtime K) (bot : Value) (contexts : List Context) (values : GameValues K)
    (allowed : Option (List String)) :
    aggregateValues runtime (contexts.map (Context.exchanged bot)) (negated values) allowed =
      (aggregateValues runtime contexts values allowed).map Aggregation.negated := by
  have missing (ids : List String) :
      ((ids.flatMap (pairMembers (contexts.map (Context.exchanged bot)))).countP fun c => (gameValue (negated values) c).isNone) =
        (ids.flatMap (pairMembers contexts)).countP fun c => (gameValue values c).isNone := by
    have members : ids.flatMap (pairMembers (contexts.map (Context.exchanged bot))) =
        (ids.flatMap (pairMembers contexts)).map (Context.exchanged bot) := by
      rw [List.map_flatMap]
      exact List.flatMap_congr fun pairId _ => pairMembers_exchanged contexts pairId
    rw [members, List.countP_map]
    refine List.countP_congr fun c _ => ?_
    simp [gameValue_negated]
  unfold aggregateValues
  simp only [pairIds_exchanged, missing]
  generalize (pairIds contexts).filter _ = ids
  have pairs := mapM_map_ok (Option.map PairValue.negated)
    (fun pairId => pairValue_exchanged runtime values bot pairId (pairMembers contexts pairId)) ids
  simp only [pairMembers_exchanged, pairs]
  cases ids.mapM fun pairId => pairValue runtime values pairId (pairMembers contexts pairId) with
  | error error => rfl
  | ok pairs =>
    have present : (pairs.map (Option.map PairValue.negated)).filterMap id = (pairs.filterMap id).map PairValue.negated := by
      rw [List.filterMap_map, List.map_filterMap]
      rfl
    show Except.ok _ = Except.ok _
    simp only [present, positionValues_negated]
    rfl

end Aggregation

/-- Both computations fail with the same error, or both succeed with related results. -/
inductive Alike {α β : Type} (related : α → β → Prop) : Except String α → Except String β → Prop
  | error (error : String) : Alike related (.error error) (.error error)
  | ok {x : α} {y : β} (same : related x y) : Alike related (.ok x) (.ok y)

/-- The second report is the first one seen from the other bot. -/
structure RoleSwapped {K : Type} [Neg K] (r s : MetricReport K) : Prop where
  estimate : s.estimate = r.estimate.map Neg.neg
  standardError : s.standardError = r.standardError
  lowerBound : s.lowerBound = r.upperBound.map Neg.neg
  upperBound : s.upperBound = r.lowerBound.map Neg.neg
  colorPairs : s.colorPairs = r.colorPairs
  positionClusters : s.positionClusters = r.positionClusters
  strata : s.bootstrap.map Bootstrap.strata = r.bootstrap.map Bootstrap.strata

section Metric

variable {K : Type} [Field K] [LinearOrder K]

theorem standardError_neg (runtime : Runtime K) (values : List K) :
    standardError runtime (values.map Neg.neg) = standardError runtime values := by
  have deviations : (values.map Neg.neg).map (fun value => (value - fmean (values.map Neg.neg)) ^ 2) =
      values.map fun value => (value - fmean values) ^ 2 := by
    rw [List.map_map, fmean_neg]
    refine List.map_congr_left fun value _ => ?_
    show (-value - -fmean values) ^ 2 = (value - fmean values) ^ 2
    ring
  simp only [standardError, deviations, List.length_map]

/-- The bounds seen from the other bot. -/
def Analytic.swapped (bounds : Analytic K) : Analytic K :=
  { bounds with
    lowerBound := -bounds.upperBound
    upperBound := -bounds.lowerBound }

theorem analytic_neg (runtime : Runtime K) (alpha : K) (values : List K) :
    analytic runtime alpha (values.map Neg.neg) = (analytic runtime alpha values).map Analytic.swapped := by
  unfold analytic
  rw [List.length_map, standardError_neg, fmean_neg]
  cases studentTQuantile runtime (1 - alpha) (values.length - 1) with
  | error error => rfl
  | ok criticalValue =>
    show Except.ok _ = Except.ok _
    rw [Analytic.swapped, neg_add', neg_sub', sub_neg_eq_add]

omit [LinearOrder K] in
theorem stratumRows_negated (positions : List (PositionValue K)) (key : String) :
    (stratumRows (positions.map PositionValue.negated) key).length = (stratumRows positions key).length := by
  have filtered : (positions.map PositionValue.negated).filter (fun p => p.stratumKey = key) =
      (positions.filter fun p => p.stratumKey = key).map PositionValue.negated := List.filter_map
  rw [stratumRows, stratumRows, List.length_insertionSort, List.length_insertionSort, filtered, List.length_map]

variable [FloorRing K]

theorem strata_negated (runtime : Runtime K) (positions : List (PositionValue K)) (alpha : K) (replications seed : Nat) :
    (bootstrapBounds runtime (positions.map PositionValue.negated) alpha replications seed).strata =
      (bootstrapBounds runtime positions alpha replications seed).strata := by
  have keys : (positions.map PositionValue.negated).map PositionValue.stratumKey = positions.map PositionValue.stratumKey := by
    rw [List.map_map]
    rfl
  simp only [bootstrapBounds, keys, stratumRows_negated]

theorem metricReport_negated (runtime : Runtime K) (settings : Settings K) (aggregation : Aggregation K) (name : String)
    (complete : Bool) :
    Alike RoleSwapped (metricReport runtime settings aggregation name {} complete {})
      (metricReport runtime settings aggregation.negated name {} complete {}) := by
  have values : aggregation.negated.positionValues.map PositionValue.value =
      (aggregation.positionValues.map PositionValue.value).map Neg.neg := by
    rw [Aggregation.negated, List.map_map, List.map_map]
    rfl
  have pairs : aggregation.negated.pairValues.length = aggregation.pairValues.length := List.length_map ..
  have mean (values : List K) : (if values.map Neg.neg = [] then none else some (fmean (values.map Neg.neg))) =
      (if values = [] then none else some (fmean values)).map Neg.neg := by
    rw [fmean_neg]
    cases values <;> rfl
  have noEvents (n : Nat) : zeroEventBound runtime settings.alpha {} n = .ok none := if_neg (by simp)
  unfold metricReport
  simp only [values, List.length_map, noEvents, mean, pairs]
  by_cases many : 2 ≤ aggregation.positionValues.length
  · simp only [if_pos many, analytic_neg]
    cases analytic runtime settings.alpha (aggregation.positionValues.map PositionValue.value) with
    | error error => exact .error error
    | ok bounds =>
      exact .ok ⟨rfl, rfl, rfl, rfl, rfl, rfl, congrArg some (strata_negated runtime
        aggregation.positionValues settings.alpha settings.replications (derivedSeed settings.seed name))⟩
  · simp only [if_neg many]
    exact .ok ⟨rfl, rfl, rfl, rfl, rfl, rfl, rfl⟩

/-- Exchanging the roles of the bots in valid rows between the two negates the estimate, keeps the
standard error, maps the bounds to each other's negation and changes no number of pairs, clusters
or strata. -/
theorem utilityMetric_exchanged [IsStrictOrderedRing K] (runtime : Runtime K) (settings : Settings K) (rows : List Value)
    (a b : Value) (between : ∀ row, .obj row ∈ rows → GameBetween a b row) (report : Report) (contexts : List Context)
    (accepted : validateAndContext rows a = .ok (report, contexts)) (valid : report.promotionValid = true) :
    Alike RoleSwapped (utilityMetric runtime settings rows a) (utilityMetric runtime settings rows b) := by
  obtain ⟨report', accepted', valid'⟩ := validateAndContext_exchanged between accepted valid
  have utilities : utilityByGame runtime settings (contexts.map (Context.exchanged b)) [] =
      (utilityByGame runtime settings contexts []).map negated := utilityByGame_exchanged runtime settings b contexts []
  unfold utilityMetric
  rw [accepted, accepted']
  simp only [bind, Except.bind, valid, valid', if_true, utilities]
  cases utilityByGame runtime settings contexts [] with
  | error error => exact .error error
  | ok values =>
    have aggregations := aggregateValues_exchanged runtime b contexts values none
    simp only [Except.map, aggregations]
    cases aggregateValues runtime contexts values none with
    | error error => exact .error error
    | ok aggregation => exact metricReport_negated runtime settings aggregation "realized_utility" true

end Metric

/-- Rational arithmetic, for a score power of one. -/
def linear : Runtime ℚ :=
  ⟨fun x _ => x, id, id, id, id, id, id, fun _ _ => false, id⟩

def winning : Settings ℚ := ⟨1, 10, 1, 1 / 20, 19 / 20, 9, 1⟩

theorem utilityMetric_exchanged_won : ∃ r s,
    utilityMetric linear winning (wonRows (-7) 7) (.str "candidate") = .ok r ∧
      utilityMetric linear winning (wonRows (-7) 7) (.str "reference") = .ok s ∧
        r.estimate = some (17 / 10) ∧ RoleSwapped r s := by
  obtain ⟨report, accepted, valid⟩ := validateAndContext_clean (by decide +kernel) won_clean
  have alike := utilityMetric_exchanged linear winning (wonRows (-7) 7) (.str "candidate") (.str "reference")
    (fun row member => by
      simp only [wonRows, List.mem_cons, Json.obj.injEq, List.not_mem_nil, or_false] at member
      obtain rfl | rfl := member
      · exact .inl (by decide +kernel)
      · exact .inr (by decide +kernel))
    report _ accepted valid
  have estimate : (utilityMetric linear winning (wonRows (-7) 7) (.str "candidate")).toOption.bind MetricReport.estimate =
      some (17 / 10) := by decide +kernel
  generalize utilityMetric linear winning (wonRows (-7) 7) (.str "reference") = second at alike ⊢
  generalize utilityMetric linear winning (wonRows (-7) 7) (.str "candidate") = first at alike estimate ⊢
  cases alike with
  | error error => cases estimate
  | ok swapped => exact ⟨_, _, rfl, rfl, estimate, swapped⟩

end KataGo.Paired
