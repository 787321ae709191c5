import KataGo.Lib.JsonObject
import KataGo.Lib.Numerals
import KataGo.Lib.Sha256
import KataGo.Lib.Utf8
import KataGo.Paired.Validation
import Mathlib.Algebra.Field.Basic
import Mathlib.Algebra.Order.Floor.Ring
import Mathlib.Data.Rat.Cast.Defs

/-! The utility metric of `compute_paired_statistics`: the utility of every game, its means over pairs
and positions, and the bounds on the mean over the positions. Arithmetic is exact. -/

namespace KataGo.Paired
open KataGo.Lib

/-- What the code takes from the mathematical library, the random bits from a seed and how strings are
put into lower case. -/
structure Runtime (K : Type) where
  pow : K → K → K
  sqrt : K → K
  exp : K → K
  log : K → K
  log1p : K → K
  expm1 : K → K
  lgamma : K → K
  getrandbits : Nat → Nat → Bool
  lower : String → String

section Field

variable {K : Type} [Field K] [LinearOrder K]

/-- What the policy says. -/
structure Settings (K : Type) where
  winWeight : K
  scoreScale : K
  scorePower : K
  alpha : K
  nominalConfidence : K
  replications : Nat
  seed : Int

def copysign (x y : K) : K := if y < 0 then -|x| else |x|

/-- The score term of the utility; a score that is missing has none. -/
def scoreTerm (runtime : Runtime K) (settings : Settings K) (candidateMargin : Option K) : K :=
  match candidateMargin with
  | some margin =>
      if margin = 0 then 0
      else copysign (runtime.pow (1 + |margin| / settings.scoreScale) settings.scorePower - 1) margin
  | none => 0

def realizedUtility (runtime : Runtime K) (settings : Settings K) (outcome : K) (candidateMargin : Option K) :
    Except String K :=
  if outcome ∉ ([-1, 0, 1] : List K) then .error "outcome must be -1, 0, or 1"
  else .ok (settings.winWeight * outcome + scoreTerm runtime settings candidateMargin)

/-- A dictionary in which the first entry of a key is the last one that was set. -/
abbrev GameValues (K : Type) := List (Option String × K)

/-- The loop that gives every game its utility. -/
def utilityByGame (runtime : Runtime K) (settings : Settings K) : List Context → GameValues K → Except String (GameValues K)
  | [], values => .ok values
  | c :: contexts, values =>
      match c.outcome with
      | none => .error "validated context unexpectedly lacks an outcome"
      | some outcome => do
          let utility ← realizedUtility runtime settings (outcome : K) (c.candidateMargin.map fun margin : ℚ => (margin : K))
          utilityByGame runtime settings contexts ((c.gameId, utility) :: values)

/-- `statistics.fmean` -/
def fmean (values : List K) : K := values.sum / values.length

/-- `_normalise_label` -/
def normaliseLabel (runtime : Runtime K) : Value → Option String
  | .str s =>
      if isBlank s then none
      else some (String.ofList ((runtime.lower (String.ofList (strip s.toList))).toList.map fun c =>
        if c = '_' ∨ c = ' ' then '-' else c))
  | _ => none

def isHash : Value → Bool
  | .str s => s.toList.length = 64 && s.toList.all fun c => c ∈ "0123456789abcdef".toList
  | _ => false

/-- `_suite_labels`: the suite that the row has from its schedule. -/
def suiteLabels (runtime : Runtime K) (row : Row) : List String :=
  match normaliseLabel runtime (Json.get row "suite"), Json.get row "scheduleId" with
  | some suite, .str _ =>
      if normaliseLabel runtime (Json.get row "suiteBank") = some suite && isHash (Json.get row "suiteBankSha256") &&
          isHash (Json.get row "positionContentSha256") && isHash (Json.get row "positionSemanticSha256") then [suite]
      else []
  | _, _ => []

structure PairValue (K : Type) where
  pairId : String
  positionId : Option String
  scheduleId : Option String
  suite : String
  value : K

structure PositionValue (K : Type) where
  positionId : Option String
  pairCount : Nat
  scheduleIds : List (Option String)
  suites : List String
  value : K

structure Aggregation (K : Type) where
  pairValues : List (PairValue K)
  positionValues : List (PositionValue K)
  missingGameValues : Nat

/-- The value of a game that has an identity and a value. -/
def gameValue (values : GameValues K) (c : Context) : Option K := c.gameId.bind fun gameId => values.lookup (some gameId)

/-- The value of a pair, where both games have one. -/
def pairValue (runtime : Runtime K) (values : GameValues K) (pairId : String) (members : List Context) :
    Except String (Option (PairValue K)) :=
  match members.filterMap (gameValue values) with
  | [first, second] =>
      let labels := sortedSet (members.flatMap fun c => suiteLabels runtime c.row)
      let joined := ",".intercalate labels
      if 1 < labels.length then .error ("pair " ++ reprText pairId ++ " has conflicting frozen suite metadata")
      else
        .ok (some {
          pairId
          positionId := members.head?.bind Context.positionId
          scheduleId := members.head?.bind Context.scheduleId
          suite := if joined = "" then "ordinary" else joined
          value := fmean [first, second] })
  | _ => .ok none

/-- The different identities of a list, in order. -/
def sortedIds (ids : List (Option String)) : List (Option String) :=
  ids.dedup.insertionSort fun a b => a.getD "" ≤ b.getD ""

def positionValue (pairs : List (PairValue K)) (positionId : Option String) : PositionValue K :=
  let rows := pairs.filter fun pair => pair.positionId = positionId
  { positionId
    pairCount := rows.length
    scheduleIds := sortedIds (rows.map PairValue.scheduleId)
    suites := sortedSet (rows.map PairValue.suite)
    value := fmean (rows.map PairValue.value) }

def positionValues (pairs : List (PairValue K)) : List (PositionValue K) :=
  (sortedIds (pairs.map PairValue.positionId)).map (positionValue pairs)

/-- `_aggregate_values` -/
def aggregateValues (runtime : Runtime K) (contexts : List Context) (values : GameValues K)
    (allowedPairIds : Option (List String)) : Except String (Aggregation K) := do
  let ids := (pairIds contexts).filter fun pairId => allowedPairIds.all fun allowed => pairId ∈ allowed
  let pairs ← ids.mapM fun pairId => pairValue runtime values pairId (pairMembers contexts pairId)
  let pairs := pairs.filterMap id
  return {
    pairValues := pairs
    positionValues := positionValues pairs
    missingGameValues := (ids.flatMap (pairMembers contexts)).countP fun c => (gameValue values c).isNone }

/-- No number stands in the dimensions of a stratum. -/
local instance noNumberText : NumberText Unit where
  isFinite _ := false
  repr _ := []
  parse _ := ()
  maxStrDigits := 0
  scan_repr _ _ finite := by simp at finite
  parse_repr _ _ := rfl

def idJson : Option String → Json Unit
  | some id => .str id
  | none => .null

/-- One value stands for itself. -/
def oneOrAll : List (Json Unit) → Json Unit
  | [value] => value
  | values => .arr values

namespace PositionValue

def stratum (p : PositionValue K) : Json Unit :=
  .obj [("schedule_id", oneOrAll (p.scheduleIds.map idJson)), ("suite", oneOrAll (p.suites.map Json.str))]

def stratumKey (p : PositionValue K) : String := String.ofList p.stratum.sorted.text

end PositionValue

structure Stratum where
  dimensions : Json Unit
  positionClusters : Nat

structure Bootstrap (K : Type) where
  replications : Nat
  seed : Nat
  strata : List Stratum
  lowerBound : Option K
  upperBound : Option K
  zeroEventUpperBoundApplied : Bool := false

/-- The positions of a stratum. -/
def stratumRows (positions : List (PositionValue K)) (key : String) : List (PositionValue K) :=
  (positions.filter fun p => p.stratumKey = key).insertionSort fun a b => a.positionId.getD "" ≤ b.positionId.getD ""

/-- The values of a stratum, centred within it. -/
def centered (rows : List (PositionValue K)) : List K :=
  let mean := fmean (rows.map PositionValue.value)
  rows.map fun p => p.value - mean

/-- `_quantile` -/
def quantile [FloorRing K] (values : List K) (probability : K) : Option K :=
  let ordered := values.insertionSort (· ≤ ·)
  match ordered with
  | [] => none
  | [value] => some value
  | _ =>
      let index := probability * ((ordered.length : K) - 1)
      let lower := ⌊index⌋
      let upper := ⌈index⌉
      if lower = upper then ordered[lower.toNat]?
      else do
        let weight := index - (lower : K)
        return (← ordered[lower.toNat]?) * (1 - weight) + (← ordered[upper.toNat]?) * weight

/-- `_bootstrap_bounds` -/
def bootstrapBounds [FloorRing K] (runtime : Runtime K) (positions : List (PositionValue K)) (alpha : K)
    (replications seed : Nat) : Bootstrap K :=
  let estimate := fmean (positions.map PositionValue.value)
  let keys := sortedSet (positions.map PositionValue.stratumKey)
  let residuals := keys.flatMap fun key => centered (stratumRows positions key)
  let replicate (n : Nat) : K :=
    estimate + (residuals.zipIdx.map fun (residual, i) =>
      residual * if runtime.getrandbits seed (n * residuals.length + i) then 1 else -1).sum / positions.length
  let replicates := (List.range replications).map replicate
  { replications
    seed
    strata := keys.map fun key =>
      ⟨(Json.loads plainHooks key.toList).getD .null, (stratumRows positions key).length⟩
    lowerBound := quantile replicates alpha
    upperBound := quantile replicates (1 - alpha) }

end Field

end KataGo.Paired
