import KataGo.Paired.Rows
import Mathlib.Data.List.Dedup
import Mathlib.Data.List.Sort

/-! `_validate_and_context` of `python/risk_score/paired_stats.py`: the rows of a match, the pairs
that they form, and the report on both. -/

namespace KataGo.Paired
open KataGo.Lib

/-- A list of one issue or none. -/
def issueIf (found : Bool) (issue : Issue) : List Issue := if found then [issue] else []

namespace Context

/-- An issue of the row, with the identities that it has. -/
def issue (c : Context) (code detail : String) : Issue := ⟨code, detail, some c.index, c.gameId, c.pairId⟩

end Context

/-- The issues of the identities, in the order in which they are looked at. -/
def identityIssues (seen : List (String × Nat)) (c : Context) : List Issue :=
  issueIf (!match Json.get c.row "schemaVersion" with
    | .int n => decide (n = 1)
    | _ => false) ⟨"UNSUPPORTED_SCHEMA_VERSION", "schemaVersion must equal 1", some c.index, none, none⟩ ++
  (match c.gameId with
    | none => [⟨"MISSING_GAME_ID", "gameId must be a nonempty string", some c.index, none, none⟩]
    | some gameId =>
        match seen.lookup gameId with
        | some first => [⟨"DUPLICATE_GAME_ID", "also present at row " ++ toString first, some c.index, some gameId, none⟩]
        | none => []) ++
  issueIf c.pairId.isNone (c.issue "MISSING_PAIR_ID" "pairId must be a nonempty string") ++
  issueIf c.positionId.isNone (c.issue "MISSING_POSITION_ID" "positionId must be a nonempty string") ++
  issueIf c.scheduleId.isNone (c.issue "MISSING_SCHEDULE_ID" "scheduleId must be a nonempty string") ++
  issueIf c.seed.isNone (c.issue "MISSING_SEED" "seed must be a nonempty string")

def botIssues (c : Context) : List Issue :=
  issueIf (missingBot c.blackBot || missingBot c.whiteBot)
    (c.issue "MISSING_BOT_IDENTITY" "blackBot and whiteBot must both be nonempty") ++
  issueIf (c.candidateIsBlack == c.candidateIsWhite)
    (c.issue "TARGET_BOT_NOT_EXACTLY_ONCE" "candidate bot must appear exactly once") ++
  issueIf (sameJson c.blackBot c.whiteBot) (c.issue "IDENTICAL_BOTS" "blackBot and whiteBot must differ")

def flagIssues (c : Context) (name : String) : List Issue :=
  issueIf (c.row.lookup name).isNone (c.issue "MISSING_TERMINAL_FLAG" (name ++ " must be explicitly present")) ++
  issueIf (!(flag c.row name).2) (c.issue "INVALID_BOOLEAN_FLAG" (name ++ " must be boolean when present"))

def resultIssues (c : Context) : List Issue :=
  let (winner, winnerConflict) := rowWinner c.row
  let numericScore := finiteNumber (Json.get c.row "finalWhiteMinusBlackScore")
  issueIf c.resignation (c.issue "RESIGNATION" "resignations are invalid for promotion") ++
  issueIf c.turnLimit (c.issue "TURN_LIMIT" "turn-limit games are invalid for promotion") ++
  issueIf ((explicitWinner (Json.get c.row "winner")).isNone && !(Json.get c.row "winner").isNull)
    (c.issue "INVALID_WINNER" "winner must be B, W, draw, or null") ++
  issueIf winnerConflict (c.issue "WINNER_RESULT_CONFLICT" "winner conflicts with finalResult") ++
  issueIf (c.noResult && winner.isSome) (c.issue "NO_RESULT_WITH_WINNER" "a true no-result must not name a winner") ++
  issueIf (!c.noResult && !c.turnLimit && c.outcome.isNone)
    (c.issue "UNRESOLVED_ROW" "row is neither a resolved result nor an explicit no-result") ++
  issueIf (!(Json.get c.row "finalWhiteMinusBlackScore").isNull && numericScore.isNone)
    (c.issue "NONFINITE_OR_NONNUMERIC_SCORE" "finalWhiteMinusBlackScore must be finite numeric or null") ++
  issueIf (c.noResult && numericScore.isSome)
    (c.issue "NO_RESULT_WITH_NUMERIC_SCORE" "true no-result must not have a numeric terminal score")

def rowIssues (seen : List (String × Nat)) (c : Context) : List Issue :=
  identityIssues seen c ++ botIssues c ++
    (["resignation", "hitTurnLimit", "noResult"].flatMap fun name => flagIssues c name) ++ resultIssues c

structure Counts where
  rows : Nat := 0
  pairs : Nat := 0
  positionClusters : Nat := 0
  wins : Nat := 0
  draws : Nat := 0
  losses : Nat := 0
  trueNoResults : Nat := 0
  resignations : Nat := 0
  turnLimits : Nat := 0
  unresolvedRows : Nat := 0
  resolvedMissingNumericScores : Nat := 0
  duplicateGameIds : Nat := 0
  missingPairMembers : Nat := 0
  duplicatePairMembers : Nat := 0
  incompletePairs : Nat := 0
  missingGames : Nat := 0
  structuralErrors : Nat := 0
  deriving DecidableEq, Repr

/-- One more where the condition holds. -/
def bumpIf (found : Bool) (n : Nat) : Nat := if found then n + 1 else n

def rowCounts (seen : List (String × Nat)) (c : Context) (counts : Counts) : Counts :=
  let resolved := !c.noResult && !c.turnLimit
  let draw := decide ((rowWinner c.row).1 = some "draw")
  let missing := (finiteNumber (Json.get c.row "finalWhiteMinusBlackScore")).isNone
  { counts with
    duplicateGameIds := bumpIf (c.gameId.any fun gameId => (seen.lookup gameId).isSome) counts.duplicateGameIds
    resignations := bumpIf c.resignation counts.resignations
    turnLimits := bumpIf c.turnLimit counts.turnLimits
    trueNoResults := bumpIf c.noResult counts.trueNoResults
    draws := bumpIf (resolved && draw) counts.draws
    wins := bumpIf (resolved && !draw && c.outcome.any fun outcome => outcome > 0) counts.wins
    losses := bumpIf (resolved && !draw && c.outcome.any fun outcome => ¬ outcome > 0) counts.losses
    unresolvedRows := bumpIf (resolved && c.outcome.isNone) counts.unresolvedRows
    resolvedMissingNumericScores := bumpIf (c.outcome.isSome && !c.noResult && missing && !c.resignation)
      counts.resolvedMissingNumericScores }

/-- The state of the loop over the rows. -/
structure Scan where
  issues : List Issue
  contexts : List Context
  seenGameIds : List (String × Nat)
  counts : Counts

def scanRow (candidateBot : Value) (s : Scan) (entry : Value × Nat) : Scan :=
  match entry.1 with
  | .obj row =>
      let c := rowContext candidateBot entry.2 row
      { issues := s.issues ++ rowIssues s.seenGameIds c
        contexts := s.contexts ++ [c]
        seenGameIds := match c.gameId with
          | some gameId => if (s.seenGameIds.lookup gameId).isSome then s.seenGameIds else s.seenGameIds ++ [(gameId, entry.2)]
          | none => s.seenGameIds
        counts := rowCounts s.seenGameIds c s.counts }
  | _ => { s with issues := s.issues ++ [⟨"ROW_NOT_OBJECT", "row must be an object", some entry.2, none, none⟩] }

/-- The different values of a list of strings, in order. -/
def sortedSet (values : List String) : List String := values.dedup.insertionSort (· ≤ ·)

def pairIds (contexts : List Context) : List String := sortedSet (contexts.filterMap Context.pairId)

def pairMembers (contexts : List Context) (pairId : String) : List Context :=
  contexts.filter fun c => c.pairId = some pairId

/-- The issues of two rows that form a pair. -/
def memberIssues (pairId : String) (first second : Context) : List Issue :=
  let issue (code detail : String) : Issue := ⟨code, detail, none, none, some pairId⟩
  issueIf (first.scheduleId ≠ second.scheduleId)
    (issue "PAIR_SCHEDULE_MISMATCH" "pair members have different scheduleId values") ++
  issueIf (first.positionId ≠ second.positionId)
    (issue "PAIR_POSITION_MISMATCH" "pair members have different positionId values") ++
  issueIf ([first, second].filterMap Context.candidateColor |>.insertionSort (· ≤ ·) |> (· ≠ ["B", "W"]))
    (issue "DUPLICATE_PAIR_MEMBER" "pair must contain one candidate-black and one candidate-white game") ++
  issueIf (!(sameJson first.blackBot second.whiteBot && sameJson first.whiteBot second.blackBot))
    (issue "PAIR_NOT_COLOR_REVERSED" "blackBot/whiteBot assignments are not exact reversals") ++
  issueIf (!sameJson first.referenceBot second.referenceBot)
    (issue "PAIR_REFERENCE_MISMATCH" "pair members use different reference bots") ++
  issueIf (first.seed.isSome && first.seed = second.seed)
    (issue "PAIR_SEED_COLLISION" "color-reversed pair members must use distinct seeds")

def pairIssues (pairId : String) (members : List Context) : List Issue :=
  match members with
  | [first, second] => memberIssues pairId first second
  | _ =>
      if members.length < 2 then
        [⟨"MISSING_PAIR_MEMBER", "pair has " ++ toString members.length ++ " row(s), expected 2", none, none, some pairId⟩]
      else [⟨"DUPLICATE_PAIR_MEMBER", "pair has " ++ toString members.length ++ " rows, expected 2", none, none, some pairId⟩]

def pairCounts (counts : Counts) (members : List Context) : Counts :=
  match members with
  | [first, second] =>
      { counts with
        duplicatePairMembers := bumpIf ([first, second].filterMap Context.candidateColor |>.insertionSort (· ≤ ·)
          |> (· ≠ ["B", "W"])) counts.duplicatePairMembers }
  | _ =>
      { counts with
        incompletePairs := counts.incompletePairs + 1
        missingPairMembers := counts.missingPairMembers + (2 - members.length)
        duplicatePairMembers := counts.duplicatePairMembers + (members.length - 2) }

def structuralCodes : List String :=
  ["DUPLICATE_GAME_ID", "DUPLICATE_PAIR_MEMBER", "IDENTICAL_BOTS", "INVALID_WINNER", "MISSING_BOT_IDENTITY", "MISSING_GAME_ID",
    "MISSING_PAIR_ID", "MISSING_PAIR_MEMBER", "MISSING_POSITION_ID", "MISSING_SCHEDULE_ID", "MISSING_SEED",
    "MISSING_TERMINAL_FLAG", "NO_MATCH_ROWS", "PAIR_NOT_COLOR_REVERSED", "PAIR_POSITION_MISMATCH", "PAIR_REFERENCE_MISMATCH",
    "PAIR_SCHEDULE_MISMATCH", "PAIR_SEED_COLLISION", "ROW_NOT_OBJECT", "TARGET_BOT_NOT_EXACTLY_ONCE",
    "UNSUPPORTED_SCHEMA_VERSION"]

namespace Issue

/-- The order of the report. -/
def order (a b : Issue) : Ordering :=
  (compare a.code b.code).then <| (compare (a.pairId.getD "") (b.pairId.getD "")).then <|
    (compare (a.gameId.getD "") (b.gameId.getD "")).then <|
      (compare ((a.rowIndex.map Int.ofNat).getD (-1)) ((b.rowIndex.map Int.ofNat).getD (-1))).then <| compare a.detail b.detail

end Issue

structure Report where
  promotionValid : Bool
  errorCodes : List String
  errors : List Issue
  counts : Counts

/-- What the loop over the rows finds. -/
def scanRows (rows : List Value) (candidateBot : Value) : Scan :=
  rows.zipIdx.foldl (scanRow candidateBot)
    { issues := if rows = [] then [⟨"NO_MATCH_ROWS", "at least one complete color pair is required", none, none, none⟩] else []
      contexts := []
      seenGameIds := []
      counts := { rows := rows.length } }

def matchIssues (rows : List Value) (candidateBot : Value) : List Issue :=
  let s := scanRows rows candidateBot
  s.issues ++ (pairIds s.contexts).flatMap fun pairId => pairIssues pairId (pairMembers s.contexts pairId)

/-- `_validate_and_context` -/
def validateAndContext (rows : List Value) (candidateBot : Value) : Except String (Report × List Context) :=
  if missingBot candidateBot then .error "candidate_bot must be nonempty"
  else
    let s := scanRows rows candidateBot
    let issues := matchIssues rows candidateBot
    let counts := (pairIds s.contexts).foldl (fun counts pairId => pairCounts counts (pairMembers s.contexts pairId)) s.counts
    .ok
      ({ promotionValid := issues.isEmpty
         errorCodes := sortedSet (issues.map Issue.code)
         errors := issues.mergeSort fun a b => (a.order b).isLE
         counts := { counts with
           pairs := (pairIds s.contexts).length
           positionClusters := (s.contexts.filterMap Context.positionId).dedup.length
           missingGames := counts.missingPairMembers
           structuralErrors := issues.countP fun issue => issue.code ∈ structuralCodes } }, s.contexts)

end KataGo.Paired
