import KataGo.Lib.Json
import KataGo.Lib.Replay
import KataGo.Lib.Strings

/-! The lifecycle of candidates and generations: their states, the transitions that events
name, which of them are legal, and the events themselves. -/

namespace KataGo.Promotion
open KataGo.Lib

inductive CandidateState where
  | discovered | claimed | superseded | evaluatingIntegrity | evaluatingScreen | evaluatingFinalist
  | evaluatingConfirmation | rejected | quarantined | confirmed
  deriving DecidableEq

def CandidateState.value : CandidateState → String
  | discovered => "discovered"
  | claimed => "claimed"
  | superseded => "superseded"
  | evaluatingIntegrity => "evaluating_integrity"
  | evaluatingScreen => "evaluating_screen"
  | evaluatingFinalist => "evaluating_finalist"
  | evaluatingConfirmation => "evaluating_confirmation"
  | rejected => "rejected"
  | quarantined => "quarantined"
  | confirmed => "confirmed"

inductive GenerationState where
  | promotionIntent | canary | rollout | active | rollbackPending | rolledBack | quarantined
  deriving DecidableEq

def GenerationState.value : GenerationState → String
  | promotionIntent => "promotion_intent"
  | canary => "canary"
  | rollout => "rollout"
  | active => "active"
  | rollbackPending => "rollback_pending"
  | rolledBack => "rolled_back"
  | quarantined => "quarantined"

inductive Transition where
  | championBootstrapped
  | candidateDiscovered | candidateClaimed | candidateSuperseded
  | evaluationIntegrityStarted | evaluationScreenStarted | evaluationFinalistStarted
  | evaluationConfirmationStarted
  | candidateRejected | candidateQuarantined | candidateConfirmed
  | generationPromotionIntent | generationCanaryStarted | generationRolloutStarted | generationActivated
  | generationRollbackStarted | generationRolledBack | generationQuarantined
  | referencePinned | referenceUnpinned
  deriving DecidableEq

namespace Transition

def value : Transition → String
  | championBootstrapped => "champion.bootstrapped"
  | candidateDiscovered => "candidate.discovered"
  | candidateClaimed => "candidate.claimed"
  | candidateSuperseded => "candidate.superseded"
  | evaluationIntegrityStarted => "evaluation.integrity_started"
  | evaluationScreenStarted => "evaluation.screen_started"
  | evaluationFinalistStarted => "evaluation.finalist_started"
  | evaluationConfirmationStarted => "evaluation.confirmation_started"
  | candidateRejected => "candidate.rejected"
  | candidateQuarantined => "candidate.quarantined"
  | candidateConfirmed => "candidate.confirmed"
  | generationPromotionIntent => "generation.promotion_intent"
  | generationCanaryStarted => "generation.canary_started"
  | generationRolloutStarted => "generation.rollout_started"
  | generationActivated => "generation.activated"
  | generationRollbackStarted => "generation.rollback_started"
  | generationRolledBack => "generation.rolled_back"
  | generationQuarantined => "generation.quarantined"
  | referencePinned => "reference.pinned"
  | referenceUnpinned => "reference.unpinned"

def candidateTarget : Transition → Option CandidateState
  | candidateDiscovered => some .discovered
  | candidateClaimed => some .claimed
  | candidateSuperseded => some .superseded
  | evaluationIntegrityStarted => some .evaluatingIntegrity
  | evaluationScreenStarted => some .evaluatingScreen
  | evaluationFinalistStarted => some .evaluatingFinalist
  | evaluationConfirmationStarted => some .evaluatingConfirmation
  | candidateRejected => some .rejected
  | candidateQuarantined => some .quarantined
  | candidateConfirmed => some .confirmed
  | _ => none

def generationTarget : Transition → Option GenerationState
  | generationPromotionIntent => some .promotionIntent
  | generationCanaryStarted => some .canary
  | generationRolloutStarted => some .rollout
  | generationActivated => some .active
  | generationRollbackStarted => some .rollbackPending
  | generationRolledBack => some .rolledBack
  | generationQuarantined => some .quarantined
  | _ => none

end Transition

def CandidateState.legalTransitions : CandidateState → List CandidateState
  | discovered => [claimed, superseded, quarantined]
  | claimed => [superseded, evaluatingIntegrity, quarantined]
  | evaluatingIntegrity => [evaluatingScreen, superseded, rejected, quarantined]
  | evaluatingScreen => [evaluatingFinalist, superseded, rejected, quarantined]
  | evaluatingFinalist => [evaluatingConfirmation, superseded, rejected, quarantined]
  | evaluatingConfirmation => [evaluatingConfirmation, confirmed, rejected, quarantined]
  | superseded | rejected | quarantined | confirmed => []

def GenerationState.legalTransitions : GenerationState → List GenerationState
  | promotionIntent => [canary, rollbackPending, quarantined]
  | canary => [rollout, rollbackPending, quarantined]
  | rollout => [active, rollbackPending, quarantined]
  | active => [rollbackPending]
  | rollbackPending => [rolledBack, quarantined]
  | rolledBack | quarantined => []

def CandidateState.isEvaluating : CandidateState → Bool
  | evaluatingIntegrity | evaluatingScreen | evaluatingFinalist | evaluatingConfirmation => true
  | _ => false

inductive ErrorKind where
  | valueError | registryCorruption | illegalTransition | eventConflict | notADirectory
  | championConflict | staleChampion | passReport | fileNotFound | osError
  deriving DecidableEq

structure PromotionError where
  kind : ErrorKind
  text : String
  deriving DecidableEq

namespace PromotionError

def value (text : String) : PromotionError := ⟨.valueError, text⟩
def corrupt (text : String) : PromotionError := ⟨.registryCorruption, text⟩
def illegal (text : String) : PromotionError := ⟨.illegalTransition, text⟩

end PromotionError

abbrev Checked (α : Type) : Type := Except PromotionError α

namespace Checked

variable {α : Type}

/-- An error of a check, raised again as an error of another kind with the same text. -/
def reraise (kind : ErrorKind) (check : Checked α) : Checked α :=
  check.mapError fun error => ⟨kind, error.text⟩

theorem reraise_eq_ok {kind : ErrorKind} {check : Checked α} {a : α} :
    check.reraise kind = .ok a ↔ check = .ok a := by
  cases check with
  | error e => simp [reraise, Except.mapError]
  | ok a' => simp [reraise, Except.mapError]

end Checked

def isHexDigit (c : Char) : Bool := ('0' ≤ c ∧ c ≤ '9') ∨ ('a' ≤ c ∧ c ≤ 'f')

def isSha256 (s : String) : Bool := s.toList.length = 64 ∧ s.toList.all isHexDigit

section Fields

variable {F : Type}

def requireSha256 (value : Json F) (field : String) : Checked String :=
  match value with
  | .str s => if isSha256 s then .ok s else
      .error (.value s!"{field} must be a lowercase 64-character SHA-256")
  | _ => .error (.value s!"{field} must be a lowercase 64-character SHA-256")

def requireNonempty (value : Json F) (field : String) : Checked String :=
  match value with
  | .str s =>
      if s.toList.all isSpace then .error (.value s!"{field} must be a non-empty string")
      else if (Char.ofNat 0) ∈ s.toList then .error (.value s!"{field} may not contain NUL")
      else .ok s
  | _ => .error (.value s!"{field} must be a non-empty string")

end Fields

/-- The content hashes required on every event. -/
structure EventProvenance where
  controllerHash : String
  sourceHash : String
  originalHash : String
  configHash : String
  scheduleHash : String
  policyHash : String
  sha256 : ∀ hash ∈ [controllerHash, sourceHash, originalHash, configHash, scheduleHash, policyHash],
    isSha256 hash = true

/-- One immutable, hash-chained lifecycle event. -/
structure PromotionEvent (F : Type) where
  schemaVersion : Int
  sequence : Int
  previousHash : String
  timestampUtc : String
  controllerHash : String
  sourceHash : String
  candidateHash : Option String
  candidatePath : Option String
  championHash : String
  originalHash : String
  transition : Transition
  evaluationKey : Option String
  configHash : String
  scheduleHash : String
  policyHash : String
  reason : String
  actor : String
  payload : List (String × Json F)
  eventHash : String

end KataGo.Promotion
