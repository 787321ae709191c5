import KataGo.Lib.Dict
import KataGo.Promotion.Event

/-! The state of the registry, rebuilt from its events one at a time. -/

namespace KataGo.Promotion
open KataGo.Lib

structure CandidateRecord where
  candidateHash : String
  candidatePath : String
  state : CandidateState
  parentChampionHash : String
  testedChampionHash : Option String
  evaluationKey : Option String
  generationId : Option String
  lastSequence : Int

structure GenerationRecord where
  generationId : String
  candidateHash : String
  candidatePath : Option String
  previousChampionHash : Option String
  evaluationKey : Option String
  state : GenerationState
  restoreChampionHash : Option String
  lastSequence : Int

structure ReferencePin where
  pinId : String
  referenceHash : String
  kind : String
  owner : String
  reason : String
  createdSequence : Int

structure RegistryBuilder where
  candidates : Dict String CandidateRecord := .empty
  generations : Dict String GenerationRecord := .empty
  pins : Dict String ReferencePin := .empty
  currentChampionHash : Option String := none
  currentGenerationId : Option String := none
  originalHash : Option String := none
  pathToHash : Dict String String := .empty
  seenPinIds : List String := []

def showOption : Option String → String
  | none => "None"
  | some s => s

variable {F : Type}

def generationIdOf (event : PromotionEvent F) : Checked String :=
  (requireNonempty (Json.get event.payload "generation_id") "payload.generation_id").reraise .illegalTransition

def restoreHash (event : PromotionEvent F) : Checked String :=
  (requireSha256 (Json.get event.payload "restore_champion_hash") "payload.restore_champion_hash").reraise
    .illegalTransition

/-- The current generation a champion would have: the latest of its active ones, and among
equals the one that was recorded first. -/
def latest : List GenerationRecord → Option GenerationRecord
  | [] => none
  | generation :: rest =>
      some (rest.foldl (fun best item => if best.lastSequence < item.lastSequence then item else best) generation)

namespace RegistryBuilder

/-- Whether an event may give this path to the candidate, given the record it has. -/
def checkMove (current : Option CandidateRecord) (hash path : String) (previousPath : Json F) : Checked Unit :=
  match current with
  | none => require (previousPath.isNull = true) (.corrupt "first candidate event may not claim a previous path")
  | some current =>
      if path ≠ current.candidatePath then
        require (previousPath.isStr current.candidatePath = true)
          (.corrupt s!"candidate hash {hash} moved from {reprText current.candidatePath} to {reprText path} without matching previous_candidate_path")
      else
        require (previousPath.isNull = true) (.corrupt "previous_candidate_path is present without a path move")

/-- The hash and the path of the candidate that an event names. -/
def validateCandidateIdentity (b : RegistryBuilder) (event : PromotionEvent F) : Checked (String × String) :=
  match event.candidateHash, event.candidatePath with
  | some hash, some path => do
      let knownHash := b.pathToHash.get path
      require (knownHash = none ∨ knownHash = some hash)
        (.corrupt s!"candidate path {reprText path} was recorded with both {showOption knownHash} and {hash}")
      checkMove (b.candidates.get hash) hash path (Json.get event.payload "previous_candidate_path")
      return (hash, path)
  | _, _ => .error (.illegal s!"{event.transition.value} requires candidate_hash and candidate_path")

def recordPath (b : RegistryBuilder) (hash path : String) : RegistryBuilder :=
  { b with pathToHash := b.pathToHash.set path hash }

def applyBootstrap (b : RegistryBuilder) (event : PromotionEvent F) : Checked RegistryBuilder := do
  require (b.currentChampionHash = none ∧ b.generations.isEmpty ∧ b.candidates.isEmpty ∧ b.pins.isEmpty ∧
    event.sequence = 1) (.illegal "champion may be bootstrapped only once first")
  require (event.candidateHash = none ∧ event.candidatePath = none)
    (.illegal "champion bootstrap has no candidate identity")
  let generationId ← generationIdOf event
  return { b with
    currentChampionHash := some event.championHash
    currentGenerationId := some generationId
    generations := b.generations.set generationId
      { generationId := generationId
        candidateHash := event.championHash
        candidatePath := none
        previousChampionHash := none
        evaluationKey := none
        state := .active
        restoreChampionHash := none
        lastSequence := event.sequence } }

/-- The tested champion and the evaluation key that a candidate has after a transition. -/
def evaluationAfter (current : CandidateRecord) (target : CandidateState) (event : PromotionEvent F) :
    Checked (Option String × Option String) := do
  if target.isEvaluating then
    require (event.evaluationKey ≠ none) (.illegal s!"{target.value} requires a non-empty evaluation_key")
    return (some event.championHash, event.evaluationKey)
  else if target = .confirmed then
    require (event.evaluationKey ≠ none ∧ event.evaluationKey = current.evaluationKey ∧
      some event.championHash = current.testedChampionHash)
      (.illegal "confirmation must match the active confirmation evaluation")
    return (current.testedChampionHash, current.evaluationKey)
  else
    require (event.evaluationKey = none ∨ event.evaluationKey = current.evaluationKey)
      (.illegal "terminal transition evaluation_key does not match active evaluation")
    return (current.testedChampionHash, current.evaluationKey)

def discoverCandidate (b : RegistryBuilder) (event : PromotionEvent F) (hash path : String) :
    Checked RegistryBuilder := do
  require ((b.candidates.get hash).isNone) (.illegal "candidate may be discovered only once")
  return { b with
    candidates := b.candidates.set hash
      { candidateHash := hash
        candidatePath := path
        state := .discovered
        parentChampionHash := event.championHash
        testedChampionHash := none
        evaluationKey := none
        generationId := none
        lastSequence := event.sequence } }

def advanceCandidate (b : RegistryBuilder) (event : PromotionEvent F) (target : CandidateState) (hash path : String) :
    Checked RegistryBuilder :=
  match b.candidates.get hash with
  | none => .error (.illegal s!"candidate {hash} was not discovered")
  | some current => do
      require (target ∈ current.state.legalTransitions)
        (.illegal s!"illegal candidate transition {current.state.value} -> {target.value}")
      let evaluation ← evaluationAfter current target event
      return { b with
        candidates := b.candidates.set hash
          { current with
            candidatePath := path
            state := target
            testedChampionHash := evaluation.1
            evaluationKey := evaluation.2
            lastSequence := event.sequence } }

def applyCandidate (b : RegistryBuilder) (event : PromotionEvent F) (target : CandidateState) :
    Checked RegistryBuilder := do
  let candidate ← b.validateCandidateIdentity event
  require (some event.championHash = b.currentChampionHash)
    (.illegal s!"{event.transition.value} names stale champion {event.championHash}; current is {showOption b.currentChampionHash}")
  if target = .discovered then
    (b.recordPath candidate.1 candidate.2).discoverCandidate event candidate.1 candidate.2
  else
    (b.recordPath candidate.1 candidate.2).advanceCandidate event target candidate.1 candidate.2

def activeGenerationFor (b : RegistryBuilder) (championHash : String) : Option String :=
  (latest (b.generations.values.filter fun generation =>
    generation.candidateHash = championHash ∧ generation.state = .active)).map GenerationRecord.generationId

def applyIntent (b : RegistryBuilder) (event : PromotionEvent F) (candidateHash candidatePath generationId : String) :
    Checked RegistryBuilder :=
  match b.candidates.get candidateHash with
  | none => .error (.illegal "promotion intent requires a confirmed candidate")
  | some candidate => do
      require (candidate.state = .confirmed) (.illegal "promotion intent requires a confirmed candidate")
      require ((b.generations.get generationId).isNone) (.illegal "generation may have only one intent")
      require (candidate.generationId = none) (.illegal "candidate is already assigned to a generation")
      require (some event.championHash = b.currentChampionHash ∧
        candidate.testedChampionHash = some event.championHash ∧ candidate.evaluationKey = event.evaluationKey)
        (.illegal "promotion intent must use the champion and evaluation validated by confirmation")
      return { b with
        generations := b.generations.set generationId
          { generationId := generationId
            candidateHash := candidateHash
            candidatePath := some candidatePath
            previousChampionHash := some event.championHash
            evaluationKey := event.evaluationKey
            state := .promotionIntent
            restoreChampionHash := none
            lastSequence := event.sequence }
        candidates := b.candidates.set candidateHash
          { candidate with
            candidatePath := candidatePath
            generationId := some generationId
            lastSequence := event.sequence } }

/-- The champion to restore that a generation records after a transition. -/
def restoreAfter (generation : GenerationRecord) (target : GenerationState) (event : PromotionEvent F) :
    Checked (Option String) := do
  if target = .rollbackPending ∨ target = .rolledBack then
    let suppliedRestore ← restoreHash event
    require (some suppliedRestore = generation.previousChampionHash)
      (.illegal "rollback target must be the generation's previous champion")
    require (generation.restoreChampionHash = none ∨ generation.restoreChampionHash = some suppliedRestore)
      (.illegal "rollback target changed during recovery")
    return some suppliedRestore
  else
    return generation.restoreChampionHash

/-- The champion and its generation after a transition of a generation. -/
def championAfter (b : RegistryBuilder) (generation : GenerationRecord) (target : GenerationState)
    (generationId : String) (restore : Option String) : Checked (Option String × Option String) := do
  if target = .active then
    require (b.currentChampionHash = generation.previousChampionHash)
      (.illegal "activation compare-and-swap champion is stale")
    return (some generation.candidateHash, some generationId)
  else if target = .rolledBack then
    require (b.currentChampionHash = some generation.candidateHash ∨
      b.currentChampionHash = generation.previousChampionHash)
      (.illegal "cannot roll back over an unrelated active champion")
    return (restore, restore.bind b.activeGenerationFor)
  else
    return (b.currentChampionHash, b.currentGenerationId)

def moveGeneration (b : RegistryBuilder) (event : PromotionEvent F) (target : GenerationState)
    (hash path generationId : String) : Checked RegistryBuilder :=
  match b.generations.get generationId with
  | none => .error (.illegal s!"unknown generation: {generationId}")
  | some generation => do
      require (generation.candidateHash = hash ∧ generation.candidatePath = some path)
        (.corrupt s!"generation {generationId} candidate identity changed")
      require (some event.championHash = generation.previousChampionHash)
        (.illegal s!"generation {generationId} previous champion changed")
      require (event.evaluationKey = none ∨ event.evaluationKey = generation.evaluationKey)
        (.illegal s!"generation {generationId} evaluation_key changed")
      require (target ∈ generation.state.legalTransitions)
        (.illegal s!"illegal generation transition {generation.state.value} -> {target.value}")
      let restore ← restoreAfter generation target event
      let decided ← b.championAfter generation target generationId restore
      return { b with
        currentChampionHash := decided.1
        currentGenerationId := decided.2
        generations := b.generations.set generationId
          { generation with
            state := target
            restoreChampionHash := restore
            lastSequence := event.sequence } }

def applyGeneration (b : RegistryBuilder) (event : PromotionEvent F) (target : GenerationState) :
    Checked RegistryBuilder := do
  let candidate ← b.validateCandidateIdentity event
  let generationId ← generationIdOf event
  if target = .promotionIntent then
    (b.recordPath candidate.1 candidate.2).applyIntent event candidate.1 candidate.2 generationId
  else
    (b.recordPath candidate.1 candidate.2).moveGeneration event target candidate.1 candidate.2 generationId

def applyPin (b : RegistryBuilder) (event : PromotionEvent F) : Checked RegistryBuilder := do
  require (event.candidateHash = none ∧ event.candidatePath = none)
    (.illegal "reference pin must not name a candidate")
  require (some event.championHash = b.currentChampionHash) (.illegal "reference pin names a stale champion")
  let pinId ← (requireNonempty (Json.get event.payload "pin_id") "payload.pin_id").reraise .illegalTransition
  let referenceHash ← (requireSha256 (Json.get event.payload "reference_hash") "payload.reference_hash").reraise
    .illegalTransition
  let kind ← (requireNonempty (Json.get event.payload "kind") "payload.kind").reraise .illegalTransition
  let owner ← (requireNonempty (Json.get event.payload "owner") "payload.owner").reraise .illegalTransition
  require (pinId ∉ b.seenPinIds) (.illegal s!"pin identifier was already used: {pinId}")
  return { b with
    seenPinIds := pinId :: b.seenPinIds
    pins := b.pins.set pinId
      { pinId := pinId
        referenceHash := referenceHash
        kind := kind
        owner := owner
        reason := event.reason
        createdSequence := event.sequence } }

def applyUnpin (b : RegistryBuilder) (event : PromotionEvent F) : Checked RegistryBuilder := do
  require (event.candidateHash = none ∧ event.candidatePath = none)
    (.illegal "reference unpin must not name a candidate")
  require (some event.championHash = b.currentChampionHash) (.illegal "reference unpin names a stale champion")
  let pinId ← (requireNonempty (Json.get event.payload "pin_id") "payload.pin_id").reraise .illegalTransition
  let referenceHash ← (requireSha256 (Json.get event.payload "reference_hash") "payload.reference_hash").reraise
    .illegalTransition
  match b.pins.get pinId with
  | none => .error (.illegal s!"pin is not active: {pinId}")
  | some existing => do
      require (existing.referenceHash = referenceHash) (.illegal s!"unpin reference changed for {pinId}")
      return { b with pins := b.pins.erase pinId }

def dispatch (b : RegistryBuilder) (event : PromotionEvent F) : Checked RegistryBuilder :=
  match event.transition.candidateTarget, event.transition.generationTarget with
  | some target, _ => b.applyCandidate event target
  | none, some target => b.applyGeneration event target
  | none, none =>
      if event.transition = .referencePinned then b.applyPin event
      else if event.transition = .referenceUnpinned then b.applyUnpin event
      else .error (.illegal s!"unsupported transition: {event.transition.value}")

/-- The original hash is recorded before any check of the event itself. -/
def opened (b : RegistryBuilder) (event : PromotionEvent F) : RegistryBuilder :=
  { b with originalHash := some event.originalHash }

def apply (b : RegistryBuilder) (event : PromotionEvent F) : Checked RegistryBuilder := do
  require (b.originalHash = none ∨ b.originalHash = some event.originalHash)
    (.corrupt s!"event {event.sequence} changes immutable original hash")
  if event.transition = .championBootstrapped then
    (b.opened event).applyBootstrap event
  else
    require (b.currentChampionHash ≠ none) (.illegal "champion.bootstrap must precede lifecycle mutations")
    (b.opened event).dispatch event

end RegistryBuilder

/-- The registry after a log of events. -/
def rebuild (events : List (PromotionEvent F)) : Checked RegistryBuilder :=
  replay RegistryBuilder.apply ({} : RegistryBuilder) events

end KataGo.Promotion
