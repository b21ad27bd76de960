import Bureau.LiveRegister
import Bureau.Publication

/-!
The operator's intake of candidates: `candidate_record` records one source-bound observation of a
finding, `candidate_close` closes the current candidate with digest-bound evidence. Both write
through `live_register_record`.
-/

namespace Bureau

namespace LiveRegister

open Transactions LatestPerKey

/-- An `OperatorIntakeError`, or a StateError that passes through. -/
inductive IntakeFailure where
  | intake (error : Publication.OperatorIntakeError)
  | bureau (error : BureauError)
  deriving DecidableEq

abbrev Intake := Except IntakeFailure

def refuse {α : Type} (code message : String) : Intake α := .error (.intake ⟨code,message⟩)

/-- `_checked_text` of a required text. -/
def requiredText (value field : String) (maximum : ℕ) : Intake String := do
  let normalized := stripped value
  require (normalized ≠ "") (.intake ⟨"empty-field",field ++ " must not be empty"⟩)
  require (normalized.length ≤ maximum)
    (.intake ⟨"field-too-long",field ++ " must be at most " ++ toString maximum ++ " characters"⟩)
  return normalized

/-- `_checked_text` of an optional text; an empty one counts as none. -/
def presentText (value : Option String) (field : String) (maximum : ℕ) : Intake (Option String) :=
  match (value.map stripped).filter (· ≠ "") with
  | none => return none
  | some normalized => do
    require (normalized.length ≤ maximum)
      (.intake ⟨"field-too-long",field ++ " must be at most " ++ toString maximum ++ " characters"⟩)
    return some normalized

def checkedKey (key : String) : Intake String := do
  let key ← requiredText key "idempotency_key" 200
  require (isThreadId key) (.intake ⟨"idempotency-key-invalid","idempotency_key contains unsupported characters"⟩)
  return key

def checkedSourceSha (value : Option String) : Intake (Option String) := do
  let normalized ← presentText value "source_sha256" 64
  require (normalized.all validDigest)
    (.intake ⟨"source-digest-invalid","source_sha256 must be a lowercase SHA-256 digest"⟩)
  return normalized

def checkedSupersedesEventId (value : Option ℕ) : Intake (Option ℕ) := do
  require (value.all (1 ≤ ·))
    (.intake ⟨"supersedes-event-id-invalid","supersedes_event_id must be a positive integer"⟩)
  return value

/-- `_authoritative_candidate_catalog`: a task that only the StateStore knows counts as known. -/
def authoritativeCandidateCatalog (sha : Sha) (db : Db) (registry : Registry) (taskId : Option String) :
    Result Registry :=
  match (taskId.map stripped).filter fun id => id ≠ "" && registry.tasks[id]?.isNone with
  | none => return registry
  | some id => do
    match ← TaskSpecs.getCurrent sha db id with
    | none => return registry
    | some authoritative => do
      require (TaskSpecs.taskSpecDigest sha authoritative.spec = authoritative.specSha256)
        (.state ("authoritative TaskSpec digest drift for " ++ id))
      let task ← taskFromAuthoritativeSpec sha authoritative.spec
      require (task.id = id) (.state ("authoritative TaskSpec id drift for " ++ id))
      return { registry with tasks := registry.tasks.insert id task }

/-- `current_candidate_record` by candidate id. -/
def currentCandidateRecord (s : LiveStore) (candidateId : String) : Result LiveEvent := do
  let checked ← validateCandidateId (some candidateId)
  orRaise ((candidateProjection s.history).find? fun item => some (candidateIdentity item) = checked)
    (.state ("candidate " ++ checked.getD "" ++ " is unknown"))

/-! `candidate_record`. -/

structure CandidateRequest where
  idempotencyKey : String
  title : String
  sourceKind : String
  desiredOutcome : String
  repo : Option String := none
  sourceLocator : Option String := none
  sourceSha256 : Option String := none
  observedAt : Option String := none
  taskId : Option String := none
  candidateId : Option String := none
  supersedesEventId : Option ℕ := none
  note : Option String := none
  catalogValidation : CatalogMode := .strict

def CatalogMode.text : CatalogMode → String
  | .strict => "strict"
  | .deferred => "deferred"

/-- The texts of a request are stripped; repository, task and candidate id are taken as given. -/
def checkedCandidate (request : CandidateRequest) : Intake CandidateRequest := do
  let key ← checkedKey request.idempotencyKey
  let title ← requiredText request.title "title" 240
  let sourceKind ← requiredText request.sourceKind "source_kind" 80
  let desiredOutcome ← requiredText request.desiredOutcome "desired_outcome" 4000
  let sourceLocator ← presentText request.sourceLocator "source_locator" 2000
  let sourceSha256 ← checkedSourceSha request.sourceSha256
  let observedAt ← presentText request.observedAt "observed_at" 80
  let supersedesEventId ← checkedSupersedesEventId request.supersedesEventId
  let note ← presentText request.note "note" 2000
  return { request with
    idempotencyKey := key
    title := title
    sourceKind := sourceKind
    desiredOutcome := desiredOutcome
    sourceLocator := sourceLocator
    sourceSha256 := sourceSha256
    observedAt := observedAt
    supersedesEventId := supersedesEventId
    note := note }

/-- `_request_sha256` of a checked request. -/
def requestSha256 (sha : Sha) (r : CandidateRequest) : String :=
  sha256Json sha (.obj ([("candidate_id",nullable r.candidateId),("catalog_validation",.str r.catalogValidation.text),
    ("desired_outcome",.str r.desiredOutcome),("idempotency_key",.str r.idempotencyKey),("note",nullable r.note),
    ("observed_at",nullable r.observedAt),("repo",nullable r.repo),("schema_version",.num 1),
    ("source_kind",.str r.sourceKind),("source_locator",nullable r.sourceLocator),
    ("source_sha256",nullable r.sourceSha256)] ++
    (r.supersedesEventId.map fun id => ("supersedes_event_id",natJson id)).toList ++
    [("task_id",nullable r.taskId),("title",.str r.title)]))

/-- The answer of `candidate_record`. -/
structure CandidateResult where
  idempotentReplay : Bool
  candidateId : String
  eventId : ℕ
  sourceEventId : ℕ
  candidateEventId : Option String
  sourceFingerprint : Option String
  contentFingerprint : Option String
  createdAt : String
  requestSha256 : String
  record : LiveRecord
  deriving DecidableEq

/-- `_candidate_idempotency_result`: the answer to a request whose key is recorded. -/
def candidateIdempotencyResult (s : LiveStore) (key requestSha256 : String) : Intake (Option CandidateResult) :=
  match (candidateEvents s.history).reverse.find? fun event =>
      (operatorContext event.record).get? "idempotency_key" = some (.str key) with
  | none => return none
  | some event => do
    require ((operatorContext event.record).get? "request_sha256" = some (.str requestSha256))
      (.intake ⟨"idempotency-conflict","idempotency_key already identifies different candidate input"⟩)
    let identity := candidateIdentity event
    let observed := match currentCandidateRecord s identity with
      | .ok current => current
      | .error _ => event
    return some ⟨true,identity,observed.eventId,event.eventId,event.record.candidateEvent.map (·.eventId),
      event.record.candidateEvent.map (·.sourceFingerprint),event.record.candidateEvent.map (·.contentFingerprint),
      observed.createdAt,requestSha256,observed.record⟩

def candidateContent (E : Texts) (r : CandidateRequest) : String :=
  candidateContentFingerprint E r.title r.desiredOutcome r.repo r.taskId

def candidateSource (E : Texts) (r : CandidateRequest) : String :=
  candidateSourceFingerprint E r.sourceKind r.sourceLocator r.sourceSha256

def existingFingerprint (E : Texts) (record : LiveRecord) : String :=
  match record.candidateEvent with
  | some event => event.contentFingerprint
  | none => candidateContentFingerprint E record.title (((operatorContext record).getStr? "desired_outcome").getD "")
      record.repo record.taskId

def equivalentCandidateId (E : Texts) (s : LiveStore) (content : String) : Option String :=
  ((candidateProjection s.history).reverse.find? fun item => existingFingerprint E item.record = content).map
    candidateIdentity

def predecessor (s : LiveStore) (r : CandidateRequest) : Option LiveEvent :=
  r.supersedesEventId.bind fun id => (candidateEvents s.history).reverse.find? (·.eventId = id)

def selectedCandidateId (E : Texts) (s : LiveStore) (r : CandidateRequest) : Result String :=
  let given := r.candidateId.filter (· ≠ "")
  let known := if r.supersedesEventId.isSome then (predecessor s r).map candidateIdentity
    else if r.candidateId.isNone then equivalentCandidateId E s (candidateContent E r) else none
  (given <|> known).elim (candidateIdForContent (candidateContent E r)) pure

def sourceObservation (E : Texts) (now : String) (r : CandidateRequest) : Json :=
  .obj [("does_not_establish",.arr (if r.sourceSha256.isSome then [] else [.str "source_content_identity"])),
    ("fingerprint",.str (candidateSource E r)),
    ("freshness",.str (if r.sourceSha256.isSome then "digest-bound" else "fingerprint-bound")),
    ("kind",.str r.sourceKind),("locator",nullable r.sourceLocator),
    ("observed_at",.str (r.observedAt.getD now)),("sha256",nullable r.sourceSha256)]

/-- `candidate_authority_nonclaims`. -/
def authorityNonclaims : List Json :=
  ["claim_authority","dispatch_authority","merge_authority","deployment_authority"].map .str

def candidateContext (E : Texts) (now eventId : String) (r : CandidateRequest) : Json :=
  .obj [("candidate_event_id",.str eventId),("content_fingerprint",.str (candidateContent E r)),
    ("desired_outcome",.str r.desiredOutcome),
    ("does_not_establish",.arr (["registry_task_truth","queue_truth","task_readiness"].map Json.str ++
      authorityNonclaims)),
    ("idempotency_key",.str r.idempotencyKey),("request_sha256",.str (requestSha256 E.sha r)),
    ("schema_version",.num 1),("source",sourceObservation E now r),
    ("source_fingerprint",.str (candidateSource E r)),
    ("source_observations",.arr [sourceObservation E now r])]

/-- The arguments `candidate_record` calls `live_register_record` with. -/
def observationRequest (E : Texts) (now candidateId eventId : String) (r : CandidateRequest) : LiveRequest where
  kind := .candidateTask
  title := r.title
  source := "operator-intake"
  repo := r.repo
  taskId := r.taskId
  candidateId := some candidateId
  supersedesEventId := r.supersedesEventId
  status := if r.supersedesEventId.isSome then none else some .observed
  promotionRequired := if r.supersedesEventId.isSome then none else some true
  note := some (r.note.getD r.desiredOutcome)
  catalogValidation := r.catalogValidation
  operatorContext := some (candidateContext E now eventId r)
  candidateEvent := some ⟨candidateId,eventId,r.idempotencyKey,candidateSource E r,candidateContent E r⟩
  deduplicateCandidate := r.candidateId.isNone && r.supersedesEventId.isNone

def boundRegistry (E : Texts) (db : Db) (registry : Option Registry) (mode : CatalogMode) (taskId : Option String) :
    Result (Option Registry) :=
  match mode, registry with
  | .strict, some registry => some <$> authoritativeCandidateCatalog E.sha db registry taskId
  | .strict, none => return none
  | .deferred, _ => return none

def throughIntake {α : Type} (result : Result α) : Intake α :=
  result.mapError .bureau

@[simp] theorem throughIntake_eq_ok {α : Type} {result : Result α} {a : α} :
    throughIntake result = .ok a ↔ result = .ok a := by
  cases result <;> simp [throughIntake,Except.mapError]

def candidateRecord (E : Texts) (db : Db) (registry : Option Registry) (now uuid : String) (s : LiveStore)
    (request : CandidateRequest) : Intake (CandidateResult × LiveStore) := do
  let r ← checkedCandidate request
  let requestSha := requestSha256 E.sha r
  match ← candidateIdempotencyResult s r.idempotencyKey requestSha with
  | some replayed => return (replayed,s)
  | none => do
    let validationTaskId := r.taskId <|> (predecessor s r).bind (·.record.taskId)
    let bound ← throughIntake (boundRegistry E db registry r.catalogValidation validationTaskId)
    let candidateId ← throughIntake (selectedCandidateId E s r)
    let eventId ← throughIntake (candidateEventId E r.idempotencyKey requestSha)
    match liveRegisterRecord E bound now uuid s (observationRequest E now candidateId eventId r) with
    | .error (.state message) => do
      match ← candidateIdempotencyResult s r.idempotencyKey requestSha with
      | some replayed => return (replayed,s)
      | none => refuse "candidate-record-invalid" message
    | .error error => .error (.bureau error)
    | .ok (recorded,s') => do
      let replayed ← if recorded.idempotentReplay then candidateIdempotencyResult s' r.idempotencyKey requestSha
        else .ok none
      return (replayed.getD ⟨false,candidateIdentity ⟨recorded.eventId,recorded.createdAt,recorded.record⟩,
        recorded.eventId,recorded.eventId,some eventId,some (candidateSource E r),some (candidateContent E r),
        recorded.createdAt,requestSha,recorded.record⟩,s')

/-! `candidate_close`. -/

structure CloseEvidence where
  source : String
  reference : String
  sha256 : String
  deriving DecidableEq

structure CloseRequest where
  idempotencyKey : String
  candidateId : String
  expectedEventId : ℕ
  outcome : String := "completed"
  evidence : List CloseEvidence
  note : Option String := none

def evidenceSources : List String :=
  ["receipt","test","git","github","runtime","bureau","workspace","job","user"]

def maxCandidateCloseEvidence : ℕ := 16

def CloseEvidence.toJson (e : CloseEvidence) : Json :=
  .obj [("reference",.str e.reference),("sha256",.str e.sha256),("source",.str e.source)]

def checkedEvidence (index : ℕ) (item : CloseEvidence) : Intake CloseEvidence := do
  let at_ := "evidence[" ++ toString index ++ "]"
  let source ← requiredText item.source (at_ ++ ".source") 32
  require (evidenceSources.contains source)
    (.intake ⟨"candidate-close-evidence-source-unsupported",at_ ++ ".source is unsupported"⟩)
  let reference ← requiredText item.reference (at_ ++ ".reference") 2048
  let digest ← requiredText item.sha256 (at_ ++ ".sha256") 64
  require (validDigest digest) (.intake ⟨"candidate-close-evidence-digest-invalid",
    at_ ++ ".sha256 must be a lowercase SHA-256 digest"⟩)
  return ⟨source,reference,digest⟩

def normalizedEntries (seen : List CloseEvidence) (index : ℕ) : List CloseEvidence → Intake (List CloseEvidence)
  | [] => return seen
  | item :: rest => do
    let entry ← checkedEvidence index item
    require (!seen.contains entry) (.intake ⟨"candidate-close-evidence-duplicate",
      "evidence[" ++ toString index ++ "] duplicates an earlier entry"⟩)
    normalizedEntries (seen ++ [entry]) (index+1) rest

def normalizeCandidateCloseEvidence (evidence : List CloseEvidence) : Intake (List CloseEvidence) := do
  require (!evidence.isEmpty && evidence.length ≤ maxCandidateCloseEvidence)
    (.intake ⟨"candidate-close-evidence-invalid","evidence must contain 1..16 entries"⟩)
  let normalized ← normalizedEntries [] 0 evidence
  return normalized.insertionSort fun a b => a.toJson.canonicalJson ≤ b.toJson.canonicalJson

def checkedClose (request : CloseRequest) : Intake CloseRequest := do
  let key ← checkedKey request.idempotencyKey
  let identity ← requiredText request.candidateId "candidate_id" 120
  let _ ← checkedSupersedesEventId (some request.expectedEventId)
  require (request.outcome = "completed")
    (.intake ⟨"candidate-close-outcome-invalid","candidate close outcome must be completed"⟩)
  let evidence ← normalizeCandidateCloseEvidence request.evidence
  let note ← presentText request.note "note" 2000
  return { request with
    idempotencyKey := key
    candidateId := identity
    evidence := evidence
    note := note }

def evidenceJson (evidence : List CloseEvidence) : Json := .arr (evidence.map CloseEvidence.toJson)

def closeRequestSha256 (sha : Sha) (r : CloseRequest) : String :=
  sha256Json sha (.obj [("candidate_id",.str r.candidateId),("evidence",evidenceJson r.evidence),
    ("expected_event_id",natJson r.expectedEventId),("idempotency_key",.str r.idempotencyKey),("note",nullable r.note),
    ("operation",.str "close"),("outcome",.str "completed"),("schema_version",.num 1)])

def closeoutMaterial (sha : Sha) (now : String) (r : CloseRequest) : Json :=
  .obj [("candidate_id",.str r.candidateId),("closed_at",.str now),
    ("does_not_establish",.arr (["registry_task_truth","queue_truth"].map Json.str ++ authorityNonclaims ++
      [.str "system_convergence"])),
    ("evidence",evidenceJson r.evidence),("evidence_sha256",.str (sha256Json sha (evidenceJson r.evidence))),
    ("idempotency_key",.str r.idempotencyKey),("kind",.str "bureau_candidate_closeout"),("outcome",.str "completed"),
    ("predecessor_event_id",natJson r.expectedEventId),("request_sha256",.str (closeRequestSha256 sha r)),
    ("schema_version",.num 1)]

def closeout (sha : Sha) (now : String) (r : CloseRequest) : Json :=
  (closeoutMaterial sha now r).set "closeout_sha256" (.str (sha256Json sha (closeoutMaterial sha now r)))

/-- The answer of `candidate_close`. -/
structure CloseResult where
  idempotentReplay : Bool
  candidateId : String
  eventId : ℕ
  requestSha256 : String
  closeoutSha256 : Option Json
  record : LiveRecord
  deriving DecidableEq

def candidateCloseReplay (event : LiveEvent) (candidateId key requestSha256 : String) : Option CloseResult :=
  (((operatorContext event.record).get? "candidate_closeout").filter fun closeout => closeout.isObj &&
    closeout.get? "idempotency_key" = some (.str key) && closeout.get? "request_sha256" = some (.str requestSha256) &&
    event.record.status = some .closed).map fun closeout =>
      ⟨true,candidateId,event.eventId,requestSha256,closeout.get? "closeout_sha256",event.record⟩

/-- The arguments `candidate_close` calls `live_register_record` with. -/
def closingRequest (sha : Sha) (now : String) (record : LiveRecord) (r : CloseRequest) : LiveRequest where
  kind := .candidateTask
  title := if record.title = "" then r.candidateId else record.title
  source := if record.source = "" then "operator-intake" else record.source
  repo := record.repo
  taskId := record.taskId
  candidateId := some r.candidateId
  supersedesEventId := some r.expectedEventId
  status := some .closed
  promotionRequired := some false
  note := some (r.note.getD "Completed with evidence-bound candidate closeout.")
  catalogValidation := record.catalogValidation
  operatorContext := some ((operatorContext record).set "candidate_closeout" (closeout sha now r))

def closeRegistry (E : Texts) (db : Db) (registry : Option Registry) (record : LiveRecord) :
    Intake (Option Registry) := do
  require (record.catalogValidation = .deferred || registry.isSome)
    (.intake ⟨"candidate-close-registry-required","strict candidate close requires a Registry snapshot"⟩)
  throughIntake (boundRegistry E db registry record.catalogValidation record.taskId)

/-- A close that could not be recorded is answered from the record that is current now. -/
def closeConflict (s : LiveStore) (r : CloseRequest) (requestSha256 message : String) :
    Intake (CloseResult × LiveStore) :=
  match (currentCandidateRecord s r.candidateId).toOption.bind fun latest =>
      candidateCloseReplay latest r.candidateId r.idempotencyKey requestSha256 with
  | some replayed => return (replayed,s)
  | none => refuse "candidate-close-conflict" message

def candidateClose (E : Texts) (db : Db) (registry : Option Registry) (now uuid : String) (s : LiveStore)
    (request : CloseRequest) : Intake (CloseResult × LiveStore) := do
  let r ← checkedClose request
  let requestSha := closeRequestSha256 E.sha r
  match currentCandidateRecord s r.candidateId with
  | .error (.state message) => refuse "candidate-close-target-invalid" message
  | .error error => .error (.bureau error)
  | .ok current =>
    match candidateCloseReplay current r.candidateId r.idempotencyKey requestSha with
    | some replayed => return (replayed,s)
    | none => do
      require (current.record.status.any (· ∈ activeLiveStatuses)) (.intake ⟨"candidate-close-not-active",
        "only a current active or observed candidate can be closed"⟩)
      require (current.eventId = r.expectedEventId) (.intake ⟨"candidate-close-stale",
        "expected_event_id does not match the current candidate event"⟩)
      let bound ← closeRegistry E db registry current.record
      match liveRegisterRecord E bound now uuid s (closingRequest E.sha now current.record r) with
      | .error (.state message) => closeConflict s r requestSha message
      | .error error => .error (.bureau error)
      | .ok (closed,s') => return (⟨false,r.candidateId,closed.eventId,requestSha,
          some (.str (sha256Json E.sha (closeoutMaterial E.sha now r))),closed.record⟩,s')

end LiveRegister

end Bureau
