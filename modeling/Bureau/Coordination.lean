import Bureau.Claims

/-!
Coordinated claims: an issued intent, its commit under compare-and-swap checks, and the
resumption of a run that was orphaned automatically.
-/

namespace Bureau

open Transactions

def decimalDigit (c : Char) : Bool := '0' ≤ c && c ≤ '9'

def hexDigit (c : Char) : Bool := decimalDigit c || ('a' ≤ c && c ≤ 'f')

/-- `BUR-RUN-[0-9]{8}T[0-9]{6}Z-[0-9a-f]{10}`. -/
def validRunId (runId : String) : Bool :=
  let text := runId.toList
  text.length = 35 && text.take 8 = "BUR-RUN-".toList &&
    ((text.drop 8).take 8).all decimalDigit && (text.drop 16).take 1 = ['T'] &&
    ((text.drop 17).take 6).all decimalDigit && (text.drop 23).take 2 = ['Z','-'] &&
    (text.drop 25).all hexDigit

def intentFields : List String :=
  ["capabilities","created_at","does_not_establish","expires_at_unix","intent_sha256","kind",
    "lease_owner_id","operator_approval","plan_sha256","required_resource_keys","resource","run_id",
    "runtime_truth_sha256","schema_version","task_id","task_sha256","worker_id","workspace"]

def intentSchemaVersion : Int := 1

/-- `_validate_coordinated_claim_intent`. -/
def validateClaimIntent (sha : Sha) (intent : Json) : Result Unit := do
  require (intent.hasExactly intentFields) (.state "coordinated claim intent fields are not exact")
  require (intent.get? "schema_version" = some (.num intentSchemaVersion))
    (.state "unsupported coordinated claim intent schema")
  require (intent.getStr? "intent_sha256" = some (sha256Json sha (intent.pop "intent_sha256")))
    (.state "coordinated claim intent digest mismatch")
  require ((intent.getStr? "run_id").any validRunId) (.state "coordinated claim intent run id is invalid")
  require (sortedSet (intent.getStrings "required_resource_keys") = intent.getStrings "required_resource_keys")
    (.state "coordinated claim resource keys are not canonical")
  require (sortedSet (intent.getStrings "capabilities") = intent.getStrings "capabilities")
    (.state "coordinated claim capabilities are not canonical")
  require ((intent.get? "expires_at_unix").bind Json.int?).isSome (.state "coordinated claim expiry is invalid")
  require ((intent.get? "operator_approval").any Json.isObj) (.state "coordinated claim approval is invalid")
  require ((intent.get? "does_not_establish").bind Json.arr?).isSome
    (.state "coordinated claim nonclaims are invalid")

def text (document : Json) (key : String) : String :=
  (document.getStr? key).getD ""

def absent (document : Json) (key : String) : Bool :=
  ((document.get? key).getD .null) = .null

def contractFields : List String :=
  ["attempt","expected_task_revision","expected_task_spec_sha256","expected_task_state","idempotency_key",
    "request_sha256","schema_version"]

def contractSchemaVersion : Int := 1

def idempotencyMaxLength : ℕ := 512

def validIdempotencyKey (key : String) : Bool :=
  key ≠ "" && key.length ≤ idempotencyMaxLength

/-- `_validate_coordinated_claim_mutation_contract`. -/
def validateMutationContract (contract : Json) : Result Unit := do
  require (contract.hasExactly contractFields) (.state "coordinated claim mutation contract fields are not exact")
  require (contract.get? "schema_version" = some (.num contractSchemaVersion))
    (.state "unsupported coordinated claim mutation contract schema")
  require ((contract.getStr? "idempotency_key").any validIdempotencyKey)
    (.state "coordinated claim idempotency key is invalid")
  require ((contract.getStr? "request_sha256").any validDigest)
    (.state "coordinated claim request digest is invalid")
  require (absent contract "expected_task_revision" ||
      ((contract.get? "expected_task_revision").bind Json.int?).any (1 ≤ ·))
    (.state "coordinated claim expected task revision is invalid")
  require ((contract.getStr? "expected_task_spec_sha256").any validDigest)
    (.state "coordinated claim expected TaskSpec digest is invalid")
  require ((nonEmptyStr? contract "expected_task_state").isSome)
    (.state "coordinated claim expected task state is invalid")
  require (((contract.get? "attempt").bind Json.int?).any (1 ≤ ·))
    (.state "coordinated claim expected attempt is invalid")

/-- `_coordinated_claim_issuance`; a mutation contract makes it version 2. -/
def claimIssuance (sha : Sha) (intent : Json) (actionClass : String) (contract : Option Json) : Json :=
  let approval := (intent.get? "operator_approval").getD .null
  let base : List (String × Json) :=
    [("action_class",.str actionClass),("approval_level",(approval.get? "level").getD .null),
      ("approval_sha256",.str (sha256Json sha approval)),
      ("expires_at_unix",(intent.get? "expires_at_unix").getD .null)]
  let identity : List (String × Json) :=
    [("reviewer",(approval.get? "reviewer").getD .null),("run_id",.str (text intent "run_id"))]
  let tail : List (String × Json) :=
    [("task_id",.str (text intent "task_id")),("worker_id",.str (text intent "worker_id"))]
  let digest : String × Json := ("intent_sha256",.str (text intent "intent_sha256"))
  match contract with
  | none => .obj (base ++ [digest] ++ identity ++ [("schema_version",.num 1)] ++ tail)
  | some contract =>
    .obj (base ++ [("intent",intent),digest,("mutation_contract",contract)] ++ identity ++
      [("schema_version",.num 2)] ++ tail)

def issuanceTextFields : List String :=
  ["action_class","approval_level","approval_sha256","intent_sha256","reviewer","run_id","task_id","worker_id"]

def issuanceFields : List String :=
  ["action_class","approval_level","approval_sha256","expires_at_unix","intent_sha256","reviewer","run_id",
    "schema_version","task_id","worker_id"]

def contractIssuanceFields : List String :=
  ["action_class","approval_level","approval_sha256","expires_at_unix","intent","intent_sha256","mutation_contract",
    "reviewer","run_id","schema_version","task_id","worker_id"]

/-- `_validated_coordinated_claim_issuance`. -/
def validateIssuance (sha : Sha) (issuance : Json) : Result Unit := do
  require issuance.isObj (.state "coordinated claim issuance must be an object")
  let first := issuance.get? "schema_version" = some (.num 1)
  let second := issuance.get? "schema_version" = some (.num 2)
  require (first || second) (.state "coordinated claim issuance schema is invalid")
  require (issuance.hasExactly (if first then issuanceFields else contractIssuanceFields))
    (.state "coordinated claim issuance fields are not exact")
  require (issuanceTextFields.all fun field => (nonEmptyStr? issuance field).isSome)
    (.state "coordinated claim issuance identity is incomplete")
  require ((issuance.get? "expires_at_unix").bind Json.int?).isSome
    (.state "coordinated claim issuance expiry is invalid")
  if second then
    let contract := (issuance.get? "mutation_contract").getD .null
    let intent := (issuance.get? "intent").getD .null
    validateMutationContract contract
    validateClaimIntent sha intent
    require (issuance = claimIssuance sha intent (text issuance "action_class") (some contract))
      (.state "coordinated claim issuance binding is invalid")
  else return ()

namespace Db

def issuances (db : Db) : List (Option String × Json) :=
  db.events.filterMap fun e =>
    match e.eventType, e.payload with
    | .claimIntentIssued, .plain document => some (e.runId,document)
    | _, _ => none

def contractKey (issuance : Json) : Option String :=
  (issuance.get? "mutation_contract").bind (·.getStr? "idempotency_key")

/-- The issuances under one idempotency key, every record of the journal checked on the way. -/
def issuancesByKey (sha : Sha) (db : Db) (key : String) : Result (List Json) := do
  let _ ← collect (validateIssuance sha) (db.issuances.map Prod.snd)
  return (db.issuances.map Prod.snd).filter fun issuance => contractKey issuance = some key

/-- `StateStore.claim_intent_issuance_by_idempotency_key`. -/
def claimIntentIssuanceByKey (sha : Sha) (db : Db) (key : String) : Result (Option Json) := do
  require (validIdempotencyKey key) (.state "coordinated claim idempotency key is invalid")
  match ← db.issuancesByKey sha key with
  | _ :: _ :: _ => stateError "coordinated claim idempotency key has multiple issuance records"
  | [issuance] => return some issuance
  | [] => return none

/-- `StateStore.issue_claim_intent`: one issuance per idempotency key and per run. -/
def issueClaimIntent (sha : Sha) (db : Db) (intent : Json) (actionClass : String) (contract : Option Json) :
    Result (Json × Db) := do
  let approval := (intent.get? "operator_approval").getD .null
  require ((approval.get? "reviewer").isSome && (approval.get? "level").isSome) (.state "KeyError: reviewer")
  let _ ← collect validateMutationContract contract.toList
  let runId := text intent "run_id"
  let issuance := claimIssuance sha intent actionClass contract
  let keyed ← collect (fun key => db.issuancesByKey sha key) (contractKey issuance).toList
  match keyed.flatten with
  | _ :: _ :: _ => stateError "coordinated claim idempotency key has multiple issuance records"
  | [existing] =>
    require ((existing.get? "mutation_contract").bind (·.get? "request_sha256") =
        (issuance.get? "mutation_contract").bind (·.get? "request_sha256"))
      (.state "coordinated claim idempotency key is bound to another mutation")
    return (existing,db)
  | [] =>
    match (db.issuances.filter fun item => item.1 = some runId).map Prod.snd with
    | _ :: _ :: _ => stateError "coordinated claim intent has multiple issuance records"
    | [existing] =>
      validateIssuance sha existing
      require (existing = issuance) (.state "coordinated claim run id already has another issuance")
      return (existing,db)
    | [] => return (issuance,← db.runEvent sha .claimIntentIssued issuance runId)

def claimIntentIssuance (sha : Sha) (db : Db) (runId : String) : Result Json :=
  match (db.issuances.filter fun item => item.1 = some runId).map Prod.snd with
  | [issuance] => do
    validateIssuance sha issuance
    return issuance
  | _ => stateError "coordinated claim intent has no unique issuance record"

end Db

namespace Dispatcher

/-- What a commit or a resumption observes besides its claim call: the decision of the approval
checks, the lease keys the task needs, the planned workspace and the validated lease. -/
structure CoordinatedCall where
  claim : ClaimCall
  runtimeBlocked : Bool
  approval : Result Json
  openPrEvidence : Result Unit
  requiredKeys : List String
  workspace : Result Json
  lease : Result Json

/-- The compare-and-swap of the mutation contract issued with the intent, where there is one. -/
def checkMutationContract (sha : Sha) (db : Db) (task : Task) (state : TaskState) (attempt : ℕ) :
    Option Json → Result Unit
  | none => .ok ()
  | some contract => do
    let current ← TaskSpecs.getCurrent sha db task.id
    let expectedRevision := ((contract.get? "expected_task_revision").bind Json.int?)
    require (current.map (fun c => (c.revision : Int)) = expectedRevision)
      (.state "coordinated claim stale TaskSpec revision CAS")
    require (contract.getStr? "expected_task_spec_sha256" =
        some ((current.map (·.specSha256)).getD (TaskSpecs.taskSpecDigest sha task.raw)))
      (.state "coordinated claim stale TaskSpec digest CAS")
    require (contract.getStr? "expected_task_state" = some state.text)
      (.state "coordinated claim stale prior-state CAS")
    require (contract.get? "attempt" = some (natJson attempt)) (.state "coordinated claim stale attempt CAS")

/-- The reasons that remain once the review of the execution policy is given. -/
def reviewedReasons (task : Task) (reasons : List Reason) : List Reason :=
  reasons.filter fun reason => reason ≠ .execution task.mode task.policy

/-- The checks of `commit_claim_intent` before its transaction. -/
def preflightCommit (E : Env) (d : Dispatcher) (call : CoordinatedCall) (intent : Json) (db : Db) :
    Result (Task × Option Json × Json) := do
  require (((intent.get? "expires_at_unix").bind Json.int?).any fun expires => (call.claim.now : Int) < expires)
    (.state "coordinated claim intent expired")
  let issuance ← db.claimIntentIssuance E.sha (text intent "run_id")
  let contract := if issuance.get? "schema_version" = some (.num 2) then issuance.get? "mutation_contract" else none
  require (issuance = claimIssuance E.sha intent (text issuance "action_class") contract)
    (.state "coordinated claim intent differs from issued identity")
  require (!call.runtimeBlocked) (.state "runtime-drift-blocked")
  require (intent.getStr? "runtime_truth_sha256" = some (sha256Json E.sha call.claim.runtimeTruth))
    (.state "runtime truth changed after claim intent")
  let task ← orRaise d.registry.tasks[text intent "task_id"]? (.state "coordinated claim task no longer exists")
  require (text issuance "action_class" = taskActionClass task.raw)
    (.state "coordinated claim issued action class differs from task")
  let approval ← call.approval
  require (call.requiredKeys = intent.getStrings "required_resource_keys")
    (.state "coordinated claim resources changed after intent")
  call.openPrEvidence
  require (intent.getStr? "task_sha256" = some task.sha256) (.state "coordinated claim task changed after intent")
  require (text intent "worker_id" ≠ "" && (text intent "worker_id").length ≤ 200)
    (.state "worker_id must contain 1-200 characters")
  return (task,contract,approval)

/-- `_existing_coordinated_claim_result`: the run of another intent is a collision. -/
def existingClaim (intent : Json) (runId : String) (row : RunRow) : Result ClaimOutcome := do
  let stored := (row.envelope.get? "claim_intent").filter Json.isObj
  require (stored.any fun stored => stored.get? "intent_sha256" = intent.get? "intent_sha256")
    (.state "coordinated claim run id collision")
  return .existing runId

/-- The transaction of `commit_claim_intent`; a run that exists already is read back. -/
def commitClaimIntent (E : Env) (d : Dispatcher) (call : CoordinatedCall) (intent : Json) (db : Db) :
    Result (ClaimOutcome × Db) := do
  validateClaimIntent E.sha intent
  let runId := text intent "run_id"
  let workerId := text intent "worker_id"
  match db.runs[runId]? with
  | some row => return (← existingClaim intent runId row,db)
  | none =>
    let (task,contract,approval) ← d.preflightCommit E call intent db
    require (db.activeRuns.all fun item => item.2.workerId ≠ workerId)
      (.state "worker acquired another assignment after intent")
    let capabilities := intent.getStrings "capabilities"
    let ctx ← d.claimContext E call.claim db capabilities
    let initiative ← orRaise ctx.initiatives[task.initiative]? (.state ("KeyError: " ++ task.initiative))
    let plan := initiative.planSha256 E.sha
    require (intent.getStr? "plan_sha256" = some plan) (.state "coordinated claim plan changed after intent")
    let workspace ← call.workspace
    require (intent.get? "workspace" = some workspace) (.state "coordinated claim workspace changed after intent")
    let attempt := db.nextAttempt task.id
    checkMutationContract E.sha db task (effectiveState ctx.overlay task.id task) attempt contract
    let reasons ← d.reasons E db call.claim.observed ctx task
    require (reviewedReasons task reasons).isEmpty
      (.state ("coordinated claim eligibility changed: " ++
        (Json.arr ((reviewedReasons task reasons).map fun r => .str r.text)).canonicalJson))
    let lease ← call.lease
    let baseline := if workspace.isObj then (workspace.get? "baseline_commit").getD .null
      else (task.execution.get? "baseline_commit").getD .null
    let envelope := (((executionEnvelope E call.claim.now runId workerId task plan initiative baseline
      call.claim.runtimeTruth).set "claim_intent" intent).set "lease_binding" lease).set "operator_approval" approval
    let row := assignedRun E.sha call.claim.now runId workerId task plan attempt envelope
    let db := { db with
      workers := db.workers.insert workerId ⟨text intent "kind",capabilities,call.claim.now⟩ }
    let db ← writeClaim E db call.claim.now runId task row .runClaimedCoordinated
      (.obj [("intent_sha256",.str (text intent "intent_sha256")),
        ("lease_binding_sha256",(lease.get? "lease_binding_sha256").getD .null),("task_id",.str task.id)])
    return (.claimed runId,db)

/-- What the caller of a resumption says the run looks like. -/
structure ResumeRequest where
  runId : String
  workerId : String
  expectedUpdatedAt : Time
  expectedTaskSha256 : String
  expectedPlanSha256 : String
  expectedEnvelopeSha256 : String
  deriving DecidableEq

/-- The run a resumption is limited to: the named snapshot of an automatically orphaned run without
an executor and without reservations. -/
def resumableRow (db : Db) (request : ResumeRequest) (row : RunRow) : Result Unit := do
  require (row.workerId = request.workerId && row.updatedAt = request.expectedUpdatedAt &&
      row.taskSha256 = request.expectedTaskSha256 && row.planSha256 = request.expectedPlanSha256 &&
      row.envelopeSha256 = request.expectedEnvelopeSha256)
    (.state "orphan resume run snapshot drift")
  require (row.state = .orphaned && row.error = some orphanedStaleWorkerError)
    (.state "orphan resume is limited to automatically orphaned stale workers")
  require (row.externalSystem.isNone && row.externalId.isNone && row.externalState.isNone &&
      row.externalObservedAt.isNone)
    (.state "orphan resume rejects externally bound runs")
  require (db.heldBy request.runId).isEmpty (.state "orphan resume requires released run reservations")
  require (db.activeRuns.all fun item => item.2.workerId ≠ request.workerId)
    (.state "orphan resume worker already owns an active run")

/-- The envelope of the run and its claim intent name the run itself. -/
def resumableEnvelope (E : Env) (runId : String) (row : RunRow) : Result Json := do
  require row.envelope.isObj (.state "orphan resume envelope must be an object")
  require (sha256Json E.sha row.envelope = row.envelopeSha256) (.state "orphan resume envelope digest mismatch")
  requireNone (E.schemaError "execution-envelope" row.envelope)
  let identity := [("run_id",runId),("task_id",row.taskId),("worker_id",row.workerId),
    ("task_sha256",row.taskSha256),("plan_sha256",row.planSha256)]
  requireAll (fun item : String × String => row.envelope.getStr? item.1 = some item.2)
    (fun item => "orphan resume envelope " ++ item.1 ++ " mismatch") identity
  let intent ← orRaise ((row.envelope.get? "claim_intent").filter Json.isObj)
    (.state "orphan resume requires a coordinated claim intent")
  require (identity.all fun item => intent.getStr? item.1 = some item.2)
    (.state "orphan resume claim intent identity mismatch")
  return intent

def resumableWorkspace (db : Db) (runId : String) (row : RunRow) (workspace : Option Json)
    (worktreeUnchanged : Bool) : Result Unit :=
  match workspace.filter Json.isObj with
  | some workspace =>
    if row.workspacePath.isSome ∨ row.workspaceBranch.isSome then do
      let record ← orRaise db.workspaces[runId]? (.state "orphan resume workspace record is missing")
      require (workspace.getStr? "repository" = some record.repositoryPath &&
          workspace.getStr? "workspace_path" = some record.workspacePath &&
          workspace.getStr? "workspace_branch" = some record.branch &&
          workspace.getStr? "baseline_commit" = some record.baselineCommit)
        (.state "orphan resume workspace record drift")
      require (record.state = "active") (.state "orphan resume requires an active workspace record")
      require (row.workspacePath = workspace.getStr? "workspace_path" &&
          row.workspaceBranch = workspace.getStr? "workspace_branch")
        (.state "orphan resume workspace binding drift")
      require worktreeUnchanged (.state "orphan resume workspace is missing")
    else require (!db.workspaces.contains runId) (.state "orphan resume has unexpected workspace record")
  | none => do
    require (row.workspacePath.isNone && row.workspaceBranch.isNone)
      (.state "orphan resume has unexpected workspace state")
    require (!db.workspaces.contains runId) (.state "orphan resume has unexpected workspace record")

/-- `resume_orphaned_run`: the run becomes assigned again with the claims of its current task. -/
def resumeOrphanedRun (E : Env) (d : Dispatcher) (call : CoordinatedCall) (worktreeUnchanged : Bool)
    (request : ResumeRequest) (db : Db) : Result Db := do
  let runId := request.runId
  require (runId ≠ "" && request.workerId ≠ "") (.state "orphan resume requires run and worker identity")
  requireEach "orphan resume" validDigest [("task_sha256",request.expectedTaskSha256),
    ("plan_sha256",request.expectedPlanSha256),("envelope_sha256",request.expectedEnvelopeSha256)]
  require (!call.runtimeBlocked) (.state "runtime-drift-blocked")
  let row ← orRaise db.runs[runId]? (.state ("unknown run " ++ runId))
  resumableRow db request row
  let intent ← resumableEnvelope E runId row
  let (fresh,_,_) ← authoritativeTaskRegistry E.sha call.claim.files db
  let task ← orRaise (fresh.tasks[row.taskId]?.filter fun task => task.sha256 = row.taskSha256)
    (.state "orphan resume current TaskSpec differs from run")
  let plan ← planSha256 E.sha fresh task.initiative
  require (plan = row.planSha256) (.state "orphan resume current plan differs from run")
  resumableWorkspace db runId row (intent.get? "workspace") worktreeUnchanged
  let overlay ← overlays E d.registry db
  let ctx : ClaimContext :=
    ⟨intent.getStrings "capabilities",db.activeRuns,db.reservationList none,overlay,fresh.initiatives⟩
  let reasons ← d.reasons E db call.claim.observed ctx task
  require (reviewedReasons task reasons).isEmpty
    (.state ("orphan resume eligibility changed: " ++
      (Json.arr ((reviewedReasons task reasons).map fun r => .str r.text)).canonicalJson))
  require (call.requiredKeys = intent.getStrings "required_resource_keys")
    (.state "orphan resume resource scope changed")
  let lease ← call.lease
  let now := call.claim.now
  let row := { row with state := .assigned, error := none, heartbeatAt := now, updatedAt := now }
  db.activeUnique runId row
  let db ← Db.insertReservations runId now task.claims (db.setRun runId row)
  let db := db.touchWorker now request.workerId
  let db ← db.runEvent E.sha .runOrphanResumed
    (.obj [("envelope_sha256",.str row.envelopeSha256),
      ("lease_binding_sha256",(lease.get? "lease_binding_sha256").getD .null),
      ("plan_sha256",.str row.planSha256),("task_sha256",.str row.taskSha256),
      ("worker_id",.str request.workerId)]) runId
  db.runEvent E.sha .runHeartbeat
    (.obj [("observed_at",natJson now),("source",.str "orphan-resume")]) runId

end Dispatcher

end Bureau
