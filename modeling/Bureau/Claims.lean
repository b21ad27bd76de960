import Bureau.Runs

/-!
The transactions that give a run its reservations: the direct claim, the commit of a
coordinated claim intent, the expansion of a claim and the resumption of an orphaned run.
-/

namespace Bureau

open Transactions

namespace Db

/-- The partial unique indexes over active runs, for a row about to become active. -/
def activeUnique (db : Db) (runId : String) (row : RunRow) : Result Unit := do
  require (db.activeRuns.all fun item => item.1 = runId || item.2.taskId ≠ row.taskId)
    (.integrity "UNIQUE constraint failed: runs.task_id")
  require (db.activeRuns.all fun item => item.1 = runId || item.2.workerId ≠ row.workerId)
    (.integrity "UNIQUE constraint failed: runs.worker_id")

/-- `INSERT INTO runs` with the constraints of the table. -/
def insertRun (db : Db) (runId : String) (row : RunRow) : Result Db := do
  require (!db.runs.contains runId) (.integrity "UNIQUE constraint failed: runs.run_id")
  require (row.dispatchRequestId.isNone ||
      db.runs.toList.all fun item => item.2.dispatchRequestId ≠ row.dispatchRequestId)
    (.integrity "UNIQUE constraint failed: runs.dispatch_request_id")
  db.activeUnique runId row
  require (db.workers.contains row.workerId) (.integrity "FOREIGN KEY constraint failed")
  return db.setRun runId row

/-- `INSERT INTO reservations`; a run holds a resource once. -/
def insertReservation (db : Db) (runId : String) (now : Time) (claim : Claim) : Result Db := do
  require (!(db.heldBy runId).contains claim.resource)
    (.integrity "UNIQUE constraint failed: reservations.run_id, reservations.resource_id")
  return { db with
    reservations := db.reservations.insert runId
      ((db.heldBy runId).insert claim.resource ⟨claim.mode,claim.amount,now,claim.claimable⟩) }

def insertReservations (runId : String) (now : Time) : List Claim → Db → Result Db
  | [], db => .ok db
  | claim :: rest, db => do
    let db ← db.insertReservation runId now claim
    insertReservations runId now rest db

def nextAttempt (db : Db) (taskId : String) : ℕ :=
  Tables.count (fun row : RunRow => row.taskId = taskId) db.runs + 1

end Db

def pathName (path : String) : String :=
  ((pathParts path).getLast?).getD ""

def workspaceBaselineForTask (task : Task) (initiative : Initiative) : Json :=
  match (task.execution.get? "baseline_commit").filter (· ≠ .null), initiative.currentPlan with
  | some baseline, _ => baseline
  | none, some plan =>
    match nonEmptyStr? task.execution "working_repository" with
    | some working =>
      if plan.getStr? "repository" = some (pathName working) then (plan.get? "commit").getD .null else .null
    | none => .null
  | none, none => .null

def executionEnvelope (E : Env) (now : Time) (runId workerId : String) (task : Task) (plan : String)
    (initiative : Initiative) (baseline runtimeTruth : Json) : Json :=
  let base : Json := .obj [("baseline_commit",baseline),("claims",.arr (task.claims.map Claim.asDict)),
    ("created_at",natJson now),("plan",initiative.currentPlan.getD .null),("plan_sha256",.str plan),
    ("rlens_context_policy",E.rlensContextPolicy task.raw),("run_id",.str runId),
    ("runtime_truth",runtimeTruth),("schema_version",.num 1),("task",task.raw),("task_id",.str task.id),
    ("task_sha256",.str task.sha256),("worker_id",.str workerId)]
  let base := ((E.coordinationScope task.raw).map (base.set "coordination_scope")).getD base
  ((E.rlensContextRef task.raw).map (base.set "rlens_context_ref")).getD base

def assignedRun (sha : Sha) (now : Time) (runId workerId : String) (task : Task) (plan : String)
    (attempt : ℕ) (envelope : Json) : RunRow where
  taskId := task.id
  workerId := workerId
  attempt := attempt
  state := .assigned
  taskSha256 := task.sha256
  planSha256 := plan
  envelope := envelope
  envelopeSha256 := sha256Json sha envelope
  dispatchRequestId := some (runId ++ ":dispatch-1")
  externalSystem := none
  externalId := none
  externalState := none
  externalObservedAt := none
  workspacePath := none
  workspaceBranch := none
  error := none
  createdAt := now
  updatedAt := now
  heartbeatAt := now

namespace Dispatcher

def laneOrder : String → ℕ
  | "now" => 0
  | "next" => 1
  | "later" => 2
  | _ => 3

/-- The order of `_ordered_tasks`: lane, rank, id. -/
def before (a b : Task) : Bool :=
  if laneOrder a.lane = laneOrder b.lane then
    if a.rank = b.rank then a.id ≤ b.id else a.rank < b.rank
  else laneOrder a.lane < laneOrder b.lane

def orderedTasks (d : Dispatcher) : List Task :=
  (d.registry.tasks.toList.map Prod.snd).insertionSort fun a b => before a b = true

def taskMatchesResource (d : Dispatcher) (task : Task) (resource : Option String) : Bool :=
  resource.all fun resource =>
    task.claims.any fun claim => overlaps claim.resource resource d.registry.resources

def runMatchesResource (d : Dispatcher) (row : RunRow) (resource : Option String) : Bool :=
  (d.registry.tasks[row.taskId]?).any fun task => d.taskMatchesResource task resource

/-- The loop over the candidates: the first one without a reason, with the rejected ones. In strict
order a ready task that is blocked ends the loop. -/
def selectTask (E : Env) (d : Dispatcher) (db : Db) (observed : Observed) (ctx : ClaimContext)
    (resource : Option String) : List Task → List (String × List String) → Result Task
  | [], rejected => .error (.noEligibleTask rejected)
  | task :: rest, rejected =>
    if d.taskMatchesResource task resource then do
      let reasons ← d.reasons E db observed ctx task
      if reasons.isEmpty then return task
      else
        let rejected := rejected ++ [(task.id,reasons.map Reason.text)]
        if d.registry.queuePolicy = "strict" ∧ task.state = .ready then .error (.noEligibleTask rejected)
        else d.selectTask E db observed ctx resource rest rejected
    else d.selectTask E db observed ctx resource rest rejected

/-- What a claim reads besides the database and its dispatcher: the registry files as they are now,
what it observes outside, the clock and the run id it draws. -/
structure ClaimCall where
  files : Registry
  observed : Observed
  now : Time
  runId : String
  runtimeTruth : Json

inductive ClaimOutcome where
  | existing (runId : String)
  | claimed (runId : String)
  deriving DecidableEq

/-- The context `reasons` is evaluated in inside a claim transaction. -/
def claimContext (E : Env) (d : Dispatcher) (call : ClaimCall) (db : Db) (capabilities : List String) :
    Result ClaimContext := do
  let overlay ← overlays E d.registry db
  let fresh ← stateStoreInitiativeRegistry call.files db
  return ⟨capabilities,db.activeRuns,db.reservationList none,overlay,fresh.initiatives⟩

/-- The run of a selected task with its reservations and its event. -/
def writeClaim (E : Env) (db : Db) (now : Time) (runId : String) (task : Task) (row : RunRow)
    (eventType : EventType) (payload : Json) : Result Db := do
  requireNone (E.schemaError "execution-envelope" row.envelope)
  let db ← db.insertRun runId row
  let db ← Db.insertReservations runId now task.claims db
  db.runEvent E.sha eventType payload runId

/-- The transaction of `claim_next`, after the worker is registered. -/
def claimNext (E : Env) (d : Dispatcher) (call : ClaimCall) (workerId : String)
    (resource : Option String) (db : Db) : Result (ClaimOutcome × Db) := do
  require (resource.all fun r => d.registry.resources.contains r)
    (.state ("unknown resource filter: " ++ resource.getD ""))
  let current := db.activeRuns.filter fun item => item.2.workerId = workerId
  match current.find? fun item => resource.isNone || d.runMatchesResource item.2 resource with
  | some item => return (.existing item.1,db)
  | none =>
    require (current.isEmpty || resource.isNone)
      (.state "worker already has an active assignment outside resource filter; use a resource-scoped worker id")
    let worker ← orRaise db.workers[workerId]? (.state "worker is not registered")
    let ctx ← d.claimContext E call db worker.capabilities
    let task ← d.selectTask E db call.observed ctx resource d.orderedTasks []
    let initiative ← orRaise ctx.initiatives[task.initiative]? (.state ("KeyError: " ++ task.initiative))
    let plan := initiative.planSha256 E.sha
    let envelope := executionEnvelope E call.now call.runId workerId task plan initiative
      (workspaceBaselineForTask task initiative) call.runtimeTruth
    let row := assignedRun E.sha call.now call.runId workerId task plan (db.nextAttempt task.id) envelope
    let db ← writeClaim E db call.now call.runId task row .runClaimed (.obj [("task_id",.str task.id)])
    return (.claimed call.runId,db)

/-- A call of `claim_next`: its arguments, whether the runtime gate blocks it, and what it reads of the
clock and the executors before the claim. -/
structure NextCall where
  claim : ClaimCall
  workerId : String
  capabilities : List String
  kind : String
  reconcileFirst : Bool
  resource : Option String
  runtimeBlocked : Bool
  reconciledAt : Time
  replies : String → AdapterReply
  registeredAt : Time

def NextCall.reconcile (E : Env) (next : NextCall) (db : Db) : Result Db :=
  if next.reconcileFirst then db.reconcile E.sha next.reconciledAt 900 next.replies else .ok db

/-- The transactions of `claim_next` before the claim: `reconcile` and `register_worker`. -/
def NextCall.prepare (E : Env) (next : NextCall) (db : Db) : Result Db := do
  let db ← next.reconcile E db
  db.registerWorker next.registeredAt next.workerId next.kind next.capabilities

/-- `Dispatcher.claim_next` as a whole; a blocked runtime gate stops it without an outcome. -/
def claimNextCall (E : Env) (d : Dispatcher) (next : NextCall) (db : Db) : Result (Option ClaimOutcome × Db) := do
  require (next.resource.all fun r => d.registry.resources.contains r)
    (.state ("unknown resource filter: " ++ next.resource.getD ""))
  if next.runtimeBlocked then return (none,db)
  else
    let db ← next.prepare E db
    let (outcome,db) ← d.claimNext E next.claim next.workerId next.resource db
    return (some outcome,db)

/-- What admits an expansion: a registered resource, an active run that does not hold it yet, and no
conflict with the reservations of the other active runs. -/
def expandClaim (d : Dispatcher) (db : Db) (now : Time) (runId : String) (claim : Claim) (reason : String) :
    Result Db := do
  require (d.registry.resources.contains claim.resource) (.state ("unknown resource " ++ claim.resource))
  let row ← db.activeRun runId
  require (!(db.heldBy runId).contains claim.resource) (.state ("run already reserves " ++ claim.resource))
  let reasons := claimConflicts claim (db.reservationList (some runId)) d.registry.resources
  require reasons.isEmpty (.conflict ("\n".intercalate (reasons.map ClaimReason.text)))
  let db ← db.insertReservation runId now claim
  return db.setRun runId { row with error := some ("claim expanded: " ++ reason), updatedAt := now }

end Dispatcher

end Bureau
