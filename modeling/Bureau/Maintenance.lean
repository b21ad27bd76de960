import Bureau.CloseRun

/-!
Store writers outside the run protocol: the closeout of a task that never had a run,
receipt normalization and lifecycle reconciliation.
-/

namespace Bureau

open Transactions

structure CloseoutMaterial where
  receipt : Json
  stamp : Json
  previewSha256 : String
  isObj : stamp.isObj = true

def closeoutVerificationKind := "bureau.task_no_run_closeout_verification"

def closeoutVerification (sha : Sha) (material : CloseoutMaterial) (task plan : String) : Json :=
  let digest := sha256Json sha material.receipt
  ((((material.stamp.set "kind" (.str closeoutVerificationKind)).set "plan_sha256" (.str plan)).set
    "receipt_sha256" (.str digest)).set "task_sha256" (.str task)).set "preview_sha256" (.str material.previewSha256)

def closedSpec (spec verification : Json) : Json :=
  let metadata := ((spec.get? "metadata").filter Json.isObj).getD (.obj [])
  (spec.set "state" (.str "verified")).set "metadata" (metadata.set "verification" verification)

def Task.closedWithoutRun (task : Task) : Bool :=
  task.state = .verified &&
    ((task.metadata?.bind (·.get? "verification")).bind (·.getStr? "kind")) = some closeoutVerificationKind

def Db.taskDrifted (sha : Sha) (db : Db) (taskId : String) : Bool :=
  match db.replayProjection sha with
  | .ok replayed => replayed.tasks[taskId]? ≠ db.currentProjection.tasks[taskId]?
  | .error _ => true

def Payload.projectionEvent : Payload → EventType
  | .repair _ => .projectionRepair
  | _ => .projection

/-- `_backfill_replayed_task_projection`: a repeated closeout whose row the journal does not have yet
records it, and only if the journal then replays to the current tables. -/
def backfillTaskProjection (sha : Sha) (db : Db) (taskId : String) (backfill : Option Payload) : Result Db :=
  if db.taskDrifted sha taskId then
    match backfill with
    | none => .ok db
    | some payload => do
      let db ← db.insertEvent sha payload.projectionEvent payload none none
      let replayed ← db.replayProjection sha
      require (projectionRoot sha replayed = projectionRoot sha db.currentProjection)
        (.state "task no-run closeout replay backfill did not restore StateStore projection")
      return db
  else .ok db

/-- `apply_task_no_run_closeout` after its evidence has been evaluated. -/
def applyTaskNoRunCloseout (E : Env) (files : Registry) (now : Time) (material : CloseoutMaterial)
    (backfill : Option Payload) (taskId : String) (db : Db) : Result Db := do
  let (effective,_,_) ← authoritativeTaskRegistry E.sha files db
  let task ← orRaise effective.tasks[taskId]? (.state ("unknown task " ++ taskId))
  let current ← orRaise (← TaskSpecs.getCurrent E.sha db taskId)
    (.state "task no-run closeout requires an authoritative StateStore TaskSpec revision")
  require ((current.spec.get? "metadata").all Json.isObj) (.state "AttributeError: metadata has no attribute 'get'")
  require (db.runs.toList.all fun item => item.2.taskId ≠ taskId)
    (.state ("task no-run closeout refuses task " ++ taskId ++ " because Bureau runs exist"))
  require (E.acceptanceError task.raw).isNone (.state "task no-run closeout acceptance contract is invalid")
  let plan ← planSha256 E.sha effective task.initiative
  if task.closedWithoutRun then
    require ((db.taskStatus[taskId]?).any fun row =>
        row.taskSha256 = task.sha256 && row.planSha256 = plan && row.state = .verified)
      (.state "task no-run closeout existing task_status projection binding mismatch")
    backfillTaskProjection E.sha db taskId backfill
  else
    require (task.state = .ready) (.state "task no-run closeout requires ready state")
    require (!db.taskStatus.contains taskId)
      (.state "task no-run closeout refuses an existing task_status completion projection")
    let verification := closeoutVerification E.sha material task.sha256 plan
    let (_,db) ← TaskSpecs.put E now db (closedSpec current.spec verification)
      ("task-no-run-closeout:" ++ taskId ++ ":" ++ material.previewSha256) (some current.revision)
      "task-no-run-closeout"
    let readback ← orRaise (← TaskSpecs.getCurrent E.sha db taskId)
      (.state "task no-run closeout TaskSpec readback revision mismatch")
    require (readback.spec = closedSpec current.spec verification)
      (.state "task no-run closeout verification readback mismatch")
    let db := { db with
      taskStatus := db.taskStatus.insert taskId
        ⟨task.sha256,plan,.verified,some (sha256Json E.sha material.receipt),now⟩ }
    db.appendTaskProjectionDelta E.sha "task-no-run-closeout" taskId

def normalizedTaskId := "GRABOWSKI-OPERATOR-SURFACE-V1-T139"

structure NormalizationCandidate where
  sourceRunId : String
  receiptSha256 : String
  before : TaskStatusRow
  after : TaskStatusRow
  deriving DecidableEq

/-- The run and the digests a partial delivery names as its invalid closeout. -/
structure SupersededCloseout where
  sourceRunId : String
  taskSha256 : String
  planSha256 : String
  sourceRunState : String
  sourceRunUpdatedAt : Json
  deriving DecidableEq

def supersededCloseout (task : Task) : Option SupersededCloseout := do
  let superseded ← ((task.raw.get? "metadata").bind (·.get? "partial_delivery")).bind
    (·.get? "supersedes_invalid_closeout")
  let closeout ← (superseded.get? "closeout").filter Json.isObj
  let verification ← (superseded.get? "verification").filter Json.isObj
  let sourceRunId ← nonEmptyStr? closeout "source_run_id"
  let oldTask ← nonEmptyStr? closeout "source_run_task_sha256"
  let oldPlan ← nonEmptyStr? verification "plan_sha256"
  let sourceState ← nonEmptyStr? closeout "source_run_state"
  let updatedAt ← closeout.get? "source_run_updated_at"
  return ⟨sourceRunId,oldTask,oldPlan,sourceState,updatedAt⟩

/-- `_normalization_candidate`: the verified row of a superseded closeout, with the row of the
current revision that replaces it. -/
def normalizationCandidate (sha : Sha) (registry : Registry) (db : Db) : Option NormalizationCandidate := do
  let task ← registry.tasks[normalizedTaskId]?
  check (!task.state.terminal)
  let old ← supersededCloseout task
  let initiative ← registry.initiatives[task.initiative]?
  check (initiative.planSha256 sha = old.planSha256)
  let row ← db.taskStatus[normalizedTaskId]?
  let receiptSha256 ← row.receiptSha256
  check (row.taskSha256 = old.taskSha256 && row.planSha256 = old.planSha256 && row.state = .verified &&
    receiptSha256 ≠ "")
  let run ← db.runs[old.sourceRunId]?
  check (run.taskId = normalizedTaskId && run.state.text = old.sourceRunState &&
    run.taskSha256 = old.taskSha256 && run.planSha256 = old.planSha256 &&
    old.sourceRunUpdatedAt = natJson run.updatedAt)
  let receipt ← db.receipts[old.sourceRunId]?
  check (receipt.receiptSha256 = receiptSha256)
  return ⟨old.sourceRunId,receiptSha256,row,
    { row with taskSha256 := task.sha256, planSha256 := initiative.planSha256 sha, state := task.state }⟩

def TaskStatusRow.brief (row : TaskStatusRow) : Json :=
  .obj [("plan_sha256",.str row.planSha256),("state",.str row.state.text),("task_sha256",.str row.taskSha256)]

/-- `receipt_normalize`: the row is replaced, with an event of the old schema and no projection. -/
def receiptNormalize (sha : Sha) (registry : Registry) (now : Time) (db : Db) : Result Db :=
  match normalizationCandidate sha registry db with
  | none => .ok db
  | some candidate => .ok { db with
      taskStatus := db.taskStatus.insert normalizedTaskId { candidate.after with updatedAt := now }
      events := db.events ++ [⟨db.nextEventId,none,.other "receipt_normalization",0,none,
        .plain (.obj [("after",candidate.after.brief),("before",candidate.before.brief),
          ("kind",.str "receipt_normalization"),("receipt_sha256",.str candidate.receiptSha256),
          ("source_run_id",.str candidate.sourceRunId),("task_id",.str normalizedTaskId)])⟩]
      nextEventId := db.nextEventId+1 }

/-- A task transition lifecycle reconciliation found: it readies a planned task or supersedes one. -/
structure TaskTransition where
  taskId : String
  revision : ℕ
  specSha256 : String
  fromState : TaskState
  toState : TaskState
  successor : Option String
  target : toState = .ready ∨ toState = .superseded
  deriving DecidableEq

structure InitiativeTransition where
  initiativeId : String
  fromState : String
  toState : String
  deriving DecidableEq

def transitionSpec (spec : Json) (t : TaskTransition) : Result Json :=
  let next := spec.set "state" (.str t.toState.text)
  if t.toState = .superseded then
    match t.successor.filter (· ≠ "") with
    | none => stateError ("task " ++ t.taskId ++ " supersession candidate is incomplete")
    | some successor =>
      let metadata := ((next.get? "metadata").filter Json.isObj).getD (.obj [])
      .ok (next.set "metadata" (metadata.set "superseded_by" (.str successor)))
  else .ok next

def applyTaskTransition (E : Env) (now : Time) (db : Db) (t : TaskTransition) : Result Db := do
  let changed : BureauError := .state ("task " ++ t.taskId ++ " changed during lifecycle reconcile")
  let current ← orRaise (← TaskSpecs.getCurrent E.sha db t.taskId) changed
  require (current.revision = t.revision && current.specSha256 = t.specSha256 &&
    current.spec.getStr? "state" = some t.fromState.text) changed
  let spec ← transitionSpec current.spec t
  let (_,db) ← TaskSpecs.put E now db spec
    ("lifecycle-reconcile:" ++ t.taskId ++ ":r" ++ toString current.revision ++ ":" ++ t.fromState.text ++
      "->" ++ t.toState.text ++ ":" ++ current.specSha256) (some current.revision) "lifecycle-reconcile"
  return db

def applyInitiativeTransition (sha : Sha) (files : Registry) (now : Time) (db : Db)
    (t : InitiativeTransition) : Result Db := do
  let state := match db.initiativeStatus[t.initiativeId]? with
    | some row => some row.state
    | none => (files.initiatives[t.initiativeId]?).map (·.state)
  require (state = some t.fromState)
    (.state ("initiative " ++ t.initiativeId ++ " changed during lifecycle reconcile"))
  let db := { db with initiativeStatus := db.initiativeStatus.insert t.initiativeId ⟨t.toState,now⟩ }
  db.event sha .initiativeStateSet
    (.obj [("initiative_id",.str t.initiativeId),("state",.str t.toState)]) none (some t.initiativeId) none

def applyAll {α : Type} (apply : Db → α → Result Db) : List α → Db → Result Db
  | [], db => .ok db
  | a :: rest, db => do
    let db ← apply db a
    applyAll apply rest db

/-- The write transaction of `reconcile_initiative_lifecycle`. -/
def reconcileInitiativeLifecycle (E : Env) (files : Registry) (now : Time) (tasks : List TaskTransition)
    (initiatives : List InitiativeTransition) (db : Db) : Result Db := do
  let db ← applyAll (applyTaskTransition E now) tasks db
  applyAll (applyInitiativeTransition E.sha files now) initiatives db

end Bureau
