import Bureau.StateEvents

/-!
The operational tables of the StateStore and the functions that write them. A function
that raises inside its transaction leaves every table as it was.
-/

namespace Bureau

open Transactions

inductive RunState where
  | assigned | running | verifying | succeeded | failed | cancelled | orphaned
  deriving DecidableEq

namespace RunState

def text : RunState → String
  | .assigned => "assigned"
  | .running => "running"
  | .verifying => "verifying"
  | .succeeded => "succeeded"
  | .failed => "failed"
  | .cancelled => "cancelled"
  | .orphaned => "orphaned"

/-- Membership in `ACTIVE_STATES`. -/
def active : RunState → Bool
  | .assigned | .running | .verifying => true
  | _ => false

end RunState

inductive TaskState where
  | inbox | planned | ready | blocked | verified | cancelled | superseded | stale
  deriving DecidableEq

namespace TaskState

def text : TaskState → String
  | .inbox => "inbox"
  | .planned => "planned"
  | .ready => "ready"
  | .blocked => "blocked"
  | .verified => "verified"
  | .cancelled => "cancelled"
  | .superseded => "superseded"
  | .stale => "stale"

/-- Membership in `TERMINAL_TASK_STATES`. -/
def terminal : TaskState → Bool
  | .verified | .cancelled | .superseded => true
  | _ => false

def ofText? : String → Option TaskState
  | "inbox" => some .inbox
  | "planned" => some .planned
  | "ready" => some .ready
  | "blocked" => some .blocked
  | "verified" => some .verified
  | "cancelled" => some .cancelled
  | "superseded" => some .superseded
  | _ => none

theorem ofText?_text {s : TaskState} (h : s ≠ .stale) : ofText? s.text = some s := by
  cases s <;> first | rfl | exact absurd rfl h

end TaskState

structure Worker where
  kind : String
  capabilities : List String
  heartbeatAt : Time
  deriving DecidableEq

structure RunRow where
  taskId : String
  workerId : String
  attempt : ℕ
  state : RunState
  taskSha256 : String
  planSha256 : String
  envelope : Json
  envelopeSha256 : String
  dispatchRequestId : Option String
  externalSystem : Option String
  externalId : Option String
  externalState : Option String
  externalObservedAt : Option Time
  workspacePath : Option String
  workspaceBranch : Option String
  error : Option String
  createdAt : Time
  updatedAt : Time
  heartbeatAt : Time
  deriving DecidableEq

structure TaskStatusRow where
  taskSha256 : String
  planSha256 : String
  state : TaskState
  receiptSha256 : Option String
  updatedAt : Time
  deriving DecidableEq

structure InitiativeStatusRow where
  state : String
  updatedAt : Time
  deriving DecidableEq

structure ReceiptRow where
  receipt : Json
  receiptSha256 : String
  createdAt : Time
  deriving DecidableEq

structure WorkspaceRow where
  repositoryPath : String
  workspacePath : String
  branch : String
  baselineCommit : String
  state : String
  createdAt : Time
  updatedAt : Time
  detail : Option String
  deriving DecidableEq

structure TaskSpecRevision where
  parentRevision : Option ℕ
  specSha256 : String
  spec : Json
  source : String
  createdAt : Time
  deriving DecidableEq

structure TaskSpecPointer where
  currentRevision : ℕ
  specSha256 : String
  updatedAt : Time
  deriving DecidableEq

/-- Without the activation evidence, which publications rewrite. -/
structure TaskSpecMutation where
  taskId : String
  expectedRevision : Option ℕ
  requestedSha256 : String
  resultingRevision : ℕ
  deriving DecidableEq

/-- The database. Rows are keyed by their primary key; reservations by run and then by resource,
TaskSpec revisions by task and then by revision. -/
structure Db where
  workers : Table Worker
  runs : Table RunRow
  reservations : Table (Table Hold)
  taskStatus : Table TaskStatusRow
  initiativeStatus : Table InitiativeStatusRow
  receipts : Table ReceiptRow
  workspaces : Table WorkspaceRow
  events : List EventRow
  nextEventId : ℕ
  taskSpecs : Table TaskSpecPointer
  taskSpecRevisions : Table (Std.ExtTreeMap ℕ TaskSpecRevision)
  taskSpecMutations : Table TaskSpecMutation
  deriving DecidableEq

def isSet (value : Option String) : Bool :=
  match value with
  | some s => s ≠ ""
  | none => false

/-- The columns of `_RUN_FIELDS`. -/
def RunRow.projected (runId : String) (row : RunRow) : Json :=
  .obj [("attempt",natJson row.attempt),("dispatch_request_id",nullable row.dispatchRequestId),
    ("envelope_sha256",.str row.envelopeSha256),("error",nullable row.error),
    ("external_id",nullable row.externalId),("external_state",nullable row.externalState),
    ("external_system",nullable row.externalSystem),("plan_sha256",.str row.planSha256),
    ("run_id",.str runId),("state",.str row.state.text),("task_id",.str row.taskId),
    ("task_sha256",.str row.taskSha256),("worker_id",.str row.workerId),
    ("workspace_branch",nullable row.workspaceBranch),("workspace_path",nullable row.workspacePath)]

/-- The columns of `_TASK_FIELDS`. -/
def TaskStatusRow.projected (taskId : String) (row : TaskStatusRow) : Json :=
  .obj [("plan_sha256",.str row.planSha256),("receipt_sha256",nullable row.receiptSha256),
    ("state",.str row.state.text),("task_id",.str taskId),("task_sha256",.str row.taskSha256)]

def InitiativeStatusRow.projected (initiativeId : String) (row : InitiativeStatusRow) : Json :=
  .obj [("initiative_id",.str initiativeId),("state",.str row.state)]

def ReceiptRow.projected (runId : String) (row : ReceiptRow) : Json :=
  .obj [("receipt_sha256",.str row.receiptSha256),("run_id",.str runId)]

def Hold.projected (resourceId : String) (hold : Hold) : Json :=
  .obj [("amount",.num hold.amount),("mode",.str hold.mode.text),("resource_id",.str resourceId)]

def holdsProjected (holds : Table Hold) : Json :=
  .arr (holds.toList.map fun item => item.2.projected item.1)

/-- `_run_initiative_id`: the initiative named in the run's execution envelope. -/
def RunRow.initiativeId (row : RunRow) : Option String :=
  (((row.envelope.get? "task").bind (·.getStr? "initiative"))).filter (· ≠ "")

namespace Db

def heldBy (db : Db) (runId : String) : Table Hold :=
  db.reservations[runId]?.getD ∅

/-- `state_events.current_projection`; a reservation row always has its run. -/
def currentProjection (db : Db) : Projection where
  tasks := db.taskStatus.map fun id row => row.projected id
  initiatives := db.initiativeStatus.map fun id row => row.projected id
  claims := db.runs.map fun id _ => holdsProjected (db.heldBy id)
  runs := db.runs.map fun id row => row.projected id
  acceptances := db.receipts.map fun id row => row.projected id

def runChanges (p : Projection) (runId : String) (row : RunRow) : Changes where
  tasks := [(row.taskId,p.tasks[row.taskId]?)]
  initiatives :=
    match row.initiativeId with
    | some initiative => [(initiative,p.initiatives[initiative]?)]
    | none => []
  claims := [(runId,p.claims[runId]?)]
  runs := [(runId,p.runs[runId]?)]
  acceptances := [(runId,p.acceptances[runId]?)]

def taskChanges (p : Projection) (taskId : Option String) : List (String × Option Json) :=
  match taskId with
  | some id => [(id,p.tasks[id]?)]
  | none => []

def initiativeChanges (p : Projection) (initiativeId : Option String) : List (String × Option Json) :=
  match initiativeId with
  | some id => [(id,p.initiatives[id]?)]
  | none => []

/-- `delta_payload`; a run that does not exist gives no delta. -/
def deltaPayload (sha : Sha) (db : Db) (trigger : String) (runId taskId initiativeId : Option String) :
    Result (Option Payload) :=
  let p := db.currentProjection
  let bounded : Option Changes :=
    match runId with
    | some id => (db.runs[id]?).map (runChanges p id)
    | none => some {}
  match bounded with
  | none => .ok none
  | some changes => do
    let changes : Changes := { changes with
      tasks := changes.tasks ++ taskChanges p taskId
      initiatives := changes.initiatives ++ initiativeChanges p initiativeId }
    require (!changes.isEmpty) (.state "projection delta has no bounded entity")
    return some (.delta trigger changes (projectionRoot sha p))

/-- `_insert_event`; bound activity ids are unique. -/
def insertEvent (sha : Sha) (db : Db) (eventType : EventType) (payload : Payload)
    (runId activityId : Option String) : Result Db := do
  validateEvent sha eventType payload runId
  require (activityId.isNone || db.events.all fun e => e.activityId ≠ activityId)
    (.integrity "UNIQUE constraint failed: events.activity_id")
  return { db with
    events := db.events ++ [⟨db.nextEventId,runId,eventType,1,activityId,payload⟩]
    nextEventId := db.nextEventId+1 }

def appendProjectionSnapshot (sha : Sha) (db : Db) (trigger : String)
    (runId taskId initiativeId : Option String) : Result Db := do
  match ← db.deltaPayload sha trigger runId taskId initiativeId with
  | some payload => db.insertEvent sha .projection payload runId none
  | none => return db

def appendTaskProjectionDelta (sha : Sha) (db : Db) (trigger taskId : String) : Result Db := do
  require (taskId ≠ "") (.state "task projection delta task_id must be non-empty")
  db.appendProjectionSnapshot sha trigger none (some taskId) none

/-- `StateStore.event`: the event, then the delta of the entities it is bound to. -/
def event (sha : Sha) (db : Db) (eventType : EventType) (payload : Json)
    (runId initiativeId activityId : Option String) : Result Db := do
  let db ← db.insertEvent sha eventType (.plain payload) runId activityId
  if eventType ≠ .projection ∧ (runId.isSome ∨ initiativeId.isSome) then
    db.appendProjectionSnapshot sha eventType.text runId none initiativeId
  else return db

def runEvent (sha : Sha) (db : Db) (eventType : EventType) (payload : Json) (runId : String) : Result Db :=
  db.event sha eventType payload (some runId) none none

/-- The empty tables of a freshly initialised store; the baseline is event 0. -/
def fresh (sha : Sha) : Db where
  workers := ∅
  runs := ∅
  reservations := ∅
  taskStatus := ∅
  initiativeStatus := ∅
  receipts := ∅
  workspaces := ∅
  events := [⟨0,none,.projection,1,none,
    .baseline "schema-v4-migration" .empty (projectionRoot sha .empty)⟩]
  nextEventId := 1
  taskSpecs := ∅
  taskSpecRevisions := ∅
  taskSpecMutations := ∅

def replayProjection (sha : Sha) (db : Db) : Result Projection :=
  replay sha (db.events.filter fun e => e.eventType ≠ .taskSpecRevisionSet)

end Db

end Bureau
