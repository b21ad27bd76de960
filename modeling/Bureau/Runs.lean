import Bureau.Dispatcher

/-!
The functions of the store that write one run: binding and dispatch records, heartbeats,
failure, workspaces, and the reconciliation of active runs with their executors.
-/

namespace Bureau

open Transactions

def orphanedStaleWorkerError := "stale worker without external executor"

structure ActivityBinding where
  taskId : String
  workerId : String
  taskSha256 : String
  planSha256 : String
  envelopeSha256 : String
  externalSystem : Option String
  externalId : Option String
  externalState : Option String
  deriving DecidableEq

def RunRow.activityBinding (row : RunRow) : ActivityBinding :=
  ⟨row.taskId,row.workerId,row.taskSha256,row.planSha256,row.envelopeSha256,row.externalSystem,
    row.externalId,row.externalState⟩

def failureStates : List RunState := [.failed,.cancelled,.orphaned]

/-- What `create_workspace` observed in Git. -/
structure Worktree where
  repository : String
  path : String
  branch : String
  baseline : String
  deriving DecidableEq

inductive ExternalState where
  | running | succeeded | failed | cancelled | interrupted | missing
  | other (name : String)
  deriving DecidableEq

def ExternalState.text : ExternalState → String
  | .running => "running"
  | .succeeded => "succeeded"
  | .failed => "failed"
  | .cancelled => "cancelled"
  | .interrupted => "interrupted"
  | .missing => "missing"
  | .other name => name

structure Observation where
  state : ExternalState
  detail : Json
  deriving DecidableEq

/-- The replies of the adapter of one run; a raised exception is an error. -/
structure AdapterReply where
  available : Bool
  recover : Except String (Option String)
  observe : Except String Observation

def observedHeartbeat (state : ExternalState) (now : Time) : Json :=
  .obj [("external_state",.str state.text),("observed_at",natJson now),
    ("source",.str "reconcile-external-observation")]

namespace Db

def setRun (db : Db) (runId : String) (row : RunRow) : Db :=
  { db with runs := db.runs.insert runId row }

/-- `UPDATE runs SET … WHERE run_id=?`. -/
def updateRun (db : Db) (runId : String) (f : RunRow → RunRow) : Db :=
  match db.runs[runId]? with
  | some row => db.setRun runId (f row)
  | none => db

/-- `DELETE FROM reservations WHERE run_id=?`. -/
def deleteReservations (db : Db) (runId : String) : Db :=
  { db with reservations := db.reservations.erase runId }

def setWorkspace (db : Db) (runId : String) (row : WorkspaceRow) : Db :=
  { db with workspaces := db.workspaces.insert runId row }

def activeRun (db : Db) (runId : String) : Result RunRow := do
  let row ← orRaise db.runs[runId]? (.state ("run " ++ runId ++ " is not active"))
  require row.state.active (.state ("run " ++ runId ++ " is not active"))
  return row

def registerWorker (db : Db) (now : Time) (workerId kind : String) (capabilities : List String) :
    Result Db := do
  require (workerId ≠ "" && workerId.length ≤ 200)
    (.state "worker_id must contain 1-200 characters")
  return { db with workers := db.workers.insert workerId ⟨kind,capabilities,now⟩ }

/-- `UPDATE workers SET heartbeat_at=? WHERE worker_id=?`. -/
def touchWorker (db : Db) (now : Time) (workerId : String) : Db :=
  match db.workers[workerId]? with
  | some worker => { db with workers := db.workers.insert workerId { worker with heartbeatAt := now } }
  | none => db

def bind (sha : Sha) (db : Db) (now : Time) (runId system externalId : String) : Result Db := do
  let row ← db.activeRun runId
  require (!isSet row.externalSystem || row.externalSystem = some system)
    (.state "run already targets another external system")
  require (!isSet row.externalId || row.externalId = some externalId)
    (.state "run already has another external binding")
  let db := db.setRun runId { row with
    externalSystem := some system
    externalId := some externalId
    externalState := some "running"
    state := .running
    updatedAt := now
    heartbeatAt := now
    externalObservedAt := some now }
  db.runEvent sha .externalBound (.obj [("external_id",.str externalId),("system",.str system)]) runId

def prepareDispatch (sha : Sha) (db : Db) (now : Time) (runId system : String) : Result Db := do
  let row ← db.activeRun runId
  if isSet row.externalId then return db
  else
    require (!isSet row.externalSystem || row.externalSystem = some system)
      (.state "run already targets another external system")
    let db := db.setRun runId { row with
      externalSystem := some system
      externalState := some "dispatching"
      externalObservedAt := some now
      updatedAt := now }
    db.runEvent sha .dispatchPrepared
      (.obj [("request_id",nullable row.dispatchRequestId),("system",.str system)]) runId

def markDispatchUncertain (sha : Sha) (db : Db) (now : Time) (runId error : String) : Result Db := do
  let row ← db.activeRun runId
  let db := db.setRun runId { row with
    externalState := some "dispatch-uncertain"
    error := some error
    externalObservedAt := some now
    updatedAt := now }
  db.runEvent sha .dispatchUncertain (.obj [("error",.str error)]) runId

def heartbeat (sha : Sha) (db : Db) (now : Time) (runId : String) (workerId : Option String) :
    Result Db := do
  let row ← db.activeRun runId
  require (workerId.all (· = row.workerId)) (.state "worker does not own this run")
  let db := (db.setRun runId { row with heartbeatAt := now, updatedAt := now }).touchWorker now row.workerId
  db.runEvent sha .runHeartbeat (.obj []) runId

/-- The write of `bound_activity_heartbeat`: a heartbeat that names the whole binding of its run,
recorded once per activity id. -/
def boundActivityHeartbeat (sha : Sha) (db : Db) (now : Time) (runId activityId : String)
    (binding : ActivityBinding) (payload : Json) : Result Db := do
  let row ← db.activeRun runId
  require (row.activityBinding = binding)
    (.state "bound activity binding changed during update; rebind required")
  require (db.workers.contains binding.workerId)
    (.state "bound activity worker binding disappeared; rebind required")
  let db := (db.setRun runId { row with heartbeatAt := now, updatedAt := now }).touchWorker now row.workerId
  db.event sha .runHeartbeat payload (some runId) none (some activityId)

def failRun (sha : Sha) (db : Db) (now : Time) (runId error : String) (state : RunState) : Result Db := do
  require (state ∈ failureStates) (.state ("invalid terminal state " ++ state.text))
  let row ← db.activeRun runId
  let db := (db.setRun runId { row with state := state, error := some error, updatedAt := now }).deleteReservations
    runId
  db.runEvent sha .runFailed (.obj [("error",.str error),("state",.str state.text)]) runId

def setInitiativeState (sha : Sha) (db : Db) (now : Time) (initiativeId state : String) : Result Db := do
  require (initiativeId ≠ "" && state ≠ "") (.state "initiative_id and state must be non-empty")
  if (db.initiativeStatus[initiativeId]?).any (·.state = state) then return db
  else
    let db := { db with initiativeStatus := db.initiativeStatus.insert initiativeId ⟨state,now⟩ }
    db.event sha .initiativeStateSet
      (.obj [("initiative_id",.str initiativeId),("state",.str state)]) none (some initiativeId) none

/-- The writes of `create_workspace`; a run keeps the workspace it has. -/
def createWorkspace (sha : Sha) (db : Db) (now : Time) (runId : String) (tree : Worktree) : Result Db := do
  let row ← orRaise db.runs[runId]? (.state ("unknown run " ++ runId))
  if isSet row.workspacePath then return db
  else
    let db := db.setRun runId { row with
      workspacePath := some tree.path
      workspaceBranch := some tree.branch
      updatedAt := now }
    let kept := db.workspaces[runId]?
    let db := db.setWorkspace runId
      ⟨(kept.map (·.repositoryPath)).getD tree.repository,tree.path,tree.branch,tree.baseline,"active",
        (kept.map (·.createdAt)).getD now,now,kept.bind (·.detail)⟩
    db.runEvent sha .workspaceCreated (.obj [("path",.str tree.path)]) runId

def preserveWorkspace (sha : Sha) (db : Db) (now : Time) (runId reason : String) : Result Db := do
  let row ← orRaise db.workspaces[runId]? (.state ("run " ++ runId ++ " has no workspace"))
  let db := db.setWorkspace runId
    { row with state := "preserved", detail := some reason, updatedAt := now }
  db.runEvent sha .workspacePreserved (.obj [("reason",.str reason)]) runId

/-- The last transaction of `cleanup_workspace`; the state of the run is read before it, not here. -/
def removeWorkspace (sha : Sha) (db : Db) (now : Time) (runId : String) (payload : Json) : Result Db := do
  let row ← orRaise db.workspaces[runId]? (.state ("run " ++ runId ++ " has no workspace"))
  let db := db.setWorkspace runId { row with state := "removed", updatedAt := now }
  db.runEvent sha .workspaceRemoved payload runId

def externalTerminal (sha : Sha) (db : Db) (now : Time) (runId : String) (observation : Observation)
    (final : RunState) : Result Db :=
  let db := (db.updateRun runId fun row => { row with
    state := final
    externalState := some observation.state.text
    externalObservedAt := some now
    error := some observation.detail.canonicalJson
    updatedAt := now }).deleteReservations runId
  db.runEvent sha .externalTerminal (.obj [("state",.str observation.state.text)]) runId

/-- The part of `reconcile` after an executor is known. -/
def observeRun (sha : Sha) (db : Db) (now : Time) (reply : AdapterReply) (runId : String) : Result Db :=
  match reply.observe with
  | .error _ => .ok db
  | .ok observation =>
    match observation.state with
    | .running =>
      (db.updateRun runId fun row => { row with
        externalState := some "running"
        externalObservedAt := some now
        heartbeatAt := now
        updatedAt := now }).runEvent sha .runHeartbeat (observedHeartbeat .running now) runId
    | .succeeded => do
      let db ← (db.updateRun runId fun row => { row with
        state := .verifying
        externalState := some "succeeded"
        externalObservedAt := some now
        heartbeatAt := now
        updatedAt := now }).runEvent sha .externalSucceeded (.obj [("state",.str "succeeded")]) runId
      db.runEvent sha .runHeartbeat (observedHeartbeat .succeeded now) runId
    | .cancelled => externalTerminal sha db now runId observation .cancelled
    | .failed | .interrupted | .missing => externalTerminal sha db now runId observation .failed
    | .other _ => .ok db

/-- One round of the loop of `reconcile` over a row read before the loop. -/
def reconcileRun (sha : Sha) (db : Db) (now : Time) (staleAfter : Int) (reply : AdapterReply)
    (runId : String) (row : RunRow) : Result Db :=
  if !isSet row.externalSystem then
    if (now : Int) - row.heartbeatAt ≤ staleAfter then .ok db
    else
      ((db.updateRun runId fun row => { row with
        state := .orphaned
        error := some orphanedStaleWorkerError
        updatedAt := now }).deleteReservations runId).runEvent sha .runOrphaned (.obj []) runId
  else if !reply.available then .ok db
  else if isSet row.externalId then db.observeRun sha now reply runId
  else
    match reply.recover with
    | .error _ => .ok db
    | .ok none => .ok db
    | .ok (some externalId) => do
      let db ← (db.updateRun runId fun row => { row with
        externalId := some externalId
        externalState := some "running"
        state := .running
        externalObservedAt := some now
        heartbeatAt := now
        updatedAt := now }).runEvent sha .dispatchRecovered (.obj [("external_id",.str externalId)]) runId
      db.observeRun sha now reply runId

def reconcileRuns (sha : Sha) (now : Time) (staleAfter : Int) (replies : String → AdapterReply) :
    List (String × RunRow) → Db → Result Db
  | [], db => .ok db
  | (runId,row) :: rest, db => do
    let db ← db.reconcileRun sha now staleAfter (replies runId) runId row
    reconcileRuns sha now staleAfter replies rest db

/-- `Dispatcher.reconcile`: one transaction over the active runs. -/
def reconcile (sha : Sha) (db : Db) (now : Time) (staleAfter : Int) (replies : String → AdapterReply) :
    Result Db :=
  reconcileRuns sha now staleAfter replies db.activeRuns db

end Db

end Bureau
