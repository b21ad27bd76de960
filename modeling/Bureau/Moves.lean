import Bureau.Maintenance

/-!
What a transaction of the store can do. Every committed transaction is a short sequence of
moves: a write to one run followed by its events, a write to one initiative or task with
its projection, a TaskSpec revision, or an update of rows the projection does not cover.
-/

namespace Bureau

open Transactions

variable {db db' db'' : Db} {other runId : String} {resources : Resources} {kind : Kind} {sha : Sha}
    {row row' : RunRow} {eventType : EventType}

/-- The columns of a run that are fixed when it is inserted. -/
structure RunIdentity where
  taskId : String
  workerId : String
  attempt : ℕ
  taskSha256 : String
  planSha256 : String
  envelope : Json
  envelopeSha256 : String
  dispatchRequestId : Option String
  deriving DecidableEq

def RunRow.identity (row : RunRow) : RunIdentity :=
  ⟨row.taskId,row.workerId,row.attempt,row.taskSha256,row.planSha256,row.envelope,row.envelopeSha256,
    row.dispatchRequestId⟩

structure RunView where
  row : Option RunRow
  held : Table Hold
  receipt : Option ReceiptRow

namespace Db

def view (db : Db) (runId : String) : RunView :=
  ⟨db.runs[runId]?,db.heldBy runId,db.receipts[runId]?⟩

/-- The TaskSpec tables: the pointers to the current revisions, the revisions, the mutation receipts. -/
def specs (db : Db) :
    Table TaskSpecPointer × Table (Std.ExtTreeMap ℕ TaskSpecRevision) × Table TaskSpecMutation :=
  (db.taskSpecs,db.taskSpecRevisions,db.taskSpecMutations)

def extend (db : Db) (rows : List EventRow) : Db :=
  { db with events := db.events ++ rows, nextEventId := db.nextEventId+rows.length }

@[simp] theorem taskStatus_extend (db : Db) (rows : List EventRow) :
    (db.extend rows).taskStatus = db.taskStatus := rfl

@[simp] theorem runs_extend (db : Db) (rows : List EventRow) : (db.extend rows).runs = db.runs := rfl

@[simp] theorem events_extend (db : Db) (rows : List EventRow) :
    (db.extend rows).events = db.events ++ rows := rfl

@[simp] theorem extend_extend (db : Db) (first second : List EventRow) :
    (db.extend first).extend second = db.extend (first ++ second) := by
  simp [extend,Nat.add_assoc]

@[simp] theorem extend_nil (db : Db) : db.extend [] = db := by
  simp [extend]

/-- The row `_insert_event` appends. -/
def nextRow (db : Db) (eventType : EventType) (payload : Payload) (runId activityId : Option String) : EventRow :=
  ⟨db.nextEventId,runId,eventType,1,activityId,payload⟩

theorem insertEvent_eq_ok {payload : Payload} {runId activityId : Option String}
    (h : db.insertEvent sha eventType payload runId activityId = .ok db') :
    validateEvent sha eventType payload runId = .ok () ∧
      db' = db.extend [db.nextRow eventType payload runId activityId] := by
  simp only [insertEvent,steps_ok] at h
  obtain ⟨_,hvalid,_,_,rfl⟩ := h
  exact ⟨hvalid,rfl⟩

def runEvents (sha : Sha) (runId : String) : List (EventType × Json × Option String) → Db → Result Db
  | [], db => .ok db
  | (eventType,payload,activityId) :: rest, db => do
    let db ← db.event sha eventType payload (some runId) none activityId
    runEvents sha runId rest db

end Db

/-- No other active run holds an overlapping resource in a conflicting mode. -/
def Fits (resources : Resources) (db : Db) (runId resource : String) (mode : Mode) : Prop :=
  ∀ other row, other ≠ runId → db.runs[other]? = some row → row.state.active = true →
    ∀ held hold, (db.heldBy other)[held]? = some hold →
      overlaps resource held resources = true → modesConflict mode hold.mode = false

def Granted (resources : Resources) (db : Db) (runId : String) (held held' : Table Hold) : Prop :=
  ∀ resource hold, held'[resource]? = some hold →
    held[resource]? = some hold ∨ Fits resources db runId resource hold.mode

inductive Kind where
  | plain | publish | claim | issue | resume | expand | complete | normalize | backfill | workspace | activity
  deriving DecidableEq

inductive RunStep (resources : Resources) (db : Db) (runId : String) : Kind → RunView → RunView → Prop
  | idle (v : RunView) {kind : Kind} (quiet : kind = .plain ∨ kind = .workspace ∨ kind = .activity) :
      RunStep resources db runId kind v v
  | update {row row' : RunRow} {held : Table Hold} {receipt : Option ReceiptRow} {kind : Kind}
      (identity : row'.identity = row.identity)
      (state : row'.state = row.state ∨ row.state.active = true ∧ row'.state.active = true)
      (quiet : kind = .plain ∨ kind = .workspace ∨ kind = .activity) :
      RunStep resources db runId kind ⟨some row,held,receipt⟩ ⟨some row',held,receipt⟩
  | finish {row row' : RunRow} {held : Table Hold} {receipt : Option ReceiptRow}
      (identity : row'.identity = row.identity) (active : row.state.active = true)
      (failure : row'.state ∈ failureStates) :
      RunStep resources db runId .plain ⟨some row,held,receipt⟩ ⟨some row',∅,receipt⟩
  | claim {row : RunRow} {held held' : Table Hold} {receipt : Option ReceiptRow}
      (state : row.state = .assigned) (attempt : row.attempt = db.nextAttempt row.taskId)
      (granted : Granted resources db runId held held') :
      RunStep resources db runId .claim ⟨none,held,receipt⟩ ⟨some row,held',receipt⟩
  | resume {row row' : RunRow} {held held' : Table Hold} {receipt : Option ReceiptRow}
      (identity : row'.identity = row.identity) (orphaned : row.state = .orphaned)
      (assigned : row'.state = .assigned) (granted : Granted resources db runId held held') :
      RunStep resources db runId .resume ⟨some row,held,receipt⟩ ⟨some row',held',receipt⟩
  | expand {row row' : RunRow} {held held' : Table Hold} {receipt : Option ReceiptRow}
      (identity : row'.identity = row.identity) (active : row.state.active = true)
      (state : row'.state = row.state) (granted : Granted resources db runId held held') :
      RunStep resources db runId .expand ⟨some row,held,receipt⟩ ⟨some row',held',receipt⟩
  | complete {row row' : RunRow} {held : Table Hold} {stored : ReceiptRow}
      (identity : row'.identity = row.identity)
      (state : row.state.active = true ∨ row.state = .orphaned) (succeeded : row'.state = .succeeded) :
      RunStep resources db runId .complete ⟨some row,held,none⟩ ⟨some row',∅,some stored⟩

structure RunWrite (resources : Resources) (kind : Kind) (db db' : Db) (runId : String) : Prop where
  others : ∀ other, other ≠ runId → db'.view other = db.view other
  step : RunStep resources db runId kind (db.view runId) (db'.view runId)
  initiativeStatus : db'.initiativeStatus = db.initiativeStatus
  specs : db'.specs = db.specs
  events : db'.events = db.events
  nextEventId : db'.nextEventId = db.nextEventId

/-- The kinds of event a run may record besides its completion and its issuance. -/
def EventType.ordinary (eventType : EventType) : Bool :=
  eventType ≠ .projection && eventType ≠ .projectionRepair && eventType ≠ .runCompleted &&
    eventType ≠ .taskSpecRevisionSet && eventType ≠ .claimIntentIssued

theorem EventType.ordinary_eq_true : eventType.ordinary = true ↔
    (eventType ≠ .projection ∧ eventType ≠ .projectionRepair) ∧ eventType ≠ .runCompleted ∧
      eventType ≠ .taskSpecRevisionSet ∧ eventType ≠ .claimIntentIssued := by
  simp only [EventType.ordinary,Bool.and_eq_true,decide_eq_true_eq,and_assoc]

structure SpecSuccessor (sha : Sha) (db : Db) (next : TaskSpecs.CurrentSpec) : Prop where
  current : ∃ current, TaskSpecs.getCurrent sha db next.taskId = .ok current ∧
    next.revision = (current.map (·.revision)).getD 0 + 1
  parent : next.parentRevision = TaskSpecs.parentOfRevision next.revision
  digest : next.specSha256 = TaskSpecs.taskSpecDigest sha next.spec
  id : TaskSpecs.canonicalSpecId next.spec = .ok next.taskId

structure SpecWrite (sha : Sha) (db : Db) (taskId key : String) (expected : Option ℕ) (source : String) : Prop where
  unused : db.taskSpecMutations[key]? = none
  named : key ≠ "" ∧ source ≠ ""
  baseline : ∃ current, TaskSpecs.getCurrent sha db taskId = .ok current ∧ current.map (·.revision) = expected

def Db.noteMutation (db : Db) (current : TaskSpecs.CurrentSpec) (key : String) (expected : Option ℕ) : Db :=
  { db with
    taskSpecMutations := db.taskSpecMutations.insert key
      ⟨current.taskId,expected,current.specSha256,current.revision⟩ }

inductive Move (sha : Sha) (resources : Resources) : Kind → Db → Db → Prop
  | run {kind : Kind} {db db' db'' : Db} {runId : String} {events : List (EventType × Json × Option String)}
      (write : RunWrite resources kind db db' runId) (taskStatus : db'.taskStatus = db.taskStatus)
      (incomplete : kind ≠ .complete) (recorded : events ≠ []) (ordinary : ∀ e ∈ events, e.1.ordinary = true)
      (journal : db'.runEvents sha runId events = .ok db'')
      (workspaces : kind ≠ .workspace → db'.workspaces = db.workspaces)
      (unbound : kind ≠ .activity → ∀ e ∈ events, e.2.2 = none) : Move sha resources kind db db''
  | complete {db db' db'' : Db} {runId : String} {row : RunRow} {payload : Json}
      (write : RunWrite resources .complete db db' runId) (written : db'.runs[runId]? = some row)
      (taskStatus : ∀ other, other ≠ row.taskId → db'.taskStatus[other]? = db.taskStatus[other]?)
      (journal : db'.runEvent sha .runCompleted payload runId = .ok db'')
      (verified : ∀ status, db'.taskStatus[row.taskId]? = some status → status.state = .verified)
      (workspaces : db'.workspaces = db.workspaces) : Move sha resources .complete db db''
  | issue {db db' : Db} {runId : String} {payload : Json}
      (journal : db.runEvent sha .claimIntentIssued payload runId = .ok db') : Move sha resources .issue db db'
  | expand {db db' : Db} {runId : String} (write : RunWrite resources .expand db db' runId)
      (taskStatus : db'.taskStatus = db.taskStatus) (workspaces : db'.workspaces = db.workspaces) :
      Move sha resources .expand db db'
  | initiative {db db' : Db} {initiativeId : String} {row : InitiativeStatusRow} {payload : Json}
      (journal : Db.event sha { db with initiativeStatus := db.initiativeStatus.insert initiativeId row }
        .initiativeStateSet payload none (some initiativeId) none = .ok db') : Move sha resources .plain db db'
  | task {db db' : Db} {trigger taskId : String} {row : TaskStatusRow}
      (journal : Db.appendTaskProjectionDelta sha { db with taskStatus := db.taskStatus.insert taskId row }
        trigger taskId = .ok db') (verified : row.state = .verified) : Move sha resources .plain db db'
  | spec {db : Db} {now : Time} {next : TaskSpecs.CurrentSpec} {key : String} {expected : Option ℕ}
      (successor : SpecSuccessor sha db next) (write : SpecWrite sha db next.taskId key expected next.source) :
      Move sha resources .publish db (TaskSpecs.setRevision now db next key expected)
  | known {db : Db} {taskId key source : String} {expected : Option ℕ} {current : TaskSpecs.CurrentSpec}
      (write : SpecWrite sha db taskId key expected source)
      (read : TaskSpecs.getCurrent sha db taskId = .ok (some current)) :
      Move sha resources .publish db (db.noteMutation current key expected)
  | quiet {db db' : Db} (views : ∀ runId, db'.view runId = db.view runId)
      (taskStatus : db'.taskStatus = db.taskStatus) (initiativeStatus : db'.initiativeStatus = db.initiativeStatus)
      (specs : db'.specs = db.specs) (events : db'.events = db.events)
      (nextEventId : db'.nextEventId = db.nextEventId) (workspaces : db'.workspaces = db.workspaces) :
      Move sha resources .plain db db'
  | normalize {db : Db} {taskId : String} {row : TaskStatusRow} {event : EventRow}
      (id : event.eventId = db.nextEventId) (schema : event.schemaVersion = 0)
      (ordinary : event.eventType.ordinary = true) (unbound : event.activityId = none) :
      Move sha resources .normalize db
        (Db.extend { db with taskStatus := db.taskStatus.insert taskId row } [event])
  | backfill {db : Db} {taskId : String} {event : EventRow} (drift : db.taskDrifted sha taskId = true)
      (recorded : event.eventType = .projection ∨ event.eventType = .projectionRepair)
      (id : event.eventId = db.nextEventId) (schema : event.schemaVersion = 1)
      (replayed : ∃ p, (db.extend [event]).replayProjection sha = .ok p) (unbound : event.activityId = none) :
      Move sha resources .backfill db (db.extend [event])

/-- A move of a transaction that may take several; only some transactions set TaskSpec revisions. -/
def Routine (sha : Sha) (resources : Resources) (publishes : Bool) (db db' : Db) : Prop :=
  ∃ kind, Move sha resources kind db db' ∧ (kind = .plain ∨ publishes = true ∧ kind = .publish)

theorem Move.routine (publishes : Bool) (h : Move sha resources .plain db db') :
    Routine sha resources publishes db db' :=
  ⟨.plain,h,.inl rfl⟩

theorem Routine.kind_ne {publishes : Bool} (h : Routine sha resources publishes db db') :
    ∃ kind, Move sha resources kind db db' ∧ kind ≠ .resume ∧ kind ≠ .expand ∧ kind ≠ .complete ∧
      kind ≠ .normalize ∧ kind ≠ .claim ∧ kind ≠ .issue := by
  obtain ⟨kind,hmove,rfl | ⟨_,rfl⟩⟩ := h
  · exact ⟨_,hmove,by decide⟩
  · exact ⟨_,hmove,by decide⟩

namespace Db

@[simp] theorem view_setRun_self (db : Db) (runId : String) (row : RunRow) :
    (db.setRun runId row).view runId = ⟨some row,db.heldBy runId,db.receipts[runId]?⟩ := by
  simp [view,setRun,heldBy]

theorem view_setRun_ne (db : Db) (row : RunRow) (h : other ≠ runId) :
    (db.setRun runId row).view other = db.view other := by
  simp only [view,setRun,heldBy,Tables.get_insert_ne _ _ h]

@[simp] theorem heldBy_deleteReservations_self (db : Db) (runId : String) :
    (db.deleteReservations runId).heldBy runId = ∅ := by
  simp [heldBy,deleteReservations]

theorem view_deleteReservations_ne (db : Db) (h : other ≠ runId) :
    (db.deleteReservations runId).view other = db.view other := by
  simp only [view,deleteReservations,heldBy,Tables.get_erase,if_neg h]

theorem updateRun_of_get (f : RunRow → RunRow) (h : db.runs[runId]? = some row) :
    db.updateRun runId f = db.setRun runId (f row) := by
  simp [updateRun,h]

@[simp] theorem view_touchWorker (db : Db) (now : Time) (workerId runId : String) :
    (db.touchWorker now workerId).view runId = db.view runId := by
  unfold touchWorker
  split <;> rfl

@[simp] theorem workspaces_touchWorker (db : Db) (now : Time) (workerId : String) :
    (db.touchWorker now workerId).workspaces = db.workspaces := by
  unfold touchWorker
  split <;> rfl

@[simp] theorem activeRun_eq_ok :
    db.activeRun runId = .ok row ↔ db.runs[runId]? = some row ∧ row.state.active = true := by
  simp only [activeRun,steps_ok]
  constructor
  · rintro ⟨_,hrow,_,hactive,rfl⟩
    exact ⟨hrow,hactive⟩
  · rintro ⟨hrow,hactive⟩
    exact ⟨row,hrow,(),hactive,rfl⟩

end Db

theorem RunWrite.setRun (hrow : db.runs[runId]? = some row)
    (step : RunStep resources db runId kind ⟨some row,db.heldBy runId,db.receipts[runId]?⟩
      ⟨some row',db.heldBy runId,db.receipts[runId]?⟩) :
    RunWrite resources kind db (db.setRun runId row') runId where
  others := fun _ h => db.view_setRun_ne row' h
  step := by
    rw [Db.view_setRun_self]
    simpa only [Db.view,hrow] using step
  initiativeStatus := rfl
  specs := rfl
  events := rfl
  nextEventId := rfl

theorem RunWrite.finish (hrow : db.runs[runId]? = some row) (identity : row'.identity = row.identity)
    (active : row.state.active = true) (failure : row'.state ∈ failureStates) :
    RunWrite resources .plain db ((db.setRun runId row').deleteReservations runId) runId where
  others := fun _ h => by rw [Db.view_deleteReservations_ne _ h,db.view_setRun_ne row' h]
  step := by
    have hview : ((db.setRun runId row').deleteReservations runId).view runId =
        ⟨some row',∅,db.receipts[runId]?⟩ := by
      rw [Db.view,Db.heldBy_deleteReservations_self]
      simp [Db.deleteReservations,Db.setRun]
    rw [hview]
    simpa only [Db.view,hrow] using RunStep.finish identity active failure
  initiativeStatus := rfl
  specs := rfl
  events := rfl
  nextEventId := rfl

theorem RunWrite.congr (write : RunWrite resources kind db db' runId)
    (views : ∀ other, db''.view other = db'.view other)
    (initiativeStatus : db''.initiativeStatus = db'.initiativeStatus) (specs : db''.specs = db'.specs)
    (events : db''.events = db'.events) (nextEventId : db''.nextEventId = db'.nextEventId) :
    RunWrite resources kind db db'' runId where
  others := fun other h => by rw [views,write.others other h]
  step := by rw [views]; exact write.step
  initiativeStatus := by rw [initiativeStatus,write.initiativeStatus]
  specs := by rw [specs,write.specs]
  events := by rw [events,write.events]
  nextEventId := by rw [nextEventId,write.nextEventId]

theorem RunWrite.of_workers {workers : Table Worker}
    (write : RunWrite resources kind { db with workers := workers } db' runId) :
    RunWrite resources kind db db' runId where
  others := write.others
  step := by
    have hstep : RunStep resources { db with workers := workers } runId kind (db.view runId) (db'.view runId) :=
      write.step
    generalize db.view runId = v at hstep ⊢
    generalize db'.view runId = v' at hstep ⊢
    cases hstep <;> constructor <;> assumption
  initiativeStatus := write.initiativeStatus
  specs := write.specs
  events := write.events
  nextEventId := write.nextEventId

theorem RunWrite.idle (resources : Resources) (db : Db) (runId : String)
    (quiet : kind = .plain ∨ kind = .workspace ∨ kind = .activity := by decide) :
    RunWrite resources kind db db runId :=
  ⟨fun _ _ => rfl,.idle _ quiet,rfl,rfl,rfl,rfl⟩

theorem RunWrite.touchWorker (write : RunWrite resources kind db db' runId) (now : Time) (workerId : String) :
    RunWrite resources kind db (db'.touchWorker now workerId) runId := by
  refine write.congr (db'.view_touchWorker now workerId) ?_ ?_ ?_ ?_ <;>
    (unfold Db.touchWorker; split <;> rfl)

theorem RunWrite.setWorkspace (write : RunWrite resources kind db db' runId) (other : String) (row : WorkspaceRow) :
    RunWrite resources kind db (db'.setWorkspace other row) runId :=
  write.congr (fun _ => rfl) rfl rfl rfl rfl

theorem Move.of_runEvent {payload : Json} (journal : db'.runEvent sha eventType payload runId = .ok db'')
    (write : RunWrite resources kind db db' runId) (taskStatus : db'.taskStatus = db.taskStatus)
    (ordinary : eventType.ordinary = true) (incomplete : kind ≠ .complete := by decide)
    (workspaces : kind ≠ .workspace → db'.workspaces = db.workspaces := by exact fun _ => rfl) :
    Move sha resources kind db db'' := by
  have hjournal : db'.runEvents sha runId [(eventType,payload,none)] = .ok db'' := by
    simp only [Db.runEvents,bind_eq_ok]
    exact ⟨db'',journal,rfl⟩
  exact .run write taskStatus incomplete (by simp) (by simpa using ordinary) hjournal workspaces (by simp)

theorem Move.of_runEvents {mid : Db} {first second : EventType} {p q : Json}
    (hfirst : db'.runEvent sha first p runId = .ok mid) (hsecond : mid.runEvent sha second q runId = .ok db'')
    (write : RunWrite resources kind db db' runId) (taskStatus : db'.taskStatus = db.taskStatus)
    (ordinary : first.ordinary = true ∧ second.ordinary = true) (workspaces : db'.workspaces = db.workspaces)
    (incomplete : kind ≠ .complete := by decide) :
    Move sha resources kind db db'' := by
  have hjournal : db'.runEvents sha runId [(first,p,none),(second,q,none)] = .ok db'' := by
    simp only [Db.runEvents,bind_eq_ok]
    exact ⟨mid,hfirst,db'',hsecond,rfl⟩
  exact .run write taskStatus incomplete (by simp) (by simpa using ordinary) hjournal (fun _ => workspaces) (by simp)

end Bureau
