import Bureau.RunLifecycle

/-!
Bound activity. A heartbeat that names the whole binding of its run is recorded once per activity id.
The request is checked against the run before anything outside is observed, and again inside the
transaction that writes.
-/

namespace Bureau

open Transactions

variable {row : RunRow} {evidence value : Json} {activityId name runId s : String} {initiative : Option String}
    {eventType : EventType} {db : Db} {sha : Sha}

inductive ExternalSnapshot where
  | unbound
  | bound (system id state : String) (observedAt : Time)
  deriving DecidableEq

/-- A request that passed `_activity_request`. -/
structure Activity where
  activityId : String
  runId : String
  taskId : String
  workerId : String
  taskSha256 : String
  planSha256 : String
  envelopeSha256 : String
  external : ExternalSnapshot
  deriving DecidableEq

/-- The arguments of `_activity_request` as they come from a caller or from a stored payload. -/
structure ActivityFields where
  activityId : Json
  runId : Json
  taskId : Json
  workerId : Json
  taskSha256 : Json
  planSha256 : Json
  envelopeSha256 : Json

/-- The external arguments; `null` where one is not given. -/
structure ExternalFields where
  unbound : Bool
  system : Json
  id : Json
  state : Json
  observedAt : Json

/-- What the adapter of the external system answers to `observe`. -/
inductive AdapterReading where
  | noRegistry
  | unavailable (reason : Option String)
  | failed (message : String)
  | observed (state : Option String) (observedAt : Time)

namespace BoundActivity

def kindText := "bureau.bound_activity_heartbeat"

def sourceText := "bound-activity"

def outcomeText := "succeeded"

def adapterEvidenceSource := "adapter.observe"

def unboundEvidenceSource := "exact-run-binding"

def requiredText (name : String) (value : Json) : Result String :=
  match value with
  | .str s => do
    require (s ≠ "" && strip s = s.toList)
      (.state ("bound activity " ++ name ++ " must be a non-empty trimmed string"))
    return s
  | _ => stateError ("bound activity " ++ name ++ " must be a non-empty trimmed string")

def requiredTime (name : String) (value : Json) : Result Time :=
  match value with
  | .num n => do
    require (0 ≤ n) (.state ("bound activity " ++ name ++ " must be a non-empty trimmed string"))
    return n.toNat
  | _ => stateError ("bound activity " ++ name ++ " must be a non-empty trimmed string")

def requiredDigest (name : String) (value : Json) : Result String := do
  let text ← requiredText name value
  require (validDigest text) (.state ("bound activity " ++ name ++ " must be a lowercase SHA-256 digest"))
  return text

def externalSnapshot (fields : ExternalFields) : Result ExternalSnapshot := do
  let values := [fields.system,fields.id,fields.state,fields.observedAt]
  if fields.unbound then do
    require (values.all (· = .null))
      (.state "bound activity --external-unbound cannot include external binding fields")
    return .unbound
  else do
    require (values.all (· ≠ .null))
      (.state "bound activity requires a complete external binding snapshot or --external-unbound")
    let system ← requiredText "external_system" fields.system
    let id ← requiredText "external_id" fields.id
    let state ← requiredText "external_state" fields.state
    let observedAt ← requiredTime "external_observed_at" fields.observedAt
    return .bound system id state observedAt

def activityRequest (fields : ActivityFields) (external : ExternalSnapshot) : Result Activity := do
  let activityId ← requiredText "activity_id" fields.activityId
  require (activityId.length ≤ 200) (.state "bound activity activity_id is too long")
  let runId ← requiredText "run_id" fields.runId
  let taskId ← requiredText "task_id" fields.taskId
  let workerId ← requiredText "worker_id" fields.workerId
  let taskSha256 ← requiredDigest "task_sha256" fields.taskSha256
  let planSha256 ← requiredDigest "plan_sha256" fields.planSha256
  let envelopeSha256 ← requiredDigest "envelope_sha256" fields.envelopeSha256
  return ⟨activityId,runId,taskId,workerId,taskSha256,planSha256,envelopeSha256,external⟩

end BoundActivity

namespace ExternalSnapshot

def json : ExternalSnapshot → Json
  | .unbound => .obj [("status",.str "explicitly-unbound")]
  | .bound system id state observedAt =>
    .obj [("external_id",.str id),("external_observed_at",natJson observedAt),("external_state",.str state),
      ("external_system",.str system),("status",.str "bound")]

def fields : ExternalSnapshot → ExternalFields
  | .unbound => ⟨true,.null,.null,.null,.null⟩
  | .bound system id state observedAt => ⟨false,.str system,.str id,.str state,natJson observedAt⟩

end ExternalSnapshot

namespace Activity

def fields (activity : Activity) : ActivityFields :=
  ⟨.str activity.activityId,.str activity.runId,.str activity.taskId,.str activity.workerId,.str activity.taskSha256,
    .str activity.planSha256,.str activity.envelopeSha256⟩

def json (activity : Activity) : Json :=
  .obj [("activity_id",.str activity.activityId),("envelope_sha256",.str activity.envelopeSha256),
    ("external_binding",activity.external.json),("plan_sha256",.str activity.planSha256),
    ("run_id",.str activity.runId),("task_id",.str activity.taskId),("task_sha256",.str activity.taskSha256),
    ("worker_id",.str activity.workerId)]

def payload (activity : Activity) (evidence : Json) (now : Time) : Json :=
  .obj [("activity",activity.json),("evidence",evidence),("heartbeat_at",natJson now),
    ("kind",.str BoundActivity.kindText),("outcome",.str BoundActivity.outcomeText),
    ("source",.str BoundActivity.sourceText)]

def binding (activity : Activity) : ActivityBinding :=
  match activity.external with
  | .unbound => ⟨activity.taskId,activity.workerId,activity.taskSha256,activity.planSha256,activity.envelopeSha256,
      none,none,none⟩
  | .bound system id state _ => ⟨activity.taskId,activity.workerId,activity.taskSha256,activity.planSha256,
      activity.envelopeSha256,some system,some id,some state⟩

end Activity

namespace BoundActivity

def freshActivityEvidence (activity : Activity) (reading : AdapterReading) : Result Json :=
  match activity.external with
  | .unbound =>
    .ok (.obj [("binding_status",.str "explicitly-unbound"),("source",.str unboundEvidenceSource)])
  | .bound system id _ observedAt =>
    match reading with
    | .noRegistry => stateError "bound activity external adapter registry is unavailable; rebind required"
    | .unavailable reason =>
      stateError ("bound activity external adapter '" ++ system ++ "' is unavailable" ++
        ((reason.filter (· ≠ "")).map (": " ++ ·)).getD "" ++ "; rebind required")
    | .failed message =>
      stateError ("bound activity fresh external observation failed: " ++ message ++ "; rebind required")
    | .observed state now => do
      let state ← orRaise (state.filter fun s => s = "running" || s = "succeeded")
        (.state ("bound activity fresh external state '" ++ state.getD "unknown" ++
          "' is not active; rebind required"))
      require (now ≠ observedAt)
        (.state "bound activity fresh external observation timestamp did not advance; rebind required")
      return .obj [("external_id",.str id),("external_system",.str system),("observed_at",natJson now),
        ("observed_state",.str state),("source",.str adapterEvidenceSource)]

def storedSnapshot (external : Json) : Result ExternalSnapshot := do
  require external.isObj (.state "bound activity readback external binding must be an object")
  let field (key : String) : Json := (external.get? key).getD .null
  if external.getStr? "status" = some "explicitly-unbound" then do
    require (external.hasExactly ["status"])
      (.state "bound activity readback unbound snapshot fields are not exact")
    externalSnapshot ⟨true,.null,.null,.null,.null⟩
  else if external.getStr? "status" = some "bound" then do
    require (external.hasExactly ["external_id","external_observed_at","external_state","external_system","status"])
      (.state "bound activity readback external snapshot fields are not exact")
    externalSnapshot ⟨false,field "external_system",field "external_id",field "external_state",
      field "external_observed_at"⟩
  else stateError "bound activity readback external snapshot status is invalid"

def storedEvidence (external : ExternalSnapshot) (evidence : Json) : Result Unit := do
  require evidence.isObj (.state "bound activity readback evidence must be an object")
  match external with
  | .unbound => do
    require (evidence.hasExactly ["binding_status","source"])
      (.state "bound activity readback unbound evidence fields are not exact")
    require (evidence.get? "source" = some (.str unboundEvidenceSource) &&
        evidence.get? "binding_status" = some (.str "explicitly-unbound"))
      (.state "bound activity readback unbound evidence is invalid")
  | .bound system id _ observedAt => do
    require (evidence.hasExactly ["external_id","external_system","observed_at","observed_state","source"])
      (.state "bound activity readback external evidence fields are not exact")
    require (evidence.get? "source" = some (.str adapterEvidenceSource))
      (.state "bound activity readback external evidence source is invalid")
    require (evidence.get? "external_system" = some (.str system))
      (.state "bound activity readback external evidence system is malformed")
    require (evidence.get? "external_id" = some (.str id))
      (.state "bound activity readback external evidence id is malformed")
    require ((evidence.getStr? "observed_state").any fun s => s = "running" || s = "succeeded")
      (.state "bound activity readback external evidence state is invalid")
    let seen ← requiredTime "readback evidence observed_at" ((evidence.get? "observed_at").getD .null)
    require (seen ≠ observedAt) (.state "bound activity readback external evidence timestamp is stale")

def validatedEventPayload (payload : Json) (schemaVersion : ℕ) (runId activityId : String) : Result Unit := do
  require (schemaVersion = 1) (.state "bound activity readback event schema version is unsupported")
  require (payload.hasExactly ["activity","evidence","heartbeat_at","kind","outcome","source"])
    (.state "bound activity readback payload fields are not exact")
  require (payload.get? "kind" = some (.str kindText)) (.state "bound activity readback payload kind is invalid")
  require (payload.get? "source" = some (.str sourceText))
    (.state "bound activity readback payload source is invalid")
  require (payload.get? "outcome" = some (.str outcomeText))
    (.state "bound activity readback payload outcome is invalid")
  let _ ← requiredTime "readback heartbeat_at" ((payload.get? "heartbeat_at").getD .null)
  let activity := (payload.get? "activity").getD .null
  require (activity.hasExactly ["activity_id","envelope_sha256","external_binding","plan_sha256","run_id","task_id",
      "task_sha256","worker_id"])
    (.state "bound activity readback activity fields are not exact")
  let field (key : String) : Json := (activity.get? key).getD .null
  let external ← storedSnapshot (field "external_binding")
  let validated ← activityRequest ⟨field "activity_id",field "run_id",field "task_id",field "worker_id",
    field "task_sha256",field "plan_sha256",field "envelope_sha256"⟩ external
  require (activity = validated.json) (.state "bound activity readback activity binding is malformed")
  require (validated.runId = runId) (.state "bound activity readback event run binding is malformed")
  require (validated.activityId = activityId)
    (.state "bound activity readback event activity binding is malformed")
  storedEvidence external ((payload.get? "evidence").getD .null)

/-- `_indexed_activity`: the run and the payload recorded for an activity id. -/
def indexedActivity (db : Db) (activityId : String) : Result (Option (String × Json)) :=
  match db.events.filter fun e => e.activityId = some activityId with
  | [] => .ok none
  | [row] => do
    require (row.eventType = .runHeartbeat) (.state "bound activity replay event type is invalid")
    let payload := row.payload.toJson
    require payload.isObj (.state "bound activity replay audit payload must be an object")
    let runId ← orRaise (row.runId.filter (· ≠ "")) (.state "bound activity replay event run binding is malformed")
    validatedEventPayload payload row.schemaVersion runId activityId
    return some (runId,payload)
  | _ => stateError "bound activity replay evidence is ambiguous"

/-- `_binding_mismatches`: the columns of the run row that differ from the request. -/
def bindingMismatches (runId : String) (row : RunRow) (activity : Activity) : List String :=
  let identity := [("run_id",decide (runId = activity.runId)),("task_id",decide (row.taskId = activity.taskId)),
    ("worker_id",decide (row.workerId = activity.workerId)),
    ("task_sha256",decide (row.taskSha256 = activity.taskSha256)),
    ("plan_sha256",decide (row.planSha256 = activity.planSha256)),
    ("envelope_sha256",decide (row.envelopeSha256 = activity.envelopeSha256))]
  let external := match activity.external with
    | .unbound => [("external_system",row.externalSystem.isNone),("external_id",row.externalId.isNone),
        ("external_state",row.externalState.isNone),("external_observed_at",row.externalObservedAt.isNone)]
    | .bound system id state observedAt => [("external_system",decide (row.externalSystem = some system)),
        ("external_id",decide (row.externalId = some id)),("external_state",decide (row.externalState = some state)),
        ("external_observed_at",decide (row.externalObservedAt = some observedAt))]
  ((identity ++ external).filter fun column => !column.2).map Prod.fst

/-- `_require_current_run_revision`: the run is of the current TaskSpec and plan, and its envelope is
its own. -/
def requireCurrentRunRevision (E : Env) (files : Registry) (db : Db) (runId : String) (row : RunRow) :
    Result Unit := do
  let (fresh,_,_) ← authoritativeTaskRegistry E.sha files db
  let task ← orRaise (fresh.tasks[row.taskId]?.filter fun task => task.sha256 = row.taskSha256)
    (.state "bound activity current TaskSpec differs from run")
  let plan ← planSha256 E.sha fresh task.initiative
  require (plan = row.planSha256) (.state "bound activity current plan differs from run")
  require row.envelope.isObj (.state "bound activity run envelope must be an object")
  require (sha256Json E.sha row.envelope = row.envelopeSha256)
    (.state "bound activity run envelope digest mismatch")
  requireNone (E.schemaError "execution-envelope" row.envelope)
  requireAll (fun item : String × String => row.envelope.getStr? item.1 = some item.2)
    (fun item => "bound activity run envelope " ++ item.1 ++ " mismatch")
    [("run_id",runId),("task_id",row.taskId),("worker_id",row.workerId),("task_sha256",row.taskSha256),
      ("plan_sha256",row.planSha256)]

/-- `_require_bound_activity_run`. The row and the registry are separate reads. -/
def requireBoundActivityRun (E : Env) (files : Registry) (runs revision : Db) (activity : Activity) :
    Result RunRow := do
  let row ← orRaise (runs.runs[activity.runId]?.filter (·.state.active))
    (.state ("run " ++ activity.runId ++ " is not active; bound activity requires rebind"))
  let mismatches := bindingMismatches activity.runId row activity
  require mismatches.isEmpty
    (.state ("bound activity binding drift requires rebind: " ++ ", ".intercalate mismatches))
  requireCurrentRunRevision E files revision activity.runId row
  return row

end BoundActivity

/-- What `bound_activity_heartbeat` returns. -/
structure ActivityResult where
  row : RunRow
  reservations : Table Hold
  replayed : Bool
  payload : Json
  deriving DecidableEq

/-- A call of `bound_activity_heartbeat`, with the answer of the adapter and the clock. -/
structure ActivityCall where
  files : Registry
  fields : ActivityFields
  external : ExternalFields
  reading : AdapterReading
  now : Time

/-- The committed states the reads before the transaction saw. -/
structure ActivityReads where
  run : Db
  revision : Db
  events : Db

namespace BoundActivity

/-- `_exact_activity_replay`: the stored payload where the activity id was recorded for this request. -/
def exactActivityReplay (db : Db) (row : RunRow) (activity : Activity) : Result (Option ActivityResult) := do
  match ← indexedActivity db activity.activityId with
  | none => return none
  | some (runId,payload) =>
    require (runId = activity.runId && payload.get? "activity" = some activity.json)
      (.state "bound activity activity_id was already used for another binding")
    require ((payload.get? "heartbeat_at").bind Json.int?).isSome
      (.state "bound activity replay audit is incomplete")
    return some ⟨row,db.heldBy activity.runId,true,payload⟩

/-- The transaction: every predicate is checked again before the heartbeat is written. -/
def recordActivity (E : Env) (files : Registry) (activity : Activity) (evidence : Json) (now : Time) (db : Db) :
    Result (ActivityResult × Db) := do
  let row ← requireBoundActivityRun E files db db activity
  match ← exactActivityReplay db row activity with
  | some replay => return (replay,db)
  | none =>
    let payload := activity.payload evidence now
    let written ← db.boundActivityHeartbeat E.sha now activity.runId activity.activityId activity.binding payload
    let row ← orRaise written.runs[activity.runId]? (.state "AssertionError")
    return (⟨row,written.heldBy activity.runId,false,payload⟩,written)

end BoundActivity

def ActivityCall.activity (call : ActivityCall) : Result Activity := do
  let external ← BoundActivity.externalSnapshot call.external
  BoundActivity.activityRequest call.fields external

open BoundActivity in
/-- `bound_activity_heartbeat`: a recorded request is answered by the first reads; otherwise the
external system is observed and the transaction decides. -/
def boundActivityHeartbeat (E : Env) (call : ActivityCall) (reads : ActivityReads) (db : Db) :
    Result (ActivityResult × Db) := do
  let activity ← call.activity
  let row ← requireBoundActivityRun E call.files reads.run reads.revision activity
  match ← exactActivityReplay reads.events row activity with
  | some replay => return (replay,db)
  | none =>
    let evidence ← freshActivityEvidence activity call.reading
    recordActivity E call.files activity evidence call.now db

/-- Bound activity heartbeats between the other operations of the store. -/
inductive ActivityInput where
  | heartbeat (call : ActivityCall) (reads : ActivityReads)
  | other (op : Op)

def activityStep (E : Env) (K : Contracts) (db : Db) : ActivityInput → Db
  | .heartbeat call reads => commit db ((boundActivityHeartbeat E call reads db).map Prod.snd)
  | .other op => step E K db op

/-- Only `bound_activity_heartbeat` records activities. -/
def ActivityInput.sound : ActivityInput → Prop
  | .heartbeat .. => True
  | .other op => op.kind ≠ .activity

namespace BoundActivity

@[simp] theorem requiredText_eq_ok :
    requiredText name value = .ok s ↔ value = .str s ∧ s ≠ "" ∧ strip s = s.toList := by
  unfold requiredText
  split
  · rename_i text
    simp only [steps_ok,Bool.and_eq_true,decide_eq_true_eq]
    constructor
    · rintro ⟨_,h,rfl⟩
      exact ⟨rfl,by simpa using h⟩
    · rintro ⟨h,hs⟩
      cases h
      exact ⟨(),by simpa using hs,rfl⟩
  · rename_i hother
    simp only [stateError,reduceCtorEq,false_iff,not_and]
    exact fun h => absurd h (hother s)

@[simp] theorem requiredTime_eq_ok {t : Time} :
    requiredTime name value = .ok t ↔ value = natJson t := by
  unfold requiredTime natJson
  split
  · rename_i n
    simp only [steps_ok,decide_eq_true_eq,Json.num.injEq]
    constructor
    · rintro ⟨_,h,rfl⟩
      omega
    · rintro rfl
      exact ⟨(),by omega,by omega⟩
  · rename_i hother
    simp only [stateError,reduceCtorEq,false_iff]
    exact hother _

@[simp] theorem requiredDigest_eq_ok :
    requiredDigest name value = .ok s ↔ requiredText name value = .ok s ∧ validDigest s = true := by
  simp only [requiredDigest,steps_ok]
  constructor
  · rintro ⟨_,htext,_,hdigest,rfl⟩
    exact ⟨htext,hdigest⟩
  · rintro ⟨htext,hdigest⟩
    exact ⟨s,htext,(),hdigest,rfl⟩

variable {external : ExternalSnapshot}

theorem externalSnapshot_self {fields : ExternalFields}
    (h : externalSnapshot fields = .ok external) : externalSnapshot external.fields = .ok external := by
  simp only [externalSnapshot,ite_eq_ok,steps_ok] at h
  rcases h with ⟨_,_,_,rfl⟩ | ⟨_,_,_,system,hsystem,id,hid,state,hstate,observedAt,htime,rfl⟩
  · rfl
  · have htexts := (requiredText_eq_ok.mp hsystem).2
    have hids := (requiredText_eq_ok.mp hid).2
    have hstates := (requiredText_eq_ok.mp hstate).2
    simp only [externalSnapshot,ExternalSnapshot.fields,Bool.false_eq_true,if_false,steps_ok]
    exact ⟨(),by simp [natJson],system,requiredText_eq_ok.mpr ⟨rfl,htexts⟩,id,
      requiredText_eq_ok.mpr ⟨rfl,hids⟩,state,requiredText_eq_ok.mpr ⟨rfl,hstates⟩,observedAt,
      requiredTime_eq_ok.mpr rfl,rfl⟩

theorem activityRequest_self {fields : ActivityFields} {activity : Activity}
    (h : activityRequest fields external = .ok activity) :
    activityRequest activity.fields external = .ok activity ∧ activity.external = external ∧ activity.runId ≠ "" := by
  have hcopy := h
  simp only [activityRequest,steps_ok,requiredDigest_eq_ok,requiredText_eq_ok] at h
  obtain ⟨activityId,⟨hactivity,_⟩,_,_,runId,⟨hrun,hrunId,_⟩,taskId,⟨htask,_⟩,workerId,⟨hworker,_⟩,taskSha256,
    ⟨⟨htaskSha,_⟩,_⟩,planSha256,⟨⟨hplan,_⟩,_⟩,envelopeSha256,⟨⟨henvelope,_⟩,_⟩,rfl⟩ := h
  have hfields : fields = Activity.fields ⟨activityId,runId,taskId,workerId,taskSha256,planSha256,envelopeSha256,
      external⟩ := by
    cases fields
    simp_all [Activity.fields]
  exact ⟨hfields ▸ hcopy,rfl,hrunId⟩

theorem storedSnapshot_json (h : externalSnapshot external.fields = .ok external) :
    storedSnapshot external.json = .ok external := by
  cases external with
  | unbound => rfl
  | bound system id state observedAt =>
    simp only [storedSnapshot,steps_ok,ite_eq_ok]
    refine ⟨(),rfl,.inr ⟨by simp [ExternalSnapshot.json,Json.getStr?,Json.get?,Json.field?,Json.str?],.inl ?_⟩⟩
    exact ⟨rfl,(),rfl,h⟩

theorem storedEvidence_fresh {activity : Activity} {reading : AdapterReading}
    (h : freshActivityEvidence activity reading = .ok evidence) :
    storedEvidence activity.external evidence = .ok () := by
  unfold freshActivityEvidence at h
  split at h
  · rename_i hexternal
    cases h
    rw [hexternal]
    rfl
  · rename_i system id state observedAt hexternal
    split at h
    · simp [stateError] at h
    · simp [stateError] at h
    · simp [stateError] at h
    · rename_i seen now
      simp only [steps_ok,Option.filter_eq_some_iff,decide_eq_true_eq] at h
      obtain ⟨reported,⟨rfl,hreported⟩,_,hadvanced,rfl⟩ := h
      rw [hexternal]
      simp only [storedEvidence,steps_ok]
      refine ⟨(),rfl,(),rfl,(),by simp [Json.get?,Json.field?],(),by simp [Json.get?,Json.field?],(),
        by simp [Json.get?,Json.field?],(),?_,now,?_,?_⟩
      · simpa [Json.getStr?,Json.get?,Json.field?,Json.str?] using hreported
      · exact requiredTime_eq_ok.mpr (by simp [Json.get?,Json.field?])
      · simpa using hadvanced

theorem validatedEventPayload_payload {call : ActivityCall} {activity : Activity} {reading : AdapterReading}
    (hactivity : call.activity = .ok activity) (hevidence : freshActivityEvidence activity reading = .ok evidence)
    (now : Time) :
    validatedEventPayload (activity.payload evidence now) 1 activity.runId activity.activityId = .ok () := by
  simp only [ActivityCall.activity,bind_eq_ok] at hactivity
  obtain ⟨external,hexternal,hrequest⟩ := hactivity
  obtain ⟨hself,rfl,_⟩ := activityRequest_self hrequest
  simp only [validatedEventPayload,steps_ok]
  refine ⟨(),rfl,(),rfl,(),by simp [Activity.payload,Json.get?,Json.field?],(),
    by simp [Activity.payload,Json.get?,Json.field?],(),by simp [Activity.payload,Json.get?,Json.field?],now,
    requiredTime_eq_ok.mpr rfl,(),rfl,activity.external,storedSnapshot_json (externalSnapshot_self hexternal),activity,
    hself,(),by simp [Activity.payload,Json.get?,Json.field?],(),by simp,(),by simp,storedEvidence_fresh hevidence⟩

end BoundActivity

def Db.activities (db : Db) (activityId : String) : List EventRow :=
  db.events.filter fun e => e.activityId = some activityId

namespace Db

variable {sha : Sha} {db db' : Db}

theorem activities_append {rows : List EventRow} (h : db'.events = db.events ++ rows)
    (hrows : ∀ row ∈ rows, row.activityId = none) (activityId : String) :
    db'.activities activityId = db.activities activityId := by
  have hnone : (rows.filter fun e => e.activityId = some activityId) = [] := by
    rw [List.filter_eq_nil_iff]
    intro row hrow
    simp [hrows row hrow]
  rw [activities,h,List.filter_append,hnone,List.append_nil,activities]

end Db

theorem Move.unbound {resources : Resources} {kind : Kind} {db' : Db} (h : Move sha resources kind db db')
    (hkind : kind ≠ .activity) :
    ∃ rows, db'.events = db.events ++ rows ∧ ∀ row ∈ rows, row.activityId = none := by
  rcases h.frame with hframe | ⟨_,⟨_,_,_,_,rfl,_⟩ | ⟨_,_,_,_,_,rfl,_⟩⟩
  · obtain ⟨rows,hevents,_,hrows⟩ := hframe.grows
    exact ⟨rows,hevents,fun row hrow => (hrows row hrow).2.2.2.2 hkind⟩
  · exact ⟨_,rfl,by simp⟩
  · exact ⟨[],by rw [List.append_nil]; rfl,by simp⟩

theorem step_activities {E : Env} {K : Contracts} {op : Op} (hop : op.kind ≠ .activity) (activityId : String) :
    (step E K db op).activities activityId = db.activities activityId := by
  refine commit_preserves (P := fun db' => Db.activities db' activityId = db.activities activityId) rfl fun db' h => ?_
  rcases apply_moves op.planned_self h with hsingle | hroutine
  · obtain ⟨rows,hrows,hunbound⟩ := hsingle.unbound hop
    exact Db.activities_append hrows hunbound activityId
  · clear h
    induction hroutine with
    | refl => rfl
    | tail _ hmove ih =>
      obtain ⟨kind,hmove,hkind⟩ := hmove
      have hne : kind ≠ .activity := by
        rcases hkind with rfl | ⟨_,rfl⟩ <;> decide
      obtain ⟨rows,hrows,hunbound⟩ := hmove.unbound hne
      rw [Db.activities_append hrows hunbound,ih]

namespace BoundActivity

variable {E : Env} {files : Registry} {activity : Activity} {evidence : Json} {now : Time} {db db' : Db}
  {result : ActivityResult}

@[simp] theorem indexedActivity_eq_none :
    indexedActivity db activityId = .ok none ↔ db.activities activityId = [] := by
  rw [indexedActivity,← Db.activities]
  split
  · rename_i hnone
    simp [hnone]
  · rename_i row hone
    simp only [hone,steps_ok,reduceCtorEq,and_false,exists_false]
  · rename_i hnone _
    simp only [stateError,reduceCtorEq,false_iff]
    exact hnone

theorem exists_of_exactActivityReplay (h : exactActivityReplay db row activity = .ok (some result)) :
    ∃ event, db.activities activity.activityId = [event] := by
  simp only [exactActivityReplay,bind_eq_ok] at h
  obtain ⟨found,hfound,h⟩ := h
  cases found with
  | none => simp [pure_eq_ok] at h
  | some found =>
    rw [indexedActivity,← Db.activities] at hfound
    split at hfound
    · simp at hfound
    · exact ⟨_,‹_›⟩
    · simp [stateError] at hfound

@[simp] theorem exactActivityReplay_eq_none :
    exactActivityReplay db row activity = .ok none ↔ db.activities activity.activityId = [] := by
  rw [← indexedActivity_eq_none,exactActivityReplay,bind_eq_ok]
  constructor
  · rintro ⟨found,hfound,h⟩
    cases found with
    | none => exact hfound
    | some found => simp only [steps_ok,reduceCtorEq,and_false,exists_false] at h
  · intro h
    exact ⟨none,h,rfl⟩

theorem replayed_of_exactActivityReplay (h : exactActivityReplay db row activity = .ok (some result)) :
    result.replayed = true := by
  simp only [exactActivityReplay,bind_eq_ok] at h
  obtain ⟨found,_,h⟩ := h
  cases found with
  | none => simp [pure_eq_ok] at h
  | some found =>
    simp only [steps_ok,Option.some.injEq] at h
    obtain ⟨_,_,_,_,rfl⟩ := h
    rfl

structure Recorded (activity : Activity) (payload : Json) (row : EventRow) : Prop where
  eventType : row.eventType = .runHeartbeat
  runId : row.runId = some activity.runId
  named : activity.runId ≠ ""
  stored : row.payload = .plain payload
  object : payload.isObj = true
  request : payload.get? "activity" = some activity.json
  heartbeat : ((payload.get? "heartbeat_at").bind Json.int?).isSome = true
  valid : validatedEventPayload payload row.schemaVersion activity.runId activity.activityId = .ok ()

theorem exactActivityReplay_recorded {payload : Json} {event : EventRow} (row : RunRow)
    (hevents : db.activities activity.activityId = [event]) (h : Recorded activity payload event) :
    exactActivityReplay db row activity = .ok (some ⟨row,db.heldBy activity.runId,true,payload⟩) := by
  have hindexed : indexedActivity db activity.activityId = .ok (some (activity.runId,payload)) := by
    rw [indexedActivity,← Db.activities,hevents]
    simp only [steps_ok,h.eventType,h.stored,Payload.toJson,h.runId]
    exact ⟨(),by simp,(),h.object,activity.runId,by simp [Option.filter,h.named],(),h.valid,rfl⟩
  simp only [exactActivityReplay,bind_eq_ok,hindexed,Except.ok.injEq]
  refine ⟨_,rfl,?_⟩
  simp only [steps_ok]
  exact ⟨(),by simp [h.request],(),h.heartbeat,trivial⟩

theorem recordActivity_eq_ok (h : recordActivity E files activity evidence now db = .ok (result,db')) :
    ∃ row, requireBoundActivityRun E files db db activity = .ok row ∧
      (db' = db ∧ exactActivityReplay db row activity = .ok (some result) ∨
        db.activities activity.activityId = [] ∧ result.replayed = false ∧
          result.payload = activity.payload evidence now ∧
          db.boundActivityHeartbeat E.sha now activity.runId activity.activityId activity.binding result.payload =
            .ok db') := by
  simp only [recordActivity,bind_eq_ok] at h
  obtain ⟨row,hrow,replay,hreplay,h⟩ := h
  refine ⟨row,hrow,?_⟩
  cases replay with
  | some replay =>
    simp only [pure_eq_ok,Prod.mk.injEq] at h
    obtain ⟨rfl,rfl⟩ := h
    exact .inl ⟨rfl,hreplay⟩
  | none =>
    simp only [steps_ok,Prod.mk.injEq] at h
    obtain ⟨written,hwritten,_,_,rfl,rfl⟩ := h
    exact .inr ⟨exactActivityReplay_eq_none.mp hreplay,rfl,rfl,hwritten⟩

end BoundActivity

section Calls

open BoundActivity

variable {E : Env} {K : Contracts} {call : ActivityCall} {reads : ActivityReads} {activity : Activity} {db db' : Db}
  {result : ActivityResult}

theorem boundActivityHeartbeat_eq_ok (h : boundActivityHeartbeat E call reads db = .ok (result,db'))
    (hactivity : call.activity = .ok activity) :
    (∃ seen row, (seen = reads.events ∨ seen = db) ∧ db' = db ∧
      exactActivityReplay seen row activity = .ok (some result)) ∨
    (∃ row evidence, requireBoundActivityRun E call.files db db activity = .ok row ∧
      freshActivityEvidence activity call.reading = .ok evidence ∧ db.activities activity.activityId = [] ∧
      result.replayed = false ∧ result.payload = activity.payload evidence call.now ∧
      db.boundActivityHeartbeat E.sha call.now activity.runId activity.activityId activity.binding result.payload =
        .ok db') := by
  simp only [boundActivityHeartbeat,bind_eq_ok,hactivity,Except.ok.injEq] at h
  obtain ⟨_,rfl,row,_,replay,hreplay,h⟩ := h
  cases replay with
  | some replay =>
    simp only [pure_eq_ok,Prod.mk.injEq] at h
    obtain ⟨rfl,rfl⟩ := h
    exact .inl ⟨reads.events,row,.inl rfl,rfl,hreplay⟩
  | none =>
    simp only [bind_eq_ok] at h
    obtain ⟨evidence,hevidence,hrecord⟩ := h
    obtain ⟨row,hrow,⟨rfl,hreplay⟩ | hwritten⟩ := recordActivity_eq_ok hrecord
    · exact .inl ⟨_,row,.inr rfl,rfl,hreplay⟩
    · exact .inr ⟨row,evidence,hrow,hevidence,hwritten⟩

theorem activity_of_boundActivityHeartbeat (h : boundActivityHeartbeat E call reads db = .ok (result,db')) :
    ∃ activity, call.activity = .ok activity := by
  simp only [boundActivityHeartbeat,bind_eq_ok] at h
  obtain ⟨activity,hactivity,_⟩ := h
  exact ⟨activity,hactivity⟩

/-- The write of a bound activity: one event under its id, and one active row that names the binding. -/
theorem boundActivityHeartbeat_write {now : Time} {binding : ActivityBinding} {payload : Json}
    (h : db.boundActivityHeartbeat sha now runId activityId binding payload = .ok db') :
    (∃ row, db.runs[runId]? = some row ∧ row.state.active = true ∧
      db'.runs = db.runs.insert runId { row with heartbeatAt := now, updatedAt := now }) ∧
    (∀ other, other ≠ activityId → db'.activities other = db.activities other) ∧
    db'.activities activityId =
      db.activities activityId ++ [db.nextRow .runHeartbeat (.plain payload) (some runId) (some activityId)] := by
  simp only [Db.boundActivityHeartbeat,steps_ok,Db.activeRun_eq_ok] at h
  obtain ⟨row,⟨hrow,hactive⟩,_,_,_,_,hevent⟩ := h
  obtain ⟨rows,rfl,hrows⟩ := Db.event_rows hevent
  have htables :
      ((db.setRun runId { row with heartbeatAt := now, updatedAt := now }).touchWorker now row.workerId).runs =
      db.runs.insert runId { row with heartbeatAt := now, updatedAt := now } ∧
      ((db.setRun runId { row with heartbeatAt := now, updatedAt := now }).touchWorker now row.workerId).events =
        db.events ∧
      ((db.setRun runId { row with heartbeatAt := now, updatedAt := now }).touchWorker now row.workerId).nextEventId =
        db.nextEventId := by
    unfold Db.touchWorker
    split <;> exact ⟨rfl,rfl,rfl⟩
  have hnone (id : String) : (rows.filter fun e => e.activityId = some id) = [] := by
    rw [List.filter_eq_nil_iff]
    intro row hrow
    simp [(hrows row hrow).2]
  refine ⟨⟨row,hrow,hactive,htables.1⟩,fun other hne => ?_,?_⟩
  · simp [Db.activities,htables.2.1,Db.nextRow,Ne.symm hne,hnone]
  · simp [Db.activities,htables.2.1,Db.nextRow,hnone,htables.2.2]

theorem activityStep_activities {input : ActivityInput} (hinput : input.sound) (activityId : String) :
    (activityStep E K db input).activities activityId = db.activities activityId ∨
      db.activities activityId = [] ∧ ∃ event, (activityStep E K db input).activities activityId = [event] := by
  cases input with
  | other op => exact .inl (step_activities hinput activityId)
  | heartbeat call reads =>
    refine commit_preserves (P := fun db' => Db.activities db' activityId = db.activities activityId ∨
      db.activities activityId = [] ∧ ∃ event, Db.activities db' activityId = [event]) (.inl rfl) fun db' h => ?_
    obtain ⟨result,h⟩ := map_snd_eq_ok.mp h
    obtain ⟨activity,hactivity⟩ := activity_of_boundActivityHeartbeat h
    rcases boundActivityHeartbeat_eq_ok h hactivity with ⟨_,_,_,rfl,_⟩ | ⟨row,evidence,_,_,hunused,_,_,hwritten⟩
    · exact .inl rfl
    · obtain ⟨_,hothers,hself⟩ := boundActivityHeartbeat_write hwritten
      by_cases hid : activityId = activity.activityId
      · subst hid
        rw [hunused] at hself
        exact .inr ⟨hunused,_,hself⟩
      · exact .inl (hothers activityId hid)

theorem activities_length_le (h : Reach (activityStep E K) (fun _ input => input.sound) (Db.fresh E.sha) db)
    (activityId : String) : (db.activities activityId).length ≤ 1 := by
  refine h.invariant (P := fun db => (Db.activities db activityId).length ≤ 1) ?_ fun before input hone hsound => ?_
  · simp [Db.activities,Db.fresh]
  · rcases activityStep_activities hsound activityId with hsame | ⟨_,event,hnew⟩
    · rw [hsame]
      exact hone
    · rw [hnew]
      exact le_refl 1

variable {event : EventRow}

theorem activities_kept {later : Db} (hone : db.activities activityId = [event])
    (h : Reach (activityStep E K) (fun _ input => input.sound) db later) : later.activities activityId = [event] := by
  refine h.invariant (P := fun db => Db.activities db activityId = [event]) hone fun before input hbefore hsound => ?_
  rcases activityStep_activities hsound activityId with hsame | ⟨hnone,_⟩
  · rw [hsame,hbefore]
  · simp [hbefore] at hnone

theorem recorded_of_boundActivityHeartbeat (hactivity : call.activity = .ok activity)
    (h : boundActivityHeartbeat E call reads db = .ok (result,db')) (hnew : result.replayed = false) :
    ∃ event, db'.activities activity.activityId = [event] ∧ Recorded activity result.payload event := by
  rcases boundActivityHeartbeat_eq_ok h hactivity with ⟨_,_,_,_,hreplay⟩ |
    ⟨row,evidence,_,hevidence,hunused,_,hpayload,hwritten⟩
  · simp [replayed_of_exactActivityReplay hreplay] at hnew
  · obtain ⟨_,_,hself⟩ := boundActivityHeartbeat_write hwritten
    rw [hunused] at hself
    refine ⟨_,hself,?_⟩
    have hrun : activity.runId ≠ "" := by
      simp only [ActivityCall.activity,bind_eq_ok] at hactivity
      obtain ⟨_,_,hrequest⟩ := hactivity
      exact (activityRequest_self hrequest).2.2
    rw [hpayload]
    exact ⟨rfl,rfl,hrun,rfl,rfl,rfl,rfl,validatedEventPayload_payload hactivity hevidence call.now⟩

/-- A request that is recorded has no further effect, whatever the first reads saw. -/
theorem activityStep_of_recorded (hactivity : call.activity = .ok activity)
    (hone : db.activities activity.activityId = [event]) : activityStep E K db (.heartbeat call reads) = db := by
  refine commit_preserves (P := fun db' => db' = db) rfl fun db' h => ?_
  obtain ⟨result,h⟩ := map_snd_eq_ok.mp h
  rcases boundActivityHeartbeat_eq_ok h hactivity with ⟨_,_,_,hsame,_⟩ | ⟨_,_,_,_,hunused,_⟩
  · exact hsame
  · simp [hone] at hunused

/-- A repeated request is answered with the recorded payload if its run passes the checks. -/
theorem boundActivityHeartbeat_repeated {payload : Json} (hactivity : call.activity = .ok activity)
    (hone : reads.events.activities activity.activityId = [event]) (hrecorded : Recorded activity payload event) :
    boundActivityHeartbeat E call reads db =
      (requireBoundActivityRun E call.files reads.run reads.revision activity).map fun row =>
        (⟨row,reads.events.heldBy activity.runId,true,payload⟩,db) := by
  simp only [boundActivityHeartbeat,hactivity]
  cases hrun : requireBoundActivityRun E call.files reads.run reads.revision activity with
  | error e => simp [Except.map,bind,Except.bind,hrun]
  | ok row =>
    have hreplay := exactActivityReplay_recorded row hone hrecorded
    simp [Except.map,bind,Except.bind,hrun,hreplay,pure,Except.pure]

theorem payload_of_recorded {payload : Json} (hactivity : call.activity = .ok activity)
    (hone : db.activities activity.activityId = [event]) (hrecorded : Recorded activity payload event)
    (hreads : Reach (activityStep E K) (fun _ input => input.sound) reads.events db)
    (h : boundActivityHeartbeat E call reads db = .ok (result,db')) :
    result.replayed = true ∧ result.payload = payload := by
  rcases boundActivityHeartbeat_eq_ok h hactivity with ⟨seen,row,hseen,_,hreplay⟩ | ⟨_,_,_,_,hunused,_⟩
  · have hfound : seen.activities activity.activityId = [event] := by
      rcases hseen with rfl | rfl
      · -- the first reads found one event, and it is still the one of the activity id
        obtain ⟨found,hevents⟩ := exists_of_exactActivityReplay hreplay
        rw [hevents,← hone,activities_kept hevents hreads]
      · exact hone
    rw [exactActivityReplay_recorded row hfound hrecorded] at hreplay
    cases hreplay
    exact ⟨rfl,rfl⟩
  · simp [hone] at hunused

theorem requireBoundActivityRun_eq_ok {files : Registry} {runs revision : Db}
    (h : requireBoundActivityRun E files runs revision activity = .ok row) :
    runs.runs[activity.runId]? = some row ∧ row.taskId = activity.taskId ∧ row.workerId = activity.workerId ∧
      row.taskSha256 = activity.taskSha256 ∧ row.planSha256 = activity.planSha256 ∧
      row.envelopeSha256 = activity.envelopeSha256 := by
  simp only [requireBoundActivityRun,steps_ok,Option.filter_eq_some_iff] at h
  obtain ⟨_,⟨hrow,_⟩,_,hbinding,_,_,rfl⟩ := h
  simp only [bindingMismatches,List.isEmpty_iff,List.map_eq_nil_iff,List.filter_eq_nil_iff,Bool.not_eq_true',
    Bool.not_eq_false] at hbinding
  rw [List.forall_mem_append] at hbinding
  exact ⟨hrow,by simpa using hbinding.1⟩

end Calls

open BoundActivity in
/-- Bound activity is recorded once per activity id. A request that was recorded has no further effect,
and it is answered with the recorded payload as long as its run passes the checks; otherwise it is
refused. A request that does not fit the run row at write time stores nothing, and no heartbeat
changes a run that is not active. -/
theorem bound_activity_once {E : Env} {K : Contracts} {db : Db}
    (h : Reach (activityStep E K) (fun _ input => input.sound) (Db.fresh E.sha) db) :
    (∀ activityId, (db.activities activityId).length ≤ 1) ∧
    (∀ call reads result db' activity, call.activity = .ok activity →
      boundActivityHeartbeat E call reads db = .ok (result,db') → result.replayed = false →
      ∀ later, Reach (activityStep E K) (fun _ input => input.sound) db' later →
      ∀ call' reads', call'.activity = .ok activity →
        activityStep E K later (.heartbeat call' reads') = later ∧
        (Reach (activityStep E K) (fun _ input => input.sound) reads'.events later → ∀ result' later',
          boundActivityHeartbeat E call' reads' later = .ok (result',later') →
          result'.replayed = true ∧ result'.payload = result.payload) ∧
        (Reach (activityStep E K) (fun _ input => input.sound) db' reads'.events →
          boundActivityHeartbeat E call' reads' later =
            (requireBoundActivityRun E call'.files reads'.run reads'.revision activity).map fun row =>
              (⟨row,reads'.events.heldBy activity.runId,true,result.payload⟩,later))) ∧
    (∀ call reads activity, call.activity = .ok activity →
      (∀ row : RunRow, db.runs[activity.runId]? = some row → ¬ (row.taskId = activity.taskId ∧
        row.workerId = activity.workerId ∧ row.taskSha256 = activity.taskSha256 ∧
        row.planSha256 = activity.planSha256 ∧ row.envelopeSha256 = activity.envelopeSha256)) →
      activityStep E K db (.heartbeat call reads) = db) ∧
    (∀ (runId : String) (row : RunRow), db.runs[runId]? = some row → row.state.active = false →
      (∀ call reads, (activityStep E K db (.heartbeat call reads)).runs[runId]? = some row) ∧
      ∀ now named workerId, (step E K db (.heartbeat now named workerId)).runs[runId]? = some row) := by
  refine ⟨activities_length_le h,?_,?_,?_⟩
  · intro call reads result db' activity hactivity hcall hnew later hlater call' reads' hactivity'
    obtain ⟨event,hone,hrecorded⟩ := recorded_of_boundActivityHeartbeat hactivity hcall hnew
    have hkept := activities_kept hone hlater
    refine ⟨activityStep_of_recorded hactivity' hkept,fun hreads result' later' hcall' => ?_,fun hreads => ?_⟩
    · exact payload_of_recorded hactivity' hkept hrecorded hreads hcall'
    · exact boundActivityHeartbeat_repeated hactivity' (activities_kept hone hreads) hrecorded
  · intro call reads activity hactivity hdrift
    refine commit_preserves (P := fun db' => db' = db) rfl fun db' hcall => ?_
    obtain ⟨result,hcall⟩ := map_snd_eq_ok.mp hcall
    rcases boundActivityHeartbeat_eq_ok hcall hactivity with ⟨_,_,_,hsame,_⟩ | ⟨row,_,hrow,_⟩
    · exact hsame
    · obtain ⟨hget,hbinding⟩ := requireBoundActivityRun_eq_ok hrow
      exact absurd hbinding (hdrift row hget)
  · intro runId row hrow hended
    have hother (written : String) (before after : RunRow) (hget : db.runs[written]? = some before)
        (hactive : before.state.active = true) : (db.runs.insert written after)[runId]? = some row := by
      have hne : runId ≠ written := by
        rintro rfl
        rw [Option.some.inj (hrow.symm.trans hget),hactive] at hended
        simp at hended
      rw [Tables.get_insert_ne _ _ hne,hrow]
    refine ⟨fun call reads => ?_,fun now named workerId => ?_⟩
    · refine commit_preserves (P := fun db' : Db => db'.runs[runId]? = some row) hrow fun db' hcall => ?_
      obtain ⟨result,hcall⟩ := map_snd_eq_ok.mp hcall
      obtain ⟨activity,hactivity⟩ := activity_of_boundActivityHeartbeat hcall
      rcases boundActivityHeartbeat_eq_ok hcall hactivity with ⟨_,_,_,rfl,_⟩ | ⟨_,_,_,_,_,_,_,hwritten⟩
      · exact hrow
      · obtain ⟨⟨before,hget,hactive,hruns⟩,_⟩ := boundActivityHeartbeat_write hwritten
        rw [hruns]
        exact hother _ _ _ hget hactive
    · refine commit_preserves (P := fun db' : Db => db'.runs[runId]? = some row) hrow fun db' hcall => ?_
      simp only [Op.apply,Db.heartbeat,steps_ok,Db.activeRun_eq_ok] at hcall
      obtain ⟨before,⟨hget,hactive⟩,_,_,hevent⟩ := hcall
      obtain ⟨_,rfl⟩ := Db.event_extends hevent
      have hruns : ((db.setRun named { before with heartbeatAt := now, updatedAt := now }).touchWorker now
          before.workerId).runs = db.runs.insert named { before with heartbeatAt := now, updatedAt := now } := by
        unfold Db.touchWorker
        split <;> rfl
      rw [Db.runs_extend,hruns]
      exact hother _ _ _ hget hactive

namespace Sample

def claimedDigest := "8ef76c7a95b45f68f3d2886d91aad7f5c7993b8b5b8c73a41944651962ffddcb"

def activityCall (now : Time) : ActivityCall where
  files := files
  fields := ⟨.str "act-1",.str "RUN-1",.str "T-1",.str "worker",.str claimedDigest,.str claimedDigest,
    .str claimedDigest⟩
  external := ⟨true,.null,.null,.null,.null⟩
  reading := .noRegistry
  now := now

def activity : Activity :=
  ⟨"act-1","RUN-1","T-1","worker",claimedDigest,claimedDigest,claimedDigest,.unbound⟩

def readsOf (db : Db) : ActivityReads := ⟨db,db,db⟩

def claimedInputs : List ActivityInput := claim.map .other

def recordedDb : Db := activityStep env contracts claimed (.heartbeat (activityCall 3) (readsOf claimed))

def failedDb : Db := activityStep env contracts recordedDb (.other (.failRun 4 "RUN-1" "lost" .failed))

theorem claimed_reach : Reach (activityStep env contracts) (fun _ input => input.sound) (Db.fresh env.sha) claimed := by
  have hrun : claimed = run (activityStep env contracts) (Db.fresh env.sha) claimedInputs := rfl
  rw [hrun]
  refine Reach.run fun input hinput db => ?_
  simp only [claimedInputs,claim,List.map_cons,List.map_nil,List.mem_cons,List.not_mem_nil,or_false] at hinput
  rcases hinput with rfl | rfl
  · exact (by decide : Kind.plain ≠ .activity)
  · exact (by decide : Kind.claim ≠ .activity)

theorem heartbeat_shown :
    (boundActivityHeartbeat env (activityCall 3) (readsOf claimed) claimed).toOption.any
        (fun r => r.2 = recordedDb && !r.1.replayed) = true ∧
      (boundActivityHeartbeat env (activityCall 9) (readsOf recordedDb) recordedDb).toOption.any
        (fun r => r.2 = recordedDb) = true ∧
      (failedDb.activities "act-1").length = 1 ∧
      boundActivityHeartbeat env (activityCall 3) (readsOf failedDb) failedDb =
        .error (.state "run RUN-1 is not active; bound activity requires rebind") := by
  decide +kernel

end Sample

/-- While the run is active the repeated request is answered with what is recorded. -/
theorem bound_activity_once_repeated : ∃ result again,
    boundActivityHeartbeat Sample.env (Sample.activityCall 3) (Sample.readsOf Sample.claimed) Sample.claimed =
        .ok (result,Sample.recordedDb) ∧
      boundActivityHeartbeat Sample.env (Sample.activityCall 9) (Sample.readsOf Sample.recordedDb) Sample.recordedDb =
        .ok (again,Sample.recordedDb) ∧
      again.replayed = true ∧ again.payload = result.payload := by
  obtain ⟨hcall,hagain,_,_⟩ := Sample.heartbeat_shown
  simp only [Option.any_eq_true,Bool.and_eq_true,decide_eq_true_eq,Bool.not_eq_true',toOption_eq_some,
    Prod.exists] at hcall hagain
  obtain ⟨result,_,hcall,rfl,hnew⟩ := hcall
  obtain ⟨again,_,hagain,rfl⟩ := hagain
  have hanswer := ((bound_activity_once (K := Sample.contracts) Sample.claimed_reach).2.1 _ _ _ _ Sample.activity rfl
    hcall hnew _ .init (Sample.activityCall 9) (Sample.readsOf Sample.recordedDb) rfl).2.1 .init again _ hagain
  exact ⟨result,again,hcall,hagain,hanswer.1,hanswer.2⟩

/-- After the run has ended the same request is refused. -/
theorem ended_run_refuses_repetition :
    Reach (activityStep Sample.env Sample.contracts) (fun _ input => input.sound) (Db.fresh Sample.env.sha)
        Sample.failedDb ∧
      (boundActivityHeartbeat Sample.env (Sample.activityCall 3) (Sample.readsOf Sample.claimed)
        Sample.claimed).map Prod.snd = .ok Sample.recordedDb ∧
      (Sample.failedDb.activities "act-1").length = 1 ∧
      boundActivityHeartbeat Sample.env (Sample.activityCall 3) (Sample.readsOf Sample.failedDb) Sample.failedDb =
        .error (.state "run RUN-1 is not active; bound activity requires rebind") := by
  obtain ⟨hcall,_,hlength,hrefused⟩ := Sample.heartbeat_shown
  simp only [Option.any_eq_true,Bool.and_eq_true,decide_eq_true_eq,toOption_eq_some,Prod.exists] at hcall
  obtain ⟨result,_,hcall,rfl,_⟩ := hcall
  refine ⟨?_,by rw [hcall]; rfl,hlength,hrefused⟩
  have hrecorded : Reach (activityStep Sample.env Sample.contracts) (fun _ input => input.sound)
      (Db.fresh Sample.env.sha) Sample.recordedDb := Sample.claimed_reach.step trivial
  exact hrecorded.step (by decide : Kind.plain ≠ .activity)

end Bureau
