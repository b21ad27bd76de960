import Bureau.Resources
import Bureau.Tables

/-!
The event journal of the StateStore: projections of the operational tables, the events
that record them, and strict replay.
-/

namespace Bureau

open Transactions

abbrev Sha := String → String

def sha256Json (sha : Sha) (document : Json) : String :=
  sha document.canonicalJson

inductive BureauError where
  | state (message : String)
  | conflict (message : String)
  | runStateConflict (code message : String)
  | noEligibleTask (rejected : List (String × List String))
  | integrity (message : String)
  | document (message : String)
  deriving DecidableEq

abbrev Result (α : Type) := Except BureauError α

def stateError {α : Type} (message : String) : Result α :=
  .error (.state message)

/-- `_valid_digest`: 64 lowercase hexadecimal digits. -/
def validDigest (s : String) : Bool :=
  s.length = 64 && s.toList.all fun c => ('0' ≤ c && c ≤ '9') || ('a' ≤ c && c ≤ 'f')

/-- What `str.strip` takes away. -/
def isspace (c : Char) : Bool :=
  (9 ≤ c.toNat && c.toNat ≤ 13) || (28 ≤ c.toNat && c.toNat ≤ 32) || (8192 ≤ c.toNat && c.toNat ≤ 8202) ||
    [133,160,5760,8232,8233,8239,8287,12288].contains c.toNat

def strip (s : String) : List Char :=
  ((s.toList.dropWhile isspace).reverse.dropWhile isspace).reverse

/-- Whether `str.strip` leaves nothing. -/
def blank (s : String) : Bool :=
  s.toList.all isspace

def nullable (value : Option String) : Json :=
  match value with
  | some s => .str s
  | none => .null

def Table.toJson (t : Table Json) : Json :=
  .obj t.toList

/-- The five projected tables, each row as the JSON object of its projected columns. -/
structure Projection where
  tasks : Table Json
  initiatives : Table Json
  claims : Table Json
  runs : Table Json
  acceptances : Table Json
  deriving DecidableEq

namespace Projection

def empty : Projection := ⟨∅,∅,∅,∅,∅⟩

def toJson (p : Projection) : Json :=
  .obj [("acceptances",p.acceptances.toJson),("claims",p.claims.toJson),
    ("initiatives",p.initiatives.toJson),("runs",p.runs.toJson),("schema_version",.num 1),
    ("tasks",p.tasks.toJson)]

end Projection

def projectionRoot (sha : Sha) (p : Projection) : String :=
  sha256Json sha p.toJson

/-- The bounded entities of a delta with their current row, or none where there is no row. -/
structure Changes where
  tasks : List (String × Option Json) := []
  initiatives : List (String × Option Json) := []
  claims : List (String × Option Json) := []
  runs : List (String × Option Json) := []
  acceptances : List (String × Option Json) := []
  deriving DecidableEq

def changesJson (changes : List (String × Option Json)) : Json :=
  changes.foldl (fun document change => document.set change.1 (change.2.getD .null)) (.obj [])

namespace Changes

def isEmpty (c : Changes) : Bool :=
  c.tasks.isEmpty && c.initiatives.isEmpty && c.claims.isEmpty && c.runs.isEmpty &&
    c.acceptances.isEmpty

def toJson (c : Changes) : Json :=
  .obj [("acceptances",changesJson c.acceptances),("claims",changesJson c.claims),
    ("initiatives",changesJson c.initiatives),("runs",changesJson c.runs),
    ("tasks",changesJson c.tasks)]

end Changes

def applyDelta (p : Projection) (c : Changes) : Projection where
  tasks := Tables.applyChanges p.tasks c.tasks
  initiatives := Tables.applyChanges p.initiatives c.initiatives
  claims := Tables.applyChanges p.claims c.claims
  runs := Tables.applyChanges p.runs c.runs
  acceptances := Tables.applyChanges p.acceptances c.acceptances

structure DiffEntry where
  entity : String
  replayed : Option Json
  current : Option Json
  deriving DecidableEq

def DiffEntry.toJson (e : DiffEntry) : Json :=
  .obj [("current",e.current.getD .null),("replayed",e.replayed.getD .null)]

structure ProjectionDiff where
  tasks : List DiffEntry := []
  initiatives : List DiffEntry := []
  claims : List DiffEntry := []
  runs : List DiffEntry := []
  acceptances : List DiffEntry := []
  deriving DecidableEq

def diffJson (entries : List DiffEntry) : Json :=
  .obj (entries.map fun e => (e.entity,e.toJson))

namespace ProjectionDiff

def toJson (d : ProjectionDiff) : Json :=
  .obj [("acceptances",diffJson d.acceptances),("claims",diffJson d.claims),
    ("initiatives",diffJson d.initiatives),("runs",diffJson d.runs),("tasks",diffJson d.tasks)]

def entries (d : ProjectionDiff) : List DiffEntry :=
  d.tasks ++ d.initiatives ++ d.claims ++ d.runs ++ d.acceptances

end ProjectionDiff

structure RepairCandidate where
  previousRepairEventId : Option ℕ
  previousRepairCandidateSha256 : Option String
  repairThroughEventId : ℕ
  segmentEventStreamSha256 : String
  firstMismatchEventId : ℕ
  lastMismatchEventId : ℕ
  mismatchCount : ℕ
  mismatchEventIds : List ℕ
  mismatchEvidenceSha256 : String
  firstMismatchStoredRootSha256 : String
  firstMismatchObservedRootSha256 : String
  historicalReplayedRootSha256 : String
  currentRootSha256 : String
  diff : ProjectionDiff
  diffSha256 : String
  deriving DecidableEq

def natJson (n : ℕ) : Json := .num n

def RepairCandidate.toJson (c : RepairCandidate) : Json :=
  .obj [("current_root_sha256",.str c.currentRootSha256),("diff",c.diff.toJson),
    ("diff_sha256",.str c.diffSha256),("first_mismatch_event_id",natJson c.firstMismatchEventId),
    ("first_mismatch_observed_root_sha256",.str c.firstMismatchObservedRootSha256),
    ("first_mismatch_stored_root_sha256",.str c.firstMismatchStoredRootSha256),
    ("historical_replayed_root_sha256",.str c.historicalReplayedRootSha256),
    ("kind",.str "bureau.state_projection_repair_candidate"),
    ("last_mismatch_event_id",natJson c.lastMismatchEventId),
    ("mismatch_count",natJson c.mismatchCount),
    ("mismatch_event_ids",.arr (c.mismatchEventIds.map natJson)),
    ("mismatch_evidence_sha256",.str c.mismatchEvidenceSha256),
    ("previous_repair_candidate_sha256",nullable c.previousRepairCandidateSha256),
    ("previous_repair_event_id",(c.previousRepairEventId.map natJson).getD .null),
    ("repair_through_event_id",natJson c.repairThroughEventId),("schema_version",.num 1),
    ("segment_event_stream_sha256",.str c.segmentEventStreamSha256)]

structure RepairPayload where
  candidate : RepairCandidate
  candidateSha256 : String
  reviewer : String
  reference : String
  reason : String
  deriving DecidableEq

/-- An event payload; `plain` is any object that is neither a projection nor a repair. -/
inductive Payload where
  | plain (document : Json)
  | baseline (trigger : String) (projection : Projection) (root : String)
  | delta (trigger : String) (changes : Changes) (root : String)
  | repair (payload : RepairPayload)
  deriving DecidableEq

def Payload.toJson : Payload → Json
  | .plain document => document
  | .baseline trigger projection root =>
    .obj [("mode",.str "baseline"),("projection",projection.toJson),("root_sha256",.str root),
      ("schema_version",.num 1),("trigger",.str trigger)]
  | .delta trigger changes root =>
    .obj [("changes",changes.toJson),("mode",.str "delta"),("root_sha256",.str root),
      ("schema_version",.num 1),("trigger",.str trigger)]
  | .repair payload =>
    .obj [("authority",.obj [("kind",.str "operator"),("reason",.str payload.reason),
        ("reference",.str payload.reference),("reviewer",.str payload.reviewer),
        ("schema_version",.num 1)]),
      ("candidate",payload.candidate.toJson),("candidate_sha256",.str payload.candidateSha256),
      ("kind",.str "bureau.state_projection_repair_checkpoint"),("schema_version",.num 1)]

inductive EventType where
  | claimIntentIssued | dispatchPrepared | dispatchRecovered | dispatchUncertain
  | externalBound | externalSucceeded | externalTerminal | initiativeStateSet
  | manualAcceptanceAuthenticated | legacyVerifiedDisposition
  | runClaimed | runClaimedCoordinated | runCompleted | runFailed | runHeartbeat
  | runOrphaned | runOrphanResumed | workspaceCreated | workspacePreserved | workspaceRemoved
  | projection | projectionRepair
  | taskSpecRevisionSet
  | other (name : String)
  deriving DecidableEq

namespace EventType

def text : EventType → String
  | .claimIntentIssued => "coordinated-claim-intent-issued"
  | .dispatchPrepared => "dispatch-prepared"
  | .dispatchRecovered => "dispatch-recovered"
  | .dispatchUncertain => "dispatch-uncertain"
  | .externalBound => "external-bound"
  | .externalSucceeded => "external-succeeded"
  | .externalTerminal => "external-terminal"
  | .initiativeStateSet => "initiative-state-set"
  | .manualAcceptanceAuthenticated => "manual-acceptance-source-authenticated"
  | .legacyVerifiedDisposition => "legacy-verified-disposition"
  | .runClaimed => "run-claimed"
  | .runClaimedCoordinated => "run-claimed-coordinated"
  | .runCompleted => "run-completed"
  | .runFailed => "run-failed"
  | .runHeartbeat => "run-heartbeat"
  | .runOrphaned => "run-orphaned"
  | .runOrphanResumed => "run-orphan-resumed"
  | .workspaceCreated => "workspace-created"
  | .workspacePreserved => "workspace-preserved"
  | .workspaceRemoved => "workspace-removed"
  | .projection => "state-projection-v1"
  | .projectionRepair => "state-projection-repair-v1"
  | .taskSpecRevisionSet => "task-spec-revision-set"
  | .other name => name

/-- Membership in `EVENT_TYPES`; TaskSpec revisions have a journal of their own. -/
def known : EventType → Bool
  | .taskSpecRevisionSet | .other _ => false
  | _ => true

end EventType

structure EventRow where
  eventId : ℕ
  runId : Option String
  eventType : EventType
  schemaVersion : ℕ
  activityId : Option String
  payload : Payload
  deriving DecidableEq

def EventRow.isRepair (row : EventRow) : Bool :=
  row.schemaVersion = 1 && row.eventType = .projectionRepair

/-- `_event_stream_row_sha256`. -/
def eventStreamRowSha256 (sha : Sha) (row : EventRow) : String :=
  sha256Json sha (.obj [("event_id",natJson row.eventId),
    ("event_schema_version",natJson row.schemaVersion),("event_type",.str row.eventType.text),
    ("payload_json",.str row.payload.toJson.canonicalJson),("run_id",nullable row.runId)])

/-- Check the named values in order; the error names the first one that fails. -/
def requireEach {α : Type} (subject : String) (ok : α → Bool) : List (String × α) → Result Unit
  | [] => .ok ()
  | (field,value) :: rest => do
    require (ok value) (.state (subject ++ " " ++ field ++ " is invalid"))
    requireEach subject ok rest

def strictlyIncreasing : List ℕ → Bool
  | a :: b :: rest => a < b && strictlyIncreasing (b :: rest)
  | _ => true

def validateProjectionRepairCandidate (sha : Sha) (c : RepairCandidate) : Result Unit := do
  require (c.previousRepairEventId.isNone = c.previousRepairCandidateSha256.isNone)
    (.state "projection repair candidate previous anchor is incomplete")
  require (c.previousRepairCandidateSha256.all validDigest)
    (.state "projection repair candidate previous digest is invalid")
  require (c.previousRepairEventId.all (· < c.repairThroughEventId))
    (.state "projection repair candidate repair horizon is not after anchor")
  require (validDigest c.segmentEventStreamSha256)
    (.state "projection repair candidate segment digest is invalid")
  require (!c.mismatchEventIds.isEmpty) (.state "projection repair candidate mismatch ids are invalid")
  require (strictlyIncreasing c.mismatchEventIds)
    (.state "projection repair candidate mismatch ids are not strictly increasing")
  require (c.mismatchCount = c.mismatchEventIds.length)
    (.state "projection repair candidate mismatch count is invalid")
  require (c.mismatchEventIds.head? = some c.firstMismatchEventId)
    (.state "projection repair candidate first mismatch id is invalid")
  require (c.mismatchEventIds.getLast? = some c.lastMismatchEventId)
    (.state "projection repair candidate last mismatch id is invalid")
  require (c.lastMismatchEventId ≤ c.repairThroughEventId)
    (.state "projection repair candidate mismatch exceeds repair horizon")
  requireEach "projection repair candidate" validDigest
    [("mismatch_evidence_sha256",c.mismatchEvidenceSha256),
      ("first_mismatch_stored_root_sha256",c.firstMismatchStoredRootSha256),
      ("first_mismatch_observed_root_sha256",c.firstMismatchObservedRootSha256),
      ("historical_replayed_root_sha256",c.historicalReplayedRootSha256),
      ("current_root_sha256",c.currentRootSha256),("diff_sha256",c.diffSha256)]
  require (c.diff.entries.all (·.entity ≠ ""))
    (.state "projection repair diff entity id is invalid")
  require (!c.diff.entries.isEmpty) (.state "projection repair candidate has no StateStore drift")
  require (sha256Json sha c.diff.toJson = c.diffSha256)
    (.state "projection repair candidate diff digest mismatches")

def validateProjectionRepairEventPayload (sha : Sha) (payload : Payload) (runId : Option String) :
    Result Unit := do
  require runId.isNone (.state "projection repair event must not be run-bound")
  match payload with
  | .repair payload =>
    validateProjectionRepairCandidate sha payload.candidate
    require (validDigest payload.candidateSha256 &&
        sha256Json sha payload.candidate.toJson = payload.candidateSha256)
      (.state "projection repair event candidate digest mismatches")
    requireEach "projection repair authority" (fun s => !blank s && s.length ≤ 1000)
      [("reviewer",payload.reviewer),("reference",payload.reference),("reason",payload.reason)]
  | _ => stateError "projection repair event fields are not exact"

def validateProjectionEventPayload (sha : Sha) : Payload → Result Unit
  | .baseline trigger projection root => do
    require (trigger ≠ "") (.state "projection event trigger is invalid")
    require (validDigest root) (.state "projection event root digest is invalid")
    require (projectionRoot sha projection = root)
      (.state "baseline projection root digest mismatches")
  | .delta trigger _ root => do
    require (trigger ≠ "") (.state "projection event trigger is invalid")
    require (validDigest root) (.state "projection event root digest is invalid")
  | _ => stateError "projection event mode is invalid"

def Json.hasExactly (document : Json) (fields : List String) : Bool :=
  match document with
  | .obj listed => listed.map Prod.fst = fields
  | _ => false

def Json.textField (document : Json) (key : String) (limit : ℕ) : Bool :=
  match document.getStr? key with
  | some s => !blank s && s.length ≤ limit
  | none => false

def validateManualAcceptanceAuthenticationPayload (document : Json) (runId : Option String) :
    Result Unit := do
  require (document.hasExactly ["authority","criterion_id","envelope_sha256","evidence_sha256","kind",
      "observation_scope","observer","plan_sha256","reviewer","run_id","schema_version","task_id",
      "task_sha256","verifier"])
    (.state "manual acceptance authentication event fields are not exact")
  require (document.get? "schema_version" = some (.num 1))
    (.state "manual acceptance authentication schema version is unsupported")
  require (document.getStr? "kind" = some "bureau.acceptance_source_authentication")
    (.state "manual acceptance authentication kind is invalid")
  require (runId.isSome && document.getStr? "run_id" = runId)
    (.state "manual acceptance authentication run binding mismatches")
  requireEach "manual acceptance authentication" (fun s => s.any fun s => !blank s)
    (["task_id","criterion_id","observation_scope","reviewer","observer"].map fun field =>
      (field,document.getStr? field))
  require (document.textField "reviewer" 200)
    (.state "manual acceptance authentication reviewer is too long")
  require (document.get? "reviewer" = document.get? "observer")
    (.state "manual acceptance authentication reviewer and observer mismatch")
  require (document.getStr? "verifier" = some "manual_observation")
    (.state "manual acceptance authentication verifier is invalid")
  require (document.getStr? "authority" = some "manual")
    (.state "manual acceptance authentication authority is invalid")
  requireEach "manual acceptance authentication" (fun s => s.any validDigest)
    (["task_sha256","plan_sha256","envelope_sha256","evidence_sha256"].map fun field =>
      (field,document.getStr? field))

def validateLegacyVerifiedDispositionPayload (document : Json) (runId : Option String) :
    Result Unit := do
  require (document.hasExactly ["disposition","evidence_ref","kind","reason","schema_version","task_id",
      "task_sha256"])
    (.state "legacy verified disposition event fields are not exact")
  require (document.get? "schema_version" = some (.num 1))
    (.state "legacy verified disposition schema version is unsupported")
  require (document.getStr? "kind" = some "bureau.legacy_verified_disposition")
    (.state "legacy verified disposition kind is invalid")
  require (document.getStr? "disposition" = some "historical_unverifiable")
    (.state "legacy verified disposition value is invalid")
  require runId.isNone (.state "legacy verified disposition must not bind a run")
  require (document.textField "task_id" 240)
    (.state "legacy verified disposition task_id is invalid")
  require ((document.getStr? "task_sha256").any validDigest)
    (.state "legacy verified disposition task_sha256 is invalid")
  requireEach "legacy verified disposition" (fun field => document.textField field 2000)
    [("reason","reason"),("evidence_ref","evidence_ref")]

def validateEvent (sha : Sha) (eventType : EventType) (payload : Payload) (runId : Option String) :
    Result Unit := do
  require eventType.known (.state ("unknown Bureau state event type: " ++ eventType.text))
  require payload.toJson.isObj (.state "Bureau state event payload must be an object")
  require (runId ≠ some "") (.state "Bureau state event run_id is invalid")
  match eventType with
  | .projection => validateProjectionEventPayload sha payload
  | .projectionRepair => validateProjectionRepairEventPayload sha payload runId
  | .manualAcceptanceAuthenticated =>
    validateManualAcceptanceAuthenticationPayload payload.toJson runId
  | .legacyVerifiedDisposition => validateLegacyVerifiedDispositionPayload payload.toJson runId
  | _ => .ok ()

/-- A projection event whose recorded root differs from the replayed one. -/
structure Mismatch where
  eventId : ℕ
  storedRootSha256 : String
  observedRootSha256 : String
  deriving DecidableEq

def Mismatch.toJson (m : Mismatch) : Json :=
  .obj [("event_id",natJson m.eventId),("observed_root_sha256",.str m.observedRootSha256),
    ("stored_root_sha256",.str m.storedRootSha256)]

structure ReplayState where
  projection : Projection
  baselineSeen : Bool
  projectionEventCount : ℕ
  repairCheckpointCount : ℕ
  lastEventId : Int
  lastRepairEventId : Option ℕ
  lastRepairCandidateSha256 : Option String
  segmentRowSha256s : List String
  segmentLastEventId : Option ℕ
  pendingMismatches : List Mismatch
  deriving DecidableEq

namespace ReplayState

def initial : ReplayState where
  projection := .empty
  baselineSeen := false
  projectionEventCount := 0
  repairCheckpointCount := 0
  lastEventId := -1
  lastRepairEventId := none
  lastRepairCandidateSha256 := none
  segmentRowSha256s := []
  segmentLastEventId := none
  pendingMismatches := []

/-- The row joins the segment that the next repair checkpoint has to cover. -/
def extendSegment (sha : Sha) (st : ReplayState) (row : EventRow) : ReplayState :=
  { st with
    segmentRowSha256s := st.segmentRowSha256s ++ [eventStreamRowSha256 sha row]
    segmentLastEventId := some row.eventId }

end ReplayState

/-- `_apply_projection_repair_diff` on one table. -/
def applyRepairEntries : List DiffEntry → Table Json → Result (Table Json)
  | [], t => .ok t
  | e :: rest, t => do
    require (t[e.entity]? = e.replayed) (.state "projection repair checkpoint replayed value differs")
    applyRepairEntries rest (Tables.applyChange t (e.entity,e.current))

def applyProjectionRepairDiff (p : Projection) (d : ProjectionDiff) : Result Projection := do
  let tasks ← applyRepairEntries d.tasks p.tasks
  let initiatives ← applyRepairEntries d.initiatives p.initiatives
  let claims ← applyRepairEntries d.claims p.claims
  let runs ← applyRepairEntries d.runs p.runs
  let acceptances ← applyRepairEntries d.acceptances p.acceptances
  return ⟨tasks,initiatives,claims,runs,acceptances⟩

def replayRepair (sha : Sha) (st : ReplayState) (eventId : ℕ) (payload : RepairPayload) :
    Result ReplayState := do
  let candidate := payload.candidate
  require st.baselineSeen (.state "projection repair checkpoint precedes migration baseline")
  let first ← orRaise st.pendingMismatches.head?
    (.state "projection repair checkpoint has no preceding mismatch")
  require (candidate.previousRepairEventId = st.lastRepairEventId)
    (.state "projection repair checkpoint previous event mismatches")
  require (candidate.previousRepairCandidateSha256 = st.lastRepairCandidateSha256)
    (.state "projection repair checkpoint previous digest mismatches")
  let horizon ← orRaise st.segmentLastEventId
    (.state "projection repair checkpoint segment is empty")
  require (candidate.repairThroughEventId = horizon)
    (.state "projection repair checkpoint horizon mismatches")
  require (candidate.segmentEventStreamSha256 = sha256Json sha (.arr (st.segmentRowSha256s.map .str)))
    (.state "projection repair checkpoint segment digest mismatches")
  require (candidate.historicalReplayedRootSha256 = projectionRoot sha st.projection)
    (.state "projection repair checkpoint historical root mismatches")
  require (candidate.mismatchEventIds = st.pendingMismatches.map (·.eventId))
    (.state "projection repair checkpoint mismatch ids differ")
  require (candidate.mismatchCount = st.pendingMismatches.length)
    (.state "projection repair checkpoint mismatch count differs")
  require (candidate.mismatchEvidenceSha256 =
      sha256Json sha (.arr (st.pendingMismatches.map Mismatch.toJson)))
    (.state "projection repair checkpoint mismatch evidence differs")
  require (candidate.firstMismatchStoredRootSha256 = first.storedRootSha256 &&
      candidate.firstMismatchObservedRootSha256 = first.observedRootSha256)
    (.state "projection repair checkpoint first mismatch differs")
  let repaired ← applyProjectionRepairDiff st.projection candidate.diff
  require (projectionRoot sha repaired = candidate.currentRootSha256)
    (.state "projection repair checkpoint target root mismatches")
  return { st with
    projection := repaired
    lastRepairEventId := some eventId
    lastRepairCandidateSha256 := some payload.candidateSha256
    segmentRowSha256s := []
    segmentLastEventId := none
    pendingMismatches := []
    repairCheckpointCount := st.repairCheckpointCount+1 }

/-- Compare the replayed root with the recorded one; a mismatch needs a later repair. -/
def checkRoot (sha : Sha) (tolerate : Bool) (st : ReplayState) (eventId : ℕ) (root : String) :
    Result ReplayState :=
  let observed := projectionRoot sha st.projection
  if observed = root then .ok st
  else do
    require tolerate (.state "projection replay root digest mismatch")
    return { st with
      pendingMismatches := st.pendingMismatches ++ [⟨eventId,root,observed⟩] }

/-- One row of `_replay_internal`; `tolerate` says that a mismatch here is not fatal yet. -/
def replayRow (sha : Sha) (tolerate : Bool) (st : ReplayState) (row : EventRow) :
    Result ReplayState := do
  require (st.lastEventId < row.eventId) (.state "state event ordering is not strictly increasing")
  let st := { st with lastEventId := row.eventId }
  if row.schemaVersion = 0 then
    return st.extendSegment sha row
  else
    require (row.schemaVersion = 1)
      (.state ("unsupported state event schema version: " ++ toString row.schemaVersion))
    validateEvent sha row.eventType row.payload row.runId
    match row.eventType, row.payload with
    | .projectionRepair, .repair payload => replayRepair sha st row.eventId payload
    | .projection, .baseline _ projection root =>
      require (!st.baselineSeen) (.state "multiple projection baselines are not allowed")
      let st := st.extendSegment sha row
      checkRoot sha tolerate { st with
        projection := projection
        baselineSeen := true
        projectionEventCount := st.projectionEventCount+1 } row.eventId root
    | .projection, .delta _ changes root =>
      require st.baselineSeen (.state "projection delta precedes migration baseline")
      let st := st.extendSegment sha row
      checkRoot sha tolerate { st with
        projection := applyDelta st.projection changes
        projectionEventCount := st.projectionEventCount+1 } row.eventId root
    | _, _ => return st.extendSegment sha row

/-- A mismatch is tolerated when unrepaired mismatches are allowed or a repair comes later. -/
def replayRows (sha : Sha) (allow : Bool) : ReplayState → List EventRow → Result ReplayState
  | st, [] => .ok st
  | st, row :: rest => do
    let st ← replayRow sha (allow || rest.any EventRow.isRepair) st row
    replayRows sha allow st rest

def replayInternal (sha : Sha) (allow : Bool) (rows : List EventRow) : Result ReplayState := do
  let st ← replayRows sha allow .initial rows
  require st.baselineSeen (.state "projection migration baseline is missing")
  require (allow || st.pendingMismatches.isEmpty) (.state "projection replay root digest mismatch")
  return st

def replay (sha : Sha) (rows : List EventRow) : Result Projection := do
  let st ← replayInternal sha false rows
  return st.projection

end Bureau
