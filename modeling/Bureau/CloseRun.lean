import Bureau.CloseBaseline

/-!
Closing a run: the compare-and-swap transaction that writes the receipt, the verified task
status, the succeeded run and the completion event, and the replay of a stored receipt.
-/

namespace Bureau

open Transactions

/-- The acceptance criteria of the claimed task; a plain text has the id of its position. -/
def acceptanceCriteria (envelope : Json) : List Json :=
  (((envelope.get? "task").getD .null).getArr "acceptance").zipIdx.map fun item =>
    if item.1.isObj then item.1 else .obj [("id",.str ("criterion-" ++ toString (item.2+1)))]

def hasEvidenceType (value : Json) : String → Bool
  | "object" => value.isObj
  | "string" => value.str?.isSome
  | "array" => value.arr?.isSome
  | "number" => match value with | .num _ | .bool _ => true | _ => false
  | "boolean" => match value with | .bool _ => true | _ => false
  | _ => false

/-- `_validate_evidence`: the criteria without evidence. -/
def missingEvidence (evidence : Json) : List Json → Result (List String)
  | [] => .ok []
  | criterion :: rest => do
    let key := text criterion "id"
    match (evidence.get? key).filter (· ≠ .null) with
    | none => return key :: (← missingEvidence evidence rest)
    | some value =>
      require ((nonEmptyStr? criterion "evidence_type").all (hasEvidenceType value))
        (.state ("evidence " ++ key ++ " must have type " ++ text criterion "evidence_type"))
      missingEvidence evidence rest

/-- `_require_independent_completion_evidence`. -/
def independentEvidence (criteria : List Json) : Bool :=
  !(criteria.any fun c => c.getStr? "id" = some "reposkop_checkout_ref") ||
    criteria.any fun c => c.getStr? "id" ≠ some "reposkop_checkout_ref"

def externalJson (row : RunRow) : Json :=
  if isSet row.externalSystem then
    .obj [("id",nullable row.externalId),("system",nullable row.externalSystem)]
  else .null

def receiptFields (now : Time) (runId : String) (row : RunRow) (criteria : List Json) (evidence : Json) : Json :=
  .obj [("envelope_sha256",.str row.envelopeSha256),
    ("evidence",(criteria.map fun c => text c "id").foldl
      (fun document key => document.set key ((evidence.get? key).getD .null)) (.obj [])),
    ("external",externalJson row),("plan_sha256",.str row.planSha256),("run_id",.str runId),
    ("schema_version",.num 1),("task_id",.str row.taskId),("task_sha256",.str row.taskSha256),
    ("verified_at",natJson now)]

def unsignedReceipt (now : Time) (runId : String) (row : RunRow) (criteria : List Json) (evidence : Json) : Json :=
  let base := receiptFields now runId row criteria evidence
  let base := (((row.envelope.get? "rlens_context_ref").filter Json.isObj).map
    (base.set "rlens_context_ref")).getD base
  (((row.envelope.get? "rlens_context_policy").filter Json.isObj).map (base.set "rlens_context_policy")).getD base

def signReceipt (sha : Sha) (receipt : Json) : Json :=
  receipt.set "receipt_sha256" (.str (sha256Json sha receipt))

/-- What one close is given: the registry files as the first and as the second read find them, the
typed evidence, the clock, and whether it is the closeout of a historical orphan. -/
structure CloseCall where
  before : Registry
  after : Registry
  evidence : Json
  now : Time
  historical : Bool

def runStateConflict {α : Type} (code message : String) : Result α :=
  .error (.runStateConflict code message)

def closableRow (db : Db) (call : CloseCall) (runId : String) : Result RunRow :=
  match db.runs[runId]? with
  | none => runStateConflict "unknown-run" ("unknown run " ++ runId)
  | some row =>
    if call.historical then
      match historicalCloseoutReason db runId row with
      | some reason => runStateConflict "historical-orphaned-closeout-ineligible" reason
      | none => .ok row
    else if row.state.active then .ok row
    else runStateConflict "run-not-active" ("run " ++ runId ++ " is not active")

/-- The accepted baseline of a first close, with the rebind evidence of a historical one. -/
def acceptedBaseline (E : Env) (K : Contracts) (db : Db) (historical : Bool) (runId : String) (row : RunRow)
    (revision : CloseRevision) : Result (Option Json) :=
  let claimed := row.envelope.get? "task"
  let stale : Result (Option Json) :=
    runStateConflict "stale-baseline" "run baseline is stale; task or plan changed after claim"
  if revision.planSha256 ≠ row.planSha256 then stale
  else if historical then
    match historicalRebind E K db revision claimed runId row with
    | none => stale
    | some evidence =>
      if evidence.getStr? "verified_task_sha256" = some revision.taskSha256 then
        .ok (some ((evidence.set "run_id" (.str runId)).set "plan_sha256" (.str row.planSha256)))
      else
        runStateConflict "historical-orphaned-rebind-verification-invalid"
          "historical repository rebind proof does not bind the verified task revision"
  else if matchesClaimBaseline E K db revision claimed row.taskSha256 then .ok none
  else stale

def writeClose (db : Db) (call : CloseCall) (runId : String) (row : RunRow) (revision : CloseRevision)
    (receipt : Json) (digest : String) : Db :=
  let verifiedTask := if call.historical then revision.taskSha256 else row.taskSha256
  let db := { db with
    receipts := db.receipts.insert runId ⟨receipt,digest,call.now⟩
    taskStatus := db.taskStatus.insert row.taskId
      ⟨verifiedTask,row.planSha256,.verified,some digest,call.now⟩ }
  if call.historical then db.setRun runId { row with state := .succeeded, error := none, updatedAt := call.now }
  else (db.setRun runId { row with state := .succeeded, updatedAt := call.now }).deleteReservations runId

structure CloseResult where
  receipt : Json
  idempotent : Bool
  deriving DecidableEq

/-- The transaction of `_complete_run_after_typed_evaluation`. -/
def completeRun (E : Env) (K : Contracts) (call : CloseCall) (runId : String) (db : Db) :
    Result (CloseResult × Db) :=
  match db.receipts[runId]? with
  | some stored => do
    let receipt ← loadValidatedStoredReceipt E runId stored
    return (⟨receipt,true⟩,db)
  | none => do
    let row ← closableRow db call runId
    let criteria := acceptanceCriteria row.envelope
    let missing ← missingEvidence call.evidence criteria
    require missing.isEmpty
      (.state ("missing evidence for: " ++ ", ".intercalate (missing.insertionSort (· ≤ ·))))
    require (independentEvidence criteria)
      (.state "reposkop checkout evidence requires independent Bureau acceptance evidence to complete a run")
    let unsigned := unsignedReceipt call.now runId row criteria call.evidence
    requireNone (E.schemaError "receipt" (signReceipt E.sha unsigned))
    let revision ← closeRevision E call.before db row.taskId
    let rebind ← acceptedBaseline E K db call.historical runId row revision
    let unsigned := (rebind.map (unsigned.set "historical_repository_rebind")).getD unsigned
    let receipt := signReceipt E.sha unsigned
    requireNone (E.schemaError "receipt" receipt)
    let digest := sha256Json E.sha unsigned
    let written ← (writeClose db call runId row revision receipt digest).runEvent E.sha .runCompleted
      (.obj [("receipt_sha256",.str digest)]) runId
    let rebound ← closeRevision E call.after written row.taskId
    if rebound = revision then return (⟨receipt,false⟩,written)
    else
      runStateConflict "close-revision-drift"
        "task or plan revision changed while the close was being written"

/-- The public `complete_run` replays a stored receipt and never closes an active run. -/
def replayCompletion (E : Env) (runId : String) (db : Db) : Result (CloseResult × Db) :=
  match db.receipts[runId]?, db.runs[runId]? with
  | some stored, _ => do
    let receipt ← loadValidatedStoredReceipt E runId stored
    return (⟨receipt,true⟩,db)
  | none, none => runStateConflict "unknown-run" ("unknown run " ++ runId)
  | none, some row =>
    if row.state.active then
      runStateConflict "typed-acceptance-required" ("run " ++ runId ++
        " cannot be completed directly; publish authenticated typed acceptance evidence and use the canonical " ++
        "`bureau reconcile` closure path")
    else
      runStateConflict "run-not-active" ("run " ++ runId ++ " is not active and has no completion receipt")

end Bureau
