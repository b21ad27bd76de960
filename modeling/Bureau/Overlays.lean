import Bureau.Registry

/-!
Effective task states. A terminal row of the store counts only for the task and plan
revision it was written for, and a verified one only with the receipt it cites.
-/

namespace Bureau

open Transactions

def loadValidatedStoredReceipt (E : Env) (runId : String) (row : ReceiptRow) : Result Json := do
  require row.receipt.isObj (.state ("stored receipt for run " ++ runId ++ " must be an object"))
  requireNone (E.schemaError "receipt" row.receipt)
  require (row.receipt.getStr? "run_id" = some runId)
    (.state ("stored receipt run_id mismatch for run " ++ runId))
  let observed := sha256Json E.sha (row.receipt.pop "receipt_sha256")
  require (row.receipt.getStr? "receipt_sha256" = some observed && row.receiptSha256 = observed)
    (.state ("stored receipt integrity mismatch for run " ++ runId))
  return row.receipt

/-- The steps of a rebind chain carry consecutive revisions, linked digests and increasing events.
The result is the digest after the last step. -/
def rebindChain : List Json → Int → Json → Int → Option Json
  | [], _, digest, _ => some digest
  | step :: rest, revision, digest, lastEvent =>
    match (step.get? "event_id").bind Json.int? with
    | some event =>
      if step.get? "from_revision" = some (.num revision) ∧
          step.get? "to_revision" = some (.num (revision+1)) ∧
          (step.get? "from_spec_sha256").getD .null = digest ∧ lastEvent < event then
        rebindChain rest (revision+1) ((step.get? "to_spec_sha256").getD .null) event
      else none
    | none => none

def rebindVerificationFields : List String :=
  ["baseline_revision","kind","orphan_event_id","plan_sha256","rebind_chain_sha256","rebind_steps",
    "run_id","schema_version","source_task_sha256","source_task_spec_sha256","task_id",
    "transition_count","verified_revision","verified_task_sha256","verified_task_spec_sha256"]

/-- `_validated_historical_repository_rebind_verification`. -/
def validHistoricalRebindVerification (E : Env) (value : Json) : Bool :=
  value.hasExactly rebindVerificationFields &&
  value.get? "schema_version" = some (.num 1) &&
  value.getStr? "kind" = some "bureau_historical_repository_rebind_verification" &&
  match (value.get? "baseline_revision").bind Json.int?, (value.get? "verified_revision").bind Json.int?,
      (value.get? "orphan_event_id").bind Json.int?, (value.get? "transition_count").bind Json.int?,
      (value.get? "rebind_steps").bind Json.arr? with
  | some baseline, some verified, some orphan, some count, some steps =>
    1 ≤ baseline && baseline < verified && 1 ≤ orphan && !steps.isEmpty &&
      count = steps.length && count = verified-baseline &&
      value.getStr? "rebind_chain_sha256" = some (sha256Json E.sha (.arr steps)) &&
      rebindChain steps baseline ((value.get? "source_task_spec_sha256").getD .null) orphan =
        some ((value.get? "verified_task_spec_sha256").getD .null)
  | _, _, _, _, _ => false

def receiptsWithDigest (db : Db) (digest : String) : List (String × ReceiptRow) :=
  db.receipts.toList.filter fun item => item.2.receiptSha256 = digest

/-- The checks of one canonical receipt against the current task and plan digest. -/
def receiptBinds (E : Env) (task : Task) (plan digest runId : String) (row : ReceiptRow) : Result Bool :=
  match loadValidatedStoredReceipt E runId row with
  | .error (.document message) => .error (.document message)
  | .error _ => .ok false
  | .ok receipt =>
    if receipt.getStr? "task_id" = some task.id ∧ receipt.getStr? "plan_sha256" = some plan ∧
        receipt.getStr? "receipt_sha256" = some digest then
      if receipt.getStr? "task_sha256" = some task.sha256 then .ok true
      else
        match receipt.get? "historical_repository_rebind" with
        | some transfer =>
          .ok (validHistoricalRebindVerification E transfer &&
            transfer.getStr? "run_id" = some runId && transfer.getStr? "task_id" = some task.id &&
            transfer.getStr? "plan_sha256" = some plan &&
            transfer.get? "source_task_sha256" = receipt.get? "task_sha256" &&
            transfer.getStr? "verified_task_sha256" = some task.sha256)
        | none => .ok false
    else .ok false

/-- `_task_status_receipt_binds_current_revision`: rows without a receipt digest, and rows from
before durable receipts, are accepted. -/
def taskStatusReceiptBindsCurrentRevision (E : Env) (db : Db) (task : Task) (plan : String)
    (row : TaskStatusRow) : Result Bool :=
  match row.receiptSha256 with
  | none => .ok true
  | some digest =>
    if validDigest digest then
      match receiptsWithDigest db digest with
      | [] => .ok true
      | [(runId,receipt)] => receiptBinds E task plan digest runId receipt
      | _ => .ok false
    else .ok true

def overlayOf (E : Env) (registry : Registry) (db : Db) (task : Task) : Result (Option TaskState) := do
  if task.state.terminal then return some task.state
  else
    let plan ← planSha256 E.sha registry task.initiative
    match db.taskStatus[task.id]? with
    | none => return none
    | some row =>
      if !row.state.terminal then return some row.state
      else if row.taskSha256 = task.sha256 ∧ row.planSha256 = plan then
        if row.state = .verified then
          if ← taskStatusReceiptBindsCurrentRevision E db task plan row then return some row.state
          else return some .stale
        else return some row.state
      else return some .stale

def overlays (E : Env) (registry : Registry) (db : Db) : Result (Table TaskState) :=
  Tables.traverse (fun _ task => overlayOf E registry db task) registry.tasks

def effectiveState (overlay : Table TaskState) (id : String) (task : Task) : TaskState :=
  (overlay[id]?).getD task.state

theorem overlays_get {E : Env} {registry : Registry} {db : Db} {overlay : Table TaskState}
    (h : overlays E registry db = .ok overlay) {id : String} {task : Task}
    (htask : registry.tasks[id]? = some task) : overlayOf E registry db task = .ok overlay[id]? :=
  Tables.traverse_get h htask

end Bureau
