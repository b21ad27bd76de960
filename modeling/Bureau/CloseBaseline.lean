import Bureau.Coordination

/-!
The baseline a close accepts: the task and plan revision read from their authoritative
sources, and the two evolutions of a TaskSpec that do not make the run's baseline stale.
-/

namespace Bureau

open Transactions

structure RebindParameters where
  oldResourceId : String
  newResourceId : String
  oldRepositoryPath : String
  newRepositoryPath : String
  deriving DecidableEq

/-- Document rules of the release that the close consults and that are not modelled here: ISO time
stamps, the source precondition of a runtime authority, and the preview of a rebind. -/
structure Contracts where
  validTime : String → Bool
  sourcePrecondition : Json → Option Json
  previewRebind : Json → RebindParameters → Option Json

/-- One task and plan revision derived from their authoritative sources. -/
structure CloseRevision where
  taskId : String
  initiativeId : String
  taskSha256 : String
  planSha256 : String
  authority : Authority
  specRevision : Option ℕ
  specSha256 : Option String
  deriving DecidableEq

def revisionUnavailable {α : Type} (message : String) : Result α :=
  .error (.runStateConflict "registry-revision-unavailable" message)

/-- The task document the close reads: the StateStore TaskSpec where there is one, the Git document
while the store has no TaskSpecs at all. -/
def closeTask (E : Env) (files : Registry) (db : Db) (taskId : String) :
    Result (Json × Option TaskSpecs.CurrentSpec) :=
  match TaskSpecs.getCurrent E.sha db taskId with
  | .error _ => revisionUnavailable ("authoritative StateStore TaskSpec for " ++ taskId ++ " is unavailable")
  | .ok (some current) =>
    if (E.schemaError "task" current.spec).isNone then .ok (current.spec,some current)
    else revisionUnavailable ("authoritative StateStore TaskSpec for " ++ taskId ++ " is invalid")
  | .ok none =>
    if db.taskSpecs.isEmpty then
      match files.tasks[taskId]? with
      | some task => .ok (task.raw,none)
      | none => revisionUnavailable ("authoritative task document for " ++ taskId ++ " is unavailable or ambiguous")
    else revisionUnavailable ("authoritative StateStore TaskSpec for " ++ taskId ++ " is missing")

def closeRevision (E : Env) (files : Registry) (db : Db) (taskId : String) : Result CloseRevision := do
  let (raw,current) ← closeTask E files db taskId
  match nonEmptyStr? raw "initiative" with
  | none => revisionUnavailable ("authoritative task document for " ++ taskId ++ " names no initiative")
  | some initiativeId =>
    match files.initiatives[initiativeId]? with
    | none =>
      revisionUnavailable ("authoritative initiative document for " ++ initiativeId ++ " is unavailable or ambiguous")
    | some initiative =>
      return {
        taskId := taskId
        initiativeId := initiativeId
        taskSha256 := taskRevisionSha256 E.sha raw
        planSha256 := initiative.planSha256 E.sha
        authority := if current.isSome then .stateStoreTaskSpecs else .legacyGitBootstrap
        specRevision := current.map (·.revision)
        specSha256 := current.map (·.specSha256) }

def check (c : Bool) : Option Unit :=
  if c then some () else none

@[simp] theorem check_eq_some {c : Bool} {u : Unit} : check c = some u ↔ c = true := by
  cases c <;> simp [check]

def runtimeAuthority? (spec : Json) : Option Json :=
  (((spec.get? "metadata").filter Json.isObj).bind (·.get? "runtime_refresh_authority")).filter Json.isObj

def runtimeAuthorityValues : List (String × Json) :=
  [("schema_version",.num 1),("single_use",.bool true),("required_action_class",.str "runtime_mutation"),
    ("required_claim_resource",.str "component.bureau.runtime"),
    ("target_binding",.str "candidate.target_sha256"),("forbid_foreign_task_substitution",.bool true),
    ("forbid_historical_target_reuse",.bool true),("successor_task_required_after_terminal",.bool true)]

/-- `_validate_runtime_refresh_authority_contract` for a task that may not be planned. -/
def runtimeRefreshAuthority (K : Contracts) (taskId : String) (spec : Json) : Option Json := do
  check (spec.getStr? "id" = some taskId)
  let authority ← runtimeAuthority? spec
  check (runtimeAuthorityValues.all fun item => authority.get? item.1 = some item.2)
  check (if authority.getStr? "mode" = some "single-use-target-bound" then
      absent authority "source_precondition"
    else authority.getStr? "mode" = some "single-use-target-bound-source-precondition-v1" &&
      ((authority.get? "source_precondition").bind K.sourcePrecondition).isSome)
  check (authority.get? "required_task_state" = some (.arr [.str "ready",.str "active"]))
  check (spec.getStr? "state" = some "ready" || spec.getStr? "state" = some "active")
  check ((spec.getArr "claims").any fun claim =>
    claim.getStr? "resource" = some "component.bureau.runtime" && claim.getStr? "mode" = some "write")
  return authority

def validAuthorityReceipt (K : Contracts) (receipt : Json) (kind time : String) (digests : List String) : Bool :=
  receipt.get? "schema_version" = some (.num 1) && receipt.getStr? "kind" = some kind &&
    (receipt.getStr? "task_id").isSome &&
    ((receipt.get? "authority_revision").bind Json.int?).any (1 ≤ ·) &&
    digests.all (fun field => (receipt.getStr? field).any validDigest) &&
    (receipt.getStr? time).any K.validTime

/-- `_validated_authority_target_binding`. -/
def validTargetBinding (K : Contracts) (receipt : Json) : Bool :=
  receipt.hasExactly ["authority_revision","authority_spec_sha256","bound_at","intent_sha256","kind",
    "schema_version","target_sha256","task_id"] &&
  validAuthorityReceipt K receipt "bureau_runtime_refresh_authority_target_binding" "bound_at"
    ["authority_spec_sha256","target_sha256","intent_sha256"]

/-- `_validated_authority_consumption`. -/
def validConsumption (K : Contracts) (receipt : Json) : Bool :=
  receipt.hasExactly ["authority_revision","authority_spec_sha256","consumed_at","intent_sha256","kind",
    "result_sha256","schema_version","status","target_sha256","task_id"] &&
  receipt.getStr? "status" = some "consumed" &&
  validAuthorityReceipt K receipt "bureau_runtime_refresh_authority_consumption" "consumed_at"
    ["authority_spec_sha256","target_sha256","intent_sha256","result_sha256"]

def dropAuthorityField (spec : Json) (field : String) : Json :=
  match spec.get? "metadata", runtimeAuthority? spec with
  | some metadata, some authority =>
    spec.set "metadata" (metadata.set "runtime_refresh_authority" (authority.pop field))
  | _, _ => spec

/-- The mutations that led to one revision, each with its idempotency key. -/
def mutationsTo (db : Db) (taskId : String) (revision : ℕ) : List (String × TaskSpecMutation) :=
  db.taskSpecMutations.toList.filter fun item =>
    item.2.taskId = taskId ∧ item.2.resultingRevision = revision

def refreshReceiptsAgree (sha : Sha) (taskId : String) (claimed binding consumption : Json)
    (baseline : ℕ) : Bool :=
  let digest := some (TaskSpecs.taskSpecDigest sha claimed)
  binding.get? "authority_revision" = some (natJson baseline) &&
    consumption.get? "authority_revision" = some (natJson baseline) &&
    binding.getStr? "task_id" = some taskId && consumption.getStr? "task_id" = some taskId &&
    binding.getStr? "authority_spec_sha256" = digest && consumption.getStr? "authority_spec_sha256" = digest &&
    consumption.get? "intent_sha256" = binding.get? "intent_sha256" &&
    consumption.get? "target_sha256" = binding.get? "target_sha256"

/-- The three revisions of a refresh: the claimed one, the binding and the consumption. -/
def refreshLineage (sha : Sha) (db : Db) (taskId : String) (claimed binding consumption : Json)
    (baseline : ℕ) (current : TaskSpecs.CurrentSpec) : Option Unit := do
  let revisions ← db.taskSpecRevisions[taskId]?
  let first ← revisions[baseline]?
  let second ← revisions[baseline+1]?
  let third ← revisions[baseline+2]?
  check (first.parentRevision = TaskSpecs.parentOfRevision baseline &&
    first.specSha256 = TaskSpecs.taskSpecDigest sha claimed)
  check (second.parentRevision = some baseline && second.source = "runtime-refresh-authority-target-binding")
  check (third.parentRevision = some (baseline+1) && third.source = "runtime-refresh-authority-consumption" &&
    third.specSha256 = current.specSha256)
  check (second.spec.isObj && third.spec.isObj &&
    TaskSpecs.taskSpecDigest sha second.spec = second.specSha256 &&
    TaskSpecs.taskSpecDigest sha third.spec = third.specSha256 && third.spec = current.spec)
  let authority ← runtimeAuthority? second.spec
  check (authority.get? "target_binding_receipt" = some binding && (authority.get? "consumption").isNone)
  check (dropAuthorityField second.spec "target_binding_receipt" = claimed)
  check (mutationsTo db taskId (baseline+1) =
    [("runtime-refresh-bind:" ++ taskId ++ ":" ++ text binding "intent_sha256",
      ⟨taskId,some baseline,second.specSha256,baseline+1⟩)])
  check (mutationsTo db taskId (baseline+2) =
    [("runtime-refresh-consume:" ++ taskId ++ ":" ++ text consumption "result_sha256",
      ⟨taskId,some (baseline+1),third.specSha256,baseline+2⟩)])

/-- `_runtime_refresh_closeout_evolution_matches`: the current TaskSpec is the claimed one plus
exactly the two receipts a runtime refresh writes. -/
def runtimeRefreshEvolution (E : Env) (K : Contracts) (db : Db) (taskId : String) (claimed : Json)
    (revision : ℕ) (specSha256 : String) : Option Unit := do
  check (claimed.getStr? "id" = some taskId)
  let claimedAuthority ← runtimeRefreshAuthority K taskId claimed
  check (absent claimedAuthority "target_binding_receipt" && absent claimedAuthority "consumption")
  let current ← (TaskSpecs.getCurrent E.sha db taskId).toOption.join
  check (current.revision = revision && current.specSha256 = specSha256)
  let authority ← runtimeAuthority? current.spec
  let binding ← (authority.get? "target_binding_receipt").filter Json.isObj
  let consumption ← (authority.get? "consumption").filter Json.isObj
  check (dropAuthorityField (dropAuthorityField current.spec "target_binding_receipt") "consumption" = claimed)
  check (validTargetBinding K binding && validConsumption K consumption)
  check (2 < revision)
  check (refreshReceiptsAgree E.sha taskId claimed binding consumption (revision-2))
  refreshLineage E.sha db taskId claimed binding consumption (revision-2) current

/-- `_repository_identity_rebind_transition_parameters` on the claims: exactly one claim changed,
and only in its resource. -/
def changedClaim (before after : List Json) : Option (String × String) := do
  check (before.length = after.length)
  match (before.zip after).filter fun pair => pair.1 ≠ pair.2 with
  | [(b,a)] =>
    check (b.isObj && a.isObj && b.pop "resource" = a.pop "resource")
    let old ← nonEmptyStr? b "resource"
    let new ← nonEmptyStr? a "resource"
    check (old ≠ new)
    return (old,new)
  | _ => none

def rebindTransitionParameters (before after : Json) : Option RebindParameters := do
  let beforeClaims ← (before.get? "claims").bind Json.arr?
  let afterClaims ← (after.get? "claims").bind Json.arr?
  let (oldResource,newResource) ← changedClaim beforeClaims afterClaims
  let oldPath ← ((before.get? "execution").filter Json.isObj).bind (nonEmptyStr? · "working_repository")
  let newPath ← ((after.get? "execution").filter Json.isObj).bind (nonEmptyStr? · "working_repository")
  check (oldPath ≠ newPath)
  return ⟨oldResource,newResource,oldPath,newPath⟩

/-- `repository_identity_rebind_idempotency_key`. -/
def rebindIdempotencyKey (sha : Sha) (taskId : String) (revision : ℕ) (before after : String)
    (p : RebindParameters) : String :=
  TaskSpecs.repositoryIdentityRebindPrefix ++ taskId ++ ":" ++ sha256Json sha
    (.obj [("expected_revision",natJson revision),("expected_spec_sha256",.str before),
      ("new_repository_path",.str p.newRepositoryPath),("new_resource_id",.str p.newResourceId),
      ("old_repository_path",.str p.oldRepositoryPath),("old_resource_id",.str p.oldResourceId),
      ("resulting_spec_sha256",.str after),("task_id",.str taskId)])

def specEvents (db : Db) (taskId : String) (revision : ℕ) : List (ℕ × Json) :=
  db.events.filterMap fun e =>
    match e.eventType, e.payload with
    | .taskSpecRevisionSet, .plain document =>
      if document.getStr? "task_id" = some taskId ∧ document.get? "revision" = some (natJson revision) then
        some (e.eventId,document)
      else none
    | _, _ => none

/-- One transition of a rebind chain, as it is recorded in the receipt. -/
def rebindStep (E : Env) (K : Contracts) (db : Db) (taskId : String) (orphanEvent : ℕ)
    (before after : TaskSpecs.CurrentSpec) : Option Json := do
  check (after.revision = before.revision+1 && after.parentRevision = some before.revision &&
    after.source = "repository-identity-rebind")
  let p ← rebindTransitionParameters before.spec after.spec
  check (K.previewRebind before.spec p = some after.spec)
  let key := rebindIdempotencyKey E.sha taskId before.revision before.specSha256 after.specSha256 p
  match mutationsTo db taskId after.revision, specEvents db taskId after.revision with
  | [mutation], [(eventId,payload)] =>
    check (orphanEvent < eventId)
    check (payload = TaskSpecs.revisionEventPayload after key)
    check (mutation = (key,⟨taskId,some before.revision,after.specSha256,after.revision⟩))
    return .obj [("event_id",natJson eventId),("from_revision",natJson before.revision),
      ("from_spec_sha256",.str before.specSha256),("idempotency_key",.str key),
      ("new_repository_path",.str p.newRepositoryPath),("new_resource_id",.str p.newResourceId),
      ("old_repository_path",.str p.oldRepositoryPath),("old_resource_id",.str p.oldResourceId),
      ("to_revision",natJson after.revision),("to_spec_sha256",.str after.specSha256)]
  | _, _ => none

def rebindSteps (E : Env) (K : Contracts) (db : Db) (taskId : String) (orphanEvent : ℕ) :
    TaskSpecs.CurrentSpec → List TaskSpecs.CurrentSpec → Option (List Json)
  | _, [] => some []
  | before, after :: rest => do
    let step ← rebindStep E K db taskId orphanEvent before after
    let steps ← rebindSteps E K db taskId orphanEvent after rest
    return step :: steps

def revisionsWithDigest (db : Db) (taskId digest : String) (bound : ℕ) : List ℕ :=
  (((db.taskSpecRevisions[taskId]?).getD ∅).toList.filter fun item =>
    item.2.specSha256 = digest ∧ item.1 < bound).map Prod.fst

/-- `_repository_identity_rebind_closeout_evolution_matches`: the verification evidence of a complete
rebind chain after the run was orphaned. -/
def repositoryRebindEvolution (E : Env) (K : Contracts) (db : Db) (taskId : String) (claimed : Json)
    (revision : ℕ) (specSha256 : String) (orphanEvent : ℕ) : Option Json := do
  check (claimed.getStr? "id" = some taskId && 1 ≤ orphanEvent)
  let digest := TaskSpecs.taskSpecDigest E.sha claimed
  match revisionsWithDigest db taskId digest revision with
  | [baseline] =>
    let first ← (TaskSpecs.getRevision E.sha db taskId baseline).toOption
    let current ← (TaskSpecs.getCurrent E.sha db taskId).toOption.join
    let rest ← (collect (TaskSpecs.getRevision E.sha db taskId)
      (List.range' (baseline+1) (revision-baseline))).toOption
    check (first.spec = claimed && current.revision = revision && current.specSha256 = specSha256 &&
      (rest.getLast?.map (·.spec)) = some current.spec)
    let steps ← rebindSteps E K db taskId orphanEvent first rest
    return .obj [("baseline_revision",natJson baseline),
      ("kind",.str "bureau_historical_repository_rebind_verification"),
      ("orphan_event_id",natJson orphanEvent),
      ("rebind_chain_sha256",.str (sha256Json E.sha (.arr steps))),("rebind_steps",.arr steps),
      ("schema_version",.num 1),("source_task_sha256",.str (taskRevisionSha256 E.sha claimed)),
      ("source_task_spec_sha256",.str digest),("task_id",.str taskId),
      ("transition_count",natJson steps.length),("verified_revision",natJson revision),
      ("verified_task_sha256",.str (taskRevisionSha256 E.sha current.spec)),
      ("verified_task_spec_sha256",.str specSha256)]
  | _ => none

/-- `_close_revision_task_matches_claim_baseline`. -/
def matchesClaimBaseline (E : Env) (K : Contracts) (db : Db) (revision : CloseRevision)
    (claimed : Option Json) (expected : String) : Bool :=
  if revision.authority = .stateStoreTaskSpecs then
    match claimed.filter Json.isObj, revision.specRevision, revision.specSha256 with
    | some claimed, some number, some specSha256 =>
      (revision.taskSha256 = expected && specSha256 = TaskSpecs.taskSpecDigest E.sha claimed) ||
        ((runtimeRefreshEvolution E K db revision.taskId claimed number specSha256).isSome &&
          taskRevisionSha256 E.sha claimed = expected)
    | _, _, _ => false
  else revision.taskSha256 = expected

def orphanEvents (db : Db) (runId : String) : List ℕ :=
  (db.events.filter fun e => e.runId = some runId ∧ e.eventType = .runOrphaned).map (·.eventId)

/-- `_historical_orphaned_closeout_precondition_reason`. -/
def historicalCloseoutReason (db : Db) (runId : String) (row : RunRow) : Option String :=
  let lifecycle := (db.events.filter fun e => e.runId = some runId ∧
    (e.eventType = .runOrphaned ∨ e.eventType = .runOrphanResumed ∨ e.eventType = .runCompleted)).map (·.eventType)
  if row.state ≠ .orphaned then some "run is not orphaned"
  else if row.error ≠ some orphanedStaleWorkerError then
    some "orphan reason is not the canonical stale-worker condition"
  else if row.externalSystem.isSome ∨ row.externalId.isSome ∨ row.externalState.isSome ∨
      row.externalObservedAt.isSome then
    some "historical run still has an external executor binding"
  else if !(db.heldBy runId).isEmpty then some "historical run still owns reservations"
  else if lifecycle ≠ [.runOrphaned] then
    some "historical orphan lifecycle is missing, duplicated, resumed, or completed"
  else if row.workerId = "" then some "historical orphan has no worker identity"
  else if db.activeRuns.any fun item => item.1 ≠ runId && item.2.workerId = row.workerId then
    some "historical worker identity currently owns an active run"
  else if db.activeRuns.any fun item => item.1 ≠ runId && item.2.taskId = row.taskId then
    some "historical task currently has an active run"
  else none

/-- `_historical_orphaned_repository_rebind_matches`, with the evidence it writes out. -/
def historicalRebind (E : Env) (K : Contracts) (db : Db) (revision : CloseRevision)
    (claimed : Option Json) (runId : String) (row : RunRow) : Option Json := do
  check (historicalCloseoutReason db runId row).isNone
  let claimed ← claimed.filter Json.isObj
  check (claimed.getStr? "id" = some row.taskId)
  check (taskRevisionSha256 E.sha claimed = row.taskSha256)
  check (revision.taskId = row.taskId)
  let number ← revision.specRevision
  let specSha256 ← revision.specSha256
  match orphanEvents db runId with
  | [orphanEvent] =>
    repositoryRebindEvolution E K db revision.taskId claimed number specSha256 orphanEvent
  | _ => none

end Bureau
