import Bureau.CloseBaseline
import Bureau.Interleaving

/-!
`apply_runtime_refresh`: one intent is applied under the authority of a TaskSpec. The authority is
bound to the intent by a compare-and-swap, the attempt is recorded in a file that is only ever
created, the installer runs, and the result consumes the authority. Each atomic access to the store or
to a file is a step of its own, so that calls can be interleaved and can stop between any two of them.
-/

namespace Bureau

namespace RuntimeRefresh

open Transactions

/-- What ends a call: a refusal of the runtime refresh, or a file that cannot be created because it
exists. -/
inductive RuntimeRefreshError where
  | refused (code message : String)
  | fileExists (path : String)
  deriving DecidableEq

abbrev Outcome := Except RuntimeRefreshError

def bindingField := "target_binding_receipt"
def consumptionField := "consumption"

/-- An intent with the authority record it was prepared with (`_intent_authority_record`). -/
structure Intent where
  intentSha256 : String
  approvalTaskId : String
  revision : ℕ
  specSha256 : String
  contractMode : Option String
  targetSha256 : String
  mainCommit : String
  stateRoot : String
  sourcePrecondition : Option Json
  deriving DecidableEq

/-- The attempt files of an intent: `attempts/<target_sha256>` under its state root. -/
def Intent.attempt (intent : Intent) : String × String := (intent.stateRoot,intent.targetSha256)

def Intent.noEffect (intent : Intent) : String × String := (intent.stateRoot,intent.intentSha256)

/-- What `bind_runtime_refresh_authority` returns. -/
structure BoundAuthority where
  taskId : String
  revision : ℕ
  specSha256 : String
  authorityRevision : ℕ
  authoritySpecSha256 : String
  targetBindingReceipt : Json
  deriving DecidableEq

inductive Status where
  | deployed | alreadyCurrent | failed | unclear
  deriving DecidableEq

def Status.successful : Status → Bool
  | .deployed | .alreadyCurrent => true
  | .failed | .unclear => false

structure AttemptResult where
  status : Status
  intentSha256 : String
  targetSha256 : String
  mainCommit : String
  authorityTaskSpec : BoundAuthority
  effectStarted : Bool
  resultSha256 : String
  deriving DecidableEq

/-! The authority in the store. -/

def readAuthorityTask (sha : Sha) (db : Db) (taskId : String) : Outcome TaskSpecs.CurrentSpec :=
  match TaskSpecs.getCurrent sha db taskId with
  | .error _ => .error (.refused "authority-state-store-invalid" "authoritative StateStore TaskSpec read failed")
  | .ok none => .error (.refused "authority-task-missing"
    "approval_task_id is absent from the authoritative StateStore")
  | .ok (some current) => .ok current

def runtimeAuthorityMetadata (spec : Json) : Outcome Json :=
  orRaise (runtimeAuthority? spec)
    (.refused "authority-contract-missing" "TaskSpec has no runtime_refresh_authority contract")

def authorityReceipt (spec : Json) (field : String) : Option Json :=
  ((runtimeAuthority? spec).bind (·.get? field)).filter (· ≠ .null)

def setAuthorityField (spec : Json) (field : String) (value : Json) : Json :=
  match spec.get? "metadata", runtimeAuthority? spec with
  | some metadata, some authority =>
    spec.set "metadata" (metadata.set "runtime_refresh_authority" (authority.set field value))
  | _, _ => spec

/-- `_validate_authoritative_runtime_refresh_task`; `boundIntent` is the intent the authority may be
bound to, and `activation` the answer of the check of a protected publication. -/
def validateAuthoritativeTask (sha : Sha) (K : Contracts) (db : Db) (taskId target : String)
    (expected : Option (ℕ × String)) (boundIntent : Option String) (activation : Outcome Unit) : Outcome Unit := do
  require (taskId ≠ "" && validDigest target) (.refused "authority-preflight-input-invalid"
    "runtime authority preflight requires an exact task and target digest")
  let current ← readAuthorityTask sha db taskId
  require (1 ≤ current.revision && validDigest current.specSha256)
    (.refused "authority-task-invalid" "authoritative TaskSpec revision binding is invalid")
  require (expected.all fun baseline => current.revision = baseline.1 && current.specSha256 = baseline.2)
    (.refused "authority-task-drift" "authoritative TaskSpec changed after the expected preflight")
  let _ ← orRaise (runtimeRefreshAuthority K taskId current.spec)
    (.refused "authority-contract-invalid" "TaskSpec runtime_refresh_authority contract is not structurally valid")
  activation
  require (authorityReceipt current.spec consumptionField).isNone
    (.refused "authority-already-consumed" "single-use runtime authority is already consumed")
  require (((current.spec.get? "metadata").bind (·.get? "runtime_closeout")).all (· = .null))
    (.refused "authority-already-consumed" "runtime authority already has closeout evidence")
  match authorityReceipt current.spec bindingField with
  | none => return
  | some binding => do
    require (validTargetBinding K binding)
      (.refused "authority-target-binding-invalid" "runtime-refresh authority target binding is malformed")
    require (binding.getStr? "task_id" = some taskId && binding.getStr? "target_sha256" = some target)
      (.refused "authority-wrong-target" "single-use runtime authority is bound to another target")
    require (boundIntent.any fun intent => binding.getStr? "intent_sha256" = some intent)
      (.refused "authority-target-already-bound" "single-use runtime authority is already bound to an apply intent")

/-- `_validate_intent_authority_contract_generation`. -/
def validateContractGeneration (intent : Intent) (authority : Json) : Outcome Unit :=
  match intent.contractMode with
  | none => require (authority.getStr? "mode" = some "single-use-target-bound")
      (.refused "authority-runner-contract-generation-missing"
        "runtime-refresh intent predates the current authority contract generation")
  | some mode => require (authority.getStr? "mode" = some mode)
      (.refused "authority-runner-contract-generation-drift"
        "runtime-refresh intent contract generation differs from current authority")

def validateSourcePrecondition (K : Contracts) (intent : Intent) (authority : Json) : Outcome Unit := do
  let precondition ← if absent authority "source_precondition" then pure none
    else (orRaise ((authority.get? "source_precondition").bind K.sourcePrecondition)
      (.refused "authority-source-precondition-contract-invalid"
        "runtime authority source_precondition contract is malformed")).map some
  require (intent.sourcePrecondition = precondition) (.refused "source-precondition-intent-drift"
    "runtime-refresh intent source precondition differs from current authority")

/-! `bind_runtime_refresh_authority`. -/

def targetBinding (intent : Intent) (boundAt : String) : Json :=
  .obj [("authority_revision",natJson intent.revision),("authority_spec_sha256",.str intent.specSha256),
    ("bound_at",.str boundAt),("intent_sha256",.str intent.intentSha256),
    ("kind",.str "bureau_runtime_refresh_authority_target_binding"),("schema_version",.num 1),
    ("target_sha256",.str intent.targetSha256),("task_id",.str intent.approvalTaskId)]

def bindKey (taskId intentSha256 : String) : String :=
  "runtime-refresh-bind:" ++ taskId ++ ":" ++ intentSha256

/-- The document that is put: the TaskSpec read before with the binding set. -/
def boundSpec (intent : Intent) (boundAt : String) (spec : Json) : Outcome Json := do
  let authority ← runtimeAuthorityMetadata spec
  validateContractGeneration intent authority
  return setAuthorityField spec bindingField (targetBinding intent boundAt)

/-- `_put_authority_task`: the compare-and-swap. -/
def putAuthorityTask (E : Env) (time : Time) (db : Db) (spec : Json) (key : String) (expected : ℕ) (source : String) :
    Outcome (TaskSpecs.PutResult × Db) :=
  match TaskSpecs.put E time db spec key (some expected) source with
  | .ok written => .ok written
  | .error _ => .error (.refused "authority-task-cas-failed" "authoritative TaskSpec compare-and-swap failed closed")

def readBinding (sha : Sha) (K : Contracts) (db : Db) (intent : Intent) (boundAt : String)
    (changed : TaskSpecs.CurrentSpec) : Outcome BoundAuthority := do
  let readback ← readAuthorityTask sha db intent.approvalTaskId
  require (readback.revision = changed.revision && readback.specSha256 = changed.specSha256)
    (.refused "authority-target-binding-readback-failed" "target-bound TaskSpec readback differs from the CAS result")
  require ((authorityReceipt readback.spec bindingField).any (validTargetBinding K))
    (.refused "authority-target-binding-invalid" "runtime-refresh authority target binding is malformed")
  return ⟨intent.approvalTaskId,readback.revision,readback.specSha256,intent.revision,intent.specSha256,
    targetBinding intent boundAt⟩

/-! `consume_runtime_refresh_authority`. -/

def validateResultForIntent (result : AttemptResult) (intent : Intent) : Outcome Unit :=
  require (result.intentSha256 = intent.intentSha256 && result.targetSha256 = intent.targetSha256 &&
      result.mainCommit = intent.mainCommit)
    (.refused "result-intent-binding-invalid" "runtime-refresh result does not match the exact persisted intent")

def expectedConsumption (intent : Intent) (result : AttemptResult) (consumedAt : String) : Json :=
  .obj [("authority_revision",natJson intent.revision),("authority_spec_sha256",.str intent.specSha256),
    ("consumed_at",.str consumedAt),("intent_sha256",.str intent.intentSha256),
    ("kind",.str "bureau_runtime_refresh_authority_consumption"),("result_sha256",.str result.resultSha256),
    ("schema_version",.num 1),("status",.str "consumed"),("target_sha256",.str intent.targetSha256),
    ("task_id",.str intent.approvalTaskId)]

/-- `consumed_replay`: whether the authority is consumed by this very result. -/
def consumedReplay (K : Contracts) (intent : Intent) (result : AttemptResult) (spec : Json) : Outcome Bool := do
  let _ ← runtimeAuthorityMetadata spec
  match authorityReceipt spec consumptionField with
  | none => return false
  | some existing => do
    require (validConsumption K existing)
      (.refused "authority-consumption-invalid" "runtime-refresh authority consumption is malformed")
    require (existing = expectedConsumption intent result (text existing "consumed_at"))
      (.refused "authority-consumption-mismatch"
        "single-use runtime authority was consumed by another result or target")
    return true

def validateBoundAuthority (K : Contracts) (intent : Intent) (bound : BoundAuthority)
    (current : TaskSpecs.CurrentSpec) : Outcome Unit := do
  let binding := bound.targetBindingReceipt
  require (validTargetBinding K binding)
    (.refused "authority-target-binding-invalid" "runtime-refresh authority target binding is malformed")
  require (bound.taskId = intent.approvalTaskId && 1 ≤ bound.revision && validDigest bound.specSha256 &&
      bound.authorityRevision = intent.revision && bound.authoritySpecSha256 = intent.specSha256 &&
      binding.getStr? "task_id" = some intent.approvalTaskId &&
      binding.getStr? "target_sha256" = some intent.targetSha256 &&
      binding.getStr? "intent_sha256" = some intent.intentSha256)
    (.refused "authority-consumption-binding-invalid"
      "successful result TaskSpec binding differs from the original authority intent")
  require (current.revision = bound.revision && current.specSha256 = bound.specSha256)
    (.refused "authority-task-drift-after-effect"
      "authoritative TaskSpec changed after target binding and before consumption")

def validateCurrentBinding (K : Contracts) (intent : Intent) (spec : Json) : Outcome Unit := do
  let binding ← orRaise ((authorityReceipt spec bindingField).filter (validTargetBinding K))
    (.refused "authority-target-binding-invalid" "runtime-refresh authority target binding is malformed")
  require (binding.getStr? "task_id" = some intent.approvalTaskId &&
      binding.get? "authority_revision" = some (natJson intent.revision) &&
      binding.getStr? "authority_spec_sha256" = some intent.specSha256 &&
      binding.getStr? "target_sha256" = some intent.targetSha256 &&
      binding.getStr? "intent_sha256" = some intent.intentSha256)
    (.refused "authority-target-binding-mismatch" "TaskSpec target binding differs from the successful result")

def consumeKey (taskId resultSha256 : String) : String :=
  "runtime-refresh-consume:" ++ taskId ++ ":" ++ resultSha256

/-! The call. -/

/-- The store, the files of the attempts and the starts of the installer so far. The record of a
started attempt names the call that created it. -/
structure Shared where
  db : Db
  started : String × String → Option ℕ
  results : String × String → Option AttemptResult
  noEffectResults : String × String → Option AttemptResult
  installs : List Intent

structure Consumption where
  intent : Intent
  result : AttemptResult

inductive Phase where
  -- the intent is read and valid; next: is there a result without effect
  | begun
  -- next: is there a result of the target
  | noEffectAbsent
  -- next: is there a started attempt
  | resultAbsent
  -- next: the authority at the revision of the intent
  | unattempted
  -- next: the contract generation and the source precondition
  | validated
  -- next: leases, executor and the live observation
  | admitted
  -- `bind_runtime_refresh_authority`: validation, read, put, readback
  | binding (effect : Bool)
  | bindingChecked (effect : Bool)
  | bindingRead (effect : Bool) (spec : Json)
  | bindingPut (effect : Bool) (changed : TaskSpecs.CurrentSpec)
  -- next: the attempt file, or the result without effect
  | bound (effect : Bool) (authority : BoundAuthority)
  -- next: the source checkout
  | started (authority : BoundAuthority)
  -- next: the installer
  | prepared (authority : BoundAuthority)
  -- the installer was called; next: readback and result
  | installing (authority : BoundAuthority)
  -- next: the result of a failure
  | failing (authority : BoundAuthority) (effectStarted : Bool)
  -- `consume_runtime_refresh_authority`: read, read after the guard, validation, put, readback
  | consuming (item : Consumption) (guarded : Bool)
  | guarding (item : Consumption)
  | consumeRead (item : Consumption) (current : TaskSpecs.CurrentSpec)
  | consumeChecked (item : Consumption) (current : TaskSpecs.CurrentSpec)

structure Call where
  intent : Intent
  now : String
  phase : Phase

inductive Live where
  | alreadyCurrent | deployable
  deriving DecidableEq

/-- What a step reads outside the store and the attempt files. -/
structure Reading where
  activation : Outcome Unit
  filedIntent : Option Intent
  live : Live
  sourcePrepared : Bool
  installed : Bool
  resultWritten : Bool
  resultSha256 : String
  time : Time

variable (E : Env) (K : Contracts)

def Call.at (call : Call) (phase : Phase) : Option Call := some { call with phase := phase }

def resultIntent (intent : Intent) (result : AttemptResult) (filed : Option Intent) : Outcome Intent :=
  if result.intentSha256 = intent.intentSha256 then .ok intent
  else do
    let other ← orRaise (filed.filter fun other => other.intentSha256 = result.intentSha256)
      (.refused "result-intent-binding-invalid" "target result has no valid intent digest")
    require (other.approvalTaskId = intent.approvalTaskId && other.targetSha256 = intent.targetSha256 &&
        other.mainCommit = intent.mainCommit)
      (.refused "result-intent-binding-invalid" "target result was produced by another authority binding")
    return other

def lookupStep (s : Shared) (call : Call) (i : Reading) : Phase → Outcome (Option Call)
  | .begun =>
    match s.noEffectResults call.intent.noEffect with
    | none => return call.at .noEffectAbsent
    | some existing => do
      validateResultForIntent existing call.intent
      require (existing.status = .alreadyCurrent && !existing.effectStarted)
        (.refused "no-effect-result-invalid" "intent-bound no-effect result is not an already-current success")
      return call.at (.consuming ⟨call.intent,existing⟩ true)
  | .noEffectAbsent =>
    match s.results call.intent.attempt with
    | none => return call.at .resultAbsent
    | some existing => do
      let intent ← resultIntent call.intent existing i.filedIntent
      validateResultForIntent existing intent
      if existing.status.successful then return call.at (.consuming ⟨intent,existing⟩ true)
      else
        validateAuthoritativeTask E.sha K s.db call.intent.approvalTaskId call.intent.targetSha256 none
          (some call.intent.intentSha256) i.activation
        return none
  | .resultAbsent =>
    match s.started call.intent.attempt with
    | none => return call.at .unattempted
    | some _ => do
      validateAuthoritativeTask E.sha K s.db call.intent.approvalTaskId call.intent.targetSha256 none
        (some call.intent.intentSha256) i.activation
      return none
  | .unattempted => do
    validateAuthoritativeTask E.sha K s.db call.intent.approvalTaskId call.intent.targetSha256
      (some (call.intent.revision,call.intent.specSha256)) none i.activation
    return call.at .validated
  | .validated => do
    let current ← readAuthorityTask E.sha s.db call.intent.approvalTaskId
    let authority ← runtimeAuthorityMetadata current.spec
    validateContractGeneration call.intent authority
    validateSourcePrecondition K call.intent authority
    return call.at .admitted
  | .admitted => return call.at (.binding (i.live = .deployable))
  | _ => return none

def bindStep (s : Shared) (call : Call) (i : Reading) : Phase → Outcome (Shared × Option Call)
  | .binding effect => do
    validateAuthoritativeTask E.sha K s.db call.intent.approvalTaskId call.intent.targetSha256
      (some (call.intent.revision,call.intent.specSha256)) none i.activation
    return (s,call.at (.bindingChecked effect))
  | .bindingChecked effect => do
    let current ← readAuthorityTask E.sha s.db call.intent.approvalTaskId
    return (s,call.at (.bindingRead effect current.spec))
  | .bindingRead effect spec => do
    let document ← boundSpec call.intent call.now spec
    let (changed,db) ← putAuthorityTask E i.time s.db document
      (bindKey call.intent.approvalTaskId call.intent.intentSha256) call.intent.revision
      "runtime-refresh-authority-target-binding"
    return ({ s with db := db },call.at (.bindingPut effect changed.current))
  | .bindingPut effect changed => do
    let authority ← readBinding E.sha K s.db call.intent call.now changed
    return (s,call.at (.bound effect authority))
  | _ => return (s,none)

def Call.result (call : Call) (authority : BoundAuthority) (status : Status) (effectStarted : Bool)
    (resultSha256 : String) : AttemptResult :=
  ⟨status,call.intent.intentSha256,call.intent.targetSha256,call.intent.mainCommit,authority,effectStarted,resultSha256⟩

/-- The steps from the attempt file to the result. A file that exists is not created again. -/
def effectStep (id : ℕ) (s : Shared) (call : Call) (i : Reading) : Phase → Outcome (Shared × Option Call)
  | .bound true authority => do
    require (s.started call.intent.attempt).isNone (.fileExists "started.json")
    return ({ s with started := Function.update s.started call.intent.attempt (some id) },
      call.at (.started authority))
  | .bound false authority => do
    require (s.noEffectResults call.intent.noEffect).isNone (.fileExists "no-effect result")
    let result := call.result authority .alreadyCurrent false i.resultSha256
    return ({ s with noEffectResults := Function.update s.noEffectResults call.intent.noEffect (some result) },
      call.at (.consuming ⟨call.intent,result⟩ false))
  | .started authority =>
    if i.sourcePrepared then return (s,call.at (.prepared authority))
    else return (s,call.at (.failing authority false))
  | .prepared authority => return ({ s with installs := s.installs ++ [call.intent] },call.at (.installing authority))
  | .installing authority =>
    if i.installed && i.resultWritten && (s.results call.intent.attempt).isNone then
      let result := call.result authority .deployed true i.resultSha256
      return ({ s with results := Function.update s.results call.intent.attempt (some result) },
        call.at (.consuming ⟨call.intent,result⟩ false))
    else return (s,call.at (.failing authority true))
  | .failing authority effectStarted => do
    require (s.results call.intent.attempt).isNone (.fileExists "result.json")
    let result := call.result authority (if effectStarted then .unclear else .failed) effectStarted i.resultSha256
    return ({ s with results := Function.update s.results call.intent.attempt (some result) },none)
  | _ => return (s,none)

def consumeStep (s : Shared) (call : Call) (i : Reading) : Phase → Outcome (Shared × Option Call)
  | .consuming item guarded => do
    validateResultForIntent item.result item.intent
    require item.result.status.successful (.refused "authority-consumption-result-invalid"
      "only a successful terminal result can consume runtime authority")
    let current ← readAuthorityTask E.sha s.db item.intent.approvalTaskId
    if ← consumedReplay K item.intent item.result current.spec then return (s,none)
    else return (s,call.at (if guarded then .guarding item else .consumeRead item current))
  | .guarding item => do
    let current ← readAuthorityTask E.sha s.db item.intent.approvalTaskId
    if ← consumedReplay K item.intent item.result current.spec then return (s,none)
    else return (s,call.at (.consumeRead item current))
  | .consumeRead item current => do
    let authority ← runtimeAuthorityMetadata current.spec
    validateContractGeneration item.intent authority
    validateBoundAuthority K item.intent item.result.authorityTaskSpec current
    validateAuthoritativeTask E.sha K s.db item.intent.approvalTaskId item.intent.targetSha256
      (some (item.result.authorityTaskSpec.revision,item.result.authorityTaskSpec.specSha256))
      (some item.intent.intentSha256) i.activation
    validateCurrentBinding K item.intent current.spec
    return (s,call.at (.consumeChecked item current))
  | .consumeChecked item current => do
    let document := setAuthorityField current.spec consumptionField
      (expectedConsumption item.intent item.result call.now)
    let (_,db) ← putAuthorityTask E i.time s.db document
      (consumeKey item.intent.approvalTaskId item.result.resultSha256) current.revision
      "runtime-refresh-authority-consumption"
    return ({ s with db := db },none)
  | _ => return (s,none)

def applyStep (id : ℕ) (s : Shared) (call : Call) (i : Reading) : Outcome (Shared × Option Call) :=
  match call.phase with
  | .begun | .noEffectAbsent | .resultAbsent | .unattempted | .validated | .admitted =>
    (lookupStep E K s call i call.phase).map fun next => (s,next)
  | .binding _ | .bindingChecked _ | .bindingRead .. | .bindingPut .. => bindStep E K s call i call.phase
  | .bound .. | .started _ | .prepared _ | .installing _ | .failing .. => effectStep id s call i call.phase
  | .consuming .. | .guarding _ | .consumeRead .. | .consumeChecked .. => consumeStep E K s call i call.phase

/-- `apply_runtime_refresh` among other calls: a step that raises ends the call and changes nothing. -/
def advance (id : ℕ) (s : Shared) (call : Call) (i : Reading) : Shared × Option Call :=
  match applyStep E K id s call i with
  | .ok next => next
  | .error _ => (s,none)

end RuntimeRefresh

end Bureau
