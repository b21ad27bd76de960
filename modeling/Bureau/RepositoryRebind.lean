import Bureau.ProjectionRepair
import Bureau.SpecIdempotency

/-!
The rebind of a repository identity. A reviewed plan lists the tasks that are bound to the old
repository; `apply_plan` compares it with the store inside one transaction, puts the rewritten
TaskSpecs and accepts the outcome only if no other binding to the old repository is left.
-/

namespace Bureau

namespace RepositoryRebind

open Transactions

/-- What the rebind takes from outside the store: character classes and percent decoding of the
language, the diagnostics of an acceptance contract and the criticality of a resource. -/
structure Rules where
  isalnum : Char → Bool
  isalpha : Char → Bool
  unquote : String → String
  acceptanceDiagnostics : Json → Json
  criticality : String → Option String

/-! Tokens in a text. -/

/-- `text.startswith(word, index)`. -/
def occursAt (word text : List Char) (index : ℕ) : Bool := word.isPrefixOf (text.drop index)

def occurrences (word text : List Char) : List ℕ :=
  (List.range (text.length+1)).filter (occursAt word text)

def endsIn (text word : List Char) : Bool := word.reverse.isPrefixOf text.reverse

/-- `text.rfind(word)`. -/
def rfind? (word text : List Char) : Option ℕ := (occurrences word text).getLast?

def repositoryTokenBefore : List Char := " \t\r\n'\"=:(,[\x7b?#&;|<>`".toList

def repositoryTokenAfter : List Char := " \t\r\n'\"/:),;]\x7d?#&|<>`".toList

def resourceIdExtra : List Char := "._-".toList

def uriSchemeExtra : List Char := "+-.".toList

variable (R : Rules)

def isShellParameterTokenBoundary (text : List Char) (index : ℕ) : Bool :=
  let before := text.take index
  match rfind? "$\x7b".toList before with
  | none => false
  | some start =>
    let body := before.drop (start+2)
    if endsIn before ['\x7d'] && !body.dropLast.contains '\x7d' then true
    else if body.contains '\x7d' then false
    else [":-","-",":=","=",":?","?",":+","+"].any fun operator => endsIn before operator.toList

def isUriAuthorityPathBoundary (text : List Char) (index : ℕ) : Bool :=
  if index = 0 || text[index]? ≠ some '/' then false
  else
    match rfind? "://".toList (text.take index) with
    | none | some 0 => false
    | some separator =>
      let authority := (text.take index).drop (separator+3)
      let scheme := (((text.take separator).reverse.takeWhile fun c => R.isalnum c ||
        uriSchemeExtra.contains c)).reverse
      let start := separator-scheme.length
      !authority.isEmpty && !authority.any (fun c => isspace c || "/?#'\"".toList.contains c) &&
        scheme.head?.any R.isalpha &&
        (start = 0 || (text[start-1]?).any repositoryTokenBefore.contains)

def decoded (value : String) : List Char :=
  if value.toList.contains '%' then (R.unquote value).toList else value.toList

def containsRepositoryPathToken (value path excluded : String) : Bool :=
  let text := decoded R value
  (occurrences path.toList text).any fun index =>
    let stop := index+path.length
    let beforeOk := index = 0 || (text[index-1]?).any repositoryTokenBefore.contains ||
      (3 ≤ index && occursAt "://".toList text (index-3)) || isUriAuthorityPathBoundary R text index ||
      isShellParameterTokenBoundary text index
    let ends (stop : ℕ) := stop = text.length || (text[stop]?).any repositoryTokenAfter.contains
    beforeOk && ends stop &&
      !(TaskSpecs.startsWith excluded (path ++ "/") && occursAt excluded.toList text index &&
        ends (index+excluded.length))

def containsResourceIdToken (value id excluded : String) : Bool :=
  let text := decoded R value
  let inner (c : Char) := R.isalnum c || resourceIdExtra.contains c
  (occurrences id.toList text).any fun index =>
    let stop := index+id.length
    let excludedStop := index+excluded.length
    (index = 0 || !(text[index-1]?).any inner || isShellParameterTokenBoundary text index) &&
      (stop = text.length || !(text[stop]?).any inner) &&
      !(TaskSpecs.startsWith excluded id && occursAt excluded.toList text index &&
        (excludedStop = text.length || !(text[excludedStop]?).any fun c => inner c || c = ':'))

/-! Bindings in a document. -/

def isAcceptanceEvidencePath (path : String) : Bool :=
  path = "/acceptance" || TaskSpecs.startsWith path "/acceptance/"

def isNontechnicalTaskProsePath (path : String) (value : Json) : Bool :=
  path = "/title" || path = "/goal" || (path = "/metadata/similarity_checked" && value.str?.isSome)

variable (p : RebindParameters)

def namesOld (text : String) : Bool :=
  containsResourceIdToken R text p.oldResourceId p.newResourceId ||
    containsRepositoryPathToken R text p.oldRepositoryPath p.newRepositoryPath

mutual

/-- `_old_repository_binding_residue`. -/
def oldBindingResidue (path : String) (value : Json) : List String :=
  if isAcceptanceEvidencePath path || isNontechnicalTaskProsePath path value then []
  else
    match value with
    | .obj fields => residueOfFields path fields
    | .arr items => residueOfItems path 0 items
    | .str text => if namesOld R p text then [if path = "" then "/" else path] else []
    | _ => []

def residueOfFields (path : String) : List (String × Json) → List String
  | [] => []
  | (key,item) :: rest =>
    let itemPath := path ++ "/" ++ key
    (if namesOld R p key then [itemPath ++ "#key"] else []) ++ oldBindingResidue itemPath item ++
      residueOfFields path rest

def residueOfItems (path : String) (index : ℕ) : List Json → List String
  | [] => []
  | item :: rest =>
    oldBindingResidue (path ++ "/" ++ toString index) item ++ residueOfItems path (index+1) rest

end

def hasOldBinding (spec : Json) : Bool :=
  (spec.getArr "claims").any (fun claim => claim.getStr? "resource" = some p.oldResourceId) ||
    (spec.get? "execution").any fun execution =>
      execution.getStr? "working_repository" = some p.oldRepositoryPath ||
        (execution.getStrings "grabowski_resources").any
          (containsRepositoryPathToken R · p.oldRepositoryPath p.newRepositoryPath)

/-! The rewritten document. -/

structure Preview where
  spec : Json
  specSha256 : String
  changedPaths : List String
  acceptanceSha256 : String
  acceptanceDiagnosticsSha256 : String

/-- `_validate_repository_identity_rebind_parameters`. -/
def validateParameters : Result Unit := do
  let resourceId (label value : String) : Result Unit :=
    require (TaskSpecs.startsWith value "repo." && value.length ≤ 240)
      (.state ("repository identity rebind " ++ label ++ " is invalid"))
  let repositoryPath (label value : String) : Result Unit :=
    require (TaskSpecs.startsWith value "/" && value ≠ "/" && !endsIn value.toList ['/'] && value.length ≤ 4096)
      (.state ("repository identity rebind " ++ label ++ " is invalid"))
  resourceId "old_resource_id" p.oldResourceId
  resourceId "new_resource_id" p.newResourceId
  repositoryPath "old_repository_path" p.oldRepositoryPath
  repositoryPath "new_repository_path" p.newRepositoryPath
  require (p.oldResourceId ≠ p.newResourceId) (.state "repository identity rebind resource ids must differ")
  require (p.oldRepositoryPath ≠ p.newRepositoryPath) (.state "repository identity rebind repository paths must differ")

/-- One entry of `grabowski_resources`: its rewritten text, if it is rewritten. -/
def rebindResource (item : String) : Result (Option String) :=
  let oldRepo := "repo:" ++ p.oldRepositoryPath
  let newRepo := "repo:" ++ p.newRepositoryPath
  let oldPath := "path:" ++ p.oldRepositoryPath
  let newPath := "path:" ++ p.newRepositoryPath
  let moved (old new : String) := some (new ++ String.ofList (item.toList.drop old.length))
  let newPathBound := item = newPath || TaskSpecs.startsWith item (newPath ++ "/")
  if item = oldRepo || TaskSpecs.startsWith item (oldRepo ++ ":") then .ok (moved oldRepo newRepo)
  else if item = oldPath || (TaskSpecs.startsWith item (oldPath ++ "/") &&
      !(TaskSpecs.startsWith p.newRepositoryPath (p.oldRepositoryPath ++ "/") && newPathBound)) then
    .ok (moved oldPath newPath)
  else if item = newRepo || TaskSpecs.startsWith item (newRepo ++ ":") || newPathBound then .ok none
  else if !(occurrences p.oldRepositoryPath.toList item.toList).isEmpty then
    if TaskSpecs.startsWith item (oldPath ++ "/") then .ok (moved oldPath newPath)
    else stateError "repository identity rebind refuses an unscoped old repository path"
  else .ok none

def rebindResources (items : List Json) : Result (List Json × List String) := do
  let rewritten ← collect (fun item : Json × ℕ =>
    match item.1 with
    | .str text => do
      match ← rebindResource p text with
      | some moved => return (Json.str moved,["/execution/grabowski_resources/" ++ toString item.2])
      | none => return (item.1,[])
    | other => return (other,[])) items.zipIdx
  return (rewritten.map Prod.fst,(rewritten.map Prod.snd).flatten)

def requireSchema (E : Env) (spec : Json) : Result Unit :=
  match E.schemaError "task" spec with
  | none => .ok ()
  | some message => stateError message

/-- `preview_repository_identity_rebind`. -/
def previewRebind (E : Env) (spec : Json) : Result Preview := do
  validateParameters p
  let _ ← TaskSpecs.canonicalSpecId spec
  requireSchema E spec
  let acceptance := (spec.get? "acceptance").getD (.arr [])
  let claims ← orRaise ((spec.get? "claims").bind Json.arr?)
    (.state "repository identity rebind TaskSpec claims must be a list")
  let old := claims.zipIdx.filter fun item => item.1.getStr? "resource" = some p.oldResourceId
  match old with
  | [(claim,index)] =>
    require (!claims.any fun claim => claim.getStr? "resource" = some p.newResourceId)
      (.state "repository identity rebind refuses a pre-existing target repository claim")
    let execution ← orRaise ((spec.get? "execution").filter Json.isObj)
      (.state "repository identity rebind TaskSpec execution must be an object")
    let claims := claims.set index (claim.set "resource" (.str p.newResourceId))
    let moves := execution.getStr? "working_repository" = some p.oldRepositoryPath
    let execution := if moves then execution.set "working_repository" (.str p.newRepositoryPath) else execution
    let (execution,resourcePaths) ← match execution.get? "grabowski_resources" with
      | none | some .null => pure (execution,[])
      | some (.arr items) => do
        let (items,paths) ← rebindResources p items
        pure (execution.set "grabowski_resources" (.arr items),paths)
      | some _ => stateError "repository identity rebind grabowski_resources must be a list"
    let material := (spec.set "claims" (.arr claims)).set "execution" execution
    let residue := oldBindingResidue R p "" material
    require residue.isEmpty
      (.state ("repository identity rebind left old technical bindings at: " ++
        ", ".intercalate (residue.mergeSort fun left right => left ≤ right)))
    requireSchema E material
    require ((material.get? "acceptance").getD (.arr []) = acceptance)
      (.state "repository identity rebind changed acceptance material")
    require (R.acceptanceDiagnostics material = R.acceptanceDiagnostics spec)
      (.state "repository identity rebind changed acceptance diagnostics")
    return ⟨material,TaskSpecs.taskSpecDigest E.sha material,
      ["/claims/" ++ toString index ++ "/resource"] ++
        (if moves then ["/execution/working_repository"] else []) ++ resourcePaths,
      sha256Json E.sha acceptance,sha256Json E.sha (R.acceptanceDiagnostics spec)⟩
  | _ => stateError "repository identity rebind requires exactly one old repository claim"

/-! The tasks of the store. -/

def terminalStates : List String := ["verified","cancelled","superseded"]

structure TaskRow where
  taskId : String
  revision : ℕ
  specSha256 : String
  spec : Json
  effectiveState : String

/-- The state a rebind sees. A terminal overlay counts for the revision and the plan it was written
for; its receipt is not looked at. -/
def rowState (E : Env) (registry : Registry) (db : Db) (taskId : String) (spec : Json) : Result String := do
  let specState := text spec "state"
  match db.taskStatus[taskId]? with
  | none => return specState
  | some overlay =>
    if terminalStates.contains specState then return specState
    else if !overlay.state.terminal then return overlay.state.text
    else if overlay.taskSha256 = taskRevisionSha256 E.sha spec then
      let plan ← planSha256 E.sha registry (text spec "initiative")
      return if overlay.planSha256 = plan then overlay.state.text else "stale"
    else return "stale"

def taskRow (E : Env) (registry : Registry) (db : Db) (taskId : String) : Result (Option TaskRow) :=
  match db.taskSpecs[taskId]? with
  | none => .ok none
  | some pointer =>
    match db.revision? taskId pointer.currentRevision with
    | none => .ok none
    | some row => do
      require row.spec.isObj (.state ("TaskSpec is not an object for " ++ taskId))
      let state ← rowState E registry db taskId row.spec
      return some ⟨taskId,pointer.currentRevision,row.specSha256,row.spec,state⟩

def taskRows (E : Env) (registry : Registry) (db : Db) : Result (List TaskRow) := do
  let rows ← collect (fun item => taskRow E registry db item.1) db.taskSpecs.toList
  return rows.reduceOption

def TaskRow.live (row : TaskRow) : Bool := !terminalStates.contains row.effectiveState

/-- One round of `_candidates`. -/
def candidate (row : TaskRow) : Result (Option TaskRow) :=
  if !row.live then .ok none
  else do
    let residue := oldBindingResidue R p "" row.spec
    let supported := hasOldBinding R p row.spec
    require (residue.isEmpty || supported)
      (.state ("repository identity rebind found old technical bindings outside approved rebind surfaces for task " ++
        row.taskId ++ ": " ++ ", ".intercalate (sortedSet residue)))
    return if supported then some row else none

def candidates (E : Env) (registry : Registry) (db : Db) : Result (List TaskRow) := do
  let rows ← taskRows E registry db
  let found ← collect (candidate R p) rows
  return found.reduceOption

def activeRuns (db : Db) : Result (List (String × RunRow)) :=
  match db.activeRuns.find? fun item =>
      (db.activeRuns.filter fun other => other.2.taskId = item.2.taskId).length ≠ 1 with
  | some item => stateError ("multiple active runs exist for task " ++ item.2.taskId)
  | none => .ok db.activeRuns

/-! The plan. -/

/-- `_resource_descriptor`, as far as a plan records it. -/
structure Descriptor where
  id : String
  type : String
  parent : Option String
  capacity : Option Int
  path : String
  githubSlug : String
  grabowskiKey : String
  criticality : Option String
  deriving DecidableEq

structure Item where
  taskId : String
  effectiveState : String
  expectedRevision : ℕ
  expectedSpecSha256 : String
  resultingSpecSha256 : String
  idempotencyKey : String
  changedPaths : List String
  acceptanceSha256 : String
  acceptanceDiagnosticsSha256 : String
  deriving DecidableEq

structure Exclusion where
  taskId : String
  runId : String
  runState : RunState
  expectedRevision : ℕ
  expectedSpecSha256 : String
  deriving DecidableEq

structure Summary where
  migrationItems : ℕ
  excludedActiveTasks : ℕ
  changedPaths : ℕ
  deriving DecidableEq

structure Plan where
  schemaVersion : ℕ
  kind : String
  generatedAt : String
  oldResource : Descriptor
  newResource : Descriptor
  resourceBindingSha256 : String
  taskSpecRootBefore : String
  items : List Item
  excludedActiveTasks : List Exclusion
  summary : Summary
  planSha256 : String
  deriving DecidableEq

def Plan.parameters (plan : Plan) : RebindParameters :=
  ⟨plan.oldResource.id,plan.newResource.id,plan.oldResource.path,plan.newResource.path⟩

def Plan.taskIds (plan : Plan) : List String := plan.items.map (·.taskId)

def Plan.excludedIds (plan : Plan) : List String := plan.excludedActiveTasks.map (·.taskId)

def Descriptor.toJson (resource : Descriptor) : Json :=
  .obj [("capacity",(resource.capacity.map .num).getD .null),("criticality",nullable resource.criticality),
    ("github_slug",.str resource.githubSlug),("grabowski_key",.str resource.grabowskiKey),("id",.str resource.id),
    ("parent",nullable resource.parent),("path",.str resource.path),("type",.str resource.type)]

def Item.toJson (item : Item) : Json :=
  .obj [("acceptance_diagnostics_sha256",.str item.acceptanceDiagnosticsSha256),
    ("acceptance_sha256",.str item.acceptanceSha256),("changed_paths",.arr (item.changedPaths.map .str)),
    ("effective_state",.str item.effectiveState),("expected_revision",natJson item.expectedRevision),
    ("expected_spec_sha256",.str item.expectedSpecSha256),("idempotency_key",.str item.idempotencyKey),
    ("resulting_spec_sha256",.str item.resultingSpecSha256),("task_id",.str item.taskId)]

def Exclusion.toJson (item : Exclusion) : Json :=
  .obj [("expected_revision",natJson item.expectedRevision),("expected_spec_sha256",.str item.expectedSpecSha256),
    ("run_id",.str item.runId),("run_state",.str item.runState.text),("task_id",.str item.taskId)]

/-- `_plan_material`: the plan without its digest. -/
def Plan.material (plan : Plan) : Json :=
  .obj [("excluded_active_tasks",.arr (plan.excludedActiveTasks.map Exclusion.toJson)),
    ("generated_at",.str plan.generatedAt),("items",.arr (plan.items.map Item.toJson)),("kind",.str plan.kind),
    ("new_resource",plan.newResource.toJson),("old_resource",plan.oldResource.toJson),
    ("resource_binding_sha256",.str plan.resourceBindingSha256),("schema_version",natJson plan.schemaVersion),
    ("summary",.obj [("changed_paths",natJson plan.summary.changedPaths),
      ("excluded_active_tasks",natJson plan.summary.excludedActiveTasks),
      ("migration_items",natJson plan.summary.migrationItems)]),
    ("task_spec_root_sha256_before",.str plan.taskSpecRootBefore)]

def bindingSha256 (sha : Sha) (old new : Descriptor) : String :=
  sha256Json sha (.obj [("new_resource",new.toJson),("old_resource",old.toJson)])

def requireSha256 (value label : String) : Result Unit :=
  require (validDigest value) (.state ("repository identity rebind " ++ label ++ " is not a SHA-256"))

def validatePlanResource (resource : Descriptor) (label : String) : Result Unit := do
  let invalid (field : String) : BureauError :=
    .state ("repository identity rebind plan " ++ label ++ " " ++ field ++ " is invalid")
  require (TaskSpecs.startsWith resource.id "repo.") (invalid "id")
  require (resource.type = "git-repository") (invalid "type")
  require (TaskSpecs.startsWith resource.path "/" && resource.path ≠ "/" && !endsIn resource.path.toList ['/'])
    (invalid "path")
  require (resource.grabowskiKey = "repo:" ++ resource.path) (invalid "Grabowski key")
  require (resource.githubSlug.toList.contains '/') (invalid "GitHub slug")

def validateItem (sha : Sha) (p : RebindParameters) (item : Item) : Result Unit := do
  require (item.taskId ≠ "") (.state "repository identity rebind plan item task_id is invalid")
  require (item.effectiveState ≠ "") (.state "repository identity rebind plan item state is invalid")
  require (1 ≤ item.expectedRevision) (.state "repository identity rebind item revision is invalid")
  requireSha256 item.expectedSpecSha256 "item expected digest"
  requireSha256 item.resultingSpecSha256 "item resulting digest"
  requireSha256 item.acceptanceSha256 "item acceptance digest"
  requireSha256 item.acceptanceDiagnosticsSha256 "item acceptance diagnostics digest"
  require (TaskSpecs.startsWith item.idempotencyKey TaskSpecs.repositoryIdentityRebindPrefix)
    (.state "repository identity rebind plan item idempotency key is invalid")
  require (!item.changedPaths.isEmpty && item.changedPaths.all (TaskSpecs.startsWith · "/") && item.changedPaths.Nodup)
    (.state "repository identity rebind plan item changed_paths are invalid")
  require (item.idempotencyKey = rebindIdempotencyKey sha item.taskId item.expectedRevision item.expectedSpecSha256
      item.resultingSpecSha256 p)
    (.state "repository identity rebind plan item idempotency binding is inconsistent")

def validateExclusion (item : Exclusion) : Result Unit := do
  require (item.taskId ≠ "") (.state "repository identity rebind excluded task id is invalid")
  require (item.runId ≠ "") (.state "repository identity rebind excluded run id is invalid")
  require item.runState.active (.state "repository identity rebind excluded run state is invalid")
  require (1 ≤ item.expectedRevision) (.state "repository identity rebind excluded revision is invalid")
  requireSha256 item.expectedSpecSha256 "excluded expected digest"

def validatePlan (sha : Sha) (K : Contracts) (plan : Plan) : Result Unit := do
  require (plan.schemaVersion = 1 && plan.kind = "bureau.repository_identity_rebind_plan")
    (.state "repository identity rebind plan schema is unsupported")
  requireSha256 plan.planSha256 "plan digest"
  require (plan.planSha256 = sha256Json sha plan.material) (.state "repository identity rebind plan digest mismatch")
  require (K.validTime plan.generatedAt) (.state "repository identity rebind plan timestamp lacks timezone")
  validatePlanResource plan.oldResource "old_resource"
  validatePlanResource plan.newResource "new_resource"
  require (plan.oldResource.id ≠ plan.newResource.id && plan.oldResource.path ≠ plan.newResource.path)
    (.state "repository identity rebind plan resources are not distinct")
  requireSha256 plan.resourceBindingSha256 "resource binding digest"
  require (plan.resourceBindingSha256 = bindingSha256 sha plan.oldResource plan.newResource)
    (.state "repository identity rebind plan resource binding is inconsistent")
  requireSha256 plan.taskSpecRootBefore "TaskSpec projection root"
  require (!plan.items.isEmpty) (.state "repository identity rebind plan has no migration items")
  let _ ← collect (validateItem sha plan.parameters) plan.items
  let _ ← collect validateExclusion plan.excludedActiveTasks
  require (plan.taskIds.Nodup && plan.excludedIds.Nodup)
    (.state "repository identity rebind plan contains duplicate task ids")
  require (!plan.taskIds.any plan.excludedIds.contains)
    (.state "repository identity rebind migration/exclusion sets overlap")
  require (plan.summary = ⟨plan.items.length,plan.excludedActiveTasks.length,
      (plan.items.map fun item => item.changedPaths.length).sum⟩)
    (.state "repository identity rebind plan summary is inconsistent")

def resourceDescriptor (registry : Registry) (id : String) : Result Descriptor := do
  let resource ← orRaise registry.resources[id]? (.state ("unknown repository resource: " ++ id))
  require (resource.type = "git-repository") (.state ("resource " ++ id ++ " is not a git-repository"))
  let path ← orRaise (resource.path.filter (TaskSpecs.startsWith · "/"))
    (.state ("resource " ++ id ++ " has no absolute repository path"))
  let key ← orRaise (resource.grabowskiKey.filter (· = "repo:" ++ path))
    (.state ("resource " ++ id ++ " Grabowski key does not match its repository path"))
  let slug ← orRaise (resource.githubSlug.filter fun slug => slug.toList.contains '/')
    (.state ("resource " ++ id ++ " has no canonical GitHub slug"))
  return ⟨resource.id,resource.type,resource.parent,resource.capacity,path,slug,key,R.criticality id⟩

def requireResourceBinding (sha : Sha) (registry : Registry) (plan : Plan) : Result Unit := do
  let old ← resourceDescriptor R registry plan.oldResource.id
  let new ← resourceDescriptor R registry plan.newResource.id
  require (old.id ≠ new.id && old.path ≠ new.path)
    (.state "repository identity rebind resources must be distinct")
  require (old = plan.oldResource && new = plan.newResource)
    (.state "repository identity rebind resource binding changed")
  require (bindingSha256 sha old new = plan.resourceBindingSha256)
    (.state "repository identity rebind resource digest changed")

/-- `_validate_freshness`, with the age of the plan by the clock of the call. -/
def validateFreshness (age maxAge : Int) : Result Unit := do
  require (1 ≤ maxAge && maxAge ≤ 86400) (.state "repository identity rebind max plan age is invalid")
  require (-60 ≤ age && age ≤ maxAge)
    (.state ("repository identity rebind plan is stale: age_seconds=" ++ toString age))

/-! The application. -/

/-- A call of `apply_plan`. -/
structure Call where
  registry : Registry
  plan : Plan
  expectedPlanSha256 : String
  age : Int
  maxAge : Int
  now : Time

inductive Status where
  | alreadyApplied
  | applied
  deriving DecidableEq

def sameSet (left right : List String) : Bool := left.all right.contains && right.all left.contains

def row? (rows : List TaskRow) (taskId : String) : Option TaskRow := rows.find? (·.taskId = taskId)

def checkExclusion (E : Env) (found : List TaskRow) (active : List (String × RunRow)) (item : Exclusion) :
    Result Unit := do
  let run ← orRaise (active.find? fun run => run.2.taskId = item.taskId)
    (.state ("repository identity rebind excluded task " ++ item.taskId ++ " is no longer active"))
  require (run.1 = item.runId && run.2.state = item.runState)
    (.state ("repository identity rebind excluded task " ++ item.taskId ++ " run binding changed"))
  let current ← orRaise ((row? found item.taskId).filter fun row =>
      row.revision = item.expectedRevision && row.specSha256 = item.expectedSpecSha256)
    (.state ("repository identity rebind excluded task " ++ item.taskId ++ " revision changed"))
  let _ ← previewRebind R p E current.spec

/-- One round of the writes. `found` are the candidates from before the first write. -/
def applyItem (E : Env) (now : Time) (found : List TaskRow) (db : Db) (item : Item) : Result Db := do
  let current ← orRaise (row? found item.taskId) (.state ("KeyError: " ++ item.taskId))
  require (current.revision = item.expectedRevision && current.specSha256 = item.expectedSpecSha256)
    (.state ("repository identity rebind task " ++ item.taskId ++ " CAS baseline changed"))
  let preview ← previewRebind R p E current.spec
  require (preview.specSha256 = item.resultingSpecSha256 && preview.changedPaths = item.changedPaths &&
      preview.acceptanceSha256 = item.acceptanceSha256 &&
      preview.acceptanceDiagnosticsSha256 = item.acceptanceDiagnosticsSha256)
    (.state ("repository identity rebind preview drifted for task " ++ item.taskId))
  let (_,db) ← TaskSpecs.putValidatedMaterial E.sha now db preview.spec item.idempotencyKey
    (some item.expectedRevision) "repository-identity-rebind"
  return db

def Plan.ordered (plan : Plan) : List Item :=
  plan.items.mergeSort fun left right => left.taskId ≤ right.taskId

/-- `apply_plan` before its transaction. -/
def checkPlan (E : Env) (K : Contracts) (call : Call) : Result Unit := do
  validatePlan E.sha K call.plan
  require (call.expectedPlanSha256 = call.plan.planSha256)
    (.state "repository identity rebind expected plan digest mismatch")
  requireResourceBinding R E.sha call.registry call.plan

/-- The writes of a plan that was not applied before, and the checks around them. -/
def applyFresh (E : Env) (call : Call) (found : List TaskRow) (active : List (String × RunRow)) (db : Db) :
    Result Db := do
  let plan := call.plan
  require (sameSet (found.map (·.taskId)) (plan.taskIds ++ plan.excludedIds))
    (.state "repository identity rebind live old-binding task set changed since plan")
  let acquired := plan.taskIds.filter fun id => active.any fun run => run.2.taskId = id
  require acquired.isEmpty (.state ("repository identity rebind migration tasks acquired active runs: " ++
    ", ".intercalate (sortedSet acquired)))
  let current ← TaskSpecs.currentProjection E.sha db
  require (sha256Json E.sha (TaskSpecs.projectedJson (TaskSpecs.projectionTasks current)) = plan.taskSpecRootBefore)
    (.state "repository identity rebind TaskSpec projection root changed since plan")
  let db ← plan.ordered.foldlM (applyItem R plan.parameters E call.now found) db
  let remaining ← candidates R plan.parameters E call.registry db
  require (sameSet (remaining.map (·.taskId)) plan.excludedIds)
    (.state "repository identity rebind left unexpected old-binding tasks after apply")
  let _ ← TaskSpecs.verifyReplay E.sha db
  return db

def applyPlan (E : Env) (K : Contracts) (call : Call) (db : Db) : Result (Status × Db) := do
  checkPlan R E K call
  let plan := call.plan
  let receipts ← collect (fun item => TaskSpecs.getMutationReceipt E.sha db item.idempotencyKey) plan.items
  let existing := receipts.reduceOption.length
  require (existing = 0 || existing = plan.items.length)
    (.state "repository identity rebind found a partial mutation receipt set")
  if existing ≠ plan.items.length then validateFreshness call.age call.maxAge
  let found ← candidates R plan.parameters E call.registry db
  let active ← activeRuns db
  let _ ← collect (checkExclusion R plan.parameters E found active) plan.excludedActiveTasks
  if existing = plan.items.length then
    require (sameSet (found.map (·.taskId)) plan.excludedIds)
      (.state "repository identity rebind replay found unexpected old-binding tasks")
    let _ ← TaskSpecs.verifyReplay E.sha db
    return (.alreadyApplied,db)
  else
    let db ← applyFresh R E call found active db
    return (.applied,db)

end RepositoryRebind

end Bureau
