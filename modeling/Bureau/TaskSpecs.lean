import Bureau.Store

/-!
Authoritative TaskSpecs: revisions with a compare-and-swap write, and the current
projection the dispatcher reads.
-/

namespace Bureau

open Transactions

/-- The installed release: the digest, and the document checks and derived documents whose rules
are not modelled here. A check returns the message it raises. -/
structure Env where
  sha : Sha
  schemaError : String → Json → Option String
  acceptanceError : Json → Option String
  rlensBlockReason : Json → Option String
  coordinationScope : Json → Option Json
  rlensContextPolicy : Json → Json
  rlensContextRef : Json → Option Json

def requireNone (x : Option String) : Result Unit :=
  match x with
  | none => .ok ()
  | some message => .error (.document message)

@[simp] theorem requireNone_eq_ok {x : Option String} {u : Unit} : requireNone x = .ok u ↔ x = none := by
  cases x <;> simp [requireNone]

namespace TaskSpecs

def noRunCloseoutPrefix := "runtime-refresh-no-run-closeout:"
def unusedAuthorityCloseoutPrefix := "runtime-refresh-unused-authority-closeout:"
def protectedPublicationActivationPrefix := "runtime-refresh-protected-publication-activation:"
def repositoryIdentityRebindPrefix := "repository-identity-rebind:"

/-- `_canonical_spec`: the id of a TaskSpec document. -/
def canonicalSpecId (spec : Json) : Result String := do
  require spec.isObj (.state "TaskSpec must be an object")
  match spec.getStr? "id" with
  | some id => do
    require (id ≠ "") (.state "TaskSpec id must be a non-empty string")
    return id
  | none => stateError "TaskSpec id must be a non-empty string"

def taskSpecDigest (sha : Sha) (spec : Json) : String :=
  sha256Json sha spec

structure CurrentSpec where
  taskId : String
  revision : ℕ
  parentRevision : Option ℕ
  specSha256 : String
  spec : Json
  source : String
  deriving DecidableEq

def parentOfRevision (revision : ℕ) : Option ℕ :=
  if revision = 1 then none else some (revision-1)

def validatedRow (sha : Sha) (taskId : String) (revision : ℕ) (row : TaskSpecRevision) :
    Result CurrentSpec := do
  let id ← canonicalSpecId row.spec
  require (id = taskId) (.state "TaskSpec revision id does not match row task_id")
  require (taskSpecDigest sha row.spec = row.specSha256) (.state "TaskSpec revision digest mismatch")
  require (1 ≤ revision && row.parentRevision = parentOfRevision revision)
    (.state "TaskSpec revision lineage is invalid")
  return ⟨taskId,revision,row.parentRevision,row.specSha256,row.spec,row.source⟩

def revisionRow (db : Db) (taskId : String) (revision : ℕ) : Result TaskSpecRevision :=
  orRaise ((db.taskSpecRevisions[taskId]?).bind fun revisions => revisions[revision]?)
    (.state ("unknown TaskSpec revision: " ++ taskId ++ "@" ++ toString revision))

def getRevision (sha : Sha) (db : Db) (taskId : String) (revision : ℕ) : Result CurrentSpec := do
  validatedRow sha taskId revision (← revisionRow db taskId revision)

def getCurrent (sha : Sha) (db : Db) (taskId : String) : Result (Option CurrentSpec) :=
  match db.taskSpecs[taskId]? with
  | none => .ok none
  | some pointer => do
    let current ← getRevision sha db taskId pointer.currentRevision
    require (current.specSha256 = pointer.specSha256)
      (.state "TaskSpec current pointer digest mismatch")
    return some current

/-- `current_projection`: every task with its current revision, in id order. -/
def currentProjection (sha : Sha) (db : Db) : Result (List CurrentSpec) :=
  collect (fun item => do
    orRaise (← getCurrent sha db item.1) (.state "TaskSpec current revision is missing"))
    db.taskSpecs.toList

structure PutResult where
  current : CurrentSpec
  idempotentReplay : Bool
  changed : Bool
  deriving DecidableEq

def revisionEventPayload (spec : CurrentSpec) (idempotencyKey : String) : Json :=
  .obj [("idempotency_key",.str idempotencyKey),
    ("parent_revision",(spec.parentRevision.map natJson).getD .null),
    ("revision",natJson spec.revision),("schema_version",.num 1),("source",.str spec.source),
    ("spec",spec.spec),("spec_sha256",.str spec.specSha256),("task_id",.str spec.taskId)]

theorem getStr?_revisionEventPayload (spec : CurrentSpec) (key : String) :
    (revisionEventPayload spec key).getStr? "task_id" = some spec.taskId ∧
      (revisionEventPayload spec key).getStr? "source" = some spec.source ∧
      (revisionEventPayload spec key).getStr? "idempotency_key" = some key ∧
      (revisionEventPayload spec key).getStr? "spec_sha256" = some spec.specSha256 :=
  ⟨rfl,rfl,rfl,rfl⟩

theorem get?_revisionEventPayload (spec : CurrentSpec) (key : String) :
    (revisionEventPayload spec key).get? "revision" = some (natJson spec.revision) ∧
      (revisionEventPayload spec key).get? "parent_revision" = some ((spec.parentRevision.map natJson).getD .null) ∧
      (revisionEventPayload spec key).get? "spec" = some spec.spec :=
  ⟨rfl,rfl,rfl⟩

/-- A revision with its pointer, its mutation receipt and its event. -/
def setRevision (now : Time) (db : Db) (spec : CurrentSpec) (idempotencyKey : String)
    (expectedRevision : Option ℕ) : Db :=
  let revisions := (db.taskSpecRevisions[spec.taskId]?).getD ∅
  { db with
    taskSpecRevisions := db.taskSpecRevisions.insert spec.taskId (revisions.insert spec.revision
      ⟨spec.parentRevision,spec.specSha256,spec.spec,spec.source,now⟩)
    taskSpecs := db.taskSpecs.insert spec.taskId ⟨spec.revision,spec.specSha256,now⟩
    taskSpecMutations := db.taskSpecMutations.insert idempotencyKey
      ⟨spec.taskId,expectedRevision,spec.specSha256,spec.revision⟩
    events := db.events ++ [⟨db.nextEventId,none,.taskSpecRevisionSet,1,none,
      .plain (revisionEventPayload spec idempotencyKey)⟩]
    nextEventId := db.nextEventId+1 }

def replayMutation (sha : Sha) (db : Db) (taskId digest : String) (expectedRevision : Option ℕ)
    (mutation : TaskSpecMutation) : Result PutResult := do
  require (mutation.taskId = taskId && mutation.expectedRevision = expectedRevision &&
      mutation.requestedSha256 = digest)
    (.state "TaskSpec idempotency key is bound to another mutation")
  let current ← getCurrent sha db taskId
  require (current.any fun c => mutation.resultingRevision ≤ c.revision)
    (.state "TaskSpec idempotency receipt references an unknown revision")
  let result ← getRevision sha db taskId mutation.resultingRevision
  require (result.specSha256 = digest) (.state "TaskSpec idempotency revision digest mismatch")
  return ⟨result,true,false⟩

def reprRevision : Option ℕ → String
  | some revision => toString revision
  | none => "None"

def putValidatedMaterial (sha : Sha) (now : Time) (db : Db) (spec : Json) (idempotencyKey : String)
    (expectedRevision : Option ℕ) (source : String) : Result (PutResult × Db) := do
  let taskId ← canonicalSpecId spec
  let digest := taskSpecDigest sha spec
  require (idempotencyKey ≠ "") (.state "TaskSpec idempotency key must be non-empty")
  require (source ≠ "") (.state "TaskSpec mutation source must be non-empty")
  require (expectedRevision ≠ some 0)
    (.state "expected TaskSpec revision must be a positive integer or null")
  match db.taskSpecMutations[idempotencyKey]? with
  | some mutation => return (← replayMutation sha db taskId digest expectedRevision mutation,db)
  | none =>
    let current ← getCurrent sha db taskId
    require (current.map (·.revision) = expectedRevision)
      (.state ("stale TaskSpec revision baseline for " ++ taskId ++ ": expected " ++
        reprRevision expectedRevision ++ ", current " ++ reprRevision (current.map (·.revision))))
    match current with
    | some current =>
      if current.specSha256 = digest then
        return (⟨current,false,false⟩,{ db with
          taskSpecMutations := db.taskSpecMutations.insert idempotencyKey
            ⟨taskId,expectedRevision,digest,current.revision⟩ })
      else
        let next : CurrentSpec :=
          ⟨taskId,current.revision+1,some current.revision,digest,spec,source⟩
        return (⟨next,false,true⟩,setRevision now db next idempotencyKey expectedRevision)
    | none =>
      let next : CurrentSpec := ⟨taskId,1,none,digest,spec,source⟩
      return (⟨next,false,true⟩,setRevision now db next idempotencyKey expectedRevision)

def startsWith (text word : String) : Bool :=
  word.toList.isPrefixOf text.toList

def legacyTerminalOperationalView (spec : Json) : Json :=
  let material := spec.pop "state"
  match material.get? "metadata" with
  | some (.obj fields) =>
    let metadata := ((Json.obj fields).pop "operator_intake").pop "bureau_cleanup"
    if metadata = .obj [] then material.pop "metadata" else material.set "metadata" metadata
  | _ => material

def isLegacyTerminalOnlyRevision (E : Env) (current proposed : Json) : Result Bool := do
  if ¬ (proposed.getStr? "state" = some "cancelled" ∨ proposed.getStr? "state" = some "superseded") then
    return false
  else
    requireNone (E.schemaError "task" current)
    requireNone (E.schemaError "task" proposed)
    if (E.acceptanceError current).isNone then return false
    else
      require (((current.getStr? "state").bind TaskState.ofText?).all fun s => !s.terminal)
        (.state "legacy terminal TaskSpec is already terminal")
      let cleanup (spec : Json) := (spec.get? "metadata").bind (·.get? "bureau_cleanup")
      require ((cleanup proposed).all fun c => c = .null || c.isObj)
        (.state "legacy terminal bureau_cleanup metadata must be an object")
      require ((cleanup current).all fun c => c = .null || cleanup proposed = some c)
        (.state "legacy terminal bureau_cleanup metadata is immutable")
      require (legacyTerminalOperationalView current = legacyTerminalOperationalView proposed)
        (.state "legacy terminal revision may change only state and audit metadata")
      return true

/-- `put`: reserved key namespaces, then document checks, then the compare-and-swap. -/
def put (E : Env) (now : Time) (db : Db) (spec : Json) (idempotencyKey : String)
    (expectedRevision : Option ℕ) (source : String) : Result (PutResult × Db) := do
  let taskId ← canonicalSpecId spec
  require (!startsWith idempotencyKey noRunCloseoutPrefix)
    (.state "runtime-refresh no-run closeout idempotency namespace is reserved")
  require (!startsWith idempotencyKey unusedAuthorityCloseoutPrefix)
    (.state "runtime-refresh unused-authority closeout idempotency namespace is reserved")
  require (!startsWith idempotencyKey protectedPublicationActivationPrefix)
    (.state "runtime-refresh protected-publication activation idempotency namespace is reserved")
  require (!startsWith idempotencyKey repositoryIdentityRebindPrefix)
    (.state "TaskSpec idempotency namespace is reserved")
  if db.taskSpecMutations.contains idempotencyKey then
    putValidatedMaterial E.sha now db spec idempotencyKey expectedRevision source
  else
    requireNone (E.schemaError "task" spec)
    match E.acceptanceError spec with
    | none => putValidatedMaterial E.sha now db spec idempotencyKey expectedRevision source
    | some message =>
      let current ← orRaise (← getCurrent E.sha db taskId) (.state message)
      require (← isLegacyTerminalOnlyRevision E current.spec spec) (.state message)
      putValidatedMaterial E.sha now db spec idempotencyKey expectedRevision source

end TaskSpecs

end Bureau
