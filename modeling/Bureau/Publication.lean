import Bureau.Interleaving
import Bureau.SpecIdempotency

/-!
`publish_task_proposal` for a typed task publication: the leases are validated and the TaskSpec is put
while both databases are locked; then the leases are released, the digest of the receipt is bound to
the mutation row, and the receipt file is created. A call that finds a receipt file accepts it as a
replay only against the evidence in the mutation row.
-/

namespace Bureau

namespace Publication

open Transactions

structure OperatorIntakeError where
  code : String
  message : String
  deriving DecidableEq

abbrev Outcome := Except OperatorIntakeError

structure Proposal where
  proposalSha256 : String
  taskId : String
  taskJson : Json
  targetPath : String
  publishingTaskId : String
  publishingTaskSha256 : Json
  registry : Json
  expectedRevision : Option ℕ

/-- Where the store lies, and the approval a publication authority grants to a proposal and its
publishing task. -/
structure Intake where
  stateRoot : String
  approval : String → String → Json

def idempotencyKey (plan : Proposal) : String := "operator-intake:" ++ plan.proposalSha256

def Intake.requiredResourceKeys (I : Intake) : List String := ["path:" ++ I.stateRoot]

/-! Leases. -/

structure Lease where
  ownerId : String
  acquiredAt : Int
  updatedAt : Int
  expiresAt : Int
  metadataSha256 : String
  metadata : Json

structure LeaseBinding where
  ownerId : String
  taskId : String

/-- `_publication_lease_metadata` of a typed publication. -/
def publicationLeaseMetadata (plan : Proposal) : List (String × Json) :=
  [("authority_action_class",.str "task_creation_from_external_evidence"),
    ("authority_capability",.str "bureau_mutation"),("bureau_phase",.str "work"),
    ("kind",.str "grabowski.bureau_task_publication_authority"),("operation",.str "state-task-publication"),
    ("proposal_sha256",.str plan.proposalSha256),("task_id",.str plan.publishingTaskId)]

def minimumRemaining : Int := 60

/-- A resource database with the versions its metadata declares. -/
structure ResourceDb where
  path : String
  schemaVersion : String
  leaseContractVersion : String

structure NormalizedLeases where
  ownerId : String
  taskId : String
  resourceDb : ResourceDb
  snapshots : List (String × Lease)
  observedAt : Int
  requiredMetadataSha256 : String

def NormalizedLeases.minExpiresAt (leases : NormalizedLeases) : Int :=
  ((leases.snapshots.map fun item => item.2.expiresAt).min?).getD 0

def readLease (table : String → Option Lease) (key : String) : Outcome (String × Lease) := do
  let lease ← orRaise (table key) ⟨"lease-resources-missing","required live Grabowski leases are missing"⟩
  return (key,lease)

/-- One required row: of this owner, with time left, and bound to this publication. -/
def validateLease (sha : Sha) (plan : Proposal) (owner : String) (now : Int) (item : String × Lease) :
    Outcome Unit := do
  let lease := item.2
  require (lease.ownerId = owner) ⟨"lease-owner-mismatch","a required Grabowski lease has another owner"⟩
  require (lease.acquiredAt ≤ lease.updatedAt && lease.updatedAt < lease.expiresAt &&
      now+minimumRemaining < lease.expiresAt)
    ⟨"lease-expired","a required Grabowski lease is expired or too short for deployment"⟩
  require (validDigest lease.metadataSha256)
    ⟨"lease-metadata-invalid","a required Grabowski lease has invalid metadata evidence"⟩
  require lease.metadata.isObj
    ⟨"lease-metadata-invalid","a required Grabowski lease metadata value is not an object"⟩
  require (sha256Json sha lease.metadata = lease.metadataSha256)
    ⟨"lease-metadata-digest-mismatch","a required Grabowski lease metadata hash does not match its JSON"⟩
  require ((publicationLeaseMetadata plan).all fun field => lease.metadata.get? field.1 = some field.2)
    ⟨"lease-metadata-binding-mismatch","a required Grabowski lease is not bound to the requested effect"⟩

/-- `_validate_publication_leases` on the table of a database that could be read. -/
def validatePublicationLeases (sha : Sha) (I : Intake) (plan : Proposal) (table : String → Option Lease)
    (binding : LeaseBinding) (database : Outcome ResourceDb) (now : Int) : Outcome NormalizedLeases := do
  require (binding.taskId = plan.publishingTaskId)
    ⟨"lease-task-mismatch","lease binding task_id must match the proposal's exact publication identity"⟩
  require (!blank binding.ownerId) ⟨"lease-owner-missing","Grabowski lease owner is required"⟩
  require (!blank binding.taskId) ⟨"lease-task-missing","Grabowski task id is required"⟩
  let owner := String.ofList (strip binding.ownerId)
  let resourceDb ← database
  let rows ← collect (readLease table) I.requiredResourceKeys
  let _ ← collect (validateLease sha plan owner now) rows
  return ⟨owner,String.ofList (strip binding.taskId),resourceDb,rows,now,
    sha256Json sha (.obj (publicationLeaseMetadata plan))⟩

/-- `_require_current_publication_lease_lifetime`. -/
def requireCurrentLifetime (leases : NormalizedLeases) (now : Int) : Outcome Unit :=
  require (now+minimumRemaining < leases.minExpiresAt)
    ⟨"lease-expired","publication lease expires too soon for the StateStore mutation"⟩

def Lease.columns (lease : Lease) : String × Int × Int × Int × String :=
  (lease.ownerId,lease.acquiredAt,lease.updatedAt,lease.expiresAt,lease.metadataSha256)

/-- `_release_unchanged_publication_leases`. -/
def releaseLeases (table : String → Option Lease) (leases : NormalizedLeases) : Outcome (String → Option Lease) := do
  require (leases.snapshots.all fun item => (table item.1).any fun row => row.columns = item.2.columns)
    ⟨"lease-release-binding-changed","publication leases changed after validation; none were released"⟩
  return fun key => if (leases.snapshots.map Prod.fst).contains key then none else table key

/-! The receipt. -/

def snapshotJson (item : String × Lease) : Json :=
  .obj [("acquired_at_unix",.num item.2.acquiredAt),("expires_at_unix",.num item.2.expiresAt),
    ("metadata_sha256",.str item.2.metadataSha256),("owner_id",.str item.2.ownerId),("resource_key",.str item.1),
    ("updated_at_unix",.num item.2.updatedAt)]

def NormalizedLeases.material (leases : NormalizedLeases) : Json :=
  .obj [("lease_snapshots",.arr (leases.snapshots.map snapshotJson)),("min_expires_at_unix",.num leases.minExpiresAt),
    ("minimum_remaining_seconds",.num minimumRemaining),("observed_at_unix",.num leases.observedAt),
    ("owner_id",.str leases.ownerId),("required_metadata_sha256",.str leases.requiredMetadataSha256),
    ("resource_db",.str leases.resourceDb.path),("resource_db_schema_version",.str leases.resourceDb.schemaVersion),
    ("resource_keys",.arr (leases.snapshots.map fun item => .str item.1)),
    ("resource_lease_contract_version",.str leases.resourceDb.leaseContractVersion),("task_id",.str leases.taskId)]

/-- `lease_binding_sha256`, over the document with a line end. -/
def NormalizedLeases.sha256 (sha : Sha) (leases : NormalizedLeases) : String :=
  sha (leases.material.canonicalJson ++ "\n")

def NormalizedLeases.toJson (sha : Sha) (leases : NormalizedLeases) : Json :=
  leases.material.set "lease_binding_sha256" (.str (leases.sha256 sha))

/-- `_expected_publication_lease_release`. -/
def NormalizedLeases.release (sha : Sha) (leases : NormalizedLeases) : Json :=
  .obj [("lease_binding_sha256",.str (leases.sha256 sha)),("owner_id",.str leases.ownerId),
    ("released",.bool true),("resource_keys",.arr (leases.snapshots.map fun item => .str item.1))]

def receiptFields (I : Intake) (plan : Proposal) (planFileSha256 : String) : List (String × Json) :=
  [("ambiguity",.bool false),("approval",I.approval plan.proposalSha256 plan.publishingTaskId),("branch",.null),
    ("coordination_state_root",.str I.stateRoot),
    ("does_not_establish",.arr [.str "git_task_projection",.str "task_readiness",
      .str "claim_or_dispatch_authority",.str "merge_or_deployment_authority",.str "task_verification"]),
    ("effect_started",.bool true),("kind",.str "bureau_task_publication_receipt"),
    ("legacy_task_spec_import",.obj [("imported",.num 0),
      ("reason",.str "StateStore is the sole operational TaskSpec authority"),("status",.str "retired")]),
    ("plan_file_sha256",.str planFileSha256),("proposal_sha256",.str plan.proposalSha256),
    ("publication_mode",.str "state_store"),("publication_phase",.str "committed_locally"),
    ("publishing_task_id",.str plan.publishingTaskId),("publishing_task_sha256",plan.publishingTaskSha256),
    ("queue_mutated",.bool false),("registry",plan.registry),("required_readback",.arr []),("retryable",.bool false),
    ("schema_version",.num 1),("status",.str "published"),("target_path",.str plan.targetPath),
    ("task_id",.str plan.taskId)]

def revisionJson (result : TaskSpecs.PutResult) : Json :=
  .obj [("changed",.bool result.changed),("idempotent_replay",.bool result.idempotentReplay),
    ("parent_revision",(result.current.parentRevision.map natJson).getD .null),
    ("revision",natJson result.current.revision),("source",.str result.current.source),("spec",result.current.spec),
    ("spec_sha256",.str result.current.specSha256),("task_id",.str result.current.taskId)]

structure Roots where
  taskSpecRoot : String
  authoritativeRoot : String
  deriving DecidableEq

def publicationJson (I : Intake) (plan : Proposal) (current : TaskSpecs.CurrentSpec) (roots : Roots) : Json :=
  .obj [("authoritative_root_sha256",.str roots.authoritativeRoot),("coordination_state_root",.str I.stateRoot),
    ("mode",.str "state_store"),("readback_complete",.bool true),("revision",natJson current.revision),
    ("spec_sha256",.str current.specSha256),("task_id",.str plan.taskId),
    ("task_spec_root_sha256",.str roots.taskSpecRoot)]

def unsignedReceipt (sha : Sha) (I : Intake) (plan : Proposal) (planFileSha256 : String)
    (result : TaskSpecs.PutResult) (leases : NormalizedLeases) (roots : Roots) (createdAt : String) : Json :=
  ([("created_at",.str createdAt),("lease_binding",leases.toJson sha),("lease_release",leases.release sha),
    ("publication",publicationJson I plan result.current roots),("task_spec_revision",revisionJson result)] ++
    receiptFields I plan planFileSha256).foldl (fun document field => document.set field.1 field.2) (.obj [])

def signReceipt (sha : Sha) (receipt : Json) : Json :=
  receipt.set "receipt_sha256" (.str (sha256Json sha receipt))

/-- `_read_task_publication_receipt` on the content of a file. -/
def readReceipt (sha : Sha) (receipt : Json) : Outcome Unit := do
  require receipt.isObj ⟨"receipt-invalid","publication receipt JSON must be an object"⟩
  require (receipt.getStr? "kind" = some "bureau_task_publication_receipt" &&
      receipt.getStr? "status" = some "published" &&
      receipt.getStr? "receipt_sha256" = some (sha256Json sha (receipt.pop "receipt_sha256")))
    ⟨"receipt-integrity-invalid","publication receipt identity or digest is invalid"⟩
  let publication := (receipt.get? "publication").getD .null
  let revision := (receipt.get? "task_spec_revision").getD .null
  let taskId := text receipt "task_id"
  require (taskId ≠ "" && (receipt.getStr? "proposal_sha256").isSome &&
      receipt.getStr? "target_path" = some ("registry/tasks/" ++ taskId ++ ".json") &&
      publication.get? "readback_complete" = some (.bool true) && revision.getStr? "task_id" = some taskId &&
      ((revision.get? "revision").bind Json.int?).any (1 ≤ ·) && (revision.getStr? "spec_sha256").isSome &&
      ((revision.get? "spec").any Json.isObj))
    ⟨"receipt-shape-invalid","publication receipt is missing exact task or revision bindings"⟩
  match (receipt.get? "publication_mode").getD (.str "git_pr") with
  | .str "state_store" =>
    require ((nonEmptyStr? receipt "coordination_state_root").any (TaskSpecs.startsWith · "/") &&
        publication.getStr? "mode" = some "state_store" &&
        publication.get? "coordination_state_root" = receipt.get? "coordination_state_root" &&
        publication.getStr? "task_id" = some taskId && publication.get? "revision" = revision.get? "revision" &&
        publication.get? "spec_sha256" = revision.get? "spec_sha256")
      ⟨"receipt-shape-invalid","StateStore publication receipt lacks exact authority bindings"⟩
  | .str "git_pr" =>
    require (["repository","branch","head","target_file_sha256"].all (fun key => (publication.getStr? key).isSome) &&
        (((publication.get? "pull_request").bind (·.get? "number")).bind Json.int?).any (1 ≤ ·))
      ⟨"receipt-shape-invalid","legacy Git publication receipt lacks exact PR bindings"⟩
  | mode => .error ⟨"receipt-mode-invalid","unsupported publication mode: " ++ mode.shown⟩
  let spec := (revision.get? "spec").getD .null
  require (spec.getStr? "id" = some taskId)
    ⟨"receipt-spec-invalid","publication receipt must bind its exact TaskSpec"⟩
  require (revision.getStr? "spec_sha256" = some (TaskSpecs.taskSpecDigest sha spec))
    ⟨"receipt-spec-digest-mismatch","publication receipt TaskSpec bytes do not match its bound digest"⟩

/-! The evidence in the mutation row. -/

/-- A lease commitment; evidence before schema 3 has no digest of the receipt. -/
structure Commitment where
  leaseBindingSha256 : String
  leaseReleaseSha256 : String
  receiptSha256 : Option String
  deriving DecidableEq

def evidenceKind := "bureau.operator_intake.task_publication_receipt_binding"

/-- The evidence of a mutation row; `intact` if its `evidence_sha256` is the digest of the rest. -/
structure Evidence where
  schemaVersion : ℕ
  kind : String
  proposalSha256 : String
  leaseCommitments : List Commitment
  intact : Bool
  deriving DecidableEq

/-- `_publication_evidence_commitments`. -/
def Evidence.commitments (evidence : Evidence) : List Commitment :=
  if !evidence.intact then []
  else if evidence.schemaVersion = 3 then
    if evidence.leaseCommitments.all (fun c => c.receiptSha256.any (· ≠ "")) then evidence.leaseCommitments else []
  else if evidence.schemaVersion = 1 ∨ evidence.schemaVersion = 2 then
    evidence.leaseCommitments.map fun c => { c with receiptSha256 := none }
  else []

/-- `_publication_receipt_lease_commitment`. -/
def receiptCommitment (sha : Sha) (receipt : Json) : Outcome Commitment := do
  let digest ← orRaise (nonEmptyStr? receipt "receipt_sha256")
    ⟨"receipt-evidence-invalid","typed publication evidence requires the complete receipt digest"⟩
  return ⟨sha256Json sha ((receipt.get? "lease_binding").getD .null),
    sha256Json sha ((receipt.get? "lease_release").getD .null),some digest⟩

/-- `get_mutation_receipt` with the evidence of the row. -/
def readMutation (sha : Sha) (db : Db) (evidence : Option Evidence) (key : String) :
    Result (Option (TaskSpecMutation × Option Evidence)) := do
  match ← TaskSpecs.getMutationReceipt sha db key with
  | none => return none
  | some mutation =>
    require (evidence.all Evidence.intact) (.state "TaskSpec mutation activation evidence digest mismatch")
    return some (mutation.1,evidence)

/-- `_publication_receipt_mutation_evidence`. -/
def mutationEvidence (sha : Sha) (db : Db) (evidence : Option Evidence) (plan : Proposal) : Outcome (Option Evidence) :=
  match readMutation sha db evidence (idempotencyKey plan) with
  | .ok mutation => .ok (mutation.bind Prod.snd)
  | .error _ => .error ⟨"task-spec-register-replay-mutation-read-failed",
      "cannot read trusted publication receipt evidence from the TaskSpec mutation"⟩

/-- `_store_publication_mutation_evidence`, with the upgrade of schema 2 allowed as both its callers
do: the evidence of the mutation row with one more commitment. -/
def storeEvidence (sha : Sha) (db : Db) (existing : Option Evidence) (plan : Proposal) (specSha256 : String)
    (revision : ℕ) (candidateProposal : Json) (candidate : Commitment) : Result Evidence := do
  let mutation ← readMutation sha db existing (idempotencyKey plan)
  let mutation ← orRaise (mutation.filter fun m => m.1.taskId = plan.taskId && m.1.requestedSha256 = specSha256 &&
    m.1.resultingRevision = revision) (.state "publication evidence cannot bind to the exact TaskSpec mutation")
  require (candidateProposal = .str plan.proposalSha256 && candidate.receiptSha256.isSome)
    (.state "candidate publication evidence is invalid")
  match mutation.2 with
  | none => return ⟨3,evidenceKind,plan.proposalSha256,[candidate],true⟩
  | some evidence =>
    require (evidence.kind = evidenceKind && evidence.proposalSha256 = plan.proposalSha256)
      (.state "TaskSpec mutation already carries incompatible publication evidence")
    require (!evidence.commitments.isEmpty)
      (.state "TaskSpec mutation already carries invalid publication evidence")
    -- evidence of schema 2 names no receipt, and is replaced
    if evidence.schemaVersion = 2 then return ⟨3,evidenceKind,plan.proposalSha256,[candidate],true⟩
    else
      require (evidence.commitments.all fun c => c.receiptSha256.isSome)
        (.state "TaskSpec mutation already carries invalid or under-bound publication evidence")
      return ⟨3,evidenceKind,plan.proposalSha256,(evidence.commitments ++ [candidate]).dedup,true⟩

/-! A receipt file as a replay. -/

def resultingRevision : ℕ := 1

/-- `_validate_publication_receipt_replay` up to the mutation: the schema of the evidence that vouches
for the receipt. `roots` are those of the projection at the mutation, which only schema 2 consults. -/
def matchReceipt (sha : Sha) (I : Intake) (plan : Proposal) (planFileSha256 : String) (receipt : Json)
    (trusted : Option Evidence) (roots : Outcome Roots) : Outcome ℕ := do
  let conflict : OperatorIntakeError := ⟨"receipt-conflict",
    "existing publication receipt is not bound to the exact reviewed StateStore mutation"⟩
  let observed ← receiptCommitment sha receipt
  let digest := Json.str (TaskSpecs.taskSpecDigest sha plan.taskJson)
  let revision := (receipt.get? "task_spec_revision").getD .null
  let publication := (receipt.get? "publication").getD .null
  let evidence ← orRaise (trusted.filter fun e => e.kind = evidenceKind && e.proposalSha256 = plan.proposalSha256 &&
    (e.schemaVersion = 2 || e.schemaVersion = 3) && !e.commitments.isEmpty) conflict
  if evidence.schemaVersion = 2 then
    require (evidence.commitments.contains { observed with receiptSha256 := none }) conflict
    let roots ← roots
    require (publication.get? "task_spec_root_sha256" = some (.str roots.taskSpecRoot) &&
      publication.get? "authoritative_root_sha256" = some (.str roots.authoritativeRoot)) conflict
  else require (evidence.commitments.contains observed) conflict
  require ((receiptFields I plan planFileSha256).all fun field => (receipt.get? field.1).getD .null = field.2) conflict
  require ((nonEmptyStr? receipt "created_at").isSome) conflict
  require (revision.get? "revision" = some (natJson resultingRevision) && absent revision "parent_revision" &&
    revision.get? "spec_sha256" = some digest && revision.get? "spec" = some plan.taskJson) conflict
  require (publication.get? "mode" = some (.str "state_store") &&
    publication.get? "readback_complete" = some (.bool true) &&
    publication.get? "coordination_state_root" = some (.str I.stateRoot) &&
    publication.get? "task_id" = some (.str plan.taskId) &&
    publication.get? "revision" = some (natJson resultingRevision) &&
    publication.get? "spec_sha256" = some digest) conflict
  return evidence.schemaVersion

/-- `_validate_publication_binding_mutation`. -/
def validateMutation (sha : Sha) (db : Db) (plan : Proposal) : Outcome Unit :=
  require ((db.taskSpecMutations[idempotencyKey plan]?).any fun m => m.taskId = plan.taskId &&
      m.expectedRevision = plan.expectedRevision && m.requestedSha256 = TaskSpecs.taskSpecDigest sha plan.taskJson &&
      m.resultingRevision = resultingRevision)
    ⟨"receipt-conflict","existing publication receipt lacks the exact authoritative mutation binding"⟩

/-- `_publication_replay_plan_binding`: a typed publication registers, so it has no preimage. -/
def replayPlanBinding (plan : Proposal) : Outcome Unit :=
  require (plan.expectedRevision = none)
    ⟨"task-spec-binding-invalid","new TaskSpec registration must bind a null StateStore preimage"⟩

/-! The calls. -/

/-- A revision a call has set, with the lease table at that moment and the last reading of the clock
before it, both taken under the locks of the write. -/
structure Written where
  current : TaskSpecs.CurrentSpec
  binding : LeaseBinding
  leases : String → Option Lease
  now : Int

/-- The store, the resource databases and the files, and what the calls have done so far: the
revisions they set, the receipt digests they bound to the mutation row, and the files they accepted,
each with the schema of the evidence. -/
structure Shared where
  db : Db
  evidence : Option Evidence
  leases : String → String → Option Lease
  files : String → Option Json
  writes : List Written
  commits : List String
  accepted : List (ℕ × Json)

inductive Phase where
  -- next: is there a receipt file
  | begun
  -- a receipt file was read; next: the trusted evidence
  | replaying (receipt : Json)
  -- next: the mutation row
  | replayMatched (receipt : Json) (schema : ℕ)
  -- next: the evidence of schema 2 becomes evidence of schema 3
  | upgrading (receipt : Json)
  -- next: the preview and the leases
  | receiptAbsent
  -- next: the pinned transaction
  | previewed
  -- next: readback and projection
  | written (result : TaskSpecs.PutResult) (leases : NormalizedLeases)
  -- next: the release of the leases
  | readBack (result : TaskSpecs.PutResult) (leases : NormalizedLeases) (roots : Roots)
  -- next: the evidence
  | released (result : TaskSpecs.PutResult) (leases : NormalizedLeases) (roots : Roots)
  -- next: the receipt file
  | evidenced (receipt : Json)
  -- the file was there already; next: read it
  | writeFailed
  -- next: the readback of the file
  | stored (receipt : Json)

structure Call where
  binding : LeaseBinding
  planFileSha256 : String
  resourceDb : String
  receiptPath : String
  phase : Phase

/-- Who acts on the shared state: a publication, another writer of the store, the holders of leases,
and whoever puts something where a receipt is expected. -/
inductive Actor where
  | publish (call : Call)
  | writer (writer : Writer)
  | leaseHolder (leases : String → String → Option Lease)
  | fileWriter (path : String) (content : Option Json)

/-- What a step reads elsewhere: the check of the proposal, the metadata of the resource database, the
clock at the validation of the leases and again before the put, the roots of a projection. -/
structure Reading where
  validated : Outcome Unit
  database : Outcome ResourceDb
  now : Int
  current : Int
  time : Time
  createdAt : String
  roots : Outcome Roots

variable (E : Env) (K : Contracts) (I : Intake) (plan : Proposal)

def Call.at (call : Call) (phase : Phase) : Option Actor := some (.publish { call with phase := phase })

/-- `_publish_task_spec_with_pinned_authority`: validation of the leases, their lifetime and the put,
with both databases locked. -/
def publishPinned (s : Shared) (call : Call) (i : Reading) : Outcome (Shared × Option Actor) := do
  i.validated
  let leases ← validatePublicationLeases E.sha I plan (s.leases call.resourceDb) call.binding i.database i.now
  requireCurrentLifetime leases i.current
  match TaskSpecs.put E i.time s.db plan.taskJson (idempotencyKey plan) plan.expectedRevision
      "operator-intake-authorized-proposal" with
  | .error _ => .error ⟨"task-spec-state-mutation-failed","cannot register reviewed TaskSpec in StateStore"⟩
  | .ok (result,db) =>
    let written : Written := ⟨result.current,call.binding,s.leases call.resourceDb,i.current⟩
    let writes := if result.changed then s.writes ++ [written] else s.writes
    return ({ s with db := db, writes := writes },call.at (.written result leases))

/-- Bind the digest of a receipt to the mutation row; `refusal` is how the caller reports a refusal of
the store. -/
def bindEvidence (s : Shared) (receipt : Json) (specSha256 : String) (revision : ℕ)
    (refusal : OperatorIntakeError) : Outcome Shared := do
  let candidate ← receiptCommitment E.sha receipt
  match storeEvidence E.sha s.db s.evidence plan specSha256 revision
      ((receipt.get? "proposal_sha256").getD .null) candidate with
  | .error _ => .error refusal
  | .ok evidence =>
    return { s with evidence := some evidence, commits := s.commits ++ candidate.receiptSha256.toList }

def replayStep (s : Shared) (call : Call) (i : Reading) : Phase → Outcome (Shared × Option Actor)
  | .replaying receipt => do
    replayPlanBinding plan
    let trusted ← mutationEvidence E.sha s.db s.evidence plan
    let schema ← matchReceipt E.sha I plan call.planFileSha256 receipt trusted i.roots
    return (s,call.at (.replayMatched receipt schema))
  | .replayMatched receipt schema => do
    validateMutation E.sha s.db plan
    if schema = 2 then return (s,call.at (.upgrading receipt))
    else return ({ s with accepted := s.accepted ++ [(schema,receipt)] },none)
  | .upgrading receipt => do
    let s ← bindEvidence E plan s receipt (TaskSpecs.taskSpecDigest E.sha plan.taskJson) resultingRevision
      ⟨"publication-receipt-evidence-upgrade-failed",
        "schema-v2 publication evidence cannot be upgraded to the exact receipt binding"⟩
    return ({ s with accepted := s.accepted ++ [(2,receipt)] },none)
  | _ => return (s,none)

def effectStep (s : Shared) (call : Call) (i : Reading) : Phase → Outcome (Shared × Option Actor)
  | .receiptAbsent => do
    i.validated
    let _ ← validatePublicationLeases E.sha I plan (s.leases call.resourceDb) call.binding i.database i.now
    return (s,call.at .previewed)
  | .previewed => publishPinned E I plan s call i
  | .written result leases => do
    require (result.current.specSha256 = TaskSpecs.taskSpecDigest E.sha plan.taskJson)
      ⟨"task-spec-digest-divergence","StateStore TaskSpec digest differs from reviewed proposal digest"⟩
    let current := (TaskSpecs.getCurrent E.sha s.db plan.taskId).toOption.join
    require (current.any fun c => c.revision = result.current.revision &&
        c.specSha256 = result.current.specSha256 && c.spec = plan.taskJson)
      ⟨"task-spec-state-readback-ambiguous",
        "StateStore post-publication readback differs from the reviewed TaskSpec revision"⟩
    let roots ← i.roots
    return (s,call.at (.readBack result leases roots))
  | .readBack result leases roots => do
    let table ← releaseLeases (s.leases call.resourceDb) leases
    return ({ s with leases := Function.update s.leases call.resourceDb table },
      call.at (.released result leases roots))
  | .released result leases roots => do
    let receipt := signReceipt E.sha
      (unsignedReceipt E.sha I plan call.planFileSha256 result leases roots i.createdAt)
    let s ← bindEvidence E plan s receipt result.current.specSha256 result.current.revision
      ⟨"publication-receipt-evidence-bind-failed",
        "publication lease release succeeded but its exact TaskSpec mutation cannot accept the trusted receipt " ++
          "evidence"⟩
    return (s,call.at (.evidenced receipt))
  | .evidenced receipt =>
    if (s.files call.receiptPath).isSome then return (s,call.at .writeFailed)
    else return ({ s with files := Function.update s.files call.receiptPath (some receipt) },
      call.at (.stored receipt))
  | .stored receipt => do
    let existing ← orRaise (s.files call.receiptPath) ⟨"receipt-read-failed","cannot read publication receipt"⟩
    readReceipt E.sha existing
    require (existing = receipt)
      ⟨"receipt-conflict","typed publication receipt changed after create-only write"⟩
    return (s,none)
  | _ => return (s,none)

/-- One atomic step of `publish_task_proposal`. -/
def publishStep (s : Shared) (call : Call) (i : Reading) : Outcome (Shared × Option Actor) :=
  match call.phase with
  | .begun =>
    match s.files call.receiptPath with
    | none => return (s,call.at .receiptAbsent)
    | some existing => do
      readReceipt E.sha existing
      return (s,call.at (.replaying existing))
  | .writeFailed => do
    let existing ← orRaise (s.files call.receiptPath)
      ⟨"receipt-write-unclear","StateStore publication succeeded but receipt write failed"⟩
    readReceipt E.sha existing
    return (s,call.at (.replaying existing))
  | .replaying _ | .replayMatched .. | .upgrading _ => replayStep E I plan s call i call.phase
  | .receiptAbsent | .previewed | .written .. | .readBack .. | .released .. | .evidenced _ | .stored _ =>
    effectStep E I plan s call i call.phase

def advance (_ : ℕ) (s : Shared) (actor : Actor) (i : Reading) : Shared × Option Actor :=
  match actor with
  | .publish call =>
    match publishStep E I plan s call i with
    | .ok next => next
    | .error _ => (s,none)
  | .writer writer => ({ s with db := writer.step E K s.db },none)
  | .leaseHolder leases => ({ s with leases := leases },none)
  | .fileWriter path content => ({ s with files := Function.update s.files path content },none)

end Publication

end Bureau
