import Bureau.TaskSpecs

/-!
The registry the dispatcher plans from: resources and initiatives from Git, tasks from the
authoritative TaskSpecs of the StateStore where there are any, and the effective task
states of the store.
-/

namespace Bureau

open Transactions

structure Initiative where
  state : String
  commitment : String
  maxActiveTasks : Int
  currentPlan : Option Json
  deriving DecidableEq

structure Task where
  id : String
  initiative : String
  state : TaskState
  dependsOn : List String
  capabilities : List String
  lane : String
  rank : Int
  execution : Json
  claims : List Claim
  raw : Json
  sha256 : String
  deriving DecidableEq

namespace Task

def policy (task : Task) : String :=
  (task.execution.getStr? "policy").getD ""

def mode (task : Task) : String :=
  (task.execution.getStr? "mode").getD ""

def metadata? (task : Task) : Option Json :=
  (task.raw.get? "metadata").filter Json.isObj

def parentTask? (task : Task) : Option String :=
  task.metadata?.bind (·.getStr? "parent_task")

def independentlyExecutable (task : Task) : Bool :=
  (task.metadata?.bind (·.get? "independently_executable")) = some (.bool true)

end Task

structure Registry where
  resources : Resources
  initiatives : Table Initiative
  tasks : Table Task
  queuePolicy : String
  deriving DecidableEq

/-- `task_revision_sha256`: the digest of a TaskSpec without its lifecycle state and its
verification stamp. -/
def revisionDocument (raw : Json) : Json :=
  let payload := raw.pop "state"
  match payload.get? "metadata" with
  | some (.obj fields) =>
    let metadata := (Json.obj fields).pop "verification"
    if metadata = .obj [] then payload.pop "metadata" else payload.set "metadata" metadata
  | _ => payload

theorem Json.Ordered.revisionDocument {spec : Json} (h : spec.Ordered) : (revisionDocument spec).Ordered := by
  unfold Bureau.revisionDocument
  simp only
  split
  · split
    · exact (h.pop _).pop _
    · exact (h.pop _).set _ _
  · exact h.pop _

@[simp] theorem isObj_revisionDocument (spec : Json) : (revisionDocument spec).isObj = spec.isObj := by
  unfold revisionDocument
  simp only
  split
  · split <;> simp
  · simp

theorem get?_revisionDocument {spec : Json} (hmetadata : (spec.get? "metadata").all Json.isObj = true)
    (key : String) : (revisionDocument spec).get? key =
      if key = "state" then none
      else if key = "metadata" then
        ((spec.get? "metadata").map (·.pop "verification")).filter fun metadata => metadata ≠ .obj []
      else spec.get? key := by
  have hstate : (spec.pop "state").get? "metadata" = spec.get? "metadata" := spec.get?_pop_ne (by decide)
  unfold revisionDocument
  simp only [hstate]
  split
  · rename_i fields hfields
    have hspec : ∃ all, spec.pop "state" = .obj all := by
      cases spec <;> simp_all [Json.get?,Json.pop]
    obtain ⟨all,hall⟩ := hspec
    split
    · rename_i hempty
      by_cases hm : key = "metadata"
      · simp [hm,hfields,hempty,Option.filter]
      · rw [Json.get?_pop_ne _ hm,if_neg hm]
        by_cases hs : key = "state"
        · simp [hs]
        · rw [Json.get?_pop_ne _ hs,if_neg hs]
    · rename_i hnonempty
      by_cases hm : key = "metadata"
      · simp [hm,hfields,hall,hnonempty,Option.filter]
      · rw [Json.get?_set_ne _ _ hm,if_neg hm]
        by_cases hs : key = "state"
        · simp [hs]
        · rw [Json.get?_pop_ne _ hs,if_neg hs]
  · rename_i hnone
    have habsent : spec.get? "metadata" = none := by
      cases hm : spec.get? "metadata" with
      | none => rfl
      | some m => cases m <;> simp_all [Json.isObj]
    by_cases hs : key = "state"
    · simp [hs]
    · rw [Json.get?_pop_ne _ hs,if_neg hs]
      by_cases hm : key = "metadata"
      · simp [hm,habsent]
      · rw [if_neg hm]

def taskRevisionSha256 (sha : Sha) (raw : Json) : String :=
  sha256Json sha (revisionDocument raw)

def Initiative.planSha256 (sha : Sha) (initiative : Initiative) : String :=
  sha256Json sha (initiative.currentPlan.getD (.obj []))

def planSha256 (sha : Sha) (registry : Registry) (initiative : String) : Result String := do
  let initiative ← orRaise registry.initiatives[initiative]? (.state ("KeyError: " ++ initiative))
  return initiative.planSha256 sha

def Mode.ofText? : String → Option { mode : Mode // mode.claimable = true }
  | "read" => some ⟨.read,rfl⟩
  | "write" => some ⟨.write,rfl⟩
  | "exclusive" => some ⟨.exclusive,rfl⟩
  | "capacity" => some ⟨.capacity,rfl⟩
  | _ => none

/-- `Claim.from_raw` on a document the task schema accepts. -/
def Claim.fromRaw (raw : Json) : Result Claim := do
  let resource ← orRaise (raw.getStr? "resource") (.state "claim resource is missing")
  let mode ← orRaise ((raw.getStr? "mode").bind Mode.ofText?) (.state "claim mode is invalid")
  return ⟨resource,mode.1,((raw.get? "amount").bind Json.int?).getD 1,
    (raw.getStr? "isolation").getD "none",mode.2⟩

def Claim.asDict (claim : Claim) : Json :=
  .obj [("amount",.num claim.amount),("isolation",.str claim.isolation),("mode",.str claim.mode.text),
    ("resource",.str claim.resource)]

/-- `sorted(set(values))`. -/
def sortedSet (values : List String) : List String :=
  values.eraseDups.insertionSort (· ≤ ·)

/-- `_task_from_authoritative_spec` on a document the task schema accepts; another state or claim
mode is refused. -/
def taskFromAuthoritativeSpec (sha : Sha) (spec : Json) : Result Task := do
  require ((spec.getArr "acceptance").all fun c => c.str?.isSome || c.isObj)
    (.state ("invalid acceptance criterion in authoritative TaskSpec " ++ (spec.getStr? "id").getD ""))
  let state ← orRaise ((spec.getStr? "state").bind TaskState.ofText?) (.state "task state is invalid")
  let claims ← collect Claim.fromRaw (spec.getArr "claims")
  let priority := ((spec.get? "priority").filter Json.isObj).getD (.obj [])
  return {
    id := (spec.getStr? "id").getD ""
    initiative := (spec.getStr? "initiative").getD ""
    state := state
    dependsOn := spec.getStrings "depends_on"
    capabilities := sortedSet (spec.getStrings "required_capabilities")
    lane := (priority.getStr? "lane").getD "later"
    rank := ((priority.get? "rank").bind Json.int?).getD 1000
    execution := (spec.get? "execution").getD (.obj [])
    claims := claims
    raw := spec
    sha256 := taskRevisionSha256 sha spec }

def validInitiativeStates : List String :=
  ["inbox","candidate","committed","active","waiting","completion-ready","completed","dropped"]

/-- Check the values in order; the error names the first one that fails. -/
def requireAll {α : Type} (ok : α → Bool) (message : α → String) : List α → Result Unit
  | [] => .ok ()
  | a :: rest => do
    require (ok a) (.state (message a))
    requireAll ok message rest

/-- `_state_store_initiative_registry`: stored initiative states override the Git ones. -/
def stateStoreInitiativeRegistry (registry : Registry) (db : Db) : Result Registry := do
  requireAll
    (fun item : String × InitiativeStatusRow =>
      !registry.initiatives.contains item.1 || item.2.state ∈ validInitiativeStates)
    (fun item => "initiative " ++ item.1 ++ " has invalid StateStore state " ++ item.2.state)
    db.initiativeStatus.toList
  return { registry with
    initiatives := registry.initiatives.map fun id initiative =>
      match db.initiativeStatus[id]? with
      | some row => { initiative with state := row.state }
      | none => initiative }

inductive Authority where
  | legacyGitBootstrap | stateStoreTaskSpecs
  deriving DecidableEq

structure RevisionRef where
  revision : Option ℕ
  specSha256 : String
  deriving DecidableEq

def Task.declaredParent (task : Task) : Option Json :=
  (task.metadata?.bind (·.get? "parent_task")).filter (· ≠ .null)

/-- The checks of an authoritative task against the registry it joins. -/
def checkAuthoritativeTask (registry : Registry) (tasks : Table Task) (task : Task) : Result Unit := do
  let subject := "authoritative TaskSpec " ++ task.id
  require (registry.initiatives.contains task.initiative)
    (.state (subject ++ " references unknown initiative " ++ task.initiative))
  requireAll (fun d => tasks.contains d) (fun d => subject ++ " references unknown dependency " ++ d)
    task.dependsOn
  require (task.declaredParent.all fun p => p.str?.any fun id => tasks.contains id)
    (.state (subject ++ " references unknown parent task " ++ task.parentTask?.getD "None"))
  require (task.parentTask? ≠ some task.id) (.state (subject ++ " cannot parent itself"))
  requireAll (fun c => registry.resources.contains c.resource)
    (fun c => subject ++ " references unknown resource " ++ c.resource) task.claims

/-- One task of the authoritative view with the revision it was read from. -/
def authoritativeTask (sha : Sha) (item : TaskSpecs.CurrentSpec) : Result Task := do
  require (TaskSpecs.taskSpecDigest sha item.spec = item.specSha256)
    (.state ("authoritative TaskSpec digest drift for " ++ item.taskId))
  let task ← taskFromAuthoritativeSpec sha item.spec
  require (task.id = item.taskId) (.state ("authoritative TaskSpec id drift for " ++ item.taskId))
  return task

/-- `_authoritative_task_registry_from_connection`: Git tasks until the StateStore has TaskSpecs. -/
def authoritativeTaskRegistry (sha : Sha) (registry : Registry) (db : Db) :
    Result (Registry × Authority × Table RevisionRef) := do
  let base ← stateStoreInitiativeRegistry registry db
  let specs ← TaskSpecs.currentProjection sha db
  if specs.isEmpty then
    return (base,.legacyGitBootstrap,base.tasks.map fun _ task => RevisionRef.mk none task.sha256)
  else
    let tasks ← collect (authoritativeTask sha) specs
    let table : Table Task := Std.ExtTreeMap.ofList (tasks.map fun task => (task.id,task))
    let _ ← collect (checkAuthoritativeTask base table) tasks
    return ({ base with tasks := table },.stateStoreTaskSpecs,
      Std.ExtTreeMap.ofList (specs.map fun spec => (spec.taskId,RevisionRef.mk (some spec.revision) spec.specSha256)))

end Bureau
