import Bureau.OpenPullRequests

/-!
The dispatcher: the registry snapshot it plans from, and the reasons that keep a task from
being claimed.
-/

namespace Bureau

open Transactions

namespace Db

/-- The rows of `runs` in an active state. -/
def activeRuns (db : Db) : List (String × RunRow) :=
  db.runs.toList.filter fun item => item.2.state.active

@[simp] theorem mem_activeRuns {db : Db} {item : String × RunRow} :
    item ∈ db.activeRuns ↔ db.runs[item.1]? = some item.2 ∧ item.2.state.active = true := by
  obtain ⟨runId,row⟩ := item
  simp [activeRuns,Std.ExtTreeMap.mem_toList_iff_getElem?_eq_some]

def holdList (db : Db) (runId : String) : List Reservation :=
  (db.heldBy runId).toList.map fun hold => ⟨runId,hold.1,hold.2.mode,hold.2.amount⟩

/-- `StateStore.reservations`: what active runs hold, without an excluded run. -/
def reservationList (db : Db) (exclude : Option String) : List Reservation :=
  ((db.activeRuns.filter fun item => !isSet exclude || exclude ≠ some item.1).map fun item =>
    db.holdList item.1).flatten

@[simp] theorem mem_holdList {db : Db} {runId : String} {held : Reservation} :
    held ∈ db.holdList runId ↔ held.runId = runId ∧
      ∃ hold, (db.heldBy runId)[held.resource]? = some hold ∧ hold.mode = held.mode ∧
        hold.amount = held.amount := by
  simp only [holdList,List.mem_map,Prod.exists,Std.ExtTreeMap.mem_toList_iff_getElem?_eq_some]
  constructor
  · rintro ⟨resource,hold,hget,rfl⟩
    exact ⟨rfl,hold,hget,rfl,rfl⟩
  · rintro ⟨rfl,hold,hget,hmode,hamount⟩
    refine ⟨held.resource,hold,hget,?_⟩
    rw [hmode,hamount]

@[simp] theorem mem_reservationList {db : Db} {exclude : Option String} {held : Reservation} :
    held ∈ db.reservationList exclude ↔
      (∃ row, db.runs[held.runId]? = some row ∧ row.state.active = true) ∧
      (isSet exclude = true → exclude ≠ some held.runId) ∧ held ∈ db.holdList held.runId := by
  simp only [reservationList,List.mem_flatten,List.mem_map,List.mem_filter,mem_activeRuns,Prod.exists]
  constructor
  · rintro ⟨_,⟨runId,row,⟨⟨hrow,hactive⟩,hexclude⟩,rfl⟩,hmem⟩
    obtain ⟨rfl,-⟩ := mem_holdList.mp hmem
    refine ⟨⟨row,hrow,hactive⟩,?_,hmem⟩
    intro hset
    simpa [hset] using hexclude
  · rintro ⟨⟨row,hrow,hactive⟩,hexclude,hmem⟩
    refine ⟨_,⟨held.runId,row,⟨⟨hrow,hactive⟩,?_⟩,rfl⟩,hmem⟩
    by_cases hset : isSet exclude = true
    · simpa [hset] using hexclude hset
    · simp [hset]

end Db

inductive Reason where
  | acceptance (diagnostic : String)
  | state (state : TaskState)
  | children (ids : List String)
  | initiativeState (state : String)
  | initiativeCommitment (commitment : String)
  | execution (mode policy : String)
  | capabilities (missing : List String)
  | dependency (id : String) (state : TaskState)
  | activeRun (taskId runId : String)
  | parallelLimit (limit : Int)
  | openPr (reason : OpenPrReason)
  | rlens (reason : String)
  | claim (reason : ClaimReason)
  | broadScope
  deriving DecidableEq

def Reason.text : Reason → String
  | .acceptance diagnostic =>
    "invalid acceptance contract: " ++ diagnostic ++
      "; repair the TaskSpec acceptance contract before claim"
  | .state s => "state is " ++ s.text
  | .children ids => "parent task blocked by nonterminal child tasks: " ++ ", ".intercalate ids
  | .initiativeState s => "initiative state is " ++ s
  | .initiativeCommitment commitment => "initiative commitment is " ++ commitment
  | .execution mode policy => "execution is " ++ mode ++ "/" ++ policy
  | .capabilities missing => "missing capabilities: " ++ ", ".intercalate missing
  | .dependency id s => "dependency " ++ id ++ " is " ++ s.text
  | .activeRun taskId runId => "active run for task " ++ taskId ++ ": " ++ runId
  | .parallelLimit limit => "initiative parallel limit " ++ toString limit ++ " reached"
  | .openPr reason => reason.text
  | .rlens reason => "rlens policy blocked: " ++ reason
  | .claim reason => reason.text
  | .broadScope => "broad Bureau scope requires authority-bound reviewed plan evidence"

/-- A dispatcher plans from the registry it read when it was built. -/
structure Dispatcher where
  registry : Registry
  authority : Authority
  revisions : Table RevisionRef
  deriving DecidableEq

/-- `Dispatcher.__init__` over the registry files and the store. -/
def Dispatcher.init (sha : Sha) (files : Registry) (db : Db) : Result Dispatcher := do
  let (registry,authority,revisions) ← authoritativeTaskRegistry sha files db
  return ⟨registry,authority,revisions⟩

/-- What one call observes outside the database: open pull requests, the write scopes of working
copies, the closure plan, and the task whose broad scope has been reviewed. -/
structure Observed where
  openPrs : List OpenPr
  writeScope : WriteScopes
  closureBridgeTaskIds : List String
  broadScopeReviewedTask : Option String

/-- The state of the store `reasons` judges a task in. -/
structure ClaimContext where
  capabilities : List String
  runs : List (String × RunRow)
  reservations : List Reservation
  overlay : Table TaskState
  initiatives : Table Initiative

def broadBureauRepositoryKey := "repo:/home/alex/repos/bureau"

/-- `assess_task_broad_bureau_scope`: whether the claims or the lease keys name the Bureau
repository as a whole. -/
def broadScopeRequested (resources : Resources) (task : Task) : Bool :=
  (task.execution.getStrings "grabowski_resources").contains broadBureauRepositoryKey ||
    task.claims.any fun claim =>
      claim.resource = "repo.bureau" ||
        (resources[claim.resource]?).any fun r => r.grabowskiKey = some broadBureauRepositoryKey

/-- `_closure_bridge_contract_applies`. -/
def closureBridgeApplies (ids : List String) (task : Task) (state : TaskState)
    (initiative : Initiative) : Bool :=
  task.id ∈ ids && state = .planned &&
    (initiative.state = "completion-ready" || initiative.state = "completed") &&
    initiative.commitment = "completed" && task.mode = "interactive-agent" &&
    task.policy = "review-before-effect"

namespace Dispatcher

/-- `_task_reverification_candidate`: a ready TaskSpec may replace its own stale verified row. -/
def reverificationCandidate (sha : Sha) (d : Dispatcher) (db : Db) (task : Task) (state : TaskState)
    (initiative : Initiative) : Bool :=
  state = .stale && task.state = .ready && d.authority = .stateStoreTaskSpecs &&
    (d.revisions[task.id]?).any (fun r => r.specSha256 = TaskSpecs.taskSpecDigest sha task.raw) &&
    (db.taskStatus[task.id]?).any fun row =>
      row.state = .verified && isSet row.receiptSha256 && row.taskSha256 ≠ "" && row.planSha256 ≠ "" &&
        row.taskSha256 ≠ task.sha256 && row.planSha256 = initiative.planSha256 sha

def acceptanceReasons (E : Env) (task : Task) (state : TaskState) : List Reason :=
  if state.terminal then []
  else
    match E.acceptanceError task.raw with
    | some message => [.acceptance (message.splitOn "\n").head!]
    | none => []

def childTasks (d : Dispatcher) (task : Task) : List Task :=
  (d.registry.tasks.toList.map Prod.snd).filter fun child => child.parentTask? = some task.id

def blockingChildren (d : Dispatcher) (overlay : Table TaskState) (task : Task) : List String :=
  if task.independentlyExecutable then []
  else
    ((d.childTasks task).filter fun child =>
      !(child.state.terminal || (overlay[child.id]?).any TaskState.terminal)).map (·.id)

/-- The lifecycle reasons: acceptance contract, task state, children, initiative and execution. -/
def lifecycleReasons (E : Env) (d : Dispatcher) (db : Db) (observed : Observed) (ctx : ClaimContext)
    (task : Task) (initiative : Initiative) : List Reason :=
  let state := effectiveState ctx.overlay task.id task
  let closureBridge := closureBridgeApplies observed.closureBridgeTaskIds task state initiative
  let children := d.blockingChildren ctx.overlay task
  acceptanceReasons E task state ++
    (if state ≠ .ready ∧ ¬ closureBridge ∧ ¬ d.reverificationCandidate E.sha db task state initiative then
      [.state state] else []) ++
    (if children.isEmpty then [] else [.children children]) ++
    (if initiative.state ≠ "active" ∧ ¬ closureBridge then [.initiativeState initiative.state] else []) ++
    (if initiative.commitment ≠ "now" ∧ initiative.commitment ≠ "next" ∧ ¬ closureBridge then
      [.initiativeCommitment initiative.commitment] else []) ++
    (if (task.policy ≠ "autonomous" ∨ task.mode = "manual") ∧ ¬ closureBridge then
      [.execution task.mode task.policy] else [])

def capabilityReasons (capabilities : List String) (task : Task) : List Reason :=
  let missing := sortedSet (task.capabilities.filter fun c => c ∉ capabilities)
  if missing.isEmpty then [] else [.capabilities missing]

def dependencyReason (d : Dispatcher) (overlay : Table TaskState) (dependency : String) :
    Result (List Reason) := do
  let task ← orRaise d.registry.tasks[dependency]? (.state ("KeyError: " ++ dependency))
  let state := effectiveState overlay dependency task
  return if state = .verified then [] else [.dependency dependency state]

def dependencyReasons (d : Dispatcher) (overlay : Table TaskState) (task : Task) : Result (List Reason) := do
  let blockers ← collect (d.dependencyReason overlay) task.dependsOn
  return blockers.flatten

def activeRunReasons (runs : List (String × RunRow)) (task : Task) : List Reason :=
  match runs.find? fun item => item.2.taskId = task.id with
  | some item => [.activeRun task.id item.1]
  | none => []

def activeForInitiative (d : Dispatcher) (runs : List (String × RunRow)) (initiative : String) : ℕ :=
  (runs.filter fun item => (d.registry.tasks[item.2.taskId]?).any (·.initiative = initiative)).length

def parallelReasons (d : Dispatcher) (runs : List (String × RunRow)) (task : Task)
    (initiative : Initiative) : List Reason :=
  if initiative.maxActiveTasks ≤ d.activeForInitiative runs task.initiative then
    [.parallelLimit initiative.maxActiveTasks]
  else []

def claimReasons (resources : Resources) (reservations : List Reservation) (task : Task) : List Reason :=
  task.claims.flatMap fun claim => (claimConflicts claim reservations resources).map .claim

/-- `Dispatcher.reasons` of the base dispatcher. -/
def baseReasons (E : Env) (d : Dispatcher) (db : Db) (observed : Observed) (ctx : ClaimContext)
    (task : Task) : Result (List Reason) := do
  let initiative ← orRaise ctx.initiatives[task.initiative]? (.state ("KeyError: " ++ task.initiative))
  let dependencies ← d.dependencyReasons ctx.overlay task
  return d.lifecycleReasons E db observed ctx task initiative ++
    capabilityReasons ctx.capabilities task ++ dependencies ++ activeRunReasons ctx.runs task ++
    d.parallelReasons ctx.runs task initiative ++
    (openPrReasons E.sha observed.writeScope d.registry ctx.overlay task observed.openPrs).map .openPr ++
    ((E.rlensBlockReason task.raw).filter (· ≠ "")).toList.map .rlens ++
    claimReasons d.registry.resources ctx.reservations task

def broadScopeReasons (d : Dispatcher) (observed : Observed) (task : Task) : List Reason :=
  if broadScopeRequested d.registry.resources task ∧ ¬ task.state.terminal ∧
      observed.broadScopeReviewedTask ≠ some task.id then
    [.broadScope]
  else []

/-- `Dispatcher.reasons` of the public dispatcher. -/
def reasons (E : Env) (d : Dispatcher) (db : Db) (observed : Observed) (ctx : ClaimContext)
    (task : Task) : Result (List Reason) := do
  let base ← d.baseReasons E db observed ctx task
  return base ++ d.broadScopeReasons observed task

end Dispatcher

end Bureau
