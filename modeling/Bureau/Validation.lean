import Bureau.Registry
import Bureau.Search

/-!
`Registry.validate`: the checks of a registry as it was read from its files. Every check adds its
messages, and the source sorts them at the end; a check may also end in an exception of the language
where a value has a type it cannot use. A registry without either is accepted.
-/

namespace Bureau

open Transactions

/-! The documents as `_load` reads them, before anything is checked. -/

/-- Apart from the id and the type, the fields are taken over unread; an absent one is null. -/
structure LoadedResource where
  id : String
  type : String
  parent : Json
  capacity : Json
  path : Json
  githubSlug : Json
  grabowskiKey : Json
  criticality : Json
  deriving DecidableEq

structure LoadedInitiative where
  id : String
  title : String
  state : String
  commitment : String
  maxActiveTasks : Int
  deriving DecidableEq

structure LoadedClaim where
  resource : String
  mode : String
  amount : Int
  isolation : String
  deriving DecidableEq

structure LoadedTask where
  id : String
  initiative : String
  state : String
  dependsOn : List Json
  lane : String
  execution : Json
  claims : List LoadedClaim
  acceptance : List Json
  raw : Json
  deriving DecidableEq

/-- The registry in the order of its files; `_unique` has refused a second file with the same id. -/
structure LoadedRegistry where
  resources : List LoadedResource
  initiatives : List LoadedInitiative
  tasks : List LoadedTask
  queue : List (String × List Json)
  distinctResources : (resources.map (·.id)).Nodup
  distinctInitiatives : (initiatives.map (·.id)).Nodup
  distinctTasks : (tasks.map (·.id)).Nodup

/-- The operations on paths of the standard library; `resolve` reads the file system and may raise. -/
structure PathOps where
  normpath : String → String
  resolve : String → Option String
  within : String → String → Bool

/-- What a check finds: a message, or an exception that ends the validation. -/
inductive Finding where
  | message (text : String)
  | exception
  deriving DecidableEq

def Finding.text? : Finding → Option String
  | .message text => some text
  | .exception => none

def expect (holds : Bool) (text : String) : List Finding :=
  if holds then [] else [.message text]

/-! Identifiers. -/

/-- `T` and digits. -/
def isOrdinal : List Char → Bool
  | c :: digits => (c = 'T' || c = 't') && digits ≠ [] && digits.all Char.isDigit
  | [] => false

def isBareLocalTaskOrdinal (reference : String) : Bool :=
  isOrdinal (strip reference)

/-- The trailing `T`-number of a reference, behind a separator or alone. -/
def localTaskOrdinal (id : String) : Option String :=
  let chars := strip id
  if isOrdinal chars then some (String.ofList (chars.map Char.toUpper))
  else
    let digits := chars.reverse.takeWhile Char.isDigit
    match chars.reverse.drop digits.length with
    | letter :: separator :: before =>
      if isOrdinal (letter :: digits.reverse) && "-_.:".toList.contains separator && before ≠ [] &&
          !before.contains '\n' then
        some (String.ofList ('T' :: digits.reverse))
      else none
    | _ => none

def isIdChar (c : Char) : Bool := c.isUpper || c.isDigit

/-- The rest of an id: groups of capitals and digits, with at least one dash. -/
def idRest : List Char → Bool → Bool → Bool
  | [], fresh, dashed => !fresh && dashed
  | c :: rest, fresh, dashed =>
    if c = '-' then !fresh && idRest rest true true else isIdChar c && idRest rest false dashed

/-- `ID_RE`. -/
def idMatches (s : String) : Bool :=
  match s.toList with
  | c :: rest => c.isUpper && idRest rest false false
  | [] => false

/-- `RESOURCE_RE`. -/
def resourceMatches (s : String) : Bool :=
  let plain (c : Char) := c.isLower || c.isDigit
  match s.toList with
  | c :: rest => plain c && rest.length ≤ 254 && rest.all fun c => plain c || "._:-".toList.contains c
  | [] => false

/-- `GITHUB_REPOSITORY_SLUG_RE`. -/
def slugMatches (s : String) : Bool :=
  let owner := s.toList.takeWhile (· ≠ '/')
  let name := (s.toList.dropWhile (· ≠ '/')).drop 1
  s.toList.contains '/' && owner.length ≤ 39 && owner.all (fun c => c.isAlphanum || c = '-') &&
    owner.head?.any Char.isAlphanum && owner.getLast?.any Char.isAlphanum &&
    1 ≤ name.length && name.length ≤ 100 && name.all fun c => c.isAlphanum || "._-".toList.contains c

def removePrefix (word text : String) : String :=
  String.ofList (text.toList.drop word.toList.length)

namespace LoadedTask

def terminal (task : LoadedTask) : Bool :=
  ["verified","cancelled","superseded"].contains task.state

def metadata? (task : LoadedTask) : Option Json :=
  (task.raw.get? "metadata").filter Json.isObj

def parentTask? (task : LoadedTask) : Option String :=
  task.metadata?.bind (·.getStr? "parent_task")

def independentlyExecutable (task : LoadedTask) : Bool :=
  (task.metadata?.bind (·.get? "independently_executable")) = some (.bool true)

end LoadedTask

namespace LoadedRegistry

def taskIds (r : LoadedRegistry) : List String := r.tasks.map (·.id)

def task? (r : LoadedRegistry) (id : String) : Option LoadedTask :=
  r.tasks.find? fun task => task.id = id

def resource? (r : LoadedRegistry) (id : String) : Option LoadedResource :=
  r.resources.find? fun resource => resource.id = id

def bareLocalReferenceError (r : LoadedRegistry) (reference context : String) : String :=
  let ordinal := String.ofList ((strip reference).map Char.toUpper)
  let known := sortedSet (r.taskIds.filter fun id => id ≠ "" && !isBareLocalTaskOrdinal id)
  let candidates := known.filter fun id => localTaskOrdinal id = some ordinal
  context ++ " uses bare local task ordinal " ++ reference ++
    "; canonical full task id or explicit namespace required" ++
    (if candidates.isEmpty then "" else "; canonical candidates: " ++ ", ".intercalate candidates)

/-! Resources. -/

/-- Resources that share a value with an earlier one; the first one with the value is named. -/
def duplicates (key : LoadedResource → Option String) (text : LoadedResource → LoadedResource → String → String) :
    List LoadedResource → List LoadedResource → List Finding
  | _, [] => []
  | seen, resource :: rest =>
    ((key resource).toList.flatMap fun value =>
      (seen.find? fun earlier => key earlier = some value).toList.map fun earlier =>
        .message (text earlier resource value)) ++ duplicates key text (seen ++ [resource]) rest

def boundedTypes : List String := ["capacity","failure-domain","recovery-path"]

def resilienceTypes : List String := ["failure-domain","recovery-path"]

def criticalities : List String := ["foundational","essential","important","supporting","optional"]

def resourceParentFindings (r : LoadedRegistry) (resource : LoadedResource) : List Finding :=
  if !resource.parent.truthy then []
  else if !resource.parent.hashable then [.exception]
  else expect (resource.parent.str?.bind r.resource?).isSome
    ("resource " ++ resource.id ++ " has unknown parent " ++ resource.parent.shown)

def boundFindings (resource : LoadedResource) : List Finding :=
  let text := "bounded resource " ++ resource.id ++ " needs positive capacity"
  if !boundedTypes.contains resource.type then []
  else if !resource.capacity.truthy then [.message text]
  else match resource.capacity.number? with
    | none => [.exception]
    | some capacity => expect (1 ≤ capacity) text

def criticalityFindings (resource : LoadedResource) : List Finding :=
  if !resilienceTypes.contains resource.type then []
  else if !resource.criticality.hashable then [.exception]
  else expect (resource.criticality.str?.any criticalities.contains)
    ("resilience resource " ++ resource.id ++ " needs valid criticality")

def grabowskiKeyFindings (paths : PathOps) (resource : LoadedResource) : List Finding :=
  if resource.type ≠ "git-repository" then
    expect (!resource.grabowskiKey.str?.any fun key => TaskSpecs.startsWith key "repo:")
      ("resource " ++ resource.id ++ " has repo grabowski_key but is not a git-repository")
  else
    match resource.path.str?, resource.grabowskiKey.str? with
    | some path, key =>
      if !TaskSpecs.startsWith path "/" then
        [.message ("git-repository resource " ++ resource.id ++ " path must be absolute")]
      else expect (key.all fun key => key = "repo:" ++ paths.normpath path)
        ("git-repository resource " ++ resource.id ++ " grabowski_key must be repo:" ++ paths.normpath path)
    | none, some _ => [.message ("git-repository resource " ++ resource.id ++ " with grabowski_key needs path")]
    | none, none => []

def slugFindings (resource : LoadedResource) : List Finding :=
  if resource.githubSlug = .null then []
  else if resource.type ≠ "git-repository" then
    [.message ("resource " ++ resource.id ++ " has github_slug but is not a git-repository")]
  else expect (resource.githubSlug.str?.any slugMatches) ("resource " ++ resource.id ++ " has invalid github_slug")

/-- A path or key that is given has to be a string for the library functions. -/
def textFindings (value : Json) : List Finding :=
  if value = .null || value.str?.isSome then [] else [.exception]

def resourceFindings (paths : PathOps) (r : LoadedRegistry) (resource : LoadedResource) : List Finding :=
  expect (resourceMatches resource.id) ("invalid resource id " ++ resource.id) ++
    r.resourceParentFindings resource ++ boundFindings resource ++ criticalityFindings resource ++
    textFindings resource.path ++ textFindings resource.grabowskiKey ++
    grabowskiKeyFindings paths resource ++ slugFindings resource

def sharedFindings (paths : PathOps) (r : LoadedRegistry) : List Finding :=
  duplicates (fun resource => resource.path.str?.map paths.normpath)
      (fun earlier resource path => "resources " ++ earlier.id ++ " (" ++ earlier.type ++ ") and " ++ resource.id ++
        " (" ++ resource.type ++ ") share path " ++ path) [] r.resources ++
    duplicates (·.grabowskiKey.str?)
      (fun earlier resource key => "resources " ++ earlier.id ++ " and " ++ resource.id ++
        " share grabowski_key " ++ key) [] r.resources ++
    duplicates (fun resource => (resource.githubSlug.str?.filter fun slug =>
        resource.type = "git-repository" && slugMatches slug).map String.toLower)
      (fun earlier resource _ => "resources " ++ earlier.id ++ " and " ++ resource.id ++ " share github_slug " ++
        resource.githubSlug.shown) [] r.resources

/-- `_resource_cycles`: the walk up from a resource comes back to a resource it has met. -/
def resourceCycles (r : LoadedRegistry) : List Finding :=
  let parent (id : String) := (r.resource? id).bind fun found => found.parent.str?.filter (· ≠ "")
  r.resources.flatMap fun resource =>
    (Search.findLoop parent (r.resources.length+2) resource.id []).toList.map fun _ =>
      .message ("resource parent cycle contains " ++ resource.id)

/-! Initiatives. -/

def initiativeStates : List String :=
  ["inbox","candidate","committed","active","waiting","completion-ready","completed","dropped"]

def commitments : List String := ["now","next","later","waiting","someday","completed"]

def initiativeFindings (initiative : LoadedInitiative) : List Finding :=
  expect (idMatches initiative.id) ("invalid initiative id " ++ initiative.id) ++
    expect (initiative.title ≠ "") ("initiative " ++ initiative.id ++ " has no title") ++
    expect (initiativeStates.contains initiative.state)
      ("initiative " ++ initiative.id ++ " has invalid state " ++ initiative.state) ++
    expect (commitments.contains initiative.commitment)
      ("initiative " ++ initiative.id ++ " has invalid commitment " ++ initiative.commitment) ++
    expect (1 ≤ initiative.maxActiveTasks) ("initiative " ++ initiative.id ++ " has invalid parallelism")

/-! Tasks. -/

def taskStates : List String := ["inbox","planned","ready","blocked","verified","cancelled","superseded"]

def claimModes : List String := ["read","write","exclusive","capacity"]

def policies : List String := ["autonomous","review-before-effect","manual","prohibited"]

def executionModes : List String := ["interactive-agent","grabowski-task","grabowski-operation","manual"]

def lanes : List String := ["now","next","later"]

def wordFindings (words : List String) (value : Option Json) (text : String) : List Finding :=
  if !value.all Json.hashable then [.exception] else expect ((value.bind Json.str?).any words.contains) text

def leasedPathFindings (paths : PathOps) (id repository path : String) : List Finding :=
  match paths.resolve repository, paths.resolve path with
  | some repository, some resolved =>
    if !paths.within resolved repository then
      [.message ("task " ++ id ++ " path-leased worktree resource is outside working_repository: " ++ path)]
    else expect (resolved ≠ repository)
      ("task " ++ id ++ " path-leased worktree resource must be below working_repository: " ++ path)
  | _, _ => [.exception]

def pathResourceFindings (paths : PathOps) (id repository : String) (keys : List String) : List Finding :=
  let leased := (keys.filter fun key => TaskSpecs.startsWith key "path:").map (removePrefix "path:")
  (if (paths.resolve repository).isSome then [] else [.exception]) ++
    expect (!(keys.any fun key => TaskSpecs.startsWith key "repo:") && !leased.isEmpty)
      ("task " ++ id ++ " path-leased worktree needs exact path resources without broad repo resources") ++
    leased.flatMap (leasedPathFindings paths id repository)

def worktreeFindings (paths : PathOps) (task : LoadedTask) : List Finding :=
  let isolation := (task.execution.get? "workspace_isolation").getD .null
  (if !isolation.hashable then [.exception] else expect (isolation = .null || isolation = .str "worktree")
    ("task " ++ task.id ++ " has invalid workspace isolation")) ++
    if isolation = .str "worktree" && !task.claims.any fun claim => claim.isolation = "worktree" then
      let repository := (task.execution.getStr? "working_repository").filter fun path => strip path ≠ []
      let keys := task.execution.getArr "grabowski_resources"
      expect repository.isSome ("task " ++ task.id ++ " path-leased worktree needs working_repository") ++
        if keys.isEmpty then
          [.message ("task " ++ task.id ++ " path-leased worktree needs grabowski_resources")]
        else if !keys.all fun key => key.str?.isSome then
          [.message ("task " ++ task.id ++ " path-leased worktree resources must be strings")]
        else repository.toList.flatMap fun repository =>
          pathResourceFindings paths task.id repository (keys.filterMap Json.str?)
    else []

/-- `task.mode` and `task.policy` read fields that may be absent; the policy only of a manual task. -/
def manualFindings (task : LoadedTask) : List Finding :=
  match task.execution.get? "mode" with
  | none => [.exception]
  | some mode =>
    if mode ≠ .str "manual" then []
    else match task.execution.get? "policy" with
      | none => [.exception]
      | some policy => expect (policy ≠ .str "autonomous") ("manual task " ++ task.id ++ " cannot be autonomous")

def acceptanceFindings (task : LoadedTask) : List Finding :=
  let ids := task.acceptance.map fun criterion => (criterion.get? "id").getD .null
  expect (!task.acceptance.isEmpty) ("task " ++ task.id ++ " has no acceptance criteria") ++
    -- the set of the ids is only built where none of them is absent
    if ids.contains .null then [.message ("task " ++ task.id ++ " has invalid acceptance IDs")]
    else if !ids.all Json.hashable then [.exception]
    else expect ((ids.map Json.setKey).eraseDups.length = ids.length)
      ("task " ++ task.id ++ " has invalid acceptance IDs")

def taskFieldFindings (paths : PathOps) (r : LoadedRegistry) (task : LoadedTask) : List Finding :=
  (if isBareLocalTaskOrdinal task.id then
      [.message ("task " ++ task.id ++
        " uses bare local task ordinal as canonical id; canonical full task id required")]
    else expect (idMatches task.id) ("invalid task id " ++ task.id)) ++
    expect (r.initiatives.any fun initiative => initiative.id = task.initiative)
      ("task " ++ task.id ++ " has unknown initiative " ++ task.initiative) ++
    expect (taskStates.contains task.state) ("task " ++ task.id ++ " has invalid state " ++ task.state) ++
    expect (lanes.contains task.lane) ("task " ++ task.id ++ " has invalid lane " ++ task.lane) ++
    acceptanceFindings task ++
    wordFindings policies (task.execution.get? "policy") ("task " ++ task.id ++ " has invalid execution policy") ++
    wordFindings executionModes (task.execution.get? "mode") ("task " ++ task.id ++ " has invalid execution mode") ++
    worktreeFindings paths task ++ manualFindings task

/-- The parent a task may have: another task of the registry, under its full id. -/
def parentFindings (r : LoadedRegistry) (task : LoadedTask) : List Finding :=
  match task.metadata?.bind (·.get? "parent_task") with
  | none => []
  | some (.str parent) =>
    if isBareLocalTaskOrdinal parent then
      [.message (r.bareLocalReferenceError parent ("task " ++ task.id ++ " metadata.parent_task"))]
    else if !idMatches parent then [.message ("task " ++ task.id ++ " has invalid metadata.parent_task")]
    else if parent = task.id then [.message ("task " ++ task.id ++ " cannot parent itself")]
    else expect (r.task? parent).isSome ("task " ++ task.id ++ " has unknown parent task " ++ parent)
  | some _ => [.message ("task " ++ task.id ++ " has invalid metadata.parent_task")]

def metadataFindings (r : LoadedRegistry) (task : LoadedTask) : List Finding :=
  expect ((task.raw.get? "metadata").all Json.isObj) ("task " ++ task.id ++ " metadata must be an object") ++
    r.parentFindings task ++
    match task.metadata?.bind (·.get? "independently_executable") with
    | none | some (.bool _) => []
    | some _ => [.message ("task " ++ task.id ++ " metadata.independently_executable must be boolean")]

/-- A reference to a task in a list; `text` says what is wrong with an unknown one. -/
def referenceFindings (r : LoadedRegistry) (reference : Json) (context text : String) : List Finding :=
  if !reference.hashable then [.exception]
  else if reference.str?.any isBareLocalTaskOrdinal then
    [.message (r.bareLocalReferenceError reference.shown context)]
  else expect (reference.str?.bind r.task?).isSome (text ++ reference.shown)

def dependencyFindings (r : LoadedRegistry) (task : LoadedTask) : List Finding :=
  task.dependsOn.flatMap fun dependency =>
    r.referenceFindings dependency ("task " ++ task.id ++ " dependency")
      ("task " ++ task.id ++ " has unknown dependency ")

def capacityFindings (task : LoadedTask) (claim : LoadedClaim) (resource : LoadedResource) : List Finding :=
  let text := "task " ++ task.id ++ " exceeds capacity " ++ claim.resource
  if claim.mode ≠ "capacity" then []
  else if resource.capacity = .null then [.message text]
  else match resource.capacity.number? with
    | none => [.exception]
    | some limit => expect (claim.amount ≤ limit) text

def claimFindings (r : LoadedRegistry) (task : LoadedTask) : List Finding :=
  task.claims.flatMap fun claim =>
    expect (r.resource? claim.resource).isSome
        ("task " ++ task.id ++ " claims unknown resource " ++ claim.resource) ++
      expect (claimModes.contains claim.mode) ("task " ++ task.id ++ " has invalid claim mode " ++ claim.mode) ++
      expect (1 ≤ claim.amount) ("task " ++ task.id ++ " has invalid claim amount") ++
      (r.resource? claim.resource).toList.flatMap (capacityFindings task claim)

def taskFindings (paths : PathOps) (r : LoadedRegistry) (task : LoadedTask) : List Finding :=
  taskFieldFindings paths r task ++ r.metadataFindings task ++ r.dependencyFindings task ++ r.claimFindings task

/-! Cycles. -/

/-- `parent_by_child`: the parents that passed their check, in the order of the tasks. -/
def parentByChild (r : LoadedRegistry) : List (String × String) :=
  r.tasks.filterMap fun task =>
    task.parentTask?.bind fun parent => if (r.parentFindings task).isEmpty then some (task.id,parent) else none

def dependsOn (r : LoadedRegistry) (id : String) : List String :=
  ((r.task? id).map fun task => task.dependsOn.filterMap Json.str?).getD []

def arrows (nodes : List String) : String := " -> ".intercalate nodes

def taskCycles (r : LoadedRegistry) : List String :=
  (Search.visitAll (fun id => (r.task? id).isSome) r.dependsOn
    (fun path node => "dependency cycle: " ++ arrows (path.drop (path.idxOf node) ++ [node])) r.taskIds).reports

def rotations (cycle : List String) : List (List String) :=
  (List.range cycle.length).map fun i => cycle.drop i ++ cycle.take i

def leastRotation (cycle : List String) : List String :=
  (rotations cycle).foldl (fun least other => if other < least then other else least) cycle

def cycleMessages (subject : String) (cycles : List (List String)) : List String :=
  ((cycles.map leastRotation).eraseDups.insertionSort fun a b => ¬ b < a).map fun cycle =>
    subject ++ arrows (cycle ++ cycle.take 1)

def lookup (pairs : List (String × String)) (child : String) : Option String :=
  (pairs.find? fun pair => pair.1 = child).map Prod.snd

def taskParentCycles (parents : List (String × String)) : List String :=
  cycleMessages "task parent cycle: "
    (((parents.map Prod.fst).insertionSort (· ≤ ·)).filterMap fun start =>
      Search.findLoop (lookup parents) (parents.length+1) start [])

inductive WaitKind where
  | dependency | parent
  deriving DecidableEq

def live (r : LoadedRegistry) (id : String) : Bool :=
  (r.task? id).any fun task => !task.terminal

/-- The tasks a task waits for: the dependencies that are not terminal, and the children that are not
where it is not independently executable. -/
def waitEdges (r : LoadedRegistry) (parents : List (String × String)) (id : String) : List (String × WaitKind) :=
  match r.task? id with
  | none => []
  | some task =>
    if task.terminal then []
    else ((r.dependsOn id).filter r.live).map (fun dependency => (dependency,.dependency)) ++
      if task.independentlyExecutable then []
      else (parents.filter fun pair => pair.2 = id && r.live pair.1).map fun pair => (pair.1,.parent)

def adjacency (r : LoadedRegistry) (parents : List (String × String)) (id : String) : List (String × WaitKind) :=
  (r.waitEdges parents id).insertionSort fun a b =>
    a.1 < b.1 ∨ a.1 = b.1 ∧ (a.2 = .dependency ∨ b.2 = .parent)

/-- A state of the search: a task with the kinds of edge that led to it. -/
abbrev WaitState := String × Bool × Bool

def waitNext (adjacent : String → List (String × WaitKind)) (state : WaitState) : List WaitState :=
  (adjacent state.1).map fun edge =>
    (edge.1,state.2.1 || edge.2 = .dependency,state.2.2 || edge.2 = .parent)

/-- The mixed cycle the search from a task finds, as the tasks on it. -/
def waitCycle (adjacent : String → List (String × WaitKind)) (size : ℕ) (start : String) : Option (List String) :=
  let result := Search.breadthFirst (waitNext adjacent)
    (fun state => state.1 = start && state.2.1 && state.2.2) (4*size+2) (start,false,false)
  result.1.map fun found =>
    ((Search.trace result.2.reached (result.2.reached.length+1) found).map Prod.fst).reverse.dropLast

def taskWaitCycles (r : LoadedRegistry) (parents : List (String × String)) : List String :=
  cycleMessages "task wait cycle: "
    ((r.taskIds.insertionSort (· ≤ ·)).filterMap (waitCycle (r.adjacency parents) r.tasks.length))

def cycleErrors (r : LoadedRegistry) : List String :=
  r.taskCycles ++ taskParentCycles r.parentByChild ++ r.taskWaitCycles r.parentByChild

/-! The queue, and the whole. -/

def queueFindings (r : LoadedRegistry) : List Finding :=
  r.queue.flatMap fun lane => lane.2.flatMap fun reference =>
    r.referenceFindings reference ("queue " ++ lane.1) ("queue " ++ lane.1 ++ " has unknown task ") ++
      (reference.str?.bind r.task?).toList.flatMap fun task =>
        if isBareLocalTaskOrdinal task.id then []
        else if task.terminal then
          [.message ("queue " ++ lane.1 ++ " has terminal task " ++ task.id ++ " with state " ++ task.state)]
        else expect (lane.1 ≠ "now" || task.state = "ready")
          ("queue now has non-ready task " ++ task.id ++ " with state " ++ task.state)

def otherFindings (paths : PathOps) (r : LoadedRegistry) : List Finding :=
  r.resources.flatMap (resourceFindings paths r) ++ sharedFindings paths r ++ r.resourceCycles ++
    r.initiatives.flatMap initiativeFindings ++ r.tasks.flatMap (taskFindings paths r) ++ r.queueFindings

/-- How a validation that does not accept ends: `ValidationError` with its text, or another exception. -/
inductive Rejection where
  | validation (text : String)
  | exception
  deriving DecidableEq

def validate (paths : PathOps) (r : LoadedRegistry) : Except Rejection Unit :=
  let findings := r.otherFindings paths ++ r.cycleErrors.map .message
  if findings.contains .exception then .error .exception
  else if findings.isEmpty then .ok ()
  else .error (.validation ("\n".intercalate (sortedSet (findings.filterMap Finding.text?))))

end LoadedRegistry

end Bureau
