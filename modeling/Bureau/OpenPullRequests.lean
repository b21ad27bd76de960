import Bureau.Overlays

/-!
Open pull requests as reservations that block repository writes, and the assessment of a
task's claims against them.
-/

namespace Bureau

inductive BindingStatus where
  | valid | terminal | multiple | missing | exception | unknown
  deriving DecidableEq

namespace BindingStatus

def text : BindingStatus → String
  | .valid => "valid"
  | .terminal => "terminal"
  | .multiple => "multiple"
  | .missing => "missing"
  | .exception => "exception"
  | .unknown => "unknown"

end BindingStatus

/-- `OpenPullRequestReservation`; its mode is always `write-blocker`. -/
structure OpenPr where
  runId : String
  resource : String
  repository : String := ""
  number : Option ℕ := none
  taskIds : List String := []
  diagnostic : String := "open PR"
  observationFailed : Bool := false
  bindingStatus : BindingStatus := .unknown
  bindingReason : String := ""
  scopeResources : List String := []
  baseOid : String := ""
  headOid : String := ""
  changedPaths : List String := []
  fileScopeComplete : Bool := false
  fileScopeDiagnostic : String := "file scope unavailable"
  deriving DecidableEq

namespace OpenPr

/-- `_open_pr_reservation_scopes`. -/
def scopes (pr : OpenPr) : List String :=
  pr.resource :: (pr.scopeResources.eraseDups.filter fun scope => scope ≠ pr.resource)

/-- `_open_pr_label`. -/
def label (pr : OpenPr) : String :=
  if pr.observationFailed then "open PR guard failed for " ++ pr.resource ++ ": " ++ pr.diagnostic
  else
    match pr.number with
    | some number =>
      if pr.repository = "" then pr.runId
      else "open-pr:" ++ pr.repository ++ "#" ++ toString number
    | none => pr.runId

end OpenPr

@[simp] theorem mem_scopes {pr : OpenPr} {scope : String} :
    scope ∈ pr.scopes ↔ scope = pr.resource ∨ scope ∈ pr.scopeResources := by
  by_cases h : scope = pr.resource <;> simp [OpenPr.scopes,h,List.mem_eraseDups]

/-- The scope of a pull request that one of the claims may not share. -/
def scopeConflicts (claims : List Claim) (resources : Resources) (scope : String) : Bool :=
  claims.any fun claim =>
    overlaps claim.resource scope resources && modesConflict claim.mode .writeBlocker

/-- `_task_write_scope_for_repository`: exact repository paths, or why there are none. -/
inductive WriteScope where
  | ready (paths : List String)
  | required (diagnostic : String)
  deriving DecidableEq

inductive Classification where
  | repositoryBlocked | scopeRequired | scopeConflict | scopeProvenDisjoint | mergeAdopted
  deriving DecidableEq

def Classification.text : Classification → String
  | .repositoryBlocked => "repository-blocked"
  | .scopeRequired => "scope-required"
  | .scopeConflict => "scope-conflict"
  | .scopeProvenDisjoint => "scope-proven-disjoint"
  | .mergeAdopted => "merge-adopted"

structure Assessment where
  classification : Classification
  diagnostic : String
  overlapCount : ℕ
  deriving DecidableEq

/-- `PurePosixPath(path).parts` of a repository-relative path. -/
def pathParts (path : String) : List String :=
  ((path.toList.splitOn '/').map String.ofList).filter fun part => part ≠ "" ∧ part ≠ "."

/-- `_repo_paths_overlap`: one path is an initial part of the other. -/
def repoPathsOverlap (left right : String) : Bool :=
  (pathParts left).isPrefixOf (pathParts right) || (pathParts right).isPrefixOf (pathParts left)

def isGitOid (s : String) : Bool :=
  s.length = 40 && s.toList.all fun c => ('0' ≤ c && c ≤ '9') || ('a' ≤ c && c ≤ 'f')

def nonEmptyStr? (document : Json) (key : String) : Option String :=
  (document.getStr? key).filter (· ≠ "")

def Task.stampCurrent (sha : Sha) (registry : Registry) (task : Task) : Bool :=
  match task.metadata?.bind (·.get? "verification") with
  | some stamp =>
    stamp.getStr? "task_sha256" = some (taskRevisionSha256 sha task.raw) &&
      (registry.initiatives[task.initiative]?).any fun initiative =>
        stamp.getStr? "plan_sha256" = some (initiative.planSha256 sha)
  | none => false

def verifiedOpenPrImplementationMatches (sha : Sha) (registry : Registry) (predecessor : Task)
    (pr : OpenPr) : Bool :=
  match predecessor.metadata?.bind (·.get? "open_pr_implementation") with
  | some revision =>
    revision.hasExactly ["base_sha","head_sha","pull_request","repository","schema_version"] &&
    revision.get? "schema_version" = some (.num 1) &&
    pr.repository ≠ "" && nonEmptyStr? revision "repository" = some pr.repository &&
    pr.number.any (fun number => 0 < number && revision.get? "pull_request" = some (natJson number)) &&
    isGitOid pr.baseOid && nonEmptyStr? revision "base_sha" = some pr.baseOid &&
    isGitOid pr.headOid && nonEmptyStr? revision "head_sha" = some pr.headOid &&
    predecessor.stampCurrent sha registry
  | none => false

/-- The action class of `task_approval_contract`: the declared one, or one derived from the claims,
the mode and the policy. -/
def taskActionClass (raw : Json) : String :=
  let execution := ((raw.get? "execution").filter Json.isObj).getD (.obj [])
  let declared := ((execution.get? "approval").filter Json.isObj).getD (.obj [])
  match nonEmptyStr? declared "action_class" with
  | some actionClass => actionClass
  | none =>
    if (raw.getArr "claims").any (fun claim =>
        claim.getStr? "mode" = some "write" || claim.getStr? "mode" = some "exclusive") then
      "repository_mutation"
    else if execution.getStr? "mode" = some "grabowski-task" then "agent_dispatch"
    else if (execution.getStr? "policy").any (fun policy =>
        policy ∈ ["manual","review-before-effect","prohibited"]) then
      "proposal_preview"
    else "read_only_observation"

def openPrMergeAdoptionAllows (sha : Sha) (registry : Registry)
    (overlay : Table TaskState) (task : Task) (pr : OpenPr) : Bool :=
  !pr.observationFailed && pr.fileScopeComplete && pr.scopes = [pr.resource] &&
  match task.metadata?.bind (·.get? "open_pr_adoption") with
  | some contract =>
    contract.hasExactly ["base_sha","head_sha","implementation_task","merge_task","pull_request",
      "repository","schema_version"] &&
    contract.get? "schema_version" = some (.num 1) &&
    pr.repository ≠ "" && nonEmptyStr? contract "repository" = some pr.repository &&
    pr.number.any (fun number => 0 < number && contract.get? "pull_request" = some (natJson number)) &&
    isGitOid pr.baseOid && nonEmptyStr? contract "base_sha" = some pr.baseOid &&
    isGitOid pr.headOid && nonEmptyStr? contract "head_sha" = some pr.headOid &&
    nonEmptyStr? contract "merge_task" = some task.id &&
    match nonEmptyStr? contract "implementation_task" with
    | some implementation =>
      implementation ≠ task.id && (pr.bindingStatus = .valid || pr.bindingStatus = .terminal) &&
      pr.taskIds = [implementation] &&
      match registry.tasks[implementation]? with
      | some predecessor =>
        effectiveState overlay implementation predecessor = .verified &&
        verifiedOpenPrImplementationMatches sha registry predecessor pr &&
        implementation ∈ task.dependsOn && taskActionClass task.raw = "repository_mutation" &&
        match task.claims.filter (fun claim => claim.mode = .write ∨ claim.mode = .exclusive) with
        | [claim] =>
          claim.mode = .exclusive && claim.amount = 1 && claim.isolation = "worktree" &&
            claim.resource = pr.resource
        | _ => false
      | none => false
    | none => false
  | none => false

/-- Which write scope the file system gives a task in a repository; this is observed at the call. -/
abbrev WriteScopes := Task → Option Resource → WriteScope

/-- The classification `_task_open_pr_scope_assessment` gives one pull request, for one that
conflicts with a claim of the task. -/
def assess (sha : Sha) (writeScope : WriteScopes) (registry : Registry) (overlay : Table TaskState)
    (task : Task) (pr : OpenPr) : Assessment :=
  let conflicting := pr.scopes.filter (scopeConflicts task.claims registry.resources)
  if openPrMergeAdoptionAllows sha registry overlay task pr then
    ⟨.mergeAdopted,"exact open PR merge adoption contract satisfied",0⟩
  else if pr.bindingStatus = .valid ∧ task.id ∈ pr.taskIds then
    ⟨.repositoryBlocked,"task is already represented by this open PR",0⟩
  else if conflicting.any (· ≠ pr.resource) then
    ⟨.repositoryBlocked,"open PR bound task claims additional repository resources " ++
      "without revision-bound file scope",0⟩
  else if pr.observationFailed ∨ !pr.fileScopeComplete then
    ⟨.repositoryBlocked,
      if pr.fileScopeDiagnostic = "" then pr.diagnostic else pr.fileScopeDiagnostic,0⟩
  else if pr.resource ∉ conflicting then ⟨.scopeRequired,"source repository does not conflict",0⟩
  else
    match writeScope task registry.resources[pr.resource]? with
    | .required diagnostic => ⟨.scopeRequired,diagnostic,0⟩
    | .ready paths =>
      let overlapping := paths.flatMap fun path =>
        (pr.changedPaths.filter (repoPathsOverlap path)).map (path,·)
      if overlapping.isEmpty then
        ⟨.scopeProvenDisjoint,"complete task and PR path scopes are disjoint",0⟩
      else ⟨.scopeConflict,"task and open PR path scopes overlap",overlapping.length⟩

inductive OpenPrReason where
  | alreadyImplemented (label : String)
  | guardFailure (label diagnostic : String)
  | bindingException (pr : OpenPr) (assessment : Assessment)
  | bindingViolation (pr : OpenPr) (assessment : Assessment)
  | blocked (pr : OpenPr) (assessment : Assessment)
  deriving DecidableEq

namespace OpenPrReason

def classificationNote (assessment : Assessment) : String :=
  " classification=" ++ assessment.classification.text ++ " scope_reason=" ++ assessment.diagnostic

def taskNote (taskIds : List String) (absent : String) : String :=
  if taskIds.isEmpty then " task_id=" ++ absent else " task_ids=" ++ ",".intercalate taskIds

def text : OpenPrReason → String
  | .alreadyImplemented label => "task already implemented by open PR: " ++ label
  | .guardFailure label diagnostic =>
    "repo write blocked by open PR guard failure: " ++ label ++
      " classification=repository-blocked reason=" ++ diagnostic
  | .bindingException pr assessment =>
    "repo write blocked by open PR: " ++ pr.label ++ " binding=exception" ++
      taskNote pr.taskIds "exception" ++ " reason=" ++ pr.bindingReason ++ classificationNote assessment
  | .bindingViolation pr assessment =>
    "repo write blocked by open PR task binding violation: " ++ pr.label ++ " binding=" ++
      pr.bindingStatus.text ++ taskNote pr.taskIds "missing" ++ " reason=" ++ pr.bindingReason ++
      classificationNote assessment
  | .blocked pr assessment =>
    "repo write blocked by open PR: " ++ pr.label ++ " task_ids=" ++ ",".intercalate pr.taskIds ++
      classificationNote assessment ++
      (if assessment.overlapCount = 0 then "" else " overlap_count=" ++ toString assessment.overlapCount)

end OpenPrReason

def OpenPr.before (a b : OpenPr) : Bool :=
  if a.repository = b.repository then a.number.getD 0 ≤ b.number.getD 0 else a.repository < b.repository

/-- The assessments are filed under the reservation id; a later one replaces an earlier one. -/
def assessmentFor (sha : Sha) (writeScope : WriteScopes) (registry : Registry)
    (overlay : Table TaskState) (task : Task) (openPrs : List OpenPr) (pr : OpenPr) : Assessment :=
  match ((openPrs.filter fun other => other.runId = pr.runId &&
      other.scopes.any (scopeConflicts task.claims registry.resources)).insertionSort
        fun a b => a.before b = true).getLast? with
  | some other => assess sha writeScope registry overlay task other
  | none => ⟨.repositoryBlocked,pr.diagnostic,0⟩

def openPrReason (sha : Sha) (writeScope : WriteScopes) (registry : Registry) (overlay : Table TaskState)
    (task : Task) (openPrs : List OpenPr) (pr : OpenPr) : Option OpenPrReason :=
  if pr.scopes.any (scopeConflicts task.claims registry.resources) then
    let assessment := assessmentFor sha writeScope registry overlay task openPrs pr
    if assessment.classification = .mergeAdopted then none
    else if pr.bindingStatus = .valid ∧ task.id ∈ pr.taskIds then some (.alreadyImplemented pr.label)
    else if assessment.classification = .scopeProvenDisjoint then none
    else if pr.observationFailed then some (.guardFailure pr.label assessment.diagnostic)
    else if pr.bindingStatus = .exception then some (.bindingException pr assessment)
    else if pr.bindingStatus ≠ .valid then some (.bindingViolation pr assessment)
    else some (.blocked pr assessment)
  else none

def openPrReasons (sha : Sha) (writeScope : WriteScopes) (registry : Registry)
    (overlay : Table TaskState) (task : Task) (openPrs : List OpenPr) : List OpenPrReason :=
  openPrs.filterMap (openPrReason sha writeScope registry overlay task openPrs)

end Bureau
