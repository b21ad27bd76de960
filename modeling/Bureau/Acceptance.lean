import Bureau.StateEvents

/-!
The typed acceptance of a run (`acceptance.py`). A criterion names a verifier, which fixes the
authorities, the age and the revision fields of its evidence. The evidence of every criterion is judged
by its own, and a run passes if all of them pass and no pull request was seen at two heads.
-/

namespace Bureau

namespace Acceptance

open Transactions

/-- A JSON document as the language loads it. The fields of an object are listed in key order. -/
inductive Value where
  | null
  | bool (b : Bool)
  | int (n : ℤ)
  -- a finite floating-point number, as the rational number it is
  | float (q : ℚ)
  | infinity (negative : Bool)
  | nan
  | str (s : String)
  | arr (items : List Value)
  | obj (fields : List (String × Value))

namespace Value

def field? (key : String) : List (String × Value) → Option Value
  | [] => none
  | (k,v) :: rest => if key = k then some v else field? key rest

/-- `document.get(key)`: an absent field reads as `None`. -/
def get (document : Value) (key : String) : Value :=
  match document with
  | .obj fields => (field? key fields).getD .null
  | _ => .null

def isNull : Value → Bool
  | .null => true
  | _ => false

/-- `value is True`. -/
def isTrue : Value → Bool
  | .bool b => b
  | _ => false

/-- `value is False`. -/
def isFalse : Value → Bool
  | .bool b => !b
  | _ => false

def isObj : Value → Bool
  | .obj _ => true
  | _ => false

def str? : Value → Option String
  | .str s => some s
  | _ => none

def text? (value : Value) : Option String := value.str?.filter (· ≠ "")

def arr? : Value → Option (List Value)
  | .arr items => some items
  | _ => none

def int? : Value → Option ℤ
  | .int n => some n
  | _ => none

def hashable : Value → Bool
  | .arr _ | .obj _ => false
  | _ => true

def number? : Value → Option ℚ
  | .bool b => some (if b then 1 else 0)
  | .int n => some n
  | .float q => some q
  | _ => none

mutual

/-- `a == b`. -/
def same : Value → Value → Bool
  | .null, .null => true
  | .str a, .str b => a = b
  | .infinity a, .infinity b => a = b
  | .arr a, .arr b => sameItems a b
  | .obj a, .obj b => sameFields a b
  | a, b => a.number?.any fun p => b.number? = some p

def sameItems : List Value → List Value → Bool
  | [], [] => true
  | a :: as, b :: bs => same a b && sameItems as bs
  | _, _ => false

def sameFields : List (String × Value) → List (String × Value) → Bool
  | [], [] => true
  | (k,a) :: as, (l,b) :: bs => k = l && same a b && sameFields as bs
  | _, _ => false

end

end Value

/-- The texts of the language: `_parse_time` of a non-empty text in microseconds, and `str.lower`. -/
structure Formats where
  parseTime : String → Option ℤ
  lower : String → String

inductive State where
  | passed | failed | unknown
  deriving DecidableEq

def State.text : State → String
  | .passed => "passed"
  | .failed => "failed"
  | .unknown => "unknown"

/-! `VERIFIER_CONTRACTS`. -/

inductive Verifier where
  | codeMerged | requiredCiGreen | deploymentComplete | runtimeCommitContains | liveProbePassed | manualObservation
  | durationSoakCompleted | noEffectVerified | artifactHashMatches
  deriving DecidableEq

namespace Verifier

def all : List Verifier :=
  [.codeMerged,.requiredCiGreen,.deploymentComplete,.runtimeCommitContains,.liveProbePassed,.manualObservation,
    .durationSoakCompleted,.noEffectVerified,.artifactHashMatches]

def text : Verifier → String
  | .codeMerged => "code_merged"
  | .requiredCiGreen => "required_ci_green"
  | .deploymentComplete => "deployment_complete"
  | .runtimeCommitContains => "runtime_commit_contains"
  | .liveProbePassed => "live_probe_passed"
  | .manualObservation => "manual_observation"
  | .durationSoakCompleted => "duration_soak_completed"
  | .noEffectVerified => "no_effect_verified"
  | .artifactHashMatches => "artifact_hash_matches"

def ofText? (s : String) : Option Verifier := all.find? (·.text = s)

def domain : Verifier → String
  | .codeMerged | .requiredCiGreen | .artifactHashMatches => "product"
  | .deploymentComplete => "deployment"
  | .runtimeCommitContains | .liveProbePassed => "runtime"
  | .manualObservation | .durationSoakCompleted | .noEffectVerified => "observation"

def authorities : Verifier → List String
  | .codeMerged | .requiredCiGreen => ["github"]
  | .deploymentComplete | .runtimeCommitContains | .liveProbePassed => ["grabowski","target-runtime"]
  | .manualObservation => ["manual"]
  | .durationSoakCompleted => ["grabowski","target-runtime","manual"]
  | .noEffectVerified => ["bureau","grabowski"]
  | .artifactHashMatches => ["artifact-store","bureau","grabowski"]

def maxAgeSeconds : Verifier → ℤ
  | .codeMerged | .deploymentComplete | .manualObservation | .durationSoakCompleted | .artifactHashMatches => 86400
  | .requiredCiGreen => 21600
  | .runtimeCommitContains | .noEffectVerified => 3600
  | .liveProbePassed => 900

def configFields : Verifier → List String
  | .codeMerged => ["repository","pull_request","head_sha","base_ref"]
  | .requiredCiGreen => ["repository","pull_request","head_sha","base_ref","required_checks"]
  | .deploymentComplete => ["deployment_revision"]
  | .runtimeCommitContains => ["repository","required_commit"]
  | .liveProbePassed => ["runtime_revision","probe_id"]
  | .manualObservation => ["observation_scope"]
  | .durationSoakCompleted => ["required_seconds","observation_scope"]
  | .noEffectVerified => ["scope_sha256"]
  | .artifactHashMatches => ["artifact_sha256"]

def revisionBinding : Verifier → List String
  | .codeMerged => ["task_sha256","plan_sha256","head_sha","base_ref","merge_commit_sha"]
  | .requiredCiGreen => ["task_sha256","plan_sha256","head_sha","base_ref"]
  | .deploymentComplete => ["task_sha256","plan_sha256","deployment_revision"]
  | .runtimeCommitContains => ["task_sha256","plan_sha256","required_commit","observed_commit"]
  | .liveProbePassed => ["task_sha256","plan_sha256","runtime_revision","probe_id"]
  | .manualObservation | .durationSoakCompleted => ["task_sha256","plan_sha256","observation_scope"]
  | .noEffectVerified => ["task_sha256","plan_sha256","scope_sha256"]
  | .artifactHashMatches => ["task_sha256","plan_sha256","artifact_sha256"]

/-- The fields of the revision that the configuration of the criterion fixes; both have one name. -/
def targetBindings : Verifier → List String
  | .codeMerged | .requiredCiGreen => ["head_sha","base_ref"]
  | .deploymentComplete => ["deployment_revision"]
  | .runtimeCommitContains => ["required_commit"]
  | .liveProbePassed => ["runtime_revision","probe_id"]
  | .manualObservation | .durationSoakCompleted => ["observation_scope"]
  | .noEffectVerified => ["scope_sha256"]
  | .artifactHashMatches => ["artifact_sha256"]

def factBindings : Verifier → List (String × String)
  | .codeMerged => [("head_sha","head_sha"),("base_ref","base_ref"),("merge_commit_sha","merge_commit_sha")]
  | .requiredCiGreen => [("head_sha","head_sha"),("base_ref","base_ref")]
  | .deploymentComplete => [("deployment_revision","deployment_revision")]
  | .runtimeCommitContains => [("required_commit","required_commit"),("observed_commit","observed_commit")]
  | .liveProbePassed => [("runtime_revision","runtime_revision"),("probe_id","probe_id")]
  | .manualObservation | .durationSoakCompleted => [("observation_scope","observation_scope")]
  | .noEffectVerified => [("scope_sha256","scope_sha256")]
  | .artifactHashMatches => [("expected_sha256","artifact_sha256")]

end Verifier

/-! `criterion_contract`. -/

/-- `[0-9a-f]{40,64}`. -/
def isSha (s : String) : Bool :=
  40 ≤ s.length && s.length ≤ 64 && s.toList.all fun c => ('0' ≤ c && c ≤ '9') || ('a' ≤ c && c ≤ 'f')

/-- `_sha` and `_sha256`. -/
def sha (value : Value) : Bool := value.str?.any isSha
def sha256 (value : Value) : Bool := value.str?.any validDigest

def maxSoakSeconds : ℤ := 315576000

def validSoakSeconds : Value → Bool
  | .int n => 0 ≤ n && n ≤ maxSoakSeconds
  | .float q => 0 ≤ q && q ≤ maxSoakSeconds
  | _ => false

def nonempty (value : Value) : Bool := value.str?.any fun s => !blank s

def slugChar (c : Char) : Bool :=
  ('A' ≤ c && c ≤ 'Z') || ('a' ≤ c && c ≤ 'z') || ('0' ≤ c && c ≤ '9') || c = '_' || c = '.' || c = '-'

/-- `[A-Za-z0-9_.-]+/[A-Za-z0-9_.-]+`. -/
def isRepository (s : String) : Bool :=
  match s.toList.splitOn '/' with
  | [owner,name] => !owner.isEmpty && owner.all slugChar && !name.isEmpty && name.all slugChar
  | _ => false

def repository (value : Value) : Bool := value.str?.any fun s => !blank s && isRepository s

def pullRequest (value : Value) : Bool := value.int?.any (1 ≤ ·)

def requiredChecks? (value : Value) : Option (List String) := do
  let items ← value.arr?
  let names ← items.mapM Value.str?
  if !names.isEmpty && names.all (fun name => !blank name) && decide names.Nodup then return names else none

def validConfig (raw : Value) : Verifier → Bool
  | .codeMerged => repository (raw.get "repository") && pullRequest (raw.get "pull_request") &&
      sha (raw.get "head_sha") && nonempty (raw.get "base_ref")
  | .requiredCiGreen => repository (raw.get "repository") && pullRequest (raw.get "pull_request") &&
      sha (raw.get "head_sha") && nonempty (raw.get "base_ref") && (requiredChecks? (raw.get "required_checks")).isSome
  | .deploymentComplete => nonempty (raw.get "deployment_revision")
  | .runtimeCommitContains => repository (raw.get "repository") && sha (raw.get "required_commit")
  | .liveProbePassed => nonempty (raw.get "runtime_revision") && nonempty (raw.get "probe_id")
  | .manualObservation => nonempty (raw.get "observation_scope")
  | .durationSoakCompleted => validSoakSeconds (raw.get "required_seconds") && nonempty (raw.get "observation_scope")
  | .noEffectVerified => sha256 (raw.get "scope_sha256")
  | .artifactHashMatches => sha256 (raw.get "artifact_sha256")

/-- `set(raw) == set(fields)`. -/
def hasFields (fields : List String) : Value → Bool
  | .obj entries => fields.all (entries.map Prod.fst).contains && (entries.map Prod.fst).all fields.contains
  | _ => false

/-- `_criterion_verifier_config`: the configuration, if it has the fields of the verifier. -/
def criterionVerifierConfig (verifier : Verifier) (criterion : Value) : Option Value :=
  let raw := criterion.get "verifier_config"
  if hasFields verifier.configFields raw && validConfig raw verifier then some raw else none

structure Contract where
  verifier : Verifier
  config : Value

def criterionContract (criterion : Value) : Option Contract := do
  let verifier ← (criterion.get "verifier").str?.bind Verifier.ofText?
  if (criterion.get "evidence_type").str? = some "object" then
    let config ← criterionVerifierConfig verifier criterion
    return ⟨verifier,config⟩
  else none

/-! `_fact_state`. -/

def passCheckStates := ["success","passed","neutral","skipped"]
def failCheckStates := ["failure","failed","error","cancelled","timed_out"]
def pendingCheckStates := ["pending","queued","in_progress","waiting","requested"]

def observedChecks (F : Formats) : List Value → List (String × String) → Except String (List (String × String))
  | [], observed => .ok observed
  | check :: rest, observed => do
    require check.isObj "required-check-row-invalid"
    let name ← orRaise (check.get "name").text? "required-check-row-incomplete"
    let state ← orRaise (check.get "state").str? "required-check-row-incomplete"
    require ((observed.lookup name).all (· = F.lower state)) "required-check-row-conflict"
    observedChecks F rest ((name,F.lower state) :: observed)

def requiredStates (F : Formats) (facts config : Value) : Except String (List String) := do
  let required ← orRaise (((config.get "required_checks").arr?).filter (!·.isEmpty)) "required-check-contract-invalid"
  require (facts.get "complete").isTrue "required-check-observation-incomplete"
  require ((facts.get "required_checks").isNull || (facts.get "required_checks").same (.arr required))
    "required-check-set-mismatch"
  let checks ← orRaise ((facts.get "checks").arr?.filter (!·.isEmpty)) "required-checks-unavailable"
  let observed ← observedChecks F checks []
  collect (fun item => orRaise (item.str?.bind fun name => observed.lookup name) "required-check-missing") required

def ciState (F : Formats) (facts config : Value) : State × String :=
  match requiredStates F facts config with
  | .error reason => (.unknown,reason)
  | .ok states =>
    if states.any failCheckStates.contains then (.failed,"required-check-failed")
    else if states.any fun state => pendingCheckStates.contains state || !passCheckStates.contains state then
      (.unknown,"required-check-not-terminal-green")
    else (.passed,"required-checks-green")

def soakState (facts config : Value) : State × String :=
  let required := config.get "required_seconds"
  let observed := facts.get "observed_seconds"
  let reported := facts.get "required_seconds"
  if !validSoakSeconds required then (.unknown,"soak-contract-invalid")
  else if !reported.isNull && !reported.same required then (.unknown,"soak-requirement-mismatch")
  else if !validSoakSeconds observed then (.unknown,"soak-observation-invalid")
  else if (facts.get "failed").isTrue then (.failed,"soak-observed-failed")
  else if !(facts.get "completed").isTrue then (.unknown,"soak-still-running")
  else if observed.number?.any fun o => required.number?.any fun r => o < r then (.failed,"soak-duration-too-short")
  else (.passed,"soak-duration-satisfied")

def factState (F : Formats) (facts config : Value) : Verifier → State × String
  | .codeMerged =>
    if (facts.get "merged").isTrue && sha (facts.get "head_sha") && sha (facts.get "merge_commit_sha") then
      (.passed,"merged-head-observed")
    else if (facts.get "merged").isFalse && sha (facts.get "head_sha") && (facts.get "merge_commit_sha").isNull then
      (.failed,"merge-observed-not-complete")
    else (.unknown,"merge-facts-incomplete")
  | .requiredCiGreen => ciState F facts config
  | .deploymentComplete =>
    if (facts.get "failed").isTrue then (.failed,"deployment-observed-failed")
    else if (facts.get "completed").isTrue && sha256 (facts.get "receipt_sha256") then
      (.passed,"deployment-receipt-complete")
    else (.unknown,"deployment-not-completely-observed")
  | .runtimeCommitContains =>
    if (facts.get "contains_required_commit").isTrue then (.passed,"runtime-contains-required-commit")
    else if (facts.get "contains_required_commit").isFalse then (.failed,"runtime-does-not-contain-required-commit")
    else (.unknown,"runtime-containment-unknown")
  | .liveProbePassed =>
    match (facts.get "result").str? with
    | none => (.unknown,"live-probe-unknown")
    | some result =>
      if ["pass","passed","success"].contains (F.lower result) then (.passed,"live-probe-passed")
      else if ["fail","failed","failure","error"].contains (F.lower result) then (.failed,"live-probe-failed")
      else (.unknown,"live-probe-unknown")
  | .manualObservation =>
    if (facts.get "observer").text?.isNone || (facts.get "observation").text?.isNone then
      (.unknown,"manual-observation-incomplete")
    else if (facts.get "accepted").isTrue then (.passed,"manual-observation-accepted")
    else if (facts.get "accepted").isFalse then (.failed,"manual-observation-rejected")
    else (.unknown,"manual-observation-undecided")
  | .durationSoakCompleted => soakState facts config
  | .noEffectVerified =>
    match (facts.get "effect_count").int? with
    | none => (.unknown,"effect-count-unavailable")
    | some count =>
      if count < 0 then (.unknown,"effect-count-unavailable")
      else if count = 0 then (.passed,"no-effect-observed")
      else (.failed,"unexpected-effect-observed")
  | .artifactHashMatches =>
    if !sha256 (facts.get "expected_sha256") || !sha256 (facts.get "observed_sha256") then
      (.unknown,"artifact-hash-unavailable")
    else if (facts.get "expected_sha256").same (facts.get "observed_sha256") then (.passed,"artifact-hash-matches")
    else (.failed,"artifact-hash-mismatch")

/-! `evaluate_criterion`. -/

/-- How the evaluation of a criterion ends early: undecided for a reason, or by raising `TypeError`. -/
inductive Exit where
  | unknown (reason : String)
  | typeError

structure RunContext where
  taskId : String
  runId : String
  taskSha256 : String
  planSha256 : Option String

def shaFields := ["head_sha","merge_commit_sha","required_commit","observed_commit"]

def revisionField (verifier : Verifier) (plan : Option String) (revision : Value) (field : String) : Except Exit Unit :=
  if field = "plan_sha256" && plan.isNone then .ok ()
  else if verifier = .codeMerged && field = "merge_commit_sha" && (revision.get field).isNull then .ok ()
  else do
    let value ← orRaise (revision.get field).text? (.unknown ("revision-field-missing:" ++ field))
    require (!field.endsWith "_sha256" || validDigest value) (.unknown ("revision-field-invalid:" ++ field))
    require (!shaFields.contains field || isSha value) (.unknown ("revision-field-invalid:" ++ field))

def revisionValid (run : RunContext) (contract : Contract) (evidence : Value) : Except Exit Unit := do
  let revision := evidence.get "revision"
  require revision.isObj (.unknown "revision-binding-missing")
  require ((revision.get "task_sha256").same (.str run.taskSha256) && validDigest run.taskSha256)
    (.unknown "task-revision-mismatch")
  require (run.planSha256.all fun plan => (revision.get "plan_sha256").same (.str plan) && validDigest plan)
    (.unknown "plan-revision-mismatch")
  let _ ← collect (revisionField contract.verifier run.planSha256 revision) contract.verifier.revisionBinding
  let _ ← collect (fun field => require ((revision.get field).same (contract.config.get field))
    (Exit.unknown ("criterion-target-mismatch:" ++ field))) contract.verifier.targetBindings
  return

def factsMatchRevision (verifier : Verifier) (revision facts : Value) : Except Exit Unit := do
  let _ ← collect (fun binding : String × String => require ((facts.get binding.1).same (revision.get binding.2))
    (Exit.unknown ("fact-revision-mismatch:" ++ binding.1))) verifier.factBindings
  return

/-- The evidence is recent at the time `current`, in microseconds; the age is returned. -/
def evidenceAge (F : Formats) (contract : Contract) (current : ℤ) (evidence : Value) : Except Exit ℤ := do
  let observed ← orRaise ((evidence.get "observed_at").text?.bind F.parseTime) (.unknown "evidence-time-invalid")
  require (observed ≤ current) (.unknown "evidence-from-future")
  require (current-observed ≤ contract.verifier.maxAgeSeconds*1000000) (.unknown "evidence-stale")
  let validity := evidence.get "validity"
  require (!validity.isObj || (validity.get "not_after").isNull ||
      ((validity.get "not_after").text?.bind F.parseTime).any (current ≤ ·))
    (.unknown "evidence-validity-expired")
  return current-observed

def claimedState (derived : State) (evidence : Value) : Except Exit Unit :=
  let claimed := evidence.get "status"
  if claimed.isNull then .ok ()
  else do
    require claimed.hashable .typeError
    require (claimed.str?.any ["passed","failed","unknown"].contains) (.unknown "evidence-status-invalid")
    require (claimed.str? = some derived.text) (.unknown "contradictory-evidence")

structure Judgement where
  state : State
  reason : String
  authority : Value
  sourceReference : String
  observedAt : Value
  ageMicroseconds : ℤ

/-- The part of `evaluate_criterion` that judges the evidence of a typed criterion. -/
def judge (F : Formats) (run : RunContext) (current : ℤ) (id : String) (contract : Contract) (evidence : Value)
    (sourceAuthenticated : Bool) : Except Exit Judgement := do
  require evidence.isObj (.unknown "evidence-missing-or-unreadable")
  require ((evidence.get "schema_version").same (.int 1) &&
    (evidence.get "kind").same (.str "bureau.acceptance_evidence"))
    (.unknown "evidence-contract-invalid")
  require ((evidence.get "criterion_id").same (.str id) &&
      (evidence.get "evidence_type").same (.str contract.verifier.text)) (.unknown "evidence-binding-mismatch")
  let authority := (evidence.get "source").get "authority"
  require (authority.str?.any contract.verifier.authorities.contains) (.unknown "evidence-authority-invalid")
  let reference ← orRaise (((evidence.get "source").get "reference").str?.filter fun s => !blank s)
    (.unknown "evidence-source-reference-missing")
  require sourceAuthenticated (.unknown "evidence-source-unauthenticated")
  let age ← evidenceAge F contract current evidence
  revisionValid run contract evidence
  let facts := evidence.get "facts"
  require facts.isObj (.unknown "evidence-facts-missing")
  factsMatchRevision contract.verifier (evidence.get "revision") facts
  let derived := factState F facts contract.config contract.verifier
  claimedState derived.1 evidence
  return ⟨derived.1,derived.2,authority,reference,evidence.get "observed_at",age⟩

structure CriterionResult where
  criterionId : String
  verifier : Option Verifier
  state : State
  reason : String
  -- authority, reference, time and age of evidence that was judged
  judgement : Option Judgement

def CriterionResult.unknown (id : String) (verifier : Option Verifier) (reason : String) : CriterionResult :=
  ⟨id,verifier,.unknown,reason,none⟩

inductive EvaluationError where
  | typeError
  | valueError (message : String)

def evaluateCriterion (F : Formats) (run : RunContext) (current : ℤ) (criterion evidence : Value)
    (sourceAuthenticated : Bool) : Except EvaluationError CriterionResult :=
  match (criterion.get "id").text? with
  | none => .ok (.unknown "<missing-id>" none "criterion-id-invalid")
  | some id =>
    match criterionContract criterion with
    | none => .ok (.unknown id none "criterion-is-not-typed")
    | some contract =>
      match judge F run current id contract evidence sourceAuthenticated with
      | .ok judgement => .ok ⟨id,some contract.verifier,judgement.state,judgement.reason,some judgement⟩
      | .error (.unknown reason) => .ok (.unknown id (some contract.verifier) reason)
      | .error .typeError => .error .typeError

/-! `_cross_criterion_revision_consistency`. -/

structure PullRequest where
  repository : String
  number : ℤ
  deriving DecidableEq

def Contract.pullRequest? (contract : Contract) : Option PullRequest := do
  if contract.verifier = .codeMerged || contract.verifier = .requiredCiGreen then
    let repository ← (contract.config.get "repository").text?
    let number ← (contract.config.get "pull_request").int?
    return ⟨repository,number⟩
  else none

/-- `_shared_revision_scope` of the field `head_sha`. -/
def sharedRevisionScope (contract : Contract) : Option String :=
  contract.pullRequest?.map fun target => "github-pr:" ++ target.repository ++ "#" ++ toString target.number

def headRevision (evidence : String → Option Value) (id : String) : Option String :=
  ((((evidence id).getD .null).get "revision").get "head_sha").text?

def sharedHead (evidence : String → Option Value) (passed : List String) (criterion : Value) :
    Option (String × String × Option String) := do
  let id ← (criterion.get "id").str?
  let contract ← criterionContract criterion
  let head ← headRevision evidence id
  if passed.contains id && contract.verifier.revisionBinding.contains "head_sha" then
    return (id,head,sharedRevisionScope contract)
  else none

/-- `comparison_groups`: the heads by criterion, for each scope. -/
def addHead (groups : Table (Table String)) (entry : String × String × Option String) : Table (Table String) :=
  match entry.2.2 with
  | none => groups
  | some scope => groups.insert scope ((groups[scope]?.getD ∅).insert entry.1 entry.2.1)

/-- `len(set(bindings.values())) > 1`. -/
def conflicting (bindings : Table String) : Bool :=
  bindings.toList.any fun first => bindings.toList.any fun second => first.2 ≠ second.2

structure Consistency where
  sharedFields : Table String
  conflicts : List (Table String)

def passedIds (results : List CriterionResult) : List String :=
  (results.filter (·.state = .passed)).map CriterionResult.criterionId

def crossCriterionRevisionConsistency (criteria : List Value) (evidence : String → Option Value)
    (results : List CriterionResult) : Consistency :=
  let entries := criteria.filterMap (sharedHead evidence (passedIds results))
  ⟨entries.foldl (fun shared entry => shared.insert entry.1 entry.2.1) ∅,
    ((entries.foldl addHead ∅).toList.map Prod.snd).filter conflicting⟩

/-! `evaluate_acceptance`. -/

structure Evaluation where
  run : RunContext
  evaluatedAt : ℤ
  state : State
  automaticTerminalization : Bool
  criteria : List CriterionResult
  crossCriterionRevision : Consistency
  domains : List String

/-- `_now`. -/
def resolveNow (F : Formats) (clock : ℤ) : Option String → Except EvaluationError ℤ
  | none => .ok clock
  | some now => orRaise (if now = "" then none else F.parseTime now)
      (.valueError "now must be an ISO-8601 timestamp with timezone")

def overallState (results : List CriterionResult) (consistency : Consistency) : State :=
  let states := results.map CriterionResult.state
  if states.contains .failed then .failed
  else if results.isEmpty || states.contains .unknown || !consistency.conflicts.isEmpty then .unknown
  else .passed

/-- `evaluate_acceptance`. A criterion whose id is not a string is refused before its evidence is read. -/
def evaluateAcceptance (F : Formats) (run : RunContext) (clock : ℤ) (now : Option String) (criteria : List Value)
    (evidence : String → Option Value) (authenticated : List String) : Except EvaluationError Evaluation := do
  let current ← resolveNow F clock now
  let results ← collect (fun criterion => evaluateCriterion F run current criterion
    (((criterion.get "id").str?.bind evidence).getD .null)
    ((criterion.get "id").str?.any authenticated.contains)) criteria
  let consistency := crossCriterionRevisionConsistency criteria evidence results
  let state := overallState results consistency
  return ⟨run,current,state,state = .passed,results,consistency,
    (results.filterMap fun result => result.verifier.map Verifier.domain).dedup.insertionSort (· ≤ ·)⟩

end Acceptance

end Bureau
