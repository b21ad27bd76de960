import Bureau.ClaimCurrency
import Bureau.DependencyUnlock
import Bureau.RunLifecycle
import Std.Data.String.ToNat

/-!
The coordinated claim protocol. A claim intent is drafted from a snapshot, issued once per
idempotency key and run id, and committed only while everything its contract names is
still current.
-/

namespace Bureau

open Transactions Relation TaskSpecs

variable {db db' : Db} {E : Env} {contract intent issuance : Json} {sha : Sha} {actionClass runId : String}
    {K : Contracts} {kind : Kind} {resources : Resources} {task : Task} {row : RunRow}

/-- The arguments of `claim_intent`. -/
structure IntentRequest where
  workerId : String
  capabilities : List String
  kind : String
  taskId : Option String
  resource : Option String
  baseDir : Option String
  approved : Bool
  breakGlass : Bool
  approvalSource : String
  idempotencyKey : Option String

/-- `_coordinated_claim_request_sha256`. -/
def IntentRequest.sha256 (sha : Sha) (request : IntentRequest) : String :=
  sha256Json sha (.obj [("approval_source",.str request.approvalSource),("approved",.bool request.approved),
    ("base_dir",nullable request.baseDir),("break_glass",.bool request.breakGlass),
    ("capabilities",.arr ((sortedSet request.capabilities).map .str)),("kind",.str request.kind),
    ("operation",.str "claim-intent"),("resource",nullable request.resource),("schema_version",.num 1),
    ("task_id",nullable request.taskId),("worker_id",.str request.workerId)])

/-- `_coordinated_claim_auto_idempotency_key`. -/
def autoIdempotencyKey (request : String) (renewal : ℕ) : String :=
  "claim-intent:" ++ request ++ (if renewal = 0 then "" else ":renewal:" ++ toString renewal)

/-- What `claim_intent` observes besides its claim call: the approval evidence it obtains for the
selected task, the lease keys the task needs and its planned workspace. -/
structure IntentCall where
  claim : Dispatcher.ClaimCall
  runtimeBlocked : Bool
  approval : Task → Result Json
  requiredKeys : Task → List String
  workspace : Task → Result Json

inductive IntentOutcome where
  | existingRun (runId : String) (terminal : Bool)
  | replay (issuance : Json)
  | runtimeStop
  | existingAssignment (runId : String)
  | draft (intent : Json) (actionClass : String) (contract : Json)
  deriving DecidableEq

/-- The search for a free idempotency key: an issued intent is read back unless it has expired without
a run, and then an automatic key is renewed. Every round reads the clock and meets another issuance. -/
def freeIdempotencyKey (sha : Sha) (db : Db) (clock : ℕ → Time) (request : String) (explicit : Option String) :
    ℕ → ℕ → Result (String ⊕ IntentOutcome)
  | 0, _ => stateError "coordinated claim idempotency keys are exhausted"
  | rounds+1, renewal => do
    let key := explicit.getD (autoIdempotencyKey request renewal)
    match ← db.claimIntentIssuanceByKey sha key with
    | none => return .inl key
    | some issuance =>
      require ((issuance.get? "mutation_contract").bind (·.getStr? "request_sha256") = some request)
        (.state "coordinated claim idempotency key is bound to another mutation")
      match db.runs[text issuance "run_id"]? with
      | some row => return .inr (.existingRun (text issuance "run_id") (!row.state.active))
      | none =>
        if explicit.isSome || ((issuance.get? "expires_at_unix").bind Json.int?).any ((clock renewal : Int) < ·) then
          return .inr (.replay issuance)
        else freeIdempotencyKey sha db clock request explicit rounds (renewal+1)

def intentTtlSeconds : ℕ := 300

def mutationContract (sha : Sha) (key request : String) (revision : Option ℕ) (task : Task) (state : TaskState)
    (attempt : ℕ) : Json :=
  .obj [("attempt",natJson attempt),("expected_task_revision",(revision.map natJson).getD .null),
    ("expected_task_spec_sha256",.str (TaskSpecs.taskSpecDigest sha task.raw)),
    ("expected_task_state",.str state.text),("idempotency_key",.str key),("request_sha256",.str request),
    ("schema_version",.num contractSchemaVersion)]

def unsignedIntent (sha : Sha) (call : IntentCall) (request : IntentRequest) (task : Task) (plan : String)
    (approval workspace : Json) : Json :=
  let runId := call.claim.runId
  .obj [("capabilities",.arr ((sortedSet request.capabilities).map .str)),("created_at",natJson call.claim.now),
    ("does_not_establish",.arr (["Bureau claim","Grabowski lease acquisition","workspace creation",
      "dispatch authority","merge readiness"].map .str)),
    ("expires_at_unix",natJson (call.claim.now+intentTtlSeconds)),("kind",.str request.kind),
    ("lease_owner_id",.str ("bureau-run:" ++ runId)),("operator_approval",approval),("plan_sha256",.str plan),
    ("required_resource_keys",.arr ((sortedSet (call.requiredKeys task)).map .str)),
    ("resource",nullable request.resource),("run_id",.str runId),
    ("runtime_truth_sha256",.str (sha256Json sha call.claim.runtimeTruth)),
    ("schema_version",.num intentSchemaVersion),("task_id",.str task.id),("task_sha256",.str task.sha256),
    ("worker_id",.str request.workerId),("workspace",workspace)]

def signIntent (sha : Sha) (intent : Json) : Json :=
  intent.set "intent_sha256" (.str (sha256Json sha intent))

namespace Dispatcher

/-- The reasons that count against a candidate: an approval stands in for the review of its policy. -/
def intentReasons (request : IntentRequest) (task : Task) (reasons : List Reason) : List Reason :=
  if task.mode = "interactive-agent" ∧ task.policy = "review-before-effect" ∧
      (request.approved ∨ request.breakGlass) then
    reviewedReasons task reasons
  else reasons

/-- The loop of `claim_intent` over the candidates. A named task ends it. -/
def selectForIntent (E : Env) (d : Dispatcher) (db : Db) (observed : Observed) (ctx : ClaimContext)
    (request : IntentRequest) : List Task → List (String × List String) → Result Task
  | [], rejected => .error (.noEligibleTask rejected)
  | task :: rest, rejected =>
    if (request.taskId.all (· = task.id)) ∧ d.taskMatchesResource task request.resource then do
      let reasons ← d.reasons E db observed ctx task
      let reasons := intentReasons request task reasons
      if reasons.isEmpty then return task
      else
        let rejected := rejected ++ [(task.id,reasons.map Reason.text)]
        if request.taskId.isSome ∨ (d.registry.queuePolicy = "strict" ∧ task.state = .ready) then
          .error (.noEligibleTask rejected)
        else d.selectForIntent E db observed ctx request rest rejected
    else d.selectForIntent E db observed ctx request rest rejected

/-- `claim_intent` up to the transaction that issues what it drafts. -/
def claimIntent (E : Env) (d : Dispatcher) (call : IntentCall) (request : IntentRequest) (db : Db) :
    Result IntentOutcome := do
  require (request.resource.all fun r => d.registry.resources.contains r)
    (.state ("unknown resource filter: " ++ request.resource.getD ""))
  require (request.idempotencyKey.all validIdempotencyKey) (.state "coordinated claim idempotency key is invalid")
  let digest := request.sha256 E.sha
  match ← freeIdempotencyKey E.sha db (fun _ => call.claim.now) digest request.idempotencyKey
    (db.issuances.length+1) 0 with
  | .inr outcome => return outcome
  | .inl key =>
    if call.runtimeBlocked then return .runtimeStop
    else
      match db.activeRuns.find? fun item => item.2.workerId = request.workerId with
      | some item => return .existingAssignment item.1
      | none =>
        let ctx ← d.claimContext E call.claim db (sortedSet request.capabilities)
        let task ← d.selectForIntent E db call.claim.observed ctx request d.orderedTasks []
        let approval ← call.approval task
        let initiative ← orRaise ctx.initiatives[task.initiative]? (.state ("KeyError: " ++ task.initiative))
        let workspace ← call.workspace task
        let revision ← orRaise d.revisions[task.id]?
          (.state ("coordinated claim TaskSpec revision is missing for " ++ task.id))
        let contract := mutationContract E.sha key digest revision.revision task
          (effectiveState ctx.overlay task.id task) (db.nextAttempt task.id)
        validateMutationContract contract
        let intent := signIntent E.sha
          (unsignedIntent E.sha call request task (initiative.planSha256 E.sha) approval workspace)
        return .draft intent (taskActionClass task.raw) contract

/-- `commit_claim_intent` with the envelope file it writes once its transaction has committed. A run
without its file is failed, and the error is raised again. -/
def commitWithEnvelope (E : Env) (d : Dispatcher) (call : CoordinatedCall) (intent : Json) (written : Bool)
    (db : Db) : Result ClaimOutcome × Db :=
  match d.commitClaimIntent E call intent db with
  | .error e => (.error e,db)
  | .ok (.existing runId,db') => (.ok (.existing runId),db')
  | .ok (.claimed runId,db') =>
    let message := "coordinated claim envelope materialization failed"
    if written then (.ok (.claimed runId),db')
    else (.error (.state message),Transactions.commit db' (db'.failRun E.sha call.claim.now runId message .failed))

end Dispatcher

section Keys

variable {sha : Sha} {db : Db} {now : Time} {request : String} {explicit : Option String}

theorem autoIdempotencyKey_injective (request : String) : Function.Injective (autoIdempotencyKey request) := by
  intro a b h
  have hsuffix := (String.append_right_inj _).mp h
  have hword (n : ℕ) : ":renewal:" ++ toString n ≠ "" := by
    intro hempty
    have hlength := congrArg String.length hempty
    rw [String.length_append] at hlength
    simp at hlength
  split at hsuffix <;> split at hsuffix
  · omega
  · exact absurd hsuffix.symm (hword b)
  · exact absurd hsuffix (hword a)
  · exact Nat.repr_inj.mp ((String.append_right_inj _).mp hsuffix)

theorem exists_free_key (db : Db) (request : String) : ∃ renewal ≤ db.issuances.length,
    ∀ item ∈ db.issuances, Db.contractKey item.2 ≠ some (autoIdempotencyKey request renewal) := by
  by_contra hall
  push Not at hall
  let keys := db.issuances.filterMap fun item => Db.contractKey item.2
  let wanted := (List.range (db.issuances.length+1)).map (autoIdempotencyKey request)
  have hnodup : wanted.Nodup := List.nodup_range.map (autoIdempotencyKey_injective request)
  have hsubset : wanted ⊆ keys := by
    intro key hkey
    obtain ⟨renewal,hrenewal,rfl⟩ := List.mem_map.mp hkey
    obtain ⟨item,hitem,hfound⟩ := hall renewal (by simpa [Nat.lt_succ_iff] using hrenewal)
    exact List.mem_filterMap.mpr ⟨item,hitem,hfound⟩
  have hlength : wanted.length ≤ keys.length := (List.subperm_of_subset hnodup hsubset).length_le
  have hkeys : keys.length ≤ db.issuances.length := List.length_filterMap_le ..
  simp only [wanted,List.length_map,List.length_range] at hlength
  omega

def bearers (db : Db) (key : String) : List Json :=
  (db.issuances.map Prod.snd).filter fun issuance => Db.contractKey issuance = some key

/-- The journal answers for a key: it is one, every record is valid and at most one bears it. -/
structure KeyReads (sha : Sha) (db : Db) (key : String) : Prop where
  valid : validIdempotencyKey key = true
  records : ∀ item ∈ db.issuances, ∃ u, validateIssuance sha item.2 = .ok u
  single : (bearers db key).length ≤ 1

theorem KeyReads.lookup {key : String} (h : KeyReads sha db key) :
    db.claimIntentIssuanceByKey sha key = .ok (bearers db key).head? := by
  obtain ⟨units,hunits⟩ : ∃ units, collect (validateIssuance sha) (db.issuances.map Prod.snd) = .ok units := by
    apply collect_total
    intro record hrecord
    obtain ⟨item,hitem,rfl⟩ := List.mem_map.mp hrecord
    exact h.records item hitem
  have hfound : db.issuancesByKey sha key = .ok (bearers db key) := by
    simp only [Db.issuancesByKey,steps_ok]
    exact ⟨units,hunits,rfl⟩
  have hsingle := h.single
  simp only [Db.claimIntentIssuanceByKey,steps_ok]
  refine ⟨(),h.valid,bearers db key,hfound,?_⟩
  rcases hbearers : bearers db key with _ | ⟨issuance,_ | ⟨second,rest⟩⟩
  · rfl
  · rfl
  · rw [hbearers] at hsingle
    simp only [List.length_cons] at hsingle
    omega

theorem KeyReads.of_lookup {key : String} {found : Option Json}
    (h : db.claimIntentIssuanceByKey sha key = .ok found) : KeyReads sha db key := by
  simp only [Db.claimIntentIssuanceByKey,steps_ok,Db.issuancesByKey] at h
  obtain ⟨_,hkey,_,⟨_,hunits,rfl⟩,h⟩ := h
  refine ⟨hkey,?_,?_⟩
  · intro item hitem
    obtain ⟨u,_,hu⟩ := exists_of_collect hunits (List.mem_map_of_mem hitem)
    exact ⟨u,hu⟩
  · show ((db.issuances.map Prod.snd).filter _).length ≤ 1
    split at h
    · simp [stateError] at h
    · simp [*]
    · simp [*]

/-- How the search ends at a renewal number: its key is unused, its issuance is bound to another
request, has a run or has not expired, or the journal does not answer for the key. -/
inductive RenewalEnd (sha : Sha) (db : Db) (clock : ℕ → Time) (request : String) (renewal : ℕ) :
    Result (String ⊕ IntentOutcome) → Prop
  | unused (hreads : KeyReads sha db (autoIdempotencyKey request renewal))
      (hfree : bearers db (autoIdempotencyKey request renewal) = []) :
      RenewalEnd sha db clock request renewal (.ok (.inl (autoIdempotencyKey request renewal)))
  | otherRequest {issuance : Json} (hreads : KeyReads sha db (autoIdempotencyKey request renewal))
      (hbears : issuance ∈ bearers db (autoIdempotencyKey request renewal))
      (hother : (issuance.get? "mutation_contract").bind (·.getStr? "request_sha256") ≠ some request) :
      RenewalEnd sha db clock request renewal
        (.error (.state "coordinated claim idempotency key is bound to another mutation"))
  | existingRun {issuance : Json} {row : RunRow} (hreads : KeyReads sha db (autoIdempotencyKey request renewal))
      (hbears : issuance ∈ bearers db (autoIdempotencyKey request renewal))
      (hsame : (issuance.get? "mutation_contract").bind (·.getStr? "request_sha256") = some request)
      (hrun : db.runs[text issuance "run_id"]? = some row) :
      RenewalEnd sha db clock request renewal
        (.ok (.inr (.existingRun (text issuance "run_id") (!row.state.active))))
  | unexpired {issuance : Json} (hreads : KeyReads sha db (autoIdempotencyKey request renewal))
      (hbears : issuance ∈ bearers db (autoIdempotencyKey request renewal))
      (hsame : (issuance.get? "mutation_contract").bind (·.getStr? "request_sha256") = some request)
      (hrun : db.runs[text issuance "run_id"]? = none)
      (hlive : ((issuance.get? "expires_at_unix").bind Json.int?).any ((clock renewal : Int) < ·) = true) :
      RenewalEnd sha db clock request renewal (.ok (.inr (.replay issuance)))
  | unreadable {e : BureauError} (hreads : ¬KeyReads sha db (autoIdempotencyKey request renewal))
      (hlookup : db.claimIntentIssuanceByKey sha (autoIdempotencyKey request renewal) = .error e) :
      RenewalEnd sha db clock request renewal (.error e)

/-- One round ends the search or passes on to the next number, where it could not have ended. -/
theorem freeIdempotencyKey_round (sha : Sha) (db : Db) (clock : ℕ → Time) (request : String) (renewal : ℕ) :
    (∃ outcome, RenewalEnd sha db clock request renewal outcome ∧
      ∀ rounds, freeIdempotencyKey sha db clock request none (rounds+1) renewal = outcome) ∨
    ((∃ issuance, issuance ∈ bearers db (autoIdempotencyKey request renewal)) ∧
      (∀ outcome, ¬RenewalEnd sha db clock request renewal outcome) ∧
      ∀ rounds, freeIdempotencyKey sha db clock request none (rounds+1) renewal =
        freeIdempotencyKey sha db clock request none rounds (renewal+1)) := by
  simp only [freeIdempotencyKey,Option.getD_none]
  by_cases hreads : KeyReads sha db (autoIdempotencyKey request renewal)
  case neg =>
    cases hlookup : db.claimIntentIssuanceByKey sha (autoIdempotencyKey request renewal) with
    | ok found => exact absurd (KeyReads.of_lookup hlookup) hreads
    | error e => exact .inl ⟨_,.unreadable hreads hlookup,fun _ => rfl⟩
  rw [hreads.lookup]
  match hbearers : bearers db (autoIdempotencyKey request renewal) with
  | [] => exact .inl ⟨_,.unused hreads hbearers,fun _ => rfl⟩
  | _ :: _ :: _ => exact absurd hreads.single (by simp [hbearers])
  | [issuance] =>
    have hbears : issuance ∈ bearers db (autoIdempotencyKey request renewal) := by simp [hbearers]
    by_cases hsame : (issuance.get? "mutation_contract").bind (·.getStr? "request_sha256") = some request
    case neg => exact .inl ⟨_,.otherRequest hreads hbears hsame,fun _ => by simp [hsame,require,bind,Except.bind]⟩
    cases hrun : db.runs[text issuance "run_id"]? with
    | some row =>
      exact .inl ⟨_,.existingRun hreads hbears hsame hrun,fun _ => by
        simp [hsame,hrun,require,bind,Except.bind,pure,Except.pure]⟩
    | none =>
      by_cases hlive : ((issuance.get? "expires_at_unix").bind Json.int?).any ((clock renewal : Int) < ·) = true
      case pos =>
        exact .inl ⟨_,.unexpired hreads hbears hsame hrun hlive,fun _ => by
          simp [hsame,hrun,hlive,require,bind,Except.bind,pure,Except.pure]⟩
      refine .inr ⟨⟨issuance,List.mem_singleton_self _⟩,?_,fun _ => by
        simp [hsame,hrun,hlive,require,bind,Except.bind]⟩
      -- The key has one issuance, so that every way to end speaks of this one.
      intro outcome hend
      cases hend <;> simp_all

theorem freeIdempotencyKey_passed {clock : ℕ → Time} {renewal : ℕ}
    (h : ∀ earlier < renewal, ∀ outcome, ¬RenewalEnd sha db clock request earlier outcome) (rounds : ℕ) :
    freeIdempotencyKey sha db clock request none (renewal+rounds) 0 =
      freeIdempotencyKey sha db clock request none rounds renewal := by
  induction renewal generalizing rounds with
  | zero => rw [Nat.zero_add]
  | succ renewal ih =>
    have hstep := ih (fun earlier hearlier => h earlier (by omega)) (rounds+1)
    rcases freeIdempotencyKey_round sha db clock request renewal with ⟨outcome,hend,_⟩ | ⟨_,_,hnext⟩
    · exact absurd hend (h renewal (by omega) outcome)
    · rw [show renewal+1+rounds = renewal+(rounds+1) by omega,hstep,hnext]

/-- The renewal of an automatic key ends for every journal and clock, after at most one round more than
there are issuances, at the least number where it can end. -/
theorem renewal_terminates (sha : Sha) (db : Db) (clock : ℕ → Time) (request : String) :
    ∃ renewal outcome, IsLeast {n | ∃ outcome, RenewalEnd sha db clock request n outcome} renewal ∧
      renewal ≤ db.issuances.length ∧ RenewalEnd sha db clock request renewal outcome ∧
      ∀ rounds, renewal < rounds → freeIdempotencyKey sha db clock request none rounds 0 = outcome := by
  classical
  obtain ⟨free,hle,hfree⟩ := exists_free_key db request
  have hstop : ∃ outcome, RenewalEnd sha db clock request free outcome := by
    rcases freeIdempotencyKey_round sha db clock request free with ⟨outcome,hend,_⟩ | ⟨⟨issuance,hbears⟩,_⟩
    · exact ⟨outcome,hend⟩
    · obtain ⟨hmem,hkey⟩ := List.mem_filter.mp hbears
      obtain ⟨item,hitem,rfl⟩ := List.mem_map.mp hmem
      exact absurd (of_decide_eq_true hkey) (hfree item hitem)
  have hstops : ∃ n, ∃ outcome, RenewalEnd sha db clock request n outcome := ⟨free,hstop⟩
  have hpassed (rounds : ℕ) : freeIdempotencyKey sha db clock request none (Nat.find hstops+rounds) 0 =
      freeIdempotencyKey sha db clock request none rounds (Nat.find hstops) := by
    apply freeIdempotencyKey_passed
    intro earlier hearlier outcome hend
    exact Nat.find_min hstops hearlier ⟨outcome,hend⟩
  have hleast : IsLeast {n | ∃ outcome, RenewalEnd sha db clock request n outcome} (Nat.find hstops) :=
    ⟨Nat.find_spec hstops,fun _ hn => Nat.find_min' hstops hn⟩
  rcases freeIdempotencyKey_round sha db clock request (Nat.find hstops) with ⟨outcome,hend,hround⟩ | ⟨_,hgoes,_⟩
  · refine ⟨Nat.find hstops,outcome,hleast,(Nat.find_min' hstops hstop).trans hle,hend,?_⟩
    intro rounds hrounds
    obtain ⟨more,rfl⟩ := Nat.exists_eq_add_of_lt hrounds
    rw [show Nat.find hstops+more+1 = Nat.find hstops+(more+1) by omega,hpassed,hround]
  · obtain ⟨outcome,hend⟩ := Nat.find_spec hstops
    exact absurd hend (hgoes outcome)

end Keys

namespace Db

theorem issuances_extend (db : Db) (rows : List EventRow) :
    (db.extend rows).issuances = db.issuances ++ ({ db with events := rows } : Db).issuances := by
  simp only [issuances,events_extend,List.filterMap_append]

theorem issuances_append {rows : List EventRow} (hevents : db'.events = db.events ++ rows)
    (h : ∀ row ∈ rows, row.eventType ≠ .claimIntentIssued) : db'.issuances = db.issuances := by
  have hnone : ({ db with events := rows } : Db).issuances = [] := by
    rw [issuances,List.filterMap_eq_nil_iff]
    intro row hrow
    have hne := h row hrow
    split
    · rename_i htype _
      exact absurd htype hne
    · rfl
  rw [issuances,hevents]
  exact (issuances_extend db rows).trans (by rw [hnone,List.append_nil])

theorem issuances_runEvent {payload : Json} (h : db.runEvent sha .claimIntentIssued payload runId = .ok db') :
    db'.issuances = db.issuances ++ [(some runId,payload)] := by
  obtain ⟨rows,rfl,hrows⟩ := event_rows h
  have hlater : ({ db with events := rows } : Db).issuances = [] := by
    rw [issuances,List.filterMap_eq_nil_iff]
    intro row hrow
    rw [(hrows row hrow).1]
  rw [issuances_extend]
  simp only [issuances,nextRow,List.filterMap_cons] at hlater ⊢
  rw [hlater]

end Db

theorem Move.issuances (h : Move sha resources kind db db') (hkind : kind ≠ .issue) :
    db'.issuances = db.issuances := by
  rcases h.frame with hframe | ⟨_,⟨_,_,_,_,rfl,_⟩ | ⟨_,_,_,_,_,rfl,_⟩⟩
  · obtain ⟨rows,hevents,_,hrows⟩ := hframe.grows
    exact Db.issuances_append hevents fun row hrow htype => hkind ((hrows row hrow).2.2.2.1 htype)
  · simp [Db.issuances,setRevision,List.filterMap_append]
  · rfl

/-- An intent with its contract, as `claim_intent` of some dispatcher has drafted them from a task
document with a property. -/
def Drafted (E : Env) (P : Json → Prop) (intent : Json) (actionClass : String) (contract : Json) : Prop :=
  ∃ (files : Registry) (start db : Db) (d : Dispatcher) (call : IntentCall) (request : IntentRequest),
    files.Loaded E.sha ∧ Dispatcher.init E.sha files start = .ok d ∧
      d.claimIntent E call request db = .ok (.draft intent actionClass contract) ∧
      ∀ task, d.registry.tasks[text intent "task_id"]? = some task → P task.raw

structure Issued (E : Env) (P : Json → Prop) (db : Db) : Prop where
  runs : (db.issuances.map Prod.fst).Nodup
  keys : (db.issuances.filterMap fun item => Db.contractKey item.2).Nodup
  drafted : ∀ item ∈ db.issuances, ∃ intent actionClass contract, Drafted E P intent actionClass contract ∧
    item = (some (text intent "run_id"),claimIssuance E.sha intent actionClass (some contract))

/-- Issue calls come from `claim_intent`. -/
def IssuesDrafts (E : Env) (P : Json → Prop) (op : Op) : Prop :=
  ∀ intent actionClass contract, op = .issueClaimIntent intent actionClass contract →
    ∃ found, contract = some found ∧ Drafted E P intent actionClass found

variable {P : Json → Prop} {id : String} {d : Dispatcher}

theorem Issued.congr (h : Issued E P db) (hsame : db'.issuances = db.issuances) : Issued E P db' :=
  ⟨hsame ▸ h.runs,hsame ▸ h.keys,hsame ▸ h.drafted⟩

theorem step_issued {op : Op} (hop : IssuesDrafts E P op) (h : Issued E P db) :
    Issued E P (step E K db op) := by
  refine commit_preserves h fun db' hdb' => ?_
  by_cases hkind : op.kind = .issue
  · cases op <;> simp only [Op.kind,reduceCtorEq] at hkind
    case issueClaimIntent intent actionClass contract =>
      obtain ⟨found,rfl,hdrafted⟩ := hop _ _ _ rfl
      obtain ⟨_,hissue⟩ := map_snd_eq_ok.mp hdb'
      rcases Dispatcher.issueClaimIntent_eq_ok hissue with rfl | ⟨hkey,hrun,hevent⟩
      · exact h
      · have hadded := Db.issuances_runEvent hevent
        refine ⟨?_,?_,?_⟩
        · rw [hadded,List.map_append]
          refine List.Nodup.append h.runs (by simp) ?_
          intro runId hfound hnew
          obtain ⟨item,hitem,rfl⟩ := List.mem_map.mp hfound
          exact hrun item hitem (by simpa using hnew)
        · rw [hadded,List.filterMap_append]
          refine List.Nodup.append h.keys ?_ ?_
          · cases hc : Db.contractKey (claimIssuance E.sha intent actionClass (some found)) <;> simp [hc]
          · intro key hfound hnew
            obtain ⟨item,hitem,hold⟩ := List.mem_filterMap.mp hfound
            have hthis : Db.contractKey (claimIssuance E.sha intent actionClass (some found)) = some key := by
              simpa using hnew
            exact hkey key hthis item hitem hold
        · intro item hitem
          rw [hadded] at hitem
          rcases List.mem_append.mp hitem with hitem | hitem
          · exact h.drafted item hitem
          · exact ⟨intent,actionClass,found,hdrafted,List.mem_singleton.mp hitem⟩
  · refine h.congr ?_
    rcases apply_moves op.planned_self hdb' with hsingle | hroutine
    · exact hsingle.issuances hkind
    · clear hdb' h
      induction hroutine with
      | refl => rfl
      | tail _ hroutine ih =>
        obtain ⟨_,hmove,_,_,_,_,_,hissue⟩ := hroutine.kind_ne
        exact (hmove.issuances hissue).trans ih

theorem issued_of_reach
    (h : Reach (step E K) (fun _ op => IssuesDrafts E P op) (Db.fresh E.sha) db) : Issued E P db := by
  refine Reach.invariant (P := Issued E P) ?_ (fun _ _ hissued hop => step_issued hop hissued) h
  refine ⟨?_,?_,?_⟩ <;> simp [Db.issuances,Db.fresh]

namespace Dispatcher

variable {E : Env} {d : Dispatcher} {db db' : Db}

theorem selectForIntent_mem {observed : Observed} {ctx : ClaimContext} {request : IntentRequest} {tasks : List Task}
    {rejected : List (String × List String)}
    (h : d.selectForIntent E db observed ctx request tasks rejected = .ok task) : task ∈ tasks := by
  induction tasks generalizing rejected with
  | nil => simp [selectForIntent] at h
  | cons first rest ih =>
    unfold selectForIntent at h
    split at h
    · simp only [bind_eq_ok] at h
      obtain ⟨reasons,_,h⟩ := h
      split at h
      · obtain rfl := pure_eq_ok.mp h
        exact List.mem_cons_self
      · split at h
        · simp at h
        · exact List.mem_cons_of_mem _ (ih h)
    · exact List.mem_cons_of_mem _ (ih h)

theorem freeIdempotencyKey_ne_draft {clock : ℕ → Time} {digest : String} {explicit : Option String}
    {rounds renewal : ℕ} :
    freeIdempotencyKey sha db clock digest explicit rounds renewal ≠
      .ok (.inr (.draft intent actionClass contract)) := by
  induction rounds generalizing renewal with
  | zero => simp [freeIdempotencyKey,stateError]
  | succ rounds ih =>
    intro h
    simp only [freeIdempotencyKey,bind_eq_ok] at h
    obtain ⟨found,_,h⟩ := h
    cases found with
    | none => simp [pure_eq_ok] at h
    | some issuance =>
      simp only [steps_ok] at h
      obtain ⟨_,_,h⟩ := h
      split at h
      · simp [pure_eq_ok] at h
      · split at h
        · simp [pure_eq_ok] at h
        · exact ih h

/-- A draft names one task of the snapshot, by its id, its task digest and the digest of its document. -/
theorem claimIntent_draft {call : IntentCall} {request : IntentRequest}
    (h : d.claimIntent E call request db = .ok (.draft intent actionClass contract)) :
    ∃ task ∈ d.orderedTasks, intent.getStr? "task_id" = some task.id ∧
      intent.getStr? "task_sha256" = some task.sha256 ∧
      contract.getStr? "expected_task_spec_sha256" = some (taskSpecDigest E.sha task.raw) := by
  simp only [claimIntent,steps_ok] at h
  obtain ⟨_,_,_,_,found,hfound,h⟩ := h
  cases found with
  | inr outcome =>
    obtain rfl := pure_eq_ok.mp h
    exact absurd hfound freeIdempotencyKey_ne_draft
  | inl key =>
    simp only at h
    split at h
    · simp [pure_eq_ok] at h
    · split at h
      · simp [pure_eq_ok] at h
      · simp only [steps_ok,IntentOutcome.draft.injEq] at h
        obtain ⟨ctx,_,task,htask,approval,_,initiative,_,workspace,_,revision,_,_,_,rfl,_,rfl⟩ := h
        have hfield (key : String) (hkey : key ≠ "intent_sha256") (document : Json) :
            (signIntent E.sha document).getStr? key = document.getStr? key := by
          rw [Json.getStr?,signIntent,Json.get?_set_ne _ _ hkey,Json.getStr?]
        refine ⟨task,selectForIntent_mem htask,?_,?_,?_⟩
        · rw [hfield _ (by decide)]
          rfl
        · rw [hfield _ (by decide)]
          rfl
        · rfl

structure CommittedClaim (E : Env) (d : Dispatcher) (call : CoordinatedCall) (intent : Json) (db : Db) (runId : String)
    (db' : Db) (task : Task) (state : TaskState) (issuance : Json) (row : RunRow) : Prop where
  named : runId = text intent "run_id"
  new : db.runs[runId]? = none
  issued : db.claimIntentIssuance E.sha runId = .ok issuance
  identity : issuance = claimIssuance E.sha intent (text issuance "action_class")
    (if issuance.get? "schema_version" = some (.num 2) then issuance.get? "mutation_contract" else none)
  listed : d.registry.tasks[text intent "task_id"]? = some task
  taskSha256 : intent.getStr? "task_sha256" = some task.sha256
  planSha256 : intent.getStr? "plan_sha256" = some row.planSha256
  plan : Bureau.planSha256 E.sha call.claim.files task.initiative = .ok row.planSha256
  contract : checkMutationContract E.sha db task state (db.nextAttempt task.id)
    (if issuance.get? "schema_version" = some (.num 2) then issuance.get? "mutation_contract" else none) = .ok ()
  run : db'.runs[runId]? = some row
  fields : row.taskId = task.id ∧ row.workerId = text intent "worker_id" ∧ row.taskSha256 = task.sha256 ∧
    row.attempt = db.nextAttempt task.id

theorem commitClaimIntent_claimed {call : CoordinatedCall}
    (h : d.commitClaimIntent E call intent db = .ok (.claimed runId,db')) :
    ∃ task state issuance row, CommittedClaim E d call intent db runId db' task state issuance row := by
  simp only [commitClaimIntent,bind_eq_ok] at h
  obtain ⟨_,hvalid,h⟩ := h
  split at h
  · simp only [existingClaim,steps_ok,Prod.mk.injEq] at h
    obtain ⟨_,⟨_,_,rfl⟩,houtcome,_⟩ := h
    simp at houtcome
  · rename_i hnew
    simp only [steps_ok,Prod.mk.injEq,ClaimOutcome.claimed.injEq] at h
    obtain ⟨⟨task,contract,approval⟩,hpreflight,_,_,ctx,hctx,initiative,hinitiative,_,hplan,workspace,_,_,_,_,hcontract,
      reasons,_,_,_,lease,_,written,hwrite,rfl,rfl⟩ := h
    simp only [preflightCommit,steps_ok,decide_eq_true_eq,Prod.mk.injEq] at hpreflight
    obtain ⟨_,_,issuance,hissued,_,hidentity,_,_,_,_,found,htask,_,_,_,_,_,_,_,_,_,htaskSha,_,_,rfl,rfl,rfl⟩ :=
      hpreflight
    simp only [writeClaim,bind_eq_ok,requireNone_eq_ok] at hwrite
    obtain ⟨_,_,inserted,hinsert,reserved,hreserve,hevent⟩ := hwrite
    obtain ⟨_,rfl⟩ := insertRun_eq_ok hinsert
    obtain ⟨⟨_,rfl⟩,_,_⟩ := Db.insertReservations_reserves hreserve
    obtain ⟨rows,rfl⟩ := Db.event_extends hevent
    refine ⟨found,_,issuance,_,⟨rfl,hnew,hissued,hidentity,htask,htaskSha,?_,?_,hcontract,Tables.get_insert_self _ _ _,
      rfl,rfl,rfl,rfl⟩⟩
    · exact of_decide_eq_true hplan
    · simp only [claimContext,steps_ok] at hctx
      obtain ⟨_,_,fresh,hfresh,rfl⟩ := hctx
      rw [← planSha256_stateStoreInitiativeRegistry hfresh]
      simp only [Bureau.planSha256,steps_ok]
      exact ⟨initiative,hinitiative,rfl⟩

end Dispatcher

theorem Drafted.document (h : Drafted E P intent actionClass contract) :
    ∃ raw, P raw ∧ intent.getStr? "task_sha256" = some (taskRevisionSha256 E.sha raw) ∧
      contract.getStr? "expected_task_spec_sha256" = some (taskSpecDigest E.sha raw) := by
  obtain ⟨files,start,db,d,call,request,hfiles,hd,hdraft,hP⟩ := h
  obtain ⟨task,hmem,hid,hsha,hspec⟩ := Dispatcher.claimIntent_draft hdraft
  obtain ⟨id,hlisted⟩ := Dispatcher.mem_orderedTasks hmem
  have hcurrent := (Dispatcher.init_currentView hd).tasks id task hlisted
  obtain rfl := hcurrent.id_eq hfiles
  refine ⟨task.raw,hP task ?_,?_,hspec⟩
  · rw [text,hid]
    exact hlisted
  · rw [hsha,hcurrent.sha256_eq hfiles]

theorem Move.taskSpecs_kept (h : Move sha resources kind db db')
    (hid : (db.taskSpecs[id]?).isSome = true) :
    (db'.taskSpecs[id]?).isSome = true := by
  by_cases hkind : kind = .publish
  · subst hkind
    cases h with
    | @run _ _ mid _ runId events write taskStatus incomplete recorded ordinary journal =>
      obtain ⟨rows,rfl⟩ := Db.runEvents_extends journal
      have hpointers : mid.taskSpecs = db.taskSpecs := congrArg Prod.fst write.specs
      rw [← hpointers] at hid
      exact hid
    | known => exact hid
    | @spec _ now next key expected successor =>
      by_cases hnext : id = next.taskId
      · simp [setRevision,hnext]
      · simpa [setRevision,Tables.get_insert_ne _ _ hnext] using hid
  · have hpointers : db'.taskSpecs = db.taskSpecs := congrArg Prod.fst ((h.frame_of_ne hkind).specs)
    rwa [hpointers]

theorem taskSpecs_kept (hreach : Reach (step E K) (fun _ _ => True) db db')
    (h : (db.taskSpecs[id]?).isSome = true) :
    (db'.taskSpecs[id]?).isSome = true := by
  refine Reach.invariant (P := fun db : Db => (db.taskSpecs[id]?).isSome = true) h ?_ hreach
  intro start op hstart _
  exact step_invariant (P := fun db : Db => (db.taskSpecs[id]?).isSome = true)
    (fun _ _ _ hmove hid => hmove.taskSpecs_kept hid) hstart op.planned_self

/-- The run is the one its issued contract describes, and all of that is current in the store and in
the registry files read at the commit. -/
structure FulfilsContract (E : Env) (files fresh : Registry) (db : Db) (initiative : String) (intent contract : Json)
    (row : RunRow) : Prop where
  task : row.taskId = text intent "task_id"
  worker : row.workerId = text intent "worker_id"
  taskSha256 : intent.getStr? "task_sha256" = some row.taskSha256
  planSha256 : intent.getStr? "plan_sha256" = some row.planSha256 ∧
    Bureau.planSha256 E.sha fresh initiative = .ok row.planSha256
  attempt : contract.get? "attempt" = some (natJson row.attempt) ∧ row.attempt = db.nextAttempt row.taskId
  revision : ∃ current, TaskSpecs.getCurrent E.sha db row.taskId = .ok current ∧
    current.map (fun c => (c.revision : Int)) = (contract.get? "expected_task_revision").bind Json.int? ∧
    match current with
    | some c => row.taskSha256 = taskRevisionSha256 E.sha c.spec
    | none => ∃ git, files.tasks[row.taskId]? = some git ∧ row.taskSha256 = git.sha256

theorem Db.mem_issuances (h : db.claimIntentIssuance sha runId = .ok issuance) :
    (some runId,issuance) ∈ db.issuances := by
  unfold claimIntentIssuance at h
  split at h
  · rename_i found hfound
    simp only [steps_ok] at h
    obtain ⟨_,_,rfl⟩ := h
    have hmem : found ∈ (db.issuances.filter fun item => item.1 = some runId).map Prod.snd := by simp [hfound]
    obtain ⟨⟨run,_⟩,hitem,rfl⟩ := List.mem_map.mp hmem
    obtain ⟨hitem,hrun⟩ := List.mem_filter.mp hitem
    obtain rfl : run = some runId := of_decide_eq_true hrun
    exact hitem
  · simp [stateError] at h

theorem CommittedClaim.fulfils
    (hsha : ∀ a b, P a → P b → sha256Json E.sha a = sha256Json E.sha b → a = b)
    {call : Dispatcher.CoordinatedCall} {start : Db} {state : TaskState} {files : Registry}
    (h : Dispatcher.CommittedClaim E d call intent db runId db' task state issuance row) (hissued : Issued E P db)
    (hfiles : files.Loaded E.sha) (hd : Dispatcher.init E.sha files start = .ok d)
    (hlater : Reach (step E K) (fun _ _ => True) start db) (hspecs : db.AllSpecs E.sha P) :
    ∃ actionClass contract, (some runId,claimIssuance E.sha intent actionClass (some contract)) ∈ db.issuances ∧
      FulfilsContract E files call.claim.files db task.initiative intent contract row := by
  have hmem := Db.mem_issuances h.issued
  obtain ⟨drafted,actionClass,contract,hdrafted,hitem⟩ := hissued.drafted _ hmem
  obtain ⟨_,rfl⟩ := Prod.mk.inj hitem
  have hidentity := h.identity
  have hcontract := h.contract
  have hversion : (claimIssuance E.sha drafted actionClass (some contract)).get? "schema_version" = some (.num 2) := rfl
  have hfound : (claimIssuance E.sha drafted actionClass (some contract)).get? "mutation_contract" = some contract :=
    rfl
  rw [if_pos hversion,hfound] at hidentity hcontract
  obtain rfl : drafted = intent := Option.some.inj (congrArg (·.get? "intent") hidentity)
  obtain ⟨raw,hraw,hnamed,hbound⟩ := hdrafted.document
  have hview := (Dispatcher.init_currentView hd).tasks _ _ h.listed
  obtain ⟨hid,hworker,hdigest,hattempt⟩ := h.fields
  have hlisted : task.id = text drafted "task_id" := hview.id_eq hfiles
  simp only [Dispatcher.checkMutationContract,steps_ok,decide_eq_true_eq] at hcontract
  obtain ⟨current,hcurrent,_,hrevision,_,hspec,_,_,hcounted⟩ := hcontract
  refine ⟨actionClass,contract,hmem,?_⟩
  refine ⟨hid.trans hlisted,hworker,hdigest ▸ h.taskSha256,⟨h.planSha256,h.plan⟩,⟨hattempt ▸ hcounted,hid ▸ hattempt⟩,
    ?_⟩
  refine ⟨current,hid ▸ hcurrent,hrevision,?_⟩
  cases current with
  | some c =>
    obtain ⟨_,_,_,hstored,_⟩ := getCurrent_eq_some hcurrent
    rw [hbound,Option.map_some,Option.getD_some,hstored] at hspec
    have hsame : c.spec = raw := hsha _ _ (hspecs _ _ hcurrent) hraw (Option.some.inj hspec).symm
    change row.taskSha256 = taskRevisionSha256 E.sha c.spec
    rw [hdigest,hsame]
    exact Option.some.inj (h.taskSha256.symm.trans hnamed)
  | none =>
    rcases hview with ⟨old,hold,_⟩ | ⟨_,hgit⟩
    · have hpointer : (db.taskSpecs[task.id]?).isSome = true := by
        refine taskSpecs_kept hlater ?_
        rw [hlisted]
        cases hstart : start.taskSpecs[text drafted "task_id"]? with
        | none => simp [getCurrent,hstart] at hold
        | some pointer => rfl
      have hnone : db.taskSpecs[task.id]? = none := by
        unfold getCurrent at hcurrent
        split at hcurrent
        · assumption
        · simp only [steps_ok,reduceCtorEq,and_false,exists_false] at hcurrent
      simp [hnone] at hpointer
    · exact ⟨task,by rw [hid,hlisted]; exact hgit,hdigest⟩

theorem Dispatcher.commitWithEnvelope_existing {call : CoordinatedCall} {written : Bool}
    (h : db.runs[text intent "run_id"]? = some row) :
    (d.commitWithEnvelope E call intent written db).2 = db ∧
      (d.commitWithEnvelope E call intent written db).1 ≠ .ok (.claimed (text intent "run_id")) := by
  unfold commitWithEnvelope
  cases hcommit : d.commitClaimIntent E call intent db with
  | error e => simp
  | ok result =>
    simp only [commitClaimIntent,steps_ok,h,existingClaim] at hcommit
    obtain ⟨_,_,_,⟨_,_,rfl⟩,rfl⟩ := hcommit
    simp

/-- The coordinated claim protocol. Issuances have distinct run ids and distinct idempotency keys. A
commit that fails leaves the store as it was, or the run it committed is failed because its envelope
could not be written. A commit that creates a run fulfils the contract the run was issued with, and
from then on no commit for that run has an effect. -/
theorem coordinated_claim_protocol {E : Env} {K : Contracts} {P : Json → Prop}
    (hsha : ∀ a b, P a → P b → sha256Json E.sha a = sha256Json E.sha b → a = b) {db : Db}
    (hreach : Reach (step E K) (fun _ op => IssuesDrafts E P op) (Db.fresh E.sha) db) :
    (db.issuances.map Prod.fst).Nodup ∧ (db.issuances.filterMap fun item => Db.contractKey item.2).Nodup ∧
    (∀ (d : Dispatcher) (call : Dispatcher.CoordinatedCall) (intent : Json) (written : Bool) (e : BureauError),
      (d.commitWithEnvelope E call intent written db).1 = .error e →
        (d.commitWithEnvelope E call intent written db).2 = db ∨ written = false ∧
          ∃ (runId message : String) (db' : Db), d.commitClaimIntent E call intent db = .ok (.claimed runId,db') ∧
            (d.commitWithEnvelope E call intent written db).2 =
              step E K db' (.failRun call.claim.now runId message .failed)) ∧
    ∀ (files : Registry) (start : Db) (d : Dispatcher) (call : Dispatcher.CoordinatedCall) (intent : Json)
      (runId : String) (db' : Db), files.Loaded E.sha → Dispatcher.init E.sha files start = .ok d →
      Reach (step E K) (fun _ _ => True) start db → db.AllSpecs E.sha P →
      d.commitClaimIntent E call intent db = .ok (.claimed runId,db') →
        (∃ actionClass contract task row,
          (some runId,claimIssuance E.sha intent actionClass (some contract)) ∈ db.issuances ∧
          d.registry.tasks[row.taskId]? = some task ∧ db'.runs[runId]? = some row ∧
          FulfilsContract E files call.claim.files db task.initiative intent contract row) ∧
        ∀ (later : Db), Reach (step E K) (fun _ _ => True) db' later → ∀ (other : Dispatcher)
          (again : Dispatcher.CoordinatedCall) (repeated : Json) (written : Bool), text repeated "run_id" = runId →
          (other.commitWithEnvelope E again repeated written later).2 = later ∧
            (other.commitWithEnvelope E again repeated written later).1 ≠ .ok (.claimed runId) := by
  have hissued := issued_of_reach hreach
  refine ⟨hissued.runs,hissued.keys,?_,?_⟩
  · intro d call intent written e herror
    unfold Dispatcher.commitWithEnvelope at herror ⊢
    cases hcommit : d.commitClaimIntent E call intent db with
    | error failure => exact .inl rfl
    | ok result =>
      obtain ⟨outcome,db'⟩ := result
      rw [hcommit] at herror
      cases outcome with
      | existing runId => simp at herror
      | claimed runId =>
        cases written with
        | true => simp at herror
        | false => exact .inr ⟨rfl,runId,_,db',rfl,rfl⟩
  · intro files start d call intent runId db' hfiles hd hlater hspecs hcommit
    obtain ⟨task,state,issuance,row,hclaimed⟩ := Dispatcher.commitClaimIntent_claimed hcommit
    obtain ⟨actionClass,contract,hmem,hfulfils⟩ := CommittedClaim.fulfils hsha hclaimed hissued hfiles hd hlater hspecs
    refine ⟨⟨actionClass,contract,task,row,hmem,?_,hclaimed.run,hfulfils⟩,?_⟩
    · rw [hfulfils.task]
      exact hclaimed.listed
    · intro later hafter other again repeated written hrepeated
      obtain ⟨kept,hkept,_⟩ := keepsRuns_of_reach hafter runId row hclaimed.run
      rw [← hrepeated] at hkept ⊢
      exact Dispatcher.commitWithEnvelope_existing hkept

namespace Sample

def intentRequest : IntentRequest := ⟨"worker",[],"codex",none,none,none,false,false,"operator",none⟩

def approvalDocument : Json := .obj [("level",.str "operator"),("reviewer",.str "worker")]

def intentRunId := "BUR-RUN-20260101T000000Z-0123456789"

def intentCall : IntentCall where
  claim := ⟨files,observed,3,intentRunId,.null⟩
  runtimeBlocked := false
  approval := fun _ => .ok approvalDocument
  requiredKeys := fun _ => []
  workspace := fun _ => .ok .null

def snapshot : Dispatcher := specDispatcher env.sha files "repo.a" execution spec

def snapshotTask : Task := specTask env.sha "repo.a" execution spec

def stored : Db := step env contracts (Db.fresh env.sha) (.putTaskSpec 1 spec "put-1" none "operator")

def draftedContract : Json :=
  mutationContract env.sha (autoIdempotencyKey (intentRequest.sha256 env.sha) 0) (intentRequest.sha256 env.sha) (some 1)
    snapshotTask .ready 1

def draftedIntent : Json :=
  signIntent env.sha (unsignedIntent env.sha intentCall intentRequest snapshotTask
    ((Initiative.mk "active" "now" 2 none).planSha256 env.sha) approvalDocument .null)

def issuedDb : Db :=
  step env contracts stored (.issueClaimIntent draftedIntent "repository_mutation" (some draftedContract))

def commitCall : Dispatcher.CoordinatedCall :=
  ⟨⟨files,observed,4,"",.null⟩,false,.ok approvalDocument,.ok (),[],.ok .null,.ok .null⟩

theorem commit_shown : Dispatcher.init env.sha files stored = .ok snapshot ∧
    snapshot.claimIntent env intentCall intentRequest stored =
      .ok (.draft draftedIntent "repository_mutation" draftedContract) ∧
    (snapshot.commitClaimIntent env commitCall draftedIntent issuedDb).toOption.any
      (fun r => r.1 = .claimed intentRunId) = true ∧
    (snapshot.commitWithEnvelope env commitCall draftedIntent false issuedDb).1 =
      .error (.state "coordinated claim envelope materialization failed") ∧
    issuedDb.runs[intentRunId]? = none ∧
    ((snapshot.commitWithEnvelope env commitCall draftedIntent false issuedDb).2.runs[intentRunId]?).map (·.state) =
      some .failed := by
  decide +kernel

theorem drafted : Drafted env (· = spec) draftedIntent "repository_mutation" draftedContract := by
  obtain ⟨hd,hdraft,_⟩ := commit_shown
  refine ⟨files,stored,stored,snapshot,intentCall,intentRequest,files_loaded,hd,hdraft,?_⟩
  intro task htask
  have hmem := (Tables.get_ofList (by decide) _ task).mp htask
  simp only [List.mem_singleton,Prod.mk.injEq] at hmem
  rw [hmem.2]
  rfl

theorem issuedDb_allSpecs : issuedDb.AllSpecs env.sha (· = spec) := by
  have hfresh := Db.AllSpecs.fresh env.sha (· = spec)
  have hstored : stored.AllSpecs env.sha (· = spec) := by
    refine commit_preserves hfresh fun db' hput => ?_
    rw [Op.apply,map_snd_eq_ok] at hput
    obtain ⟨_,hput⟩ := hput
    exact hfresh.putValidatedMaterial (put_eq_ok hput) rfl
  exact commit_preserves hstored fun db' hissue => hstored.congr (apply_specs_eq hissue rfl)

end Sample

theorem coordinated_claim_protocol_committed : ∃ db' actionClass contract task row,
    Sample.snapshot.commitClaimIntent Sample.env Sample.commitCall Sample.draftedIntent Sample.issuedDb =
        .ok (.claimed Sample.intentRunId,db') ∧
      (some Sample.intentRunId,claimIssuance Sample.env.sha Sample.draftedIntent actionClass (some contract)) ∈
        Sample.issuedDb.issuances ∧
      Sample.snapshot.registry.tasks[row.taskId]? = some task ∧ db'.runs[Sample.intentRunId]? = some row ∧
      FulfilsContract Sample.env Sample.files Sample.files Sample.issuedDb task.initiative Sample.draftedIntent
        contract row := by
  have hreach : Reach (step Sample.env Sample.contracts) (fun _ op => IssuesDrafts Sample.env (· = Sample.spec) op)
      (Db.fresh Sample.env.sha) Sample.issuedDb := by
    refine .step (.step .init ?_) ?_
    · intro intent actionClass contract hop
      cases hop
    · intro intent actionClass contract hop
      cases hop
      exact ⟨_,rfl,Sample.drafted⟩
  obtain ⟨hd,_,hcommit,_⟩ := Sample.commit_shown
  have hlater : Reach (step Sample.env Sample.contracts) (fun _ _ => True) Sample.stored Sample.issuedDb :=
    .step .init trivial
  simp only [Option.any_eq_true,decide_eq_true_eq,toOption_eq_some] at hcommit
  obtain ⟨⟨_,db'⟩,hcommit,rfl⟩ := hcommit
  have hprotocol := coordinated_claim_protocol (fun a b ha hb _ => ha.trans hb.symm) hreach
  obtain ⟨actionClass,contract,task,row,hclaimed⟩ := (hprotocol.2.2.2 Sample.files Sample.stored Sample.snapshot
    Sample.commitCall Sample.draftedIntent Sample.intentRunId db' Sample.files_loaded hd hlater
    Sample.issuedDb_allSpecs hcommit).1
  exact ⟨db',actionClass,contract,task,row,hcommit,hclaimed⟩

/-- A commit fails because its envelope cannot be written, and its run stays in the store. -/
theorem failed_commit_leaves_run :
    (Sample.snapshot.commitWithEnvelope Sample.env Sample.commitCall Sample.draftedIntent false Sample.issuedDb).1 =
        .error (.state "coordinated claim envelope materialization failed") ∧
      Sample.issuedDb.runs[Sample.intentRunId]? = none ∧
      ((Sample.snapshot.commitWithEnvelope Sample.env Sample.commitCall Sample.draftedIntent false
        Sample.issuedDb).2.runs[Sample.intentRunId]?).map (·.state) = some .failed :=
  Sample.commit_shown.2.2.2

end Bureau
