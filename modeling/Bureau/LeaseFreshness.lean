import Bureau.Publication
import Bureau.SingleUseAuthority

/-!
The leases of `apply_runtime_refresh`. A call reads the clock once, validates the leases of its intent
against that time before and again after the live observation, and only then binds the authority and
runs the installer. Between the admission of an intent and the binding, and around the guard of a
consumption, each look at the world happens at its own moment.
-/

namespace Bureau

namespace LeaseFreshness

open Transactions Interleaving RuntimeRefresh

/-- `DEFAULT_MIN_LEASE_REMAINING_SECONDS`. -/
def minimumRemaining : ℤ := 600

def microseconds : ℕ := 1000000

inductive LiveStatus where
  | alreadyCurrent | candidate | alert | other
  deriving DecidableEq

/-- What `observe_runtime_refresh` answers. -/
structure Observation where
  mainCommit : String
  targetSha256 : String
  status : LiveStatus
  -- `_validate_candidate_source_precondition`, and the file of the observation it asks for
  sourcePrecondition : Outcome Unit
  -- scheduler readback and manifest digest of a deployment that is current already
  evidence : Bool

/-- What a step can see outside the store and the attempt files, at a time of the clock in
microseconds. -/
structure Moment where
  time : ℕ
  reading : Reading
  -- `runtime_prefix_execution_context_preflight`: the unit, given the one that is expected
  preflight : Option String → Outcome (Option String)
  launcherKeys : List String
  schedulerKeys : List String
  schedulerParentKeys : List String
  -- path, schema and lease contract of the resource database
  database : Outcome Unit
  leases : String → Option Publication.Lease
  live : Outcome Observation
  -- source commit and digest of the deployed manifest
  manifest : Outcome (String × String)

/-! `validate_live_lease_binding`. -/

/-- One required row: of this owner, with time left, and bound to this effect. -/
def validateLease (sha : Sha) (owner : String) (threshold : ℤ) (requiredMetadata : List (String × Json))
    (lease : Publication.Lease) : Outcome Unit := do
  require (lease.ownerId = owner)
    (.refused "lease-owner-mismatch" "a required Grabowski lease has another owner")
  require (lease.acquiredAt ≤ lease.updatedAt && lease.updatedAt < lease.expiresAt && threshold < lease.expiresAt)
    (.refused "lease-expired" "a required Grabowski lease is expired or too short for deployment")
  require (validDigest lease.metadataSha256)
    (.refused "lease-metadata-invalid" "a required Grabowski lease has invalid metadata evidence")
  require lease.metadata.isObj
    (.refused "lease-metadata-invalid" "a required Grabowski lease metadata value is not an object")
  require (sha256Json sha lease.metadata = lease.metadataSha256)
    (.refused "lease-metadata-digest-mismatch" "a required Grabowski lease metadata hash does not match its JSON")
  require (requiredMetadata.all fun field => lease.metadata.get? field.1 = some field.2)
    (.refused "lease-metadata-binding-mismatch" "a required Grabowski lease is not bound to the requested effect")

def readLease (table : String → Option Publication.Lease) (key : String) : Outcome Publication.Lease :=
  orRaise (table key) (.refused "lease-resources-missing" "required live Grabowski leases are missing")

/-- `validate_live_lease_binding` of the keys of an intent, at the time `now`. -/
def validateLiveLeaseBinding (sha : Sha) (keys : List String) (binding : Publication.LeaseBinding) (now : ℕ)
    (requiredMetadata : List (String × Json)) (m : Moment) : Outcome Unit := do
  require (!blank binding.ownerId) (.refused "lease-owner-missing" "Grabowski lease owner is required")
  require (!blank binding.taskId) (.refused "lease-task-missing" "Grabowski task id is required")
  require (!keys.isEmpty) (.refused "intent-lease-resources-invalid" "intent resource keys are invalid")
  require (decide (keys.Pairwise (· < ·)))
    (.refused "intent-lease-resources-invalid" "intent resource keys are not canonical")
  m.database
  let rows ← collect (readLease m.leases) keys
  -- `int(now.timestamp())`
  let threshold := ((now/microseconds : ℕ) : ℤ)+minimumRemaining
  let _ ← collect (validateLease sha (String.ofList (strip binding.ownerId)) threshold requiredMetadata) rows
  return

/-! The call. -/

/-- A lease validation that was passed: the time it compared with, the real time, and the rows. -/
structure Validation where
  now : ℕ
  time : ℕ
  leases : String → Option Publication.Lease

/-- The place of a call between the steps of `RuntimeRefresh`. -/
inductive Point where
  -- next: the step of the phase
  | running (guarded : Bool)
  -- next: the leases before the observation
  | leases
  -- next: the live observation
  | observing
  -- next: the deployed manifest
  | manifest
  -- next: the leases after the observation
  | lastLeases
  -- next: the preflight of the mutation roots
  | lastPreflight
  -- `guard_authority_consumption`: preflight, leases, preflight
  | guardPreflight
  | guardLeases
  | guardLastPreflight
  deriving DecidableEq

structure TimedCall where
  call : Call
  requiredResourceKeys : List String
  expectedDeployedSourceCommit : String
  expectedManifestSha256 : String
  leaseBinding : Publication.LeaseBinding
  -- the time the caller gives, if any, and the real time at which the call starts
  now : Option ℕ
  startedAt : ℕ
  expectedExecutorUnit : Option String
  point : Point
  validations : List Validation

/-- `current = now or utc_now()`. -/
def TimedCall.current (c : TimedCall) : ℕ := c.now.getD c.startedAt

def TimedCall.goTo (c : TimedCall) (point : Point) : TimedCall := { c with point := point }

def TimedCall.executionPreflight (c : TimedCall) (m : Moment) : Outcome TimedCall := do
  let observed ← m.preflight c.expectedExecutorUnit
  match c.expectedExecutorUnit with
  | some _ => return c
  | none => do
    let executor ← orRaise observed (.refused "runtime-executor-identity-unobserved"
      "runtime-refresh did not produce a concrete transient executor unit")
    return { c with expectedExecutorUnit := some executor }

/-- `validate_execution_bound_leases`: without a known executor, the preflight is a step of its own. -/
def TimedCall.validateExecutionBoundLeases (sha : Sha) (c : TimedCall) (m : Moment) (next : Point) :
    Outcome TimedCall :=
  match c.expectedExecutorUnit with
  | none => c.executionPreflight m
  | some executor => do
    validateLiveLeaseBinding sha c.requiredResourceKeys c.leaseBinding c.current [("executor_unit",.str executor)] m
    return { c with point := next, validations := c.validations ++ [⟨c.current,m.time,m.leases⟩] }

def TimedCall.checkResources (c : TimedCall) (m : Moment) : Outcome Unit := do
  require (m.launcherKeys.all c.requiredResourceKeys.contains) (.refused "launcher-drift-after-intent"
    "a launcher now requires mutation but is absent from the intent leases")
  require (m.schedulerKeys.all c.requiredResourceKeys.contains) (.refused "scheduler-resources-unleased"
    "scheduler convergence is absent from the exact runtime-refresh leases")
  require (m.schedulerParentKeys.all fun key => !c.requiredResourceKeys.contains key)
    (.refused "scheduler-resources-overbroad" "scheduler convergence intent contains broad directory leases")

def TimedCall.observed (c : TimedCall) (live : Observation) : Outcome Point := do
  require (live.mainCommit = c.call.intent.mainCommit)
    (.refused "main-drift" "GitHub main changed after intent creation")
  live.sourcePrecondition
  if live.status = .alreadyCurrent then
    require live.evidence (.refused "already-current-evidence-invalid"
      "already-current result lacks authoritative scheduler or manifest evidence")
    return .guardPreflight
  else
    require (live.targetSha256 = c.call.intent.targetSha256)
      (.refused "target-drift" "live deployment target differs from explicit intent")
    require (live.status = .candidate || live.status = .alert)
      (.refused "live-candidate-blocked" "live observation is not deployable")
    return .manifest

def TimedCall.checkManifest (c : TimedCall) (manifest : String × String) : Outcome Unit :=
  require (manifest.1 = c.expectedDeployedSourceCommit && manifest.2 = c.expectedManifestSha256)
    (.refused "deployed-boundary-drift" "deployed runtime changed after intent")

section Steps

variable (E : Env) (K : Contracts)

def TimedCall.proceed (id : ℕ) (s : Shared) (c : TimedCall) (i : Reading) : Outcome (Shared × Option TimedCall) := do
  let (s',next) ← applyStep E K id s c.call i
  return (s',next.map fun call => { c with call := call, point := .running false })

def timedStep (id : ℕ) (s : Shared) (c : TimedCall) (m : Moment) : Outcome (Shared × Option TimedCall) :=
  match c.point with
  | .running guarded =>
    match c.call.phase with
    | .admitted => do
      c.checkResources m
      return (s,some (c.goTo .leases))
    | .guarding _ => if guarded then c.proceed E K id s m.reading else return (s,some (c.goTo .guardPreflight))
    | _ => c.proceed E K id s m.reading
  | .leases => do return (s,some (← c.validateExecutionBoundLeases E.sha m .observing))
  | .observing => do
    let live ← m.live
    let next ← c.observed live
    return (s,some (c.goTo next))
  | .manifest => do
    let manifest ← m.manifest
    c.checkManifest manifest
    return (s,some (c.goTo .lastLeases))
  | .lastLeases => do return (s,some (← c.validateExecutionBoundLeases E.sha m .lastPreflight))
  | .lastPreflight => do
    let c ← c.executionPreflight m
    c.proceed E K id s { m.reading with live := .deployable }
  | .guardPreflight => do
    let c ← c.executionPreflight m
    return (s,some (c.goTo .guardLeases))
  | .guardLeases => do return (s,some (← c.validateExecutionBoundLeases E.sha m .guardLastPreflight))
  | .guardLastPreflight => do
    let c ← c.executionPreflight m
    match c.call.phase with
    | .guarding _ => return (s,some (c.goTo (.running true)))
    | _ => c.proceed E K id s { m.reading with live := .alreadyCurrent }

def timedAdvance (id : ℕ) (s : Shared) (c : TimedCall) (m : Moment) : Shared × Option TimedCall :=
  match timedStep E K id s c m with
  | .ok next => next
  | .error _ => (s,none)

end Steps

def Fresh (c : TimedCall) : Prop :=
  c.call.phase = .begun ∧ c.expectedExecutorUnit = none ∧ c.point = .running false ∧ c.validations = []

/-! What a validation that passed says. -/

variable {E : Env} {K : Contracts} {id : ℕ} {s s' : Shared} {c c' : TimedCall} {m : Moment}

/-- Every required row was there and lasted longer than the minimum from the compared time on. -/
def Validation.Passed (keys : List String) (v : Validation) : Prop :=
  ∀ key ∈ keys, ∃ lease, v.leases key = some lease ∧
    ((v.now/microseconds : ℕ) : ℤ)+minimumRemaining < lease.expiresAt

theorem validateLiveLeaseBinding_passed {sha : Sha} {keys : List String} {binding : Publication.LeaseBinding} {now : ℕ}
    {requiredMetadata : List (String × Json)}
    (h : validateLiveLeaseBinding sha keys binding now requiredMetadata m = .ok ()) :
    (⟨now,m.time,m.leases⟩ : Validation).Passed keys := by
  simp only [validateLiveLeaseBinding,steps_ok] at h
  obtain ⟨_,_,_,_,_,_,_,_,_,_,rows,hrows,_,hvalid,_⟩ := h
  intro key hkey
  obtain ⟨lease,hlease,hread⟩ := exists_of_collect hrows hkey
  obtain ⟨_,_,hchecks⟩ := exists_of_collect hvalid hlease
  simp only [validateLease,steps_ok,Bool.and_eq_true,decide_eq_true_eq] at hchecks
  obtain ⟨_,_,_,⟨_,hexpires⟩,_⟩ := hchecks
  exact ⟨lease,by simpa [readLease] using hread,hexpires⟩

def Deploying : Phase → Prop
  | .binding effect | .bindingChecked effect | .bindingRead effect _ | .bindingPut effect _ | .bound effect _ =>
    effect = true
  | .started _ | .prepared _ | .installing _ => True
  | _ => False

section Phases

variable {call call' : Call} {i : Reading} {phase : Phase}

theorem deploying_at (h : call.at phase = some call') : Deploying call'.phase ↔ Deploying phase := by
  cases h
  rfl

theorem admitted_of_lookupStep (h : lookupStep E K s call i phase = .ok (some call'))
    (hdeploying : Deploying call'.phase) : phase = .admitted ∧ i.live = .deployable := by
  cases phase with
  | begun =>
    simp only [lookupStep] at h
    split at h
    · exact ((deploying_at (pure_eq_ok.mp h)).mp hdeploying).elim
    · simp only [steps_ok] at h
      obtain ⟨_,_,_,_,hnext⟩ := h
      exact ((deploying_at hnext).mp hdeploying).elim
  | noEffectAbsent =>
    simp only [lookupStep] at h
    split at h
    · exact ((deploying_at (pure_eq_ok.mp h)).mp hdeploying).elim
    · simp only [bind_eq_ok,ite_eq_ok,pure_eq_ok,reduceCtorEq,and_false,exists_false,or_false] at h
      obtain ⟨_,_,_,_,_,hnext⟩ := h
      exact ((deploying_at hnext).mp hdeploying).elim
  | resultAbsent =>
    simp only [lookupStep] at h
    split at h
    · exact ((deploying_at (pure_eq_ok.mp h)).mp hdeploying).elim
    · simp only [steps_ok,reduceCtorEq,and_false,exists_false] at h
  | unattempted =>
    simp only [lookupStep,steps_ok] at h
    obtain ⟨_,_,hnext⟩ := h
    exact ((deploying_at hnext).mp hdeploying).elim
  | validated =>
    simp only [lookupStep,steps_ok] at h
    obtain ⟨_,_,_,_,_,_,_,_,hnext⟩ := h
    exact ((deploying_at hnext).mp hdeploying).elim
  | admitted =>
    exact ⟨rfl,of_decide_eq_true ((deploying_at (pure_eq_ok.mp h)).mp hdeploying)⟩
  | _ => cases pure_eq_ok.mp h

theorem not_deploying_of_consumeStep (h : consumeStep E K s call i phase = .ok (s',some call')) :
    ¬ Deploying call'.phase := by
  intro hdeploying
  cases phase with
  | consuming item guarded =>
    simp only [consumeStep,bind_eq_ok,ite_eq_ok,pure_eq_ok,Prod.mk.injEq,reduceCtorEq,and_false,false_or] at h
    obtain ⟨_,_,_,_,_,_,_,_,_,_,hnext⟩ := h
    have hphase := (deploying_at hnext).mp hdeploying
    cases guarded <;> exact hphase.elim
  | guarding item =>
    simp only [consumeStep,bind_eq_ok,ite_eq_ok,pure_eq_ok,Prod.mk.injEq,reduceCtorEq,and_false,false_or] at h
    obtain ⟨_,_,_,_,_,_,hnext⟩ := h
    exact ((deploying_at hnext).mp hdeploying).elim
  | consumeRead item current =>
    simp only [consumeStep,steps_ok,Prod.mk.injEq] at h
    obtain ⟨_,_,_,_,_,_,_,_,_,_,_,hnext⟩ := h
    exact ((deploying_at hnext).mp hdeploying).elim
  | consumeChecked item current =>
    simp only [consumeStep,steps_ok,Prod.mk.injEq,reduceCtorEq,and_false,exists_false] at h
  | _ => cases (Prod.mk.inj (pure_eq_ok.mp h)).2

theorem deploying_of_bindStep (h : bindStep E K s call i phase = .ok (s',some call'))
    (hdeploying : Deploying call'.phase) : Deploying phase := by
  cases phase with
  | binding effect =>
    simp only [bindStep,steps_ok,Prod.mk.injEq] at h
    obtain ⟨_,_,_,hnext⟩ := h
    exact (deploying_at hnext).mp hdeploying
  | bindingChecked effect =>
    simp only [bindStep,steps_ok,Prod.mk.injEq] at h
    obtain ⟨_,_,_,hnext⟩ := h
    exact (deploying_at hnext).mp hdeploying
  | bindingRead effect spec =>
    simp only [bindStep,steps_ok,Prod.mk.injEq] at h
    obtain ⟨_,_,_,_,_,hnext⟩ := h
    exact (deploying_at hnext).mp hdeploying
  | bindingPut effect changed =>
    simp only [bindStep,steps_ok,Prod.mk.injEq] at h
    obtain ⟨_,_,_,hnext⟩ := h
    exact (deploying_at hnext).mp hdeploying
  | _ => cases (Prod.mk.inj (pure_eq_ok.mp h)).2

theorem deploying_of_effectStep (h : effectStep id s call i phase = .ok (s',some call'))
    (hdeploying : Deploying call'.phase) : Deploying phase := by
  cases phase with
  | bound effect authority =>
    cases effect with
    | true => rfl
    | false =>
      simp only [effectStep,steps_ok,Prod.mk.injEq] at h
      obtain ⟨_,_,_,hnext⟩ := h
      exact ((deploying_at hnext).mp hdeploying).elim
  | started authority => trivial
  | prepared authority => trivial
  | installing authority => trivial
  | failing authority effectStarted =>
    simp only [effectStep,steps_ok,Prod.mk.injEq,reduceCtorEq,and_false,exists_false] at h
  | _ => cases (Prod.mk.inj (pure_eq_ok.mp h)).2

/-- A call deploys only after an admission that found the deployment deployable. -/
theorem deploying_of_applyStep (h : applyStep E K id s call i = .ok (s',some call'))
    (hdeploying : Deploying call'.phase) :
    Deploying call.phase ∨ (call.phase = .admitted ∧ i.live = .deployable) := by
  unfold applyStep at h
  split at h
  iterate 6
    · obtain ⟨next,hnext,hpair⟩ := map_eq_ok.mp h
      cases hpair
      exact Or.inr (admitted_of_lookupStep hnext hdeploying)
  iterate 4 exact Or.inl (deploying_of_bindStep h hdeploying)
  iterate 5 exact Or.inl (deploying_of_effectStep h hdeploying)
  iterate 4 exact (not_deploying_of_consumeStep h hdeploying).elim

end Phases

structure Checked (c : TimedCall) : Prop where
  passed : ∀ v ∈ c.validations, v.now = c.current ∧ v.Passed c.requiredResourceKeys
  validated : c.point = .lastPreflight ∨ Deploying c.call.phase → c.validations ≠ []

theorem Fresh.checked (h : Fresh c) : Checked c := by
  obtain ⟨hphase,_,hpoint,hvalidations⟩ := h
  refine ⟨fun v hv => ?_,fun hpast => ?_⟩
  · rw [hvalidations] at hv
    cases hv
  · rw [hphase,hpoint] at hpast
    obtain hlast | hdeploying := hpast
    · cases hlast
    · exact hdeploying.elim

theorem Checked.goTo (h : Checked c) {point : Point} (hpoint : point ≠ .lastPreflight) : Checked (c.goTo point) :=
  ⟨h.passed,fun hpast => h.validated (.inr (hpast.resolve_left hpoint))⟩

theorem executionPreflight_eq (h : c.executionPreflight m = .ok c') :
    c' = { c with expectedExecutorUnit := c'.expectedExecutorUnit } := by
  unfold TimedCall.executionPreflight at h
  cases hexecutor : c.expectedExecutorUnit with
  | some executor =>
    simp only [hexecutor,steps_ok] at h
    obtain ⟨_,_,rfl⟩ := h
    rfl
  | none =>
    simp only [hexecutor,steps_ok] at h
    obtain ⟨_,_,_,_,rfl⟩ := h
    rfl

theorem Checked.executionPreflight (h : Checked c) (hstep : c.executionPreflight m = .ok c') : Checked c' := by
  rw [executionPreflight_eq hstep]
  exact ⟨h.passed,h.validated⟩

theorem Checked.validateLeases (h : Checked c) {sha : Sha} {next : Point}
    (hstep : c.validateExecutionBoundLeases sha m next = .ok c') : Checked c' := by
  unfold TimedCall.validateExecutionBoundLeases at hstep
  split at hstep
  · exact h.executionPreflight hstep
  · simp only [steps_ok] at hstep
    obtain ⟨_,hvalid,rfl⟩ := hstep
    refine ⟨fun v hv => ?_,fun _ => by simp⟩
    obtain hold | hnew := List.mem_append.mp hv
    · exact h.passed v hold
    · rw [List.mem_singleton.mp hnew]
      exact ⟨rfl,validateLiveLeaseBinding_passed hvalid⟩

/-- A step of the phase keeps the validations; it may only enter a deployment after one. -/
theorem Checked.proceed (h : Checked c) {i : Reading}
    (hadmitted : c.call.phase = .admitted → i.live = .deployable → c.validations ≠ [])
    (hstep : c.proceed E K id s i = .ok (s',some c')) : Checked c' := by
  simp only [TimedCall.proceed,steps_ok,Prod.mk.injEq] at hstep
  obtain ⟨⟨_,next⟩,happly,rfl,hnext⟩ := hstep
  obtain ⟨call,rfl,rfl⟩ := Option.map_eq_some_iff.mp hnext
  refine ⟨h.passed,fun hpast => ?_⟩
  have hdeploying : Deploying call.phase := hpast.resolve_left (by simp)
  obtain hbefore | ⟨hphase,hlive⟩ := deploying_of_applyStep happly hdeploying
  · exact h.validated (.inr hbefore)
  · exact hadmitted hphase hlive

theorem observed_ne_lastPreflight {live : Observation} {point : Point} (h : c.observed live = .ok point) :
    point ≠ .lastPreflight := by
  simp only [TimedCall.observed,bind_eq_ok,ite_eq_ok,pure_eq_ok] at h
  obtain ⟨_,_,_,_,⟨_,_,_,rfl⟩ | ⟨_,_,_,_,_,rfl⟩⟩ := h <;> simp

theorem Checked.step (h : Checked c) (hstep : timedStep E K id s c m = .ok (s',some c')) : Checked c' := by
  unfold timedStep at hstep
  split at hstep
  · split at hstep
    · simp only [steps_ok,Prod.mk.injEq,Option.some.injEq] at hstep
      obtain ⟨_,_,_,rfl⟩ := hstep
      exact h.goTo (by simp)
    · rename_i hphase
      simp only [ite_eq_ok,pure_eq_ok,Prod.mk.injEq,Option.some.injEq] at hstep
      obtain ⟨_,hproceed⟩ | ⟨_,_,rfl⟩ := hstep
      · exact h.proceed (fun hadmitted => by simp [hphase] at hadmitted) hproceed
      · exact h.goTo (by simp)
    · rename_i hadmitted _
      exact h.proceed (fun hphase => (hadmitted hphase).elim) hstep
  · simp only [steps_ok,Prod.mk.injEq,Option.some.injEq] at hstep
    obtain ⟨_,hleases,_,rfl⟩ := hstep
    exact h.validateLeases hleases
  · simp only [steps_ok,Prod.mk.injEq,Option.some.injEq] at hstep
    obtain ⟨_,_,_,hobserved,_,rfl⟩ := hstep
    exact h.goTo (observed_ne_lastPreflight hobserved)
  · simp only [steps_ok,Prod.mk.injEq,Option.some.injEq] at hstep
    obtain ⟨_,_,_,_,_,rfl⟩ := hstep
    exact h.goTo (by simp)
  · simp only [steps_ok,Prod.mk.injEq,Option.some.injEq] at hstep
    obtain ⟨_,hleases,_,rfl⟩ := hstep
    exact h.validateLeases hleases
  · rename_i hpoint
    simp only [bind_eq_ok] at hstep
    obtain ⟨checked,hpreflight,hproceed⟩ := hstep
    have hchecked := h.executionPreflight hpreflight
    have hsame : checked.point = .lastPreflight := by rw [executionPreflight_eq hpreflight,hpoint]
    exact hchecked.proceed (fun _ _ => hchecked.validated (.inl hsame)) hproceed
  · simp only [steps_ok,Prod.mk.injEq,Option.some.injEq] at hstep
    obtain ⟨checked,hpreflight,_,rfl⟩ := hstep
    exact (h.executionPreflight hpreflight).goTo (by simp)
  · simp only [steps_ok,Prod.mk.injEq,Option.some.injEq] at hstep
    obtain ⟨_,hleases,_,rfl⟩ := hstep
    exact h.validateLeases hleases
  · simp only [bind_eq_ok] at hstep
    obtain ⟨checked,hpreflight,hrest⟩ := hstep
    have hchecked := h.executionPreflight hpreflight
    split at hrest
    · simp only [pure_eq_ok,Prod.mk.injEq,Option.some.injEq] at hrest
      obtain ⟨_,rfl⟩ := hrest
      exact hchecked.goTo (by simp)
    · exact hchecked.proceed (fun _ hlive => by cases hlive) hrest

theorem outline (E : Env) (K : Contracts) :
    Outline (timedAdvance E K) Fresh (fun _ => True) (fun _ _ c => Checked c) where
  begun _ _ _ _ hfresh := hfresh.checked
  kept _ _ _ _ _ _ := trivial
  next id s c m c' _ hchecked hnext := by
    unfold timedAdvance at hnext
    split at hnext
    · rename_i next hstep
      exact hchecked.step (hstep.trans (congrArg Except.ok (Prod.ext rfl hnext)))
    · cases hnext
  others _ _ _ _ _ _ _ _ _ hother := hother

end LeaseFreshness

open LeaseFreshness

/-- At the last validation before the installer, the required leases last longer than the minimum from
the real time on exactly if none of them runs out of it between the start of the call and that time. -/
theorem leases_fresh_at_install_iff {E : Env} {K : Contracts} {s : RuntimeRefresh.Shared}
    {w : Interleaving.World RuntimeRefresh.Shared TimedCall}
    (hreach : Transactions.Reach (Interleaving.World.step (timedAdvance E K)) (Interleaving.admits Fresh)
      (Interleaving.World.idle s) w) {id : ℕ} {c : TimedCall} {authority : RuntimeRefresh.BoundAuthority}
    (hcall : w.calls id = some c) (hinstaller : c.call.phase = .installing authority) (hnow : c.now = none) :
    ∃ v, c.validations.getLast? = some v ∧
      ((∀ key ∈ c.requiredResourceKeys, ∃ lease, v.leases key = some lease ∧
          v.time+minimumRemaining*microseconds < lease.expiresAt*microseconds) ↔
        ∀ key ∈ c.requiredResourceKeys, ∀ lease, v.leases key = some lease →
          ¬ ((c.startedAt/microseconds : ℕ)+minimumRemaining < lease.expiresAt ∧
            lease.expiresAt*microseconds ≤ v.time+minimumRemaining*microseconds)) := by
  have hchecked := ((outline E K).reach (Interleaving.World.sound_idle trivial) hreach).2 id c hcall
  have hvalidated := hchecked.validated (.inr (by rw [hinstaller]; trivial))
  obtain ⟨v,hv⟩ : ∃ v, c.validations.getLast? = some v := ⟨_,List.getLast?_eq_some_getLast hvalidated⟩
  refine ⟨v,hv,?_⟩
  obtain ⟨htime,hpassed⟩ := hchecked.passed v (List.mem_of_getLast? hv)
  have hstart : v.now = c.startedAt := by rw [htime,TimedCall.current,hnow,Option.getD_none]
  constructor
  · intro hfresh key hkey lease hlease hwindow
    obtain ⟨lease',hlease',hlasts⟩ := hfresh key hkey
    rw [hlease,Option.some.injEq] at hlease'
    subst hlease'
    omega
  · intro hnone key hkey
    obtain ⟨lease,hlease,hlasts⟩ := hpassed key hkey
    refine ⟨lease,hlease,?_⟩
    rw [hstart] at hlasts
    have hwindow := hnone key hkey lease hlease
    omega

namespace Sample

open Interleaving RuntimeRefresh

def executorMetadata : Json := .obj [("executor_unit",.str "unit")]

def runtimeLease (expiresAt : ℤ) : Publication.Lease :=
  ⟨"owner",0,0,expiresAt,sha256Json refreshEnv.sha executorMetadata,executorMetadata⟩

def refreshMoment (seconds : ℕ) : Moment where
  time := seconds*microseconds
  reading := refreshReading
  preflight _ := .ok (some "unit")
  launcherKeys := ["path:bin"]
  schedulerKeys := []
  schedulerParentKeys := []
  database := .ok ()
  leases key := if key = "path:bin" then some (runtimeLease 700) else none
  live := .ok ⟨"main",refreshDigest,.candidate,.ok (),true⟩
  manifest := .ok ("deployed",refreshDigest)

def timedCall : TimedCall where
  call := ⟨refreshIntent,"1970-01-01",.begun⟩
  requiredResourceKeys := ["path:bin"]
  expectedDeployedSourceCommit := "deployed"
  expectedManifestSha256 := refreshDigest
  leaseBinding := ⟨"owner","T-1"⟩
  now := none
  startedAt := 0
  expectedExecutorUnit := none
  point := .running false
  validations := []

/-- The nineteen steps up to the installer; the live observation answers at the given second. -/
def stepTimes (answered : ℕ) : List ℕ := List.replicate 8 0 ++ List.replicate 11 answered

def installWith (answered : ℕ) : Interleaving.World Shared TimedCall :=
  Transactions.run (Interleaving.World.step (timedAdvance refreshEnv contracts)) (Interleaving.World.idle authorized)
    (.begin 0 timedCall :: (stepTimes answered).map fun seconds => .advance 0 (refreshMoment seconds))

theorem installWith_reach (answered : ℕ) :
    Transactions.Reach (Interleaving.World.step (timedAdvance refreshEnv contracts)) (admits Fresh)
      (Interleaving.World.idle authorized) (installWith answered) := by
  refine Transactions.Reach.run fun event hevent _ => ?_
  obtain rfl | hadvance := List.mem_cons.mp hevent
  · exact ⟨rfl,rfl,rfl,rfl⟩
  · obtain ⟨_,_,rfl⟩ := List.mem_map.mp hadvance
    trivial

def installer? : Phase → Option BoundAuthority
  | .installing authority => some authority
  | _ => none

theorem phase_of_installer? {phase : Phase} {authority : BoundAuthority} (h : installer? phase = some authority) :
    phase = .installing authority := by
  cases phase <;> simp_all [installer?]

/-- The call reaches the installer, and its last validation is the one after the observation. -/
theorem installWith_last {answered : ℕ} (h : answered ∈ [0,3600]) : ∃ c authority v lease,
    (installWith answered).calls 0 = some c ∧ c.call.phase = .installing authority ∧ c.now = none ∧
      c.requiredResourceKeys = ["path:bin"] ∧ c.startedAt = 0 ∧ c.validations.getLast? = some v ∧
      v.time = answered*microseconds ∧ v.leases "path:bin" = some lease ∧ lease.expiresAt = 700 := by
  have hvalues : ∀ seconds ∈ [0,3600], ((installWith seconds).calls 0).any (fun c =>
      (installer? c.call.phase).isSome && c.now.isNone && c.requiredResourceKeys = ["path:bin"] && c.startedAt = 0 &&
        c.validations.getLast?.any fun v => v.time = seconds*microseconds && (v.leases "path:bin").any fun lease =>
          lease.expiresAt = 700) = true := by
    decide +kernel
  have hlast := hvalues answered h
  simp only [Option.any_eq_true,Bool.and_eq_true,decide_eq_true_eq,Option.isNone_iff_eq_none,
    Option.isSome_iff_exists] at hlast
  obtain ⟨c,hc,⟨⟨⟨⟨authority,hauthority⟩,hnow⟩,hkeys⟩,hstarted⟩,v,hv,htime,lease,hlease,hexpires⟩ := hlast
  exact ⟨c,authority,v,lease,hc,phase_of_installer? hauthority,hnow,hkeys,hstarted,hv,htime,hlease,hexpires⟩

end Sample

theorem leases_fresh_at_install_prompt : ∃ c v lease, (Sample.installWith 0).calls 0 = some c ∧
    c.validations.getLast? = some v ∧ v.leases "path:bin" = some lease ∧
    v.time+minimumRemaining*microseconds < lease.expiresAt*microseconds := by
  obtain ⟨c,authority,v,lease,hcall,hinstaller,hnow,hkeys,hstarted,hv,htime,hlease,hexpires⟩ :=
    Sample.installWith_last (by simp : 0 ∈ [0,3600])
  obtain ⟨v',hv',hiff⟩ := leases_fresh_at_install_iff (Sample.installWith_reach 0) hcall hinstaller hnow
  obtain rfl := Option.some.inj (hv.symm.trans hv')
  have hkept : ∀ key ∈ c.requiredResourceKeys, ∀ found, v.leases key = some found →
      ¬ ((c.startedAt/microseconds : ℕ)+minimumRemaining < found.expiresAt ∧
        found.expiresAt*microseconds ≤ v.time+minimumRemaining*microseconds) := by
    intro key hkey found hfound
    rw [hkeys,List.mem_singleton] at hkey
    rw [hkey,hlease,Option.some.injEq] at hfound
    rw [← hfound,hexpires,htime]
    simp [minimumRemaining,microseconds]
  obtain ⟨found,hfound,hfresh⟩ := hiff.mpr hkept "path:bin" (by simp [hkeys])
  exact ⟨c,v,found,hcall,hv,hfound,hfresh⟩

/-- The observation takes an hour; the leases are then compared with the start of the call, and the
installer runs after the lease has expired. -/
theorem installed_with_expired_lease : (Sample.stepTimes 3600).Pairwise (· ≤ ·) ∧
    ∃ c authority v lease, (Sample.installWith 3600).calls 0 = some c ∧ c.call.phase = .installing authority ∧
      c.now = none ∧ c.validations.getLast? = some v ∧ "path:bin" ∈ c.requiredResourceKeys ∧
      v.leases "path:bin" = some lease ∧ lease.expiresAt*microseconds < v.time := by
  obtain ⟨c,authority,v,lease,hcall,hinstaller,hnow,hkeys,_,hv,htime,hlease,hexpires⟩ :=
    Sample.installWith_last (by simp : 3600 ∈ [0,3600])
  refine ⟨by decide,c,authority,v,lease,hcall,hinstaller,hnow,hv,by simp [hkeys],hlease,?_⟩
  rw [hexpires,htime]
  simp [microseconds]

end Bureau
