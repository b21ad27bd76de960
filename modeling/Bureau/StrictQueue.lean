import Bureau.Parallelism
import Bureau.ReplaySoundness

/-!
The strict queue. A claim reconciles the active runs, registers its worker and then walks the tasks in
order; in strict order the loop ends at a task that is declared ready and has a reason against it. The
declared state does not change when the task is closed, so a closed task ends the loop as well.
-/

namespace Bureau

open Transactions

namespace Dispatcher

def claimEnvelope (E : Env) (call : ClaimCall) (workerId : String) (task : Task) (initiative : Initiative) : Json :=
  executionEnvelope E call.now call.runId workerId task (initiative.planSha256 E.sha) initiative
    (workspaceBaselineForTask task initiative) call.runtimeTruth

/-- What `claim_next` does with the task it selected. -/
def claimTask (E : Env) (call : ClaimCall) (workerId : String) (ctx : ClaimContext) (task : Task) (db : Db) :
    Result (ClaimOutcome × Db) := do
  let initiative ← orRaise ctx.initiatives[task.initiative]? (.state ("KeyError: " ++ task.initiative))
  let row := assignedRun E.sha call.now call.runId workerId task (initiative.planSha256 E.sha)
    (db.nextAttempt task.id) (claimEnvelope E call workerId task initiative)
  let db ← writeClaim E db call.now call.runId task row .runClaimed (.obj [("task_id",.str task.id)])
  return (.claimed call.runId,db)

section Queue

variable {E : Env} {d : Dispatcher} {db db' : Db} {observed : Observed} {ctx : ClaimContext} {call : ClaimCall}
  {workerId : String} {resource : Option String}

theorem claimNext_of_idle {worker : Worker} (hfilter : resource.all (fun r => d.registry.resources.contains r) = true)
    (hidle : ∀ item ∈ db.activeRuns, item.2.workerId ≠ workerId) (hworker : db.workers[workerId]? = some worker) :
    d.claimNext E call workerId resource db =
      d.claimContext E call db worker.capabilities >>= fun ctx =>
        d.selectTask E db call.observed ctx resource d.orderedTasks [] >>= fun task =>
          claimTask E call workerId ctx task db := by
  have hnone : (db.activeRuns.filter fun item => item.2.workerId = workerId) = [] := by
    simpa [List.filter_eq_nil_iff] using hidle
  rw [claimNext,hfilter,hnone]
  simp only [hworker,orRaise,List.find?_nil]
  rfl

def Blocked (E : Env) (d : Dispatcher) (db : Db) (observed : Observed) (ctx : ClaimContext) (task : Task) : Prop :=
  ∃ reasons, d.reasons E db observed ctx task = .ok reasons ∧ reasons ≠ []

structure FirstEligible (E : Env) (d : Dispatcher) (db : Db) (observed : Observed) (ctx : ClaimContext)
    (resource : Option String) (before : List Task) (task : Task) (after : List Task) : Prop where
  order : d.orderedTasks = before ++ task :: after
  candidate : d.taskMatchesResource task resource = true
  free : d.reasons E db observed ctx task = .ok []
  blocked : ∀ other ∈ before, d.taskMatchesResource other resource = true → Blocked E d db observed ctx other

/-- The stop rule of the strict order lets the loop go past these tasks. -/
def Unstopped (d : Dispatcher) (resource : Option String) (before : List Task) : Prop :=
  d.registry.queuePolicy = "strict" →
    ∀ other ∈ before, d.taskMatchesResource other resource = true → other.state ≠ .ready

def Passed (E : Env) (d : Dispatcher) (db : Db) (observed : Observed) (ctx : ClaimContext) (task : Task) : Prop :=
  Blocked E d db observed ctx task ∧ ¬ (d.registry.queuePolicy = "strict" ∧ task.state = .ready)

theorem selectTask_eq_ok {tasks : List Task} {rejected : List (String × List String)} {task : Task} :
    d.selectTask E db observed ctx resource tasks rejected = .ok task ↔
      ∃ before after, tasks = before ++ task :: after ∧ d.taskMatchesResource task resource = true ∧
        d.reasons E db observed ctx task = .ok [] ∧
        ∀ other ∈ before, d.taskMatchesResource other resource = true → Passed E d db observed ctx other := by
  induction tasks generalizing rejected with
  | nil => simp [selectTask]
  | cons first rest ih =>
    rw [selectTask]
    by_cases hmatch : d.taskMatchesResource first resource = true
    · rw [if_pos hmatch]
      simp only [bind_eq_ok]
      constructor
      · rintro ⟨reasons,hreasons,h⟩
        split at h
        · rename_i hempty
          simp only [pure_eq_ok] at h
          subst h
          exact ⟨[],rest,rfl,hmatch,by rw [hreasons,List.isEmpty_iff.mp hempty],by simp⟩
        · rename_i hblocked
          split at h
          · simp at h
          · rename_i hopen
            obtain ⟨before,after,rfl,hselected,hnone,hpassed⟩ := ih.mp h
            refine ⟨first :: before,after,rfl,hselected,hnone,?_⟩
            intro other hother hmatches
            rcases List.mem_cons.mp hother with rfl | hother
            · exact ⟨⟨reasons,hreasons,by simpa [List.isEmpty_iff] using hblocked⟩,hopen⟩
            · exact hpassed other hother hmatches
      · rintro ⟨before,after,hsplit,hselected,hnone,hpassed⟩
        rcases before with _ | ⟨other,before⟩
        · obtain ⟨rfl,rfl⟩ := List.cons.inj hsplit
          exact ⟨[],hnone,rfl⟩
        · obtain ⟨rfl,rfl⟩ := List.cons.inj hsplit
          obtain ⟨⟨reasons,hreasons,hblocked⟩,hopen⟩ := hpassed first List.mem_cons_self hmatch
          refine ⟨reasons,hreasons,?_⟩
          rw [if_neg (by simpa [List.isEmpty_iff] using hblocked)]
          simp only [if_neg hopen]
          exact ih.mpr ⟨before,after,rfl,hselected,hnone,
            fun other hother => hpassed other (List.mem_cons_of_mem _ hother)⟩
    · rw [if_neg hmatch,ih]
      constructor
      · rintro ⟨before,after,rfl,hselected,hnone,hpassed⟩
        refine ⟨first :: before,after,rfl,hselected,hnone,?_⟩
        intro other hother hmatches
        rcases List.mem_cons.mp hother with rfl | hother
        · exact absurd hmatches hmatch
        · exact hpassed other hother hmatches
      · rintro ⟨before,after,hsplit,hselected,hnone,hpassed⟩
        rcases before with _ | ⟨other,before⟩
        · obtain ⟨rfl,rfl⟩ := List.cons.inj hsplit
          exact absurd hselected hmatch
        · obtain ⟨rfl,rfl⟩ := List.cons.inj hsplit
          exact ⟨before,after,rfl,hselected,hnone,fun other hother => hpassed other (List.mem_cons_of_mem _ hother)⟩

theorem selectTask_orderedTasks {task : Task} :
    d.selectTask E db observed ctx resource d.orderedTasks [] = .ok task ↔
      ∃ before after, FirstEligible E d db observed ctx resource before task after ∧ d.Unstopped resource before := by
  rw [selectTask_eq_ok]
  constructor
  · rintro ⟨before,after,horder,hmatch,hfree,hpassed⟩
    refine ⟨before,after,⟨horder,hmatch,hfree,fun other hother h => (hpassed other hother h).1⟩,?_⟩
    exact fun hstrict other hother h hready => (hpassed other hother h).2 ⟨hstrict,hready⟩
  · rintro ⟨before,after,hfirst,hopen⟩
    refine ⟨before,after,hfirst.order,hfirst.candidate,hfirst.free,fun other hother h => ?_⟩
    exact ⟨hfirst.blocked other hother h,fun hstop => hopen hstop.1 other hother h hstop.2⟩

theorem claimTask_taskId {task : Task} {outcome : ClaimOutcome}
    (h : claimTask E call workerId ctx task db = .ok (outcome,db')) :
    (db'.runs[call.runId]?).map (·.taskId) = some task.id := by
  simp only [claimTask,steps_ok,Prod.mk.injEq] at h
  obtain ⟨initiative,_,written,hwrite,_,rfl⟩ := h
  rw [(writeClaim_runs db.workers hwrite).1,Tables.get_insert_self]
  rfl

theorem nodup_orderedTasks (hkeyed : d.registry.Keyed) : (d.orderedTasks.map (·.id)).Nodup := by
  have hperm : (d.orderedTasks.map (·.id)).Perm ((d.registry.tasks.toList.map Prod.snd).map (·.id)) :=
    (List.perm_insertionSort _ _).map _
  have hids : (d.registry.tasks.toList.map Prod.snd).map (·.id) = d.registry.tasks.toList.map Prod.fst := by
    rw [List.map_map]
    refine List.map_congr_left fun row hrow => ?_
    exact hkeyed row.1 row.2 (Std.ExtTreeMap.mem_toList_iff_getElem?_eq_some.mp hrow)
  rw [hperm.nodup_iff,hids]
  exact Tables.keys_nodup _

theorem orderedTasks_split {before before' after after' : List Task} {task other : Task} (hkeyed : d.registry.Keyed)
    (h : d.orderedTasks = before ++ task :: after) (h' : d.orderedTasks = before' ++ other :: after')
    (hid : other.id = task.id) : before' = before ∧ other = task ∧ after' = after := by
  have hids := nodup_orderedTasks hkeyed
  have htask : task ∈ d.orderedTasks := by simp [h]
  have hother : other ∈ d.orderedTasks := by simp [h']
  obtain rfl : other = task := List.inj_on_of_nodup_map hids hother htask hid
  have hnodup : (before ++ other :: after).Nodup := h ▸ hids.of_map
  have hbefore : other ∉ before := fun hmem => (List.nodup_append.mp hnodup).2.2 _ hmem _ List.mem_cons_self rfl
  have hafter : other ∉ after := (List.nodup_cons.mp (List.nodup_append.mp hnodup).2.1).1
  obtain ⟨rfl,_,rfl⟩ := (List.append_cons_inj_of_notMem hbefore hafter).mp (h.symm.trans h')
  exact ⟨rfl,rfl,rfl⟩

theorem reasons_of_terminal {task : Task} (h : (effectiveState ctx.overlay task.id task).terminal = true) :
    d.reasons E db observed ctx task ≠ .ok [] := by
  intro hnone
  rcases claimable_state hnone with hready | ⟨initiative,hbridge⟩ | ⟨hstale,_⟩
  · simp [hready,TaskState.terminal] at h
  · simp only [closureBridgeApplies,Bool.and_eq_true,decide_eq_true_eq] at hbridge
    simp [hbridge.1.1.1.1.2,TaskState.terminal] at h
  · simp [hstale,TaskState.terminal] at h

end Queue

section Write

variable {E : Env} {d : Dispatcher} {db : Db} {ctx : ClaimContext} {call : ClaimCall} {workerId : String} {task : Task}

structure FreshRun (db : Db) (runId : String) : Prop where
  named : runId ≠ ""
  row : db.runs[runId]? = none
  held : db.heldBy runId = ∅
  dispatch : ∀ (other : String) (row : RunRow), db.runs[other]? = some row →
    row.dispatchRequestId ≠ some (runId ++ ":dispatch-1")

/-- What the write of a claim needs: the envelope passes its schema, and the claims are for different
resources. -/
structure Writable (E : Env) (call : ClaimCall) (workerId : String) (ctx : ClaimContext) (task : Task) : Prop where
  envelope : ∀ initiative, ctx.initiatives[task.initiative]? = some initiative →
    E.schemaError "execution-envelope" (claimEnvelope E call workerId task initiative) = none
  resources : (task.claims.map (·.resource)).Nodup

theorem insertReservation_ok_iff {runId : String} {now : Time} {claim : Claim} {db' : Db} :
    db.insertReservation runId now claim = .ok db' ↔ (db.heldBy runId)[claim.resource]? = none ∧ { db with
      reservations := db.reservations.insert runId
        ((db.heldBy runId).insert claim.resource ⟨claim.mode,claim.amount,now,claim.claimable⟩) } = db' := by
  have hfree : (!(db.heldBy runId).contains claim.resource) = true ↔ (db.heldBy runId)[claim.resource]? = none := by
    rw [Std.ExtTreeMap.contains_eq_isSome_getElem?,Bool.not_eq_true',Option.isSome_eq_false_iff,
      Option.isNone_iff_eq_none]
  simp only [Db.insertReservation,steps_ok,hfree]
  simp

/-- Reservations are written exactly if they are for different resources that the run does not hold. -/
theorem insertReservations_ok_iff {runId : String} {now : Time} {claims : List Claim} :
    (∃ db', Db.insertReservations runId now claims db = .ok db') ↔
      (claims.map (·.resource)).Nodup ∧ ∀ claim ∈ claims, (db.heldBy runId)[claim.resource]? = none := by
  induction claims generalizing db with
  | nil => simp [Db.insertReservations]
  | cons claim rest ih =>
    have hheld (hold : Hold) : Db.heldBy { db with
        reservations := db.reservations.insert runId ((db.heldBy runId).insert claim.resource hold) } runId =
          (db.heldBy runId).insert claim.resource hold := by
      simp [Db.heldBy]
    have hstep : (∃ db', Db.insertReservations runId now (claim :: rest) db = .ok db') ↔
        (db.heldBy runId)[claim.resource]? = none ∧ (rest.map (·.resource)).Nodup ∧ ∀ other ∈ rest,
          ((db.heldBy runId).insert claim.resource ⟨claim.mode,claim.amount,now,claim.claimable⟩)[other.resource]? =
            none := by
      simp only [Db.insertReservations,bind_eq_ok,insertReservation_ok_iff]
      constructor
      · rintro ⟨db',mid,⟨hnew,rfl⟩,hrest⟩
        obtain ⟨hnodup,hfree⟩ := ih.mp ⟨db',hrest⟩
        exact ⟨hnew,hnodup,fun other hother => by rw [← hheld]; exact hfree other hother⟩
      · rintro ⟨hnew,hnodup,hfree⟩
        obtain ⟨db',hrest⟩ := ih.mpr ⟨hnodup,fun other hother => by rw [hheld]; exact hfree other hother⟩
        exact ⟨db',_,⟨hnew,rfl⟩,hrest⟩
    rw [hstep]
    simp only [Tables.get_insert,List.map_cons,List.nodup_cons,List.mem_map,List.forall_mem_cons]
    constructor
    · rintro ⟨hnew,hnodup,hfree⟩
      refine ⟨⟨?_,hnodup⟩,hnew,fun other hother => ?_⟩
      · rintro ⟨other,hother,hsame⟩
        have := hfree other hother
        simp [hsame] at this
      · have := hfree other hother
        split at this
        · simp at this
        · exact this
    · rintro ⟨⟨hfirst,hnodup⟩,hnew,hfree⟩
      refine ⟨hnew,hnodup,fun other hother => ?_⟩
      rw [if_neg fun hsame => hfirst ⟨other,hother,hsame⟩]
      exact hfree other hother

theorem insertEvent_of_valid {sha : Sha} {eventType : EventType} {payload : Payload} {runId : Option String}
    (h : validateEvent sha eventType payload runId = .ok ()) :
    db.insertEvent sha eventType payload runId none = .ok (db.extend [db.nextRow eventType payload runId none]) := by
  simp only [Db.insertEvent,steps_ok]
  exact ⟨(),h,(),rfl,rfl⟩

theorem runEvent_total {sha : Sha} (hsha : ∀ s, validDigest (sha s) = true) {runId : String} {row : RunRow}
    (hrow : db.runs[runId]? = some row) (hid : runId ≠ "") (fields : List (String × Json)) :
    ∃ db', db.runEvent sha .runClaimed (.obj fields) runId = .ok db' := by
  have hevent : validateEvent sha .runClaimed (.plain (.obj fields)) (some runId) = .ok () := by
    simp only [validateEvent,steps_ok]
    exact ⟨(),rfl,(),rfl,(),by simp [hid],trivial⟩
  have hdelta (changes : Changes) (root : String) (hroot : validDigest root = true) :
      validateEvent sha .projection (.delta EventType.runClaimed.text changes root) (some runId) = .ok () := by
    simp only [validateEvent,steps_ok,validateProjectionEventPayload]
    exact ⟨(),rfl,(),rfl,(),by simp [hid],(),by decide,hroot⟩
  let next := db.extend [db.nextRow .runClaimed (.plain (.obj fields)) (some runId) none]
  have hnext : next.runs[runId]? = some row := hrow
  obtain ⟨db',hsnapshot⟩ :
      ∃ db', next.appendProjectionSnapshot sha EventType.runClaimed.text (some runId) none none = .ok db' := by
    rw [Db.appendProjectionSnapshot,Db.deltaPayload_of_row _ hnext]
    exact ⟨_,insertEvent_of_valid (hdelta _ _ (hsha _))⟩
  have hbound : EventType.runClaimed ≠ .projection ∧
    ((some runId).isSome = true ∨ (none : Option String).isSome = true) :=
    ⟨by decide,.inl rfl⟩
  refine ⟨db',?_⟩
  rw [Db.runEvent,Db.event,insertEvent_of_valid hevent]
  simp only [bind,Except.bind,if_pos hbound]
  exact hsnapshot

theorem insertRun_assigned {worker : Worker} {plan : String} {attempt : ℕ} {envelope : Json}
    (hfresh : FreshRun db call.runId) (hidle : ∀ item ∈ db.activeRuns, item.2.workerId ≠ workerId)
    (hworker : db.workers[workerId]? = some worker) (hactive : ∀ item ∈ db.activeRuns, item.2.taskId ≠ task.id) :
    let row := assignedRun E.sha call.now call.runId workerId task plan attempt envelope
    db.insertRun call.runId row = .ok (db.setRun call.runId row) := by
  simp only [Db.insertRun,Db.activeUnique,steps_ok]
  have hrow : db.runs.contains call.runId = false := by
    rw [Std.ExtTreeMap.contains_eq_isSome_getElem?,hfresh.row]
    rfl
  have hregistered : db.workers.contains workerId = true := by
    rw [Std.ExtTreeMap.contains_eq_isSome_getElem?,hworker]
    rfl
  refine ⟨(),by rw [hrow]; rfl,(),?_,(),⟨(),?_,?_⟩,(),hregistered,trivial⟩
  · simp only [assignedRun,Option.isNone_some,Bool.false_or,List.all_eq_true]
    intro item hitem
    exact decide_eq_true (hfresh.dispatch _ _ (Std.ExtTreeMap.mem_toList_iff_getElem?_eq_some.mp hitem))
  · simp only [List.all_eq_true,Bool.or_eq_true,decide_eq_true_eq]
    exact fun item hitem => .inr (hactive item hitem)
  · simp only [List.all_eq_true,Bool.or_eq_true,decide_eq_true_eq]
    exact fun item hitem => .inr (hidle item hitem)

theorem claimTask_ok_iff {worker : Worker} {initiative : Initiative} (hsha : ∀ s, validDigest (E.sha s) = true)
    (hfresh : FreshRun db call.runId) (hidle : ∀ item ∈ db.activeRuns, item.2.workerId ≠ workerId)
    (hworker : db.workers[workerId]? = some worker) (hactive : ∀ item ∈ db.activeRuns, item.2.taskId ≠ task.id)
    (hinitiative : ctx.initiatives[task.initiative]? = some initiative) :
    (∃ db', claimTask E call workerId ctx task db = .ok (.claimed call.runId,db')) ↔
      Writable E call workerId ctx task := by
  let row := assignedRun E.sha call.now call.runId workerId task (initiative.planSha256 E.sha) (db.nextAttempt task.id)
    (claimEnvelope E call workerId task initiative)
  have hclaim : claimTask E call workerId ctx task db =
      writeClaim E db call.now call.runId task row .runClaimed (.obj [("task_id",.str task.id)]) >>= fun db' =>
        pure (.claimed call.runId,db') := by
    rw [claimTask,hinitiative]
    rfl
  have hinsert : db.insertRun call.runId row = .ok (db.setRun call.runId row) :=
    insertRun_assigned hfresh hidle hworker hactive
  have hreserve := @insertReservations_ok_iff (db.setRun call.runId row) call.runId call.now task.claims
  have hset : (db.setRun call.runId row).heldBy call.runId = ∅ := hfresh.held
  rw [hset] at hreserve
  rw [hclaim]
  simp only [writeClaim,bind_eq_ok,requireNone_eq_ok,pure_eq_ok,hinsert]
  constructor
  · rintro ⟨db',written,⟨_,hschema,inserted,hinserted,reserved,hreserved,_⟩,_⟩
    obtain rfl := Except.ok.inj hinserted
    refine ⟨fun found hfound => ?_,(hreserve.mp ⟨reserved,hreserved⟩).1⟩
    obtain rfl := Option.some.inj (hinitiative.symm.trans hfound)
    exact hschema
  · rintro ⟨hschema,hnodup⟩
    obtain ⟨reserved,hreserved⟩ := hreserve.mpr ⟨hnodup,by simp⟩
    obtain ⟨⟨_,htables⟩,_,_⟩ := Db.insertReservations_reserves hreserved
    have hrow : reserved.runs[call.runId]? = some row := by
      rw [htables]
      exact Tables.get_insert_self _ _ _
    obtain ⟨db',hevent⟩ := runEvent_total hsha hrow hfresh.named [("task_id",.str task.id)]
    exact ⟨db',db',⟨(),hschema initiative hinitiative,_,rfl,reserved,hreserved,hevent⟩,rfl⟩

theorem idle_of_reasons {observed : Observed} (h : d.reasons E db observed ctx task = .ok []) :
    ∀ item ∈ ctx.runs, item.2.taskId ≠ task.id := by
  simp only [reasons,baseReasons,steps_ok] at h
  obtain ⟨_,⟨_,_,_,_,rfl⟩,h⟩ := h
  have hruns : activeRunReasons ctx.runs task = [] := by
    simp only [List.append_eq_nil_iff] at h
    exact h.1.1.1.1.1.2
  intro item hitem htask
  rw [activeRunReasons] at hruns
  split at hruns
  · simp at hruns
  · next hnone => exact absurd htask (by simpa using List.find?_eq_none.mp hnone item hitem)

theorem initiative_of_reasons {observed : Observed} (h : d.reasons E db observed ctx task = .ok []) :
    ∃ initiative, ctx.initiatives[task.initiative]? = some initiative := by
  simp only [reasons,baseReasons,steps_ok] at h
  obtain ⟨_,⟨initiative,hinitiative,_⟩,_⟩ := h
  exact ⟨initiative,hinitiative⟩

end Write

section Settled

variable {E : Env} {d : Dispatcher} {db settled : Db} {ctx : ClaimContext} {call : ClaimCall} {next : NextCall}
  {workerId id : String} {resource : Option String}

theorem NextCall.prepare_settles (h : next.prepare E db = .ok settled) :
    db.Settles settled ∧ settled.workers[next.workerId]? = some ⟨next.kind,next.capabilities,next.registeredAt⟩ := by
  simp only [NextCall.prepare,Db.registerWorker,steps_ok] at h
  obtain ⟨reconciled,hreconciled,_,_,rfl⟩ := h
  have hsettles : db.Settles reconciled := by
    unfold NextCall.reconcile at hreconciled
    split at hreconciled
    · have hmoves : Relation.ReflTransGen (Move E.sha ∅ .plain) db reconciled ∧ db.Settles reconciled :=
        Db.reconcile_moves hreconciled
      exact hmoves.2
    · exact Except.ok.inj hreconciled ▸ .refl db
  exact ⟨⟨hsettles.taskStatus,hsettles.initiativeStatus,hsettles.views⟩,Tables.get_insert_self _ _ _⟩

theorem idle_of_settles (h : db.Settles settled) (hidle : ∀ item ∈ db.activeRuns, item.2.workerId ≠ workerId) :
    ∀ item ∈ settled.activeRuns, item.2.workerId ≠ workerId := by
  intro item hitem
  obtain ⟨hget,hactive⟩ := Db.mem_activeRuns.mp hitem
  obtain ⟨row,hrow,hidentity,hbefore⟩ := (h.views item.1).row item.2 hget
  rw [show item.2.workerId = row.workerId from congrArg RunIdentity.workerId hidentity]
  exact hidle (item.1,row) (Db.mem_activeRuns.mpr ⟨hrow,hbefore hactive⟩)

theorem FreshRun.settles {runId : String} (hfresh : FreshRun db runId) (h : db.Settles settled) :
    FreshRun settled runId where
  named := hfresh.named
  row := by
    by_contra hsome
    obtain ⟨row',hrow'⟩ := Option.ne_none_iff_exists'.mp hsome
    obtain ⟨row,hrow,_⟩ := (h.views runId).row row' hrow'
    exact absurd (hfresh.row.symm.trans hrow) (by simp)
  held := (h.views runId).held.elim (fun hsame => hsame.trans hfresh.held) fun hempty => hempty
  dispatch other row' hrow' := by
    obtain ⟨row,hrow,hidentity,_⟩ := (h.views other).row row' hrow'
    rw [show row'.dispatchRequestId = row.dispatchRequestId from congrArg RunIdentity.dispatchRequestId hidentity]
    exact hfresh.dispatch other row hrow

/-- A worker without an active run is given the first task without reasons, if the stop rule lets the
loop reach it and its claim can be written. -/
theorem claimNext_claims_iff {worker : Worker} (hsha : ∀ s, validDigest (E.sha s) = true)
    (hfilter : resource.all (fun r => d.registry.resources.contains r) = true) (hfresh : FreshRun db call.runId)
    (hidle : ∀ item ∈ db.activeRuns, item.2.workerId ≠ workerId) (hworker : db.workers[workerId]? = some worker) :
    (∃ db', d.claimNext E call workerId resource db = .ok (.claimed call.runId,db') ∧
        (db'.runs[call.runId]?).map (·.taskId) = some id) ↔
      ∃ ctx, d.claimContext E call db worker.capabilities = .ok ctx ∧
        ∃ before task after, FirstEligible E d db call.observed ctx resource before task after ∧
          d.Unstopped resource before ∧ Writable E call workerId ctx task ∧ task.id = id := by
  have hwrite {ctx : ClaimContext} {task : Task} (hctx : d.claimContext E call db worker.capabilities = .ok ctx)
      (hfree : d.reasons E db call.observed ctx task = .ok []) :
      (∃ db', claimTask E call workerId ctx task db = .ok (.claimed call.runId,db')) ↔
        Writable E call workerId ctx task := by
    obtain ⟨initiative,hinitiative⟩ := initiative_of_reasons hfree
    exact claimTask_ok_iff hsha hfresh hidle hworker ((claimContext_limits hctx).1 ▸ idle_of_reasons hfree) hinitiative
  rw [claimNext_of_idle hfilter hidle hworker]
  simp only [bind_eq_ok,selectTask_orderedTasks]
  constructor
  · rintro ⟨db',⟨ctx,hctx,task,⟨before,after,hfirst,hopen⟩,hclaim⟩,hrow⟩
    exact ⟨ctx,hctx,before,task,after,hfirst,hopen,(hwrite hctx hfirst.free).mp ⟨db',hclaim⟩,
      Option.some.inj ((claimTask_taskId hclaim).symm.trans hrow)⟩
  · rintro ⟨ctx,hctx,before,task,after,hfirst,hopen,hwritable,rfl⟩
    obtain ⟨db',hclaim⟩ := (hwrite hctx hfirst.free).mpr hwritable
    exact ⟨db',⟨ctx,hctx,task,⟨before,after,hfirst,hopen⟩,hclaim⟩,claimTask_taskId hclaim⟩

def Claims (E : Env) (d : Dispatcher) (next : NextCall) (db : Db) (id : String) : Prop :=
  ∃ db', d.claimNextCall E next db = .ok (some (.claimed next.claim.runId),db') ∧
    (db'.runs[next.claim.runId]?).map (·.taskId) = some id

/-- The transactions before the claim lead to this store, in which the claim reads this context. -/
structure Prepared (E : Env) (d : Dispatcher) (next : NextCall) (db settled : Db) (ctx : ClaimContext) : Prop where
  filter : next.resource.all (fun r => d.registry.resources.contains r) = true
  gate : next.runtimeBlocked = false
  store : next.prepare E db = .ok settled
  context : d.claimContext E next.claim settled next.capabilities = .ok ctx

theorem claimNextCall_eq_ok {outcome : ClaimOutcome} {db' : Db} :
    d.claimNextCall E next db = .ok (some outcome,db') ↔
      next.resource.all (fun r => d.registry.resources.contains r) = true ∧ next.runtimeBlocked = false ∧
        ∃ settled, next.prepare E db = .ok settled ∧
          d.claimNext E next.claim next.workerId next.resource settled = .ok (outcome,db') := by
  simp only [claimNextCall,steps_ok,ite_eq_ok]
  cases next.runtimeBlocked <;> simp

theorem claims_iff (hsha : ∀ s, validDigest (E.sha s) = true) (hfresh : FreshRun db next.claim.runId)
    (hidle : ∀ item ∈ db.activeRuns, item.2.workerId ≠ next.workerId) :
    Claims E d next db id ↔ ∃ settled ctx before task after, Prepared E d next db settled ctx ∧
      FirstEligible E d settled next.claim.observed ctx next.resource before task after ∧
      d.Unstopped next.resource before ∧ Writable E next.claim next.workerId ctx task ∧ task.id = id := by
  have hclaims {settled : Db} (hfilter : next.resource.all (fun r => d.registry.resources.contains r) = true)
      (hstore : next.prepare E db = .ok settled) :
      (∃ db', d.claimNext E next.claim next.workerId next.resource settled = .ok (.claimed next.claim.runId,db') ∧
          (db'.runs[next.claim.runId]?).map (·.taskId) = some id) ↔
        ∃ ctx, d.claimContext E next.claim settled next.capabilities = .ok ctx ∧
          ∃ before task after, FirstEligible E d settled next.claim.observed ctx next.resource before task after ∧
            d.Unstopped next.resource before ∧ Writable E next.claim next.workerId ctx task ∧ task.id = id := by
    obtain ⟨hsettles,hworker⟩ := NextCall.prepare_settles hstore
    exact claimNext_claims_iff hsha hfilter (hfresh.settles hsettles) (idle_of_settles hsettles hidle) hworker
  constructor
  · rintro ⟨db',hcall,hrow⟩
    obtain ⟨hfilter,hgate,settled,hstore,hclaim⟩ := claimNextCall_eq_ok.mp hcall
    obtain ⟨ctx,hctx,before,task,after,h⟩ := (hclaims hfilter hstore).mp ⟨db',hclaim,hrow⟩
    exact ⟨settled,ctx,before,task,after,⟨hfilter,hgate,hstore,hctx⟩,h⟩
  · rintro ⟨settled,ctx,before,task,after,⟨hfilter,hgate,hstore,hctx⟩,h⟩
    obtain ⟨db',hclaim,hrow⟩ := (hclaims hfilter hstore).mpr ⟨ctx,hctx,before,task,after,h⟩
    exact ⟨db',claimNextCall_eq_ok.mpr ⟨hfilter,hgate,settled,hstore,hclaim⟩,hrow⟩

end Settled

end Dispatcher

/-- In strict order a worker without an active run is given a task exactly when the calls before the
claim commit and, in the store they leave, the task has no reasons, no task before it is declared
ready, each of them has a reason against it, and the claim can be written. Finished work always has a
reason, so it is in the way exactly when it is still declared ready. -/
theorem strict_queue_progress_iff {E : Env} {d : Dispatcher} {next : Dispatcher.NextCall} {db : Db}
    {before after : List Task} {task : Task} (hsha : ∀ s, validDigest (E.sha s) = true)
    (hkeyed : d.registry.Keyed) (hstrict : d.registry.queuePolicy = "strict")
    (hfresh : Dispatcher.FreshRun db next.claim.runId)
    (hidle : ∀ item ∈ db.activeRuns, item.2.workerId ≠ next.workerId)
    (horder : d.orderedTasks = before ++ task :: after) :
    (d.Claims E next db task.id ↔ ∃ settled ctx, Dispatcher.Prepared E d next db settled ctx ∧
      Dispatcher.FirstEligible E d settled next.claim.observed ctx next.resource before task after ∧
      (∀ other ∈ before, d.taskMatchesResource other next.resource = true → other.state ≠ .ready) ∧
      Dispatcher.Writable E next.claim next.workerId ctx task) ∧
    ∀ settled ctx, ∀ other ∈ before, (effectiveState ctx.overlay other.id other).terminal = true →
      d.reasons E settled next.claim.observed ctx other ≠ .ok [] := by
  refine ⟨?_,fun settled ctx other _ => Dispatcher.reasons_of_terminal⟩
  rw [Dispatcher.claims_iff hsha hfresh hidle]
  constructor
  · rintro ⟨settled,ctx,before',task',after',hprepared,hfirst,hopen,hwritable,hid⟩
    obtain ⟨rfl,rfl,rfl⟩ := Dispatcher.orderedTasks_split hkeyed horder hfirst.order hid
    exact ⟨settled,ctx,hprepared,hfirst,hopen hstrict,hwritable⟩
  · rintro ⟨settled,ctx,hprepared,hfirst,hopen,hwritable⟩
    exact ⟨settled,ctx,before,task,after,hprepared,hfirst,fun _ => hopen,hwritable,rfl⟩

namespace Sample

def secondTask : Task :=
  { task with
    id := "T-2"
    rank := 2
    claims := [⟨"repo.b",.write,1,"none",Mode.write_claimable⟩]
    raw := secondSpec
    sha256 := taskRevisionSha256 sha secondSpec }

/-- Two tasks in strict order, the first one declared in a given state. -/
def strictQueue (state : TaskState) : Dispatcher where
  registry := { files with
    tasks := Std.ExtTreeMap.ofList [("T-1",{ task with state := state }),("T-2",secondTask)]
    queuePolicy := "strict" }
  authority := .legacyGitBootstrap
  revisions := ∅

def strictCall (state : TaskState) (now : Time) (runId : String) : Dispatcher.ClaimCall :=
  ⟨(strictQueue state).registry,observed,now,runId,.null⟩

/-- A call with the defaults of `claim_next`; no executor answers. -/
def nextCall (claim : Dispatcher.ClaimCall) : Dispatcher.NextCall where
  claim := claim
  workerId := "worker"
  capabilities := []
  kind := "interactive-agent"
  reconcileFirst := true
  resource := none
  runtimeBlocked := false
  reconciledAt := claim.now
  replies := fun _ => ⟨false,.ok none,.error "no adapter"⟩
  registeredAt := claim.now

def finished : Db :=
  run (step env contracts) (Db.fresh env.sha) [.registerWorker 1 "worker" "codex" [],
    .claimNext (strictQueue .ready) (strictCall .ready 2 "RUN-1") "worker" none,
    .completeRun ⟨(strictQueue .ready).registry,(strictQueue .ready).registry,.obj [],3,false⟩ "RUN-1"]

def silent : Db :=
  run (step env contracts) (Db.fresh env.sha) [.registerWorker 1 "other" "codex" [],
    .claimNext (strictQueue .verified) (strictCall .verified 2 "RUN-0") "other" none]

theorem strictQueue_verified_order : (strictQueue .verified).orderedTasks =
    [{ task with state := .verified }] ++ secondTask :: [] := by
  decide +kernel

theorem strictQueue_keyed (state : TaskState) : (strictQueue state).registry.Keyed := by
  intro id found hfound
  have hmem := (Tables.get_ofList (by simp) id found).mp hfound
  simp only [List.mem_cons,Prod.mk.injEq,List.not_mem_nil,or_false] at hmem
  rcases hmem with ⟨rfl,rfl⟩ | ⟨rfl,rfl⟩ <;> rfl

theorem writable_secondTask (call : Dispatcher.ClaimCall) (workerId : String) (ctx : ClaimContext) :
    Dispatcher.Writable env call workerId ctx secondTask :=
  ⟨fun _ _ => rfl,by simp [secondTask]⟩

theorem silent_fresh : Dispatcher.FreshRun silent "RUN-1" where
  named := by decide
  row := by decide +kernel
  held := by decide +kernel
  dispatch other row hrow := by
    have hall : silent.runs.toList.all (fun item => item.2.dispatchRequestId ≠ some ("RUN-1" ++ ":dispatch-1")) =
      true := by
      decide +kernel
    simpa using List.all_eq_true.mp hall (other,row) (Std.ExtTreeMap.mem_toList_iff_getElem?_eq_some.mpr hrow)

end Sample

/-- The closed task holds up the next one. -/
theorem finished_task_blocks_queue : ∃ settled ctx,
    Reach (step Sample.env Sample.contracts) (fun _ _ => True) (Db.fresh Sample.env.sha) Sample.finished ∧
    Sample.finished.activeRuns = [] ∧
    (Sample.strictQueue .ready).Prepared Sample.env (Sample.nextCall (Sample.strictCall .ready 4 "RUN-2"))
      Sample.finished settled ctx ∧
    (Sample.strictQueue .ready).orderedTasks = [Sample.task,Sample.secondTask] ∧
    effectiveState ctx.overlay "T-1" Sample.task = .verified ∧
    effectiveState ctx.overlay "T-2" Sample.secondTask = .ready ∧
    (Sample.strictQueue .ready).reasons Sample.env settled Sample.observed ctx Sample.secondTask = .ok [] ∧
    Dispatcher.Writable Sample.env (Sample.strictCall .ready 4 "RUN-2") "worker" ctx Sample.secondTask ∧
    (Sample.strictQueue .ready).claimNextCall Sample.env (Sample.nextCall (Sample.strictCall .ready 4 "RUN-2"))
      Sample.finished = .error (.noEligibleTask [("T-1",["state is verified"])]) := by
  have hprepared : ((Sample.nextCall (Sample.strictCall .ready 4 "RUN-2")).prepare Sample.env
      Sample.finished).toOption.any (fun settled => ((Sample.strictQueue .ready).claimContext Sample.env
        (Sample.strictCall .ready 4 "RUN-2") settled []).toOption.any (fun ctx =>
          effectiveState ctx.overlay "T-1" Sample.task = .verified &&
          effectiveState ctx.overlay "T-2" Sample.secondTask = .ready &&
          (Sample.strictQueue .ready).reasons Sample.env settled Sample.observed ctx Sample.secondTask = .ok [])) =
        true := by
    decide +kernel
  simp only [Option.any_eq_true,Bool.and_eq_true,decide_eq_true_eq,toOption_eq_some] at hprepared
  obtain ⟨settled,hstore,ctx,hctx,⟨hfirst,hsecond⟩,hreasons⟩ := hprepared
  refine ⟨settled,ctx,Reach.run fun _ _ _ => trivial,by decide +kernel,⟨rfl,rfl,hstore,hctx⟩,by decide +kernel,
    hfirst,hsecond,hreasons,Sample.writable_secondTask _ _ ctx,?_⟩
  decide +kernel

/-- The queue goes past a task that is declared verified, to one whose run the call has orphaned. -/
theorem strict_queue_progress_iff_verified :
    Sample.silent.activeRuns.map (fun item => (item.1,item.2.taskId)) = [("RUN-0","T-2")] ∧
      (Sample.strictQueue .verified).Claims Sample.env (Sample.nextCall (Sample.strictCall .verified 2000 "RUN-1"))
        Sample.silent "T-2" := by
  have hactive : Sample.silent.activeRuns.map (fun item => (item.1,item.2.taskId)) = [("RUN-0","T-2")] := by
    decide +kernel
  have hidle : ∀ item ∈ Sample.silent.activeRuns, item.2.workerId ≠ "worker" := by decide +kernel
  have hprepared : ((Sample.nextCall (Sample.strictCall .verified 2000 "RUN-1")).prepare Sample.env
      Sample.silent).toOption.any (fun settled => ((Sample.strictQueue .verified).claimContext Sample.env
        (Sample.strictCall .verified 2000 "RUN-1") settled []).toOption.any (fun ctx =>
          (Sample.strictQueue .verified).reasons Sample.env settled Sample.observed ctx Sample.secondTask = .ok [] &&
          ((Sample.strictQueue .verified).reasons Sample.env settled Sample.observed ctx
            { Sample.task with state := .verified }).toOption.any (fun reasons => !reasons.isEmpty))) = true := by
    decide +kernel
  simp only [Option.any_eq_true,Bool.and_eq_true,decide_eq_true_eq,toOption_eq_some] at hprepared
  obtain ⟨settled,hstore,ctx,hctx,hfree,reasons,hreasons,hblocked⟩ := hprepared
  refine ⟨hactive,(strict_queue_progress_iff Sample.validDigest_sha (Sample.strictQueue_keyed .verified) rfl
    Sample.silent_fresh hidle Sample.strictQueue_verified_order).1.mpr ⟨settled,ctx,⟨rfl,rfl,hstore,hctx⟩,?_,?_,
      Sample.writable_secondTask _ _ ctx⟩⟩
  · refine ⟨Sample.strictQueue_verified_order,rfl,hfree,fun other hother _ => ?_⟩
    obtain rfl := List.mem_singleton.mp hother
    exact ⟨reasons,hreasons,by simpa [List.isEmpty_iff] using hblocked⟩
  · intro other hother _
    obtain rfl := List.mem_singleton.mp hother
    decide

end Bureau
