import Bureau.StrictQueue

/-!
The preview of the next claim. `explain_next` lists every candidate with its reasons and selects the
first one without any, in the store as it is; `claim_next` first reconciles the active runs, walks the
same candidates in a loop of its own, which in strict order ends at a blocked task that is declared
ready, and then still has to write the claim.
-/

namespace Bureau

open Transactions

namespace Dispatcher

structure FrontierItem where
  task : Task
  effectiveState : TaskState
  closureBridge : Bool
  blockingChildTaskIds : List String
  claimReasons : List Reason
  reasons : List Reason

def FrontierItem.eligible (item : FrontierItem) : Bool :=
  item.claimReasons.isEmpty

/-- `reasons` projected to one resource: open pull requests elsewhere are left out. -/
def projectedReasons (E : Env) (d : Dispatcher) (db : Db) (observed : Observed) (ctx : ClaimContext)
    (resource : String) (task : Task) : Result (List Reason) := do
  let initiative ← orRaise ctx.initiatives[task.initiative]? (.state ("KeyError: " ++ task.initiative))
  let dependencies ← d.dependencyReasons ctx.overlay task
  let openPrs := observed.openPrs.filter fun pr => pr.scopes.any (overlaps · resource d.registry.resources)
  return d.lifecycleReasons E db observed ctx task initiative ++
    capabilityReasons ctx.capabilities task ++ dependencies ++ activeRunReasons ctx.runs task ++
    d.parallelReasons ctx.runs task initiative ++
    (openPrs.filterMap
      (openPrReason E.sha observed.writeScope d.registry ctx.overlay task observed.openPrs)).map .openPr ++
    ((E.rlensBlockReason task.raw).filter (· ≠ "")).toList.map .rlens ++
    claimReasons d.registry.resources ctx.reservations task ++ d.broadScopeReasons observed task

def frontierContext (E : Env) (d : Dispatcher) (db : Db) (capabilities : List String) : Result ClaimContext := do
  let overlay ← overlays E d.registry db
  return ⟨capabilities,db.activeRuns,db.reservationList none,overlay,d.registry.initiatives⟩

def shownReasons (E : Env) (d : Dispatcher) (db : Db) (observed : Observed) (ctx : ClaimContext)
    (resource : Option String) (task : Task) (claimReasons : List Reason) : Result (List Reason) :=
  match resource with
  | none => .ok claimReasons
  | some resource => d.projectedReasons E db observed ctx resource task

/-- One round of `_frontier_from_state`. -/
def frontierItem (E : Env) (d : Dispatcher) (db : Db) (observed : Observed) (ctx : ClaimContext)
    (resource : Option String) (task : Task) : Result FrontierItem := do
  let initiative ← orRaise ctx.initiatives[task.initiative]? (.state ("KeyError: " ++ task.initiative))
  let claimReasons ← d.reasons E db observed ctx task
  let reasons ← d.shownReasons E db observed ctx resource task claimReasons
  let state := effectiveState ctx.overlay task.id task
  return ⟨task,state,closureBridgeApplies observed.closureBridgeTaskIds task state initiative,
    d.blockingChildren ctx.overlay task,claimReasons,reasons⟩

def frontier (E : Env) (d : Dispatcher) (db : Db) (observed : Observed) (capabilities : List String)
    (resource : Option String) : Result (List FrontierItem) := do
  require (resource.all fun r => d.registry.resources.contains r)
    (.state ("unknown resource filter: " ++ resource.getD ""))
  let ctx ← d.frontierContext E db capabilities
  collect (d.frontierItem E db observed ctx resource)
    (d.orderedTasks.filter fun task => d.taskMatchesResource task resource)

/-- The selection of `Dispatcher.explain_next`. -/
def explainNext (E : Env) (d : Dispatcher) (db : Db) (observed : Observed) (capabilities : List String)
    (resource : Option String) : Result (Option FrontierItem) := do
  let items ← d.frontier E db observed capabilities resource
  return items.find? FrontierItem.eligible

section Selection

variable {E : Env} {d : Dispatcher} {db db' : Db} {observed : Observed} {ctx : ClaimContext}
  {resource : Option String}

theorem frontierItem_eq_ok {task : Task} {item : FrontierItem}
    (h : d.frontierItem E db observed ctx resource task = .ok item) :
    item.task = task ∧ d.reasons E db observed ctx task = .ok item.claimReasons := by
  simp only [frontierItem,steps_ok] at h
  obtain ⟨initiative,_,claimReasons,hreasons,reasons,_,rfl⟩ := h
  exact ⟨rfl,hreasons⟩

theorem find?_collect {tasks : List Task} {items : List FrontierItem}
    (h : collect (d.frontierItem E db observed ctx resource) tasks = .ok items) :
    (items.find? FrontierItem.eligible = none → ∀ task ∈ tasks, Blocked E d db observed ctx task) ∧
      ∀ item, items.find? FrontierItem.eligible = some item →
        d.reasons E db observed ctx item.task = .ok [] ∧
        ∃ before after, tasks = before ++ item.task :: after ∧ ∀ other ∈ before, Blocked E d db observed ctx other := by
  rw [collect_eq_ok] at h
  induction h with
  | nil => simp
  | @cons task item tasks items hitem _ ih =>
    obtain ⟨htask,hreasons⟩ := frontierItem_eq_ok hitem
    rw [List.find?_cons]
    cases heligible : item.eligible with
    | true =>
      have hempty : item.claimReasons = [] := by simpa [FrontierItem.eligible] using heligible
      refine ⟨by simp,?_⟩
      rintro _ ⟨⟩
      exact ⟨by rw [htask,hreasons,hempty],[],tasks,by rw [htask]; rfl,by simp⟩
    | false =>
      have hblocked : Blocked E d db observed ctx task :=
        ⟨item.claimReasons,hreasons,by simpa [FrontierItem.eligible,List.isEmpty_eq_false_iff] using heligible⟩
      refine ⟨fun hnone other hother => ?_,fun found hfound => ?_⟩
      · rcases List.mem_cons.mp hother with rfl | hother
        · exact hblocked
        · exact ih.1 hnone other hother
      · obtain ⟨hfree,before,after,hsplit,hbefore⟩ := ih.2 found hfound
        refine ⟨hfree,task :: before,after,by rw [hsplit]; rfl,fun other hother => ?_⟩
        rcases List.mem_cons.mp hother with rfl | hother
        · exact hblocked
        · exact hbefore other hother

/-- What the preview selects: the first candidate without reasons, if there is one. -/
def Selects (E : Env) (d : Dispatcher) (db : Db) (observed : Observed) (ctx : ClaimContext)
    (resource : Option String) : Option FrontierItem → Prop
  | none => ∀ before task after, ¬ FirstEligible E d db observed ctx resource before task after
  | some item => ∃ before after, FirstEligible E d db observed ctx resource before item.task after

theorem explainNext_eq_ok {capabilities : List String} {selected : Option FrontierItem}
    (h : d.explainNext E db observed capabilities resource = .ok selected) :
    resource.all (fun r => d.registry.resources.contains r) = true ∧
      ∃ ctx, d.frontierContext E db capabilities = .ok ctx ∧ Selects E d db observed ctx resource selected ∧
      ∀ task ∈ d.orderedTasks, d.taskMatchesResource task resource = true →
        ∃ reasons, d.reasons E db observed ctx task = .ok reasons := by
  simp only [explainNext,frontier,steps_ok] at h
  obtain ⟨items,⟨_,hfilter,ctx,hctx,hitems⟩,rfl⟩ := h
  obtain ⟨hnone,hsome⟩ := find?_collect hitems
  refine ⟨hfilter,ctx,hctx,?_,fun task htask hmatch => ?_⟩
  · cases hselected : items.find? FrontierItem.eligible with
    | none =>
      intro before task after hfirst
      have htask : task ∈ d.orderedTasks.filter fun task => d.taskMatchesResource task resource :=
        List.mem_filter.mpr ⟨by simp [hfirst.order],hfirst.candidate⟩
      obtain ⟨reasons,hreasons,hne⟩ := hnone hselected task htask
      exact hne (Except.ok.inj (hreasons.symm.trans hfirst.free))
    | some item =>
      obtain ⟨hfree,listed,after,hsplit,hblocked⟩ := hsome item hselected
      obtain ⟨first,second,horder,hfirst,hsecond⟩ := List.filter_eq_append_iff.mp hsplit
      obtain ⟨skipped,rest,rfl,hskipped,hmatch,_⟩ := List.filter_eq_cons_iff.mp hsecond
      refine ⟨first ++ skipped,rest,by rw [horder,List.append_assoc],hmatch,hfree,fun other hother hcandidate => ?_⟩
      rcases List.mem_append.mp hother with hother | hother
      · exact hblocked other (hfirst ▸ List.mem_filter.mpr ⟨hother,hcandidate⟩)
      · exact absurd hcandidate (hskipped other hother)
  · obtain ⟨item,_,hitem⟩ := exists_of_collect hitems (List.mem_filter.mpr ⟨htask,hmatch⟩)
    exact ⟨_,(frontierItem_eq_ok hitem).2⟩

/-- With reasons for every candidate the loop selects one of them or finds none eligible. -/
theorem selectTask_cases {tasks : List Task} (rejected : List (String × List String))
    (h : ∀ task ∈ tasks, d.taskMatchesResource task resource = true →
      ∃ reasons, d.reasons E db observed ctx task = .ok reasons) :
    (∃ task, d.selectTask E db observed ctx resource tasks rejected = .ok task) ∨
      ∃ all, d.selectTask E db observed ctx resource tasks rejected = .error (.noEligibleTask all) := by
  induction tasks generalizing rejected with
  | nil => exact .inr ⟨rejected,rfl⟩
  | cons first rest ih =>
    have hrest : ∀ task ∈ rest, d.taskMatchesResource task resource = true →
        ∃ reasons, d.reasons E db observed ctx task = .ok reasons :=
      fun task hmem => h task (List.mem_cons_of_mem _ hmem)
    rw [selectTask]
    by_cases hmatch : d.taskMatchesResource first resource = true
    · obtain ⟨reasons,hreasons⟩ := h first List.mem_cons_self hmatch
      rw [if_pos hmatch,hreasons]
      change (∃ task, (if reasons.isEmpty then _ else _) = _) ∨ ∃ all, (if reasons.isEmpty then _ else _) = _
      cases reasons.isEmpty with
      | true => exact .inl ⟨first,rfl⟩
      | false =>
        simp only [Bool.false_eq_true,if_false]
        split
        · exact .inr ⟨_,rfl⟩
        · exact ih _ hrest
    · rw [if_neg hmatch]
      exact ih _ hrest

theorem exists_reasons_iff {task : Task} : (∃ reasons, d.reasons E db observed ctx task = .ok reasons) ↔
    (∃ initiative, ctx.initiatives[task.initiative]? = some initiative) ∧
      ∃ blockers, d.dependencyReasons ctx.overlay task = .ok blockers := by
  simp only [reasons,baseReasons,steps_ok]
  constructor
  · rintro ⟨_,_,⟨initiative,hinitiative,blockers,hblockers,_⟩,_⟩
    exact ⟨⟨initiative,hinitiative⟩,blockers,hblockers⟩
  · rintro ⟨⟨initiative,hinitiative⟩,blockers,hblockers⟩
    exact ⟨_,_,⟨initiative,hinitiative,blockers,hblockers,rfl⟩,rfl⟩

theorem overlays_congr {registry : Registry} (h : db.Settles db') :
    overlays E registry db' = overlays E registry db := by
  simp only [overlays,overlayOf,taskStatusReceiptBindsCurrentRevision,receiptsWithDigest,h.taskStatus,h.receipts]

/-- A claim of a dispatcher built over the store reads the overlays and initiatives of the preview. -/
theorem claimContext_settles {call : ClaimCall} {capabilities : List String}
    (hd : Dispatcher.init E.sha call.files db = .ok d) (h : db.Settles db')
    (hctx : d.frontierContext E db capabilities = .ok ctx) :
    d.claimContext E call db' capabilities =
      .ok { ctx with runs := db'.activeRuns, reservations := db'.reservationList none } := by
  simp only [Dispatcher.init,steps_ok] at hd
  obtain ⟨⟨registry,authority,revisions⟩,hregistry,rfl⟩ := hd
  obtain ⟨base,hbase,hinitiatives⟩ : ∃ base, stateStoreInitiativeRegistry call.files db = .ok base ∧
      registry.initiatives = base.initiatives := by
    simp only [authoritativeTaskRegistry,bind_eq_ok] at hregistry
    obtain ⟨base,hbase,specs,_,hrest⟩ := hregistry
    refine ⟨base,hbase,?_⟩
    split at hrest
    · simp only [pure_eq_ok,Prod.mk.injEq] at hrest
      rw [← hrest.1]
    · simp only [steps_ok,Prod.mk.injEq] at hrest
      obtain ⟨_,_,_,_,hregistry,_⟩ := hrest
      rw [← hregistry]
  have hbase' : stateStoreInitiativeRegistry call.files db' = .ok base := by
    rw [← hbase]
    simp only [stateStoreInitiativeRegistry,h.initiativeStatus]
  simp only [frontierContext,steps_ok] at hctx
  obtain ⟨overlay,hoverlay,rfl⟩ := hctx
  simp only [claimContext,overlays_congr h,hoverlay,hbase',hinitiatives]
  rfl

end Selection

section Errors

def Ineligible (e : BureauError) : Prop :=
  ∃ rejected, e = .noEligibleTask rejected

variable {sha : Sha} {db : Db} {runId : String} {now : Time}

theorem not_ineligible_state (message : String) : ¬ Ineligible (.state message) := by
  simp [Ineligible]

theorem not_ineligible_integrity (message : String) : ¬ Ineligible (.integrity message) := by
  simp [Ineligible]

/-- The events of a claim and of `reconcile`. -/
def claimEvents : List EventType :=
  [.runClaimed,.runHeartbeat,.runOrphaned,.dispatchRecovered,.externalSucceeded,.externalTerminal]

theorem validateEvent_avoids {eventType : EventType} {payload : Payload} {run : Option String}
    (h : eventType ∈ claimEvents ∨ eventType = .projection) :
    Avoids Ineligible (validateEvent sha eventType payload run) := by
  refine avoids_bind (avoids_require _ (not_ineligible_state _)) fun _ => ?_
  refine avoids_bind (avoids_require _ (not_ineligible_state _)) fun _ => ?_
  refine avoids_bind (avoids_require _ (not_ineligible_state _)) fun _ => ?_
  rcases h with h | rfl
  · simp only [claimEvents,List.mem_cons,List.not_mem_nil,or_false] at h
    rcases h with rfl | rfl | rfl | rfl | rfl | rfl <;> exact avoids_ok ()
  · cases payload with
    | plain document => exact avoids_error.mpr (not_ineligible_state _)
    | repair payload => exact avoids_error.mpr (not_ineligible_state _)
    | baseline trigger projection root =>
      refine avoids_bind (avoids_require _ (not_ineligible_state _)) fun _ => ?_
      refine avoids_bind (avoids_require _ (not_ineligible_state _)) fun _ => ?_
      exact avoids_require _ (not_ineligible_state _)
    | delta trigger changes root =>
      refine avoids_bind (avoids_require _ (not_ineligible_state _)) fun _ => ?_
      exact avoids_require _ (not_ineligible_state _)

theorem insertEvent_avoids {eventType : EventType} {payload : Payload} {run activity : Option String}
    (h : eventType ∈ claimEvents ∨ eventType = .projection) :
    Avoids Ineligible (db.insertEvent sha eventType payload run activity) := by
  refine avoids_bind (validateEvent_avoids h) fun _ => ?_
  exact avoids_bind (avoids_require _ (not_ineligible_integrity _)) fun _ => avoids_pure _

theorem appendProjectionSnapshot_avoids {trigger : String} {run task initiative : Option String} :
    Avoids Ineligible (db.appendProjectionSnapshot sha trigger run task initiative) := by
  have hdelta : Avoids Ineligible (db.deltaPayload sha trigger run task initiative) := by
    unfold Db.deltaPayload
    dsimp only
    split
    · exact avoids_ok _
    · exact avoids_bind (avoids_require _ (not_ineligible_state _)) fun _ => avoids_pure _
  refine avoids_bind hdelta fun payload => ?_
  cases payload with
  | none => exact avoids_pure _
  | some payload => exact insertEvent_avoids (.inr rfl)

theorem runEvent_avoids {eventType : EventType} (payload : Json) (h : eventType ∈ claimEvents) :
    Avoids Ineligible (db.runEvent sha eventType payload runId) := by
  refine avoids_bind (insertEvent_avoids (.inl h)) fun inserted => ?_
  split
  · exact appendProjectionSnapshot_avoids
  · exact avoids_pure _

theorem observeRun_avoids {reply : AdapterReply} : Avoids Ineligible (db.observeRun sha now reply runId) := by
  unfold Db.observeRun
  split
  · exact avoids_ok _
  · split
    · exact runEvent_avoids _ (by decide)
    · exact avoids_bind (runEvent_avoids _ (by decide)) fun _ => runEvent_avoids _ (by decide)
    · exact runEvent_avoids _ (by decide)
    · exact runEvent_avoids _ (by decide)
    · exact runEvent_avoids _ (by decide)
    · exact runEvent_avoids _ (by decide)
    · exact avoids_ok _

theorem reconcileRun_avoids {staleAfter : Int} {reply : AdapterReply} {row : RunRow} :
    Avoids Ineligible (db.reconcileRun sha now staleAfter reply runId row) := by
  unfold Db.reconcileRun
  split
  · split
    · exact avoids_ok _
    · exact runEvent_avoids _ (by decide)
  · split
    · exact avoids_ok _
    · split
      · exact observeRun_avoids
      · split
        · exact avoids_ok _
        · exact avoids_ok _
        · exact avoids_bind (runEvent_avoids _ (by decide)) fun _ => observeRun_avoids

theorem reconcileRuns_avoids {staleAfter : Int} {replies : String → AdapterReply} {rows : List (String × RunRow)} :
    Avoids Ineligible (Db.reconcileRuns sha now staleAfter replies rows db) := by
  induction rows generalizing db with
  | nil => exact avoids_ok _
  | cons item rest ih => exact avoids_bind reconcileRun_avoids fun _ => ih

theorem NextCall.prepare_avoids {E : Env} {next : NextCall} : Avoids Ineligible (next.prepare E db) := by
  have hreconcile : Avoids Ineligible (next.reconcile E db) := by
    unfold NextCall.reconcile
    split
    · exact reconcileRuns_avoids
    · exact avoids_ok _
  refine avoids_bind hreconcile fun reconciled => ?_
  exact avoids_bind (avoids_require _ (not_ineligible_state _)) fun _ => avoids_pure _

theorem insertReservations_avoids {claims : List Claim} :
    Avoids Ineligible (Db.insertReservations runId now claims db) := by
  induction claims generalizing db with
  | nil => exact avoids_ok _
  | cons claim rest ih =>
    refine avoids_bind ?_ fun _ => ih
    exact avoids_bind (avoids_require _ (not_ineligible_integrity _)) fun _ => avoids_pure _

theorem insertRun_avoids {row : RunRow} : Avoids Ineligible (db.insertRun runId row) := by
  refine avoids_bind (avoids_require _ (not_ineligible_integrity _)) fun _ => ?_
  refine avoids_bind (avoids_require _ (not_ineligible_integrity _)) fun _ => ?_
  refine avoids_bind ?_ fun _ => ?_
  · refine avoids_bind (avoids_require _ (not_ineligible_integrity _)) fun _ => ?_
    exact avoids_require _ (not_ineligible_integrity _)
  · exact avoids_bind (avoids_require _ (not_ineligible_integrity _)) fun _ => avoids_pure _

theorem claimTask_avoids {E : Env} {call : ClaimCall} {workerId : String} {ctx : ClaimContext} {task : Task} :
    Avoids Ineligible (claimTask E call workerId ctx task db) := by
  refine avoids_bind (avoids_orRaise _ (not_ineligible_state _)) fun initiative => ?_
  refine avoids_bind ?_ fun _ => avoids_pure _
  refine avoids_bind ?_ fun _ => ?_
  · intro e he
    unfold requireNone at he
    split at he
    · simp at he
    · cases he
      simp [Ineligible]
  · refine avoids_bind insertRun_avoids fun _ => ?_
    exact avoids_bind insertReservations_avoids fun _ => runEvent_avoids _ (by decide)

end Errors

section Agreement

variable {E : Env} {d : Dispatcher} {db : Db} {next : NextCall}

/-- The claim does what the preview says: nothing is eligible, or a run of the selected task is written. -/
def Agrees (E : Env) (d : Dispatcher) (next : NextCall) (db : Db) : Option FrontierItem → Prop
  | none => ∃ rejected, d.claimNextCall E next db = .error (.noEligibleTask rejected)
  | some item => d.Claims E next db item.task.id

/-- In the store the claim works on: with nothing selected, no task is eligible, or the stop rule ends
the loop before the first eligible one; otherwise the selected task is the first eligible one, the
loop reaches it and its claim can be written. -/
def Confirmed (E : Env) (d : Dispatcher) (next : NextCall) (settled : Db) (ctx : ClaimContext) :
    Option FrontierItem → Prop
  | none => ∀ before task after,
    FirstEligible E d settled next.claim.observed ctx next.resource before task after →
      ¬ d.Unstopped next.resource before
  | some item => ∃ before task after,
    FirstEligible E d settled next.claim.observed ctx next.resource before task after ∧
      d.Unstopped next.resource before ∧ Writable E next.claim next.workerId ctx task ∧ task.id = item.task.id

/-- Where every candidate has reasons, the claim finds no eligible task exactly if the loop reaches none. -/
theorem ineligible_iff {settled : Db} {ctx : ClaimContext} (hprepared : Prepared E d next db settled ctx)
    (hidle : ∀ item ∈ settled.activeRuns, item.2.workerId ≠ next.workerId)
    (hreasons : ∀ task ∈ d.orderedTasks, d.taskMatchesResource task next.resource = true →
      ∃ reasons, d.reasons E settled next.claim.observed ctx task = .ok reasons) :
    (∃ rejected, d.claimNextCall E next db = .error (.noEligibleTask rejected)) ↔
      Confirmed E d next settled ctx none := by
  have hcall : d.claimNextCall E next db =
      (d.selectTask E settled next.claim.observed ctx next.resource d.orderedTasks [] >>= fun task =>
        claimTask E next.claim next.workerId ctx task settled) >>= fun result => pure (some result.1,result.2) := by
    have hworker := (NextCall.prepare_settles hprepared.store).2
    have hclaim : d.claimNext E next.claim next.workerId next.resource settled = _ :=
      claimNext_of_idle hprepared.filter hidle hworker
    rw [hprepared.context] at hclaim
    rw [claimNextCall,hprepared.filter,hprepared.gate,hprepared.store]
    exact congrArg (· >>= fun result => pure (some result.1,result.2)) hclaim
  rw [hcall]
  constructor
  · rintro ⟨rejected,herror⟩ before task after hfirst hopen
    rw [selectTask_orderedTasks.mpr ⟨before,after,hfirst,hopen⟩] at herror
    exact avoids_bind claimTask_avoids (fun _ => avoids_pure _) _ herror ⟨rejected,rfl⟩
  · intro hnone
    rcases selectTask_cases [] hreasons with ⟨task,htask⟩ | ⟨rejected,hrejected⟩
    · obtain ⟨before,after,hfirst,hopen⟩ := selectTask_orderedTasks.mp htask
      exact absurd hopen (hnone before task after hfirst)
    · exact ⟨rejected,by rw [hrejected]; rfl⟩

/-- The calls before the claim leave overlays and initiatives, so every candidate has reasons again. -/
theorem exists_reasons_of_settles {db' : Db} {ctx : ClaimContext}
    (hd : Dispatcher.init E.sha next.claim.files db = .ok d) (h : db.Settles db')
    (hctx : d.frontierContext E db next.capabilities = .ok ctx)
    (hreasons : ∀ task ∈ d.orderedTasks, d.taskMatchesResource task next.resource = true →
      ∃ reasons, d.reasons E db next.claim.observed ctx task = .ok reasons) :
    ∃ ctx', d.claimContext E next.claim db' next.capabilities = .ok ctx' ∧
      ∀ task ∈ d.orderedTasks, d.taskMatchesResource task next.resource = true →
        ∃ reasons, d.reasons E db' next.claim.observed ctx' task = .ok reasons := by
  refine ⟨_,claimContext_settles hd h hctx,fun task htask hmatch => ?_⟩
  obtain ⟨hinitiative,hblockers⟩ := exists_reasons_iff.mp (hreasons task htask hmatch)
  exact exists_reasons_iff.mpr ⟨hinitiative,hblockers⟩

theorem prepared_of_ineligible {rejected : List (String × List String)}
    (hfilter : next.resource.all (fun r => d.registry.resources.contains r) = true)
    (h : d.claimNextCall E next db = .error (.noEligibleTask rejected)) :
    next.runtimeBlocked = false ∧ ∃ settled, next.prepare E db = .ok settled := by
  rw [claimNextCall,hfilter] at h
  cases hgate : next.runtimeBlocked with
  | true =>
    rw [hgate] at h
    cases h
  | false =>
    refine ⟨rfl,?_⟩
    cases hstore : next.prepare E db with
    | ok settled => exact ⟨settled,rfl⟩
    | error e =>
      rw [hgate,hstore] at h
      cases h
      exact (NextCall.prepare_avoids _ hstore ⟨rejected,rfl⟩).elim

end Agreement

end Dispatcher

/-- The preview selects the first candidate without reasons. The claim does what it says exactly if the
calls before the claim commit and the selection is confirmed by the store they leave. -/
theorem preview_agrees_iff {E : Env} {d : Dispatcher} {db : Db} {next : Dispatcher.NextCall}
    {selected : Option Dispatcher.FrontierItem} (hsha : ∀ s, validDigest (E.sha s) = true)
    (hd : Dispatcher.init E.sha next.claim.files db = .ok d) (hfresh : Dispatcher.FreshRun db next.claim.runId)
    (hidle : ∀ item ∈ db.activeRuns, item.2.workerId ≠ next.workerId)
    (hexplain : d.explainNext E db next.claim.observed next.capabilities next.resource = .ok selected) :
    (∃ ctx, d.frontierContext E db next.capabilities = .ok ctx ∧
      Dispatcher.Selects E d db next.claim.observed ctx next.resource selected) ∧
    (Dispatcher.Agrees E d next db selected ↔ ∃ settled ctx, Dispatcher.Prepared E d next db settled ctx ∧
      Dispatcher.Confirmed E d next settled ctx selected) := by
  obtain ⟨hfilter,ctx,hctx,hselects,hreasons⟩ := Dispatcher.explainNext_eq_ok hexplain
  refine ⟨⟨ctx,hctx,hselects⟩,?_⟩
  cases selected with
  | some item =>
    rw [Dispatcher.Agrees,Dispatcher.claims_iff hsha hfresh hidle]
    constructor
    · rintro ⟨settled,ctx,before,task,after,hprepared,h⟩
      exact ⟨settled,ctx,hprepared,before,task,after,h⟩
    · rintro ⟨settled,ctx,hprepared,before,task,after,h⟩
      exact ⟨settled,ctx,before,task,after,hprepared,h⟩
  | none =>
    have hsettles {settled : Db} (hstore : next.prepare E db = .ok settled) : db.Settles settled :=
      (Dispatcher.NextCall.prepare_settles hstore).1
    constructor
    · rintro ⟨rejected,herror⟩
      obtain ⟨hgate,settled,hstore⟩ := Dispatcher.prepared_of_ineligible hfilter herror
      obtain ⟨ctx',hctx',hreasons'⟩ := Dispatcher.exists_reasons_of_settles hd (hsettles hstore) hctx hreasons
      have hprepared : Dispatcher.Prepared E d next db settled ctx' := ⟨hfilter,hgate,hstore,hctx'⟩
      refine ⟨settled,ctx',hprepared,(Dispatcher.ineligible_iff hprepared ?_ hreasons').mp ⟨rejected,herror⟩⟩
      exact Dispatcher.idle_of_settles (hsettles hstore) hidle
    · rintro ⟨settled,ctx',hprepared,hconfirmed⟩
      obtain ⟨found,hfound,hreasons'⟩ :=
        Dispatcher.exists_reasons_of_settles hd (hsettles hprepared.store) hctx hreasons
      obtain rfl := Except.ok.inj (hfound.symm.trans hprepared.context)
      refine (Dispatcher.ineligible_iff hprepared ?_ hreasons').mpr hconfirmed
      exact Dispatcher.idle_of_settles (hsettles hprepared.store) hidle

namespace Sample

def cappedTask : Task := { task with capabilities := ["gpu"] }

def cappedFiles (policy : String) : Registry := { files with
  tasks := Std.ExtTreeMap.ofList [("T-1",cappedTask),("T-2",secondTask)]
  queuePolicy := policy }

def cappedCall (policy : String) : Dispatcher.NextCall :=
  nextCall ⟨cappedFiles policy,observed,2,"RUN-1",.null⟩

def waiting : Db := run (step env contracts) (Db.fresh env.sha) [.registerWorker 1 "other" "codex" []]

theorem waiting_tables : waiting.runs = ∅ ∧ waiting.reservations = ∅ := by
  decide +kernel

theorem waiting_fresh : Dispatcher.FreshRun waiting "RUN-1" where
  named := by decide
  row := by simp [waiting_tables.1]
  held := by simp [Db.heldBy,waiting_tables.2]
  dispatch := by simp [waiting_tables.1]

theorem waiting_idle : ∀ item ∈ waiting.activeRuns, item.2.workerId ≠ "worker" := by
  intro item hitem
  have hrow := (Db.mem_activeRuns.mp hitem).1
  simp [waiting_tables.1] at hrow

/-- The preview selects the second task, which is the first eligible one for the claim too. -/
theorem cappedFiles_preview : ∀ policy ∈ ["strict","best-effort"], ∃ d item settled ctx,
    Dispatcher.init env.sha (cappedFiles policy) waiting = .ok d ∧ d.registry.queuePolicy = policy ∧
      d.explainNext env waiting observed [] none = .ok (some item) ∧ item.task.id = "T-2" ∧
      Dispatcher.Prepared env d (cappedCall policy) waiting settled ctx ∧
      Dispatcher.FirstEligible env d settled observed ctx none [cappedTask] secondTask [] := by
  intro policy hpolicy
  have hinit : (Dispatcher.init env.sha (cappedFiles policy) waiting).toOption.any (fun d =>
      d.registry.queuePolicy = policy && d.orderedTasks = [cappedTask,secondTask] &&
        ((d.explainNext env waiting observed [] none).toOption.any fun selected =>
          selected.any fun item => item.task.id = "T-2") &&
        ((cappedCall policy).prepare env waiting).toOption.any fun settled =>
          (d.claimContext env (cappedCall policy).claim settled []).toOption.any fun ctx =>
            d.reasons env settled observed ctx secondTask = .ok [] &&
              (d.reasons env settled observed ctx cappedTask).toOption.any fun reasons => !reasons.isEmpty) = true := by
    revert policy
    decide +kernel
  simp only [Option.any_eq_true,Bool.and_eq_true,decide_eq_true_eq,toOption_eq_some] at hinit
  obtain ⟨d,hd,⟨⟨hqueue,horder⟩,_,hexplain,item,rfl,hid⟩,settled,hstore,ctx,hctx,hfree,reasons,hreasons,hne⟩ := hinit
  refine ⟨d,item,settled,ctx,hd,hqueue,hexplain,hid,⟨rfl,rfl,hstore,hctx⟩,horder,rfl,hfree,fun other hother _ => ?_⟩
  obtain rfl := List.mem_singleton.mp hother
  exact ⟨reasons,hreasons,by simpa [List.isEmpty_iff] using hne⟩

end Sample

theorem preview_agrees_best_effort : ∃ d item,
    Dispatcher.init Sample.env.sha (Sample.cappedFiles "best-effort") Sample.waiting = .ok d ∧
      d.explainNext Sample.env Sample.waiting Sample.observed [] none = .ok (some item) ∧ item.task.id = "T-2" ∧
      d.Claims Sample.env (Sample.cappedCall "best-effort") Sample.waiting "T-2" := by
  obtain ⟨d,item,settled,ctx,hd,hqueue,hexplain,hid,hprepared,hfirst⟩ :=
    Sample.cappedFiles_preview "best-effort" (by simp)
  have hinit : Dispatcher.init Sample.env.sha (Sample.cappedCall "best-effort").claim.files Sample.waiting = .ok d := hd
  have hagrees := (preview_agrees_iff Sample.validDigest_sha hinit Sample.waiting_fresh Sample.waiting_idle
    hexplain).2.mpr ⟨settled,ctx,hprepared,[Sample.cappedTask],Sample.secondTask,[],hfirst,?_,
      Sample.writable_secondTask _ _ ctx,hid.symm⟩
  · exact ⟨d,item,hd,hexplain,hid,hid ▸ hagrees⟩
  · exact fun hstrict => absurd (hqueue.symm.trans hstrict) (by decide)

/-- In strict order the preview selects a task behind a blocked one, and the claim finds none. -/
theorem preview_past_blocked_task : ∃ d item,
    Dispatcher.init Sample.env.sha (Sample.cappedFiles "strict") Sample.waiting = .ok d ∧
      d.explainNext Sample.env Sample.waiting Sample.observed [] none = .ok (some item) ∧ item.task.id = "T-2" ∧
      d.claimNextCall Sample.env (Sample.cappedCall "strict") Sample.waiting =
        .error (.noEligibleTask [("T-1",["missing capabilities: gpu"])]) := by
  obtain ⟨d,item,_,_,hd,_,hexplain,hid,_,_⟩ := Sample.cappedFiles_preview "strict" (by simp)
  refine ⟨d,item,hd,hexplain,hid,?_⟩
  have hclaim : (Dispatcher.init Sample.env.sha (Sample.cappedFiles "strict") Sample.waiting).toOption.any (fun d =>
      match d.claimNextCall Sample.env (Sample.cappedCall "strict") Sample.waiting with
      | .error e => e = .noEligibleTask [("T-1",["missing capabilities: gpu"])]
      | .ok _ => false) = true := by
    decide +kernel
  rw [hd] at hclaim
  simp only [Except.toOption,Option.any_some] at hclaim
  split at hclaim
  · next e he => rw [he,decide_eq_true_eq.mp hclaim]
  · simp at hclaim

-- a run whose worker has gone silent hides its task from the preview; the claim orphans it first
example : ((Sample.strictQueue .verified).explainNext Sample.env Sample.silent Sample.observed [] none).toOption.any
      Option.isNone = true ∧
    ((Sample.strictQueue .verified).claimNextCall Sample.env
      (Sample.nextCall (Sample.strictCall .verified 2000 "RUN-1"))
      Sample.silent).toOption.any (fun result => result.1 = some (.claimed "RUN-1")) = true := by
  decide +kernel

end Bureau
