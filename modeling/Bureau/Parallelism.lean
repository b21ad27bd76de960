import Bureau.ClaimCurrency
import Bureau.MutualExclusion

/-!
Parallelism. A run becomes active only when it is claimed or resumed. Both check the unique indexes
over the active runs and count the active runs of the initiative.
-/

namespace Bureau

open Transactions

variable {db db' : Db} {runId : String} {row : RunRow} {kind : Kind} {resources : Resources} {sha : Sha}
    {initiative : Initiative} {reasons : List Reason} {registry : Registry} {op : Op} {K : Contracts} {E : Env}

namespace Registry

def Keyed (registry : Registry) : Prop :=
  ∀ (id : String) (task : Task), registry.tasks[id]? = some task → task.id = id

def activeRunsOf (registry : Registry) (db : Db) (initiative : String) : List (String × RunRow) :=
  db.activeRuns.filter fun item => (registry.tasks[item.2.taskId]?).any (·.initiative = initiative)

def countsFor (registry : Registry) (initiative : String) (row : RunRow) : Bool :=
  row.state.active && (registry.tasks[row.taskId]?).any (·.initiative = initiative)

theorem length_activeRunsOf (registry : Registry) (db : Db) (initiative : String) :
    (registry.activeRunsOf db initiative).length =
      (Tables.matching (registry.countsFor initiative) db.runs).card := by
  rw [Tables.card_matching,activeRunsOf,Db.activeRuns,List.filter_filter]
  congr 2
  funext item
  exact Bool.and_comm _ _

end Registry

structure Db.Parallel (registry : Registry) (db : Db) : Prop where
  tasks : ∀ a ∈ db.activeRuns, ∀ b ∈ db.activeRuns, a.2.taskId = b.2.taskId → a.1 = b.1
  workers : ∀ a ∈ db.activeRuns, ∀ b ∈ db.activeRuns, a.2.workerId = b.2.workerId → a.1 = b.1
  initiatives : ∀ (id : String) (initiative : Initiative), registry.initiatives[id]? = some initiative →
    0 ≤ initiative.maxActiveTasks → ((registry.activeRunsOf db id).length : ℤ) ≤ initiative.maxActiveTasks

def Db.StartsNone (db db' : Db) : Prop :=
  ∀ item ∈ db'.activeRuns, ∃ row, (item.1,row) ∈ db.activeRuns ∧ row.taskId = item.2.taskId ∧
    row.workerId = item.2.workerId

/-- One run becomes active: it has a task and a worker of its own, and there is room in its initiative. -/
structure Db.Starts (registry : Registry) (db db' : Db) (runId : String) (row : RunRow) : Prop where
  active : ∀ item ∈ db'.activeRuns, item ∈ db.activeRuns ∨ item = (runId,row)
  distinct : ∀ item ∈ db.activeRuns, item.1 = runId ∨
    item.2.taskId ≠ row.taskId ∧ item.2.workerId ≠ row.workerId
  room : ∀ (id : String) (initiative : Initiative), (registry.tasks[row.taskId]?).any (·.initiative = id) = true →
    registry.initiatives[id]? = some initiative →
    ((registry.activeRunsOf db id).length : ℤ) < initiative.maxActiveTasks

section Limits

variable {registry : Registry} {db db' : Db}

theorem Db.Parallel.fresh (sha : Sha) : (Db.fresh sha).Parallel registry := by
  have hnone : (Db.fresh sha).activeRuns = [] := by simp [Db.activeRuns,Db.fresh]
  refine ⟨?_,?_,?_⟩
  · simp [hnone]
  · simp [hnone]
  · intro id initiative _ hlimit
    simpa [Registry.activeRunsOf,hnone] using hlimit

theorem Db.StartsNone.parallel (h : db.StartsNone db') (hdb : db.Parallel registry) : db'.Parallel registry := by
  refine ⟨fun a ha b hb htask => ?_,fun a ha b hb hworker => ?_,fun id initiative hget hlimit => ?_⟩
  · obtain ⟨rowA,hrowA,htaskA,_⟩ := h a ha
    obtain ⟨rowB,hrowB,htaskB,_⟩ := h b hb
    exact hdb.tasks (a.1,rowA) hrowA (b.1,rowB) hrowB (htaskA.trans (htask.trans htaskB.symm))
  · obtain ⟨rowA,hrowA,_,hworkerA⟩ := h a ha
    obtain ⟨rowB,hrowB,_,hworkerB⟩ := h b hb
    exact hdb.workers (a.1,rowA) hrowA (b.1,rowB) hrowB (hworkerA.trans (hworker.trans hworkerB.symm))
  · have hbefore := hdb.initiatives id initiative hget hlimit
    rw [Registry.length_activeRunsOf] at hbefore ⊢
    have hsubset : Tables.matching (registry.countsFor id) db'.runs ⊆
        Tables.matching (registry.countsFor id) db.runs := by
      intro runId hrun
      obtain ⟨row',hrow',hcounts⟩ := Tables.mem_matching.mp hrun
      obtain ⟨hactive,hinitiative⟩ := Bool.and_eq_true_iff.mp hcounts
      obtain ⟨row,hrow,htask,_⟩ := h (runId,row') (Db.mem_activeRuns.mpr ⟨hrow',hactive⟩)
      obtain ⟨hget,hactive⟩ := Db.mem_activeRuns.mp hrow
      refine Tables.mem_matching.mpr ⟨row,hget,?_⟩
      rw [Registry.countsFor,hactive,htask]
      exact hinitiative
    have hcard := Finset.card_le_card hsubset
    omega

theorem Db.Starts.parallel (h : Db.Starts registry db db' runId row) (hdb : db.Parallel registry) :
    db'.Parallel registry := by
  refine ⟨fun a ha b hb htask => ?_,fun a ha b hb hworker => ?_,fun id initiative hget hlimit => ?_⟩
  · rcases h.active a ha with hbeforeA | rfl <;> rcases h.active b hb with hbeforeB | rfl
    · exact hdb.tasks a hbeforeA b hbeforeB htask
    · exact (h.distinct a hbeforeA).resolve_right fun hne => hne.1 htask
    · exact ((h.distinct b hbeforeB).resolve_right fun hne => hne.1 htask.symm).symm
    · rfl
  · rcases h.active a ha with hbeforeA | rfl <;> rcases h.active b hb with hbeforeB | rfl
    · exact hdb.workers a hbeforeA b hbeforeB hworker
    · exact (h.distinct a hbeforeA).resolve_right fun hne => hne.2 hworker
    · exact ((h.distinct b hbeforeB).resolve_right fun hne => hne.2 hworker.symm).symm
    · rfl
  · have hbefore := hdb.initiatives id initiative hget hlimit
    have hroom := h.room id initiative
    rw [Registry.length_activeRunsOf] at hbefore hroom ⊢
    -- the runs that count are those that counted before, and perhaps the new one
    have hcases : ∀ other ∈ Tables.matching (registry.countsFor id) db'.runs,
        other ∈ Tables.matching (registry.countsFor id) db.runs ∨
          other = runId ∧ registry.countsFor id row = true := by
      intro other hother
      obtain ⟨row',hrow',hcounts⟩ := Tables.mem_matching.mp hother
      have hactive := (Bool.and_eq_true_iff.mp hcounts).1
      rcases h.active (other,row') (Db.mem_activeRuns.mpr ⟨hrow',hactive⟩) with hmem | hnew
      · exact .inl (Tables.mem_matching.mpr ⟨row',(Db.mem_activeRuns.mp hmem).1,hcounts⟩)
      · obtain ⟨rfl,rfl⟩ := Prod.mk.inj hnew
        exact .inr ⟨rfl,hcounts⟩
    by_cases hcounts : registry.countsFor id row = true
    · have hsubset : Tables.matching (registry.countsFor id) db'.runs ⊆
          insert runId (Tables.matching (registry.countsFor id) db.runs) := by
        intro other hother
        rcases hcases other hother with hmem | ⟨rfl,_⟩
        · exact Finset.mem_insert_of_mem hmem
        · exact Finset.mem_insert_self other _
      have hfree := hroom (Bool.and_eq_true_iff.mp hcounts).2 hget
      have hcard := Finset.card_le_card hsubset
      have hinsert := Finset.card_insert_le runId (Tables.matching (registry.countsFor id) db.runs)
      omega
    · have hsubset : Tables.matching (registry.countsFor id) db'.runs ⊆
          Tables.matching (registry.countsFor id) db.runs := by
        intro other hother
        exact (hcases other hother).resolve_right fun hnew => hcounts hnew.2
      have hcard := Finset.card_le_card hsubset
      omega

end Limits

theorem RunStep.activeBefore {v v' : RunView} {row' : RunRow} (h : RunStep resources db runId kind v v')
    (hkind : kind ≠ .claim ∧ kind ≠ .resume) (hrow' : v'.row = some row') (hactive : row'.state.active = true) :
    ∃ row, v.row = some row ∧ row.state.active = true ∧ row.identity = row'.identity := by
  cases h with
  | idle => exact ⟨row',hrow',hactive,rfl⟩
  | @update row _ _ _ _ identity state =>
    cases hrow'
    refine ⟨row,rfl,?_,identity.symm⟩
    rcases state with hsame | ⟨hbefore,_⟩
    · rwa [← hsame]
    · exact hbefore
  | finish identity active failure =>
    cases hrow'
    simp [(failureStates_not_active failure).1] at hactive
  | claim => exact absurd rfl hkind.1
  | resume => exact absurd rfl hkind.2
  | expand identity active => cases hrow'; exact ⟨_,rfl,active,identity.symm⟩
  | complete identity state succeeded =>
    cases hrow'
    simp [succeeded,RunState.active] at hactive

theorem Move.startsNone (h : Move sha resources kind db db') (hkind : kind ≠ .claim ∧ kind ≠ .resume) :
    db.StartsNone db' := by
  rintro ⟨runId,row'⟩ hitem
  obtain ⟨hget,hactive⟩ := Db.mem_activeRuns.mp hitem
  obtain ⟨changed,hothers,hchanged⟩ := h.views
  have hsame (hview : db'.view runId = db.view runId) : ∃ row, (runId,row) ∈ db.activeRuns ∧
      row.taskId = row'.taskId ∧ row.workerId = row'.workerId := by
    have hrows : db'.runs[runId]? = db.runs[runId]? := congrArg RunView.row hview
    exact ⟨row',Db.mem_activeRuns.mpr ⟨hrows ▸ hget,hactive⟩,rfl,rfl⟩
  by_cases hrun : runId = changed
  · subst hrun
    rcases hchanged with hview | hstep
    · exact hsame hview
    · obtain ⟨row,hrow,hbefore,hidentity⟩ := hstep.activeBefore hkind hget hactive
      exact ⟨row,Db.mem_activeRuns.mpr ⟨hrow,hbefore⟩,congrArg RunIdentity.taskId hidentity,
        congrArg RunIdentity.workerId hidentity⟩
  · exact hsame (hothers runId hrun)

theorem Db.activeUnique_eq_ok (h : db.activeUnique runId row = .ok ()) : ∀ item ∈ db.activeRuns, item.1 = runId ∨
      item.2.taskId ≠ row.taskId ∧ item.2.workerId ≠ row.workerId := by
  simp only [Db.activeUnique,steps_ok,List.all_eq_true,Bool.or_eq_true,decide_eq_true_eq] at h
  obtain ⟨_,htask,hworker⟩ := h
  intro item hitem
  by_cases hrun : item.1 = runId
  · exact .inl hrun
  · exact .inr ⟨(htask item hitem).resolve_left hrun,(hworker item hitem).resolve_left hrun⟩

theorem Db.activeRuns_insert (h : db'.runs = db.runs.insert runId row) :
    ∀ item ∈ db'.activeRuns, item ∈ db.activeRuns ∨ item = (runId,row) := by
  rintro ⟨other,row'⟩ hitem
  obtain ⟨hget,hactive⟩ := Db.mem_activeRuns.mp hitem
  rw [h,Tables.get_insert] at hget
  split at hget
  · rename_i hrun
    exact .inr (Prod.ext hrun (Option.some.inj hget).symm)
  · exact .inl (Db.mem_activeRuns.mpr ⟨hget,hactive⟩)

theorem stateStoreInitiativeRegistry_limit {files fresh : Registry} {id : String}
    (h : stateStoreInitiativeRegistry files db = .ok fresh) (hget : fresh.initiatives[id]? = some initiative) :
    ∃ declared, files.initiatives[id]? = some declared ∧ declared.maxActiveTasks = initiative.maxActiveTasks := by
  simp only [stateStoreInitiativeRegistry,steps_ok] at h
  obtain ⟨_,_,rfl⟩ := h
  simp only [Std.ExtTreeMap.getElem?_map,Option.map_eq_some_iff] at hget
  obtain ⟨declared,hdeclared,rfl⟩ := hget
  refine ⟨declared,hdeclared,?_⟩
  split <;> rfl

theorem authoritativeTaskRegistry_limit {files fresh : Registry} {authority : Authority}
    {revisions : Table RevisionRef} {id : String}
    (h : authoritativeTaskRegistry sha files db = .ok (fresh,authority,revisions))
    (hget : fresh.initiatives[id]? = some initiative) :
    ∃ declared, files.initiatives[id]? = some declared ∧ declared.maxActiveTasks = initiative.maxActiveTasks := by
  simp only [authoritativeTaskRegistry,bind_eq_ok] at h
  obtain ⟨base,hbase,specs,_,h⟩ := h
  refine stateStoreInitiativeRegistry_limit hbase ?_
  split at h
  · simp only [pure_eq_ok,Prod.mk.injEq] at h
    rw [h.1]
    exact hget
  · simp only [steps_ok,Prod.mk.injEq] at h
    obtain ⟨_,_,_,_,rfl,_⟩ := h
    exact hget

namespace Dispatcher

variable {E : Env} {d : Dispatcher} {registry : Registry} {db db' : Db}

/-- A task whose reasons are at most about its execution policy has room in its initiative. -/
theorem room_of_reviewed {observed : Observed} {ctx : ClaimContext} {task : Task}
    (h : d.reasons E db observed ctx task = .ok reasons) (hreviewed : reviewedReasons task reasons = []) :
    ∃ initiative, ctx.initiatives[task.initiative]? = some initiative ∧
      (d.activeForInitiative ctx.runs task.initiative : ℤ) < initiative.maxActiveTasks := by
  simp only [Dispatcher.reasons,baseReasons,steps_ok] at h
  obtain ⟨base,⟨initiative,hinitiative,_,_,rfl⟩,rfl⟩ := h
  refine ⟨initiative,hinitiative,?_⟩
  by_contra hfull
  have hlimit : Reason.parallelLimit initiative.maxActiveTasks ∈ d.parallelReasons ctx.runs task initiative := by
    rw [parallelReasons,if_pos (by omega)]
    exact List.mem_singleton_self _
  have hkept := List.eq_nil_iff_forall_not_mem.mp hreviewed (.parallelLimit initiative.maxActiveTasks)
  simp [reviewedReasons,hlimit] at hkept

theorem starts_of_reviewed {observed : Observed} {ctx : ClaimContext} {task : Task}
    (htasks : d.registry.tasks = registry.tasks) (hruns : ctx.runs = db.activeRuns)
    (hlimits : ∀ (id : String) (initiative : Initiative), ctx.initiatives[id]? = some initiative →
      ∃ declared, registry.initiatives[id]? = some declared ∧ declared.maxActiveTasks = initiative.maxActiveTasks)
    (htask : registry.tasks[row.taskId]? = some task) (hreasons : d.reasons E db observed ctx task = .ok reasons)
    (hreviewed : reviewedReasons task reasons = []) (hwritten : db'.runs = db.runs.insert runId row)
    (hunique : ∀ item ∈ db.activeRuns, item.1 = runId ∨
      item.2.taskId ≠ row.taskId ∧ item.2.workerId ≠ row.workerId) : Db.Starts registry db db' runId row := by
  refine ⟨Db.activeRuns_insert hwritten,hunique,fun id initiative hinitiative hget => ?_⟩
  obtain rfl : task.initiative = id := by simpa [htask] using hinitiative
  obtain ⟨found,hfound,hroom⟩ := room_of_reviewed hreasons hreviewed
  obtain ⟨declared,hdeclared,hlimit⟩ := hlimits _ _ hfound
  obtain rfl := Option.some.inj (hdeclared.symm.trans hget)
  rw [activeForInitiative,hruns,htasks,← hlimit] at hroom
  exact hroom

theorem claimContext_limits {call : ClaimCall} {capabilities : List String} {ctx : ClaimContext}
    (h : d.claimContext E call db capabilities = .ok ctx) :
    ctx.runs = db.activeRuns ∧ ∀ (id : String) (initiative : Initiative), ctx.initiatives[id]? = some initiative →
      ∃ declared, call.files.initiatives[id]? = some declared ∧
        declared.maxActiveTasks = initiative.maxActiveTasks := by
  simp only [claimContext,steps_ok] at h
  obtain ⟨_,_,fresh,hfresh,rfl⟩ := h
  exact ⟨rfl,fun id initiative => stateStoreInitiativeRegistry_limit hfresh⟩

theorem writeClaim_runs (workers : Table Worker) {now : Time} {task : Task} {eventType : EventType} {payload : Json}
    (h : writeClaim E { db with workers := workers } now runId task row eventType payload = .ok db') :
    db'.runs = db.runs.insert runId row ∧ ∀ item ∈ db.activeRuns, item.1 = runId ∨
      item.2.taskId ≠ row.taskId ∧ item.2.workerId ≠ row.workerId := by
  simp only [writeClaim,bind_eq_ok,requireNone_eq_ok] at h
  obtain ⟨_,_,inserted,hinsert,reserved,hreserve,hevent⟩ := h
  obtain ⟨_,rfl⟩ := Db.event_extends hevent
  obtain ⟨⟨_,rfl⟩,_,_⟩ := Db.insertReservations_reserves hreserve
  obtain ⟨_,rfl⟩ := insertRun_eq_ok hinsert
  simp only [Db.insertRun,bind_eq_ok] at hinsert
  obtain ⟨_,_,_,_,_,hunique,_⟩ := hinsert
  exact ⟨rfl,Db.activeUnique_eq_ok hunique⟩

theorem WrittenClaim.starts {call : ClaimCall} {task : Task} (h : WrittenClaim E d call db db' task runId row)
    (hkeyed : registry.Keyed) (htasks : d.registry.tasks = registry.tasks)
    (hfiles : call.files.initiatives = registry.initiatives) : Db.Starts registry db db' runId row := by
  obtain ⟨id,hlisted⟩ := h.listed
  rw [htasks] at hlisted
  obtain rfl := hkeyed id task hlisted
  rw [← h.row.1] at hlisted
  obtain ⟨_,ctx,reasons,hctx,hreasons,hreviewed⟩ := h.eligible
  obtain ⟨hruns,hlimits⟩ := claimContext_limits hctx
  rw [hfiles] at hlimits
  obtain ⟨workers,_,_,_,hwrite⟩ := h.written
  obtain ⟨hwritten,hunique⟩ := writeClaim_runs workers hwrite
  exact starts_of_reviewed htasks hruns hlimits hlisted hreasons hreviewed hwritten hunique

theorem resumeOrphanedRun_starts {call : CoordinatedCall} {unchanged : Bool} {request : ResumeRequest}
    (h : d.resumeOrphanedRun E call unchanged request db = .ok db') (htasks : d.registry.tasks = registry.tasks)
    (hfiles : call.claim.files.initiatives = registry.initiatives)
    (hcurrent : ∀ fresh authority revisions,
      authoritativeTaskRegistry E.sha call.claim.files db = .ok (fresh,authority,revisions) →
        fresh.tasks = registry.tasks) :
    ∃ row, Db.Starts registry db db' request.runId row := by
  simp only [resumeOrphanedRun,steps_ok,Option.filter_eq_some_iff] at h
  obtain ⟨_,_,_,_,_,_,row,hrow,_,_,intent,_,⟨fresh,authority,revisions⟩,hfresh,task,⟨htask,_⟩,plan,_,_,_,_,
    _,overlay,_,reasons,hreasons,_,hreviewed,_,_,lease,_,_,hunique,reserved,hreserve,first,hfirst,hsecond⟩ := h
  rw [hcurrent _ _ _ hfresh] at htask
  let assigned : RunRow :=
    { row with state := .assigned, error := none, heartbeatAt := call.claim.now, updatedAt := call.claim.now }
  have hlimits : ∀ (id : String) (initiative : Initiative), fresh.initiatives[id]? = some initiative →
      ∃ declared, registry.initiatives[id]? = some declared ∧
        declared.maxActiveTasks = initiative.maxActiveTasks := by
    intro id initiative hget
    rw [← hfiles]
    exact authoritativeTaskRegistry_limit hfresh hget
  have hwritten : db'.runs = db.runs.insert request.runId assigned := by
    obtain ⟨_,rfl⟩ := Db.event_extends hsecond
    obtain ⟨_,rfl⟩ := Db.event_extends hfirst
    obtain ⟨⟨_,rfl⟩,_,_⟩ := Db.insertReservations_reserves hreserve
    rw [Db.runs_extend,Db.runs_extend]
    unfold Db.touchWorker
    split <;> rfl
  have hstarts : Db.Starts registry db db' request.runId assigned :=
    starts_of_reviewed htasks rfl hlimits htask hreasons (List.isEmpty_iff.mp hreviewed) hwritten
      (Db.activeUnique_eq_ok hunique)
  exact ⟨assigned,hstarts⟩

end Dispatcher

/-- The operation works on the fixed registry: its dispatcher lists these tasks, and what it reads
again declares the same tasks and initiatives. -/
def Op.worksOn (E : Env) (registry : Registry) (db : Db) : Op → Prop
  | .claimNext d call _ _ => d.registry.tasks = registry.tasks ∧ call.files.initiatives = registry.initiatives
  | .commitClaimIntent d call _ =>
    d.registry.tasks = registry.tasks ∧ call.claim.files.initiatives = registry.initiatives
  | .resumeOrphanedRun d call _ _ =>
    d.registry.tasks = registry.tasks ∧ call.claim.files.initiatives = registry.initiatives ∧
      ∀ fresh authority revisions,
        authoritativeTaskRegistry E.sha call.claim.files db = .ok (fresh,authority,revisions) →
          fresh.tasks = registry.tasks
  | _ => True

theorem apply_startsNone (hkind : op.kind ≠ .claim ∧ op.kind ≠ .resume) (h : op.apply E K db = .ok db')
    (hdb : db.Parallel registry) : db'.Parallel registry := by
  rcases apply_moves op.planned_self h with hsingle | hroutine
  · exact (hsingle.startsNone hkind).parallel hdb
  · clear h
    induction hroutine with
    | refl => exact hdb
    | tail _ hmove ih =>
      obtain ⟨kind,hmove,hresume,_,_,_,hclaim,_⟩ := hmove.kind_ne
      exact (hmove.startsNone ⟨hclaim,hresume⟩).parallel ih

theorem step_parallel (hkeyed : registry.Keyed) (hop : op.worksOn E registry db) (h : db.Parallel registry) :
    (step E K db op).Parallel registry := by
  refine commit_preserves h fun db' hdb' => ?_
  cases op with
  | claimNext d call workerId filter =>
    obtain ⟨_,hclaim⟩ := map_snd_eq_ok.mp hdb'
    rcases Dispatcher.claimNext_writes hclaim with rfl | ⟨task,runId,row,hwritten⟩
    · exact h
    · exact (hwritten.starts hkeyed hop.1 hop.2).parallel h
  | commitClaimIntent d call intent =>
    obtain ⟨_,hclaim⟩ := map_snd_eq_ok.mp hdb'
    rcases Dispatcher.commitClaimIntent_writes hclaim with rfl | ⟨task,runId,row,hwritten⟩
    · exact h
    · exact (hwritten.starts hkeyed hop.1 hop.2).parallel h
  | resumeOrphanedRun d call unchanged request =>
    obtain ⟨row,hstarts⟩ := Dispatcher.resumeOrphanedRun_starts hdb' hop.1 hop.2.1 hop.2.2
    exact hstarts.parallel h
  | _ => exact apply_startsNone (by simp [Op.kind]) hdb' h

/-- In every run of operations over a fixed registry a task and a worker have at most one active run,
and an initiative at most as many as it declares. -/
theorem parallelism_limited {E : Env} {K : Contracts} {registry : Registry} (hkeyed : registry.Keyed) {db : Db}
    (h : Reach (step E K) (fun db op => op.worksOn E registry db) (Db.fresh E.sha) db) : db.Parallel registry :=
  h.invariant (P := fun db => db.Parallel registry) (.fresh E.sha) fun _ _ hparallel hop =>
    step_parallel hkeyed hop hparallel

namespace Sample

/-- Three tasks that read one repository, in an initiative for two. -/
def crowd : Dispatcher where
  registry := { files with
    tasks := Std.ExtTreeMap.ofList [("T-1",reader "T-1" "repo.a"),("T-2",reader "T-2" "repo.a"),
      ("T-3",reader "T-3" "repo.a")] }
  authority := .legacyGitBootstrap
  revisions := ∅

def claimFrom (d : Dispatcher) (now : Time) (runId workerId : String) : Op :=
  .claimNext d ⟨d.registry,observed,now,runId,.null⟩ workerId none

def rush : List Op :=
  [.registerWorker 1 "a" "codex" [],.registerWorker 1 "b" "codex" [],.registerWorker 1 "c" "codex" [],
    claimFrom crowd 2 "RUN-1" "a",claimFrom crowd 3 "RUN-2" "b",claimFrom crowd 4 "RUN-3" "c"]

def rushed : Db := run (step env contracts) (Db.fresh env.sha) rush

theorem crowd_keyed : crowd.registry.Keyed := by
  intro id task htask
  have hmem := (Tables.get_ofList (by decide) id task).mp htask
  simp only [List.mem_cons,Prod.mk.injEq,List.not_mem_nil,or_false] at hmem
  rcases hmem with ⟨rfl,rfl⟩ | ⟨rfl,rfl⟩ | ⟨rfl,rfl⟩ <;> rfl

end Sample

theorem parallelism_limited_rush :
    (Sample.crowd.registry.activeRunsOf Sample.rushed "I-1").map Prod.fst = ["RUN-1","RUN-2"] ∧
      Sample.rushed.Parallel Sample.crowd.registry := by
  have hruns : (Sample.crowd.registry.activeRunsOf Sample.rushed "I-1").map Prod.fst = ["RUN-1","RUN-2"] := by
    decide +kernel
  have hreach : Reach (step Sample.env Sample.contracts)
      (fun db op => op.worksOn Sample.env Sample.crowd.registry db) (Db.fresh Sample.env.sha) Sample.rushed := by
    refine Reach.run fun op hop db => ?_
    simp only [Sample.rush,List.mem_cons,List.not_mem_nil,or_false] at hop
    rcases hop with rfl | rfl | rfl | rfl | rfl | rfl
    · trivial
    · trivial
    · trivial
    · exact ⟨rfl,rfl⟩
    · exact ⟨rfl,rfl⟩
    · exact ⟨rfl,rfl⟩
  exact ⟨hruns,parallelism_limited Sample.crowd_keyed hreach⟩

end Bureau
