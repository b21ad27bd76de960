import Bureau.CurrentTasks

/-!
What a direct claim binds. The dispatcher plans from the TaskSpecs it read when it was built,
and the claim transaction does not compare them with the current ones. The run binds the
revision that was read; it is the current one where no put of the task came in between.
-/

namespace Bureau

open Transactions Relation TaskSpecs

def Op.leaves (id : String) : Op → Prop
  | .putTaskSpec _ spec _ _ _ | .putTaskSpecMaterial _ spec _ _ _ => spec.getStr? "id" ≠ some id
  | .reconcileLifecycle _ _ tasks _ => ∀ t ∈ tasks, t.taskId ≠ id
  | .noRunCloseout _ _ _ _ taskId => taskId ≠ id
  | _ => True

section Leaves

variable {E : Env} {sha : Sha} {db db' : Db} {id : String}

theorem TaskSpecs.getCurrent_put_ne {now : Time} {spec : Json} {key source : String} {expected : Option ℕ}
    {result : PutResult}
    (h : putValidatedMaterial sha now db spec key expected source = .ok (result,db'))
    (hid : spec.getStr? "id" ≠ some id) : getCurrent sha db' id = getCurrent sha db id := by
  cases putValidatedMaterial_effect h with
  | replay => rfl
  | known => rfl
  | @set next hdocument _ hnext =>
    have hne : id ≠ next.taskId := by
      rintro rfl
      exact hid (hdocument ▸ getStr?_of_canonicalSpecId hnext.id)
    rw [getCurrent_setRevision hnext,if_neg hne]

theorem applyTaskTransition_getCurrent_ne {now : Time} {t : TaskTransition}
    (h : applyTaskTransition E now db t = .ok db') (hid : t.taskId ≠ id) :
    getCurrent E.sha db' id = getCurrent E.sha db id := by
  simp only [applyTaskTransition,steps_ok] at h
  obtain ⟨_,hcurrent,current,rfl,_,_,spec,hspec,⟨result,written⟩,hput,rfl⟩ := h
  obtain ⟨_,_,_,_,hcanonical⟩ := getCurrent_eq_some hcurrent
  have hspecId : spec.getStr? "id" = some t.taskId := by
    rw [← getStr?_of_canonicalSpecId hcanonical]
    rcases transitionSpec_eq_ok hspec with rfl | ⟨_,rfl⟩
    · rw [Json.getStr?,Json.get?_set_ne _ _ (by decide),Json.getStr?]
    · rw [Json.getStr?,Json.get?_set_ne _ _ (by decide),Json.get?_set_ne _ _ (by decide),Json.getStr?]
  refine getCurrent_put_ne (put_eq_ok hput) ?_
  simpa [hspecId] using hid

theorem applyAll_getCurrent {α : Type} {apply : Db → α → Result Db} {items : List α}
    (happly : ∀ a ∈ items, ∀ db db', apply db a = .ok db' →
      getCurrent sha db' id = getCurrent sha db id)
    (h : applyAll apply items db = .ok db') :
    getCurrent sha db' id = getCurrent sha db id := by
  induction items generalizing db with
  | nil => rw [Except.ok.inj h]
  | cons a rest ih =>
    simp only [applyAll,bind_eq_ok] at h
    obtain ⟨mid,hfirst,hrest⟩ := h
    rw [ih (fun b hb => happly b (List.mem_cons_of_mem _ hb)) hrest,happly a List.mem_cons_self db mid hfirst]

theorem step_getCurrent {K : Contracts} {op : Op} (hop : op.leaves id) :
    getCurrent E.sha (step E K db op) id = getCurrent E.sha db id := by
  refine commit_preserves (P := fun after => getCurrent E.sha after id = _) rfl fun db' hdb' => ?_
  by_cases hpublishes : op.publishes = false
  · exact getCurrent_congr (apply_specs_eq hdb' hpublishes) id
  · cases op with
    | putTaskSpec now spec key expected source =>
      obtain ⟨_,hput⟩ := map_snd_eq_ok.mp hdb'
      exact getCurrent_put_ne (put_eq_ok hput) hop
    | putTaskSpecMaterial now spec key expected source =>
      obtain ⟨_,hput⟩ := map_snd_eq_ok.mp hdb'
      exact getCurrent_put_ne hput hop
    | reconcileLifecycle files now tasks initiatives =>
      simp only [Op.apply,reconcileInitiativeLifecycle,bind_eq_ok] at hdb'
      obtain ⟨mid,htasks,hinitiatives⟩ := hdb'
      rw [applyAll_getCurrent (fun t _ _ _ happly => getCurrent_congr
          (applyInitiativeTransition_specs happly) id) hinitiatives,
        applyAll_getCurrent (fun t ht _ _ happly => applyTaskTransition_getCurrent_ne happly (hop t ht)) htasks]
    | noRunCloseout files now material backfill taskId =>
      rcases applyTaskNoRunCloseout_eq_ok hdb' with hsame | ⟨spec,task,plan,_,_,_,_,written,hclose,hput,hspecs⟩
      · exact getCurrent_congr hsame id
      · obtain ⟨current,hcurrent,rfl⟩ := hclose.current
        obtain ⟨_,_,_,_,hcanonical⟩ := getCurrent_eq_some hcurrent
        have hclosed : (closedSpec current.spec (closeoutVerification E.sha material task.sha256 plan)).getStr? "id" =
            some taskId := by
          rw [← getStr?_of_canonicalSpecId hcanonical,closedSpec,Json.getStr?,
            Json.get?_set_ne _ _ (by decide),Json.get?_set_ne _ _ (by decide),Json.getStr?]
        rw [getCurrent_congr hspecs id]
        refine getCurrent_put_ne hput ?_
        exact fun heq => hop (Option.some.inj (hclosed.symm.trans heq))
    | _ => exact absurd rfl hpublishes

theorem run_getCurrent {K : Contracts} {ops : List Op} (hops : ∀ op ∈ ops, op.leaves id) :
    getCurrent E.sha (run (step E K) db ops) id = getCurrent E.sha db id := by
  induction ops generalizing db with
  | nil => rfl
  | cons op rest ih =>
    rw [run_cons,ih fun other hother => hops other (List.mem_cons_of_mem _ hother),
      step_getCurrent (hops op List.mem_cons_self)]

end Leaves

/-- Every row of `task_status` is terminal. -/
def Db.StatusTerminal (db : Db) : Prop :=
  ∀ (id : String) (row : TaskStatusRow), db.taskStatus[id]? = some row → row.state.terminal = true

theorem Move.statusTerminal {sha : Sha} {resources : Resources} {kind : Kind} {db db' : Db}
    (h : Move sha resources kind db db') (hkind : kind ≠ .normalize) (hterminal : db.StatusTerminal) :
    db'.StatusTerminal := by
  cases h with
  | run write taskStatus incomplete recorded ordinary journal =>
    obtain ⟨rows,rfl⟩ := Db.runEvents_extends journal
    intro id row hrow
    exact hterminal id row (taskStatus ▸ hrow)
  | @complete _ _ _ _ run _ write written taskStatus journal verified =>
    obtain ⟨rows,rfl⟩ := Db.event_extends journal
    intro id row hrow
    by_cases hid : id = run.taskId
    · rw [verified row (hid ▸ hrow)]
      rfl
    · exact hterminal id row ((taskStatus id hid).symm.trans hrow)
  | issue journal =>
    obtain ⟨rows,rfl⟩ := Db.event_extends journal
    exact hterminal
  | expand write taskStatus => exact fun id row hrow => hterminal id row (taskStatus ▸ hrow)
  | initiative journal =>
    obtain ⟨rows,rfl⟩ := Db.event_extends journal
    exact hterminal
  | task journal verified =>
    obtain ⟨rows,rfl⟩ := Db.appendTaskProjectionDelta_extends journal
    intro id row hrow
    rw [Db.taskStatus_extend,Tables.get_insert] at hrow
    split at hrow
    · cases hrow
      rw [verified]
      rfl
    · exact hterminal id row hrow
  | spec => exact hterminal
  | known => exact hterminal
  | quiet views taskStatus => exact fun id row hrow => hterminal id row (taskStatus ▸ hrow)
  | normalize => exact absurd rfl hkind
  | backfill => exact hterminal

theorem step_statusTerminal {E : Env} {K : Contracts} {db : Db} {op : Op} (hop : op.kind ≠ .normalize)
    (h : db.StatusTerminal) : (step E K db op).StatusTerminal := by
  refine commit_preserves h fun db' hdb' => ?_
  rcases apply_moves op.planned_self hdb' with hsingle | hroutine
  · exact hsingle.statusTerminal hop h
  · clear hdb'
    induction hroutine with
    | refl => exact h
    | tail _ hroutine ih =>
      obtain ⟨_,hmove,_,_,_,hnormalize,_⟩ := hroutine.kind_ne
      exact hmove.statusTerminal hnormalize ih

theorem run_statusTerminal {E : Env} {K : Contracts} {ops : List Op} (hops : ∀ op ∈ ops, op.kind ≠ .normalize) :
    (run (step E K) (Db.fresh E.sha) ops).StatusTerminal := by
  have hreach : Reach (step E K) (fun _ op => op.kind ≠ .normalize) (Db.fresh E.sha)
      (run (step E K) (Db.fresh E.sha) ops) := Reach.run fun op hop _ => hops op hop
  refine Reach.invariant (P := Db.StatusTerminal) ?_ (fun _ _ h hop => step_statusTerminal hop h) hreach
  intro id row hrow
  simp [Db.fresh] at hrow

/-- Over terminal rows the overlay gives a task no other open state than its own. -/
theorem overlayOf_open {E : Env} {registry : Registry} {db : Db} {task : Task} {overlay : Option TaskState}
    (h : overlayOf E registry db task = .ok overlay) (hterminal : db.StatusTerminal)
    (hopen : (overlay.getD task.state).terminal = false) (hstale : overlay.getD task.state ≠ .stale) :
    overlay.getD task.state = task.state := by
  unfold overlayOf at h
  split at h
  · cases h
    rfl
  · simp only [bind_eq_ok] at h
    obtain ⟨plan,hplan,h⟩ := h
    split at h
    · cases h
      rfl
    · rename_i row hrow
      have hclosed := hterminal task.id row hrow
      have hrefused : overlay = some row.state → False := by
        rintro rfl
        simp [hclosed] at hopen
      have hnotStale : overlay = some .stale → False := by
        rintro rfl
        exact hstale rfl
      split at h
      · exact (hrefused (Except.ok.inj h).symm).elim
      · split at h
        · split at h
          · simp only [bind_eq_ok] at h
            obtain ⟨binds,_,h⟩ := h
            split at h
            · exact (hrefused (Except.ok.inj h).symm).elim
            · exact (hnotStale (Except.ok.inj h).symm).elim
          · exact (hrefused (Except.ok.inj h).symm).elim
        · exact (hnotStale (Except.ok.inj h).symm).elim

namespace Dispatcher

variable {E : Env} {d : Dispatcher} {db db' : Db}

/-- The state a claimable task is in: ready, planned under the closure bridge, or stale with a ready
TaskSpec that is due for another verification. -/
theorem claimable_state {observed : Observed} {ctx : ClaimContext} {task : Task}
    (h : d.reasons E db observed ctx task = .ok []) :
    effectiveState ctx.overlay task.id task = .ready ∨
      (∃ initiative, closureBridgeApplies observed.closureBridgeTaskIds task
        (effectiveState ctx.overlay task.id task) initiative = true) ∨
      effectiveState ctx.overlay task.id task = .stale ∧ task.state = .ready := by
  simp only [reasons,baseReasons,steps_ok] at h
  obtain ⟨_,⟨initiative,_,_,_,rfl⟩,hnone⟩ := h
  simp only [lifecycleReasons,List.append_eq_nil_iff,ite_eq_right_iff,List.cons_ne_nil,imp_false] at hnone
  obtain ⟨⟨⟨⟨⟨⟨⟨⟨⟨⟨⟨⟨⟨-,hstate⟩,-⟩,-⟩,-⟩,-⟩,-⟩,-⟩,-⟩,-⟩,-⟩,-⟩,-⟩,-⟩ := hnone
  rw [not_and_or,not_and_or,not_not,not_not,not_not] at hstate
  rcases hstate with hready | hbridge | hreverify
  · exact .inl hready
  · exact .inr (.inl ⟨initiative,hbridge⟩)
  · simp only [reverificationCandidate,Bool.and_eq_true,decide_eq_true_eq] at hreverify
    exact .inr (.inr ⟨hreverify.1.1.1.1,hreverify.1.1.1.2⟩)

/-- A claim writes the run of a task of the snapshot that has no reason against it. -/
theorem claimNext_claimed {call : ClaimCall} {workerId runId : String} {resource : Option String}
    (h : d.claimNext E call workerId resource db = .ok (.claimed runId,db')) :
    ∃ (task : Task) (ctx : ClaimContext) (row : RunRow), task ∈ d.orderedTasks ∧
      overlays E d.registry db = .ok ctx.overlay ∧ d.reasons E db call.observed ctx task = .ok [] ∧
      db'.runs[runId]? = some row ∧ row.taskId = task.id ∧ row.taskSha256 = task.sha256 := by
  simp only [claimNext,steps_ok] at h
  obtain ⟨_,_,h⟩ := h
  split at h
  · simp [pure_eq_ok] at h
  · simp only [steps_ok,Prod.mk.injEq,ClaimOutcome.claimed.injEq] at h
    obtain ⟨_,_,worker,_,ctx,hctx,task,htask,initiative,_,written,hwrite,rfl,rfl⟩ := h
    obtain ⟨hmem,hreasons⟩ := selectTask_reasons htask
    have hoverlay : overlays E d.registry db = .ok ctx.overlay := by
      simp only [claimContext,steps_ok] at hctx
      obtain ⟨_,hoverlay,_,_,rfl⟩ := hctx
      exact hoverlay
    simp only [writeClaim,bind_eq_ok,requireNone_eq_ok] at hwrite
    obtain ⟨_,_,inserted,hinsert,reserved,hreserve,hevent⟩ := hwrite
    obtain ⟨_,rfl⟩ := insertRun_eq_ok hinsert
    obtain ⟨⟨_,rfl⟩,_,_⟩ := Db.insertReservations_reserves hreserve
    obtain ⟨rows,rfl⟩ := Db.event_extends hevent
    exact ⟨task,ctx,_,hmem,hoverlay,hreasons,Tables.get_insert_self _ _ _,rfl,rfl⟩

end Dispatcher

theorem Dispatcher.init_currentView {sha : Sha} {files : Registry} {db : Db} {d : Dispatcher}
    (h : Dispatcher.init sha files db = .ok d) : CurrentView sha files db d.registry := by
  simp only [Dispatcher.init,steps_ok] at h
  obtain ⟨⟨registry,authority,revisions⟩,hregistry,rfl⟩ := h
  exact authoritativeTaskRegistry_currentView hregistry

/-- A run a direct claim creates binds the TaskSpec revision its dispatcher read. The revision is ready,
or planned where the closure bridge applies, and it is still the current one at the commit unless the
task was put since the dispatcher was built. -/
theorem claim_binds_revision {E : Env} {K : Contracts} {files : Registry} {before between : List Op}
    (hops : ∀ op ∈ before ++ between, op.kind ≠ .normalize) {d : Dispatcher}
    (hd : Dispatcher.init E.sha files (run (step E K) (Db.fresh E.sha) before) = .ok d)
    (hspecs : (run (step E K) (Db.fresh E.sha) before).taskSpecs ≠ ∅)
    {call : Dispatcher.ClaimCall} {workerId runId : String} {resource : Option String} {db' : Db}
    (hclaim : d.claimNext E call workerId resource (run (step E K) (Db.fresh E.sha) (before ++ between)) =
      .ok (.claimed runId,db')) :
    ∃ row current task, db'.runs[runId]? = some row ∧
      TaskSpecs.getCurrent E.sha (run (step E K) (Db.fresh E.sha) before) row.taskId = .ok (some current) ∧
      taskFromAuthoritativeSpec E.sha current.spec = .ok task ∧
      row.taskSha256 = taskRevisionSha256 E.sha current.spec ∧
      (task.state = .ready ∨ ∃ initiative,
        closureBridgeApplies call.observed.closureBridgeTaskIds task task.state initiative = true) ∧
      ((∀ op ∈ between, op.leaves row.taskId) →
        TaskSpecs.getCurrent E.sha db' row.taskId = .ok (some current)) := by
  obtain ⟨task,ctx,row,hmem,hoverlay,hreasons,hrow,hid,hdigest⟩ := Dispatcher.claimNext_claimed hclaim
  obtain ⟨id,hlisted⟩ := Dispatcher.mem_orderedTasks hmem
  have hview := Dispatcher.init_currentView hd
  rcases hview.tasks id task hlisted with ⟨current,hcurrent,hread⟩ | ⟨hempty,_⟩
  · obtain ⟨_,hsha,hspecId,_⟩ := taskFromAuthoritativeSpec_eq_ok hread
    obtain ⟨_,_,_,_,hcanonical⟩ := getCurrent_eq_some hcurrent
    obtain rfl : row.taskId = id := by
      rw [hid,hspecId,getStr?_of_canonicalSpecId hcanonical,Option.getD_some]
    have hopen (state : TaskState) (hstate : effectiveState ctx.overlay task.id task = state)
        (hnot : state.terminal = false ∧ state ≠ .stale) : task.state = state := by
      rw [← hid,effectiveState] at hstate
      have hsame := overlayOf_open (overlays_get hoverlay hlisted) (run_statusTerminal hops)
        (hstate ▸ hnot.1) (hstate ▸ hnot.2)
      exact hsame.symm.trans hstate
    refine ⟨row,current,task,hrow,hcurrent,hread,hdigest.trans hsha,?_,?_⟩
    · rcases Dispatcher.claimable_state hreasons with hready | ⟨initiative,hbridge⟩ | ⟨_,hready⟩
      · exact .inl (hopen .ready hready ⟨rfl,by decide⟩)
      · have hplanned : effectiveState ctx.overlay task.id task = .planned := by
          simp only [closureBridgeApplies,Bool.and_eq_true,decide_eq_true_eq] at hbridge
          exact hbridge.1.1.1.1.2
        exact .inr ⟨initiative,by rw [hopen .planned hplanned ⟨rfl,by decide⟩,← hplanned]; exact hbridge⟩
      · exact .inl hready
    · intro hleaves
      have hkept : db'.specs = (run (step E K) (Db.fresh E.sha) (before ++ between)).specs := by
        rcases Dispatcher.claimNext_writes hclaim with rfl | ⟨_,_,_,hwritten⟩
        · rfl
        · exact (hwritten.move.frame_of_ne (by decide)).specs
      rw [getCurrent_congr hkept,run_append,run_getCurrent hleaves,hcurrent]
  · exact absurd hempty hspecs

namespace Sample

def plannedSpec : Json :=
  .obj [("claims",.arr [.obj [("mode",.str "write"),("resource",.str "repo.a")]]),
    ("execution",.obj [("mode",.str "interactive-agent"),("policy",.str "review-before-effect")]),
    ("id",.str "T-1"),("initiative",.str "I-1"),("state",.str "planned")]

def completedFiles : Registry :=
  { files with initiatives := Std.ExtTreeMap.ofList [("I-1",Initiative.mk "completed" "completed" 2 none)] }

def planned : List Op :=
  [.putTaskSpec 1 plannedSpec "put-1" none "operator",.registerWorker 2 "worker" "codex" []]

def bridge : Dispatcher where
  registry := { completedFiles with
    tasks := Std.ExtTreeMap.ofList [("T-1",{ task with
      state := .planned
      lane := "later"
      rank := 1000
      execution := .obj [("mode",.str "interactive-agent"),("policy",.str "review-before-effect")]
      raw := plannedSpec
      sha256 := taskRevisionSha256 env.sha plannedSpec })] }
  authority := .stateStoreTaskSpecs
  revisions := Std.ExtTreeMap.ofList [("T-1",RevisionRef.mk (some 1) (TaskSpecs.taskSpecDigest env.sha plannedSpec))]

def bridgeCall : Dispatcher.ClaimCall :=
  ⟨completedFiles,{ observed with closureBridgeTaskIds := ["T-1"] },3,"RUN-1",.null⟩

def bridged : Db :=
  step env contracts (run (step env contracts) (Db.fresh env.sha) planned) (.claimNext bridge bridgeCall "worker" none)

/-- Another task is put between the construction of the dispatcher and the claim. -/
def otherPut : List Op := [.putTaskSpec 3 secondSpec "put-2" none "operator"]

def bridgedLater : Db :=
  step env contracts (run (step env contracts) (Db.fresh env.sha) (planned ++ otherPut))
    (.claimNext bridge bridgeCall "worker" none)

theorem bridgedLater_shown :
    bridge.claimNext env bridgeCall "worker" none (run (step env contracts) (Db.fresh env.sha) (planned ++ otherPut)) =
        .ok (.claimed "RUN-1",bridgedLater) ∧
      (bridgedLater.runs["RUN-1"]?).map (·.taskId) = some "T-1" ∧
      (getCurrent env.sha bridgedLater "T-2").toOption.any (fun current => current.map (·.revision) = some 1) =
        true := by
  decide +kernel

theorem bridged_shown :
    (run (step env contracts) (Db.fresh env.sha) planned).taskSpecs ≠ ∅ ∧
      Dispatcher.init env.sha completedFiles (run (step env contracts) (Db.fresh env.sha) planned) = .ok bridge ∧
      bridge.claimNext env bridgeCall "worker" none (run (step env contracts) (Db.fresh env.sha) planned) =
        .ok (.claimed "RUN-1",bridged) ∧
      getCurrent env.sha bridged "T-1" = .ok (some ⟨"T-1",1,none,
        taskSpecDigest env.sha plannedSpec,plannedSpec,"operator"⟩) := by
  decide +kernel

end Sample

theorem claim_binds_revision_bridged :
    (getCurrent Sample.env.sha Sample.bridgedLater "T-2").toOption.any
        (fun current => current.map (·.revision) = some 1) = true ∧
    ∃ row current task, Sample.bridgedLater.runs["RUN-1"]? = some row ∧
      TaskSpecs.getCurrent Sample.env.sha
        (run (step Sample.env Sample.contracts) (Db.fresh Sample.env.sha) Sample.planned) row.taskId =
          .ok (some current) ∧
      taskFromAuthoritativeSpec Sample.env.sha current.spec = .ok task ∧
      row.taskSha256 = taskRevisionSha256 Sample.env.sha current.spec ∧
      (task.state = .ready ∨ ∃ initiative, closureBridgeApplies ["T-1"] task task.state initiative = true) ∧
      TaskSpecs.getCurrent Sample.env.sha Sample.bridgedLater row.taskId = .ok (some current) := by
  obtain ⟨hspecs,hd,_,_⟩ := Sample.bridged_shown
  obtain ⟨hclaim,htask,hput⟩ := Sample.bridgedLater_shown
  have hops : ∀ op ∈ Sample.planned ++ Sample.otherPut, op.kind ≠ .normalize := by
    simp [Sample.planned,Sample.otherPut,Op.kind]
  obtain ⟨row,current,task,hrow,hcurrent,hread,hdigest,hstate,hkept⟩ := claim_binds_revision hops hd hspecs hclaim
  have hid : row.taskId = "T-1" := by simpa [hrow] using htask
  refine ⟨hput,row,current,task,hrow,hcurrent,hread,hdigest,hstate,hkept fun op hop => ?_⟩
  obtain rfl := List.mem_singleton.mp hop
  rw [hid]
  change Sample.secondSpec.getStr? "id" ≠ some "T-1"
  decide +kernel

/-- The closure bridge claims a planned task. -/
theorem planned_task_claimed :
    Dispatcher.init Sample.env.sha Sample.completedFiles
        (run (step Sample.env Sample.contracts) (Db.fresh Sample.env.sha) Sample.planned) = .ok Sample.bridge ∧
      Sample.bridge.claimNext Sample.env Sample.bridgeCall "worker" none
        (run (step Sample.env Sample.contracts) (Db.fresh Sample.env.sha) Sample.planned) =
          .ok (.claimed "RUN-1",Sample.bridged) ∧
      TaskSpecs.getCurrent Sample.env.sha Sample.bridged "T-1" = .ok (some ⟨"T-1",1,none,
        TaskSpecs.taskSpecDigest Sample.env.sha Sample.plannedSpec,Sample.plannedSpec,"operator"⟩) ∧
      Sample.plannedSpec.getStr? "state" = some "planned" :=
  ⟨Sample.bridged_shown.2.1,Sample.bridged_shown.2.2.1,Sample.bridged_shown.2.2.2,by decide⟩

end Bureau
