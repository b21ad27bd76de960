import Bureau.Operations

/-!
Current tasks. The dispatcher reads its tasks from the current TaskSpec revisions of the
store; only a put sets a new one.
-/

namespace Bureau

open Transactions Relation TaskSpecs

variable {db db' : Db} {sha : Sha} {files : Registry} {spec : Json} {E : Env} {now : Time} {task : Task} {op : Op}
    {K : Contracts}

theorem planSha256_stateStoreInitiativeRegistry {base : Registry}
    (h : stateStoreInitiativeRegistry files db = .ok base) (initiative : String) :
    planSha256 sha base initiative = planSha256 sha files initiative := by
  simp only [stateStoreInitiativeRegistry,steps_ok] at h
  obtain ⟨_,_,rfl⟩ := h
  simp only [planSha256,Std.ExtTreeMap.getElem?_map]
  cases files.initiatives[initiative]? with
  | none => rfl
  | some found => simp only [Option.map_some]; split <;> rfl

/-- The task a registry lists under an id is the current one: the current TaskSpec where the store has
TaskSpecs, the Git task where it has none. -/
def CurrentTask (sha : Sha) (files : Registry) (db : Db) (id : String) (task : Task) : Prop :=
  (∃ current, TaskSpecs.getCurrent sha db id = .ok (some current) ∧
      taskFromAuthoritativeSpec sha current.spec = .ok task) ∨
    db.taskSpecs = ∅ ∧ files.tasks[id]? = some task

theorem taskFromAuthoritativeSpec_eq_ok (h : taskFromAuthoritativeSpec sha spec = .ok task) :
    task.raw = spec ∧ task.sha256 = taskRevisionSha256 sha spec ∧ task.id = (spec.getStr? "id").getD "" ∧
      task.initiative = (spec.getStr? "initiative").getD "" ∧
      (spec.getStr? "state").bind TaskState.ofText? = some task.state := by
  simp only [taskFromAuthoritativeSpec,steps_ok] at h
  obtain ⟨_,_,state,hstate,_,_,rfl⟩ := h
  exact ⟨rfl,rfl,rfl,rfl,hstate⟩

namespace TaskSpecs

variable {sha : Sha} {db : Db}

variable {id : String} {specs : List CurrentSpec}

theorem getStr?_of_canonicalSpecId (h : canonicalSpecId spec = .ok id) :
    spec.getStr? "id" = some id := by
  simp only [canonicalSpecId,bind_eq_ok] at h
  obtain ⟨_,_,h⟩ := h
  split at h
  · rename_i found hfound
    simp only [steps_ok] at h
    obtain ⟨_,_,rfl⟩ := h
    exact hfound
  · simp [stateError] at h

theorem getCurrent_of_mem_currentProjection (h : currentProjection sha db = .ok specs)
    {item : CurrentSpec} (hitem : item ∈ specs) : getCurrent sha db item.taskId = .ok (some item) := by
  obtain ⟨⟨id,pointer⟩,_,hread⟩ := exists_of_mem_collect h hitem
  simp only [steps_ok] at hread
  obtain ⟨_,hcurrent,rfl⟩ := hread
  rwa [(getCurrent_eq_some hcurrent).1]

theorem mem_currentProjection (h : currentProjection sha db = .ok specs) {current : CurrentSpec}
    (hcurrent : getCurrent sha db id = .ok (some current)) :
    current ∈ specs := by
  cases hpointer : db.taskSpecs[id]? with
  | none => simp [getCurrent,hpointer] at hcurrent
  | some pointer =>
    have hmem : (id,pointer) ∈ db.taskSpecs.toList :=
      Std.ExtTreeMap.mem_toList_iff_getElem?_eq_some.mpr hpointer
    obtain ⟨item,hitem,hread⟩ := exists_of_collect h hmem
    simp only [steps_ok] at hread
    obtain ⟨_,hread,rfl⟩ := hread
    cases hread.symm.trans hcurrent
    exact hitem

theorem currentProjection_keys (h : currentProjection sha db = .ok specs) :
    (specs.map CurrentSpec.taskId).Nodup := by
  have hkeys : specs.map CurrentSpec.taskId = db.taskSpecs.toList.map Prod.fst := by
    refine map_eq_of_collect ?_ h
    intro item current hread
    simp only [steps_ok] at hread
    obtain ⟨_,hcurrent,rfl⟩ := hread
    exact (getCurrent_eq_some hcurrent).1
  rw [hkeys]
  exact Tables.keys_nodup db.taskSpecs

end TaskSpecs

theorem authoritativeTask_eq_ok {item : CurrentSpec} (h : authoritativeTask sha item = .ok task) :
    taskFromAuthoritativeSpec sha item.spec = .ok task ∧ task.id = item.taskId := by
  simp only [authoritativeTask,steps_ok,decide_eq_true_eq] at h
  obtain ⟨_,_,_,htask,_,hid,rfl⟩ := h
  exact ⟨htask,hid⟩

structure CurrentView (sha : Sha) (files : Registry) (db : Db) (registry : Registry) : Prop where
  plan : ∀ initiative, planSha256 sha registry initiative = planSha256 sha files initiative
  tasks : ∀ (id : String) (task : Task), registry.tasks[id]? = some task → CurrentTask sha files db id task
  complete : ∀ (id : String) (current : TaskSpecs.CurrentSpec),
    TaskSpecs.getCurrent sha db id = .ok (some current) →
      ∃ task, taskFromAuthoritativeSpec sha current.spec = .ok task ∧ registry.tasks[id]? = some task
  initiatives : db.taskSpecs ≠ ∅ → ∀ (id : String) (task : Task), registry.tasks[id]? = some task →
    ∃ plan, planSha256 sha registry task.initiative = .ok plan

theorem authoritativeTaskRegistry_currentView {registry : Registry} {authority : Authority}
    {revisions : Table RevisionRef} (h : authoritativeTaskRegistry sha files db = .ok (registry,authority,revisions)) :
    CurrentView sha files db registry := by
  simp only [authoritativeTaskRegistry,bind_eq_ok] at h
  obtain ⟨base,hbase,specs,hspecs,h⟩ := h
  have hplan : ∀ initiative, planSha256 sha base initiative = planSha256 sha files initiative :=
    planSha256_stateStoreInitiativeRegistry hbase
  split at h
  · rename_i hempty
    simp only [pure_eq_ok,Prod.mk.injEq] at h
    obtain ⟨rfl,_,_⟩ := h
    obtain rfl : specs = [] := List.isEmpty_iff.mp hempty
    have hnone : db.taskSpecs = ∅ := by
      apply Std.ExtTreeMap.ext_getElem?
      intro id
      cases hpointer : db.taskSpecs[id]? with
      | none => simp
      | some pointer =>
        have hmem : (id,pointer) ∈ db.taskSpecs.toList :=
          Std.ExtTreeMap.mem_toList_iff_getElem?_eq_some.mpr hpointer
        obtain ⟨_,hitem,_⟩ := exists_of_collect hspecs hmem
        simp at hitem
    have hfiles : base.tasks = files.tasks := by
      simp only [stateStoreInitiativeRegistry,steps_ok] at hbase
      obtain ⟨_,_,rfl⟩ := hbase
      rfl
    refine ⟨hplan,fun id task htask => .inr ⟨hnone,hfiles ▸ htask⟩,?_,fun hspecs => absurd hnone hspecs⟩
    intro id current hcurrent
    simp [getCurrent,hnone] at hcurrent
  · simp only [steps_ok,Prod.mk.injEq] at h
    obtain ⟨tasks,htasks,_,hchecks,rfl,rfl,rfl⟩ := h
    have hids : tasks.map Task.id = specs.map CurrentSpec.taskId :=
      map_eq_of_collect (fun _ _ hread => (authoritativeTask_eq_ok hread).2) htasks
    have hkeys : ((tasks.map fun task => (task.id,task)).map Prod.fst).Nodup := by
      rw [List.map_map]
      exact hids ▸ currentProjection_keys hspecs
    have hlisted {id : String} {task : Task}
        (htask : (Std.ExtTreeMap.ofList (tasks.map fun task => (task.id,task)) : Table Task)[id]? = some task) :
        task ∈ tasks ∧ task.id = id := by
      obtain ⟨found,hfound,hpair⟩ := List.mem_map.mp ((Tables.get_ofList hkeys id task).mp htask)
      cases hpair
      exact ⟨hfound,rfl⟩
    refine ⟨hplan,?_,?_,?_⟩
    · intro id task htask
      obtain ⟨hfound,rfl⟩ := hlisted htask
      obtain ⟨item,hitem,hread⟩ := exists_of_mem_collect htasks hfound
      obtain ⟨htask,hid⟩ := authoritativeTask_eq_ok hread
      exact .inl ⟨item,hid ▸ getCurrent_of_mem_currentProjection hspecs hitem,htask⟩
    · intro id current hcurrent
      obtain ⟨task,hmem,hread⟩ := exists_of_collect htasks (mem_currentProjection hspecs hcurrent)
      obtain ⟨htask,hid⟩ := authoritativeTask_eq_ok hread
      refine ⟨task,htask,(Tables.get_ofList hkeys id task).mpr (List.mem_map.mpr ⟨task,hmem,?_⟩)⟩
      rw [hid,(getCurrent_eq_some hcurrent).1]
    · intro _ id task htask
      obtain ⟨_,_,hcheck⟩ := exists_of_collect hchecks (hlisted htask).1
      simp only [checkAuthoritativeTask,steps_ok] at hcheck
      obtain ⟨_,hknown,_⟩ := hcheck
      rw [Std.ExtTreeMap.contains_eq_isSome_getElem?,Option.isSome_iff_exists] at hknown
      obtain ⟨initiative,hinitiative⟩ := hknown
      refine ⟨initiative.planSha256 sha,?_⟩
      simp only [planSha256,steps_ok]
      exact ⟨initiative,hinitiative,rfl⟩

namespace TaskSpecs

variable {sha : Sha} {db db' : Db}

theorem getCurrent_congr (h : db'.specs = db.specs) (id : String) :
    getCurrent sha db' id = getCurrent sha db id := by
  obtain ⟨hpointers,htables⟩ := Prod.mk.inj h
  obtain ⟨hrevisions,_⟩ := Prod.mk.inj htables
  simp only [getCurrent,getRevision,revisionRow,hpointers,hrevisions]

/-- After a put its document is the current TaskSpec, and no other task has changed. -/
theorem getCurrent_setRevision {next : CurrentSpec} (hnext : SpecSuccessor sha db next) (now : Time) (key : String)
    (expected : Option ℕ) (id : String) :
    getCurrent sha (setRevision now db next key expected) id =
      if id = next.taskId then .ok (some next) else getCurrent sha db id := by
  by_cases hid : id = next.taskId
  · subst hid
    obtain ⟨_,_,hrevision⟩ := hnext.current
    have hpos : 1 ≤ next.revision := by omega
    have hrow : validatedRow sha next.taskId next.revision
        ⟨next.parentRevision,next.specSha256,next.spec,next.source,now⟩ = .ok next := by
      simp only [validatedRow,steps_ok,Bool.and_eq_true,decide_eq_true_eq]
      exact ⟨_,hnext.id,(),rfl,(),hnext.digest.symm,(),⟨hpos,hnext.parent⟩,trivial⟩
    have hread : getRevision sha (setRevision now db next key expected) next.taskId next.revision = .ok next := by
      simp only [getRevision,bind_eq_ok,revisionRow,orRaise_eq_ok]
      exact ⟨_,by simp [setRevision],hrow⟩
    have hpointer : (setRevision now db next key expected).taskSpecs[next.taskId]? =
        some ⟨next.revision,next.specSha256,now⟩ := by
      simp [setRevision]
    simp only [getCurrent,hpointer,if_true,steps_ok]
    exact ⟨next,hread,(),by simp,rfl⟩
  · simp only [getCurrent,setRevision,getRevision,revisionRow,Tables.get_insert_ne _ _ hid,if_neg hid]

end TaskSpecs

theorem Op.kind_ne_publish (op : Op) : op.kind ≠ .publish := by
  cases op <;> simp [Op.kind]

theorem apply_specs_eq (h : op.apply E K db = .ok db') (hop : op.publishes = false) : db'.specs = db.specs := by
  rcases apply_moves op.planned_self h with hsingle | hroutine
  · exact (hsingle.frame_of_ne op.kind_ne_publish).specs
  · clear h
    rw [hop] at hroutine
    induction hroutine with
    | refl => rfl
    | tail _ hmove ih =>
      obtain ⟨_,hmove,rfl | ⟨hpublishes,_⟩⟩ := hmove
      · exact (hmove.frame_of_ne (by decide)).specs.trans ih
      · exact absurd hpublishes (by decide)

theorem applyInitiativeTransition_specs {t : InitiativeTransition}
    (h : applyInitiativeTransition sha files now db t = .ok db') : db'.specs = db.specs := by
  simp only [applyInitiativeTransition,steps_ok] at h
  obtain ⟨_,_,hevent⟩ := h
  obtain ⟨rows,rfl⟩ := Db.event_extends hevent
  rfl

theorem transitionSpec_eq_ok {next : Json} {t : TaskTransition} (h : transitionSpec spec t = .ok next) :
    next = spec.set "state" (.str t.toState.text) ∨
      ∃ metadata, next = (spec.set "state" (.str t.toState.text)).set "metadata" metadata := by
  unfold transitionSpec at h
  simp only at h
  split at h
  · split at h
    · simp [stateError] at h
    · exact .inr ⟨_,(Except.ok.inj h).symm⟩
  · exact .inl (Except.ok.inj h).symm

def Db.AllSpecs (sha : Sha) (P : Json → Prop) (db : Db) : Prop :=
  ∀ (id : String) (current : TaskSpecs.CurrentSpec),
    TaskSpecs.getCurrent sha db id = .ok (some current) → P current.spec

namespace Db.AllSpecs

variable {sha : Sha} {P : Json → Prop} {db db' : Db}

theorem fresh (sha : Sha) (P : Json → Prop) : (Db.fresh sha).AllSpecs sha P := by
  intro id current h
  simp [getCurrent,Db.fresh] at h

theorem congr (h : db.AllSpecs sha P) (hspecs : db'.specs = db.specs) : db'.AllSpecs sha P := by
  intro id current hcurrent
  exact h id current (getCurrent_congr hspecs id ▸ hcurrent)

theorem putValidatedMaterial (h : db.AllSpecs sha P) {key source : String} {expected : Option ℕ}
    {result : PutResult}
    (hput : putValidatedMaterial sha now db spec key expected source = .ok (result,db')) (hspec : P spec) :
    db'.AllSpecs sha P := by
  cases putValidatedMaterial_effect hput with
  | replay => exact h
  | known => exact h
  | set hdocument _ hnext =>
    intro id current hcurrent
    rw [getCurrent_setRevision hnext] at hcurrent
    split at hcurrent
    · cases hcurrent
      exact hdocument ▸ hspec
    · exact h id current hcurrent

theorem applyTaskTransition (h : db.AllSpecs sha P) (hsha : E.sha = sha) {t : TaskTransition}
    (htransition : ∀ spec next, P spec → transitionSpec spec t = .ok next → P next)
    (happly : Bureau.applyTaskTransition E now db t = .ok db') : db'.AllSpecs sha P := by
  subst hsha
  simp only [Bureau.applyTaskTransition,steps_ok] at happly
  obtain ⟨_,hcurrent,current,rfl,_,_,spec,hspec,⟨result,written⟩,hput,rfl⟩ := happly
  exact h.putValidatedMaterial (put_eq_ok hput) (htransition _ _ (h _ _ hcurrent) hspec)

theorem applyAll {α : Type} {apply : Db → α → Result Db} {items : List α}
    (happly : ∀ a db db', apply db a = .ok db' → db.AllSpecs sha P → db'.AllSpecs sha P)
    (h : db.AllSpecs sha P) (hall : Bureau.applyAll apply items db = .ok db') : db'.AllSpecs sha P := by
  induction items generalizing db with
  | nil => exact Except.ok.inj hall ▸ h
  | cons a rest ih =>
    simp only [Bureau.applyAll,bind_eq_ok] at hall
    obtain ⟨mid,hfirst,hrest⟩ := hall
    exact ih (happly a db mid hfirst h) hrest

end Db.AllSpecs

/-- What a closeout without a run has read when it publishes the closed document. -/
structure Closeout (sha : Sha) (files : Registry) (db : Db) (taskId : String) (spec : Json) (task : Task)
    (plan : String) : Prop where
  current : ∃ current, TaskSpecs.getCurrent sha db taskId = .ok (some current) ∧ current.spec = spec
  reads : taskFromAuthoritativeSpec sha spec = .ok task
  plan : planSha256 sha files task.initiative = .ok plan
  metadata : (spec.get? "metadata").all Json.isObj = true

theorem applyTaskNoRunCloseout_eq_ok {material : CloseoutMaterial} {backfill : Option Payload} {taskId : String}
    (h : applyTaskNoRunCloseout E files now material backfill taskId db = .ok db') :
    db'.specs = db.specs ∨ ∃ spec task plan key expected source result written,
      Closeout E.sha files db taskId spec task plan ∧
      putValidatedMaterial E.sha now db
        (closedSpec spec (closeoutVerification E.sha material task.sha256 plan)) key expected source =
          .ok (result,written) ∧ db'.specs = written.specs := by
  simp only [applyTaskNoRunCloseout,steps_ok] at h
  obtain ⟨⟨registry,authority,revisions⟩,hregistry,task,htask,_,hread,current,rfl,_,hmetadata,_,_,_,_,plan,hplan,h⟩ := h
  have hview := authoritativeTaskRegistry_currentView hregistry
  split at h
  · simp only [steps_ok] at h
    obtain ⟨_,_,h⟩ := h
    have hmoves : db' = db ∨ Move E.sha ∅ .backfill db db' := backfillTaskProjection_move h
    rcases hmoves with rfl | hmove
    · exact .inl rfl
    · exact .inl (hmove.frame_of_ne (by decide)).specs
  · simp only [steps_ok] at h
    obtain ⟨_,_,_,_,⟨result,written⟩,hput,_,_,_,_,_,_,hdelta⟩ := h
    obtain ⟨found,hfound,hlisted⟩ := hview.complete taskId current hread
    obtain rfl : found = task := Option.some.inj (hlisted.symm.trans htask)
    obtain ⟨rows,rfl⟩ := Db.appendTaskProjectionDelta_extends hdelta
    exact .inr ⟨current.spec,found,plan,_,_,_,result,written,
      ⟨⟨current,hread,rfl⟩,hfound,hview.plan _ ▸ hplan,hmetadata⟩,put_eq_ok hput,rfl⟩

def Op.documents : Op → List Json
  | .putTaskSpec _ spec _ _ _ | .putTaskSpecMaterial _ spec _ _ _ => [spec]
  | _ => []

/-- A property of TaskSpec documents survives an operation where it holds of every document the
operation may publish: the ones it is given, lifecycle transitions and closed documents. -/
theorem step_allSpecs {P : Json → Prop} (hdocuments : ∀ spec ∈ op.documents, P spec)
    (htransition : ∀ t spec next, P spec → transitionSpec spec t = .ok next → P next)
    (hcloseout : ∀ files now material backfill taskId, op = .noRunCloseout files now material backfill taskId →
      ∀ spec task plan, P spec → Closeout E.sha files db taskId spec task plan →
        P (closedSpec spec (closeoutVerification E.sha material task.sha256 plan))) (h : db.AllSpecs E.sha P) :
    (step E K db op).AllSpecs E.sha P := by
  refine commit_preserves h fun db' hdb' => ?_
  by_cases hpublishes : op.publishes = false
  · exact h.congr (apply_specs_eq hdb' hpublishes)
  · cases op with
    | putTaskSpec now spec key expected source =>
      obtain ⟨_,hput⟩ := map_snd_eq_ok.mp hdb'
      exact h.putValidatedMaterial (put_eq_ok hput) (hdocuments spec (by simp [Op.documents]))
    | putTaskSpecMaterial now spec key expected source =>
      obtain ⟨_,hput⟩ := map_snd_eq_ok.mp hdb'
      exact h.putValidatedMaterial hput (hdocuments spec (by simp [Op.documents]))
    | reconcileLifecycle files now tasks initiatives =>
      simp only [Op.apply,reconcileInitiativeLifecycle,bind_eq_ok] at hdb'
      obtain ⟨mid,htasks,hinitiatives⟩ := hdb'
      refine Db.AllSpecs.applyAll ?_ (Db.AllSpecs.applyAll ?_ h htasks) hinitiatives
      · exact fun t db db' happly hdb => hdb.congr (applyInitiativeTransition_specs happly)
      · exact fun t db db' happly hdb => hdb.applyTaskTransition rfl (htransition t) happly
    | noRunCloseout files now material backfill taskId =>
      rcases applyTaskNoRunCloseout_eq_ok hdb' with hsame | ⟨spec,task,plan,_,_,_,_,written,hclose,hput,hspecs⟩
      · exact h.congr hsame
      · obtain ⟨current,hcurrent,rfl⟩ := hclose.current
        exact (h.putValidatedMaterial hput
          (hcloseout files now material backfill taskId rfl _ task plan (h _ _ hcurrent) hclose)).congr hspecs
    | _ => exact absurd rfl hpublishes

end Bureau
