import Bureau.RebindAtomic
import Bureau.SpecWaits

/-!
The open work a rebind sees. The planner and the dispatcher each derive a state for every task from its
TaskSpec, its status row and the digests of its revision and plan; only the dispatcher also reads the
receipt that a verified row cites.
-/

namespace Bureau

open Transactions

namespace RepositoryRebind

theorem text_of_ofText? {state : TaskState} {text : String} (h : TaskState.ofText? text = some state) :
    text = state.text := by
  unfold TaskState.ofText? at h
  split at h <;> cases h <;> rfl

@[simp] theorem contains_terminalStates (state : TaskState) : terminalStates.contains state.text = state.terminal := by
  cases state <;> rfl

def digestState (task : Task) (plan : String) : Option TaskStatusRow → TaskState
  | none => task.state
  | some row =>
    if task.state.terminal then task.state
    else if !row.state.terminal then row.state
    else if row.taskSha256 = task.sha256 ∧ row.planSha256 = plan then row.state
    else .stale

def CitesForeignReceipt (E : Env) (db : Db) (task : Task) (plan : String) : Prop :=
  task.state.terminal = false ∧ ∃ row, db.taskStatus[task.id]? = some row ∧ row.state = .verified ∧
    row.taskSha256 = task.sha256 ∧ row.planSha256 = plan ∧
    taskStatusReceiptBindsCurrentRevision E db task plan row = .ok false

section States

variable {E : Env} {files registry : Registry} {db : Db} {task : Task} {spec : Json} {plan : String}

theorem rowState_eq (hread : taskFromAuthoritativeSpec E.sha spec = .ok task)
    (hplan : planSha256 E.sha files task.initiative = .ok plan) :
    rowState E files db task.id spec = .ok (digestState task plan db.taskStatus[task.id]?).text := by
  obtain ⟨_,hsha,_,hinitiative,hstate⟩ := taskFromAuthoritativeSpec_eq_ok hread
  obtain ⟨found,hfound,hof⟩ := Option.bind_eq_some_iff.mp hstate
  have hstateText : text spec "state" = task.state.text := by
    rw [text,hfound]
    exact text_of_ofText? hof
  have hinitiativeText : text spec "initiative" = task.initiative := hinitiative.symm
  rw [rowState,hstateText]
  cases db.taskStatus[task.id]? with
  | none => rfl
  | some row =>
    simp only [digestState,contains_terminalStates,hinitiativeText,hplan,← hsha]
    by_cases hclosed : task.state.terminal = true
    · simp only [hclosed,if_true]
      rfl
    by_cases hopen : row.state.terminal = true
    · by_cases htask : row.taskSha256 = task.sha256
      · simp only [hclosed,hopen,htask,true_and,if_true,if_false,Bool.not_true,Bool.false_eq_true]
        by_cases hcurrent : row.planSha256 = plan
        · simp only [hcurrent,if_true]
          exact bind_eq_ok.mpr ⟨plan,rfl,by simp [pure_eq_ok]⟩
        · simp only [hcurrent,if_false]
          exact bind_eq_ok.mpr ⟨plan,rfl,by simp [pure_eq_ok,hcurrent,TaskState.text]⟩
      · simp only [hclosed,hopen,htask,false_and,if_false,Bool.not_true,Bool.false_eq_true]
        rfl
    · simp only [hclosed,hopen,Bool.not_false,if_true,if_false,Bool.false_eq_true]
      rfl

theorem overlay_eq (hplan : planSha256 E.sha registry task.initiative = .ok plan) {overlay : Option TaskState}
    (h : overlayOf E registry db task = .ok overlay) :
    overlay.getD task.state = digestState task plan db.taskStatus[task.id]? ∧ ¬ CitesForeignReceipt E db task plan ∨
      overlay.getD task.state = .stale ∧ digestState task plan db.taskStatus[task.id]? = .verified ∧
        CitesForeignReceipt E db task plan := by
  unfold overlayOf at h
  by_cases hclosed : task.state.terminal = true
  · rw [if_pos hclosed,pure_eq_ok] at h
    subst h
    refine .inl ⟨?_,fun hcites => by simp [hcites.1] at hclosed⟩
    cases db.taskStatus[task.id]? <;> simp [digestState,hclosed]
  rw [if_neg hclosed,bind_eq_ok] at h
  obtain ⟨current,hcurrent,h⟩ := h
  obtain rfl : plan = current := Except.ok.inj (hplan.symm.trans hcurrent)
  cases hrow : db.taskStatus[task.id]? with
  | none =>
    simp only [hrow,pure_eq_ok] at h
    subst h
    refine .inl ⟨rfl,?_⟩
    rintro ⟨_,row,hcited,_⟩
    simp [hrow] at hcited
  | some row =>
    have hcites : CitesForeignReceipt E db task plan ↔ row.state = .verified ∧ row.taskSha256 = task.sha256 ∧
        row.planSha256 = plan ∧ taskStatusReceiptBindsCurrentRevision E db task plan row = .ok false := by
      simp [CitesForeignReceipt,hclosed,hrow]
    simp only [hrow] at h
    rw [hcites,digestState,if_neg hclosed]
    by_cases hopen : row.state.terminal = true
    · rw [if_neg (by simp [hopen])] at h ⊢
      by_cases hcurrent : row.taskSha256 = task.sha256 ∧ row.planSha256 = plan
      · rw [if_pos hcurrent] at h ⊢
        by_cases hverified : row.state = .verified
        · rw [if_pos hverified,bind_eq_ok] at h
          obtain ⟨binds,hbinds,h⟩ := h
          cases binds with
          | true =>
            obtain rfl : some row.state = overlay := by simpa [pure_eq_ok] using h
            exact .inl ⟨rfl,fun hforeign => by simp [hbinds] at hforeign⟩
          | false =>
            obtain rfl : some .stale = overlay := by simpa [pure_eq_ok] using h
            exact .inr ⟨rfl,hverified,hverified,hcurrent.1,hcurrent.2,hbinds⟩
        · rw [if_neg hverified,pure_eq_ok] at h
          subst h
          exact .inl ⟨rfl,fun hforeign => hverified hforeign.1⟩
      · rw [if_neg hcurrent,pure_eq_ok] at h
        rw [if_neg hcurrent]
        subst h
        exact .inl ⟨rfl,fun hforeign => hcurrent ⟨hforeign.2.1,hforeign.2.2.1⟩⟩
    · rw [if_pos (by simp [hopen]),pure_eq_ok] at h
      rw [if_pos (by simp [hopen])]
      subst h
      refine .inl ⟨rfl,fun hforeign => hopen ?_⟩
      rw [hforeign.1]
      rfl

end States

/-- The store has one state of every task, whoever reads it, and the planner finds the open tasks that are
bound to the old repository. -/
structure Covers (R : Rules) (p : RebindParameters) (E : Env) (files registry : Registry) (db : Db)
    (overlay : Table TaskState) : Prop where
  rows : ∃ rows, taskRows E files db = .ok rows ∧ ∀ id task, registry.tasks[id]? = some task →
    ∃ row ∈ rows, row.taskId = id ∧ row.spec = task.raw ∧ row.effectiveState = (effectiveState overlay id task).text
  candidates : ∀ found, candidates R p E files db = .ok found → ∀ id task, registry.tasks[id]? = some task →
    (effectiveState overlay id task).terminal = false → hasOldBinding R p task.raw = true →
      id ∈ found.map (·.taskId)

theorem stored_of_getCurrent {sha : Sha} {db : Db} {id : String} {current : TaskSpecs.CurrentSpec}
    (h : TaskSpecs.getCurrent sha db id = .ok (some current)) :
    ∃ pointer stored, db.taskSpecs[id]? = some pointer ∧ db.revision? id pointer.currentRevision = some stored ∧
      stored.spec = current.spec := by
  unfold TaskSpecs.getCurrent at h
  cases hpointer : db.taskSpecs[id]? with
  | none => simp [hpointer] at h
  | some pointer =>
    simp only [hpointer,TaskSpecs.getRevision,TaskSpecs.revisionRow,TaskSpecs.validatedRow,steps_ok,
        Option.some.injEq] at h
    obtain ⟨_,⟨stored,hstored,_,_,_,_,_,_,_,_,rfl⟩,_,_,rfl⟩ := h
    exact ⟨pointer,stored,rfl,hstored,rfl⟩

section Coverage

variable {R : Rules} {p : RebindParameters} {E : Env} {files registry : Registry} {db : Db}
  {revisions : Table RevisionRef} {overlay : Table TaskState}

/-- Every task of the authoritative view has a row, with the state its digests give. -/
theorem taskRow_of_task (h : authoritativeTaskRegistry E.sha files db = .ok (registry,.stateStoreTaskSpecs,revisions))
    {id : String} {task : Task} (htask : registry.tasks[id]? = some task) :
    task.id = id ∧ ∃ plan row, planSha256 E.sha registry task.initiative = .ok plan ∧
      taskRow E files db id = .ok (some row) ∧ row.spec = task.raw ∧
      row.effectiveState = (digestState task plan db.taskStatus[id]?).text := by
  have hview := authoritativeTaskRegistry_currentView h
  have hspecs := taskSpecs_ne_empty h
  obtain ⟨plan,hplan⟩ := hview.initiatives hspecs id task htask
  rcases hview.tasks id task htask with ⟨current,hcurrent,hread⟩ | ⟨hempty,_⟩
  · obtain ⟨hid,_,_,_,hcanonical⟩ := TaskSpecs.getCurrent_eq_some hcurrent
    obtain ⟨hraw,_,hspecId,_⟩ := taskFromAuthoritativeSpec_eq_ok hread
    have htaskId : task.id = id := by rw [hspecId,TaskSpecs.getStr?_of_canonicalSpecId hcanonical,Option.getD_some]
    have hisObj : current.spec.isObj = true := by
      simp only [TaskSpecs.canonicalSpecId,steps_ok] at hcanonical
      exact hcanonical.choose_spec.1
    obtain ⟨pointer,stored,hpointer,hstored,hspec⟩ := stored_of_getCurrent hcurrent
    have hstate : rowState E files db task.id current.spec =
        .ok (digestState task plan db.taskStatus[task.id]?).text :=
      rowState_eq hread (by rw [← hview.plan]; exact hplan)
    rw [htaskId,← hspec] at hstate
    refine ⟨htaskId,plan,⟨id,pointer.currentRevision,stored.specSha256,stored.spec,_⟩,hplan,?_,?_,rfl⟩
    · simp only [taskRow,hpointer,hstored,steps_ok]
      exact ⟨(),hspec ▸ hisObj,_,hstate,rfl⟩
    · rw [hraw,hspec]
  · exact absurd hempty hspecs

theorem taskRows_total (h : authoritativeTaskRegistry E.sha files db = .ok (registry,.stateStoreTaskSpecs,revisions)) :
    ∃ rows, taskRows E files db = .ok rows ∧
      ∀ id row, taskRow E files db id = .ok (some row) ↔ row ∈ rows ∧ row.taskId = id := by
  have htotal : ∀ item ∈ db.taskSpecs.toList, ∃ row, taskRow E files db item.1 = .ok row := by
    rintro ⟨id,pointer⟩ hitem
    have hregistry := h
    simp only [authoritativeTaskRegistry,bind_eq_ok] at hregistry
    obtain ⟨_,_,specs,hspecs,_⟩ := hregistry
    obtain ⟨current,_,hread⟩ := exists_of_collect hspecs hitem
    simp only [steps_ok] at hread
    obtain ⟨_,hcurrent,rfl⟩ := hread
    obtain ⟨task,_,htask⟩ := (authoritativeTaskRegistry_currentView h).complete id current hcurrent
    obtain ⟨_,_,row,_,hrow,_⟩ := taskRow_of_task h htask
    exact ⟨some row,hrow⟩
  obtain ⟨read,hread⟩ := collect_total htotal
  refine ⟨read.reduceOption,by simp only [taskRows,steps_ok]; exact ⟨read,hread,rfl⟩,fun id row => ?_⟩
  constructor
  · intro hrow
    obtain ⟨hid,pointer,_,hpointer,_⟩ := taskRow_eq_some hrow
    have hlisted : (id,pointer) ∈ db.taskSpecs.toList := Std.ExtTreeMap.mem_toList_iff_getElem?_eq_some.mpr hpointer
    obtain ⟨value,hvalue,hsame⟩ := exists_of_collect hread hlisted
    obtain rfl : some row = value := Except.ok.inj (hrow.symm.trans hsame)
    exact ⟨List.reduceOption_mem_iff.mpr hvalue,hid⟩
  · rintro ⟨hrow,rfl⟩
    obtain ⟨item,_,hitem⟩ := exists_of_mem_collect hread (List.reduceOption_mem_iff.mp hrow)
    rw [(taskRow_eq_some hitem).1]
    exact hitem

end Coverage

/-- No verified row of an open task that matches the current revision and plan cites a receipt that does
not bind them. -/
def ReceiptsBind (E : Env) (registry : Registry) (db : Db) : Prop :=
  ∀ (id : String) (task : Task) (plan : String), registry.tasks[id]? = some task →
    planSha256 E.sha registry task.initiative = .ok plan →
    ¬ CitesForeignReceipt E db task plan

end RepositoryRebind

open RepositoryRebind

/-- The planner of a rebind sees the open work of the dispatcher exactly if no current verified row cites
a receipt of another revision. -/
theorem rebind_covers_open_work_iff {R : Rules} {p : RebindParameters} {E : Env} {files registry : Registry} {db : Db}
    {revisions : Table RevisionRef} {overlay : Table TaskState}
    (hregistry : authoritativeTaskRegistry E.sha files db = .ok (registry,.stateStoreTaskSpecs,revisions))
    (hoverlay : overlays E registry db = .ok overlay) :
    Covers R p E files registry db overlay ↔ ReceiptsBind E registry db := by
  obtain ⟨rows,hrows,hmem⟩ := taskRows_total hregistry
  constructor
  · rintro ⟨⟨read,hread,hagrees⟩,_⟩ id task plan htask hplan hcites
    obtain rfl : rows = read := Except.ok.inj (hrows.symm.trans hread)
    obtain ⟨row,hrow,hid,_,hstate⟩ := hagrees id task htask
    obtain ⟨htaskId,current,other,hcurrent,hother,_,hdigests⟩ := taskRow_of_task hregistry htask
    obtain rfl : plan = current := Except.ok.inj (hplan.symm.trans hcurrent)
    have hsame : some row = some other := Except.ok.inj (((hmem id row).mpr ⟨hrow,hid⟩).symm.trans hother)
    cases hsame
    subst htaskId
    rcases overlay_eq hplan (overlays_get hoverlay htask) with ⟨_,hnot⟩ | ⟨hstale,hverified,_⟩
    · exact hnot hcites
    · -- the planner still takes the task for verified
      rw [hdigests,hverified,effectiveState,hstale] at hstate
      exact absurd hstate (by decide)
  · intro hbinds
    have hagrees : ∀ id task, registry.tasks[id]? = some task → ∃ row, taskRow E files db id = .ok (some row) ∧
        row.spec = task.raw ∧ row.effectiveState = (effectiveState overlay id task).text := by
      intro id task htask
      obtain ⟨rfl,plan,row,hplan,hrow,hraw,hstate⟩ := taskRow_of_task hregistry htask
      refine ⟨row,hrow,hraw,?_⟩
      rcases overlay_eq hplan (overlays_get hoverlay htask) with ⟨hsame,_⟩ | ⟨_,_,hcites⟩
      · rw [hstate,effectiveState,hsame]
      · exact absurd hcites (hbinds task.id task plan htask hplan)
    refine ⟨⟨rows,hrows,fun id task htask => ?_⟩,fun found hfound id task htask hopen hbinding => ?_⟩
    · obtain ⟨row,hrow,hraw,hstate⟩ := hagrees id task htask
      obtain ⟨hlisted,hid⟩ := (hmem id row).mp hrow
      exact ⟨row,hlisted,hid,hraw,hstate⟩
    · obtain ⟨row,hrow,hraw,hstate⟩ := hagrees id task htask
      have hlive : row.live = true := by rw [TaskRow.live,hstate,contains_terminalStates,hopen]; rfl
      exact List.mem_map.mpr ⟨row,mem_of_hasOldBinding hfound hrow hlive (hraw ▸ hbinding),(taskRow_eq_some hrow).1⟩

namespace Sample

def verifiedRow (receipt : Option String) : TaskStatusRow := ⟨rebindSha "",rebindSha "",.verified,receipt,3⟩

def citingDb : Db :=
  { boundDb with
    taskStatus := Std.ExtTreeMap.ofList [("T-1",verifiedRow (some (rebindSha "")))]
    receipts := Std.ExtTreeMap.ofList [("RUN-1",ReceiptRow.mk (.obj [("plan_sha256",.str (rebindSha "")),
      ("receipt_sha256",.str (rebindSha "")),("run_id",.str "RUN-1"),("task_id",.str "T-2")]) (rebindSha "") 2)] }

/-- The state of the task for the dispatcher and for the planner, whether it is bound to the old
repository, and the candidates. -/
def seen (db : Db) : Option (Option TaskState × String × Bool × List String) := do
  let (registry,authority,_) ← (authoritativeTaskRegistry rebindSha locatedFiles db).toOption
  guard (authority = .stateStoreTaskSpecs)
  let task ← registry.tasks["T-1"]?
  let overlay ← (overlayOf rebindEnv registry db task).toOption
  let row ← (taskRow rebindEnv locatedFiles db "T-1").toOption.join
  let found ← (candidates rebindRules rebindPlan.parameters rebindEnv locatedFiles db).toOption
  return (overlay,row.effectiveState,hasOldBinding rebindRules rebindPlan.parameters row.spec,found.map (·.taskId))

/-- The same store with a receipt of the task itself. -/
def coveredDb : Db :=
  { citingDb with
    receipts := Std.ExtTreeMap.ofList [("RUN-1",ReceiptRow.mk (.obj [("plan_sha256",.str (rebindSha "")),
      ("receipt_sha256",.str (rebindSha "")),("run_id",.str "RUN-1"),("task_id",.str "T-1"),
      ("task_sha256",.str (rebindSha ""))]) (rebindSha "") 2)] }

/-- Every status row of a task is read with a receipt that binds it. -/
def receiptsRead (registry : Registry) (db : Db) : Bool :=
  registry.tasks.toList.all fun item => (planSha256 rebindSha registry item.2.initiative).toOption.all fun plan =>
    (db.taskStatus[item.2.id]?).all fun row =>
      taskStatusReceiptBindsCurrentRevision rebindEnv db item.2 plan row ≠ .ok false

theorem receiptsBind_of_read {registry : Registry} {db : Db} (h : receiptsRead registry db = true) :
    ReceiptsBind rebindEnv registry db := by
  rintro id task plan htask hplan ⟨_,row,hrow,_,_,_,hforeign⟩
  have hread := List.all_eq_true.mp h (id,task) (Std.ExtTreeMap.mem_toList_iff_getElem?_eq_some.mpr htask)
  have hplan' : planSha256 rebindSha registry task.initiative = .ok plan := hplan
  simp [hplan',hrow,hforeign,Except.toOption] at hread

end Sample

theorem rebind_covers_open_work_fresh : ∃ registry revisions overlay,
    Sample.seen Sample.coveredDb = some (some .verified,"verified",true,[]) ∧
    authoritativeTaskRegistry Sample.rebindEnv.sha Sample.locatedFiles Sample.coveredDb =
      .ok (registry,.stateStoreTaskSpecs,revisions) ∧
    overlays Sample.rebindEnv registry Sample.coveredDb = .ok overlay ∧
    Covers Sample.rebindRules Sample.rebindPlan.parameters Sample.rebindEnv Sample.locatedFiles registry
      Sample.coveredDb overlay := by
  have hread : (authoritativeTaskRegistry Sample.rebindEnv.sha Sample.locatedFiles Sample.coveredDb).toOption.any
      (fun found => found.2.1 = .stateStoreTaskSpecs && Sample.receiptsRead found.1 Sample.coveredDb &&
        (overlays Sample.rebindEnv found.1 Sample.coveredDb).toOption.isSome) = true := by
    decide +kernel
  simp only [Option.any_eq_true,Bool.and_eq_true,decide_eq_true_eq,toOption_eq_some] at hread
  obtain ⟨⟨registry,_,revisions⟩,hregistry,⟨rfl,hreceipts⟩,hoverlay⟩ := hread
  obtain ⟨overlay,hoverlay⟩ := Option.isSome_iff_exists.mp hoverlay
  rw [toOption_eq_some] at hoverlay
  exact ⟨registry,revisions,overlay,by decide +kernel,hregistry,hoverlay,
    (rebind_covers_open_work_iff hregistry hoverlay).mpr (Sample.receiptsBind_of_read hreceipts)⟩

/-- The row is current by its digests, so the planner takes the task for verified and leaves it bound to the
old repository; the dispatcher finds that the receipt does not bind it, and the task is open. -/
theorem rebind_misses_stale_task :
    Sample.seen Sample.citingDb = some (some .stale,"verified",true,[]) := by
  decide +kernel

end Bureau
