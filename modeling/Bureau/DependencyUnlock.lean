import Bureau.CurrentTasks
import Bureau.WaitCycles

/-!
Dependencies unlock on current evidence. A dependency counts as verified through a row of the
store, which the overlay compares with the current digests, or through its own registered
state. Git files with a verified task are refused unless the stamp of the task is current;
TaskSpecs are written without that check.
-/

namespace Bureau

open Transactions Relation

variable {sha : Sha} {db : Db} {spec : Json} {registry : Registry} {E : Env} {plan : String} {K : Contracts}

def Task.verification (task : Task) : Json :=
  (task.metadata?.bind (·.get? "verification")).getD (.obj [])

def LoadedClaim.claim (claim : LoadedClaim) : Result Claim :=
  match Mode.ofText? claim.mode with
  | some ⟨mode,claimable⟩ => .ok ⟨claim.resource,mode,claim.amount,claim.isolation,claimable⟩
  | none => stateError ("invalid claim mode " ++ claim.mode)

def LoadedTask.task (sha : Sha) (loaded : LoadedTask) : Result Task := do
  let state ← orRaise (TaskState.ofText? loaded.state) (.state ("invalid state " ++ loaded.state))
  let claims ← collect LoadedClaim.claim loaded.claims
  let priority := ((loaded.raw.get? "priority").filter Json.isObj).getD (.obj [])
  return {
    id := loaded.id
    initiative := loaded.initiative
    state := state
    dependsOn := loaded.dependsOn.filterMap Json.str?
    capabilities := sortedSet (loaded.raw.getStrings "required_capabilities")
    lane := loaded.lane
    rank := ((priority.get? "rank").bind Json.int?).getD 1000
    execution := loaded.execution
    claims := claims
    raw := loaded.raw
    sha256 := taskRevisionSha256 sha loaded.raw }

theorem LoadedTask.task_eq_ok {loaded : LoadedTask} {task : Task} (h : loaded.task sha = .ok task) :
    task.id = loaded.id ∧ task.sha256 = taskRevisionSha256 sha task.raw := by
  simp only [LoadedTask.task,steps_ok] at h
  obtain ⟨_,_,_,_,rfl⟩ := h
  exact ⟨rfl,rfl⟩

theorem LoadedRegistry.taskFindings_nil {r : LoadedRegistry} {paths : PathOps} {loaded : LoadedTask}
    (h : taskFindings paths r loaded = []) :
    loaded.state ∈ taskStates ∧ ∀ claim ∈ loaded.claims, claim.mode ∈ claimModes := by
  simp only [taskFindings,taskFieldFindings,claimFindings,List.append_eq_nil_iff,List.flatMap_eq_nil_iff] at h
  constructor
  · by_contra hne
    simp [expect,hne] at h
  · intro claim hclaim
    by_contra hne
    simpa [expect,hne] using h.2 claim hclaim

/-- The states and claim modes of accepted files are those the model has. -/
theorem LoadedRegistry.exists_tasks {r : LoadedRegistry} {paths : PathOps} (h : r.validate paths = .ok ()) :
    ∃ tasks, collect (LoadedTask.task sha) r.tasks = .ok tasks := by
  have hstates : ∀ text ∈ taskStates, (TaskState.ofText? text).isSome = true := by decide
  have hmodes : ∀ text ∈ claimModes, (Mode.ofText? text).isSome = true := by decide
  have hother := (LoadedRegistry.validate_eq_ok.mp h).1
  simp only [otherFindings,List.append_eq_nil_iff,List.flatMap_eq_nil_iff] at hother
  refine collect_total fun loaded hloaded => ?_
  obtain ⟨hstate,hmode⟩ := taskFindings_nil (hother.1.2 loaded hloaded)
  obtain ⟨claims,hclaims⟩ : ∃ claims, collect LoadedClaim.claim loaded.claims = .ok claims := by
    refine collect_total fun claim hclaim => ?_
    obtain ⟨mode,hmode⟩ := Option.isSome_iff_exists.mp (hmodes _ (hmode claim hclaim))
    rw [LoadedClaim.claim,hmode]
    exact ⟨_,rfl⟩
  obtain ⟨state,hstate⟩ := Option.isSome_iff_exists.mp (hstates _ hstate)
  simp only [LoadedTask.task,hstate,hclaims,steps_ok]
  exact ⟨_,_,rfl,_,rfl,rfl⟩

namespace Registry

/-- What `Registry.validate` demands of a verified task. -/
def stamps (sha : Sha) (registry : Registry) (task : Task) : Bool :=
  task.verification.getStr? "task_sha256" = some task.sha256 &&
    match planSha256 sha registry task.initiative with
    | .ok plan => task.verification.getStr? "plan_sha256" = some plan
    | .error _ => false

/-- What holds of the registry that `Registry.load` returns. -/
structure Loaded (sha : Sha) (registry : Registry) : Prop where
  id : ∀ (id : String) (task : Task), registry.tasks[id]? = some task → task.id = id
  digest : ∀ (id : String) (task : Task), registry.tasks[id]? = some task →
    task.sha256 = taskRevisionSha256 sha task.raw
  stamped : ∀ (id : String) (task : Task), registry.tasks[id]? = some task → task.state = .verified →
    registry.stamps sha task = true

/-- The errors of `Registry.validate` about the stamp of a task. -/
def verificationErrors (sha : Sha) (registry : Registry) (task : Task) : Result (List String) :=
  if task.state = .verified then do
    let plan ← planSha256 sha registry task.initiative
    return (if task.verification.getStr? "task_sha256" = some task.sha256 then []
        else ["verified task " ++ task.id ++ " has stale or missing task verification"]) ++
      if task.verification.getStr? "plan_sha256" = some plan then []
      else ["verified task " ++ task.id ++ " has stale or missing plan verification"]
  else .ok []

theorem stamps_of_verificationErrors {task : Task} (h : registry.verificationErrors sha task = .ok [])
    (hstate : task.state = .verified) : registry.stamps sha task = true := by
  simp only [verificationErrors,if_pos hstate,steps_ok] at h
  obtain ⟨plan,hplan,herrors⟩ := h
  obtain ⟨htask,hstamp⟩ := List.append_eq_nil_iff.mp herrors
  simp only [stamps,hplan,Bool.and_eq_true,decide_eq_true_eq]
  constructor
  · by_contra hne
    simp [hne] at htask
  · by_contra hne
    simp [hne] at hstamp

/-- `others` are the errors of `Registry.validate` about a task that do not concern its stamp. -/
def taskErrors (sha : Sha) (others : Registry → Task → List String) (registry : Registry) (task : Task) :
    Result (List String) := do
  let found ← registry.verificationErrors sha task
  return others registry task ++ found

/-- `Registry.load`, where `base` is what the files of resources, initiatives and queue hold and
`initiativeErrors` what `Registry.validate` finds in it. -/
def load (sha : Sha) (paths : PathOps) (others : Registry → Task → List String) (base : Registry)
    (initiativeErrors : List String) (r : LoadedRegistry) : Result Registry :=
  match r.validate paths with
  | .error .exception => .error (.document "exception")
  | .error (.validation text) => .error (.document text)
  | .ok () => do
    let tasks ← collect (LoadedTask.task sha) r.tasks
    let registry := { base with tasks := .ofList (tasks.map fun task => (task.id,task)) }
    let found ← collect (registry.taskErrors sha others) tasks
    let errors := initiativeErrors ++ found.flatten
    require (errors = []) (.document ("\n".intercalate errors))
    return registry

theorem get_ofTasks {tasks : List Task} {id : String} {task : Task} (hkeys : (tasks.map (·.id)).Nodup)
    (h : (Std.ExtTreeMap.ofList (tasks.map fun task => (task.id,task)) : Table Task)[id]? = some task) :
    task ∈ tasks ∧ task.id = id := by
  have hmem := (Tables.get_ofList (by rwa [List.map_map]) id task).mp h
  obtain ⟨other,hother,heq⟩ := List.mem_map.mp hmem
  cases heq
  exact ⟨hother,rfl⟩

/-- The files that are accepted have a digest and, if verified, a current stamp for every task. -/
theorem loaded_of_load {paths : PathOps} {others : Registry → Task → List String} {base : Registry}
    {initiativeErrors : List String} {r : LoadedRegistry}
    (h : load sha paths others base initiativeErrors r = .ok registry) : registry.Loaded sha := by
  unfold load at h
  split at h
  · cases h
  · cases h
  simp only [steps_ok] at h
  obtain ⟨tasks,htasks,found,hfound,_,hnone,rfl⟩ := h
  have hflatten : found.flatten = [] := (List.append_eq_nil_iff.mp (of_decide_eq_true hnone)).2
  have hids : tasks.map (·.id) = r.tasks.map (·.id) :=
    map_eq_of_collect (fun _ _ h => (LoadedTask.task_eq_ok h).1) htasks
  have hrow {id : String} {task : Task} := @get_ofTasks tasks id task (hids ▸ r.distinctTasks)
  refine ⟨fun id task h => (hrow h).2,fun id task h => ?_,fun id task h hstate => ?_⟩
  · obtain ⟨loaded,_,hloaded⟩ := exists_of_mem_collect htasks (hrow h).1
    exact (LoadedTask.task_eq_ok hloaded).2
  · obtain ⟨errors,herrors,hread⟩ := exists_of_collect hfound (hrow h).1
    obtain rfl : errors = [] := List.flatten_eq_nil_iff.mp hflatten errors herrors
    simp only [taskErrors,steps_ok] at hread
    obtain ⟨stale,hstale,hempty⟩ := hread
    obtain rfl : stale = [] := (List.append_eq_nil_iff.mp hempty).2
    exact stamps_of_verificationErrors hstale hstate

def stampsSpec (sha : Sha) (registry : Registry) (spec : Json) : Bool :=
  match taskFromAuthoritativeSpec sha spec with
  | .ok task => task.state ≠ .verified || registry.stamps sha task
  | .error _ => true

def Evidence (sha : Sha) (registry : Registry) (db : Db) (task : Task) : Prop :=
  ∃ plan, planSha256 sha registry task.initiative = .ok plan ∧
    ((∃ row, db.taskStatus[task.id]? = some row ∧ row.state = .verified ∧ row.taskSha256 = task.sha256 ∧
        row.planSha256 = plan) ∨
      task.verification.getStr? "task_sha256" = some task.sha256 ∧
        task.verification.getStr? "plan_sha256" = some plan)

theorem evidence_of_stamps {task : Task} (db : Db) (h : registry.stamps sha task = true) :
    registry.Evidence sha db task := by
  simp only [stamps,Bool.and_eq_true,decide_eq_true_eq] at h
  obtain ⟨htask,hplan⟩ := h
  split at hplan
  · rename_i plan hread
    exact ⟨plan,hread,.inr ⟨htask,by simpa using hplan⟩⟩
  · simp at hplan

end Registry

theorem overlayOf_verified {task : Task} {overlay : Option TaskState}
    (h : overlayOf E registry db task = .ok overlay) (hverified : overlay.getD task.state = .verified) :
    task.state = .verified ∨ registry.Evidence E.sha db task := by
  unfold overlayOf at h
  split at h
  · cases h
    exact .inl hverified
  · rename_i hterminal
    simp only [bind_eq_ok] at h
    obtain ⟨plan,hplan,h⟩ := h
    split at h
    · cases h
      rw [Option.getD_none] at hverified
      simp [hverified,TaskState.terminal] at hterminal
    · rename_i row hrow
      have hrowState : row.state = .verified → row.taskSha256 = task.sha256 ∧ row.planSha256 = plan →
          registry.Evidence E.sha db task :=
        fun hstate hbinds => ⟨plan,hplan,.inl ⟨row,hrow,hstate,hbinds.1,hbinds.2⟩⟩
      split at h
      · rename_i hopen
        cases h
        rw [Option.getD_some] at hverified
        simp [hverified,TaskState.terminal] at hopen
      · split at h
        · rename_i hbinds
          split at h
          · rename_i hstate
            exact .inr (hrowState hstate hbinds)
          · cases h
            exact .inr (hrowState hverified hbinds)
        · cases h
          simp at hverified

theorem closedSpec_metadata {fields : List (String × Json)}
    (hmetadata : ((Json.obj fields).get? "metadata").all Json.isObj = true) (verification : Json) :
    ∃ metadata, (closedSpec (.obj fields) verification).get? "metadata" = some metadata ∧
      metadata.get? "verification" = some verification ∧ metadata.isObj = true ∧ metadata.pop "verification" =
        (((Json.obj fields).get? "metadata").getD (.obj [])).pop "verification" := by
  have hfilter : ((Json.obj fields).get? "metadata").filter Json.isObj = (Json.obj fields).get? "metadata" := by
    cases hread : (Json.obj fields).get? "metadata" with
    | none => rfl
    | some metadata =>
      rw [hread] at hmetadata
      simpa [Option.filter] using hmetadata
  have hobj : ∃ inner, ((Json.obj fields).get? "metadata").getD (.obj []) = .obj inner := by
    cases hread : (Json.obj fields).get? "metadata" with
    | none => exact ⟨[],rfl⟩
    | some metadata =>
      rw [hread] at hmetadata
      cases metadata <;> simp_all [Json.isObj]
  obtain ⟨inner,hinner⟩ := hobj
  refine ⟨(Json.obj inner).set "verification" verification,?_,by simp,by simp [Json.isObj,Json.set],?_⟩
  · simp only [closedSpec,hfilter,hinner]
    simp [Json.set,Json.get?,Json.field?_insertField]
  · rw [hinner]
    simp only [Json.set,Json.pop,Json.filter_ne_insertField]

theorem revisionDocument_closedSpec (hordered : spec.Ordered)
    (hmetadata : (spec.get? "metadata").all Json.isObj = true) (verification : Json) :
    revisionDocument (closedSpec spec verification) = revisionDocument spec := by
  cases spec with
  | obj fields =>
    have hclosed : (closedSpec (.obj fields) verification).Ordered := (hordered.set _ _).set _ _
    obtain ⟨metadata,hget,_,hobj,hpop⟩ := closedSpec_metadata hmetadata verification
    refine hclosed.revisionDocument.ext hordered.revisionDocument ?_ ?_
    · simp only [isObj_revisionDocument,closedSpec,Json.isObj_set]
      exact ⟨rfl,rfl⟩
    · intro key
      rw [get?_revisionDocument (by simp [hget,hobj]),get?_revisionDocument hmetadata,hget]
      by_cases hs : key = "state"
      · simp [hs]
      · by_cases hm : key = "metadata"
        · rw [if_neg hs,if_neg hs,if_pos hm,if_pos hm,Option.map_some,hpop]
          cases (Json.obj fields).get? "metadata" with
          | none => rfl
          | some metadata => rfl
        · rw [if_neg hs,if_neg hs,if_neg hm,if_neg hm,closedSpec,Json.get?_set_ne _ _ hm,Json.get?_set_ne _ _ hs]
  | _ => rfl

theorem closeoutVerification_digests {material : CloseoutMaterial} {task : String} :
    (closeoutVerification sha material task plan).getStr? "task_sha256" = some task ∧
      (closeoutVerification sha material task plan).getStr? "plan_sha256" = some plan := by
  have hobj := material.isObj
  unfold closeoutVerification Json.getStr?
  cases hstamp : material.stamp <;> simp [hstamp,Json.isObj] at hobj
  simp [Json.set,Json.get?,Json.field?_insertField,Json.str?]

theorem Closeout.stampsSpec {files : Registry} {taskId : String} {task : Task}
    (h : Closeout sha files db taskId spec task plan) (hordered : spec.Ordered) (material : CloseoutMaterial) :
    files.stampsSpec sha (closedSpec spec (closeoutVerification sha material task.sha256 plan)) = true := by
  unfold Registry.stampsSpec
  split
  · rename_i closed hclosed
    obtain ⟨hraw,hdigest,_,hinitiative,_⟩ := taskFromAuthoritativeSpec_eq_ok hclosed
    obtain ⟨_,htaskDigest,_,htaskInitiative,hstate⟩ := taskFromAuthoritativeSpec_eq_ok h.reads
    cases spec with
    | obj fields =>
      obtain ⟨metadata,hget,hverification,hobj,_⟩ :=
        closedSpec_metadata h.metadata (closeoutVerification sha material task.sha256 plan)
      have hstamp : closed.verification = closeoutVerification sha material task.sha256 plan := by
        simp [Task.verification,Task.metadata?,hraw,hget,Option.filter,hobj,hverification]
      have hsame : closed.sha256 = task.sha256 := by
        rw [hdigest,htaskDigest,taskRevisionSha256,revisionDocument_closedSpec hordered h.metadata,
          taskRevisionSha256]
      have hread : closed.initiative = task.initiative := by
        rw [hinitiative,htaskInitiative]
        simp only [Json.getStr?,closedSpec,Json.get?_set_ne _ _ (show "initiative" ≠ "metadata" by decide),
          Json.get?_set_ne _ _ (show "initiative" ≠ "state" by decide)]
      simp [Registry.stamps,hstamp,hsame,hread,h.plan,closeoutVerification_digests]
    | _ => simp [Json.getStr?,Json.get?] at hstate
  · rfl

variable {next : Json} {t : TaskTransition} {id : String}

theorem transitionSpec_ordered (h : transitionSpec spec t = .ok next)
    (hordered : spec.Ordered) : next.Ordered := by
  rcases transitionSpec_eq_ok h with rfl | ⟨_,rfl⟩
  · exact hordered.set _ _
  · exact (hordered.set _ _).set _ _

theorem transitionSpec_stampsSpec {files : Registry}
    (h : transitionSpec spec t = .ok next) : files.stampsSpec sha next = true := by
  have hread : next.getStr? "state" = none ∨ next.getStr? "state" = some t.toState.text := by
    cases spec with
    | obj fields =>
      right
      rcases transitionSpec_eq_ok h with rfl | ⟨_,rfl⟩
      · rw [Json.getStr?,Json.get?_set_self]
        rfl
      · rw [Json.getStr?,Json.get?_set_ne _ _ (by decide),Json.get?_set_self]
        rfl
    | _ =>
      left
      rcases transitionSpec_eq_ok h with rfl | ⟨_,rfl⟩ <;> rfl
  unfold Registry.stampsSpec
  split
  · rename_i task htask
    obtain ⟨_,_,_,_,hstate⟩ := taskFromAuthoritativeSpec_eq_ok htask
    rcases hread with hnone | hsome
    · simp [hnone] at hstate
    · have htarget : t.toState ≠ .stale ∧ t.toState ≠ .verified := by
        rcases t.target with htarget | htarget <;> simp [htarget]
      rw [hsome,Option.bind_some,TaskState.ofText?_text htarget.1] at hstate
      simp [← Option.some.inj hstate,htarget.2]
  · rfl

/-- A dependency without a blocker is registered, and its effective state is verified. -/
theorem Dispatcher.verified_of_dependencyReasons {d : Dispatcher} {overlay : Table TaskState} {task : Task}
    (h : d.dependencyReasons overlay task = .ok []) (hid : id ∈ task.dependsOn) :
    ∃ dependency, d.registry.tasks[id]? = some dependency ∧
      effectiveState overlay id dependency = .verified := by
  simp only [dependencyReasons,steps_ok] at h
  obtain ⟨blockers,hblockers,hnone⟩ := h
  obtain ⟨reasons,hmem,hreasons⟩ := exists_of_collect hblockers hid
  obtain rfl : reasons = [] := List.flatten_eq_nil_iff.mp hnone reasons hmem
  simp only [dependencyReason,steps_ok] at hreasons
  obtain ⟨dependency,hdependency,hstate⟩ := hreasons
  refine ⟨dependency,hdependency,?_⟩
  by_contra hne
  simp [hne] at hstate

structure World where
  files : Registry
  db : Db

inductive Change where
  | edit (files : Registry)
  | operate (op : Op)

def World.step (E : Env) (K : Contracts) (w : World) : Change → World
  | .edit files => { w with files := files }
  | .operate op => { w with db := Bureau.step E K w.db op }

def Op.reads (files : Registry) : Op → Prop
  | .noRunCloseout read _ _ _ _ => read = files
  | _ => True

/-- Every TaskSpec that is put, or kept across an edit of the files, passes the check that
`Registry.validate` makes of Git tasks. Documents list their fields in canonical order. -/
def Change.stamped (sha : Sha) (w : World) : Change → Prop
  | .edit files => files.Loaded sha ∧ w.db.AllSpecs sha fun spec => files.stampsSpec sha spec = true
  | .operate op => op.reads w.files ∧ ∀ spec ∈ op.documents, spec.Ordered ∧ w.files.stampsSpec sha spec = true

/-- Accepted files, and a current stamp on every verified TaskSpec. -/
structure World.Stamped (sha : Sha) (w : World) : Prop where
  files : w.files.Loaded sha
  specs : w.db.AllSpecs sha fun spec => spec.Ordered ∧ w.files.stampsSpec sha spec = true

theorem World.Stamped.step {w : World} {change : Change} (h : w.Stamped E.sha) (hchange : change.stamped E.sha w) :
    (w.step E K change).Stamped E.sha := by
  cases change with
  | edit files =>
    exact ⟨hchange.1,fun id current hcurrent => ⟨(h.specs id current hcurrent).1,hchange.2 id current hcurrent⟩⟩
  | operate op =>
    refine ⟨h.files,step_allSpecs hchange.2 ?_ ?_ h.specs⟩
    · intro t spec next hspec hnext
      exact ⟨transitionSpec_ordered hnext hspec.1,transitionSpec_stampsSpec hnext⟩
    · rintro files now material backfill taskId rfl spec task plan hspec hclose
      obtain rfl : files = w.files := hchange.1
      exact ⟨(hspec.1.set _ _).set _ _,hclose.stampsSpec hspec.1 material⟩

theorem World.stamped_of_reach {files : Registry} {w : World} (hfiles : files.Loaded E.sha)
    (h : Reach (World.step E K) (fun w change => change.stamped E.sha w) ⟨files,Db.fresh E.sha⟩ w) :
    w.Stamped E.sha :=
  Reach.invariant (P := World.Stamped E.sha) ⟨hfiles,Db.AllSpecs.fresh E.sha _⟩
    (fun _ _ hstamped hchange => hstamped.step hchange) h

theorem World.Stamped.stamps {w : World} (h : w.Stamped sha) {task : Task}
    (htask : CurrentTask sha w.files w.db id task) (hstate : task.state = .verified) :
    w.files.stamps sha task = true := by
  rcases htask with ⟨current,hcurrent,hread⟩ | ⟨_,hfile⟩
  · have hspec := (h.specs id current hcurrent).2
    simpa [Registry.stampsSpec,hread,hstate] using hspec
  · exact h.files.stamped id task hfile hstate

def World.dependencyBlockers (E : Env) (w : World) (id : String) : Result (List Reason) := do
  let d ← Dispatcher.init E.sha w.files w.db
  let overlay ← overlays E d.registry w.db
  let task ← orRaise d.registry.tasks[id]? (.state ("unknown task " ++ id))
  d.dependencyReasons overlay task

theorem CurrentTask.sha256_eq {files : Registry} {task : Task} (h : CurrentTask sha files db id task)
    (hfiles : files.Loaded sha) :
    task.sha256 = taskRevisionSha256 sha task.raw := by
  rcases h with ⟨current,_,hread⟩ | ⟨_,hfile⟩
  · obtain ⟨hraw,hdigest,_⟩ := taskFromAuthoritativeSpec_eq_ok hread
    rw [hdigest,hraw]
  · exact hfiles.digest id task hfile

theorem CurrentTask.id_eq {files : Registry} {task : Task} (h : CurrentTask sha files db id task)
    (hfiles : files.Loaded sha) : task.id = id := by
  rcases h with ⟨current,hcurrent,hread⟩ | ⟨_,hfile⟩
  · obtain ⟨_,_,hid,_⟩ := taskFromAuthoritativeSpec_eq_ok hread
    obtain ⟨_,_,_,_,hcanonical⟩ := TaskSpecs.getCurrent_eq_some hcurrent
    rw [hid,TaskSpecs.getStr?_of_canonicalSpecId hcanonical,Option.getD_some]
  · exact hfiles.id id task hfile

theorem Registry.Evidence.congr {files : Registry} {task : Task} (h : registry.Evidence sha db task)
    (hplan : planSha256 sha registry task.initiative = planSha256 sha files task.initiative) :
    files.Evidence sha db task := by
  obtain ⟨plan,hread,hevidence⟩ := h
  exact ⟨plan,hplan ▸ hread,hevidence⟩

/-- While verified TaskSpecs are stamped, a task without dependency blockers depends on tasks with
current evidence only: a verified row or a stamp bound to the digest of the current task and to the
current plan. -/
theorem dependencies_evidenced {E : Env} {K : Contracts} {files : Registry} (hfiles : files.Loaded E.sha)
    {w : World} (hreach : Reach (World.step E K) (fun w change => change.stamped E.sha w)
      ⟨files,Db.fresh E.sha⟩ w) {id : String} (hclear : w.dependencyBlockers E id = .ok []) :
    ∃ task, CurrentTask E.sha w.files w.db id task ∧ ∀ dependency ∈ task.dependsOn, ∃ found,
      CurrentTask E.sha w.files w.db dependency found ∧ found.id = dependency ∧
      found.sha256 = taskRevisionSha256 E.sha found.raw ∧ w.files.Evidence E.sha w.db found := by
  have hstamped := World.stamped_of_reach hfiles hreach
  simp only [World.dependencyBlockers,Dispatcher.init,steps_ok] at hclear
  obtain ⟨_,⟨⟨registry,authority,revisions⟩,hregistry,rfl⟩,overlay,hoverlay,task,htask,hreasons⟩ := hclear
  have hview := authoritativeTaskRegistry_currentView hregistry
  refine ⟨task,hview.tasks id task htask,fun dependency hdependency => ?_⟩
  obtain ⟨found,hfound,hverified⟩ := Dispatcher.verified_of_dependencyReasons hreasons hdependency
  have hcurrent := hview.tasks dependency found hfound
  refine ⟨found,hcurrent,hcurrent.id_eq hstamped.files,hcurrent.sha256_eq hstamped.files,?_⟩
  rcases overlayOf_verified (overlays_get hoverlay hfound) hverified with hstate | hevidence
  · exact Registry.evidence_of_stamps w.db (hstamped.stamps hcurrent hstate)
  · exact hevidence.congr (hview.plan found.initiative)

namespace Sample

def verifiedSpec (metadata : List (String × Json)) : Json :=
  .obj ([("id",.str "T-0"),("initiative",.str "I-1")] ++ metadata ++ [("state",.str "verified")])

def dependentSpec : Json :=
  .obj [("depends_on",.arr [.str "T-0"]),("id",.str "T-1"),("initiative",.str "I-1"),("state",.str "ready")]

def stamp : List (String × Json) :=
  let digest := Json.str "8ef76c7a95b45f68f3d2886d91aad7f5c7993b8b5b8c73a41944651962ffddcb"
  [("metadata",.obj [("verification",.obj [("plan_sha256",digest),("task_sha256",digest)])])]

def putVerified (metadata : List (String × Json)) : Change :=
  .operate (.putTaskSpec 1 (verifiedSpec metadata) "put-0" none "operator")

def putDependent : Change :=
  .operate (.putTaskSpec 2 dependentSpec "put-1" none "operator")

def published (metadata : List (String × Json)) : World :=
  World.step env contracts (World.step env contracts ⟨files,Db.fresh env.sha⟩ (putVerified metadata)) putDependent

def gitRegistry (fields : List (String × Json)) : LoadedRegistry where
  resources := []
  initiatives := [⟨"I-1","A","active","now",1⟩]
  tasks := [⟨"TASK-A","I-1","verified",[],"later",.obj [("mode",.str "manual"),("policy",.str "manual")],[],
    [.obj [("id",.str "done")]],.obj fields⟩]
  queue := []
  distinctResources := List.nodup_nil
  distinctInitiatives := List.nodup_singleton "I-1"
  distinctTasks := List.nodup_singleton "TASK-A"

example : (Registry.load env.sha paths (fun _ _ => []) files [] (gitRegistry stamp)).isOk = true ∧
    Registry.load env.sha paths (fun _ _ => []) files [] (gitRegistry []) = .error (.document
      ("verified task TASK-A has stale or missing task verification\n" ++
        "verified task TASK-A has stale or missing plan verification")) := by
  decide +kernel

theorem files_loaded : files.Loaded env.sha := by
  have htasks {id : String} {found : Task} (h : files.tasks[id]? = some found) : id = "T-1" ∧ found = task := by
    simpa using (Tables.get_ofList (by decide) id found).mp h
  refine ⟨?_,?_,?_⟩ <;> intro id found h <;> obtain ⟨rfl,rfl⟩ := htasks h
  · rfl
  · rfl
  · exact fun h => absurd h (by decide)

end Sample

theorem dependencies_evidenced_stamped :
    (Sample.published Sample.stamp).dependencyBlockers Sample.env "T-1" = .ok [] ∧
      ∃ task, CurrentTask Sample.env.sha Sample.files (Sample.published Sample.stamp).db "T-1" task ∧
        ∀ dependency ∈ task.dependsOn, ∃ found,
          CurrentTask Sample.env.sha Sample.files (Sample.published Sample.stamp).db dependency found ∧
          found.id = dependency ∧ found.sha256 = taskRevisionSha256 Sample.env.sha found.raw ∧
          Sample.files.Evidence Sample.env.sha (Sample.published Sample.stamp).db found := by
  have hclear : (Sample.published Sample.stamp).dependencyBlockers Sample.env "T-1" = .ok [] := by
    decide +kernel
  have hreach : Reach (World.step Sample.env Sample.contracts) (fun w change => change.stamped Sample.env.sha w)
      ⟨Sample.files,Db.fresh Sample.env.sha⟩ (Sample.published Sample.stamp) := by
    have hspecs : ∀ spec ∈ [Sample.verifiedSpec Sample.stamp,Sample.dependentSpec],
        spec.Ordered ∧ Sample.files.stampsSpec Sample.env.sha spec = true := by
      decide +kernel
    have hfirst (db : Db) : (Sample.putVerified Sample.stamp).stamped Sample.env.sha ⟨Sample.files,db⟩ :=
      ⟨trivial,fun spec hspec => hspecs spec (List.mem_singleton.mp hspec ▸ List.mem_cons_self)⟩
    have hsecond (db : Db) : Sample.putDependent.stamped Sample.env.sha ⟨Sample.files,db⟩ :=
      ⟨trivial,fun spec hspec => hspecs spec (List.mem_cons_of_mem _ hspec)⟩
    exact .step (.step .init (hfirst _)) (hsecond _)
  exact ⟨hclear,dependencies_evidenced Sample.files_loaded hreach hclear⟩

/-- A verified TaskSpec unlocks its dependents although nothing was verified. -/
theorem unstamped_dependency_unlocks :
    (Sample.published []).dependencyBlockers Sample.env "T-1" = .ok [] ∧
      ∃ task found, CurrentTask Sample.env.sha Sample.files (Sample.published []).db "T-1" task ∧
        "T-0" ∈ task.dependsOn ∧ CurrentTask Sample.env.sha Sample.files (Sample.published []).db "T-0" found ∧
        ¬ Sample.files.Evidence Sample.env.sha (Sample.published []).db found := by
  have hcurrent : TaskSpecs.getCurrent Sample.env.sha (Sample.published []).db "T-0" = .ok (some
      ⟨"T-0",1,none,TaskSpecs.taskSpecDigest Sample.env.sha (Sample.verifiedSpec []),Sample.verifiedSpec [],
        "operator"⟩) := by
    decide +kernel
  have hdependent : TaskSpecs.getCurrent Sample.env.sha (Sample.published []).db "T-1" = .ok (some
      ⟨"T-1",1,none,TaskSpecs.taskSpecDigest Sample.env.sha Sample.dependentSpec,Sample.dependentSpec,
        "operator"⟩) := by
    decide +kernel
  refine ⟨by decide +kernel,_,_,.inl ⟨_,hdependent,rfl⟩,by decide,.inl ⟨_,hcurrent,rfl⟩,?_⟩
  rintro ⟨plan,_,⟨row,hrow,_⟩ | ⟨hstamp,_⟩⟩
  · have hnone : (Sample.published []).db.taskStatus["T-0"]? = none := by decide +kernel
    cases hnone.symm.trans hrow
  · exact absurd hstamp (by decide)

end Bureau
