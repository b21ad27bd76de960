import Bureau.WaitCycles
import Bureau.CurrentTasks

/-!
The wait relation of the tasks in the store. A put replaces one TaskSpec and looks at no other, and
the registry the dispatcher builds checks that references are known but not that the waits end. The
relation stays free of cycles exactly as long as no put closes one through the task it replaces.
-/

namespace Bureau

open Transactions Relation TaskSpecs

def WaitsEnd (view : String → Option Waiter) : Prop :=
  ∀ id, ¬ TransGen (Waits view) id id

def Task.waiter (task : Task) : Waiter :=
  ⟨task.state.terminal,task.dependsOn,task.parentTask?,task.independentlyExecutable⟩

def Registry.waiter? (registry : Registry) (id : String) : Option Waiter :=
  (registry.tasks[id]?).map Task.waiter

def specWaiter (spec : Json) : Waiter :=
  let metadata := (spec.get? "metadata").filter Json.isObj
  ⟨((spec.getStr? "state").bind TaskState.ofText?).any TaskState.terminal,spec.getStrings "depends_on",
    metadata.bind (·.getStr? "parent_task"),
    (metadata.bind (·.get? "independently_executable")) = some (.bool true)⟩

def Db.waiter? (sha : Sha) (db : Db) (id : String) : Option Waiter :=
  match TaskSpecs.getCurrent sha db id with
  | .ok (some current) => some (specWaiter current.spec)
  | _ => none

/-! A registry built from TaskSpecs has their wait relation. -/

theorem waiter_of_taskFromAuthoritativeSpec {sha : Sha} {spec : Json} {task : Task}
    (h : taskFromAuthoritativeSpec sha spec = .ok task) : task.waiter = specWaiter spec := by
  simp only [taskFromAuthoritativeSpec,steps_ok] at h
  obtain ⟨_,_,state,hstate,_,_,rfl⟩ := h
  simp only [Task.waiter,specWaiter,hstate,Option.any_some]
  rfl

@[simp] theorem Db.waiter?_eq_some {sha : Sha} {db : Db} {id : String} {waiter : Waiter} :
    db.waiter? sha id = some waiter ↔
      ∃ current, getCurrent sha db id = .ok (some current) ∧ specWaiter current.spec = waiter := by
  unfold Db.waiter?
  split
  · rename_i current hcurrent
    simp [hcurrent]
  · rename_i hnone
    simp only [reduceCtorEq,false_iff]
    rintro ⟨current,hcurrent,_⟩
    exact hnone current hcurrent

theorem taskSpecs_ne_empty {sha : Sha} {files registry : Registry} {db : Db} {revisions : Table RevisionRef}
    (h : authoritativeTaskRegistry sha files db = .ok (registry,.stateStoreTaskSpecs,revisions)) :
    db.taskSpecs ≠ ∅ := by
  intro hempty
  have hnone : currentProjection sha db = .ok [] := by
    rw [currentProjection,hempty]
    rfl
  simp only [authoritativeTaskRegistry,bind_eq_ok,hnone,Except.ok.injEq] at h
  obtain ⟨_,_,_,rfl,h⟩ := h
  simp [pure_eq_ok] at h

theorem Registry.waiter?_eq {sha : Sha} {files registry : Registry} {db : Db} {revisions : Table RevisionRef}
    (h : authoritativeTaskRegistry sha files db = .ok (registry,.stateStoreTaskSpecs,revisions)) :
    registry.waiter? = db.waiter? sha := by
  have hview := authoritativeTaskRegistry_currentView h
  funext id
  refine Option.ext fun waiter => ?_
  rw [Db.waiter?_eq_some,Registry.waiter?,Option.map_eq_some_iff]
  constructor
  · rintro ⟨task,htask,rfl⟩
    rcases hview.tasks id task htask with ⟨current,hcurrent,hread⟩ | ⟨hempty,_⟩
    · exact ⟨current,hcurrent,(waiter_of_taskFromAuthoritativeSpec hread).symm⟩
    · exact absurd hempty (taskSpecs_ne_empty h)
  · rintro ⟨current,hcurrent,rfl⟩
    obtain ⟨task,hread,htask⟩ := hview.complete id current hcurrent
    exact ⟨task,htask,waiter_of_taskFromAuthoritativeSpec hread⟩

/-! One task replaced. -/

/-- A task that takes the place of `id` closes a cycle: it waits for itself, or for a task from which
the waits that were there before lead to a task that waits for it. -/
def ClosesCycle (view : String → Option Waiter) (id : String) (new : Waiter) : Prop :=
  new.terminal = false ∧
    ((id ∈ new.dependsOn ∨ new.parent = some id ∧ new.independent = false) ∨
      ∃ b a awaited waiting, view b = some awaited ∧ view a = some waiting ∧ b ≠ id ∧ a ≠ id ∧
        awaited.terminal = false ∧ waiting.terminal = false ∧
        (b ∈ new.dependsOn ∨ awaited.parent = some id ∧ new.independent = false) ∧
        (id ∈ waiting.dependsOn ∨ new.parent = some a ∧ waiting.independent = false) ∧
        ReflTransGen (Search.Avoiding (Waits view) id) b a)

section Replace

variable {view : String → Option Waiter} {id : String} {new : Waiter}

theorem avoiding_update : Search.Avoiding (Waits (Function.update view id (some new))) id =
    Search.Avoiding (Waits view) id := by
  funext a b
  refine propext (and_congr_left fun hne => ?_)
  simp only [Waits,Function.update_of_ne hne.1,Function.update_of_ne hne.2]

theorem cycle_update_iff : TransGen (Waits (Function.update view id (some new))) id id ↔ ClosesCycle view id new := by
  rw [Search.transGen_self_iff,avoiding_update]
  constructor
  · rintro (⟨_,_,hself,hself',hlive,_,hedge⟩ | ⟨b,a,hout,hback,hb,ha,hway⟩)
    · rw [Function.update_self,Option.some.injEq] at hself hself'
      subst hself hself'
      exact ⟨hlive,.inl hedge⟩
    · obtain ⟨_,awaited,hself,hawaited,hlive,hlive',hedge⟩ := hout
      obtain ⟨waiting,_,hwaiting,hself',hlive'',_,hedge'⟩ := hback
      rw [Function.update_self,Option.some.injEq] at hself hself'
      rw [Function.update_of_ne hb] at hawaited
      rw [Function.update_of_ne ha] at hwaiting
      subst hself hself'
      exact ⟨hlive,.inr ⟨b,a,awaited,waiting,hawaited,hwaiting,hb,ha,hlive',hlive'',hedge,hedge',hway⟩⟩
  · rintro ⟨hlive,hedge | ⟨b,a,awaited,waiting,hawaited,hwaiting,hb,ha,hlive',hlive'',hedge,hedge',hway⟩⟩
    · exact .inl ⟨new,new,Function.update_self ..,Function.update_self ..,hlive,hlive,hedge⟩
    · have hawaited' := (Function.update_of_ne hb (some new) view).trans hawaited
      have hwaiting' := (Function.update_of_ne ha (some new) view).trans hwaiting
      exact .inr ⟨b,a,⟨new,awaited,Function.update_self ..,hawaited',hlive,hlive',hedge⟩,
        ⟨waiting,new,hwaiting',Function.update_self ..,hlive'',hlive,hedge'⟩,hb,ha,hway⟩

theorem waitsEnd_update_iff (h : WaitsEnd view) :
    WaitsEnd (Function.update view id (some new)) ↔ ¬ ClosesCycle view id new := by
  rw [← cycle_update_iff]
  refine ⟨fun hend => hend id,fun hclear a hcycle => ?_⟩
  rcases Search.cycle_avoids_or_through id hcycle with havoids | hthrough
  · rw [avoiding_update] at havoids
    have hsub : ∀ c d, Search.Avoiding (Waits view) id c d → Waits view c d := fun _ _ hedge => hedge.1
    exact h a (TransGen.mono hsub _ _ havoids)
  · exact hclear hthrough

end Replace

/-! Puts. -/

structure PutCall where
  now : Time
  spec : Json
  key : String
  expected : Option ℕ
  source : String

namespace PutCall

variable {E : Env} {db db' : Db} {c : PutCall} {result : TaskSpecs.PutResult}

def apply (E : Env) (db : Db) (c : PutCall) : Result (TaskSpecs.PutResult × Db) :=
  TaskSpecs.put E c.now db c.spec c.key c.expected c.source

def step (E : Env) (db : Db) (c : PutCall) : Db :=
  commit db ((c.apply E db).map Prod.snd)

theorem step_of_apply (h : c.apply E db = .ok (result,db')) : c.step E db = db' := by
  rw [step,h]
  rfl

def taskId (c : PutCall) : String := (c.spec.getStr? "id").getD ""

def Known (sha : Sha) (db : Db) (c : PutCall) : Prop :=
  db.taskSpecMutations.contains c.key = true ∨ ∃ current,
    TaskSpecs.getCurrent sha db c.taskId = .ok (some current) ∧
      current.specSha256 = TaskSpecs.taskSpecDigest sha c.spec

def Clear (sha : Sha) (db : Db) (c : PutCall) : Prop :=
  c.Known sha db ∨ ¬ ClosesCycle (db.waiter? sha) c.taskId (specWaiter c.spec)

theorem waiter?_setRevision {sha : Sha} {next : CurrentSpec} (hnext : SpecSuccessor sha db next) (now : Time)
    (key : String) (expected : Option ℕ) : (setRevision now db next key expected).waiter? sha =
      Function.update (db.waiter? sha) next.taskId (some (specWaiter next.spec)) := by
  funext id
  rw [Db.waiter?,getCurrent_setRevision hnext]
  by_cases hid : id = next.taskId
  · subst hid
    simp
  · rw [if_neg hid,Function.update_of_ne hid,Db.waiter?]

/-- An accepted put that is not known replaces its task, any other one leaves the TaskSpecs alone. -/
theorem waiter?_of_apply (h : c.apply E db = .ok (result,db')) :
    c.Known E.sha db ∧ db'.waiter? E.sha = db.waiter? E.sha ∨
      ¬ c.Known E.sha db ∧ db'.waiter? E.sha =
        Function.update (db.waiter? E.sha) c.taskId (some (specWaiter c.spec)) := by
  have hcontains : db.taskSpecMutations.contains c.key = (db.taskSpecMutations[c.key]?).isSome :=
    Std.ExtTreeMap.contains_eq_isSome_getElem?
  have htask {spec : Json} {taskId : String} (hspec : spec = c.spec)
      (hid : canonicalSpecId spec = .ok taskId) : c.taskId = taskId := by
    rw [PutCall.taskId,← hspec,getStr?_of_canonicalSpecId hid,Option.getD_some]
  cases putValidatedMaterial_effect (put_eq_ok h) with
  | replay id receipt =>
    refine .inl ⟨.inl ?_,rfl⟩
    rw [hcontains,receipt,Option.isSome_some]
  | known id write read digest => exact .inl ⟨.inr ⟨_,htask rfl id ▸ read,digest⟩,rfl⟩
  | set document origin successor write changed =>
    have hid := htask document successor.id
    refine .inr ⟨?_,?_⟩
    · rintro (hused | ⟨current,hcurrent,hsame⟩)
      · rw [hcontains,write.unused] at hused
        cases hused
      · rw [hid] at hcurrent
        exact changed current hcurrent (hsame.trans (document ▸ successor.digest.symm))
    · rw [waiter?_setRevision successor,hid,document]

theorem waitsEnd_apply_iff (hbefore : WaitsEnd (db.waiter? E.sha)) (h : c.apply E db = .ok (result,db')) :
    WaitsEnd (db'.waiter? E.sha) ↔ c.Clear E.sha db := by
  rcases waiter?_of_apply h with ⟨hknown,hview⟩ | ⟨hnew,hview⟩
  · rw [hview]
    exact ⟨fun _ => .inl hknown,fun _ => hbefore⟩
  · rw [hview,waitsEnd_update_iff hbefore]
    exact ⟨.inr,fun hclear => hclear.resolve_left hnew⟩

def Admitted (E : Env) (db : Db) (c : PutCall) : Prop :=
  (∃ outcome, c.apply E db = .ok outcome) ∧ c.Clear E.sha db

theorem waitsEnd_of_reach {start : Db} (hstart : WaitsEnd (start.waiter? E.sha))
    (h : Reach (step E) (Admitted E) start db) : WaitsEnd (db.waiter? E.sha) := by
  refine Reach.invariant (P := fun db => WaitsEnd (db.waiter? E.sha)) hstart ?_ h
  rintro before c hbefore ⟨⟨⟨result,after⟩,happly⟩,hclear⟩
  rw [step_of_apply happly]
  exact (waitsEnd_apply_iff hbefore happly).mpr hclear

end PutCall

theorem Db.waitsEnd_fresh (sha : Sha) : WaitsEnd ((Db.fresh sha).waiter? sha) := by
  intro id hcycle
  obtain ⟨_,⟨_,_,hnone,_⟩,_⟩ := TransGen.head'_iff.mp hcycle
  simp [Db.waiter?,getCurrent,Db.fresh] at hnone

/-- After accepted puts none of which closes a cycle, every registry the dispatcher builds from the
TaskSpecs is free of cyclic waits. One more accepted put keeps it so if and only if it closes none. -/
theorem spec_registry_waits_end_iff (E : Env) (files : Registry) (start db : Db)
    (hstart : WaitsEnd (start.waiter? E.sha)) (h : Reach (PutCall.step E) (PutCall.Admitted E) start db) :
    (∀ registry revisions,
      authoritativeTaskRegistry E.sha files db = .ok (registry,.stateStoreTaskSpecs,revisions) →
        WaitsEnd registry.waiter?) ∧
      ∀ (c : PutCall) (result : TaskSpecs.PutResult) (db' : Db) (registry : Registry) (revisions : Table RevisionRef),
        c.apply E db = .ok (result,db') →
          authoritativeTaskRegistry E.sha files db' = .ok (registry,.stateStoreTaskSpecs,revisions) →
            (WaitsEnd registry.waiter? ↔ c.Clear E.sha db) := by
  have hend := PutCall.waitsEnd_of_reach hstart h
  constructor
  · intro registry revisions hregistry
    rw [Registry.waiter?_eq hregistry]
    exact hend
  · intro c result db' registry revisions happly hregistry
    rw [Registry.waiter?_eq hregistry]
    exact PutCall.waitsEnd_apply_iff hend happly

namespace Sample

def parentSpec : Json :=
  .obj [("id",.str "T-1"),("initiative",.str "I-1"),("state",.str "ready")]

def childSpec (dependsOn : List Json) : Json :=
  .obj [("depends_on",.arr dependsOn),("id",.str "T-2"),("initiative",.str "I-1"),
    ("metadata",.obj [("parent_task",.str "T-1")]),("state",.str "ready")]

def putParent : PutCall := ⟨1,parentSpec,"put-1",none,"operator"⟩

def putChild (dependsOn : List Json) : PutCall := ⟨2,childSpec dependsOn,"put-2",none,"operator"⟩

def parentDb : Db := putParent.step env (Db.fresh env.sha)

def childDb (dependsOn : List Json) : Db := (putChild dependsOn).step env parentDb

/-- The dispatcher builds a registry from the TaskSpecs of the store. -/
def builds (db : Db) : Bool :=
  (authoritativeTaskRegistry env.sha files db).toOption.any fun built => built.2.1 = .stateStoreTaskSpecs

theorem exists_of_builds {db : Db} (h : builds db = true) : ∃ registry revisions,
    authoritativeTaskRegistry env.sha files db = .ok (registry,.stateStoreTaskSpecs,revisions) := by
  obtain ⟨⟨registry,authority,revisions⟩,hbuilt,hauthority⟩ := (Option.any_eq_true _ _).mp h
  obtain rfl : authority = .stateStoreTaskSpecs := by simpa using hauthority
  exact ⟨registry,revisions,toOption_eq_some.mp hbuilt⟩

theorem putParent_admitted : putParent.Admitted env (Db.fresh env.sha) := by
  refine ⟨⟨_,rfl⟩,.inr ?_⟩
  rintro ⟨_,(hself | ⟨hself,_⟩) | ⟨b,_,_,_,hb,_⟩⟩
  · exact absurd hself (by decide)
  · exact absurd hself (by decide)
  · simp [Db.waiter?,getCurrent,Db.fresh] at hb

theorem putChild_admitted : (putChild []).Admitted env parentDb := by
  have hparents : parentDb.AllSpecs env.sha fun spec => (specWaiter spec).parent = none := by
    obtain ⟨⟨result,after⟩,happly⟩ := putParent_admitted.1
    rw [parentDb,PutCall.step_of_apply happly]
    exact (Db.AllSpecs.fresh env.sha _).putValidatedMaterial (put_eq_ok happly) rfl
  refine ⟨⟨_,rfl⟩,.inr ?_⟩
  rintro ⟨_,(hself | ⟨hself,_⟩) | ⟨b,_,awaited,_,hb,_,_,_,_,_,hedge | ⟨hedge,_⟩,_⟩⟩
  · exact absurd hself (by decide)
  · exact absurd hself (by decide)
  · have hnone : (specWaiter (putChild []).spec).dependsOn = [] := by decide +kernel
    simp [hnone] at hedge
  · obtain ⟨current,hcurrent,rfl⟩ := Db.waiter?_eq_some.mp hb
    rw [hparents b current hcurrent] at hedge
    cases hedge

end Sample

theorem spec_registry_waits_end_iff_child : ∃ registry revisions,
    authoritativeTaskRegistry Sample.env.sha Sample.files (Sample.childDb []) =
      .ok (registry,.stateStoreTaskSpecs,revisions) ∧ WaitsEnd registry.waiter? := by
  have hreach : Reach (PutCall.step Sample.env) (PutCall.Admitted Sample.env) (Db.fresh Sample.env.sha)
      (Sample.childDb []) :=
    .step (.step .init Sample.putParent_admitted) Sample.putChild_admitted
  have hbuilds : Sample.builds (Sample.childDb []) = true := by decide +kernel
  obtain ⟨registry,revisions,hbuilt⟩ := Sample.exists_of_builds hbuilds
  have hend := spec_registry_waits_end_iff Sample.env Sample.files _ _ (Db.waitsEnd_fresh _) hreach
  exact ⟨registry,revisions,hbuilt,hend.1 registry revisions hbuilt⟩

/-- A child that depends on its parent is accepted, and so is the registry in which both wait for each
other. -/
theorem child_waits_for_its_parent :
    (∃ outcome, Sample.putParent.apply Sample.env (Db.fresh Sample.env.sha) = .ok outcome) ∧
      (∃ outcome, (Sample.putChild [.str "T-1"]).apply Sample.env Sample.parentDb = .ok outcome) ∧
      ∃ registry revisions, authoritativeTaskRegistry Sample.env.sha Sample.files (Sample.childDb [.str "T-1"]) =
        .ok (registry,.stateStoreTaskSpecs,revisions) ∧ TransGen (Waits registry.waiter?) "T-1" "T-1" := by
  have hbuilds : Sample.builds (Sample.childDb [.str "T-1"]) = true := by decide +kernel
  obtain ⟨registry,revisions,hbuilt⟩ := Sample.exists_of_builds hbuilds
  refine ⟨⟨_,rfl⟩,⟨_,rfl⟩,registry,revisions,hbuilt,?_⟩
  rw [Registry.waiter?_eq hbuilt]
  have hparent : (Sample.childDb [.str "T-1"]).waiter? Sample.env.sha "T-1" = some ⟨false,[],none,false⟩ := by
    decide +kernel
  have hchild : (Sample.childDb [.str "T-1"]).waiter? Sample.env.sha "T-2" = some ⟨false,["T-1"],some "T-1",false⟩ := by
    decide +kernel
  have hdown : Waits ((Sample.childDb [.str "T-1"]).waiter? Sample.env.sha) "T-1" "T-2" :=
    ⟨_,_,hparent,hchild,rfl,rfl,.inr ⟨rfl,rfl⟩⟩
  have hup : Waits ((Sample.childDb [.str "T-1"]).waiter? Sample.env.sha) "T-2" "T-1" :=
    ⟨_,_,hchild,hparent,rfl,rfl,.inl List.mem_cons_self⟩
  exact .tail (.single hdown) hup

end Bureau
