import Bureau.Validation

/-!
A task waits for its dependencies and, unless it is independently executable, for its children, as
long as both sides are not terminal. In a registry that passes validation no task waits for itself
through any number of steps: a cycle of one kind is found by the check of that kind, and a mixed one
by the search that records which kinds of edge it has used.
-/

namespace Bureau

open Relation

structure Waiter where
  terminal : Bool
  dependsOn : List String
  parent : Option String
  independent : Bool
  deriving DecidableEq

def Waits (view : String → Option Waiter) (a b : String) : Prop :=
  ∃ waiting awaited, view a = some waiting ∧ view b = some awaited ∧
    waiting.terminal = false ∧ awaited.terminal = false ∧
    (b ∈ waiting.dependsOn ∨ awaited.parent = some a ∧ waiting.independent = false)

def LoadedTask.waiter (task : LoadedTask) : Waiter :=
  ⟨task.terminal,task.dependsOn.filterMap Json.str?,task.parentTask?,task.independentlyExecutable⟩

namespace LoadedRegistry

def waiter? (r : LoadedRegistry) (id : String) : Option Waiter :=
  (r.task? id).map LoadedTask.waiter

variable {r : LoadedRegistry}

variable {id a b child parent : String} {kind : WaitKind} {pairs : List (String × String)}

theorem id_of_task? {task : LoadedTask} (h : r.task? id = some task) :
    task ∈ r.tasks ∧ task.id = id := by
  have hid := List.find?_some h
  exact ⟨List.mem_of_find?_eq_some h,by simpa using hid⟩

theorem mem_taskIds (h : (r.task? id).isSome = true) : id ∈ r.taskIds := by
  obtain ⟨task,htask⟩ := Option.isSome_iff_exists.mp h
  have hmem := id_of_task? htask
  exact List.mem_map.mpr ⟨task,hmem.1,hmem.2⟩

@[simp] theorem live_iff : r.live id = true ↔ ∃ task, r.task? id = some task ∧ task.terminal = false := by
  rw [live,Option.any_eq_true]
  simp

theorem isSome_of_live (h : r.live id = true) : (r.task? id).isSome = true := by
  obtain ⟨task,htask,_⟩ := live_iff.mp h
  simp [htask]

/-! Edges. -/

def Edge (r : LoadedRegistry) (kind : WaitKind) (a b : String) : Prop :=
  (b,kind) ∈ r.adjacency r.parentByChild a

theorem edge_dependency :
    r.Edge .dependency a b ↔ r.live a = true ∧ r.live b = true ∧ b ∈ r.dependsOn a := by
  rw [Edge,adjacency,List.mem_insertionSort,waitEdges,live_iff]
  cases htask : r.task? a with
  | none => simp
  | some task =>
    by_cases hterminal : task.terminal = true
    · simp [hterminal]
    · by_cases hindependent : task.independentlyExecutable = true
      · simp [hterminal,hindependent,and_comm]
      · simp [hterminal,hindependent,and_comm]

theorem edge_parent :
    r.Edge .parent a b ↔ (∃ task, r.task? a = some task ∧ task.terminal = false ∧
      task.independentlyExecutable = false) ∧ r.live b = true ∧ (b,a) ∈ r.parentByChild := by
  rw [Edge,adjacency,List.mem_insertionSort,waitEdges]
  cases htask : r.task? a with
  | none => simp
  | some task =>
    by_cases hterminal : task.terminal = true
    · simp [hterminal]
    · by_cases hindependent : task.independentlyExecutable = true
      · simp [hterminal,hindependent]
      · simp [hterminal,hindependent,and_comm]

theorem live_of_edge (h : r.Edge kind a b) :
    r.live a = true ∧ r.live b = true := by
  cases kind with
  | dependency =>
    have hedge := edge_dependency.mp h
    exact ⟨hedge.1,hedge.2.1⟩
  | parent =>
    obtain ⟨⟨task,htask,hterminal,_⟩,hlive,_⟩ := edge_parent.mp h
    exact ⟨live_iff.mpr ⟨task,htask,hterminal⟩,hlive⟩

/-! The three checks. -/

theorem eq_nil_of_cycleMessages {subject : String} {cycles : List (List String)}
    (h : cycleMessages subject cycles = []) : cycles = [] := by
  have hsorted := List.map_eq_nil_iff.mp h
  have hlength : (cycles.map leastRotation).eraseDups.length = 0 := by
    rw [← List.length_insertionSort (fun a b => ¬ b < a),hsorted,List.length_nil]
  cases cycles with
  | nil => rfl
  | cons cycle rest => simp [List.eraseDups_cons] at hlength

theorem not_dependency_cycle (h : r.taskCycles = []) (a : String) : ¬ TransGen (r.Edge .dependency) a a := by
  refine Search.not_cycle_of_acc (fun node => ?_) a
  have hacc := Search.acc_of_visitAll (fun _ => mem_taskIds) h node
  refine Subrelation.accessible (fun {b a} hedge => ?_) hacc
  have hmem := edge_dependency.mp hedge
  exact ⟨hmem.2.2,isSome_of_live hmem.1,isSome_of_live hmem.2.1⟩

theorem nodup_parentByChild (r : LoadedRegistry) : (r.parentByChild.map Prod.fst).Nodup := by
  refine List.Nodup.sublist ?_ r.distinctTasks
  rw [parentByChild]
  induction r.tasks with
  | nil => exact List.Sublist.slnil
  | cons task rest ih =>
    rw [List.filterMap_cons,List.map_cons]
    split
    · exact ih.cons _
    · rename_i pair hpair
      obtain ⟨parent,_,hkept⟩ := Option.bind_eq_some_iff.mp hpair
      have hid : pair.1 = task.id := by
        split at hkept
        · cases hkept
          rfl
        · cases hkept
      rw [List.map_cons,hid]
      exact ih.cons_cons _

theorem lookup_of_mem (hpairs : (pairs.map Prod.fst).Nodup)
    (h : (child,parent) ∈ pairs) : lookup pairs child = some parent := by
  induction pairs with
  | nil => simp at h
  | cons pair rest ih =>
    rw [List.map_cons,List.nodup_cons] at hpairs
    rcases List.mem_cons.mp h with rfl | hrest
    · simp [lookup]
    · have hne : pair.1 ≠ child := by
        rintro rfl
        exact hpairs.1 (List.mem_map.mpr ⟨_,hrest,rfl⟩)
      have hfound := ih hpairs.2 hrest
      simpa [lookup,List.find?_cons,hne] using hfound

theorem mem_of_lookup (h : lookup pairs child ≠ none) :
    child ∈ pairs.map Prod.fst := by
  simp only [lookup,ne_eq,Option.map_eq_none_iff,List.find?_eq_none,not_forall] at h
  obtain ⟨pair,hpair,hchild⟩ := h
  exact List.mem_map.mpr ⟨pair,hpair,by simpa using hchild⟩

theorem not_parent_cycle (h : taskParentCycles r.parentByChild = []) (a : String) :
    ¬ TransGen (r.Edge .parent) a a := by
  have hloops := List.filterMap_eq_nil_iff.mp (eq_nil_of_cycleMessages h)
  have hacc : ∀ child, Acc (fun parent child => lookup r.parentByChild child = some parent) child := by
    intro child
    by_cases hchild : lookup r.parentByChild child = none
    · refine Acc.intro _ fun parent hparent => ?_
      simp [hchild] at hparent
    · have hmem := mem_of_lookup hchild
      refine Search.acc_of_findLoop (fun _ => mem_of_lookup) ?_ (hloops child ((List.mem_insertionSort _).mpr hmem))
      have hle : Search.unvisited (r.parentByChild.map Prod.fst) [] ≤ (r.parentByChild.map Prod.fst).length :=
        List.length_filter_le _ _
      rw [List.length_map] at hle
      omega
  -- an edge leads from the parent to the child, the walk from the child to the parent
  have hup : ∀ parent child, r.Edge .parent parent child → lookup r.parentByChild child = some parent :=
    fun _ _ hedge => lookup_of_mem r.nodup_parentByChild (edge_parent.mp hedge).2.2
  intro hcycle
  exact Search.not_cycle_of_acc hacc a (transGen_swap.mp (TransGen.mono hup _ _ hcycle))

def waitSpace (r : LoadedRegistry) : List WaitState :=
  r.taskIds.flatMap fun id => [(id,false,false),(id,false,true),(id,true,false),(id,true,true)]

theorem mem_waitSpace {state : WaitState} (h : state.1 ∈ r.taskIds) : state ∈ r.waitSpace := by
  obtain ⟨id,usedDependency,usedParent⟩ := state
  refine List.mem_flatMap.mpr ⟨id,h,?_⟩
  cases usedDependency <;> cases usedParent <;> simp

@[simp] theorem length_waitSpace (r : LoadedRegistry) : r.waitSpace.length = 4*r.tasks.length := by
  rw [waitSpace,taskIds,List.length_flatMap]
  simp [Function.comp_def,Nat.mul_comm]

def SearchStep (r : LoadedRegistry) (a b : WaitState) : Prop :=
  b ∈ waitNext (r.adjacency r.parentByChild) a

theorem searchStep_of_edge (h : r.Edge kind a b) (usedDependency usedParent : Bool) :
    r.SearchStep (a,usedDependency,usedParent)
      (b,usedDependency || kind = .dependency,usedParent || kind = .parent) :=
  List.mem_map.mpr ⟨(b,kind),h,rfl⟩

theorem not_mixed_cycle (h : r.taskWaitCycles r.parentByChild = []) (ha : r.live a = true) :
    ¬ ReflTransGen r.SearchStep (a,false,false) (a,true,true) := by
  intro hreach
  have hsearches := List.filterMap_eq_nil_iff.mp (eq_nil_of_cycleMessages h)
  have hnone := hsearches a ((List.mem_insertionSort _).mpr (mem_taskIds (isSome_of_live ha)))
  have hspace : ∀ state, ∀ next ∈ waitNext (r.adjacency r.parentByChild) state, next ∈ r.waitSpace := by
    intro state next hnext
    obtain ⟨edge,hedge,rfl⟩ := List.mem_map.mp hnext
    have hedge' : r.Edge edge.2 state.1 edge.1 := hedge
    have hlive := (live_of_edge hedge').2
    exact mem_waitSpace (mem_taskIds (isSome_of_live hlive))
  have hgoal := Search.not_goal_of_breadthFirst hspace (by rw [length_waitSpace]; omega)
    (Option.map_eq_none_iff.mp hnone) hreach
  simp at hgoal

/-- A walk along wait edges as the search sees it: unless both flags are set, the walk has edges of
one kind only. -/
structure Walk (r : LoadedRegistry) (start node : String) (usedDependency usedParent : Bool) : Prop where
  reached : ReflTransGen r.SearchStep (start,false,false) (node,usedDependency,usedParent)
  parents : usedDependency = false → TransGen (r.Edge .parent) start node
  dependencies : usedParent = false → TransGen (r.Edge .dependency) start node

theorem Walk.single (h : r.Edge kind a b) :
    r.Walk a b (kind = .dependency) (kind = .parent) := by
  have hstep := searchStep_of_edge h false false
  rw [Bool.false_or,Bool.false_or] at hstep
  refine ⟨.single hstep,fun hkind => ?_,fun hkind => ?_⟩
  · cases kind with
    | dependency => simp at hkind
    | parent => exact .single h
  · cases kind with
    | dependency => exact .single h
    | parent => simp at hkind

theorem Walk.tail {start : String} {usedDependency usedParent : Bool}
    (walk : r.Walk start a usedDependency usedParent) (h : r.Edge kind a b) :
    r.Walk start b (usedDependency || kind = .dependency) (usedParent || kind = .parent) := by
  refine ⟨walk.reached.tail (searchStep_of_edge h _ _),fun hused => ?_,fun hused => ?_⟩
  · rw [Bool.or_eq_false_iff] at hused
    cases kind with
    | dependency => simp at hused
    | parent => exact (walk.parents hused.1).tail h
  · rw [Bool.or_eq_false_iff] at hused
    cases kind with
    | dependency => exact (walk.dependencies hused.1).tail h
    | parent => simp at hused

theorem exists_walk (h : TransGen (fun a b => ∃ kind, r.Edge kind a b) a b) :
    ∃ usedDependency usedParent, r.Walk a b usedDependency usedParent := by
  induction h with
  | single hedge =>
    obtain ⟨kind,hedge⟩ := hedge
    exact ⟨_,_,Walk.single hedge⟩
  | tail _ hedge ih =>
    obtain ⟨kind,hedge⟩ := hedge
    obtain ⟨usedDependency,usedParent,walk⟩ := ih
    exact ⟨_,_,walk.tail hedge⟩

theorem not_edge_cycle (h : r.cycleErrors = []) (a : String) :
    ¬ TransGen (fun a b => ∃ kind, r.Edge kind a b) a a := by
  intro hcycle
  rw [cycleErrors,List.append_eq_nil_iff,List.append_eq_nil_iff] at h
  obtain ⟨usedDependency,usedParent,walk⟩ := exists_walk hcycle
  have hlive : r.live a = true := by
    obtain ⟨b,hedge,_⟩ := TransGen.head'_iff.mp hcycle
    obtain ⟨kind,hedge⟩ := hedge
    exact (live_of_edge hedge).1
  cases usedDependency with
  | false => exact not_parent_cycle h.1.2 a (walk.parents rfl)
  | true =>
    cases usedParent with
    | false => exact not_dependency_cycle h.1.1 a (walk.dependencies rfl)
    | true => exact not_mixed_cycle h.2 hlive walk.reached

/-! The wait relation of the registry. -/

theorem mem_parentByChild {paths : PathOps} (h : r.otherFindings paths = []) {task : LoadedTask}
    (htask : task ∈ r.tasks) (hparent : task.parentTask? = some parent) : (task.id,parent) ∈ r.parentByChild := by
  have hfindings : r.parentFindings task = [] := by
    simp only [otherFindings,List.append_eq_nil_iff,List.flatMap_eq_nil_iff] at h
    have htaskFindings := h.1.2 task htask
    simp only [taskFindings,metadataFindings,List.append_eq_nil_iff] at htaskFindings
    exact htaskFindings.1.1.2.1.2
  refine List.mem_filterMap.mpr ⟨task,htask,?_⟩
  simp [hparent,hfindings]

theorem edge_of_waits {paths : PathOps} (h : r.otherFindings paths = []) (hwaits : Waits r.waiter? a b) :
    ∃ kind, r.Edge kind a b := by
  obtain ⟨waiting,awaited,hwaiting,hawaited,hlive,hlive',hedge⟩ := hwaits
  obtain ⟨task,htask,rfl⟩ := Option.map_eq_some_iff.mp hwaiting
  obtain ⟨child,hchild,rfl⟩ := Option.map_eq_some_iff.mp hawaited
  have hb : r.live b = true := live_iff.mpr ⟨child,hchild,hlive'⟩
  rcases hedge with hdependency | ⟨hparent,hindependent⟩
  · refine ⟨.dependency,edge_dependency.mpr ⟨live_iff.mpr ⟨task,htask,hlive⟩,hb,?_⟩⟩
    rw [dependsOn,htask]
    exact hdependency
  · have hmem := mem_parentByChild h (id_of_task? hchild).1 hparent
    rw [(id_of_task? hchild).2] at hmem
    exact ⟨.parent,edge_parent.mpr ⟨⟨task,htask,hlive,hindependent⟩,hb,hmem⟩⟩

theorem cycleErrors_ne_nil {paths : PathOps} (h : r.otherFindings paths = [])
    (hcycle : TransGen (Waits r.waiter?) id id) : r.cycleErrors ≠ [] := by
  intro hclean
  have hedges : ∀ a b, Waits r.waiter? a b → ∃ kind, r.Edge kind a b := fun _ _ => edge_of_waits h
  exact not_edge_cycle hclean id (TransGen.mono hedges _ _ hcycle)

theorem validate_eq_ok {paths : PathOps} :
    r.validate paths = .ok () ↔ r.otherFindings paths = [] ∧ r.cycleErrors = [] := by
  simp only [validate]
  split
  · rename_i hexception
    have hne : r.otherFindings paths ++ r.cycleErrors.map .message ≠ [] := by
      intro hnil
      simp [hnil] at hexception
    simp only [reduceCtorEq,false_iff]
    rintro ⟨hother,hcycles⟩
    simp [hother,hcycles] at hne
  · split
    · rename_i hempty
      simpa using hempty
    · rename_i hempty
      simpa using hempty

theorem validate_of_cycles {paths : PathOps} (h : r.otherFindings paths = []) (hcycles : r.cycleErrors ≠ []) :
    r.validate paths = .error (.validation ("\n".intercalate (sortedSet r.cycleErrors))) := by
  have hexception : (r.cycleErrors.map Finding.message).contains .exception = false := by
    simp
  have hempty : (r.cycleErrors.map Finding.message).isEmpty = false := by
    simpa using hcycles
  have htexts : (r.cycleErrors.map Finding.message).filterMap Finding.text? = r.cycleErrors := by
    simp [List.filterMap_map,Function.comp_def,Finding.text?]
  simp only [validate,h,List.nil_append,hexception,hempty,Bool.false_eq_true,if_false,htexts]

end LoadedRegistry

/-- An accepted registry has no cycle of waits, and one that is wrong only in having such a cycle is
rejected with the cycles that were found. -/
theorem validated_registry_waits_acyclic (paths : PathOps) (r : LoadedRegistry) :
    (r.validate paths = .ok () → ∀ id, ¬ TransGen (Waits r.waiter?) id id) ∧
      (r.otherFindings paths = [] → (∃ id, TransGen (Waits r.waiter?) id id) → r.cycleErrors ≠ [] ∧
        r.validate paths = .error (.validation ("\n".intercalate (sortedSet r.cycleErrors)))) := by
  constructor
  · intro haccepted id hcycle
    have hclean := LoadedRegistry.validate_eq_ok.mp haccepted
    exact LoadedRegistry.cycleErrors_ne_nil hclean.1 hcycle hclean.2
  · rintro hother ⟨id,hcycle⟩
    have hcycles := LoadedRegistry.cycleErrors_ne_nil hother hcycle
    exact ⟨hcycles,LoadedRegistry.validate_of_cycles hother hcycles⟩

namespace Sample

def paths : PathOps := ⟨id,some,fun _ _ => true⟩

def loadedTask (id : String) (dependsOn : List Json) (metadata : Json) : LoadedTask :=
  { id := id
    initiative := "INIT-A"
    state := "planned"
    dependsOn := dependsOn
    lane := "later"
    execution := .obj [("mode",.str "manual"),("policy",.str "manual")]
    claims := []
    acceptance := [.obj [("assertion",.str "done"),("id",.str "criterion-1")]]
    raw := .obj [("metadata",metadata)] }

def family (dependsOn : List Json) : LoadedRegistry where
  resources := []
  initiatives := [⟨"INIT-A","A","active","now",1⟩]
  tasks := [loadedTask "TASK-A" [] (.obj []),
    loadedTask "TASK-B" [.str "TASK-C"] (.obj [("parent_task",.str "TASK-A")]),
    loadedTask "TASK-C" dependsOn (.obj [])]
  queue := [("now",[]),("next",[.str "TASK-A"]),("later",[])]
  distinctResources := by decide
  distinctInitiatives := by decide
  distinctTasks := by simp [loadedTask]

end Sample

/-- The family without the last dependency is accepted; with the dependency on the parent the three
tasks wait for each other in a circle that mixes both kinds of edge. -/
theorem validated_registry_waits_acyclic_family :
    (¬ TransGen (Waits (Sample.family []).waiter?) "TASK-A" "TASK-A") ∧
      (Sample.family [.str "TASK-A"]).validate Sample.paths =
        .error (.validation "task wait cycle: TASK-A -> TASK-B -> TASK-C -> TASK-A") := by
  have hab : Waits (Sample.family [.str "TASK-A"]).waiter? "TASK-A" "TASK-B" :=
    ⟨_,_,rfl,rfl,rfl,rfl,.inr ⟨rfl,rfl⟩⟩
  have hbc : Waits (Sample.family [.str "TASK-A"]).waiter? "TASK-B" "TASK-C" :=
    ⟨_,_,rfl,rfl,rfl,rfl,.inl (by decide +kernel)⟩
  have hca : Waits (Sample.family [.str "TASK-A"]).waiter? "TASK-C" "TASK-A" :=
    ⟨_,_,rfl,rfl,rfl,rfl,.inl (by decide +kernel)⟩
  have haccepted : (Sample.family []).validate Sample.paths = .ok () := by decide +kernel
  have hother : (Sample.family [.str "TASK-A"]).otherFindings Sample.paths = [] := by decide +kernel
  refine ⟨(validated_registry_waits_acyclic _ _).1 haccepted _,?_⟩
  rw [((validated_registry_waits_acyclic _ _).2 hother ⟨_,.tail (.tail (.single hab) hbc) hca⟩).2]
  decide +kernel

end Bureau
