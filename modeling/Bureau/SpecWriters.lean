import Bureau.Operations

/-!
The writers of TaskSpecs besides a single put: the import of a Git registry, the seeding of missing
tasks, the rebind of a repository and the reserved closeouts. Each of them ends in puts of validated
material, so a committed writer takes the store where puts can take it.
-/

namespace Bureau

open Transactions Relation

namespace TaskSpecs

/-- What a loop over the tasks of a registry has done so far. -/
structure ImportReport where
  imported : ℕ
  unchanged : ℕ
  divergentPreserved : List String
  deriving DecidableEq

def ImportReport.count (report : ImportReport) (result : PutResult) : ImportReport :=
  if result.changed then { report with imported := report.imported+1 }
  else { report with unchanged := report.unchanged+1 }

/-- One round of `import_registry`: a task the store has must not differ. -/
def importRegistryTask (sha : Sha) (now : Time) (state : ImportReport × Db) (item : String × Task) :
    Result (ImportReport × Db) := do
  let current ← getCurrent sha state.2 item.1
  let _ ← canonicalSpecId item.2.raw
  let digest := taskSpecDigest sha item.2.raw
  match current with
  | some current =>
    require (current.specSha256 = digest)
      (.state ("legacy TaskSpec divergence for " ++ item.1 ++ ": StateStore differs from Git projection"))
    return ({ state.1 with unchanged := state.1.unchanged+1 },state.2)
  | none =>
    let (result,db) ← putValidatedMaterial sha now state.2 item.2.raw
      ("legacy-import:" ++ item.1 ++ ":" ++ digest) none "legacy-git-import"
    return (state.1.count result,db)

def importRegistry (sha : Sha) (now : Time) (registry : Registry) (db : Db) : Result (ImportReport × Db) :=
  registry.tasks.toList.foldlM (importRegistryTask sha now) (⟨0,0,[]⟩,db)

/-- One round of `seed_missing_registry`: a task the store has is kept. -/
def seedMissingTask (sha : Sha) (now : Time) (state : ImportReport × Db) (item : String × Task) :
    Result (ImportReport × Db) := do
  let current ← getCurrent sha state.2 item.1
  let _ ← canonicalSpecId item.2.raw
  let digest := taskSpecDigest sha item.2.raw
  match current with
  | some current =>
    if current.specSha256 = digest then return ({ state.1 with unchanged := state.1.unchanged+1 },state.2)
    else return ({ state.1 with divergentPreserved := state.1.divergentPreserved ++ [item.1] },state.2)
  | none =>
    let (result,db) ← putValidatedMaterial sha now state.2 item.2.raw
      ("legacy-seed:" ++ item.1 ++ ":" ++ digest) none "legacy-git-seed"
    return (state.1.count result,db)

def seedMissingRegistry (sha : Sha) (now : Time) (registry : Registry) (db : Db) : Result (ImportReport × Db) :=
  registry.tasks.toList.foldlM (seedMissingTask sha now) (⟨0,0,[]⟩,db)

/-- `seed_missing_registry_task`: exactly one task, which the store has not or has unchanged. -/
def seedMissingRegistryTask (sha : Sha) (now : Time) (registry : Registry) (taskId : String) (db : Db) :
    Result (PutResult × Db) := do
  require (taskId ≠ "") (.state "exact Registry TaskSpec id must be non-empty")
  let task ← orRaise registry.tasks[taskId]? (.state ("unknown exact Registry TaskSpec: " ++ taskId))
  let id ← canonicalSpecId task.raw
  require (id = taskId) (.state "exact Registry TaskSpec id does not match requested task")
  let digest := taskSpecDigest sha task.raw
  match ← getCurrent sha db taskId with
  | some current =>
    require (current.specSha256 = digest)
      (.state ("exact TaskSpec divergence for " ++ taskId ++ ": StateStore differs from Git projection"))
    return (⟨current,true,false⟩,db)
  | none =>
    putValidatedMaterial sha now db task.raw ("legacy-seed-exact:" ++ taskId ++ ":" ++ digest) none
      "legacy-git-exact-seed"

/-- `register_task_spec_with_legacy_import`. -/
def registerWithLegacyImport (E : Env) (now : Time) (registry : Registry) (spec : Json) (key : String)
    (expected : Option ℕ) (source : String) (db : Db) : Result (ImportReport × PutResult × Db) := do
  let (report,db) ← seedMissingRegistry E.sha now registry db
  let (result,db) ← put E now db spec key expected source
  return (report,result,db)

structure RebindItem where
  taskId : String
  expectedRevision : ℕ
  expectedSpecSha256 : String
  resultingSpecSha256 : String
  key : String

/-- One round of the rebind; `preview` rewrites the repository in a document or refuses to. -/
def rebindTask (sha : Sha) (now : Time) (preview : Json → Except String Json) (db : Db) (item : RebindItem) :
    Result Db := do
  let current ← orRaise (← getCurrent sha db item.taskId) (.state ("KeyError: " ++ item.taskId))
  require (current.revision = item.expectedRevision && current.specSha256 = item.expectedSpecSha256)
    (.state ("repository identity rebind task " ++ item.taskId ++ " CAS baseline changed"))
  match preview current.spec with
  | .error message => stateError message
  | .ok spec =>
    require (taskSpecDigest sha spec = item.resultingSpecSha256)
      (.state ("repository identity rebind preview drifted for task " ++ item.taskId))
    let (_,db) ← putValidatedMaterial sha now db spec item.key (some item.expectedRevision)
      "repository-identity-rebind"
    return db

/-- The writes of a repository rebind after its plan has been checked. -/
def rebind (sha : Sha) (now : Time) (preview : Json → Except String Json) (items : List RebindItem) (db : Db) :
    Result Db :=
  items.foldlM (rebindTask sha now preview) db

/-- What a closeout with a reserved key binds in its document. -/
structure CloseoutContract where
  subject : String
  keyPrefix : String
  state : Option String
  field : String
  kind : String
  status : String
  resultField : String
  source : String

def CloseoutContract.boundKey (contract : CloseoutContract) (spec : Json) : Option String := do
  let id ← spec.getStr? "id"
  let closeout ← (((spec.get? "metadata").filter Json.isObj).bind (·.get? contract.field)).filter Json.isObj
  check (contract.state.all fun state => spec.getStr? "state" = some state)
  check (closeout.getStr? "kind" = some contract.kind && closeout.getStr? "status" = some contract.status &&
    closeout.getStr? "task_id" = some id)
  let result ← (closeout.getStr? contract.resultField).filter validDigest
  return contract.keyPrefix ++ id ++ ":" ++ result

def putReservedCloseout (contract : CloseoutContract) (E : Env) (now : Time) (db : Db) (spec : Json) (key : String)
    (expected : Option ℕ) : Result (PutResult × Db) := do
  let taskId ← canonicalSpecId spec
  let bound ← orRaise (contract.boundKey spec) (.state (contract.subject ++ " mutation contract is invalid"))
  require (key = bound) (.state (contract.subject ++ " idempotency binding is invalid"))
  requireNone (E.schemaError "task" spec)
  requireNone (E.acceptanceError spec)
  if !db.taskSpecMutations.contains key then
    let current ← getCurrent E.sha db taskId
    require (current.all fun current => current.specSha256 ≠ taskSpecDigest E.sha spec)
      (.state (contract.subject ++ " must create its authenticated TaskSpec revision"))
    putValidatedMaterial E.sha now db spec key expected contract.source
  else putValidatedMaterial E.sha now db spec key expected contract.source

def putRuntimeRefreshNoRunCloseout : Env → Time → Db → Json → String → Option ℕ → Result (PutResult × Db) :=
  putReservedCloseout {
    subject := "runtime-refresh no-run closeout"
    keyPrefix := noRunCloseoutPrefix
    state := none
    field := "runtime_closeout"
    kind := "bureau_runtime_refresh_no_run_closeout"
    status := "verified"
    resultField := "runtime_result_sha256"
    source := "runtime-refresh-no-run-closeout" }

def putRuntimeRefreshUnusedAuthorityCloseout :
    Env → Time → Db → Json → String → Option ℕ → Result (PutResult × Db) :=
  putReservedCloseout {
    subject := "runtime-refresh unused-authority closeout"
    keyPrefix := unusedAuthorityCloseoutPrefix
    state := some "superseded"
    field := "runtime_unused_authority_closeout"
    kind := "bureau_runtime_refresh_unused_authority_closeout"
    status := "superseded"
    resultField := "fulfilled_by_result_sha256"
    source := "runtime-refresh-unused-authority-closeout" }

/-! Every writer ends in puts. -/

def Puts (sha : Sha) (db db' : Db) : Prop :=
  ∃ now spec key expected source result, putValidatedMaterial sha now db spec key expected source = .ok (result,db')

section Puts

variable {E : Env} {sha : Sha} {now : Time} {db db' : Db} {registry : Registry}

variable {expected : Option ℕ} {key source : String} {result : PutResult} {spec : Json} {report : ImportReport}

theorem Puts.of_ok
    (h : putValidatedMaterial sha now db spec key expected source = .ok (result,db')) :
    ReflTransGen (Puts sha) db db' :=
  .single ⟨now,spec,key,expected,source,result,h⟩

theorem importRegistry_puts (h : importRegistry sha now registry db = .ok (report,db')) :
    ReflTransGen (Puts sha) db db' := by
  refine reflTransGen_of_foldlM Prod.snd ?_ h
  intro before item after hround
  simp only [importRegistryTask,bind_eq_ok] at hround
  obtain ⟨current,_,_,_,hround⟩ := hround
  split at hround
  · simp only [steps_ok] at hround
    obtain ⟨_,_,rfl⟩ := hround
    exact .refl
  · simp only [steps_ok] at hround
    obtain ⟨⟨result,written⟩,hput,rfl⟩ := hround
    exact Puts.of_ok hput

theorem seedMissingRegistry_puts
    (h : seedMissingRegistry sha now registry db = .ok (report,db')) : ReflTransGen (Puts sha) db db' := by
  refine reflTransGen_of_foldlM Prod.snd ?_ h
  intro before item after hround
  simp only [seedMissingTask,bind_eq_ok] at hround
  obtain ⟨current,_,_,_,hround⟩ := hround
  split at hround
  · split at hround <;> simp only [pure_eq_ok] at hround <;> obtain rfl := hround <;> exact .refl
  · simp only [steps_ok] at hround
    obtain ⟨⟨result,written⟩,hput,rfl⟩ := hround
    exact Puts.of_ok hput

theorem seedMissingRegistryTask_puts {taskId : String}
    (h : seedMissingRegistryTask sha now registry taskId db = .ok (result,db')) : ReflTransGen (Puts sha) db db' := by
  simp only [seedMissingRegistryTask,steps_ok] at h
  obtain ⟨_,_,task,_,_,_,_,_,current,_,h⟩ := h
  split at h
  · simp only [steps_ok,Prod.mk.injEq] at h
    obtain ⟨_,_,_,rfl⟩ := h
    exact .refl
  · exact Puts.of_ok h

theorem registerWithLegacyImport_puts
    (h : registerWithLegacyImport E now registry spec key expected source db = .ok (report,result,db')) :
    ReflTransGen (Puts E.sha) db db' := by
  simp only [registerWithLegacyImport,steps_ok,Prod.mk.injEq] at h
  obtain ⟨⟨_,seeded⟩,hseed,⟨_,written⟩,hput,_,_,rfl⟩ := h
  exact (seedMissingRegistry_puts hseed).trans (Puts.of_ok (put_eq_ok hput))

theorem rebind_puts {preview : Json → Except String Json} {items : List RebindItem}
    (h : rebind sha now preview items db = .ok db') : ReflTransGen (Puts sha) db db' := by
  refine reflTransGen_of_foldlM id ?_ h
  intro before item after hround
  simp only [rebindTask,bind_eq_ok] at hround
  obtain ⟨_,_,current,_,_,_,hround⟩ := hround
  split at hround
  · simp [stateError] at hround
  · simp only [steps_ok] at hround
    obtain ⟨_,_,⟨result,written⟩,hput,rfl⟩ := hround
    exact Puts.of_ok hput

theorem putReservedCloseout_eq_ok {contract : CloseoutContract}
    (h : putReservedCloseout contract E now db spec key expected = .ok (result,db')) :
    putValidatedMaterial E.sha now db spec key expected contract.source = .ok (result,db') := by
  simp only [putReservedCloseout,bind_eq_ok] at h
  obtain ⟨_,_,_,_,_,_,_,_,_,_,h⟩ := h
  split at h
  · simp only [bind_eq_ok] at h
    obtain ⟨_,_,_,_,h⟩ := h
    exact h
  · exact h

end Puts

end TaskSpecs

/-- The writers that may be interleaved: every operation of the store, puts among them, and the
writers above. -/
inductive Writer where
  | operate (op : Op)
  | importRegistry (now : Time) (registry : Registry)
  | seedMissingRegistry (now : Time) (registry : Registry)
  | seedMissingRegistryTask (now : Time) (registry : Registry) (taskId : String)
  | registerWithLegacyImport (now : Time) (registry : Registry) (spec : Json) (key : String) (expected : Option ℕ)
      (source : String)
  | rebind (now : Time) (preview : Json → Except String Json) (items : List TaskSpecs.RebindItem)
  | noRunCloseout (now : Time) (spec : Json) (key : String) (expected : Option ℕ)
  | unusedAuthorityCloseout (now : Time) (spec : Json) (key : String) (expected : Option ℕ)

namespace Writer

def apply (E : Env) (K : Contracts) (db : Db) : Writer → Result Db
  | .operate op => op.apply E K db
  | .importRegistry now registry => (TaskSpecs.importRegistry E.sha now registry db).map Prod.snd
  | .seedMissingRegistry now registry => (TaskSpecs.seedMissingRegistry E.sha now registry db).map Prod.snd
  | .seedMissingRegistryTask now registry taskId =>
    (TaskSpecs.seedMissingRegistryTask E.sha now registry taskId db).map Prod.snd
  | .registerWithLegacyImport now registry spec key expected source =>
    (TaskSpecs.registerWithLegacyImport E now registry spec key expected source db).map fun written => written.2.2
  | .rebind now preview items => TaskSpecs.rebind E.sha now preview items db
  | .noRunCloseout now spec key expected =>
    (TaskSpecs.putRuntimeRefreshNoRunCloseout E now db spec key expected).map Prod.snd
  | .unusedAuthorityCloseout now spec key expected =>
    (TaskSpecs.putRuntimeRefreshUnusedAuthorityCloseout E now db spec key expected).map Prod.snd

def step (E : Env) (K : Contracts) (db : Db) (writer : Writer) : Db :=
  commit db (writer.apply E K db)

variable {E : Env} {K : Contracts} {db db' : Db}

theorem apply_puts {writer : Writer} (h : writer.apply E K db = .ok db') :
    (∃ op, writer = .operate op ∧ op.apply E K db = .ok db') ∨ ReflTransGen (TaskSpecs.Puts E.sha) db db' := by
  cases writer with
  | operate op => exact .inl ⟨op,rfl,h⟩
  | importRegistry now registry =>
    obtain ⟨_,h⟩ := map_snd_eq_ok.mp h
    exact .inr (TaskSpecs.importRegistry_puts h)
  | seedMissingRegistry now registry =>
    obtain ⟨_,h⟩ := map_snd_eq_ok.mp h
    exact .inr (TaskSpecs.seedMissingRegistry_puts h)
  | seedMissingRegistryTask now registry taskId =>
    obtain ⟨_,h⟩ := map_snd_eq_ok.mp h
    exact .inr (TaskSpecs.seedMissingRegistryTask_puts h)
  | registerWithLegacyImport now registry spec key expected source =>
    cases hwritten : TaskSpecs.registerWithLegacyImport E now registry spec key expected source db with
    | error e => simp [apply,hwritten,Except.map] at h
    | ok written =>
      obtain rfl : written.2.2 = db' := by simpa [apply,hwritten,Except.map] using h
      exact .inr (TaskSpecs.registerWithLegacyImport_puts hwritten)
  | rebind now preview items => exact .inr (TaskSpecs.rebind_puts h)
  | noRunCloseout now spec key expected =>
    obtain ⟨_,h⟩ := map_snd_eq_ok.mp h
    exact .inr (TaskSpecs.Puts.of_ok (TaskSpecs.putReservedCloseout_eq_ok h))
  | unusedAuthorityCloseout now spec key expected =>
    obtain ⟨_,h⟩ := map_snd_eq_ok.mp h
    exact .inr (TaskSpecs.Puts.of_ok (TaskSpecs.putReservedCloseout_eq_ok h))

theorem reach_of_puts {start : Db} (hreach : Reach (Bureau.step E K) (fun _ _ => True) start db)
    (h : ReflTransGen (TaskSpecs.Puts E.sha) db db') : Reach (Bureau.step E K) (fun _ _ => True) start db' := by
  induction h with
  | refl => exact hreach
  | tail _ hput ih =>
    obtain ⟨now,spec,key,expected,source,result,hput⟩ := hput
    have hstep := ih.step (i := .putTaskSpecMaterial now spec key expected source) trivial
    rwa [Bureau.step,Op.apply,hput] at hstep

theorem reach_step {start : Db} (hreach : Reach (Bureau.step E K) (fun _ _ => True) start db) (writer : Writer) :
    Reach (Bureau.step E K) (fun _ _ => True) start (step E K db writer) := by
  unfold step
  cases happly : writer.apply E K db with
  | error e => exact hreach
  | ok after =>
    rcases apply_puts happly with ⟨op,rfl,hop⟩ | hputs
    · have hstep := hreach.step (i := op) trivial
      rwa [Bureau.step,hop] at hstep
    · exact reach_of_puts hreach hputs

theorem reach_operations {start : Db} (h : Reach (step E K) (fun _ _ => True) start db) :
    Reach (Bureau.step E K) (fun _ _ => True) start db := by
  induction h with
  | init => exact .init
  | step _ _ ih => exact reach_step ih _

end Writer

end Bureau
