import Bureau.CloseEffect

/-!
The answer of a repeated close: the stored receipt, and whether it still describes the current
task and plan. The flag reads the Git document of the task, while a first close reads the
TaskSpec of the store where there is one.
-/

namespace Bureau

open Transactions

def documentRevision (E : Env) (files : Registry) (taskId : String) (raw : Json)
    (current : Option TaskSpecs.CurrentSpec) : Result CloseRevision :=
  match nonEmptyStr? raw "initiative" with
  | none => revisionUnavailable ("authoritative task document for " ++ taskId ++ " names no initiative")
  | some initiativeId =>
    match files.initiatives[initiativeId]? with
    | none =>
      revisionUnavailable ("authoritative initiative document for " ++ initiativeId ++ " is unavailable or ambiguous")
    | some initiative =>
      return {
        taskId := taskId
        initiativeId := initiativeId
        taskSha256 := taskRevisionSha256 E.sha raw
        planSha256 := initiative.planSha256 E.sha
        authority := if current.isSome then .stateStoreTaskSpecs else .legacyGitBootstrap
        specRevision := current.map (·.revision)
        specSha256 := current.map (·.specSha256) }

theorem closeRevision_eq (E : Env) (files : Registry) (db : Db) (taskId : String) :
    closeRevision E files db taskId =
      (closeTask E files db taskId) >>= fun read => documentRevision E files taskId read.1 read.2 := rfl

/-- `_authoritative_close_revision`: the revision of the Git documents. -/
def authoritativeCloseRevision (E : Env) (files : Registry) (taskId : String) : Result CloseRevision :=
  match files.tasks[taskId]? with
  | none => revisionUnavailable ("authoritative task document for " ++ taskId ++ " is unavailable or ambiguous")
  | some task => documentRevision E files taskId task.raw none

def CloseRevision.digests (revision : CloseRevision) : String × String :=
  (revision.taskSha256,revision.planSha256)

def receiptDigests? (receipt : Json) : Option (String × String) := do
  let task ← receipt.getStr? "task_sha256"
  let plan ← receipt.getStr? "plan_sha256"
  return (task,plan)

def receiptBindsCurrentRevision (E : Env) (files : Registry) (receipt : Json) : Bool :=
  match nonEmptyStr? receipt "task_id" with
  | none => false
  | some taskId =>
    match authoritativeCloseRevision E files taskId with
    | .error _ => false
    | .ok revision => receiptDigests? receipt = some revision.digests

structure Completion where
  result : CloseResult
  current : Bool
  deriving DecidableEq

/-- The public `complete_run` with the flag it derives after its transaction. -/
def completion (E : Env) (files : Registry) (runId : String) (db : Db) : Result (Completion × Db) := do
  let (result,db) ← replayCompletion E runId db
  return (⟨result,receiptBindsCurrentRevision E files result.receipt⟩,db)

structure ClosedRun (E : Env) (db : Db) (runId : String) (row : RunRow) (receipt : Json) : Prop where
  claimed : db.runs[runId]? = some row
  stored : ∃ stored, db.receipts[runId]? = some stored ∧ loadValidatedStoredReceipt E runId stored = .ok receipt
  task : nonEmptyStr? receipt "task_id" = some row.taskId

section Reachable

variable {E : Env} {K : Contracts} {db : Db}

def Db.ReceiptsNamed (db : Db) : Prop :=
  ∀ (runId : String) (stored : ReceiptRow), db.receipts[runId]? = some stored →
    ∃ row, db.runs[runId]? = some row ∧ stored.receipt.getStr? "task_id" = some row.taskId

theorem Move.task_kept {sha : Sha} {resources : Resources} {kind : Kind} {db db' : Db} {runId : String} {row : RunRow}
    (h : Move sha resources kind db db') (hrow : db.runs[runId]? = some row) :
    ∃ row', db'.runs[runId]? = some row' ∧ row'.taskId = row.taskId := by
  rcases h.runs with hruns | ⟨changed,row',hruns,hchange⟩
  · exact ⟨row,by rw [hruns,hrow],rfl⟩
  · rw [hruns,Tables.get_insert]
    by_cases hrun : runId = changed
    · subst hrun
      rw [if_pos rfl]
      rcases hchange with ⟨old,hold,hidentity⟩ | ⟨hnew,_⟩
      · obtain rfl := Option.some.inj (hold.symm.trans hrow)
        exact ⟨row',rfl,RunRow.taskId_eq hidentity⟩
      · simp [hnew] at hrow
    · rw [if_neg hrun]
      exact ⟨row,hrow,rfl⟩

theorem step_task_kept (op : Op) {runId taskId : String}
    (h : ∃ row, db.runs[runId]? = some row ∧ row.taskId = taskId) :
    ∃ row, (step E K db op).runs[runId]? = some row ∧ row.taskId = taskId := by
  refine step_invariant (P := fun db => ∃ row, db.runs[runId]? = some row ∧ row.taskId = taskId) ?_ h op.planned_self
  rintro kind db db' hmove ⟨row,hrow,htask⟩
  obtain ⟨row',hrow',htask'⟩ := hmove.task_kept hrow
  exact ⟨row',hrow',htask'.trans htask⟩

theorem step_receiptsNamed (h : db.ReceiptsNamed) (op : Op) : (step E K db op).ReceiptsNamed := by
  have hkept {runId : String} {stored : ReceiptRow} (hold : db.receipts[runId]? = some stored) :
      ∃ row, (step E K db op).runs[runId]? = some row ∧ stored.receipt.getStr? "task_id" = some row.taskId := by
    obtain ⟨row,hrow,hnamed⟩ := h runId stored hold
    obtain ⟨row',hrow',htask⟩ := step_task_kept (E := E) (K := K) op ⟨row,hrow,rfl⟩
    exact ⟨row',hrow',htask ▸ hnamed⟩
  intro runId stored hstored
  cases happly : op.apply E K db with
  | error e =>
    have hsame : step E K db op = db := by simp [step,happly]
    rw [hsame] at hstored
    exact hkept hstored
  | ok db' =>
    have hstep : step E K db op = db' := by simp [step,happly]
    by_cases hkind : op.kind = .complete
    · cases op <;> simp only [Op.kind,reduceCtorEq] at hkind
      case completeRun call closed =>
        obtain ⟨result,hclose⟩ := map_snd_eq_ok.mp happly
        rcases completeRun_eq_ok hclose with ⟨_,_,_,_,rfl⟩ | ⟨row,revision,rebind,hfirst⟩
        · exact hkept (hstep ▸ hstored)
        · rw [hstep] at hstored
          by_cases hrun : runId = closed
          · subst hrun
            obtain rfl := Option.some.inj (hfirst.receipts.symm.trans hstored)
            have hmove : Move E.sha ∅ .complete db db' := hfirst.move
            obtain ⟨row',hrow',htask⟩ := hmove.task_kept (closableRow_eq_ok hfirst.closable).1
            refine ⟨row',hstep ▸ hrow',?_⟩
            rw [Json.getStr?,receipt_fields.1,htask]
            rfl
          · have hother := congrArg RunView.receipt (hfirst.others runId hrun)
            exact hkept (hother.symm.trans hstored)
    · rw [hstep] at hstored
      exact hkept ((apply_receipts_eq happly hkind runId).symm.trans hstored)

theorem closedRun_of_reach (hreach : Reach (step E K) (fun _ _ => True) (Db.fresh E.sha) db) {runId : String}
    {stored : ReceiptRow} (hstored : db.receipts[runId]? = some stored) :
    ∃ row, db.runs[runId]? = some row ∧ (row.taskId ≠ "" → ClosedRun E db runId row stored.receipt) := by
  have hnamed : db.ReceiptsNamed :=
    hreach.invariant (fun runId => by simp [Db.fresh]) fun _ op hnamed _ => step_receiptsNamed hnamed op
  obtain ⟨row,hrow,htask⟩ := hnamed runId stored hstored
  refine ⟨row,hrow,fun hid => ⟨hrow,⟨stored,hstored,receiptsValid_of_reach hreach runId stored hstored⟩,?_⟩⟩
  simp [nonEmptyStr?,htask,hid]

end Reachable

section Currency

variable {E : Env} {files : Registry} {db : Db} {taskId : String}

/-- The task and plan digest of one task document, if the initiative it names is readable. -/
def documentDigests (E : Env) (files : Registry) (raw : Json) : Option (String × String) := do
  let initiativeId ← nonEmptyStr? raw "initiative"
  let initiative ← files.initiatives[initiativeId]?
  return (taskRevisionSha256 E.sha raw,initiative.planSha256 E.sha)

def gitDigests (E : Env) (files : Registry) (taskId : String) : Option (String × String) := do
  let task ← files.tasks[taskId]?
  documentDigests E files task.raw

def specDigests (E : Env) (files : Registry) (db : Db) (taskId : String) : Option (String × String) := do
  let current ← (TaskSpecs.getCurrent E.sha db taskId).toOption.join
  if (E.schemaError "task" current.spec).isNone then documentDigests E files current.spec else none

theorem documentRevision_digests (raw : Json) (current : Option TaskSpecs.CurrentSpec) :
    (documentRevision E files taskId raw current).toOption.map CloseRevision.digests = documentDigests E files raw := by
  unfold documentRevision documentDigests
  cases nonEmptyStr? raw "initiative" with
  | none => rfl
  | some initiativeId =>
    cases hinitiative : files.initiatives[initiativeId]? with
    | none => simp [hinitiative,revisionUnavailable,Except.toOption]
    | some initiative => simp [hinitiative,Except.toOption,pure,Except.pure,CloseRevision.digests]

theorem authoritativeCloseRevision_digests :
    (authoritativeCloseRevision E files taskId).toOption.map CloseRevision.digests = gitDigests E files taskId := by
  unfold authoritativeCloseRevision gitDigests
  cases files.tasks[taskId]? with
  | none => rfl
  | some task => exact documentRevision_digests task.raw none

theorem closeRevision_bootstrap (hspecs : db.taskSpecs = ∅) :
    closeRevision E files db taskId = authoritativeCloseRevision E files taskId := by
  have hcurrent : TaskSpecs.getCurrent E.sha db taskId = .ok none := by simp [TaskSpecs.getCurrent,hspecs]
  have hempty : db.taskSpecs.isEmpty = true := by simp [hspecs]
  rw [closeRevision_eq,closeTask,hcurrent]
  simp only [hempty,if_true]
  unfold authoritativeCloseRevision
  cases files.tasks[taskId]? with
  | none => rfl
  | some task => rfl

theorem closeRevision_spec (hspecs : db.taskSpecs ≠ ∅) :
    (closeRevision E files db taskId).toOption.map CloseRevision.digests = specDigests E files db taskId := by
  have hempty : db.taskSpecs.isEmpty = false := by simpa using hspecs
  rw [closeRevision_eq,closeTask,specDigests]
  cases TaskSpecs.getCurrent E.sha db taskId with
  | error e => rfl
  | ok read =>
    cases read with
    | none =>
      simp only [hempty]
      rfl
    | some current =>
      by_cases hschema : E.schemaError "task" current.spec = none
      · have hdigests : (documentRevision E files taskId current.spec (some current)).toOption.map
          CloseRevision.digests =
            documentDigests E files current.spec := documentRevision_digests _ _
        simpa [hschema,Except.toOption,bind,Except.bind] using hdigests
      · simp [hschema,revisionUnavailable,Except.toOption,bind,Except.bind]

def Carries (receipt : Json) (digests : Option (String × String)) : Prop :=
  ∃ pair, receiptDigests? receipt = some pair ∧ digests = some pair

theorem carries_revision {receipt : Json} {revision : Result CloseRevision} :
    (∃ r, revision = .ok r ∧ receiptDigests? receipt = some r.digests) ↔
      Carries receipt (revision.toOption.map CloseRevision.digests) := by
  cases revision with
  | error e => simp [Carries,Except.toOption]
  | ok r => simp [Carries,Except.toOption,eq_comm]

theorem receiptBindsCurrentRevision_iff {receipt : Json} (htask : nonEmptyStr? receipt "task_id" = some taskId) :
    receiptBindsCurrentRevision E files receipt = true ↔ Carries receipt (gitDigests E files taskId) := by
  rw [← authoritativeCloseRevision_digests,← carries_revision,receiptBindsCurrentRevision,htask]
  cases hrevision : authoritativeCloseRevision E files taskId with
  | error e => simp [hrevision]
  | ok revision => simp [hrevision]

/-- Two documents carry the digests of a receipt together exactly if they agree or neither does. -/
theorem carries_iff_carries {receipt : Json} {a b : Option (String × String)} :
    (Carries receipt a ↔ Carries receipt b) ↔ a = b ∨ (¬ Carries receipt a ∧ ¬ Carries receipt b) := by
  constructor
  · intro h
    by_cases hcarries : Carries receipt a
    · obtain ⟨pair,hpair,ha⟩ := hcarries
      obtain ⟨pair',hpair',hb⟩ := h.mp ⟨pair,hpair,ha⟩
      obtain rfl := Option.some.inj (hpair.symm.trans hpair')
      exact .inl (ha.trans hb.symm)
    · exact .inr ⟨hcarries,fun hb => hcarries (h.mpr hb)⟩
  · rintro (rfl | ⟨ha,hb⟩)
    · exact Iff.rfl
    · exact ⟨fun h => absurd h ha,fun h => absurd h hb⟩

/-- The flag of a repeated close says whether the digests a first close would read are those of the
receipt, exactly if the store has no TaskSpecs, or the TaskSpec and the Git document of the task
agree, or neither of them carries the digests of the receipt. -/
theorem current_iff {runId : String} {row : RunRow} {receipt : Json} (hclosed : ClosedRun E db runId row receipt) :
    ∃ current, completion E files runId db = .ok (⟨⟨receipt,true⟩,current⟩,db) ∧
      ((current = true ↔ ∃ revision, closeRevision E files db row.taskId = .ok revision ∧
          receiptDigests? receipt = some revision.digests) ↔
        db.taskSpecs = ∅ ∨ gitDigests E files row.taskId = specDigests E files db row.taskId ∨
          (¬ Carries receipt (gitDigests E files row.taskId) ∧
            ¬ Carries receipt (specDigests E files db row.taskId))) := by
  obtain ⟨stored,hstored,hload⟩ := hclosed.stored
  refine ⟨receiptBindsCurrentRevision E files receipt,?_,?_⟩
  · simp only [completion,replayCompletion,hstored,hload]
    rfl
  · rw [receiptBindsCurrentRevision_iff hclosed.task,carries_revision]
    by_cases hspecs : db.taskSpecs = ∅
    · rw [closeRevision_bootstrap hspecs,authoritativeCloseRevision_digests]
      simp [hspecs]
    · rw [closeRevision_spec hspecs,carries_iff_carries]
      simp [hspecs]

end Currency

namespace Sample

def closedSpecDb : Db :=
  run (step env contracts) (Db.fresh env.sha) (claimedSpec ++ [.completeRun (closeCall files) "RUN-1"])

def specOnlyFiles : Registry := { files with tasks := ∅ }

theorem closedSpecDb_reach : Reach (step env contracts) (fun _ _ => True) (Db.fresh env.sha) closedSpecDb :=
  Reach.run fun _ _ _ => trivial

theorem closedSpecDb_carries : ∃ row receipt, ClosedRun env closedSpecDb "RUN-1" row receipt ∧ row.taskId = "T-1" ∧
    Carries receipt (specDigests env specOnlyFiles closedSpecDb "T-1") := by
  have hstored : ((closedSpecDb.receipts["RUN-1"]?).bind fun stored =>
      (receiptDigests? stored.receipt).filter fun pair => specDigests env specOnlyFiles closedSpecDb "T-1" =
        some pair &&
        (closedSpecDb.runs["RUN-1"]?).any fun row => row.taskId = "T-1").isSome = true := by
    decide +kernel
  simp only [Option.isSome_iff_exists,Option.bind_eq_some_iff,Option.filter_eq_some_iff,Bool.and_eq_true,
    decide_eq_true_eq,Option.any_eq_true] at hstored
  obtain ⟨pair,stored,hstored,hpair,hspec,found,hfound,hid⟩ := hstored
  obtain ⟨row,hrow,hclosed⟩ := closedRun_of_reach closedSpecDb_reach hstored
  obtain rfl := Option.some.inj (hrow.symm.trans hfound)
  exact ⟨row,stored.receipt,hclosed (by simp [hid]),hid,pair,hpair,hspec⟩

theorem closedSpecDb_specs : closedSpecDb.taskSpecs ≠ ∅ := by
  obtain ⟨_,_,_,_,_,_,hspec⟩ := closedSpecDb_carries
  intro hempty
  simp [specDigests,TaskSpecs.getCurrent,hempty,Except.toOption] at hspec

end Sample

theorem current_iff_closed : ∃ receipt current,
    completion Sample.env Sample.files "RUN-1" Sample.closedSpecDb =
      .ok (⟨⟨receipt,true⟩,current⟩,Sample.closedSpecDb) ∧
      ((current = true ↔ ∃ revision, closeRevision Sample.env Sample.files Sample.closedSpecDb "T-1" = .ok revision ∧
          receiptDigests? receipt = some revision.digests) ↔
        Sample.closedSpecDb.taskSpecs = ∅ ∨
          gitDigests Sample.env Sample.files "T-1" = specDigests Sample.env Sample.files Sample.closedSpecDb "T-1" ∨
          (¬ Carries receipt (gitDigests Sample.env Sample.files "T-1") ∧
            ¬ Carries receipt (specDigests Sample.env Sample.files Sample.closedSpecDb "T-1"))) := by
  obtain ⟨row,receipt,hclosed,hid,_⟩ := Sample.closedSpecDb_carries
  obtain ⟨current,hcompletion,hiff⟩ := @current_iff Sample.env Sample.files _ _ _ _ hclosed
  exact ⟨receipt,current,hcompletion,hid ▸ hiff⟩

/-- The TaskSpec is still the one the run was closed with, but without a Git document the receipt is
reported as not current. -/
theorem current_receipt_reported_stale : ∃ receipt revision,
    completion Sample.env Sample.specOnlyFiles "RUN-1" Sample.closedSpecDb =
        .ok (⟨⟨receipt,true⟩,false⟩,Sample.closedSpecDb) ∧
      closeRevision Sample.env Sample.specOnlyFiles Sample.closedSpecDb "T-1" = .ok revision ∧
      receiptDigests? receipt = some revision.digests := by
  obtain ⟨row,receipt,hclosed,hid,hcarries⟩ := Sample.closedSpecDb_carries
  rw [← closeRevision_spec Sample.closedSpecDb_specs,← carries_revision] at hcarries
  obtain ⟨revision,hrevision,hdigests⟩ := hcarries
  obtain ⟨stored,hstored,hload⟩ := hclosed.stored
  refine ⟨receipt,revision,?_,hrevision,hdigests⟩
  have hgit : authoritativeCloseRevision Sample.env Sample.specOnlyFiles row.taskId =
      revisionUnavailable ("authoritative task document for " ++ row.taskId ++ " is unavailable or ambiguous") := by
    simp [authoritativeCloseRevision,Sample.specOnlyFiles]
  have hflag : receiptBindsCurrentRevision Sample.env Sample.specOnlyFiles receipt = false := by
    simp [receiptBindsCurrentRevision,hclosed.task,hgit,revisionUnavailable]
  simp only [completion,replayCompletion,hstored,hload]
  rw [← hflag]
  rfl

end Bureau
