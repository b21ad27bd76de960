import Bureau.CurrentTasks
import Bureau.SpecHistory
import Bureau.SpecWriters

/-!
The TaskSpec tables and their journal. Revisions are numbered without a gap, each one names the one
before it, and the events replay to the current projection from nothing. All writers keep this,
since each of them sets the next revision of one task together with its event, or none.
-/

namespace Bureau

open Transactions Relation TaskSpecs

variable {expected : Option ℕ} {db db' : Db} {spec : Json} {now : Time} {source : String} {sha : Sha} {r : ℕ}

namespace TaskSpecs

/-! Replay. -/

def eventFields : List String :=
  ["idempotency_key","parent_revision","revision","schema_version","source","spec","spec_sha256","task_id"]

/-- `validate_event_payload`: the revision an event records, and the key of its mutation. -/
def validateEventPayload (sha : Sha) (payload : Json) : Result (CurrentSpec × String) := do
  require (payload.hasExactly eventFields) (.state "TaskSpec event fields are not exact")
  require ((payload.get? "schema_version").bind Json.number? = some 1)
    (.state "TaskSpec event payload schema version is unsupported")
  let taskId ← orRaise ((payload.getStr? "task_id").filter (· ≠ "")) (.state "TaskSpec event task_id is invalid")
  let revision ← orRaise (((payload.get? "revision").bind Json.int?).filter fun revision => 1 ≤ revision)
    (.state "TaskSpec event revision is invalid")
  let parent := parentOfRevision revision.toNat
  require ((payload.get? "parent_revision").map Json.setKey = some ((parent.map natJson).getD .null))
    (.state "TaskSpec event parent revision is invalid")
  let source ← orRaise ((payload.getStr? "source").filter (· ≠ ""))
    (.state "TaskSpec event source/idempotency binding is invalid")
  let key ← orRaise ((payload.getStr? "idempotency_key").filter (· ≠ ""))
    (.state "TaskSpec event source/idempotency binding is invalid")
  let spec := (payload.get? "spec").getD .null
  let id ← canonicalSpecId spec
  require (id = taskId) (.state "TaskSpec event id does not match task_id")
  require (payload.getStr? "spec_sha256" = some (taskSpecDigest sha spec)) (.state "TaskSpec event digest mismatch")
  return (⟨taskId,revision.toNat,parent,taskSpecDigest sha spec,spec,source⟩,key)

structure ProjectedSpec where
  revision : ℕ
  specSha256 : String
  spec : Json
  deriving DecidableEq

def CurrentSpec.projected (current : CurrentSpec) : ProjectedSpec :=
  ⟨current.revision,current.specSha256,current.spec⟩

structure ReplayState where
  tasks : Table ProjectedSpec
  eventCount : ℕ
  lastEventId : Int
  keys : List String

/-- One round of `replay`. -/
def replayEvent (sha : Sha) (st : ReplayState) (row : EventRow) : Result ReplayState := do
  require (st.lastEventId < row.eventId) (.state "TaskSpec event ordering is not strictly increasing")
  require (row.eventType = .taskSpecRevisionSet) (.state "unexpected event in TaskSpec replay")
  require (row.schemaVersion = 1)
    (.state ("unsupported TaskSpec event schema version: " ++ toString row.schemaVersion))
  let (checked,key) ← validateEventPayload sha row.payload.toJson
  require (!st.keys.contains key) (.state "duplicate TaskSpec idempotency key in event journal")
  require (checked.parentRevision = (st.tasks[checked.taskId]?).map (·.revision))
    (.state "TaskSpec replay revision lineage mismatch")
  return ⟨st.tasks.insert checked.taskId checked.projected,st.eventCount+1,row.eventId,st.keys ++ [key]⟩

def replay (sha : Sha) (rows : List EventRow) : Result ReplayState :=
  rows.foldlM (replayEvent sha) ⟨∅,0,-1,[]⟩

/-- The projection `current_projection` returns. -/
def projectionTasks (specs : List CurrentSpec) : Table ProjectedSpec :=
  Std.ExtTreeMap.ofList (specs.map fun current => (current.taskId,current.projected))

theorem canonicalSpecId_ne_empty {id : String} (h : canonicalSpecId spec = .ok id) : id ≠ "" := by
  simp only [canonicalSpecId,bind_eq_ok] at h
  obtain ⟨_,_,h⟩ := h
  split at h
  · simp only [steps_ok] at h
    obtain ⟨_,hne,rfl⟩ := h
    simpa using hne
  · simp [stateError] at h

theorem validateEventPayload_revisionEventPayload {next : CurrentSpec} {key : String}
    (hnext : SpecSuccessor sha db next) (hwrite : SpecWrite sha db next.taskId key expected next.source) :
    validateEventPayload sha (revisionEventPayload next key) = .ok (next,key) := by
  have hparent := hnext.parent
  have hdigest := hnext.digest
  obtain ⟨hreadTask,hreadSource,hreadKey,hreadDigest⟩ := getStr?_revisionEventPayload next key
  obtain ⟨hreadRevision,hreadParent,hreadSpec⟩ := get?_revisionEventPayload next key
  obtain ⟨_,_,hrevision⟩ := hnext.current
  have hpos : (1 : Int) ≤ next.revision := by omega
  have htask : next.taskId ≠ "" := canonicalSpecId_ne_empty hnext.id
  have hkey : ((next.parentRevision.map natJson).getD .null).setKey = (next.parentRevision.map natJson).getD .null := by
    cases next.parentRevision <;> rfl
  simp only [validateEventPayload,steps_ok]
  refine ⟨(),by rfl,(),by rfl,next.taskId,?_,next.revision,?_,(),?_,next.source,?_,key,?_,next.taskId,?_,(),?_,(),?_,?_⟩
  · simp [hreadTask,htask]
  · simp [hreadRevision,natJson,Json.int?,Option.filter,hpos]
  · simp [hreadParent,hkey,← hparent]
  · simp [hreadSource,hwrite.named.2]
  · simp [hreadKey,hwrite.named.1]
  · simpa [hreadSpec] using hnext.id
  · simp
  · simp [hreadSpec,hreadDigest,hdigest]
  · simp [hreadSpec,← hparent,← hdigest]

end TaskSpecs

namespace Db

def revision? (db : Db) (id : String) (revision : ℕ) : Option TaskSpecRevision :=
  (db.taskSpecRevisions[id]?).bind fun revisions => revisions[revision]?

def currentRevision (db : Db) (id : String) : ℕ :=
  ((db.taskSpecs[id]?).map (·.currentRevision)).getD 0

/-- The TaskSpec rows `split_event_rows` takes from the journal. -/
def specRows (db : Db) : List EventRow :=
  db.events.filter fun e => e.eventType = .taskSpecRevisionSet

def journaledRevisions (sha : Sha) (db : Db) (id : String) : List TaskSpecs.CurrentSpec :=
  db.specRows.filterMap fun e =>
    ((TaskSpecs.validateEventPayload sha e.payload.toJson).toOption.map Prod.fst).filter (·.taskId = id)

/-- The revisions of a task in the table, from the first to the current one. -/
def storedRevisions (sha : Sha) (db : Db) (id : String) : List TaskSpecs.CurrentSpec :=
  (List.range (db.currentRevision id)).filterMap fun i => (TaskSpecs.getRevision sha db id (i+1)).toOption

theorem specRows_extend_of_ne (db : Db) {rows : List EventRow}
    (h : ∀ row ∈ rows, row.eventType ≠ .taskSpecRevisionSet) : (db.extend rows).specRows = db.specRows := by
  have hnone : rows.filter (fun e => decide (e.eventType = .taskSpecRevisionSet)) = [] :=
    List.filter_eq_nil_iff.mpr fun row hrow => by simpa using h row hrow
  rw [specRows,events_extend,List.filter_append,hnone,List.append_nil,specRows]

end Db

/-- What a move does to the TaskSpecs and their journal: nothing, a receipt, or the next revision. -/
inductive SpecEffect (sha : Sha) (db : Db) : Db → Prop
  | none {db' : Db} (rows : db'.specRows = db.specRows) (specs : db'.specs = db.specs)
      (next : db.nextEventId ≤ db'.nextEventId) : SpecEffect sha db db'
  | known {taskId key source : String} {expected : Option ℕ} {current : TaskSpecs.CurrentSpec}
      (write : SpecWrite sha db taskId key expected source)
      (read : TaskSpecs.getCurrent sha db taskId = .ok (some current)) :
      SpecEffect sha db (db.noteMutation current key expected)
  | set {now : Time} {next : TaskSpecs.CurrentSpec} {key : String} {expected : Option ℕ}
      (successor : SpecSuccessor sha db next) (write : SpecWrite sha db next.taskId key expected next.source) :
      SpecEffect sha db (TaskSpecs.setRevision now db next key expected)

theorem Move.specEffect {resources : Resources} {kind : Kind} (h : Move sha resources kind db db') :
    SpecEffect sha db db' := by
  rcases h.frame with hframe | ⟨_,⟨_,_,_,_,rfl,successor,write⟩ | ⟨_,_,_,_,_,rfl,write,read⟩⟩
  · obtain ⟨rows,hevents,hnext,hrows⟩ := hframe.grows
    refine .none ?_ hframe.specs (by omega)
    rw [Db.specRows,hevents]
    exact db.specRows_extend_of_ne fun row hrow => (hrows row hrow).2.1
  · exact .set successor write
  · exact .known write read

/-! The tables after a new revision. -/

section SetRevision

variable {sha : Sha} {db : Db} {now : Time} {next : TaskSpecs.CurrentSpec} {key : String} {expected : Option ℕ}

theorem Db.revision?_setRevision (id : String) (r : ℕ) :
    (TaskSpecs.setRevision now db next key expected).revision? id r =
      if id = next.taskId ∧ r = next.revision then
        some ⟨next.parentRevision,next.specSha256,next.spec,next.source,now⟩
      else db.revision? id r := by
  by_cases hid : id = next.taskId
  · subst hid
    have hrow : (TaskSpecs.setRevision now db next key expected).taskSpecRevisions[next.taskId]? =
        some (((db.taskSpecRevisions[next.taskId]?).getD ∅).insert next.revision
          ⟨next.parentRevision,next.specSha256,next.spec,next.source,now⟩) := Tables.get_insert_self ..
    rw [Db.revision?,hrow,Option.bind_some,Std.ExtTreeMap.getElem?_insert]
    by_cases hr : r = next.revision
    · simp [hr]
    · have hcompare : ¬ compare next.revision r = .eq := fun heq => hr (compare_eq_iff_eq.mp heq).symm
      rw [if_neg hcompare,if_neg fun h => hr h.2,Db.revision?]
      cases db.taskSpecRevisions[next.taskId]? <;> simp
  · rw [if_neg fun h => hid h.1]
    simp only [Db.revision?,TaskSpecs.setRevision,Tables.get_insert_ne _ _ hid]

@[simp] theorem Db.currentRevision_setRevision (id : String) :
    (TaskSpecs.setRevision now db next key expected).currentRevision id =
      if id = next.taskId then next.revision else db.currentRevision id := by
  by_cases hid : id = next.taskId
  · simp [Db.currentRevision,TaskSpecs.setRevision,hid]
  · simp only [Db.currentRevision,TaskSpecs.setRevision,Tables.get_insert_ne _ _ hid,if_neg hid]

theorem SpecSuccessor.revision_eq_succ (h : SpecSuccessor sha db next) :
    next.revision = db.currentRevision next.taskId+1 := by
  cases hpointer : db.taskSpecs[next.taskId]? with
  | some pointer => simp [h.revision_eq hpointer,Db.currentRevision,hpointer]
  | none =>
    obtain ⟨current,hcurrent,hrevision⟩ := h.current
    simp only [getCurrent,hpointer,Except.ok.injEq] at hcurrent
    subst hcurrent
    simpa [Db.currentRevision,hpointer] using hrevision

theorem SpecSuccessor.validatedRow (h : SpecSuccessor sha db next) :
    TaskSpecs.validatedRow sha next.taskId next.revision
      ⟨next.parentRevision,next.specSha256,next.spec,next.source,now⟩ = .ok next := by
  have hpos : 1 ≤ next.revision := by
    rw [h.revision_eq_succ]
    exact Nat.le_add_left 1 _
  simp only [TaskSpecs.validatedRow,steps_ok,Bool.and_eq_true,decide_eq_true_eq]
  exact ⟨_,h.id,(),rfl,(),h.digest.symm,(),⟨hpos,h.parent⟩,trivial⟩

end SetRevision

/-! The tables. -/

def TaskSpecRevision.toSpec (row : TaskSpecRevision) (id : String) (r : ℕ) : TaskSpecs.CurrentSpec :=
  ⟨id,r,row.parentRevision,row.specSha256,row.spec,row.source⟩

/-- Revisions are numbered from one to the current one, each row passes its check, the pointer names
the digest of its row, and every receipt names a stored revision. -/
structure Db.SpecLedger (sha : Sha) (db : Db) : Prop where
  stored : ∀ id r, (db.revision? id r).isSome = true ↔ 1 ≤ r ∧ r ≤ db.currentRevision id
  valid : ∀ id r row, db.revision? id r = some row → TaskSpecs.validatedRow sha id r row = .ok (row.toSpec id r)
  pointed : ∀ (id : String) (pointer : TaskSpecPointer), db.taskSpecs[id]? = some pointer →
    ∃ row, db.revision? id pointer.currentRevision = some row ∧ row.specSha256 = pointer.specSha256
  receipts : ∀ (key : String) (receipt : TaskSpecMutation), db.taskSpecMutations[key]? = some receipt →
    ∃ row, db.revision? receipt.taskId receipt.resultingRevision = some row ∧
      row.specSha256 = receipt.requestedSha256

namespace Db.SpecLedger

variable {sha : Sha} {db db' : Db}

theorem fresh (sha : Sha) : (Db.fresh sha).SpecLedger sha := by
  refine ⟨fun id r => ?_,fun id r row hrow => ?_,fun id pointer hpointer => ?_,fun key receipt hreceipt => ?_⟩
  · simp [Db.revision?,Db.currentRevision,Db.fresh]
    omega
  · simp [Db.revision?,Db.fresh] at hrow
  · simp [Db.fresh] at hpointer
  · simp [Db.fresh] at hreceipt

theorem congr (h : db.SpecLedger sha) (hspecs : db'.specs = db.specs) : db'.SpecLedger sha := by
  obtain ⟨hpointers,htables⟩ := Prod.mk.inj hspecs
  obtain ⟨hrevisions,hmutations⟩ := Prod.mk.inj htables
  refine ⟨?_,?_,?_,?_⟩
  · simpa only [Db.revision?,Db.currentRevision,hpointers,hrevisions] using h.stored
  · simpa only [Db.revision?,hrevisions] using h.valid
  · simpa only [Db.revision?,hpointers,hrevisions] using h.pointed
  · simpa only [Db.revision?,hrevisions,hmutations] using h.receipts

variable {row : TaskSpecRevision} {id key : String} {current next : CurrentSpec}

theorem getRevision_eq (h : db.SpecLedger sha) (id : String) (r : ℕ)
    (hrow : db.revision? id r = some row) : getRevision sha db id r = .ok (row.toSpec id r) := by
  have hread : (db.taskSpecRevisions[id]?).bind (fun revisions => revisions[r]?) = some row := hrow
  simp only [getRevision,revisionRow,steps_ok]
  exact ⟨row,hread,h.valid id r row hrow⟩

theorem currentRevision_eq_zero (h : db.SpecLedger sha)
    (hnone : db.revision? id (db.currentRevision id) = none) : db.currentRevision id = 0 := by
  have hstored := h.stored id (db.currentRevision id)
  simp only [hnone,Option.isSome_none,Bool.false_eq_true,false_iff] at hstored
  omega

theorem row_eq (h : db.SpecLedger sha) (hrow : db.revision? id r = some row) :
    row.parentRevision = parentOfRevision r ∧
      row.specSha256 = taskSpecDigest sha row.spec := by
  have hvalid := h.valid id r row hrow
  simp only [validatedRow,steps_ok,Bool.and_eq_true,decide_eq_true_eq] at hvalid
  obtain ⟨_,_,_,_,_,hdigest,_,hlineage,_⟩ := hvalid
  exact ⟨hlineage.2,hdigest.symm⟩

theorem length_storedRevisions (h : db.SpecLedger sha) (id : String) :
    (db.storedRevisions sha id).length = db.currentRevision id := by
  have hall : ∀ i ∈ List.range (db.currentRevision id),
      ((getRevision sha db id (i+1)).toOption).isSome = true := by
    intro i hi
    have hi : i < db.currentRevision id := List.mem_range.mp hi
    obtain ⟨row,hrow⟩ := Option.isSome_iff_exists.mp ((h.stored id (i+1)).mpr ⟨by omega,by omega⟩)
    rw [h.getRevision_eq id _ hrow]
    rfl
  rw [Db.storedRevisions,List.length_filterMap_eq_countP,List.countP_eq_length.mpr hall,List.length_range]

theorem storedRevisions_eq (h : db.SpecLedger sha) (id : String) : db.storedRevisions sha id =
    (List.range (db.currentRevision id)).filterMap fun i => (db.revision? id (i+1)).map (·.toSpec id (i+1)) := by
  refine List.filterMap_congr fun i hi => ?_
  have hi : i < db.currentRevision id := List.mem_range.mp hi
  obtain ⟨row,hrow⟩ := Option.isSome_iff_exists.mp ((h.stored id (i+1)).mpr ⟨by omega,by omega⟩)
  rw [h.getRevision_eq id _ hrow,hrow]
  rfl

theorem getCurrent_eq (h : db.SpecLedger sha) (id : String) : getCurrent sha db id =
    .ok ((db.revision? id (db.currentRevision id)).map (·.toSpec id (db.currentRevision id))) := by
  cases hpointer : db.taskSpecs[id]? with
  | none =>
    have hzero : db.currentRevision id = 0 := by simp [Db.currentRevision,hpointer]
    have hnone : db.revision? id (db.currentRevision id) = none := by
      rw [← Option.not_isSome_iff_eq_none,h.stored]
      omega
    simp [getCurrent,hpointer,hnone]
  | some pointer =>
    have hcurrent : db.currentRevision id = pointer.currentRevision := by simp [Db.currentRevision,hpointer]
    obtain ⟨row,hrow,hdigest⟩ := h.pointed id pointer hpointer
    rw [hcurrent,hrow,Option.map_some]
    simp only [getCurrent,hpointer,steps_ok]
    exact ⟨_,h.getRevision_eq id _ hrow,(),decide_eq_true hdigest,rfl⟩

theorem of_getCurrent (h : db.SpecLedger sha)
    (hread : getCurrent sha db id = .ok (some current)) :
    current.revision = db.currentRevision id ∧
      ∃ row, db.revision? id current.revision = some row ∧ row.specSha256 = current.specSha256 := by
  rw [h.getCurrent_eq,Except.ok.injEq,Option.map_eq_some_iff] at hread
  obtain ⟨row,hrow,rfl⟩ := hread
  exact ⟨rfl,row,hrow,rfl⟩

theorem noteMutation (h : db.SpecLedger sha)
    (hread : getCurrent sha db id = .ok (some current)) :
    (db.noteMutation current key expected).SpecLedger sha := by
  refine ⟨h.stored,h.valid,h.pointed,fun other receipt hreceipt => ?_⟩
  simp only [Db.noteMutation,Tables.get_insert] at hreceipt
  split at hreceipt
  · cases hreceipt
    rw [(getCurrent_eq_some hread).1]
    exact (h.of_getCurrent hread).2
  · exact h.receipts other receipt hreceipt

theorem revision?_kept (h : db.SpecLedger sha) (hnext : SpecSuccessor sha db next)
    (hrow : db.revision? id r = some row) :
    (TaskSpecs.setRevision now db next key expected).revision? id r = some row := by
  have hstored := (h.stored id r).mp (by simp [hrow])
  have hsucc := hnext.revision_eq_succ
  rw [Db.revision?_setRevision,if_neg,hrow]
  rintro ⟨rfl,rfl⟩
  omega

theorem setRevision (h : db.SpecLedger sha) (hnext : SpecSuccessor sha db next)
    (now : Time) (key : String) (expected : Option ℕ) :
    (TaskSpecs.setRevision now db next key expected).SpecLedger sha := by
  have hsucc := hnext.revision_eq_succ
  refine ⟨fun id r => ?_,fun id r row hrow => ?_,fun id pointer hpointer => ?_,fun other receipt hreceipt => ?_⟩
  · rw [Db.revision?_setRevision,Db.currentRevision_setRevision]
    by_cases hid : id = next.taskId
    · subst hid
      by_cases hr : r = next.revision
      · simp [hr]
        omega
      · rw [if_neg fun hnew => hr hnew.2,if_pos rfl,h.stored]
        omega
    · rw [if_neg fun hnew => hid hnew.1,if_neg hid,h.stored]
  · rw [Db.revision?_setRevision] at hrow
    split at hrow
    · rename_i hnew
      obtain ⟨rfl,rfl⟩ := hnew
      cases hrow
      exact hnext.validatedRow
    · exact h.valid id r row hrow
  · by_cases hid : id = next.taskId
    · subst hid
      obtain rfl : pointer = ⟨next.revision,next.specSha256,now⟩ :=
        Option.some.inj (hpointer.symm.trans (Tables.get_insert_self ..))
      exact ⟨_,by rw [Db.revision?_setRevision,if_pos ⟨rfl,rfl⟩],rfl⟩
    · have hold : db.taskSpecs[id]? = some pointer := (Tables.get_insert_ne _ _ hid).symm.trans hpointer
      obtain ⟨row,hrow,hdigest⟩ := h.pointed id pointer hold
      exact ⟨row,h.revision?_kept hnext hrow,hdigest⟩
  · simp only [TaskSpecs.setRevision,Tables.get_insert] at hreceipt
    split at hreceipt
    · cases hreceipt
      exact ⟨_,by rw [Db.revision?_setRevision,if_pos ⟨rfl,rfl⟩],rfl⟩
    · obtain ⟨row,hrow,hdigest⟩ := h.receipts other receipt hreceipt
      exact ⟨row,h.revision?_kept hnext hrow,hdigest⟩

theorem effect (h : db.SpecLedger sha) (heffect : SpecEffect sha db db') : db'.SpecLedger sha := by
  cases heffect with
  | none _ specs => exact h.congr specs
  | known _ read => exact h.noteMutation read
  | set successor => exact h.setRevision successor ..

end Db.SpecLedger

/-! The journal. -/

/-- The events replay to the current revisions, and they are the stored revisions in order. -/
structure Db.SpecReplays (sha : Sha) (db : Db) (st : TaskSpecs.ReplayState) : Prop where
  rows : TaskSpecs.replay sha db.specRows = .ok st
  tasks : ∀ id : String, st.tasks[id]? =
    (db.revision? id (db.currentRevision id)).map fun row => (row.toSpec id (db.currentRevision id)).projected
  keys : ∀ key ∈ st.keys, (db.taskSpecMutations[key]?).isSome = true
  last : st.lastEventId < db.nextEventId
  journal : ∀ id, db.journaledRevisions sha id = db.storedRevisions sha id

namespace Db.SpecReplays

variable {sha : Sha} {db db' : Db} {st : TaskSpecs.ReplayState}

theorem fresh (sha : Sha) : (Db.fresh sha).SpecReplays sha ⟨∅,0,-1,[]⟩ := by
  refine ⟨rfl,fun id => ?_,by simp,?_,fun id => ?_⟩
  · simp [Db.revision?,Db.fresh]
  · simp [Db.fresh]
  · simp [Db.storedRevisions,Db.currentRevision,Db.journaledRevisions,Db.specRows,Db.fresh]

theorem congr (h : db.SpecReplays sha st) (hrows : db'.specRows = db.specRows) (hspecs : db'.specs = db.specs)
    (hnext : db.nextEventId ≤ db'.nextEventId) : db'.SpecReplays sha st := by
  obtain ⟨hpointers,htables⟩ := Prod.mk.inj hspecs
  obtain ⟨hrevisions,hmutations⟩ := Prod.mk.inj htables
  have hrevision : db'.revision? = db.revision? := by
    funext id r
    rw [Db.revision?,hrevisions,Db.revision?]
  have hcurrent : db'.currentRevision = db.currentRevision := by
    funext id
    rw [Db.currentRevision,hpointers,Db.currentRevision]
  refine ⟨?_,fun id => ?_,fun key hkey => ?_,?_,fun id => ?_⟩
  · rw [hrows]
    exact h.rows
  · rw [hrevision,hcurrent]
    exact h.tasks id
  · rw [hmutations]
    exact h.keys key hkey
  · have hlast := h.last
    omega
  · have hjournal := h.journal id
    simp only [Db.journaledRevisions,Db.storedRevisions,getRevision,revisionRow] at hjournal ⊢
    rw [hrows,hcurrent,hrevisions]
    exact hjournal

theorem noteMutation (h : db.SpecReplays sha st) (current : CurrentSpec) (key : String)
    (expected : Option ℕ) : (db.noteMutation current key expected).SpecReplays sha st := by
  refine ⟨h.rows,h.tasks,fun other hother => ?_,h.last,h.journal⟩
  simp only [Db.noteMutation,Tables.get_insert]
  split
  · rfl
  · exact h.keys other hother

theorem replayEvent_next (h : db.SpecReplays sha st) (hledger : db.SpecLedger sha) {next : CurrentSpec}
    {key : String} (hnext : SpecSuccessor sha db next)
    (hwrite : SpecWrite sha db next.taskId key expected next.source) :
    replayEvent sha st ⟨db.nextEventId,none,.taskSpecRevisionSet,1,none,
        .plain (revisionEventPayload next key)⟩ =
      .ok ⟨st.tasks.insert next.taskId next.projected,st.eventCount+1,db.nextEventId,st.keys ++ [key]⟩ := by
  have hkey : key ∉ st.keys := by
    intro hmem
    simpa [hwrite.unused] using h.keys key hmem
  have hlineage : next.parentRevision = (st.tasks[next.taskId]?).map (·.revision) := by
    rw [hnext.parent,hnext.revision_eq_succ,h.tasks next.taskId]
    cases hrow : db.revision? next.taskId (db.currentRevision next.taskId) with
    | none => simp [hledger.currentRevision_eq_zero hrow,parentOfRevision]
    | some row =>
      have hstored := (hledger.stored next.taskId (db.currentRevision next.taskId)).mp (by simp [hrow])
      simp [parentOfRevision_succ hstored.1,TaskSpecRevision.toSpec,CurrentSpec.projected]
  have hread := validateEventPayload_revisionEventPayload hnext hwrite
  simp only [replayEvent,steps_ok,decide_eq_true_eq]
  exact ⟨(),h.last,(),trivial,(),trivial,_,hread,(),by simp [hkey],(),hlineage,rfl⟩

theorem setRevision (h : db.SpecReplays sha st) (hledger : db.SpecLedger sha) {next : CurrentSpec}
    {key : String} (hnext : SpecSuccessor sha db next)
    (hwrite : SpecWrite sha db next.taskId key expected next.source) (now : Time) :
    (TaskSpecs.setRevision now db next key expected).SpecReplays sha
      ⟨st.tasks.insert next.taskId next.projected,st.eventCount+1,db.nextEventId,st.keys ++ [key]⟩ := by
  have hrows : (TaskSpecs.setRevision now db next key expected).specRows = db.specRows ++
      [⟨db.nextEventId,none,.taskSpecRevisionSet,1,none,.plain (revisionEventPayload next key)⟩] := by
    simp [Db.specRows,TaskSpecs.setRevision,List.filter_append]
  refine ⟨?_,fun id => ?_,fun other hother => ?_,?_,fun id => ?_⟩
  · have hbefore := h.rows
    rw [TaskSpecs.replay] at hbefore ⊢
    rw [hrows,List.foldlM_append,hbefore]
    show (replayEvent sha st _ >>= pure) = _
    rw [h.replayEvent_next hledger hnext hwrite]
    rfl
  · rw [Tables.get_insert,Db.currentRevision_setRevision,Db.revision?_setRevision]
    by_cases hid : id = next.taskId
    · simp [hid,TaskSpecRevision.toSpec,CurrentSpec.projected]
    · simp only [hid,if_false,false_and]
      exact h.tasks id
  · simp only [TaskSpecs.setRevision,Tables.get_insert]
    split
    · rfl
    · rename_i hne
      rcases List.mem_append.mp hother with hold | hnew
      · exact h.keys other hold
      · exact absurd (List.mem_singleton.mp hnew) hne
  · show (db.nextEventId : Int) < (db.nextEventId+1 : ℕ)
    omega
  · have hread := validateEventPayload_revisionEventPayload hnext hwrite
    have hjournal := h.journal id
    rw [Db.journaledRevisions,hledger.storedRevisions_eq] at hjournal
    rw [Db.journaledRevisions,(hledger.setRevision hnext now key expected).storedRevisions_eq,hrows,
      List.filterMap_append,hjournal,Db.currentRevision_setRevision]
    simp only [Db.revision?_setRevision]
    by_cases hid : id = next.taskId
    · subst hid
      rw [if_pos rfl,hnext.revision_eq_succ,List.range_succ,List.filterMap_append]
      congr 1
      · refine List.filterMap_congr fun i hi => ?_
        have hi : i < db.currentRevision next.taskId := List.mem_range.mp hi
        rw [if_neg]
        omega
      · simp [Payload.toJson,hread,Except.toOption,TaskSpecRevision.toSpec,← hnext.revision_eq_succ,Option.filter]
    · have hne : ¬ next.taskId = id := fun heq => hid heq.symm
      simp [hid,hne,Payload.toJson,hread,Except.toOption,Option.filter]

end Db.SpecReplays

namespace SpecEffect

variable {sha : Sha} {db db' : Db}

theorem replays (h : SpecEffect sha db db') (hledger : db.SpecLedger sha) {st : TaskSpecs.ReplayState}
    (hreplays : db.SpecReplays sha st) : ∃ st', db'.SpecReplays sha st' := by
  cases h with
  | none rows specs next => exact ⟨st,hreplays.congr rows specs next⟩
  | known => exact ⟨st,hreplays.noteMutation ..⟩
  | set successor write => exact ⟨_,hreplays.setRevision hledger successor write _⟩

theorem currentRevision_le (h : SpecEffect sha db db') (id : String) :
    db.currentRevision id ≤ db'.currentRevision id := by
  cases h with
  | none rows specs next =>
    have hpointers : db'.taskSpecs = db.taskSpecs := congrArg Prod.fst specs
    rw [Db.currentRevision,Db.currentRevision,hpointers]
  | known => exact le_rfl
  | set successor write =>
    rw [Db.currentRevision_setRevision]
    split
    · rename_i hid
      rw [hid,successor.revision_eq_succ]
      exact Nat.le_succ _
    · exact le_rfl

theorem revision?_kept (h : SpecEffect sha db db') (hledger : db.SpecLedger sha) {id : String}
    {row : TaskSpecRevision} (hrow : db.revision? id r = some row) : db'.revision? id r = some row := by
  cases h with
  | none rows specs next =>
    have hrevisions : db'.taskSpecRevisions = db.taskSpecRevisions := congrArg (fun tables => tables.2.1) specs
    rwa [Db.revision?,hrevisions]
  | known => exact hrow
  | set successor write => exact hledger.revision?_kept successor hrow

theorem mutation_kept (h : SpecEffect sha db db') {key : String}
    (hknown : (db.taskSpecMutations[key]?).isSome = true) :
    db'.taskSpecMutations[key]? = db.taskSpecMutations[key]? := by
  cases h with
  | none rows specs next =>
    have hmutations : db'.taskSpecMutations = db.taskSpecMutations := congrArg (fun tables => tables.2.2) specs
    rw [hmutations]
  | known write | set _ write =>
    refine Tables.get_insert_ne _ _ ?_
    rintro rfl
    simp [write.unused] at hknown

end SpecEffect

section Runs

variable {E : Env} {K : Contracts} {start db : Db}

/-- What the changes of the TaskSpecs preserve, every run of the writers preserves. -/
theorem Writer.reach_invariant {P : Db → Prop} (heffect : ∀ db db', SpecEffect E.sha db db' → P db → P db')
    (hstart : P start) (h : Reach (Writer.step E K) (fun _ _ => True) start db) : P db :=
  Reach.invariant (P := P) hstart
    (fun _ op hholds _ =>
      step_invariant (fun _ db db' hmove hholds => heffect db db' hmove.specEffect hholds) hholds op.planned_self)
    (Writer.reach_operations h)

theorem Writer.specLedger_of_reach (h : Reach (Writer.step E K) (fun _ _ => True) (Db.fresh E.sha) db) :
    db.SpecLedger E.sha ∧ ∃ st, db.SpecReplays E.sha st := by
  refine Writer.reach_invariant (P := fun db => db.SpecLedger E.sha ∧ ∃ st, db.SpecReplays E.sha st) ?_
    ⟨Db.SpecLedger.fresh E.sha,_,Db.SpecReplays.fresh E.sha⟩ h
  rintro before after heffect ⟨hledger,st,hreplays⟩
  exact ⟨hledger.effect heffect,heffect.replays hledger hreplays⟩

theorem Writer.specLedger_of_later (hledger : start.SpecLedger E.sha)
    (h : Reach (Writer.step E K) (fun _ _ => True) start db) : db.SpecLedger E.sha :=
  Writer.reach_invariant (P := fun db => db.SpecLedger E.sha) (fun _ _ heffect hledger => hledger.effect heffect)
    hledger h

theorem Writer.currentRevision_le_of_reach (h : Reach (Writer.step E K) (fun _ _ => True) start db) (id : String) :
    start.currentRevision id ≤ db.currentRevision id :=
  Writer.reach_invariant (P := fun db => start.currentRevision id ≤ db.currentRevision id)
    (fun _ _ heffect hle => hle.trans (heffect.currentRevision_le id)) le_rfl h

end Runs

theorem SpecWrite.currentRevision_eq {id key : String} (h : SpecWrite sha db id key expected source)
    (hledger : db.SpecLedger sha) :
    db.currentRevision id = expected.getD 0 := by
  obtain ⟨current,hread,rfl⟩ := h.baseline
  rw [hledger.getCurrent_eq id,Except.ok.injEq] at hread
  subst hread
  cases hrow : db.revision? id (db.currentRevision id) with
  | none => exact hledger.currentRevision_eq_zero hrow
  | some row => rfl

namespace TaskSpecs

variable {sha : Sha} {db : Db}

theorem replays_currentProjection {st : ReplayState} (hledger : db.SpecLedger sha) (hreplays : db.SpecReplays sha st) :
    ∃ specs, currentProjection sha db = .ok specs ∧ st.tasks = projectionTasks specs := by
  have htotal : ∃ specs, currentProjection sha db = .ok specs := by
    refine collect_total fun item hitem => ?_
    have hpointer : db.taskSpecs[item.1]? = some item.2 := Std.ExtTreeMap.mem_toList_iff_getElem?_eq_some.mp hitem
    obtain ⟨row,hrow,_⟩ := hledger.pointed _ _ hpointer
    have hcurrent : db.currentRevision item.1 = item.2.currentRevision := by simp [Db.currentRevision,hpointer]
    refine ⟨row.toSpec item.1 item.2.currentRevision,?_⟩
    simp only [steps_ok]
    exact ⟨_,hledger.getCurrent_eq item.1,by rw [hcurrent,hrow]; rfl⟩
  obtain ⟨specs,hspecs⟩ := htotal
  refine ⟨specs,hspecs,Std.ExtTreeMap.ext_getElem? fun id => ?_⟩
  have hkeys : ((specs.map fun current => (current.taskId,current.projected)).map Prod.fst).Nodup := by
    rw [List.map_map]
    exact currentProjection_keys hspecs
  have hread := hledger.getCurrent_eq id
  refine Option.ext fun task => ?_
  rw [hreplays.tasks,projectionTasks,Tables.get_ofList hkeys,List.mem_map]
  constructor
  · intro htask
    obtain ⟨row,hrow,rfl⟩ := Option.map_eq_some_iff.mp htask
    rw [hrow] at hread
    exact ⟨_,mem_currentProjection hspecs hread,rfl⟩
  · rintro ⟨current,hmem,heq⟩
    obtain ⟨rfl,rfl⟩ := Prod.mk.inj heq
    have hcurrent := getCurrent_of_mem_currentProjection hspecs hmem
    rw [hcurrent,Except.ok.injEq] at hread
    obtain ⟨row,hrow,heq⟩ := Option.map_eq_some_iff.mp hread.symm
    rw [hrow,← heq]
    rfl

variable {key : String} {result : PutResult}

theorem PutEffect.specEffect
    (h : PutEffect sha now db spec key expected source result db') : SpecEffect sha db db' := by
  cases h with
  | replay => exact .none rfl rfl le_rfl
  | known id write read => exact .known write read
  | set document origin successor write => exact .set successor write

theorem PutEffect.changed_revision
    (h : PutEffect sha now db spec key expected source result db') (hledger : db.SpecLedger sha)
    (hnew : result.idempotentReplay = false) : db.currentRevision result.current.taskId = expected.getD 0 := by
  cases h with
  | replay id receipt read =>
    simp only [replayMutation,steps_ok] at read
    obtain ⟨_,_,_,_,_,_,_,_,_,_,rfl⟩ := read
    simp at hnew
  | @known taskId current id write read =>
    have htask : current.taskId = taskId := (getCurrent_eq_some read).1
    exact htask ▸ write.currentRevision_eq hledger
  | set document origin successor write => exact write.currentRevision_eq hledger

theorem PutEffect.changed_currentRevision
    (h : PutEffect sha now db spec key expected source result db') (hledger : db.SpecLedger sha)
    (hchanged : result.changed = true) :
    db'.currentRevision result.current.taskId = expected.getD 0+1 := by
  cases h with
  | replay id receipt read =>
    simp only [replayMutation,steps_ok] at read
    obtain ⟨_,_,_,_,_,_,_,_,_,_,rfl⟩ := read
    simp at hchanged
  | known id write read => simp at hchanged
  | set document origin successor write =>
    rw [Db.currentRevision_setRevision,if_pos rfl,successor.revision_eq_succ,write.currentRevision_eq hledger]

theorem PutEffect.changed_of_replay
    (h : PutEffect sha now db spec key expected source result db') (hreplay : result.idempotentReplay = true) :
    result.changed = false ∧ db' = db := by
  cases h with
  | replay id receipt read =>
    simp only [replayMutation,steps_ok] at read
    obtain ⟨_,_,_,_,_,_,_,_,_,_,rfl⟩ := read
    exact ⟨rfl,rfl⟩
  | known | set => simp at hreplay

end TaskSpecs

/-- The tables and the journal of TaskSpecs over every run of their writers. The revisions of a task
are numbered from one to the current one and name their parents; replay gives the current
projection, and the journal holds the stored revisions in order. Once a put has set the revision
after an expected one, a later put with that expected revision is only the repetition of one that
was accepted. -/
theorem spec_history_integrity {E : Env} {K : Contracts} {db : Db}
    (h : Reach (Writer.step E K) (fun _ _ => True) (Db.fresh E.sha) db) :
    (∀ id r, (db.revision? id r).isSome = true ↔ 1 ≤ r ∧ r ≤ db.currentRevision id) ∧
    (∀ id r row, db.revision? id r = some row → row.parentRevision = (if r = 1 then none else some (r-1)) ∧
      row.specSha256 = TaskSpecs.taskSpecDigest E.sha row.spec) ∧
    (∃ st specs, TaskSpecs.replay E.sha db.specRows = .ok st ∧ TaskSpecs.currentProjection E.sha db = .ok specs ∧
      st.tasks = TaskSpecs.projectionTasks specs) ∧
    (∀ id, db.journaledRevisions E.sha id = db.storedRevisions E.sha id ∧
      (db.storedRevisions E.sha id).length = db.currentRevision id) ∧
    ∀ (now : Time) (spec : Json) (key : String) (expected : Option ℕ) (source : String) (won : TaskSpecs.PutResult)
      (after : Db), TaskSpecs.putValidatedMaterial E.sha now db spec key expected source = .ok (won,after) →
      won.changed = true → ∀ later, Reach (Writer.step E K) (fun _ _ => True) after later →
      ∀ (now' : Time) (spec' : Json) (key' source' : String) (second : TaskSpecs.PutResult) (last : Db),
      TaskSpecs.putValidatedMaterial E.sha now' later spec' key' expected source' = .ok (second,last) →
      second.current.taskId = won.current.taskId → second.idempotentReplay = true ∧ second.changed = false := by
  obtain ⟨hledger,st,hreplays⟩ := Writer.specLedger_of_reach h
  obtain ⟨specs,hspecs,htasks⟩ := replays_currentProjection hledger hreplays
  refine ⟨hledger.stored,fun id r row hrow => ?_,⟨st,specs,hreplays.rows,hspecs,htasks⟩,
    fun id => ⟨hreplays.journal id,hledger.length_storedRevisions id⟩,?_⟩
  · exact hledger.row_eq hrow
  · intro now spec key expected source won after hput hwon later hreach now' spec' key' source' second last hsecond
      htask
    have hfirst := putValidatedMaterial_effect hput
    have hsecond := putValidatedMaterial_effect hsecond
    have hafter := hfirst.changed_currentRevision hledger hwon
    have hlater := Writer.currentRevision_le_of_reach hreach won.current.taskId
    have hreplay : second.idempotentReplay = true := by
      by_contra hnew
      have hbaseline := hsecond.changed_revision
        (Writer.specLedger_of_later (hledger.effect hfirst.specEffect) hreach) (by simpa using hnew)
      rw [htask] at hbaseline
      omega
    exact ⟨hreplay,(hsecond.changed_of_replay hreplay).1⟩

namespace Sample

def revisedSpec : Json := .obj [("id",.str "T-1"),("title",.str "second")]

def seededDb : Db :=
  Writer.step env contracts (Db.fresh env.sha) (.seedMissingRegistryTask 1 files "T-1")

def revisedDb : Db :=
  Writer.step env contracts seededDb (.operate (.putTaskSpecMaterial 2 revisedSpec "put-1" (some 1) "operator"))

end Sample

theorem spec_history_integrity_revised :
    Sample.revisedDb.currentRevision "T-1" = 2 ∧ (Sample.revisedDb.revision? "T-1" 2).isSome = true ∧
      (∃ st specs, TaskSpecs.replay Sample.env.sha Sample.revisedDb.specRows = .ok st ∧
        TaskSpecs.currentProjection Sample.env.sha Sample.revisedDb = .ok specs ∧
          st.tasks = TaskSpecs.projectionTasks specs) ∧
      ∀ (now : Time) (spec : Json) (key source : String) (second : TaskSpecs.PutResult) (last : Db),
        TaskSpecs.putValidatedMaterial Sample.env.sha now Sample.revisedDb spec key (some 1) source =
          .ok (second,last) →
          second.current.taskId = "T-1" → second.idempotentReplay = true ∧ second.changed = false := by
  have hseeded : Reach (Writer.step Sample.env Sample.contracts) (fun _ _ => True) (Db.fresh Sample.env.sha)
      Sample.seededDb := .step .init trivial
  have hcurrent : Sample.revisedDb.currentRevision "T-1" = 2 := by decide +kernel
  have hrevised := spec_history_integrity (.step hseeded trivial : Reach (Writer.step Sample.env Sample.contracts)
    (fun _ _ => True) (Db.fresh Sample.env.sha) Sample.revisedDb)
  refine ⟨hcurrent,(hrevised.1 "T-1" 2).mpr ⟨by decide,hcurrent.ge⟩,hrevised.2.2.1,?_⟩
  have hwon : ((putValidatedMaterial Sample.env.sha 2 Sample.seededDb Sample.revisedSpec "put-1" (some 1)
      "operator").toOption.any fun r => r.1.changed && r.1.current.taskId = "T-1") = true := by decide +kernel
  simp only [Option.any_eq_true,toOption_eq_some,Bool.and_eq_true,decide_eq_true_eq] at hwon
  obtain ⟨⟨won,after⟩,hput,hchanged,htask⟩ := hwon
  have hafter : Sample.revisedDb = after := by
    rw [Sample.revisedDb,Writer.step,Writer.apply,Op.apply,hput]
    rfl
  have hwins := (spec_history_integrity hseeded).2.2.2.2 2 _ _ _ _ won after hput hchanged
  rw [hafter]
  intro now spec key source second last hsecond hid
  exact hwins after .init now spec key source second last hsecond (hid.trans htask.symm)

end Bureau
