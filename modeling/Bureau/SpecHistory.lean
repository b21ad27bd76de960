import Bureau.Operations

/-!
The history of TaskSpec revisions in the journal. Event ids grow, and the events that set the
revisions of one task come in the order of the revisions.
-/

namespace Bureau

open Transactions Relation TaskSpecs

namespace Db

def IdsBelow (db : Db) : Prop :=
  ∀ e ∈ db.events, e.eventId < db.nextEventId

end Db

def EventRow.setsRevision (e : EventRow) (taskId : String) (revision : ℕ) : Prop :=
  e.eventType = .taskSpecRevisionSet ∧ ∃ document, e.payload = .plain document ∧
    document.getStr? "task_id" = some taskId ∧ document.get? "revision" = some (natJson revision)

theorem setsRevision_of_mem_specEvents {db : Db} {taskId : String} {revision eventId : ℕ} {document : Json}
    (h : (eventId,document) ∈ specEvents db taskId revision) :
    ∃ e ∈ db.events, e.eventId = eventId ∧ e.setsRevision taskId revision := by
  obtain ⟨e,he,hread⟩ := List.mem_filterMap.mp h
  split at hread
  · rename_i found htype hpayload
    split at hread
    · rename_i hnames
      cases hread
      exact ⟨e,he,rfl,htype,_,hpayload,hnames.1,hnames.2⟩
    · simp at hread
  · simp at hread

structure Db.SpecHistory (db : Db) : Prop where
  ids : db.IdsBelow
  bounded : ∀ e ∈ db.events, ∀ taskId revision, e.setsRevision taskId revision →
    ∃ pointer, db.taskSpecs[taskId]? = some pointer ∧ revision ≤ pointer.currentRevision
  ordered : ∀ e ∈ db.events, ∀ e' ∈ db.events, ∀ taskId revision revision', e.setsRevision taskId revision →
    e'.setsRevision taskId revision' → revision < revision' → e.eventId < e'.eventId

theorem SpecSuccessor.revision_eq {sha : Sha} {db : Db} {next : CurrentSpec} (h : SpecSuccessor sha db next)
    {pointer : TaskSpecPointer} (hpointer : db.taskSpecs[next.taskId]? = some pointer) :
    next.revision = pointer.currentRevision+1 := by
  obtain ⟨current,hcurrent,hrevision⟩ := h.current
  simp only [getCurrent,hpointer,steps_ok,getRevision,validatedRow] at hcurrent
  obtain ⟨_,⟨_,_,_,_,_,_,_,_,_,_,rfl⟩,_,_,rfl⟩ := hcurrent
  simpa using hrevision

theorem setsRevision_revisionEventPayload {spec : CurrentSpec} {key taskId : String}
    {id revision : ℕ} : (EventRow.mk id none .taskSpecRevisionSet 1 none
      (.plain (revisionEventPayload spec key))).setsRevision taskId revision ↔
        taskId = spec.taskId ∧ revision = spec.revision := by
  have htask := (getStr?_revisionEventPayload spec key).1
  have hrevision := (TaskSpecs.get?_revisionEventPayload spec key).1
  simp only [EventRow.setsRevision,true_and,Payload.plain.injEq,exists_eq_left',htask,hrevision,Option.some.injEq,
    natJson,
    Json.num.injEq,Int.ofNat_inj]
  exact and_congr eq_comm eq_comm

namespace Db.SpecHistory

variable {sha : Sha} {db db' : Db}

theorem fresh (sha : Sha) : (Db.fresh sha).SpecHistory := by
  have hevents : ∀ e ∈ (Db.fresh sha).events, e.eventId = 0 ∧ e.eventType = .projection := by
    simp [Db.fresh]
  refine ⟨fun e he => ?_,fun e he _ _ hsets => ?_,fun e he _ _ _ _ _ hsets => ?_⟩
  · rw [(hevents e he).1]
    exact Nat.zero_lt_one
  · exact absurd (hsets.1.symm.trans (hevents e he).2) (by decide)
  · exact absurd (hsets.1.symm.trans (hevents e he).2) (by decide)

theorem grows (h : db.SpecHistory) {kind : Kind} (hgrows : db.Grows kind db') (hspecs : db'.specs = db.specs) :
    db'.SpecHistory := by
  obtain ⟨hpointers,_⟩ := Prod.mk.inj hspecs
  obtain ⟨rows,hevents,hnext,hrows⟩ := hgrows
  have hold {e : EventRow} {taskId : String} {revision : ℕ} (he : e ∈ db'.events)
      (hsets : e.setsRevision taskId revision) : e ∈ db.events := by
    rw [hevents] at he
    rcases List.mem_append.mp he with hold | hnew
    · exact hold
    · exact absurd hsets.1 (hrows e hnew).2.1
  refine ⟨?_,?_,?_⟩
  · intro e he
    rw [hevents] at he
    rcases List.mem_append.mp he with hold | hnew
    · exact (h.ids e hold).trans_le (by omega)
    · exact (hrows e hnew).1
  · rw [hpointers]
    exact fun e he taskId revision hsets => h.bounded e (hold he hsets) taskId revision hsets
  · exact fun e he e' he' taskId revision revision' hsets hsets' =>
      h.ordered e (hold he hsets) e' (hold he' hsets') taskId revision revision' hsets hsets'

theorem setRevision (h : db.SpecHistory) {next : CurrentSpec} (hnext : SpecSuccessor sha db next)
    (now : Time) (key : String) (expected : Option ℕ) :
    (setRevision now db next key expected).SpecHistory := by
  have hbelow {e : EventRow} (he : e ∈ db.events) {revision : ℕ} (hsets : e.setsRevision next.taskId revision) :
      revision < next.revision := by
    obtain ⟨pointer,hpointer,hle⟩ := h.bounded e he next.taskId revision hsets
    rw [hnext.revision_eq hpointer]
    exact Nat.lt_succ_of_le hle
  refine ⟨?_,?_,?_⟩
  · intro e he
    rcases List.mem_append.mp he with hold | hnew
    · exact (h.ids e hold).trans (Nat.lt_succ_self _)
    · rw [List.mem_singleton.mp hnew]
      exact Nat.lt_succ_self _
  · intro e he taskId revision hsets
    by_cases hid : taskId = next.taskId
    · subst hid
      refine ⟨_,Tables.get_insert_self _ _ _,?_⟩
      rcases List.mem_append.mp he with hold | hnew
      · exact (hbelow hold hsets).le
      · rw [List.mem_singleton.mp hnew,setsRevision_revisionEventPayload] at hsets
        exact hsets.2.le
    · rcases List.mem_append.mp he with hold | hnew
      · obtain ⟨pointer,hpointer,hle⟩ := h.bounded e hold taskId revision hsets
        exact ⟨pointer,(Tables.get_insert_ne _ _ hid).trans hpointer,hle⟩
      · rw [List.mem_singleton.mp hnew,setsRevision_revisionEventPayload] at hsets
        exact absurd hsets.1 hid
  · intro e he e' he' taskId revision revision' hsets hsets' hlt
    rcases List.mem_append.mp he with hold | hnew <;> rcases List.mem_append.mp he' with hold' | hnew'
    · exact h.ordered e hold e' hold' taskId revision revision' hsets hsets' hlt
    · rw [List.mem_singleton.mp hnew']
      exact h.ids e hold
    · rw [List.mem_singleton.mp hnew,setsRevision_revisionEventPayload] at hsets
      obtain ⟨rfl,rfl⟩ := hsets
      exact absurd (hbelow hold' hsets') (Nat.lt_asymm hlt)
    · rw [List.mem_singleton.mp hnew,setsRevision_revisionEventPayload] at hsets
      rw [List.mem_singleton.mp hnew',setsRevision_revisionEventPayload] at hsets'
      exact absurd hlt (by rw [hsets.2,hsets'.2]; exact Nat.lt_irrefl _)

end Db.SpecHistory

theorem Move.specHistory {sha : Sha} {resources : Resources} {kind : Kind} {db db' : Db}
    (h : Move sha resources kind db db') (hhistory : db.SpecHistory) : db'.SpecHistory := by
  rcases h.frame with hframe | ⟨_,⟨_,_,_,_,rfl,successor,_⟩ | ⟨_,_,_,_,_,rfl,_⟩⟩
  · exact hhistory.grows hframe.grows hframe.specs
  · exact hhistory.setRevision successor _ _ _
  · exact ⟨hhistory.ids,hhistory.bounded,hhistory.ordered⟩

theorem specHistory_of_reach {E : Env} {K : Contracts} {db : Db}
    (h : Reach (step E K) (fun _ _ => True) (Db.fresh E.sha) db) : db.SpecHistory :=
  Reach.invariant (P := Db.SpecHistory) (Db.SpecHistory.fresh E.sha)
    (fun _ op hhistory _ =>
      step_invariant (fun _ _ _ hmove hhistory => hmove.specHistory hhistory) hhistory op.planned_self) h

end Bureau
