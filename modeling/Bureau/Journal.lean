import Bureau.Operations

/-!
The journal of the store. Strict replay of the events gives back the projected tables as
long as every write records the rows it changed.
-/

namespace Bureau

open Transactions Relation

variable {db db' : Db} {sha : Sha} {runId taskId trigger : String} {resources : Resources} {p : Projection}
    {activityId initiativeId : Option String} {kind : Kind} {eventType : EventType} {payload : Json}
    {claim : Claim} {registry : Registry}

namespace Db

def baseEvents (db : Db) : List EventRow :=
  db.events.filter fun e => e.eventType ≠ .taskSpecRevisionSet

/-- The journal replays to `p`, without open mismatches. -/
def ReplaysTo (sha : Sha) (db : Db) (p : Projection) : Prop :=
  ∃ st, replayRows sha false .initial db.baseEvents = .ok st ∧ st.baselineSeen = true ∧
    st.pendingMismatches = [] ∧ st.projection = p ∧ st.lastEventId < db.nextEventId

def Synced (sha : Sha) (db : Db) : Prop :=
  db.ReplaysTo sha db.currentProjection

/-- A complete journal is what strict replay accepts with the current projection as its result. -/
theorem Synced.replayProjection (h : db.Synced sha) :
    db.replayProjection sha = .ok db.currentProjection := by
  obtain ⟨st,hrows,hbaseline,hpending,hprojection,_⟩ := h
  have hinternal : replayInternal sha false db.baseEvents = .ok st := by
    simp only [replayInternal,steps_ok]
    exact ⟨st,hrows,(),hbaseline,(),by simp [hpending],rfl⟩
  simp only [Db.replayProjection,replay,steps_ok]
  exact ⟨st,hinternal,hprojection⟩

end Db

theorem replayRows_snoc {allow : Bool} {rows : List EventRow} {row : EventRow}
    (h : allow = true ∨ row.isRepair = false) (st : ReplayState) :
    replayRows sha allow st (rows ++ [row]) = (do
      let st ← replayRows sha allow st rows
      replayRow sha allow st row) := by
  induction rows generalizing st with
  | nil =>
    simp only [List.nil_append,replayRows,List.any_nil,Bool.or_false]
    change (replayRow sha allow st row >>= pure) = replayRow sha allow st row
    exact bind_pure _
  | cons first rest ih =>
    have hany : (allow || (rest ++ [row]).any EventRow.isRepair) = (allow || rest.any EventRow.isRepair) := by
      rcases h with rfl | hrepair
      · rfl
      · simp [hrepair]
    simp only [List.cons_append,replayRows,hany,ih,bind_assoc]

section ReplayRow

variable {sha : Sha} {tolerate : Bool} {st : ReplayState} {row : EventRow}

def ReplayState.skip (sha : Sha) (st : ReplayState) (row : EventRow) : ReplayState :=
  { st with lastEventId := row.eventId }.extendSegment sha row

theorem replayRow_unversioned (horder : st.lastEventId < row.eventId) (hschema : row.schemaVersion = 0) :
    replayRow sha tolerate st row = .ok (st.skip sha row) := by
  simp only [replayRow,steps_ok,decide_eq_true_eq,if_pos hschema]
  exact ⟨(),horder,rfl⟩

theorem replayRow_operational (horder : st.lastEventId < row.eventId) (hschema : row.schemaVersion = 1)
    (hvalid : validateEvent sha row.eventType row.payload row.runId = .ok ())
    (hprojection : row.eventType ≠ .projection) (hrepair : row.eventType ≠ .projectionRepair) :
    replayRow sha tolerate st row = .ok (st.skip sha row) := by
  have hversion : row.schemaVersion ≠ 0 := by omega
  simp only [replayRow,steps_ok,decide_eq_true_eq,if_neg hversion]
  refine ⟨(),horder,(),hschema,(),hvalid,?_⟩
  split
  · contradiction
  · contradiction
  · contradiction
  · rfl

theorem checkRoot_eq_ok : checkRoot sha tolerate st eventId root = .ok st' ↔
    projectionRoot sha st.projection = root ∧ st' = st ∨ projectionRoot sha st.projection ≠ root ∧ tolerate = true ∧
      st' = { st with pendingMismatches :=
        st.pendingMismatches ++ [⟨eventId,root,projectionRoot sha st.projection⟩] } := by
  unfold checkRoot
  by_cases hroot : projectionRoot sha st.projection = root
  · simp [hroot,eq_comm]
  · simp only [if_neg hroot,steps_ok]
    simp [hroot,eq_comm]

theorem replayRow_delta (tolerate : Bool) {changes : Changes} (horder : st.lastEventId < row.eventId)
    (hschema : row.schemaVersion = 1) (htype : row.eventType = .projection)
    (hpayload : row.payload = .delta trigger changes root)
    (hvalid : validateEvent sha .projection row.payload row.runId = .ok ()) (hbaseline : st.baselineSeen = true) :
    replayRow sha tolerate st row = checkRoot sha tolerate { st.skip sha row with
      projection := applyDelta st.projection changes
      projectionEventCount := st.projectionEventCount+1 } row.eventId root := by
  obtain ⟨id,run,type,version,activity,document⟩ := row
  subst hschema htype hpayload
  obtain ⟨projection,seen,count,repairs,last,repair,digest,segment,segmentLast,pending⟩ := st
  subst hbaseline
  simp only [replayRow,decide_eq_true horder,hvalid]
  rfl

theorem replayRow_baseline (tolerate : Bool) (horder : st.lastEventId < row.eventId)
    (hschema : row.schemaVersion = 1) (htype : row.eventType = .projection)
    (hpayload : row.payload = .baseline trigger p root)
    (hvalid : validateEvent sha .projection row.payload row.runId = .ok ()) (hbaseline : st.baselineSeen = false) :
    replayRow sha tolerate st row = checkRoot sha tolerate { st.skip sha row with
      projection := p
      baselineSeen := true
      projectionEventCount := st.projectionEventCount+1 } row.eventId root := by
  obtain ⟨id,run,type,version,activity,document⟩ := row
  subst hschema htype hpayload
  have hfirst : (!st.baselineSeen) = true := by simp [hbaseline]
  simp only [replayRow,decide_eq_true horder,hvalid,hfirst]
  rfl

end ReplayRow

namespace Db

variable {sha : Sha} {db db' : Db} {p q : Projection} {row : EventRow}

theorem baseEvents_extend (h : row.eventType ≠ .taskSpecRevisionSet) :
    (db.extend [row]).baseEvents = db.baseEvents ++ [row] := by
  simp [baseEvents,h]

theorem ReplaysTo.append (h : db.ReplaysTo sha p)
    (htype : row.eventType ≠ .taskSpecRevisionSet) (hrepair : row.isRepair = false)
    (hid : row.eventId = db.nextEventId)
    (hrow : ∀ st, st.baselineSeen = true → st.pendingMismatches = [] → st.projection = p →
      st.lastEventId < (row.eventId : ℤ) → ∃ st', replayRow sha false st row = .ok st' ∧
        st'.baselineSeen = true ∧ st'.pendingMismatches = [] ∧ st'.projection = q ∧
        st'.lastEventId = row.eventId) : (db.extend [row]).ReplaysTo sha q := by
  obtain ⟨st,hrows,hbaseline,hpending,hprojection,hlast⟩ := h
  obtain ⟨st',hst',hbaseline',hpending',hprojection',hlast'⟩ :=
    hrow st hbaseline hpending hprojection (by rw [hid]; exact hlast)
  refine ⟨st',?_,hbaseline',hpending',hprojection',?_⟩
  · rw [baseEvents_extend htype,replayRows_snoc (.inr hrepair),hrows]
    exact hst'
  · rw [hlast',hid]
    exact Int.ofNat_lt.mpr (Nat.lt_succ_self _)

theorem ReplaysTo.append_unversioned (h : db.ReplaysTo sha p)
    (htype : row.eventType ≠ .taskSpecRevisionSet) (hschema : row.schemaVersion = 0)
    (hid : row.eventId = db.nextEventId) : (db.extend [row]).ReplaysTo sha p := by
  refine h.append htype (by simp [EventRow.isRepair,hschema]) hid ?_
  intro st hbaseline hpending hprojection horder
  exact ⟨_,replayRow_unversioned horder hschema,hbaseline,hpending,hprojection,rfl⟩

theorem ReplaysTo.insert_operational {payload : Payload} {runId : Option String} (h : db.ReplaysTo sha p)
    (hordinary : eventType ≠ .projection ∧ eventType ≠ .projectionRepair)
    (hinsert : db.insertEvent sha eventType payload runId activityId = .ok db') : db'.ReplaysTo sha p := by
  obtain ⟨hvalid,rfl⟩ := insertEvent_eq_ok hinsert
  have htype : eventType ≠ .taskSpecRevisionSet := by
    rintro rfl
    simp [validateEvent,bind_eq_ok,EventType.known,require] at hvalid
  refine h.append htype (by simp [EventRow.isRepair,nextRow,hordinary.2]) rfl ?_
  intro st hbaseline hpending hprojection horder
  exact ⟨_,replayRow_operational horder rfl hvalid hordinary.1 hordinary.2,hbaseline,hpending,hprojection,rfl⟩

/-- A delta that leads from the replayed projection to `q` and carries the root of `q`. -/
theorem ReplaysTo.insert_delta {changes : Changes} {runId : Option String} (h : db.ReplaysTo sha p)
    (hchanges : applyDelta p changes = q)
    (hinsert : db.insertEvent sha .projection (.delta trigger changes (projectionRoot sha q)) runId activityId =
      .ok db') : db'.ReplaysTo sha q := by
  obtain ⟨hvalid,rfl⟩ := insertEvent_eq_ok hinsert
  refine h.append (by simp [nextRow]) (by simp [EventRow.isRepair,nextRow]) rfl ?_
  intro st hbaseline hpending hprojection horder
  have hroot : applyDelta st.projection changes = q := by rw [hprojection,hchanges]
  rw [replayRow_delta _ horder rfl rfl rfl hvalid hbaseline]
  exact ⟨_,checkRoot_eq_ok.mpr (.inl ⟨congrArg _ hroot,rfl⟩),hbaseline,hpending,hroot,rfl⟩

theorem ReplaysTo.congr (h : db.ReplaysTo sha p) (hevents : db'.events = db.events)
    (hnext : db'.nextEventId = db.nextEventId) : db'.ReplaysTo sha p := by
  simpa only [ReplaysTo,baseEvents,hevents,hnext] using h

end Db

theorem applyChanges_single {t u : Table Json} {key : String} (h : ∀ k, k ≠ key → t[k]? = u[k]?) :
    Tables.applyChanges t [(key,u[key]?)] = u := by
  refine Tables.applyChanges_eq (by simp) ?_
  intro k hk
  exact ⟨_,List.mem_singleton_self _,(not_imp_comm.mp (h k) hk).symm⟩

/-- What a delta bound to a run has to find: nothing moved but the run and its task. -/
structure RunDelta (p q : Projection) (runId taskId : String) : Prop where
  tasks : ∀ k, k ≠ taskId → p.tasks[k]? = q.tasks[k]?
  initiatives : p.initiatives = q.initiatives
  claims : ∀ k, k ≠ runId → p.claims[k]? = q.claims[k]?
  runs : ∀ k, k ≠ runId → p.runs[k]? = q.runs[k]?
  acceptances : ∀ k, k ≠ runId → p.acceptances[k]? = q.acceptances[k]?

theorem RunDelta.refl (p : Projection) (runId taskId : String) : RunDelta p p runId taskId :=
  ⟨fun _ _ => rfl,rfl,fun _ _ => rfl,fun _ _ => rfl,fun _ _ => rfl⟩

theorem RunDelta.applyDelta {q : Projection} {row : RunRow} (h : RunDelta p q runId row.taskId) :
    applyDelta p (Db.runChanges q runId row) = q := by
  have hinitiatives : Tables.applyChanges p.initiatives (Db.runChanges q runId row).initiatives = q.initiatives := by
    rw [h.initiatives]
    unfold Db.runChanges
    cases row.initiativeId with
    | none => rfl
    | some initiative => exact applyChanges_single fun _ _ => rfl
  simp only [Bureau.applyDelta,hinitiatives]
  simp only [Db.runChanges,applyChanges_single h.tasks,applyChanges_single h.claims,applyChanges_single h.runs,
    applyChanges_single h.acceptances]

namespace Db

variable {sha : Sha} {db db' : Db} {p : Projection}

theorem deltaPayload_run {payload : Option Payload}
    (h : db.deltaPayload sha trigger (some runId) none none = .ok payload) :
    payload = (db.runs[runId]?).map fun row => .delta trigger (runChanges db.currentProjection runId row)
      (projectionRoot sha db.currentProjection) := by
  simp only [deltaPayload] at h
  cases hrow : db.runs[runId]? with
  | none =>
    simp only [hrow,Option.map_none,Except.ok.injEq] at h
    exact h.symm
  | some row =>
    simp only [hrow,Option.map_some,steps_ok] at h
    obtain ⟨_,_,rfl⟩ := h
    simp [taskChanges,initiativeChanges]

theorem ReplaysTo.appendProjectionSnapshot_run (h : db.ReplaysTo sha p)
    (hmissing : db.runs[runId]? = none → p = db.currentProjection)
    (hdelta : ∀ row, db.runs[runId]? = some row → RunDelta p db.currentProjection runId row.taskId)
    (happend : db.appendProjectionSnapshot sha trigger (some runId) none none = .ok db') : db'.Synced sha := by
  simp only [appendProjectionSnapshot,bind_eq_ok] at happend
  obtain ⟨payload,hpayload,hinsert⟩ := happend
  obtain rfl := deltaPayload_run hpayload
  cases hrow : db.runs[runId]? with
  | none =>
    simp only [hrow,Option.map_none,pure_eq_ok] at hinsert
    subst hinsert
    rw [hmissing hrow] at h
    exact h
  | some row =>
    simp only [hrow,Option.map_some] at hinsert
    have hreplays := h.insert_delta (hdelta row hrow).applyDelta hinsert
    obtain ⟨_,rfl⟩ := insertEvent_eq_ok hinsert
    exact hreplays

/-- An event of a run is followed by a snapshot that covers the write before it. -/
theorem ReplaysTo.event_run (h : db.ReplaysTo sha p)
    (hordinary : eventType ≠ .projection ∧ eventType ≠ .projectionRepair)
    (hmissing : db.runs[runId]? = none → p = db.currentProjection)
    (hdelta : ∀ row, db.runs[runId]? = some row → RunDelta p db.currentProjection runId row.taskId)
    (hevent : db.event sha eventType payload (some runId) none activityId = .ok db') : db'.Synced sha := by
  simp only [event,bind_eq_ok] at hevent
  obtain ⟨mid,hinsert,happend⟩ := hevent
  have hmid := h.insert_operational hordinary hinsert
  obtain ⟨_,rfl⟩ := insertEvent_eq_ok hinsert
  rw [if_pos ⟨hordinary.1,.inl rfl⟩] at happend
  exact hmid.appendProjectionSnapshot_run hmissing hdelta happend

end Db

namespace Db

variable {sha : Sha} {db db' : Db} {p : Projection} {runId : String}
  {events : List (EventType × Json × Option String)}

theorem Synced.runEvents (h : db.Synced sha) (hordinary : ∀ e ∈ events, e.1.ordinary = true)
    (hevents : db.runEvents sha runId events = .ok db') : db'.Synced sha := by
  induction events generalizing db with
  | nil => exact Except.ok.inj hevents ▸ h
  | cons e rest ih =>
    simp only [Db.runEvents,bind_eq_ok] at hevents
    obtain ⟨mid,hevent,hrest⟩ := hevents
    have htype := (EventType.ordinary_eq_true.mp (hordinary e List.mem_cons_self)).1
    exact ih (ReplaysTo.event_run h htype (fun _ => rfl) (fun _ _ => .refl ..) hevent)
      (fun e he => hordinary e (List.mem_cons_of_mem _ he)) hrest

/-- The first event of a write covers it, the later ones find nothing to record. -/
theorem ReplaysTo.runEvents (h : db.ReplaysTo sha p) (hrecorded : events ≠ [])
    (hordinary : ∀ e ∈ events, e.1.ordinary = true)
    (hmissing : db.runs[runId]? = none → p = db.currentProjection)
    (hdelta : ∀ row, db.runs[runId]? = some row → RunDelta p db.currentProjection runId row.taskId)
    (hevents : db.runEvents sha runId events = .ok db') : db'.Synced sha := by
  cases events with
  | nil => exact absurd rfl hrecorded
  | cons e rest =>
    simp only [Db.runEvents,bind_eq_ok] at hevents
    obtain ⟨mid,hevent,hrest⟩ := hevents
    have htype := (EventType.ordinary_eq_true.mp (hordinary e List.mem_cons_self)).1
    exact (h.event_run htype hmissing hdelta hevent).runEvents
      (fun e he => hordinary e (List.mem_cons_of_mem _ he)) hrest

@[simp] theorem tasks_currentProjection (db : Db) (k : String) :
    db.currentProjection.tasks[k]? = (db.taskStatus[k]?).map (·.projected k) := by
  simp [currentProjection]

theorem currentProjection_view (db : Db) (k : String) :
    db.currentProjection.claims[k]? = ((db.view k).row).map (fun _ => holdsProjected (db.view k).held) ∧
      db.currentProjection.runs[k]? = ((db.view k).row).map (·.projected k) ∧
      db.currentProjection.acceptances[k]? = ((db.view k).receipt).map (·.projected k) := by
  simp [currentProjection,view]

theorem currentProjection_congr (hviews : ∀ k, db'.view k = db.view k) (htasks : db'.taskStatus = db.taskStatus)
    (hinitiatives : db'.initiativeStatus = db.initiativeStatus) :
    db'.currentProjection = db.currentProjection := by
  have hview := fun k => db'.currentProjection_view k
  simp only [hviews,← (db.currentProjection_view _).1,← (db.currentProjection_view _).2.1,
    ← (db.currentProjection_view _).2.2] at hview
  have hclaims := Std.ExtTreeMap.ext_getElem? fun k => (hview k).1
  have hruns := Std.ExtTreeMap.ext_getElem? fun k => (hview k).2.1
  have hacceptances := Std.ExtTreeMap.ext_getElem? fun k => (hview k).2.2
  have htask : db'.currentProjection.tasks = db.currentProjection.tasks := by
    simp only [currentProjection,htasks]
  have hinitiative : db'.currentProjection.initiatives = db.currentProjection.initiatives := by
    simp only [currentProjection,hinitiatives]
  calc db'.currentProjection
      = ⟨db'.currentProjection.tasks,db'.currentProjection.initiatives,db'.currentProjection.claims,
          db'.currentProjection.runs,db'.currentProjection.acceptances⟩ := rfl
    _ = db.currentProjection := by rw [hclaims,hruns,hacceptances,htask,hinitiative]

end Db

theorem RunWrite.runDelta (write : RunWrite resources kind db db' runId)
    (taskStatus : ∀ other, other ≠ taskId → db'.taskStatus[other]? = db.taskStatus[other]?) :
    RunDelta db.currentProjection db'.currentProjection runId taskId := by
  have hview : ∀ k, k ≠ runId → db.currentProjection.claims[k]? = db'.currentProjection.claims[k]? ∧
      db.currentProjection.runs[k]? = db'.currentProjection.runs[k]? ∧
      db.currentProjection.acceptances[k]? = db'.currentProjection.acceptances[k]? := by
    intro k hk
    obtain ⟨hclaims,hruns,hacceptances⟩ := db'.currentProjection_view k
    obtain ⟨hclaims',hruns',hacceptances'⟩ := db.currentProjection_view k
    rw [write.others k hk] at hclaims hruns hacceptances
    exact ⟨hclaims'.trans hclaims.symm,hruns'.trans hruns.symm,hacceptances'.trans hacceptances.symm⟩
  refine ⟨?_,?_,fun k hk => (hview k hk).1,fun k hk => (hview k hk).2.1,fun k hk => (hview k hk).2.2⟩
  · intro k hk
    rw [db.tasks_currentProjection,db'.tasks_currentProjection,taskStatus k hk]
  · simp only [Db.currentProjection,write.initiativeStatus]

theorem RunWrite.missing (write : RunWrite resources kind db db' runId) (taskStatus : db'.taskStatus = db.taskStatus)
    (hmissing : db'.runs[runId]? = none) : db.currentProjection = db'.currentProjection := by
  have hview : db'.view runId = db.view runId := by
    have hrow : (db'.view runId).row = none := hmissing
    have hstep := write.step
    generalize db.view runId = v at hstep
    generalize db'.view runId = v' at hstep hrow
    cases hstep with
    | idle => rfl
    | update | finish | claim | resume | expand | complete => simp at hrow
  refine (Db.currentProjection_congr ?_ taskStatus write.initiativeStatus).symm
  intro k
  by_cases hk : k = runId
  · rw [hk,hview]
  · exact write.others k hk

namespace Db

variable {sha : Sha} {db db' : Db} {p : Projection}

theorem deltaPayload_bound {taskId : Option String} {payload : Option Payload}
    (h : db.deltaPayload sha trigger none taskId initiativeId = .ok payload) :
    payload = some (.delta trigger { tasks := taskChanges db.currentProjection taskId
                                     initiatives := initiativeChanges db.currentProjection initiativeId }
      (projectionRoot sha db.currentProjection)) := by
  simp only [deltaPayload,steps_ok,List.nil_append] at h
  obtain ⟨_,_,rfl⟩ := h
  rfl

/-- A snapshot without a run covers a write to the task or the initiative it names. -/
theorem ReplaysTo.appendProjectionSnapshot_bound {taskId : Option String} (h : db.ReplaysTo sha p)
    (hdelta : applyDelta p { tasks := taskChanges db.currentProjection taskId
                             initiatives := initiativeChanges db.currentProjection initiativeId } =
      db.currentProjection) (happend : db.appendProjectionSnapshot sha trigger none taskId initiativeId = .ok db') :
    db'.Synced sha := by
  simp only [appendProjectionSnapshot,bind_eq_ok] at happend
  obtain ⟨payload,hpayload,hinsert⟩ := happend
  obtain rfl := deltaPayload_bound hpayload
  have hreplays := h.insert_delta hdelta hinsert
  obtain ⟨_,rfl⟩ := insertEvent_eq_ok hinsert
  exact hreplays

theorem Synced.initiative {initiativeId : String} {row : InitiativeStatusRow} (h : db.Synced sha)
    (hevent : Db.event sha { db with initiativeStatus := db.initiativeStatus.insert initiativeId row }
      .initiativeStateSet payload none (some initiativeId) none = .ok db') : db'.Synced sha := by
  simp only [event,bind_eq_ok] at hevent
  obtain ⟨mid,hinsert,happend⟩ := hevent
  have hbefore : ({ db with initiativeStatus := db.initiativeStatus.insert initiativeId row } : Db).ReplaysTo sha
      db.currentProjection := ReplaysTo.congr h rfl rfl
  have hmid := hbefore.insert_operational ⟨by decide,by decide⟩ hinsert
  obtain ⟨_,rfl⟩ := insertEvent_eq_ok hinsert
  rw [if_pos ⟨by decide,.inr rfl⟩] at happend
  refine hmid.appendProjectionSnapshot_bound ?_ happend
  have hinitiatives : Tables.applyChanges db.currentProjection.initiatives
      [(initiativeId,(Std.ExtTreeMap.map (fun id (row : InitiativeStatusRow) => row.projected id)
        (db.initiativeStatus.insert initiativeId row))[initiativeId]?)] =
      Std.ExtTreeMap.map (fun id row => row.projected id) (db.initiativeStatus.insert initiativeId row) := by
    refine applyChanges_single ?_
    intro k hk
    simp [currentProjection,Tables.get_insert_ne _ _ hk]
  exact congrArg (fun t => { db.currentProjection with initiatives := t }) hinitiatives

theorem Synced.task {row : TaskStatusRow} (h : db.Synced sha)
    (hevent : Db.appendTaskProjectionDelta sha { db with taskStatus := db.taskStatus.insert taskId row }
      trigger taskId = .ok db') : db'.Synced sha := by
  simp only [appendTaskProjectionDelta,bind_eq_ok] at hevent
  obtain ⟨_,_,happend⟩ := hevent
  have hmid : ({ db with taskStatus := db.taskStatus.insert taskId row } : Db).ReplaysTo sha db.currentProjection :=
    ReplaysTo.congr h rfl rfl
  refine hmid.appendProjectionSnapshot_bound ?_ happend
  have htasks : Tables.applyChanges db.currentProjection.tasks
      [(taskId,(Std.ExtTreeMap.map (fun id (row : TaskStatusRow) => row.projected id)
        (db.taskStatus.insert taskId row))[taskId]?)] =
      Std.ExtTreeMap.map (fun id row => row.projected id) (db.taskStatus.insert taskId row) := by
    refine applyChanges_single ?_
    intro k hk
    simp [currentProjection,Tables.get_insert_ne _ _ hk]
  exact congrArg (fun t => { db.currentProjection with tasks := t }) htasks

theorem Synced.setRevision (h : db.Synced sha) (now : Time) (next : TaskSpecs.CurrentSpec) (key : String)
    (expected : Option ℕ) : (TaskSpecs.setRevision now db next key expected).Synced sha := by
  obtain ⟨st,hrows,hbaseline,hpending,hprojection,hlast⟩ := h
  refine ⟨st,?_,hbaseline,hpending,hprojection,?_⟩
  · simpa [baseEvents,TaskSpecs.setRevision] using hrows
  · exact hlast.trans (Int.ofNat_lt.mpr (Nat.lt_succ_self _))

theorem Synced.quiet (h : db.Synced sha) (views : ∀ runId, db'.view runId = db.view runId)
    (taskStatus : db'.taskStatus = db.taskStatus) (initiativeStatus : db'.initiativeStatus = db.initiativeStatus)
    (events : db'.events = db.events) (nextEventId : db'.nextEventId = db.nextEventId) : db'.Synced sha := by
  rw [Synced,currentProjection_congr views taskStatus initiativeStatus]
  exact ReplaysTo.congr h events nextEventId

theorem Synced.not_taskDrifted (h : db.Synced sha) (taskId : String) : db.taskDrifted sha taskId = false := by
  simp [taskDrifted,h.replayProjection]

end Db

theorem Move.synced (h : Move sha resources kind db db') (hkind : kind ≠ .expand ∧ kind ≠ .normalize)
    (hsynced : db.Synced sha) :
    db'.Synced sha := by
  cases h with
  | run write taskStatus incomplete recorded ordinary journal =>
    refine (Db.ReplaysTo.congr hsynced write.events write.nextEventId).runEvents recorded ordinary ?_ ?_ journal
    · exact write.missing taskStatus
    · exact fun row _ => write.runDelta fun _ _ => by rw [taskStatus]
  | complete write written taskStatus journal =>
    refine (Db.ReplaysTo.congr hsynced write.events write.nextEventId).event_run (by decide) ?_ ?_ journal
    · intro hmissing
      simp [written] at hmissing
    · intro row hrow
      obtain rfl := Option.some.inj (written.symm.trans hrow)
      exact write.runDelta taskStatus
  | issue journal =>
    refine hsynced.event_run (by decide) ?_ ?_ journal
    · exact (RunWrite.idle resources db _ (.inl rfl)).missing rfl
    · exact fun row _ => (RunWrite.idle resources db _ (.inl rfl)).runDelta fun _ _ => rfl
  | expand => exact absurd rfl hkind.1
  | initiative journal => exact hsynced.initiative journal
  | task journal => exact hsynced.task journal
  | spec => exact hsynced.setRevision ..
  | known => exact hsynced
  | quiet views taskStatus initiativeStatus specs events nextEventId =>
    exact hsynced.quiet views taskStatus initiativeStatus events nextEventId
  | normalize => exact absurd rfl hkind.2
  | backfill drift =>
    rw [hsynced.not_taskDrifted] at drift
    exact absurd drift (by decide)

theorem Routine.synced {publishes : Bool} (h : ReflTransGen (Routine sha resources publishes) db db')
    (hsynced : db.Synced sha) : db'.Synced sha := by
  induction h with
  | refl => exact hsynced
  | tail _ hroutine ih =>
    obtain ⟨_,hmove,_,hexpand,_,hnormalize,_⟩ := hroutine.kind_ne
    exact hmove.synced ⟨hexpand,hnormalize⟩ ih

/-- The writes to projected rows that come without a projection event: an admitted claim expansion
and a receipt normalization that finds its candidate. -/
def Op.unjournaled (sha : Sha) (db : Db) : Op → Bool
  | .expandClaim d _ runId claim _ => d.admitsExpansion db runId claim
  | .receiptNormalize registry _ => (normalizationCandidate sha registry db).isSome
  | _ => false

theorem holdsProjected_insert_ne {holds : Table Hold} {resource : String} (hold : Hold)
    (h : holds[resource]? = none) : holdsProjected (holds.insert resource hold) ≠ holdsProjected holds := by
  intro heq
  have hlength := congrArg List.length (Json.arr.inj heq)
  have hnotMem : ¬ resource ∈ holds := by
    rw [Std.ExtTreeMap.mem_iff_isSome_getElem?,h]
    simp
  simp [Std.ExtTreeMap.size_insert,hnotMem] at hlength

theorem Db.ReplaysTo.replayProjection_ne (h : db.ReplaysTo sha p) (hne : p ≠ db.currentProjection) :
    db.replayProjection sha ≠ .ok db.currentProjection := by
  obtain ⟨st,hrows,_,_,rfl,_⟩ := h
  intro hreplay
  simp only [Db.replayProjection,replay,replayInternal,steps_ok] at hreplay
  obtain ⟨_,⟨st',hrows',_,_,_,_,rfl⟩,hprojection⟩ := hreplay
  obtain rfl := Except.ok.inj (hrows.symm.trans hrows')
  exact hne hprojection

theorem Dispatcher.expanded_of_admits {d : Dispatcher} (h : d.admitsExpansion db runId claim = true) (now : Time)
    (reason : String) :
    ∃ row row' hold, db.runs[runId]? = some row ∧ (db.heldBy runId)[claim.resource]? = none ∧
      ((expanded db now runId claim reason).view runId).row = some row' ∧
      ((expanded db now runId claim reason).view runId).held = (db.heldBy runId).insert claim.resource hold ∧
      (expanded db now runId claim reason).events = db.events ∧
      (expanded db now runId claim reason).nextEventId = db.nextEventId := by
  simp only [admitsExpansion,Bool.and_eq_true,Option.any_eq_true,Std.ExtTreeMap.contains_eq_isSome_getElem?,
    Bool.not_eq_true',Option.isSome_eq_false_iff,Option.isNone_iff_eq_none] at h
  obtain ⟨⟨⟨-,row,hrow,-⟩,hheld⟩,-⟩ := h
  refine ⟨row,{ row with error := some ("claim expanded: " ++ reason), updatedAt := now },
    ⟨claim.mode,claim.amount,now,claim.claimable⟩,hrow,hheld,?_⟩
  rw [expanded,Db.updateRun_of_get _ (by exact hrow),Db.view_setRun_self]
  exact ⟨rfl,by simp [Db.heldBy],rfl,rfl⟩

theorem expanded_not_replayed {d : Dispatcher} (hsynced : db.Synced sha)
    (hadmits : d.admitsExpansion db runId claim = true) (now : Time) (reason : String) :
    (Dispatcher.expanded db now runId claim reason).replayProjection sha ≠
      .ok (Dispatcher.expanded db now runId claim reason).currentProjection := by
  obtain ⟨row,row',hold,hrow,hfree,hrow',hheld,hevents,hnext⟩ := Dispatcher.expanded_of_admits hadmits now reason
  refine (Db.ReplaysTo.congr hsynced hevents hnext).replayProjection_ne ?_
  intro heq
  have hclaims := congrArg (fun p : Projection => p.claims[runId]?) heq
  simp only [(Db.currentProjection_view _ _).1,hrow',hheld,Option.map_some] at hclaims
  simp only [Db.view,hrow,Option.map_some,Option.some.injEq] at hclaims
  exact holdsProjected_insert_ne hold hfree hclaims.symm

theorem normalizationCandidate_eq_some {candidate : NormalizationCandidate}
    (h : normalizationCandidate sha registry db = some candidate) :
    (∃ row, db.taskStatus[normalizedTaskId]? = some row ∧ row.state = .verified) ∧
      candidate.after.state.terminal = false := by
  simp only [normalizationCandidate,Option.bind_eq_bind,Option.bind_eq_some_iff,check_eq_some,Option.pure_def,
    Option.some.injEq,Bool.and_eq_true,decide_eq_true_eq,Bool.not_eq_true'] at h
  obtain ⟨task,_,_,hterminal,_,_,_,_,_,_,row,hrow,_,_,_,⟨⟨_,hstate⟩,_⟩,_,_,_,_,_,_,_,_,rfl⟩ := h
  exact ⟨⟨row,hrow,hstate⟩,hterminal⟩

theorem normalized_not_replayed {now : Time} {candidate : NormalizationCandidate} (hsynced : db.Synced sha)
    (hcandidate : normalizationCandidate sha registry db = some candidate)
    (h : receiptNormalize sha registry now db = .ok db') :
    db'.replayProjection sha ≠ .ok db'.currentProjection := by
  obtain ⟨⟨row,hrow,hverified⟩,hterminal⟩ := normalizationCandidate_eq_some hcandidate
  simp only [receiptNormalize,hcandidate,Except.ok.injEq] at h
  subst h
  let written : Db := { db with
    taskStatus := db.taskStatus.insert normalizedTaskId { candidate.after with updatedAt := now } }
  have hbefore : written.ReplaysTo sha db.currentProjection := Db.ReplaysTo.congr hsynced rfl rfl
  have hwritten : written.taskStatus[normalizedTaskId]? = some { candidate.after with updatedAt := now } :=
    Tables.get_insert_self ..
  refine (hbefore.append_unversioned (by simp) rfl rfl).replayProjection_ne ?_
  intro heq
  have htasks := congrArg (fun p : Projection => p.tasks[normalizedTaskId]?) heq
  simp only [Db.tasks_currentProjection,Db.taskStatus_extend,hwritten,hrow,Option.map_some,
    Option.some.injEq,TaskStatusRow.projected,Json.obj.injEq,List.cons.injEq,Prod.mk.injEq,Json.str.injEq,
    hverified] at htasks
  have hstate := htasks.2.2.1.2
  cases hafter : candidate.after.state <;> simp [hafter,TaskState.terminal,TaskState.text] at hstate hterminal

theorem step_replayed_iff {E : Env} {K : Contracts} (hsynced : db.Synced E.sha) (op : Op) :
    (op.unjournaled E.sha db = false → (step E K db op).Synced E.sha) ∧
      (op.unjournaled E.sha db = true →
        (step E K db op).replayProjection E.sha ≠ .ok (step E K db op).currentProjection) := by
  refine ⟨fun hjournaled => commit_preserves hsynced fun db' hdb' => ?_,fun hmissed => ?_⟩
  · by_cases hkind : op.kind ≠ .expand ∧ op.kind ≠ .normalize
    · rcases apply_moves op.planned_self hdb' with hmove | hmoves
      · exact hmove.synced hkind hsynced
      · exact Routine.synced hmoves hsynced
    · -- the two unrecorded writes, which here find nothing to write
      cases op <;> simp [Op.kind] at hkind
      case expandClaim d now runId claim reason =>
        have hadmits := (Dispatcher.expandClaim_eq_ok.mp hdb').1
        exact absurd hadmits (by simpa [Op.unjournaled] using hjournaled)
      case receiptNormalize registry now =>
        have hnone : normalizationCandidate E.sha registry db = none := by
          simpa [Op.unjournaled] using hjournaled
        simp only [Op.apply,receiptNormalize,hnone,Except.ok.injEq] at hdb'
        exact hdb' ▸ hsynced
  · cases op <;> simp only [Op.unjournaled,Bool.false_eq_true] at hmissed
    case expandClaim d now runId claim reason =>
      have hok : Op.apply E K db (.expandClaim d now runId claim reason) =
          .ok (Dispatcher.expanded db now runId claim reason) := Dispatcher.expandClaim_eq_ok.mpr ⟨hmissed,rfl⟩
      rw [step,hok]
      exact expanded_not_replayed hsynced hmissed now reason
    case receiptNormalize registry now =>
      obtain ⟨candidate,hcandidate⟩ := Option.isSome_iff_exists.mp hmissed
      have hok : ∃ db', receiptNormalize E.sha registry now db = .ok db' := by
        simp [receiptNormalize,hcandidate]
      obtain ⟨db',hdb'⟩ := hok
      rw [step,Op.apply,hdb']
      exact normalized_not_replayed hsynced hcandidate hdb'

theorem Db.fresh_synced (hsha : ∀ s, validDigest (sha s) = true) : (Db.fresh sha).Synced sha := by
  have hroot : validDigest (projectionRoot sha .empty) = true := hsha _
  have hvalid : validateEvent sha .projection
      (.baseline "schema-v4-migration" .empty (projectionRoot sha .empty)) none = .ok () := by
    simp only [validateEvent,validateProjectionEventPayload,steps_ok]
    exact ⟨(),rfl,(),rfl,(),by simp,(),by simp,(),hroot,by simp⟩
  let row : EventRow :=
    ⟨0,none,.projection,1,none,.baseline "schema-v4-migration" .empty (projectionRoot sha .empty)⟩
  refine ⟨{ ReplayState.initial.skip sha row with
    projection := .empty, baselineSeen := true, projectionEventCount := 1 },?_,rfl,rfl,?_,?_⟩
  · have hrow : replayRow sha false .initial row = .ok _ :=
      (replayRow_baseline false (Int.negSucc_lt_zero 0) rfl rfl rfl hvalid rfl).trans
        (checkRoot_eq_ok.mpr (.inl ⟨rfl,rfl⟩))
    simp only [show (Db.fresh sha).baseEvents = [row] from rfl,replayRows,List.any_nil,Bool.or_false,hrow]
    rfl
  · simp [Db.currentProjection,Db.fresh,Projection.empty]
  · exact Int.one_pos

/-- The journal of every store whose history has no unrecorded write replays to its tables, and such a
store loses this at the first unrecorded write. -/
theorem replayProjection_eq_iff_journaled {E : Env} {K : Contracts} (hsha : ∀ s, validDigest (E.sha s) = true)
    {db : Db} (h : Reach (step E K) (fun db op => op.unjournaled E.sha db = false) (Db.fresh E.sha) db) :
    db.replayProjection E.sha = .ok db.currentProjection ∧
      ∀ op, (step E K db op).replayProjection E.sha = .ok (step E K db op).currentProjection ↔
        op.unjournaled E.sha db = false := by
  have hsynced : db.Synced E.sha := h.invariant (Db.fresh_synced hsha) fun db op hs hop =>
    (step_replayed_iff hs op).1 hop
  refine ⟨hsynced.replayProjection,fun op => ⟨fun hreplay => ?_,fun hop => ?_⟩⟩
  · by_contra hmissed
    exact (step_replayed_iff hsynced op).2 (by simpa using hmissed) hreplay
  · exact ((step_replayed_iff hsynced op).1 hop).replayProjection

theorem replayProjection_eq_claimed :
    Sample.claimed.runs.contains "RUN-1" = true ∧
      (Sample.claimed.replayProjection Sample.env.sha = .ok Sample.claimed.currentProjection ∧
        ∀ op, (step Sample.env Sample.contracts Sample.claimed op).replayProjection Sample.env.sha =
            .ok (step Sample.env Sample.contracts Sample.claimed op).currentProjection ↔
          op.unjournaled Sample.env.sha Sample.claimed = false) := by
  have hreach : Reach (step Sample.env Sample.contracts) (fun db op => op.unjournaled Sample.env.sha db = false)
      (Db.fresh Sample.env.sha) Sample.claimed := by
    refine Reach.run ?_
    intro op hop db
    simp only [Sample.claim,List.mem_cons,List.not_mem_nil,or_false] at hop
    rcases hop with rfl | rfl <;> rfl
  exact ⟨by decide +kernel,replayProjection_eq_iff_journaled Sample.validDigest_sha hreach⟩

/-- A claim, its expansion to a second repository, and a journal without the second reservation. -/
theorem expandClaim_not_replayed :
    let db := step Sample.env Sample.contracts Sample.claimed
      (.expandClaim Sample.dispatcher 3 "RUN-1" ⟨"repo.b",.write,1,"none",rfl⟩ "more work")
    (db.heldBy "RUN-1").contains "repo.b" = true ∧
      db.replayProjection Sample.sha ≠ .ok db.currentProjection := by
  decide +kernel

end Bureau
