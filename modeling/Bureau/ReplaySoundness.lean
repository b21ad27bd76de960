import Bureau.ProjectionRepair

/-!
What the journal establishes. A delta carries the tables from one state to the next; a journal that
strict replay accepts has one baseline, ends in the projection its last root names, and has a repair
for every root that differed; a repair is applied to the store it was computed from, and once.
-/

namespace Bureau

open Transactions

variable {after before more rows : List EventRow} {root : String} {p : Projection} {st : ReplayState}

/-! Deltas. -/

/-- Two stores that differ at most in the rows of one run, of some tasks and of some initiatives. -/
structure Db.AgreeOutside (old new : Db) (runId : String) (tasks initiatives : List String) : Prop where
  runs : ∀ id : String, id ≠ runId → new.runs[id]? = old.runs[id]?
  reservations : ∀ id : String, id ≠ runId → new.reservations[id]? = old.reservations[id]?
  receipts : ∀ id : String, id ≠ runId → new.receipts[id]? = old.receipts[id]?
  taskStatus : ∀ id : String, id ∉ tasks → new.taskStatus[id]? = old.taskStatus[id]?
  initiativeStatus : ∀ id : String, id ∉ initiatives → new.initiativeStatus[id]? = old.initiativeStatus[id]?

theorem applyChanges_map {t u : Table Json} {keys : List String} (h : ∀ k, k ∉ keys → t[k]? = u[k]?) :
    Tables.applyChanges t (keys.map fun k => (k,u[k]?)) = u := by
  refine Tables.applyChanges_eq ?_ ?_
  · intro change hchange
    obtain ⟨k,_,rfl⟩ := List.mem_map.mp hchange
    rfl
  · intro k hk
    have hmem : k ∈ keys := by
      by_contra hne
      exact hk (h k hne)
    exact ⟨_,List.mem_map_of_mem hmem,rfl⟩

namespace Db

variable {sha : Sha} {old new : Db} {runId : String} {row : RunRow} {taskId initiativeId : Option String}

def boundTasks (row : RunRow) (taskId : Option String) : List String := row.taskId :: taskId.toList

def boundInitiatives (row : RunRow) (initiativeId : Option String) : List String :=
  row.initiativeId.toList ++ initiativeId.toList

def boundChanges (p : Projection) (runId : String) (row : RunRow) (taskId initiativeId : Option String) : Changes where
  tasks := (boundTasks row taskId).map fun id => (id,p.tasks[id]?)
  initiatives := (boundInitiatives row initiativeId).map fun id => (id,p.initiatives[id]?)
  claims := [(runId,p.claims[runId]?)]
  runs := [(runId,p.runs[runId]?)]
  acceptances := [(runId,p.acceptances[runId]?)]

theorem deltaPayload_of_row (trigger : String) (hrow : new.runs[runId]? = some row) :
    new.deltaPayload sha trigger (some runId) taskId initiativeId =
      .ok (some (.delta trigger (boundChanges new.currentProjection runId row taskId initiativeId)
        (projectionRoot sha new.currentProjection))) := by
  have htasks : (runChanges new.currentProjection runId row).tasks ++ taskChanges new.currentProjection taskId =
      (boundTasks row taskId).map fun id => (id,new.currentProjection.tasks[id]?) := by
    cases taskId <;> simp [runChanges,taskChanges,boundTasks]
  have hinitiatives : (runChanges new.currentProjection runId row).initiatives ++
      initiativeChanges new.currentProjection initiativeId =
        (boundInitiatives row initiativeId).map fun id => (id,new.currentProjection.initiatives[id]?) := by
    cases hbound : row.initiativeId <;> cases initiativeId <;>
      simp [runChanges,initiativeChanges,boundInitiatives,hbound]
  simp only [deltaPayload,hrow,Option.map_some,htasks,hinitiatives,steps_ok]
  exact ⟨(),by simp [Changes.isEmpty,runChanges],rfl⟩

theorem AgreeOutside.applyDelta
    (h : old.AgreeOutside new runId (boundTasks row taskId) (boundInitiatives row initiativeId)) :
    applyDelta old.currentProjection (boundChanges new.currentProjection runId row taskId initiativeId) =
      new.currentProjection := by
  have htasks : ∀ k, k ∉ boundTasks row taskId →
      old.currentProjection.tasks[k]? = new.currentProjection.tasks[k]? := by
    intro k hk
    simp [currentProjection,h.taskStatus k hk]
  have hinitiatives : ∀ k, k ∉ boundInitiatives row initiativeId →
      old.currentProjection.initiatives[k]? = new.currentProjection.initiatives[k]? := by
    intro k hk
    simp [currentProjection,h.initiativeStatus k hk]
  have hclaims : ∀ k, k ≠ runId → old.currentProjection.claims[k]? = new.currentProjection.claims[k]? := by
    intro k hk
    simp [currentProjection,heldBy,h.runs k hk,h.reservations k hk]
  have hruns : ∀ k, k ≠ runId → old.currentProjection.runs[k]? = new.currentProjection.runs[k]? := by
    intro k hk
    simp [currentProjection,h.runs k hk]
  have hacceptances : ∀ k, k ≠ runId →
      old.currentProjection.acceptances[k]? = new.currentProjection.acceptances[k]? := by
    intro k hk
    simp [currentProjection,h.receipts k hk]
  simp only [Bureau.applyDelta,boundChanges,applyChanges_map htasks,applyChanges_map hinitiatives,
    applyChanges_single hclaims,applyChanges_single hruns,applyChanges_single hacceptances]

end Db

/-- The delta of a run that has a row leads from the projection of the old store to that of the new one,
also where rows are gone. A run without a row gives no delta. -/
theorem delta_sufficient {sha : Sha} (trigger runId : String) (taskId initiativeId : Option String) (new : Db) :
    (new.runs[runId]? = none → new.deltaPayload sha trigger (some runId) taskId initiativeId = .ok none) ∧
      ∀ row, new.runs[runId]? = some row → ∃ changes,
        new.deltaPayload sha trigger (some runId) taskId initiativeId =
          .ok (some (.delta trigger changes (projectionRoot sha new.currentProjection))) ∧
        ∀ old : Db, old.AgreeOutside new runId (Db.boundTasks row taskId) (Db.boundInitiatives row initiativeId) →
          applyDelta old.currentProjection changes = new.currentProjection := by
  constructor
  · intro hnone
    simp [Db.deltaPayload,hnone]
  · intro row hrow
    exact ⟨_,Db.deltaPayload_of_row trigger hrow,fun old h => h.applyDelta⟩

namespace Sample

def runRow : RunRow where
  taskId := "T-1"
  workerId := "worker"
  attempt := 1
  state := .running
  taskSha256 := ""
  planSha256 := ""
  envelope := .obj []
  envelopeSha256 := ""
  dispatchRequestId := none
  externalSystem := none
  externalId := none
  externalState := none
  externalObservedAt := none
  workspacePath := none
  workspaceBranch := none
  error := none
  createdAt := 1
  updatedAt := 1
  heartbeatAt := 1

def oneRun : Db := { Db.fresh sha with runs := (∅ : Table RunRow).insert "RUN-1" runRow }

/-- The same store with a receipt of the run and a row of its task. -/
def receiptedRun : Db := { oneRun with
  receipts := (∅ : Table ReceiptRow).insert "RUN-1" ⟨.null,"",1⟩
  taskStatus := (∅ : Table TaskStatusRow).insert "T-1" ⟨"","",.verified,none,1⟩ }

end Sample

theorem delta_sufficient_removed : ∃ changes,
    Sample.oneRun.deltaPayload Sample.sha "run-failed" (some "RUN-1") none none =
        .ok (some (.delta "run-failed" changes (projectionRoot Sample.sha Sample.oneRun.currentProjection))) ∧
      applyDelta Sample.receiptedRun.currentProjection changes = Sample.oneRun.currentProjection := by
  have hrow : Sample.oneRun.runs["RUN-1"]? = some Sample.runRow := Tables.get_insert_self _ _ _
  obtain ⟨changes,hpayload,happly⟩ :=
    (@delta_sufficient Sample.sha "run-failed" "RUN-1" none none Sample.oneRun).2 _ hrow
  refine ⟨changes,hpayload,happly Sample.receiptedRun ⟨fun _ _ => rfl,fun _ _ => rfl,?_,?_,fun _ _ => rfl⟩⟩
  · intro id hid
    exact (Tables.get_insert_ne _ _ hid).symm
  · intro id hid
    have hne : id ≠ "T-1" := by
      rintro rfl
      exact hid List.mem_cons_self
    exact (Tables.get_insert_ne _ _ hne).symm

/-- Where the row of the run itself is gone, no delta is built, and the projections differ. -/
theorem removed_run_without_delta :
    Sample.oneRun.AgreeOutside (Db.fresh Sample.sha) "RUN-1" ["T-1"] [] ∧
      (Db.fresh Sample.sha).deltaPayload Sample.sha "run-failed" (some "RUN-1") none none = .ok none ∧
      Sample.oneRun.currentProjection ≠ (Db.fresh Sample.sha).currentProjection := by
  refine ⟨⟨fun id hid => ?_,fun _ _ => rfl,fun _ _ => rfl,fun _ _ => rfl,fun _ _ => rfl⟩,rfl,by decide +kernel⟩
  exact (Tables.get_insert_ne _ _ hid).symm

/-! Accepted journals. -/

def EventRow.recordedRoot? (row : EventRow) : Option String :=
  match row.payload with
  | .baseline _ _ root | .delta _ _ root => some root
  | .repair payload => some payload.candidate.currentRootSha256
  | .plain _ => none

/-- The projection after one more row, whatever roots are recorded. -/
def projectRow (p : Projection) (row : EventRow) : Projection :=
  if row.isProjection then
    match row.payload with
    | .baseline _ q _ => q
    | .delta _ changes _ => applyDelta p changes
    | _ => p
  else if row.isRepair then
    match row.payload with
    | .repair payload => ((applyProjectionRepairDiff p payload.candidate.diff).toOption).getD p
    | _ => p
  else p

def projectRows (p : Projection) (rows : List EventRow) : Projection := rows.foldl projectRow p

/-- The projection events among the rows whose root is not that of the projection they lead to. -/
def rootMismatches (sha : Sha) (p : Projection) : List EventRow → List Mismatch
  | [] => []
  | row :: rest =>
    let q := projectRow p row
    let later := rootMismatches sha q rest
    match row.recordedRoot? with
    | some root =>
      if row.isProjection = true ∧ projectionRoot sha q ≠ root then
        ⟨row.eventId,root,projectionRoot sha q⟩ :: later
      else later
    | none => later

section Accepted

variable {sha : Sha} {tolerate : Bool} {st st' : ReplayState} {row : EventRow} {rows : List EventRow}

theorem not_isRepair_of_isProjection (h : row.isProjection = true) : row.isRepair = false := by
  simp only [EventRow.isProjection,Bool.and_eq_true,decide_eq_true_eq] at h
  simp [EventRow.isRepair,h.2]

theorem Projects.projectRow {q : Projection} (h : Projects row st root q) (hrow : row.isProjection = true) :
    Bureau.projectRow st.projection row = q ∧ row.recordedRoot? = some root := by
  cases h with
  | baseline payload first => simp [Bureau.projectRow,hrow,payload,EventRow.recordedRoot?]
  | delta payload later => simp [Bureau.projectRow,hrow,payload,EventRow.recordedRoot?]

theorem RowCase.join (h : RowCase sha st row st' tolerate) (hrepair : row.isRepair = false) :
    st'.projection = projectRow st.projection row ∧
      st'.pendingMismatches = st.pendingMismatches ++ rootMismatches sha st.projection [row] := by
  cases h with
  | skip same type skipped silent =>
    subst skipped
    have hlisted : rootMismatches sha st.projection [row] = [] := by
      simp only [rootMismatches,silent]
      cases row.recordedRoot? <;> simp
    rw [hlisted]
    simp [projectRow,silent,type,ReplayState.skip,ReplayState.extendSegment]
  | @check mid root type segment last repair digest pending baseline valid same checked recorded projects =>
    obtain ⟨hproject,hroot⟩ := projects.projectRow recorded
    simp only [rootMismatches,hproject,hroot,recorded,true_and]
    rcases checkRoot_eq_ok.mp checked with ⟨heq,rfl⟩ | ⟨hne,_,rfl⟩
    · simp [heq,pending]
    · simp [hne,pending]
  | close same type =>
    rw [type] at hrepair
    cases hrepair

theorem RowCase.repair (h : RowCase sha st row st' tolerate) (hrepair : row.isRepair = true) :
    st'.projection = projectRow st.projection row ∧ st'.pendingMismatches = [] ∧
      ∃ payload, row.payload = .repair payload ∧
        payload.candidate.mismatchEventIds = st.pendingMismatches.map (·.eventId) ∧
        payload.candidate.mismatchCount = st.pendingMismatches.length ∧
        payload.candidate.mismatchEvidenceSha256 =
          sha256Json sha (.arr (st.pendingMismatches.map Mismatch.toJson)) ∧
        projectionRoot sha st'.projection = payload.candidate.currentRootSha256 := by
  cases h with
  | skip same type | check type =>
    rw [type] at hrepair
    cases hrepair
  | @close payload same type recorded valid closed =>
    have hsilent : row.isProjection = false := by
      by_contra hne
      rw [not_isRepair_of_isProjection (by simpa using hne)] at type
      cases type
    simp only [replayRepair,steps_ok,decide_eq_true_eq] at closed
    obtain ⟨_,_,_,_,_,_,_,_,_,_,_,_,_,_,_,_,_,hids,_,hcount,_,hevidence,_,_,repaired,hrepaired,_,hroot,rfl⟩ := closed
    refine ⟨?_,rfl,payload,recorded,hids,hcount,hevidence,hroot⟩
    simp [projectRow,hsilent,type,recorded,hrepaired,Except.toOption]

theorem replayRows_append_tolerant {first second : List EventRow} : replayRows sha true st (first ++ second) = .ok st' ↔
    ∃ mid, replayRows sha true st first = .ok mid ∧ replayRows sha true mid second = .ok st' := by
  induction first generalizing st with
  | nil => simp [replayRows]
  | cons row rest ih =>
    simp only [List.cons_append,replayRows,Bool.true_or,bind_eq_ok,ih]
    constructor
    · rintro ⟨a,ha,b,hb,hc⟩
      exact ⟨b,⟨a,ha,hb⟩,hc⟩
    · rintro ⟨b,⟨a,ha,hb⟩,hc⟩
      exact ⟨a,ha,b,hb,hc⟩

theorem replayRows_cons : replayRows sha true st (row :: rows) = .ok st' ↔
    ∃ mid, replayRow sha true st row = .ok mid ∧ replayRows sha true mid rows = .ok st' := by
  simp only [replayRows,Bool.true_or,bind_eq_ok]

theorem replayRows_projectRows (h : replayRows sha true st rows = .ok st') :
    st'.projection = projectRows st.projection rows := by
  induction rows generalizing st with
  | nil =>
    obtain rfl := Except.ok.inj h
    rfl
  | cons row rest ih =>
    obtain ⟨mid,hrow,hrest⟩ := replayRows_cons.mp h
    have hcase := (replayRow_cases hrow).2
    have hmid : mid.projection = projectRow st.projection row := by
      cases hrepair : row.isRepair with
      | true => exact (hcase.repair hrepair).1
      | false => exact (hcase.join hrepair).1
    rw [ih hrest,hmid]
    rfl

@[simp] theorem projectRows_append (p : Projection) (first second : List EventRow) :
    projectRows p (first ++ second) = projectRows (projectRows p first) second :=
  List.foldl_append

theorem projection_of_replayRows (h : replayRows sha true .initial rows = .ok st) :
    st.projection = projectRows .empty rows :=
  replayRows_projectRows h

theorem replayRows_segment (hsegment : ∀ row ∈ rows, row.isRepair = false)
    (h : replayRows sha true st rows = .ok st') :
    st'.pendingMismatches = st.pendingMismatches ++ rootMismatches sha st.projection rows := by
  induction rows generalizing st with
  | nil =>
    obtain rfl := Except.ok.inj h
    simp [rootMismatches]
  | cons row rest ih =>
    obtain ⟨mid,hrow,hrest⟩ := replayRows_cons.mp h
    obtain ⟨hprojection,hpending⟩ := (replayRow_cases hrow).2.join (hsegment row List.mem_cons_self)
    have hsplit : rootMismatches sha st.projection (row :: rest) =
        rootMismatches sha st.projection [row] ++ rootMismatches sha mid.projection rest := by
      rw [hprojection]
      simp only [rootMismatches]
      cases row.recordedRoot? with
      | none => rfl
      | some root =>
        dsimp only
        split <;> rfl
    rw [ih (fun other hother => hsegment other (List.mem_cons_of_mem _ hother)) hrest,hpending,hsplit,
      List.append_assoc]

/-- A place where nothing is left to repair: the beginning, or right after a repair. -/
def Settled (rows : List EventRow) : Prop := ∀ last, rows.getLast? = some last → last.isRepair = true

theorem replayRows_settled (hsettled : Settled rows) (h : replayRows sha true .initial rows = .ok st) :
    st.pendingMismatches = [] := by
  rcases List.eq_nil_or_concat rows with rfl | ⟨before,last,rfl⟩
  · obtain rfl := Except.ok.inj h
    rfl
  · have hlast : last.isRepair = true := hsettled last (by simp)
    obtain ⟨mid,_,hrow⟩ := replayRows_append_tolerant.mp (by simpa using h)
    obtain ⟨after,hafter,hnil⟩ := replayRows_cons.mp hrow
    obtain rfl := Except.ok.inj hnil
    exact ((replayRow_cases hafter).2.repair hlast).2.1

theorem exists_settled (rows : List EventRow) : ∃ before segment, rows = before ++ segment ∧ Settled before ∧
    ∀ row ∈ segment, row.isRepair = false := by
  induction rows using List.reverseRecOn with
  | nil => exact ⟨[],[],rfl,by simp [Settled],by simp⟩
  | append_singleton rows row ih =>
    obtain ⟨before,segment,rfl,hsettled,hsegment⟩ := ih
    cases hrepair : row.isRepair with
    | true => exact ⟨before ++ segment ++ [row],[],by simp,by simp [Settled,hrepair],by simp⟩
    | false =>
      refine ⟨before,segment ++ [row],by simp,hsettled,fun other hother => ?_⟩
      rcases List.mem_append.mp hother with hother | hother
      · exact hsegment other hother
      · exact List.mem_singleton.mp hother ▸ hrepair

theorem exists_repair (h : rows.any EventRow.isRepair = true) : ∃ segment repair after,
    rows = segment ++ repair :: after ∧ repair.isRepair = true ∧ ∀ row ∈ segment, row.isRepair = false := by
  induction rows with
  | nil => simp at h
  | cons row rest ih =>
    cases hrepair : row.isRepair with
    | true => exact ⟨[],row,rest,rfl,hrepair,by simp⟩
    | false =>
      obtain ⟨segment,repair,after,rfl,hfound,hsegment⟩ := ih (by simpa [hrepair] using h)
      exact ⟨row :: segment,repair,after,rfl,hfound,by simpa [hrepair] using hsegment⟩

theorem mem_rootMismatches (hroot : row.recordedRoot? = some root) (hrow : row.isProjection = true)
    (hne : projectionRoot sha (projectRows p (before ++ [row])) ≠ root) :
    row.eventId ∈ (rootMismatches sha p (before ++ row :: after)).map (·.eventId) := by
  induction before generalizing p with
  | nil =>
    have hfirst : projectionRoot sha (projectRow p row) ≠ root := hne
    simp [rootMismatches,hroot,hrow,hfirst]
  | cons first rest ih =>
    have hlater := ih (p := projectRow p first) hne
    simp only [List.cons_append,rootMismatches]
    cases first.recordedRoot? with
    | none => exact hlater
    | some recorded =>
      dsimp only
      split
      · exact List.mem_cons_of_mem _ hlater
      · exact hlater

structure Lists (sha : Sha) (p : Projection) (segment : List EventRow) (repair : EventRow) : Prop where
  type : repair.isRepair = true
  listed : ∃ payload, repair.payload = .repair payload ∧
    payload.candidate.mismatchEventIds = (rootMismatches sha p segment).map (·.eventId) ∧
    payload.candidate.mismatchCount = (rootMismatches sha p segment).length ∧
    payload.candidate.mismatchEvidenceSha256 =
      sha256Json sha (.arr ((rootMismatches sha p segment).map Mismatch.toJson))

theorem lists_of_replayRows {segment : List EventRow} {repair : EventRow}
    (h : replayRows sha true .initial (before ++ segment ++ repair :: after) = .ok st) (hsettled : Settled before)
    (hsegment : ∀ row ∈ segment, row.isRepair = false) (hrepair : repair.isRepair = true) :
    Lists sha (projectRows .empty before) segment repair := by
  obtain ⟨mid,hmid,hrest⟩ := replayRows_append_tolerant.mp h
  obtain ⟨start,hstart,hrows⟩ := replayRows_append_tolerant.mp hmid
  obtain ⟨_,hrow,_⟩ := replayRows_cons.mp hrest
  obtain ⟨_,_,payload,hpayload,hids,hcount,hevidence,_⟩ := (replayRow_cases hrow).2.repair hrepair
  have hpending := replayRows_segment hsegment hrows
  rw [replayRows_settled hsettled hstart,projection_of_replayRows hstart,List.nil_append] at hpending
  rw [hpending] at hids hcount hevidence
  exact ⟨hrepair,payload,hpayload,hids,hcount,hevidence⟩

theorem repair_of_mismatch (h : replayRows sha true .initial (before ++ row :: after) = .ok st)
    (hpending : st.pendingMismatches = []) (hroot : row.recordedRoot? = some root) (hrow : row.isProjection = true)
    (hne : projectionRoot sha (projectRows .empty (before ++ [row])) ≠ root) :
    ∃ settled early late repair later, before = settled ++ early ∧ after = late ++ repair :: later ∧
      Settled settled ∧ (∀ other ∈ early ++ row :: late, other.isRepair = false) ∧
      Lists sha (projectRows .empty settled) (early ++ row :: late) repair := by
  obtain ⟨settled,early,rfl,hsettled,hearly⟩ := exists_settled before
  have hself : row.isRepair = false := not_isRepair_of_isProjection hrow
  have hlisted (late : List EventRow) :
      row.eventId ∈ (rootMismatches sha (projectRows .empty settled) (early ++ row :: late)).map (·.eventId) := by
    refine mem_rootMismatches hroot hrow ?_
    simpa [projectRows] using hne
  cases hfollows : after.any EventRow.isRepair with
  | true =>
    obtain ⟨late,repair,later,rfl,hrepair,hlate⟩ := exists_repair hfollows
    have hsegment : ∀ other ∈ early ++ row :: late, other.isRepair = false := by
      intro other hother
      rcases List.mem_append.mp hother with hother | hother
      · exact hearly other hother
      · rcases List.mem_cons.mp hother with rfl | hother
        · exact hself
        · exact hlate other hother
    refine ⟨settled,early,late,repair,later,rfl,rfl,hsettled,hsegment,?_⟩
    have hrows : replayRows sha true .initial (settled ++ (early ++ row :: late) ++ repair :: later) = .ok st := by
      simpa using h
    exact lists_of_replayRows hrows hsettled hsegment hrepair
  | false =>
    -- without a repair the mismatch is still open at the end
    have hsegment : ∀ other ∈ early ++ row :: after, other.isRepair = false := by
      intro other hother
      rcases List.mem_append.mp hother with hother | hother
      · exact hearly other hother
      · rcases List.mem_cons.mp hother with rfl | hother
        · exact hself
        · exact (List.any_eq_false.mp hfollows other hother |> Bool.eq_false_iff.mpr)
    obtain ⟨start,hstart,hrows⟩ := replayRows_append_tolerant.mp (by simpa using h)
    have hopen := replayRows_segment hsegment hrows
    rw [replayRows_settled hsettled hstart,projection_of_replayRows hstart,hpending,List.nil_append] at hopen
    have hmem := hlisted after
    rw [← hopen] at hmem
    simp at hmem

theorem baseline_of_replayRows (h : replayRows sha true .initial rows = .ok st) :
    (st.baselineSeen = false ∧ ∀ row ∈ rows, row.isProjection = false) ∨
      (st.baselineSeen = true ∧ ∃ before row after trigger p root, rows = before ++ row :: after ∧
        row.isProjection = true ∧ row.payload = .baseline trigger p root ∧
        (∀ other ∈ before, other.isProjection = false) ∧ ∀ other ∈ after, other.isProjection = true →
          ∃ trigger changes root, other.payload = .delta trigger changes root) := by
  induction rows using List.reverseRecOn generalizing st with
  | nil =>
    obtain rfl := Except.ok.inj h
    exact .inl ⟨rfl,by simp⟩
  | append_singleton rows last ih =>
    obtain ⟨mid,hmid,hlast⟩ := replayRows_append_tolerant.mp h
    obtain ⟨reached,hrow,hnil⟩ := replayRows_cons.mp hlast
    obtain rfl : st = reached := (Except.ok.inj hnil).symm
    have hseen : last.isProjection = false → st.baselineSeen = mid.baselineSeen := by
      intro hsilent
      cases (replayRow_cases hrow).2 with
      | skip same type skipped =>
        rw [skipped]
        rfl
      | check type segment last repair digest pending baseline valid same checked recorded =>
        rw [recorded] at hsilent
        cases hsilent
      | close same type recorded valid closed =>
        simp only [replayRepair,steps_ok] at closed
        obtain ⟨_,_,_,_,_,_,_,_,_,_,_,_,_,_,_,_,_,_,_,_,_,_,_,_,_,_,_,_,rfl⟩ := closed
        rfl
    cases hprojection : last.isProjection with
    | false =>
      rw [hseen hprojection]
      rcases ih hmid with ⟨hunseen,hsilent⟩ | ⟨hseen,before,row,after,trigger,p,root,rfl,hfirst⟩
      · refine .inl ⟨hunseen,fun other hother => ?_⟩
        rcases List.mem_append.mp hother with hother | hother
        · exact hsilent other hother
        · exact List.mem_singleton.mp hother ▸ hprojection
      · obtain ⟨hrow,hpayload,hbefore,hafter⟩ := hfirst
        refine .inr ⟨hseen,before,row,after ++ [last],trigger,p,root,by simp,hrow,hpayload,hbefore,?_⟩
        intro other hother hdelta
        rcases List.mem_append.mp hother with hother | hother
        · exact hafter other hother hdelta
        · rw [List.mem_singleton.mp hother,hprojection] at hdelta
          cases hdelta
    | true =>
      cases (replayRow_cases hrow).2 with
      | skip same type skipped silent =>
        rw [silent] at hprojection
        cases hprojection
      | close same type =>
        rw [not_isRepair_of_isProjection hprojection] at type
        cases type
      | @check between root type segment lastId repair digest pending baseline valid same checked recorded projects =>
        have hbaseline : st.baselineSeen = true := by
          rcases checkRoot_eq_ok.mp checked with ⟨_,rfl⟩ | ⟨_,_,rfl⟩ <;> exact baseline
        refine .inr ⟨hbaseline,?_⟩
        generalize between.projection = q at projects
        cases projects with
        | baseline payload first =>
          rcases ih hmid with ⟨_,hsilent⟩ | ⟨hseen,_⟩
          · exact ⟨rows,last,[],_,_,_,by simp,hprojection,payload,hsilent,by simp⟩
          · rw [first] at hseen
            cases hseen
        | delta payload later =>
          rcases ih hmid with ⟨hunseen,_⟩ | ⟨_,before,row,after,trigger,p,root,rfl,hrow,hbase,hbefore,hafter⟩
          · rw [later] at hunseen
            cases hunseen
          · refine ⟨before,row,after ++ [last],trigger,p,root,by simp,hrow,hbase,hbefore,?_⟩
            intro other hother hdelta
            rcases List.mem_append.mp hother with hother | hother
            · exact hafter other hother hdelta
            · exact ⟨_,_,_,List.mem_singleton.mp hother ▸ payload⟩

/-- At the last projection or repair event the replayed root is the recorded one. -/
theorem root_of_last {last : EventRow} (h : replayRows sha true .initial (before ++ last :: after) = .ok st)
    (hpending : st.pendingMismatches = []) (hlast : last.isProjection = true ∨ last.isRepair = true)
    (hafter : ∀ row ∈ after, row.isProjection = false ∧ row.isRepair = false) :
    last.recordedRoot? = some (projectionRoot sha st.projection) := by
  have hrest : ∀ (rows : List EventRow) (p : Projection), (∀ row ∈ rows, row.isProjection = false ∧
    row.isRepair = false) →
      projectRows p rows = p := by
    intro rows p hrows
    induction rows with
    | nil => rfl
    | cons row rest ih =>
      have hsame : projectRow p row = p := by
        simp [projectRow,(hrows row List.mem_cons_self).1,(hrows row List.mem_cons_self).2]
      rw [projectRows,List.foldl_cons,hsame]
      exact ih fun other hother => hrows other (List.mem_cons_of_mem _ hother)
  have hprojection : st.projection = projectRows .empty (before ++ [last]) := by
    rw [projection_of_replayRows h,← hrest after (projectRows .empty (before ++ [last])) hafter]
    simp [projectRows]
  rcases hlast with hprojects | hrepair
  · obtain ⟨mid,hmid,htail⟩ := replayRows_append_tolerant.mp h
    obtain ⟨_,hrow,_⟩ := replayRows_cons.mp htail
    cases (replayRow_cases hrow).2 with
    | skip same type skipped silent =>
      rw [silent] at hprojects
      cases hprojects
    | close same type =>
      rw [not_isRepair_of_isProjection hprojects] at type
      cases type
    | @check _ root type segment lastId repair digest pending baseline valid same checked recorded projects =>
      obtain ⟨_,hroot⟩ := projects.projectRow recorded
      rw [hroot,Option.some.injEq]
      by_contra hne
      have hmismatch : projectionRoot sha (projectRows .empty (before ++ [last])) ≠ root := by
        rw [← hprojection]
        exact Ne.symm hne
      obtain ⟨_,_,late,repair,later,_,rfl,_,_,hlists⟩ := repair_of_mismatch h hpending hroot hprojects hmismatch
      have htype := (hafter repair (by simp)).2
      rw [hlists.type] at htype
      cases htype
  · obtain ⟨mid,hmid,htail⟩ := replayRows_append_tolerant.mp h
    obtain ⟨reached,hrow,hend⟩ := replayRows_cons.mp htail
    obtain ⟨_,_,payload,hpayload,_,_,_,hroot⟩ := (replayRow_cases hrow).2.repair hrepair
    have hsame : st.projection = reached.projection := by
      rw [replayRows_projectRows hend,hrest after _ hafter]
    rw [EventRow.recordedRoot?,hpayload,hsame,hroot]

theorem replay_eq_ok (h : replay sha rows = .ok p) : ∃ st,
    replayRows sha true .initial rows = .ok st ∧ st.baselineSeen = true ∧ st.pendingMismatches = [] ∧
      st.projection = p := by
  simp only [replay,replayInternal,steps_ok,Bool.false_or,List.isEmpty_iff] at h
  obtain ⟨_,⟨st,hrows,_,hbaseline,_,hpending,rfl⟩,hprojection⟩ := h
  exact ⟨st,replayRows_tolerant hrows,hbaseline,hpending,hprojection⟩

end Accepted

/-- What strict replay accepts. The returned projection is the one the rows lead to and has the root that
the last projection or repair event records. One baseline precedes the deltas. A projection event with
another root than the replayed one is followed by a repair that lists the mismatches since the last repair
before it. -/
theorem replay_accepted {sha : Sha} {rows : List EventRow} {p : Projection} (h : replay sha rows = .ok p) :
    p = projectRows .empty rows ∧
    (∀ before last after, rows = before ++ last :: after → last.isProjection = true ∨ last.isRepair = true →
      (∀ row ∈ after, row.isProjection = false ∧ row.isRepair = false) →
        last.recordedRoot? = some (projectionRoot sha p)) ∧
    (∃ before row after trigger q root, rows = before ++ row :: after ∧ row.isProjection = true ∧
      row.payload = .baseline trigger q root ∧ (∀ other ∈ before, other.isProjection = false) ∧
      ∀ other ∈ after, other.isProjection = true →
        ∃ trigger changes root, other.payload = .delta trigger changes root) ∧
    ∀ before row after root, rows = before ++ row :: after → row.isProjection = true →
      row.recordedRoot? = some root → projectionRoot sha (projectRows .empty (before ++ [row])) ≠ root →
      ∃ settled early late repair later, before = settled ++ early ∧ after = late ++ repair :: later ∧
        Settled settled ∧ (∀ other ∈ early ++ row :: late, other.isRepair = false) ∧
        Lists sha (projectRows .empty settled) (early ++ row :: late) repair := by
  obtain ⟨st,htolerant,hbaseline,hpending,rfl⟩ := replay_eq_ok h
  refine ⟨projection_of_replayRows htolerant,?_,?_,?_⟩
  · rintro before last after rfl hlast hafter
    exact root_of_last htolerant hpending hlast hafter
  · rcases baseline_of_replayRows htolerant with ⟨hunseen,_⟩ | ⟨_,hfirst⟩
    · rw [hbaseline] at hunseen
      cases hunseen
    · exact hfirst
  · rintro before row after root rfl hrow hroot hne
    exact repair_of_mismatch htolerant hpending hroot hrow hne

namespace Sample

def repairer : StateStore.RepairAuthority := ⟨"operator","repair-1","drift"⟩

theorem repairer_valid : repairer.valid := List.all_eq_true.mp (by decide +kernel)

theorem audited_auditable (inputs : List StoreInput) : (audited inputs).Auditable sizeEnv.sha :=
  Reach.invariant (P := fun db => db.Auditable sizeEnv.sha) (.fresh validDigest_sizeSha)
    (fun _ input hbefore _ => hbefore.step input) (audited_reach inputs)

theorem drifted_candidate : ∃ candidate,
    StateStore.projectionRepairCandidate sizeEnv.sha (audited drifted) = .ok candidate :=
  ((audited_auditable drifted).projectionRepairCandidate_iff validDigest_sizeSha).mpr drifted_repairable

theorem drifted_repaired : ∃ row p, row.isRepair = true ∧
    replay sizeEnv.sha ((audited drifted).baseEvents ++ [row]) = .ok p := by
  obtain ⟨candidate,hcandidate⟩ := drifted_candidate
  obtain ⟨st,hst,_,hlast⟩ := (audited_auditable drifted).journal.rows
  obtain ⟨row,hrepair,_,hreplay⟩ := Db.applyProjectionRepair_of_candidate validDigest_sizeSha
    (fun other hother => Except.ok.inj (hst.symm.trans hother) ▸ hlast) (audited_auditable drifted).journal.repairs
    hcandidate (fun row hrow payload hpayload => absurd hpayload ((drifted_events row hrow).2.2 payload)) repairer_valid
  have htype : row.eventType ≠ .taskSpecRevisionSet := by
    simp only [EventRow.isRepair,Bool.and_eq_true,decide_eq_true_eq] at hrepair
    simp [hrepair.2]
  simp only [StateStore.replayProjection,bind_eq_ok,Db.baseEvents_extend htype] at hreplay
  obtain ⟨p,hreplay,_⟩ := hreplay
  exact ⟨row,p,hrepair,hreplay⟩

end Sample

theorem replay_accepted_repaired : ∃ rows p, replay Sample.sizeEnv.sha rows = .ok p ∧
    rows.any EventRow.isRepair = true ∧ p = projectRows .empty rows ∧
    ∃ before row after trigger q root, rows = before ++ row :: after ∧ row.isProjection = true ∧
      row.payload = .baseline trigger q root ∧ (∀ other ∈ before, other.isProjection = false) ∧
      ∀ other ∈ after, other.isProjection = true →
        ∃ trigger changes root, other.payload = .delta trigger changes root := by
  obtain ⟨row,p,hrepair,hreplay⟩ := Sample.drifted_repaired
  obtain ⟨hprojection,_,hbaseline,_⟩ := replay_accepted hreplay
  exact ⟨_,p,hreplay,by simp [hrepair],hprojection,hbaseline⟩

/-! Repairs. -/

section Repairs

variable {sha : Sha} {db after : Db} {candidate : RepairCandidate} {candidateSha256 : String}
  {authority : StateStore.RepairAuthority} {status : StateStore.RepairStatus}

theorem lastEventId_of_replayRows {bound : ℕ} (h : replayRows sha true .initial rows = .ok st)
    (hids : ∀ row ∈ rows, row.eventId < bound) :
    st.lastEventId < bound := by
  rcases List.eq_nil_or_concat rows with rfl | ⟨before,last,rfl⟩
  · obtain rfl := Except.ok.inj h
    simp only [ReplayState.initial]
    omega
  · obtain ⟨_,_,hrow⟩ := replayRows_append_tolerant.mp (by simpa using h)
    obtain ⟨reached,hlast,hnil⟩ := replayRows_cons.mp hrow
    obtain rfl : st = reached := (Except.ok.inj hnil).symm
    have hid : st.lastEventId = last.eventId := by
      cases (replayRow_cases hlast).2.effect with
      | join more type segment last => exact last
      | close type recorded segment last => exact last
    have hlt := hids last (by simp)
    omega

namespace StateStore

theorem applyProjectionRepair_eq_ok
    (h : applyProjectionRepair sha candidateSha256 authority db = .ok (status,after)) :
    (status = .alreadyApplied ∧ after = db ∧ ∃ p, replay sha db.baseEvents = .ok p) ∨
      (status = .applied ∧ findCheckpoint sha candidateSha256 db.baseEvents = .ok none ∧
        ∃ candidate, projectionRepairCandidate sha db = .ok candidate ∧
          sha256Json sha candidate.toJson = candidateSha256 ∧
          after = db.extend [db.nextRow .projectionRepair (checkpoint candidate candidateSha256 authority) none none] ∧
          ∃ p specs, replay sha after.baseEvents = .ok p ∧ TaskSpecs.verifyReplay sha after = .ok specs) := by
  simp only [applyProjectionRepair,steps_ok] at h
  obtain ⟨_,_,_,_,specs,hspecs,found,hfound,h⟩ := h
  cases found with
  | some row =>
    simp only [steps_ok,Prod.mk.injEq] at h
    obtain ⟨p,hreplay,_,_,rfl,rfl⟩ := h
    exact .inl ⟨rfl,rfl,p,hreplay⟩
  | none =>
    simp only [steps_ok,Prod.mk.injEq,decide_eq_true_eq] at h
    obtain ⟨candidate,hcandidate,_,hdigest,written,hinsert,p,hreplay,later,hlater,_,_,_,_,rfl,rfl⟩ := h
    obtain ⟨_,rfl⟩ := Db.insertEvent_eq_ok hinsert
    refine .inr ⟨rfl,hfound,candidate,?_,hdigest,rfl,p,later,hreplay,hlater⟩
    simp only [projectionRepairCandidate,bind_eq_ok]
    exact ⟨specs,hspecs,hcandidate⟩

theorem replay_ne_ok_of_candidate (h : projectionRepairCandidate sha db = .ok candidate) (p : Projection) :
    replay sha db.baseEvents ≠ .ok p := by
  intro hreplay
  obtain ⟨_,_,st,first,_,_,hrows,_,_,hfirst,_⟩ := projectionRepairCandidate_eq_ok h
  obtain ⟨st',hrows',_,hpending,_⟩ := replay_eq_ok hreplay
  obtain rfl := Except.ok.inj (hrows.symm.trans hrows')
  simp [hpending] at hfirst

/-- The journal after a repair replays to the tables, not only to a projection with their root. -/
theorem replay_of_applied (hcandidate : projectionRepairCandidate sha db = .ok candidate)
    (hreplay : replay sha
      (db.extend [db.nextRow .projectionRepair (checkpoint candidate candidateSha256 authority) none none]).baseEvents =
        .ok p) : p = db.currentProjection := by
  obtain ⟨_,_,st,first,horizon,_,hrows,_,_,_,_,_,rfl⟩ := projectionRepairCandidate_eq_ok hcandidate
  rw [Db.baseEvents_extend (by simp [Db.nextRow])] at hreplay
  obtain ⟨st',hrows',_,_,rfl⟩ := replay_eq_ok hreplay
  rw [projection_of_replayRows hrows',projectRows_append,← projection_of_replayRows hrows]
  simp only [projectRows,List.foldl_cons,List.foldl_nil,projectRow,Db.nextRow,EventRow.isProjection,EventRow.isRepair,
    checkpoint,
    repairCandidate,applyProjectionRepairDiff_projectionDiff,Except.toOption,Option.getD_some]
  rfl

/-- A checkpoint that is in the journal is found, or the search stops at a row that is not valid. -/
theorem findCheckpoint_ne_none {row : EventRow} {payload : RepairPayload} (hrow : row ∈ rows)
    (htype : row.eventType = .projectionRepair) (hpayload : row.payload = .repair payload)
    (hdigest : payload.candidateSha256 = candidateSha256) : findCheckpoint sha candidateSha256 rows ≠ .ok none := by
  induction rows with
  | nil => simp at hrow
  | cons first rest ih =>
    rw [findCheckpoint]
    by_cases hrepair : first.eventType = .projectionRepair
    · simp only [hrepair,ne_eq,not_true,if_false,bind_eq_ok,not_exists,not_and]
      intro _ hvalid hsearch
      obtain ⟨other,hother⟩ := repair_of_validateEvent hvalid
      simp only [hother] at hsearch
      rcases List.mem_cons.mp hrow with rfl | hrest
      · obtain rfl : payload = other := Payload.repair.inj (hpayload.symm.trans hother)
        simp [hdigest,pure_eq_ok] at hsearch
      · by_cases hsame : other.candidateSha256 = candidateSha256
        · simp [hsame,pure_eq_ok] at hsearch
        · simp only [hsame,not_false_eq_true,if_true] at hsearch
          exact ih hrest hsearch
    · simp only [ne_eq,hrepair,not_false_eq_true,if_true]
      rcases List.mem_cons.mp hrow with rfl | hrest
      · exact absurd htype hrepair
      · exact ih hrest

theorem horizon_of_append {st' : ReplayState} (h : replayRows sha true st more = .ok st') (hmore : more ≠ [])
    {horizon : ℕ} (hhorizon : st'.segmentLastEventId = some horizon) : st.lastEventId < horizon := by
  induction more generalizing st with
  | nil => exact absurd rfl hmore
  | cons row rest ih =>
    obtain ⟨mid,hrow,hrest⟩ := replayRows_cons.mp h
    obtain ⟨horder,hcase⟩ := replayRow_cases hrow
    have hlast : mid.lastEventId = row.eventId := by
      cases hcase.effect with
      | join more type segment last => exact last
      | close type recorded segment last => exact last
    by_cases hrestNil : rest = []
    · subst hrestNil
      obtain rfl : st' = mid := (Except.ok.inj hrest).symm
      cases hcase.effect with
      | join more type segment =>
        rw [segment,Option.some.injEq] at hhorizon
        omega
      | close type recorded segment =>
        rw [segment] at hhorizon
        cases hhorizon
    · have hlater := ih hrest hrestNil
      omega

/-- Two stores with the same candidate, the journal of one extending that of the other, have the same rows
to replay and the same tables. -/
theorem candidate_determines {now : Db} (hevents : now.events = db.events ++ more)
    (hbefore : projectionRepairCandidate sha db = .ok candidate)
    (hnow : projectionRepairCandidate sha now = .ok candidate) :
    now.baseEvents = db.baseEvents ∧ now.currentProjection = db.currentProjection := by
  obtain ⟨_,_,st,first,horizon,_,hrows,_,hordered,hfirst,hhorizon,_,hcandidate⟩ :=
    projectionRepairCandidate_eq_ok hbefore
  obtain ⟨_,_,st',first',horizon',_,hrows',_,_,_,hhorizon',_,hcandidate'⟩ := projectionRepairCandidate_eq_ok hnow
  have hsplit : now.baseEvents = db.baseEvents ++ more.filter (fun e => e.eventType ≠ .taskSpecRevisionSet) := by
    rw [Db.baseEvents,hevents,List.filter_append]
    rfl
  have hsame := hcandidate.symm.trans hcandidate'
  have hreach : horizon = horizon' := congrArg RepairCandidate.repairThroughEventId hsame
  rw [hsplit] at hrows'
  obtain ⟨mid,hmid,hmore⟩ := replayRows_append_tolerant.mp hrows'
  obtain rfl := Except.ok.inj (hrows.symm.trans hmid)
  have hnil : more.filter (fun e => decide (e.eventType ≠ .taskSpecRevisionSet)) = [] := by
    by_contra hne
    have hlater := horizon_of_append hmore hne hhorizon'
    have hbound := hordered.last horizon hhorizon
    omega
  rw [hnil] at hmore
  obtain rfl : st' = st := (Except.ok.inj hmore).symm
  refine ⟨by rw [hsplit,hnil,List.append_nil],?_⟩
  have hdiff : projectionDiff st'.projection db.currentProjection =
    projectionDiff st'.projection now.currentProjection :=
    congrArg RepairCandidate.diff hsame
  have happly := applyProjectionRepairDiff_projectionDiff st'.projection now.currentProjection
  rw [← hdiff,applyProjectionRepairDiff_projectionDiff] at happly
  exact (Except.ok.inj happly).symm

end StateStore

end Repairs

/-- Repair of any store that has a candidate. What is applied is one more row, after which strict replay
gives the tables; it is applied if the ids of the rows are below the next one, no repair row is of an old
schema and no earlier candidate collides. A candidate whose checkpoint is in the journal is not applied
again. A candidate from before a further row of the journal, or from other tables, is not applied. -/
theorem projection_repair_sound {sha : Sha} {db : Db} {candidate : RepairCandidate}
    (h : StateStore.projectionRepairCandidate sha db = .ok candidate) :
    (∀ authority status after,
      StateStore.applyProjectionRepair sha (sha256Json sha candidate.toJson) authority db = .ok (status,after) →
        status = .applied ∧ (∃ row, after = { db with events := db.events ++ [row], nextEventId := db.nextEventId+1 }) ∧
          StateStore.replayProjection sha after = .ok after.currentProjection ∧
          ∀ later : Db, (∀ row ∈ after.events, row ∈ later.events) → ∀ again status' after',
            StateStore.applyProjectionRepair sha (sha256Json sha candidate.toJson) again later = .ok (status',after') →
              status' = .alreadyApplied ∧ after' = later) ∧
    ((∀ s, validDigest (sha s) = true) → (∀ row ∈ db.events, row.eventId < db.nextEventId) →
      (∀ row ∈ db.events, row.eventType = .projectionRepair → row.schemaVersion = 1) →
      (∀ row ∈ db.events, ∀ payload, row.payload = .repair payload →
        sha256Json sha payload.candidate.toJson = sha256Json sha candidate.toJson → payload.candidate = candidate) →
      ∀ authority : StateStore.RepairAuthority, authority.valid →
        ∃ after, StateStore.applyProjectionRepair sha (sha256Json sha candidate.toJson) authority db =
          .ok (.applied,after)) ∧
    ∀ (now : Db) (more : List EventRow), now.events = db.events ++ more →
      (∀ other, StateStore.projectionRepairCandidate sha now = .ok other →
        sha256Json sha other.toJson = sha256Json sha candidate.toJson → other = candidate) →
      ∀ authority after,
        StateStore.applyProjectionRepair sha (sha256Json sha candidate.toJson) authority now = .ok (.applied,after) →
          now.baseEvents = db.baseEvents ∧ now.currentProjection = db.currentProjection := by
  refine ⟨fun authority status after hok => ?_,?_,?_⟩
  · rcases StateStore.applyProjectionRepair_eq_ok hok with
      ⟨_,_,p,hreplay⟩ | ⟨rfl,_,_,hcomputed,hdigest,rfl,p,specs,hreplay,hspecs⟩
    · exact absurd hreplay (StateStore.replay_ne_ok_of_candidate h p)
    · obtain rfl := Except.ok.inj (h.symm.trans hcomputed)
      obtain rfl := StateStore.replay_of_applied h hreplay
      refine ⟨rfl,⟨_,rfl⟩,?_,fun later hlater again status' after' hagain => ?_⟩
      · simp only [StateStore.replayProjection,steps_ok,decide_eq_true_eq]
        exact ⟨_,hreplay,specs,hspecs,(),rfl,(),rfl,rfl⟩
      · -- the checkpoint is among the rows, so the search does not end without one
        have hrow := hlater _ (List.mem_append_right _ (List.mem_singleton_self _))
        have hbase : db.nextRow .projectionRepair
            (StateStore.checkpoint candidate (sha256Json sha candidate.toJson) authority) none
              none ∈ later.baseEvents :=
          List.mem_filter.mpr ⟨hrow,rfl⟩
        have hfound : StateStore.findCheckpoint sha (sha256Json sha candidate.toJson) later.baseEvents ≠ .ok none :=
          StateStore.findCheckpoint_ne_none hbase rfl rfl rfl
        rcases StateStore.applyProjectionRepair_eq_ok hagain with ⟨rfl,rfl,_⟩ | ⟨_,hnone,_⟩
        · exact ⟨rfl,rfl⟩
        · exact absurd hnone hfound
  · intro hsha hids hrepairs hcollision authority hauthority
    obtain ⟨row,_,happly,_⟩ := Db.applyProjectionRepair_of_candidate hsha
      (fun st hst => lastEventId_of_replayRows hst fun row hrow => hids row (List.mem_of_mem_filter hrow))
      (fun row hrow => hrepairs row (List.mem_of_mem_filter hrow)) h hcollision hauthority
    exact ⟨_,happly⟩
  · intro now more hevents hcollision authority after hok
    rcases StateStore.applyProjectionRepair_eq_ok hok with ⟨hstatus,_⟩ | ⟨_,_,other,hcomputed,hdigest,_⟩
    · cases hstatus
    · obtain rfl := hcollision other hcomputed hdigest
      exact StateStore.candidate_determines hevents h hcomputed

/-- A put of a TaskSpec leaves the other rows of the journal and the projected tables alone. -/
theorem TaskSpecs.PutEffect.operational {sha : Sha} {now : Time} {db db' : Db} {spec : Json} {key source : String}
    {expected : Option ℕ} {result : TaskSpecs.PutResult}
    (h : TaskSpecs.PutEffect sha now db spec key expected source result db') :
    db'.baseEvents = db.baseEvents ∧ db'.currentProjection = db.currentProjection ∧
      ∀ row ∈ db'.events, row ∈ db.events ∨ ∃ document, row.payload = .plain document := by
  cases h with
  | replay | known => exact ⟨rfl,rfl,fun row hrow => .inl hrow⟩
  | set =>
    refine ⟨?_,rfl,fun row hrow => ?_⟩
    · simp [Db.baseEvents,TaskSpecs.setRevision,List.filter_append]
    · rcases List.mem_append.mp hrow with hold | hnew
      · exact .inl hold
      · exact .inr ⟨_,by rw [List.mem_singleton.mp hnew]⟩

namespace Sample

def specPut : StoreInput := .write (.operate (.putTaskSpecMaterial 5 spec "put-1" none "operator"))

theorem step_specPut (db : Db) : StoreInput.step sizeEnv contracts db specPut =
    commit db ((TaskSpecs.putValidatedMaterial sizeEnv.sha 5 db spec "put-1" none "operator").map Prod.snd) := rfl

theorem audited_snoc (inputs : List StoreInput) (input : StoreInput) :
    audited (inputs ++ [input]) = StoreInput.step sizeEnv contracts (audited inputs) input :=
  List.foldl_append

end Sample

theorem projection_repair_sound_drifted : ∃ candidate after,
    StateStore.projectionRepairCandidate Sample.sizeEnv.sha (Sample.audited Sample.drifted) = .ok candidate ∧
      StateStore.applyProjectionRepair Sample.sizeEnv.sha (sha256Json Sample.sizeEnv.sha candidate.toJson)
        Sample.repairer (Sample.audited Sample.drifted) = .ok (.applied,after) ∧
      StateStore.replayProjection Sample.sizeEnv.sha after = .ok after.currentProjection ∧
      ∀ status' after', StateStore.applyProjectionRepair Sample.sizeEnv.sha
        (sha256Json Sample.sizeEnv.sha candidate.toJson) Sample.repairer after = .ok (status',after') →
          status' = .alreadyApplied ∧ after' = after := by
  obtain ⟨candidate,hcandidate⟩ := Sample.drifted_candidate
  obtain ⟨hsound,happlied,_⟩ := projection_repair_sound hcandidate
  obtain ⟨after,hok⟩ := happlied Sample.validDigest_sizeSha (fun row hrow => (Sample.drifted_events row hrow).1)
    (fun row hrow htype => absurd htype (Sample.drifted_events row hrow).2.1)
    (fun row hrow payload hpayload => absurd hpayload ((Sample.drifted_events row hrow).2.2 payload))
    Sample.repairer Sample.repairer_valid
  obtain ⟨_,_,hreplay,hagain⟩ := hsound _ _ _ hok
  exact ⟨candidate,after,hcandidate,hok,hreplay,
    fun status' after' => hagain after (fun _ hrow => hrow) _ status' after'⟩

/-- A candidate from before the event of a TaskSpec is applied after it. -/
theorem repair_after_spec_event : ∃ candidate after,
    StateStore.projectionRepairCandidate Sample.sizeEnv.sha (Sample.audited Sample.drifted) = .ok candidate ∧
      (Sample.audited (Sample.drifted ++ [Sample.specPut])).events.length =
        (Sample.audited Sample.drifted).events.length+1 ∧
      StateStore.applyProjectionRepair Sample.sizeEnv.sha (sha256Json Sample.sizeEnv.sha candidate.toJson)
        Sample.repairer (Sample.audited (Sample.drifted ++ [Sample.specPut])) = .ok (.applied,after) := by
  obtain ⟨candidate,hcandidate⟩ := Sample.drifted_candidate
  have hput : ((TaskSpecs.putValidatedMaterial Sample.sizeEnv.sha 5 (Sample.audited Sample.drifted) Sample.spec "put-1"
      none "operator").toOption.any fun r =>
        r.2.events.length = (Sample.audited Sample.drifted).events.length+1) = true := by
    decide +kernel
  simp only [Option.any_eq_true,toOption_eq_some,decide_eq_true_eq] at hput
  obtain ⟨⟨result,now⟩,hput,hlength⟩ := hput
  have hnow : Sample.audited (Sample.drifted ++ [Sample.specPut]) = now := by
    rw [Sample.audited_snoc,Sample.step_specPut,hput]
    rfl
  obtain ⟨hrows,htables,hevents⟩ := (TaskSpecs.putValidatedMaterial_effect hput).operational
  have hauditable := Sample.audited_auditable (Sample.drifted ++ [Sample.specPut])
  rw [hnow] at hauditable ⊢
  obtain ⟨specs,hspecs⟩ := hauditable.verifyReplay
  have hlater : StateStore.projectionRepairCandidate Sample.sizeEnv.sha now = .ok candidate := by
    simp only [StateStore.projectionRepairCandidate,hspecs,bind_eq_ok,Except.ok.injEq,exists_eq_left',hrows,htables]
    exact (StateStore.projectionRepairCandidate_eq_ok hcandidate).2.1
  obtain ⟨st,hst,_,hlast⟩ := hauditable.journal.rows
  obtain ⟨row,_,hok,_⟩ := Db.applyProjectionRepair_of_candidate Sample.validDigest_sizeSha
    (fun other hother => Except.ok.inj (hst.symm.trans hother) ▸ hlast)
    hauditable.journal.repairs hlater
    (fun row hrow payload hpayload => by
      rcases hevents row hrow with hold | ⟨document,hplain⟩
      · exact absurd hpayload ((Sample.drifted_events row hold).2.2 payload)
      · rw [hplain] at hpayload
        cases hpayload)
    Sample.repairer_valid
  exact ⟨candidate,_,hcandidate,hlength,hok⟩

end Bureau
