import Bureau.Journal
import Bureau.SpecReplay

/-!
Repair of the journal. Tables that changed without an event leave root mismatches behind; a repair
candidate takes the replayed projection to the current tables, and its checkpoint closes the segment
of the journal it was computed from.
-/

namespace Bureau

open Transactions TaskSpecs

variable {sha : Sha} {db : Db} {activityId initiativeId runId : Option String} {row : EventRow}
    {candidateSha256 root trigger : String} {p : Projection} {allow : Bool} {st : ReplayState}
    {rows : List EventRow} {eventId horizon : ℕ} {eventType : EventType} {kind : Kind} {resources : Resources}

/-- `projection_diff` on one table: the ids of either side in order, where the rows differ. -/
def tableDiff (replayed current : Table Json) : List DiffEntry :=
  (replayed ∪ current).keys.filterMap fun id =>
    if replayed[id]? = current[id]? then none else some ⟨id,replayed[id]?,current[id]?⟩

def projectionDiff (replayed current : Projection) : ProjectionDiff where
  tasks := tableDiff replayed.tasks current.tasks
  initiatives := tableDiff replayed.initiatives current.initiatives
  claims := tableDiff replayed.claims current.claims
  runs := tableDiff replayed.runs current.runs
  acceptances := tableDiff replayed.acceptances current.acceptances

/-- The candidate over a replayed journal with its first mismatch and its last row. -/
def repairCandidate (sha : Sha) (st : ReplayState) (current : Projection) (first : Mismatch) (horizon : ℕ) :
    RepairCandidate where
  previousRepairEventId := st.lastRepairEventId
  previousRepairCandidateSha256 := st.lastRepairCandidateSha256
  repairThroughEventId := horizon
  segmentEventStreamSha256 := sha256Json sha (.arr (st.segmentRowSha256s.map .str))
  firstMismatchEventId := first.eventId
  lastMismatchEventId := (st.pendingMismatches.getLastD first).eventId
  mismatchCount := st.pendingMismatches.length
  mismatchEventIds := st.pendingMismatches.map (·.eventId)
  mismatchEvidenceSha256 := sha256Json sha (.arr (st.pendingMismatches.map Mismatch.toJson))
  firstMismatchStoredRootSha256 := first.storedRootSha256
  firstMismatchObservedRootSha256 := first.observedRootSha256
  historicalReplayedRootSha256 := projectionRoot sha st.projection
  currentRootSha256 := projectionRoot sha current
  diff := projectionDiff st.projection current
  diffSha256 := sha256Json sha (projectionDiff st.projection current).toJson

/-- `state_events.projection_repair_candidate`: the candidate of the assessment. -/
def projectionRepairCandidate (sha : Sha) (rows : List EventRow) (current : Projection) : Result RepairCandidate := do
  let replayed ← replayInternal sha true rows
  let first ← orRaise replayed.pendingMismatches.head? (.state "state projection has no unrepaired root mismatch")
  require (!(projectionDiff replayed.projection current).entries.isEmpty)
    (.state "state projection mismatch has no repairable StateStore drift")
  let horizon ← orRaise replayed.segmentLastEventId (.state "state projection repair segment is empty")
  let candidate := repairCandidate sha replayed current first horizon
  validateProjectionRepairCandidate sha candidate
  return candidate

namespace TaskSpecs

def projectedJson (tasks : Table ProjectedSpec) : Json :=
  .obj [("schema_version",.num 1),("tasks",Table.toJson (tasks.map fun _ item =>
    .obj [("revision",natJson item.revision),("spec",item.spec),("spec_sha256",.str item.specSha256)]))]

/-- `verify_replay`: the replayed TaskSpecs, which have to have the root of the current ones. -/
def verifyReplay (sha : Sha) (db : Db) : Result (Table ProjectedSpec) := do
  let current ← currentProjection sha db
  let replayed ← replay sha db.specRows
  require (sha256Json sha (projectedJson replayed.tasks) = sha256Json sha (projectedJson (projectionTasks current)))
    (.state "replayed TaskSpec projection does not match current StateStore projection")
  return replayed.tasks

end TaskSpecs

namespace StateStore

def authoritativeRoot (sha : Sha) (operational : Projection) (specs : Table TaskSpecs.ProjectedSpec) : String :=
  sha256Json sha (.obj [("operational",operational.toJson),("schema_version",.num 1),
    ("task_specs",TaskSpecs.projectedJson specs)])

def replayProjection (sha : Sha) (db : Db) : Result Projection := do
  let replayed ← replay sha db.baseEvents
  let specs ← TaskSpecs.verifyReplay sha db
  require (projectionRoot sha replayed = projectionRoot sha db.currentProjection)
    (.state "replayed state projection does not match the current StateStore projection")
  require (authoritativeRoot sha replayed specs = authoritativeRoot sha db.currentProjection specs)
    (.state "replayed authoritative projection does not match current StateStore projection")
  return replayed

def projectionRepairCandidate (sha : Sha) (db : Db) : Result RepairCandidate := do
  let _ ← TaskSpecs.verifyReplay sha db
  Bureau.projectionRepairCandidate sha db.baseEvents db.currentProjection

def findCheckpoint (sha : Sha) (candidateSha256 : String) : List EventRow → Result (Option EventRow)
  | [] => .ok none
  | row :: rest =>
    if row.eventType ≠ .projectionRepair then findCheckpoint sha candidateSha256 rest
    else do
      validateEvent sha .projectionRepair row.payload row.runId
      match row.payload with
      | .repair payload =>
        if payload.candidateSha256 ≠ candidateSha256 then findCheckpoint sha candidateSha256 rest
        else return some row
      | _ => findCheckpoint sha candidateSha256 rest

inductive RepairStatus where
  | applied | alreadyApplied
  deriving DecidableEq

structure RepairAuthority where
  reviewer : String
  reference : String
  reason : String
  deriving DecidableEq

def RepairAuthority.fields (authority : RepairAuthority) : List (String × String) :=
  [("reviewer",authority.reviewer),("reference",authority.reference),("reason",authority.reason)]

def checkpoint (candidate : RepairCandidate) (candidateSha256 : String) (authority : RepairAuthority) : Payload :=
  .repair ⟨candidate,candidateSha256,String.ofList (strip authority.reviewer),
    String.ofList (strip authority.reference),String.ofList (strip authority.reason)⟩

def applyProjectionRepair (sha : Sha) (candidateSha256 : String) (authority : RepairAuthority) (db : Db) :
    Result (RepairStatus × Db) := do
  require (validDigest candidateSha256) (.state "projection repair candidate digest is invalid")
  requireEach "projection repair" (fun s => !blank s && s.length ≤ 1000) authority.fields
  let _ ← TaskSpecs.verifyReplay sha db
  match ← findCheckpoint sha candidateSha256 db.baseEvents with
  | some _ =>
    let replayed ← replay sha db.baseEvents
    require (projectionRoot sha replayed = projectionRoot sha db.currentProjection)
      (.state "replayed state projection does not match the current StateStore projection")
    return (.alreadyApplied,db)
  | none =>
    let candidate ← Bureau.projectionRepairCandidate sha db.baseEvents db.currentProjection
    require (sha256Json sha candidate.toJson = candidateSha256)
      (.state "projection repair candidate changed before apply")
    let db ← db.insertEvent sha .projectionRepair (checkpoint candidate candidateSha256 authority) none none
    let replayed ← replay sha db.baseEvents
    let specs ← TaskSpecs.verifyReplay sha db
    require (projectionRoot sha replayed = projectionRoot sha db.currentProjection)
      (.state "projection repair did not restore the current StateStore projection")
    require (authoritativeRoot sha replayed specs = authoritativeRoot sha db.currentProjection specs)
      (.state "projection repair authoritative projection does not match current StateStore projection")
    return (.applied,db)

end StateStore

/-! The diff leads from the replayed table to the current one. -/

variable {a b : Table Json} {candidate : RepairCandidate}

theorem applyRepairEntries_filterMap {ids : List String} (hids : ids.Nodup) {t : Table Json}
    (ht : ∀ id ∈ ids, t[id]? = a[id]?) :
    ∃ t' : Table Json, applyRepairEntries (ids.filterMap fun id =>
        if a[id]? = b[id]? then none else some ⟨id,a[id]?,b[id]?⟩) t = .ok t' ∧
      ∀ id : String, t'[id]? = if id ∈ ids then b[id]? else t[id]? := by
  induction ids generalizing t with
  | nil => exact ⟨t,rfl,by simp⟩
  | cons first rest ih =>
    obtain ⟨hfirst,hrest⟩ := List.nodup_cons.mp hids
    have hread : t[first]? = a[first]? := ht first List.mem_cons_self
    by_cases hsame : a[first]? = b[first]?
    · obtain ⟨t',hok,hget⟩ := ih hrest fun id hid => ht id (List.mem_cons_of_mem _ hid)
      refine ⟨t',by simpa [hsame] using hok,fun id => ?_⟩
      rw [hget]
      by_cases hid : id = first
      · simp [hid,hfirst,hread,hsame]
      · simp [hid]
    · -- the first id differs, so its row is replaced before the others are
      have hkept : ∀ id ∈ rest, (Tables.applyChange t (first,b[first]?))[id]? = a[id]? := by
        intro id hid
        have hne : id ≠ first := by
          rintro rfl
          exact hfirst hid
        rw [Tables.get_applyChange,if_neg hne]
        exact ht id (List.mem_cons_of_mem _ hid)
      obtain ⟨t',hok,hget⟩ := ih hrest hkept
      refine ⟨t',?_,fun id => ?_⟩
      · simp only [List.filterMap_cons,if_neg hsame,applyRepairEntries,steps_ok,decide_eq_true_eq]
        exact ⟨(),hread,hok⟩
      · rw [hget,Tables.get_applyChange]
        by_cases hid : id = first
        · simp [hid,hfirst]
        · simp [hid]

@[simp] theorem applyRepairEntries_tableDiff (a b : Table Json) : applyRepairEntries (tableDiff a b) a = .ok b := by
  obtain ⟨t,hok,hget⟩ := applyRepairEntries_filterMap (a := a) (b := b) (Std.ExtTreeMap.nodup_keys (t := a ∪ b))
    (t := a) fun _ _ => rfl
  have hb : t = b := by
    refine Std.ExtTreeMap.ext_getElem? fun id => ?_
    rw [hget]
    split
    · rfl
    · rename_i hid
      rw [Std.ExtTreeMap.mem_keys,Std.ExtTreeMap.mem_union_iff,not_or] at hid
      rw [Std.ExtTreeMap.getElem?_eq_none hid.1,Std.ExtTreeMap.getElem?_eq_none hid.2]
  rw [hb] at hok
  exact hok

@[simp] theorem applyProjectionRepairDiff_projectionDiff (p q : Projection) :
    applyProjectionRepairDiff p (projectionDiff p q) = .ok q := by
  simp only [applyProjectionRepairDiff,projectionDiff,applyRepairEntries_tableDiff]
  rfl

/-! Tolerant replay. -/

section Replay

variable {sha : Sha} {tolerate : Bool} {st st' : ReplayState} {row : EventRow} {rows : List EventRow}

/-- The parts of a replayed state that the rows since the last repair determine. -/
structure ReplayState.Ordered (sha : Sha) (st : ReplayState) : Prop where
  mismatches : (st.pendingMismatches.map (·.eventId)).Pairwise (· < ·)
  segment : ∀ m ∈ st.pendingMismatches, ∃ last, st.segmentLastEventId = some last ∧ m.eventId ≤ last
  last : ∀ last, st.segmentLastEventId = some last → (last : ℤ) ≤ st.lastEventId
  anchor : ∀ previous, st.lastRepairEventId = some previous → (previous : ℤ) ≤ st.lastEventId ∧
    ∀ last, st.segmentLastEventId = some last → previous < last
  anchored : st.lastRepairEventId.isNone = st.lastRepairCandidateSha256.isNone
  digest : ∀ digest, st.lastRepairCandidateSha256 = some digest → validDigest digest = true
  roots : ∀ m ∈ st.pendingMismatches,
    validDigest m.storedRootSha256 = true ∧ ∃ p, m.observedRootSha256 = projectionRoot sha p

theorem ReplayState.Ordered.initial : ReplayState.initial.Ordered sha := by
  constructor <;> simp [ReplayState.initial]

/-- What a row does to the state: it joins the segment, perhaps with a mismatch, or it closes the segment. -/
inductive RowEffect (sha : Sha) (st : ReplayState) (row : EventRow) : ReplayState → Prop
  | join {st' : ReplayState} (more : List Mismatch) (type : row.isRepair = false)
    (segment : st'.segmentLastEventId = some row.eventId)
      (last : st'.lastEventId = row.eventId) (repair : st'.lastRepairEventId = st.lastRepairEventId)
      (digest : st'.lastRepairCandidateSha256 = st.lastRepairCandidateSha256)
      (pending : st'.pendingMismatches = st.pendingMismatches ++ more)
      (mismatch : ∀ m ∈ more, more = [m] ∧ m.eventId = row.eventId ∧ validDigest m.storedRootSha256 = true ∧
        ∃ p, m.observedRootSha256 = projectionRoot sha p)
      (baseline : st.baselineSeen = true → st'.baselineSeen = true) : RowEffect sha st row st'
  | close {st' : ReplayState} {payload : RepairPayload} (type : row.isRepair = true)
      (recorded : row.payload = .repair payload) (segment : st'.segmentLastEventId = none)
      (last : st'.lastEventId = row.eventId) (repair : st'.lastRepairEventId = some row.eventId)
      (digest : st'.lastRepairCandidateSha256 = some payload.candidateSha256)
      (valid : validDigest payload.candidateSha256 = true) (pending : st'.pendingMismatches = [])
      (previous : payload.candidate.previousRepairEventId = st.lastRepairEventId)
      (baseline : st.baselineSeen = true → st'.baselineSeen = true) : RowEffect sha st row st'

def EventRow.isProjection (row : EventRow) : Bool :=
  row.schemaVersion = 1 && row.eventType = .projection

inductive Projects (row : EventRow) (st : ReplayState) (root : String) : Projection → Prop
  | baseline {trigger : String} {p : Projection} (payload : row.payload = .baseline trigger p root)
      (first : st.baselineSeen = false) : Projects row st root p
  | delta {trigger : String} {changes : Changes} (payload : row.payload = .delta trigger changes root)
      (later : st.baselineSeen = true) : Projects row st root (applyDelta st.projection changes)

/-- The ways to replay a row. Only the comparison of a root depends on what is tolerated. -/
inductive RowCase (sha : Sha) (st : ReplayState) (row : EventRow) (st' : ReplayState) (tolerate : Bool) : Prop
  | skip (same : ∀ other, replayRow sha other st row = .ok st') (type : row.isRepair = false)
      (skipped : st' = st.skip sha row) (silent : row.isProjection = false)
  | check {mid : ReplayState} {root : String} (type : row.isRepair = false)
    (segment : mid.segmentLastEventId = some row.eventId)
      (last : mid.lastEventId = row.eventId) (repair : mid.lastRepairEventId = st.lastRepairEventId)
      (digest : mid.lastRepairCandidateSha256 = st.lastRepairCandidateSha256)
      (pending : mid.pendingMismatches = st.pendingMismatches) (baseline : mid.baselineSeen = true)
      (valid : validDigest root = true)
      (same : ∀ other, replayRow sha other st row = checkRoot sha other mid row.eventId root)
      (checked : checkRoot sha tolerate mid row.eventId root = .ok st') (recorded : row.isProjection = true)
      (projects : Projects row st root mid.projection)
  | close {payload : RepairPayload} (same : ∀ other, replayRow sha other st row = .ok st') (type : row.isRepair = true)
      (recorded : row.payload = .repair payload)
      (valid : validateEvent sha .projectionRepair row.payload row.runId = .ok ())
      (closed : replayRepair sha { st with lastEventId := row.eventId } row.eventId payload = .ok st')

theorem repair_of_validateEvent {payload : Payload} (h : validateEvent sha .projectionRepair payload runId = .ok ()) :
    ∃ repair, payload = .repair repair := by
  simp only [validateEvent,validateProjectionRepairEventPayload,bind_eq_ok] at h
  obtain ⟨_,_,_,_,_,_,_,_,h⟩ := h
  cases payload with
  | repair repair => exact ⟨repair,rfl⟩
  | plain | baseline | delta => simp [stateError] at h

theorem projection_of_validateEvent {payload : Payload} (h : validateEvent sha .projection payload runId = .ok ()) :
    (∃ trigger p root, payload = .baseline trigger p root ∧ validDigest root = true) ∨
      ∃ trigger changes root, payload = .delta trigger changes root ∧ validDigest root = true := by
  simp only [validateEvent,bind_eq_ok] at h
  obtain ⟨_,_,_,_,_,_,h⟩ := h
  cases payload with
  | baseline trigger p root =>
    simp only [validateProjectionEventPayload,steps_ok] at h
    obtain ⟨_,_,_,hroot,_⟩ := h
    exact .inl ⟨trigger,p,root,rfl,hroot⟩
  | delta trigger changes root =>
    simp only [validateProjectionEventPayload,steps_ok] at h
    obtain ⟨_,_,hroot⟩ := h
    exact .inr ⟨trigger,changes,root,rfl,hroot⟩
  | plain | repair => simp [validateProjectionEventPayload,stateError] at h

theorem replayRow_repair (tolerate : Bool) {payload : RepairPayload} (horder : st.lastEventId < row.eventId)
    (hschema : row.schemaVersion = 1) (htype : row.eventType = .projectionRepair)
    (hpayload : row.payload = .repair payload)
    (hvalid : validateEvent sha .projectionRepair row.payload row.runId = .ok ()) :
    replayRow sha tolerate st row =
      replayRepair sha { st with lastEventId := row.eventId } row.eventId payload := by
  obtain ⟨id,run,type,version,activity,document⟩ := row
  subst hschema htype hpayload
  simp only [replayRow,decide_eq_true horder,hvalid]
  rfl

theorem replayRow_cases (h : replayRow sha tolerate st row = .ok st') :
    st.lastEventId < row.eventId ∧ RowCase sha st row st' tolerate := by
  have horder : st.lastEventId < row.eventId := by
    simp only [replayRow,steps_ok,decide_eq_true_eq] at h
    obtain ⟨_,horder,_⟩ := h
    exact horder
  refine ⟨horder,?_⟩
  by_cases hold : row.schemaVersion = 0
  · have hskip : ∀ other, replayRow sha other st row = .ok (st.skip sha row) :=
      fun other => replayRow_unversioned horder hold
    obtain rfl := Except.ok.inj ((hskip tolerate).symm.trans h)
    exact .skip hskip (by simp [EventRow.isRepair,hold]) rfl (by simp [EventRow.isProjection,hold])
  · have hversion : row.schemaVersion = 1 := by
      simp only [replayRow,steps_ok,decide_eq_true_eq,if_neg hold] at h
      obtain ⟨_,_,_,hversion,_⟩ := h
      exact hversion
    have hvalid : validateEvent sha row.eventType row.payload row.runId = .ok () := by
      simp only [replayRow,steps_ok,decide_eq_true_eq,if_neg hold] at h
      obtain ⟨_,_,_,_,_,hvalid,_⟩ := h
      exact hvalid
    by_cases hrepair : row.eventType = .projectionRepair
    · rw [hrepair] at hvalid
      obtain ⟨payload,hpayload⟩ := repair_of_validateEvent hvalid
      have hsame := fun other => replayRow_repair other horder hversion hrepair hpayload hvalid
      rw [hsame] at h
      exact .close (fun other => (hsame other).trans h) (by simp [EventRow.isRepair,hversion,hrepair]) hpayload
        hvalid h
    · have hordinary : row.isRepair = false := by simp [EventRow.isRepair,hrepair]
      by_cases hprojection : row.eventType = .projection
      · have hrecorded : row.isProjection = true := by simp [EventRow.isProjection,hversion,hprojection]
        rw [hprojection] at hvalid
        rcases projection_of_validateEvent hvalid with
          ⟨trigger,p,root,hpayload,hroot⟩ | ⟨trigger,changes,root,hpayload,hroot⟩
        · have hbaseline : st.baselineSeen = false := by
            simp [replayRow,hversion,hprojection,hpayload,steps_ok] at h
            exact h.2.2.1
          have hsame := fun other =>
            replayRow_baseline other horder hversion hprojection hpayload hvalid hbaseline
          rw [hsame] at h
          refine .check hordinary ?_ ?_ ?_ ?_ ?_ ?_ hroot hsame h hrecorded (.baseline hpayload hbaseline) <;> rfl
        · have hbaseline : st.baselineSeen = true := by
            simp [replayRow,hversion,hprojection,hpayload,steps_ok] at h
            exact h.2.2.1
          have hsame := fun other =>
            replayRow_delta other horder hversion hprojection hpayload hvalid hbaseline
          rw [hsame] at h
          refine .check hordinary ?_ ?_ ?_ ?_ ?_ ?_ hroot hsame h hrecorded (.delta hpayload hbaseline)
          case refine_6 => exact hbaseline
          all_goals rfl
      · have hskip : ∀ other, replayRow sha other st row = .ok (st.skip sha row) :=
          fun other => replayRow_operational horder hversion hvalid hprojection hrepair
        obtain rfl := Except.ok.inj ((hskip tolerate).symm.trans h)
        exact .skip hskip hordinary rfl (by simp [EventRow.isProjection,hprojection])

theorem RowCase.effect (h : RowCase sha st row st' tolerate) :
    RowEffect sha st row st' := by
  cases h with
  | skip same type skipped =>
    subst skipped
    refine .join [] type rfl rfl rfl rfl ?_ (by simp) fun hbaseline => hbaseline
    simp [ReplayState.skip,ReplayState.extendSegment]
  | @check mid root type segment last repair digest pending baseline valid same checked =>
    rcases checkRoot_eq_ok.mp checked with ⟨_,rfl⟩ | ⟨_,_,rfl⟩
    · exact .join [] type segment last repair digest (by simp [pending]) (by simp) fun _ => baseline
    · exact .join [⟨row.eventId,root,projectionRoot sha mid.projection⟩] type segment last repair digest
        (by simp [pending]) (by simp [valid]) fun _ => baseline
  | @close payload same type recorded valid closed =>
    simp only [replayRepair,steps_ok,decide_eq_true_eq] at closed
    obtain ⟨_,hbaseline,first,hfirst,_,hprevious,_,_,_,_,_,_,_,_,_,_,_,_,_,_,_,_,_,_,_,_,_,_,rfl⟩ := closed
    rw [recorded] at valid
    simp only [validateEvent,validateProjectionRepairEventPayload,steps_ok,Bool.and_eq_true] at valid
    obtain ⟨_,_,_,_,_,_,_,_,_,_,_,hdigest,_⟩ := valid
    exact .close type recorded rfl rfl rfl rfl hdigest.1 rfl hprevious fun hseen => hseen

theorem replayRow_tolerant (h : replayRow sha tolerate st row = .ok st') : replayRow sha true st row = .ok st' := by
  obtain ⟨_,hcase⟩ := replayRow_cases h
  cases hcase with
  | skip same => exact same true
  | check type segment last repair digest pending baseline valid same checked =>
    rw [same,checkRoot_eq_ok]
    rcases checkRoot_eq_ok.mp checked with hok | ⟨hroot,_,hst⟩
    · exact .inl hok
    · exact .inr ⟨hroot,rfl,hst⟩
  | close same => exact same true

theorem replayRow_strict (h : replayRow sha true st row = .ok st') (hpending : st'.pendingMismatches = []) :
    replayRow sha tolerate st row = .ok st' := by
  obtain ⟨_,hcase⟩ := replayRow_cases h
  cases hcase with
  | skip same => exact same tolerate
  | check type segment last repair digest pending baseline valid same checked =>
    rw [same,checkRoot_eq_ok]
    rcases checkRoot_eq_ok.mp checked with hok | ⟨_,_,rfl⟩
    · exact .inl hok
    · simp at hpending
  | close same => exact same tolerate

theorem replayRows_tolerant (h : replayRows sha allow st rows = .ok st') :
    replayRows sha true st rows = .ok st' := by
  induction rows generalizing st with
  | nil => exact h
  | cons row rest ih =>
    simp only [replayRows,bind_eq_ok] at h ⊢
    obtain ⟨mid,hrow,hrest⟩ := h
    exact ⟨mid,by simpa using replayRow_tolerant hrow,ih hrest⟩

theorem pendingMismatches_kept (hrepair : rows.any EventRow.isRepair = false)
    (h : replayRows sha allow st rows = .ok st') : ∃ more, st'.pendingMismatches = st.pendingMismatches ++ more := by
  induction rows generalizing st with
  | nil =>
    obtain rfl := Except.ok.inj h
    exact ⟨[],by simp⟩
  | cons row rest ih =>
    simp only [List.any_cons,Bool.or_eq_false_iff] at hrepair
    simp only [replayRows,bind_eq_ok] at h
    obtain ⟨mid,hrow,hrest⟩ := h
    obtain ⟨later,hlater⟩ := ih hrepair.2 hrest
    obtain ⟨_,hcase⟩ := replayRow_cases hrow
    cases hcase.effect with
    | join more type segment last repair digest pending =>
      exact ⟨more ++ later,by rw [hlater,pending,List.append_assoc]⟩
    | close type =>
      rw [type] at hrepair
      cases hrepair.1

theorem replayRows_strict (h : replayRows sha true st rows = .ok st') (hpending : st'.pendingMismatches = []) :
    replayRows sha false st rows = .ok st' := by
  induction rows generalizing st with
  | nil => exact h
  | cons row rest ih =>
    simp only [replayRows,bind_eq_ok,Bool.true_or] at h
    obtain ⟨mid,hrow,hrest⟩ := h
    simp only [replayRows,bind_eq_ok,Bool.false_or]
    refine ⟨mid,?_,ih hrest⟩
    cases hrepair : rest.any EventRow.isRepair with
    | true => exact hrow
    | false =>
      obtain ⟨more,hmore⟩ := pendingMismatches_kept hrepair hrest
      rw [hpending] at hmore
      have hmid : mid.pendingMismatches = [] := by
        cases hnil : mid.pendingMismatches with
        | nil => rfl
        | cons => simp [hnil] at hmore
      exact replayRow_strict hrow hmid

theorem RowEffect.ordered (h : RowEffect sha st row st') (horder : st.lastEventId < row.eventId)
    (hst : st.Ordered sha) :
    st'.Ordered sha := by
  cases h with
  | join more type segment last repair digest pending mismatch =>
    have hearlier : ∀ m ∈ st.pendingMismatches, m.eventId < row.eventId := by
      intro m hm
      obtain ⟨bound,hbound,hle⟩ := hst.segment m hm
      have hlast := hst.last bound hbound
      omega
    refine ⟨?_,?_,?_,?_,?_,?_,?_⟩
    · rw [pending,List.map_append,List.pairwise_append]
      refine ⟨hst.mismatches,?_,?_⟩
      · cases more with
        | nil => simp
        | cons m rest =>
          obtain ⟨hsingle,_⟩ := mismatch m List.mem_cons_self
          simp [hsingle]
      · intro a ha b hb
        obtain ⟨m,hm,rfl⟩ := List.mem_map.mp ha
        obtain ⟨n,hn,rfl⟩ := List.mem_map.mp hb
        rw [(mismatch n hn).2.1]
        exact hearlier m hm
    · intro m hm
      rw [pending] at hm
      refine ⟨row.eventId,segment,?_⟩
      rcases List.mem_append.mp hm with hold | hnew
      · exact (hearlier m hold).le
      · exact (mismatch m hnew).2.1.le
    · intro bound hbound
      rw [segment,Option.some.injEq] at hbound
      rw [last,hbound]
    · intro previous hprevious
      rw [repair] at hprevious
      have hanchor := (hst.anchor previous hprevious).1
      refine ⟨by omega,fun bound hbound => ?_⟩
      rw [segment,Option.some.injEq] at hbound
      omega
    · rw [repair,digest]
      exact hst.anchored
    · rw [digest]
      exact hst.digest
    · intro m hm
      rw [pending] at hm
      rcases List.mem_append.mp hm with hold | hnew
      · exact hst.roots m hold
      · exact (mismatch m hnew).2.2
  | close type recorded segment last repair digest valid pending previous =>
    refine ⟨by simp [pending],by simp [pending],by simp [segment],?_,by simp [repair,digest],?_,by simp [pending]⟩
    · intro anchor hanchor
      rw [repair,Option.some.injEq] at hanchor
      exact ⟨by rw [last,hanchor],by simp [segment]⟩
    · intro found hfound
      rw [digest,Option.some.injEq] at hfound
      rw [← hfound]
      exact valid

/-- The repairs of a replayed journal name checkpoints before them; the last one is known. -/
def RepairsBefore (rows : List EventRow) (st : ReplayState) : Prop :=
  ∀ row ∈ rows, ∀ payload, row.payload = .repair payload → row.isRepair = true →
    (∃ last, st.lastRepairEventId = some last ∧ row.eventId ≤ last) ∧
      ∀ previous, payload.candidate.previousRepairEventId = some previous → previous < row.eventId

theorem replayRows_ordered (h : replayRows sha true .initial rows = .ok st) :
    st.Ordered sha ∧ RepairsBefore rows st := by
  induction rows using List.reverseRecOn generalizing st with
  | nil =>
    obtain rfl := Except.ok.inj h
    exact ⟨.initial,by simp [RepairsBefore]⟩
  | append_singleton rows row ih =>
    rw [replayRows_snoc (.inl rfl),bind_eq_ok] at h
    obtain ⟨mid,hrows,hrow⟩ := h
    obtain ⟨hmid,hrepairs⟩ := ih hrows
    obtain ⟨horder,hcase⟩ := replayRow_cases hrow
    have heffect := hcase.effect
    refine ⟨heffect.ordered horder hmid,?_⟩
    intro earlier hearlier payload hpayload hrepair
    cases heffect with
    | join more type segment last repair =>
      rcases List.mem_append.mp hearlier with hold | hnew
      · rw [repair]
        exact hrepairs earlier hold payload hpayload hrepair
      · rw [List.mem_singleton.mp hnew,type] at hrepair
        cases hrepair
    | @close recent type recorded segment last repair digest valid pending previous =>
      rcases List.mem_append.mp hearlier with hold | hnew
      · obtain ⟨⟨anchor,hanchor,hle⟩,hprevious⟩ := hrepairs earlier hold payload hpayload hrepair
        have hbefore := (hmid.anchor anchor hanchor).1
        exact ⟨⟨row.eventId,repair,by omega⟩,hprevious⟩
      · obtain rfl := List.mem_singleton.mp hnew
        obtain rfl : recent = payload := Payload.repair.inj (recorded.symm.trans hpayload)
        refine ⟨⟨earlier.eventId,repair,le_rfl⟩,fun anchor hanchor => ?_⟩
        rw [previous] at hanchor
        have hbefore := (hmid.anchor anchor hanchor).1
        omega

end Replay

/-! The candidate. -/

section Candidate

variable {sha : Sha} {st : ReplayState} {rows : List EventRow} {current : Projection}

theorem strictlyIncreasing_of_pairwise {ids : List ℕ} (h : ids.Pairwise (· < ·)) : strictlyIncreasing ids = true := by
  induction ids with
  | nil => rfl
  | cons first rest ih =>
    obtain ⟨hfirst,hrest⟩ := List.pairwise_cons.mp h
    cases rest with
    | nil => rfl
    | cons second others =>
      simp only [strictlyIncreasing,Bool.and_eq_true,decide_eq_true_eq]
      exact ⟨hfirst second List.mem_cons_self,ih hrest⟩

theorem validateProjectionRepairCandidate_iff (hsha : ∀ s, validDigest (sha s) = true) (hst : st.Ordered sha)
    {first : Mismatch} (hfirst : st.pendingMismatches.head? = some first)
    (hhorizon : st.segmentLastEventId = some horizon) :
    validateProjectionRepairCandidate sha (repairCandidate sha st current first horizon) = .ok () ↔
      (∀ e ∈ (projectionDiff st.projection current).entries, e.entity ≠ "") ∧
        (projectionDiff st.projection current).entries ≠ [] := by
  obtain ⟨rest,hpending⟩ : ∃ rest, st.pendingMismatches = first :: rest := by
    cases hlist : st.pendingMismatches with
    | nil => simp [hlist] at hfirst
    | cons m rest =>
      rw [hlist,List.head?_cons,Option.some.injEq] at hfirst
      exact ⟨rest,by rw [hfirst]⟩
  have hlast : st.pendingMismatches.getLast? = some (st.pendingMismatches.getLastD first) := by
    rw [hpending,List.getLastD_eq_getLast?,List.getLast?_cons]
    rfl
  have hmem : st.pendingMismatches.getLastD first ∈ st.pendingMismatches := List.mem_of_getLast? hlast
  have hbound : (st.pendingMismatches.getLastD first).eventId ≤ horizon := by
    obtain ⟨bound,hsegment,hle⟩ := hst.segment _ hmem
    rw [hhorizon,Option.some.injEq] at hsegment
    rw [hsegment]
    exact hle
  have hanchor : st.lastRepairEventId.all (· < horizon) = true := by
    cases hrepair : st.lastRepairEventId with
    | none => rfl
    | some previous => simpa using (hst.anchor previous hrepair).2 horizon hhorizon
  have hdigest : st.lastRepairCandidateSha256.all validDigest = true := by
    cases hsome : st.lastRepairCandidateSha256 with
    | none => rfl
    | some digest => exact hst.digest digest hsome
  obtain ⟨hstored,observed,hobserved⟩ := hst.roots first (by simp [hpending])
  have hsha' : ∀ document, validDigest (sha256Json sha document) = true := fun document => hsha _
  have hroot : ∀ p, validDigest (projectionRoot sha p) = true := fun p => hsha _
  have hids : (st.pendingMismatches.map (·.eventId)).head? = some first.eventId ∧
      (st.pendingMismatches.map (·.eventId)).getLast? = some (st.pendingMismatches.getLastD first).eventId ∧
      (st.pendingMismatches.map (·.eventId)).isEmpty = false := by
    refine ⟨by simp [hfirst],?_,by simp [hpending]⟩
    rw [List.getLast?_map,hlast,Option.map_some]
  simp only [validateProjectionRepairCandidate,repairCandidate,requireEach,steps_ok,hst.anchored,hdigest,
    hsha',hroot,hstored,hobserved,hids,strictlyIncreasing_of_pairwise hst.mismatches,hbound]
  simp
  exact fun _ _ => hanchor

end Candidate

/-! Every writer keeps the journal replayable, whatever the tables hold. -/

/-- The journal replays, perhaps with mismatches, and its repairs are of the current schema. -/
structure Db.Replayable (sha : Sha) (db : Db) : Prop where
  rows : ∃ st, replayRows sha true .initial db.baseEvents = .ok st ∧ st.baselineSeen = true ∧
    st.lastEventId < db.nextEventId
  repairs : ∀ row ∈ db.baseEvents, row.eventType = .projectionRepair → row.schemaVersion = 1

namespace Db.Replayable

variable {sha : Sha} {db db' : Db}

theorem congr (h : db.Replayable sha) (hevents : db'.events = db.events) (hnext : db'.nextEventId = db.nextEventId) :
    db'.Replayable sha := by
  refine ⟨?_,?_⟩
  · simpa only [Db.baseEvents,hevents,hnext] using h.rows
  · simpa only [Db.baseEvents,hevents] using h.repairs

theorem repairs_append (h : db.Replayable sha) (htype : row.eventType ≠ .taskSpecRevisionSet)
    (hschema : row.eventType = .projectionRepair → row.schemaVersion = 1) :
    ∀ other ∈ (db.extend [row]).baseEvents, other.eventType = .projectionRepair → other.schemaVersion = 1 := by
  intro other hother
  rw [Db.baseEvents_extend htype] at hother
  rcases List.mem_append.mp hother with hold | hnew
  · exact h.repairs other hold
  · exact List.mem_singleton.mp hnew ▸ hschema

theorem append (h : db.Replayable sha) (htype : row.eventType ≠ .taskSpecRevisionSet)
    (hid : row.eventId = db.nextEventId) (hschema : row.eventType = .projectionRepair → row.schemaVersion = 1)
    (hrow : ∀ st : ReplayState, st.baselineSeen = true → st.lastEventId < (row.eventId : ℤ) →
      ∃ st', replayRow sha true st row = .ok st') :
    (db.extend [row]).Replayable sha := by
  obtain ⟨st,hrows,hbaseline,hlast⟩ := h.rows
  obtain ⟨st',hst'⟩ := hrow st hbaseline (by rw [hid]; exact hlast)
  obtain ⟨_,hcase⟩ := replayRow_cases hst'
  have hafter : st'.baselineSeen = true ∧ st'.lastEventId = row.eventId := by
    cases hcase.effect with
    | join more type segment last repair digest pending mismatch baseline => exact ⟨baseline hbaseline,last⟩
    | close type recorded segment last repair digest valid pending previous baseline => exact ⟨baseline hbaseline,last⟩
  refine ⟨⟨st',?_,hafter.1,?_⟩,h.repairs_append htype hschema⟩
  · rw [Db.baseEvents_extend htype,replayRows_snoc (.inl rfl),hrows]
    exact hst'
  · rw [hafter.2,hid]
    exact Int.ofNat_lt.mpr (Nat.lt_succ_self _)

theorem of_replay (h : db.Replayable sha) (htype : row.eventType ≠ .taskSpecRevisionSet)
    (hid : row.eventId = db.nextEventId) (hschema : row.schemaVersion = 1)
    (hreplay : replay sha (db.extend [row]).baseEvents = .ok p) : (db.extend [row]).Replayable sha := by
  simp only [replay,replayInternal,steps_ok] at hreplay
  obtain ⟨_,⟨st,hrows,_,hbaseline,_⟩,_⟩ := hreplay
  have htolerant := replayRows_tolerant hrows
  refine ⟨⟨st,htolerant,hbaseline,?_⟩,h.repairs_append htype fun _ => hschema⟩
  rw [Db.baseEvents_extend htype,replayRows_snoc (.inl rfl),bind_eq_ok] at htolerant
  obtain ⟨mid,_,hrow⟩ := htolerant
  obtain ⟨_,hcase⟩ := replayRow_cases hrow
  have hlast : st.lastEventId = row.eventId := by
    cases hcase.effect with
    | join more type segment last => exact last
    | close type recorded segment last => exact last
  rw [hlast,hid]
  exact Int.ofNat_lt.mpr (Nat.lt_succ_self _)

theorem insertEvent (h : db.Replayable sha) {payload : Payload} (hrepair : eventType ≠ .projectionRepair)
    (hbaseline : ∀ trigger p root, payload ≠ .baseline trigger p root)
    (hinsert : db.insertEvent sha eventType payload runId activityId = .ok db') : db'.Replayable sha := by
  obtain ⟨hvalid,rfl⟩ := Db.insertEvent_eq_ok hinsert
  have htype : eventType ≠ .taskSpecRevisionSet := by
    rintro rfl
    simp [validateEvent,bind_eq_ok,EventType.known,require] at hvalid
  refine h.append htype rfl (fun _ => rfl) fun st hseen horder => ?_
  by_cases hprojection : eventType = .projection
  · subst hprojection
    rcases projection_of_validateEvent hvalid with ⟨trigger,p,root,hpayload,_⟩ | ⟨trigger,changes,root,rfl,_⟩
    · exact absurd hpayload (hbaseline trigger p root)
    · rw [replayRow_delta _ horder rfl rfl rfl hvalid hseen]
      by_cases hroot : projectionRoot sha (applyDelta st.projection changes) = root
      · exact ⟨_,checkRoot_eq_ok.mpr (.inl ⟨hroot,rfl⟩)⟩
      · exact ⟨_,checkRoot_eq_ok.mpr (.inr ⟨hroot,rfl,rfl⟩)⟩
  · exact ⟨_,replayRow_operational horder rfl hvalid hprojection hrepair⟩

theorem appendProjectionSnapshot (h : db.Replayable sha) {taskId : Option String}
    (happend : db.appendProjectionSnapshot sha trigger runId taskId initiativeId = .ok db') : db'.Replayable sha := by
  simp only [Db.appendProjectionSnapshot,bind_eq_ok] at happend
  obtain ⟨payload,hpayload,happend⟩ := happend
  cases payload with
  | none => exact pure_eq_ok.mp happend ▸ h
  | some payload =>
    refine h.insertEvent (by decide) (fun trigger p root heq => ?_) happend
    simp only [Db.deltaPayload] at hpayload
    split at hpayload
    · simp at hpayload
    · simp only [steps_ok,Option.some.injEq] at hpayload
      obtain ⟨_,_,hdelta⟩ := hpayload
      rw [← hdelta] at heq
      cases heq

theorem event (h : db.Replayable sha) {payload : Json} (hrepair : eventType ≠ .projectionRepair)
    (hevent : db.event sha eventType payload runId initiativeId activityId = .ok db') : db'.Replayable sha := by
  simp only [Db.event,bind_eq_ok] at hevent
  obtain ⟨mid,hinsert,hevent⟩ := hevent
  have hmid := h.insertEvent hrepair (by simp) hinsert
  split at hevent
  · exact hmid.appendProjectionSnapshot hevent
  · exact pure_eq_ok.mp hevent ▸ hmid

theorem runEvents (h : db.Replayable sha) {runId : String} {events : List (EventType × Json × Option String)}
    (hordinary : ∀ e ∈ events, e.1.ordinary = true) (hevents : db.runEvents sha runId events = .ok db') :
    db'.Replayable sha := by
  induction events generalizing db with
  | nil => exact Except.ok.inj hevents ▸ h
  | cons e rest ih =>
    simp only [Db.runEvents,bind_eq_ok] at hevents
    obtain ⟨mid,hevent,hrest⟩ := hevents
    have htype := (EventType.ordinary_eq_true.mp (hordinary e List.mem_cons_self)).1
    exact ih (h.event htype.2 hevent) (fun e he => hordinary e (List.mem_cons_of_mem _ he)) hrest

end Db.Replayable

theorem Move.replayable {db' : Db} (h : Move sha resources kind db db') (hreplayable : db.Replayable sha) :
    db'.Replayable sha := by
  cases h with
  | run write taskStatus incomplete recorded ordinary journal =>
    exact (hreplayable.congr write.events write.nextEventId).runEvents ordinary journal
  | complete write written taskStatus journal =>
    exact (hreplayable.congr write.events write.nextEventId).event (by decide) journal
  | issue journal => exact hreplayable.event (by decide) journal
  | expand write => exact hreplayable.congr write.events write.nextEventId
  | initiative journal =>
    refine Db.Replayable.event ?_ (by decide) journal
    exact hreplayable.congr rfl rfl
  | task journal =>
    simp only [Db.appendTaskProjectionDelta,bind_eq_ok] at journal
    obtain ⟨_,_,happend⟩ := journal
    refine Db.Replayable.appendProjectionSnapshot ?_ happend
    exact hreplayable.congr rfl rfl
  | spec =>
    obtain ⟨st,hrows,hbaseline,hlast⟩ := hreplayable.rows
    refine ⟨⟨st,by simpa [Db.baseEvents,setRevision] using hrows,hbaseline,?_⟩,?_⟩
    · exact hlast.trans (Int.ofNat_lt.mpr (Nat.lt_succ_self _))
    · simpa [Db.baseEvents,setRevision] using hreplayable.repairs
  | known => exact hreplayable.congr rfl rfl
  | quiet views taskStatus initiativeStatus specs events nextEventId => exact hreplayable.congr events nextEventId
  | normalize id schema ordinary =>
    have htype := EventType.ordinary_eq_true.mp ordinary
    refine Db.Replayable.append ?_ htype.2.2.1 id ?_ fun st _ horder => ⟨_,replayRow_unversioned horder schema⟩
    · exact hreplayable.congr rfl rfl
    · exact fun hrepair => absurd hrepair htype.1.2
  | @backfill _ taskId event drift recorded id schema replayed =>
    obtain ⟨p,hreplay⟩ := replayed
    have htype : event.eventType ≠ .taskSpecRevisionSet := by
      rcases recorded with htype | htype <;> simp [htype]
    exact hreplayable.of_replay htype id schema hreplay

/-! The checkpoint. -/

section Checkpoint

variable {sha : Sha} {st : ReplayState} {current : Projection}

theorem strip_sublist (s : String) : (strip s).Sublist s.toList := by
  unfold strip
  have hinner := (List.dropWhile_sublist (l := (s.toList.dropWhile isspace).reverse) isspace).reverse
  rw [List.reverse_reverse] at hinner
  exact hinner.trans (List.dropWhile_sublist isspace)

theorem mem_dropWhile {α : Type} {p : α → Bool} {l : List α} {a : α} (ha : a ∈ l) (hp : p a = false) :
    a ∈ l.dropWhile p := by
  rw [← List.takeWhile_append_dropWhile (p := p) (l := l)] at ha
  rcases List.mem_append.mp ha with htake | hdrop
  · rw [List.mem_takeWhile_imp htake] at hp
    cases hp
  · exact hdrop

theorem blank_strip {s : String} (h : blank s = false) : blank (String.ofList (strip s)) = false := by
  obtain ⟨c,hc,hspace⟩ : ∃ c ∈ s.toList, isspace c = false := by simpa [blank] using h
  have hstrip : c ∈ strip s := by
    rw [strip,List.mem_reverse]
    exact mem_dropWhile (List.mem_reverse.mpr (mem_dropWhile hc hspace)) hspace
  rw [blank,List.all_eq_false]
  exact ⟨c,by simpa using hstrip,by simp [hspace]⟩

@[simp] theorem requireEach_ok {α : Type} {subject : String} {ok : α → Bool} {values : List (String × α)} {u : Unit} :
    requireEach subject ok values = .ok u ↔ ∀ item ∈ values, ok item.2 = true := by
  induction values with
  | nil => simp [requireEach]
  | cons item rest ih =>
    simp only [requireEach,steps_ok,ih,List.forall_mem_cons]
    constructor
    · rintro ⟨_,hitem,hrest⟩
      exact ⟨hitem,hrest⟩
    · rintro ⟨hitem,hrest⟩
      exact ⟨(),hitem,hrest⟩

namespace StateStore

/-- The texts `apply_projection_repair` accepts. -/
def RepairAuthority.valid (authority : RepairAuthority) : Prop :=
  ∀ item ∈ authority.fields, (!blank item.2 && item.2.length ≤ 1000) = true

theorem validateEvent_checkpoint (hsha : ∀ s, validDigest (sha s) = true) {candidate : RepairCandidate}
    (hcandidate : validateProjectionRepairCandidate sha candidate = .ok ()) {authority : RepairAuthority}
    (hauthority : authority.valid) :
    validateEvent sha .projectionRepair (checkpoint candidate (sha256Json sha candidate.toJson) authority) none =
      .ok () := by
  have htext : ∀ s, (!blank s && s.length ≤ 1000) = true →
      (!blank (String.ofList (strip s)) && (String.ofList (strip s)).length ≤ 1000) = true := by
    intro s hs
    simp only [Bool.and_eq_true,Bool.not_eq_true',decide_eq_true_eq] at hs ⊢
    have hlength := (strip_sublist s).length_le
    rw [String.length_ofList]
    exact ⟨blank_strip hs.1,hlength.trans hs.2⟩
  simp only [RepairAuthority.valid,RepairAuthority.fields,List.forall_mem_cons] at hauthority
  have hdigest : validDigest (sha256Json sha candidate.toJson) = true := hsha _
  simp only [validateEvent,checkpoint,validateProjectionRepairEventPayload,steps_ok,requireEach_ok,
    List.forall_mem_cons]
  refine ⟨(),rfl,(),rfl,(),by simp,(),rfl,(),hcandidate,(),by simp [hdigest],?_⟩
  exact ⟨htext _ hauthority.1,htext _ hauthority.2.1,htext _ hauthority.2.2.1,by simp⟩

/-- The checkpoint takes the replayed projection to the current tables and leaves no mismatch. -/
theorem replayRow_checkpoint (hst : st.baselineSeen = true) {first : Mismatch}
    (hfirst : st.pendingMismatches.head? = some first) (hhorizon : st.segmentLastEventId = some horizon)
    (horder : st.lastEventId < eventId) {authority : RepairAuthority}
    (hvalid : validateEvent sha .projectionRepair
      (checkpoint (repairCandidate sha st current first horizon) candidateSha256 authority) none = .ok ()) :
    ∃ st', replayRow sha true st ⟨eventId,none,.projectionRepair,1,none,
        checkpoint (repairCandidate sha st current first horizon) candidateSha256 authority⟩ = .ok st' ∧
      st'.projection = current ∧ st'.pendingMismatches = [] ∧ st'.baselineSeen = true := by
  rw [replayRow_repair _ horder rfl rfl rfl hvalid]
  simp only [replayRepair,steps_ok,decide_eq_true_eq]
  refine ⟨_,⟨(),hst,first,hfirst,(),rfl,(),rfl,horizon,hhorizon,(),rfl,(),rfl,(),rfl,(),rfl,(),rfl,(),rfl,(),by
    simp [repairCandidate],current,applyProjectionRepairDiff_projectionDiff _ _,(),rfl,rfl⟩,rfl,rfl,hst⟩

end StateStore

end Checkpoint

theorem projectionRepairCandidate_eq_ok (hsha : ∀ s, validDigest (sha s) = true)
    (hrows : replayInternal sha true rows = .ok st) (hst : st.Ordered sha) {current : Projection} :
    projectionRepairCandidate sha rows current = .ok candidate ↔
      ∃ first horizon, st.pendingMismatches.head? = some first ∧ st.segmentLastEventId = some horizon ∧
        (projectionDiff st.projection current).entries ≠ [] ∧
        (∀ e ∈ (projectionDiff st.projection current).entries, e.entity ≠ "") ∧
        candidate = repairCandidate sha st current first horizon := by
  simp only [projectionRepairCandidate,hrows,steps_ok,Except.ok.injEq]
  constructor
  · rintro ⟨_,rfl,first,hfirst,_,_,horizon,hhorizon,_,hvalid,rfl⟩
    obtain ⟨hids,hdiff⟩ := (validateProjectionRepairCandidate_iff hsha hst hfirst hhorizon).mp hvalid
    exact ⟨first,horizon,hfirst,hhorizon,hdiff,hids,rfl⟩
  · rintro ⟨first,horizon,hfirst,hhorizon,hdiff,hids,rfl⟩
    have hvalid := (validateProjectionRepairCandidate_iff hsha hst hfirst hhorizon).mpr ⟨hids,hdiff⟩
    exact ⟨st,rfl,first,hfirst,(),by simpa using hdiff,horizon,hhorizon,(),hvalid,rfl⟩

structure Db.Auditable (sha : Sha) (db : Db) : Prop where
  journal : db.Replayable sha
  specs : db.SpecLedger sha
  replays : ∃ st, db.SpecReplays sha st

namespace Db.Auditable

variable {sha : Sha} {db db' : Db}

theorem fresh (hsha : ∀ s, validDigest (sha s) = true) : (Db.fresh sha).Auditable sha := by
  refine ⟨⟨?_,?_⟩,.fresh sha,_,.fresh sha⟩
  · obtain ⟨st,hrows,hbaseline,_,_,hlast⟩ := Db.fresh_synced hsha
    exact ⟨st,replayRows_tolerant hrows,hbaseline,hlast⟩
  · simp [Db.baseEvents,Db.fresh]

theorem move (h : db.Auditable sha) (hmove : Move sha resources kind db db') :
    db'.Auditable sha := by
  obtain ⟨st,hreplays⟩ := h.replays
  exact ⟨hmove.replayable h.journal,h.specs.effect hmove.specEffect,hmove.specEffect.replays h.specs hreplays⟩

theorem congr (h : db.Auditable sha) (hevents : db'.events = db.events) (hnext : db'.nextEventId = db.nextEventId)
    (hspecs : db'.specs = db.specs) : db'.Auditable sha := by
  obtain ⟨st,hreplays⟩ := h.replays
  refine ⟨h.journal.congr hevents hnext,h.specs.congr hspecs,st,hreplays.congr ?_ hspecs hnext.ge⟩
  rw [Db.specRows,hevents,Db.specRows]

theorem extend (h : db.Auditable sha) (htype : row.eventType ≠ .taskSpecRevisionSet)
    (hjournal : (db.extend [row]).Replayable sha) : (db.extend [row]).Auditable sha := by
  obtain ⟨st,hreplays⟩ := h.replays
  have hrows : (db.extend [row]).specRows = db.specRows :=
    Db.specRows_extend_of_ne db fun other hother => List.mem_singleton.mp hother ▸ htype
  exact ⟨hjournal,h.specs.congr rfl,st,hreplays.congr hrows rfl (Nat.le_add_right _ _)⟩

theorem verifyReplay (h : db.Auditable sha) : ∃ specs, TaskSpecs.verifyReplay sha db = .ok specs := by
  obtain ⟨st,hreplays⟩ := h.replays
  obtain ⟨specs,hspecs,htasks⟩ := replays_currentProjection h.specs hreplays
  refine ⟨st.tasks,?_⟩
  simp only [TaskSpecs.verifyReplay,steps_ok]
  exact ⟨specs,hspecs,st,hreplays.rows,(),by simp [htasks],rfl⟩

theorem replayInternal (h : db.Auditable sha) : ∃ st, replayInternal sha true db.baseEvents = .ok st ∧
    replayRows sha true .initial db.baseEvents = .ok st ∧ st.baselineSeen = true ∧
    st.lastEventId < db.nextEventId ∧ st.Ordered sha ∧ RepairsBefore db.baseEvents st := by
  obtain ⟨st,hrows,hbaseline,hlast⟩ := h.journal.rows
  obtain ⟨hordered,hrepairs⟩ := replayRows_ordered hrows
  refine ⟨st,?_,hrows,hbaseline,hlast,hordered,hrepairs⟩
  simp only [Bureau.replayInternal,steps_ok]
  exact ⟨st,hrows,(),hbaseline,(),rfl,rfl⟩

end Db.Auditable

theorem validateEvent_of_replayRows {st' : ReplayState} (h : replayRows sha allow st rows = .ok st')
    (hrow : row ∈ rows) (hrepair : row.isRepair = true) :
    validateEvent sha .projectionRepair row.payload row.runId = .ok () := by
  induction rows generalizing st with
  | nil => simp at hrow
  | cons first rest ih =>
    simp only [replayRows,bind_eq_ok] at h
    obtain ⟨mid,hfirst,hrest⟩ := h
    rcases List.mem_cons.mp hrow with rfl | hlater
    · obtain ⟨_,hcase⟩ := replayRow_cases hfirst
      cases hcase with
      | skip same type =>
        rw [type] at hrepair
        cases hrepair
      | check type =>
        rw [type] at hrepair
        cases hrepair
      | close same type recorded valid => exact valid
    · exact ih hrest hlater

theorem candidateSha256_of_validateEvent {payload : RepairPayload}
    (h : validateEvent sha .projectionRepair (.repair payload) runId = .ok ()) :
    payload.candidateSha256 = sha256Json sha payload.candidate.toJson := by
  simp only [validateEvent,validateProjectionRepairEventPayload,steps_ok,Bool.and_eq_true,
    decide_eq_true_eq] at h
  obtain ⟨_,_,_,_,_,_,_,_,_,_,_,hdigest,_⟩ := h
  exact hdigest.2.symm

namespace StateStore

theorem findCheckpoint_eq_none
    (hvalid : ∀ row ∈ rows, row.eventType = .projectionRepair →
      validateEvent sha .projectionRepair row.payload row.runId = .ok ())
    (hother : ∀ row ∈ rows, row.eventType = .projectionRepair → ∀ payload, row.payload = .repair payload →
      payload.candidateSha256 ≠ candidateSha256) : findCheckpoint sha candidateSha256 rows = .ok none := by
  induction rows with
  | nil => rfl
  | cons row rest ih =>
    have hrest := ih (fun other hmem => hvalid other (List.mem_cons_of_mem _ hmem))
      fun other hmem => hother other (List.mem_cons_of_mem _ hmem)
    rw [findCheckpoint]
    by_cases hrepair : row.eventType = .projectionRepair
    · have hchecked := hvalid row List.mem_cons_self hrepair
      obtain ⟨payload,hpayload⟩ := repair_of_validateEvent hchecked
      have hne := hother row List.mem_cons_self hrepair payload hpayload
      rw [hpayload] at hchecked ⊢
      simp only [hrepair,ne_eq,not_true,if_false,hchecked,hne,not_false_eq_true,if_true,hrest]
      rfl
    · simp only [ne_eq,hrepair,not_false_eq_true,if_true,hrest]

end StateStore

/-- The candidate has no checkpoint yet: it names the last repair, and every repair names an earlier one. -/
theorem Db.findCheckpoint_eq_none
    (hrepairs : ∀ row ∈ db.baseEvents, row.eventType = .projectionRepair → row.schemaVersion = 1)
    (hrows : replayRows sha true .initial db.baseEvents = .ok st)
    (hprevious : candidate.previousRepairEventId = st.lastRepairEventId)
    (hcollision : ∀ row ∈ db.events, ∀ payload, row.payload = .repair payload →
      sha256Json sha payload.candidate.toJson = sha256Json sha candidate.toJson → payload.candidate = candidate) :
    StateStore.findCheckpoint sha (sha256Json sha candidate.toJson) db.baseEvents = .ok none := by
  have hrepair : ∀ row ∈ db.baseEvents, row.eventType = .projectionRepair → row.isRepair = true := by
    intro row hrow htype
    simp [EventRow.isRepair,htype,hrepairs row hrow htype]
  refine StateStore.findCheckpoint_eq_none ?_ ?_
  · exact fun row hrow htype => validateEvent_of_replayRows hrows hrow (hrepair row hrow htype)
  · intro row hrow htype payload hpayload hsame
    have hvalid := validateEvent_of_replayRows hrows hrow (hrepair row hrow htype)
    rw [hpayload] at hvalid
    rw [candidateSha256_of_validateEvent hvalid] at hsame
    obtain rfl := hcollision row (List.mem_of_mem_filter hrow) payload hpayload hsame
    obtain ⟨⟨last,hlast,hle⟩,hbefore⟩ :=
      (replayRows_ordered hrows).2 row hrow payload hpayload (hrepair row hrow htype)
    have hlt := hbefore last (hprevious.trans hlast)
    omega

theorem TaskSpecs.verifyReplay_extend (htype : row.eventType ≠ .taskSpecRevisionSet) :
    verifyReplay sha (db.extend [row]) = verifyReplay sha db := by
  have hrows : (db.extend [row]).specRows = db.specRows :=
    Db.specRows_extend_of_ne db fun other hother => List.mem_singleton.mp hother ▸ htype
  simp only [verifyReplay,hrows]
  rfl

theorem StateStore.projectionRepairCandidate_eq_ok
    (h : StateStore.projectionRepairCandidate sha db = .ok candidate) :
    (∃ specs, verifyReplay sha db = .ok specs) ∧
      Bureau.projectionRepairCandidate sha db.baseEvents db.currentProjection = .ok candidate ∧
      ∃ st first horizon, replayInternal sha true db.baseEvents = .ok st ∧
        replayRows sha true .initial db.baseEvents = .ok st ∧ st.baselineSeen = true ∧ st.Ordered sha ∧
        st.pendingMismatches.head? = some first ∧ st.segmentLastEventId = some horizon ∧
        validateProjectionRepairCandidate sha candidate = .ok () ∧
        candidate = repairCandidate sha st db.currentProjection first horizon := by
  simp only [StateStore.projectionRepairCandidate,bind_eq_ok] at h
  obtain ⟨specs,hspecs,hcandidate⟩ := h
  refine ⟨⟨specs,hspecs⟩,hcandidate,?_⟩
  simp only [Bureau.projectionRepairCandidate,steps_ok] at hcandidate
  obtain ⟨st,hinternal,first,hfirst,_,_,horizon,hhorizon,_,hvalid,rfl⟩ := hcandidate
  have hparts := hinternal
  simp only [replayInternal,steps_ok] at hparts
  obtain ⟨_,hrows,_,hbaseline,_,_,rfl⟩ := hparts
  exact ⟨_,first,horizon,hinternal,hrows,hbaseline,(replayRows_ordered hrows).1,hfirst,hhorizon,hvalid,rfl⟩

theorem Db.applyProjectionRepair_of_candidate (hsha : ∀ s, validDigest (sha s) = true)
    (hlast : ∀ st, replayRows sha true .initial db.baseEvents = .ok st → st.lastEventId < db.nextEventId)
    (hrepairs : ∀ row ∈ db.baseEvents, row.eventType = .projectionRepair → row.schemaVersion = 1)
    (hcandidate : StateStore.projectionRepairCandidate sha db = .ok candidate)
    (hcollision : ∀ row ∈ db.events, ∀ payload, row.payload = .repair payload →
      sha256Json sha payload.candidate.toJson = sha256Json sha candidate.toJson → payload.candidate = candidate)
    {authority : StateStore.RepairAuthority} (hauthority : authority.valid) :
    ∃ row, row.isRepair = true ∧
      StateStore.applyProjectionRepair sha (sha256Json sha candidate.toJson) authority db =
        .ok (.applied,db.extend [row]) ∧
      StateStore.replayProjection sha (db.extend [row]) = .ok db.currentProjection := by
  obtain ⟨⟨specs,hspecs⟩,hcomputed,st,first,horizon,_,hrows,hbaseline,_,hfirst,hhorizon,hchecked,rfl⟩ :=
    StateStore.projectionRepairCandidate_eq_ok hcandidate
  have hvalid := StateStore.validateEvent_checkpoint hsha hchecked hauthority
  obtain ⟨st',hrow,hprojection,hpending,hseen⟩ :=
    StateStore.replayRow_checkpoint hbaseline hfirst hhorizon (hlast st hrows) hvalid
  let row : EventRow := ⟨db.nextEventId,none,.projectionRepair,1,none,
    StateStore.checkpoint (repairCandidate sha st db.currentProjection first horizon)
      (sha256Json sha (repairCandidate sha st db.currentProjection first horizon).toJson) authority⟩
  have hreplay : replay sha (db.extend [row]).baseEvents = .ok db.currentProjection := by
    have hall : replayRows sha true .initial (db.extend [row]).baseEvents = .ok st' := by
      rw [Db.baseEvents_extend (by simp [row]),replayRows_snoc (.inl rfl),hrows]
      exact hrow
    simp only [replay,Bureau.replayInternal,steps_ok]
    exact ⟨st',⟨st',replayRows_strict hall hpending,(),hseen,(),by simp [hpending],rfl⟩,hprojection⟩
  have hlater : verifyReplay sha (db.extend [row]) = .ok specs := by
    rw [verifyReplay_extend (by simp [row])]
    exact hspecs
  have hnone := db.findCheckpoint_eq_none hrepairs hrows rfl hcollision
  have hinsert : db.insertEvent sha .projectionRepair row.payload none none = .ok (db.extend [row]) := by
    simp only [Db.insertEvent,steps_ok]
    exact ⟨(),hvalid,(),rfl,rfl⟩
  have hdigest : validDigest (sha256Json sha (repairCandidate sha st db.currentProjection first horizon).toJson) =
    true :=
    hsha _
  refine ⟨row,rfl,?_,?_⟩
  · simp only [StateStore.applyProjectionRepair,steps_ok,requireEach_ok]
    refine ⟨(),hdigest,(),hauthority,specs,hspecs,none,hnone,?_⟩
    simp only [steps_ok,decide_eq_true_eq]
    exact ⟨_,hcomputed,(),rfl,_,hinsert,_,hreplay,specs,hlater,(),rfl,(),rfl,rfl⟩
  · simp only [StateStore.replayProjection,steps_ok,decide_eq_true_eq]
    exact ⟨_,hreplay,specs,hlater,(),rfl,(),rfl,rfl⟩

/-! Runs of the writers with unjournaled changes in between. -/

/-- Contents of the projected tables. A reservation belongs to a run. -/
structure ProjectedTables where
  runs : Table RunRow
  reservations : Table (Table Hold)
  taskStatus : Table TaskStatusRow
  initiativeStatus : Table InitiativeStatusRow
  receipts : Table ReceiptRow
  reserved : ∀ runId : String, reservations[runId]?.getD ∅ ≠ ∅ → (runs[runId]?).isSome = true

/-- What may happen to a store: a shipped writer, a direct change of projected rows, a repair. -/
inductive StoreInput where
  | write (writer : Writer)
  | drift (tables : ProjectedTables)
  | repair (candidateSha256 : String) (authority : StateStore.RepairAuthority)

def StoreInput.step (E : Env) (K : Contracts) (db : Db) : StoreInput → Db
  | .write writer => writer.step E K db
  | .drift tables => { db with
      runs := tables.runs
      reservations := tables.reservations
      taskStatus := tables.taskStatus
      initiativeStatus := tables.initiativeStatus
      receipts := tables.receipts }
  | .repair candidateSha256 authority =>
    commit db ((StateStore.applyProjectionRepair E.sha candidateSha256 authority db).map Prod.snd)

theorem Db.Auditable.step {E : Env} {K : Contracts} (h : db.Auditable E.sha) (input : StoreInput) :
    (input.step E K db).Auditable E.sha := by
  cases input with
  | write writer =>
    have hreach : Reach (Writer.step E K) (fun _ _ => True) db (writer.step E K db) := .step .init trivial
    refine Reach.invariant (P := fun db => db.Auditable E.sha) h ?_ (Writer.reach_operations hreach)
    exact fun _ op hop _ => step_invariant (fun _ _ _ hmove hop => hop.move hmove) hop op.planned_self
  | drift tables => exact h.congr rfl rfl rfl
  | repair candidateSha256 authority =>
    refine commit_preserves h fun db' hdb' => ?_
    obtain ⟨status,hrepair⟩ := map_snd_eq_ok.mp hdb'
    simp only [StateStore.applyProjectionRepair,bind_eq_ok] at hrepair
    obtain ⟨_,_,_,_,_,_,found,_,hrepair⟩ := hrepair
    cases found with
    | some row =>
      simp only [steps_ok,Prod.mk.injEq] at hrepair
      obtain ⟨_,_,_,_,_,rfl⟩ := hrepair
      exact h
    | none =>
      simp only [steps_ok,Prod.mk.injEq] at hrepair
      obtain ⟨candidate,_,_,_,written,hinsert,_,hreplay,_,_,_,_,_,_,_,rfl⟩ := hrepair
      obtain ⟨_,rfl⟩ := Db.insertEvent_eq_ok hinsert
      exact h.extend (by simp [Db.nextRow]) (h.journal.of_replay (by simp [Db.nextRow]) rfl rfl hreplay)

@[simp] theorem tableDiff_eq_nil : tableDiff a b = [] ↔ a = b := by
  constructor
  · intro hnil
    have happly := applyRepairEntries_tableDiff a b
    rw [hnil] at happly
    exact Except.ok.inj happly
  · rintro rfl
    simp [tableDiff]

@[simp] theorem projectionDiff_entries_eq_nil {q : Projection} : (projectionDiff p q).entries = [] ↔ p = q := by
  obtain ⟨tasks,initiatives,claims,runs,acceptances⟩ := p
  obtain ⟨tasks',initiatives',claims',runs',acceptances'⟩ := q
  simp only [ProjectionDiff.entries,projectionDiff,List.append_eq_nil_iff,tableDiff_eq_nil,Projection.mk.injEq,
    and_assoc]

/-- When a store can be repaired: its journal has an unrepaired root mismatch, the replayed tables differ
from the current ones, and no row that differs has an empty id. -/
def Db.Repairable (sha : Sha) (db : Db) : Prop :=
  ∃ st, replayInternal sha true db.baseEvents = .ok st ∧ st.pendingMismatches ≠ [] ∧
    st.projection ≠ db.currentProjection ∧
    ∀ e ∈ (projectionDiff st.projection db.currentProjection).entries, e.entity ≠ ""

theorem Db.Auditable.projectionRepairCandidate_iff (h : db.Auditable sha) (hsha : ∀ s, validDigest (sha s) = true) :
    (∃ candidate, StateStore.projectionRepairCandidate sha db = .ok candidate) ↔ db.Repairable sha := by
  obtain ⟨st,hinternal,_,_,_,hordered,_⟩ := h.replayInternal
  obtain ⟨specs,hspecs⟩ := h.verifyReplay
  simp only [StateStore.projectionRepairCandidate,hspecs,bind_eq_ok,Except.ok.injEq,exists_eq_left',
    projectionRepairCandidate_eq_ok hsha hinternal hordered]
  constructor
  · rintro ⟨_,first,horizon,hfirst,_,hdiff,hids,_⟩
    refine ⟨st,hinternal,?_,fun heq => hdiff (projectionDiff_entries_eq_nil.mpr heq),hids⟩
    intro hnil
    simp [hnil] at hfirst
  · rintro ⟨st',hinternal',hpending,hne,hids⟩
    obtain rfl := Except.ok.inj (hinternal.symm.trans hinternal')
    obtain ⟨first,rest,hlist⟩ := List.exists_cons_of_ne_nil hpending
    obtain ⟨horizon,hhorizon,_⟩ := hordered.segment first (by simp [hlist])
    exact ⟨_,first,horizon,by simp [hlist],hhorizon,fun hnil => hne (projectionDiff_entries_eq_nil.mp hnil),hids,rfl⟩

/-- Repair over every run of the writers with unjournaled changes of the projected tables and with repairs
in between. A candidate is returned exactly if the store is repairable; applying the candidate appends one
row, changes no table, and strict replay then gives the current tables. -/
theorem projection_repair_restores {E : Env} {K : Contracts} (hsha : ∀ s, validDigest (E.sha s) = true) {db : Db}
    (h : Reach (StoreInput.step E K) (fun _ _ => True) (Db.fresh E.sha) db) :
    ((∃ candidate, StateStore.projectionRepairCandidate E.sha db = .ok candidate) ↔ db.Repairable E.sha) ∧
      ∀ candidate, StateStore.projectionRepairCandidate E.sha db = .ok candidate →
        (∀ row ∈ db.events, ∀ payload, row.payload = .repair payload →
          sha256Json E.sha payload.candidate.toJson = sha256Json E.sha candidate.toJson →
            payload.candidate = candidate) →
        ∀ authority : StateStore.RepairAuthority, authority.valid →
          ∃ row, StateStore.applyProjectionRepair E.sha (sha256Json E.sha candidate.toJson) authority db =
              .ok (.applied,db.extend [row]) ∧
            StateStore.replayProjection E.sha (db.extend [row]) = .ok (db.extend [row]).currentProjection := by
  have haudit : db.Auditable E.sha :=
    Reach.invariant (P := fun db => db.Auditable E.sha) (.fresh hsha) (fun _ input hbefore _ => hbefore.step input) h
  refine ⟨haudit.projectionRepairCandidate_iff hsha,fun candidate hcandidate hcollision authority hauthority => ?_⟩
  obtain ⟨st,hrows,_,hlast⟩ := haudit.journal.rows
  obtain ⟨row,_,hrepaired⟩ := Db.applyProjectionRepair_of_candidate hsha
    (fun other hother => Except.ok.inj (hrows.symm.trans hother) ▸ hlast) haudit.journal.repairs hcandidate hcollision
    hauthority
  exact ⟨row,hrepaired⟩

namespace Sample

def sizeSha : Sha := fun s =>
  if s.utf8ByteSize % 2 = 0 then "e3b0c44298fc1c149afbf4c8996fb92427ae41e4649b934ca495991b7852b855"
  else "8ef76c7a95b45f68f3d2886d91aad7f5c7993b8b5b8c73a41944651962ffddcb"

def sizeEnv : Env := { env with sha := sizeSha }

def driftInitiative (id state : String) : StoreInput :=
  .drift ⟨∅,∅,∅,Std.ExtTreeMap.ofList [(id,InitiativeStatusRow.mk state 2)],∅,by simp⟩

def initiativeSet (now : Time) (id state : String) : StoreInput :=
  .write (.operate (.setInitiativeState now id state))

def audited (inputs : List StoreInput) : Db :=
  run (StoreInput.step sizeEnv contracts) (Db.fresh sizeEnv.sha) inputs

def drifted : List StoreInput :=
  [initiativeSet 1 "A" "active",driftInitiative "A" "waiting",initiativeSet 3 "B" "active"]

def healed : List StoreInput := drifted ++ [initiativeSet 4 "A" "blocked"]

theorem audited_reach (inputs : List StoreInput) :
    Reach (StoreInput.step sizeEnv contracts) (fun _ _ => True) (Db.fresh sizeEnv.sha) (audited inputs) :=
  Reach.run fun _ _ _ => trivial

theorem validDigest_sizeSha (s : String) : validDigest (sizeEnv.sha s) = true := by
  change validDigest (sizeSha s) = true
  unfold sizeSha
  split <;> decide +kernel

theorem drifted_repairable : (audited drifted).Repairable sizeEnv.sha := by
  have hreplayed : ((replayInternal sizeEnv.sha true (audited drifted).baseEvents).toOption.any fun st =>
      st.pendingMismatches ≠ [] && st.projection ≠ (audited drifted).currentProjection &&
        (projectionDiff st.projection (audited drifted).currentProjection).entries.all (·.entity ≠ "")) = true := by
    decide +kernel
  simp only [Option.any_eq_true,toOption_eq_some,Bool.and_eq_true,decide_eq_true_eq,List.all_eq_true] at hreplayed
  obtain ⟨st,hst,⟨hpending,hdrift⟩,hids⟩ := hreplayed
  exact ⟨st,hst,hpending,hdrift,hids⟩

theorem drifted_events : ∀ row ∈ (audited drifted).events, row.eventId < (audited drifted).nextEventId ∧
    row.eventType ≠ .projectionRepair ∧ ∀ payload, row.payload ≠ .repair payload := by
  have hplain : ((audited drifted).events.all fun row => row.eventId < (audited drifted).nextEventId &&
      row.eventType ≠ .projectionRepair && !(row.payload matches .repair _)) = true := by
    decide +kernel
  intro row hrow
  have hchecked := List.all_eq_true.mp hplain row hrow
  simp only [Bool.and_eq_true,decide_eq_true_eq] at hchecked
  refine ⟨hchecked.1.1,hchecked.1.2,fun payload hpayload => ?_⟩
  simp [hpayload] at hchecked

end Sample

theorem projection_repair_restores_drifted : ∃ candidate row,
    StateStore.projectionRepairCandidate Sample.sizeEnv.sha (Sample.audited Sample.drifted) = .ok candidate ∧
      StateStore.applyProjectionRepair Sample.sizeEnv.sha (sha256Json Sample.sizeEnv.sha candidate.toJson)
        ⟨"operator","test-repair-1","drift"⟩ (Sample.audited Sample.drifted) =
          .ok (.applied,(Sample.audited Sample.drifted).extend [row]) ∧
      StateStore.replayProjection Sample.sizeEnv.sha ((Sample.audited Sample.drifted).extend [row]) =
        .ok ((Sample.audited Sample.drifted).extend [row]).currentProjection := by
  obtain ⟨hiff,hrepair⟩ := projection_repair_restores (E := Sample.sizeEnv) Sample.validDigest_sizeSha
    (Sample.audited_reach Sample.drifted)
  obtain ⟨candidate,hcandidate⟩ := hiff.mpr Sample.drifted_repairable
  have hauthority : StateStore.RepairAuthority.valid ⟨"operator","test-repair-1","drift"⟩ :=
    List.all_eq_true.mp (by decide +kernel)
  obtain ⟨row,happly,hreplay⟩ := hrepair candidate hcandidate
    (fun row hrow payload hpayload => absurd hpayload ((Sample.drifted_events row hrow).2.2 payload))
    ⟨"operator","test-repair-1","drift"⟩ hauthority
  exact ⟨candidate,row,hcandidate,happly,hreplay⟩

/-- Two stores that do not replay and have no repair: a drift that no event followed, and one that a later
delta recorded. -/
theorem drift_without_repair :
    Reach (StoreInput.step Sample.sizeEnv Sample.contracts) (fun _ _ => True) (Db.fresh Sample.sizeEnv.sha)
        (Sample.audited (Sample.drifted.take 2)) ∧
      StateStore.replayProjection Sample.sizeEnv.sha (Sample.audited (Sample.drifted.take 2)) =
        .error (.state "replayed state projection does not match the current StateStore projection") ∧
      StateStore.projectionRepairCandidate Sample.sizeEnv.sha (Sample.audited (Sample.drifted.take 2)) =
        .error (.state "state projection has no unrepaired root mismatch") ∧
      Reach (StoreInput.step Sample.sizeEnv Sample.contracts) (fun _ _ => True) (Db.fresh Sample.sizeEnv.sha)
        (Sample.audited Sample.healed) ∧
      StateStore.replayProjection Sample.sizeEnv.sha (Sample.audited Sample.healed) =
        .error (.state "projection replay root digest mismatch") ∧
      StateStore.projectionRepairCandidate Sample.sizeEnv.sha (Sample.audited Sample.healed) =
        .error (.state "state projection mismatch has no repairable StateStore drift") := by
  have hunfollowed : StateStore.replayProjection Sample.sizeEnv.sha (Sample.audited (Sample.drifted.take 2)) =
        .error (.state "replayed state projection does not match the current StateStore projection") ∧
      StateStore.projectionRepairCandidate Sample.sizeEnv.sha (Sample.audited (Sample.drifted.take 2)) =
        .error (.state "state projection has no unrepaired root mismatch") := by
    decide +kernel
  have hhealed : StateStore.replayProjection Sample.sizeEnv.sha (Sample.audited Sample.healed) =
        .error (.state "projection replay root digest mismatch") ∧
      StateStore.projectionRepairCandidate Sample.sizeEnv.sha (Sample.audited Sample.healed) =
        .error (.state "state projection mismatch has no repairable StateStore drift") := by
    decide +kernel
  exact ⟨Reach.run fun _ _ _ => trivial,hunfollowed.1,hunfollowed.2,Reach.run fun _ _ _ => trivial,hhealed.1,hhealed.2⟩

end Bureau
