import Bureau.CandidateHistory

/-!
`live_register_context`: the current state of the Live Register as a repository sees it. The
records are first restricted to those that name the repository, and the latest ones are taken of
what is left.
-/

namespace Bureau

namespace LiveRegister

open Transactions LatestPerKey

def isActive (item : LiveEvent) : Bool :=
  item.record.status.any (· ∈ activeLiveStatuses)

/-- `_active_latest` for one key field; records without the field are passed over. -/
def activeLatest (records : List LiveEvent) (field : LiveRecord → Option String) : List LiveEvent :=
  (latest LiveEvent.eventId (fun item => field item.record) records).filter isActive

def filterRecords (records : List LiveEvent) (kind : Option LiveKind) (repo threadId : Option String) :
    List LiveEvent :=
  ((records.filter fun item => kind.all (item.record.kind = ·)).filter
    fun item => repo.all (item.record.repo = some ·)).filter fun item => threadId.all (item.record.threadId = some ·)

structure LiveSummary where
  records : ℕ
  activeThreadFocus : List LiveEvent
  activeFocusOverrides : List LiveEvent
  openCandidates : List LiveEvent
  latestCandidates : List LiveEvent
  promotionRequired : List LiveEvent
  candidateHistoryCount : ℕ
  supersededCandidateEventCount : ℕ
  deriving DecidableEq

def summary (records : List LiveEvent) : LiveSummary :=
  let latestCandidates := candidateProjection records
  let openCandidates := latestCandidates.filter isActive
  { records := records.length
    activeThreadFocus := activeLatest (records.filter (·.record.kind = .threadFocus)) (·.threadId)
    activeFocusOverrides := activeLatest (records.filter (·.record.kind = .focusOverride)) (·.repo)
    openCandidates := openCandidates
    latestCandidates := latestCandidates
    promotionRequired := openCandidates.filter (·.record.promotionRequired)
    candidateHistoryCount := (candidateEvents records).length
    supersededCandidateEventCount := (supersededEventIds (candidateEvents records)).dedup.length }

/-- The summary with the extent of the history that is shown. -/
structure LiveContext where
  repo : Option String
  summary : LiveSummary
  historyLoadedRecords : ℕ
  historyTotalRecords : ℕ
  historyTruncated : Bool
  oldestLoadedEventId : Option ℕ
  projectionRecords : ℕ
  projectionMatchingRecords : ℕ
  deriving DecidableEq

/-- The limit bounds the history that is counted, never the state that is derived. -/
def liveRegisterContext (s : LiveStore) (repo : Option String) (limit : ℕ) : Result LiveContext := do
  require (1 ≤ limit && limit ≤ 500) (.state "limit must be between 1 and 500")
  let history := s.history.drop (s.history.length-limit)
  let matching := filterRecords s.history none repo none
  return {
    repo := repo
    summary := { summary matching with records := (filterRecords history none repo none).length }
    historyLoadedRecords := history.length
    historyTotalRecords := s.history.length
    historyTruncated := s.history.length > history.length
    oldestLoadedEventId := history.head?.map (·.eventId)
    projectionRecords := s.history.length
    projectionMatchingRecords := matching.length }

def names (repo : String) (item : LiveEvent) : Bool := item.record.repo = some repo

@[simp] theorem filterRecords_repo (records : List LiveEvent) (repo : String) :
    filterRecords records none (some repo) none = records.filter (names repo) := by
  have hkind : records.filter (fun item => (none : Option LiveKind).all (item.record.kind = ·)) = records :=
    List.filter_eq_self.mpr fun _ _ => rfl
  have hrepo : (records.filter (names repo)).filter
      (fun item => (none : Option String).all (item.record.threadId = some ·)) = records.filter (names repo) :=
    List.filter_eq_self.mpr fun _ _ => rfl
  rw [filterRecords,hkind]
  exact hrepo

@[simp] theorem filterRecords_none (records : List LiveEvent) : filterRecords records none none none = records := by
  simp [filterRecords]

def focusRecords (history : List LiveEvent) : List LiveEvent :=
  history.filter (·.record.kind = .threadFocus)

def lastFocus (records : List LiveEvent) (threadId : String) : Option LiveEvent :=
  lastOf (fun item => item.record.threadId) records threadId

/-- No thread has an active last focus on the repository and a later focus elsewhere. -/
def FocusSettled (history : List LiveEvent) (repo : String) : Prop :=
  ∀ threadId item, lastFocus ((focusRecords history).filter (names repo)) threadId = some item → isActive item = true →
    lastFocus (focusRecords history) threadId = some item

variable {history : List LiveEvent}

theorem activeThreadFocus_filter_iff (hasc : Ascending LiveEvent.eventId history)
    (repo : String) :
    (summary (history.filter (names repo))).activeThreadFocus =
      (summary history).activeThreadFocus.filter (names repo) ↔
      FocusSettled history repo := by
  have hcomm : (history.filter (names repo)).filter (·.record.kind = .threadFocus) =
      (focusRecords history).filter (names repo) := by
    rw [focusRecords,List.filter_filter,List.filter_filter]
    refine List.filter_congr fun item _ => ?_
    rw [Bool.and_comm]
  show activeLatest _ _ = (activeLatest _ _).filter _ ↔ _
  rw [hcomm]
  exact latest_filter_eq_iff (hasc.filter _) (names repo) isActive

/-- A candidate event that nothing supersedes among those naming its repository is superseded by
nothing at all, since a successor names the repository too. -/
theorem Linear.unsuperseded_of_filter (h : Linear history)
    (hasc : Ascending LiveEvent.eventId history) {repo : String} {e : LiveEvent} (he : e ∈ candidateEvents history)
    (hrepo : names repo e = true)
    (hnone : e.eventId ∉ supersededEventIds (candidateEvents (history.filter (names repo)))) :
    e.eventId ∉ supersededEventIds (candidateEvents history) := by
  intro hsuper
  obtain ⟨c,hc,hcsuper⟩ := mem_supersededEventIds.mp hsuper
  obtain ⟨before,after,hsplit⟩ := h.pred_of_supersedes hasc hc he hcsuper
  have hchain := h.chain (candidateIdentity e)
  rw [hsplit,List.isChain_append] at hchain
  have hlink := (List.isChain_cons_cons.mp hchain.2.1).1
  have hcrepo : c.record.repo = some repo := hlink.repo repo (by simpa [names] using hrepo)
  obtain ⟨hmem,hkind⟩ := mem_candidateEvents.mp hc
  refine hnone (mem_supersededEventIds.mpr ⟨c,mem_candidateEvents.mpr ⟨?_,hkind⟩,hcsuper⟩)
  exact List.mem_filter.mpr ⟨hmem,by simpa [names] using hcrepo⟩

theorem Linear.mem_projection_filter (h : Linear history)
    (hasc : Ascending LiveEvent.eventId history) (repo : String) (e : LiveEvent) :
    e ∈ candidateProjection (history.filter (names repo)) ↔ e ∈ candidateProjection history ∧ names repo e = true := by
  have hlast_of : ∀ item ∈ candidateEvents (history.filter (names repo)),
      item.eventId ∉ supersededEventIds (candidateEvents (history.filter (names repo))) →
        (eventsOf history (candidateIdentity item)).getLast? = some item := by
    intro item hitem hnone
    obtain ⟨hmem,hkind⟩ := mem_candidateEvents.mp hitem
    obtain ⟨hmem,hrepo⟩ := List.mem_filter.mp hmem
    have hcand := mem_candidateEvents.mpr ⟨hmem,hkind⟩
    have hfree := h.unsuperseded_of_filter hasc hcand hrepo hnone
    exact h.last_of_unsuperseded hcand fun c hc hsuper => hfree (mem_supersededEventIds.mpr ⟨c,hc,hsuper⟩)
  rw [mem_candidateProjection (hasc.filter _),h.mem_projection hasc]
  constructor
  · rintro ⟨identity,hlast⟩
    obtain ⟨hmem,hkey⟩ := mem_of_lastOf hlast
    split_ifs at hkey with hsuper
    exact ⟨hlast_of e hmem hsuper,(List.mem_filter.mp (mem_candidateEvents.mp hmem).1).2⟩
  · rintro ⟨hlast,hrepo⟩
    obtain ⟨hcand,_⟩ := mem_eventsOf.mp (List.mem_of_getLast? hlast)
    obtain ⟨hmem,hkind⟩ := mem_candidateEvents.mp hcand
    refine ⟨candidateIdentity e,lastOf_of_unique ((hasc.filter _).filter _)
      (mem_candidateEvents.mpr ⟨List.mem_filter.mpr ⟨hmem,hrepo⟩,hkind⟩) (if_neg fun hsuper => ?_)
      fun item hitem hkey => ?_⟩
    · obtain ⟨c,hc,hcsuper⟩ := mem_supersededEventIds.mp hsuper
      obtain ⟨hcmem,hckind⟩ := mem_candidateEvents.mp hc
      exact h.unsuperseded_of_last hasc hlast c
        (mem_candidateEvents.mpr ⟨(List.mem_filter.mp hcmem).1,hckind⟩) hcsuper
    · split_ifs at hkey with hsuper
      have hitemlast := hlast_of item hitem hsuper
      rw [Option.some.inj hkey,hlast] at hitemlast
      exact (Option.some.inj hitemlast).symm

theorem Linear.openCandidates_filter (h : Linear history)
    (hasc : Ascending LiveEvent.eventId history) (repo : String) :
    (summary (history.filter (names repo))).openCandidates = (summary history).openCandidates.filter (names repo) := by
  show (candidateProjection _).filter isActive = ((candidateProjection _).filter isActive).filter _
  refine ((ascending_candidateProjection (hasc.filter _)).filter isActive).eq_of_mem_iff
    (((ascending_candidateProjection hasc).filter isActive).filter (names repo)) fun e => ?_
  rw [List.mem_filter,List.mem_filter,List.mem_filter,h.mem_projection_filter hasc]
  tauto

/-- The open candidates and the active thread focus that a repository is shown are those of the
whole current state that name it, exactly where no thread has left the repository with an active
focus on it. -/
theorem live_context_filter_iff {E : Texts} {s : LiveStore}
    (hreach : Reach (LiveCall.step E) LiveCall.Fresh .fresh s) (repo : String) {limit : ℕ} (hlow : 1 ≤ limit)
    (hhigh : limit ≤ 500) :
    ∃ shown whole, liveRegisterContext s (some repo) limit = .ok shown ∧ liveRegisterContext s none limit = .ok whole ∧
      (shown.summary.activeThreadFocus = whole.summary.activeThreadFocus.filter (names repo) ∧
        shown.summary.openCandidates = whole.summary.openCandidates.filter (names repo) ↔
      FocusSettled s.history repo) := by
  have hlimit : (decide (1 ≤ limit) && decide (limit ≤ 500)) = true := by simp [hlow,hhigh]
  have hlinear := linear_of_reach hreach
  refine ⟨_,_,by rw [liveRegisterContext,hlimit]; rfl,by rw [liveRegisterContext,hlimit]; rfl,?_⟩
  show (summary (filterRecords s.history none (some repo) none)).activeThreadFocus =
      (summary (filterRecords s.history none none none)).activeThreadFocus.filter (names repo) ∧
    (summary (filterRecords s.history none (some repo) none)).openCandidates =
      (summary (filterRecords s.history none none none)).openCandidates.filter (names repo) ↔ _
  rw [filterRecords_repo,filterRecords_none,activeThreadFocus_filter_iff s.ascending]
  exact and_iff_left (hlinear.openCandidates_filter s.ascending repo)

namespace Sample

def focusBy (thread repo : String) (status : Option LiveStatus) : LiveCall :=
  .record none "2026-01-01" "0" {
    kind := .threadFocus
    title := "Review"
    threadId := some thread
    repo := some repo
    status := status
    catalogValidation := .deferred }

def focusOn (repo : String) : LiveCall := focusBy "thread-1" repo none

def focused : LiveStore := (focusOn "repo.a").step flatTexts .fresh

def moved : LiveStore := (focusOn "repo.b").step flatTexts focused

theorem reach_focusBy {s : LiveStore} (h : Reach (LiveCall.step flatTexts) LiveCall.Fresh .fresh s)
    (hnone : candidateEvents s.history = []) (thread repo : String) (status : Option LiveStatus) :
    Reach (LiveCall.step flatTexts) LiveCall.Fresh .fresh ((focusBy thread repo status).step flatTexts s) := by
  refine .step (i := focusBy thread repo status) h fun c hc => ?_
  rw [hnone] at hc
  simp at hc

theorem reach_focused : Reach (LiveCall.step flatTexts) LiveCall.Fresh .fresh focused :=
  reach_focusBy .init rfl _ _ _

theorem reach_moved : Reach (LiveCall.step flatTexts) LiveCall.Fresh .fresh moved :=
  reach_focusBy reach_focused (by decide +kernel) _ _ _

def joined : LiveStore := (focusBy "thread-2" "repo.a" none).step flatTexts focused

def ended : LiveStore := (focusBy "thread-1" "repo.a" (some .closed)).step flatTexts joined

/-- The second thread stays on the repository; the first one has ended its focus there and moved on. -/
def left : LiveStore := (focusOn "repo.b").step flatTexts ended

theorem reach_left : Reach (LiveCall.step flatTexts) LiveCall.Fresh .fresh left :=
  reach_focusBy (reach_focusBy (reach_focusBy reach_focused (by decide +kernel) _ _ _) (by decide +kernel) _ _ _)
    (by decide +kernel) _ _ _

theorem left_settled : FocusSettled left.history "repo.a" := by
  have hall : ((focusRecords left.history).filter (names "repo.a")).all (fun item =>
      item.record.threadId.all fun thread =>
        lastFocus ((focusRecords left.history).filter (names "repo.a")) thread ≠ some item || !isActive item ||
          lastFocus (focusRecords left.history) thread = some item) = true := by
    decide +kernel
  intro threadId item hlast hactive
  obtain ⟨hmem,hthread⟩ := mem_of_lastOf hlast
  have hitem := List.all_eq_true.mp hall item hmem
  simpa [hthread,hlast,hactive] using hitem

end Sample

theorem live_context_filter_focused : ∃ shown whole,
    liveRegisterContext Sample.left (some "repo.a") 50 = .ok shown ∧
      liveRegisterContext Sample.left none 50 = .ok whole ∧
      whole.summary.activeThreadFocus.map (·.eventId) = [2,4] ∧
      shown.summary.activeThreadFocus = whole.summary.activeThreadFocus.filter (names "repo.a") ∧
      shown.summary.openCandidates = whole.summary.openCandidates.filter (names "repo.a") := by
  have hvalues : (liveRegisterContext Sample.left none 50).toOption.map
      (fun whole => whole.summary.activeThreadFocus.map (·.eventId)) = some [2,4] := by
    decide +kernel
  obtain ⟨shown,whole,hshown,hwhole,hiff⟩ :=
    live_context_filter_iff Sample.reach_left "repo.a" (by decide : 1 ≤ 50) (by decide)
  refine ⟨shown,whole,hshown,hwhole,?_,hiff.mpr Sample.left_settled⟩
  simpa [hwhole,Except.toOption] using hvalues

/-- A thread that moved on is still shown as active in the repository it left. -/
theorem live_context_shows_moved_thread : ∃ (E : Texts) (s : LiveStore),
    Reach (LiveCall.step E) LiveCall.Fresh .fresh s ∧ ∃ shown whole,
      liveRegisterContext s (some "repo.a") 50 = .ok shown ∧ liveRegisterContext s none 50 = .ok whole ∧
      shown.summary.activeThreadFocus.map (·.eventId) = [1] ∧
      whole.summary.activeThreadFocus.map (fun item => (item.eventId,item.record.repo)) = [(2,some "repo.b")] :=
  ⟨Sample.flatTexts,Sample.moved,Sample.reach_moved,_,_,rfl,rfl,by decide +kernel,by decide +kernel⟩

end LiveRegister

end Bureau
