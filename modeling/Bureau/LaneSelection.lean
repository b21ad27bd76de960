import Bureau.Tables

/-!
The selection of lanes for a closure plan. Lanes are considered in the order of their priority and
counted against the work-in-progress limits; a lane that waits for a review counts as a coding lane
and as a review lane.
-/

namespace Bureau

namespace Closure

inductive LaneState
  | discovered | bound | planned | ready | active | reviewing | needsRevision | ciFailed | mergeCandidate | mergeReady
  | merged | verified | closed | blocked | obsolete | paused
  | other (text : String)
  deriving DecidableEq

def statePriority : LaneState → ℤ
  | .mergeReady => 100
  | .mergeCandidate => 90
  | .ciFailed => 80
  | .needsRevision => 75
  | .reviewing => 70
  | .active => 60
  | .ready => 50
  | .planned => 40
  | .bound => 30
  | .discovered => 20
  | .blocked => 10
  | .paused => 0
  | .obsolete => -10
  | .merged => -20
  | .verified => -30
  | .closed => -40
  | .other _ => 0

def mutatingStates : List LaneState := [.planned,.ready,.active,.needsRevision,.ciFailed]

def reviewStates : List LaneState := [.reviewing,.needsRevision,.ciFailed]

def mergeStates : List LaneState := [.mergeCandidate,.mergeReady]

def canonicalTaskRequiredStates : List LaneState := mutatingStates ++ reviewStates ++ mergeStates

def restingStates : List LaneState := [.closed,.verified,.merged,.obsolete,.paused,.blocked]

/-- The fields of a lane that the selection reads or writes. -/
structure Lane where
  laneId : Option String
  repo : String
  repoName : Option String
  branch : Option String
  state : LaneState
  taskId : Option String
  manualPriority : Option String
  finishability : Option ℚ
  nextAction : Option String
  selectionBlockers : List String
  deriving DecidableEq

def Lane.mutates (lane : Lane) : Bool := lane.state ∈ mutatingStates

def Lane.reviews (lane : Lane) : Bool := lane.state ∈ reviewStates

def Lane.merges (lane : Lane) : Bool := lane.state ∈ mergeStates

def isUpper (c : Char) : Bool := 'A' ≤ c && c ≤ 'Z'

def isUpperOrDigit (c : Char) : Bool := isUpper c || ('0' ≤ c && c ≤ '9')

/-- `CANONICAL_BUREAU_TASK_ID_RE`: capitals and digits in two or more parts joined by hyphens, a capital first. -/
def canonicalTaskId (text : String) : Bool :=
  let parts := text.toList.splitOn '-'
  2 ≤ parts.length && parts.all (fun part => !part.isEmpty && part.all isUpperOrDigit) && text.toList.head?.any isUpper

def isCanonicalBureauTaskId (value : Option String) : Bool := value.any canonicalTaskId

def laneRequiresCanonicalTaskId (lane : Lane) : Bool := lane.state ∈ canonicalTaskRequiredStates

def laneSortKey (lane : Lane) : ℤ ×ₗ ℚ ×ₗ String ×ₗ String :=
  let manualBoost := if lane.manualPriority = some "high" ∨ lane.manualPriority = some "urgent" then 20 else 0
  toLex (-(statePriority lane.state+manualBoost),toLex (-lane.finishability.getD 0,
    toLex (lane.repoName.getD "",lane.branch.getD "")))

/-- `DEFAULT_WIP_LIMITS` with what the caller gives in their place. -/
structure WipLimits where
  maxActiveCodingLanes : ℕ := 2
  maxReviewLanes : ℕ := 1
  maxMergeLanes : ℕ := 1
  maxSameRepoMutatingLanes : ℕ := 1
  maxSelectedLanes : ℕ := 4

structure Selection where
  selected : List Lane := []
  rejectedUnbound : List Lane := []
  perRepo : Std.ExtTreeMap String ℕ := ∅
  coding : ℕ := 0
  review : ℕ := 0
  merge : ℕ := 0

namespace Selection

variable (limits : WipLimits) (lane : Lane) (st : Selection)

/-! The three checks of a lane. A check that fails ends with `continue`, and the counters keep what the checks
before it have added. -/

def countMutating : Selection × Bool :=
  if lane.mutates then
    if limits.maxActiveCodingLanes ≤ st.coding then (st,false)
    else if limits.maxSameRepoMutatingLanes ≤ (st.perRepo[lane.repo]?).getD 0 then (st,false)
    else ({ st with
      coding := st.coding+1
      perRepo := st.perRepo.insert lane.repo ((st.perRepo[lane.repo]?).getD 0+1) },true)
  else (st,true)

def countReview : Selection × Bool :=
  if lane.reviews then
    if limits.maxReviewLanes ≤ st.review then (st,false) else ({ st with review := st.review+1 },true)
  else (st,true)

def countMerge : Selection × Bool :=
  if lane.merges then
    if limits.maxMergeLanes ≤ st.merge then (st,false) else ({ st with merge := st.merge+1 },true)
  else (st,true)

def count : Selection × Bool :=
  match st.countMutating limits lane with
  | (st,false) => (st,false)
  | (st,true) =>
    match st.countReview limits lane with
    | (st,false) => (st,false)
    | (st,true) => st.countMerge limits lane

def exhausted : Bool :=
  limits.maxActiveCodingLanes ≤ st.coding && limits.maxReviewLanes ≤ st.review && limits.maxMergeLanes ≤ st.merge

end Selection

/-- `sorted(lanes, key=lane_sort_key)`. -/
def inPlanOrder (lanes : List Lane) : List Lane := lanes.insertionSort fun a b => laneSortKey a ≤ laneSortKey b

/-- A plan considers a lane that is not at rest and has a canonical task where its state requires one. -/
def Lane.considered (lane : Lane) : Bool :=
  lane.state ∉ restingStates && (!laneRequiresCanonicalTaskId lane || isCanonicalBureauTaskId lane.taskId)

/-- The lanes so far that have a coding place, those that compete for a review, those to be merged and those
that get a place in the plan if it has one. -/
structure Standing where
  coders : List Lane := []
  competing : List Lane := []
  merging : List Lane := []
  eligible : List Lane := []
  stopped : Bool := false

namespace Standing

section

variable (limits : WipLimits) (st : Standing) (lane : Lane)

def codes : Bool :=
  lane.mutates && decide (st.coders.length < limits.maxActiveCodingLanes) &&
    decide (st.coders.countP (·.repo = lane.repo) < limits.maxSameRepoMutatingLanes)

def competes : Bool := lane.reviews && (!lane.mutates || st.codes limits lane)

def passes : Bool :=
  (!lane.mutates || st.codes limits lane) && (!lane.reviews || decide (st.competing.length < limits.maxReviewLanes)) &&
    (!lane.merges || decide (st.merging.length < limits.maxMergeLanes))

def exhausted : Bool :=
  decide (limits.maxActiveCodingLanes ≤ st.coders.length) && decide (limits.maxReviewLanes ≤ st.competing.length) &&
    decide (limits.maxMergeLanes ≤ st.merging.length)

def counted : Standing :=
  { st with
    coders := st.coders ++ if st.codes limits lane then [lane] else []
    competing := st.competing ++ if st.competes limits lane then [lane] else []
    merging := st.merging ++ if lane.merges then [lane] else [] }

def add : Standing :=
  if !st.stopped && st.passes limits lane then
    { st.counted limits lane with
      eligible := st.eligible ++ [lane]
      stopped := (st.counted limits lane).exhausted limits }
  else st.counted limits lane

end

def after (limits : WipLimits) (lanes : List Lane) : Standing := lanes.foldl (add limits) {}

/-- The lanes that have a coding place and no review place: they wait for a review. -/
def waiting (limits : WipLimits) (st : Standing) : List Lane :=
  (st.competing.drop limits.maxReviewLanes).filter (·.mutates)

end Standing

theorem Lane.merges_apart {lane : Lane} (h : lane.merges = true) : lane.mutates = false ∧ lane.reviews = false := by
  unfold Lane.merges at h
  unfold Lane.mutates Lane.reviews
  cases hstate : lane.state <;> rw [hstate] at h <;> first | exact absurd h (by decide) | exact ⟨rfl,rfl⟩

structure Standing.Accounts (limits : WipLimits) (st : Standing) : Prop where
  reviewed : st.eligible.filter (·.reviews) = st.competing.take limits.maxReviewLanes
  merged : st.eligible.filter (·.merges) = st.merging.take limits.maxMergeLanes
  coded : st.eligible.filter (fun lane => lane.mutates && !lane.reviews) = st.coders.filter (!·.reviews)
  revised : st.competing.filter (·.mutates) = st.coders.filter (·.reviews)
  mutating : ∀ lane ∈ st.coders, lane.mutates = true
  coding : st.coders.length ≤ limits.maxActiveCodingLanes
  sameRepo : ∀ repo, st.coders.countP (·.repo = repo) ≤ limits.maxSameRepoMutatingLanes
  stop : st.stopped = true → st.exhausted limits = true

namespace Standing

variable {limits : WipLimits} {st : Standing} {lane : Lane}

theorem codes_iff : st.codes limits lane = true ↔ lane.mutates = true ∧
    st.coders.length < limits.maxActiveCodingLanes ∧
    st.coders.countP (·.repo = lane.repo) < limits.maxSameRepoMutatingLanes := by
  simp only [codes,Bool.and_eq_true,decide_eq_true_eq,and_assoc]

@[simp] theorem exhausted_iff : st.exhausted limits = true ↔ limits.maxActiveCodingLanes ≤ st.coders.length ∧
    limits.maxReviewLanes ≤ st.competing.length ∧ limits.maxMergeLanes ≤ st.merging.length := by
  simp only [exhausted,Bool.and_eq_true,decide_eq_true_eq,and_assoc]

theorem passes_iff : st.passes limits lane = true ↔ (lane.mutates = true → st.codes limits lane = true) ∧
    (lane.reviews = true → st.competing.length < limits.maxReviewLanes) ∧
    (lane.merges = true → st.merging.length < limits.maxMergeLanes) := by
  simp only [passes,Bool.and_eq_true,Bool.or_eq_true,Bool.not_eq_true',decide_eq_true_eq,and_assoc,
    ← Bool.not_eq_true,or_iff_not_imp_left,not_not]

theorem competes_iff : st.competes limits lane = true ↔
    lane.reviews = true ∧ (lane.mutates = true → st.codes limits lane = true) := by
  simp only [competes,Bool.and_eq_true,Bool.or_eq_true,Bool.not_eq_true',← Bool.not_eq_true,or_iff_not_imp_left,not_not]

namespace Accounts

theorem review_taken (h : st.Accounts limits) (hleft : (!st.stopped && st.passes limits lane) = false)
    (hcompetes : st.competes limits lane = true) : limits.maxReviewLanes ≤ st.competing.length := by
  obtain ⟨hreviews,hcodes⟩ := competes_iff.mp hcompetes
  by_contra hroom
  have hpasses : st.passes limits lane = true := passes_iff.mpr
    ⟨hcodes,fun _ => not_le.mp hroom,fun hmerges => absurd hreviews (by simp [(Lane.merges_apart hmerges).2])⟩
  have hstopped : st.stopped = true := by simpa [hpasses] using hleft
  exact hroom (exhausted_iff.mp (h.stop hstopped)).2.1

theorem merge_taken (h : st.Accounts limits) (hleft : (!st.stopped && st.passes limits lane) = false)
    (hmerges : lane.merges = true) : limits.maxMergeLanes ≤ st.merging.length := by
  obtain ⟨hmutates,hreviews⟩ := Lane.merges_apart hmerges
  by_contra hroom
  have hpasses : st.passes limits lane = true := passes_iff.mpr
    ⟨by simp [hmutates],by simp [hreviews],fun _ => not_le.mp hroom⟩
  have hstopped : st.stopped = true := by simpa [hpasses] using hleft
  exact hroom (exhausted_iff.mp (h.stop hstopped)).2.2

theorem reviews_of_left (h : st.Accounts limits) (hleft : (!st.stopped && st.passes limits lane) = false)
    (hcodes : st.codes limits lane = true) : lane.reviews = true := by
  obtain ⟨hmutates,hroom,_⟩ := codes_iff.mp hcodes
  by_contra hreviews
  have hpasses : st.passes limits lane = true := passes_iff.mpr ⟨fun _ => hcodes,fun hr => absurd hr hreviews,
    fun hmerges => absurd hmutates (by simp [(Lane.merges_apart hmerges).1])⟩
  have hstopped : st.stopped = true := by simpa [hpasses] using hleft
  exact absurd (exhausted_iff.mp (h.stop hstopped)).1 (not_le.mpr hroom)

theorem fresh (limits : WipLimits) : ({} : Standing).Accounts limits := by
  refine ⟨by simp,by simp,rfl,rfl,by simp,Nat.zero_le _,fun _ => Nat.zero_le _,fun h => ?_⟩
  exact absurd h (by simp)

theorem revised_counted (h : st.Accounts limits) :
    (st.counted limits lane).competing.filter (·.mutates) = (st.counted limits lane).coders.filter (·.reviews) := by
  by_cases hcodes : st.codes limits lane = true
  · have hmutates := (codes_iff.mp hcodes).1
    by_cases hreviews : lane.reviews = true
    · simp [counted,competes,hcodes,hmutates,hreviews,h.revised]
    · simp [counted,competes,hcodes,hreviews,h.revised]
  · by_cases hmutates : lane.mutates = true
    · simp [counted,competes,hcodes,hmutates,h.revised]
    · by_cases hreviews : lane.reviews = true
      · simp [counted,competes,hcodes,hmutates,hreviews,h.revised]
      · simp [counted,competes,hcodes,hreviews,h.revised]

theorem mutating_counted (h : st.Accounts limits) :
    ∀ other ∈ (st.counted limits lane).coders, other.mutates = true := by
  intro other hother
  rcases List.mem_append.mp hother with hold | hnew
  · exact h.mutating other hold
  · split_ifs at hnew with hcodes
    · rw [List.mem_singleton.mp hnew]
      exact (codes_iff.mp hcodes).1
    · exact absurd hnew (by simp)

theorem coding_counted (h : st.Accounts limits) :
    (st.counted limits lane).coders.length ≤ limits.maxActiveCodingLanes := by
  by_cases hcodes : st.codes limits lane = true
  · have hroom := (codes_iff.mp hcodes).2.1
    have hlength : (st.counted limits lane).coders.length = st.coders.length+1 := by simp [counted,hcodes]
    omega
  · simpa [counted,hcodes] using h.coding

theorem sameRepo_counted (h : st.Accounts limits) (repo : String) :
    (st.counted limits lane).coders.countP (·.repo = repo) ≤ limits.maxSameRepoMutatingLanes := by
  by_cases hcodes : st.codes limits lane = true
  · by_cases hrepo : lane.repo = repo
    · subst hrepo
      have hroom := (codes_iff.mp hcodes).2.2
      have hcount : (st.counted limits lane).coders.countP (·.repo = lane.repo) =
          st.coders.countP (·.repo = lane.repo)+1 := by
        simp [counted,hcodes,List.countP_append]
      omega
    · simpa [counted,hcodes,hrepo,List.countP_append] using h.sameRepo repo
  · simpa [counted,hcodes] using h.sameRepo repo

theorem exhausted_counted (h : st.exhausted limits = true) : (st.counted limits lane).exhausted limits = true := by
  obtain ⟨hcoding,hreview,hmerge⟩ := exhausted_iff.mp h
  rw [exhausted_iff]
  simp only [counted,List.length_append]
  exact ⟨Nat.le_add_right_of_le hcoding,Nat.le_add_right_of_le hreview,Nat.le_add_right_of_le hmerge⟩

theorem add (h : st.Accounts limits) (lane : Lane) : (st.add limits lane).Accounts limits := by
  unfold Standing.add
  split_ifs with hgets
  · obtain ⟨_,hpasses⟩ := Bool.and_eq_true_iff.mp hgets
    obtain ⟨hcodes,hreview,hmerge⟩ := passes_iff.mp hpasses
    refine ⟨?_,?_,?_,h.revised_counted,h.mutating_counted,h.coding_counted,h.sameRepo_counted,id⟩
    · by_cases hreviews : lane.reviews = true
      · have hcompetes := competes_iff.mpr ⟨hreviews,hcodes⟩
        have hroom := hreview hreviews
        have hall : st.competing.take limits.maxReviewLanes = st.competing := List.take_of_length_le hroom.le
        have hnext : (st.competing ++ [lane]).length ≤ limits.maxReviewLanes := by
          rw [List.length_append,List.length_singleton]
          omega
        simp only [counted,hcompetes,if_true,List.filter_append,h.reviewed,hall,List.take_of_length_le hnext]
        simp [hreviews]
      · simp [counted,competes,hreviews,h.reviewed]
    · by_cases hmerges : lane.merges = true
      · have hroom := hmerge hmerges
        have hall : st.merging.take limits.maxMergeLanes = st.merging := List.take_of_length_le hroom.le
        have hnext : (st.merging ++ [lane]).length ≤ limits.maxMergeLanes := by
          rw [List.length_append,List.length_singleton]
          omega
        simp only [counted,hmerges,if_true,List.filter_append,h.merged,hall,List.take_of_length_le hnext]
        simp [hmerges]
      · simp [counted,hmerges,h.merged]
    · by_cases hmutates : lane.mutates = true
      · simp [counted,hcodes hmutates,h.coded,List.filter_cons,hmutates]
      · have hnot : st.codes limits lane = false := by simp [codes,hmutates]
        simp [counted,hnot,hmutates,h.coded]
  · have hleft : (!st.stopped && st.passes limits lane) = false := by simpa using hgets
    refine ⟨?_,?_,?_,h.revised_counted,h.mutating_counted,h.coding_counted,h.sameRepo_counted,
      fun hstopped => exhausted_counted (h.stop hstopped)⟩
    · by_cases hcompetes : st.competes limits lane = true
      · simp only [counted,hcompetes,if_true,h.reviewed]
        rw [List.take_append_of_le_length (h.review_taken hleft hcompetes)]
      · simp [counted,hcompetes,h.reviewed]
    · by_cases hmerges : lane.merges = true
      · simp only [counted,hmerges,if_true,h.merged]
        rw [List.take_append_of_le_length (h.merge_taken hleft hmerges)]
      · simp [counted,hmerges,h.merged]
    · by_cases hcodes : st.codes limits lane = true
      · simp [counted,hcodes,h.reviews_of_left hleft hcodes,h.coded]
      · simp [counted,hcodes,h.coded]

end Accounts

end Standing

/-! The loop follows the standing. -/

structure Selection.Matches (limits : WipLimits) (sel : Selection) (st : Standing) : Prop where
  coding : sel.coding = st.coders.length
  perRepo : ∀ repo, (sel.perRepo[repo]?).getD 0 = st.coders.countP (·.repo = repo)
  review : sel.review = min st.competing.length limits.maxReviewLanes
  merge : sel.merge = min st.merging.length limits.maxMergeLanes
  selected : sel.selected = st.eligible

section Loop

open Standing

variable {limits : WipLimits} {sel : Selection} {st : Standing} {lane : Lane}

namespace Selection.Matches

theorem exhausted (h : sel.Matches limits st) : sel.exhausted limits = st.exhausted limits := by
  have hreview : decide (limits.maxReviewLanes ≤ sel.review) =
    decide (limits.maxReviewLanes ≤ st.competing.length) := by
    rw [h.review,decide_eq_decide]
    omega
  have hmerge : decide (limits.maxMergeLanes ≤ sel.merge) = decide (limits.maxMergeLanes ≤ st.merging.length) := by
    rw [h.merge,decide_eq_decide]
    omega
  rw [Selection.exhausted,Standing.exhausted,h.coding,hreview,hmerge]

theorem countMutating (h : sel.Matches limits st) (lane : Lane) :
    (sel.countMutating limits lane).2 = (!lane.mutates || st.codes limits lane) ∧
      (sel.countMutating limits lane).1.Matches limits
        { st with coders := st.coders ++ if st.codes limits lane then [lane] else [] } := by
  unfold Selection.countMutating
  by_cases hmutates : lane.mutates = true
  · by_cases hcodes : st.codes limits lane = true
    · obtain ⟨_,hcoding,hrepo⟩ := codes_iff.mp hcodes
      rw [if_pos hmutates,if_neg (by rw [h.coding]; omega),if_neg (by rw [h.perRepo]; omega),if_pos hcodes]
      refine ⟨by simp [hcodes],?_,fun repo => ?_,h.review,h.merge,h.selected⟩
      · simp [h.coding]
      · show ((sel.perRepo.insert lane.repo _)[repo]?).getD 0 = _
        rw [Tables.get_insert,List.countP_append]
        by_cases hsame : repo = lane.repo
        · simp [hsame,h.perRepo]
        · simp [hsame,h.perRepo,Ne.symm hsame]
    · have hfull : limits.maxActiveCodingLanes ≤ sel.coding ∨
          limits.maxSameRepoMutatingLanes ≤ (sel.perRepo[lane.repo]?).getD 0 := by
        by_contra hroom
        rw [not_or,not_le,not_le,h.coding,h.perRepo] at hroom
        exact hcodes (codes_iff.mpr ⟨hmutates,hroom⟩)
      have hfails : (if limits.maxActiveCodingLanes ≤ sel.coding then (sel,false)
          else if limits.maxSameRepoMutatingLanes ≤ (sel.perRepo[lane.repo]?).getD 0 then (sel,false)
          else ({ sel with
            coding := sel.coding+1
            perRepo := sel.perRepo.insert lane.repo ((sel.perRepo[lane.repo]?).getD 0+1) },true)) = (sel,false) := by
        rcases hfull with hcoding | hrepo
        · exact if_pos hcoding
        · rw [if_pos hrepo,ite_self]
      rw [if_pos hmutates,hfails,if_neg hcodes,List.append_nil]
      exact ⟨by simp [hmutates,hcodes],h⟩
  · have hcodes : ¬ st.codes limits lane = true := fun hcodes => hmutates (codes_iff.mp hcodes).1
    rw [if_neg hmutates,if_neg hcodes,List.append_nil]
    exact ⟨by simp [hmutates],h⟩

theorem countReview (h : sel.Matches limits st) (lane : Lane) :
    (sel.countReview limits lane).2 = (!lane.reviews || decide (st.competing.length < limits.maxReviewLanes)) ∧
      (sel.countReview limits lane).1.Matches limits
        { st with competing := st.competing ++ if lane.reviews then [lane] else [] } := by
  unfold Selection.countReview
  by_cases hreviews : lane.reviews = true
  · rw [if_pos hreviews,if_pos hreviews,h.review]
    by_cases hroom : st.competing.length < limits.maxReviewLanes
    · rw [if_neg (by omega)]
      refine ⟨by simp [hroom],h.coding,h.perRepo,?_,h.merge,h.selected⟩
      simp only [List.length_append,List.length_singleton]
      omega
    · rw [if_pos (by omega)]
      refine ⟨by simp [hreviews,hroom],h.coding,h.perRepo,?_,h.merge,h.selected⟩
      rw [h.review,List.length_append]
      omega
  · rw [if_neg hreviews,if_neg hreviews,List.append_nil]
    exact ⟨by simp [hreviews],h⟩

theorem countMerge (h : sel.Matches limits st) (lane : Lane) :
    (sel.countMerge limits lane).2 = (!lane.merges || decide (st.merging.length < limits.maxMergeLanes)) ∧
      (sel.countMerge limits lane).1.Matches limits
        { st with merging := st.merging ++ if lane.merges then [lane] else [] } := by
  unfold Selection.countMerge
  by_cases hmerges : lane.merges = true
  · rw [if_pos hmerges,if_pos hmerges,h.merge]
    by_cases hroom : st.merging.length < limits.maxMergeLanes
    · rw [if_neg (by omega)]
      refine ⟨by simp [hroom],h.coding,h.perRepo,h.review,?_,h.selected⟩
      simp only [List.length_append,List.length_singleton]
      omega
    · rw [if_pos (by omega)]
      refine ⟨by simp [hmerges,hroom],h.coding,h.perRepo,h.review,?_,h.selected⟩
      rw [h.merge,List.length_append]
      omega
  · rw [if_neg hmerges,if_neg hmerges,List.append_nil]
    exact ⟨by simp [hmerges],h⟩

/-- The checks of a lane, as the standing sees them. A lane that fails one is in no state that a later check counts. -/
theorem count (h : sel.Matches limits st) (lane : Lane) :
    (sel.count limits lane).2 = st.passes limits lane ∧
      (sel.count limits lane).1.Matches limits (st.counted limits lane) := by
  obtain ⟨hfirst,hmutating⟩ := h.countMutating lane
  rcases hcoded : sel.countMutating limits lane with ⟨coded,ok⟩
  rw [hcoded] at hfirst hmutating
  cases ok with
  | false =>
    obtain ⟨hmutates,hcodes⟩ : lane.mutates = true ∧ st.codes limits lane = false := by simpa using hfirst.symm
    have hmerges : lane.merges = false := by
      by_contra hmerges
      rw [(Lane.merges_apart (by simpa using hmerges)).1] at hmutates
      cases hmutates
    have hcount : sel.count limits lane = (coded,false) := by simp only [Selection.count,hcoded]
    rw [hcount]
    refine ⟨by simp [passes,hmutates,hcodes],?_⟩
    simpa [counted,competes,hcodes,hmutates,hmerges] using hmutating
  | true =>
    have hadmitted : (!lane.mutates || st.codes limits lane) = true := hfirst.symm
    obtain ⟨hsecond,hreviewing⟩ := hmutating.countReview lane
    rcases hreviewed : coded.countReview limits lane with ⟨reviewed,ok⟩
    rw [hreviewed] at hsecond hreviewing
    cases ok with
    | false =>
      obtain ⟨hreviews,hroom⟩ : lane.reviews = true ∧ limits.maxReviewLanes ≤ st.competing.length := by
        simpa using hsecond.symm
      have hmerges : lane.merges = false := by
        by_contra hmerges
        rw [(Lane.merges_apart (by simpa using hmerges)).2] at hreviews
        cases hreviews
      have hcount : sel.count limits lane = (reviewed,false) := by simp only [Selection.count,hcoded,hreviewed]
      rw [hcount]
      refine ⟨?_,?_⟩
      · simp only [passes,hreviews,decide_eq_false (not_lt.mpr hroom),Bool.not_true,Bool.or_false,Bool.and_false,
          Bool.false_and]
      · simpa [counted,competes,hadmitted,hmerges,hreviews] using hreviewing
    | true =>
      obtain ⟨hthird,hmerging⟩ := hreviewing.countMerge lane
      have hcount : sel.count limits lane = reviewed.countMerge limits lane := by
        simp only [Selection.count,hcoded,hreviewed]
      rw [hcount]
      refine ⟨?_,?_⟩
      · rw [hthird,passes,hadmitted,← hsecond,Bool.and_self,Bool.true_and]
      · simpa [counted,competes,hadmitted] using hmerging

end Selection.Matches

end Loop

def planned (lanes : List Lane) : List Lane := (inPlanOrder lanes).filter (·.considered)

end Closure

end Bureau
