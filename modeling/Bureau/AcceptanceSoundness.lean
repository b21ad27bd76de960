import Bureau.Acceptance

/-!
What a passed evaluation says of its evidence. Every criterion is typed, and its evidence comes from an
authority of its verifier, is authenticated, recent and bound to the run and to the target of the
criterion, and states facts from which the verifier passes; criteria of one pull request agree on its
head.
-/

namespace Bureau

namespace Acceptance

open Transactions

variable {F : Formats} {run : RunContext} {current : ℤ} {facts config : Value}

/-! Facts. -/

variable {s id head scope head' : String} {value criterion item : Value} {contract : Contract} {authenticated : Bool}
    {groups : Table (Table String)} {evidence : String → Option Value} {passed : List String} {target : PullRequest}
    {results : List CriterionResult} {criteria : List Value}

@[simp] theorem Value.same_str : value.same (.str s) = true ↔ value = .str s := by
  cases value <;> simp [Value.same,Value.number?]

@[simp] theorem Value.isTrue_iff : value.isTrue = true ↔ value = .bool true := by
  cases value <;> simp [Value.isTrue]

@[simp] theorem Value.str?_eq_some : value.str? = some s ↔ value = .str s := by
  cases value <;> simp [Value.str?]

@[simp] theorem Value.arr?_eq_some {items : List Value} : value.arr? = some items ↔ value = .arr items := by
  cases value <;> simp [Value.arr?]

@[simp] theorem Value.int?_eq_some {n : ℤ} : value.int? = some n ↔ value = .int n := by
  cases value <;> simp [Value.int?]

@[simp] theorem Value.text?_eq_some : value.text? = some s ↔ value = .str s ∧ s ≠ "" := by
  simp [Value.text?,Option.filter_eq_some_iff,Value.str?_eq_some]

/-- A required check passed: it was reported, and every report of it has the same passing state. -/
def CheckPassed (F : Formats) (checks : List Value) (name : String) : Prop :=
  ∃ state ∈ passCheckStates, (∃ row ∈ checks, row.get "name" = .str name) ∧
    ∀ row ∈ checks, row.get "name" = .str name → ∃ reported, row.get "state" = .str reported ∧ F.lower reported = state

def FactsHold (F : Formats) (facts config : Value) : Verifier → Prop
  | .codeMerged => facts.get "merged" = .bool true ∧ sha (facts.get "head_sha") ∧ sha (facts.get "merge_commit_sha")
  | .requiredCiGreen => facts.get "complete" = .bool true ∧ ∃ required checks,
      config.get "required_checks" = .arr required ∧ required ≠ [] ∧ facts.get "checks" = .arr checks ∧
        ∀ item ∈ required, ∃ name, item = .str name ∧ CheckPassed F checks name
  | .deploymentComplete => facts.get "failed" ≠ .bool true ∧ facts.get "completed" = .bool true ∧
      sha256 (facts.get "receipt_sha256")
  | .runtimeCommitContains => facts.get "contains_required_commit" = .bool true
  | .liveProbePassed => ∃ result, facts.get "result" = .str result ∧ F.lower result ∈ ["pass","passed","success"]
  | .manualObservation => facts.get "accepted" = .bool true ∧
      (∃ observer, facts.get "observer" = .str observer ∧ observer ≠ "") ∧
      ∃ observation, facts.get "observation" = .str observation ∧ observation ≠ ""
  | .durationSoakCompleted => facts.get "failed" ≠ .bool true ∧ facts.get "completed" = .bool true ∧
      ∃ observed required, (facts.get "observed_seconds").number? = some observed ∧
        (config.get "required_seconds").number? = some required ∧ required ≤ observed
  | .noEffectVerified => facts.get "effect_count" = .int 0
  | .artifactHashMatches => ∃ digest, validDigest digest ∧ facts.get "expected_sha256" = .str digest ∧
      facts.get "observed_sha256" = .str digest

theorem lookup_cons_ne {name other state : String} (observed : List (String × String)) (h : other ≠ name) :
    ((name,state) :: observed).lookup other = observed.lookup other := by
  have hne : (other == name) = false := by simpa using h
  rw [List.lookup_cons,hne]

theorem observedChecks_eq_ok {checks : List Value} {observed result : List (String × String)}
    (h : observedChecks F checks observed = .ok result) :
    (∀ name state, observed.lookup name = some state → result.lookup name = some state) ∧
      (∀ row ∈ checks, ∀ name, row.get "name" = .str name →
        ∃ reported, row.get "state" = .str reported ∧ result.lookup name = some (F.lower reported)) ∧
      ∀ name state, result.lookup name = some state →
        observed.lookup name = some state ∨ ∃ row ∈ checks, row.get "name" = .str name := by
  induction checks generalizing observed with
  | nil =>
    cases h
    exact ⟨fun _ _ hold => hold,by simp,fun _ _ hold => .inl hold⟩
  | cons check rest ih =>
    simp only [observedChecks,steps_ok,Value.text?_eq_some,Value.str?_eq_some] at h
    obtain ⟨_,_,name,⟨hname,_⟩,state,hstate,_,hconflict,hrest⟩ := h
    obtain ⟨hkept,hrows,honly⟩ := ih hrest
    have hself : result.lookup name = some (F.lower state) := hkept _ _ (by simp)
    refine ⟨fun other found hfound => ?_,fun row hrow other hother => ?_,fun other found hfound => ?_⟩
    · -- a name that was there before has the state of this row, or the row has another name
      by_cases hsame : other = name
      · subst hsame
        rw [hfound] at hconflict
        rw [hself]
        have hstate : found = F.lower state := by simpa using hconflict
        exact congrArg some hstate.symm
      · exact hkept other found ((lookup_cons_ne observed hsame).trans hfound)
    · rcases List.mem_cons.mp hrow with rfl | hrow
      · rw [hname,Value.str.injEq] at hother
        subst hother
        exact ⟨state,hstate,hself⟩
      · exact hrows row hrow other hother
    · rcases honly other found hfound with hold | ⟨row,hrow,hother⟩
      · by_cases hsame : other = name
        · exact .inr ⟨check,by simp,hsame ▸ hname⟩
        · exact .inl ((lookup_cons_ne observed hsame).symm.trans hold)
      · exact .inr ⟨row,List.mem_cons_of_mem _ hrow,hother⟩

theorem ciState_passed (h : (ciState F facts config).1 = .passed) : FactsHold F facts config .requiredCiGreen := by
  unfold ciState at h
  split at h
  · cases h
  rename_i states hstates
  simp only [requiredStates,steps_ok,Option.filter_eq_some_iff,Value.arr?_eq_some,Value.isTrue_iff] at hstates
  obtain ⟨required,⟨hrequired,hsome⟩,_,hcomplete,_,_,checks,⟨hchecks,_⟩,observed,hobserved,hlookups⟩ := hstates
  obtain ⟨_,hrows,honly⟩ := observedChecks_eq_ok hobserved
  have hgreen : ∀ state ∈ states, state ∈ passCheckStates := by
    intro state hstate
    by_contra hnot
    split_ifs at h with hfailed hpending
    exact hpending (List.any_eq_true.mpr ⟨state,hstate,by simp [hnot]⟩)
  refine ⟨hcomplete,required,checks,hrequired,by simpa using hsome,hchecks,fun item hitem => ?_⟩
  obtain ⟨state,hstate,hfound⟩ := exists_of_collect hlookups hitem
  simp only [orRaise_eq_ok,Option.bind_eq_some_iff,Value.str?_eq_some] at hfound
  obtain ⟨name,hname,hlookup⟩ := hfound
  refine ⟨name,hname,state,hgreen state hstate,?_,fun row hrow hreported => ?_⟩
  · exact (honly name state hlookup).resolve_left (by simp)
  · obtain ⟨reported,hreports,hsame⟩ := hrows row hrow name hreported
    rw [hlookup,Option.some.injEq] at hsame
    exact ⟨reported,hreports,hsame.symm⟩

theorem number?_of_validSoakSeconds (h : validSoakSeconds value = true) :
    ∃ seconds, value.number? = some seconds := by
  cases value <;> simp_all [validSoakSeconds,Value.number?]

theorem soakState_passed (h : (soakState facts config).1 = .passed) :
    FactsHold F facts config .durationSoakCompleted := by
  simp only [soakState] at h
  split_ifs at h with hrequired hreported hobserved hfailed hcompleted hshort
  simp only [Bool.not_eq_true',Bool.not_eq_false] at hrequired hobserved hcompleted
  obtain ⟨required,hrequired⟩ := number?_of_validSoakSeconds hrequired
  obtain ⟨observed,hobserved⟩ := number?_of_validSoakSeconds hobserved
  rw [Value.isTrue_iff] at hfailed hcompleted
  refine ⟨hfailed,hcompleted,observed,required,hobserved,hrequired,?_⟩
  have hlong : ¬ observed < required := by simpa [hrequired,hobserved] using hshort
  exact Rat.not_lt.mp hlong

theorem factState_passed {verifier : Verifier} (h : (factState F facts config verifier).1 = .passed) :
    FactsHold F facts config verifier := by
  cases verifier with
  | codeMerged =>
    simp only [factState] at h
    split_ifs at h with hfacts
    simpa [FactsHold,Value.isTrue_iff,and_assoc] using hfacts
  | requiredCiGreen => exact ciState_passed h
  | deploymentComplete =>
    simp only [factState] at h
    split_ifs at h with hfailed hfacts
    simpa [FactsHold,Value.isTrue_iff] using And.intro hfailed hfacts
  | runtimeCommitContains =>
    simp only [factState] at h
    split_ifs at h with hfacts
    exact Value.isTrue_iff.mp hfacts
  | liveProbePassed =>
    simp only [factState] at h
    split at h
    · cases h
    rename_i result hresult
    split_ifs at h with hfacts
    exact ⟨result,Value.str?_eq_some.mp hresult,by simpa using hfacts⟩
  | manualObservation =>
    simp only [factState] at h
    split_ifs at h with hincomplete hfacts
    simp only [Bool.or_eq_true,Option.isNone_iff_eq_none,not_or,← ne_eq,Option.ne_none_iff_exists',
      Value.text?_eq_some] at hincomplete
    exact ⟨Value.isTrue_iff.mp hfacts,hincomplete⟩
  | durationSoakCompleted => exact soakState_passed h
  | noEffectVerified =>
    simp only [factState] at h
    split at h
    · cases h
    rename_i count hcount
    split_ifs at h with hnegative hzero
    rw [hzero] at hcount
    exact Value.int?_eq_some.mp hcount
  | artifactHashMatches =>
    simp only [factState] at h
    split_ifs at h with hunavailable hsame
    simp only [Bool.or_eq_true,Bool.not_eq_true',not_or,Bool.not_eq_false,sha256,Option.any_eq_true,
      Value.str?_eq_some] at hunavailable
    obtain ⟨_,digest,hdigest,hvalid⟩ := hunavailable
    rw [hdigest,Value.same_str] at hsame
    exact ⟨digest,hvalid,hsame,hdigest⟩

/-! Evidence. -/

/-- The evidence of a criterion supports it for a run at the time `current`. -/
structure Supports (F : Formats) (run : RunContext) (current : ℤ) (id : String) (contract : Contract)
    (evidence : Value) : Prop where
  criterion : evidence.get "criterion_id" = .str id ∧ evidence.get "evidence_type" = .str contract.verifier.text
  authority : ∃ authority ∈ contract.verifier.authorities,
    (evidence.get "source").get "authority" = .str authority
  recent : ∃ text observed, evidence.get "observed_at" = .str text ∧ F.parseTime text = some observed ∧
    observed ≤ current ∧ current ≤ observed+contract.verifier.maxAgeSeconds*1000000
  task : (evidence.get "revision").get "task_sha256" = .str run.taskSha256
  plan : ∀ plan, run.planSha256 = some plan → (evidence.get "revision").get "plan_sha256" = .str plan
  target : ∀ field ∈ contract.verifier.targetBindings,
    ((evidence.get "revision").get field).same (contract.config.get field)
  bound : ∀ binding ∈ contract.verifier.factBindings,
    ((evidence.get "facts").get binding.1).same ((evidence.get "revision").get binding.2)
  facts : FactsHold F (evidence.get "facts") contract.config contract.verifier

theorem evidenceAge_eq_ok {evidence : Value} {age : ℤ}
    (h : evidenceAge F contract current evidence = .ok age) :
    ∃ text observed, evidence.get "observed_at" = .str text ∧ F.parseTime text = some observed ∧
      observed ≤ current ∧ current ≤ observed+contract.verifier.maxAgeSeconds*1000000 := by
  simp only [evidenceAge,steps_ok,decide_eq_true_eq,Option.bind_eq_some_iff,Value.text?_eq_some] at h
  obtain ⟨observed,⟨text,⟨htext,_⟩,htime⟩,_,hfuture,_,hstale,_⟩ := h
  exact ⟨text,observed,htext,htime,hfuture,by omega⟩

/-- Evidence that is judged to pass supports its criterion, and its source is authenticated. -/
theorem judge_passed {evidence : Value}
    {judgement : Judgement} (h : judge F run current id contract evidence authenticated = .ok judgement)
    (hpassed : judgement.state = .passed) :
    authenticated = true ∧ Supports F run current id contract evidence := by
  simp only [judge,revisionValid,factsMatchRevision,steps_ok,Bool.and_eq_true,Value.same_str] at h
  obtain ⟨_,_,_,_,_,hcriterion,_,hauthority,_,_,_,hauthenticated,_,hage,_,⟨_,_,_,⟨htask,_⟩,_,hplan,_,_,_,htarget,_⟩,
    _,_,_,⟨_,hbound,_⟩,_,_,rfl⟩ := h
  simp only [Option.any_eq_true,Value.str?_eq_some,List.contains_iff_mem] at hauthority
  obtain ⟨authority,hsource,hallowed⟩ := hauthority
  refine ⟨hauthenticated,⟨hcriterion,⟨authority,hallowed,hsource⟩,evidenceAge_eq_ok hage,htask,?_,?_,?_,
    factState_passed hpassed⟩⟩
  · intro plan hsome
    rw [hsome,Option.all_some,Bool.and_eq_true,Value.same_str] at hplan
    exact hplan.1
  · intro field hfield
    obtain ⟨_,_,hsame⟩ := exists_of_collect htarget hfield
    exact require_eq_ok.mp hsame
  · intro binding hbinding
    obtain ⟨_,_,hsame⟩ := exists_of_collect hbound hbinding
    exact require_eq_ok.mp hsame

theorem evaluateCriterion_passed {evidence : Value} {result : CriterionResult}
    (h : evaluateCriterion F run current criterion evidence authenticated = .ok result)
    (hpassed : result.state = .passed) :
    ∃ id contract, criterion.get "id" = .str id ∧ result.criterionId = id ∧
      criterionContract criterion = some contract ∧ authenticated = true ∧
      Supports F run current id contract evidence := by
  unfold evaluateCriterion at h
  split at h
  · cases h
    cases hpassed
  rename_i id hid
  split at h
  · cases h
    cases hpassed
  rename_i contract hcontract
  split at h
  · rename_i judgement hjudge
    cases h
    obtain ⟨hauthenticated,hsupports⟩ := judge_passed hjudge hpassed
    exact ⟨id,contract,(Value.text?_eq_some.mp hid).1,rfl,hcontract,hauthenticated,hsupports⟩
  · cases h
    cases hpassed
  · cases h

/-! Heads. -/

def groupHead (groups : Table (Table String)) (scope id : String) : Option String :=
  groups[scope]?.bind fun bindings => bindings[id]?

theorem groupHead_addHead (groups : Table (Table String)) (entry : String × String × Option String)
    (scope id : String) :
    groupHead (addHead groups entry) scope id =
      if entry.2.2 = some scope ∧ entry.1 = id then some entry.2.1 else groupHead groups scope id := by
  obtain ⟨other,head,place⟩ := entry
  cases place with
  | none => simp [addHead]
  | some place =>
    simp only [addHead,groupHead,Tables.get_insert,Option.some.injEq]
    by_cases hplace : scope = place
    · subst hplace
      by_cases hid : id = other
      · simp [hid]
      · cases hold : groups[scope]? <;> simp [Tables.get_insert,hid,Ne.symm hid]
    · simp [hplace,Ne.symm hplace]

theorem groupHead_foldl {heads : String → Option String} {entries : List (String × String × Option String)}
    (hheads : ∀ entry ∈ entries, heads entry.1 = some entry.2.1) (hid : heads id = some head)
    (h : (id,head,some scope) ∈ entries ∨ groupHead groups scope id = some head) :
    groupHead (entries.foldl addHead groups) scope id = some head := by
  induction entries generalizing groups with
  | nil => exact h.resolve_left (by simp)
  | cons entry rest ih =>
    refine ih (fun later hlater => hheads later (List.mem_cons_of_mem _ hlater)) ?_
    rw [groupHead_addHead]
    rcases h with hentry | hold
    · rcases List.mem_cons.mp hentry with rfl | hrest
      · exact .inr (if_pos ⟨rfl,rfl⟩)
      · exact .inl hrest
    · refine .inr ?_
      split_ifs with hsame
      · -- an entry of the same criterion has the same head
        rw [← hheads entry List.mem_cons_self,hsame.2,hid]
      · exact hold

theorem head_eq_of_groups {first second : String}
    (hnone : ((groups.toList.map Prod.snd).filter conflicting) = []) (hfirst : groupHead groups scope first = some head)
    (hsecond : groupHead groups scope second = some head') : head = head' := by
  simp only [groupHead,Option.bind_eq_some_iff] at hfirst hsecond
  obtain ⟨bindings,hbindings,hfirst⟩ := hfirst
  obtain ⟨bindings',hbindings',hsecond⟩ := hsecond
  obtain rfl := Option.some.inj (hbindings.symm.trans hbindings')
  have hquiet := List.filter_eq_nil_iff.mp hnone bindings
    (List.mem_map.mpr ⟨(scope,bindings),Std.ExtTreeMap.mem_toList_iff_getElem?_eq_some.mpr hbindings,rfl⟩)
  by_contra hne
  refine hquiet (List.any_eq_true.mpr ⟨(first,head),Std.ExtTreeMap.mem_toList_iff_getElem?_eq_some.mpr hfirst,?_⟩)
  refine List.any_eq_true.mpr ⟨(second,head'),Std.ExtTreeMap.mem_toList_iff_getElem?_eq_some.mpr hsecond,?_⟩
  simpa using hne

theorem sharedHead_eq_some
    {entry : String × String × Option String} (h : sharedHead evidence passed criterion = some entry) :
    headRevision evidence entry.1 = some entry.2.1 := by
  simp only [sharedHead,Option.bind_eq_bind,Option.bind_eq_some_iff] at h
  obtain ⟨id,_,contract,_,head,hhead,hentry⟩ := h
  split_ifs at hentry
  cases hentry
  exact hhead

theorem validConfig_of_contract
    (h : criterionContract criterion = some contract) : validConfig contract.config contract.verifier = true := by
  simp only [criterionContract,criterionVerifierConfig,Option.bind_eq_bind,Option.bind_eq_some_iff] at h
  obtain ⟨verifier,_,htyped⟩ := h
  split_ifs at htyped with _ hvalid
  · cases htyped
    exact (Bool.and_eq_true_iff.mp hvalid).2
  · simp at htyped

theorem head_of_pullRequest (h : contract.pullRequest? = some target) :
    "head_sha" ∈ contract.verifier.targetBindings ∧ "head_sha" ∈ contract.verifier.revisionBinding ∧
      (validConfig contract.config contract.verifier = true → sha (contract.config.get "head_sha") = true) := by
  obtain ⟨verifier,config⟩ := contract
  cases verifier with
  | codeMerged => simp_all [validConfig,Verifier.targetBindings,Verifier.revisionBinding]
  | requiredCiGreen => simp_all [validConfig,Verifier.targetBindings,Verifier.revisionBinding]
  | _ => simp [Contract.pullRequest?] at h

theorem exists_head (hvalid : validConfig contract.config contract.verifier = true)
    (htarget : contract.pullRequest? = some target) (hitem : evidence id = some item)
    (hsupports : Supports F run current id contract item) : ∃ head, headRevision evidence id = some head := by
  obtain ⟨hbound,_,hsha⟩ := head_of_pullRequest htarget
  have hsame := hsupports.target "head_sha" hbound
  obtain ⟨head,hhead,hlength⟩ := (Option.any_eq_true ..).mp (hsha hvalid)
  rw [Value.str?_eq_some.mp hhead,Value.same_str] at hsame
  refine ⟨head,?_⟩
  rw [headRevision,hitem,Option.getD_some,Value.text?_eq_some]
  refine ⟨hsame,fun hempty => ?_⟩
  rw [hempty] at hlength
  revert hlength
  decide

theorem sharedHead_of_pullRequest
    (hid : criterion.get "id" = .str id) (hcontract : criterionContract criterion = some contract)
    (htarget : contract.pullRequest? = some target) (hitem : evidence id = some item)
    (hsupports : Supports F run current id contract item) (hpassed : id ∈ passed) :
    ∃ head, headRevision evidence id = some head ∧
      sharedHead evidence passed criterion = some (id,head,sharedRevisionScope contract) := by
  obtain ⟨head,hhead⟩ := exists_head (validConfig_of_contract hcontract) htarget hitem hsupports
  refine ⟨head,hhead,?_⟩
  simp [sharedHead,hid,Value.str?,hcontract,hhead,hpassed,(head_of_pullRequest htarget).2.1]

theorem overallState_passed {consistency : Consistency}
    (h : overallState results consistency = .passed) :
    results ≠ [] ∧ (∀ result ∈ results, result.state = .passed) ∧ consistency.conflicts = [] := by
  simp only [overallState] at h
  split_ifs at h with hfailed hunknown
  simp only [Bool.or_eq_true,not_or,List.contains_iff_mem,List.mem_map,not_exists,not_and,List.isEmpty_iff,
    Bool.not_eq_true',Bool.not_eq_false] at hfailed hunknown
  refine ⟨hunknown.1.1,fun result hresult => ?_,hunknown.2⟩
  have hnotFailed := hfailed result hresult
  have hnotUnknown := hunknown.1.2 result hresult
  cases hstate : result.state with
  | passed => rfl
  | failed => exact (hnotFailed hstate).elim
  | unknown => exact (hnotUnknown hstate).elim

/-- Criteria that are compared in one scope have one head, unless there is a conflict. -/
theorem head_eq_of_consistent
    (hquiet : (crossCriterionRevisionConsistency criteria evidence results).conflicts = []) {first second : Value}
    (hfirst : first ∈ criteria) (hsecond : second ∈ criteria) {id' : String}
    (hshared : sharedHead evidence (passedIds results) first = some (id,head,some scope))
    (hshared' : sharedHead evidence (passedIds results) second = some (id',head',some scope)) : head = head' := by
  have hheads : ∀ entry ∈ criteria.filterMap (sharedHead evidence (passedIds results)),
      headRevision evidence entry.1 = some entry.2.1 := by
    intro entry hentry
    obtain ⟨_,_,hentry⟩ := List.mem_filterMap.mp hentry
    exact sharedHead_eq_some hentry
  have hmem := List.mem_filterMap.mpr ⟨first,hfirst,hshared⟩
  have hmem' := List.mem_filterMap.mpr ⟨second,hsecond,hshared'⟩
  exact head_eq_of_groups hquiet (groupHead_foldl hheads (hheads _ hmem) (.inl hmem))
    (groupHead_foldl hheads (hheads _ hmem') (.inl hmem'))

/-- A criterion among results that all passed has evidence that is authenticated and supports it. -/
theorem supports_of_passed {authenticated : List String}
    (hresults : collect (fun criterion => evaluateCriterion F run current criterion
      (((criterion.get "id").str?.bind evidence).getD .null)
      ((criterion.get "id").str?.any authenticated.contains)) criteria = .ok results)
    (hall : ∀ result ∈ results, result.state = .passed) (hcriterion : criterion ∈ criteria) :
    ∃ id contract item, criterion.get "id" = .str id ∧ criterionContract criterion = some contract ∧
      evidence id = some item ∧ id ∈ authenticated ∧ Supports F run current id contract item ∧
      id ∈ passedIds results := by
  obtain ⟨result,hresult,heval⟩ := exists_of_collect hresults hcriterion
  obtain ⟨id,contract,hid,hresultId,hcontract,hauthenticated,hsupports⟩ :=
    evaluateCriterion_passed heval (hall result hresult)
  have hmem : id ∈ passedIds results :=
    List.mem_map.mpr ⟨result,List.mem_filter.mpr ⟨hresult,by simpa using hall result hresult⟩,hresultId⟩
  rw [hid] at hsupports hauthenticated
  cases hitem : evidence id with
  | none =>
    have hnone := hsupports.criterion.1
    simp [Value.str?,hitem,Value.get] at hnone
  | some item =>
    refine ⟨id,contract,item,hid,hcontract,hitem,by simpa [Value.str?] using hauthenticated,?_,hmem⟩
    simpa [Value.str?,hitem] using hsupports

end Acceptance

open Acceptance

/-- A run that passes has a criterion, and for every criterion authenticated evidence that supports it;
the criteria of one pull request have one head. -/
theorem acceptance_sound {F : Formats} {run : RunContext} {clock : ℤ} {now : Option String} {criteria : List Value}
    {evidence : String → Option Value} {authenticated : List String} {evaluation : Evaluation}
    (h : evaluateAcceptance F run clock now criteria evidence authenticated = .ok evaluation)
    (hpassed : evaluation.state = .passed) :
    criteria ≠ [] ∧ resolveNow F clock now = .ok evaluation.evaluatedAt ∧
      (∀ criterion ∈ criteria, ∃ id contract item, criterion.get "id" = .str id ∧
        criterionContract criterion = some contract ∧ evidence id = some item ∧ id ∈ authenticated ∧
        Supports F run evaluation.evaluatedAt id contract item) ∧
      ∀ first ∈ criteria, ∀ second ∈ criteria, ∀ id contract id' contract' target, first.get "id" = .str id →
        criterionContract first = some contract → second.get "id" = .str id' →
        criterionContract second = some contract' → contract.pullRequest? = some target →
        contract'.pullRequest? = some target → headRevision evidence id = headRevision evidence id' := by
  simp only [evaluateAcceptance,Transactions.bind_eq_ok,Transactions.pure_eq_ok] at h
  obtain ⟨current,hnow,results,hresults,rfl⟩ := h
  obtain ⟨hsome,hall,hquiet⟩ := overallState_passed hpassed
  refine ⟨?_,hnow,fun criterion hcriterion => ?_,?_⟩
  · intro hnil
    subst hnil
    cases hresults
    exact hsome rfl
  · obtain ⟨id,contract,item,hid,hcontract,hitem,hauthenticated,hsupports,_⟩ :=
      supports_of_passed hresults hall hcriterion
    exact ⟨id,contract,item,hid,hcontract,hitem,hauthenticated,hsupports⟩
  · intro first hfirst second hsecond id contract id' contract' target hid hcontract hid' hcontract' htarget htarget'
    have hshared : ∀ criterion ∈ criteria, ∀ id contract, criterion.get "id" = .str id →
        criterionContract criterion = some contract → contract.pullRequest? = some target →
        ∃ head, headRevision evidence id = some head ∧ sharedHead evidence (passedIds results) criterion =
          some (id,head,some ("github-pr:" ++ target.repository ++ "#" ++ toString target.number)) := by
      intro criterion hcriterion id contract hid hcontract htarget
      obtain ⟨_,_,item,hid',hcontract',hitem,_,hsupports,hmem⟩ := supports_of_passed hresults hall hcriterion
      obtain rfl := Value.str.inj (hid.symm.trans hid')
      obtain rfl := Option.some.inj (hcontract.symm.trans hcontract')
      obtain ⟨head,hhead,hshared⟩ := sharedHead_of_pullRequest hid hcontract htarget hitem hsupports hmem
      rw [sharedRevisionScope,htarget,Option.map_some] at hshared
      exact ⟨head,hhead,hshared⟩
    obtain ⟨head,hhead,hfirstHead⟩ := hshared first hfirst id contract hid hcontract htarget
    obtain ⟨head',hhead',hsecondHead⟩ := hshared second hsecond id' contract' hid' hcontract' htarget'
    rw [hhead,hhead',head_eq_of_consistent hquiet hfirst hsecond hfirstHead hsecondHead]

namespace Sample

def sameHour : Formats := ⟨fun _ => some 0,id⟩

def shaOf (c : Char) (length : ℕ) : String := String.ofList (List.replicate length c)

def mergedAt (id : String) (number : ℤ) (head : Char) : Value :=
  .obj [("evidence_type",.str "object"),("id",.str id),("verifier",.str "code_merged"),
    ("verifier_config",.obj [("base_ref",.str "main"),("head_sha",.str (shaOf head 40)),("pull_request",.int number),
      ("repository",.str "heimgewebe/bureau")])]

def mergeRevision (head : Char) : List (String × Value) :=
  [("base_ref",.str "main"),("head_sha",.str (shaOf head 40)),("merge_commit_sha",.str (shaOf 'c' 40))]

def mergeEvidence (id : String) (head : Char) : Value :=
  .obj [("criterion_id",.str id),("evidence_type",.str "code_merged"),
    ("facts",.obj (mergeRevision head ++ [("merged",.bool true)])),("kind",.str "bureau.acceptance_evidence"),
    ("observed_at",.str "2026-01-01T00:00:00Z"),
    ("revision",.obj (mergeRevision head ++ [("task_sha256",.str (shaOf 'd' 64))])),("schema_version",.int 1),
    ("source",.obj [("authority",.str "github"),("reference",.str "github-pr")])]

def acceptedRun : RunContext := ⟨"T-1","RUN-1",shaOf 'd' 64,none⟩

/-- The merges of two pull requests of one repository, each at its own head. -/
def twoMerges : List Value := [mergedAt "first" 7 'a',mergedAt "second" 8 'b']

def mergesEvidence : String → Option Value
  | "first" => some (mergeEvidence "first" 'a')
  | "second" => some (mergeEvidence "second" 'b')
  | _ => none

theorem twoMerges_passed : ∃ evaluation, evaluateAcceptance sameHour acceptedRun 0 none twoMerges mergesEvidence
    ["first","second"] = .ok evaluation ∧ evaluation.state = .passed := by
  have hstate : (evaluateAcceptance sameHour acceptedRun 0 none twoMerges mergesEvidence
      ["first","second"]).toOption.any (fun evaluation => evaluation.state = .passed) = true := by
    decide +kernel
  simpa only [Option.any_eq_true,Transactions.toOption_eq_some,decide_eq_true_eq] using hstate

end Sample

theorem acceptance_sound_merges : ∃ evaluation contract item,
    evaluateAcceptance Sample.sameHour Sample.acceptedRun 0 none Sample.twoMerges Sample.mergesEvidence
        ["first","second"] = .ok evaluation ∧ evaluation.state = .passed ∧
      criterionContract (Sample.mergedAt "first" 7 'a') = some contract ∧ Sample.mergesEvidence "first" = some item ∧
      Supports Sample.sameHour Sample.acceptedRun evaluation.evaluatedAt "first" contract item := by
  obtain ⟨evaluation,hok,hpassed⟩ := Sample.twoMerges_passed
  obtain ⟨_,_,hcriteria,_⟩ := acceptance_sound hok hpassed
  obtain ⟨id,contract,item,hid,hcontract,hitem,_,hsupports⟩ :=
    hcriteria (Sample.mergedAt "first" 7 'a') List.mem_cons_self
  obtain rfl : "first" = id := Value.str.inj hid
  exact ⟨evaluation,contract,item,hok,hpassed,hcontract,hitem,hsupports⟩

/-- Two criteria of one repository pass at different heads, since they are about different pull
requests. -/
theorem two_heads_of_one_repository : ∃ evaluation,
    evaluateAcceptance Sample.sameHour Sample.acceptedRun 0 none Sample.twoMerges Sample.mergesEvidence
        ["first","second"] = .ok evaluation ∧ evaluation.state = .passed ∧
      Sample.twoMerges.map (fun criterion => (criterionContract criterion).bind Contract.pullRequest?) =
        [some ⟨"heimgewebe/bureau",7⟩,some ⟨"heimgewebe/bureau",8⟩] ∧
      headRevision Sample.mergesEvidence "first" ≠ headRevision Sample.mergesEvidence "second" := by
  obtain ⟨evaluation,hok,hpassed⟩ := Sample.twoMerges_passed
  exact ⟨evaluation,hok,hpassed,by decide +kernel,by decide +kernel⟩

end Bureau
