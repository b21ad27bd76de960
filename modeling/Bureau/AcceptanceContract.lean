import Bureau.Acceptance

/-!
The acceptance contract of a TaskSpec. `validate_acceptance_contract` is the gate for every writer: it
reports what is wrong with each criterion, and accepts the task if there is nothing to report.
-/

namespace Bureau

namespace Acceptance

structure Diagnostic where
  taskId : String
  criterionId : String
  path : String
  code : String
  message : String
  missingFields : List String := []
  invalidFields : List String := []

/-- One line of the message of `AcceptanceContractError`. -/
def Diagnostic.rendered (item : Diagnostic) : String :=
  let suffix := (if item.missingFields = [] then [] else ["missing=" ++ ",".intercalate item.missingFields]) ++
    if item.invalidFields = [] then [] else ["invalid=" ++ ",".intercalate item.invalidFields]
  "task " ++ item.taskId ++ " criterion " ++ item.criterionId ++ " at " ++ item.path ++ ": " ++ item.message ++
    if suffix = [] then "" else "; " ++ "; ".intercalate suffix

structure AcceptanceContractError where
  diagnostics : List Diagnostic

def AcceptanceContractError.message (error : AcceptanceContractError) : String :=
  "\n".intercalate (error.diagnostics.map Diagnostic.rendered)

def executableVerifiers : List Verifier :=
  [.codeMerged,.requiredCiGreen,.deploymentComplete,.runtimeCommitContains,.liveProbePassed,.manualObservation,
    .durationSoakCompleted,.noEffectVerified,.artifactHashMatches]

structure Place where
  taskId : String
  criterionId : String
  path : String

def Place.diagnostic (place : Place) (field code message : String) (missing invalid : List String) : Diagnostic :=
  ⟨place.taskId,place.criterionId,place.path ++ field,code,message,missing,invalid⟩

/-! The checks of a criterion, each with what it reports. `seen` has the ids so far with their positions. -/

def idDiagnostics (place : Place) (seen : List (String × ℕ)) (id : Value) : List Diagnostic :=
  match id.text? with
  | none =>
    if id.isNull then
      [place.diagnostic ".id" "criterion-id-missing" "criterion id must be a non-empty string" ["id"] []]
    else [place.diagnostic ".id" "criterion-id-invalid" "criterion id must be a non-empty string" [] ["id"]]
  | some text =>
    match seen.lookup text with
    | some first => [place.diagnostic ".id" "duplicate-criterion-id"
        ("criterion id duplicates $.acceptance[" ++ toString first ++ "].id") [] ["id"]]
    | none => []

def evidenceTypeDiagnostics (place : Place) (evidenceType : Value) : List Diagnostic :=
  if evidenceType.isNull then
    [place.diagnostic ".evidence_type" "evidence-type-missing" "evidence_type is required and must be exactly 'object'"
      ["evidence_type"] []]
  else if evidenceType.str? ≠ some "object" then
    [place.diagnostic ".evidence_type" "evidence-type-invalid" "evidence_type must be exactly 'object'" []
      ["evidence_type"]]
  else []

/-- `repr` is the one of the language. -/
def verifierDiagnostics (repr : Value → String) (place : Place) (verifier : Value) : List Diagnostic :=
  if verifier.isNull then [place.diagnostic ".verifier" "verifier-missing" "verifier is required" ["verifier"] []]
  else
    match verifier.str?.bind Verifier.ofText? with
    | none => [place.diagnostic ".verifier" "verifier-unknown"
        ("verifier " ++ repr verifier ++ " is not a known bounded verifier") [] ["verifier"]]
    | some known =>
      if known ∉ executableVerifiers then
        [place.diagnostic ".verifier" "verifier-not-executable"
          ("verifier " ++ repr verifier ++ " has no executable evaluator") [] ["verifier"]]
      else []

def configKeys : Value → List String
  | .obj fields => fields.map Prod.fst
  | _ => []

def configPaths (fields : List String) : List String :=
  (fields.dedup.insertionSort (· ≤ ·)).map fun field => "verifier_config." ++ field

/-- The fields a configuration lacks, and those it should not have, or all of them. -/
def configMismatch (repr : Value → String) (place : Place) (verifier : Value) (known : Verifier) (config : Value) :
    Diagnostic :=
  let missing := configPaths (known.configFields.filter fun field => !(configKeys config).contains field)
  let unexpected := configPaths ((configKeys config).filter fun field => !known.configFields.contains field)
  let invalid := if missing = [] && unexpected = [] then configPaths known.configFields else unexpected
  place.diagnostic ".verifier_config" "verifier-config-mismatch"
    ("verifier_config does not exactly match verifier " ++ repr verifier) missing
    (if invalid = [] then ["verifier_config"] else invalid)

def configDiagnostics (repr : Value → String) (place : Place) (criterion : Value) : List Diagnostic :=
  let config := criterion.get "verifier_config"
  if config.isNull then
    [place.diagnostic ".verifier_config" "verifier-config-missing"
      "verifier_config is required and must exactly match the verifier" ["verifier_config"] []]
  else if !config.isObj then
    [place.diagnostic ".verifier_config" "verifier-config-invalid" "verifier_config must be an object" []
      ["verifier_config"]]
  else
    match (criterion.get "verifier").str?.bind Verifier.ofText? with
    | some known =>
      if (criterionVerifierConfig known criterion).isNone then
        [configMismatch repr place (criterion.get "verifier") known config]
      else []
    | none => []

def criterionDiagnostics (repr : Value → String) (taskId : String) (index : ℕ) (seen : List (String × ℕ))
    (criterion : Value) : List Diagnostic :=
  let path := "$.acceptance[" ++ toString index ++ "]"
  let unnamed := "<criterion-" ++ toString index ++ ">"
  if !criterion.isObj then
    [⟨taskId,unnamed,path,"criterion-invalid","criterion must be an object",[],["criterion"]⟩]
  else
    let place : Place := ⟨taskId,(criterion.get "id").text?.getD unnamed,path⟩
    let found := idDiagnostics place seen (criterion.get "id") ++
      evidenceTypeDiagnostics place (criterion.get "evidence_type") ++
      verifierDiagnostics repr place (criterion.get "verifier") ++ configDiagnostics repr place criterion
    if found.isEmpty && (criterionContract criterion).isNone then
      [place.diagnostic "" "criterion-not-executable" "criterion does not resolve to an executable typed contract" []
        ["evidence_type","verifier","verifier_config"]]
    else found

/-- The ids so far after one more criterion; the first position of an id is kept. -/
def seenIds (index : ℕ) (seen : List (String × ℕ)) (criterion : Value) : List (String × ℕ) :=
  match (criterion.get "id").text? with
  | some id => if (seen.lookup id).isNone then (id,index) :: seen else seen
  | none => seen

def criteriaDiagnostics (repr : Value → String) (taskId : String) : ℕ → List (String × ℕ) → List Value → List Diagnostic
  | _, _, [] => []
  | index, seen, criterion :: rest =>
    criterionDiagnostics repr taskId index seen criterion ++
      criteriaDiagnostics repr taskId (index+1) (seenIds index seen criterion) rest

def acceptanceDiagnostics (repr : Value → String) (task : Value) : List Diagnostic :=
  let taskId := (task.get "id").text?.getD "<missing-task-id>"
  let message := "acceptance must contain at least one executable typed criterion"
  match (task.get "acceptance").arr? with
  | none => [⟨taskId,"<acceptance>","$.acceptance","acceptance-invalid",message,
      if (task.get "acceptance").isNull then ["acceptance"] else [],["acceptance"]⟩]
  | some [] => [⟨taskId,"<acceptance>","$.acceptance","acceptance-empty",message,[],[]⟩]
  | some (criterion :: rest) => criteriaDiagnostics repr taskId 0 [] (criterion :: rest)

def validateAcceptanceContract (repr : Value → String) (task : Value) : Except AcceptanceContractError Unit :=
  let diagnostics := acceptanceDiagnostics repr task
  if diagnostics.isEmpty then .ok () else .error ⟨diagnostics⟩

/-! `typed_criterion_contracts`. -/

structure TypedContracts where
  complete : Bool
  criteria : List (String × Contract)
  invalidCriterionIds : List String

def typedCriterion (criterion : Value) : Except String (String × Contract) :=
  match (criterion.get "id").text? with
  | none => .error "<missing-id>"
  | some id =>
    match criterionContract criterion with
    | none => .error id
    | some contract => .ok (id,contract)

/-- An item that is no mapping has no method `get`, which raises `AttributeError`. -/
def typedCriterionContracts (criteria : List Value) : Option TypedContracts :=
  if criteria.all Value.isObj then
    let invalid := criteria.filterMap fun criterion =>
      match typedCriterion criterion with
      | .ok _ => none
      | .error id => some id
    some ⟨invalid.isEmpty,criteria.filterMap fun criterion => (typedCriterion criterion).toOption,invalid⟩
  else none

/-! What the checks accept. -/

section Checks

variable {repr : Value → String} {place : Place} {criterion : Value} {seen : List (String × ℕ)} {taskId : String}
  {index : ℕ}

@[simp] theorem idDiagnostics_eq_nil {id : Value} :
    idDiagnostics place seen id = [] ↔ ∃ text, id.text? = some text ∧ seen.lookup text = none := by
  unfold idDiagnostics
  cases hid : id.text? with
  | none => by_cases hnull : id.isNull = true <;> simp [hnull]
  | some text =>
    cases hseen : seen.lookup text with
    | none => exact iff_of_true (by simp only [hseen]) ⟨text,rfl,hseen⟩
    | some first =>
      refine iff_of_false (by simp only [hseen,List.cons_ne_nil,not_false_eq_true]) ?_
      intro ⟨other,hother,hnone⟩
      cases Option.some.inj hother
      cases hseen.symm.trans hnone

@[simp] theorem evidenceTypeDiagnostics_eq_nil {evidenceType : Value} :
    evidenceTypeDiagnostics place evidenceType = [] ↔ evidenceType.str? = some "object" := by
  unfold evidenceTypeDiagnostics
  by_cases hobject : evidenceType.str? = some "object"
  · have hnull : ¬ evidenceType.isNull = true := by
      cases evidenceType <;> simp [Value.str?,Value.isNull] at hobject ⊢
    rw [if_neg hnull,if_neg (not_not.mpr hobject)]
    exact iff_of_true rfl hobject
  · by_cases hnull : evidenceType.isNull = true <;> simp [hnull,hobject]

@[simp] theorem mem_executableVerifiers (known : Verifier) : known ∈ executableVerifiers := by
  cases known <;> decide

@[simp] theorem verifierDiagnostics_eq_nil {verifier : Value} :
    verifierDiagnostics repr place verifier = [] ↔ ∃ known, verifier.str?.bind Verifier.ofText? = some known := by
  unfold verifierDiagnostics
  cases hknown : verifier.str?.bind Verifier.ofText? with
  | none => by_cases hnull : verifier.isNull = true <;> simp [hnull]
  | some known =>
    have hnull : ¬ verifier.isNull = true := by
      cases verifier <;> simp [Value.str?,Value.isNull] at hknown ⊢
    simp [hnull,mem_executableVerifiers]

theorem configDiagnostics_eq_nil {known : Verifier}
    (hknown : (criterion.get "verifier").str?.bind Verifier.ofText? = some known) :
    configDiagnostics repr place criterion = [] ↔ (criterionVerifierConfig known criterion).isSome = true := by
  have hobj : (criterionVerifierConfig known criterion).isSome = true →
    (criterion.get "verifier_config").isObj = true := by
    unfold criterionVerifierConfig
    cases criterion.get "verifier_config" <;> simp [hasFields,Value.isObj]
  have hnull : (criterion.get "verifier_config").isObj = true → (criterion.get "verifier_config").isNull = false := by
    cases criterion.get "verifier_config" <;> simp [Value.isObj,Value.isNull]
  unfold configDiagnostics
  by_cases hisObj : (criterion.get "verifier_config").isObj = true
  · simp only [hnull hisObj,hisObj,hknown]
    cases criterionVerifierConfig known criterion <;> simp
  · have hnone : ¬ (criterionVerifierConfig known criterion).isSome = true := fun h => hisObj (hobj h)
    by_cases hmissing : (criterion.get "verifier_config").isNull = true <;> simp [hmissing,hisObj,hnone]

theorem criterionContract_isSome : (criterionContract criterion).isSome = true ↔
    (criterion.get "evidence_type").str? = some "object" ∧
      ∃ known, (criterion.get "verifier").str?.bind Verifier.ofText? = some known ∧
        (criterionVerifierConfig known criterion).isSome = true := by
  unfold criterionContract
  cases hknown : (criterion.get "verifier").str?.bind Verifier.ofText? with
  | none => simp
  | some known =>
    by_cases hobject : (criterion.get "evidence_type").str? = some "object"
    · cases hconfig : criterionVerifierConfig known criterion <;> simp [hobject,hconfig]
    · simp [hobject]

@[simp] theorem criterionDiagnostics_eq_nil : criterionDiagnostics repr taskId index seen criterion = [] ↔
    criterion.isObj = true ∧ (∃ id, (criterion.get "id").text? = some id ∧ seen.lookup id = none) ∧
      (criterionContract criterion).isSome = true := by
  by_cases hobj : criterion.isObj = true
  · have hfound (place : Place) : idDiagnostics place seen (criterion.get "id") ++
        evidenceTypeDiagnostics place (criterion.get "evidence_type") ++
        verifierDiagnostics repr place (criterion.get "verifier") ++ configDiagnostics repr place criterion = [] ↔
        (∃ id, (criterion.get "id").text? = some id ∧ seen.lookup id = none) ∧
          (criterionContract criterion).isSome = true := by
      rw [criterionContract_isSome]
      simp only [List.append_eq_nil_iff,and_assoc,idDiagnostics_eq_nil,evidenceTypeDiagnostics_eq_nil,
        verifierDiagnostics_eq_nil]
      refine and_congr_right fun _ => and_congr_right fun _ => ?_
      constructor
      · intro ⟨⟨known,hknown⟩,hconfig⟩
        exact ⟨known,hknown,(configDiagnostics_eq_nil hknown).mp hconfig⟩
      · intro ⟨known,hknown,hconfig⟩
        exact ⟨⟨known,hknown⟩,(configDiagnostics_eq_nil hknown).mpr hconfig⟩
    have hplace := hfound ⟨taskId,(criterion.get "id").text?.getD ("<criterion-" ++ toString index ++ ">"),
      "$.acceptance[" ++ toString index ++ "]"⟩
    have hisObj : ¬ (!criterion.isObj) = true := by simp [hobj]
    unfold criterionDiagnostics
    dsimp only
    rw [if_neg hisObj,and_iff_right hobj]
    by_cases hcontract : (criterionContract criterion).isSome = true
    · have hlast : (criterionContract criterion).isNone = false := by
        rw [Option.isSome_iff_exists] at hcontract
        obtain ⟨contract,hcontract⟩ := hcontract
        rw [hcontract]
        rfl
      rw [hlast,Bool.and_false,if_neg Bool.false_ne_true]
      exact hplace
    · -- without a contract an earlier check reports something, or the last one does
      refine iff_of_false (fun hnil => ?_) fun h => hcontract h.2
      split at hnil
      · exact absurd hnil (List.cons_ne_nil _ _)
      · exact hcontract (hplace.mp hnil).2
  · unfold criterionDiagnostics
    simp [hobj]

end Checks

def criterionIds (criteria : List Value) : List String := criteria.filterMap fun criterion => (criterion.get "id").text?

/-- Criteria that are objects, each with a non-empty id and a contract. -/
def Typed (criteria : List Value) : Prop :=
  ∀ criterion ∈ criteria, criterion.isObj = true ∧ (criterion.get "id").text?.isSome = true ∧
    (criterionContract criterion).isSome = true

variable {criterion : Value} {index : ℕ} {criteria : List Value} {repr : Value → String}

theorem lookup_seenIds {seen : List (String × ℕ)} {id : String}
    (h : (criterion.get "id").text? = some id) (hnew : seen.lookup id = none) (other : String) :
    (seenIds index seen criterion).lookup other = none ↔ other ≠ id ∧ seen.lookup other = none := by
  simp only [seenIds,h,hnew,Option.isNone_none,if_true,List.lookup_cons]
  by_cases hother : other = id
  · simp [hother]
  · rw [beq_eq_false_iff_ne.mpr hother]
    exact ⟨fun hnone => ⟨hother,hnone⟩,fun hnone => hnone.2⟩

@[simp] theorem criteriaDiagnostics_eq_nil {taskId : String} {seen : List (String × ℕ)} :
    criteriaDiagnostics repr taskId index seen criteria = [] ↔
      Typed criteria ∧ (criterionIds criteria).Nodup ∧ ∀ id ∈ criterionIds criteria, seen.lookup id = none := by
  induction criteria generalizing index seen with
  | nil => simp [criteriaDiagnostics,Typed,criterionIds]
  | cons criterion rest ih =>
    rw [criteriaDiagnostics,List.append_eq_nil_iff,criterionDiagnostics_eq_nil,ih]
    constructor
    · intro ⟨⟨hobj,⟨id,hid,hnew⟩,hcontract⟩,htyped,hnodup,hseen⟩
      have hids : criterionIds (criterion :: rest) = id :: criterionIds rest := List.filterMap_cons_some hid
      have hapart : ∀ other ∈ criterionIds rest, other ≠ id ∧ seen.lookup other = none := fun other hother =>
        (lookup_seenIds hid hnew other).mp (hseen other hother)
      rw [hids,List.nodup_cons]
      refine ⟨?_,⟨fun hmem => (hapart id hmem).1 rfl,hnodup⟩,?_⟩
      · intro other hother
        rcases List.mem_cons.mp hother with rfl | hother
        · exact ⟨hobj,by rw [hid]; rfl,hcontract⟩
        · exact htyped other hother
      · intro other hother
        rcases List.mem_cons.mp hother with rfl | hother
        · exact hnew
        · exact (hapart other hother).2
    · intro ⟨htyped,hnodup,hseen⟩
      obtain ⟨hobj,hsome,hcontract⟩ := htyped criterion List.mem_cons_self
      obtain ⟨id,hid⟩ := Option.isSome_iff_exists.mp hsome
      have hids : criterionIds (criterion :: rest) = id :: criterionIds rest := List.filterMap_cons_some hid
      rw [hids] at hnodup hseen
      obtain ⟨hfirst,hrest⟩ := List.nodup_cons.mp hnodup
      have hnew := hseen id List.mem_cons_self
      refine ⟨⟨hobj,⟨id,hid,hnew⟩,hcontract⟩,fun other hother => htyped other (List.mem_cons_of_mem _ hother),hrest,?_⟩
      intro other hother
      refine (lookup_seenIds hid hnew other).mpr ⟨?_,hseen other (List.mem_cons_of_mem _ hother)⟩
      rintro rfl
      exact hfirst hother

theorem validateAcceptanceContract_eq_ok {task : Value} :
    validateAcceptanceContract repr task = .ok () ↔ ∃ criteria, task.get "acceptance" = .arr criteria ∧ criteria ≠ [] ∧
      Typed criteria ∧ (criterionIds criteria).Nodup := by
  have hok : validateAcceptanceContract repr task = .ok () ↔ acceptanceDiagnostics repr task = [] := by
    unfold validateAcceptanceContract
    by_cases hnil : acceptanceDiagnostics repr task = [] <;> simp [hnil]
  rw [hok,acceptanceDiagnostics]
  cases hacceptance : task.get "acceptance" with
  | arr criteria =>
    cases criteria with
    | nil => simp [Value.arr?]
    | cons criterion rest =>
      simp only [Value.arr?,criteriaDiagnostics_eq_nil,List.lookup_nil,implies_true,and_true,Value.arr.injEq]
      constructor
      · intro h
        exact ⟨_,rfl,List.cons_ne_nil _ _,h⟩
      · intro ⟨_,hcriteria,_,h⟩
        exact hcriteria ▸ h
  | _ => simp [Value.arr?]

theorem typedCriterion_isOk :
    (∃ typed, typedCriterion criterion = .ok typed) ↔
      (criterion.get "id").text?.isSome = true ∧ (criterionContract criterion).isSome = true := by
  unfold typedCriterion
  cases (criterion.get "id").text? <;> cases criterionContract criterion <;> simp

theorem typedCriterionContracts_complete :
    (∃ report, typedCriterionContracts criteria = some report ∧ report.complete = true) ↔ Typed criteria := by
  unfold typedCriterionContracts
  by_cases hobj : criteria.all Value.isObj = true
  · simp only [hobj,if_true,Option.some.injEq,exists_eq_left',List.isEmpty_iff,List.filterMap_eq_nil_iff]
    refine forall₂_congr fun criterion hcriterion => ?_
    rw [and_iff_right (List.all_eq_true.mp hobj criterion hcriterion),← typedCriterion_isOk]
    cases typedCriterion criterion <;> simp
  · simp only [hobj,if_false,Bool.false_eq_true,reduceCtorEq,false_and,exists_false,false_iff]
    intro htyped
    exact hobj (List.all_eq_true.mpr fun criterion hcriterion => (htyped criterion hcriterion).1)

end Acceptance

open Acceptance

/-- A task is accepted exactly if its acceptance is a nonempty list of objects with different nonempty ids that all
have a contract, that is, a nonempty list with different ids that is reported to be complete. Each criterion of
such a task is evaluated under its contract. -/
theorem acceptance_validator_exact (repr : Value → String) (task : Value) :
    (validateAcceptanceContract repr task = .ok () ↔ ∃ criteria, task.get "acceptance" = .arr criteria ∧ criteria ≠ [] ∧
      (∀ criterion ∈ criteria, criterion.isObj = true ∧ (criterion.get "id").text?.isSome = true ∧
        (criterionContract criterion).isSome = true) ∧ (criterionIds criteria).Nodup) ∧
    (validateAcceptanceContract repr task = .ok () ↔ ∃ criteria report, task.get "acceptance" = .arr criteria ∧
      criteria ≠ [] ∧ (criterionIds criteria).Nodup ∧ typedCriterionContracts criteria = some report ∧
      report.complete = true) ∧
    (validateAcceptanceContract repr task = .ok () → ∀ criteria, task.get "acceptance" = .arr criteria →
      ∀ criterion ∈ criteria, ∃ id contract, (criterion.get "id").text? = some id ∧
        criterionContract criterion = some contract ∧ ∀ F run current evidence authenticated result,
          evaluateCriterion F run current criterion evidence authenticated = .ok result →
            result.criterionId = id ∧ result.verifier = some contract.verifier) := by
  refine ⟨validateAcceptanceContract_eq_ok,?_,?_⟩
  · rw [validateAcceptanceContract_eq_ok]
    constructor
    · intro ⟨criteria,hacceptance,hne,htyped,hnodup⟩
      obtain ⟨report,hreport,hcomplete⟩ := typedCriterionContracts_complete.mpr htyped
      exact ⟨criteria,report,hacceptance,hne,hnodup,hreport,hcomplete⟩
    · intro ⟨criteria,report,hacceptance,hne,hnodup,hreport,hcomplete⟩
      exact ⟨criteria,hacceptance,hne,typedCriterionContracts_complete.mp ⟨report,hreport,hcomplete⟩,hnodup⟩
  · intro hok criteria hacceptance criterion hcriterion
    obtain ⟨found,hfound,_,htyped,_⟩ := validateAcceptanceContract_eq_ok.mp hok
    obtain rfl : found = criteria := Value.arr.inj (hfound.symm.trans hacceptance)
    obtain ⟨_,hid,hcontract⟩ := htyped criterion hcriterion
    obtain ⟨id,hid⟩ := Option.isSome_iff_exists.mp hid
    obtain ⟨contract,hcontract⟩ := Option.isSome_iff_exists.mp hcontract
    refine ⟨id,contract,hid,hcontract,fun F run current evidence authenticated result h => ?_⟩
    unfold evaluateCriterion at h
    rw [hid,hcontract] at h
    simp only at h
    split at h
    · cases h
      exact ⟨rfl,rfl⟩
    · cases h
      exact ⟨rfl,rfl⟩
    · cases h

namespace Sample

def observedCriterion (id : String) : Value :=
  .obj [("evidence_type",.str "object"),("id",.str id),("verifier",.str "manual_observation"),
    ("verifier_config",.obj [("observation_scope",.str "kitchen")])]

def accepting (criteria : List Value) : Value := .obj [("acceptance",.arr criteria),("id",.str "T-1")]

end Sample

example (repr : Value → String) : validateAcceptanceContract repr
    (Sample.accepting [Sample.observedCriterion "a",Sample.observedCriterion "b"]) = .ok () :=
  validateAcceptanceContract_eq_ok.mpr ⟨_,rfl,by decide +kernel,by unfold Typed; decide +kernel,by decide +kernel⟩

/-- The report is complete for no criteria at all and for one criterion twice; neither is accepted. -/
theorem complete_report_not_accepted :
    (∀ repr, validateAcceptanceContract repr (Sample.accepting []) ≠ .ok () ∧
      validateAcceptanceContract repr (Sample.accepting [Sample.observedCriterion "a",Sample.observedCriterion "a"]) ≠
        .ok ()) ∧
    (typedCriterionContracts []).map TypedContracts.complete = some true ∧
    (typedCriterionContracts [Sample.observedCriterion "a",Sample.observedCriterion "a"]).map TypedContracts.complete =
      some true := by
  refine ⟨fun repr => ⟨fun h => ?_,fun h => ?_⟩,by decide +kernel,by decide +kernel⟩
  · obtain ⟨criteria,hcriteria,hne,_⟩ := validateAcceptanceContract_eq_ok.mp h
    exact hne (Value.arr.inj hcriteria).symm
  · obtain ⟨criteria,hcriteria,_,_,hnodup⟩ := validateAcceptanceContract_eq_ok.mp h
    obtain rfl : _ = criteria := Value.arr.inj hcriteria
    exact absurd hnodup (by decide +kernel)

end Bureau
