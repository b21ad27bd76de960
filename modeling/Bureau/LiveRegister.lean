import Bureau.LatestPerKey
import Bureau.Registry

/-!
The Live Register: gitless records of thread focus, candidate work and focus overrides, kept as
append-only events of the StateStore. A candidate advances by events that each supersede the
current one of its identity; what is current is always derived from the complete event history.
-/

namespace Bureau

namespace LiveRegister

open Transactions LatestPerKey

inductive LiveKind where
  | threadFocus
  | candidateTask
  | focusOverride
  deriving DecidableEq

inductive LiveStatus where
  | active
  | paused
  | closed
  | observed
  | promoted
  | dropped
  deriving DecidableEq

def activeLiveStatuses : List LiveStatus := [.active,.observed]

inductive CatalogMode where
  | strict
  | deferred
  deriving DecidableEq

/-- The contract of one candidate observation; its constant fields are left out. -/
structure CandidateEvent where
  candidateId : String
  eventId : String
  idempotencyKey : String
  sourceFingerprint : String
  contentFingerprint : String
  deriving DecidableEq

structure LiveRecord where
  kind : LiveKind
  title : String
  source : String
  status : Option LiveStatus
  promotionRequired : Bool
  catalogValidation : CatalogMode
  threadId : Option String
  workerId : Option String
  repo : Option String
  taskId : Option String
  candidateId : Option String
  candidateEvent : Option CandidateEvent
  supersedesEventId : Option ℕ
  note : Option String
  operatorIntake : Option Json
  deriving DecidableEq

structure LiveEvent where
  eventId : ℕ
  createdAt : String
  record : LiveRecord
  deriving DecidableEq

/-- The live-register rows of the events table in the order of their ids. -/
structure LiveStore where
  history : List LiveEvent
  nextEventId : ℕ
  ascending : Ascending LiveEvent.eventId history
  below : ∀ e ∈ history, e.eventId < nextEventId

namespace LiveStore

def fresh : LiveStore := ⟨[],1,.nil,by simp⟩

def append (s : LiveStore) (now : String) (record : LiveRecord) : LiveStore where
  history := s.history ++ [⟨s.nextEventId,now,record⟩]
  nextEventId := s.nextEventId+1
  ascending := by
    refine List.pairwise_append.mpr ⟨s.ascending,List.pairwise_singleton _ _,fun a ha b hb => ?_⟩
    rw [List.mem_singleton.mp hb]
    exact s.below a ha
  below := by
    intro e he
    rcases List.mem_append.mp he with he | he
    · exact Nat.lt_succ_of_lt (s.below e he)
    · rw [List.mem_singleton.mp he]
      exact Nat.lt_succ_self _

def skip (s : LiveStore) (count : ℕ) : LiveStore :=
  ⟨s.history,s.nextEventId+count,s.ascending,fun e he => Nat.lt_add_right count (s.below e he)⟩

end LiveStore

structure Texts where
  sha : Sha
  casefold : String → String

/-! Checks of single fields. -/

def isAlnum (c : Char) : Bool :=
  ('A' ≤ c && c ≤ 'Z') || ('a' ≤ c && c ≤ 'z') || ('0' ≤ c && c ≤ '9')

/-- An alphanumeric character and at most `limit` more, which may also be some others. -/
def isName (others : String) (limit : ℕ) (s : String) : Bool :=
  match s.toList with
  | [] => false
  | c :: rest => isAlnum c && rest.length ≤ limit && rest.all fun d => isAlnum d || others.toList.contains d

def isThreadId : String → Bool := isName "._:@/-" 199

def isCandidateId : String → Bool := isName "._:-" 119

def isCandidateEventId (s : String) : Bool :=
  "candidate-event-".toList.isPrefixOf s.toList && (s.toList.drop 16).length = 24 &&
    (s.toList.drop 16).all fun c => ('0' ≤ c && c ≤ '9') || ('a' ≤ c && c ≤ 'f')

def stripped (s : String) : String := String.ofList (strip s)

def boundedText (text field : String) (maxLength : ℕ) : Result String := do
  let normalized := stripped text
  require (normalized ≠ "") (.state (field ++ " must not be empty"))
  require (normalized.length ≤ maxLength)
    (.state (field ++ " must be at most " ++ toString maxLength ++ " characters"))
  return normalized

def optionalText (value : Option String) (field : String) (maxLength : ℕ) : Result (Option String) :=
  match value with
  | none => return none
  | some text => some <$> boundedText text field maxLength

/-- `_validate_status` without a status. -/
def defaultStatus (kind : LiveKind) : LiveStatus :=
  if kind = .candidateTask then .observed else .active

def validateThreadId (threadId : Option String) (required : Bool) : Result (Option String) :=
  match threadId with
  | none => do
    require (!required) (.state "thread_id is required for thread_focus")
    return none
  | some text => do
    require (isThreadId (stripped text)) (.state
      ("thread_id must start with an alphanumeric character and contain only " ++
      "alphanumeric, dot, underscore, colon, at, slash or dash characters"))
    return some (stripped text)

def validateWorkerId (workerId : Option String) : Result (Option String) :=
  match workerId with
  | none => return none
  | some text => do
    require (isThreadId (stripped text)) (.state "worker_id uses the same syntax as thread_id")
    return some (stripped text)

def isRetired (resource : Resource) : Bool :=
  resource.metadata.get? "lifecycle" = some (.str "retired")

/-- `_validate_repo`; without a registry only the syntax is checked. -/
def validateRepo (registry : Option Registry) (repo : Option String) (allowRetired : Bool) : Result (Option String) :=
  match repo with
  | none => return none
  | some text => do
    let normalized := stripped text
    require (normalized.length ≤ 200) (.state "live register repo must be at most 200 characters")
    require ("repo.".toList.isPrefixOf normalized.toList) (.state "live register repo must be a repo.* resource")
    match registry with
    | none => return some normalized
    | some registry => do
      let resource ← orRaise registry.resources[normalized]?
        (.state ("unknown live register repo resource " ++ normalized))
      require (allowRetired || !isRetired resource) (.state ("retired live register repo resource " ++ normalized ++
        " cannot be used for new candidate work"))
      return some normalized

def validateTask (registry : Option Registry) (taskId : Option String) : Result (Option String) :=
  match taskId with
  | none => return none
  | some text => do
    let normalized := stripped text
    require (normalized ≠ "") (.state "live register task must not be empty")
    require (normalized.length ≤ 240) (.state "live register task must be at most 240 characters")
    require (registry.all fun r => r.tasks[normalized]?.isSome) (.state ("unknown live register task " ++ normalized))
    return some normalized

def validateCandidateId (candidateId : Option String) : Result (Option String) :=
  match candidateId with
  | none => return none
  | some text => do
    require (isCandidateId (stripped text)) (.state ("candidate_id must start with an alphanumeric character and " ++
      "contain only alphanumeric, dot, underscore, colon or dash characters"))
    return some (stripped text)

def generatedCandidateId (uuid : String) : String := "candidate-" ++ uuid

def candidateIdentity (item : LiveEvent) : String :=
  (item.record.candidateId.filter (· ≠ "")).getD ("candidate-event-" ++ toString item.eventId)

def candidateEvents (records : List LiveEvent) : List LiveEvent :=
  records.filter (·.record.kind = .candidateTask)

def supersededEventIds (candidates : List LiveEvent) : List ℕ :=
  candidates.filterMap (·.record.supersedesEventId)

/-- The `latest` of `_candidate_projection`. -/
def candidateProjection (records : List LiveEvent) : List LiveEvent :=
  let candidates := candidateEvents records
  latest LiveEvent.eventId (fun item =>
    if item.eventId ∈ supersededEventIds candidates then none else some (candidateIdentity item)) candidates

def currentOf (records : List LiveEvent) (identity : String) : Option LiveEvent :=
  (candidateProjection records).reverse.find? (candidateIdentity · = identity)

/-! Fingerprints of candidates and their sources. -/

/-- `" ".join(value.split()).strip()`. -/
def collapsed (value : String) : String :=
  let words := (value.toList.splitOnP isspace).filter (· ≠ [])
  stripped (String.ofList ([' '].intercalate words))

def foldedText (E : Texts) (value : Option String) : Json :=
  match value.map fun text => E.casefold (collapsed text) with
  | none => .null
  | some text => if text = "" then .null else .str text

def candidateContentFingerprint (E : Texts) (title desiredOutcome : String) (repo taskId : Option String) : String :=
  sha256Json E.sha (.obj [("desired_outcome",foldedText E (some desiredOutcome)),("repo",foldedText E repo),
    ("schema_version",.num 1),("task_id",foldedText E taskId),("title",foldedText E (some title))])

def candidateSourceFingerprint (E : Texts) (kind : String) (locator digest : Option String) : String :=
  sha256Json E.sha (.obj [("kind",.str (E.casefold (collapsed kind))),("locator",nullable (locator.map collapsed)),
    ("schema_version",.num 1),("sha256",nullable digest)])

def shortened (digest : String) : String := String.ofList (digest.toList.take 24)

def candidateIdForContent (contentFingerprint : String) : Result String := do
  require (validDigest contentFingerprint) (.state "content_fingerprint must be a lowercase SHA-256 digest")
  return "candidate-" ++ shortened contentFingerprint

def candidateEventId (E : Texts) (idempotencyKey requestSha256 : String) : Result String := do
  require (validDigest requestSha256) (.state "request_sha256 must be a lowercase SHA-256 digest")
  return "candidate-event-" ++ shortened (E.sha (idempotencyKey ++ "\x00" ++ requestSha256))

def validatedCandidateEvent (value : Option CandidateEvent) (candidateId : Option String) :
    Result (Option CandidateEvent) :=
  match value with
  | none => return none
  | some event => do
    let own ← validateCandidateId (some event.candidateId)
    require (candidateId.all fun id => own = some id) (.state "candidate_event candidate_id must match candidate_id")
    require (isCandidateEventId event.eventId)
      (.state "candidate_event event_id must be a stable candidate-event digest")
    require (!blank event.idempotencyKey) (.state "candidate_event idempotency_key must be a non-empty string")
    require (validDigest event.sourceFingerprint)
      (.state "candidate_event source_fingerprint must be a lowercase SHA-256 digest")
    require (validDigest event.contentFingerprint)
      (.state "candidate_event content_fingerprint must be a lowercase SHA-256 digest")
    return some event

/-! The operator context of a candidate. -/

/-- The observations a context lists: `source_observations`, or else its one `source`. -/
def contextObservations (context : Json) : List Json :=
  match context.get? "source_observations" with
  | some (.arr values) => values.filter Json.isObj
  | _ => ((context.get? "source").filter Json.isObj).toList

/-- An observation is kept under its fingerprint, or under its digest where it has none. -/
def observationKey (sha : Sha) (observation : Json) : String :=
  ((observation.getStr? "fingerprint").filter validDigest).getD (sha256Json sha observation)

/-- The observations of both contexts, one for each key, in the order of the keys. -/
def mergedObservations (sha : Sha) (previous incoming : Json) : List Json :=
  let unique := fill (fun observation => some (observationKey sha observation))
    (contextObservations previous ++ contextObservations incoming)
  (unique.insertionSort fun a b => a.1 ≤ b.1).map Prod.snd

def mergeOperatorContext (sha : Sha) (previous incoming : Json) : Json :=
  incoming.set "source_observations" (.arr (mergedObservations sha previous incoming))

def contextLimit : ℕ := 16384

def validatedOperatorContext (value : Option Json) : Result (Option Json) :=
  match value with
  | none => return none
  | some context => do
    require context.isObj (.state "operator_context must be an object")
    require (context.canonicalJson.utf8ByteSize ≤ contextLimit)
      (.state "operator_context must be at most 16384 bytes")
    return some context

def operatorContext (record : LiveRecord) : Json :=
  (record.operatorIntake.filter Json.isObj).getD (.obj [])

/-! `live_register_record`. -/

/-- The arguments of `live_register_record`. -/
structure LiveRequest where
  kind : LiveKind
  title : String
  source : String := "operator"
  threadId : Option String := none
  workerId : Option String := none
  repo : Option String := none
  taskId : Option String := none
  candidateId : Option String := none
  supersedesEventId : Option ℕ := none
  status : Option LiveStatus := none
  promotionRequired : Option Bool := none
  note : Option String := none
  catalogValidation : CatalogMode := .strict
  operatorContext : Option Json := none
  candidateEvent : Option CandidateEvent := none
  deduplicateCandidate : Bool := false

def deferredPromotion (request : LiveRequest) : Result (Option Bool) := do
  if request.catalogValidation = .deferred ∧ request.kind = .candidateTask then
    require (request.status ≠ some .promoted) (.state "deferred candidate_task cannot claim promoted status")
    if request.status.all (· ∈ activeLiveStatuses) then
      require (request.promotionRequired ≠ some false)
        (.state "active deferred candidate_task requires promotion_required=true")
      return some true
    else return request.promotionRequired
  else return request.promotionRequired

def generatedCandidateEvent (E : Texts) (r : LiveRequest) : Result LiveRequest := do
  let desiredOutcome := r.note.getD r.title
  let content := candidateContentFingerprint E r.title desiredOutcome r.repo r.taskId
  let locator := "live-register:" ++ r.source ++ ":" ++ r.repo.getD "-" ++ ":" ++ r.taskId.getD "-"
  let source := candidateSourceFingerprint E r.source (some locator) none
  let key := "live-register:" ++ source ++ ":" ++ content
  let requestSha256 := sha256Json E.sha (.obj [("desired_outcome",.str desiredOutcome),("repo",nullable r.repo),
    ("schema_version",.num 1),("source",.str r.source),("source_locator",.str locator),
    ("task_id",nullable r.taskId),("title",.str r.title)])
  let candidateId ← r.candidateId.elim (candidateIdForContent content) pure
  let eventId ← candidateEventId E key requestSha256
  return { r with
    candidateId := some candidateId
    candidateEvent := some ⟨candidateId,eventId,key,source,content⟩
    deduplicateCandidate := r.deduplicateCandidate || r.candidateId.isNone }

def withCandidateEvent (E : Texts) (r : LiveRequest) : Result LiveRequest :=
  if r.kind = .candidateTask ∧ r.candidateEvent.isNone ∧ r.supersedesEventId.isNone then
    generatedCandidateEvent E r
  else .ok r

def checkRequest (E : Texts) (hasRegistry : Bool) (request : LiveRequest) : Result LiveRequest := do
  require (request.catalogValidation ≠ .strict || hasRegistry)
    (.state "strict catalog validation requires a loaded Bureau registry")
  require (request.kind = .candidateTask || (request.operatorContext.isNone && request.candidateEvent.isNone &&
      !request.deduplicateCandidate))
    (.state ("operator_context is only valid for candidate_task; candidate_event and " ++
      "candidate deduplication are candidate-only"))
  let promotionRequired ← deferredPromotion request
  let title ← boundedText request.title "title" 240
  let source ← boundedText request.source "source" 80
  let threadId ← validateThreadId request.threadId (request.kind = .threadFocus)
  let workerId ← validateWorkerId request.workerId
  let repo ← validateRepo none request.repo false
  let taskId ← validateTask none request.taskId
  let candidateId ← validateCandidateId request.candidateId
  let note ← optionalText request.note "note" 2000
  require (request.kind = .candidateTask || repo.isSome) (.state ("repo is required for " ++
    (if request.kind = .threadFocus then "thread_focus" else "focus_override")))
  require (request.supersedesEventId.all (1 ≤ ·)) (.state "supersedes_event_id must be a positive integer")
  let context ← validatedOperatorContext request.operatorContext
  let checked ← withCandidateEvent E { request with
    promotionRequired := promotionRequired
    title := title
    source := source
    threadId := threadId
    workerId := workerId
    repo := repo
    taskId := taskId
    candidateId := candidateId
    note := note
    operatorContext := context }
  let _ ← validatedCandidateEvent checked.candidateEvent checked.candidateId
  require (checked.kind = .candidateTask || (checked.candidateId.isNone && checked.supersedesEventId.isNone))
    (.state "candidate_id and supersedes_event_id are only valid for candidate_task")
  return checked

def incomingKey (r : LiveRequest) : Option String :=
  match r.operatorContext with
  | some context => context.getStr? "idempotency_key"
  | none => r.candidateEvent.map (·.idempotencyKey)

def incomingRequest (r : LiveRequest) : Json :=
  match r.operatorContext with
  | some context => (context.get? "request_sha256").getD .null
  | none => nullable (r.candidateEvent.map (·.eventId))

def hasKey (key : String) (item : LiveEvent) : Bool :=
  (item.record.operatorIntake.filter Json.isObj).any
    (fun context => context.get? "idempotency_key" = some (.str key)) ||
    item.record.candidateEvent.any (fun event => event.idempotencyKey = key)

def priorRequest (record : LiveRecord) : Json :=
  match record.operatorIntake.filter Json.isObj with
  | some context => (context.get? "request_sha256").getD .null
  | none => nullable (record.candidateEvent.map (·.eventId))

def idempotentExisting (candidates : List LiveEvent) (r : LiveRequest) : Result (Option LiveEvent) :=
  match (incomingKey r).filter fun _ => r.deduplicateCandidate with
  | none => return none
  | some key =>
    match candidates.reverse.find? (hasKey key) with
    | none => return none
    | some prior => do
      require (priorRequest prior.record = incomingRequest r)
        (.state "idempotency_key already identifies different candidate input")
      return some ((currentOf candidates (candidateIdentity prior)).getD prior)

def observedCurrent (candidates : List LiveEvent) (r : LiveRequest) : Option LiveEvent :=
  (r.candidateId.filter fun _ => r.supersedesEventId.isNone && r.deduplicateCandidate).bind (currentOf candidates)

def observedContext (sha : Sha) (current : LiveEvent) (r : LiveRequest) : Option Json :=
  match current.record.operatorIntake.filter Json.isObj, r.operatorContext with
  | some previous, some incoming => some (mergeOperatorContext sha previous incoming)
  | _, _ => r.operatorContext

/-- A further observation of a known candidate supersedes its current event and leaves its
lifecycle as it is. -/
def deduplicated (E : Texts) (candidates : List LiveEvent) (r : LiveRequest) : Result LiveRequest :=
  match observedCurrent candidates r with
  | none => return r
  | some current => do
    let context ← validatedOperatorContext (observedContext E.sha current r)
    return { r with
      supersedesEventId := some current.eventId
      status := none
      promotionRequired := none
      operatorContext := context }

def inheritedContext (previous : LiveEvent) (r : LiveRequest) : Result (Option Json) :=
  match r.operatorContext with
  | some context => return some context
  | none => validatedOperatorContext (previous.record.operatorIntake.filter Json.isObj)

def inheritedEvent (previous : LiveEvent) (r : LiveRequest) : Result (Option CandidateEvent) :=
  match r.candidateEvent with
  | some event => return some event
  | none => validatedCandidateEvent previous.record.candidateEvent (some (candidateIdentity previous))

def inherited (candidates : List LiveEvent) (r : LiveRequest) (supersedes : ℕ) : Result LiveRequest := do
  let previous ← orRaise (candidates.find? (·.eventId = supersedes))
    (.state ("supersedes_event_id must reference a candidate_task event: " ++ toString supersedes))
  require (!candidates.any (·.record.supersedesEventId = some supersedes))
    (.state ("candidate event " ++ toString supersedes ++ " is already superseded"))
  let identity := candidateIdentity previous
  require (r.candidateId.all (· = identity)) (.state "candidate_id must match the superseded candidate identity")
  require (previous.record.repo.all fun old => r.repo.all (· = old))
    (.state "candidate repo cannot change across supersession")
  require (r.taskId.all fun taskId => previous.record.taskId = some taskId)
    (.state "candidate task cannot change across supersession")
  let status ← orRaise (r.status <|> previous.record.status)
    (.state ("candidate event " ++ toString supersedes ++ " is missing required status"))
  let context ← inheritedContext previous r
  let event ← inheritedEvent previous r
  return { r with
    candidateId := some identity
    repo := r.repo <|> previous.record.repo
    taskId := previous.record.taskId
    promotionRequired := r.promotionRequired <|> some previous.record.promotionRequired
    status := some status
    operatorContext := context
    candidateEvent := event }

def resolveCandidate (E : Texts) (candidates : List LiveEvent) (uuid : String) (r : LiveRequest) :
    Result LiveRequest := do
  let observed ← deduplicated E candidates r
  match observed.supersedesEventId with
  | some supersedes => inherited candidates observed supersedes
  | none => do
    require (observed.candidateId.all fun id => !candidates.any (candidateIdentity · = id))
      (.state "an existing candidate_id requires supersedes_event_id pointing to its current event")
    return { observed with candidateId := some (observed.candidateId.getD (generatedCandidateId uuid)) }

/-- The payload, after its bindings are checked against the catalog. -/
def finishRecord (registry : Option Registry) (r : LiveRequest) : Result LiveRecord := do
  let repo ← validateRepo registry r.repo (r.kind ≠ .candidateTask || r.supersedesEventId.isSome)
  let taskId ← validateTask registry r.taskId
  let event ← validatedCandidateEvent r.candidateEvent r.candidateId
  return {
    kind := r.kind
    title := r.title
    source := r.source
    status := some (r.status.getD (defaultStatus r.kind))
    promotionRequired := r.promotionRequired.getD false
    catalogValidation := r.catalogValidation
    threadId := r.threadId
    workerId := r.workerId
    repo := repo
    taskId := taskId
    candidateId := r.candidateId
    candidateEvent := event
    supersedesEventId := r.supersedesEventId
    note := r.note
    operatorIntake := r.operatorContext }

/-- The answer of `live_register_record`. -/
structure Recorded where
  eventId : ℕ
  createdAt : String
  record : LiveRecord
  idempotentReplay : Bool
  deriving DecidableEq

def liveRegisterRecord (E : Texts) (registry : Option Registry) (now uuid : String) (s : LiveStore)
    (request : LiveRequest) : Result (Recorded × LiveStore) := do
  let checked ← checkRequest E registry.isSome request
  let validationRegistry := registry.filter fun _ => checked.catalogValidation = .strict
  if checked.kind = .candidateTask then
    let candidates := candidateEvents s.history
    match ← idempotentExisting candidates checked with
    | some existing => return (⟨existing.eventId,existing.createdAt,existing.record,true⟩,s)
    | none => do
      let resolved ← resolveCandidate E candidates uuid checked
      let record ← finishRecord validationRegistry resolved
      return (⟨s.nextEventId,now,record,false⟩,s.append now record)
  else
    let record ← finishRecord validationRegistry checked
    return (⟨s.nextEventId,now,record,false⟩,s.append now record)

/-! What the checks accept. -/

variable {p : Char → Bool} {registry : Option Registry} {result candidateId : Option String} {id uuid : String}
    {item : LiveEvent} {candidates records : List LiveEvent} {r resolved checked request : LiveRequest} {E : Texts}

theorem dropWhile_eq_self {l : List Char} (h : ∀ c ∈ l.head?, p c = false) : l.dropWhile p = l := by
  cases l with
  | nil => rfl
  | cons c rest => rw [List.dropWhile_cons_of_neg (by simp [h c rfl])]

theorem head?_dropWhile (l : List Char) : ∀ c ∈ (l.dropWhile p).head?, p c = false := by
  intro c hc
  have hne := List.head?_dropWhile_not p l
  rw [Option.mem_def.mp hc] at hne
  simpa using hne

@[simp] theorem stripped_stripped (s : String) : stripped (stripped s) = stripped s := by
  have hback : ∀ c ∈ (strip s).reverse.head?, isspace c = false := by
    rw [strip,List.reverse_reverse]
    exact head?_dropWhile _
  have hfront : ∀ c ∈ (strip s).head?, isspace c = false := by
    intro c hc
    obtain ⟨suffix,hsuffix⟩ := List.dropWhile_suffix isspace (l := (s.toList.dropWhile isspace).reverse)
    have hsplit : strip s ++ suffix.reverse = s.toList.dropWhile isspace := by
      rw [strip,← List.reverse_append,hsuffix,List.reverse_reverse]
    refine head?_dropWhile s.toList c ?_
    rw [← hsplit,List.head?_append]
    rw [Option.mem_def] at hc ⊢
    rw [hc]
    rfl
  have hstrip : strip (String.ofList (strip s)) = strip s := by
    show (((String.ofList (strip s)).toList.dropWhile isspace).reverse.dropWhile isspace).reverse = _
    rw [String.toList_ofList,dropWhile_eq_self hfront,dropWhile_eq_self hback,List.reverse_reverse]
  show String.ofList (strip (String.ofList (strip s))) = _
  rw [hstrip]
  rfl

theorem validateRepo_eq_ok {repo : Option String} {allowRetired : Bool}
    (h : validateRepo registry repo allowRetired = .ok result) : result = repo.map stripped := by
  cases repo with
  | none => exact (Except.ok.inj h).symm
  | some text =>
    simp only [validateRepo,bind_eq_ok] at h
    obtain ⟨_,_,_,_,h⟩ := h
    cases registry with
    | none => exact (Except.ok.inj h).symm
    | some registry =>
      simp only [steps_ok] at h
      obtain ⟨_,_,_,_,rfl⟩ := h
      rfl

theorem validateTask_eq_ok {taskId : Option String}
    (h : validateTask registry taskId = .ok result) : result = taskId.map stripped := by
  cases taskId with
  | none => exact (Except.ok.inj h).symm
  | some text =>
    simp only [validateTask,steps_ok] at h
    obtain ⟨_,_,_,_,_,_,rfl⟩ := h
    rfl

@[simp] theorem validateCandidateId_eq_ok :
    validateCandidateId candidateId = .ok result ↔
      result = candidateId.map stripped ∧ ∀ id ∈ result, isCandidateId id = true := by
  cases candidateId with
  | none =>
    constructor
    · intro h
      rw [← Except.ok.inj h]
      exact ⟨rfl,by simp⟩
    · rintro ⟨rfl,_⟩
      rfl
  | some text =>
    simp only [validateCandidateId,steps_ok,Option.map_some]
    constructor
    · rintro ⟨_,hid,rfl⟩
      exact ⟨rfl,by simpa using hid⟩
    · rintro ⟨rfl,hid⟩
      exact ⟨(),hid _ rfl,rfl⟩

@[simp] theorem validatedOperatorContext_eq_ok {value result : Option Json} :
    validatedOperatorContext value = .ok result ↔ result = value ∧
      ∀ context ∈ value, context.isObj = true ∧ context.canonicalJson.utf8ByteSize ≤ contextLimit := by
  cases value with
  | none =>
    constructor
    · intro h
      rw [← Except.ok.inj h]
      exact ⟨rfl,by simp⟩
    · rintro ⟨rfl,_⟩
      rfl
  | some context =>
    simp only [validatedOperatorContext,steps_ok,decide_eq_true_eq]
    constructor
    · rintro ⟨_,hobj,_,hsize,rfl⟩
      exact ⟨rfl,by simpa using ⟨hobj,hsize⟩⟩
    · rintro ⟨rfl,hcontext⟩
      exact ⟨(),(hcontext context rfl).1,(),(hcontext context rfl).2,rfl⟩

structure CandidateEvent.Valid (event : CandidateEvent) (candidateId : Option String) : Prop where
  named : isCandidateId (stripped event.candidateId) = true
  matched : ∀ id ∈ candidateId, stripped event.candidateId = id
  eventId : isCandidateEventId event.eventId = true
  key : blank event.idempotencyKey = false
  source : validDigest event.sourceFingerprint = true
  content : validDigest event.contentFingerprint = true

@[simp] theorem validatedCandidateEvent_eq_ok {value result : Option CandidateEvent} :
    validatedCandidateEvent value candidateId = .ok result ↔
      result = value ∧ ∀ event ∈ value, event.Valid candidateId := by
  cases value with
  | none =>
    constructor
    · intro h
      rw [← Except.ok.inj h]
      exact ⟨rfl,by simp⟩
    · rintro ⟨rfl,_⟩
      rfl
  | some event =>
    simp only [validatedCandidateEvent,steps_ok,validateCandidateId_eq_ok,Option.map_some,Bool.not_eq_true']
    constructor
    · rintro ⟨_,⟨rfl,hnamed⟩,_,hmatched,_,heventId,_,hkey,_,hsource,_,hcontent,rfl⟩
      refine ⟨rfl,?_⟩
      rintro _ ⟨⟩
      refine ⟨hnamed _ rfl,?_,heventId,hkey,hsource,hcontent⟩
      rintro id ⟨⟩
      simpa using hmatched
    · rintro ⟨rfl,hvalid⟩
      have h := hvalid event rfl
      refine ⟨_,⟨rfl,?_⟩,(),?_,(),h.eventId,(),h.key,(),h.source,(),h.content,rfl⟩
      · rintro _ ⟨⟩
        exact h.named
      · cases candidateId with
        | none => rfl
        | some id => simpa using h.matched id rfl

theorem candidateIdentity_ne_empty (item : LiveEvent) : candidateIdentity item ≠ "" := by
  unfold candidateIdentity
  cases hid : item.record.candidateId.filter (· ≠ "") with
  | none =>
    intro h
    have hlength := congrArg String.length h
    rw [Option.getD_none,String.length_append] at hlength
    have hprefix : "candidate-event-".length = 16 := rfl
    have hempty : "".length = 0 := rfl
    omega
  | some id =>
    have hne := (Option.filter_eq_some_iff.mp hid).2
    simpa using hne

theorem candidateIdentity_of_id (h : item.record.candidateId = some id)
    (hne : id ≠ "") : candidateIdentity item = id := by
  simp [candidateIdentity,h,Option.filter,hne]

/-! What a recorded candidate takes from the event it supersedes. -/

/-- A request resolved next to its predecessor, which no event supersedes yet. -/
structure Follows (candidates : List LiveEvent) (previous : LiveEvent) (r resolved : LiveRequest) : Prop where
  member : previous ∈ candidates
  unsuperseded : ∀ c ∈ candidates, c.record.supersedesEventId ≠ some previous.eventId
  kind : resolved.kind = r.kind
  supersedes : resolved.supersedesEventId = some previous.eventId
  asked : ∀ id ∈ r.candidateId, id = candidateIdentity previous
  identity : resolved.candidateId = some (candidateIdentity previous)
  repo : ∀ old ∈ previous.record.repo, resolved.repo = some old
  taskId : resolved.taskId = previous.record.taskId
  status : resolved.status = (r.status <|> previous.record.status)
  hasStatus : resolved.status.isSome = true
  promotion : resolved.promotionRequired = some (r.promotionRequired.getD previous.record.promotionRequired)
  context : resolved.operatorContext = (r.operatorContext <|> previous.record.operatorIntake.filter Json.isObj)
  event : resolved.candidateEvent = (r.candidateEvent <|> previous.record.candidateEvent)

theorem inherited_eq_ok {supersedes : ℕ}
    (hr : r.supersedesEventId = some supersedes) (h : inherited candidates r supersedes = .ok resolved) :
    ∃ previous, previous.eventId = supersedes ∧ Follows candidates previous r resolved := by
  simp only [inherited,steps_ok] at h
  obtain ⟨previous,hfind,_,hlast,_,hasked,_,hrepo,_,htask,status,hstatus,context,hcontext,event,hevent,rfl⟩ := h
  have hid : previous.eventId = supersedes := by simpa using List.find?_some hfind
  refine ⟨previous,hid,List.mem_of_find?_eq_some hfind,?_,rfl,?_,?_,rfl,?_,rfl,hstatus.symm,rfl,?_,?_,?_⟩
  · intro c hc hsuper
    simp only [Bool.not_eq_true',List.any_eq_false,decide_eq_true_eq] at hlast
    exact hlast c hc (hid ▸ hsuper)
  · rw [hid]
    exact hr
  · rintro id hmem
    rw [Option.mem_def.mp hmem] at hasked
    simpa using hasked
  · intro old hold
    rw [Option.mem_def.mp hold] at hrepo ⊢
    cases hnew : r.repo with
    | none => rfl
    | some new =>
      rw [hnew] at hrepo
      have hsame : new = old := by simpa using hrepo
      rw [hsame]
      rfl
  · cases r.promotionRequired <;> rfl
  · unfold inheritedContext at hcontext
    cases hown : r.operatorContext with
    | some own =>
      rw [hown] at hcontext
      exact (Except.ok.inj hcontext).symm
    | none =>
      rw [hown] at hcontext
      exact (validatedOperatorContext_eq_ok.mp hcontext).1
  · unfold inheritedEvent at hevent
    cases hown : r.candidateEvent with
    | some own =>
      rw [hown] at hevent
      exact (Except.ok.inj hevent).symm
    | none =>
      rw [hown] at hevent
      exact (validatedCandidateEvent_eq_ok.mp hevent).1

def LiveRequest.observing (r : LiveRequest) (sha : Sha) (current : LiveEvent) : LiveRequest :=
  { r with
    supersedesEventId := some current.eventId
    status := none
    promotionRequired := none
    operatorContext := observedContext sha current r }

theorem deduplicated_eq_ok {observed : LiveRequest}
    (h : deduplicated E candidates r = .ok observed) :
    observed = ((observedCurrent candidates r).map (r.observing E.sha)).getD r := by
  unfold deduplicated at h
  cases hcurrent : observedCurrent candidates r with
  | none =>
    rw [hcurrent] at h
    exact (Except.ok.inj h).symm
  | some current =>
    simp only [hcurrent,steps_ok] at h
    obtain ⟨context,hcontext,rfl⟩ := h
    rw [(validatedOperatorContext_eq_ok.mp hcontext).1]
    rfl

theorem mem_candidateProjection (h : Ascending LiveEvent.eventId records) :
    item ∈ candidateProjection records ↔ ∃ identity, lastOf (fun item =>
      if item.eventId ∈ supersededEventIds (candidateEvents records) then none else some (candidateIdentity item))
      (candidateEvents records) identity = some item :=
  mem_latest (h.filter _)

theorem ascending_candidateProjection (h : Ascending LiveEvent.eventId records) :
    Ascending LiveEvent.eventId (candidateProjection records) :=
  ascending_latest (h.filter _)

theorem mem_currentOf (h : Ascending LiveEvent.eventId records) {identity : String}
    (hcurrent : currentOf records identity = some item) :
    item ∈ candidateEvents records ∧ candidateIdentity item = identity := by
  have hmem := List.mem_of_find?_eq_some hcurrent
  rw [List.mem_reverse,mem_candidateProjection h] at hmem
  obtain ⟨_,hlast⟩ := hmem
  exact ⟨(mem_of_lastOf hlast).1,by simpa using List.find?_some hcurrent⟩

theorem mem_observedCurrent (h : Ascending LiveEvent.eventId candidates)
    {current : LiveEvent} (hcurrent : observedCurrent candidates r = some current) :
    current ∈ candidates ∧ r.candidateId = some (candidateIdentity current) ∧ r.supersedesEventId = none ∧
      r.deduplicateCandidate = true ∧ currentOf candidates (candidateIdentity current) = some current := by
  simp only [observedCurrent,Option.bind_eq_some_iff,Option.filter_eq_some_iff,Bool.and_eq_true,
    Option.isNone_iff_eq_none] at hcurrent
  obtain ⟨identity,⟨hid,hsuper,hdedup⟩,hcurrent⟩ := hcurrent
  obtain ⟨hmem,hidentity⟩ := mem_currentOf h hcurrent
  rw [hidentity]
  exact ⟨(List.mem_filter.mp hmem).1,hid,hsuper,hdedup,hcurrent⟩

theorem resolveCandidate_eq_ok (hasc : Ascending LiveEvent.eventId candidates)
    (h : resolveCandidate E candidates uuid r = .ok resolved) :
    (observedCurrent candidates r = none ∧ r.supersedesEventId = none ∧
      (∀ id ∈ r.candidateId, ∀ c ∈ candidates, candidateIdentity c ≠ id) ∧
      resolved = { r with candidateId := some (r.candidateId.getD (generatedCandidateId uuid)) }) ∨
    (observedCurrent candidates r = none ∧
      ∃ previous, r.supersedesEventId = some previous.eventId ∧ Follows candidates previous r resolved) ∨
    ∃ current, observedCurrent candidates r = some current ∧
      Follows candidates current (r.observing E.sha current) resolved := by
  simp only [resolveCandidate,bind_eq_ok] at h
  obtain ⟨observed,hobserved,h⟩ := h
  have hdedup := deduplicated_eq_ok hobserved
  cases hcurrent : observedCurrent candidates r with
  | none =>
    rw [hcurrent,Option.map_none,Option.getD_none] at hdedup
    subst hdedup
    cases hsuper : observed.supersedesEventId with
    | none =>
      simp only [hsuper,steps_ok] at h
      obtain ⟨_,hnew,rfl⟩ := h
      refine .inl ⟨rfl,rfl,?_,by rw [← hsuper]⟩
      intro id hid c hc hsame
      rw [Option.mem_def.mp hid] at hnew
      simp only [Option.all_some,Bool.not_eq_true',List.any_eq_false,decide_eq_true_eq] at hnew
      exact hnew c hc hsame
    | some supersedes =>
      rw [hsuper] at h
      obtain ⟨previous,hid,hfollows⟩ := inherited_eq_ok hsuper h
      exact .inr (.inl ⟨rfl,previous,by rw [hid],hfollows⟩)
  | some current =>
    rw [hcurrent,Option.map_some,Option.getD_some] at hdedup
    subst hdedup
    have hsuper : (r.observing E.sha current).supersedesEventId = some current.eventId := rfl
    obtain ⟨previous,hid,hfollows⟩ := inherited_eq_ok hsuper h
    have hsame : previous = current := hasc.inj hfollows.member (mem_observedCurrent hasc hcurrent).1 hid
    exact .inr (.inr ⟨current,rfl,hsame ▸ hfollows⟩)

theorem finishRecord_eq_ok {record : LiveRecord}
    (h : finishRecord registry r = .ok record) :
    record = {
      kind := r.kind
      title := r.title
      source := r.source
      status := some (r.status.getD (defaultStatus r.kind))
      promotionRequired := r.promotionRequired.getD false
      catalogValidation := r.catalogValidation
      threadId := r.threadId
      workerId := r.workerId
      repo := r.repo.map stripped
      taskId := r.taskId.map stripped
      candidateId := r.candidateId
      candidateEvent := r.candidateEvent
      supersedesEventId := r.supersedesEventId
      note := r.note
      operatorIntake := r.operatorContext } := by
  simp only [finishRecord,steps_ok] at h
  obtain ⟨repo,hrepo,taskId,htask,event,hevent,rfl⟩ := h
  rw [validateRepo_eq_ok hrepo,validateTask_eq_ok htask,(validatedCandidateEvent_eq_ok.mp hevent).1]

theorem isCandidateId_ne_empty (h : isCandidateId id = true) : id ≠ "" := by
  rintro rfl
  exact absurd h (by decide)

/-- What the checks before the transaction leave of a request. -/
structure CheckedFrom (request checked : LiveRequest) : Prop where
  kind : checked.kind = request.kind
  supersedes : checked.supersedesEventId = request.supersedesEventId
  status : checked.status = request.status
  mode : checked.catalogValidation = request.catalogValidation
  repo : checked.repo = request.repo.map stripped
  taskId : checked.taskId = request.taskId.map stripped
  context : checked.operatorContext = request.operatorContext
  named : ∀ id ∈ checked.candidateId, id ≠ ""
  candidateId : ∀ id, request.candidateId = some id → checked.candidateId = some (stripped id)

theorem withCandidateEvent_eq_ok (h : withCandidateEvent E r = .ok checked) :
    ∃ candidateId event deduplicate, checked = { r with
      candidateId := candidateId
      candidateEvent := event
      deduplicateCandidate := deduplicate } ∧ (∀ id ∈ r.candidateId, candidateId = some id) ∧
        (∀ id ∈ candidateId, r.candidateId = none → id ≠ "") := by
  unfold withCandidateEvent at h
  split_ifs at h with hgenerated
  · simp only [generatedCandidateEvent,steps_ok] at h
    obtain ⟨id,hid,_,_,rfl⟩ := h
    refine ⟨_,_,_,rfl,?_,?_⟩
    · intro own hown
      rw [Option.mem_def.mp hown] at hid
      rw [Except.ok.inj hid]
    · rintro _ ⟨⟩ hnone
      simp only [hnone,Option.elim_none,candidateIdForContent,steps_ok] at hid
      obtain ⟨_,_,rfl⟩ := hid
      intro hempty
      have hlength := congrArg String.length hempty
      rw [String.length_append] at hlength
      have hprefix : "candidate-".length = 10 := rfl
      have hzero : "".length = 0 := rfl
      omega
  · obtain rfl := Except.ok.inj h
    refine ⟨_,_,_,rfl,fun _ hid => hid,?_⟩
    intro id hid hnone
    rw [hnone] at hid
    simp at hid

theorem checkRequest_eq_ok {hasRegistry : Bool}
    (h : checkRequest E hasRegistry request = .ok checked) : CheckedFrom request checked := by
  simp only [checkRequest,steps_ok] at h
  obtain ⟨_,_,_,_,_,_,_,_,_,_,_,_,_,_,repo,hrepo,taskId,htask,candidateId,hid,_,_,_,_,_,_,context,hcontext,checked,
    hchecked,_,_,_,_,rfl⟩ := h
  obtain ⟨hid,hnamed⟩ := validateCandidateId_eq_ok.mp hid
  obtain ⟨final,event,deduplicate,rfl,hkept,hfresh⟩ := withCandidateEvent_eq_ok hchecked
  refine ⟨rfl,rfl,rfl,rfl,validateRepo_eq_ok hrepo,validateTask_eq_ok htask,
    (validatedOperatorContext_eq_ok.mp hcontext).1,?_,?_⟩
  · intro id hfinal
    cases hown : candidateId with
    | none => exact hfresh id hfinal hown
    | some own =>
      have hsame : final = some own := hkept own hown
      have hid : id = own := Option.some.inj ((Option.mem_def.mp hfinal).symm.trans hsame)
      rw [hid]
      exact isCandidateId_ne_empty (hnamed own hown)
  · intro id hrequest
    rw [hrequest] at hid
    exact hkept _ hid

/-- What `live_register_record` does: it answers with a recorded event, or it appends one. -/
theorem liveRegisterRecord_eq_ok {now : String} {s s' : LiveStore} {recorded : Recorded}
    (h : liveRegisterRecord E registry now uuid s request = .ok (recorded,s')) :
    ∃ checked, checkRequest E registry.isSome request = .ok checked ∧
      ((checked.kind = .candidateTask ∧ s' = s ∧ recorded.idempotentReplay = true) ∨
      ∃ resolved record, finishRecord (registry.filter fun _ => checked.catalogValidation = .strict) resolved =
        .ok record ∧
        s' = s.append now record ∧ recorded = ⟨s.nextEventId,now,record,false⟩ ∧
        if checked.kind = .candidateTask then
          idempotentExisting (candidateEvents s.history) checked = .ok none ∧
            resolveCandidate E (candidateEvents s.history) uuid checked = .ok resolved
        else resolved = checked) := by
  simp only [liveRegisterRecord,bind_eq_ok] at h
  obtain ⟨checked,hchecked,h⟩ := h
  refine ⟨checked,hchecked,?_⟩
  split_ifs at h with hkind
  · rw [bind_eq_ok] at h
    obtain ⟨existing,hexisting,h⟩ := h
    cases existing with
    | some existing =>
      obtain ⟨rfl,rfl⟩ := Prod.mk.inj (Except.ok.inj h)
      exact .inl ⟨hkind,rfl,rfl⟩
    | none =>
      simp only [steps_ok,Prod.mk.injEq] at h
      obtain ⟨resolved,hresolved,record,hrecord,rfl,rfl⟩ := h
      exact .inr ⟨resolved,record,hrecord,rfl,rfl,by rw [if_pos hkind]; exact ⟨hexisting,hresolved⟩⟩
  · simp only [steps_ok,Prod.mk.injEq] at h
    obtain ⟨record,hrecord,rfl,rfl⟩ := h
    exact .inr ⟨checked,record,hrecord,rfl,rfl,by rw [if_neg hkind]⟩

end LiveRegister

end Bureau
