import Bureau.CandidateIntake

/-!
The history of a candidate. The events of each identity form one chain in which every event
supersedes the one before it, so the projection shows exactly the last one; repository and task
stay bound along the chain, and an observation leaves the lifecycle of every candidate as it is.
-/

namespace Bureau

namespace LiveRegister

open Transactions LatestPerKey

def eventsOf (history : List LiveEvent) (identity : String) : List LiveEvent :=
  (candidateEvents history).filter (candidateIdentity · = identity)

/-- An event that supersedes another and keeps its bindings. -/
structure Succeeds (a b : LiveEvent) : Prop where
  supersedes : b.record.supersedesEventId = some a.eventId
  repo : ∀ repo ∈ a.record.repo, b.record.repo = some repo
  taskId : b.record.taskId = a.record.taskId

/-- Every candidate has its own id and its events form one chain. -/
structure Linear (history : List LiveEvent) : Prop where
  first : ∀ identity, ∀ e ∈ (eventsOf history identity).head?, e.record.supersedesEventId = none
  chain : ∀ identity, (eventsOf history identity).IsChain Succeeds
  repo : ∀ e ∈ history, ∀ repo ∈ e.record.repo, stripped repo = repo
  taskId : ∀ e ∈ history, ∀ taskId ∈ e.record.taskId, stripped taskId = taskId

variable {history : List LiveEvent}

@[simp] theorem mem_eventsOf {identity : String} {e : LiveEvent} :
    e ∈ eventsOf history identity ↔ e ∈ candidateEvents history ∧ candidateIdentity e = identity := by
  rw [eventsOf,List.mem_filter,decide_eq_true_eq]

@[simp] theorem mem_candidateEvents {e : LiveEvent} :
    e ∈ candidateEvents history ↔ e ∈ history ∧ e.record.kind = .candidateTask := by
  rw [candidateEvents,List.mem_filter,decide_eq_true_eq]

@[simp] theorem mem_supersededEventIds {candidates : List LiveEvent} {id : ℕ} :
    id ∈ supersededEventIds candidates ↔ ∃ c ∈ candidates, c.record.supersedesEventId = some id := by
  rw [supersededEventIds,List.mem_filterMap]

namespace Linear

theorem last_of_unsuperseded (h : Linear history) {e : LiveEvent} (he : e ∈ candidateEvents history)
    (hnone : ∀ c ∈ candidateEvents history, c.record.supersedesEventId ≠ some e.eventId) :
    (eventsOf history (candidateIdentity e)).getLast? = some e := by
  have hmem : e ∈ eventsOf history (candidateIdentity e) := mem_eventsOf.mpr ⟨he,rfl⟩
  obtain ⟨before,after,hsplit⟩ := List.append_of_mem hmem
  have hchain := h.chain (candidateIdentity e)
  cases after with
  | nil => rw [hsplit,List.getLast?_concat]
  | cons next rest =>
    rw [hsplit,List.isChain_append] at hchain
    have hnext := (List.isChain_cons_cons.mp hchain.2.1).1
    have hmemnext : next ∈ eventsOf history (candidateIdentity e) := by
      rw [hsplit]
      simp
    exact absurd hnext.supersedes (hnone next (mem_eventsOf.mp hmemnext).1)

theorem pred_of_supersedes (h : Linear history) (hasc : Ascending LiveEvent.eventId history) {c e : LiveEvent}
    (hc : c ∈ candidateEvents history) (he : e ∈ candidateEvents history)
    (hsuper : c.record.supersedesEventId = some e.eventId) :
    ∃ before after, eventsOf history (candidateIdentity e) = before ++ e :: c :: after := by
  have hmem : c ∈ eventsOf history (candidateIdentity c) := mem_eventsOf.mpr ⟨hc,rfl⟩
  obtain ⟨before,after,hsplit⟩ := List.append_of_mem hmem
  rcases List.eq_nil_or_concat before with rfl | ⟨init,p,rfl⟩
  · have hfirst := h.first (candidateIdentity c) c (by rw [hsplit]; rfl)
    rw [hfirst] at hsuper
    exact absurd hsuper (by simp)
  · rw [List.concat_eq_append,List.append_assoc,List.singleton_append] at hsplit
    have hchain := h.chain (candidateIdentity c)
    rw [hsplit,List.isChain_append] at hchain
    have hlink := (List.isChain_cons_cons.mp hchain.2.1).1
    have hp : p ∈ eventsOf history (candidateIdentity c) := by
      rw [hsplit]
      simp
    obtain ⟨hpcand,hpid⟩ := mem_eventsOf.mp hp
    have hids : p.eventId = e.eventId := Option.some.inj (hlink.supersedes.symm.trans hsuper)
    have hsame : p = e := hasc.inj (mem_candidateEvents.mp hpcand).1 (mem_candidateEvents.mp he).1 hids
    subst hsame
    rw [hpid]
    exact ⟨init,after,hsplit⟩

theorem unsuperseded_of_last (h : Linear history) (hasc : Ascending LiveEvent.eventId history) {identity : String}
    {e : LiveEvent} (hlast : (eventsOf history identity).getLast? = some e) :
    ∀ c ∈ candidateEvents history, c.record.supersedesEventId ≠ some e.eventId := by
  intro c hc hsuper
  obtain ⟨he,rfl⟩ := mem_eventsOf.mp (List.mem_of_getLast? hlast)
  obtain ⟨before,after,hsplit⟩ := h.pred_of_supersedes hasc hc he hsuper
  have hnodup : (eventsOf history (candidateIdentity e)).Nodup := ((hasc.filter _).filter _).nodup
  rw [hsplit,List.getLast?_append,List.getLast?_cons_cons] at hlast
  have hne : c :: after ≠ [] := List.cons_ne_nil _ _
  rw [List.getLast?_eq_some_getLast hne,Option.some_or,Option.some.injEq] at hlast
  rw [hsplit] at hnodup
  have hnot := (List.nodup_cons.mp (List.nodup_append.mp hnodup).2.1).1
  exact hnot (hlast ▸ List.getLast_mem hne)

theorem mem_projection (h : Linear history) (hasc : Ascending LiveEvent.eventId history) {e : LiveEvent} :
    e ∈ candidateProjection history ↔ (eventsOf history (candidateIdentity e)).getLast? = some e := by
  rw [mem_candidateProjection hasc]
  constructor
  · rintro ⟨identity,hlast⟩
    obtain ⟨hmem,hkey⟩ := mem_of_lastOf hlast
    split_ifs at hkey with hsuper
    refine h.last_of_unsuperseded hmem fun c hc hcsuper => ?_
    exact hsuper (mem_supersededEventIds.mpr ⟨c,hc,hcsuper⟩)
  · intro hlast
    have hnone := h.unsuperseded_of_last hasc hlast
    have he := (mem_eventsOf.mp (List.mem_of_getLast? hlast)).1
    refine ⟨candidateIdentity e,lastOf_of_unique (hasc.filter _) he (if_neg fun hsuper => ?_) fun item hitem hkey => ?_⟩
    · obtain ⟨c,hc,hcsuper⟩ := mem_supersededEventIds.mp hsuper
      exact hnone c hc hcsuper
    · split_ifs at hkey with hsuper
      have hitemlast := h.last_of_unsuperseded hitem fun c hc hcsuper =>
        hsuper (mem_supersededEventIds.mpr ⟨c,hc,hcsuper⟩)
      rw [Option.some.inj hkey,hlast] at hitemlast
      exact (Option.some.inj hitemlast).symm

theorem currentOf_eq (h : Linear history) (hasc : Ascending LiveEvent.eventId history) (identity : String) :
    currentOf history identity = (eventsOf history identity).getLast? := by
  cases hlast : (eventsOf history identity).getLast? with
  | none =>
    rw [List.getLast?_eq_none_iff] at hlast
    rw [currentOf,List.find?_eq_none]
    intro e he
    rw [List.mem_reverse,h.mem_projection hasc] at he
    simp only [decide_eq_true_eq]
    intro hidentity
    rw [hidentity,hlast] at he
    simp at he
  | some e =>
    obtain ⟨_,hidentity⟩ := mem_eventsOf.mp (List.mem_of_getLast? hlast)
    have hmem : e ∈ candidateProjection history := (h.mem_projection hasc).mpr (by rw [hidentity,hlast])
    cases hfound : currentOf history identity with
    | none =>
      rw [currentOf,List.find?_eq_none] at hfound
      exact absurd (hfound e (List.mem_reverse.mpr hmem)) (by simpa using hidentity)
    | some item =>
      have hitem := List.mem_of_find?_eq_some hfound
      have hsame : candidateIdentity item = identity := by simpa using List.find?_some hfound
      rw [List.mem_reverse,h.mem_projection hasc,hsame,hlast] at hitem
      rw [Option.some.inj hitem]

end Linear

/-! Recording an event. -/

theorem eventsOf_concat (history : List LiveEvent) (e : LiveEvent) (identity : String) :
    eventsOf (history ++ [e]) identity = eventsOf history identity ++
      if e.record.kind = .candidateTask ∧ candidateIdentity e = identity then [e] else [] := by
  unfold eventsOf candidateEvents
  rw [List.filter_append,List.filter_append]
  congr 1
  by_cases hkind : e.record.kind = .candidateTask
  · rw [List.filter_cons_of_pos (by simpa using hkind),List.filter_nil]
    by_cases hidentity : candidateIdentity e = identity
    · rw [List.filter_cons_of_pos (by simpa using hidentity),if_pos ⟨hkind,hidentity⟩,List.filter_nil]
    · rw [List.filter_cons_of_neg (by simpa using hidentity),if_neg (fun h => hidentity h.2),List.filter_nil]
  · rw [List.filter_cons_of_neg (by simpa using hkind),if_neg (fun h => hkind h.1)]
    rfl

def Joins (history : List LiveEvent) (e : LiveEvent) : Prop :=
  match (eventsOf history (candidateIdentity e)).getLast? with
  | none => e.record.supersedesEventId = none
  | some previous => Succeeds previous e

theorem Linear.concat (h : Linear history) {e : LiveEvent}
    (hrepo : ∀ repo ∈ e.record.repo, stripped repo = repo)
    (htask : ∀ taskId ∈ e.record.taskId, stripped taskId = taskId)
    (hjoins : e.record.kind = .candidateTask → Joins history e) : Linear (history ++ [e]) where
  first := by
    intro identity first hfirst
    rw [eventsOf_concat] at hfirst
    split_ifs at hfirst with hnew
    · obtain ⟨hkind,rfl⟩ := hnew
      have hjoins := hjoins hkind
      cases hevents : eventsOf history (candidateIdentity e) with
      | nil =>
        rw [hevents] at hfirst
        obtain rfl : e = first := by simpa using hfirst
        simpa [Joins,hevents] using hjoins
      | cons a rest =>
        rw [hevents] at hfirst
        exact h.first (candidateIdentity e) first (by rw [hevents]; exact hfirst)
    · rw [List.append_nil] at hfirst
      exact h.first identity first hfirst
  chain := by
    intro identity
    rw [eventsOf_concat]
    split_ifs with hnew
    · obtain ⟨hkind,rfl⟩ := hnew
      have hjoins := hjoins hkind
      rw [List.isChain_append]
      refine ⟨h.chain _,List.isChain_singleton _,fun a ha b hb => ?_⟩
      rw [Joins,Option.mem_def.mp ha] at hjoins
      obtain rfl : e = b := by simpa using hb
      exact hjoins
    · rw [List.append_nil]
      exact h.chain identity
  repo := by
    intro a ha
    rcases List.mem_append.mp ha with ha | ha
    · exact h.repo a ha
    · rw [List.mem_singleton.mp ha]
      exact hrepo
  taskId := by
    intro a ha
    rcases List.mem_append.mp ha with ha | ha
    · exact h.taskId a ha
    · rw [List.mem_singleton.mp ha]
      exact htask

theorem linear_fresh : Linear LiveStore.fresh.history where
  first := by simp [LiveStore.fresh,eventsOf,candidateEvents]
  chain := fun _ => List.isChain_nil
  repo := by simp [LiveStore.fresh]
  taskId := by simp [LiveStore.fresh]

/-- The ids `uuid4` gives are not in use. -/
def FreshId (s : LiveStore) (uuid : String) : Prop :=
  ∀ c ∈ candidateEvents s.history, candidateIdentity c ≠ generatedCandidateId uuid

section Recording

variable {E : Texts} {registry : Option Registry} {now uuid : String} {s s' : LiveStore} {request : LiveRequest}
  {recorded : Recorded}

theorem generatedCandidateId_ne_empty (uuid : String) : generatedCandidateId uuid ≠ "" := by
  intro hempty
  have hlength := congrArg String.length hempty
  rw [generatedCandidateId,String.length_append] at hlength
  have hprefix : "candidate-".length = 10 := rfl
  have hzero : "".length = 0 := rfl
  omega

theorem ascending_candidateEvents (s : LiveStore) : Ascending LiveEvent.eventId (candidateEvents s.history) :=
  s.ascending.filter _

/-- What an event keeps of the one it supersedes, and what its request gives instead. -/
structure Extends (r : LiveRequest) (previous e : LiveEvent) : Prop extends Succeeds previous e where
  status : e.record.status = (r.status <|> previous.record.status)
  promotion : e.record.promotionRequired = r.promotionRequired.getD previous.record.promotionRequired
  context : e.record.operatorIntake = (r.operatorContext <|> previous.record.operatorIntake.filter Json.isObj)
  event : e.record.candidateEvent = (r.candidateEvent <|> previous.record.candidateEvent)

/-- A recorded candidate event has a new identity, or it follows the last event of its identity. -/
inductive Advances (E : Texts) (history : List LiveEvent) (checked : LiveRequest) (e : LiveEvent) : Prop
  | new (hnone : eventsOf history (candidateIdentity e) = []) (hasked : checked.supersedesEventId = none)
      (hsuper : e.record.supersedesEventId = none)
  | superseding (previous : LiveEvent)
      (hlast : (eventsOf history (candidateIdentity e)).getLast? = some previous)
      (hasked : checked.supersedesEventId = some previous.eventId) (hextends : Extends checked previous e)
  | observing (current : LiveEvent)
      (hlast : (eventsOf history (candidateIdentity e)).getLast? = some current)
      (hasked : checked.supersedesEventId = none) (hextends : Extends (checked.observing E.sha current) current e)

theorem Advances.joins {checked : LiveRequest} {e : LiveEvent} (h : Advances E history checked e) :
    Joins history e := by
  unfold Joins
  cases h with
  | new hnone _ hsuper =>
    rw [hnone]
    exact hsuper
  | superseding previous hlast _ hextends =>
    rw [hlast]
    exact hextends.toSucceeds
  | observing current hlast _ hextends =>
    rw [hlast]
    exact hextends.toSucceeds

theorem Follows.extends (h : Linear history) {previous : LiveEvent} {r resolved : LiveRequest}
    (hfollows : Follows (candidateEvents history) previous r resolved) {validation : Option Registry}
    {record : LiveRecord} (hrecord : finishRecord validation resolved = .ok record) (id : ℕ) :
    candidateIdentity ⟨id,now,record⟩ = candidateIdentity previous ∧
      (eventsOf history (candidateIdentity previous)).getLast? = some previous ∧
        Extends r previous ⟨id,now,record⟩ := by
  have hfields := finishRecord_eq_ok hrecord
  have hmember := mem_candidateEvents.mp hfollows.member
  have hid : candidateIdentity ⟨id,now,record⟩ = candidateIdentity previous := by
    refine candidateIdentity_of_id ?_ (candidateIdentity_ne_empty previous)
    rw [hfields]
    exact hfollows.identity
  refine ⟨hid,h.last_of_unsuperseded hfollows.member hfollows.unsuperseded,⟨?_,?_,?_⟩,?_,?_,?_,?_⟩
  · rw [hfields]
    exact hfollows.supersedes
  · intro old hold
    rw [hfields]
    show resolved.repo.map stripped = some old
    rw [hfollows.repo old hold,Option.map_some,h.repo previous hmember.1 old hold]
  · rw [hfields]
    show resolved.taskId.map stripped = previous.record.taskId
    rw [hfollows.taskId]
    cases htask : previous.record.taskId with
    | none => rfl
    | some taskId => rw [Option.map_some,h.taskId previous hmember.1 taskId htask]
  · rw [hfields]
    show some (resolved.status.getD _) = _
    rw [← hfollows.status]
    obtain ⟨status,hstatus⟩ := Option.isSome_iff_exists.mp hfollows.hasStatus
    rw [hstatus]
    rfl
  · rw [hfields]
    show resolved.promotionRequired.getD false = _
    rw [hfollows.promotion]
    rfl
  · rw [hfields]
    exact hfollows.context
  · rw [hfields]
    exact hfollows.event

theorem Linear.recorded_cases (h : Linear s.history) (hfresh : FreshId s uuid)
    (hok : liveRegisterRecord E registry now uuid s request = .ok (recorded,s')) :
    (s' = s ∧ recorded.idempotentReplay = true) ∨
    ∃ record, s' = s.append now record ∧ recorded = ⟨s.nextEventId,now,record,false⟩ ∧
      (∀ repo ∈ record.repo, stripped repo = repo) ∧ (∀ taskId ∈ record.taskId, stripped taskId = taskId) ∧
      record.kind = request.kind ∧ (record.kind = .candidateTask → ∃ checked, CheckedFrom request checked ∧
        Advances E s.history checked ⟨s.nextEventId,now,record⟩) := by
  obtain ⟨checked,hcheck,⟨_,rfl,hreplay⟩ | ⟨resolved,record,hrecord,rfl,rfl,hresolved⟩⟩ := liveRegisterRecord_eq_ok hok
  · exact .inl ⟨rfl,hreplay⟩
  · have hchecked := checkRequest_eq_ok hcheck
    have hfields := finishRecord_eq_ok hrecord
    have hstripped : ∀ value : Option String, ∀ text ∈ value.map stripped, stripped text = text := by
      intro value text htext
      obtain ⟨raw,_,rfl⟩ := Option.mem_map.mp htext
      exact stripped_stripped raw
    have hrepo : ∀ repo ∈ record.repo, stripped repo = repo := by
      rw [hfields]
      exact hstripped resolved.repo
    have htask : ∀ taskId ∈ record.taskId, stripped taskId = taskId := by
      rw [hfields]
      exact hstripped resolved.taskId
    have hkind : record.kind = resolved.kind := by rw [hfields]
    split_ifs at hresolved with hcandidate
    · have hcases := resolveCandidate_eq_ok (ascending_candidateEvents s) hresolved.2
      have hsame : resolved.kind = checked.kind := by
        rcases hcases with ⟨_,_,_,rfl⟩ | ⟨_,previous,_,hfollows⟩ | ⟨current,_,hfollows⟩
        · rfl
        · exact hfollows.kind
        · exact hfollows.kind
      refine .inr ⟨record,rfl,rfl,hrepo,htask,by rw [hkind,hsame,hchecked.kind],fun _ => ⟨checked,hchecked,?_⟩⟩
      rcases hcases with ⟨_,hasked,hunused,hnew⟩ | ⟨_,previous,hasked,hfollows⟩ | ⟨current,hcurrent,hfollows⟩
      · -- a new identity: the checked id is unused, and so is a generated one
        have hidentity : candidateIdentity ⟨s.nextEventId,now,record⟩ =
            checked.candidateId.getD (generatedCandidateId uuid) := by
          refine candidateIdentity_of_id (by rw [hfields,hnew]) ?_
          cases hid : checked.candidateId with
          | none => exact generatedCandidateId_ne_empty uuid
          | some id => exact hchecked.named id hid
        refine .new ?_ hasked (by rw [hfields,hnew]; exact hasked)
        rw [List.eq_nil_iff_forall_not_mem]
        intro c hc
        obtain ⟨hmem,hsameid⟩ := mem_eventsOf.mp hc
        rw [hidentity] at hsameid
        cases hid : checked.candidateId with
        | none =>
          rw [hid] at hsameid
          exact hfresh c hmem hsameid
        | some id =>
          rw [hid] at hsameid
          exact hunused id hid c hmem hsameid
      · obtain ⟨hid,hlast,hextends⟩ := hfollows.extends h hrecord s.nextEventId
        exact .superseding previous (by rw [hid]; exact hlast) hasked hextends
      · obtain ⟨hid,hlast,hextends⟩ := hfollows.extends h hrecord s.nextEventId
        have hasked := (mem_observedCurrent (ascending_candidateEvents s) hcurrent).2.2.1
        exact .observing current (by rw [hid]; exact hlast) hasked hextends
    · subst hresolved
      refine .inr ⟨record,rfl,rfl,hrepo,htask,by rw [hkind,hchecked.kind],fun hrecordkind => ?_⟩
      exact absurd (hkind.symm.trans hrecordkind) hcandidate

theorem Linear.after_record (h : Linear s.history) (hfresh : FreshId s uuid)
    (hok : liveRegisterRecord E registry now uuid s request = .ok (recorded,s')) : Linear s'.history := by
  rcases h.recorded_cases hfresh hok with ⟨rfl,_⟩ | ⟨record,rfl,_,hrepo,htask,_,hcandidate⟩
  · exact h
  · refine h.concat hrepo htask fun hkind => ?_
    obtain ⟨checked,_,hadvances⟩ := hcandidate hkind
    exact hadvances.joins

theorem getLast?_eventsOf_concat (history : List LiveEvent) (e : LiveEvent) (identity : String) :
    (eventsOf (history ++ [e]) identity).getLast? =
      if e.record.kind = .candidateTask ∧ candidateIdentity e = identity then some e
      else (eventsOf history identity).getLast? := by
  rw [eventsOf_concat]
  split_ifs with hnew
  · rw [List.getLast?_concat]
  · rw [List.append_nil]

theorem Linear.lifecycle_kept (h : Linear s.history) (hfresh : FreshId s uuid)
    (hok : liveRegisterRecord E registry now uuid s request = .ok (recorded,s'))
    (hasked : request.supersedesEventId = none) {identity : String} {current : LiveEvent}
    (hcurrent : currentOf s.history identity = some current) :
    ∃ after, currentOf s'.history identity = some after ∧ after.record.status = current.record.status ∧
      after.record.promotionRequired = current.record.promotionRequired := by
  have hafter := h.after_record hfresh hok
  rw [h.currentOf_eq s.ascending] at hcurrent
  rw [hafter.currentOf_eq s'.ascending]
  rcases h.recorded_cases hfresh hok with ⟨rfl,_⟩ | ⟨record,rfl,_,_,_,_,hcandidate⟩
  · exact ⟨current,hcurrent,rfl,rfl⟩
  · show ∃ after, (eventsOf (s.history ++ [_]) identity).getLast? = some after ∧ _
    rw [getLast?_eventsOf_concat]
    split_ifs with hnew
    · obtain ⟨checked,hchecked,hadvances⟩ := hcandidate hnew.1
      refine ⟨_,rfl,?_⟩
      cases hadvances with
      | new hnone _ _ =>
        rw [hnew.2] at hnone
        rw [hnone] at hcurrent
        simp at hcurrent
      | superseding previous _ hnamed _ =>
        rw [hchecked.supersedes,hasked] at hnamed
        simp at hnamed
      | observing before hlast _ hextends =>
        rw [hnew.2,hcurrent] at hlast
        obtain rfl := Option.some.inj hlast
        exact ⟨hextends.status,hextends.promotion⟩
    · exact ⟨current,hcurrent,rfl,rfl⟩

end Recording

/-! Runs of calls. -/

/-- A call on the Live Register; other writers only take event ids. -/
inductive LiveCall where
  | record (registry : Option Registry) (now uuid : String) (request : LiveRequest)
  | candidate (db : Db) (registry : Option Registry) (now uuid : String) (request : CandidateRequest)
  | close (db : Db) (registry : Option Registry) (now uuid : String) (request : CloseRequest)
  | other (count : ℕ)

def LiveCall.step (E : Texts) (s : LiveStore) : LiveCall → LiveStore
  | .record registry now uuid request => commit s ((liveRegisterRecord E registry now uuid s request).map Prod.snd)
  | .candidate db registry now uuid request =>
    commit s ((candidateRecord E db registry now uuid s request).map Prod.snd)
  | .close db registry now uuid request => commit s ((candidateClose E db registry now uuid s request).map Prod.snd)
  | .other count => s.skip count

def LiveCall.Fresh (s : LiveStore) : LiveCall → Prop
  | .record _ _ uuid _ => FreshId s uuid
  | .candidate _ _ _ uuid _ => FreshId s uuid
  | .close _ _ _ uuid _ => FreshId s uuid
  | .other _ => True

def LiveCall.Observes : LiveCall → Prop
  | .record _ _ _ request => request.supersedesEventId = none
  | .candidate _ _ _ _ request => request.supersedesEventId = none
  | .close _ _ _ _ _ => False
  | .other _ => True

section Intake

variable {E : Texts} {db : Db} {registry : Option Registry} {now uuid : String} {s s' : LiveStore}

theorem checkedCandidate_supersedes {request r : CandidateRequest} (h : checkedCandidate request = .ok r) :
    r.supersedesEventId = request.supersedesEventId := by
  simp only [checkedCandidate,checkedSupersedesEventId,steps_ok] at h
  obtain ⟨_,_,_,_,_,_,_,_,_,_,_,_,_,_,_,⟨_,_,rfl⟩,_,_,rfl⟩ := h
  rfl

theorem candidateRecord_eq_ok {request : CandidateRequest} {result : CandidateResult}
    (h : candidateRecord E db registry now uuid s request = .ok (result,s')) :
    ∃ r, checkedCandidate request = .ok r ∧ (s' = s ∨
      ∃ bound candidateId eventId recorded, selectedCandidateId E s r = .ok candidateId ∧
        candidateEventId E r.idempotencyKey (requestSha256 E.sha r) = .ok eventId ∧
        liveRegisterRecord E bound now uuid s (observationRequest E now candidateId eventId r) =
          .ok (recorded,s')) := by
  simp only [candidateRecord,bind_eq_ok] at h
  obtain ⟨r,hr,replayed,_,h⟩ := h
  refine ⟨r,hr,?_⟩
  cases replayed with
  | some replayed => exact .inl (Prod.mk.inj (Except.ok.inj h)).2.symm
  | none =>
    simp only [bind_eq_ok,throughIntake_eq_ok] at h
    obtain ⟨bound,_,candidateId,hcandidate,eventId,hevent,h⟩ := h
    cases hrecord : liveRegisterRecord E bound now uuid s (observationRequest E now candidateId eventId r) with
    | error error =>
      rw [hrecord] at h
      cases error with
      | state message =>
        simp only [bind_eq_ok] at h
        obtain ⟨replayed,_,h⟩ := h
        cases replayed with
        | some replayed => exact .inl (Prod.mk.inj (Except.ok.inj h)).2.symm
        | none => exact absurd h (by simp [refuse])
      | _ => exact absurd h (by simp)
    | ok value =>
      obtain ⟨recorded,after⟩ := value
      simp only [hrecord] at h
      have hafter : after = s' := by
        split_ifs at h <;> simp only [steps_ok,Prod.mk.injEq] at h
        · obtain ⟨_,_,_,rfl⟩ := h
          rfl
        · obtain ⟨_,_,_,rfl⟩ := h
          rfl
      exact .inr ⟨bound,candidateId,eventId,recorded,hcandidate,hevent,by rw [hrecord,hafter]⟩

theorem candidateClose_eq_ok {request : CloseRequest} {result : CloseResult}
    (h : candidateClose E db registry now uuid s request = .ok (result,s')) :
    ∃ r current, checkedClose request = .ok r ∧ currentCandidateRecord s r.candidateId = .ok current ∧
      (s' = s ∧ (candidateCloseReplay current r.candidateId r.idempotencyKey (closeRequestSha256 E.sha r) =
        some result) ∨
      candidateCloseReplay current r.candidateId r.idempotencyKey (closeRequestSha256 E.sha r) = none ∧
      current.record.status.any (· ∈ activeLiveStatuses) = true ∧ current.eventId = r.expectedEventId ∧
      ∃ bound closed, liveRegisterRecord E bound now uuid s (closingRequest E.sha now current.record r) =
        .ok (closed,s') ∧
        result = ⟨false,r.candidateId,closed.eventId,closeRequestSha256 E.sha r,
          some (.str (sha256Json E.sha (closeoutMaterial E.sha now r))),closed.record⟩) := by
  simp only [candidateClose,bind_eq_ok] at h
  obtain ⟨r,hr,h⟩ := h
  cases hcurrent : currentCandidateRecord s r.candidateId with
  | error error =>
    rw [hcurrent] at h
    cases error <;> exact absurd h (by simp [refuse])
  | ok current =>
    refine ⟨r,current,hr,hcurrent,?_⟩
    simp only [hcurrent] at h
    cases hreplay : candidateCloseReplay current r.candidateId r.idempotencyKey (closeRequestSha256 E.sha r) with
    | some replayed =>
      simp only [hreplay,pure_eq_ok,Prod.mk.injEq] at h
      obtain ⟨rfl,rfl⟩ := h
      exact .inl ⟨rfl,rfl⟩
    | none =>
      simp only [hreplay,steps_ok,decide_eq_true_eq] at h
      obtain ⟨_,hactive,_,hexpected,bound,_,h⟩ := h
      refine .inr ⟨rfl,hactive,hexpected,bound,?_⟩
      cases hrecord : liveRegisterRecord E bound now uuid s (closingRequest E.sha now current.record r) with
      | error error =>
        rw [hrecord] at h
        cases error with
        | state message =>
          have hnone : (currentCandidateRecord s r.candidateId).toOption.bind (fun latest =>
              candidateCloseReplay latest r.candidateId r.idempotencyKey (closeRequestSha256 E.sha r)) = none := by
            rw [hcurrent]
            exact hreplay
          unfold closeConflict at h
          rw [hnone] at h
          exact absurd h (by simp [refuse])
        | _ => exact absurd h (by simp)
      | ok value =>
        obtain ⟨closed,after⟩ := value
        simp only [hrecord,pure_eq_ok,Prod.mk.injEq] at h
        obtain ⟨rfl,rfl⟩ := h
        exact ⟨closed,rfl,rfl⟩

theorem LiveCall.step_cases {call : LiveCall} (hfresh : call.Fresh s) :
    (call.step E s).history = s.history ∨ ∃ registry now uuid request recorded, FreshId s uuid ∧
      liveRegisterRecord E registry now uuid s request = .ok (recorded,call.step E s) ∧
      (call.Observes → request.supersedesEventId = none) := by
  cases call with
  | record registry now uuid request =>
    cases hrecord : liveRegisterRecord E registry now uuid s request with
    | error error => exact .inl (by rw [LiveCall.step,hrecord]; rfl)
    | ok value =>
      refine .inr ⟨registry,now,uuid,request,value.1,hfresh,?_,id⟩
      rw [LiveCall.step,hrecord]
      rfl
  | candidate db registry now uuid request =>
    cases hrecord : candidateRecord E db registry now uuid s request with
    | error error => exact .inl (by rw [LiveCall.step,hrecord]; rfl)
    | ok value =>
      have hstep : LiveCall.step E s (.candidate db registry now uuid request) = value.2 := by
        rw [LiveCall.step,hrecord]
        rfl
      rw [hstep]
      obtain ⟨r,hr,hsame | ⟨bound,candidateId,eventId,recorded,_,_,hlive⟩⟩ := candidateRecord_eq_ok hrecord
      · exact .inl (by rw [hsame])
      · exact .inr ⟨bound,now,uuid,_,recorded,hfresh,hlive,fun hnone =>
          (checkedCandidate_supersedes hr).trans hnone⟩
  | close db registry now uuid request =>
    cases hclose : candidateClose E db registry now uuid s request with
    | error error => exact .inl (by rw [LiveCall.step,hclose]; rfl)
    | ok value =>
      have hstep : LiveCall.step E s (.close db registry now uuid request) = value.2 := by
        rw [LiveCall.step,hclose]
        rfl
      rw [hstep]
      obtain ⟨r,current,_,_,⟨hsame,_⟩ | ⟨_,_,_,bound,closed,hlive,_⟩⟩ := candidateClose_eq_ok hclose
      · exact .inl (by rw [hsame])
      · exact .inr ⟨bound,now,uuid,_,closed,hfresh,hlive,False.elim⟩
  | other count => exact .inl rfl

theorem LiveCall.step_linear {call : LiveCall} (h : Linear s.history) (hfresh : call.Fresh s) :
    Linear (call.step E s).history := by
  rcases LiveCall.step_cases (E := E) hfresh with hsame | ⟨_,_,_,_,_,hid,hlive,_⟩
  · rw [hsame]
    exact h
  · exact h.after_record hid hlive

theorem linear_of_reach (hreach : Reach (LiveCall.step E) LiveCall.Fresh .fresh s) : Linear s.history :=
  hreach.invariant (P := fun s => Linear s.history) linear_fresh fun _ _ h hfresh => LiveCall.step_linear h hfresh

end Intake

/-- An event keeps the bindings of the ones before it in its chain. -/
def KeepsBindings (a b : LiveEvent) : Prop :=
  (∀ repo ∈ a.record.repo, b.record.repo = some repo) ∧ ∀ taskId ∈ a.record.taskId, b.record.taskId = some taskId

theorem KeepsBindings.trans {a b c : LiveEvent} (hab : KeepsBindings a b) (hbc : KeepsBindings b c) :
    KeepsBindings a c :=
  ⟨fun repo h => hbc.1 repo (hab.1 repo h),fun taskId h => hbc.2 taskId (hab.2 taskId h)⟩

theorem Linear.bindings (h : Linear history) (identity : String) :
    (eventsOf history identity).Pairwise KeepsBindings := by
  have : Trans KeepsBindings KeepsBindings KeepsBindings := ⟨KeepsBindings.trans⟩
  refine List.isChain_iff_pairwise.mp ((h.chain identity).imp fun a b hab => ⟨hab.repo,fun taskId ht => ?_⟩)
  rw [hab.taskId]
  exact ht

theorem Linear.projection_eq (h : Linear history) (hasc : Ascending LiveEvent.eventId history) (identity : String) :
    (candidateProjection history).filter (candidateIdentity · = identity) =
      (eventsOf history identity).getLast?.toList := by
  have hleft : Ascending LiveEvent.eventId ((candidateProjection history).filter (candidateIdentity · = identity)) :=
    (ascending_candidateProjection hasc).filter _
  have hright : Ascending LiveEvent.eventId (eventsOf history identity).getLast?.toList := by
    cases (eventsOf history identity).getLast? with
    | none => exact .nil
    | some e => exact List.pairwise_singleton _ e
  refine hleft.eq_of_mem_iff hright fun e => ?_
  rw [List.mem_filter,h.mem_projection hasc,decide_eq_true_eq,Option.mem_toList]
  constructor
  · rintro ⟨hlast,rfl⟩
    exact hlast
  · intro hlast
    obtain ⟨_,rfl⟩ := mem_eventsOf.mp (List.mem_of_getLast? hlast)
    exact ⟨hlast,rfl⟩

/-- In every run of calls from an empty register, the events of each candidate identity form one
supersession chain with exactly one current event, bindings never change along it, and an
observation leaves the lifecycle of every candidate as it is. -/
theorem candidate_history_linear {E : Texts} {s : LiveStore}
    (hreach : Reach (LiveCall.step E) LiveCall.Fresh .fresh s) :
    (∀ identity,
      (∀ e ∈ (eventsOf s.history identity).head?, e.record.supersedesEventId = none) ∧
      (eventsOf s.history identity).IsChain (fun a b => b.record.supersedesEventId = some a.eventId) ∧
      (candidateProjection s.history).filter (candidateIdentity · = identity) =
        (eventsOf s.history identity).getLast?.toList ∧
      (eventsOf s.history identity).Pairwise KeepsBindings) ∧
    ∀ call : LiveCall, call.Fresh s → call.Observes → ∀ identity current,
      currentOf s.history identity = some current → ∃ after,
        currentOf (call.step E s).history identity = some after ∧ after.record.status = current.record.status ∧
        after.record.promotionRequired = current.record.promotionRequired := by
  have h := linear_of_reach hreach
  constructor
  · intro identity
    refine ⟨h.first identity,?_,h.projection_eq s.ascending identity,h.bindings identity⟩
    exact (h.chain identity).imp fun a b hab => hab.supersedes
  · intro call hfresh hobserves identity current hcurrent
    rcases LiveCall.step_cases (E := E) hfresh with hsame | ⟨_,_,_,_,_,hid,hlive,hnone⟩
    · rw [hsame]
      exact ⟨current,hcurrent,rfl,rfl⟩
    · exact h.lifecycle_kept hid hlive (hnone hobserves) hcurrent

namespace Sample

/-- A stand-in for SHA-256 that looks at the number of bytes. -/
def flatTexts : Texts where
  sha text :=
    match text.toByteArray.data.toList.length % 3 with
    | 0 => "1ef76c7a95b45f68f3d2886d91aad7f5c7993b8b5b8c73a41944651962ffddcb"
    | 1 => "8ef76c7a95b45f68f3d2886d91aad7f5c7993b8b5b8c73a41944651962ffddcb"
    | _ => "e3b0c44298fc1c149afbf4c8996fb92427ae41e4649b934ca495991b7852b855"
  casefold s := s

def guardRequest : LiveRequest where
  kind := .candidateTask
  title := "Fix the guard"
  catalogValidation := .deferred

def openedCall : LiveCall := .record none "2026-01-01" "0" guardRequest

def droppedCall : LiveCall :=
  .record none "2026-01-02" "1" { guardRequest with
    supersedesEventId := some 1
    status := some .dropped }

def opened : LiveStore := openedCall.step flatTexts .fresh

def dropped : LiveStore := droppedCall.step flatTexts opened

def droppedId : String := "candidate-1ef76c7a95b45f68f3d2886d"

/-- A further observation of the dropped candidate. -/
def observedCall : LiveCall :=
  .record none "2026-01-03" "2" { guardRequest with
    title := "Fix the guard!"
    candidateId := some droppedId
    deduplicateCandidate := true }

def observed : LiveStore := observedCall.step flatTexts dropped

theorem dropped_shown : FreshId opened "1" ∧ FreshId dropped "2" ∧
    (currentOf dropped.history droppedId).map (·.record.status) = some (some .dropped) ∧
    (eventsOf observed.history droppedId).map (·.eventId) = [1,2,3] := by
  unfold FreshId
  decide +kernel

theorem dropped_reach : Reach (LiveCall.step flatTexts) LiveCall.Fresh .fresh dropped := by
  refine .step (i := droppedCall) (.step (i := openedCall) .init ?_) dropped_shown.1
  intro c hc
  simp [LiveStore.fresh,candidateEvents] at hc

end Sample

/-- The observation is the third event of the chain, and the candidate stays dropped. -/
theorem candidate_history_linear_dropped :
    (eventsOf Sample.observed.history Sample.droppedId).map (·.eventId) = [1,2,3] ∧
    (candidateProjection Sample.observed.history).filter (candidateIdentity · = Sample.droppedId) =
      (eventsOf Sample.observed.history Sample.droppedId).getLast?.toList ∧
    ∃ after, currentOf Sample.observed.history Sample.droppedId = some after ∧
      after.record.status = some .dropped := by
  obtain ⟨_,hfresh,hstatus,hevents⟩ := Sample.dropped_shown
  have hreach : Reach (LiveCall.step Sample.flatTexts) LiveCall.Fresh .fresh Sample.observed :=
    .step (i := Sample.observedCall) Sample.dropped_reach hfresh
  obtain ⟨current,hcurrent,hdropped⟩ := Option.map_eq_some_iff.mp hstatus
  obtain ⟨after,hafter,hkept,_⟩ := (candidate_history_linear Sample.dropped_reach).2 Sample.observedCall hfresh rfl
    Sample.droppedId current hcurrent
  exact ⟨hevents,((candidate_history_linear hreach).1 Sample.droppedId).2.2.1,after,hafter,hkept.trans hdropped⟩

end LiveRegister

end Bureau
