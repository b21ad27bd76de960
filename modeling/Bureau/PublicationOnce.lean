import Bureau.Publication

/-!
A typed publication has its effect once. The put goes through one idempotency key, so one revision is
all that the calls of a proposal can set, and it is set under leases that hold. The evidence of schema
3 in the mutation row names the receipts the calls have bound, and no other receipt passes for a replay.
-/

namespace Bureau

open Transactions Interleaving

variable {sha : Sha} {receipt : Json} {db : Db} {revision : ℕ} {specSha256 : String}

namespace Publication

/-! What the steps establish. -/

variable {leases : NormalizedLeases} {I : Intake} {plan : Proposal} {c : Commitment} {evidence : Evidence}
    {existing : Option Evidence} {s : Shared}

theorem NormalizedLeases.minExpiresAt_le {item : String × Lease}
    (h : item ∈ leases.snapshots) : leases.minExpiresAt ≤ item.2.expiresAt := by
  have hmem : item.2.expiresAt ∈ leases.snapshots.map fun item => item.2.expiresAt := List.mem_map_of_mem h
  unfold NormalizedLeases.minExpiresAt
  cases hmin : (leases.snapshots.map fun item => item.2.expiresAt).min? with
  | none =>
    rw [List.min?_eq_none_iff] at hmin
    rw [hmin] at hmem
    cases hmem
  | some least => exact (List.min?_eq_some_iff.mp hmin).2 _ hmem

theorem validatePublicationLeases_rows {table : String → Option Lease}
    {binding : LeaseBinding} {database : Outcome ResourceDb} {now : Int}
    (h : validatePublicationLeases sha I plan table binding database now = .ok leases) {key : String}
    (hkey : key ∈ I.requiredResourceKeys) :
    ∃ lease, table key = some lease ∧ (key,lease) ∈ leases.snapshots ∧
      lease.ownerId = String.ofList (strip binding.ownerId) := by
  simp only [validatePublicationLeases,steps_ok] at h
  obtain ⟨_,_,_,_,_,_,_,_,rows,hrows,_,hvalid,rfl⟩ := h
  obtain ⟨item,hitem,hread⟩ := exists_of_collect hrows hkey
  simp only [readLease,steps_ok] at hread
  obtain ⟨lease,hlease,rfl⟩ := hread
  obtain ⟨_,_,hchecked⟩ := exists_of_collect hvalid hitem
  simp only [validateLease,steps_ok,decide_eq_true_eq] at hchecked
  exact ⟨lease,hlease,hitem,hchecked.choose_spec.1⟩

theorem Evidence.mem_leaseCommitments (hschema : evidence.schemaVersion = 3)
    (h : c ∈ evidence.commitments) : c ∈ evidence.leaseCommitments := by
  unfold Evidence.commitments at h
  rw [if_pos hschema] at h
  split at h
  · cases h
  · split at h
    · exact h
    · cases h

theorem Evidence.schemaVersion_eq_three (hsome : evidence.commitments.isEmpty = false)
    (hall : (evidence.commitments.all fun c => c.receiptSha256.isSome) = true) : evidence.schemaVersion = 3 := by
  by_contra hschema
  obtain ⟨c,hc⟩ := List.exists_mem_of_ne_nil _ (List.isEmpty_eq_false_iff.mp hsome)
  have hnamed : c.receiptSha256.isSome = true := List.all_eq_true.mp hall c hc
  -- the older schemas read back without the digest of a receipt
  have hnone : c.receiptSha256 = none := by
    unfold Evidence.commitments at hc
    rw [if_neg hschema] at hc
    split at hc
    · cases hc
    · split at hc
      · obtain ⟨_,_,rfl⟩ := List.mem_map.mp hc
        rfl
      · cases hc
  simp [hnone] at hnamed

/-- The stored evidence has the new commitment and those of earlier evidence of schema 3. -/
theorem storeEvidence_commitments {proposal : Json}
    {candidate : Commitment}
    (h : storeEvidence sha db existing plan specSha256 revision proposal candidate = .ok evidence)
    (hc : c ∈ evidence.commitments) :
    c = candidate ∨ ∃ earlier, existing = some earlier ∧ earlier.schemaVersion = 3 ∧ c ∈ earlier.commitments := by
  simp only [storeEvidence,readMutation,steps_ok,Option.filter_eq_some_iff] at h
  obtain ⟨read,⟨receipt,_,hread⟩,mutation,⟨rfl,_⟩,_,_,h⟩ := h
  have hexisting : mutation.2 = existing := by
    cases receipt with
    | none => simp only [pure_eq_ok] at hread; cases hread
    | some receipt =>
      simp only [steps_ok,Option.some.injEq] at hread
      obtain ⟨_,_,rfl⟩ := hread
      rfl
  rw [hexisting] at h
  cases existing with
  | none =>
    obtain rfl := pure_eq_ok.mp h
    exact .inl (List.mem_singleton.mp (Evidence.mem_leaseCommitments rfl hc))
  | some earlier =>
    simp only [steps_ok,ite_eq_ok,Bool.not_eq_true'] at h
    obtain ⟨_,_,_,hsome,⟨_,rfl⟩ | ⟨_,_,hall,rfl⟩⟩ := h
    · exact .inl (List.mem_singleton.mp (Evidence.mem_leaseCommitments rfl hc))
    · have hmem := List.mem_dedup.mp (Evidence.mem_leaseCommitments rfl hc)
      rcases List.mem_append.mp hmem with hmem | hmem
      · exact .inr ⟨earlier,rfl,Evidence.schemaVersion_eq_three hsome hall,hmem⟩
      · exact .inl (List.mem_singleton.mp hmem)

theorem mutationEvidence_eq_some
    (h : mutationEvidence sha db existing plan = .ok (some evidence)) :
    existing = some evidence := by
  unfold mutationEvidence at h
  split at h
  · rename_i mutation hread
    simp only [readMutation,bind_eq_ok] at hread
    obtain ⟨receipt,_,hread⟩ := hread
    cases receipt with
    | none =>
      obtain rfl := pure_eq_ok.mp hread
      cases h
    | some receipt =>
      simp only [steps_ok] at hread
      obtain ⟨_,_,rfl⟩ := hread
      exact Except.ok.inj h
  · cases h

def Sealed (sha : Sha) (receipt : Json) : Prop :=
  receipt.getStr? "receipt_sha256" = some (sha256Json sha (receipt.pop "receipt_sha256"))

theorem readReceipt_sealed (h : readReceipt sha receipt = .ok ()) : Sealed sha receipt := by
  simp only [readReceipt,steps_ok,Bool.and_eq_true,decide_eq_true_eq] at h
  obtain ⟨_,_,_,⟨_,hdigest⟩,_⟩ := h
  exact hdigest

theorem receiptCommitment_digest (h : receiptCommitment sha receipt = .ok c) :
    c.receiptSha256 = receipt.getStr? "receipt_sha256" := by
  simp only [receiptCommitment,nonEmptyStr?,steps_ok,Option.filter_eq_some_iff] at h
  obtain ⟨digest,⟨hdigest,_⟩,rfl⟩ := h
  exact hdigest.symm

/-- Under schema 3 the commitment of an accepted receipt stands in the evidence. -/
theorem matchReceipt_commitment {planFileSha256 : String} {trusted : Option Evidence}
    {roots : Outcome Roots} (h : matchReceipt sha I plan planFileSha256 receipt trusted roots = .ok 3) :
    ∃ evidence c, trusted = some evidence ∧ evidence.schemaVersion = 3 ∧ receiptCommitment sha receipt = .ok c ∧
      c ∈ evidence.commitments := by
  simp only [matchReceipt,steps_ok,ite_eq_ok,Option.filter_eq_some_iff,List.contains_iff_mem] at h
  obtain ⟨c,hc,evidence,⟨htrusted,_⟩,h⟩ := h
  rcases h with ⟨htwo,_,_,_,_,_,_,_,_,_,_,_,_,_,_,hthree⟩ | ⟨_,_,hmem,_,_,_,_,_,_,_,_,hthree⟩
  · omega
  · exact ⟨evidence,c,htrusted,hthree,hc,hmem⟩

/-! The invariant. -/

/-- At the write, every required lease row was there, owned by the binding, with a minute left. -/
def Written.LeasesHeld (I : Intake) (w : Written) : Prop :=
  ∀ key ∈ I.requiredResourceKeys, ∃ lease, w.leases key = some lease ∧
    lease.ownerId = String.ofList (strip w.binding.ownerId) ∧ w.now+minimumRemaining < lease.expiresAt

/-- The proposed document, right after the expected revision. -/
structure Written.Proposed (sha : Sha) (plan : Proposal) (w : Written) : Prop where
  spec : w.current.spec = plan.taskJson
  digest : w.current.specSha256 = TaskSpecs.taskSpecDigest sha plan.taskJson
  parent : w.current.parentRevision = plan.expectedRevision
  revision : w.current.revision = plan.expectedRevision.getD 0 + 1

def Committed (sha : Sha) (s : Shared) (receipt : Json) : Prop :=
  sha256Json sha (receipt.pop "receipt_sha256") ∈ s.commits

structure Inv (sha : Sha) (I : Intake) (plan : Proposal) (s : Shared) : Prop where
  ledger : s.db.SpecLedger sha
  single : s.writes.length ≤ 1
  recorded : ∀ w ∈ s.writes,
    TaskSpecs.Recorded sha s.db plan.taskJson (idempotencyKey plan) plan.expectedRevision w.current
  proposed : ∀ w ∈ s.writes, w.Proposed sha plan
  held : ∀ w ∈ s.writes, w.LeasesHeld I
  evidence : ∀ evidence, s.evidence = some evidence → evidence.schemaVersion = 3 →
    ∀ c ∈ evidence.commitments, ∀ digest, c.receiptSha256 = some digest → digest ∈ s.commits
  accepted : ∀ receipt, (3,receipt) ∈ s.accepted → Committed sha s receipt

def Asserts (sha : Sha) (s : Shared) : Phase → Prop
  | .replaying receipt => Sealed sha receipt
  | .replayMatched receipt schema => schema = 3 → Committed sha s receipt
  | _ => True

def Holds (sha : Sha) (_ : ℕ) (s : Shared) : Actor → Prop
  | .publish call => Asserts sha s call.phase
  | _ => True

theorem Holds.kept {id : ℕ} {s' : Shared} {actor : Actor} (h : Holds sha id s actor)
    (hcommits : s.commits ⊆ s'.commits) : Holds sha id s' actor := by
  cases actor with
  | publish call =>
    obtain ⟨_,_,_,_,phase⟩ := call
    cases phase with
    | replayMatched receipt schema => exact fun hschema => hcommits (h hschema)
    | replaying receipt => exact h
    | _ => trivial
  | _ => trivial

/-- A sound step: the invariant, no bound digest lost, and what the call knows next. -/
structure Advances (sha : Sha) (I : Intake) (plan : Proposal) (id : ℕ) (s : Shared) (next : Shared × Option Actor) :
    Prop where
  inv : Inv sha I plan next.1
  commits : s.commits ⊆ next.1.commits
  holds : ∀ actor, next.2 = some actor → Holds sha id next.1 actor

section Steps

variable {E : Env} {K : Contracts} {I : Intake} {plan : Proposal} {id : ℕ} {s s' : Shared} {call : Call}
  {next : Option Actor} {i : Reading}

theorem Inv.outside (hinv : Inv E.sha I plan s) (hdb : s'.db = s.db) (hevidence : s'.evidence = s.evidence)
    (hwrites : s'.writes = s.writes) (hcommits : s'.commits = s.commits) (haccepted : s'.accepted = s.accepted) :
    Inv E.sha I plan s' := by
  obtain ⟨db,evidence,leases,files,writes,commits,accepted⟩ := s'
  subst hdb hevidence hwrites hcommits haccepted
  exact ⟨hinv.ledger,hinv.single,hinv.recorded,hinv.proposed,hinv.held,hinv.evidence,hinv.accepted⟩

theorem holds_at {phase : Phase} (h : Asserts E.sha s phase) :
    ∀ actor, call.at phase = some actor → Holds E.sha id s actor := by
  intro actor hactor
  obtain rfl := Option.some.inj hactor
  exact h

theorem Advances.stay (hinv : Inv E.sha I plan s) (hnext : ∀ actor, next = some actor → Holds E.sha id s actor) :
    Advances E.sha I plan id s (s,next) :=
  ⟨hinv,fun _ h => h,hnext⟩

theorem Inv.specEffect (hinv : Inv E.sha I plan s) (heffect : SpecEffect E.sha s.db db) :
    Inv E.sha I plan { s with db := db } where
  ledger := hinv.ledger.effect heffect
  single := hinv.single
  recorded w hw := (hinv.recorded w hw).effect heffect hinv.ledger
  proposed := hinv.proposed
  held := hinv.held
  evidence := hinv.evidence
  accepted := hinv.accepted

theorem Inv.writer (hinv : Inv E.sha I plan s) (writer : Writer) :
    Inv E.sha I plan { s with db := writer.step E K s.db } :=
  Writer.reach_invariant (E := E) (K := K) (P := fun db => Inv E.sha I plan { s with db := db })
    (fun _ _ heffect h => h.specEffect heffect) hinv (.step .init trivial)

theorem put_changed {now : Time} {db' : Db} {source : String} {result : TaskSpecs.PutResult}
    (hchanged : result.changed = true)
    (hput : TaskSpecs.put E now db plan.taskJson (idempotencyKey plan) plan.expectedRevision source =
      .ok (result,db')) :
    db.taskSpecMutations[idempotencyKey plan]? = none ∧ result.current.spec = plan.taskJson ∧
      result.current.parentRevision = plan.expectedRevision ∧
      result.current.revision = plan.expectedRevision.getD 0 + 1 := by
  have hmaterial := TaskSpecs.put_eq_ok hput
  obtain ⟨_,_,hexpected⟩ := TaskSpecs.putValidatedMaterial_arguments hmaterial
  cases TaskSpecs.putValidatedMaterial_effect hmaterial with
  | replay id known read =>
    simp only [TaskSpecs.replayMutation,steps_ok] at read
    obtain ⟨_,_,_,_,_,_,_,_,_,_,rfl⟩ := read
    cases hchanged
  | known => cases hchanged
  | @set next document origin successor write =>
    obtain ⟨current,hcurrent,hrevision⟩ := successor.current
    obtain ⟨baseline,hbaseline,hexpects⟩ := write.baseline
    rw [hcurrent,Except.ok.injEq] at hbaseline
    subst hbaseline
    rw [hexpects] at hrevision
    refine ⟨write.unused,document,?_,hrevision⟩
    rw [successor.parent,hrevision,TaskSpecs.parentOfRevision]
    cases hplan : plan.expectedRevision with
    | none => rfl
    | some n =>
      have hpos : n ≠ 0 := fun hzero => hexpected (by rw [hplan,hzero])
      simp [hpos]

theorem publishPinned_sound (hinv : Inv E.sha I plan s) (h : publishPinned E I plan s call i = .ok (s',next)) :
    Advances E.sha I plan id s (s',next) := by
  simp only [publishPinned,requireCurrentLifetime,steps_ok,decide_eq_true_eq] at h
  obtain ⟨_,_,leases,hleases,_,hlifetime,h⟩ := h
  split at h
  · cases h
  · rename_i result db hput
    obtain ⟨rfl,rfl⟩ := Prod.mk.inj (pure_eq_ok.mp h)
    have heffect := TaskSpecs.putValidatedMaterial_effect (TaskSpecs.put_eq_ok hput)
    have hkept := hinv.specEffect heffect.specEffect
    by_cases hchanged : result.changed = true
    · obtain ⟨hunused,hspec,hparent,hrevision⟩ := put_changed hchanged hput
      have hrecorded := heffect.recorded hinv.ledger
      -- an earlier revision would have left its receipt under the key
      have hfirst : s.writes = [] := by
        by_contra hne
        obtain ⟨w,hw⟩ := List.exists_mem_of_ne_nil _ hne
        exact absurd rfl ((hinv.recorded w hw).key_ne hunused)
      simp only [hchanged,hfirst,if_true,List.nil_append]
      have hheld : Written.LeasesHeld I ⟨result.current,call.binding,s.leases call.resourceDb,i.current⟩ := by
        intro key hkey
        obtain ⟨lease,hlease,hmem,howner⟩ := validatePublicationLeases_rows hleases hkey
        have hle := NormalizedLeases.minExpiresAt_le hmem
        exact ⟨lease,hlease,howner,lt_of_lt_of_le hlifetime hle⟩
      have hproposed : Written.Proposed E.sha plan
          ⟨result.current,call.binding,s.leases call.resourceDb,i.current⟩ :=
        ⟨hspec,hrecorded.digest,hparent,hrevision⟩
      refine ⟨⟨hkept.ledger,by simp,?_,?_,?_,hinv.evidence,hinv.accepted⟩,fun _ h => h,holds_at trivial⟩
      · intro w hw
        obtain rfl := List.mem_singleton.mp hw
        exact hrecorded
      · intro w hw
        obtain rfl := List.mem_singleton.mp hw
        exact hproposed
      · intro w hw
        obtain rfl := List.mem_singleton.mp hw
        exact hheld
    · simp only [hchanged]
      exact ⟨hkept,fun _ h => h,holds_at trivial⟩

theorem bindEvidence_sound {refusal : OperatorIntakeError} (hinv : Inv E.sha I plan s)
    (h : bindEvidence E plan s receipt specSha256 revision refusal = .ok s') :
    Inv E.sha I plan s' ∧ s.commits ⊆ s'.commits ∧ s'.accepted = s.accepted := by
  simp only [bindEvidence,bind_eq_ok] at h
  obtain ⟨candidate,_,h⟩ := h
  split at h
  · cases h
  · rename_i evidence hstored
    obtain rfl := pure_eq_ok.mp h
    have hgrow : s.commits ⊆ s.commits ++ candidate.receiptSha256.toList := List.subset_append_left _ _
    refine ⟨⟨hinv.ledger,hinv.single,hinv.recorded,hinv.proposed,hinv.held,?_,?_⟩,hgrow,rfl⟩
    · rintro stored hsome _ c hc digest hdigest
      obtain rfl := Option.some.inj hsome
      rcases storeEvidence_commitments hstored hc with rfl | ⟨earlier,hearlier,hschema,hmem⟩
      · exact List.mem_append_right _ (by simp [hdigest])
      · exact hgrow (hinv.evidence earlier hearlier hschema c hmem digest hdigest)
    · exact fun accepted hmem => hgrow (hinv.accepted accepted hmem)

theorem Inv.accept {schema : ℕ} (hinv : Inv E.sha I plan s) (hcommitted : schema = 3 → Committed E.sha s receipt) :
    Inv E.sha I plan { s with accepted := s.accepted ++ [(schema,receipt)] } := by
  refine ⟨hinv.ledger,hinv.single,hinv.recorded,hinv.proposed,hinv.held,hinv.evidence,fun file hmem => ?_⟩
  rcases List.mem_append.mp hmem with hmem | hmem
  · exact hinv.accepted file hmem
  · obtain ⟨hschema,rfl⟩ := Prod.mk.inj (List.mem_singleton.mp hmem)
    exact hcommitted hschema.symm

theorem replayStep_sound (hinv : Inv E.sha I plan s) (phase : Phase) (hasserts : Asserts E.sha s phase)
    (h : replayStep E I plan s call i phase = .ok (s',next)) : Advances E.sha I plan id s (s',next) := by
  cases phase with
  | replaying receipt =>
    simp only [replayStep,steps_ok,Prod.mk.injEq] at h
    obtain ⟨_,_,trusted,htrusted,schema,hmatch,rfl,rfl⟩ := h
    refine .stay hinv (holds_at fun hschema => ?_)
    subst hschema
    obtain ⟨evidence,c,rfl,hthree,hc,hmem⟩ := matchReceipt_commitment hmatch
    have hstored := mutationEvidence_eq_some htrusted
    have hdigest : c.receiptSha256 = some (sha256Json E.sha (receipt.pop "receipt_sha256")) :=
      (receiptCommitment_digest hc).trans hasserts
    exact hinv.evidence evidence hstored hthree c hmem _ hdigest
  | replayMatched receipt schema =>
    simp only [replayStep,bind_eq_ok,ite_eq_ok,pure_eq_ok,Prod.mk.injEq] at h
    obtain ⟨_,_,⟨_,rfl,rfl⟩ | ⟨_,rfl,rfl⟩⟩ := h
    · exact .stay hinv (holds_at trivial)
    · exact ⟨hinv.accept hasserts,fun _ h => h,fun _ hnone => by cases hnone⟩
  | upgrading receipt =>
    simp only [replayStep,steps_ok,Prod.mk.injEq] at h
    obtain ⟨bound,hbound,rfl,rfl⟩ := h
    obtain ⟨hafter,hgrow,_⟩ := bindEvidence_sound hinv hbound
    have haccept : Inv E.sha I plan { bound with accepted := bound.accepted ++ [(2,receipt)] } :=
      hafter.accept (by omega)
    exact ⟨haccept,hgrow,fun _ hnone => by cases hnone⟩
  | _ =>
    obtain ⟨rfl,rfl⟩ := Prod.mk.inj (pure_eq_ok.mp h)
    exact .stay hinv fun _ hnone => by cases hnone

theorem effectStep_sound (hinv : Inv E.sha I plan s) (phase : Phase)
    (h : effectStep E I plan s call i phase = .ok (s',next)) : Advances E.sha I plan id s (s',next) := by
  cases phase with
  | receiptAbsent =>
    simp only [effectStep,steps_ok,Prod.mk.injEq] at h
    obtain ⟨_,_,_,_,rfl,rfl⟩ := h
    exact .stay hinv (holds_at trivial)
  | previewed => exact publishPinned_sound hinv h
  | written result leases =>
    simp only [effectStep,steps_ok,Prod.mk.injEq] at h
    obtain ⟨_,_,_,_,_,_,rfl,rfl⟩ := h
    exact .stay hinv (holds_at trivial)
  | readBack result leases roots =>
    simp only [effectStep,steps_ok,Prod.mk.injEq] at h
    obtain ⟨table,_,rfl,rfl⟩ := h
    exact ⟨hinv.outside rfl rfl rfl rfl rfl,fun _ h => h,holds_at trivial⟩
  | released result leases roots =>
    simp only [effectStep,steps_ok,Prod.mk.injEq] at h
    obtain ⟨bound,hbound,rfl,rfl⟩ := h
    obtain ⟨hafter,hgrow,_⟩ := bindEvidence_sound hinv hbound
    exact ⟨hafter,hgrow,holds_at trivial⟩
  | evidenced receipt =>
    simp only [effectStep,ite_eq_ok,pure_eq_ok,Prod.mk.injEq] at h
    obtain ⟨_,rfl,rfl⟩ | ⟨_,rfl,rfl⟩ := h
    · exact .stay hinv (holds_at trivial)
    · exact ⟨hinv.outside rfl rfl rfl rfl rfl,fun _ h => h,holds_at trivial⟩
  | stored receipt =>
    simp only [effectStep,steps_ok,Prod.mk.injEq] at h
    obtain ⟨_,_,_,_,_,_,rfl,rfl⟩ := h
    exact .stay hinv fun _ hnone => by cases hnone
  | _ =>
    obtain ⟨rfl,rfl⟩ := Prod.mk.inj (pure_eq_ok.mp h)
    exact .stay hinv fun _ hnone => by cases hnone

theorem publishStep_sound (hinv : Inv E.sha I plan s) (hasserts : Asserts E.sha s call.phase)
    (h : publishStep E I plan s call i = .ok (s',next)) : Advances E.sha I plan id s (s',next) := by
  unfold publishStep at h
  split at h
  · split at h
    · obtain ⟨rfl,rfl⟩ := Prod.mk.inj (pure_eq_ok.mp h)
      exact .stay hinv (holds_at trivial)
    · simp only [steps_ok,Prod.mk.injEq] at h
      obtain ⟨_,hread,rfl,rfl⟩ := h
      exact .stay hinv (holds_at (readReceipt_sealed hread))
  · simp only [steps_ok,Prod.mk.injEq] at h
    obtain ⟨_,_,_,hread,rfl,rfl⟩ := h
    exact .stay hinv (holds_at (readReceipt_sealed hread))
  all_goals first
    | exact replayStep_sound hinv _ hasserts h
    | exact effectStep_sound hinv _ h

theorem advance_sound (actor : Actor) (hinv : Inv E.sha I plan s) (hholds : Holds E.sha id s actor) :
    Advances E.sha I plan id s (advance E K I plan id s actor i) := by
  cases actor with
  | publish call =>
    simp only [advance]
    split
    · rename_i next hstep
      exact publishStep_sound hinv hholds hstep
    · exact .stay hinv fun _ hnone => by cases hnone
  | writer writer => exact ⟨hinv.writer writer,fun _ h => h,fun _ hnone => by cases hnone⟩
  | leaseHolder leases => exact ⟨hinv.outside rfl rfl rfl rfl rfl,fun _ h => h,fun _ hnone => by cases hnone⟩
  | fileWriter path content =>
    exact ⟨hinv.outside rfl rfl rfl rfl rfl,fun _ h => h,fun _ hnone => by cases hnone⟩

end Steps

/-- A call begins at its beginning; everyone else may act at any time. -/
def begins : Actor → Prop
  | .publish call => call.phase = .begun
  | _ => True

theorem outline (E : Env) (K : Contracts) (I : Intake) (plan : Proposal) :
    Outline (advance E K I plan) begins (Inv E.sha I plan) (Holds E.sha) where
  begun id s actor _ hbegins := by
    cases actor with
    | publish call =>
      change Asserts E.sha s call.phase
      rw [show call.phase = .begun from hbegins]
      trivial
    | _ => trivial
  kept id s actor i hinv hholds := (advance_sound actor hinv hholds).inv
  next id s actor i actor' hinv hholds hnext := (advance_sound actor hinv hholds).holds actor' hnext
  others id s actor i other m hinv hholds _ hm := hm.kept (advance_sound actor hinv hholds).commits

/-- No call of the proposal has had an effect, and the row has no evidence of schema 3. -/
structure Unpublished (s : Shared) : Prop where
  writes : s.writes = []
  accepted : s.accepted = []
  evidence : ∀ evidence, s.evidence = some evidence → evidence.schemaVersion ≠ 3

theorem Unpublished.inv (h : Unpublished s)
    (hledger : s.db.SpecLedger sha) : Inv sha I plan s where
  ledger := hledger
  single := by simp [h.writes]
  recorded := by simp [h.writes]
  proposed := by simp [h.writes]
  held := by simp [h.writes]
  evidence evidence hsome hschema := absurd hschema (h.evidence evidence hsome)
  accepted := by simp [h.accepted]

end Publication

open Publication in
/-- A typed publication happens once. However the calls of one proposal are interleaved with each
other, with other TaskSpec writers, with changes of leases and with files put in the place of
receipts, and wherever they stop, they set at most one revision. It is the proposed document right
after the expected revision, it stays readable, and at the last reading of the clock before the put,
under the locks of the write, every required lease row was there, owned by the binding and more than a
minute from its expiry. A receipt file is accepted under evidence of schema 3 only if one of the calls
has bound the digest of its content to the mutation row. -/
theorem publication_exactly_once {E : Env} {K : Contracts} {I : Intake} {plan : Proposal} {start : Shared}
    {w : Interleaving.World Shared Actor} (hstart : Reach (Writer.step E K) (fun _ _ => True) (Db.fresh E.sha) start.db)
    (hunpublished : Unpublished start)
    (hreach : Reach (Interleaving.World.step (advance E K I plan)) (admits begins) (Interleaving.World.idle start) w) :
    w.shared.writes.length ≤ 1 ∧
      (∀ written ∈ w.shared.writes,
        written.current.spec = plan.taskJson ∧
        written.current.specSha256 = TaskSpecs.taskSpecDigest E.sha plan.taskJson ∧
        written.current.parentRevision = plan.expectedRevision ∧
        written.current.revision = plan.expectedRevision.getD 0 + 1 ∧
        TaskSpecs.getRevision E.sha w.shared.db written.current.taskId written.current.revision =
          .ok written.current ∧
        ∀ key ∈ I.requiredResourceKeys, ∃ lease, written.leases key = some lease ∧
          lease.ownerId = String.ofList (strip written.binding.ownerId) ∧
          written.now+minimumRemaining < lease.expiresAt) ∧
      ∀ receipt, (3,receipt) ∈ w.shared.accepted →
        sha256Json E.sha (receipt.pop "receipt_sha256") ∈ w.shared.commits := by
  have hinv : Inv E.sha I plan w.shared :=
    ((outline E K I plan).reach
      (Interleaving.World.sound_idle (hunpublished.inv (Writer.specLedger_of_reach hstart).1)) hreach).1
  refine ⟨hinv.single,fun written hwritten => ?_,hinv.accepted⟩
  have hproposed := hinv.proposed written hwritten
  obtain ⟨row,hrow,hcurrent⟩ := (hinv.recorded written hwritten).row
  have hread := hinv.ledger.getRevision_eq _ _ hrow
  rw [hcurrent] at hread
  exact ⟨hproposed.spec,hproposed.digest,hproposed.parent,hproposed.revision,hread,hinv.held written hwritten⟩

namespace Sample

open Publication

/-- A stand-in for SHA-256 that looks at the number of bytes. -/
def publicationSha : Sha := fun text =>
  if text.toByteArray.data.toList.length % 2 = 0 then
    "e3b0c44298fc1c149afbf4c8996fb92427ae41e4649b934ca495991b7852b855"
  else "8ef76c7a95b45f68f3d2886d91aad7f5c7993b8b5b8c73a41944651962ffddcb"

def publicationEnv : Env := { env with sha := publicationSha }

def intake : Intake := ⟨"/state",fun _ _ => .obj []⟩

def proposal : Proposal := ⟨"p1","T-1",spec,"registry/tasks/T-1.json","T-0",.null,.obj [],none⟩

/-- The table in which an owner holds the state root for the publication until a time. -/
def leasedTo (owner : String) (expiresAt : Int) : String → String → Option Lease := fun _ key =>
  if key = "path:/state" then
    let metadata := .obj (publicationLeaseMetadata proposal)
    some ⟨owner,0,0,expiresAt,sha256Json publicationSha metadata,metadata⟩
  else none

def publishReading : Reading :=
  ⟨.ok (),.ok ⟨"/resources","1","1"⟩,10,11,1,"2026-01-01",.ok ⟨"specs","all"⟩⟩

def publishCall (owner : String) : Actor := .publish ⟨⟨owner,"T-0"⟩,"f1","/resources","/receipt",.begun⟩

theorem begins_publishCall (owner : String) : begins (publishCall owner) := rfl

def unpublished : Shared :=
  ⟨Db.fresh publicationEnv.sha,none,leasedTo "a" 100,fun _ => none,[],[],[]⟩

/-- The first call stops after its write; the second one repeats it under the lease of another owner
and leaves the receipt; the third one finds it. -/
def retried : List (Event Actor Reading) :=
  [.begin 0 (publishCall "a")] ++ (List.replicate 3 0).map (fun id => .advance id publishReading) ++ [.stop 0] ++
    [.begin 1 (.leaseHolder (leasedTo "b" 200)),.advance 1 publishReading,.begin 2 (publishCall "b")] ++
    (List.replicate 8 2).map (fun id => .advance id publishReading) ++ [.begin 3 (publishCall "c")] ++
    (List.replicate 3 3).map fun id => .advance id publishReading

def republished : Interleaving.World Shared Actor :=
  run (Interleaving.World.step (advance publicationEnv contracts intake proposal))
    (Interleaving.World.idle unpublished) retried

end Sample

open Publication in
theorem publication_exactly_once_retried :
    (Sample.republished.shared.writes.map fun w => (w.current.revision,w.binding.ownerId)) = [(1,"a")] ∧
      Sample.republished.shared.accepted.map Prod.fst = [3] ∧
      (∀ written ∈ Sample.republished.shared.writes, written.current.spec = Sample.spec) ∧
      ∀ receipt, (3,receipt) ∈ Sample.republished.shared.accepted →
        sha256Json Sample.publicationEnv.sha (receipt.pop "receipt_sha256") ∈ Sample.republished.shared.commits := by
  have hvalues : (Sample.republished.shared.writes.map fun w => (w.current.revision,w.binding.ownerId)) = [(1,"a")] ∧
      Sample.republished.shared.accepted.map Prod.fst = [3] := by
    decide +kernel
  have hunpublished : Unpublished Sample.unpublished := ⟨rfl,rfl,fun _ hnone => by cases hnone⟩
  have hreach : Reach
      (Interleaving.World.step (advance Sample.publicationEnv Sample.contracts Sample.intake Sample.proposal))
      (admits begins) (Interleaving.World.idle Sample.unpublished) Sample.republished := by
    refine Reach.run fun event hevent _ => ?_
    simp only [Sample.retried,List.mem_append,List.mem_cons,List.mem_map,List.not_mem_nil,or_false] at hevent
    rcases hevent with (((((rfl | ⟨_,_,rfl⟩) | rfl) | rfl | rfl | rfl) | ⟨_,_,rfl⟩) | rfl) | ⟨_,_,rfl⟩ <;>
      first | exact True.intro | exact Sample.begins_publishCall _
  obtain ⟨hvalues,haccepted⟩ := hvalues
  obtain ⟨_,hwritten,hcommitted⟩ := publication_exactly_once .init hunpublished hreach
  exact ⟨hvalues,haccepted,fun written hmem => (hwritten written hmem).1,hcommitted⟩

end Bureau
