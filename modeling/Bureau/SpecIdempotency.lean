import Bureau.SpecReplay

/-!
Idempotency keys of TaskSpec mutations. An accepted mutation leaves a receipt under its key, which
no later writer changes, so that the key answers for that one mutation from then on.
-/

namespace Bureau

open Transactions TaskSpecs

namespace TaskSpecs

/-- `get_mutation_receipt`: the receipt with the revision it names. -/
def getMutationReceipt (sha : Sha) (db : Db) (key : String) : Result (Option (TaskSpecMutation × CurrentSpec)) := do
  require (key ≠ "") (.state "TaskSpec idempotency key must be non-empty")
  match db.taskSpecMutations[key]? with
  | none => return none
  | some receipt =>
    require (receipt.taskId ≠ "") (.state "TaskSpec mutation receipt task_id is invalid")
    require (receipt.expectedRevision ≠ some 0) (.state "TaskSpec mutation receipt expected revision is invalid")
    require (1 ≤ receipt.resultingRevision) (.state "TaskSpec mutation receipt resulting revision is invalid")
    require (receipt.requestedSha256 ≠ "") (.state "TaskSpec mutation receipt digest is invalid")
    let result ← getRevision sha db receipt.taskId receipt.resultingRevision
    require (result.specSha256 = receipt.requestedSha256) (.state "TaskSpec mutation receipt digest mismatch")
    return some (receipt,result)

/-- The keys of `seed_missing_registry` and `seed_missing_registry_task`. -/
def seedKey (key : String) : Bool :=
  startsWith key "legacy-seed:" || startsWith key "legacy-seed-exact:"

/-- The keys `put` refuses. -/
def refusedKey (key : String) : Bool :=
  startsWith key noRunCloseoutPrefix || startsWith key unusedAuthorityCloseoutPrefix ||
    startsWith key protectedPublicationActivationPrefix || startsWith key repositoryIdentityRebindPrefix

/-- The keys of the writers that are not public: rebind, closeouts, activation and seeds. -/
def reservedKey (key : String) : Bool :=
  refusedKey key || seedKey key

structure Recorded (sha : Sha) (db : Db) (spec : Json) (key : String) (expected : Option ℕ)
    (current : CurrentSpec) : Prop where
  id : canonicalSpecId spec = .ok current.taskId
  receipt : db.taskSpecMutations[key]? =
    some ⟨current.taskId,expected,taskSpecDigest sha spec,current.revision⟩
  row : ∃ row, db.revision? current.taskId current.revision = some row ∧
    row.toSpec current.taskId current.revision = current
  digest : current.specSha256 = taskSpecDigest sha spec

section Puts

variable {E : Env} {sha : Sha} {now : Time} {db db' : Db} {spec : Json} {key source : String} {expected : Option ℕ}
  {result : PutResult}

theorem putValidatedMaterial_arguments (h : putValidatedMaterial sha now db spec key expected source =
    .ok (result,db')) :
    key ≠ "" ∧ source ≠ "" ∧ expected ≠ some 0 := by
  simp only [putValidatedMaterial,steps_ok,decide_eq_true_eq] at h
  obtain ⟨_,_,_,hkey,_,hsource,_,hexpected,_⟩ := h
  exact ⟨hkey,hsource,hexpected⟩

theorem refusedKey_of_put (h : put E now db spec key expected source = .ok (result,db')) : refusedKey key = false := by
  simp only [put,steps_ok,Bool.not_eq_true'] at h
  obtain ⟨_,_,_,hrun,_,hunused,_,hactivation,_,hrebind,_⟩ := h
  simp [refusedKey,hrun,hunused,hactivation,hrebind]

theorem put_of_known {id : String} (hid : canonicalSpecId spec = .ok id) (hkey : refusedKey key = false)
    (hknown : (db.taskSpecMutations[key]?).isSome = true) :
    put E now db spec key expected source = putValidatedMaterial E.sha now db spec key expected source := by
  simp only [refusedKey,Bool.or_eq_false_iff] at hkey
  obtain ⟨⟨⟨hrun,hunused⟩,hactivation⟩,hrebind⟩ := hkey
  have hcontains : db.taskSpecMutations.contains key = true := by
    rw [Std.ExtTreeMap.contains_eq_isSome_getElem?]
    exact hknown
  simp only [put,hid,hrun,hunused,hactivation,hrebind,hcontains]
  rfl

theorem PutEffect.recorded (h : PutEffect sha now db spec key expected source result db')
    (hledger : db.SpecLedger sha) : Recorded sha db' spec key expected result.current := by
  cases h with
  | @replay taskId receipt _ id known read =>
    simp only [replayMutation,steps_ok,Bool.and_eq_true,decide_eq_true_eq] at read
    obtain ⟨_,⟨⟨rfl,rfl⟩,hdigest⟩,_,_,_,_,current,hcurrent,_,hsame,rfl⟩ := read
    obtain ⟨row,hrow,_⟩ := hledger.receipts key receipt known
    obtain rfl : row.toSpec receipt.taskId receipt.resultingRevision = current :=
      Except.ok.inj ((hledger.getRevision_eq _ _ hrow).symm.trans hcurrent)
    refine ⟨id,?_,⟨row,hrow,rfl⟩,hsame⟩
    rw [known,← hdigest]
    rfl
  | @known taskId current id write read digest =>
    have htask : current.taskId = taskId := (getCurrent_eq_some read).1
    subst htask
    have hread := hledger.getCurrent_eq current.taskId
    rw [read,Except.ok.injEq] at hread
    obtain ⟨row,hrow,hcurrent⟩ := Option.map_eq_some_iff.mp hread.symm
    have hrevision : db.currentRevision current.taskId = current.revision := by rw [← hcurrent]; rfl
    rw [hrevision] at hrow hcurrent
    refine ⟨id,?_,⟨row,hrow,hcurrent⟩,digest⟩
    rw [← digest]
    exact Tables.get_insert_self ..
  | @set next document origin successor write =>
    subst document
    have hrow : (setRevision now db next key expected).revision? next.taskId next.revision =
        some ⟨next.parentRevision,next.specSha256,next.spec,next.source,now⟩ := by
      rw [Db.revision?_setRevision,if_pos ⟨rfl,rfl⟩]
    refine ⟨successor.id,?_,⟨_,hrow,rfl⟩,successor.digest⟩
    rw [← successor.digest]
    exact Tables.get_insert_self ..

end Puts

namespace Recorded

variable {sha : Sha} {db db' : Db} {spec : Json} {key : String} {expected : Option ℕ} {current : CurrentSpec}

theorem key_ne (h : Recorded sha db spec key expected current) {other : String}
    (hunused : db.taskSpecMutations[other]? = none) : key ≠ other := by
  rintro rfl
  rw [h.receipt] at hunused
  cases hunused

theorem effect (h : Recorded sha db spec key expected current) (heffect : SpecEffect sha db db')
    (hledger : db.SpecLedger sha) : Recorded sha db' spec key expected current := by
  obtain ⟨row,hrow,hcurrent⟩ := h.row
  refine ⟨h.id,?_,⟨row,heffect.revision?_kept hledger hrow,hcurrent⟩,h.digest⟩
  rw [heffect.mutation_kept (by simp [h.receipt])]
  exact h.receipt

theorem replay (h : Recorded sha db spec key expected current) (hledger : db.SpecLedger sha) (hkey : key ≠ "")
    {source : String} (hsource : source ≠ "") (hexpected : expected ≠ some 0) (now : Time) :
    putValidatedMaterial sha now db spec key expected source = .ok (⟨current,true,false⟩,db) := by
  obtain ⟨row,hrow,hcurrent⟩ := h.row
  have hstored := (hledger.stored current.taskId current.revision).mp (by simp [hrow])
  -- the pointer has not gone back behind the recorded revision
  obtain ⟨last,hlast⟩ := Option.isSome_iff_exists.mp
    ((hledger.stored current.taskId (db.currentRevision current.taskId)).mpr ⟨hstored.1.trans hstored.2,le_rfl⟩)
  have hread := hledger.getCurrent_eq current.taskId
  rw [hlast] at hread
  have hreplay : replayMutation sha db current.taskId (taskSpecDigest sha spec) expected
      ⟨current.taskId,expected,taskSpecDigest sha spec,current.revision⟩ = .ok ⟨current,true,false⟩ := by
    simp only [replayMutation,steps_ok]
    exact ⟨(),by simp,_,hread,(),decide_eq_true hstored.2,_,hledger.getRevision_eq _ _ hrow,(),
      decide_eq_true (hcurrent.symm ▸ h.digest),by rw [hcurrent]⟩
  simp only [putValidatedMaterial,h.id,h.receipt,steps_ok,decide_eq_true_eq]
  exact ⟨_,rfl,(),hkey,(),hsource,(),hexpected,_,hreplay,rfl⟩

theorem getMutationReceipt (h : Recorded sha db spec key expected current) (hledger : db.SpecLedger sha)
    (hkey : key ≠ "") (hexpected : expected ≠ some 0) (hdigest : taskSpecDigest sha spec ≠ "") :
    TaskSpecs.getMutationReceipt sha db key =
      .ok (some (⟨current.taskId,expected,taskSpecDigest sha spec,current.revision⟩,current)) := by
  obtain ⟨row,hrow,hcurrent⟩ := h.row
  have hstored := (hledger.stored current.taskId current.revision).mp (by simp [hrow])
  have hread := hledger.getRevision_eq _ _ hrow
  rw [hcurrent] at hread
  simp only [TaskSpecs.getMutationReceipt,h.receipt,steps_ok,decide_eq_true_eq]
  exact ⟨(),hkey,(),canonicalSpecId_ne_empty h.id,(),hexpected,(),hstored.1,(),hdigest,current,hread,(),h.digest,rfl⟩

theorem bound (h : Recorded sha db spec key expected current) {now : Time} {spec' : Json} {expected' : Option ℕ}
    {source : String} {result : PutResult}
    (hput : putValidatedMaterial sha now db spec' key expected' source = .ok (result,db')) :
    taskSpecDigest sha spec' = taskSpecDigest sha spec ∧ expected' = expected := by
  cases putValidatedMaterial_effect hput with
  | replay id known read =>
    rw [h.receipt] at known
    cases known
    simp only [replayMutation,steps_ok,Bool.and_eq_true,decide_eq_true_eq] at read
    obtain ⟨_,⟨⟨_,hexpected⟩,hdigest⟩,_⟩ := read
    exact ⟨hdigest.symm,hexpected.symm⟩
  | known id write => exact absurd rfl (h.key_ne write.unused)
  | set document origin successor write => exact absurd rfl (h.key_ne write.unused)

theorem of_reach {E : Env} {K : Contracts} {later : Db} (h : Recorded E.sha db spec key expected current)
    (hledger : db.SpecLedger E.sha) (hreach : Reach (Writer.step E K) (fun _ _ => True) db later) :
    Recorded E.sha later spec key expected current ∧ later.SpecLedger E.sha :=
  Writer.reach_invariant
    (P := fun db => Recorded E.sha db spec key expected current ∧ db.SpecLedger E.sha)
    (fun _ _ heffect hboth => ⟨hboth.1.effect heffect hboth.2,hboth.2.effect heffect⟩) ⟨h,hledger⟩ hreach

end Recorded

end TaskSpecs

theorem TaskSpecs.PutEffect.mutations {sha : Sha} {now : Time} {db db' : Db} {spec : Json} {key source : String}
    {expected : Option ℕ} {result : PutResult}
    (h : PutEffect sha now db spec key expected source result db') {other : String} (hother : other ≠ key) :
    db'.taskSpecMutations[other]? = db.taskSpecMutations[other]? := by
  cases h with
  | replay => rfl
  | known | set => exact Tables.get_insert_ne _ _ hother

/-- A public put over every run of the writers. Its repetition returns the revision of the first call
and writes nothing, whatever was accepted in between, and its key is refused for another document or
another expected revision (so for another task, which the document names). The receipts it creates
are outside the reserved namespaces just if its key is not one of a seed, or has a receipt already:
the seeds are the writers whose namespaces `put` does not refuse. -/
theorem put_idempotent_iff {E : Env} {K : Contracts} {db after : Db} {now : Time} {spec : Json} {key source : String}
    {expected : Option ℕ} {first : TaskSpecs.PutResult}
    (h : Reach (Writer.step E K) (fun _ _ => True) (Db.fresh E.sha) db)
    (hput : TaskSpecs.put E now db spec key expected source = .ok (first,after)) :
    (∀ later, Reach (Writer.step E K) (fun _ _ => True) after later →
      (∀ now', TaskSpecs.put E now' later spec key expected source = .ok (⟨first.current,true,false⟩,later)) ∧
      (TaskSpecs.taskSpecDigest E.sha spec ≠ "" → TaskSpecs.getMutationReceipt E.sha later key = .ok (some
        (⟨first.current.taskId,expected,TaskSpecs.taskSpecDigest E.sha spec,first.current.revision⟩,first.current))) ∧
      ∀ (now' : Time) (spec' : Json) (expected' : Option ℕ) (source' : String),
        (TaskSpecs.taskSpecDigest E.sha spec' = TaskSpecs.taskSpecDigest E.sha spec → spec' = spec) →
        spec' ≠ spec ∨ expected' ≠ expected →
        (∃ e, TaskSpecs.put E now' later spec' key expected' source' = .error e) ∧
          Writer.step E K later (.operate (.putTaskSpec now' spec' key expected' source')) = later) ∧
    ((∀ other : String, db.taskSpecMutations[other]? = none → (after.taskSpecMutations[other]?).isSome = true →
        TaskSpecs.reservedKey other = false) ↔
      (db.taskSpecMutations[key]?).isSome = true ∨ TaskSpecs.seedKey key = false) := by
  obtain ⟨hledger,_⟩ := Writer.specLedger_of_reach h
  have hmaterial := put_eq_ok hput
  have heffect := putValidatedMaterial_effect hmaterial
  have hrecorded := heffect.recorded hledger
  have hrefused := refusedKey_of_put hput
  obtain ⟨hkey,hsource,hexpected⟩ := putValidatedMaterial_arguments hmaterial
  constructor
  · intro later hreach
    obtain ⟨hlater,hlast⟩ := hrecorded.of_reach (hledger.effect heffect.specEffect) hreach
    have hknown : (later.taskSpecMutations[key]?).isSome = true := by simp [hlater.receipt]
    refine ⟨fun now' => ?_,fun hdigest => hlater.getMutationReceipt hlast hkey hexpected hdigest,?_⟩
    · rw [put_of_known hlater.id hrefused hknown]
      exact hlater.replay hlast hkey hsource hexpected now'
    · intro now' spec' expected' source' hcollision hdiffers
      have herror : ∃ e, TaskSpecs.put E now' later spec' key expected' source' = .error e := by
        cases hsecond : TaskSpecs.put E now' later spec' key expected' source' with
        | error e => exact ⟨e,rfl⟩
        | ok outcome =>
          obtain ⟨hdigest,hsame⟩ := hlater.bound (put_eq_ok hsecond)
          exact (hdiffers.elim (fun hspec => hspec (hcollision hdigest)) fun hne => hne hsame).elim
      obtain ⟨e,he⟩ := herror
      refine ⟨⟨e,he⟩,?_⟩
      rw [Writer.step,Writer.apply,Op.apply,he]
      rfl
  · constructor
    · intro hproperty
      by_cases hknown : (db.taskSpecMutations[key]?).isSome = true
      · exact .inl hknown
      · have hreserved := hproperty key (by simpa using hknown) (by simp [hrecorded.receipt])
        rw [reservedKey,Bool.or_eq_false_iff] at hreserved
        exact .inr hreserved.2
    · intro hcondition other hnone hsome
      have hother : other = key := by
        by_contra hne
        rw [heffect.mutations hne,hnone] at hsome
        cases hsome
      subst hother
      rw [hnone] at hcondition
      have hseed : seedKey other = false := by simpa using hcondition
      rw [reservedKey,hrefused,hseed]
      rfl

namespace Sample

/-- The key `seed_missing_registry_task` writes for the task. -/
def seedReceiptKey : String := "legacy-seed-exact:T-1:" ++ TaskSpecs.taskSpecDigest env.sha spec

end Sample

/-- A public put writes the receipt of the exact seed, which is what the seed itself would have
written. -/
theorem put_creates_seed_receipt :
    TaskSpecs.put Sample.env 1 (Db.fresh Sample.env.sha) Sample.spec Sample.seedReceiptKey none
      "legacy-git-exact-seed" =
        TaskSpecs.seedMissingRegistryTask Sample.env.sha 1 Sample.files "T-1" (Db.fresh Sample.env.sha) ∧
      ∃ first after, TaskSpecs.put Sample.env 1 (Db.fresh Sample.env.sha) Sample.spec Sample.seedReceiptKey none
          "legacy-git-exact-seed" = .ok (first,after) ∧
        (Db.fresh Sample.env.sha).taskSpecMutations[Sample.seedReceiptKey]? = none ∧
        (after.taskSpecMutations[Sample.seedReceiptKey]?).isSome = true ∧
        TaskSpecs.reservedKey Sample.seedReceiptKey = true := by
  have hseed : TaskSpecs.put Sample.env 1 (Db.fresh Sample.env.sha) Sample.spec Sample.seedReceiptKey none
      "legacy-git-exact-seed" =
        seedMissingRegistryTask Sample.env.sha 1 Sample.files "T-1" (Db.fresh Sample.env.sha) := by
    decide +kernel
  have hcreated : ((TaskSpecs.put Sample.env 1 (Db.fresh Sample.env.sha) Sample.spec Sample.seedReceiptKey none
      "legacy-git-exact-seed").toOption.any fun r => (r.2.taskSpecMutations[Sample.seedReceiptKey]?).isSome) =
        true := by
    decide +kernel
  simp only [Option.any_eq_true,toOption_eq_some] at hcreated
  obtain ⟨⟨first,after⟩,hput,hreceipt⟩ := hcreated
  exact ⟨hseed,first,after,hput,by decide +kernel,hreceipt,by decide +kernel⟩

theorem put_idempotent_iff_revised : ∃ first after,
    TaskSpecs.put Sample.env 2 Sample.seededDb Sample.revisedSpec "put-1" (some 1) "operator" = .ok (first,after) ∧
      first.current.revision = 2 ∧
      TaskSpecs.put Sample.env 3 after Sample.revisedSpec "put-1" (some 1) "operator" =
        .ok (⟨first.current,true,false⟩,after) ∧
      (∃ e, TaskSpecs.put Sample.env 3 after Sample.revisedSpec "put-1" (some 2) "operator" = .error e) ∧
      ∀ other : String, Sample.seededDb.taskSpecMutations[other]? = none →
        (after.taskSpecMutations[other]?).isSome = true → TaskSpecs.reservedKey other = false := by
  have hwon : ((TaskSpecs.put Sample.env 2 Sample.seededDb Sample.revisedSpec "put-1" (some 1)
      "operator").toOption.any fun r => r.1.current.revision = 2) = true := by decide +kernel
  simp only [Option.any_eq_true,toOption_eq_some,decide_eq_true_eq] at hwon
  obtain ⟨⟨first,after⟩,hput,hrevision⟩ := hwon
  have hseeded : Reach (Writer.step Sample.env Sample.contracts) (fun _ _ => True) (Db.fresh Sample.env.sha)
      Sample.seededDb := .step .init trivial
  obtain ⟨hlater,hkeys⟩ := put_idempotent_iff hseeded hput
  obtain ⟨hrepeat,_,hbound⟩ := hlater after .init
  refine ⟨first,after,hput,hrevision,hrepeat 3,?_,hkeys.mpr (.inr (by decide +kernel))⟩
  exact (hbound 3 Sample.revisedSpec (some 2) "operator" (fun _ => rfl) (.inr (by decide))).1

end Bureau
