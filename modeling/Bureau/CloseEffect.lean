import Bureau.CloseOnce
import Bureau.CurrentTasks
import Bureau.SpecHistory

/-!
What a close does to the effective state of its task. The row it writes is read back by the
overlay, which compares the stored digest with the current TaskSpec and checks the receipt
that the row cites.
-/

namespace Bureau

open Transactions Relation TaskSpecs

variable {task : Task} {baseline orphanEvent revision : ℕ} {steps : List Json} {plan specSha256 taskId : String}
    {claimed evidence value : Json}

section Rebind

variable {E : Env} {K : Contracts} {db : Db} {taskId : String} {orphanEvent : ℕ}

theorem rebindStep_eq_some {before after : CurrentSpec} {document : Json}
    (h : rebindStep E K db taskId orphanEvent before after = some document) :
    after.revision = before.revision+1 ∧ ∃ e ∈ db.events, e.setsRevision taskId after.revision ∧
      orphanEvent < e.eventId ∧ document.get? "event_id" = some (natJson e.eventId) ∧
      document.get? "from_revision" = some (natJson before.revision) ∧
      document.get? "to_revision" = some (natJson after.revision) ∧
      document.get? "from_spec_sha256" = some (.str before.specSha256) ∧
      document.get? "to_spec_sha256" = some (.str after.specSha256) := by
  simp only [rebindStep,Option.bind_eq_bind,Option.bind_eq_some_iff,check_eq_some,Bool.and_eq_true,
    decide_eq_true_eq] at h
  obtain ⟨_,⟨⟨hrevision,_⟩,_⟩,p,_,_,_,h⟩ := h
  split at h
  · rename_i mutation eventId payload hmutations hevents
    simp only [Option.bind_eq_some_iff,check_eq_some,decide_eq_true_eq] at h
    obtain ⟨_,horphan,_,_,_,_,h⟩ := h
    cases h
    have hmem : (eventId,payload) ∈ specEvents db taskId after.revision := by simp [hevents]
    obtain ⟨e,he,rfl,hsets⟩ := setsRevision_of_mem_specEvents hmem
    exact ⟨hrevision,e,he,hsets,horphan,rfl,rfl,rfl,rfl,rfl⟩
  · simp at h

/-- The transitions of consecutive revisions form a chain with increasing events. -/
theorem rebindChain_rebindSteps (hhistory : db.SpecHistory) {before : CurrentSpec}
    {rest : List CurrentSpec} {lastEvent : ℕ}
    (h : rebindSteps E K db taskId orphanEvent before rest = some steps)
    (hlast : ∀ e ∈ db.events, e.setsRevision taskId (before.revision+1) → orphanEvent < e.eventId →
      lastEvent < e.eventId) :
    steps.length = rest.length ∧ rebindChain steps before.revision (.str before.specSha256) lastEvent =
      some (.str (rest.getLast?.getD before).specSha256) := by
  induction rest generalizing before steps lastEvent with
  | nil =>
    cases h
    exact ⟨rfl,rfl⟩
  | cons after rest ih =>
    simp only [rebindSteps,Option.bind_eq_bind,Option.bind_eq_some_iff] at h
    obtain ⟨document,hdocument,others,hothers,h⟩ := h
    cases h
    obtain ⟨hrevision,e,he,hsets,horphan,hevent,hfrom,hto,hfromSha,htoSha⟩ := rebindStep_eq_some hdocument
    have hnext : ∀ e' ∈ db.events, e'.setsRevision taskId (after.revision+1) → orphanEvent < e'.eventId →
        e.eventId < e'.eventId :=
      fun e' he' hsets' _ => hhistory.ordered e he e' he' taskId _ _ hsets hsets' (Nat.lt_succ_self _)
    obtain ⟨hlength,hchain⟩ := ih hothers hnext
    refine ⟨by simp [hlength],?_⟩
    have hbefore : (lastEvent : ℤ) < e.eventId := Int.ofNat_lt.mpr (hlast e he (hrevision ▸ hsets) horphan)
    have hnumber : (after.revision : ℤ) = before.revision+1 := by omega
    rw [rebindChain,hevent,List.getLast?_cons,Option.getD_some]
    simp only [Option.bind_some,natJson,Json.int?,hfrom,hto,hfromSha,htoSha,Option.getD_some,hnumber,hbefore,
      and_self,if_true]
    rw [← hnumber]
    exact hchain

theorem getRevision_eq_ok {spec : CurrentSpec}
    (h : getRevision E.sha db taskId revision = .ok spec) :
    1 ≤ revision ∧ spec.revision = revision ∧ spec.specSha256 = taskSpecDigest E.sha spec.spec := by
  simp only [getRevision,validatedRow,steps_ok,Bool.and_eq_true,decide_eq_true_eq] at h
  obtain ⟨row,_,_,_,_,_,_,hdigest,_,⟨hpos,_⟩,rfl⟩ := h
  exact ⟨hpos,rfl,hdigest.symm⟩

/-- The evidence of a rebind before the run and the plan are added. -/
def rebindEvidence (sha : Sha) (taskId : String) (claimed current : Json) (baseline revision orphanEvent : ℕ)
    (steps : List Json) (specSha256 : String) : Json :=
  .obj [("baseline_revision",natJson baseline),
    ("kind",.str "bureau_historical_repository_rebind_verification"),
    ("orphan_event_id",natJson orphanEvent),
    ("rebind_chain_sha256",.str (sha256Json sha (.arr steps))),("rebind_steps",.arr steps),
    ("schema_version",.num 1),("source_task_sha256",.str (taskRevisionSha256 sha claimed)),
    ("source_task_spec_sha256",.str (TaskSpecs.taskSpecDigest sha claimed)),("task_id",.str taskId),
    ("transition_count",natJson steps.length),("verified_revision",natJson revision),
    ("verified_task_sha256",.str (taskRevisionSha256 sha current)),
    ("verified_task_spec_sha256",.str specSha256)]

theorem repositoryRebindEvolution_eq_some (hhistory : db.SpecHistory)
    (h : repositoryRebindEvolution E K db taskId claimed revision specSha256 orphanEvent = some evidence) :
    ∃ (baseline : ℕ) (current : CurrentSpec) (steps : List Json),
      getCurrent E.sha db taskId = .ok (some current) ∧ 1 ≤ orphanEvent ∧ 1 ≤ baseline ∧
      baseline < revision ∧ steps.length = revision-baseline ∧
      rebindChain steps baseline (.str (taskSpecDigest E.sha claimed)) orphanEvent =
        some (.str specSha256) ∧
      evidence = rebindEvidence E.sha taskId claimed current.spec baseline revision orphanEvent steps specSha256 := by
  simp only [repositoryRebindEvolution,Option.bind_eq_bind,Option.bind_eq_some_iff,check_eq_some,Bool.and_eq_true,
    decide_eq_true_eq] at h
  obtain ⟨_,⟨_,horphan⟩,h⟩ := h
  split at h
  · rename_i baseline hbaseline
    simp only [Option.bind_eq_some_iff,check_eq_some,Bool.and_eq_true,decide_eq_true_eq] at h
    obtain ⟨first,hfirst,current,hcurrent,rest,hrest,_,⟨⟨⟨hclaimed,hnumber⟩,hdigest⟩,hend⟩,steps,hsteps,h⟩ := h
    cases h
    have hlt : baseline < revision := by
      have hmem : baseline ∈ revisionsWithDigest db taskId (taskSpecDigest E.sha claimed) revision := by
        simp [hbaseline]
      simp only [revisionsWithDigest,List.mem_map,List.mem_filter,decide_eq_true_eq] at hmem
      obtain ⟨_,⟨_,_,hlt⟩,rfl⟩ := hmem
      exact hlt
    have hread := toOption_eq_some.mp hrest
    obtain ⟨hpos,hrevision,hfirstSha⟩ := getRevision_eq_ok (toOption_eq_some.mp hfirst)
    have hcurrent : getCurrent E.sha db taskId = .ok (some current) := by
      rw [Option.join_eq_some_iff] at hcurrent
      exact toOption_eq_some.mp hcurrent
    have hlength : rest.length = revision-baseline := by
      rw [← (collect_eq_ok.mp hread).length_eq,List.length_range']
    have hfinal : (rest.getLast?.getD first).specSha256 = specSha256 := by
      obtain ⟨last,hlast,hspec⟩ := Option.map_eq_some_iff.mp hend
      obtain ⟨number,_,hlastRead⟩ := exists_of_mem_collect hread (List.mem_of_getLast? hlast)
      rw [hlast,Option.getD_some,(getRevision_eq_ok hlastRead).2.2,hspec,← hdigest,
        (getCurrent_eq_some hcurrent).2.2.2.1]
    obtain ⟨hsteps,hchain⟩ := rebindChain_rebindSteps hhistory hsteps fun _ _ _ horphan => horphan
    rw [hrevision,hfirstSha,hclaimed,hfinal] at hchain
    exact ⟨baseline,current,steps,hcurrent,horphan,hpos,hlt,hsteps.trans hlength,hchain,rfl⟩
  · simp at h

theorem rebind_hasExactly (sha : Sha) (taskId : String) (claimed current : Json) (baseline revision orphanEvent : ℕ)
    (steps : List Json) (specSha256 runId plan : String) :
    (((rebindEvidence sha taskId claimed current baseline revision orphanEvent steps specSha256).set "run_id"
      (.str runId)).set "plan_sha256" (.str plan)).hasExactly rebindVerificationFields = true := by
  simp only [rebindEvidence,Json.set,Json.hasExactly,decide_eq_true_eq]
  rw [Json.keys_insertField "plan_sha256",Json.keys_insertField "run_id"]
  simp only [List.map_cons,List.map_nil]
  decide +kernel

theorem rebind_get? (runId plan : String) {key : String} (hkey : key ≠ "run_id" ∧ key ≠ "plan_sha256")
    (h : evidence.get? key = some value) :
    ((evidence.set "run_id" (.str runId)).set "plan_sha256" (.str plan)).get? key = some value := by
  rw [Json.get?_set_ne _ _ hkey.2,Json.get?_set_ne _ _ hkey.1,h]

theorem validHistoricalRebindVerification_of_fields {E : Env} {source verified : Json}
    (hexact : value.hasExactly rebindVerificationFields = true)
    (hschema : value.get? "schema_version" = some (.num 1))
    (hkind : value.get? "kind" = some (.str "bureau_historical_repository_rebind_verification"))
    (hbaseline : value.get? "baseline_revision" = some (natJson baseline))
    (hrevision : value.get? "verified_revision" = some (natJson revision))
    (horphan : value.get? "orphan_event_id" = some (natJson orphanEvent))
    (hcount : value.get? "transition_count" = some (natJson steps.length))
    (hsteps : value.get? "rebind_steps" = some (.arr steps))
    (hdigest : value.get? "rebind_chain_sha256" = some (.str (sha256Json E.sha (.arr steps))))
    (hsource : value.get? "source_task_spec_sha256" = some source)
    (hverified : value.get? "verified_task_spec_sha256" = some verified) (hpositive : 1 ≤ orphanEvent ∧ 1 ≤ baseline)
    (hlt : baseline < revision) (hlength : steps.length = revision-baseline)
    (hchain : rebindChain steps baseline source orphanEvent = some verified) :
    validHistoricalRebindVerification E value = true := by
  have hnonempty : steps.isEmpty = false := by
    cases steps with
    | nil => simp at hlength; omega
    | cons _ _ => rfl
  have hdifference : (steps.length : ℤ) = revision-baseline := by omega
  have hbounds : (1 : ℤ) ≤ baseline ∧ (baseline : ℤ) < revision ∧ (1 : ℤ) ≤ orphanEvent := by omega
  unfold validHistoricalRebindVerification
  simp only [hexact,hschema,Json.getStr?,hkind,hbaseline,hrevision,horphan,hcount,hsteps,hdigest,hsource,hverified,
    Option.bind_some,natJson,Json.int?,Json.arr?,Json.str?,Option.getD_some,hchain,hnonempty,hbounds,hdifference,
    decide_true,Bool.and_true,Bool.not_false]

theorem rebindEvidence_valid {current : Json} (runId plan : String) (hpositive : 1 ≤ orphanEvent ∧ 1 ≤ baseline)
    (hlt : baseline < revision) (hlength : steps.length = revision-baseline)
    (hchain : rebindChain steps baseline (.str (taskSpecDigest E.sha claimed)) orphanEvent =
      some (.str specSha256)) :
    validHistoricalRebindVerification E
      (((rebindEvidence E.sha taskId claimed current baseline revision orphanEvent steps specSha256).set "run_id"
        (.str runId)).set "plan_sha256" (.str plan)) = true := by
  refine validHistoricalRebindVerification_of_fields (rebind_hasExactly ..) ?_ ?_ ?_ ?_ ?_ ?_ ?_ ?_ ?_ ?_
    hpositive hlt hlength hchain <;> exact rebind_get? runId plan (by decide) rfl

end Rebind

section Baseline

variable {E : Env} {K : Contracts} {db : Db} {runId : String} {row : RunRow} {revision : CloseRevision}
  {rebind : Option Json}

theorem acceptedBaseline_plan {historical : Bool}
    (h : acceptedBaseline E K db historical runId row revision = .ok rebind) :
    revision.planSha256 = row.planSha256 := by
  by_contra hne
  simp [acceptedBaseline,runStateConflict,hne] at h

/-- A historical close writes out the rebind evidence with its run and its plan. -/
theorem acceptedBaseline_historical (h : acceptedBaseline E K db true runId row revision = .ok rebind) :
    ∃ claimed evidence number specSha256 orphanEvent, taskRevisionSha256 E.sha claimed = row.taskSha256 ∧
      revision.taskId = row.taskId ∧ revision.specRevision = some number ∧ revision.specSha256 = some specSha256 ∧
      repositoryRebindEvolution E K db row.taskId claimed number specSha256 orphanEvent = some evidence ∧
      rebind = some ((evidence.set "run_id" (.str runId)).set "plan_sha256" (.str row.planSha256)) := by
  unfold acceptedBaseline at h
  simp only [runStateConflict,if_true] at h
  split at h
  · simp at h
  · split at h
    · simp at h
    · rename_i evidence hevidence
      split at h
      · simp only [historicalRebind,Option.bind_eq_bind,Option.bind_eq_some_iff,check_eq_some,decide_eq_true_eq,
          Option.filter_eq_some_iff] at hevidence
        obtain ⟨_,_,claimed,_,_,_,_,htask,_,hid,number,hnumber,specSha256,hspec,hevolution⟩ := hevidence
        split at hevolution
        · rename_i orphanEvent _
          exact ⟨claimed,evidence,number,specSha256,orphanEvent,htask,hid,hnumber,hspec,hid ▸ hevolution,
            (Except.ok.inj h).symm⟩
        · simp at hevolution
      · simp at h

theorem closeRevision_eq_ok {files : Registry} (hspecs : db.taskSpecs ≠ ∅)
    (h : closeRevision E files db taskId = .ok revision) :
    ∃ (current : CurrentSpec) (initiativeId : String),
      getCurrent E.sha db taskId = .ok (some current) ∧
      nonEmptyStr? current.spec "initiative" = some initiativeId ∧
      planSha256 E.sha files initiativeId = .ok revision.planSha256 ∧
      revision.taskSha256 = taskRevisionSha256 E.sha current.spec := by
  simp only [closeRevision,bind_eq_ok] at h
  obtain ⟨⟨raw,read⟩,htask,h⟩ := h
  unfold closeTask at htask
  simp only [revisionUnavailable] at htask h
  split at htask
  · simp at htask
  · rename_i current hcurrent
    split at htask
    · cases htask
      split at h
      · simp at h
      · rename_i initiativeId hinitiative
        split at h
        · simp at h
        · rename_i initiative hfound
          cases h
          refine ⟨current,initiativeId,hcurrent,hinitiative,?_,rfl⟩
          simp only [planSha256,steps_ok]
          exact ⟨initiative,hfound,rfl⟩
    · simp at htask
  · rw [if_neg (by simpa using hspecs)] at htask
    simp at htask

end Baseline

section Overlays

variable {E : Env} {registry : Registry} {db : Db}

theorem receiptBinds_total {digest runId : String} {stored : ReceiptRow}
    (hvalid : loadValidatedStoredReceipt E runId stored = .ok stored.receipt) :
    ∃ binds, receiptBinds E task plan digest runId stored = .ok binds := by
  unfold receiptBinds
  rw [hvalid]
  simp only
  split
  · split
    · exact ⟨_,rfl⟩
    · split <;> exact ⟨_,rfl⟩
  · exact ⟨_,rfl⟩

theorem taskStatusReceiptBindsCurrentRevision_total {row : TaskStatusRow} (hvalid : db.ReceiptsValid E) :
    ∃ binds, taskStatusReceiptBindsCurrentRevision E db task plan row = .ok binds := by
  unfold taskStatusReceiptBindsCurrentRevision
  split
  · exact ⟨_,rfl⟩
  · rename_i digest _
    split
    · split
      · exact ⟨_,rfl⟩
      · rename_i runId stored hfound
        have hmem : (runId,stored) ∈ receiptsWithDigest db digest := by simp [hfound]
        have hstored := Std.ExtTreeMap.mem_toList_iff_getElem?_eq_some.mp (List.mem_filter.mp hmem).1
        exact receiptBinds_total (hvalid runId stored hstored)
      · exact ⟨_,rfl⟩
    · exact ⟨_,rfl⟩

theorem overlays_total (hplans : ∀ (id : String) (task : Task), registry.tasks[id]? = some task →
      ∃ plan, planSha256 E.sha registry task.initiative = .ok plan)
    (hvalid : db.ReceiptsValid E) : ∃ overlay, overlays E registry db = .ok overlay := by
  refine Tables.traverse_total fun id task htask => ?_
  unfold overlayOf
  split
  · exact ⟨_,rfl⟩
  · obtain ⟨plan,hplan⟩ := hplans id task htask
    simp only [hplan,bind,Except.bind]
    split
    · exact ⟨_,rfl⟩
    · rename_i row hrow
      split
      · exact ⟨_,rfl⟩
      · split
        · split
          · obtain ⟨binds,hbinds⟩ := taskStatusReceiptBindsCurrentRevision_total hvalid
            rw [hbinds]
            cases binds <;> exact ⟨_,rfl⟩
          · exact ⟨_,rfl⟩
        · exact ⟨_,rfl⟩

end Overlays

section Effect

variable {E : Env} {K : Contracts} {db db' : Db} {call : CloseCall} {runId : String} {result : CloseResult}
  {row : RunRow} {revision : CloseRevision} {rebind : Option Json}

theorem FirstClose.taskStatus (h : FirstClose E K call runId db result db' row revision rebind) :
    db'.taskStatus[row.taskId]? = some ⟨if call.historical then revision.taskSha256 else row.taskSha256,
      row.planSha256,.verified,some (sha256Json E.sha (closeDocument call runId row rebind)),call.now⟩ := by
  obtain ⟨rows,rfl⟩ := Db.event_extends h.written
  exact taskStatus_writeClose_self

theorem get?_signReceipt {key : String} (hkey : key ≠ "receipt_sha256") :
    (signReceipt E.sha (closeDocument call runId row rebind)).get? key =
      (closeDocument call runId row rebind).get? key :=
  Json.get?_set_ne _ _ hkey

theorem receipt_fields :
    (signReceipt E.sha (closeDocument call runId row rebind)).get? "task_id" = some (.str row.taskId) ∧
    (signReceipt E.sha (closeDocument call runId row rebind)).get? "plan_sha256" = some (.str row.planSha256) ∧
    (signReceipt E.sha (closeDocument call runId row rebind)).get? "task_sha256" = some (.str row.taskSha256) := by
  refine ⟨?_,?_,?_⟩ <;> rw [get?_signReceipt (by decide),get?_closeDocument (by decide)] <;>
    simp [receiptFields,Json.get?,Json.field?]

@[simp] theorem receipt_digest : (signReceipt E.sha (closeDocument call runId row rebind)).getStr? "receipt_sha256" =
    some (sha256Json E.sha (closeDocument call runId row rebind)) := by
  have hobj : (closeDocument call runId row rebind).isObj = true := isObj_closeDocument
  cases hdocument : closeDocument call runId row rebind with
  | obj fields => simp [signReceipt,Json.getStr?,Json.str?]
  | _ => simp [hdocument,Json.isObj] at hobj

@[simp] theorem receipt_rebind {transfer : Json} :
    (signReceipt E.sha (closeDocument call runId row (some transfer))).get? "historical_repository_rebind" =
      some transfer := by
  rw [get?_signReceipt (by decide),closeDocument]
  have hobj : (unsignedReceipt call.now runId row (acceptanceCriteria row.envelope) call.evidence).isObj = true := by
    simp only [unsignedReceipt,Json.isObj_map_set]
    rfl
  cases hdocument : unsignedReceipt call.now runId row (acceptanceCriteria row.envelope) call.evidence with
  | obj fields => simp
  | _ => simp [hdocument,Json.isObj] at hobj

/-- The new receipt binds the task it was written for, directly or through the rebind evidence. -/
theorem FirstClose.receiptBinds (h : FirstClose E K call runId db result db' row revision rebind)
    (hid : row.taskId = task.id)
    (hbinds : row.taskSha256 = task.sha256 ∨ ∃ transfer, rebind = some transfer ∧
      validHistoricalRebindVerification E transfer = true ∧ transfer.getStr? "run_id" = some runId ∧
      transfer.getStr? "task_id" = some task.id ∧ transfer.getStr? "plan_sha256" = some row.planSha256 ∧
      transfer.get? "source_task_sha256" = some (.str row.taskSha256) ∧
      transfer.getStr? "verified_task_sha256" = some task.sha256) :
    receiptBinds E task row.planSha256 (sha256Json E.sha (closeDocument call runId row rebind)) runId
      ⟨signReceipt E.sha (closeDocument call runId row rebind),
        sha256Json E.sha (closeDocument call runId row rebind),call.now⟩ = .ok true := by
  obtain ⟨htask,hplan,hsha⟩ := @receipt_fields E call runId row rebind
  unfold Bureau.receiptBinds
  rw [loadValidatedStoredReceipt_signReceipt call.now h.schema]
  simp only [Json.getStr?,htask,hplan,hsha,Option.bind_some,Json.str?,hid]
  have hdigest := @receipt_digest E call runId row rebind
  rw [Json.getStr?] at hdigest
  rw [hdigest,if_pos ⟨trivial,trivial,rfl⟩]
  rcases hbinds with hsame | ⟨transfer,rfl,hvalid,hrun,htransfer,hplanned,hsource,hverified⟩
  · rw [hsame,if_pos rfl]
  · split
    · rfl
    · rw [receipt_rebind]
      simp only [Json.getStr?] at hrun htransfer hplanned hverified
      simp [hvalid,hrun,htransfer,hplanned,hsource,hverified]

theorem FirstClose.receipts_ne (h : FirstClose E K call runId db result db' row revision rebind) {other : String}
    (hne : other ≠ runId) : db'.receipts[other]? = db.receipts[other]? :=
  congrArg RunView.receipt (h.others other hne)

/-- No other receipt of the store has the digest of the new one, as long as the digest tells the
documents apart: the documents name different runs. -/
theorem FirstClose.receiptsWithDigest (h : FirstClose E K call runId db result db' row revision rebind)
    (hvalid : db.ReceiptsValid E)
    (hcollision : ∀ (other : String) (stored : ReceiptRow), db.receipts[other]? = some stored →
      sha256Json E.sha (stored.receipt.pop "receipt_sha256") =
        sha256Json E.sha (closeDocument call runId row rebind) →
      stored.receipt.pop "receipt_sha256" = closeDocument call runId row rebind) :
    receiptsWithDigest db' (sha256Json E.sha (closeDocument call runId row rebind)) =
      [(runId,⟨signReceipt E.sha (closeDocument call runId row rebind),
        sha256Json E.sha (closeDocument call runId row rebind),call.now⟩)] := by
  refine Tables.filter_toList_eq_singleton h.receipts (by simp) ?_
  intro other stored hstored hdigest
  by_contra hne
  rw [h.receipts_ne hne] at hstored
  have hload := hvalid other stored hstored
  simp only [loadValidatedStoredReceipt,steps_ok,Bool.and_eq_true,decide_eq_true_eq] at hload
  obtain ⟨_,_,_,_,_,hrun,_,⟨_,hsha⟩,_⟩ := hload
  have hdocument := hcollision other stored hstored (by rw [← hsha]; simpa using hdigest)
  have hread : (closeDocument call runId row rebind).getStr? "run_id" = some other := by
    rw [← hdocument,Json.getStr?,Json.get?_pop_ne _ (by decide)]
    exact hrun
  rw [Json.getStr?,get?_closeDocument (by decide)] at hread
  simp [receiptFields,Json.get?,Json.field?,Json.str?] at hread
  exact hne hread.symm

/-- A historical close passes the check of the overlay: its evidence names the current revision. -/
theorem FirstClose.rebind_binds (h : FirstClose E K call runId db result db' row revision rebind)
    (hhistory : db.SpecHistory) (hhistorical : call.historical = true) {current : CurrentSpec}
    (hcurrent : getCurrent E.sha db row.taskId = .ok (some current)) (hid : row.taskId = task.id)
    (hsha : task.sha256 = taskRevisionSha256 E.sha current.spec) :
    ∃ transfer, rebind = some transfer ∧
      validHistoricalRebindVerification E transfer = true ∧ transfer.getStr? "run_id" = some runId ∧
      transfer.getStr? "task_id" = some task.id ∧ transfer.getStr? "plan_sha256" = some row.planSha256 ∧
      transfer.get? "source_task_sha256" = some (.str row.taskSha256) ∧
      transfer.getStr? "verified_task_sha256" = some task.sha256 := by
  have hbaseline := h.baseline
  rw [hhistorical] at hbaseline
  obtain ⟨claimed,evidence,number,specSha256,orphanEvent,hclaimed,_,_,_,hevolution,rfl⟩ :=
    acceptedBaseline_historical hbaseline
  obtain ⟨baseline,found,steps,hfound,horphan,hpos,hlt,hlength,hchain,rfl⟩ :=
    repositoryRebindEvolution_eq_some hhistory hevolution
  obtain rfl : found = current := by
    rw [hcurrent] at hfound
    exact (Option.some.inj (Except.ok.inj hfound)).symm
  refine ⟨_,rfl,rebindEvidence_valid runId row.planSha256 ⟨horphan,hpos⟩ hlt hlength hchain,?_,?_,?_,?_,?_⟩
  · rw [Json.getStr?,Json.get?_set_ne _ _ (by decide),rebindEvidence,Json.get?_set_self]
    rfl
  · rw [Json.getStr?,rebind_get? runId row.planSha256 (by decide) rfl,← hid]
    rfl
  · rw [Json.getStr?,rebindEvidence,Json.set,Json.get?_set_self]
    rfl
  · rw [← hclaimed]
    exact rebind_get? runId row.planSha256 (by decide) rfl
  · rw [Json.getStr?,rebind_get? runId row.planSha256 (by decide) rfl,hsha]
    rfl

/-- The overlay over the row of a close: verified where the row has the current digest. -/
theorem FirstClose.overlayOf (h : FirstClose E K call runId db result db' row revision rebind) {registry : Registry}
    (hopen : task.state.terminal = false) (hid : row.taskId = task.id)
    (hplan : planSha256 E.sha registry task.initiative = .ok row.planSha256)
    (hbinds : (if call.historical then revision.taskSha256 else row.taskSha256) = task.sha256 →
      taskStatusReceiptBindsCurrentRevision E db' task row.planSha256 ⟨task.sha256,row.planSha256,.verified,
        some (sha256Json E.sha (closeDocument call runId row rebind)),call.now⟩ = .ok true) :
    Bureau.overlayOf E registry db' task = .ok (some
      (if (if call.historical then revision.taskSha256 else row.taskSha256) = task.sha256 then .verified
      else .stale)) := by
  have hstatus := h.taskStatus
  rw [hid] at hstatus
  unfold Bureau.overlayOf
  have hterminal : TaskState.verified.terminal = true := rfl
  simp only [hopen,Bool.false_eq_true,if_false,hplan,hstatus,bind,Except.bind,hterminal,Bool.not_true,
    and_true,if_true]
  generalize (if call.historical = true then revision.taskSha256 else row.taskSha256) = written at hbinds ⊢
  by_cases hsame : written = task.sha256
  · rw [if_pos hsame,if_pos hsame,hsame,hbinds hsame]
    rfl
  · rw [if_neg hsame,if_neg hsame]
    rfl

/-- After a first close whose registry files are still the ones it read, the open task of the run is
effectively verified exactly if the close was one of a historical orphan, or the run was claimed at
the digest the current TaskSpec has. -/
theorem close_effective_iff {files registry : Registry} {authority : Authority} {revisions : Table RevisionRef}
    {task : Task} {current : TaskSpecs.CurrentSpec} (hreach : Reach (step E K) (fun _ _ => True) (Db.fresh E.sha) db)
    (hclose : completeRun E K call runId db = .ok (result,db')) (hfirst : result.idempotent = false)
    (hfiles : call.before = files)
    (hregistry : authoritativeTaskRegistry E.sha files db' = .ok (registry,authority,revisions))
    (hrow : db.runs[runId]? = some row)
    (hcurrent : TaskSpecs.getCurrent E.sha db row.taskId = .ok (some current))
    (htask : registry.tasks[row.taskId]? = some task)
    (hopen : task.state.terminal = false)
    (hcollision : ∀ (other : String) (stored : ReceiptRow), db.receipts[other]? = some stored →
      sha256Json E.sha (stored.receipt.pop "receipt_sha256") =
        sha256Json E.sha (result.receipt.pop "receipt_sha256") →
      stored.receipt.pop "receipt_sha256" = result.receipt.pop "receipt_sha256") :
    ∃ overlay, overlays E registry db' = .ok overlay ∧
      (effectiveState overlay row.taskId task = .verified ↔
        call.historical = true ∨ row.taskSha256 = taskRevisionSha256 E.sha current.spec) := by
  rcases completeRun_eq_ok hclose with ⟨_,_,_,hidempotent,_⟩ | ⟨found,revision,rebind,hfirst⟩
  · simp [hidempotent] at hfirst
  obtain rfl : found = row := Option.some.inj ((closableRow_eq_ok hfirst.closable).1.symm.trans hrow)
  have hspecs : db.taskSpecs ≠ ∅ := by
    intro hempty
    simp [getCurrent,hempty] at hcurrent
  obtain ⟨read,initiativeId,hread,hinitiative,hplan,hsha⟩ := closeRevision_eq_ok hspecs (hfiles ▸ hfirst.before)
  obtain rfl : read = current := Option.some.inj (Except.ok.inj (hread.symm.trans hcurrent))
  have hmove : Move E.sha ∅ .complete db db' := hfirst.move
  have hsame : db'.specs = db.specs := (hmove.frame_of_ne (by decide)).specs
  have hspecs' : db'.taskSpecs ≠ ∅ := by
    have hpointers : db'.taskSpecs = db.taskSpecs := congrArg Prod.fst hsame
    rwa [hpointers]
  have hview := authoritativeTaskRegistry_currentView hregistry
  have hcurrent' : getCurrent E.sha db' found.taskId = .ok (some read) := by
    rw [getCurrent_congr hsame,hcurrent]
  obtain ⟨listed,htasked,hlisted⟩ := hview.complete found.taskId read hcurrent'
  obtain rfl : listed = task := Option.some.inj (hlisted.symm.trans htask)
  obtain ⟨_,hdigest,hspecId,hspecInitiative,_⟩ := taskFromAuthoritativeSpec_eq_ok htasked
  have hid : found.taskId = listed.id := by
    obtain ⟨_,_,_,_,hcanonical⟩ := getCurrent_eq_some hcurrent
    rw [hspecId,getStr?_of_canonicalSpecId hcanonical,Option.getD_some]
  have hplanned : planSha256 E.sha registry listed.initiative = .ok found.planSha256 := by
    rw [hview.plan,hspecInitiative,(Option.filter_eq_some_iff.mp hinitiative).1,Option.getD_some,hplan,
      acceptedBaseline_plan hfirst.baseline]
  have hrevision : revision.taskSha256 = listed.sha256 := hsha.trans hdigest.symm
  have hcollision' : ∀ (other : String) (stored : ReceiptRow), db.receipts[other]? = some stored →
      sha256Json E.sha (stored.receipt.pop "receipt_sha256") =
        sha256Json E.sha (closeDocument call runId found rebind) →
      stored.receipt.pop "receipt_sha256" = closeDocument call runId found rebind := by
    have hdocument : result.receipt.pop "receipt_sha256" = closeDocument call runId found rebind := by
      rw [hfirst.result]
      exact pop_signReceipt
    rwa [hdocument] at hcollision
  have hbinds : (if call.historical then revision.taskSha256 else found.taskSha256) = listed.sha256 →
      taskStatusReceiptBindsCurrentRevision E db' listed found.planSha256 ⟨listed.sha256,found.planSha256,.verified,
        some (sha256Json E.sha (closeDocument call runId found rebind)),call.now⟩ = .ok true := by
    intro hstored
    unfold taskStatusReceiptBindsCurrentRevision
    simp only
    split
    · rw [hfirst.receiptsWithDigest (receiptsValid_of_reach hreach) hcollision']
      refine hfirst.receiptBinds hid ?_
      cases hhistorical : call.historical with
      | true => exact .inr (hfirst.rebind_binds (specHistory_of_reach hreach) hhistorical hcurrent hid hdigest)
      | false =>
        rw [hhistorical] at hstored
        exact .inl hstored
    · rfl
  have hreach' : Reach (step E K) (fun _ _ => True) (Db.fresh E.sha) db' := by
    have hstep : step E K db (.completeRun call runId) = db' := by
      rw [step,Op.apply,map_snd_eq_ok.mpr ⟨result,hclose⟩,commit_ok]
    exact hstep ▸ .step hreach trivial
  obtain ⟨overlay,hoverlay⟩ := overlays_total (hview.initiatives hspecs') (receiptsValid_of_reach hreach')
  refine ⟨overlay,hoverlay,?_⟩
  have heffective := (overlays_get hoverlay hlisted).symm.trans (hfirst.overlayOf hopen hid hplanned hbinds)
  rw [effectiveState,Except.ok.inj heffective,Option.getD_some,← hdigest]
  cases hhistorical : call.historical with
  | true => simp [hrevision]
  | false =>
    simp only [Bool.false_eq_true,if_false,false_or]
    split <;> simp_all

end Effect

namespace Sample

def claimedSpec : List Op :=
  [.putTaskSpec 1 spec "put-1" none "operator",.registerWorker 2 "worker" "codex" [],
    .claimNext (specDispatcher env.sha files "repo.a" execution spec) ⟨files,observed,3,"RUN-1",.null⟩ "worker" none]

def claimedSpecDb : Db := run (step env contracts) (Db.fresh env.sha) claimedSpec

def closeCall (files : Registry) : CloseCall := ⟨files,files,.obj [],6,false⟩

end Sample

theorem close_effective_iff_unchanged : ∃ result db' registry authority revisions task overlay,
    completeRun Sample.env Sample.contracts (Sample.closeCall Sample.files) "RUN-1" Sample.claimedSpecDb =
        .ok (result,db') ∧
      authoritativeTaskRegistry Sample.env.sha Sample.files db' = .ok (registry,authority,revisions) ∧
      overlays Sample.env registry db' = .ok overlay ∧ effectiveState overlay "T-1" task = .verified := by
  have hreach : Reach (step Sample.env Sample.contracts) (fun _ _ => True) (Db.fresh Sample.env.sha)
      Sample.claimedSpecDb := Reach.run fun _ _ _ => trivial
  have hvalues : ((Sample.claimedSpecDb.runs["RUN-1"]?).any (fun row => row.taskId = "T-1" &&
        row.taskSha256 = taskRevisionSha256 Sample.env.sha Sample.spec) = true ∧
      (completeRun Sample.env Sample.contracts (Sample.closeCall Sample.files) "RUN-1"
        Sample.claimedSpecDb).toOption.any (fun r => !r.1.idempotent &&
          (authoritativeTaskRegistry Sample.env.sha Sample.files r.2).toOption.any fun view =>
            (view.1.tasks["T-1"]?).any fun task => !task.state.terminal) = true) ∧
      getCurrent Sample.env.sha Sample.claimedSpecDb "T-1" = .ok (some
        ⟨"T-1",1,none,taskSpecDigest Sample.env.sha Sample.spec,Sample.spec,"operator"⟩) ∧
      Sample.claimedSpecDb.receipts = ∅ := by
    decide +kernel
  obtain ⟨⟨hrow,hclosed⟩,hcurrent,hreceipts⟩ := hvalues
  simp only [Option.any_eq_true,Bool.and_eq_true,decide_eq_true_eq,Bool.not_eq_true',toOption_eq_some] at hrow hclosed
  obtain ⟨row,hrow,hid,hsha⟩ := hrow
  obtain ⟨⟨result,db'⟩,hclose,hfirst,⟨registry,authority,revisions⟩,hregistry,task,htask,hopen⟩ := hclosed
  obtain ⟨overlay,hoverlay,hiff⟩ := close_effective_iff hreach hclose hfirst rfl hregistry hrow (hid ▸ hcurrent)
    (hid ▸ htask) hopen (by simp [hreceipts])
  exact ⟨result,db',registry,authority,revisions,task,overlay,hclose,hregistry,hoverlay,
    hid ▸ hiff.mpr (.inr hsha)⟩

namespace Sample

def refreshDigest := "e3b0c44298fc1c149afbf4c8996fb92427ae41e4649b934ca495991b7852b855"

def refreshAuthority (consumption binding : List (String × Json)) : Json :=
  .obj (consumption ++ [("forbid_foreign_task_substitution",.bool true),
    ("forbid_historical_target_reuse",.bool true),("mode",.str "single-use-target-bound"),
    ("required_action_class",.str "runtime_mutation"),
    ("required_claim_resource",.str "component.bureau.runtime"),
    ("required_task_state",.arr [.str "ready",.str "active"]),("schema_version",.num 1),
    ("single_use",.bool true),("successor_task_required_after_terminal",.bool true),
    ("target_binding",.str "candidate.target_sha256")] ++ binding)

def refreshExecution : Json := .obj [("policy",.str "autonomous")]

def refreshSpec (consumption binding : List (String × Json)) : Json :=
  .obj [("claims",.arr [.obj [("mode",.str "write"),("resource",.str "component.bureau.runtime")]]),
    ("execution",refreshExecution),("id",.str "T-1"),("initiative",.str "I-1"),
    ("metadata",.obj [("runtime_refresh_authority",refreshAuthority consumption binding)]),("state",.str "ready")]

def bindingReceipt : Json :=
  .obj [("authority_revision",.num 1),("authority_spec_sha256",.str refreshDigest),("bound_at",.str "2026-01-01"),
    ("intent_sha256",.str refreshDigest),("kind",.str "bureau_runtime_refresh_authority_target_binding"),
    ("schema_version",.num 1),("target_sha256",.str refreshDigest),("task_id",.str "T-1")]

def consumptionReceipt : Json :=
  .obj [("authority_revision",.num 1),("authority_spec_sha256",.str refreshDigest),("consumed_at",.str "2026-01-01"),
    ("intent_sha256",.str refreshDigest),("kind",.str "bureau_runtime_refresh_authority_consumption"),
    ("result_sha256",.str refreshDigest),("schema_version",.num 1),("status",.str "consumed"),
    ("target_sha256",.str refreshDigest),("task_id",.str "T-1")]

def bound : List (String × Json) := [("target_binding_receipt",bindingReceipt)]

def consumed : List (String × Json) := [("consumption",consumptionReceipt)]

def refreshEnv : Env := { env with
  sha := fun s =>
    let bytes := s.toByteArray.data.toList
    if bytes[28]? = some 114 then
      if bytes[175]? = some 99 then "8ef76c7a95b45f68f3d2886d91aad7f5c7993b8b5b8c73a41944651962ffddcb"
      else if bytes[547]? = some 125 then refreshDigest
      else "9ef76c7a95b45f68f3d2886d91aad7f5c7993b8b5b8c73a41944651962ffddcb"
    else "0ef76c7a95b45f68f3d2886d91aad7f5c7993b8b5b8c73a41944651962ffddcb" }

def refreshFiles : Registry :=
  { files with
    resources := Std.ExtTreeMap.ofList [("component.bureau.runtime",repository "component.bureau.runtime")]
    tasks := ∅ }

/-- A runtime refresh is put and claimed; the refresh then writes its two receipts into the TaskSpec. -/
def refresh : List Op :=
  [.putTaskSpec 1 (refreshSpec [] []) "put-1" none "operator",.registerWorker 2 "worker" "codex" [],
    .claimNext (specDispatcher refreshEnv.sha refreshFiles "component.bureau.runtime" refreshExecution
      (refreshSpec [] [])) ⟨refreshFiles,observed,3,"RUN-1",.null⟩ "worker" none,
    .putTaskSpec 4 (refreshSpec [] bound) ("runtime-refresh-bind:T-1:" ++ refreshDigest) (some 1)
      "runtime-refresh-authority-target-binding",
    .putTaskSpec 5 (refreshSpec consumed bound) ("runtime-refresh-consume:T-1:" ++ refreshDigest) (some 2)
      "runtime-refresh-authority-consumption"]

def refreshed : Db := run (step refreshEnv contracts) (Db.fresh refreshEnv.sha) refresh

def stateAfterClose : Result (Bool × Option TaskState) := do
  let (result,db) ← completeRun refreshEnv contracts (closeCall refreshFiles) "RUN-1" refreshed
  let (registry,_) ← authoritativeTaskRegistry refreshEnv.sha refreshFiles db
  let overlay ← overlays refreshEnv registry db
  return (result.idempotent,(registry.tasks["T-1"]?).map (effectiveState overlay "T-1"))

end Sample

/-- The close of a runtime refresh leaves its task stale. -/
theorem refresh_close_stale : Sample.stateAfterClose = .ok (false,some .stale) := by
  decide +kernel

end Bureau
