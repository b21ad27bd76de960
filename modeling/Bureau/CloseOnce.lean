import Bureau.RunLifecycle

/-!
A run is closed once. The first close writes its receipt and its completion event, every later
one returns that receipt, and no other transaction touches either.
-/

namespace Bureau

open Transactions Relation

variable {db db' : Db} {runId : String} {K : Contracts} {E : Env} {kind : Kind} {resources : Resources}
    {revision : CloseRevision} {row : RunRow} {stored : ReceiptRow} {sha : Sha} {v v' : RunView}
    {rebind : Option Json}

def EventRow.completes (runId : String) (row : EventRow) : Bool :=
  row.eventType = .runCompleted && row.runId = some runId

def Db.completions (db : Db) (runId : String) : ℕ :=
  db.events.countP (EventRow.completes runId)

@[simp] theorem Db.completions_extend (db : Db) (rows : List EventRow) (runId : String) :
    (db.extend rows).completions runId = db.completions runId + rows.countP (EventRow.completes runId) :=
  List.countP_append

theorem Db.completions_append {rows : List EventRow} (hevents : db'.events = db.events ++ rows)
    (h : ∀ row ∈ rows, row.eventType ≠ .runCompleted) (runId : String) :
    db'.completions runId = db.completions runId := by
  have hrows : rows.countP (EventRow.completes runId) = 0 := by
    rw [List.countP_eq_zero]
    intro row hrow
    simp [EventRow.completes,h row hrow]
  rw [Db.completions,hevents,List.countP_append,hrows,Nat.add_zero,Db.completions]

/-- A run has a completion event exactly when it has a receipt, and then one. -/
def Db.CompletedOnce (db : Db) : Prop :=
  ∀ runId : String, db.completions runId = if (db.receipts[runId]?).isSome then 1 else 0

theorem RunStep.receipt_eq (h : RunStep resources db runId kind v v') (hkind : kind ≠ .complete) :
    v'.receipt = v.receipt := by
  cases h with
  | complete => exact absurd rfl hkind
  | idle | update | finish | claim | resume | expand => rfl

theorem RunStep.receipt_kept (h : RunStep resources db runId kind v v') (hstored : v.receipt = some stored) :
    v'.receipt = some stored := by
  cases h with
  | complete => simp at hstored
  | idle | update | finish | claim | resume | expand => exact hstored

theorem Move.receipts_eq (h : Move sha resources kind db db') (hkind : kind ≠ .complete) (runId : String) :
    db'.receipts[runId]? = db.receipts[runId]? := by
  obtain ⟨changed,hothers,hchanged⟩ := h.views
  by_cases hrun : runId = changed
  · subst hrun
    rcases hchanged with hsame | hstep
    · exact congrArg RunView.receipt hsame
    · exact hstep.receipt_eq hkind
  · exact congrArg RunView.receipt (hothers runId hrun)

theorem Move.completedOnce (h : Move sha resources kind db db') (honce : db.CompletedOnce) : db'.CompletedOnce := by
  intro runId
  by_cases hkind : kind = .complete
  case neg =>
    have hcount : db'.completions runId = db.completions runId := by
      rcases h.frame with hframe | ⟨_,⟨_,_,_,_,rfl,_⟩ | ⟨_,_,_,_,_,rfl,_⟩⟩
      · obtain ⟨rows,hevents,_,hrows⟩ := hframe.grows
        exact Db.completions_append hevents (fun row hrow htype => hkind ((hrows row hrow).2.2.1 htype)) runId
      · simp [Db.completions,TaskSpecs.setRevision,List.countP_append,EventRow.completes]
      · rfl
    rw [hcount,h.receipts_eq hkind]
    exact honce runId
  subst hkind
  cases h with
  | run write taskStatus incomplete => exact absurd rfl incomplete
  | @complete _ mid _ closed row payload write written taskStatus journal =>
    obtain ⟨rows,rfl,hrows⟩ := Db.event_rows journal
    have hne : ∀ row ∈ rows, row.eventType ≠ .runCompleted := by
      intro row hrow
      simp [(hrows row hrow).1]
    have hzero : rows.countP (EventRow.completes runId) = 0 := by
      rw [List.countP_eq_zero]
      intro row hrow
      simp [EventRow.completes,hne row hrow]
    have hmid : mid.completions runId = db.completions runId := by rw [Db.completions,write.events,Db.completions]
    rw [Db.completions_extend,List.countP_cons,hzero,hmid,honce runId]
    by_cases hrun : runId = closed
    · subst hrun
      have hbefore : db.receipts[runId]? = none := by
        have hstep := write.step
        generalize hv : db.view runId = v at hstep
        generalize mid.view runId = v' at hstep
        cases hstep with
        | idle _ quiet => simp at quiet
        | update _ _ quiet => simp at quiet
        | complete => exact congrArg RunView.receipt hv
      have hafter : ((mid.extend (mid.nextRow .runCompleted (.plain payload)
        (some runId) none :: rows)).receipts[runId]?).isSome
          = true := by
        have hstep := write.step
        generalize db.view runId = v at hstep
        generalize hv : mid.view runId = v' at hstep
        cases hstep with
        | idle _ quiet => simp at quiet
        | update _ _ quiet => simp at quiet
        | complete => exact congrArg (fun v => v.receipt.isSome) hv
      rw [hafter,hbefore]
      simp [EventRow.completes,Db.nextRow]
    · have hreceipt : (mid.extend (mid.nextRow .runCompleted (.plain payload)
        (some closed) none :: rows)).receipts[runId]?
          = db.receipts[runId]? := congrArg RunView.receipt (write.others runId hrun)
      rw [hreceipt]
      simp [EventRow.completes,Db.nextRow,Ne.symm hrun]

section Receipt

variable {E : Env} {call : CloseCall} {runId : String} {row : RunRow} {rebind : Option Json}

theorem get?_closeDocument {key : String} (h : key ∉ ["historical_repository_rebind","rlens_context_ref",
    "rlens_context_policy"]) :
    (closeDocument call runId row rebind).get? key =
      (receiptFields call.now runId row (acceptanceCriteria row.envelope) call.evidence).get? key := by
  simp only [List.mem_cons,List.not_mem_nil,or_false,not_or] at h
  simp only [closeDocument,unsignedReceipt,Json.get?_map_set _ _ h.1,Json.get?_map_set _ _ h.2.1,
    Json.get?_map_set _ _ h.2.2]

@[simp] theorem isObj_closeDocument : (closeDocument call runId row rebind).isObj = true := by
  simp only [closeDocument,unsignedReceipt,Json.isObj_map_set]
  rfl

@[simp] theorem pop_signReceipt : (signReceipt E.sha (closeDocument call runId row rebind)).pop "receipt_sha256" =
    closeDocument call runId row rebind := by
  refine Json.pop_set_of_absent _ ?_
  rw [get?_closeDocument (by decide)]
  simp [receiptFields,Json.get?,Json.field?]

/-- The receipt a first close stores is one that the store accepts when it reads it back. -/
theorem loadValidatedStoredReceipt_signReceipt (now : Time)
    (hschema : E.schemaError "receipt" (signReceipt E.sha (closeDocument call runId row rebind)) = none) :
    loadValidatedStoredReceipt E runId ⟨signReceipt E.sha (closeDocument call runId row rebind),
      sha256Json E.sha (closeDocument call runId row rebind),now⟩ =
      .ok (signReceipt E.sha (closeDocument call runId row rebind)) := by
  have hrun : (signReceipt E.sha (closeDocument call runId row rebind)).getStr? "run_id" = some runId := by
    rw [Json.getStr?,signReceipt,Json.get?_set_ne _ _ (by decide),get?_closeDocument (by decide)]
    simp [receiptFields,Json.get?,Json.field?,Json.str?]
  have hdigest : (signReceipt E.sha (closeDocument call runId row rebind)).getStr? "receipt_sha256" =
      some (sha256Json E.sha (closeDocument call runId row rebind)) := by
    have hobj : (closeDocument call runId row rebind).isObj = true := isObj_closeDocument
    rw [Json.getStr?,signReceipt]
    cases hdoc : closeDocument call runId row rebind with
    | obj fields => simp [Json.str?]
    | _ => simp [hdoc,Json.isObj] at hobj
  simp only [loadValidatedStoredReceipt,steps_ok,requireNone_eq_ok,pop_signReceipt,hrun,hdigest]
  exact ⟨(),by simp [signReceipt,isObj_closeDocument],(),hschema,(),by simp,(),by simp,trivial⟩

end Receipt

def Db.ReceiptsValid (E : Env) (db : Db) : Prop :=
  ∀ (runId : String) (stored : ReceiptRow), db.receipts[runId]? = some stored →
    loadValidatedStoredReceipt E runId stored = .ok stored.receipt

theorem apply_receipts_eq {op : Op} (h : op.apply E K db = .ok db') (hkind : op.kind ≠ .complete) (runId : String) :
    db'.receipts[runId]? = db.receipts[runId]? := by
  rcases apply_moves op.planned_self h with hsingle | hplain
  · exact hsingle.receipts_eq hkind runId
  · clear h
    induction hplain with
    | refl => rfl
    | tail _ hroutine ih =>
      obtain ⟨_,hmove,_,_,hcomplete,_⟩ := hroutine.kind_ne
      exact (hmove.receipts_eq hcomplete runId).trans ih

theorem FirstClose.receipts {call : CloseCall} {result : CloseResult}
    (h : FirstClose E K call runId db result db' row revision rebind) :
    db'.receipts[runId]? = some ⟨signReceipt E.sha (closeDocument call runId row rebind),
      sha256Json E.sha (closeDocument call runId row rebind),call.now⟩ := by
  obtain ⟨rows,rfl⟩ := Db.event_extends h.written
  change (writeClose ..).receipts[runId]? = _
  unfold writeClose
  split <;> simp [Db.setRun,Db.deleteReservations]

theorem step_receiptsValid (h : db.ReceiptsValid E) (op : Op) :
    (step E K db op).ReceiptsValid E := by
  refine commit_preserves h fun db' hdb' => ?_
  intro runId stored hstored
  by_cases hkind : op.kind = .complete
  · cases op <;> simp only [Op.kind,reduceCtorEq] at hkind
    case completeRun call closed =>
      obtain ⟨result,hclose⟩ := map_snd_eq_ok.mp hdb'
      rcases completeRun_eq_ok hclose with ⟨_,_,_,_,rfl⟩ | ⟨row,revision,rebind,hfirst⟩
      · exact h runId stored hstored
      · by_cases hrun : runId = closed
        · subst hrun
          obtain rfl := Option.some.inj (hfirst.receipts.symm.trans hstored)
          exact loadValidatedStoredReceipt_signReceipt call.now hfirst.schema
        · have hother := congrArg RunView.receipt (hfirst.others runId hrun)
          exact h runId stored (hother.symm.trans hstored)
  · exact h runId stored ((apply_receipts_eq hdb' hkind runId).symm.trans hstored)

theorem receiptsValid_of_reach (h : Reach (step E K) (fun _ _ => True) (Db.fresh E.sha) db) : db.ReceiptsValid E :=
  h.invariant (fun runId => by simp [Db.fresh]) fun _ op hvalid _ => step_receiptsValid hvalid op

theorem Move.receipts_kept (h : Move sha resources kind db db') (hstored : db.receipts[runId]? = some stored) :
    db'.receipts[runId]? = some stored := by
  obtain ⟨changed,hothers,hchanged⟩ := h.views
  by_cases hrun : runId = changed
  · subst hrun
    rcases hchanged with hsame | hstep
    · exact (congrArg RunView.receipt hsame).trans hstored
    · exact hstep.receipt_kept hstored
  · exact (congrArg RunView.receipt (hothers runId hrun)).trans hstored

theorem receipts_kept_of_reach {admissible : Db → Op → Prop} (h : Reach (step E K) admissible db db')
    (hstored : db.receipts[runId]? = some stored) :
    db'.receipts[runId]? = some stored :=
  h.invariant (P := fun db => db.receipts[runId]? = some stored) hstored fun _ op hkept _ =>
    step_invariant (fun _ _ _ hmove hkept => hmove.receipts_kept hkept) hkept op.planned_self

/-- The baselines of a first close: the claimed task revision, or one of the two evolutions of it. -/
inductive AllowedBaseline (E : Env) (K : Contracts) (db : Db) (runId : String) (row : RunRow)
    (revision : CloseRevision) : Prop
  | unchanged (task : revision.taskSha256 = row.taskSha256)
  | runtimeRefresh {claimed : Json} {number : ℕ} {specSha256 : String}
      (envelope : row.envelope.get? "task" = some claimed) (current : revision.specRevision = some number)
      (digest : revision.specSha256 = some specSha256) (task : taskRevisionSha256 E.sha claimed = row.taskSha256)
      (evolution : runtimeRefreshEvolution E K db revision.taskId claimed number specSha256 = some ())
  | repositoryRebind {claimed evidence : Json} {number orphanEvent : ℕ} {specSha256 : String}
      (envelope : row.envelope.get? "task" = some claimed) (current : revision.specRevision = some number)
      (digest : revision.specSha256 = some specSha256) (task : taskRevisionSha256 E.sha claimed = row.taskSha256)
      (orphaned : orphanEvents db runId = [orphanEvent])
      (evolution : repositoryRebindEvolution E K db revision.taskId claimed number specSha256 orphanEvent =
        some evidence)

theorem historicalRebind_eq_some {evidence : Json}
    (h : historicalRebind E K db revision (row.envelope.get? "task") runId row = some evidence) :
    AllowedBaseline E K db runId row revision := by
  simp only [historicalRebind,Option.bind_eq_bind,Option.bind_eq_some_iff,check_eq_some,decide_eq_true_eq,
    Option.filter_eq_some_iff] at h
  obtain ⟨_,_,claimed,⟨hclaimed,_⟩,_,_,_,htask,_,_,number,hnumber,specSha256,hspec,h⟩ := h
  split at h
  · exact .repositoryRebind hclaimed hnumber hspec htask ‹_› h
  · simp at h

theorem matchesClaimBaseline_eq_true
    (h : matchesClaimBaseline E K db revision (row.envelope.get? "task") row.taskSha256 = true) :
    AllowedBaseline E K db runId row revision := by
  unfold matchesClaimBaseline at h
  split at h
  · split at h
    · rename_i claimed number specSha256 hclaimed hnumber hspec
      simp only [Bool.or_eq_true,Bool.and_eq_true,decide_eq_true_eq] at h
      rcases h with ⟨htask,_⟩ | ⟨hevolution,htask⟩
      · exact .unchanged htask
      · exact .runtimeRefresh (Option.filter_eq_some_iff.mp hclaimed).1 hnumber hspec htask
          (Option.isSome_iff_exists.mp hevolution).choose_spec
    · simp at h
  · exact .unchanged (by simpa using h)

theorem acceptedBaseline_eq_ok {historical : Bool}
    (h : acceptedBaseline E K db historical runId row revision = .ok rebind) :
    revision.planSha256 = row.planSha256 ∧ AllowedBaseline E K db runId row revision := by
  unfold acceptedBaseline at h
  simp only [runStateConflict] at h
  split at h
  · simp at h
  · rename_i hplan
    refine ⟨by simpa using hplan,?_⟩
    split at h
    · split at h
      · simp at h
      · exact historicalRebind_eq_some ‹_›
    · split at h
      · exact matchesClaimBaseline_eq_true ‹_›
      · simp at h

/-- Closing happens once: one receipt and one completion event, later closes repeat the receipt, a
rejected close leaves the store alone, and a first close found an allowed baseline both before and
after its writes. -/
theorem close_once {E : Env} {K : Contracts} {db : Db}
    (h : Reach (step E K) (fun _ _ => True) (Db.fresh E.sha) db) (runId : String) :
    db.completions runId ≤ 1 ∧
    (∀ stored, db.receipts[runId]? = some stored → ∀ db', Reach (step E K) (fun _ _ => True) db db' →
      db'.receipts[runId]? = some stored ∧
      replayCompletion E runId db' = .ok (⟨stored.receipt,true⟩,db') ∧
      ∀ call, completeRun E K call runId db' = .ok (⟨stored.receipt,true⟩,db')) ∧
    (∀ call e, completeRun E K call runId db = .error e → step E K db (.completeRun call runId) = db) ∧
    ∀ call result db', completeRun E K call runId db = .ok (result,db') → result.idempotent = false →
      ∃ row revision, db.runs[runId]? = some row ∧ closeRevision E call.before db row.taskId = .ok revision ∧
        closeRevision E call.after db' row.taskId = .ok revision ∧ revision.planSha256 = row.planSha256 ∧
        AllowedBaseline E K db runId row revision := by
  have honce : db.CompletedOnce := by
    refine h.invariant (fun runId => by simp [Db.completions,Db.fresh,EventRow.completes]) fun _ op honce _ => ?_
    exact step_invariant (fun _ _ _ hmove honce => hmove.completedOnce honce) honce op.planned_self
  have hvalid := receiptsValid_of_reach h
  refine ⟨?_,?_,?_,?_⟩
  · rw [honce runId]
    split <;> omega
  · intro stored hstored db' hreach
    have hkept := receipts_kept_of_reach hreach hstored
    have hload := hvalid runId stored hstored
    refine ⟨hkept,?_,fun call => ?_⟩
    · simp only [replayCompletion,hkept,hload]
      rfl
    · simp only [completeRun,hkept,hload]
      rfl
  · intro call e herror
    simp [step,Op.apply,herror,Except.map]
  · intro call result db' hclose hfirst
    rcases completeRun_eq_ok hclose with ⟨_,_,_,hidempotent,_⟩ | ⟨row,revision,rebind,hclosed⟩
    · simp [hidempotent] at hfirst
    · obtain ⟨hplan,hallowed⟩ := acceptedBaseline_eq_ok hclosed.baseline
      exact ⟨row,revision,(closableRow_eq_ok hclosed.closable).1,hclosed.before,hclosed.after,hplan,hallowed⟩

def Sample.closed : Db :=
  run (step env contracts) (Db.fresh env.sha) (claim ++ [.completeRun ⟨files,files,.obj [],3,false⟩ "RUN-1"])

theorem close_once_closed :
    (Sample.closed.receipts["RUN-1"]?).isSome = true ∧ Sample.closed.completions "RUN-1" ≤ 1 := by
  have hreach : Reach (step Sample.env Sample.contracts) (fun _ _ => True) (Db.fresh Sample.env.sha)
      Sample.closed := Reach.run fun _ _ _ => trivial
  exact ⟨by decide +kernel,(close_once hreach "RUN-1").1⟩

end Bureau
