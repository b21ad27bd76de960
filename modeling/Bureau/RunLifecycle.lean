import Bureau.Operations

/-!
The life of a run. Reservations belong to active runs, receipts to succeeded ones, a run that
ended stays as it is but for two exits of the orphaned state, and what a run was claimed with
never changes.
-/

namespace Bureau

open Transactions Relation

variable {db db' : Db} {resources : Resources} {kind : Kind} {sha : Sha} {runId : String} {row row' : RunRow}
    {v v' : RunView} {K : Contracts} {E : Env} {state : RunState}

theorem Move.views (h : Move sha resources kind db db') :
    ∃ runId, (∀ other, other ≠ runId → db'.view other = db.view other) ∧
      (db'.view runId = db.view runId ∨ RunStep resources db runId kind (db.view runId) (db'.view runId)) := by
  cases h with
  | run write taskStatus incomplete recorded ordinary journal =>
    obtain ⟨rows,rfl⟩ := Db.runEvents_extends journal
    exact ⟨_,write.others,.inr write.step⟩
  | complete write written taskStatus journal =>
    obtain ⟨rows,rfl⟩ := Db.event_extends journal
    exact ⟨_,write.others,.inr write.step⟩
  | issue journal =>
    obtain ⟨rows,rfl⟩ := Db.event_extends journal
    exact ⟨"",fun _ _ => rfl,.inl rfl⟩
  | expand write => exact ⟨_,write.others,.inr write.step⟩
  | initiative journal =>
    obtain ⟨rows,rfl⟩ := Db.event_extends journal
    exact ⟨"",fun _ _ => rfl,.inl rfl⟩
  | task journal =>
    obtain ⟨rows,rfl⟩ := Db.appendTaskProjectionDelta_extends journal
    exact ⟨"",fun _ _ => rfl,.inl rfl⟩
  | spec => exact ⟨"",fun _ _ => rfl,.inl rfl⟩
  | known => exact ⟨"",fun _ _ => rfl,.inl rfl⟩
  | quiet views => exact ⟨"",fun other _ => views other,.inl (views _)⟩
  | normalize => exact ⟨"",fun _ _ => rfl,.inl rfl⟩
  | backfill => exact ⟨"",fun _ _ => rfl,.inl rfl⟩

theorem Move.forall_views {P : RunView → Prop}
    (hstep : ∀ runId v v', RunStep resources db runId kind v v' → P v → P v') (h : Move sha resources kind db db')
    (hviews : ∀ runId, P (db.view runId)) (runId : String) :
    P (db'.view runId) := by
  obtain ⟨changed,hothers,hchanged⟩ := h.views
  by_cases hrun : runId = changed
  · subst hrun
    rcases hchanged with hsame | hrunStep
    · exact hsame ▸ hviews runId
    · exact hstep runId _ _ hrunStep (hviews runId)
  · exact hothers runId hrun ▸ hviews runId

namespace RunView

/-- Only an active run holds reservations, and exactly a succeeded one has a receipt. -/
structure Valid (v : RunView) : Prop where
  released : (∀ row, v.row = some row → row.state.active = false) → v.held = ∅
  receipt : v.receipt.isSome = true ↔ ∃ row, v.row = some row ∧ row.state = .succeeded

theorem Valid.empty : Valid ⟨none,∅,none⟩ :=
  ⟨fun _ => rfl,by simp⟩

end RunView

theorem RunState.active_ne_succeeded (h : state.active = true) : state ≠ .succeeded := by
  rintro rfl
  exact absurd h (by decide)

theorem failureStates_not_active (h : state ∈ failureStates) :
    state.active = false ∧ state ≠ .succeeded := by
  revert h
  cases state <;> decide

theorem RunStep.valid (h : RunStep resources db runId kind v v') (hv : v.Valid) : v'.Valid := by
  cases h with
  | idle => exact hv
  | @update row row' held receipt _ identity state =>
    rcases state with hsame | ⟨hactive,hactive'⟩
    · refine ⟨fun hterminal => hv.released ?_,hv.receipt.trans ?_⟩
      · rintro _ ⟨⟩
        exact hsame ▸ hterminal row' rfl
      · simp [hsame]
    · refine ⟨fun hterminal => ?_,hv.receipt.trans ?_⟩
      · exact absurd (hterminal row' rfl) (by simp [hactive'])
      · simp [RunState.active_ne_succeeded hactive,RunState.active_ne_succeeded hactive']
  | @finish row row' held receipt identity active failure =>
    refine ⟨fun _ => rfl,hv.receipt.trans ?_⟩
    simp [RunState.active_ne_succeeded active,(failureStates_not_active failure).2]
  | @claim row held held' receipt state attempt granted =>
    refine ⟨fun hterminal => ?_,hv.receipt.trans ?_⟩
    · exact absurd (hterminal row rfl) (by simp [state,RunState.active])
    · simp [state]
  | @resume row row' held held' receipt identity orphaned assigned granted =>
    refine ⟨fun hterminal => ?_,hv.receipt.trans ?_⟩
    · exact absurd (hterminal row' rfl) (by simp [assigned,RunState.active])
    · simp [orphaned,assigned]
  | @expand row row' held held' receipt identity active state granted =>
    refine ⟨fun hterminal => ?_,hv.receipt.trans ?_⟩
    · exact absurd (hterminal row' rfl) (by simp [state,active])
    · simp [state]
  | @complete row row' held stored identity state succeeded =>
    exact ⟨fun _ => rfl,by simp [succeeded]⟩

/-- A step keeps what a run was claimed with, or inserts a run with the next attempt of its task. -/
theorem RunStep.rows (h : RunStep resources db runId kind v v') :
    v'.row = v.row ∨
      (∃ row row', v.row = some row ∧ v'.row = some row' ∧ row'.identity = row.identity) ∨
      (v.row = none ∧ ∃ row', v'.row = some row' ∧ row'.attempt = db.nextAttempt row'.taskId) := by
  cases h with
  | idle => exact .inl rfl
  | update identity | finish identity | resume identity | expand identity | complete identity =>
    exact .inr (.inl ⟨_,_,rfl,rfl,identity⟩)
  | claim state attempt => exact .inr (.inr ⟨rfl,_,rfl,attempt⟩)

/-- The table of runs after a move: the same, one row rewritten, or one row more. -/
theorem Move.runs (h : Move sha resources kind db db') :
    db'.runs = db.runs ∨ ∃ runId row', db'.runs = db.runs.insert runId row' ∧
      ((∃ row, db.runs[runId]? = some row ∧ row'.identity = row.identity) ∨
        (db.runs[runId]? = none ∧ row'.attempt = db.nextAttempt row'.taskId)) := by
  obtain ⟨runId,hothers,hchanged⟩ := h.views
  have hother : ∀ k, k ≠ runId → db'.runs[k]? = db.runs[k]? := fun k hk => congrArg RunView.row (hothers k hk)
  have hunchanged (hself : db'.runs[runId]? = db.runs[runId]?) : db'.runs = db.runs := by
    refine Std.ExtTreeMap.ext_getElem? fun {k} => ?_
    by_cases hk : k = runId
    · rw [hk,hself]
    · exact hother k hk
  have hinsert {row' : RunRow} (hself : db'.runs[runId]? = some row') : db'.runs = db.runs.insert runId row' := by
    refine Std.ExtTreeMap.ext_getElem? fun {k} => ?_
    rw [Tables.get_insert]
    split
    · subst k; exact hself
    · exact hother k ‹_›
  rcases hchanged with hsame | hstep
  · exact .inl (hunchanged (congrArg RunView.row hsame))
  · rcases hstep.rows with hsame | ⟨row,row',hrow,hrow',hidentity⟩ | ⟨hrow,row',hrow',hattempt⟩
    · exact .inl (hunchanged hsame)
    · exact .inr ⟨runId,row',hinsert hrow',.inl ⟨row,hrow,hidentity⟩⟩
    · exact .inr ⟨runId,row',hinsert hrow',.inr ⟨hrow,hattempt⟩⟩

structure Db.AttemptsDistinct (db : Db) : Prop where
  bounded : ∀ (runId : String) (row : RunRow), db.runs[runId]? = some row → row.attempt < db.nextAttempt row.taskId
  distinct : ∀ (a b : String) (rowA rowB : RunRow), db.runs[a]? = some rowA → db.runs[b]? = some rowB → a ≠ b →
    rowA.taskId = rowB.taskId → rowA.attempt ≠ rowB.attempt

theorem RunRow.taskId_eq (h : row'.identity = row.identity) : row'.taskId = row.taskId :=
  congrArg RunIdentity.taskId h

theorem RunRow.attempt_eq (h : row'.identity = row.identity) : row'.attempt = row.attempt :=
  congrArg RunIdentity.attempt h

namespace Db.AttemptsDistinct

variable {db db' : Db} {runId : String} {row row' : RunRow}

theorem rewrite (h : db.AttemptsDistinct) (hrow : db.runs[runId]? = some row) (hidentity : row'.identity = row.identity)
    (hruns : db'.runs = db.runs.insert runId row') : db'.AttemptsDistinct := by
  have hbefore : ∀ (k : String) (r : RunRow), db'.runs[k]? = some r → ∃ old : RunRow, db.runs[k]? = some old ∧
    r.taskId = old.taskId ∧
      r.attempt = old.attempt := by
    intro k r hr
    rw [hruns,Tables.get_insert] at hr
    split at hr
    · subst k
      cases hr
      exact ⟨row,hrow,RunRow.taskId_eq hidentity,RunRow.attempt_eq hidentity⟩
    · exact ⟨r,hr,rfl,rfl⟩
  have hnext : ∀ taskId, db'.nextAttempt taskId = db.nextAttempt taskId := by
    intro taskId
    rw [Db.nextAttempt,hruns,Tables.count_insert_same hrow (by rw [RunRow.taskId_eq hidentity]),Db.nextAttempt]
  refine ⟨fun k r hr => ?_,fun a b rowA rowB hA hB hab htask => ?_⟩
  · obtain ⟨old,hold,htask,hattempt⟩ := hbefore k r hr
    rw [hnext,hattempt,htask]
    exact h.bounded k old hold
  · obtain ⟨oldA,holdA,htaskA,hattemptA⟩ := hbefore a rowA hA
    obtain ⟨oldB,holdB,htaskB,hattemptB⟩ := hbefore b rowB hB
    rw [hattemptA,hattemptB]
    exact h.distinct a b oldA oldB holdA holdB hab (htaskA.symm.trans (htask.trans htaskB))

theorem insert (h : db.AttemptsDistinct) (hnew : db.runs[runId]? = none)
    (hattempt : row'.attempt = db.nextAttempt row'.taskId) (hruns : db'.runs = db.runs.insert runId row') :
    db'.AttemptsDistinct := by
  have hnext : ∀ taskId, db'.nextAttempt taskId =
      db.nextAttempt taskId + if row'.taskId = taskId then 1 else 0 := by
    intro taskId
    rw [Db.nextAttempt,hruns,Tables.count_insert_new _ hnew,Db.nextAttempt]
    simp only [decide_eq_true_eq]
    omega
  have hcases : ∀ (k : String) (r : RunRow), db'.runs[k]? = some r → k = runId ∧ r = row' ∨ db.runs[k]? = some r := by
    intro k r hr
    rw [hruns,Tables.get_insert] at hr
    split at hr
    · exact .inl ⟨‹_›,(Option.some.inj hr).symm⟩
    · exact .inr hr
  refine ⟨fun k r hr => ?_,fun a b rowA rowB hA hB hab htask => ?_⟩
  · rw [hnext]
    rcases hcases k r hr with ⟨rfl,rfl⟩ | hold
    · rw [hattempt,if_pos rfl]
      omega
    · have := h.bounded k r hold
      omega
  · rcases hcases a rowA hA with ⟨rfl,rfl⟩ | holdA <;> rcases hcases b rowB hB with ⟨rfl,rfl⟩ | holdB
    · exact absurd rfl hab
    · have := h.bounded b rowB holdB
      rw [hattempt,htask]
      omega
    · have := h.bounded a rowA holdA
      rw [hattempt,← htask]
      omega
    · exact h.distinct a b rowA rowB holdA holdB hab htask

theorem move (h : db.AttemptsDistinct) (hmove : Move sha resources kind db db') : db'.AttemptsDistinct := by
  rcases hmove.runs with hsame | ⟨runId,row',hruns,⟨row,hrow,hidentity⟩ | ⟨hnew,hattempt⟩⟩
  · refine ⟨?_,?_⟩
    · simpa only [Db.nextAttempt,hsame] using h.bounded
    · simpa only [hsame] using h.distinct
  · exact h.rewrite hrow hidentity hruns
  · exact h.insert hnew hattempt hruns

end Db.AttemptsDistinct

structure Db.RunsValid (db : Db) : Prop where
  views : ∀ runId, (db.view runId).Valid
  attempts : db.AttemptsDistinct

theorem Db.RunsValid.fresh (sha : Sha) : (Db.fresh sha).RunsValid where
  views := fun runId => by
    have hview : (Db.fresh sha).view runId = ⟨none,∅,none⟩ := by simp [Db.view,Db.fresh,Db.heldBy]
    exact hview ▸ .empty
  attempts := ⟨by simp [Db.fresh],by simp [Db.fresh]⟩

theorem Db.RunsValid.move (h : db.RunsValid) (hmove : Move sha resources kind db db') : db'.RunsValid :=
  ⟨hmove.forall_views (fun _ _ _ hstep hv => hstep.valid hv) h.views,h.attempts.move hmove⟩

theorem runsValid_of_reach {admissible : Db → Op → Prop} (h : Reach (step E K) admissible (Db.fresh E.sha) db) :
    db.RunsValid :=
  h.invariant (Db.RunsValid.fresh E.sha) fun _ op hvalid _ =>
    step_invariant (fun _ _ _ hmove hvalid => hvalid.move hmove) hvalid op.planned_self

def Db.KeepsRuns (db db' : Db) : Prop :=
  ∀ (runId : String) (row : RunRow), db.runs[runId]? = some row →
    ∃ row' : RunRow, db'.runs[runId]? = some row' ∧ row'.identity = row.identity

theorem Db.KeepsRuns.refl (db : Db) : db.KeepsRuns db :=
  fun _ row h => ⟨row,h,rfl⟩

theorem Db.KeepsRuns.trans {mid : Db} (h : db.KeepsRuns mid) (h' : mid.KeepsRuns db') : db.KeepsRuns db' := by
  intro runId row hrow
  obtain ⟨row',hrow',hidentity⟩ := h runId row hrow
  obtain ⟨row'',hrow'',hidentity'⟩ := h' runId row' hrow'
  exact ⟨row'',hrow'',hidentity'.trans hidentity⟩

theorem Move.keepsRuns (h : Move sha resources kind db db') : db.KeepsRuns db' := by
  intro runId row hrow
  rcases h.runs with hsame | ⟨changed,row',hruns,hcases⟩
  · exact ⟨row,hsame ▸ hrow,rfl⟩
  · by_cases hrun : runId = changed
    · subst hrun
      rcases hcases with ⟨old,hold,hidentity⟩ | ⟨hnew,_⟩
      · obtain rfl := Option.some.inj (hold.symm.trans hrow)
        exact ⟨row',by rw [hruns,Tables.get_insert_self],hidentity⟩
      · simp [hrow] at hnew
    · exact ⟨row,by rw [hruns,Tables.get_insert_ne _ _ hrun,hrow],rfl⟩

theorem keepsRuns_of_reach {admissible : Db → Op → Prop} (h : Reach (step E K) admissible db db') :
    db.KeepsRuns db' := by
  refine h.stable Db.KeepsRuns.refl (fun _ _ _ => .trans) fun start op _ => ?_
  exact step_invariant (fun _ _ _ hmove hkeeps => hkeeps.trans hmove.keepsRuns) (Db.KeepsRuns.refl start)
    op.planned_self

theorem RunStep.ended (h : RunStep resources db runId kind v v') (hrow : v.row = some row)
    (hended : row.state.active = false) (hrow' : v'.row = some row') :
    row'.state = row.state ∨ row.state = .orphaned ∧
      (kind = .resume ∧ row'.state = .assigned ∨ kind = .complete ∧ row'.state = .succeeded) := by
  cases h with
  | idle => exact .inl (by rw [Option.some.inj (hrow.symm.trans hrow')])
  | update identity state =>
    cases hrow; cases hrow'
    rcases state with hsame | ⟨hactive,_⟩
    · exact .inl hsame
    · simp [hended] at hactive
  | finish identity active failure =>
    cases hrow
    simp [hended] at active
  | claim => simp at hrow
  | resume identity orphaned assigned granted =>
    cases hrow; cases hrow'
    exact .inr ⟨orphaned,.inl ⟨rfl,assigned⟩⟩
  | expand identity active state granted =>
    cases hrow
    simp [hended] at active
  | complete identity state succeeded =>
    cases hrow; cases hrow'
    rcases state with hactive | horphaned
    · simp [hended] at hactive
    · exact .inr ⟨horphaned,.inr ⟨rfl,succeeded⟩⟩

theorem Move.ended (h : Move sha resources kind db db') (hrow : db.runs[runId]? = some row)
    (hended : row.state.active = false) (hrow' : db'.runs[runId]? = some row') :
    row'.state = row.state ∨ row.state = .orphaned ∧
      (kind = .resume ∧ row'.state = .assigned ∨ kind = .complete ∧ row'.state = .succeeded) := by
  obtain ⟨changed,hothers,hchanged⟩ := h.views
  have hsame (hview : db'.view runId = db.view runId) : row'.state = row.state := by
    have hrows : db'.runs[runId]? = db.runs[runId]? := congrArg RunView.row hview
    rw [hrow,hrow'] at hrows
    rw [Option.some.inj hrows]
  by_cases hrun : runId = changed
  · subst hrun
    rcases hchanged with hview | hstep
    · exact .inl (hsame hview)
    · exact hstep.ended hrow hended hrow'
  · exact .inl (hsame (hothers runId hrun))

theorem Routine.ended {publishes : Bool} (h : ReflTransGen (Routine sha resources publishes) db db')
    (hrow : db.runs[runId]? = some row) (hended : row.state.active = false) :
    ∃ row', db'.runs[runId]? = some row' ∧ row'.state = row.state := by
  induction h with
  | refl => exact ⟨row,hrow,rfl⟩
  | tail _ hroutine ih =>
    obtain ⟨mid,hmid,hstate⟩ := ih
    obtain ⟨_,hmove,hresume,_,hcomplete,_⟩ := hroutine.kind_ne
    obtain ⟨row',hrow',_⟩ := hmove.keepsRuns runId mid hmid
    rcases hmove.ended hmid (hstate ▸ hended) hrow' with hsame | ⟨_,⟨hkind,_⟩ | ⟨hkind,_⟩⟩
    · exact ⟨row',hrow',hsame.trans hstate⟩
    · exact absurd hkind hresume
    · exact absurd hkind hcomplete

inductive Reopens (runId : String) : Op → RunState → RunState → Prop
  | resume {d : Dispatcher} {call : Dispatcher.CoordinatedCall} {unchanged : Bool}
      {request : Dispatcher.ResumeRequest} (run : request.runId = runId) :
      Reopens runId (.resumeOrphanedRun d call unchanged request) .orphaned .assigned
  | closeout {call : CloseCall} (historical : call.historical = true) :
      Reopens runId (.completeRun call runId) .orphaned .succeeded

theorem step_ended {op : Op} (hrow : db.runs[runId]? = some row) (hended : row.state.active = false)
    (hrow' : (step E K db op).runs[runId]? = some row') :
    row'.state = row.state ∨ Reopens runId op row.state row'.state := by
  cases happly : op.apply E K db with
  | error e =>
    rw [step,happly,commit_error,hrow] at hrow'
    exact .inl (by rw [Option.some.inj hrow'])
  | ok db' =>
    rw [step,happly,commit_ok] at hrow'
    have hunchanged (hview : db'.view runId = db.view runId) : row'.state = row.state := by
      have hrows : db'.runs[runId]? = db.runs[runId]? := congrArg RunView.row hview
      rw [hrow,hrow'] at hrows
      rw [Option.some.inj hrows]
    rcases apply_moves op.planned_self happly with hsingle | hplain
    · rcases hsingle.ended hrow hended hrow' with hsame | ⟨horphaned,⟨hkind,hstate⟩ | ⟨hkind,hstate⟩⟩
      · exact .inl hsame
      · cases op <;> simp only [Op.kind,reduceCtorEq] at hkind
        case resumeOrphanedRun d call unchanged request =>
          by_cases hrun : runId = request.runId
          · rw [horphaned,hstate]
            exact .inr (.resume hrun.symm)
          · exact .inl (hunchanged (Dispatcher.resumeOrphanedRun_others happly runId hrun))
      · cases op <;> simp only [Op.kind,reduceCtorEq] at hkind
        case completeRun call closed =>
          obtain ⟨result,hclose⟩ := map_snd_eq_ok.mp happly
          rcases completeRun_eq_ok hclose with ⟨_,_,_,_,rfl⟩ | ⟨_,_,_,hfirst⟩
          · exact .inl (hunchanged rfl)
          · by_cases hrun : runId = closed
            · subst hrun
              obtain ⟨hfound,⟨_,hactive⟩ | ⟨hhistorical,_⟩⟩ := closableRow_eq_ok hfirst.closable
              · obtain rfl := Option.some.inj (hfound.symm.trans hrow)
                simp [hended] at hactive
              · rw [horphaned,hstate]
                exact .inr (.closeout hhistorical)
            · exact .inl (hunchanged (hfirst.others runId hrun))
    · obtain ⟨last,hlast,hstate⟩ := Routine.ended hplain hrow hended
      obtain rfl := Option.some.inj (hlast.symm.trans hrow')
      exact .inl hstate

/-- The lifecycle of runs in every reachable store. -/
theorem run_lifecycle {E : Env} {K : Contracts} {db : Db}
    (h : Reach (step E K) (fun _ _ => True) (Db.fresh E.sha) db) :
    (∀ (runId resource : String) (hold : Hold), (db.heldBy runId)[resource]? = some hold →
      ∃ row : RunRow, db.runs[runId]? = some row ∧ row.state.active = true) ∧
    (∀ runId : String, (∃ receipt, db.receipts[runId]? = some receipt) ↔
      ∃ row : RunRow, db.runs[runId]? = some row ∧ row.state = .succeeded) ∧
    (∀ (op : Op) (runId : String) (row row' : RunRow), db.runs[runId]? = some row → row.state.active = false →
      (step E K db op).runs[runId]? = some row' → row'.state ≠ row.state →
      Reopens runId op row.state row'.state) ∧
    (∀ db' : Db, Reach (step E K) (fun _ _ => True) db db' →
      ∀ (runId : String) (row : RunRow), db.runs[runId]? = some row →
        ∃ row' : RunRow, db'.runs[runId]? = some row' ∧ row'.identity = row.identity) ∧
    ∀ (a b : String) (rowA rowB : RunRow), db.runs[a]? = some rowA → db.runs[b]? = some rowB → a ≠ b →
      rowA.taskId = rowB.taskId → rowA.attempt ≠ rowB.attempt := by
  have hvalid := runsValid_of_reach h
  refine ⟨?_,?_,?_,?_,hvalid.attempts.distinct⟩
  · intro runId resource hold hheld
    by_contra hnone
    have hempty : db.heldBy runId = ∅ := by
      refine (hvalid.views runId).released fun row hrow => ?_
      by_contra hactive
      exact hnone ⟨row,hrow,by simpa using hactive⟩
    simp [hempty] at hheld
  · intro runId
    exact Option.isSome_iff_exists.symm.trans (hvalid.views runId).receipt
  · intro op runId row row' hrow hended hrow' hne
    exact (step_ended hrow hended hrow').resolve_left hne
  · exact fun db' hreach => keepsRuns_of_reach hreach

theorem run_lifecycle_claimed :
    (Sample.claimed.heldBy "RUN-1").contains "repo.a" = true ∧
      ∀ (runId resource : String) (hold : Hold), (Sample.claimed.heldBy runId)[resource]? = some hold →
        ∃ row : RunRow, Sample.claimed.runs[runId]? = some row ∧ row.state.active = true := by
  have hreach : Reach (step Sample.env Sample.contracts) (fun _ _ => True) (Db.fresh Sample.env.sha)
      Sample.claimed := Reach.run fun _ _ _ => trivial
  exact ⟨by decide +kernel,(run_lifecycle hreach).1⟩

end Bureau
