import Bureau.CloseOnce
import Bureau.RebindAtomic

/-!
What the writers of the store have recorded stays: the journal, the revisions of TaskSpecs, the receipts of
runs, and of the receipts of mutations all but the activation evidence, which `TaskSpecMutation` leaves out.
-/

namespace Bureau

open Transactions RepositoryRebind

structure Db.Retains (db later : Db) : Prop where
  events : db.events <+: later.events
  revisions : ∀ id r row, db.revision? id r = some row → later.revision? id r = some row
  mutations : ∀ (key : String) mutation, db.taskSpecMutations[key]? = some mutation →
    later.taskSpecMutations[key]? = some mutation
  receipts : ∀ (runId : String) receipt, db.receipts[runId]? = some receipt → later.receipts[runId]? = some receipt

variable {R : Rules} {E : Env} {K : Contracts} {start db later : Db}

theorem Db.Retains.trans {mid : Db} (h : db.Retains mid) (h' : mid.Retains later) : db.Retains later :=
  ⟨h.events.trans h'.events,fun _ _ _ hrow => h'.revisions _ _ _ (h.revisions _ _ _ hrow),
    fun _ _ hknown => h'.mutations _ _ (h.mutations _ _ hknown),
      fun _ _ hstored => h'.receipts _ _ (h.receipts _ _ hstored)⟩

theorem Move.retains {sha : Sha} {resources : Resources} {kind : Kind} (h : Move sha resources kind db later)
    (hledger : db.SpecLedger sha) : db.Retains later where
  events := by
    rcases h.frame with hframe | ⟨_,⟨_,_,_,_,rfl,_⟩ | ⟨_,_,_,_,_,rfl,_⟩⟩
    · obtain ⟨rows,hevents,_⟩ := hframe.grows
      exact ⟨rows,hevents.symm⟩
    · exact List.prefix_append _ _
    · exact List.prefix_rfl
  revisions _ _ _ hrow := h.specEffect.revision?_kept hledger hrow
  mutations _ _ hknown := (h.specEffect.mutation_kept (by simp [hknown])).trans hknown
  receipts _ _ hstored := h.receipts_kept hstored

/-- However the operations, the TaskSpec writers and the rebinds are interleaved, nothing that is recorded is
rewritten or lost. -/
theorem records_retained (hstart : Reach (Action.step R E K) (fun _ _ => True) (Db.fresh E.sha) start)
    (h : Reach (Action.step R E K) (fun _ _ => True) start later) : start.Retains later := by
  have hfirst : start.Retains start := ⟨List.prefix_rfl,fun _ _ _ h => h,fun _ _ h => h,fun _ _ h => h⟩
  refine (Reach.invariant (P := fun db => db.SpecLedger E.sha ∧ start.Retains db)
    ⟨Action.specLedger_of_reach hstart,hfirst⟩ (fun _ op hholds _ => ?_) (Action.reach_operations h)).2
  apply step_invariant (P := fun db => db.SpecLedger E.sha ∧ start.Retains db) _ hholds op.planned_self
  intro _ _ _ hmove hholds
  exact ⟨hholds.1.effect hmove.specEffect,hholds.2.trans (hmove.retains hholds.1)⟩

theorem records_retained_rebind : Sample.boundDb.Retains
    (Action.step Sample.rebindRules Sample.rebindEnv Sample.contracts Sample.boundDb (.applyPlan Sample.rebindCall)) :=
  records_retained (.step .init trivial) (.step .init trivial)

end Bureau
