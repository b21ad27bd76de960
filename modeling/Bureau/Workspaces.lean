import Bureau.CoordinatedClaims

/-!
Workspaces. A cleanup reads that its run has ended, then looks at the worktree, removes it and marks
the workspace row, each in a step of its own; a resumption looks at the worktree while its transaction
is open. Both interleave with every transaction of the store.
-/

namespace Bureau

open Transactions Relation

variable {db db' : Db} {runId : String} {resources : Resources} {kind : Kind} {sha : Sha} {E : Env}

theorem Move.workspaces_eq (h : Move sha resources kind db db') (hkind : kind ≠ .workspace) :
    db'.workspaces = db.workspaces := by
  rcases h.frame with hframe | ⟨_,⟨_,_,_,_,rfl,_⟩ | ⟨_,_,_,_,_,rfl,_⟩⟩
  · exact hframe.workspaces hkind
  · rfl
  · rfl

namespace Db

variable {sha : Sha} {db db' : Db} {now : Time} {runId : String}

/-- The transaction of `create_workspace`; whether the run has a workspace was read before it. -/
def recordWorkspace (sha : Sha) (db : Db) (now : Time) (runId : String) (tree : Worktree) : Result Db := do
  let row ← orRaise db.runs[runId]? (.state ("unknown run " ++ runId))
  let db := db.setRun runId { row with
    workspacePath := some tree.path
    workspaceBranch := some tree.branch
    updatedAt := now }
  let kept := db.workspaces[runId]?
  let db := db.setWorkspace runId
    ⟨(kept.map (·.repositoryPath)).getD tree.repository,tree.path,tree.branch,tree.baseline,"active",
      (kept.map (·.createdAt)).getD now,now,kept.bind (·.detail)⟩
  db.runEvent sha .workspaceCreated (.obj [("path",.str tree.path)]) runId

theorem createWorkspace_eq_ok {tree : Worktree} (h : db.createWorkspace sha now runId tree = .ok db') :
    db' = db ∨ db.recordWorkspace sha now runId tree = .ok db' := by
  simp only [createWorkspace,steps_ok,ite_eq_ok] at h
  obtain ⟨row,hrow,⟨_,rfl⟩ | ⟨_,hevent⟩⟩ := h
  · exact .inl rfl
  · refine .inr ?_
    simp only [recordWorkspace,steps_ok]
    exact ⟨row,hrow,hevent⟩

def workspaceState (db : Db) (runId : String) : Option String :=
  (db.workspaces[runId]?).map (·.state)

def Ended (db : Db) (runId : String) : Prop :=
  ∃ row, db.runs[runId]? = some row ∧ row.state.active = false

def Running (db : Db) (runId : String) : Prop :=
  ∃ row, db.runs[runId]? = some row ∧ row.state.active = true

theorem Ended.not_running (h : db.Ended runId) : ¬ db.Running runId := by
  rintro ⟨row,hrow,hactive⟩
  obtain ⟨found,hfound,hended⟩ := h
  obtain rfl := Option.some.inj (hfound.symm.trans hrow)
  simp [hended] at hactive

theorem workspaceState_of_eq (h : db'.workspaces = db.workspaces) (other : String) :
    db'.workspaceState other = db.workspaceState other := by
  rw [workspaceState,h,workspaceState]

theorem workspaceState_of_insert {row : WorkspaceRow} (h : db'.workspaces = db.workspaces.insert runId row)
    (other : String) :
    db'.workspaceState other = if other = runId then some row.state else db.workspaceState other := by
  rw [workspaceState,h,Tables.get_insert]
  split <;> rfl

/-- What a transaction other than the last one of a cleanup does to the workspace rows: none of them
becomes a removed one, none is lost, and a new one belongs to a run. -/
structure KeepsWorkspaces (db db' : Db) : Prop where
  removed : ∀ runId : String, db'.workspaceState runId = some "removed" → db.workspaceState runId = some "removed"
  kept : ∀ runId : String, db.workspaceState runId ≠ none → db'.workspaceState runId ≠ none
  owned : ∀ runId : String, db'.workspaceState runId ≠ none →
    db.workspaceState runId ≠ none ∨ db.runs[runId]? ≠ none

theorem KeepsWorkspaces.of_eq (h : db'.workspaces = db.workspaces) : db.KeepsWorkspaces db' := by
  have hstate := workspaceState_of_eq h
  exact ⟨fun _ hrow => hstate _ ▸ hrow,fun _ hrow => hstate _ ▸ hrow,fun _ hrow => .inl (hstate _ ▸ hrow)⟩

theorem KeepsWorkspaces.of_insert {row : WorkspaceRow} (h : db'.workspaces = db.workspaces.insert runId row)
    (hremoved : row.state ≠ "removed") (howned : db.workspaceState runId ≠ none ∨ db.runs[runId]? ≠ none) :
    db.KeepsWorkspaces db' := by
  have hstate := workspaceState_of_insert h
  refine ⟨fun other hrow => ?_,fun other hrow => ?_,fun other hrow => ?_⟩
  · rw [hstate] at hrow
    split at hrow
    · exact absurd (Option.some.inj hrow) hremoved
    · exact hrow
  · rw [hstate]
    split
    · simp
    · exact hrow
  · by_cases hother : other = runId
    · exact hother ▸ howned
    · rw [hstate,if_neg hother] at hrow
      exact .inl hrow

theorem KeepsWorkspaces.refl (db : Db) : db.KeepsWorkspaces db :=
  .of_eq rfl

theorem recordWorkspace_keeps {tree : Worktree} (h : db.recordWorkspace sha now runId tree = .ok db') :
    db.KeepsWorkspaces db' := by
  simp only [recordWorkspace,steps_ok] at h
  obtain ⟨row,hrow,hevent⟩ := h
  obtain ⟨rows,rfl⟩ := event_extends hevent
  exact .of_insert rfl (by simp) (.inr (by simp [hrow]))

theorem recordWorkspace_move {tree : Worktree} (h : db.recordWorkspace sha now runId tree = .ok db') :
    Move sha resources .workspace db db' := by
  simp only [recordWorkspace,steps_ok] at h
  obtain ⟨row,hrow,hevent⟩ := h
  have hwrite : RunWrite resources .workspace db (db.setRun runId { row with
      workspacePath := some tree.path
      workspaceBranch := some tree.branch
      updatedAt := now }) runId := .setRun hrow (.update rfl (.inl rfl) (.inr (.inl rfl)))
  exact .of_runEvent hevent (hwrite.setWorkspace runId _) rfl rfl (by decide) fun h => absurd rfl h

theorem preserveWorkspace_keeps {reason : String} (h : db.preserveWorkspace sha now runId reason = .ok db') :
    db.KeepsWorkspaces db' := by
  simp only [preserveWorkspace,steps_ok] at h
  obtain ⟨row,hrow,hevent⟩ := h
  obtain ⟨rows,rfl⟩ := event_extends hevent
  exact .of_insert rfl (by simp) (.inl (by simp [workspaceState,hrow]))

theorem removeWorkspace_rows {payload : Json} (h : db.removeWorkspace sha now runId payload = .ok db') :
    db'.runs = db.runs ∧ ∃ row, db.workspaces[runId]? = some row ∧
      db'.workspaces = db.workspaces.insert runId { row with state := "removed", updatedAt := now } := by
  simp only [removeWorkspace,steps_ok] at h
  obtain ⟨row,hrow,hevent⟩ := h
  obtain ⟨rows,rfl⟩ := event_extends hevent
  exact ⟨rfl,row,hrow,rfl⟩

end Db

theorem Move.keepsEnded (h : Move sha resources kind db db') (hkind : kind ≠ .resume) (hended : db.Ended runId) :
    db'.Ended runId := by
  obtain ⟨row,hrow,hstate⟩ := hended
  obtain ⟨row',hrow',_⟩ := h.keepsRuns runId row hrow
  refine ⟨row',hrow',?_⟩
  rcases h.ended hrow hstate hrow' with hsame | ⟨_,⟨hresume,_⟩ | ⟨_,hsucceeded⟩⟩
  · rw [hsame,hstate]
  · exact absurd hresume hkind
  · rw [hsucceeded]
    rfl

/-- Any transaction but the last one of a cleanup and that of a resumption. -/
def Op.ordinary : Op → Bool
  | .removeWorkspace .. | .resumeOrphanedRun .. => false
  | _ => true

/-- A run that is resumed has no workspace row, or an active one with a worktree that was seen. -/
theorem Dispatcher.resumeOrphanedRun_workspace {d : Dispatcher} {call : CoordinatedCall} {unchanged : Bool}
    {request : ResumeRequest} (h : d.resumeOrphanedRun E call unchanged request db = .ok db') :
    db.workspaceState request.runId = none ∨
      db.workspaceState request.runId = some "active" ∧ unchanged = true := by
  simp only [resumeOrphanedRun,steps_ok] at h
  obtain ⟨_,_,_,_,_,_,row,_,_,_,intent,_,fresh,_,task,_,plan,_,_,_,_,hworkspace,_⟩ := h
  have hmissing (habsent : (!db.workspaces.contains request.runId) = true) :
      db.workspaceState request.runId = none := by
    rw [Std.ExtTreeMap.contains_eq_isSome_getElem?,Bool.not_eq_true',Option.isSome_eq_false_iff,
      Option.isNone_iff_eq_none] at habsent
    rw [Db.workspaceState,habsent]
    rfl
  unfold resumableWorkspace at hworkspace
  split at hworkspace
  · split at hworkspace
    · simp only [steps_ok,decide_eq_true_eq] at hworkspace
      obtain ⟨record,hrecord,_,_,_,hactive,_,_,hunchanged⟩ := hworkspace
      refine .inr ⟨?_,hunchanged⟩
      rw [Db.workspaceState,hrecord,Option.map_some,hactive]
    · exact .inl (hmissing (require_eq_ok.mp hworkspace))
  · simp only [steps_ok] at hworkspace
    obtain ⟨_,_,habsent⟩ := hworkspace
    exact .inl (hmissing habsent)

section Steps

variable {E : Env} {K : Contracts} {db db' : Db} {op : Op} {runId : String}

theorem apply_workspaces_eq (hop : op.kind ≠ .workspace) (h : op.apply E K db = .ok db') :
    db'.workspaces = db.workspaces := by
  rcases apply_moves op.planned_self h with hsingle | hroutine
  · exact hsingle.workspaces_eq hop
  · clear h
    induction hroutine with
    | refl => rfl
    | tail _ hmove ih =>
      obtain ⟨_,hmove,rfl | ⟨_,rfl⟩⟩ := hmove
      · exact (hmove.workspaces_eq (by decide)).trans ih
      · exact (hmove.workspaces_eq (by decide)).trans ih

theorem step_keepsWorkspaces (hop : op.ordinary = true) : db.KeepsWorkspaces (step E K db op) := by
  refine commit_preserves (.refl db) fun db' hdb' => ?_
  by_cases hkind : op.kind = .workspace
  · cases op with
    | createWorkspace now runId tree =>
      rcases Db.createWorkspace_eq_ok hdb' with rfl | hrecord
      · exact .refl _
      · exact Db.recordWorkspace_keeps hrecord
    | preserveWorkspace now runId reason => exact Db.preserveWorkspace_keeps hdb'
    | removeWorkspace => simp [Op.ordinary] at hop
    | _ => simp [Op.kind] at hkind
  · exact .of_eq (apply_workspaces_eq hkind hdb')

theorem step_keepsRuns : db.KeepsRuns (step E K db op) :=
  step_invariant (fun _ _ _ hmove hkeeps => hkeeps.trans hmove.keepsRuns) (Db.KeepsRuns.refl db) op.planned_self

theorem step_keepsEnded (hop : op.kind ≠ .resume) (h : db.Ended runId) : (step E K db op).Ended runId := by
  refine commit_preserves (P := fun db : Db => db.Ended runId) h fun db' hdb' => ?_
  rcases apply_moves op.planned_self hdb' with hsingle | hroutine
  · exact hsingle.keepsEnded hop h
  · clear hdb'
    induction hroutine with
    | refl => exact h
    | tail _ hmove ih =>
      obtain ⟨kind,hmove,hresume,_⟩ := hmove.kind_ne
      exact hmove.keepsEnded hresume ih

theorem Op.kind_of_ordinary (h : op.ordinary = true) : op.kind ≠ .resume := by
  cases op <;> simp_all [Op.ordinary,Op.kind]

end Steps

structure Tree where
  branch : String
  head : String
  dirty : Bool
  merged : Bool
  deriving DecidableEq

/-- What a cleanup does next: look at the worktree, ask for the merge proof, remove the worktree, write
its last transaction. -/
inductive Pending where
  | inspect
  | prove (head : String)
  | remove (proof : Option Json)
  | preserve (reason : String)
  | mark (payload : Json)
  | markMissing
  deriving DecidableEq

/-- A call of `cleanup_workspace` that has read its run as ended. -/
structure Cleanup where
  runId : String
  force : Bool
  pending : Pending
  deriving DecidableEq

/-- A call of `resume_orphaned_run` that has looked at the worktree in its open transaction. -/
structure Resumption where
  d : Dispatcher
  call : Dispatcher.CoordinatedCall
  request : Dispatcher.ResumeRequest
  unchanged : Bool

/-- The store with the worktrees and the calls that are under way. Every run has a worktree path of its
own. The runs whose worktree a cleanup removed are kept on record until there is a worktree again. -/
structure Workshop where
  db : Db
  trees : Table Tree
  cleanups : Table Cleanup
  resuming : Option Resumption
  removed : List String

inductive Act where
  | operate (op : Op)
  | record (now : Time) (runId : String) (tree : Worktree)
  | edit (runId : String) (tree : Option Tree)
  | openResume (d : Dispatcher) (call : Dispatcher.CoordinatedCall) (request : Dispatcher.ResumeRequest)
  | commitResume
  | startCleanup (id runId : String) (force : Bool)
  | proceed (id : String) (now : Time) (proof : Except String (Option Json))
  | abort (id : String)

namespace Cleanup

def inspected (c : Cleanup) : Option Tree → Pending
  | none => .markMissing
  | some tree =>
    if tree.dirty ∧ ¬ c.force then .preserve "dirty workspace"
    else if tree.merged ∨ c.force then .remove none
    else .prove tree.head

/-- What follows from the merge proof; the worktree is looked at again. -/
def proved (head : String) (proof : Except String (Option Json)) (tree : Option Tree) : Pending :=
  match proof with
  | .ok (some proof) =>
    if tree.any fun tree => tree.head = head ∧ ¬ tree.dirty then .remove (some proof)
    else .preserve "workspace changed during merge proof"
  | _ => .preserve "branch not merged"

def payload (c : Cleanup) (proof : Option Json) : Json :=
  .obj (("force",.bool c.force) :: proof.toList.map fun proof => ("merge_proof",proof))

end Cleanup

namespace Workshop

def fresh (sha : Sha) : Workshop := ⟨Db.fresh sha,∅,∅,none,[]⟩

def unchanged (w : Workshop) (runId : String) : Bool :=
  (w.trees[runId]?).any fun tree => (w.db.runs[runId]?).any fun row => row.workspaceBranch = some tree.branch

def await (w : Workshop) (id : String) (c : Cleanup) : Workshop :=
  { w with cleanups := w.cleanups.insert id c }

/-- The last transaction of a cleanup ends it; the store is free for it once no resumption is open. -/
def finish (w : Workshop) (id : String) (db : Db) : Workshop :=
  if w.resuming.isSome then w else { w with db := db, cleanups := w.cleanups.erase id }

/-- One step of a cleanup. Git refuses to remove a dirty worktree unless it is forced to. -/
def proceed (E : Env) (K : Contracts) (w : Workshop) (id : String) (now : Time)
    (proof : Except String (Option Json)) (c : Cleanup) : Workshop :=
  match c.pending with
  | .inspect => w.await id { c with pending := c.inspected w.trees[c.runId]? }
  | .prove head => w.await id { c with pending := Cleanup.proved head proof w.trees[c.runId]? }
  | .remove proof =>
    if (w.trees[c.runId]?).any fun tree => c.force || !tree.dirty then
      { w.await id { c with pending := .mark (c.payload proof) } with
        trees := w.trees.erase c.runId
        removed := c.runId :: w.removed }
    else { w with cleanups := w.cleanups.erase id }
  | .preserve reason => w.finish id (Bureau.step E K w.db (.preserveWorkspace now c.runId reason))
  | .mark payload => w.finish id (Bureau.step E K w.db (.removeWorkspace now c.runId payload))
  | .markMissing =>
    w.finish id (if w.db.workspaceState c.runId = some "removed" then w.db
      else Bureau.step E K w.db (.removeWorkspace now c.runId (c.payload none)))

def step (E : Env) (K : Contracts) (w : Workshop) : Act → Workshop
  | .operate op => if w.resuming.isSome ∨ op.ordinary = false then w else { w with db := Bureau.step E K w.db op }
  | .record now runId tree =>
    if w.resuming.isSome then w else { w with db := commit w.db (w.db.recordWorkspace E.sha now runId tree) }
  | .edit runId (some tree) =>
    { w with trees := w.trees.insert runId tree, removed := w.removed.filter fun other => other ≠ runId }
  | .edit runId none => { w with trees := w.trees.erase runId }
  | .openResume d call request =>
    if w.resuming.isSome then w else { w with resuming := some ⟨d,call,request,w.unchanged request.runId⟩ }
  | .commitResume =>
    match w.resuming with
    | none => w
    | some r =>
      { w with db := Bureau.step E K w.db (.resumeOrphanedRun r.d r.call r.unchanged r.request), resuming := none }
  | .startCleanup id runId force =>
    if ¬ w.cleanups.contains id ∧ w.db.workspaceState runId ≠ none ∧
        (w.db.runs[runId]?).any fun row => !row.state.active then w.await id ⟨runId,force,.inspect⟩
    else w
  | .proceed id now proof =>
    match w.cleanups[id]? with
    | none => w
    | some c => w.proceed E K id now proof c
  | .abort id => { w with cleanups := w.cleanups.erase id }

def apart (w : Workshop) : Act → Prop
  | .openResume _ _ request => ∀ (id : String) (c : Cleanup), w.cleanups[id]? = some c → c.runId ≠ request.runId
  | .startCleanup _ runId _ => ∀ r, w.resuming = some r → r.request.runId ≠ runId
  | _ => True

/-- The act takes the worktree of the run away, or it marks the workspace row as removed. -/
def Clears (E : Env) (K : Contracts) (w : Workshop) (act : Act) (runId : String) : Prop :=
  (∃ id now proof, act = .proceed id now proof) ∧ (w.trees[runId]? ≠ none ∧ (w.step E K act).trees[runId]? = none) ∨
    w.db.workspaceState runId ≠ some "removed" ∧ (w.step E K act).db.workspaceState runId = some "removed"

/-- What holds while resumptions and cleanups of the same run do not overlap. -/
structure Safe (w : Workshop) : Prop where
  cleanups : ∀ (id : String) (c : Cleanup), w.cleanups[id]? = some c →
    w.db.Ended c.runId ∧ w.db.workspaceState c.runId ≠ none
  removed : ∀ runId ∈ w.removed, w.trees[runId]? = none ∧ w.db.workspaceState runId ≠ none
  resuming : ∀ r, w.resuming = some r →
    (∀ (id : String) (c : Cleanup), w.cleanups[id]? = some c → c.runId ≠ r.request.runId) ∧
      (r.unchanged = true → r.request.runId ∉ w.removed)
  owned : ∀ runId, w.db.workspaceState runId ≠ none → w.db.runs[runId]? ≠ none
  running : ∀ runId, w.db.Running runId → runId ∉ w.removed ∧ w.db.workspaceState runId ≠ some "removed"

namespace Safe

variable {E : Env} {K : Contracts} {w : Workshop}

theorem fresh (sha : Sha) : (Workshop.fresh sha).Safe := by
  refine ⟨?_,?_,?_,?_,?_⟩
  · intro id c hc
    simp [Workshop.fresh] at hc
  · intro runId hrun
    simp [Workshop.fresh] at hrun
  · intro r hr
    simp [Workshop.fresh] at hr
  · intro runId hstate
    simp [Workshop.fresh,Db.workspaceState,Db.fresh] at hstate
  · rintro runId ⟨row,hrow,_⟩
    simp [Workshop.fresh,Db.fresh] at hrow

/-- A transaction that leaves the workspace rows in order, where only some runs come back that have no
cleanup under way and whose workspace is there. -/
theorem transact (h : w.Safe) (back : String → Prop) (hkeeps : w.db.KeepsWorkspaces db') (hruns : w.db.KeepsRuns db')
    (hended : ∀ runId, w.db.Ended runId → db'.Ended runId ∨ back runId)
    (hback : ∀ runId, back runId → (∀ (id : String) (c : Cleanup), w.cleanups[id]? = some c → c.runId ≠ runId) ∧
      runId ∉ w.removed ∧ w.db.workspaceState runId ≠ some "removed") :
    { w with db := db' }.Safe := by
  have hkept (runId : String) (hrow : w.db.runs[runId]? ≠ none) : db'.runs[runId]? ≠ none := by
    obtain ⟨row,hrow⟩ := Option.ne_none_iff_exists'.mp hrow
    obtain ⟨row',hrow',_⟩ := hruns runId row hrow
    simp [hrow']
  refine ⟨fun id c hc => ?_,fun runId hrun => ?_,h.resuming,fun runId hstate => ?_,?_⟩
  · obtain ⟨hbefore,hstate⟩ := h.cleanups id c hc
    refine ⟨(hended c.runId hbefore).resolve_right fun hcomes => ?_,hkeeps.kept c.runId hstate⟩
    exact (hback c.runId hcomes).1 id c hc rfl
  · obtain ⟨htree,hstate⟩ := h.removed runId hrun
    exact ⟨htree,hkeeps.kept runId hstate⟩
  · rcases hkeeps.owned runId hstate with hbefore | hrow
    · exact hkept runId (h.owned runId hbefore)
    · exact hkept runId hrow
  · intro runId hrunning
    have hbefore : runId ∉ w.removed ∧ w.db.workspaceState runId ≠ some "removed" := by
      cases hrow : w.db.runs[runId]? with
      | none =>
        have hnone : w.db.workspaceState runId = none := by
          by_contra hstate
          exact h.owned runId hstate hrow
        exact ⟨fun hmem => (h.removed runId hmem).2 hnone,by simp [hnone]⟩
      | some row =>
        cases hactive : row.state.active with
        | true => exact h.running runId ⟨row,hrow,hactive⟩
        | false =>
          rcases hended runId ⟨row,hrow,hactive⟩ with hstill | hcomes
          · exact absurd hrunning hstill.not_running
          · exact (hback runId hcomes).2
    exact ⟨hbefore.1,fun hstate => hbefore.2 (hkeeps.removed runId hstate)⟩

theorem operate (h : w.Safe) {op : Op} (hop : op.ordinary = true) :
    { w with db := Bureau.step E K w.db op }.Safe :=
  h.transact (fun _ => False) (step_keepsWorkspaces hop) step_keepsRuns
    (fun _ hended => .inl (step_keepsEnded (Op.kind_of_ordinary hop) hended)) (fun _ hfalse => hfalse.elim)

theorem mark (h : w.Safe) (hrun : w.db.Ended runId) (now : Time) (payload : Json) :
    { w with db := Bureau.step E K w.db (.removeWorkspace now runId payload) }.Safe := by
  refine commit_preserves (P := fun db => { w with db := db }.Safe) h fun db' hdb' => ?_
  obtain ⟨hruns,row,hrow,hworkspaces⟩ := Db.removeWorkspace_rows hdb'
  have hstate := Db.workspaceState_of_insert hworkspaces
  have hkept (other : String) : db'.workspaceState other ≠ none ↔ w.db.workspaceState other ≠ none := by
    rw [hstate]
    split
    · rename_i hother
      simp [hother,Db.workspaceState,hrow]
    · rfl
  have hsame (other : String) : db'.runs[other]? = w.db.runs[other]? := by rw [hruns]
  refine ⟨fun id c hc => ?_,fun other hother => ?_,h.resuming,fun other hother => ?_,?_⟩
  · obtain ⟨⟨found,hfound,hended⟩,hrecord⟩ := h.cleanups id c hc
    exact ⟨⟨found,(hsame c.runId).trans hfound,hended⟩,(hkept c.runId).mpr hrecord⟩
  · exact ⟨(h.removed other hother).1,(hkept other).mpr (h.removed other hother).2⟩
  · rw [hsame]
    exact h.owned other ((hkept other).mp hother)
  · rintro other ⟨found,hfound,hactive⟩
    have hrunning : w.db.Running other := ⟨found,(hsame other).symm.trans hfound,hactive⟩
    have hne : other ≠ runId := by
      rintro rfl
      exact hrun.not_running hrunning
    rw [hstate,if_neg hne]
    exact h.running other hrunning

theorem drop (h : w.Safe) (id : String) : { w with cleanups := w.cleanups.erase id }.Safe := by
  have hsub (other : String) (c : Cleanup) (hc : (w.cleanups.erase id)[other]? = some c) :
      w.cleanups[other]? = some c := by
    rw [Tables.get_erase] at hc
    split at hc
    · simp at hc
    · exact hc
  refine ⟨fun other c hc => h.cleanups other c (hsub other c hc),h.removed,fun r hr => ?_,h.owned,h.running⟩
  exact ⟨fun other c hc => (h.resuming r hr).1 other c (hsub other c hc),(h.resuming r hr).2⟩

theorem await (h : w.Safe) {id : String} {c : Cleanup} (hrun : w.db.Ended c.runId)
    (hstate : w.db.workspaceState c.runId ≠ none)
    (happart : ∀ r, w.resuming = some r → r.request.runId ≠ c.runId) : (w.await id c).Safe := by
  refine ⟨fun other found hfound => ?_,h.removed,fun r hr => ⟨fun other found hfound => ?_,(h.resuming r hr).2⟩,
    h.owned,h.running⟩
  · rw [Workshop.await,Tables.get_insert] at hfound
    split at hfound
    · obtain rfl := Option.some.inj hfound
      exact ⟨hrun,hstate⟩
    · exact h.cleanups other found hfound
  · rw [Workshop.await,Tables.get_insert] at hfound
    split at hfound
    · obtain rfl := Option.some.inj hfound
      exact (happart r hr).symm
    · exact (h.resuming r hr).1 other found hfound

theorem finish (h : w.Safe) (id : String) (hdb : { w with db := db', cleanups := w.cleanups.erase id }.Safe) :
    (w.finish id db').Safe := by
  unfold Workshop.finish
  split
  · exact h
  · exact hdb

theorem remove (h : w.Safe) (hrun : w.db.Ended runId) (hstate : w.db.workspaceState runId ≠ none)
    (happart : ∀ r, w.resuming = some r → r.request.runId ≠ runId) :
    { w with trees := w.trees.erase runId, removed := runId :: w.removed }.Safe := by
  refine ⟨h.cleanups,fun other hother => ?_,fun r hr => ⟨(h.resuming r hr).1,fun hunchanged => ?_⟩,h.owned,?_⟩
  · rw [Tables.get_erase]
    rcases List.mem_cons.mp hother with rfl | hother
    · exact ⟨by simp,hstate⟩
    · obtain ⟨htree,hrecord⟩ := h.removed other hother
      exact ⟨by simp [htree],hrecord⟩
  · rw [List.mem_cons,not_or]
    exact ⟨happart r hr,(h.resuming r hr).2 hunchanged⟩
  · intro other hrunning
    obtain ⟨hmem,hrecord⟩ := h.running other hrunning
    refine ⟨?_,hrecord⟩
    rw [List.mem_cons,not_or]
    refine ⟨?_,hmem⟩
    rintro rfl
    exact hrun.not_running hrunning

theorem proceed (h : w.Safe) {id : String} {c : Cleanup} (hc : w.cleanups[id]? = some c) (now : Time)
    (proof : Except String (Option Json)) : (w.proceed E K id now proof c).Safe := by
  obtain ⟨hrun,hstate⟩ := h.cleanups id c hc
  have happart : ∀ r, w.resuming = some r → r.request.runId ≠ c.runId :=
    fun r hr => ((h.resuming r hr).1 id c hc).symm
  unfold Workshop.proceed
  split
  · exact h.await hrun hstate happart
  · exact h.await hrun hstate happart
  · split
    · exact Safe.await (h.remove hrun hstate happart) hrun hstate happart
    · exact h.drop id
  · exact h.finish id ((h.drop id).operate rfl)
  · exact h.finish id ((h.drop id).mark hrun now _)
  · split
    · exact h.finish id (h.drop id)
    · exact h.finish id ((h.drop id).mark hrun now _)

theorem commitResume (h : w.Safe) {r : Resumption} (hr : w.resuming = some r) :
    { w with
      db := Bureau.step E K w.db (.resumeOrphanedRun r.d r.call r.unchanged r.request)
      resuming := none }.Safe := by
  obtain ⟨happart,hseen⟩ := h.resuming r hr
  have hclosed : { w with resuming := none }.Safe :=
    ⟨h.cleanups,h.removed,fun r hr => by simp at hr,h.owned,h.running⟩
  refine commit_preserves (P := fun db => { w with db := db, resuming := none }.Safe) hclosed fun db' hdb' => ?_
  have hrow : r.request.runId ∉ w.removed ∧ w.db.workspaceState r.request.runId ≠ some "removed" := by
    rcases Dispatcher.resumeOrphanedRun_workspace hdb' with hnone | ⟨hactive,hunchanged⟩
    · exact ⟨fun hmem => (h.removed _ hmem).2 hnone,by simp [hnone]⟩
    · exact ⟨hseen hunchanged,by simp [hactive]⟩
  refine hclosed.transact (fun runId => runId = r.request.runId) (.of_eq (apply_workspaces_eq (by simp [Op.kind]) hdb'))
    ?_ ?_ ?_
  · have hmove : Move E.sha r.d.registry.resources .resume w.db db' := Dispatcher.resumeOrphanedRun_move hdb'
    exact hmove.keepsRuns
  · rintro runId ⟨row,hfound,hended⟩
    by_cases hrun : runId = r.request.runId
    · exact .inr hrun
    · have hview := congrArg RunView.row (Dispatcher.resumeOrphanedRun_others hdb' runId hrun)
      have hsame : db'.runs[runId]? = w.db.runs[runId]? := hview
      exact .inl ⟨row,hsame.trans hfound,hended⟩
  · rintro runId rfl
    exact ⟨happart,hrow⟩

theorem step (h : w.Safe) {act : Act} (hact : w.apart act) : (w.step E K act).Safe := by
  cases act with
  | operate op =>
    rw [Workshop.step]
    split
    · exact h
    · rename_i hfree
      rw [not_or,Bool.not_eq_false] at hfree
      exact h.operate hfree.2
  | record now runId tree =>
    rw [Workshop.step]
    split
    · exact h
    · refine commit_preserves (P := fun db => { w with db := db }.Safe) h fun db' hdb' => ?_
      have hmove : Move E.sha ∅ .workspace w.db db' := Db.recordWorkspace_move hdb'
      exact h.transact (fun _ => False) (Db.recordWorkspace_keeps hdb') hmove.keepsRuns
        (fun _ hended => .inl (hmove.keepsEnded (by decide) hended)) (fun _ hfalse => hfalse.elim)
  | edit runId tree =>
    cases tree with
    | none =>
      refine ⟨h.cleanups,fun other hother => ?_,h.resuming,h.owned,h.running⟩
      obtain ⟨htree,hstate⟩ := h.removed other hother
      exact ⟨by simp [Workshop.step,Tables.get_erase,htree],hstate⟩
    | some tree =>
      have hsub {other : String} (hother : other ∈ (w.step E K (.edit runId (some tree))).removed) :
          other ∈ w.removed ∧ other ≠ runId := by simpa [Workshop.step] using hother
      refine ⟨h.cleanups,fun other hother => ?_,fun r hr => ?_,h.owned,fun other hrunning => ?_⟩
      · obtain ⟨hmem,hne⟩ := hsub hother
        obtain ⟨htree,hstate⟩ := h.removed other hmem
        exact ⟨by rw [Workshop.step,Tables.get_insert_ne _ _ hne,htree],hstate⟩
      · exact ⟨(h.resuming r hr).1,fun hunchanged hmem => (h.resuming r hr).2 hunchanged (hsub hmem).1⟩
      · exact ⟨fun hmem => (h.running other hrunning).1 (hsub hmem).1,(h.running other hrunning).2⟩
  | openResume d call request =>
    rw [Workshop.step]
    split
    · exact h
    · refine ⟨h.cleanups,h.removed,?_,h.owned,h.running⟩
      rintro r ⟨⟩
      refine ⟨hact,fun hunchanged hmem => ?_⟩
      simp [unchanged,(h.removed _ hmem).1] at hunchanged
  | commitResume =>
    cases hr : w.resuming with
    | none => simpa [Workshop.step,hr] using h
    | some r => simpa [Workshop.step,hr] using h.commitResume hr
  | startCleanup id runId force =>
    rw [Workshop.step]
    split
    · rename_i hstart
      obtain ⟨_,hstate,hended⟩ := hstart
      obtain ⟨row,hrow,hstopped⟩ := (Option.any_eq_true ..).mp hended
      exact h.await ⟨row,hrow,by simpa using hstopped⟩ hstate hact
    · exact h
  | proceed id now proof =>
    cases hc : w.cleanups[id]? with
    | none => simpa [Workshop.step,hc] using h
    | some c => simpa [Workshop.step,hc] using h.proceed hc now proof
  | abort id => exact h.drop id

theorem proceed_others (E : Env) (K : Contracts) (w : Workshop) (id : String) (now : Time)
    (proof : Except String (Option Json)) {c : Cleanup} (hne : runId ≠ c.runId) :
    (w.proceed E K id now proof c).trees[runId]? = w.trees[runId]? ∧
      ((w.proceed E K id now proof c).db.workspaceState runId = some "removed" →
        w.db.workspaceState runId = some "removed") := by
  have hmark (payload : Json) :
      (Bureau.step E K w.db (.removeWorkspace now c.runId payload)).workspaceState runId = some "removed" →
        w.db.workspaceState runId = some "removed" := by
    refine commit_preserves (P := fun db : Db => db.workspaceState runId = some "removed" → _) (fun hstate => hstate)
      fun db' hdb' hstate => ?_
    obtain ⟨_,_,_,hworkspaces⟩ := Db.removeWorkspace_rows hdb'
    rwa [Db.workspaceState_of_insert hworkspaces,if_neg hne] at hstate
  have hfinish (db' : Db) (hdb : db'.workspaceState runId = some "removed" →
    w.db.workspaceState runId = some "removed") :
      (w.finish id db').trees[runId]? = w.trees[runId]? ∧
        ((w.finish id db').db.workspaceState runId = some "removed" → w.db.workspaceState runId = some "removed") := by
    unfold Workshop.finish
    split
    · exact ⟨rfl,fun hstate => hstate⟩
    · exact ⟨rfl,hdb⟩
  unfold Workshop.proceed
  split
  · exact ⟨rfl,fun hstate => hstate⟩
  · exact ⟨rfl,fun hstate => hstate⟩
  · split
    · exact ⟨by rw [Tables.get_erase,if_neg hne],fun hstate => hstate⟩
    · exact ⟨rfl,fun hstate => hstate⟩
  · exact hfinish _ ((step_keepsWorkspaces rfl).removed runId)
  · exact hfinish _ (hmark _)
  · split
    · exact hfinish _ fun hstate => hstate
    · exact hfinish _ (hmark _)

theorem ended_of_clears (h : w.Safe) {act : Act} (hclears : w.Clears E K act runId) :
    w.db.Ended runId := by
  have hproceed (id : String) (now : Time) (proof : Except String (Option Json))
      (hchanged : w.trees[runId]? ≠ none ∧ (w.step E K (.proceed id now proof)).trees[runId]? = none ∨
        w.db.workspaceState runId ≠ some "removed" ∧
          (w.step E K (.proceed id now proof)).db.workspaceState runId = some "removed") : w.db.Ended runId := by
    simp only [Workshop.step] at hchanged
    cases hc : w.cleanups[id]? with
    | none =>
      rw [hc] at hchanged
      rcases hchanged with ⟨hbefore,hafter⟩ | ⟨hbefore,hafter⟩
      · exact absurd hafter hbefore
      · exact absurd hafter hbefore
    | some c =>
      rw [hc] at hchanged
      by_cases hrun : runId = c.runId
      · exact hrun ▸ (h.cleanups id c hc).1
      · obtain ⟨htrees,hstate⟩ := proceed_others E K w id now proof hrun
        rcases hchanged with ⟨hbefore,hafter⟩ | ⟨hbefore,hafter⟩
        · exact absurd (htrees.symm.trans hafter) hbefore
        · exact absurd (hstate hafter) hbefore
  rcases hclears with ⟨⟨id,now,proof,rfl⟩,hchanged⟩ | ⟨hbefore,hafter⟩
  · exact hproceed id now proof (.inl hchanged)
  · cases act with
    | proceed id now proof => exact hproceed id now proof (.inr ⟨hbefore,hafter⟩)
    | operate op =>
      rw [Workshop.step] at hafter
      split at hafter
      · exact absurd hafter hbefore
      · rename_i hfree
        rw [not_or,Bool.not_eq_false] at hfree
        exact absurd ((step_keepsWorkspaces hfree.2).removed runId hafter) hbefore
    | record now other tree =>
      rw [Workshop.step] at hafter
      split at hafter
      · exact absurd hafter hbefore
      · refine absurd ?_ hbefore
        refine Db.KeepsWorkspaces.removed ?_ runId hafter
        exact commit_preserves (.refl _) fun db' hdb' => Db.recordWorkspace_keeps hdb'
    | edit other tree => cases tree <;> exact absurd hafter hbefore
    | openResume d call request =>
      rw [Workshop.step] at hafter
      split at hafter <;> exact absurd hafter hbefore
    | commitResume =>
      cases hr : w.resuming with
      | none =>
        simp only [Workshop.step,hr] at hafter
        exact absurd hafter hbefore
      | some r =>
        simp only [Workshop.step,hr] at hafter
        refine absurd (Db.KeepsWorkspaces.removed ?_ runId hafter) hbefore
        exact commit_preserves (.refl _) fun db' hdb' => .of_eq (apply_workspaces_eq (by simp [Op.kind]) hdb')
    | startCleanup id other force =>
      rw [Workshop.step] at hafter
      split at hafter <;> exact absurd hafter hbefore
    | abort id => exact absurd hafter hbefore

end Safe

theorem safe_of_reach {K : Contracts} {w : Workshop}
    (h : Reach (Workshop.step E K) Workshop.apart (Workshop.fresh E.sha) w) : w.Safe :=
  h.invariant (.fresh E.sha) fun _ _ hsafe hact => hsafe.step hact

end Workshop

/-- While no resumption overlaps a cleanup of the same run, a worktree is removed and a workspace row is
marked as removed only where the run is not active, and no active run has lost its workspace to a
cleanup. -/
theorem workspace_cleanup_safe {E : Env} {K : Contracts} {w : Workshop}
    (h : Reach (Workshop.step E K) Workshop.apart (Workshop.fresh E.sha) w) :
    (∀ (act : Act) (runId : String), w.Clears E K act runId → ¬ w.db.Running runId) ∧
      ∀ runId, w.db.Running runId → runId ∉ w.removed ∧ w.db.workspaceState runId ≠ some "removed" := by
  have hsafe := Workshop.safe_of_reach h
  exact ⟨fun act runId hclears => (hsafe.ended_of_clears hclears).not_running,hsafe.running⟩

namespace Sample

def workspaceDocument : Json :=
  .obj [("baseline_commit",.str "base"),("repository",.str "/repo"),("workspace_branch",.str "bureau/t-1"),
    ("workspace_path",.str "/trees/run")]

def workspaceIntent : Json :=
  signIntent env.sha (unsignedIntent env.sha intentCall intentRequest snapshotTask
    ((Initiative.mk "active" "now" 2 none).planSha256 env.sha) approvalDocument workspaceDocument)

def workspaceCall (now : Time) : Dispatcher.CoordinatedCall :=
  { commitCall with claim := { commitCall.claim with now := now }, workspace := .ok workspaceDocument }

def worktree : Tree := ⟨"bureau/t-1","head",false,true⟩

def goStale : List Act :=
  [.operate (.putTaskSpec 1 spec "put-1" none "operator"),
    .operate (.issueClaimIntent workspaceIntent "repository_mutation" (some draftedContract)),
    .operate (.commitClaimIntent snapshot (workspaceCall 4) workspaceIntent),.edit intentRunId (some worktree),
    .record 5 intentRunId ⟨"/repo","/trees/run","bureau/t-1","base"⟩,
    .operate (.reconcile 100 10 fun _ => ⟨false,.ok none,.error "unavailable"⟩)]

def orphaned : Workshop := run (Workshop.step env contracts) (Workshop.fresh env.sha) goStale

def resumeRequest (row : RunRow) : Dispatcher.ResumeRequest :=
  ⟨intentRunId,row.workerId,row.updatedAt,row.taskSha256,row.planSha256,row.envelopeSha256⟩

def request : Dispatcher.ResumeRequest :=
  ((orphaned.db.runs[intentRunId]?).map resumeRequest).getD ⟨"","",0,"","",""⟩

def checked : Workshop := orphaned.step env contracts (.startCleanup "cleanup" intentRunId false)

def inspected : Workshop := checked.step env contracts (.proceed "cleanup" 101 (.ok none))

def overtaken : Workshop :=
  run (Workshop.step env contracts) checked
    [.openResume snapshot (workspaceCall 101) request,.commitResume,.proceed "cleanup" 102 (.ok none)]

theorem checked_shown :
    (orphaned.resuming.isNone = true ∧ inspected.trees[intentRunId]? ≠ none ∧
      (inspected.step env contracts (.proceed "cleanup" 102 (.ok none))).trees[intentRunId]? = none) ∧
    (overtaken.db.runs[intentRunId]?).any (·.state.active) = true ∧ overtaken.trees[intentRunId]? ≠ none ∧
      (overtaken.step env contracts (.proceed "cleanup" 103 (.ok none))).trees[intentRunId]? = none ∧
      intentRunId ∈ (overtaken.step env contracts (.proceed "cleanup" 103 (.ok none))).removed := by
  decide +kernel

end Sample

theorem workspace_cleanup_safe_orphaned :
    Sample.inspected.Clears Sample.env Sample.contracts (.proceed "cleanup" 102 (.ok none)) Sample.intentRunId ∧
      ¬ Sample.inspected.db.Running Sample.intentRunId := by
  obtain ⟨hclosed,hclears⟩ := Sample.checked_shown.1
  have horphaned : Reach (Workshop.step Sample.env Sample.contracts) Workshop.apart (Workshop.fresh Sample.env.sha)
      Sample.orphaned := by
    refine Reach.run fun act hact w => ?_
    simp only [Sample.goStale,List.mem_cons,List.not_mem_nil,or_false] at hact
    rcases hact with rfl | rfl | rfl | rfl | rfl | rfl <;> trivial
  have hreach : Reach (Workshop.step Sample.env Sample.contracts) Workshop.apart (Workshop.fresh Sample.env.sha)
      Sample.inspected := by
    refine .step (.step horphaned ?_) trivial
    intro r hr
    rw [Option.isNone_iff_eq_none.mp hclosed] at hr
    cases hr
  have hall : Sample.inspected.Clears Sample.env Sample.contracts (.proceed "cleanup" 102 (.ok none))
      Sample.intentRunId := .inl ⟨⟨_,_,_,rfl⟩,hclears⟩
  exact ⟨hall,(workspace_cleanup_safe hreach).1 _ _ hall⟩

/-- A run that is resumed between the check and the removal loses its worktree. -/
theorem resumed_run_loses_worktree :
    Sample.overtaken.db.Running Sample.intentRunId ∧
      Sample.overtaken.Clears Sample.env Sample.contracts (.proceed "cleanup" 103 (.ok none)) Sample.intentRunId ∧
      Sample.intentRunId ∈
        (Sample.overtaken.step Sample.env Sample.contracts (.proceed "cleanup" 103 (.ok none))).removed := by
  obtain ⟨hactive,hbefore,hafter,hremoved⟩ := Sample.checked_shown.2
  obtain ⟨row,hrow,hactive⟩ := (Option.any_eq_true ..).mp hactive
  exact ⟨⟨row,hrow,hactive⟩,.inl ⟨⟨_,_,_,rfl⟩,hbefore,hafter⟩,hremoved⟩

end Bureau
