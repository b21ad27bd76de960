import Bureau.RunLifecycle

/-!
Mutual exclusion. Every reservation that enters the store was checked against the reservations
of the other active runs, so two active runs never hold overlapping resources in conflicting
modes.
-/

namespace Bureau

open Transactions Relation

def Db.Exclusive (resources : Resources) (db : Db) : Prop :=
  ∀ (a b : String) (rowA rowB : RunRow), a ≠ b → db.runs[a]? = some rowA → rowA.state.active = true →
    db.runs[b]? = some rowB → rowB.state.active = true →
    ∀ (left right : String) (holdA holdB : Hold), (db.heldBy a)[left]? = some holdA →
      (db.heldBy b)[right]? = some holdB → overlaps left right resources = true →
      modesConflict holdA.mode holdB.mode = false

variable {db db' : Db} {kind : Kind} {resources : Resources}

/-- A reservation of a run that is active after a step was there while the run was active, or it
was checked against the other runs. -/
theorem RunStep.granted {runId resource : String} {v v' : RunView}
    {row' : RunRow} {hold : Hold} (h : RunStep resources db runId kind v v') (hv : v.Valid)
    (hrow' : v'.row = some row') (hactive : row'.state.active = true) (hheld : v'.held[resource]? = some hold) :
    (∃ row, v.row = some row ∧ row.state.active = true ∧ v.held[resource]? = some hold) ∨
      Fits resources db runId resource hold.mode := by
  cases h with
  | idle => exact .inl ⟨row',hrow',hactive,hheld⟩
  | @update row _ held receipt _ identity state =>
    cases hrow'
    refine .inl ⟨row,rfl,?_,hheld⟩
    rcases state with hsame | ⟨hbefore,_⟩
    · exact hsame ▸ hactive
    · exact hbefore
  | finish identity active failure =>
    cases hrow'
    simp [(failureStates_not_active failure).1] at hactive
  | @claim row held held' receipt state attempt granted =>
    have hempty : held = ∅ := hv.released (by simp)
    rcases granted resource hold hheld with hbefore | hfits
    · simp [hempty] at hbefore
    · exact .inr hfits
  | @resume row _ held held' receipt identity orphaned assigned granted =>
    have hempty : held = ∅ := by
      refine hv.released ?_
      rintro _ ⟨⟩
      simp [orphaned,RunState.active]
    rcases granted resource hold hheld with hbefore | hfits
    · simp [hempty] at hbefore
    · exact .inr hfits
  | @expand row _ held held' receipt identity active state granted =>
    rcases granted resource hold hheld with hbefore | hfits
    · exact .inl ⟨row,rfl,active,hbefore⟩
    · exact .inr hfits
  | complete identity state succeeded =>
    cases hrow'
    simp [succeeded,RunState.active] at hactive

theorem Move.exclusive_of_ne {sha : Sha}
    (h : Move sha resources kind db db') (hvalid : db.RunsValid) (hexclusive : db.Exclusive resources)
    {a b : String} {rowA rowB : RunRow} (hab : a ≠ b) (hA : db'.runs[a]? = some rowA)
    (hactiveA : rowA.state.active = true) (hsame : db'.view b = db.view b) (hB : db'.runs[b]? = some rowB)
    (hactiveB : rowB.state.active = true) {left right : String} {holdA holdB : Hold}
    (hleft : (db'.heldBy a)[left]? = some holdA) (hright : (db'.heldBy b)[right]? = some holdB)
    (hoverlap : overlaps left right resources = true) : modesConflict holdA.mode holdB.mode = false := by
  have hB : db.runs[b]? = some rowB := (congrArg RunView.row hsame).symm.trans hB
  have hright : (db.heldBy b)[right]? = some holdB := by
    rw [← show db'.heldBy b = db.heldBy b from congrArg RunView.held hsame]
    exact hright
  have hbefore : (∃ row, db.runs[a]? = some row ∧ row.state.active = true ∧
      (db.heldBy a)[left]? = some holdA) ∨ Fits resources db a left holdA.mode := by
    obtain ⟨changed,hothers,hchanged⟩ := h.views
    have hunchanged (hview : db'.view a = db.view a) : ∃ row, db.runs[a]? = some row ∧
        row.state.active = true ∧ (db.heldBy a)[left]? = some holdA := by
      refine ⟨rowA,(congrArg RunView.row hview).symm.trans hA,hactiveA,?_⟩
      rw [← show db'.heldBy a = db.heldBy a from congrArg RunView.held hview]
      exact hleft
    by_cases hrun : a = changed
    · subst hrun
      rcases hchanged with hview | hstep
      · exact .inl (hunchanged hview)
      · exact hstep.granted (hvalid.views a) hA hactiveA hleft
    · exact .inl (hunchanged (hothers a hrun))
  rcases hbefore with ⟨row,hrow,hactive,hheld⟩ | hfits
  · exact hexclusive a b row rowB hab hrow hactive hB hactiveB left right holdA holdB hheld hright hoverlap
  · exact hfits b rowB hab.symm hB hactiveB right holdB hright hoverlap

theorem Move.exclusive {sha : Sha}
    (h : Move sha resources kind db db') (hvalid : db.RunsValid) (hexclusive : db.Exclusive resources) :
    db'.Exclusive resources := by
  intro a b rowA rowB hab hA hactiveA hB hactiveB left right holdA holdB hleft hright hoverlap
  obtain ⟨changed,hothers,_⟩ := h.views
  -- at most one of the two runs is the one that changed
  by_cases hb : b = changed
  · rw [modesConflict_comm]
    rw [overlaps_comm] at hoverlap
    exact h.exclusive_of_ne hvalid hexclusive hab.symm hB hactiveB (hothers a (hb ▸ hab)) hA hactiveA hright hleft
      hoverlap
  · exact h.exclusive_of_ne hvalid hexclusive hab hA hactiveA (hothers b hb) hB hactiveB hleft hright hoverlap

theorem exclusive_of_reach {E : Env} {K : Contracts}
    (h : Reach (step E K) (fun _ op => op.planned resources) (Db.fresh E.sha) db) : db.Exclusive resources := by
  have hfresh : (Db.fresh E.sha).Exclusive resources := by
    intro a b rowA rowB _ hA
    simp [Db.fresh] at hA
  have hmove : ∀ kind db db', Move E.sha resources kind db db' →
      db.RunsValid ∧ db.Exclusive resources → db'.RunsValid ∧ db'.Exclusive resources :=
    fun _ _ _ hmove hinv => ⟨hinv.1.move hmove,hmove.exclusive hinv.1 hinv.2⟩
  have hboth := Reach.invariant (P := fun db => db.RunsValid ∧ db.Exclusive resources)
    ⟨Db.RunsValid.fresh E.sha,hfresh⟩ (fun _ _ hinv hop => step_invariant hmove hinv hop) h
  exact hboth.2

/-- On an acyclic resource tree two active runs share a resource, or a resource and one below it, only
in the modes that go together. -/
theorem active_runs_compatible {E : Env} {K : Contracts} {resources : Resources}
    (hacyclic : Forest.Acyclic (parentOf resources)) {db : Db}
    (h : Reach (step E K) (fun _ op => op.planned resources) (Db.fresh E.sha) db) {a b : String}
    {rowA rowB : RunRow} (hab : a ≠ b) (hA : db.runs[a]? = some rowA) (hactiveA : rowA.state.active = true)
    (hB : db.runs[b]? = some rowB) (hactiveB : rowB.state.active = true) {left right : String} {holdA holdB : Hold}
    (hleft : (db.heldBy a)[left]? = some holdA) (hright : (db.heldBy b)[right]? = some holdB)
    (hoverlap : Overlap resources left right) :
    modesConflict holdA.mode holdB.mode = false ∧
      ((holdA.mode = .read ∧ holdB.mode = .read) ∨ (holdA.mode = .capacity ∧ holdB.mode = .capacity) ∨
        (holdA.mode = .read ∧ holdB.mode = .capacity) ∨ (holdA.mode = .capacity ∧ holdB.mode = .read)) := by
  have hmodes := exclusive_of_reach h a b rowA rowB hab hA hactiveA hB hactiveB left right holdA holdB hleft hright
    ((overlaps_iff hacyclic left right).mpr hoverlap)
  exact ⟨hmodes,(modesConflict_eq_false_iff holdA.claimable holdB.claimable).mp hmodes⟩

/-- A step of a lock manager: locks are given up, or one holder takes such as go with those of all others. -/
inductive LockStep {ι κ : Type} (compatible : κ → κ → Prop) (held held' : ι → Set κ) : Prop
  | release (less : held' ≤ held)
  | grant (i : ι) (others : ∀ j, j ≠ i → held' j = held j)
      (fits : ∀ lock ∈ held' i, lock ∈ held i ∨ ∀ j, j ≠ i → ∀ other ∈ held j, compatible lock other)

def RunView.locks (v : RunView) : Set (String × Mode) :=
  {lock | ∃ row hold, v.row = some row ∧ row.state.active = true ∧ v.held[lock.1]? = some hold ∧ hold.mode = lock.2}

def Db.locks (db : Db) (runId : String) : Set (String × Mode) := (db.view runId).locks

def Compatible (resources : Resources) (a b : String × Mode) : Prop :=
  overlaps a.1 b.1 resources = true → modesConflict a.2 b.2 = false

theorem Move.lockStep {sha : Sha} (h : Move sha resources kind db db') (hvalid : db.RunsValid) :
    LockStep (Compatible resources) db.locks db'.locks := by
  obtain ⟨changed,hothers,hchanged⟩ := h.views
  refine .grant changed (fun other hother => congrArg RunView.locks (hothers other hother)) ?_
  rintro ⟨resource,_⟩ ⟨row,hold,hrow,hactive,hheld,rfl⟩
  rcases hchanged with hview | hstep
  · rw [hview] at hrow hheld
    exact .inl ⟨row,hold,hrow,hactive,hheld,rfl⟩
  · refine (hstep.granted (hvalid.views changed) hrow hactive hheld).imp ?_ ?_
    · rintro ⟨before,hbefore,hwas,hkept⟩
      exact ⟨before,hold,hbefore,hwas,hkept,rfl⟩
    · rintro hfits other hother ⟨right,_⟩ ⟨rowB,holdB,hB,hactiveB,hright,rfl⟩
      exact hfits other rowB hother hB hactiveB right holdB hright

theorem RunStep.locks_le {runId : String} {v v' : RunView} (h : RunStep resources db runId kind v v')
    (hkind : kind = .plain ∨ kind = .publish) : v'.locks ≤ v.locks := by
  rintro lock ⟨row',hold,hrow',hactive,hheld⟩
  cases h with
  | idle => exact ⟨row',hold,hrow',hactive,hheld⟩
  | @update row _ _ _ _ identity state =>
    cases hrow'
    exact ⟨row,hold,rfl,state.elim (· ▸ hactive) And.left,hheld⟩
  | finish => simp at hheld
  | _ => simp at hkind

theorem Routine.locks_le {sha : Sha} {publishes : Bool} (h : Routine sha resources publishes db db') :
    db'.locks ≤ db.locks := by
  intro runId
  obtain ⟨_,hmove,hkind⟩ := h
  obtain ⟨changed,hothers,hchanged⟩ := hmove.views
  by_cases hrun : runId = changed
  · subst hrun
    rcases hchanged with hview | hstep
    · exact (congrArg RunView.locks hview).le
    · exact hstep.locks_le (hkind.imp_right And.right)
  · exact (congrArg RunView.locks (hothers runId hrun)).le

/-- The store refines a lock manager: in every state it reaches, a transaction is one of its steps. -/
theorem transaction_lock_step {E : Env} {K : Contracts} {op : Op}
    (h : Reach (step E K) (fun _ _ => True) (Db.fresh E.sha) db) (hop : op.planned resources) :
    LockStep (Compatible resources) db.locks (step E K db op).locks := by
  refine commit_preserves (P := fun db' : Db => LockStep _ db.locks db'.locks) (.release le_rfl) fun db' hdb' => ?_
  rcases apply_moves hop hdb' with hmove | hroutines
  · exact hmove.lockStep (runsValid_of_reach h)
  · refine .release ?_
    clear hdb'
    induction hroutines with
    | refl => exact le_rfl
    | tail _ hlast ih => exact hlast.locks_le.trans ih

namespace Sample

def tree : Resources :=
  Std.ExtTreeMap.ofList [("docs",{ repository "docs" with parent := some "repo.a" }),("repo.a",repository "repo.a")]

theorem acyclic_tree : Forest.Acyclic (parentOf tree) := by
  refine Forest.acyclic_of_depth (fun id => if id = "docs" then 1 else 0) fun a b hedge => ?_
  cases hget : tree[a]? with
  | none => simp [parentOf,hget] at hedge
  | some resource =>
    have hmem := (Tables.get_ofList (by decide) a resource).mp hget
    simp only [List.mem_cons,Prod.mk.injEq,List.not_mem_nil,or_false] at hmem
    rcases hmem with ⟨rfl,rfl⟩ | ⟨rfl,rfl⟩
    · have hb : "repo.a" = b ∧ ¬ b = "" := by simpa [parentOf,hget] using hedge
      simp [← hb.1]
    · simp [parentOf,hget,repository] at hedge

def reader (id resource : String) : Task :=
  { task with id := id, claims := [⟨resource,.read,1,"none",Mode.read_claimable⟩] }

def readers : Dispatcher where
  registry := { files with
    resources := tree
    tasks := Std.ExtTreeMap.ofList [("T-1",reader "T-1" "repo.a"),("T-2",reader "T-2" "docs")] }
  authority := .legacyGitBootstrap
  revisions := ∅

def read : List Op :=
  [.registerWorker 1 "first" "codex" [],.registerWorker 1 "second" "codex" [],
    .claimNext readers ⟨readers.registry,observed,2,"RUN-1",.null⟩ "first" none,
    .claimNext readers ⟨readers.registry,observed,3,"RUN-2",.null⟩ "second" none]

def reading : Db := run (step env contracts) (Db.fresh env.sha) read

end Sample

theorem active_runs_compatible_readers :
    ((Sample.reading.heldBy "RUN-1")["repo.a"]?).map (·.mode) = some .read ∧
      ((Sample.reading.heldBy "RUN-2")["docs"]?).map (·.mode) = some .read ∧
      modesConflict .read .read = false := by
  have hruns : (Sample.reading.runs["RUN-1"]?).any (·.state.active) = true ∧
      (Sample.reading.runs["RUN-2"]?).any (·.state.active) = true ∧
      ((Sample.reading.heldBy "RUN-1")["repo.a"]?).map (·.mode) = some .read ∧
      ((Sample.reading.heldBy "RUN-2")["docs"]?).map (·.mode) = some .read := by decide +kernel
  have hreach : Reach (step Sample.env Sample.contracts) (fun _ op => op.planned Sample.tree)
      (Db.fresh Sample.env.sha) Sample.reading := by
    refine Reach.run ?_
    intro op hop db r hr
    simp only [Sample.read,List.mem_cons,List.not_mem_nil,or_false] at hop
    rcases hop with rfl | rfl | rfl | rfl <;> cases hr <;> rfl
  obtain ⟨hfirst,hsecond,hleft,hright⟩ := hruns
  obtain ⟨rowA,hA,hactiveA⟩ := (Option.any_eq_true ..).mp hfirst
  obtain ⟨rowB,hB,hactiveB⟩ := (Option.any_eq_true ..).mp hsecond
  obtain ⟨holdA,hholdA,hmodeA⟩ := Option.map_eq_some_iff.mp hleft
  obtain ⟨holdB,hholdB,hmodeB⟩ := Option.map_eq_some_iff.mp hright
  have hparent : parentOf Sample.tree "docs" = some "repo.a" := by decide +kernel
  have hmodes := (active_runs_compatible Sample.acyclic_tree hreach (by decide) hA hactiveA hB hactiveB hholdA hholdB
    (.inr (.inl (.single hparent)))).1
  rw [hmodeA,hmodeB] at hmodes
  exact ⟨hleft,hright,hmodes⟩

theorem transaction_lock_step_expand : LockStep (Compatible Sample.tree) Sample.reading.locks
    (step Sample.env Sample.contracts Sample.reading
      (.expandClaim Sample.readers 4 "RUN-1" ⟨"docs",.read,1,"none",Mode.read_claimable⟩ "")).locks :=
  transaction_lock_step (Reach.run fun _ _ _ => trivial) fun _ hr => (Option.some.inj hr).symm

end Bureau
