import Bureau.Transactions

/-!
A database connection in autocommit mode. A statement takes effect at once unless a
transaction is open; a failing call rolls an open transaction back. Statements that only add
what is missing undo nothing, so a failing call leaves the database as it was exactly if it
fails before its first addition.
-/

namespace Autocommit

variable {S D ε : Type}

/-- The committed database, and the one an open transaction works on. -/
structure Connection (D : Type) where
  disk : D
  pending : Option D

/-- The calls of a client. A script is a commit followed by its statements. -/
inductive Step (S : Type) where
  | begin
  | commit
  | statement (s : S)
  deriving DecidableEq

def Step.Done (done : S → D → Prop) : Step S → D → Prop
  | .statement s, d => done s d
  | _, _ => True

/-- The semantics of the statements, the calls that fail for a reason outside the database, and
the error of a transaction in a transaction. -/
structure Engine (S D ε : Type) where
  exec : S → D → Except ε D
  fails : Step S → Option ε
  nested : ε

namespace Connection

def rollback (c : Connection D) : Connection D :=
  ⟨c.disk,none⟩

end Connection

namespace Engine

variable (M : Engine S D ε)

def perform : Step S → Connection D → Except ε (Connection D)
  | .begin, ⟨disk,none⟩ => .ok ⟨disk,some disk⟩
  | .begin, ⟨_,some _⟩ => .error M.nested
  | .commit, ⟨disk,pending⟩ => .ok ⟨pending.getD disk,none⟩
  | .statement s, ⟨disk,none⟩ => (M.exec s disk).map (⟨·,none⟩)
  | .statement s, ⟨disk,some d⟩ => (M.exec s d).map (⟨disk,some ·⟩)

def attempt (step : Step S) (c : Connection D) : Except ε (Connection D) :=
  match M.fails step with
  | some e => .error e
  | none => M.perform step c

/-- The calls in order, up to the first that raises; the handler then rolls back. -/
def run : List (Step S) → Connection D → Option ε × Connection D
  | [], c => (none,c)
  | step :: rest, c =>
    match M.attempt step c with
    | .error e => (some e,c.rollback)
    | .ok c' => run rest c'

def Raises (step : Step S) (d : D) : Prop :=
  ∃ e, M.attempt step ⟨d,none⟩ = .error e

/-- Every call whose addition is still missing raises, or comes after one that raises. -/
def RaisesFirst (done : S → D → Prop) (steps : List (Step S)) (d : D) : Prop :=
  ∀ before step after, steps = before ++ step :: after → ¬ step.Done done d → ∃ r ∈ before ++ [step], M.Raises r d

end Engine

def script (statements : List S) : List (Step S) :=
  .commit :: statements.map .statement

/-- No statement runs in an open transaction: what is begun is committed by the next call. -/
def flat : List (Step S) → Bool
  | [] => true
  | .begin :: .commit :: rest => flat rest
  | .begin :: _ => false
  | _ :: rest => flat rest

structure Additive (exec : S → D → Except ε D) (done : S → D → Prop) : Prop where
  idle : ∀ {s d d'}, done s d → exec s d = .ok d' → d' = d
  made : ∀ {s d d'}, exec s d = .ok d' → done s d'
  kept : ∀ {r s d d'}, exec s d = .ok d' → done r d → done r d'

section

variable {M : Engine S D ε} {done : S → D → Prop} {step : Step S} {rest : List (Step S)} {d d' : D}
  {c c' : Connection D}

theorem attempt_eq_ok : M.attempt step c = .ok c' ↔ M.fails step = none ∧ M.perform step c = .ok c' := by
  cases h : M.fails step <;> simp [Engine.attempt,h]

theorem attempt_statement {s : S} :
    M.attempt (.statement s) ⟨d,none⟩ = .ok c ↔
      M.fails (.statement s) = none ∧ ∃ d', M.exec s d = .ok d' ∧ ⟨d',none⟩ = c := by
  rw [attempt_eq_ok,Engine.perform,Transactions.map_eq_ok]

theorem attempt_commit : M.attempt .commit ⟨d,none⟩ = .ok c ↔ M.fails .commit = none ∧ ⟨d,none⟩ = c := by
  simp only [attempt_eq_ok,Engine.perform,Option.getD_none,Except.ok.injEq]

theorem run_begin_commit (M : Engine S D ε) (rest : List (Step S)) (d : D) :
    (∃ e, (M.Raises .begin d ∨ M.Raises .commit d) ∧ M.run (.begin :: .commit :: rest) ⟨d,none⟩ = (some e,⟨d,none⟩)) ∨
      ¬ M.Raises .begin d ∧ ¬ M.Raises .commit d ∧
        M.run (.begin :: .commit :: rest) ⟨d,none⟩ = M.run rest ⟨d,none⟩ := by
  cases hbegin : M.fails .begin with
  | some e =>
    have hraise : M.attempt .begin ⟨d,none⟩ = .error e := by simp [Engine.attempt,hbegin]
    exact .inl ⟨e,.inl ⟨e,hraise⟩,by simp [Engine.run,hraise,Connection.rollback]⟩
  | none =>
    cases hcommit : M.fails .commit with
    | some e =>
      have hraise (c : Connection D) : M.attempt .commit c = .error e := by simp [Engine.attempt,hcommit]
      exact .inl ⟨e,.inr ⟨e,hraise _⟩,by simp
        [Engine.run,Engine.attempt,Engine.perform,hbegin,hcommit,Connection.rollback]⟩
    | none =>
      exact .inr ⟨by simp [Engine.Raises,Engine.attempt,Engine.perform,hbegin],
        by simp [Engine.Raises,Engine.attempt,Engine.perform,hcommit],
        by simp [Engine.run,Engine.attempt,Engine.perform,hbegin,hcommit]⟩

theorem run_cons (M : Engine S D ε) (rest : List (Step S)) (d : D) (hstep : step ≠ .begin) :
    (∃ e, M.Raises step d ∧ M.run (step :: rest) ⟨d,none⟩ = (some e,⟨d,none⟩)) ∨
      ∃ d', ¬ M.Raises step d ∧ M.attempt step ⟨d,none⟩ = .ok ⟨d',none⟩ ∧
        M.run (step :: rest) ⟨d,none⟩ = M.run rest ⟨d',none⟩ := by
  cases h : M.attempt step ⟨d,none⟩ with
  | error e => exact .inl ⟨e,⟨e,h⟩,by simp [Engine.run,h,Connection.rollback]⟩
  | ok c =>
    have hraises : ¬ M.Raises step d := by simp [Engine.Raises,h]
    cases step with
    | begin => exact absurd rfl hstep
    | commit =>
      obtain ⟨_,rfl⟩ := attempt_commit.mp h
      exact .inr ⟨d,hraises,rfl,by simp [Engine.run,h]⟩
    | statement s =>
      obtain ⟨_,d',_,rfl⟩ := attempt_statement.mp h
      exact .inr ⟨d',hraises,rfl,by simp [Engine.run,h]⟩

theorem raisesFirst_cons : M.RaisesFirst done (step :: rest) d ↔
    M.Raises step d ∨ (step.Done done d ∧ M.RaisesFirst done rest d) := by
  constructor
  · intro h
    by_cases hraises : M.Raises step d
    · exact .inl hraises
    · refine .inr ⟨?_,fun before next after heq hmissing => ?_⟩
      · by_contra hmissing
        obtain ⟨r,hr,hraise⟩ := h [] step rest rfl hmissing
        exact hraises (List.mem_singleton.mp hr ▸ hraise)
      · obtain ⟨r,hr,hraise⟩ := h (step :: before) next after (by rw [heq]; rfl) hmissing
        rcases List.mem_cons.mp hr with rfl | hr
        · exact absurd hraise hraises
        · exact ⟨r,hr,hraise⟩
  · intro h before next after heq hmissing
    rcases List.cons_eq_append_iff.mp heq with ⟨rfl,hnext⟩ | ⟨before',rfl,hrest⟩
    · obtain ⟨rfl,rfl⟩ := List.cons.inj hnext
      rcases h with h | ⟨hdone,_⟩
      · exact ⟨next,List.mem_singleton_self _,h⟩
      · exact absurd hdone hmissing
    · rcases h with h | ⟨_,h⟩
      · exact ⟨step,by simp,h⟩
      · obtain ⟨r,hr,hraise⟩ := h before' next after hrest hmissing
        exact ⟨r,List.mem_cons_of_mem _ hr,hraise⟩

namespace Additive

theorem idle_attempt (hadd : Additive M.exec done) (hdone : step.Done done d)
    (h : M.attempt step ⟨d,none⟩ = .ok ⟨d',none⟩) : d' = d := by
  cases step with
  | begin => simp [attempt_eq_ok,Engine.perform] at h
  | commit => exact (congrArg Connection.disk (attempt_commit.mp h).2).symm
  | statement s =>
    obtain ⟨_,d'',hexec,heq⟩ := attempt_statement.mp h
    obtain rfl : d'' = d' := congrArg Connection.disk heq
    exact hadd.idle hdone hexec

theorem made_attempt (hadd : Additive M.exec done) (h : M.attempt step ⟨d,none⟩ = .ok ⟨d',none⟩) :
    step.Done done d' := by
  cases step with
  | begin => trivial
  | commit => trivial
  | statement s =>
    obtain ⟨_,d'',hexec,heq⟩ := attempt_statement.mp h
    obtain rfl : d'' = d' := congrArg Connection.disk heq
    exact hadd.made hexec

theorem kept_attempt (hadd : Additive M.exec done) {r : Step S} (h : M.attempt step ⟨d,none⟩ = .ok ⟨d',none⟩)
    (hr : r.Done done d) : r.Done done d' := by
  cases r with
  | begin => trivial
  | commit => trivial
  | statement r =>
    cases step with
    | begin => simp [attempt_eq_ok,Engine.perform] at h
    | commit =>
      obtain rfl : d = d' := congrArg Connection.disk (attempt_commit.mp h).2
      exact hr
    | statement s =>
      obtain ⟨_,d'',hexec,heq⟩ := attempt_statement.mp h
      obtain rfl : d'' = d' := congrArg Connection.disk heq
      exact hadd.kept hexec hr

theorem kept_run (hadd : Additive M.exec done) {r : Step S} {steps : List (Step S)} (hflat : flat steps = true)
    (hr : r.Done done d) : r.Done done (M.run steps ⟨d,none⟩).2.disk := by
  induction steps using flat.induct generalizing d with
  | case1 => exact hr
  | case2 rest ih =>
    rcases run_begin_commit M rest d with ⟨e,_,hrun⟩ | ⟨_,_,hrun⟩
    · exact hrun ▸ hr
    · exact hrun ▸ ih hflat hr
  | case3 rest hrest => simp [flat] at hflat
  | case4 step rest _ hstep ih =>
    rw [flat.eq_4 _ _ (by assumption) hstep] at hflat
    rcases run_cons M rest d hstep with ⟨e,_,hrun⟩ | ⟨d',_,hok,hrun⟩
    · exact hrun ▸ hr
    · exact hrun ▸ ih hflat (hadd.kept_attempt hok hr)

/-- A run that raises leaves the database as it was exactly if it raises before its first addition. -/
theorem unchanged_iff (hadd : Additive M.exec done) {steps : List (Step S)} (hflat : flat steps = true) {e : ε}
    {c : Connection D} (hrun : M.run steps ⟨d,none⟩ = (some e,c)) : c.disk = d ↔ M.RaisesFirst done steps d := by
  induction steps using flat.induct generalizing d with
  | case1 => simp [Engine.run] at hrun
  | case2 rest ih =>
    rw [raisesFirst_cons,raisesFirst_cons]
    rcases run_begin_commit M rest d with ⟨e',hraises,hstop⟩ | ⟨hbegin,hcommit,hgo⟩
    · obtain rfl := (Prod.mk.inj (hstop.symm.trans hrun)).2
      rcases hraises with h | h <;> simp [h,Step.Done]
    · rw [ih hflat (hgo.symm.trans hrun)]
      simp [hbegin,hcommit,Step.Done]
  | case3 rest hrest => simp [flat] at hflat
  | case4 step rest _ hstep ih =>
    rw [flat.eq_4 _ _ (by assumption) hstep] at hflat
    rw [raisesFirst_cons]
    rcases run_cons M rest d hstep with ⟨e',hraises,hstop⟩ | ⟨d',hraises,hok,hgo⟩
    · obtain rfl := (Prod.mk.inj (hstop.symm.trans hrun)).2
      simp [hraises]
    · by_cases hdone : step.Done done d
      · obtain rfl := hadd.idle_attempt hdone hok
        rw [ih hflat (hgo.symm.trans hrun)]
        simp [hraises,hdone]
      · -- what the call added is still there at the end
        have hkept := hadd.kept_run (M := M) hflat (hadd.made_attempt hok)
        rw [← hgo,hrun] at hkept
        have hchanged : c.disk ≠ d := fun heq => hdone (heq ▸ hkept)
        simp [hraises,hdone,hchanged]

end Additive

end

end Autocommit
