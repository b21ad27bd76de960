import Bureau.Transactions

/-!
The reference locks of the retention writers. A call opens its directories, drops those it has
open already, and locks the others in the order of their device and inode; whatever fails, it
closes all that it opened. Calls interleave at every system call.
-/

namespace Bureau.ReferenceLocks

open Transactions

abbrev Identity := ℕ ×ₗ ℕ

structure Record where
  descriptor : ℕ
  resolved : String
  identity : Identity
  deriving DecidableEq

def Record.key (r : Record) : Identity ×ₗ String := toLex (r.identity,r.resolved)

/-- Where a call of `reference_mutation_lock` stands, with what is left of its current loop. -/
inductive Stage where
  | opening (rest : List String)
  | locking (rest : List Record)
  | body
  | unlocking (rest : List Record)
  | closing (rest : List Record)
  | exited
  deriving DecidableEq

structure Call where
  stage : Stage
  opened : List Record := []
  acquired : List Record := []
  /-- The number of files opened so far, which names the next one. -/
  descriptors : ℕ := 0

inductive LockAction where
  | keep
  | take (r : Record)
  | release (r : Record)

/-- `_open_root`: the path and the identity of a root that is a directory. -/
abbrev Directories := String → Option (String × Identity)

def Call.unwind (c : Call) : Call := { c with stage := .unlocking c.acquired.reverse }

/-- The next step of a call. `fails` is the error of a system call, `locked` what blocks `flock`. -/
def Call.advance (directories : Directories) (locked : Identity → Bool) (fails : Bool) (c : Call) : Call × LockAction :=
  match c.stage with
  | .opening [] => ({ c with stage := .locking (c.opened.insertionSort fun a b => a.key ≤ b.key) },.keep)
  | .opening (root :: rest) =>
    match if fails then none else directories root with
    | none => (c.unwind,.keep)
    | some (resolved,identity) =>
      let kept := if c.opened.any (·.identity = identity) then [] else [⟨c.descriptors,resolved,identity⟩]
      ({ c with stage := .opening rest, opened := c.opened ++ kept, descriptors := c.descriptors+1 },.keep)
  | .locking [] => ({ c with stage := .body },.keep)
  | .locking (r :: rest) =>
    if fails then (c.unwind,.keep)
    else if locked r.identity then (c,.keep)
    else ({ c with stage := .locking rest, acquired := c.acquired ++ [r] },.take r)
  | .body => (c.unwind,.keep)
  | .unlocking [] => ({ c with stage := .closing c.opened.reverse },.keep)
  | .unlocking (r :: rest) => ({ c with stage := .unlocking rest },if fails then .keep else .release r)
  | .closing [] => ({ c with stage := .exited },.keep)
  | .closing (r :: rest) => ({ c with stage := .closing rest },.release r)
  | .exited => (c,.keep)

/-- The calls, and the open file that holds the lock of each directory, by its call and its number. -/
structure World (ι : Type) where
  calls : ι → Call
  holder : Identity → Option (ι × ℕ)

variable {ι : Type} [DecidableEq ι]

def LockAction.apply (i : ι) (holder : Identity → Option (ι × ℕ)) : LockAction → Identity → Option (ι × ℕ)
  | .keep => holder
  | .take r => Function.update holder r.identity (some (i,r.descriptor))
  | .release r => fun d => if holder d = some (i,r.descriptor) then none else holder d

def World.step (directories : Directories) (w : World ι) (input : ι × Bool) : World ι :=
  let (call,action) := (w.calls input.1).advance directories (fun d => (w.holder d).isSome) input.2
  ⟨Function.update w.calls input.1 call,action.apply input.1 w.holder⟩

def World.start (roots : ι → List String) : World ι := ⟨fun i => { stage := .opening (roots i) },fun _ => none⟩

def World.Holds (w : World ι) (i : ι) (d : Identity) : Prop := ∃ k, w.holder d = some (i,k)

def World.WaitsFor (w : World ι) (i j : ι) : Prop :=
  ∃ r rest, (w.calls i).stage = .locking (r :: rest) ∧ w.Holds j r.identity

def Call.mayHold (c : Call) : List Record :=
  match c.stage with
  | .closing rest => rest
  | .exited => []
  | _ => c.acquired

structure Call.Sound (c : Call) (locks : Identity → ℕ → Prop) : Prop where
  nodup : (c.opened.map (·.identity)).Nodup
  opened : ∀ r ∈ c.acquired, r ∈ c.opened
  held : ∀ d k, locks d k → ∃ r ∈ c.mayHold, r.descriptor = k ∧ r.identity = d
  stage : match c.stage with
    | .opening _ => c.acquired = []
    | .locking rest => (c.acquired ++ rest).Pairwise (·.identity < ·.identity) ∧
        (∀ r, r ∈ c.opened ↔ r ∈ c.acquired ++ rest) ∧ ∀ r ∈ c.acquired, locks r.identity r.descriptor
    | .body => ∀ r ∈ c.opened, locks r.identity r.descriptor
    | _ => True

def LockAction.after (locks : Identity → ℕ → Prop) : LockAction → Identity → ℕ → Prop
  | .keep => locks
  | .take r => fun d k => if d = r.identity then k = r.descriptor else locks d k
  | .release r => fun d k => locks d k ∧ k ≠ r.descriptor

theorem pairwise_insertionSort_key {records : List Record} (h : (records.map (·.identity)).Nodup) :
    (records.insertionSort fun a b => a.key ≤ b.key).Pairwise (·.identity < ·.identity) := by
  have hperm := List.perm_insertionSort (fun a b : Record => a.key ≤ b.key) records
  have hsorted := List.pairwise_insertionSort (fun a b : Record => a.key ≤ b.key) records
  have hdistinct := List.pairwise_map.mp ((hperm.map (·.identity)).nodup_iff.mpr h)
  refine (hsorted.and hdistinct).imp fun {a b} hab => ?_
  rcases Prod.Lex.le_iff.mp hab.1 with hlt | ⟨heq,_⟩
  · exact hlt
  · exact absurd heq hab.2

namespace Call.Sound

variable {c : Call} {locks : Identity → ℕ → Prop} {directories : Directories} {locked : Identity → Bool} {fails : Bool}

theorem unwind (h : c.Sound locks) (hmay : c.mayHold = c.acquired) : c.unwind.Sound locks := by
  have hheld := h.held
  rw [hmay] at hheld
  exact ⟨h.nodup,h.opened,hheld,trivial⟩

theorem advance (h : c.Sound locks) : (c.advance directories locked fails).1.Sound
    ((c.advance directories locked fails).2.after locks) := by
  obtain ⟨stage,opened,acquired,descriptors⟩ := c
  have hheld := h.held
  have hstage := h.stage
  cases stage with
  | opening roots =>
    obtain rfl : acquired = [] := hstage
    cases roots with
    | nil =>
      exact ⟨h.nodup,h.opened,hheld,pairwise_insertionSort_key h.nodup,
        fun r => (List.mem_insertionSort _).symm,nofun⟩
    | cons root rest =>
      simp only [Call.advance]
      split
      · exact h.unwind rfl
      next resolved identity _ =>
      refine ⟨?_,by simp,hheld,rfl⟩
      have hnodup := h.nodup
      simp only [List.map_append]
      split
      · simpa using hnodup
      next hnew =>
      refine hnodup.append (List.nodup_singleton _) ?_
      simpa [List.disjoint_singleton] using hnew
  | locking rest =>
    obtain ⟨hordered,hopened,hlocks⟩ := hstage
    cases rest with
    | nil =>
      refine ⟨h.nodup,h.opened,hheld,fun r hr => hlocks r ?_⟩
      simpa using (hopened r).mp hr
    | cons r rest =>
      simp only [Call.advance]
      split
      · exact h.unwind rfl
      split
      · exact h
      have hbefore : ∀ a ∈ acquired, a.identity < r.identity := fun a ha =>
        (List.pairwise_append.mp hordered).2.2 a ha r List.mem_cons_self
      refine ⟨h.nodup,?_,?_,?_,?_,?_⟩
      · intro a ha
        rcases List.mem_append.mp ha with ha | ha
        · exact h.opened a ha
        · exact (hopened a).mpr (by simp [List.mem_singleton.mp ha])
      · intro d k hlock
        by_cases hd : d = r.identity
        · have hk : k = r.descriptor := by simpa [LockAction.after,hd] using hlock
          exact ⟨r,by simp [mayHold],hk.symm,hd.symm⟩
        · obtain ⟨a,ha,hak⟩ := hheld d k (by simpa [LockAction.after,hd] using hlock)
          exact ⟨a,List.mem_append_left _ ha,hak⟩
      · simpa using hordered
      · simpa using hopened
      · intro a ha
        rcases List.mem_append.mp ha with ha | ha
        · simpa [LockAction.after,(hbefore a ha).ne] using hlocks a ha
        · simp [LockAction.after,List.mem_singleton.mp ha]
  | body => exact h.unwind rfl
  | unlocking rest =>
    cases rest with
    | nil =>
      refine ⟨h.nodup,h.opened,fun d k hlock => ?_,trivial⟩
      obtain ⟨r,hr,hrecord⟩ := hheld d k hlock
      exact ⟨r,List.mem_reverse.mpr (h.opened r hr),hrecord⟩
    | cons r rest =>
      refine ⟨h.nodup,h.opened,fun d k hlock => hheld d k ?_,trivial⟩
      cases fails with
      | true => exact hlock
      | false => exact hlock.1
  | closing rest =>
    cases rest with
    | nil => exact ⟨h.nodup,h.opened,hheld,trivial⟩
    | cons r rest =>
      refine ⟨h.nodup,h.opened,fun d k hlock => ?_,trivial⟩
      obtain ⟨a,ha,hk,hd⟩ := hheld d k hlock.1
      rcases List.mem_cons.mp ha with rfl | ha
      · exact absurd hk.symm hlock.2
      · exact ⟨a,ha,hk,hd⟩
  | exited => exact h

end Call.Sound

/-- The identity of the root is that of a directory the call has open. -/
def Call.HasOpen (c : Call) (directories : Directories) (root : String) : Prop :=
  ∃ resolved, ∃ r ∈ c.opened, directories root = some (resolved,r.identity)

def Call.Covers (c : Call) (directories : Directories) (roots : List String) : Prop :=
  match c.stage with
  | .opening rest => ∀ root ∈ roots, root ∈ rest ∨ c.HasOpen directories root
  | .locking _ | .body => ∀ root ∈ roots, c.HasOpen directories root
  | _ => True

theorem Call.Covers.advance {c : Call} {directories : Directories} {locked : Identity → Bool} {fails : Bool}
    {roots : List String} (h : c.Covers directories roots) :
    (c.advance directories locked fails).1.Covers directories roots := by
  obtain ⟨stage,opened,acquired,descriptors⟩ := c
  cases stage with
  | opening rest =>
    cases rest with
    | nil => exact fun root hroot => (h root hroot).resolve_left List.not_mem_nil
    | cons first rest =>
      simp only [Call.advance]
      split
      · trivial
      next resolved identity hfirst =>
      have hdirectory : directories first = some (resolved,identity) := by
        split at hfirst
        · cases hfirst
        · exact hfirst
      intro root hroot
      rcases h root hroot with hpending | ⟨path,r,hr,hopen⟩
      · rcases List.mem_cons.mp hpending with rfl | hpending
        · refine .inr ⟨resolved,?_⟩
          simp only [hdirectory]
          split
          next hany =>
            obtain ⟨r,hr,hidentity⟩ := List.any_eq_true.mp hany
            exact ⟨r,List.mem_append_left _ hr,by rw [of_decide_eq_true hidentity]⟩
          · exact ⟨_,List.mem_append_right _ (List.mem_singleton_self _),rfl⟩
        · exact .inl hpending
      · exact .inr ⟨path,r,List.mem_append_left _ hr,hopen⟩
  | locking rest =>
    cases rest with
    | nil => exact h
    | cons r rest =>
      simp only [Call.advance]
      split
      · trivial
      split
      · exact h
      · exact h
  | body => trivial
  | unlocking rest => cases rest <;> trivial
  | closing rest => cases rest <;> trivial
  | exited => trivial

theorem advance_take {c : Call} {directories : Directories} {locked : Identity → Bool} {fails : Bool} {r : Record}
    (h : (c.advance directories locked fails).2 = .take r) : locked r.identity = false := by
  obtain ⟨stage,opened,acquired,descriptors⟩ := c
  match stage with
  | .locking (first :: rest) =>
    simp only [Call.advance] at h
    split at h
    · cases h
    split at h
    · cases h
    next hfree =>
    obtain rfl := LockAction.take.inj h
    simpa using hfree
  | .opening (root :: rest) =>
    simp only [Call.advance] at h
    split at h <;> cases h
  | .unlocking (first :: rest) =>
    simp only [Call.advance] at h
    split at h <;> cases h
  | .opening [] | .locking [] | .body | .unlocking [] | .closing [] | .closing (_ :: _) | .exited => cases h

namespace LockAction

variable {i j : ι} {action : LockAction} {holder : Identity → Option (ι × ℕ)}

theorem apply_own : (fun d k => action.apply i holder d = some (i,k)) =
    action.after fun d k => holder d = some (i,k) := by
  funext d k
  cases action with
  | keep => rfl
  | take r => by_cases hd : d = r.identity <;> simp [apply,after,hd,eq_comm]
  | release r =>
    by_cases hheld : holder d = some (i,r.descriptor)
    · simp [apply,after,hheld,eq_comm]
    · simp only [apply,after,if_neg hheld,eq_iff_iff,iff_self_and]
      rintro hk rfl
      exact hheld hk

theorem apply_other (hne : j ≠ i) (hfree : ∀ r, action = .take r → holder r.identity = none) :
    (fun d k => action.apply i holder d = some (j,k)) = fun d k => holder d = some (j,k) := by
  funext d k
  cases action with
  | keep => rfl
  | take r => by_cases hd : d = r.identity <;> simp [apply,hd,hfree r rfl,hne.symm]
  | release r => by_cases hheld : holder d = some (i,r.descriptor) <;> simp [apply,hheld,hne.symm]

end LockAction

def World.Sound (w : World ι) : Prop := ∀ i, (w.calls i).Sound fun d k => w.holder d = some (i,k)

theorem World.Sound.step {w : World ι} {directories : Directories} (h : w.Sound) (input : ι × Bool) :
    (w.step directories input).Sound := by
  intro j
  simp only [World.step]
  by_cases hj : j = input.1
  · rw [hj,Function.update_self,LockAction.apply_own]
    exact (h input.1).advance
  · rw [Function.update_of_ne hj,LockAction.apply_other hj]
    · exact h j
    · intro r htake
      simpa using advance_take htake

theorem World.covers_step {w : World ι} {directories : Directories} {roots : ι → List String}
    (h : ∀ i, (w.calls i).Covers directories (roots i)) (input : ι × Bool) (j : ι) :
    ((w.step directories input).calls j).Covers directories (roots j) := by
  simp only [World.step]
  by_cases hj : j = input.1
  · rw [hj,Function.update_self]
    exact (h input.1).advance
  · rw [Function.update_of_ne hj]
    exact h j

omit [DecidableEq ι] in
theorem World.Sound.lt_of_waitsFor {w : World ι} {i j : ι} {r s : Record} {rest rest' : List Record} (h : w.Sound)
    (hwaits : w.WaitsFor i j) (hi : (w.calls i).stage = .locking (r :: rest))
    (hj : (w.calls j).stage = .locking (s :: rest')) : r.identity < s.identity := by
  obtain ⟨first,_,hfirst,k,hholds⟩ := hwaits
  obtain ⟨rfl,rfl⟩ : first = r ∧ _ := by simpa using hfirst.symm.trans hi
  obtain ⟨a,ha,_,hidentity⟩ := (h j).held _ k hholds
  have hstage := (h j).stage
  rw [hj] at hstage
  rw [Call.mayHold,hj] at ha
  rw [← hidentity]
  exact (List.pairwise_append.mp hstage.1).2.2 a ha s List.mem_cons_self

omit [DecidableEq ι] in
theorem World.Sound.lt_of_transGen {w : World ι} {i j : ι} (h : w.Sound) (hwaits : Relation.TransGen w.WaitsFor i j) :
    ∃ r rest, (w.calls i).stage = .locking (r :: rest) ∧
      ∀ s rest', (w.calls j).stage = .locking (s :: rest') → r.identity < s.identity := by
  induction hwaits with
  | single hwaits =>
    obtain ⟨r,rest,hi,_⟩ := id hwaits
    exact ⟨r,rest,hi,fun s rest' hj => h.lt_of_waitsFor hwaits hi hj⟩
  | tail _ hwaits ih =>
    obtain ⟨r,rest,hi,hlt⟩ := ih
    obtain ⟨s,rest',hj,_⟩ := id hwaits
    exact ⟨r,rest,hi,fun t rest'' hk => (hlt s rest' hj).trans (h.lt_of_waitsFor hwaits hj hk)⟩

/-- In every interleaving of the calls no calls wait for each other in a circle, no directory has two
holders, a call in its body holds all it has opened, which is every one of its roots, and one that is
over holds nothing. -/
theorem reference_locks_safe {directories : Directories} {roots : ι → List String} {w : World ι}
    (h : Reach (World.step directories) (fun _ _ => True) (World.start roots) w) :
    (∀ i, ¬Relation.TransGen w.WaitsFor i i) ∧ (∀ i j d, w.Holds i d → w.Holds j d → i = j) ∧
      (∀ i, (w.calls i).stage = .body → (∀ r ∈ (w.calls i).opened, w.Holds i r.identity) ∧
        ∀ root ∈ roots i, ∃ resolved d, directories root = some (resolved,d) ∧ w.Holds i d) ∧
      ∀ i, (w.calls i).stage = .exited → ∀ d, ¬w.Holds i d := by
  have hsound : w.Sound := by
    refine Reach.invariant (P := World.Sound) (fun i => ?_) (fun _ input hw _ => hw.step input) h
    exact ⟨List.nodup_nil,nofun,nofun,rfl⟩
  have hcovers : ∀ i, (w.calls i).Covers directories (roots i) :=
    Reach.invariant (P := fun w => ∀ i, (w.calls i).Covers directories (roots i)) (fun _ _ => .inl)
      (fun _ input hw _ => World.covers_step hw input) h
  refine ⟨fun i hcircle => ?_,fun i j d hi hj => ?_,fun i hbody => ?_,fun i hexited d hholds => ?_⟩
  · obtain ⟨r,rest,hi,hlt⟩ := hsound.lt_of_transGen hcircle
    exact lt_irrefl _ (hlt r rest hi)
  · obtain ⟨_,hi⟩ := hi
    obtain ⟨_,hj⟩ := hj
    exact congrArg Prod.fst (Option.some.inj (hi.symm.trans hj))
  · have hstage := (hsound i).stage
    have hroots := hcovers i
    rw [hbody] at hstage
    rw [Call.Covers,hbody] at hroots
    refine ⟨fun r hr => ⟨_,hstage r hr⟩,fun root hroot => ?_⟩
    obtain ⟨resolved,r,hr,hdirectory⟩ := hroots root hroot
    exact ⟨resolved,r.identity,hdirectory,_,hstage r hr⟩
  · obtain ⟨k,hholds⟩ := hholds
    obtain ⟨r,hr,_⟩ := (hsound i).held d k hholds
    rw [Call.mayHold,hexited] at hr
    cases hr

/-- Two calls over two directories under four paths. The second one waits for the first. -/
theorem reference_locks_safe_waiting :
    let directories : Directories := fun root =>
      if root = "a" ∨ root = "b/../a" then some ("a",toLex (1,1)) else some ("b",toLex (1,2))
    let roots : Bool → List String := fun second => if second then ["b/../a","c"] else ["b","a","b"]
    let w := run (World.step directories) (World.start roots)
      ([false,false,false,false,false,true,true,true,true].map (·,false))
    w.WaitsFor true false ∧ ¬Relation.TransGen w.WaitsFor true true := by
  intro directories roots w
  refine ⟨⟨⟨0,"a",toLex (1,1)⟩,[⟨1,"b",toLex (1,2)⟩],by decide,1,by decide⟩,?_⟩
  exact (reference_locks_safe (Reach.run fun _ _ _ => trivial)).1 true

end Bureau.ReferenceLocks
