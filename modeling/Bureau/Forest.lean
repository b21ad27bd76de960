import Mathlib

/-!
Parent chains in a forest given by a partial parent function. `climb` walks a chain
with a list of visited nodes. `Walk` is the same walk round by round: on a finite forest it
ends, also where parents form a cycle, and what it lists is the parent chain of its start.
-/

namespace Forest

variable {α : Type*}

/-- `b` lies above `a`: it is reached from `a` by at least one parent edge. -/
def Above (parent : α → Option α) : α → α → Prop :=
  Relation.TransGen fun a b => parent a = some b

def Acyclic (parent : α → Option α) : Prop :=
  ∀ a, ¬ Above parent a a

def up (parent : α → Option α) : ℕ → α → Option α
  | 0, a => some a
  | n+1, a => (parent a).bind (up parent n)

theorem up_add (parent : α → Option α) (m n : ℕ) (a : α) :
    up parent (m+n) a = (up parent m a).bind (up parent n) := by
  induction m generalizing a with
  | zero => simp [up]
  | succ m ih =>
    rw [Nat.succ_add]
    cases h : parent a with
    | none => simp [up,h]
    | some b => simp [up,h,ih]

theorem above_of_up {parent : α → Option α} {n : ℕ} {a b : α} (h : up parent (n+1) a = some b) :
    Above parent a b := by
  induction n generalizing a with
  | zero =>
    cases hp : parent a with
    | none => simp [up,hp] at h
    | some c =>
      have hc : c = b := by simpa [up,hp] using h
      exact Relation.TransGen.single (hc ▸ hp)
  | succ n ih =>
    cases hp : parent a with
    | none => simp [up,hp] at h
    | some c =>
      have hc : up parent (n+1) c = some b := by
        rw [up,hp] at h
        exact h
      exact Relation.TransGen.head hp (ih hc)

theorem above_iff_up {parent : α → Option α} {a b : α} :
    Above parent a b ↔ ∃ n, up parent (n+1) a = some b := by
  constructor
  · intro h
    induction h with
    | single h => exact ⟨0,by simp [up,h]⟩
    | tail _ h ih =>
      obtain ⟨n,hn⟩ := ih
      refine ⟨n+1,?_⟩
      rw [up_add parent (n+1) 1 a,hn]
      simp [up,h]
  · rintro ⟨n,h⟩
    exact above_of_up h

theorem acyclic_of_depth {parent : α → Option α} (depth : α → ℕ)
    (h : ∀ a b, parent a = some b → depth b < depth a) : Acyclic parent := by
  have hbelow : ∀ {a b}, Above parent a b → depth b < depth a := by
    intro a b hab
    induction hab with
    | single hedge => exact h _ _ hedge
    | tail _ hedge ih => exact Nat.lt_trans (h _ _ hedge) ih
  intro a hloop
  exact Nat.lt_irrefl _ (hbelow hloop)

theorem up_injective {parent : α → Option α} (hac : Acyclic parent) {a x : α} {i j : ℕ}
    (hi : up parent i a = some x) (hj : up parent j a = some x) : i = j := by
  have key : ∀ {i j : ℕ}, i < j → up parent i a = some x → up parent j a = some x → False := by
    intro i j hij hi hj
    obtain ⟨d,rfl⟩ : ∃ d, j = i+(d+1) := ⟨j-i-1,by omega⟩
    rw [up_add,hi] at hj
    exact hac x (above_of_up hj)
  rcases Nat.lt_trichotomy i j with h | h | h
  · exact (key h hi hj).elim
  · exact h
  · exact (key h hj hi).elim

theorem up_succ_eq (parent : α → Option α) (n : ℕ) (a : α) : up parent (n+1) a = (up parent n a).bind parent := by
  rw [up_add parent n 1 a]
  congr 1
  funext b
  cases hb : parent b <;> simp [up,hb]

variable [DecidableEq α]

/-- Walk up the parent chain, stopping at a node that was already visited. -/
def climb (parent : α → Option α) : ℕ → List α → α → List α
  | 0, _, _ => []
  | fuel+1, seen, a =>
    match parent a with
    | none => []
    | some p => if p ∈ seen then [] else p :: climb parent fuel (p :: seen) p

/-- The walk with the nodes it has listed, which are also those it has seen, and the node it stands on. -/
structure Walk (α : Type*) where
  listed : List α
  node : α

def Walk.next (parent : α → Option α) (w : Walk α) : Option (Walk α) :=
  match parent w.node with
  | none => none
  | some p => if p ∈ w.listed then none else some ⟨w.listed ++ [p],p⟩

inductive Rounds (parent : α → Option α) : Walk α → ℕ → Walk α → Prop
  | refl (w) : Rounds parent w 0 w
  | succ {w v u n} : w.next parent = some v → Rounds parent v n u → Rounds parent w (n+1) u

def OnPath (parent : α → Option α) (a b : α) : Prop := ∃ n, up parent n a = some b

structure Walk.Follows (parent : α → Option α) (start : α) (w : Walk α) : Prop where
  listed : ∀ n < w.listed.length, w.listed[n]? = up parent (n+1) start
  node : up parent w.listed.length start = some w.node
  nodup : w.listed.Nodup

section

variable {parent : α → Option α} {start : α} {w v : Walk α}

theorem Walk.next_eq_some : w.next parent = some v ↔
    ∃ p, parent w.node = some p ∧ p ∉ w.listed ∧ v = ⟨w.listed ++ [p],p⟩ := by
  unfold Walk.next
  cases hparent : parent w.node with
  | none => simp
  | some p =>
    by_cases hseen : p ∈ w.listed
    · simp [hseen]
    · simp [hseen,eq_comm]

theorem Walk.next_eq_none : w.next parent = none ↔ ∀ p, parent w.node = some p → p ∈ w.listed := by
  unfold Walk.next
  cases hparent : parent w.node with
  | none => simp
  | some p => simp

omit [DecidableEq α] in
theorem Walk.follows_start (parent : α → Option α) (a : α) : Walk.Follows parent a ⟨[],a⟩ :=
  ⟨fun n hn => absurd hn (Nat.not_lt_zero n),rfl,List.nodup_nil⟩

theorem Walk.Follows.step (h : w.Follows parent start) (hnext : w.next parent = some v) : v.Follows parent start := by
  obtain ⟨p,hparent,hnew,rfl⟩ := Walk.next_eq_some.mp hnext
  have hup : up parent (w.listed.length+1) start = some p := by
    rw [up_succ_eq,h.node]
    exact hparent
  refine ⟨fun n hn => ?_,?_,?_⟩
  · rw [List.length_append,List.length_singleton] at hn
    by_cases hold : n < w.listed.length
    · rw [List.getElem?_append_left hold,h.listed n hold]
    · have hlast : n = w.listed.length := by omega
      rw [hlast,List.getElem?_concat_length,hup]
  · rw [List.length_append,List.length_singleton,hup]
  · exact List.nodup_append.mpr ⟨h.nodup,List.nodup_singleton p,fun a ha b hb heq => by
      rw [List.mem_singleton.mp hb] at heq
      exact hnew (heq ▸ ha)⟩

theorem Walk.Follows.run {n : ℕ} (h : w.Follows parent start) (hrun : Rounds parent w n v) :
    v.Follows parent start := by
  induction hrun with
  | refl => exact h
  | succ hnext _ ih => exact ih (h.step hnext)

omit [DecidableEq α] in
theorem Walk.Follows.length_le {keys : List α} (h : w.Follows parent start) (hkeys : ∀ a, parent a ≠ none → a ∈ keys) :
    w.listed.length ≤ keys.length+1 := by
  have hsub : w.listed.dropLast ⊆ keys := by
    intro a ha
    obtain ⟨n,hn,hget⟩ := List.getElem_of_mem ha
    rw [List.length_dropLast] at hn
    rw [List.getElem_dropLast] at hget
    have hup := h.listed n (by omega)
    have hnext := h.listed (n+1) (by omega)
    rw [List.getElem?_eq_getElem (by omega),hget] at hup
    rw [up_succ_eq,← hup,Option.bind_some] at hnext
    refine hkeys a fun hnone => ?_
    rw [hnone,List.getElem?_eq_none_iff] at hnext
    omega
  have hlength := ((h.nodup.sublist (List.dropLast_sublist _)).subperm hsub).length_le
  rw [List.length_dropLast] at hlength
  omega

theorem exists_rounds_end {keys : List α} (hkeys : ∀ a, parent a ≠ none → a ∈ keys) (h : w.Follows parent start) :
    ∃ n v, Rounds parent w n v ∧ v.next parent = none ∧ w.listed.length+n ≤ keys.length+1 := by
  induction hleft : keys.length+1-w.listed.length generalizing w with
  | zero =>
    have hle := h.length_le hkeys
    cases hnext : w.next parent with
    | none => exact ⟨0,w,.refl w,hnext,by omega⟩
    | some v =>
      have hlonger := (h.step hnext).length_le hkeys
      obtain ⟨p,_,_,rfl⟩ := Walk.next_eq_some.mp hnext
      rw [List.length_append,List.length_singleton] at hlonger
      omega
  | succ left ih =>
    cases hnext : w.next parent with
    | none => exact ⟨0,w,.refl w,hnext,by omega⟩
    | some v =>
      have hlength : v.listed.length = w.listed.length+1 := by
        obtain ⟨p,_,_,rfl⟩ := Walk.next_eq_some.mp hnext
        rw [List.length_append,List.length_singleton]
      obtain ⟨n,u,hrun,hend,hle⟩ := ih (h.step hnext) (by omega)
      exact ⟨n+1,u,.succ hnext hrun,hend,by omega⟩

theorem Rounds.listed_eq {n fuel : ℕ} {seen : List α} (hrun : Rounds parent w n v) (hend : v.next parent = none)
    (hfuel : n ≤ fuel) (hseen : ∀ a, a ∈ seen ↔ a ∈ w.listed) :
    v.listed = w.listed ++ climb parent fuel seen w.node := by
  induction hrun generalizing fuel seen with
  | refl w =>
    have hnil : climb parent fuel seen w.node = [] := by
      cases fuel with
      | zero => rfl
      | succ fuel =>
        rw [climb]
        cases hparent : parent w.node with
        | none => rfl
        | some p =>
          have hmem := (hseen p).mpr (Walk.next_eq_none.mp hend p hparent)
          simp [hmem]
    rw [hnil,List.append_nil]
  | @succ w v u n hnext hrun ih =>
    obtain ⟨p,hparent,hnew,rfl⟩ := Walk.next_eq_some.mp hnext
    cases fuel with
    | zero => omega
    | succ fuel =>
      have hmem : p ∉ seen := fun h => hnew ((hseen p).mp h)
      have hboth : ∀ a, a ∈ p :: seen ↔ a ∈ w.listed ++ [p] := by
        intro a
        rw [List.mem_cons,List.mem_append,List.mem_singleton,hseen]
        exact or_comm
      rw [ih hend (Nat.le_of_succ_le_succ hfuel) hboth,climb,hparent,List.append_assoc]
      simp [hmem]

/-- Where the walk has ended, the parents of its nodes are listed, also that of the last one. -/
theorem Walk.Follows.mem_of_parent (h : w.Follows parent start) (hend : w.next parent = none) {n : ℕ} {a b : α}
    (hn : n ≤ w.listed.length) (ha : up parent n start = some a) (hb : parent a = some b) : b ∈ w.listed := by
  rcases Nat.lt_or_eq_of_le hn with hlt | rfl
  · have hget := h.listed n hlt
    rw [up_succ_eq,ha,Option.bind_some,hb] at hget
    exact List.mem_of_getElem? hget
  · rw [h.node] at ha
    cases ha
    exact Walk.next_eq_none.mp hend b hb

theorem Walk.Follows.mem_listed_iff (h : w.Follows parent start) (hend : w.next parent = none) (a : α) :
    a ∈ w.listed ↔ ∃ n, up parent (n+1) start = some a := by
  constructor
  · intro ha
    obtain ⟨n,hn,hget⟩ := List.getElem_of_mem ha
    refine ⟨n,?_⟩
    rw [← h.listed n hn,List.getElem?_eq_getElem hn,hget]
  · intro ⟨n,hn⟩
    induction n generalizing a with
    | zero =>
      refine h.mem_of_parent hend (Nat.zero_le _) rfl ?_
      rwa [up_succ_eq] at hn
    | succ n ih =>
      rw [up_succ_eq,Option.bind_eq_some_iff] at hn
      obtain ⟨b,hb,hparent⟩ := hn
      obtain ⟨i,hi,hget⟩ := List.getElem_of_mem (ih b hb)
      refine h.mem_of_parent hend (Nat.succ_le_of_lt hi) ?_ hparent
      rw [← h.listed i hi,List.getElem?_eq_getElem hi,hget]

theorem Walk.Follows.getElem?_listed (h : w.Follows parent start) (hend : w.next parent = none)
    (hac : Acyclic parent) (n : ℕ) : w.listed[n]? = up parent (n+1) start := by
  by_cases hn : n < w.listed.length
  · exact h.listed n hn
  · rw [List.getElem?_eq_none (by omega)]
    cases hup : up parent (n+1) start with
    | none => rfl
    | some a =>
      obtain ⟨i,hi,hget⟩ := List.getElem_of_mem ((h.mem_listed_iff hend a).mpr ⟨n,hup⟩)
      have hlisted := h.listed i hi
      rw [List.getElem?_eq_getElem hi,hget] at hlisted
      have hsame := up_injective hac hlisted.symm hup
      omega

end

end Forest
