import Bureau.Transactions
import Std.Data.ExtTreeMap

/-!
Finite maps used as tables: counting rows, and replaying recorded changes. A change list
names keys with their new value, or with none where the row is gone. A list that records
the current value of every row that moved brings an older copy of the table up to date.
-/

namespace Tables

variable {K V : Type} [Ord K] [Std.TransOrd K] [Std.LawfulEqOrd K] [DecidableEq K]

theorem get_insert (t : Std.ExtTreeMap K V) (k a : K) (v : V) :
    (t.insert k v)[a]? = if a = k then some v else t[a]? := by
  rw [Std.ExtTreeMap.getElem?_insert]
  by_cases h : a = k
  · simp [h]
  · simp [h,Ne.symm h]

theorem get_erase (t : Std.ExtTreeMap K V) (k a : K) :
    (t.erase k)[a]? = if a = k then none else t[a]? := by
  rw [Std.ExtTreeMap.getElem?_erase]
  by_cases h : a = k
  · simp [h]
  · simp [h,Ne.symm h]

@[simp] theorem get_insert_self (t : Std.ExtTreeMap K V) (k : K) (v : V) :
    (t.insert k v)[k]? = some v := by
  rw [get_insert,if_pos rfl]

theorem get_insert_ne (t : Std.ExtTreeMap K V) {k a : K} (v : V) (h : a ≠ k) :
    (t.insert k v)[a]? = t[a]? := by
  rw [get_insert,if_neg h]

theorem get_ofList {rows : List (K × V)} (hkeys : (rows.map Prod.fst).Nodup) (k : K) (v : V) :
    (Std.ExtTreeMap.ofList rows)[k]? = some v ↔ (k,v) ∈ rows := by
  have hdistinct : rows.Pairwise fun a b => ¬ compare a.1 b.1 = .eq := by
    have hne : rows.Pairwise fun a b => a.1 ≠ b.1 := List.pairwise_map.mp hkeys
    exact hne.imp fun h => by simpa using h
  constructor
  · intro h
    by_contra hnot
    cases hfind : rows.find? (fun row => row.1 = k) with
    | none =>
      have hk : (rows.map Prod.fst).contains k = false := by
        simp only [List.find?_eq_none,decide_eq_true_eq] at hfind
        simpa using fun w hw => hfind (k,w) hw rfl
      rw [Std.ExtTreeMap.getElem?_ofList_of_contains_eq_false hk] at h
      simp at h
    | some row =>
      have hmem := List.mem_of_find?_eq_some hfind
      have hkey : row.1 = k := by simpa using List.find?_some hfind
      have hget : (Std.ExtTreeMap.ofList rows)[k]? = some row.2 :=
        Std.ExtTreeMap.getElem?_ofList_of_mem (by simp [hkey]) hdistinct hmem
      rw [hget] at h
      have hrow : row = (k,v) := Prod.ext hkey (Option.some.inj h)
      exact hnot (hrow ▸ hmem)
  · intro h
    exact Std.ExtTreeMap.getElem?_ofList_of_mem (by simp) hdistinct h

omit [DecidableEq K] in
theorem keys_nodup (t : Std.ExtTreeMap K V) : (t.toList.map Prod.fst).Nodup := by
  apply List.pairwise_map.mpr
  exact Std.ExtTreeMap.distinct_keys_toList.imp fun h => by simpa using h

omit [DecidableEq K] in
theorem filter_toList_eq_singleton {t : Std.ExtTreeMap K V} {p : K × V → Bool} {k : K} {v : V} (hk : t[k]? = some v)
    (hp : p (k,v) = true) (honly : ∀ k' v', t[k']? = some v' → p (k',v') = true → k' = k) :
    t.toList.filter p = [(k,v)] := by
  have hmem : (k,v) ∈ t.toList.filter p :=
    List.mem_filter.mpr ⟨Std.ExtTreeMap.mem_toList_iff_getElem?_eq_some.mpr hk,hp⟩
  have hall : ∀ row ∈ t.toList.filter p, row = (k,v) := by
    rintro ⟨k',v'⟩ hrow
    obtain ⟨hget,hp'⟩ := List.mem_filter.mp hrow
    have hget := Std.ExtTreeMap.mem_toList_iff_getElem?_eq_some.mp hget
    obtain rfl := honly k' v' hget hp'
    rw [Option.some.inj (hget.symm.trans hk)]
  have hnodup : (t.toList.filter p).Nodup := (List.Nodup.of_map Prod.fst (keys_nodup t)).filter p
  generalize t.toList.filter p = rows at hmem hall hnodup
  match rows with
  | [] => simp at hmem
  | [row] => rw [hall row List.mem_cons_self]
  | first :: second :: rest =>
    have hsame : first = second :=
      (hall first List.mem_cons_self).trans (hall second (List.mem_cons_of_mem _ List.mem_cons_self)).symm
    simp [hsame] at hnodup

def count (p : V → Bool) (t : Std.ExtTreeMap K V) : ℕ :=
  (t.filter fun _ v => p v).size

theorem filter_insert (p : V → Bool) (t : Std.ExtTreeMap K V) (k : K) (v : V) :
    (t.insert k v).filter (fun _ v => p v) =
      if p v then (t.filter fun _ v => p v).insert k v else (t.filter fun _ v => p v).erase k := by
  apply Std.ExtTreeMap.ext_getElem?
  intro a
  by_cases hv : p v <;> by_cases ha : a = k <;>
    simp [hv,ha,get_insert,get_erase]

omit [DecidableEq K] in
theorem contains_filter (p : V → Bool) (t : Std.ExtTreeMap K V) (k : K) :
    (t.filter fun _ v => p v).contains k = (t[k]?.any p) := by
  rw [Std.ExtTreeMap.contains_eq_isSome_getElem?,Std.ExtTreeMap.getElem?_filter']
  cases t[k]? with
  | none => rfl
  | some v => by_cases h : p v <;> simp [Option.filter,h]

theorem count_insert_new {p : V → Bool} {t : Std.ExtTreeMap K V} {k : K} (v : V) (h : t[k]? = none) :
    count p (t.insert k v) = count p t + if p v then 1 else 0 := by
  have hc : (t.filter fun _ v => p v).contains k = false := by
    rw [contains_filter,h]
    rfl
  rw [count,filter_insert,count]
  by_cases hv : p v
  · simp [hv,Std.ExtTreeMap.size_insert,hc]
  · simp [hv,Std.ExtTreeMap.size_erase,hc]

/-- Rewriting a row keeps the count where the condition reads the same on both versions. -/
theorem count_insert_same {p : V → Bool} {t : Std.ExtTreeMap K V} {k : K} {v w : V}
    (h : t[k]? = some w) (hp : p v = p w) : count p (t.insert k v) = count p t := by
  have hc : (t.filter fun _ v => p v).contains k = p w := by
    rw [contains_filter,h]
    rfl
  rw [count,filter_insert,count]
  by_cases hv : p v
  · simp [hv,Std.ExtTreeMap.size_insert,hc,← hp]
  · simp [hv,Std.ExtTreeMap.size_erase,hc,← hp]

def keys (t : Std.ExtTreeMap K V) : Finset K :=
  (t.toList.map Prod.fst).toFinset

@[simp] theorem mem_keys {t : Std.ExtTreeMap K V} {k : K} : k ∈ keys t ↔ ∃ v, t[k]? = some v := by
  rw [← Option.isSome_iff_exists]
  simp [keys]

theorem sum_toList (f : K → ℤ) (t : Std.ExtTreeMap K V) :
    (t.toList.map fun row => f row.1).sum = ∑ k ∈ keys t, f k := by
  rw [keys,List.sum_toFinset f (keys_nodup t),List.map_map]
  rfl

theorem sum_keys_split {t : Std.ExtTreeMap K V} {f : K → ℤ} {k : K} (h : t[k]? = none → f k = 0) :
    ∑ a ∈ keys t, f a = f k + ∑ a ∈ (keys t).erase k, f a := by
  by_cases hk : k ∈ keys t
  · rw [Finset.add_sum_erase _ f hk]
  · have hnone : t[k]? = none := by
      cases hget : t[k]? with
      | none => rfl
      | some v => exact absurd (mem_keys.mpr ⟨v,hget⟩) hk
    rw [Finset.erase_eq_of_notMem hk,h hnone,zero_add]

omit [Std.LawfulEqOrd K] in
theorem sum_keys_erase_congr {W : Type} {t : Std.ExtTreeMap K V} {u : Std.ExtTreeMap K W} {f g : K → ℤ} {k : K}
    (hkeys : ∀ a, a ≠ k → (a ∈ keys t ↔ a ∈ keys u)) (hrows : ∀ a, a ≠ k → f a = g a) :
    ∑ a ∈ (keys t).erase k, f a = ∑ a ∈ (keys u).erase k, g a := by
  have hsame : (keys t).erase k = (keys u).erase k := by
    ext a
    simp only [Finset.mem_erase]
    exact and_congr_right (hkeys a)
  rw [hsame]
  exact Finset.sum_congr rfl fun a ha => hrows a (Finset.ne_of_mem_erase ha)

def matching (p : V → Bool) (t : Std.ExtTreeMap K V) : Finset K :=
  (keys t).filter fun k => t[k]?.any p

@[simp] theorem mem_matching {p : V → Bool} {t : Std.ExtTreeMap K V} {k : K} :
    k ∈ matching p t ↔ ∃ v, t[k]? = some v ∧ p v = true := by
  simp only [matching,Finset.mem_filter,mem_keys,Option.any_eq_true]
  exact ⟨fun h => h.2,fun ⟨v,hv,hp⟩ => ⟨⟨v,hv⟩,v,hv,hp⟩⟩

theorem card_matching (p : V → Bool) (t : Std.ExtTreeMap K V) :
    (matching p t).card = (t.toList.filter fun row => p row.2).length := by
  have hnodup : ((t.toList.filter fun row => p row.2).map Prod.fst).Nodup :=
    (keys_nodup t).sublist (List.filter_sublist.map Prod.fst)
  have hkeys : matching p t = ((t.toList.filter fun row => p row.2).map Prod.fst).toFinset := by
    ext k
    simp [mem_matching,Std.ExtTreeMap.mem_toList_iff_getElem?_eq_some]
  rw [hkeys,List.toFinset_card_of_nodup hnodup,List.length_map]

def applyChange (t : Std.ExtTreeMap K V) (change : K × Option V) : Std.ExtTreeMap K V :=
  match change.2 with
  | some v => t.insert change.1 v
  | none => t.erase change.1

def applyChanges (t : Std.ExtTreeMap K V) (changes : List (K × Option V)) : Std.ExtTreeMap K V :=
  changes.foldl applyChange t

theorem get_applyChange (t : Std.ExtTreeMap K V) (change : K × Option V) (a : K) :
    (applyChange t change)[a]? = if a = change.1 then change.2 else t[a]? := by
  obtain ⟨k,v⟩ := change
  cases v with
  | none => exact get_erase t k a
  | some v => exact get_insert t k a v

/-- A change list that records the current rows of `u`, and names every key where `t` and `u`
differ, turns `t` into `u`. -/
theorem applyChanges_eq {t u : Std.ExtTreeMap K V} {changes : List (K × Option V)}
    (hrecords : ∀ change ∈ changes, u[change.1]? = change.2)
    (hcovers : ∀ k, t[k]? ≠ u[k]? → ∃ change ∈ changes, change.1 = k) :
    applyChanges t changes = u := by
  induction changes generalizing t with
  | nil =>
    apply Std.ExtTreeMap.ext_getElem?
    intro k
    by_contra hne
    obtain ⟨_,hmem,_⟩ := hcovers k hne
    simp at hmem
  | cons change rest ih =>
    have hrest : ∀ c ∈ rest, u[c.1]? = c.2 := fun c hc => hrecords c (List.mem_cons_of_mem _ hc)
    refine ih hrest ?_
    intro k hk
    rw [get_applyChange] at hk
    by_cases hkc : k = change.1
    · rw [if_pos hkc,hkc,hrecords change List.mem_cons_self] at hk
      exact absurd rfl hk
    · rw [if_neg hkc] at hk
      obtain ⟨c,hc,rfl⟩ := hcovers k hk
      rcases List.mem_cons.mp hc with rfl | hc
      · exact absurd rfl hkc
      · exact ⟨c,hc,rfl⟩

/-- Compute an optional row for every row, where each computation may fail. -/
def traverse {ε W : Type} (f : K → V → Except ε (Option W)) (t : Std.ExtTreeMap K V) :
    Except ε (Std.ExtTreeMap K W) := do
  let rows ← Transactions.collect (fun row : K × V => do return (row.1,← f row.1 row.2)) t.toList
  return (Std.ExtTreeMap.ofList rows).filterMap fun _ w => w

omit [Ord K] [Std.TransOrd K] [Std.LawfulEqOrd K] [DecidableEq K] in
theorem traverse_keys {ε W : Type} {f : K → V → Except ε (Option W)} {source : List (K × V)}
    {rows : List (K × Option W)}
    (h : Transactions.collect (fun row : K × V => do return (row.1,← f row.1 row.2)) source = .ok rows) :
    rows.map Prod.fst = source.map Prod.fst := by
  refine Transactions.map_eq_of_collect ?_ h
  intro row computed hrow
  simp only [Transactions.bind_eq_ok,Transactions.pure_eq_ok] at hrow
  obtain ⟨w,_,rfl⟩ := hrow
  rfl

omit [DecidableEq K] in
theorem traverse_total {ε W : Type} {f : K → V → Except ε (Option W)} {t : Std.ExtTreeMap K V}
    (h : ∀ k v, t[k]? = some v → ∃ w, f k v = .ok w) : ∃ u, traverse f t = .ok u := by
  have hrows : ∀ row ∈ t.toList, ∃ computed, (do return (row.1,← f row.1 row.2) : Except ε (K × Option W)) =
      .ok computed := by
    rintro ⟨k,v⟩ hrow
    obtain ⟨w,hw⟩ := h k v (Std.ExtTreeMap.mem_toList_iff_getElem?_eq_some.mp hrow)
    exact ⟨(k,w),by simp only [Transactions.bind_eq_ok,Transactions.pure_eq_ok]; exact ⟨w,hw,rfl⟩⟩
  obtain ⟨rows,hcollect⟩ := Transactions.collect_total hrows
  refine ⟨(Std.ExtTreeMap.ofList rows).filterMap fun _ w => w,?_⟩
  simp only [traverse,Transactions.bind_eq_ok,Transactions.pure_eq_ok]
  exact ⟨rows,hcollect,rfl⟩

theorem traverse_get {ε W : Type} {f : K → V → Except ε (Option W)} {t : Std.ExtTreeMap K V}
    {u : Std.ExtTreeMap K W} (h : traverse f t = .ok u) {k : K} {v : V} (hk : t[k]? = some v) :
    f k v = .ok u[k]? := by
  simp only [traverse,Transactions.bind_eq_ok,Transactions.pure_eq_ok] at h
  obtain ⟨rows,hrows,rfl⟩ := h
  have hkeys : (rows.map Prod.fst).Nodup := traverse_keys hrows ▸ keys_nodup t
  have hmem : (k,v) ∈ t.toList := Std.ExtTreeMap.mem_toList_iff_getElem?_eq_some.mpr hk
  obtain ⟨row,hrow,hf⟩ := Transactions.exists_of_collect hrows hmem
  simp only [Transactions.bind_eq_ok,Transactions.pure_eq_ok] at hf
  obtain ⟨w,hw,rfl⟩ := hf
  have hget : (Std.ExtTreeMap.ofList rows)[k]? = some w := (get_ofList hkeys k w).mpr hrow
  rw [hw,Std.ExtTreeMap.getElem?_filterMap',hget]
  rfl

end Tables
