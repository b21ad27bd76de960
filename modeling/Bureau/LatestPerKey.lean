import Mathlib

/-!
The latest item of each key. A dictionary is filled in the order of a rank, so that an item
replaces an earlier one under the same key, and its values are listed in that order again.
-/

namespace LatestPerKey

variable {α κ : Type} [DecidableEq κ]

def put (entries : List (κ × α)) (k : κ) (a : α) : List (κ × α) :=
  if entries.any (·.1 = k) then entries.map fun entry => if entry.1 = k then (k,a) else entry
  else entries ++ [(k,a)]

def fill (key : α → Option κ) (items : List α) : List (κ × α) :=
  items.foldl (fun entries a => (key a).elim entries fun k => put entries k a) []

def byRank (rank : α → ℕ) (items : List α) : List α :=
  items.insertionSort fun a b => rank a ≤ rank b

def latest (rank : α → ℕ) (key : α → Option κ) (items : List α) : List α :=
  byRank rank ((fill key (byRank rank items)).map Prod.snd)

def lastOf (key : α → Option κ) (items : List α) (k : κ) : Option α :=
  (items.filter (key · = some k)).getLast?

def Ascending (rank : α → ℕ) (items : List α) : Prop :=
  items.Pairwise fun a b => rank a < rank b

section Dictionary

variable {key : α → Option κ} {items : List α} {k : κ} {a : α}

theorem mem_put {entries : List (κ × α)} {k' : κ} {a' : α} :
    (k',a') ∈ put entries k a ↔ if k' = k then a' = a else (k',a') ∈ entries := by
  unfold put
  split
  · rename_i hany
    obtain ⟨entry,hentry,hk⟩ := List.any_eq_true.mp hany
    have hk : entry.1 = k := by simpa using hk
    rw [List.mem_map]
    split_ifs with hkey
    · constructor
      · rintro ⟨other,_,heq⟩
        split_ifs at heq with hother
        · exact (Prod.mk.inj heq).2.symm
        · exact absurd (heq ▸ hkey) hother
      · intro ha
        exact ⟨entry,hentry,by rw [if_pos hk,ha,hkey]⟩
    · constructor
      · rintro ⟨other,hother,heq⟩
        split_ifs at heq with hsame
        · exact absurd (Prod.mk.inj heq).1.symm hkey
        · exact heq ▸ hother
      · intro hmem
        exact ⟨_,hmem,if_neg hkey⟩
  · rename_i hnone
    have habsent : ∀ entry ∈ entries, entry.1 ≠ k := fun entry hentry hk =>
      hnone (List.any_eq_true.mpr ⟨entry,hentry,by simpa using hk⟩)
    rw [List.mem_append,List.mem_singleton,Prod.mk.injEq]
    split_ifs with hkey
    · constructor
      · rintro (hmem | ⟨_,ha⟩)
        · exact absurd hkey (habsent _ hmem)
        · exact ha
      · exact fun ha => .inr ⟨hkey,ha⟩
    · simp [hkey]

theorem keys_put_nodup {entries : List (κ × α)} (h : (entries.map Prod.fst).Nodup) :
    ((put entries k a).map Prod.fst).Nodup := by
  unfold put
  split
  · have hkeys : (entries.map fun entry => if entry.1 = k then (k,a) else entry).map Prod.fst =
        entries.map Prod.fst := by
      rw [List.map_map]
      refine List.map_congr_left fun entry _ => ?_
      show (if entry.1 = k then (k,a) else entry).1 = entry.1
      split_ifs with hk
      · exact hk.symm
      · rfl
    rwa [hkeys]
  · rename_i hnone
    have habsent : ∀ entry ∈ entries, entry.1 ≠ k := fun entry hentry hk =>
      hnone (List.any_eq_true.mpr ⟨entry,hentry,by simpa using hk⟩)
    rw [List.map_append,List.map_singleton,List.nodup_append]
    refine ⟨h,List.nodup_singleton _,?_⟩
    intro k' hk' k'' hk''
    obtain ⟨entry,hentry,rfl⟩ := List.mem_map.mp hk'
    rw [List.mem_singleton.mp hk'']
    exact habsent entry hentry

theorem fill_concat (items : List α) (a : α) :
    fill key (items ++ [a]) = (key a).elim (fill key items) fun k => put (fill key items) k a := by
  rw [fill,List.foldl_append]
  rfl

theorem lastOf_concat (items : List α) (a : α) (k : κ) :
    lastOf key (items ++ [a]) k = if key a = some k then some a else lastOf key items k := by
  unfold lastOf
  rw [List.filter_append]
  split_ifs with hkey
  · rw [List.filter_cons_of_pos (by simpa using hkey),List.filter_nil,List.getLast?_concat]
  · rw [List.filter_cons_of_neg (by simpa using hkey),List.filter_nil,List.append_nil]

@[simp] theorem mem_fill : (k,a) ∈ fill key items ↔ lastOf key items k = some a := by
  induction items using List.reverseRecOn with
  | nil => simp [fill,lastOf]
  | append_singleton items b ih =>
    rw [fill_concat,lastOf_concat]
    cases hkey : key b with
    | none =>
      rw [if_neg (by simp)]
      exact ih
    | some k' =>
      show (k,a) ∈ put (fill key items) k' b ↔ _
      rw [mem_put]
      by_cases hk : k = k'
      · rw [if_pos hk,if_pos (by rw [hk]),Option.some.injEq,eq_comm]
      · rw [if_neg hk,if_neg (fun h => hk (Option.some.inj h).symm)]
        exact ih

theorem keys_fill_nodup : ((fill key items).map Prod.fst).Nodup := by
  induction items using List.reverseRecOn with
  | nil => exact List.nodup_nil
  | append_singleton items b ih =>
    rw [fill_concat]
    cases key b with
    | none => exact ih
    | some k => exact keys_put_nodup ih

theorem mem_of_lastOf (h : lastOf key items k = some a) : a ∈ items ∧ key a = some k := by
  have hmem := List.mem_of_getLast? h
  rw [List.mem_filter,decide_eq_true_eq] at hmem
  exact hmem

theorem lastOf_unique {k' : κ} (h : lastOf key items k = some a) (hkey : key a = some k') : k' = k :=
  Option.some.inj (hkey.symm.trans (mem_of_lastOf h).2)

theorem values_fill_nodup : ((fill key items).map Prod.snd).Nodup := by
  refine List.Nodup.of_map key ?_
  have hkeys : ((fill key items).map Prod.snd).map key = ((fill key items).map Prod.fst).map some := by
    rw [List.map_map,List.map_map]
    refine List.map_congr_left fun entry hentry => ?_
    exact (mem_of_lastOf (mem_fill.mp hentry)).2
  rw [hkeys]
  exact keys_fill_nodup.map (Option.some_injective κ)

end Dictionary

section Ranked

variable {rank : α → ℕ} {key : α → Option κ} {items : List α} {k : κ} {a : α}

theorem Ascending.nodup (h : Ascending rank items) : items.Nodup :=
  List.Pairwise.imp (fun hlt heq => absurd (heq ▸ hlt) (lt_irrefl _)) h

theorem Ascending.filter (h : Ascending rank items) (p : α → Bool) : Ascending rank (items.filter p) :=
  List.Pairwise.filter p h

theorem Ascending.inj (h : Ascending rank items) {a b : α} (ha : a ∈ items) (hb : b ∈ items)
    (hrank : rank a = rank b) : a = b := by
  induction items with
  | nil => simp at ha
  | cons c rest ih =>
    obtain ⟨hfirst,hrest⟩ := List.pairwise_cons.mp h
    rcases List.mem_cons.mp ha with hac | harest
    · rcases List.mem_cons.mp hb with hbc | hbrest
      · rw [hac,hbc]
      · exact absurd (hac ▸ hrank) (hfirst b hbrest).ne
    · rcases List.mem_cons.mp hb with hbc | hbrest
      · exact absurd (hbc ▸ hrank.symm) (hfirst a harest).ne
      · exact ih hrest harest hbrest

theorem Ascending.eq_of_mem_iff {others : List α} (h : Ascending rank items) (h' : Ascending rank others)
    (hmem : ∀ a, a ∈ items ↔ a ∈ others) : items = others := by
  have hperm : items.Perm others := (List.perm_ext_iff_of_nodup h.nodup h'.nodup).mpr hmem
  exact hperm.eq_of_pairwise (fun _ _ _ _ hab hba => absurd hba (Nat.lt_asymm hab)) h h'

theorem lastOf_of_unique (h : Ascending rank items) (hmem : a ∈ items) (hkey : key a = some k)
    (hunique : ∀ b ∈ items, key b = some k → b = a) : lastOf key items k = some a := by
  have honly : items.filter (key · = some k) = [a] := by
    refine (h.filter _).eq_of_mem_iff (List.pairwise_singleton _ a) fun b => ?_
    rw [List.mem_filter,decide_eq_true_eq,List.mem_singleton]
    constructor
    · exact fun hb => hunique b hb.1 hb.2
    · rintro rfl
      exact ⟨hmem,hkey⟩
  rw [lastOf,honly]
  rfl

theorem byRank_eq_self (h : Ascending rank items) : byRank rank items = items :=
  List.Pairwise.insertionSort_eq (List.Pairwise.imp (fun hlt => hlt.le) h)

theorem mem_latest (h : Ascending rank items) :
    a ∈ latest rank key items ↔ ∃ k, lastOf key items k = some a := by
  rw [latest,byRank,List.mem_insertionSort,byRank_eq_self h,List.mem_map]
  constructor
  · rintro ⟨⟨k,b⟩,hentry,rfl⟩
    exact ⟨k,mem_fill.mp hentry⟩
  · rintro ⟨k,hlast⟩
    exact ⟨(k,a),mem_fill.mpr hlast,rfl⟩

theorem ascending_latest (h : Ascending rank items) : Ascending rank (latest rank key items) := by
  have hsub : ∀ a ∈ latest rank key items, a ∈ items := by
    intro a ha
    obtain ⟨k,hlast⟩ := (mem_latest h).mp ha
    exact (mem_of_lastOf hlast).1
  have hsorted : (latest rank key items).Pairwise fun a b => rank a ≤ rank b :=
    List.pairwise_insertionSort (fun a b => rank a ≤ rank b) _
  have hnodup : (latest rank key items).Nodup :=
    (List.perm_insertionSort (fun a b => rank a ≤ rank b) _).nodup_iff.mpr values_fill_nodup
  have hboth := List.Pairwise.and hsorted hnodup
  refine hboth.imp_of_mem fun {a b} ha hb hab => ?_
  exact lt_of_le_of_ne hab.1 fun hrank => hab.2 (h.inj (hsub a ha) (hsub b hb) hrank)

theorem lastOf_filter {p : α → Bool} (hlast : lastOf key items k = some a) (hp : p a = true) :
    lastOf key (items.filter p) k = some a := by
  induction items using List.reverseRecOn with
  | nil => simp [lastOf] at hlast
  | append_singleton items b ih =>
    rw [lastOf_concat] at hlast
    rw [List.filter_append]
    split_ifs at hlast with hkey
    · obtain rfl := Option.some.inj hlast
      rw [List.filter_cons_of_pos hp,List.filter_nil,lastOf_concat,if_pos hkey]
    · by_cases hb : p b = true
      · rw [List.filter_cons_of_pos hb,List.filter_nil,lastOf_concat,if_neg hkey]
        exact ih hlast
      · rw [List.filter_cons_of_neg hb,List.filter_nil,List.append_nil]
        exact ih hlast

/-- Keeping some of the items before or after the latest are taken gives the same exactly where
every shown latest item of those kept is the latest of all. -/
theorem latest_filter_eq_iff (h : Ascending rank items) (p shown : α → Bool) :
    (latest rank key (items.filter p)).filter shown = ((latest rank key items).filter shown).filter p ↔
      ∀ k a, lastOf key (items.filter p) k = some a → shown a = true → lastOf key items k = some a := by
  have hkept := h.filter p
  constructor
  · intro heq k a hlast hshown
    have hmem : a ∈ (latest rank key (items.filter p)).filter shown :=
      List.mem_filter.mpr ⟨(mem_latest hkept).mpr ⟨k,hlast⟩,hshown⟩
    rw [heq,List.mem_filter,List.mem_filter,mem_latest h] at hmem
    obtain ⟨⟨⟨k',hlast'⟩,_⟩,_⟩ := hmem
    rwa [lastOf_unique hlast' (mem_of_lastOf hlast).2]
  · intro hall
    refine Ascending.eq_of_mem_iff ((ascending_latest hkept).filter shown)
      (((ascending_latest h).filter shown).filter p) fun a => ?_
    rw [List.mem_filter,List.mem_filter,List.mem_filter,mem_latest hkept,mem_latest h]
    constructor
    · rintro ⟨⟨k,hlast⟩,hshown⟩
      exact ⟨⟨⟨k,hall k a hlast hshown⟩,hshown⟩,(List.mem_filter.mp (mem_of_lastOf hlast).1).2⟩
    · rintro ⟨⟨⟨k,hlast⟩,hshown⟩,hp⟩
      exact ⟨⟨k,lastOf_filter hlast hp⟩,hshown⟩

end Ranked

end LatestPerKey
