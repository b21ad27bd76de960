import Mathlib

/-!
Retention by rank. A rule keeps, of each class of items it covers, those with fewer than `limit`
greater ones. Where a rule only ever stops covering an item and covers everything above what it
covers, an earlier pruning never removes what a later one would keep or count, so pruning often
and pruning once come to the same.
-/

namespace RankRetention

variable {α τ : Type} [LinearOrder α] [LinearOrder τ]

/-- What a rule covers at a time, which items it compares, and how many of a class it keeps. -/
structure Rule (α τ : Type) where
  covers : τ → α → Bool
  same : α → α → Bool
  limit : ℕ

/-- Coverage ends once and for all, and it extends upwards in a class. -/
structure Rule.Steady (born : α → τ) (r : Rule α τ) : Prop where
  trans : ∀ {a b c}, r.same a b = true → r.same b c = true → r.same a c = true
  earlier : ∀ {u t a}, u ≤ t → born a ≤ u → r.covers t a = true → r.covers u a = true
  upward : ∀ {t a b}, r.covers t a = true → r.same a b = true → a < b → born b ≤ t → r.covers t b = true

section

variable (born : α → τ) (rules : List (Rule α τ)) (protects : α → Bool)

def Rule.counts (r : Rule α τ) (t : τ) (a b : α) : Bool :=
  decide (born b ≤ t) && r.covers t b && r.same a b && decide (a < b)

def Rule.above (r : Rule α τ) (t : τ) (items : List α) (a : α) : ℕ :=
  items.countP (r.counts born t a)

def keeps (t : τ) (items : List α) (a : α) : Bool :=
  protects a || rules.any fun r => r.covers t a && decide (r.above born t items a < r.limit)

/-- The items left by a pruning; those born later are not there yet. -/
def pruneAt (t : τ) (items : List α) : List α :=
  items.filter fun a => decide (t < born a) || keeps born rules protects t items a

end

variable {born : α → τ} {rules : List (Rule α τ)} {protects : α → Bool} {items : List α} {t u : τ} {a b : α}

@[simp] theorem Rule.counts_iff {r : Rule α τ} :
    r.counts born t a b = true ↔ born b ≤ t ∧ r.covers t b = true ∧ r.same a b = true ∧ a < b := by
  simp only [Rule.counts,Bool.and_eq_true,decide_eq_true_eq,and_assoc]

@[simp] theorem keeps_iff : keeps born rules protects t items a = true ↔
    protects a = true ∨ ∃ r ∈ rules, r.covers t a = true ∧ r.above born t items a < r.limit := by
  simp only [keeps,Bool.or_eq_true,List.any_eq_true,Bool.and_eq_true,decide_eq_true_eq]

@[simp] theorem mem_pruneAt : a ∈ pruneAt born rules protects t items ↔
    a ∈ items ∧ (t < born a ∨ keeps born rules protects t items a = true) := by
  simp only [pruneAt,List.mem_filter,Bool.or_eq_true,decide_eq_true_eq]

theorem exists_greatest {P : α → Prop} (hmem : ∃ a ∈ items, P a) : ∃ a ∈ items, P a ∧ ∀ b ∈ items, P b → b ≤ a := by
  classical
  induction items with
  | nil =>
    obtain ⟨a,ha,_⟩ := hmem
    exact absurd ha (by simp)
  | cons c rest ih =>
    by_cases hrest : ∃ a ∈ rest, P a
    · obtain ⟨a,ha,hP,hmax⟩ := ih hrest
      by_cases hc : P c ∧ a < c
      · refine ⟨c,List.mem_cons_self,hc.1,fun b hb hPb => ?_⟩
        rcases List.mem_cons.mp hb with rfl | hb
        · exact le_rfl
        · exact (hmax b hb hPb).trans hc.2.le
      · refine ⟨a,List.mem_cons_of_mem _ ha,hP,fun b hb hPb => ?_⟩
        rcases List.mem_cons.mp hb with rfl | hb
        · exact not_lt.mp fun hlt => hc ⟨hPb,hlt⟩
        · exact hmax b hb hPb
    · obtain ⟨a,ha,hP⟩ := hmem
      rcases List.mem_cons.mp ha with rfl | ha
      · refine ⟨a,List.mem_cons_self,hP,fun b hb hPb => ?_⟩
        rcases List.mem_cons.mp hb with rfl | hb
        · exact le_rfl
        · exact absurd ⟨b,hb,hPb⟩ hrest
      · exact absurd ⟨a,ha,hP⟩ hrest

theorem keeps_earlier (hsteady : ∀ r ∈ rules, r.Steady born) (hut : u ≤ t) (hborn : born a ≤ u)
    (h : keeps born rules protects t items a = true) : keeps born rules protects u items a = true := by
  rw [keeps_iff] at h ⊢
  rcases h with h | ⟨r,hr,hcovers,habove⟩
  · exact .inl h
  · refine .inr ⟨r,hr,(hsteady r hr).earlier hut hborn hcovers,Nat.lt_of_le_of_lt ?_ habove⟩
    refine List.countP_mono_left fun b _ hcount => ?_
    rw [Rule.counts_iff] at hcount ⊢
    obtain ⟨hb,_,hsame,hlt⟩ := hcount
    exact ⟨hb.trans hut,(hsteady r hr).upward hcovers hsame hlt (hb.trans hut),hsame,hlt⟩

theorem above_pruneAt (hsteady : ∀ r ∈ rules, r.Steady born) {r : Rule α τ} (hr : r ∈ rules) (hut : u ≤ t)
    (h : r.above born t (pruneAt born rules protects u items) a < r.limit) : r.above born t items a < r.limit := by
  by_contra hmany
  have hgone : ∃ b ∈ items, r.counts born t a b = true ∧ b ∉ pruneAt born rules protects u items := by
    by_contra hnone
    have hle : r.above born t items a ≤ r.above born t (pruneAt born rules protects u items) a := by
      rw [Rule.above,Rule.above,pruneAt,List.countP_filter]
      refine List.countP_mono_left fun b hb hcount => ?_
      have hleft : b ∈ pruneAt born rules protects u items := by
        by_contra hb'
        exact hnone ⟨b,hb,hcount,hb'⟩
      have hkept := (List.mem_filter.mp hleft).2
      simp only [hcount,hkept,Bool.and_self]
    omega
  -- the greatest removed item has fewer above it than the limit, so it was not removed
  obtain ⟨f,hf,⟨hcount,hremoved⟩,hmax⟩ := exists_greatest hgone
  obtain ⟨_,hcovers,hsame,hlt⟩ := Rule.counts_iff.mp hcount
  have hborn : born f ≤ u := not_lt.mp fun hlater => hremoved (mem_pruneAt.mpr ⟨hf,.inl hlater⟩)
  refine hremoved (mem_pruneAt.mpr ⟨hf,.inr (keeps_iff.mpr (.inr ⟨r,hr,?_,Nat.lt_of_le_of_lt ?_ h⟩))⟩)
  · exact (hsteady r hr).earlier hut hborn hcovers
  · rw [Rule.above,Rule.above,pruneAt,List.countP_filter]
    refine List.countP_mono_left fun g hg hgcount => ?_
    obtain ⟨hgborn,_,hgsame,hglt⟩ := Rule.counts_iff.mp hgcount
    have hgt : r.counts born t a g = true := by
      refine Rule.counts_iff.mpr ⟨hgborn.trans hut,?_,(hsteady r hr).trans hsame hgsame,hlt.trans hglt⟩
      exact (hsteady r hr).upward hcovers hgsame hglt (hgborn.trans hut)
    have hleft : g ∈ pruneAt born rules protects u items := by
      by_contra hgone
      exact absurd (hmax g hg ⟨hgt,hgone⟩) (not_le.mpr hglt)
    have hkept := (List.mem_filter.mp hleft).2
    simp only [hgt,hkept,Bool.and_self]

theorem above_pruneAt_le (r : Rule α τ) :
    r.above born t (pruneAt born rules protects u items) a ≤ r.above born t items a :=
  List.Sublist.countP_le List.filter_sublist

theorem pruneAt_pruneAt (hsteady : ∀ r ∈ rules, r.Steady born) (hut : u ≤ t) :
    pruneAt born rules protects t (pruneAt born rules protects u items) = pruneAt born rules protects t items := by
  have hfilter : pruneAt born rules protects t (pruneAt born rules protects u items) =
      items.filter fun a => (decide (t < born a) || keeps born rules protects t
        (pruneAt born rules protects u items) a) && (decide (u < born a) || keeps born rules protects u items a) := by
    conv_lhs => unfold pruneAt
    rw [List.filter_filter]
    rfl
  rw [hfilter]
  conv_rhs => unfold pruneAt
  refine List.filter_congr fun a _ => ?_
  rw [Bool.eq_iff_iff]
  simp only [Bool.and_eq_true,Bool.or_eq_true,decide_eq_true_eq]
  constructor
  · rintro ⟨hlater | hkept,_⟩
    · exact .inl hlater
    · rw [keeps_iff] at hkept
      rcases hkept with hprotected | ⟨r,hr,hcovers,habove⟩
      · exact .inr (keeps_iff.mpr (.inl hprotected))
      · exact .inr (keeps_iff.mpr (.inr ⟨r,hr,hcovers,above_pruneAt hsteady hr hut habove⟩))
  · rintro (hlater | hkept)
    · exact ⟨.inl hlater,.inl (lt_of_le_of_lt hut hlater)⟩
    · refine ⟨.inr ?_,?_⟩
      · rw [keeps_iff] at hkept ⊢
        rcases hkept with hprotected | ⟨r,hr,hcovers,habove⟩
        · exact .inl hprotected
        · exact .inr ⟨r,hr,hcovers,Nat.lt_of_le_of_lt (above_pruneAt_le r) habove⟩
      · by_cases hborn : born a ≤ u
        · exact .inr (keeps_earlier hsteady hut hborn hkept)
        · exact .inl (not_le.mp hborn)

theorem foldl_pruneAt (hsteady : ∀ r ∈ rules, r.Steady born) {times : List τ} (hgrowing : times.Pairwise (· ≤ ·))
    (hlast : times.getLast? = some t) :
    times.foldl (fun left u => pruneAt born rules protects u left) items = pruneAt born rules protects t items := by
  induction times generalizing items with
  | nil => simp at hlast
  | cons u rest ih =>
    rw [List.foldl_cons]
    cases rest with
    | nil =>
      obtain rfl : u = t := by simpa using hlast
      rfl
    | cons v rest =>
      have hlater : (v :: rest).getLast? = some t := by
        rw [← hlast,List.getLast?_cons_cons]
      rw [ih (List.pairwise_cons.mp hgrowing).2 hlater]
      exact pruneAt_pruneAt hsteady ((List.pairwise_cons.mp hgrowing).1 t (List.mem_of_getLast? hlater))

end RankRetention
