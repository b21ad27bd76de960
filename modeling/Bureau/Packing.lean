import Mathlib

/-!
The largest choice of items that pairwise do not clash, found by branch and bound: an item is taken
where it fits and then left out, and a branch that cannot beat the best choice so far is cut off.
-/

namespace Packing

variable {α : Type} (clash : α → α → Bool)

/-- The best size after visiting the items that are left, with some already selected. -/
def visit : List α → List α → ℕ → ℕ
  | [], selected, best => if selected.length ≤ best then best else max best selected.length
  | c :: rest, selected, best =>
    if selected.length+(c :: rest).length ≤ best then best
    else visit rest selected
      (if selected.all fun held => !clash c held then visit rest (selected ++ [c]) best else best)

structure Extends (selected items chosen : List α) : Prop where
  sublist : chosen.Sublist items
  beside : ∀ c ∈ chosen, ∀ held ∈ selected, clash c held = false
  pairwise : chosen.Pairwise fun a b => clash b a = false

variable {clash} {c : α} {items selected chosen : List α} {best : ℕ}

theorem Extends.skip (h : Extends clash selected items chosen) : Extends clash selected (c :: items) chosen :=
  ⟨h.sublist.cons c,h.beside,h.pairwise⟩

theorem Extends.take (hc : ∀ held ∈ selected, clash c held = false) (h : Extends clash (selected ++ [c]) items chosen) :
    Extends clash selected (c :: items) (c :: chosen) := by
  refine ⟨h.sublist.cons_cons c,fun d hd held hheld => ?_,List.pairwise_cons.mpr ⟨fun d hd => ?_,h.pairwise⟩⟩
  · rcases List.mem_cons.mp hd with rfl | hd
    · exact hc held hheld
    · exact h.beside d hd held (List.mem_append_left _ hheld)
  · exact h.beside d hd c (List.mem_append_right _ List.mem_cons_self)

theorem Extends.cases_cons (h : Extends clash selected (c :: items) chosen) :
    Extends clash selected items chosen ∨ ∃ others, chosen = c :: others ∧
      (∀ held ∈ selected, clash c held = false) ∧ Extends clash (selected ++ [c]) items others := by
  rcases List.sublist_cons_iff.mp h.sublist with hskip | ⟨others,rfl,htake⟩
  · exact .inl ⟨hskip,h.beside,h.pairwise⟩
  · obtain ⟨hfirst,hothers⟩ := List.pairwise_cons.mp h.pairwise
    refine .inr ⟨others,rfl,h.beside c List.mem_cons_self,htake,fun d hd held hheld => ?_,hothers⟩
    rcases List.mem_append.mp hheld with hheld | hheld
    · exact h.beside d (List.mem_cons_of_mem _ hd) held hheld
    · rw [List.mem_singleton.mp hheld]
      exact hfirst d hd

theorem le_visit (items selected : List α) (best : ℕ) : best ≤ visit clash items selected best := by
  induction items generalizing selected best with
  | nil =>
    rw [visit]
    split
    · exact le_rfl
    · exact le_max_left _ _
  | cons c rest ih =>
    rw [visit]
    split
    · exact le_rfl
    · refine le_trans ?_ (ih selected _)
      split
      · exact ih _ best
      · exact le_rfl

theorem Extends.le_visit (h : Extends clash selected items chosen) :
    selected.length+chosen.length ≤ visit clash items selected best := by
  induction items generalizing selected chosen best with
  | nil =>
    rw [List.sublist_nil.mp h.sublist,visit,List.length_nil]
    split
    · omega
    · exact le_max_right _ _
  | cons c rest ih =>
    have hlength := h.sublist.length_le
    rw [visit]
    split
    · omega
    · rcases h.cases_cons with hskip | ⟨others,rfl,hfits,htake⟩
      · exact ih hskip
      · have hall : (selected.all fun held => !clash c held) = true := by
          rw [List.all_eq_true]
          intro held hheld
          rw [hfits held hheld]
          rfl
        have hle : (selected ++ [c]).length+others.length ≤ visit clash rest (selected ++ [c]) best := ih htake
        rw [List.length_append,List.length_singleton] at hle
        rw [if_pos hall,List.length_cons]
        exact le_trans (by omega) (Packing.le_visit rest selected _)

theorem visit_attained (items selected : List α) (best : ℕ) : visit clash items selected best = best ∨
    ∃ chosen, Extends clash selected items chosen ∧
      visit clash items selected best = selected.length+chosen.length := by
  induction items generalizing selected best with
  | nil =>
    rw [visit]
    split
    · exact .inl rfl
    · exact .inr ⟨[],⟨.slnil,by simp,.nil⟩,max_eq_right (by omega)⟩
  | cons c rest ih =>
    rw [visit]
    split
    · exact .inl rfl
    · rcases ih selected _ with hsame | ⟨chosen,hchosen,hlength⟩
      · rw [hsame]
        split
        next hall =>
          rcases ih (selected ++ [c]) best with hbest | ⟨chosen,hchosen,hlength⟩
          · exact .inl hbest
          · refine .inr ⟨c :: chosen,.take (fun held hheld => ?_) hchosen,?_⟩
            · simpa using List.all_eq_true.mp hall held hheld
            · rw [hlength,List.length_append,List.length_singleton,List.length_cons]
              omega
        · exact .inl rfl
      · exact .inr ⟨chosen,hchosen.skip,hlength⟩

end Packing
