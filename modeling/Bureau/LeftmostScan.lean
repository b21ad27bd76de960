import Mathlib

/-!
A scan for the leftmost matches that do not overlap, as regular expression libraries make it. The
matcher sees the symbol before a position and the symbols after it. Where matches are the ends of
runs of symbols of one kind, the scan finds one match in each run: the longest end that matches.
-/

namespace LeftmostScan

variable {α : Type} (matchAt : Option α → List α → Option ℕ)

/-- The matches, each with the symbols it covers. `skip` counts what is left of the last match. -/
def finditer (prev : Option α) (skip : ℕ) : List α → List (List α)
  | [] => []
  | c :: rest =>
    match skip with
    | skip+1 => finditer (some c) skip rest
    | 0 =>
      match matchAt prev (c :: rest) with
      | some n => (c :: rest).take n :: finditer (some c) (n-1) rest
      | none => finditer (some c) 0 rest

/-- The longest end of a run that is a word, where `prev` is before the run. -/
def firstEnd (word : Option α → List α → Bool) (prev : Option α) : List α → Option (List α)
  | [] => none
  | c :: rest => if word prev (c :: rest) then some (c :: rest) else firstEnd word (some c) rest

def Closed (inRun : α → Bool) (text : List α) : Prop := ∀ c ∈ text.head?, inRun c = false

/-- The matches of a matcher are ends of runs, and their words decide. -/
structure MatchesEnds (inRun : α → Bool) (word : Option α → List α → Bool) : Prop where
  outside : ∀ prev c rest, inRun c = false → matchAt prev (c :: rest) = none
  inside : ∀ prev run after, run ≠ [] → (∀ c ∈ run, inRun c = true) → Closed inRun after →
    matchAt prev (run ++ after) = if word prev run then some run.length else none

structure IsRun (inRun : α → Bool) (text before run after : List α) : Prop where
  parts : text = before ++ run ++ after
  nonempty : run ≠ []
  inside : ∀ c ∈ run, inRun c = true
  opened : ∀ c ∈ before.getLast?, inRun c = false
  closed : Closed inRun after

section

variable {matchAt} {inRun : α → Bool} {word : Option α → List α → Bool} {prev : Option α} {run after text : List α}

theorem getLast?_cons_or (c : α) (rest : List α) (prev : Option α) :
    (c :: rest).getLast?.or prev = rest.getLast?.or (some c) := by
  rw [List.getLast?_cons]
  cases rest.getLast? <;> rfl

theorem finditer_skip (run after : List α) (prev : Option α) :
    finditer matchAt prev run.length (run ++ after) = finditer matchAt (run.getLast?.or prev) 0 after := by
  induction run generalizing prev with
  | nil => rfl
  | cons c rest ih =>
    rw [List.length_cons,List.cons_append,finditer,ih,getLast?_cons_or]

theorem finditer_run (h : MatchesEnds matchAt inRun word) (hinside : ∀ c ∈ run, inRun c = true)
    (hclosed : Closed inRun after) : finditer matchAt prev 0 (run ++ after) =
      (firstEnd word prev run).toList ++ finditer matchAt (run.getLast?.or prev) 0 after := by
  induction run generalizing prev with
  | nil => rfl
  | cons c rest ih =>
    have hmatch := h.inside prev (c :: rest) after (List.cons_ne_nil _ _) hinside hclosed
    rw [List.cons_append] at hmatch ⊢
    rw [finditer,hmatch,firstEnd,getLast?_cons_or]
    by_cases hword : word prev (c :: rest) = true
    · rw [if_pos hword,if_pos hword]
      simp only [List.length_cons,Nat.add_sub_cancel,Option.toList_some,List.singleton_append]
      rw [finditer_skip,List.take_succ_cons,List.take_left]
    · rw [if_neg hword,if_neg hword]
      exact ih fun c hc => hinside c (List.mem_cons_of_mem _ hc)

theorem finditer_outside (h : MatchesEnds matchAt inRun word) {c : α} (hc : inRun c = false) (rest : List α) :
    finditer matchAt prev 0 (c :: rest) = finditer matchAt (some c) 0 rest := by
  rw [finditer,h.outside prev c rest hc]

namespace IsRun

variable {before : List α}

theorem cons_iff {c : α} (hc : inRun c = false) :
    IsRun inRun (c :: text) before run after ↔ ∃ rest, before = c :: rest ∧ IsRun inRun text rest run after := by
  constructor
  · intro h
    cases before with
    | nil =>
      cases run with
      | nil => exact absurd rfl h.nonempty
      | cons d run =>
        obtain ⟨rfl,_⟩ := List.cons.inj h.parts
        exact absurd (h.inside c List.mem_cons_self) (by simp [hc])
    | cons d rest =>
      obtain ⟨rfl,hparts⟩ := List.cons.inj h.parts
      refine ⟨rest,rfl,hparts,h.nonempty,h.inside,fun d hd => ?_,h.closed⟩
      refine h.opened d ?_
      rw [List.getLast?_cons,Option.mem_def.mp hd]
      rfl
  · rintro ⟨rest,rfl,h⟩
    refine ⟨by rw [h.parts]; rfl,h.nonempty,h.inside,fun d hd => ?_,h.closed⟩
    rw [List.getLast?_cons] at hd
    cases hlast : rest.getLast? with
    | none =>
      rw [hlast] at hd
      cases hd
      exact hc
    | some last =>
      rw [hlast] at hd
      cases hd
      exact h.opened last hlast

theorem append_iff {first : List α} (hfirst : first ≠ []) (hinside : ∀ c ∈ first, inRun c = true)
    (hclosed : Closed inRun text) : IsRun inRun (first ++ text) before run after ↔
      (before = [] ∧ run = first ∧ after = text) ∨
        ∃ rest, before = first ++ rest ∧ rest ≠ [] ∧ IsRun inRun text rest run after := by
  constructor
  · intro h
    have hparts : first ++ text = before ++ (run ++ after) := by rw [h.parts,List.append_assoc]
    rcases List.append_eq_append_iff.mp hparts with ⟨rest,hbefore,htext⟩ | ⟨rest,hrest,hrun⟩
    · refine .inr ⟨rest,hbefore,?_,?_⟩
      · -- the run would follow another symbol of a run
        rintro rfl
        rw [List.append_nil] at hbefore
        have hlast := h.opened (first.getLast hfirst) (by rw [hbefore]; exact List.getLast?_eq_getLast_of_ne_nil _)
        exact absurd (hinside _ (List.getLast_mem hfirst)) (by simp [hlast])
      · refine ⟨by rw [htext,List.append_assoc],h.nonempty,h.inside,fun c hc => h.opened c ?_,h.closed⟩
        rw [hbefore,List.getLast?_append,Option.mem_def.mp hc]
        rfl
    · have hnil : before = [] := by
        by_contra hne
        have hmem : before.getLast hne ∈ first := hrest ▸ List.mem_append_left _ (List.getLast_mem hne)
        have hlast := h.opened (before.getLast hne) (List.getLast?_eq_getLast_of_ne_nil hne)
        exact absurd (hinside _ hmem) (by simp [hlast])
      subst hnil
      rw [List.nil_append] at hrest
      subst hrest
      refine .inl ⟨rfl,?_⟩
      rcases List.append_eq_append_iff.mp hrun with ⟨more,hmore,hafter⟩ | ⟨more,hmore,hafter⟩
      · cases more with
        | nil => exact ⟨by simpa using hmore.symm,by simpa using hafter⟩
        | cons d more =>
          have hd := h.closed d (by rw [hafter]; rfl)
          exact absurd (hinside d (by rw [hmore]; simp)) (by simp [hd])
      · cases more with
        | nil => exact ⟨by simpa using hmore,by simpa using hafter.symm⟩
        | cons d more =>
          have hd := hclosed d (by rw [hafter]; rfl)
          exact absurd (h.inside d (by rw [hmore]; simp)) (by simp [hd])
  · rintro (⟨rfl,rfl,rfl⟩ | ⟨rest,rfl,hne,h⟩)
    · exact ⟨rfl,hfirst,hinside,fun c hc => (by cases hc),hclosed⟩
    · refine ⟨by rw [h.parts]; simp only [List.append_assoc],h.nonempty,h.inside,fun c hc => h.opened c ?_,h.closed⟩
      rwa [List.getLast?_append_of_ne_nil _ hne] at hc

end IsRun

theorem exists_first_run {c : α} (hc : inRun c = true) (rest : List α) : ∃ first tail, c :: rest = first ++ tail ∧
    first ≠ [] ∧ (∀ d ∈ first, inRun d = true) ∧ Closed inRun tail := by
  refine ⟨(c :: rest).takeWhile inRun,(c :: rest).dropWhile inRun,List.takeWhile_append_dropWhile.symm,?_,
    fun d hd => List.all_eq_true.mp List.all_takeWhile d hd,fun d hd => ?_⟩
  · rw [List.takeWhile_cons_of_pos hc]
    exact List.cons_ne_nil _ _
  · have hnot := List.head?_dropWhile_not inRun (c :: rest)
    rw [Option.mem_def.mp hd] at hnot
    simpa using hnot

theorem mem_finditer (h : MatchesEnds matchAt inRun word) (hprev : ∀ c ∈ prev, inRun c = false) (found : List α) :
    found ∈ finditer matchAt prev 0 text ↔
      ∃ before run after, IsRun inRun text before run after ∧
        firstEnd word (before.getLast?.or prev) run = some found := by
  induction hlength : text.length using Nat.strongRecOn generalizing text prev with
  | _ n ih =>
    have hbehind : ∀ (d : α) (later : List α), later.length < n → inRun d = false →
        (found ∈ finditer matchAt (some d) 0 later ↔ ∃ before run after, IsRun inRun (d :: later) before run after ∧
          ∀ earlier : Option α, firstEnd word (before.getLast?.or earlier) run = some found) := by
      intro d later hshorter hd
      rw [ih later.length hshorter (by simpa using hd) rfl]
      constructor
      · intro ⟨before,run,after,hrun,hfound⟩
        refine ⟨d :: before,run,after,(IsRun.cons_iff hd).mpr ⟨before,rfl,hrun⟩,fun earlier => ?_⟩
        rw [getLast?_cons_or,hfound]
      · intro ⟨before,run,after,hrun,hfound⟩
        obtain ⟨rest,rfl,hrest⟩ := (IsRun.cons_iff hd).mp hrun
        have hlast := hfound none
        rw [getLast?_cons_or] at hlast
        exact ⟨rest,run,after,hrest,hlast⟩
    cases text with
    | nil =>
      refine iff_of_false (by simp [finditer]) ?_
      intro ⟨before,run,after,hrun,_⟩
      have hparts := hrun.parts
      simp [hrun.nonempty] at hparts
    | cons c rest =>
      by_cases hc : inRun c = true
      · -- the text begins with a run, and what follows begins outside
        obtain ⟨first,tail,htext,hfirst,hinside,hclosed⟩ := exists_first_run hc rest
        rw [htext,finditer_run h hinside hclosed,List.mem_append,Option.mem_toList]
        have hlater : found ∈ finditer matchAt (first.getLast?.or prev) 0 tail ↔ ∃ before run after,
            IsRun inRun tail before run after ∧ before ≠ [] ∧
              ∀ earlier : Option α, firstEnd word (before.getLast?.or earlier) run = some found := by
          cases tail with
          | nil =>
            refine iff_of_false (by simp [finditer]) ?_
            intro ⟨before,run,after,hrun,hne,_⟩
            have hparts := hrun.parts
            simp [hne] at hparts
          | cons d later =>
            have hd : inRun d = false := hclosed d rfl
            have hshorter : later.length < n := by
              have hlengths := congrArg List.length htext
              rw [hlength,List.length_append,List.length_cons] at hlengths
              omega
            rw [finditer_outside h hd,hbehind d later hshorter hd]
            refine exists_congr fun before => exists₂_congr fun run after => and_congr_right fun hrun => ?_
            obtain ⟨rest,rfl,_⟩ := (IsRun.cons_iff hd).mp hrun
            rw [and_iff_right (List.cons_ne_nil _ _)]
        rw [hlater]
        constructor
        · rintro (hfound | ⟨before,run,after,hrun,hne,hfound⟩)
          · exact ⟨[],first,tail,(IsRun.append_iff hfirst hinside hclosed).mpr (.inl ⟨rfl,rfl,rfl⟩),hfound⟩
          · refine ⟨first ++ before,run,after,
              (IsRun.append_iff hfirst hinside hclosed).mpr (.inr ⟨before,rfl,hne,hrun⟩),?_⟩
            rw [List.getLast?_append_of_ne_nil _ hne]
            exact hfound prev
        · rintro ⟨before,run,after,hrun,hfound⟩
          rcases (IsRun.append_iff hfirst hinside hclosed).mp hrun with ⟨rfl,rfl,rfl⟩ | ⟨later,rfl,hne,hrun⟩
          · exact .inl hfound
          · refine .inr ⟨later,run,after,hrun,hne,fun earlier => ?_⟩
            rw [List.getLast?_append_of_ne_nil _ hne] at hfound
            cases hlast : later.getLast? with
            | none => exact absurd (List.getLast?_eq_none_iff.mp hlast) hne
            | some last =>
              rw [hlast] at hfound
              exact hfound
      · have hc : inRun c = false := by simpa using hc
        rw [finditer_outside h hc,hbehind c rest (by rw [← hlength]; exact Nat.lt_succ_self _) hc]
        constructor
        · intro ⟨before,run,after,hrun,hfound⟩
          exact ⟨before,run,after,hrun,hfound prev⟩
        · intro ⟨before,run,after,hrun,hfound⟩
          obtain ⟨later,rfl,_⟩ := (IsRun.cons_iff hc).mp hrun
          refine ⟨c :: later,run,after,hrun,fun earlier => ?_⟩
          rw [getLast?_cons_or] at hfound ⊢
          exact hfound

theorem firstEnd_eq_some {found : List α} :
    firstEnd word prev run = some found ↔ found ≠ [] ∧ ∃ pre, run = pre ++ found ∧
      word (pre.getLast?.or prev) found = true ∧ ∀ shorter longer, run = shorter ++ longer →
        shorter.length < pre.length → word (shorter.getLast?.or prev) longer = false := by
  induction run generalizing prev with
  | nil =>
    refine iff_of_false (by simp [firstEnd]) ?_
    intro ⟨hne,pre,hrun,_⟩
    simp [hne] at hrun
  | cons c rest ih =>
    rw [firstEnd]
    by_cases hword : word prev (c :: rest) = true
    · rw [if_pos hword,Option.some.injEq]
      constructor
      · rintro rfl
        exact ⟨List.cons_ne_nil _ _,[],rfl,hword,fun shorter _ _ hshorter => absurd hshorter (Nat.not_lt_zero _)⟩
      · intro ⟨_,pre,hrun,_,hlongest⟩
        cases pre with
        | nil => exact hrun
        | cons d pre =>
          have hnot := hlongest [] (c :: rest) rfl (Nat.zero_lt_succ _)
          exact absurd hword (by simpa using hnot)
    · rw [if_neg hword,ih]
      refine and_congr_right fun hne => ?_
      constructor
      · intro ⟨pre,hrest,hfound,hlongest⟩
        refine ⟨c :: pre,by rw [hrest]; rfl,by rw [getLast?_cons_or]; exact hfound,?_⟩
        intro shorter longer hrun hshorter
        cases shorter with
        | nil =>
          obtain rfl : c :: rest = longer := hrun
          simpa using hword
        | cons d shorter =>
          obtain ⟨rfl,hrest'⟩ := List.cons.inj hrun
          rw [getLast?_cons_or]
          exact hlongest shorter longer hrest' (Nat.lt_of_succ_lt_succ hshorter)
      · intro ⟨pre,hrun,hfound,hlongest⟩
        cases pre with
        | nil =>
          obtain rfl : c :: rest = found := hrun
          exact absurd hfound hword
        | cons d pre =>
          obtain ⟨rfl,hrest⟩ := List.cons.inj hrun
          refine ⟨pre,hrest,by rwa [getLast?_cons_or] at hfound,fun shorter longer hrest' hshorter => ?_⟩
          have hnot := hlongest (c :: shorter) longer (by rw [hrest']; rfl) (Nat.succ_lt_succ hshorter)
          rwa [getLast?_cons_or] at hnot

end

end LeftmostScan
