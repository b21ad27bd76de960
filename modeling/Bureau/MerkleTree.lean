import Mathlib

/-!
Hash trees whose odd levels repeat their last node. The shape of the tree depends only on the
number of leaves, so the root determines the leaves wherever the node hash tells the pairs apart
that the trees hash.
-/

namespace MerkleTree

variable {δ : Type}

/-- The pairs of a level; a last node without a partner is paired with itself. -/
def levelPairs : List δ → List (δ × δ)
  | [] => []
  | [a] => [(a,a)]
  | a :: b :: rest => (a,b) :: levelPairs rest

@[simp] theorem length_levelPairs (level : List δ) : (levelPairs level).length = (level.length+1)/2 := by
  induction level using levelPairs.induct with
  | case1 => simp [levelPairs]
  | case2 a => simp [levelPairs]
  | case3 a b rest ih =>
    simp only [levelPairs,List.length_cons,ih]
    omega

theorem levelPairs_inj {left right : List δ} (hlength : left.length = right.length)
    (h : levelPairs left = levelPairs right) : left = right := by
  induction left using levelPairs.induct generalizing right with
  | case1 => exact (List.length_eq_zero_iff.mp hlength.symm).symm
  | case2 a =>
    obtain ⟨b,rfl⟩ := List.length_eq_one_iff.mp hlength.symm
    simp only [levelPairs,List.cons.injEq,Prod.mk.injEq,and_true,and_self] at h
    rw [h]
  | case3 a b rest ih =>
    match right, hlength, h with
    | c :: d :: tail, hlength, h =>
      simp only [levelPairs,List.cons.injEq,Prod.mk.injEq] at h
      have htail : rest.length = tail.length := by
        simp only [List.length_cons] at hlength
        omega
      rw [h.1.1,h.1.2,ih htail h.2]

def levelUp (node : δ → δ → δ) (level : List δ) : List δ :=
  (levelPairs level).map fun pair => node pair.1 pair.2

@[simp]
theorem length_levelUp (node : δ → δ → δ) (level : List δ) : (levelUp node level).length = (level.length+1)/2 := by
  rw [levelUp,List.length_map,length_levelPairs]

def root (node : δ → δ → δ) (level : List δ) : Option δ :=
  if 1 < level.length then root node (levelUp node level) else level.head?
termination_by level.length
decreasing_by
  rw [length_levelUp]
  omega

def hashedPairs (node : δ → δ → δ) (level : List δ) : List (δ × δ) :=
  if 1 < level.length then levelPairs level ++ hashedPairs node (levelUp node level) else []
termination_by level.length
decreasing_by
  rw [length_levelUp]
  omega

theorem root_isSome (node : δ → δ → δ) {level : List δ} (h : level ≠ []) : (root node level).isSome = true := by
  induction hn : level.length using Nat.strong_induction_on generalizing level with
  | _ n ih =>
    unfold root
    split_ifs with hmany
    · have hlength := length_levelUp node level
      refine ih (levelUp node level).length (by omega) ?_ rfl
      intro hempty
      rw [hempty,List.length_nil] at hlength
      omega
    · cases level with
      | nil => exact absurd rfl h
      | cons a rest => rfl

theorem levelUp_inj {node : δ → δ → δ} {left right : List δ} (hlength : left.length = right.length)
    (hnode : ∀ p ∈ levelPairs left, ∀ q ∈ levelPairs right, node p.1 p.2 = node q.1 q.2 → p = q)
    (h : levelUp node left = levelUp node right) : left = right := by
  refine levelPairs_inj hlength (List.ext_getElem ?_ fun i hi hj => ?_)
  · rw [length_levelPairs,length_levelPairs,hlength]
  · have hnodes : (levelUp node left)[i]? = (levelUp node right)[i]? := by rw [h]
    rw [levelUp,levelUp,List.getElem?_map,List.getElem?_map,List.getElem?_eq_getElem hi,
      List.getElem?_eq_getElem hj] at hnodes
    exact hnode _ (List.getElem_mem hi) _ (List.getElem_mem hj) (Option.some.inj hnodes)

theorem root_inj {node : δ → δ → δ} {left right : List δ} (hlength : left.length = right.length)
    (hnode : ∀ p ∈ hashedPairs node left, ∀ q ∈ hashedPairs node right, node p.1 p.2 = node q.1 q.2 → p = q)
    (h : root node left = root node right) : left = right := by
  induction hn : left.length using Nat.strong_induction_on generalizing left right with
  | _ n ih =>
    unfold root at h
    unfold hashedPairs at hnode
    by_cases hmany : 1 < left.length
    · rw [if_pos hmany,if_pos (hlength ▸ hmany)] at h
      rw [if_pos hmany,if_pos (hlength ▸ hmany)] at hnode
      have hup := length_levelUp node left
      have hup' := length_levelUp node right
      have habove : levelUp node left = levelUp node right := by
        refine ih (levelUp node left).length (by omega) (by omega) ?_ h rfl
        exact fun p hp q hq => hnode p (List.mem_append_right _ hp) q (List.mem_append_right _ hq)
      refine levelUp_inj hlength ?_ habove
      exact fun p hp q hq => hnode p (List.mem_append_left _ hp) q (List.mem_append_left _ hq)
    · rw [if_neg hmany,if_neg (hlength ▸ hmany)] at h
      match left, right, hlength, hmany, h with
      | [], [], _, _, _ => rfl
      | [a], [b], _, _, h => rw [Option.some.inj h]
      | _ :: _ :: _, _, _, hmany, _ => exact absurd (by simp only [List.length_cons]; omega) hmany

end MerkleTree
