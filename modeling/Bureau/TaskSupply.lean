import Bureau.Packing
import Bureau.Resources

/-!
How much work the fallback catalog can supply beside the work that is held: the largest number of catalog
entries whose claims are compatible.
-/

namespace Bureau

namespace TaskSupply

structure FallbackSpec where
  claimResource : String
  claimMode : Mode
  claimable : claimMode.claimable = true

/-- `legacy.Claim` with its defaults. -/
def FallbackSpec.claims (spec : FallbackSpec) : List Claim :=
  [⟨spec.claimResource,spec.claimMode,1,"none",spec.claimable⟩]

def claimsConflict (resources : Resources) (left right : List Claim) : Option (String × String) :=
  left.findSome? fun leftClaim => right.findSome? fun rightClaim =>
    if overlaps leftClaim.resource rightClaim.resource resources && modesConflict leftClaim.mode rightClaim.mode then
      some (leftClaim.resource,rightClaim.resource)
    else none

/-- The claims of the entries that may be packed beside the held ones. -/
def candidates (specs : List FallbackSpec) (resources : Resources) (heldClaimSets : List (List Claim)) :
    List (List Claim) :=
  (specs.map FallbackSpec.claims).filter fun claims =>
    !heldClaimSets.any fun held => (claimsConflict resources claims held).isSome

def maxPackableCatalogCount (specs : List FallbackSpec) (resources : Resources) (heldClaimSets : List (List Claim)) :
    ℕ :=
  Packing.visit (fun claims held => (claimsConflict resources claims held).isSome)
    (candidates specs resources heldClaimSets) [] 0

/-- The entries conflict neither with each other nor with what is held. -/
structure Packs (resources : Resources) (heldClaimSets : List (List Claim)) (chosen : List FallbackSpec) : Prop where
  pairwise : chosen.Pairwise fun a b => claimsConflict resources a.claims b.claims = none
  held : ∀ spec ∈ chosen, ∀ held ∈ heldClaimSets, claimsConflict resources spec.claims held = none

variable {left right : List Claim} {resources : Resources}

@[simp] theorem claimsConflict_eq_none :
    claimsConflict resources left right = none ↔ ∀ a ∈ left, ∀ b ∈ right,
      (overlaps a.resource b.resource resources && modesConflict a.mode b.mode) = false := by
  simp only [claimsConflict,List.findSome?_eq_none_iff,ite_eq_right_iff,reduceCtorEq,imp_false,Bool.not_eq_true]

theorem claimsConflict_comm :
    claimsConflict resources left right = none ↔ claimsConflict resources right left = none := by
  rw [claimsConflict_eq_none,claimsConflict_eq_none]
  constructor <;>
  · intro h a ha b hb
    rw [overlaps_comm,modesConflict_comm]
    exact h b hb a ha

theorem candidates_eq (specs : List FallbackSpec) (resources : Resources) (heldClaimSets : List (List Claim)) :
    candidates specs resources heldClaimSets = (specs.filter fun spec => heldClaimSets.all fun held =>
      (claimsConflict resources spec.claims held).isNone).map FallbackSpec.claims := by
  rw [candidates,List.filter_map]
  congr 2
  funext spec
  simp only [Function.comp,List.not_any_eq_all_not,Option.not_isSome]

theorem extends_iff {heldClaimSets : List (List Claim)} {specs : List FallbackSpec}
    {claims : List (List Claim)} :
    Packing.Extends (fun claims held => (claimsConflict resources claims held).isSome) []
      (candidates specs resources heldClaimSets) claims ↔
    ∃ chosen : List FallbackSpec, chosen.Sublist specs ∧ Packs resources heldClaimSets chosen ∧
      claims = chosen.map FallbackSpec.claims := by
  have hcompatible : ∀ a b : FallbackSpec, (claimsConflict resources b.claims a.claims).isSome = false ↔
      claimsConflict resources a.claims b.claims = none := by
    intro a b
    rw [Option.isSome_eq_false_iff,Option.isNone_iff_eq_none,claimsConflict_comm]
  constructor
  · intro ⟨hsublist,_,hpairwise⟩
    rw [candidates_eq,List.sublist_map_iff] at hsublist
    obtain ⟨chosen,hchosen,rfl⟩ := hsublist
    rw [List.pairwise_map] at hpairwise
    refine ⟨chosen,hchosen.trans List.filter_sublist,⟨hpairwise.imp fun h => (hcompatible _ _).mp h,?_⟩,rfl⟩
    intro spec hspec held hheld
    have hfree := (List.mem_filter.mp (hchosen.subset hspec)).2
    exact Option.isNone_iff_eq_none.mp (List.all_eq_true.mp hfree held hheld)
  · rintro ⟨chosen,hsublist,hpacks,rfl⟩
    refine ⟨?_,fun _ _ _ hheld => absurd hheld List.not_mem_nil,?_⟩
    · rw [candidates_eq]
      refine List.Sublist.map _ ?_
      rw [← List.filter_eq_self.mpr fun spec hspec => List.all_eq_true.mpr fun held hheld =>
        Option.isNone_iff_eq_none.mpr (hpacks.held spec hspec held hheld)]
      exact hsublist.filter _
    · rw [List.pairwise_map]
      exact hpacks.pairwise.imp fun h => (hcompatible _ _).mpr h

/-- The count is that of a largest choice of entries that conflict neither with each other nor with what is held. -/
theorem max_packable_exact (specs : List FallbackSpec) (resources : Resources) (heldClaimSets : List (List Claim)) :
    IsGreatest {n | ∃ chosen : List FallbackSpec, chosen.Sublist specs ∧ Packs resources heldClaimSets chosen ∧
      chosen.length = n} (maxPackableCatalogCount specs resources heldClaimSets) := by
  constructor
  · rcases Packing.visit_attained (candidates specs resources heldClaimSets) [] 0 with hzero | ⟨claims,hclaims,hlength⟩
    · exact ⟨[],List.nil_sublist _,⟨.nil,fun _ hspec => absurd hspec List.not_mem_nil⟩,hzero.symm⟩
    · obtain ⟨chosen,hsublist,hpacks,rfl⟩ := extends_iff.mp hclaims
      refine ⟨chosen,hsublist,hpacks,?_⟩
      rw [maxPackableCatalogCount,hlength,List.length_map,List.length_nil,Nat.zero_add]
  · rintro n ⟨chosen,hsublist,hpacks,rfl⟩
    rw [maxPackableCatalogCount,← Nat.zero_add chosen.length,← List.length_map FallbackSpec.claims]
    exact (extends_iff.mpr ⟨chosen,hsublist,hpacks,rfl⟩).le_visit

end TaskSupply

end Bureau
