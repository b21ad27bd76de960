import Bureau.Json
import Bureau.Forest
import Std.Data.ExtTreeMap

/-!
Resources, claims and reservations, and the conflict rule between them. A table keeps
one row per primary key.
-/

namespace Bureau

abbrev Table (V : Type) := Std.ExtTreeMap String V

/-- Claim modes; `writeBlocker` is the mode of a reservation derived from an open pull request. -/
inductive Mode where
  | read | write | exclusive | capacity | writeBlocker
  deriving DecidableEq, Repr

namespace Mode

def text : Mode → String
  | .read => "read"
  | .write => "write"
  | .exclusive => "exclusive"
  | .capacity => "capacity"
  | .writeBlocker => "write-blocker"

/-- The modes the task schema and the `claim-expand` command accept. -/
def claimable (mode : Mode) : Bool :=
  mode ≠ .writeBlocker

@[simp] theorem read_claimable : read.claimable = true := rfl

@[simp] theorem write_claimable : write.claimable = true := rfl

@[simp] theorem capacity_claimable : capacity.claimable = true := rfl

end Mode

structure Resource where
  id : String
  type : String
  parent : Option String
  capacity : Option Int
  path : Option String
  githubSlug : Option String
  grabowskiKey : Option String
  metadata : Json
  deriving DecidableEq

structure Claim where
  resource : String
  mode : Mode
  amount : Int
  isolation : String
  claimable : mode.claimable = true
  deriving DecidableEq

abbrev Time := ℕ

structure Hold where
  mode : Mode
  amount : Int
  createdAt : Time
  claimable : mode.claimable = true
  deriving DecidableEq

structure Reservation where
  runId : String
  resource : String
  mode : Mode
  amount : Int
  deriving DecidableEq

abbrev Resources := Table Resource

/-- The parent edge the walk follows; an empty parent text ends it. -/
def parentOf (resources : Resources) (id : String) : Option String :=
  match resources[id]? with
  | some resource => resource.parent.filter (· ≠ "")
  | none => none

/-- One round per registered resource is as far as the loop can go. -/
def ancestors (id : String) (resources : Resources) : List String :=
  Forest.climb (parentOf resources) (resources.toList.length+1) [] id

def overlaps (left right : String) (resources : Resources) : Bool :=
  left = right || left ∈ ancestors right resources || right ∈ ancestors left resources

def modesConflict (left right : Mode) : Bool :=
  if left = .exclusive ∨ right = .exclusive then true
  else if left = .writeBlocker ∨ right = .writeBlocker then left = .write ∨ right = .write
  else if left = .read ∧ right = .read then false
  else if left = .capacity ∧ right = .capacity then false
  else if (left = .capacity ∧ right = .read) ∨ (left = .read ∧ right = .capacity) then false
  else (left = .write ∨ right = .write) ∨ left ≠ right

inductive ClaimReason where
  | retired (resource : String) (mode : Mode)
  | conflict (resource : String) (mode : Mode) (held : Reservation)
  | noCapacity (resource : String)
  | capacityExceeded (resource : String) (used amount capacity : Int)
  deriving DecidableEq

def ClaimReason.text : ClaimReason → String
  | .retired resource mode =>
    resource ++ " is retired coordination-only; " ++ mode.text ++ " claim is forbidden"
  | .conflict resource mode held =>
    resource ++ ":" ++ mode.text ++ " conflicts with " ++ held.resource ++ ":" ++ held.mode.text ++
      " held by " ++ held.runId
  | .noCapacity resource => "capacity resource " ++ resource ++ " has no capacity"
  | .capacityExceeded resource used amount capacity =>
    resource ++ " capacity exceeded: " ++ toString used ++ "+" ++ toString amount ++ ">" ++
      toString capacity

/-- The resource accepts no claim but `read`. -/
def Resource.retired (resource : Resource) : Bool :=
  resource.metadata.get? "lifecycle" = some (.str "retired") &&
    resource.metadata.get? "coordination_only" = some (.bool true) &&
    resource.metadata.get? "mutation_claims_allowed" = some (.bool false)

def claimResourceLifecycleReasons (claim : Claim) (resources : Resources) : List ClaimReason :=
  match resources[claim.resource]? with
  | none => []
  | some resource =>
    if resource.retired ∧ claim.mode ≠ .read then [.retired claim.resource claim.mode] else []

def heldConflicts (claim : Claim) (active : List Reservation) (resources : Resources) :
    List Reservation :=
  active.filter fun held =>
    overlaps claim.resource held.resource resources && modesConflict claim.mode held.mode

def capacityUsed (resource : String) (active : List Reservation) : Int :=
  ((active.filter fun item => item.resource = resource ∧ item.mode = .capacity).map (·.amount)).sum

/-- A claimed resource is always registered; a missing one reads as one without a capacity. -/
def capacityReasons (claim : Claim) (active : List Reservation) (resources : Resources) :
    List ClaimReason :=
  if claim.mode = .capacity then
    match (resources[claim.resource]?).bind (·.capacity) with
    | none => [.noCapacity claim.resource]
    | some capacity =>
      if capacityUsed claim.resource active + claim.amount > capacity then
        [.capacityExceeded claim.resource (capacityUsed claim.resource active) claim.amount capacity]
      else []
  else []

def claimConflicts (claim : Claim) (active : List Reservation) (resources : Resources) :
    List ClaimReason :=
  claimResourceLifecycleReasons claim resources ++
    (heldConflicts claim active resources).map (.conflict claim.resource claim.mode) ++
    capacityReasons claim active resources

theorem modesConflict_comm (left right : Mode) : modesConflict left right = modesConflict right left := by
  cases left <;> cases right <;> decide

theorem modesConflict_eq_false_iff {left right : Mode} (hl : left.claimable) (hr : right.claimable) :
    modesConflict left right = false ↔
      (left = .read ∧ right = .read) ∨ (left = .capacity ∧ right = .capacity) ∨
      (left = .read ∧ right = .capacity) ∨ (left = .capacity ∧ right = .read) := by
  revert hl hr
  cases left <;> cases right <;> decide

theorem overlaps_comm (left right : String) (resources : Resources) :
    overlaps left right resources = overlaps right left resources := by
  by_cases h : left = right
  · simp [overlaps,h]
  · simp [overlaps,h,Ne.symm h,Bool.or_comm]

variable {resources : Resources}

theorem parentOf_registered {id : String} (h : parentOf resources id ≠ none) :
    id ∈ resources.toList.map Prod.fst := by
  cases hr : resources[id]? with
  | none => simp [parentOf,hr] at h
  | some resource =>
    exact List.mem_map.mpr ⟨(id,resource),Std.ExtTreeMap.mem_toList_iff_getElem?_eq_some.mpr hr,rfl⟩

theorem ancestors_rounds (resources : Resources) (id : String) : ∃ n w, Forest.Rounds (parentOf resources) ⟨[],id⟩ n w ∧
    w.next (parentOf resources) = none ∧ n ≤ resources.toList.length+1 ∧ w.Follows (parentOf resources) id ∧
    w.listed = ancestors id resources := by
  have hstart := Forest.Walk.follows_start (parentOf resources) id
  obtain ⟨n,w,hrun,hend,hle⟩ := Forest.exists_rounds_end (fun _ h => parentOf_registered h) hstart
  rw [List.length_map] at hle
  have hfuel : n ≤ resources.toList.length+1 := by
    rw [List.length_nil] at hle
    omega
  refine ⟨n,w,hrun,hend,hfuel,hstart.run hrun,?_⟩
  rw [hrun.listed_eq hend hfuel (fun _ => Iff.rfl),List.nil_append]
  rfl

theorem getElem?_ancestors (hac : Forest.Acyclic (parentOf resources)) (id : String) (n : ℕ) :
    (ancestors id resources)[n]? = Forest.up (parentOf resources) (n+1) id := by
  obtain ⟨_,w,_,hend,_,hfollows,hlisted⟩ := ancestors_rounds resources id
  rw [← hlisted,hfollows.getElem?_listed hend hac]

theorem mem_ancestors_iff (hac : Forest.Acyclic (parentOf resources))
    (id above : String) : above ∈ ancestors id resources ↔ Forest.Above (parentOf resources) id above := by
  simp only [List.mem_iff_getElem?,getElem?_ancestors hac,Forest.above_iff_up]

/-- Two resources overlap when they are equal or one is an ancestor of the other. -/
def Overlap (resources : Resources) (left right : String) : Prop :=
  left = right ∨ Forest.Above (parentOf resources) right left ∨
    Forest.Above (parentOf resources) left right

theorem overlaps_iff (hac : Forest.Acyclic (parentOf resources))
    (left right : String) : overlaps left right resources = true ↔ Overlap resources left right := by
  simp only [overlaps,Overlap,Bool.or_eq_true,decide_eq_true_eq,mem_ancestors_iff hac,or_assoc]

theorem claimConflicts_eq_nil_iff {claim : Claim} {active : List Reservation} :
    claimConflicts claim active resources = [] ↔
      claimResourceLifecycleReasons claim resources = [] ∧
      (∀ held ∈ active, overlaps claim.resource held.resource resources = true →
        modesConflict claim.mode held.mode = false) ∧
      capacityReasons claim active resources = [] := by
  simp [claimConflicts,heldConflicts,List.filter_eq_nil_iff]

open Forest

theorem mem_ancestors_iff_up (resources : Resources) (id above : String) :
    above ∈ ancestors id resources ↔ ∃ n, up (parentOf resources) (n+1) id = some above := by
  obtain ⟨_,w,_,hend,_,hfollows,hlisted⟩ := ancestors_rounds resources id
  rw [← hlisted,hfollows.mem_listed_iff hend]

theorem onPath_iff (resources : Resources) (id above : String) :
    OnPath (parentOf resources) id above ↔ above = id ∨ above ∈ ancestors id resources := by
  rw [mem_ancestors_iff_up]
  constructor
  · rintro ⟨n,hn⟩
    cases n with
    | zero => exact .inl (Option.some.inj hn).symm
    | succ n => exact .inr ⟨n,hn⟩
  · rintro (rfl | ⟨n,hn⟩)
    · exact ⟨0,rfl⟩
    · exact ⟨n+1,hn⟩

/-- For every parent map, `ancestors` ends; without a cycle it lists all proper ancestors in their order; and
resources overlap, symmetrically, where one lies on the path from the other to its root. -/
theorem overlap_is_tree_order (resources : Resources) :
    (∀ id, ∃ n w, Rounds (parentOf resources) ⟨[],id⟩ n w ∧ w.next (parentOf resources) = none ∧
      n ≤ resources.toList.length+1 ∧ w.listed = ancestors id resources) ∧
    (Acyclic (parentOf resources) → ∀ id n, (ancestors id resources)[n]? = up (parentOf resources) (n+1) id) ∧
    (∀ left right, overlaps left right resources = overlaps right left resources) ∧
    ∀ left right, overlaps left right resources = true ↔
      OnPath (parentOf resources) left right ∨ OnPath (parentOf resources) right left := by
  refine ⟨fun id => ?_,fun hac id n => ?_,fun left right => overlaps_comm left right resources,fun left right => ?_⟩
  · obtain ⟨n,w,hrun,hend,hle,_,hlisted⟩ := ancestors_rounds resources id
    exact ⟨n,w,hrun,hend,hle,hlisted⟩
  · exact getElem?_ancestors hac id n
  · simp only [overlaps,Bool.or_eq_true,decide_eq_true_eq,onPath_iff]
    constructor
    · rintro ((rfl | hleft) | hright)
      · exact .inl (.inl rfl)
      · exact .inr (.inr hleft)
      · exact .inl (.inr hright)
    · rintro ((rfl | hright) | (rfl | hleft))
      · exact .inl (.inl rfl)
      · exact .inr hright
      · exact .inl (.inl rfl)
      · exact .inl (.inr hleft)

/-- A resource with a registered parent, whose own parent is not registered. -/
def danglingResources : Resources := Std.ExtTreeMap.ofList
  [("a",Resource.mk "a" "directory" (some "b") none none none none (.obj [])),
    ("b",Resource.mk "b" "directory" (some "c") none none none none (.obj []))]

theorem overlap_is_tree_order_dangling : (∀ n : ℕ, (ancestors "a" danglingResources)[n]? = ["b","c"][n]?) ∧
    overlaps "c" "a" danglingResources = true := by
  have hkeys : danglingResources.toList.map Prod.fst = ["a","b"] := by decide +kernel
  have hparents : parentOf danglingResources "a" = some "b" ∧ parentOf danglingResources "b" = some "c" := by
    decide +kernel
  have hac : Acyclic (parentOf danglingResources) := by
    refine acyclic_of_depth (fun id => if id = "a" then 2 else if id = "b" then 1 else 0) fun id above habove => ?_
    have hmem := parentOf_registered (habove ▸ Option.some_ne_none above : parentOf danglingResources id ≠ none)
    rw [hkeys,List.mem_cons,List.mem_singleton] at hmem
    rcases hmem with rfl | rfl
    · rw [← Option.some.inj (hparents.1.symm.trans habove)]
      decide
    · rw [← Option.some.inj (hparents.2.symm.trans habove)]
      decide
  obtain ⟨_,hchain,_,hoverlaps⟩ := overlap_is_tree_order danglingResources
  have hroot : up (parentOf danglingResources) 3 "a" = none := by decide +kernel
  refine ⟨fun n => ?_,(hoverlaps "c" "a").mpr (.inr ⟨2,by decide +kernel⟩)⟩
  rw [hchain hac]
  match n with
  | 0 => decide +kernel
  | 1 => decide +kernel
  | n+2 =>
    rw [show n+2+1 = 3+n from by omega,up_add,hroot]
    rfl

end Bureau
