import Bureau.MerkleTree

/-!
The public roots of a state snapshot: for a list of records their number and the root of a hash
tree over their sorted canonical bytes.
-/

namespace Bureau

namespace PublicRoots

open MerkleTree

abbrev Bytes := List (Fin 256)

structure Sha256 where
  digest : Bytes → Bytes
  length_digest : ∀ input, (digest input).length = 32

def asciiBytes (text : String) : Bytes := text.toList.map fun c => Fin.ofNat 256 c.toNat

def emptyMarker : Bytes := asciiBytes "bureau-public-merkle-empty-v1"

def leafMarker : Bytes := asciiBytes "bureau-public-merkle-leaf-v1\x00"

def nodeMarker : Bytes := asciiBytes "bureau-public-merkle-node-v1\x00"

/-- `bytes.hex`. -/
def hexByte (b : Fin 256) : List Char := [Nat.digitChar (b.val/16),Nat.digitChar (b.val%16)]

def hex (bytes : Bytes) : String := String.ofList (bytes.flatMap hexByte)

section

variable {ρ : Type} (canonicalBytes : ρ → Bytes) (H : Sha256)

def leafInput (item : Bytes) : Bytes := leafMarker ++ item

def nodeInput (left right : Bytes) : Bytes := nodeMarker ++ left ++ right

def serialized (records : List ρ) : List Bytes := (records.map canonicalBytes).insertionSort (· ≤ ·)

def leaves (records : List ρ) : List Bytes :=
  (serialized canonicalBytes records).map fun item => H.digest (leafInput item)

def node (left right : Bytes) : Bytes := H.digest (nodeInput left right)

def merkleRoot (records : List ρ) : String :=
  hex ((root (node H) (leaves canonicalBytes H records)).getD (H.digest emptyMarker))

/-- What `_public_roots` publishes of a list of records. -/
structure PublicRoot where
  count : ℕ
  merkleSha256 : String
  deriving DecidableEq

def publicRoot (records : List ρ) : PublicRoot := ⟨records.length,merkleRoot canonicalBytes H records⟩

def hashedInputs (records : List ρ) : List Bytes :=
  emptyMarker :: (serialized canonicalBytes records).map leafInput ++
    (hashedPairs (node H) (leaves canonicalBytes H records)).map fun pair => nodeInput pair.1 pair.2

end

theorem digitChar_inj {a b : ℕ} (ha : a < 16) (hb : b < 16) (h : Nat.digitChar a = Nat.digitChar b) : a = b := by
  have hall : ∀ x y : Fin 16, Nat.digitChar x.val = Nat.digitChar y.val → x = y := by decide
  exact congrArg Fin.val (hall ⟨a,ha⟩ ⟨b,hb⟩ h)

theorem hexByte_inj {a b : Fin 256} (h : hexByte a = hexByte b) : a = b := by
  simp only [hexByte,List.cons.injEq,and_true] at h
  have hhigh := digitChar_inj (by omega) (by omega) h.1
  have hlow := digitChar_inj (by omega) (by omega) h.2
  omega

theorem hex_inj {a b : Bytes} (h : hex a = hex b) : a = b := by
  have hchars : a.flatMap hexByte = b.flatMap hexByte := String.ofList_injective h
  clear h
  induction a generalizing b with
  | nil =>
    cases b with
    | nil => rfl
    | cons y ys => simp [hexByte] at hchars
  | cons x xs ih =>
    cases b with
    | nil => simp [hexByte] at hchars
    | cons y ys =>
      have hsplit : hexByte x ++ xs.flatMap hexByte = hexByte y ++ ys.flatMap hexByte := hchars
      obtain ⟨hfirst,hrest⟩ := List.append_inj hsplit rfl
      rw [hexByte_inj hfirst,ih hrest]

section

variable {ρ : Type} {canonicalBytes : ρ → Bytes} {H : Sha256} {a b : List ρ}

@[simp] theorem length_leaves (records : List ρ) : (leaves canonicalBytes H records).length = records.length := by
  rw [leaves,List.length_map,serialized,List.length_insertionSort,List.length_map]

theorem length_of_mem_levelPairs {level : List Bytes} (h : ∀ item ∈ level, item.length = 32) :
    ∀ p ∈ levelPairs level, p.1.length = 32 ∧ p.2.length = 32 := by
  induction level using levelPairs.induct with
  | case1 => simp [levelPairs]
  | case2 x => simpa [levelPairs] using h
  | case3 x y rest ih =>
    intro p hp
    rcases List.mem_cons.mp hp with rfl | hp
    · exact ⟨h x (by simp),h y (by simp)⟩
    · exact ih (fun item hitem => h item (by simp [hitem])) p hp

theorem length_of_mem_hashedPairs {level : List Bytes} (h : ∀ item ∈ level, item.length = 32) :
    ∀ p ∈ hashedPairs (node H) level, p.1.length = 32 ∧ p.2.length = 32 := by
  induction hn : level.length using Nat.strong_induction_on generalizing level with
  | _ n ih =>
    intro p hp
    unfold hashedPairs at hp
    by_cases hmany : 1 < level.length
    · rw [if_pos hmany] at hp
      rcases List.mem_append.mp hp with hp | hp
      · exact length_of_mem_levelPairs h p hp
      · have hup := length_levelUp (node H) level
        refine ih (levelUp (node H) level).length (by omega) ?_ rfl p hp
        intro item hitem
        obtain ⟨pair,_,rfl⟩ := List.mem_map.mp hitem
        exact H.length_digest _
    · rw [if_neg hmany] at hp
      exact absurd hp (by simp)

theorem length_of_mem_leaves {item : Bytes} {records : List ρ} (h : item ∈ leaves canonicalBytes H records) :
    item.length = 32 := by
  obtain ⟨_,_,rfl⟩ := List.mem_map.mp h
  exact H.length_digest _

theorem nodeInput_inj {p q : Bytes × Bytes} (hp : p.1.length = 32) (hq : q.1.length = 32)
    (h : nodeInput p.1 p.2 = nodeInput q.1 q.2) : p = q := by
  simp only [nodeInput,List.append_assoc,List.append_cancel_left_eq] at h
  obtain ⟨hleft,hright⟩ := List.append_inj h (hp.trans hq.symm)
  exact Prod.ext hleft hright

theorem publicRoot_perm (h : a.Perm b) : publicRoot canonicalBytes H a = publicRoot canonicalBytes H b := by
  have hsorted : serialized canonicalBytes a = serialized canonicalBytes b := by
    have hperm : (serialized canonicalBytes a).Perm (serialized canonicalBytes b) :=
      (List.perm_insertionSort _ _).trans ((h.map canonicalBytes).trans (List.perm_insertionSort _ _).symm)
    exact hperm.eq_of_pairwise (fun _ _ _ _ hle hge => le_antisymm hle hge) (List.pairwise_insertionSort _ _)
      (List.pairwise_insertionSort _ _)
  rw [publicRoot,publicRoot,merkleRoot,merkleRoot,leaves,leaves,hsorted,h.length_eq]

/-- Where no two of the hashed inputs collide, the leaves are determined by number and root. -/
theorem leaves_eq_of_publicRoot (hsha : Set.InjOn H.digest
      {input | input ∈ hashedInputs canonicalBytes H a ∨ input ∈ hashedInputs canonicalBytes H b})
    (h : publicRoot canonicalBytes H a = publicRoot canonicalBytes H b) :
    leaves canonicalBytes H a = leaves canonicalBytes H b := by
  obtain ⟨hcount,hroot⟩ := PublicRoot.mk.inj h
  have hlength : (leaves canonicalBytes H a).length = (leaves canonicalBytes H b).length := by
    rw [length_leaves,length_leaves,hcount]
  by_cases hempty : leaves canonicalBytes H a = []
  · rw [hempty,List.length_nil] at hlength
    rw [hempty,List.length_eq_zero_iff.mp hlength.symm]
  · have hother : leaves canonicalBytes H b ≠ [] := by
      intro hnil
      rw [hnil,List.length_nil] at hlength
      exact hempty (List.length_eq_zero_iff.mp hlength)
    obtain ⟨x,hx⟩ := Option.isSome_iff_exists.mp (root_isSome (node H) hempty)
    obtain ⟨y,hy⟩ := Option.isSome_iff_exists.mp (root_isSome (node H) hother)
    have hsame : root (node H) (leaves canonicalBytes H a) = root (node H) (leaves canonicalBytes H b) := by
      have hxy := hex_inj hroot
      rw [hx,hy] at hxy
      rw [hx,hy]
      exact congrArg some hxy
    refine root_inj hlength (fun p hp q hq hnodes => ?_) hsame
    have hpsize := length_of_mem_hashedPairs (fun _ => length_of_mem_leaves) p hp
    have hqsize := length_of_mem_hashedPairs (fun _ => length_of_mem_leaves) q hq
    refine nodeInput_inj hpsize.1 hqsize.1 (hsha (.inl ?_) (.inr ?_) hnodes)
    · exact List.mem_append_right _ (List.mem_map.mpr ⟨p,hp,rfl⟩)
    · exact List.mem_append_right _ (List.mem_map.mpr ⟨q,hq,rfl⟩)

theorem leafInput_inj {x y : Bytes} (h : leafInput x = leafInput y) : x = y :=
  List.append_cancel_left h

theorem perm_of_map_perm {α β : Type} {f : α → β} {xs ys : List α} (hf : Set.InjOn f {x | x ∈ xs ∨ x ∈ ys})
    (h : (xs.map f).Perm (ys.map f)) : xs.Perm ys := by
  induction xs generalizing ys with
  | nil =>
    have hys : ys = [] := List.map_eq_nil_iff.mp (List.nil_perm.mp h)
    rw [hys]
  | cons x xs ih =>
    have hmem : f x ∈ ys.map f := h.subset (by simp)
    obtain ⟨y,hy,hxy⟩ := List.mem_map.mp hmem
    have hsame : y = x := hf (.inr hy) (.inl List.mem_cons_self) hxy
    subst hsame
    obtain ⟨before,after,rfl⟩ := List.append_of_mem hy
    have hmiddle : (before ++ y :: after).Perm (y :: (before ++ after)) := List.perm_middle
    have hrest : (xs.map f).Perm ((before ++ after).map f) := (h.trans (hmiddle.map f)).cons_inv
    refine ((ih ?_ hrest).cons y).trans hmiddle.symm
    intro u hu v hv
    refine hf ?_ ?_
    · rcases hu with hu | hu
      · exact .inl (List.mem_cons_of_mem _ hu)
      · exact .inr (hmiddle.symm.subset (List.mem_cons_of_mem _ hu))
    · rcases hv with hv | hv
      · exact .inl (List.mem_cons_of_mem _ hv)
      · exact .inr (hmiddle.symm.subset (List.mem_cons_of_mem _ hv))

/-- Number and digest bind the records up to their order, and do not depend on it. -/
theorem public_root_binds_records (hbytes : Set.InjOn canonicalBytes {record | record ∈ a ∨ record ∈ b})
    (hsha : Set.InjOn H.digest
      {input | input ∈ hashedInputs canonicalBytes H a ∨ input ∈ hashedInputs canonicalBytes H b}) :
    publicRoot canonicalBytes H a = publicRoot canonicalBytes H b ↔ a.Perm b := by
  constructor
  · intro h
    have hleaves := leaves_eq_of_publicRoot hsha h
    have hserialized : serialized canonicalBytes a = serialized canonicalBytes b := by
      have hlength := congrArg List.length hleaves
      rw [leaves,leaves,List.length_map,List.length_map] at hlength
      refine List.ext_getElem hlength fun i hi hj => ?_
      have hitem : (leaves canonicalBytes H a)[i]? = (leaves canonicalBytes H b)[i]? := by rw [hleaves]
      rw [leaves,leaves,List.getElem?_map,List.getElem?_map,List.getElem?_eq_getElem hi,
        List.getElem?_eq_getElem hj] at hitem
      refine leafInput_inj (hsha (.inl ?_) (.inr ?_) (Option.some.inj hitem))
      · exact List.mem_cons_of_mem _ (List.mem_append_left _ (List.mem_map_of_mem (List.getElem_mem hi)))
      · exact List.mem_cons_of_mem _ (List.mem_append_left _ (List.mem_map_of_mem (List.getElem_mem hj)))
    have hperm : (a.map canonicalBytes).Perm (b.map canonicalBytes) := by
      refine (List.perm_insertionSort (· ≤ ·) _).symm.trans ?_
      show (serialized canonicalBytes a).Perm _
      rw [hserialized]
      exact List.perm_insertionSort (· ≤ ·) _
    exact perm_of_map_perm hbytes hperm
  · exact publicRoot_perm

end

namespace Sample

def folded : Sha256 where
  digest input :=
    let sum := input.foldl (fun sum b => (31*sum+b.val+1)%65536) 0
    List.replicate 30 0 ++ [Fin.ofNat 256 (sum/256),Fin.ofNat 256 sum]
  length_digest _ := by simp

def singleByte (b : Fin 256) : Bytes := [b]

def tripleInputs (x y z : Fin 256) : List Bytes :=
  let leaf b := folded.digest (leafInput [b])
  [emptyMarker,leafInput [x],leafInput [y],leafInput [z],nodeInput (leaf x) (leaf y),nodeInput (leaf z) (leaf z),
    nodeInput (node folded (leaf x) (leaf y)) (node folded (leaf z) (leaf z))]

theorem hashedInputs_triple {records : List (Fin 256)} {x y z : Fin 256}
    (h : serialized singleByte records = [[x],[y],[z]]) :
    hashedInputs singleByte folded records = tripleInputs x y z := by
  rw [hashedInputs,leaves,h,hashedPairs,if_pos (by simp),hashedPairs,if_pos (by simp [length_levelUp]),hashedPairs,
    if_neg (by simp [length_levelUp])]
  rfl

theorem injOn_folded : Set.InjOn folded.digest {input | input ∈ tripleInputs 0 1 2 ∨ input ∈ tripleInputs 0 1 3} := by
  have hdistinct : ∀ x ∈ tripleInputs 0 1 2 ++ tripleInputs 0 1 3, ∀ y ∈ tripleInputs 0 1 2 ++ tripleInputs 0 1 3,
      folded.digest x = folded.digest y → x = y := by decide +kernel
  exact fun x hx y hy => hdistinct x (List.mem_append.mpr hx) y (List.mem_append.mpr hy)

end Sample

/-- Three records in another order have the same root, and not if one of them is another record. -/
theorem public_root_binds_three :
    publicRoot Sample.singleByte Sample.folded [0,1,2] = publicRoot Sample.singleByte Sample.folded [2,0,1] ∧
      publicRoot Sample.singleByte Sample.folded [0,1,2] ≠ publicRoot Sample.singleByte Sample.folded [1,3,0] := by
  have hfirst : hashedInputs Sample.singleByte Sample.folded [0,1,2] = Sample.tripleInputs 0 1 2 :=
    Sample.hashedInputs_triple (by decide +kernel)
  have hrotated : hashedInputs Sample.singleByte Sample.folded [2,0,1] = Sample.tripleInputs 0 1 2 :=
    Sample.hashedInputs_triple (by decide +kernel)
  have hother : hashedInputs Sample.singleByte Sample.folded [1,3,0] = Sample.tripleInputs 0 1 3 :=
    Sample.hashedInputs_triple (by decide +kernel)
  have hbytes : Function.Injective Sample.singleByte := fun _ _ h => (List.cons.inj h).1
  constructor
  · refine (public_root_binds_records hbytes.injOn ?_).mpr (by decide)
    rw [hfirst,hrotated]
    exact Sample.injOn_folded.mono fun _ h => .inl (h.elim id id)
  · refine mt (public_root_binds_records hbytes.injOn ?_).mp (by decide)
    rw [hfirst,hother]
    exact Sample.injOn_folded

end PublicRoots

end Bureau
