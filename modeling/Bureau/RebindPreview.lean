import Bureau.RebindAtomic

/-!
What a rebind of one TaskSpec changes and what it leaves behind. The rewritten document differs from the
old one in one claim, the working repository and the entries of the resources. The residue check walks the
whole document with the path of each value as a text; it passes only if no text outside the exempt fields
has a token of the old repository, read once through percent decoding.
-/

namespace Bureau

namespace RepositoryRebind

open Transactions

variable {new path word : String} {claim execution item moved spec value : Json} {claims entries items : List Json}
    {fields : List (String × Json)}

/-! Places in a document. -/

/-- A value of a document with the keys and indexes that lead to it. -/
inductive At : List String → Json → Json → Prop where
  | here (value : Json) : At [] value value
  | field {key : String} {item value : Json} {fields : List (String × Json)} {place : List String}
      (hfield : (key,item) ∈ fields) (h : At place item value) : At (key :: place) (.obj fields) value
  | item {index : ℕ} {item value : Json} {items : List Json} {place : List String}
      (hitem : items[index]? = some item) (h : At place item value) : At (toString index :: place) (.arr items) value

def ownTexts : Json → List String
  | .str text => [text]
  | .obj fields => fields.map Prod.fst
  | _ => []

/-- The fields a rebind does not look into: acceptance, title, goal and the prose of the similarity check. -/
def Exempt (place : List String) (value : Json) : Prop :=
  place.head? = some "acceptance" ∨ place.head? = some "title" ∨ place.head? = some "goal" ∨
    (place = ["metadata","similarity_checked"] ∧ value.str?.isSome = true)

def pathFrom (path : String) (place : List String) : String := place.foldl (fun path part => path ++ "/" ++ part) path

/-- The exemptions of the residue check that do not depend on the value. -/
def exemptPath (path : String) : Bool :=
  isAcceptanceEvidencePath path || path = "/title" || path = "/goal"

section Residue

variable {R : Rules} {p : RebindParameters}

theorem residueOfFields_eq_nil (h : residueOfFields R p path fields = []) {key : String}
    (hfield : (key,item) ∈ fields) :
    namesOld R p key = false ∧ oldBindingResidue R p (path ++ "/" ++ key) item = [] := by
  induction fields with
  | nil => cases hfield
  | cons head rest ih =>
    obtain ⟨name,value⟩ := head
    simp only [residueOfFields,List.append_eq_nil_iff] at h
    obtain ⟨⟨hkey,hvalue⟩,hrest⟩ := h
    rcases List.mem_cons.mp hfield with hhead | hfield
    · cases hhead
      exact ⟨by simpa using hkey,hvalue⟩
    · exact ih hrest hfield

theorem residueOfItems_eq_nil {first : ℕ} (h : residueOfItems R p path first items = []) {index : ℕ}
    (hitem : items[index]? = some item) :
    oldBindingResidue R p (path ++ "/" ++ toString (first+index)) item = [] := by
  induction items generalizing first index with
  | nil => simp at hitem
  | cons head rest ih =>
    simp only [residueOfItems,List.append_eq_nil_iff] at h
    cases index with
    | zero =>
      obtain rfl : head = item := by simpa using hitem
      exact h.1
    | succ index =>
      have hnext := ih h.2 (by simpa using hitem)
      rwa [show first+1+index = first+(index+1) by omega] at hnext

theorem not_exempt_of_container (h : exemptPath path = false) (hvalue : value.str? = none) :
    (isAcceptanceEvidencePath path || isNontechnicalTaskProsePath path value) = false := by
  simp only [exemptPath,Bool.or_eq_false_iff] at h
  simp [isNontechnicalTaskProsePath,h,hvalue]

theorem clean_of_residue {place : List String} {root : Json} (hat : At place root value)
    (h : oldBindingResidue R p path root = [])
    (habove : ∀ above below, place = above ++ below → below ≠ [] → exemptPath (pathFrom path above) = false)
    (hhere : (isAcceptanceEvidencePath (pathFrom path place) ||
      isNontechnicalTaskProsePath (pathFrom path place) value) = false) :
    ∀ text ∈ ownTexts value, namesOld R p text = false := by
  induction hat generalizing path with
  | here value =>
    simp only [pathFrom,List.foldl_nil] at hhere
    rw [oldBindingResidue.eq_def,if_neg (by simpa using hhere)] at h
    intro text htext
    cases value with
    | str stored =>
      obtain rfl : text = stored := by simpa [ownTexts] using htext
      simpa using h
    | obj fields =>
      obtain ⟨⟨key,item⟩,hfield,rfl⟩ := List.mem_map.mp htext
      exact (residueOfFields_eq_nil h hfield).1
    | _ => simp [ownTexts] at htext
  | @field key item value fields place hfield _ ih =>
    have hinner : (isAcceptanceEvidencePath path || isNontechnicalTaskProsePath path (.obj fields)) = false :=
      not_exempt_of_container (habove [] _ rfl (by simp)) rfl
    rw [oldBindingResidue.eq_def,if_neg (by simp [hinner])] at h
    exact ih (residueOfFields_eq_nil h hfield).2
      (fun above below hplace => habove (_ :: above) below (by rw [hplace]; rfl))
      hhere
  | @item index item value items place hitem _ ih =>
    have hinner : (isAcceptanceEvidencePath path || isNontechnicalTaskProsePath path (.arr items)) = false :=
      not_exempt_of_container (habove [] _ rfl (by simp)) rfl
    rw [oldBindingResidue.eq_def,if_neg (by simp [hinner])] at h
    have hnext := residueOfItems_eq_nil h hitem
    rw [Nat.zero_add] at hnext
    exact ih hnext (fun above below hplace => habove (_ :: above) below (by rw [hplace]; rfl)) hhere

end Residue

/-! Paths as texts. -/

@[simp] theorem toList_pathFrom (path : String) (place : List String) :
    (pathFrom path place).toList = path.toList ++ place.flatMap fun part => '/' :: part.toList := by
  induction place generalizing path with
  | nil => simp [pathFrom]
  | cons part rest ih =>
    change (pathFrom (path ++ "/" ++ part) rest).toList = _
    rw [ih]
    simp

def Continues (rest : List Char) : Prop := rest = [] ∨ rest.head? = some '/'

theorem continues_parts (place : List String) : Continues (place.flatMap fun part => '/' :: part.toList) := by
  cases place with
  | nil => exact .inl rfl
  | cons part rest => exact .inr rfl

theorem first_part {part word tail rest : List Char} (hpart : '/' ∉ part) (hword : '/' ∉ word) (htail : Continues tail)
    (hrest : Continues rest) (h : part ++ tail = word ++ rest) : part = word ∧ tail = rest := by
  have hcut {left right : List Char} (hleft : '/' ∉ left) (hright : Continues right) :
      (left ++ right).takeWhile (· ≠ '/') = left := by
    have hall : ∀ c ∈ left, decide (c ≠ '/') = true := by
      intro c hc
      rw [decide_eq_true_eq]
      rintro rfl
      exact hleft hc
    rw [List.takeWhile_append_of_pos hall]
    rcases hright with rfl | hslash
    · simp
    · cases right with
      | nil => simp
      | cons c rest =>
        obtain rfl : c = '/' := by simpa using hslash
        simp
  have hsame : part = word := by rw [← hcut hpart htail,h,hcut hword hrest]
  exact ⟨hsame,List.append_cancel_left (hsame ▸ h)⟩

theorem toList_pathFrom_cons (part : String) (place : List String) :
    (pathFrom "" (part :: place)).toList = '/' :: (part.toList ++ place.flatMap fun part => '/' :: part.toList) := by
  rw [toList_pathFrom]
  simp

section Places

variable {part : String} {place : List String}

theorem part_of_path (hpart : '/' ∉ part.toList) (hword : '/' ∉ word.toList) {rest : List Char}
    (hrest : Continues rest) (h : (pathFrom "" (part :: place)).toList = '/' :: (word.toList ++ rest)) :
    part = word ∧ (place.flatMap fun part => '/' :: part.toList) = rest := by
  rw [toList_pathFrom_cons,List.cons.injEq] at h
  obtain ⟨hsame,htail⟩ := first_part hpart hword (continues_parts place) hrest h.2
  exact ⟨String.toList_inj.mp hsame,htail⟩

theorem exempt_of_exemptPath (hpart : '/' ∉ part.toList) (h : exemptPath (pathFrom "" (part :: place)) = true) :
    part = "acceptance" ∨ part = "title" ∨ part = "goal" := by
  simp only [exemptPath,isAcceptanceEvidencePath,Bool.or_eq_true,decide_eq_true_eq] at h
  rcases h with ((h | h) | h) | h
  · exact .inl (part_of_path hpart (by decide) (.inl rfl) (by rw [h]; rfl)).1
  · obtain ⟨rest,hrest⟩ := List.isPrefixOf_iff_prefix.mp h
    exact .inl (part_of_path hpart (by decide) (.inr rfl) (hrest.symm.trans rfl)).1
  · exact .inr (.inl (part_of_path hpart (by decide) (.inl rfl) (by rw [h]; rfl)).1)
  · exact .inr (.inr (part_of_path hpart (by decide) (.inl rfl) (by rw [h]; rfl)).1)

theorem place_of_similarity_path (hpart : '/' ∉ part.toList)
    (h : pathFrom "" (part :: place) = "/metadata/similarity_checked") :
    part :: place = ["metadata","similarity_checked"] := by
  have hlist : (pathFrom "" (part :: place)).toList = '/' :: ("metadata".toList ++ "/similarity_checked".toList) := by
    rw [h]
    rfl
  obtain ⟨rfl,htail⟩ := part_of_path hpart (by decide) (.inr rfl) hlist
  cases place with
  | nil => cases htail
  | cons next rest =>
    have hnext : next.toList ++ rest.flatMap (fun part => '/' :: part.toList) = "similarity_checked".toList := by
      rw [List.flatMap_cons,List.cons_append] at htail
      exact (List.cons.inj htail).2
    cases rest with
    | nil =>
      rw [List.flatMap_nil,List.append_nil] at hnext
      rw [String.toList_inj.mp hnext]
    | cons last rest =>
      have hslash : '/' ∈ "similarity_checked".toList := by
        rw [← hnext]
        simp
      exact absurd hslash (by decide)

theorem clean_of_document {R : Rules} {p : RebindParameters} (hkeys : ∀ field ∈ fields, '/' ∉ field.1.toList)
    (h : oldBindingResidue R p "" (.obj fields) = []) (hat : At place (.obj fields) value)
    (hnot : ¬ Exempt place value) :
    ∀ text ∈ ownTexts value, namesOld R p text = false := by
  have hfirst : ∀ first rest, place = first :: rest → '/' ∉ first.toList := by
    rintro first rest rfl
    cases hat with
    | field hfield _ => exact hkeys _ hfield
  have hpath : ∀ above below, place = above ++ below → exemptPath (pathFrom "" above) = false := by
    intro above below hplace
    cases above with
    | nil => rfl
    | cons first rest =>
      by_contra hexempt
      have hhead : place.head? = some first := by rw [hplace]; rfl
      obtain rfl | rfl | rfl := exempt_of_exemptPath (hfirst first (rest ++ below) hplace) (by simpa using hexempt)
      · exact hnot (.inl hhead)
      · exact hnot (.inr (.inl hhead))
      · exact hnot (.inr (.inr (.inl hhead)))
  refine clean_of_residue hat h (fun above below hplace _ => hpath above below hplace) ?_
  by_contra hexempt
  have hnone := hpath place [] (by rw [List.append_nil])
  simp only [exemptPath,Bool.or_eq_false_iff,decide_eq_false_iff_not] at hnone
  simp only [isNontechnicalTaskProsePath,hnone.1.1,hnone.1.2,hnone.2,decide_false,Bool.false_or,Bool.not_eq_false,
    Bool.and_eq_true,decide_eq_true_eq] at hexempt
  cases place with
  | nil => exact absurd hexempt.1 (by decide)
  | cons first rest =>
    exact hnot (.inr (.inr (.inr ⟨place_of_similarity_path (hfirst first rest rfl) hexempt.1,hexempt.2⟩)))

end Places

/-! Whole tokens. -/

@[simp] theorem mem_occurrences {word text : List Char} {index : ℕ} :
    index ∈ occurrences word text ↔ ∃ before after, text = before ++ word ++ after ∧ before.length = index := by
  simp only [occurrences,List.mem_filter,List.mem_range,occursAt,List.isPrefixOf_iff_prefix]
  constructor
  · rintro ⟨hindex,after,hafter⟩
    refine ⟨text.take index,after,?_,by rw [List.length_take]; omega⟩
    rw [List.append_assoc,hafter,List.take_append_drop]
  · rintro ⟨before,after,rfl,rfl⟩
    refine ⟨by rw [List.length_append,List.length_append]; omega,after,?_⟩
    rw [List.append_assoc,List.drop_left]

def EndsPath (rest : List Char) : Prop := ∀ c, rest.head? = some c → c ∈ repositoryTokenAfter

def StartsPath (R : Rules) (text before : List Char) : Prop :=
  before = [] ∨ (∃ c, before.getLast? = some c ∧ c ∈ repositoryTokenBefore) ∨ "://".toList <:+ before ∨
    isUriAuthorityPathBoundary R text before.length = true ∨ isShellParameterTokenBoundary text before.length = true

def PathToken (R : Rules) (path new : String) (text : List Char) : Prop :=
  ∃ before after, text = before ++ path.toList ++ after ∧ StartsPath R text before ∧ EndsPath after ∧
    ¬ (path.toList ++ ['/'] <+: new.toList ∧ ∃ rest, path.toList ++ after = new.toList ++ rest ∧ EndsPath rest)

def IdChar (R : Rules) (c : Char) : Prop := R.isalnum c = true ∨ c ∈ resourceIdExtra

def IdToken (R : Rules) (id new : String) (text : List Char) : Prop :=
  ∃ before after, text = before ++ id.toList ++ after ∧
    ((∀ c, before.getLast? = some c → ¬ IdChar R c) ∨ isShellParameterTokenBoundary text before.length = true) ∧
    (∀ c, after.head? = some c → ¬ IdChar R c) ∧
    ¬ (id.toList <+: new.toList ∧ ∃ rest, id.toList ++ after = new.toList ++ rest ∧
      ∀ c, rest.head? = some c → ¬ IdChar R c ∧ c ≠ ':')

theorem getElem?_after (before word after : List Char) :
    (before ++ word ++ after)[before.length+word.length]? = after.head? := by
  rw [← List.length_append,List.getElem?_append_right (Nat.le_refl _),Nat.sub_self,List.head?_eq_getElem?]

theorem getElem?_before {before rest : List Char} (h : before ≠ []) :
    (before ++ rest)[before.length-1]? = before.getLast? := by
  have hlength := List.length_pos_of_ne_nil h
  rw [List.getElem?_append_left (by omega),List.getLast?_eq_getElem?]

@[simp] theorem occursAt_iff {before tail word : List Char} :
    occursAt word (before ++ tail) before.length = true ↔ ∃ rest, tail = word ++ rest := by
  rw [occursAt,List.isPrefixOf_iff_prefix,List.drop_left]
  exact ⟨fun ⟨rest,h⟩ => ⟨rest,h.symm⟩,fun ⟨rest,h⟩ => ⟨rest,h.symm⟩⟩

theorem ends_iff {before word after : List Char} {ok : Option Char → Bool} :
    (decide (before.length+word.length = (before ++ word ++ after).length) ||
      ok (before ++ word ++ after)[before.length+word.length]?) = true ↔
    ∀ c, after.head? = some c → ok (some c) = true := by
  rw [getElem?_after]
  cases after <;> simp

theorem excluded_iff {before tail new : List Char} {ok : Option Char → Bool} :
    (occursAt new (before ++ tail) before.length && (decide (before.length+new.length = (before ++ tail).length) ||
      ok (before ++ tail)[before.length+new.length]?)) = true ↔
    ∃ rest, tail = new ++ rest ∧ ∀ c, rest.head? = some c → ok (some c) = true := by
  rw [Bool.and_eq_true,occursAt_iff]
  constructor
  · rintro ⟨⟨rest,rfl⟩,hends⟩
    rw [← List.append_assoc] at hends
    exact ⟨rest,rfl,ends_iff.mp hends⟩
  · rintro ⟨rest,rfl,hends⟩
    refine ⟨⟨rest,rfl⟩,?_⟩
    rw [← List.append_assoc]
    exact ends_iff.mpr hends

theorem occursAt_end_iff {before tail word : List Char} :
    (decide (word.length ≤ before.length) && occursAt word (before ++ tail) (before.length-word.length)) = true ↔
      word <:+ before := by
  rw [Bool.and_eq_true,decide_eq_true_eq]
  constructor
  · rintro ⟨hlength,hoccurs⟩
    obtain ⟨first,last,rfl,hlast⟩ : ∃ first last, before = first ++ last ∧ last.length = word.length :=
      ⟨before.take (before.length-word.length),before.drop (before.length-word.length),(List.take_append_drop _ _).symm,
        by rw [List.length_drop]; omega⟩
    rw [List.length_append,hlast,Nat.add_sub_cancel,List.append_assoc,occursAt_iff] at hoccurs
    obtain ⟨rest,hrest⟩ := hoccurs
    rw [(List.append_inj hrest hlast).1]
    exact List.suffix_append _ _
  · rintro ⟨first,rfl⟩
    refine ⟨by simp,?_⟩
    rw [List.length_append,Nat.add_sub_cancel,List.append_assoc,occursAt_iff]
    exact ⟨tail,rfl⟩

theorem startsPath_iff {R : Rules} {before tail : List Char} :
    (decide (before.length = 0) || ((before ++ tail)[before.length-1]?).any repositoryTokenBefore.contains ||
      (decide (3 ≤ before.length) && occursAt "://".toList (before ++ tail) (before.length-3)) ||
      isUriAuthorityPathBoundary R (before ++ tail) before.length ||
      isShellParameterTokenBoundary (before ++ tail) before.length) = true ↔ StartsPath R (before ++ tail) before := by
  have hscheme := @occursAt_end_iff before tail "://".toList
  rw [show "://".toList.length = 3 from rfl] at hscheme
  rw [Bool.or_eq_true,Bool.or_eq_true,Bool.or_eq_true,Bool.or_eq_true,hscheme,StartsPath]
  by_cases hempty : before = []
  · simp [hempty]
  · rw [getElem?_before hempty]
    simp only [List.length_eq_zero_iff,hempty,decide_false,Bool.false_eq_true,false_or,or_assoc]
    refine or_congr ?_ Iff.rfl
    cases before.getLast? <;> simp

theorem pathChecks_iff {R : Rules} {before after : List Char} :
    ((decide (before.length = 0) ||
          ((before ++ path.toList ++ after)[before.length-1]?).any repositoryTokenBefore.contains ||
        (decide (3 ≤ before.length) && occursAt "://".toList (before ++ path.toList ++ after) (before.length-3)) ||
        isUriAuthorityPathBoundary R (before ++ path.toList ++ after) before.length ||
        isShellParameterTokenBoundary (before ++ path.toList ++ after) before.length) &&
      (decide (before.length+path.length = (before ++ path.toList ++ after).length) ||
        ((before ++ path.toList ++ after)[before.length+path.length]?).any repositoryTokenAfter.contains) &&
      !(TaskSpecs.startsWith new (path ++ "/") && occursAt new.toList (before ++ path.toList ++ after) before.length &&
        (decide (before.length+new.length = (before ++ path.toList ++ after).length) ||
          ((before ++ path.toList ++ after)[before.length+new.length]?).any repositoryTokenAfter.contains))) = true ↔
    StartsPath R (before ++ path.toList ++ after) before ∧ EndsPath after ∧
      ¬ (path.toList ++ ['/'] <+: new.toList ∧ ∃ rest, path.toList ++ after = new.toList ++ rest ∧ EndsPath rest) := by
  have hnew : TaskSpecs.startsWith new (path ++ "/") = true ↔ path.toList ++ ['/'] <+: new.toList := by
    rw [TaskSpecs.startsWith,List.isPrefixOf_iff_prefix,String.toList_append]
    rfl
  have hends := @ends_iff before path.toList after (·.any repositoryTokenAfter.contains)
  have hexcluded := @excluded_iff before (path.toList ++ after) new.toList (·.any repositoryTokenAfter.contains)
  rw [String.length_toList] at hends
  rw [← List.append_assoc,String.length_toList] at hexcluded
  rw [Bool.and_eq_true,Bool.and_eq_true,Bool.not_eq_true',← Bool.not_eq_true,Bool.and_assoc,Bool.and_eq_true,hnew,
    hexcluded,hends,List.append_assoc,startsPath_iff,and_assoc]
  simp only [EndsPath,Option.any_some,List.contains_iff_mem]

theorem contains_path_iff {R : Rules} {value : String} :
    containsRepositoryPathToken R value path new = true ↔ PathToken R path new (decoded R value) := by
  simp only [containsRepositoryPathToken,List.any_eq_true,mem_occurrences,PathToken]
  constructor
  · rintro ⟨_,⟨before,after,htext,rfl⟩,hchecks⟩
    rw [htext] at hchecks ⊢
    exact ⟨before,after,rfl,pathChecks_iff.mp hchecks⟩
  · rintro ⟨before,after,htext,hchecks⟩
    rw [htext] at hchecks ⊢
    exact ⟨before.length,⟨before,after,rfl,rfl⟩,pathChecks_iff.mpr hchecks⟩

theorem idChecks_iff {R : Rules} {id : String} {before after : List Char} :
    ((decide (before.length = 0) ||
          !((before ++ id.toList ++ after)[before.length-1]?).any
            (fun c => R.isalnum c || resourceIdExtra.contains c) ||
        isShellParameterTokenBoundary (before ++ id.toList ++ after) before.length) &&
      (decide (before.length+id.length = (before ++ id.toList ++ after).length) ||
        !((before ++ id.toList ++ after)[before.length+id.length]?).any
          (fun c => R.isalnum c || resourceIdExtra.contains c)) &&
      !(TaskSpecs.startsWith new id && occursAt new.toList (before ++ id.toList ++ after) before.length &&
        (decide (before.length+new.length = (before ++ id.toList ++ after).length) ||
          !((before ++ id.toList ++ after)[before.length+new.length]?).any
            fun c => (R.isalnum c || resourceIdExtra.contains c) || c = ':'))) = true ↔
    ((∀ c, before.getLast? = some c → ¬ IdChar R c) ∨
        isShellParameterTokenBoundary (before ++ id.toList ++ after) before.length = true) ∧
      (∀ c, after.head? = some c → ¬ IdChar R c) ∧
      ¬ (id.toList <+: new.toList ∧ ∃ rest, id.toList ++ after = new.toList ++ rest ∧
        ∀ c, rest.head? = some c → ¬ IdChar R c ∧ c ≠ ':') := by
  have hnew : TaskSpecs.startsWith new id = true ↔ id.toList <+: new.toList := by
    rw [TaskSpecs.startsWith,List.isPrefixOf_iff_prefix]
  have hends := @ends_iff before id.toList after
    (fun c => !c.any fun c => R.isalnum c || resourceIdExtra.contains c)
  have hexcluded := @excluded_iff before (id.toList ++ after) new.toList
    (fun c => !c.any fun c => (R.isalnum c || resourceIdExtra.contains c) || c = ':')
  have hstart : (decide (before.length = 0) ||
      !((before ++ id.toList ++ after)[before.length-1]?).any fun c => R.isalnum c || resourceIdExtra.contains c) =
        true ↔ ∀ c, before.getLast? = some c → ¬ IdChar R c := by
    by_cases hempty : before = []
    · simp [hempty]
    · rw [List.append_assoc,getElem?_before hempty]
      cases hlast : before.getLast? with
      | none => simp
      | some c => simp [hempty,IdChar]
  rw [String.length_toList] at hends
  rw [← List.append_assoc,String.length_toList] at hexcluded
  rw [Bool.and_eq_true,Bool.and_eq_true,Bool.not_eq_true',← Bool.not_eq_true,Bool.and_assoc,Bool.and_eq_true,hnew,
    hexcluded,hends,Bool.or_eq_true,hstart,and_assoc]
  simp [IdChar]

theorem contains_id_iff {R : Rules} {value id : String} :
    containsResourceIdToken R value id new = true ↔ IdToken R id new (decoded R value) := by
  simp only [containsResourceIdToken,List.any_eq_true,mem_occurrences,IdToken]
  constructor
  · rintro ⟨_,⟨before,after,htext,rfl⟩,hchecks⟩
    rw [htext] at hchecks ⊢
    exact ⟨before,after,rfl,idChecks_iff.mp hchecks⟩
  · rintro ⟨before,after,htext,hchecks⟩
    rw [htext] at hchecks ⊢
    exact ⟨before.length,⟨before,after,rfl,rfl⟩,idChecks_iff.mpr hchecks⟩

/-! What is rewritten. -/

/-- An entry of the resources before and after: the same, or a key of the new repository for one of the old. -/
def Entry (p : RebindParameters) (before after : Json) : Prop :=
  after = before ∨ ∃ kind ∈ ["repo:","path:"], ∃ suffix, before = .str (kind ++ p.oldRepositoryPath ++ suffix) ∧
    after = .str (kind ++ p.newRepositoryPath ++ suffix)

structure RebindsExecution (p : RebindParameters) (before after : Json) : Prop where
  others : ∀ key, key ≠ "working_repository" → key ≠ "grabowski_resources" → after.get? key = before.get? key
  working : after.get? "working_repository" =
    if before.getStr? "working_repository" = some p.oldRepositoryPath then some (.str p.newRepositoryPath)
    else before.get? "working_repository"
  resources : after.get? "grabowski_resources" = before.get? "grabowski_resources" ∨
    ∃ items entries, before.get? "grabowski_resources" = some (.arr items) ∧
      after.get? "grabowski_resources" = some (.arr entries) ∧ List.Forall₂ (Entry p) items entries

/-- A document before and after: one claim, the working repository and entries of the resources move. -/
structure Rebinds (p : RebindParameters) (before after : Json) : Prop where
  others : ∀ key, key ≠ "claims" → key ≠ "execution" → after.get? key = before.get? key
  claims : ∃ first claim last, before.get? "claims" = some (.arr (first ++ claim :: last)) ∧
    after.get? "claims" = some (.arr (first ++ claim.set "resource" (.str p.newResourceId) :: last)) ∧
    claim.getStr? "resource" = some p.oldResourceId ∧
    ∀ other ∈ first ++ last, other.getStr? "resource" ≠ some p.oldResourceId
  execution : ∃ old new, before.get? "execution" = some old ∧ after.get? "execution" = some new ∧ old.isObj = true ∧
    RebindsExecution p old new

section Rewriting

variable {R : Rules} {p : RebindParameters} {E : Env}

theorem append_of_startsWith {text rest : String} (h : text = word ∨ TaskSpecs.startsWith text (word ++ rest) = true) :
    ∃ suffix, text = word ++ suffix := by
  rcases h with rfl | h
  · exact ⟨"",by simp⟩
  · obtain ⟨tail,htail⟩ := List.isPrefixOf_iff_prefix.mp h
    refine ⟨rest ++ String.ofList tail,String.toList_inj.mp ?_⟩
    rw [← htail]
    simp

theorem rebindResource_eq_some {text moved : String} (h : rebindResource p text = .ok (some moved)) :
    ∃ kind ∈ ["repo:","path:"], ∃ suffix, text = kind ++ p.oldRepositoryPath ++ suffix ∧
      moved = kind ++ p.newRepositoryPath ++ suffix := by
  have hmoved {old new : String} (hold : ∃ suffix, text = old ++ suffix)
      (hnew : new ++ String.ofList (text.toList.drop old.length) = moved) : ∃ suffix, text = old ++ suffix ∧
        moved = new ++ suffix := by
    obtain ⟨suffix,rfl⟩ := hold
    refine ⟨suffix,rfl,?_⟩
    rw [← hnew,String.toList_append,← String.length_toList,List.drop_left,String.ofList_toList]
  unfold rebindResource at h
  simp only at h
  split_ifs at h with hrepo hpath hnew hold hinside
  · simp only [Bool.or_eq_true,decide_eq_true_eq] at hrepo
    exact ⟨"repo:",by simp,hmoved (append_of_startsWith hrepo) (by simpa using h)⟩
  · simp only [Bool.or_eq_true,Bool.and_eq_true,decide_eq_true_eq] at hpath
    exact ⟨"path:",by simp,hmoved (append_of_startsWith (hpath.imp_right And.left)) (by simpa using h)⟩
  · simp at h
  · exact ⟨"path:",by simp,hmoved (append_of_startsWith (.inr hinside)) (by simpa using h)⟩
  · simp [stateError] at h
  · simp at h

theorem rebindResources_eq_ok {paths : List String} (h : rebindResources p items = .ok (entries,paths)) :
    List.Forall₂ (Entry p) items entries := by
  simp only [rebindResources,steps_ok,Prod.mk.injEq,collect_eq_ok] at h
  obtain ⟨rewritten,hrewritten,rfl,_⟩ := h
  have hpairs : List.Forall₂ (fun (item : Json × ℕ) (result : Json × List String) => Entry p item.1 result.1)
      items.zipIdx rewritten := by
    refine hrewritten.imp ?_
    rintro ⟨item,index⟩ result hresult
    cases item with
    | str text =>
      simp only [bind_eq_ok] at hresult
      obtain ⟨moved,hmoved,hresult⟩ := hresult
      cases moved with
      | none =>
        rw [pure_eq_ok] at hresult
        exact .inl (by rw [← hresult])
      | some moved =>
        rw [pure_eq_ok] at hresult
        obtain ⟨kind,hkind,suffix,rfl,rfl⟩ := rebindResource_eq_some hmoved
        exact .inr ⟨kind,hkind,suffix,rfl,by rw [← hresult]⟩
    | _ =>
      rw [pure_eq_ok] at hresult
      exact .inl (by rw [← hresult])
  rw [← List.zipIdx_map_fst 0 items]
  exact List.forall₂_map_left_iff.mpr (List.forall₂_map_right_iff.mpr hpairs)

structure Previewed (R : Rules) (p : RebindParameters) (E : Env) (spec : Json) (preview : Preview) : Prop where
  parameters : validateParameters p = .ok ()
  accepted : E.schemaError "task" spec = none
  rebinds : Rebinds p spec preview.spec
  residue : oldBindingResidue R p "" preview.spec = []
  written : E.schemaError "task" preview.spec = none
  digest : preview.specSha256 = TaskSpecs.taskSpecDigest E.sha preview.spec
  isObj : preview.spec.isObj = true

theorem claims_of_filter {index : ℕ} {id : String}
    (h : (claims.zipIdx.filter fun item => item.1.getStr? "resource" = some id) = [(claim,index)]) (value : Json) :
    ∃ first last, claims = first ++ claim :: last ∧ claims.set index value = first ++ value :: last ∧
      claim.getStr? "resource" = some id ∧ ∀ other ∈ first ++ last, other.getStr? "resource" ≠ some id := by
  have hfound : (claim,index) ∈ claims.zipIdx.filter fun item => item.1.getStr? "resource" = some id := by
    rw [h]
    exact List.mem_cons_self
  obtain ⟨hlisted,hid⟩ := List.mem_filter.mp hfound
  have hclaim : claims[index]? = some claim := List.mk_mem_zipIdx_iff_getElem?.mp hlisted
  have honly : ∀ (place : ℕ) (other : Json), claims[place]? = some other → other.getStr? "resource" = some id →
      place = index := by
    intro place other hother hsame
    have hmem : (other,place) ∈ claims.zipIdx.filter fun item => item.1.getStr? "resource" = some id :=
      List.mem_filter.mpr ⟨List.mk_mem_zipIdx_iff_getElem?.mpr hother,by simpa using hsame⟩
    rw [h,List.mem_singleton,Prod.mk.injEq] at hmem
    exact hmem.2
  obtain ⟨hlt,hget⟩ := List.getElem?_eq_some_iff.mp hclaim
  refine ⟨claims.take index,claims.drop (index+1),?_,?_,by simpa using hid,fun other hother hsame => ?_⟩
  · rw [← hget,← List.drop_eq_getElem_cons hlt,List.take_append_drop]
  · rw [List.set_eq_take_append_cons_drop,if_pos hlt]
  · rcases List.mem_append.mp hother with hfirst | hlast
    · obtain ⟨place,hplace⟩ := List.mem_iff_getElem?.mp hfirst
      rw [List.getElem?_take] at hplace
      split_ifs at hplace with hbefore
      have := honly place other hplace hsame
      omega
    · obtain ⟨place,hplace⟩ := List.mem_iff_getElem?.mp hlast
      rw [List.getElem?_drop] at hplace
      have := honly _ other hplace hsame
      omega

def movedExecution (p : RebindParameters) (execution : Json) : Json :=
  if execution.getStr? "working_repository" = some p.oldRepositoryPath
  then execution.set "working_repository" (.str p.newRepositoryPath) else execution

theorem get?_movedExecution {key : String} (hkey : key ≠ "working_repository") :
    (movedExecution p execution).get? key = execution.get? key := by
  unfold movedExecution
  split_ifs
  · exact Json.get?_set_ne _ _ hkey
  · rfl

theorem rebindsExecution_moved (hobj : execution.isObj = true) :
    RebindsExecution p execution (movedExecution p execution) := by
  refine ⟨fun key hkey _ => get?_movedExecution hkey,?_,.inl (get?_movedExecution (by decide))⟩
  unfold movedExecution
  split_ifs
  · cases execution with
    | obj fields => exact Json.get?_set_self fields _ _
    | _ => cases hobj
  · rfl

theorem RebindsExecution.set_resources (h : RebindsExecution p execution moved) (hobj : moved.isObj = true)
    (hitems : execution.get? "grabowski_resources" = some (.arr items))
    (hentries : List.Forall₂ (Entry p) items entries) :
    RebindsExecution p execution (moved.set "grabowski_resources" (.arr entries)) := by
  refine ⟨fun key hworking hresources => ?_,?_,.inr ⟨items,entries,hitems,?_,hentries⟩⟩
  · rw [Json.get?_set_ne _ _ hresources]
    exact h.others key hworking hresources
  · rw [Json.get?_set_ne _ _ (by decide)]
    exact h.working
  · cases moved with
    | obj fields => exact Json.get?_set_self fields _ _
    | _ => cases hobj

theorem rebinds_of_set {index : ℕ} (hspec : spec.isObj = true) (hclaims : spec.get? "claims" = some (.arr claims))
    (hfilter : (claims.zipIdx.filter fun item => item.1.getStr? "resource" = some p.oldResourceId) = [(claim,index)])
    (hexecution : spec.get? "execution" = some execution) (hobj : execution.isObj = true)
    (hmoved : RebindsExecution p execution moved) :
    Rebinds p spec ((spec.set "claims" (.arr (claims.set index (claim.set "resource" (.str p.newResourceId))))).set
      "execution" moved) := by
  cases spec with
  | obj fields =>
    obtain ⟨first,last,rfl,hset,hid,hothers⟩ := claims_of_filter hfilter (claim.set "resource" (.str p.newResourceId))
    refine ⟨fun key hkey hkey' => ?_,⟨first,claim,last,hclaims,?_,hid,hothers⟩,execution,moved,hexecution,?_,hobj,
      hmoved⟩
    · rw [Json.get?_set_ne _ _ hkey',Json.get?_set_ne _ _ hkey]
    · rw [Json.get?_set_ne _ _ (by decide),hset]
      exact Json.get?_set_self fields _ _
    · exact Json.get?_set_self _ _ _
  | _ => cases hspec

theorem requireSchema_eq_ok {u : Unit} (h : requireSchema E spec = .ok u) :
    E.schemaError "task" spec = none := by
  unfold requireSchema at h
  split at h
  · assumption
  · simp [stateError] at h

theorem previewRebind_eq_ok {preview : Preview} (h : previewRebind R p E spec = .ok preview) :
    Previewed R p E spec preview := by
  simp only [previewRebind,steps_ok,Option.bind_eq_some_iff] at h
  obtain ⟨_,hparameters,id,hid,_,haccepted,claims,⟨listed,hlisted,hclaims⟩,h⟩ := h
  have hspec : spec.isObj = true := by
    simp only [TaskSpecs.canonicalSpecId,steps_ok] at hid
    exact hid.choose_spec.1
  have hclaimsField : spec.get? "claims" = some (.arr claims) := by
    rw [hlisted]
    cases listed <;> simp_all [Json.arr?]
  split at h
  · rename_i claim index hfilter
    simp only [steps_ok,Option.filter_eq_some_iff] at h
    obtain ⟨_,_,execution,⟨hexecution,hobj⟩,h⟩ := h
    have hmoved : RebindsExecution p execution (movedExecution p execution) := rebindsExecution_moved hobj
    have hmovedObj : (movedExecution p execution).isObj = true := by
      unfold movedExecution
      split_ifs <;> simp [hobj]
    have hdone : ∀ (moved : Json) (changedPaths : List String) (acceptance diagnostics : String),
        RebindsExecution p execution moved →
        let material := (spec.set "claims" (.arr (claims.set index (claim.set "resource" (.str p.newResourceId))))).set
          "execution" moved
        (oldBindingResidue R p "" material).isEmpty = true → E.schemaError "task" material = none →
        Previewed R p E spec ⟨material,TaskSpecs.taskSpecDigest E.sha material,changedPaths,acceptance,
          diagnostics⟩ := by
      intro moved changedPaths acceptance diagnostics hmoves material hresidue hwritten
      exact ⟨hparameters,requireSchema_eq_ok haccepted,rebinds_of_set hspec hclaimsField hfilter hexecution hobj hmoves,
        List.isEmpty_iff.mp hresidue,hwritten,rfl,by simp [material,hspec]⟩
    split at h
    · simp only [steps_ok] at h
      obtain ⟨_,rfl,_,hresidue,_,hwritten,_,_,_,_,rfl⟩ := h
      exact hdone _ _ _ _ hmoved hresidue (requireSchema_eq_ok hwritten)
    · simp only [steps_ok] at h
      obtain ⟨_,rfl,_,hresidue,_,hwritten,_,_,_,_,rfl⟩ := h
      exact hdone _ _ _ _ hmoved hresidue (requireSchema_eq_ok hwritten)
    · rename_i items hitems
      simp only [steps_ok] at h
      obtain ⟨⟨entries,paths⟩,hentries,_,rfl,_,hresidue,_,hwritten,_,_,_,_,rfl⟩ := h
      have hbefore : execution.get? "grabowski_resources" = some (.arr items) := by
        rw [← hitems]
        exact (get?_movedExecution (by decide)).symm
      exact hdone _ _ _ _ (hmoved.set_resources hmovedObj hbefore (rebindResources_eq_ok hentries)) hresidue
        (requireSchema_eq_ok hwritten)
    · simp [stateError,bind_eq_ok] at h
  · simp [stateError] at h

end Rewriting

def taskFields : List String :=
  ["acceptance","claims","coordination_scope","depends_on","execution","goal","id","initiative","metadata","priority",
    "required_capabilities","rlens_context_ref","rlens_policy","rollback","schema_version","state","stop","title"]

def TaskSchema (E : Env) : Prop :=
  ∀ fields, E.schemaError "task" (.obj fields) = none → ∀ field ∈ fields, field.1 ∈ taskFields

theorem slash_free_of_mem {key : String} (h : key ∈ taskFields) : '/' ∉ key.toList := by
  have hall : ∀ key ∈ taskFields, '/' ∉ key.toList := by decide
  exact hall key h

end RepositoryRebind

open RepositoryRebind

/-- A rebind of a TaskSpec moves one claim, the working repository and entries of the resources, and nothing
else; outside the exempt fields, which stay as they are, no text is left that has the old id or the old path
as a whole token when it is read through one percent decoding. -/
theorem rebind_preview_frame {R : Rules} {p : RebindParameters} {E : Env} {spec : Json} {preview : Preview}
    (hschema : TaskSchema E) (h : previewRebind R p E spec = .ok preview) :
    Rebinds p spec preview.spec ∧
      (∀ key ∈ ["acceptance","title","goal","metadata"], preview.spec.get? key = spec.get? key) ∧
      ∀ place value, At place preview.spec value → ¬ Exempt place value → ∀ text ∈ ownTexts value,
        ¬ IdToken R p.oldResourceId p.newResourceId (decoded R text) ∧
        ¬ PathToken R p.oldRepositoryPath p.newRepositoryPath (decoded R text) := by
  have hpreviewed := previewRebind_eq_ok h
  refine ⟨hpreviewed.rebinds,fun key hkey => ?_,fun place value hat hnot text htext => ?_⟩
  · have hne : ∀ key ∈ ["acceptance","title","goal","metadata"], key ≠ "claims" ∧ key ≠ "execution" := by decide
    exact hpreviewed.rebinds.others key (hne key hkey).1 (hne key hkey).2
  · obtain ⟨fields,hfields⟩ : ∃ fields, preview.spec = .obj fields := by
      have hobj := hpreviewed.isObj
      cases hspec : preview.spec <;> simp_all [Json.isObj]
    rw [hfields] at hat
    have hkeys : ∀ field ∈ fields, '/' ∉ field.1.toList := fun field hfield =>
      slash_free_of_mem (hschema fields (hfields ▸ hpreviewed.written) field hfield)
    have hclean := clean_of_document hkeys (hfields ▸ hpreviewed.residue) hat hnot text htext
    rw [namesOld,Bool.or_eq_false_iff,← Bool.not_eq_true,← Bool.not_eq_true,contains_id_iff,contains_path_iff] at hclean
    exact hclean

namespace Sample

def hexDigit? (c : Char) : Option ℕ :=
  if '0' ≤ c ∧ c ≤ '9' then some (c.toNat-48)
  else if 'A' ≤ c ∧ c ≤ 'F' then some (c.toNat-55)
  else none

def unescape : List Char → List Char
  | '%' :: a :: b :: rest =>
    match hexDigit? a, hexDigit? b with
    | some high, some low => Char.ofNat (16*high+low) :: unescape rest
    | _, _ => '%' :: unescape (a :: b :: rest)
  | c :: rest => c :: unescape rest
  | [] => []

def quotingRules : Rules :=
  ⟨Char.isAlphanum,Char.isAlpha,fun text => String.ofList (unescape text.toList),fun _ => .null,fun _ => none⟩

def strictEnv : Env :=
  { env with
    schemaError := fun _ document =>
      match document with
      | .obj fields => if fields.all fun field => taskFields.contains field.1 then none else some "additional property"
      | _ => some "not an object" }

theorem strictEnv_schema : TaskSchema strictEnv := by
  intro fields h field hfield
  have hall : ∀ key item, (key,item) ∈ fields → key ∈ taskFields := by simpa [strictEnv] using h
  exact hall field.1 field.2 hfield

def escapedMove : RebindParameters := ⟨"repo.a","repo.a:archive","/srv/r%41","/srv/archive"⟩

/-- A task of the repository `/srv/r%41`, which its metadata name as well. -/
def escapedSpec : Json :=
  .obj [("acceptance",.arr []),("claims",.arr [.obj [("mode",.str "write"),("resource",.str "repo.a")]]),
    ("execution",.obj [("grabowski_resources",.arr [.str "path:/srv/r%41/docs"]),
    ("working_repository",.str "/srv/r%41")]),
    ("id",.str "T-1"),
    ("metadata",.obj [("checkout",.str "/srv/r%41"),("target",.str "repo.a%3Aarchive")]),("title",.str "in /srv/r%41")]

def escapedPreview : Option Json :=
  (previewRebind quotingRules escapedMove strictEnv escapedSpec).toOption.map (·.spec)

end Sample

/-- Texts are read through percent decoding before tokens are looked for. The written text `repo.a%3Aarchive` is
the new id for that reading, although `repo.a` ends in it where no id continues; and a path with an escape
sequence of its own is not found in its own text. -/
theorem rebind_leaves_written_tokens : Sample.escapedPreview =
    some (.obj [("acceptance",.arr []),("claims",
      .arr [.obj [("mode",.str "write"),("resource",.str "repo.a:archive")]]),
      ("execution",.obj [("grabowski_resources",.arr [.str "path:/srv/archive/docs"]),
        ("working_repository",.str "/srv/archive")]),("id",.str "T-1"),
      ("metadata",.obj [("checkout",.str "/srv/r%41"),("target",.str "repo.a%3Aarchive")]),
      ("title",.str "in /srv/r%41")]) := by
  decide +kernel

theorem rebind_preview_frame_escaped : ∃ preview,
    previewRebind Sample.quotingRules Sample.escapedMove Sample.strictEnv Sample.escapedSpec = .ok preview ∧
      Rebinds Sample.escapedMove Sample.escapedSpec preview.spec := by
  have hsome : (previewRebind Sample.quotingRules Sample.escapedMove Sample.strictEnv
    Sample.escapedSpec).toOption.isSome =
      true := by
    decide +kernel
  obtain ⟨preview,hpreview⟩ := Option.isSome_iff_exists.mp hsome
  rw [Transactions.toOption_eq_some] at hpreview
  exact ⟨preview,hpreview,(rebind_preview_frame Sample.strictEnv_schema hpreview).1⟩

end Bureau
