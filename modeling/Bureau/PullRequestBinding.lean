import Bureau.LeftmostScan
import Bureau.StateEvents

/-!
The tasks a pull request is bound to. Structured markers name them; where there is none, they are
looked for in the texts and the branch. Both look for registered task ids with one regular expression.
-/

namespace Bureau

namespace PullRequestBinding

open LeftmostScan

/-! `_task_id_matcher`. -/

/-- `[A-Za-z0-9]`. -/
def isAlnum (c : Char) : Bool := c.isAlphanum

/-- `[A-Za-z0-9-]`, the characters of a task id. -/
def isIdChar (c : Char) : Bool := isAlnum c || c = '-'

/-- `value.replace("_", "-")`. -/
def prTaskText (value : List Char) : List Char := value.map fun c => if c = '_' then '-' else c

/-- `value.lower().replace("_", "-")`. -/
def normalizeTaskIdText (value : List Char) : List Char := prTaskText (value.map Char.toLower)

/-- One character of `_case_flexible_literal`. -/
def flexible (literal c : Char) : Bool :=
  if literal.isAlpha then c = literal.toLower || c = literal.toUpper else c = literal

def flexiblePrefix : List Char → List Char → Bool
  | [], _ => true
  | _ :: _, [] => false
  | literal :: literals, c :: rest => flexible literal c && flexiblePrefix literals rest

/-- `(?=$|[^A-Za-z0-9-])`. -/
def endsId : List Char → Bool
  | [] => true
  | c :: _ => !isIdChar c

/-- `-[a-z][a-z0-9-]*(?=$|[^A-Za-z0-9-])`: the rest of a branch name in small letters. -/
def branchSuffix : List Char → Bool
  | '-' :: c :: rest => c.isLower && (rest.takeWhile isIdChar).all fun d => d.isLower || d.isDigit || d = '-'
  | _ => false

def lookahead (allowBranchSuffix : Bool) (rest : List Char) : Bool :=
  endsId rest || (allowBranchSuffix && branchSuffix rest)

/-- The normalized ids with their tasks; the first task of a normalized id counts. -/
def normalizedToTask (taskIds : List String) : List (List Char × String) :=
  taskIds.foldl (fun found id =>
    if (found.lookup (normalizeTaskIdText id.toList)).isSome then found
    else found ++ [(normalizeTaskIdText id.toList,id)]) []

def alternatives (taskIds : List String) : List (List Char) :=
  ((normalizedToTask taskIds).map Prod.fst).insertionSort fun a b => b.length ≤ a.length

/-- The match of the regular expression at a position, with `(?<![A-Za-z0-9])` before it. -/
def matchAt (ids : List (List Char)) (allowBranchSuffix : Bool) (prev : Option Char) (text : List Char) : Option ℕ :=
  if prev.any isAlnum then none
  else (ids.find? fun id => flexiblePrefix id text && lookahead allowBranchSuffix (text.drop id.length)).map List.length

def matchTaskIds (values : List String) (taskIds : List String) (allowBranchSuffix : Bool) : List String :=
  values.flatMap fun value =>
    (finditer (matchAt (alternatives taskIds) allowBranchSuffix) none 0 (prTaskText value.toList)).filterMap
      fun found => (normalizedToTask taskIds).lookup (normalizeTaskIdText found)

/-! The markers of a pull request. -/

def structuredPrTaskKeys : List String :=
  ["bureau_task","bureauTask","bureau_tasks","bureauTasks","task_id","taskId","task_ids","taskIds"]

/-- `re.split(r"[,\s]+", value)` without the empty items. -/
def splitItems (value : String) : List String :=
  ((value.toList.splitOnP fun c => c = ',' || isspace c).filter (!·.isEmpty)).map String.ofList

mutual

def structuredValueItems : Json → List String
  | .str value => splitItems value
  | .obj fields => structuredPrTaskKeys.flatMap fun key => ((itemsOfFields fields).lookup key).getD []
  | .arr items => itemsOfList items
  | _ => []

def itemsOfFields : List (String × Json) → List (String × List String)
  | [] => []
  | (key,value) :: rest => (key,structuredValueItems value) :: itemsOfFields rest

def itemsOfList : List Json → List String
  | [] => []
  | item :: rest => structuredValueItems item ++ itemsOfList rest

end

mutual

def taskIdSearchValues : Json → List String
  | .str value => [value]
  | .obj fields => searchFields fields
  | .arr items => searchList items
  | _ => []

def searchFields : List (String × Json) → List String
  | [] => []
  | (_,value) :: rest => taskIdSearchValues value ++ searchFields rest

def searchList : List Json → List String
  | [] => []
  | item :: rest => taskIdSearchValues item ++ searchList rest

end

/-- What the two marker expressions find: the value of a label, and the values of the marker lines of a body. -/
structure MarkerPatterns where
  labelValue : String → Option String
  lineValues : String → List String

def structuredLabelItems (P : MarkerPatterns) (labels : Option Json) : List String :=
  ((labels.bind Json.arr?).getD []).flatMap fun label =>
    (taskIdSearchValues (if label.isObj then (label.get? "name").getD .null else label)).flatMap fun name =>
      ((P.labelValue name).map splitItems).getD []

def structuredBodyItems (P : MarkerPatterns) (body : Option Json) : List String :=
  ((body.bind Json.str?).map fun text => (P.lineValues text).flatMap splitItems).getD []

def structuredItems (P : MarkerPatterns) (pullRequest : Json) : List String :=
  structuredPrTaskKeys.flatMap (fun key => ((pullRequest.get? key).map structuredValueItems).getD []) ++
    ((pullRequest.get? "metadata").map structuredValueItems).getD [] ++
    structuredLabelItems P (pullRequest.get? "labels") ++ structuredBodyItems P (pullRequest.get? "body")

def structuredPullRequestTaskIds (P : MarkerPatterns) (pullRequest : Json) (taskIds : List String) : List String :=
  matchTaskIds (structuredItems P pullRequest) taskIds false

def heuristicPullRequestTaskIds (pullRequest : Json) (taskIds : List String) : List String :=
  let values (keys : List String) := keys.flatMap fun key => ((pullRequest.get? key).map taskIdSearchValues).getD []
  matchTaskIds (values ["body","title"]) taskIds false ++ matchTaskIds (values ["headRefName","branch"]) taskIds true

def pullRequestTaskIds (P : MarkerPatterns) (pullRequest : Json) (taskIds : List String) : List String :=
  let structured := structuredPullRequestTaskIds P pullRequest taskIds
  let found := if structured.isEmpty then heuristicPullRequestTaskIds pullRequest taskIds else structured
  taskIds.filter fun id => found.contains id

/-! Task ids as texts. -/

def registeredChar (c : Char) : Bool := c.isUpper || c.isDigit || c = '-'

/-- Registered ids are words of capital letters, digits and hyphens. -/
def TaskIdText (id : String) : Prop := id.toList ≠ [] ∧ ∀ c ∈ id.toList, registeredChar c = true

instance (id : String) : Decidable (TaskIdText id) :=
  decidable_of_iff (id.toList ≠ [] ∧ id.toList.all registeredChar = true) (and_congr_right fun _ => List.all_eq_true)

def lowered (text : List Char) : List Char := text.map Char.toLower

theorem isUpper_iff (c : Char) : c.isUpper = true ↔ 65 ≤ c.toNat ∧ c.toNat ≤ 90 := by
  simp only [Char.isUpper,decide_eq_true_eq]
  exact Iff.rfl

theorem isLower_iff (c : Char) : c.isLower = true ↔ 97 ≤ c.toNat ∧ c.toNat ≤ 122 := by
  simp only [Char.isLower,Bool.and_eq_true,decide_eq_true_eq]
  exact Iff.rfl

theorem isDigit_iff (c : Char) : c.isDigit = true ↔ 48 ≤ c.toNat ∧ c.toNat ≤ 57 := by
  simp only [Char.isDigit,Bool.and_eq_true,decide_eq_true_eq]
  exact Iff.rfl

theorem toNat_toLower (c : Char) : c.toLower.toNat = if c.isUpper then c.toNat+32 else c.toNat := by
  unfold Char.toLower Char.isUpper
  by_cases h : c.val ≥ 'A'.val ∧ c.val ≤ 'Z'.val
  · rw [dif_pos h,if_pos (decide_eq_true h)]
    have hle : c.val.toNat ≤ 90 := h.2
    show (c.val+('a'.val - 'A'.val)).toNat = c.val.toNat+32
    rw [UInt32.toNat_add]
    show (c.val.toNat+32) % 2^32 = c.val.toNat+32
    omega
  · rw [dif_neg h,if_neg (by simpa using h)]

theorem toNat_toUpper (c : Char) : c.toUpper.toNat = if c.isLower then c.toNat-32 else c.toNat := by
  unfold Char.toUpper
  by_cases h : 'a'.val ≤ c.val ∧ c.val ≤ 'z'.val
  · have hle : 97 ≤ c.toNat ∧ c.toNat ≤ 122 := h
    rw [dif_pos h,if_pos ((isLower_iff c).mpr hle)]
    show (c.val+('A'.val - 'a'.val)).toNat = c.toNat-32
    rw [UInt32.toNat_add]
    show (c.toNat+4294967264) % 2^32 = c.toNat-32
    omega
  · rw [dif_neg h,if_neg (mt (isLower_iff c).mp h)]

theorem registeredChar_iff (c : Char) : registeredChar c = true ↔
    (65 ≤ c.toNat ∧ c.toNat ≤ 90) ∨ (48 ≤ c.toNat ∧ c.toNat ≤ 57) ∨ c.toNat = 45 := by
  simp only [registeredChar,Bool.or_eq_true,isUpper_iff,isDigit_iff,decide_eq_true_eq,← Char.toNat_inj,or_assoc]
  exact Iff.rfl

theorem isAlnum_iff (c : Char) : isAlnum c = true ↔
    (65 ≤ c.toNat ∧ c.toNat ≤ 90) ∨ (97 ≤ c.toNat ∧ c.toNat ≤ 122) ∨ (48 ≤ c.toNat ∧ c.toNat ≤ 57) := by
  simp only [isAlnum,Char.isAlphanum,Char.isAlpha,Bool.or_eq_true,isUpper_iff,isLower_iff,isDigit_iff,or_assoc]

theorem isIdChar_iff (c : Char) : isIdChar c = true ↔ isAlnum c = true ∨ c = '-' := by
  simp only [isIdChar,Bool.or_eq_true,decide_eq_true_eq]

variable {c d : Char} {text part token : List Char} {id : String} {taskIds : List String}

theorem isIdChar_of_toLower (hd : registeredChar d = true) (h : c.toLower = d.toLower) :
    isIdChar c = true := by
  have hnat := congrArg Char.toNat h
  rw [toNat_toLower,toNat_toLower] at hnat
  rw [isIdChar_iff,isAlnum_iff,← Char.toNat_inj]
  rw [registeredChar_iff] at hd
  show _ ∨ c.toNat = 45
  simp only [isUpper_iff] at hnat
  split at hnat <;> split at hnat <;> omega

theorem toLower_inj (hc : registeredChar c = true) (hd : registeredChar d = true)
    (h : c.toLower = d.toLower) : c = d := by
  have hnat := congrArg Char.toNat h
  rw [toNat_toLower,toNat_toLower] at hnat
  rw [← Char.toNat_inj]
  rw [registeredChar_iff] at hc hd
  simp only [isUpper_iff] at hnat
  split at hnat <;> split at hnat <;> omega

theorem toLower_ne_underscore (hc : isIdChar c = true) : c.toLower ≠ '_' := by
  intro h
  have hnat : c.toLower.toNat = 95 := congrArg Char.toNat h
  rw [isIdChar_iff,isAlnum_iff,← Char.toNat_inj] at hc
  have hdash : ('-' : Char).toNat = 45 := rfl
  rw [toNat_toLower] at hnat
  simp only [isUpper_iff] at hnat
  split at hnat <;> omega

@[simp] theorem flexible_iff (c d : Char) : flexible d.toLower c = true ↔ c.toLower = d.toLower := by
  have hlow := toNat_toLower d
  have hlow2 := toNat_toLower d.toLower
  have hup := toNat_toUpper d.toLower
  have hc := toNat_toLower c
  simp only [isUpper_iff,isLower_iff] at hlow hlow2 hup hc
  rw [← Char.toNat_inj]
  by_cases halpha : d.toLower.isAlpha = true
  · rw [flexible,if_pos halpha]
    simp only [Char.isAlpha,Bool.or_eq_true,isUpper_iff,isLower_iff] at halpha
    simp only [Bool.or_eq_true,decide_eq_true_eq,← Char.toNat_inj]
    split at hlow <;> split at hlow2 <;> split at hup <;> split at hc <;> omega
  · rw [flexible,if_neg halpha]
    simp only [Char.isAlpha,Bool.or_eq_true,isUpper_iff,isLower_iff] at halpha
    simp only [decide_eq_true_eq,← Char.toNat_inj]
    split at hlow <;> split at hc <;> omega

theorem flexiblePrefix_iff {id : List Char} :
    flexiblePrefix (lowered id) text = true ↔ ∃ run rest, text = run ++ rest ∧ lowered run = lowered id := by
  induction id generalizing text with
  | nil => exact iff_of_true rfl ⟨[],text,rfl,rfl⟩
  | cons d id ih =>
    cases text with
    | nil =>
      refine iff_of_false (by simp [lowered,flexiblePrefix]) ?_
      intro ⟨run,rest,htext,hrun⟩
      obtain ⟨rfl,_⟩ := List.append_eq_nil_iff.mp htext.symm
      simp [lowered] at hrun
    | cons c text =>
      show (flexible d.toLower c && flexiblePrefix (lowered id) text) = true ↔ _
      rw [Bool.and_eq_true,flexible_iff,ih]
      constructor
      · intro ⟨hc,run,rest,htext,hrun⟩
        refine ⟨c :: run,rest,by rw [htext]; rfl,?_⟩
        simp only [lowered,List.map_cons,hc] at hrun ⊢
        rw [hrun]
      · intro ⟨run,rest,htext,hrun⟩
        cases run with
        | nil => simp [lowered] at hrun
        | cons e run =>
          obtain ⟨rfl,htail⟩ := List.cons.inj htext
          obtain ⟨hc,hlowered⟩ := List.cons.inj hrun
          exact ⟨hc,run,rest,htail,hlowered⟩

@[simp] theorem lowered_length (text : List Char) : (lowered text).length = text.length := List.length_map _

theorem prTaskText_of_forall (h : ∀ c ∈ text, c ≠ '_') : prTaskText text = text := by
  unfold prTaskText
  conv_rhs => rw [← List.map_id text]
  exact List.map_congr_left fun c hc => if_neg (h c hc)

theorem normalizeTaskIdText_eq (h : ∀ c ∈ text, isIdChar c = true) :
    normalizeTaskIdText text = lowered text := by
  refine prTaskText_of_forall fun c hc => ?_
  obtain ⟨d,hd,rfl⟩ := List.mem_map.mp hc
  exact toLower_ne_underscore (h d hd)

theorem TaskIdText.isIdChar (h : TaskIdText id) : ∀ c ∈ id.toList, isIdChar c = true :=
  fun c hc => isIdChar_of_toLower (h.2 c hc) rfl

theorem TaskIdText.normalize (h : TaskIdText id) : normalizeTaskIdText id.toList = lowered id.toList :=
  normalizeTaskIdText_eq h.isIdChar

theorem lowered_inj {a b : List Char} (ha : ∀ c ∈ a, registeredChar c = true) (hb : ∀ c ∈ b, registeredChar c = true)
    (h : lowered a = lowered b) : a = b := by
  induction a generalizing b with
  | nil =>
    cases b with
    | nil => rfl
    | cons d b => simp [lowered] at h
  | cons c a ih =>
    cases b with
    | nil => simp [lowered] at h
    | cons d b =>
      obtain ⟨hcd,htail⟩ := List.cons.inj h
      rw [toLower_inj (ha c List.mem_cons_self) (hb d List.mem_cons_self) hcd,
        ih (fun e he => ha e (List.mem_cons_of_mem _ he)) (fun e he => hb e (List.mem_cons_of_mem _ he)) htail]

theorem TaskIdText.inj {a b : String} (ha : TaskIdText a) (hb : TaskIdText b)
    (h : lowered a.toList = lowered b.toList) : a = b :=
  String.toList_inj.mp (lowered_inj ha.2 hb.2 h)

section

variable {taskIds : List String} (hids : ∀ id ∈ taskIds, TaskIdText id) (hnodup : taskIds.Nodup)

include hids hnodup in
theorem normalizedToTask_eq : normalizedToTask taskIds = taskIds.map fun id => (lowered id.toList,id) := by
  induction taskIds using List.reverseRecOn with
  | nil => rfl
  | append_singleton earlier id ih =>
    have hid := hids id (by simp)
    have hearlier := ih (fun other hother => hids other (List.mem_append_left _ hother))
      (List.Nodup.of_append_left hnodup)
    unfold normalizedToTask at hearlier ⊢
    rw [List.foldl_append,hearlier,List.foldl_cons,List.foldl_nil,hid.normalize]
    have hnone : ((earlier.map fun id => (lowered id.toList,id)).lookup (lowered id.toList)).isSome = false := by
      rw [Option.isSome_eq_false_iff,Option.isNone_iff_eq_none,List.lookup_eq_none_iff]
      intro pair hpair
      obtain ⟨other,hother,rfl⟩ := List.mem_map.mp hpair
      have hne : other ≠ id := fun heq => (List.disjoint_of_nodup_append hnodup) hother (by simp [heq])
      simp only [bne_iff_ne,ne_eq]
      intro heq
      exact hne ((hids other (List.mem_append_left _ hother)).inj hid heq.symm)
    rw [if_neg (by simp [hnone]),List.map_append]
    rfl

include hids hnodup in
theorem lookup_normalizedToTask {text : List Char} (htext : ∀ c ∈ text, isIdChar c = true) (id : String) :
    (normalizedToTask taskIds).lookup (normalizeTaskIdText text) = some id ↔
      id ∈ taskIds ∧ lowered id.toList = lowered text := by
  rw [normalizedToTask_eq hids hnodup,normalizeTaskIdText_eq htext]
  induction taskIds with
  | nil => simp
  | cons first rest ih =>
    have hrest := ih (fun other hother => hids other (List.mem_cons_of_mem _ hother)) (List.nodup_cons.mp hnodup).2
    rw [List.map_cons,List.lookup_cons]
    by_cases heq : lowered text = lowered first.toList
    · rw [beq_iff_eq.mpr heq]
      constructor
      · intro h
        cases h
        exact ⟨List.mem_cons_self,heq.symm⟩
      · intro ⟨hmem,hid⟩
        rw [(hids first List.mem_cons_self).inj (hids id hmem) (heq.symm.trans hid.symm)]
    · rw [beq_eq_false_iff_ne.mpr heq]
      show List.lookup _ _ = some id ↔ _
      rw [hrest,List.mem_cons]
      constructor
      · exact fun h => ⟨.inr h.1,h.2⟩
      · rintro ⟨rfl | hmem,hid⟩
        · exact absurd hid.symm heq
        · exact ⟨hmem,hid⟩

include hids hnodup in
@[simp] theorem mem_alternatives (literal : List Char) :
    literal ∈ alternatives taskIds ↔ ∃ id ∈ taskIds, lowered id.toList = literal := by
  rw [alternatives,(List.perm_insertionSort _ _).mem_iff,normalizedToTask_eq hids hnodup]
  simp only [List.map_map,List.mem_map,Function.comp]

end

def Registered (taskIds : List String) (text : List Char) : Prop := ∃ id ∈ taskIds, lowered id.toList = lowered text

/-- The part begins where the token does or behind a hyphen, and ends where the token does. -/
def IsTail (token part : List Char) : Prop := part = token ∨ ∃ start, token = start ++ '-' :: part

theorem IsTail.isSuffix (h : IsTail token part) : ∃ start, token = start ++ part := by
  rcases h with rfl | ⟨start,hstart⟩
  · exact ⟨[],rfl⟩
  · exact ⟨start ++ ['-'],by rw [hstart,List.append_assoc]; rfl⟩

structure LongestTail (taskIds : List String) (token part : List Char) : Prop where
  tail : IsTail token part
  registered : Registered taskIds part
  longest : ∀ other, IsTail token other → Registered taskIds other → other.length ≤ part.length

/-- The text has the token between characters that are no part of a task id. -/
def HasToken (value : String) (token : List Char) : Prop :=
  ∃ before after, IsRun isIdChar (prTaskText value.toList) before token after

def Names (value : String) (id : String) : Prop := ∃ token, HasToken value token ∧ lowered token = lowered id.toList

/-- Where a token is not registered but ends with a registered id, one of the texts has that id as a whole token. -/
def Separated (taskIds : List String) (values : List String) : Prop :=
  ∀ value ∈ values, ∀ token, HasToken value token → ¬ Registered taskIds token →
    ∀ part, LongestTail taskIds token part →
    ∀ id ∈ taskIds, lowered id.toList = lowered part → ∃ other ∈ values, Names other id

section

variable {taskIds : List String} (hids : ∀ id ∈ taskIds, TaskIdText id) (hnodup : taskIds.Nodup)

/-- What the expression looks for: a registered id with no letter or digit before it. -/
def taskWord (taskIds : List String) (prev : Option Char) (text : List Char) : Bool :=
  !prev.any isAlnum && (alternatives taskIds).contains (lowered text)

include hids hnodup in
theorem flexiblePrefix_lookahead {literal run after : List Char} (hliteral : literal ∈ alternatives taskIds)
    (hrun : ∀ c ∈ run, isIdChar c = true) (hclosed : Closed isIdChar after) :
    (flexiblePrefix literal (run ++ after) && lookahead false ((run ++ after).drop literal.length)) = true ↔
      literal = lowered run := by
  obtain ⟨id,hid,rfl⟩ := (mem_alternatives hids hnodup literal).mp hliteral
  rw [Bool.and_eq_true,flexiblePrefix_iff,lowered_length]
  constructor
  · intro ⟨⟨part,rest,hparts,hpart⟩,hend⟩
    have hlength : part.length = id.toList.length := by
      rw [← lowered_length part,hpart,lowered_length]
    rw [hparts,← hlength,List.drop_left] at hend
    rcases List.append_eq_append_iff.mp hparts with ⟨more,rfl,hafter⟩ | ⟨more,rfl,hrest⟩
    · -- the id goes on behind the run
      cases more with
      | nil => rw [← hpart,List.append_nil]
      | cons c more =>
        have hc := hclosed c (by rw [hafter]; rfl)
        have hmem : c.toLower ∈ lowered id.toList := hpart ▸ List.mem_map_of_mem (by simp)
        obtain ⟨d,hd,hlower⟩ := List.mem_map.mp hmem
        exact absurd (isIdChar_of_toLower ((hids id hid).2 d hd) hlower.symm) (by simp [hc])
    · -- the run goes on behind the id
      cases more with
      | nil => rw [← hpart,List.append_nil]
      | cons c more =>
        rw [hrest] at hend
        exact absurd (hrun c (by simp)) (by simpa [lookahead,endsId] using hend)
  · intro hlowered
    have hlength : id.toList.length = run.length := by
      rw [← lowered_length,hlowered,lowered_length]
    refine ⟨⟨run,after,rfl,hlowered.symm⟩,?_⟩
    rw [hlength,List.drop_left]
    cases after with
    | nil => rfl
    | cons c after =>
      have hc : isIdChar c = false := hclosed c rfl
      simp [lookahead,endsId,hc]

include hids hnodup in
theorem matchesEnds : MatchesEnds (matchAt (alternatives taskIds) false) isIdChar (taskWord taskIds) where
  outside prev c rest hc := by
    rw [matchAt]
    split
    · rfl
    · rw [Option.map_eq_none_iff,List.find?_eq_none]
      intro literal hliteral hmatch
      obtain ⟨id,hid,rfl⟩ := (mem_alternatives hids hnodup literal).mp hliteral
      obtain ⟨part,tail,hparts,hpart⟩ := flexiblePrefix_iff.mp (Bool.and_eq_true_iff.mp hmatch).1
      cases part with
      | nil =>
        have hnil : id.toList = [] := by simpa [lowered] using hpart.symm
        exact (hids id hid).1 hnil
      | cons d part =>
        obtain ⟨rfl,_⟩ := List.cons.inj hparts
        have hmem : c.toLower ∈ lowered id.toList := hpart ▸ List.mem_cons_self
        obtain ⟨d,hd,hlower⟩ := List.mem_map.mp hmem
        exact absurd (isIdChar_of_toLower ((hids id hid).2 d hd) hlower.symm) (by simp [hc])
  inside prev run after hne hrun hclosed := by
    rw [matchAt,taskWord]
    by_cases hprev : prev.any isAlnum = true
    · rw [if_pos hprev,hprev]
      rfl
    · rw [if_neg hprev,(Bool.not_eq_true _).mp hprev,Bool.not_false,Bool.true_and]
      cases hfind : (alternatives taskIds).find? fun literal => flexiblePrefix literal (run ++ after) &&
          lookahead false ((run ++ after).drop literal.length) with
      | none =>
        rw [if_neg]
        · rfl
        · intro hmem
          have hmem := List.contains_iff_mem.mp hmem
          exact List.find?_eq_none.mp hfind _ hmem ((flexiblePrefix_lookahead hids hnodup hmem hrun hclosed).mpr rfl)
      | some literal =>
        have hmem := List.mem_of_find?_eq_some hfind
        have hfound := List.find?_some hfind
        obtain rfl := (flexiblePrefix_lookahead hids hnodup hmem hrun hclosed).mp hfound
        rw [if_pos (List.contains_iff_mem.mpr hmem),Option.map_some,lowered_length]

include hids hnodup in
theorem contains_alternatives (text : List Char) :
    (alternatives taskIds).contains (lowered text) = true ↔ Registered taskIds text := by
  rw [List.contains_iff_mem,mem_alternatives hids hnodup]
  exact Iff.rfl

include hids hnodup in
theorem taskWord_iff {before token after text start part : List Char} (hrun : IsRun isIdChar text before token after)
    (hparts : token = start ++ part) : taskWord taskIds (start.getLast?.or before.getLast?) part = true ↔
      IsTail token part ∧ Registered taskIds part := by
  rw [taskWord,Bool.and_eq_true,contains_alternatives hids hnodup]
  refine and_congr_left fun _ => ?_
  rcases List.eq_nil_or_concat start with rfl | ⟨start,c,rfl⟩
  · refine iff_of_true ?_ (.inl (by simpa using hparts.symm))
    cases hlast : before.getLast? with
    | none => rfl
    | some d =>
      have hd := hrun.opened d hlast
      simp only [isIdChar,Bool.or_eq_false_iff] at hd
      simp [hd.1]
  · rw [List.concat_eq_append] at hparts ⊢
    have hc : isAlnum c = true ∨ c = '-' := (isIdChar_iff c).mp (hrun.inside c (by simp [hparts]))
    have hlast : (start ++ [c]).getLast?.or before.getLast? = some c := by simp
    rw [hlast,hparts,List.append_assoc]
    show (!isAlnum c) = true ↔ _
    constructor
    · intro hnot
      rcases hc with hc | rfl
      · simp [hc] at hnot
      · exact .inr ⟨start,rfl⟩
    · rintro (hwhole | ⟨other,hother⟩)
      · have hlengths := congrArg List.length hwhole
        rw [List.length_append,List.length_append,List.length_singleton] at hlengths
        omega
      · have hsame : start ++ c :: part = other ++ '-' :: part := hother
        obtain ⟨_,hcons⟩ := List.append_inj' hsame rfl
        obtain ⟨rfl,_⟩ := List.cons.inj hcons
        rfl

include hids hnodup in
theorem firstEnd_iff {before token after text : List Char} (hrun : IsRun isIdChar text before token after)
    (part : List Char) :
    firstEnd (taskWord taskIds) before.getLast? token = some part ↔ LongestTail taskIds token part := by
  rw [firstEnd_eq_some]
  constructor
  · intro ⟨_,start,hparts,hword,hfirst⟩
    obtain ⟨htail,hregistered⟩ := (taskWord_iff hids hnodup hrun hparts).mp hword
    refine ⟨htail,hregistered,fun other hother hknown => ?_⟩
    by_contra hlonger
    obtain ⟨shorter,hshorter⟩ := hother.isSuffix
    have hlengths := congrArg List.length (hparts.symm.trans hshorter)
    rw [List.length_append,List.length_append] at hlengths
    have hfalse := hfirst shorter other hshorter (by omega)
    rw [(taskWord_iff hids hnodup hrun hshorter).mpr ⟨hother,hknown⟩] at hfalse
    exact Bool.noConfusion hfalse
  · intro h
    obtain ⟨id,hid,hlowered⟩ := h.registered
    obtain ⟨start,hstart⟩ := h.tail.isSuffix
    refine ⟨?_,start,hstart,(taskWord_iff hids hnodup hrun hstart).mpr ⟨h.tail,h.registered⟩,?_⟩
    · rintro rfl
      exact (hids id hid).1 (by simpa [lowered] using hlowered)
    · intro shorter longer hlonger hshorter
      by_contra hword
      obtain ⟨htail,hknown⟩ := (taskWord_iff hids hnodup hrun hlonger).mp (by simpa using hword)
      have hle := h.longest longer htail hknown
      have hlengths := congrArg List.length (hstart.symm.trans hlonger)
      rw [List.length_append,List.length_append] at hlengths
      omega

include hids hnodup in
theorem mem_matchTaskIds (values : List String) (id : String) : id ∈ matchTaskIds values taskIds false ↔
    id ∈ taskIds ∧ ∃ value ∈ values, ∃ token, HasToken value token ∧ ∃ part, LongestTail taskIds token part ∧
      lowered id.toList = lowered part := by
  simp only [matchTaskIds,List.mem_flatMap,List.mem_filterMap,mem_finditer (matchesEnds hids hnodup)
    (fun _ hc => (Option.not_mem_none _ hc).elim),Option.or_none]
  have hinside : ∀ {text before token after part : List Char}, IsRun isIdChar text before token after →
      LongestTail taskIds token part → ∀ c ∈ part, isIdChar c = true := by
    intro text before token after part hrun hpart c hc
    obtain ⟨start,hstart⟩ := hpart.tail.isSuffix
    exact hrun.inside c (hstart ▸ List.mem_append_right _ hc)
  constructor
  · intro ⟨value,hvalue,part,⟨before,token,after,hrun,hfirst⟩,hlookup⟩
    have hpart := (firstEnd_iff hids hnodup hrun part).mp hfirst
    obtain ⟨hid,hlowered⟩ := (lookup_normalizedToTask hids hnodup (hinside hrun hpart) id).mp hlookup
    exact ⟨hid,value,hvalue,token,⟨before,after,hrun⟩,part,hpart,hlowered⟩
  · intro ⟨hid,value,hvalue,token,⟨before,after,hrun⟩,part,hpart,hlowered⟩
    exact ⟨value,hvalue,part,⟨before,token,after,hrun,(firstEnd_iff hids hnodup hrun part).mpr hpart⟩,
      (lookup_normalizedToTask hids hnodup (hinside hrun hpart) id).mpr ⟨hid,hlowered⟩⟩

end

theorem HasToken.eq_whole {value : String} (h : HasToken value token)
    (hinside : ∀ c ∈ prTaskText value.toList, isIdChar c = true) : token = prTaskText value.toList := by
  obtain ⟨before,after,hrun⟩ := h
  have hbefore : before = [] := by
    by_contra hne
    have hlast := hrun.opened (before.getLast hne) (List.getLast?_eq_getLast_of_ne_nil hne)
    have hmem : before.getLast hne ∈ prTaskText value.toList := by
      rw [hrun.parts,List.append_assoc]
      exact List.mem_append_left _ (List.getLast_mem hne)
    exact absurd (hinside _ hmem) (by simp [hlast])
  have hafter : after = [] := by
    cases after with
    | nil => rfl
    | cons c after =>
      have hc := hrun.closed c rfl
      exact absurd (hinside c (by rw [hrun.parts]; simp)) (by simp [hc])
  rw [hrun.parts,hbefore,hafter,List.nil_append,List.append_nil]

theorem LongestTail.self (h : Registered taskIds token) :
    LongestTail taskIds token token := by
  refine ⟨.inl rfl,h,fun other hother _ => ?_⟩
  obtain ⟨start,hstart⟩ := hother.isSuffix
  rw [hstart,List.length_append]
  omega

theorem LongestTail.eq_of_registered
    (h : LongestTail taskIds token part) (htoken : Registered taskIds token) : part = token := by
  have hle := h.longest token (.inl rfl) htoken
  obtain ⟨start,hstart⟩ := h.tail.isSuffix
  have hlength := congrArg List.length hstart
  rw [List.length_append] at hlength
  have hnil : start = [] := List.length_eq_zero_iff.mp (by omega)
  rw [hstart,hnil,List.nil_append]

/-- The markers of a pull request bind exactly the registered ids that are whole tokens of their items, as long
as no unregistered token ends with a registered id that is nowhere a whole token: before an id the expression
only excludes letters and digits, behind it hyphens too. -/
theorem structured_binding_exact_iff (P : MarkerPatterns) (pullRequest : Json) {taskIds : List String}
    (hids : ∀ id ∈ taskIds, TaskIdText id) (hnodup : taskIds.Nodup) :
    (∀ id, id ∈ structuredPullRequestTaskIds P pullRequest taskIds ↔
      id ∈ taskIds ∧ ∃ item ∈ structuredItems P pullRequest, Names item id) ↔
    Separated taskIds (structuredItems P pullRequest) := by
  simp only [structuredPullRequestTaskIds,mem_matchTaskIds hids hnodup]
  constructor
  · intro hexact value hvalue token htoken _ part hpart id hid hlowered
    exact ((hexact id).mp ⟨hid,value,hvalue,token,htoken,part,hpart,hlowered⟩).2
  · intro hseparated id
    refine and_congr_right fun hid => ?_
    constructor
    · intro ⟨value,hvalue,token,htoken,part,hpart,hlowered⟩
      by_cases hregistered : Registered taskIds token
      · rw [hpart.eq_of_registered hregistered] at hlowered
        exact ⟨value,hvalue,token,htoken,hlowered.symm⟩
      · exact hseparated value hvalue token htoken hregistered part hpart id hid hlowered
    · intro ⟨value,hvalue,token,htoken,hlowered⟩
      exact ⟨value,hvalue,token,htoken,token,.self ⟨id,hid,hlowered.symm⟩,hlowered.symm⟩

def marked (value : String) : Json := .obj [("bureau_task",.str value)]

def unlabelled : MarkerPatterns := ⟨fun _ => none,fun _ => []⟩

/-- One id is the end of the other; the marker in small letters binds the longer one only. -/
theorem structured_binding_exact_small_letters :
    (∀ id ∈ ["BUR-T1","OLD-BUR-T1"], TaskIdText id) ∧ ["BUR-T1","OLD-BUR-T1"].Nodup ∧
    structuredPullRequestTaskIds unlabelled (marked "old_bur_t1") ["BUR-T1","OLD-BUR-T1"] = ["OLD-BUR-T1"] ∧
    ∀ id, id ∈ structuredPullRequestTaskIds unlabelled (marked "old_bur_t1") ["BUR-T1","OLD-BUR-T1"] ↔
      id ∈ ["BUR-T1","OLD-BUR-T1"] ∧ ∃ item ∈ structuredItems unlabelled (marked "old_bur_t1"), Names item id := by
  refine ⟨by decide,by decide,by decide,
    (structured_binding_exact_iff unlabelled (marked "old_bur_t1") (by decide) (by decide)).mpr ?_⟩
  intro value hvalue token htoken hnot
  have hitems : structuredItems unlabelled (marked "old_bur_t1") = ["old_bur_t1"] := by decide
  rw [hitems,List.mem_singleton] at hvalue
  subst hvalue
  rw [htoken.eq_whole (List.all_eq_true.mp (by decide))] at hnot
  exact absurd ⟨"OLD-BUR-T1",by decide,by decide⟩ hnot

/-- A marker of a task that is not registered binds the registered task its id ends with. -/
theorem unregistered_marker_binds_its_end :
    (∀ id ∈ ["BUR-T1"], TaskIdText id) ∧
    "BUR-T1" ∈ structuredPullRequestTaskIds unlabelled (marked "OLD-BUR-T1") ["BUR-T1"] ∧
    ¬ ∃ item ∈ structuredItems unlabelled (marked "OLD-BUR-T1"), Names item "BUR-T1" := by
  refine ⟨by decide,by decide,?_⟩
  intro ⟨item,hitem,token,htoken,hlowered⟩
  have hitems : structuredItems unlabelled (marked "OLD-BUR-T1") = ["OLD-BUR-T1"] := by decide
  rw [hitems,List.mem_singleton] at hitem
  subst hitem
  rw [htoken.eq_whole (List.all_eq_true.mp (by decide))] at hlowered
  exact absurd hlowered (by decide)

end PullRequestBinding

end Bureau
