import Mathlib

/-!
JSON documents as the Bureau reads and writes them: TaskSpecs, execution envelopes,
receipts and event payloads. Object fields are listed in the key order `canonical_json`
prints, so equality of documents is equality of Python dictionaries.
-/

namespace Bureau

inductive Json where
  | null
  | bool (b : Bool)
  | num (n : Int)
  | str (s : String)
  | arr (items : List Json)
  | obj (fields : List (String × Json))

namespace Json

mutual

def decEq : (a b : Json) → Decidable (a = b)
  | .null, .null => isTrue rfl
  | .bool a, .bool b => decidable_of_iff (a = b) (by simp)
  | .num a, .num b => decidable_of_iff (a = b) (by simp)
  | .str a, .str b => decidable_of_iff (a = b) (by simp)
  | .arr a, .arr b =>
    match decEqItems a b with
    | isTrue h => isTrue (by simp [h])
    | isFalse h => isFalse (by simp [h])
  | .obj a, .obj b =>
    match decEqFields a b with
    | isTrue h => isTrue (by simp [h])
    | isFalse h => isFalse (by simp [h])
  | .null, .bool _ | .null, .num _ | .null, .str _ | .null, .arr _ | .null, .obj _ => isFalse (by simp)
  | .bool _, .null | .bool _, .num _ | .bool _, .str _ | .bool _, .arr _ | .bool _, .obj _ => isFalse (by simp)
  | .num _, .null | .num _, .bool _ | .num _, .str _ | .num _, .arr _ | .num _, .obj _ => isFalse (by simp)
  | .str _, .null | .str _, .bool _ | .str _, .num _ | .str _, .arr _ | .str _, .obj _ => isFalse (by simp)
  | .arr _, .null | .arr _, .bool _ | .arr _, .num _ | .arr _, .str _ | .arr _, .obj _ => isFalse (by simp)
  | .obj _, .null | .obj _, .bool _ | .obj _, .num _ | .obj _, .str _ | .obj _, .arr _ => isFalse (by simp)

def decEqItems : (a b : List Json) → Decidable (a = b)
  | [], [] => isTrue rfl
  | [], _ :: _ => isFalse (by simp)
  | _ :: _, [] => isFalse (by simp)
  | x :: xs, y :: ys =>
    match decEq x y, decEqItems xs ys with
    | isTrue h, isTrue hs => isTrue (by simp [h,hs])
    | isFalse h, _ => isFalse (by simp [h])
    | _, isFalse hs => isFalse (by simp [hs])

def decEqFields : (a b : List (String × Json)) → Decidable (a = b)
  | [], [] => isTrue rfl
  | [], _ :: _ => isFalse (by simp)
  | _ :: _, [] => isFalse (by simp)
  | (k,x) :: xs, (l,y) :: ys =>
    match decEq x y, decEqFields xs ys with
    | isTrue h, isTrue hs => decidable_of_iff (k = l) (by simp [h,hs])
    | isFalse h, _ => isFalse (by simp [h])
    | _, isFalse hs => isFalse (by simp [hs])

end

instance : DecidableEq Json := decEq

instance : Inhabited Json := ⟨.null⟩

def field? (key : String) : List (String × Json) → Option Json
  | [] => none
  | (k,v) :: rest => if key = k then some v else field? key rest

/-- `document.get(key)`; a value that is not an object has no fields. -/
def get? : Json → String → Option Json
  | .obj fields, key => field? key fields
  | _, _ => none

def str? : Json → Option String
  | .str s => some s
  | _ => none

def int? : Json → Option Int
  | .num n => some n
  | _ => none

def arr? : Json → Option (List Json)
  | .arr items => some items
  | _ => none

def isObj : Json → Bool
  | .obj _ => true
  | _ => false

/-- `document.get(key)` where only a string counts. -/
def getStr? (document : Json) (key : String) : Option String :=
  (document.get? key).bind str?

/-- `document.get(key, [])`; anything but an array reads as empty. -/
def getArr (document : Json) (key : String) : List Json :=
  ((document.get? key).bind arr?).getD []

def getStrings (document : Json) (key : String) : List String :=
  (document.getArr key).filterMap str?

/-! Values as the language reads them. -/

def truthy : Json → Bool
  | .null => false
  | .bool b => b
  | .num n => n ≠ 0
  | .str s => s ≠ ""
  | .arr items => !items.isEmpty
  | .obj fields => !fields.isEmpty

def hashable : Json → Bool
  | .arr _ | .obj _ => false
  | _ => true

def number? : Json → Option Int
  | .num n => some n
  | .bool b => some (if b then 1 else 0)
  | _ => none

def setKey (value : Json) : Json :=
  (value.number?.map .num).getD value

def shown : Json → String
  | .str s => s
  | .num n => toString n
  | .bool true => "True"
  | .bool false => "False"
  | _ => "None"

/-- Insertion at the place `canonical_json` prints the key. -/
def insertField (key : String) (value : Json) : List (String × Json) → List (String × Json)
  | [] => [(key,value)]
  | (k,v) :: rest =>
    if key = k then (key,value) :: rest
    else if key < k then (key,value) :: (k,v) :: rest
    else (k,v) :: insertField key value rest

/-- `document[key] = value`. -/
def set : Json → String → Json → Json
  | .obj fields, key, value => .obj (insertField key value fields)
  | document, _, _ => document

/-- `document.pop(key, None)`. -/
def pop : Json → String → Json
  | .obj fields, key => .obj (fields.filter fun field => field.1 ≠ key)
  | document, _ => document

@[simp] theorem field?_insertField (key k : String) (value : Json) (fields : List (String × Json)) :
    field? k (insertField key value fields) = if k = key then some value else field? k fields := by
  induction fields with
  | nil => rfl
  | cons field rest ih =>
    obtain ⟨l,v⟩ := field
    unfold insertField
    split
    · rename_i h
      subst h
      by_cases h : k = key <;> simp [field?,h]
    · rename_i hne
      split
      · rfl
      · by_cases h : k = key
        · subst h
          simp [field?,ih,hne]
        · simp [field?,ih,h]

@[simp] theorem field?_filter_ne (key k : String) (fields : List (String × Json)) :
    field? k (fields.filter fun field => field.1 ≠ key) =
      if k = key then none else field? k fields := by
  induction fields with
  | nil => simp [field?]
  | cons field rest ih =>
    obtain ⟨l,v⟩ := field
    by_cases hl : l = key
    · subst hl
      rw [List.filter_cons_of_neg (by simp),ih]
      by_cases h : k = l <;> simp [field?,h]
    · rw [List.filter_cons_of_pos (by simpa using hl)]
      by_cases h : k = key
      · subst h
        simp only [field?,if_neg (Ne.symm hl),ih]
      · simp only [field?,ih,if_neg h]

@[simp] theorem get?_set_self (fields : List (String × Json)) (key : String) (value : Json) :
    ((Json.obj fields).set key value).get? key = some value := by
  simp [set,get?,field?_insertField]

variable {k key : String} {fields : List (String × Json)} {document value : Json}

@[simp] theorem get?_set_ne (document : Json) (value : Json) (h : k ≠ key) :
    (document.set key value).get? k = document.get? k := by
  cases document <;> simp [set,get?,field?_insertField,h]

@[simp] theorem get?_pop_self (document : Json) (key : String) : (document.pop key).get? key = none := by
  cases document with
  | obj fields => simp only [pop,get?,field?_filter_ne,if_true]
  | _ => simp [pop,get?]

@[simp] theorem get?_pop_ne (document : Json) (h : k ≠ key) :
    (document.pop key).get? k = document.get? k := by
  cases document with
  | obj fields => simp only [pop,get?,field?_filter_ne,if_neg h]
  | _ => simp [pop,get?]

theorem filter_ne_of_absent (h : field? key fields = none) :
    fields.filter (fun field => field.1 ≠ key) = fields := by
  induction fields with
  | nil => rfl
  | cons field rest ih =>
    obtain ⟨k,v⟩ := field
    by_cases hk : key = k
    · simp [field?,hk] at h
    · simp only [field?,if_neg hk] at h
      rw [List.filter_cons_of_pos (by simpa using Ne.symm hk),ih h]

theorem filter_ne_insertField (key : String) (value : Json) (fields : List (String × Json)) :
    (insertField key value fields).filter (fun field => field.1 ≠ key) =
      fields.filter fun field => field.1 ≠ key := by
  induction fields with
  | nil => simp [insertField]
  | cons field rest ih =>
    obtain ⟨k,v⟩ := field
    unfold insertField
    split
    · rename_i hk
      subst hk
      simp
    · split
      · rw [List.filter_cons_of_neg (by simp)]
      · rw [List.filter_cons,List.filter_cons,ih]

theorem pop_set_of_absent (value : Json) (h : document.get? key = none) :
    (document.set key value).pop key = document := by
  cases document with
  | obj fields => rw [set,pop,filter_ne_insertField,filter_ne_of_absent h]
  | _ => rfl

theorem isObj_of_get? (h : document.get? key = some value) :
    document.isObj = true := by
  cases document with
  | obj fields => rfl
  | _ => cases h

theorem isObj_of_getStr? {text : String} (h : document.getStr? key = some text) :
    document.isObj = true := by
  obtain ⟨value,hvalue,_⟩ := Option.bind_eq_some_iff.mp h
  exact isObj_of_get? hvalue

@[simp] theorem isObj_set (document : Json) (key : String) (value : Json) :
    (document.set key value).isObj = document.isObj := by
  cases document <;> rfl

@[simp] theorem isObj_pop (document : Json) (key : String) : (document.pop key).isObj = document.isObj := by
  cases document <;> rfl

@[simp] theorem get?_map_set (document : Json) (value : Option Json) (h : k ≠ key) :
    ((value.map (document.set key)).getD document).get? k = document.get? k := by
  cases value with
  | none => rfl
  | some v => exact get?_set_ne document v h

@[simp] theorem isObj_map_set (document : Json) (value : Option Json) (key : String) :
    ((value.map (document.set key)).getD document).isObj = document.isObj := by
  cases value with
  | none => rfl
  | some v => exact isObj_set document key v

/-- The fields stand in the order `canonical_json` prints them, each key once. -/
def Ordered : Json → Prop
  | .obj fields => fields.Pairwise fun a b => a.1 < b.1
  | _ => True

instance (document : Json) : Decidable document.Ordered := by
  cases document <;> (unfold Ordered; infer_instance)

theorem mem_insertField {field : String × Json}
    (h : field ∈ insertField key value fields) : field = (key,value) ∨ field ∈ fields := by
  induction fields with
  | nil => simpa [insertField] using h
  | cons head rest ih =>
    obtain ⟨k,v⟩ := head
    unfold insertField at h
    split at h
    · rcases List.mem_cons.mp h with h | h
      · exact .inl h
      · exact .inr (List.mem_cons_of_mem _ h)
    · split at h
      · exact List.mem_cons.mp h
      · rcases List.mem_cons.mp h with rfl | h
        · exact .inr List.mem_cons_self
        · exact (ih h).imp_right (List.mem_cons_of_mem _)

theorem Ordered.set (h : document.Ordered) (key : String) (value : Json) :
    (document.set key value).Ordered := by
  cases document with
  | obj fields =>
    change (insertField key value fields).Pairwise fun a b => a.1 < b.1
    induction fields with
    | nil => simp [insertField]
    | cons head rest ih =>
      obtain ⟨k,v⟩ := head
      obtain ⟨hhead,hrest⟩ := List.pairwise_cons.mp h
      unfold insertField
      split
      · rename_i hk
        subst hk
        exact List.pairwise_cons.mpr ⟨hhead,hrest⟩
      · rename_i hne
        split
        · rename_i hlt
          refine List.pairwise_cons.mpr ⟨fun b hb => ?_,h⟩
          rcases List.mem_cons.mp hb with rfl | hb
          · exact hlt
          · exact lt_trans hlt (hhead b hb)
        · rename_i hge
          refine List.pairwise_cons.mpr ⟨fun b hb => ?_,ih hrest⟩
          rcases mem_insertField hb with rfl | hb
          · exact lt_of_le_of_ne (not_lt.mp hge) (Ne.symm hne)
          · exact hhead b hb
  | _ => exact trivial

theorem Ordered.pop (h : document.Ordered) (key : String) : (document.pop key).Ordered := by
  cases document with
  | obj fields => exact List.Pairwise.filter _ h
  | _ => exact trivial

theorem field?_eq_none_of_lt (h : ∀ b ∈ fields, key < b.1) :
    field? key fields = none := by
  induction fields with
  | nil => rfl
  | cons head rest ih =>
    obtain ⟨k,v⟩ := head
    have hk : key ≠ k := (h (k,v) List.mem_cons_self).ne
    rw [field?,if_neg hk]
    exact ih fun b hb => h b (List.mem_cons_of_mem _ hb)

theorem le_of_field?_cons {a b : String × Json} {rest : List (String × Json)}
    (h : (a :: rest).Pairwise fun a b => a.1 < b.1) (hb : field? b.1 (a :: rest) ≠ none) : a.1 ≤ b.1 := by
  by_contra hlt
  refine hb (field?_eq_none_of_lt fun c hc => ?_)
  rcases List.mem_cons.mp hc with rfl | hc
  · exact not_le.mp hlt
  · exact (not_le.mp hlt).trans (List.rel_of_pairwise_cons h hc)

theorem fields_ext {first second : List (String × Json)} (hfirst : first.Pairwise fun a b => a.1 < b.1)
    (hsecond : second.Pairwise fun a b => a.1 < b.1) (h : ∀ key, field? key first = field? key second) :
    first = second := by
  have hhead (a : String × Json) (rest : List (String × Json)) : field? a.1 (a :: rest) = some a.2 := by
    simp [field?]
  induction first generalizing second with
  | nil =>
    cases second with
    | nil => rfl
    | cons b others => exact absurd ((h b.1).trans (hhead b others)) (by simp [field?])
  | cons a rest ih =>
    cases second with
    | nil => exact absurd ((h a.1).symm.trans (hhead a rest)) (by simp [field?])
    | cons b others =>
      have hkey : a.1 = b.1 := by
        refine le_antisymm (le_of_field?_cons hfirst ?_) (le_of_field?_cons hsecond ?_)
        · rw [h b.1,hhead]
          exact Option.some_ne_none _
        · rw [← h a.1,hhead]
          exact Option.some_ne_none _
      have hvalue := h a.1
      rw [hhead,hkey,hhead] at hvalue
      obtain ⟨ha,hrest⟩ := List.pairwise_cons.mp hfirst
      obtain ⟨hb,hothers⟩ := List.pairwise_cons.mp hsecond
      rw [Prod.ext hkey (Option.some.inj hvalue),ih hrest hothers]
      intro key
      by_cases hk : key = a.1
      · rw [hk,field?_eq_none_of_lt ha,hkey,field?_eq_none_of_lt hb]
      · have hget := h key
        have hl : key ≠ b.1 := hkey ▸ hk
        obtain ⟨k,v⟩ := a
        obtain ⟨l,w⟩ := b
        rwa [field?,field?,if_neg hk,if_neg hl] at hget

theorem Ordered.ext {first second : Json} (hfirst : first.Ordered) (hsecond : second.Ordered)
    (hobj : first.isObj = true ∧ second.isObj = true) (h : ∀ key, first.get? key = second.get? key) :
    first = second := by
  cases first <;> simp only [isObj,Bool.false_eq_true,false_and] at hobj
  cases second <;> simp only [Bool.false_eq_true,and_false] at hobj
  rw [fields_ext hfirst hsecond h]

theorem keys_insertField (key : String) (value : Json) (fields : List (String × Json)) :
    (insertField key value fields).map Prod.fst =
      (insertField key .null ((fields.map Prod.fst).map fun k => (k,.null))).map Prod.fst := by
  induction fields with
  | nil => rfl
  | cons field rest ih =>
    obtain ⟨k,v⟩ := field
    rw [insertField,List.map_cons,List.map_cons,insertField]
    split
    · simp
    · split
      · simp
      · rw [List.map_cons,List.map_cons,ih]

/-- The escapes `json.dumps` applies inside a string. -/
def escapeChar (c : Char) : String :=
  if c = '"' then "\\\""
  else if c = '\\' then "\\\\"
  else if c = '\n' then "\\n"
  else if c = '\r' then "\\r"
  else if c = '\t' then "\\t"
  else if c.toNat = 8 then "\\b"
  else if c.toNat = 12 then "\\f"
  else if c.toNat < 32 then
    "\\u00" ++ (if c.toNat < 16 then "0" else "1") ++ String.singleton (Nat.digitChar (c.toNat % 16))
  else String.singleton c

def quote (s : String) : String :=
  "\"" ++ (s.toList.foldr (fun c text => escapeChar c ++ text) "") ++ "\""

mutual

/-- `canonical_json`: sorted keys, no blanks, no ASCII escapes. -/
def canonicalJson : Json → String
  | .null => "null"
  | .bool b => if b then "true" else "false"
  | .num n => toString n
  | .str s => quote s
  | .arr items => "[" ++ canonicalItems items ++ "]"
  | .obj fields => "\x7b" ++ canonicalFields fields ++ "\x7d"

def canonicalItems : List Json → String
  | [] => ""
  | [x] => canonicalJson x
  | x :: y :: rest => canonicalJson x ++ "," ++ canonicalItems (y :: rest)

def canonicalFields : List (String × Json) → String
  | [] => ""
  | [(k,x)] => quote k ++ ":" ++ canonicalJson x
  | (k,x) :: field :: rest => quote k ++ ":" ++ canonicalJson x ++ "," ++ canonicalFields (field :: rest)

end

end Json

end Bureau
