import Bureau.RankRetention

/-!
The local retention of backups, snapshots and receipts. A pruning keeps what is referenced, the
newest entry, the newest ones of a recent window and the newest one of every covered bucket of
each tier; everything else is a candidate for removal.
-/

namespace Bureau

namespace Retention

open RankRetention

structure Entry where
  createdAt : ℤ
  path : String
  deriving DecidableEq

def Entry.key (e : Entry) : ℤ ×ₗ String := toLex (e.createdAt,e.path)

theorem Entry.key_injective : Function.Injective Entry.key := by
  intro a b h
  obtain ⟨hcreated,hpath⟩ := Prod.mk.inj (toLex.injective h)
  cases a
  cases b
  exact congr (congrArg Entry.mk hcreated) hpath

instance : LinearOrder Entry := LinearOrder.lift' Entry.key Entry.key_injective

/-- A tier keeps the newest entry of each of its last `count` buckets. -/
structure Tier where
  seconds : ℤ
  count : ℤ
  positive : 0 < seconds

/-- The retention policy of one store: its recent window and its tiers. -/
structure Policy where
  recentSeconds : ℤ
  recentMaxCount : ℕ
  tiers : List Tier
  positive : 0 < recentMaxCount

/-- `sorted(..., reverse=True)`. -/
def newestFirst (entries : List Entry) : List Entry := entries.insertionSort (· ≥ ·)

def isRecent (policy : Policy) (now : ℤ) (item : Entry) : Bool :=
  0 ≤ now-item.createdAt && now-item.createdAt ≤ policy.recentSeconds

/-- The loop over the entries of a tier: the first entry of every covered bucket, with its distance. -/
def tierSelection (tier : Tier) (now : ℤ) : List ℤ → List Entry → List (Entry × ℤ)
  | _, [] => []
  | selected, item :: rest =>
    let bucket := item.createdAt/tier.seconds
    let distance := now/tier.seconds-bucket
    if now < item.createdAt || (distance < 0 || tier.count ≤ distance || selected.contains bucket) then
      tierSelection tier now selected rest
    else (item,distance) :: tierSelection tier now (bucket :: selected) rest

/-- `_keep_reasons`: the reasons for which a path is kept. -/
def keepReasons (policy : Policy) (now : ℤ) (explicit : String → List String) (entries : List Entry) (path : String) :
    List String :=
  let ordered := newestFirst entries
  let recent := (ordered.filter (isRecent policy now)).take policy.recentMaxCount
  explicit path ++ (if ordered.head?.any (·.path = path) then ["newest"] else []) ++
    (if recent.any (·.path = path) then ["recent-window"] else []) ++
    policy.tiers.flatMap fun tier => (tierSelection tier now [] ordered).filterMap fun selection =>
      if selection.1.path = path then
        some ("tier:" ++ toString tier.seconds ++ ":" ++ toString selection.2)
      else none

/-- What `_build_store_retention` retains; the other entries are its candidates. -/
def retained (policy : Policy) (now : ℤ) (explicit : String → List String) (entries : List Entry) : List Entry :=
  entries.filter fun item => !(keepReasons policy now explicit entries item.path).isEmpty

/-- The entries that exist at a time. -/
def present (now : ℤ) (entries : List Entry) : List Entry := entries.filter (·.createdAt ≤ now)

/-- A pruning removes the candidates among the entries that exist at its time. -/
def prune (policy : Policy) (explicit : String → List String) (now : ℤ) (entries : List Entry) : List Entry :=
  entries.filter fun item => now < item.createdAt || (retained policy now explicit (present now entries)).contains item

/-! The rules behind the reasons. -/

def newestRule : Rule Entry ℤ where
  covers _ _ := true
  same _ _ := true
  limit := 1

def recentRule (policy : Policy) : Rule Entry ℤ where
  covers now item := now-item.createdAt ≤ policy.recentSeconds
  same _ _ := true
  limit := policy.recentMaxCount

def tierRule (tier : Tier) : Rule Entry ℤ where
  covers now item := now/tier.seconds-item.createdAt/tier.seconds < tier.count
  same a b := a.createdAt/tier.seconds = b.createdAt/tier.seconds
  limit := 1

def Policy.rules (policy : Policy) : List (Rule Entry ℤ) :=
  newestRule :: recentRule policy :: policy.tiers.map tierRule

theorem createdAt_le_of_lt {a b : Entry} (h : a < b) : a.createdAt ≤ b.createdAt := by
  have hkey : a.key < b.key := h
  rcases Prod.Lex.toLex_lt_toLex.mp hkey with hlt | ⟨heq,_⟩
  · exact hlt.le
  · exact heq.le

theorem Policy.steady (policy : Policy) : ∀ r ∈ policy.rules, r.Steady Entry.createdAt := by
  intro r hr
  simp only [Policy.rules,List.mem_cons,List.mem_map] at hr
  rcases hr with rfl | rfl | ⟨tier,_,rfl⟩
  · exact ⟨fun _ _ => rfl,fun _ _ _ => rfl,fun _ _ _ _ => rfl⟩
  · refine ⟨fun _ _ => rfl,fun hut _ hcovers => ?_,fun hcovers _ hlt _ => ?_⟩
    · simp only [recentRule,decide_eq_true_eq] at hcovers ⊢
      omega
    · have hle := createdAt_le_of_lt hlt
      simp only [recentRule,decide_eq_true_eq] at hcovers ⊢
      omega
  · refine ⟨fun hab hbc => ?_,fun hut _ hcovers => ?_,fun hcovers hsame _ _ => ?_⟩
    · simp only [tierRule,decide_eq_true_eq] at hab hbc ⊢
      rw [hab,hbc]
    · have hbucket := Int.ediv_le_ediv tier.positive hut
      simp only [tierRule,decide_eq_true_eq] at hcovers ⊢
      omega
    · simp only [tierRule,decide_eq_true_eq] at hcovers hsame ⊢
      omega

section Selection

variable {entries : List Entry} {item : Entry} {now : ℤ}

def Descending (entries : List Entry) : Prop := entries.Pairwise (· > ·)

theorem descending_newestFirst (h : entries.Nodup) : Descending (newestFirst entries) := by
  have hsorted : (newestFirst entries).Pairwise (· ≥ ·) := List.pairwise_insertionSort _ _
  have hnodup : (newestFirst entries).Nodup := (List.perm_insertionSort _ _).nodup_iff.mpr h
  exact (hsorted.and hnodup).imp fun hab => lt_of_le_of_ne hab.1 hab.2.symm

theorem countP_eq_zero_of_head {m : Entry} {rest : List Entry} (h : ∀ b ∈ rest, m > b) :
    (m :: rest).countP (fun b => decide (m < b)) = 0 := by
  rw [List.countP_eq_zero]
  intro b hb
  rcases List.mem_cons.mp hb with rfl | hb
  · simp
  · simpa using (h b hb).le

theorem mem_take_iff (h : Descending entries) (k : ℕ) :
    item ∈ entries.take k ↔ item ∈ entries ∧ entries.countP (fun b => decide (item < b)) < k := by
  induction entries generalizing k with
  | nil => simp
  | cons m rest ih =>
    obtain ⟨hfirst,hrest⟩ := List.pairwise_cons.mp h
    cases k with
    | zero => simp
    | succ k =>
      rw [List.take_succ_cons,List.mem_cons,List.mem_cons,ih hrest]
      by_cases hitem : item = m
      · subst hitem
        have hzero := countP_eq_zero_of_head hfirst
        simp only [true_or,true_and,true_iff]
        omega
      · simp only [hitem,false_or]
        constructor
        · rintro ⟨hmem,hcount⟩
          refine ⟨hmem,?_⟩
          have hcons := List.countP_cons_of_pos (l := rest) (p := fun b => decide (item < b))
            (decide_eq_true (hfirst item hmem))
          omega
        · rintro ⟨hmem,hcount⟩
          have hcons := List.countP_cons_of_pos (l := rest) (p := fun b => decide (item < b))
            (decide_eq_true (hfirst item hmem))
          exact ⟨hmem,by omega⟩

theorem head?_eq_some_iff (h : Descending entries) :
    entries.head? = some item ↔ item ∈ entries ∧ entries.countP (fun b => decide (item < b)) < 1 := by
  rw [← mem_take_iff h 1]
  cases entries with
  | nil => simp
  | cons m rest => simp [eq_comm]

def Tier.isCovered (tier : Tier) (now : ℤ) (item : Entry) : Prop :=
  now/tier.seconds-item.createdAt/tier.seconds < tier.count

theorem Tier.distance_nonneg (tier : Tier) (h : item.createdAt ≤ now) :
    ¬ now/tier.seconds-item.createdAt/tier.seconds < 0 := by
  have hbucket := Int.ediv_le_ediv tier.positive h
  omega

/-- The loop of a tier takes the newest entry of every covered bucket that was not taken yet. -/
theorem mem_tierSelection (tier : Tier) (hpresent : ∀ b ∈ entries, b.createdAt ≤ now) (h : Descending entries)
    (selected : List ℤ) :
    (∃ distance, (item,distance) ∈ tierSelection tier now selected entries) ↔ item ∈ entries ∧ tier.isCovered now item ∧
      item.createdAt/tier.seconds ∉ selected ∧
      ∀ b ∈ entries, b.createdAt/tier.seconds = item.createdAt/tier.seconds → b ≤ item := by
  induction entries generalizing selected with
  | nil => simp [tierSelection]
  | cons m rest ih =>
    obtain ⟨hfirst,hrest⟩ := List.pairwise_cons.mp h
    have hmpresent := hpresent m List.mem_cons_self
    have hrestpresent : ∀ b ∈ rest, b.createdAt ≤ now := fun b hb => hpresent b (List.mem_cons_of_mem _ hb)
    have hnonneg := tier.distance_nonneg hmpresent
    simp only [tierSelection]
    split_ifs with hskip
    · -- the first entry is passed over: its bucket is not covered or was taken
      have hreason : ¬ tier.isCovered now m ∨ m.createdAt/tier.seconds ∈ selected := by
        simp only [Bool.or_eq_true,decide_eq_true_eq,List.contains_iff_mem] at hskip
        rcases hskip with hlater | (hneg | hfar) | htaken
        · omega
        · omega
        · exact .inl (not_lt.mpr hfar)
        · exact .inr htaken
      rw [ih hrestpresent hrest]
      constructor
      · rintro ⟨hmem,hcovered,hfree,hmax⟩
        refine ⟨List.mem_cons_of_mem _ hmem,hcovered,hfree,fun b hb hbucket => ?_⟩
        rcases List.mem_cons.mp hb with rfl | hb
        · rcases hreason with hout | htaken
          · exact absurd (by rw [Tier.isCovered,hbucket]; exact hcovered) hout
          · exact absurd (hbucket ▸ htaken) hfree
        · exact hmax b hb hbucket
      · rintro ⟨hmem,hcovered,hfree,hmax⟩
        rcases List.mem_cons.mp hmem with rfl | hmem
        · exact absurd hreason (by simp [hcovered,hfree])
        · exact ⟨hmem,hcovered,hfree,fun b hb => hmax b (List.mem_cons_of_mem _ hb)⟩
    · have htake : tier.isCovered now m ∧ m.createdAt/tier.seconds ∉ selected := by
        simp only [Bool.or_eq_true,decide_eq_true_eq,List.contains_iff_mem,not_or,not_lt,not_le] at hskip
        exact ⟨hskip.2.1.2,hskip.2.2⟩
      have hlist : (∃ distance, (item,distance) ∈ (m,now/tier.seconds-m.createdAt/tier.seconds) ::
          tierSelection tier now (m.createdAt/tier.seconds :: selected) rest) ↔ item = m ∨
          ∃ distance, (item,distance) ∈ tierSelection tier now (m.createdAt/tier.seconds :: selected) rest := by
        constructor
        · rintro ⟨distance,hmem⟩
          rcases List.mem_cons.mp hmem with heq | hmem
          · exact .inl (Prod.mk.inj heq).1
          · exact .inr ⟨distance,hmem⟩
        · rintro (rfl | ⟨distance,hmem⟩)
          · exact ⟨_,List.mem_cons_self⟩
          · exact ⟨distance,List.mem_cons_of_mem _ hmem⟩
      rw [hlist,ih hrestpresent hrest]
      constructor
      · rintro (rfl | ⟨hmem,hcovered,hfree,hmax⟩)
        · refine ⟨List.mem_cons_self,htake.1,htake.2,fun b hb _ => ?_⟩
          rcases List.mem_cons.mp hb with rfl | hb
          · exact le_rfl
          · exact (hfirst b hb).le
        · rw [List.mem_cons,not_or] at hfree
          refine ⟨List.mem_cons_of_mem _ hmem,hcovered,hfree.2,fun b hb hbucket => ?_⟩
          rcases List.mem_cons.mp hb with rfl | hb
          · exact absurd hbucket.symm hfree.1
          · exact hmax b hb hbucket
      · rintro ⟨hmem,hcovered,hfree,hmax⟩
        by_cases hitem : item = m
        · exact .inl hitem
        · have hmem : item ∈ rest := (List.mem_cons.mp hmem).resolve_left hitem
          refine .inr ⟨hmem,hcovered,?_,fun b hb => hmax b (List.mem_cons_of_mem _ hb)⟩
          rw [List.mem_cons,not_or]
          refine ⟨fun hbucket => ?_,hfree⟩
          exact absurd (hmax m List.mem_cons_self hbucket.symm) (not_le.mpr (hfirst item hmem))

end Selection

section Reasons

variable {policy : Policy} {explicit : String → List String} {now : ℤ} {entries : List Entry} {item : Entry}

@[simp] theorem mem_present : item ∈ present now entries ↔ item ∈ entries ∧ item.createdAt ≤ now := by
  simp only [present,List.mem_filter,decide_eq_true_eq]

@[simp] theorem mem_newestFirst : item ∈ newestFirst entries ↔ item ∈ entries := List.mem_insertionSort _

theorem path_inj (h : (entries.map (·.path)).Nodup) {a b : Entry} (ha : a ∈ entries) (hb : b ∈ entries)
    (hpath : a.path = b.path) : a = b :=
  List.inj_on_of_nodup_map h ha hb hpath

theorem fst_mem_of_mem_tierSelection {tier : Tier} {selected : List ℤ} {selection : Entry × ℤ}
    (h : selection ∈ tierSelection tier now selected entries) : selection.1 ∈ entries := by
  induction entries generalizing selected with
  | nil => simp [tierSelection] at h
  | cons m rest ih =>
    simp only [tierSelection] at h
    split_ifs at h with hskip
    · exact List.mem_cons_of_mem _ (ih h)
    · rcases List.mem_cons.mp h with rfl | h
      · exact List.mem_cons_self
      · exact List.mem_cons_of_mem _ (ih h)

theorem keepReasons_ne_nil (hpaths : (entries.map (·.path)).Nodup) (hitem : item ∈ entries) :
    keepReasons policy now explicit entries item.path ≠ [] ↔ explicit item.path ≠ [] ∨
      (newestFirst entries).head? = some item ∨
      item ∈ ((newestFirst entries).filter (isRecent policy now)).take policy.recentMaxCount ∨
      ∃ tier ∈ policy.tiers, ∃ distance, (item,distance) ∈ tierSelection tier now [] (newestFirst entries) := by
  have hknown : ∀ {a : Entry}, a ∈ newestFirst entries → a.path = item.path → a = item := fun ha hpath =>
    path_inj hpaths (mem_newestFirst.mp ha) hitem hpath
  have hnewest : (newestFirst entries).head?.any (·.path = item.path) = true ↔
      (newestFirst entries).head? = some item := by
    cases hhead : (newestFirst entries).head? with
    | none => simp
    | some first =>
      have hmem : first ∈ newestFirst entries := List.mem_of_head? hhead
      simp only [Option.any_some,decide_eq_true_eq,Option.some.injEq]
      exact ⟨hknown hmem,fun h => h ▸ rfl⟩
  have hrecent : (((newestFirst entries).filter (isRecent policy now)).take policy.recentMaxCount).any
      (·.path = item.path) = true ↔
      item ∈ ((newestFirst entries).filter (isRecent policy now)).take policy.recentMaxCount := by
    rw [List.any_eq_true]
    constructor
    · intro ⟨a,ha,hpath⟩
      have hmem := List.mem_of_mem_filter (List.mem_of_mem_take ha)
      exact hknown hmem (of_decide_eq_true hpath) ▸ ha
    · exact fun h => ⟨item,h,decide_eq_true rfl⟩
  have htier : (policy.tiers.flatMap fun tier => (tierSelection tier now [] (newestFirst entries)).filterMap
        fun selection => if selection.1.path = item.path then
          some ("tier:" ++ toString tier.seconds ++ ":" ++ toString selection.2) else none) ≠ [] ↔
      ∃ tier ∈ policy.tiers, ∃ distance, (item,distance) ∈ tierSelection tier now [] (newestFirst entries) := by
    simp only [ne_eq,List.flatMap_eq_nil_iff,List.filterMap_eq_nil_iff,not_forall,ite_eq_right_iff,reduceCtorEq,
      imp_false,not_not,exists_prop]
    constructor
    · intro ⟨tier,htier,selection,hselection,hpath⟩
      have hsame := hknown (fst_mem_of_mem_tierSelection hselection) hpath
      exact ⟨tier,htier,selection.2,hsame ▸ hselection⟩
    · intro ⟨tier,htier,distance,hselection⟩
      exact ⟨tier,htier,(item,distance),hselection,rfl⟩
  rw [← hnewest,← hrecent,← htier]
  simp only [keepReasons,ne_eq,List.append_eq_nil_iff,ite_eq_right_iff,List.cons_ne_nil,imp_false,not_and_or,not_not,
    or_assoc]

theorem present_paths (h : (entries.map (·.path)).Nodup) : ((present now entries).map (·.path)).Nodup :=
  h.sublist (List.filter_sublist.map _)

theorem descending_present (h : entries.Nodup) : Descending (newestFirst (present now entries)) :=
  descending_newestFirst (h.filter _)

theorem countP_newestFirst_present (p : Entry → Bool) :
    (newestFirst (present now entries)).countP p = entries.countP fun b => decide (b.createdAt ≤ now) && p b := by
  rw [newestFirst,(List.perm_insertionSort _ _).countP_eq,present,List.countP_filter]
  exact List.countP_congr fun b _ => by rw [Bool.and_comm]

theorem newest_iff (hnodup : entries.Nodup) (hitem : item ∈ entries) (hborn : item.createdAt ≤ now) :
    (newestFirst (present now entries)).head? = some item ↔
      newestRule.above Entry.createdAt now entries item < newestRule.limit := by
  have hcount : newestRule.above Entry.createdAt now entries item =
      (newestFirst (present now entries)).countP (fun b => decide (item < b)) := by
    rw [countP_newestFirst_present]
    exact List.countP_congr fun b _ => by simp [Rule.counts,newestRule]
  rw [head?_eq_some_iff (descending_present hnodup),mem_newestFirst,mem_present,hcount]
  exact ⟨fun h => h.2,fun h => ⟨⟨hitem,hborn⟩,h⟩⟩

theorem recent_iff (hnodup : entries.Nodup) (hitem : item ∈ entries) (hborn : item.createdAt ≤ now) :
    item ∈ ((newestFirst (present now entries)).filter (isRecent policy now)).take policy.recentMaxCount ↔
      (recentRule policy).covers now item = true ∧
        (recentRule policy).above Entry.createdAt now entries item < (recentRule policy).limit := by
  have hrecent : ∀ b : Entry, b.createdAt ≤ now → (isRecent policy now b = (recentRule policy).covers now b) := by
    intro b hb
    have hnonneg : 0 ≤ now-b.createdAt := by omega
    rw [isRecent,decide_eq_true hnonneg,Bool.true_and]
    rfl
  have hdescending : Descending ((newestFirst (present now entries)).filter (isRecent policy now)) :=
    (descending_present hnodup).filter _
  have hcount : (recentRule policy).above Entry.createdAt now entries item =
      ((newestFirst (present now entries)).filter (isRecent policy now)).countP (fun b => decide (item < b)) := by
    rw [List.countP_filter,countP_newestFirst_present]
    refine List.countP_congr fun b _ => ?_
    by_cases hb : b.createdAt ≤ now
    · rw [Rule.counts,decide_eq_true hb,Bool.true_and,Bool.true_and,hrecent b hb,
        show (recentRule policy).same item b = true from rfl,Bool.and_true,Bool.and_comm]
    · simp [Rule.counts,hb]
  rw [mem_take_iff hdescending,List.mem_filter,mem_newestFirst,mem_present,
    hrecent item hborn,hcount]
  exact ⟨fun h => ⟨h.1.2,h.2⟩,fun h => ⟨⟨⟨hitem,hborn⟩,h.1⟩,h.2⟩⟩

theorem tier_iff (tier : Tier) (hnodup : entries.Nodup) (hitem : item ∈ entries) (hborn : item.createdAt ≤ now) :
    (∃ distance, (item,distance) ∈ tierSelection tier now [] (newestFirst (present now entries))) ↔
      (tierRule tier).covers now item = true ∧
        (tierRule tier).above Entry.createdAt now entries item < (tierRule tier).limit := by
  have hpresent : ∀ b ∈ newestFirst (present now entries), b.createdAt ≤ now := fun b hb =>
    (mem_present.mp (mem_newestFirst.mp hb)).2
  have hnone : (tierRule tier).above Entry.createdAt now entries item < (tierRule tier).limit ↔
      ∀ b ∈ entries, ¬ (tierRule tier).counts Entry.createdAt now item b = true := by
    rw [show (tierRule tier).limit = 1 from rfl,Nat.lt_one_iff,Rule.above,List.countP_eq_zero]
  rw [mem_tierSelection tier hpresent (descending_present hnodup),hnone]
  simp only [mem_newestFirst,mem_present,Rule.counts_iff,tierRule,decide_eq_true_eq,Tier.isCovered,List.not_mem_nil,
    not_false_eq_true,true_and]
  constructor
  · rintro ⟨_,hcovered,hmax⟩
    refine ⟨hcovered,fun b hb h => ?_⟩
    obtain ⟨hbborn,_,hsame,hlt⟩ := h
    exact absurd (hmax b ⟨hb,hbborn⟩ hsame.symm) (not_le.mpr hlt)
  · rintro ⟨hcovered,hnone⟩
    refine ⟨⟨hitem,hborn⟩,hcovered,fun b hb hsame => ?_⟩
    by_contra hlt
    exact hnone b hb.1 ⟨hb.2,by rw [hsame]; exact hcovered,hsame.symm,not_le.mp hlt⟩

def protects (explicit : String → List String) (item : Entry) : Bool := !(explicit item.path).isEmpty

theorem keepReasons_iff (policy : Policy) (explicit : String → List String) (hpaths : (entries.map (·.path)).Nodup)
    (hitem : item ∈ entries) (hborn : item.createdAt ≤ now) :
    keepReasons policy now explicit (present now entries) item.path ≠ [] ↔
      keeps Entry.createdAt policy.rules (protects explicit) now entries item = true := by
  have hnodup : entries.Nodup := hpaths.of_map _
  have hprotects : protects explicit item = true ↔ explicit item.path ≠ [] := by simp [protects]
  rw [keepReasons_ne_nil (present_paths hpaths) (mem_present.mpr ⟨hitem,hborn⟩),newest_iff hnodup hitem hborn,
    recent_iff hnodup hitem hborn,keeps_iff,hprotects]
  simp only [tier_iff _ hnodup hitem hborn,Policy.rules,List.mem_cons,List.mem_map,exists_eq_or_imp,
    exists_exists_and_eq_and]
  rw [show newestRule.covers now item = true from rfl]
  simp only [true_and]

theorem prune_eq_pruneAt (policy : Policy) (explicit : String → List String)
    (hpaths : (entries.map (·.path)).Nodup) :
    prune policy explicit now entries = pruneAt Entry.createdAt policy.rules (protects explicit) now entries := by
  refine List.filter_congr fun item hitem => ?_
  by_cases hlater : now < item.createdAt
  · simp [hlater]
  · have hborn : item.createdAt ≤ now := not_lt.mp hlater
    have hmem : item ∈ present now entries := mem_present.mpr ⟨hitem,hborn⟩
    have hkept := keepReasons_iff policy explicit hpaths hitem hborn
    rw [decide_eq_false hlater,Bool.false_or,Bool.false_or,Bool.eq_iff_iff,List.contains_iff_mem,retained,
      List.mem_filter,← hkept]
    simp [hmem]

theorem prune_paths (hpaths : (entries.map (·.path)).Nodup) :
    ((prune policy explicit now entries).map (·.path)).Nodup :=
  hpaths.sublist (List.filter_sublist.map _)

theorem foldl_prune (hpaths : (entries.map (·.path)).Nodup) (times : List ℤ) :
    times.foldl (fun left u => prune policy explicit u left) entries =
      times.foldl (fun left u => pruneAt Entry.createdAt policy.rules (protects explicit) u left) entries := by
  induction times generalizing entries with
  | nil => rfl
  | cons u rest ih =>
    rw [List.foldl_cons,List.foldl_cons,ih (prune_paths hpaths),prune_eq_pruneAt policy explicit hpaths]

theorem mem_prune_of_rule (hpaths : (entries.map (·.path)).Nodup) (hitem : item ∈ entries) {r : Rule Entry ℤ}
    (hr : r ∈ policy.rules) (hlimit : r.limit = 1) (hcovers : r.covers now item = true)
    (hmax : ∀ b ∈ entries, r.same item b = true → b ≤ item) : item ∈ prune policy explicit now entries := by
  rw [prune_eq_pruneAt policy explicit hpaths,mem_pruneAt,keeps_iff]
  refine ⟨hitem,.inr (.inr ⟨r,hr,hcovers,?_⟩)⟩
  rw [hlimit,Nat.lt_one_iff,Rule.above,List.countP_eq_zero]
  intro b hb hcounts
  obtain ⟨_,_,hsame,hlt⟩ := Rule.counts_iff.mp hcounts
  exact absurd (hmax b hb hsame) (not_le.mpr hlt)

end Reasons

/-- However often the entries are pruned on the way, the last pruning decides alone what is left. It
leaves the newest entry and the newest entry of every covered bucket. -/
theorem retention_path_independent (policy : Policy) (explicit : String → List String) (entries : List Entry)
    (hpaths : (entries.map (·.path)).Nodup) (times : List ℤ) (t : ℤ) (hgrowing : times.Pairwise (· ≤ ·))
    (hlast : times.getLast? = some t) :
    times.foldl (fun left u => prune policy explicit u left) entries = prune policy explicit t entries ∧
      prune policy explicit t (prune policy explicit t entries) = prune policy explicit t entries ∧
      (∀ e ∈ entries, (∀ b ∈ entries, b ≤ e) →
        e ∈ times.foldl (fun left u => prune policy explicit u left) entries) ∧
      ∀ tier ∈ policy.tiers, ∀ e ∈ entries, 0 ≤ t/tier.seconds-e.createdAt/tier.seconds →
        t/tier.seconds-e.createdAt/tier.seconds < tier.count →
        (∀ b ∈ entries, b.createdAt/tier.seconds = e.createdAt/tier.seconds → b ≤ e) →
        e ∈ times.foldl (fun left u => prune policy explicit u left) entries := by
  have hrun : times.foldl (fun left u => prune policy explicit u left) entries = prune policy explicit t entries := by
    rw [foldl_prune hpaths,foldl_pruneAt policy.steady hgrowing hlast,prune_eq_pruneAt policy explicit hpaths]
  rw [hrun]
  refine ⟨rfl,?_,fun e he hmax => ?_,fun tier htier e he _ hcovered hmax => ?_⟩
  · rw [prune_eq_pruneAt policy explicit (prune_paths hpaths),prune_eq_pruneAt policy explicit hpaths,
      pruneAt_pruneAt policy.steady le_rfl]
  · exact mem_prune_of_rule hpaths he List.mem_cons_self rfl rfl fun b hb _ => hmax b hb
  · have hrule : tierRule tier ∈ policy.rules :=
      List.mem_cons_of_mem _ (List.mem_cons_of_mem _ (List.mem_map_of_mem htier))
    refine mem_prune_of_rule hpaths he hrule rfl (decide_eq_true hcovered) fun b hb hsame => ?_
    exact hmax b hb (of_decide_eq_true hsame).symm

theorem retention_path_independent_daily :
    let policy : Policy := ⟨10,1,[⟨100,2,by decide⟩],by decide⟩
    let entries : List Entry := [⟨10,"a"⟩,⟨120,"b"⟩,⟨150,"c"⟩,⟨205,"d"⟩]
    [160,210].foldl (fun left u => prune policy (fun _ => []) u left) entries = prune policy (fun _ => []) 210 entries ∧
      prune policy (fun _ => []) 210 entries = [⟨150,"c"⟩,⟨205,"d"⟩] :=
  ⟨(retention_path_independent _ _ _ (by decide) _ _ (by decide) rfl).1,by decide⟩

end Retention

end Bureau
