import Bureau.PathScopes

/-!
The file scope of a pull request is built from the pages of an observation and checked where claims are
decided. Both sides compute the order of the files, the changed paths and the digests on their own. What
is built passes the check, and what passes has the names of all changed files.
-/

namespace Bureau

namespace PathScopes

open Transactions

/-! `_github_pull_request_file_scope`. -/

def graphqlStatuses : List (String × String) :=
  [("ADDED","added"),("DELETED","removed"),("MODIFIED","modified"),("COPIED","copied"),("CHANGED","changed"),
    ("UNCHANGED","unchanged")]

def graphqlRow (item : Json) : Except String (Option Json) :=
  if !item.isObj then .ok none
  else if !(field item "changeType").hashable then .error "unhashable type"
  else .ok (((item.getStr? "changeType").bind fun change => graphqlStatuses.lookup change).map fun status =>
    .obj [("filename",field item "path"),("status",.str status)])

def graphqlRows : List Json → Except String (Option (List Json))
  | [] => .ok (some [])
  | item :: rest => do
    let row ← graphqlRow item
    match row with
    | none => return none
    | some row => (graphqlRows rest).map fun rows => rows.map (row :: ·)

/-- `_github_pull_request_rest_raw_files`: the pages of the second observation, or why there are none. -/
def githubPullRequestRestRawFiles (repository : String) (number : ℕ) (pages : Except String Json) :
    Except String (List Json) := do
  let pages ← pages
  let rows ← orRaise (pages.arr?.bind fun pages => pages.mapM Json.arr?)
    ("gh api pull request files returned invalid pagination for " ++ repository ++ "#" ++ toString number)
  return rows.flatten

/-- The rows of the first observation where they are known to be complete, else those of the second. -/
def rawFiles (repository : String) (number : ℕ) (expectedChangedFiles : Int) (graphqlFiles : Json)
    (pages : Except String Json) : Except String (List Json) :=
  match graphqlFiles.arr?.filter fun files => (files.length : Int) = expectedChangedFiles with
  | some files => do
    let covered ← graphqlRows files
    match covered with
    | some rows => return rows
    | none => githubPullRequestRestRawFiles repository number pages
  | none => githubPullRequestRestRawFiles repository number pages

def rawFile (repository : String) (number : ℕ) (item : Json × ℕ) : Except String ChangedFile := do
  let file := "pull request file " ++ toString item.2
  let label := file ++ " for " ++ repository ++ "#" ++ toString number
  require item.1.isObj (label ++ " is not an object")
  let status ← orRaise ((item.1.getStr? "status").filter fileStatuses.contains) (label ++ " has unsupported status")
  let filename ← canonicalRepoRelativePath (field item.1 "filename") (file ++ " filename")
  if status = "renamed" then
    let previous ← canonicalRepoRelativePath (field item.1 "previous_filename") (file ++ " previous_filename")
    return ⟨filename,status,some previous⟩
  else
    require (field item.1 "previous_filename" = .null) (label ++ " has unexpected previous_filename")
    return ⟨filename,status,none⟩

def ChangedFile.document (file : ChangedFile) : Json :=
  .obj (("path",.str file.path) :: (file.previousPath.map fun previous => ("previous_path",Json.str previous)).toList ++
    [("status",.str file.status)])

/-- What a scope says of a pull request, without its digest. -/
structure Material where
  repository : String
  number : ℕ
  baseOid : String
  headOid : String
  changedFiles : Int
  files : List ChangedFile
  changedPaths : List String

def Material.pathsSha256 (sha : Sha) (material : Material) : String :=
  sha256Json sha (changedPathsMaterial material.changedPaths)

/-- The fields of a scope; the digest of the others stands between them. -/
def Material.fields (sha : Sha) (material : Material) (digest : Option String) : Json :=
  .obj ([("base_oid",.str material.baseOid),("changed_files",.num material.changedFiles),
      ("changed_paths",.arr (material.changedPaths.map .str)),
      ("changed_paths_sha256",.str (material.pathsSha256 sha))] ++
    (digest.map fun digest => ("file_scope_sha256",Json.str digest)).toList ++
    [("files",.arr (material.files.map ChangedFile.document)),("head_oid",.str material.headOid),
      ("number",natJson material.number),("repository",.str material.repository),("schema_version",.num 1)])

def Material.document (sha : Sha) (material : Material) : Json :=
  material.fields sha (some (sha256Json sha (material.fields sha none)))

def githubPullRequestFileScope (sha : Sha) (limit : ℕ) (repository : String) (number : ℕ) (baseOid headOid : String)
    (expectedChangedFiles : Int) (graphqlFiles : Json) (pages : Except String Json) : Except String Json := do
  let name := repository ++ "#" ++ toString number
  let raw ← rawFiles repository number expectedChangedFiles graphqlFiles pages
  require (0 ≤ expectedChangedFiles) ("open PR " ++ name ++ " has invalid changedFiles count")
  require ((raw.length : Int) = expectedChangedFiles)
    ("open PR " ++ name ++ " changedFiles mismatch: expected " ++ toString expectedChangedFiles ++ ", observed " ++
      toString raw.length)
  require (raw.length < limit)
    ("open PR file observation reached BUREAU_OPEN_PR_CLAIM_GUARD_FILE_LIMIT (" ++ toString limit ++ ") for " ++ name ++
      "; coverage is bounded and fails closed")
  let files ← collect (rawFile repository number) raw.zipIdx
  return Material.document sha ⟨repository,number,baseOid,headOid,expectedChangedFiles,
    files.insertionSort fun a b => a.before b = true,sortedSet (files.flatMap ChangedFile.paths)⟩

/-- `_github_pull_request_identity`: the commits and the number of files, as they are read back. -/
def githubPullRequestIdentity (repository : String) (number : ℕ) (answer : Except String Json) :
    Except String (String × String × Int) := do
  let name := repository ++ "#" ++ toString number
  let value ← answer
  require (value.isObj && value.getStr? "state" = some "open")
    ("open PR " ++ name ++ " is no longer open during file observation")
  let invalid := "open PR " ++ name ++ " identity readback is invalid"
  let base ← orRaise (((field value "base").getStr? "sha").filter isGitOid) invalid
  let head ← orRaise (((field value "head").getStr? "sha").filter isGitOid) invalid
  let count ← orRaise (((value.get? "changed_files").bind Json.int?).filter fun count => 0 ≤ count) invalid
  return (base,head,count)

structure Answers where
  pages : Except String Json
  identity : Except String Json

/-- `observe_one` of `_github_open_pull_requests`. -/
def observeOne (sha : Sha) (limit : ℕ) (repository : String) (index : ℕ) (item : Json) (answers : ℕ → Answers) :
    Except String Json := do
  let listed := "open PR observation item " ++ toString index ++ " for " ++ repository
  require item.isObj (listed ++ " is not an object")
  let number ← orRaise ((((item.get? "number").bind Json.int?).filter fun number => 1 ≤ number).map Int.toNat)
    (listed ++ " has invalid number")
  let name := "open PR " ++ repository ++ "#" ++ toString number
  let base ← orRaise ((item.getStr? "baseRefOid").filter isGitOid) (name ++ " has invalid base OID")
  let head ← orRaise ((item.getStr? "headRefOid").filter isGitOid) (name ++ " has invalid head OID")
  let count ← orRaise (((item.get? "changedFiles").bind Json.int?).filter fun count => 0 ≤ count)
    (name ++ " has invalid changedFiles count")
  let scope ← githubPullRequestFileScope sha limit repository number base head count (field item "files")
    (answers number).pages
  let identity ← githubPullRequestIdentity repository number (answers number).identity
  require (identity = (base,head,count)) (name ++ " identity changed during file observation")
  return item.set "fileScope" scope

/-! What is built passes the check. -/

theorem Canonical.accepted {path : String} (h : Canonical path) (label : String) :
    canonicalRepoRelativePath (.str path) label = .ok path := by
  have hdot : path ≠ "." := by
    rintro rfl
    exact h.nonempty (by decide)
  have hparent : path ≠ ".." := by
    rintro rfl
    exact h.inside (by decide)
  have hparts : ∀ part ∈ pathParts path, part ≠ ".." := fun part hpart heq => h.inside (heq ▸ hpart)
  simp only [canonicalRepoRelativePath,steps_ok,Option.filter_eq_some_iff,Bool.and_eq_true,Bool.not_eq_true',
      decide_eq_true_eq,List.all_eq_true]
  refine ⟨path,⟨rfl,⟨h.text.1,?_⟩,?_⟩,(),⟨⟨⟨h.relative,hdot⟩,hparent⟩,hparts⟩,(),?_,rfl⟩
  · simpa using h.text.2.1
  · simpa using h.text.2.2
  · rw [posixText,if_neg (by simpa using h.nonempty),h.normal]

structure ChangedFile.Valid (file : ChangedFile) : Prop where
  status : file.status ∈ fileStatuses
  renamed : file.previousPath.isSome = true ↔ file.status = "renamed"
  canonical : ∀ path ∈ file.paths, Canonical path

variable {file : ChangedFile} {item : Json × ℕ} {number : ℕ} {repository : String} {pullRequest : Json} {sha : Sha}

theorem rawFile_valid
    (h : rawFile repository number item = .ok file) : file.Valid := by
  simp only [rawFile,steps_ok,Option.filter_eq_some_iff] at h
  obtain ⟨_,_,status,⟨_,hstatus⟩,filename,hfilename,hrest⟩ := h
  have hstatus := List.contains_iff_mem.mp hstatus
  have hcanonical := (canonicalRepoRelativePath_eq_ok hfilename).2
  by_cases hrenamed : status = "renamed"
  · rw [if_pos hrenamed] at hrest
    simp only [steps_ok] at hrest
    obtain ⟨previous,hprevious,rfl⟩ := hrest
    have hprevious := (canonicalRepoRelativePath_eq_ok hprevious).2
    refine ⟨hstatus,iff_of_true rfl hrenamed,?_⟩
    simpa [ChangedFile.paths] using And.intro hcanonical hprevious
  · rw [if_neg hrenamed] at hrest
    simp only [steps_ok] at hrest
    obtain ⟨_,_,rfl⟩ := hrest
    refine ⟨hstatus,iff_of_false (by simp) hrenamed,?_⟩
    simpa [ChangedFile.paths] using hcanonical

theorem changedFile_document (h : file.Valid) (index : ℕ) :
    changedFile (file.document,index) = .ok file := by
  obtain ⟨path,status,previousPath⟩ := file
  cases previousPath with
  | none =>
    have hnot : status ≠ "renamed" := fun heq => by simpa using h.renamed.mpr heq
    have hpath := (h.canonical path List.mem_cons_self).accepted
    simp only [changedFile,ChangedFile.document,steps_ok,Option.filter_eq_some_iff,Bool.and_eq_true]
    refine ⟨(),rfl,status,⟨rfl,List.contains_iff_mem.mpr h.status,by rw [if_neg hnot]; rfl⟩,path,hpath _,?_⟩
    rw [if_neg hnot]
    rfl
  | some previous =>
    have hrenamed : status = "renamed" := h.renamed.mp rfl
    have hpath := (h.canonical path List.mem_cons_self).accepted
    have hprevious := (h.canonical previous (by simp [ChangedFile.paths])).accepted
    subst hrenamed
    simp only [changedFile,ChangedFile.document,steps_ok,Option.filter_eq_some_iff,Bool.and_eq_true]
    refine ⟨(),rfl,"renamed",⟨rfl,List.contains_iff_mem.mpr h.status,rfl⟩,path,hpath _,?_⟩
    rw [if_pos rfl,bind_eq_ok]
    exact ⟨previous,hprevious _,rfl⟩

theorem ChangedFile.before_iff (a b : ChangedFile) : a.before b = true ↔ a.path < b.path ∨ a.path = b.path ∧
    (a.status < b.status ∨ a.status = b.status ∧ a.previousPath.getD "" ≤ b.previousPath.getD "") := by
  unfold ChangedFile.before
  by_cases hpath : a.path = b.path
  · by_cases hstatus : a.status = b.status
    · simp [hpath,hstatus]
    · simp [hpath,hstatus,le_iff_lt_or_eq]
  · simp [hpath,le_iff_lt_or_eq]

instance : Std.Total fun a b : ChangedFile => a.before b = true where
  total a b := by
    rw [ChangedFile.before_iff,ChangedFile.before_iff]
    rcases lt_trichotomy a.path b.path with hpath | hpath | hpath
    · exact .inl (.inl hpath)
    · rcases lt_trichotomy a.status b.status with hstatus | hstatus | hstatus
      · exact .inl (.inr ⟨hpath,.inl hstatus⟩)
      · rcases le_total (a.previousPath.getD "") (b.previousPath.getD "") with hle | hle
        · exact .inl (.inr ⟨hpath,.inr ⟨hstatus,hle⟩⟩)
        · exact .inr (.inr ⟨hpath.symm,.inr ⟨hstatus.symm,hle⟩⟩)
      · exact .inr (.inr ⟨hpath.symm,.inl hstatus⟩)
    · exact .inr (.inl hpath)

instance : IsTrans ChangedFile fun a b => a.before b = true where
  trans a b c hab hbc := by
    rw [ChangedFile.before_iff] at *
    rcases hab with hab | ⟨hpath,hab⟩
    · rcases hbc with hbc | ⟨hpath,_⟩
      · exact .inl (hab.trans hbc)
      · exact .inl (hpath ▸ hab)
    · rcases hbc with hbc | ⟨hpath',hbc⟩
      · exact .inl (hpath ▸ hbc)
      · refine .inr ⟨hpath.trans hpath',?_⟩
        rcases hab with hab | ⟨hstatus,hab⟩
        · rcases hbc with hbc | ⟨hstatus,_⟩
          · exact .inl (hab.trans hbc)
          · exact .inl (hstatus ▸ hab)
        · rcases hbc with hbc | ⟨hstatus',hbc⟩
          · exact .inl (hstatus ▸ hbc)
          · exact .inr ⟨hstatus.trans hstatus',hab.trans hbc⟩

theorem insertionSort_before_idem (files : List ChangedFile) :
    (files.insertionSort fun a b => a.before b = true).insertionSort (fun a b => a.before b = true) =
      files.insertionSort fun a b => a.before b = true :=
  (List.pairwise_insertionSort _ files).insertionSort_eq

@[simp] theorem sortedSet_idem (texts : List String) : sortedSet (sortedSet texts) = sortedSet texts := by
  have hnodup : (sortedSet texts).Nodup := (List.perm_insertionSort _ _).nodup_iff.mpr (List.nodup_dedup texts)
  conv_lhs => rw [sortedSet,hnodup.dedup]
  exact (List.pairwise_insertionSort _ _).insertionSort_eq

theorem sortedSet_congr {first second : List String} (h : ∀ text, text ∈ first ↔ text ∈ second) :
    sortedSet first = sortedSet second := by
  have hdedup : first.dedup.Perm second.dedup :=
    (List.perm_ext_iff_of_nodup (List.nodup_dedup _) (List.nodup_dedup _)).mpr fun text => by
      rw [List.mem_dedup,List.mem_dedup,h]
  have hperm : (sortedSet first).Perm (sortedSet second) :=
    (List.perm_insertionSort _ _).trans (hdedup.trans (List.perm_insertionSort _ _).symm)
  exact hperm.eq_of_pairwise (fun _ _ _ _ hle hge => le_antisymm hle hge) (List.pairwise_insertionSort _ _)
    (List.pairwise_insertionSort _ _)

theorem collect_map_eq_ok {α β ε : Type} {f : α → Except ε β} {g : β → α} {values : List β}
    (h : ∀ value ∈ values, f (g value) = .ok value) : collect f (values.map g) = .ok values := by
  rw [collect_eq_ok,List.forall₂_map_left_iff,List.forall₂_same]
  exact h

theorem collect_zipIdx_eq_ok {α β ε : Type} {f : α × ℕ → Except ε β} {g : β → α} {values : List β}
    (h : ∀ value ∈ values, ∀ index, f (g value,index) = .ok value) (start : ℕ) :
    collect f ((values.map g).zipIdx start) = .ok values := by
  induction values generalizing start with
  | nil => rfl
  | cons value rest ih =>
    rw [List.map_cons,List.zipIdx_cons]
    simp only [collect,steps_ok]
    exact ⟨value,h value List.mem_cons_self start,rest,
      ih (fun other hother => h other (List.mem_cons_of_mem _ hother)) (start+1),rfl⟩

structure Material.Valid (material : Material) : Prop where
  base : isGitOid material.baseOid = true
  head : isGitOid material.headOid = true
  count : material.changedFiles = material.files.length
  files : ∀ file ∈ material.files, file.Valid
  ordered : material.files.insertionSort (fun a b => a.before b = true) = material.files
  paths : material.changedPaths = sortedSet (material.files.flatMap ChangedFile.paths)

theorem Material.Valid.accepted {material : Material} (h : material.Valid)
    (hscope : pullRequest.get? "fileScope" = some (material.document sha)) :
    fileScopeFromPullRequest sha pullRequest material.repository material.number =
      .ok ⟨material.baseOid,material.headOid,material.changedFiles,material.files,material.changedPaths,
        material.pathsSha256 sha,sha256Json sha (material.fields sha none)⟩ := by
  have hfiles : collect changedFile (material.files.map ChangedFile.document).zipIdx = .ok material.files :=
    collect_zipIdx_eq_ok (fun file hfile index => changedFile_document (h.files file hfile) index) 0
  have hcanonical : ∀ path ∈ material.changedPaths, Canonical path := by
    intro path hpath
    rw [h.paths,mem_sortedSet,List.mem_flatMap] at hpath
    obtain ⟨file,hfile,hpath⟩ := hpath
    exact (h.files file hfile).canonical path hpath
  have hpaths : collect (fun entry => canonicalRepoRelativePath entry "open PR changed path")
      (material.changedPaths.map .str) = .ok material.changedPaths :=
    collect_map_eq_ok fun path hpath => (hcanonical path hpath).accepted _
  have hstrings : (material.changedPaths.map Json.str).filterMap Json.str? = material.changedPaths := by
    rw [List.filterMap_map]
    exact List.filterMap_some
  have hsorted : sortedSet material.changedPaths = material.changedPaths := by
    rw [h.paths,sortedSet_idem]
  simp only [fileScopeFromPullRequest,steps_ok,Option.filter_eq_some_iff,Bool.and_eq_true,decide_eq_true_eq,
      Option.bind_eq_some_iff]
  refine ⟨material.document sha,⟨hscope,rfl⟩,(),rfl,(),rfl,(),⟨rfl,rfl⟩,material.baseOid,⟨rfl,h.base⟩,material.headOid,
    ⟨rfl,h.head⟩,material.changedFiles,⟨⟨_,rfl,rfl⟩,?_⟩,_,⟨_,rfl,rfl⟩,_,hfiles,(),h.ordered,(),?_,_,⟨_,rfl,rfl⟩,(),?_,
      _,hpaths,
    (),h.paths,(),rfl,(),rfl,rfl⟩
  · rw [h.count]
    exact Int.natCast_nonneg _
  · rw [List.length_map,h.count]
  · rw [hstrings,hsorted]

theorem githubPullRequestFileScope_eq_ok {limit : ℕ}
    {baseOid headOid : String} {expectedChangedFiles : Int} {graphqlFiles : Json} {pages : Except String Json}
    {scope : Json} (hbase : isGitOid baseOid = true) (hhead : isGitOid headOid = true)
    (h : githubPullRequestFileScope sha limit repository number baseOid headOid expectedChangedFiles
      graphqlFiles pages = .ok scope) :
    ∃ material : Material, material.Valid ∧ material.repository = repository ∧ material.number = number ∧
      scope = material.document sha := by
  simp only [githubPullRequestFileScope,steps_ok,decide_eq_true_eq] at h
  obtain ⟨raw,_,_,_,_,hcount,_,_,files,hfiles,rfl⟩ := h
  have hperm := List.perm_insertionSort (fun a b : ChangedFile => a.before b = true) files
  refine ⟨_,⟨hbase,hhead,?_,?_,insertionSort_before_idem files,?_⟩,rfl,rfl,rfl⟩
  · have hlength := (collect_eq_ok.mp hfiles).length_eq
    rw [List.length_zipIdx] at hlength
    show expectedChangedFiles = _
    rw [List.length_insertionSort,← hlength,hcount]
  · intro file hfile
    obtain ⟨item,_,hitem⟩ := exists_of_mem_collect hfiles (hperm.mem_iff.mp hfile)
    exact rawFile_valid hitem
  · refine sortedSet_congr fun path => ?_
    simp only [List.mem_flatMap,hperm.mem_iff]

/-! What passes the check names all files. -/

theorem getStr?_of_field {document : Json} {key text : String} (h : field document key = .str text) :
    document.getStr? key = some text := by
  unfold field at h
  unfold Json.getStr?
  cases hget : document.get? key with
  | none => rw [hget] at h; cases h
  | some value =>
    rw [hget,Option.getD_some] at h
    rw [h]
    rfl

theorem changedFile_reads (h : changedFile item = .ok file) :
    item.1.getStr? "path" = some file.path ∧ item.1.getStr? "previous_path" = file.previousPath ∧
      (file.previousPath.isSome = true ↔ item.1.getStr? "status" = some "renamed") := by
  simp only [changedFile,steps_ok,Option.filter_eq_some_iff,Bool.and_eq_true] at h
  obtain ⟨_,_,status,⟨hstatus,_,hexact⟩,current,hcurrent,hrest⟩ := h
  have hpath := getStr?_of_field (canonicalRepoRelativePath_eq_ok hcurrent).1
  by_cases hrenamed : status = "renamed"
  · rw [if_pos hrenamed] at hrest
    simp only [steps_ok] at hrest
    obtain ⟨previous,hprevious,rfl⟩ := hrest
    refine ⟨hpath,getStr?_of_field (canonicalRepoRelativePath_eq_ok hprevious).1,iff_of_true rfl ?_⟩
    rw [hstatus,hrenamed]
  · rw [if_neg hrenamed] at hrest hexact
    rw [← pure_eq_ok.mp hrest]
    refine ⟨hpath,?_,iff_of_false (by simp) ?_⟩
    · rw [Json.getStr?,get?_of_hasExactly hexact (by decide)]
      rfl
    · rw [hstatus]
      exact fun heq => hrenamed (Option.some.inj heq)

structure ListsNames (pullRequest : Json) (changedPaths : List String) (items : List Json) : Prop where
  scope : ∃ scope, pullRequest.get? "fileScope" = some scope ∧ scope.get? "files" = some (.arr items) ∧
    scope.get? "changed_paths" = some (.arr (changedPaths.map .str))
  named : ∀ item ∈ items, (∃ path, item.getStr? "path" = some path) ∧
    (item.getStr? "status" = some "renamed" → ∃ path, item.getStr? "previous_path" = some path)
  exact : ∀ path, path ∈ changedPaths ↔ ∃ item ∈ items, item.getStr? "path" = some path ∨
    item.getStr? "status" = some "renamed" ∧ item.getStr? "previous_path" = some path
  nodup : changedPaths.Nodup
  canonical : ∀ path ∈ changedPaths, Canonical path

theorem listsNames_of_fileScope {scope : FileScope}
    (h : fileScopeFromPullRequest sha pullRequest repository number = .ok scope) :
    ∃ items, ListsNames pullRequest scope.changedPaths items := by
  simp only [fileScopeFromPullRequest,steps_ok,Option.filter_eq_some_iff,Bool.and_eq_true,decide_eq_true_eq,
      Option.bind_eq_some_iff] at h
  obtain ⟨document,⟨hdocument,_⟩,_,_,_,_,_,_,_,_,_,_,_,_,items,⟨listed,hlisted,hitems⟩,files,hfiles,_,_,_,_,entries,
    ⟨stored,hstored,hentries⟩,_,_,paths,hcollected,_,hpaths,_,_,_,_,rfl⟩ := h
  have hreads : ∀ file ∈ files, ∃ item ∈ items, item.getStr? "path" = some file.path ∧
      item.getStr? "previous_path" = file.previousPath ∧
      (file.previousPath.isSome = true ↔ item.getStr? "status" = some "renamed") := by
    intro file hfile
    obtain ⟨item,hitem,hread⟩ := exists_of_mem_collect hfiles hfile
    exact ⟨item.1,(List.mem_zipIdx' hitem).2 ▸ List.getElem_mem _,changedFile_reads hread⟩
  have hread : ∀ item ∈ items, ∃ file ∈ files, item.getStr? "path" = some file.path ∧
      item.getStr? "previous_path" = file.previousPath ∧
      (file.previousPath.isSome = true ↔ item.getStr? "status" = some "renamed") := by
    intro item hitem
    obtain ⟨index,hindex⟩ := exists_index_of_mem hitem
    obtain ⟨file,hfile,hread⟩ := exists_of_collect hfiles hindex
    exact ⟨file,hfile,changedFile_reads hread⟩
  refine ⟨items,⟨document,hdocument,?_,?_⟩,?_,?_,?_,?_⟩
  · rw [hlisted]
    cases listed <;> simp_all [Json.arr?]
  · have hsame : paths.map Json.str = entries.map id :=
      map_eq_of_collect (fun _ _ hpath => (canonicalRepoRelativePath_eq_ok hpath).1.symm) hcollected
    rw [List.map_id] at hsame
    show document.get? "changed_paths" = some (.arr (paths.map .str))
    rw [hstored,hsame]
    cases stored <;> simp_all [Json.arr?]
  · intro item hitem
    obtain ⟨file,_,hpath,hprevious,hrenamed⟩ := hread item hitem
    refine ⟨⟨file.path,hpath⟩,fun hstatus => ?_⟩
    rw [hprevious]
    exact Option.isSome_iff_exists.mp (hrenamed.mpr hstatus)
  · intro path
    show path ∈ paths ↔ _
    rw [hpaths,mem_sortedSet,List.mem_flatMap]
    constructor
    · rintro ⟨file,hfile,hmem⟩
      obtain ⟨item,hitem,hpath,hprevious,hrenamed⟩ := hreads file hfile
      rcases List.mem_cons.mp hmem with rfl | hmem
      · exact ⟨item,hitem,.inl hpath⟩
      · have hsome := Option.mem_toList.mp hmem
        exact ⟨item,hitem,.inr ⟨hrenamed.mp (Option.isSome_iff_exists.mpr ⟨path,hsome⟩),hprevious.trans hsome⟩⟩
    · rintro ⟨item,hitem,hnames⟩
      obtain ⟨file,hfile,hpath,hprevious,_⟩ := hread item hitem
      refine ⟨file,hfile,?_⟩
      rcases hnames with hname | ⟨_,hname⟩
      · rw [Option.some.inj (hname.symm.trans hpath)]
        exact List.mem_cons_self
      · exact List.mem_cons_of_mem _ (Option.mem_toList.mpr (hprevious.symm.trans hname))
  · show paths.Nodup
    rw [hpaths]
    exact (List.perm_insertionSort _ _).nodup_iff.mpr (List.nodup_dedup _)
  · intro path hpath
    obtain ⟨entry,_,hentry⟩ := exists_of_mem_collect hcollected hpath
    exact (canonicalRepoRelativePath_eq_ok hentry).2

/-- Every scope that is built of the commits of a pull request passes the check for it, so every pull request that
was observed carries one; and every scope that passes lists the names of all files. -/
theorem file_scope_agreement (sha : Sha) :
    (∀ limit repository number baseOid headOid expectedChangedFiles graphqlFiles pages scope,
      isGitOid baseOid = true → isGitOid headOid = true →
      githubPullRequestFileScope sha limit repository number baseOid headOid expectedChangedFiles graphqlFiles pages =
        .ok scope →
      ∀ pullRequest : Json, pullRequest.get? "fileScope" = some scope →
        ∃ accepted, fileScopeFromPullRequest sha pullRequest repository number = .ok accepted) ∧
    (∀ limit repository index item answers pullRequest,
      observeOne sha limit repository index item answers = .ok pullRequest →
      ∃ number accepted, pullRequest.get? "number" = some (natJson number) ∧
        fileScopeFromPullRequest sha pullRequest repository number = .ok accepted) ∧
    ∀ pullRequest repository number scope, fileScopeFromPullRequest sha pullRequest repository number = .ok scope →
      ∃ items, ListsNames pullRequest scope.changedPaths items := by
  have hbuilt : ∀ limit repository number baseOid headOid expectedChangedFiles graphqlFiles pages scope,
      isGitOid baseOid = true → isGitOid headOid = true →
      githubPullRequestFileScope sha limit repository number baseOid headOid expectedChangedFiles graphqlFiles pages =
        .ok scope →
      ∀ pullRequest : Json, pullRequest.get? "fileScope" = some scope →
        ∃ accepted, fileScopeFromPullRequest sha pullRequest repository number = .ok accepted := by
    intro limit repository number baseOid headOid expected graphqlFiles pages scope hbase hhead h pullRequest hscope
    obtain ⟨material,hvalid,rfl,rfl,rfl⟩ := githubPullRequestFileScope_eq_ok hbase hhead h
    exact ⟨_,hvalid.accepted hscope⟩
  refine ⟨hbuilt,?_,fun _ _ _ _ h => listsNames_of_fileScope h⟩
  intro limit repository index item answers pullRequest h
  simp only [observeOne,steps_ok,Option.filter_eq_some_iff,Option.map_eq_some_iff,Option.bind_eq_some_iff,
      decide_eq_true_eq] at h
  obtain ⟨_,hobj,_,⟨number,⟨⟨stored,hstored,hnumber⟩,hpositive⟩,rfl⟩,base,⟨_,hbase⟩,head,⟨_,hhead⟩,count,_,scope,hscope,
    _,_,_,_,rfl⟩ := h
  have hfield : (item.set "fileScope" scope).get? "fileScope" = some scope := by
    cases item with
    | obj fields => exact Json.get?_set_self fields "fileScope" scope
    | _ => cases hobj
  obtain ⟨accepted,haccepted⟩ := hbuilt _ _ _ _ _ _ _ _ _ hbase hhead hscope _ hfield
  refine ⟨number.toNat,accepted,?_,haccepted⟩
  rw [Json.get?_set_ne _ _ (by decide),hstored]
  cases stored with
  | num n =>
    cases hnumber
    rw [natJson,Int.toNat_of_nonneg (by omega)]
  | _ => cases hnumber

def renamingScope : Except String Json :=
  githubPullRequestFileScope (fun _ => "digest") 300 "owner/name" 7 (String.ofList (List.replicate 40 'a'))
    (String.ofList (List.replicate 40 'b')) 2 .null
    (.ok (.arr [.arr [.obj [("filename",.str "src/b"),("previous_filename",.str "src/a"),("status",.str "renamed")]],
      .arr [.obj [("filename",.str "docs/c"),("status",.str "added")]]]))

theorem file_scope_agreement_renaming : ∃ scope accepted items, renamingScope = .ok scope ∧
    fileScopeFromPullRequest (fun _ => "digest") (.obj [("fileScope",scope)]) "owner/name" 7 = .ok accepted ∧
    ListsNames (.obj [("fileScope",scope)]) accepted.changedPaths items := by
  have hshown : renamingScope.isOk = true ∧ isGitOid (String.ofList (List.replicate 40 'a')) = true ∧
      isGitOid (String.ofList (List.replicate 40 'b')) = true := by
    decide +kernel
  cases hscope : renamingScope with
  | error message =>
    rw [hscope] at hshown
    exact absurd hshown.1 Bool.false_ne_true
  | ok scope =>
    obtain ⟨hbuilt,_,hlists⟩ := file_scope_agreement fun _ => "digest"
    obtain ⟨accepted,haccepted⟩ := hbuilt _ _ _ _ _ _ _ _ scope hshown.2.1 hshown.2.2 hscope
      (.obj [("fileScope",scope)]) rfl
    obtain ⟨items,hitems⟩ := hlists _ _ _ _ haccepted
    exact ⟨scope,accepted,items,rfl,haccepted,hitems⟩

end PathScopes

end Bureau
