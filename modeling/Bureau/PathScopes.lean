import Bureau.OpenPullRequests

/-!
The only way around the blocker of an open pull request: the files it changes and the paths a task may
write are both known exactly and do not touch. Here are the file scope of a pull request, as it was
observed, the write scope of a task, as its resources declare it and the file system shows it, and the
reservation a pull request makes.
-/

namespace Bureau

namespace PathScopes

open Transactions

/-! Paths. -/

/-- `PurePosixPath.as_posix` of relative parts. -/
def posixText (parts : List String) : String := if parts.isEmpty then "." else "/".intercalate parts

def isAbsolute (path : String) : Bool := path.toList.head? = some '/'

def canonicalRepoRelativePath (value : Json) (label : String) : Except String String := do
  let path ← orRaise (value.str?.filter fun path =>
      path ≠ "" && !path.toList.contains '\x00' && !path.toList.contains '\\')
    (label ++ " is not canonical repository-relative text")
  require (!isAbsolute path && path ≠ "." && path ≠ ".." && (pathParts path).all (· ≠ ".."))
    (label ++ " is not a safe repository-relative path")
  require (posixText (pathParts path) = path) (label ++ " is not canonically normalized")
  return path

/-! `_file_scope_from_pull_request`. -/

def fileStatuses := ["added","removed","modified","renamed","copied","changed","unchanged"]

structure ChangedFile where
  path : String
  status : String
  -- of a renamed file
  previousPath : Option String
  deriving DecidableEq

def ChangedFile.paths (file : ChangedFile) : List String := file.path :: file.previousPath.toList

def ChangedFile.before (a b : ChangedFile) : Bool :=
  if a.path ≠ b.path then a.path ≤ b.path
  else if a.status ≠ b.status then a.status ≤ b.status
  else a.previousPath.getD "" ≤ b.previousPath.getD ""

def field (document : Json) (key : String) : Json := (document.get? key).getD .null

def changedFile (item : Json × ℕ) : Except String ChangedFile := do
  let label := "open PR file " ++ toString item.2
  require item.1.isObj (label ++ " is not an object")
  let status ← orRaise ((item.1.getStr? "status").filter fun status => fileStatuses.contains status &&
      item.1.hasExactly (if status = "renamed" then ["path","previous_path","status"] else ["path","status"]))
    (label ++ " fields are invalid")
  let path ← canonicalRepoRelativePath (field item.1 "path") (label ++ " path")
  if status = "renamed" then
    let previous ← canonicalRepoRelativePath (field item.1 "previous_path") (label ++ " previous path")
    return ⟨path,status,some previous⟩
  else return ⟨path,status,none⟩

structure FileScope where
  baseOid : String
  headOid : String
  changedFiles : Int
  files : List ChangedFile
  changedPaths : List String
  changedPathsSha256 : String
  fileScopeSha256 : String

def changedPathsMaterial (paths : List String) : Json :=
  .obj [("changed_paths",.arr (paths.map .str)),("schema_version",.num 1)]

/-- The distinct texts of a list in order: `sorted(set(...))`. -/
def sortedSet (texts : List String) : List String := texts.dedup.insertionSort (· ≤ ·)

/-- `_file_scope_from_pull_request`. A changed path that is not text is refused here, where the language
may also raise. -/
def fileScopeFromPullRequest (sha : Sha) (pullRequest : Json) (repository : String) (number : ℕ) :
    Except String FileScope := do
  let scope ← orRaise ((pullRequest.get? "fileScope").filter Json.isObj) "open PR file scope is unavailable"
  require (scope.hasExactly ["base_oid","changed_files","changed_paths","changed_paths_sha256","file_scope_sha256",
      "files","head_oid","number","repository","schema_version"]) "open PR file scope fields are not exact"
  require (scope.get? "schema_version" = some (.num 1)) "open PR file scope schema is unsupported"
  require (scope.getStr? "repository" = some repository && scope.get? "number" = some (natJson number))
    "open PR file scope identity is mismatched"
  let base ← orRaise ((scope.getStr? "base_oid").filter isGitOid) "open PR file scope commit identity is invalid"
  let head ← orRaise ((scope.getStr? "head_oid").filter isGitOid) "open PR file scope commit identity is invalid"
  let count ← orRaise (((scope.get? "changed_files").bind Json.int?).filter fun count => 0 ≤ count)
    "open PR changed file count is invalid"
  let items ← orRaise ((scope.get? "files").bind Json.arr?) "open PR files are not a list"
  let files ← collect changedFile items.zipIdx
  require (files.insertionSort (fun a b => a.before b = true) = files) "open PR files are not canonically ordered"
  require ((items.length : Int) = count) "open PR changed file count disagrees with files"
  let entries ← orRaise ((scope.get? "changed_paths").bind Json.arr?) "open PR changed paths are not canonical"
  require (sortedSet (entries.filterMap Json.str?) = entries.filterMap Json.str?)
    "open PR changed paths are not canonical"
  let paths ← collect (fun entry => canonicalRepoRelativePath entry "open PR changed path") entries
  require (paths = sortedSet (files.flatMap ChangedFile.paths)) "open PR files and changed paths disagree"
  let pathsSha := sha256Json sha (changedPathsMaterial paths)
  require (scope.getStr? "changed_paths_sha256" = some pathsSha) "open PR changed path digest mismatch"
  let scopeSha := sha256Json sha (scope.pop "file_scope_sha256")
  require (scope.getStr? "file_scope_sha256" = some scopeSha) "open PR file scope digest mismatch"
  return ⟨base,head,count,files,paths,pathsSha,scopeSha⟩

/-- How a pull request names its tasks (`_pull_request_task_binding`). -/
structure Binding where
  taskIds : List String
  status : BindingStatus
  reason : String

/-- The reservation `open_pull_request_reservations` makes for one pull request. -/
def openPullRequestReservation (sha : Sha) (resource repository : String) (number : ℕ) (binding : Binding)
    (scopeResources : List String) (pullRequest : Json) : OpenPr :=
  let reservation : OpenPr :=
    { runId := "open-pr:" ++ repository ++ "#" ++ toString number, resource := resource, repository := repository,
      number := some number, taskIds := binding.taskIds, bindingStatus := binding.status,
      bindingReason := binding.reason, scopeResources := scopeResources }
  match fileScopeFromPullRequest sha pullRequest repository number with
  | .ok scope =>
    { reservation with
      baseOid := scope.baseOid, headOid := scope.headOid, changedPaths := scope.changedPaths,
      fileScopeComplete := true, fileScopeDiagnostic := "complete" }
  | .error diagnostic => { reservation with fileScopeDiagnostic := diagnostic }

/-! `_task_write_scope_for_repository`. -/

/-- What `lstat` finds. -/
inductive Entry where
  | missing
  | unreadable (message : String)
  | symlink
  | regular (links : ℕ)
  | other

structure FileSystem where
  expanduser : String → String
  resolve : String → String
  normpath : String → String
  lstat : List String → Entry

/-- `Path.parts` of an absolute path; two leading slashes are a root of their own. -/
def absoluteParts (path : String) : List String :=
  (if path.toList[1]? = some '/' && path.toList[2]? ≠ some '/' then "//" else "/") :: pathParts path

def relativeTo (path root : String) : Option (List String) :=
  if (absoluteParts root).isPrefixOf (absoluteParts path) then
    some ((absoluteParts path).drop (absoluteParts root).length)
  else none

/-- `str.removeprefix` of a text that starts with the given one. -/
def afterPrefix? (start text : String) : Option String :=
  if start.toList.isPrefixOf text.toList then some (String.ofList (text.toList.drop start.toList.length)) else none

/-- The components of a path, each of which must not be a link, and the entry at its end. -/
def inspect (fs : FileSystem) (label : String) (cursor : List String) : List String → Entry → Except String Entry
  | [], leaf => .ok leaf
  | part :: rest, _ =>
    match fs.lstat (cursor ++ [part]) with
    | .missing => .ok .missing
    | .unreadable message => .error (label ++ " cannot be inspected: " ++ message)
    | .symlink => .error (label ++ " contains a symlink component")
    | entry => inspect fs label (cursor ++ [part]) rest entry

def Entry.ambiguous : Entry → Bool
  | .regular links => 1 < links
  | _ => false

/-- One `path:` resource, as a path in the repository. -/
def grabowskiPath (fs : FileSystem) (root : String) (index : ℕ) (raw : String) : Except String String := do
  let label := "grabowski path " ++ toString index
  require (isAbsolute raw) (label ++ " is not absolute")
  require (fs.normpath raw = raw && (absoluteParts raw).all fun part => part ≠ "." && part ≠ "..")
    (label ++ " is not lexically canonical")
  let relative ← orRaise (relativeTo raw root) (label ++ " is outside working repository")
  require (posixText relative ≠ "" && posixText relative ≠ ".") "repository-root write scope is forbidden"
  let path ← canonicalRepoRelativePath (.str (posixText relative)) label
  let leaf ← inspect fs label (absoluteParts root) relative .missing
  require (!leaf.ambiguous) (label ++ " has hardlink ambiguity")
  return path

/-- One entry of `grabowski_resources`: a path, or none if it does not bind the repository. -/
def grabowskiResource (fs : FileSystem) (root : String) (item : Json × ℕ) : Except String (Option String) := do
  let value ← orRaise (item.1.str?.filter fun value => !blank value)
    ("grabowski resource " ++ toString item.2 ++ " is invalid")
  match afterPrefix? "repo:" value with
  | some raw => do
    require (isAbsolute (fs.expanduser raw)) ("grabowski repository " ++ toString item.2 ++ " is not absolute")
    require (fs.resolve (fs.expanduser raw) ≠ root) "broad repository resource forbids narrow scope proof"
    return none
  | none =>
    match afterPrefix? "path:" value with
    | none => return none
    | some raw => (grabowskiPath fs root item.2 raw).map some

/-- The exact paths a task may write in a repository, or why there are none. -/
def writePaths (fs : FileSystem) (task : Task) (resource : Option Resource) : Except String (List String) := do
  let resource ← orRaise (resource.filter fun resource => resource.type = "git-repository")
    "repository resource is unavailable"
  let path ← orRaise (resource.path.filter (· ≠ "")) "repository resource is unavailable"
  let working ← orRaise ((task.execution.getStr? "working_repository").filter fun working => !blank working)
    "working_repository is missing"
  let root := fs.resolve (fs.expanduser path)
  require (fs.resolve (fs.expanduser working) = root) "working_repository does not match repository resource"
  let resources ← orRaise (((task.execution.get? "grabowski_resources").bind Json.arr?).filter (!·.isEmpty))
    "execution.grabowski_resources is missing"
  let found ← collect (grabowskiResource fs root) resources.zipIdx
  let paths := sortedSet (found.filterMap id)
  require (!paths.isEmpty) "no exact path resources bind the working repository"
  return paths

def taskWriteScopeForRepository (fs : FileSystem) : WriteScopes := fun task resource =>
  match writePaths fs task resource with
  | .ok paths => .ready paths
  | .error diagnostic => .required diagnostic

/-! What the checks establish. -/

structure Canonical (path : String) : Prop where
  text : path ≠ "" ∧ '\x00' ∉ path.toList ∧ '\\' ∉ path.toList
  relative : isAbsolute path = false
  nonempty : pathParts path ≠ []
  inside : ".." ∉ pathParts path
  normal : "/".intercalate (pathParts path) = path

variable {path text key root : String} {item : Json × ℕ} {fs : FileSystem}

theorem canonicalRepoRelativePath_eq_ok {value : Json} {label : String}
    (h : canonicalRepoRelativePath value label = .ok path) : value = .str path ∧ Canonical path := by
  simp only [canonicalRepoRelativePath,steps_ok,Option.filter_eq_some_iff,Bool.and_eq_true,Bool.not_eq_true',
      decide_eq_true_eq,List.all_eq_true] at h
  obtain ⟨found,⟨hvalue,⟨htext,hnull⟩,hslash⟩,_,⟨⟨⟨hrelative,hdot⟩,_⟩,hparent⟩,_,hnormal,rfl⟩ := h
  have hnonempty : pathParts found ≠ [] := by
    intro hnil
    rw [posixText,hnil] at hnormal
    exact hdot hnormal.symm
  refine ⟨?_,⟨htext,by simpa using hnull,by simpa using hslash⟩,hrelative,hnonempty,fun hmem => hparent _ hmem rfl,?_⟩
  · cases value <;> simp_all [Json.str?]
  · rwa [posixText,if_neg (by simpa using hnonempty)] at hnormal

@[simp] theorem mem_sortedSet {texts : List String} : text ∈ sortedSet texts ↔ text ∈ texts := by
  rw [sortedSet,List.mem_insertionSort,List.mem_dedup]

theorem get?_of_hasExactly {document : Json} {fields : List String}
    (h : document.hasExactly fields = true) (hkey : key ∉ fields) : document.get? key = none := by
  cases document with
  | obj listed =>
    have hlisted : listed.map Prod.fst = fields := by simpa [Json.hasExactly] using h
    rw [← hlisted] at hkey
    clear h hlisted
    induction listed with
    | nil => rfl
    | cons entry rest ih =>
      obtain ⟨name,value⟩ := entry
      simp only [List.map_cons,List.mem_cons,not_or] at hkey
      rw [Json.get?,Json.field?,if_neg hkey.1]
      exact ih hkey.2
  | _ => rfl

theorem changedFile_eq_ok {file : ChangedFile} (h : changedFile item = .ok file)
    (hkey : key ∈ ["path","previous_path"]) (hpath : item.1.getStr? key = some path) :
    path ∈ file.paths ∧ Canonical path := by
  simp only [changedFile,steps_ok,Option.filter_eq_some_iff,Bool.and_eq_true] at h
  obtain ⟨_,_,status,⟨_,_,hexact⟩,current,hcurrent,hrest⟩ := h
  obtain ⟨hfield,hcanonical⟩ := canonicalRepoRelativePath_eq_ok hcurrent
  have hstr : ∀ {key text : String}, field item.1 key = .str text → item.1.getStr? key = some path → path = text := by
    intro key text hfield hpath
    simp only [Json.getStr?,Option.bind_eq_some_iff] at hpath
    obtain ⟨value,hvalue,hstr⟩ := hpath
    rw [field,hvalue,Option.getD_some] at hfield
    rw [hfield] at hstr
    exact (Option.some.inj hstr).symm
  simp only [List.mem_cons,List.not_mem_nil,or_false] at hkey
  obtain rfl | rfl := hkey
  · obtain rfl := hstr hfield hpath
    split_ifs at hrest with hrenamed
    · simp only [steps_ok] at hrest
      obtain ⟨_,_,rfl⟩ := hrest
      exact ⟨List.mem_cons_self,hcanonical⟩
    · rw [← pure_eq_ok.mp hrest]
      exact ⟨List.mem_cons_self,hcanonical⟩
  · by_cases hrenamed : status = "renamed"
    · rw [if_pos hrenamed] at hrest
      simp only [steps_ok] at hrest
      obtain ⟨previous,hprevious,rfl⟩ := hrest
      obtain ⟨hfield,hcanonical⟩ := canonicalRepoRelativePath_eq_ok hprevious
      obtain rfl := hstr hfield hpath
      exact ⟨by simp [ChangedFile.paths],hcanonical⟩
    · -- only a renamed file has a previous path
      rw [if_neg hrenamed] at hexact
      rw [Json.getStr?,get?_of_hasExactly hexact (by decide)] at hpath
      cases hpath

/-- The file scope of a pull request is complete: it is one of this pull request, its digests verify, and
its changed paths have both names of every file. -/
structure Complete (sha : Sha) (pullRequest : Json) (repository : String) (number : ℕ) (changedPaths : List String) :
    Prop where
  observed : ∃ scope items, pullRequest.get? "fileScope" = some scope ∧ scope.get? "files" = some (.arr items) ∧
    scope.getStr? "repository" = some repository ∧ scope.get? "number" = some (natJson number) ∧
    scope.get? "changed_files" = some (natJson items.length) ∧
    scope.getStr? "changed_paths_sha256" = some (sha256Json sha (changedPathsMaterial changedPaths)) ∧
    scope.getStr? "file_scope_sha256" = some (sha256Json sha (scope.pop "file_scope_sha256")) ∧
    ∀ item ∈ items, ∀ key ∈ ["path","previous_path"], ∀ path, item.getStr? key = some path →
      path ∈ changedPaths ∧ Canonical path

theorem exists_index_of_mem {items : List Json} {item : Json} (h : item ∈ items) :
    ∃ index, (item,index) ∈ items.zipIdx := by
  obtain ⟨index,hindex⟩ := List.mem_iff_getElem?.mp h
  exact ⟨index,List.mk_mem_zipIdx_iff_getElem?.mpr hindex⟩

theorem complete_of_fileScope {sha : Sha} {pullRequest : Json} {repository : String} {number : ℕ} {scope : FileScope}
    (h : fileScopeFromPullRequest sha pullRequest repository number = .ok scope) :
    Complete sha pullRequest repository number scope.changedPaths := by
  simp only [fileScopeFromPullRequest,steps_ok,Option.filter_eq_some_iff,Bool.and_eq_true,decide_eq_true_eq,
      Option.bind_eq_some_iff] at h
  obtain ⟨document,⟨hdocument,_⟩,_,_,_,_,_,⟨hrepository,hnumber⟩,_,_,_,_,count,⟨⟨stored,hstored,hcount⟩,_⟩,items,
    ⟨listed,hlisted,hitems⟩,files,hfiles,_,_,_,hlength,_,_,_,_,paths,_,_,hpaths,_,hpathsSha,_,hscopeSha,rfl⟩ := h
  have hfilesField : document.get? "files" = some (.arr items) := by
    rw [hlisted]
    cases listed <;> simp_all [Json.arr?]
  have hcountField : document.get? "changed_files" = some (natJson items.length) := by
    rw [hstored]
    cases stored <;> simp_all [Json.int?,natJson]
  refine ⟨document,items,hdocument,hfilesField,hrepository,hnumber,hcountField,hpathsSha,hscopeSha,
    fun item hitem key hkey path hpath => ?_⟩
  obtain ⟨index,hindex⟩ := exists_index_of_mem hitem
  obtain ⟨file,hfile,hchanged⟩ := exists_of_collect hfiles hindex
  obtain ⟨hmem,hcanonical⟩ := changedFile_eq_ok hchanged hkey hpath
  refine ⟨?_,hcanonical⟩
  rw [hpaths,mem_sortedSet]
  exact List.mem_flatMap.mpr ⟨file,hfile,hmem⟩

theorem afterPrefix?_eq_some {start rest : String} (h : afterPrefix? start text = some rest) :
    text = start ++ rest := by
  unfold afterPrefix? at h
  split_ifs at h with hprefix
  obtain ⟨tail,htail⟩ := List.isPrefixOf_iff_prefix.mp hprefix
  cases h
  rw [← htail,List.drop_left,← String.toList_inj,String.toList_append,String.toList_ofList,htail]

/-- A resource of a task that writes exact paths of a repository: one of the paths, which lies strictly
inside, or another repository, or no place in a file system. -/
inductive Declares (fs : FileSystem) (root : String) (paths : List String) (value : String) : Prop where
  | path (raw : String) (relative : List String) (hvalue : value = "path:" ++ raw)
      (hinside : absoluteParts raw = absoluteParts root ++ relative) (hstrict : relative ≠ [])
      (hcanonical : Canonical (posixText relative)) (hmem : posixText relative ∈ paths)
  | repository (raw : String) (hvalue : value = "repo:" ++ raw) (hother : fs.resolve (fs.expanduser raw) ≠ root)
  | other (hpath : afterPrefix? "path:" value = none) (hrepository : afterPrefix? "repo:" value = none)

theorem grabowskiPath_eq_ok {index : ℕ} {raw : String}
    (h : grabowskiPath fs root index raw = .ok path) :
    ∃ relative, absoluteParts raw = absoluteParts root ++ relative ∧ relative ≠ [] ∧ path = posixText relative ∧
      Canonical path := by
  simp only [grabowskiPath,steps_ok,Bool.and_eq_true,decide_eq_true_eq] at h
  obtain ⟨_,_,_,_,relative,hrelative,_,⟨_,hdot⟩,found,hfound,_,_,_,_,rfl⟩ := h
  obtain ⟨htext,hcanonical⟩ := canonicalRepoRelativePath_eq_ok hfound
  unfold relativeTo at hrelative
  split_ifs at hrelative with hprefix
  obtain ⟨rest,hrest⟩ := List.isPrefixOf_iff_prefix.mp hprefix
  cases hrelative
  rw [← hrest,List.drop_left] at htext hdot
  rw [← hrest]
  refine ⟨rest,rfl,?_,(Json.str.inj htext).symm,hcanonical⟩
  rintro rfl
  exact hdot rfl

structure WritesWithin (fs : FileSystem) (task : Task) (resource : Option Resource) (paths : List String) : Prop where
  declared : ∃ repository path working resources, resource = some repository ∧ repository.type = "git-repository" ∧
    repository.path = some path ∧ task.execution.getStr? "working_repository" = some working ∧
    fs.resolve (fs.expanduser working) = fs.resolve (fs.expanduser path) ∧
    task.execution.get? "grabowski_resources" = some (.arr resources) ∧ paths ≠ [] ∧
    ∀ item ∈ resources, ∃ value, item = .str value ∧ Declares fs (fs.resolve (fs.expanduser working)) paths value

theorem grabowskiResource_eq_ok {found : Option String}
    (h : grabowskiResource fs root item = .ok found) {paths : List String}
    (hpaths : ∀ path, found = some path → path ∈ paths) :
    ∃ value, item.1 = .str value ∧ Declares fs root paths value := by
  simp only [grabowskiResource,steps_ok,Option.filter_eq_some_iff] at h
  obtain ⟨value,⟨hvalue,_⟩,hfound⟩ := h
  refine ⟨value,?_,?_⟩
  · cases hitem : item.1 <;> simp_all [Json.str?]
  cases hrepository : afterPrefix? "repo:" value with
  | some raw =>
    simp only [hrepository,steps_ok,decide_eq_true_eq] at hfound
    obtain ⟨_,_,_,hother,_⟩ := hfound
    exact .repository raw (afterPrefix?_eq_some hrepository) hother
  | none =>
    cases hpath : afterPrefix? "path:" value with
    | none => exact .other hpath hrepository
    | some raw =>
      simp only [hrepository,hpath,map_eq_ok] at hfound
      obtain ⟨path,hraw,rfl⟩ := hfound
      obtain ⟨relative,hinside,hstrict,rfl,hcanonical⟩ := grabowskiPath_eq_ok hraw
      exact .path raw relative (afterPrefix?_eq_some hpath) hinside hstrict hcanonical (hpaths _ rfl)

theorem writePaths_eq_ok {task : Task} {resource : Option Resource} {paths : List String}
    (h : writePaths fs task resource = .ok paths) : WritesWithin fs task resource paths := by
  simp only [writePaths,steps_ok,Option.filter_eq_some_iff,decide_eq_true_eq,Option.bind_eq_some_iff] at h
  obtain ⟨repository,⟨hresource,htype⟩,path,⟨hpath,_⟩,working,⟨hworking,_⟩,_,hroot,resources,
    ⟨⟨listed,hlisted,hresources⟩,_⟩,found,hfound,_,hsome,rfl⟩ := h
  have hfield : task.execution.get? "grabowski_resources" = some (.arr resources) := by
    rw [hlisted]
    cases listed <;> simp_all [Json.arr?]
  refine ⟨repository,path,working,resources,hresource,htype,hpath,hworking,hroot,hfield,by simpa using hsome,
    fun item hitem => ?_⟩
  obtain ⟨index,hindex⟩ := exists_index_of_mem hitem
  obtain ⟨result,hresult,hchecked⟩ := exists_of_collect hfound hindex
  rw [hroot]
  refine grabowskiResource_eq_ok hchecked fun declared hdeclared => ?_
  rw [mem_sortedSet]
  exact List.mem_filterMap.mpr ⟨result,hresult,hdeclared⟩

end PathScopes

open PathScopes

theorem not_overlap_iff {left right : String} : repoPathsOverlap left right = false ↔
    ¬ pathParts left <+: pathParts right ∧ ¬ pathParts right <+: pathParts left := by
  rw [repoPathsOverlap,← Bool.not_eq_true,Bool.or_eq_true,not_or,List.isPrefixOf_iff_prefix,List.isPrefixOf_iff_prefix]

theorem assess_disjoint {sha : Sha} {writeScope : WriteScopes} {registry : Registry} {overlay : Table TaskState}
    {task : Task} {pr : OpenPr}
    (h : (assess sha writeScope registry overlay task pr).classification = .scopeProvenDisjoint) :
    pr.fileScopeComplete = true ∧
      (∀ scope ∈ pr.scopes, scope ≠ pr.resource → scopeConflicts task.claims registry.resources scope = false) ∧
      ∃ paths, writeScope task registry.resources[pr.resource]? = .ready paths ∧
        ∀ path ∈ paths, ∀ changed ∈ pr.changedPaths, repoPathsOverlap path changed = false := by
  simp only [assess] at h
  split_ifs at h with _ _ hadditional hincomplete
  · cases hscope : writeScope task registry.resources[pr.resource]? with
    | required diagnostic => simp [hscope] at h
    | ready paths =>
      simp only [hscope] at h
      split_ifs at h with hempty
      refine ⟨by simpa using (not_or.mp hincomplete).2,fun scope hscope hne => ?_,paths,rfl,
        fun path hpath changed hchanged => ?_⟩
      · by_contra hconflict
        refine hadditional (List.any_eq_true.mpr ⟨scope,List.mem_filter.mpr ⟨hscope,?_⟩,by simpa using hne⟩)
        simpa using hconflict
      · by_contra hoverlap
        rw [List.isEmpty_iff,List.flatMap_eq_nil_iff] at hempty
        have hnone := List.map_eq_nil_iff.mp (hempty path hpath)
        exact List.filter_eq_nil_iff.mp hnone changed hchanged (by simpa using hoverlap)

/-- A pull request that is assessed as disjoint from a task has a complete file scope, the task writes
only canonical paths strictly inside its working repository, no name of a changed file is such a path or
above or below one, and no other repository of the pull request conflicts with a claim of the task. -/
theorem proven_disjoint_sound {sha : Sha} {fs : FileSystem} {registry : Registry} {overlay : Table TaskState}
    {task : Task} {resource repository : String} {number : ℕ} {binding : Binding} {scopeResources : List String}
    {pullRequest : Json} (h : (assess sha (taskWriteScopeForRepository fs) registry overlay task
      (openPullRequestReservation sha resource repository number binding scopeResources pullRequest)).classification =
        .scopeProvenDisjoint) :
    ∃ changedPaths paths, Complete sha pullRequest repository number changedPaths ∧
      WritesWithin fs task registry.resources[resource]? paths ∧
      (∀ path ∈ paths, ∀ changed ∈ changedPaths,
        ¬ pathParts path <+: pathParts changed ∧ ¬ pathParts changed <+: pathParts path) ∧
      ∀ scope ∈ scopeResources, scope ≠ resource → ∀ claim ∈ task.claims,
        ¬ (overlaps claim.resource scope registry.resources = true ∧
          modesConflict claim.mode .writeBlocker = true) := by
  obtain ⟨hcomplete,hscopes,paths,hready,hdisjoint⟩ := assess_disjoint h
  unfold openPullRequestReservation at hcomplete hscopes hready hdisjoint
  cases hscope : fileScopeFromPullRequest sha pullRequest repository number with
  | error diagnostic => simp [hscope] at hcomplete
  | ok scope =>
    simp only [hscope] at hscopes hready hdisjoint
    refine ⟨scope.changedPaths,paths,complete_of_fileScope hscope,?_,fun path hpath changed hchanged => ?_,
      fun other hother hne claim hclaim hconflict => ?_⟩
    · unfold taskWriteScopeForRepository at hready
      split at hready
      · rename_i found hfound
        cases hready
        exact writePaths_eq_ok hfound
      · cases hready
    · exact not_overlap_iff.mp (hdisjoint path hpath changed hchanged)
    · have hnone := hscopes other (mem_scopes.mpr (.inr hother)) hne
      rw [scopeConflicts,List.any_eq_false] at hnone
      exact hnone claim hclaim (by simpa using hconflict)

namespace Sample

def renamingPr : Json :=
  .obj [("fileScope",.obj [("base_oid",.str (String.ofList (List.replicate 40 'a'))),("changed_files",.num 1),
    ("changed_paths",.arr [.str "src/a",.str "src/b"]),("changed_paths_sha256",.str "digest"),
    ("file_scope_sha256",.str "digest"),
    ("files",.arr [.obj [("path",.str "src/b"),("previous_path",.str "src/a"),("status",.str "renamed")]]),
    ("head_oid",.str (String.ofList (List.replicate 40 'b'))),("number",.num 7),("repository",.str "owner/name"),
    ("schema_version",.num 1)])]

def docsTask : Task where
  id := "T-1"
  initiative := "I-1"
  state := .ready
  dependsOn := []
  capabilities := []
  lane := "now"
  rank := 1
  execution := .obj [("grabowski_resources",.arr [.str "path:/work/docs"]),("working_repository",.str "/work")]
  claims := [⟨"repo.a",.write,1,"worktree",Mode.write_claimable⟩]
  raw := .obj []
  sha256 := "digest"

def docsRegistry : Registry where
  resources := Std.ExtTreeMap.ofList
    [("repo.a",Resource.mk "repo.a" "git-repository" none none (some "/work") none none (.obj []))]
  initiatives := ∅
  tasks := ∅
  queuePolicy := "best-effort"

def plainFiles : FileSystem := ⟨id,id,id,fun _ => .missing⟩

def renamingReservation : OpenPr :=
  openPullRequestReservation (fun _ => "digest") "repo.a" "owner/name" 7 ⟨[],.missing,""⟩ ["repo.a"] renamingPr

end Sample

theorem proven_disjoint_sound_docs : ∃ changedPaths paths,
    Complete (fun _ => "digest") Sample.renamingPr "owner/name" 7 changedPaths ∧
      WritesWithin Sample.plainFiles Sample.docsTask Sample.docsRegistry.resources["repo.a"]? paths := by
  have hdisjoint : (assess (fun _ => "digest") (taskWriteScopeForRepository Sample.plainFiles) Sample.docsRegistry ∅
      Sample.docsTask Sample.renamingReservation).classification = .scopeProvenDisjoint := by
    decide +kernel
  obtain ⟨changedPaths,paths,hcomplete,hwrites,_,_⟩ := proven_disjoint_sound hdisjoint
  exact ⟨changedPaths,paths,hcomplete,hwrites⟩

end Bureau
