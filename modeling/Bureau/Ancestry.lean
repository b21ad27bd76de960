import Bureau.Forest
import Bureau.Json
import Bureau.Transactions

/-!
The ancestry proof of a runtime refresh. GitHub compares the registered commit with the
deployed one, or, where it does not find the comparison, the deployed commit is followed
along first parents. A proof is given for ancestors only, whichever calls fail.
-/

namespace Bureau.Ancestry

open Transactions

/-- What is read of a `RuntimeRefreshError`. -/
structure Failure where
  code : String
  argv : Json
  stdout : String
  stderr : String
  deriving DecidableEq

/-- The answer to the arguments of each call, by the number of the call. -/
abbrev GitHub := ℕ → List String → Except Failure Json

def occursIn (word : List Char) : List Char → Bool
  | [] => word.isEmpty
  | c :: rest => word.isPrefixOf (c :: rest) || occursIn word rest

def mentions (word text : String) : Bool := occursIn word.toList text.toList

/-- `_github_compare_not_found`. -/
def Failure.compareNotFound (e : Failure) : Bool :=
  let text := e.stdout ++ "\n" ++ e.stderr
  e.code = "command-failed" &&
    (e.argv.arr?.any fun items => items.any fun item => item.str?.any (mentions "/compare/")) &&
    (mentions "HTTP 404" text || mentions "Not Found" text && mentions "\"status\":\"404\"" text)

def commitRequest (repository commit : String) : List String :=
  ["api","repos/" ++ repository ++ "/commits/" ++ commit]

def compareRequest (repository base head : String) : List String :=
  ["api","repos/" ++ repository ++ "/compare/" ++ base ++ "..." ++ head]

def firstParentOf (detail : Json) (commit : String) : Option String :=
  if detail.getStr? "sha" = some commit then
    ((detail.getArr "parents").head?.bind (·.getStr? "sha")).filter (·.length = 40)
  else none

def maxFirstParentLagCommits : ℕ := 100

/-- `_first_parent_lag_commits` with some rounds left. -/
def firstParentLagCommits (github : GitHub) (repository deployed : String) :
    ℕ → ℕ → List String → String → Except Failure (Option ℕ)
  | 0, lag, _, current => return if current = deployed then some lag else none
  | left+1, lag, seen, current =>
    if current = deployed then return some lag
    else if current ∈ seen then return none
    else do
      let detail ← github (lag+1) (commitRequest repository current)
      match firstParentOf detail current with
      | none => return none
      | some parent => firstParentLagCommits github repository deployed left (lag+1) (current :: seen) parent

inductive Status where
  | proven | unproven | rejected
  deriving DecidableEq

inductive Method where
  | sameCommit | firstParentWalk | githubCompare
  deriving DecidableEq

structure AncestryProof where
  status : Status
  method : Method
  compareStatus : Json := .null
  aheadBy : Json := .null
  behindBy : Json := .null
  mergeBaseCommit : Json := .null
  deriving DecidableEq

def compareProof (registered : String) (compare : Json) : AncestryProof :=
  let status := (compare.get? "status").getD .null
  let aheadBy := (compare.get? "ahead_by").getD .null
  let behindBy := (compare.get? "behind_by").getD .null
  let base := ((compare.get? "merge_base_commit").bind (·.get? "sha")).getD .null
  let shapeValid := status.str?.isSome && aheadBy.int?.isSome && behindBy.int?.isSome && base.str?.isSome
  if shapeValid && status = .str "ahead" && aheadBy.int?.any (0 < ·) && behindBy = .num 0 && base = .str registered then
    ⟨.proven,.githubCompare,status,aheadBy,behindBy,base⟩
  else ⟨if shapeValid then .rejected else .unproven,.githubCompare,status,aheadBy,behindBy,base⟩

def registeredSourceAncestryProof (github : GitHub) (repository registered deployed : String) :
    Except Failure AncestryProof :=
  if registered = deployed then return ⟨.proven,.sameCommit,.str "identical",.num 0,.num 0,.str registered⟩
  else
    match github 0 (compareRequest repository registered deployed) with
    | .ok compare => return compareProof registered compare
    | .error e =>
      if e.compareNotFound then do
        match ← firstParentLagCommits github repository registered maxFirstParentLagCommits 0 [] deployed with
        | some (lag+1) => return ⟨.proven,.firstParentWalk,.null,.num (lag+1),.num 0,.str registered⟩
        | _ => return { status := .unproven, method := .firstParentWalk }
      else .error e

/-- `old` is reached from `new` along parents. -/
def Ancestor (parents : String → List String) (old new : String) : Prop :=
  Relation.ReflTransGen (fun child parent => parent ∈ parents child) new old

def firstParent (parents : String → List String) (commit : String) : Option String := (parents commit).head?

/-- What GitHub answers is true of the commits: a merge base is a common ancestor, and the parents of a
commit begin with its first one. -/
structure Truthful (parents : String → List String) (github : GitHub) (repository registered deployed : String) :
    Prop where
  compare : ∀ call answer base, github call (compareRequest repository registered deployed) = .ok answer →
    (answer.get? "merge_base_commit").bind (·.getStr? "sha") = some base →
    Ancestor parents base registered ∧ Ancestor parents base deployed
  commit : ∀ call answer commit parent, github call (commitRequest repository commit) = .ok answer →
    answer.getStr? "sha" = some commit → (answer.getArr "parents").head?.bind (·.getStr? "sha") = some parent →
    firstParent parents commit = some parent

section

variable {parents : String → List String} {github : GitHub} {repository registered deployed : String}

theorem ancestor_of_up {n : ℕ} {old new : String} (h : Forest.up (firstParent parents) n new = some old) :
    Ancestor parents old new := by
  induction n generalizing new with
  | zero => rw [Option.some.inj h]; exact .refl
  | succ n ih =>
    obtain ⟨parent,hparent,hup⟩ := Option.bind_eq_some_iff.mp h
    exact .head (List.mem_of_head? hparent) (ih hup)

theorem isLeast_here (parent : String → Option String) (commit : String) :
    IsLeast {n | Forest.up parent n commit = some commit} 0 :=
  ⟨rfl,fun _ _ => Nat.zero_le _⟩

theorem firstParentLagCommits_eq_some (htrue : Truthful parents github repository registered deployed)
    {target current : String} {left lag found : ℕ} {seen : List String}
    (h : firstParentLagCommits github repository target left lag seen current = .ok (some found)) :
    ∃ steps, found = lag+steps ∧ IsLeast {n | Forest.up (firstParent parents) n current = some target} steps := by
  induction left generalizing lag seen current with
  | zero =>
    simp only [firstParentLagCommits,pure_eq_ok,Option.ite_none_right_eq_some,Option.some.injEq] at h
    obtain ⟨rfl,rfl⟩ := h
    exact ⟨0,rfl,isLeast_here ..⟩
  | succ left ih =>
    simp only [firstParentLagCommits] at h
    split at h
    next heq =>
      obtain rfl := Option.some.inj (pure_eq_ok.mp h)
      obtain rfl := heq
      exact ⟨0,rfl,isLeast_here ..⟩
    next hne =>
    split at h
    · simp [pure_eq_ok] at h
    obtain ⟨detail,hdetail,h⟩ := bind_eq_ok.mp h
    split at h
    · simp [pure_eq_ok] at h
    next parent hparent =>
    obtain ⟨hsha,hfirst⟩ := Option.ite_none_right_eq_some.mp hparent
    have hedge := htrue.commit _ _ _ _ hdetail hsha (Option.filter_eq_some_iff.mp hfirst).1
    obtain ⟨steps,rfl,hup,hleast⟩ := ih h
    refine ⟨steps+1,by omega,?_,?_⟩
    · show (firstParent parents current).bind _ = _
      rw [hedge]
      exact hup
    · intro n hn
      cases n with
      | zero => exact absurd (Option.some.inj hn) hne
      | succ n =>
        have hn' : (firstParent parents current).bind (Forest.up (firstParent parents) n) = some target := hn
        rw [hedge] at hn'
        exact Nat.succ_le_succ (hleast hn')

@[simp] theorem compareProof_method (registered : String) (compare : Json) :
    (compareProof registered compare).method = .githubCompare := by
  simp only [compareProof]
  split <;> rfl

theorem compareProof_proven {compare : Json} (h : (compareProof registered compare).status = .proven) :
    (compare.get? "merge_base_commit").bind (·.getStr? "sha") = some registered := by
  simp only [compareProof] at h
  split at h
  next hproven =>
    simp only [Bool.and_eq_true,decide_eq_true_eq] at hproven
    obtain ⟨_,hbase⟩ := hproven
    cases hmerge : compare.get? "merge_base_commit" with
    | none => simp [hmerge] at hbase
    | some merge =>
      cases hsha : merge.get? "sha" with
      | none => simp [hmerge,hsha] at hbase
      | some value =>
        obtain rfl : value = .str registered := by simpa [hmerge,hsha] using hbase
        simp [Json.getStr?,Json.str?,hsha]
  · split at h <;> cases h

/-- A proof is given for ancestors only, and one by first parents counts them. -/
theorem ancestry_proof_sound {proof : AncestryProof} (htrue : Truthful parents github repository registered deployed)
    (h : registeredSourceAncestryProof github repository registered deployed = .ok proof)
    (hproven : proof.status = .proven) :
    Ancestor parents registered deployed ∧
      (proof.method = .firstParentWalk → ∃ steps : ℕ, proof.aheadBy = .num steps ∧
        IsLeast {n | Forest.up (firstParent parents) n deployed = some registered} steps) := by
  simp only [registeredSourceAncestryProof] at h
  split at h
  next heq =>
    obtain rfl := pure_eq_ok.mp h
    exact ⟨heq ▸ .refl,nofun⟩
  split at h
  next compare hcompare =>
    obtain rfl := pure_eq_ok.mp h
    refine ⟨(htrue.compare 0 compare registered hcompare (compareProof_proven hproven)).2,?_⟩
    intro hmethod
    rw [compareProof_method] at hmethod
    cases hmethod
  next e _ =>
  split at h
  · obtain ⟨found,hfound,h⟩ := bind_eq_ok.mp h
    split at h
    next lag =>
      obtain rfl := pure_eq_ok.mp h
      obtain ⟨steps,hsteps,hleast⟩ := firstParentLagCommits_eq_some htrue hfound
      obtain rfl : lag+1 = steps := by omega
      exact ⟨ancestor_of_up hleast.1,fun _ => ⟨lag+1,by push_cast; rfl,hleast⟩⟩
    · obtain rfl := pure_eq_ok.mp h
      cases hproven
  · cases h

end

namespace Sample

def deployed : String := "dddddddddddddddddddddddddddddddddddddddd"

def registered : String := "eeeeeeeeeeeeeeeeeeeeeeeeeeeeeeeeeeeeeeee"

def parents (commit : String) : List String := if commit = deployed then [registered] else []

def detail : Json := .obj [("parents",.arr [.obj [("sha",.str registered)]]),("sha",.str deployed)]

def github : GitHub := fun _ arguments =>
  if arguments = commitRequest "o/r" deployed then .ok detail
  else .error ⟨"command-failed",.arr (arguments.map .str),"","gh: Not Found (HTTP 404)"⟩

theorem truthful : Truthful parents github "o/r" registered deployed := by
  have hanswer {call : ℕ} {arguments : List String} {answer : Json} (h : github call arguments = .ok answer) :
      arguments = commitRequest "o/r" deployed ∧ answer = detail := by
    simp only [github] at h
    split at h
    · exact ⟨‹_›,(Except.ok.inj h).symm⟩
    · cases h
  constructor
  · intro call answer base h
    exact absurd (hanswer h).1 (by decide)
  · intro call answer commit parent h hsha hparent
    obtain ⟨_,rfl⟩ := hanswer h
    obtain rfl : deployed = commit := Option.some.inj hsha
    obtain rfl : registered = parent := Option.some.inj hparent
    rfl

end Sample

theorem ancestry_proof_sound_walked :
    registeredSourceAncestryProof Sample.github "o/r" Sample.registered Sample.deployed =
      .ok ⟨.proven,.firstParentWalk,.null,.num 1,.num 0,.str Sample.registered⟩ ∧
    Ancestor Sample.parents Sample.registered Sample.deployed ∧
    ∃ steps : ℕ, Json.num 1 = .num steps ∧
      IsLeast {n | Forest.up (firstParent Sample.parents) n Sample.deployed = some Sample.registered} steps := by
  have hproof : registeredSourceAncestryProof Sample.github "o/r" Sample.registered Sample.deployed =
      .ok ⟨.proven,.firstParentWalk,.null,.num 1,.num 0,.str Sample.registered⟩ := by decide
  have hsound := ancestry_proof_sound Sample.truthful hproof rfl
  exact ⟨hproof,hsound.1,hsound.2 rfl⟩

end Bureau.Ancestry
