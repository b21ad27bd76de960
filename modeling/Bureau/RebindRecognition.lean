import Bureau.CloseEffect
import Bureau.RebindPreview

/-!
A close recognises rebinds. The parameters of a rebind are read off the documents before and after it; the
check then repeats the rebind and looks for the one event and the one receipt of its write. A receipt that
a later put of the same document leaves behind makes the check fail.
-/

namespace Bureau

open Transactions TaskSpecs

namespace RepositoryRebind

/-! The parameters of one transition. -/

def Moves (p : RebindParameters) (spec : Json) : Prop :=
  ∃ execution, spec.get? "execution" = some execution ∧
    execution.getStr? "working_repository" = some p.oldRepositoryPath

theorem changed_pairs (first last : List Json) (claim moved : Json) :
    (((first ++ claim :: last).zip (first ++ moved :: last)).filter fun pair => decide (pair.1 ≠ pair.2)) =
      if claim = moved then [] else [(claim,moved)] := by
  have hsame : ∀ claims : List Json, ((claims.zip claims).filter fun pair => decide (pair.1 ≠ pair.2)) = [] := by
    intro claims
    induction claims with
    | nil => rfl
    | cons head rest ih => simpa using ih
  rw [List.zip_append rfl,List.filter_append,hsame,List.nil_append,List.zip_cons_cons]
  split_ifs with hclaim
  · rw [List.filter_cons_of_neg (by simp [hclaim]),hsame]
  · rw [List.filter_cons_of_pos (by simpa using hclaim),hsame]

theorem getStr?_set_of_getStr? {document : Json} {key value : String} (h : document.getStr? key = some value)
    (new : String) : (document.set key (.str new)).getStr? key = some new := by
  cases document with
  | obj fields =>
    rw [Json.getStr?,Json.get?_set_self]
    rfl
  | _ => cases h

section Transition

variable {p q : RebindParameters} {before after : Json}

theorem rebindTransitionParameters_eq_some (h : rebindTransitionParameters before after = some q) :
    ∃ old new oldClaims newClaims, before.get? "claims" = some (.arr oldClaims) ∧
      after.get? "claims" = some (.arr newClaims) ∧
      changedClaim oldClaims newClaims = some (q.oldResourceId,q.newResourceId) ∧
      before.get? "execution" = some old ∧ after.get? "execution" = some new ∧
      old.getStr? "working_repository" = some q.oldRepositoryPath ∧
      new.getStr? "working_repository" = some q.newRepositoryPath ∧ q.oldRepositoryPath ≠ q.newRepositoryPath := by
  simp only [rebindTransitionParameters,Option.bind_eq_bind,Option.bind_eq_some_iff,check_eq_some,decide_eq_true_eq,
    Option.filter_eq_some_iff,nonEmptyStr?] at h
  obtain ⟨oldClaims,⟨listed,hlisted,holdClaims⟩,newClaims,⟨listed',hlisted',hnewClaims⟩,⟨oldId,newId⟩,hchanged,oldPath,
    ⟨old,⟨hold,_⟩,holdPath,_⟩,newPath,⟨new,⟨hnew,_⟩,hnewPath,_⟩,_,hne,h⟩ := h
  cases h
  refine ⟨old,new,oldClaims,newClaims,?_,?_,hchanged,hold,hnew,holdPath,hnewPath,hne⟩
  · rw [hlisted]
    cases listed <;> simp_all [Json.arr?]
  · rw [hlisted']
    cases listed' <;> simp_all [Json.arr?]

theorem changedClaim_eq_some {claims moved : List Json} {ids : String × String}
    (h : changedClaim claims moved = some ids) :
    ∃ b a, ((claims.zip moved).filter fun pair => decide (pair.1 ≠ pair.2)) = [(b,a)] ∧
      b.getStr? "resource" = some ids.1 ∧ a.getStr? "resource" = some ids.2 := by
  simp only [changedClaim,Option.bind_eq_bind,Option.bind_eq_some_iff] at h
  obtain ⟨_,_,h⟩ := h
  split at h
  · rename_i b a hpairs
    simp only [Option.bind_eq_some_iff,nonEmptyStr?,Option.filter_eq_some_iff] at h
    obtain ⟨_,_,old,⟨hold,_⟩,new,⟨hnew,_⟩,_,_,h⟩ := h
    cases h
    exact ⟨b,a,hpairs,hold,hnew⟩
  · cases h

theorem parameters_unique (h : rebindTransitionParameters before after = some q) (hrebinds : Rebinds p before after) :
    q = p := by
  obtain ⟨old,new,oldClaims,newClaims,hclaims,hmoved,hchanged,hold,hnew,holdPath,hnewPath,hne⟩ :=
    rebindTransitionParameters_eq_some h
  obtain ⟨first,claim,last,hbefore,hafter,hid,_⟩ := hrebinds.claims
  obtain ⟨execution,execution',hexecution,hexecution',_,hmoves⟩ := hrebinds.execution
  cases hclaims.symm.trans hbefore
  cases hmoved.symm.trans hafter
  cases hold.symm.trans hexecution
  cases hnew.symm.trans hexecution'
  obtain ⟨b,a,hpairs,hb,ha⟩ := changedClaim_eq_some hchanged
  rw [changed_pairs] at hpairs
  split_ifs at hpairs
  cases hpairs
  have holdId : q.oldResourceId = p.oldResourceId := Option.some.inj (hb.symm.trans hid)
  have hnewId : q.newResourceId = p.newResourceId := Option.some.inj (ha.symm.trans (getStr?_set_of_getStr? hid _))
  have hworking := hmoves.working
  have hmoves : old.getStr? "working_repository" = some p.oldRepositoryPath := by
    by_contra hstays
    rw [if_neg hstays] at hworking
    have hsame : new.getStr? "working_repository" = old.getStr? "working_repository" := by
      rw [Json.getStr?,hworking,Json.getStr?]
    exact hne (Option.some.inj (holdPath.symm.trans (hsame.symm.trans hnewPath)))
  rw [if_pos hmoves] at hworking
  have holdPath : q.oldRepositoryPath = p.oldRepositoryPath := Option.some.inj (holdPath.symm.trans hmoves)
  have hnewPath : q.newRepositoryPath = p.newRepositoryPath := by
    rw [Json.getStr?,hworking] at hnewPath
    exact (Option.some.inj hnewPath).symm
  obtain ⟨_,_,_,_⟩ := q
  cases holdId
  cases hnewId
  cases holdPath
  cases hnewPath
  rfl

theorem validateParameters_eq_ok (h : validateParameters p = .ok ()) :
    p.oldResourceId ≠ "" ∧ p.newResourceId ≠ "" ∧ p.oldRepositoryPath ≠ "" ∧ p.newRepositoryPath ≠ "" ∧
      p.oldResourceId ≠ p.newResourceId ∧ p.oldRepositoryPath ≠ p.newRepositoryPath := by
  have hnonempty : ∀ text word : String, word ≠ "" → startsWith text word = true → text ≠ "" := by
    rintro _ word hword hstarts rfl
    obtain ⟨rest,hrest⟩ := List.isPrefixOf_iff_prefix.mp hstarts
    have hnil : word.toList = [] := (List.append_eq_nil_iff.mp hrest).1
    exact hword (by simpa using hnil)
  simp only [validateParameters,steps_ok,Bool.and_eq_true,decide_eq_true_eq] at h
  obtain ⟨_,⟨hold,_⟩,_,⟨hnew,_⟩,_,⟨⟨⟨hpath,_⟩,_⟩,_⟩,_,⟨⟨⟨hpath',_⟩,_⟩,_⟩,_,hids,hpaths⟩ := h
  exact ⟨hnonempty _ _ (by decide) hold,hnonempty _ _ (by decide) hnew,hnonempty _ _ (by decide) hpath,
    hnonempty _ _ (by decide) hpath',hids,hpaths⟩

theorem rebindTransitionParameters_of_rebinds (hparameters : validateParameters p = .ok ())
    (hrebinds : Rebinds p before after) (hmoves : Moves p before) :
    rebindTransitionParameters before after = some p := by
  obtain ⟨holdId,hnewId,holdPath,hnewPath,hids,hpaths⟩ := validateParameters_eq_ok hparameters
  obtain ⟨first,claim,last,hbefore,hafter,hid,_⟩ := hrebinds.claims
  obtain ⟨old,new,hold,hnew,hobj,hexecution⟩ := hrebinds.execution
  obtain ⟨execution,hexecution',hworking⟩ := hmoves
  cases hold.symm.trans hexecution'
  have hmoved := hexecution.working
  rw [if_pos hworking] at hmoved
  have hnewObj : new.isObj = true := Json.isObj_of_get? hmoved
  have hset := getStr?_set_of_getStr? hid p.newResourceId
  have hclaimObj : claim.isObj = true := Json.isObj_of_getStr? hid
  have hchanged : changedClaim (first ++ claim :: last) (first ++ claim.set "resource" (.str p.newResourceId) :: last) =
      some (p.oldResourceId,p.newResourceId) := by
    have hne : ¬ claim = claim.set "resource" (.str p.newResourceId) := by
      intro hsame
      rw [← hsame,hid] at hset
      exact hids (Option.some.inj hset)
    have hpop : claim.pop "resource" = (claim.set "resource" (.str p.newResourceId)).pop "resource" := by
      cases claim with
      | obj fields => rw [Json.set,Json.pop,Json.pop,Json.filter_ne_insertField]
      | _ => rfl
    have hpairs := changed_pairs first last claim (claim.set "resource" (.str p.newResourceId))
    rw [if_neg hne] at hpairs
    simp only [changedClaim,hpairs,nonEmptyStr?,hid,hset]
    simp [check,hclaimObj,hpop,Option.filter,holdId,hnewId,hids]
  have hnewWorking : new.getStr? "working_repository" = some p.newRepositoryPath := by
    rw [Json.getStr?,hmoved]
    rfl
  simp only [rebindTransitionParameters,Option.bind_eq_bind,Option.bind_eq_some_iff,check_eq_some,decide_eq_true_eq,
    Option.filter_eq_some_iff,nonEmptyStr?]
  exact ⟨_,⟨_,hbefore,rfl⟩,_,⟨_,hafter,rfl⟩,_,hchanged,_,⟨old,⟨hold,hobj⟩,hworking,holdPath⟩,_,
    ⟨new,⟨hnew,hnewObj⟩,hnewWorking,hnewPath⟩,(),hpaths,rfl⟩

end Transition

/-! What the writer leaves behind. -/

def closeContracts (R : Rules) (E : Env) (K : Contracts) : Contracts :=
  { K with previewRebind := fun spec p => (previewRebind R p E spec).toOption.map (·.spec) }

def writeKey (sha : Sha) (p : RebindParameters) (before after : TaskSpecs.CurrentSpec) : String :=
  rebindIdempotencyKey sha before.taskId before.revision before.specSha256 after.specSha256 p

/-- The rebind writer set a revision after an event: the document is the rewritten one, and the write left
its event and its receipt. -/
structure WrittenByRebind (R : Rules) (E : Env) (db : Db) (lastEvent : ℕ) (p : RebindParameters)
    (before after : TaskSpecs.CurrentSpec) : Prop where
  next : after.taskId = before.taskId ∧ after.revision = before.revision+1 ∧
    after.parentRevision = some before.revision
  source : after.source = "repository-identity-rebind"
  preview : ∃ preview, previewRebind R p E before.spec = .ok preview ∧ preview.spec = after.spec
  event : ∃ eventId, lastEvent < eventId ∧
    (eventId,TaskSpecs.revisionEventPayload after (writeKey E.sha p before after)) ∈
      specEvents db before.taskId after.revision
  receipt : db.taskSpecMutations[writeKey E.sha p before after]? =
    some ⟨before.taskId,some before.revision,after.specSha256,after.revision⟩

section Journal

variable {sha : Sha} {db db' : Db}

def specEntry (taskId : String) (revision : ℕ) (e : EventRow) : Option (ℕ × Json) :=
  match e.eventType, e.payload with
  | .taskSpecRevisionSet, .plain document =>
    if document.getStr? "task_id" = some taskId ∧ document.get? "revision" = some (natJson revision) then
      some (e.eventId,document)
    else none
  | _, _ => none

theorem specEvents_eq (taskId : String) (revision : ℕ) :
    specEvents db taskId revision = db.specRows.filterMap (specEntry taskId revision) := by
  rw [specEvents,Db.specRows,List.filterMap_filter]
  refine List.filterMap_congr fun e _ => ?_
  cases e with
  | mk _ _ type _ _ _ => cases type <;> rfl

theorem specEvents_setRevision (now : Time) (next : CurrentSpec) (key : String) (expected : Option ℕ)
    (taskId : String) (revision : ℕ) :
    specEvents (setRevision now db next key expected) taskId revision = specEvents db taskId revision ++
      if taskId = next.taskId ∧ revision = next.revision then
        [(db.nextEventId,revisionEventPayload next key)] else [] := by
  have hentry : specEntry taskId revision ⟨db.nextEventId,none,.taskSpecRevisionSet,1,none,
      .plain (revisionEventPayload next key)⟩ =
      if taskId = next.taskId ∧ revision = next.revision then
        some (db.nextEventId,revisionEventPayload next key) else none := by
    refine if_congr ?_ rfl rfl
    rw [(getStr?_revisionEventPayload next key).1,(TaskSpecs.get?_revisionEventPayload next key).1,
      Option.some.injEq,Option.some.injEq,natJson,natJson,Json.num.injEq,Int.ofNat_inj]
    exact and_congr eq_comm eq_comm
  have hrows : (setRevision now db next key expected).specRows = db.specRows ++
      [⟨db.nextEventId,none,.taskSpecRevisionSet,1,none,.plain (revisionEventPayload next key)⟩] := by
    simp [Db.specRows,setRevision,List.filter_append]
  rw [specEvents_eq,specEvents_eq,hrows,List.filterMap_append,List.filterMap_cons,hentry]
  split_ifs <;> simp

/-- Every revision has at most one event, and none comes before its time. -/
def EventOnce (db : Db) : Prop :=
  ∀ taskId revision, (specEvents db taskId revision).length ≤ 1 ∧
    (specEvents db taskId revision ≠ [] → revision ≤ db.currentRevision taskId)

theorem eventOnce_fresh (sha : Sha) : EventOnce (Db.fresh sha) := by
  intro taskId revision
  have hnone : specEvents (Db.fresh sha) taskId revision = [] := by
    rw [specEvents_eq]
    simp [Db.specRows,Db.fresh]
  simp [hnone]

theorem EventOnce.effect (h : EventOnce db) (heffect : SpecEffect sha db db') : EventOnce db' := by
  intro taskId revision
  obtain ⟨honce,hbounded⟩ := h taskId revision
  have hle := heffect.currentRevision_le taskId
  cases heffect with
  | none rows =>
    rw [specEvents_eq,rows,← specEvents_eq]
    exact ⟨honce,fun hsome => (hbounded hsome).trans hle⟩
  | known => exact ⟨honce,hbounded⟩
  | @set now next key expected successor write =>
    rw [specEvents_setRevision,Db.currentRevision_setRevision]
    by_cases hnew : taskId = next.taskId ∧ revision = next.revision
    · rw [if_pos hnew,if_pos hnew.1]
      obtain ⟨rfl,rfl⟩ := hnew
      have hempty : specEvents db next.taskId next.revision = [] := by
        by_contra hsome
        have hsucc := successor.revision_eq_succ
        have := hbounded hsome
        omega
      rw [hempty]
      simp
    · rw [if_neg hnew,List.append_nil]
      refine ⟨honce,fun hsome => ?_⟩
      split_ifs with hid
      · have hsucc := successor.revision_eq_succ
        have := hbounded hsome
        rw [← hid] at hsucc
        omega
      · exact hbounded hsome

end Journal

section Written

variable {R : Rules} {E : Env} {K : Contracts} {db db' : Db} {lastEvent : ℕ} {p : RebindParameters}
  {before after : TaskSpecs.CurrentSpec}

theorem written_of_put {now : Time} {preview : Preview} {result : PutResult}
    (hcurrent : getCurrent E.sha db before.taskId = .ok (some before))
    (hpreview : previewRebind R p E before.spec = .ok preview)
    (hput : putValidatedMaterial E.sha now db preview.spec (rebindIdempotencyKey E.sha before.taskId
      before.revision before.specSha256 preview.specSha256 p) (some before.revision) "repository-identity-rebind" =
        .ok (result,db')) (hchanged : result.changed = true) (hlast : lastEvent < db.nextEventId) :
    WrittenByRebind R E db' lastEvent p before result.current := by
  have hdigest := (previewRebind_eq_ok hpreview).digest
  cases putValidatedMaterial_effect hput with
  | replay _ _ hread =>
    simp only [replayMutation,steps_ok] at hread
    obtain ⟨_,_,_,_,_,_,_,_,_,_,rfl⟩ := hread
    cases hchanged
  | known => cases hchanged
  | @set next hdocument hsource hsuccessor hwrite =>
    obtain ⟨_,hpos,_,_,hcanonical⟩ := getCurrent_eq_some hcurrent
    have htask : next.taskId = before.taskId := by
      have hid := hsuccessor.id
      rw [hdocument,(previewRebind_id hcanonical hpreview).1] at hid
      exact (Except.ok.inj hid).symm
    have hrevision : next.revision = before.revision+1 := by
      obtain ⟨current,hread,hrevision⟩ := hsuccessor.current
      rw [htask,hcurrent] at hread
      cases hread
      simpa using hrevision
    have hsha : next.specSha256 = preview.specSha256 := by rw [hsuccessor.digest,hdocument,hdigest]
    refine ⟨⟨htask,hrevision,?_⟩,hsource,⟨preview,hpreview,hdocument.symm⟩,⟨db.nextEventId,hlast,?_⟩,?_⟩
    · rw [hsuccessor.parent,hrevision,parentOfRevision_succ hpos]
    · rw [specEvents_setRevision,if_pos ⟨htask.symm,rfl⟩,writeKey,hsha]
      simp
    · simp only [writeKey,hsha,setRevision,Tables.get_insert_self,htask]

/-- A round of `apply_plan` that sets a revision is a write of the rebind writer. -/
theorem applyItem_written {now : Time} {found : List TaskRow} {item : Item} {current : CurrentSpec}
    (hitem : validateItem E.sha p item = .ok ()) (hsnapshot : Snapshot E.sha found db item)
    (hcurrent : getCurrent E.sha db item.taskId = .ok (some current))
    (h : applyItem R p E now found db item = .ok db') (hset : db'.taskSpecs ≠ db.taskSpecs)
    (hlast : lastEvent < db.nextEventId) : ∃ next, WrittenByRebind R E db' lastEvent p current next := by
  obtain ⟨read,preview,result,hread,hrevision,hdigest,hpreview,_,hresult,hput⟩ := applyItem_eq_ok hsnapshot h
  cases hread.symm.trans hcurrent
  have hid := (getCurrent_eq_some hcurrent).1
  have hkey : item.idempotencyKey = rebindIdempotencyKey E.sha current.taskId current.revision current.specSha256
      preview.specSha256 p := by
    simp only [validateItem,steps_ok,decide_eq_true_eq] at hitem
    obtain ⟨_,_,_,_,_,_,_,_,_,_,_,_,_,_,_,_,_,_,hkey⟩ := hitem
    rw [hkey,hid,hrevision,hdigest,(previewRebind_eq_ok hpreview).digest,hresult]
  rw [hkey,← hrevision] at hput
  have hchanged : result.changed = true := by
    cases putValidatedMaterial_effect hput with
    | replay => exact absurd rfl hset
    | known => exact absurd rfl hset
    | set => rfl
  exact ⟨result.current,written_of_put (hid.symm ▸ hcurrent) hpreview hput hchanged hlast⟩

def stepDocument (sha : Sha) (p : RebindParameters) (eventId : ℕ) (before after : TaskSpecs.CurrentSpec) : Json :=
  .obj [("event_id",natJson eventId),("from_revision",natJson before.revision),
    ("from_spec_sha256",.str before.specSha256),("idempotency_key",.str (writeKey sha p before after)),
    ("new_repository_path",.str p.newRepositoryPath),("new_resource_id",.str p.newResourceId),
    ("old_repository_path",.str p.oldRepositoryPath),("old_resource_id",.str p.oldResourceId),
    ("to_revision",natJson after.revision),("to_spec_sha256",.str after.specSha256)]

theorem rebindStep_accepts {step : Json}
    (h : rebindStep E (closeContracts R E K) db before.taskId lastEvent before after = some step) :
    ∃ p preview eventId, rebindTransitionParameters before.spec after.spec = some p ∧
      previewRebind R p E before.spec = .ok preview ∧ preview.spec = after.spec ∧
      step = stepDocument E.sha p eventId before after ∧
        ∃ receipt, mutationsTo db before.taskId after.revision = [receipt] := by
  simp only [rebindStep,Option.bind_eq_bind,Option.bind_eq_some_iff,check_eq_some,decide_eq_true_eq] at h
  obtain ⟨_,_,p,hp,_,hpreview,h⟩ := h
  obtain ⟨preview,hok,hspec⟩ := Option.map_eq_some_iff.mp hpreview
  split at h
  · rename_i receipt eventId payload hreceipts _
    simp only [Option.bind_eq_some_iff] at h
    obtain ⟨_,_,_,_,_,_,h⟩ := h
    cases h
    exact ⟨p,preview,eventId,hp,toOption_eq_some.mp hok,hspec,rfl,receipt,hreceipts⟩
  · cases h

theorem eq_singleton_of_mem {α : Type} {items : List α} {item : α} (hlength : items.length ≤ 1) (hmem : item ∈ items) :
    items = [item] := by
  match items with
  | [other] => rw [List.mem_singleton.mp hmem]
  | _ :: _ :: _ => simp at hlength

theorem mem_mutationsTo {key : String} {receipt : TaskSpecMutation} (h : db.taskSpecMutations[key]? = some receipt) :
    (key,receipt) ∈ mutationsTo db receipt.taskId receipt.resultingRevision :=
  List.mem_filter.mpr ⟨Std.ExtTreeMap.mem_toList_iff_getElem?_eq_some.mpr h,by simp⟩

/-- A step of the writer is accepted exactly if its receipt is the only one of its revision. -/
theorem rebindStep_isSome_iff (honce : EventOnce db) (h : WrittenByRebind R E db lastEvent p before after)
    (hmoves : Moves p before.spec) :
    (rebindStep E (closeContracts R E K) db before.taskId lastEvent before after).isSome = true ↔
      ∃ receipt, mutationsTo db before.taskId after.revision = [receipt] := by
  constructor
  · intro hsome
    obtain ⟨step,hstep⟩ := Option.isSome_iff_exists.mp hsome
    obtain ⟨_,_,_,_,_,_,_,hreceipt⟩ := rebindStep_accepts hstep
    exact hreceipt
  · rintro ⟨receipt,hreceipt⟩
    obtain ⟨preview,hpreview,hspec⟩ := h.preview
    have hpreviewed := previewRebind_eq_ok hpreview
    have hparameters : rebindTransitionParameters before.spec after.spec = some p := by
      rw [← hspec]
      exact rebindTransitionParameters_of_rebinds hpreviewed.parameters hpreviewed.rebinds hmoves
    obtain ⟨eventId,hlast,hevent⟩ := h.event
    have hevents : specEvents db before.taskId after.revision =
        [(eventId,revisionEventPayload after (writeKey E.sha p before after))] :=
      eq_singleton_of_mem (honce before.taskId after.revision).1 hevent
    have hsole : receipt = (writeKey E.sha p before after,
        ⟨before.taskId,some before.revision,after.specSha256,after.revision⟩) := by
      have hmem := mem_mutationsTo h.receipt
      rw [hreceipt,List.mem_singleton] at hmem
      exact hmem.symm
    refine Option.isSome_iff_exists.mpr ⟨stepDocument E.sha p eventId before after,?_⟩
    simp only [rebindStep,Option.bind_eq_bind,Option.bind_eq_some_iff,check_eq_some,decide_eq_true_eq,Bool.and_eq_true]
    refine ⟨(),⟨⟨h.next.2.1,h.next.2.2⟩,h.source⟩,p,hparameters,(),?_,?_⟩
    · show (previewRebind R p E before.spec).toOption.map (·.spec) = some after.spec
      rw [toOption_eq_some.mpr hpreview,← hspec]
      rfl
    · rw [hreceipt,hevents,hsole]
      simp only [Option.bind_eq_some_iff,check_eq_some,decide_eq_true_eq]
      exact ⟨(),hlast,(),rfl,(),rfl,rfl⟩

end Written

/-! A chain of revisions. -/

def SoleReceipts (db : Db) (taskId : String) (baseline : ℕ) : Prop :=
  ∀ revision, baseline < revision → (mutationsTo db taskId revision).length ≤ 1

/-- The revisions from the one that was claimed to the current one, each written by the rebind writer after an
event, with another working repository; the claimed document is no other revision before the current one. -/
structure RebindChain (R : Rules) (E : Env) (db : Db) (taskId : String) (claimed : Json) (lastEvent baseline : ℕ)
    (first current : TaskSpecs.CurrentSpec) (rest : List TaskSpecs.CurrentSpec) : Prop where
  read : TaskSpecs.getRevision E.sha db taskId baseline = .ok first
  document : first.spec = claimed
  latest : TaskSpecs.getCurrent E.sha db taskId = .ok (some current)
  earlier : baseline < current.revision
  revisions : collect (TaskSpecs.getRevision E.sha db taskId)
    (List.range' (baseline+1) (current.revision-baseline)) = .ok rest
  sole : revisionsWithDigest db taskId (TaskSpecs.taskSpecDigest E.sha claimed) current.revision = [baseline]
  written : ∀ pair ∈ (first :: rest).zip rest, ∃ p, WrittenByRebind R E db lastEvent p pair.1 pair.2 ∧
    Moves p pair.1.spec

section Chain

variable {R : Rules} {E : Env} {K : Contracts} {db : Db} {lastEvent : ℕ}

variable {before : CurrentSpec} {rest : List CurrentSpec} {taskId : String} {revision : ℕ}

theorem rebindSteps_isSome_iff :
    (rebindSteps E K db taskId lastEvent before rest).isSome = true ↔
      ∀ pair ∈ (before :: rest).zip rest, (rebindStep E K db taskId lastEvent pair.1 pair.2).isSome = true := by
  induction rest generalizing before with
  | nil => simp [rebindSteps]
  | cons after rest ih =>
    rw [rebindSteps,List.zip_cons_cons,List.forall_mem_cons,← ih]
    cases rebindStep E K db taskId lastEvent before after with
    | none => simp
    | some step => cases rebindSteps E K db taskId lastEvent after rest <;> simp

theorem getRevision_taskId {spec : CurrentSpec}
    (h : getRevision E.sha db taskId revision = .ok spec) :
    spec.taskId = taskId ∧ spec.revision = revision ∧ canonicalSpecId spec.spec = .ok taskId := by
  simp only [getRevision,validatedRow,steps_ok,decide_eq_true_eq] at h
  obtain ⟨row,_,id,hid,_,rfl,_,_,_,_,rfl⟩ := h
  exact ⟨rfl,rfl,hid⟩

namespace RebindChain

variable {taskId : String} {claimed : Json} {baseline : ℕ} {first current : TaskSpecs.CurrentSpec}
  {rest : List TaskSpecs.CurrentSpec}

theorem taskIds (h : RebindChain R E db taskId claimed lastEvent baseline first current rest) :
    ∀ spec ∈ first :: rest, spec.taskId = taskId := by
  intro spec hspec
  rcases List.mem_cons.mp hspec with rfl | hspec
  · exact (getRevision_taskId h.read).1
  · obtain ⟨_,_,hread⟩ := exists_of_mem_collect h.revisions hspec
    exact (getRevision_taskId hread).1

theorem step_to (h : RebindChain R E db taskId claimed lastEvent baseline first current rest) {revision : ℕ}
    (hafter : baseline < revision) (hle : revision ≤ current.revision) :
    ∃ pair ∈ (first :: rest).zip rest, pair.2.revision = revision := by
  have hmem : revision ∈ List.range' (baseline+1) (current.revision-baseline) := by
    rw [List.mem_range'_1]
    omega
  obtain ⟨spec,hspec,hread⟩ := exists_of_collect h.revisions hmem
  have hpairs : spec ∈ ((first :: rest).zip rest).map Prod.snd := by
    rw [List.map_snd_zip (by simp)]
    exact hspec
  obtain ⟨pair,hpair,rfl⟩ := List.mem_map.mp hpairs
  exact ⟨pair,hpair,(getRevision_taskId hread).2.1⟩

theorem step_revision (h : RebindChain R E db taskId claimed lastEvent baseline first current rest)
    {pair : CurrentSpec × CurrentSpec} (hpair : pair ∈ (first :: rest).zip rest) :
    baseline < pair.2.revision := by
  obtain ⟨number,hnumber,hread⟩ := exists_of_mem_collect h.revisions (List.of_mem_zip hpair).2
  rw [(getRevision_taskId hread).2.1]
  rw [List.mem_range'_1] at hnumber
  omega

/-- The steps of the chain are accepted exactly if the revisions have one receipt each. -/
theorem steps_iff (h : RebindChain R E db taskId claimed lastEvent baseline first current rest)
    (hledger : db.SpecLedger E.sha) (honce : EventOnce db) :
    (rebindSteps E (closeContracts R E K) db taskId lastEvent first rest).isSome = true ↔
      SoleReceipts db taskId baseline := by
  have hstep : ∀ pair ∈ (first :: rest).zip rest,
      ((rebindStep E (closeContracts R E K) db taskId lastEvent pair.1 pair.2).isSome = true ↔
        (mutationsTo db taskId pair.2.revision).length ≤ 1) := by
    intro pair hpair
    obtain ⟨p,hwritten,hmoves⟩ := h.written pair hpair
    have hid := h.taskIds pair.1 (List.of_mem_zip hpair).1
    have hiff := rebindStep_isSome_iff (K := K) honce hwritten hmoves
    rw [hid] at hiff
    rw [hiff]
    constructor
    · rintro ⟨receipt,hreceipt⟩
      rw [hreceipt]
      exact Nat.le_refl 1
    · intro hlength
      have hmem := mem_mutationsTo hwritten.receipt
      rw [hid] at hmem
      exact ⟨_,eq_singleton_of_mem hlength hmem⟩
  rw [rebindSteps_isSome_iff]
  constructor
  · intro hall revision hafter
    by_cases hle : revision ≤ current.revision
    · obtain ⟨pair,hpair,rfl⟩ := h.step_to hafter hle
      exact (hstep pair hpair).mp (hall pair hpair)
    · -- receipts name stored revisions
      have hnone : mutationsTo db taskId revision = [] := by
        refine List.filter_eq_nil_iff.mpr fun item hitem hnames => ?_
        obtain ⟨key,receipt⟩ := item
        simp only [decide_eq_true_eq] at hnames
        obtain ⟨row,hrow,_⟩ := hledger.receipts key receipt (Std.ExtTreeMap.mem_toList_iff_getElem?_eq_some.mp hitem)
        rw [hnames.1,hnames.2] at hrow
        have hstored := (hledger.stored taskId revision).mp (by simp [hrow])
        rw [← (hledger.of_getCurrent h.latest).1] at hstored
        exact hle hstored.2
      rw [hnone]
      exact Nat.zero_le 1
  · intro hsole pair hpair
    exact (hstep pair hpair).mpr (hsole pair.2.revision (h.step_revision hpair))

theorem last_spec (h : RebindChain R E db taskId claimed lastEvent baseline first current rest)
    (hledger : db.SpecLedger E.sha) : rest.getLast?.map (·.spec) = some current.spec := by
  have hread := collect_eq_ok.mp h.revisions
  have hlength := hread.length_eq
  rw [List.length_range'] at hlength
  have hearlier := h.earlier
  have hlast : rest.length-1 < rest.length := by omega
  have hindex : rest.length-1 < (List.range' (baseline+1) (current.revision-baseline)).length := by
    rw [List.length_range']
    omega
  have hfinal := hread.get hindex hlast
  have hrevision : (List.range' (baseline+1) (current.revision-baseline)).get ⟨rest.length-1,hindex⟩ =
      current.revision := by
    simp only [List.get_eq_getElem,List.getElem_range',Nat.one_mul]
    omega
  rw [hrevision] at hfinal
  have hcurrent : getRevision E.sha db taskId current.revision = .ok current := by
    have hlatest := h.latest
    rw [hledger.getCurrent_eq,Except.ok.injEq,Option.map_eq_some_iff] at hlatest
    obtain ⟨row,hrow,rfl⟩ := hlatest
    exact hledger.getRevision_eq taskId _ hrow
  rw [hcurrent] at hfinal
  rw [List.getLast?_eq_getElem?,List.getElem?_eq_getElem hlast,Option.map_some,Option.some.injEq]
  exact congrArg CurrentSpec.spec (Except.ok.inj hfinal).symm

theorem evolution_iff (h : RebindChain R E db taskId claimed lastEvent baseline first current rest)
    (hledger : db.SpecLedger E.sha) (honce : EventOnce db) (hlast : 1 ≤ lastEvent) :
    (repositoryRebindEvolution E (closeContracts R E K) db taskId claimed current.revision current.specSha256
      lastEvent).isSome = true ↔ SoleReceipts db taskId baseline := by
  have hid : claimed.getStr? "id" = some taskId := by
    rw [← h.document]
    exact getStr?_of_canonicalSpecId (getRevision_taskId h.read).2.2
  have hcurrent : (getCurrent E.sha db taskId).toOption.join = some current := by
    rw [h.latest]
    rfl
  rw [← h.steps_iff (K := K) hledger honce]
  simp only [repositoryRebindEvolution,hid,hlast,h.sole,toOption_eq_some.mpr h.read,hcurrent,
    toOption_eq_some.mpr h.revisions,h.document,h.last_spec hledger,Option.bind_eq_bind,Option.bind_some,decide_true,
    Bool.and_self,check,if_true]
  cases rebindSteps E (closeContracts R E K) db taskId lastEvent first rest <;> simp

end RebindChain

theorem rebindSteps_accepts {steps : List Json}
    (hids : ∀ spec ∈ before :: rest, spec.taskId = before.taskId)
    (h : rebindSteps E (closeContracts R E K) db before.taskId lastEvent before rest = some steps) :
    List.Forall₂ (fun pair step => ∃ p preview eventId, previewRebind R p E pair.1.spec = .ok preview ∧
      preview.spec = pair.2.spec ∧ step = stepDocument E.sha p eventId pair.1 pair.2 ∧
      ∀ q, Rebinds q pair.1.spec pair.2.spec → q = p) ((before :: rest).zip rest) steps := by
  induction rest generalizing before steps with
  | nil =>
    cases h
    exact .nil
  | cons after rest ih =>
    simp only [rebindSteps,Option.bind_eq_bind,Option.bind_eq_some_iff] at h
    obtain ⟨step,hstep,others,hothers,h⟩ := h
    cases h
    obtain ⟨p,preview,eventId,hp,hpreview,hspec,rfl,_⟩ := rebindStep_accepts hstep
    have hafter : after.taskId = before.taskId := hids after (by simp)
    have hrest := ih (fun spec hspec => (hids spec (List.mem_cons_of_mem _ hspec)).trans hafter.symm)
      (by rw [hafter]; exact hothers)
    exact .cons ⟨p,preview,eventId,hpreview,hspec,rfl,fun q hq => (parameters_unique hp hq).symm⟩ hrest

/-- Every accepted evolution is a chain of rebinds with the recorded parameters. -/
theorem evolution_accepts {claimed evidence : Json} {specSha256 : String}
    (h : repositoryRebindEvolution E (closeContracts R E K) db taskId claimed revision specSha256 lastEvent =
      some evidence) :
    ∃ baseline first rest steps, getRevision E.sha db taskId baseline = .ok first ∧ first.spec = claimed ∧
      collect (getRevision E.sha db taskId) (List.range' (baseline+1) (revision-baseline)) = .ok rest ∧
      evidence.get? "rebind_steps" = some (.arr steps) ∧
      List.Forall₂ (fun pair step => ∃ p preview eventId, previewRebind R p E pair.1.spec = .ok preview ∧
        preview.spec = pair.2.spec ∧ step = stepDocument E.sha p eventId pair.1 pair.2 ∧
        ∀ q, Rebinds q pair.1.spec pair.2.spec → q = p) ((first :: rest).zip rest) steps := by
  simp only [repositoryRebindEvolution,Option.bind_eq_bind,Option.bind_eq_some_iff,check_eq_some,Bool.and_eq_true,
    decide_eq_true_eq] at h
  obtain ⟨_,_,h⟩ := h
  split at h
  · rename_i baseline _
    simp only [Option.bind_eq_some_iff,check_eq_some,Bool.and_eq_true,decide_eq_true_eq] at h
    obtain ⟨first,hfirst,current,_,rest,hrest,_,⟨⟨⟨hclaimed,_⟩,_⟩,_⟩,steps,hsteps,h⟩ := h
    cases h
    have hread := toOption_eq_some.mp hfirst
    have hrest := toOption_eq_some.mp hrest
    have hid := (getRevision_taskId hread).1
    have hids : ∀ spec ∈ first :: rest, spec.taskId = first.taskId := by
      intro spec hspec
      rcases List.mem_cons.mp hspec with rfl | hspec
      · rfl
      · obtain ⟨_,_,hspecRead⟩ := exists_of_mem_collect hrest hspec
        exact (getRevision_taskId hspecRead).1.trans hid.symm
    exact ⟨baseline,first,rest,steps,hread,hclaimed,hrest,rfl,rebindSteps_accepts hids (by rw [hid]; exact hsteps)⟩
  · cases h

end Chain

theorem Action.eventOnce_of_reach {R : Rules} {E : Env} {K : Contracts} {db : Db}
    (h : Reach (Action.step R E K) (fun _ _ => True) (Db.fresh E.sha) db) : EventOnce db :=
  Action.reach_invariant (P := EventOnce) (fun _ _ heffect honce => honce.effect heffect) (eventOnce_fresh E.sha) h

end RepositoryRebind

open RepositoryRebind

/-- A chain of rebinds after the orphan event is recognised exactly if no revision of it has a second receipt.
What is recognised is a chain of rebinds, and the recorded parameters are those of the rebinds. -/
theorem rebind_chain_recognised_iff {R : Rules} {E : Env} {K : Contracts} {db : Db}
    (hreach : Reach (Action.step R E (closeContracts R E K)) (fun _ _ => True) (Db.fresh E.sha) db) (taskId : String)
    (claimed : Json) (orphanEvent : ℕ) :
    (∀ baseline first current rest, 1 ≤ orphanEvent →
      RebindChain R E db taskId claimed orphanEvent baseline first current rest →
      ((repositoryRebindEvolution E (closeContracts R E K) db taskId claimed current.revision current.specSha256
        orphanEvent).isSome = true ↔ SoleReceipts db taskId baseline)) ∧
    ∀ revision specSha256 evidence, repositoryRebindEvolution E (closeContracts R E K) db taskId claimed revision
        specSha256 orphanEvent = some evidence →
      ∃ baseline first rest steps, TaskSpecs.getRevision E.sha db taskId baseline = .ok first ∧ first.spec = claimed ∧
        collect (TaskSpecs.getRevision E.sha db taskId) (List.range' (baseline+1) (revision-baseline)) = .ok rest ∧
        evidence.get? "rebind_steps" = some (.arr steps) ∧
        List.Forall₂ (fun pair step => ∃ p preview eventId, previewRebind R p E pair.1.spec = .ok preview ∧
          preview.spec = pair.2.spec ∧ step = stepDocument E.sha p eventId pair.1 pair.2 ∧
          ∀ q, Rebinds q pair.1.spec pair.2.spec → q = p) ((first :: rest).zip rest) steps := by
  refine ⟨fun baseline first current rest horphan hchain => ?_,
    fun revision specSha256 evidence h => evolution_accepts h⟩
  exact hchain.evolution_iff (Action.specLedger_of_reach hreach) (Action.eventOnce_of_reach hreach) horphan

namespace Sample

/-- A stand-in for SHA-256 that looks at the number of bytes. -/
def byteSha : Sha := fun text =>
  match text.toByteArray.data.toList.length % 3 with
  | 0 => "1ef76c7a95b45f68f3d2886d91aad7f5c7993b8b5b8c73a41944651962ffddcb"
  | 1 => "8ef76c7a95b45f68f3d2886d91aad7f5c7993b8b5b8c73a41944651962ffddcb"
  | _ => "e3b0c44298fc1c149afbf4c8996fb92427ae41e4649b934ca495991b7852b855"

def movingEnv : Env := { env with sha := byteSha }

def movingContracts : Contracts := closeContracts rebindRules movingEnv contracts

def firstMove : RebindParameters := ⟨"repo.a","repo.b","/a","/bb"⟩

def secondMove : RebindParameters := ⟨"repo.b","repo.c","/bb","/ccc"⟩

def workingIn (path resource : String) : Json :=
  .obj [("claims",.arr [.obj [("mode",.str "write"),("resource",.str resource)]]),
    ("execution",.obj [("working_repository",.str path)]),("id",.str "T-1"),("initiative",.str "I-1"),
    ("state",.str "ready")]

def claimedRevision : TaskSpecs.CurrentSpec :=
  ⟨"T-1",1,none,TaskSpecs.taskSpecDigest byteSha (workingIn "/a" "repo.a"),workingIn "/a" "repo.a","operator"⟩

def reboundRevision (revision : ℕ) (path resource : String) : TaskSpecs.CurrentSpec :=
  ⟨"T-1",revision+1,some revision,TaskSpecs.taskSpecDigest byteSha (workingIn path resource),workingIn path resource,
    "repository-identity-rebind"⟩

def movedRevision : TaskSpecs.CurrentSpec := reboundRevision 1 "/bb" "repo.b"

def settledRevision : TaskSpecs.CurrentSpec := reboundRevision 2 "/ccc" "repo.c"

def rebindWrite (now : Time) (p : RebindParameters) (before after : TaskSpecs.CurrentSpec) : Action :=
  .write (.operate (.putTaskSpecMaterial now after.spec (writeKey byteSha p before after) (some before.revision)
    "repository-identity-rebind"))

def movedDb : Db := run (Action.step rebindRules movingEnv movingContracts) (Db.fresh byteSha)
  [.write (.operate (.putTaskSpecMaterial 1 claimedRevision.spec "put-1" none "operator")),
    rebindWrite 2 firstMove claimedRevision movedRevision]

def settledDb : Db := Action.step rebindRules movingEnv movingContracts movedDb
  (rebindWrite 3 secondMove movedRevision settledRevision)

/-- A put of the document that is current leaves a receipt and no revision. -/
def repeatedDb : Db := Action.step rebindRules movingEnv movingContracts movedDb
  (.write (.operate (.putTaskSpecMaterial 3 movedRevision.spec "put-2" (some 2) "operator")))

def showsStep (db : Db) (p : RebindParameters) (before after : TaskSpecs.CurrentSpec) : Bool :=
  (TaskSpecs.getRevision byteSha db "T-1" after.revision).toOption = some after &&
    (specEvents db before.taskId after.revision).contains
      (after.revision,TaskSpecs.revisionEventPayload after (writeKey byteSha p before after)) &&
    db.taskSpecMutations[writeKey byteSha p before after]? =
      some ⟨before.taskId,some before.revision,after.specSha256,after.revision⟩ &&
    (previewRebind rebindRules p movingEnv before.spec).toOption.any fun preview => preview.spec = after.spec

def showsChain (db : Db) (current : TaskSpecs.CurrentSpec) : Bool :=
  (TaskSpecs.getRevision byteSha db "T-1" 1).toOption = some claimedRevision &&
    (TaskSpecs.getCurrent byteSha db "T-1").toOption = some (some current) &&
    revisionsWithDigest db "T-1" claimedRevision.specSha256 current.revision = [1]

theorem written_of_shown {db : Db} {p : RebindParameters} {before : TaskSpecs.CurrentSpec} {path resource : String}
    (h : showsStep db p before (reboundRevision before.revision path resource) = true) (hid : before.taskId = "T-1")
    (hrevision : 1 ≤ before.revision) :
    WrittenByRebind rebindRules movingEnv db 1 p before (reboundRevision before.revision path resource) := by
  simp only [showsStep,Bool.and_eq_true,decide_eq_true_eq,Option.any_eq_true,toOption_eq_some,
    List.contains_iff_mem] at h
  obtain ⟨⟨⟨_,hevent⟩,hreceipt⟩,hpreview⟩ := h
  exact ⟨⟨hid.symm,rfl,rfl⟩,rfl,hpreview,⟨_,Nat.lt_succ_of_le hrevision,hevent⟩,hreceipt⟩

theorem revision_of_shown {db : Db} {p : RebindParameters} {before after : TaskSpecs.CurrentSpec}
    (h : showsStep db p before after = true) : TaskSpecs.getRevision byteSha db "T-1" after.revision = .ok after := by
  simp only [showsStep,Bool.and_eq_true,decide_eq_true_eq,toOption_eq_some] at h
  exact h.1.1.1

theorem movedChain {db : Db} (hchain : showsChain db movedRevision = true)
    (hstep : showsStep db firstMove claimedRevision movedRevision = true) :
    RebindChain rebindRules movingEnv db "T-1" claimedRevision.spec 1 1 claimedRevision movedRevision
      [movedRevision] := by
  simp only [showsChain,Bool.and_eq_true,decide_eq_true_eq,toOption_eq_some] at hchain
  obtain ⟨⟨hfirst,hcurrent⟩,hsole⟩ := hchain
  refine ⟨hfirst,rfl,hcurrent,by decide,?_,hsole,fun pair hpair => ?_⟩
  · exact collect_eq_ok.mpr (.cons (revision_of_shown hstep) .nil)
  · obtain rfl : pair = (claimedRevision,movedRevision) := by simpa using hpair
    exact ⟨firstMove,written_of_shown hstep rfl (by decide),_,rfl,rfl⟩

theorem settledChain {db : Db} (hchain : showsChain db settledRevision = true)
    (hfirst : showsStep db firstMove claimedRevision movedRevision = true)
    (hsecond : showsStep db secondMove movedRevision settledRevision = true) :
    RebindChain rebindRules movingEnv db "T-1" claimedRevision.spec 1 1 claimedRevision settledRevision
      [movedRevision,settledRevision] := by
  simp only [showsChain,Bool.and_eq_true,decide_eq_true_eq,toOption_eq_some] at hchain
  obtain ⟨⟨hclaimed,hcurrent⟩,hsole⟩ := hchain
  refine ⟨hclaimed,rfl,hcurrent,by decide,?_,hsole,fun pair hpair => ?_⟩
  · exact collect_eq_ok.mpr (.cons (revision_of_shown hfirst) (.cons (revision_of_shown hsecond) .nil))
  · have hpairs : pair = (claimedRevision,movedRevision) ∨ pair = (movedRevision,settledRevision) := by
      simpa using hpair
    rcases hpairs with rfl | rfl
    · exact ⟨firstMove,written_of_shown hfirst rfl (by decide),_,rfl,rfl⟩
    · exact ⟨secondMove,written_of_shown hsecond rfl (by decide),_,rfl,rfl⟩

theorem settled_shown : showsChain settledDb settledRevision = true ∧
    showsStep settledDb firstMove claimedRevision movedRevision = true ∧
    showsStep settledDb secondMove movedRevision settledRevision = true ∧
    (repositoryRebindEvolution movingEnv movingContracts settledDb "T-1" claimedRevision.spec 3
      settledRevision.specSha256 1).isSome = true := by
  decide +kernel

theorem repeated_shown : showsChain repeatedDb movedRevision = true ∧
    showsStep repeatedDb firstMove claimedRevision movedRevision = true ∧
    (repositoryRebindEvolution movingEnv movingContracts repeatedDb "T-1" claimedRevision.spec 2
      movedRevision.specSha256 1).isNone = true := by
  decide +kernel

end Sample

/-- A chain of two rebinds. -/
theorem rebind_chain_recognised_moved : SoleReceipts Sample.settledDb "T-1" 1 := by
  have hreach : Reach (Action.step Sample.rebindRules Sample.movingEnv Sample.movingContracts) (fun _ _ => True)
      (Db.fresh Sample.movingEnv.sha) Sample.settledDb := (Reach.run fun _ _ _ => trivial).step trivial
  obtain ⟨hchain,hfirst,hsecond,hsome⟩ := Sample.settled_shown
  have hiff := (rebind_chain_recognised_iff hreach "T-1" Sample.claimedRevision.spec 1).1 1 _ _ _ (Nat.le_refl 1)
    (Sample.settledChain hchain hfirst hsecond)
  exact hiff.mp hsome

/-- The one step of the chain was written by the rebind writer after the event. A later put of the same document
left a second receipt of its revision, and the chain is not recognised any more. -/
theorem rebind_chain_unrecognised : RebindChain Sample.rebindRules Sample.movingEnv Sample.repeatedDb "T-1"
      Sample.claimedRevision.spec 1 1 Sample.claimedRevision Sample.movedRevision [Sample.movedRevision] ∧
    repositoryRebindEvolution Sample.movingEnv Sample.movingContracts Sample.repeatedDb "T-1"
      Sample.claimedRevision.spec 2 Sample.movedRevision.specSha256 1 = none :=
  ⟨Sample.movedChain Sample.repeated_shown.1 Sample.repeated_shown.2.1,
    Option.isNone_iff_eq_none.mp Sample.repeated_shown.2.2⟩

end Bureau
