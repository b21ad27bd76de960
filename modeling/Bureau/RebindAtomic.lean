import Bureau.RepositoryRebind

/-!
A rebind is all or nothing. Each round of `apply_plan` puts one TaskSpec and leaves the other tasks
alone; a put that set no revision would leave its task bound to the old repository, which the check
after the last round refuses. The receipts of a plan that was applied keep it from being applied again.
-/

namespace Bureau

open Transactions TaskSpecs
open Relation (ReflTransGen)

namespace RepositoryRebind

@[simp] theorem sameSet_iff {left right : List String} : sameSet left right = true ↔ ∀ id, id ∈ left ↔ id ∈ right := by
  simp only [sameSet,Bool.and_eq_true,List.all_eq_true,List.contains_iff_mem]
  constructor
  · rintro ⟨hleft,hright⟩ id
    exact ⟨hleft id,hright id⟩
  · intro h
    exact ⟨fun id => (h id).mp,fun id => (h id).mpr⟩

/-! The candidates. -/

section Candidates

variable {R : Rules} {p : RebindParameters} {E : Env} {registry : Registry} {db db' : Db} {found : List TaskRow}
  {row : TaskRow} {id : String}

theorem taskRow_eq_some (h : taskRow E registry db id = .ok (some row)) :
    row.taskId = id ∧ ∃ pointer stored, db.taskSpecs[id]? = some pointer ∧
      db.revision? id pointer.currentRevision = some stored ∧ row.revision = pointer.currentRevision ∧
      row.specSha256 = stored.specSha256 ∧ row.spec = stored.spec := by
  unfold taskRow at h
  cases hpointer : db.taskSpecs[id]? with
  | none => simp [hpointer] at h
  | some pointer =>
    simp only [hpointer] at h
    cases hstored : db.revision? id pointer.currentRevision with
    | none => simp [hstored] at h
    | some stored =>
      simp only [hstored,steps_ok,Option.some.injEq] at h
      obtain ⟨_,_,_,_,rfl⟩ := h
      exact ⟨rfl,pointer,stored,rfl,hstored,rfl,rfl,rfl⟩

theorem taskRow_congr (hpointer : db'.taskSpecs[id]? = db.taskSpecs[id]?)
    (hrevisions : db'.taskSpecRevisions[id]? = db.taskSpecRevisions[id]?) (hstatus : db'.taskStatus = db.taskStatus) :
    taskRow E registry db' id = taskRow E registry db id := by
  simp only [taskRow,rowState,Db.revision?,hpointer,hrevisions,hstatus]

theorem candidate_of_live {kept : Option TaskRow} (hlive : row.live = true) (h : candidate R p row = .ok kept) :
    ((oldBindingResidue R p "" row.spec).isEmpty || hasOldBinding R p row.spec) = true ∧
      kept = if hasOldBinding R p row.spec = true then some row else none := by
  unfold candidate at h
  rw [hlive,if_neg (by simp)] at h
  simp only [steps_ok] at h
  obtain ⟨_,hsupported,hkept⟩ := h
  exact ⟨hsupported,hkept.symm⟩

theorem candidate_eq_some {other : TaskRow} (h : candidate R p row = .ok (some other)) :
    other = row ∧ row.live = true ∧ hasOldBinding R p row.spec = true := by
  by_cases hlive : row.live = true
  · obtain ⟨_,hkept⟩ := candidate_of_live hlive h
    by_cases hbinding : hasOldBinding R p row.spec = true
    · rw [if_pos hbinding,Option.some.injEq] at hkept
      exact ⟨hkept,hlive,hbinding⟩
    · rw [if_neg hbinding] at hkept
      cases hkept
  · simp [candidate,hlive] at h

theorem mem_candidates (h : candidates R p E registry db = .ok found) (hrow : row ∈ found) :
    taskRow E registry db row.taskId = .ok (some row) ∧ row.live = true ∧ hasOldBinding R p row.spec = true := by
  simp only [candidates,taskRows,steps_ok] at h
  obtain ⟨rows,⟨read,hread,rfl⟩,kept,hkept,rfl⟩ := h
  obtain ⟨source,hsource,hcandidate⟩ := exists_of_mem_collect hkept (List.reduceOption_mem_iff.mp hrow)
  obtain ⟨rfl,hlive,hbinding⟩ := candidate_eq_some hcandidate
  obtain ⟨item,_,hitem⟩ := exists_of_mem_collect hread (List.reduceOption_mem_iff.mp hsource)
  have hid := (taskRow_eq_some hitem).1
  rw [← hid] at hitem
  exact ⟨hitem,hlive,hbinding⟩

theorem candidate_of_taskRow (h : candidates R p E registry db = .ok found)
    (hrow : taskRow E registry db id = .ok (some row)) :
    ∃ kept, candidate R p row = .ok kept ∧ ∀ other, kept = some other → other ∈ found := by
  simp only [candidates,taskRows,steps_ok] at h
  obtain ⟨rows,⟨read,hread,rfl⟩,kept,hkept,rfl⟩ := h
  obtain ⟨_,pointer,_,hpointer,_⟩ := taskRow_eq_some hrow
  have hlisted : (id,pointer) ∈ db.taskSpecs.toList := Std.ExtTreeMap.mem_toList_iff_getElem?_eq_some.mpr hpointer
  obtain ⟨value,hvalue,hsame⟩ := exists_of_collect hread hlisted
  obtain rfl : some row = value := Except.ok.inj (hrow.symm.trans hsame)
  obtain ⟨result,hresult,hcandidate⟩ := exists_of_collect hkept (List.reduceOption_mem_iff.mpr hvalue)
  refine ⟨result,hcandidate,fun other hother => ?_⟩
  exact List.reduceOption_mem_iff.mpr (hother ▸ hresult)

theorem mem_of_hasOldBinding (h : candidates R p E registry db = .ok found)
    (hrow : taskRow E registry db id = .ok (some row)) (hlive : row.live = true)
    (hbinding : hasOldBinding R p row.spec = true) : row ∈ found := by
  obtain ⟨kept,hkept,hmem⟩ := candidate_of_taskRow h hrow
  have hsome := (candidate_of_live hlive hkept).2
  rw [if_pos hbinding] at hsome
  exact hmem row hsome

theorem unbound_of_not_mem (h : candidates R p E registry db = .ok found)
    (hrow : taskRow E registry db id = .ok (some row)) (hlive : row.live = true)
    (hnot : id ∉ found.map (·.taskId)) :
    hasOldBinding R p row.spec = false ∧ oldBindingResidue R p "" row.spec = [] := by
  have hbinding : hasOldBinding R p row.spec = false := by
    by_contra hne
    have hmem := mem_of_hasOldBinding h hrow hlive (by simpa using hne)
    exact hnot (List.mem_map.mpr ⟨row,hmem,(taskRow_eq_some hrow).1⟩)
  obtain ⟨kept,hkept,_⟩ := candidate_of_taskRow h hrow
  have hresidue := (candidate_of_live hlive hkept).1
  rw [hbinding,Bool.or_false,List.isEmpty_iff] at hresidue
  exact ⟨hbinding,hresidue⟩

end Candidates

/-! What one round changes. -/

/-- The store outside the TaskSpecs of some tasks is as before; the journal only grows. -/
structure Frame (db db' : Db) (ids : List String) : Prop where
  pointers : ∀ id, id ∉ ids → db'.taskSpecs[id]? = db.taskSpecs[id]?
  revisions : ∀ id, id ∉ ids → db'.taskSpecRevisions[id]? = db.taskSpecRevisions[id]?
  tables : (db'.workers,db'.runs,db'.reservations,db'.taskStatus,db'.initiativeStatus,db'.receipts,db'.workspaces) =
    (db.workers,db.runs,db.reservations,db.taskStatus,db.initiativeStatus,db.receipts,db.workspaces)
  journal : ∃ rows, db'.events = db.events ++ rows

section Frame

variable {db mid db' : Db} {ids others : List String} {id : String} {sha : Sha}

theorem Frame.refl (db : Db) (ids : List String) : Frame db db ids :=
  ⟨fun _ _ => rfl,fun _ _ => rfl,rfl,[],(List.append_nil _).symm⟩

theorem Frame.trans (h : Frame db mid ids) (h' : Frame mid db' others) : Frame db db' (ids ++ others) := by
  obtain ⟨rows,hrows⟩ := h.journal
  obtain ⟨rows',hrows'⟩ := h'.journal
  refine ⟨fun id hid => ?_,fun id hid => ?_,h'.tables.trans h.tables,rows ++ rows',?_⟩
  · rw [List.mem_append,not_or] at hid
    exact (h'.pointers id hid.2).trans (h.pointers id hid.1)
  · rw [List.mem_append,not_or] at hid
    exact (h'.revisions id hid.2).trans (h.revisions id hid.1)
  · rw [hrows',hrows,List.append_assoc]

theorem Frame.congr (h : Frame db db' ids) (hsame : ∀ id, id ∈ ids ↔ id ∈ others) : Frame db db' others :=
  ⟨fun id hid => h.pointers id (mt (hsame id).mp hid),fun id hid => h.revisions id (mt (hsame id).mp hid),h.tables,
    h.journal⟩

theorem Frame.taskStatus (h : Frame db db' ids) : db'.taskStatus = db.taskStatus :=
  congrArg (fun tables => tables.2.2.2.1) h.tables

theorem getCurrent_of_same (hpointer : db'.taskSpecs[id]? = db.taskSpecs[id]?)
    (hrevisions : db'.taskSpecRevisions[id]? = db.taskSpecRevisions[id]?) :
    getCurrent sha db' id = getCurrent sha db id := by
  simp only [getCurrent,getRevision,revisionRow,hpointer,hrevisions]

theorem Frame.getCurrent (h : Frame db db' ids) (hid : id ∉ ids) :
    getCurrent sha db' id = getCurrent sha db id :=
  getCurrent_of_same (h.pointers id hid) (h.revisions id hid)

end Frame

theorem frame_of_put {sha : Sha} {now : Time} {db db' : Db} {spec : Json} {key source taskId : String}
    {expected : Option ℕ} {result : PutResult}
    (h : PutEffect sha now db spec key expected source result db')
    (hid : canonicalSpecId spec = .ok taskId) : Frame db db' [taskId] := by
  cases h with
  | replay => exact Frame.refl _ _
  | known => exact ⟨fun _ _ => rfl,fun _ _ => rfl,rfl,[],(List.append_nil _).symm⟩
  | @set next document origin successor write =>
    obtain rfl : next.taskId = taskId := by
      have hnext := successor.id
      rw [document,hid] at hnext
      exact (Except.ok.inj hnext).symm
    refine ⟨fun id hne => ?_,fun id hne => ?_,rfl,_,rfl⟩
    · exact Tables.get_insert_ne _ _ (List.mem_singleton.not.mp hne)
    · exact Tables.get_insert_ne _ _ (List.mem_singleton.not.mp hne)

section Rounds

variable {R : Rules} {p : RebindParameters} {E : Env} {registry : Registry} {now : Time} {found : List TaskRow}
  {db db' : Db} {item : Item}

def Snapshot (sha : Sha) (found : List TaskRow) (db : Db) (item : Item) : Prop :=
  ∀ row, row? found item.taskId = some row → TaskSpecs.canonicalSpecId row.spec = .ok item.taskId ∧
    ∃ current, TaskSpecs.getCurrent sha db item.taskId = .ok (some current) ∧ current.revision = row.revision ∧
      current.specSha256 = row.specSha256 ∧ current.spec = row.spec

def Baseline (sha : Sha) (db : Db) (item : Item) : Prop :=
  ∃ before, TaskSpecs.getCurrent sha db item.taskId = .ok (some before) ∧
    before.revision = item.expectedRevision ∧ before.specSha256 = item.expectedSpecSha256

def Moved (sha : Sha) (db' : Db) (item : Item) : Prop :=
  ∃ after, TaskSpecs.getCurrent sha db' item.taskId = .ok (some after) ∧
    after.revision = item.expectedRevision+1 ∧ after.specSha256 = item.resultingSpecSha256

def Stuck (db db' : Db) (item : Item) : Prop :=
  db'.taskSpecs[item.taskId]? = db.taskSpecs[item.taskId]? ∧
    db'.taskSpecRevisions[item.taskId]? = db.taskSpecRevisions[item.taskId]?

theorem previewRebind_id {spec : Json} {preview : Preview} {taskId : String}
    (hid : canonicalSpecId spec = .ok taskId) (h : previewRebind R p E spec = .ok preview) :
    canonicalSpecId preview.spec = .ok taskId ∧
      preview.specSha256 = taskSpecDigest E.sha preview.spec := by
  have hset (claims execution : Json) :
      canonicalSpecId ((spec.set "claims" claims).set "execution" execution) = .ok taskId := by
    simp only [canonicalSpecId,Json.getStr?,Json.isObj_set] at hid ⊢
    rwa [Json.get?_set_ne _ _ (by decide),Json.get?_set_ne _ _ (by decide)]
  simp only [previewRebind,steps_ok] at h
  obtain ⟨_,_,_,_,_,_,claims,_,h⟩ := h
  split at h
  · simp only [steps_ok] at h
    obtain ⟨_,_,execution,_,h⟩ := h
    split at h
    · simp only [steps_ok] at h
      obtain ⟨_,rfl,_,_,_,_,_,_,_,_,rfl⟩ := h
      exact ⟨hset _ _,rfl⟩
    · simp only [steps_ok] at h
      obtain ⟨_,rfl,_,_,_,_,_,_,_,_,rfl⟩ := h
      exact ⟨hset _ _,rfl⟩
    · simp only [steps_ok] at h
      obtain ⟨⟨items,paths⟩,_,_,rfl,_,_,_,_,_,_,_,_,rfl⟩ := h
      exact ⟨hset _ _,rfl⟩
    · simp [stateError,bind_eq_ok] at h
  · simp [stateError] at h

theorem applyItem_eq_ok (hsnapshot : Snapshot E.sha found db item) (h : applyItem R p E now found db item = .ok db') :
    ∃ current preview result, getCurrent E.sha db item.taskId = .ok (some current) ∧
      current.revision = item.expectedRevision ∧ current.specSha256 = item.expectedSpecSha256 ∧
      previewRebind R p E current.spec = .ok preview ∧ canonicalSpecId preview.spec = .ok item.taskId ∧
      taskSpecDigest E.sha preview.spec = item.resultingSpecSha256 ∧
      putValidatedMaterial E.sha now db preview.spec item.idempotencyKey (some item.expectedRevision)
        "repository-identity-rebind" = .ok (result,db') := by
  simp only [applyItem,steps_ok,Bool.and_eq_true,decide_eq_true_eq] at h
  obtain ⟨row,hrow,_,⟨hrevision,hdigest⟩,preview,hpreview,_,⟨⟨⟨hresult,_⟩,_⟩,_⟩,⟨result,_⟩,hput,rfl⟩ := h
  obtain ⟨hid,current,hcurrent,hsame,hsha,hspec⟩ := hsnapshot row hrow
  obtain ⟨hpreviewId,hpreviewSha⟩ := previewRebind_id hid hpreview
  exact ⟨current,preview,result,hcurrent,hsame.trans hrevision,hsha.trans hdigest,by rw [hspec]; exact hpreview,
    hpreviewId,hpreviewSha.symm.trans hresult,hput⟩

structure Round (sha : Sha) (db db' : Db) (item : Item) : Prop where
  baseline : Baseline sha db item
  frame : Frame db db' [item.taskId]
  effect : SpecEffect sha db db'
  receipt : ∃ mutation, db'.taskSpecMutations[item.idempotencyKey]? = some mutation ∧ mutation.taskId = item.taskId
  others : ∀ key, key ≠ item.idempotencyKey → db'.taskSpecMutations[key]? = db.taskSpecMutations[key]?
  outcome : Moved sha db' item ∨ Stuck db db' item

theorem applyItem_round (hledger : db.SpecLedger E.sha) (hsnapshot : Snapshot E.sha found db item)
    (hfresh : ∀ mutation, db.taskSpecMutations[item.idempotencyKey]? = some mutation → mutation.taskId ≠ item.taskId)
    (h : applyItem R p E now found db item = .ok db') : Round E.sha db db' item := by
  obtain ⟨current,preview,result,hcurrent,hrevision,hbefore,_,hid,hdigest,hput⟩ := applyItem_eq_ok hsnapshot h
  have heffect := putValidatedMaterial_effect hput
  have hrecorded := heffect.recorded hledger
  have htask : result.current.taskId = item.taskId := Except.ok.inj (hrecorded.id.symm.trans hid)
  refine ⟨⟨current,hcurrent,hrevision,hbefore⟩,frame_of_put heffect hid,heffect.specEffect,⟨_,hrecorded.receipt,htask⟩,
    fun key hkey => heffect.mutations hkey,?_⟩
  cases heffect with
  | @replay taskId mutation _ spec known read =>
    simp only [replayMutation,steps_ok,Bool.and_eq_true,decide_eq_true_eq] at read
    obtain ⟨_,⟨⟨hmutation,_⟩,_⟩,_⟩ := read
    have hsame : taskId = item.taskId := Except.ok.inj (spec.symm.trans hid)
    exact absurd (hmutation.trans hsame) (hfresh mutation known)
  | known => exact .inr ⟨rfl,rfl⟩
  | @set next document origin successor write =>
    have hnext : next.taskId = item.taskId := htask
    left
    refine ⟨next,?_,?_,?_⟩
    · rw [getCurrent_setRevision successor,if_pos hnext.symm]
    · obtain ⟨before,hread,hsucc⟩ := successor.current
      rw [hnext,hcurrent,Except.ok.injEq] at hread
      subst hread
      rw [hsucc,Option.map_some,Option.getD_some,hrevision]
    · rw [successor.digest,document,hdigest]

theorem Snapshot.kept (h : Snapshot E.sha found db item) {ids : List String} (hframe : Frame db db' ids)
    (hid : item.taskId ∉ ids) : Snapshot E.sha found db' item := by
  intro row hrow
  rw [hframe.getCurrent hid]
  exact h row hrow

theorem applyItem_known {key : String} (h : applyItem R p E now found db item = .ok db')
    (hknown : (db.taskSpecMutations[key]?).isSome = true) : (db'.taskSpecMutations[key]?).isSome = true := by
  simp only [applyItem,steps_ok] at h
  obtain ⟨_,_,_,_,_,_,_,_,⟨result,_⟩,hput,rfl⟩ := h
  rw [(putValidatedMaterial_effect hput).specEffect.mutation_kept hknown]
  exact hknown

theorem applyItems_known {items : List Item} {key : String}
    (h : items.foldlM (applyItem R p E now found) db = .ok db')
    (hknown : (db.taskSpecMutations[key]?).isSome = true) : (db'.taskSpecMutations[key]?).isSome = true := by
  induction items generalizing db with
  | nil =>
    obtain rfl := Except.ok.inj h
    exact hknown
  | cons first rest ih =>
    simp only [List.foldlM_cons,bind_eq_ok] at h
    obtain ⟨mid,hfirst,hrest⟩ := h
    exact ih hrest (applyItem_known hfirst hknown)

theorem applyItems_rounds {items : List Item} (hnodup : (items.map (·.taskId)).Nodup)
    (hledger : db.SpecLedger E.sha) (hsnapshot : ∀ item ∈ items, Snapshot E.sha found db item)
    (hfresh : ∀ item ∈ items, ∀ mutation,
      db.taskSpecMutations[item.idempotencyKey]? = some mutation → mutation.taskId ≠ item.taskId)
    (h : items.foldlM (applyItem R p E now found) db = .ok db') :
    Frame db db' (items.map (·.taskId)) ∧ ∀ item ∈ items, Baseline E.sha db item ∧
      (db'.taskSpecMutations[item.idempotencyKey]?).isSome = true ∧ (Moved E.sha db' item ∨ Stuck db db' item) := by
  induction items generalizing db with
  | nil =>
    obtain rfl := Except.ok.inj h
    exact ⟨Frame.refl _ _,by simp⟩
  | cons first rest ih =>
    simp only [List.foldlM_cons,bind_eq_ok] at h
    obtain ⟨mid,hfirst,hrest⟩ := h
    rw [List.map_cons,List.nodup_cons] at hnodup
    have hround := applyItem_round hledger (hsnapshot first List.mem_cons_self)
      (hfresh first List.mem_cons_self) hfirst
    have hother (item : Item) (hitem : item ∈ rest) : item.taskId ≠ first.taskId := by
      intro hsame
      exact hnodup.1 (hsame ▸ List.mem_map_of_mem hitem)
    have hotherId (item : Item) (hitem : item ∈ rest) : item.taskId ∉ [first.taskId] :=
      List.mem_singleton.not.mpr (hother item hitem)
    have hfreshRest : ∀ item ∈ rest, ∀ mutation,
        mid.taskSpecMutations[item.idempotencyKey]? = some mutation → mutation.taskId ≠ item.taskId := by
      intro item hitem mutation hmutation
      by_cases hkey : item.idempotencyKey = first.idempotencyKey
      · obtain ⟨written,hwritten,htask⟩ := hround.receipt
        rw [hkey,hwritten,Option.some.injEq] at hmutation
        subst hmutation
        rw [htask]
        exact (hother item hitem).symm
      · rw [hround.others _ hkey] at hmutation
        exact hfresh item (List.mem_cons_of_mem _ hitem) mutation hmutation
    obtain ⟨hframe,hitems⟩ := ih hnodup.2 (hledger.effect hround.effect)
      (fun item hitem => (hsnapshot item (List.mem_cons_of_mem _ hitem)).kept hround.frame (hotherId item hitem))
      hfreshRest hrest
    refine ⟨hround.frame.trans hframe,fun item hitem => ?_⟩
    rcases List.mem_cons.mp hitem with rfl | hitem
    · -- the later rounds leave the first task alone
      have hlater : item.taskId ∉ rest.map (·.taskId) := hnodup.1
      refine ⟨hround.baseline,?_,?_⟩
      · obtain ⟨written,hwritten,_⟩ := hround.receipt
        exact applyItems_known hrest (by simp [hwritten])
      · rcases hround.outcome with ⟨after,hafter,hfacts⟩ | ⟨hpointer,hrevisions⟩
        · exact .inl ⟨after,(hframe.getCurrent hlater).trans hafter,hfacts⟩
        · exact .inr ⟨(hframe.pointers _ hlater).trans hpointer,(hframe.revisions _ hlater).trans hrevisions⟩
    · obtain ⟨⟨before,hread,hbefore⟩,hknown,houtcome⟩ := hitems item hitem
      rw [hround.frame.getCurrent (hotherId item hitem)] at hread
      refine ⟨⟨before,hread,hbefore⟩,hknown,houtcome.imp_right fun hstuck => ?_⟩
      exact ⟨hstuck.1.trans (hround.frame.pointers _ (hotherId item hitem)),
        hstuck.2.trans (hround.frame.revisions _ (hotherId item hitem))⟩

end Rounds

/-! The application of a plan. -/

section Application

variable {R : Rules} {E : Env} {K : Contracts} {call : Call} {db db' : Db} {found : List TaskRow} {status : Status}

variable {p : RebindParameters} {plan : Plan} {receipts : List (Option (TaskSpecMutation × CurrentSpec))}
    {active : List (String × RunRow)}

theorem snapshot_of_candidates {registry : Registry} (hledger : db.SpecLedger E.sha)
    (h : candidates R p E registry db = .ok found) (item : Item) : Snapshot E.sha found db item := by
  intro row hrow
  have hid : row.taskId = item.taskId := by simpa using List.find?_some hrow
  obtain ⟨htask,_,_⟩ := mem_candidates h (List.mem_of_find?_eq_some hrow)
  rw [hid] at htask
  obtain ⟨_,pointer,stored,hpointer,hstored,hrevision,hdigest,hspec⟩ := taskRow_eq_some htask
  have hread : db.currentRevision item.taskId = pointer.currentRevision := by simp [Db.currentRevision,hpointer]
  have hcurrent := hledger.getCurrent_eq item.taskId
  rw [hread,hstored,Option.map_some] at hcurrent
  refine ⟨?_,_,hcurrent,hrevision.symm,hdigest.symm,hspec.symm⟩
  rw [hspec]
  exact (getCurrent_eq_some hcurrent).2.2.2.2

theorem checkPlan_eq_ok (h : checkPlan R E K call = .ok ()) :
    call.plan.taskIds.Nodup ∧ ∀ id ∈ call.plan.excludedIds, id ∉ call.plan.taskIds := by
  simp only [checkPlan,validatePlan,steps_ok,Bool.and_eq_true,decide_eq_true_eq] at h
  obtain ⟨_,⟨_,_,_,_,_,_,_,_,_,_,_,_,_,_,_,_,_,_,_,_,_,_,_,_,_,_,_,⟨hnodup,_⟩,_,hdisjoint,_⟩,_⟩ := h
  refine ⟨hnodup,fun id hexcluded hplanned => ?_⟩
  simp only [Bool.not_eq_true',List.any_eq_false,List.contains_iff_mem] at hdisjoint
  exact hdisjoint id hplanned hexcluded

theorem getMutationReceipt_isSome {sha : Sha} {key : String} {receipt : Option (TaskSpecMutation × CurrentSpec)}
    (h : getMutationReceipt sha db key = .ok receipt) :
    receipt.isSome = (db.taskSpecMutations[key]?).isSome := by
  simp only [getMutationReceipt,bind_eq_ok] at h
  obtain ⟨_,_,h⟩ := h
  split at h
  · rename_i hnone
    obtain rfl := Except.ok.inj h
    simp [hnone]
  · rename_i mutation hmutation
    simp only [steps_ok] at h
    obtain ⟨_,_,_,_,_,_,_,_,_,_,_,_,rfl⟩ := h
    simp [hmutation]

def Recorded (plan : Plan) (db : Db) : Prop :=
  ∀ item ∈ plan.items, (db.taskSpecMutations[item.idempotencyKey]?).isSome = true

theorem recorded_iff
    (h : collect (fun item : Item => getMutationReceipt E.sha db item.idempotencyKey) plan.items = .ok receipts) :
    receipts.reduceOption.length = plan.items.length ↔ Recorded plan db := by
  have hlength : receipts.length = plan.items.length := (collect_eq_ok.mp h).length_eq.symm
  rw [← hlength,List.reduceOption_length_eq_iff]
  constructor
  · intro hall item hitem
    obtain ⟨receipt,hreceipt,hread⟩ := exists_of_collect h hitem
    rw [← getMutationReceipt_isSome hread]
    exact hall receipt hreceipt
  · intro hrecorded receipt hreceipt
    obtain ⟨item,hitem,hread⟩ := exists_of_mem_collect h hreceipt
    rw [getMutationReceipt_isSome hread]
    exact hrecorded item hitem

theorem unrecorded_of_length
    (h : collect (fun item : Item => getMutationReceipt E.sha db item.idempotencyKey) plan.items = .ok receipts)
    (hnone : receipts.reduceOption.length = 0) :
    ∀ item ∈ plan.items, db.taskSpecMutations[item.idempotencyKey]? = none := by
  intro item hitem
  obtain ⟨receipt,hreceipt,hread⟩ := exists_of_collect h hitem
  rw [← Option.not_isSome_iff_eq_none,← getMutationReceipt_isSome hread]
  intro hsome
  obtain ⟨value,rfl⟩ := Option.isSome_iff_exists.mp hsome
  have hmem := List.reduceOption_mem_iff.mpr hreceipt
  rw [List.length_eq_zero_iff.mp hnone] at hmem
  simp at hmem

theorem applyPlan_eq_ok (h : applyPlan R E K call db = .ok (status,db')) :
    checkPlan R E K call = .ok () ∧ ∃ found, candidates R call.plan.parameters E call.registry db = .ok found ∧
      ((status = .alreadyApplied ∧ db' = db ∧ Recorded call.plan db ∧
          ∀ id, id ∈ found.map (·.taskId) ↔ id ∈ call.plan.excludedIds) ∨
        (status = .applied ∧ ¬ Recorded call.plan db ∧
          (∀ item ∈ call.plan.items, db.taskSpecMutations[item.idempotencyKey]? = none) ∧
          ∃ active, applyFresh R E call found active db = .ok db')) := by
  simp only [applyPlan,steps_ok,Bool.or_eq_true,decide_eq_true_eq] at h
  obtain ⟨_,hcheck,receipts,hreceipts,_,hcount,h⟩ := h
  refine ⟨hcheck,?_⟩
  by_cases hall : receipts.reduceOption.length = call.plan.items.length
  · have hrecorded := (recorded_iff hreceipts).mp hall
    simp only [hall,ne_eq,not_true,ite_false,ite_true,steps_ok,Prod.mk.injEq] at h
    obtain ⟨found,hfound,_,_,_,_,_,hsame,_,_,rfl,rfl⟩ := h
    exact ⟨found,hfound,.inl ⟨rfl,rfl,hrecorded,sameSet_iff.mp hsame⟩⟩
  · have hunrecorded := fun hrecorded => hall ((recorded_iff hreceipts).mpr hrecorded)
    have hnone := unrecorded_of_length hreceipts (hcount.resolve_right hall)
    simp only [hall,ne_eq,not_false_eq_true,ite_true,ite_false,steps_ok,Prod.mk.injEq] at h
    obtain ⟨_,_,found,hfound,active,_,_,_,_,hfresh,rfl,rfl⟩ := h
    exact ⟨found,hfound,.inr ⟨rfl,hunrecorded,hnone,active,hfresh⟩⟩

theorem applyPlan_recorded (hrecorded : Recorded call.plan db) (h : applyPlan R E K call db = .ok (status,db')) :
    db' = db := by
  obtain ⟨_,_,_,⟨_,hsame,_⟩ | ⟨_,hunrecorded,_⟩⟩ := applyPlan_eq_ok h
  · exact hsame
  · exact absurd hrecorded hunrecorded

theorem applyFresh_eq_ok (h : applyFresh R E call found active db = .ok db') :
    (∀ id ∈ call.plan.taskIds, id ∈ found.map (·.taskId)) ∧
      call.plan.ordered.foldlM (applyItem R call.plan.parameters E call.now found) db = .ok db' ∧
      ∃ remaining, candidates R call.plan.parameters E call.registry db' = .ok remaining ∧
        ∀ id, id ∈ remaining.map (·.taskId) ↔ id ∈ call.plan.excludedIds := by
  simp only [applyFresh,steps_ok] at h
  obtain ⟨_,hfound,_,_,_,_,_,_,written,hwritten,remaining,hremaining,_,hexcluded,_,_,rfl⟩ := h
  refine ⟨fun id hid => ?_,hwritten,remaining,hremaining,sameSet_iff.mp hexcluded⟩
  exact (sameSet_iff.mp hfound id).mpr (List.mem_append_left _ hid)

@[simp] theorem mem_ordered {item : Item} : item ∈ plan.ordered ↔ item ∈ plan.items :=
  (List.mergeSort_perm _ _).mem_iff

theorem ordered_taskIds (plan : Plan) : (plan.ordered.map (·.taskId)).Perm plan.taskIds :=
  (List.mergeSort_perm _ _).map _

theorem advanced_of_applyFresh (hledger : db.SpecLedger E.sha)
    (hplan : checkPlan R E K call = .ok ())
    (hfound : candidates R call.plan.parameters E call.registry db = .ok found)
    (hnone : ∀ item ∈ call.plan.items, db.taskSpecMutations[item.idempotencyKey]? = none)
    (h : applyFresh R E call found active db = .ok db') :
    Frame db db' call.plan.taskIds ∧ Recorded call.plan db' ∧
      ∀ item ∈ call.plan.items, Baseline E.sha db item ∧ Moved E.sha db' item := by
  obtain ⟨hnodup,hdisjoint⟩ := checkPlan_eq_ok hplan
  obtain ⟨hplanned,hwritten,remaining,hremaining,hexcluded⟩ := applyFresh_eq_ok h
  have hperm := ordered_taskIds call.plan
  obtain ⟨hframe,hitems⟩ := applyItems_rounds (hperm.nodup_iff.mpr hnodup) hledger
    (fun item _ => snapshot_of_candidates hledger hfound item)
    (fun item hitem mutation hmutation => by simp [hnone item (mem_ordered.mp hitem)] at hmutation) hwritten
  refine ⟨hframe.congr fun id => hperm.mem_iff,fun item hitem => (hitems item (mem_ordered.mpr hitem)).2.1,
    fun item hitem => ?_⟩
  have hid : item.taskId ∈ call.plan.taskIds := List.mem_map_of_mem hitem
  obtain ⟨row,hrow,hrowId⟩ := List.mem_map.mp (hplanned _ hid)
  obtain ⟨htask,hlive,hbinding⟩ := mem_candidates hfound hrow
  rw [hrowId] at htask
  obtain ⟨hbaseline,_,hmoved | ⟨hpointer,hrevisions⟩⟩ := hitems item (mem_ordered.mpr hitem)
  · exact ⟨hbaseline,hmoved⟩
  · -- the row is as it was, so the task is still a candidate and no excluded one
    have hafter := (taskRow_congr hpointer hrevisions hframe.taskStatus).trans htask
    have hmem := mem_of_hasOldBinding hremaining hafter hlive hbinding
    have hleft := (hexcluded item.taskId).mp (List.mem_map.mpr ⟨row,hmem,hrowId⟩)
    exact absurd hid (hdisjoint _ hleft)

theorem applyItems_puts {now : Time} {items : List Item}
    (h : items.foldlM (applyItem R p E now found) db = .ok db') : ReflTransGen (Puts E.sha) db db' := by
  refine reflTransGen_of_foldlM id ?_ h
  intro before item after hround
  simp only [applyItem,steps_ok] at hround
  obtain ⟨_,_,_,_,_,_,_,_,⟨result,written⟩,hput,rfl⟩ := hround
  exact Puts.of_ok hput

theorem applyPlan_puts (h : applyPlan R E K call db = .ok (status,db')) : ReflTransGen (Puts E.sha) db db' := by
  obtain ⟨_,_,_,⟨_,rfl,_⟩ | ⟨_,_,_,_,hfresh⟩⟩ := applyPlan_eq_ok h
  · exact .refl
  · exact applyItems_puts (applyFresh_eq_ok hfresh).2.1

end Application

/-! Rebinds among the other writers. -/

/-- The transactions that change TaskSpecs, with the rebind as `apply_plan` makes it. -/
inductive Action where
  | write (writer : Writer)
  | applyPlan (call : Call)

def Action.step (R : Rules) (E : Env) (K : Contracts) (db : Db) : Action → Db
  | .write writer => writer.step E K db
  | .applyPlan call => commit db ((RepositoryRebind.applyPlan R E K call db).map Prod.snd)

section Runs

variable {R : Rules} {E : Env} {K : Contracts} {start db : Db}

theorem Action.step_of_ok {call : Call} {status : Status} {after : Db}
    (h : RepositoryRebind.applyPlan R E K call db = .ok (status,after)) :
    Action.step R E K db (.applyPlan call) = after := by
  simp [Action.step,h,commit,Except.map]

theorem Action.step_of_error {call : Call} {e : BureauError}
    (h : RepositoryRebind.applyPlan R E K call db = .error e) : Action.step R E K db (.applyPlan call) = db := by
  simp [Action.step,h,commit,Except.map]

theorem Action.reach_operations (h : Reach (Action.step R E K) (fun _ _ => True) start db) :
    Reach (Bureau.step E K) (fun _ _ => True) start db := by
  induction h with
  | init => exact .init
  | @step before action _ _ ih =>
    cases action with
    | write writer => exact Writer.reach_step ih writer
    | applyPlan call =>
      cases happly : RepositoryRebind.applyPlan R E K call before with
      | error e => rwa [Action.step_of_error happly]
      | ok result =>
        rw [Action.step_of_ok happly]
        exact Writer.reach_of_puts ih (applyPlan_puts happly)

theorem Action.reach_invariant {P : Db → Prop} (heffect : ∀ db db', SpecEffect E.sha db db' → P db → P db')
    (hstart : P start) (h : Reach (Action.step R E K) (fun _ _ => True) start db) : P db :=
  Reach.invariant (P := P) hstart
    (fun _ op hholds _ =>
      step_invariant (fun _ db db' hmove hholds => heffect db db' hmove.specEffect hholds) hholds op.planned_self)
    (Action.reach_operations h)

theorem Action.specLedger_of_reach (h : Reach (Action.step R E K) (fun _ _ => True) (Db.fresh E.sha) db) :
    db.SpecLedger E.sha :=
  Action.reach_invariant (P := fun db => db.SpecLedger E.sha) (fun _ _ heffect hledger => hledger.effect heffect)
    (Db.SpecLedger.fresh E.sha) h

theorem Recorded.of_reach {plan : Plan} (hrecorded : Recorded plan start)
    (h : Reach (Action.step R E K) (fun _ _ => True) start db) : Recorded plan db := by
  refine Action.reach_invariant (P := Recorded plan) ?_ hrecorded h
  intro before after heffect hbefore item hitem
  rw [heffect.mutation_kept (hbefore item hitem)]
  exact hbefore item hitem

end Runs

end RepositoryRebind

open RepositoryRebind in
/-- A rebind changes nothing, or it advances the planned tasks by one revision to the planned digests and
leaves everything else alone. After it no live task outside the excluded ones names the old repository,
and the same plan never changes anything again. -/
theorem rebind_all_or_nothing {R : Rules} {E : Env} {K : Contracts} {db : Db} (call : Call)
    (h : Reach (Action.step R E K) (fun _ _ => True) (Db.fresh E.sha) db) :
    (∀ e, applyPlan R E K call db = .error e → Action.step R E K db (.applyPlan call) = db) ∧
    ∀ status after, applyPlan R E K call db = .ok (status,after) →
      Action.step R E K db (.applyPlan call) = after ∧
      (after = db ∨
        Frame db after call.plan.taskIds ∧ (∀ id ∈ call.plan.excludedIds, id ∉ call.plan.taskIds) ∧
          ∀ item ∈ call.plan.items, ∃ current next,
            TaskSpecs.getCurrent E.sha db item.taskId = .ok (some current) ∧
            TaskSpecs.getCurrent E.sha after item.taskId = .ok (some next) ∧
            current.specSha256 = item.expectedSpecSha256 ∧ next.revision = current.revision+1 ∧
            next.specSha256 = item.resultingSpecSha256) ∧
      (∀ id row, taskRow E call.registry after id = .ok (some row) → row.live = true →
        id ∉ call.plan.excludedIds → hasOldBinding R call.plan.parameters row.spec = false ∧
          oldBindingResidue R call.plan.parameters "" row.spec = []) ∧
      ∀ later, Reach (Action.step R E K) (fun _ _ => True) after later → ∀ again : Call, again.plan = call.plan →
        Action.step R E K later (.applyPlan again) = later := by
  refine ⟨fun e herror => Action.step_of_error herror,fun status after hok => ?_⟩
  have hledger := Action.specLedger_of_reach h
  obtain ⟨hplan,found,hfound,hcases⟩ := applyPlan_eq_ok hok
  have hdone : Recorded call.plan after ∧ ∃ remaining,
      candidates R call.plan.parameters E call.registry after = .ok remaining ∧
        ∀ id, id ∈ remaining.map (·.taskId) ↔ id ∈ call.plan.excludedIds := by
    rcases hcases with ⟨_,rfl,hrecorded,hexcluded⟩ | ⟨_,_,hnone,active,hfresh⟩
    · exact ⟨hrecorded,found,hfound,hexcluded⟩
    · exact ⟨(advanced_of_applyFresh hledger hplan hfound hnone hfresh).2.1,(applyFresh_eq_ok hfresh).2.2⟩
  obtain ⟨hrecorded,remaining,hremaining,hexcluded⟩ := hdone
  refine ⟨Action.step_of_ok hok,?_,fun id row hrow hlive hid => ?_,fun later hlater again hagain => ?_⟩
  · rcases hcases with ⟨_,hsame,_⟩ | ⟨_,_,hnone,active,hfresh⟩
    · exact .inl hsame
    · obtain ⟨hframe,_,hitems⟩ := advanced_of_applyFresh hledger hplan hfound hnone hfresh
      refine .inr ⟨hframe,(checkPlan_eq_ok hplan).2,fun item hitem => ?_⟩
      obtain ⟨⟨current,hcurrent,hrevision,hdigest⟩,next,hnext,hsucc,hresult⟩ := hitems item hitem
      exact ⟨current,next,hcurrent,hnext,hdigest,by rw [hsucc,hrevision],hresult⟩
  · exact unbound_of_not_mem hremaining hrow hlive (mt (hexcluded id).mp hid)
  · have hknown : Recorded again.plan later := hagain ▸ hrecorded.of_reach hlater
    cases hagainst : applyPlan R E K again later with
    | error e => exact Action.step_of_error hagainst
    | ok result =>
      rw [Action.step_of_ok hagainst]
      exact applyPlan_recorded hknown hagainst

namespace Sample

open RepositoryRebind

def rebindSha : Sha := fun text =>
  if text.toByteArray.data.toList[44]? = some 98 then
    "1ef76c7a95b45f68f3d2886d91aad7f5c7993b8b5b8c73a41944651962ffddcb"
  else "8ef76c7a95b45f68f3d2886d91aad7f5c7993b8b5b8c73a41944651962ffddcb"

def rebindEnv : Env := { env with sha := rebindSha }

def rebindRules : Rules := ⟨Char.isAlphanum,Char.isAlpha,id,fun _ => .null,fun _ => none⟩

def located (id path : String) : Resource :=
  { repository id with path := some path, githubSlug := some "o/r", grabowskiKey := some ("repo:" ++ path) }

def locatedFiles : Registry :=
  { files with resources := Std.ExtTreeMap.ofList [("repo.a",located "repo.a" "/a"),("repo.b",located "repo.b" "/b")] }

def descriptor (id path : String) : Descriptor := ⟨id,"git-repository",none,none,path,"o/r","repo:" ++ path,none⟩

def rebindPlan : Plan :=
  let digest := rebindSha ""
  let rebound := "1ef76c7a95b45f68f3d2886d91aad7f5c7993b8b5b8c73a41944651962ffddcb"
  ⟨1,"bureau.repository_identity_rebind_plan","2026-01-01",descriptor "repo.a" "/a",descriptor "repo.b" "/b",digest,
    digest,[⟨"T-1","ready",1,digest,rebound,"repository-identity-rebind:T-1:" ++ digest,["/claims/0/resource"],digest,
      digest⟩],[],⟨1,0,1⟩,digest⟩

def rebindCall : Call := ⟨locatedFiles,rebindPlan,rebindSha "",5,3600,2⟩

def bindSpec : Action := .write (.operate (.putTaskSpecMaterial 1 spec "put-1" none "operator"))

def boundDb : Db := Action.step rebindRules rebindEnv contracts (Db.fresh rebindSha) bindSpec

end Sample

open RepositoryRebind in
theorem rebind_all_or_nothing_moved : ∃ after current next,
    applyPlan Sample.rebindRules Sample.rebindEnv Sample.contracts Sample.rebindCall Sample.boundDb =
      .ok (.applied,after) ∧
      TaskSpecs.getCurrent Sample.rebindSha Sample.boundDb "T-1" = .ok (some current) ∧
      TaskSpecs.getCurrent Sample.rebindSha after "T-1" = .ok (some next) ∧ next.revision = current.revision+1 ∧
      (∀ row, taskRow Sample.rebindEnv Sample.locatedFiles after "T-1" = .ok (some row) → row.live = true →
        hasOldBinding Sample.rebindRules Sample.rebindPlan.parameters row.spec = false) ∧
      Action.step Sample.rebindRules Sample.rebindEnv Sample.contracts after (.applyPlan Sample.rebindCall) =
        after := by
  have hmoved : ((applyPlan Sample.rebindRules Sample.rebindEnv Sample.contracts Sample.rebindCall
      Sample.boundDb).toOption.any fun r =>
        r.1 = .applied && r.2.currentRevision "T-1" ≠ Sample.boundDb.currentRevision "T-1") = true := by
    decide +kernel
  simp only [Option.any_eq_true,toOption_eq_some,Bool.and_eq_true,decide_eq_true_eq] at hmoved
  obtain ⟨⟨_,after⟩,hok,rfl,hchanged⟩ := hmoved
  have hreach : Reach (Action.step Sample.rebindRules Sample.rebindEnv Sample.contracts) (fun _ _ => True)
      (Db.fresh Sample.rebindSha) Sample.boundDb := .step .init trivial
  obtain ⟨_,hsuccess⟩ := rebind_all_or_nothing Sample.rebindCall hreach
  obtain ⟨_,rfl | ⟨_,_,hitems⟩,hunbound,hagain⟩ := hsuccess _ _ hok
  · exact absurd rfl hchanged
  · obtain ⟨current,next,hcurrent,hnext,_,hrevision,_⟩ := hitems _ List.mem_cons_self
    exact ⟨after,current,next,hok,hcurrent,hnext,hrevision,
      fun row hrow hlive => (hunbound "T-1" row hrow hlive (by decide)).1,hagain after .init Sample.rebindCall rfl⟩

end Bureau
