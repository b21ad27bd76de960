import Bureau.ClaimCurrency
import Bureau.CloseEffect
import Bureau.RuntimeRefresh
import Bureau.SpecIdempotency

/-!
The authority of a runtime refresh is used once, however the calls of `apply_runtime_refresh` are
interleaved and wherever they stop. The compare-and-swap of the binding lets one intent through; calls
of that intent share one attempt file, which is created once, and only its creator starts the
installer. The argument is a proof outline over the steps of the calls.
-/

namespace Bureau

open Transactions Interleaving TaskSpecs

namespace RuntimeRefresh

/-! Documents. -/

theorem runtimeAuthority?_setAuthorityField {spec authority : Json} (h : runtimeAuthority? spec = some authority)
    (field : String) (value : Json) :
    runtimeAuthority? (setAuthorityField spec field value) = some (authority.set field value) := by
  have hparts := h
  simp only [runtimeAuthority?,Option.filter_eq_some_iff,Option.bind_eq_some_iff] at hparts
  obtain ⟨⟨metadata,⟨hmetadata,hobject⟩,hauthority⟩,hisObj⟩ := hparts
  simp only [setAuthorityField,hmetadata,h]
  cases spec with
  | obj fields =>
    cases metadata with
    | obj entries =>
      simp only [runtimeAuthority?,Json.get?_set_self,Option.filter_eq_some_iff,Option.bind_eq_some_iff]
      exact ⟨⟨_,⟨rfl,by simpa using hobject⟩,by simp⟩,by simpa using hisObj⟩
    | _ => simp [Json.isObj] at hobject
  | _ => simp [Json.get?] at hmetadata

@[simp] theorem getStr?_id_setAuthorityField (spec : Json) (field : String) (value : Json) :
    (setAuthorityField spec field value).getStr? "id" = spec.getStr? "id" := by
  unfold setAuthorityField
  split
  · rw [Json.getStr?,Json.get?_set_ne _ _ (by decide),Json.getStr?]
  · rfl

theorem authorityReceipt_set_self {spec authority : Json} (h : runtimeAuthority? spec = some authority)
    (field : String) {value : Json} (hvalue : value ≠ .null) :
    authorityReceipt (setAuthorityField spec field value) field = some value := by
  have hobject : authority.isObj = true := by
    simp only [runtimeAuthority?,Option.filter_eq_some_iff] at h
    exact h.2
  cases authority with
  | obj fields => simp [authorityReceipt,runtimeAuthority?_setAuthorityField h,hvalue]
  | _ => simp [Json.isObj] at hobject

theorem authorityReceipt_set_ne (spec : Json) {field other : String} (value : Json) (hne : other ≠ field) :
    authorityReceipt (setAuthorityField spec field value) other = authorityReceipt spec other := by
  cases h : runtimeAuthority? spec with
  | none => simp [setAuthorityField,h]
  | some authority =>
    simp only [authorityReceipt,runtimeAuthority?_setAuthorityField h,h,Option.bind_some,Json.get?_set_ne _ _ hne]

/-! What the checks read from the store. -/

def storedReceipt (sha : Sha) (db : Db) (taskId field : String) : Option Json :=
  (TaskSpecs.getCurrent sha db taskId).toOption.join.bind fun current => authorityReceipt current.spec field

section Reads

variable {sha : Sha} {K : Contracts} {db : Db} {taskId target : String}

theorem storedReceipt_eq (hledger : db.SpecLedger sha) (field : String) : storedReceipt sha db taskId field =
    (db.revision? taskId (db.currentRevision taskId)).bind fun row => authorityReceipt row.spec field := by
  rw [storedReceipt,hledger.getCurrent_eq]
  cases db.revision? taskId (db.currentRevision taskId) <;> rfl

theorem readAuthorityTask_eq_ok {current : CurrentSpec} (hledger : db.SpecLedger sha)
    (h : readAuthorityTask sha db taskId = .ok current) : current.revision = db.currentRevision taskId ∧
      ∃ row, db.revision? taskId current.revision = some row ∧ row.spec = current.spec := by
  unfold readAuthorityTask at h
  rw [hledger.getCurrent_eq] at h
  cases hrow : db.revision? taskId (db.currentRevision taskId) with
  | none => simp [hrow] at h
  | some row =>
    rw [hrow] at h
    obtain rfl : row.toSpec taskId (db.currentRevision taskId) = current := Except.ok.inj h
    exact ⟨rfl,row,hrow,rfl⟩

theorem getStr?_id_of_revision? {r : ℕ} {row : TaskSpecRevision} (hledger : db.SpecLedger sha)
    (hrow : db.revision? taskId r = some row) : row.spec.getStr? "id" = some taskId := by
  have hvalid := hledger.valid taskId r row hrow
  simp only [validatedRow,steps_ok,decide_eq_true_eq] at hvalid
  obtain ⟨id,hid,_,rfl,_⟩ := hvalid
  exact getStr?_of_canonicalSpecId hid

theorem validateAuthoritativeTask_eq_ok {revision : ℕ} {digest : String} {boundIntent : Option String}
    {activation : Outcome Unit} {u : Unit} (hledger : db.SpecLedger sha)
    (h : validateAuthoritativeTask sha K db taskId target (some (revision,digest)) boundIntent activation = .ok u) :
    db.currentRevision taskId = revision ∧ ∃ row, db.revision? taskId revision = some row ∧
      authorityReceipt row.spec consumptionField = none ∧
      ∀ binding, authorityReceipt row.spec bindingField = some binding →
        ∃ intent ∈ boundIntent, binding.getStr? "intent_sha256" = some intent := by
  simp only [validateAuthoritativeTask,steps_ok,Option.all_some,Bool.and_eq_true,decide_eq_true_eq,
      Option.isNone_iff_eq_none] at h
  obtain ⟨_,_,current,hread,_,_,_,⟨hrevision,_⟩,_,_,_,_,_,hconsumption,_,_,h⟩ := h
  obtain ⟨hcurrent,row,hrow,hspec⟩ := readAuthorityTask_eq_ok hledger hread
  rw [← hspec] at hconsumption h
  refine ⟨hcurrent.symm.trans hrevision,row,hrevision ▸ hrow,hconsumption,fun binding hbinding => ?_⟩
  simp only [hbinding,steps_ok,Option.any_eq_true,decide_eq_true_eq] at h
  obtain ⟨_,_,_,_,intent,hintent,hnamed⟩ := h
  exact ⟨intent,hintent,hnamed⟩

end Reads

/-! The outline. -/

def BoundTo (sha : Sha) (db : Db) (taskId intentSha256 : String) : Prop :=
  ∃ binding, storedReceipt sha db taskId bindingField = some binding ∧
    binding.getStr? "intent_sha256" = some intentSha256

def NamesAt (db : Db) (taskId : String) (revision : ℕ) (intentSha256 : String) : Prop :=
  ∃ row, db.revision? taskId revision = some row ∧
    ∀ binding, authorityReceipt row.spec bindingField = some binding →
      binding.getStr? "intent_sha256" = some intentSha256

def UnboundAt (db : Db) (taskId : String) (revision : ℕ) : Prop :=
  ∃ row, db.revision? taskId revision = some row ∧ authorityReceipt row.spec bindingField = none ∧
    authorityReceipt row.spec consumptionField = none

/-- A document read from the store at a revision not before the given one. -/
def ReadFrom (db : Db) (taskId : String) (revision : ℕ) (spec : Json) : Prop :=
  ∃ r row, revision ≤ r ∧ r ≤ db.currentRevision taskId ∧ db.revision? taskId r = some row ∧ row.spec = spec

/-- A call holds the attempt it created: the installer has not been started for it. -/
def HoldsAttempt (id : ℕ) (s : Shared) (intent : Intent) : Prop :=
  s.started intent.attempt = some id ∧ intent.attempt ∉ s.installs.map Intent.attempt

structure Inv (sha : Sha) (taskId : String) (intents : Intent → Prop) (s : Shared) : Prop where
  ledger : s.db.SpecLedger sha
  -- a receipt under the key of a binding leads to a revision that names no other intent
  receipts : ∀ (digest : String) (receipt : TaskSpecMutation),
    s.db.taskSpecMutations[bindKey taskId digest]? = some receipt → receipt.taskId = taskId →
      NamesAt s.db taskId receipt.resultingRevision digest
  agrees : ∀ consumption, storedReceipt sha s.db taskId consumptionField = some consumption →
    ∃ binding intent, storedReceipt sha s.db taskId bindingField = some binding ∧
      binding.getStr? "intent_sha256" = some intent ∧ consumption.getStr? "intent_sha256" = some intent
  installed : ∀ intent ∈ s.installs, intents intent ∧ (s.started intent.attempt).isSome = true ∧
    (intent.approvalTaskId = taskId → BoundTo sha s.db taskId intent.intentSha256)
  distinct : (s.installs.map Intent.attempt).Nodup

def Asserts (sha : Sha) (taskId : String) (id : ℕ) (s : Shared) (intent : Intent) : Phase → Prop
  | .bindingChecked _ => intent.approvalTaskId = taskId →
      UnboundAt s.db taskId intent.revision ∧ intent.revision ≤ s.db.currentRevision taskId
  | .bindingRead _ spec => spec.getStr? "id" = some intent.approvalTaskId ∧
      (intent.approvalTaskId = taskId →
        UnboundAt s.db taskId intent.revision ∧ ReadFrom s.db taskId intent.revision spec)
  | .bindingPut _ changed => intent.approvalTaskId = taskId →
      NamesAt s.db taskId changed.revision intent.intentSha256
  | .bound .. => intent.approvalTaskId = taskId → BoundTo sha s.db taskId intent.intentSha256
  | .started _ | .prepared _ => HoldsAttempt id s intent ∧
      (intent.approvalTaskId = taskId → BoundTo sha s.db taskId intent.intentSha256)
  | .consumeRead item current => ∃ row, s.db.revision? item.intent.approvalTaskId current.revision = some row ∧
      row.spec = current.spec
  | .consumeChecked item current => ∃ row,
      s.db.revision? item.intent.approvalTaskId current.revision = some row ∧ row.spec = current.spec ∧
      authorityReceipt row.spec consumptionField = none ∧
      ∃ binding, authorityReceipt row.spec bindingField = some binding ∧
        binding.getStr? "intent_sha256" = some item.intent.intentSha256
  | _ => True

def Holds (sha : Sha) (taskId : String) (intents : Intent → Prop) (id : ℕ) (s : Shared) (call : Call) : Prop :=
  intents call.intent ∧ Asserts sha taskId id s call.intent call.phase

structure Keeps (sha : Sha) (taskId : String) (id : ℕ) (s s' : Shared) : Prop where
  rows : ∀ task r row, s.db.revision? task r = some row → s'.db.revision? task r = some row
  current : s.db.currentRevision taskId ≤ s'.db.currentRevision taskId
  receipts : ∀ field receipt, storedReceipt sha s.db taskId field = some receipt →
    storedReceipt sha s'.db taskId field = some receipt
  attempts : ∀ attempt other, other ≠ id → s.started attempt = some other → s'.started attempt = some other
  installs : ∀ attempt other, other ≠ id → s.started attempt = some other →
    attempt ∉ s.installs.map Intent.attempt → attempt ∉ s'.installs.map Intent.attempt

section Keeps

variable {sha : Sha} {taskId : String} {intents : Intent → Prop} {id : ℕ} {s s' : Shared}

theorem Keeps.refl : Keeps sha taskId id s s :=
  ⟨fun _ _ _ h => h,le_rfl,fun _ _ h => h,fun _ _ _ h => h,fun _ _ _ _ h => h⟩

theorem Keeps.boundTo (h : Keeps sha taskId id s s') {digest : String} (hbound : BoundTo sha s.db taskId digest) :
    BoundTo sha s'.db taskId digest := by
  obtain ⟨binding,hbinding,hnamed⟩ := hbound
  exact ⟨binding,h.receipts _ _ hbinding,hnamed⟩

theorem Keeps.namesAt (h : Keeps sha taskId id s s') {r : ℕ} {digest : String}
    (hnames : NamesAt s.db taskId r digest) : NamesAt s'.db taskId r digest := by
  obtain ⟨row,hrow,hnamed⟩ := hnames
  exact ⟨row,h.rows _ _ _ hrow,hnamed⟩

theorem Keeps.unboundAt (h : Keeps sha taskId id s s') {r : ℕ} (hunbound : UnboundAt s.db taskId r) :
    UnboundAt s'.db taskId r := by
  obtain ⟨row,hrow,hnone⟩ := hunbound
  exact ⟨row,h.rows _ _ _ hrow,hnone⟩

theorem Keeps.holds (h : Keeps sha taskId id s s') {other : ℕ} (hother : other ≠ id) {call : Call}
    (hholds : Holds sha taskId intents other s call) : Holds sha taskId intents other s' call := by
  obtain ⟨hintent,hasserts⟩ := hholds
  refine ⟨hintent,?_⟩
  unfold Asserts at hasserts ⊢
  cases hphase : call.phase with
  | bindingChecked effect =>
    simp only [hphase] at hasserts ⊢
    exact fun htask => ⟨h.unboundAt (hasserts htask).1,(hasserts htask).2.trans h.current⟩
  | bindingRead effect spec =>
    simp only [hphase] at hasserts ⊢
    refine ⟨hasserts.1,fun htask => ?_⟩
    obtain ⟨hunbound,r,row,hle,hcurrent,hrow,hspec⟩ := hasserts.2 htask
    exact ⟨h.unboundAt hunbound,r,row,hle,hcurrent.trans h.current,h.rows _ _ _ hrow,hspec⟩
  | bindingPut effect changed =>
    simp only [hphase] at hasserts ⊢
    exact fun htask => h.namesAt (hasserts htask)
  | bound effect authority =>
    simp only [hphase] at hasserts ⊢
    exact fun htask => h.boundTo (hasserts htask)
  | started authority | prepared authority =>
    simp only [hphase] at hasserts ⊢
    obtain ⟨⟨hstarted,hfree⟩,hbound⟩ := hasserts
    exact ⟨⟨h.attempts _ _ hother hstarted,h.installs _ _ hother hstarted hfree⟩,fun htask => h.boundTo (hbound htask)⟩
  | consumeRead item current =>
    simp only [hphase] at hasserts ⊢
    obtain ⟨row,hrow,hspec⟩ := hasserts
    exact ⟨row,h.rows _ _ _ hrow,hspec⟩
  | consumeChecked item current =>
    simp only [hphase] at hasserts ⊢
    obtain ⟨row,hrow,hspec⟩ := hasserts
    exact ⟨row,h.rows _ _ _ hrow,hspec⟩
  | _ => trivial

end Keeps

/-! The two writes. -/

section Writes

variable {E : Env} {time : Time} {db db' : Db} {document spec value : Json} {key source field task : String}
  {expected : ℕ} {changed : TaskSpecs.PutResult}

theorem putAuthorityTask_eq_ok (h : putAuthorityTask E time db document key expected source = .ok (changed,db')) :
    putValidatedMaterial E.sha time db document key (some expected) source = .ok (changed,db') := by
  unfold putAuthorityTask at h
  split at h
  · rename_i written hput
    exact put_eq_ok (hput.trans (congrArg _ (Except.ok.inj h)))
  · cases h

theorem canonicalSpecId_eq {id : String} (h : canonicalSpecId document = .ok id)
    (hid : document.getStr? "id" = some task) :
    id = task :=
  Option.some.inj ((getStr?_of_canonicalSpecId h).symm.trans hid)

/-- A write that adds one receipt to the document of the current revision: the receipts stay as they
are, or this one is added. -/
theorem put_storedReceipt (taskId : String) (hledger : db.SpecLedger E.sha)
    (hput : putValidatedMaterial E.sha time db (setAuthorityField spec field value) key (some expected)
      source = .ok (changed,db')) (hauthority : (runtimeAuthority? spec).isSome = true) (hvalue : value ≠ .null)
    (hid : spec.getStr? "id" = some task)
    (hspec : task = taskId → db.currentRevision taskId = expected →
      ∃ row, db.revision? taskId expected = some row ∧ row.spec = spec) :
    (∀ f, storedReceipt E.sha db' taskId f = storedReceipt E.sha db taskId f) ∨
      task = taskId ∧ db.currentRevision taskId = expected ∧
        ∀ f, storedReceipt E.sha db' taskId f = if f = field then some value else storedReceipt E.sha db taskId f := by
  obtain ⟨authority,hauthority⟩ := Option.isSome_iff_exists.mp hauthority
  have hdocument : (setAuthorityField spec field value).getStr? "id" = some task :=
    (getStr?_id_setAuthorityField ..).trans hid
  by_cases htask : task = taskId
  · subst htask
    cases putValidatedMaterial_effect hput with
    | replay => exact .inl fun _ => rfl
    | known => exact .inl fun _ => rfl
    | @set next hnextSpec _ successor write =>
      obtain rfl := canonicalSpecId_eq (hnextSpec ▸ successor.id) hdocument
      have hcurrent : db.currentRevision next.taskId = expected := write.currentRevision_eq hledger
      obtain ⟨row,hrow,rfl⟩ := hspec rfl hcurrent
      refine .inr ⟨rfl,hcurrent,fun f => ?_⟩
      rw [storedReceipt_eq (hledger.setRevision successor ..),Db.currentRevision_setRevision,if_pos rfl,
        Db.revision?_setRevision,if_pos ⟨rfl,rfl⟩,storedReceipt_eq hledger,hcurrent,hrow,Option.bind_some,
        Option.bind_some,hnextSpec]
      by_cases hf : f = field
      · rw [if_pos hf,hf,authorityReceipt_set_self hauthority field hvalue]
      · rw [if_neg hf,authorityReceipt_set_ne _ _ hf]
  · refine .inl fun f => ?_
    rw [storedReceipt,getCurrent_put_ne hput (hdocument ▸ fun h => htask (Option.some.inj h)),storedReceipt]

/-- The receipts of mutations after a write: the old ones, and the one under its key. -/
theorem put_mutation
    (hput : putValidatedMaterial E.sha time db document key (some expected) source = .ok (changed,db'))
    (hid : document.getStr? "id" = some task) {other : String} {receipt : TaskSpecMutation}
    (hreceipt : db'.taskSpecMutations[other]? = some receipt) :
    db.taskSpecMutations[other]? = some receipt ∨
      other = key ∧ receipt.taskId = task ∧ receipt.resultingRevision = changed.current.revision := by
  cases putValidatedMaterial_effect hput with
  | replay => exact .inl hreceipt
  | @known found current id write read =>
    by_cases hother : other = key
    · simp only [Db.noteMutation,hother,Tables.get_insert_self,Option.some.injEq] at hreceipt
      obtain rfl := canonicalSpecId_eq id hid
      exact .inr ⟨hother,hreceipt ▸ (getCurrent_eq_some read).1,hreceipt ▸ rfl⟩
    · exact .inl ((Tables.get_insert_ne _ _ hother).symm.trans hreceipt)
  | @set next hdocument _ successor write =>
    by_cases hother : other = key
    · simp only [setRevision,hother,Tables.get_insert_self,Option.some.injEq] at hreceipt
      exact .inr ⟨hother,hreceipt ▸ canonicalSpecId_eq (hdocument ▸ successor.id) hid,hreceipt ▸ rfl⟩
    · exact .inl ((Tables.get_insert_ne _ _ hother).symm.trans hreceipt)

end Writes

/-! The steps. -/

section Steps

variable {E : Env} {K : Contracts} {taskId : String} {intents : Intent → Prop} {id : ℕ} {s s' : Shared} {db' : Db}
  {call : Call} {next : Option Call}

theorem Keeps.write (hledger : s.db.SpecLedger E.sha) (heffect : SpecEffect E.sha s.db db')
    (hreceipts : ∀ field receipt, storedReceipt E.sha s.db taskId field = some receipt →
      storedReceipt E.sha db' taskId field = some receipt) : Keeps E.sha taskId id s { s with db := db' } :=
  ⟨fun _ _ _ hrow => heffect.revision?_kept hledger hrow,heffect.currentRevision_le taskId,hreceipts,
    fun _ _ _ h => h,fun _ _ _ _ h => h⟩

theorem Inv.installed_keeps (hinv : Inv E.sha taskId intents s) (hkeeps : Keeps E.sha taskId id s s')
    (hinstalls : s'.installs = s.installs) (hstarted : ∀ attempt, (s.started attempt).isSome = true →
      (s'.started attempt).isSome = true) :
    ∀ intent ∈ s'.installs, intents intent ∧ (s'.started intent.attempt).isSome = true ∧
      (intent.approvalTaskId = taskId → BoundTo E.sha s'.db taskId intent.intentSha256) := by
  rw [hinstalls]
  intro intent hintent
  obtain ⟨hadmitted,hrecorded,hbound⟩ := hinv.installed intent hintent
  exact ⟨hadmitted,hstarted _ hrecorded,fun htask => hkeeps.boundTo (hbound htask)⟩

theorem bindKey_eq_iff (task first second : String) : bindKey task first = bindKey task second ↔ first = second :=
  String.append_right_inj _

theorem getElem?_key (word task rest : String) {i : ℕ} {c : Char} (hword : word.toList[i]? = some c) :
    (word ++ task ++ ":" ++ rest).toList[i]? = some c := by
  obtain ⟨hlength,_⟩ := List.getElem?_eq_some_iff.mp hword
  simp only [String.toList_append,List.append_assoc]
  rw [List.getElem?_append_left hlength,hword]

theorem consumeKey_ne_bindKey (task result other digest : String) : consumeKey task result ≠ bindKey other digest := by
  have hconsume : (consumeKey task result).toList[16]? = some 'c' :=
    getElem?_key "runtime-refresh-consume:" task result (by decide +kernel)
  have hbind : (bindKey other digest).toList[16]? = some 'b' :=
    getElem?_key "runtime-refresh-bind:" other digest (by decide +kernel)
  intro heq
  rw [heq,hbind] at hconsume
  exact absurd hconsume (by decide)

variable {changed : PutResult} {now : String} {time : Time} {i : Reading}

theorem bindingWrite_sound (id : ℕ) (hinv : Inv E.sha taskId intents s) {intent : Intent} {spec document : Json}
    (hid : spec.getStr? "id" = some intent.approvalTaskId)
    (hread : intent.approvalTaskId = taskId →
      UnboundAt s.db taskId intent.revision ∧ ReadFrom s.db taskId intent.revision spec)
    (hdocument : boundSpec intent now spec = .ok document)
    (hput : putAuthorityTask E time s.db document (bindKey intent.approvalTaskId intent.intentSha256) intent.revision
      "runtime-refresh-authority-target-binding" = .ok (changed,db')) :
    Inv E.sha taskId intents { s with db := db' } ∧ Keeps E.sha taskId id s { s with db := db' } ∧
      (intent.approvalTaskId = taskId → NamesAt db' taskId changed.current.revision intent.intentSha256) := by
  simp only [boundSpec,steps_ok,runtimeAuthorityMetadata] at hdocument
  obtain ⟨authority,hauthority,_,_,rfl⟩ := hdocument
  have hput := putAuthorityTask_eq_ok hput
  have heffect := (putValidatedMaterial_effect hput).specEffect
  have hdocumentId := (getStr?_id_setAuthorityField spec bindingField (targetBinding intent now)).trans hid
  have hexpected : intent.approvalTaskId = taskId → s.db.currentRevision taskId = intent.revision →
      ∃ row, s.db.revision? taskId intent.revision = some row ∧ row.spec = spec ∧
        authorityReceipt row.spec bindingField = none ∧ authorityReceipt row.spec consumptionField = none := by
    intro htask hcurrent
    obtain ⟨⟨row,hrow,hnone⟩,r,found,hle,hge,hfound,hspec⟩ := hread htask
    obtain rfl : r = intent.revision := le_antisymm (hge.trans hcurrent.le) hle
    rw [hrow,Option.some.injEq] at hfound
    exact ⟨row,hrow,hfound ▸ hspec,hnone⟩
  have hnames : intent.approvalTaskId = taskId → NamesAt db' taskId changed.current.revision intent.intentSha256 := by
    intro htask
    cases putValidatedMaterial_effect hput with
    | @replay found receipt _ idEq known read =>
      simp only [replayMutation,steps_ok,Bool.and_eq_true,decide_eq_true_eq] at read
      obtain ⟨_,⟨⟨hreceiptTask,_⟩,_⟩,_,_,_,_,revision,hrevision,_,_,rfl⟩ := read
      have hfound : found = taskId := (canonicalSpecId_eq idEq hdocumentId).trans htask
      rw [htask] at known
      have hnamed := hinv.receipts _ _ known (hreceiptTask.trans hfound)
      obtain ⟨row,hrow,hnamed⟩ := hnamed
      rw [hfound,hinv.ledger.getRevision_eq _ _ hrow,Except.ok.injEq] at hrevision
      exact ⟨row,hrevision ▸ hrow,hnamed⟩
    | @known found current idEq write read =>
      have hfound : found = taskId := (canonicalSpecId_eq idEq hdocumentId).trans htask
      have hcurrent := write.currentRevision_eq hinv.ledger
      rw [hfound] at hcurrent read
      obtain ⟨row,hrow,_,hunbound,_⟩ := hexpected htask hcurrent
      have hrevision : current.revision = intent.revision := (hinv.ledger.of_getCurrent read).1.trans hcurrent
      refine ⟨row,hrevision ▸ hrow,fun binding hbinding => ?_⟩
      rw [hunbound] at hbinding
      cases hbinding
    | @set next hnextSpec _ successor write =>
      have hnext : next.taskId = taskId := (canonicalSpecId_eq (hnextSpec ▸ successor.id) hdocumentId).trans htask
      refine ⟨_,by rw [Db.revision?_setRevision,if_pos ⟨hnext.symm,rfl⟩],fun binding hbinding => ?_⟩
      rw [hnextSpec,authorityReceipt_set_self hauthority _ (by simp [targetBinding]),Option.some.injEq] at hbinding
      subst hbinding
      rfl
  have hstored := put_storedReceipt taskId hinv.ledger hput (by simp [hauthority]) (by simp [targetBinding])
    hid fun htask hcurrent => by
      obtain ⟨row,hrow,hspec,_⟩ := hexpected htask hcurrent
      exact ⟨row,hrow,hspec⟩
  have hkept : ∀ field receipt, storedReceipt E.sha s.db taskId field = some receipt →
      storedReceipt E.sha db' taskId field = some receipt := by
    intro field receipt hreceipt
    rcases hstored with hsame | ⟨htask,hcurrent,hadded⟩
    · rw [hsame,hreceipt]
    · obtain ⟨row,hrow,_,hunbound,_⟩ := hexpected htask hcurrent
      rw [hadded,hreceipt]
      refine if_neg ?_
      rintro rfl
      rw [storedReceipt_eq hinv.ledger,hcurrent,hrow,Option.bind_some,hunbound] at hreceipt
      cases hreceipt
  have hkeeps : Keeps E.sha taskId id s { s with db := db' } := Keeps.write hinv.ledger heffect hkept
  refine ⟨⟨hinv.ledger.effect heffect,?_,?_,hinv.installed_keeps hkeeps rfl fun _ h => h,hinv.distinct⟩,hkeeps,hnames⟩
  · intro digest receipt hreceipt htask
    rcases put_mutation hput hdocumentId hreceipt with hold | ⟨hkey,hreceiptTask,hrevision⟩
    · exact hkeeps.namesAt (hinv.receipts _ _ hold htask)
    · have hintent : intent.approvalTaskId = taskId := hreceiptTask.symm.trans htask
      rw [hintent,bindKey_eq_iff] at hkey
      rw [hrevision,hkey]
      exact hnames hintent
  · intro consumption hconsumption
    rcases hstored with hsame | ⟨htask,hcurrent,hadded⟩
    · rw [hsame] at hconsumption ⊢
      exact hinv.agrees _ hconsumption
    · -- the revision the binding follows is not consumed
      obtain ⟨row,hrow,_,_,hunused⟩ := hexpected htask hcurrent
      rw [hadded,if_neg (by decide),storedReceipt_eq hinv.ledger,hcurrent,hrow,Option.bind_some,hunused] at hconsumption
      cases hconsumption

theorem consumptionWrite_sound (id : ℕ) (hinv : Inv E.sha taskId intents s) {item : Consumption}
    {current : CurrentSpec} {row : TaskSpecRevision}
    {binding : Json} (hrow : s.db.revision? item.intent.approvalTaskId current.revision = some row)
    (hspec : row.spec = current.spec) (hunused : authorityReceipt row.spec consumptionField = none)
    (hbinding : authorityReceipt row.spec bindingField = some binding)
    (hnamed : binding.getStr? "intent_sha256" = some item.intent.intentSha256)
    (hput : putAuthorityTask E time s.db
      (setAuthorityField current.spec consumptionField (expectedConsumption item.intent item.result now))
      (consumeKey item.intent.approvalTaskId item.result.resultSha256) current.revision
      "runtime-refresh-authority-consumption" = .ok (changed,db')) :
    Inv E.sha taskId intents { s with db := db' } ∧ Keeps E.sha taskId id s { s with db := db' } := by
  have hput := putAuthorityTask_eq_ok hput
  have heffect := (putValidatedMaterial_effect hput).specEffect
  have hid : current.spec.getStr? "id" = some item.intent.approvalTaskId :=
    hspec ▸ getStr?_id_of_revision? hinv.ledger hrow
  have hauthority : (runtimeAuthority? current.spec).isSome = true := by
    rw [← hspec]
    cases hread : runtimeAuthority? row.spec with
    | none => simp [authorityReceipt,hread] at hbinding
    | some authority => rfl
  have hstored := put_storedReceipt taskId hinv.ledger hput hauthority (by simp [expectedConsumption]) hid
    fun htask _ => ⟨row,htask ▸ hrow,hspec⟩
  have hbefore : item.intent.approvalTaskId = taskId → s.db.currentRevision taskId = current.revision →
      ∀ field, storedReceipt E.sha s.db taskId field = authorityReceipt row.spec field := by
    intro htask hcurrent field
    rw [storedReceipt_eq hinv.ledger,hcurrent,← htask,hrow,Option.bind_some]
  have hkept : ∀ field receipt, storedReceipt E.sha s.db taskId field = some receipt →
      storedReceipt E.sha db' taskId field = some receipt := by
    intro field receipt hreceipt
    rcases hstored with hsame | ⟨htask,hcurrent,hadded⟩
    · rw [hsame,hreceipt]
    · rw [hadded,hreceipt]
      refine if_neg ?_
      rintro rfl
      rw [hbefore htask hcurrent,hunused] at hreceipt
      cases hreceipt
  have hkeeps : Keeps E.sha taskId id s { s with db := db' } := Keeps.write hinv.ledger heffect hkept
  refine ⟨⟨hinv.ledger.effect heffect,?_,?_,hinv.installed_keeps hkeeps rfl fun _ h => h,hinv.distinct⟩,hkeeps⟩
  · intro digest receipt hreceipt htask
    rcases put_mutation hput ((getStr?_id_setAuthorityField ..).trans hid) hreceipt with hold | ⟨hkey,_⟩
    · exact hkeeps.namesAt (hinv.receipts _ _ hold htask)
    · exact absurd hkey.symm (consumeKey_ne_bindKey _ _ _ _)
  · intro consumption hconsumption
    rcases hstored with hsame | ⟨htask,hcurrent,hadded⟩
    · rw [hsame] at hconsumption ⊢
      exact hinv.agrees _ hconsumption
    · rw [hadded,if_pos rfl,Option.some.injEq] at hconsumption
      refine ⟨binding,item.intent.intentSha256,?_,hnamed,?_⟩
      · rw [hadded,if_neg (by decide),hbefore htask hcurrent,hbinding]
      · rw [← hconsumption]
        rfl

def Advances (sha : Sha) (taskId : String) (intents : Intent → Prop) (id : ℕ) (s : Shared)
    (after : Shared × Option Call) : Prop :=
  Inv sha taskId intents after.1 ∧ Keeps sha taskId id s after.1 ∧
    ∀ call, after.2 = some call → Holds sha taskId intents id after.1 call

theorem Advances.stay (hinv : Inv E.sha taskId intents s)
    (hnext : ∀ call', next = some call' → Holds E.sha taskId intents id s call') :
    Advances E.sha taskId intents id s (s,next) :=
  ⟨hinv,.refl,hnext⟩

theorem Advances.stop (hinv : Inv E.sha taskId intents s) : Advances E.sha taskId intents id s (s,none) :=
  .stay hinv fun _ hnone => by cases hnone

theorem Advances.quiet (hinv : Inv E.sha taskId intents s) (hdb : s'.db = s.db) (hstarted : s'.started = s.started)
    (hinstalls : s'.installs = s.installs) (hnext : ∀ call', next = some call' →
    Holds E.sha taskId intents id s' call') :
    Advances E.sha taskId intents id s (s',next) := by
  have hkeeps : Keeps E.sha taskId id s s' := by
    refine ⟨?_,?_,?_,?_,?_⟩
    · simp [hdb]
    · rw [hdb]
    · simp [hdb]
    · simp [hstarted]
    · rw [hinstalls]
      exact fun _ _ _ _ h => h
  refine ⟨⟨hdb ▸ hinv.ledger,hdb ▸ hinv.receipts,hdb ▸ hinv.agrees,?_,hinstalls ▸ hinv.distinct⟩,hkeeps,hnext⟩
  exact hinv.installed_keeps hkeeps hinstalls fun _ h => hstarted ▸ h

theorem holds_at {phase : Phase} (hintent : intents call.intent)
    (hasserts : Asserts E.sha taskId id s call.intent phase) :
    ∀ call', call.at phase = some call' → Holds E.sha taskId intents id s call' := by
  intro call' hcall
  cases hcall
  exact ⟨hintent,hasserts⟩

theorem lookupStep_sound (hinv : Inv E.sha taskId intents s) (hintent : intents call.intent)
    (phase : Phase) (h : lookupStep E K s call i phase = .ok next) :
    Advances E.sha taskId intents id s (s,next) := by
  refine .stay hinv ?_
  cases phase with
  | begun =>
    simp only [lookupStep] at h
    split at h
    · rw [← pure_eq_ok.mp h]
      exact holds_at hintent trivial
    · simp only [steps_ok] at h
      obtain ⟨_,_,_,_,rfl⟩ := h
      exact holds_at hintent trivial
  | noEffectAbsent =>
    simp only [lookupStep] at h
    split at h
    · rw [← pure_eq_ok.mp h]
      exact holds_at hintent trivial
    · simp only [bind_eq_ok,ite_eq_ok,pure_eq_ok] at h
      obtain ⟨_,_,_,_,⟨_,rfl⟩ | ⟨_,_,_,rfl⟩⟩ := h
      · exact holds_at hintent trivial
      · exact fun _ hnone => by cases hnone
  | resultAbsent =>
    simp only [lookupStep] at h
    split at h
    · rw [← pure_eq_ok.mp h]
      exact holds_at hintent trivial
    · simp only [steps_ok] at h
      obtain ⟨_,_,rfl⟩ := h
      exact fun _ hnone => by cases hnone
  | unattempted =>
    simp only [lookupStep,steps_ok] at h
    obtain ⟨_,_,rfl⟩ := h
    exact holds_at hintent trivial
  | validated =>
    simp only [lookupStep,steps_ok] at h
    obtain ⟨_,_,_,_,_,_,_,_,rfl⟩ := h
    exact holds_at hintent trivial
  | admitted =>
    rw [← pure_eq_ok.mp h]
    exact holds_at hintent trivial
  | _ =>
    rw [← pure_eq_ok.mp h]
    exact fun _ hnone => by cases hnone

theorem bindStep_sound (hinv : Inv E.sha taskId intents s) (hintent : intents call.intent)
    (phase : Phase) (hasserts : Asserts E.sha taskId id s call.intent phase)
    (h : bindStep E K s call i phase = .ok (s',next)) : Advances E.sha taskId intents id s (s',next) := by
  cases phase with
  | binding effect =>
    simp only [bindStep,steps_ok,Prod.mk.injEq] at h
    obtain ⟨_,hvalid,rfl,rfl⟩ := h
    refine .stay hinv (holds_at hintent fun htask => ?_)
    rw [htask] at hvalid
    obtain ⟨hcurrent,row,hrow,hconsumption,hbinding⟩ := validateAuthoritativeTask_eq_ok hinv.ledger hvalid
    refine ⟨⟨row,hrow,?_,hconsumption⟩,hcurrent.ge⟩
    rw [Option.eq_none_iff_forall_ne_some]
    intro binding hbound
    obtain ⟨_,hnone,_⟩ := hbinding binding hbound
    cases hnone
  | bindingChecked effect =>
    simp only [bindStep,steps_ok,Prod.mk.injEq] at h
    obtain ⟨current,hread,rfl,rfl⟩ := h
    obtain ⟨hcurrent,row,hrow,hspec⟩ := readAuthorityTask_eq_ok hinv.ledger hread
    refine .stay hinv (holds_at hintent ⟨hspec ▸ getStr?_id_of_revision? hinv.ledger hrow,fun htask => ?_⟩)
    obtain ⟨hunbound,hle⟩ := hasserts htask
    rw [htask] at hcurrent hrow
    exact ⟨hunbound,current.revision,row,hcurrent ▸ hle,hcurrent.le,hrow,hspec⟩
  | bindingRead effect spec =>
    simp only [bindStep,steps_ok,Prod.mk.injEq] at h
    obtain ⟨document,hdocument,⟨changed,db'⟩,hput,rfl,rfl⟩ := h
    obtain ⟨hafter,hkeeps,hnames⟩ := bindingWrite_sound id hinv hasserts.1 hasserts.2 hdocument hput
    exact ⟨hafter,hkeeps,holds_at hintent hnames⟩
  | bindingPut effect changed =>
    simp only [bindStep,readBinding,steps_ok,Prod.mk.injEq,Bool.and_eq_true,decide_eq_true_eq,Option.any_eq_true] at h
    obtain ⟨_,⟨readback,hread,_,⟨hrevision,_⟩,_,⟨binding,hbinding,_⟩,rfl⟩,rfl,rfl⟩ := h
    refine .stay hinv (holds_at hintent fun htask => ?_)
    obtain ⟨hcurrent,row,hrow,hspec⟩ := readAuthorityTask_eq_ok hinv.ledger hread
    obtain ⟨found,hfound,hnamed⟩ := hasserts htask
    rw [htask] at hcurrent hrow
    obtain rfl : row = found := by
      rw [← hrevision,hrow] at hfound
      exact Option.some.inj hfound
    rw [← hspec] at hbinding
    refine ⟨binding,?_,hnamed binding hbinding⟩
    rw [storedReceipt_eq hinv.ledger,← hcurrent,hrow,Option.bind_some,hbinding]
  | _ =>
    obtain ⟨rfl,rfl⟩ := Prod.mk.inj (pure_eq_ok.mp h)
    exact .stop hinv

theorem effectStep_sound (hinv : Inv E.sha taskId intents s) (hintent : intents call.intent)
    (phase : Phase) (hasserts : Asserts E.sha taskId id s call.intent phase)
    (h : effectStep id s call i phase = .ok (s',next)) : Advances E.sha taskId intents id s (s',next) := by
  cases phase with
  | bound effect authority =>
    cases effect with
    | true =>
      simp only [effectStep,steps_ok,Prod.mk.injEq,Option.isNone_iff_eq_none] at h
      obtain ⟨_,hfree,rfl,rfl⟩ := h
      have hnew : call.intent.attempt ∉ s.installs.map Intent.attempt := by
        intro hmem
        obtain ⟨intent,hmem,hattempt⟩ := List.mem_map.mp hmem
        have hrecorded := (hinv.installed intent hmem).2.1
        rw [hattempt,hfree] at hrecorded
        cases hrecorded
      have hother (attempt : String × String) (h : (s.started attempt).isSome = true) :
          Function.update s.started call.intent.attempt (some id) attempt = s.started attempt := by
        refine Function.update_of_ne ?_ _ _
        rintro rfl
        simp [hfree] at h
      have hkeeps : Keeps E.sha taskId id s
          { s with started := Function.update s.started call.intent.attempt (some id) } :=
        ⟨fun _ _ _ h => h,le_rfl,fun _ _ h => h,
          fun attempt _ _ h => (hother attempt (by simp [h])).trans h,fun _ _ _ _ h => h⟩
      refine ⟨⟨hinv.ledger,hinv.receipts,hinv.agrees,?_,hinv.distinct⟩,hkeeps,holds_at hintent ⟨⟨?_,hnew⟩,hasserts⟩⟩
      · refine hinv.installed_keeps hkeeps rfl fun attempt h => ?_
        change (Function.update s.started call.intent.attempt (some id) attempt).isSome = true
        rwa [hother attempt h]
      · exact Function.update_self ..
    | false =>
      simp only [effectStep,steps_ok,Prod.mk.injEq] at h
      obtain ⟨_,_,rfl,rfl⟩ := h
      exact .quiet hinv rfl rfl rfl (holds_at hintent trivial)
  | started authority =>
    simp only [effectStep,ite_eq_ok,pure_eq_ok,Prod.mk.injEq] at h
    obtain ⟨_,rfl,rfl⟩ | ⟨_,rfl,rfl⟩ := h
    · exact .stay hinv (holds_at hintent hasserts)
    · exact .stay hinv (holds_at hintent trivial)
  | prepared authority =>
    obtain ⟨rfl,rfl⟩ := Prod.mk.inj (pure_eq_ok.mp h)
    obtain ⟨⟨hstarted,hfree⟩,hbound⟩ := hasserts
    have hkeeps : Keeps E.sha taskId id s { s with installs := s.installs ++ [call.intent] } := by
      refine ⟨fun _ _ _ h => h,le_rfl,fun _ _ h => h,fun _ _ _ h => h,fun attempt other hother hheld hnot => ?_⟩
      -- another call holds another attempt
      have hne : attempt ≠ call.intent.attempt := by
        rintro rfl
        exact hother (Option.some.inj (hheld.symm.trans hstarted))
      simpa [hne] using hnot
    refine ⟨⟨hinv.ledger,hinv.receipts,hinv.agrees,fun intent hmem => ?_,?_⟩,hkeeps,holds_at hintent trivial⟩
    · rcases List.mem_append.mp hmem with hmem | hmem
      · exact hinv.installed intent hmem
      · obtain rfl := List.mem_singleton.mp hmem
        exact ⟨hintent,by simp [hstarted],hbound⟩
    · rw [List.map_append,List.nodup_append]
      refine ⟨hinv.distinct,by simp,fun attempt hmem other hother => ?_⟩
      rintro rfl
      simp only [List.map_cons,List.map_nil,List.mem_singleton] at hother
      exact hfree (hother ▸ hmem)
  | installing authority =>
    simp only [effectStep,ite_eq_ok,pure_eq_ok,Prod.mk.injEq] at h
    obtain ⟨_,rfl,rfl⟩ | ⟨_,rfl,rfl⟩ := h
    · exact .quiet hinv rfl rfl rfl (holds_at hintent trivial)
    · exact .stay hinv (holds_at hintent trivial)
  | failing authority effectStarted =>
    simp only [effectStep,steps_ok,Prod.mk.injEq] at h
    obtain ⟨_,_,rfl,rfl⟩ := h
    exact .quiet hinv rfl rfl rfl fun _ hnone => by cases hnone
  | _ =>
    obtain ⟨rfl,rfl⟩ := Prod.mk.inj (pure_eq_ok.mp h)
    exact .stop hinv

theorem consumeStep_sound (hinv : Inv E.sha taskId intents s) (hintent : intents call.intent)
    (phase : Phase) (hasserts : Asserts E.sha taskId id s call.intent phase)
    (h : consumeStep E K s call i phase = .ok (s',next)) : Advances E.sha taskId intents id s (s',next) := by
  cases phase with
  | consuming item guarded =>
    simp only [consumeStep,bind_eq_ok,ite_eq_ok,pure_eq_ok,Prod.mk.injEq] at h
    obtain ⟨_,_,_,_,current,hread,_,_,⟨_,rfl,rfl⟩ | ⟨_,rfl,rfl⟩⟩ := h
    · exact .stop hinv
    · refine .stay hinv (holds_at hintent ?_)
      cases guarded with
      | true => trivial
      | false => exact (readAuthorityTask_eq_ok hinv.ledger hread).2
  | guarding item =>
    simp only [consumeStep,bind_eq_ok,ite_eq_ok,pure_eq_ok,Prod.mk.injEq] at h
    obtain ⟨current,hread,_,_,⟨_,rfl,rfl⟩ | ⟨_,rfl,rfl⟩⟩ := h
    · exact .stop hinv
    · exact .stay hinv (holds_at hintent (readAuthorityTask_eq_ok hinv.ledger hread).2)
  | consumeRead item current =>
    simp only [consumeStep,validateBoundAuthority,validateCurrentBinding,steps_ok,Prod.mk.injEq,Bool.and_eq_true,
        decide_eq_true_eq,Option.filter_eq_some_iff] at h
    obtain ⟨_,_,_,_,_,⟨_,_,_,_,hrevision,_⟩,_,hvalid,_,⟨binding,⟨hbinding,_⟩,_,hnamed⟩,rfl,rfl⟩ := h
    obtain ⟨row,hrow,hspec⟩ := hasserts
    obtain ⟨_,found,hfound,hunused,_⟩ := validateAuthoritativeTask_eq_ok hinv.ledger hvalid
    obtain rfl : row = found := by
      rw [← hrevision,hrow] at hfound
      exact Option.some.inj hfound
    exact .stay hinv (holds_at hintent ⟨row,hrow,hspec,hunused,binding,hspec ▸ hbinding,hnamed⟩)
  | consumeChecked item current =>
    simp only [consumeStep,steps_ok,Prod.mk.injEq] at h
    obtain ⟨⟨changed,db'⟩,hput,rfl,rfl⟩ := h
    obtain ⟨row,hrow,hspec,hunused,binding,hbinding,hnamed⟩ := hasserts
    obtain ⟨hafter,hkeeps⟩ := consumptionWrite_sound id hinv hrow hspec hunused hbinding hnamed hput
    exact ⟨hafter,hkeeps,fun _ hnone => by cases hnone⟩
  | _ =>
    obtain ⟨rfl,rfl⟩ := Prod.mk.inj (pure_eq_ok.mp h)
    exact .stop hinv

theorem advance_sound (i : Reading) (hinv : Inv E.sha taskId intents s)
    (hholds : Holds E.sha taskId intents id s call) :
    Advances E.sha taskId intents id s (advance E K id s call i) := by
  obtain ⟨hintent,hasserts⟩ := hholds
  unfold advance
  split
  · rename_i after hstep
    unfold applyStep at hstep
    split at hstep
    all_goals
      first
      | exact bindStep_sound hinv hintent _ hasserts hstep
      | exact effectStep_sound hinv hintent _ hasserts hstep
      | exact consumeStep_sound hinv hintent _ hasserts hstep
      | cases hlookup : lookupStep E K s call i call.phase with
        | error e => simp [hlookup,Except.map] at hstep
        | ok next =>
          obtain rfl : (s,next) = after := by simpa [hlookup,Except.map] using hstep
          exact lookupStep_sound hinv hintent _ hlookup
  · exact .stop hinv

end Steps

theorem outline (E : Env) (K : Contracts) (taskId : String) (intents : Intent → Prop) :
    Outline (advance E K) (fun call => intents call.intent ∧ call.phase = .begun) (Inv E.sha taskId intents)
      (Holds E.sha taskId intents) where
  begun := by
    rintro id s ⟨intent,now,phase⟩ _ ⟨hintent,rfl⟩
    exact ⟨hintent,trivial⟩
  kept id s call i hinv hholds := (advance_sound i hinv hholds).1
  next id s call i call' hinv hholds hnext := (advance_sound i hinv hholds).2.2 call' hnext
  others id s call i other m hinv hholds hother hm := (advance_sound i hinv hholds).2.1.holds hother hm

structure Unapplied (sha : Sha) (db : Db) (taskId : String) : Prop where
  unbound : ∀ digest, db.taskSpecMutations[bindKey taskId digest]? = none
  unconsumed : storedReceipt sha db taskId consumptionField = none

theorem Unapplied.inv {sha : Sha} {taskId : String} {intents : Intent → Prop} {s : Shared}
    (h : Unapplied sha s.db taskId) (hledger : s.db.SpecLedger sha) (hinstalls : s.installs = []) :
    Inv sha taskId intents s where
  ledger := hledger
  receipts digest receipt hreceipt := by
    rw [h.unbound] at hreceipt
    cases hreceipt
  agrees consumption hconsumption := by
    rw [h.unconsumed] at hconsumption
    cases hconsumption
  installed := by simp [hinstalls]
  distinct := by simp [hinstalls]

end RuntimeRefresh

open RuntimeRefresh in
/-- The authority of a runtime refresh is used once. However calls of `apply_runtime_refresh` are
interleaved and wherever they stop, the installer is started at most once for a task, for the intent
its authority is bound to; a consumption names that intent; and a receipt the authority carries is
never replaced. Intents are told apart by their digests. -/
theorem runtime_authority_single_use {E : Env} {K : Contracts} {taskId : String} {intents : Intent → Prop}
    {start : Shared} {w : Interleaving.World Shared Call}
    (hstart : Reach (Writer.step E K) (fun _ _ => True) (Db.fresh E.sha) start.db)
    (hunapplied : Unapplied E.sha start.db taskId) (hinstalls : start.installs = [])
    (hsha : ∀ first second, intents first → intents second → first.intentSha256 = second.intentSha256 →
      first = second)
    (hreach : Reach (Interleaving.World.step (advance E K)) (admits fun call => intents call.intent ∧
    call.phase = .begun)
      (Interleaving.World.idle start) w) :
    (w.shared.installs.filter (·.approvalTaskId = taskId)).length ≤ 1 ∧
      (∀ intent ∈ w.shared.installs, intent.approvalTaskId = taskId →
        BoundTo E.sha w.shared.db taskId intent.intentSha256) ∧
      (∀ consumption, storedReceipt E.sha w.shared.db taskId consumptionField = some consumption →
        ∃ binding intent, storedReceipt E.sha w.shared.db taskId bindingField = some binding ∧
          binding.getStr? "intent_sha256" = some intent ∧ consumption.getStr? "intent_sha256" = some intent) ∧
      ∀ later, Reach (Interleaving.World.step (advance E K)) (admits fun call => intents call.intent ∧
        call.phase = .begun)
        w later → ∀ field receipt, storedReceipt E.sha w.shared.db taskId field = some receipt →
          storedReceipt E.sha later.shared.db taskId field = some receipt := by
  have houtline := outline E K taskId intents
  have hsound : w.Sound (Inv E.sha taskId intents) (Holds E.sha taskId intents) :=
    houtline.reach (Interleaving.World.sound_idle (hunapplied.inv (Writer.specLedger_of_reach hstart).1 hinstalls))
      hreach
  refine ⟨?_,fun intent hmem => (hsound.1.installed intent hmem).2.2,hsound.1.agrees,fun later hlater => ?_⟩
  · -- all starts are of the bound intent, and so for one attempt
    have hdistinct : ((w.shared.installs.filter (·.approvalTaskId = taskId)).map Intent.attempt).Nodup :=
      hsound.1.distinct.sublist (List.Sublist.map _ List.filter_sublist)
    have hsame : ∀ first ∈ w.shared.installs.filter (·.approvalTaskId = taskId),
        ∀ second ∈ w.shared.installs.filter (·.approvalTaskId = taskId), first = second := by
      intro first hfirst second hsecond
      simp only [List.mem_filter,decide_eq_true_eq] at hfirst hsecond
      obtain ⟨hfirstIntent,_,hfirstBound⟩ := hsound.1.installed first hfirst.1
      obtain ⟨hsecondIntent,_,hsecondBound⟩ := hsound.1.installed second hsecond.1
      obtain ⟨binding,hbinding,hnamed⟩ := hfirstBound hfirst.2
      obtain ⟨_,hother,hothernamed⟩ := hsecondBound hsecond.2
      rw [hbinding,Option.some.injEq] at hother
      subst hother
      exact hsha _ _ hfirstIntent hsecondIntent (Option.some.inj (hnamed.symm.trans hothernamed))
    generalize w.shared.installs.filter (·.approvalTaskId = taskId) = starts at hdistinct hsame
    match starts with
    | [] | [_] => simp
    | first :: second :: rest =>
      have heq : first = second := hsame first List.mem_cons_self second (by simp)
      simp [heq] at hdistinct
  · exact houtline.related
      (R := fun s s' => ∀ field receipt, storedReceipt E.sha s.db taskId field = some receipt →
        storedReceipt E.sha s'.db taskId field = some receipt)
      (fun _ _ _ h => h) (fun _ _ _ hfirst hsecond field receipt h => hsecond _ _ (hfirst _ _ h))
      (fun _ _ _ i hinv hholds => (advance_sound i hinv hholds).2.1.receipts) hsound hlater

namespace Sample

open RuntimeRefresh

def refreshIntent : Intent := ⟨refreshDigest,"T-1",1,refreshDigest,none,refreshDigest,"main","/state",none⟩

def refreshReading : Reading := ⟨.ok (),none,.deployable,true,true,true,refreshDigest,4⟩

def authorized : Shared :=
  ⟨run (Writer.step refreshEnv contracts) (Db.fresh refreshEnv.sha)
    [.operate (.putTaskSpec 1 (refreshSpec [] []) "put-1" none "operator")],fun _ => none,fun _ => none,fun _ => none,
      []⟩

/-- Two calls of one intent at the same time: both bind, the second one by repeating the put of the
first, and the first one creates the attempt. -/
def raced : List (Event Call Reading) :=
  [.begin 0 ⟨refreshIntent,"2026-01-01",.begun⟩,.begin 1 ⟨refreshIntent,"2026-01-01",.begun⟩] ++
    (List.replicate 8 0 ++ List.replicate 8 1 ++ [0,1,0,1,0,1] ++ List.replicate 6 0).map
      fun id => .advance id refreshReading

def applied : Interleaving.World Shared Call :=
  run (Interleaving.World.step (advance refreshEnv contracts)) (Interleaving.World.idle authorized) raced

end Sample

open RuntimeRefresh in
theorem runtime_authority_single_use_raced :
    (Sample.applied.shared.installs.filter (·.approvalTaskId = "T-1")).length = 1 ∧
      storedReceipt Sample.refreshEnv.sha Sample.applied.shared.db "T-1" bindingField = some Sample.bindingReceipt ∧
      storedReceipt Sample.refreshEnv.sha Sample.applied.shared.db "T-1" consumptionField =
        some Sample.consumptionReceipt ∧
      ∀ later, Reach (Interleaving.World.step (advance Sample.refreshEnv Sample.contracts))
        (admits fun call => call.intent = Sample.refreshIntent ∧ call.phase = .begun) Sample.applied later →
        storedReceipt Sample.refreshEnv.sha later.shared.db "T-1" bindingField = some Sample.bindingReceipt := by
  have hstart : Reach (Writer.step Sample.refreshEnv Sample.contracts) (fun _ _ => True)
      (Db.fresh Sample.refreshEnv.sha) Sample.authorized.db := Reach.run fun _ _ _ => trivial
  have hvalues : (Sample.authorized.db.taskSpecMutations =
        Std.ExtTreeMap.ofList [("put-1",(⟨"T-1",none,Sample.refreshDigest,1⟩ : TaskSpecMutation))] ∧
      storedReceipt Sample.refreshEnv.sha Sample.authorized.db "T-1" consumptionField = none) ∧
      (Sample.applied.shared.installs.filter (·.approvalTaskId = "T-1")).length = 1 ∧
      storedReceipt Sample.refreshEnv.sha Sample.applied.shared.db "T-1" bindingField = some Sample.bindingReceipt ∧
      storedReceipt Sample.refreshEnv.sha Sample.applied.shared.db "T-1" consumptionField =
        some Sample.consumptionReceipt := by
    decide +kernel
  obtain ⟨⟨hmutations,hunconsumed⟩,hstarts,hbinding,hconsumption⟩ := hvalues
  have hunapplied : Unapplied Sample.refreshEnv.sha Sample.authorized.db "T-1" := by
    refine ⟨fun digest => ?_,hunconsumed⟩
    rw [hmutations]
    have hbind : (bindKey "T-1" digest).toList[0]? = some 'r' :=
      getElem?_key "runtime-refresh-bind:" "T-1" digest (by decide +kernel)
    have hne : bindKey "T-1" digest ≠ "put-1" := by
      intro heq
      rw [heq] at hbind
      exact absurd hbind (by decide +kernel)
    simp [Ne.symm hne]
  have hreach : Reach (Interleaving.World.step (advance Sample.refreshEnv Sample.contracts))
      (admits fun call => call.intent = Sample.refreshIntent ∧
        call.phase = .begun) (Interleaving.World.idle Sample.authorized)
      Sample.applied := by
    refine Reach.run fun event hevent _ => ?_
    rcases List.mem_append.mp hevent with hbegin | hadvance
    · simp only [List.mem_cons,List.not_mem_nil,or_false] at hbegin
      obtain rfl | rfl := hbegin <;> exact ⟨rfl,rfl⟩
    · obtain ⟨_,_,rfl⟩ := List.mem_map.mp hadvance
      trivial
  have hsha : ∀ first second : Intent, first = Sample.refreshIntent → second = Sample.refreshIntent →
      first.intentSha256 = second.intentSha256 → first = second := fun _ _ hfirst hsecond _ => hfirst.trans hsecond.symm
  obtain ⟨_,_,_,hlater⟩ := runtime_authority_single_use hstart hunapplied rfl hsha hreach
  exact ⟨hstarts,hbinding,hconsumption,fun later hreach => hlater later hreach _ _ hbinding⟩

end Bureau
