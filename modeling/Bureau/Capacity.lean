import Bureau.ClaimCurrency
import Bureau.RunLifecycle

/-!
Capacity. Every capacity reservation that enters the store was checked against the amounts that
are reserved already. Amounts of at least one unit keep the usage below the declared capacity.
-/

namespace Bureau

open Transactions Relation

variable {resource runId : String} {db db' : Db} {v v' : RunView} {resources : Resources} {capacity : Int}
    {kind : Kind} {sha : Sha} {now : Time} {spec : Json} {row : RunRow} {claim : Claim} {op : Op}

def RunView.units (weigh : Int → Int) (resource : String) (v : RunView) : Int :=
  if v.row.any (·.state.active) then
    (v.held[resource]?.filter fun hold => hold.mode = .capacity).elim 0 fun hold => weigh hold.amount
  else 0

def atLeastOne (amount : Int) : Int := max 1 amount

namespace RunView

theorem units_none (weigh : Int → Int) (resource : String) (h : v.row = none) :
    v.units weigh resource = 0 := by
  simp [units,h]

theorem units_nonneg (resource : String) (v : RunView) : 0 ≤ v.units atLeastOne resource := by
  unfold units
  split
  · cases v.held[resource]?.filter fun hold => hold.mode = .capacity with
    | none => simp
    | some hold => simp [atLeastOne]
  · simp

def Unit (resource : String) (v : RunView) : Prop :=
  ∀ hold, v.held[resource]? = some hold → hold.mode = .capacity → 1 ≤ hold.amount

theorem Unit.units_eq (h : v.Unit resource) :
    v.units id resource = v.units atLeastOne resource := by
  unfold units
  split
  · cases hget : v.held[resource]?.filter fun hold => hold.mode = .capacity with
    | none => rfl
    | some hold =>
      obtain ⟨hheld,hmode⟩ := Option.filter_eq_some_iff.mp hget
      have hamount := h hold hheld (by simpa using hmode)
      simp only [Option.elim_some,id,atLeastOne]
      omega
  · rfl

theorem units_le (resource : String) (v : RunView) : v.units id resource ≤ v.units atLeastOne resource := by
  unfold units
  split
  · cases v.held[resource]?.filter fun hold => hold.mode = .capacity with
    | none => simp
    | some hold =>
      simp only [Option.elim_some,id,atLeastOne]
      omega
  · rfl

theorem units_of_held {weigh : Int → Int} {hold : Hold} (hrow : v.row = some row) (hactive : row.state.active = true)
    (hheld : v.held[resource]? = some hold) (hmode : hold.mode = .capacity) :
    v.units weigh resource = weigh hold.amount := by
  simp [units,hrow,hactive,hheld,hmode,Option.filter]

theorem units_empty (weigh : Int → Int) (resource : String) (h : v.held[resource]? = none) :
    v.units weigh resource = 0 := by
  simp [units,h]

end RunView

namespace Db

def unitsOfOthers (weigh : Int → Int) (resource runId : String) (db : Db) : Int :=
  ∑ other ∈ (Tables.keys db.runs).erase runId, (db.view other).units weigh resource

def unitsInUse (db : Db) (resource : String) : Int :=
  (((db.reservationList none).filter fun item => item.resource = resource ∧ item.mode = .capacity).map
    fun item => atLeastOne item.amount).sum

theorem holdList_units (weigh : Int → Int) (resource runId : String) (db : Db) :
    (((db.holdList runId).filter fun item => item.resource = resource ∧ item.mode = .capacity).map
      fun item => weigh item.amount).sum =
      (((db.heldBy runId)[resource]?.filter fun hold => hold.mode = .capacity).elim 0 fun hold =>
        weigh hold.amount) := by
  have hrows : (db.holdList runId).filter (fun item => item.resource = resource ∧ item.mode = .capacity) =
      ((db.heldBy runId).toList.filter fun hold => hold.1 = resource ∧ hold.2.mode = .capacity).map
        fun hold => ⟨runId,hold.1,hold.2.mode,hold.2.amount⟩ := by
    rw [holdList,List.filter_map]
    rfl
  rw [hrows]
  cases hget : (db.heldBy runId)[resource]?.filter fun hold => hold.mode = .capacity with
  | none =>
    have hnone : ((db.heldBy runId).toList.filter fun hold =>
        hold.1 = resource ∧ hold.2.mode = .capacity) = [] := by
      rw [List.filter_eq_nil_iff]
      rintro ⟨held,hold⟩ hmem hmatch
      obtain ⟨rfl,hmode⟩ : held = resource ∧ hold.mode = .capacity := by simpa using hmatch
      rw [Std.ExtTreeMap.mem_toList_iff_getElem?_eq_some.mp hmem] at hget
      simp [Option.filter,hmode] at hget
    rw [hnone]
    rfl
  | some hold =>
    obtain ⟨hheld,hmode⟩ := Option.filter_eq_some_iff.mp hget
    rw [Tables.filter_toList_eq_singleton hheld (by simpa using hmode)]
    · simp
    · intro held hold' _ hmatch
      have hpair : held = resource ∧ hold'.mode = .capacity := by simpa using hmatch
      exact hpair.1

theorem reservationList_units (weigh : Int → Int) (resource : String) (exclude : Option String) (db : Db) :
    (((db.reservationList exclude).filter fun item => item.resource = resource ∧ item.mode = .capacity).map
      fun item => weigh item.amount).sum =
      ∑ runId ∈ Tables.keys db.runs,
        if !isSet exclude || exclude ≠ some runId then (db.view runId).units weigh resource else 0 := by
  have hrows : ∀ rows : List (String × RunRow), (∀ row ∈ rows, db.runs[row.1]? = some row.2) →
      (((((rows.filter fun item => item.2.state.active).filter fun item =>
          !isSet exclude || exclude ≠ some item.1).map fun item => db.holdList item.1).flatten.filter fun item =>
            item.resource = resource ∧ item.mode = .capacity).map fun item => weigh item.amount).sum =
        (rows.map fun row =>
          if !isSet exclude || exclude ≠ some row.1 then (db.view row.1).units weigh resource else 0).sum := by
    intro rows hget
    induction rows with
    | nil => rfl
    | cons row rest ih =>
      have hrest := ih fun row hrow => hget row (List.mem_cons_of_mem _ hrow)
      have hrow : (db.view row.1).row = some row.2 := hget row List.mem_cons_self
      rw [List.map_cons,List.sum_cons,← hrest]
      by_cases hactive : row.2.state.active = true
      · by_cases hcounted : (!isSet exclude || exclude ≠ some row.1) = true
        · have hunits := holdList_units weigh resource row.1 db
          simp only [List.filter_cons,hactive,if_true,hcounted,List.map_cons,List.flatten_cons,List.filter_append,
            List.map_append,List.sum_append,hunits,RunView.units,hrow,Option.any_some]
          rfl
        · simp only [List.filter_cons,hactive,if_true,hcounted,Bool.false_eq_true,if_false,zero_add]
      · have hidle : (db.view row.1).units weigh resource = 0 := by
          simp [RunView.units,hrow,hactive]
        simp only [List.filter_cons,hactive,Bool.false_eq_true,if_false,hidle,ite_self,zero_add]
  rw [← Tables.sum_toList,reservationList,activeRuns]
  exact hrows _ fun row hrow => Std.ExtTreeMap.mem_toList_iff_getElem?_eq_some.mp hrow

theorem unitsInUse_eq (db : Db) (resource : String) :
    db.unitsInUse resource = ∑ runId ∈ Tables.keys db.runs, (db.view runId).units atLeastOne resource := by
  rw [unitsInUse,reservationList_units]
  simp [isSet]

theorem capacityUsed_eq (db : Db) (resource : String) :
    capacityUsed resource (db.reservationList none) =
      ∑ runId ∈ Tables.keys db.runs, (db.view runId).units id resource := by
  have h := reservationList_units id resource none db
  simpa [capacityUsed,isSet] using h

theorem unitsInUse_split (db : Db) (resource runId : String) :
    db.unitsInUse resource =
      (db.view runId).units atLeastOne resource + db.unitsOfOthers atLeastOne resource runId := by
  rw [unitsInUse_eq,unitsOfOthers]
  exact Tables.sum_keys_split fun h => RunView.units_none atLeastOne resource h

theorem capacityUsed_split (db : Db) (resource runId : String) :
    capacityUsed resource (db.reservationList none) =
      (db.view runId).units id resource + db.unitsOfOthers id resource runId := by
  rw [capacityUsed_eq,unitsOfOthers]
  exact Tables.sum_keys_split fun h => RunView.units_none id resource h

theorem unitsOfOthers_congr (h : ∀ other, other ≠ runId → db'.view other = db.view other) (weigh : Int → Int)
    (resource : String) :
    db'.unitsOfOthers weigh resource runId = db.unitsOfOthers weigh resource runId := by
  refine Tables.sum_keys_erase_congr (fun other hne => ?_) fun other hne => by rw [h other hne]
  have hrow : db'.runs[other]? = db.runs[other]? := congrArg RunView.row (h other hne)
  rw [Tables.mem_keys,Tables.mem_keys,hrow]

/-- Every capacity reservation on the resource is one of at least one unit. -/
def Unit (resource : String) (db : Db) : Prop :=
  ∀ runId, (db.view runId).Unit resource

theorem Unit.unitsOfOthers_le {exclude : Option String} (h : db.Unit resource)
    (hexclude : exclude = none ∨ exclude = some runId) :
    db.unitsOfOthers atLeastOne resource runId ≤ capacityUsed resource (db.reservationList exclude) := by
  have hused := reservationList_units id resource exclude db
  simp only [id] at hused
  rw [capacityUsed,hused,unitsOfOthers]
  refine (Finset.sum_le_sum fun other hother => ?_).trans
    (Finset.sum_le_sum_of_subset_of_nonneg (Finset.erase_subset runId _) fun other _ _ => ?_)
  · have hne := Finset.ne_of_mem_erase hother
    have hcounted : (!isSet exclude || exclude ≠ some other) = true := by
      rcases hexclude with rfl | rfl
      · rfl
      · simp [Ne.symm hne]
    rw [if_pos hcounted,(h other).units_eq]
  · split
    · rw [(h other).units_eq]
      exact RunView.units_nonneg resource _
    · rfl

end Db

/-- The usage the admission check counts is the number of units in use, and it stays within the capacity. -/
structure Db.Within (resource : String) (capacity : Int) (db : Db) : Prop where
  counted : capacityUsed resource (db.reservationList none) = db.unitsInUse resource
  bounded : db.unitsInUse resource ≤ capacity

theorem Db.Unit.counted (h : db.Unit resource) :
    capacityUsed resource (db.reservationList none) = db.unitsInUse resource := by
  rw [capacityUsed_eq,unitsInUse_eq]
  exact Finset.sum_congr rfl fun runId _ => (h runId).units_eq

theorem RunStep.units_le (h : RunStep resources db runId kind v v')
    (hkind : kind ≠ .claim ∧ kind ≠ .resume ∧ kind ≠ .expand) :
    v'.units atLeastOne resource ≤ v.units atLeastOne resource := by
  cases h with
  | idle => rfl
  | @update row row' held receipt _ identity state =>
    have hactive : row'.state.active = row.state.active := by
      rcases state with hsame | ⟨hbefore,hafter⟩
      · rw [hsame]
      · rw [hbefore,hafter]
    simp [RunView.units,hactive]
  | finish identity active failure =>
    rw [RunView.units_empty atLeastOne resource (v := ⟨_,∅,_⟩) (by simp)]
    exact RunView.units_nonneg resource _
  | claim => exact absurd rfl hkind.1
  | resume => exact absurd rfl hkind.2.1
  | expand => exact absurd rfl hkind.2.2
  | complete identity state succeeded =>
    rw [RunView.units_empty atLeastOne resource (v := ⟨_,∅,_⟩) (by simp)]
    exact RunView.units_nonneg resource _

theorem RunStep.unit (h : RunStep resources db runId kind v v')
    (hkind : kind ≠ .claim ∧ kind ≠ .resume ∧ kind ≠ .expand) (hv : v.Unit resource) : v'.Unit resource := by
  cases h with
  | idle => exact hv
  | update => exact hv
  | finish => exact fun hold hheld => by simp at hheld
  | claim => exact absurd rfl hkind.1
  | resume => exact absurd rfl hkind.2.1
  | expand => exact absurd rfl hkind.2.2
  | complete => exact fun hold hheld => by simp at hheld

/-- The invariant: what is held are whole units, and they fit. -/
structure Db.Metered (resource : String) (capacity : Int) (db : Db) : Prop where
  unit : db.Unit resource
  bounded : db.unitsInUse resource ≤ capacity

theorem Db.Metered.within (h : db.Metered resource capacity) :
    db.Within resource capacity :=
  ⟨h.unit.counted,h.bounded⟩

theorem Move.metered (h : Move sha resources kind db db') (hkind : kind ≠ .claim ∧ kind ≠ .resume ∧ kind ≠ .expand)
    (hdb : db.Metered resource capacity) :
    db'.Metered resource capacity := by
  obtain ⟨runId,hothers,hchanged⟩ := h.views
  refine ⟨h.forall_views (fun _ _ _ hstep => hstep.unit hkind) hdb.unit,?_⟩
  have hunits : (db'.view runId).units atLeastOne resource ≤ (db.view runId).units atLeastOne resource := by
    rcases hchanged with hsame | hstep
    · rw [hsame]
    · exact hstep.units_le hkind
  have hbefore := hdb.bounded
  rw [Db.unitsInUse_split db resource runId] at hbefore
  rw [Db.unitsInUse_split db' resource runId,Db.unitsOfOthers_congr hothers]
  omega

/-- What a transaction that reserves claims for a run does: the run takes them beside what the others
hold, and it held nothing before or was active already. -/
structure Takes (resources : Resources) (db db' : Db) (runId : String) (claims : List Claim) : Prop where
  others : ∀ other, other ≠ runId → db'.view other = db.view other
  held : ∀ resource hold, (db'.heldBy runId)[resource]? = some hold →
    (db.heldBy runId)[resource]? = some hold ∨
      ∃ claim ∈ claims, claim.resource = resource ∧ claim.mode = hold.mode ∧ claim.amount = hold.amount
  free : ∃ exclude, (exclude = none ∨ exclude = some runId) ∧
    ∀ claim ∈ claims, claimConflicts claim (db.reservationList exclude) resources = []
  before : db.heldBy runId = ∅ ∨ (db.runs[runId]?).any (·.state.active) = true

theorem capacityReasons_eq_nil {active : List Reservation} (h : capacityReasons claim active resources = [])
    (hmode : claim.mode = .capacity) (hcapacity : (resources[claim.resource]?).bind (·.capacity) = some capacity) :
    capacityUsed claim.resource active + claim.amount ≤ capacity := by
  simp only [capacityReasons,hmode,if_true,hcapacity] at h
  split at h
  · simp at h
  · omega

theorem Takes.metered {claims : List Claim} (h : Takes resources db db' runId claims)
    (hcapacity : (resources[resource]?).bind (·.capacity) = some capacity)
    (hclaims : ∀ claim ∈ claims, claim.resource = resource → claim.mode = .capacity → 1 ≤ claim.amount)
    (hdb : db.Metered resource capacity) : db'.Metered resource capacity := by
  refine ⟨fun other => ?_,?_⟩
  · by_cases hrun : other = runId
    · subst hrun
      intro hold hheld hmode
      rcases h.held resource hold hheld with hbefore | ⟨claim,hclaim,hresource,hclaimMode,hamount⟩
      · exact hdb.unit other hold hbefore hmode
      · rw [← hamount]
        exact hclaims claim hclaim hresource (hclaimMode.trans hmode)
    · rw [h.others other hrun]
      exact hdb.unit other
  · have hbefore := hdb.bounded
    rw [Db.unitsInUse_split db resource runId] at hbefore
    rw [Db.unitsInUse_split db' resource runId,Db.unitsOfOthers_congr h.others]
    have hnonneg := RunView.units_nonneg resource (db.view runId)
    -- the run holds what it held, or an amount that was checked against the others
    by_cases hcounts : (db'.view runId).units atLeastOne resource = 0
    · omega
    unfold RunView.units at hcounts ⊢
    split at hcounts
    · rename_i hactive
      rw [if_pos hactive]
      cases hget : (db'.view runId).held[resource]?.filter fun hold => hold.mode = .capacity with
      | none => simp [hget] at hcounts
      | some hold =>
        obtain ⟨hheld,hmode⟩ := Option.filter_eq_some_iff.mp hget
        have hmode : hold.mode = .capacity := by simpa using hmode
        simp only [Option.elim_some]
        rcases h.held resource hold hheld with hkept | ⟨claim,hclaim,rfl,hclaimMode,hamount⟩
        · rcases h.before with hempty | hrow
          · simp [hempty] at hkept
          · obtain ⟨row,hrow,hrowActive⟩ := (Option.any_eq_true ..).mp hrow
            have hunits : (db.view runId).units atLeastOne resource = atLeastOne hold.amount :=
              RunView.units_of_held hrow hrowActive hkept hmode
            omega
        · obtain ⟨exclude,hexclude,hfree⟩ := h.free
          have hreasons := (claimConflicts_eq_nil_iff.mp (hfree claim hclaim)).2.2
          have hfits := capacityReasons_eq_nil hreasons (hclaimMode.trans hmode) hcapacity
          have hothers := hdb.unit.unitsOfOthers_le hexclude
          have hpositive := hclaims claim hclaim rfl (hclaimMode.trans hmode)
          simp only [atLeastOne]
          omega
    · simp at hcounts

namespace Dispatcher

variable {E : Env} {d : Dispatcher} {db db' : Db}

theorem writeClaim_takes (workers : Table Worker) {task : Task} {eventType : EventType} {payload : Json}
    (h : writeClaim E { db with workers := workers } now runId task row eventType payload = .ok db')
    (hclaims : claimReasons d.registry.resources (db.reservationList none) task = []) (hvalid : db.RunsValid) :
    Takes d.registry.resources db db' runId task.claims := by
  simp only [writeClaim,bind_eq_ok,requireNone_eq_ok] at h
  obtain ⟨_,_,inserted,hinsert,reserved,hreserve,hevent⟩ := h
  obtain ⟨hnew,rfl⟩ := insertRun_eq_ok hinsert
  have hnew : db.runs[runId]? = none := hnew
  obtain ⟨⟨_,rfl⟩,hothers,hheld⟩ := Db.insertReservations_reserves hreserve
  obtain ⟨rows,rfl⟩ := Db.event_extends hevent
  refine ⟨fun other hne => ?_,hheld,⟨none,.inl rfl,claimReasons_eq_nil.mp hclaims⟩,.inl ?_⟩
  · have hview := Db.view_setRun_ne { db with workers := workers } row hne
    simp only [Db.view,RunView.mk.injEq] at hview
    simp only [Db.view,RunView.mk.injEq]
    exact ⟨hview.1,hothers other hne,hview.2.2⟩
  · refine (hvalid.views runId).released fun row hrow => ?_
    have hrow : db.runs[runId]? = some row := hrow
    simp [hnew] at hrow

theorem WrittenClaim.takes {call : ClaimCall} {task : Task} (h : WrittenClaim E d call db db' task runId row)
    (hvalid : db.RunsValid) : Takes d.registry.resources db db' runId task.claims := by
  obtain ⟨workers,_,_,_,hwrite⟩ := h.written
  exact writeClaim_takes workers hwrite h.claims_eq_nil hvalid

theorem resumeOrphanedRun_takes {call : CoordinatedCall} {unchanged : Bool} {request : ResumeRequest}
    (h : d.resumeOrphanedRun E call unchanged request db = .ok db') :
    ∃ fresh authority revisions id task,
      authoritativeTaskRegistry E.sha call.claim.files db = .ok (fresh,authority,revisions) ∧
      fresh.tasks[(id : String)]? = some task ∧
      Takes d.registry.resources db db' request.runId task.claims := by
  have hothers := resumeOrphanedRun_others h
  simp only [resumeOrphanedRun,steps_ok,Option.filter_eq_some_iff] at h
  obtain ⟨_,_,_,_,_,_,row,hrow,_,hresumable,intent,_,⟨fresh,authority,revisions⟩,hfresh,task,⟨htask,_⟩,plan,_,_,_,_,
    _,overlay,_,reasons,hreasons,_,hreviewed,_,_,lease,_,_,_,reserved,hreserve,first,hfirst,hsecond⟩ := h
  have hempty : db.heldBy request.runId = ∅ := by
    simp only [resumableRow,steps_ok] at hresumable
    obtain ⟨_,_,_,_,_,_,_,hheld,_⟩ := hresumable
    simpa using hheld
  have hclaims := claimReasons_of_reviewed hreasons (List.isEmpty_iff.mp hreviewed)
  refine ⟨fresh,authority,revisions,_,task,hfresh,htask,hothers,?_,
    ⟨none,.inl rfl,claimReasons_eq_nil.mp hclaims⟩,.inl hempty⟩
  obtain ⟨_,rfl⟩ := Db.event_extends hsecond
  obtain ⟨_,rfl⟩ := Db.event_extends hfirst
  obtain ⟨_,_,hheld⟩ := Db.insertReservations_reserves hreserve
  intro resource hold hget
  refine hheld resource hold ?_
  rw [← hget]
  have hview := congrArg RunView.held (reserved.view_touchWorker call.claim.now request.workerId request.runId)
  exact congrArg (·[resource]?) hview.symm

theorem expandClaim_takes {reason : String} (h : d.expandClaim db now runId claim reason = .ok db') :
    Takes d.registry.resources db db' runId [claim] := by
  simp only [expandClaim,steps_ok,Db.activeRun_eq_ok] at h
  obtain ⟨_,_,row,⟨hrow,hactive⟩,_,_,_,hreasons,reserved,hreserve,rfl⟩ := h
  obtain ⟨⟨_,rfl⟩,hothers,hheld⟩ := Db.insertReservation_reserves hreserve
  refine ⟨fun other hne => ?_,hheld,⟨some runId,.inr rfl,?_⟩,.inr (by simp [hrow,hactive])⟩
  · rw [Db.view_setRun_ne _ _ hne]
    simp only [Db.view,RunView.mk.injEq]
    exact ⟨trivial,hothers other hne,trivial⟩
  · intro other hother
    obtain rfl := List.mem_singleton.mp hother
    exact List.isEmpty_iff.mp hreasons

end Dispatcher

def unitSpec (spec : Json) : Bool :=
  (spec.getArr "claims").all fun claim => 1 ≤ ((claim.get? "amount").bind Json.int?).getD 1

def Registry.UnitClaims (registry : Registry) : Prop :=
  ∀ (id : String) (task : Task), registry.tasks[id]? = some task → ∀ claim ∈ task.claims, 1 ≤ claim.amount

theorem taskFromAuthoritativeSpec_unit {task : Task} (hspec : unitSpec spec = true)
    (h : taskFromAuthoritativeSpec sha spec = .ok task) : ∀ claim ∈ task.claims, 1 ≤ claim.amount := by
  simp only [taskFromAuthoritativeSpec,steps_ok] at h
  obtain ⟨_,_,state,_,claims,hclaims,rfl⟩ := h
  intro claim hclaim
  obtain ⟨raw,hraw,hread⟩ := exists_of_mem_collect hclaims hclaim
  simp only [Claim.fromRaw,steps_ok] at hread
  obtain ⟨_,_,_,_,rfl⟩ := hread
  exact of_decide_eq_true (List.all_eq_true.mp hspec raw hraw)

theorem authoritativeTaskRegistry_unit {files registry : Registry} {authority : Authority}
    {revisions : Table RevisionRef} (hfiles : files.UnitClaims)
    (hspecs : db.AllSpecs sha fun spec => unitSpec spec = true)
    (h : authoritativeTaskRegistry sha files db = .ok (registry,authority,revisions)) : registry.UnitClaims := by
  intro id task htask
  rcases (authoritativeTaskRegistry_currentView h).tasks id task htask with ⟨current,hcurrent,hread⟩ | ⟨_,hfile⟩
  · exact taskFromAuthoritativeSpec_unit (hspecs id current hcurrent) hread
  · exact hfiles id task hfile

namespace Op

/-- The declared capacity of the resource, wherever an operation reads it. -/
def declares (resource : String) (capacity : Int) (op : Op) : Prop :=
  ∀ resources, op.resources? = some resources → (resources[resource]?).bind (·.capacity) = some capacity

/-- The registry check and the task schema passed what the operation reads or writes unchecked. -/
def validated (E : Env) : Op → Prop
  | .claimNext d _ _ _ | .commitClaimIntent d _ _ => d.registry.UnitClaims
  | .resumeOrphanedRun _ call _ _ => call.claim.files.UnitClaims
  | .putTaskSpecMaterial _ spec _ _ _ => E.schemaError "task" spec = none
  | _ => True

/-- An expansion of the capacity claims on a resource is one of at least one unit. -/
def expandsByUnits (resource : String) (db : Db) : Op → Prop
  | .expandClaim d _ runId claim _ => d.admitsExpansion db runId claim = true → claim.resource = resource →
    claim.mode = .capacity → 1 ≤ claim.amount
  | _ => True

end Op

section Steps

variable {E : Env} {K : Contracts} {db db' : Db} {op : Op} {resource : String} {capacity : Int}

theorem TaskSpecs.put_checked {key source : String} {expected : Option ℕ} {result : TaskSpecs.PutResult}
    (h : TaskSpecs.put E now db spec key expected source = .ok (result,db')) :
    db'.specs = db.specs ∨ E.schemaError "task" spec = none := by
  simp only [put,steps_ok] at h
  obtain ⟨_,_,_,_,_,_,_,_,_,_,h⟩ := h
  split at h
  · rename_i hknown
    rw [Std.ExtTreeMap.contains_eq_isSome_getElem?,Option.isSome_iff_exists] at hknown
    obtain ⟨mutation,hmutation⟩ := hknown
    simp only [putValidatedMaterial,steps_ok,hmutation,Prod.mk.injEq] at h
    obtain ⟨_,_,_,_,_,_,_,_,_,_,_,rfl⟩ := h
    exact .inl rfl
  · simp only [bind_eq_ok,requireNone_eq_ok] at h
    obtain ⟨_,hschema,_⟩ := h
    exact .inr hschema

theorem unitSpec_set {value : Json} {key : String} (h : unitSpec spec = true) (hkey : "claims" ≠ key) :
    unitSpec (spec.set key value) = true := by
  rwa [unitSpec,Json.getArr,Json.get?_set_ne _ _ hkey,← Json.getArr]

theorem step_unitSpecs (hschema : ∀ spec, E.schemaError "task" spec = none → unitSpec spec = true)
    (hop : op.validated E) (h : db.AllSpecs E.sha fun spec => unitSpec spec = true) :
    (step E K db op).AllSpecs E.sha fun spec => unitSpec spec = true := by
  have htransition : ∀ t spec next, unitSpec spec = true → transitionSpec spec t = .ok next → unitSpec next = true := by
    intro t spec next hspec hnext
    rcases transitionSpec_eq_ok hnext with rfl | ⟨_,rfl⟩
    · exact unitSpec_set hspec (by decide)
    · exact unitSpec_set (unitSpec_set hspec (by decide)) (by decide)
  have hcloseout : ∀ files now material backfill taskId, op = .noRunCloseout files now material backfill taskId →
      ∀ spec task plan, unitSpec spec = true → Closeout E.sha files db taskId spec task plan →
        unitSpec (closedSpec spec (closeoutVerification E.sha material task.sha256 plan)) = true := by
    intro files now material backfill taskId _ spec task plan hspec _
    exact unitSpec_set (unitSpec_set hspec (by decide)) (by decide)
  by_cases hdocuments : ∀ spec ∈ op.documents, unitSpec spec = true
  · exact step_allSpecs hdocuments htransition hcloseout h
  · cases op with
    | putTaskSpec now spec key expected source =>
      refine commit_preserves h fun db' hdb' => ?_
      obtain ⟨_,hput⟩ := map_snd_eq_ok.mp hdb'
      rcases TaskSpecs.put_checked hput with hsame | hchecked
      · exact h.congr hsame
      · exact absurd (by simpa [Op.documents] using hschema spec hchecked) hdocuments
    | putTaskSpecMaterial now spec key expected source =>
      exact absurd (by simpa [Op.documents] using hschema spec hop) hdocuments
    | _ => exact absurd (by simp [Op.documents]) hdocuments

theorem apply_metered (hkind : op.kind ≠ .claim ∧ op.kind ≠ .resume ∧ op.kind ≠ .expand)
    (h : op.apply E K db = .ok db') (hdb : db.Metered resource capacity) : db'.Metered resource capacity := by
  rcases apply_moves op.planned_self h with hsingle | hroutine
  · exact hsingle.metered hkind hdb
  · clear h
    induction hroutine with
    | refl => exact hdb
    | tail _ hmove ih =>
      obtain ⟨kind,hmove,hresume,hexpand,_,_,hclaim,_⟩ := hmove.kind_ne
      exact hmove.metered ⟨hclaim,hresume,hexpand⟩ ih

theorem step_metered (hvalid : db.RunsValid) (hspecs : db.AllSpecs E.sha fun spec => unitSpec spec = true)
    (hdeclares : op.declares resource capacity) (hvalidated : op.validated E) (hunits : op.expandsByUnits resource db)
    (h : db.Metered resource capacity) : (step E K db op).Metered resource capacity := by
  refine commit_preserves h fun db' hdb' => ?_
  cases op with
  | claimNext d call workerId filter =>
    obtain ⟨_,hclaim⟩ := map_snd_eq_ok.mp hdb'
    rcases Dispatcher.claimNext_writes hclaim with rfl | ⟨task,runId,row,hwritten⟩
    · exact h
    · obtain ⟨id,htask⟩ := hwritten.listed
      exact (hwritten.takes hvalid).metered (hdeclares _ rfl)
        (fun claim hmem _ _ => hvalidated id task htask claim hmem) h
  | commitClaimIntent d call intent =>
    obtain ⟨_,hclaim⟩ := map_snd_eq_ok.mp hdb'
    rcases Dispatcher.commitClaimIntent_writes hclaim with rfl | ⟨task,runId,row,hwritten⟩
    · exact h
    · obtain ⟨id,htask⟩ := hwritten.listed
      exact (hwritten.takes hvalid).metered (hdeclares _ rfl)
        (fun claim hmem _ _ => hvalidated id task htask claim hmem) h
  | resumeOrphanedRun d call unchanged request =>
    obtain ⟨fresh,_,_,id,task,hfresh,htask,htakes⟩ := Dispatcher.resumeOrphanedRun_takes hdb'
    have hfreshUnit := authoritativeTaskRegistry_unit hvalidated hspecs hfresh
    exact htakes.metered (hdeclares _ rfl) (fun claim hmem _ _ => hfreshUnit id task htask claim hmem) h
  | expandClaim d now runId claim reason =>
    have hadmits := (Dispatcher.expandClaim_eq_ok.mp hdb').1
    refine (Dispatcher.expandClaim_takes hdb').metered (hdeclares _ rfl) ?_ h
    intro other hother hresource hmode
    obtain rfl := List.mem_singleton.mp hother
    exact hunits hadmits hresource hmode
  | _ => exact apply_metered (by simp [Op.kind]) hdb' h

theorem expandsByUnits_of_within (h : (step E K db op).Within resource capacity) : op.expandsByUnits resource db := by
  cases op with
  | expandClaim d now runId claim reason =>
    intro hadmits hresource hmode
    subst hresource
    by_contra hamount
    have hstep : step E K db (.expandClaim d now runId claim reason) =
        Dispatcher.expanded db now runId claim reason := by
      rw [step,Op.apply,Dispatcher.expandClaim_eq_ok.mpr ⟨hadmits,rfl⟩]
      rfl
    rw [hstep] at h
    simp only [Dispatcher.admitsExpansion,Bool.and_eq_true,Option.any_eq_true] at hadmits
    obtain ⟨⟨⟨_,row,hrow,hactive⟩,_⟩,_⟩ := hadmits
    have hview : (Dispatcher.expanded db now runId claim reason).view runId =
        ⟨some { row with error := some ("claim expanded: " ++ reason), updatedAt := now },
          (db.heldBy runId).insert claim.resource ⟨claim.mode,claim.amount,now,claim.claimable⟩,
          db.receipts[runId]?⟩ := by
      simp [Dispatcher.expanded,Db.updateRun,hrow,Db.view,Db.setRun,Db.heldBy]
    have hheld (weigh : Int → Int) : ((Dispatcher.expanded db now runId claim reason).view runId).units weigh
        claim.resource = weigh claim.amount := by
      rw [hview]
      simp [RunView.units,hactive,hmode,Option.filter]
    have hcounted := h.counted
    rw [Db.unitsInUse_split _ _ runId,Db.capacityUsed_split _ _ runId,hheld,hheld] at hcounted
    have hothers : (Dispatcher.expanded db now runId claim reason).unitsOfOthers id claim.resource runId ≤
        (Dispatcher.expanded db now runId claim reason).unitsOfOthers atLeastOne claim.resource runId :=
      Finset.sum_le_sum fun other _ => RunView.units_le claim.resource _
    simp only [id,atLeastOne] at hcounted hothers
    omega
  | _ => trivial

end Steps

theorem metered_of_reach {E : Env} {K : Contracts} (hcapacity : 0 ≤ capacity)
    (hschema : ∀ spec, E.schemaError "task" spec = none → unitSpec spec = true)
    (h : Reach (step E K) (fun db op => op.declares resource capacity ∧ op.validated E ∧
      op.expandsByUnits resource db) (Db.fresh E.sha) db) :
    db.RunsValid ∧ db.AllSpecs E.sha (fun spec => unitSpec spec = true) ∧ db.Metered resource capacity := by
  have hfresh : (Db.fresh E.sha).Metered resource capacity := by
    refine ⟨fun runId hold hheld => ?_,?_⟩
    · simp [Db.view,Db.heldBy,Db.fresh] at hheld
    · have hkeys : Tables.keys (Db.fresh E.sha).runs = ∅ := by
        ext runId
        simp [Tables.mem_keys,Db.fresh]
      rw [Db.unitsInUse_eq,hkeys,Finset.sum_empty]
      exact hcapacity
  refine Reach.invariant (P := fun db => db.RunsValid ∧ db.AllSpecs E.sha (fun spec => unitSpec spec = true) ∧
    db.Metered resource capacity) ⟨.fresh E.sha,.fresh E.sha _,hfresh⟩ ?_ h
  rintro before op ⟨hvalid,hspecs,hmetered⟩ ⟨hdeclares,hvalidated,hunits⟩
  exact ⟨step_invariant (fun _ _ _ hmove hvalid => hvalid.move hmove) hvalid op.planned_self,
    step_unitSpecs hschema hvalidated hspecs,step_metered hvalid hspecs hdeclares hvalidated hunits hmetered⟩

/-- The units in use stay within the declared capacity, and the admission check counts them all, in
every run whose capacity expansions are of at least one unit; an expansion by less than that, once it
is admitted, lowers the count. -/
theorem capacity_respected_iff {E : Env} {K : Contracts} {resource : String} {capacity : Int} (hcapacity : 0 ≤ capacity)
    (hschema : ∀ spec, E.schemaError "task" spec = none → unitSpec spec = true) {db : Db}
    (h : Reach (step E K) (fun db op => op.declares resource capacity ∧ op.validated E ∧
      op.expandsByUnits resource db) (Db.fresh E.sha) db) :
    db.Within resource capacity ∧ ∀ op : Op, op.declares resource capacity → op.validated E →
      ((step E K db op).Within resource capacity ↔ op.expandsByUnits resource db) := by
  obtain ⟨hvalid,hspecs,hmetered⟩ := metered_of_reach hcapacity hschema h
  refine ⟨hmetered.within,fun op hdeclares hvalidated => ⟨expandsByUnits_of_within,fun hunits => ?_⟩⟩
  exact (step_metered hvalid hspecs hdeclares hvalidated hunits hmetered).within

namespace Sample

def unitEnv : Env :=
  { env with schemaError := fun name spec =>
      if name = "task" ∧ unitSpec spec = false then some "amount is less than the minimum of 1" else none }

def laboratory : Resources :=
  Std.ExtTreeMap.ofList [("lab",{ repository "lab" with capacity := some 1 }),("repo.a",repository "repo.a")]

def guest (id resource : String) (mode : Mode) (hmode : mode.claimable) : Task :=
  { task with id := id, claims := [⟨resource,mode,1,"none",hmode⟩] }

def guests : Dispatcher where
  registry := { files with
    resources := laboratory
    tasks := Std.ExtTreeMap.ofList [("T-1",guest "T-1" "repo.a" .write Mode.write_claimable),
      ("T-2",guest "T-2" "lab" .capacity Mode.capacity_claimable),
      ("T-3",guest "T-3" "lab" .capacity Mode.capacity_claimable)] }
  authority := .legacyGitBootstrap
  revisions := ∅

def claimAs (now : Time) (runId workerId : String) : Op :=
  .claimNext guests ⟨guests.registry,observed,now,runId,.null⟩ workerId none

def expandLab (amount : Int) : Op :=
  .expandClaim guests 3 "RUN-1" ⟨"lab",.capacity,amount,"none",Mode.capacity_claimable⟩ "more"

/-- The run of the repository task expands by a number of places before the other two tasks are claimed. -/
def overbook (amount : Int) : List Op :=
  [.registerWorker 1 "a" "codex" [],.registerWorker 1 "b" "codex" [],.registerWorker 1 "c" "codex" [],
    claimAs 2 "RUN-1" "a",expandLab amount,claimAs 4 "RUN-2" "b",claimAs 5 "RUN-3" "c"]

def overbooked (amount : Int) : Db := run (step unitEnv contracts) (Db.fresh unitEnv.sha) (overbook amount)

theorem guests_declares (h : op.resources? = some laboratory ∨ op.resources? = none) :
    op.declares "lab" 1 := by
  intro resources hresources
  rcases h with h | h
  · cases h.symm.trans hresources
    decide +kernel
  · simp [h] at hresources

theorem guests_unit : guests.registry.UnitClaims := by
  intro id task htask claim hclaim
  have hmem := (Tables.get_ofList (by decide) id task).mp htask
  simp only [List.mem_cons,Prod.mk.injEq,List.not_mem_nil,or_false] at hmem
  rcases hmem with ⟨rfl,rfl⟩ | ⟨rfl,rfl⟩ | ⟨rfl,rfl⟩ <;>
    simp only [guest,List.mem_singleton] at hclaim <;> subst hclaim <;> decide

theorem overbook_admitted {amount : Int} (h : op ∈ overbook amount) :
    op.declares "lab" 1 ∧ op.validated unitEnv := by
  simp only [overbook,List.mem_cons,List.not_mem_nil,or_false] at h
  rcases h with rfl | rfl | rfl | rfl | rfl | rfl | rfl
  · exact ⟨guests_declares (.inr rfl),trivial⟩
  · exact ⟨guests_declares (.inr rfl),trivial⟩
  · exact ⟨guests_declares (.inr rfl),trivial⟩
  · exact ⟨guests_declares (.inl rfl),guests_unit⟩
  · exact ⟨guests_declares (.inl rfl),trivial⟩
  · exact ⟨guests_declares (.inl rfl),guests_unit⟩
  · exact ⟨guests_declares (.inl rfl),guests_unit⟩

end Sample

theorem capacity_respected_iff_one : (Sample.overbooked 1).unitsInUse "lab" = 1 ∧
    (Sample.overbooked 1).Within "lab" 1 := by
  have hunits : (Sample.overbooked 1).unitsInUse "lab" = 1 := by decide +kernel
  have hschema : ∀ spec, Sample.unitEnv.schemaError "task" spec = none → unitSpec spec = true := by
    intro spec hspec
    by_contra hunit
    simp [Sample.unitEnv,hunit] at hspec
  have hreach : Reach (step Sample.unitEnv Sample.contracts) (fun db op => op.declares "lab" 1 ∧
      op.validated Sample.unitEnv ∧ op.expandsByUnits "lab" db) (Db.fresh Sample.unitEnv.sha)
      (Sample.overbooked 1) := by
    refine Reach.run fun op hop db => ?_
    obtain ⟨hdeclares,hvalidated⟩ := Sample.overbook_admitted hop
    refine ⟨hdeclares,hvalidated,?_⟩
    simp only [Sample.overbook,List.mem_cons,List.not_mem_nil,or_false] at hop
    rcases hop with rfl | rfl | rfl | rfl | rfl | rfl | rfl
    · trivial
    · trivial
    · trivial
    · trivial
    · exact fun _ _ _ => le_refl 1
    · trivial
    · trivial
  exact ⟨hunits,(capacity_respected_iff (by decide) hschema hreach).1⟩

/-- An expansion by nothing takes the place a task then takes again. -/
theorem zero_expansion_overbooks :
    (∀ op ∈ Sample.overbook 0, op.declares "lab" 1 ∧ op.validated Sample.unitEnv) ∧
      (Sample.overbooked 0).unitsInUse "lab" = 2 ∧ ¬ (Sample.overbooked 0).Within "lab" 1 := by
  have hunits : (Sample.overbooked 0).unitsInUse "lab" = 2 := by decide +kernel
  refine ⟨fun op hop => Sample.overbook_admitted hop,hunits,fun hwithin => ?_⟩
  have hbounded := hwithin.bounded
  rw [hunits] at hbounded
  omega

end Bureau
