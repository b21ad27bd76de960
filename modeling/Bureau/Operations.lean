import Bureau.Moves

/-!
The operations of the store as one step function, and the moves each of them makes.
-/

namespace Bureau

open Transactions Relation

variable {row : RunRow} {db db' : Db} {resources : Resources}
    {actionClass digest error reason runId system taskId trigger workerId : String} {revision : CloseRevision}
    {intent payload receipt : Json} {result : CloseResult} {eventType : EventType} {claims : List Claim} {E : Env}
    {activity initiative resource : Option String} {staleAfter : Int} {now : Time} {unchanged : Bool}
    {capabilities : List String} {reasons : List Reason} {contract rebind : Option Json} {op : Op} {K : Contracts}

namespace Db

variable {sha : Sha} {resources : Resources} {db db' : Db} {now : Time} {runId : String}

theorem bind_move {externalId : String} (h : db.bind sha now runId system externalId = .ok db') :
    Move sha resources .plain db db' := by
  simp only [bind,steps_ok,activeRun_eq_ok] at h
  obtain ⟨row,⟨hrow,hactive⟩,_,_,_,_,hevent⟩ := h
  exact .of_runEvent hevent (.setRun hrow (.update rfl (.inr ⟨hactive,rfl⟩) (.inl rfl))) rfl rfl

theorem prepareDispatch_move (h : db.prepareDispatch sha now runId system = .ok db') :
    db' = db ∨ Move sha resources .plain db db' := by
  simp only [prepareDispatch,steps_ok,activeRun_eq_ok,ite_eq_ok] at h
  obtain ⟨row,⟨hrow,hactive⟩,⟨_,rfl⟩ | ⟨_,_,_,hevent⟩⟩ := h
  · exact .inl rfl
  · exact .inr (.of_runEvent hevent (.setRun hrow (.update rfl (.inl rfl) (.inl rfl))) rfl rfl)

theorem markDispatchUncertain_move (h : db.markDispatchUncertain sha now runId error = .ok db') :
    Move sha resources .plain db db' := by
  simp only [markDispatchUncertain,bind_eq_ok,activeRun_eq_ok] at h
  obtain ⟨row,⟨hrow,hactive⟩,hevent⟩ := h
  exact .of_runEvent hevent (.setRun hrow (.update rfl (.inl rfl) (.inl rfl))) rfl rfl

theorem heartbeat_move {workerId : Option String} (h : db.heartbeat sha now runId workerId = .ok db') :
    Move sha resources .plain db db' := by
  simp only [heartbeat,steps_ok,activeRun_eq_ok] at h
  obtain ⟨row,⟨hrow,hactive⟩,_,_,hevent⟩ := h
  have hwrite : RunWrite resources .plain db
      (db.setRun runId { row with heartbeatAt := now, updatedAt := now }) runId :=
    .setRun hrow (.update rfl (.inl rfl) (.inl rfl))
  refine .of_runEvent hevent (hwrite.touchWorker now row.workerId) ?_ rfl (by decide)
    fun _ => workspaces_touchWorker _ now row.workerId
  unfold touchWorker
  split <;> rfl

theorem failRun_move {state : RunState} (h : db.failRun sha now runId error state = .ok db') :
    Move sha resources .plain db db' := by
  simp only [failRun,steps_ok,activeRun_eq_ok,decide_eq_true_eq] at h
  obtain ⟨_,hstate,row,⟨hrow,hactive⟩,hevent⟩ := h
  exact .of_runEvent hevent (.finish hrow rfl hactive hstate) rfl rfl

theorem boundActivityHeartbeat_move {activityId : String} {binding : ActivityBinding}
    (h : db.boundActivityHeartbeat sha now runId activityId binding payload = .ok db') :
    Move sha resources .activity db db' := by
  simp only [boundActivityHeartbeat,steps_ok,activeRun_eq_ok] at h
  obtain ⟨row,⟨hrow,hactive⟩,_,_,_,_,hevent⟩ := h
  have hwrite : RunWrite resources .activity db
      (db.setRun runId { row with heartbeatAt := now, updatedAt := now }) runId :=
    .setRun hrow (.update rfl (.inl rfl) (.inr (.inr rfl)))
  have hjournal : ((db.setRun runId { row with heartbeatAt := now, updatedAt := now }).touchWorker now
      row.workerId).runEvents sha runId [(.runHeartbeat,payload,some activityId)] = .ok db' := by
    simp only [runEvents,bind_eq_ok]
    exact ⟨db',hevent,rfl⟩
  refine .run (hwrite.touchWorker now row.workerId) ?_ (by decide) (by simp) (by simp [EventType.ordinary]) hjournal
    (fun _ => workspaces_touchWorker _ now row.workerId) (fun hkind => absurd rfl hkind)
  unfold touchWorker
  split <;> rfl

theorem setInitiativeState_move {initiativeId state : String}
    (h : db.setInitiativeState sha now initiativeId state = .ok db') :
    db' = db ∨ Move sha resources .plain db db' := by
  simp only [setInitiativeState,steps_ok,ite_eq_ok] at h
  obtain ⟨_,_,⟨_,rfl⟩ | ⟨_,hevent⟩⟩ := h
  · exact .inl rfl
  · exact .inr (.initiative hevent)

theorem createWorkspace_move {tree : Worktree} (h : db.createWorkspace sha now runId tree = .ok db') :
    db' = db ∨ Move sha resources .workspace db db' := by
  simp only [createWorkspace,steps_ok,ite_eq_ok] at h
  obtain ⟨row,hrow,⟨_,rfl⟩ | ⟨_,hevent⟩⟩ := h
  · exact .inl rfl
  · have hwrite : RunWrite resources .workspace db (db.setRun runId { row with
        workspacePath := some tree.path
        workspaceBranch := some tree.branch
        updatedAt := now }) runId := .setRun hrow (.update rfl (.inl rfl) (.inr (.inl rfl)))
    exact .inr (.of_runEvent hevent (hwrite.setWorkspace runId _) rfl rfl (by decide) fun h => absurd rfl h)

theorem preserveWorkspace_move (h : db.preserveWorkspace sha now runId reason = .ok db') :
    Move sha resources .workspace db db' := by
  simp only [preserveWorkspace,steps_ok] at h
  obtain ⟨row,_,hevent⟩ := h
  exact .of_runEvent hevent ((RunWrite.idle resources db runId).setWorkspace runId _) rfl rfl (by decide)
    fun h => absurd rfl h

theorem removeWorkspace_move (h : db.removeWorkspace sha now runId payload = .ok db') :
    Move sha resources .workspace db db' := by
  simp only [removeWorkspace,steps_ok] at h
  obtain ⟨row,_,hevent⟩ := h
  exact .of_runEvent hevent ((RunWrite.idle resources db runId).setWorkspace runId _) rfl rfl (by decide)
    fun h => absurd rfl h

theorem registerWorker_move {kind : String} (h : db.registerWorker now workerId kind capabilities = .ok db') :
    Move sha resources .plain db db' := by
  simp only [registerWorker,steps_ok] at h
  obtain ⟨_,_,rfl⟩ := h
  exact .quiet (fun _ => rfl) rfl rfl rfl rfl rfl rfl

theorem appendProjectionSnapshot_rows {run task : Option String}
    (h : db.appendProjectionSnapshot sha trigger run task initiative = .ok db') :
    ∃ rows, db' = db.extend rows ∧ ∀ row ∈ rows, row = db.nextRow .projection row.payload run none := by
  simp only [appendProjectionSnapshot,bind_eq_ok] at h
  obtain ⟨payload?,_,h⟩ := h
  cases payload? with
  | none =>
    simp only [pure_eq_ok] at h
    exact ⟨[],by rw [extend_nil,h],by simp⟩
  | some payload =>
    obtain ⟨_,rfl⟩ := insertEvent_eq_ok h
    exact ⟨_,rfl,by simp [nextRow]⟩

theorem event_rows {run : Option String} (h : db.event sha eventType payload run initiative activity = .ok db') :
    ∃ rows, db' = db.extend (db.nextRow eventType (.plain payload) run activity :: rows) ∧
      ∀ row ∈ rows, row.eventType = .projection ∧ row.activityId = none := by
  simp only [event,bind_eq_ok] at h
  obtain ⟨first,hfirst,hrest⟩ := h
  obtain ⟨_,rfl⟩ := insertEvent_eq_ok hfirst
  split at hrest
  · obtain ⟨rows,rfl,hrows⟩ := appendProjectionSnapshot_rows hrest
    exact ⟨rows,extend_extend ..,fun row hrow => by rw [hrows row hrow]; exact ⟨rfl,rfl⟩⟩
  · simp only [pure_eq_ok] at hrest
    exact ⟨[],hrest.symm,by simp⟩

theorem event_extends {run : Option String} (h : db.event sha eventType payload run initiative activity = .ok db') :
    ∃ rows, db' = db.extend rows := by
  obtain ⟨rows,rfl,_⟩ := event_rows h
  exact ⟨_,rfl⟩

theorem runEvents_extends {events : List (EventType × Json × Option String)}
    (h : db.runEvents sha runId events = .ok db') : ∃ rows, db' = db.extend rows := by
  induction events generalizing db with
  | nil => exact ⟨[],by rw [extend_nil,Except.ok.inj h]⟩
  | cons e rest ih =>
    simp only [runEvents,bind_eq_ok] at h
    obtain ⟨mid,hevent,hrest⟩ := h
    obtain ⟨first,rfl⟩ := event_extends hevent
    obtain ⟨later,rfl⟩ := ih hrest
    exact ⟨_,extend_extend ..⟩

theorem appendTaskProjectionDelta_extends (h : db.appendTaskProjectionDelta sha trigger taskId = .ok db') :
    ∃ rows, db' = db.extend rows := by
  simp only [appendTaskProjectionDelta,bind_eq_ok] at h
  obtain ⟨_,_,h⟩ := h
  obtain ⟨rows,hrows,_⟩ := appendProjectionSnapshot_rows h
  exact ⟨rows,hrows⟩

end Db

/-- The rows a kind of transaction may write besides TaskSpec revisions. -/
def Kind.Records (kind : Kind) (row : EventRow) : Prop :=
  row.eventType ≠ .taskSpecRevisionSet ∧ (row.eventType = .runCompleted → kind = .complete) ∧
    (row.eventType = .claimIntentIssued → kind = .issue) ∧ (kind ≠ .activity → row.activityId = none)

/-- The journal goes on with rows of one kind of transaction, numbered from its end. -/
def Db.Grows (kind : Kind) (db db' : Db) : Prop :=
  ∃ rows, db'.events = db.events ++ rows ∧ db'.nextEventId = db.nextEventId+rows.length ∧
    ∀ row ∈ rows, row.eventId < db'.nextEventId ∧ kind.Records row

theorem Kind.records_ordinary {kind : Kind} {row : EventRow} (hordinary : row.eventType.ordinary = true)
    (hunbound : kind ≠ .activity → row.activityId = none) : kind.Records row := by
  obtain ⟨_,hcompleted,hrevision,hissued⟩ := EventType.ordinary_eq_true.mp hordinary
  exact ⟨hrevision,fun h => absurd h hcompleted,fun h => absurd h hissued,hunbound⟩

namespace Db.Grows

variable {kind : Kind} {mid : Db}

theorem refl (hevents : db'.events = db.events) (hnext : db'.nextEventId = db.nextEventId) : db.Grows kind db' :=
  ⟨[],by rw [hevents,List.append_nil],hnext,by simp⟩

theorem trans (h : db.Grows kind mid) (h' : mid.Grows kind db') : db.Grows kind db' := by
  obtain ⟨rows,hevents,hnext,hrows⟩ := h
  obtain ⟨rows',hevents',hnext',hrows'⟩ := h'
  refine ⟨rows ++ rows',by rw [hevents',hevents,List.append_assoc],by rw [List.length_append]; omega,fun row hrow => ?_⟩
  rcases List.mem_append.mp hrow with hrow | hrow
  · obtain ⟨hid,hrecords⟩ := hrows row hrow
    exact ⟨by omega,hrecords⟩
  · exact hrows' row hrow

theorem one {event : EventRow} (hid : event.eventId = db.nextEventId) (h : kind.Records event) :
    db.Grows kind (db.extend [event]) := by
  refine ⟨[event],rfl,rfl,fun row hrow => ?_⟩
  obtain rfl := List.mem_singleton.mp hrow
  exact ⟨by rw [hid]; exact Nat.lt_succ_self _,h⟩

theorem appendProjectionSnapshot {run task : Option String}
    (h : db.appendProjectionSnapshot sha trigger run task initiative = .ok db') : db.Grows kind db' := by
  obtain ⟨rows,rfl,hrows⟩ := appendProjectionSnapshot_rows h
  refine ⟨rows,rfl,rfl,fun row hrow => ?_⟩
  rw [hrows row hrow]
  exact ⟨Nat.lt_add_of_pos_right (List.length_pos_of_mem hrow),by simp [Kind.Records,nextRow]⟩

theorem event {run : Option String} (h : db.event sha eventType payload run initiative activity = .ok db')
    (hrow : kind.Records (db.nextRow eventType (.plain payload) run activity)) : db.Grows kind db' := by
  simp only [Db.event,bind_eq_ok] at h
  obtain ⟨first,hfirst,hrest⟩ := h
  obtain ⟨_,rfl⟩ := insertEvent_eq_ok hfirst
  have hone : db.Grows kind (db.extend [db.nextRow eventType (.plain payload) run activity]) := .one rfl hrow
  split at hrest
  · exact hone.trans (appendProjectionSnapshot hrest)
  · exact pure_eq_ok.mp hrest ▸ hone

theorem runEvents {events : List (EventType × Json × Option String)} (h : db.runEvents sha runId events = .ok db')
    (hordinary : ∀ e ∈ events, e.1.ordinary = true) (hunbound : kind ≠ .activity → ∀ e ∈ events, e.2.2 = none) :
    db.Grows kind db' := by
  induction events generalizing db with
  | nil => exact Except.ok.inj h ▸ .refl rfl rfl
  | cons e rest ih =>
    simp only [Db.runEvents,bind_eq_ok] at h
    obtain ⟨mid,hevent,hrest⟩ := h
    have hfirst : kind.Records (db.nextRow e.1 (.plain e.2.1) (some runId) e.2.2) :=
      Kind.records_ordinary (hordinary e List.mem_cons_self) fun hkind => hunbound hkind e List.mem_cons_self
    exact (Grows.event hevent hfirst).trans (ih hrest (fun e he => hordinary e (List.mem_cons_of_mem _ he))
      fun hkind e he => hunbound hkind e (List.mem_cons_of_mem _ he))

end Db.Grows

/-- What a transaction leaves alone besides the views of its run. -/
structure Db.Frame (kind : Kind) (db db' : Db) : Prop where
  grows : db.Grows kind db'
  specs : db'.specs = db.specs
  workspaces : kind ≠ .workspace → db'.workspaces = db.workspaces

theorem Move.frame {kind : Kind} (h : Move sha resources kind db db') :
    db.Frame kind db' ∨ kind = .publish ∧
      ((∃ now next key expected, db' = TaskSpecs.setRevision now db next key expected ∧ SpecSuccessor sha db next ∧
        SpecWrite sha db next.taskId key expected next.source) ∨
      ∃ taskId key source expected current, db' = db.noteMutation current key expected ∧
        SpecWrite sha db taskId key expected source ∧ TaskSpecs.getCurrent sha db taskId = .ok (some current)) := by
  cases h with
  | run write taskStatus incomplete recorded ordinary journal workspaces unbound =>
    have hgrows := (Db.Grows.refl write.events write.nextEventId).trans (.runEvents journal ordinary unbound)
    obtain ⟨rows,rfl⟩ := Db.runEvents_extends journal
    exact .inl ⟨hgrows,write.specs,workspaces⟩
  | complete write written taskStatus journal verified workspaces =>
    have hgrows : db.Grows .complete db' :=
      (Db.Grows.refl write.events write.nextEventId).trans (.event journal (by simp [Kind.Records,Db.nextRow]))
    obtain ⟨rows,rfl⟩ := Db.event_extends journal
    exact .inl ⟨hgrows,write.specs,fun _ => workspaces⟩
  | issue journal =>
    have hgrows : db.Grows .issue db' := .event journal (by simp [Kind.Records,Db.nextRow])
    obtain ⟨rows,rfl⟩ := Db.event_extends journal
    exact .inl ⟨hgrows,rfl,fun _ => rfl⟩
  | expand write taskStatus workspaces =>
    exact .inl ⟨.refl write.events write.nextEventId,write.specs,fun _ => workspaces⟩
  | initiative journal =>
    have hgrows : Db.Grows .plain _ db' := .event journal (by simp [Kind.Records,Db.nextRow])
    obtain ⟨rows,rfl⟩ := Db.event_extends journal
    exact .inl ⟨hgrows,rfl,fun _ => rfl⟩
  | task journal =>
    simp only [Db.appendTaskProjectionDelta,bind_eq_ok] at journal
    obtain ⟨_,_,journal⟩ := journal
    have hgrows : Db.Grows .plain _ db' := .appendProjectionSnapshot journal
    obtain ⟨rows,rfl,_⟩ := Db.appendProjectionSnapshot_rows journal
    exact .inl ⟨hgrows,rfl,fun _ => rfl⟩
  | spec successor write => exact .inr ⟨rfl,.inl ⟨_,_,_,_,rfl,successor,write⟩⟩
  | known write read => exact .inr ⟨rfl,.inr ⟨_,_,_,_,_,rfl,write,read⟩⟩
  | quiet views taskStatus initiativeStatus specs events nextEventId workspaces =>
    exact .inl ⟨.refl events nextEventId,specs,fun _ => workspaces⟩
  | normalize id schema ordinary unbound =>
    exact .inl ⟨.one id (Kind.records_ordinary ordinary fun _ => unbound),rfl,fun _ => rfl⟩
  | backfill drift recorded id schema replayed unbound =>
    refine .inl ⟨.one id ?_,rfl,fun _ => rfl⟩
    rcases recorded with htype | htype <;> simp [Kind.Records,htype,unbound]

theorem Move.frame_of_ne {kind : Kind} (h : Move sha resources kind db db')
    (hkind : kind ≠ .publish) : db.Frame kind db' :=
  h.frame.resolve_right fun hpublish => hkind hpublish.1

/-- A run may end and lose what it holds; nothing makes it active. -/
structure RunView.Settles (v v' : RunView) : Prop where
  receipt : v'.receipt = v.receipt
  held : v'.held = v.held ∨ v'.held = ∅
  row : ∀ row', v'.row = some row' → ∃ row, v.row = some row ∧ row'.identity = row.identity ∧
    (row'.state.active = true → row.state.active = true)

namespace RunView.Settles

theorem refl (v : RunView) : v.Settles v :=
  ⟨rfl,.inl rfl,fun row hrow => ⟨row,hrow,rfl,id⟩⟩

theorem trans {v v' v'' : RunView} (h : v.Settles v') (h' : v'.Settles v'') : v.Settles v'' where
  receipt := h'.receipt.trans h.receipt
  held := by
    rcases h'.held with hheld | hheld
    · rw [hheld]
      exact h.held
    · exact .inr hheld
  row row'' hrow'' := by
    obtain ⟨row',hrow',hidentity',hactive'⟩ := h'.row row'' hrow''
    obtain ⟨row,hrow,hidentity,hactive⟩ := h.row row' hrow'
    exact ⟨row,hrow,hidentity'.trans hidentity,hactive ∘ hactive'⟩

end RunView.Settles

theorem RunStep.settles {v v' : RunView} (h : RunStep resources db runId .plain v v') : v.Settles v' := by
  cases h with
  | idle => exact .refl v
  | @update row row' _ _ _ identity state =>
    refine ⟨rfl,.inl rfl,?_⟩
    rintro _ ⟨⟩
    refine ⟨row,rfl,identity,fun hactive => ?_⟩
    rcases state with hsame | ⟨hbefore,_⟩
    · rwa [← hsame]
    · exact hbefore
  | @finish row row' _ _ identity active =>
    refine ⟨rfl,.inr rfl,?_⟩
    rintro _ ⟨⟩
    exact ⟨row,rfl,identity,fun _ => active⟩

/-- What `reconcile` leaves of the store: the rows of tasks and initiatives stay, no run is added or
becomes active, and holds are only given up. -/
structure Db.Settles (db db' : Db) : Prop where
  taskStatus : db'.taskStatus = db.taskStatus
  initiativeStatus : db'.initiativeStatus = db.initiativeStatus
  views : ∀ runId, (db.view runId).Settles (db'.view runId)

theorem Db.Settles.refl (db : Db) : db.Settles db :=
  ⟨rfl,rfl,fun _ => .refl _⟩

theorem Db.Settles.trans {mid : Db} (h : db.Settles mid) (h' : mid.Settles db') : db.Settles db' :=
  ⟨h'.taskStatus.trans h.taskStatus,h'.initiativeStatus.trans h.initiativeStatus,
    fun runId => (h.views runId).trans (h'.views runId)⟩

theorem Db.Settles.receipts (h : db.Settles db') : db'.receipts = db.receipts :=
  Std.ExtTreeMap.ext_getElem? fun runId => (h.views runId).receipt

structure RunMoves (sha : Sha) (resources : Resources) (db db' : Db) (runId : String) : Prop where
  moves : ReflTransGen (Move sha resources .plain) db db'
  others : ∀ other, other ≠ runId → db'.view other = db.view other
  settles : db.Settles db'

namespace RunMoves

variable {sha : Sha} {resources : Resources} {db db' db'' : Db} {now : Time} {runId : String}

theorem refl : RunMoves sha resources db db runId :=
  ⟨.refl,fun _ _ => rfl,.refl db⟩

theorem trans (first : RunMoves sha resources db db' runId) (second : RunMoves sha resources db' db'' runId) :
    RunMoves sha resources db db'' runId :=
  ⟨first.moves.trans second.moves,fun other h => (second.others other h).trans (first.others other h),
    first.settles.trans second.settles⟩

theorem of_runEvent (journal : db'.runEvent sha eventType payload runId = .ok db'')
    (write : RunWrite resources .plain db db' runId) (taskStatus : db'.taskStatus = db.taskStatus)
    (ordinary : eventType.ordinary = true) (workspaces : db'.workspaces = db.workspaces := by exact rfl) :
    RunMoves sha resources db db'' runId := by
  have hmove : Move sha resources .plain db db'' :=
    .of_runEvent journal write taskStatus ordinary (by decide) fun _ => workspaces
  obtain ⟨rows,rfl⟩ := Db.event_extends journal
  refine ⟨.single hmove,write.others,taskStatus,write.initiativeStatus,fun other => ?_⟩
  change (db.view other).Settles (db'.view other)
  by_cases hrun : other = runId
  · exact hrun ▸ write.step.settles
  · rw [write.others other hrun]
    exact .refl _

theorem externalTerminal {observation : Observation} {final : RunState} (hrow : db.runs[runId]? = some row)
    (hactive : row.state.active = true) (hfinal : final ∈ failureStates)
    (h : db.externalTerminal sha now runId observation final = .ok db') : RunMoves sha resources db db' runId := by
  simp only [Db.externalTerminal,Db.updateRun_of_get _ hrow] at h
  exact .of_runEvent h (.finish hrow rfl hactive hfinal) rfl rfl

theorem observeRun {reply : AdapterReply} (hrow : db.runs[runId]? = some row) (hactive : row.state.active = true)
    (h : db.observeRun sha now reply runId = .ok db') :
    RunMoves sha resources db db' runId := by
  unfold Db.observeRun at h
  split at h
  · exact Except.ok.inj h ▸ .refl
  · split at h
    · rw [Db.updateRun_of_get _ hrow] at h
      exact .of_runEvent h (.setRun hrow (.update rfl (.inl rfl) (.inl rfl))) rfl rfl
    · simp only [Db.updateRun_of_get _ hrow,bind_eq_ok] at h
      obtain ⟨mid,hfirst,hsecond⟩ := h
      exact (RunMoves.of_runEvent hfirst (.setRun hrow (.update rfl (.inr ⟨hactive,rfl⟩) (.inl rfl))) rfl rfl).trans
        (.of_runEvent hsecond (.idle resources mid runId) rfl rfl)
    · exact externalTerminal hrow hactive (by decide) h
    · exact externalTerminal hrow hactive (by decide) h
    · exact externalTerminal hrow hactive (by decide) h
    · exact externalTerminal hrow hactive (by decide) h
    · exact Except.ok.inj h ▸ .refl

theorem reconcileRun {reply : AdapterReply} (hrow : db.runs[runId]? = some row) (hactive : row.state.active = true)
    (h : db.reconcileRun sha now staleAfter reply runId row = .ok db') : RunMoves sha resources db db' runId := by
  unfold Db.reconcileRun at h
  split at h
  · split at h
    · exact Except.ok.inj h ▸ .refl
    · rw [Db.updateRun_of_get _ hrow] at h
      exact .of_runEvent h (.finish hrow rfl hactive (by simp [failureStates])) rfl rfl
  · split at h
    · exact Except.ok.inj h ▸ .refl
    · split at h
      · exact observeRun hrow hactive h
      · split at h
        · exact Except.ok.inj h ▸ .refl
        · exact Except.ok.inj h ▸ .refl
        · simp only [Db.updateRun_of_get _ hrow,bind_eq_ok] at h
          obtain ⟨mid,hfirst,hsecond⟩ := h
          have hmid : mid.runs[runId]? = some { row with
              externalId := some ‹String›
              externalState := some "running"
              state := .running
              externalObservedAt := some now
              heartbeatAt := now
              updatedAt := now } := by
            obtain ⟨rows,rfl⟩ := Db.event_extends hfirst
            simp [Db.setRun]
          exact (RunMoves.of_runEvent hfirst (.setRun hrow (.update rfl (.inr ⟨hactive,rfl⟩) (.inl rfl))) rfl rfl).trans
            (observeRun hmid rfl hsecond)

end RunMoves

namespace Db

variable {sha : Sha} {resources : Resources} {db db' : Db} {now : Time} {runId : String}

/-- The rows read before the loop are still those of the table when their turn comes. -/
theorem reconcileRuns_moves {replies : String → AdapterReply} {rows : List (String × RunRow)}
    (hkeys : (rows.map Prod.fst).Nodup)
    (hrows : ∀ item ∈ rows, db.runs[item.1]? = some item.2 ∧ item.2.state.active = true)
    (h : reconcileRuns sha now staleAfter replies rows db = .ok db') :
    ReflTransGen (Move sha resources .plain) db db' ∧ db.Settles db' := by
  induction rows generalizing db with
  | nil => exact Except.ok.inj h ▸ ⟨.refl,.refl db⟩
  | cons item rest ih =>
    simp only [reconcileRuns,bind_eq_ok] at h
    obtain ⟨mid,hfirst,hrest⟩ := h
    obtain ⟨hrow,hactive⟩ := hrows item List.mem_cons_self
    have hmoves : RunMoves sha resources db mid item.1 := .reconcileRun hrow hactive hfirst
    rw [List.map_cons,List.nodup_cons] at hkeys
    have hrows' : ∀ other ∈ rest, mid.runs[other.1]? = some other.2 ∧ other.2.state.active = true := by
      intro other hother
      have hne : other.1 ≠ item.1 := by
        intro heq
        exact hkeys.1 (heq ▸ List.mem_map_of_mem hother)
      have hview := congrArg RunView.row (hmoves.others other.1 hne)
      obtain ⟨hget,hact⟩ := hrows other (List.mem_cons_of_mem _ hother)
      exact ⟨(show mid.runs[other.1]? = db.runs[other.1]? from hview).trans hget,hact⟩
    obtain ⟨hlater,hsettles⟩ := ih hkeys.2 hrows' hrest
    exact ⟨hmoves.moves.trans hlater,hmoves.settles.trans hsettles⟩

theorem reconcile_moves {replies : String → AdapterReply} (h : db.reconcile sha now staleAfter replies = .ok db') :
    ReflTransGen (Move sha resources .plain) db db' ∧ db.Settles db' := by
  refine reconcileRuns_moves ?_ (fun item hitem => mem_activeRuns.mp hitem) h
  exact ((Tables.keys_nodup db.runs).sublist ((List.filter_sublist).map Prod.fst))

theorem heldBy_insertReservation {claim : Claim} (h : db.insertReservation runId now claim = .ok db') :
    ∃ held, held = (db.heldBy runId).insert claim.resource ⟨claim.mode,claim.amount,now,claim.claimable⟩ ∧
      db' = { db with reservations := db.reservations.insert runId held } := by
  simp only [insertReservation,steps_ok] at h
  obtain ⟨_,_,rfl⟩ := h
  exact ⟨_,rfl,rfl⟩

/-- What inserting reservations changes: only the holds of the run, and these only by the claims. -/
structure Reserves (db db' : Db) (runId : String) (claims : List Claim) : Prop where
  tables : ∃ reservations, db' = { db with reservations := reservations }
  others : ∀ other, other ≠ runId → db'.heldBy other = db.heldBy other
  held : ∀ resource hold, (db'.heldBy runId)[resource]? = some hold →
    (db.heldBy runId)[resource]? = some hold ∨
      ∃ claim ∈ claims, claim.resource = resource ∧ claim.mode = hold.mode ∧ claim.amount = hold.amount

theorem insertReservation_reserves {claim : Claim} (h : db.insertReservation runId now claim = .ok db') :
    Reserves db db' runId [claim] := by
  obtain ⟨held,hheld,rfl⟩ := heldBy_insertReservation h
  refine ⟨⟨_,rfl⟩,fun other hne => ?_,fun resource hold hget => ?_⟩
  · simp only [heldBy,Tables.get_insert_ne _ _ hne]
  · have hself : heldBy { db with reservations := db.reservations.insert runId held } runId = held := by
      simp [heldBy]
    rw [hself,hheld,Tables.get_insert] at hget
    by_cases hr : resource = claim.resource
    · rw [if_pos hr] at hget
      refine .inr ⟨claim,by simp,hr.symm,?_⟩
      rw [← Option.some.inj hget]
      exact ⟨rfl,rfl⟩
    · rw [if_neg hr] at hget
      exact .inl hget

theorem insertReservations_reserves (h : insertReservations runId now claims db = .ok db') :
    Reserves db db' runId claims := by
  induction claims generalizing db with
  | nil => exact Except.ok.inj h ▸ ⟨⟨db.reservations,rfl⟩,fun _ _ => rfl,fun _ _ hget => .inl hget⟩
  | cons claim rest ih =>
    simp only [insertReservations,bind_eq_ok] at h
    obtain ⟨mid,hfirst,hrest⟩ := h
    have first := insertReservation_reserves hfirst
    have second := ih hrest
    obtain ⟨_,rfl⟩ := first.tables
    obtain ⟨_,rfl⟩ := second.tables
    refine ⟨⟨_,rfl⟩,fun other hne => (second.others other hne).trans (first.others other hne),?_⟩
    intro resource hold hget
    rcases second.held resource hold hget with hget | ⟨c,hc,heq⟩
    · rcases first.held resource hold hget with hget | ⟨c,hc,heq⟩
      · exact .inl hget
      · exact .inr ⟨c,by simp_all,heq⟩
    · exact .inr ⟨c,List.mem_cons_of_mem _ hc,heq⟩

end Db

theorem fits_of_claimConflicts {claim : Claim} {exclude : Option String}
    (hexclude : ∀ other, exclude = some other → other = runId)
    (h : claimConflicts claim (db.reservationList exclude) resources = []) :
    Fits resources db runId claim.resource claim.mode := by
  intro other row hne hrow hactive held hold hhold hoverlap
  have hconflicts := (claimConflicts_eq_nil_iff.mp h).2.1
  refine hconflicts ⟨other,held,hold.mode,hold.amount⟩ ?_ hoverlap
  refine Db.mem_reservationList.mpr ⟨⟨row,hrow,hactive⟩,fun _ heq => hne (hexclude other heq),?_⟩
  exact Db.mem_holdList.mpr ⟨rfl,hold,hhold,rfl,rfl⟩

@[simp] theorem claimReasons_eq_nil {reservations : List Reservation} {task : Task} :
    Dispatcher.claimReasons resources reservations task = [] ↔
      ∀ claim ∈ task.claims, claimConflicts claim reservations resources = [] := by
  simp [Dispatcher.claimReasons,List.flatMap_eq_nil_iff]

theorem claimReasons_subset {d : Dispatcher} {observed : Observed} {ctx : ClaimContext} {task : Task}
    (h : d.reasons E db observed ctx task = .ok reasons) :
    ∀ reason ∈ Dispatcher.claimReasons d.registry.resources ctx.reservations task, reason ∈ reasons := by
  simp only [Dispatcher.reasons,Dispatcher.baseReasons,steps_ok] at h
  obtain ⟨_,⟨_,_,_,_,rfl⟩,rfl⟩ := h
  intro reason hreason
  simp [hreason]

/-- A task whose reasons are at most about its execution policy has claims that fit. -/
theorem claimReasons_of_reviewed {d : Dispatcher} {observed : Observed} {ctx : ClaimContext} {task : Task}
    (h : d.reasons E db observed ctx task = .ok reasons) (hreviewed : Dispatcher.reviewedReasons task reasons = []) :
    Dispatcher.claimReasons d.registry.resources ctx.reservations task = [] := by
  rw [List.eq_nil_iff_forall_not_mem]
  intro reason hreason
  have hmem := claimReasons_subset h reason hreason
  simp only [Dispatcher.claimReasons,List.mem_flatMap,List.mem_map] at hreason
  obtain ⟨claim,_,r,_,rfl⟩ := hreason
  have hkept : Reason.claim r ∈ Dispatcher.reviewedReasons task reasons := by
    simp [Dispatcher.reviewedReasons,hmem]
  simp [hreviewed] at hkept

theorem granted_of_claims {before after : Db} (hreserves : Db.Reserves before after runId claims)
    (hheld : before.heldBy runId = db.heldBy runId)
    (hfits : ∀ claim ∈ claims, Fits resources db runId claim.resource claim.mode) :
    Granted resources db runId (db.heldBy runId) (after.heldBy runId) := by
  intro resource hold hget
  rcases hreserves.held resource hold hget with hget | ⟨claim,hclaim,hresource,hmode,_⟩
  · exact .inl (hheld ▸ hget)
  · exact .inr (hresource ▸ hmode ▸ hfits claim hclaim)

theorem RunWrite.setRun_reserves {kind : Kind} (hreserves : Db.Reserves (db.setRun runId row) db' runId claims)
    (step : RunStep resources db runId kind (db.view runId) ⟨some row,db'.heldBy runId,db.receipts[runId]?⟩) :
    RunWrite resources kind db db' runId := by
  obtain ⟨⟨reservations,rfl⟩,hothers,_⟩ := hreserves
  refine ⟨fun other hne => ?_,?_,rfl,rfl,rfl,rfl⟩
  · have hheld := hothers other hne
    have hview := db.view_setRun_ne row hne
    simp only [Db.view,RunView.mk.injEq] at hview ⊢
    exact ⟨hview.1,hheld,hview.2.2⟩
  · simpa [Db.view,Db.setRun] using step

theorem RunWrite.reserves_setRun {kind : Kind} (hreserves : Db.Reserves db db' runId claims)
    (step : RunStep resources db runId kind (db.view runId) ⟨some row,db'.heldBy runId,db.receipts[runId]?⟩) :
    RunWrite resources kind db (db'.setRun runId row) runId := by
  obtain ⟨⟨reservations,rfl⟩,hothers,_⟩ := hreserves
  refine ⟨fun other hne => ?_,?_,rfl,rfl,rfl,rfl⟩
  · rw [Db.view_setRun_ne _ _ hne]
    simp only [Db.view,RunView.mk.injEq]
    exact ⟨trivial,hothers other hne,trivial⟩
  · rw [Db.view_setRun_self]
    exact step

namespace Dispatcher

variable {E : Env} {d : Dispatcher} {db db' : Db}

theorem insertRun_eq_ok (h : db.insertRun runId row = .ok db') :
    db.runs[runId]? = none ∧ db' = db.setRun runId row := by
  simp only [Db.insertRun,steps_ok] at h
  obtain ⟨_,hnew,_,_,_,_,_,_,rfl⟩ := h
  refine ⟨?_,rfl⟩
  rw [Std.ExtTreeMap.contains_eq_isSome_getElem?,Bool.not_eq_true',Option.isSome_eq_false_iff] at hnew
  exact Option.isNone_iff_eq_none.mp hnew

theorem writeClaim_move {workers : Table Worker} {task : Task}
    (h : writeClaim E { db with workers := workers } now runId task row eventType payload = .ok db')
    (hstate : row.state = .assigned) (hattempt : row.attempt = db.nextAttempt row.taskId)
    (hordinary : eventType.ordinary = true)
    (hclaims : claimReasons d.registry.resources (db.reservationList none) task = []) :
    Move E.sha d.registry.resources .claim db db' := by
  simp only [writeClaim,bind_eq_ok,requireNone_eq_ok] at h
  obtain ⟨_,_,inserted,hinsert,reserved,hreserve,hevent⟩ := h
  obtain ⟨hnew,rfl⟩ := insertRun_eq_ok hinsert
  have hreserves := Db.insertReservations_reserves hreserve
  have hfits : ∀ claim ∈ task.claims, Fits d.registry.resources db runId claim.resource claim.mode := by
    intro claim hclaim
    exact fits_of_claimConflicts (by simp) (claimReasons_eq_nil.mp hclaims claim hclaim)
  have hwrite : RunWrite d.registry.resources .claim db reserved runId := by
    refine RunWrite.of_workers (.setRun_reserves hreserves ?_)
    simp only [Db.view,hnew]
    exact .claim hstate hattempt (granted_of_claims hreserves rfl hfits)
  obtain ⟨⟨_,rfl⟩,_,_⟩ := hreserves
  exact .of_runEvent hevent hwrite rfl hordinary

variable {ctx : ClaimContext} {call : ClaimCall} {outcome : ClaimOutcome}

theorem selectTask_reasons {observed : Observed} {tasks : List Task}
    {rejected : List (String × List String)} {task : Task}
    (h : d.selectTask E db observed ctx resource tasks rejected = .ok task) :
    task ∈ tasks ∧ d.reasons E db observed ctx task = .ok [] := by
  induction tasks generalizing rejected with
  | nil => simp [selectTask] at h
  | cons first rest ih =>
    unfold selectTask at h
    split at h
    · simp only [bind_eq_ok] at h
      obtain ⟨reasons,hreasons,h⟩ := h
      split at h
      · simp only [pure_eq_ok] at h
        subst h
        rename_i hempty
        exact ⟨List.mem_cons_self,by rw [hreasons,List.isEmpty_iff.mp hempty]⟩
      · split at h
        · simp at h
        · obtain ⟨hmem,hr⟩ := ih h
          exact ⟨List.mem_cons_of_mem _ hmem,hr⟩
    · obtain ⟨hmem,hr⟩ := ih h
      exact ⟨List.mem_cons_of_mem _ hmem,hr⟩

theorem claimContext_reservations
    (h : d.claimContext E call db capabilities = .ok ctx) : ctx.reservations = db.reservationList none := by
  simp only [claimContext,steps_ok] at h
  obtain ⟨_,_,_,_,rfl⟩ := h
  rfl

theorem mem_orderedTasks {task : Task} (h : task ∈ d.orderedTasks) :
    ∃ id : String, d.registry.tasks[id]? = some task := by
  rw [orderedTasks,List.mem_insertionSort,List.mem_map] at h
  obtain ⟨⟨id,found⟩,hmem,rfl⟩ := h
  exact ⟨id,Std.ExtTreeMap.mem_toList_iff_getElem?_eq_some.mp hmem⟩

/-- A claim that was written: its task is registered, nothing spoke against it in its context, and its run
is a new attempt. -/
structure WrittenClaim (E : Env) (d : Dispatcher) (call : ClaimCall) (db db' : Db) (task : Task) (runId : String)
    (row : RunRow) : Prop where
  listed : ∃ id : String, d.registry.tasks[id]? = some task
  eligible : ∃ capabilities ctx reasons, d.claimContext E call db capabilities = .ok ctx ∧
    d.reasons E db call.observed ctx task = .ok reasons ∧ reviewedReasons task reasons = []
  written : ∃ workers eventType payload, EventType.ordinary eventType = true ∧
    writeClaim E { db with workers := workers } call.now runId task row eventType payload = .ok db'
  row : row.taskId = task.id ∧ row.state = .assigned ∧ row.attempt = db.nextAttempt task.id

theorem claimNext_writes
    (h : d.claimNext E call workerId resource db = .ok (outcome,db')) :
    db' = db ∨ ∃ task runId row, WrittenClaim E d call db db' task runId row := by
  simp only [claimNext,steps_ok] at h
  obtain ⟨_,_,h⟩ := h
  split at h
  · simp only [pure_eq_ok,Prod.mk.injEq] at h
    exact .inl h.2.symm
  · simp only [steps_ok,Prod.mk.injEq] at h
    obtain ⟨_,_,worker,_,ctx,hctx,task,htask,initiative,_,written,hwrite,_,rfl⟩ := h
    obtain ⟨hmem,hreasons⟩ := selectTask_reasons htask
    exact .inr ⟨task,_,_,mem_orderedTasks hmem,⟨_,ctx,[],hctx,hreasons,by simp [reviewedReasons]⟩,
      ⟨db.workers,_,_,rfl,hwrite⟩,rfl,rfl,rfl⟩

theorem commitClaimIntent_writes {call : CoordinatedCall}
    (h : d.commitClaimIntent E call intent db = .ok (outcome,db')) :
    db' = db ∨ ∃ task runId row, WrittenClaim E d call.claim db db' task runId row := by
  simp only [commitClaimIntent,bind_eq_ok] at h
  obtain ⟨_,_,h⟩ := h
  split at h
  · simp only [steps_ok,Prod.mk.injEq] at h
    obtain ⟨_,_,_,rfl⟩ := h
    exact .inl rfl
  · simp only [steps_ok,Prod.mk.injEq] at h
    obtain ⟨⟨task,contract,approval⟩,hpreflight,_,_,ctx,hctx,initiative,_,_,_,workspace,_,_,_,_,_,reasons,hreasons,_,
      hreviewed,lease,_,written,hwrite,_,rfl⟩ := h
    simp only [preflightCommit,steps_ok,Prod.mk.injEq] at hpreflight
    obtain ⟨_,_,issuance,_,_,_,_,_,_,_,found,hlisted,_,_,_,_,_,_,_,_,_,_,_,_,rfl,_,_⟩ := hpreflight
    exact .inr ⟨_,_,_,⟨_,hlisted⟩,⟨_,ctx,reasons,hctx,hreasons,List.isEmpty_iff.mp hreviewed⟩,⟨_,_,_,rfl,hwrite⟩,
      rfl,rfl,rfl⟩

theorem WrittenClaim.claims_eq_nil {task : Task} (h : WrittenClaim E d call db db' task runId row) :
    claimReasons d.registry.resources (db.reservationList none) task = [] := by
  obtain ⟨_,_,_,hctx,hreasons,hreviewed⟩ := h.eligible
  rw [← claimContext_reservations hctx]
  exact claimReasons_of_reviewed hreasons hreviewed

theorem WrittenClaim.move {task : Task} (h : WrittenClaim E d call db db' task runId row) :
    Move E.sha d.registry.resources .claim db db' := by
  obtain ⟨_,_,_,hordinary,hwrite⟩ := h.written
  obtain ⟨htask,hstate,hattempt⟩ := h.row
  exact writeClaim_move hwrite hstate (htask ▸ hattempt) hordinary h.claims_eq_nil

/-- The checks of `expand_claim`, on the state before it. -/
def admitsExpansion (d : Dispatcher) (db : Db) (runId : String) (claim : Claim) : Bool :=
  d.registry.resources.contains claim.resource && (db.runs[runId]?).any (·.state.active) &&
    !(db.heldBy runId).contains claim.resource &&
    (claimConflicts claim (db.reservationList (some runId)) d.registry.resources).isEmpty

/-- The rows `expand_claim` writes. -/
def expanded (db : Db) (now : Time) (runId : String) (claim : Claim) (reason : String) : Db :=
  Db.updateRun { db with
    reservations := db.reservations.insert runId
      ((db.heldBy runId).insert claim.resource ⟨claim.mode,claim.amount,now,claim.claimable⟩) }
    runId fun row => { row with error := some ("claim expanded: " ++ reason), updatedAt := now }

theorem expandClaim_eq_ok {claim : Claim} :
    d.expandClaim db now runId claim reason = .ok db' ↔
      d.admitsExpansion db runId claim = true ∧ db' = expanded db now runId claim reason := by
  simp only [expandClaim,steps_ok,Db.activeRun_eq_ok,Db.insertReservation,admitsExpansion,Bool.and_eq_true,
      Option.any_eq_true]
  constructor
  · rintro ⟨_,hresource,row,⟨hrow,hactive⟩,_,hheld,_,hreasons,_,⟨_,_,rfl⟩,rfl⟩
    refine ⟨⟨⟨⟨hresource,row,hrow,hactive⟩,hheld⟩,hreasons⟩,?_⟩
    refine Eq.symm (Db.updateRun_of_get _ ?_)
    exact hrow
  · rintro ⟨⟨⟨⟨hresource,row,hrow,hactive⟩,hheld⟩,hreasons⟩,rfl⟩
    refine ⟨(),hresource,row,⟨hrow,hactive⟩,(),hheld,(),hreasons,_,⟨(),hheld,rfl⟩,?_⟩
    refine Eq.symm (Db.updateRun_of_get _ ?_)
    exact hrow

theorem expandClaim_move {claim : Claim} (h : d.expandClaim db now runId claim reason = .ok db') :
    Move E.sha d.registry.resources .expand db db' := by
  simp only [expandClaim,steps_ok,Db.activeRun_eq_ok] at h
  obtain ⟨_,_,row,⟨hrow,hactive⟩,_,_,_,hreasons,reserved,hreserve,rfl⟩ := h
  have hfits : Fits d.registry.resources db runId claim.resource claim.mode :=
    fits_of_claimConflicts (by simp) (List.isEmpty_iff.mp hreasons)
  have hreserves := Db.insertReservation_reserves hreserve
  have hgranted : Granted d.registry.resources db runId (db.heldBy runId) (reserved.heldBy runId) :=
    granted_of_claims hreserves rfl (by simpa using hfits)
  have hstep : RunStep d.registry.resources db runId .expand (db.view runId) ⟨some { row with
      error := some ("claim expanded: " ++ reason), updatedAt := now },reserved.heldBy runId,db.receipts[runId]?⟩ := by
    simp only [Db.view,hrow]
    exact .expand rfl hactive rfl hgranted
  have htables : reserved.taskStatus = db.taskStatus ∧ reserved.workspaces = db.workspaces := by
    obtain ⟨⟨_,rfl⟩,_,_⟩ := hreserves
    exact ⟨rfl,rfl⟩
  exact .expand (.reserves_setRun hreserves hstep) htables.1 htables.2

theorem resumeOrphanedRun_write {call : CoordinatedCall} {request : ResumeRequest}
    (h : d.resumeOrphanedRun E call unchanged request db = .ok db') :
    ∃ written first p q, RunWrite d.registry.resources .resume db written request.runId ∧
      (written.taskStatus = db.taskStatus ∧ written.workspaces = db.workspaces) ∧
        written.runEvent E.sha .runOrphanResumed p request.runId = .ok first ∧
      first.runEvent E.sha .runHeartbeat q request.runId = .ok db' := by
  simp only [resumeOrphanedRun,steps_ok] at h
  obtain ⟨_,_,_,_,_,_,row,hrow,_,hresumable,intent,_,fresh,_,task,_,plan,_,_,_,_,_,overlay,_,reasons,hreasons,_,
    hreviewed,_,_,lease,_,_,_,reserved,hreserve,first,hfirst,hsecond⟩ := h
  have horphaned : row.state = .orphaned := by
    simp only [resumableRow,steps_ok,Bool.and_eq_true,decide_eq_true_eq] at hresumable
    obtain ⟨_,_,_,⟨hstate,_⟩,_⟩ := hresumable
    exact hstate
  have hclaims := claimReasons_of_reviewed hreasons (List.isEmpty_iff.mp hreviewed)
  have hfits : ∀ claim ∈ task.claims, Fits d.registry.resources db request.runId claim.resource claim.mode := by
    intro claim hclaim
    exact fits_of_claimConflicts (by simp) (claimReasons_eq_nil.mp hclaims claim hclaim)
  have hreserves := Db.insertReservations_reserves hreserve
  have hwrite : RunWrite d.registry.resources .resume db reserved request.runId := by
    refine .setRun_reserves hreserves ?_
    simp only [Db.view,hrow]
    exact .resume rfl horphaned rfl (granted_of_claims hreserves rfl hfits)
  have htables : (reserved.touchWorker call.claim.now request.workerId).taskStatus = db.taskStatus ∧
      (reserved.touchWorker call.claim.now request.workerId).workspaces = db.workspaces := by
    obtain ⟨⟨_,rfl⟩,_,_⟩ := hreserves
    unfold Db.touchWorker
    split <;> exact ⟨rfl,rfl⟩
  exact ⟨_,first,_,_,hwrite.touchWorker call.claim.now request.workerId,htables,hfirst,hsecond⟩

theorem resumeOrphanedRun_move {call : CoordinatedCall} {request : ResumeRequest}
    (h : d.resumeOrphanedRun E call unchanged request db = .ok db') :
    Move E.sha d.registry.resources .resume db db' := by
  obtain ⟨written,first,_,_,hwrite,htasks,hfirst,hsecond⟩ := resumeOrphanedRun_write h
  exact .of_runEvents hfirst hsecond hwrite htasks.1 ⟨rfl,rfl⟩ htasks.2

theorem resumeOrphanedRun_others {call : CoordinatedCall} {request : ResumeRequest}
    (h : d.resumeOrphanedRun E call unchanged request db = .ok db') (other : String) (hne : other ≠ request.runId) :
    db'.view other = db.view other := by
  obtain ⟨written,first,_,_,hwrite,htasks,hfirst,hsecond⟩ := resumeOrphanedRun_write h
  obtain ⟨_,rfl⟩ := Db.event_extends hsecond
  obtain ⟨_,rfl⟩ := Db.event_extends hfirst
  exact hwrite.others other hne

theorem issueClaimIntent_eq_ok {sha : Sha} {result : Json}
    (h : db.issueClaimIntent sha intent actionClass contract = .ok (result,db')) :
    db' = db ∨
      (∀ key, Db.contractKey (claimIssuance sha intent actionClass contract) = some key →
        ∀ item ∈ db.issuances, Db.contractKey item.2 ≠ some key) ∧
      (∀ item ∈ db.issuances, item.1 ≠ some (text intent "run_id")) ∧
      db.runEvent sha .claimIntentIssued (claimIssuance sha intent actionClass contract) (text intent "run_id") =
        .ok db' := by
  simp only [Db.issueClaimIntent,steps_ok] at h
  obtain ⟨_,_,_,_,keyed,hkeyed,h⟩ := h
  split at h
  · simp [stateError] at h
  · simp only [steps_ok,Prod.mk.injEq] at h
    obtain ⟨_,_,_,rfl⟩ := h
    exact .inl rfl
  · rename_i hnone
    split at h
    · simp [stateError] at h
    · simp only [steps_ok,Prod.mk.injEq] at h
      obtain ⟨_,_,_,_,_,rfl⟩ := h
      exact .inl rfl
    · rename_i hfree
      simp only [steps_ok,Prod.mk.injEq] at h
      obtain ⟨_,hevent,_,rfl⟩ := h
      refine .inr ⟨?_,?_,hevent⟩
      · intro key hkey item hitem hsame
        rw [hkey,Option.toList_some,collect,bind_eq_ok] at hkeyed
        obtain ⟨found,hfound,hrest⟩ := hkeyed
        simp only [collect,steps_ok,Except.ok.injEq] at hrest
        obtain ⟨_,rfl,rfl⟩ := hrest
        simp only [List.flatten_cons,List.flatten_nil,List.append_nil] at hnone
        simp only [Db.issuancesByKey,steps_ok] at hfound
        obtain ⟨_,_,hfound⟩ := hfound
        rw [hnone,List.filter_eq_nil_iff] at hfound
        exact hfound item.2 (List.mem_map.mpr ⟨item,hitem,rfl⟩) (by simpa using hsame)
      · rw [List.map_eq_nil_iff,List.filter_eq_nil_iff] at hfree
        exact fun item hitem hsame => hfree item hitem (by simpa using hsame)

theorem issueClaimIntent_move {sha : Sha} {result : Json}
    (h : db.issueClaimIntent sha intent actionClass contract = .ok (result,db')) :
    db' = db ∨ Move sha resources .issue db db' := by
  rcases issueClaimIntent_eq_ok h with rfl | ⟨_,_,hevent⟩
  · exact .inl rfl
  · exact .inr (.issue hevent)

end Dispatcher

namespace TaskSpecs

variable {E : Env} {sha : Sha} {resources : Resources} {db db' : Db} {now : Time} {spec : Json}
  {key source : String} {expected : Option ℕ} {result : PutResult}

theorem parentOfRevision_succ {revision : ℕ} (h : 1 ≤ revision) : parentOfRevision (revision+1) = some revision := by
  have hne : revision+1 ≠ 1 := by omega
  rw [parentOfRevision,if_neg hne,Nat.add_sub_cancel]

theorem getCurrent_eq_some {current : CurrentSpec} (h : getCurrent sha db taskId = .ok (some current)) :
    current.taskId = taskId ∧ 1 ≤ current.revision ∧
      current.parentRevision = parentOfRevision current.revision ∧
      current.specSha256 = taskSpecDigest sha current.spec ∧ canonicalSpecId current.spec = .ok taskId := by
  unfold getCurrent at h
  split at h
  · simp at h
  · simp only [steps_ok,getRevision,validatedRow,Bool.and_eq_true,decide_eq_true_eq] at h
    obtain ⟨_,⟨row,_,id,hid,_,rfl,_,hdigest,_,⟨hpos,hparent⟩,rfl⟩,_,_,hcurrent⟩ := h
    cases hcurrent
    exact ⟨rfl,hpos,hparent,hdigest.symm,hid⟩

/-- What a put can do: answer a repetition, note that the document is current, or set the next
revision. -/
inductive PutEffect (sha : Sha) (now : Time) (db : Db) (spec : Json) (key : String) (expected : Option ℕ)
    (source : String) : PutResult → Db → Prop
  | replay {taskId : String} {mutation : TaskSpecMutation} {result : PutResult}
      (id : canonicalSpecId spec = .ok taskId) (receipt : db.taskSpecMutations[key]? = some mutation)
      (read : replayMutation sha db taskId (taskSpecDigest sha spec) expected mutation = .ok result) :
      PutEffect sha now db spec key expected source result db
  | known {taskId : String} {current : CurrentSpec} (id : canonicalSpecId spec = .ok taskId)
      (write : SpecWrite sha db taskId key expected source) (read : getCurrent sha db taskId = .ok (some current))
      (digest : current.specSha256 = taskSpecDigest sha spec) :
      PutEffect sha now db spec key expected source ⟨current,false,false⟩ (db.noteMutation current key expected)
  | set {next : CurrentSpec} (document : next.spec = spec) (origin : next.source = source)
      (successor : SpecSuccessor sha db next) (write : SpecWrite sha db next.taskId key expected next.source)
      (changed : ∀ current, getCurrent sha db next.taskId = .ok (some current) →
        current.specSha256 ≠ next.specSha256) :
      PutEffect sha now db spec key expected source ⟨next,false,true⟩ (setRevision now db next key expected)

theorem putValidatedMaterial_effect
    (h : putValidatedMaterial sha now db spec key expected source = .ok (result,db')) :
    PutEffect sha now db spec key expected source result db' := by
  simp only [putValidatedMaterial,steps_ok,decide_eq_true_eq] at h
  obtain ⟨taskId,hid,_,hkey,_,hsource,_,_,h⟩ := h
  split at h
  · rename_i mutation hmutation
    simp only [steps_ok,Prod.mk.injEq] at h
    obtain ⟨_,hread,rfl,rfl⟩ := h
    exact .replay hid hmutation hread
  · rename_i hunused
    simp only [steps_ok,decide_eq_true_eq] at h
    obtain ⟨read,hread,_,hbaseline,h⟩ := h
    have hwrite : SpecWrite sha db taskId key expected source := ⟨hunused,⟨hkey,hsource⟩,read,hread,hbaseline⟩
    split at h
    · rename_i current _
      obtain ⟨htask,hpos,_⟩ := getCurrent_eq_some hread
      split at h
      · rename_i hsame
        simp only [pure_eq_ok,Prod.mk.injEq] at h
        obtain ⟨rfl,rfl⟩ := h
        rw [← htask,← hsame]
        exact .known hid hwrite hread hsame
      · rename_i hchanged
        simp only [pure_eq_ok,Prod.mk.injEq] at h
        obtain ⟨rfl,rfl⟩ := h
        refine .set rfl rfl ⟨⟨_,hread,rfl⟩,(parentOfRevision_succ hpos).symm,rfl,hid⟩ hwrite ?_
        intro found hfound
        cases hfound.symm.trans hread
        exact hchanged
    · simp only [pure_eq_ok,Prod.mk.injEq] at h
      obtain ⟨rfl,rfl⟩ := h
      refine .set rfl rfl ⟨⟨_,hread,rfl⟩,rfl,rfl,hid⟩ hwrite ?_
      intro found hfound
      cases hfound.symm.trans hread

theorem put_eq_ok (h : put E now db spec key expected source = .ok (result,db')) :
    putValidatedMaterial E.sha now db spec key expected source = .ok (result,db') := by
  simp only [put,steps_ok] at h
  obtain ⟨_,_,_,_,_,_,_,_,_,_,h⟩ := h
  split at h
  · exact h
  · simp only [bind_eq_ok,requireNone_eq_ok] at h
    obtain ⟨_,_,h⟩ := h
    split at h
    · exact h
    · simp only [steps_ok] at h
      obtain ⟨_,_,_,_,_,_,_,_,h⟩ := h
      exact h

theorem putValidatedMaterial_routine
    (h : putValidatedMaterial sha now db spec key expected source = .ok (result,db')) :
    Routine sha resources true db db' := by
  cases putValidatedMaterial_effect h with
  | replay => exact ⟨.plain,.quiet (fun _ => rfl) rfl rfl rfl rfl rfl rfl,.inl rfl⟩
  | known _ hwrite hread => exact ⟨.publish,.known hwrite hread,.inr ⟨rfl,rfl⟩⟩
  | set _ _ hsuccessor hwrite => exact ⟨.publish,.spec hsuccessor hwrite,.inr ⟨rfl,rfl⟩⟩

theorem put_routine (h : put E now db spec key expected source = .ok (result,db')) :
    Routine E.sha resources true db db' :=
  putValidatedMaterial_routine (put_eq_ok h)

end TaskSpecs

section Close

variable {E : Env} {K : Contracts} {resources : Resources} {db db' : Db} {call : CloseCall} {runId : String}

theorem historicalCloseoutReason_eq_none (h : historicalCloseoutReason db runId row = none) :
    row.state = .orphaned ∧ db.heldBy runId = ∅ := by
  unfold historicalCloseoutReason at h
  simp only at h
  split at h
  · simp at h
  · rename_i hstate
    split at h
    · simp at h
    · split at h
      · simp at h
      · split at h
        · simp at h
        · rename_i hheld
          exact ⟨by simpa using hstate,by simpa using hheld⟩

theorem closableRow_eq_ok (h : closableRow db call runId = .ok row) :
    db.runs[runId]? = some row ∧
      (call.historical = false ∧ row.state.active = true ∨
        call.historical = true ∧ row.state = .orphaned ∧ db.heldBy runId = ∅) := by
  unfold closableRow at h
  split at h
  · simp [runStateConflict] at h
  · rename_i found hfound
    split at h
    · rename_i hhistorical
      split at h
      · simp [runStateConflict] at h
      · rename_i hreason
        cases h
        exact ⟨hfound,.inr ⟨hhistorical,historicalCloseoutReason_eq_none hreason⟩⟩
    · rename_i hhistorical
      split at h
      · rename_i hactive
        cases h
        exact ⟨hfound,.inl ⟨by simpa using hhistorical,hactive⟩⟩
      · simp [runStateConflict] at h

theorem writeClose_write (hrow : closableRow db call runId = .ok row) (hnew : db.receipts[runId]? = none) :
    RunWrite resources .complete db (writeClose db call runId row revision receipt digest) runId := by
  obtain ⟨hget,⟨hhistorical,hactive⟩ | ⟨hhistorical,horphaned,hheld⟩⟩ := closableRow_eq_ok hrow
  · simp only [writeClose,hhistorical,Bool.false_eq_true,if_false]
    refine ⟨fun other hne => ?_,?_,rfl,rfl,rfl,rfl⟩
    · rw [Db.view_deleteReservations_ne _ hne,Db.view_setRun_ne _ _ hne]
      simp only [Db.view,Tables.get_insert_ne _ _ hne]
      rfl
    · have hstep : RunStep resources db runId .complete ⟨some row,db.heldBy runId,none⟩
          ⟨some { row with state := .succeeded, updatedAt := call.now },∅,some ⟨receipt,digest,call.now⟩⟩ :=
        .complete rfl (.inl hactive) rfl
      rw [Db.view,hget,hnew,Db.view,Db.heldBy_deleteReservations_self]
      simpa [Db.deleteReservations,Db.setRun] using hstep
  · simp only [writeClose,hhistorical,if_true]
    refine ⟨fun other hne => ?_,?_,rfl,rfl,rfl,rfl⟩
    · rw [Db.view_setRun_ne _ _ hne]
      simp only [Db.view,Tables.get_insert_ne _ _ hne]
      rfl
    · have hstep : RunStep resources db runId .complete ⟨some row,db.heldBy runId,none⟩
          ⟨some { row with state := .succeeded, error := none, updatedAt := call.now },∅,
            some ⟨receipt,digest,call.now⟩⟩ := .complete rfl (.inr horphaned) rfl
      rw [Db.view,hget,hnew,Db.view_setRun_self]
      rw [← hheld] at hstep
      simpa [Db.heldBy] using hstep

theorem runs_writeClose :
    ∃ written, (writeClose db call runId row revision receipt digest).runs[runId]? = some written ∧
      written.taskId = row.taskId := by
  unfold writeClose
  split
  · exact ⟨{ row with state := .succeeded, error := none, updatedAt := call.now },by simp [Db.setRun],rfl⟩
  · exact ⟨{ row with state := .succeeded, updatedAt := call.now },by simp [Db.setRun,Db.deleteReservations],rfl⟩

theorem taskStatus_writeClose_ne {other : String} (h : other ≠ row.taskId) :
    (writeClose db call runId row revision receipt digest).taskStatus[other]? = db.taskStatus[other]? := by
  unfold writeClose
  split <;> simp only [Db.setRun,Db.deleteReservations,Tables.get_insert_ne _ _ h]

theorem taskStatus_writeClose_self :
    (writeClose db call runId row revision receipt digest).taskStatus[row.taskId]? = some
      ⟨if call.historical then revision.taskSha256 else row.taskSha256,row.planSha256,.verified,some digest,
        call.now⟩ := by
  unfold writeClose
  split <;> simp_all [Db.setRun,Db.deleteReservations]

@[simp] theorem workspaces_writeClose :
    (writeClose db call runId row revision receipt digest).workspaces = db.workspaces := by
  unfold writeClose
  split <;> rfl

theorem replayCompletion_unchanged (h : replayCompletion E runId db = .ok (result,db')) :
    db' = db := by
  unfold replayCompletion at h
  split at h
  · simp only [steps_ok,Prod.mk.injEq] at h
    obtain ⟨_,_,_,rfl⟩ := h
    rfl
  · simp [runStateConflict] at h
  · split at h <;> simp [runStateConflict] at h

def closeDocument (call : CloseCall) (runId : String) (row : RunRow) (rebind : Option Json) : Json :=
  let unsigned := unsignedReceipt call.now runId row (acceptanceCriteria row.envelope) call.evidence
  (rebind.map (unsigned.set "historical_repository_rebind")).getD unsigned

structure FirstClose (E : Env) (K : Contracts) (call : CloseCall) (runId : String) (db : Db) (result : CloseResult)
    (db' : Db) (row : RunRow) (revision : CloseRevision) (rebind : Option Json) : Prop where
  unreceipted : db.receipts[runId]? = none
  closable : closableRow db call runId = .ok row
  before : closeRevision E call.before db row.taskId = .ok revision
  baseline : acceptedBaseline E K db call.historical runId row revision = .ok rebind
  result : result = ⟨signReceipt E.sha (closeDocument call runId row rebind),false⟩
  schema : E.schemaError "receipt" (signReceipt E.sha (closeDocument call runId row rebind)) = none
  written : (writeClose db call runId row revision (signReceipt E.sha (closeDocument call runId row rebind))
    (sha256Json E.sha (closeDocument call runId row rebind))).runEvent E.sha .runCompleted
      (.obj [("receipt_sha256",.str (sha256Json E.sha (closeDocument call runId row rebind)))]) runId = .ok db'
  after : closeRevision E call.after db' row.taskId = .ok revision

theorem completeRun_eq_ok (h : completeRun E K call runId db = .ok (result,db')) :
    (∃ stored, db.receipts[runId]? = some stored ∧
      loadValidatedStoredReceipt E runId stored = .ok result.receipt ∧ result.idempotent = true ∧ db' = db) ∨
    ∃ row revision rebind, FirstClose E K call runId db result db' row revision rebind := by
  unfold completeRun at h
  split at h
  · rename_i stored hstored
    simp only [steps_ok,Prod.mk.injEq] at h
    obtain ⟨receipt,hreceipt,rfl,rfl⟩ := h
    exact .inl ⟨stored,hstored,hreceipt,rfl,rfl⟩
  · rename_i hnew
    simp only [steps_ok,requireNone_eq_ok] at h
    obtain ⟨row,hrow,_,_,_,_,_,_,_,_,revision,hbefore,rebind,hbaseline,_,hschema,written,hevent,rebound,hafter,h⟩ := h
    split at h
    · rename_i hsame
      subst hsame
      simp only [pure_eq_ok,Prod.mk.injEq] at h
      obtain ⟨rfl,rfl⟩ := h
      exact .inr ⟨row,rebound,rebind,hnew,hrow,hbefore,hbaseline,rfl,hschema,hevent,hafter⟩
    · simp [runStateConflict] at h

theorem FirstClose.move (h : FirstClose E K call runId db result db' row revision rebind) :
    Move E.sha resources .complete db db' := by
  obtain ⟨closed,hclosed,htask⟩ := runs_writeClose
  refine .complete (writeClose_write h.closable h.unreceipted) hclosed
    (fun other hne => taskStatus_writeClose_ne (htask ▸ hne)) h.written ?_ workspaces_writeClose
  intro status hstatus
  rw [htask,taskStatus_writeClose_self] at hstatus
  exact Option.some.inj hstatus ▸ rfl

theorem FirstClose.others (h : FirstClose E K call runId db result db' row revision rebind) (other : String)
    (hne : other ≠ runId) :
    db'.view other = db.view other := by
  obtain ⟨rows,rfl⟩ := Db.event_extends h.written
  exact (@writeClose_write row _ revision _ ∅ db call runId h.closable h.unreceipted).others other hne

theorem completeRun_move (h : completeRun E K call runId db = .ok (result,db')) :
    db' = db ∨ Move E.sha resources .complete db db' := by
  rcases completeRun_eq_ok h with ⟨_,_,_,_,rfl⟩ | ⟨row,revision,rebind,hfirst⟩
  · exact .inl rfl
  · exact .inr hfirst.move

end Close

section Maintenance

variable {E : Env} {resources : Resources} {db db' : Db} {now : Time} {files : Registry}

theorem applyTaskTransition_moves {t : TaskTransition} (h : applyTaskTransition E now db t = .ok db') :
    ReflTransGen (Routine E.sha resources true) db db' := by
  simp only [applyTaskTransition,steps_ok] at h
  obtain ⟨_,_,_,_,_,_,_,_,⟨result,written⟩,hput,rfl⟩ := h
  exact .single (TaskSpecs.put_routine hput)

theorem applyInitiativeTransition_moves {t : InitiativeTransition}
    (h : applyInitiativeTransition E.sha files now db t = .ok db') :
    ReflTransGen (Routine E.sha resources true) db db' := by
  simp only [applyInitiativeTransition,steps_ok] at h
  obtain ⟨_,_,hevent⟩ := h
  exact .single (Move.routine true (.initiative hevent))

theorem applyAll_moves {α : Type} {apply : Db → α → Result Db} {items : List α}
    (happly : ∀ a db db', apply db a = .ok db' → ReflTransGen (Routine E.sha resources true) db db')
    (h : applyAll apply items db = .ok db') : ReflTransGen (Routine E.sha resources true) db db' := by
  induction items generalizing db with
  | nil => exact Except.ok.inj h ▸ .refl
  | cons a rest ih =>
    simp only [applyAll,bind_eq_ok] at h
    obtain ⟨mid,hfirst,hrest⟩ := h
    exact (happly a db mid hfirst).trans (ih hrest)

theorem reconcileInitiativeLifecycle_moves {tasks : List TaskTransition} {initiatives : List InitiativeTransition}
    (h : reconcileInitiativeLifecycle E files now tasks initiatives db = .ok db') :
    ReflTransGen (Routine E.sha resources true) db db' := by
  simp only [reconcileInitiativeLifecycle,bind_eq_ok] at h
  obtain ⟨mid,htasks,hinitiatives⟩ := h
  exact (applyAll_moves (fun _ _ _ h => applyTaskTransition_moves h) htasks).trans
    (applyAll_moves (fun _ _ _ h => applyInitiativeTransition_moves h) hinitiatives)

theorem receiptNormalize_move {sha : Sha} {registry : Registry} (h : receiptNormalize sha registry now db = .ok db') :
    db' = db ∨ Move sha resources .normalize db db' := by
  unfold receiptNormalize at h
  split at h
  · exact .inl (Except.ok.inj h).symm
  · cases h
    exact .inr (.normalize rfl rfl rfl rfl)

theorem backfillTaskProjection_move {sha : Sha} {backfill : Option Payload}
    (h : backfillTaskProjection sha db taskId backfill = .ok db') :
    db' = db ∨ Move sha resources .backfill db db' := by
  unfold backfillTaskProjection at h
  split at h
  · rename_i hdrift
    split at h
    · exact .inl (Except.ok.inj h).symm
    · rename_i payload
      simp only [steps_ok] at h
      obtain ⟨written,hinsert,replayed,hreplayed,_,_,rfl⟩ := h
      obtain ⟨_,rfl⟩ := Db.insertEvent_eq_ok hinsert
      refine .inr (.backfill hdrift ?_ rfl rfl ⟨replayed,hreplayed⟩ rfl)
      cases payload <;> simp [Db.nextRow,Payload.projectionEvent]
  · exact .inl (Except.ok.inj h).symm

theorem applyTaskNoRunCloseout_moves {material : CloseoutMaterial} {backfill : Option Payload}
    (h : applyTaskNoRunCloseout E files now material backfill taskId db = .ok db') :
    Move E.sha resources .backfill db db' ∨ ReflTransGen (Routine E.sha resources true) db db' := by
  simp only [applyTaskNoRunCloseout,steps_ok] at h
  obtain ⟨_,_,task,_,_,_,current,_,_,_,_,_,_,_,plan,_,h⟩ := h
  split at h
  · simp only [steps_ok] at h
    obtain ⟨_,_,h⟩ := h
    rcases backfillTaskProjection_move h with rfl | hmove
    · exact .inr .refl
    · exact .inl hmove
  · simp only [steps_ok] at h
    obtain ⟨_,_,_,_,⟨result,written⟩,hput,_,_,_,_,_,_,hdelta⟩ := h
    exact .inr (ReflTransGen.trans (.single (TaskSpecs.put_routine hput))
      (.single (Move.routine true (.task hdelta rfl))))

end Maintenance

/-- The operations of the store, each one transaction, with everything they are given. A dispatcher
comes as it was built, at whatever time. -/
inductive Op where
  | registerWorker (now : Time) (workerId kind : String) (capabilities : List String)
  | claimNext (d : Dispatcher) (call : Dispatcher.ClaimCall) (workerId : String) (resource : Option String)
  | issueClaimIntent (intent : Json) (actionClass : String) (contract : Option Json)
  | commitClaimIntent (d : Dispatcher) (call : Dispatcher.CoordinatedCall) (intent : Json)
  | expandClaim (d : Dispatcher) (now : Time) (runId : String) (claim : Claim) (reason : String)
  | resumeOrphanedRun (d : Dispatcher) (call : Dispatcher.CoordinatedCall) (worktreeUnchanged : Bool)
      (request : Dispatcher.ResumeRequest)
  | bind (now : Time) (runId system externalId : String)
  | prepareDispatch (now : Time) (runId system : String)
  | markDispatchUncertain (now : Time) (runId error : String)
  | heartbeat (now : Time) (runId : String) (workerId : Option String)
  | boundActivityHeartbeat (now : Time) (runId activityId : String) (binding : ActivityBinding) (payload : Json)
  | reconcile (now : Time) (staleAfter : Int) (replies : String → AdapterReply)
  | completeRun (call : CloseCall) (runId : String)
  | replayCompletion (runId : String)
  | failRun (now : Time) (runId error : String) (state : RunState)
  | setInitiativeState (now : Time) (initiativeId state : String)
  | reconcileLifecycle (files : Registry) (now : Time) (tasks : List TaskTransition)
      (initiatives : List InitiativeTransition)
  | noRunCloseout (files : Registry) (now : Time) (material : CloseoutMaterial) (backfill : Option Payload)
      (taskId : String)
  | receiptNormalize (registry : Registry) (now : Time)
  | createWorkspace (now : Time) (runId : String) (tree : Worktree)
  | preserveWorkspace (now : Time) (runId reason : String)
  | removeWorkspace (now : Time) (runId : String) (payload : Json)
  | putTaskSpec (now : Time) (spec : Json) (key : String) (expected : Option ℕ) (source : String)
  | putTaskSpecMaterial (now : Time) (spec : Json) (key : String) (expected : Option ℕ) (source : String)

namespace Op

def apply (E : Env) (K : Contracts) (db : Db) : Op → Result Db
  | .registerWorker now workerId kind capabilities => db.registerWorker now workerId kind capabilities
  | .claimNext d call workerId resource => (d.claimNext E call workerId resource db).map Prod.snd
  | .issueClaimIntent intent actionClass contract =>
    (db.issueClaimIntent E.sha intent actionClass contract).map Prod.snd
  | .commitClaimIntent d call intent => (d.commitClaimIntent E call intent db).map Prod.snd
  | .expandClaim d now runId claim reason => d.expandClaim db now runId claim reason
  | .resumeOrphanedRun d call unchanged request => d.resumeOrphanedRun E call unchanged request db
  | .bind now runId system externalId => db.bind E.sha now runId system externalId
  | .prepareDispatch now runId system => db.prepareDispatch E.sha now runId system
  | .markDispatchUncertain now runId error => db.markDispatchUncertain E.sha now runId error
  | .heartbeat now runId workerId => db.heartbeat E.sha now runId workerId
  | .boundActivityHeartbeat now runId activityId binding payload =>
    db.boundActivityHeartbeat E.sha now runId activityId binding payload
  | .reconcile now staleAfter replies => db.reconcile E.sha now staleAfter replies
  | .completeRun call runId => (Bureau.completeRun E K call runId db).map Prod.snd
  | .replayCompletion runId => (Bureau.replayCompletion E runId db).map Prod.snd
  | .failRun now runId error state => db.failRun E.sha now runId error state
  | .setInitiativeState now initiativeId state => db.setInitiativeState E.sha now initiativeId state
  | .reconcileLifecycle files now tasks initiatives =>
    reconcileInitiativeLifecycle E files now tasks initiatives db
  | .noRunCloseout files now material backfill taskId =>
    applyTaskNoRunCloseout E files now material backfill taskId db
  | .receiptNormalize registry now => Bureau.receiptNormalize E.sha registry now db
  | .createWorkspace now runId tree => db.createWorkspace E.sha now runId tree
  | .preserveWorkspace now runId reason => db.preserveWorkspace E.sha now runId reason
  | .removeWorkspace now runId payload => db.removeWorkspace E.sha now runId payload
  | .putTaskSpec now spec key expected source => (TaskSpecs.put E now db spec key expected source).map Prod.snd
  | .putTaskSpecMaterial now spec key expected source =>
    (TaskSpecs.putValidatedMaterial E.sha now db spec key expected source).map Prod.snd

def resources? : Op → Option Resources
  | .claimNext d _ _ _ | .commitClaimIntent d _ _ | .expandClaim d _ _ _ _ | .resumeOrphanedRun d _ _ _ =>
    some d.registry.resources
  | _ => none

def kind : Op → Kind
  | .claimNext .. | .commitClaimIntent .. => .claim
  | .issueClaimIntent .. => .issue
  | .expandClaim .. => .expand
  | .resumeOrphanedRun .. => .resume
  | .completeRun .. => .complete
  | .receiptNormalize .. => .normalize
  | .noRunCloseout .. => .backfill
  | .createWorkspace .. | .preserveWorkspace .. | .removeWorkspace .. => .workspace
  | .boundActivityHeartbeat .. => .activity
  | _ => .plain

def publishes : Op → Bool
  | .reconcileLifecycle .. | .noRunCloseout .. | .putTaskSpec .. | .putTaskSpecMaterial .. => true
  | _ => false

end Op

@[simp] theorem map_snd_eq_ok {α : Type} {r : Result (α × Db)} :
    r.map Prod.snd = .ok db' ↔ ∃ a, r = .ok (a,db') := by
  cases r with
  | error e => simp [Except.map]
  | ok result => obtain ⟨a,written⟩ := result; simp [Except.map,eq_comm]

theorem moves_of_eq_or_move {sha : Sha} {kind : Kind} {publishes : Bool}
    (h : db' = db ∨ Move sha resources kind db db') :
    Move sha resources kind db db' ∨ ReflTransGen (Routine sha resources publishes) db db' := by
  rcases h with rfl | hmove
  · exact .inr .refl
  · exact .inl hmove

theorem routines_of_moves {sha : Sha} {publishes : Bool} (h : ReflTransGen (Move sha resources .plain) db db') :
    ReflTransGen (Routine sha resources publishes) db db' :=
  ReflTransGen.mono (fun _ _ => Move.routine publishes) _ _ h

/-- A committed operation is one move of its own kind, or a sequence of plain moves and of the
TaskSpec revisions it publishes. -/
theorem apply_moves (hresources : ∀ r, op.resources? = some r → r = resources) (h : op.apply E K db = .ok db') :
    Move E.sha resources op.kind db db' ∨ ReflTransGen (Routine E.sha resources op.publishes) db db' := by
  cases op with
  | registerWorker now workerId kind capabilities => exact .inl (Db.registerWorker_move h)
  | claimNext d call workerId resource =>
    obtain rfl := hresources _ rfl
    obtain ⟨_,h⟩ := map_snd_eq_ok.mp h
    exact moves_of_eq_or_move ((Dispatcher.claimNext_writes h).imp_right fun ⟨_,_,_,hclaim⟩ => hclaim.move)
  | issueClaimIntent intent actionClass contract =>
    obtain ⟨_,h⟩ := map_snd_eq_ok.mp h
    exact moves_of_eq_or_move (Dispatcher.issueClaimIntent_move h)
  | commitClaimIntent d call intent =>
    obtain rfl := hresources _ rfl
    obtain ⟨_,h⟩ := map_snd_eq_ok.mp h
    exact moves_of_eq_or_move ((Dispatcher.commitClaimIntent_writes h).imp_right fun ⟨_,_,_,hclaim⟩ => hclaim.move)
  | expandClaim d now runId claim reason =>
    obtain rfl := hresources _ rfl
    exact .inl (Dispatcher.expandClaim_move h)
  | resumeOrphanedRun d call unchanged request =>
    obtain rfl := hresources _ rfl
    exact .inl (Dispatcher.resumeOrphanedRun_move h)
  | bind now runId system externalId => exact .inl (Db.bind_move h)
  | prepareDispatch now runId system => exact moves_of_eq_or_move (Db.prepareDispatch_move h)
  | markDispatchUncertain now runId error => exact .inl (Db.markDispatchUncertain_move h)
  | heartbeat now runId workerId => exact .inl (Db.heartbeat_move h)
  | boundActivityHeartbeat now runId activityId binding payload => exact .inl (Db.boundActivityHeartbeat_move h)
  | reconcile now staleAfter replies => exact .inr (routines_of_moves (Db.reconcile_moves h).1)
  | completeRun call runId =>
    obtain ⟨_,h⟩ := map_snd_eq_ok.mp h
    exact moves_of_eq_or_move (completeRun_move h)
  | replayCompletion runId =>
    obtain ⟨_,h⟩ := map_snd_eq_ok.mp h
    rw [replayCompletion_unchanged h]
    exact .inr .refl
  | failRun now runId error state => exact .inl (Db.failRun_move h)
  | setInitiativeState now initiativeId state => exact moves_of_eq_or_move (Db.setInitiativeState_move h)
  | reconcileLifecycle files now tasks initiatives => exact .inr (reconcileInitiativeLifecycle_moves h)
  | noRunCloseout files now material backfill taskId => exact applyTaskNoRunCloseout_moves h
  | receiptNormalize registry now => exact moves_of_eq_or_move (receiptNormalize_move h)
  | createWorkspace now runId tree => exact moves_of_eq_or_move (Db.createWorkspace_move h)
  | preserveWorkspace now runId reason => exact .inl (Db.preserveWorkspace_move h)
  | removeWorkspace now runId payload => exact .inl (Db.removeWorkspace_move h)
  | putTaskSpec now spec key expected source =>
    obtain ⟨_,h⟩ := map_snd_eq_ok.mp h
    exact .inr (.single (TaskSpecs.put_routine h))
  | putTaskSpecMaterial now spec key expected source =>
    obtain ⟨_,h⟩ := map_snd_eq_ok.mp h
    exact .inr (.single (TaskSpecs.putValidatedMaterial_routine h))

def step (E : Env) (K : Contracts) (db : Db) (op : Op) : Db :=
  commit db (op.apply E K db)

def Op.planned (resources : Resources) (op : Op) : Prop :=
  ∀ r, op.resources? = some r → r = resources

/-- What survives every move on a fixed resource tree survives every operation planned on it. -/
theorem step_invariant {P : Db → Prop} (hmove : ∀ kind db db', Move E.sha resources kind db db' → P db → P db')
    (h : P db) (hop : op.planned resources) : P (step E K db op) := by
  refine commit_preserves h fun db' hdb' => ?_
  rcases apply_moves hop hdb' with hsingle | hplain
  · exact hmove _ _ _ hsingle h
  · clear hdb'
    induction hplain with
    | refl => exact h
    | tail _ hlast ih =>
      obtain ⟨kind,hlast,_⟩ := hlast
      exact hmove kind _ _ hlast ih

theorem Op.planned_self (op : Op) : op.planned (op.resources?.getD ∅) :=
  fun r hr => by simp [hr]

/-! A small registry for worked cases: two repositories, one initiative and one task. -/

namespace Sample

def sha : Sha := fun s =>
  if s.toByteArray.data.toList[28]? = some 125 then
    "e3b0c44298fc1c149afbf4c8996fb92427ae41e4649b934ca495991b7852b855"
  else "8ef76c7a95b45f68f3d2886d91aad7f5c7993b8b5b8c73a41944651962ffddcb"

def env : Env where
  sha := sha
  schemaError := fun _ _ => none
  acceptanceError := fun _ => none
  rlensBlockReason := fun _ => none
  coordinationScope := fun _ => none
  rlensContextPolicy := fun _ => .null
  rlensContextRef := fun _ => none

theorem validDigest_sha (s : String) : validDigest (env.sha s) = true := by
  change validDigest (sha s) = true
  unfold sha
  split <;> decide +kernel

def contracts : Contracts := ⟨fun _ => true,fun _ => none,fun _ _ => none⟩

def repository (id : String) : Resource :=
  ⟨id,"git-repository",none,none,none,none,none,.obj []⟩

def spec : Json :=
  .obj [("claims",.arr [.obj [("mode",.str "write"),("resource",.str "repo.a")]]),
    ("execution",.obj [("mode",.str "agent"),("policy",.str "autonomous")]),("id",.str "T-1"),
    ("initiative",.str "I-1"),("state",.str "ready")]

def secondSpec : Json :=
  .obj [("claims",.arr [.obj [("mode",.str "write"),("resource",.str "repo.b")]]),
    ("execution",.obj [("mode",.str "agent"),("policy",.str "autonomous")]),("id",.str "T-2"),
    ("initiative",.str "I-1"),("state",.str "ready")]

def task : Task where
  id := "T-1"
  initiative := "I-1"
  state := .ready
  dependsOn := []
  capabilities := []
  lane := "now"
  rank := 1
  execution := .obj [("mode",.str "agent"),("policy",.str "autonomous")]
  claims := [⟨"repo.a",.write,1,"none",Mode.write_claimable⟩]
  raw := spec
  sha256 := taskRevisionSha256 sha spec

def files : Registry where
  resources := Std.ExtTreeMap.ofList [("repo.a",repository "repo.a"),("repo.b",repository "repo.b")]
  initiatives := Std.ExtTreeMap.ofList [("I-1",Initiative.mk "active" "now" 2 none)]
  tasks := Std.ExtTreeMap.ofList [("T-1",task)]
  queuePolicy := "best-effort"

def dispatcher : Dispatcher := ⟨files,.legacyGitBootstrap,∅⟩

def specTask (sha : Sha) (resource : String) (execution spec : Json) : Task :=
  { task with
    lane := "later"
    rank := 1000
    execution := execution
    claims := [⟨resource,.write,1,"none",Mode.write_claimable⟩]
    raw := spec
    sha256 := taskRevisionSha256 sha spec }

def specDispatcher (sha : Sha) (files : Registry) (resource : String) (execution spec : Json) : Dispatcher where
  registry := { files with tasks := Std.ExtTreeMap.ofList [("T-1",specTask sha resource execution spec)] }
  authority := .stateStoreTaskSpecs
  revisions := Std.ExtTreeMap.ofList [("T-1",RevisionRef.mk (some 1) (TaskSpecs.taskSpecDigest sha spec))]

def execution : Json := .obj [("mode",.str "agent"),("policy",.str "autonomous")]

def observed : Observed := ⟨[],fun _ _ => .ready [],[],none⟩

def claim : List Op :=
  [.registerWorker 1 "worker" "codex" [],
    .claimNext dispatcher ⟨files,observed,2,"RUN-1",.null⟩ "worker" none]

def claimed : Db := run (step env contracts) (Db.fresh sha) claim

end Sample

end Bureau
