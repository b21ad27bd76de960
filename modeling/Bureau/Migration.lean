import Bureau.Autocommit
import Bureau.Tables

/-!
Opening a StateStore: the version check, the two schema scripts, the columns and indexes of later
versions, the projection baseline and the new schema version, as SQLite executes them.
-/

namespace Bureau

namespace Migration

open Autocommit

inductive Cell where
  | null
  | integer (n : ℤ)
  | real (bits : UInt64)
  | text (s : String)
  | blob (bytes : List UInt8)
  deriving DecidableEq

abbrev Row := List (String × Cell)

def cell (row : Row) (column : String) : Cell :=
  (row.lookup column).getD .null

inductive Coverage where
  | all
  | activeState
  | notNull (column : String)
  deriving DecidableEq

structure Index where
  table : String
  columns : List String
  unique : Bool
  covers : Coverage
  deriving DecidableEq

structure SqlTable where
  columns : List String
  rows : List Row
  deriving DecidableEq

structure Database where
  userVersion : ℤ
  tables : Std.ExtTreeMap String SqlTable
  indexes : Std.ExtTreeMap String Index
  deriving DecidableEq

inductive Error where
  | runtime (message : String)
  | state (message : String)
  | sqlite (message : String)
  deriving DecidableEq

def schemaVersion : ℤ := 6

def projectionEventType : String := "state-projection-v1"

/-- What the store reads and writes as event payloads: the mode of a stored projection payload that
parses and is valid, and the baseline payload of the tables. -/
structure Payloads where
  mode : Cell → Except String (Option String)
  baseline : Database → Except String String
  now : String

inductive Statement where
  | checkVersion
  | createTable (name : String) (columns : List String)
  | createIndex (name : String) (index : Index)
  | addColumn (table column : String) (value : Cell)
  | ensureBaseline (allowCreate : Bool)
  | setVersion
  deriving DecidableEq

namespace Coverage

def columns : Coverage → List String
  | .all => []
  | .activeState => ["state"]
  | .notNull column => [column]

def holds : Coverage → Row → Bool
  | .all, _ => true
  | .activeState, row => cell row "state" ∈ [.text "assigned",.text "running",.text "verifying"]
  | .notNull column, row => cell row column ≠ .null

end Coverage

/-- The keys a unique index compares; a key with a null is distinct from every other. -/
def Index.keys (index : Index) (rows : List Row) : List (List Cell) :=
  ((rows.filter index.covers.holds).map fun row => index.columns.map (cell row)).filter (.null ∉ ·)

def sqlite {α : Type} (message : String) : Except Error α :=
  .error (.sqlite message)

/-- `CREATE TABLE IF NOT EXISTS`. -/
def createTable (name : String) (columns : List String) (d : Database) : Except Error Database :=
  if d.tables.contains name then .ok d
  else if d.indexes.contains name then sqlite ("there is already an index named " ++ name)
  else .ok { d with tables := d.tables.insert name ⟨columns,[]⟩ }

/-- `CREATE INDEX IF NOT EXISTS` and `CREATE UNIQUE INDEX IF NOT EXISTS`. -/
def createIndex (name : String) (index : Index) (d : Database) : Except Error Database :=
  match d.tables[index.table]? with
  | none => sqlite ("no such table: main." ++ index.table)
  | some table =>
    if d.tables.contains name then sqlite ("there is already a table named " ++ name)
    else if d.indexes.contains name then .ok d
    else if !((index.columns ++ index.covers.columns).all (· ∈ table.columns)) then sqlite "no such column"
    else if index.unique && !(index.keys table.rows).Nodup then sqlite "UNIQUE constraint failed"
    else .ok { d with indexes := d.indexes.insert name index }

def addColumn (table column : String) (value : Cell) (d : Database) : Except Error Database :=
  match d.tables[table]? with
  | none => sqlite ("no such table: " ++ table)
  | some t =>
    if column ∈ t.columns then .ok d
    else
      let rows := t.rows.map (· ++ [(column,value)])
      .ok { d with tables := d.tables.insert table ⟨t.columns ++ [column],rows⟩ }

def isProjection (row : Row) : Bool :=
  row.lookup "event_schema_version" = some (.integer 1) && row.lookup "event_type" = some (.text projectionEventType)

def eventId (row : Row) : ℤ :=
  match cell row "event_id" with
  | .integer n => n
  | _ => 0

/-- `ORDER BY event_id LIMIT 1`. -/
def firstRow (row : Row) (rows : List Row) : Row :=
  rows.foldl (fun first row => if eventId row < eventId first then row else first) row

def eventColumns : List String :=
  ["event_id","run_id","event_type","event_schema_version","payload_json","created_at"]

def baselineRow (P : Payloads) (payload : String) (columns : List String) : Row :=
  columns.map fun column => (column,
    match column with
    | "event_id" => .integer 0
    | "event_type" => .text projectionEventType
    | "event_schema_version" => .integer 1
    | "payload_json" => .text payload
    | "created_at" => .text P.now
    | _ => .null)

/-- `StateStore._ensure_projection_baseline`: the count, then the read of the first row, or the look at
event 0 and the insertion. -/
def ensureBaseline (P : Payloads) (allowCreate : Bool) (d : Database) : Except Error Database :=
  match d.tables["events"]? with
  | none => sqlite "no such table: events"
  | some events =>
    if !(["event_schema_version","event_type"].all (· ∈ events.columns)) then sqlite "no such column"
    else
      match events.rows.filter isProjection with
      | row :: rest =>
        if !(["payload_json","event_id"].all (· ∈ events.columns)) then sqlite "no such column"
        else
          match P.mode (cell (firstRow row rest) "payload_json") with
          | .error message => .error (.state ("state projection baseline is invalid: " ++ message))
          | .ok mode =>
            if mode = some "baseline" then .ok d
            else .error (.state "state projection baseline is missing before deltas")
      | [] =>
        if !allowCreate then .error (.state "state projection baseline is missing from schema version 4")
        else if "event_id" ∉ events.columns then sqlite "no such column"
        else if events.rows.any fun row => cell row "event_id" = .integer 0 then
          .error (.state "event id 0 is reserved for the state projection baseline")
        else
          match P.baseline d with
          | .error message => .error (.state message)
          | .ok payload =>
            if !(eventColumns.all (· ∈ events.columns)) then sqlite "table events has no such column"
            else
              let rows := events.rows ++ [baselineRow P payload events.columns]
              .ok { d with tables := d.tables.insert "events" { events with rows := rows } }

def exec (P : Payloads) : Statement → Database → Except Error Database
  | .checkVersion, d =>
    if schemaVersion < d.userVersion then
      .error (.runtime ("unsupported Bureau state schema " ++ toString d.userVersion ++ "; maximum is " ++
        toString schemaVersion))
    else .ok d
  | .createTable name columns, d => createTable name columns d
  | .createIndex name index, d => createIndex name index d
  | .addColumn table column value, d => addColumn table column value d
  | .ensureBaseline allowCreate, d => ensureBaseline P allowCreate d
  | .setVersion, d => .ok { d with userVersion := schemaVersion }

/-- The first script of `_initialize`. -/
def storeSchema : List Statement :=
  [.createTable "workers" ["worker_id","kind","capabilities_json","heartbeat_at"],
    .createTable "runs" ["run_id","task_id","worker_id","attempt","state","task_sha256","plan_sha256","envelope_json",
      "envelope_sha256","dispatch_request_id","external_system","external_id","external_state","external_observed_at",
      "workspace_path","workspace_branch","error","created_at","updated_at","heartbeat_at"],
    .createTable "reservations" ["run_id","resource_id","mode","amount","created_at"],
    .createTable "task_status" ["task_id","task_sha256","plan_sha256","state","receipt_sha256","updated_at"],
    .createTable "initiative_status" ["initiative_id","state","updated_at"],
    .createTable "receipts" ["run_id","receipt_json","receipt_sha256","created_at"],
    .createTable "workspaces" ["run_id","repository_path","workspace_path","branch","baseline_commit","state",
      "created_at","updated_at","detail"],
    .createTable "events" ["event_id","run_id","event_type","event_schema_version","activity_id","payload_json",
      "created_at"],
    .createIndex "events_by_run_type" ⟨"events",["run_id","event_type","event_id"],false,.all⟩,
    .createIndex "one_active_run_per_task" ⟨"runs",["task_id"],true,.activeState⟩,
    .createIndex "one_active_run_per_worker" ⟨"runs",["worker_id"],true,.activeState⟩]

def laterColumns : List Statement :=
  [.addColumn "runs" "plan_sha256" (.text ""),.addColumn "runs" "dispatch_request_id" .null,
    .addColumn "runs" "external_state" .null,.addColumn "runs" "external_observed_at" .null,
    .addColumn "task_status" "task_sha256" (.text ""),.addColumn "task_status" "plan_sha256" (.text ""),
    .addColumn "events" "event_schema_version" (.integer 0),.addColumn "events" "activity_id" .null]

/-- The script of `task_specs.ensure_schema`. -/
def specSchema : List Statement :=
  [.createTable "task_spec_revisions" ["task_id","revision","parent_revision","spec_sha256","spec_json","source",
      "created_at"],
    .createTable "task_specs" ["task_id","current_revision","spec_sha256","updated_at"],
    .createTable "task_spec_mutations" ["idempotency_key","task_id","expected_revision","requested_sha256",
      "resulting_revision","created_at","activation_evidence_json","activation_evidence_sha256"],
    .createIndex "task_spec_revision_digest" ⟨"task_spec_revisions",["spec_sha256"],false,.all⟩]

def evidenceColumns : List Statement :=
  [.addColumn "task_spec_mutations" "activation_evidence_json" .null,
    .addColumn "task_spec_mutations" "activation_evidence_sha256" .null]

def laterIndexes : List Statement :=
  [.createIndex "unique_dispatch_request" ⟨"runs",["dispatch_request_id"],true,.notNull "dispatch_request_id"⟩,
    .createIndex "unique_bound_activity_id" ⟨"events",["activity_id"],true,.notNull "activity_id"⟩,
    .createIndex "events_by_run_activity" ⟨"events",["run_id","activity_id","event_id"],false,.notNull "activity_id"⟩]

/-- The calls of `StateStore._initialize` on a database of one version. -/
def steps (version : ℤ) : List (Step Statement) :=
  [.statement .checkVersion,.begin] ++ script storeSchema ++ laterColumns.map .statement ++ script specSchema ++
    evidenceColumns.map .statement ++ laterIndexes.map .statement ++
    [.statement (.ensureBaseline (version < 4)),.statement .setVersion,.commit]

def engine (P : Payloads) (fails : Step Statement → Option Error) : Engine Statement Database Error where
  exec := exec P
  fails := fails
  nested := .sqlite "cannot start a transaction within a transaction"

/-- `StateStore._initialize`: the error it raises, if any, and the database it leaves. -/
def initializeStore (P : Payloads) (fails : Step Statement → Option Error) (d : Database) : Option Error × Database :=
  let (error,connection) := (engine P fails).run (steps d.userVersion) ⟨d,none⟩
  (error,connection.disk)

def Present : Statement → Database → Prop
  | .checkVersion, _ => True
  | .createTable name _, d => ∃ table, d.tables[name]? = some table
  | .createIndex name _, d => ∃ index, d.indexes[name]? = some index
  | .addColumn table column _, d => ∃ t, d.tables[table]? = some t ∧ column ∈ t.columns
  | .ensureBaseline _, d => ∃ events, d.tables["events"]? = some events ∧ ∃ row ∈ events.rows, isProjection row = true
  | .setVersion, d => d.userVersion = schemaVersion

variable {P : Payloads} {d d' : Database}

variable {k name column : String} {columns : List String} {s : Statement}

theorem contains_iff {V : Type} {t : Std.ExtTreeMap String V} :
    t.contains k = true ↔ ∃ v, t[k]? = some v := by
  rw [Std.ExtTreeMap.contains_eq_isSome_getElem?,Option.isSome_iff_exists]

theorem not_contains_iff {V : Type} {t : Std.ExtTreeMap String V} :
    ¬ t.contains k = true ↔ t[k]? = none := by
  rw [contains_iff,Option.eq_none_iff_forall_ne_some,not_exists]

theorem createTable_eq_ok (h : createTable name columns d = .ok d') :
    (∃ table, d.tables[name]? = some table) ∧ d' = d ∨
      d.tables[name]? = none ∧ d' = { d with tables := d.tables.insert name ⟨columns,[]⟩ } := by
  unfold createTable at h
  split at h
  · next hpresent => exact .inl ⟨contains_iff.mp hpresent,(Except.ok.inj h).symm⟩
  · next hmissing =>
    split at h
    · simp [sqlite] at h
    · exact .inr ⟨not_contains_iff.mp hmissing,(Except.ok.inj h).symm⟩

theorem createIndex_eq_ok {index : Index} (h : createIndex name index d = .ok d') :
    (∃ old, d.indexes[name]? = some old) ∧ d' = d ∨
      d.indexes[name]? = none ∧ d' = { d with indexes := d.indexes.insert name index } := by
  unfold createIndex at h
  split at h
  · simp [sqlite] at h
  · split at h
    · simp [sqlite] at h
    · split at h
      · next hpresent =>
        exact .inl ⟨contains_iff.mp hpresent,
          (Except.ok.inj h).symm⟩
      · next hmissing =>
        split at h
        · simp [sqlite] at h
        · split at h
          · simp [sqlite] at h
          · exact .inr ⟨not_contains_iff.mp hmissing,(Except.ok.inj h).symm⟩

theorem addColumn_eq_ok {table : String} {value : Cell} (h : addColumn table column value d = .ok d') :
    ∃ t, d.tables[table]? = some t ∧ (column ∈ t.columns ∧ d' = d ∨ column ∉ t.columns ∧ d' = { d with
      tables := d.tables.insert table ⟨t.columns ++ [column],t.rows.map (· ++ [(column,value)])⟩ }) := by
  unfold addColumn at h
  split at h
  · simp [sqlite] at h
  · next t ht =>
    refine ⟨t,ht,?_⟩
    split at h
    · next hcolumn => exact .inl ⟨hcolumn,(Except.ok.inj h).symm⟩
    · next hcolumn => exact .inr ⟨hcolumn,(Except.ok.inj h).symm⟩

theorem lookup_map_self (f : String → Cell) (h : column ∈ columns) :
    (columns.map fun c => (c,f c)).lookup column = some (f column) := by
  induction columns with
  | nil => simp at h
  | cons first rest ih =>
    rw [List.map_cons,List.lookup_cons]
    by_cases hfirst : column = first
    · simp [hfirst]
    · have hbeq : (column == first) = false := by simpa using hfirst
      simpa [hbeq] using ih ((List.mem_cons.mp h).resolve_left hfirst)

theorem isProjection_baselineRow {payload : String} (h : ∀ c ∈ eventColumns, c ∈ columns) :
    isProjection (baselineRow P payload columns) = true := by
  have hversion := h "event_schema_version" (by decide)
  have htype := h "event_type" (by decide)
  simp only [isProjection,baselineRow,lookup_map_self _ hversion,lookup_map_self _ htype]
  simp

theorem ensureBaseline_eq_ok {allowCreate : Bool} (h : ensureBaseline P allowCreate d = .ok d') :
    ∃ events, d.tables["events"]? = some events ∧
      ((∃ row ∈ events.rows, isProjection row = true) ∧ d' = d ∨
        (∀ row ∈ events.rows, isProjection row = false) ∧ ∃ row, isProjection row = true ∧ d' = { d with
          tables := d.tables.insert "events" { events with rows := events.rows ++ [row] } }) := by
  unfold ensureBaseline at h
  split at h
  · simp [sqlite] at h
  · next events hevents =>
    refine ⟨events,hevents,?_⟩
    split at h
    · simp [sqlite] at h
    · split at h
      · next row rest hrows =>
        have hrow : row ∈ events.rows.filter isProjection := hrows ▸ List.mem_cons_self
        split at h
        · simp [sqlite] at h
        · split at h
          · simp at h
          · split at h
            · exact .inl ⟨⟨row,List.mem_filter.mp hrow⟩,(Except.ok.inj h).symm⟩
            · simp at h
      · next hrows =>
        split_ifs at h with hcreate hid hzero hcolumns
        · split at h <;> simp [sqlite] at h
        · split at h
          · simp at h
          · have hall : ∀ c ∈ eventColumns, c ∈ events.columns := by simpa using hcolumns
            exact .inr ⟨by simpa using hrows,_,isProjection_baselineRow hall,(Except.ok.inj h).symm⟩
        · simp [sqlite] at h

/-- What becomes of the tables when a statement succeeds: they stay, and a table keeps its columns
and its projection events. -/
def Extends (d d' : Database) : Prop :=
  ∀ (name : String) (t : SqlTable), d.tables[name]? = some t → ∃ t' : SqlTable, d'.tables[name]? = some t' ∧
    (∀ c ∈ t.columns, c ∈ t'.columns) ∧
    ∀ row ∈ t.rows, isProjection row = true → ∃ row' ∈ t'.rows, isProjection row' = true

theorem Extends.rfl : Extends d d :=
  fun _ t h => ⟨t,h,fun _ hc => hc,fun row hrow hp => ⟨row,hrow,hp⟩⟩

theorem extends_insert_new {t : SqlTable} (hnew : d.tables[name]? = none) :
    Extends d { d with tables := d.tables.insert name t } := by
  intro other old hold
  have hne : other ≠ name := by
    rintro rfl
    simp [hnew] at hold
  exact ⟨old,(Tables.get_insert_ne _ _ hne).trans hold,fun _ hc => hc,fun row hrow hp => ⟨row,hrow,hp⟩⟩

theorem extends_insert {t t' : SqlTable} (ht : d.tables[name]? = some t)
    (hcolumns : ∀ c ∈ t.columns, c ∈ t'.columns)
    (hrows : ∀ row ∈ t.rows, isProjection row = true → ∃ row' ∈ t'.rows, isProjection row' = true) :
    Extends d { d with tables := d.tables.insert name t' } := by
  intro other old hold
  by_cases hne : other = name
  · subst hne
    obtain rfl := Option.some.inj (hold.symm.trans ht)
    exact ⟨t',Tables.get_insert_self _ _ _,hcolumns,hrows⟩
  · exact ⟨old,(Tables.get_insert_ne _ _ hne).trans hold,fun _ hc => hc,fun row hrow hp => ⟨row,hrow,hp⟩⟩

theorem isProjection_append {row more : Row} (h : isProjection row = true) : isProjection (row ++ more) = true := by
  simp only [isProjection,Bool.and_eq_true,decide_eq_true_eq] at h ⊢
  simp [List.lookup_append,h.1,h.2]

structure Effect (s : Statement) (d d' : Database) : Prop where
  tables : Extends d d'
  indexes : ∀ (name : String) (index : Index), d.indexes[name]? = some index → ∃ index', d'.indexes[name]? = some index'
  version : d.userVersion = schemaVersion → d'.userVersion = schemaVersion
  made : Present s d'
  idle : Present s d → d' = d

theorem Effect.of_present (h : Present s d) : Effect s d d :=
  ⟨Extends.rfl,fun _ index hindex => ⟨index,hindex⟩,id,h,fun _ => rfl⟩

theorem exec_effect (h : exec P s d = .ok d') : Effect s d d' := by
  cases s with
  | checkVersion =>
    simp only [exec] at h
    split at h
    · simp at h
    · exact Except.ok.inj h ▸ Effect.of_present trivial
  | createTable name columns =>
    rcases createTable_eq_ok h with ⟨hpresent,rfl⟩ | ⟨hnew,rfl⟩
    · exact Effect.of_present hpresent
    · exact ⟨extends_insert_new hnew,fun _ index hindex => ⟨index,hindex⟩,id,⟨_,Tables.get_insert_self _ _ _⟩,
        fun ⟨_,hold⟩ => by simp [hnew] at hold⟩
  | createIndex name index =>
    rcases createIndex_eq_ok h with ⟨hpresent,rfl⟩ | ⟨hnew,rfl⟩
    · exact Effect.of_present hpresent
    · refine ⟨Extends.rfl,fun other old hold => ?_,id,⟨_,Tables.get_insert_self _ _ _⟩,
        fun ⟨_,hold⟩ => by simp [hnew] at hold⟩
      by_cases hne : other = name
      · exact ⟨index,by rw [hne]; exact Tables.get_insert_self _ _ _⟩
      · exact ⟨old,(Tables.get_insert_ne _ _ hne).trans hold⟩
  | addColumn table column value =>
    obtain ⟨t,ht,⟨hcolumn,rfl⟩ | ⟨hcolumn,rfl⟩⟩ := addColumn_eq_ok h
    · exact Effect.of_present ⟨t,ht,hcolumn⟩
    · refine ⟨extends_insert ht (fun c hc => List.mem_append_left _ hc) fun row hrow hp => ?_,
        fun _ index hindex => ⟨index,hindex⟩,id,⟨_,Tables.get_insert_self _ _ _,by simp⟩,fun ⟨old,hold,hmem⟩ => ?_⟩
      · exact ⟨_,List.mem_map_of_mem hrow,isProjection_append hp⟩
      · obtain rfl := Option.some.inj (hold.symm.trans ht)
        exact absurd hmem hcolumn
  | ensureBaseline allowCreate =>
    obtain ⟨events,hevents,⟨hrow,rfl⟩ | ⟨hnone,row,hrow,rfl⟩⟩ := ensureBaseline_eq_ok h
    · exact Effect.of_present ⟨events,hevents,hrow⟩
    · refine ⟨extends_insert hevents (fun _ hc => hc) fun old hold hp => ⟨old,List.mem_append_left _ hold,hp⟩,
        fun _ index hindex => ⟨index,hindex⟩,id,⟨_,Tables.get_insert_self _ _ _,row,by simp,hrow⟩,
        fun ⟨old,hold,other,hother,hp⟩ => ?_⟩
      obtain rfl := Option.some.inj (hold.symm.trans hevents)
      simp [hnone other hother] at hp
  | setVersion =>
    obtain rfl := Except.ok.inj h
    refine ⟨Extends.rfl,fun _ index hindex => ⟨index,hindex⟩,fun _ => rfl,rfl,fun hpresent => ?_⟩
    have hversion : d.userVersion = schemaVersion := hpresent
    rw [← hversion]

theorem Effect.kept {r : Statement} (h : Effect s d d') (hr : Present r d) : Present r d' := by
  cases r with
  | checkVersion => trivial
  | createTable name columns =>
    obtain ⟨t,ht⟩ := hr
    obtain ⟨t',ht',_⟩ := h.tables name t ht
    exact ⟨t',ht'⟩
  | createIndex name index =>
    obtain ⟨old,hold⟩ := hr
    exact h.indexes name old hold
  | addColumn table column value =>
    obtain ⟨t,ht,hcolumn⟩ := hr
    obtain ⟨t',ht',hcolumns,_⟩ := h.tables table t ht
    exact ⟨t',ht',hcolumns column hcolumn⟩
  | ensureBaseline allowCreate =>
    obtain ⟨t,ht,row,hrow,hp⟩ := hr
    obtain ⟨t',ht',_,hrows⟩ := h.tables "events" t ht
    exact ⟨t',ht',hrows row hrow hp⟩
  | setVersion => exact h.version hr

theorem additive (P : Payloads) : Additive (exec P) Present where
  idle hpresent h := (exec_effect h).idle hpresent
  made h := (exec_effect h).made
  kept h hr := (exec_effect h).kept hr

theorem flat_steps (version : ℤ) : flat (steps version) = true := rfl

/-- A call that raises leaves the database as it was exactly if it raises before the first statement
that adds something. -/
theorem initialize_unchanged_iff (P : Payloads) (fails : Step Statement → Option Error) (d : Database) {e : Error}
    {d' : Database} (h : initializeStore P fails d = (some e,d')) :
    d' = d ↔ ∀ before step after, steps d.userVersion = before ++ step :: after → ¬ step.Done Present d →
      ∃ r ∈ before ++ [step], (engine P fails).Raises r d := by
  obtain ⟨herror,hdisk⟩ := Prod.mk.inj h
  have hrun : (engine P fails).run (steps d.userVersion) ⟨d,none⟩ =
      (some e,((engine P fails).run (steps d.userVersion) ⟨d,none⟩).2) := Prod.ext herror rfl
  rw [← hdisk]
  exact (additive P).unchanged_iff (flat_steps _) hrun

namespace Sample

def payloads : Payloads := ⟨fun _ => .ok (some "baseline"),fun _ => .ok "\x7b\x7d","2026-01-01T00:00:00Z"⟩

def bare (version : ℤ) : Database := ⟨version,∅,∅⟩

/-- The database that opening an empty one leaves. -/
def created : Database := (initializeStore payloads (fun _ => none) (bare 0)).2

/-- The first projection event reads as a delta. -/
def deltaPayloads : Payloads := { payloads with mode := fun _ => .ok (some "delta") }

theorem reopened : initializeStore deltaPayloads (fun _ => none) created =
    (some (.state "state projection baseline is missing before deltas"),created) := by
  decide +kernel

end Sample

/-- A complete database whose baseline is lost is refused and stays as it is. -/
theorem initialize_unchanged_reopened : Sample.created.tables.size = 11 ∧
    initializeStore Sample.deltaPayloads (fun _ => none) Sample.created =
        (some (.state "state projection baseline is missing before deltas"),Sample.created) ∧
      ∀ before step after, steps Sample.created.userVersion = before ++ step :: after →
        ¬ step.Done Present Sample.created →
        ∃ r ∈ before ++ [step], (engine Sample.deltaPayloads fun _ => none).Raises r Sample.created :=
  ⟨by decide +kernel,Sample.reopened,
    (initialize_unchanged_iff Sample.deltaPayloads (fun _ => none) Sample.created Sample.reopened).mp rfl⟩

/-- Without a projection baseline the call raises, but the tables it created stay. -/
theorem initialize_leaves_tables : ∃ d',
    initializeStore Sample.payloads (fun _ => none) (Sample.bare 5) =
        (some (.state "state projection baseline is missing from schema version 4"),d') ∧
      d' ≠ Sample.bare 5 := by
  refine ⟨_,Prod.ext ?_ rfl,fun h => ?_⟩
  · decide +kernel
  · have htables := congrArg (fun d : Database => d.tables.contains "runs") h
    revert htables
    decide +kernel

end Migration

end Bureau
