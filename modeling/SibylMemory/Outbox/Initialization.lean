import SibylMemory.Library.PyValue
import SibylMemory.Library.Runs

/-!
# Opening one database file from several processes (`outbox.py:304-446`)

`DurableOutbox._initialize` reads `user_version` in one statement and creates or migrates the tables
in a later transaction. The steps of a constructor are the statements it executes on the file, with
`executescript` as one step.
-/

namespace SibylMemory.Outbox

def SCHEMA_VERSION : Int := 2

/-! ### The file -/

/-- The values of a row in the order of the columns. -/
abbrev Row := List PyValue

structure Table where
  name : String
  definitions : List String
  rows : List Row

structure Index where
  name : String
  table : String
  terms : String

structure DatabaseFile where
  userVersion : Int
  tables : List Table
  indexes : List Index

inductive SqlStatement where
  | createTable (name : String) (definitions : List String)
  | createIndex (name table terms : String)
  | setUserVersion (version : Int)

/-- `sqlite3.OperationalError`, `OutboxError`, or the `FileNotFoundError` of `os.chmod`. -/
inductive InitError where
  | operational (message : String)
  | outbox (message : String)
  | fileNotFound (suffix : String)
  deriving DecidableEq

namespace DatabaseFile

def tableNames (db : DatabaseFile) : List String := db.tables.map Table.name
def indexNames (db : DatabaseFile) : List String := db.indexes.map Index.name

/-- The rows of a table; none when there is no such table. -/
def rows (db : DatabaseFile) (name : String) : List Row :=
  match db.tables.find? fun t => decide (t.name = name) with
  | some t => t.rows
  | none => []

/-- Tables and indexes share one name space, and no statement here has an `IF NOT EXISTS`. -/
def execute (db : DatabaseFile) : SqlStatement → Except InitError DatabaseFile
  | .createTable name definitions =>
    if name ∈ db.tableNames then .error (.operational ("table " ++ name ++ " already exists"))
    else if name ∈ db.indexNames then
      .error (.operational ("there is already an index named " ++ name))
    else .ok { db with tables := db.tables ++ [⟨name, definitions, []⟩] }
  | .createIndex name table terms =>
    if name ∈ db.tableNames then
      .error (.operational ("there is already a table named " ++ name))
    else if name ∈ db.indexNames then
      .error (.operational ("index " ++ name ++ " already exists"))
    else if table ∉ db.tableNames then .error (.operational ("no such table: main." ++ table))
    else .ok { db with indexes := db.indexes ++ [⟨name, table, terms⟩] }
  | .setUserVersion version => .ok { db with userVersion := version }

/-- `BEGIN IMMEDIATE; …; COMMIT;`: a statement that fails leaves the transaction to be rolled back
by `connection.close()`. -/
def executescript (db : DatabaseFile) (script : List SqlStatement) : Except InitError DatabaseFile :=
  script.foldlM execute db

end DatabaseFile

/-! ### The scripts -/

/-- The statements on `session_state` and `session_turns`, with which both scripts end. -/
def sessionIndex : List SqlStatement :=
  [.createTable "session_state"
    ["session_id TEXT PRIMARY KEY",
     "parent_session_id TEXT NOT NULL DEFAULT ''",
     "next_sequence INTEGER NOT NULL DEFAULT 1",
     "reconcile_required INTEGER NOT NULL DEFAULT 1",
     "updated_at TEXT NOT NULL",
     "CHECK (next_sequence >= 1)",
     "CHECK (reconcile_required IN (0, 1))"],
   .createTable "session_turns"
    ["session_id TEXT NOT NULL",
     "local_sequence INTEGER NOT NULL",
     "operation_id TEXT NOT NULL UNIQUE",
     "source_id TEXT NOT NULL UNIQUE",
     "turn_hash TEXT NOT NULL",
     "revision INTEGER",
     "PRIMARY KEY (session_id, local_sequence)",
     "FOREIGN KEY (session_id) REFERENCES session_state(session_id)",
     "CHECK (local_sequence >= 1)",
     "CHECK (revision IS NULL OR revision >= 1)"],
   .createIndex "session_turns_hash" "session_turns" "session_id, turn_hash",
   .setUserVersion SCHEMA_VERSION]

def createSchema : List SqlStatement :=
  [.createTable "operations"
    ["operation_id TEXT PRIMARY KEY",
     "depends_on_operation_id TEXT",
     "kind TEXT NOT NULL",
     "endpoint TEXT NOT NULL",
     "request_json TEXT NOT NULL",
     "request_hash TEXT NOT NULL",
     "idempotency_key TEXT NOT NULL",
     "http_method TEXT NOT NULL",
     "state TEXT NOT NULL",
     "created_at TEXT NOT NULL",
     "updated_at TEXT NOT NULL",
     "attempts INTEGER NOT NULL DEFAULT 0",
     "last_status INTEGER",
     "last_error TEXT",
     "claim_token TEXT",
     "claimed_by TEXT",
     "lease_expires_at TEXT",
     "CHECK (attempts >= 0)",
     "CHECK (state IN ('pending', 'pending_recovery', 'blocked_auth', 'dead_letter', " ++
       "'reconcile_revision'))"],
   .createIndex "operations_replay_order" "operations" "state, created_at, operation_id",
   .createIndex "operations_dependency" "operations" "depends_on_operation_id",
   .createIndex "operations_lease" "operations" "lease_expires_at WHERE claim_token IS NOT NULL",
   .createTable "operation_history"
    ["operation_id TEXT PRIMARY KEY",
     "outcome TEXT NOT NULL",
     "kind TEXT NOT NULL",
     "endpoint TEXT NOT NULL",
     "idempotency_key TEXT NOT NULL",
     "request_hash TEXT NOT NULL",
     "http_method TEXT NOT NULL",
     "depends_on_operation_id TEXT",
     "attempts INTEGER NOT NULL",
     "completed_at TEXT NOT NULL",
     "replacement_operation_id TEXT",
     "last_status INTEGER",
     "last_error TEXT",
     "CHECK (outcome IN ('succeeded', 'replayed', 'obsolete', 'superseded'))"],
   .createIndex "operation_history_outcome" "operation_history" "outcome, completed_at"] ++
  sessionIndex

def migrateSessionIndex : List SqlStatement := sessionIndex

/-- What `_initialize` does with the version it has read. -/
def DatabaseFile.upgrade (db : DatabaseFile) (currentVersion : Int) : Except InitError DatabaseFile :=
  if SCHEMA_VERSION < currentVersion then
    .error (.outbox ("outbox schema " ++ toString currentVersion ++ " is newer than supported "
      ++ toString SCHEMA_VERSION))
  else if currentVersion = 0 then db.executescript createSchema
  else if currentVersion = 1 then db.executescript migrateSessionIndex
  else if currentVersion ≠ SCHEMA_VERSION then
    .error (.outbox ("no migration from outbox schema " ++ toString currentVersion))
  else .ok db

/-! ### Constructors -/

/-- The statement a constructor executes next: `PRAGMA journal_mode = WAL`, `PRAGMA user_version`,
the script for the version it read, `connection.close()` with the exception that is under way, and
`path.exists()` and `os.chmod` for each file of `_secure_files`. -/
inductive InitPoint where
  | connecting
  | opened
  | upgrading (currentVersion : Int)
  | closing (error : Option InitError)
  | checking (suffix : String) (suffixes : List String)
  | chmodding (suffix : String) (suffixes : List String)
  | returned
  | raised (error : InitError)
  deriving DecidableEq

def InitPoint.connected : InitPoint → Bool
  | .opened => true
  | .upgrading _ => true
  | .closing _ => true
  | _ => false

def InitPoint.finished : InitPoint → Bool
  | .returned => true
  | .raised _ => true
  | _ => false

/-- The loop of `_secure_files`. -/
def secureFiles : List String → InitPoint
  | [] => .returned
  | suffix :: suffixes => .checking suffix suffixes

/-- `sideFiles` says whether `-wal` and `-shm` exist: SQLite keeps them while a connection to the
file is open, and the last one to close takes them away. -/
structure InitState where
  db : DatabaseFile
  sideFiles : Bool
  points : List InitPoint

namespace InitState

def start (db : DatabaseFile) (sideFiles : Bool) (constructors : Nat) : InitState where
  db
  sideFiles
  points := List.replicate constructors .connecting

def pathExists (s : InitState) (suffix : String) : Bool := decide (suffix = "") || s.sideFiles

def setPoint (s : InitState) (i : Nat) (point : InitPoint) : InitState :=
  { s with points := s.points.set i point }

def close (s : InitState) (i : Nat) (point : InitPoint) : InitState :=
  { s.setPoint i point with sideFiles := (s.setPoint i point).points.any InitPoint.connected }

end InitState

/-- The next statement of a constructor; `none` when it has returned or raised. -/
def initStep (s : InitState) (i : Nat) : Option InitState :=
  match s.points[i]? with
  | some .connecting => some ({ s with sideFiles := true }.setPoint i .opened)
  | some .opened => some (s.setPoint i (.upgrading s.db.userVersion))
  | some (.upgrading currentVersion) =>
    match s.db.upgrade currentVersion with
    | .ok db => some ({ s with db }.setPoint i (.closing none))
    | .error e => some (s.setPoint i (.closing (some e)))
  | some (.closing none) => some (s.close i (secureFiles ["", "-wal", "-shm"]))
  | some (.closing (some e)) => some (s.close i (.raised e))
  | some (.checking suffix suffixes) =>
    some (s.setPoint i
      (if s.pathExists suffix then .chmodding suffix suffixes else secureFiles suffixes))
  | some (.chmodding suffix suffixes) =>
    some (s.setPoint i
      (if s.pathExists suffix then secureFiles suffixes else .raised (.fileNotFound suffix)))
  | _ => none

/-- A schedule names the constructor that takes each step. -/
def initRun (s : InitState) (schedule : List Nat) : Option InitState :=
  schedule.foldlM initStep s

/-! ### What a script does to a file -/

def DatabaseFile.Fresh (db : DatabaseFile) : Prop := db = ⟨0, [], []⟩

/-- A file at schema version 1, which has no session index. -/
structure DatabaseFile.VersionOne (db : DatabaseFile) : Prop where
  version : db.userVersion = 1
  tables : ∀ name ∈ ["session_state", "session_turns", "session_turns_hash"], name ∉ db.tableNames
  indexes : ∀ name ∈ ["session_state", "session_turns", "session_turns_hash"], name ∉ db.indexNames

/-- What holds of a file that a constructor takes to the version it supports. -/
structure Upgrades (db db' : DatabaseFile) : Prop where
  old : db.userVersion ≠ SCHEMA_VERSION
  upgrade : db.upgrade db.userVersion = .ok db'
  version : db'.userVersion = SCHEMA_VERSION
  again : ∃ e, db'.upgrade db.userVersion = .error e
  rows : ∀ name, db'.rows name = db.rows name

section Scripts
variable {db db' : DatabaseFile} {statement : SqlStatement} {script : List SqlStatement}

theorem execute_cases (h : db.execute statement = .ok db') :
    (∃ table definitions, statement = .createTable table definitions ∧
      db' = { db with tables := db.tables ++ [⟨table, definitions, []⟩] }) ∨
    (∃ index table terms, statement = .createIndex index table terms ∧
      db' = { db with indexes := db.indexes ++ [⟨index, table, terms⟩] }) ∨
    ∃ version, statement = .setUserVersion version ∧ db' = { db with userVersion := version } := by
  cases statement with
  | createTable table definitions =>
    simp only [DatabaseFile.execute] at h
    split at h
    · cases h
    split at h
    · cases h
    cases h
    exact .inl ⟨table, definitions, rfl, rfl⟩
  | createIndex index table terms =>
    simp only [DatabaseFile.execute] at h
    split at h
    · cases h
    split at h
    · cases h
    split at h
    · cases h
    cases h
    exact .inr (.inl ⟨index, table, terms, rfl, rfl⟩)
  | setUserVersion version =>
    cases h
    exact .inr (.inr ⟨version, rfl, rfl⟩)

theorem execute_rows (h : db.execute statement = .ok db') (name : String) :
    db'.rows name = db.rows name := by
  obtain ⟨table, definitions, -, rfl⟩ | ⟨index, table, terms, -, rfl⟩ | ⟨version, -, rfl⟩ :=
    execute_cases h
  · simp only [DatabaseFile.rows, List.find?_append]
    cases hfind : db.tables.find? fun t => decide (t.name = name) with
    | some t => rfl
    | none =>
      -- the new table is the only one of its name, and empty
      rw [Option.none_or, List.find?_singleton]
      by_cases hname : table = name <;> simp [hname]
  · rfl
  · rfl

theorem execute_tableNames (h : db.execute statement = .ok db') {name : String}
    (hname : name ∈ db.tableNames) : name ∈ db'.tableNames := by
  obtain ⟨table, definitions, -, rfl⟩ | ⟨index, table, terms, -, rfl⟩ | ⟨version, -, rfl⟩ :=
    execute_cases h
  · rw [DatabaseFile.tableNames, List.map_append]
    exact List.mem_append_left _ hname
  · exact hname
  · exact hname

theorem execute_creates {name : String} {definitions : List String}
    (h : db.execute (.createTable name definitions) = .ok db') : name ∈ db'.tableNames := by
  obtain ⟨table, definitions', heq, rfl⟩ | ⟨index, table, terms, heq, -⟩ | ⟨version, heq, -⟩ :=
    execute_cases h
  · cases heq
    simp [DatabaseFile.tableNames]
  · cases heq
  · cases heq

theorem executescript_cons (h : db.executescript (statement :: script) = .ok db') :
    ∃ db₁, db.execute statement = .ok db₁ ∧ db₁.executescript script = .ok db' := by
  rw [DatabaseFile.executescript, List.foldlM_cons] at h
  cases hexec : db.execute statement with
  | error e =>
    rw [hexec] at h
    cases h
  | ok db₁ =>
    rw [hexec] at h
    exact ⟨db₁, rfl, h⟩

theorem executescript_rows (h : db.executescript script = .ok db') (name : String) :
    db'.rows name = db.rows name := by
  induction script generalizing db with
  | nil =>
    cases h
    rfl
  | cons statement script ih =>
    obtain ⟨db₁, hexec, hrest⟩ := executescript_cons h
    rw [ih hrest, execute_rows hexec]

theorem upgrade_rows {currentVersion : Int} (h : db.upgrade currentVersion = .ok db') (name : String) :
    db'.rows name = db.rows name := by
  unfold DatabaseFile.upgrade at h
  split_ifs at h
  · exact executescript_rows h name
  · exact executescript_rows h name
  · cases h
    rfl

theorem executescript_tableNames (h : db.executescript script = .ok db') {name : String}
    (hname : name ∈ db.tableNames) : name ∈ db'.tableNames := by
  induction script generalizing db with
  | nil =>
    cases h
    exact hname
  | cons statement script ih =>
    obtain ⟨db₁, hexec, hrest⟩ := executescript_cons h
    exact ih hrest (execute_tableNames hexec hname)

theorem executescript_twice {name : String} {definitions : List String}
    (h : db.executescript (.createTable name definitions :: script) = .ok db') :
    db'.executescript (.createTable name definitions :: script) =
      .error (.operational ("table " ++ name ++ " already exists")) := by
  obtain ⟨db₁, hexec, hrest⟩ := executescript_cons h
  have hname := executescript_tableNames hrest (execute_creates hexec)
  rw [DatabaseFile.executescript, List.foldlM_cons, DatabaseFile.execute, if_pos hname]
  rfl

theorem fresh_upgrades (h : db.Fresh) : ∃ db', Upgrades db db' := by
  cases h
  have hok : DatabaseFile.executescript ⟨0, [], []⟩ createSchema = .ok _ := rfl
  exact ⟨_, nofun, hok, rfl, ⟨_, executescript_twice hok⟩, executescript_rows hok⟩

theorem versionOne_upgrades (h : db.VersionOne) : ∃ db', Upgrades db db' := by
  have hold : db.userVersion ≠ SCHEMA_VERSION := by
    rw [h.version]
    decide
  have hupgrade : ∀ file : DatabaseFile, file.upgrade db.userVersion =
      file.executescript migrateSessionIndex := by
    intro file
    rw [h.version]
    rfl
  have hok : ∃ db', db.executescript migrateSessionIndex = .ok db' ∧
      db'.userVersion = SCHEMA_VERSION := by
    have htables := h.tables
    have hindexes := h.indexes
    simp only [DatabaseFile.tableNames, DatabaseFile.indexNames] at htables hindexes
    simp [DatabaseFile.executescript, migrateSessionIndex, sessionIndex, DatabaseFile.execute,
      DatabaseFile.tableNames, DatabaseFile.indexNames, htables, hindexes, bind, Except.bind, pure,
      Except.pure]
  obtain ⟨db', hok, hversion⟩ := hok
  exact ⟨db', hold, (hupgrade db).trans hok, hversion,
    ⟨_, (hupgrade db').trans (executescript_twice hok)⟩, executescript_rows hok⟩

end Scripts

/-! ### The invariant -/

def InitPoint.failed : InitPoint → Bool
  | .closing (some _) => true
  | .raised _ => true
  | _ => false

/-- A bound on the statements left. -/
def InitPoint.remaining : InitPoint → Nat
  | .connecting => 10
  | .opened => 9
  | .upgrading _ => 8
  | .closing _ => 7
  | .checking _ suffixes => 2 * suffixes.length + 2
  | .chmodding _ suffixes => 2 * suffixes.length + 1
  | .returned => 0
  | .raised _ => 0

/-- The next statement of a constructor finds what the one before it found: the transaction of the
script the version that was read, `os.chmod` the file that was there. -/
def InitState.Undisturbed (s : InitState) (i : Nat) : Prop :=
  match s.points[i]? with
  | some (.upgrading currentVersion) => currentVersion = s.db.userVersion
  | some (.chmodding suffix _) => s.pathExists suffix = true
  | _ => True

/-- What a constructor knows of the file: up to its script it may have read either version, and
behind it the file is upgraded. -/
def InitPoint.Knows (db db' current : DatabaseFile) : InitPoint → Prop
  | .connecting => True
  | .opened => True
  | .upgrading version => version = db.userVersion ∨ version = SCHEMA_VERSION ∧ current = db'
  | _ => current = db'

structure InitInv (db db' : DatabaseFile) (s : InitState) : Prop where
  file : s.db = db ∨ s.db = db'
  knows : ∀ p ∈ s.points, p.Knows db db' s.db

theorem secureFiles_failed (suffixes : List String) : (secureFiles suffixes).failed = false := by
  cases suffixes <;> rfl

theorem secureFiles_remaining (suffixes : List String) :
    (secureFiles suffixes).remaining ≤ 2 * suffixes.length := by
  cases suffixes with
  | nil => simp [secureFiles, InitPoint.remaining]
  | cons suffix suffixes =>
    simp only [secureFiles, InitPoint.remaining, List.length_cons]
    omega

theorem secureFiles_knows {db db' current : DatabaseFile} (suffixes : List String)
    (h : current = db') : (secureFiles suffixes).Knows db db' current := by
  cases suffixes with
  | nil => exact h
  | cons suffix suffixes => exact h

theorem returned_of_finished {p : InitPoint} (hfinished : p.finished = true)
    (hfailed : p.failed = false) : p = .returned := by
  cases p with
  | returned => rfl
  | raised e => cases hfailed
  | _ => cases hfinished

theorem InitPoint.Knows.upgraded {db db' current : DatabaseFile} {p : InitPoint}
    (h : p.Knows db db' current) : p.Knows db db' db' := by
  cases p with
  | connecting => trivial
  | opened => trivial
  | upgrading version => exact h.imp_right fun hv => ⟨hv.1, rfl⟩
  | closing error => rfl
  | checking suffix suffixes => rfl
  | chmodding suffix suffixes => rfl
  | returned => rfl
  | raised e => rfl

section Steps
variable {db db' : DatabaseFile} {s s' : InitState} {i : Nat}

theorem start_inv (db db' : DatabaseFile) (sideFiles : Bool) (n : Nat) :
    InitInv db db' (InitState.start db sideFiles n) where
  file := .inl rfl
  knows := by
    intro p hp
    rw [List.eq_of_mem_replicate hp]
    trivial

/-- The script of a constructor, in its own words: it commits if the version it read is still that
of the file, and otherwise it finds its first table there and changes nothing. -/
theorem upgrade_cases (hu : Upgrades db db') (hinv : InitInv db db' s) {version : Int}
    (hp : s.points[i]? = some (.upgrading version)) :
    (version = s.db.userVersion ∧ s.db.upgrade version = .ok db') ∨
    (version ≠ s.db.userVersion ∧ s.db = db' ∧ ∃ e, s.db.upgrade version = .error e) := by
  have hknows := hinv.knows _ (List.mem_of_getElem? hp)
  have hsettled : db'.upgrade SCHEMA_VERSION = .ok db' := rfl
  rcases hinv.file with hfile | hfile
  · left
    rcases hknows with rfl | ⟨-, hup⟩
    · rw [hfile]
      exact ⟨rfl, hu.upgrade⟩
    · refine absurd ?_ hu.old
      rw [← hfile, hup, hu.version]
  · rcases hknows with rfl | ⟨rfl, -⟩
    · right
      rw [hfile, hu.version]
      exact ⟨hu.old, rfl, hu.again⟩
    · left
      rw [hfile, hu.version]
      exact ⟨rfl, hsettled⟩

theorem initStep_effect (hu : Upgrades db db') (hinv : InitInv db db' s)
    (hstep : initStep s i = some s') :
    ∃ p q, s.points[i]? = some p ∧ s'.points = s.points.set i q ∧ q.remaining < p.remaining ∧
      (s'.db = s.db ∨ s'.db = db') ∧ q.Knows db db' s'.db ∧
      (q.failed = true ↔ p.failed = true ∨ ¬ s.Undisturbed i) := by
  unfold initStep at hstep
  unfold InitState.Undisturbed
  cases hp : s.points[i]? with
  | none =>
    rw [hp] at hstep
    cases hstep
  | some p =>
    rw [hp] at hstep
    have hknows := hinv.knows p (List.mem_of_getElem? hp)
    cases p with
    | connecting =>
      cases hstep
      exact ⟨_, .opened, rfl, rfl, by simp [InitPoint.remaining], .inl rfl, trivial,
        by simp [InitPoint.failed]⟩
    | opened =>
      cases hstep
      refine ⟨_, .upgrading s.db.userVersion, rfl, rfl, by simp [InitPoint.remaining], .inl rfl, ?_,
        by simp [InitPoint.failed]⟩
      rcases hinv.file with hfile | hfile
      · left
        exact congrArg DatabaseFile.userVersion hfile
      · right
        exact ⟨(congrArg DatabaseFile.userVersion hfile).trans hu.version, hfile⟩
    | upgrading version =>
      rcases upgrade_cases hu hinv hp with ⟨hv, hok⟩ | ⟨hv, hfile, e, herror⟩
      · simp only [hok] at hstep
        cases hstep
        exact ⟨_, .closing none, rfl, rfl, by simp [InitPoint.remaining], .inr rfl, rfl,
          by simp [InitPoint.failed, hv]⟩
      · simp only [herror] at hstep
        cases hstep
        exact ⟨_, .closing (some e), rfl, rfl, by simp [InitPoint.remaining], .inl rfl, hfile,
          by simp [InitPoint.failed, hv]⟩
    | closing error =>
      cases error with
      | none =>
        cases hstep
        exact ⟨_, _, rfl, rfl, by decide, .inl rfl, hknows, by simp [InitPoint.failed, secureFiles]⟩
      | some e =>
        cases hstep
        exact ⟨_, .raised e, rfl, rfl, by simp [InitPoint.remaining], .inl rfl, hknows,
          by simp [InitPoint.failed]⟩
    | checking suffix suffixes =>
      cases hstep
      refine ⟨_, _, rfl, rfl, ?_, .inl rfl, ?_, ?_⟩
      · have hle := secureFiles_remaining suffixes
        split
        · simp [InitPoint.remaining]
        · show (secureFiles suffixes).remaining < 2 * suffixes.length + 2
          omega
      · split
        · exact hknows
        · exact secureFiles_knows suffixes hknows
      · split
        · simp [InitPoint.failed]
        · rw [secureFiles_failed]
          simp [InitPoint.failed]
    | chmodding suffix suffixes =>
      cases hstep
      refine ⟨_, _, rfl, rfl, ?_, .inl rfl, ?_, ?_⟩
      · have hle := secureFiles_remaining suffixes
        split
        · show (secureFiles suffixes).remaining < 2 * suffixes.length + 1
          omega
        · simp [InitPoint.remaining]
      · split
        · exact secureFiles_knows suffixes hknows
        · exact hknows
      · split
        · rename_i hexists
          rw [secureFiles_failed]
          simp [InitPoint.failed, hexists]
        · rename_i hexists
          simp [InitPoint.failed, hexists]
    | returned => cases hstep
    | raised e => cases hstep

theorem initStep_inv (hu : Upgrades db db') (hinv : InitInv db db' s)
    (hstep : initStep s i = some s') : InitInv db db' s' := by
  obtain ⟨p, q, -, hpoints, -, hdb, hq, -⟩ := initStep_effect hu hinv hstep
  constructor
  · rcases hdb with hdb | hdb
    · rw [hdb]
      exact hinv.file
    · exact .inr hdb
  · intro r hr
    rw [hpoints] at hr
    rcases List.mem_or_eq_of_mem_set hr with hr | rfl
    · have hknows := hinv.knows r hr
      rcases hdb with hdb | hdb
      · rw [hdb]
        exact hknows
      · rw [hdb]
        exact hknows.upgraded
    · exact hq

theorem initStep_enabled {p : InitPoint} (hp : s.points[i]? = some p) (hfinished : p.finished = false) :
    (initStep s i).isSome = true := by
  unfold initStep
  rw [hp]
  cases p with
  | connecting => rfl
  | opened => rfl
  | upgrading version =>
    cases hup : s.db.upgrade version with
    | ok db => simp [hup]
    | error e => simp [hup]
  | closing error => cases error <;> rfl
  | checking suffix suffixes => rfl
  | chmodding suffix suffixes => rfl
  | returned => cases hfinished
  | raised e => cases hfinished

/-! ### Runs -/

def InitState.remaining (s : InitState) : Nat :=
  s.points.foldr (fun p total => p.remaining + total) 0

theorem start_remaining (db : DatabaseFile) (sideFiles : Bool) (n : Nat) :
    (InitState.start db sideFiles n).remaining = 10 * n := by
  induction n with
  | zero => rfl
  | succ n ih =>
    have hcons : (InitState.start db sideFiles (n + 1)).remaining =
        10 + (InitState.start db sideFiles n).remaining := rfl
    omega

theorem remaining_set {points : List InitPoint} {p q : InitPoint} (hp : points[i]? = some p)
    (hlt : q.remaining < p.remaining) :
    (points.set i q).foldr (fun p total => p.remaining + total) 0 <
      points.foldr (fun p total => p.remaining + total) 0 := by
  induction points generalizing i with
  | nil => cases hp
  | cons head tail ih =>
    cases i with
    | zero =>
      cases hp
      simp only [List.set_cons_zero, List.foldr_cons]
      omega
    | succ i =>
      have hrest := ih hp
      simp only [List.set_cons_succ, List.foldr_cons]
      omega

theorem failed_set {points : List InitPoint} {p q : InitPoint} (hp : points[i]? = some p)
    (hstays : p.failed = true → q.failed = true) :
    (∀ r ∈ points.set i q, r.failed = false) ↔
      (∀ r ∈ points, r.failed = false) ∧ q.failed = false := by
  constructor
  · intro h
    have hi : i < points.length := (List.getElem?_eq_some_iff.mp hp).1
    have hq : q.failed = false := h q (List.mem_set hi q)
    refine ⟨fun r hr => ?_, hq⟩
    obtain ⟨j, hj⟩ := List.mem_iff_getElem?.mp hr
    by_cases hij : i = j
    · subst hij
      rw [hp] at hj
      cases hj
      -- a failure stays one
      cases hr : p.failed with
      | false => rfl
      | true =>
        rw [hstays hr] at hq
        cases hq
    · refine h r (List.mem_of_getElem? (i := j) ?_)
      rw [List.getElem?_set_ne hij]
      exact hj
  · rintro ⟨hold, hq⟩ r hr
    rcases List.mem_or_eq_of_mem_set hr with hr | rfl
    · exact hold r hr
    · exact hq

/-- Every step of a schedule is undisturbed. -/
def UndisturbedRun (s : InitState) (schedule : List Nat) : Prop :=
  ∀ before i after, schedule = before ++ i :: after →
    ∀ s₀, initRun s before = some s₀ → s₀.Undisturbed i

theorem undisturbed_snoc {s₀ : InitState} {schedule : List Nat} (h : initRun s schedule = some s₀) :
    UndisturbedRun s (schedule ++ [i]) ↔ UndisturbedRun s schedule ∧ s₀.Undisturbed i := by
  constructor
  · intro hrun
    refine ⟨fun before j after hsplit => ?_, hrun schedule i [] rfl s₀ h⟩
    refine hrun before j (after ++ [i]) ?_
    rw [hsplit, List.append_assoc, List.cons_append]
  · rintro ⟨hrun, hlast⟩ before j after hsplit
    rcases Run.cut_snoc hsplit with ⟨rfl, rfl, rfl⟩ | ⟨after, rfl, rfl⟩
    · intro s₁ hs₁
      rw [h] at hs₁
      cases hs₁
      exact hlast
    · exact hrun before j after rfl

theorem initRun_spec {n : Nat} {sideFiles : Bool} {schedule : List Nat} (hu : Upgrades db db')
    (h : initRun (InitState.start db sideFiles n) schedule = some s) :
    InitInv db db' s ∧ s.points.length = n ∧ s.remaining + schedule.length ≤ 10 * n ∧
    ((∀ p ∈ s.points, p.failed = false) ↔
      UndisturbedRun (InitState.start db sideFiles n) schedule) := by
  refine Run.foldlM_invariant (I := fun schedule s => InitInv db db' s ∧ s.points.length = n ∧
    s.remaining + schedule.length ≤ 10 * n ∧ ((∀ p ∈ s.points, p.failed = false) ↔
      UndisturbedRun (InitState.start db sideFiles n) schedule)) ?_ ?_ h
  · refine ⟨start_inv db db' sideFiles n, List.length_replicate, ?_, ?_⟩
    · simp [start_remaining]
    · refine iff_of_true (fun p hp => ?_) (fun before i after hsplit => ?_)
      · rw [List.eq_of_mem_replicate hp]
        rfl
      · simp at hsplit
  · rintro schedule s₀ i s hs₀ ⟨hinv, hlength, hbound, hfailed⟩ hstep
    obtain ⟨p, q, hp, hpoints, hlt, -, -, hq⟩ := initStep_effect hu hinv hstep
    refine ⟨initStep_inv hu hinv hstep, ?_, ?_, ?_⟩
    · rw [hpoints, List.length_set]
      exact hlength
    · have hsum := remaining_set hp hlt
      rw [← hpoints] at hsum
      simp only [InitState.remaining, List.length_append, List.length_singleton] at hbound ⊢
      omega
    · rw [undisturbed_snoc hs₀, ← hfailed, hpoints, failed_set hp fun hf => hq.mpr (.inl hf)]
      refine and_congr_right fun hnone => ?_
      have hpf : p.failed = false := hnone p (List.mem_of_getElem? hp)
      rw [← Bool.not_eq_true, hq, hpf]
      simp

/-! ### Results -/

/-- What is expected of constructors that have all finished. -/
structure Initialized (db : DatabaseFile) (s : InitState) : Prop where
  returned : ∀ p ∈ s.points, p = .returned
  version : s.points ≠ [] → s.db.userVersion = SCHEMA_VERSION
  operations : s.db.rows "operations" = db.rows "operations"
  history : s.db.rows "operation_history" = db.rows "operation_history"

/-- Constructors over a file that is fresh or at version 1 always stop, and keep its rows. All of
them return, and leave the current version, exactly when no script runs after another constructor
upgraded the file that it read, and no file goes between its `path.exists()` and its `os.chmod`. -/
theorem concurrent_initialization {n : Nat} {sideFiles : Bool} {schedule : List Nat}
    (hdb : db.Fresh ∨ db.VersionOne)
    (h : initRun (InitState.start db sideFiles n) schedule = some s) :
    schedule.length ≤ 10 * n ∧
    (∀ i < n, (initStep s i).isSome = true ∨ ∃ p, s.points[i]? = some p ∧ p.finished = true) ∧
    (∀ name, s.db.rows name = db.rows name) ∧
    ((∀ p ∈ s.points, p.finished = true) →
      (Initialized db s ↔ UndisturbedRun (InitState.start db sideFiles n) schedule)) := by
  obtain ⟨db', hu⟩ : ∃ db', Upgrades db db' := hdb.elim fresh_upgrades versionOne_upgrades
  obtain ⟨hinv, hlength, hbound, hfailed⟩ := initRun_spec hu h
  have hrows : ∀ name, s.db.rows name = db.rows name := by
    intro name
    rcases hinv.file with hfile | hfile
    · rw [hfile]
    · rw [hfile, hu.rows]
  refine ⟨by omega, fun i hi => ?_, hrows, fun hdone => ?_⟩
  · obtain ⟨p, hp⟩ : ∃ p, s.points[i]? = some p :=
      ⟨_, List.getElem?_eq_getElem (hlength.symm ▸ hi)⟩
    cases hfinished : p.finished with
    | false => exact .inl (initStep_enabled hp hfinished)
    | true => exact .inr ⟨p, hp, hfinished⟩
  · rw [← hfailed]
    constructor
    · intro hinit p hp
      rw [hinit.returned p hp]
      rfl
    · intro hnone
      have hreturned : ∀ p ∈ s.points, p = .returned := fun p hp =>
        returned_of_finished (hdone p hp) (hnone p hp)
      refine ⟨hreturned, fun hne => ?_, hrows _, hrows _⟩
      obtain ⟨p, hp⟩ := List.exists_mem_of_ne_nil _ hne
      have hknows := hinv.knows p hp
      rw [hreturned p hp] at hknows
      rw [show s.db = db' from hknows, hu.version]

end Steps

/-! ### Two constructors over a fresh file -/

def freshFile : DatabaseFile := ⟨0, [], []⟩

/-- The second reads version 0 before the first has committed. -/
def lateScript : List Nat := [0, 0, 1, 1, 0, 1, 0, 0, 0, 0, 0, 0, 0, 1]

theorem late_script_raises :
    (initRun (InitState.start freshFile false 2) lateScript).map (fun s => s.points) =
      some [.returned, .raised (.operational "table operations already exists")] := by
  rfl

-- The second closes the last connection between the first's `path.exists()` and `os.chmod`.
example : (initRun (InitState.start freshFile false 2) [0, 0, 0, 0, 1, 0, 0, 0, 1, 1, 1, 0]).map
    (fun s => s.points) = some [.raised (.fileNotFound "-wal"), .checking "" ["-wal", "-shm"]] := by
  rfl

/-- One after the other. -/
def oneByOne : List Nat := [0, 0, 0, 0, 0, 0, 0, 0, 1, 1, 1, 1, 1, 1, 1, 1]

def oneByOneState : InitState := (initRun (InitState.start freshFile false 2) oneByOne).get rfl

theorem oneByOne_run : initRun (InitState.start freshFile false 2) oneByOne = some oneByOneState :=
  (Option.some_get _).symm

theorem oneByOne_points : oneByOneState.points = [.returned, .returned] := rfl

theorem concurrent_initialization_fresh :
    oneByOneState.points = [.returned, .returned] ∧ oneByOneState.db.userVersion = SCHEMA_VERSION ∧
    UndisturbedRun (InitState.start freshFile false 2) oneByOne := by
  have hreturned : ∀ p ∈ oneByOneState.points, p = .returned := by
    rw [oneByOne_points]
    simp
  obtain ⟨-, -, hrows, hiff⟩ := concurrent_initialization (.inl rfl) oneByOne_run
  refine ⟨rfl, rfl, (hiff fun p hp => ?_).mp ⟨hreturned, fun _ => rfl, hrows _, hrows _⟩⟩
  rw [hreturned p hp]
  rfl

end SibylMemory.Outbox
