import FerrumGate.Adapters.Cycle
import FerrumGate.Proto.Text
import FerrumGate.Sqlite.Engine

/-!
# The SQLite adapter

`ferrum-adapter-sqlite/src/lib.rs`: `execute` runs one statement, within a savepoint unless it
changes the schema, and records what `rollback` will need. `rollback` runs the statements of the
compensation plan one by one on a connection of its own.

`prepare` looks at nothing but the path, and is left out; whether the path is allowed and the
database can be opened is up to the environment. The texts of errors that the engine finds are its
own.
-/

namespace FerrumGate.SqliteAdapter

open Interleave Sqlite

variable {V : Type}

structure SqliteConfig (V : Type) where
  dialect : Dialect V
  /-- `str::to_uppercase`. -/
  uppercase : String → String
  /-- `format!("{:?}", target)`. -/
  debugTarget : RollbackTarget → String

/-- What the environment decides in a phase. -/
structure SqliteEnv where
  /-- `canonical_db_path_string`. -/
  access : Except AdapterError Unit := .ok ()
  /-- The error when the database cannot be opened. -/
  openError : Option String := none
  /-- The error when the schema cannot be read. -/
  captureError : Option String := none
  /-- What keeps a statement from running. -/
  fault : Nat → Option String := fun _ => none
  /-- `SAVEPOINT_COUNTER`. -/
  counter : Nat := 0

inductive SqlType where
  | dml | ddl
  deriving DecidableEq

/-- `format!("{:?}", sql_type)`. -/
def SqlType.debug : SqlType → String
  | .dml => "Dml"
  | .ddl => "Ddl"

variable (config : SqliteConfig V) (env : SqliteEnv)

/-- `extract_db_path`. -/
def extractDbPath (target : RollbackTarget) : Except AdapterError String :=
  match target with
  | .sqliteTxn dbPath _ => .ok dbPath
  | _ => .error (.validation
      ("invalid target: expected SqliteTxn, got " ++ config.debugTarget target))

/-- `classify_sql`. -/
def classifySql (sql : String) : SqlType :=
  let trimmed := config.uppercase (trim sql)
  if ["CREATE", "ALTER", "DROP", "TRUNCATE"].any (startsWith trimmed) then .ddl else .dml

/-! ## The reversal -/

/-- `split_whitespace`. -/
def splitWhitespace (text : String) : List String :=
  ((text.toList.splitOnP isWhitespace).filter (· ≠ [])).map String.ofList

/-- `eq_ignore_ascii_case`. -/
def eqIgnoreAsciiCase (a b : String) : Bool :=
  a.toList.map Char.toLower = b.toList.map Char.toLower

/-- `trim_end_matches(['(', ',', ';'])`. -/
def trimPunctuation (text : String) : String :=
  String.ofList (text.toList.reverse.dropWhile fun c => c = '(' || c = ',' || c = ';').reverse

/-- The word after the first `INTO` of an `INSERT`. -/
def tableWord (sql : String) : Option String :=
  let trimmed := trim sql
  if startsWith (config.uppercase trimmed) "INSERT" then
    match (splitWhitespace trimmed).dropWhile fun token => !eqIgnoreAsciiCase token "INTO" with
    | _ :: token :: _ =>
      let name := trimPunctuation token
      if name = "" then none else some name
    | _ => none
  else none

/-- The text of a reversal. -/
def deletion (word : String) (lastRowid : Int) : String :=
  "DELETE FROM " ++ word ++ " WHERE rowid = " ++ toString lastRowid

/-- `generate_reversal_sql`, given the last rowid. -/
def generateReversalSql (lastRowid : Int) (sql : String) : Option String :=
  (tableWord config sql).map fun word => deletion word lastRowid

/-- The definitions of the tables, by name. -/
def schemas (db : Database V) : String :=
  ";\n".intercalate (db.tables.map fun entry => entry.2.sql)

/-- `capture_all_schemas`. -/
def captureAllSchemas (wrap : String → AdapterError) (db : Database V) :
    Except AdapterError String :=
  match env.captureError with
  | some e => .error (wrap ("sqlite error: " ++ e))
  | none => .ok (schemas db)

/-! ## Statements -/

/-- What a call on the connection has led to. -/
def outcome (wrap : String → AdapterError) :
    Except String Unit × Conn V → EStateM.Result AdapterError (Conn V) Unit
  | (.ok (), conn) => .ok () conn
  | (.error e, conn) => .error (wrap e) conn

/-- Run a statement of the adapter. -/
def statement (stmt : Stmt V) (wrap : String → AdapterError) :
    EStateM AdapterError (Conn V) Unit := fun conn =>
  outcome wrap (conn.perform config.dialect (.ok stmt))

/-- `execute_sql`. -/
def executeSql (sql : String) (wrap : String → AdapterError) :
    EStateM AdapterError (Conn V) Unit := fun conn =>
  outcome (fun e => wrap ("sqlite error: " ++ e)) (conn.exec config.dialect sql)

/-- Run a script on a connection of its own. What it did before it fails stays done. -/
def connected {α : Type} (phase : String) (script : EStateM AdapterError (Conn V) α)
    (db : Database V) : Except AdapterError α × Database V :=
  match env.openError with
  | some e =>
    (.error (phaseWrapInternal phase ("failed to open database: sqlite error: " ++ e)), db)
  | none =>
    match script (Conn.connect env.fault db) with
    | .ok a conn => (.ok a, conn.durable)
    | .error e conn => (.error e, conn.durable)

/-! ## Execute -/

/-- The statement in a payload. -/
def sqlOf (payload : Json) : Except AdapterError String :=
  let sql : Except AdapterError String := match payload with
    | .str sql => .ok sql
    | .obj fields => .ok (((fields.get "sql").bind (·.asStr)).getD "")
    | _ => .error (.validation "payload must be a string or object with 'sql' field")
  match sql with
  | .error e => .error e
  | .ok "" => .error (.validation "sql field is required in payload")
  | .ok sql => .ok sql

/-- `generate_savepoint_name`. -/
def savepointName : String := "sp_" ++ toString env.counter

/-- What `execute` records. -/
def executeReceipt (sqlType : SqlType) (kind sql : String) (changes : Nat)
    (recorded : JsonMap) : ExecuteReceipt :=
  ⟨some sqlType.debug, [("rows_affected", .num changes), ("sql_type", .str kind),
    ("original_sql", .str sql)] ++ recorded⟩

/-- An internal error of `execute`. -/
def executeError (message e : String) : AdapterError :=
  phaseWrapInternal "execute" (message ++ ": " ++ e)

/-- The statement; if it fails, what it has done is undone. -/
def executeOrUndo (sql : String) : EStateM AdapterError (Conn V) Unit := fun conn =>
  match executeSql config sql (executeError "execute failed") conn with
  | .ok () conn' => .ok () conn'
  | .error e conn' =>
    .error e (conn'.perform config.dialect (.ok (.rollbackTo (savepointName env)))).2

def reversalPair (reversal : Option String) : JsonMap :=
  match reversal with
  | some reversal => [("reversal_sql", .str reversal)]
  | none => []

def executeDml (sql : String) : EStateM AdapterError (Conn V) ExecuteReceipt := do
  statement config (.savepoint (savepointName env)) (executeError "failed to create savepoint")
  executeOrUndo config env sql
  let changes := (← get).changes
  statement config (.release (savepointName env)) (executeError "failed to release savepoint")
  let last := (← get).lastInsertRowid
  return executeReceipt .dml "DML" sql changes
    (reversalPair (generateReversalSql config last sql) ++
      [("savepoint_name", .str (savepointName env))])

def executeDdl (sql : String) : EStateM AdapterError (Conn V) ExecuteReceipt := do
  let schema ← liftExcept
    (captureAllSchemas env (executeError "failed to capture schema") (← get).view)
  executeSql config sql (executeError "execute failed")
  let changes := (← get).changes
  return executeReceipt .ddl "DDL" sql changes [("schema_capture", .str schema)]

def executeStart (contract : RollbackContract) (payload : Json) : Except AdapterError String := do
  let _ ← extractDbPath config contract.target
  env.access
  sqlOf payload

/-- **`execute`**. -/
def execute (contract : RollbackContract) (payload : Json) (db : Database V) :
    Except AdapterError ExecuteReceipt × Database V :=
  match executeStart config env contract payload with
  | .error e => (.error e, db)
  | .ok sql =>
    connected env "execute" (match classifySql config sql with
      | .dml => executeDml config env sql
      | .ddl => executeDdl config env sql) db

/-! ## Rollback -/

def placeholderSql : String := "/* compensation SQL must be provided by caller */"

/-- The statement of a step, if it has one. -/
def stepSql (step : CompensationStep) : Option String :=
  if step.operation = "rollback" then step.args.str "sql" else none

/-- The statement that runs in the place of one of the plan of a `DML` contract. -/
def resolveDml (metadata : JsonMap) (sql : String) : Except AdapterError String :=
  let sql := if trim sql = placeholderSql then (metadata.str "reversal_sql").getD sql else sql
  if trim sql = placeholderSql then
    .error (.validation ("compensation_plan contains placeholder SQL and no auto-generated " ++
      "reversal is available; provide explicit reversal SQL"))
  else .ok sql

/-- Is the contract about the schema? -/
def isDdl (metadata : JsonMap) : Bool := (metadata.str "sql_type").getD "DML" = "DDL"

/-- The statements of the plan, in order; one that is left to the caller is an error. -/
def statements (contract : RollbackContract) : List (Except AdapterError String) :=
  (contract.compensationPlan.filterMap stepSql).map fun sql =>
    if isDdl contract.metadata then .ok sql else resolveDml contract.metadata sql

/-- The loop over the statements. -/
def runPlan (wrap : String → AdapterError) :
    List (Except AdapterError String) → EStateM AdapterError (Conn V) Unit
  | [] => pure ()
  | sql :: rest => do
    executeSql config (← liftExcept sql) wrap
    runPlan wrap rest

def guardError : AdapterError :=
  .validation "schema migration guard triggered: schema has drifted"

/-- What is said of a failure. -/
def rollbackError (message e : String) : AdapterError :=
  phaseWrapInternal "rollback" (message ++ ": " ++ e)

/-- The schema has to be the one that a `DDL` contract has recorded. -/
def checkSchema (metadata : JsonMap) (db : Database V) : Except AdapterError Unit :=
  match isDdl metadata, metadata.str "schema_capture" with
  | true, some captured => do
    let schema ← captureAllSchemas env (rollbackError "failed to capture current schema") db
    ensure (schema = captured) guardError
  | _, _ => .ok ()

/-- What is said of a statement of the plan that fails. -/
def planError (metadata : JsonMap) (e : String) : AdapterError :=
  rollbackError (if isDdl metadata then "DDL rollback failed" else "compensation failed") e

def rollbackScript (contract : RollbackContract) :
    EStateM AdapterError (Conn V) RecoveryReceipt := do
  liftExcept (checkSchema env contract.metadata (← get).view)
  runPlan config (planError contract.metadata) (statements contract)
  return ⟨true, []⟩

def rollbackStart (contract : RollbackContract) : Except AdapterError Unit := do
  let _ ← extractDbPath config contract.target
  env.access
  ensure (isDdl contract.metadata = true ∨ contract.compensationPlan ≠ [])
    (.validation "DML rollback requires compensation_plan")

/-- **`rollback`**, and `compensate`. -/
def rollback (contract : RollbackContract) (db : Database V) :
    Except AdapterError RecoveryReceipt × Database V :=
  match rollbackStart config env contract with
  | .error e => (.error e, db)
  | .ok () => connected env "rollback" (rollbackScript config env contract) db

end FerrumGate.SqliteAdapter
