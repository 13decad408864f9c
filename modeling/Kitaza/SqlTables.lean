import Mathlib.Algebra.Field.Rat
import Mathlib.Data.List.Basic
import Mathlib.Data.List.Forall2
import Mathlib.Logic.Function.Basic

/-!
# Tables, and statements that change their schema

A database has a schema and rows, a row being a value for each column of its
table in order. Statements create tables and indexes, add columns and fill a
column with one value; they fail where SQL would. Whether a statement fails and
what schema it leaves depends on the schema alone, except for a unique index on
rows that repeat.
-/

namespace Kitaza.SqlTables

/-- A value of a column. -/
inductive Value where
  | null
  | text (s : String)
  | integer (n : ℤ)
  | real (q : ℚ)
  deriving DecidableEq, Repr

/-- What a column is declared to hold. -/
inductive Kind where
  | text
  | integer
  | real
  deriving DecidableEq, Repr

/-- A column. -/
structure Column where
  /-- Its name. -/
  name : String
  /-- What it holds. -/
  kind : Kind
  /-- `NOT NULL`. -/
  notNull : Bool
  /-- `PRIMARY KEY`, with `AUTOINCREMENT` or without. -/
  primaryKey : Option Bool
  /-- `DEFAULT`. -/
  default : Value
  /-- The column it refers to, whose row takes it along when it is deleted. -/
  references : Option (String × String)
  deriving DecidableEq, Repr

/-- An index. -/
structure Index where
  /-- Its name. -/
  name : String
  /-- Its table. -/
  table : String
  /-- Its columns, and which of them descend. -/
  columns : List (String × Bool)
  /-- `UNIQUE`. -/
  unique : Bool
  deriving DecidableEq, Repr

/-- Tables and indexes, in the order they were created. -/
structure Schema where
  /-- The tables. -/
  tables : List (String × List Column)
  /-- The indexes. -/
  indexes : List Index
  deriving DecidableEq, Repr

/-- A row. -/
abbrev Row := List Value

/-- A schema and the rows of each table. -/
structure Database where
  /-- The schema. -/
  schema : Schema
  /-- The rows. -/
  rows : String → List Row

/-- A database without tables. -/
def Database.empty : Database := ⟨⟨[], []⟩, fun _ => []⟩

/-- A statement. -/
inductive Statement where
  | createTable (table : String) (columns : List Column)
  | createIndex (index : Index)
  | addColumn (table : String) (column : Column)
  /-- `UPDATE table SET column = COALESCE((SELECT wanted FROM source LIMIT 1), otherwise)`. -/
  | fill (table column source wanted : String) (otherwise : Value)
  deriving DecidableEq, Repr

/-- Which row `LIMIT 1` takes: one of them, whatever the order they are read in. -/
structure Pick where
  /-- The row taken. -/
  first : List Row → Option Row
  /-- It is one of the rows. -/
  mem : ∀ rows row, first rows = some row → row ∈ rows
  /-- There is one unless there are no rows. -/
  isSome : ∀ row rows, (first (row :: rows)).isSome = true

/-- The rows are read as they were inserted. -/
def Pick.insertion : Pick := ⟨List.head?, fun _ _ => List.mem_of_head? , fun _ _ => rfl⟩

namespace Schema

/-- The columns of a table. -/
def columns (s : Schema) (table : String) : Option (List Column) := s.tables.lookup table

/-- Whether a list of columns has one of a name. -/
def has (columns : List Column) (name : String) : Bool := columns.any (·.name == name)

/-- The schema after a statement, or none where it fails. -/
def execute (s : Schema) : Statement → Option Schema
  | .createTable table columns =>
    if (s.columns table).isSome then none
    else some { s with tables := s.tables ++ [(table, columns)] }
  | .createIndex index =>
    if s.indexes.any (·.name == index.name) then none
    else
      match s.columns index.table with
      | none => none
      | some columns =>
        if index.columns.all fun c => has columns c.1 then
          some { s with indexes := s.indexes ++ [index] }
        else none
  | .addColumn table column =>
    match s.columns table with
    | none => none
    | some columns =>
      -- what SQL adds must have a value for the rows that are there
      if has columns column.name || column.primaryKey.isSome ||
          (column.notNull && column.default == .null) then none
      else
        some
          { s with
            tables := s.tables.map fun t =>
              if t.1 = table then (t.1, t.2 ++ [column]) else t }
  | .fill table column source wanted _ =>
    match s.columns table, s.columns source with
    | some columns, some from' =>
      if has columns column && has from' wanted then some s else none
    | _, _ => none

/-- The schema after one statement after another. -/
def executeAll (s : Schema) : List Statement → Option Schema
  | [] => some s
  | st :: rest => (s.execute st).bind fun s' => s'.executeAll rest

end Schema

/-- The place of a column. -/
def position (columns : List Column) (name : String) : ℕ :=
  columns.findIdx (·.name == name)

/-- The value of a row in a column. -/
def valueOf (columns : List Column) (name : String) (row : Row) : Value :=
  row.getD (position columns name) .null

/-- `COALESCE`. -/
def coalesce (v otherwise : Value) : Value := if v = .null then otherwise else v

namespace Database

/-- The value a column is filled with. -/
def wantedValue (pick : Pick) (db : Database) (source wanted : String) (otherwise : Value) :
    Value :=
  match pick.first (db.rows source) with
  | none => otherwise
  | some row =>
    coalesce (valueOf ((db.schema.columns source).getD []) wanted row) otherwise

/-- Rows that would break a unique index: the same values, none of them null. -/
def repeats (db : Database) (index : Index) : Bool :=
  let columns := (db.schema.columns index.table).getD []
  let keys := (db.rows index.table).map fun row =>
    index.columns.map fun c => valueOf columns c.1 row
  !decide (keys.filter fun key => !key.contains .null).Nodup

/-- The database after a statement, or none where it fails. -/
def execute (pick : Pick) (db : Database) (st : Statement) : Option Database :=
  match db.schema.execute st with
  | none => none
  | some schema =>
    match st with
    | .createTable table _ => some ⟨schema, Function.update db.rows table []⟩
    | .createIndex index =>
      if index.unique && db.repeats index then none else some ⟨schema, db.rows⟩
    | .addColumn table column =>
      some ⟨schema, Function.update db.rows table
        ((db.rows table).map (· ++ [column.default]))⟩
    | .fill table column source wanted otherwise =>
      let place := position ((schema.columns table).getD []) column
      let value := wantedValue pick db source wanted otherwise
      some ⟨schema, Function.update db.rows table ((db.rows table).map (·.set place value))⟩

/-- The database after one statement after another, or none where one fails. -/
def executeAll (pick : Pick) (db : Database) : List Statement → Option Database
  | [] => some db
  | st :: rest => (db.execute pick st).bind fun db' => db'.executeAll pick rest

/-- Every row has a value for each column, and one that is not null where null
is not allowed. -/
def Fits (db : Database) : Prop :=
  ∀ table columns, db.schema.columns table = some columns → ∀ row ∈ db.rows table,
    List.Forall₂ (fun column v => column.notNull = true → v ≠ Value.null) columns row

/-- Nothing is lost from one database to another: the tables are there with
their columns and perhaps more, and each of their rows with its values and
perhaps more. -/
def Keeps (db db' : Database) : Prop :=
  ∀ table columns, db.schema.columns table = some columns →
    (∃ more, db'.schema.columns table = some (columns ++ more)) ∧
      List.Forall₂ (· <+: ·) (db.rows table) (db'.rows table)

end Database

theorem Schema.executeAll_append (s : Schema) (sts sts' : List Statement) :
    s.executeAll (sts ++ sts') = (s.executeAll sts).bind fun s' => s'.executeAll sts' := by
  induction sts generalizing s with
  | nil => rfl
  | cons st sts ih =>
    rw [List.cons_append, executeAll, executeAll, Option.bind_assoc]
    exact Option.bind_congr fun s' _ => ih s'

theorem Database.executeAll_append (pick : Pick) (db : Database) (sts sts' : List Statement) :
    db.executeAll pick (sts ++ sts') =
      (db.executeAll pick sts).bind fun db' => db'.executeAll pick sts' := by
  induction sts generalizing db with
  | nil => rfl
  | cons st sts ih =>
    rw [List.cons_append, executeAll, executeAll, Option.bind_assoc]
    exact Option.bind_congr fun db' _ => ih db'

/-- What a statement does to the schema and to tables without rows. -/
theorem Database.execute_schema {pick : Pick} {db db' : Database} {st : Statement}
    (h : db.execute pick st = some db') : db.schema.execute st = some db'.schema ∧
      ((∀ table, db.rows table = []) → ∀ table, db'.rows table = []) := by
  rw [execute] at h
  split at h
  next => cases h
  next schema hschema =>
    rw [hschema]
    have hupdate : ∀ (table name : String) (f : Row → Row), (∀ table, db.rows table = []) →
        Function.update db.rows table ((db.rows table).map f) name = [] := by
      intro table name f hnone
      rw [Function.update_apply]
      split
      · rw [hnone, List.map_nil]
      · exact hnone name
    cases st with
    | createTable table columns =>
      cases h
      refine ⟨rfl, fun hnone name => ?_⟩
      dsimp only
      rw [Function.update_apply]
      split
      · rfl
      · exact hnone name
    | createIndex index =>
      dsimp only at h
      split at h
      next => cases h
      next =>
        cases h
        exact ⟨rfl, id⟩
    | addColumn table column =>
      cases h
      exact ⟨rfl, fun hnone name => hupdate table name _ hnone⟩
    | fill table column source wanted otherwise =>
      cases h
      exact ⟨rfl, fun hnone name => hupdate table name _ hnone⟩

/-- The schema statements leave is a matter of the schema alone. -/
theorem Database.executeAll_schema {pick : Pick} {db db' : Database} {sts : List Statement}
    (h : db.executeAll pick sts = some db') : db.schema.executeAll sts = some db'.schema ∧
      ((∀ table, db.rows table = []) → ∀ table, db'.rows table = []) := by
  induction sts generalizing db with
  | nil =>
    cases h
    exact ⟨rfl, id⟩
  | cons st sts ih =>
    obtain ⟨mid, hmid, hrest⟩ := Option.bind_eq_some_iff.mp h
    obtain ⟨hfirst, hnone⟩ := execute_schema hmid
    obtain ⟨hlast, hnone'⟩ := ih hrest
    exact ⟨Option.bind_eq_some_iff.mpr ⟨_, hfirst, hlast⟩, hnone' ∘ hnone⟩

/-- On tables without rows a statement goes through where the schema lets it. -/
theorem Database.execute_of_nil {db : Database} {st : Statement} {s : Schema} (pick : Pick)
    (hnone : ∀ table, db.rows table = []) (h : db.schema.execute st = some s) :
    ∃ db', db.execute pick st = some db' := by
  rw [execute, h]
  cases st with
  | createTable table columns => exact ⟨_, rfl⟩
  | createIndex index =>
    have hrepeats : db.repeats index = false := by
      rw [repeats, hnone]
      rfl
    dsimp only
    rw [hrepeats, Bool.and_false]
    exact ⟨_, rfl⟩
  | addColumn table column => exact ⟨_, rfl⟩
  | fill table column source wanted otherwise => exact ⟨_, rfl⟩

theorem Database.executeAll_of_nil {db : Database} {sts : List Statement} {s : Schema} (pick : Pick)
    (hnone : ∀ table, db.rows table = []) (h : db.schema.executeAll sts = some s) :
    ∃ db', db.executeAll pick sts = some db' := by
  induction sts generalizing db with
  | nil => exact ⟨db, rfl⟩
  | cons st sts ih =>
    obtain ⟨mid, hmid, hrest⟩ := Option.bind_eq_some_iff.mp h
    obtain ⟨db₁, hdb₁⟩ := execute_of_nil pick hnone hmid
    obtain ⟨hschema, hnone₁⟩ := execute_schema hdb₁
    obtain rfl : mid = db₁.schema := Option.some.inj (hmid.symm.trans hschema)
    obtain ⟨db', hdb'⟩ := ih (hnone₁ hnone) hrest
    exact ⟨db', by rw [executeAll, hdb₁, Option.bind_some, hdb']⟩

/-- Tables without rows fit any schema. -/
theorem Database.fits_of_nil {db : Database} (h : ∀ table, db.rows table = []) : db.Fits := by
  intro table columns _ row hrow
  rw [h] at hrow
  cases hrow

section

variable {s s' : Schema} {table name : String} {columns : List Column} {column : Column}

theorem lookup_cons_self (key : String) (l : List (String × List Column)) :
    ((key, columns) :: l).lookup key = some columns := by
  rw [List.lookup_cons, beq_self_eq_true]

theorem lookup_cons_of_ne {key : String} (h : name ≠ key) (l : List (String × List Column)) :
    ((key, columns) :: l).lookup name = l.lookup name := by
  rw [List.lookup_cons, beq_eq_false_iff_ne.mpr h]

theorem lookup_append (l : List (String × List Column)) :
    (l ++ [(table, columns)]).lookup name =
      ((l.lookup name).or (if name = table then some columns else none)) := by
  induction l with
  | nil =>
    rw [List.nil_append]
    split
    next h => rw [h, lookup_cons_self, List.lookup_nil, Option.none_or]
    next h => rw [lookup_cons_of_ne h, List.lookup_nil, Option.none_or]
  | cons t l ih =>
    rw [List.cons_append, List.lookup_cons, List.lookup_cons, ih]
    split <;> rfl

theorem lookup_map (l : List (String × List Column)) :
    (l.map fun t => if t.1 = table then (t.1, t.2 ++ [column]) else t).lookup name =
      if name = table then (l.lookup name).map (· ++ [column]) else l.lookup name := by
  induction l with
  | nil =>
    rw [List.map_nil, List.lookup_nil]
    split <;> rfl
  | cons t l ih =>
    obtain ⟨key, cols⟩ := t
    rw [List.map_cons]
    by_cases hname : name = key
    · subst hname
      rw [lookup_cons_self]
      by_cases hkey : name = table
      · rw [if_pos hkey, if_pos hkey, lookup_cons_self]
        rfl
      · rw [if_neg hkey, if_neg hkey, lookup_cons_self]
    · rw [lookup_cons_of_ne hname, ← ih]
      split <;> exact lookup_cons_of_ne hname _

/-- A statement that goes through takes no column away. -/
theorem Schema.columns_execute {st : Statement} (h : s.execute st = some s')
    (hc : s.columns name = some columns) : ∃ more, s'.columns name = some (columns ++ more) := by
  cases st with
  | createTable table new =>
    rw [execute] at h
    split at h
    next => cases h
    next =>
      cases h
      refine ⟨[], ?_⟩
      rw [Schema.columns] at hc ⊢
      rw [lookup_append, hc, List.append_nil]
      rfl
  | createIndex index =>
    rw [execute] at h
    split at h
    next => cases h
    next =>
      split at h
      next => cases h
      next =>
        split at h
        next =>
          cases h
          exact ⟨[], by rw [List.append_nil]; exact hc⟩
        next => cases h
  | addColumn table column =>
    rw [execute] at h
    split at h
    next => cases h
    next =>
      split at h
      next => cases h
      next =>
        cases h
        rw [Schema.columns] at hc ⊢
        rw [lookup_map, hc]
        split
        · exact ⟨[column], rfl⟩
        · exact ⟨[], by rw [List.append_nil]⟩
  | fill table column source wanted otherwise =>
    rw [execute] at h
    split at h
    next =>
      split at h
      next =>
        cases h
        exact ⟨[], by rw [List.append_nil]; exact hc⟩
      next => cases h
    next => cases h

end

section

variable {pick : Pick} {db db' : Database} {s : Schema} {table : String}

/-- Longer and longer rows. -/
theorem forall₂_prefix_trans {rows rows' rows'' : List Row}
    (h : List.Forall₂ (· <+: ·) rows rows') (h' : List.Forall₂ (· <+: ·) rows' rows'') :
    List.Forall₂ (· <+: ·) rows rows'' := by
  induction h generalizing rows'' with
  | nil =>
    cases h'
    exact .nil
  | cons hrow _ ih =>
    cases h' with
    | cons hrow' hrest => exact .cons (hrow.trans hrow') (ih hrest)

theorem Database.Keeps.refl (db : Database) : db.Keeps db :=
  fun _ columns h => ⟨⟨[], by rw [List.append_nil]; exact h⟩,
    List.forall₂_same.mpr fun _ _ => List.prefix_rfl⟩

theorem Database.Keeps.trans {db'' : Database} (h : db.Keeps db') (h' : db'.Keeps db'') :
    db.Keeps db'' := by
  intro table columns hc
  obtain ⟨⟨more, hmore⟩, hrows⟩ := h table columns hc
  obtain ⟨⟨evenMore, hmost⟩, hrows'⟩ := h' table _ hmore
  exact ⟨⟨more ++ evenMore, by rw [hmost, List.append_assoc]⟩,
    forall₂_prefix_trans hrows hrows'⟩

/-- A new table is empty. -/
theorem execute_createTable {columns : List Column}
    (h : db.schema.execute (.createTable table columns) = some s) (hfits : db.Fits) :
    ∃ db', db.execute pick (.createTable table columns) = some db' ∧ db'.schema = s ∧ db'.Fits ∧
      db.Keeps db' ∧ db'.rows = Function.update db.rows table [] := by
  refine ⟨⟨s, Function.update db.rows table []⟩, by rw [Database.execute, h], rfl, ?_, ?_, rfl⟩
  · intro name cols hc row hrow
    dsimp only at hc hrow
    by_cases hname : name = table
    · rw [hname, Function.update_self] at hrow
      cases hrow
    · rw [Function.update_of_ne hname] at hrow
      rw [Schema.execute] at h
      split at h
      next => cases h
      next =>
        cases h
        rw [Schema.columns, lookup_append, if_neg hname, Option.or_none] at hc
        exact hfits name cols hc row hrow
  · intro name cols hc
    refine ⟨Schema.columns_execute h hc, ?_⟩
    have hname : name ≠ table := by
      rintro rfl
      rw [Schema.execute, hc] at h
      cases h
    dsimp only
    rw [Function.update_of_ne hname]
    exact List.forall₂_same.mpr fun _ _ => List.prefix_rfl

/-- An index leaves the rows alone. -/
theorem execute_createIndex {index : Index}
    (h : db.schema.execute (.createIndex index) = some s) (hfits : db.Fits)
    (hunique : (index.unique && db.repeats index) = false) :
    ∃ db', db.execute pick (.createIndex index) = some db' ∧ db'.schema = s ∧ db'.Fits ∧
      db.Keeps db' ∧ db'.rows = db.rows := by
  have htables : s.tables = db.schema.tables := by
    rw [Schema.execute] at h
    split at h
    next => cases h
    next =>
      split at h
      next => cases h
      next =>
        split at h
        next =>
          cases h
          rfl
        next => cases h
  refine ⟨⟨s, db.rows⟩, ?_, rfl, ?_, ?_, rfl⟩
  · rw [Database.execute, h]
    dsimp only
    rw [hunique]
    rfl
  · intro name cols hc
    rw [Schema.columns, htables] at hc
    exact hfits name cols hc
  · exact fun name cols hc => ⟨Schema.columns_execute h hc,
      List.forall₂_same.mpr fun _ _ => List.prefix_rfl⟩

/-- What adding a column to a table asks for. -/
theorem Schema.addColumn_some {sc : Schema} {column : Column}
    (h : sc.execute (.addColumn table column) = some s) :
    ∃ columns, sc.columns table = some columns ∧ has columns column.name = false ∧
      (column.notNull = true → column.default ≠ .null) ∧
      ∀ name, s.columns name =
        if name = table then (sc.columns name).map (· ++ [column]) else sc.columns name := by
  rw [execute] at h
  split at h
  next => cases h
  next columns hcolumns =>
    split at h
    next => cases h
    next hallowed =>
      cases h
      simp only [Bool.or_eq_true, Bool.and_eq_true, beq_iff_eq, not_or, not_and,
        Bool.not_eq_true] at hallowed
      exact ⟨columns, hcolumns, hallowed.1.1, hallowed.2, fun name => lookup_map _⟩

/-- Filling a column leaves the schema alone. -/
theorem Schema.fill_some {sc : Schema} {column source wanted : String} {otherwise : Value}
    (h : sc.execute (.fill table column source wanted otherwise) = some s) : s = sc := by
  rw [execute] at h
  split at h
  next =>
    split at h
    next =>
      cases h
      rfl
    next => cases h
  next => cases h

/-- Rows that get one more value. -/
theorem Database.of_append {column : Column} {v : Value}
    (h : db.schema.execute (.addColumn table column) = some s) (hfits : db.Fits)
    (hv : column.notNull = true → v ≠ .null) :
    (Database.mk s (Function.update db.rows table ((db.rows table).map (· ++ [v])))).Fits ∧
      db.Keeps ⟨s, Function.update db.rows table ((db.rows table).map (· ++ [v]))⟩ := by
  obtain ⟨columns, hcolumns, _, _, hlookup⟩ := Schema.addColumn_some h
  refine ⟨fun name cols hc row hrow => ?_, fun name cols hc => ⟨Schema.columns_execute h hc, ?_⟩⟩
  · dsimp only at hc hrow
    rw [hlookup] at hc
    by_cases hname : name = table
    · subst hname
      rw [if_pos rfl, hcolumns] at hc
      cases hc
      rw [Function.update_self] at hrow
      obtain ⟨row', hrow', rfl⟩ := List.mem_map.mp hrow
      exact List.rel_append (hfits name columns hcolumns row' hrow') (.cons hv .nil)
    · rw [if_neg hname] at hc
      rw [Function.update_of_ne hname] at hrow
      exact hfits name cols hc row hrow
  · dsimp only
    by_cases hname : name = table
    · subst hname
      rw [Function.update_self, List.forall₂_map_right_iff]
      exact List.forall₂_same.mpr fun _ _ => List.prefix_append _ _
    · rw [Function.update_of_ne hname]
      exact List.forall₂_same.mpr fun _ _ => List.prefix_rfl

/-- An added column holds its default. -/
theorem execute_addColumn {column : Column}
    (h : db.schema.execute (.addColumn table column) = some s) (hfits : db.Fits) :
    ∃ db', db.execute pick (.addColumn table column) = some db' ∧ db'.schema = s ∧ db'.Fits ∧
      db.Keeps db' ∧ db'.rows =
        Function.update db.rows table ((db.rows table).map (· ++ [column.default])) := by
  obtain ⟨_, _, _, hdefault, _⟩ := Schema.addColumn_some h
  obtain ⟨hfits', hkeeps⟩ := Database.of_append h hfits hdefault
  exact ⟨_, by rw [Database.execute, h], rfl, hfits', hkeeps, rfl⟩

theorem coalesce_ne {v otherwise : Value} (h : otherwise ≠ .null) : coalesce v otherwise ≠ .null := by
  rw [coalesce]
  split
  next => exact h
  next hv => exact hv

theorem Database.wantedValue_ne {source wanted : String} {otherwise : Value}
    (h : otherwise ≠ .null) : db.wantedValue pick source wanted otherwise ≠ .null := by
  rw [wantedValue]
  split
  · exact h
  · exact coalesce_ne h

/-- A new column comes after the old ones. -/
theorem position_append {columns : List Column} {column : Column}
    (h : Schema.has columns column.name = false) :
    position (columns ++ [column]) column.name = columns.length := by
  rw [Schema.has, List.any_eq_false] at h
  rw [position, List.findIdx_append]
  have hnone : columns.findIdx (·.name == column.name) = columns.length :=
    List.findIdx_eq_length.mpr fun c hc => Bool.eq_false_iff.mpr (h c hc)
  rw [hnone]
  simp

/-- A column that is added and then filled holds what it was filled with. -/
theorem execute_addColumn_fill {column : Column} {source wanted : String} {otherwise : Value}
    (h : db.schema.execute (.addColumn table column) = some s)
    (hfill : s.execute (.fill table column.name source wanted otherwise) = some s)
    (hsource : source ≠ table) (hfits : db.Fits) (hvalue : otherwise ≠ .null) :
    ∃ db', db.executeAll pick [.addColumn table column,
        .fill table column.name source wanted otherwise] = some db' ∧ db'.schema = s ∧ db'.Fits ∧
      db.Keeps db' ∧ db'.rows = Function.update db.rows table
        ((db.rows table).map (· ++ [db.wantedValue pick source wanted otherwise])) := by
  obtain ⟨columns, hcolumns, hnew, _, hlookup⟩ := Schema.addColumn_some h
  obtain ⟨hfits', hkeeps⟩ := @Database.of_append db s table column
    (db.wantedValue pick source wanted otherwise) h hfits
    fun _ => Database.wantedValue_ne hvalue
  refine ⟨_, ?_, rfl, hfits', hkeeps, rfl⟩
  rw [Database.executeAll, Database.execute, h]
  dsimp only
  rw [Option.bind_some, Database.executeAll, Database.execute]
  dsimp only
  rw [hfill]
  dsimp only
  rw [Option.bind_some, Database.executeAll, Option.some_inj]
  have hcols : s.columns table = some (columns ++ [column]) := by
    rw [hlookup, if_pos rfl, hcolumns]
    rfl
  have hwanted : Database.wantedValue pick
      ⟨s, Function.update db.rows table ((db.rows table).map (· ++ [column.default]))⟩ source wanted
        otherwise = db.wantedValue pick source wanted otherwise := by
    rw [Database.wantedValue, Database.wantedValue]
    dsimp only
    rw [Function.update_of_ne hsource, hlookup, if_neg hsource]
  rw [hwanted, hcols, Option.getD_some, position_append hnew, Function.update_self,
    Function.update_idem, List.map_map]
  congr 2
  apply List.map_congr_left
  intro row hrow
  have hlength : columns.length = row.length := (hfits table columns hcolumns row hrow).length_eq
  rw [Function.comp_apply, hlength, List.set_append_right _ _ le_rfl, Nat.sub_self]
  rfl

end

end Kitaza.SqlTables
