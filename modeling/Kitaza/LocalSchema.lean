import Kitaza.SqlTables

/-!
# The schema of the phone's database

A new install builds the first released schema and runs every step since, an
existing phone runs the steps it has not had. Whatever its age and whatever it
holds, a phone comes to the schema of a new install with every value it had,
and each queued change names the store it belongs to.
-/

namespace Kitaza.LocalSchema

open SqlTables

/-- `TEXT PRIMARY KEY`. -/
def textKey (name : String) : Column := ⟨name, .text, false, some false, .null, none⟩

/-- `NOT NULL`. -/
def required (name : String) (kind : Kind) : Column := ⟨name, kind, true, none, .null, none⟩

/-- A column that may be null. -/
def optional (name : String) (kind : Kind) : Column := ⟨name, kind, false, none, .null, none⟩

/-- `NOT NULL DEFAULT`. -/
def defaulted (name : String) (kind : Kind) (default : Value) : Column :=
  ⟨name, kind, true, none, default, none⟩

/-- The tables of version 1. -/
def createTables : List Statement :=
  [.createTable "owners" [textKey "id", required "full_name" .text, optional "email" .text],
    .createTable "stores"
      [textKey "id", required "name" .text, defaulted "business_type" .text (.text "sari_sari"),
        defaulted "currency_code" .text (.text "PHP")],
    .createTable "products"
      [textKey "id", required "store_id" .text, required "name" .text, optional "barcode" .text,
        defaulted "unit_label" .text (.text "pc"), defaulted "cost_price" .integer (.integer 0),
        defaulted "selling_price" .integer (.integer 0),
        defaulted "stock_quantity" .real (.integer 0),
        defaulted "reorder_level" .real (.integer 0), defaulted "is_active" .integer (.integer 1),
        required "updated_at" .text, optional "deleted_at" .text],
    .createTable "sales"
      [textKey "id", required "store_id" .text, defaulted "payment_method" .text (.text "cash"),
        defaulted "total_amount" .integer (.integer 0),
        defaulted "cost_amount" .integer (.integer 0),
        defaulted "discount_amount" .integer (.integer 0), optional "note" .text,
        required "occurred_at" .text, required "updated_at" .text, optional "deleted_at" .text],
    .createTable "sale_items"
      [textKey "id", { required "sale_id" .text with references := some ("sales", "id") },
        optional "product_id" .text, required "product_name" .text, required "quantity" .real,
        required "unit_price" .integer, defaulted "unit_cost" .integer (.integer 0),
        required "line_total" .integer],
    .createTable "expenses"
      [textKey "id", required "store_id" .text, required "category" .text,
        optional "description" .text, required "amount" .integer, required "occurred_at" .text,
        required "updated_at" .text, optional "deleted_at" .text],
    .createTable "owner_withdrawals"
      [textKey "id", required "store_id" .text, required "amount" .integer,
        optional "reason" .text, required "occurred_at" .text, required "updated_at" .text,
        optional "deleted_at" .text],
    .createTable "stock_movements"
      [textKey "id", required "store_id" .text, required "product_id" .text,
        required "movement" .text, required "quantity" .real,
        defaulted "unit_cost" .integer (.integer 0), optional "note" .text,
        required "occurred_at" .text, required "updated_at" .text, optional "deleted_at" .text],
    .createTable "sync_queue"
      [⟨"id", .integer, false, some true, .null, none⟩, required "entity" .text,
        required "entity_id" .text, required "payload" .text, required "created_at" .text,
        defaulted "attempts" .integer (.integer 0), optional "last_error" .text]]

/-- The indexes of version 1. -/
def createIndexes : List Statement :=
  [.createIndex ⟨"products_store_name_idx", "products",
      [("store_id", false), ("name", false)], false⟩,
    .createIndex ⟨"products_low_stock_idx", "products",
      [("store_id", false), ("reorder_level", false), ("stock_quantity", false)], false⟩,
    .createIndex ⟨"sales_store_occurred_idx", "sales",
      [("store_id", false), ("occurred_at", true)], false⟩,
    .createIndex ⟨"sale_items_sale_idx", "sale_items", [("sale_id", false)], false⟩,
    .createIndex ⟨"expenses_store_occurred_idx", "expenses",
      [("store_id", false), ("occurred_at", true)], false⟩,
    .createIndex ⟨"withdrawals_store_occurred_idx", "owner_withdrawals",
      [("store_id", false), ("occurred_at", true)], false⟩,
    .createIndex ⟨"stock_movements_product_idx", "stock_movements",
      [("product_id", false), ("occurred_at", true)], false⟩,
    .createIndex ⟨"sync_queue_entity_idx", "sync_queue",
      [("entity", false), ("entity_id", false)], true⟩]

/-- The column that says whether a store's totals join the comparisons. -/
def shareBenchmarks : Column := defaulted "share_benchmarks" .integer (.integer 1)

/-- The column that says which store a queued change belongs to. -/
def queueStoreId : Column := defaulted "store_id" .text (.text "")

/-- The table of the errors not sent yet. -/
def errorReports : List Column :=
  [textKey "id", required "fingerprint" .text, required "error_type" .text, required "message" .text,
    optional "stack" .text, defaulted "occurrences" .integer (.integer 1),
    required "first_seen" .text, required "last_seen" .text, required "app_version" .text,
    required "platform" .text]

/-- One row an error. -/
def errorReportsIndex : Index :=
  ⟨"error_reports_fingerprint_idx", "error_reports", [("fingerprint", false)], true⟩

/-- Every change to the schema since version 1. -/
def steps : List (ℕ × List Statement) :=
  [(2, [.createTable "error_reports" errorReports, .createIndex errorReportsIndex]),
    (3,
      [.addColumn "sync_queue" queueStoreId,
        .fill "sync_queue" "store_id" "stores" "id" (.text "")]),
    (4, [.addColumn "stores" shareBenchmarks])]

/-- The newest version there is. -/
def latestVersion : ℕ :=
  steps.foldl (fun latest step => if latest < step.1 then step.1 else latest) 1

/-- The statements of a version, none if it has no step. -/
def step (version : ℕ) : List Statement := (steps.lookup version).getD []

/-- Run the steps after one version up to another. -/
def migrate (pick : Pick) (db : Database) (old new : ℕ) : Option Database :=
  db.executeAll pick ((List.range' (old + 1) (new - old)).flatMap step)

/-- `_create`: the first schema and the steps since. -/
def create (pick : Pick) (version : ℕ) : Option Database :=
  (Database.empty.executeAll pick (createTables ++ createIndexes)).bind fun db =>
    migrate pick db 1 version

/-- Open the file with an app whose schema has a version: a new file is created,
an older one brought forward. Either is one transaction, so a statement that
fails leaves the file as it was. -/
def openDatabase (pick : Pick) (version : ℕ) : Option (ℕ × Database) → Option (ℕ × Database)
  | none => (create pick version).map fun db => (version, db)
  | some (old, db) =>
    if old < version then (migrate pick db old version).map fun db => (version, db)
    else some (old, db)

/-- The databases phones can have: installed with any version released, written
to by the app in any way that keeps to the schema, and opened by newer ones. -/
inductive Reached (pick : Pick) : ℕ → Database → Prop where
  /-- A new install. -/
  | installed {version : ℕ} {db : Database} (hfirst : 1 ≤ version) (hlast : version ≤ latestVersion)
      (h : openDatabase pick version none = some (version, db)) : Reached pick version db
  /-- The app inserts, changes and deletes rows. -/
  | written {version : ℕ} {db db' : Database} (h : Reached pick version db)
      (hschema : db'.schema = db.schema) (hfits : db'.Fits) : Reached pick version db'
  /-- A newer app opens the file. -/
  | upgraded {old version : ℕ} {db db' : Database} (h : Reached pick old db) (hold : old ≤ version)
      (hlast : version ≤ latestVersion)
      (hopen : openDatabase pick version (some (old, db)) = some (version, db')) :
      Reached pick version db'

/-- The store of a phone, as its queued changes are marked. -/
def storeOf (pick : Pick) (db : Database) : Value :=
  db.wantedValue pick "stores" "id" (.text "")

/-- The schema of a new install of a version. -/
def schemaAt (version : ℕ) : Option Schema :=
  (Schema.mk [] []).executeAll
    (createTables ++ createIndexes ++ (List.range' 2 (version - 1)).flatMap step)

section

variable {pick : Pick} {db db' : Database} {old version : ℕ}

theorem schemaAt_isSome : ∀ v ≤ latestVersion, (schemaAt v).isSome = true := by
  decide +kernel

theorem schemaAt_succ (v : ℕ) (h : 1 ≤ v) :
    schemaAt (v + 1) = (schemaAt v).bind fun s => s.executeAll (step (v + 1)) := by
  obtain ⟨n, rfl⟩ := Nat.exists_eq_add_of_le h
  rw [schemaAt, schemaAt, show 1 + n + 1 - 1 = n + 1 by omega, show 1 + n - 1 = n by omega,
    List.range'_1_concat, List.flatMap_append, ← List.append_assoc, Schema.executeAll_append]
  rw [show 2 + n = 1 + n + 1 by omega, List.flatMap_singleton]

theorem migrate_self (v : ℕ) : migrate pick db v v = some db := by
  rw [migrate, Nat.sub_self]
  rfl

theorem migrate_succ {v : ℕ} (h : old ≤ v) : migrate pick db old (v + 1) =
    (migrate pick db old v).bind fun db' => db'.executeAll pick (step (v + 1)) := by
  obtain ⟨n, rfl⟩ := Nat.exists_eq_add_of_le h
  rw [migrate, migrate, show old + n + 1 - old = n + 1 by omega, show old + n - old = n by omega,
    List.range'_1_concat, List.flatMap_append, Database.executeAll_append]
  rw [show old + 1 + n = old + n + 1 by omega, List.flatMap_singleton]

/-- What migrating leaves is the schema of the version. -/
theorem migrate_schema (hfirst : 1 ≤ old) (hold : old ≤ version)
    (h : migrate pick db old version = some db') (hdb : schemaAt old = some db.schema) :
    schemaAt version = some db'.schema := by
  induction version, hold using Nat.le_induction generalizing db' with
  | base =>
    rw [migrate_self] at h
    cases h
    exact hdb
  | succ v hle ih =>
    rw [migrate_succ hle] at h
    obtain ⟨mid, hmid, hstep⟩ := Option.bind_eq_some_iff.mp h
    rw [schemaAt_succ v (hfirst.trans hle), ih hmid, Option.bind_some]
    exact (Database.executeAll_schema hstep).1

/-- A new install has the schema of its version and no rows. -/
theorem create_spec (hfirst : 1 ≤ version) (h : create pick version = some db) :
    schemaAt version = some db.schema ∧ db.Fits := by
  obtain ⟨mid, hmid, hrest⟩ := Option.bind_eq_some_iff.mp h
  obtain ⟨hbase, hempty⟩ := Database.executeAll_schema hmid
  have hstart : schemaAt 1 = some mid.schema := by
    rw [schemaAt, Nat.sub_self, List.range'_zero, List.flatMap_nil, List.append_nil]
    exact hbase
  refine ⟨migrate_schema le_rfl hfirst hrest hstart, Database.fits_of_nil ?_⟩
  exact (Database.executeAll_schema hrest).2 (hempty fun _ => rfl)

/-- What an upgrade leaves. -/
structure Upgraded (pick : Pick) (old new : ℕ) (db db' : Database) : Prop where
  /-- Every row fits the new schema. -/
  fits : db'.Fits
  /-- No table, column, row or value is lost. -/
  keeps : db.Keeps db'
  /-- The queued changes are marked with the phone's store, once. -/
  queue : db'.rows "sync_queue" =
    if old < 3 ∧ 3 ≤ new then (db.rows "sync_queue").map (· ++ [storeOf pick db])
    else db.rows "sync_queue"
  /-- The phone's store is the same until then. -/
  store : new < 3 → storeOf pick db' = storeOf pick db

theorem storesColumns : ∀ v < latestVersion - 1, 1 ≤ v →
    (schemaAt (v + 1)).bind (fun s => s.columns "stores") =
      (schemaAt v).bind fun s => s.columns "stores" := by
  decide +kernel

/-- The phone's store is read off its rows, and the columns up to version 3. -/
theorem storeOf_congr {v : ℕ} (hfirst : 1 ≤ v) (hlast : v < latestVersion - 1)
    (h : schemaAt v = some db.schema) (h' : schemaAt (v + 1) = some db'.schema)
    (hrows : db'.rows "stores" = db.rows "stores") : storeOf pick db' = storeOf pick db := by
  have hcolumns := storesColumns v hlast hfirst
  rw [h, h', Option.bind_some, Option.bind_some] at hcolumns
  rw [storeOf, storeOf, Database.wantedValue, Database.wantedValue, hrows, hcolumns]

/-- Version 2 adds a table. -/
theorem upgraded_two {s : Schema} (h : db.schema.executeAll (step 2) = some s) (hfits : db.Fits)
    (hdb : schemaAt 1 = some db.schema) :
    ∃ db', db.executeAll pick (step 2) = some db' ∧ Upgraded pick 1 2 db db' := by
  obtain ⟨s₁, hs₁, hrest⟩ := Option.bind_eq_some_iff.mp h
  obtain ⟨s₂, hs₂, _⟩ := Option.bind_eq_some_iff.mp hrest
  obtain ⟨db₁, hdb₁, rfl, hfits₁, hkeeps₁, hrows₁⟩ :=
    @execute_createTable pick db s₁ "error_reports" errorReports hs₁ hfits
  have hunique : (errorReportsIndex.unique && db₁.repeats errorReportsIndex) = false := by
    rw [Database.repeats, hrows₁]
    rfl
  obtain ⟨db₂, hdb₂, rfl, hfits₂, hkeeps₂, hrows₂⟩ :=
    @execute_createIndex pick db₁ s₂ errorReportsIndex hs₂ hfits₁ hunique
  have hrun : db.executeAll pick (step 2) = some db₂ := by
    change (db.execute pick _).bind _ = _
    rw [hdb₁, Option.bind_some]
    change (db₁.execute pick _).bind _ = _
    rw [hdb₂]
    rfl
  have hrows : ∀ table, table ≠ "error_reports" → db₂.rows table = db.rows table := by
    intro table hne
    rw [hrows₂, hrows₁, Function.update_of_ne hne]
  have hschema : schemaAt 2 = some db₂.schema := by
    rw [schemaAt_succ 1 le_rfl, hdb, Option.bind_some]
    exact (Database.executeAll_schema hrun).1
  exact ⟨db₂, hrun, hfits₂, hkeeps₁.trans hkeeps₂, hrows _ (by decide),
    fun _ => storeOf_congr le_rfl (by decide) hdb hschema (hrows _ (by decide))⟩

/-- Version 3 marks the queued changes. -/
theorem upgraded_three {s : Schema} (h : db.schema.executeAll (step 3) = some s)
    (hfits : db.Fits) :
    ∃ db', db.executeAll pick (step 3) = some db' ∧ Upgraded pick 2 3 db db' := by
  obtain ⟨s₁, hs₁, hrest⟩ := Option.bind_eq_some_iff.mp h
  obtain ⟨s₂, hs₂, _⟩ := Option.bind_eq_some_iff.mp hrest
  obtain rfl := Schema.fill_some hs₂
  obtain ⟨db₁, hdb₁, rfl, hfits₁, hkeeps₁, hrows₁⟩ :=
    @execute_addColumn_fill pick db s₂ "sync_queue" queueStoreId "stores" "id" (.text "") hs₁ hs₂
      (by decide) hfits (by decide)
  refine ⟨db₁, hdb₁, hfits₁, hkeeps₁, ?_, nofun⟩
  rw [hrows₁, Function.update_self]
  rfl

/-- Version 4 adds a column. -/
theorem upgraded_four {s : Schema} (h : db.schema.executeAll (step 4) = some s)
    (hfits : db.Fits) :
    ∃ db', db.executeAll pick (step 4) = some db' ∧ Upgraded pick 3 4 db db' := by
  obtain ⟨s₁, hs₁, _⟩ := Option.bind_eq_some_iff.mp h
  obtain ⟨db₁, hdb₁, rfl, hfits₁, hkeeps₁, hrows₁⟩ :=
    @execute_addColumn pick db s₁ "stores" shareBenchmarks hs₁ hfits
  refine ⟨db₁, ?_, hfits₁, hkeeps₁, ?_, nofun⟩
  · change (db.execute pick _).bind _ = _
    rw [hdb₁]
    rfl
  · rw [hrows₁, Function.update_of_ne (by decide)]
    rfl

/-- Each version's step goes through, whatever the phone holds. -/
theorem upgraded_step {v : ℕ} (hfirst : 1 ≤ v) (hlast : v < latestVersion)
    (hdb : schemaAt v = some db.schema) (hfits : db.Fits) :
    ∃ db', db.executeAll pick (step (v + 1)) = some db' ∧ Upgraded pick v (v + 1) db db' := by
  obtain ⟨s, hs⟩ := Option.isSome_iff_exists.mp (schemaAt_isSome (v + 1) hlast)
  rw [schemaAt_succ v hfirst, hdb, Option.bind_some] at hs
  have hlatest : latestVersion = 4 := rfl
  obtain rfl | rfl | rfl : v = 1 ∨ v = 2 ∨ v = 3 := by omega
  · exact upgraded_two hs hfits hdb
  · exact upgraded_three hs hfits
  · exact upgraded_four hs hfits

theorem Upgraded.refl (hfits : db.Fits) (v : ℕ) : Upgraded pick v v db db where
  fits := hfits
  keeps := .refl db
  queue := by rw [if_neg (by omega)]
  store := fun _ => rfl

/-- One more version. -/
theorem Upgraded.trans {db'' : Database} {v : ℕ} (h : Upgraded pick old v db db') (hold : old ≤ v)
    (h' : Upgraded pick v (v + 1) db' db'') : Upgraded pick old (v + 1) db db'' where
  fits := h'.fits
  keeps := h.keeps.trans h'.keeps
  queue := by
    rw [h'.queue, h.queue]
    by_cases hv : v < 3
    · rw [if_neg (by omega : ¬(old < 3 ∧ 3 ≤ v)), h.store hv]
      by_cases hnext : 3 ≤ v + 1
      · rw [if_pos ⟨hv, hnext⟩, if_pos ⟨by omega, hnext⟩]
      · rw [if_neg (by omega), if_neg (by omega)]
    · rw [if_neg (by omega : ¬(v < 3 ∧ 3 ≤ v + 1))]
      by_cases hbefore : old < 3
      · rw [if_pos ⟨hbefore, by omega⟩, if_pos ⟨hbefore, by omega⟩]
      · rw [if_neg (by omega), if_neg (by omega)]
  store := fun hlt => (h'.store hlt).trans (h.store (by omega))

/-- Migrating goes through, whatever the phone holds. -/
theorem upgraded_migrate (hfirst : 1 ≤ old) (hold : old ≤ version)
    (hlast : version ≤ latestVersion) (hdb : schemaAt old = some db.schema) (hfits : db.Fits) :
    ∃ db', migrate pick db old version = some db' ∧ Upgraded pick old version db db' := by
  induction version, hold using Nat.le_induction with
  | base => exact ⟨db, migrate_self old, .refl hfits old⟩
  | succ v hle ih =>
    obtain ⟨mid, hmid, hmigrated⟩ := ih (by omega)
    have hschema := migrate_schema hfirst hle hmid hdb
    obtain ⟨db', hdb', hstep⟩ := @upgraded_step pick mid v (hfirst.trans hle) hlast hschema
      hmigrated.fits
    refine ⟨db', ?_, hmigrated.trans hle hstep⟩
    rw [migrate_succ hle, hmid]
    exact hdb'

/-- Opening a file that is not newer is migrating it. -/
theorem openDatabase_some (hold : old ≤ version) :
    openDatabase pick version (some (old, db)) =
      (migrate pick db old version).map fun db => (version, db) := by
  rw [openDatabase]
  split
  next => rfl
  next hlt =>
    obtain rfl : old = version := by omega
    rw [migrate_self]
    rfl

/-- Installing goes through. -/
theorem installs (pick : Pick) (hfirst : 1 ≤ version) (hlast : version ≤ latestVersion) :
    ∃ db, openDatabase pick version none = some (version, db) ∧
      schemaAt version = some db.schema := by
  obtain ⟨s, hs⟩ := Option.isSome_iff_exists.mp (schemaAt_isSome 1 (by decide))
  have hbase : Database.empty.schema.executeAll (createTables ++ createIndexes) = some s := by
    rw [schemaAt, Nat.sub_self, List.range'_zero, List.flatMap_nil, List.append_nil] at hs
    exact hs
  obtain ⟨mid, hmid⟩ := Database.executeAll_of_nil pick (fun _ => rfl) hbase
  obtain ⟨hschema, hnone⟩ := Database.executeAll_schema hmid
  have hone : schemaAt 1 = some mid.schema := hs.trans (hbase.symm.trans hschema)
  obtain ⟨db, hdb, _⟩ := @upgraded_migrate pick mid 1 version le_rfl hfirst hlast hone
    (Database.fits_of_nil (hnone fun _ => rfl))
  have hcreate : create pick version = some db := by
    rw [create, hmid]
    exact hdb
  exact ⟨db, by rw [openDatabase, hcreate]; rfl, (create_spec hfirst hcreate).1⟩

/-- Every phone has the schema of its version, and rows that fit it. -/
theorem Reached.spec (h : Reached pick version db) :
    schemaAt version = some db.schema ∧ db.Fits ∧ 1 ≤ version := by
  induction h with
  | installed hfirst _ h =>
    obtain ⟨db', hdb', heq⟩ := Option.map_eq_some_iff.mp h
    cases heq
    obtain ⟨hschema, hfits⟩ := create_spec hfirst hdb'
    exact ⟨hschema, hfits, hfirst⟩
  | written _ hschema hfits ih => exact ⟨hschema ▸ ih.1, hfits, ih.2.2⟩
  | upgraded _ hold hlast hopen ih =>
    obtain ⟨hschema, hfits, hfirst⟩ := ih
    rw [openDatabase_some hold] at hopen
    obtain ⟨db', hdb', heq⟩ := Option.map_eq_some_iff.mp hopen
    cases heq
    obtain ⟨db'', hdb'', hupgraded⟩ := upgraded_migrate hfirst hold hlast hschema hfits
    obtain rfl : db'' = _ := Option.some.inj (hdb''.symm.trans hdb')
    exact ⟨migrate_schema hfirst hold hdb' hschema, hupgraded.fits, hfirst.trans hold⟩

/-- Where all its rows say the same store, the phone's store is that one. -/
theorem storeOf_eq {id : String} (hsome : db.rows "stores" ≠ [])
    (h : ∀ row ∈ db.rows "stores",
      valueOf ((db.schema.columns "stores").getD []) "id" row = .text id) :
    storeOf pick db = .text id := by
  obtain ⟨row, rows, hrows⟩ := List.exists_cons_of_ne_nil hsome
  obtain ⟨first, hfirst⟩ := Option.isSome_iff_exists.mp (pick.isSome row rows)
  rw [← hrows] at hfirst
  rw [storeOf, Database.wantedValue, hfirst]
  dsimp only
  rw [h first (pick.mem _ _ hfirst)]
  rfl

end

/-- A phone of any age and with any rows opens with a newer app: every step
goes through, the schema is the one a new install of that app gets, no table,
column, row or value is lost, and the changes still queued on a phone of one
store are marked with that store by the upgrade to version 3 and by no other. -/
theorem upgrades_like_new (pick : Pick) {old version : ℕ} {db : Database}
    (h : Reached pick old db) (hold : old ≤ version) (hlast : version ≤ latestVersion) :
    ∃ db', openDatabase pick version (some (old, db)) = some (version, db') ∧
      (openDatabase pick version none).map (fun file => file.2.schema) = some db'.schema ∧
      db'.Fits ∧ db.Keeps db' ∧
      (¬(old < 3 ∧ 3 ≤ version) → db'.rows "sync_queue" = db.rows "sync_queue") ∧
      ∀ id, old < 3 → 3 ≤ version → db.rows "stores" ≠ [] →
        (∀ row ∈ db.rows "stores",
          valueOf ((db.schema.columns "stores").getD []) "id" row = .text id) →
        db'.rows "sync_queue" = (db.rows "sync_queue").map (· ++ [.text id]) := by
  obtain ⟨hschema, hfits, hfirst⟩ := h.spec
  obtain ⟨db', hdb', hupgraded⟩ := @upgraded_migrate pick db old version hfirst hold hlast hschema
    hfits
  obtain ⟨new, hnew, hnewSchema⟩ := installs pick (hfirst.trans hold) hlast
  have hsame := migrate_schema hfirst hold hdb' hschema
  refine ⟨db', ?_, ?_, hupgraded.fits, hupgraded.keeps, fun hnot => ?_, ?_⟩
  · rw [openDatabase_some hold, hdb']
    rfl
  · rw [hnew, ← hsame, hnewSchema]
    rfl
  · rw [hupgraded.queue, if_neg hnot]
  · intro id hbefore hafter hsome hstore
    rw [hupgraded.queue, if_pos ⟨hbefore, hafter⟩, storeOf_eq hsome hstore]

/-- A phone on the first released schema, with a store and a change waiting to
be uploaded. -/
def oldPhone : Database where
  schema := (schemaAt 1).getD ⟨[], []⟩
  rows := fun table =>
    if table = "stores" then [[.text "s", .text "Old Store", .text "sari_sari", .text "PHP"]]
    else if table = "sync_queue" then
      [[.integer 1, .text "sales", .text "sale-1", .text "{}", .text "2026-01-01T00:00:00Z",
        .integer 0, .null]]
    else []

theorem fits_oldPhone : oldPhone.Fits := by
  intro table columns hc row hrow
  dsimp only [oldPhone] at hrow
  split at hrow
  next htable =>
    subst htable
    cases List.mem_singleton.mp hrow
    have hstores : oldPhone.schema.columns "stores" = some
        [textKey "id", required "name" .text, defaulted "business_type" .text (.text "sari_sari"),
          defaulted "currency_code" .text (.text "PHP")] := by
      decide +kernel
    cases hc.symm.trans hstores
    exact .cons nofun (.cons nofun (.cons nofun (.cons nofun .nil)))
  next =>
    split at hrow
    next htable =>
      subst htable
      cases List.mem_singleton.mp hrow
      have hqueue : oldPhone.schema.columns "sync_queue" = some
          [⟨"id", .integer, false, some true, .null, none⟩, required "entity" .text,
            required "entity_id" .text, required "payload" .text, required "created_at" .text,
            defaulted "attempts" .integer (.integer 0), optional "last_error" .text] := by
        decide +kernel
      cases hc.symm.trans hqueue
      exact .cons nofun (.cons nofun (.cons nofun (.cons nofun (.cons nofun (.cons nofun
        (.cons nofun .nil))))))
    next => cases hrow

theorem reached_oldPhone : Reached Pick.insertion 1 oldPhone := by
  obtain ⟨db, hdb, hschema⟩ := installs Pick.insertion (le_refl 1) (by decide)
  apply Reached.written (.installed le_rfl (by decide) hdb) _ fits_oldPhone
  dsimp only [oldPhone]
  rw [hschema, Option.getD_some]

/-- Its change is marked with its store. -/
theorem upgrades_like_new_oldPhone :
    ∃ db', openDatabase Pick.insertion 4 (some (1, oldPhone)) = some (4, db') ∧
      (openDatabase Pick.insertion 4 none).map (fun file => file.2.schema) = some db'.schema ∧
      oldPhone.Keeps db' ∧ db'.rows "sync_queue" =
        [[.integer 1, .text "sales", .text "sale-1", .text "{}", .text "2026-01-01T00:00:00Z",
          .integer 0, .null, .text "s"]] := by
  obtain ⟨db', hopen, hschema, _, hkeeps, _, hqueue⟩ :=
    upgrades_like_new Pick.insertion reached_oldPhone (by decide : 1 ≤ 4) (by decide)
  refine ⟨db', hopen, hschema, hkeeps, hqueue "s" (by decide) (by decide) (by decide) ?_⟩
  intro row hrow
  cases List.mem_singleton.mp hrow
  decide +kernel

end Kitaza.LocalSchema
