import Kitaza.Catalogue
import Kitaza.DecimalRange
import Kitaza.SaleAcceptance

/-!
# Whether removed records stay removed

The run is that of pushes from any phones to the server as its decimals and
columns have it. A phone that lost an answer sends an old push again, after one
of its records was removed elsewhere. A voided sale is final: recording it again
changes nothing. A product, an expense and a withdrawal come back when a row that
names them is accepted again; those are the only rows that bring anything back.
The other rows of the old push move the stock a removed record had moved unless
each gives back what it takes.
-/

namespace Kitaza.DeletionFinality

open KeyedTable Primitives Access Schema Payloads ProductService SaleRepository SaleEffects
  SyncPush RowEffects Catalogue InventoryService SaleAcceptance
open DecimalRange (StoredDb rowLeft rowsLeft rowsLeft_of_isSome rowsLeft_of_not_isSome)

/-- The records a phone can remove. -/
inductive Deletable where
  | product
  | sale
  | expense
  | withdrawal
  deriving DecidableEq, Repr

/-- Whether a record was removed. -/
def Removed (db : Db) (id : Uuid) : Deletable → Prop
  | .product => ∃ p, db.products.find? id = some p ∧ p.deletedAt ≠ none
  | .sale => ∃ s, db.sales.find? id = some s ∧ s.deletedAt ≠ none
  | .expense => ∃ e, db.expenses.find? id = some e ∧ e.deletedAt ≠ none
  | .withdrawal => ∃ w, db.ownerWithdrawals.find? id = some w ∧ w.deletedAt ≠ none

/-- A row as it reaches the server. -/
structure SentRow where
  /-- The server's clock. -/
  now : Timestamp
  /-- The store it is sent to. -/
  storeId : Uuid
  /-- Who sent it. -/
  actor : Actor
  /-- The row. -/
  row : PushRow
  deriving DecidableEq, Repr

/-- What a row leaves. -/
def SentRow.apply (sent : SentRow) (db : Db) : Db :=
  (pushRow sent.now sent.storeId sent.actor (Outcome.empty, db) sent.row).2

/-- What rows leave, one after another. -/
def runRows (db : Db) (sent : List SentRow) : Db := sent.foldl (fun db row => row.apply db) db

/-- A push as it reaches the server. -/
structure Batch where
  /-- The server's clock. -/
  now : Timestamp
  /-- The store it is sent to. -/
  storeId : Uuid
  /-- Who sent it. -/
  actor : Actor
  /-- The rows. -/
  request : PushRequest
  deriving DecidableEq, Repr

/-- The rows of a push. -/
def Batch.rows (batch : Batch) : List SentRow :=
  (SyncPush.rows batch.now batch.request).map fun row =>
    ⟨batch.now, batch.storeId, batch.actor, row⟩

/-- The rows of pushes sent one after another. -/
def sentRows (batches : List Batch) : List SentRow := batches.flatMap Batch.rows

/-- Whether a row names a record, to save or record it. -/
def SentRow.Names (sent : SentRow) (id : Uuid) (kind : Deletable) : Prop :=
  match sent.row, kind with
  | .product request, .product => request.id = some id
  | .sale request, .sale => request.id = some id
  | .expense request, .expense => request.id = some id
  | .withdrawal request, .withdrawal => request.id = some id
  | _, _ => False

/-- Whether a row brings a removed record back: an accepted product,
expense or withdrawal whose identifier is that of a removed one. -/
def SentRow.Revives (sent : SentRow) (db : Db) (id : Uuid) : Prop :=
  match sent.row with
  | .product request => request.id = some id ∧ ∃ p, db.products.find? id = some p ∧
      p.deletedAt ≠ none ∧ p.storeId = sent.storeId ∧ sent.actor.can .manageProducts = true ∧
      ¬moneyFromF64 request.sellingPrice < savedCost sent.actor request none ∧
      ¬BarcodeTaken sent.storeId id (trimmed request.barcode) db.products
  | .expense request => request.id = some id ∧ ∃ e, db.expenses.find? id = some e ∧
      e.deletedAt ≠ none ∧ e.storeId = sent.storeId ∧ sent.actor.can .recordExpenses = true ∧
      (sent.actor.isOwner || sqlEq e.recordedByStaffId sent.actor.staffId) = true ∧
      ∃ category, ExpenseService.parseCategory request.category = .ok category
  | .withdrawal request => request.id = some id ∧ ∃ w, db.ownerWithdrawals.find? id = some w ∧
      w.deletedAt ≠ none ∧ w.storeId = sent.storeId ∧ sent.actor.isOwner = true
  | _ => False

/-- What the server has on the shelf of a product. -/
def stockOf (db : Db) (id : Uuid) : Option Quantity :=
  (db.products.find? id).map Product.stockQuantity

/-- What the lines of a sale that name a product give back of it when the sale is
undone. -/
def givenBack (now : Timestamp) (saleId productId : Uuid) (db : Db) : Quantity :=
  ((joinedLine db.joins now saleId productId db.saleItems).map SaleItem.quantity).getD 0

/-- Whether a row, once it is accepted, leaves a product's stock as it is: a sale
gives back what it takes, a movement is known already or finds what it counts, a
removed sale gives nothing back. A product, an expense and a withdrawal never
move stock, and no row moves that of another store. -/
def SentRow.LeavesStock (sent : SentRow) (db : Db) (id : Uuid) (p : Product) : Prop :=
  p.storeId = sent.storeId →
    match sent.row with
    | .sale request =>
      match db.sales.find? (request.id.getD (Uuid.newV4 db.sales 0)) with
      | none => soldIn request.items id = 0
      | some sale => sale.deletedAt = none →
        givenBack sent.now (request.id.getD (Uuid.newV4 db.sales 0)) id db =
          soldIn request.items id
    | .movement request => request.productId = id →
      db.stockMovements.find? (request.id.getD (Uuid.newV4 db.stockMovements 0)) = none →
        ∀ kind effect, stockEffect (toLowercase (trim request.movement))
            (quantityFromF64 request.quantity) = .ok (kind, effect) →
          effect.delta p.stockQuantity = 0
    | .deletion request => request.entity = "sale" →
      (findLive sent.storeId request.id db).isSome → givenBack sent.now request.id id db = 0
    | _ => True

/-- Whether the server accepts a row. -/
def SentRow.Accepted (sent : SentRow) (db : StoredDb) : Prop :=
  ∃ id db', DecimalRange.apply sent.now sent.storeId sent.actor sent.row db = some (.ok (id, db'))

/-- Whether a row neither brings a removed record back nor moves the stock of
products. -/
structure SentRow.Spares (sent : SentRow) (db : Db) (id : Uuid) (kind : Deletable)
    (products : Uuid → Prop) : Prop where
  /-- Nothing comes back. -/
  lasting : sent.Names id kind → ¬sent.Revives db id
  /-- Nothing moves. -/
  stock : ∀ product p, products product → db.products.find? product = some p →
    sent.LeavesStock db product p

/-- What a push leaves. -/
def Batch.left (batch : Batch) (db : StoredDb) : StoredDb :=
  rowsLeft batch.now batch.storeId batch.actor (SyncPush.rows batch.now batch.request) db

/-- What pushes leave, one after another. -/
def runBatches (db : StoredDb) (batches : List Batch) : StoredDb :=
  batches.foldl (fun db batch => batch.left db) db

/-- Whether the rows of a push that are accepted spare a record and products, up
to the row that aborts the push. -/
def RowsSpare (now : Timestamp) (storeId : Uuid) (actor : Actor) (id : Uuid) (kind : Deletable)
    (products : Uuid → Prop) : List PushRow → StoredDb → Prop
  | [], _ => True
  | row :: rest, db =>
    (SentRow.Accepted ⟨now, storeId, actor, row⟩ db →
      SentRow.Spares ⟨now, storeId, actor, row⟩ db.1 id kind products) ∧
    ((DecimalRange.apply now storeId actor row db).isSome →
      RowsSpare now storeId actor id kind products rest (rowLeft now storeId actor row db))

/-- Whether a push spares a record and products. -/
def Batch.Spares (batch : Batch) (db : StoredDb) (id : Uuid) (kind : Deletable)
    (products : Uuid → Prop) : Prop :=
  RowsSpare batch.now batch.storeId batch.actor id kind products
    (SyncPush.rows batch.now batch.request) db

/-- The states that rows go through. -/
def rowStates (now : Timestamp) (storeId : Uuid) (actor : Actor) :
    List PushRow → StoredDb → List StoredDb
  | [], db => [db]
  | row :: rest, db => db ::
    if (DecimalRange.apply now storeId actor row db).isSome then
      rowStates now storeId actor rest (rowLeft now storeId actor row db)
    else []

/-- The states that pushes go through. -/
def runStates : List Batch → StoredDb → List StoredDb
  | [], db => [db]
  | batch :: rest, db =>
    rowStates batch.now batch.storeId batch.actor (SyncPush.rows batch.now batch.request) db ++
      runStates rest (batch.left db)

/-- The products whose stock a record has a part in: a product its own, a sale
that of the products its lines name. -/
def Affects (db : Db) (id : Uuid) : Deletable → Uuid → Prop
  | .product, product => product = id
  | .sale, product => ∃ k item, db.saleItems.find? k = some item ∧ item.saleId = id ∧
      item.productId = some product
  | .expense, _ => False
  | .withdrawal, _ => False

/-- The products whose stock a record had a part in at some point of a run. -/
def Affected (db : StoredDb) (batches : List Batch) (id : Uuid) (kind : Deletable)
    (product : Uuid) : Prop :=
  ∃ state ∈ runStates batches db, Affects state.1 id kind product

/-- How a deletion names a kind of record. -/
def Deletable.entity : Deletable → String
  | .product => "product"
  | .sale => "sale"
  | .expense => "expense"
  | .withdrawal => "withdrawal"

/-- A push that was sent already, before a record was removed, and does not
itself ask for that. -/
structure Resent (db : StoredDb) (before : List Batch) (again : Batch) (id : Uuid)
    (kind : Deletable) : Prop where
  /-- It was sent when the record was not removed yet. -/
  sent : ∃ first old between, before = first ++ old :: between ∧ again.storeId = old.storeId ∧
    again.request = old.request ∧ ¬Removed (runBatches db first).1 id kind
  /-- The record is removed by now. -/
  removed : Removed (runBatches db before).1 id kind
  /-- The push does not remove it. -/
  without : ⟨kind.entity, id⟩ ∉ again.request.deletions

/-- Whether removal is final along a run: an old push that is sent again leaves
removed what is removed by then, and the stock of the products it affected. -/
structure RemovalFinal (db : StoredDb) (batches : List Batch) : Prop where
  /-- Nothing comes back. -/
  removed : ∀ before again rest, batches = before ++ again :: rest → ∀ id kind,
    Resent db before again id kind → Removed (again.left (runBatches db before)).1 id kind
  /-- Nothing moves. -/
  stock : ∀ before again rest, batches = before ++ again :: rest → ∀ id kind,
    Resent db before again id kind → ∀ product q, Affected db before id kind product →
      stockOf (runBatches db before).1 product = some q →
      stockOf (again.left (runBatches db before)).1 product = some q

/-- A removed row survives a write, unless the write is over it and leaves
it live. -/
theorem removed_put {ρ : Type} {t : Table Uuid ρ} {deletedAt : ρ → Option Timestamp}
    {id key : Uuid} {row : ρ}
    (hkey : id = key → ∀ r, t.find? key = some r → deletedAt r ≠ none → deletedAt row ≠ none)
    (h : ∃ r, t.find? id = some r ∧ deletedAt r ≠ none) :
    ∃ r, (t.put key row).find? id = some r ∧ deletedAt r ≠ none := by
  obtain ⟨r, hr, hgone⟩ := h
  by_cases hid : id = key
  · subst hid
    exact ⟨row, Table.find?_put_self _ _ _, hkey rfl r hr hgone⟩
  · exact ⟨r, by rw [Table.find?_put_ne _ _ hid, hr], hgone⟩

/-- The log holds no records. -/
theorem Removed.sameRows {db db' : Db} (h : SameRows db db') {id : Uuid} {kind : Deletable}
    (hr : Removed db id kind) : Removed db' id kind := by
  rw [h]
  cases kind <;> exact hr

/-- A product is removed in the catalogue. -/
theorem Removed.of_catalogue {db db' : Db} (h : catalogue db' = catalogue db) {id : Uuid}
    (hr : Removed db id .product) : Removed db' id .product := by
  obtain ⟨p, hp, hgone⟩ := hr
  have hfind : (db'.products.find? id).map catalogued = (db.products.find? id).map catalogued := by
    rw [← find?_catalogue, ← find?_catalogue, h]
  rw [hp, Option.map_some, Option.map_eq_some_iff] at hfind
  obtain ⟨p', hp', hsame⟩ := hfind
  have hdeleted : (catalogued p').deletedAt = (catalogued p).deletedAt := by rw [hsame]
  exact ⟨p', hp', fun hlive => hgone (hdeleted.symm.trans hlive)⟩

/-- Recording a sale brings nothing back. -/
theorem Removed.recorded {now : Timestamp} {drawn : ℕ → Uuid} {sale : PreparedSale}
    {recorder : Recorder} {db db' : Db} (h : SaleRecorded now drawn sale recorder db db') {id : Uuid}
    {kind : Deletable} (hr : Removed db id kind) : Removed db' id kind := by
  cases kind with
  | product => exact hr.of_catalogue (catalogue_recorded h)
  | sale =>
    cases h with
    | voided existing stored own gone same => rwa [same]
    | new unknown writable written =>
      unfold Removed
      rw [written.sales]
      refine removed_put (fun _ s hs _ => ?_) hr
      rw [unknown] at hs
      cases hs
    | again existing stored own live may writable written =>
      unfold Removed
      rw [written.sales]
      refine removed_put (fun _ s hs hgone => ?_) hr
      have hsame : some existing = some s := stored.symm.trans hs
      cases hsame
      exact absurd live hgone
  | expense =>
    cases h with
    | voided existing stored own gone same => rwa [same]
    | new unknown writable written =>
      unfold Removed
      rwa [written.expenses]
    | again existing stored own live may writable written =>
      unfold Removed
      rwa [written.expenses]
  | withdrawal =>
    cases h with
    | voided existing stored own gone same => rwa [same]
    | new unknown writable written =>
      unfold Removed
      rwa [written.ownerWithdrawals]
    | again existing stored own live may writable written =>
      unfold Removed
      rwa [written.ownerWithdrawals]

/-- A saved product brings back only the product it revives. -/
theorem Removed.saved {now : Timestamp} {storeId : Uuid} {actor : Actor}
    {request : SaveProductRequest} {row : Product} {db : Db} {id : Uuid} {kind : Deletable}
    (hr : Removed db id kind) (may : actor.can .manageProducts = true)
    (priced : ¬moneyFromF64 request.sellingPrice <
      savedCost actor request (find storeId (savedId request db) db))
    (upserted : upsertRow now storeId
      (savedValues actor request (find storeId (savedId request db) db))
      (db.products.find? (savedId request db)) = some row)
    (coded : ¬BarcodeTaken storeId (savedId request db) row.barcode db.products)
    (hno : SentRow.Names ⟨now, storeId, actor, .product request⟩ id kind →
      ¬SentRow.Revives ⟨now, storeId, actor, .product request⟩ db id) :
    Removed { db with products := db.products.put (savedId request db) row } id kind := by
  cases kind with
  | product =>
    refine removed_put (fun hid p hp hgone => ?_) hr
    subst hid
    refine absurd ?_ (hno (named_of_find hp))
    have hlisted : find storeId (savedId request db) db = none := by
      rw [Option.eq_none_iff_forall_ne_some]
      intro q hq
      obtain ⟨hfound, -, hlive⟩ := find_eq_some.mp hq
      rw [hp] at hfound
      cases hfound
      exact hgone hlive
    have hup := upsertRow_eq_some upserted
    have hbarcode : row.barcode = trimmed request.barcode := hup.barcode
    rw [hlisted] at priced
    rw [hbarcode] at coded
    exact ⟨named_of_find hp, p, hp, hgone, hup.own p hp, may, priced, coded⟩
  | sale => exact hr
  | expense => exact hr
  | withdrawal => exact hr

/-- A movement leaves its product listed. -/
theorem Removed.moved {storeId productId movementId : Uuid} {p row : Product}
    {entry : StockMovement} {db : Db} {id : Uuid} {kind : Deletable}
    (hr : Removed db id kind) (listed : find storeId productId db = some p) :
    Removed { db with
      stockMovements := db.stockMovements.put movementId entry
      products := db.products.put productId row } id kind := by
  cases kind with
  | product =>
    refine removed_put (fun _ p hp hgone => ?_) hr
    obtain ⟨hfound, -, hlive⟩ := find_eq_some.mp listed
    rw [hp] at hfound
    cases hfound
    exact absurd hlive hgone
  | sale => exact hr
  | expense => exact hr
  | withdrawal => exact hr

/-- A recorded expense brings back only the expense it revives. -/
theorem Removed.spent {now : Timestamp} {storeId : Uuid} {actor : Actor}
    {request : RecordExpenseRequest} {key : Uuid} {values : ExpenseService.ExpenseValues}
    {row : Expense} {db : Db} {id : Uuid} {kind : Deletable} (hr : Removed db id kind)
    (may : actor.can .recordExpenses = true)
    (named : key = request.id.getD (Uuid.newV4 db.expenses 0))
    (category : ExpenseService.parseCategory request.category = .ok values.category)
    (upserted : ExpenseService.upsertRow now storeId values actor (db.expenses.find? key) =
      some row)
    (hno : SentRow.Names ⟨now, storeId, actor, .expense request⟩ id kind →
      ¬SentRow.Revives ⟨now, storeId, actor, .expense request⟩ db id) :
    Removed { db with expenses := db.expenses.put key row } id kind := by
  cases kind with
  | product => exact hr
  | sale => exact hr
  | expense =>
    refine removed_put (fun hid e he hgone => ?_) hr
    subst hid named
    refine absurd ?_ (hno (named_of_find he))
    rw [he, ExpenseService.upsertRow] at upserted
    split_ifs at upserted with hmay
    exact ⟨named_of_find he, e, he, hgone, hmay.1, may, hmay.2, _, category⟩
  | withdrawal => exact hr

/-- A recorded withdrawal brings back only the withdrawal it revives. -/
theorem Removed.withdrawn {now : Timestamp} {storeId : Uuid} {actor : Actor}
    {request : RecordWithdrawalRequest} {key : Uuid}
    {values : WithdrawalService.WithdrawalValues} {row : OwnerWithdrawal} {db : Db} {id : Uuid}
    {kind : Deletable} (hr : Removed db id kind) (may : actor.isOwner = true)
    (named : key = request.id.getD (Uuid.newV4 db.ownerWithdrawals 0))
    (upserted : WithdrawalService.upsertRow now storeId values (db.ownerWithdrawals.find? key) =
      some row)
    (hno : SentRow.Names ⟨now, storeId, actor, .withdrawal request⟩ id kind →
      ¬SentRow.Revives ⟨now, storeId, actor, .withdrawal request⟩ db id) :
    Removed { db with ownerWithdrawals := db.ownerWithdrawals.put key row } id kind := by
  cases kind with
  | product => exact hr
  | sale => exact hr
  | expense => exact hr
  | withdrawal =>
    refine removed_put (fun hid w hw hgone => ?_) hr
    subst hid named
    refine absurd ?_ (hno (named_of_find hw))
    rw [hw, WithdrawalService.upsertRow] at upserted
    split_ifs at upserted with hown
    exact ⟨named_of_find hw, w, hw, hgone, hown, may⟩

/-- A row brings nothing back but what it revives. -/
theorem Removed.apply {sent : SentRow} {db : Db} {id : Uuid} {kind : Deletable}
    (hr : Removed db id kind) (hno : sent.Names id kind → ¬sent.Revives db id) :
    Removed (sent.apply db) id kind := by
  obtain ⟨now, storeId, actor, row⟩ := sent
  unfold SentRow.apply
  cases hok : row.apply now storeId actor db with
  | error e =>
    rw [pushRow_of_error (Outcome.empty, db) hok]
    exact hr
  | ok result =>
    obtain ⟨rowId, db'⟩ := result
    rw [pushRow_of_ok (Outcome.empty, db) hok]
    dsimp only
    cases effect_of_apply hok with
    | saved may priced upserted coded effect =>
      exact (hr.saved may priced upserted coded hno).sameRows effect
    | sold asked recorded effect => exact (hr.recorded recorded).sameRows effect
    | movedBefore may => exact hr
    | moved may ofStore product cost movement listed unknown effect =>
      exact (hr.moved listed).sameRows effect
    | spent may named category upserted effect =>
      exact (hr.spent may named category upserted hno).sameRows effect
    | withdrawn may named upserted effect =>
      exact (hr.withdrawn may named upserted hno).sameRows effect
    | nothing => exact hr
    | voided entity may live effect =>
      refine Removed.sameRows effect ?_
      cases kind with
      | product => exact hr.of_catalogue (catalogue_undoSale _)
      | sale => exact removed_put (fun _ _ _ _ => Option.some_ne_none now) hr
      | expense => exact hr
      | withdrawal => exact hr
    | unspent entity may live effect =>
      refine Removed.sameRows effect ?_
      cases kind with
      | product => exact hr
      | sale => exact hr
      | expense => exact removed_put (fun _ _ _ _ => Option.some_ne_none now) hr
      | withdrawal => exact hr
    | unwithdrawn entity may live effect =>
      refine Removed.sameRows effect ?_
      cases kind with
      | product => exact hr
      | sale => exact hr
      | expense => exact hr
      | withdrawal => exact removed_put (fun _ _ _ _ => Option.some_ne_none now) hr
    | unlisted entity may live effect =>
      refine Removed.sameRows effect ?_
      cases kind with
      | product => exact removed_put (fun _ _ _ _ => Option.some_ne_none now) hr
      | sale => exact hr
      | expense => exact hr
      | withdrawal => exact hr

/-- An accepted product brings its row back. -/
theorem product_revived {now : Timestamp} {storeId : Uuid} {actor : Actor}
    {request : SaveProductRequest} {db : Db} {id : Uuid}
    (h : SentRow.Revives ⟨now, storeId, actor, .product request⟩ db id) :
    ¬Removed (SentRow.apply ⟨now, storeId, actor, .product request⟩ db) id .product := by
  obtain ⟨hid, p, hp, hgone, hown, hcan, hpriced, hcoded⟩ := h
  have hkey : savedId request db = id := by rw [savedId, hid]; rfl
  have hlisted : find storeId (savedId request db) db = none := by
    rw [hkey, Option.eq_none_iff_forall_ne_some]
    intro q hq
    obtain ⟨hfound, -, hlive⟩ := find_eq_some.mp hq
    rw [hp] at hfound
    cases hfound
    exact hgone hlive
  have hwritten : ∃ row, upsertRow now storeId (savedValues actor request none)
      (db.products.find? id) = some row := by
    rw [hp, upsertRow, if_pos hown]
    exact ⟨_, rfl⟩
  obtain ⟨row, hrow⟩ := hwritten
  have hup := upsertRow_eq_some hrow
  have hsave : save now storeId actor request db = .ok ((id, row),
      recordAudit? now actor (describeSave now storeId id none row)
        { db with products := db.products.put id row }) := by
    rw [save_eq_ok]
    dsimp only
    rw [hlisted, hkey]
    exact ⟨hcan, hpriced, row, hrow, by rwa [hup.barcode], rfl, rfl⟩
  rw [SentRow.apply, ← pushProduct_eq, pushProduct, hsave]
  rintro ⟨q, hq, hstill⟩
  rw [recordAudit?_products, Table.find?_put_self] at hq
  cases hq
  exact hstill hup.live

/-- An accepted expense brings its row back. -/
theorem expense_revived {now : Timestamp} {storeId : Uuid} {actor : Actor}
    {request : RecordExpenseRequest} {db : Db} {id : Uuid}
    (h : SentRow.Revives ⟨now, storeId, actor, .expense request⟩ db id) :
    ¬Removed (SentRow.apply ⟨now, storeId, actor, .expense request⟩ db) id .expense := by
  obtain ⟨hid, e, he, -, hown, hcan, hmay, category, hcategory⟩ := h
  rw [SentRow.apply, ← pushExpense_eq, pushExpense]
  simp only [ExpenseService.record, Actor.require_eq_ok.mpr hcan, hcategory, hid, Option.getD_some,
    ExpenseService.upsert, he, ExpenseService.upsertRow, bind, Except.bind]
  rw [if_pos ⟨hown, hmay⟩]
  rintro ⟨q, hq, hstill⟩
  dsimp only [Option.map_some, Option.isNone_some, Bool.false_eq_true] at hq
  rw [if_neg Bool.false_ne_true, Table.find?_put_self] at hq
  cases hq
  exact hstill rfl

/-- An accepted withdrawal brings its row back. -/
theorem withdrawal_revived {now : Timestamp} {storeId : Uuid} {actor : Actor}
    {request : RecordWithdrawalRequest} {db : Db} {id : Uuid}
    (h : SentRow.Revives ⟨now, storeId, actor, .withdrawal request⟩ db id) :
    ¬Removed (SentRow.apply ⟨now, storeId, actor, .withdrawal request⟩ db) id .withdrawal := by
  obtain ⟨hid, w, hw, -, hown, howner⟩ := h
  rw [SentRow.apply, ← pushWithdrawal_eq, pushWithdrawal]
  simp only [WithdrawalService.record, Actor.requireOwner_eq_ok.mpr howner, hid, Option.getD_some,
    WithdrawalService.upsert, hw, WithdrawalService.upsertRow, bind, Except.bind]
  rw [if_pos hown]
  rintro ⟨q, hq, hstill⟩
  dsimp only [Option.map_some, Option.isNone_some, Bool.false_eq_true] at hq
  rw [if_neg Bool.false_ne_true, Table.find?_put_self] at hq
  cases hq
  exact hstill rfl

/-- A row that revives the record it names brings it back. -/
theorem not_removed_of_revives {sent : SentRow} {db : Db} {id : Uuid} {kind : Deletable}
    (hnames : sent.Names id kind) (h : sent.Revives db id) : ¬Removed (sent.apply db) id kind := by
  obtain ⟨now, storeId, actor, row⟩ := sent
  cases row with
  | product request =>
    cases kind with
    | product => exact product_revived h
    | sale => exact hnames.elim
    | expense => exact hnames.elim
    | withdrawal => exact hnames.elim
  | expense request =>
    cases kind with
    | expense => exact expense_revived h
    | product => exact hnames.elim
    | sale => exact hnames.elim
    | withdrawal => exact hnames.elim
  | withdrawal request =>
    cases kind with
    | withdrawal => exact withdrawal_revived h
    | product => exact hnames.elim
    | sale => exact hnames.elim
    | expense => exact hnames.elim
  | sale request => exact h.elim
  | movement request => exact h.elim
  | deletion request => exact h.elim

/-- A row that revives a record brings it back. -/
theorem removed_of_revives {sent : SentRow} {db : Db} {id : Uuid} (h : sent.Revives db id) :
    ∃ kind, Removed db id kind ∧ ¬Removed (sent.apply db) id kind := by
  obtain ⟨now, storeId, actor, row⟩ := sent
  cases row with
  | product request =>
    have hlive := product_revived h
    obtain ⟨-, p, hp, hgone, -⟩ := h
    exact ⟨.product, ⟨p, hp, hgone⟩, hlive⟩
  | expense request =>
    have hlive := expense_revived h
    obtain ⟨-, e, he, hgone, -⟩ := h
    exact ⟨.expense, ⟨e, he, hgone⟩, hlive⟩
  | withdrawal request =>
    have hlive := withdrawal_revived h
    obtain ⟨-, w, hw, hgone, -⟩ := h
    exact ⟨.withdrawal, ⟨w, hw, hgone⟩, hlive⟩
  | sale request => exact h.elim
  | movement request => exact h.elim
  | deletion request => exact h.elim

/-- The rows of a push do what the push does. -/
theorem runRows_batch (db : Db) (batch : Batch) :
    runRows db batch.rows = (push batch.now batch.storeId batch.actor batch.request db).2 := by
  have hrows : ∀ (rows : List PushRow) (s : PushState),
      runRows s.2 (rows.map fun row => ⟨batch.now, batch.storeId, batch.actor, row⟩) =
        (pushRows batch.now batch.storeId batch.actor s rows).2 := by
    intro rows
    induction rows with
    | nil => exact fun s => rfl
    | cons row rest ih =>
      intro s
      have hfirst : SentRow.apply ⟨batch.now, batch.storeId, batch.actor, row⟩ s.2 =
          (pushRow batch.now batch.storeId batch.actor s row).2 := by
        unfold SentRow.apply pushRow
        cases row.apply batch.now batch.storeId batch.actor s.2 <;> rfl
      rw [List.map_cons, runRows, List.foldl_cons, hfirst]
      exact ih (pushRow batch.now batch.storeId batch.actor s row)
  rw [push_eq_pushRows]
  exact hrows (SyncPush.rows batch.now batch.request) (Outcome.empty, db)

/-- A push that is answered leaves what its rows leave. -/
theorem Batch.left_of_push {batch : Batch} {db db' : StoredDb} {outcome : PushOutcome}
    (h : DecimalRange.push batch.now batch.storeId batch.actor batch.request db =
      some (outcome, db')) : batch.left db = db' := (DecimalRange.push_left h).symm

theorem stockOf_of_find {db : Db} {id : Uuid} {p : Product} (h : db.products.find? id = some p) :
    stockOf db id = some p.stockQuantity := by
  rw [stockOf, h, Option.map_some]

/-- A product's stock after a sale is recorded. -/
theorem stockOf_recorded {now : Timestamp} {drawn : ℕ → Uuid} {sale : PreparedSale}
    {recorder : Recorder} {db db' : Db} {id : Uuid} {p : Product}
    (hp : db.products.find? id = some p) (h : SaleRecorded now drawn sale recorder db db') :
    stockOf db' id = some p.stockQuantity ↔ (p.storeId = sale.storeId →
      match db.sales.find? sale.id with
      | none => takenBy sale.lines id = 0
      | some existing => existing.deletedAt = none →
        givenBack now sale.id id db = takenBy sale.lines id) := by
  cases h with
  | voided existing stored own gone same =>
    rw [stored, same, stockOf_of_find hp]
    exact iff_of_true rfl fun _ hlive => absurd hlive gone
  | new unknown writable written =>
    rw [unknown, stockOf, written.products, Option.map_map]
    change (db.products.find? id).map _ = _ ↔ _
    rw [hp, Option.map_some, Option.some.injEq, Function.comp_apply]
    by_cases hs : p.storeId = sale.storeId
    · rw [deducted_stockQuantity now _ id hs, sub_eq_self]
      exact ⟨fun h _ => h, fun h => h hs⟩
    · rw [deducted, if_neg fun hc => hs hc.1]
      exact iff_of_true rfl fun hc => absurd hc hs
  | again existing stored own live may writable written =>
    rw [stored, stockOf, written.products, Option.map_map]
    change ((undoSale now sale.id sale.storeId db).products.find? id).map _ = _ ↔ _
    rw [undoSale_products, hp, Option.map_some, Option.map_some, Option.some.injEq,
      Function.comp_apply]
    by_cases hs : p.storeId = sale.storeId
    · rw [deducted_stockQuantity now _ id (by rw [restored_storeId, hs]),
        restored_stockQuantity now fun _ _ => hs]
      change p.stockQuantity + givenBack now sale.id id db - takenBy sale.lines id = _ ↔ _
      constructor
      · intro heq _ _
        linarith
      · intro heq
        rw [heq hs live, add_sub_cancel_right]
    · have hback : restored db.joins now sale.id sale.storeId db.saleItems id p = p := by
        unfold restored
        split
        · rw [if_neg hs]
        · rfl
      rw [hback, deducted, if_neg fun hc => hs hc.1]
      exact iff_of_true rfl fun hc => absurd hc hs

/-- A product's stock after a sale is voided. -/
theorem stockOf_undoSale {now : Timestamp} {saleId storeId : Uuid} {db : Db} {id : Uuid}
    {p : Product} (hp : db.products.find? id = some p) :
    stockOf (undoSale now saleId storeId db) id = some p.stockQuantity ↔
      (p.storeId = storeId → givenBack now saleId id db = 0) := by
  rw [stockOf, undoSale_products, hp, Option.map_some, Option.map_some, Option.some.injEq]
  by_cases hs : p.storeId = storeId
  · rw [restored_stockQuantity now fun _ _ => hs, add_eq_left]
    exact ⟨fun h _ => h, fun h => h hs⟩
  · have hback : restored db.joins now saleId storeId db.saleItems id p = p := by
      unfold restored
      split
      · rw [if_neg hs]
      · rfl
    rw [hback]
    exact iff_of_true rfl fun hc => absurd hc hs

section

variable {now : Timestamp} {storeId : Uuid} {actor : Actor} {db db' : Db} {id : Uuid} {p : Product}

/-- A sale row leaves a product's stock exactly when it gives back what it takes. -/
theorem stockOf_sale {request : RecordSaleRequest} {detail : SaleService.SaleDetail}
    (hp : db.products.find? id = some p)
    (h : SaleService.record now storeId actor request db = .ok (detail, db')) :
    stockOf db' id = some p.stockQuantity ↔
      SentRow.LeavesStock ⟨now, storeId, actor, .sale request⟩ db id p := by
  cases effect_of_sale h with
  | sold asked recorded effect =>
    rename_i sale db₁
    obtain ⟨lines, hlines, hres⟩ := @resolveLines_visible _ actor _ _
      (resolvable_visible (resolveLines_eq_ok asked.lines).1)
    rw [asked.lines] at hlines
    cases hlines
    have hsame : stockOf db' id = stockOf db₁ id := by rw [effect]; rfl
    rw [hsame, stockOf_recorded hp recorded, asked.id, asked.ofStore, takenBy_of_resolves hres]
    rfl

/-- A movement row leaves a product's stock exactly when it is of another
product, known already, or finds what it counts. -/
theorem stockOf_movement {request : RecordMovementRequest} (hp : db.products.find? id = some p)
    (h : InventoryService.record now storeId actor request db = .ok db') :
    stockOf db' id = some p.stockQuantity ↔
      SentRow.LeavesStock ⟨now, storeId, actor, .movement request⟩ db id p := by
  obtain ⟨_, -, h⟩ := bind_eq_ok.mp h
  obtain ⟨⟨kind, effect⟩, heffect, h⟩ := bind_eq_ok.mp h
  dsimp only at h
  split_ifs at h
  obtain ⟨⟨applied, db₁⟩, hmove, h⟩ := bind_eq_ok.mp h
  obtain ⟨q, hq, ⟨hknown, rfl, hdb⟩ | ⟨hnew, rfl, hdb⟩⟩ := recordMovement_eq_ok.mp hmove
  · rw [hdb] at h
    cases h
    refine iff_of_true (stockOf_of_find hp) fun _ _ hnone => ?_
    change (db.stockMovements.find? (request.id.getD _)).isSome = true at hknown
    rw [hnone] at hknown
    cases hknown
  · obtain ⟨events, hlog⟩ := logMovement_eq now actor
      (entryOf now storeId actor request kind effect db) (quantityFromF64 request.quantity)
      (some ⟨q.name, (entryOf now storeId actor request kind effect db).effect.delta
        q.stockQuantity⟩) db₁
    rw [hlog] at h
    cases h
    obtain ⟨hfound, hstore, -⟩ := find_eq_some.mp hq
    have hproducts : db₁.products = db.products.put request.productId
        (movedProduct now (effect.delta q.stockQuantity)
          (entryOf now storeId actor request kind effect db).unitCost q) := by
      rw [hdb]
      rfl
    change (db₁.products.find? id).map Product.stockQuantity = _ ↔ _
    rw [hproducts]
    by_cases hid : id = request.productId
    · subst hid
      change db.products.find? request.productId = some q at hfound
      rw [hp] at hfound
      cases hfound
      rw [Table.find?_put_self, Option.map_some, Option.some.injEq]
      change p.stockQuantity + effect.delta p.stockQuantity = _ ↔ _
      rw [add_eq_left]
      constructor
      · intro hzero _ _ _ kind' effect' heffect'
        rw [heffect] at heffect'
        cases heffect'
        exact hzero
      · exact fun hall => hall hstore rfl hnew kind effect heffect
    · rw [Table.find?_put_ne _ _ hid, hp, Option.map_some]
      exact iff_of_true rfl fun _ hsame => absurd hsame.symm hid

/-- A deletion row leaves a product's stock exactly when it voids no live sale
that gives some of it back. -/
theorem stockOf_removal {request : DeletionRequest} (hp : db.products.find? id = some p)
    (h : delete now storeId actor request db = .ok db') :
    stockOf db' id = some p.stockQuantity ↔
      SentRow.LeavesStock ⟨now, storeId, actor, .deletion request⟩ db id p := by
  by_cases hsale : request.entity = "sale"
  · cases hlive : findLive storeId request.id db with
    | none =>
      have hkept : db' = db := by
        rcases removeEntity_of_delete h with hr | hr
        · rw [removeEntity, if_pos hsale, SaleService.void] at hr
          obtain ⟨_, -, hr⟩ := bind_eq_ok.mp hr
          rw [SaleRepository.void, hlive] at hr
          cases hr
        · exact hr
      rw [hkept, stockOf_of_find hp]
      refine iff_of_true rfl fun _ _ hsome => ?_
      change (findLive storeId request.id db).isSome = true at hsome
      rw [hlive] at hsome
      cases hsome
    | some sale =>
      have hvoided : stockOf db' id =
          stockOf (undoSale now request.id storeId (markVoided now request.id sale db)) id := by
        rw [delete, removeEntity, if_pos hsale, SaleService.void, Actor.require] at h
        split_ifs at h
        · rw [SaleRepository.void, hlive] at h
          cases h
          rfl
        · cases h
      rw [hvoided]
      have hundo := @stockOf_undoSale now request.id storeId (markVoided now request.id sale db) id _ hp
      rw [hundo]
      constructor
      · exact fun hzero hs _ _ => hzero hs
      · exact fun hall hs => hall hs hsale (by
          change (findLive storeId request.id db).isSome = true
          rw [hlive]
          rfl)
  · have hstock : stockOf db' id = stockOf db id := by
      rcases removeEntity_of_delete h with hr | hr
      · cases effect_of_removal hr with
        | nothing => rfl
        | voided entity may live effect => exact absurd entity hsale
        | unspent entity may live effect => rw [effect]; rfl
        | unwithdrawn entity may live effect => rw [effect]; rfl
        | unlisted entity may live effect =>
          rename_i q
          rw [effect]
          change ((db.products.put request.id _).find? id).map Product.stockQuantity = _
          by_cases hid : id = request.id
          · subst hid
            rw [Table.find?_put_self, stockOf_of_find (find_eq_some.mp live).1]
            rfl
          · rw [Table.find?_put_ne _ _ hid]
            rfl
      · rw [hr]
    rw [hstock, stockOf_of_find hp]
    exact iff_of_true rfl fun _ he => absurd he hsale

/-- An accepted row leaves a product's stock exactly in these cases. -/
theorem stockOf_apply {row : PushRow} {rowId : Option Uuid} (hp : db.products.find? id = some p)
    (h : row.apply now storeId actor db = .ok (rowId, db')) :
    stockOf db' id = some p.stockQuantity ↔
      SentRow.LeavesStock ⟨now, storeId, actor, row⟩ db id p := by
  cases row with
  | product request =>
    obtain ⟨saved, hr⟩ := PushRow.apply_eq_ok h
    refine iff_of_true ?_ fun _ => trivial
    cases effect_of_save hr with
    | saved may priced upserted coded effect =>
      rename_i row
      rw [effect]
      change ((db.products.put (savedId request db) row).find? id).map Product.stockQuantity = _
      by_cases hid : id = savedId request db
      · subst hid
        rw [hp] at upserted
        rw [Table.find?_put_self, Option.map_some, (upsertRow_some upserted).2.2]
      · rw [Table.find?_put_ne _ _ hid, hp, Option.map_some]
  | sale request =>
    obtain ⟨detail, hr⟩ := PushRow.apply_eq_ok h
    exact stockOf_sale hp hr
  | movement request => exact stockOf_movement hp (PushRow.apply_eq_ok h)
  | expense request =>
    obtain ⟨saved, hr⟩ := PushRow.apply_eq_ok h
    refine iff_of_true ?_ fun _ => trivial
    cases effect_of_expense hr with
    | spent may named category upserted effect =>
      rw [effect]
      exact stockOf_of_find hp
  | withdrawal request =>
    obtain ⟨saved, hr⟩ := PushRow.apply_eq_ok h
    refine iff_of_true ?_ fun _ => trivial
    cases effect_of_withdrawal hr with
    | withdrawn may named upserted effect =>
      rw [effect]
      exact stockOf_of_find hp
  | deletion request =>
    obtain ⟨db₁, hr, he⟩ := map_eq_ok.mp h
    cases he
    exact stockOf_removal hp hr

end

/-- A known sale leaves a product's stock when it was voided, or gives back what
it takes. -/
theorem leavesStock_of_known {now : Timestamp} {storeId saleId : Uuid} {actor : Actor}
    {request : RecordSaleRequest} {db : Db} {sale : Sale} (hid : request.id = some saleId)
    (hsale : db.sales.find? saleId = some sale) {id : Uuid} (p : Product)
    (h : sale.deletedAt ≠ none ∨ givenBack now saleId id db = soldIn request.items id) :
    SentRow.LeavesStock ⟨now, storeId, actor, .sale request⟩ db id p := by
  intro _
  dsimp only
  rw [hid, Option.getD_some, hsale]
  exact fun hlive => h.resolve_left (not_not_intro hlive)

/-- A row that is not accepted changes nothing. -/
theorem rowLeft_of_not_accepted {sent : SentRow} {db : StoredDb} (h : ¬sent.Accepted db) :
    rowLeft sent.now sent.storeId sent.actor sent.row db = db := by
  unfold rowLeft
  split
  · rename_i id db' hok
    exact absurd ⟨id, db', hok⟩ h
  · rfl

/-- An accepted row spares a removed record and products exactly when the record
stays removed and the products' stock as it is. -/
theorem spares_iff {sent : SentRow} {db : StoredDb} {id : Uuid} {kind : Deletable}
    {products : Uuid → Prop} (hr : Removed db.1 id kind) (hacc : sent.Accepted db) :
    sent.Spares db.1 id kind products ↔
      Removed (rowLeft sent.now sent.storeId sent.actor sent.row db).1 id kind ∧
        ∀ product q, products product → stockOf db.1 product = some q →
          stockOf (rowLeft sent.now sent.storeId sent.actor sent.row db).1 product = some q := by
  obtain ⟨rowId, db', hok⟩ := hacc
  have happly := DecimalRange.ok_of_apply hok
  have hleft : sent.apply db.1 = db'.1 := by
    rw [SentRow.apply, pushRow_of_ok (Outcome.empty, db.1) happly]
  rw [DecimalRange.rowLeft_of_ok hok]
  constructor
  · rintro ⟨lasting, stock⟩
    refine ⟨hleft ▸ hr.apply lasting, fun product q hproduct hstock => ?_⟩
    obtain ⟨p, hp, rfl⟩ := Option.map_eq_some_iff.mp hstock
    exact (stockOf_apply hp happly).mpr (stock product p hproduct hp)
  · rintro ⟨hremoved, hstock⟩
    refine ⟨fun hnames hrevives => ?_, fun product p hproduct hp => ?_⟩
    · exact not_removed_of_revives hnames hrevives (hleft.symm ▸ hremoved)
    · exact (stockOf_apply hp happly).mp
        (hstock product p.stockQuantity hproduct (stockOf_of_find hp))

/-- One row: what it spares stays removed and as it is on the shelf. -/
theorem spared_row {sent : SentRow} {db : StoredDb} {id : Uuid} {kind : Deletable}
    {products : Uuid → Prop} (hr : Removed db.1 id kind)
    (h : sent.Accepted db → sent.Spares db.1 id kind products) :
    Removed (rowLeft sent.now sent.storeId sent.actor sent.row db).1 id kind ∧
      ∀ product q, products product → stockOf db.1 product = some q →
        stockOf (rowLeft sent.now sent.storeId sent.actor sent.row db).1 product = some q := by
  by_cases hacc : sent.Accepted db
  · exact (spares_iff hr hacc).mp (h hacc)
  · rw [rowLeft_of_not_accepted hacc]
    exact ⟨hr, fun _ _ _ hstock => hstock⟩

/-- Rows: what they spare stays removed and as it is on the shelf. -/
theorem spared_rows {now : Timestamp} {storeId : Uuid} {actor : Actor} {id : Uuid}
    {kind : Deletable} {products : Uuid → Prop} {rows : List PushRow} {db : StoredDb}
    (hr : Removed db.1 id kind) (h : RowsSpare now storeId actor id kind products rows db) :
    Removed (rowsLeft now storeId actor rows db).1 id kind ∧
      ∀ product q, products product → stockOf db.1 product = some q →
        stockOf (rowsLeft now storeId actor rows db).1 product = some q := by
  induction rows generalizing db with
  | nil => exact ⟨hr, fun _ _ _ hstock => hstock⟩
  | cons row rest ih =>
    obtain ⟨hrow, hrest⟩ := h
    by_cases hgo : (DecimalRange.apply now storeId actor row db).isSome
    · obtain ⟨hremoved, hstock⟩ := spared_row hr hrow
      obtain ⟨hfinal, hkept⟩ := ih hremoved (hrest hgo)
      rw [rowsLeft_of_isSome hgo]
      exact ⟨hfinal, fun product q hproduct hq =>
        hkept product q hproduct (hstock product q hproduct hq)⟩
    · rw [rowsLeft_of_not_isSome hgo]
      exact ⟨hr, fun _ _ _ hstock => hstock⟩

/-- Along every run of pushes removal is final, if each old push that is sent
again spares the removed record and the products whose stock it had a part in. -/
theorem removal_final (db : StoredDb) (batches : List Batch)
    (h : ∀ before again rest, batches = before ++ again :: rest → ∀ id kind,
      Resent db before again id kind →
        again.Spares (runBatches db before) id kind (Affected db before id kind)) :
    RemovalFinal db batches where
  removed before again rest hsplit id kind hresent :=
    (spared_rows hresent.removed (h before again rest hsplit id kind hresent)).1
  stock before again rest hsplit id kind hresent :=
    (spared_rows hresent.removed (h before again rest hsplit id kind hresent)).2

/-- The owner, on their phone. -/
def phoneOwner : Actor := ⟨⟨2⟩, "Ana", "Phone", none⟩

/-- Rice. -/
def rice : SaveProductRequest := ⟨some ⟨10⟩, "Rice", none, "kg", 40, 50, 20, 5⟩

/-- A sale of so much rice. -/
def riceSale (saleId : ℕ) (occurredAt : Timestamp) (quantity : ℚ) : RecordSaleRequest where
  id := some ⟨saleId⟩
  paymentMethod := none
  discountAmount := 0
  note := none
  occurredAt := some occurredAt
  items := [⟨some ⟨saleId + 10⟩, some ⟨10⟩, none, quantity, none, none⟩]

/-- Rice and two sales of it, as the first phone queued them. -/
def riceSold : Batch where
  now := 5
  storeId := ⟨1⟩
  actor := phoneOwner
  request := ⟨[rice], [], [riceSale 20 3 2, riceSale 21 4 3], [], [], []⟩

/-- The first sale is voided on another phone. -/
def riceVoided : Batch where
  now := 6
  storeId := ⟨1⟩
  actor := { phoneOwner with deviceName := "Tablet" }
  request := ⟨[], [], [], [], [], [⟨"sale", ⟨20⟩⟩]⟩

/-- Where a run of three pushes can be cut before a push. -/
theorem cut_of_three {a b c again : Batch} {before rest : List Batch}
    (h : [a, b, c] = before ++ again :: rest) :
    before = [] ∧ again = a ∨ before = [a] ∧ again = b ∨ before = [a, b] ∧ again = c := by
  rcases before with _ | ⟨x, _ | ⟨y, _ | ⟨z, before⟩⟩⟩
  · cases h
    exact Or.inl ⟨rfl, rfl⟩
  · cases h
    exact Or.inr (Or.inl ⟨rfl, rfl⟩)
  · cases h
    exact Or.inr (Or.inr ⟨rfl, rfl⟩)
  · injection h with _ h
    injection h with _ h
    injection h with _ h
    cases before <;> cases h

theorem removal_final_riceSold : RemovalFinal DecimalRange.unused
    [riceSold, riceVoided, { riceSold with now := 7 }] := by
  refine removal_final _ _ fun before again rest hsplit id kind hresent => ?_
  obtain ⟨⟨first, old, between, hsent, -, hsame, -⟩, -, -⟩ := hresent
  have hrows : SyncPush.rows 7 riceSold.request =
      [.product rice, .sale (riceSale 20 3 2), .sale (riceSale 21 4 3)] := by decide +kernel
  rcases cut_of_three hsplit with ⟨rfl, rfl⟩ | ⟨rfl, rfl⟩ | ⟨rfl, rfl⟩
  · cases first <;> cases hsent
  · cases first with
    | nil =>
      cases hsent
      exact absurd hsame (by decide +kernel)
    | cons _ first => cases first <;> cases hsent
  · rw [Batch.Spares]
    simp only [hrows, RowsSpare]
    refine ⟨fun _ => ⟨fun _ hrevives => ?_, fun _ _ _ _ _ => trivial⟩, fun _ =>
      ⟨fun _ => ⟨fun _ => False.elim, fun product p _ _ => ?_⟩, fun _ =>
        ⟨fun _ => ⟨fun _ => False.elim, fun product p _ hp => ?_⟩, fun _ => trivial⟩⟩⟩
    · obtain ⟨hid, p, hp, hgone, -⟩ := hrevives
      cases hid
      have hlive : ((runBatches DecimalRange.unused [riceSold, riceVoided]).1.products.find?
          ⟨10⟩).map Product.deletedAt = some none := by decide +kernel
      rw [hp, Option.map_some] at hlive
      exact hgone (Option.some.inj hlive)
    · -- the first sale stays voided
      have hvoided : ((rowLeft 7 ⟨1⟩ phoneOwner (.product rice) (runBatches DecimalRange.unused
          [riceSold, riceVoided])).1.sales.find? ⟨20⟩).map Sale.deletedAt = some (some 6) := by
        decide +kernel
      obtain ⟨sale, hsale, hgone⟩ := Option.map_eq_some_iff.mp hvoided
      exact @leavesStock_of_known 7 ⟨1⟩ ⟨20⟩ phoneOwner (riceSale 20 3 2) _ sale rfl hsale _ p
        (Or.inl (by rw [hgone]; exact Option.some_ne_none 6))
    · -- the second gives back what it takes
      have hlive : ((rowLeft 7 ⟨1⟩ phoneOwner (.sale (riceSale 20 3 2)) (rowLeft 7 ⟨1⟩ phoneOwner
          (.product rice) (runBatches DecimalRange.unused [riceSold, riceVoided]))).1.sales.find?
            ⟨21⟩).map Sale.deletedAt = some none := by decide +kernel
      have hrice : ¬(rowLeft 7 ⟨1⟩ phoneOwner (.sale (riceSale 20 3 2)) (rowLeft 7 ⟨1⟩ phoneOwner
          (.product rice) (runBatches DecimalRange.unused [riceSold, riceVoided]))).1.products.Any
            fun k _ => k ≠ ⟨10⟩ := by decide +kernel
      have hproduct : product = ⟨10⟩ := by
        by_contra hne
        exact hrice ⟨product, p, hp, hne⟩
      subst hproduct
      obtain ⟨sale, hsale, -⟩ := Option.map_eq_some_iff.mp hlive
      exact @leavesStock_of_known 7 ⟨1⟩ ⟨21⟩ phoneOwner (riceSale 21 4 3) _ sale rfl hsale _ p
        (Or.inr (by decide +kernel))

/-- The expense as the first phone queued it. -/
def supplies : Batch where
  now := 5
  storeId := ⟨1⟩
  actor := phoneOwner
  request := ⟨[], [], [], [⟨some ⟨12⟩, "supplies", none, 30, some 4⟩], [], []⟩

/-- Its removal, from another phone. -/
def suppliesRemoved : Batch where
  now := 6
  storeId := ⟨1⟩
  actor := { phoneOwner with deviceName := "Tablet" }
  request := ⟨[], [], [], [], [], [⟨"expense", ⟨12⟩⟩]⟩

/-- A phone that did not hear the answer sends its batch again, and the
removed expense is back. -/
theorem resent_expense_comes_back :
    ¬RemovalFinal DecimalRange.unused [supplies, suppliesRemoved, { supplies with now := 7 }] := by
  have hbefore : ((runBatches DecimalRange.unused [supplies, suppliesRemoved]).1.expenses.find?
      ⟨12⟩).map Expense.deletedAt = some (some 6) := by decide +kernel
  have hafter : ((Batch.left { supplies with now := 7 } (runBatches DecimalRange.unused
      [supplies, suppliesRemoved])).1.expenses.find? ⟨12⟩).map Expense.deletedAt = some none := by
    decide +kernel
  intro hfinal
  obtain ⟨e, he, hgone⟩ := Option.map_eq_some_iff.mp hbefore
  have hremoved : Removed (runBatches DecimalRange.unused [supplies, suppliesRemoved]).1 ⟨12⟩
      .expense := ⟨e, he, by rw [hgone]; decide⟩
  have hresent : Resent DecimalRange.unused [supplies, suppliesRemoved] { supplies with now := 7 }
      ⟨12⟩ .expense := by
    refine ⟨⟨[], supplies, [suppliesRemoved], rfl, rfl, rfl, ?_⟩, hremoved, by decide⟩
    rintro ⟨e, he, -⟩
    cases he
  obtain ⟨e', he', hstill⟩ := hfinal.removed [supplies, suppliesRemoved] _ [] rfl ⟨12⟩ .expense
    hresent
  rw [he', Option.map_some] at hafter
  exact hstill (Option.some.inj hafter)

end Kitaza.DeletionFinality
