import Kitaza.ProductService

/-!
# Sales: the statements and their transactions

Recording writes the sale, its lines, the stock deduction and the ledger
in one transaction; recording a known sale again first undoes its previous
effect. Voiding gives the stock back. Each statement is a function of its
own, applied in the order the transaction issues it.
-/

namespace Kitaza.SaleRepository

open KeyedTable Primitives Access Schema

/-- A sale line after prices and costs are resolved. -/
structure PreparedLine where
  /-- Identifier of the line. -/
  id : Uuid
  /-- The product sold; absent for a quick sale. -/
  productId : Option Uuid
  /-- Name to keep on the line. -/
  productName : String
  /-- Units sold. -/
  quantity : Quantity
  /-- Price of one unit. -/
  unitPrice : Money
  /-- Cost of one unit. -/
  unitCost : Money
  /-- Price times quantity, rounded. -/
  lineTotal : Money
  deriving DecidableEq, Repr

/-- A sale ready to be written. -/
structure PreparedSale where
  /-- Identifier of the sale. -/
  id : Uuid
  /-- The store it belongs to. -/
  storeId : Uuid
  /-- One of the allowed payment methods. -/
  paymentMethod : String
  /-- Gross less discount. -/
  totalAmount : Money
  /-- Cost of what was sold. -/
  costAmount : Money
  /-- Discount on the whole sale. -/
  discountAmount : Money
  /-- Free text. -/
  note : Option String
  /-- When it happened. -/
  occurredAt : Timestamp
  /-- The lines. -/
  lines : List PreparedLine
  deriving DecidableEq, Repr

/-- Who is recording, as far as the sales table cares. -/
structure Recorder where
  /-- The staff member, if any. -/
  staffId : Option Uuid
  /-- Whether it is the owner. -/
  isOwner : Bool
  deriving DecidableEq, Repr

/-- The stored sale and whether it is new. -/
structure RecordedSale where
  /-- Identifier of the sale. -/
  id : Uuid
  /-- The stored row. -/
  sale : Sale
  /-- False for a replay of a sale the server already had. -/
  created : Bool
  deriving DecidableEq, Repr

/-- The line that the join of the restoring update applies to a product: of
the sale's lines that name it the one the engine picks. -/
def joinedLine (joins : JoinRule) (now : Timestamp) (saleId productId : Uuid)
    (saleItems : Table Uuid SaleItem) : Option SaleItem :=
  (saleItems.filter fun _ item =>
    item.saleId == saleId && item.productId == some productId).picked (joins.pick now)

section Joined

variable {joins : JoinRule} {now : Timestamp} {saleId productId : Uuid}
  {saleItems : Table Uuid SaleItem}

/-- No line is joined when none names the product. -/
theorem joinedLine_eq_none : joinedLine joins now saleId productId saleItems = none ↔
    ∀ k item, saleItems.find? k = some item → item.saleId = saleId →
      item.productId ≠ some productId := by
  rw [joinedLine, Table.picked_eq_none (joins.pick_mem now)]
  apply forall_congr'
  intro k
  rw [Table.find?_filter, Option.filter_eq_none_iff]
  simp

/-- A joined line is one of the sale's that names the product. -/
theorem joinedLine_eq_some {item : SaleItem}
    (h : joinedLine joins now saleId productId saleItems = some item) :
    ∃ k, saleItems.find? k = some item ∧ item.saleId = saleId ∧
      item.productId = some productId := by
  have hfound := Table.find?_filter_eq_some.mp (Table.picked_eq_some h)
  rw [Bool.and_eq_true, beq_iff_eq, beq_iff_eq] at hfound
  exact ⟨_, hfound⟩

/-- The join reads the sale's lines that name the product and no others. -/
theorem joinedLine_congr {saleItems' : Table Uuid SaleItem}
    (h : (saleItems.filter fun _ item =>
        item.saleId == saleId && item.productId == some productId) =
      saleItems'.filter fun _ item =>
        item.saleId == saleId && item.productId == some productId) :
    joinedLine joins now saleId productId saleItems =
      joinedLine joins now saleId productId saleItems' := by
  rw [joinedLine, joinedLine, h]

end Joined

/-- A product after the stock that the sale's lines took was given back. -/
def restored (joins : JoinRule) (now : Timestamp) (saleId storeId : Uuid)
    (saleItems : Table Uuid SaleItem) (id : Uuid) (p : Product) : Product :=
  match joinedLine joins now saleId id saleItems with
  | some item =>
    if p.storeId = storeId then
      { p with stockQuantity := p.stockQuantity + item.quantity, updatedAt := now }
    else p
  | none => p

/-- Give back the stock that the sale's current lines took out. -/
def restoreStockFor (now : Timestamp) (saleId storeId : Uuid) (db : Db) : Db :=
  { db with products := db.products.mapRows (restored db.joins now saleId storeId db.saleItems) }

section Restored

variable (joins : JoinRule) (now : Timestamp) (saleId storeId : Uuid)
  (saleItems : Table Uuid SaleItem) (id : Uuid) (p : Product)

theorem restored_storeId :
    (restored joins now saleId storeId saleItems id p).storeId = p.storeId := by
  unfold restored
  cases joinedLine joins now saleId id saleItems with
  | none => rfl
  | some item =>
    dsimp only
    split_ifs <;> rfl

theorem restored_deletedAt :
    (restored joins now saleId storeId saleItems id p).deletedAt = p.deletedAt := by
  unfold restored
  cases joinedLine joins now saleId id saleItems with
  | none => rfl
  | some item =>
    dsimp only
    split_ifs <;> rfl

end Restored

/-- Giving back adds the joined line's quantity, when its product is of the
sale's store. -/
theorem restored_stockQuantity {joins : JoinRule} (now : Timestamp) {saleId storeId : Uuid}
    {saleItems : Table Uuid SaleItem} {id : Uuid} {p : Product}
    (hs : ∀ item, joinedLine joins now saleId id saleItems = some item → p.storeId = storeId) :
    (restored joins now saleId storeId saleItems id p).stockQuantity = p.stockQuantity +
      ((joinedLine joins now saleId id saleItems).map SaleItem.quantity).getD 0 := by
  unfold restored
  cases h : joinedLine joins now saleId id saleItems with
  | none => simp
  | some item =>
    dsimp only
    rw [if_pos (hs item h)]
    rfl

/-- Whether a ledger row is retired together with the sale: a live row of
the store that carries the sale's note. -/
def RetiredWith (saleId storeId : Uuid) (m : StockMovement) : Prop :=
  m.storeId = storeId ∧ m.note = some (saleNote saleId) ∧ m.deletedAt = none

instance (saleId storeId : Uuid) (m : StockMovement) : Decidable (RetiredWith saleId storeId m) :=
  inferInstanceAs (Decidable (_ ∧ _))

/-- A ledger row after the sale's rows were retired. -/
def retired (now : Timestamp) (saleId storeId : Uuid) (m : StockMovement) : StockMovement :=
  if RetiredWith saleId storeId m then { m with deletedAt := some now, updatedAt := now } else m

theorem retired_storeId (now : Timestamp) (saleId storeId : Uuid) (m : StockMovement) :
    (retired now saleId storeId m).storeId = m.storeId := by
  unfold retired
  split_ifs <;> rfl

theorem retired_productId (now : Timestamp) (saleId storeId : Uuid) (m : StockMovement) :
    (retired now saleId storeId m).productId = m.productId := by
  unfold retired
  split_ifs <;> rfl

theorem retired_of_not {now : Timestamp} {saleId storeId : Uuid} {m : StockMovement}
    (h : ¬ RetiredWith saleId storeId m) : retired now saleId storeId m = m := if_neg h

theorem retired_deletedAt {now : Timestamp} {saleId storeId : Uuid} {m : StockMovement}
    (h : RetiredWith saleId storeId m) :
    (retired now saleId storeId m).deletedAt = some now := by
  rw [retired, if_pos h]

/-- Retire the ledger rows of the sale. -/
def retireMovementsFor (now : Timestamp) (saleId storeId : Uuid) (db : Db) : Db :=
  { db with stockMovements := db.stockMovements.mapRows fun _ => retired now saleId storeId }

/-- The row the sale's insert-or-update leaves. -/
def upsertedSale (now : Timestamp) (sale : PreparedSale) (staffId : Option Uuid) :
    Option Sale → Sale
  | none => {
      storeId := sale.storeId
      paymentMethod := sale.paymentMethod
      totalAmount := sale.totalAmount
      costAmount := numericMoney sale.costAmount
      discountAmount := sale.discountAmount
      note := sale.note
      occurredAt := sale.occurredAt
      recordedByStaffId := staffId
      updatedAt := now
      deletedAt := none }
  | some existing => { existing with
      paymentMethod := sale.paymentMethod
      totalAmount := sale.totalAmount
      costAmount := numericMoney sale.costAmount
      discountAmount := sale.discountAmount
      note := sale.note
      occurredAt := sale.occurredAt
      updatedAt := now }

/-- Insert the sale, or update the row already there. -/
def upsertSale (now : Timestamp) (sale : PreparedSale) (staffId : Option Uuid) (db : Db) : Db :=
  { db with
    sales := db.sales.put sale.id (upsertedSale now sale staffId (db.sales.find? sale.id)) }

/-- Delete the sale's lines. -/
def deleteItems (saleId : Uuid) (db : Db) : Db :=
  { db with saleItems := db.saleItems.filter fun _ item => item.saleId != saleId }

/-- The row of a line. -/
def storedLine (saleId : Uuid) (line : PreparedLine) : SaleItem where
  saleId := saleId
  productId := line.productId
  productName := line.productName
  quantity := line.quantity
  unitPrice := line.unitPrice
  unitCost := line.unitCost
  lineTotal := line.lineTotal

/-- Insert one line; its identifier must be free and its product known. -/
def insertItem (saleId : Uuid) (line : PreparedLine) (db : Db) : Except ApiError Db :=
  if (db.saleItems.find? line.id).isSome then .error (.internal "sale_items_pkey")
  else if line.productId.any fun id => (db.products.find? id).isNone then
    .error (.internal "sale_items_product_id_fkey")
  else .ok { db with saleItems := db.saleItems.put line.id (storedLine saleId line) }

theorem insertItem_eq_ok {saleId : Uuid} {line : PreparedLine} {db db' : Db} :
    insertItem saleId line db = .ok db' ↔ db.saleItems.find? line.id = none ∧
      (∀ id, line.productId = some id → ∃ p, db.products.find? id = some p) ∧
      db' = { db with saleItems := db.saleItems.put line.id (storedLine saleId line) } := by
  unfold insertItem
  split_ifs with hid hfk
  · simp only [false_iff, not_and]
    intro hn
    rw [hn] at hid
    cases hid
  · simp only [false_iff, not_and]
    intro _ hp
    cases hline : line.productId with
    | none =>
      rw [hline] at hfk
      cases hfk
    | some id =>
      obtain ⟨p, hsome⟩ := hp id hline
      rw [hline, Option.any_some, hsome] at hfk
      cases hfk
  · have hfree : db.saleItems.find? line.id = none := by simpa using hid
    have hknown : ∀ id, line.productId = some id → ∃ p, db.products.find? id = some p := by
      intro id hline
      rw [hline] at hfk
      simpa [Option.eq_none_iff_forall_ne_some] using hfk
    simp only [Except.ok.injEq, hfree, true_and]
    exact ⟨fun h => ⟨hknown, h.symm⟩, fun h => h.2.symm⟩

/-- Take a line's quantity out of a product of the store. -/
def deductStock (now : Timestamp) (storeId productId : Uuid) (quantity : Quantity) (db : Db) : Db :=
  { db with
    products := db.products.mapRows fun id p =>
      if id = productId ∧ p.storeId = storeId then
        { p with stockQuantity := p.stockQuantity - quantity, updatedAt := now }
      else p }

/-- Write a ledger row; its identifier must be free and its product known. -/
def insertMovement (id : Uuid) (movement : StockMovement) (db : Db) : Except ApiError Db :=
  if (db.stockMovements.find? id).isSome then .error (.internal "stock_movements_pkey")
  else if (db.products.find? movement.productId).isNone then
    .error (.internal "stock_movements_product_id_fkey")
  else .ok { db with stockMovements := db.stockMovements.put id movement }

theorem insertMovement_eq_ok {id : Uuid} {movement : StockMovement} {db db' : Db} :
    insertMovement id movement db = .ok db' ↔ db.stockMovements.find? id = none ∧
      (∃ p, db.products.find? movement.productId = some p) ∧
      db' = { db with stockMovements := db.stockMovements.put id movement } := by
  unfold insertMovement
  split_ifs with hid hfk
  · simp only [false_iff, not_and]
    intro hn
    rw [hn] at hid
    cases hid
  · simp only [false_iff, not_and]
    rintro _ ⟨p, hp⟩
    rw [hp] at hfk
    cases hfk
  · have hfree : db.stockMovements.find? id = none := by simpa using hid
    have hknown : ∃ p, db.products.find? movement.productId = some p := by
      simpa [Option.eq_none_iff_forall_ne_some] using hfk
    simp only [Except.ok.injEq, hfree, hknown, true_and]
    exact eq_comm

/-- The ledger row of a line of a sale. -/
def saleMovement (now : Timestamp) (sale : PreparedSale) (line : PreparedLine) (productId : Uuid) :
    StockMovement where
  storeId := sale.storeId
  productId := productId
  movement := .sale
  quantity := -line.quantity
  unitCost := line.unitCost
  note := some (saleNote sale.id)
  occurredAt := sale.occurredAt
  updatedAt := now
  deletedAt := none

/-- Write one line with its stock deduction and its ledger row. -/
def recordLine (now : Timestamp) (movementId : Uuid) (sale : PreparedSale) (line : PreparedLine)
    (db : Db) : Except ApiError Db := do
  let db ← insertItem sale.id line db
  match line.productId with
  | none => .ok db
  | some productId =>
    insertMovement movementId (saleMovement now sale line productId)
      (deductStock now sale.storeId productId line.quantity db)

/-- What writing one line does. -/
theorem recordLine_eq_ok {now : Timestamp} {movementId : Uuid} {sale : PreparedSale}
    {line : PreparedLine} {db db' : Db} (h : recordLine now movementId sale line db = .ok db') :
    db.saleItems.find? line.id = none ∧
      ((line.productId = none ∧
          db' = { db with saleItems := db.saleItems.put line.id (storedLine sale.id line) }) ∨
        ∃ productId p, line.productId = some productId ∧
          db.products.find? productId = some p ∧ db.stockMovements.find? movementId = none ∧
          db' = { deductStock now sale.storeId productId line.quantity db with
            saleItems := db.saleItems.put line.id (storedLine sale.id line)
            stockMovements := db.stockMovements.put movementId
              (saleMovement now sale line productId) }) := by
  obtain ⟨db₁, hitem, h⟩ := bind_eq_ok.mp h
  obtain ⟨hfree, hknown, rfl⟩ := insertItem_eq_ok.mp hitem
  refine ⟨hfree, ?_⟩
  cases hp : line.productId with
  | none =>
    rw [hp] at h
    cases h
    exact Or.inl ⟨rfl, rfl⟩
  | some productId =>
    rw [hp] at h
    obtain ⟨hmovement, _, rfl⟩ := insertMovement_eq_ok.mp h
    obtain ⟨p, hfound⟩ := hknown productId hp
    exact Or.inr ⟨productId, p, rfl, hfound, hmovement, rfl⟩

/-- Write the lines in order, drawing an identifier for each ledger row. -/
def recordLines (now : Timestamp) (drawn : ℕ → Uuid) (sale : PreparedSale) :
    List PreparedLine → ℕ → Db → Except ApiError Db
  | [], _, db => .ok db
  | line :: rest, i, db => do
    let db ← recordLine now (drawn i) sale line db
    recordLines now drawn sale rest (i + 1) db

/-- The writing half of the transaction: the sale, then its lines. -/
def writeSale (now : Timestamp) (drawn : ℕ → Uuid) (sale : PreparedSale) (recorder : Recorder)
    (created : Bool) (db : Db) : Except ApiError (RecordedSale × Db) := do
  let stored := upsertedSale now sale recorder.staffId (db.sales.find? sale.id)
  let db ← recordLines now drawn sale sale.lines 0
    (deleteItems sale.id (upsertSale now sale recorder.staffId db))
  .ok (⟨sale.id, stored, created⟩, db)

/-- Undo what the sale's previous recording did to stock and ledger. -/
def undoSale (now : Timestamp) (saleId storeId : Uuid) (db : Db) : Db :=
  retireMovementsFor now saleId storeId (restoreStockFor now saleId storeId db)

theorem undoSale_products (now : Timestamp) (saleId storeId : Uuid) (db : Db) (id : Uuid) :
    (undoSale now saleId storeId db).products.find? id =
      (db.products.find? id).map (restored db.joins now saleId storeId db.saleItems id) := rfl

theorem undoSale_stockMovements (now : Timestamp) (saleId storeId : Uuid) (db : Db) (id : Uuid) :
    (undoSale now saleId storeId db).stockMovements.find? id =
      (db.stockMovements.find? id).map (retired now saleId storeId) := rfl

/-- Record a sale in one transaction. A voided sale is final; a live one is
undone before it is written again. -/
def record (now : Timestamp) (drawn : ℕ → Uuid) (sale : PreparedSale) (recorder : Recorder)
    (db : Db) : Except ApiError (RecordedSale × Db) :=
  match db.sales.find? sale.id with
  | none => writeSale now drawn sale recorder true db
  | some existing =>
    if existing.storeId ≠ sale.storeId then .error foreignId
    else if existing.deletedAt.isSome then .ok (⟨sale.id, existing, false⟩, db)
    else if recorder.isOwner = false ∧ existing.recordedByStaffId ≠ recorder.staffId then
      .error (.forbidden "only the owner can change a sale someone else recorded")
    else writeSale now drawn sale recorder false (undoSale now sale.id sale.storeId db)

/-- The lines of a sale. -/
def linesFor (saleId : Uuid) (db : Db) : Table Uuid SaleItem :=
  db.saleItems.filter fun _ item => item.saleId == saleId

/-- A live sale of the store. -/
def findLive (storeId saleId : Uuid) (db : Db) : Option Sale :=
  (db.sales.find? saleId).filter fun s => s.storeId == storeId && s.deletedAt.isNone

theorem findLive_eq_some {storeId saleId : Uuid} {db : Db} {s : Sale} :
    findLive storeId saleId db = some s ↔
      db.sales.find? saleId = some s ∧ s.storeId = storeId ∧ s.deletedAt = none := by
  simp [findLive, Option.filter_eq_some_iff]

/-- Mark a live sale voided. -/
def markVoided (now : Timestamp) (saleId : Uuid) (s : Sale) (db : Db) : Db :=
  { db with sales := db.sales.put saleId { s with deletedAt := some now, updatedAt := now } }

/-- Void a sale and put its stock back; nothing happens when there is no
live sale to void. -/
def void (now : Timestamp) (storeId saleId : Uuid) (db : Db) : Option (Sale × Db) :=
  (findLive storeId saleId db).map fun s =>
    (s, undoSale now saleId storeId (markVoided now saleId s db))

end Kitaza.SaleRepository
