import Kitaza.Payloads
import Kitaza.Rounding
import Kitaza.SyncQueue

/-!
# The phone's own tables

What the app writes when it sells, voids, receives or edits a product: the
rows, the statements of the data access objects, and the transactions of
the repositories. Money is whole centavos in the tables and pesos in the
app, where it is added up exactly here. A count is a double, and so is every sum
that is written to it. Everything written is queued for the cloud in the same
transaction.
-/

namespace Kitaza.PhoneDatabase

open KeyedTable Primitives FloatRounding Rounding Payloads SyncQueue

/-- Pesos as the tables keep them. -/
def fromPesos (pesos : ℚ) : ℤ := roundHalfAway (pesos * 100)

/-- Centavos as the app shows them. -/
def toPesos (centavos : ℤ) : ℚ := centavos / 100

/-- White space and the byte order mark, which the app trims as well. -/
def isTrimmed (c : Char) : Bool := isWhiteSpace c || c.toNat == 0xFEFF

/-- Remove white space at both ends, as the app does. -/
def appTrim (s : String) : String :=
  String.ofList ((s.toList.dropWhile isTrimmed).reverse.dropWhile isTrimmed).reverse

/-- A trimmed text, unless nothing is left of it. -/
def appTrimmed (s : Option String) : Option String := (s.map appTrim).filter (· ≠ "")

/-- The ways a small business gets paid. -/
inductive PaymentMethod where
  | cash
  | gcash
  | maya
  | bankTransfer
  | utang
  deriving DecidableEq, Repr

/-- The name of a payment method in requests and rows. -/
def PaymentMethod.wireName : PaymentMethod → String
  | .cash => "cash"
  | .gcash => "gcash"
  | .maya => "maya"
  | .bankTransfer => "bank_transfer"
  | .utang => "utang"

/-- A product. -/
structure Product where
  /-- Identifier. -/
  id : Uuid
  /-- Name. -/
  name : String
  /-- Scanned code. -/
  barcode : Option String
  /-- What one unit is called. -/
  unitLabel : String
  /-- Cost of one unit, in pesos. -/
  costPrice : ℚ
  /-- Price of one unit, in pesos. -/
  sellingPrice : ℚ
  /-- Units on hand. -/
  stockQuantity : ℚ
  /-- Level at which to reorder. -/
  reorderLevel : ℚ
  /-- Whether it is offered. -/
  isActive : Bool
  /-- Last change. -/
  updatedAt : Timestamp
  deriving DecidableEq, Repr

/-- One line of a sale. -/
structure SaleLine where
  /-- Identifier. -/
  id : Uuid
  /-- The sale. -/
  saleId : Uuid
  /-- The product sold; absent for a quick sale. -/
  productId : Option Uuid
  /-- Its name. -/
  productName : String
  /-- Units sold. -/
  quantity : ℚ
  /-- Price of one unit, in pesos. -/
  unitPrice : ℚ
  /-- Cost of one unit, in pesos. -/
  unitCost : ℚ
  deriving DecidableEq, Repr

/-- What a line comes to. -/
def SaleLine.lineTotal (line : SaleLine) : ℚ := line.unitPrice * line.quantity

/-- A sale. -/
structure Sale where
  /-- Identifier. -/
  id : Uuid
  /-- How it was paid. -/
  paymentMethod : PaymentMethod
  /-- What was paid, in pesos. -/
  totalAmount : ℚ
  /-- What the goods cost, in pesos. -/
  costAmount : ℚ
  /-- Discount on the whole sale, in pesos. -/
  discountAmount : ℚ
  /-- Free text. -/
  note : Option String
  /-- When it happened. -/
  occurredAt : Timestamp
  /-- Its lines. -/
  lines : List SaleLine
  deriving DecidableEq, Repr

/-- Why stock changed, sales apart. -/
inductive StockMovementKind where
  | stockIn
  | stockOut
  | adjustment
  | spoilage
  deriving DecidableEq, Repr

/-- The name of a kind of movement in requests and rows. -/
def StockMovementKind.wireName : StockMovementKind → String
  | .stockIn => "stock_in"
  | .stockOut => "stock_out"
  | .adjustment => "adjustment"
  | .spoilage => "spoilage"

/-- One line of the stock ledger. -/
structure StockMovement where
  /-- Identifier. -/
  id : Uuid
  /-- The product moved. -/
  productId : Uuid
  /-- Why. -/
  kind : StockMovementKind
  /-- An amount, or the counted total of an adjustment. -/
  quantity : ℚ
  /-- Cost of one unit, in pesos. -/
  unitCost : ℚ
  /-- Free text. -/
  note : Option String
  /-- When it happened. -/
  occurredAt : Timestamp
  deriving DecidableEq, Repr

/-- A row of `products`. -/
structure ProductRow where
  storeId : Uuid
  name : String
  barcode : Option String
  unitLabel : String
  costPrice : ℤ
  sellingPrice : ℤ
  stockQuantity : ℚ
  reorderLevel : ℚ
  isActive : Bool
  updatedAt : Timestamp
  deletedAt : Option Timestamp
  deriving DecidableEq, Repr

/-- A row of `sales`. -/
structure SaleRow where
  storeId : Uuid
  paymentMethod : String
  totalAmount : ℤ
  costAmount : ℤ
  discountAmount : ℤ
  note : Option String
  occurredAt : Timestamp
  updatedAt : Timestamp
  deletedAt : Option Timestamp
  deriving DecidableEq, Repr

/-- A row of `sale_items`. -/
structure SaleItemRow where
  saleId : Uuid
  productId : Option Uuid
  productName : String
  quantity : ℚ
  unitPrice : ℤ
  unitCost : ℤ
  lineTotal : ℤ
  deriving DecidableEq, Repr

/-- A row of `stock_movements`; its quantity is the signed change. -/
structure StockMovementRow where
  storeId : Uuid
  productId : Uuid
  movement : String
  quantity : ℚ
  unitCost : ℤ
  note : Option String
  occurredAt : Timestamp
  updatedAt : Timestamp
  deriving DecidableEq, Repr

/-- What a queue row sends to the cloud. -/
inductive Content where
  | product (request : SaveProductRequest)
  | stockMovement (request : RecordMovementRequest)
  | sale (request : RecordSaleRequest)
  deriving DecidableEq, Repr

/-- The tables the till and the catalogue write. -/
structure PhoneDb where
  /-- The table `products`. -/
  products : Table Uuid ProductRow
  /-- The table `sales`. -/
  sales : Table Uuid SaleRow
  /-- The table `sale_items`. -/
  saleItems : Table Uuid SaleItemRow
  /-- The table `stock_movements`. -/
  stockMovements : Table Uuid StockMovementRow
  /-- The table `sync_queue`. -/
  queue : Queue Content

/-- Tables nothing was written to. -/
def PhoneDb.empty : PhoneDb :=
  ⟨Table.empty, Table.empty, Table.empty, Table.empty, Queue.empty Content⟩

/-- A product as its row. -/
def Product.toRow (storeId : Uuid) (product : Product) : ProductRow where
  storeId := storeId
  name := product.name
  barcode := product.barcode
  unitLabel := product.unitLabel
  costPrice := fromPesos product.costPrice
  sellingPrice := fromPesos product.sellingPrice
  stockQuantity := product.stockQuantity
  reorderLevel := product.reorderLevel
  isActive := product.isActive
  updatedAt := product.updatedAt
  deletedAt := none

/-- A product read back from its row. -/
def Product.fromRow (id : Uuid) (row : ProductRow) : Product where
  id := id
  name := row.name
  barcode := row.barcode
  unitLabel := row.unitLabel
  costPrice := toPesos row.costPrice
  sellingPrice := toPesos row.sellingPrice
  stockQuantity := row.stockQuantity
  reorderLevel := row.reorderLevel
  isActive := row.isActive
  updatedAt := row.updatedAt

/-- A product as it is pushed. Stock reaches the server only through the
ledger. -/
def Product.toPushJson (product : Product) : SaveProductRequest where
  id := some product.id
  name := product.name
  barcode := product.barcode
  unitLabel := product.unitLabel
  costPrice := product.costPrice
  sellingPrice := product.sellingPrice
  openingStock := 0
  reorderLevel := product.reorderLevel

/-- A line as its row. -/
def SaleLine.toRow (line : SaleLine) : SaleItemRow where
  saleId := line.saleId
  productId := line.productId
  productName := line.productName
  quantity := line.quantity
  unitPrice := fromPesos line.unitPrice
  unitCost := fromPesos line.unitCost
  lineTotal := fromPesos line.lineTotal

/-- A line as it is pushed. -/
def SaleLine.toPushJson (line : SaleLine) : SaleLineRequest where
  id := some line.id
  productId := line.productId
  productName := some line.productName
  quantity := line.quantity
  unitPrice := some line.unitPrice
  unitCost := some line.unitCost

/-- A sale as its row. -/
def Sale.toRow (storeId : Uuid) (now : Timestamp) (sale : Sale) : SaleRow where
  storeId := storeId
  paymentMethod := sale.paymentMethod.wireName
  totalAmount := fromPesos sale.totalAmount
  costAmount := fromPesos sale.costAmount
  discountAmount := fromPesos sale.discountAmount
  note := sale.note
  occurredAt := sale.occurredAt
  updatedAt := now
  deletedAt := none

/-- A sale as it is pushed. -/
def Sale.toPushJson (sale : Sale) : RecordSaleRequest where
  id := some sale.id
  paymentMethod := some sale.paymentMethod.wireName
  discountAmount := sale.discountAmount
  note := sale.note
  occurredAt := some sale.occurredAt
  items := sale.lines.map SaleLine.toPushJson

/-- A movement as its row. -/
def StockMovement.toRow (storeId : Uuid) (appliedDelta : ℚ) (now : Timestamp)
    (movement : StockMovement) : StockMovementRow where
  storeId := storeId
  productId := movement.productId
  movement := movement.kind.wireName
  quantity := appliedDelta
  unitCost := fromPesos movement.unitCost
  note := movement.note
  occurredAt := movement.occurredAt
  updatedAt := now

/-- A movement as it is pushed. -/
def StockMovement.toPushJson (movement : StockMovement) : RecordMovementRequest where
  id := some movement.id
  productId := movement.productId
  movement := movement.kind.wireName
  quantity := movement.quantity
  unitCost := movement.unitCost
  note := movement.note
  occurredAt := some movement.occurredAt

/-- Move the count of a product, if it is stored; the sum is a double. -/
def moveStock (now : Timestamp) (productId : Uuid) (delta : ℚ) (db : PhoneDb) : PhoneDb :=
  { db with
    products := db.products.mapRows fun id row =>
      if id = productId then
        { row with stockQuantity := double (row.stockQuantity + delta), updatedAt := now }
      else row }

/-- Insert one line and take it off the stock. An identifier in use fails
the statement, and with it the transaction. -/
def insertLine (now : Timestamp) (line : SaleLine) (db : PhoneDb) : Option PhoneDb :=
  if (db.saleItems.find? line.id).isSome then none
  else
    let db := { db with saleItems := db.saleItems.put line.id line.toRow }
    some (match line.productId with
      | some productId => moveStock now productId (-line.quantity) db
      | none => db)

/-- Insert the lines in order. -/
def insertLines (now : Timestamp) : List SaleLine → PhoneDb → Option PhoneDb
  | [], db => some db
  | line :: rest, db => (insertLine now line db).bind (insertLines now rest)

/-- Write the sale, its lines and the stock deduction. A sale of the same
identifier is replaced, with its lines. -/
def insertSale (storeId : Uuid) (now : Timestamp) (sale : Sale) (db : PhoneDb) : Option PhoneDb :=
  insertLines now sale.lines
    { db with
      sales := db.sales.put sale.id (sale.toRow storeId now)
      saleItems := db.saleItems.filter fun _ item => !(item.saleId == sale.id) }

/-- The count of a product, if it is stored. -/
def stockOf (db : PhoneDb) (productId : Uuid) : Option ℚ :=
  (db.products.find? productId).map ProductRow.stockQuantity

theorem stockOf_moveStock (now : Timestamp) (productId : Uuid) (delta : ℚ) (db : PhoneDb)
    (id : Uuid) : stockOf (moveStock now productId delta db) id =
      (stockOf db id).map fun q => if id = productId then double (q + delta) else q := by
  simp only [stockOf, moveStock, Table.find?_mapRows, Option.map_map]
  congr 1
  funext row
  simp only [Function.comp]
  split_ifs <;> rfl

/-- What moving a count step by step leaves of it. -/
def countAfter (q : ℚ) (deltas : List ℚ) : ℚ := floatSum roundHalfEven 53 q deltas

theorem countAfter_append (q : ℚ) (deltas deltas' : List ℚ) :
    countAfter q (deltas ++ deltas') = countAfter (countAfter q deltas) deltas' :=
  floatSum_append _ _ _ _ _

theorem countAfter_of_held {q : ℚ} {deltas : List ℚ} (h : SumsHeld 53 q deltas) :
    countAfter q deltas = q + deltas.sum :=
  floatSum_of_held nearest_roundHalfEven (by norm_num) h

/-- What lines move the count of a product by, one by one. -/
def deductions (lines : List SaleLine) (productId : Uuid) : List ℚ :=
  (lines.filter fun line => line.productId = some productId).map fun line => -line.quantity

/-- Units of a product that lines take. -/
def taken (lines : List SaleLine) (productId : Uuid) : ℚ :=
  (lines.map fun line => if line.productId = some productId then line.quantity else 0).sum

theorem sum_deductions (lines : List SaleLine) (productId : Uuid) :
    (deductions lines productId).sum = -taken lines productId := by
  induction lines with
  | nil => simp [deductions, taken]
  | cons line rest ih =>
    rw [deductions] at ih
    rw [deductions, taken, List.filter_cons]
    by_cases hp : line.productId = some productId
    · simp [hp, ih, taken, add_comm]
    · simp [hp, ih, taken]

/-- What inserting lines does. -/
structure LinesInserted (lines : List SaleLine) (db db' : PhoneDb) : Prop where
  /-- The sales are as they were. -/
  sales : db'.sales = db.sales
  /-- So is the ledger. -/
  stockMovements : db'.stockMovements = db.stockMovements
  /-- The lines are stored. -/
  saleItems : ∀ k item, db'.saleItems.find? k = some item ↔
    (∃ line ∈ lines, line.id = k ∧ item = line.toRow) ∨ db.saleItems.find? k = some item
  /-- They add to every total. -/
  total : ∀ f : Uuid → SaleItemRow → ℚ,
    db'.saleItems.sum f = (lines.map fun line => f line.id line.toRow).sum + db.saleItems.sum f
  /-- The counts moved by what they take. -/
  stock : ∀ id, stockOf db' id = (stockOf db id).map fun q => countAfter q (deductions lines id)

/-- A line that was inserted had a free identifier. -/
theorem insertLine_inserted {now : Timestamp} {line : SaleLine} {db db' : PhoneDb}
    (h : insertLine now line db = some db') : LinesInserted [line] db db' := by
  unfold insertLine at h
  split_ifs at h with hfree
  rw [Option.isSome_iff_ne_none, not_not] at hfree
  have hitems : db'.saleItems = db.saleItems.put line.id line.toRow ∧ db'.sales = db.sales ∧
      db'.stockMovements = db.stockMovements ∧
      ∀ id, stockOf db' id =
        (stockOf db id).map fun q => countAfter q (deductions [line] id) := by
    cases hp : line.productId with
    | none =>
      rw [hp] at h
      cases h
      refine ⟨rfl, rfl, rfl, fun id => ?_⟩
      have ht : deductions [line] id = [] := by simp [deductions, hp]
      rw [ht]
      change stockOf db id = _
      simp [countAfter, floatSum]
    | some productId =>
      rw [hp] at h
      cases h
      refine ⟨rfl, rfl, rfl, fun id => ?_⟩
      rw [stockOf_moveStock]
      change (stockOf db id).map _ = _
      congr 1
      funext q
      by_cases hid : id = productId
      · simp [deductions, hp, hid, countAfter, floatSum, double]
      · simp [deductions, hp, hid, Ne.symm hid, countAfter, floatSum]
  obtain ⟨hput, hsales, hmoves, hstock⟩ := hitems
  refine ⟨hsales, hmoves, ?_, ?_, hstock⟩
  · intro k item
    rw [hput, Table.find?_put]
    by_cases hk : k = line.id
    · subst hk
      simp [hfree, eq_comm]
    · simp [hk, Ne.symm hk]
  · intro f
    rw [hput, Table.sum_put_of_none _ _ hfree]
    simp

theorem insertLines_inserted {now : Timestamp} {lines : List SaleLine} {db db' : PhoneDb}
    (h : insertLines now lines db = some db') : LinesInserted lines db db' := by
  induction lines generalizing db with
  | nil =>
    cases h
    exact ⟨rfl, rfl, by simp, by simp, by simp [deductions, countAfter, floatSum]⟩
  | cons line rest ih =>
    rw [insertLines, Option.bind_eq_some_iff] at h
    obtain ⟨mid, hline, hrest⟩ := h
    have h₁ := insertLine_inserted hline
    have h₂ := ih hrest
    constructor
    · rw [h₂.sales, h₁.sales]
    · rw [h₂.stockMovements, h₁.stockMovements]
    · intro k item
      rw [h₂.saleItems, h₁.saleItems]
      simp only [List.exists_mem_cons_iff, List.not_mem_nil, false_and, exists_false, or_false]
      rw [or_left_comm, or_assoc]
    · intro f
      rw [h₂.total, h₁.total]
      simp only [List.map_cons, List.sum_cons, List.map_nil, List.sum_nil]
      ring
    · intro id
      rw [h₂.stock, h₁.stock, Option.map_map]
      congr 1
      funext q
      rw [Function.comp, ← countAfter_append, deductions, deductions, ← List.map_append,
        ← List.filter_append]
      rfl

/-- The lines of a sale. -/
def linesFor (saleId : Uuid) (db : PhoneDb) : List SaleItemRow :=
  (db.saleItems.entries.map Prod.snd).filter fun item => item.saleId == saleId

/-- Give back what one line took. -/
def giveBack (now : Timestamp) (item : SaleItemRow) (db : PhoneDb) : PhoneDb :=
  match item.productId with
  | some productId => moveStock now productId item.quantity db
  | none => db

/-- Mark the sale voided and give its lines back to the stock. -/
def markVoided (now : Timestamp) (saleId : Uuid) (db : PhoneDb) : PhoneDb :=
  (linesFor saleId db).foldl (fun db item => giveBack now item db)
    { db with
      sales := db.sales.mapRows fun id row =>
        if id = saleId then { row with deletedAt := some now, updatedAt := now } else row }

/-- The change a movement makes to a count; a difference is a double. -/
def StockMovement.delta (movement : StockMovement) (onHand : ℚ) : ℚ :=
  match movement.kind with
  | .stockIn => movement.quantity
  | .stockOut | .spoilage => -movement.quantity
  | .adjustment => double (movement.quantity - onHand)

/-- Record a movement and move the product's count to match. A movement of
an unknown product is dropped, and one of a known identifier moves the count
only. -/
def applyMovement (storeId : Uuid) (now : Timestamp) (movement : StockMovement) (db : PhoneDb) :
    PhoneDb :=
  match db.products.find? movement.productId with
  | none => db
  | some row =>
    let delta := movement.delta row.stockQuantity
    moveStock now movement.productId delta
      { db with
        stockMovements :=
          if (db.stockMovements.find? movement.id).isSome then db.stockMovements
          else db.stockMovements.put movement.id (movement.toRow storeId delta now) }

/-- Write the whole row of a product. -/
def upsertProduct (storeId : Uuid) (product : Product) (db : PhoneDb) : PhoneDb :=
  { db with products := db.products.put product.id (product.toRow storeId) }

/-- A product by identifier. -/
def findProduct (productId : Uuid) (db : PhoneDb) : Option Product :=
  (db.products.find? productId).map (Product.fromRow productId)

/-- Mark a product removed. -/
def softDelete (now : Timestamp) (productId : Uuid) (db : PhoneDb) : PhoneDb :=
  { db with
    products := db.products.mapRows fun id row =>
      if id = productId then
        { row with deletedAt := some now, isActive := false, updatedAt := now }
      else row }

/-- Queue a version of a record. -/
def enqueueContent (storeId : Uuid) (entity : QueuedEntity) (id : Uuid) (content : Content)
    (db : PhoneDb) : PhoneDb :=
  { db with queue := enqueue entity id (.record content) (some storeId) db.queue }

/-- Queue a removal. -/
def enqueueRemoval (storeId : Uuid) (deleted : DeletedEntity) (entity : QueuedEntity) (id : Uuid)
    (db : PhoneDb) : PhoneDb :=
  { db with queue := enqueueDeletion deleted entity id (some storeId) db.queue }

/-- What the product editor passes to `save`. -/
structure SaveArgs where
  /-- The product edited; absent for a new one. -/
  id : Option Uuid
  name : String
  costPrice : ℚ
  sellingPrice : ℚ
  /-- The count on the shelf. -/
  stockQuantity : ℚ
  reorderLevel : ℚ
  unitLabel : String
  barcode : Option String
  deriving DecidableEq, Repr

/-- A save between its read and its transaction. -/
structure PendingSave where
  /-- The row to write. -/
  product : Product
  /-- The movement to record with it. -/
  movement : Option StockMovement
  /-- It moves that product. -/
  ofProduct : ∀ m, movement = some m → m.productId = product.id

/-- The part of `save` before its transaction: the product as it was found
decides the row and the movement. -/
def prepareSave (args : SaveArgs) (drawn movementId : Uuid) (now : Timestamp)
    (existing : Option Product) : PendingSave :=
  let product : Product :=
    { id := args.id.getD drawn
      name := appTrim args.name
      barcode := appTrimmed args.barcode
      unitLabel := args.unitLabel
      costPrice := args.costPrice
      sellingPrice := args.sellingPrice
      stockQuantity := (existing.map Product.stockQuantity).getD 0
      reorderLevel := args.reorderLevel
      isActive := true
      updatedAt := now }
  { product := product
    movement :=
      match existing with
      | none =>
        if 0 < args.stockQuantity then
          some ⟨movementId, product.id, .stockIn, args.stockQuantity, args.costPrice,
            some "Opening stock", now⟩
        else none
      | some before =>
        if before.stockQuantity ≠ args.stockQuantity then
          some ⟨movementId, product.id, .adjustment, args.stockQuantity, 0, some "Counted", now⟩
        else none
    ofProduct := by
      intro m hm
      cases existing <;> simp only [Option.ite_none_right_eq_some, Option.some.injEq] at hm <;>
        exact hm.2 ▸ rfl }

/-- The read of `save`. -/
def beginSave (args : SaveArgs) (drawn movementId : Uuid) (now : Timestamp) (db : PhoneDb) :
    PendingSave :=
  prepareSave args drawn movementId now (args.id.bind fun id => findProduct id db)

/-- The transaction of `save`. -/
def commitSave (storeId : Uuid) (now : Timestamp) (save : PendingSave) (db : PhoneDb) : PhoneDb :=
  let db := enqueueContent storeId .products save.product.id (.product save.product.toPushJson)
    (upsertProduct storeId save.product db)
  match save.movement with
  | none => db
  | some movement =>
    enqueueContent storeId .stockMovements movement.id (.stockMovement movement.toPushJson)
      (applyMovement storeId now movement db)

/-- Receive stock. -/
def receiveStock (storeId movementId : Uuid) (now : Timestamp) (productId : Uuid)
    (quantity unitCost : ℚ) (db : PhoneDb) : PhoneDb :=
  let movement : StockMovement := ⟨movementId, productId, .stockIn, quantity, unitCost, none, now⟩
  enqueueContent storeId .stockMovements movement.id (.stockMovement movement.toPushJson)
    (applyMovement storeId now movement db)

/-- Remove a product. -/
def removeProduct (storeId : Uuid) (now : Timestamp) (productId : Uuid) (db : PhoneDb) : PhoneDb :=
  enqueueRemoval storeId .product .products productId (softDelete now productId db)

/-- A line in the cart. -/
structure CartLine where
  /-- The product; absent for a quick sale. -/
  productId : Option Uuid
  productName : String
  quantity : ℚ
  /-- Price of one unit, in pesos. -/
  unitPrice : ℚ
  /-- Cost of one unit, in pesos. -/
  unitCost : ℚ
  deriving DecidableEq, Repr

/-- What a cart line comes to. -/
def CartLine.total (line : CartLine) : ℚ := line.unitPrice * line.quantity

/-- What a cart comes to. -/
def gross (cart : List CartLine) : ℚ := (cart.map CartLine.total).sum

/-- What the goods in a cart cost. -/
def cost (cart : List CartLine) : ℚ := (cart.map fun line => line.unitCost * line.quantity).sum

/-- Keep a figure between two bounds; bounds the wrong way round are an
error. -/
def clamp (lower upper value : ℚ) : Option ℚ :=
  if upper < lower then none else some (max lower (min value upper))

/-- The lines of a sale, each with a drawn identifier. -/
def saleLines (saleId : Uuid) (drawn : ℕ → Uuid) (cart : List CartLine) : List SaleLine :=
  cart.mapIdx fun i line =>
    ⟨drawn i, saleId, line.productId, line.productName, line.quantity, line.unitPrice,
      line.unitCost⟩

/-- The sale of a cart. -/
def buildSale (saleId : Uuid) (drawn : ℕ → Uuid) (cart : List CartLine)
    (paymentMethod : PaymentMethod) (discount : ℚ) (note : Option String) (occurredAt : Timestamp) :
    Option Sale :=
  (clamp 0 (gross cart) discount).map fun appliedDiscount =>
    { id := saleId
      paymentMethod := paymentMethod
      totalAmount := gross cart - appliedDiscount
      costAmount := cost cart
      discountAmount := appliedDiscount
      note := note
      occurredAt := occurredAt
      lines := saleLines saleId drawn cart }

/-- Write a sale, its lines, the stock deduction and the sync entry in one
transaction. -/
def recordSale (storeId : Uuid) (now : Timestamp) (sale : Sale) (db : PhoneDb) : Option PhoneDb :=
  (insertSale storeId now sale db).map
    (enqueueContent storeId .sales sale.id (.sale sale.toPushJson))

/-- Void a sale. -/
def voidSale (storeId : Uuid) (now : Timestamp) (saleId : Uuid) (db : PhoneDb) : PhoneDb :=
  enqueueRemoval storeId .sale .sales saleId (markVoided now saleId db)

end Kitaza.PhoneDatabase
