import Kitaza.SaleRepository

/-!
# Sales: the service

Resolves prices and costs of the lines, records the sale and logs it.
-/

namespace Kitaza.SaleService

open KeyedTable Primitives Access Schema Payloads SaleRepository

/-- The payment methods a sale can carry. -/
def ALLOWED_PAYMENT_METHODS : List String := ["cash", "gcash", "maya", "bank_transfer", "utang"]

/-- The name of a line without product and name. -/
def QUICK_SALE_LABEL : String := "Quick sale"

/-- Round a line total to centavos. -/
def roundMoney (value : Money) : Money := roundDp 2 value

/-- The payment method of a request; absent or blank means cash. -/
def normalisePaymentMethod (raw : Option String) : Except ApiError String :=
  let method := toLowercase ((trimmed raw).getD "cash")
  if method ∈ ALLOWED_PAYMENT_METHODS then .ok method
  else .error (.badRequest ("unsupported payment method '" ++ method ++ "'"))

/-- A line with its name, price and cost settled. -/
def preparedLine (lineId : Uuid) (item : SaleLineRequest) (name : String)
    (unitPrice unitCost : Money) : PreparedLine where
  id := lineId
  productId := item.productId
  productName := name
  quantity := quantityFromF64 item.quantity
  unitPrice := unitPrice
  unitCost := unitCost
  lineTotal := roundMoney (unitPrice * quantityFromF64 item.quantity)

/-- Prices come from the catalogue unless the device overrides them; the
name of a product's line always does. -/
def resolveLine (storeId lineId : Uuid) (item : SaleLineRequest) (db : Db) :
    Except ApiError PreparedLine :=
  match item.productId with
  | some productId =>
    match ProductService.find storeId productId db with
    | none => .error (.notFound "product")
    | some product => .ok (preparedLine lineId item product.name
        ((item.unitPrice.map moneyFromF64).getD product.sellingPrice)
        ((item.unitCost.map moneyFromF64).getD product.costPrice))
  | none =>
    match item.unitPrice with
    | none => .error (.badRequest "a quick sale needs an amount")
    | some unitPrice => .ok (preparedLine lineId item
        ((trimmed item.productName).getD QUICK_SALE_LABEL) (moneyFromF64 unitPrice)
        ((item.unitCost.map moneyFromF64).getD 0))

/-- Resolve the lines in order; the first that fails refuses the sale. A
line without identifier gets a drawn one. -/
def resolveLines (storeId : Uuid) (db : Db) :
    List SaleLineRequest → ℕ → Except ApiError (List PreparedLine)
  | [], _ => .ok []
  | item :: rest, i => do
    let line ← resolveLine storeId (item.id.getD (Uuid.newV4 db.saleItems i)) item db
    let lines ← resolveLines storeId db rest (i + 1)
    .ok (line :: lines)

/-- A device that cannot see costs holds zeros for them; its figures are
dropped so that the sale is costed from the catalogue. -/
def visibleItems (actor : Actor) (items : List SaleLineRequest) : List SaleLineRequest :=
  if actor.can .viewProfit then items else items.map fun item => { item with unitCost := none }

/-- The sale to write, from the resolved lines. -/
def prepareSale (now : Timestamp) (storeId saleId : Uuid) (paymentMethod : String)
    (request : RecordSaleRequest) (lines : List PreparedLine) : PreparedSale :=
  let gross := (lines.map PreparedLine.lineTotal).sum
  let discount := min (moneyFromF64 request.discountAmount) gross
  { id := saleId
    storeId := storeId
    paymentMethod := paymentMethod
    totalAmount := gross - discount
    costAmount := (lines.map fun line => line.unitCost * line.quantity).sum
    discountAmount := discount
    note := trimmed request.note
    occurredAt := request.occurredAt.getD now
    lines := lines }

/-- Who records, as the repository wants to know it. -/
def recorderOf (actor : Actor) : Recorder := ⟨actor.staffId, actor.isOwner⟩

/-- A recorded sale with its lines. -/
structure SaleDetail where
  /-- Identifier of the sale. -/
  id : Uuid
  /-- The stored row. -/
  sale : Sale
  /-- Its lines. -/
  items : Table Uuid SaleItem

/-- Total less cost. -/
def SaleDetail.profitAmount (d : SaleDetail) : Money := d.sale.totalAmount - d.sale.costAmount

/-- The log line of a new sale. -/
def saleRecordedEntry (storeId : Uuid) (occurredAt : Timestamp) (d : SaleDetail) : AuditEntry :=
  ⟨storeId, .saleRecorded, d.id, occurredAt,
    .saleRecorded d.sale.totalAmount d.items.ids.card d.sale.paymentMethod⟩

/-- Record a sale. Its figures are taken to fit the decimal type and the columns
here; `DecimalRange.recordSale` is the same where some do not. -/
def record (now : Timestamp) (storeId : Uuid) (actor : Actor) (request : RecordSaleRequest)
    (db : Db) : Except ApiError (SaleDetail × Db) := do
  let paymentMethod ← normalisePaymentMethod request.paymentMethod
  let saleId := request.id.getD (Uuid.newV4 db.sales 0)
  let lines ← resolveLines storeId db (visibleItems actor request.items) 0
  let prepared := prepareSale now storeId saleId paymentMethod request lines
  let (recorded, db) ← SaleRepository.record now (Uuid.newV4 db.stockMovements) prepared
    (recorderOf actor) db
  let detail : SaleDetail := ⟨recorded.id, recorded.sale, linesFor recorded.id db⟩
  .ok (detail,
    if recorded.created then
      recordAudit now actor (saleRecordedEntry storeId prepared.occurredAt detail) db
    else db)

/-- Void a sale. -/
def void (now : Timestamp) (storeId : Uuid) (actor : Actor) (saleId : Uuid) (db : Db) :
    Except ApiError Db := do
  actor.require .deleteRecords
  match SaleRepository.void now storeId saleId db with
  | none => .error (.notFound "sale")
  | some (voided, db) =>
    .ok (recordAudit now actor
      ⟨storeId, .saleVoided, saleId, now, .saleVoided voided.totalAmount voided.occurredAt⟩ db)

end Kitaza.SaleService
