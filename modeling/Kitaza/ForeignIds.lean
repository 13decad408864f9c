import Kitaza.SaleAcceptance

/-!
# Rows whose identifier belongs to another store

A row reads before it writes, and other stores may write in between. Each
service is taken apart at these points: what it looked up, what it checked
under lock, and the database it writes to. Products, expenses and
withdrawals refuse a foreign identifier in the statement that writes; a
sale refuses it only when it sees it, a stock movement never.
-/

namespace Kitaza.ForeignIds

open KeyedTable KeyedTable.Table Primitives Access Schema Payloads ProductService SaleRepository
  SaleService SaleEffects InventoryService SyncPush RowEffects SaleAcceptance

/-- The database at the points where a row of a push looks at it. What
other stores write in between is what differs. -/
structure Moments where
  /-- At the lookups. -/
  reading : Db
  /-- At the locking read of the transaction. -/
  checking : Db
  /-- From the first write of the row on. -/
  writing : Db

/-- The same database at every point: nobody wrote in between. -/
def Moments.still (db : Db) : Moments := ⟨db, db, db⟩

/-- What the lines of a sale are resolved with: the products looked up, and
identifiers that are free when the lines are written. -/
def Moments.resolving (m : Moments) : Db := { m.reading with saleItems := m.writing.saleItems }

section Services

variable (now : Timestamp) (storeId : Uuid) (actor : Actor)

/-- Saving a product: a lookup, then one statement. -/
def saveAt (request : SaveProductRequest) (m : Moments) : Except ApiError ((Uuid × Product) × Db) := do
  actor.require .manageProducts
  let productId := request.id.getD (Uuid.newV4 m.writing.products 0)
  let before := find storeId productId m.reading
  let values := savedValues actor request before
  if values.sellingPrice < values.costPrice then
    .error (.badRequest
      "selling price is lower than cost price, this product would lose money")
  else
    let (product, db) ← upsert now storeId productId values m.writing
    .ok ((productId, product),
      recordAudit? now actor (describeSave now storeId productId before product) db)

/-- The part of a sale's transaction after the locking read of its row. -/
def recordAfter (drawn : ℕ → Uuid) (sale : PreparedSale) (recorder : Recorder)
    (existing : Option Sale) (db : Db) : Except ApiError (RecordedSale × Db) :=
  match existing with
  | none => writeSale now drawn sale recorder true db
  | some existing =>
    if existing.storeId ≠ sale.storeId then .error foreignId
    else if existing.deletedAt.isSome then .ok (⟨sale.id, existing, false⟩, db)
    else if recorder.isOwner = false ∧ existing.recordedByStaffId ≠ recorder.staffId then
      .error (.forbidden "only the owner can change a sale someone else recorded")
    else writeSale now drawn sale recorder false (undoSale now sale.id sale.storeId db)

/-- Recording a sale: lookups of its products, the locking read, then the
writes. -/
def recordSaleAt (request : RecordSaleRequest) (m : Moments) : Except ApiError (SaleDetail × Db) := do
  let paymentMethod ← normalisePaymentMethod request.paymentMethod
  let saleId := request.id.getD (Uuid.newV4 m.writing.sales 0)
  let lines ← resolveLines storeId m.resolving (visibleItems actor request.items) 0
  let prepared := prepareSale now storeId saleId paymentMethod request lines
  let (recorded, db) ← recordAfter now (Uuid.newV4 m.writing.stockMovements) prepared
    (recorderOf actor) (m.checking.sales.find? saleId) m.writing
  let detail : SaleDetail := ⟨recorded.id, recorded.sale, linesFor recorded.id db⟩
  .ok (detail,
    if recorded.created then
      recordAudit now actor (saleRecordedEntry storeId prepared.occurredAt detail) db
    else db)

/-- The part of a movement's transaction after its product was locked. -/
def moveAfter (entry : LedgerEntry) (product : Product) (db : Db) :
    Option AppliedMovement × Db :=
  let delta := entry.effect.delta product.stockQuantity
  if (db.stockMovements.find? entry.movementId).isSome then (none, db)
  else (some ⟨product.name, delta⟩, { db with
    stockMovements := db.stockMovements.put entry.movementId (ledgerRow now entry delta)
    products := db.products.put entry.productId (movedProduct now delta entry.unitCost product) })

/-- Recording a stock movement: the locking read of its product, then the
writes. -/
def recordMovementAt (request : RecordMovementRequest) (m : Moments) : Except ApiError Db := do
  actor.require .manageProducts
  let quantity := quantityFromF64 request.quantity
  let (kind, effect) ← stockEffect (toLowercase (trim request.movement)) quantity
  if kind ≠ .adjustment ∧ quantity = 0 then
    .error (.badRequest "quantity must be greater than zero")
  else
    let entry := entryOf now storeId actor request kind effect m.writing
    match find storeId entry.productId m.checking with
    | none => .error (.notFound "product")
    | some product =>
      let (applied, db) := moveAfter now entry product m.writing
      .ok (logMovement now actor entry quantity applied db)

/-- What applying a row writes, by what it saw; expenses, withdrawals and
deletions look and write in one statement. -/
def applyAt (row : PushRow) (m : Moments) : Except ApiError (Option Uuid × Db) :=
  match row with
  | .product request => (saveAt now storeId actor request m).map fun r => (some r.1.1, r.2)
  | .sale request => (recordSaleAt now storeId actor request m).map fun r => (some r.1.id, r.2)
  | .movement request =>
    (recordMovementAt now storeId actor request m).map fun r => (request.id, r)
  | row => row.apply now storeId actor m.writing

/-- Apply one row while others write. -/
def pushRowAt (o : Outcome) (row : PushRow) (m : Moments) : PushState :=
  match applyAt now storeId actor row m with
  | .ok (id, db) => (o.addAppliedIfKnown row.entity id, db)
  | .error e => (o.addRejected row.entity row.id? e, m.writing)

end Services

section

variable {now : Timestamp} {storeId : Uuid} {actor : Actor}

/-- Between lookups and writes nothing of a movement is lost. -/
theorem recordMovementAt_still (request : RecordMovementRequest) (db : Db) :
    recordMovementAt now storeId actor request (.still db) =
      InventoryService.record now storeId actor request db := by
  simp only [recordMovementAt, InventoryService.record, bind, Except.bind]
  cases actor.require .manageProducts with
  | error e => rfl
  | ok _ =>
    dsimp only
    cases stockEffect (toLowercase (trim request.movement)) (quantityFromF64 request.quantity) with
    | error e => rfl
    | ok r =>
      dsimp only [Moments.still]
      split_ifs
      · rfl
      · have hstore : (entryOf now storeId actor request r.1 r.2 db).storeId = storeId := rfl
        unfold recordMovement
        rw [hstore]
        cases find storeId (entryOf now storeId actor request r.1 r.2 db).productId db with
        | none => rfl
        | some p =>
          dsimp only [moveAfter]
          split_ifs <;> rfl

/-- With nobody writing in between a row does what it does on its own. -/
theorem pushRowAt_still (o : Outcome) (row : PushRow) (db : Db) :
    pushRowAt now storeId actor o row (.still db) = pushRow now storeId actor (o, db) row := by
  have happly : applyAt now storeId actor row (.still db) = row.apply now storeId actor db := by
    cases row with
    | product request => rfl
    | sale request => rfl
    | movement request => exact congrArg (Except.map _) (recordMovementAt_still request db)
    | expense request => rfl
    | withdrawal request => rfl
    | deletion request => rfl
  rw [pushRowAt, pushRow, happly]
  rfl

end

/-- Whether the row's identifier names a row of another store. -/
def Foreign (storeId : Uuid) (db : Db) : PushRow → Prop
  | .product request => ∃ id p, request.id = some id ∧ db.products.find? id = some p ∧
      p.storeId ≠ storeId
  | .sale request => ∃ id s, request.id = some id ∧ db.sales.find? id = some s ∧
      s.storeId ≠ storeId
  | .movement request => ∃ id r, request.id = some id ∧ db.stockMovements.find? id = some r ∧
      r.storeId ≠ storeId
  | .expense request => ∃ id e, request.id = some id ∧ db.expenses.find? id = some e ∧
      e.storeId ≠ storeId
  | .withdrawal request => ∃ id w, request.id = some id ∧ db.ownerWithdrawals.find? id = some w ∧
      w.storeId ≠ storeId
  | .deletion _ => False

/-- Whether a row is reported as rejected and leaves the database as the
others made it. -/
def TurnedAway (now : Timestamp) (storeId : Uuid) (actor : Actor) (row : PushRow) (m : Moments) :
    Prop :=
  ∃ e, ∀ o, pushRowAt now storeId actor o row m = (o.addRejected row.entity row.id? e, m.writing)

/-- Whether a sale goes through although its identifier may be foreign by
the time it is written: it is in order, and the locking read did not show
another store's sale. -/
structure SaleSlips (storeId : Uuid) (actor : Actor) (request : RecordSaleRequest) (id : Uuid)
    (m : Moments) : Prop where
  /-- The payment method is one of the allowed ones. -/
  method : ∃ method, normalisePaymentMethod request.paymentMethod = .ok method
  /-- Every line has its product listed, or a price. -/
  resolvable : ∀ item ∈ request.items, Resolvable storeId m.reading item
  /-- The locking read showed no sale, or one the sender may record. -/
  unseen : ∀ s, m.checking.sales.find? id = some s → s.storeId = storeId ∧
    (s.deletedAt = none → actor.isOwner = false → s.recordedByStaffId = actor.staffId)
  /-- Unless it showed a voided one, the lines can be written. -/
  lines : (∃ s, m.checking.sales.find? id = some s ∧ s.deletedAt ≠ none) ∨
    (lineIds m.writing request.items 0).Nodup ∧
      (∀ line ∈ lineIds m.writing request.items 0, ∀ item,
        m.writing.saleItems.find? line = some item → item.saleId = id) ∧
      ∀ item ∈ request.items, ∀ product, item.productId = some product →
        (m.writing.products.find? product).isSome

/-- Whether a row goes through although its identifier may be foreign: an
admissible stock movement of a listed product, or a sale whose locking read
did not show another store's. -/
def Slips (storeId : Uuid) (actor : Actor) (m : Moments) : PushRow → Prop
  | .movement request => actor.can .manageProducts = true ∧
      (∃ kind effect, stockEffect (toLowercase (trim request.movement))
        (quantityFromF64 request.quantity) = .ok (kind, effect) ∧
          (kind = .adjustment ∨ quantityFromF64 request.quantity ≠ 0)) ∧
      (find storeId request.productId m.checking).isSome
  | .sale request => ∃ id, request.id = some id ∧ SaleSlips storeId actor request id m
  | _ => False

section

variable {now : Timestamp} {storeId : Uuid} {actor : Actor} {m : Moments}

/-- A row is turned away when applying it fails. -/
theorem turnedAway_iff {row : PushRow} :
    TurnedAway now storeId actor row m ↔ ∃ e, applyAt now storeId actor row m = .error e := by
  unfold TurnedAway pushRowAt
  cases applyAt now storeId actor row m with
  | error e => exact ⟨fun _ => ⟨e, rfl⟩, fun _ => ⟨e, fun _ => rfl⟩⟩
  | ok r =>
    constructor
    · rintro ⟨e, h⟩
      have hrejected := congrArg (fun s : PushState => s.1.rejected) (h Outcome.empty)
      cases hid : r.1 <;> simp [hid, Outcome.addAppliedIfKnown, Outcome.addApplied,
        Outcome.addRejected, Outcome.empty] at hrejected
    · rintro ⟨e, h⟩
      cases h

/-- A foreign product is refused by its insert-or-update. -/
theorem product_turnedAway {request : SaveProductRequest}
    (h : Foreign storeId m.writing (.product request)) :
    ∃ e, applyAt now storeId actor (.product request) m = .error e := by
  obtain ⟨id, p, hid, hp, hother⟩ := h
  have hupsert : ∀ values, upsert now storeId id values m.writing = .error foreignId := by
    intro values
    rw [upsert, hp, upsertRow, if_neg hother]
  simp only [applyAt, saveAt, hid, Option.getD_some, hupsert, bind, Except.bind]
  cases actor.require .manageProducts with
  | error e => exact ⟨e, rfl⟩
  | ok _ =>
    dsimp only
    split_ifs
    · exact ⟨_, rfl⟩
    · exact ⟨_, rfl⟩

/-- A foreign expense is refused by its insert-or-update. -/
theorem expense_turnedAway {request : RecordExpenseRequest}
    (h : Foreign storeId m.writing (.expense request)) :
    ∃ e, applyAt now storeId actor (.expense request) m = .error e := by
  obtain ⟨id, row, hid, hrow, hother⟩ := h
  have hupsert : ∀ values, ExpenseService.upsert now storeId id values actor m.writing = none := by
    intro values
    rw [ExpenseService.upsert, hrow, ExpenseService.upsertRow, if_neg fun hc => hother hc.1]
    rfl
  simp only [applyAt, PushRow.apply, ExpenseService.record, hid, Option.getD_some, hupsert, bind,
    Except.bind]
  cases actor.require .recordExpenses with
  | error e => exact ⟨e, rfl⟩
  | ok _ =>
    dsimp only
    cases ExpenseService.parseCategory request.category with
    | error e => exact ⟨e, rfl⟩
    | ok category => exact ⟨_, rfl⟩

/-- A foreign withdrawal is refused by its insert-or-update. -/
theorem withdrawal_turnedAway {request : RecordWithdrawalRequest}
    (h : Foreign storeId m.writing (.withdrawal request)) :
    ∃ e, applyAt now storeId actor (.withdrawal request) m = .error e := by
  obtain ⟨id, row, hid, hrow, hother⟩ := h
  have hupsert : ∀ values, WithdrawalService.upsert now storeId id values m.writing = none := by
    intro values
    rw [WithdrawalService.upsert, hrow, WithdrawalService.upsertRow, if_neg hother]
    rfl
  simp only [applyAt, PushRow.apply, WithdrawalService.record, hid, Option.getD_some, hupsert,
    bind, Except.bind]
  cases actor.requireOwner with
  | error e => exact ⟨e, rfl⟩
  | ok _ => exact ⟨_, rfl⟩

/-- A stock movement never looks whose identifier it carries. -/
theorem movement_turnedAway_iff {request : RecordMovementRequest} :
    (∃ e, applyAt now storeId actor (.movement request) m = .error e) ↔
      ¬Slips storeId actor m (.movement request) := by
  simp only [applyAt, recordMovementAt, bind, Except.bind, Slips]
  by_cases hcan : actor.can .manageProducts = true
  · rw [Actor.require_eq_ok.mpr hcan]
    dsimp only
    cases heffect : stockEffect (toLowercase (trim request.movement))
      (quantityFromF64 request.quantity) with
    | error e =>
      refine ⟨fun _ => ?_, fun _ => ⟨e, rfl⟩⟩
      rintro ⟨-, ⟨kind, effect, h, -⟩, -⟩
      cases h
    | ok r =>
      dsimp only
      by_cases hfigures : r.1 ≠ .adjustment ∧ quantityFromF64 request.quantity = 0
      · rw [if_pos hfigures]
        refine ⟨fun _ => ?_, fun _ => ⟨_, rfl⟩⟩
        rintro ⟨-, ⟨kind, effect, h, hq⟩, -⟩
        cases h
        exact hq.elim hfigures.1 fun hne => hne hfigures.2
      · rw [if_neg hfigures]
        have hproduct : (entryOf now storeId actor request r.1 r.2 m.writing).productId =
          request.productId := rfl
        rw [hproduct]
        cases hfind : find storeId request.productId m.checking with
        | none =>
          refine ⟨fun _ => ?_, fun _ => ⟨_, rfl⟩⟩
          rintro ⟨-, -, h⟩
          cases h
        | some p =>
          constructor
          · rintro ⟨e, h⟩
            cases h
          · intro hno
            refine absurd ⟨hcan, ⟨r.1, r.2, rfl, ?_⟩, rfl⟩ hno
            by_contra hc
            exact hfigures (not_or.mp hc |>.imp_right not_not.mp)
  · have hrefused : actor.require .manageProducts =
        .error (.forbidden (Permission.manageProducts).refusal) := by
      rw [Actor.require, if_neg hcan]
    rw [hrefused]
    exact ⟨fun _ h => hcan h.1, fun _ => ⟨_, rfl⟩⟩

theorem lineIds_congr (a b : Db) (h : a.saleItems = b.saleItems) (items : List SaleLineRequest)
    (i : ℕ) : lineIds a items i = lineIds b items i := by
  induction items generalizing i with
  | nil => rfl
  | cons item rest ih =>
    simp only [lineIds, h, ih]

/-- What the lookups of a sale settle. -/
theorem lines_resolved {request : RecordSaleRequest} {lines : List PreparedLine}
    (h : resolveLines storeId m.resolving (visibleItems actor request.items) 0 = .ok lines) :
    (∀ item ∈ request.items, Resolvable storeId m.reading item) ∧
      lines.map PreparedLine.id = lineIds m.writing request.items 0 ∧
      lines.map PreparedLine.productId = request.items.map SaleLineRequest.productId := by
  obtain ⟨hres, hids, hproducts⟩ := resolveLines_eq_ok h
  have hdrawn := lineIds_congr m.resolving m.writing rfl request.items 0
  rw [lineIds_visible, hdrawn] at hids
  rw [productIds_visible] at hproducts
  exact ⟨resolvable_visible hres, hids, hproducts⟩

/-- Undoing a sale does not decide whether its lines can be written. -/
theorem writable_undo_iff {sale : PreparedSale} {staffId : Option Uuid} {db : Db} :
    Writable sale.lines (readied now sale staffId (undoSale now sale.id sale.storeId db)) ↔
      Writable sale.lines (readied now sale staffId db) := by
  rw [writable_readied_iff rfl rfl, writable_readied_iff rfl rfl]
  simp only [undoSale_products, Option.isSome_map]
  rfl

/-- When the writes of a sale go through after its locking read. -/
theorem recordAfter_ok_iff {sale : PreparedSale} {existing : Option Sale} {db : Db} :
    (∃ r, recordAfter now (Uuid.newV4 db.stockMovements) sale (recorderOf actor) existing db =
      .ok r) ↔
      (∀ s, existing = some s → s.storeId = sale.storeId ∧
        (s.deletedAt = none → actor.isOwner = false → s.recordedByStaffId = actor.staffId)) ∧
      ((∃ s, existing = some s ∧ s.deletedAt ≠ none) ∨
        Writable sale.lines (readied now sale (recorderOf actor).staffId db)) := by
  have hinj := Uuid.newV4_injective db.stockMovements
  have hwrite : ∀ (created : Bool) (base : Db),
      (∀ j, base.stockMovements.find? (Uuid.newV4 db.stockMovements j) = none) →
      ((∃ r, writeSale now (Uuid.newV4 db.stockMovements) sale (recorderOf actor) created base =
        .ok r) ↔ Writable sale.lines (readied now sale (recorderOf actor).staffId base)) := by
    intro created base hfree
    constructor
    · rintro ⟨r, h⟩
      exact (written_of_writeSale hinj hfree h).1
    · intro hw
      obtain ⟨stored, db', h, -⟩ := writeSale_written created hinj hw hfree
      exact ⟨_, h⟩
  have hfree := Uuid.find?_newV4 db.stockMovements
  cases existing with
  | none =>
    have hnone : ¬∃ s : Sale, (none : Option Sale) = some s ∧ s.deletedAt ≠ none := by
      rintro ⟨s, hs, -⟩
      cases hs
    rw [or_iff_right hnone, and_iff_right fun s hs => by cases hs]
    exact hwrite true db hfree
  | some s =>
    simp only [recordAfter, Option.some.injEq, forall_eq', exists_eq_left']
    by_cases hstore : s.storeId = sale.storeId
    · rw [if_neg (not_not.mpr hstore)]
      cases hgone : s.deletedAt with
      | some t =>
        rw [if_pos (by rfl)]
        refine ⟨fun _ => ⟨⟨hstore, fun h => by cases h⟩, Or.inl (Option.some_ne_none t)⟩,
          fun _ => ⟨_, rfl⟩⟩
      | none =>
        rw [if_neg (by simp)]
        by_cases hmay : (recorderOf actor).isOwner = false ∧
            s.recordedByStaffId ≠ (recorderOf actor).staffId
        · rw [if_pos hmay]
          constructor
          · rintro ⟨r, h⟩
            cases h
          · rintro ⟨⟨-, hby⟩, -⟩
            exact absurd (hby rfl hmay.1) hmay.2
        · rw [if_neg hmay, hwrite false _ fun j => by rw [undoSale_stockMovements, hfree]; rfl,
            writable_undo_iff]
          constructor
          · intro hw
            refine ⟨⟨hstore, fun _ hstaff => ?_⟩, Or.inr hw⟩
            by_contra hne
            exact hmay ⟨hstaff, hne⟩
          · rintro ⟨-, hw⟩
            exact hw.resolve_left fun hne => hne rfl
    · rw [if_pos hstore]
      constructor
      · rintro ⟨r, h⟩
        cases h
      · exact fun h => absurd h.1.1 hstore

/-- A sale goes through exactly when it slips. -/
theorem sale_ok_iff {request : RecordSaleRequest} {id : Uuid} (hid : request.id = some id) :
    (∃ r, recordSaleAt now storeId actor request m = .ok r) ↔
      SaleSlips storeId actor request id m := by
  constructor
  · rintro ⟨r, h⟩
    obtain ⟨method, hmethod, h⟩ := bind_eq_ok.mp h
    obtain ⟨lines, hlines, h⟩ := bind_eq_ok.mp h
    obtain ⟨recorded, hrecord, -⟩ := bind_eq_ok.mp h
    obtain ⟨hres, hids, hproducts⟩ := lines_resolved hlines
    rw [hid, Option.getD_some] at hrecord
    obtain ⟨hseen, hwritable⟩ := recordAfter_ok_iff.mp ⟨recorded, hrecord⟩
    refine ⟨⟨method, hmethod⟩, hres, hseen, hwritable.imp_right fun hw => ?_⟩
    obtain ⟨hnodup, hfree, hknown⟩ := (@writable_readied_iff now
      (prepareSale now storeId id method request lines) _ m.writing _ _ hids hproducts).mp hw
    exact ⟨hnodup, hfree, fun item hitem product hp =>
      hknown item.productId (List.mem_map_of_mem hitem) product hp⟩
  · rintro ⟨⟨method, hmethod⟩, hres, hseen, hwritable⟩
    obtain ⟨lines, hlines, -⟩ := @resolveLines_visible storeId actor m.resolving
      request.items hres
    obtain ⟨-, hids, hproducts⟩ := lines_resolved hlines
    have hrecord : ∃ r, recordAfter now (Uuid.newV4 m.writing.stockMovements)
        (prepareSale now storeId id method request lines) (recorderOf actor)
        (m.checking.sales.find? id) m.writing = .ok r := by
      refine recordAfter_ok_iff.mpr ⟨hseen, hwritable.imp_right ?_⟩
      rintro ⟨hnodup, hfree, hknown⟩
      refine (@writable_readied_iff now (prepareSale now storeId id method request lines) _ m.writing
        _ _ hids hproducts).mpr ⟨hnodup, hfree, ?_⟩
      intro product hproduct productId hp
      obtain ⟨item, hitem, rfl⟩ := List.mem_map.mp hproduct
      exact hknown item hitem productId hp
    obtain ⟨recorded, hrecord⟩ := hrecord
    simp only [recordSaleAt, hmethod, hid, Option.getD_some, hlines, hrecord, bind, Except.bind]
    exact ⟨_, rfl⟩

end

/-- The owner of the first store. -/
def riceSeller : Actor := ⟨⟨2⟩, "Ana", "Phone", none⟩

/-- The owner of the second store. -/
def soapSeller : Actor := ⟨⟨4⟩, "Ben", "Phone", none⟩

/-- A product as its owner's phone lists it. -/
def listed (id : Uuid) (name : String) (price : ℚ) : PushRow :=
  .product ⟨some id, name, none, "pcs", 0, price, 10, 0⟩

/-- A sale of one unit of a product. -/
def saleOf (saleId lineId productId : Uuid) : PushRow :=
  .sale ⟨some saleId, none, 0, none, some 4, [⟨some lineId, some productId, none, 1, none, none⟩]⟩

/-- Two stores with a product each. -/
def twoStores : Db :=
  (pushRow 2 ⟨3⟩ soapSeller (pushRow 1 ⟨1⟩ riceSeller (Outcome.empty, Db.empty)
    (listed ⟨10⟩ "Rice" 75)) (listed ⟨12⟩ "Soap" 30)).2

/-- After the second store recorded its sale. -/
def soapSold : Db :=
  (pushRow 5 ⟨3⟩ soapSeller (Outcome.empty, twoStores) (saleOf ⟨20⟩ ⟨22⟩ ⟨12⟩)).2

end Kitaza.ForeignIds
