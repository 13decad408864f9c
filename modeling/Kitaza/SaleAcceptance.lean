import Kitaza.RowEffects

/-!
# When a live sale is recorded again

Recording a sale the server already has goes through exactly when its
payment method is known, its lines can be resolved, and their identifiers
are distinct and used by no other sale.
-/

namespace Kitaza.SaleAcceptance

open KeyedTable Primitives Access Schema Payloads SaleRepository SaleService SaleEffects RowEffects

/-- The identifiers of lines, drawn where the device sent none. -/
def lineIds (db : Db) : List SaleLineRequest → ℕ → List Uuid
  | [], _ => []
  | item :: rest, i => item.id.getD (Uuid.newV4 db.saleItems i) :: lineIds db rest (i + 1)

/-- Whether a sale row is in order, as far as the server's rows go. -/
structure Acceptable (storeId : Uuid) (request : RecordSaleRequest) (saleId : Uuid) (db : Db) :
    Prop where
  /-- The payment method is one of the allowed ones. -/
  method : ∃ method, normalisePaymentMethod request.paymentMethod = .ok method
  /-- Every line has its product listed, or a price. -/
  resolvable : ∀ item ∈ request.items, Resolvable storeId db item
  /-- No two lines share an identifier. -/
  distinct : (lineIds db request.items 0).Nodup
  /-- No line of another sale has one of them. -/
  free : ∀ id ∈ lineIds db request.items 0, ∀ item, db.saleItems.find? id = some item →
    item.saleId = saleId

section Lines

variable {storeId : Uuid} {db : Db}

/-- What resolving one line keeps of it. -/
theorem resolveLine_eq_ok {lineId : Uuid} {item : SaleLineRequest} {line : PreparedLine}
    (h : resolveLine storeId lineId item db = .ok line) :
    Resolvable storeId db item ∧ line.id = lineId ∧ line.productId = item.productId := by
  unfold Resolvable
  obtain ⟨productId, product, hp, hfind, rfl⟩ | ⟨unitPrice, hp, hprice, rfl⟩ := resolveLine_iff.mp h
  · rw [hp]
    dsimp only
    rw [hfind]
    exact ⟨rfl, rfl, hp⟩
  · rw [hp]
    dsimp only
    rw [hprice]
    exact ⟨rfl, rfl, hp⟩

/-- What resolving lines keeps of them. -/
theorem resolveLines_eq_ok {items : List SaleLineRequest} {i : ℕ} {lines : List PreparedLine}
    (h : resolveLines storeId db items i = .ok lines) :
    (∀ item ∈ items, Resolvable storeId db item) ∧
      lines.map PreparedLine.id = lineIds db items i ∧
      lines.map PreparedLine.productId = items.map SaleLineRequest.productId := by
  induction items generalizing i lines with
  | nil =>
    cases h
    exact ⟨fun _ hmem => (by cases hmem), rfl, rfl⟩
  | cons item rest ih =>
    obtain ⟨line, hline, h⟩ := bind_eq_ok.mp h
    obtain ⟨others, hothers, h⟩ := bind_eq_ok.mp h
    cases h
    obtain ⟨hres, hid, hproduct⟩ := resolveLine_eq_ok hline
    obtain ⟨hress, hids, hproducts⟩ := ih hothers
    refine ⟨?_, ?_, ?_⟩
    · intro it hit
      rcases List.mem_cons.mp hit with rfl | hit
      · exact hres
      · exact hress it hit
    · rw [List.map_cons, hid, hids]
      rfl
    · rw [List.map_cons, List.map_cons, hproduct, hproducts]

/-- A product that a line can be resolved with is stored. -/
theorem stored_of_resolvable {item : SaleLineRequest} {id : Uuid}
    (h : Resolvable storeId db item) (hid : item.productId = some id) :
    (db.products.find? id).isSome := by
  rw [Resolvable, hid] at h
  obtain ⟨p, hp⟩ := Option.isSome_iff_exists.mp h
  rw [(ProductService.find_eq_some.mp hp).1]
  rfl

theorem productIds_visible (actor : Actor) (items : List SaleLineRequest) :
    (visibleItems actor items).map SaleLineRequest.productId =
      items.map SaleLineRequest.productId := by
  unfold visibleItems
  split_ifs
  · rfl
  · rw [List.map_map]
    rfl

theorem lineIds_visible (actor : Actor) (items : List SaleLineRequest) (i : ℕ) :
    lineIds db (visibleItems actor items) i = lineIds db items i := by
  unfold visibleItems
  split_ifs
  · rfl
  · induction items generalizing i with
    | nil => rfl
    | cons item rest ih => exact congrArg (_ :: ·) (ih (i + 1))

theorem resolvable_visible {actor : Actor} {items : List SaleLineRequest}
    (h : ∀ item ∈ visibleItems actor items, Resolvable storeId db item) :
    ∀ item ∈ items, Resolvable storeId db item := by
  intro item hitem
  unfold visibleItems at h
  split_ifs at h
  · exact h item hitem
  · have hvisible := h { item with unitCost := none } (List.mem_map.mpr ⟨item, hitem, rfl⟩)
    exact hvisible

end Lines

/-- When the lines of a sale can be written once its old ones are gone. -/
theorem writable_readied_iff {now : Timestamp} {sale : PreparedSale} {staffId : Option Uuid}
    {db : Db} {ids : List Uuid} {products : List (Option Uuid)}
    (hids : sale.lines.map PreparedLine.id = ids)
    (hproducts : sale.lines.map PreparedLine.productId = products) :
    Writable sale.lines (readied now sale staffId db) ↔
      ids.Nodup ∧
      (∀ id ∈ ids, ∀ item, db.saleItems.find? id = some item → item.saleId = sale.id) ∧
      ∀ product ∈ products, ∀ id, product = some id → (db.products.find? id).isSome := by
  subst hids hproducts
  constructor
  · intro hw
    refine ⟨hw.nodup, ?_, ?_⟩
    · intro id hid item hitem
      obtain ⟨l, hl, rfl⟩ := List.mem_map.mp hid
      have hnone := hw.free l hl
      change (db.saleItems.filter _).find? l.id = none at hnone
      rw [Table.find?_filter, hitem, Option.filter_eq_none_iff] at hnone
      simpa using hnone item rfl
    · intro product hproduct id hid
      obtain ⟨l, hl, rfl⟩ := List.mem_map.mp hproduct
      exact hw.known l hl id hid
  · rintro ⟨hnodup, hfree, hknown⟩
    exact Writable.of_readied now staffId hnodup
      (fun l hl item hitem => hfree l.id (List.mem_map_of_mem hl) item hitem)
      fun l hl id hid => hknown l.productId (List.mem_map_of_mem hl) id hid

section

variable {now : Timestamp} {storeId saleId : Uuid} {actor : Actor} {request : RecordSaleRequest}
  {db : Db}

/-- A live sale that was recorded again was acceptable. -/
theorem acceptable_of_sold {sale : PreparedSale}
    (asked : SaleAsked now storeId actor request db sale)
    (writable : Writable sale.lines (readied now sale (recorderOf actor).staffId
      (undoSale now sale.id sale.storeId db))) :
    Acceptable storeId request sale.id db := by
  obtain ⟨hres, hids, -⟩ := resolveLines_eq_ok asked.lines
  rw [lineIds_visible] at hids
  obtain ⟨hnodup, hfree, -⟩ := (writable_readied_iff hids rfl).mp writable
  exact ⟨asked.method, resolvable_visible hres, hnodup, hfree⟩

/-- A live sale of the sender that is acceptable is recorded again. -/
theorem record_of_acceptable (hid : request.id = some saleId) {existing : Sale}
    (hfound : db.sales.find? saleId = some existing) (hown : existing.storeId = storeId)
    (hlive : existing.deletedAt = none)
    (hmay : actor.isOwner = false → existing.recordedByStaffId = actor.staffId)
    (h : Acceptable storeId request saleId db) :
    ∃ detail db', SaleService.record now storeId actor request db = .ok (detail, db') := by
  obtain ⟨method, hmethod⟩ := h.method
  obtain ⟨lines, hlines, -⟩ := @resolveLines_visible storeId actor db request.items h.resolvable
  obtain ⟨-, hids, hproducts⟩ := resolveLines_eq_ok hlines
  rw [lineIds_visible] at hids
  rw [productIds_visible] at hproducts
  have hw : Writable lines (readied now (prepareSale now storeId saleId method request lines)
      (recorderOf actor).staffId (undoSale now saleId storeId db)) := by
    refine (@writable_readied_iff now (prepareSale now storeId saleId method request lines) _
      (undoSale now saleId storeId db) _ _ hids hproducts).mpr ⟨h.distinct, h.free, ?_⟩
    intro product hproduct id hid
    obtain ⟨item, hitem, rfl⟩ := List.mem_map.mp hproduct
    rw [undoSale_products, Option.isSome_map]
    exact stored_of_resolvable (h.resolvable item hitem) hid
  obtain ⟨stored, db', hrecord, -⟩ := @record_again now (Uuid.newV4 db.stockMovements)
    (prepareSale now storeId saleId method request lines) (recorderOf actor) db existing hfound hown
    hlive hmay (Uuid.newV4_injective _) hw (Uuid.find?_newV4 _)
  exact ⟨_, _, service_record_ok hmethod hid hlines hrecord⟩

end

end Kitaza.SaleAcceptance
