import Kitaza.RenamedTable
import Kitaza.SaleAcceptance

/-!
# What becomes of a sale that is sent

Whether a sale is refused, left as it is or written depends on the request, the
products its lines name, its own row and the lines stored under its lines'
identifiers. A sale that is written changes the products, the sales, the lines
and the ledger in one way, whatever else they hold.
-/

namespace Kitaza.SaleVerdict

open KeyedTable Primitives Access Schema Payloads SaleRepository SaleService SaleEffects
  SaleAcceptance RowEffects SyncPush RenamedTable

/-- What becomes of a sale. -/
inductive Verdict where
  /-- It is refused, for a reason. -/
  | refused (reason : String)
  /-- It was voided, and stays as it is. -/
  | kept (id : Uuid)
  /-- It is written over the row it had, if any. -/
  | written (sale : PreparedSale) (existing : Option Sale)

/-- Whether a sale's lines can be inserted: their identifiers are distinct, and
no line of another sale has one of them. -/
def Insertable (sale : PreparedSale) (db : Db) : Prop :=
  (sale.lines.map PreparedLine.id).Nodup ∧ ∀ l ∈ sale.lines,
    ((db.saleItems.find? l.id).all fun item => item.saleId == sale.id) = true

instance (sale : PreparedSale) (db : Db) : Decidable (Insertable sale db) :=
  inferInstanceAs (Decidable (_ ∧ _))

/-- What a device is told when the database refused a row. -/
def REFUSED_BY_DATABASE : String := reasonOf (.internal "")

/-- What becomes of a sale whose lines are resolved. -/
def repositoryVerdict (recorder : Recorder) (sale : PreparedSale) (db : Db) : Verdict :=
  match db.sales.find? sale.id with
  | none =>
    if Insertable sale db then .written sale none else .refused REFUSED_BY_DATABASE
  | some existing =>
    if existing.storeId ≠ sale.storeId then .refused (reasonOf foreignId)
    else if existing.deletedAt.isSome then .kept sale.id
    else if recorder.isOwner = false ∧ existing.recordedByStaffId ≠ recorder.staffId then
      .refused (reasonOf (.forbidden "only the owner can change a sale someone else recorded"))
    else if Insertable sale db then .written sale (some existing)
    else .refused REFUSED_BY_DATABASE

/-- What becomes of a sale. -/
def verdict (now : Timestamp) (storeId : Uuid) (actor : Actor) (request : RecordSaleRequest)
    (db : Db) : Verdict :=
  match normalisePaymentMethod request.paymentMethod with
  | .error e => .refused (reasonOf e)
  | .ok method =>
    match resolveLines storeId db (visibleItems actor request.items) 0 with
    | .error e => .refused (reasonOf e)
    | .ok lines =>
      repositoryVerdict (recorderOf actor) (prepareSale now storeId
        (request.id.getD (Uuid.newV4 db.sales 0)) method request lines) db

/-- The ledger rows of a sale. -/
def ledgerRows (now : Timestamp) (sale : PreparedSale) : List StockMovement :=
  sale.lines.filterMap fun line => line.productId.map (saleMovement now sale line)

/-- A product after a sale: what the sale took before is given back if it was
stored, then the lines take their stock. -/
def soldFrom (joins : JoinRule) (now : Timestamp) (sale : PreparedSale) (stored : Bool)
    (saleItems : Table Uuid SaleItem) (id : Uuid) (p : Product) : Product :=
  deducted now sale.storeId sale.lines id
    (if stored then restored joins now sale.id sale.storeId saleItems id p else p)

/-- A ledger row after a sale: it is retired if the sale was stored and the row
is the sale's. -/
def retiredFor (now : Timestamp) (sale : PreparedSale) (stored : Bool) (m : StockMovement) :
    StockMovement :=
  if stored then retired now sale.id sale.storeId m else m

/-- An identifier on the server's side. -/
def Drawn (id : Uuid) : Prop := id.drawnByServer = true

/-- What writing a sale does. -/
structure Wrote (now : Timestamp) (staffId : Option Uuid) (sale : PreparedSale)
    (existing : Option Sale) (db db' : Db) : Prop where
  /-- Its row is put. -/
  sales : db'.sales = db.sales.put sale.id (upsertedSale now sale staffId existing)
  /-- The products give its stock. -/
  products : ∀ id, db'.products.find? id =
    (db.products.find? id).map (soldFrom db.joins now sale existing.isSome db.saleItems id)
  /-- Its lines are there in place of its earlier ones. -/
  saleItems : ∀ k item, db'.saleItems.find? k = some item ↔
    (∃ l ∈ sale.lines, l.id = k ∧ item = storedLine sale.id l) ∨
      db.saleItems.find? k = some item ∧ item.saleId ≠ sale.id
  /-- Its earlier ledger rows are retired, and its new ones drawn. -/
  stockMovements : Grown Drawn
    (db.stockMovements.mapRows fun _ => retiredFor now sale existing.isSome)
    (ledgerRows now sale) db'.stockMovements
  /-- The expenses are as they were. -/
  expenses : db'.expenses = db.expenses
  /-- So are the withdrawals. -/
  ownerWithdrawals : db'.ownerWithdrawals = db.ownerWithdrawals
  /-- The engine is the same. -/
  joins : db'.joins = db.joins

/-- The ledger grows by the rows of the lines. -/
theorem grown_of_recordLines {now : Timestamp} {drawn : ℕ → Uuid} {sale : PreparedSale}
    (hdrawn : ∀ i, Drawn (drawn i)) {lines : List PreparedLine} {i : ℕ} {db db' : Db}
    (h : recordLines now drawn sale lines i db = .ok db') :
    Grown Drawn db.stockMovements
      (lines.filterMap fun line => line.productId.map (saleMovement now sale line))
      db'.stockMovements := by
  induction lines generalizing i db with
  | nil =>
    cases h
    exact .done _
  | cons line rest ih =>
    obtain ⟨db₁, hline, hrest⟩ := bind_eq_ok.mp h
    have hgrown := ih hrest
    obtain ⟨-, ⟨hp, rfl⟩ | ⟨productId, p, hp, -, hnew, rfl⟩⟩ := recordLine_eq_ok hline
    · rw [List.filterMap_cons, hp]
      exact hgrown
    · rw [List.filterMap_cons, hp]
      exact .put hnew (hdrawn i) hgrown

/-- Only the database refuses a line. -/
theorem internal_of_recordLine {now : Timestamp} {movementId : Uuid} {sale : PreparedSale}
    {line : PreparedLine} {db : Db} {e : ApiError}
    (h : recordLine now movementId sale line db = .error e) : ∃ cause, e = .internal cause := by
  unfold recordLine at h
  cases hitem : insertItem sale.id line db with
  | error e' =>
    rw [hitem] at h
    cases h
    unfold insertItem at hitem
    split_ifs at hitem
    · cases hitem
      exact ⟨_, rfl⟩
    · cases hitem
      exact ⟨_, rfl⟩
  | ok db₁ =>
    rw [hitem] at h
    cases hp : line.productId with
    | none =>
      simp only [hp] at h
      cases h
    | some productId =>
      simp only [hp] at h
      change insertMovement _ _ _ = _ at h
      unfold insertMovement at h
      split_ifs at h
      · cases h
        exact ⟨_, rfl⟩
      · cases h
        exact ⟨_, rfl⟩

theorem internal_of_recordLines {now : Timestamp} {drawn : ℕ → Uuid} {sale : PreparedSale}
    {lines : List PreparedLine} {i : ℕ} {db : Db} {e : ApiError}
    (h : recordLines now drawn sale lines i db = .error e) : ∃ cause, e = .internal cause := by
  induction lines generalizing i db with
  | nil => cases h
  | cons line rest ih =>
    rw [recordLines] at h
    cases hline : recordLine now (drawn i) sale line db with
    | error e' =>
      rw [hline] at h
      cases h
      exact internal_of_recordLine hline
    | ok db₁ =>
      rw [hline] at h
      exact ih h

/-- Lines that can be inserted can be written, once the sale's own are gone. -/
theorem insertable_iff {now : Timestamp} {sale : PreparedSale} {staffId : Option Uuid} {db : Db}
    (hknown : ∀ l ∈ sale.lines, ∀ id, l.productId = some id → (db.products.find? id).isSome) :
    Insertable sale db ↔ Writable sale.lines (readied now sale staffId db) := by
  rw [writable_readied_iff rfl rfl, Insertable]
  refine and_congr_right fun _ => ⟨fun h => ⟨?_, ?_⟩, fun h l hl => ?_⟩
  · intro id hid item hitem
    obtain ⟨l, hl, rfl⟩ := List.mem_map.mp hid
    have hall := h l hl
    rw [hitem, Option.all_some, beq_iff_eq] at hall
    exact hall
  · intro product hproduct id hid
    obtain ⟨l, hl, rfl⟩ := List.mem_map.mp hproduct
    exact hknown l hl id hid
  · cases hitem : db.saleItems.find? l.id with
    | none => rfl
    | some item =>
      rw [Option.all_some, beq_iff_eq]
      exact h.1 l.id (List.mem_map_of_mem hl) item hitem

section

variable {now : Timestamp} {drawn : ℕ → Uuid} {sale : PreparedSale} {recorder : Recorder}
  {db : Db}

/-- Writing a sale whose lines can be inserted. -/
theorem writeSale_insertable (created : Bool) (hinj : Function.Injective drawn)
    (hdrawn : ∀ i, Drawn (drawn i)) (hfree : ∀ i, db.stockMovements.find? (drawn i) = none)
    (hknown : ∀ l ∈ sale.lines, ∀ id, l.productId = some id → (db.products.find? id).isSome)
    (hi : Insertable sale db) :
    ∃ stored db', writeSale now drawn sale recorder created db =
        .ok (⟨sale.id, stored, created⟩, db') ∧
      LinesWritten now drawn sale sale.lines 0 (readied now sale recorder.staffId db) db' ∧
      Grown Drawn db.stockMovements (ledgerRows now sale) db'.stockMovements := by
  obtain ⟨stored, db', hok, hwritten⟩ := writeSale_written created hinj
    ((insertable_iff hknown).mp hi) hfree
  obtain ⟨db₁, hlines, hdone⟩ := bind_eq_ok.mp hok
  cases hdone
  have hgrown := grown_of_recordLines hdrawn hlines
  exact ⟨_, _, hok, hwritten, hgrown⟩

/-- Writing a sale whose lines cannot be inserted. -/
theorem writeSale_not_insertable (created : Bool)
    (hknown : ∀ l ∈ sale.lines, ∀ id, l.productId = some id → (db.products.find? id).isSome)
    (hi : ¬ Insertable sale db) :
    ∃ cause, writeSale now drawn sale recorder created db = .error (.internal cause) := by
  unfold writeSale
  cases hlines : recordLines now drawn sale sale.lines 0
      (deleteItems sale.id (upsertSale now sale recorder.staffId db)) with
  | ok db' =>
    exact absurd ((insertable_iff hknown).mpr (writable_of_recordLines hlines)) hi
  | error e =>
    obtain ⟨cause, rfl⟩ := internal_of_recordLines hlines
    exact ⟨cause, rfl⟩

/-- The statements of a written sale, from where its lines were written: `base`
is the database once the sale's earlier effect is undone. -/
theorem wrote_of_written {existing : Option Sale} {base db' : Db}
    (hsales : base.sales = db.sales) (hitems : base.saleItems = db.saleItems)
    (hexisting : db.sales.find? sale.id = existing)
    (hproducts : ∀ id, base.products.find? id = (db.products.find? id).map fun p =>
      if existing.isSome then restored db.joins now sale.id sale.storeId db.saleItems id p else p)
    (hmovements : base.stockMovements =
      db.stockMovements.mapRows fun _ => retiredFor now sale existing.isSome)
    (hexpenses : base.expenses = db.expenses)
    (hwithdrawals : base.ownerWithdrawals = db.ownerWithdrawals) (hjoins : base.joins = db.joins)
    (hwritten : LinesWritten now drawn sale sale.lines 0
      (readied now sale recorder.staffId base) db')
    (hgrown : Grown Drawn base.stockMovements (ledgerRows now sale) db'.stockMovements) :
    Wrote now recorder.staffId sale existing db db' where
  sales := by
    rw [hwritten.sales]
    change base.sales.put sale.id (upsertedSale now sale recorder.staffId
      (base.sales.find? sale.id)) = _
    rw [hsales, hexisting]
  products id := by
    rw [hwritten.products]
    change (base.products.find? id).map _ = _
    rw [hproducts, Option.map_map]
    rfl
  saleItems k item := by
    rw [hwritten.saleItems]
    apply or_congr_right
    change (base.saleItems.filter _).find? k = some item ↔ _
    rw [hitems, Table.find?_filter_eq_some, bne_iff_ne]
  stockMovements := by
    rw [← hmovements]
    exact hgrown
  expenses := hwritten.expenses.trans hexpenses
  ownerWithdrawals := hwritten.ownerWithdrawals.trans hwithdrawals
  joins := hwritten.joins.trans hjoins

/-- A result that a verdict foretells. -/
def Foretold (now : Timestamp) (staffId : Option Uuid) (db : Db)
    (result : Except ApiError (Uuid × Db)) : Verdict → Prop
  | .refused reason => ∃ e, result = .error e ∧ reasonOf e = reason
  | .kept id => ∃ db', result = .ok (id, db') ∧ SameRows db db'
  | .written sale existing => ∃ db', result = .ok (sale.id, db') ∧
    Wrote now staffId sale existing db db'

/-- The repository does what its verdict says. -/
theorem foretold_repository (hinj : Function.Injective drawn) (hdrawn : ∀ i, Drawn (drawn i))
    (hfree : ∀ i, db.stockMovements.find? (drawn i) = none)
    (hknown : ∀ l ∈ sale.lines, ∀ id, l.productId = some id → (db.products.find? id).isSome) :
    Foretold now recorder.staffId db
      ((SaleRepository.record now drawn sale recorder db).map fun r => (r.1.id, r.2))
      (repositoryVerdict recorder sale db) := by
  unfold SaleRepository.record repositoryVerdict
  cases hexisting : db.sales.find? sale.id with
  | none =>
    dsimp only
    by_cases hi : Insertable sale db
    · rw [if_pos hi]
      obtain ⟨stored, db', hok, hwritten, hgrown⟩ := @writeSale_insertable now drawn sale recorder
        db true hinj hdrawn hfree hknown hi
      refine ⟨db', by rw [hok]; rfl, wrote_of_written rfl rfl hexisting ?_ ?_ rfl rfl rfl hwritten
        hgrown⟩
      · intro id
        exact Option.map_id'.symm
      · exact (Table.mapRows_eq_self fun k r _ => rfl).symm
    · rw [if_neg hi]
      obtain ⟨cause, herror⟩ := @writeSale_not_insertable now drawn sale recorder db true hknown hi
      exact ⟨.internal cause, by rw [herror]; rfl, rfl⟩
  | some existing =>
    dsimp only
    split_ifs with hstore hgone hother hi
    · exact ⟨_, rfl, rfl⟩
    · exact ⟨db, rfl, rfl⟩
    · exact ⟨_, rfl, rfl⟩
    · have hfree' : ∀ i, (undoSale now sale.id sale.storeId db).stockMovements.find? (drawn i) =
          none := by
        intro i
        rw [undoSale_stockMovements, hfree i]
        rfl
      obtain ⟨stored, db', hok, hwritten, hgrown⟩ := @writeSale_insertable now drawn sale recorder
        (undoSale now sale.id sale.storeId db) false hinj hdrawn hfree' (fun l hl id hid => by
          rw [undoSale_products, Option.isSome_map]
          exact hknown l hl id hid) hi
      have hwrote := @wrote_of_written now drawn sale recorder db (some existing)
        (undoSale now sale.id sale.storeId db) db' rfl rfl hexisting (fun _ => rfl) rfl rfl rfl rfl
        hwritten hgrown
      exact ⟨db', by rw [hok]; rfl, hwrote⟩
    · obtain ⟨cause, herror⟩ := @writeSale_not_insertable now drawn sale recorder
        (undoSale now sale.id sale.storeId db) false (fun l hl id hid => by
          rw [undoSale_products, Option.isSome_map]
          exact hknown l hl id hid) hi
      exact ⟨.internal cause, by rw [herror]; rfl, rfl⟩

end

section

variable {now : Timestamp} {storeId : Uuid} {actor : Actor} {request : RecordSaleRequest}
  {db : Db}

theorem Wrote.of_rows {staffId : Option Uuid} {sale : PreparedSale} {existing : Option Sale}
    {db₁ db' : Db} (h : Wrote now staffId sale existing db db₁) (hrows : SameRows db₁ db') :
    Wrote now staffId sale existing db db' := by
  rw [hrows]
  exact { h with }

/-- The log is no part of what a verdict foretells. -/
theorem Foretold.of_rows {staffId : Option Uuid} {id : Uuid} {db₁ db' : Db} {v : Verdict}
    (h : Foretold now staffId db (.ok (id, db₁)) v) (hrows : SameRows db₁ db') :
    Foretold now staffId db (.ok (id, db')) v := by
  cases v with
  | refused reason =>
    obtain ⟨e, he, -⟩ := h
    cases he
  | kept id' =>
    obtain ⟨db₂, he, hsame⟩ := h
    cases he
    refine ⟨db', rfl, ?_⟩
    rw [hrows, hsame]
    rfl
  | written sale existing =>
    obtain ⟨db₂, he, hwrote⟩ := h
    cases he
    exact ⟨db', rfl, hwrote.of_rows hrows⟩

/-- The service does what its verdict says. -/
theorem foretold_record : Foretold now actor.staffId db
    ((SaleService.record now storeId actor request db).map fun r => (r.1.id, r.2))
    (verdict now storeId actor request db) := by
  unfold SaleService.record verdict
  cases hmethod : normalisePaymentMethod request.paymentMethod with
  | error e => exact ⟨e, rfl, rfl⟩
  | ok method =>
    cases hlines : resolveLines storeId db (visibleItems actor request.items) 0 with
    | error e =>
      exact ⟨e, rfl, rfl⟩
    | ok lines =>
      obtain ⟨hres, -, hproducts⟩ := resolveLines_eq_ok hlines
      have hknown : ∀ l ∈ lines, ∀ id, l.productId = some id → (db.products.find? id).isSome := by
        intro l hl id hid
        have hmem : some id ∈ lines.map PreparedLine.productId :=
          List.mem_map.mpr ⟨l, hl, hid⟩
        rw [hproducts] at hmem
        obtain ⟨item, hitem, hitemId⟩ := List.mem_map.mp hmem
        exact stored_of_resolvable (hres item hitem) hitemId
      have hrepository := @foretold_repository now (Uuid.newV4 db.stockMovements)
        (prepareSale now storeId (request.id.getD (Uuid.newV4 db.sales 0)) method request lines)
        (recorderOf actor) db (Uuid.newV4_injective _) (Uuid.newV4_drawnByServer _)
        (Uuid.find?_newV4 _) hknown
      cases hrecord : SaleRepository.record now (Uuid.newV4 db.stockMovements)
          (prepareSale now storeId (request.id.getD (Uuid.newV4 db.sales 0)) method request lines)
          (recorderOf actor) db with
      | error e =>
        simp only [bind, Except.bind, hrecord]
        rw [hrecord] at hrepository
        exact hrepository
      | ok r =>
        simp only [bind, Except.bind, hrecord]
        rw [hrecord] at hrepository
        apply Foretold.of_rows hrepository
        dsimp only
        split_ifs
        · rfl
        · rfl

end

end Kitaza.SaleVerdict
