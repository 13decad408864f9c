import Mathlib.Tactic.Linarith
import Mathlib.Logic.Relation
import Kitaza.InventoryService

/-!
# The stock ledger of a store

A product's stock is its opening stock plus the live rows of the ledger.
Recording a sale writes one ledger row for each line; undoing it joins the
lines to the products and retires the rows by the text of their note. The
two agree as long as a sale that is undone names each product once and no
other live row of the store carries its note.
-/

namespace Kitaza.StockLedger

open KeyedTable Primitives Access Schema Payloads SaleRepository InventoryService

/-- What the live ledger rows of a product add up to. -/
def onLedger (db : Db) (productId : Uuid) : Quantity :=
  db.stockMovements.sum fun _ m =>
    if m.productId = productId ∧ m.deletedAt = none then m.quantity else 0

/-- What the live rows written for a sale take from a product's stock. -/
def taken (db : Db) (saleId productId : Uuid) : Quantity :=
  db.stockMovements.sum fun _ m =>
    if m.movement = .sale ∧ m.note = some (saleNote saleId) ∧ m.productId = productId ∧
      m.deletedAt = none then m.quantity else 0

/-- What the lines of a sale sold of a product. -/
def sold (db : Db) (saleId productId : Uuid) : Quantity :=
  db.saleItems.sum fun _ item =>
    if item.saleId = saleId ∧ item.productId = some productId then item.quantity else 0

/-- A database with the opening stock of every product it has had. -/
structure LedgerState where
  /-- The store database. -/
  db : Db
  /-- The stock a product started with. -/
  opening : Uuid → Quantity

/-- Every product's stock is its opening stock plus its live ledger rows. -/
def LedgerState.Balanced (s : LedgerState) : Prop :=
  ∀ id p, s.db.products.find? id = some p → p.stockQuantity = s.opening id + onLedger s.db id

/-- A ledger that nothing has been written to: the products hold their
opening stock, there are no movements and no line names a product. -/
structure LedgerState.Opens (s : LedgerState) : Prop where
  /-- The stock of each product is its opening stock. -/
  stock : ∀ id p, s.db.products.find? id = some p → p.stockQuantity = s.opening id
  /-- The ledger is empty. -/
  movements : s.db.stockMovements = Table.empty
  /-- Stored lines are quick sales. -/
  items : ∀ id item, s.db.saleItems.find? id = some item → item.productId = none

/-- The writes that touch stock. -/
inductive StockOp where
  | save (now : Timestamp) (storeId : Uuid) (actor : Actor) (request : SaveProductRequest)
  | record (now : Timestamp) (drawn : ℕ → Uuid) (sale : PreparedSale) (recorder : Recorder)
  | void (now : Timestamp) (storeId saleId : Uuid)
  | move (now : Timestamp) (entry : LedgerEntry)
  | remove (now : Timestamp) (storeId productId : Uuid)

/-- The database after a write; a refused one leaves it as it was. -/
def StockOp.apply (op : StockOp) (db : Db) : Db :=
  match op with
  | .save now storeId actor request =>
    match ProductService.save now storeId actor request db with
    | .ok r => r.2
    | .error _ => db
  | .record now drawn sale recorder =>
    match SaleRepository.record now drawn sale recorder db with
    | .ok r => r.2
    | .error _ => db
  | .void now storeId saleId =>
    match SaleRepository.void now storeId saleId db with
    | some r => r.2
    | none => db
  | .move now entry =>
    match recordMovement now entry db with
    | .ok r => r.2
    | .error _ => db
  | .remove now storeId productId =>
    match ProductService.softDelete now storeId productId db with
    | some r => r.2
    | none => db

/-- The opening stock of a product that a write brings: the figure its save
request names, as the service reads it. No other write brings products. -/
def StockOp.openingStock : StockOp → Quantity
  | .save _ _ _ request => quantityFromF64 request.openingStock
  | _ => 0

/-- The opening stocks after a write: a product that appears starts with the
opening stock it was asked to have. -/
def openingAfter (opening : Uuid → Quantity) (op : StockOp) (before after : Db) (id : Uuid) :
    Quantity :=
  match before.products.find? id, after.products.find? id with
  | none, some _ => op.openingStock
  | _, _ => opening id

/-- The state after a write. -/
def LedgerState.step (s : LedgerState) (op : StockOp) : LedgerState :=
  ⟨op.apply s.db, openingAfter s.opening op s.db (op.apply s.db)⟩

/-- Some product is named by two lines of the sale. -/
def RepeatsProduct (saleId : Uuid) (db : Db) : Prop :=
  db.saleItems.Any fun i a => db.saleItems.Any fun j b =>
    i ≠ j ∧ a.saleId = saleId ∧ b.saleId = saleId ∧ a.productId.isSome ∧
      a.productId = b.productId

instance (saleId : Uuid) (db : Db) : Decidable (RepeatsProduct saleId db) :=
  inferInstanceAs (Decidable (db.saleItems.Any _))

/-- A live row of the store that is no sale row carries the sale's note. -/
def ImitatesSale (saleId storeId : Uuid) (db : Db) : Prop :=
  db.stockMovements.Any fun _ m => RetiredWith saleId storeId m ∧ m.movement ≠ .sale

instance (saleId storeId : Uuid) (db : Db) : Decidable (ImitatesSale saleId storeId db) :=
  inferInstanceAs (Decidable (db.stockMovements.Any _))

/-- The lines name products of the sale's own store only, as the service
resolves them. -/
def NamesOwnProducts (sale : PreparedSale) (db : Db) : Prop :=
  ∀ line ∈ sale.lines, ∀ id ∈ line.productId, ∀ p ∈ db.products.find? id, p.storeId = sale.storeId

instance (sale : PreparedSale) (db : Db) : Decidable (NamesOwnProducts sale db) :=
  inferInstanceAs (Decidable (∀ line ∈ sale.lines, _))

/-- When a write keeps the ledger: a live sale it undoes names each product
once and has no imitated note, a sale it records names products of its
store, and a manual movement is not of the sale kind. A record that is
refused is rolled back and needs nothing. -/
def StockOp.Sound (db : Db) : StockOp → Prop
  | .save .. => True
  | .remove .. => True
  | .move _ entry => entry.movement ≠ .sale
  | .void _ storeId saleId =>
    (findLive storeId saleId db).isSome →
      ¬ RepeatsProduct saleId db ∧ ¬ ImitatesSale saleId storeId db
  | .record now drawn sale recorder =>
    (SaleRepository.record now drawn sale recorder db).isOk = true →
      NamesOwnProducts sale db ∧ ((findLive sale.storeId sale.id db).isSome →
        ¬ RepeatsProduct sale.id db ∧ ¬ ImitatesSale sale.id sale.storeId db)

instance (db : Db) : (op : StockOp) → Decidable (op.Sound db)
  | .save .. => inferInstanceAs (Decidable True)
  | .remove .. => inferInstanceAs (Decidable True)
  | .move _ entry => inferInstanceAs (Decidable (entry.movement ≠ .sale))
  | .void .. => inferInstanceAs (Decidable (_ → _ ∧ _))
  | .record .. => inferInstanceAs (Decidable (_ → _ ∧ (_ → _ ∧ _)))

/-- One write that meets the condition. -/
def SoundStep (s t : LedgerState) : Prop := ∃ op, StockOp.Sound s.db op ∧ t = s.step op

/-- What holds of the ledger between writes; `but` names a sale in the
middle of being rewritten, if there is one. -/
structure Inv (but : Option Uuid) (s : LedgerState) : Prop where
  /-- The ledger balances. -/
  balanced : s.Balanced
  /-- A ledger row names a product of its store. -/
  movement_product : ∀ k m, s.db.stockMovements.find? k = some m →
    ∃ p, s.db.products.find? m.productId = some p ∧ p.storeId = m.storeId
  /-- A live sale row carries the note of a live sale of its store. -/
  sale_row : ∀ k m, s.db.stockMovements.find? k = some m → m.movement = .sale →
    m.deletedAt = none → ∃ id sale, some id ≠ but ∧ m.note = some (saleNote id) ∧
      s.db.sales.find? id = some sale ∧ sale.storeId = m.storeId ∧ sale.deletedAt = none
  /-- A line that names a product names one of its sale's store. -/
  item_product : ∀ k item id, s.db.saleItems.find? k = some item → item.productId = some id →
    ∃ p, s.db.products.find? id = some p ∧
      ∀ sale, s.db.sales.find? item.saleId = some sale → p.storeId = sale.storeId
  /-- The rows of a live sale are its lines. -/
  linked : ∀ id sale, some id ≠ but → s.db.sales.find? id = some sale → sale.deletedAt = none →
    ∀ productId, taken s.db id productId + sold s.db id productId = 0

/-- A ledger nothing has been written to satisfies the invariant. -/
theorem LedgerState.Opens.inv {s : LedgerState} (h : s.Opens) : Inv none s where
  balanced id p hp := by
    rw [onLedger, h.movements, Table.sum_empty, add_zero]
    exact h.stock id p hp
  movement_product k m hm := by
    rw [h.movements] at hm
    cases hm
  sale_row k m hm := by
    rw [h.movements] at hm
    cases hm
  item_product k item id hitem hid := by
    rw [h.items k item hitem] at hid
    cases hid
  linked id sale _ _ _ productId := by
    rw [taken, h.movements, Table.sum_empty, zero_add]
    apply Table.sum_eq_zero
    intro k item hitem
    rw [h.items k item hitem, if_neg]
    rintro ⟨_, hn⟩
    cases hn

/-- A product no ledger row names has an empty ledger. -/
theorem Inv.onLedger_eq_zero {but : Option Uuid} {s : LedgerState} (hi : Inv but s) {id : Uuid}
    (hn : s.db.products.find? id = none) : onLedger s.db id = 0 := by
  apply Table.sum_eq_zero
  intro k m hm
  rw [if_neg]
  rintro ⟨rfl, _⟩
  obtain ⟨p, hp, _⟩ := hi.movement_product k m hm
  rw [hn] at hp
  cases hp

/-- A write that touches only products, keeps the store and the stock of
each, and lets new ones bring their opening stock. -/
theorem Inv.of_products {s t : LedgerState} (hi : Inv none s)
    (hmoves : t.db.stockMovements = s.db.stockMovements)
    (hitems : t.db.saleItems = s.db.saleItems) (hsales : t.db.sales = s.db.sales)
    (hkeep : ∀ id p, s.db.products.find? id = some p → ∃ p', t.db.products.find? id = some p' ∧
      p'.storeId = p.storeId ∧ p'.stockQuantity = p.stockQuantity ∧ t.opening id = s.opening id)
    (hnew : ∀ id p', t.db.products.find? id = some p' → s.db.products.find? id = none →
      p'.stockQuantity = t.opening id) : Inv none t where
  balanced id p' hp' := by
    rw [onLedger, hmoves, ← onLedger]
    cases hp : s.db.products.find? id with
    | none => rw [hi.onLedger_eq_zero hp, add_zero, hnew id p' hp' hp]
    | some p =>
      obtain ⟨q, hq, _, hstock, hopen⟩ := hkeep id p hp
      rw [hp'] at hq
      cases hq
      rw [hstock, hopen, hi.balanced id p hp]
  movement_product k m hm := by
    rw [hmoves] at hm
    obtain ⟨p, hp, hstore⟩ := hi.movement_product k m hm
    obtain ⟨p', hp', hs, _⟩ := hkeep _ p hp
    exact ⟨p', hp', hs.trans hstore⟩
  sale_row k m hm := by
    rw [hmoves] at hm
    rw [hsales]
    exact hi.sale_row k m hm
  item_product k item id hitem hid := by
    rw [hitems] at hitem
    obtain ⟨p, hp, hstore⟩ := hi.item_product k item id hitem hid
    obtain ⟨p', hp', hs, _⟩ := hkeep _ p hp
    refine ⟨p', hp', ?_⟩
    rw [hsales, hs]
    exact hstore
  linked id sale hb hsale hlive productId := by
    rw [hsales] at hsale
    rw [taken, sold, hmoves, hitems]
    exact hi.linked id sale hb hsale hlive productId

theorem openingAfter_of_some {opening : Uuid → Quantity} {op : StockOp} {before after : Db}
    {id : Uuid} {p : Product} (h : before.products.find? id = some p) :
    openingAfter opening op before after id = opening id := by
  simp only [openingAfter, h]

theorem openingAfter_of_none {opening : Uuid → Quantity} {op : StockOp} {before after : Db}
    {id : Uuid} {p : Product} (h : before.products.find? id = none)
    (h' : after.products.find? id = some p) :
    openingAfter opening op before after id = op.openingStock := by
  simp only [openingAfter, h, h']

/-- Writes that bring no new product leave the opening stocks alone. -/
theorem openingAfter_eq {opening : Uuid → Quantity} {op : StockOp} {before after : Db}
    (h : ∀ id, before.products.find? id = none → after.products.find? id = none) :
    openingAfter opening op before after = opening := by
  funext id
  unfold openingAfter
  cases hb : before.products.find? id with
  | some p => rfl
  | none => rw [h id hb]

/-- Saving a product keeps the ledger. -/
theorem Inv.save {s : LedgerState} (hi : Inv none s) (now : Timestamp) (storeId : Uuid)
    (actor : Actor) (request : SaveProductRequest) :
    Inv none (s.step (.save now storeId actor request)) := by
  unfold LedgerState.step StockOp.apply
  dsimp only
  cases h : ProductService.save now storeId actor request s.db with
  | error e =>
    rw [openingAfter_eq fun _ h => h]
    exact hi
  | ok r =>
    obtain ⟨saved, db'⟩ := r
    obtain ⟨_, _, row, hrow, _, _, rfl⟩ := ProductService.save_eq_ok.mp h
    generalize ProductService.savedId request s.db = productId at hrow ⊢
    refine hi.of_products (by simp) (by simp) (by simp) ?_ ?_
    · intro id p hp
      simp only [recordAudit?_products, Table.find?_put]
      by_cases hid : id = productId
      · subst hid
        rw [hp] at hrow
        obtain ⟨h₁, h₂, h₃⟩ := ProductService.upsertRow_some hrow
        rw [if_pos rfl]
        exact ⟨row, rfl, h₂.trans h₁.symm, h₃, openingAfter_of_some hp⟩
      · rw [if_neg hid]
        exact ⟨p, hp, rfl, rfl, openingAfter_of_some hp⟩
    · intro id p' hp' hn
      refine Eq.trans ?_ (openingAfter_of_none hn hp').symm
      simp only [recordAudit?_products, Table.find?_put] at hp'
      split_ifs at hp' with hid
      · -- a new row starts with the opening stock of the request
        rw [← hid, hn] at hrow
        cases hrow
        cases hp'
        rfl
      · rw [hn] at hp'
        cases hp'

/-- Removing a product keeps the ledger. -/
theorem Inv.remove {s : LedgerState} (hi : Inv none s) (now : Timestamp)
    (storeId productId : Uuid) : Inv none (s.step (.remove now storeId productId)) := by
  unfold LedgerState.step StockOp.apply
  dsimp only
  cases h : ProductService.softDelete now storeId productId s.db with
  | none =>
    rw [openingAfter_eq fun _ h => h]
    exact hi
  | some r =>
    obtain ⟨p, hp, rfl⟩ := Option.map_eq_some_iff.mp h
    obtain ⟨hp, _, _⟩ := ProductService.find_eq_some.mp hp
    refine hi.of_products rfl rfl rfl ?_ ?_
    · intro id q hq
      simp only [Table.find?_put]
      by_cases hid : id = productId
      · subst hid
        rw [hp] at hq
        cases hq
        rw [if_pos rfl]
        exact ⟨_, rfl, rfl, rfl, openingAfter_of_some hp⟩
      · rw [if_neg hid]
        exact ⟨q, hq, rfl, rfl, openingAfter_of_some hq⟩
    · intro id p' hp' hn
      simp only [Table.find?_put] at hp'
      split_ifs at hp' with hid
      · rw [hid, hp] at hn
        cases hn
      · rw [hn] at hp'
        cases hp'

/-- A manual movement keeps the ledger. -/
theorem Inv.move {s : LedgerState} (hi : Inv none s) (now : Timestamp) (entry : LedgerEntry)
    (hkind : entry.movement ≠ .sale) : Inv none (s.step (.move now entry)) := by
  unfold LedgerState.step StockOp.apply
  dsimp only
  cases h : recordMovement now entry s.db with
  | error e =>
    rw [openingAfter_eq fun _ h => h]
    exact hi
  | ok r =>
    obtain ⟨applied, db'⟩ := r
    obtain ⟨p, hp, ⟨_, _, rfl⟩ | ⟨hfree, _, rfl⟩⟩ := recordMovement_eq_ok.mp h
    · rw [openingAfter_eq fun _ h => h]
      exact hi
    obtain ⟨hp, hstore, _⟩ := ProductService.find_eq_some.mp hp
    generalize entry.effect.delta p.stockQuantity = delta
    have hopen : openingAfter s.opening (.move now entry) s.db { s.db with
        stockMovements := s.db.stockMovements.put entry.movementId (ledgerRow now entry delta)
        products := s.db.products.put entry.productId
          (movedProduct now delta entry.unitCost p) } = s.opening := by
      apply openingAfter_eq
      intro id hn
      rw [Table.find?_put_ne _ _ (fun he => by rw [he, hp] at hn; cases hn)]
      exact hn
    rw [hopen]
    have hproduct : ∀ id q, s.db.products.find? id = some q → ∃ q',
        (s.db.products.put entry.productId
          (movedProduct now delta entry.unitCost p)).find? id = some q' ∧
        q'.storeId = q.storeId := by
      intro id q hq
      by_cases hid : id = entry.productId
      · subst hid
        rw [hp] at hq
        cases hq
        exact ⟨_, Table.find?_put_self _ _ _, rfl⟩
      · exact ⟨q, by rw [Table.find?_put_ne _ _ hid, hq], rfl⟩
    constructor
    · intro id q hq
      change _ = s.opening id + Table.sum (Table.put _ _ _) _
      rw [Table.sum_put_of_none _ _ hfree]
      change _ = _ + (_ + onLedger s.db id)
      rw [Table.find?_put] at hq
      by_cases hid : id = entry.productId
      · subst hid
        rw [if_pos rfl] at hq
        cases hq
        rw [if_pos ⟨rfl, rfl⟩]
        change p.stockQuantity + delta = _ + (delta + _)
        rw [hi.balanced _ p hp]
        ring
      · rw [if_neg hid] at hq
        rw [if_neg fun hc => hid hc.1.symm, hi.balanced id q hq, zero_add]
    · intro k m hm
      rw [Table.find?_put] at hm
      split_ifs at hm with hk
      · cases hm
        exact ⟨_, Table.find?_put_self _ _ _, hstore⟩
      · obtain ⟨q, hq, hqs⟩ := hi.movement_product k m hm
        obtain ⟨q', hq', hqs'⟩ := hproduct _ q hq
        exact ⟨q', hq', hqs'.trans hqs⟩
    · intro k m hm hsale
      rw [Table.find?_put] at hm
      split_ifs at hm with hk
      · cases hm
        exact absurd hsale hkind
      · exact hi.sale_row k m hm hsale
    · intro k item id hitem hid
      obtain ⟨q, hq, hqs⟩ := hi.item_product k item id hitem hid
      obtain ⟨q', hq', hqs'⟩ := hproduct _ q hq
      exact ⟨q', hq', fun sale hsale => hqs'.trans (hqs sale hsale)⟩
    · intro id sale hb hsale hlive productId
      change Table.sum (Table.put _ _ _) _ + _ = _
      rw [Table.sum_put_of_none _ _ hfree, if_neg fun hc => hkind hc.1, zero_add]
      exact hi.linked id sale hb hsale hlive productId

/-- Restoring a sale that names each product once gives back what its lines
sold. -/
theorem joinedLine_quantity (now : Timestamp) {saleId : Uuid} {db : Db}
    (hr : ¬ RepeatsProduct saleId db) (productId : Uuid) :
    ((joinedLine db.joins now saleId productId db.saleItems).map SaleItem.quantity).getD 0 =
      sold db saleId productId := by
  unfold sold
  cases h : joinedLine db.joins now saleId productId db.saleItems with
  | none =>
    rw [Table.sum_eq_zero]
    · rfl
    · intro k item hitem
      rw [if_neg]
      rintro ⟨h₁, h₂⟩
      exact joinedLine_eq_none.mp h k item hitem h₁ h₂
  | some item =>
    obtain ⟨k, hk, hp⟩ := joinedLine_eq_some h
    rw [Table.sum_eq_single hk, if_pos hp]
    · rfl
    · intro j other hj hne
      rw [if_neg]
      rintro ⟨h₁, h₂⟩
      exact hr ⟨k, item, hk, j, other, hj, Ne.symm hne, hp.1, h₁, by rw [hp.2]; rfl,
        hp.2.trans h₂.symm⟩

/-- Retiring takes from the ledger what the sale's rows took, when they are
the only rows retired. -/
theorem onLedger_undo (now : Timestamp) {saleId storeId : Uuid} {db : Db}
    (him : ¬ ImitatesSale saleId storeId db)
    (hown : ∀ k m, db.stockMovements.find? k = some m → m.movement = .sale →
      m.note = some (saleNote saleId) → m.deletedAt = none → m.storeId = storeId)
    (productId : Uuid) :
    onLedger (undoSale now saleId storeId db) productId + taken db saleId productId =
      onLedger db productId := by
  unfold onLedger taken undoSale retireMovementsFor
  rw [Table.sum_mapRows]
  change Table.sum db.stockMovements _ + _ = _
  rw [← Table.sum_add]
  apply Table.sum_congr
  intro k m hm
  by_cases hR : RetiredWith saleId storeId m
  · have hkind : m.movement = .sale := by
      by_contra hne
      exact him ⟨k, m, hm, hR, hne⟩
    simp [retired_deletedAt hR, hkind, hR.2.1, hR.2.2]
  · rw [retired_of_not hR, add_eq_left, if_neg]
    rintro ⟨hkind, hnote, _, hlive⟩
    exact hR ⟨hown k m hm hkind hnote hlive, hnote, hlive⟩

/-- Undoing one sale leaves the rows of another alone. -/
theorem taken_undo_of_ne (now : Timestamp) {saleId other : Uuid} (storeId : Uuid) (db : Db)
    (hne : other ≠ saleId) (productId : Uuid) :
    taken (undoSale now saleId storeId db) other productId = taken db other productId := by
  unfold taken undoSale retireMovementsFor
  rw [Table.sum_mapRows]
  apply Table.sum_congr
  intro k m _
  by_cases hR : RetiredWith saleId storeId m
  · have hnote : m.note ≠ some (saleNote other) := by
      rw [hR.2.1]
      exact fun h => hne (saleNote_injective (Option.some.inj h)).symm
    simp [retired_deletedAt hR, hnote]
  · rw [retired_of_not hR]

/-- Undoing a live sale that meets the condition keeps the ledger; the sale
itself is left without rows. -/
theorem Inv.undo {s : LedgerState} (hi : Inv none s) (now : Timestamp) {saleId : Uuid} {sale : Sale}
    (hsale : s.db.sales.find? saleId = some sale) (hlive : sale.deletedAt = none)
    (hr : ¬ RepeatsProduct saleId s.db) (him : ¬ ImitatesSale saleId sale.storeId s.db) :
    Inv (some saleId) ⟨undoSale now saleId sale.storeId s.db, s.opening⟩ := by
  have hown : ∀ k m, s.db.stockMovements.find? k = some m → m.movement = .sale →
      m.note = some (saleNote saleId) → m.deletedAt = none → m.storeId = sale.storeId := by
    intro k m hm hkind hnote hdel
    obtain ⟨id, row, _, hn, hrow, hstore, _⟩ := hi.sale_row k m hm hkind hdel
    rw [hnote] at hn
    obtain rfl := saleNote_injective (Option.some.inj hn)
    rw [hsale] at hrow
    cases hrow
    exact hstore.symm
  constructor
  · intro id p' hp'
    dsimp only at hp'
    rw [undoSale_products] at hp'
    obtain ⟨p, hp, rfl⟩ := Option.map_eq_some_iff.mp hp'
    have hjoin : ∀ item, joinedLine s.db.joins now saleId id s.db.saleItems = some item →
        p.storeId = sale.storeId := by
      intro item hitem
      obtain ⟨k, hk, hmatch⟩ := joinedLine_eq_some hitem
      obtain ⟨q, hq, hqs⟩ := hi.item_product k item id hk hmatch.2
      rw [hp] at hq
      cases hq
      exact hqs sale (by rw [hmatch.1, hsale])
    have hledger := onLedger_undo now him hown id
    have hlink := hi.linked saleId sale (by simp) hsale hlive id
    rw [restored_stockQuantity now hjoin, joinedLine_quantity now hr, hi.balanced id p hp]
    change _ = s.opening id + onLedger (undoSale now saleId sale.storeId s.db) id
    linarith
  · intro k m' hm'
    dsimp only at hm'
    rw [undoSale_stockMovements] at hm'
    obtain ⟨m, hm, rfl⟩ := Option.map_eq_some_iff.mp hm'
    obtain ⟨p, hp, hstore⟩ := hi.movement_product k m hm
    refine ⟨restored s.db.joins now saleId sale.storeId s.db.saleItems m.productId p, ?_, ?_⟩
    · rw [retired_productId, undoSale_products, hp]
      rfl
    · rw [restored_storeId, retired_storeId, hstore]
  · intro k m' hm' hkind hdel
    dsimp only at hm'
    rw [undoSale_stockMovements] at hm'
    obtain ⟨m, hm, rfl⟩ := Option.map_eq_some_iff.mp hm'
    by_cases hR : RetiredWith saleId sale.storeId m
    · rw [retired_deletedAt hR] at hdel
      cases hdel
    · rw [retired_of_not hR] at hkind hdel ⊢
      obtain ⟨id, row, _, hn, hrow, hstore, hl⟩ := hi.sale_row k m hm hkind hdel
      refine ⟨id, row, ?_, hn, hrow, hstore, hl⟩
      rintro he
      cases he
      exact hR ⟨hown k m hm hkind hn hdel, hn, hdel⟩
  · intro k item id hitem hid
    obtain ⟨p, hp, hstore⟩ := hi.item_product k item id hitem hid
    refine ⟨restored s.db.joins now saleId sale.storeId s.db.saleItems id p, ?_, ?_⟩
    · rw [undoSale_products, hp]
      rfl
    · rw [restored_storeId]
      exact hstore
  · intro id row hne hrow hl productId
    have hne' : id ≠ saleId := fun he => hne (by rw [he])
    dsimp only
    rw [taken_undo_of_ne now _ _ hne']
    exact hi.linked id row (by simp) hrow hl productId

/-- A sale the server does not know has no rows. -/
theorem Inv.fresh {s : LedgerState} (hi : Inv none s) {saleId : Uuid}
    (hn : s.db.sales.find? saleId = none) : Inv (some saleId) s where
  balanced := hi.balanced
  movement_product := hi.movement_product
  sale_row k m hm hkind hdel := by
    obtain ⟨id, row, _, hnote, hrow, hstore, hl⟩ := hi.sale_row k m hm hkind hdel
    refine ⟨id, row, ?_, hnote, hrow, hstore, hl⟩
    rintro he
    cases he
    rw [hn] at hrow
    cases hrow
  item_product := hi.item_product
  linked id row _ hrow hl := hi.linked id row (by simp) hrow hl

/-- A sale without rows has taken nothing. -/
theorem Inv.taken_eq_zero {s : LedgerState} {saleId : Uuid} (hi : Inv (some saleId) s)
    (productId : Uuid) : taken s.db saleId productId = 0 := by
  apply Table.sum_eq_zero
  intro k m hm
  rw [if_neg]
  rintro ⟨hkind, hnote, _, hdel⟩
  obtain ⟨id, row, hne, hn, _⟩ := hi.sale_row k m hm hkind hdel
  rw [hnote] at hn
  exact hne (by rw [saleNote_injective (Option.some.inj hn)])

/-- Marking the undone sale voided completes a void. -/
theorem Inv.close_void {s : LedgerState} {saleId : Uuid} {sale voided : Sale}
    (hi : Inv (some saleId) s) (hsale : s.db.sales.find? saleId = some sale)
    (hstore : voided.storeId = sale.storeId) (hdead : voided.deletedAt ≠ none) :
    Inv none ⟨{ s.db with sales := s.db.sales.put saleId voided }, s.opening⟩ where
  balanced := hi.balanced
  movement_product := hi.movement_product
  sale_row k m hm hkind hdel := by
    obtain ⟨id, row, hne, hnote, hrow, hs, hl⟩ := hi.sale_row k m hm hkind hdel
    refine ⟨id, row, by simp, hnote, ?_, hs, hl⟩
    rw [Table.find?_put_ne _ _ (fun he => hne (by rw [he])), hrow]
  item_product k item id hitem hid := by
    obtain ⟨p, hp, hs⟩ := hi.item_product k item id hitem hid
    refine ⟨p, hp, ?_⟩
    intro row hrow
    rw [Table.find?_put] at hrow
    split_ifs at hrow with he
    · cases hrow
      rw [hstore]
      exact hs sale (by rw [he, hsale])
    · exact hs row hrow
  linked id row _ hrow hl productId := by
    rw [Table.find?_put] at hrow
    split_ifs at hrow with he
    · cases hrow
      exact absurd hl hdead
    · exact hi.linked id row (fun h => he (Option.some.inj h)) hrow hl productId

/-- Writing the row of the sale and clearing its lines prepares it for its
new lines. -/
theorem Inv.close_record {s : LedgerState} {saleId : Uuid} (hi : Inv (some saleId) s) (row : Sale) :
    Inv none ⟨deleteItems saleId { s.db with sales := s.db.sales.put saleId row }, s.opening⟩ where
  balanced := hi.balanced
  movement_product := hi.movement_product
  sale_row k m hm hkind hdel := by
    obtain ⟨id, r, hne, hnote, hr, hs, hl⟩ := hi.sale_row k m hm hkind hdel
    refine ⟨id, r, by simp, hnote, ?_, hs, hl⟩
    change Table.find? (Table.put _ _ _) _ = _
    rw [Table.find?_put_ne _ _ (fun he => hne (by rw [he])), hr]
  item_product k item id hitem hid := by
    obtain ⟨hitem, hkept⟩ := Table.find?_filter_eq_some.mp hitem
    obtain ⟨p, hp, hs⟩ := hi.item_product k item id hitem hid
    refine ⟨p, hp, ?_⟩
    intro r hr
    change Table.find? (Table.put _ _ _) _ = _ at hr
    rw [Table.find?_put_ne _ _ (by simpa using hkept)] at hr
    exact hs r hr
  linked id r _ hr hl productId := by
    change Table.find? (Table.put _ _ _) _ = _ at hr
    unfold sold
    change taken s.db id productId + Table.sum (Table.filter _ _) _ = 0
    rw [Table.sum_filter]
    by_cases he : id = saleId
    · subst he
      rw [hi.taken_eq_zero, zero_add]
      apply Table.sum_eq_zero
      intro k item _
      by_cases hid : item.saleId = id <;> simp [hid]
    · rw [Table.find?_put_ne _ _ he] at hr
      refine Eq.trans ?_ (hi.linked id r (fun h => he (Option.some.inj h)) hr hl productId)
      congr 1
      apply Table.sum_congr
      intro k item _
      by_cases hid : item.saleId = id
      · simp [hid, he]
      · simp [hid]

/-- Voiding a sale that meets the condition keeps the ledger. -/
theorem Inv.void {s : LedgerState} (hi : Inv none s) (now : Timestamp) (storeId saleId : Uuid)
    (hs : StockOp.Sound s.db (.void now storeId saleId)) :
    Inv none (s.step (.void now storeId saleId)) := by
  unfold LedgerState.step StockOp.apply
  dsimp only
  cases h : SaleRepository.void now storeId saleId s.db with
  | none =>
    rw [openingAfter_eq fun _ h => h]
    exact hi
  | some r =>
    obtain ⟨sale, hfind, rfl⟩ := Option.map_eq_some_iff.mp h
    obtain ⟨hr, him⟩ := hs (by rw [hfind]; rfl)
    obtain ⟨hsale, rfl, hlive⟩ := findLive_eq_some.mp hfind
    have hundo := hi.undo now hsale hlive hr him
    have hclose := hundo.close_void hsale
      (show ({ sale with deletedAt := some now, updatedAt := now } : Sale).storeId = _ from rfl)
      (by simp)
    rw [openingAfter_eq]
    · exact hclose
    · intro id hn
      dsimp only
      rw [undoSale_products]
      simp only [markVoided, hn, Option.map_none]

/-- Writing a line that names no product keeps the ledger. -/
theorem Inv.recordLine_unlisted {s : LedgerState} (hi : Inv none s) {sale : PreparedSale}
    {line : PreparedLine} (hfree : s.db.saleItems.find? line.id = none)
    (hline : line.productId = none) :
    Inv none ⟨{ s.db with saleItems := s.db.saleItems.put line.id (storedLine sale.id line) },
      s.opening⟩ := by
  constructor
  · exact hi.balanced
  · exact hi.movement_product
  · exact hi.sale_row
  · intro k item id hitem hid
    rw [Table.find?_put] at hitem
    split_ifs at hitem with hk
    · cases hitem
      rw [storedLine, hline] at hid
      cases hid
    · exact hi.item_product k item id hitem hid
  · intro id r hne hr hl pid
    unfold sold
    dsimp only
    rw [Table.sum_put_of_none _ _ hfree, if_neg, zero_add]
    · exact hi.linked id r hne hr hl pid
    · rintro ⟨_, hn⟩
      rw [storedLine, hline] at hn
      cases hn

/-- Writing a line of a live sale that names a product keeps the ledger: the
stock it takes has a row. -/
theorem Inv.recordLine_listed {s : LedgerState} (hi : Inv none s) {now : Timestamp}
    {movementId productId : Uuid} {sale : PreparedSale} {line : PreparedLine} {row : Sale}
    {p : Product} (hrow : s.db.sales.find? sale.id = some row)
    (hstore : row.storeId = sale.storeId) (hlive : row.deletedAt = none)
    (hfree : s.db.saleItems.find? line.id = none) (hline : line.productId = some productId)
    (hp : s.db.products.find? productId = some p) (hps : p.storeId = sale.storeId)
    (hmovement : s.db.stockMovements.find? movementId = none) :
    Inv none ⟨{ deductStock now sale.storeId productId line.quantity s.db with
      saleItems := s.db.saleItems.put line.id (storedLine sale.id line)
      stockMovements := s.db.stockMovements.put movementId (saleMovement now sale line productId) },
      s.opening⟩ := by
  have hproduct : ∀ id q, s.db.products.find? id = some q → ∃ q',
      (deductStock now sale.storeId productId line.quantity s.db).products.find? id = some q' ∧
      q'.storeId = q.storeId := by
    intro id q hq
    refine ⟨_, by rw [deductStock, Table.find?_mapRows, hq, Option.map_some], ?_⟩
    split_ifs <;> rfl
  constructor
  · intro id q' hq'
    dsimp only [deductStock] at hq' ⊢
    obtain ⟨q, hq, rfl⟩ := Option.map_eq_some_iff.mp hq'
    unfold onLedger
    dsimp only
    rw [Table.sum_put_of_none _ _ hmovement]
    change _ = s.opening id + (_ + onLedger s.db id)
    by_cases hid : id = productId
    · subst hid
      rw [hp] at hq
      cases hq
      rw [if_pos ⟨rfl, hps⟩, if_pos ⟨rfl, rfl⟩]
      change p.stockQuantity - line.quantity = _ + (-line.quantity + _)
      rw [hi.balanced id p hp]
      ring
    · rw [if_neg fun hc => hid hc.1, if_neg fun hc => hid hc.1.symm, hi.balanced id q hq,
        zero_add]
  · intro k m hm
    rw [Table.find?_put] at hm
    split_ifs at hm with hk
    · cases hm
      obtain ⟨p', hp', hs'⟩ := hproduct productId p hp
      exact ⟨p', hp', hs'.trans hps⟩
    · obtain ⟨q, hq, hqs⟩ := hi.movement_product k m hm
      obtain ⟨q', hq', hqs'⟩ := hproduct _ q hq
      exact ⟨q', hq', hqs'.trans hqs⟩
  · intro k m hm hkind hdel
    rw [Table.find?_put] at hm
    split_ifs at hm with hk
    · cases hm
      exact ⟨sale.id, row, by simp, rfl, hrow, hstore, hlive⟩
    · exact hi.sale_row k m hm hkind hdel
  · intro k item id hitem hid
    rw [Table.find?_put] at hitem
    split_ifs at hitem with hk
    · cases hitem
      rw [storedLine, hline] at hid
      cases hid
      obtain ⟨p', hp', hs'⟩ := hproduct productId p hp
      refine ⟨p', hp', ?_⟩
      intro r hr
      change s.db.sales.find? sale.id = _ at hr
      rw [hrow] at hr
      cases hr
      rw [hs', hps, hstore]
    · obtain ⟨q, hq, hqs⟩ := hi.item_product k item id hitem hid
      obtain ⟨q', hq', hqs'⟩ := hproduct _ q hq
      exact ⟨q', hq', fun r hr => hqs'.trans (hqs r hr)⟩
  · intro id r hne hr hl pid
    have hlink := hi.linked id r hne hr hl pid
    unfold taken sold at hlink ⊢
    dsimp only [deductStock] at hlink ⊢
    rw [Table.sum_put_of_none _ _ hmovement, Table.sum_put_of_none _ _ hfree]
    have hline' : (storedLine sale.id line).productId = some productId := hline
    have hnote : (saleMovement now sale line productId).note = some (saleNote sale.id) := rfl
    by_cases hc : sale.id = id ∧ productId = pid
    · obtain ⟨rfl, rfl⟩ := hc
      rw [if_pos ⟨rfl, hnote, rfl, rfl⟩, if_pos ⟨rfl, hline'⟩]
      change -line.quantity + _ + (line.quantity + _) = 0
      linarith
    · rw [if_neg, if_neg, zero_add, zero_add]
      · exact hlink
      · rintro ⟨hid, hn⟩
        rw [hline'] at hn
        exact hc ⟨hid, Option.some.inj hn⟩
      · rintro ⟨_, hn, hid, _⟩
        rw [hnote] at hn
        exact hc ⟨saleNote_injective (Option.some.inj hn), hid⟩

/-- Writing one line of a live sale keeps the ledger. -/
theorem Inv.recordLine {s : LedgerState} (hi : Inv none s) {now : Timestamp} {movementId : Uuid}
    {sale : PreparedSale} {line : PreparedLine} {db' : Db} {row : Sale}
    (hrow : s.db.sales.find? sale.id = some row) (hstore : row.storeId = sale.storeId)
    (hlive : row.deletedAt = none)
    (hown : ∀ id ∈ line.productId, ∀ p ∈ s.db.products.find? id, p.storeId = sale.storeId)
    (h : recordLine now movementId sale line s.db = .ok db') : Inv none ⟨db', s.opening⟩ := by
  obtain ⟨hfree, ⟨hline, rfl⟩ | ⟨productId, p, hline, hp, hmovement, rfl⟩⟩ := recordLine_eq_ok h
  · exact hi.recordLine_unlisted hfree hline
  · exact hi.recordLine_listed hrow hstore hlive hfree hline hp (hown productId hline p hp)
      hmovement

/-- Writing a line changes no product's store and no sale. -/
theorem recordLine_frame {now : Timestamp} {movementId : Uuid} {sale : PreparedSale}
    {line : PreparedLine} {db db' : Db} (h : recordLine now movementId sale line db = .ok db') :
    db'.sales = db.sales ∧ ∀ id, (db'.products.find? id).map Product.storeId =
      (db.products.find? id).map Product.storeId := by
  obtain ⟨_, ⟨_, rfl⟩ | ⟨productId, p, _, _, _, rfl⟩⟩ := recordLine_eq_ok h
  · exact ⟨rfl, fun _ => rfl⟩
  · refine ⟨rfl, fun id => ?_⟩
    dsimp only [deductStock]
    rw [Table.find?_mapRows, Option.map_map]
    congr 1
    funext q
    simp only [Function.comp_apply]
    split_ifs <;> rfl

/-- Writing the lines of a live sale keeps the ledger. -/
theorem Inv.recordLines {s : LedgerState} (hi : Inv none s) {now : Timestamp} {drawn : ℕ → Uuid}
    {sale : PreparedSale} {lines : List PreparedLine} {i : ℕ} {db' : Db} {row : Sale}
    (hrow : s.db.sales.find? sale.id = some row) (hstore : row.storeId = sale.storeId)
    (hlive : row.deletedAt = none)
    (hown : ∀ line ∈ lines, ∀ id ∈ line.productId, ∀ p ∈ s.db.products.find? id,
      p.storeId = sale.storeId)
    (h : recordLines now drawn sale lines i s.db = .ok db') :
    Inv none ⟨db', s.opening⟩ ∧ ∀ id, (db'.products.find? id).map Product.storeId =
      (s.db.products.find? id).map Product.storeId := by
  induction lines generalizing s i with
  | nil =>
    cases h
    exact ⟨hi, fun _ => rfl⟩
  | cons line lines ih =>
    obtain ⟨db₁, hline, hrest⟩ := bind_eq_ok.mp h
    have hi₁ := hi.recordLine hrow hstore hlive (hown line List.mem_cons_self) hline
    obtain ⟨hsales, hstores⟩ := recordLine_frame hline
    obtain ⟨hi', hstores'⟩ := ih hi₁ (by dsimp only; rw [hsales, hrow]) (fun l hl id hid p hp => by
      have hs : (s.db.products.find? id).map Product.storeId = some p.storeId := by
        rw [← hstores id, Option.mem_def.mp hp, Option.map_some]
      obtain ⟨q, hq, he⟩ := Option.map_eq_some_iff.mp hs
      rw [← he]
      exact hown l (List.mem_cons_of_mem _ hl) id hid q hq) hrest
    exact ⟨hi', fun id => (hstores' id).trans (hstores id)⟩

/-- Writing an undone or unknown sale keeps the ledger. -/
theorem Inv.writeSale {s : LedgerState} {sale : PreparedSale} (hi : Inv (some sale.id) s)
    {now : Timestamp} {drawn : ℕ → Uuid} {recorder : Recorder} {created : Bool}
    {recorded : RecordedSale} {db' : Db}
    (hsale : ∀ row, s.db.sales.find? sale.id = some row →
      row.storeId = sale.storeId ∧ row.deletedAt = none)
    (hown : NamesOwnProducts sale s.db)
    (h : writeSale now drawn sale recorder created s.db = .ok (recorded, db')) :
    Inv none ⟨db', s.opening⟩ ∧ ∀ id, (db'.products.find? id).map Product.storeId =
      (s.db.products.find? id).map Product.storeId := by
  obtain ⟨db₁, hlines, hok⟩ := bind_eq_ok.mp h
  cases hok
  have hrow : (upsertedSale now sale recorder.staffId (s.db.sales.find? sale.id)).storeId =
      sale.storeId ∧
      (upsertedSale now sale recorder.staffId (s.db.sales.find? sale.id)).deletedAt = none := by
    cases hf : s.db.sales.find? sale.id with
    | none => exact ⟨rfl, rfl⟩
    | some existing => exact hsale existing hf
  have hclose := hi.close_record (upsertedSale now sale recorder.staffId
    (s.db.sales.find? sale.id))
  exact hclose.recordLines (Table.find?_put_self _ _ _) hrow.1 hrow.2 hown hlines

/-- Recording a sale that meets the condition keeps the ledger. -/
theorem Inv.record {s : LedgerState} (hi : Inv none s) (now : Timestamp) (drawn : ℕ → Uuid)
    (sale : PreparedSale) (recorder : Recorder)
    (hs : StockOp.Sound s.db (.record now drawn sale recorder)) :
    Inv none (s.step (.record now drawn sale recorder)) := by
  unfold LedgerState.step StockOp.apply
  dsimp only
  cases h : SaleRepository.record now drawn sale recorder s.db with
  | error e =>
    rw [openingAfter_eq fun _ h => h]
    exact hi
  | ok r =>
    obtain ⟨recorded, db'⟩ := r
    obtain ⟨hown, hcond⟩ := hs (by rw [h]; rfl)
    have hopen : ∀ db₁ : Db, (∀ id, (db₁.products.find? id).map Product.storeId =
        (s.db.products.find? id).map Product.storeId) →
        openingAfter s.opening (.record now drawn sale recorder) s.db db₁ = s.opening := by
      intro db₁ hstores
      apply openingAfter_eq
      intro id hn
      have := hstores id
      rw [hn, Option.map_none, Option.map_eq_none_iff] at this
      exact this
    unfold SaleRepository.record at h
    cases hfind : s.db.sales.find? sale.id with
    | none =>
      rw [hfind] at h
      obtain ⟨hi', hstores⟩ := (hi.fresh hfind).writeSale
        (fun row hrow => by rw [hfind] at hrow; cases hrow) hown h
      rw [hopen db' hstores]
      exact hi'
    | some existing =>
      rw [hfind] at h
      dsimp only at h
      split_ifs at h with hforeign hvoided hother
      · cases h
        rw [hopen s.db fun _ => rfl]
        exact hi
      · have hstore : existing.storeId = sale.storeId := not_not.mp hforeign
        have hlive : existing.deletedAt = none := by simpa using hvoided
        have hsome : (findLive sale.storeId sale.id s.db).isSome = true := by
          rw [findLive_eq_some.mpr ⟨hfind, hstore, hlive⟩]
          rfl
        obtain ⟨hr, him⟩ := hcond hsome
        rw [← hstore] at him h
        have hundo := hi.undo now hfind hlive hr him
        have hown' : NamesOwnProducts sale (undoSale now sale.id existing.storeId s.db) := by
          intro line hline id hid p' hp'
          rw [undoSale_products] at hp'
          obtain ⟨p, hp, rfl⟩ := Option.map_eq_some_iff.mp hp'
          rw [restored_storeId]
          exact hown line hline id hid p hp
        obtain ⟨hi', hstores⟩ := hundo.writeSale
          (fun row hrow => by
            change s.db.sales.find? sale.id = _ at hrow
            rw [hfind] at hrow
            cases hrow
            exact ⟨hstore, hlive⟩) hown' h
        rw [hopen db' fun id => ?_]
        · exact hi'
        · rw [hstores id]
          dsimp only
          rw [undoSale_products, Option.map_map]
          congr 1
          funext q
          exact restored_storeId ..

/-- A write that meets the condition keeps the ledger. -/
theorem Inv.step {s : LedgerState} (hi : Inv none s) (op : StockOp) (hs : op.Sound s.db) :
    Inv none (s.step op) := by
  cases op with
  | save now storeId actor request => exact hi.save now storeId actor request
  | record now drawn sale recorder => exact hi.record now drawn sale recorder hs
  | void now storeId saleId => exact hi.void now storeId saleId hs
  | move now entry => exact hi.move now entry hs
  | remove now storeId productId => exact hi.remove now storeId productId

/-- In every run whose writes meet the condition, after every write the
stock of every product is its opening stock plus its live ledger rows. -/
theorem balanced_of_sound_run {start state : LedgerState} (ho : start.Opens)
    (h : Relation.ReflTransGen SoundStep start state) : state.Balanced := by
  have hi : Inv none state := by
    induction h with
    | refl => exact ho.inv
    | tail _ hstep ih =>
      obtain ⟨op, hs, rfl⟩ := hstep
      exact ih.step op hs
  exact hi.balanced

/-- A deployment nobody has used. -/
def emptyStore : LedgerState := ⟨Db.empty, fun _ => 0⟩

theorem emptyStore_opens : emptyStore.Opens where
  stock _ _ hp := by cases hp
  movements := rfl
  items _ _ hitem := by cases hitem

/-- The owner adds a product with ten units on the shelf. -/
def addRice : StockOp :=
  .save 100 ⟨4⟩ ⟨⟨2⟩, "Ana", "Phone", none⟩ ⟨some ⟨10⟩, "Rice", none, "kg", 40, 50, 10, 0⟩

/-- A line of two units of it. -/
def riceLine (id : ℕ) : PreparedLine := ⟨⟨id⟩, some ⟨10⟩, "Rice", 2, 50, 40, 100⟩

/-- A cash sale of the given lines. -/
def riceSale (lines : List PreparedLine) : StockOp :=
  .record 200 (fun i => ⟨2 * i + 101⟩) ⟨⟨30⟩, ⟨4⟩, "cash", 100, 80, 0, none, 150, lines⟩ ⟨none, true⟩

/-- Recording, recording again and voiding a sale of one line. -/
theorem balanced_of_sound_run_riceSale :
    ((((emptyStore.step addRice).step (riceSale [riceLine 31])).step
      (riceSale [riceLine 31])).step (.void 300 ⟨4⟩ ⟨30⟩)).Balanced :=
  balanced_of_sound_run emptyStore_opens
    ((((Relation.ReflTransGen.refl.tail ⟨addRice, trivial, rfl⟩).tail
      ⟨riceSale [riceLine 31], by decide +kernel, rfl⟩).tail
      ⟨riceSale [riceLine 31], by decide +kernel, rfl⟩).tail
      ⟨.void 300 ⟨4⟩ ⟨30⟩, by decide +kernel, rfl⟩)

/-- Voiding a sale with two lines of one product gives back one line's
quantity: eight units are left and the ledger says ten. -/
theorem void_of_repeated_product_unbalances :
    emptyStore.Opens ∧ ¬ ([addRice, riceSale [riceLine 31, riceLine 32],
      .void 300 ⟨4⟩ ⟨30⟩].foldl LedgerState.step emptyStore).Balanced := by
  refine ⟨emptyStore_opens, fun h => ?_⟩
  generalize hs : [addRice, riceSale [riceLine 31, riceLine 32],
    .void 300 ⟨4⟩ ⟨30⟩].foldl LedgerState.step emptyStore = s at h
  have hstock : (s.db.products.find? ⟨10⟩).map Product.stockQuantity = some 8 := by
    rw [← hs]
    decide +kernel
  have hledger : s.opening ⟨10⟩ + onLedger s.db ⟨10⟩ = 10 := by
    rw [← hs]
    decide +kernel
  obtain ⟨p, hp, hq⟩ := Option.map_eq_some_iff.mp hstock
  have hb := h ⟨10⟩ p hp
  rw [hledger, hq] at hb
  norm_num at hb

end Kitaza.StockLedger
