import Kitaza.SaleVerdict

/-!
# Two sales in either order

Two sales that share neither their identifier nor the identifiers of their
lines, and neither of which sends a line the other has stored, can be recorded
in either order: each meets the same verdict, and the rows they leave are the
same up to the ledger identifiers the server draws.
-/

namespace Kitaza.SaleOrder

open KeyedTable Primitives Access Schema Payloads ProductService SaleRepository SaleService
  SaleEffects SaleAcceptance RowEffects SyncPush RenamedTable SaleVerdict

/-- An identifier that nobody draws: a device's, or one the ledger had. -/
def Known (base : Table Uuid StockMovement) (id : Uuid) : Prop :=
  id.drawnByServer = false ∨ (base.find? id).isSome

/-- The same rows, up to the ledger identifiers the server draws. -/
structure Same (base : Table Uuid StockMovement) (a b : Db) : Prop where
  /-- The products. -/
  products : b.products = a.products
  /-- The sales. -/
  sales : b.sales = a.sales
  /-- Their lines. -/
  saleItems : b.saleItems = a.saleItems
  /-- The ledger. -/
  stockMovements : Renamed (Known base) a.stockMovements b.stockMovements
  /-- The expenses. -/
  expenses : b.expenses = a.expenses
  /-- The withdrawals. -/
  ownerWithdrawals : b.ownerWithdrawals = a.ownerWithdrawals
  /-- The engine. -/
  joins : b.joins = a.joins

/-- The ledger still has what it had. -/
def Held (base : Table Uuid StockMovement) (db : Db) : Prop :=
  ∀ id, (base.find? id).isSome → (db.stockMovements.find? id).isSome

section

variable {base : Table Uuid StockMovement} {a b c : Db}

theorem Same.refl (base : Table Uuid StockMovement) (a : Db) : Same base a a :=
  ⟨rfl, rfl, rfl, Renamed.refl _ _, rfl, rfl, rfl⟩

theorem Same.symm (h : Same base a b) : Same base b a :=
  ⟨h.products.symm, h.sales.symm, h.saleItems.symm, h.stockMovements.symm, h.expenses.symm,
    h.ownerWithdrawals.symm, h.joins.symm⟩

theorem Same.trans (h : Same base a b) (h' : Same base b c) : Same base a c where
  products := h'.products.trans h.products
  sales := h'.sales.trans h.sales
  saleItems := h'.saleItems.trans h.saleItems
  stockMovements := h.stockMovements.trans h'.stockMovements
  expenses := h'.expenses.trans h.expenses
  ownerWithdrawals := h'.ownerWithdrawals.trans h.ownerWithdrawals
  joins := h'.joins.trans h.joins

theorem Same.of_rows (h : SameRows a b) : Same base a b := by
  rw [h]
  exact ⟨rfl, rfl, rfl, Renamed.refl _ _, rfl, rfl, rfl⟩

theorem Held.of_same (h : Held base a) (hs : Same base a b) : Held base b := by
  intro id hid
  rw [hs.stockMovements.find?_eq (Or.inr hid)]
  exact h id hid

/-- Ledgers that are the same stay so when they grow by the same rows. -/
theorem renamed_of_grown {t t' u u' : Table Uuid StockMovement} {rows rows' : List StockMovement}
    (ht : ∀ id, (base.find? id).isSome → (t.find? id).isSome)
    (hr : Renamed (Known base) t u) (hrows : rows.Perm rows') (h : Grown Drawn t rows t')
    (h' : Grown Drawn u rows' u') : Renamed (Known base) t' u' := by
  have hu : ∀ id, (base.find? id).isSome → (u.find? id).isSome := by
    intro id hid
    rw [hr.find?_eq (Or.inr hid)]
    exact ht id hid
  refine Grown.renamed ?_ ((h.fresh ht).perm hrows) (h'.fresh hu) hr
  rintro id ⟨hdrawn, hnot⟩ (hdevice | hbase)
  · rw [Drawn, hdevice] at hdrawn
    cases hdrawn
  · exact hnot hbase

end

/-- Two databases have the same of what the verdict on a sale reads. -/
structure Near (storeId saleId : Uuid) (request : RecordSaleRequest) (a b : Db) : Prop where
  /-- What its products offer. -/
  offered : ∀ id, (find storeId id b).map (fun p => (p.name, p.sellingPrice, p.costPrice)) =
    (find storeId id a).map fun p => (p.name, p.sellingPrice, p.costPrice)
  /-- Its row. -/
  row : b.sales.find? saleId = a.sales.find? saleId
  /-- The lines stored under its lines' identifiers. -/
  lines : ∀ item ∈ request.items, ∀ id, item.id = some id →
    b.saleItems.find? id = a.saleItems.find? id

section

variable {storeId : Uuid} {a b : Db}

theorem resolveLine_congr {lineId : Uuid} {item : SaleLineRequest}
    (h : ∀ id, (find storeId id b).map (fun p => (p.name, p.sellingPrice, p.costPrice)) =
      (find storeId id a).map fun p => (p.name, p.sellingPrice, p.costPrice)) :
    resolveLine storeId lineId item b = resolveLine storeId lineId item a := by
  unfold resolveLine
  cases hp : item.productId with
  | none => rfl
  | some productId =>
    have hoffer := h productId
    cases ha : find storeId productId a with
    | none =>
      rw [ha, Option.map_none, Option.map_eq_none_iff] at hoffer
      simp only [hoffer, ha]
    | some p =>
      rw [ha, Option.map_some, Option.map_eq_some_iff] at hoffer
      obtain ⟨q, hb, hsame⟩ := hoffer
      simp only [Prod.mk.injEq] at hsame
      obtain ⟨hname, hprice, hcost⟩ := hsame
      simp only [ha, hb, hname, hprice, hcost]

/-- Lines whose identifiers are given are resolved from what products offer. -/
theorem resolveLines_congr {items : List SaleLineRequest} {i : ℕ}
    (h : ∀ id, (find storeId id b).map (fun p => (p.name, p.sellingPrice, p.costPrice)) =
      (find storeId id a).map fun p => (p.name, p.sellingPrice, p.costPrice))
    (hgiven : ∀ item ∈ items, item.id.isSome) :
    resolveLines storeId b items i = resolveLines storeId a items i := by
  induction items generalizing i with
  | nil => rfl
  | cons item rest ih =>
    obtain ⟨id, hid⟩ := Option.isSome_iff_exists.mp (hgiven item List.mem_cons_self)
    rw [resolveLines, resolveLines, hid, Option.getD_some, Option.getD_some, resolveLine_congr h,
      ih fun it hit => hgiven it (List.mem_cons_of_mem item hit)]

theorem given_of_mem_lineIds {items : List SaleLineRequest} {i : ℕ} {id : Uuid}
    (hgiven : ∀ item ∈ items, item.id.isSome) (h : id ∈ lineIds a items i) :
    ∃ item ∈ items, item.id = some id := by
  induction items generalizing i with
  | nil => cases h
  | cons item rest ih =>
    obtain ⟨given, hid⟩ := Option.isSome_iff_exists.mp (hgiven item List.mem_cons_self)
    rw [lineIds, hid, Option.getD_some] at h
    rcases List.mem_cons.mp h with rfl | h
    · exact ⟨item, List.mem_cons_self, hid⟩
    · obtain ⟨it, hit, hitId⟩ := ih (fun it hit => hgiven it (List.mem_cons_of_mem item hit)) h
      exact ⟨it, List.mem_cons_of_mem item hit, hitId⟩

theorem visible_given {actor : Actor} {items : List SaleLineRequest}
    (hgiven : ∀ item ∈ items, item.id.isSome) :
    ∀ item ∈ visibleItems actor items, item.id.isSome := by
  unfold visibleItems
  split_ifs
  · exact hgiven
  · intro item hitem
    obtain ⟨it, hit, rfl⟩ := List.mem_map.mp hitem
    exact hgiven it hit

/-- A verdict depends on what it reads. -/
theorem repositoryVerdict_congr {recorder : Recorder} {sale : PreparedSale}
    (hrow : b.sales.find? sale.id = a.sales.find? sale.id)
    (hlines : ∀ l ∈ sale.lines, b.saleItems.find? l.id = a.saleItems.find? l.id) :
    repositoryVerdict recorder sale b = repositoryVerdict recorder sale a := by
  have hi : Insertable sale b ↔ Insertable sale a := by
    refine and_congr_right fun _ => forall₂_congr fun l hl => ?_
    rw [hlines l hl]
  unfold repositoryVerdict
  rw [hrow]
  simp only [hi]

variable {now : Timestamp} {saleId : Uuid} {actor : Actor} {request : RecordSaleRequest}

/-- A sale whose identifiers are given meets the same verdict in databases that
have the same of what it reads. -/
theorem verdict_congr (hid : request.id = some saleId)
    (hgiven : ∀ item ∈ request.items, item.id.isSome) (h : Near storeId saleId request a b) :
    verdict now storeId actor request b = verdict now storeId actor request a := by
  unfold verdict
  cases normalisePaymentMethod request.paymentMethod with
  | error e => rfl
  | ok method =>
    rw [resolveLines_congr h.offered (visible_given hgiven)]
    cases hlines : resolveLines storeId a (visibleItems actor request.items) 0 with
    | error e => rfl
    | ok lines =>
      dsimp only
      rw [hid, Option.getD_some, Option.getD_some]
      apply repositoryVerdict_congr h.row
      intro l hl
      obtain ⟨-, hids, -⟩ := resolveLines_eq_ok hlines
      rw [lineIds_visible] at hids
      have hmem : l.id ∈ lineIds a request.items 0 := hids ▸ List.mem_map_of_mem hl
      obtain ⟨item, hitem, hitemId⟩ := given_of_mem_lineIds hgiven hmem
      exact h.lines item hitem l.id hitemId

end

/-- What a verdict makes of the database. -/
def Becomes (now : Timestamp) (staffId : Option Uuid) (db db' : Db) : Verdict → Prop
  | .refused _ => db' = db
  | .kept _ => SameRows db db'
  | .written sale existing => Wrote now staffId sale existing db db'

/-- What the device is told of a verdict. -/
def reported (request : RecordSaleRequest) (o : Outcome) : Verdict → Outcome
  | .refused reason => { o with rejected := o.rejected ++ [⟨.sale, request.id, reason⟩] }
  | .kept id => o.addApplied .sale id
  | .written sale _ => o.addApplied .sale sale.id

section

variable {now : Timestamp} {storeId : Uuid} {actor : Actor} {request : RecordSaleRequest}

/-- A sale of a push meets its verdict. -/
theorem pushSale_eq (s : PushState) : ∃ db',
    Becomes now actor.staffId s.2 db' (verdict now storeId actor request s.2) ∧
      pushSale now storeId actor s request =
        (reported request s.1 (verdict now storeId actor request s.2), db') := by
  have hforetold := @foretold_record now storeId actor request s.2
  unfold pushSale
  cases hverdict : verdict now storeId actor request s.2 with
  | refused reason =>
    rw [hverdict] at hforetold
    obtain ⟨e, he, rfl⟩ := hforetold
    rw [map_eq_error.mp he]
    exact ⟨s.2, rfl, rfl⟩
  | kept id =>
    rw [hverdict] at hforetold
    obtain ⟨db', hok, hsame⟩ := hforetold
    obtain ⟨⟨detail, db₁⟩, hrecord, heq⟩ := map_eq_ok.mp hok
    cases heq
    rw [hrecord]
    exact ⟨db₁, hsame, rfl⟩
  | written sale existing =>
    rw [hverdict] at hforetold
    obtain ⟨db', hok, hwrote⟩ := hforetold
    obtain ⟨⟨detail, db₁⟩, hrecord, heq⟩ := map_eq_ok.mp hok
    obtain ⟨hid, rfl⟩ := Prod.mk.inj heq
    rw [hrecord]
    exact ⟨db₁, hwrote, by rw [reported, ← hid]⟩

/-- A sale that is written is the request's. -/
theorem written_of_verdict {db : Db} {sale : PreparedSale} {existing : Option Sale}
    {saleId : Uuid} (hid : request.id = some saleId)
    (hgiven : ∀ item ∈ request.items, item.id.isSome)
    (h : verdict now storeId actor request db = .written sale existing) :
    sale.id = saleId ∧ sale.storeId = storeId ∧ db.sales.find? sale.id = existing ∧
      ∀ l ∈ sale.lines, ∃ item ∈ request.items, item.id = some l.id := by
  unfold verdict at h
  cases hmethod : normalisePaymentMethod request.paymentMethod with
  | error e =>
    rw [hmethod] at h
    cases h
  | ok method =>
    rw [hmethod] at h
    cases hlines : resolveLines storeId db (visibleItems actor request.items) 0 with
    | error e =>
      rw [hlines] at h
      cases h
    | ok lines =>
      rw [hlines] at h
      dsimp only at h
      have hids : ∀ l ∈ lines, ∃ item ∈ request.items, item.id = some l.id := by
        intro l hl
        obtain ⟨-, hids, -⟩ := resolveLines_eq_ok hlines
        rw [lineIds_visible] at hids
        have hmem : l.id ∈ lineIds db request.items 0 := hids ▸ List.mem_map_of_mem hl
        exact given_of_mem_lineIds hgiven hmem
      rw [hid, Option.getD_some] at h
      unfold repositoryVerdict at h
      cases hrow : db.sales.find? (prepareSale now storeId saleId method request lines).id with
      | none =>
        rw [hrow] at h
        dsimp only at h
        split_ifs at h
        cases h
        exact ⟨rfl, rfl, hrow, hids⟩
      | some stored =>
        rw [hrow] at h
        dsimp only at h
        split_ifs at h
        cases h
        exact ⟨rfl, rfl, hrow, hids⟩

end

section

variable {now : Timestamp} {staffId : Option Uuid} {sale : PreparedSale}
  {existing : Option Sale} {db db' : Db}

/-- A sale moves a product's stock by an amount that depends on its store alone. -/
theorem soldFrom_moves (joins : JoinRule) (now : Timestamp) (sale : PreparedSale) (stored : Bool)
    (saleItems : Table Uuid SaleItem) (id storeId : Uuid) :
    ∃ (change : Quantity) (touched : Bool), ∀ p : Product, p.storeId = storeId →
      soldFrom joins now sale stored saleItems id p = { p with
        stockQuantity := p.stockQuantity + change
        updatedAt := if touched then now else p.updatedAt } := by
  by_cases hs : storeId = sale.storeId
  · -- what the earlier lines give back, and whether they do
    obtain ⟨back, gave, hback⟩ : ∃ (back : Quantity) (gave : Bool), ∀ p : Product,
        p.storeId = storeId →
        (if stored then restored joins now sale.id sale.storeId saleItems id p else p) = { p with
          stockQuantity := p.stockQuantity + back
          updatedAt := if gave then now else p.updatedAt } := by
      cases stored with
      | false => exact ⟨0, false, fun p _ => by simp⟩
      | true =>
        cases hjoined : joinedLine joins now sale.id id saleItems with
        | none =>
          refine ⟨0, false, fun p _ => ?_⟩
          simp [restored, hjoined]
        | some item =>
          refine ⟨item.quantity, true, fun p hp => ?_⟩
          simp [restored, hjoined, hp.trans hs]
    by_cases hn : Names sale.lines id
    · refine ⟨back - takenBy sale.lines id, true, fun p hp => ?_⟩
      rw [soldFrom, hback p hp, deducted, if_pos ⟨hp.trans hs, hn⟩]
      simp only [Product.mk.injEq, and_true, true_and, if_true]
      ring
    · refine ⟨back, gave, fun p hp => ?_⟩
      rw [soldFrom, hback p hp, deducted_of_not_names now sale.storeId hn]
  · refine ⟨0, false, fun p hp => ?_⟩
    have hp' : p.storeId ≠ sale.storeId := hp ▸ hs
    have hback : (if stored then restored joins now sale.id sale.storeId saleItems id p else p) =
        p := by
      cases stored with
      | false => rfl
      | true =>
        cases hjoined : joinedLine joins now sale.id id saleItems <;> simp [restored, hjoined, hp']
    rw [soldFrom, hback, deducted, if_neg fun h => hp' h.1]
    simp

/-- A product offers after a sale what it offered before. -/
theorem offered_of_wrote (h : Wrote now staffId sale existing db db') (storeId id : Uuid) :
    (find storeId id db').map (fun p => (p.name, p.sellingPrice, p.costPrice)) =
      (find storeId id db).map fun p => (p.name, p.sellingPrice, p.costPrice) := by
  unfold find
  rw [h.products id]
  cases db.products.find? id with
  | none => rfl
  | some p =>
    obtain ⟨change, touched, hmoves⟩ := soldFrom_moves db.joins now sale existing.isSome db.saleItems id
      p.storeId
    rw [Option.map_some, hmoves p rfl]
    by_cases hlisted : (p.storeId == storeId && p.deletedAt.isNone) = true
    · simp only [Option.filter_some, hlisted, if_true, Option.map_some]
    · simp only [Option.filter_some, hlisted, Bool.false_eq_true, if_false, Option.map_none]

/-- Another sale's verdict reads after a sale what it read before. -/
theorem near_of_wrote {storeId saleId : Uuid} {request : RecordSaleRequest}
    (h : Wrote now staffId sale existing db db') (hne : saleId ≠ sale.id)
    (hids : ∀ item ∈ request.items, ∀ l ∈ sale.lines, item.id ≠ some l.id)
    (hapart : ∀ item ∈ request.items, ∀ id, item.id = some id →
      ∀ row, db.saleItems.find? id = some row → row.saleId ≠ sale.id) :
    Near storeId saleId request db db' where
  offered := offered_of_wrote h storeId
  row := by
    rw [h.sales, Table.find?_put_ne _ _ hne]
  lines item hitem id hid := by
    apply Option.ext
    intro row
    rw [h.saleItems]
    constructor
    · rintro (⟨l, hl, rfl, -⟩ | ⟨hrow, -⟩)
      · exact absurd hid (hids item hitem l hl)
      · exact hrow
    · intro hrow
      exact Or.inr ⟨hrow, hapart item hitem id hid row hrow⟩

/-- The lines of another sale are as they were. -/
theorem joinedLine_of_wrote {saleId : Uuid} (h : Wrote now staffId sale existing db db')
    (hne : saleId ≠ sale.id) (productId : Uuid) :
    joinedLine db'.joins now saleId productId db'.saleItems =
      joinedLine db.joins now saleId productId db.saleItems := by
  rw [h.joins]
  apply joinedLine_congr
  apply Table.ext_find?
  intro k
  apply Option.ext
  intro item
  rw [Table.find?_filter_eq_some, Table.find?_filter_eq_some]
  apply and_congr_left
  intro hline
  have hsale : item.saleId = saleId := by
    rw [Bool.and_eq_true, beq_iff_eq] at hline
    exact hline.1
  rw [h.saleItems]
  constructor
  · rintro (⟨l, -, -, rfl⟩ | ⟨hrow, -⟩)
    · exact absurd hsale.symm hne
    · exact hrow
  · intro hrow
    exact Or.inr ⟨hrow, hsale ▸ hne⟩

theorem soldFrom_congr {joins joins' : JoinRule} {saleItems saleItems' : Table Uuid SaleItem}
    {id : Uuid} (h : joinedLine joins' now sale.id id saleItems' =
      joinedLine joins now sale.id id saleItems) (stored : Bool) (p : Product) :
    soldFrom joins' now sale stored saleItems' id p =
      soldFrom joins now sale stored saleItems id p := by
  unfold soldFrom restored
  rw [h]

/-- Two sales move a product's stock in either order. -/
theorem soldFrom_comm (joins : JoinRule) (now : Timestamp) (x y : PreparedSale) (stored stored' : Bool)
    (saleItems saleItems' : Table Uuid SaleItem) (id : Uuid) (p : Product) :
    soldFrom joins now y stored' saleItems' id (soldFrom joins now x stored saleItems id p) =
      soldFrom joins now x stored saleItems id (soldFrom joins now y stored' saleItems' id p) := by
  obtain ⟨c, t, hx⟩ := soldFrom_moves joins now x stored saleItems id p.storeId
  obtain ⟨c', t', hy⟩ := soldFrom_moves joins now y stored' saleItems' id p.storeId
  have hxy := hy { p with
    stockQuantity := p.stockQuantity + c
    updatedAt := if t then now else p.updatedAt } rfl
  have hyx := hx { p with
    stockQuantity := p.stockQuantity + c'
    updatedAt := if t' then now else p.updatedAt } rfl
  rw [hx p rfl, hy p rfl, hxy, hyx]
  simp only [Product.mk.injEq, and_true, true_and]
  refine ⟨by ring, ?_⟩
  cases t <;> cases t' <;> rfl

/-- The ledger row of a sale does not carry another sale's note. -/
theorem retiredFor_ledgerRows {x y : PreparedSale} (hne : x.id ≠ y.id) (stored : Bool) :
    (ledgerRows now x).map (retiredFor now y stored) = ledgerRows now x := by
  have hrow : ∀ m ∈ ledgerRows now x, retiredFor now y stored m = m := by
    intro m hm
    obtain ⟨line, -, hline⟩ := List.mem_filterMap.mp hm
    obtain ⟨productId, -, rfl⟩ := Option.map_eq_some_iff.mp hline
    unfold retiredFor
    split_ifs
    · apply retired_of_not
      rintro ⟨-, hnote, -⟩
      exact hne (saleNote_injective (Option.some.inj hnote))
    · rfl
  calc (ledgerRows now x).map (retiredFor now y stored)
      = (ledgerRows now x).map id := List.map_congr_left hrow
    _ = ledgerRows now x := List.map_id _

theorem retiredFor_comm (now : Timestamp) {x y : PreparedSale} (hne : x.id ≠ y.id)
    (stored stored' : Bool) (m : StockMovement) :
    retiredFor now y stored' (retiredFor now x stored m) =
      retiredFor now x stored (retiredFor now y stored' m) := by
  have hnot : ∀ {a b : PreparedSale}, a.id ≠ b.id → ∀ b', RetiredWith a.id a.storeId m →
      retiredFor now b b' m = m ∧ retiredFor now b b' (retired now a.id a.storeId m) =
        retired now a.id a.storeId m := by
    intro a b hab b' ⟨hstore, hnote, hlive⟩
    have hother : ¬ RetiredWith b.id b.storeId m := by
      rintro ⟨-, hnote', -⟩
      exact hab (saleNote_injective (Option.some.inj (hnote.symm.trans hnote')))
    have hgone : ¬ RetiredWith b.id b.storeId (retired now a.id a.storeId m) := by
      rintro ⟨-, -, hdead⟩
      rw [retired_deletedAt ⟨hstore, hnote, hlive⟩] at hdead
      cases hdead
    unfold retiredFor
    split_ifs
    · exact ⟨retired_of_not hother, retired_of_not hgone⟩
    · exact ⟨rfl, rfl⟩
  by_cases hx : RetiredWith x.id x.storeId m
  · obtain ⟨hm, hret⟩ := hnot hne stored' hx
    rw [hm]
    cases stored with
    | false => exact hm
    | true => exact hret
  · by_cases hy : RetiredWith y.id y.storeId m
    · obtain ⟨hm, hret⟩ := hnot hne.symm stored hy
      rw [hm]
      cases stored' with
      | false => exact hm.symm
      | true => exact hret.symm
    · have hxm : retiredFor now x stored m = m := by
        unfold retiredFor
        split_ifs
        · exact retired_of_not hx
        · rfl
      have hym : retiredFor now y stored' m = m := by
        unfold retiredFor
        split_ifs
        · exact retired_of_not hy
        · rfl
      rw [hxm, hym, hxm]

end

section

variable {base : Table Uuid StockMovement} {now : Timestamp} {staffId : Option Uuid}

/-- A sale written to the same rows leaves the same rows. -/
theorem Same.wrote {sale : PreparedSale} {existing : Option Sale} {a b a' b' : Db}
    (h : Same base a b) (hheld : Held base a) (ha : Wrote now staffId sale existing a a')
    (hb : Wrote now staffId sale existing b b') : Same base a' b' where
  products := by
    apply Table.ext_find?
    intro id
    rw [ha.products, hb.products, h.products, h.saleItems, h.joins]
  sales := by rw [ha.sales, hb.sales, h.sales]
  saleItems := by
    apply Table.ext_find?
    intro k
    apply Option.ext
    intro item
    rw [ha.saleItems, hb.saleItems, h.saleItems]
  stockMovements := by
    refine renamed_of_grown ?_ (h.stockMovements.mapRows _) (List.Perm.refl _) ha.stockMovements
      hb.stockMovements
    intro id hid
    rw [Table.find?_mapRows, Option.isSome_map]
    exact hheld id hid
  expenses := by rw [ha.expenses, hb.expenses, h.expenses]
  ownerWithdrawals := by rw [ha.ownerWithdrawals, hb.ownerWithdrawals, h.ownerWithdrawals]
  joins := by rw [ha.joins, hb.joins, h.joins]

/-- Two sales written in either order leave the same rows. -/
theorem Wrote.comm {x y : PreparedSale} {ex ey : Option Sale} {db dx dxy dy dyx : Db}
    (hheld : Held base db) (hne : x.id ≠ y.id) (hx : Wrote now staffId x ex db dx)
    (hxy : Wrote now staffId y ey dx dxy) (hy : Wrote now staffId y ey db dy)
    (hyx : Wrote now staffId x ex dy dyx) : Same base dxy dyx where
  products := by
    apply Table.ext_find?
    intro id
    rw [hyx.products, hy.products, hxy.products, hx.products, Option.map_map, Option.map_map]
    apply Option.map_congr
    intro p _
    rw [Function.comp_apply, Function.comp_apply, soldFrom_congr (joinedLine_of_wrote hy hne id),
      soldFrom_congr (joinedLine_of_wrote hx hne.symm id)]
    exact (soldFrom_comm _ now x y _ _ _ _ id p).symm
  sales := by
    rw [hyx.sales, hy.sales, hxy.sales, hx.sales]
    exact Table.put_comm _ _ _ hne.symm
  saleItems := by
    apply Table.ext_find?
    intro k
    apply Option.ext
    intro item
    rw [hyx.saleItems, hy.saleItems, hxy.saleItems, hx.saleItems]
    constructor
    · rintro (⟨l, hl, hk, rfl⟩ | ⟨⟨l, hl, hk, rfl⟩ | ⟨hrow, hother⟩, hother'⟩)
      · exact Or.inr ⟨Or.inl ⟨l, hl, hk, rfl⟩, hne⟩
      · exact Or.inl ⟨l, hl, hk, rfl⟩
      · exact Or.inr ⟨Or.inr ⟨hrow, hother'⟩, hother⟩
    · rintro (⟨l, hl, hk, rfl⟩ | ⟨⟨l, hl, hk, rfl⟩ | ⟨hrow, hother⟩, hother'⟩)
      · exact Or.inr ⟨Or.inl ⟨l, hl, hk, rfl⟩, hne.symm⟩
      · exact Or.inl ⟨l, hl, hk, rfl⟩
      · exact Or.inr ⟨Or.inr ⟨hrow, hother'⟩, hother⟩
  stockMovements := by
    have hgrownX := hx.stockMovements.mapRows (retiredFor now y ey.isSome)
    have hgrownY := hy.stockMovements.mapRows (retiredFor now x ex.isSome)
    rw [retiredFor_ledgerRows hne] at hgrownX
    rw [retiredFor_ledgerRows hne.symm] at hgrownY
    have hstart : ((db.stockMovements.mapRows fun _ => retiredFor now x ex.isSome).mapRows
        fun _ => retiredFor now y ey.isSome) =
        (db.stockMovements.mapRows fun _ => retiredFor now y ey.isSome).mapRows
          fun _ => retiredFor now x ex.isSome := by
      rw [Table.mapRows_mapRows, Table.mapRows_mapRows]
      congr 1
      funext _ m
      exact retiredFor_comm now hne _ _ m
    rw [hstart] at hgrownX
    refine renamed_of_grown ?_ (Renamed.refl _ _) List.perm_append_comm
      (hgrownX.append hxy.stockMovements) (hgrownY.append hyx.stockMovements)
    intro id hid
    rw [Table.find?_mapRows, Table.find?_mapRows, Option.isSome_map, Option.isSome_map]
    exact hheld id hid
  expenses := by rw [hyx.expenses, hy.expenses, hxy.expenses, hx.expenses]
  ownerWithdrawals := by
    rw [hyx.ownerWithdrawals, hy.ownerWithdrawals, hxy.ownerWithdrawals, hx.ownerWithdrawals]
  joins := by rw [hyx.joins, hy.joins, hxy.joins, hx.joins]

/-- The ledger keeps what it had through any verdict. -/
theorem Held.becomes {v : Verdict} {db db' : Db} (h : Held base db)
    (hb : Becomes now staffId db db' v) : Held base db' := by
  cases v with
  | refused reason =>
    rw [show db' = db from hb]
    exact h
  | kept id => exact h.of_same (Same.of_rows hb)
  | written sale existing =>
    intro id hid
    apply Grown.isSome (Wrote.stockMovements hb)
    rw [Table.find?_mapRows, Option.isSome_map]
    exact h id hid

/-- The same verdict on the same rows leaves the same rows. -/
theorem Same.becomes {v : Verdict} {a b a' b' : Db} (h : Same base a b) (hheld : Held base a)
    (ha : Becomes now staffId a a' v) (hb : Becomes now staffId b b' v) : Same base a' b' := by
  cases v with
  | refused reason =>
    rw [show a' = a from ha, show b' = b from hb]
    exact h
  | kept id => exact (Same.of_rows ha).symm.trans (h.trans (Same.of_rows hb))
  | written sale existing => exact h.wrote hheld ha hb

/-- A verdict that writes nothing leaves the rows alone. -/
theorem Becomes.same_of_not_written {v : Verdict} {db db' : Db}
    (h : Becomes now staffId db db' v) (hv : ∀ sale existing, v ≠ .written sale existing) :
    Same base db db' := by
  cases v with
  | refused reason =>
    rw [show db' = db from h]
    exact Same.refl base db
  | kept id => exact Same.of_rows h
  | written sale existing => exact absurd rfl (hv sale existing)

/-- Two verdicts on different sales leave the same rows in either order. -/
theorem Becomes.comm {v w : Verdict} {db dv dvw dw dwv : Db} (hheld : Held base db)
    (hne : ∀ x ex y ey, v = .written x ex → w = .written y ey → x.id ≠ y.id)
    (hv : Becomes now staffId db dv v) (hvw : Becomes now staffId dv dvw w)
    (hw : Becomes now staffId db dw w) (hwv : Becomes now staffId dw dwv v) :
    Same base dvw dwv := by
  by_cases hwritten : ∃ x ex, v = .written x ex
  · obtain ⟨x, ex, rfl⟩ := hwritten
    by_cases hwritten' : ∃ y ey, w = .written y ey
    · obtain ⟨y, ey, rfl⟩ := hwritten'
      exact Wrote.comm hheld (hne x ex y ey rfl rfl) hv hvw hw hwv
    · have hw' : ∀ y ey, w ≠ .written y ey := fun y ey he => hwritten' ⟨y, ey, he⟩
      have hlast : Same base dv dwv :=
        (Becomes.same_of_not_written hw hw').becomes hheld hv hwv
      exact (Becomes.same_of_not_written hvw hw').symm.trans hlast
  · have hv' : ∀ x ex, v ≠ .written x ex := fun x ex he => hwritten ⟨x, ex, he⟩
    have hfirst : Same base dvw dw :=
      ((Becomes.same_of_not_written hv hv').symm).becomes (hheld.becomes hv) hvw hw
    exact hfirst.trans (Becomes.same_of_not_written hwv hv')

end

end Kitaza.SaleOrder
