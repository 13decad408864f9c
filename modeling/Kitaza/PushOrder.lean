import Kitaza.DecimalRange
import Kitaza.SaleOrder
import Kitaza.TiedOrder

/-!
# The order of the rows of a push

The stock rows of a push are sorted by when they happened. Where movements have
instants of their own, permuting the sales or the movements of the push swaps
sales of one instant, and nothing else. Such a swap leaves the same rows,
applied and refused, as long as no sale sends the identifier of a line that is
stored under another sale of that instant, and the decimals and columns hold the
figures in either order.
-/

namespace Kitaza.PushOrder

open KeyedTable Primitives Access Schema Payloads ProductService SaleRepository SaleService
  InventoryService RowEffects SyncPush RenamedTable SaleVerdict SaleOrder TiedOrder
open DecimalRange (StoredDb AllHeld unused)

/-- Two results are the same: the same refusal, or the same answer with the same
rows. -/
def Alike {α : Type} (base : Table Uuid StockMovement) (x y : Except ApiError (α × Db)) : Prop :=
  (∃ e, x = .error e ∧ y = .error e) ∨
    ∃ r a b, x = .ok (r, a) ∧ y = .ok (r, b) ∧ Same base a b

/-- Two states of a push are the same, up to the order of what was reported. -/
structure SamePush (base : Table Uuid StockMovement) (s t : PushState) : Prop where
  /-- The rows applied. -/
  applied : s.1.applied.Perm t.1.applied
  /-- The rows refused. -/
  rejected : s.1.rejected.Perm t.1.rejected
  /-- The database. -/
  rows : Same base s.2 t.2

section

variable {base : Table Uuid StockMovement}

theorem SamePush.refl (base : Table Uuid StockMovement) (s : PushState) : SamePush base s s :=
  ⟨List.Perm.refl _, List.Perm.refl _, Same.refl base s.2⟩

theorem SamePush.trans {s t u : PushState} (h : SamePush base s t) (h' : SamePush base t u) :
    SamePush base s u :=
  ⟨h.applied.trans h'.applied, h.rejected.trans h'.rejected, h.rows.trans h'.rows⟩

theorem Alike.map {α β : Type} {x y : Except ApiError (α × Db)} (h : Alike base x y)
    (f : α → β) : Alike base (x.map fun r => (f r.1, r.2)) (y.map fun r => (f r.1, r.2)) := by
  rcases h with ⟨e, rfl, rfl⟩ | ⟨r, a, b, rfl, rfl, hsame⟩
  · exact Or.inl ⟨e, rfl, rfl⟩
  · exact Or.inr ⟨f r, a, b, rfl, rfl, hsame⟩

/-- The log is none of the rows. -/
theorem same_of_log {a b a' b' : Db} (h : Same base a b) (ha : SameRows a a') (hb : SameRows b b') :
    Same base a' b' := (Same.of_rows ha).symm.trans (h.trans (Same.of_rows hb))

variable {now : Timestamp} {storeId : Uuid} {actor : Actor}

theorem SamePush.pushRow {s t : PushState} {row : PushRow} (h : SamePush base s t)
    (halike : Alike base (row.apply now storeId actor s.2) (row.apply now storeId actor t.2)) :
    SamePush base (pushRow now storeId actor s row) (pushRow now storeId actor t row) := by
  rcases halike with ⟨e, hs, ht⟩ | ⟨id, a, b, hs, ht, hsame⟩
  · rw [pushRow_of_error s hs, pushRow_of_error t ht]
    exact ⟨h.applied, h.rejected.append_right _, h.rows⟩
  · rw [pushRow_of_ok s hs, pushRow_of_ok t ht]
    cases id with
    | none => exact ⟨h.applied, h.rejected, hsame⟩
    | some id => exact ⟨h.applied.append_right _, h.rejected, hsame⟩

theorem sameRows_logMovement (entry : LedgerEntry) (quantity : Quantity)
    (applied : Option AppliedMovement) (db : Db) :
    SameRows db (logMovement now actor entry quantity applied db) := by
  obtain ⟨events, hlog⟩ := logMovement_eq now actor entry quantity applied db
  rw [hlog]
  rfl

variable {a b : Db}

theorem alike_movement (h : Same base a b) {request : RecordMovementRequest} {id : Uuid}
    (hid : request.id = some id) (hknown : Known base id) :
    Alike base ((InventoryService.record now storeId actor request a).map fun r => (request.id, r))
      ((InventoryService.record now storeId actor request b).map fun r => (request.id, r)) := by
  have hentry : ∀ kind effect, entryOf now storeId actor request kind effect b =
      entryOf now storeId actor request kind effect a := by
    intro kind effect
    simp only [entryOf, hid, Option.getD_some]
  have hfind : ∀ productId, find storeId productId b = find storeId productId a := by
    intro productId
    rw [find, find, h.products]
  have hfound : b.stockMovements.find? id = a.stockMovements.find? id :=
    h.stockMovements.find?_eq hknown
  unfold InventoryService.record
  cases actor.require .manageProducts with
  | error e => exact Or.inl ⟨e, rfl, rfl⟩
  | ok _ =>
    cases heffect : stockEffect (toLowercase (trim request.movement))
        (quantityFromF64 request.quantity) with
    | error e =>
      simp only [bind, Except.bind, heffect]
      exact Or.inl ⟨e, rfl, rfl⟩
    | ok r =>
      simp only [bind, Except.bind, heffect, hentry]
      split_ifs
      · exact Or.inl ⟨_, rfl, rfl⟩
      · set entry := entryOf now storeId actor request r.1 r.2 a with hdef
        have hmovement : entry.movementId = id := by
          simp only [hdef, entryOf, hid, Option.getD_some]
        have hstore : entry.storeId = storeId := rfl
        unfold recordMovement
        rw [hstore, hfind, hmovement, hfound]
        cases find storeId entry.productId a with
        | none => exact Or.inl ⟨_, rfl, rfl⟩
        | some p =>
          dsimp only
          cases hstored : (a.stockMovements.find? id).isSome with
          | true =>
            right
            refine ⟨request.id, _, _, rfl, rfl, ?_⟩
            exact same_of_log h rfl rfl
          | false =>
            right
            refine ⟨request.id, _, _, rfl, rfl, ?_⟩
            refine same_of_log ?_ (sameRows_logMovement _ _ _ _) (sameRows_logMovement _ _ _ _)
            exact ⟨by rw [h.products], h.sales, h.saleItems, h.stockMovements.put hknown _,
              h.expenses, h.ownerWithdrawals, h.joins⟩

theorem alike_expense (h : Same base a b) (request : RecordExpenseRequest) :
    Alike base (ExpenseService.record now storeId actor request a)
      (ExpenseService.record now storeId actor request b) := by
  unfold ExpenseService.record ExpenseService.upsert
  rw [h.expenses]
  cases actor.require .recordExpenses with
  | error e => exact Or.inl ⟨e, rfl, rfl⟩
  | ok _ =>
    cases hcategory : ExpenseService.parseCategory request.category with
    | error e => exact Or.inl ⟨e, rfl, rfl⟩
    | ok category =>
      simp only [bind, Except.bind]
      cases ExpenseService.upsertRow now storeId
          ⟨category, trimmed request.description, moneyFromF64 request.amount,
            request.occurredAt.getD now⟩ actor
          (a.expenses.find? (request.id.getD (Uuid.newV4 a.expenses 0))) with
      | none => exact Or.inl ⟨_, rfl, rfl⟩
      | some row =>
        right
        refine ⟨_, _, _, rfl, rfl, ?_⟩
        split_ifs
        · exact ⟨h.products, h.sales, h.saleItems, h.stockMovements, rfl, h.ownerWithdrawals,
            h.joins⟩
        · exact ⟨h.products, h.sales, h.saleItems, h.stockMovements, rfl, h.ownerWithdrawals,
            h.joins⟩

theorem alike_withdrawal (h : Same base a b) (request : RecordWithdrawalRequest) :
    Alike base (WithdrawalService.record now storeId actor request a)
      (WithdrawalService.record now storeId actor request b) := by
  unfold WithdrawalService.record WithdrawalService.upsert
  rw [h.ownerWithdrawals]
  cases actor.requireOwner with
  | error e => exact Or.inl ⟨e, rfl, rfl⟩
  | ok _ =>
    simp only [bind, Except.bind]
    cases WithdrawalService.upsertRow now storeId
        ⟨moneyFromF64 request.amount, trimmed request.reason, request.occurredAt.getD now⟩
        (a.ownerWithdrawals.find? (request.id.getD (Uuid.newV4 a.ownerWithdrawals 0))) with
    | none => exact Or.inl ⟨_, rfl, rfl⟩
    | some row =>
      right
      refine ⟨_, _, _, rfl, rfl, ?_⟩
      split_ifs
      · exact ⟨h.products, h.sales, h.saleItems, h.stockMovements, h.expenses, rfl, h.joins⟩
      · exact ⟨h.products, h.sales, h.saleItems, h.stockMovements, h.expenses, rfl, h.joins⟩

/-- Removals from the same rows: the same refusal, or the same rows. -/
theorem alike_removal (h : Same base a b) (request : DeletionRequest) :
    (∃ e, removeEntity now storeId actor request a = .error e ∧
        removeEntity now storeId actor request b = .error e) ∨
      ∃ a' b', removeEntity now storeId actor request a = .ok a' ∧
        removeEntity now storeId actor request b = .ok b' ∧ Same base a' b' := by
  unfold removeEntity
  split_ifs
  · unfold SaleService.void SaleRepository.void SaleRepository.findLive
    rw [h.sales]
    cases actor.require .deleteRecords with
    | error e => exact Or.inl ⟨e, rfl, rfl⟩
    | ok _ =>
      simp only [bind, Except.bind]
      cases (a.sales.find? request.id).filter
          fun s => s.storeId == storeId && s.deletedAt.isNone with
      | none => exact Or.inl ⟨_, rfl, rfl⟩
      | some sale =>
        right
        refine ⟨_, _, rfl, rfl, ?_, ?_, h.saleItems, h.stockMovements.mapRows _, h.expenses,
          h.ownerWithdrawals, h.joins⟩
        · change b.products.mapRows (restored b.joins now request.id storeId b.saleItems) =
            a.products.mapRows (restored a.joins now request.id storeId a.saleItems)
          rw [h.products, h.saleItems, h.joins]
        · change b.sales.put _ _ = a.sales.put _ _
          rw [h.sales]
  · unfold ExpenseService.remove ExpenseService.softDelete ExpenseService.findLive
    rw [h.expenses]
    cases actor.require .deleteRecords with
    | error e => exact Or.inl ⟨e, rfl, rfl⟩
    | ok _ =>
      simp only [bind, Except.bind]
      cases (a.expenses.find? request.id).filter
          fun e => e.storeId == storeId && e.deletedAt.isNone with
      | none => exact Or.inl ⟨_, rfl, rfl⟩
      | some e =>
        exact Or.inr ⟨_, _, rfl, rfl, h.products, h.sales, h.saleItems, h.stockMovements, rfl,
          h.ownerWithdrawals, h.joins⟩
  · unfold WithdrawalService.remove WithdrawalService.softDelete WithdrawalService.findLive
    rw [h.ownerWithdrawals]
    cases actor.requireOwner with
    | error e => exact Or.inl ⟨e, rfl, rfl⟩
    | ok _ =>
      simp only [bind, Except.bind]
      cases (a.ownerWithdrawals.find? request.id).filter
          fun w => w.storeId == storeId && w.deletedAt.isNone with
      | none => exact Or.inl ⟨_, rfl, rfl⟩
      | some w =>
        exact Or.inr ⟨_, _, rfl, rfl, h.products, h.sales, h.saleItems, h.stockMovements,
          h.expenses, rfl, h.joins⟩
  · unfold ProductService.remove ProductService.softDelete ProductService.find
    rw [h.products]
    cases actor.require .manageProducts with
    | error e => exact Or.inl ⟨e, rfl, rfl⟩
    | ok _ =>
      simp only [bind, Except.bind]
      cases (a.products.find? request.id).filter
          fun p => p.storeId == storeId && p.deletedAt.isNone with
      | none => exact Or.inl ⟨_, rfl, rfl⟩
      | some p =>
        exact Or.inr ⟨_, _, rfl, rfl, rfl, h.sales, h.saleItems, h.stockMovements, h.expenses,
          h.ownerWithdrawals, h.joins⟩
  · exact Or.inl ⟨_, rfl, rfl⟩

theorem alike_deletion (h : Same base a b) (request : DeletionRequest) :
    Alike base ((delete now storeId actor request a).map fun r => (some request.id, r))
      ((delete now storeId actor request b).map fun r => (some request.id, r)) := by
  unfold delete
  rcases @alike_removal base now storeId actor a b h request with ⟨e, ha, hb⟩ |
    ⟨a', b', ha, hb, hsame⟩
  · rw [ha, hb]
    cases e with
    | notFound what => exact Or.inr ⟨_, a, b, rfl, rfl, h⟩
    | badRequest message => exact Or.inl ⟨_, rfl, rfl⟩
    | forbidden message => exact Or.inl ⟨_, rfl, rfl⟩
    | conflict message => exact Or.inl ⟨_, rfl, rfl⟩
    | internal cause => exact Or.inl ⟨_, rfl, rfl⟩
  · rw [ha, hb]
    exact Or.inr ⟨_, a', b', rfl, rfl, hsame⟩

end

/-- Two sales of one instant. -/
def Tied (now : Timestamp) (e f : StockEvent) : Prop :=
  ∃ x y, e = .sale x ∧ f = .sale y ∧ x ≠ y ∧ e.occurredAt now = f.occurredAt now

/-- The timeline is the events given, in the order they happened. -/
theorem timeline_perm (now : Timestamp) (sales : List RecordSaleRequest)
    (movements : List RecordMovementRequest) : (intoTimeline now sales movements).Perm
      (sales.map StockEvent.sale ++ movements.map StockEvent.movement) :=
  List.perm_insertionSort _ _

theorem timeline_pairwise (now : Timestamp) (sales : List RecordSaleRequest)
    (movements : List RecordMovementRequest) :
    (intoTimeline now sales movements).Pairwise fun e f => e.occurredAt now ≤ f.occurredAt now :=
  List.pairwise_insertionSort (StockEvent.NoLater now) _

/-- Permuting the sales and the movements, none of which share an instant with
another movement, swaps sales of one instant. -/
theorem timeline_tied {now : Timestamp} {sales sales' : List RecordSaleRequest}
    {movements movements' : List RecordMovementRequest} (hs : sales.Perm sales')
    (hm : movements.Perm movements')
    (hinstants : ∀ x ∈ movements, ∀ y ∈ movements, x ≠ y →
      x.occurredAt.getD now ≠ y.occurredAt.getD now) :
    TiedPerm (Tied now) (intoTimeline now sales movements)
      (intoTimeline now sales' movements') := by
  have hR : ∀ e f, Tied now e f →
      StockEvent.NoLater now e f ∧ StockEvent.NoLater now f e := by
    rintro e f ⟨x, y, -, -, -, hsame⟩
    exact ⟨hsame.le, hsame.ge⟩
  have hsort : ∀ (sales : List RecordSaleRequest) (movements : List RecordMovementRequest),
      intoTimeline now sales movements = (sales.map StockEvent.sale).foldr
        (List.orderedInsert (StockEvent.NoLater now))
        ((movements.map StockEvent.movement).insertionSort (StockEvent.NoLater now)) := by
    intro sales movements
    rw [intoTimeline, List.insertionSort, List.foldr_append]
  have hmovements : TiedPerm (Tied now)
      ((movements.map StockEvent.movement).insertionSort (StockEvent.NoLater now))
      ((movements'.map StockEvent.movement).insertionSort (StockEvent.NoLater now)) := by
    apply TiedPerm.foldr_orderedInsert hR (hm.map _) _ []
    rintro e he f hf hne hle hge
    obtain ⟨x, hx, rfl⟩ := List.mem_map.mp he
    obtain ⟨y, hy, rfl⟩ := List.mem_map.mp hf
    exact absurd (le_antisymm hle hge) (hinstants x hx y hy fun h => hne (congrArg _ h))
  rw [hsort, hsort]
  refine TiedPerm.trans (TiedPerm.foldr_orderedInsert hR (hs.map _) ?_ _)
    (TiedPerm.foldr_orderedInsert_congr hR _ hmovements)
  rintro e he f hf hne hle hge
  obtain ⟨x, -, rfl⟩ := List.mem_map.mp he
  obtain ⟨y, -, rfl⟩ := List.mem_map.mp hf
  exact ⟨x, y, rfl, rfl, fun h => hne (congrArg _ h), le_antisymm hle hge⟩

/-- Events whose order among ties does not matter, for a database: they are told
apart by identifiers nobody draws, and no sale sends the identifier of a line
that is stored under another sale of its instant. -/
structure Orderly (base : Table Uuid StockMovement) (now : Timestamp) (events : List StockEvent)
    (db : Db) : Prop where
  /-- No event comes twice. -/
  nodup : events.Nodup
  /-- Sales have identifiers, and so do their lines. -/
  sales : ∀ x, .sale x ∈ events → x.id.isSome ∧ ∀ item ∈ x.items, item.id.isSome
  /-- Different sales have different ones. -/
  distinct : ∀ x y, .sale x ∈ events → .sale y ∈ events → x ≠ y → x.id ≠ y.id ∧
    ∀ item ∈ x.items, ∀ item' ∈ y.items, item.id ≠ item'.id
  /-- Movements have identifiers nobody draws. -/
  movements : ∀ m, .movement m ∈ events → ∃ id, m.id = some id ∧ Known base id
  /-- No line is stored under another sale of the instant. -/
  apart : ∀ x y, .sale x ∈ events → .sale y ∈ events → x ≠ y →
    x.occurredAt.getD now = y.occurredAt.getD now → ∀ item ∈ x.items, ∀ id,
      item.id = some id → ∀ row, db.saleItems.find? id = some row → y.id ≠ some row.saleId
  /-- The ledger has what it had. -/
  held : Held base db

section

variable {base : Table Uuid StockMovement} {now : Timestamp} {storeId : Uuid} {actor : Actor}

/-- The lines after a verdict are the sale's, or were there. -/
theorem saleItems_of_becomes {request : RecordSaleRequest} {db db' : Db} {saleId : Uuid}
    (hid : request.id = some saleId) (hgiven : ∀ item ∈ request.items, item.id.isSome)
    (h : Becomes now actor.staffId db db' (verdict now storeId actor request db)) {k : Uuid}
    {row : SaleItem} (hrow : db'.saleItems.find? k = some row) :
    (∃ item ∈ request.items, item.id = some k) ∨ db.saleItems.find? k = some row := by
  cases hv : verdict now storeId actor request db with
  | refused reason =>
    rw [hv] at h
    rw [show db' = db from h] at hrow
    exact Or.inr hrow
  | kept id =>
    rw [hv] at h
    rw [show SameRows db db' from h] at hrow
    exact Or.inr hrow
  | written sale existing =>
    rw [hv] at h
    obtain ⟨-, -, -, hids⟩ := written_of_verdict hid hgiven hv
    rcases (Wrote.saleItems h k row).mp hrow with ⟨l, hl, rfl, -⟩ | ⟨hold, -⟩
    · exact Or.inl (hids l hl)
    · exact Or.inr hold

/-- A movement leaves the lines alone, and keeps the ledger's rows. -/
theorem movement_frame (s : PushState) (request : RecordMovementRequest) :
    (pushMovement now storeId actor s request).2.saleItems = s.2.saleItems ∧
      (Held base s.2 → Held base (pushMovement now storeId actor s request).2) := by
  unfold pushMovement
  cases h : InventoryService.record now storeId actor request s.2 with
  | error e => exact ⟨rfl, fun hheld => hheld⟩
  | ok db =>
    cases effect_of_movement h with
    | movedBefore _ => exact ⟨rfl, fun hheld => hheld⟩
    | moved _ _ _ _ _ _ _ effect =>
      rw [effect]
      refine ⟨rfl, fun hheld id hid => ?_⟩
      change (Table.find? (Table.put _ _ _) id).isSome = true
      rw [Table.find?_put]
      split_ifs
      · rfl
      · exact hheld id hid

/-- What is known of the events still to come. -/
theorem Orderly.next {e : StockEvent} {events : List StockEvent} {s : PushState}
    (h : Orderly base now (e :: events) s.2) :
    Orderly base now events (pushEvent now storeId actor s e).2 := by
  obtain ⟨hnotin, hnodup⟩ := List.nodup_cons.mp h.nodup
  have hkept : Held base (pushEvent now storeId actor s e).2 ∧
      ∀ x, .sale x ∈ events → ∀ item ∈ x.items, ∀ id, item.id = some id → ∀ row,
        (pushEvent now storeId actor s e).2.saleItems.find? id = some row →
          s.2.saleItems.find? id = some row := by
    cases e with
    | movement request =>
      obtain ⟨hitems, hheld⟩ := @movement_frame base now storeId actor s request
      refine ⟨hheld h.held, fun x _ item _ id _ row hrow => ?_⟩
      rw [← hitems]
      exact hrow
    | sale request =>
      obtain ⟨hsome, hgiven⟩ := h.sales request List.mem_cons_self
      obtain ⟨saleId, hid⟩ := Option.isSome_iff_exists.mp hsome
      obtain ⟨db', hbecomes, heq⟩ := @pushSale_eq now storeId actor request s
      rw [pushEvent, heq]
      refine ⟨h.held.becomes hbecomes, fun x hx item hitem id hitemId row hrow => ?_⟩
      rcases saleItems_of_becomes hid hgiven hbecomes hrow with ⟨item', hitem', hid'⟩ | hold
      · have hne : request ≠ x := fun he => hnotin (he ▸ hx)
        have hdiffer := (h.distinct request x List.mem_cons_self (List.mem_cons_of_mem _ hx) hne).2
        exact absurd (hid'.trans hitemId.symm) (hdiffer item' hitem' item hitem)
      · exact hold
  refine ⟨hnodup, fun x hx => h.sales x (List.mem_cons_of_mem _ hx), fun x y hx hy =>
    h.distinct x y (List.mem_cons_of_mem _ hx) (List.mem_cons_of_mem _ hy),
    fun m hm => h.movements m (List.mem_cons_of_mem _ hm), ?_, hkept.1⟩
  intro x y hx hy hne htie item hitem id hid row hrow
  exact h.apart x y (List.mem_cons_of_mem _ hx) (List.mem_cons_of_mem _ hy) hne htie item hitem id
    hid row (hkept.2 x hx item hitem id hid row hrow)

/-- The same is known of the same events and rows. -/
theorem Orderly.of_same {events events' : List StockEvent} {a b : Db}
    (h : Orderly base now events a) (hp : events.Perm events') (hsame : Same base a b) :
    Orderly base now events' b where
  nodup := hp.nodup_iff.mp h.nodup
  sales x hx := h.sales x (hp.mem_iff.mpr hx)
  distinct x y hx hy := h.distinct x y (hp.mem_iff.mpr hx) (hp.mem_iff.mpr hy)
  movements m hm := h.movements m (hp.mem_iff.mpr hm)
  apart x y hx hy := by
    rw [hsame.saleItems]
    exact h.apart x y (hp.mem_iff.mpr hx) (hp.mem_iff.mpr hy)
  held := h.held.of_same hsame

theorem reported_same {o o' : Outcome} (request : RecordSaleRequest) (v : Verdict)
    (ha : o.applied.Perm o'.applied) (hr : o.rejected.Perm o'.rejected) :
    (reported request o v).applied.Perm (reported request o' v).applied ∧
      (reported request o v).rejected.Perm (reported request o' v).rejected := by
  cases v with
  | refused reason => exact ⟨ha, hr.append_right _⟩
  | kept id => exact ⟨ha.append_right _, hr⟩
  | written sale existing => exact ⟨ha.append_right _, hr⟩

/-- Two reports in either order. -/
theorem reported_comm (o : Outcome) (x y : RecordSaleRequest) (v w : Verdict) :
    (reported y (reported x o v) w).applied.Perm (reported x (reported y o w) v).applied ∧
      (reported y (reported x o v) w).rejected.Perm (reported x (reported y o w) v).rejected := by
  have hswap : ∀ {β : Type} (l : List β) (p q : β), (l ++ [p] ++ [q]).Perm (l ++ [q] ++ [p]) := by
    intro β l p q
    rw [List.append_assoc, List.append_assoc]
    exact (List.Perm.swap q p []).append_left l
  cases v <;> cases w <;>
    first
      | exact ⟨List.Perm.refl _, hswap _ _ _⟩
      | exact ⟨hswap _ _ _, List.Perm.refl _⟩
      | exact ⟨List.Perm.refl _, List.Perm.refl _⟩

/-- An event applied to the same rows. -/
theorem pushEvent_same {e : StockEvent} {events : List StockEvent} {s t : PushState}
    (h : Orderly base now (e :: events) s.2) (hst : SamePush base s t) :
    SamePush base (pushEvent now storeId actor s e) (pushEvent now storeId actor t e) := by
  cases e with
  | movement request =>
    obtain ⟨id, hid, hknown⟩ := h.movements request List.mem_cons_self
    rw [pushEvent_eq, pushEvent_eq]
    exact hst.pushRow (alike_movement hst.rows hid hknown)
  | sale request =>
    obtain ⟨hsome, hgiven⟩ := h.sales request List.mem_cons_self
    obtain ⟨saleId, hid⟩ := Option.isSome_iff_exists.mp hsome
    obtain ⟨a, ha, hs⟩ := @pushSale_eq now storeId actor request s
    obtain ⟨b, hb, ht⟩ := @pushSale_eq now storeId actor request t
    have hnear : Near storeId saleId request s.2 t.2 := by
      refine ⟨fun id => ?_, by rw [hst.rows.sales], fun _ _ _ _ => by rw [hst.rows.saleItems]⟩
      rw [find, find, hst.rows.products]
    rw [@verdict_congr storeId s.2 t.2 now saleId actor request hid hgiven hnear] at hb ht
    obtain ⟨happlied, hrejected⟩ := reported_same request (verdict now storeId actor request s.2)
      hst.applied hst.rejected
    rw [pushEvent, pushEvent, hs, ht]
    exact ⟨happlied, hrejected, hst.rows.becomes h.held ha hb⟩

/-- Another sale's verdict reads what it read, whatever became of a sale. -/
theorem near_of_becomes {x y : RecordSaleRequest} {xId yId : Uuid} {db db' : Db}
    (hx : x.id = some xId) (hgiven : ∀ item ∈ x.items, item.id.isSome) (hne : yId ≠ xId)
    (hids : ∀ item ∈ y.items, ∀ item' ∈ x.items, item.id ≠ item'.id)
    (hapart : ∀ item ∈ y.items, ∀ id, item.id = some id →
      ∀ row, db.saleItems.find? id = some row → row.saleId ≠ xId)
    (h : Becomes now actor.staffId db db' (verdict now storeId actor x db)) :
    Near storeId yId y db db' := by
  cases hv : verdict now storeId actor x db with
  | refused reason =>
    rw [hv] at h
    rw [show db' = db from h]
    exact ⟨fun _ => rfl, rfl, fun _ _ _ _ => rfl⟩
  | kept id =>
    rw [hv] at h
    rw [show SameRows db db' from h]
    exact ⟨fun _ => rfl, rfl, fun _ _ _ _ => rfl⟩
  | written sale existing =>
    rw [hv] at h
    obtain ⟨hsale, -, -, hlines⟩ := written_of_verdict hx hgiven hv
    apply near_of_wrote h (hsale ▸ hne)
    · intro item hitem l hl
      obtain ⟨item', hitem', hid'⟩ := hlines l hl
      rw [← hid']
      exact hids item hitem item' hitem'
    · rw [hsale]
      exact hapart

/-- Two sales of one instant in either order. -/
theorem pushEvent_comm {e f : StockEvent} {events : List StockEvent} {s : PushState}
    (htied : Tied now e f) (h : Orderly base now (e :: f :: events) s.2) :
    SamePush base (pushEvent now storeId actor (pushEvent now storeId actor s e) f)
      (pushEvent now storeId actor (pushEvent now storeId actor s f) e) := by
  obtain ⟨x, y, rfl, rfl, hne, htie⟩ := htied
  have hxmem : StockEvent.sale x ∈ StockEvent.sale x :: StockEvent.sale y :: events :=
    List.mem_cons_self
  have hymem : StockEvent.sale y ∈ StockEvent.sale x :: StockEvent.sale y :: events :=
    List.mem_cons_of_mem _ List.mem_cons_self
  obtain ⟨hxsome, hxgiven⟩ := h.sales x hxmem
  obtain ⟨hysome, hygiven⟩ := h.sales y hymem
  obtain ⟨xId, hxid⟩ := Option.isSome_iff_exists.mp hxsome
  obtain ⟨yId, hyid⟩ := Option.isSome_iff_exists.mp hysome
  obtain ⟨hids, hlines⟩ := h.distinct x y hxmem hymem hne
  have hidsNe : xId ≠ yId := fun he => hids (by rw [hxid, hyid, he])
  obtain ⟨dx, hdx, hsx⟩ := @pushSale_eq now storeId actor x s
  obtain ⟨dy, hdy, hsy⟩ := @pushSale_eq now storeId actor y s
  have hnearY : Near storeId yId y s.2 dx := by
    refine near_of_becomes hxid hxgiven hidsNe.symm
      (fun item hitem item' hitem' => (hlines item' hitem' item hitem).symm) ?_ hdx
    intro item hitem id hid row hrow he
    exact h.apart y x hymem hxmem hne.symm htie.symm item hitem id hid row hrow (by rw [hxid, he])
  have hnearX : Near storeId xId x s.2 dy := by
    refine near_of_becomes hyid hygiven hidsNe hlines ?_ hdy
    intro item hitem id hid row hrow he
    exact h.apart x y hxmem hymem hne htie item hitem id hid row hrow (by rw [hyid, he])
  simp only [pushEvent]
  rw [hsx, hsy]
  obtain ⟨dxy, hdxy, hsxy⟩ := @pushSale_eq now storeId actor y
    (reported x s.1 (verdict now storeId actor x s.2), dx)
  obtain ⟨dyx, hdyx, hsyx⟩ := @pushSale_eq now storeId actor x
    (reported y s.1 (verdict now storeId actor y s.2), dy)
  rw [@verdict_congr storeId s.2 dx now yId actor y hyid hygiven hnearY] at hdxy hsxy
  rw [@verdict_congr storeId s.2 dy now xId actor x hxid hxgiven hnearX] at hdyx hsyx
  rw [hsxy, hsyx]
  obtain ⟨happlied, hrejected⟩ := reported_comm s.1 x y (verdict now storeId actor x s.2)
    (verdict now storeId actor y s.2)
  refine ⟨happlied, hrejected, Becomes.comm h.held ?_ hdx hdxy hdy hdyx⟩
  intro sx ex sy ey hvx hvy
  rw [(written_of_verdict hxid hxgiven hvx).1, (written_of_verdict hyid hygiven hvy).1]
  exact hidsNe

/-- Timelines that differ by swaps of sales of one instant do the same. -/
theorem foldl_timeline_same {events events' : List StockEvent}
    (hp : TiedPerm (Tied now) events events') {s t : PushState} (hst : SamePush base s t)
    (h : Orderly base now events s.2) :
    SamePush base (events.foldl (pushEvent now storeId actor) s)
      (events'.foldl (pushEvent now storeId actor) t) :=
  @TiedPerm.foldl _ (Tied now) PushState (pushEvent now storeId actor) (SamePush base)
    (fun events s => Orderly base now events s.2) (SamePush.refl base)
    (fun _ _ _ => SamePush.trans) (fun _ _ _ h => h.next)
    (fun _ _ _ _ hperm hsame h => h.of_same hperm hsame.rows)
    (fun _ _ _ _ h hst => pushEvent_same h hst) (fun _ _ _ _ htied h => pushEvent_comm htied h)
    _ _ hp s t hst h

end

/-- The stock rows of a push are told apart: sales, lines and movements each by
their identifiers, and movements by their instants as well. -/
structure ToldApart (request : PushRequest) : Prop where
  /-- Every sale has an identifier of its own. -/
  sales : (∀ x ∈ request.sales, x.id.isSome) ∧ (request.sales.map RecordSaleRequest.id).Nodup
  /-- So has every line, over all sales. -/
  lines : (∀ x ∈ request.sales, ∀ item ∈ x.items, item.id.isSome) ∧
    (request.sales.flatMap fun x => x.items.map SaleLineRequest.id).Nodup
  /-- And every movement. -/
  movements : (∀ m ∈ request.stockMovements, m.id.isSome) ∧
    (request.stockMovements.map RecordMovementRequest.id).Nodup
  /-- Everything is dated. -/
  dated : (∀ x ∈ request.sales, x.occurredAt.isSome) ∧
    ∀ m ∈ request.stockMovements, m.occurredAt.isSome
  /-- No two movements share an instant. -/
  instants : (request.stockMovements.map RecordMovementRequest.occurredAt).Nodup

/-- No sale sends the identifier of a line that is stored under another sale of
the push with its instant. -/
def LinesApart (request : PushRequest) (db : Db) : Prop :=
  ∀ x ∈ request.sales, ∀ y ∈ request.sales, x ≠ y → x.occurredAt = y.occurredAt →
    ∀ item ∈ x.items, ∀ id, item.id = some id → ∀ row, db.saleItems.find? id = some row →
      y.id ≠ some row.saleId

/-- Elements with keys of their own differ in them. -/
theorem ne_of_nodup_map {α β : Type} {f : α → β} {l : List α} (h : (l.map f).Nodup) :
    ∀ x ∈ l, ∀ y ∈ l, x ≠ y → f x ≠ f y :=
  fun _ hx _ hy hne he => hne (List.inj_on_of_nodup_map h hx hy he)

section

variable {now : Timestamp} {storeId : Uuid} {actor : Actor} {request : PushRequest} {db : Db}

/-- Two dated things of one instant have the same date. -/
theorem getD_eq_iff {a b : Option Timestamp} (ha : a.isSome) (hb : b.isSome) :
    a.getD now = b.getD now ↔ a = b := by
  obtain ⟨s, rfl⟩ := Option.isSome_iff_exists.mp ha
  obtain ⟨t, rfl⟩ := Option.isSome_iff_exists.mp hb
  simp

/-- The timeline of a push whose stock rows are told apart is orderly. -/
theorem orderly_timeline (h : ToldApart request)
    (hknown : ∀ m ∈ request.stockMovements, ∀ id, m.id = some id → Known db.stockMovements id)
    (happart : LinesApart request db) :
    Orderly db.stockMovements now (intoTimeline now request.sales request.stockMovements) db := by
  have hperm := timeline_perm now request.sales request.stockMovements
  have hsale : ∀ x, .sale x ∈ intoTimeline now request.sales request.stockMovements →
      x ∈ request.sales := by
    intro x hx
    simpa using hperm.mem_iff.mp hx
  have hmovement : ∀ m, .movement m ∈ intoTimeline now request.sales request.stockMovements →
      m ∈ request.stockMovements := by
    intro m hm
    simpa using hperm.mem_iff.mp hm
  refine ⟨hperm.nodup_iff.mpr ?_, fun x hx => ⟨h.sales.1 x (hsale x hx), h.lines.1 x (hsale x hx)⟩,
    ?_, ?_, ?_, fun _ hid => hid⟩
  · refine List.Nodup.append ?_ ?_ ?_
    · exact (List.Nodup.of_map _ h.sales.2).map fun _ _ he => StockEvent.sale.inj he
    · exact (List.Nodup.of_map _ h.movements.2).map fun _ _ he => StockEvent.movement.inj he
    · intro e he he'
      obtain ⟨x, -, rfl⟩ := List.mem_map.mp he
      obtain ⟨m, -, hm⟩ := List.mem_map.mp he'
      cases hm
  · intro x y hx hy hne
    refine ⟨ne_of_nodup_map h.sales.2 x (hsale x hx) y (hsale y hy) hne, ?_⟩
    intro item hitem item' hitem' he
    have hsymm : Std.Symm (Function.onFun List.Disjoint
        fun x : RecordSaleRequest => x.items.map SaleLineRequest.id) :=
      ⟨fun _ _ hd => List.Disjoint.symm hd⟩
    have hdisjoint := (List.nodup_flatMap.mp h.lines.2).2.forall (hsale x hx) (hsale y hy) hne
    exact hdisjoint (List.mem_map_of_mem hitem) (he ▸ List.mem_map_of_mem hitem')
  · intro m hm
    obtain ⟨id, hid⟩ := Option.isSome_iff_exists.mp (h.movements.1 m (hmovement m hm))
    exact ⟨id, hid, hknown m (hmovement m hm) id hid⟩
  · intro x y hx hy hne htie
    rw [getD_eq_iff (h.dated.1 x (hsale x hx)) (h.dated.1 y (hsale y hy))] at htie
    exact happart x (hsale x hx) y (hsale y hy) hne htie

/-- Saving products leaves lines and ledger alone. -/
theorem products_frame (products : List SaveProductRequest) (s : PushState) :
    (products.foldl (pushProduct now storeId actor) s).2.saleItems = s.2.saleItems ∧
      (products.foldl (pushProduct now storeId actor) s).2.stockMovements = s.2.stockMovements := by
  induction products generalizing s with
  | nil => exact ⟨rfl, rfl⟩
  | cons product rest ih =>
    have hone : (pushProduct now storeId actor s product).2.saleItems = s.2.saleItems ∧
        (pushProduct now storeId actor s product).2.stockMovements = s.2.stockMovements := by
      unfold pushProduct
      cases h : ProductService.save now storeId actor product s.2 with
      | error e => exact ⟨rfl, rfl⟩
      | ok saved =>
        cases effect_of_save h with
        | saved _ _ _ _ effect =>
          rw [effect]
          exact ⟨rfl, rfl⟩
    obtain ⟨hitems, hmovements⟩ := ih (pushProduct now storeId actor s product)
    exact ⟨hitems.trans hone.1, hmovements.trans hone.2⟩

/-- Rows of a kind applied one after another to the same rows. -/
theorem foldl_same {base : Table Uuid StockMovement} {γ : Type} {f : PushState → γ → PushState}
    (hf : ∀ s t x, SamePush base s t → SamePush base (f s x) (f t x)) (l : List γ)
    {s t : PushState} (h : SamePush base s t) : SamePush base (l.foldl f s) (l.foldl f t) := by
  induction l generalizing s t with
  | nil => exact h
  | cons x l ih => exact ih (hf s t x h)

/-- Without limits on figures, the order of the sales and of the movements in a
push does not matter. -/
theorem push_reordered_exact {sales : List RecordSaleRequest}
    {movements : List RecordMovementRequest} (h : ToldApart request)
    (hknown : ∀ m ∈ request.stockMovements, ∀ id, m.id = some id → Known db.stockMovements id)
    (happart : LinesApart request db) (hs : request.sales.Perm sales)
    (hm : request.stockMovements.Perm movements) :
    let reordered := push now storeId actor
      { request with sales := sales, stockMovements := movements } db
    (push now storeId actor request db).1.applied.Perm reordered.1.applied ∧
      (push now storeId actor request db).1.rejected.Perm reordered.1.rejected ∧
      Same db.stockMovements (push now storeId actor request db).2 reordered.2 := by
  have htied := @timeline_tied now _ _ _ _ hs hm fun x hx y hy hne he =>
    ne_of_nodup_map h.instants x hx y hy hne
      ((getD_eq_iff (h.dated.2 x hx) (h.dated.2 y hy)).mp he)
  -- the products come first, and change nothing the timeline's order rests on
  obtain ⟨hitems, hledger⟩ := @products_frame now storeId actor request.products (Outcome.empty, db)
  have horderly : Orderly db.stockMovements now
      (intoTimeline now request.sales request.stockMovements)
      (request.products.foldl (pushProduct now storeId actor) (Outcome.empty, db)).2 := by
    have hbefore := @orderly_timeline now request db h hknown happart
    refine ⟨hbefore.nodup, hbefore.sales, hbefore.distinct, hbefore.movements, ?_, ?_⟩
    · rw [hitems]
      exact hbefore.apart
    · intro id hid
      rw [hledger]
      exact hid
  have hevents := @foldl_timeline_same _ now storeId actor _ _ htied _ _
    (SamePush.refl db.stockMovements _) horderly
  have hexpenses := @foldl_same _ _ (pushExpense now storeId actor) (fun s t x hst => by
    rw [pushExpense_eq, pushExpense_eq]
    exact hst.pushRow ((alike_expense hst.rows x).map fun saved => some saved.1))
    request.expenses _ _ hevents
  have hwithdrawals := @foldl_same _ _ (pushWithdrawal now storeId actor) (fun s t x hst => by
    rw [pushWithdrawal_eq, pushWithdrawal_eq]
    exact hst.pushRow ((alike_withdrawal hst.rows x).map fun saved => some saved.1))
    request.withdrawals _ _ hexpenses
  have hdeletions := @foldl_same _ _ (pushDeletion now storeId actor) (fun s t x hst => by
    rw [pushDeletion_eq, pushDeletion_eq]
    exact hst.pushRow (alike_deletion hst.rows x)) request.deletions _ _ hwithdrawals
  exact ⟨hdeletions.applied, hdeletions.rejected, hdeletions.rows⟩

/-- The order of the sales and of the movements in a push does not matter: its
timeline is the events given, in the order they happened, and any other order
of the two lists applies and refuses the same rows and leaves the same rows, up
to the ledger identifiers the server draws, as long as in both orders the
decimals and the columns hold the figures. -/
theorem push_reordered {sales : List RecordSaleRequest} {movements : List RecordMovementRequest}
    {db : StoredDb} (h : ToldApart request)
    (hknown : ∀ m ∈ request.stockMovements, ∀ id, m.id = some id → Known db.1.stockMovements id)
    (happart : LinesApart request db.1) (hs : request.sales.Perm sales)
    (hm : request.stockMovements.Perm movements)
    (hheld : AllHeld now storeId actor (rows now request) db.1)
    (hheld' : AllHeld now storeId actor
      (rows now { request with sales := sales, stockMovements := movements }) db.1) :
    (∃ outcome db' outcome' db'',
      DecimalRange.push now storeId actor request db = some (outcome, db') ∧
      DecimalRange.push now storeId actor
        { request with sales := sales, stockMovements := movements } db = some (outcome', db'') ∧
      outcome.applied.Perm outcome'.applied ∧ outcome.rejected.Perm outcome'.rejected ∧
      Same db.1.stockMovements db'.1 db''.1) ∧
    (intoTimeline now request.sales request.stockMovements).Perm
      (request.sales.map StockEvent.sale ++ request.stockMovements.map StockEvent.movement) ∧
    (intoTimeline now request.sales request.stockMovements).Pairwise
      fun e f => e.occurredAt now ≤ f.occurredAt now := by
  refine ⟨?_, timeline_perm now request.sales request.stockMovements,
    timeline_pairwise now request.sales request.stockMovements⟩
  obtain ⟨happlied, hrejected, hrows⟩ :=
    @push_reordered_exact now storeId actor request db.1 sales movements h hknown happart hs hm
  obtain ⟨db', hpush, hdb'⟩ := DecimalRange.push_of_held hheld
  obtain ⟨db'', hpush', hdb''⟩ := DecimalRange.push_of_held hheld'
  refine ⟨_, db', _, db'', hpush, hpush', happlied, hrejected, ?_⟩
  rw [hdb', hdb'']
  exact hrows

end

/-- The store's owner. -/
def owner : Actor := ⟨⟨1⟩, "Ana", "phone", none⟩

/-- A quick sale with one line, at one instant. -/
def quickSale (id lineId : Uuid) : RecordSaleRequest :=
  ⟨some id, none, 0, none, some 7, [⟨some lineId, none, none, 1, some 25, none⟩]⟩

/-- A push of sales alone. -/
def salesOnly (sales : List RecordSaleRequest) : PushRequest := ⟨[], [], sales, [], [], []⟩

theorem toldApart_quickSales :
    ToldApart (salesOnly [quickSale ⟨21⟩ ⟨30⟩, quickSale ⟨20⟩ ⟨31⟩]) where
  sales := by decide
  lines := by decide
  movements := by decide
  dated := by decide
  instants := by decide

theorem push_reordered_quickSales : ∃ outcome db' outcome' db'',
    DecimalRange.push 8 ⟨4⟩ owner (salesOnly [quickSale ⟨21⟩ ⟨30⟩, quickSale ⟨20⟩ ⟨31⟩]) unused =
      some (outcome, db') ∧
    DecimalRange.push 8 ⟨4⟩ owner (salesOnly [quickSale ⟨20⟩ ⟨31⟩, quickSale ⟨21⟩ ⟨30⟩]) unused =
      some (outcome', db'') ∧
    outcome.applied.Perm outcome'.applied ∧ outcome.rejected.Perm outcome'.rejected ∧
    Same Db.empty.stockMovements db'.1 db''.1 :=
  (@push_reordered 8 ⟨4⟩ owner _ [quickSale ⟨20⟩ ⟨31⟩, quickSale ⟨21⟩ ⟨30⟩] [] unused
    toldApart_quickSales (fun _ hm => (by cases hm))
    (fun _ _ _ _ _ _ _ _ _ _ _ hrow => (by cases hrow)) (List.Perm.swap _ _ _)
    (List.Perm.refl _) (by decide +kernel) (by decide +kernel)).1

/-- A sale with one line is stored. -/
def soldBefore : StoredDb :=
  ((DecimalRange.push 6 ⟨4⟩ owner (salesOnly [quickSale ⟨20⟩ ⟨30⟩]) unused).map Prod.snd).getD
    unused

/-- What a push refuses. -/
def refusals (request : PushRequest) (db : StoredDb) : Option (List RejectedRow) :=
  (DecimalRange.push 8 ⟨4⟩ owner request db).map fun answer => answer.1.rejected

/-- A push that gives a stored line's identifier to a new sale of the instant
refuses that sale, unless the sale that had it comes first. -/
theorem moved_line_depends_on_order :
    (salesOnly [quickSale ⟨21⟩ ⟨30⟩, quickSale ⟨20⟩ ⟨31⟩]).Valid ∧
      ToldApart (salesOnly [quickSale ⟨21⟩ ⟨30⟩, quickSale ⟨20⟩ ⟨31⟩]) ∧
      (refusals (salesOnly [quickSale ⟨21⟩ ⟨30⟩, quickSale ⟨20⟩ ⟨31⟩]) soldBefore).map
          List.length = some 1 ∧
      refusals (salesOnly [quickSale ⟨20⟩ ⟨31⟩, quickSale ⟨21⟩ ⟨30⟩]) soldBefore = some [] :=
  ⟨by decide +kernel, toldApart_quickSales, by decide +kernel, by decide +kernel⟩

end Kitaza.PushOrder
