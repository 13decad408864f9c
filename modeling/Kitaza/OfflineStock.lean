import Kitaza.ArrivalTotals
import Kitaza.DecimalRange

/-!
# Stock and the order in which phones come online

Inside one push, sales and stock movements are replayed in the order they
happened; the pushes themselves are applied in the order they arrive. A
count sets the stock to what is on the server at that moment, so a sale
made before a count and pushed after it is deducted from the count again.
-/

namespace Kitaza.OfflineStock

open KeyedTable Primitives Access Schema Payloads SaleRepository SaleService SaleEffects
open InventoryService SyncPush ArrivalTotals
open DecimalRange (StoredDb)

/-- What an event does to the stock of a product when it happens. -/
def effectOn (productId : Uuid) : StockEvent → Effect Quantity
  | .sale request => .change (-soldIn request.items productId)
  | .movement request =>
    if request.productId = productId then
      match stockEffect (toLowercase (trim request.movement))
        (quantityFromF64 request.quantity) with
      | .ok (_, .change delta) => .change delta
      | .ok (_, .setTo counted) => .setTo counted
      | .error _ => .change 0
    else .change 0

/-- The identifiers of the lines of a sale that name a product. -/
def linesOn (items : List SaleLineRequest) (productId : Uuid) : Finset Uuid :=
  ((items.filter fun item => item.productId = some productId).filterMap
    SaleLineRequest.id).toFinset

/-- What recording a sale again gives back of a product: the quantity of the
line that the restoring update picks. -/
def joinedIn (joins : JoinRule) (now : Timestamp) (items : List SaleLineRequest)
    (productId : Uuid) : Quantity :=
  ((items.find? fun item => item.productId = some productId ∧
    item.id = some (joins.pick now (linesOn items productId))).map fun item =>
      quantityFromF64 item.quantity).getD 0

/-- What a copy of an event does to the stock of a product: a sale is
undone and taken again, a movement is known already. -/
def againOn (joins : JoinRule) (now : Timestamp) (productId : Uuid) : StockEvent → Quantity
  | .sale request => joinedIn joins now request.items productId - soldIn request.items productId
  | .movement _ => 0

/-- One push as it arrives. -/
structure Upload where
  /-- The server's clock. -/
  now : Timestamp
  /-- Who pushes. -/
  actor : Actor
  /-- What is pushed. -/
  request : PushRequest

/-- The events of a push in the order the server applies them. -/
def Upload.timeline (u : Upload) : List StockEvent :=
  intoTimeline u.now u.request.sales u.request.stockMovements

/-- The events of a push, each with what it does to the stock of a product if
it has arrived before. -/
def Upload.timelineOn (u : Upload) (joins : JoinRule) (productId : Uuid) :
    List (StockEvent × Quantity) :=
  u.timeline.map fun e => (e, againOn joins u.now productId e)

/-- The events of all pushes in the order the server applies them. -/
def arrivals (joins : JoinRule) (productId : Uuid) (uploads : List Upload) :
    List (StockEvent × Quantity) :=
  uploads.flatMap fun u => u.timelineOn joins productId

/-- The database after the pushes, if the server answers each. -/
def receive (storeId : Uuid) (uploads : List Upload) (db : StoredDb) : Option StoredDb :=
  uploads.foldlM (fun db u => (DecimalRange.push u.now storeId u.actor u.request db).map Prod.snd) db

/-- The same with figures that nothing bounds. -/
def receiveExact (storeId : Uuid) (uploads : List Upload) (db : Db) : Db :=
  uploads.foldl (fun db u => (push u.now storeId u.actor u.request db).2) db

/-- The decimals and the columns hold every figure of the pushes, in the
databases they meet. -/
def AllHeld (storeId : Uuid) : List Upload → Db → Prop
  | [], _ => True
  | u :: rest, db =>
    DecimalRange.AllHeld u.now storeId u.actor (rows u.now u.request) db ∧
      AllHeld storeId rest (push u.now storeId u.actor u.request db).2

/-- The time of an event, where the device sent one. -/
def happenedAt : StockEvent → Option Timestamp
  | .sale request => request.occurredAt
  | .movement request => request.occurredAt

/-- Whether the figures of pushes are held, push by push. -/
def AllHeld.decide (storeId : Uuid) : (uploads : List Upload) → (db : Db) →
    Decidable (AllHeld storeId uploads db)
  | [], _ => .isTrue trivial
  | u :: rest, db =>
    have := AllHeld.decide storeId rest (push u.now storeId u.actor u.request db).2
    inferInstanceAs (Decidable (DecimalRange.AllHeld u.now storeId u.actor (rows u.now u.request)
      db ∧ AllHeld storeId rest _))

instance (storeId : Uuid) (uploads : List Upload) (db : Db) :
    Decidable (AllHeld storeId uploads db) := AllHeld.decide storeId uploads db

/-- An event the server takes: it is new, its figures pass the service, and
its products are listed. -/
def Acceptable (storeId : Uuid) (db : Db) : StockEvent → Prop
  | .sale request =>
    (∃ id, request.id = some id ∧ db.sales.find? id = none) ∧
      (∃ method, normalisePaymentMethod request.paymentMethod = .ok method) ∧
      (request.items.map SaleLineRequest.id).Nodup ∧
      ∀ item ∈ request.items, Resolvable storeId db item ∧
        ∃ id, item.id = some id ∧ db.saleItems.find? id = none
  | .movement request =>
    (∃ id, request.id = some id ∧ id.drawnByServer = false ∧ db.stockMovements.find? id = none) ∧
      (ProductService.find storeId request.productId db).isSome ∧
      ∃ kind effect, stockEffect (toLowercase (trim request.movement))
          (quantityFromF64 request.quantity) = .ok (kind, effect) ∧
        (kind = .adjustment ∨ quantityFromF64 request.quantity ≠ 0)

/-- A finite set of events in the order they happened, for products already
on the server, and the pushes they arrive with. -/
structure Scenario (storeId : Uuid) (db : Db) (events : List StockEvent)
    (uploads : List Upload) : Prop where
  /-- Every event carries its time. -/
  dated : ∀ e ∈ events, (happenedAt e).isSome
  /-- They are listed by it, and no two share one. -/
  ordered : events.Pairwise fun a b => a.occurredAt 0 < b.occurredAt 0
  /-- The server takes each of them. -/
  acceptable : ∀ e ∈ events, Acceptable storeId db e
  /-- No two sales share an identifier. -/
  sale_ids : ∀ r r', .sale r ∈ events → .sale r' ∈ events → r.id = r'.id → r = r'
  /-- No two movements share an identifier. -/
  movement_ids : ∀ r r', .movement r ∈ events → .movement r' ∈ events → r.id = r'.id → r = r'
  /-- No two sales share the identifier of a line. -/
  line_ids : ∀ r r', .sale r ∈ events → .sale r' ∈ events → ∀ item ∈ r.items, ∀ item' ∈ r'.items,
    item.id = item'.id → r = r'
  /-- The pushes carry these events and nothing else. -/
  only : ∀ u ∈ uploads, u.request.products = [] ∧ u.request.expenses = [] ∧
    u.request.withdrawals = [] ∧ u.request.deletions = [] ∧ ∀ e ∈ u.timeline, e ∈ events
  /-- Every event arrives. -/
  arrive : ∀ e ∈ events, ∃ u ∈ uploads, e ∈ u.timeline
  /-- Movements come from those who may record them. -/
  managers : ∀ u ∈ uploads, ∀ r, .movement r ∈ u.timeline → u.actor.can .manageProducts = true
  /-- A sale comes from one person, however often. -/
  senders : ∀ u ∈ uploads, ∀ v ∈ uploads, ∀ r, .sale r ∈ u.timeline → .sale r ∈ v.timeline →
    u.actor.staffId = v.actor.staffId
  /-- Their figures fit. -/
  held : AllHeld storeId uploads db

/-- What one event of a push leaves. -/
def receiveEvent (storeId : Uuid) (u : Upload) (db : Db) (e : StockEvent) : Db :=
  match (PushRow.ofEvent e).apply u.now storeId u.actor db with
  | .ok r => r.2
  | .error _ => db

/-- A push of events alone applies them one by one. -/
theorem push_timeline {storeId : Uuid} {u : Upload} (hproducts : u.request.products = [])
    (hexpenses : u.request.expenses = []) (hwithdrawals : u.request.withdrawals = [])
    (hdeletions : u.request.deletions = []) (db : Db) :
    (push u.now storeId u.actor u.request db).2 =
      u.timeline.foldl (receiveEvent storeId u) db := by
  have hrow : ∀ (s : PushState) (e : StockEvent),
      (pushRow u.now storeId u.actor s (.ofEvent e)).2 = receiveEvent storeId u s.2 e := by
    intro s e
    unfold pushRow receiveEvent
    cases (PushRow.ofEvent e).apply u.now storeId u.actor s.2 <;> rfl
  have hfold : ∀ (events : List StockEvent) (s : PushState),
      (pushRows u.now storeId u.actor s (events.map .ofEvent)).2 =
        events.foldl (receiveEvent storeId u) s.2 := by
    intro events
    induction events with
    | nil => exact fun _ => rfl
    | cons e rest ih =>
      intro s
      rw [List.map_cons, pushRows, List.foldl_cons, ← pushRows, ih, hrow]
      rfl
  rw [push_eq_pushRows]
  simp only [rows, hproducts, hexpenses, hwithdrawals, hdeletions, List.map_nil, List.nil_append,
    List.append_nil]
  exact hfold _ _

/-- What the server holds after the events of `seen` have arrived: the
products at the given stock, those sales and movements, and no other. -/
structure Tracked (storeId : Uuid) (start : Db) (events : List StockEvent) (uploads : List Upload)
    (seen : List StockEvent) (stock : Uuid → Quantity) (db : Db) : Prop where
  /-- Only the given events arrive. -/
  known : ∀ e ∈ seen, e ∈ events
  /-- The products stay listed, at that stock. -/
  products : ∀ id p, ProductService.find storeId id start = some p →
    ∃ p', ProductService.find storeId id db = some p' ∧ p'.stockQuantity = stock id
  /-- A sale that has not arrived is unknown. -/
  sale_new : ∀ r id, .sale r ∈ events → .sale r ∉ seen → r.id = some id →
    db.sales.find? id = none ∧
      ∀ item ∈ r.items, ∀ k, item.id = some k → db.saleItems.find? k = none
  /-- One that has arrived is live, and known as its sender's. -/
  sale_seen : ∀ r id, .sale r ∈ seen → r.id = some id →
    ∃ s, db.sales.find? id = some s ∧ s.storeId = storeId ∧ s.deletedAt = none ∧
      ∀ u ∈ uploads, .sale r ∈ u.timeline → s.recordedByStaffId = u.actor.staffId
  /-- Its lines are stored. -/
  lines_stored : ∀ r id, .sale r ∈ seen → r.id = some id → ∀ item ∈ r.items, ∀ k,
    item.id = some k → ∃ row, db.saleItems.find? k = some row ∧ row.saleId = id
  /-- And no others are. -/
  lines_asked : ∀ r id, .sale r ∈ seen → r.id = some id → ∀ k row,
    db.saleItems.find? k = some row → row.saleId = id → ∃ item ∈ r.items, item.id = some k ∧
      row.productId = item.productId ∧ row.quantity = quantityFromF64 item.quantity
  /-- A movement is known exactly when it has arrived. -/
  movements : ∀ r id, .movement r ∈ events → r.id = some id →
    ((db.stockMovements.find? id).isSome = true ↔ .movement r ∈ seen)
  /-- The engine is the same. -/
  joins : db.joins = start.joins

section

variable {storeId : Uuid} {start db : Db} {events : List StockEvent} {uploads : List Upload}
  {seen : List StockEvent} {stock : Uuid → Quantity} {u : Upload}

/-- The stock of every product after an event. -/
def stockAfter (joins : JoinRule) (now : Timestamp) (seen : List StockEvent)
    (stock : Uuid → Quantity) (e : StockEvent) (id : Uuid) : Quantity :=
  if e ∈ seen then stock id + againOn joins now id e else (effectOn id e).apply (stock id)

/-- The log does not matter. -/
theorem Tracked.of_log (h : Tracked storeId start events uploads seen stock db)
    (log : List AuditEvent) :
    Tracked storeId start events uploads seen stock { db with auditEvents := log } :=
  ⟨h.known, h.products, h.sale_new, h.sale_seen, h.lines_stored, h.lines_asked, h.movements,
    h.joins⟩

/-- Only which events have arrived matters, not in what order. -/
theorem Tracked.congr (ht : Tracked storeId start events uploads seen stock db)
    {seen' : List StockEvent} {stock' : Uuid → Quantity} (hs : ∀ e, e ∈ seen' ↔ e ∈ seen)
    (hst : ∀ id, stock' id = stock id) :
    Tracked storeId start events uploads seen' stock' db where
  known e he := ht.known e ((hs e).mp he)
  products id p hp := by
    rw [hst]
    exact ht.products id p hp
  sale_new r id hr hnew := ht.sale_new r id hr fun hc => hnew ((hs _).mpr hc)
  sale_seen r id hr := ht.sale_seen r id ((hs _).mp hr)
  lines_stored r id hr := ht.lines_stored r id ((hs _).mp hr)
  lines_asked r id hr := ht.lines_asked r id ((hs _).mp hr)
  movements r id hr hid := by
    rw [hs]
    exact ht.movements r id hr hid
  joins := ht.joins

/-- A movement arrives. -/
theorem Tracked.movement (ht : Tracked storeId start events uploads seen stock db)
    (h : Scenario storeId start events uploads) (hu : u ∈ uploads)
    {request : RecordMovementRequest} (he : .movement request ∈ u.timeline) :
    Tracked storeId start events uploads (seen ++ [.movement request])
      (stockAfter start.joins u.now seen stock (.movement request))
      (receiveEvent storeId u db (.movement request)) := by
  obtain ⟨-, -, -, -, hsub⟩ := h.only u hu
  have hmem := hsub _ he
  obtain ⟨⟨id, hid, hclient, hfree⟩, hlisted, kind, effect, heffect, hq⟩ := h.acceptable _ hmem
  obtain ⟨p₀, hp₀⟩ := Option.isSome_iff_exists.mp hlisted
  obtain ⟨p, hp, hstock⟩ := ht.products _ _ hp₀
  have hcan := h.managers u hu request he
  have hentry : (entryOf u.now storeId u.actor request kind effect db).movementId = id := by
    simp [entryOf, hid]
  have happly : ∀ applied db₁, recordMovement u.now
      (entryOf u.now storeId u.actor request kind effect db) db = .ok (applied, db₁) →
      ∃ log, receiveEvent storeId u db (.movement request) = { db₁ with auditEvents := log } := by
    intro applied db₁ hrec
    obtain ⟨log, hlog⟩ := record_of_entry hcan heffect hq hrec
    exact ⟨log, by simp only [receiveEvent, PushRow.ofEvent, PushRow.apply, hlog]; rfl⟩
  by_cases hseen : .movement request ∈ seen
  · -- the server has it: nothing changes
    have hknown := (ht.movements request id hmem hid).mpr hseen
    obtain ⟨log, hlog⟩ := happly none db
      (recordMovement_eq_ok.mpr ⟨p, hp, Or.inl ⟨by rw [hentry]; exact hknown, rfl, rfl⟩⟩)
    rw [hlog]
    apply (ht.of_log log).congr
    · intro e
      rw [List.mem_append, List.mem_singleton]
      exact ⟨fun hc => hc.elim (fun hc => hc) fun hc => hc ▸ hseen, Or.inl⟩
    · intro pid
      rw [stockAfter, if_pos hseen, againOn, add_zero]
  · have hunknown : db.stockMovements.find? id = none := by
      by_contra hne
      exact hseen ((ht.movements request id hmem hid).mp (Option.isSome_iff_ne_none.mpr hne))
    obtain ⟨log, hlog⟩ := happly _ _
      (recordMovement_eq_ok.mpr ⟨p, hp, Or.inr ⟨by rw [hentry]; exact hunknown, rfl, rfl⟩⟩)
    rw [hlog]
    apply Tracked.of_log
    rw [hentry]
    have hother : ∀ r, (.sale r : StockEvent) ∈ seen ++ [.movement request] ↔ .sale r ∈ seen := by
      intro r
      simp
    constructor
    · intro e he
      rcases List.mem_append.mp he with he | he
      · exact ht.known e he
      · rw [List.mem_singleton.mp he]
        exact hmem
    · intro pid q hq'
      obtain ⟨q', hfind, hst⟩ := ht.products pid q hq'
      by_cases hpid : pid = request.productId
      · subst hpid
        rw [hp] at hfind
        cases hfind
        refine ⟨movedProduct u.now (effect.delta p.stockQuantity)
          (entryOf u.now storeId u.actor request kind effect db).unitCost p, ?_, ?_⟩
        · obtain ⟨-, hs, hd⟩ := ProductService.find_eq_some.mp hp
          rw [ProductService.find_eq_some]
          exact ⟨Table.find?_put_self _ _ _, hs, hd⟩
        · rw [stockAfter, if_neg hseen, effectOn, if_pos rfl, heffect, ← hst]
          cases effect with
          | change delta => rfl
          | setTo counted =>
            change p.stockQuantity + (counted - p.stockQuantity) = counted
            ring
      · refine ⟨q', ?_, ?_⟩
        · obtain ⟨hf, hs, hd⟩ := ProductService.find_eq_some.mp hfind
          rw [ProductService.find_eq_some]
          exact ⟨(Table.find?_put_ne _ _ hpid).trans hf, hs, hd⟩
        · rw [stockAfter, if_neg hseen, effectOn, if_neg fun hc => hpid hc.symm, hst]
          exact (add_zero _).symm
    · exact fun r rid hr hnew hrid => ht.sale_new r rid hr (fun hc => hnew ((hother r).mpr hc)) hrid
    · exact fun r rid hr hrid => ht.sale_seen r rid ((hother r).mp hr) hrid
    · exact fun r rid hr hrid => ht.lines_stored r rid ((hother r).mp hr) hrid
    · exact fun r rid hr hrid => ht.lines_asked r rid ((hother r).mp hr) hrid
    · intro r rid hr hrid
      rw [List.mem_append, List.mem_singleton, StockEvent.movement.injEq]
      by_cases hsame : r = request
      · subst hsame
        rw [hid] at hrid
        cases hrid
        simp
      · have hne : rid ≠ id := by
          rintro rfl
          exact hsame (h.movement_ids r request hr hmem (hrid.trans hid.symm))
        rw [Table.find?_put_ne _ _ hne, ht.movements r rid hr hrid]
        simp [hsame]
    · exact ht.joins

/-- The identifiers of resolved lines are those asked for. -/
theorem map_id_of_resolves {items : List SaleLineRequest} {lines : List PreparedLine}
    (h : List.Forall₂ Resolves items lines) (hids : ∀ item ∈ items, ∃ id, item.id = some id) :
    lines.map (fun l => some l.id) = items.map SaleLineRequest.id := by
  induction h with
  | nil => rfl
  | @cons item line items lines hres _ ih =>
    obtain ⟨id, hid⟩ := hids item List.mem_cons_self
    rw [List.map_cons, List.map_cons, ih fun it hit => hids it (List.mem_cons_of_mem _ hit), hid,
      hres.id id hid]

/-- A resolved line is asked for by an item. -/
theorem exists_item_of_resolves {items : List SaleLineRequest} {lines : List PreparedLine}
    (h : List.Forall₂ Resolves items lines) {line : PreparedLine} (hl : line ∈ lines) :
    ∃ item ∈ items, Resolves item line := by
  induction h with
  | nil => cases hl
  | cons hres _ ih =>
    rcases List.mem_cons.mp hl with rfl | hl
    · exact ⟨_, List.mem_cons_self, hres⟩
    · obtain ⟨item, hitem, hr⟩ := ih hl
      exact ⟨item, List.mem_cons_of_mem _ hitem, hr⟩

/-- An item is resolved to a line. -/
theorem exists_line_of_resolves {items : List SaleLineRequest} {lines : List PreparedLine}
    (h : List.Forall₂ Resolves items lines) {item : SaleLineRequest} (hi : item ∈ items) :
    ∃ line ∈ lines, Resolves item line := by
  induction h with
  | nil => cases hi
  | cons hres _ ih =>
    rcases List.mem_cons.mp hi with rfl | hi
    · exact ⟨_, List.mem_cons_self, hres⟩
    · obtain ⟨line, hline, hr⟩ := ih hi
      exact ⟨line, List.mem_cons_of_mem _ hline, hr⟩

/-- The state a sale's lines are written over: only stock was given back,
and ledger rows were only marked. -/
structure Undone (storeId : Uuid) (returned : Uuid → Quantity) (db base : Db) : Prop where
  /-- The products, with what was given back. -/
  products : ∀ id p, ProductService.find storeId id db = some p →
    ∃ p', ProductService.find storeId id base = some p' ∧
      p'.stockQuantity = p.stockQuantity + returned id
  /-- The sales. -/
  sales : base.sales = db.sales
  /-- The lines. -/
  saleItems : base.saleItems = db.saleItems
  /-- The ledger's identifiers. -/
  movements : ∀ k, (base.stockMovements.find? k).isSome = (db.stockMovements.find? k).isSome
  /-- The engine. -/
  joins : base.joins = db.joins

section

variable {items : List SaleLineRequest} {lines : List PreparedLine} {now : Timestamp}
  {drawn : ℕ → Uuid} {sale : PreparedSale} {staffId : Option Uuid} {returned : Uuid → Quantity}
  {base db' : Db}

/-- Once a sale is written over such a state its own row is new, and the other
sales are as they were. -/
theorem Undone.written_sales (hbase : Undone storeId returned db base)
    (hwritten : LinesWritten now drawn sale lines 0 (readied now sale staffId base) db')
    {id : Uuid} (hid : sale.id = id) (k : Uuid) :
    db'.sales.find? k = if k = id then
      some (upsertedSale now sale staffId (db.sales.find? id)) else db.sales.find? k := by
  subst hid
  rw [hwritten.sales, ← hbase.sales]
  exact Table.find?_put _ _ _ _

/-- Its own lines are stored beside those of the other sales. -/
theorem Undone.written_saleItems (hbase : Undone storeId returned db base)
    (hwritten : LinesWritten now drawn sale lines 0 (readied now sale staffId base) db')
    {id : Uuid} (hid : sale.id = id) (k : Uuid) (row : SaleItem) :
    db'.saleItems.find? k = some row ↔
      (∃ l ∈ lines, l.id = k ∧ row = storedLine id l) ∨
        (db.saleItems.find? k = some row ∧ row.saleId ≠ id) := by
  subst hid
  rw [hwritten.saleItems, ← hbase.saleItems]
  apply or_congr_right
  change (Table.filter _ _).find? k = some row ↔ _
  rw [Table.find?_filter_eq_some, bne_iff_ne]
  rfl

/-- A product has what was given back, less what the lines take. -/
theorem Undone.written_stock (hbase : Undone storeId returned db base)
    (hwritten : LinesWritten now drawn sale lines 0 (readied now sale staffId base) db')
    (hstore : sale.storeId = storeId) (hlines : List.Forall₂ Resolves items lines) {pid : Uuid}
    {p : Product} (hp : ProductService.find storeId pid db = some p) :
    ∃ p', ProductService.find storeId pid db' = some p' ∧
      p'.stockQuantity = p.stockQuantity + returned pid - soldIn items pid := by
  obtain ⟨p', hp', hst'⟩ := hbase.products pid p hp
  obtain ⟨hf, hs, hd⟩ := ProductService.find_eq_some.mp hp'
  refine ⟨deducted now storeId lines pid p', ?_, ?_⟩
  · rw [ProductService.find_eq_some, hwritten.products, hstore, deducted_storeId,
      deducted_deletedAt]
    refine ⟨?_, hs, hd⟩
    change (base.products.find? pid).map _ = _
    rw [hf]
    rfl
  · rw [deducted_stockQuantity now lines pid hs, takenBy_of_resolves hlines, hst']

/-- The ledger has no new row under an identifier that a device drew. -/
theorem Undone.written_movements (hbase : Undone storeId returned db base)
    (hwritten : LinesWritten now (Uuid.newV4 db.stockMovements) sale lines 0
      (readied now sale staffId base) db') {rid : Uuid} (hclient : rid.drawnByServer = false) :
    (db'.stockMovements.find? rid).isSome = (db.stockMovements.find? rid).isSome := by
  rw [← hbase.movements, Bool.eq_iff_iff, Option.isSome_iff_exists, Option.isSome_iff_exists]
  constructor
  · rintro ⟨m, hm⟩
    rcases (hwritten.stockMovements rid m).mp hm with ⟨j, l, pid, -, -, hk, -⟩ | hold
    · -- the device drew it, the ledger row's is drawn here
      rw [hk, Uuid.newV4_drawnByServer] at hclient
      cases hclient
    · exact ⟨m, hold⟩
  · rintro ⟨m, hm⟩
    exact ⟨m, (hwritten.stockMovements rid m).mpr (Or.inr hm)⟩

end

/-- Writing a sale over such a state: its stock is taken, and it is known. -/
theorem Tracked.written (ht : Tracked storeId start events uploads seen stock db)
    (h : Scenario storeId start events uploads) {request : RecordSaleRequest} {id : Uuid}
    (hmem : .sale request ∈ events) (hid : request.id = some id) {lines : List PreparedLine}
    (hlines : List.Forall₂ Resolves request.items lines) {now : Timestamp} {method : String}
    {staffId : Option Uuid} {returned : Uuid → Quantity} {base db' : Db}
    (hbase : Undone storeId returned db base)
    (hrow : ∀ row, row = upsertedSale now (prepareSale now storeId id method request lines) staffId
        (db.sales.find? id) → row.storeId = storeId ∧ row.deletedAt = none ∧
          ∀ v ∈ uploads, .sale request ∈ v.timeline → row.recordedByStaffId = v.actor.staffId)
    (hwritten : LinesWritten now (Uuid.newV4 db.stockMovements)
      (prepareSale now storeId id method request lines) lines 0
      (readied now (prepareSale now storeId id method request lines) staffId base) db') :
    Tracked storeId start events uploads (seen ++ [.sale request])
      (fun pid => stock pid + returned pid - soldIn request.items pid) db' := by
  obtain ⟨-, -, -, hitems⟩ := h.acceptable _ hmem
  have hne : ∀ r rid, .sale r ∈ events → r.id = some rid → r ≠ request → rid ≠ id := by
    rintro r rid hr hrid hdiff rfl
    exact hdiff (h.sale_ids r request hr hmem (hrid.trans hid.symm))
  have hsub : ∀ r, (.sale r : StockEvent) ∈ seen ++ [.sale request] ↔
      .sale r ∈ seen ∨ r = request := by
    intro r
    rw [List.mem_append, List.mem_singleton, StockEvent.sale.injEq]
  have hown : (prepareSale now storeId id method request lines).id = id := rfl
  have hsales := hbase.written_sales hwritten hown
  have hstored := hbase.written_saleItems hwritten hown
  constructor
  · intro e he
    rcases List.mem_append.mp he with he | he
    · exact ht.known e he
    · rw [List.mem_singleton.mp he]
      exact hmem
  · intro pid q hq
    obtain ⟨p, hp, hst⟩ := ht.products pid q hq
    obtain ⟨p', hp', hst'⟩ := hbase.written_stock hwritten rfl hlines hp
    exact ⟨p', hp', by rw [hst', hst]⟩
  · intro r rid hr hnew hrid
    have hdiff : r ≠ request := fun he => hnew ((hsub r).mpr (Or.inr he))
    obtain ⟨hnone, hfree⟩ := ht.sale_new r rid hr (fun hc => hnew ((hsub r).mpr (Or.inl hc))) hrid
    refine ⟨by rw [hsales, if_neg (hne r rid hr hrid hdiff), hnone], ?_⟩
    intro item hitem k hk
    rw [Option.eq_none_iff_forall_ne_some]
    intro row hfound
    rcases (hstored k row).mp hfound with ⟨l, hl, hlk, -⟩ | ⟨hold, -⟩
    · obtain ⟨it, hit, hres⟩ := exists_item_of_resolves hlines hl
      obtain ⟨-, k', hk', -⟩ := hitems it hit
      have hkk : item.id = it.id := by rw [hk, hk', ← hres.id k' hk', hlk]
      exact hdiff (h.line_ids r request hr hmem item hitem it hit hkk)
    · rw [hfree item hitem k hk] at hold
      cases hold
  · intro r rid hr hrid
    by_cases hsame : r = request
    · subst hsame
      rw [hid] at hrid
      cases hrid
      exact ⟨_, by rw [hsales, if_pos rfl], hrow _ rfl⟩
    · have hold := ((hsub r).mp hr).resolve_right hsame
      rw [hsales, if_neg (hne r rid (ht.known _ hold) hrid hsame)]
      exact ht.sale_seen r rid hold hrid
  · intro r rid hr hrid item hitem k hk
    by_cases hsame : r = request
    · subst hsame
      rw [hid] at hrid
      cases hrid
      obtain ⟨line, hline, hres⟩ := exists_line_of_resolves hlines hitem
      exact ⟨storedLine id line, (hstored _ _).mpr (Or.inl ⟨line, hline, hres.id k hk, rfl⟩), rfl⟩
    · have hold := ((hsub r).mp hr).resolve_right hsame
      obtain ⟨row, hfound, hsale⟩ := ht.lines_stored r rid hold hrid item hitem k hk
      have hdiff := hne r rid (ht.known _ hold) hrid hsame
      exact ⟨row, (hstored k row).mpr (Or.inr ⟨hfound, hsale ▸ hdiff⟩), hsale⟩
  · intro r rid hr hrid k row hfound hsale
    by_cases hsame : r = request
    · subst hsame
      rw [hid] at hrid
      cases hrid
      rcases (hstored k row).mp hfound with ⟨l, hl, rfl, rfl⟩ | ⟨-, hother⟩
      · obtain ⟨item, hitem, hres⟩ := exists_item_of_resolves hlines hl
        obtain ⟨-, k', hk', -⟩ := hitems item hitem
        exact ⟨item, hitem, by rw [hk', hres.id k' hk'], hres.productId, hres.quantity⟩
      · exact absurd hsale hother
    · have hold := ((hsub r).mp hr).resolve_right hsame
      have hdiff := hne r rid (ht.known _ hold) hrid hsame
      rcases (hstored k row).mp hfound with ⟨l, -, -, rfl⟩ | ⟨hfound, -⟩
      · exact absurd hsale.symm hdiff
      · exact ht.lines_asked r rid hold hrid k row hfound hsale
  · intro r rid hr hrid
    obtain ⟨⟨rid', hrid', hclient, -⟩, -⟩ := h.acceptable _ hr
    rw [hrid] at hrid'
    cases hrid'
    rw [hbase.written_movements hwritten hclient, ht.movements r rid hr hrid]
    simp
  · exact hwritten.joins.trans (hbase.joins.trans ht.joins)

theorem mem_linesOn {items : List SaleLineRequest} {productId k : Uuid} :
    k ∈ linesOn items productId ↔
      ∃ item ∈ items, item.productId = some productId ∧ item.id = some k := by
  simp only [linesOn, List.mem_toFinset, List.mem_filterMap, List.mem_filter, decide_eq_true_eq,
    and_assoc]

/-- The stored row of an item keeps the product it asks for. -/
theorem Tracked.row_of_item (ht : Tracked storeId start events uploads seen stock db)
    {request : RecordSaleRequest} {id : Uuid} (hseen : .sale request ∈ seen)
    (hid : request.id = some id) (hn : (request.items.map SaleLineRequest.id).Nodup)
    {item : SaleLineRequest} (hitem : item ∈ request.items) {k : Uuid} (hk : item.id = some k) :
    ∃ row, db.saleItems.find? k = some row ∧ row.saleId = id ∧ row.productId = item.productId := by
  obtain ⟨row, hfound, hsale⟩ := ht.lines_stored request id hseen hid item hitem k hk
  obtain ⟨it, hit, hitk, hproduct, -⟩ := ht.lines_asked request id hseen hid k row hfound hsale
  have hsame : it = item := List.inj_on_of_nodup_map hn hit hitem (hitk.trans hk.symm)
  exact ⟨row, hfound, hsale, hsame ▸ hproduct⟩

/-- The stored lines of a sale that name a product are those it asked for. -/
theorem Tracked.ids_linesOn (ht : Tracked storeId start events uploads seen stock db)
    {request : RecordSaleRequest} {id : Uuid} (hseen : .sale request ∈ seen)
    (hid : request.id = some id) (hn : (request.items.map SaleLineRequest.id).Nodup)
    (productId : Uuid) :
    (db.saleItems.filter fun _ item =>
      item.saleId == id && item.productId == some productId).ids =
        linesOn request.items productId := by
  ext k
  simp only [Table.mem_ids_filter, Bool.and_eq_true, beq_iff_eq, mem_linesOn]
  constructor
  · rintro ⟨row, hfound, hsale, hproduct⟩
    obtain ⟨item, hitem, hk, hsame, -⟩ := ht.lines_asked request id hseen hid k row hfound hsale
    exact ⟨item, hitem, hsame.symm.trans hproduct, hk⟩
  · rintro ⟨item, hitem, hproduct, hk⟩
    obtain ⟨row, hfound, hsale, hsame⟩ := ht.row_of_item hseen hid hn hitem hk
    exact ⟨row, hfound, hsale, hsame.trans hproduct⟩

/-- What the restoring update gives back of a product is the quantity of the
sale's line that the engine picks. -/
theorem Tracked.joinedLine (ht : Tracked storeId start events uploads seen stock db)
    {request : RecordSaleRequest} {id : Uuid} (hseen : .sale request ∈ seen)
    (hid : request.id = some id) (hn : (request.items.map SaleLineRequest.id).Nodup)
    (now : Timestamp) (productId : Uuid) :
    ((SaleRepository.joinedLine db.joins now id productId db.saleItems).map
      SaleItem.quantity).getD 0 = joinedIn start.joins now request.items productId := by
  have hids := ht.ids_linesOn hseen hid hn productId
  have hpicked : SaleRepository.joinedLine db.joins now id productId db.saleItems =
      (db.saleItems.filter fun _ item =>
        item.saleId == id && item.productId == some productId).find?
          (start.joins.pick now (linesOn request.items productId)) := by
    rw [SaleRepository.joinedLine, Table.picked, hids, ht.joins]
  rw [hpicked]
  unfold joinedIn
  cases hfind : request.items.find? fun item => item.productId = some productId ∧
      item.id = some (start.joins.pick now (linesOn request.items productId)) with
  | none =>
    rw [List.find?_eq_none] at hfind
    have hnone : (db.saleItems.filter fun _ item =>
        item.saleId == id && item.productId == some productId).find?
          (start.joins.pick now (linesOn request.items productId)) = none := by
      rw [← Table.notMem_ids, hids, mem_linesOn]
      rintro ⟨item, hitem, hproduct, hk⟩
      exact hfind item hitem (by simp [hproduct, hk])
    rw [hnone]
    rfl
  | some item =>
    have hitem := List.mem_of_find?_eq_some hfind
    have hmatch := List.find?_some hfind
    rw [decide_eq_true_eq] at hmatch
    obtain ⟨row, hfound, hsale, hproduct⟩ := ht.row_of_item hseen hid hn hitem hmatch.2
    obtain ⟨it, hit, hitk, -, hquantity⟩ :=
      ht.lines_asked request id hseen hid _ row hfound hsale
    have hsame : it = item := List.inj_on_of_nodup_map hn hit hitem (hitk.trans hmatch.2.symm)
    have hrow : (db.saleItems.filter fun _ item =>
        item.saleId == id && item.productId == some productId).find?
          (start.joins.pick now (linesOn request.items productId)) = some row := by
      rw [Table.find?_filter_eq_some]
      exact ⟨hfound, by simp [hsale, hproduct, hmatch.1]⟩
    rw [hrow, Option.map_some, Option.map_some, Option.getD_some, Option.getD_some, hquantity, hsame]

/-- Undoing a sale that has arrived gives back its picked lines. -/
theorem Tracked.undone (ht : Tracked storeId start events uploads seen stock db)
    {request : RecordSaleRequest} {id : Uuid} (hseen : .sale request ∈ seen)
    (hid : request.id = some id) (hn : (request.items.map SaleLineRequest.id).Nodup)
    (now : Timestamp) :
    Undone storeId (joinedIn start.joins now request.items) db (undoSale now id storeId db) where
  products pid p hp := by
    obtain ⟨hf, hs, hd⟩ := ProductService.find_eq_some.mp hp
    refine ⟨restored db.joins now id storeId db.saleItems pid p, ?_, ?_⟩
    · rw [ProductService.find_eq_some, undoSale_products, hf, Option.map_some, restored_storeId,
        restored_deletedAt]
      exact ⟨rfl, hs, hd⟩
    · rw [restored_stockQuantity now fun _ _ => hs, ht.joinedLine hseen hid hn]
  sales := rfl
  saleItems := rfl
  movements k := by rw [undoSale_stockMovements, Option.isSome_map]
  joins := rfl

/-- Nothing to undo. -/
theorem Undone.refl (storeId : Uuid) (db : Db) : Undone storeId (fun _ => 0) db db :=
  ⟨fun _ p hp => ⟨p, hp, (add_zero _).symm⟩, rfl, rfl, fun _ => rfl, rfl⟩

/-- What could be resolved at the start still can. -/
theorem Tracked.resolvable (ht : Tracked storeId start events uploads seen stock db)
    {item : SaleLineRequest} (hstart : Resolvable storeId start item) :
    Resolvable storeId db item := by
  unfold Resolvable at hstart ⊢
  cases hp : item.productId with
  | none => rwa [hp] at hstart
  | some pid =>
    rw [hp] at hstart
    obtain ⟨p, hfind⟩ := Option.isSome_iff_exists.mp hstart
    obtain ⟨p', hp', -⟩ := ht.products pid p hfind
    exact Option.isSome_iff_exists.mpr ⟨p', hp'⟩

/-- A resolved line names a product that is known. -/
theorem product_known_of_resolves {items : List SaleLineRequest} {lines : List PreparedLine}
    (hlines : List.Forall₂ Resolves items lines)
    (hresolvable : ∀ item ∈ items, Resolvable storeId db item) {l : PreparedLine} (hl : l ∈ lines)
    {pid : Uuid} (hpid : l.productId = some pid) : (db.products.find? pid).isSome := by
  obtain ⟨item, hitem, hres⟩ := exists_item_of_resolves hlines hl
  have hitem' := hresolvable item hitem
  unfold Resolvable at hitem'
  rw [← hres.productId, hpid] at hitem'
  obtain ⟨p, hp⟩ := Option.isSome_iff_exists.mp hitem'
  rw [(ProductService.find_eq_some.mp hp).1]
  rfl

/-- A sale arrives. -/
theorem Tracked.sale (ht : Tracked storeId start events uploads seen stock db)
    (h : Scenario storeId start events uploads) (hu : u ∈ uploads) {request : RecordSaleRequest}
    (he : .sale request ∈ u.timeline) :
    Tracked storeId start events uploads (seen ++ [.sale request])
      (stockAfter start.joins u.now seen stock (.sale request))
      (receiveEvent storeId u db (.sale request)) := by
  obtain ⟨-, -, -, -, hsub⟩ := h.only u hu
  have hmem := hsub _ he
  obtain ⟨⟨id, hid, -⟩, ⟨method, hmethod⟩, hn, hitems⟩ := h.acceptable _ hmem
  have hids : ∀ item ∈ request.items, ∃ k, item.id = some k := fun item hitem =>
    ⟨_, (hitems item hitem).2.choose_spec.1⟩
  have hresolvable : ∀ item ∈ request.items, Resolvable storeId db item := fun item hitem =>
    ht.resolvable (hitems item hitem).1
  obtain ⟨lines, hok, hlines⟩ := @resolveLines_visible storeId u.actor db request.items hresolvable
  have hnodup : (lines.map PreparedLine.id).Nodup := by
    apply List.Nodup.of_map some
    rw [List.map_map]
    exact (map_id_of_resolves hlines hids) ▸ hn
  have hknown : ∀ l ∈ lines, ∀ pid, l.productId = some pid → (db.products.find? pid).isSome :=
    fun l hl pid hpid => product_known_of_resolves hlines hresolvable hl hpid
  have hlineid : ∀ l ∈ lines, ∃ item ∈ request.items, item.id = some l.id := by
    intro l hl
    obtain ⟨item, hitem, hres⟩ := exists_item_of_resolves hlines hl
    obtain ⟨k, hk⟩ := hids item hitem
    exact ⟨item, hitem, by rw [hk, hres.id k hk]⟩
  have hfinish : ∀ recorded db₁, SaleRepository.record u.now (Uuid.newV4 db.stockMovements)
      (prepareSale u.now storeId id method request lines) (recorderOf u.actor) db =
        .ok (recorded, db₁) →
      ∃ log, receiveEvent storeId u db (.sale request) = { db₁ with auditEvents := log } := by
    intro recorded db₁ hrec
    have hservice := service_record_ok hmethod hid hok hrec
    exact ⟨_, by simp only [receiveEvent, PushRow.ofEvent, PushRow.apply, hservice]; rfl⟩
  by_cases hseen : .sale request ∈ seen
  · obtain ⟨existing, hexisting, hstore, hlive, hsender⟩ := ht.sale_seen request id hseen hid
    have hundone := ht.undone hseen hid hn u.now
    have hmay : (recorderOf u.actor).isOwner = false →
        existing.recordedByStaffId = (recorderOf u.actor).staffId := fun _ => hsender u hu he
    obtain ⟨stored, db', hrec, hwritten⟩ := @record_again u.now (Uuid.newV4 db.stockMovements)
      (prepareSale u.now storeId id method request lines) (recorderOf u.actor) db existing hexisting
      hstore hlive hmay (Uuid.newV4_injective _)
      (Writable.of_readied u.now _ hnodup
        (by
          intro l hl item hitem
          obtain ⟨it, hit, hk⟩ := hlineid l hl
          obtain ⟨row, hfound, hsale⟩ := ht.lines_stored request id hseen hid it hit l.id hk
          change db.saleItems.find? l.id = some item at hitem
          rw [hfound] at hitem
          cases hitem
          exact hsale)
        (by
          intro l hl pid hpid
          rw [undoSale_products, Option.isSome_map]
          exact hknown l hl pid hpid))
      (Uuid.find?_newV4 _)
    obtain ⟨log, hlog⟩ := hfinish _ _ hrec
    rw [hlog]
    apply ((ht.written h hmem hid hlines hundone ?_ hwritten).of_log log).congr (fun _ => Iff.rfl)
    · intro pid
      rw [stockAfter, if_pos hseen, againOn]
      ring
    · rintro row rfl
      rw [hexisting]
      exact ⟨hstore, hlive, hsender⟩
  · obtain ⟨hunknown, hfree⟩ := ht.sale_new request id hmem hseen hid
    obtain ⟨stored, db', hrec, hwritten⟩ := @record_new u.now (Uuid.newV4 db.stockMovements)
      (prepareSale u.now storeId id method request lines) (recorderOf u.actor) db hunknown
      (Uuid.newV4_injective _)
      (Writable.of_readied u.now _ hnodup
        (by
          intro l hl item hitem
          obtain ⟨it, hit, hk⟩ := hlineid l hl
          rw [hfree it hit l.id hk] at hitem
          cases hitem)
        hknown)
      (Uuid.find?_newV4 _)
    obtain ⟨log, hlog⟩ := hfinish _ _ hrec
    rw [hlog]
    apply ((ht.written h hmem hid hlines (Undone.refl storeId db) ?_ hwritten).of_log log).congr
      (fun _ => Iff.rfl)
    · intro pid
      rw [stockAfter, if_neg hseen, effectOn, Effect.apply]
      ring
    · rintro row rfl
      rw [hunknown]
      exact ⟨rfl, rfl, fun v hv hvt => h.senders u hu v hv request he hvt⟩

/-- The events of one push arrive. -/
theorem Tracked.timeline (ht : Tracked storeId start events uploads seen stock db)
    (h : Scenario storeId start events uploads) (hu : u ∈ uploads) {arriving : List StockEvent}
    (hsub : ∀ e ∈ arriving, e ∈ u.timeline) :
    Tracked storeId start events uploads (seen ++ arriving)
      (fun id => inArrivalOrder (effectOn id) seen (stock id)
        (arriving.map fun e => (e, againOn start.joins u.now id e)))
      (arriving.foldl (receiveEvent storeId u) db) := by
  induction arriving generalizing seen stock db with
  | nil =>
    rw [List.append_nil]
    exact ht
  | cons e rest ih =>
    have hstep : Tracked storeId start events uploads (seen ++ [e])
        (stockAfter start.joins u.now seen stock e) (receiveEvent storeId u db e) := by
      have he := hsub e List.mem_cons_self
      cases e with
      | sale request => exact ht.sale h hu he
      | movement request => exact ht.movement h hu he
    have hrest := ih hstep fun x hx => hsub x (List.mem_cons_of_mem _ hx)
    rw [List.append_assoc] at hrest
    exact hrest

/-- All pushes arrive. -/
theorem Tracked.receive (ht : Tracked storeId start events uploads seen stock db)
    (h : Scenario storeId start events uploads) {arriving : List Upload}
    (hsub : ∀ u ∈ arriving, u ∈ uploads) :
    Tracked storeId start events uploads (seen ++ arriving.flatMap Upload.timeline)
      (fun id => inArrivalOrder (effectOn id) seen (stock id) (arrivals start.joins id arriving))
      (receiveExact storeId arriving db) := by
  induction arriving generalizing seen stock db with
  | nil =>
    rw [List.flatMap_nil, List.append_nil]
    exact ht
  | cons u rest ih =>
    have hu := hsub u List.mem_cons_self
    obtain ⟨h₁, h₂, h₃, h₄, -⟩ := h.only u hu
    have hstep := ht.timeline h hu fun e he => he
    rw [← push_timeline h₁ h₂ h₃ h₄] at hstep
    have hrest := ih hstep fun x hx => hsub x (List.mem_cons_of_mem _ hx)
    rw [List.append_assoc] at hrest
    apply hrest.congr
    · intro e
      rw [List.flatMap_cons]
    · intro id
      rw [arrivals, List.flatMap_cons, inArrivalOrder_append, Upload.timelineOn, List.map_map]
      have hfst : (Prod.fst ∘ fun e => (e, againOn start.joins u.now id e)) =
          fun e : StockEvent => e := rfl
      rw [hfst, List.map_id']
      rfl

/-- Pushes whose figures fit do what exact arithmetic would. -/
theorem receive_of_held {arriving : List Upload} {db : StoredDb}
    (h : AllHeld storeId arriving db.1) :
    ∃ db', receive storeId arriving db = some db' ∧ db'.1 = receiveExact storeId arriving db.1 := by
  induction arriving generalizing db with
  | nil => exact ⟨db, rfl, rfl⟩
  | cons u rest ih =>
    obtain ⟨db₁, hpush, hdb₁⟩ := DecimalRange.push_of_held h.1
    obtain ⟨db', hrest, hdb'⟩ := ih
      (by rw [hdb₁]; exact h.2)
    refine ⟨db', ?_, ?_⟩
    · rw [receive, List.foldlM_cons, hpush]
      exact hrest
    · rw [hdb', hdb₁]
      rfl

/-- Before anything arrives. -/
theorem Scenario.tracked (h : Scenario storeId start events uploads) :
    Tracked storeId start events uploads []
      (fun id => ((start.products.find? id).map Product.stockQuantity).getD 0) start where
  known e he := absurd he List.not_mem_nil
  products id p hp := ⟨p, hp, by rw [(ProductService.find_eq_some.mp hp).1]; rfl⟩
  sale_new r id hr _ hid := by
    obtain ⟨⟨id', hid', hnone⟩, -, -, hitems⟩ := h.acceptable _ hr
    rw [hid] at hid'
    cases hid'
    refine ⟨hnone, fun item hitem k hk => ?_⟩
    obtain ⟨-, k', hk', hfree⟩ := hitems item hitem
    rw [hk] at hk'
    cases hk'
    exact hfree
  sale_seen _ _ hr := absurd hr List.not_mem_nil
  lines_stored _ _ hr := absurd hr List.not_mem_nil
  lines_asked _ _ hr := absurd hr List.not_mem_nil
  movements r id hr hid := by
    obtain ⟨⟨id', hid', -, hnone⟩, -⟩ := h.acceptable _ hr
    rw [hid] at hid'
    cases hid'
    simp [hnone]
  joins := rfl

end

/-- However sales and movements are split into pushes and whenever these
arrive, a product's stock is that of its events in the order they happened
exactly when what the arrivals misplaced around the last counts cancels. -/
theorem stock_eq_iff_balanced {storeId : Uuid} {start : StoredDb} {events : List StockEvent}
    {uploads : List Upload} (h : Scenario storeId start.1 events uploads) {productId : Uuid}
    {p : Product} (hp : ProductService.find storeId productId start.1 = some p) :
    ((receive storeId uploads start).bind fun db =>
        (db.1.products.find? productId).map Product.stockQuantity) =
        some (inTimeOrder (effectOn productId) p.stockQuantity events) ↔
      Balanced (effectOn productId) events (arrivals start.1.joins productId uploads) := by
  have hn : events.Nodup := by
    apply h.ordered.imp
    rintro a _ hlt rfl
    exact lt_irrefl _ hlt
  have hsub : ∀ a ∈ arrivals start.1.joins productId uploads, a.1 ∈ events := by
    intro a ha
    obtain ⟨u, hu, hau⟩ := List.mem_flatMap.mp ha
    obtain ⟨e, he, rfl⟩ := List.mem_map.mp hau
    exact (h.only u hu).2.2.2.2 e he
  have harrive : ∀ e ∈ events,
      e ∈ (arrivals start.1.joins productId uploads).map Prod.fst := by
    intro e he
    obtain ⟨u, hu, heu⟩ := h.arrive e he
    exact List.mem_map.mpr ⟨_, List.mem_flatMap.mpr ⟨u, hu, List.mem_map_of_mem heu⟩, rfl⟩
  obtain ⟨db', hreceive, hdb'⟩ := receive_of_held h.held
  obtain ⟨p', hp', hstock⟩ := (h.tracked.receive h fun u hu => hu).products productId p hp
  have hstart : ((start.1.products.find? productId).map Product.stockQuantity).getD 0 =
      p.stockQuantity := by
    rw [(ProductService.find_eq_some.mp hp).1]
    rfl
  rw [hreceive, Option.bind_some, hdb', (ProductService.find_eq_some.mp hp').1, Option.map_some,
    Option.some.injEq, hstock, hstart]
  exact inArrivalOrder_eq_inTimeOrder_iff _ hn _ hsub harrive

/-- A product with ten units on the shelf. -/
def rice : Product := ⟨⟨4⟩, "Rice", none, "kg", 40, 50, 10, 0, true, 1, none⟩

/-- The store that sells it. -/
def riceShelf : StoredDb :=
  ⟨{ Db.empty with products := Table.empty.put ⟨10⟩ rice }, by decide +kernel⟩

/-- Two units are sold, and a little later eight are counted. -/
def twoSold : RecordSaleRequest :=
  ⟨some ⟨20⟩, none, 0, none, some 100, [⟨some ⟨30⟩, some ⟨10⟩, none, 2, some 50, some 40⟩]⟩

/-- The count. -/
def eightCounted : RecordMovementRequest := ⟨some ⟨40⟩, ⟨10⟩, "adjustment", 8, 0, none, some 200⟩

/-- The phone that sold. -/
def sellingPhone : Upload :=
  ⟨300, ⟨⟨2⟩, "Ana", "Phone A", none⟩, ⟨[], [], [twoSold], [], [], []⟩⟩

/-- The phone that counted. -/
def countingPhone : Upload :=
  ⟨400, ⟨⟨2⟩, "Ana", "Phone B", none⟩, ⟨[], [eightCounted], [], [], [], []⟩⟩

/-- The two pushes, in either order. -/
theorem riceShelf_scenario {uploads : List Upload}
    (h : ∀ u, u ∈ uploads ↔ u = sellingPhone ∨ u = countingPhone)
    (hheld : AllHeld ⟨4⟩ uploads riceShelf.1) :
    Scenario ⟨4⟩ riceShelf.1 [.sale twoSold, .movement eightCounted] uploads where
  dated := by decide
  ordered := by decide
  acceptable e he := by
    have hlisted : (ProductService.find ⟨4⟩ ⟨10⟩ riceShelf.1).isSome := by decide +kernel
    rcases List.mem_cons.mp he with rfl | he
    · refine ⟨⟨⟨20⟩, rfl, rfl⟩, ⟨"cash", by decide +kernel⟩, by decide, ?_⟩
      intro item hitem
      rw [List.mem_singleton.mp hitem]
      exact ⟨hlisted, ⟨30⟩, rfl, rfl⟩
    · rw [List.mem_singleton.mp he]
      exact ⟨⟨⟨40⟩, rfl, rfl, rfl⟩, hlisted, .adjustment, .setTo 8, by decide +kernel, Or.inl rfl⟩
  sale_ids := by
    intro r r' hr hr' _
    simp only [List.mem_cons, StockEvent.sale.injEq, reduceCtorEq, List.not_mem_nil,
      or_false] at hr hr'
    rw [hr, hr']
  movement_ids := by
    intro r r' hr hr' _
    simp only [List.mem_cons, StockEvent.movement.injEq, reduceCtorEq, List.not_mem_nil,
      or_false, false_or] at hr hr'
    rw [hr, hr']
  line_ids := by
    intro r r' hr hr' _ _ _ _ _
    simp only [List.mem_cons, StockEvent.sale.injEq, reduceCtorEq, List.not_mem_nil,
      or_false] at hr hr'
    rw [hr, hr']
  only u hu := by
    rcases (h u).mp hu with rfl | rfl
    · exact ⟨rfl, rfl, rfl, rfl, by decide⟩
    · exact ⟨rfl, rfl, rfl, rfl, by decide⟩
  arrive e he := by
    rcases List.mem_cons.mp he with rfl | he
    · exact ⟨sellingPhone, (h _).mpr (Or.inl rfl), by decide⟩
    · rw [List.mem_singleton.mp he]
      exact ⟨countingPhone, (h _).mpr (Or.inr rfl), by decide⟩
  managers u hu r _ := by
    rcases (h u).mp hu with rfl | rfl <;> rfl
  senders u hu v hv r _ _ := by
    rcases (h u).mp hu with rfl | rfl <;> rcases (h v).mp hv with rfl | rfl <;> rfl
  held := hheld

/-- The sale arrives first: nothing was misplaced. -/
theorem stock_eq_iff_balanced_countLast :
    Balanced (effectOn ⟨10⟩) [.sale twoSold, .movement eightCounted]
      (arrivals riceShelf.1.joins ⟨10⟩ [sellingPhone, countingPhone]) :=
  (stock_eq_iff_balanced
    (riceShelf_scenario (by intro u; rw [List.mem_cons, List.mem_singleton]) (by decide +kernel))
    (show ProductService.find ⟨4⟩ ⟨10⟩ riceShelf.1 = some rice from rfl)).mp (by decide +kernel)

/-- The count arrives first: the sale it already covers is deducted again,
and the server holds six where eight are on the shelf. -/
theorem sale_pushed_after_count_is_deducted_twice :
    Scenario ⟨4⟩ riceShelf.1 [.sale twoSold, .movement eightCounted]
        [countingPhone, sellingPhone] ∧
      ((receive ⟨4⟩ [countingPhone, sellingPhone] riceShelf).bind fun db =>
        (db.1.products.find? ⟨10⟩).map Product.stockQuantity) = some 6 ∧
      inTimeOrder (effectOn ⟨10⟩) 10 [.sale twoSold, .movement eightCounted] = 8 := by
  refine ⟨riceShelf_scenario ?_ (by decide +kernel), by decide +kernel, by decide +kernel⟩
  intro u
  rw [List.mem_cons, List.mem_singleton, or_comm]

end Kitaza.OfflineStock
