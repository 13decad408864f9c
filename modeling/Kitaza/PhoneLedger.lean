import Kitaza.PhoneDatabase

/-!
# The stock ledger on the phone

Each repository call is one transaction, except that a save reads the
product before its transaction and writes the count it found back with the
whole row. Between the two anything else may commit. A void gives the
lines' stock back whether or not the sale was live.

The count of every product is the balance of its ledger: its movements,
less the lines of sales that are not voided. Where every sum it writes is a
double, a transaction keeps it exactly when it writes the count that is stored,
and undoes what is live.
-/

namespace Kitaza.PhoneLedger

open KeyedTable Primitives FloatRounding Rounding SyncQueue PhoneDatabase

/-- The phone between transactions: its tables, and the saves that have read
their product and not yet written it. -/
structure Phone where
  /-- The tables. -/
  db : PhoneDb
  /-- The saves under way. -/
  saves : List PendingSave

/-- A phone nothing was written on. -/
def Phone.fresh : Phone := ⟨PhoneDb.empty, []⟩

/-- What can happen next on the phone. -/
inductive Action where
  /-- A save reads its product. -/
  | beginSave (args : SaveArgs) (drawn movementId : Uuid) (now : Timestamp)
  /-- A save commits. -/
  | commitSave (save : ℕ) (now : Timestamp)
  /-- A save never gets to its transaction. -/
  | dropSave (save : ℕ)
  /-- Stock is received. -/
  | receiveStock (movementId : Uuid) (now : Timestamp) (productId : Uuid) (quantity unitCost : ℚ)
  /-- A product is removed. -/
  | remove (now : Timestamp) (productId : Uuid)
  /-- A sale is recorded. -/
  | record (saleId : Uuid) (drawn : ℕ → Uuid) (now : Timestamp) (cart : List CartLine)
      (paymentMethod : PaymentMethod) (discount : ℚ) (note : Option String) (occurredAt : Timestamp)
  /-- A sale is voided. -/
  | voidSale (now : Timestamp) (saleId : Uuid)

/-- The phone after one action; a transaction that fails leaves the tables
as they were. -/
def step (storeId : Uuid) (s : Phone) : Action → Phone
  | .beginSave args drawn movementId now =>
    { s with saves := s.saves ++ [PhoneDatabase.beginSave args drawn movementId now s.db] }
  | .commitSave i now =>
    match s.saves[i]? with
    | none => s
    | some save =>
      { db := PhoneDatabase.commitSave storeId now save s.db, saves := s.saves.eraseIdx i }
  | .dropSave i => { s with saves := s.saves.eraseIdx i }
  | .receiveStock movementId now productId quantity unitCost =>
    { s with db := PhoneDatabase.receiveStock storeId movementId now productId quantity unitCost
               s.db }
  | .remove now productId => { s with db := removeProduct storeId now productId s.db }
  | .record saleId drawn now cart paymentMethod discount note occurredAt =>
    match (buildSale saleId drawn cart paymentMethod discount note occurredAt).bind
        fun sale => recordSale storeId now sale s.db with
    | none => s
    | some db => { s with db := db }
  | .voidSale now saleId => { s with db := PhoneDatabase.voidSale storeId now saleId s.db }

/-- The phone after some actions. -/
def run (storeId : Uuid) (s : Phone) (actions : List Action) : Phone :=
  actions.foldl (step storeId) s

/-- Whether a sale is stored and not voided. -/
def live (db : PhoneDb) (saleId : Uuid) : Bool :=
  (db.sales.find? saleId).any fun row => row.deletedAt.isNone

/-- What the ledger rows of a product add up to. -/
def moved (db : PhoneDb) (productId : Uuid) : ℚ :=
  db.stockMovements.sum fun _ m => if m.productId = productId then m.quantity else 0

/-- What the lines of a sale take of a product. -/
def soldBy (db : PhoneDb) (saleId productId : Uuid) : ℚ :=
  db.saleItems.sum fun _ item =>
    if item.saleId = saleId ∧ item.productId = some productId then item.quantity else 0

/-- What the lines of the sales that are not voided take of a product. -/
def sold (db : PhoneDb) (productId : Uuid) : ℚ :=
  db.saleItems.sum fun _ item =>
    if live db item.saleId = true ∧ item.productId = some productId then item.quantity else 0

/-- What the ledger says is on hand. -/
def balance (db : PhoneDb) (productId : Uuid) : ℚ := moved db productId - sold db productId

/-- Every product's count is the balance of its ledger. -/
def Ledger (db : PhoneDb) : Prop :=
  ∀ id q, stockOf db id = some q → q = balance db id

/-- What a save's movement adds to the count without a ledger row, its
identifier being in use. -/
def unrecorded (db : PhoneDb) (save : PendingSave) : ℚ :=
  match save.movement with
  | some movement =>
    if (db.stockMovements.find? movement.id).isSome then
      movement.delta save.product.stockQuantity
    else 0
  | none => 0

/-- What given back lines move the count of a product by, one by one. -/
def additions (items : List SaleItemRow) (productId : Uuid) : List ℚ :=
  (items.filter fun item => item.productId = some productId).map SaleItemRow.quantity

/-- Whether every sum an action writes to a count is a double. -/
def Exact (s : Phone) : Action → Prop
  | .beginSave _ _ _ _ => True
  | .commitSave i _ => ∀ save movement, s.saves[i]? = some save → save.movement = some movement →
    Held 53 (save.product.stockQuantity + movement.delta save.product.stockQuantity)
  | .dropSave _ => True
  | .receiveStock _ _ productId quantity _ =>
    ∀ q, stockOf s.db productId = some q → Held 53 (q + quantity)
  | .remove _ _ => True
  | .record saleId drawn _ cart paymentMethod discount note occurredAt =>
    ∀ sale, buildSale saleId drawn cart paymentMethod discount note occurredAt = some sale →
      ∀ id q, stockOf s.db id = some q → SumsHeld 53 q (deductions sale.lines id)
  | .voidSale _ saleId =>
    ∀ id q, stockOf s.db id = some q → SumsHeld 53 q (additions (linesFor saleId s.db) id)

/-- When an action keeps the ledger. -/
def Sound (storeId : Uuid) (s : Phone) : Action → Prop
  | .beginSave _ _ _ _ => True
  | .commitSave i _ => ∀ save, s.saves[i]? = some save →
    -- the count it leaves beside its ledger rows is the stored one
    save.product.stockQuantity + unrecorded s.db save =
      (stockOf s.db save.product.id).getD (balance s.db save.product.id)
  | .dropSave _ => True
  | .receiveStock movementId _ productId quantity _ =>
    (s.db.stockMovements.find? movementId).isSome → (stockOf s.db productId).isSome → quantity = 0
  | .remove _ _ => True
  | .record saleId drawn now cart paymentMethod discount note occurredAt =>
    -- a sale that commits does not replace one that took something
    ∀ sale, buildSale saleId drawn cart paymentMethod discount note occurredAt = some sale →
      (recordSale storeId now sale s.db).isSome → live s.db saleId = true →
        ∀ id, (stockOf s.db id).isSome → soldBy s.db saleId id = 0
  | .voidSale _ saleId =>
    -- only a live sale has something to give back
    live s.db saleId = false → ∀ id, (stockOf s.db id).isSome → soldBy s.db saleId id = 0

section

variable (storeId : Uuid) (now : Timestamp) (db : PhoneDb)

theorem balance_eq_of_tables {db db' : PhoneDb} (hm : db'.stockMovements = db.stockMovements)
    (hi : db'.saleItems = db.saleItems) (hs : db'.sales = db.sales) (id : Uuid) :
    balance db' id = balance db id := by
  cases db
  cases db'
  cases hm
  cases hi
  cases hs
  rfl

theorem stockOf_upsertProduct (product : Product) (id : Uuid) :
    stockOf (upsertProduct storeId product db) id =
      if id = product.id then some product.stockQuantity else stockOf db id := by
  simp only [stockOf, upsertProduct, Table.find?_put]
  split_ifs <;> rfl

theorem stockOf_softDelete (productId id : Uuid) :
    stockOf (softDelete now productId db) id = stockOf db id := by
  simp only [stockOf, softDelete, Table.find?_mapRows, Option.map_map]
  congr 1
  funext row
  simp only [Function.comp]
  split_ifs <;> rfl

/-- What an applied movement leaves of a stored product's count. -/
theorem stockOf_applyMovement (movement : StockMovement) {q : ℚ}
    (hq : stockOf db movement.productId = some q) (id : Uuid) :
    stockOf (applyMovement storeId now movement db) id =
      (stockOf db id).map fun c =>
        if id = movement.productId then double (c + movement.delta q) else c := by
  obtain ⟨row, hrow, rfl⟩ := Option.map_eq_some_iff.mp hq
  rw [applyMovement, hrow]
  exact stockOf_moveStock _ _ _ _ _

/-- And of every ledger. -/
theorem balance_applyMovement (movement : StockMovement) {q : ℚ}
    (hq : stockOf db movement.productId = some q) (id : Uuid) :
    balance (applyMovement storeId now movement db) id = balance db id +
      if id = movement.productId ∧ db.stockMovements.find? movement.id = none then
        movement.delta q else 0 := by
  obtain ⟨row, hrow, rfl⟩ := Option.map_eq_some_iff.mp hq
  rw [applyMovement, hrow]
  have hsold : ∀ t, sold (moveStock now movement.productId
      (movement.delta row.stockQuantity) { db with stockMovements := t }) id = sold db id :=
    fun _ => rfl
  rw [balance, balance, hsold, moved, moved]
  change Table.sum (if _ then _ else _) _ - _ = _
  cases hfound : db.stockMovements.find? movement.id with
  | some m => simp
  | none =>
    rw [Option.isSome_none, if_neg Bool.false_ne_true, Table.sum_put_of_none _ _ hfound]
    by_cases hid : id = movement.productId
    · simp only [hid, StockMovement.toRow, and_self, if_true]
      ring
    · simp only [StockMovement.toRow, Ne.symm hid, hid, false_and, if_false]
      ring

/-- A movement of an unknown product is dropped. -/
theorem applyMovement_of_unknown (movement : StockMovement)
    (hq : stockOf db movement.productId = none) : applyMovement storeId now movement db = db := by
  rw [stockOf, Option.map_eq_none_iff] at hq
  rw [applyMovement, hq]

/-- What giving back a list of lines leaves of a count. -/
theorem stockOf_giveBack (items : List SaleItemRow) (id : Uuid) :
    stockOf (items.foldl (fun db item => giveBack now item db) db) id =
      (stockOf db id).map fun q => countAfter q (additions items id) := by
  induction items generalizing db with
  | nil => simp [additions, countAfter, floatSum]
  | cons item rest ih =>
    have hone : stockOf (giveBack now item db) id =
        (stockOf db id).map fun q => countAfter q (additions [item] id) := by
      rw [giveBack]
      cases hp : item.productId with
      | none => simp [additions, hp, countAfter, floatSum]
      | some productId =>
        dsimp only
        rw [stockOf_moveStock]
        congr 1
        funext c
        by_cases hid : id = productId
        · simp [additions, hp, hid, countAfter, floatSum, double]
        · simp [additions, hp, hid, Ne.symm hid, countAfter, floatSum]
    rw [List.foldl_cons, ih, hone, Option.map_map]
    congr 1
    funext c
    rw [Function.comp, ← countAfter_append, additions, additions, ← List.map_append,
      ← List.filter_append]
    rfl

/-- Giving back touches the counts only. -/
theorem giveBack_tables (items : List SaleItemRow) :
    (items.foldl (fun db item => giveBack now item db) db).sales = db.sales ∧
      (items.foldl (fun db item => giveBack now item db) db).saleItems = db.saleItems ∧
      (items.foldl (fun db item => giveBack now item db) db).stockMovements =
        db.stockMovements := by
  induction items generalizing db with
  | nil => exact ⟨rfl, rfl, rfl⟩
  | cons item rest ih =>
    have hone : (giveBack now item db).sales = db.sales ∧
        (giveBack now item db).saleItems = db.saleItems ∧
        (giveBack now item db).stockMovements = db.stockMovements := by
      rw [giveBack]
      cases item.productId <;> exact ⟨rfl, rfl, rfl⟩
    obtain ⟨h₁, h₂, h₃⟩ := ih (giveBack now item db)
    exact ⟨h₁.trans hone.1, h₂.trans hone.2.1, h₃.trans hone.2.2⟩

theorem sum_linesFor (saleId id : Uuid) :
    (additions (linesFor saleId db) id).sum = soldBy db saleId id := by
  rw [soldBy, Table.sum_eq_entries, linesFor, additions, List.filter_filter]
  induction db.saleItems.entries with
  | nil => rfl
  | cons e rest ih =>
    rw [List.map_cons, List.filter_cons]
    by_cases hs : e.2.saleId = saleId
    · by_cases hp : e.2.productId = some id
      · simp [hs, hp, ih]
      · simp [hs, hp, ih]
    · simp [hs, ih]

/-- What a void leaves of a count. -/
theorem stockOf_markVoided (saleId id : Uuid) :
    stockOf (markVoided now saleId db) id =
      (stockOf db id).map fun q => countAfter q (additions (linesFor saleId db) id) := by
  rw [markVoided, stockOf_giveBack]
  rfl

/-- And of every ledger: the lines of a live sale no longer count. -/
theorem balance_markVoided (saleId id : Uuid) :
    balance (markVoided now saleId db) id =
      balance db id + if live db saleId = true then soldBy db saleId id else 0 := by
  obtain ⟨hsales, hitems, hmoves⟩ := giveBack_tables now { db with
    sales := db.sales.mapRows fun id row =>
      if id = saleId then { row with deletedAt := some now, updatedAt := now } else row }
    (linesFor saleId db)
  have hlive : ∀ s, live (markVoided now saleId db) s = (live db s && s != saleId) := by
    intro s
    rw [live, markVoided, hsales]
    simp only [Table.find?_mapRows, live]
    cases db.sales.find? s with
    | none => rfl
    | some row =>
      by_cases hs : s = saleId
      · simp [hs]
      · simp [hs]
  have hsold : sold db id = sold (markVoided now saleId db) id +
      if live db saleId = true then soldBy db saleId id else 0 := by
    have hitems' : (markVoided now saleId db).saleItems = db.saleItems := hitems
    have hif : (if live db saleId = true then soldBy db saleId id else 0) =
        db.saleItems.sum fun _ item => if live db saleId = true ∧ item.saleId = saleId ∧
          item.productId = some id then item.quantity else 0 := by
      by_cases hl : live db saleId = true
      · simp [hl, soldBy]
      · rw [if_neg hl]
        exact (Table.sum_eq_zero fun k item _ => if_neg fun hh => hl hh.1).symm
    rw [hif, sold, sold, hitems', ← Table.sum_add]
    refine Table.sum_congr fun k item _ => ?_
    rw [hlive]
    by_cases hs : item.saleId = saleId
    · subst hs
      by_cases hl : live db item.saleId = true <;> simp [hl]
    · simp [hs]
  have hmoved : moved (markVoided now saleId db) id = moved db id := by
    rw [moved, moved]
    exact congrArg (fun t : Table Uuid StockMovementRow => t.sum _) hmoves
  rw [balance, balance, hmoved, hsold]
  ring

/-- What a recorded sale leaves of a count and of every ledger. -/
theorem recordSale_effect {sale : Sale} {db' : PhoneDb}
    (hids : ∀ l ∈ sale.lines, l.saleId = sale.id) (h : recordSale storeId now sale db = some db')
    (id : Uuid) :
    stockOf db' id = ((stockOf db id).map fun q => countAfter q (deductions sale.lines id)) ∧
      balance db' id = balance db id - taken sale.lines id +
        if live db sale.id = true then soldBy db sale.id id else 0 := by
  rw [recordSale, Option.map_eq_some_iff] at h
  obtain ⟨mid, hmid, rfl⟩ := h
  have hins := insertLines_inserted hmid
  refine ⟨hins.stock id, ?_⟩
  change balance mid id = _
  have hlive : ∀ s, live mid s = if s = sale.id then true else live db s := by
    intro s
    rw [live, hins.sales]
    simp only [Table.find?_put]
    split_ifs <;> rfl
  have hmoved : moved mid id = moved db id := by
    rw [moved, moved]
    exact congrArg (fun t : Table Uuid StockMovementRow => t.sum _) hins.stockMovements
  -- the lines of the other sales count as before
  have hothers : ∀ (_ : Uuid) (item : SaleItemRow), (if (!(item.saleId == sale.id)) = true then
      (if live mid item.saleId = true ∧ item.productId = some id then item.quantity else 0) else 0) +
      (if live db sale.id = true ∧ item.saleId = sale.id ∧ item.productId = some id then
        item.quantity else 0) =
      if live db item.saleId = true ∧ item.productId = some id then item.quantity else 0 := by
    intro _ item
    rw [hlive]
    by_cases hs : item.saleId = sale.id
    · simp [hs]
    · simp [hs]
  have hlines : (sale.lines.map fun l =>
      if live mid l.toRow.saleId = true ∧ l.toRow.productId = some id then l.toRow.quantity
      else 0).sum = taken sale.lines id := by
    rw [taken]
    refine congrArg List.sum (List.map_congr_left fun l hl => ?_)
    have hon : live mid l.saleId = true := by rw [hlive, hids l hl, if_pos rfl]
    simp [SaleLine.toRow, hon]
  have hif : (if live db sale.id = true then soldBy db sale.id id else 0) =
      db.saleItems.sum fun _ item => if live db sale.id = true ∧ item.saleId = sale.id ∧
        item.productId = some id then item.quantity else 0 := by
    by_cases hl : live db sale.id = true
    · simp [hl, soldBy]
    · rw [if_neg hl]
      exact (Table.sum_eq_zero fun k item _ => if_neg fun hh => hl hh.1).symm
  have hsold : sold mid id + (if live db sale.id = true then soldBy db sale.id id else 0) =
      taken sale.lines id + sold db id := by
    rw [sold, hins.total, hlines, Table.sum_filter, hif, add_assoc, ← Table.sum_add, sold]
    exact congrArg _ (Table.sum_congr fun k item _ => hothers k item)
  rw [balance, balance, hmoved]
  linarith

/-- What a save leaves of a count and of every ledger, where the count it comes
to is a double. -/
theorem commitSave_effect (save : PendingSave)
    (hheld : ∀ movement, save.movement = some movement →
      Held 53 (save.product.stockQuantity + movement.delta save.product.stockQuantity))
    (id : Uuid) :
    ∃ δ, stockOf (commitSave storeId now save db) id =
        (if id = save.product.id then some (save.product.stockQuantity + δ) else stockOf db id) ∧
      balance (commitSave storeId now save db) id = balance db id +
        if id = save.product.id then δ - unrecorded db save else 0 := by
  have hup := fun i => stockOf_upsertProduct storeId db save.product i
  cases hm : save.movement with
  | none =>
    refine ⟨0, ?_, ?_⟩
    · rw [commitSave, hm, add_zero]
      exact hup id
    · rw [commitSave, hm, unrecorded, hm]
      simp only [sub_zero, ite_self, add_zero]
      exact balance_eq_of_tables rfl rfl rfl id
  | some movement =>
    have hp := save.ofProduct movement hm
    -- the tables between the row and its movement
    obtain ⟨mid, hmid⟩ : ∃ mid, mid = enqueueContent storeId .products save.product.id
      (.product save.product.toPushJson) (upsertProduct storeId save.product db) := ⟨_, rfl⟩
    have hstock : ∀ i, stockOf mid i =
        if i = save.product.id then some save.product.stockQuantity else stockOf db i := by
      intro i
      rw [hmid]
      exact hup i
    have hbalance : balance mid id = balance db id := by
      rw [hmid]
      exact balance_eq_of_tables rfl rfl rfl id
    have hmoves : mid.stockMovements = db.stockMovements := by
      rw [hmid]
      rfl
    have hq : stockOf mid movement.productId = some save.product.stockQuantity := by
      rw [hstock, if_pos hp]
    have hun : unrecorded db save = if (db.stockMovements.find? movement.id).isSome then
        movement.delta save.product.stockQuantity else 0 := by
      rw [unrecorded, hm]
    refine ⟨movement.delta save.product.stockQuantity, ?_, ?_⟩
    · rw [commitSave, hm]
      change stockOf (applyMovement storeId now movement (enqueueContent storeId .products
        save.product.id (.product save.product.toPushJson)
        (upsertProduct storeId save.product db))) id = _
      rw [← hmid, stockOf_applyMovement storeId now _ movement hq, hstock, hp]
      by_cases hid : id = save.product.id
      · simp [hid, double_of_held (hheld movement hm)]
      · simp [hid]
    · rw [commitSave, hm]
      change balance (applyMovement storeId now movement (enqueueContent storeId .products
        save.product.id (.product save.product.toPushJson)
        (upsertProduct storeId save.product db))) id = _
      rw [← hmid, balance_applyMovement storeId now _ movement hq, hbalance, hmoves, hp, hun]
      by_cases hid : id = save.product.id
      · cases db.stockMovements.find? movement.id <;> simp [hid]
      · simp [hid]

end

/-- Where counts and ledgers are shifted, the ledger is kept exactly when the
shifts of stored products agree. -/
theorem ledger_iff_of_shift {db db' : PhoneDb} (h : Ledger db) {d e : Uuid → ℚ}
    (hstock : ∀ id, stockOf db' id = (stockOf db id).map (· + d id))
    (hbalance : ∀ id, balance db' id = balance db id + e id) :
    Ledger db' ↔ ∀ id, (stockOf db id).isSome → d id = e id := by
  constructor
  · intro h' id hsome
    obtain ⟨q, hq⟩ := Option.isSome_iff_exists.mp hsome
    have hnew := h' id (q + d id) (by rw [hstock, hq, Option.map_some])
    rw [hbalance, ← h id q hq] at hnew
    linarith
  · intro hde id q' hq'
    rw [hstock, Option.map_eq_some_iff] at hq'
    obtain ⟨q, hq, rfl⟩ := hq'
    rw [hbalance, ← h id q hq, hde id (by rw [hq]; rfl)]

/-- Moving a count by sums that are doubles adds them up. -/
theorem map_countAfter {count : Option ℚ} {deltas : List ℚ}
    (h : ∀ q, count = some q → SumsHeld 53 q deltas) :
    (count.map fun q => countAfter q deltas) = count.map (· + deltas.sum) := by
  cases count with
  | none => rfl
  | some q => exact congrArg some (countAfter_of_held (h q rfl))

theorem saleId_of_built {saleId : Uuid} {drawn : ℕ → Uuid} {cart : List CartLine}
    {method : PaymentMethod} {discount : ℚ} {note : Option String} {occurredAt : Timestamp}
    {sale : Sale} (h : buildSale saleId drawn cart method discount note occurredAt = some sale) :
    sale.id = saleId ∧ ∀ l ∈ sale.lines, l.saleId = sale.id := by
  rw [buildSale, Option.map_eq_some_iff] at h
  obtain ⟨applied, _, rfl⟩ := h
  refine ⟨rfl, fun l hl => ?_⟩
  obtain ⟨i, hi, rfl⟩ := List.mem_mapIdx.mp hl
  rfl

/-- A save keeps the ledger exactly when it writes the count that is stored. -/
theorem commitSave_ledger_iff (storeId : Uuid) {s : Phone} (h : Ledger s.db) {i : ℕ}
    {now : Timestamp} (hexact : Exact s (.commitSave i now)) :
    Ledger (step storeId s (.commitSave i now)).db ↔ Sound storeId s (.commitSave i now) := by
  rw [step, Sound]
  cases hi : s.saves[i]? with
  | none => exact iff_of_true h fun save hs => by cases hs
  | some save =>
    have hexpected : (stockOf s.db save.product.id).getD (balance s.db save.product.id) =
        balance s.db save.product.id := by
      cases hq : stockOf s.db save.product.id with
      | none => rfl
      | some q => exact h _ q hq
    have hheld := fun movement => hexact save movement hi
    simp only [Option.some.injEq, forall_eq']
    rw [hexpected]
    constructor
    · intro h'
      obtain ⟨δ, hstock, hbalance⟩ := commitSave_effect storeId now s.db save hheld save.product.id
      rw [if_pos rfl] at hstock hbalance
      have hnew := h' _ _ hstock
      rw [hbalance] at hnew
      linarith
    · intro hsound id q hq
      obtain ⟨δ, hstock, hbalance⟩ := commitSave_effect storeId now s.db save hheld id
      change stockOf (commitSave storeId now save s.db) id = some q at hq
      rw [hbalance]
      rw [hstock] at hq
      by_cases hid : id = save.product.id
      · rw [if_pos hid] at hq ⊢
        cases hq
        rw [hid]
        linarith
      · rw [if_neg hid] at hq ⊢
        rw [add_zero]
        exact h id q hq

/-- A receipt keeps the ledger exactly when its movement is new, or moves nothing. -/
theorem receiveStock_ledger_iff (storeId : Uuid) {s : Phone} (h : Ledger s.db)
    {movementId productId : Uuid} {now : Timestamp} {quantity unitCost : ℚ}
    (hexact : Exact s (.receiveStock movementId now productId quantity unitCost)) :
    Ledger (step storeId s (.receiveStock movementId now productId quantity unitCost)).db ↔
      Sound storeId s (.receiveStock movementId now productId quantity unitCost) := by
  rw [step, Sound]
  cases hq : stockOf s.db productId with
  | none =>
    refine iff_of_true ?_ fun _ hsome => by simp at hsome
    change Ledger (applyMovement storeId now _ s.db)
    rw [applyMovement_of_unknown storeId now s.db _ hq]
    exact h
  | some q =>
    have hstock := stockOf_applyMovement storeId now s.db
      ⟨movementId, productId, .stockIn, quantity, unitCost, none, now⟩ hq
    have hbalance := balance_applyMovement storeId now s.db
      ⟨movementId, productId, .stockIn, quantity, unitCost, none, now⟩ hq
    refine (@ledger_iff_of_shift s.db _ h (fun id => if id = productId then quantity else 0)
      (fun id => if id = productId ∧ s.db.stockMovements.find? movementId = none then quantity
        else 0) ?_ hbalance).trans ?_
    · intro id
      refine (hstock id).trans ?_
      by_cases hid : id = productId
      · subst hid
        simp [hq, StockMovement.delta, double_of_held (hexact q hq)]
      · simp [hid]
    · constructor
      · intro hall hused _
        have hone := hall productId (by rw [hq]; rfl)
        simpa [Option.isSome_iff_ne_none.mp hused] using hone
      · intro hsound id _
        by_cases hfree : s.db.stockMovements.find? movementId = none
        · simp [hfree]
        · have hz := hsound (Option.isSome_iff_ne_none.mpr hfree) rfl
          simp [hz]

/-- A recorded sale keeps the ledger exactly when no live sale of its id took stock. -/
theorem record_ledger_iff (storeId : Uuid) {s : Phone} (h : Ledger s.db) {saleId : Uuid}
    {drawn : ℕ → Uuid} {now : Timestamp} {cart : List CartLine} {method : PaymentMethod}
    {discount : ℚ} {note : Option String} {occurredAt : Timestamp}
    (hexact : Exact s (.record saleId drawn now cart method discount note occurredAt)) :
    Ledger (step storeId s (.record saleId drawn now cart method discount note occurredAt)).db ↔
      Sound storeId s (.record saleId drawn now cart method discount note occurredAt) := by
  rw [step, Sound]
  cases hbuild : buildSale saleId drawn cart method discount note occurredAt with
  | none => exact iff_of_true h fun sale hs => by cases hs
  | some sale =>
    obtain ⟨hid, hids⟩ := saleId_of_built hbuild
    simp only [Option.bind_some, Option.some.injEq, forall_eq']
    cases hrec : recordSale storeId now sale s.db with
    | none => exact iff_of_true h fun hsome => by simp at hsome
    | some db' =>
      have heffect := recordSale_effect storeId now s.db hids hrec
      refine (@ledger_iff_of_shift s.db db' h (fun id => -taken sale.lines id)
        (fun id => -taken sale.lines id +
          if live s.db sale.id = true then soldBy s.db sale.id id else 0) ?_ ?_).trans ?_
      · intro id
        rw [(heffect id).1, map_countAfter (hexact sale hbuild id), sum_deductions]
      · intro id
        rw [(heffect id).2]
        ring
      · rw [hid]
        simp only [Option.isSome_some, true_implies, left_eq_add]
        constructor
        · intro hall hlive id hsome
          have hone := hall id hsome
          rwa [if_pos hlive] at hone
        · intro hsound id hsome
          split_ifs with hlive
          · exact hsound hlive id hsome
          · rfl

/-- A void keeps the ledger exactly when the sale was live, or took nothing. -/
theorem voidSale_ledger_iff (storeId : Uuid) {s : Phone} (h : Ledger s.db) {now : Timestamp}
    {saleId : Uuid} (hexact : Exact s (.voidSale now saleId)) :
    Ledger (step storeId s (.voidSale now saleId)).db ↔ Sound storeId s (.voidSale now saleId) := by
  rw [step, Sound]
  refine (@ledger_iff_of_shift s.db _ h (soldBy s.db saleId)
    (fun id => if live s.db saleId = true then soldBy s.db saleId id else 0) ?_
    (balance_markVoided now s.db saleId)).trans ?_
  · intro id
    refine (stockOf_markVoided now s.db saleId id).trans ?_
    rw [map_countAfter (hexact id), sum_linesFor]
  · cases live s.db saleId with
    | true => simp
    | false => simp

/-- One action whose sums are doubles keeps the ledger exactly when it is
sound. -/
theorem step_ledger_iff (storeId : Uuid) {s : Phone} (h : Ledger s.db) {a : Action}
    (hexact : Exact s a) : Ledger (step storeId s a).db ↔ Sound storeId s a := by
  cases a with
  | beginSave args drawn movementId now => exact iff_of_true h trivial
  | dropSave i => exact iff_of_true h trivial
  | commitSave i now => exact commitSave_ledger_iff storeId h hexact
  | receiveStock movementId now productId quantity unitCost =>
    exact receiveStock_ledger_iff storeId h hexact
  | remove now productId =>
    refine iff_of_true ?_ trivial
    intro id q hq
    change stockOf (softDelete now productId s.db) id = some q at hq
    rw [stockOf_softDelete] at hq
    exact (h id q hq).trans (balance_eq_of_tables rfl rfl rfl id).symm
  | record saleId drawn now cart method discount note occurredAt =>
    exact record_ledger_iff storeId h hexact
  | voidSale now saleId => exact voidSale_ledger_iff storeId h hexact

/-- A run whose sums are doubles keeps the ledger after every transaction
exactly when every step of it is sound where it is taken. -/
theorem ledger_along_iff (storeId : Uuid) {s : Phone} (h : Ledger s.db) (actions : List Action)
    (hexact : ∀ before a after, actions = before ++ a :: after →
      Exact (run storeId s before) a) :
    (∀ before after, actions = before ++ after → Ledger (run storeId s before).db) ↔
      ∀ before a after, actions = before ++ a :: after → Sound storeId (run storeId s before) a := by
  have hstep : ∀ before a, run storeId s (before ++ [a]) = step storeId (run storeId s before) a := by
    intro before a
    rw [run, run, List.foldl_append]
    rfl
  constructor
  · intro hall before a after ha
    refine (step_ledger_iff storeId (hall before (a :: after) ha)
      (hexact before a after ha)).mp ?_
    rw [← hstep]
    exact hall (before ++ [a]) after (by rw [ha]; simp)
  · intro hsound before
    induction before using List.reverseRecOn with
    | nil => exact fun _ _ => h
    | append_singleton before a ih =>
      intro after ha
      have hsplit : actions = before ++ a :: after := by rw [ha]; simp
      rw [hstep]
      exact (step_ledger_iff storeId (ih (a :: after) hsplit)
        (hexact before a after hsplit)).mpr (hsound before a after hsplit)

theorem ledger_fresh : Ledger Phone.fresh.db := by
  intro id q hq
  cases hq

/-- The editor's figures for rice, ten on the shelf. -/
def riceArgs (id : Option Uuid) (price : ℚ) : SaveArgs :=
  ⟨id, "Rice", 30, price, 10, 0, "kg", none⟩

/-- Rice is entered, with its opening stock. -/
def riceEntered : List Action := [.beginSave (riceArgs none 40) ⟨10⟩ ⟨30⟩ 1, .commitSave 0 1]

/-- Three kilos are sold. -/
def riceSold : Action :=
  .record ⟨20⟩ (fun i => ⟨21 + i⟩) 3 [⟨some ⟨10⟩, "Rice", 3, 40, 30⟩] .cash 0 none 3

/-- The sale is voided twice. -/
def voidedTwice : List Action :=
  riceEntered ++ [riceSold, .voidSale 4 ⟨20⟩, .voidSale 5 ⟨20⟩]

/-- Tenths of a kilo are sold: neither they nor what is left are doubles. -/
def weighed : List Action :=
  riceEntered ++ [.record ⟨20⟩ (fun i => ⟨21 + i⟩) 3
    [⟨some ⟨10⟩, "Rice", double (1 / 10), 40, 30⟩, ⟨some ⟨10⟩, "Rice", double (2 / 10), 40, 30⟩]
    .cash 0 none 3]

/-- A new price is saved while the sale is recorded. -/
def savedAcross : List Action :=
  riceEntered ++ [.beginSave (riceArgs (some ⟨10⟩) 45) ⟨11⟩ ⟨31⟩ 2, riceSold, .commitSave 0 4]

theorem ne_balance_of {db : PhoneDb} {id : Uuid} {q b : ℚ} (hq : stockOf db id = some q)
    (hb : balance db id = b) (hne : q ≠ b) : ¬ Ledger db := fun h => hne ((h id q hq).trans hb)

theorem voidedTwice_unbalanced : ¬ Ledger (run ⟨1⟩ Phone.fresh voidedTwice).db :=
  @ne_balance_of _ ⟨10⟩ 13 10 (by decide +kernel) (by decide +kernel) (by norm_num)

theorem savedAcross_unbalanced : ¬ Ledger (run ⟨1⟩ Phone.fresh savedAcross).db :=
  @ne_balance_of _ ⟨10⟩ 10 7 (by decide +kernel) (by decide +kernel) (by norm_num)

theorem weighed_unbalanced : ¬ Ledger (run ⟨1⟩ Phone.fresh weighed).db :=
  @ne_balance_of _ ⟨10⟩ (double (double (10 - double (1 / 10)) - double (2 / 10)))
    (10 - double (1 / 10) - double (2 / 10)) (by decide +kernel) (by decide +kernel)
    (by decide +kernel)

/-- What holds of the count of every row holds of every stored count. -/
theorem forall_stockOf {db : PhoneDb} {P : Uuid → ℚ → Prop}
    (h : ∀ e ∈ db.products.entries, P e.1 e.2.stockQuantity) :
    ∀ id q, stockOf db id = some q → P id q := by
  intro id q hq
  obtain ⟨row, hrow, rfl⟩ := Option.map_eq_some_iff.mp hq
  exact h (id, row) (Table.mem_entries.mpr hrow)

/-- What holds of each step of a run where it is taken. -/
theorem forall_steps {storeId : Uuid} {P : Phone → Action → Prop} {s : Phone} :
    ∀ {actions : List Action}, (∀ i a, actions[i]? = some a →
      P (run storeId s (actions.take i)) a) →
      ∀ before a after, actions = before ++ a :: after → P (run storeId s before) a := by
  rintro actions h before a after rfl
  have hone := h before.length a (by simp)
  rwa [List.take_left' rfl] at hone

theorem voidedTwice_exact : ∀ before a after, voidedTwice = before ++ a :: after →
    Exact (run ⟨1⟩ Phone.fresh before) a := by
  refine forall_steps fun i a ha => ?_
  match i with
  | 0 => cases ha; trivial
  | 1 =>
    cases ha
    intro save movement hsave hmovement
    have hfound : (run ⟨1⟩ Phone.fresh (voidedTwice.take 1)).saves[0]? =
        some (PhoneDatabase.beginSave (riceArgs none 40) ⟨10⟩ ⟨30⟩ 1 PhoneDb.empty) := rfl
    rw [hfound, Option.some.injEq] at hsave
    subst hsave
    have hopening : (PhoneDatabase.beginSave (riceArgs none 40) ⟨10⟩ ⟨30⟩ 1
        PhoneDb.empty).movement =
          some ⟨⟨30⟩, ⟨10⟩, .stockIn, 10, 30, some "Opening stock", 1⟩ := by decide +kernel
    rw [hopening, Option.some.injEq] at hmovement
    subst hmovement
    decide +kernel
  | 2 =>
    cases ha
    intro sale hsale
    have hbuilt : buildSale ⟨20⟩ (fun i => ⟨21 + i⟩) [⟨some ⟨10⟩, "Rice", 3, 40, 30⟩] .cash 0 none 3 =
        some ⟨⟨20⟩, .cash, 120, 90, 0, none, 3,
          [⟨⟨21⟩, ⟨20⟩, some ⟨10⟩, "Rice", 3, 40, 30⟩]⟩ := by decide +kernel
    rw [hbuilt, Option.some.injEq] at hsale
    subst hsale
    exact forall_stockOf (by decide +kernel)
  | 3 =>
    cases ha
    exact forall_stockOf (by decide +kernel)
  | 4 =>
    cases ha
    exact forall_stockOf (by decide +kernel)
  | i + 5 => cases ha

/-- Somewhere in that run a step is not sound: the second void. -/
theorem ledger_along_iff_voidedTwice : ¬ ∀ before a after, voidedTwice = before ++ a :: after →
    Sound ⟨1⟩ (run ⟨1⟩ Phone.fresh before) a := by
  intro h
  have hall := (ledger_along_iff ⟨1⟩ ledger_fresh voidedTwice voidedTwice_exact).mpr h
  exact voidedTwice_unbalanced (hall voidedTwice [] (List.append_nil _).symm)

/-- The phone's ledger does not hold along every run: not when a sale is
voided twice, not when a product is saved while a sale is recorded, and not when
what is left is no double. -/
theorem ledger_lost : ¬ (∀ (storeId : Uuid) (actions : List Action),
    Ledger (run storeId Phone.fresh actions).db) ∧
      stockOf (run ⟨1⟩ Phone.fresh voidedTwice).db ⟨10⟩ = some 13 ∧
      balance (run ⟨1⟩ Phone.fresh voidedTwice).db ⟨10⟩ = 10 ∧
      stockOf (run ⟨1⟩ Phone.fresh savedAcross).db ⟨10⟩ = some 10 ∧
      balance (run ⟨1⟩ Phone.fresh savedAcross).db ⟨10⟩ = 7 ∧
      ¬ Ledger (run ⟨1⟩ Phone.fresh weighed).db :=
  ⟨fun h => savedAcross_unbalanced (h ⟨1⟩ savedAcross), by decide +kernel, by decide +kernel,
    by decide +kernel, by decide +kernel, weighed_unbalanced⟩

end Kitaza.PhoneLedger
