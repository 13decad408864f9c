import Kitaza.Catalogue
import Kitaza.ProductColumns

/-!
# Whether writes without profit access keep the costs

A save looks the product up and writes it later; other writes may come in
between. The lookup lists live products of the store only, the write also
reaches removed ones. A step of somebody without profit access keeps every
cost exactly when the row that its save goes over was live at the lookup and
nobody changed its cost since, or was not live and has no cost.
-/

namespace Kitaza.CostKeeping

open KeyedTable Primitives Access Schema Payloads ProductService SyncPush Catalogue ProductColumns
open DecimalRange (StoredDb Fits MoneyOverflows QuantityOverflows stored stored_eq_ok
  stored_map insertedProduct unused rowLeft)

/-- The part of a save that follows the lookup. -/
def saveAfter (now : Timestamp) (storeId : Uuid) (actor : Actor) (request : SaveProductRequest)
    (before : Option Product) (db : Db) : Except ApiError ((Uuid × Product) × Db) :=
  let productId := savedId request db
  let values := savedValues actor request before
  if values.sellingPrice < values.costPrice then
    .error (.badRequest
      "selling price is lower than cost price, this product would lose money")
  else do
    let (product, db) ← upsert now storeId productId values db
    .ok ((productId, product),
      recordAudit? now actor (describeSave now storeId productId before product) db)

/-- A save is its permission check, its lookup and the rest. -/
theorem save_eq_saveAfter (now : Timestamp) (storeId : Uuid) (actor : Actor)
    (request : SaveProductRequest) (db : Db) :
    save now storeId actor request db = (do
      actor.require .manageProducts
      saveAfter now storeId actor request (find storeId (savedId request db) db) db) := rfl

/-- What a successful write of a save does. -/
theorem saveAfter_eq_ok {now : Timestamp} {storeId : Uuid} {actor : Actor}
    {request : SaveProductRequest} {before : Option Product} {db db' : Db}
    {saved : Uuid × Product} (h : saveAfter now storeId actor request before db = .ok (saved, db')) :
    let values := savedValues actor request before
    ¬values.sellingPrice < values.costPrice ∧
      ∃ row, upsertRow now storeId values (db.products.find? (savedId request db)) = some row ∧
        ¬BarcodeTaken storeId (savedId request db) row.barcode db.products ∧
        db'.products = db.products.put (savedId request db) row := by
  unfold saveAfter at h
  dsimp only at h
  split_ifs at h with hlow
  obtain ⟨⟨row, db₁⟩, hup, h⟩ := bind_eq_ok.mp h
  obtain ⟨hrow, hfree, rfl⟩ := upsert_eq_ok.mp hup
  cases h
  exact ⟨hlow, row, hrow, hfree, recordAudit?_products _ _ _ _⟩

/-- Somebody without profit access. -/
structure BlindActor where
  /-- Who it is. -/
  actor : Actor
  /-- They may not see costs. -/
  blind : actor.can .viewProfit = false

/-- A save that has looked its product up and not yet written it. -/
structure FoundSave where
  /-- The store it is sent to. -/
  storeId : Uuid
  /-- Who sent it. -/
  sender : BlindActor
  /-- The row. -/
  request : SaveProductRequest
  /-- The database it looked in. -/
  seen : StoredDb

/-- The live product it found. -/
def FoundSave.before (f : FoundSave) : Option Product :=
  find f.storeId (savedId f.request f.seen.1) f.seen.1

/-- What it writes. -/
def FoundSave.values (f : FoundSave) : ProductValues :=
  savedValues f.sender.actor f.request f.before

/-- Complete a save. -/
def FoundSave.finish (now : Timestamp) (f : FoundSave) (db : StoredDb) :
    Except ApiError ((Uuid × Product) × StoredDb) :=
  stored (insertedProduct now f.storeId (savedId f.request db.1) f.values)
    (saveAfter now f.storeId f.sender.actor f.request f.before db.1)

/-- The database and the saves under way. -/
structure World where
  /-- The database. -/
  db : StoredDb
  /-- Saves between their lookup and their write. -/
  saves : List FoundSave

/-- A step of the server. -/
inductive Action where
  /-- Any write of the owner, or of anybody else with profit access. -/
  | others (db : StoredDb)
  /-- A row other than a product, from somebody without profit access. -/
  | row (now : Timestamp) (storeId : Uuid) (sender : BlindActor) (row : PushRow)
    (notProduct : row.entity ≠ .product)
  /-- A save looks its product up. -/
  | look (storeId : Uuid) (sender : BlindActor) (request : SaveProductRequest)
  /-- A save under way is written. -/
  | write (now : Timestamp) (i : ℕ)

/-- What a step does. -/
def step (w : World) : Action → World
  | .others db => { w with db := db }
  | .row now storeId sender row _ =>
    { w with db := rowLeft now storeId sender.actor row w.db }
  | .look storeId sender request =>
    if sender.actor.can .manageProducts then
      { w with saves := w.saves ++ [⟨storeId, sender, request, w.db⟩] }
    else w
  | .write now i =>
    match w.saves[i]? with
    | none => w
    | some f =>
      match f.finish now w.db with
      | .error _ => { w with saves := w.saves.eraseIdx i }
      | .ok (_, db) => ⟨db, w.saves.eraseIdx i⟩

/-- Whether every product keeps its cost, live or removed. -/
def CostsKept (db db' : Db) : Prop :=
  ∀ id p, db.products.find? id = some p →
    ∃ p', db'.products.find? id = some p' ∧ p'.costPrice = p.costPrice

/-- Whether a step of somebody without profit access keeps every cost. -/
def KeepsCosts (w : World) : Action → Prop
  | .others _ => True
  | action => CostsKept w.db.1 (step w action).db.1

/-- Whether a save goes through over an existing row: the price is not below
the cost at the lookup, the row is the store's, the barcode is free and the
figures fit their columns. -/
structure FoundSave.Overwrites (f : FoundSave) (db : Db) (p : Product) : Prop where
  /-- The row under the save's identifier. -/
  stored : db.products.find? (savedId f.request db) = some p
  /-- It is the store's. -/
  own : p.storeId = f.storeId
  /-- The price is not refused. -/
  priced : ¬moneyFromF64 f.request.sellingPrice < (f.before.map Product.costPrice).getD 0
  /-- The barcode is not refused. -/
  coded : ¬BarcodeTaken f.storeId (savedId f.request db) (trimmed f.request.barcode) db.products
  /-- Nor a figure for its width. -/
  fits : ¬MoneyOverflows (moneyFromF64 f.request.sellingPrice) ∧
    ¬QuantityOverflows (quantityFromF64 f.request.openingStock) ∧
    ¬QuantityOverflows (quantityFromF64 f.request.reorderLevel)

/-- Whether nobody came between the lookup of a save and its write: the row was
live then and has the cost it had; or it was not live, removed or yet to be
created, and has cost zero. -/
def FoundSave.Undisturbed (f : FoundSave) (p : Product) : Prop :=
  match f.before with
  | some looked => p.costPrice = looked.costPrice
  | none => p.costPrice = 0

/-- Whether a step completes no save, or one that goes over no row but an
undisturbed one. -/
def CompletesUndisturbed (w : World) : Action → Prop
  | .write _ i => ∀ f, w.saves[i]? = some f → ∀ p, f.Overwrites w.db.1 p → f.Undisturbed p
  | _ => True

/-- A property of every step of a run. -/
def Along (P : World → Action → Prop) : World → List Action → Prop
  | _, [] => True
  | w, action :: rest => P w action ∧ Along P (step w action) rest

theorem CostsKept.refl (db : Db) : CostsKept db db := fun _ p hp => ⟨p, hp, rfl⟩

/-- The catalogue holds the costs. -/
theorem CostsKept.of_catalogue {db db' : Db} (h : catalogue db' = catalogue db) :
    CostsKept db db' := by
  intro id p hp
  have hfind : (db'.products.find? id).map catalogued = (db.products.find? id).map catalogued := by
    rw [← find?_catalogue, ← find?_catalogue, h]
  rw [hp, Option.map_some, Option.map_eq_some_iff] at hfind
  obtain ⟨p', hp', hsame⟩ := hfind
  have hcost : (catalogued p').costPrice = (catalogued p).costPrice := by rw [hsame]
  exact ⟨p', hp', hcost⟩

/-- Removing a product keeps its cost. -/
theorem CostsKept.remove {now : Timestamp} {storeId id : Uuid} {actor : Actor} {db db' : Db}
    (h : ProductService.remove now storeId actor id db = .ok db') : CostsKept db db' := by
  obtain ⟨-, -, h⟩ := bind_eq_ok.mp h
  cases hgone : softDelete now storeId id db with
  | none =>
    rw [hgone] at h
    cases h
  | some gone =>
    rw [hgone] at h
    cases h
    obtain ⟨p, hp, hg⟩ := Option.map_eq_some_iff.mp hgone
    cases hg
    intro other q hq
    by_cases hid : other = id
    · subst hid
      rw [(find_eq_some.mp hp).1] at hq
      cases hq
      exact ⟨_, Table.find?_put_self _ _ _, rfl⟩
    · exact ⟨q, (Table.find?_put_ne _ _ hid).trans hq, rfl⟩

/-- Rows other than products keep every cost. -/
theorem CostsKept.row (now : Timestamp) (storeId : Uuid) (sender : BlindActor)
    (db : StoredDb) {row : PushRow} (hrow : row.entity ≠ .product) :
    CostsKept db.1 (rowLeft now storeId sender.actor row db).1 := by
  unfold rowLeft
  split
  · next id db' happly =>
    have hr := DecimalRange.ok_of_apply happly
    by_cases hc : Catalogues row
    · cases row with
      | product request => exact absurd rfl hrow
      | deletion request =>
        have hentity : request.entity = "product" := hc
        rcases PushRow.apply_eq_ok hr with hremoved | hsame
        · have hproduct :
              ProductService.remove now storeId sender.actor request.id db.1 = .ok db'.1 := by
            simpa [removeEntity, hentity] using hremoved
          exact CostsKept.remove hproduct
        · rw [hsame]
          exact CostsKept.refl db.1
      | sale request => exact hc.elim
      | movement request => exact hc.elim
      | expense request => exact hc.elim
      | withdrawal request => exact hc.elim
    · exact CostsKept.of_catalogue (catalogue_apply sender.blind hc hr)
  · exact CostsKept.refl db.1

theorem undisturbed_iff {f : FoundSave} {p : Product} :
    f.Undisturbed p ↔ (f.before.map Product.costPrice).getD 0 = p.costPrice := by
  unfold FoundSave.Undisturbed
  cases f.before with
  | none => exact eq_comm
  | some looked => exact eq_comm

/-- The cost a save writes is that of the row it found, or zero. -/
theorem FoundSave.values_cost (f : FoundSave) :
    f.values.costPrice = (f.before.map Product.costPrice).getD 0 := by
  simp [FoundSave.values, savedValues, savedCost, f.sender.blind]

/-- The figures of a save fit when those it was sent with do: the cost was
stored. -/
theorem FoundSave.valuesFit {f : FoundSave}
    (hfits : ¬MoneyOverflows (moneyFromF64 f.request.sellingPrice) ∧
      ¬QuantityOverflows (quantityFromF64 f.request.openingStock) ∧
      ¬QuantityOverflows (quantityFromF64 f.request.reorderLevel)) : ValuesFit f.values := by
  refine ⟨?_, hfits.1, hfits.2.1, hfits.2.2⟩
  rw [f.values_cost]
  cases hbefore : f.before with
  | none => simp [MoneyOverflows]
  | some looked =>
    have hstored := (find_eq_some.mp hbefore).1
    exact fun hwide => f.seen.2.products ⟨_, looked, hstored, Or.inl hwide⟩

/-- A save that goes through over a row does so. -/
theorem FoundSave.finish_of_overwrites {f : FoundSave} {db : StoredDb} {p : Product}
    (now : Timestamp) (h : f.Overwrites db.1 p) :
    ∃ saved db' row, f.finish now db = .ok (saved, db') ∧
      upsertRow now f.storeId f.values (some p) = some row ∧
      db'.1.products = db.1.products.put (savedId f.request db.1) row := by
  obtain ⟨row, hrow⟩ : ∃ row, upsertRow now f.storeId f.values (some p) = some row := by
    rw [upsertRow, if_pos h.own]
    exact ⟨_, rfl⟩
  have hstored := hrow
  rw [← h.stored] at hstored
  have hfree : ¬BarcodeTaken f.storeId (savedId f.request db.1) row.barcode db.1.products := by
    rw [(upsertRow_eq_some hrow).barcode]
    exact h.coded
  have hvalues := f.valuesFit h.fits
  have hpriced := h.priced
  rw [← f.values_cost] at hpriced
  have hleft := fits_upserted db.2 hstored hvalues
  obtain ⟨saved, entry, hok⟩ : ∃ saved entry,
      saveAfter now f.storeId f.sender.actor f.request f.before db.1 =
        .ok (saved, recordAudit? now f.sender.actor entry
          { db.1 with products := db.1.products.put (savedId f.request db.1) row }) := by
    unfold saveAfter
    dsimp only
    have hlow : ¬f.values.sellingPrice < f.values.costPrice := hpriced
    rw [← FoundSave.values, if_neg hlow, upsert_eq_ok.mpr ⟨hstored, hfree, rfl⟩]
    exact ⟨_, _, rfl⟩
  refine ⟨saved, ⟨_, fits_recordAudit?.mpr hleft⟩, row, stored_eq_ok.mpr
    ⟨insertedProduct_fits_iff.mpr hvalues, hok⟩, hrow, recordAudit?_products _ _ _ _⟩

/-- Completing a save keeps every cost exactly when the row it goes over was
left alone since the lookup. -/
theorem CostsKept.write_iff (now : Timestamp) (f : FoundSave) (db : StoredDb) :
    (∀ saved db', f.finish now db = .ok (saved, db') → CostsKept db.1 db'.1) ↔
      ∀ p, f.Overwrites db.1 p → f.Undisturbed p := by
  simp only [undisturbed_iff]
  constructor
  · intro hkept p hover
    obtain ⟨saved, db', row, hok, hrow, hproducts⟩ := f.finish_of_overwrites now hover
    obtain ⟨p', hp', hsame⟩ := hkept saved db' hok (savedId f.request db.1) p hover.stored
    rw [hproducts, Table.find?_put_self] at hp'
    cases hp'
    rw [← f.values_cost, ← (upsertRow_eq_some hrow).cost]
    exact hsame
  · intro hfound saved db' hok
    obtain ⟨hpassed, hsaved⟩ := stored_eq_ok.mp hok
    obtain ⟨hlow, row, hrow, hfree, hproducts⟩ := saveAfter_eq_ok hsaved
    have hvalues := insertedProduct_fits_iff.mp hpassed
    have hup := upsertRow_eq_some hrow
    intro id p hp
    rw [hproducts]
    by_cases hid : id = savedId f.request db.1
    · subst hid
      refine ⟨row, Table.find?_put_self _ _ _, ?_⟩
      rw [hup.cost, ← FoundSave.values, f.values_cost]
      have hbarcode : row.barcode = trimmed f.request.barcode := hup.barcode
      refine hfound p ⟨hp, hup.own p hp, ?_, by rwa [← hbarcode],
        hvalues.price, hvalues.stock, hvalues.reorderLevel⟩
      rw [← f.values_cost]
      exact hlow
    · exact ⟨p, by rw [Table.find?_put_ne _ _ hid, hp], rfl⟩

/-- One step keeps every cost exactly when it completes no save, or one whose
row was left alone. -/
theorem keepsCosts_iff (w : World) (action : Action) :
    KeepsCosts w action ↔ CompletesUndisturbed w action := by
  cases action with
  | others db => exact Iff.rfl
  | row now storeId sender row hrow =>
    exact ⟨fun _ => trivial, fun _ => CostsKept.row now storeId sender w.db hrow⟩
  | look storeId sender request =>
    refine ⟨fun _ => trivial, fun _ => ?_⟩
    change CostsKept w.db.1 (step w (.look storeId sender request)).db.1
    unfold step
    dsimp only
    split_ifs
    · exact CostsKept.refl w.db.1
    · exact CostsKept.refl w.db.1
  | write now i =>
    change CostsKept w.db.1 (step w (.write now i)).db.1 ↔
      ∀ f, w.saves[i]? = some f → ∀ p, f.Overwrites w.db.1 p → f.Undisturbed p
    unfold step
    dsimp only
    cases hi : w.saves[i]? with
    | none => exact ⟨fun _ f hf => (by cases hf), fun _ => CostsKept.refl w.db.1⟩
    | some f =>
      have hwrite := CostsKept.write_iff now f w.db
      simp only [Option.some.injEq, forall_eq']
      rw [← hwrite]
      cases hs : f.finish now w.db with
      | error e =>
        constructor
        · intro _ saved db' h
          cases h
        · exact fun _ => CostsKept.refl w.db.1
      | ok r =>
        obtain ⟨saved, db'⟩ := r
        constructor
        · intro hkept saved' db₁ h
          cases h
          exact hkept
        · exact fun h => h saved db' rfl

/-- A run, step after step. -/
def runOf (w : World) (actions : List Action) : World := actions.foldl step w

/-- The steps of one row. -/
def actionsOf (now : Timestamp) (storeId : Uuid) (sender : BlindActor) : PushRow → List Action
  | .product request => [.look storeId sender request, .write now 0]
  | .sale request => [.row now storeId sender (.sale request) (by simp [PushRow.entity])]
  | .movement request => [.row now storeId sender (.movement request) (by simp [PushRow.entity])]
  | .expense request => [.row now storeId sender (.expense request) (by simp [PushRow.entity])]
  | .withdrawal request => [.row now storeId sender (.withdrawal request) (by simp [PushRow.entity])]
  | .deletion request => [.row now storeId sender (.deletion request) (by simp [PushRow.entity])]

/-- A row is its steps with nothing in between. -/
theorem runOf_actionsOf (now : Timestamp) (storeId : Uuid) (sender : BlindActor) (db : StoredDb)
    (row : PushRow) :
    runOf ⟨db, []⟩ (actionsOf now storeId sender row) =
      ⟨rowLeft now storeId sender.actor row db, []⟩ := by
  cases row with
  | product request =>
    let f : FoundSave := ⟨storeId, sender, request, db⟩
    have happly : DecimalRange.apply now storeId sender.actor (.product request) db =
        some (stored (DecimalRange.passed now storeId sender.actor (.product request) db.1)
          ((PushRow.product request).apply now storeId sender.actor db.1)) := rfl
    by_cases hcan : sender.actor.can .manageProducts = true
    · have hsave : (PushRow.product request).apply now storeId sender.actor db.1 =
          (saveAfter now storeId sender.actor request f.before db.1).map
            fun saved => (some saved.1.1, saved.2) := by
        change (save now storeId sender.actor request db.1).map _ = _
        rw [save_eq_saveAfter, Actor.require_eq_ok.mpr hcan]
        rfl
      have hfinish : rowLeft now storeId sender.actor (.product request) db =
          match f.finish now db with
          | .error _ => db
          | .ok (_, db') => db' := by
        rw [rowLeft, happly, hsave, stored_map fun saved : Uuid × Product => some saved.1]
        by_cases hlow : f.values.sellingPrice < f.values.costPrice
        · -- refused before anything is written
          have hrefused : saveAfter now storeId sender.actor request f.before db.1 =
              .error (.badRequest
                "selling price is lower than cost price, this product would lose money") :=
            if_pos hlow
          rw [FoundSave.finish, hrefused]
          unfold stored
          split_ifs <;> rfl
        · have hpassed : DecimalRange.passed now storeId sender.actor (.product request) db.1 =
              insertedProduct now f.storeId (savedId f.request db.1) f.values :=
            if_pos ⟨hcan, hlow⟩
          rw [hpassed, FoundSave.finish]
          cases stored _ (saveAfter now storeId sender.actor request f.before db.1) <;> rfl
      simp only [actionsOf, runOf, List.foldl_cons, List.foldl_nil, step, hcan, if_true,
        List.nil_append, List.getElem?_cons_zero, List.eraseIdx_cons_zero]
      rw [hfinish]
      cases f.finish now db <;> rfl
    · have hrefused : (PushRow.product request).apply now storeId sender.actor db.1 =
          .error (.forbidden (Permission.manageProducts).refusal) := by
        change (save now storeId sender.actor request db.1).map _ = _
        rw [save_eq_saveAfter, Actor.require, if_neg hcan]
        rfl
      have hleft : rowLeft now storeId sender.actor (.product request) db = db := by
        rw [rowLeft, happly, hrefused]
        unfold stored
        split_ifs <;> rfl
      simp only [actionsOf, runOf, List.foldl_cons, List.foldl_nil, step, hcan,
        Bool.false_eq_true, if_false, List.getElem?_nil, hleft]
  | sale request => rfl
  | movement request => rfl
  | expense request => rfl
  | withdrawal request => rfl
  | deletion request => rfl

/-- The steps of a push. -/
def actionsOfPush (now : Timestamp) (storeId : Uuid) (sender : BlindActor)
    (request : PushRequest) : List Action :=
  (rows now request).flatMap (actionsOf now storeId sender)

/-- The rows of a push, one after the other, are a run. -/
theorem runOf_rows (now : Timestamp) (storeId : Uuid) (sender : BlindActor) (rows : List PushRow)
    (db : StoredDb) : runOf ⟨db, []⟩ (rows.flatMap (actionsOf now storeId sender)) =
      ⟨rows.foldl (fun db row => rowLeft now storeId sender.actor row db) db, []⟩ := by
  induction rows generalizing db with
  | nil => rfl
  | cons row rest ih =>
    rw [List.flatMap_cons, runOf, List.foldl_append]
    have hfirst := runOf_actionsOf now storeId sender db row
    rw [runOf] at hfirst
    rw [hfirst]
    exact ih (rowLeft now storeId sender.actor row db)

/-- A push that nobody interrupts is one of the runs. -/
theorem runOf_actionsOfPush {now : Timestamp} {storeId : Uuid} {sender : BlindActor}
    {request : PushRequest} {db db' : StoredDb} {outcome : PushOutcome}
    (h : DecimalRange.push now storeId sender.actor request db = some (outcome, db')) :
    runOf ⟨db, []⟩ (actionsOfPush now storeId sender request) = ⟨db', []⟩ := by
  have hrow : ∀ {s s' : Outcome × StoredDb} {row : PushRow},
      DecimalRange.pushRow now storeId sender.actor s row = some s' →
        rowLeft now storeId sender.actor row s.2 = s'.2 := by
    intro s s' row hpush
    obtain ⟨r, hr, rfl⟩ := Option.map_eq_some_iff.mp hpush
    rw [rowLeft, hr]
    cases r <;> rfl
  have hrows : ∀ (rows : List PushRow) (s s' : Outcome × StoredDb),
      rows.foldlM (DecimalRange.pushRow now storeId sender.actor) s = some s' →
        rows.foldl (fun db row => rowLeft now storeId sender.actor row db) s.2 = s'.2 := by
    intro rows
    induction rows with
    | nil =>
      intro s s' hgo
      cases hgo
      rfl
    | cons row rest ih =>
      intro s s' hgo
      obtain ⟨s₁, hpush, hrest⟩ := Option.bind_eq_some_iff.mp hgo
      rw [List.foldl_cons, hrow hpush]
      exact ih s₁ s' hrest
  obtain ⟨s', hgo, he⟩ := Option.map_eq_some_iff.mp h
  rw [actionsOfPush, runOf_rows, hrows _ _ _ hgo]
  cases he
  rfl

/-- In every run, the steps of everybody without profit access keep every
cost exactly when every row that a save of theirs goes over was live at its
lookup and has the cost it had then, or was not live and has none. -/
theorem costs_kept_iff (w : World) (run : List Action) :
    Along KeepsCosts w run ↔ Along CompletesUndisturbed w run := by
  induction run generalizing w with
  | nil => exact Iff.rfl
  | cons action rest ih => exact and_congr (keepsCosts_iff w action) (ih (step w action))

/-- The owner of the store. -/
def storeOwner : Actor := ⟨⟨2⟩, "Ana", "Phone", none⟩

/-- Somebody who may manage products but not see costs. -/
def stocker : BlindActor where
  actor := ⟨⟨2⟩, "Ben", "Tablet", some ⟨⟨3⟩, ⟨true, false, false, false⟩⟩⟩
  blind := by decide

/-- The rice, as a phone sends it with a cost. -/
def riceRow (cost : ℚ) : SaveProductRequest := ⟨some ⟨10⟩, "Rice", none, "kg", cost, 75, 10, 0⟩

/-- The database after rows. -/
def pushed (now : Timestamp) (sender : Actor) (rows : List PushRow) (db : StoredDb) : StoredDb :=
  rows.foldl (fun db row => rowLeft now ⟨1⟩ sender row db) db

/-- What the owner's phone pushed: the rice, bought at 40, and its removal. -/
def removedRice : StoredDb :=
  pushed 2 storeOwner [.deletion ⟨"product", ⟨10⟩⟩]
    (pushed 1 storeOwner [.product (riceRow 40)] unused)

/-- A removed product that is saved again loses its cost. -/
theorem saving_removed_product_wipes_cost :
    ¬Along KeepsCosts ⟨removedRice, []⟩
      (actionsOfPush 3 ⟨1⟩ stocker ⟨[riceRow 0], [], [], [], [], []⟩) := by
  have hbefore : (removedRice.1.products.find? ⟨10⟩).map Product.costPrice = some 40 := by
    decide +kernel
  have hafter : ((step (step ⟨removedRice, []⟩ (.look ⟨1⟩ stocker (riceRow 0)))
      (.write 3 0)).db.1.products.find? ⟨10⟩).map Product.costPrice = some 0 := by
    decide +kernel
  rintro ⟨-, hwrite, -⟩
  obtain ⟨p, hp, hcost⟩ := Option.map_eq_some_iff.mp hbefore
  obtain ⟨p', hp', hsame⟩ := hwrite ⟨10⟩ p hp
  rw [hp', Option.map_some, hsame, hcost] at hafter
  cases hafter

end Kitaza.CostKeeping
