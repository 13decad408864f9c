import Kitaza.CostColumns
import Kitaza.CostMasking

/-!
# What the answers to a push tell about costs

Two states that differ in nothing but costs answer the same pushes alike
unless a row tells them apart: a product whose price is below the stored cost
in one state only, or a sale whose cost leaves the range of the decimals or
the width of its column in one state only.
-/

namespace Kitaza.CostOracle

open KeyedTable Primitives Access Schema Payloads ProductService SaleRepository SaleService SyncPush
  CostBlindness CostMasking CostColumns ProductColumns
open DecimalRange (StoredDb Fits MoneyOverflows passed result resolved rowLeft rowsLeft
  rowsLeft_of_isSome rowsLeft_of_not_isSome SaleInRange RowInRange stored stored_eq_ok)

/-- Two states that differ in nothing but cost figures. -/
def SameButCosts (a b : Db) : Prop := withoutCosts a = withoutCosts b

theorem SameButCosts.blind {a b : Db} (h : SameButCosts a b) : blind a = blind b :=
  congrArg (fun db : Db => { db with auditEvents := [] }) h

/-- A push as it reaches the server. -/
structure SentPush where
  /-- The server's clock. -/
  now : Timestamp
  /-- The store it is sent to. -/
  storeId : Uuid
  /-- The rows. -/
  request : PushRequest
  deriving DecidableEq, Repr

/-- What the sender is told of a row that is answered: under which identifier it
was applied, or for which reason refused. -/
def told : Except ApiError (Option Uuid × StoredDb) → Except String (Option Uuid)
  | .ok (id, _) => .ok id
  | .error e => .error (reasonOf e)

/-- What becomes of a row; there is nothing where its push aborts. -/
def verdict (now : Timestamp) (storeId : Uuid) (actor : Actor) (row : PushRow) (db : StoredDb) :
    Option (Except String (Option Uuid)) :=
  (DecimalRange.apply now storeId actor row db).map told

/-- What becomes of rows, up to the one that aborts their push. -/
def verdicts (now : Timestamp) (storeId : Uuid) (actor : Actor) :
    List PushRow → StoredDb → List (Option (Except String (Option Uuid)))
  | [], _ => []
  | row :: rest, db =>
    match verdict now storeId actor row db with
    | none => [none]
    | some v => some v :: verdicts now storeId actor rest (rowLeft now storeId actor row db)

/-- The database after a push. -/
def SentPush.left (actor : Actor) (sent : SentPush) (db : StoredDb) : StoredDb :=
  rowsLeft sent.now sent.storeId actor (rows sent.now sent.request) db

/-- The answers to pushes sent one after another; one that aborts has none. -/
def answers (actor : Actor) : List SentPush → StoredDb → List (Option PushOutcome)
  | [], _ => []
  | sent :: rest, db =>
    (DecimalRange.push sent.now sent.storeId actor sent.request db).map Prod.fst ::
      answers actor rest (sent.left actor db)

/-- What becomes of each row of pushes sent one after another. -/
def reports (actor : Actor) :
    List SentPush → StoredDb → List (List (Option (Except String (Option Uuid))))
  | [], _ => []
  | sent :: rest, db =>
    verdicts sent.now sent.storeId actor (rows sent.now sent.request) db ::
      reports actor rest (sent.left actor db)

/-- The cost a save by somebody without profit access is checked against:
that of the live product, zero where there is none. -/
def hiddenCost (storeId id : Uuid) (db : Db) : Money :=
  ((ProductService.find storeId id db).map Product.costPrice).getD 0

/-- What the lines of a sale cost together. -/
def saleCost (storeId : Uuid) (actor : Actor) (request : RecordSaleRequest) (db : Db) : Money :=
  ((resolved storeId db (visibleItems actor request.items) 0).map fun line =>
    line.unitCost * line.quantity).sum

/-- A sale that is recorded unless it costs too much: it was not voided, and all
but its costs is in order and fits. -/
def RecordedButForCosts (now : Timestamp) (storeId : Uuid) (actor : Actor)
    (request : RecordSaleRequest) (db : Db) : Prop :=
  (∀ id existing, request.id = some id → db.sales.find? id = some existing →
    existing.deletedAt = none) ∧
  (∀ d ∈ passed now storeId actor (.sale request) db, Fits (blind d)) ∧
  ∃ id db', (PushRow.sale request).apply now storeId actor db = .ok (id, db') ∧ Fits (blind db')

/-- Whether a row does not tell two states apart: the price of a product is
below both costs or neither; what a sale costs leaves the decimals in both or
neither, and its column. -/
def RowAlike (now : Timestamp) (storeId : Uuid) (actor : Actor) (a b : Db) : PushRow → Prop
  | .product request =>
    actor.can .manageProducts = true →
      (moneyFromF64 request.sellingPrice < hiddenCost storeId (savedId request a) a ↔
        moneyFromF64 request.sellingPrice < hiddenCost storeId (savedId request b) b)
  | .sale request =>
    (SaleInRange storeId actor request a ↔ SaleInRange storeId actor request b) ∧
      (SaleInRange storeId actor request a → RecordedButForCosts now storeId actor request a →
        (MoneyOverflows (numericMoney (saleCost storeId actor request a)) ↔
          MoneyOverflows (numericMoney (saleCost storeId actor request b))))
  | _ => True

/-- No row tells the states apart that it meets. -/
def RowsAlike (now : Timestamp) (storeId : Uuid) (actor : Actor) :
    List PushRow → StoredDb → StoredDb → Prop
  | [], _, _ => True
  | row :: rest, a, b =>
    RowAlike now storeId actor a.1 b.1 row ∧ (RowInRange storeId actor a.1 row →
      RowsAlike now storeId actor rest (rowLeft now storeId actor row a)
        (rowLeft now storeId actor row b))

/-- Nor does one of any push. -/
def PushesAlike (actor : Actor) : List SentPush → StoredDb → StoredDb → Prop
  | [], _, _ => True
  | sent :: rest, a, b =>
    RowsAlike sent.now sent.storeId actor (rows sent.now sent.request) a b ∧
      PushesAlike actor rest (sent.left actor a) (sent.left actor b)

/-- The refusal of a price below the cost. -/
def priceRefusal : ApiError :=
  .badRequest "selling price is lower than cost price, this product would lose money"

/-- What somebody without profit access can tell of what is stored. -/
def shown : Except ApiError (Option Uuid × StoredDb) → Except String (Option Uuid × Db)
  | .ok (id, db) => .ok (id, blind db.1)
  | .error e => .error (reasonOf e)

section Row

variable {now : Timestamp} {storeId : Uuid} {actor : Actor}

/-- A save by somebody without profit access who may manage products. -/
theorem save_eq (hblind : actor.can .viewProfit = false) (hcan : actor.can .manageProducts = true)
    (request : SaveProductRequest) (db : Db) :
    save now storeId actor request db =
      if moneyFromF64 request.sellingPrice < hiddenCost storeId (savedId request db) db then
        .error priceRefusal
      else
        (upsert now storeId (savedId request db)
          (savedValues actor request (find storeId (savedId request db) db)) db).map fun r =>
            ((savedId request db, r.1), recordAudit? now actor
              (describeSave now storeId (savedId request db)
                (find storeId (savedId request db) db) r.1) r.2) := by
  have hcost : (savedValues actor request (find storeId (savedId request db) db)).costPrice =
      hiddenCost storeId (savedId request db) db := by
    simp [savedValues, savedCost, hblind, hiddenCost]
  have hallowed : actor.require .manageProducts = .ok () := Actor.require_eq_ok.mpr hcan
  rw [← hcost]
  simp only [save, hallowed, bind, Except.bind]
  change (if _ then _ else _) = _
  congr 1

/-- A saved product checked alike gives the same result without the costs. -/
theorem seen_save (hblind : actor.can .viewProfit = false) {a b : Db} (hab : blind a = blind b)
    {request : SaveProductRequest} (halike : RowAlike now storeId actor a b (.product request)) :
    seen ((PushRow.product request).apply now storeId actor a) =
      seen ((PushRow.product request).apply now storeId actor b) := by
  by_cases hcan : actor.can .manageProducts = true
  · have hid : savedId request a = savedId request b := by
      have hfresh : Uuid.newV4 (blind a).products 0 = Uuid.newV4 (blind b).products 0 := by
        rw [hab]
      unfold savedId
      rw [show Uuid.newV4 a.products 0 = Uuid.newV4 b.products 0 from hfresh]
    have hcheck := halike hcan
    have hwritten : ∀ db, (upsert now storeId (savedId request db)
        (savedValues actor request (find storeId (savedId request db) db)) db).map
          (fun r => (zeroProduct r.1, blind r.2)) =
        upsert now storeId (savedId request db)
          { savedValues actor request none with costPrice := 0 } (blind db) :=
      fun db => (@upsert_blind now storeId (savedId request db) _ db).symm
    have hsame := (hwritten a).trans ((congrArg₂ (fun id db => upsert now storeId id
      { savedValues actor request none with costPrice := 0 } db) hid hab).trans (hwritten b).symm)
    simp only [PushRow.apply, save_eq hblind hcan]
    by_cases hlow : moneyFromF64 request.sellingPrice < hiddenCost storeId (savedId request a) a
    · rw [if_pos hlow, if_pos (hcheck.mp hlow)]
    · rw [if_neg hlow, if_neg fun h => hlow (hcheck.mpr h)]
      revert hsame
      generalize upsert now storeId (savedId request a) _ a = ra
      generalize upsert now storeId (savedId request b) _ b = rb
      cases ra with
      | error e =>
        cases rb with
        | error e' =>
          intro h
          cases h
          rfl
        | ok r => exact fun h => by cases h
      | ok r =>
        cases rb with
        | error e' => exact fun h => by cases h
        | ok r' =>
          intro h
          have hdb : blind r.2 = blind r'.2 := congrArg Prod.snd (Except.ok.inj h)
          simp only [seen, Except.map, blind_recordAudit?, hid, hdb]
  · have hrefused : actor.require .manageProducts =
        .error (.forbidden (Permission.manageProducts).refusal) := by
      rw [Actor.require, if_neg hcan]
    simp only [PushRow.apply, save, hrefused, bind, Except.bind]

/-- What fits alike and looks alike is stored alike. -/
theorem shown_stored {pa pb : List Db} {ra rb : Except ApiError (Option Uuid × Db)}
    (hpassed : (∀ d ∈ pa, Fits d) ↔ ∀ d ∈ pb, Fits d) (hseen : seen ra = seen rb)
    (ha : ∀ id db', ra = .ok (id, db') → CostsFit db')
    (hb : ∀ id db', rb = .ok (id, db') → CostsFit db') :
    shown (stored pa ra) = shown (stored pb rb) := by
  unfold stored
  by_cases hfits : ∀ d ∈ pa, Fits d
  · rw [if_pos hfits, if_pos (hpassed.mp hfits)]
    cases ra with
    | error e =>
      cases rb with
      | error e' =>
        cases hseen
        rfl
      | ok r => cases hseen
    | ok r =>
      cases rb with
      | error e' => cases hseen
      | ok r' =>
        obtain ⟨id, db⟩ := r
        obtain ⟨id', db'⟩ := r'
        obtain ⟨hid, hdb⟩ := Prod.mk.inj (Except.ok.inj hseen)
        dsimp only at hid hdb
        have hsame : Fits db ↔ Fits db' := by
          rw [@fits_iff_blind db, @fits_iff_blind db', hdb, and_iff_left (ha id db rfl),
            and_iff_left (hb id' db' rfl)]
        dsimp only
        by_cases hfit : Fits db
        · rw [dif_pos hfit, dif_pos (hsame.mp hfit), shown, shown, hid, hdb]
        · rw [dif_neg hfit, dif_neg (mt hsame.mpr hfit)]
  · rw [if_neg hfits, if_neg (mt hpassed.mpr hfits)]

theorem find?_of_blind {a b : Db} (hab : blind a = blind b) (id : Uuid) :
    (a.sales.find? id).map zeroSale = (b.sales.find? id).map zeroSale :=
  congrArg (fun db : Db => db.sales.find? id) hab

/-- Rows other than sales ask to insert what fits alike. -/
theorem passed_alike (hblind : actor.can .viewProfit = false) {a b : Db} (hab : blind a = blind b)
    (ha : Fits a) (hb : Fits b) {row : PushRow} (hrow : row.entity ≠ .sale)
    (halike : RowAlike now storeId actor a b row) :
    (∀ d ∈ passed now storeId actor row a, Fits d) ↔ ∀ d ∈ passed now storeId actor row b, Fits d := by
  cases row with
  | sale request => exact absurd rfl hrow
  | product request =>
    have hcost : ∀ {db : Db}, Fits db → (savedValues actor request
        (find storeId (savedId request db) db)).costPrice =
          hiddenCost storeId (savedId request db) db ∧
        ¬ MoneyOverflows (hiddenCost storeId (savedId request db) db) := by
      intro db hfits
      refine ⟨by simp [savedValues, savedCost, hblind, hiddenCost], ?_⟩
      unfold hiddenCost
      cases hfind : find storeId (savedId request db) db with
      | none => exact moneyOverflows_zero
      | some p => exact fun hover => hfits.products ⟨_, p, (find_eq_some.mp hfind).1, Or.inl hover⟩
    have hpassed : ∀ {db : Db}, Fits db → actor.can .manageProducts = true →
        ¬ moneyFromF64 request.sellingPrice < hiddenCost storeId (savedId request db) db →
        ((∀ d ∈ passed now storeId actor (.product request) db, Fits d) ↔
          ¬ MoneyOverflows (moneyFromF64 request.sellingPrice) ∧
          ¬ DecimalRange.QuantityOverflows (quantityFromF64 request.openingStock) ∧
          ¬ DecimalRange.QuantityOverflows (quantityFromF64 request.reorderLevel)) := by
      intro db hfits hcan hlow
      rw [← (hcost hfits).1] at hlow
      simp only [passed, DecimalRange.inserted]
      rw [if_pos ⟨hcan, hlow⟩, insertedProduct_fits_iff]
      constructor
      · exact fun h => ⟨h.price, h.stock, h.reorderLevel⟩
      · rintro ⟨hprice, hstock, hlevel⟩
        refine ⟨?_, hprice, hstock, hlevel⟩
        rw [(hcost hfits).1]
        exact (hcost hfits).2
    have hnone : ∀ {db : Db}, Fits db → ¬ (actor.can .manageProducts = true ∧
        ¬ moneyFromF64 request.sellingPrice < hiddenCost storeId (savedId request db) db) →
        passed now storeId actor (.product request) db = [] := by
      intro db hfits hstop
      rw [← (hcost hfits).1] at hstop
      simp only [passed, DecimalRange.inserted]
      exact if_neg hstop
    by_cases hcan : actor.can .manageProducts = true
    · have hcheck := halike hcan
      by_cases hlow : moneyFromF64 request.sellingPrice < hiddenCost storeId (savedId request a) a
      · rw [hnone ha fun h => h.2 hlow, hnone hb fun h => h.2 (hcheck.mp hlow)]
      · rw [hpassed ha hcan hlow, hpassed hb hcan (mt hcheck.mpr hlow)]
    · rw [hnone ha fun h => hcan h.1, hnone hb fun h => hcan h.1]
  | movement request =>
    have hrow' : (PushRow.movement request).entity ≠ .product := by simp [PushRow.entity]
    change (∀ d ∈ DecimalRange.inserted now storeId actor (.movement request) a, Fits d) ↔
      ∀ d ∈ DecimalRange.inserted now storeId actor (.movement request) b, Fits d
    rw [← inserted_blind hrow' a, ← inserted_blind hrow' b, hab]
  | expense request =>
    have hrow' : (PushRow.expense request).entity ≠ .product := by simp [PushRow.entity]
    change (∀ d ∈ DecimalRange.inserted now storeId actor (.expense request) a, Fits d) ↔
      ∀ d ∈ DecimalRange.inserted now storeId actor (.expense request) b, Fits d
    rw [← inserted_blind hrow' a, ← inserted_blind hrow' b, hab]
  | withdrawal request =>
    have hrow' : (PushRow.withdrawal request).entity ≠ .product := by simp [PushRow.entity]
    change (∀ d ∈ DecimalRange.inserted now storeId actor (.withdrawal request) a, Fits d) ↔
      ∀ d ∈ DecimalRange.inserted now storeId actor (.withdrawal request) b, Fits d
    rw [← inserted_blind hrow' a, ← inserted_blind hrow' b, hab]
  | deletion request => exact Iff.rfl

/-- A row other than a sale that does not tell two states apart is stored
alike. -/
theorem shown_result_other (hblind : actor.can .viewProfit = false) {a b : StoredDb}
    (hab : blind a.1 = blind b.1) {row : PushRow} (hrow : row.entity ≠ .sale)
    (halike : RowAlike now storeId actor a.1 b.1 row) :
    shown (result now storeId actor row a) = shown (result now storeId actor row b) := by
  have hseen : seen (row.apply now storeId actor a.1) = seen (row.apply now storeId actor b.1) := by
    by_cases hproduct : row.entity = .product
    · cases row with
      | product request => exact seen_save hblind hab halike
      | _ => cases hproduct
    · rw [← seen_apply_blind hblind hproduct, hab, seen_apply_blind hblind hproduct]
  refine shown_stored (passed_alike hblind hab a.2 b.2 hrow halike) hseen ?_ ?_
  · exact fun id db' hok => CostsFit.of_apply hblind hrow (Fits.costs a.2) hok
  · exact fun id db' hok => CostsFit.of_apply hblind hrow (Fits.costs b.2) hok

/-- No other refusal of a product reads like that of its price. -/
theorem reason_of_upsert {id : Uuid} {values : ProductValues} {db : Db} {e : ApiError}
    (h : upsert now storeId id values db = .error e) : reasonOf e ≠ reasonOf priceRefusal := by
  unfold upsert at h
  cases hrow : upsertRow now storeId values (db.products.find? id) with
  | none =>
    rw [hrow] at h
    cases h
    decide
  | some row =>
    rw [hrow] at h
    dsimp only at h
    split_ifs at h
    cases h
    decide

/-- A product is refused for its price exactly when that is below the hidden
cost. -/
theorem told_priceRefusal (hblind : actor.can .viewProfit = false)
    (hcan : actor.can .manageProducts = true) (request : SaveProductRequest) (db : StoredDb) :
    told (result now storeId actor (.product request) db) = .error (reasonOf priceRefusal) ↔
      moneyFromF64 request.sellingPrice < hiddenCost storeId (savedId request db.1) db.1 := by
  have hsave := @save_eq now storeId actor hblind hcan request db.1
  have hinternal : reasonOf DecimalRange.numericOverflow ≠ reasonOf priceRefusal := by decide
  by_cases hlow : moneyFromF64 request.sellingPrice < hiddenCost storeId (savedId request db.1) db.1
  · have hcost : (savedValues actor request (find storeId (savedId request db.1) db.1)).costPrice =
        hiddenCost storeId (savedId request db.1) db.1 := by
      simp [savedValues, savedCost, hblind, hiddenCost]
    have hpassed : passed now storeId actor (.product request) db.1 = [] := by
      simp only [passed, DecimalRange.inserted]
      rw [if_neg]
      rintro ⟨-, hnot⟩
      exact hnot (by rw [hcost]; exact hlow)
    rw [if_pos hlow] at hsave
    refine iff_of_true ?_ hlow
    unfold result stored
    rw [hpassed, if_pos (List.forall_mem_nil _), PushRow.apply, hsave]
    rfl
  · rw [if_neg hlow] at hsave
    refine iff_of_false ?_ hlow
    unfold result stored
    rw [PushRow.apply, hsave]
    split_ifs
    · cases hw : upsert now storeId (savedId request db.1)
        (savedValues actor request (find storeId (savedId request db.1) db.1)) db.1 with
      | error e => exact fun h => reason_of_upsert hw (Except.error.inj h)
      | ok r =>
        dsimp only [Except.map]
        split_ifs
        · exact fun h => by cases h
        · exact fun h => hinternal (Except.error.inj h)
    · exact fun h => hinternal (Except.error.inj h)

/-- A sale's lines that are resolved are those before the first that is not. -/
theorem resolved_of_ok {db : Db} {items : List SaleLineRequest} {i : ℕ}
    {lines : List PreparedLine} (h : resolveLines storeId db items i = .ok lines) :
    resolved storeId db items i = lines := by
  induction items generalizing i lines with
  | nil =>
    cases h
    rfl
  | cons item rest ih =>
    obtain ⟨line, hline, h⟩ := bind_eq_ok.mp h
    obtain ⟨others, hothers, h⟩ := bind_eq_ok.mp h
    cases h
    simp only [resolved, hline, ih hothers]

/-- A sale whose statements fail fails for a reason it is not told. -/
theorem reason_of_recordLines {drawn : ℕ → Uuid} {sale : PreparedSale} {lines : List PreparedLine}
    {i : ℕ} {db : Db} {e : ApiError} (h : recordLines now drawn sale lines i db = .error e) :
    reasonOf e = reasonOf DecimalRange.numericOverflow := by
  induction lines generalizing i db with
  | nil => cases h
  | cons line rest ih =>
    have hline : ∀ {e : ApiError}, recordLine now (drawn i) sale line db = .error e →
        reasonOf e = reasonOf DecimalRange.numericOverflow := by
      intro e he
      unfold recordLine insertItem insertMovement at he
      split_ifs at he
      · cases he
        rfl
      · cases he
        rfl
      · simp only [bind, Except.bind] at he
        split at he
        · cases he
        · split_ifs at he <;> cases he <;> rfl
    cases hrecord : recordLine now (drawn i) sale line db with
    | error e' =>
      rw [recordLines, hrecord] at h
      cases h
      exact hline hrecord
    | ok db₁ =>
      rw [recordLines, hrecord] at h
      exact ih h

/-- What is known of a sale whose lines are resolved, before it is written. -/
structure Asked (now : Timestamp) (storeId : Uuid) (actor : Actor) (request : RecordSaleRequest)
    (db : Db) (sale : PreparedSale) : Prop where
  /-- What its statements pass through. -/
  states : passed now storeId actor (.sale request) db =
    DecimalRange.saleStates now (Uuid.newV4 db.stockMovements) sale (recorderOf actor) db
  /-- What becomes of it. -/
  applied : ∀ r, (PushRow.sale request).apply now storeId actor db = r →
    match SaleRepository.record now (Uuid.newV4 db.stockMovements) sale (recorderOf actor) db with
    | .error e => r = .error e
    | .ok (recorded, left) => ∃ db', r = .ok (some recorded.id, db') ∧ RowEffects.SameRows left db'
  /-- What it costs. -/
  cost : sale.costAmount = saleCost storeId actor request db
  /-- Its lines cost what is stored. -/
  lines : actor.can .viewProfit = false → CostsFit db →
    ∀ line ∈ sale.lines, ¬ MoneyOverflows line.unitCost
  /-- Its identifier. -/
  id : sale.id = request.id.getD (Uuid.newV4 db.sales 0)
  /-- Its store. -/
  ofStore : sale.storeId = storeId

/-- A sale is refused before it is written, and passes through nothing; or its
lines are resolved. -/
theorem asked_or_refused (request : RecordSaleRequest) (db : Db) :
    (∃ e, (PushRow.sale request).apply now storeId actor db = .error e ∧
      passed now storeId actor (.sale request) db = []) ∨
    ∃ sale, Asked now storeId actor request db sale := by
  cases hmethod : normalisePaymentMethod request.paymentMethod with
  | error e =>
    refine Or.inl ⟨e, ?_, ?_⟩
    · simp only [PushRow.apply, SaleService.record, hmethod]
      rfl
    · simp only [passed, hmethod]
  | ok method =>
    cases hlines : resolveLines storeId db (visibleItems actor request.items) 0 with
    | error e =>
      refine Or.inl ⟨e, ?_, ?_⟩
      · simp only [PushRow.apply, SaleService.record, hmethod, hlines]
        rfl
      · simp only [passed, hmethod, hlines]
    | ok lines =>
      right
      refine ⟨prepareSale now storeId (request.id.getD (Uuid.newV4 db.sales 0)) method request
        lines, ?_, ?_, ?_, ?_, rfl, rfl⟩
      · simp only [passed, hmethod, hlines]
      · rintro r rfl
        simp only [PushRow.apply, SaleService.record, hmethod, hlines, bind, Except.bind]
        cases SaleRepository.record now (Uuid.newV4 db.stockMovements)
          (prepareSale now storeId (request.id.getD (Uuid.newV4 db.sales 0)) method request lines)
          (recorderOf actor) db with
        | error e => rfl
        | ok r =>
          refine ⟨_, rfl, ?_⟩
          split_ifs <;> rfl
      · rw [saleCost, resolved_of_ok hlines]
        rfl
      · intro hblind hcosts
        exact unitCost_of_resolveLines (visibleItems_unitCost hblind request.items) hcosts hlines

/-- What a sale passes through without costs is the same in states that differ
in nothing else. -/
theorem passed_map_blind (hblind : actor.can .viewProfit = false) {a b : Db}
    (hab : blind a = blind b) (request : RecordSaleRequest) :
    (passed now storeId actor (.sale request) a).map blind =
      (passed now storeId actor (.sale request) b).map blind := by
  have hone : ∀ db : Db, (passed now storeId actor (.sale request) db).map blind =
      passed now storeId actor (.sale request) (blind db) := by
    intro db
    simp only [passed, resolveLines_blind (visibleItems_unitCost hblind request.items)]
    cases normalisePaymentMethod request.paymentMethod with
    | error e => rfl
    | ok method =>
      cases resolveLines storeId db (visibleItems actor request.items) 0 with
      | error e => rfl
      | ok lines =>
        have hsale : Uuid.newV4 (blind db).sales 0 = Uuid.newV4 db.sales 0 := rfl
        have hdrawn : Uuid.newV4 (blind db).stockMovements = Uuid.newV4 db.stockMovements := rfl
        simp only [Except.map, hsale, hdrawn, prepareSale_blind, saleStates_blind]
  rw [hone, hone, hab]

/-- What a sale leaves of the costs: those there were, and what it cost if it
was written. -/
theorem CostsFit.of_sale {request : RecordSaleRequest} {db left : Db} {sale : PreparedSale}
    {recorded : RecordedSale} (hasked : Asked now storeId actor request db sale)
    (hblind : actor.can .viewProfit = false) (h : CostsFit db)
    (hcost : Writes sale (recorderOf actor) db → ¬ MoneyOverflows (numericMoney sale.costAmount))
    (hok : SaleRepository.record now (Uuid.newV4 db.stockMovements) sale (recorderOf actor) db =
      .ok (recorded, left)) : CostsFit left := by
  have hwrite : ∀ {created : Bool} {d : Db}, CostsFit d → Writes sale (recorderOf actor) db →
      writeSale now (Uuid.newV4 db.stockMovements) sale (recorderOf actor) created d =
        .ok (recorded, left) → CostsFit left := by
    intro created d hd hwrites hw
    obtain ⟨left', hlines, he⟩ := bind_eq_ok.mp hw
    cases he
    have hupserted := (@costsFit_upsertSale now d hd sale (recorderOf actor).staffId).mpr
      (hcost hwrites)
    exact (costsFit_lines hupserted.deleteItems (hasked.lines hblind h)).2 left hlines
  unfold SaleRepository.record at hok
  cases hfind : db.sales.find? sale.id with
  | none =>
    rw [hfind] at hok
    refine hwrite h (fun existing hexisting => ?_) hok
    cases hfind.symm.trans hexisting
  | some existing =>
    rw [hfind] at hok
    dsimp only at hok
    split_ifs at hok with hstore hgone hother
    · cases hok
      exact h
    · refine hwrite h.undoSale (fun row hrow => ?_) hok
      cases hfind.symm.trans hrow
      refine ⟨not_not.mp hstore, by simpa using hgone, fun hstaff => ?_⟩
      by_contra hne
      exact hother ⟨hstaff, hne⟩

section Sale

variable {request : RecordSaleRequest} {a b : StoredDb} {sale sale' : PreparedSale}

theorem newV4_sales_of_blind {a b : Db} (hab : blind a = blind b) :
    Uuid.newV4 a.sales 0 = Uuid.newV4 b.sales 0 := by
  have hfresh : Uuid.newV4 (blind a).sales 0 = Uuid.newV4 (blind b).sales 0 := by rw [hab]
  exact hfresh

theorem fields_of_zeroSale {s t : Sale} (h : zeroSale s = zeroSale t) :
    s.storeId = t.storeId ∧ s.deletedAt = t.deletedAt ∧
      s.recordedByStaffId = t.recordedByStaffId := by
  have hstore := congrArg Sale.storeId h
  have hdeleted := congrArg Sale.deletedAt h
  have hstaff := congrArg Sale.recordedByStaffId h
  exact ⟨hstore, hdeleted, hstaff⟩

/-- Whether a sale is written has nothing to do with costs. -/
theorem Asked.writes_of_blind (ha : Asked now storeId actor request a.1 sale)
    (hb : Asked now storeId actor request b.1 sale') (hab : blind a.1 = blind b.1)
    (h : Writes sale (recorderOf actor) a.1) : Writes sale' (recorderOf actor) b.1 := by
  intro existing hexisting
  have hid : sale'.id = sale.id := by
    rw [ha.id, hb.id, newV4_sales_of_blind hab]
  have hsame := find?_of_blind hab sale.id
  rw [hid] at hexisting
  rw [hexisting, Option.map_some, Option.map_eq_some_iff] at hsame
  obtain ⟨row, hrow, hzero⟩ := hsame
  obtain ⟨hstore, hlive, hmay⟩ := h row hrow
  obtain ⟨hs, hd, hr⟩ := fields_of_zeroSale hzero
  rw [hs, ha.ofStore] at hstore
  exact ⟨hstore.trans hb.ofStore.symm, hd ▸ hlive, hr ▸ hmay⟩

/-- Nor has whether it is recorded but for them. -/
theorem recordedButForCosts_of_blind (hblind : actor.can .viewProfit = false) {a b : Db}
    (hab : blind a = blind b) (h : RecordedButForCosts now storeId actor request a) :
    RecordedButForCosts now storeId actor request b := by
  obtain ⟨hlive, hpassed, id, db', hok, hfits⟩ := h
  refine ⟨fun given existing hid hexisting => ?_, ?_, ?_⟩
  · have hsame := find?_of_blind hab given
    rw [hexisting, Option.map_some, Option.map_eq_some_iff] at hsame
    obtain ⟨row, hrow, hzero⟩ := hsame
    rw [← (fields_of_zeroSale hzero).2.1]
    exact hlive given row hid hrow
  · have hmap : ∀ d ∈ (passed now storeId actor (.sale request) a).map blind, Fits d := by
      intro d hd
      obtain ⟨d', hd', rfl⟩ := List.mem_map.mp hd
      exact hpassed d' hd'
    rw [passed_map_blind hblind hab] at hmap
    exact fun d hd => hmap _ (List.mem_map_of_mem hd)
  · have hrow : (PushRow.sale request).entity ≠ .product := by simp [PushRow.entity]
    have hseen : seen ((PushRow.sale request).apply now storeId actor a) =
        seen ((PushRow.sale request).apply now storeId actor b) := by
      rw [← seen_apply_blind hblind hrow, hab, seen_apply_blind hblind hrow]
    rw [hok] at hseen
    cases hb : (PushRow.sale request).apply now storeId actor b with
    | error e =>
      rw [hb] at hseen
      cases hseen
    | ok r =>
      rw [hb] at hseen
      have hdb : blind db' = blind r.2 := congrArg Prod.snd (Except.ok.inj hseen)
      exact ⟨r.1, r.2, rfl, hdb ▸ hfits⟩

/-- A sale that is recorded but for its costs is written. -/
theorem Asked.writes_of_recorded {db : Db} (hasked : Asked now storeId actor request db sale)
    (h : RecordedButForCosts now storeId actor request db) : Writes sale (recorderOf actor) db := by
  obtain ⟨hlive, -, id, db', hok, -⟩ := h
  intro existing hexisting
  have hgone : existing.deletedAt = none := by
    cases hid : request.id with
    | none =>
      rw [hasked.id, hid, Option.getD_none, Uuid.find?_newV4] at hexisting
      cases hexisting
    | some given =>
      rw [hasked.id, hid, Option.getD_some] at hexisting
      exact hlive given existing hid hexisting
  have happlied := hasked.applied _ hok
  unfold SaleRepository.record at happlied
  rw [hexisting] at happlied
  dsimp only at happlied
  by_cases hstore : existing.storeId = sale.storeId
  · rw [if_neg (not_not.mpr hstore), if_neg (by simp [hgone])] at happlied
    refine ⟨hstore, hgone, fun hstaff => ?_⟩
    by_contra hne
    rw [if_pos ⟨hstaff, hne⟩] at happlied
    cases happlied
  · rw [if_pos hstore] at happlied
    cases happlied

/-- What is written is stored exactly when all but its costs is in order and what
it costs fits its column. -/
theorem Asked.stored_iff (hasked : Asked now storeId actor request a.1 sale)
    (hblind : actor.can .viewProfit = false) (hwrites : Writes sale (recorderOf actor) a.1) :
    (∃ id db', result now storeId actor (.sale request) a = .ok (id, db')) ↔
      RecordedButForCosts now storeId actor request a.1 ∧
        ¬ MoneyOverflows (numericMoney (saleCost storeId actor request a.1)) := by
  have hcosts := Fits.costs a.2
  have hstates : (∀ d ∈ passed now storeId actor (.sale request) a.1, CostsFit d) ↔
      ¬ MoneyOverflows (numericMoney (saleCost storeId actor request a.1)) := by
    rw [hasked.states, ← hasked.cost]
    exact costsFit_saleStates hcosts (hasked.lines hblind hcosts) hwrites
  have hlive : ∀ id existing, request.id = some id → a.1.sales.find? id = some existing →
      existing.deletedAt = none := by
    intro id existing hid hexisting
    refine (hwrites existing ?_).2.1
    rw [hasked.id, hid, Option.getD_some, hexisting]
  constructor
  · rintro ⟨id, db', hok⟩
    obtain ⟨hpassed, hrow⟩ := stored_eq_ok.mp hok
    refine ⟨⟨hlive, fun d hd => (fits_iff_blind.mp (hpassed d hd)).1, id, db'.1, hrow,
      (fits_iff_blind.mp db'.2).1⟩, hstates.mp fun d hd => Fits.costs (hpassed d hd)⟩
  · rintro ⟨⟨-, hpassed, id, db', hrow, hfits⟩, hover⟩
    have hall := hstates.mpr hover
    have hleft : CostsFit db' := by
      have happlied := hasked.applied _ hrow
      cases hrecord : SaleRepository.record now (Uuid.newV4 a.1.stockMovements) sale
        (recorderOf actor) a.1 with
      | error e =>
        rw [hrecord] at happlied
        cases happlied
      | ok r =>
        rw [hrecord] at happlied
        obtain ⟨_, he, hrows⟩ := happlied
        cases he
        refine CostsFit.of_sameRows hrows (CostsFit.of_sale hasked hblind hcosts (fun _ => ?_) hrecord)
        rw [hasked.cost]
        exact hover
    exact ⟨id, ⟨db', fits_iff_blind.mpr ⟨hfits, hleft⟩⟩, stored_eq_ok.mpr
      ⟨fun d hd => fits_iff_blind.mpr ⟨hpassed d hd, hall d hd⟩, hrow⟩⟩

/-- What is written and not stored is put off. -/
theorem Asked.reason (hasked : Asked now storeId actor request a.1 sale)
    (hwrites : Writes sale (recorderOf actor) a.1) {e : ApiError}
    (h : result now storeId actor (.sale request) a = .error e) :
    reasonOf e = reasonOf DecimalRange.numericOverflow := by
  have hwrite : ∀ {created : Bool} {d : Db} {e : ApiError},
      writeSale now (Uuid.newV4 a.1.stockMovements) sale (recorderOf actor) created d = .error e →
        reasonOf e = reasonOf DecimalRange.numericOverflow := by
    intro created d e hw
    unfold writeSale at hw
    cases hlines : recordLines now (Uuid.newV4 a.1.stockMovements) sale sale.lines 0
      (deleteItems sale.id (upsertSale now sale (recorderOf actor).staffId d)) with
    | error e' =>
      rw [hlines] at hw
      cases hw
      exact reason_of_recordLines hlines
    | ok left =>
      rw [hlines] at hw
      cases hw
  have hrecord : ∀ {e : ApiError}, SaleRepository.record now (Uuid.newV4 a.1.stockMovements) sale
      (recorderOf actor) a.1 = .error e → reasonOf e = reasonOf DecimalRange.numericOverflow := by
    intro e hr
    unfold SaleRepository.record at hr
    cases hfind : a.1.sales.find? sale.id with
    | none =>
      rw [hfind] at hr
      exact hwrite hr
    | some existing =>
      obtain ⟨hstore, hlive, hmay⟩ := hwrites existing hfind
      rw [hfind] at hr
      dsimp only at hr
      rw [if_neg (not_not.mpr hstore), if_neg (by simp [hlive]), if_neg fun hother =>
        hother.2 (hmay hother.1)] at hr
      exact hwrite hr
  unfold result stored at h
  split_ifs at h
  · cases hrow : (PushRow.sale request).apply now storeId actor a.1 with
    | error e' =>
      rw [hrow] at h
      cases h
      have happlied := hasked.applied _ hrow
      cases hr : SaleRepository.record now (Uuid.newV4 a.1.stockMovements) sale
        (recorderOf actor) a.1 with
      | error e'' =>
        rw [hr] at happlied
        cases happlied
        exact hrecord hr
      | ok r =>
        rw [hr] at happlied
        obtain ⟨_, he, -⟩ := happlied
        cases he
    | ok r =>
      rw [hrow] at h
      dsimp only at h
      split_ifs at h
      cases h
      rfl
  · cases h
    rfl

theorem seen_sale (hblind : actor.can .viewProfit = false) {a b : Db} (hab : blind a = blind b) :
    seen ((PushRow.sale request).apply now storeId actor a) =
      seen ((PushRow.sale request).apply now storeId actor b) := by
  have hrow : (PushRow.sale request).entity ≠ .product := by simp [PushRow.entity]
  rw [← seen_apply_blind hblind hrow, hab, seen_apply_blind hblind hrow]

/-- A sale that is not written is stored alike. -/
theorem shown_sale_unwritten (hblind : actor.can .viewProfit = false) (hab : blind a.1 = blind b.1)
    (ha : passed now storeId actor (.sale request) a.1 = [])
    (hleft : ∀ db : StoredDb, blind db.1 = blind a.1 → ∀ id db',
      (PushRow.sale request).apply now storeId actor db.1 = .ok (id, db') → CostsFit db') :
    shown (result now storeId actor (.sale request) a) =
      shown (result now storeId actor (.sale request) b) := by
  have hb : passed now storeId actor (.sale request) b.1 = [] := by
    have hmap := @passed_map_blind now storeId actor hblind _ _ hab request
    rw [ha, List.map_nil] at hmap
    exact List.map_eq_nil_iff.mp hmap.symm
  refine shown_stored ?_ (seen_sale hblind hab) (hleft a rfl) (hleft b hab.symm)
  rw [ha, hb]

/-- A sale that does not tell two states apart is stored alike. -/
theorem shown_sale (hblind : actor.can .viewProfit = false) (hab : blind a.1 = blind b.1)
    (halike : RecordedButForCosts now storeId actor request a.1 →
      (MoneyOverflows (numericMoney (saleCost storeId actor request a.1)) ↔
        MoneyOverflows (numericMoney (saleCost storeId actor request b.1)))) :
    shown (result now storeId actor (.sale request) a) =
      shown (result now storeId actor (.sale request) b) := by
  have hseen := @seen_sale now storeId actor request hblind a.1 b.1 hab
  rcases @asked_or_refused now storeId actor request a.1 with ⟨e, hrefused, hnone⟩ | ⟨sale, ha⟩
  · refine shown_sale_unwritten hblind hab hnone fun db hdb id db' hok => ?_
    have hsame := @seen_sale now storeId actor request hblind db.1 a.1 hdb
    rw [hok, hrefused] at hsame
    cases hsame
  rcases @asked_or_refused now storeId actor request b.1 with ⟨e, hrefused, hnone⟩ | ⟨sale', hb⟩
  · have hsym := @shown_sale_unwritten now storeId actor request b a hblind hab.symm hnone
      fun db hdb id db' hok => (by
        have hsame := @seen_sale now storeId actor request hblind db.1 b.1 hdb
        rw [hok, hrefused] at hsame
        cases hsame)
    exact hsym.symm
  by_cases hwrites : Writes sale (recorderOf actor) a.1
  · have hwrites' := ha.writes_of_blind hb hab hwrites
    have hiff := ha.stored_iff hblind hwrites
    have hiff' := hb.stored_iff hblind hwrites'
    have hrecorded : RecordedButForCosts now storeId actor request a.1 ↔
        RecordedButForCosts now storeId actor request b.1 :=
      ⟨recordedButForCosts_of_blind hblind hab, recordedButForCosts_of_blind hblind hab.symm⟩
    have hboth : (∃ id db', result now storeId actor (.sale request) a = .ok (id, db')) ↔
        ∃ id db', result now storeId actor (.sale request) b = .ok (id, db') := by
      rw [hiff, hiff', ← hrecorded]
      exact and_congr_right fun hrec => not_congr (halike hrec)
    cases hra : result now storeId actor (.sale request) a with
    | error e =>
      cases hrb : result now storeId actor (.sale request) b with
      | error e' => rw [shown, shown, ha.reason hwrites hra, hb.reason hwrites' hrb]
      | ok r' =>
        obtain ⟨id, db', hok⟩ := hboth.mpr ⟨r'.1, r'.2, hrb⟩
        cases hra.symm.trans hok
    | ok r =>
      cases hrb : result now storeId actor (.sale request) b with
      | error e' =>
        obtain ⟨id, db', hok⟩ := hboth.mp ⟨r.1, r.2, hra⟩
        cases hrb.symm.trans hok
      | ok r' =>
        obtain ⟨-, hrow⟩ := stored_eq_ok.mp hra
        obtain ⟨-, hrow'⟩ := stored_eq_ok.mp hrb
        rw [hrow, hrow'] at hseen
        obtain ⟨hid, hdb⟩ := Prod.mk.inj (Except.ok.inj hseen)
        dsimp only at hid hdb
        rw [shown, shown, hid, hdb]
  · refine shown_sale_unwritten hblind hab (by rw [ha.states, saleStates_of_not_writes hwrites])
      fun db hdb id db' hok => ?_
    -- what is left alone has the costs it had
    rcases @asked_or_refused now storeId actor request db.1 with ⟨e, hrefused, -⟩ | ⟨other, hdbAsked⟩
    · cases hok.symm.trans hrefused
    · have happlied := hdbAsked.applied _ hok
      cases hrecord : SaleRepository.record now (Uuid.newV4 db.1.stockMovements) other
        (recorderOf actor) db.1 with
      | error e =>
        rw [hrecord] at happlied
        cases happlied
      | ok r =>
        rw [hrecord] at happlied
        obtain ⟨_, he, hrows⟩ := happlied
        cases he
        exact CostsFit.of_sameRows hrows (CostsFit.of_sale hdbAsked hblind (Fits.costs db.2)
          (fun hw => absurd (hdbAsked.writes_of_blind ha hdb hw) hwrites) hrecord)

end Sale

theorem told_of_shown {r r' : Except ApiError (Option Uuid × StoredDb)} (h : shown r = shown r') :
    told r = told r' := by
  have hmap : ∀ r, told r = (shown r).map Prod.fst := by
    intro r
    cases r <;> rfl
  rw [hmap, hmap, h]

/-- What is told of a sale tells two states apart exactly when its cost does. -/
theorem told_sale_iff (hblind : actor.can .viewProfit = false) {request : RecordSaleRequest}
    {a b : StoredDb} (hab : blind a.1 = blind b.1) :
    told (result now storeId actor (.sale request) a) =
        told (result now storeId actor (.sale request) b) ↔
      (RecordedButForCosts now storeId actor request a.1 →
        (MoneyOverflows (numericMoney (saleCost storeId actor request a.1)) ↔
          MoneyOverflows (numericMoney (saleCost storeId actor request b.1)))) := by
  constructor
  · intro htold hrec
    have hrec' := recordedButForCosts_of_blind hblind hab hrec
    have hstored : ∀ {db : StoredDb}, RecordedButForCosts now storeId actor request db.1 →
        ((∃ id, told (result now storeId actor (.sale request) db) = .ok id) ↔
          ¬ MoneyOverflows (numericMoney (saleCost storeId actor request db.1))) := by
      intro db hrec
      rcases @asked_or_refused now storeId actor request db.1 with ⟨e, hrefused, -⟩ | ⟨sale, hasked⟩
      · obtain ⟨-, -, id, db', hok, -⟩ := hrec
        cases hok.symm.trans hrefused
      · have hiff := hasked.stored_iff hblind (hasked.writes_of_recorded hrec)
        rw [and_iff_right hrec] at hiff
        rw [← hiff]
        cases result now storeId actor (.sale request) db with
        | error e => simp [told]
        | ok r => exact iff_of_true ⟨r.1, rfl⟩ ⟨r.1, r.2, rfl⟩
    rw [← not_iff_not, ← hstored hrec, ← hstored hrec', htold]
  · exact fun halike => told_of_shown (shown_sale hblind hab halike)

/-- A row is answered where its arithmetic stays in range. -/
theorem verdict_of_inRange {row : PushRow} {db : StoredDb}
    (h : RowInRange storeId actor db.1 row) :
    verdict now storeId actor row db = some (told (result now storeId actor row db)) := by
  obtain ⟨r, hr⟩ := Option.isSome_iff_exists.mp
    ((@DecimalRange.apply_isSome now storeId actor row db).mpr h)
  rw [verdict, hr, Option.map_some, DecimalRange.apply_eq hr]

theorem verdict_eq_none {row : PushRow} {db : StoredDb} :
    verdict now storeId actor row db = none ↔ ¬ RowInRange storeId actor db.1 row := by
  rw [← @DecimalRange.apply_isSome now storeId actor row db, verdict, Option.map_eq_none_iff,
    Option.not_isSome_iff_eq_none]

/-- Only the arithmetic of a sale looks at costs. -/
theorem inRange_of_blind {row : PushRow} (hrow : row.entity ≠ .sale) {a b : Db}
    (hab : blind a = blind b) (h : RowInRange storeId actor a row) :
    RowInRange storeId actor b row := by
  cases row with
  | sale request => exact absurd rfl hrow
  | movement request =>
    intro hcan hkind product hfind
    have hsame : (find storeId request.productId a).map zeroProduct =
        (find storeId request.productId b).map zeroProduct := by
      rw [← find_blind, ← find_blind, hab]
    rw [hfind, Option.map_some, Option.map_eq_some_iff] at hsame
    obtain ⟨p, hp, hzero⟩ := hsame
    have hstock := congrArg Product.stockQuantity hzero
    have hin := h hcan hkind p hp
    rwa [show p.stockQuantity = product.stockQuantity from hstock] at hin
  | product request => trivial
  | expense request => trivial
  | withdrawal request => trivial
  | deletion request => trivial

/-- What becomes of a row tells two states apart exactly when the row does. -/
theorem verdict_eq_iff (hblind : actor.can .viewProfit = false) {row : PushRow} {a b : StoredDb}
    (hab : blind a.1 = blind b.1) :
    verdict now storeId actor row a = verdict now storeId actor row b ↔
      RowAlike now storeId actor a.1 b.1 row := by
  by_cases hrow : row.entity = .sale
  · cases row with
    | sale request =>
      constructor
      · intro h
        have hrange : SaleInRange storeId actor request a.1 ↔ SaleInRange storeId actor request b.1 := by
          have hnone := @verdict_eq_none now storeId actor (.sale request) a
          rw [h, verdict_eq_none] at hnone
          exact not_iff_not.mp hnone.symm
        refine ⟨hrange, fun hin => ?_⟩
        rw [@verdict_of_inRange now storeId actor (.sale request) a hin,
          @verdict_of_inRange now storeId actor (.sale request) b (hrange.mp hin)] at h
        exact (told_sale_iff hblind hab).mp (Option.some.inj h)
      · rintro ⟨hrange, halike⟩
        by_cases hin : SaleInRange storeId actor request a.1
        · rw [@verdict_of_inRange now storeId actor (.sale request) a hin,
            @verdict_of_inRange now storeId actor (.sale request) b (hrange.mp hin),
            (told_sale_iff hblind hab).mpr (halike hin)]
        · rw [(@verdict_eq_none now storeId actor (.sale request) a).mpr hin,
            (@verdict_eq_none now storeId actor (.sale request) b).mpr (mt hrange.mpr hin)]
    | _ => cases hrow
  · by_cases hin : RowInRange storeId actor a.1 row
    · have hin' := inRange_of_blind hrow hab hin
      rw [verdict_of_inRange hin, verdict_of_inRange hin', Option.some.injEq]
      refine ⟨fun h => ?_, fun halike => told_of_shown (shown_result_other hblind hab hrow halike)⟩
      cases row with
      | product request =>
        intro hcan
        rw [← told_priceRefusal hblind hcan, ← told_priceRefusal hblind hcan, h]
      | sale request => exact absurd rfl hrow
      | movement request => trivial
      | expense request => trivial
      | withdrawal request => trivial
      | deletion request => trivial
    · cases row with
      | sale request => exact absurd rfl hrow
      | product request => exact absurd trivial hin
      | movement request =>
        have hin' : ¬ RowInRange storeId actor b.1 (.movement request) := fun h =>
          hin (inRange_of_blind hrow hab.symm h)
        rw [verdict_eq_none.mpr hin, verdict_eq_none.mpr hin']
        exact iff_of_true rfl trivial
      | expense request => exact absurd trivial hin
      | withdrawal request => exact absurd trivial hin
      | deletion request => exact absurd trivial hin

/-- A row that does not tell two states apart is answered in both or neither. -/
theorem inRange_of_alike (now : Timestamp) (hblind : actor.can .viewProfit = false) {row : PushRow}
    {a b : StoredDb} (hab : blind a.1 = blind b.1) (halike : RowAlike now storeId actor a.1 b.1 row)
    (hin : RowInRange storeId actor a.1 row) : RowInRange storeId actor b.1 row := by
  by_contra hout
  have hverdict := (verdict_eq_iff hblind hab).mpr halike
  rw [verdict_eq_none.mpr hout, verdict_of_inRange hin] at hverdict
  cases hverdict

/-- What a row leaves differs in nothing but costs. -/
theorem blind_rowLeft (hblind : actor.can .viewProfit = false) {row : PushRow} {a b : StoredDb}
    (hab : blind a.1 = blind b.1) (halike : RowAlike now storeId actor a.1 b.1 row)
    (hin : RowInRange storeId actor a.1 row) :
    blind (rowLeft now storeId actor row a).1 = blind (rowLeft now storeId actor row b).1 := by
  have hin' := inRange_of_alike now hblind hab halike hin
  have hshown : shown (result now storeId actor row a) = shown (result now storeId actor row b) := by
    by_cases hrow : row.entity = .sale
    · cases row with
      | sale request => exact shown_sale hblind hab (halike.2 hin)
      | _ => cases hrow
    · exact shown_result_other hblind hab hrow halike
  have hleft : ∀ {db : StoredDb}, RowInRange storeId actor db.1 row →
      blind (rowLeft now storeId actor row db).1 =
        match shown (result now storeId actor row db) with
        | .ok (_, left) => left
        | .error _ => blind db.1 := by
    intro db hdb
    obtain ⟨r, hr⟩ := Option.isSome_iff_exists.mp
      ((@DecimalRange.apply_isSome now storeId actor row db).mpr hdb)
    rw [rowLeft, hr, ← DecimalRange.apply_eq hr]
    cases r <;> rfl
  rw [hleft hin, hleft hin', hshown, hab]

/-- Rows are reported alike exactly when none tells the states apart; and then
what they leave differs in nothing but costs. -/
theorem verdicts_eq_iff (hblind : actor.can .viewProfit = false) {rows : List PushRow}
    {a b : StoredDb} (hab : blind a.1 = blind b.1) :
    (verdicts now storeId actor rows a = verdicts now storeId actor rows b ↔
      RowsAlike now storeId actor rows a b) ∧
    (RowsAlike now storeId actor rows a b →
      blind (rowsLeft now storeId actor rows a).1 = blind (rowsLeft now storeId actor rows b).1) := by
  induction rows generalizing a b with
  | nil => exact ⟨iff_of_true rfl trivial, fun _ => hab⟩
  | cons row rest ih =>
    have hrow := @verdict_eq_iff now storeId actor hblind row a b hab
    by_cases halike : RowAlike now storeId actor a.1 b.1 row
    · have hverdict := hrow.mpr halike
      by_cases hin : RowInRange storeId actor a.1 row
      · have hsome := @verdict_of_inRange now storeId actor row a hin
        have hgo := (@DecimalRange.apply_isSome now storeId actor row a).mpr hin
        have hgo' := (@DecimalRange.apply_isSome now storeId actor row b).mpr
          (inRange_of_alike now hblind hab halike hin)
        obtain ⟨hiff, hleft⟩ := ih (@blind_rowLeft now storeId actor hblind row a b hab halike hin)
        simp only [verdicts, RowsAlike, ← hverdict, hsome, List.cons.injEq, true_and, halike, hin,
          true_imp_iff]
        rw [rowsLeft_of_isSome hgo, rowsLeft_of_isSome hgo']
        exact ⟨hiff, hleft⟩
      · have hnone := (@verdict_eq_none now storeId actor row a).mpr hin
        have hnone' := verdict_eq_none.mp (hverdict.symm.trans hnone)
        rw [← @DecimalRange.apply_isSome now] at hin hnone'
        rw [rowsLeft_of_not_isSome hin, rowsLeft_of_not_isSome hnone']
        rw [DecimalRange.apply_isSome] at hin
        simp only [verdicts, RowsAlike, ← hverdict, hnone, halike, hin, false_imp_iff, and_self,
          true_and, true_imp_iff]
        exact hab
    · have hverdict := mt hrow.mp halike
      refine ⟨iff_of_false (fun h => hverdict ?_) fun h => halike h.1, fun h => absurd h.1 halike⟩
      simp only [verdicts] at h
      cases hva : verdict now storeId actor row a with
      | none =>
        cases hvb : verdict now storeId actor row b with
        | none => rfl
        | some v =>
          rw [hva, hvb] at h
          cases h
      | some v =>
        cases hvb : verdict now storeId actor row b with
        | none =>
          rw [hva, hvb] at h
          cases h
        | some v' =>
          rw [hva, hvb] at h
          exact (List.cons.inj h).1

/-- Rows reported alike come to the same outcome. -/
theorem outcome_of_verdicts {rows : List PushRow} {a b : StoredDb} (o : Outcome)
    (h : verdicts now storeId actor rows a = verdicts now storeId actor rows b) :
    (rows.foldlM (DecimalRange.pushRow now storeId actor) (o, a)).map Prod.fst =
      (rows.foldlM (DecimalRange.pushRow now storeId actor) (o, b)).map Prod.fst := by
  induction rows generalizing o a b with
  | nil => rfl
  | cons row rest ih =>
    -- the outcome after a row is read off what is told of it
    have hnoted : ∀ (db : StoredDb) (v : Except String (Option Uuid)),
        verdict now storeId actor row db = some v →
        DecimalRange.pushRow now storeId actor (o, db) row = some (match v with
          | .ok id => o.addAppliedIfKnown row.entity id
          | .error reason => { o with rejected := o.rejected ++ [⟨row.entity, row.id?, reason⟩] },
          rowLeft now storeId actor row db) := by
      intro db v hv
      obtain ⟨r, hr, rfl⟩ := Option.map_eq_some_iff.mp hv
      rw [DecimalRange.pushRow, hr, rowLeft, hr]
      cases r <;> rfl
    have hnone : ∀ db : StoredDb, verdict now storeId actor row db = none →
        DecimalRange.pushRow now storeId actor (o, db) row = none := by
      intro db hv
      rw [DecimalRange.pushRow, Option.map_eq_none_iff.mp hv]
      rfl
    simp only [verdicts] at h
    rw [List.foldlM_cons, List.foldlM_cons]
    cases hva : verdict now storeId actor row a with
    | none =>
      cases hvb : verdict now storeId actor row b with
      | none =>
        rw [hnone a hva, hnone b hvb]
      | some v =>
        rw [hva, hvb] at h
        cases h
    | some v =>
      cases hvb : verdict now storeId actor row b with
      | none =>
        rw [hva, hvb] at h
        cases h
      | some v' =>
        rw [hva, hvb] at h
        obtain ⟨hv, hrest⟩ := List.cons.inj h
        cases hv
        rw [hnoted a v hva, hnoted b v hvb]
        exact ih _ hrest

end Row

/-- Pushes reported alike row by row are answered alike. -/
theorem answers_of_reports {actor : Actor} {sent : List SentPush} {a b : StoredDb}
    (h : reports actor sent a = reports actor sent b) :
    answers actor sent a = answers actor sent b := by
  induction sent generalizing a b with
  | nil => rfl
  | cons first rest ih =>
    obtain ⟨hfirst, hrest⟩ := List.cons.inj h
    have houtcome := outcome_of_verdicts Outcome.empty hfirst
    have hanswer : ∀ db : StoredDb,
        (DecimalRange.push first.now first.storeId actor first.request db).map Prod.fst =
          ((((rows first.now first.request).foldlM
            (DecimalRange.pushRow first.now first.storeId actor) (Outcome.empty, db)).map Prod.fst).map
              fun o => ⟨o.applied, o.rejected, first.now⟩) := by
      intro db
      rw [DecimalRange.push, Option.map_map, Option.map_map]
      rfl
    rw [answers, answers, hanswer, hanswer, houtcome, ih hrest]

/-- Pushes by somebody without profit access are reported alike, row by row, by
two states that differ in nothing but costs exactly when no row tells the states
apart that it meets; and then they are answered alike. -/
theorem reports_eq_iff (actor : Actor) (hblind : actor.can .viewProfit = false)
    (sent : List SentPush) (a b : StoredDb) (hab : SameButCosts a.1 b.1) :
    (reports actor sent a = reports actor sent b ↔ PushesAlike actor sent a b) ∧
      (PushesAlike actor sent a b → answers actor sent a = answers actor sent b) := by
  have hiff : ∀ {a b : StoredDb}, blind a.1 = blind b.1 →
      (reports actor sent a = reports actor sent b ↔ PushesAlike actor sent a b) := by
    induction sent with
    | nil => exact fun _ => iff_of_true rfl trivial
    | cons first rest ih =>
      intro a b hseen
      obtain ⟨hrows, hleft⟩ := @verdicts_eq_iff first.now first.storeId actor hblind
        (rows first.now first.request) a b hseen
      rw [reports, reports, List.cons.injEq, hrows, PushesAlike]
      exact and_congr_right fun halike => ih (hleft halike)
  exact ⟨hiff hab.blind, fun halike => answers_of_reports ((hiff hab.blind).mpr halike)⟩

/-- A product of the first store. -/
def riceAt (cost : Money) : Product :=
  ⟨⟨1⟩, "Rice", none, "kg", cost, 75, 10, 0, true, 0, none⟩

/-- A store that sells rice bought at a cost. -/
def riceRows (cost : Money) : Db := { Db.empty with products := Table.empty.put ⟨10⟩ (riceAt cost) }

theorem riceRows_sameButCosts (a b : Money) : SameButCosts (riceRows a) (riceRows b) := by
  have hproducts : ∀ cost, (withoutCosts (riceRows cost)).products =
      Table.empty.put ⟨10⟩ (riceAt 0) := by
    intro cost
    exact Table.mapRows_put _ (fun _ => SyncPull.zeroCost .products) _ _
  change Db.mk _ _ _ _ _ _ _ _ = Db.mk _ _ _ _ _ _ _ _
  exact congrArg (Db.mk · _ _ _ _ _ _ _) ((hproducts a).trans (hproducts b).symm)

/-- It was bought at 40. -/
def cheapRice : StoredDb := ⟨riceRows 40, by decide +kernel⟩

/-- It was bought at 60. -/
def dearRice : StoredDb := ⟨riceRows 60, by decide +kernel⟩

/-- Somebody who may manage products but not see profit. -/
def shelfManager : Actor :=
  ⟨⟨2⟩, "Ben", "Tablet", some ⟨⟨3⟩, ⟨true, false, false, false⟩⟩⟩

/-- A push that saves the rice at a price. -/
def repriced (price : ℚ) : SentPush :=
  ⟨5, ⟨1⟩, ⟨[⟨some ⟨10⟩, "Rice", none, "kg", 0, price, 0, 0⟩], [], [], [], [], []⟩⟩

theorem reports_eq_iff_repriced :
    reports shelfManager [repriced 75] cheapRice = reports shelfManager [repriced 75] dearRice ∧
      answers shelfManager [repriced 75] cheapRice = answers shelfManager [repriced 75] dearRice := by
  have halike : PushesAlike shelfManager [repriced 75] cheapRice dearRice := by
    refine ⟨⟨fun _ => ?_, fun _ => trivial⟩, trivial⟩
    decide +kernel
  obtain ⟨hreports, hanswers⟩ := reports_eq_iff shelfManager (by decide) [repriced 75] cheapRice
    dearRice (riceRows_sameButCosts 40 60)
  exact ⟨hreports.mpr halike, hanswers halike⟩

/-- A price between two costs tells them apart. -/
theorem price_tells_costs_apart :
    SameButCosts cheapRice.1 dearRice.1 ∧ shelfManager.can .viewProfit = false ∧
      answers shelfManager [repriced 50] cheapRice ≠ answers shelfManager [repriced 50] dearRice :=
  ⟨riceRows_sameButCosts 40 60, by decide, by decide +kernel⟩

/-- So does an amount, for somebody who may not touch products at all: what it
costs fits its column once only. -/
example : answers ⟨⟨2⟩, "Ana", "till", some ⟨⟨3⟩, ⟨false, false, false, false⟩⟩⟩
      [⟨5, ⟨1⟩, ⟨[], [], [⟨some ⟨20⟩, none, 0, none, none,
        [⟨some ⟨30⟩, some ⟨10⟩, none, 2 * 10 ^ 10, some 0, none⟩]⟩], [], [], []⟩⟩] cheapRice ≠
    answers ⟨⟨2⟩, "Ana", "till", some ⟨⟨3⟩, ⟨false, false, false, false⟩⟩⟩
      [⟨5, ⟨1⟩, ⟨[], [], [⟨some ⟨20⟩, none, 0, none, none,
        [⟨some ⟨30⟩, some ⟨10⟩, none, 2 * 10 ^ 10, some 0, none⟩]⟩], [], [], []⟩⟩] dearRice := by
  decide +kernel

end Kitaza.CostOracle
