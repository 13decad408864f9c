import Kitaza.DecimalRange
import Kitaza.StableSort

/-!
# One refused row and the rest of its push

A row that a service or the database refuses is reported and changes
nothing else: its push leaves the tables and the other rows' outcomes as
they would be without it. Two refusals are different. Field validation looks
at the body as a whole, so one row that breaks a field rule refuses every row
of the push and is not reported as a row at all. And a row whose figures leave
the decimal range aborts the request, so nobody is told of any row.
-/

namespace Kitaza.RowIndependence

open KeyedTable Primitives Access Schema Payloads
open SyncPush hiding push pushRow pushChanges
open DecimalRange (StoredDb AllInRange InRange push pushRow pushChanges)

/-- The second body is the first with the row added at some place of the
list of its kind. -/
inductive Inserted : PushRow → PushRequest → PushRequest → Prop where
  | product (body : PushRequest) (r : SaveProductRequest) (before after : List SaveProductRequest) :
      body.products = before ++ after →
      Inserted (.product r) body { body with products := before ++ r :: after }
  | sale (body : PushRequest) (r : RecordSaleRequest) (before after : List RecordSaleRequest) :
      body.sales = before ++ after →
      Inserted (.sale r) body { body with sales := before ++ r :: after }
  | movement (body : PushRequest) (r : RecordMovementRequest)
      (before after : List RecordMovementRequest) :
      body.stockMovements = before ++ after →
      Inserted (.movement r) body { body with stockMovements := before ++ r :: after }
  | expense (body : PushRequest) (r : RecordExpenseRequest)
      (before after : List RecordExpenseRequest) :
      body.expenses = before ++ after →
      Inserted (.expense r) body { body with expenses := before ++ r :: after }
  | withdrawal (body : PushRequest) (r : RecordWithdrawalRequest)
      (before after : List RecordWithdrawalRequest) :
      body.withdrawals = before ++ after →
      Inserted (.withdrawal r) body { body with withdrawals := before ++ r :: after }
  | deletion (body : PushRequest) (r : DeletionRequest) (before after : List DeletionRequest) :
      body.deletions = before ++ after →
      Inserted (.deletion r) body { body with deletions := before ++ r :: after }

/-- No row of the body is reported under the row's kind and identifier. -/
def Fresh (now : Timestamp) (row : PushRow) (body : PushRequest) : Prop :=
  ∀ other ∈ rows now body, ¬ (other.entity = row.entity ∧ other.id? = row.id?)

instance (now : Timestamp) (row : PushRow) (body : PushRequest) :
    Decidable (Fresh now row body) :=
  inferInstanceAs (Decidable (∀ other ∈ rows now body, _))

/-- Whether the rows, applied in turn, come to the row and it is applied. -/
def takes (now : Timestamp) (storeId : Uuid) (actor : Actor) (row : PushRow) :
    List PushRow → StoredDb → Bool
  | [], _ => false
  | r :: rest, db =>
    match DecimalRange.apply now storeId actor r db with
    | none => false
    | some (.ok (_, db')) => r = row || takes now storeId actor row rest db'
    | some (.error _) => takes now storeId actor row rest db

/-- The server refuses the row: by a field rule, or because it is not applied
when its turn in the push comes. -/
def Refuses (now : Timestamp) (storeId : Uuid) (actor : Actor) (row : PushRow)
    (body : PushRequest) (db : StoredDb) : Prop :=
  ¬ row.Valid ∨ takes now storeId actor row (rows now body) db = false

/-- Sending the larger body does to the other rows and to the tables what
sending the smaller one does, and reports the extra row as refused. -/
def RowIndependent (now : Timestamp) (storeId : Uuid) (actor : Actor) (row : PushRow)
    (body body' : PushRequest) (db : StoredDb) : Prop :=
  ∃ outcome outcome' db', pushChanges now storeId actor body db = some (.ok (outcome, db')) ∧
    pushChanges now storeId actor body' db = some (.ok (outcome', db')) ∧
    outcome'.applied = outcome.applied ∧
    ∃ reason, outcome'.rejected.Perm (⟨row.entity, row.id?, reason⟩ :: outcome.rejected)

theorem pushChanges_of_valid {now : Timestamp} {storeId : Uuid} {actor : Actor}
    {body : PushRequest} {db : StoredDb} (h : body.Valid) :
    pushChanges now storeId actor body db = (push now storeId actor body db).map .ok := by
  simp only [pushChanges, validatedJson, if_pos h]

theorem pushChanges_of_not_valid {now : Timestamp} {storeId : Uuid} {actor : Actor}
    {body : PushRequest} {db : StoredDb} (h : ¬ body.Valid) :
    pushChanges now storeId actor body db = some (.error (.badRequest "")) := by
  simp only [pushChanges, validatedJson, if_neg h]

/-- The larger body obeys the field rules exactly when the smaller one and
the extra row do. -/
theorem Inserted.valid_iff {row : PushRow} {body body' : PushRequest}
    (h : Inserted row body body') : body'.Valid ↔ row.Valid ∧ body.Valid := by
  cases h <;> rename_i hb <;>
    simp only [PushRequest.Valid, PushRow.Valid, hb, List.forall_mem_append,
      List.forall_mem_cons] <;> tauto

/-- A body whose timeline has one entry more has one row more. -/
theorem rows_insert_event (now : Timestamp) (body body' : PushRequest) (event : StockEvent)
    (before after : List StockEvent) (hp : body'.products = body.products)
    (he : body'.expenses = body.expenses) (hw : body'.withdrawals = body.withdrawals)
    (hd : body'.deletions = body.deletions)
    (h : intoTimeline now body.sales body.stockMovements = before ++ after)
    (h' : intoTimeline now body'.sales body'.stockMovements = before ++ event :: after) :
    ∃ before after, rows now body = before ++ after ∧
      rows now body' = before ++ .ofEvent event :: after := by
  refine ⟨body.products.map .product ++ before.map .ofEvent, after.map .ofEvent ++
    body.expenses.map .expense ++ body.withdrawals.map .withdrawal ++
    body.deletions.map .deletion, ?_, ?_⟩
  · simp only [rows, h, List.map_append, List.append_assoc]
  · simp only [rows, h', hp, he, hw, hd, List.map_append, List.map_cons, List.append_assoc,
      List.cons_append]

/-- The extra row is one row more in the order of application; the other
rows keep their order. -/
theorem Inserted.rows_eq {row : PushRow} {body body' : PushRequest} (now : Timestamp)
    (h : Inserted row body body') :
    ∃ before after, rows now body = before ++ after ∧ rows now body' = before ++ row :: after := by
  cases h with
  | product _ r before after hb =>
    refine ⟨before.map .product, after.map .product ++
      (intoTimeline now body.sales body.stockMovements).map .ofEvent ++
      body.expenses.map .expense ++ body.withdrawals.map .withdrawal ++
      body.deletions.map .deletion, ?_, ?_⟩
    · simp only [rows, hb, List.map_append, List.append_assoc]
    · simp only [rows, List.map_append, List.map_cons, List.append_assoc, List.cons_append]
  | sale _ r before after hb =>
    obtain ⟨before', after', h₁, h₂⟩ := StableSort.insertionSort_insert (StockEvent.NoLater now)
      (.sale r) (before.map .sale)
      (after.map StockEvent.sale ++ body.stockMovements.map StockEvent.movement)
    refine rows_insert_event now body { body with sales := before ++ r :: after } (.sale r)
      before' after' rfl rfl rfl rfl ?_ ?_
    · rw [intoTimeline, hb, List.map_append, List.append_assoc, h₁]
    · rw [intoTimeline, List.map_append, List.map_cons, List.append_assoc, List.cons_append, h₂]
  | movement _ r before after hb =>
    obtain ⟨before', after', h₁, h₂⟩ := StableSort.insertionSort_insert (StockEvent.NoLater now)
      (.movement r) (body.sales.map StockEvent.sale ++ before.map StockEvent.movement)
      (after.map StockEvent.movement)
    refine rows_insert_event now body { body with stockMovements := before ++ r :: after }
      (.movement r) before' after' rfl rfl rfl rfl ?_ ?_
    · rw [intoTimeline, hb, List.map_append, ← List.append_assoc, h₁]
    · rw [intoTimeline, List.map_append, List.map_cons, ← List.append_assoc, h₂]
  | expense _ r before after hb =>
    refine ⟨body.products.map .product ++
      (intoTimeline now body.sales body.stockMovements).map .ofEvent ++ before.map .expense,
      after.map .expense ++ body.withdrawals.map .withdrawal ++ body.deletions.map .deletion,
      ?_, ?_⟩
    · simp only [rows, hb, List.map_append, List.append_assoc]
    · simp only [rows, List.map_append, List.map_cons, List.append_assoc, List.cons_append]
  | withdrawal _ r before after hb =>
    refine ⟨body.products.map .product ++
      (intoTimeline now body.sales body.stockMovements).map .ofEvent ++
      body.expenses.map .expense ++ before.map .withdrawal,
      after.map .withdrawal ++ body.deletions.map .deletion, ?_, ?_⟩
    · simp only [rows, hb, List.map_append, List.append_assoc]
    · simp only [rows, List.map_append, List.map_cons, List.append_assoc, List.cons_append]
  | deletion _ r before after hb =>
    refine ⟨body.products.map .product ++
      (intoTimeline now body.sales body.stockMovements).map .ofEvent ++
      body.expenses.map .expense ++ body.withdrawals.map .withdrawal ++ before.map .deletion,
      after.map .deletion, ?_, ?_⟩
    · simp only [rows, hb, List.map_append, List.append_assoc]
    · simp only [rows, List.map_append, List.map_cons, List.append_assoc]

section

variable {now : Timestamp} {storeId : Uuid} {actor : Actor} {row : PushRow}

/-- One row reports after what was reported before it and reads only the
database. -/
theorem pushRow_append (o o' : Outcome) (db : StoredDb) :
    pushRow now storeId actor (o.append o', db) row =
      (pushRow now storeId actor (o', db) row).map fun s => (o.append s.1, s.2) := by
  unfold pushRow
  rw [Option.map_map]
  congr 1
  funext r
  cases r with
  | ok saved => simp only [Function.comp_apply, Outcome.append_addAppliedIfKnown]
  | error e => simp only [Function.comp_apply, Outcome.append_addRejected]

/-- So do rows applied one after another. -/
theorem pushRows_append (rows : List PushRow) (o o' : Outcome) (db : StoredDb) :
    rows.foldlM (pushRow now storeId actor) (o.append o', db) =
      (rows.foldlM (pushRow now storeId actor) (o', db)).map fun s => (o.append s.1, s.2) := by
  induction rows generalizing o' db with
  | nil => rfl
  | cons r rest ih =>
    rw [List.foldlM_cons, List.foldlM_cons, pushRow_append]
    cases hr : pushRow now storeId actor (o', db) r with
    | none => rfl
    | some s => exact ih s.1 s.2

/-- A row that is not taken among some rows is not taken among the last of
them. -/
theorem takes_append {before rest : List PushRow} {o : Outcome} {db : StoredDb}
    {s : Outcome × StoredDb} (hs : before.foldlM (pushRow now storeId actor) (o, db) = some s)
    (h : takes now storeId actor row (before ++ rest) db = false) :
    takes now storeId actor row rest s.2 = false := by
  induction before generalizing o db with
  | nil =>
    cases hs
    exact h
  | cons r before ih =>
    rw [List.foldlM_cons, Option.bind_eq_bind, Option.bind_eq_some_iff] at hs
    obtain ⟨u, hu, hs⟩ := hs
    obtain ⟨result, hresult, rfl⟩ := Option.map_eq_some_iff.mp hu
    rw [List.cons_append, takes, hresult] at h
    cases result with
    | error e => exact ih hs h
    | ok saved =>
      obtain ⟨id, db'⟩ := saved
      rw [Bool.or_eq_false_iff] at h
      exact ih hs h.2

/-- Rows around a row that is not taken: the same tables, the same applied
rows, one refusal more. -/
theorem pushRows_insert {before after : List PushRow} {db : StoredDb}
    {s' : Outcome × StoredDb} (h : takes now storeId actor row (before ++ row :: after) db = false)
    (hs' : (before ++ row :: after).foldlM (pushRow now storeId actor) (Outcome.empty, db) =
      some s') :
    ∃ s, (before ++ after).foldlM (pushRow now storeId actor) (Outcome.empty, db) = some s ∧
      s'.2 = s.2 ∧ s'.1.applied = s.1.applied ∧
      ∃ reason, s'.1.rejected.Perm (⟨row.entity, row.id?, reason⟩ :: s.1.rejected) := by
  rw [List.foldlM_append, Option.bind_eq_bind, Option.bind_eq_some_iff] at hs'
  obtain ⟨⟨o, db₁⟩, hbefore, hs'⟩ := hs'
  rw [List.foldlM_cons, Option.bind_eq_bind, Option.bind_eq_some_iff] at hs'
  obtain ⟨u, hu, hafter⟩ := hs'
  obtain ⟨result, hresult, rfl⟩ := Option.map_eq_some_iff.mp hu
  have hturn := takes_append hbefore h
  rw [takes, hresult] at hturn
  cases result with
  | ok saved => simp at hturn
  | error e =>
    have hrest : ∀ o', after.foldlM (pushRow now storeId actor) (o', db₁) =
        (after.foldlM (pushRow now storeId actor) (Outcome.empty, db₁)).map
          fun s => (o'.append s.1, s.2) := by
      intro o'
      rw [← pushRows_append, Outcome.append_empty]
    dsimp only at hafter
    rw [hrest, Option.map_eq_some_iff] at hafter
    obtain ⟨t, ht, rfl⟩ := hafter
    refine ⟨(o.append t.1, t.2), ?_, rfl, rfl, reasonOf e, ?_⟩
    · rw [List.foldlM_append, hbefore, Option.bind_eq_bind, Option.bind_some, hrest, ht]
      rfl
    · simp only [Outcome.append, Outcome.addRejected, List.append_assoc, List.singleton_append]
      exact List.perm_middle

/-- A refused row leaves the rest of its push alone exactly when the whole body
obeys the field rules and no row's figures leave the decimal range. -/
theorem row_independent_iff {body body' : PushRequest} {db : StoredDb}
    (hi : Inserted row body body') (hr : Refuses now storeId actor row body' db) :
    RowIndependent now storeId actor row body body' db ↔
      body'.Valid ∧ AllInRange now storeId actor (rows now body') db := by
  constructor
  · rintro ⟨_, _, _, _, hok, _⟩
    by_cases hv : body'.Valid
    · refine ⟨hv, ?_⟩
      rw [pushChanges_of_valid hv, Option.map_eq_some_iff] at hok
      obtain ⟨_, hpush, -⟩ := hok
      obtain ⟨s, hs, -⟩ := Option.map_eq_some_iff.mp hpush
      have hspec := @DecimalRange.pushRows_spec now storeId actor (rows now body')
        (fun r hrow => DecimalRange.valid_of_mem_rows hv hrow) (Outcome.empty, db)
      exact hspec.1.mp (by rw [hs]; rfl)
    · rw [pushChanges_of_not_valid hv] at hok
      cases hok
  · rintro ⟨hv, hrange⟩
    obtain ⟨hrow, hbody⟩ := hi.valid_iff.mp hv
    have htakes := hr.resolve_left (not_not_intro hrow)
    have hspec := @DecimalRange.pushRows_spec now storeId actor (rows now body')
      (fun r hrow => DecimalRange.valid_of_mem_rows hv hrow) (Outcome.empty, db)
    obtain ⟨s', hs'⟩ := Option.isSome_iff_exists.mp (hspec.1.mpr hrange)
    obtain ⟨before, after, h, h'⟩ := hi.rows_eq now
    rw [h'] at htakes hs'
    obtain ⟨s, hs, hdb, happlied, reason, hrejected⟩ := pushRows_insert htakes hs'
    refine ⟨⟨s.1.applied, s.1.rejected, now⟩, ⟨s'.1.applied, s'.1.rejected, now⟩, s.2, ?_, ?_,
      happlied, reason, hrejected⟩
    · rw [pushChanges_of_valid hbody, push, h, hs]
      rfl
    · rw [pushChanges_of_valid hv, push, h', hs', ← hdb]
      rfl

end

/-- An owner of some store. -/
def anOwner : Actor := ⟨⟨2⟩, "Ana", "Phone", none⟩

/-- A push of one good expense. -/
def oneExpense : PushRequest where
  products := []
  stockMovements := []
  sales := []
  expenses := [⟨some ⟨10⟩, "rent", none, 500, some 5⟩]
  withdrawals := []
  deletions := []

/-- A delivery of a product nobody has. -/
def strayDelivery : RecordMovementRequest := ⟨some ⟨12⟩, ⟨14⟩, "stock_in", 3, 0, none, some 4⟩

/-- The push with the stray delivery added keeps its expense. -/
theorem row_independent_iff_strayDelivery :
    RowIndependent 100 ⟨4⟩ anOwner (.movement strayDelivery) oneExpense
      { oneExpense with stockMovements := [] ++ strayDelivery :: [] } DecimalRange.unused :=
  (row_independent_iff (.movement oneExpense strayDelivery [] [] rfl)
    (Or.inr (by decide +kernel))).mpr
    ⟨by decide +kernel, fun _ hkind => absurd hkind (by decide +kernel), trivial, trivial⟩

/-- An expense whose amount is zero. -/
def zeroExpense : RecordExpenseRequest := ⟨some ⟨12⟩, "supplies", none, 0, some 6⟩

/-- A zero expense, added to the push of a good one, is refused and takes
the good one with it. -/
theorem zeroExpense_stops_the_batch :
    ∃ body', Inserted (.expense zeroExpense) oneExpense body' ∧
      Fresh 100 (.expense zeroExpense) oneExpense ∧
      Refuses 100 ⟨4⟩ anOwner (.expense zeroExpense) body' DecimalRange.unused ∧
      ¬ RowIndependent 100 ⟨4⟩ anOwner (.expense zeroExpense) oneExpense body'
        DecimalRange.unused := by
  refine ⟨_, .expense oneExpense zeroExpense [] oneExpense.expenses rfl, by decide,
    Or.inl (by decide +kernel), ?_⟩
  rintro ⟨_, _, _, _, hok, _⟩
  rw [pushChanges_of_not_valid (by decide +kernel)] at hok
  cases hok

end Kitaza.RowIndependence
