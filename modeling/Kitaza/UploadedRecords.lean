import Kitaza.OutboxDrain

/-!
# What an outbox leaves in the cloud

A record is live once everything that waited was accepted, exactly if a version
of it was sent and nothing undid that, or it was live before and nothing sent
undid it. What undoes a record depends on its kind: a removal after the last
version, for a sale one after any version, for a stock movement whatever undoes
the sale its note names.
-/

namespace Kitaza.UploadedRecords

open KeyedTable Primitives SyncPull SyncQueue OutboxDrain

variable {α : Type*}

/-- A change saves a version of a record. -/
def Saves (record : CloudRecord) (sent : Uuid × QueuedChange α) : Prop :=
  savedRecord sent.1 sent.2 = some record

/-- A change removes a record. -/
def Removes (record : CloudRecord) (sent : Uuid × QueuedChange α) : Prop :=
  removedRecord sent.1 sent.2 = some record

/-- The note that a change carries. -/
def noteOf (contents : Contents α) (c : QueuedChange α) : Option String :=
  match c.row.payload with
  | .record content => contents.note content
  | .deletion _ _ => none

/-- What is sent leaves a product, an expense or a withdrawal live: a version is
sent and no removal after it, or it is live and no removal is sent. -/
def PlainLive (cloud : Cloud) (sent : List (Uuid × QueuedChange α)) (record : CloudRecord) : Prop :=
  (∃ before c after, sent = before ++ c :: after ∧ Saves record c ∧
    ∀ d ∈ after, ¬Removes record d) ∨
  (Live cloud record ∧ ∀ d ∈ sent, ¬Removes record d)

/-- What is sent leaves a sale live: the cloud knows it and it is live and no
removal is sent, or the cloud does not know it, a version is sent, and no
removal is sent after any version. -/
def SaleLive (cloud : Cloud) (sent : List (Uuid × QueuedChange α)) (storeId saleId : Uuid) : Prop :=
  match cloud .sales saleId with
  | some _ => Live cloud (storeId, .sales, saleId) ∧
      ∀ d ∈ sent, ¬Removes (storeId, .sales, saleId) d
  | none => (∃ c ∈ sent, Saves (storeId, .sales, saleId) c) ∧
      ∀ before c after, sent = before ++ c :: after → Saves (storeId, .sales, saleId) c →
        ∀ d ∈ after, ¬Removes (storeId, .sales, saleId) d

/-- A change undoes a sale that is live when it comes, after the changes sent
before it. -/
def Undoes (cloud : Cloud) (sent : List (Uuid × QueuedChange α)) (storeId : Uuid)
    (note : Option String) (d : Uuid × QueuedChange α) : Prop :=
  ∃ saleId, note = some (saleNote saleId) ∧
    (Saves (storeId, .sales, saleId) d ∨ Removes (storeId, .sales, saleId) d) ∧
    SaleLive cloud sent storeId saleId

/-- What is sent leaves a stock movement live: it is live, or becomes known by
the first version sent, and the sale its note names is not undone from then on. -/
def MovementLive (contents : Contents α) (cloud : Cloud) (sent : List (Uuid × QueuedChange α))
    (storeId id : Uuid) : Prop :=
  match cloud .stockMovements id with
  | some r => Live cloud (storeId, .stockMovements, id) ∧
      ∀ before d after, sent = before ++ d :: after → ¬Undoes cloud before storeId r.note d
  | none => ∃ before c after, sent = before ++ c :: after ∧
      Saves (storeId, .stockMovements, id) c ∧
      (∀ e ∈ before, ∀ other, ¬Saves (other, .stockMovements, id) e) ∧
      ∀ between d rest, after = between ++ d :: rest →
        ¬Undoes cloud (before ++ c :: between) storeId (noteOf contents c.2) d

/-- What is sent leaves a record live. -/
def SentLive (contents : Contents α) (cloud : Cloud) (sent : List (Uuid × QueuedChange α))
    (record : CloudRecord) : Prop :=
  match record.2.1 with
  | .stockMovements => MovementLive contents cloud sent record.1 record.2.2
  | .sales => SaleLive cloud sent record.1 record.2.2
  | _ => PlainLive cloud sent record

/-- Where a list that was extended is cut. -/
theorem append_singleton_eq_split {β : Type*} {l before after : List β} {x c : β} :
    l ++ [x] = before ++ c :: after ↔ before = l ∧ c = x ∧ after = [] ∨
      ∃ rest, after = rest ++ [x] ∧ l = before ++ c :: rest := by
  rcases after.eq_nil_or_concat with rfl | ⟨rest, y, rfl⟩
  · rw [List.append_singleton_inj]
    constructor
    · rintro ⟨rfl, rfl⟩
      exact Or.inl ⟨rfl, rfl, rfl⟩
    · rintro (⟨rfl, rfl, -⟩ | ⟨rest, hrest, -⟩)
      · exact ⟨rfl, rfl⟩
      · exact absurd hrest (List.append_ne_nil_of_right_ne_nil rest (List.cons_ne_nil x [])).symm
  · rw [List.concat_eq_append, ← List.cons_append, ← List.append_assoc, List.append_singleton_inj]
    constructor
    · rintro ⟨rfl, rfl⟩
      exact Or.inr ⟨rest, rfl, rfl⟩
    · rintro (⟨-, -, hnil⟩ | ⟨rest', hrest, rfl⟩)
      · exact absurd hnil (List.append_ne_nil_of_right_ne_nil rest (List.cons_ne_nil y []))
      · obtain ⟨rfl, rfl⟩ := List.append_singleton_inj.mp hrest
        exact ⟨rfl, rfl⟩

section

variable {contents : Contents α} {cloud cloud' : Cloud} {x : Uuid × QueuedChange α}
  {table : SyncTable} {storeId id : Uuid}

theorem put_self (r : CloudRow) : cloud.put table id r table id = some r := by
  simp [Cloud.put]

theorem put_of_ne {table' : SyncTable} {id' : Uuid} (r : CloudRow)
    (h : ¬(table' = table ∧ id' = id)) : cloud.put table id r table' id' = cloud table' id' := by
  rw [Cloud.put]
  by_cases ht : table' = table
  · subst ht
    rw [Function.update_self, Function.update_of_ne fun hid => h ⟨rfl, hid⟩]
  · rw [Function.update_of_ne ht]

/-- Only movements are retired. -/
theorem retire_of_ne (saleId : Uuid) (htable : table ≠ .stockMovements) :
    retire storeId saleId cloud table id = cloud table id := by
  rw [retire]
  cases cloud table id with
  | none => rfl
  | some r => rw [Option.map_some, if_neg fun h => htable h.1]

/-- What an accepted change is: a version, a removal, or nothing. -/
inductive Accepted (contents : Contents α) (cloud : Cloud) (x : Uuid × QueuedChange α)
    (result : Option Cloud) : Prop where
  /-- A version of a record. -/
  | saved (table : SyncTable) (id : Uuid)
      (saves : ∀ record, Saves record x ↔ record = (x.1, table, id))
      (removes : ∀ record, ¬Removes record x)
      (leaves : result = acceptSaved x.1 table id
        (if table = .stockMovements then noteOf contents x.2 else none) cloud)
  /-- A removal of one. -/
  | removed (table : SyncTable) (id : Uuid) (named : table ≠ .stockMovements)
      (saves : ∀ record, ¬Saves record x)
      (removes : ∀ record, Removes record x ↔ record = (x.1, table, id))
      (leaves : result = some (acceptRemoved x.1 table id cloud))
  /-- Neither. -/
  | nothing (saves : ∀ record, ¬Saves record x) (removes : ∀ record, ¬Removes record x)
      (leaves : result = some cloud)

theorem acceptChange_cases (contents : Contents α) (cloud : Cloud) (x : Uuid × QueuedChange α) :
    Accepted contents cloud x (acceptChange contents cloud x) := by
  obtain ⟨storeId, k, r⟩ := x
  unfold acceptChange
  dsimp only
  cases hp : r.payload with
  | record content =>
    cases ht : recordTable r.entity with
    | none =>
      refine .nothing (fun record => ?_) (fun record => ?_) rfl
      · simp [Saves, savedRecord, hp, ht]
      · simp [Removes, removedRecord, hp]
    | some table =>
      dsimp only
      have hnote : contents.note content = noteOf contents ⟨k, r⟩ := by rw [noteOf, hp]
      rw [hnote]
      refine .saved table r.entityId (fun record => ?_) (fun record => ?_) rfl
      · simp [Saves, savedRecord, hp, ht, eq_comm]
      · simp [Removes, removedRecord, hp]
  | deletion entity target =>
    refine .removed (deletedTable entity) target ?_ (fun record => ?_) (fun record => ?_) rfl
    · cases entity <;> decide
    · simp [Saves, savedRecord, hp]
    · simp [Removes, removedRecord, hp, eq_comm]

/-- An accepted version of a record, by what the cloud has of it. -/
theorem acceptSaved_eq_some {note : Option String}
    (h : acceptSaved storeId table id note cloud = some cloud') :
    (cloud table id = none ∧ cloud' = cloud.put table id ⟨storeId, true, note⟩) ∨
    ∃ r, cloud table id = some r ∧
      ((table = .stockMovements ∧ cloud' = cloud) ∨
        (table ≠ .stockMovements ∧ r.storeId = storeId ∧
          ((table = .sales ∧ r.live = true ∧
              cloud' = (retire storeId id cloud).put table id ⟨storeId, true, note⟩) ∨
            (table = .sales ∧ r.live = false ∧ cloud' = cloud) ∨
            (table ≠ .sales ∧ cloud' = cloud.put table id ⟨storeId, true, note⟩)))) := by
  unfold acceptSaved at h
  split at h
  · rename_i hnone
    cases h
    exact Or.inl ⟨hnone, rfl⟩
  · rename_i r hr
    refine Or.inr ⟨r, hr, ?_⟩
    split_ifs at h with hmoved hother hsale hlive
    · exact Or.inl ⟨hmoved, (Option.some.inj h).symm⟩
    · exact Or.inr ⟨hmoved, not_not.mp hother, Or.inl ⟨hsale, hlive, (Option.some.inj h).symm⟩⟩
    · exact Or.inr ⟨hmoved, not_not.mp hother,
        Or.inr (Or.inl ⟨hsale, Bool.eq_false_iff.mpr hlive, (Option.some.inj h).symm⟩)⟩
    · exact Or.inr ⟨hmoved, not_not.mp hother, Or.inr (Or.inr ⟨hsale, (Option.some.inj h).symm⟩)⟩

/-- What the cloud has of a record that is no movement, after a version of
another was accepted. -/
theorem acceptSaved_of_ne {note : Option String} {table' : SyncTable} {id' : Uuid}
    (h : acceptSaved storeId table' id' note cloud = some cloud') (htable : table ≠ .stockMovements)
    (hne : ¬(table = table' ∧ id = id')) : cloud' table id = cloud table id := by
  rcases acceptSaved_eq_some h with ⟨-, rfl⟩ | ⟨r, -, ⟨-, rfl⟩ | ⟨-, -, ⟨-, -, rfl⟩ | ⟨-, -, rfl⟩ |
    ⟨-, rfl⟩⟩⟩
  · exact put_of_ne _ hne
  · rfl
  · rw [put_of_ne _ hne, retire_of_ne _ htable]
  · rfl
  · exact put_of_ne _ hne

/-- What the cloud has of a record that is no movement, after a removal. -/
theorem acceptRemoved_eq {table' : SyncTable} {id' : Uuid} (htable : table ≠ .stockMovements) :
    acceptRemoved storeId table' id' cloud table id =
      if table = table' ∧ id = id' ∧ Live cloud (storeId, table', id') then
        some ⟨storeId, false, none⟩
      else cloud table id := by
  unfold acceptRemoved
  by_cases hlive : Live cloud (storeId, table', id')
  · rw [if_pos hlive]
    by_cases hsame : table = table' ∧ id = id'
    · obtain ⟨rfl, rfl⟩ := hsame
      rw [put_self, if_pos ⟨rfl, rfl, hlive⟩]
    · have hkept : (if table' = .sales then retire storeId id' cloud else cloud) table id =
          cloud table id := by
        split_ifs
        · exact retire_of_ne _ htable
        · rfl
      have hother : ¬(table = table' ∧ id = id' ∧ Live cloud (storeId, table', id')) :=
        fun hc => hsame ⟨hc.1, hc.2.1⟩
      rw [put_of_ne _ hsame, hkept, if_neg hother]
  · rw [if_neg hlive, if_neg fun hc => hlive hc.2.2]

theorem live_of_eq {k : CloudRecord}
    (h : cloud' k.2.1 k.2.2 = cloud k.2.1 k.2.2) :
    Live cloud' k ↔ Live cloud k := by
  rw [Live, Live, h]

theorem live_of_some {k : CloudRecord} {r : CloudRow}
    (h : cloud k.2.1 k.2.2 = some r) :
    Live cloud k ↔ r.storeId = k.1 ∧ r.live = true := by
  rw [Live, h]
  simp

theorem not_live_of_none {k : CloudRecord} (h : cloud k.2.1 k.2.2 = none) :
    ¬Live cloud k := by
  rintro ⟨r, hr, -⟩
  rw [h] at hr
  cases hr

/-- Removals leave a record of a table with removals live unless they name it. -/
theorem live_acceptRemoved {table' : SyncTable} {id' storeId' : Uuid}
    (htable : table ≠ .stockMovements) :
    Live (acceptRemoved storeId' table' id' cloud) (storeId, table, id) ↔
      Live cloud (storeId, table, id) ∧ (storeId, table, id) ≠ (storeId', table', id') := by
  have heq := @acceptRemoved_eq cloud table storeId' id table' id' htable
  split_ifs at heq with hnamed
  · obtain ⟨rfl, rfl, r, hr, hstore, hlive⟩ := hnamed
    rw [live_of_some (k := (storeId, table, id)) heq,
      live_of_some (k := (storeId, table, id)) hr]
    dsimp only at hstore ⊢
    constructor
    · rintro ⟨-, hfalse⟩
      cases hfalse
    · rintro ⟨⟨rfl, -⟩, hne⟩
      exact absurd (by rw [← hstore]) hne
  · rw [live_of_eq (k := (storeId, table, id)) heq, iff_self_and]
    rintro hlive ⟨rfl, rfl, rfl⟩
    exact hnamed ⟨rfl, rfl, hlive⟩

/-- One change and a product, an expense or a withdrawal. -/
theorem live_plain_step (h : acceptChange contents cloud x = some cloud')
    (hmoved : table ≠ .stockMovements) (hsale : table ≠ .sales) :
    Live cloud' (storeId, table, id) ↔ Saves (storeId, table, id) x ∨
      (Live cloud (storeId, table, id) ∧ ¬Removes (storeId, table, id) x) := by
  cases acceptChange_cases contents cloud x with
  | saved table' id' saves removes leaves =>
    rw [h] at leaves
    rw [saves, and_iff_left (removes _)]
    by_cases hsame : table = table' ∧ id = id'
    · obtain ⟨rfl, rfl⟩ := hsame
      have hput : ∃ cloud₁ : Cloud, cloud' = cloud₁.put table id ⟨x.1, true, none⟩ ∧
          ∀ r, cloud table id = some r → r.storeId = x.1 := by
        rcases acceptSaved_eq_some leaves.symm with ⟨hnone, he⟩ | ⟨r, hr, ⟨hm, -⟩ | ⟨-, hstore,
          ⟨hs, -, -⟩ | ⟨hs, -, -⟩ | ⟨-, he⟩⟩⟩
        · rw [if_neg hmoved] at he
          refine ⟨cloud, he, fun r hr => ?_⟩
          rw [hnone] at hr
          cases hr
        · exact absurd hm hmoved
        · exact absurd hs hsale
        · exact absurd hs hsale
        · rw [if_neg hmoved] at he
          refine ⟨cloud, he, fun r' hr' => ?_⟩
          rw [hr] at hr'
          cases hr'
          exact hstore
      obtain ⟨cloud₁, rfl, hstore⟩ := hput
      rw [live_of_some (k := (storeId, table, id)) (put_self _)]
      simp only [and_true, Prod.mk.injEq]
      constructor
      · exact fun he => Or.inl he.symm
      · rintro (he | ⟨r, hr, hs, -⟩)
        · exact he.symm
        · exact (hstore r hr).symm.trans hs
    · rw [live_of_eq (k := (storeId, table, id)) (acceptSaved_of_ne leaves.symm hmoved hsame)]
      refine ⟨Or.inr, fun hor => hor.resolve_left fun he => hsame ?_⟩
      simp only [Prod.mk.injEq] at he
      exact he.2
  | removed table' id' named saves removes leaves =>
    rw [h] at leaves
    cases leaves
    rw [live_acceptRemoved hmoved, removes, or_iff_right (saves _)]
  | nothing saves removes leaves =>
    rw [h] at leaves
    cases leaves
    rw [or_iff_right (saves _), and_iff_left (removes _)]

/-- One change and a sale. -/
theorem live_sale_step (h : acceptChange contents cloud x = some cloud') :
    Live cloud' (storeId, .sales, id) ↔
      (Saves (storeId, .sales, id) x ∧ cloud .sales id = none) ∨
      (Live cloud (storeId, .sales, id) ∧ ¬Removes (storeId, .sales, id) x) := by
  have hmoved : SyncTable.sales ≠ .stockMovements := by decide
  cases acceptChange_cases contents cloud x with
  | saved table' id' saves removes leaves =>
    rw [h] at leaves
    rw [saves, and_iff_left (removes _)]
    by_cases hsame : SyncTable.sales = table' ∧ id = id'
    · obtain ⟨rfl, rfl⟩ := hsame
      simp only [Prod.mk.injEq, and_true]
      rcases acceptSaved_eq_some leaves.symm with ⟨hnone, rfl⟩ | ⟨r, hr, ⟨hm, -⟩ | ⟨-, hstore,
        ⟨-, hlive, rfl⟩ | ⟨-, hgone, rfl⟩ | ⟨hs, -⟩⟩⟩
      · rw [live_of_some (k := (storeId, .sales, id)) (put_self _),
          or_iff_left (not_live_of_none (k := (storeId, .sales, id)) hnone)]
        simp [hnone, eq_comm]
      · cases hm
      · rw [live_of_some (k := (storeId, .sales, id)) (put_self _),
          live_of_some (k := (storeId, .sales, id)) hr]
        simp [hr, hlive, hstore]
      · simp [hr]
      · exact absurd rfl hs
    · rw [live_of_eq (k := (storeId, .sales, id)) (acceptSaved_of_ne leaves.symm hmoved hsame)]
      refine ⟨Or.inr, fun hor => hor.resolve_left fun he => hsame ?_⟩
      obtain ⟨he, -⟩ := he
      simp only [Prod.mk.injEq] at he
      exact he.2
  | removed table' id' named saves removes leaves =>
    rw [h] at leaves
    cases leaves
    rw [live_acceptRemoved hmoved, removes, or_iff_right fun hc => saves _ hc.1]
  | nothing saves removes leaves =>
    rw [h] at leaves
    cases leaves
    rw [or_iff_right fun hc => saves _ hc.1, and_iff_left (removes _)]

/-- One change makes a sale known that it saves a version of. -/
theorem known_sale_step (h : acceptChange contents cloud x = some cloud') :
    cloud' .sales id = none ↔ cloud .sales id = none ∧ ∀ s, ¬Saves (s, .sales, id) x := by
  have hmoved : SyncTable.sales ≠ .stockMovements := by decide
  cases acceptChange_cases contents cloud x with
  | saved table' id' saves removes leaves =>
    rw [h] at leaves
    by_cases hsame : SyncTable.sales = table' ∧ id = id'
    · obtain ⟨rfl, rfl⟩ := hsame
      have hsaved : Saves (x.1, .sales, id) x := (saves _).mpr rfl
      refine iff_of_false (fun hnone => ?_) fun hc => hc.2 _ hsaved
      rcases acceptSaved_eq_some leaves.symm with ⟨-, rfl⟩ | ⟨r, hr, ⟨hm, -⟩ | ⟨-, -,
        ⟨-, -, rfl⟩ | ⟨-, -, rfl⟩ | ⟨hs, -⟩⟩⟩
      · rw [put_self] at hnone
        cases hnone
      · cases hm
      · rw [put_self] at hnone
        cases hnone
      · rw [hr] at hnone
        cases hnone
      · exact absurd rfl hs
    · rw [acceptSaved_of_ne leaves.symm hmoved hsame, iff_self_and]
      intro _ s hs
      have he := (saves _).mp hs
      simp only [Prod.mk.injEq] at he
      exact hsame he.2
  | removed table' id' named saves removes leaves =>
    rw [h] at leaves
    cases leaves
    rw [acceptRemoved_eq hmoved, and_iff_left fun s => saves _]
    split_ifs with hc
    · obtain ⟨rfl, rfl, r, hr, -⟩ := hc
      simp [hr]
    · rfl
  | nothing saves removes leaves =>
    rw [h] at leaves
    cases leaves
    rw [and_iff_left fun s => saves _]

/-- A version of a sale that the cloud knows comes from its store. -/
theorem store_of_saves_sale (h : acceptChange contents cloud x = some cloud')
    (hs : Saves (storeId, .sales, id) x) {r : CloudRow} (hr : cloud .sales id = some r) :
    r.storeId = storeId := by
  cases acceptChange_cases contents cloud x with
  | saved table' id' saves removes leaves =>
    rw [h] at leaves
    have he := (saves _).mp hs
    simp only [Prod.mk.injEq] at he
    obtain ⟨rfl, rfl, rfl⟩ := he
    rcases acceptSaved_eq_some leaves.symm with ⟨hnone, -⟩ | ⟨r', hr', ⟨hm, -⟩ | ⟨-, hstore, -⟩⟩
    · rw [hnone] at hr
      cases hr
    · cases hm
    · rw [hr'] at hr
      cases hr
      exact hstore
  | removed table' id' named saves removes leaves => exact absurd hs (saves _)
  | nothing saves removes leaves => exact absurd hs (saves _)

/-- A sale is in the store that sent its first version. -/
theorem store_sale_step (h : acceptChange contents cloud x = some cloud') {r' : CloudRow}
    (hr' : cloud' .sales id = some r') :
    (∃ r, cloud .sales id = some r ∧ r.storeId = r'.storeId) ∨ Saves (r'.storeId, .sales, id) x := by
  have hmoved : SyncTable.sales ≠ .stockMovements := by decide
  cases acceptChange_cases contents cloud x with
  | saved table' id' saves removes leaves =>
    rw [h] at leaves
    by_cases hsame : SyncTable.sales = table' ∧ id = id'
    · obtain ⟨rfl, rfl⟩ := hsame
      rcases acceptSaved_eq_some leaves.symm with ⟨-, rfl⟩ | ⟨r, hr, ⟨hm, -⟩ | ⟨-, -,
        ⟨-, -, rfl⟩ | ⟨-, -, rfl⟩ | ⟨hs, -⟩⟩⟩
      · rw [put_self] at hr'
        cases hr'
        exact Or.inr ((saves _).mpr rfl)
      · cases hm
      · rw [put_self] at hr'
        cases hr'
        exact Or.inr ((saves _).mpr rfl)
      · exact Or.inl ⟨r', hr', rfl⟩
      · exact absurd rfl hs
    · rw [acceptSaved_of_ne leaves.symm hmoved hsame] at hr'
      exact Or.inl ⟨r', hr', rfl⟩
  | removed table' id' named saves removes leaves =>
    rw [h] at leaves
    cases leaves
    rw [acceptRemoved_eq hmoved] at hr'
    split_ifs at hr' with hc
    · obtain ⟨rfl, rfl, r, hr, hstore, -⟩ := hc
      cases hr'
      exact Or.inl ⟨r, hr, hstore⟩
    · exact Or.inl ⟨r', hr', rfl⟩
  | nothing saves removes leaves =>
    rw [h] at leaves
    cases leaves
    exact Or.inl ⟨r', hr', rfl⟩

/-- A change undoes the sale a note names, which is live in the store. -/
def UndoesNow (cloud : Cloud) (storeId : Uuid) (note : Option String)
    (x : Uuid × QueuedChange α) : Prop :=
  ∃ saleId, note = some (saleNote saleId) ∧
    (Saves (storeId, .sales, saleId) x ∨ Removes (storeId, .sales, saleId) x) ∧
    Live cloud (storeId, .sales, saleId)

theorem retire_movement {r : CloudRow} (saleId : Uuid) (hr : cloud .stockMovements id = some r) :
    retire storeId saleId cloud .stockMovements id =
      some (if r.storeId = storeId ∧ r.note = some (saleNote saleId) then { r with live := false }
        else r) := by
  simp [retire, hr]

/-- Retiring the movements of a sale that is undone. -/
theorem retired_movement {r : CloudRow} {saleId : Uuid} (hr : cloud .stockMovements id = some r)
    (hlive : Live cloud (storeId, .sales, saleId))
    (hundone : ∀ record : CloudRecord, (Saves record x ∨ Removes record x) ↔
      record = (storeId, .sales, saleId)) :
    ∃ r', retire storeId saleId cloud .stockMovements id = some r' ∧ r'.storeId = r.storeId ∧
      r'.note = r.note ∧
      (r'.live = true ↔ r.live = true ∧ ¬UndoesNow cloud r.storeId r.note x) := by
  refine ⟨_, retire_movement saleId hr, ?_⟩
  by_cases hnote : r.storeId = storeId ∧ r.note = some (saleNote saleId)
  · rw [if_pos hnote]
    refine ⟨rfl, rfl, iff_of_false Bool.false_ne_true fun hc => hc.2 ?_⟩
    refine ⟨saleId, hnote.2, (hundone _).mpr ?_, hnote.1 ▸ hlive⟩
    rw [hnote.1]
  · rw [if_neg hnote]
    refine ⟨rfl, rfl, iff_self_and.mpr ?_⟩
    rintro - ⟨other, hother, hnamed, -⟩
    have he := (hundone _).mp hnamed
    simp only [Prod.mk.injEq, true_and] at he
    obtain ⟨hs, rfl⟩ := he
    exact hnote ⟨hs, hother⟩

/-- One change and a movement the cloud knows. -/
theorem movement_known_step (h : acceptChange contents cloud x = some cloud') {r : CloudRow}
    (hr : cloud .stockMovements id = some r) :
    ∃ r', cloud' .stockMovements id = some r' ∧ r'.storeId = r.storeId ∧ r'.note = r.note ∧
      (r'.live = true ↔ r.live = true ∧ ¬UndoesNow cloud r.storeId r.note x) := by
  have hsame : ∀ {cloud'' : Cloud}, cloud'' .stockMovements id = cloud .stockMovements id →
      ¬UndoesNow cloud r.storeId r.note x →
      ∃ r', cloud'' .stockMovements id = some r' ∧ r'.storeId = r.storeId ∧ r'.note = r.note ∧
        (r'.live = true ↔ r.live = true ∧ ¬UndoesNow cloud r.storeId r.note x) :=
    fun he hnot => ⟨r, he.trans hr, rfl, rfl, (and_iff_left hnot).symm⟩
  cases acceptChange_cases contents cloud x with
  | saved table' id' saves removes leaves =>
    rw [h] at leaves
    have hundone : ∀ record, (Saves record x ∨ Removes record x) ↔ record = (x.1, table', id') :=
      fun record => by rw [or_iff_left (removes record), saves]
    have hother : table' ≠ .sales → ¬UndoesNow cloud r.storeId r.note x := by
      rintro htable ⟨saleId, -, hnamed, -⟩
      have he := (hundone _).mp hnamed
      simp only [Prod.mk.injEq] at he
      exact htable he.2.1.symm
    rcases acceptSaved_eq_some leaves.symm with ⟨hnone, rfl⟩ | ⟨q, hq, ⟨rfl, rfl⟩ | ⟨hm, hstore,
      ⟨rfl, hlive, rfl⟩ | ⟨rfl, hgone, rfl⟩ | ⟨hs, rfl⟩⟩⟩
    · have hne : ¬(SyncTable.stockMovements = table' ∧ id = id') := by
        rintro ⟨rfl, rfl⟩
        rw [hnone] at hr
        cases hr
      refine hsame (put_of_ne _ hne) ?_
      rintro ⟨saleId, -, hnamed, hlive⟩
      have he := (hundone _).mp hnamed
      simp only [Prod.mk.injEq] at he
      obtain ⟨-, rfl, rfl⟩ := he
      exact not_live_of_none (k := (_, .sales, _)) hnone hlive
    · exact hsame rfl (hother (by decide))
    · rw [put_of_ne _ (by simp)]
      exact retired_movement hr ⟨q, hq, hstore, hlive⟩ hundone
    · refine hsame rfl ?_
      rintro ⟨saleId, -, hnamed, hlive⟩
      have he := (hundone _).mp hnamed
      simp only [Prod.mk.injEq, true_and] at he
      obtain ⟨-, rfl⟩ := he
      rw [live_of_some (k := (_, .sales, _)) hq, hgone] at hlive
      cases hlive.2
    · exact hsame (put_of_ne _ fun hc => hm hc.1.symm) (hother hs)
  | removed table' id' named saves removes leaves =>
    rw [h] at leaves
    cases leaves
    have hundone : ∀ record, (Saves record x ∨ Removes record x) ↔ record = (x.1, table', id') :=
      fun record => by rw [or_iff_right (saves record), removes]
    unfold acceptRemoved
    split_ifs with hlive hs
    · subst hs
      rw [put_of_ne _ (by simp)]
      exact retired_movement hr hlive hundone
    · refine hsame (put_of_ne _ fun hc => named hc.1.symm) ?_
      rintro ⟨saleId, -, hnamed, -⟩
      have he := (hundone _).mp hnamed
      simp only [Prod.mk.injEq] at he
      exact hs he.2.1.symm
    · refine hsame rfl ?_
      rintro ⟨saleId, -, hnamed, hlive'⟩
      have he := (hundone _).mp hnamed
      rw [he] at hlive'
      exact hlive hlive'
  | nothing saves removes leaves =>
    rw [h] at leaves
    cases leaves
    exact hsame rfl fun ⟨saleId, _, hnamed, _⟩ => hnamed.elim (saves _) (removes _)

/-- One change and a movement the cloud does not know. -/
theorem movement_unknown_step (h : acceptChange contents cloud x = some cloud')
    (hnone : cloud .stockMovements id = none) :
    (Saves (x.1, .stockMovements, id) x ∧
        cloud' .stockMovements id = some ⟨x.1, true, noteOf contents x.2⟩) ∨
      ((∀ s, ¬Saves (s, .stockMovements, id) x) ∧ cloud' .stockMovements id = none) := by
  have hretire : ∀ s σ, retire s σ cloud .stockMovements id = none := by
    intro s σ
    rw [retire, hnone, Option.map_none]
  cases acceptChange_cases contents cloud x with
  | saved table' id' saves removes leaves =>
    rw [h] at leaves
    by_cases hsame : SyncTable.stockMovements = table' ∧ id = id'
    · obtain ⟨rfl, rfl⟩ := hsame
      rcases acceptSaved_eq_some leaves.symm with ⟨-, rfl⟩ | ⟨r, hr, -⟩
      · exact Or.inl ⟨(saves _).mpr rfl, by rw [put_self, if_pos rfl]⟩
      · rw [hnone] at hr
        cases hr
    · refine Or.inr ⟨fun s hs => hsame ?_, ?_⟩
      · have he := (saves _).mp hs
        simp only [Prod.mk.injEq] at he
        exact he.2
      · rcases acceptSaved_eq_some leaves.symm with ⟨-, rfl⟩ | ⟨r, -, ⟨-, rfl⟩ | ⟨-, -,
          ⟨-, -, rfl⟩ | ⟨-, -, rfl⟩ | ⟨-, rfl⟩⟩⟩
        · rw [put_of_ne _ hsame, hnone]
        · exact hnone
        · rw [put_of_ne _ hsame, hretire]
        · exact hnone
        · rw [put_of_ne _ hsame, hnone]
  | removed table' id' named saves removes leaves =>
    rw [h] at leaves
    cases leaves
    refine Or.inr ⟨fun s => saves _, ?_⟩
    unfold acceptRemoved
    split_ifs with hlive hs
    · rw [put_of_ne _ fun hc => named hc.1.symm, hretire]
    · rw [put_of_ne _ fun hc => named hc.1.symm, hnone]
    · exact hnone
  | nothing saves removes leaves =>
    rw [h] at leaves
    cases leaves
    exact Or.inr ⟨fun s => saves _, hnone⟩

end

section

variable {contents : Contents α} {cloud cloud' : Cloud} {sent : List (Uuid × QueuedChange α)}
  {table : SyncTable} {storeId id : Uuid}

/-- The last change of those accepted. -/
theorem foldlM_append_singleton {x : Uuid × QueuedChange α} :
    (sent ++ [x]).foldlM (acceptChange contents) cloud = some cloud' ↔
      ∃ mid, sent.foldlM (acceptChange contents) cloud = some mid ∧
        acceptChange contents mid x = some cloud' := by
  rw [List.foldlM_append, Option.bind_eq_bind, Option.bind_eq_some_iff]
  simp

/-- Cutting an extended list at something that holds of the cut. -/
theorem exists_split_append_singleton {β : Type*} {l : List β} {x : β}
    {p : List β → β → List β → Prop} :
    (∃ before c after, l ++ [x] = before ++ c :: after ∧ p before c after) ↔
      (∃ before c after, l = before ++ c :: after ∧ p before c (after ++ [x])) ∨ p l x [] := by
  constructor
  · rintro ⟨before, c, after, h, hp⟩
    rcases append_singleton_eq_split.mp h with ⟨rfl, rfl, rfl⟩ | ⟨rest, rfl, rfl⟩
    · exact Or.inr hp
    · exact Or.inl ⟨before, c, rest, rfl, hp⟩
  · rintro (⟨before, c, after, rfl, hp⟩ | hp)
    · exact ⟨before, c, after ++ [x], by simp, hp⟩
    · exact ⟨l, x, [], rfl, hp⟩

theorem forall_split_append_singleton {β : Type*} {l : List β} {x : β}
    {p : List β → β → List β → Prop} :
    (∀ before c after, l ++ [x] = before ++ c :: after → p before c after) ↔
      (∀ before c after, l = before ++ c :: after → p before c (after ++ [x])) ∧ p l x [] := by
  constructor
  · intro h
    exact ⟨fun before c after hl => h before c (after ++ [x]) (by rw [hl]; simp), h l x [] rfl⟩
  · rintro ⟨hall, hlast⟩ before c after h
    rcases append_singleton_eq_split.mp h with ⟨rfl, rfl, rfl⟩ | ⟨rest, rfl, rfl⟩
    · exact hlast
    · exact hall before c rest rfl

/-- What was sent and a product, an expense or a withdrawal. -/
theorem live_plain_run (h : sent.foldlM (acceptChange contents) cloud = some cloud')
    (hmoved : table ≠ .stockMovements) (hsale : table ≠ .sales) :
    Live cloud' (storeId, table, id) ↔ PlainLive cloud sent (storeId, table, id) := by
  induction sent using List.reverseRecOn generalizing cloud' with
  | nil =>
    cases h
    simp [PlainLive]
  | append_singleton sent x ih =>
    obtain ⟨mid, hmid, hx⟩ := foldlM_append_singleton.mp h
    rw [live_plain_step hx hmoved hsale, ih hmid, PlainLive, PlainLive,
      exists_split_append_singleton]
    simp only [List.mem_append, List.mem_singleton, or_imp, forall_and, forall_eq, List.not_mem_nil,
      false_imp_iff, implies_true, and_true]
    constructor
    · rintro (hsaves | ⟨⟨before, c, after, hsent, hc, hafter⟩ | ⟨hlive, hnone⟩, hx⟩)
      · exact Or.inl (Or.inr hsaves)
      · exact Or.inl (Or.inl ⟨before, c, after, hsent, hc, hafter, hx⟩)
      · exact Or.inr ⟨hlive, hnone, hx⟩
    · rintro ((⟨before, c, after, hsent, hc, hafter, hx⟩ | hsaves) | ⟨hlive, hnone, hx⟩)
      · exact Or.inr ⟨Or.inl ⟨before, c, after, hsent, hc, hafter⟩, hx⟩
      · exact Or.inl hsaves
      · exact Or.inr ⟨Or.inr ⟨hlive, hnone⟩, hx⟩

/-- A sale stays unknown until a version of it is sent. -/
theorem known_sale_run (h : sent.foldlM (acceptChange contents) cloud = some cloud') :
    cloud' .sales id = none ↔
      cloud .sales id = none ∧ ∀ c ∈ sent, ∀ s, ¬Saves (s, .sales, id) c := by
  induction sent using List.reverseRecOn generalizing cloud' with
  | nil =>
    cases h
    simp
  | append_singleton sent x ih =>
    obtain ⟨mid, hmid, hx⟩ := foldlM_append_singleton.mp h
    rw [known_sale_step hx, ih hmid, and_assoc]
    simp only [List.mem_append, List.mem_singleton, or_imp, forall_and, forall_eq]

/-- A sale that was unknown is in a store that sent a version of it. -/
theorem store_sale_run (h : sent.foldlM (acceptChange contents) cloud = some cloud')
    (hnone : cloud .sales id = none) {r : CloudRow} (hr : cloud' .sales id = some r) :
    ∃ c ∈ sent, Saves (r.storeId, .sales, id) c := by
  induction sent using List.reverseRecOn generalizing cloud' r with
  | nil =>
    cases h
    rw [hnone] at hr
    cases hr
  | append_singleton sent x ih =>
    obtain ⟨mid, hmid, hx⟩ := foldlM_append_singleton.mp h
    rcases store_sale_step hx hr with ⟨r', hr', hstore⟩ | hsaves
    · obtain ⟨c, hc, hs⟩ := ih hmid hr'
      exact ⟨c, List.mem_append_left _ hc, hstore ▸ hs⟩
    · exact ⟨x, by simp, hsaves⟩

/-- What was sent and a sale. -/
theorem live_sale_run (h : sent.foldlM (acceptChange contents) cloud = some cloud') :
    Live cloud' (storeId, .sales, id) ↔ SaleLive cloud sent storeId id := by
  induction sent using List.reverseRecOn generalizing cloud' with
  | nil =>
    cases h
    unfold SaleLive
    split
    · simp
    · rename_i hnone
      simp [not_live_of_none (k := (storeId, .sales, id)) hnone]
  | append_singleton sent x ih =>
    obtain ⟨mid, hmid, hx⟩ := foldlM_append_singleton.mp h
    rw [live_sale_step hx, ih hmid, known_sale_run hmid]
    unfold SaleLive
    split
    · rename_i r hr
      simp only [hr, reduceCtorEq, false_and, and_false, false_or, List.mem_append,
        List.mem_singleton, or_imp, forall_and, forall_eq, and_assoc]
    · rename_i hnone
      rw [forall_split_append_singleton]
      simp only [List.mem_append, List.mem_singleton, or_imp, forall_and, forall_eq,
        List.not_mem_nil, false_imp_iff, implies_true, and_true, hnone, true_and]
      constructor
      · rintro (⟨hsaves, hnew⟩ | ⟨⟨⟨c, hc, hsaves⟩, hlast⟩, hx⟩)
        · refine ⟨⟨x, Or.inr rfl, hsaves⟩, ?_, ?_⟩
          · intro before c after hsent hc
            exact absurd hc (hnew c (by rw [hsent]; simp) storeId)
          · intro before c after hsent hc
            exact absurd hc (hnew c (by rw [hsent]; simp) storeId)
        · exact ⟨⟨c, Or.inl hc, hsaves⟩, hlast, fun _ _ _ _ _ => hx⟩
      · rintro ⟨⟨c, hc, hsaves⟩, hlast, hx'⟩
        by_cases hnew : ∀ c ∈ sent, ∀ s, ¬Saves (s, .sales, id) c
        · rcases hc with hc | rfl
          · exact absurd hsaves (hnew c hc storeId)
          · exact Or.inl ⟨hsaves, hnew⟩
        · -- the sale was known before the last change
          have hknown : ∃ r, mid .sales id = some r := by
            rw [← Option.ne_none_iff_exists']
            exact fun hn => hnew ((known_sale_run hmid).mp hn).2
          obtain ⟨r, hr⟩ := hknown
          have hbefore : ∃ c ∈ sent, Saves (storeId, .sales, id) c := by
            rcases hc with hc | rfl
            · exact ⟨c, hc, hsaves⟩
            · exact store_of_saves_sale hx hsaves hr ▸ store_sale_run hmid hnone hr
          obtain ⟨d, hd, hdsaves⟩ := hbefore
          obtain ⟨before, after, hsplit⟩ := List.append_of_mem hd
          exact Or.inr ⟨⟨⟨d, hd, hdsaves⟩, hlast⟩, hx' before d after hsplit hdsaves⟩

/-- What undoes a sale in the course of what was sent. -/
theorem undoesNow_iff (h : sent.foldlM (acceptChange contents) cloud = some cloud')
    (note : Option String) (x : Uuid × QueuedChange α) :
    UndoesNow cloud' storeId note x ↔ Undoes cloud sent storeId note x := by
  unfold UndoesNow Undoes
  simp only [live_sale_run h]

/-- What was sent and a movement the cloud knows. -/
theorem movement_known_run (h : sent.foldlM (acceptChange contents) cloud = some cloud')
    {r : CloudRow} (hr : cloud .stockMovements id = some r) :
    ∃ r', cloud' .stockMovements id = some r' ∧ r'.storeId = r.storeId ∧ r'.note = r.note ∧
      (r'.live = true ↔ r.live = true ∧ ∀ before d after, sent = before ++ d :: after →
        ¬Undoes cloud before r.storeId r.note d) := by
  induction sent using List.reverseRecOn generalizing cloud' with
  | nil =>
    cases h
    exact ⟨r, hr, rfl, rfl, by simp⟩
  | append_singleton sent x ih =>
    obtain ⟨mid, hmid, hx⟩ := foldlM_append_singleton.mp h
    obtain ⟨q, hq, hstore, hnote, hlive⟩ := ih hmid
    obtain ⟨r', hr', hstore', hnote', hlive'⟩ := movement_known_step hx hq
    refine ⟨r', hr', hstore'.trans hstore, hnote'.trans hnote, ?_⟩
    rw [hlive', hlive, hstore, hnote, undoesNow_iff hmid, forall_split_append_singleton, and_assoc]

/-- What was sent and a movement the cloud does not know. -/
theorem movement_unknown_run (h : sent.foldlM (acceptChange contents) cloud = some cloud')
    (hnone : cloud .stockMovements id = none) :
    (cloud' .stockMovements id = none ∧
        ∀ c ∈ sent, ∀ s, ¬Saves (s, .stockMovements, id) c) ∨
      ∃ before c after r', sent = before ++ c :: after ∧ Saves (c.1, .stockMovements, id) c ∧
        (∀ e ∈ before, ∀ other, ¬Saves (other, .stockMovements, id) e) ∧
        cloud' .stockMovements id = some r' ∧ r'.storeId = c.1 ∧
        r'.note = noteOf contents c.2 ∧
        (r'.live = true ↔ ∀ between d rest, after = between ++ d :: rest →
          ¬Undoes cloud (before ++ c :: between) c.1 (noteOf contents c.2) d) := by
  induction sent using List.reverseRecOn generalizing cloud' with
  | nil =>
    cases h
    exact Or.inl ⟨hnone, by simp⟩
  | append_singleton sent x ih =>
    obtain ⟨mid, hmid, hx⟩ := foldlM_append_singleton.mp h
    rcases ih hmid with ⟨hunknown, hnew⟩ | ⟨before, c, after, r, rfl, hc, hfirst, hr, hstore, hnote,
      hlive⟩
    · rcases movement_unknown_step hx hunknown with ⟨hsaves, hput⟩ | ⟨hsaves, hstill⟩
      · exact Or.inr ⟨sent, x, [], _, rfl, hsaves, hnew, hput, rfl, rfl, by simp⟩
      · refine Or.inl ⟨hstill, fun c hc => ?_⟩
        rcases List.mem_append.mp hc with hc | hc
        · exact hnew c hc
        · rw [List.mem_singleton.mp hc]
          exact hsaves
    · obtain ⟨r', hr', hstore', hnote', hlive'⟩ := movement_known_step hx hr
      refine Or.inr ⟨before, c, after ++ [x], r', by simp, hc, hfirst, hr', hstore'.trans hstore,
        hnote'.trans hnote, ?_⟩
      rw [hlive', hlive, hstore, hnote, undoesNow_iff hmid, forall_split_append_singleton]

/-- Where a version of a record is first sent. -/
theorem first_saved_unique {before before' after after' : List (Uuid × QueuedChange α)}
    {c c' : Uuid × QueuedChange α} {s s' : Uuid} (h : before ++ c :: after = before' ++ c' :: after')
    (hc : Saves (s, table, id) c) (hfirst : ∀ e ∈ before, ∀ other, ¬Saves (other, table, id) e)
    (hc' : Saves (s', table, id) c')
    (hfirst' : ∀ e ∈ before', ∀ other, ¬Saves (other, table, id) e) :
    before = before' ∧ c = c' ∧ after = after' := by
  induction before generalizing before' with
  | nil =>
    cases before' with
    | nil =>
      cases h
      exact ⟨rfl, rfl, rfl⟩
    | cons e rest =>
      cases h
      exact absurd hc (hfirst' c List.mem_cons_self s)
  | cons e rest ih =>
    cases before' with
    | nil =>
      cases h
      exact absurd hc' (hfirst _ List.mem_cons_self s')
    | cons e' rest' =>
      rw [List.cons_append, List.cons_append, List.cons.injEq] at h
      obtain ⟨rfl, h⟩ := h
      obtain ⟨rfl, rfl, rfl⟩ := ih h (fun e he => hfirst e (List.mem_cons_of_mem _ he))
        fun e he => hfirst' e (List.mem_cons_of_mem _ he)
      exact ⟨rfl, rfl, rfl⟩

theorem store_of_saves {x : Uuid × QueuedChange α} {record : CloudRecord} (h : Saves record x) :
    record.1 = x.1 := by
  unfold Saves savedRecord at h
  cases hp : x.2.row.payload with
  | record content =>
    rw [hp] at h
    obtain ⟨_, -, rfl⟩ := Option.map_eq_some_iff.mp h
    rfl
  | deletion entity target =>
    rw [hp] at h
    cases h

/-- What was sent and a stock movement. -/
theorem live_movement_run (h : sent.foldlM (acceptChange contents) cloud = some cloud') :
    Live cloud' (storeId, .stockMovements, id) ↔ MovementLive contents cloud sent storeId id := by
  unfold MovementLive
  split
  · rename_i r hr
    obtain ⟨r', hr', hstore, hnote, hlive⟩ := movement_known_run h hr
    rw [live_of_some (k := (storeId, .stockMovements, id)) hr',
      live_of_some (k := (storeId, .stockMovements, id)) hr, hstore, hlive, and_assoc]
    exact and_congr_right fun hs => by rw [hs]
  · rename_i hnone
    rcases movement_unknown_run h hnone with ⟨hunknown, hnew⟩ | ⟨before, c, after, r', rfl, hc,
      hfirst, hr', hstore, hnote, hlive⟩
    · refine iff_of_false (not_live_of_none (k := (storeId, .stockMovements, id)) hunknown) ?_
      rintro ⟨before, c, after, rfl, hc, -⟩
      exact hnew c (by simp) storeId hc
    · rw [live_of_some (k := (storeId, .stockMovements, id)) hr', hstore, hlive]
      constructor
      · rintro ⟨rfl, hnot⟩
        exact ⟨before, c, after, rfl, hc, hfirst, hnot⟩
      · rintro ⟨before', c', after', hsplit, hc', hfirst', hnot⟩
        obtain ⟨rfl, rfl, rfl⟩ := first_saved_unique hsplit hc hfirst hc' hfirst'
        have hs : storeId = c.1 := store_of_saves hc'
        exact ⟨hs.symm, hs ▸ hnot⟩

/-- What the cloud holds once everything was accepted. -/
theorem live_run {record : CloudRecord}
    (h : sent.foldlM (acceptChange contents) cloud = some cloud') :
    Live cloud' record ↔ SentLive contents cloud sent record := by
  obtain ⟨storeId, table, id⟩ := record
  cases table with
  | stockMovements => exact live_movement_run h
  | sales => exact live_sale_run h
  | products => exact live_plain_run h (by decide) (by decide)
  | expenses => exact live_plain_run h (by decide) (by decide)
  | withdrawals => exact live_plain_run h (by decide) (by decide)

end

end Kitaza.UploadedRecords
