import Kitaza.AccountPurge

/-!
# What purges keep

A payment that was confirmed is kept when its account goes, if no payment of
a due account is confirmed while a sweep is between its two statements.
-/

namespace Kitaza.AccountPurge

open KeyedTable Primitives BillingPlan BillingRepository

/-- A sweep that has copied, and not yet deleted, is going to delete the owner. -/
def Doomed (ownerId : Uuid) (s : State) : Prop :=
  s.sweeps.Any fun _ w => w.phase.copying = true ∧ Due s.db w.began ownerId = true

/-- The payment that a confirmation is about to commit. -/
def toCommit : Phase → Option Payment
  | .written payment _ _ _ _ => some payment
  | _ => none

/-- No payment is confirmed of an account that a sweep is about to delete, and
no account becomes due for a sweep that has already copied. -/
def Safe (s : State) : Action → Prop
  | .next i _ => ∀ c ∈ s.calls.find? i, ∀ payment ∈ toCommit c.phase, ¬ Doomed payment.ownerId s
  | .requestDeletion ownerId grace now =>
    ∀ owner ∈ s.db.owners.find? ownerId,
      ¬ s.sweeps.Any fun _ w => w.phase.copying = true ∧ due w.began owner = false ∧
        due w.began (owner.requested grace now) = true
  | _ => True

/-- Every step of a run is safe. -/
def SafeRun (s : State) : List Action → Prop
  | [] => True
  | a :: rest => Safe s a ∧ ∀ s' ∈ step s a, SafeRun s' rest

/-- Records say what their payments say, where these are still there. -/
def Copies (records : Table Uuid AccountingRecord) (payments : Table Uuid PaymentRow) : Prop :=
  ∀ id r payment, records.find? id = some r → payments.find? id = some payment →
    payment.status = .paid ∧ r = .copied r.retainedAt payment

/-- Tables as the server leaves them: payments have owners, and what is kept
of a payment says what the payment says. -/
structure Db.Sound (db : Db) : Prop where
  /-- Payments belong to owners that are there. -/
  owned : ∀ id payment, db.payments.find? id = some payment →
    (db.owners.find? payment.ownerId).isSome
  /-- Records say what payments say. -/
  booked : Copies db.accountingRecords db.payments

/-- What a sweep has read or made. -/
def SweepPhase.carried : SweepPhase → Table Uuid AccountingRecord
  | .listed rows => rows
  | phase => phase.records

/-- A payment is kept, or going to be. -/
def Booked (db : Db) (records : Table Uuid AccountingRecord) (id : Uuid) : Prop :=
  (db.accountingRecords.find? id).isSome ∨ (records.find? id).isSome

/-- What a sweep in progress can rely on. -/
structure SweepInv (s : State) (w : Sweep) : Prop where
  /-- What it carries is what the payments say. -/
  copies : Copies w.phase.carried s.db.payments
  /-- It carries what due accounts have paid. -/
  covers : w.phase.copying = true → ∀ id payment, s.db.payments.find? id = some payment →
    payment.status = .paid → Due s.db w.began payment.ownerId = true →
      Booked s.db w.phase.carried id
  /-- It carries what the owners it deletes have paid. -/
  booked : ∀ id payment, s.db.payments.find? id = some payment → payment.status = .paid →
    payment.ownerId ∈ w.phase.owners → Booked s.db w.phase.carried id
  /-- Nobody is confirming a payment of these owners. -/
  free : ∀ i c payment, s.calls.find? i = some c → c.phase.payment = some payment →
    payment.ownerId ∉ w.phase.owners

/-- While transactions are in progress. -/
structure Inv (s : State) : Prop where
  /-- The tables are as the server leaves them. -/
  sound : s.db.Sound
  /-- A payment that is being confirmed is there and pending. -/
  pending : ∀ i c payment, s.calls.find? i = some c → c.phase.payment = some payment →
    ∃ id row, c.target = some id ∧ s.db.payments.find? id = some row ∧ row.status = .pending ∧
      row.ownerId = payment.ownerId
  /-- No two confirmations have locked the same payment. -/
  apart : ∀ i j c d, s.calls.find? i = some c → s.calls.find? j = some d →
    c.phase.payment.isSome → d.phase.payment.isSome → c.target = d.target → i = j
  /-- Sweeps in progress. -/
  sweeps : ∀ j w, s.sweeps.find? j = some w → SweepInv s w

section

variable {s s' : State}

/-- A confirmation that locks nothing that is not free. -/
theorem Inv.putCall (h : Inv s) {i : ℕ} {c : Call}
    (hpending : ∀ payment, c.phase.payment = some payment →
      ∃ id row, c.target = some id ∧ s.db.payments.find? id = some row ∧ row.status = .pending ∧
        row.ownerId = payment.ownerId)
    (hapart : c.phase.payment.isSome → ∀ j d, j ≠ i → s.calls.find? j = some d →
      d.phase.payment.isSome → d.target ≠ c.target)
    (hfree : ∀ payment, c.phase.payment = some payment → ∀ j w, s.sweeps.find? j = some w →
      payment.ownerId ∉ w.phase.owners) :
    Inv { s with calls := s.calls.put i c } where
  sound := h.sound
  pending := by
    intro j d payment hd hpayment
    rw [Table.find?_put] at hd
    split_ifs at hd with hj
    · obtain rfl := Option.some.inj hd
      exact hpending payment hpayment
    · exact h.pending j d payment hd hpayment
  apart := by
    intro j k d e hd he hdlocks helocks htarget
    rw [Table.find?_put] at hd he
    split_ifs at hd he with hj hk hk
    · exact hj.trans hk.symm
    · obtain rfl := Option.some.inj hd
      exact absurd htarget.symm (hapart hdlocks k e hk he helocks)
    · obtain rfl := Option.some.inj he
      exact absurd htarget (hapart helocks j d hj hd hdlocks)
    · exact h.apart j k d e hd he hdlocks helocks htarget
  sweeps := by
    intro j w hw
    have hsweep := h.sweeps j w hw
    refine ⟨hsweep.copies, hsweep.covers, hsweep.booked, fun k d payment hd hpayment => ?_⟩
    rw [Table.find?_put] at hd
    split_ifs at hd with hk
    · obtain rfl := Option.some.inj hd
      exact hfree payment hpayment j w hw
    · exact hsweep.free k d payment hd hpayment

/-- A confirmation that locks nothing more. -/
theorem Inv.advance (h : Inv s) {i : ℕ} {c : Call} {phase : Phase} (hc : s.calls.find? i = some c)
    (hsame : ∀ payment, phase.payment = some payment →
      ∃ before, c.phase.payment = some before ∧ before.ownerId = payment.ownerId) :
    Inv (s.advance i c phase) := by
  refine h.putCall (fun payment hpayment => ?_) (fun hlocks j d hj hd hdlocks htarget => ?_)
    fun payment hpayment j w hw => ?_
  · obtain ⟨before, hbefore, howner⟩ := hsame payment hpayment
    rw [← howner]
    exact h.pending i c before hc hbefore
  · obtain ⟨payment, hpayment⟩ := Option.isSome_iff_exists.mp hlocks
    obtain ⟨before, hbefore, -⟩ := hsame payment hpayment
    have hclocks : c.phase.payment.isSome := Option.isSome_iff_exists.mpr ⟨before, hbefore⟩
    exact hj (h.apart j i d c hd hc hdlocks hclocks htarget)
  · obtain ⟨before, hbefore, howner⟩ := hsame payment hpayment
    rw [← howner]
    exact (h.sweeps j w hw).free i c before hc hbefore

/-- A sweep that relies on what it can. -/
theorem Inv.putSweep (h : Inv s) {j : ℕ} {w : Sweep} (hw : SweepInv s w) :
    Inv { s with sweeps := s.sweeps.put j w } where
  sound := h.sound
  pending := h.pending
  apart := h.apart
  sweeps := by
    intro k v hv
    rw [Table.find?_put] at hv
    split_ifs at hv with hk
    · obtain rfl := Option.some.inj hv
      exact ⟨hw.copies, hw.covers, hw.booked, hw.free⟩
    · have hsweep := h.sweeps k v hv
      exact ⟨hsweep.copies, hsweep.covers, hsweep.booked, hsweep.free⟩

/-- Owners that stay, and are not due before they were. -/
theorem Inv.putOwners (h : Inv s) {owners : Table Uuid OwnerRow}
    (hkept : ∀ id, (s.db.owners.find? id).isSome → (owners.find? id).isSome)
    (hdue : ∀ j w, s.sweeps.find? j = some w → w.phase.copying = true → ∀ id,
      (owners.find? id).any (due w.began) = true → Due s.db w.began id = true) :
    Inv { s with db := { s.db with owners := owners } } where
  sound := ⟨fun id payment hpayment => hkept _ (h.sound.owned id payment hpayment), h.sound.booked⟩
  pending := h.pending
  apart := h.apart
  sweeps := by
    intro j w hw
    have hsweep := h.sweeps j w hw
    exact ⟨hsweep.copies, fun hcopying id payment hpayment hpaid hnow =>
      hsweep.covers hcopying id payment hpayment hpaid (hdue j w hw hcopying _ hnow),
      hsweep.booked, hsweep.free⟩

/-- Records of a payment that is pending do not exist. -/
theorem Copies.none_of_pending {records : Table Uuid AccountingRecord}
    {payments : Table Uuid PaymentRow} (h : Copies records payments) {id : Uuid} {row : PaymentRow}
    (hrow : payments.find? id = some row) (hpending : row.status = .pending) :
    records.find? id = none := by
  cases hr : records.find? id with
  | none => rfl
  | some r =>
    have hpaid := (h id r row hr hrow).1
    rw [hpending] at hpaid
    contradiction

/-- The payments after a confirmation. -/
theorem find?_committed {db : Db} {id k : Uuid} {payment : Payment}
    {subscription : SubscriptionRecord} :
    (committed db (some id) payment subscription).payments.find? k =
      if k = id then (db.payments.find? id).map fun row => { row with toPayment := payment }
      else db.payments.find? k := by
  simp only [committed, Table.find?_mapRows, Option.some.injEq]
  split_ifs with hk
  · rw [hk]
  · exact Option.map_id'

/-- Confirming a pending payment leaves what records say. -/
theorem Copies.committed {records : Table Uuid AccountingRecord} {db : Db} {id : Uuid}
    {row : PaymentRow} {payment : Payment} {subscription : SubscriptionRecord}
    (h : Copies records db.payments) (hrow : db.payments.find? id = some row)
    (hpending : row.status = .pending) :
    Copies records (committed db (some id) payment subscription).payments := by
  intro k r other hr hother
  rw [find?_committed] at hother
  split_ifs at hother with hk
  · rw [hk, h.none_of_pending hrow hpending] at hr
    contradiction
  · exact h k r other hr hother

/-- A confirmation of a payment that nobody has locked, and whose owner no
sweep is about to delete. -/
theorem Inv.commit (h : Inv s) {id : Uuid} {row : PaymentRow} {payment : Payment}
    {subscription : SubscriptionRecord} (hrow : s.db.payments.find? id = some row)
    (hpending : row.status = .pending) (howner : row.ownerId = payment.ownerId)
    (hunlocked : ∀ i c, s.calls.find? i = some c → c.phase.payment.isSome → c.target ≠ some id)
    (hfree : ∀ j w, s.sweeps.find? j = some w → payment.ownerId ∉ w.phase.owners)
    (hsafe : ¬ Doomed payment.ownerId s) :
    Inv { s with db := committed s.db (some id) payment subscription } where
  sound := by
    refine ⟨fun k other hother => ?_, h.sound.booked.committed hrow hpending⟩
    rw [find?_committed, hrow] at hother
    split_ifs at hother with hk
    · obtain rfl := Option.some.inj hother
      have howned := h.sound.owned id row hrow
      rwa [howner] at howned
    · exact h.sound.owned k other hother
  pending := by
    intro i c other hc hother
    obtain ⟨k, found, htarget, hfound, hstill, hsame⟩ := h.pending i c other hc hother
    have hk : k ≠ id := by
      rintro rfl
      exact hunlocked i c hc (Option.isSome_iff_exists.mpr ⟨other, hother⟩) htarget
    exact ⟨k, found, htarget, by rw [find?_committed, if_neg hk, hfound], hstill, hsame⟩
  apart := h.apart
  sweeps := by
    intro j w hw
    have hsweep := h.sweeps j w hw
    refine ⟨hsweep.copies.committed hrow hpending, fun hcopying k other hother hpaid hdue => ?_,
      fun k other hother hpaid hgone => ?_, hsweep.free⟩
    · rw [find?_committed, hrow] at hother
      split_ifs at hother with hk
      · obtain rfl := Option.some.inj hother
        exact absurd ⟨j, w, hw, hcopying, hdue⟩ hsafe
      · exact hsweep.covers hcopying k other hother hpaid hdue
    · rw [find?_committed, hrow] at hother
      split_ifs at hother with hk
      · obtain rfl := Option.some.inj hother
        exact absurd hgone (hfree j w hw)
      · exact hsweep.booked k other hother hpaid hgone

/-- What is in the books after a sweep. -/
theorem find?_withRecords {kept records : Table Uuid AccountingRecord} {id : Uuid} :
    (withRecords kept records).find? id = (kept.find? id).or (records.find? id) := by
  rw [withRecords, Table.find?_overlay]
  cases hid : kept.find? id with
  | none => rw [if_neg (Table.notMem_ids.mpr hid), Option.none_or]
  | some r => rw [if_pos (Table.mem_ids_of_find? hid), Option.some_or]

/-- Payments after a purge are payments before it, of other owners. -/
theorem find?_purged_payments {db : Db} {records : Table Uuid AccountingRecord}
    {owners : Finset Uuid} {id : Uuid} {payment : PaymentRow} :
    (purged db records owners).payments.find? id = some payment ↔
      db.payments.find? id = some payment ∧ payment.ownerId ∉ owners := by
  rw [purged, Table.find?_filter_eq_some, decide_eq_true_eq]

/-- Other owners are left alone. -/
theorem find?_purged_owners {db : Db} {records : Table Uuid AccountingRecord}
    {owners : Finset Uuid} {id : Uuid} (h : id ∉ owners) :
    (purged db records owners).owners.find? id = db.owners.find? id := by
  rw [purged, Table.find?_filter]
  cases db.owners.find? id with
  | none => rfl
  | some owner => rw [Option.filter_some, if_pos (decide_eq_true h)]

/-- The owners themselves are gone. -/
theorem find?_purged_gone {db : Db} {records : Table Uuid AccountingRecord}
    {owners : Finset Uuid} {id : Uuid} (h : id ∈ owners) :
    (purged db records owners).owners.find? id = none := by
  rw [purged, Table.find?_filter]
  cases db.owners.find? id with
  | none => rfl
  | some owner => rw [Option.filter_some, if_neg (by simpa using h)]

/-- An account that is due after a purge was due before. -/
theorem due_of_purged {db : Db} {records : Table Uuid AccountingRecord} {owners : Finset Uuid}
    {now : Timestamp} {id : Uuid} (h : Due (purged db records owners) now id = true) :
    Due db now id = true := by
  by_cases hid : id ∈ owners
  · rw [Due, find?_purged_gone hid] at h
    contradiction
  · rwa [Due, find?_purged_owners hid] at h

/-- A sweep that carries what the payments say deletes owners none of whose
payments is being confirmed. -/
theorem Inv.purge (h : Inv s) {records : Table Uuid AccountingRecord} {owners : Finset Uuid}
    (hcopies : Copies records s.db.payments)
    (hfree : ∀ i c payment, s.calls.find? i = some c → c.phase.payment = some payment →
      payment.ownerId ∉ owners) :
    Inv { s with db := purged s.db records owners } where
  sound := by
    constructor
    · intro id payment hpayment
      obtain ⟨hbefore, hother⟩ := find?_purged_payments.mp hpayment
      rw [find?_purged_owners hother]
      exact h.sound.owned id payment hbefore
    · intro id r payment hr hpayment
      have hbefore := (find?_purged_payments.mp hpayment).1
      rw [purged, find?_withRecords, Option.or_eq_some_iff] at hr
      obtain hr | ⟨-, hr⟩ := hr
      · exact h.sound.booked id r payment hr hbefore
      · exact hcopies id r payment hr hbefore
  pending := by
    intro i c payment hc hpayment
    obtain ⟨id, row, htarget, hrow, hpending, howner⟩ := h.pending i c payment hc hpayment
    have hother : row.ownerId ∉ owners := by
      rw [howner]
      exact hfree i c payment hc hpayment
    exact ⟨id, row, htarget, find?_purged_payments.mpr ⟨hrow, hother⟩, hpending, howner⟩
  apart := h.apart
  sweeps := by
    intro j w hw
    have hsweep := h.sweeps j w hw
    have hmore : ∀ id, Booked s.db w.phase.carried id →
        Booked (purged s.db records owners) w.phase.carried id := by
      rintro id (hid | hid)
      · obtain ⟨r, hr⟩ := Option.isSome_iff_exists.mp hid
        left
        rw [purged, find?_withRecords, hr, Option.some_or]
        rfl
      · exact Or.inr hid
    refine ⟨fun id r payment hr hpayment => ?_, fun hcopying id payment hpayment hpaid hdue => ?_,
      fun id payment hpayment hpaid hgone => ?_, hsweep.free⟩
    · exact hsweep.copies id r payment hr (find?_purged_payments.mp hpayment).1
    · exact hmore id (hsweep.covers hcopying id payment (find?_purged_payments.mp hpayment).1 hpaid
        (due_of_purged hdue))
    · exact hmore id (hsweep.booked id payment (find?_purged_payments.mp hpayment).1 hpaid hgone)

/-- What a confirmation that finds its payment keeps. -/
theorem Inv.mark (h : Inv s) {i : ℕ} {c : Call} {id : Uuid} {row : PaymentRow} {ownerName : String}
    (hrow : s.db.payments.find? id = some row) (hpending : row.status = .pending)
    (hfree : ¬ (PaymentHeld id s ∨ OwnerHeld row.ownerId s)) :
    Inv (s.advance i { c with target := some id }
      (.marked (row.toPayment.markedPaid c.began c.method) ownerName)) := by
  rw [not_or] at hfree
  refine h.putCall (fun payment hpayment => ?_) (fun _ j d _ hd hlocks htarget => ?_)
    fun payment hpayment j w hw hgone => ?_
  · obtain rfl := Option.some.inj hpayment
    exact ⟨id, row, rfl, hrow, hpending, rfl⟩
  · exact hfree.1 ⟨j, d, hd, htarget, hlocks⟩
  · obtain rfl := Option.some.inj hpayment
    exact hfree.2 ⟨j, w, hw, hgone⟩

/-- What a confirmation that commits keeps. -/
theorem Inv.commitCall (h : Inv s) {i : ℕ} {c : Call} {payment : Payment} {ownerName : String}
    {subscription : SubscriptionRecord} {paidThrough read : Timestamp}
    (hc : s.calls.find? i = some c)
    (hphase : c.phase = .written payment ownerName subscription paidThrough read)
    (hsafe : ¬ Doomed payment.ownerId s) :
    Inv ({ s with db := committed s.db c.target payment subscription }.advance i c
      (.returned (some (confirmed payment ownerName c.method paidThrough)))) := by
  have hpayment : c.phase.payment = some payment := by rw [hphase]; rfl
  obtain ⟨id, row, htarget, hrow, hpending, howner⟩ := h.pending i c payment hc hpayment
  have hended : Inv (s.advance i c
      (.returned (some (confirmed payment ownerName c.method paidThrough)))) :=
    h.advance hc fun other hother => absurd hother (Option.some_ne_none other).symm
  have hunlocked : ∀ k d, (s.advance i c (.returned (some
      (confirmed payment ownerName c.method paidThrough)))).calls.find? k = some d →
      d.phase.payment.isSome → d.target ≠ some id := by
    intro k d hd hlocks hsame
    simp only [State.advance, Table.find?_put] at hd
    split_ifs at hd with hk
    · obtain rfl := Option.some.inj hd
      contradiction
    · have hclocks : c.phase.payment.isSome := by rw [hpayment]; rfl
      exact hk (h.apart k i d c hd hc hlocks hclocks (hsame.trans htarget.symm))
  rw [htarget]
  exact hended.commit hrow hpending howner hunlocked
    (fun j w hw => (h.sweeps j w hw).free i c payment hc hpayment) hsafe

/-- What a statement of a confirmation keeps. -/
theorem Inv.confirm (h : Inv s) {i : ℕ} {c : Call} {now : Timestamp}
    (hc : s.calls.find? i = some c)
    (hsafe : ∀ payment ∈ toCommit c.phase, ¬ Doomed payment.ownerId s)
    (hstep : confirm s i c now = some s') : Inv s' := by
  cases hphase : c.phase with
  | begun =>
    have hnothing : Inv (s.advance i c (.returned none)) :=
      h.advance hc fun other hother => absurd hother (Option.some_ne_none other).symm
    simp only [AccountPurge.confirm, hphase] at hstep
    cases hfind : s.db.payments.entries.find? fun entry =>
        entry.2.providerReference = some c.reference with
    | none =>
      simp only [hfind, Option.some.injEq] at hstep
      exact hstep ▸ hnothing
    | some entry =>
      obtain ⟨id, row⟩ := entry
      have hrow := Table.mem_entries.mp (List.mem_of_find?_eq_some hfind)
      simp only [hfind] at hstep
      split at hstep
      · rename_i hpending _
        split_ifs at hstep with hheld
        exact Option.some.inj hstep ▸ h.mark hrow hpending hheld
      · exact Option.some.inj hstep ▸ hnothing
  | marked payment ownerName =>
    have hread : ∀ current, Inv (s.advance i c (.read payment ownerName current)) := fun current =>
      h.advance hc fun other hother => ⟨payment, by rw [hphase]; rfl, by
        rw [Option.some.inj hother]⟩
    simp only [AccountPurge.confirm, hphase] at hstep
    split at hstep
    · exact Option.some.inj hstep ▸ hread none
    · split_ifs at hstep
      exact Option.some.inj hstep ▸ hread _
  | read payment ownerName current =>
    simp only [AccountPurge.confirm, hphase] at hstep
    split_ifs at hstep
    exact Option.some.inj hstep ▸ h.advance hc fun other hother =>
      ⟨payment, by rw [hphase]; rfl, by rw [Option.some.inj hother]⟩
  | extended payment ownerName subscription paidThrough read =>
    simp only [AccountPurge.confirm, hphase, Option.some.injEq] at hstep
    refine hstep ▸ h.advance hc fun other hother => ⟨payment, by rw [hphase]; rfl, ?_⟩
    rw [← Option.some.inj hother]
  | written payment ownerName subscription paidThrough read =>
    simp only [AccountPurge.confirm, hphase, Option.some.injEq] at hstep
    exact hstep ▸ h.commitCall hc hphase (hsafe payment (by rw [hphase]; rfl))
  | returned result => simp [AccountPurge.confirm, hphase] at hstep
  | failed => simp [AccountPurge.confirm, hphase] at hstep

/-- The accounts that are due. -/
theorem mem_dueOwners {now : Timestamp} {db : Db} {id : Uuid} :
    id ∈ dueOwners now db ↔ Due db now id = true := by
  rw [dueOwners, Table.mem_ids_filter, Due, Option.any_eq_true_iff_get]
  constructor
  · rintro ⟨owner, howner, hdue⟩
    simp [howner, hdue]
  · rintro ⟨hsome, hdue⟩
    exact ⟨_, (Option.some_get hsome).symm, hdue⟩

/-- What is copied is what due accounts have paid. -/
theorem find?_paidByDue {now : Timestamp} {db : Db} {id : Uuid} {r : AccountingRecord} :
    (paidByDue now db).find? id = some r ↔ ∃ payment, db.payments.find? id = some payment ∧
      Due db now payment.ownerId = true ∧ payment.status = .paid ∧ r = .copied now payment := by
  rw [paidByDue, Table.find?_filterMap, Option.bind_eq_some_iff]
  refine exists_congr fun payment => and_congr_right fun _ => ?_
  split_ifs with hif
  · simp only [Bool.and_eq_true, decide_eq_true_eq] at hif
    simp only [hif, true_and, Option.some.injEq]
    exact eq_comm
  · simp only [Bool.and_eq_true, decide_eq_true_eq, not_and] at hif
    simp only [false_iff]
    exact fun hall => hif hall.1 hall.2.1

/-- A sweep that has only read. -/
theorem sweepInv_of_copying {w : Sweep} (howners : w.phase.owners = ∅)
    (hcopies : Copies w.phase.carried s.db.payments)
    (hcovers : w.phase.copying = true → ∀ id payment, s.db.payments.find? id = some payment →
      payment.status = .paid → Due s.db w.began payment.ownerId = true →
        Booked s.db w.phase.carried id) : SweepInv s w where
  copies := hcopies
  covers := hcovers
  booked := by
    intro id payment _ _ hgone
    rw [howners] at hgone
    exact absurd hgone (Finset.notMem_empty _)
  free := by
    intro i c payment _ _
    rw [howners]
    exact Finset.notMem_empty _

/-- A sweep that holds nothing. -/
theorem sweepInv_of_idle {w : Sweep} (howners : w.phase.owners = ∅)
    (hcarried : w.phase.carried = Table.empty) (hidle : w.phase.copying = false) : SweepInv s w := by
  refine sweepInv_of_copying howners (fun id r payment hr _ => ?_) fun hcopying => ?_
  · rw [hcarried] at hr
    contradiction
  · rw [hidle] at hcopying
    contradiction

/-- What a sweep in progress keeps. -/
theorem Inv.purgeAccounts (h : Inv s) {j : ℕ} {w : Sweep} (hw : s.sweeps.find? j = some w)
    (hstep : purgeAccounts s j w = some s') : Inv s' := by
  have hsweep := h.sweeps j w hw
  cases hphase : w.phase with
  | begun =>
    simp only [AccountPurge.purgeAccounts, hphase, Option.some.injEq] at hstep
    refine hstep ▸ h.putSweep (sweepInv_of_copying rfl (fun id r payment hr hpayment => ?_)
      fun _ id payment hpayment hpaid hdue => Or.inr ?_)
    · obtain ⟨same, hsame, -, hpaid, hcopied⟩ := find?_paidByDue.mp hr
      obtain rfl := Option.some.inj (hsame.symm.trans hpayment)
      exact ⟨hpaid, by rw [hcopied]; rfl⟩
    · exact Option.isSome_iff_exists.mpr ⟨_, find?_paidByDue.mpr ⟨payment, hpayment, hdue, hpaid, rfl⟩⟩
  | listed rows =>
    simp only [AccountPurge.purgeAccounts, hphase] at hstep
    split_ifs at hstep
    have hcopies := hsweep.copies
    have hcovers := hsweep.covers
    rw [hphase] at hcopies hcovers
    refine Option.some.inj hstep ▸ h.putSweep (sweepInv_of_copying rfl
      (fun id r payment hr hpayment => ?_) fun _ id payment hpayment hpaid hdue => ?_)
    · exact hcopies id r payment (Table.find?_filter_eq_some.mp hr).1 hpayment
    · cases hkept : s.db.accountingRecords.find? id with
      | some r => exact Or.inl (by rw [hkept]; rfl)
      | none =>
        obtain hbooked | hlisted := hcovers rfl id payment hpayment hpaid hdue
        · rw [hkept] at hbooked
          contradiction
        · obtain ⟨r, hr⟩ := Option.isSome_iff_exists.mp hlisted
          have hnew : (rows.filter fun id _ => (s.db.accountingRecords.find? id).isNone).find? id =
              some r := Table.find?_filter_eq_some.mpr ⟨hr, by rw [hkept]; rfl⟩
          exact Or.inr (Option.isSome_iff_exists.mpr ⟨r, hnew⟩)
  | copied records =>
    simp only [AccountPurge.purgeAccounts, hphase, Option.some.injEq] at hstep
    have hcopies := hsweep.copies
    have hcovers := hsweep.covers
    rw [hphase] at hcopies hcovers
    exact hstep ▸ h.putSweep (sweepInv_of_copying rfl hcopies hcovers)
  | chosen records owners =>
    simp only [AccountPurge.purgeAccounts, hphase] at hstep
    split_ifs at hstep with hheld
    rw [not_or] at hheld
    have hcopies := hsweep.copies
    have hcovers := hsweep.covers
    rw [hphase] at hcopies hcovers
    refine Option.some.inj hstep ▸ h.putSweep ⟨hcopies,
      fun hcopying => absurd hcopying Bool.false_ne_true,
      fun id payment hpayment hpaid hgone => ?_, fun i c payment hc hpayment hgone => ?_⟩
    · exact hcovers rfl id payment hpayment hpaid (mem_dueOwners.mp (Finset.mem_inter.mp hgone).2)
    · have hlocks : c.phase.payment.any (fun other => other.ownerId = payment.ownerId) = true := by
        rw [hpayment]
        exact decide_eq_true rfl
      exact hheld.2 ⟨payment.ownerId, hgone, i, c, hc, hlocks⟩
  | deleted records owners =>
    simp only [AccountPurge.purgeAccounts, hphase, Option.some.injEq] at hstep
    have hcopies := hsweep.copies
    have hfree := hsweep.free
    rw [hphase] at hcopies hfree
    have hended : Inv (s.swept j w (.returned owners.card)) :=
      h.putSweep (sweepInv_of_idle rfl rfl rfl)
    exact hstep ▸ hended.purge hcopies hfree
  | returned deleted => simp [AccountPurge.purgeAccounts, hphase] at hstep
  | failed => simp [AccountPurge.purgeAccounts, hphase] at hstep

/-- Taking the mark off an account makes nobody due. -/
theorem Inv.cancelDeletion (h : Inv s) (ownerId : Uuid) :
    Inv { s with db := cancelDeletion s.db ownerId } := by
  refine h.putOwners (fun id hid => ?_) fun j w _ _ id hdue => ?_
  · rw [Table.find?_mapRows, Option.isSome_map]
    exact hid
  · rw [Table.find?_mapRows] at hdue
    rw [Due]
    cases howner : s.db.owners.find? id with
    | none =>
      rw [howner] at hdue
      contradiction
    | some owner =>
      rw [howner, Option.map_some, Option.any_some] at hdue
      split_ifs at hdue with hid
      · contradiction
      · exact hdue

/-- Asking for deletion makes nobody due for a sweep that has copied. -/
theorem Inv.requestDeletion (h : Inv s) {ownerId : Uuid} {owner : OwnerRow} {grace : ℤ}
    {now : Timestamp} (howner : s.db.owners.find? ownerId = some owner)
    (hsafe : ¬ s.sweeps.Any fun _ w => w.phase.copying = true ∧ due w.began owner = false ∧
      due w.began (owner.requested grace now) = true) :
    Inv { s with db := { s.db with owners := s.db.owners.put ownerId (owner.requested grace now) } }
    := by
  refine h.putOwners (fun id hid => ?_) fun j w hw hcopying id hdue => ?_
  · rw [Table.find?_put]
    split_ifs
    · rfl
    · exact hid
  · rw [Table.find?_put] at hdue
    split_ifs at hdue with hid
    · rw [Due, hid, howner, Option.any_some]
      by_contra hnot
      exact hsafe ⟨j, w, hw, hcopying, Bool.not_eq_true _ ▸ hnot, hdue⟩
    · exact hdue

/-- What one step of the server keeps. -/
theorem Inv.step {a : Action} (h : Inv s) (hsafe : Safe s a) (hstep : step s a = some s') :
    Inv s' := by
  cases a with
  | call i reference method now =>
    simp only [AccountPurge.step] at hstep
    split at hstep
    · contradiction
    · refine Option.some.inj hstep ▸ h.putCall (fun payment hpayment => ?_) (fun hlocks => ?_)
        fun payment hpayment => ?_
      · contradiction
      · contradiction
      · contradiction
  | next i now =>
    simp only [AccountPurge.step] at hstep
    cases hc : s.calls.find? i with
    | none => simp [hc] at hstep
    | some c =>
      simp only [hc] at hstep
      exact h.confirm hc (hsafe c hc) hstep
  | fail i =>
    simp only [AccountPurge.step] at hstep
    cases hc : s.calls.find? i with
    | none => simp [hc] at hstep
    | some c =>
      simp only [hc] at hstep
      split_ifs at hstep
      exact Option.some.inj hstep ▸ h.advance hc fun other hother =>
        absurd hother (Option.some_ne_none other).symm
  | sweep j now =>
    simp only [AccountPurge.step] at hstep
    split at hstep
    · contradiction
    · exact Option.some.inj hstep ▸ h.putSweep (sweepInv_of_idle rfl rfl rfl)
  | nextSweep j =>
    simp only [AccountPurge.step] at hstep
    cases hw : s.sweeps.find? j with
    | none => simp [hw] at hstep
    | some w =>
      simp only [hw] at hstep
      exact h.purgeAccounts hw hstep
  | failSweep j =>
    simp only [AccountPurge.step] at hstep
    cases hw : s.sweeps.find? j with
    | none => simp [hw] at hstep
    | some w =>
      simp only [hw] at hstep
      split_ifs at hstep
      exact Option.some.inj hstep ▸ h.putSweep (sweepInv_of_idle rfl rfl rfl)
  | requestDeletion ownerId grace now =>
    simp only [AccountPurge.step] at hstep
    split_ifs at hstep
    cases howner : s.db.owners.find? ownerId with
    | none =>
      simp only [AccountPurge.requestDeletion, howner, Option.map_none, Option.some.injEq] at hstep
      exact hstep ▸ h
    | some owner =>
      simp only [AccountPurge.requestDeletion, howner, Option.map_some, Option.some.injEq] at hstep
      exact hstep ▸ h.requestDeletion howner (hsafe owner howner)
  | cancelDeletion ownerId =>
    simp only [AccountPurge.step] at hstep
    split_ifs at hstep
    exact Option.some.inj hstep ▸ h.cancelDeletion ownerId

/-- What a run of the server keeps. -/
theorem Inv.run {actions : List Action} (h : Inv s) (hsafe : SafeRun s actions)
    (hrun : run s actions = some s') : Inv s' := by
  induction actions generalizing s with
  | nil => exact Option.some.inj hrun ▸ h
  | cons a rest ih =>
    obtain ⟨s₁, hstep, hrest⟩ := Option.bind_eq_some_iff.mp hrun
    exact ih (h.step hsafe.1 hstep) (hsafe.2 s₁ hstep) hrest

/-- How the tables and the sweeps change in one step. -/
inductive Changed (s : State) : Db → Table ℕ Sweep → Prop
  | kept : Changed s s.db s.sweeps
  | confirmed {i : ℕ} {c : Call} {payment : Payment} {ownerName : String}
      {subscription : SubscriptionRecord} {paidThrough read : Timestamp}
      (hc : s.calls.find? i = some c)
      (hphase : c.phase = .written payment ownerName subscription paidThrough read) :
      Changed s (committed s.db c.target payment subscription) s.sweeps
  | marked {owners : Table Uuid OwnerRow}
      (hkept : ∀ id, (s.db.owners.find? id).isSome → (owners.find? id).isSome) :
      Changed s { s.db with owners := owners } s.sweeps
  | began {j : ℕ} (w : Sweep) (hnew : s.sweeps.find? j = none) :
      Changed s s.db (s.sweeps.put j w)
  | moved {j : ℕ} {w v : Sweep} (hw : s.sweeps.find? j = some w) (hgoing : w.phase.ended = false)
      (hdone : ∀ records owners, w.phase = .deleted records owners → v.phase.ended = true) :
      Changed s s.db (s.sweeps.put j v)
  | purged {j : ℕ} {w v : Sweep} {records : Table Uuid AccountingRecord} {owners : Finset Uuid}
      (hw : s.sweeps.find? j = some w) (hphase : w.phase = .deleted records owners)
      (hended : v.phase.ended = true) : Changed s (purged s.db records owners) (s.sweeps.put j v)

/-- What a confirmation does to the tables. -/
theorem changed_of_confirm {i : ℕ} {c : Call} {now : Timestamp} (hc : s.calls.find? i = some c)
    (hstep : confirm s i c now = some s') : Changed s s'.db s'.sweeps := by
  cases hphase : c.phase with
  | begun =>
    simp only [confirm, hphase] at hstep
    split at hstep
    · exact Option.some.inj hstep ▸ .kept
    · split at hstep
      · split_ifs at hstep
        exact Option.some.inj hstep ▸ .kept
      · exact Option.some.inj hstep ▸ .kept
  | marked payment ownerName =>
    simp only [confirm, hphase] at hstep
    split at hstep
    · exact Option.some.inj hstep ▸ .kept
    · split_ifs at hstep
      exact Option.some.inj hstep ▸ .kept
  | read payment ownerName current =>
    simp only [confirm, hphase] at hstep
    split_ifs at hstep
    exact Option.some.inj hstep ▸ .kept
  | extended payment ownerName subscription paidThrough read =>
    simp only [confirm, hphase, Option.some.injEq] at hstep
    exact hstep ▸ .kept
  | written payment ownerName subscription paidThrough read =>
    simp only [confirm, hphase, Option.some.injEq] at hstep
    exact hstep ▸ .confirmed hc hphase
  | returned result => simp [confirm, hphase] at hstep
  | failed => simp [confirm, hphase] at hstep

/-- What a sweep does to the tables. -/
theorem changed_of_purgeAccounts {j : ℕ} {w : Sweep} (hw : s.sweeps.find? j = some w)
    (hstep : purgeAccounts s j w = some s') : Changed s s'.db s'.sweeps := by
  cases hphase : w.phase with
  | begun =>
    simp only [purgeAccounts, hphase, Option.some.injEq] at hstep
    exact hstep ▸ .moved hw (by rw [hphase]; rfl) (by simp [hphase])
  | listed rows =>
    simp only [purgeAccounts, hphase] at hstep
    split_ifs at hstep
    exact Option.some.inj hstep ▸ .moved hw (by rw [hphase]; rfl) (by simp [hphase])
  | copied records =>
    simp only [purgeAccounts, hphase, Option.some.injEq] at hstep
    exact hstep ▸ .moved hw (by rw [hphase]; rfl) (by simp [hphase])
  | chosen records owners =>
    simp only [purgeAccounts, hphase] at hstep
    split_ifs at hstep
    exact Option.some.inj hstep ▸ .moved hw (by rw [hphase]; rfl) (by simp [hphase])
  | deleted records owners =>
    simp only [purgeAccounts, hphase, Option.some.injEq] at hstep
    exact hstep ▸ .purged hw hphase rfl
  | returned deleted => simp [purgeAccounts, hphase] at hstep
  | failed => simp [purgeAccounts, hphase] at hstep

/-- What a step does to the tables. -/
theorem changed_of_step {a : Action} (hstep : step s a = some s') : Changed s s'.db s'.sweeps := by
  cases a with
  | call i reference method now =>
    simp only [step] at hstep
    split at hstep
    · contradiction
    · exact Option.some.inj hstep ▸ .kept
  | next i now =>
    simp only [step] at hstep
    split at hstep
    · contradiction
    · rename_i c hc
      exact changed_of_confirm hc hstep
  | fail i =>
    simp only [step] at hstep
    split at hstep
    · contradiction
    · split_ifs at hstep
      exact Option.some.inj hstep ▸ .kept
  | sweep j now =>
    simp only [step] at hstep
    split at hstep
    · contradiction
    · rename_i hnew
      exact Option.some.inj hstep ▸ .began _ hnew
  | nextSweep j =>
    simp only [step] at hstep
    split at hstep
    · contradiction
    · rename_i w hw
      exact changed_of_purgeAccounts hw hstep
  | failSweep j =>
    simp only [step] at hstep
    split at hstep
    · contradiction
    · rename_i w hw
      split_ifs at hstep with hended
      exact Option.some.inj hstep ▸ .moved hw (Bool.not_eq_true _ ▸ hended) fun _ _ _ => rfl
  | requestDeletion ownerId grace now =>
    simp only [step] at hstep
    split_ifs at hstep
    cases howner : s.db.owners.find? ownerId with
    | none =>
      simp only [requestDeletion, howner, Option.map_none, Option.some.injEq] at hstep
      exact hstep ▸ .kept
    | some owner =>
      simp only [requestDeletion, howner, Option.map_some, Option.some.injEq] at hstep
      refine hstep ▸ .marked fun id hid => ?_
      rw [Table.find?_put]
      split_ifs
      · rfl
      · exact hid
  | cancelDeletion ownerId =>
    simp only [step] at hstep
    split_ifs at hstep
    refine Option.some.inj hstep ▸ .marked fun id hid => ?_
    rw [Table.find?_mapRows, Option.isSome_map]
    exact hid

/-- A payment that was confirmed is there, or kept. -/
def Kept (db : Db) (id : Uuid) (payment : PaymentRow) : Prop :=
  db.payments.find? id = some payment ∨
    ∃ r, db.accountingRecords.find? id = some r ∧ r = .copied r.retainedAt payment

/-- A step keeps payments that were confirmed. -/
theorem Changed.keeps {db : Db} {sweeps : Table ℕ Sweep} (hchanged : Changed s db sweeps)
    (h : Inv s) {id : Uuid}
    {payment : PaymentRow} (hpaid : payment.status = .paid) (hkept : Kept s.db id payment) :
    Kept db id payment := by
  cases hchanged with
  | kept => exact hkept
  | marked => exact hkept
  | began => exact hkept
  | moved => exact hkept
  | @confirmed i c confirmed ownerName subscription paidThrough read hc hphase =>
    have hlocks : c.phase.payment = some confirmed := by rw [hphase]; rfl
    obtain ⟨k, row, htarget, hrow, hpending, -⟩ := h.pending i c confirmed hc hlocks
    rw [htarget]
    obtain hthere | hbooked := hkept
    · have hk : id ≠ k := by
        rintro rfl
        obtain rfl := Option.some.inj (hrow.symm.trans hthere)
        rw [hpaid] at hpending
        contradiction
      exact Or.inl (by rw [find?_committed, if_neg hk, hthere])
    · exact Or.inr hbooked
  | @purged j w v records owners hw hphase hended =>
    have hsweep := h.sweeps j w hw
    have hcopies := hsweep.copies
    have hbooked := hsweep.booked
    rw [hphase] at hcopies hbooked
    obtain hthere | ⟨r, hr, hagrees⟩ := hkept
    · by_cases hgone : payment.ownerId ∈ owners
      · right
        cases hfind : s.db.accountingRecords.find? id with
        | some r =>
          have hagrees := (h.sound.booked id r payment hfind hthere).2
          exact ⟨r, by rw [AccountPurge.purged, find?_withRecords, hfind, Option.some_or], hagrees⟩
        | none =>
          obtain hin | hin := hbooked id payment hthere hpaid hgone
          · rw [hfind] at hin
            contradiction
          · obtain ⟨r, hr⟩ := Option.isSome_iff_exists.mp hin
            have hagrees := (hcopies id r payment hr hthere).2
            refine ⟨r, ?_, hagrees⟩
            rw [AccountPurge.purged, find?_withRecords, hfind, Option.none_or]
            exact hr
      · exact Or.inl (find?_purged_payments.mpr ⟨hthere, hgone⟩)
    · exact Or.inr ⟨r, by rw [AccountPurge.purged, find?_withRecords, hr, Option.some_or], hagrees⟩

/-- A run keeps payments that were confirmed. -/
theorem kept_run {actions : List Action} (h : Inv s) (hsafe : SafeRun s actions)
    (hrun : run s actions = some s') {id : Uuid} {payment : PaymentRow}
    (hpaid : payment.status = .paid) (hkept : Kept s.db id payment) : Kept s'.db id payment := by
  induction actions generalizing s with
  | nil => exact Option.some.inj hrun ▸ hkept
  | cons a rest ih =>
    obtain ⟨s₁, hstep, hrest⟩ := Option.bind_eq_some_iff.mp hrun
    exact ih (h.step hsafe.1 hstep) (hsafe.2 s₁ hstep) hrest
      ((changed_of_step hstep).keeps h hpaid hkept)

theorem safeRun_append {pre post : List Action} (hsafe : SafeRun s (pre ++ post))
    (hrun : run s pre = some s') : SafeRun s pre ∧ SafeRun s' post := by
  induction pre generalizing s with
  | nil => exact ⟨trivial, Option.some.inj hrun ▸ hsafe⟩
  | cons a rest ih =>
    obtain ⟨s₁, hstep, hrest⟩ := Option.bind_eq_some_iff.mp hrun
    obtain ⟨hfirst, hmore⟩ := ih (hsafe.2 s₁ hstep) hrest
    refine ⟨⟨hsafe.1, fun s₂ hs₂ => ?_⟩, hmore⟩
    obtain rfl := Option.some.inj (hstep.symm.trans hs₂)
    exact hfirst

/-- A sweep that has deleted, or has ended since. -/
def Past (j : ℕ) (w : Sweep) (sweeps : Table ℕ Sweep) : Prop :=
  sweeps.find? j = some w ∨ ∃ v, sweeps.find? j = some v ∧ v.phase.ended = true

/-- A sweep that has deleted only ends. -/
theorem Changed.past {db : Db} {sweeps : Table ℕ Sweep} (hchanged : Changed s db sweeps) {j : ℕ}
    {began : Timestamp} {records : Table Uuid AccountingRecord} {owners : Finset Uuid}
    (h : Past j ⟨began, .deleted records owners⟩ s.sweeps) :
    Past j ⟨began, .deleted records owners⟩ sweeps := by
  have hother : ∀ {k v}, k ≠ j → Past j ⟨began, .deleted records owners⟩ (s.sweeps.put k v) := by
    intro k v hk
    obtain hw | ⟨v, hv, hended⟩ := h
    · exact Or.inl (by rw [Table.find?_put_ne _ _ hk.symm, hw])
    · exact Or.inr ⟨v, by rw [Table.find?_put_ne _ _ hk.symm, hv], hended⟩
  cases hchanged with
  | kept => exact h
  | confirmed => exact h
  | marked => exact h
  | @began k w hnew =>
    by_cases hk : k = j
    · rw [Past, ← hk, hnew] at h
      simp at h
    · exact hother hk
  | @moved k w v hw hgoing hdone =>
    by_cases hk : k = j
    · subst hk
      right
      refine ⟨v, Table.find?_put_self _ _ _, ?_⟩
      obtain hsame | ⟨u, hu, hended⟩ := h
      · obtain rfl := Option.some.inj (hw.symm.trans hsame)
        exact hdone records owners rfl
      · obtain rfl := Option.some.inj (hw.symm.trans hu)
        rw [hgoing] at hended
        contradiction
    · exact hother hk
  | @purged k w v _ _ hw hphase hended =>
    by_cases hk : k = j
    · subst hk
      exact Or.inr ⟨v, Table.find?_put_self _ _ _, hended⟩
    · exact hother hk

theorem past_run {actions : List Action} {j : ℕ} {began : Timestamp}
    {records : Table Uuid AccountingRecord} {owners : Finset Uuid}
    (h : Past j ⟨began, .deleted records owners⟩ s.sweeps) (hrun : run s actions = some s') :
    Past j ⟨began, .deleted records owners⟩ s'.sweeps := by
  induction actions generalizing s with
  | nil => exact Option.some.inj hrun ▸ h
  | cons a rest ih =>
    obtain ⟨s₁, hstep, hrest⟩ := Option.bind_eq_some_iff.mp hrun
    exact ih ((changed_of_step hstep).past h) hrest

/-- Accounts that are not due when a sweep deletes keep their row and every
payment at its commit. -/
theorem kept_of_not_due {j : ℕ} {began : Timestamp} {records : Table Uuid AccountingRecord}
    {owners : Finset Uuid} (hw : s.sweeps.find? j = some ⟨began, .chosen records owners⟩)
    {s₁ s₂ s₃ : State} {between : List Action} (hdelete : step s (.nextSweep j) = some s₁)
    (hbetween : run s₁ between = some s₂) (hcommit : step s₂ (.nextSweep j) = some s₃)
    {ownerId : Uuid} (hdue : Due s.db began ownerId = false) :
    s₃.db.owners.find? ownerId = s₂.db.owners.find? ownerId ∧
      ∀ id payment, s₂.db.payments.find? id = some payment → payment.ownerId = ownerId →
        s₃.db.payments.find? id = some payment := by
  simp only [step, hw, purgeAccounts] at hdelete
  split_ifs at hdelete
  obtain rfl := Option.some.inj hdelete
  have hpast := past_run (Or.inl (Table.find?_put_self _ _ _)) hbetween
  have hstays : ownerId ∉ owners ∩ dueOwners began s.db := by
    intro hin
    rw [mem_dueOwners.mp (Finset.mem_inter.mp hin).2] at hdue
    contradiction
  obtain hstill | ⟨v, hv, hended⟩ := hpast
  · simp only [step, hstill, purgeAccounts] at hcommit
    obtain rfl := Option.some.inj hcommit
    refine ⟨find?_purged_owners hstays, fun id payment hpayment howner => ?_⟩
    exact find?_purged_payments.mpr ⟨hpayment, howner ▸ hstays⟩
  · simp only [step, hv, purgeAccounts] at hcommit
    cases hphase : v.phase with
    | returned deleted => simp [hphase] at hcommit
    | failed => simp [hphase] at hcommit
    | _ => rw [hphase] at hended; contradiction

/-- A sweep from its beginning to its commit. -/
def alone (j : ℕ) (now : Timestamp) : List Action :=
  [.sweep j now, .nextSweep j, .nextSweep j, .nextSweep j, .nextSweep j, .nextSweep j]

/-- What a sweep on its own leaves. -/
def purgedAt (now : Timestamp) (db : Db) : Db :=
  purged db ((paidByDue now db).filter fun id _ => (db.accountingRecords.find? id).isNone)
    (dueOwners now db)

/-- A sweep in progress runs its next statement. -/
theorem step_nextSweep {j : ℕ} {w : Sweep} (hw : s.sweeps.find? j = some w) :
    step s (.nextSweep j) = purgeAccounts s j w := by
  simp only [step, hw]

theorem run_alone {j : ℕ} {now : Timestamp} (hrun : run s (alone j now) = some s') :
    s'.db = purgedAt now s.db := by
  obtain ⟨s₀, hsweep, hrun⟩ := Option.bind_eq_some_iff.mp hrun
  obtain ⟨s₁, hlist, hrun⟩ := Option.bind_eq_some_iff.mp hrun
  obtain ⟨s₂, hcopy, hrun⟩ := Option.bind_eq_some_iff.mp hrun
  obtain ⟨s₃, hchoose, hrun⟩ := Option.bind_eq_some_iff.mp hrun
  obtain ⟨s₄, hdelete, hrun⟩ := Option.bind_eq_some_iff.mp hrun
  obtain ⟨s₅, hcommit, hrun⟩ := Option.bind_eq_some_iff.mp hrun
  obtain rfl := Option.some.inj hrun
  simp only [step] at hsweep
  split at hsweep
  · contradiction
  obtain rfl := Option.some.inj hsweep
  rw [step_nextSweep (Table.find?_put_self _ _ _)] at hlist
  obtain rfl := Option.some.inj hlist
  rw [step_nextSweep (Table.find?_put_self _ _ _)] at hcopy
  simp only [purgeAccounts] at hcopy
  split_ifs at hcopy
  obtain rfl := Option.some.inj hcopy
  rw [step_nextSweep (Table.find?_put_self _ _ _)] at hchoose
  obtain rfl := Option.some.inj hchoose
  rw [step_nextSweep (Table.find?_put_self _ _ _)] at hdelete
  simp only [purgeAccounts] at hdelete
  split_ifs at hdelete
  obtain rfl := Option.some.inj hdelete
  rw [step_nextSweep (Table.find?_put_self _ _ _)] at hcommit
  obtain rfl := Option.some.inj hcommit
  exact congrArg (purged s.db _) (Finset.inter_self _)

/-- A sweep with nothing due changes nothing. -/
theorem purgedAt_eq_self {now : Timestamp} {db : Db} (hnone : ∀ ownerId, Due db now ownerId = false) :
    purgedAt now db = db := by
  have howners : dueOwners now db = ∅ := by
    refine Finset.eq_empty_of_forall_notMem fun ownerId hin => ?_
    rw [mem_dueOwners, hnone ownerId] at hin
    contradiction
  have hrecords : ∀ id, ((paidByDue now db).filter fun id _ =>
      (db.accountingRecords.find? id).isNone).find? id = none := by
    intro id
    rw [Option.eq_none_iff_forall_not_mem]
    intro r hr
    obtain ⟨payment, -, hdue, -⟩ := find?_paidByDue.mp (Table.find?_filter_eq_some.mp hr).1
    rw [hnone payment.ownerId] at hdue
    contradiction
  have hkept : withRecords db.accountingRecords ((paidByDue now db).filter fun id _ =>
      (db.accountingRecords.find? id).isNone) = db.accountingRecords := by
    refine Table.ext_find? fun id => ?_
    rw [find?_withRecords, hrecords id, Option.or_none]
  simp only [purgedAt, purged, howners, hkept, Finset.notMem_empty, not_false_iff, decide_true,
    Table.filter_true]

/-- Nothing is left to do after a sweep, until another account is due. -/
theorem purgedAt_purgedAt {now later : Timestamp} {db : Db}
    (hnone : ∀ ownerId, Due (purgedAt now db) later ownerId = true →
      Due (purgedAt now db) now ownerId = true) :
    purgedAt later (purgedAt now db) = purgedAt now db := by
  refine purgedAt_eq_self fun ownerId => ?_
  rw [← Bool.not_eq_true]
  intro hlater
  have hnow := hnone ownerId hlater
  have hgone : (purgedAt now db).owners.find? ownerId = none :=
    find?_purged_gone (mem_dueOwners.mpr (due_of_purged hnow))
  rw [Due, hgone] at hnow
  contradiction

end

theorem inv_initial {db : Db} (hsound : db.Sound) : Inv (State.initial db) where
  sound := hsound
  pending := fun _ c _ hc => absurd hc (Option.some_ne_none c).symm
  apart := fun _ _ c _ hc => absurd hc (Option.some_ne_none c).symm
  sweeps := fun _ w hw => absurd hw (Option.some_ne_none w).symm

/-- If no payment of a due account is confirmed while a sweep is between its
two statements, what was paid before an account went is kept once, with its
plan, months and price. Accounts that are not due when a sweep deletes keep
their row and their payments, and a second sweep changes nothing. -/
theorem books_kept_if_undisturbed {db : Db} {pre post : List Action} {s s' : State}
    (hsound : db.Sound) (hsafe : SafeRun (State.initial db) (pre ++ post))
    (hpre : run (State.initial db) pre = some s) (hpost : run s post = some s') :
    (∀ id payment, s.db.payments.find? id = some payment → payment.status = .paid →
      s'.db.owners.find? payment.ownerId = none →
        ∃ r, s'.db.accountingRecords.find? id = some r ∧
          r.plan = payment.plan ∧ r.months = payment.months ∧ r.amount = payment.amount) ∧
    (∀ j began records owners s₁ between s₂ s₃,
      s.sweeps.find? j = some ⟨began, .chosen records owners⟩ →
      step s (.nextSweep j) = some s₁ → run s₁ between = some s₂ →
      step s₂ (.nextSweep j) = some s₃ → ∀ ownerId, Due s.db began ownerId = false →
        s₃.db.owners.find? ownerId = s₂.db.owners.find? ownerId ∧
          ∀ id payment, s₂.db.payments.find? id = some payment → payment.ownerId = ownerId →
            s₃.db.payments.find? id = some payment) ∧
    ∀ i j now later s₁ s₂, run s (alone i now) = some s₁ →
      (∀ ownerId, Due s₁.db later ownerId = true → Due s₁.db now ownerId = true) →
      run s₁ (alone j later) = some s₂ → s₂.db = s₁.db := by
  obtain ⟨hfirst, hmore⟩ := safeRun_append hsafe hpre
  have hinv := (inv_initial hsound).run hfirst hpre
  refine ⟨fun id payment hpayment hpaid hgone => ?_, ?_, ?_⟩
  · obtain hthere | ⟨r, hr, hagrees⟩ := kept_run hinv hmore hpost hpaid (Or.inl hpayment)
    · have howned := (hinv.run hmore hpost).sound.owned id payment hthere
      rw [hgone] at howned
      contradiction
    · refine ⟨r, hr, ?_⟩
      rw [hagrees]
      exact ⟨rfl, rfl, rfl⟩
  · intro j began records owners s₁ between s₂ s₃ hw hdelete hbetween hcommit ownerId hdue
    exact kept_of_not_due hw hdelete hbetween hcommit hdue
  · intro i j now later s₁ s₂ honce hnone hagain
    rw [run_alone honce] at hnone ⊢
    rw [run_alone hagain, run_alone honce, purgedAt_purgedAt hnone]

instance (ownerId : Uuid) (s : State) : Decidable (Doomed ownerId s) :=
  inferInstanceAs (Decidable (s.sweeps.Any _))

instance (s : State) : (a : Action) → Decidable (Safe s a)
  | .next i _ => inferInstanceAs (Decidable
      (∀ c ∈ s.calls.find? i, ∀ payment ∈ toCommit c.phase, ¬ Doomed payment.ownerId s))
  | .requestDeletion ownerId grace now => inferInstanceAs (Decidable
      (∀ owner ∈ s.db.owners.find? ownerId,
        ¬ s.sweeps.Any fun _ w => w.phase.copying = true ∧ due w.began owner = false ∧
          due w.began (owner.requested grace now) = true))
  | .call _ _ _ _ => inferInstanceAs (Decidable True)
  | .fail _ => inferInstanceAs (Decidable True)
  | .sweep _ _ => inferInstanceAs (Decidable True)
  | .nextSweep _ => inferInstanceAs (Decidable True)
  | .failSweep _ => inferInstanceAs (Decidable True)
  | .cancelDeletion _ => inferInstanceAs (Decidable True)

instance decidableSafeRun : (s : State) → (actions : List Action) → Decidable (SafeRun s actions)
  | _, [] => inferInstanceAs (Decidable True)
  | s, a :: rest =>
    have : ∀ s', Decidable (SafeRun s' rest) := fun s' => decidableSafeRun s' rest
    inferInstanceAs (Decidable (Safe s a ∧ ∀ s' ∈ step s a, SafeRun s' rest))

/-- An owner whose deletion fell due at 10. -/
def ana : Uuid := ⟨2⟩

/-- Ana's payment. -/
def anasPayment : PaymentRow :=
  ⟨⟨ana, "basic", 1, 14900, .pending, none, none, none⟩, "PHP", "paymongo", some "cs_1"⟩

/-- Ana has asked for deletion, and has a payment open. -/
def openPayment : Db :=
  ⟨Table.empty.put ana ⟨"Ana", some 0, some 10⟩, Table.empty.put ⟨3⟩ anasPayment, Table.empty,
    Table.empty⟩

theorem sound_openPayment : openPayment.Sound where
  owned := by
    intro id payment hpayment
    simp only [openPayment, Table.find?_put] at hpayment
    split_ifs at hpayment with hid
    · obtain rfl := Option.some.inj hpayment
      decide
    · contradiction
  booked := fun id r payment hr => absurd hr (Option.some_ne_none r).symm

/-- The payment is confirmed. -/
def confirmation : List Action :=
  [.call 0 "cs_1" none 21, .next 0 21, .next 0 21, .next 0 21, .next 0 21, .next 0 21]

/-- Confirmed before the sweep begins, the payment is kept. -/
theorem books_kept_if_undisturbed_openPayment :
    ∃ s s', run (State.initial openPayment) confirmation = some s ∧
      run s (alone 0 30) = some s' ∧
      ∃ payment, s.db.payments.find? ⟨3⟩ = some payment ∧ s'.db.owners.find? ana = none ∧
        ∃ r, s'.db.accountingRecords.find? ⟨3⟩ = some r ∧
          r.plan = payment.plan ∧ r.months = payment.months ∧ r.amount = payment.amount := by
  have hboth : ((run (State.initial openPayment) confirmation).bind fun s =>
      (run s (alone 0 30)).bind fun s' => (s.db.payments.find? ⟨3⟩).map fun payment =>
        decide (payment.status = .paid ∧ payment.ownerId = ana ∧ s'.db.owners.find? ana = none)) =
      some true := by decide
  obtain ⟨s, hpre, hboth⟩ := Option.bind_eq_some_iff.mp hboth
  obtain ⟨s', hpost, hboth⟩ := Option.bind_eq_some_iff.mp hboth
  obtain ⟨payment, hpayment, hboth⟩ := Option.map_eq_some_iff.mp hboth
  obtain ⟨hpaid, howner, hgone⟩ := of_decide_eq_true hboth
  refine ⟨s, s', hpre, hpost, payment, hpayment, hgone, ?_⟩
  exact (books_kept_if_undisturbed sound_openPayment (by decide) hpre hpost).1 _ payment hpayment
    hpaid (howner ▸ hgone)

/-- Confirmed between the sweep's two statements, it is gone without a trace. -/
theorem confirmed_payment_lost :
    openPayment.Sound ∧
      ∃ s s' payment,
        run (State.initial openPayment) (.sweep 0 20 :: .nextSweep 0 :: confirmation) = some s ∧
        run s [.nextSweep 0, .nextSweep 0, .nextSweep 0, .nextSweep 0] = some s' ∧
        s.db.payments.find? ⟨3⟩ = some payment ∧ payment.status = .paid ∧
        s'.db.owners.find? payment.ownerId = none ∧
        s'.db.accountingRecords.find? ⟨3⟩ = none := by
  have hlost : ((run (State.initial openPayment) (.sweep 0 20 :: .nextSweep 0 :: confirmation)).bind
      fun s => (run s [.nextSweep 0, .nextSweep 0, .nextSweep 0, .nextSweep 0]).bind fun s' =>
        (s.db.payments.find? ⟨3⟩).map fun payment =>
          decide (payment.status = .paid ∧ s'.db.owners.find? payment.ownerId = none ∧
            s'.db.accountingRecords.find? ⟨3⟩ = none)) = some true := by decide
  obtain ⟨s, hpre, hlost⟩ := Option.bind_eq_some_iff.mp hlost
  obtain ⟨s', hpost, hlost⟩ := Option.bind_eq_some_iff.mp hlost
  obtain ⟨payment, hpayment, hlost⟩ := Option.map_eq_some_iff.mp hlost
  exact ⟨sound_openPayment, s, s', payment, hpre, hpost, hpayment, of_decide_eq_true hlost⟩

end Kitaza.AccountPurge
