import Kitaza.BillingRepository

/-!
# Each payment counts exactly once

Any number of confirmations, repeated, reordered and at the same time. The
order of their commits is an order in which the payments extend the
subscription one after another, every payment once; one call for each of them
reports it. No confirmation waits forever: the payment's row is locked before
the subscription's, and nothing is locked after that.
-/

namespace Kitaza.PaymentConfirmation

open KeyedTable Primitives BillingPlan BillingRepository

/-- A payment that waits to be confirmed. -/
def Pending (db : Db) (reference : String) (payment : Payment) : Prop :=
  db.payments.find? reference = some payment ∧ payment.status = .pending

/-- What an owner's confirmations bought, in their order. -/
def purchasesOf (owner : Uuid) (log : List Confirmation) : List Purchase :=
  (log.filter (·.ownerId = owner)).map Confirmation.purchase

theorem purchasesOf_concat_self (log : List Confirmation) (e : Confirmation) :
    purchasesOf e.ownerId (log ++ [e]) = purchasesOf e.ownerId log ++ [e.purchase] := by
  simp [purchasesOf]

theorem purchasesOf_concat_ne {owner : Uuid} {e : Confirmation} (h : e.ownerId ≠ owner)
    (log : List Confirmation) : purchasesOf owner (log ++ [e]) = purchasesOf owner log := by
  simp [purchasesOf, h]

section Confirmations

variable (db₀ : Db) (owner : Uuid)

/-- The row a confirmation has locked is the pending payment's, marked paid,
and nobody has confirmed it. -/
structure Holds (log : List Confirmation) (reference : String) (payment : Payment) : Prop where
  /-- It is marked. -/
  status : payment.status = .paid
  /-- It was pending, for the same account, and buys the same. -/
  pending : ∃ before, Pending db₀ reference before ∧ payment.ownerId = before.ownerId ∧
    ∀ now, payment.bought now = before.bought now
  /-- It is not confirmed yet. -/
  fresh : ∀ e ∈ log, e.reference ≠ reference

/-- The subscription a confirmation is about to write is the committed one,
extended by its own purchase. -/
def Extends (db : Db) (payment : Payment) (subscription : SubscriptionRecord)
    (paidThrough now : Timestamp) : Prop :=
  payment.ownerId = owner → ∃ current, db.subscriptions.find? owner = some current ∧
    subscription = extended current (payment.bought now) ∧
    subscription.paidThrough = some paidThrough

/-- What a call knows is true. -/
def CallOk (db : Db) (log : List Confirmation) (i : ℕ) (c : Call) : Prop :=
  match c.phase with
  | .begun => True
  | .marked payment _ => Holds db₀ log c.reference payment
  | .read payment _ current =>
    Holds db₀ log c.reference payment ∧
      (payment.ownerId = owner → current = db.subscriptions.find? owner)
  | .extended payment _ subscription paidThrough now =>
    Holds db₀ log c.reference payment ∧ Extends owner db payment subscription paidThrough now
  | .written payment _ subscription paidThrough now =>
    Holds db₀ log c.reference payment ∧ Extends owner db payment subscription paidThrough now ∧
      payment.paidThrough = some paidThrough
  | .returned (some _) => ∃ e ∈ log, e.call = i ∧ e.reference = c.reference
  | .returned none => ∀ payment, Pending db₀ c.reference payment → payment.ownerId = owner →
      ∃ e ∈ log, e.reference = c.reference
  | .failed => True

/-- The invariant of a run. -/
structure Inv (record : SubscriptionRecord) (s : State) : Prop where
  /-- Owners stay. -/
  owners : s.db.owners = db₀.owners
  /-- The subscription is extended by what was confirmed. -/
  subscription : s.db.subscriptions.find? owner =
    some (afterAll record (purchasesOf owner s.log))
  /-- Other payments are as they were. -/
  untouched : ∀ reference, (∀ e ∈ s.log, e.reference ≠ reference) →
    s.db.payments.find? reference = db₀.payments.find? reference
  /-- What is confirmed was pending, and bought what it was for. -/
  entries : ∀ e ∈ s.log, ∃ payment, Pending db₀ e.reference payment ∧
    e.ownerId = payment.ownerId ∧ e.purchase = payment.bought e.purchase.now
  /-- No payment is confirmed twice. -/
  nodup : (s.log.map Confirmation.reference).Nodup
  /-- A confirmed payment carries the end it led to. -/
  paid : ∀ before e after, s.log = before ++ e :: after → ∃ payment,
    s.db.payments.find? e.reference = some payment ∧ payment.status = .paid ∧
      (e.ownerId = owner → payment.paidThrough =
        (afterAll record (purchasesOf owner (before ++ [e]))).paidThrough)
  /-- One call reports it. -/
  reported : ∀ e ∈ s.log, ∃ c result, s.calls.find? e.call = some c ∧
    c.reference = e.reference ∧ c.phase = .returned (some result)
  /-- Every call knows what is true. -/
  calls : ∀ i c, s.calls.find? i = some c → CallOk db₀ owner s.db s.log i c
  /-- No payment is locked twice. -/
  payments : ∀ i j c d, s.calls.find? i = some c → s.calls.find? j = some d → i ≠ j →
    c.phase.payment.isSome → d.phase.payment.isSome → c.reference ≠ d.reference
  /-- No subscription is locked twice. -/
  subscriptions : ∀ i j c d id, s.calls.find? i = some c → s.calls.find? j = some d → i ≠ j →
    c.phase.subscriptionOf = some id → d.phase.subscriptionOf ≠ some id

variable {db₀ owner}

theorem inv_initial {record : SubscriptionRecord}
    (h : db₀.subscriptions.find? owner = some record) :
    Inv db₀ owner record (State.initial db₀) where
  owners := rfl
  subscription := h
  untouched := fun _ _ => rfl
  entries := fun e he => by cases he
  nodup := List.nodup_nil
  paid := fun before e after h => by simp [State.initial] at h
  reported := fun e he => by cases he
  calls := fun i c hc => by cases hc
  payments := fun i j c d hc => by cases hc
  subscriptions := fun i j c d id hc => by cases hc

variable {record : SubscriptionRecord} {s : State}

theorem not_paymentHeld {i : ℕ} {reference : String} (h : ¬ PaymentHeld i reference s) {j : ℕ}
    {d : Call} (hd : s.calls.find? j = some d) (hj : j ≠ i) (hlocked : d.phase.payment.isSome) :
    d.reference ≠ reference :=
  fun he => Table.not_any.mp h j d hd ⟨hj, he, hlocked⟩

theorem not_subscriptionHeld {i : ℕ} {id : Uuid} (h : ¬ SubscriptionHeld i id s) {j : ℕ}
    {d : Call} (hd : s.calls.find? j = some d) (hj : j ≠ i) : d.phase.subscriptionOf ≠ some id :=
  fun he => Table.not_any.mp h j d hd ⟨hj, he⟩

/-- A call takes its place among the others. -/
theorem Inv.put (h : Inv db₀ owner record s) {i : ℕ} {c : Call}
    (hnew : ∀ d result, s.calls.find? i = some d → d.phase ≠ .returned (some result))
    (hok : CallOk db₀ owner s.db s.log i c)
    (hpay : c.phase.payment.isSome → ∀ j d, s.calls.find? j = some d → j ≠ i →
      d.phase.payment.isSome → d.reference ≠ c.reference)
    (hsub : ∀ id, c.phase.subscriptionOf = some id → ∀ j d, s.calls.find? j = some d → j ≠ i →
      d.phase.subscriptionOf ≠ some id) :
    Inv db₀ owner record { s with calls := s.calls.put i c } where
  owners := h.owners
  subscription := h.subscription
  untouched := h.untouched
  entries := h.entries
  nodup := h.nodup
  paid := h.paid
  reported := by
    intro e he
    obtain ⟨d, result, hd, href, hphase⟩ := h.reported e he
    have hne : e.call ≠ i := by
      rintro rfl
      exact hnew d result hd hphase
    exact ⟨d, result, (Table.find?_put_ne _ _ hne).trans hd, href, hphase⟩
  calls := by
    intro j d hd
    rw [Table.find?_put] at hd
    split_ifs at hd with hj
    · cases hd
      rw [hj]
      exact hok
    · exact h.calls j d hd
  payments := by
    intro j k d e hd he hjk hdl hel
    rw [Table.find?_put] at hd he
    split_ifs at hd he with hj hk hk
    · exact absurd (hj.trans hk.symm) hjk
    · cases hd
      exact (hpay hdl k e he hk hel).symm
    · cases he
      exact hpay hel j d hd hj hdl
    · exact h.payments j k d e hd he hjk hdl hel
  subscriptions := by
    intro j k d e id hd he hjk hdl hel
    rw [Table.find?_put] at hd he
    split_ifs at hd he with hj hk hk
    · exact hjk (hj.trans hk.symm)
    · cases hd
      exact hsub id hdl k e he hk hel
    · cases he
      exact hsub id hel j d hd hj hdl
    · exact h.subscriptions j k d e id hd he hjk hdl hel

theorem Holds.concat {log : List Confirmation} {reference : String} {payment : Payment}
    (h : Holds db₀ log reference payment) {e : Confirmation} (he : e.reference ≠ reference) :
    Holds db₀ (log ++ [e]) reference payment where
  status := h.status
  pending := h.pending
  fresh := by
    intro f hf
    rcases List.mem_append.mp hf with hf | hf
    · exact h.fresh f hf
    · rw [List.mem_singleton.mp hf]
      exact he

/-- A subscription that another account's confirmation leaves alone. -/
theorem find?_committed_of_ne {db : Db} {reference : String} {payment : Payment}
    {subscription : SubscriptionRecord} {id : Uuid} (h : id ≠ payment.ownerId) :
    (committed db reference payment subscription).subscriptions.find? id =
      db.subscriptions.find? id :=
  Table.find?_put_ne _ _ h

/-- What another call knows stays true when a confirmation commits: they have
locked different payments and different subscriptions. -/
theorem CallOk.of_commit {db : Db} {log : List Confirmation} {j : ℕ} {d : Call}
    (h : CallOk db₀ owner db log j d) {reference : String} {payment : Payment}
    {subscription row : SubscriptionRecord} {e : Confirmation} (he : e.reference = reference)
    (hrow : db.subscriptions.find? owner = some row)
    (hpay : d.phase.payment.isSome → d.reference ≠ reference)
    (hsub : d.phase.subscriptionOf ≠ some payment.ownerId) :
    CallOk db₀ owner (committed db reference payment subscription) (log ++ [e]) j d := by
  obtain ⟨ref, method, began, phase⟩ := d
  cases phase with
  | begun => trivial
  | marked mine name =>
    exact Holds.concat h (he ▸ (hpay rfl).symm)
  | read mine name current =>
    obtain ⟨hholds, hcurrent⟩ := h
    refine ⟨hholds.concat (he ▸ (hpay rfl).symm), fun ho => ?_⟩
    have hsome : current = some row := (hcurrent ho).trans hrow
    subst hsome
    have hne : owner ≠ payment.ownerId := by
      rintro rfl
      exact hsub (congrArg some ho)
    rw [find?_committed_of_ne hne, hrow]
  | extended mine name written paidThrough now =>
    obtain ⟨hholds, hextends⟩ := h
    refine ⟨hholds.concat (he ▸ (hpay rfl).symm), fun ho => ?_⟩
    have hne : owner ≠ payment.ownerId := by
      rintro rfl
      exact hsub (congrArg some ho)
    rw [find?_committed_of_ne hne]
    exact hextends ho
  | written mine name written paidThrough now =>
    obtain ⟨hholds, hextends, hpaid⟩ := h
    refine ⟨hholds.concat (he ▸ (hpay rfl).symm), fun ho => ?_, hpaid⟩
    have hne : owner ≠ payment.ownerId := by
      rintro rfl
      exact hsub (congrArg some ho)
    rw [find?_committed_of_ne hne]
    exact hextends ho
  | returned result =>
    cases result with
    | none =>
      intro p hp ho
      obtain ⟨f, hf, href⟩ := h p hp ho
      exact ⟨f, List.mem_append_left _ hf, href⟩
    | some result =>
      obtain ⟨f, hf, hcall⟩ := h
      exact ⟨f, List.mem_append_left _ hf, hcall⟩
  | failed => trivial

/-- The last confirmation of a log, or one before it. -/
theorem concat_eq_append_cons {log before after : List Confirmation} {e f : Confirmation}
    (h : log ++ [e] = before ++ f :: after) :
    (before = log ∧ f = e) ∨ ∃ rest, log = before ++ f :: rest := by
  rcases List.eq_nil_or_concat after with rfl | ⟨rest, x, rfl⟩
  · left
    obtain ⟨hlog, hlast⟩ := List.append_inj' h rfl
    exact ⟨hlog.symm, by simpa using hlast.symm⟩
  · right
    rw [List.concat_eq_append, ← List.cons_append, ← List.append_assoc] at h
    exact ⟨rest, (List.append_inj' h rfl).1⟩

/-- A commit leaves the owner's subscription where their purchases put it, and
a payment of theirs carries its end. -/
theorem Inv.subscription_of_commit (h : Inv db₀ owner record s) (reference : String)
    {payment : Payment} {subscription : SubscriptionRecord} {paidThrough now : Timestamp}
    (hextends : Extends owner s.db payment subscription paidThrough now)
    (hpaid : payment.paidThrough = some paidThrough) {e : Confirmation}
    (howner : e.ownerId = payment.ownerId) (hbuys : e.purchase = payment.bought now) :
    (committed s.db reference payment subscription).subscriptions.find? owner =
        some (afterAll record (purchasesOf owner (s.log ++ [e]))) ∧
      (e.ownerId = owner → payment.paidThrough =
        (afterAll record (purchasesOf owner (s.log ++ [e]))).paidThrough) := by
  by_cases ho : payment.ownerId = owner
  · obtain ⟨current, hcurrent, hwrites, hend⟩ := hextends ho
    have hnow : current = afterAll record (purchasesOf owner s.log) :=
      Option.some.inj (hcurrent.symm.trans h.subscription)
    subst ho
    rw [← howner, purchasesOf_concat_self s.log e, afterAll_concat, howner, ← hnow, hbuys,
      ← hwrites, hend]
    exact ⟨Table.find?_put_self _ _ _, fun _ => hpaid⟩
  · rw [purchasesOf_concat_ne (howner ▸ ho), find?_committed_of_ne (Ne.symm ho)]
    exact ⟨h.subscription, fun hmine => absurd (howner.symm.trans hmine) ho⟩

theorem Inv.commit (h : Inv db₀ owner record s) {i : ℕ} {c : Call} {payment : Payment}
    {ownerName : String} {subscription : SubscriptionRecord} {paidThrough now : Timestamp}
    (hc : s.calls.find? i = some c)
    (hphase : c.phase = .written payment ownerName subscription paidThrough now)
    (result : ConfirmedPayment) {e : Confirmation}
    (he : e = ⟨i, c.reference, payment.ownerId, payment.bought now⟩) :
    Inv db₀ owner record
      { db := committed s.db c.reference payment subscription
        calls := s.calls.put i { c with phase := .returned (some result) }
        log := s.log ++ [e] } := by
  have hok := h.calls i c hc
  simp only [CallOk, hphase] at hok
  obtain ⟨hholds, hextends, hpaid⟩ := hok
  obtain ⟨before, hpending, hsame, hbuys⟩ := hholds.pending
  have hmine : c.phase.payment.isSome = true := by rw [hphase]; rfl
  have hlock : c.phase.subscriptionOf = some payment.ownerId := by rw [hphase]; rfl
  have howner : e.ownerId = payment.ownerId := by rw [he]
  have hbought : e.purchase = payment.bought now := by rw [he]
  have hsubscription := h.subscription_of_commit c.reference hextends hpaid howner hbought
  constructor
  · exact h.owners
  · exact hsubscription.1
  · intro reference hfresh
    have hne : reference ≠ c.reference := by
      subst he
      exact (hfresh _ (List.mem_append_right _ List.mem_cons_self)).symm
    change (s.db.payments.put _ _).find? _ = _
    rw [Table.find?_put_ne _ _ hne]
    exact h.untouched reference fun f hf => hfresh f (List.mem_append_left _ hf)
  · intro f hf
    rcases List.mem_append.mp hf with hf | hf
    · exact h.entries f hf
    · rw [List.mem_singleton.mp hf, he]
      exact ⟨before, hpending, hsame, hbuys now⟩
  · rw [List.map_append, List.nodup_append]
    refine ⟨h.nodup, List.nodup_singleton _, ?_⟩
    rintro a ha b hb rfl
    obtain ⟨f, hf, href⟩ := List.mem_map.mp ha
    rw [List.map_singleton, List.mem_singleton, he] at hb
    exact hholds.fresh f hf (href.trans hb)
  · intro earlier f later hsplit
    rcases concat_eq_append_cons hsplit with ⟨rfl, rfl⟩ | ⟨rest, hlog⟩
    · have href : f.reference = c.reference := by rw [he]
      rw [href]
      exact ⟨payment, Table.find?_put_self _ _ _, hholds.status, hsubscription.2⟩
    · have hmem : f ∈ s.log := by
        rw [hlog]
        exact List.mem_append_right _ List.mem_cons_self
      change ∃ p, (s.db.payments.put _ _).find? _ = _ ∧ _
      rw [Table.find?_put_ne _ _ (hholds.fresh f hmem)]
      exact h.paid earlier f rest hlog
  · intro f hf
    rcases List.mem_append.mp hf with hf | hf
    · obtain ⟨d, res, hd, href, hret⟩ := h.reported f hf
      have hne : f.call ≠ i := by
        rintro rfl
        rw [hc] at hd
        cases hd
        rw [hphase] at hret
        cases hret
      exact ⟨d, res, (Table.find?_put_ne _ _ hne).trans hd, href, hret⟩
    · rw [List.mem_singleton.mp hf, he]
      exact ⟨_, result, Table.find?_put_self _ _ _, rfl, rfl⟩
  · intro j d hd
    rw [Table.find?_put] at hd
    split_ifs at hd with hj
    · cases hd
      rw [hj]
      exact ⟨e, List.mem_append_right _ List.mem_cons_self, by rw [he], by rw [he]⟩
    · exact (h.calls j d hd).of_commit (by rw [he]) h.subscription
        (fun hl => h.payments j i d c hd hc hj hl hmine)
        (h.subscriptions i j c d _ hc hd (Ne.symm hj) hlock)
  · intro j k d f hd hf hjk hdl hfl
    rw [Table.find?_put] at hd hf
    split_ifs at hd hf with hj hk hk
    · exact absurd (hj.trans hk.symm) hjk
    · cases hd
      cases hdl
    · cases hf
      cases hfl
    · exact h.payments j k d f hd hf hjk hdl hfl
  · intro j k d f id hd hf hjk hdl hfl
    rw [Table.find?_put] at hd hf
    split_ifs at hd hf with hj hk hk
    · exact hjk (hj.trans hk.symm)
    · cases hd
      cases hdl
    · cases hf
      cases hfl
    · exact h.subscriptions j k d f id hd hf hjk hdl hfl

/-- A call that comes further without committing. -/
theorem Inv.advance (h : Inv db₀ owner record s) {i : ℕ} {c : Call} {phase : Phase}
    (hc : s.calls.find? i = some c) (hopen : c.phase.ended = false)
    (hok : CallOk db₀ owner s.db s.log i { c with phase := phase })
    (hpay : phase.payment.isSome → c.phase.payment.isSome ∨ ¬ PaymentHeld i c.reference s)
    (hsub : ∀ id, phase.subscriptionOf = some id →
      c.phase.subscriptionOf = some id ∨ ¬ SubscriptionHeld i id s) :
    Inv db₀ owner record (s.advance i c phase) := by
  apply h.put
  · intro d result hd hret
    rw [hc] at hd
    cases hd
    rw [hret] at hopen
    cases hopen
  · exact hok
  · intro hlocked j d hd hj hother
    rcases hpay hlocked with hmine | hfree
    · exact h.payments j i d c hd hc hj hother hmine
    · exact not_paymentHeld hfree hd hj hother
  · intro id hlocked j d hd hj
    rcases hsub id hlocked with hmine | hfree
    · exact h.subscriptions i j c d id hc hd (Ne.symm hj) hmine
    · exact not_subscriptionHeld hfree hd hj

/-- A confirmation that finds nothing to confirm: somebody has confirmed it. -/
theorem Inv.returned_none (h : Inv db₀ owner record s) (howner : (db₀.owners.find? owner).isSome)
    {reference : String}
    (hnone : ∀ payment, s.db.payments.find? reference = some payment →
      payment.status = .pending → s.db.owners.find? payment.ownerId = none)
    {payment : Payment} (hpending : Pending db₀ reference payment)
    (hmine : payment.ownerId = owner) : ∃ e ∈ s.log, e.reference = reference := by
  by_contra hno
  have hfresh : ∀ e ∈ s.log, e.reference ≠ reference := fun e he href => hno ⟨e, he, href⟩
  have hfind := (h.untouched reference hfresh).trans hpending.1
  have habsent := hnone payment hfind hpending.2
  rw [h.owners, hmine] at habsent
  rw [habsent] at howner
  cases howner

/-- A payment that is still pending is not confirmed. -/
theorem Inv.fresh_of_pending (h : Inv db₀ owner record s) {reference : String} {payment : Payment}
    (hfind : s.db.payments.find? reference = some payment) (hstatus : payment.status = .pending) :
    ∀ e ∈ s.log, e.reference ≠ reference := by
  rintro e he rfl
  obtain ⟨before, after, hlog⟩ := List.append_of_mem he
  obtain ⟨p, hp, hpaid, _⟩ := h.paid before e after hlog
  rw [hfind] at hp
  cases hp
  rw [hstatus] at hpaid
  cases hpaid

theorem Inv.confirm (h : Inv db₀ owner record s) (howner : (db₀.owners.find? owner).isSome)
    {i : ℕ} {c : Call} {now : Timestamp} {s' : State} (hc : s.calls.find? i = some c)
    (hstep : confirm s i c now = some s') : Inv db₀ owner record s' := by
  have hok := h.calls i c hc
  obtain ⟨reference, method, began, phase⟩ := c
  cases phase with
  | begun =>
    simp only [BillingRepository.confirm] at hstep
    split at hstep
    · rename_i hnone
      cases hstep
      refine h.advance hc rfl ?_ (fun hl => by cases hl) (fun id hl => by cases hl)
      intro payment hpending hmine
      apply h.returned_none howner _ hpending hmine
      intro p hp
      rw [hnone] at hp
      cases hp
    · rename_i payment hpayment
      split at hstep
      · rename_i ownerName hstatus hname
        split_ifs at hstep with hheld
        cases hstep
        have hfresh := h.fresh_of_pending hpayment hstatus
        have hfind := (h.untouched reference hfresh).symm.trans hpayment
        exact h.advance hc rfl ⟨rfl, ⟨payment, ⟨hfind, hstatus⟩, rfl, fun _ => rfl⟩, hfresh⟩
          (fun _ => Or.inr hheld) (fun id hl => by cases hl)
      · rename_i hnot
        cases hstep
        refine h.advance hc rfl ?_ (fun hl => by cases hl) (fun id hl => by cases hl)
        intro p hpending hmine
        apply h.returned_none howner _ hpending hmine
        intro q hq hstatus
        rw [hpayment] at hq
        cases hq
        cases hname : s.db.owners.find? payment.ownerId with
        | none => rfl
        | some name => exact absurd hname (hnot name hstatus)
  | marked payment ownerName =>
    simp only [BillingRepository.confirm] at hstep
    split at hstep
    · rename_i hnone
      cases hstep
      refine h.advance hc rfl ⟨hok, fun ho => ?_⟩ (fun _ => Or.inl rfl) (fun id hl => by cases hl)
      rw [← ho, hnone]
    · rename_i current hcurrent
      split_ifs at hstep with hheld
      cases hstep
      refine h.advance hc rfl ⟨hok, fun ho => ?_⟩ (fun _ => Or.inl rfl) (fun id hl => ?_)
      · rw [← ho, hcurrent]
      · cases hl
        exact Or.inr hheld
  | read payment ownerName current =>
    simp only [BillingRepository.confirm] at hstep
    split_ifs at hstep with hheld
    cases hstep
    refine h.advance hc rfl ⟨hok.1, fun ho => ?_⟩ (fun _ => Or.inl rfl) (fun id hl => ?_)
    · have hcurrent := hok.2 ho
      rw [ho, h.subscription]
      refine ⟨_, rfl, ?_, rfl⟩
      rw [hcurrent, h.subscription]
      rfl
    · cases hl
      exact Or.inr hheld
  | extended payment ownerName subscription paidThrough read =>
    cases hstep
    refine h.advance hc rfl ⟨⟨hok.1.status, hok.1.pending, hok.1.fresh⟩, hok.2, rfl⟩
      (fun _ => Or.inl rfl) (fun id hl => Or.inl hl)
  | written payment ownerName subscription paidThrough read =>
    cases hstep
    exact h.commit hc rfl _ rfl
  | returned result => cases hstep
  | failed => cases hstep

theorem Inv.step (h : Inv db₀ owner record s) (howner : (db₀.owners.find? owner).isSome)
    {a : Action} {s' : State} (hstep : step s a = some s') : Inv db₀ owner record s' := by
  cases a with
  | call i reference method now =>
    simp only [BillingRepository.step] at hstep
    split at hstep
    · cases hstep
    · rename_i hnone
      cases hstep
      apply h.put
      · intro d result hd
        rw [hnone] at hd
        cases hd
      · trivial
      · intro hl
        cases hl
      · intro id hl
        cases hl
  | next i now =>
    simp only [BillingRepository.step] at hstep
    split at hstep
    · cases hstep
    · rename_i c hc
      exact h.confirm howner hc hstep
  | fail i =>
    simp only [BillingRepository.step] at hstep
    split at hstep
    · cases hstep
    · rename_i c hc
      split_ifs at hstep with hended
      cases hstep
      exact h.advance hc (Bool.eq_false_iff.mpr hended) trivial (fun hl => by cases hl)
        (fun id hl => by cases hl)

theorem Inv.run (h : Inv db₀ owner record s) (howner : (db₀.owners.find? owner).isSome)
    {actions : List Action} {s' : State} (hrun : run s actions = some s') :
    Inv db₀ owner record s' := by
  induction actions generalizing s with
  | nil =>
    cases hrun
    exact h
  | cons a rest ih =>
    obtain ⟨mid, hmid, hrest⟩ := Option.bind_eq_some_iff.mp hrun
    exact ih (h.step howner hmid) hrest

/-- A step of a confirmation brings that call further and leaves the others. -/
theorem confirm_advances {i : ℕ} {c : Call} {now : Timestamp} {s' : State}
    (hstep : confirm s i c now = some s') : ∃ phase : Phase,
      s'.calls = s.calls.put i { c with phase := phase } ∧
        phase.stepsLeft < c.phase.stepsLeft := by
  obtain ⟨reference, method, began, phase⟩ := c
  cases phase with
  | begun =>
    simp only [BillingRepository.confirm] at hstep
    split at hstep
    · cases hstep
      exact ⟨_, rfl, by simp [Phase.stepsLeft]⟩
    · split at hstep
      · split_ifs at hstep
        cases hstep
        exact ⟨_, rfl, by simp [Phase.stepsLeft]⟩
      · cases hstep
        exact ⟨_, rfl, by simp [Phase.stepsLeft]⟩
  | marked payment ownerName =>
    simp only [BillingRepository.confirm] at hstep
    split at hstep
    · cases hstep
      exact ⟨_, rfl, by simp [Phase.stepsLeft]⟩
    · split_ifs at hstep
      cases hstep
      exact ⟨_, rfl, by simp [Phase.stepsLeft]⟩
  | read payment ownerName current =>
    simp only [BillingRepository.confirm] at hstep
    split_ifs at hstep
    cases hstep
    exact ⟨_, rfl, by simp [Phase.stepsLeft]⟩
  | extended payment ownerName subscription paidThrough read =>
    cases hstep
    exact ⟨_, rfl, by simp [Phase.stepsLeft]⟩
  | written payment ownerName subscription paidThrough read =>
    cases hstep
    exact ⟨_, rfl, by simp [Phase.stepsLeft]⟩
  | returned result => cases hstep
  | failed => cases hstep

/-- A confirmation that holds its subscription's row can go on. -/
theorem confirm_of_subscription {i : ℕ} {c : Call} {id : Uuid}
    (hlock : c.phase.subscriptionOf = some id) (hfree : ¬ SubscriptionHeld i id s)
    (now : Timestamp) : (confirm s i c now).isSome := by
  obtain ⟨reference, method, began, phase⟩ := c
  cases phase with
  | read payment ownerName current =>
    cases current with
    | none => cases hlock
    | some current =>
      cases hlock
      simp [BillingRepository.confirm, hfree]
  | extended payment ownerName subscription paidThrough read => rfl
  | written payment ownerName subscription paidThrough read => rfl
  | _ => cases hlock

/-- A confirmation that holds its payment's row can go on, unless it waits for
a subscription's row. -/
theorem confirm_of_payment {i : ℕ} {c : Call} (hlock : c.phase.payment.isSome)
    (hfree : ∀ id, ¬ SubscriptionHeld i id s) (now : Timestamp) :
    (confirm s i c now).isSome := by
  obtain ⟨reference, method, began, phase⟩ := c
  cases phase with
  | marked payment ownerName =>
    cases hfind : s.db.subscriptions.find? payment.ownerId with
    | none => simp [BillingRepository.confirm, hfind]
    | some current => simp [BillingRepository.confirm, hfind, hfree]
  | read payment ownerName current => simp [BillingRepository.confirm, hfree]
  | extended payment ownerName subscription paidThrough read => rfl
  | written payment ownerName subscription paidThrough read => rfl
  | _ => cases hlock

/-- While a call has not ended, some call can go on. -/
theorem Inv.progress (h : Inv db₀ owner record s) {i : ℕ} {c : Call}
    (hc : s.calls.find? i = some c) (hopen : c.phase.ended = false) (now : Timestamp) :
    ∃ j d, s.calls.find? j = some d ∧ (BillingRepository.confirm s j d now).isSome := by
  by_cases hsub : s.calls.Any fun _ d => d.phase.subscriptionOf.isSome
  · obtain ⟨j, d, hd, hlock⟩ := hsub
    obtain ⟨id, hid⟩ := Option.isSome_iff_exists.mp hlock
    refine ⟨j, d, hd, confirm_of_subscription hid ?_ now⟩
    rintro ⟨k, e, he, hk, hheld⟩
    exact h.subscriptions j k d e id hd he (Ne.symm hk) hid hheld
  · have hfree : ∀ j id, ¬ SubscriptionHeld j id s := by
      rintro j id ⟨k, e, he, _, hheld⟩
      have hlock : e.phase.subscriptionOf.isSome = true := by
        rw [hheld]
        rfl
      exact hsub ⟨k, e, he, hlock⟩
    by_cases hpay : s.calls.Any fun _ d => d.phase.payment.isSome
    · obtain ⟨j, d, hd, hlock⟩ := hpay
      exact ⟨j, d, hd, confirm_of_payment hlock (hfree j) now⟩
    · have hunlocked : ¬ PaymentHeld i c.reference s := by
        rintro ⟨k, e, he, _, _, hheld⟩
        exact hpay ⟨k, e, he, hheld⟩
      have hnone : c.phase.payment.isSome = false := Bool.eq_false_iff.mpr fun hl => hpay ⟨i, c, hc, hl⟩
      refine ⟨i, c, hc, ?_⟩
      obtain ⟨reference, method, began, phase⟩ := c
      cases phase with
      | begun =>
        simp only [BillingRepository.confirm]
        split
        · rfl
        · split
          · rw [if_neg hunlocked]
            rfl
          · rfl
      | returned result => cases hopen
      | failed => cases hopen
      | _ => cases hnone

/-- The statements that all calls have to come. -/
def statementsLeft (s : State) : ℕ := s.calls.sum fun _ c => c.phase.stepsLeft

theorem statementsLeft_lt {i : ℕ} {c : Call} {now : Timestamp} {s' : State}
    (hc : s.calls.find? i = some c) (hstep : confirm s i c now = some s') :
    statementsLeft s' < statementsLeft s := by
  obtain ⟨phase, hcalls, hlt⟩ := confirm_advances hstep
  rw [statementsLeft, statementsLeft, hcalls]
  refine (Table.sum_lt_of_rows ?_).2 i c hc (by omega) ?_
  · intro k d hd
    rw [Table.find?_put] at hd
    split_ifs at hd with hk
    · cases hd
      exact ⟨c, hk ▸ hc, hlt.le⟩
    · exact ⟨d, hd, le_rfl⟩
  · intro d hd
    rw [Table.find?_put_self] at hd
    cases hd
    exact hlt

/-- The calls in progress can all be brought to their end. -/
theorem Inv.completes (h : Inv db₀ owner record s) (howner : (db₀.owners.find? owner).isSome)
    (now : Timestamp) : ∃ actions s', (∀ a ∈ actions, ∃ i, a = .next i now) ∧
      BillingRepository.run s actions = some s' ∧ s'.AllEnded := by
  induction hleft : statementsLeft s using Nat.strong_induction_on generalizing s with
  | _ n ih =>
    by_cases hdone : s.AllEnded
    · exact ⟨[], s, fun a ha => (List.not_mem_nil ha).elim, rfl, hdone⟩
    · obtain ⟨i, c, hc, hopen⟩ : ∃ i c, s.calls.find? i = some c ∧ c.phase.ended = false := by
        simpa [State.AllEnded] using hdone
      obtain ⟨j, d, hd, hgo⟩ := h.progress hc hopen now
      obtain ⟨mid, hmid⟩ := Option.isSome_iff_exists.mp hgo
      have hlt := statementsLeft_lt hd hmid
      obtain ⟨rest, s', hrest, hrun, hended⟩ :=
        ih _ (hleft ▸ hlt) (h.confirm howner hd hmid) rfl
      refine ⟨.next j now :: rest, s', ?_, ?_, hended⟩
      · intro a ha
        rcases List.mem_cons.mp ha with rfl | ha
        · exact ⟨j, rfl⟩
        · exact hrest a ha
      · rw [BillingRepository.run, BillingRepository.step, hd]
        change (BillingRepository.confirm s j d now).bind _ = _
        rw [hmid]
        exact hrun

variable (db₀ owner) in
/-- The owner's payments counted once each, in an order. -/
structure CountedOnce (record : SubscriptionRecord) (s : State) (order : List Confirmation) :
    Prop where
  /-- Each of them waited, and bought what it was for. -/
  waited : ∀ e ∈ order, ∃ payment, Pending db₀ e.reference payment ∧ payment.ownerId = owner ∧
    e.purchase = payment.bought e.purchase.now
  /-- None counts twice. -/
  once : (order.map Confirmation.reference).Nodup
  /-- The subscription is extended by all of them. -/
  subscription : s.db.subscriptions.find? owner =
    some (afterAll record (order.map Confirmation.purchase))
  /-- Each carries the end that it led to. -/
  receipts : ∀ before e after, order = before ++ e :: after → ∃ payment,
    s.db.payments.find? e.reference = some payment ∧ payment.status = .paid ∧
      payment.paidThrough =
        (afterAll record ((before ++ [e]).map Confirmation.purchase)).paidThrough
  /-- Exactly one call reports it. -/
  reported : ∀ e ∈ order, ∃! i, ∃ c result, s.calls.find? i = some c ∧
    c.reference = e.reference ∧ c.phase = .returned (some result)
  /-- A payment some call has returned for is among them. -/
  told : ∀ reference payment, Pending db₀ reference payment → payment.ownerId = owner →
    ∀ i c result, s.calls.find? i = some c → c.reference = reference →
      c.phase = .returned result → reference ∈ order.map Confirmation.reference
  /-- The others still wait. -/
  waiting : ∀ reference payment, Pending db₀ reference payment → payment.ownerId = owner →
    reference ∉ order.map Confirmation.reference →
      s.db.payments.find? reference = some payment

/-- Two confirmations of one payment are one. -/
theorem Inv.eq_of_reference (h : Inv db₀ owner record s) {e f : Confirmation} (he : e ∈ s.log)
    (hf : f ∈ s.log) (href : e.reference = f.reference) : e = f :=
  List.inj_on_of_nodup_map h.nodup he hf href

/-- A confirmation of a payment of the owner is among the owner's. -/
theorem Inv.mem_order (h : Inv db₀ owner record s) {e : Confirmation} (he : e ∈ s.log)
    {payment : Payment} (hpending : Pending db₀ e.reference payment)
    (hmine : payment.ownerId = owner) :
    e.reference ∈ (s.log.filter (·.ownerId = owner)).map Confirmation.reference := by
  obtain ⟨p, hp, howner, _⟩ := h.entries e he
  have hsame : p = payment := Option.some.inj (hp.1.symm.trans hpending.1)
  have howned : e.ownerId = owner := by rw [howner, hsame, hmine]
  exact List.mem_map_of_mem (List.mem_filter.mpr ⟨he, decide_eq_true howned⟩)

theorem Inv.countedOnce (h : Inv db₀ owner record s) :
    CountedOnce db₀ owner record s (s.log.filter (·.ownerId = owner)) where
  waited := by
    intro e he
    obtain ⟨hmem, howned⟩ := List.mem_filter.mp he
    obtain ⟨payment, hpending, howner, hbuys⟩ := h.entries e hmem
    exact ⟨payment, hpending, howner.symm.trans (of_decide_eq_true howned), hbuys⟩
  once := h.nodup.sublist (List.filter_sublist.map _)
  subscription := h.subscription
  receipts := by
    intro before e after horder
    obtain ⟨l₁, l₂, hlog, hbefore, hrest⟩ := List.filter_eq_append_iff.mp horder
    obtain ⟨m₁, m₂, hl₂, hskip, hmine, hafter⟩ := List.filter_eq_cons_iff.mp hrest
    have hsplit : s.log = (l₁ ++ m₁) ++ e :: m₂ := by rw [hlog, hl₂, List.append_assoc]
    obtain ⟨payment, hfind, hstatus, hpaid⟩ := h.paid _ e _ hsplit
    refine ⟨payment, hfind, hstatus, ?_⟩
    have hprefix : ((l₁ ++ m₁) ++ [e]).filter (·.ownerId = owner) = before ++ [e] := by
      have hnone : m₁.filter (·.ownerId = owner) = [] := List.filter_eq_nil_iff.mpr hskip
      have hone : [e].filter (·.ownerId = owner) = [e] := List.filter_eq_self.mpr (by simpa using hmine)
      rw [List.filter_append, List.filter_append, hbefore, hnone, hone, List.append_nil]
    rw [hpaid (of_decide_eq_true hmine), purchasesOf, hprefix]
  reported := by
    intro e he
    obtain ⟨hmem, _⟩ := List.mem_filter.mp he
    obtain ⟨c, result, hc, href, hphase⟩ := h.reported e hmem
    refine ⟨e.call, ⟨c, result, hc, href, hphase⟩, ?_⟩
    rintro i ⟨d, res, hd, hdref, hdphase⟩
    have hok := h.calls i d hd
    simp only [CallOk, hdphase] at hok
    obtain ⟨f, hf, hcall, hfref⟩ := hok
    rw [← hcall, h.eq_of_reference hf hmem (hfref.trans hdref)]
  told := by
    rintro reference payment hpending hmine i c result hc rfl hphase
    have hok := h.calls i c hc
    simp only [CallOk, hphase] at hok
    cases result with
    | none =>
      obtain ⟨e, he, href⟩ := hok payment hpending hmine
      rw [← href] at hpending ⊢
      exact h.mem_order he hpending hmine
    | some result =>
      obtain ⟨e, he, _, href⟩ := hok
      rw [← href] at hpending ⊢
      exact h.mem_order he hpending hmine
  waiting := by
    intro reference payment hpending hmine hnot
    have hfresh : ∀ e ∈ s.log, e.reference ≠ reference := by
      rintro e he rfl
      exact hnot (h.mem_order he hpending hmine)
    exact (h.untouched reference hfresh).trans hpending.1

/-- In whatever order confirmations are called, repeated and interleaved: the
owner's payments that calls returned for extend the subscription once each, in
some order, each is reported by exactly one call and carries the end it led
to; and the calls in progress can all be brought to their end. -/
theorem each_payment_counts_once (howner : (db₀.owners.find? owner).isSome)
    (hsub : db₀.subscriptions.find? owner = some record) {actions : List Action}
    (hrun : BillingRepository.run (State.initial db₀) actions = some s) :
    (∃ order, CountedOnce db₀ owner record s order) ∧
    ∀ now, ∃ more s', (∀ a ∈ more, ∃ i, a = .next i now) ∧
      BillingRepository.run s more = some s' ∧ s'.AllEnded := by
  have h := (inv_initial hsub).run howner hrun
  exact ⟨⟨_, h.countedOnce⟩, fun now => h.completes howner now⟩

end Confirmations

/-- An account on trial with two payments under way. -/
def trialAccount : Db where
  owners := Table.empty.put ⟨1⟩ "Rosa"
  payments := (Table.empty.put "a" ⟨⟨1⟩, "pro", 1, 199, .pending, none, none, none⟩).put "b"
    ⟨⟨1⟩, "basic", 12, 990, .pending, none, none, none⟩
  subscriptions := Table.empty.put ⟨1⟩ ⟨"pro", some (30 * DAY), none⟩

/-- One payment is reported twice while the other is under way. -/
theorem each_payment_counts_once_duplicate : ∃ s order,
    BillingRepository.run (State.initial trialAccount)
      [.call 0 "a" none 0, .call 1 "a" (some "gcash") 1, .call 2 "b" none 2, .next 0 3, .next 2 3,
        .next 2 4, .next 2 5, .next 2 6, .next 2 7, .next 0 8, .next 0 9, .next 0 10, .next 0 11,
        .next 1 12] = some s ∧ CountedOnce trialAccount ⟨1⟩ ⟨"pro", some (30 * DAY), none⟩ s order := by
  have hruns : (BillingRepository.run (State.initial trialAccount)
      [.call 0 "a" none 0, .call 1 "a" (some "gcash") 1, .call 2 "b" none 2, .next 0 3, .next 2 3,
        .next 2 4, .next 2 5, .next 2 6, .next 2 7, .next 0 8, .next 0 9, .next 0 10, .next 0 11,
        .next 1 12]).isSome = true := by
    decide +kernel
  obtain ⟨s, hs⟩ := Option.isSome_iff_exists.mp hruns
  have howner : (trialAccount.owners.find? ⟨1⟩).isSome = true := by decide
  obtain ⟨⟨order, h⟩, _⟩ := each_payment_counts_once howner rfl hs
  exact ⟨s, order, hs, h⟩

end Kitaza.PaymentConfirmation
