import Kitaza.BillingService
import Kitaza.PaymentConfirmation

/-!
# Money taken is money counted

Whatever checkouts, payments and reports interleave, and wherever they break
off: an owner's subscription is extended by the sessions that were paid, each
once and by just what the owner asked for at the price the gateway charged. Until
then a session an owner was sent to is ready to be confirmed.
-/

namespace Kitaza.PaidCheckouts

open KeyedTable Primitives BillingPlan BillingRepository PaymentConfirmation BillingService

section

variable {db₀ : Db} {owner : Uuid} {record : SubscriptionRecord} {billing : BillingRepository.State}
  {reference : String} {payment : Payment}

/-- Database and invariant with one more payment. -/
def issue (db : Db) (reference : String) (payment : Payment) : Db :=
  { db with payments := db.payments.put reference payment }

theorem pending_issue {other : String} (h : other ≠ reference) (p : Payment) :
    Pending (issue db₀ reference payment) other p ↔ Pending db₀ other p := by
  rw [Pending, Pending, issue, Table.find?_put_ne _ _ h]

theorem holds_issue {log : List Confirmation} {other : String} {p : Payment}
    (hne : other ≠ reference) (h : Holds db₀ log other p) :
    Holds (issue db₀ reference payment) log other p where
  status := h.status
  pending := by
    obtain ⟨before, hpending, hrest⟩ := h.pending
    exact ⟨before, (pending_issue hne before).mpr hpending, hrest⟩
  fresh := h.fresh

/-- As long as nobody was told of its reference, a payment joins the others
unnoticed. -/
theorem inv_issue (h : PaymentConfirmation.Inv db₀ owner record billing)
    (hfree : db₀.payments.find? reference = none)
    (hquiet : ∀ j c, billing.calls.find? j = some c → c.reference ≠ reference) :
    PaymentConfirmation.Inv (issue db₀ reference payment) owner record
      { billing with db := issue billing.db reference payment } where
  owners := h.owners
  subscription := h.subscription
  untouched := by
    intro other hnone
    by_cases hother : other = reference
    · rw [hother, issue, issue, Table.find?_put_self, Table.find?_put_self]
    · rw [issue, issue, Table.find?_put_ne _ _ hother, Table.find?_put_ne _ _ hother]
      exact h.untouched other hnone
  entries := by
    intro e he
    obtain ⟨p, hpending, hrest⟩ := h.entries e he
    refine ⟨p, (pending_issue ?_ p).mpr hpending, hrest⟩
    rintro rfl
    exact absurd (hfree.symm.trans hpending.1) nofun
  nodup := h.nodup
  paid := by
    intro before e after hlog
    obtain ⟨p, hfind, hrest⟩ := h.paid before e after hlog
    obtain ⟨c, _, hc, href, _⟩ := h.reported e (by rw [hlog]; simp)
    refine ⟨p, (Table.find?_put_ne _ _ ?_).trans hfind, hrest⟩
    rw [← href]
    exact hquiet _ c hc
  reported := h.reported
  calls := by
    intro j c hc
    have hok := h.calls j c hc
    have hne := hquiet j c hc
    obtain ⟨other, method, began, phase⟩ := c
    cases phase with
    | begun => trivial
    | marked p name => exact holds_issue hne hok
    | read p name current => exact ⟨holds_issue hne hok.1, hok.2⟩
    | extended p name row paidThrough now => exact ⟨holds_issue hne hok.1, hok.2⟩
    | written p name row paidThrough now => exact ⟨holds_issue hne hok.1, hok.2⟩
    | returned result =>
      cases result with
      | none => exact fun p hp => hok p ((pending_issue hne p).mp hp)
      | some result => exact hok
    | failed => trivial
  payments := h.payments
  subscriptions := h.subscriptions

end

variable {mode : BillingMode} {db : Db} {owner : Uuid} {record : SubscriptionRecord}
  {payments : Table String Payment} {s s' : BillingService.State}

variable (db owner record payments) in
/-- The invariant of a run, with the payments as they were when they were given
their references. -/
structure Inv (s : BillingService.State) : Prop where
  /-- Confirmations are sound. -/
  billing : PaymentConfirmation.Inv { db with payments := payments } owner record s.billing
  /-- The payments with references are those of the sessions owners were sent to. -/
  issued : ∀ reference payment, payments.find? reference = some payment ↔
    ∃ i c, s.checkouts.find? i = some c ∧ c.phase.handedOut = some reference ∧
      payment = openPayment c.request
  /-- The row of a checkout in progress is there. -/
  rows : ∀ i c, s.checkouts.find? i = some c → c.phase.waits = true →
    s.unreferenced.find? c.request.paymentId = some (openPayment c.request)
  /-- Two checkouts in progress have two rows. -/
  ids : ∀ i j c d, s.checkouts.find? i = some c → s.checkouts.find? j = some d → i ≠ j →
    c.phase.waits = true → d.phase.waits = true → c.request.paymentId ≠ d.request.paymentId
  /-- The gateway charges what it was asked to. -/
  sessions : ∀ i c reference, s.checkouts.find? i = some c → c.phase.session = some reference →
    s.sessions.find? reference = some ⟨c.request.paymentId, c.request.amountCentavos⟩
  /-- A checkout is for months on offer at their price. -/
  priced : ∀ i c, s.checkouts.find? i = some c →
    c.request.amountCentavos = priceCentavos c.request.plan c.request.months ∧
      (c.request.months ∈ OFFERED_MONTHS ∨ ∃ error, c.phase = .failed error)
  /-- Only sessions that owners were sent to are paid. -/
  paid : ∀ reference ∈ s.paid, (payments.find? reference).isSome = true
  /-- Only sessions that were paid are reported. -/
  reported : ∀ j c, s.billing.calls.find? j = some c → c.reference ∈ s.paid

theorem inv_initial {owners : Table Uuid String} {subscriptions : Table Uuid SubscriptionRecord}
    (h : subscriptions.find? owner = some record) :
    Inv ⟨owners, Table.empty, subscriptions⟩ owner record Table.empty
      (BillingService.State.initial owners subscriptions) where
  billing := PaymentConfirmation.inv_initial h
  issued := by
    intro reference payment
    constructor
    · exact nofun
    · rintro ⟨i, c, hc, _⟩
      cases hc
  rows := fun i c hc => by cases hc
  ids := fun i j c d hc => by cases hc
  sessions := fun i c reference hc => by cases hc
  priced := fun i c hc => by cases hc
  paid := fun reference h => absurd h (Finset.notMem_empty reference)
  reported := fun j c hc => by cases hc

/-- The rows of the other checkouts, and a checkout's own. -/
structure Fits (s : BillingService.State) (i : ℕ) (c : CheckoutCall) (unreferenced : Table Uuid Payment)
    (sessions : Table String Session) : Prop where
  /-- The other rows are still there. -/
  rows : ∀ j d, j ≠ i → s.checkouts.find? j = some d → d.phase.waits = true →
    unreferenced.find? d.request.paymentId = some (openPayment d.request)
  /-- So is its own. -/
  row : c.phase.waits = true →
    unreferenced.find? c.request.paymentId = some (openPayment c.request)
  /-- It is not one of the others. -/
  ids : c.phase.waits = true → ∀ j d, j ≠ i → s.checkouts.find? j = some d →
    d.phase.waits = true → d.request.paymentId ≠ c.request.paymentId
  /-- Sessions stay open. -/
  kept : ∀ reference session, s.sessions.find? reference = some session →
    sessions.find? reference = some session
  /-- Its session charges its price. -/
  charges : ∀ reference, c.phase.session = some reference →
    sessions.find? reference = some ⟨c.request.paymentId, c.request.amountCentavos⟩
  /-- It is for months on offer at their price. -/
  priced : c.request.amountCentavos = priceCentavos c.request.plan c.request.months ∧
    (c.request.months ∈ OFFERED_MONTHS ∨ ∃ error, c.phase = .failed error)

/-- A checkout takes its place among the others; what was handed out is told
apart. -/
theorem Inv.put_checkout {billing : BillingRepository.State} {payments' : Table String Payment}
    (h : Inv db owner record payments s) {i : ℕ} {c : CheckoutCall}
    {unreferenced : Table Uuid Payment} {references : Table Uuid String}
    {sessions : Table String Session} (hfits : Fits s i c unreferenced sessions)
    (hbilling : PaymentConfirmation.Inv { db with payments := payments' } owner record billing)
    (hcalls : billing.calls = s.billing.calls)
    (hissued : ∀ reference payment, payments'.find? reference = some payment ↔
      payments.find? reference = some payment ∨
        c.phase.handedOut = some reference ∧ payment = openPayment c.request)
    (hold : ∀ d, s.checkouts.find? i = some d → d.phase.handedOut = none) :
    Inv db owner record payments' ⟨s.checkouts.put i c, unreferenced, references, billing, sessions,
      s.paid⟩ where
  billing := hbilling
  issued := by
    intro reference payment
    rw [hissued, h.issued]
    constructor
    · rintro (⟨j, d, hd, hhanded, hpayment⟩ | ⟨hhanded, hpayment⟩)
      · have hj : j ≠ i := by
          rintro rfl
          exact absurd ((hold d hd).symm.trans hhanded) nofun
        exact ⟨j, d, (Table.find?_put_ne _ _ hj).trans hd, hhanded, hpayment⟩
      · exact ⟨i, c, Table.find?_put_self _ _ _, hhanded, hpayment⟩
    · rintro ⟨j, d, hd, hhanded, hpayment⟩
      rw [Table.find?_put] at hd
      split at hd
      next =>
        cases hd
        exact .inr ⟨hhanded, hpayment⟩
      next => exact .inl ⟨j, d, hd, hhanded, hpayment⟩
  rows := by
    intro j d hd hwaits
    rw [Table.find?_put] at hd
    split at hd
    next =>
      cases hd
      exact hfits.row hwaits
    next hj => exact hfits.rows j d hj hd hwaits
  ids := by
    intro j k d e hd he hjk hdw hew
    rw [Table.find?_put] at hd he
    split_ifs at hd he with hj hk hk
    · exact absurd (hj.trans hk.symm) hjk
    · cases hd
      exact (hfits.ids hdw k e hk he hew).symm
    · cases he
      exact hfits.ids hew j d hj hd hdw
    · exact h.ids j k d e hd he hjk hdw hew
  sessions := by
    intro j d reference hd hsession
    rw [Table.find?_put] at hd
    split at hd
    next =>
      cases hd
      exact hfits.charges reference hsession
    next => exact hfits.kept reference _ (h.sessions j d reference hd hsession)
  priced := by
    intro j d hd
    rw [Table.find?_put] at hd
    split at hd
    next =>
      cases hd
      exact hfits.priced
    next => exact h.priced j d hd
  paid := by
    intro reference hmem
    obtain ⟨payment, hpayment⟩ := Option.isSome_iff_exists.mp (h.paid reference hmem)
    rw [(hissued reference payment).mpr (.inl hpayment)]
    rfl
  reported := by
    rw [hcalls]
    exact h.reported

/-- A checkout that hands nothing out. -/
theorem Inv.put_quiet (h : Inv db owner record payments s) {i : ℕ} {c : CheckoutCall}
    {unreferenced : Table Uuid Payment} {sessions : Table String Session}
    (hfits : Fits s i c unreferenced sessions) (hquiet : c.phase.handedOut = none)
    (hold : ∀ d, s.checkouts.find? i = some d → d.phase.handedOut = none) :
    Inv db owner record payments { s with
      checkouts := s.checkouts.put i c, unreferenced := unreferenced, sessions := sessions } := by
  refine h.put_checkout hfits h.billing rfl (fun reference payment => ?_) hold
  rw [hquiet]
  simp

/-- A checkout that stands where it stood, or has failed. -/
theorem Inv.fits_same (h : Inv db owner record payments s) {i : ℕ} {c : CheckoutCall}
    {phase : CheckoutPhase} (hc : s.checkouts.find? i = some c)
    (hphase : ∃ error, phase = .failed error) :
    Fits s i { c with phase := phase } s.unreferenced s.sessions := by
  obtain ⟨error, rfl⟩ := hphase
  exact ⟨fun j d _ hd hwaits => h.rows j d hd hwaits, nofun, nofun, fun _ _ hs => hs, nofun,
    (h.priced i c hc).1, .inr ⟨error, rfl⟩⟩

/-- A checkout fails. -/
theorem Inv.fail (h : Inv db owner record payments s) {i : ℕ} {c : CheckoutCall}
    (hc : s.checkouts.find? i = some c) (hopen : c.phase.handedOut = none) (error : CheckoutError) :
    Inv db owner record payments (s.advance i c (.failed error)) :=
  h.put_quiet (h.fits_same hc ⟨error, rfl⟩) rfl fun d hd => by
    rw [hc] at hd
    cases hd
    exact hopen

/-- A payment's row is inserted. -/
theorem Inv.insertRow (h : Inv db owner record payments s) {i : ℕ} {c : CheckoutCall}
    (hc : s.checkouts.find? i = some c) (hphase : c.phase = .asked)
    (hnew : s.unreferenced.find? c.request.paymentId = none) :
    Inv db owner record payments { s.advance i c .opened with
      unreferenced := s.unreferenced.put c.request.paymentId (openPayment c.request) } := by
  have hother : ∀ j d, s.checkouts.find? j = some d → d.phase.waits = true →
      d.request.paymentId ≠ c.request.paymentId := by
    intro j d hd hwaits heq
    have hrow := h.rows j d hd hwaits
    rw [heq, hnew] at hrow
    cases hrow
  refine h.put_quiet ⟨fun j d hj hd hwaits => ?_, fun _ => Table.find?_put_self _ _ _,
    fun _ j d hj hd hwaits => hother j d hd hwaits, fun _ _ hs => hs, nofun, ?_⟩ rfl ?_
  · exact (Table.find?_put_ne _ _ (hother j d hd hwaits)).trans (h.rows j d hd hwaits)
  · obtain ⟨hprice, hmonths | ⟨error, herror⟩⟩ := h.priced i c hc
    · exact ⟨hprice, .inl hmonths⟩
    · rw [hphase] at herror
      cases herror
  · intro d hd
    rw [hc] at hd
    cases hd
    rw [hphase]
    rfl

/-- The gateway opens a session. -/
theorem Inv.create (h : Inv db owner record payments s) {i : ℕ} {request : CheckoutRequest}
    (hc : s.checkouts.find? i = some ⟨request, .opened⟩) {checkout : BillingService.Checkout}
    (hnew : s.sessions.find? checkout.reference = none) :
    Inv db owner record payments { s.advance i ⟨request, .opened⟩ (.created checkout) with
      sessions := s.sessions.put checkout.reference ⟨request.paymentId, request.amountCentavos⟩ } := by
  refine h.put_quiet ⟨fun j d _ hd hwaits => h.rows j d hd hwaits, fun _ => h.rows i ⟨request, .opened⟩ hc rfl,
    fun _ j d hj hd hwaits => h.ids j i d ⟨request, .opened⟩ hd hc hj hwaits rfl, fun reference session hs => ?_,
    fun reference hreference => ?_, ?_⟩ rfl ?_
  · rw [Table.find?_put_ne]
    · exact hs
    · rintro rfl
      exact absurd (hnew.symm.trans hs) nofun
  · cases hreference
    exact Table.find?_put_self _ _ _
  · obtain ⟨hprice, hmonths | ⟨error, herror⟩⟩ := h.priced i _ hc
    · exact ⟨hprice, .inl hmonths⟩
    · cases herror
  · intro d hd
    rw [hc] at hd
    cases hd
    rfl

/-- A row that can be confirmed was issued. -/
theorem Inv.issued_of_row (h : Inv db owner record payments s) {reference : String}
    {payment : Payment} (hrow : s.billing.db.payments.find? reference = some payment) :
    (payments.find? reference).isSome = true := by
  by_cases hlog : ∃ e ∈ s.billing.log, e.reference = reference
  · obtain ⟨e, he, rfl⟩ := hlog
    obtain ⟨before, hpending, _⟩ := h.billing.entries e he
    rw [hpending.1]
    rfl
  · have hnone : ∀ e ∈ s.billing.log, e.reference ≠ reference := fun e he heq => hlog ⟨e, he, heq⟩
    rw [h.billing.untouched reference hnone] at hrow
    rw [hrow]
    rfl

/-- A reference that no row has was not issued. -/
theorem Inv.not_issued (h : Inv db owner record payments s) {reference : String}
    (hnone : s.billing.db.payments.find? reference = none) : payments.find? reference = none := by
  by_cases hlog : ∃ e ∈ s.billing.log, e.reference = reference
  · obtain ⟨e, he, rfl⟩ := hlog
    obtain ⟨before, after, hsplit⟩ := List.append_of_mem he
    obtain ⟨payment, hpayment, _⟩ := h.billing.paid before e after hsplit
    rw [hnone] at hpayment
    cases hpayment
  · rw [← h.billing.untouched reference fun e he heq => hlog ⟨e, he, heq⟩]
    exact hnone

/-- A payment is given its reference, and its owner is told where to pay. -/
theorem Inv.hand_out (h : Inv db owner record payments s) {i : ℕ} {c : CheckoutCall}
    (hc : s.checkouts.find? i = some c) {checkout : BillingService.Checkout}
    (hphase : c.phase = .created checkout)
    (hfree : s.billing.db.payments.find? checkout.reference = none) :
    Inv db owner record (payments.put checkout.reference (openPayment c.request))
      ((setReference s c.request.paymentId (openPayment c.request) checkout.reference).advance i c
        (.returned checkout)) := by
  have hnew := h.not_issued hfree
  have hquiet : ∀ j call, s.billing.calls.find? j = some call →
      call.reference ≠ checkout.reference := by
    rintro j call hcall heq
    have hissued := h.paid _ (h.reported j call hcall)
    rw [heq, hnew] at hissued
    cases hissued
  have hwaits : c.phase.waits = true := by
    rw [hphase]
    rfl
  refine h.put_checkout ⟨fun j d hj hd hdw => ?_, nofun, nofun, fun _ _ hs => hs,
    fun reference hreference => ?_, ?_⟩ (inv_issue h.billing hnew hquiet) rfl
    (fun reference payment => ?_) fun d hd => ?_
  · exact Table.find?_filter_eq_some.mpr
      ⟨h.rows j d hd hdw, decide_eq_true (h.ids j i d c hd hc hj hdw hwaits)⟩
  · cases hreference
    apply h.sessions i c _ hc
    rw [hphase]
    rfl
  · obtain ⟨hprice, hmonths | ⟨error, herror⟩⟩ := h.priced i c hc
    · exact ⟨hprice, .inl hmonths⟩
    · rw [hphase] at herror
      cases herror
  · rw [Table.find?_put]
    by_cases hreference : reference = checkout.reference
    · subst hreference
      rw [if_pos rfl, hnew]
      constructor
      · intro hpayment
        cases hpayment
        exact .inr ⟨rfl, rfl⟩
      · rintro (hpayment | ⟨_, rfl⟩)
        · cases hpayment
        · rfl
    · rw [if_neg hreference]
      constructor
      · exact .inl
      · rintro (hpayment | ⟨hhanded, _⟩)
        · exact hpayment
        · exact absurd (Option.some.inj hhanded).symm hreference
  · rw [hc] at hd
    cases hd
    rw [hphase]
    rfl

/-- The next statement of a checkout. -/
theorem Inv.nextStatement (h : Inv db owner record payments s) {i : ℕ} {c : CheckoutCall}
    (hc : s.checkouts.find? i = some c) (hstep : nextStatement s i c = some s') :
    ∃ payments', Inv db owner record payments' s' := by
  rw [BillingService.nextStatement] at hstep
  cases hphase : c.phase with
  | asked =>
    rw [hphase] at hstep
    dsimp only at hstep
    split at hstep
    next hinsertable =>
      cases hstep
      rw [insertable, Bool.and_eq_true, Bool.and_eq_true, Option.isNone_iff_eq_none] at hinsertable
      exact ⟨_, h.insertRow hc hphase hinsertable.1.1⟩
    next =>
      cases hstep
      exact ⟨_, h.fail hc (by rw [hphase]; rfl) _⟩
  | created checkout =>
    have hrow := h.rows i c hc (by rw [hphase]; rfl)
    rw [hphase, hrow] at hstep
    dsimp only at hstep
    split at hstep
    next =>
      cases hstep
      exact ⟨_, h.fail hc (by rw [hphase]; rfl) _⟩
    next hfree =>
      cases hstep
      rw [Option.not_isSome_iff_eq_none] at hfree
      exact ⟨_, h.hand_out hc hphase hfree⟩
  | opened =>
    rw [hphase] at hstep
    cases hstep
  | returned checkout =>
    rw [hphase] at hstep
    cases hstep
  | failed error =>
    rw [hphase] at hstep
    cases hstep

/-- A session is paid. -/
theorem Inv.pay (h : Inv db owner record payments s) {reference : String}
    (hissued : (payments.find? reference).isSome = true) :
    Inv db owner record payments { s with paid := insert reference s.paid } where
  billing := h.billing
  issued := h.issued
  rows := h.rows
  ids := h.ids
  sessions := h.sessions
  priced := h.priced
  paid := by
    intro other hmem
    rcases Finset.mem_insert.mp hmem with rfl | hmem
    · exact hissued
    · exact h.paid other hmem
  reported := fun j c hc => Finset.mem_insert_of_mem (h.reported j c hc)

/-- A call was there before, told the same reference, or is the one that was
made. -/
theorem calls_of_step {billing billing' : BillingRepository.State} {a : BillingRepository.Action}
    (hstep : BillingRepository.step billing a = some billing') (j : ℕ) (c : Call)
    (hc : billing'.calls.find? j = some c) :
    (∃ i method now, a = .call i c.reference method now) ∨
      ∃ k d, billing.calls.find? k = some d ∧ d.reference = c.reference := by
  have hadvanced : ∀ i d (phase : Phase), billing.calls.find? i = some d →
      billing'.calls = billing.calls.put i { d with phase := phase } →
        ∃ k e, billing.calls.find? k = some e ∧ e.reference = c.reference := by
    intro i d phase hd hcalls
    rw [hcalls, Table.find?_put] at hc
    split at hc
    next =>
      cases hc
      exact ⟨i, d, hd, rfl⟩
    next => exact ⟨j, c, hc, rfl⟩
  cases a with
  | call i reference method now =>
    dsimp only [BillingRepository.step] at hstep
    split at hstep
    next => cases hstep
    next =>
      cases hstep
      rw [Table.find?_put] at hc
      split at hc
      next =>
        cases hc
        exact .inl ⟨i, method, now, rfl⟩
      next => exact .inr ⟨j, c, hc, rfl⟩
  | next i now =>
    dsimp only [BillingRepository.step] at hstep
    split at hstep
    next => cases hstep
    next d hd =>
      obtain ⟨phase, hcalls, _⟩ := confirm_advances hstep
      exact .inr (hadvanced i d phase hd hcalls)
  | fail i =>
    dsimp only [BillingRepository.step] at hstep
    split at hstep
    next => cases hstep
    next d hd =>
      split at hstep
      next => cases hstep
      next =>
        cases hstep
        exact .inr (hadvanced i d .failed hd rfl)

/-- A step of a confirmation. -/
theorem Inv.confirming (h : Inv db owner record payments s) (howner : (db.owners.find? owner).isSome)
    {a : BillingRepository.Action} (hcall : ∀ i reference method now,
      a = .call i reference method now → reference ∈ s.paid)
    (hstep : s.confirming a = some s') : Inv db owner record payments s' := by
  rw [State.confirming, Option.map_eq_some_iff] at hstep
  obtain ⟨billing, hbilling, rfl⟩ := hstep
  refine ⟨h.billing.step howner hbilling, h.issued, h.rows, h.ids, h.sessions, h.priced, h.paid,
    fun j c hc => ?_⟩
  rcases calls_of_step hbilling j c hc with ⟨i, method, now, rfl⟩ | ⟨k, d, hd, href⟩
  · exact hcall i _ method now rfl
  · rw [← href]
    exact h.reported k d hd

/-- A checkout that was just asked for has no row and no session. -/
theorem checkout_quiet (mode : BillingMode) (ownerId : Uuid) (plan : Plan) (months : ℕ)
    (paymentId : Uuid) :
    (checkout mode ownerId plan months paymentId).phase.waits = false ∧
      (checkout mode ownerId plan months paymentId).phase.handedOut = none ∧
      (checkout mode ownerId plan months paymentId).phase.session = none ∧
      (months ∈ OFFERED_MONTHS ∨
        ∃ error, (checkout mode ownerId plan months paymentId).phase = .failed error) := by
  rw [checkout]
  dsimp only
  split_ifs with _ hmonths
  · exact ⟨rfl, rfl, rfl, .inr ⟨_, rfl⟩⟩
  · exact ⟨rfl, rfl, rfl, .inl hmonths⟩
  · exact ⟨rfl, rfl, rfl, .inr ⟨_, rfl⟩⟩

theorem Inv.fits_checkout (h : Inv db owner record payments s) (i : ℕ) {ownerId : Uuid} {plan : Plan}
    {months : ℕ} {paymentId : Uuid} :
    Fits s i (checkout mode ownerId plan months paymentId) s.unreferenced s.sessions := by
  obtain ⟨hwaits, _, hsession, hmonths⟩ := checkout_quiet mode ownerId plan months paymentId
  refine ⟨fun j d _ hd hdw => h.rows j d hd hdw, fun hw => ?_, fun hw => ?_, fun _ _ hs => hs,
    fun reference hr => ?_, rfl, hmonths⟩
  · exact absurd (hwaits.symm.trans hw) nofun
  · exact absurd (hwaits.symm.trans hw) nofun
  · exact absurd (hsession.symm.trans hr) nofun

theorem Inv.step (h : Inv db owner record payments s) (howner : (db.owners.find? owner).isSome)
    {a : BillingService.Action} (hstep : step mode s a = some s') :
    ∃ payments', Inv db owner record payments' s' := by
  cases a with
  | checkout i ownerId plan months paymentId =>
    dsimp only [BillingService.step] at hstep
    split at hstep
    next => cases hstep
    next hnew =>
      cases hstep
      exact ⟨_, h.put_quiet (h.fits_checkout i) (checkout_quiet mode ownerId plan months paymentId).2.1
        fun d hd => absurd (hnew.symm.trans hd) nofun⟩
  | next i =>
    obtain ⟨c, hc, hnext⟩ := Option.bind_eq_some_iff.mp hstep
    exact h.nextStatement hc hnext
  | createCheckout i checkout =>
    dsimp only [BillingService.step] at hstep
    split at hstep
    next request hc hnew =>
      cases hstep
      exact ⟨_, h.create hc hnew⟩
    next => cases hstep
  | fail i =>
    dsimp only [BillingService.step] at hstep
    split at hstep
    next request hc =>
      cases hstep
      exact ⟨_, h.fail hc rfl _⟩
    next request hc =>
      cases hstep
      exact ⟨_, h.fail hc rfl _⟩
    next request checkout hc =>
      cases hstep
      exact ⟨_, h.fail hc rfl _⟩
    next => cases hstep
  | pay reference =>
    dsimp only [BillingService.step] at hstep
    split at hstep
    next hpay =>
      cases hstep
      obtain ⟨i, c, hc, hhanded⟩ := hpay.2
      refine ⟨_, h.pay ?_⟩
      rw [(h.issued reference _).mpr ⟨i, c, hc, hhanded, rfl⟩]
      rfl
    next => cases hstep
  | paymongoWebhook j reference method now =>
    dsimp only [BillingService.step] at hstep
    split at hstep
    next hpaid =>
      refine ⟨_, h.confirming howner (fun i r m n heq => ?_) hstep⟩
      cases heq
      exact hpaid.2
    next => cases hstep
  | payTestCheckout j paymentId now =>
    dsimp only [BillingService.step] at hstep
    split at hstep
    next =>
      split at hstep
      next =>
        cases hstep
        exact ⟨payments, h⟩
      next reference amount hpending =>
        obtain ⟨r, _, hrow⟩ := Option.bind_eq_some_iff.mp hpending
        obtain ⟨payment, hpayment, heq⟩ := Option.map_eq_some_iff.mp hrow
        cases heq
        have hissued := h.issued_of_row (Option.filter_eq_some_iff.mp hpayment).1
        refine ⟨_, (h.pay hissued).confirming howner (fun i r m n heq => ?_) hstep⟩
        cases heq
        exact Finset.mem_insert_self _ _
    next => cases hstep
  | confirm j now => exact ⟨_, h.confirming howner (fun i r m n heq => by cases heq) hstep⟩
  | rollBack j => exact ⟨_, h.confirming howner (fun i r m n heq => by cases heq) hstep⟩

theorem Inv.run (h : Inv db owner record payments s) (howner : (db.owners.find? owner).isSome)
    {actions : List BillingService.Action} (hrun : run mode s actions = some s') :
    ∃ payments', Inv db owner record payments' s' := by
  induction actions generalizing s payments with
  | nil =>
    cases hrun
    exact ⟨_, h⟩
  | cons a actions ih =>
    obtain ⟨next, hstep, hrest⟩ := Option.bind_eq_some_iff.mp hrun
    obtain ⟨_, hnext⟩ := h.step howner hstep
    exact ih hnext hrest

/-- A session that an owner was sent to. -/
def SentTo (owner : Uuid) (s : BillingService.State) (reference : String) (c : CheckoutCall) : Prop :=
  c.request.ownerId = owner ∧ c.phase.handedOut = some reference ∧
    ∃ i, s.checkouts.find? i = some c

/-- The owner's subscription is extended by the sessions that were paid, each
once and by what was asked for. -/
structure Accounted (owner : Uuid) (record : SubscriptionRecord) (s : BillingService.State)
    (order : List Confirmation) : Prop where
  /-- Each was asked for by the owner, charged at its price, and paid. -/
  bought : ∀ e ∈ order, ∃ c session, SentTo owner s e.reference c ∧ e.reference ∈ s.paid ∧
    s.sessions.find? e.reference = some session ∧ session.referenceNumber = c.request.paymentId ∧
    session.amount = priceCentavos c.request.plan c.request.months ∧
    c.request.months ∈ OFFERED_MONTHS ∧ e.purchase.plan = c.request.plan ∧
    e.purchase.months = c.request.months
  /-- None counts twice. -/
  once : (order.map Confirmation.reference).Nodup
  /-- Nothing else extends the subscription. -/
  subscription : s.billing.db.subscriptions.find? owner =
    some (afterAll record (order.map Confirmation.purchase))
  /-- A session some report has been answered for is among them. -/
  told : ∀ reference c, SentTo owner s reference c → ∀ j call result,
    s.billing.calls.find? j = some call → call.reference = reference →
      call.phase = .returned result → reference ∈ order.map Confirmation.reference
  /-- The others can still be confirmed. -/
  waiting : ∀ reference c, SentTo owner s reference c →
    reference ∉ order.map Confirmation.reference →
      s.billing.db.payments.find? reference = some (openPayment c.request)

/-- The row of a payment buys what was asked for. -/
theorem bought_openPayment {request : CheckoutRequest} (h : request.months ∈ OFFERED_MONTHS)
    (now : Timestamp) :
    (openPayment request).bought now = ⟨request.plan, request.months, now⟩ := by
  have hmonths : (max (request.months : ℤ) 1).toNat = request.months := by
    simp only [OFFERED_MONTHS, List.mem_cons, List.not_mem_nil, or_false] at h
    omega
  rw [Payment.bought, Payment.boughtPlan, Payment.boughtMonths, openPayment]
  dsimp only
  rw [Plan.parse_asStr, Option.getD_some, hmonths]

theorem Inv.pending_iff (h : Inv db owner record payments s) {reference : String} {payment : Payment} :
    Pending { db with payments := payments } reference payment ∧ payment.ownerId = owner ↔
      ∃ c, SentTo owner s reference c ∧ payment = openPayment c.request := by
  constructor
  · rintro ⟨⟨hfind, _⟩, howned⟩
    obtain ⟨i, c, hc, hhanded, rfl⟩ := (h.issued reference payment).mp hfind
    exact ⟨c, ⟨howned, hhanded, i, hc⟩, rfl⟩
  · rintro ⟨c, ⟨howned, hhanded, i, hc⟩, rfl⟩
    exact ⟨⟨(h.issued reference _).mpr ⟨i, c, hc, hhanded, rfl⟩, rfl⟩, howned⟩

theorem Inv.accounted (h : Inv db owner record payments s) :
    Accounted owner record s (s.billing.log.filter (·.ownerId = owner)) := by
  have hcounted := h.billing.countedOnce
  refine ⟨fun e he => ?_, hcounted.once, hcounted.subscription,
    fun reference c hsent => ?_, fun reference c hsent hnot => ?_⟩
  · obtain ⟨payment, hpending, howned, hbought⟩ := hcounted.waited e he
    obtain ⟨c, ⟨hmine, hhanded, i, hc⟩, rfl⟩ := h.pending_iff.mp ⟨hpending, howned⟩
    obtain ⟨call, _, hcall, href, _⟩ := h.billing.reported e (List.mem_of_mem_filter he)
    have hsession : c.phase.session = some e.reference := by
      cases hphase : c.phase with
      | returned checkout =>
        rw [hphase] at hhanded
        exact hhanded
      | _ =>
        rw [hphase] at hhanded
        cases hhanded
    obtain ⟨hprice, hmonths | ⟨error, herror⟩⟩ := h.priced i c hc
    · rw [bought_openPayment hmonths] at hbought
      exact ⟨c, _, ⟨hmine, hhanded, i, hc⟩, href ▸ h.reported _ call hcall, h.sessions i c _ hc hsession, rfl, hprice,
        hmonths, congrArg Purchase.plan hbought, congrArg Purchase.months hbought⟩
    · rw [herror] at hhanded
      cases hhanded
  · obtain ⟨hpending, howned⟩ := h.pending_iff.mpr ⟨c, hsent, rfl⟩
    exact fun j call result => hcounted.told reference _ hpending howned j call result
  · obtain ⟨hpending, howned⟩ := h.pending_iff.mpr ⟨c, hsent, rfl⟩
    exact hcounted.waiting reference _ hpending howned hnot

/-- A confirmation goes on; it does not break off by itself. -/
theorem confirm_goes_on {billing billing' : BillingRepository.State} {i : ℕ} {c : Call}
    {now : Timestamp} (hstep : BillingRepository.confirm billing i c now = some billing') :
    ∃ phase : Phase, billing'.calls = billing.calls.put i { c with phase := phase } ∧
      phase ≠ .failed ∧ ∃ more, billing'.log = billing.log ++ more := by
  obtain ⟨reference, method, began, phase⟩ := c
  cases phase with
  | begun =>
    simp only [BillingRepository.confirm] at hstep
    split at hstep
    next =>
      cases hstep
      exact ⟨_, rfl, by simp, [], (List.append_nil _).symm⟩
    next =>
      split at hstep
      next =>
        split at hstep
        next => cases hstep
        next =>
          cases hstep
          exact ⟨_, rfl, by simp, [], (List.append_nil _).symm⟩
      next =>
        cases hstep
        exact ⟨_, rfl, by simp, [], (List.append_nil _).symm⟩
  | marked payment ownerName =>
    simp only [BillingRepository.confirm] at hstep
    split at hstep
    next =>
      cases hstep
      exact ⟨_, rfl, by simp, [], (List.append_nil _).symm⟩
    next =>
      split at hstep
      next => cases hstep
      next =>
        cases hstep
        exact ⟨_, rfl, by simp, [], (List.append_nil _).symm⟩
  | read payment ownerName current =>
    simp only [BillingRepository.confirm] at hstep
    split at hstep
    next => cases hstep
    next =>
      cases hstep
      exact ⟨_, rfl, by simp, [], (List.append_nil _).symm⟩
  | extended payment ownerName subscription paidThrough read =>
    cases hstep
    exact ⟨_, rfl, by simp, [], (List.append_nil _).symm⟩
  | written payment ownerName subscription paidThrough read =>
    cases hstep
    exact ⟨_, rfl, by simp, [_], rfl⟩
  | returned result => cases hstep
  | failed => cases hstep

/-- What confirmations that only go on leave alone. -/
structure Onward (billing billing' : BillingRepository.State) : Prop where
  /-- Nothing that was confirmed is forgotten. -/
  log : ∀ e ∈ billing.log, e ∈ billing'.log
  /-- No call breaks off. -/
  calls : ∀ j c, billing.calls.find? j = some c → c.phase ≠ .failed →
    ∃ d, billing'.calls.find? j = some d ∧ d.reference = c.reference ∧ d.phase ≠ .failed

theorem onward_next {billing billing' : BillingRepository.State} {i : ℕ} {now : Timestamp}
    (hstep : BillingRepository.step billing (.next i now) = some billing') :
    Onward billing billing' := by
  dsimp only [BillingRepository.step] at hstep
  split at hstep
  next => cases hstep
  next c hc =>
    obtain ⟨phase, hcalls, hphase, more, hlog⟩ := confirm_goes_on hstep
    refine ⟨fun e he => ?_, fun j d hd hgoing => ?_⟩
    · rw [hlog]
      exact List.mem_append_left _ he
    · rw [hcalls]
      by_cases hj : j = i
      · subst hj
        rw [hc] at hd
        cases hd
        exact ⟨_, Table.find?_put_self _ _ _, rfl, hphase⟩
      · exact ⟨d, (Table.find?_put_ne _ _ hj).trans hd, rfl, hgoing⟩

theorem onward_run {actions : List BillingRepository.Action}
    {billing billing' : BillingRepository.State} {now : Timestamp}
    (hactions : ∀ a ∈ actions, ∃ i, a = .next i now)
    (hrun : BillingRepository.run billing actions = some billing') : Onward billing billing' := by
  induction actions generalizing billing with
  | nil =>
    cases hrun
    exact ⟨fun e he => he, fun j c hc hgoing => ⟨c, hc, rfl, hgoing⟩⟩
  | cons a actions ih =>
    obtain ⟨next, hstep, hrest⟩ := Option.bind_eq_some_iff.mp hrun
    obtain ⟨i, rfl⟩ := hactions a List.mem_cons_self
    have hfirst := onward_next hstep
    have hafter := ih (fun b hb => hactions b (List.mem_cons_of_mem _ hb)) hrest
    refine ⟨fun e he => hafter.log e (hfirst.log e he), fun j c hc hgoing => ?_⟩
    obtain ⟨d, hd, href, hphase⟩ := hfirst.calls j c hc hgoing
    obtain ⟨e, he, href', hphase'⟩ := hafter.calls j d hd hphase
    exact ⟨e, he, href'.trans href, hphase'⟩

/-- The steps that bring what was paid to its end: reports of what was paid, and
confirmations that go on, at an instant. -/
def Settles (paid : Finset String) (now : Timestamp) : BillingService.Action → Prop
  | .paymongoWebhook _ reference _ t => reference ∈ paid ∧ t = now
  | .confirm _ t => t = now
  | _ => False

/-- Confirmations run as part of the whole. -/
theorem run_confirm {actions : List BillingRepository.Action} {billing : BillingRepository.State}
    {now : Timestamp} (hactions : ∀ a ∈ actions, ∃ i, a = .next i now)
    (hrun : BillingRepository.run s.billing actions = some billing) :
    ∃ more, (∀ a ∈ more, Settles s.paid now a) ∧
      BillingService.run mode s more = some { s with billing := billing } := by
  induction actions generalizing s with
  | nil =>
    cases hrun
    exact ⟨[], nofun, rfl⟩
  | cons a actions ih =>
    obtain ⟨next, hstep, hrest⟩ := Option.bind_eq_some_iff.mp hrun
    obtain ⟨i, rfl⟩ := hactions a List.mem_cons_self
    obtain ⟨more, hmore, hmore'⟩ := @ih { s with billing := next }
      (fun b hb => hactions b (List.mem_cons_of_mem _ hb)) hrest
    refine ⟨.confirm i now :: more, fun b hb => ?_, ?_⟩
    · rcases List.mem_cons.mp hb with rfl | hb
      · rfl
      · exact hmore b hb
    · rw [BillingService.run, BillingService.step, State.confirming, hstep]
      exact hmore'

theorem run_append (s : BillingService.State) (before after : List BillingService.Action) :
    BillingService.run mode s (before ++ after) =
      (BillingService.run mode s before).bind fun s' => BillingService.run mode s' after := by
  induction before generalizing s with
  | nil => rfl
  | cons a before ih =>
    rw [List.cons_append, BillingService.run, BillingService.run, Option.bind_assoc]
    exact congrArg _ (funext ih)

/-- The calls in progress are brought to their end. -/
theorem Inv.completes (h : Inv db owner record payments s) (howner : (db.owners.find? owner).isSome)
    (now : Timestamp) : ∃ more billing, (∀ a ∈ more, Settles s.paid now a) ∧
      BillingService.run mode s more = some { s with billing := billing } ∧
      Onward s.billing billing ∧ billing.AllEnded := by
  obtain ⟨actions, billing, hactions, hrun, hended⟩ := h.billing.completes howner now
  obtain ⟨more, hmore, hmore'⟩ := @run_confirm mode s actions billing now hactions hrun
  exact ⟨more, billing, hmore, hmore', onward_run hactions hrun, hended⟩

/-- A session that was paid is counted after it is reported once more. -/
theorem Inv.report (h : Inv db owner record payments s) (howner : (db.owners.find? owner).isSome)
    {reference : String} (hpaid : reference ∈ s.paid) {c : CheckoutCall}
    (hsent : SentTo owner s reference c) (now : Timestamp) :
    ∃ more billing, (∀ a ∈ more, Settles s.paid now a) ∧
      BillingService.run .payMongo s more = some { s with billing := billing } ∧
      (∀ e ∈ s.billing.log, e ∈ billing.log) ∧ ∃ e ∈ billing.log, e.reference = reference := by
  obtain ⟨j, hj⟩ := Infinite.exists_notMem_finset s.billing.calls.ids
  have hnew : s.billing.calls.find? j = none := Table.notMem_ids.mp hj
  let called : BillingRepository.State :=
    { s.billing with calls := s.billing.calls.put j ⟨reference, none, now, .begun⟩ }
  have hcalled : BillingService.step .payMongo s (.paymongoWebhook j reference none now) =
      some { s with billing := called } := by
    rw [BillingService.step, if_pos ⟨rfl, hpaid⟩, State.confirming, BillingRepository.step, hnew]
    rfl
  obtain ⟨payments', hinv⟩ := h.step howner hcalled
  obtain ⟨more, billing, hmore, hrun, honward, hended⟩ :=
    @Inv.completes .payMongo _ _ _ _ _ hinv howner now
  have hrun' : BillingService.run .payMongo s (.paymongoWebhook j reference none now :: more) =
      some { s with billing := billing } := by
    rw [BillingService.run, hcalled]
    exact hrun
  refine ⟨.paymongoWebhook j reference none now :: more, billing, fun a ha => ?_, hrun',
    honward.log, ?_⟩
  · rcases List.mem_cons.mp ha with rfl | ha
    · exact ⟨hpaid, rfl⟩
    · exact hmore a ha
  · obtain ⟨call, hcall, href, hphase⟩ := honward.calls j ⟨reference, none, now, .begun⟩
      (Table.find?_put_self _ _ _) (by simp)
    obtain ⟨payments'', hlast⟩ := h.run howner hrun'
    cases hreturned : call.phase with
    | returned result =>
      have htold := hlast.accounted.told reference c hsent j call result hcall href hreturned
      obtain ⟨e, he, heq⟩ := List.mem_map.mp htold
      exact ⟨e, List.mem_of_mem_filter he, heq⟩
    | failed => exact absurd hreturned hphase
    | _ =>
      have hend := hended j call hcall
      rw [hreturned] at hend
      cases hend

/-- So are any number of them. -/
theorem Inv.report_all (h : Inv db owner record payments s) (howner : (db.owners.find? owner).isSome)
    (now : Timestamp) {references : List String}
    (hall : ∀ reference ∈ references, reference ∈ s.paid ∧ ∃ c, SentTo owner s reference c) :
    ∃ more billing, (∀ a ∈ more, Settles s.paid now a) ∧
      BillingService.run .payMongo s more = some { s with billing := billing } ∧
      ∀ reference ∈ references, ∃ e ∈ billing.log, e.reference = reference := by
  induction references generalizing s payments with
  | nil => exact ⟨[], s.billing, nofun, rfl, nofun⟩
  | cons reference references ih =>
    obtain ⟨before, billing, hbefore, hrun, hcounted⟩ :=
      ih h fun r hr => hall r (List.mem_cons_of_mem _ hr)
    obtain ⟨hpaid, c, hsent⟩ := hall reference List.mem_cons_self
    obtain ⟨payments', hinv⟩ := h.run howner hrun
    obtain ⟨more, billing', hmore, hrun', hlog, hthis⟩ := hinv.report howner hpaid hsent now
    refine ⟨before ++ more, billing', fun a ha => ?_, ?_, fun r hr => ?_⟩
    · rcases List.mem_append.mp ha with ha | ha
      · exact hbefore a ha
      · exact hmore a ha
    · rw [run_append, hrun]
      exact hrun'
    · rcases List.mem_cons.mp hr with rfl | hr
      · exact hthis
      · obtain ⟨e, he, heq⟩ := hcounted r hr
        exact ⟨e, hlog e he, heq⟩

/-- However checkouts, payments, reports and confirmations interleave, and
wherever they break off: an owner's subscription is extended by the sessions
that were paid, each once and by just the months of the plan the owner asked for
at their price, and a session some report has been answered for is among them;
and reports alone bring all that were paid among them. -/
theorem money_taken_counts {mode : BillingMode} {owners : Table Uuid String}
    {subscriptions : Table Uuid SubscriptionRecord} {owner : Uuid} {record : SubscriptionRecord}
    {actions : List BillingService.Action} {s : BillingService.State}
    (howner : (owners.find? owner).isSome) (hsubscription : subscriptions.find? owner = some record)
    (hrun : BillingService.run mode (.initial owners subscriptions) actions = some s) :
    (∃ order, Accounted owner record s order) ∧
    ∀ now, mode = .payMongo → ∃ more s' order, (∀ a ∈ more, Settles s.paid now a) ∧
      BillingService.run mode s more = some s' ∧ Accounted owner record s' order ∧
      ∀ reference ∈ s.paid, (∃ c, SentTo owner s reference c) →
        reference ∈ order.map Confirmation.reference := by
  obtain ⟨payments, h⟩ := (inv_initial hsubscription).run howner hrun
  refine ⟨⟨_, h.accounted⟩, fun now hmode => ?_⟩
  subst hmode
  classical
  let mine := s.paid.filter fun reference => ∃ c, SentTo owner s reference c
  have hmine : ∀ reference ∈ mine.toList, reference ∈ s.paid ∧ ∃ c, SentTo owner s reference c :=
    fun reference hr => Finset.mem_filter.mp (Finset.mem_toList.mp hr)
  obtain ⟨more, billing, hmore, hrun', hcounted⟩ := h.report_all howner now hmine
  obtain ⟨payments', h'⟩ := h.run howner hrun'
  refine ⟨more, _, _, hmore, hrun', h'.accounted, fun reference hpaid hsent => ?_⟩
  obtain ⟨e, he, rfl⟩ := hcounted reference
    (Finset.mem_toList.mpr (Finset.mem_filter.mpr ⟨hpaid, hsent⟩))
  obtain ⟨c, hsent⟩ := hsent
  obtain ⟨hpending, howned⟩ := h'.pending_iff.mpr ⟨c, hsent, rfl⟩
  exact h'.billing.mem_order he hpending howned

/-- Rosa asks for a month of Pro and then for a year, whose checkout breaks off
when the gateway has opened its session; the month is paid and reported twice. -/
def rosaPays : List BillingService.Action :=
  [.checkout 0 ⟨1⟩ .pro 1 ⟨10⟩, .next 0, .checkout 1 ⟨1⟩ .pro 12 ⟨11⟩, .createCheckout 0 ⟨"cs_a", "a"⟩,
    .next 1, .createCheckout 1 ⟨"cs_b", "b"⟩, .next 0, .fail 1, .pay "cs_a",
    .paymongoWebhook 0 "cs_a" (some "gcash") 5, .paymongoWebhook 1 "cs_a" (some "gcash") 6,
    .confirm 0 7, .confirm 0 8, .confirm 0 9, .confirm 0 10, .confirm 0 11, .confirm 1 12]

theorem money_taken_counts_rosa : ∃ s order,
    BillingService.run .payMongo (.initial (Table.empty.put ⟨1⟩ "Rosa")
      (Table.empty.put ⟨1⟩ ⟨"pro", some (30 * DAY), none⟩)) rosaPays = some s ∧
    Accounted ⟨1⟩ ⟨"pro", some (30 * DAY), none⟩ s order := by
  have hruns : (BillingService.run .payMongo (.initial (Table.empty.put ⟨1⟩ "Rosa")
      (Table.empty.put ⟨1⟩ ⟨"pro", some (30 * DAY), none⟩)) rosaPays).isSome = true := by
    decide +kernel
  obtain ⟨s, hs⟩ := Option.isSome_iff_exists.mp hruns
  have howner : ((Table.empty.put ⟨1⟩ "Rosa" : Table Uuid String).find? ⟨1⟩).isSome = true := by decide
  obtain ⟨⟨order, h⟩, _⟩ := money_taken_counts howner rfl hs
  exact ⟨s, order, hs, h⟩

end Kitaza.PaidCheckouts
