import Mathlib.Data.Finset.Card
import Mathlib.Data.List.Count
import Kitaza.ErrorReports

/-!
# Sending the error reports

Errors are recorded statement by statement while a sync reads the phone's
rows, sends them twenty at a time and removes them. Their counts are
conserved as long as an upload that the server has begun to take is not cut
off, and no row that was sent is bumped before it is removed.
-/

namespace Kitaza.ErrorUpload

open Primitives KeyedTable BillingPlan RateLimiting ErrorReports

/-- Whose phone it is, and what the reporter says of it. -/
structure Phone where
  ownerId : Uuid
  appVersion : String
  platform : String
  deriving DecidableEq, Repr

/-- The statements of `ErrorReportDao.record`. -/
inductive Statement where
  | update
  | insert
  | delete
  deriving DecidableEq, Repr

/-- An error that is being recorded. -/
structure Recording where
  caught : Caught
  /-- The statement that comes next. -/
  next : Statement
  deriving DecidableEq, Repr

/-- An upload under way. -/
structure Upload where
  /-- The reports the server has answered for. -/
  sent : List ErrorReport
  /-- Those still to be sent. -/
  rest : List ErrorReport
  /-- No error was being recorded since they were read. -/
  quiet : Bool
  deriving DecidableEq, Repr

/-- The phone's rows, what is under way on it, and the server. -/
structure State where
  rows : List ErrorReport
  /-- The reporter records one error at a time. -/
  recording : Option Recording
  /-- Syncs never overlap. -/
  upload : Option Upload
  server : Reports
  /-- The fingerprints of the errors that happened. -/
  happened : List String

/-- The server accepts at most this many per request. -/
def batchSize : ℕ := 20

/-- What becomes of a request. -/
inductive Fate where
  /-- It does not reach the server, or its transaction fails. -/
  | lost
  /-- The server handles it, and its answer may be lost. -/
  | handled (verdict : RateLimitVerdict) (heard : Bool)
  deriving DecidableEq, Repr

/-- What happens next. -/
inductive Action where
  /-- `ErrorReporter.record` is called. -/
  | caught (error : Caught)
  /-- The error being recorded gets on by one statement; a row it inserts has
  the given identifier. -/
  | statement (id : Uuid)
  /-- A sync reads the pending reports. -/
  | read
  /-- It posts the next batch. -/
  | post (fate : Fate) (now : Timestamp)
  /-- It is cut off between two requests. -/
  | cut
  /-- It removes what was sent. -/
  | remove
  /-- A phone of another owner posts a batch. -/
  | other (ownerId : Uuid) (batch : List ErrorReportPayload) (verdict : RateLimitVerdict)
      (now : Timestamp)
  deriving DecidableEq, Repr

/-- The row of an error that was not there. -/
def newRow (phone : Phone) (error : Caught) (id : Uuid) : ErrorReport where
  id := id
  fingerprint := error.fingerprint
  errorType := error.errorType
  message := error.message
  stack := error.stack
  occurrences := 1
  firstSeen := error.at_
  lastSeen := error.at_
  appVersion := phone.appVersion
  platform := phone.platform

/-- The next statement of an error that is being recorded. -/
def statement (phone : Phone) (s : State) (id : Uuid) (recording : Recording) : State :=
  let error := recording.caught
  match recording.next with
  | .update =>
    { s with
      rows := bump error.fingerprint error.at_ s.rows
      recording := if 0 < bumped error.fingerprint s.rows then none else some ⟨error, .insert⟩ }
  | .insert =>
    { s with
      rows := insertIgnore (newRow phone error id) s.rows
      recording := some ⟨error, .delete⟩ }
  | .delete => { s with rows := prune s.rows, recording := none }

/-- The batch an upload posts next. -/
def Upload.batch (upload : Upload) : List ErrorReportPayload :=
  (upload.rest.take batchSize).map ErrorReport.toJson

/-- A request of `DiagnosticsApi.upload`. Any failure ends the upload, and
leaves the rows. -/
def post (phone : Phone) (s : State) (fate : Fate) (now : Timestamp) (upload : Upload) : State :=
  match fate with
  | .lost => { s with upload := none }
  | .handled verdict heard =>
    match report verdict phone.ownerId now upload.batch s.server with
    | none => { s with upload := none }
    | some server =>
      if heard then
        { s with
          server := server
          upload := some
            { upload with
              sent := upload.sent ++ upload.rest.take batchSize
              rest := upload.rest.drop batchSize } }
      else { s with server := server, upload := none }

/-- One step. -/
def step (phone : Phone) (s : State) : Action → State
  | .caught error =>
    match s.recording with
    | some _ => s
    | none =>
      { s with
        recording := some ⟨error, .update⟩
        upload := s.upload.map fun upload => { upload with quiet := false }
        happened := error.fingerprint :: s.happened }
  | .statement id =>
    match s.recording with
    | none => s
    | some recording => statement phone s id recording
  | .read =>
    match s.upload with
    | some _ => s
    | none =>
      if pending maxKept s.rows = [] then s
      else { s with upload := some ⟨[], pending maxKept s.rows, s.recording.isNone⟩ }
  | .post fate now =>
    match s.upload with
    | none => s
    | some upload => if upload.rest = [] then s else post phone s fate now upload
  | .cut => { s with upload := none }
  | .remove =>
    match s.upload with
    | none => s
    | some upload =>
      if upload.rest = [] then
        { s with rows := remove (upload.sent.map ErrorReport.id) s.rows, upload := none }
      else s
  | .other ownerId batch verdict now =>
    { s with server := (report verdict ownerId now batch s.server).getD s.server }

/-- A run. -/
def run (phone : Phone) (s : State) (actions : List Action) : State :=
  actions.foldl (step phone) s

/-- Every step of a run meets a condition on the state it is taken in. -/
def Along (phone : Phone) (P : State → Action → Prop) : State → List Action → Prop
  | _, [] => True
  | s, action :: rest => P s action ∧ Along phone P (step phone s action) rest

theorem along_append {phone : Phone} {P : State → Action → Prop} {s : State}
    {before after : List Action} : Along phone P s (before ++ after) ↔
      Along phone P s before ∧ Along phone P (run phone s before) after := by
  induction before generalizing s with
  | nil => exact (and_iff_right trivial).symm
  | cons action rest ih =>
    have hrun : run phone s (action :: rest) = run phone (step phone s action) rest := rfl
    rw [List.cons_append, Along, Along, ih, hrun, and_assoc]

/-- Nothing has happened yet, and the server has no reports of the owner. -/
structure Fresh (phone : Phone) (s : State) : Prop where
  rows : s.rows = []
  recording : s.recording = none
  upload : s.upload = none
  happened : s.happened = []
  server : ∀ identity row, s.server.find? identity = some row → identity.ownerId ≠ phone.ownerId

/-- The errors are of given kinds, an identifier that is drawn is new, and
nothing is past retention on the server when it records a batch. -/
def Within (phone : Phone) (kinds : Finset String) (s : State) : Action → Prop
  | .caught error => error.fingerprint ∈ kinds
  | .statement id => ∀ error, s.recording = some ⟨error, .insert⟩ → ∀ row ∈ s.rows, row.id ≠ id
  | .post _ now => Retained s.server phone.ownerId now ∧
      ∀ upload, s.upload = some upload → ∀ report ∈ upload.rest,
        now - RETENTION_DAYS * DAY ≤ report.lastSeen
  | .other ownerId _ _ now => ownerId ≠ phone.ownerId ∧ Retained s.server phone.ownerId now
  | _ => True

/-- The server records the batch. -/
def Fate.Applied (fate : Fate) (batch : List ErrorReportPayload) : Prop :=
  ∃ heard, fate = .handled .allowed heard ∧ validate batch = true

/-- An upload is not cut off once the server has recorded one of its batches,
and at the removal no row that was sent has been bumped since it was read. -/
def Kept (s : State) : Action → Prop
  | .post fate _ => ∀ upload, s.upload = some upload → upload.rest ≠ [] →
      fate = .handled .allowed true ∧ validate upload.batch = true ∨
        upload.sent = [] ∧ ¬fate.Applied upload.batch
  | .cut => ∀ upload, s.upload = some upload → upload.sent = []
  | .remove => ∀ upload, s.upload = some upload → upload.rest = [] →
      ∀ row ∈ s.rows, ∀ p ∈ upload.sent, row.id = p.id → row.occurrences = p.occurrences
  | _ => True

/-- An upload completes with this step, and no error was being recorded since
it read what is pending. -/
def Completes (s : State) : Action → Prop
  | .read => s.upload = none ∧ pending maxKept s.rows = [] ∧ s.recording = none
  | .remove => ∃ upload, s.upload = some upload ∧ upload.rest = [] ∧ upload.quiet = true
  | _ => False

/-- The server counts every error as often as it happened. -/
def Conserved (phone : Phone) (s : State) : Prop :=
  ∀ fingerprint, occurrences s.server phone.ownerId fingerprint = s.happened.count fingerprint

/-- Of an error, whether it is being recorded and not in a row yet. -/
def unwritten : Option Recording → String → ℕ
  | some ⟨_, .delete⟩, _ => 0
  | some ⟨error, _⟩, fingerprint => if error.fingerprint = fingerprint then 1 else 0
  | none, _ => 0

/-- What an upload under way has put on the server. -/
def doubled : Option Upload → String → ℕ
  | none, _ => 0
  | some upload, fingerprint => held upload.sent fingerprint

/-- What an upload read is still in the rows, and is all there is if no error
was being recorded since. -/
structure Uploading (s : State) (upload : Upload) : Prop where
  there : ∀ p ∈ upload.sent ++ upload.rest,
    ∃ row ∈ s.rows, row.id = p.id ∧ row.fingerprint = p.fingerprint
  names : ((upload.sent ++ upload.rest).map ErrorReport.fingerprint).Nodup
  quiet : upload.quiet = true → s.recording = none ∧ (upload.sent ++ upload.rest).Perm s.rows

/-- What holds between any two steps. -/
structure Inv (phone : Phone) (kinds : Finset String) (s : State) : Prop where
  ids : (s.rows.map ErrorReport.id).Nodup
  names : (s.rows.map ErrorReport.fingerprint).Nodup
  known : ∀ row ∈ s.rows, row.fingerprint ∈ kinds
  caught : ∀ recording, s.recording = some recording → recording.caught.fingerprint ∈ kinds
  absent : ∀ error, s.recording = some ⟨error, .insert⟩ →
    error.fingerprint ∉ s.rows.map ErrorReport.fingerprint
  uploading : ∀ upload, s.upload = some upload → Uploading s upload
  /-- What happened is in a row, about to be, or on the server. -/
  books : ∀ fingerprint, s.happened.count fingerprint + doubled s.upload fingerprint =
    held s.rows fingerprint + unwritten s.recording fingerprint +
      occurrences s.server phone.ownerId fingerprint

section

variable {phone : Phone} {kinds : Finset String} {s : State}

theorem Inv.fresh (h : Fresh phone s) : Inv phone kinds s := by
  have hnone : ∀ fingerprint, occurrences s.server phone.ownerId fingerprint = 0 := by
    intro fingerprint
    apply KeyedTable.Table.sum_eq_zero
    intro identity row hfind
    exact if_neg fun hboth => h.server identity row hfind hboth.1
  constructor
  · rw [h.rows]
    exact List.nodup_nil
  · rw [h.rows]
    exact List.nodup_nil
  · rw [h.rows]
    exact fun _ hrow => absurd hrow List.not_mem_nil
  · rw [h.recording]
    exact fun _ hsome => (by cases hsome)
  · rw [h.recording]
    exact fun _ hsome => (by cases hsome)
  · rw [h.upload]
    exact fun _ hsome => (by cases hsome)
  · intro fingerprint
    rw [h.happened, h.upload, h.rows, h.recording, hnone]
    rfl

/-- Fewer kinds than the phone keeps have fewer rows. -/
theorem Inv.length_le (h : Inv phone kinds s) (hkinds : kinds.card < maxKept) :
    s.rows.length ≤ maxKept := by
  have hcard : (s.rows.map ErrorReport.fingerprint).toFinset.card ≤ kinds.card := by
    apply Finset.card_le_card
    intro fingerprint hmem
    obtain ⟨row, hrow, hname⟩ := List.mem_map.mp (List.mem_toFinset.mp hmem)
    rw [← hname]
    exact h.known row hrow
  rw [List.toFinset_card_of_nodup h.names, List.length_map] at hcard
  omega

/-- A call of the reporter. -/
theorem Inv.caughtStep (h : Inv phone kinds s) {error : Caught}
    (hwithin : error.fingerprint ∈ kinds) : Inv phone kinds (step phone s (.caught error)) := by
  rw [step]
  cases hrecording : s.recording with
  | some recording => exact h
  | none =>
    refine ⟨h.ids, h.names, h.known, ?_, ?_, ?_, ?_⟩
    · intro recording hsome
      cases hsome
      exact hwithin
    · intro other hsome
      cases hsome
    · intro upload hsome
      obtain ⟨old, hold, hupload⟩ := Option.map_eq_some_iff.mp hsome
      have hbefore := h.uploading old hold
      rw [← hupload]
      exact ⟨hbefore.there, hbefore.names, fun hquiet => absurd hquiet Bool.false_ne_true⟩
    · intro fingerprint
      have hbooks := h.books fingerprint
      have hdoubled : doubled (s.upload.map fun upload => { upload with quiet := false })
          fingerprint = doubled s.upload fingerprint := by
        cases s.upload <;> rfl
      rw [hrecording] at hbooks
      simp only [unwritten] at hbooks ⊢
      rw [hdoubled, List.count_cons]
      simp only [beq_iff_eq]
      omega

/-- While an error is being recorded no upload is quiet. -/
theorem Inv.not_quiet (h : Inv phone kinds s) {recording : Recording}
    (hrecording : s.recording = some recording) {upload : Upload}
    (hupload : s.upload = some upload) : upload.quiet ≠ true := by
  intro hquiet
  have hnone := ((h.uploading upload hupload).quiet hquiet).1
  rw [hrecording] at hnone
  cases hnone

/-- The update: the error's row is bumped, or the insertion comes next. -/
theorem Inv.update (h : Inv phone kinds s) {error : Caught}
    (hrecording : s.recording = some ⟨error, .update⟩) (id : Uuid) :
    Inv phone kinds (statement phone s id ⟨error, .update⟩) := by
  have hthere : ∀ upload, s.upload = some upload → ∀ p ∈ upload.sent ++ upload.rest,
      ∃ row ∈ bump error.fingerprint error.at_ s.rows,
        row.id = p.id ∧ row.fingerprint = p.fingerprint := by
    intro upload hupload p hp
    obtain ⟨row, hrow, hid, hname⟩ := (h.uploading upload hupload).there p hp
    refine ⟨_, List.mem_map_of_mem hrow, ?_, ?_⟩
    · split <;> exact hid
    · split <;> exact hname
  rw [statement]
  refine ⟨?_, ?_, ?_, ?_, ?_, ?_, ?_⟩
  · change (List.map _ (bump _ _ _)).Nodup
    rw [map_id_bump]
    exact h.ids
  · change (List.map _ (bump _ _ _)).Nodup
    rw [map_fingerprint_bump]
    exact h.names
  · intro row hrow
    have hname := List.mem_map_of_mem hrow (f := ErrorReport.fingerprint)
    change _ ∈ List.map _ (bump _ _ _) at hname
    rw [map_fingerprint_bump] at hname
    obtain ⟨old, hold, heq⟩ := List.mem_map.mp hname
    rw [← heq]
    exact h.known old hold
  · intro recording hsome
    have hkind := h.caught _ hrecording
    change (if _ then _ else _) = _ at hsome
    split at hsome
    · cases hsome
    · cases hsome
      exact hkind
  · intro other hsome
    change (if _ then _ else _) = _ at hsome
    change _ ∉ List.map _ (bump _ _ _)
    rw [map_fingerprint_bump]
    split at hsome
    next => cases hsome
    next hzero =>
      cases hsome
      exact bumped_eq_zero.mp (by omega)
  · intro upload hupload
    exact ⟨hthere upload hupload, (h.uploading upload hupload).names,
      fun hquiet => absurd hquiet (h.not_quiet hrecording hupload)⟩
  · intro fingerprint
    have hbooks := h.books fingerprint
    rw [hrecording] at hbooks
    change _ = held (bump _ _ _) _ + unwritten (if _ then _ else _) _ + _
    by_cases hmem : error.fingerprint ∈ s.rows.map ErrorReport.fingerprint
    · have hpos : 0 < bumped error.fingerprint s.rows := by
        apply Nat.pos_of_ne_zero
        exact fun hzero => bumped_eq_zero.mp hzero hmem
      rw [held_bump error.at_ h.names hmem, if_pos hpos]
      simp only [unwritten] at hbooks ⊢
      omega
    · rw [bump_eq_self _ hmem, bumped_eq_zero.mpr hmem, if_neg (Nat.lt_irrefl 0)]
      exact hbooks

/-- The insertion: the error gets its row. -/
theorem Inv.insert (h : Inv phone kinds s) {error : Caught}
    (hrecording : s.recording = some ⟨error, .insert⟩) {id : Uuid}
    (hid : ∀ row ∈ s.rows, row.id ≠ id) :
    Inv phone kinds (statement phone s id ⟨error, .insert⟩) := by
  have habsent := h.absent error hrecording
  have hinsert : insertIgnore (newRow phone error id) s.rows = s.rows ++ [newRow phone error id] :=
    insertIgnore_eq hid habsent
  rw [statement]
  simp only [hinsert]
  refine ⟨?_, ?_, ?_, ?_, ?_, ?_, ?_⟩
  · rw [List.map_append, List.nodup_append]
    refine ⟨h.ids, List.nodup_singleton _, ?_⟩
    intro a ha b hb
    obtain ⟨row, hrow, heq⟩ := List.mem_map.mp ha
    rw [List.mem_singleton.mp hb, ← heq]
    exact hid row hrow
  · rw [List.map_append, List.nodup_append]
    refine ⟨h.names, List.nodup_singleton _, ?_⟩
    intro a ha b hb heq
    rw [heq, List.mem_singleton.mp hb] at ha
    exact habsent ha
  · intro row hrow
    cases List.mem_append.mp hrow with
    | inl hold => exact h.known row hold
    | inr hnew =>
      rw [List.mem_singleton.mp hnew]
      exact h.caught _ hrecording
  · intro recording hsome
    have hkind := h.caught _ hrecording
    cases hsome
    exact hkind
  · intro other hsome
    cases hsome
  · intro upload hupload
    have hbefore := h.uploading upload hupload
    refine ⟨fun p hp => ?_, hbefore.names,
      fun hquiet => absurd hquiet (h.not_quiet hrecording hupload)⟩
    obtain ⟨row, hrow, heq⟩ := hbefore.there p hp
    exact ⟨row, List.mem_append_left _ hrow, heq⟩
  · intro fingerprint
    have hbooks := h.books fingerprint
    have hnew : held [newRow phone error id] fingerprint =
        if error.fingerprint = fingerprint then 1 else 0 := rfl
    rw [hrecording] at hbooks
    simp only [unwritten] at hbooks ⊢
    rw [held_append, hnew]
    omega

/-- The deletion finds nothing to delete. -/
theorem Inv.delete (h : Inv phone kinds s) (hkinds : kinds.card < maxKept) {error : Caught}
    (hrecording : s.recording = some ⟨error, .delete⟩) (id : Uuid) :
    Inv phone kinds (statement phone s id ⟨error, .delete⟩) := by
  rw [statement]
  simp only [prune_eq_self (h.length_le hkinds)]
  refine ⟨h.ids, h.names, h.known, fun _ hsome => (by cases hsome),
    fun _ hsome => (by cases hsome), ?_, ?_⟩
  · intro upload hupload
    have hbefore := h.uploading upload hupload
    exact ⟨hbefore.there, hbefore.names,
      fun hquiet => absurd hquiet (h.not_quiet hrecording hupload)⟩
  · intro fingerprint
    have hbooks := h.books fingerprint
    rw [hrecording] at hbooks
    exact hbooks

/-- The next statement of an error that is being recorded. -/
theorem Inv.statementStep (h : Inv phone kinds s) (hkinds : kinds.card < maxKept) {id : Uuid}
    (hid : ∀ error, s.recording = some ⟨error, .insert⟩ → ∀ row ∈ s.rows, row.id ≠ id) :
    Inv phone kinds (step phone s (.statement id)) := by
  rw [step]
  cases hrecording : s.recording with
  | none => exact h
  | some recording =>
    obtain ⟨error, next⟩ := recording
    cases next with
    | update => exact h.update hrecording id
    | insert => exact h.insert hrecording (hid error hrecording)
    | delete => exact h.delete hkinds hrecording id

/-- The reading: an upload starts with every row to be sent. -/
theorem Inv.read (h : Inv phone kinds s) (hkinds : kinds.card < maxKept) :
    Inv phone kinds (step phone s .read) := by
  rw [step]
  cases hupload : s.upload with
  | some upload => exact h
  | none =>
    have hperm := pending_perm (h.length_le hkinds)
    by_cases hempty : pending maxKept s.rows = []
    · simp only [if_pos hempty]
      exact h
    · simp only [if_neg hempty]
      refine ⟨h.ids, h.names, h.known, h.caught, h.absent, ?_, ?_⟩
      · intro upload hsome
        cases hsome
        refine ⟨fun p hp => ⟨p, hperm.mem_iff.mp hp, rfl, rfl⟩, ?_, fun hquiet => ?_⟩
        · exact (hperm.map _).nodup_iff.mpr h.names
        · exact ⟨Option.isNone_iff_eq_none.mp hquiet, hperm⟩
      · intro fingerprint
        have hbooks := h.books fingerprint
        rw [hupload] at hbooks
        exact hbooks

/-- An upload of which the server has taken nothing may end. -/
theorem Inv.drop (h : Inv phone kinds s)
    (hsent : ∀ upload, s.upload = some upload → upload.sent = []) :
    Inv phone kinds { s with upload := none } := by
  refine ⟨h.ids, h.names, h.known, h.caught, h.absent, fun _ hsome => (by cases hsome), ?_⟩
  intro fingerprint
  have hbooks := h.books fingerprint
  cases hupload : s.upload with
  | none =>
    rw [hupload] at hbooks
    exact hbooks
  | some upload =>
    rw [hupload, doubled, hsent upload hupload, held_nil] at hbooks
    exact hbooks

/-- A batch that is answered for. -/
theorem Inv.sent (h : Inv phone kinds s) {upload : Upload} (hupload : s.upload = some upload)
    {now : Timestamp} (hretained : Retained s.server phone.ownerId now)
    (hrest : ∀ report ∈ upload.rest, now - RETENTION_DAYS * DAY ≤ report.lastSeen) :
    Inv phone kinds
      { s with
        server := record phone.ownerId now upload.batch s.server
        upload := some
          { upload with
            sent := upload.sent ++ upload.rest.take batchSize
            rest := upload.rest.drop batchSize } } := by
  have hbefore := h.uploading upload hupload
  have hall : upload.sent ++ upload.rest.take batchSize ++ upload.rest.drop batchSize =
      upload.sent ++ upload.rest := by
    rw [List.append_assoc, List.take_append_drop]
  refine ⟨h.ids, h.names, h.known, h.caught, h.absent, ?_, ?_⟩
  · intro after hsome
    cases hsome
    refine ⟨?_, ?_, ?_⟩
    · rw [hall]
      exact hbefore.there
    · rw [hall]
      exact hbefore.names
    · rw [hall]
      exact hbefore.quiet
  · intro fingerprint
    have hbooks := h.books fingerprint
    have hbatch : ∀ report ∈ upload.batch, now - RETENTION_DAYS * DAY ≤ report.lastSeen := by
      intro report hreport
      obtain ⟨row, hrow, heq⟩ := List.mem_map.mp hreport
      rw [← heq]
      exact hrest row (List.mem_of_mem_take hrow)
    have hrecord := occurrences_record hretained
      (fun _ : phone.ownerId = phone.ownerId => hbatch) fingerprint
    have hheld : held (upload.rest.take batchSize) fingerprint = tally upload.batch fingerprint :=
      rfl
    rw [if_pos rfl] at hrecord
    rw [hupload] at hbooks
    simp only [doubled] at hbooks ⊢
    rw [hrecord, held_append, hheld]
    omega

/-- A request that meets the condition. -/
theorem Inv.post (h : Inv phone kinds s) {fate : Fate} {now : Timestamp}
    (hwithin : Within phone kinds s (.post fate now)) (hkept : Kept s (.post fate now)) :
    Inv phone kinds (step phone s (.post fate now)) := by
  rw [step]
  cases hupload : s.upload with
  | none => exact h
  | some upload =>
    by_cases hrest : upload.rest = []
    · simp only [if_pos hrest]
      exact h
    · simp only [if_neg hrest]
      cases hkept upload hupload hrest with
      | inl hanswered =>
        have hreport : report .allowed phone.ownerId now upload.batch s.server =
            some (record phone.ownerId now upload.batch s.server) :=
          report_eq_some.mpr ⟨hanswered.2, rfl, rfl⟩
        rw [hanswered.1, ErrorUpload.post]
        simp only [hreport, if_true]
        exact h.sent hupload hwithin.1 (hwithin.2 upload hupload)
      | inr hunsent =>
        have hdrop := h.drop (by
          intro other hother
          rw [hupload, Option.some.injEq] at hother
          rw [← hother]
          exact hunsent.1)
        cases fate with
        | lost => exact hdrop
        | handled verdict heard =>
          have hreport : report verdict phone.ownerId now upload.batch s.server = none := by
            rw [Option.eq_none_iff_forall_ne_some]
            intro after hsome
            obtain ⟨hvalid, hallowed, _⟩ := report_eq_some.mp hsome
            exact hunsent.2 ⟨heard, by rw [hallowed], hvalid⟩
          rw [ErrorUpload.post]
          simp only [hreport]
          exact hdrop

/-- The removal of rows none of which has been bumped. -/
theorem Inv.remove (h : Inv phone kinds s) (hkept : Kept s .remove) :
    Inv phone kinds (step phone s .remove) := by
  rw [step]
  cases hupload : s.upload with
  | none => exact h
  | some upload =>
    by_cases hrest : upload.rest = []
    · simp only [if_pos hrest]
      have hbefore := h.uploading upload hupload
      have hall : upload.sent ++ upload.rest = upload.sent := by rw [hrest, List.append_nil]
      have hsub : (ErrorReports.remove (upload.sent.map ErrorReport.id) s.rows).Sublist s.rows :=
        List.filter_sublist
      refine ⟨h.ids.sublist (hsub.map _), h.names.sublist (hsub.map _),
        fun row hrow => h.known row (hsub.subset hrow), h.caught, ?_,
        fun _ hsome => (by cases hsome), ?_⟩
      · intro error hrecording hmem
        exact h.absent error hrecording ((hsub.map _).subset hmem)
      · intro fingerprint
        have hbooks := h.books fingerprint
        have hthere := hbefore.there
        have hnames := hbefore.names
        rw [hall] at hthere hnames
        have hremoved := held_removed h.ids h.names hnames hthere (hkept upload hupload hrest)
          fingerprint
        have hsplit := held_remove (upload.sent.map ErrorReport.id) s.rows fingerprint
        rw [hupload] at hbooks
        simp only [doubled] at hbooks ⊢
        omega
    · simp only [if_neg hrest]
      exact h

/-- Another owner's request. -/
theorem Inv.other (h : Inv phone kinds s) {ownerId : Uuid} {batch : List ErrorReportPayload}
    {verdict : RateLimitVerdict} {now : Timestamp} (howner : ownerId ≠ phone.ownerId)
    (hretained : Retained s.server phone.ownerId now) :
    Inv phone kinds (step phone s (.other ownerId batch verdict now)) := by
  refine ⟨h.ids, h.names, h.known, h.caught, h.absent, fun upload hupload => ?_, ?_⟩
  · have hbefore := h.uploading upload hupload
    exact ⟨hbefore.there, hbefore.names, hbefore.quiet⟩
  · intro fingerprint
    have hbooks := h.books fingerprint
    have hsame : occurrences ((report verdict ownerId now batch s.server).getD s.server)
        phone.ownerId fingerprint = occurrences s.server phone.ownerId fingerprint := by
      cases hreport : report verdict ownerId now batch s.server with
      | none => rfl
      | some after =>
        obtain ⟨_, _, hafter⟩ := report_eq_some.mp hreport
        rw [Option.getD_some, ← hafter,
          occurrences_record hretained (fun heq => absurd heq howner), if_neg howner, Nat.add_zero]
    change _ = _ + _ + occurrences ((report verdict ownerId now batch s.server).getD s.server) _ _
    rw [hsame]
    exact hbooks

/-- A step that meets the condition. -/
theorem Inv.step (h : Inv phone kinds s) (hkinds : kinds.card < maxKept) {action : Action}
    (hwithin : Within phone kinds s action) (hkept : Kept s action) :
    Inv phone kinds (step phone s action) := by
  cases action with
  | caught error => exact h.caughtStep hwithin
  | statement id => exact h.statementStep hkinds hwithin
  | read => exact h.read hkinds
  | post fate now => exact h.post hwithin hkept
  | cut => exact h.drop hkept
  | remove => exact h.remove hkept
  | other ownerId batch verdict now => exact h.other hwithin.1 hwithin.2

/-- And a run of them. -/
theorem Inv.run (h : Inv phone kinds s) (hkinds : kinds.card < maxKept) {actions : List Action}
    (hwithin : Along phone (Within phone kinds) s actions) (hkept : Along phone Kept s actions) :
    Inv phone kinds (run phone s actions) := by
  induction actions generalizing s with
  | nil => exact h
  | cons action rest ih => exact ih (h.step hkinds hwithin.1 hkept.1) hwithin.2 hkept.2

/-- Where nothing is held, recorded or on its way, the server has it all. -/
theorem Inv.conserved (h : Inv phone kinds s) (hrows : s.rows = []) (hrecording : s.recording = none)
    (hupload : s.upload = none) : Conserved phone s := by
  intro fingerprint
  have hbooks := h.books fingerprint
  rw [hrows, hrecording, hupload, held_nil] at hbooks
  simp only [doubled, unwritten] at hbooks
  omega

/-- An upload that completes while no error is being recorded leaves nothing
on the phone. -/
theorem Inv.completes (h : Inv phone kinds s) (hkinds : kinds.card < maxKept) {action : Action}
    (hkept : Kept s action) (hcompletes : Completes s action) :
    Conserved phone (ErrorUpload.step phone s action) := by
  cases action with
  | read =>
    obtain ⟨hupload, hempty, hrecording⟩ := hcompletes
    have hrows : s.rows = [] := by
      have hperm := pending_perm (h.length_le hkinds)
      rw [hempty] at hperm
      exact hperm.nil_eq.symm
    have hstep : ErrorUpload.step phone s .read = s := by
      rw [ErrorUpload.step, hupload]
      simp only [if_pos hempty]
    rw [hstep]
    exact h.conserved hrows hrecording hupload
  | remove =>
    obtain ⟨upload, hupload, hrest, hquiet⟩ := hcompletes
    obtain ⟨hrecording, hperm⟩ := (h.uploading upload hupload).quiet hquiet
    have hafter := h.remove hkept
    have hstep : ErrorUpload.step phone s .remove =
        { s with
          rows := ErrorReports.remove (upload.sent.map ErrorReport.id) s.rows
          upload := none } := by
      rw [ErrorUpload.step, hupload]
      simp only [if_pos hrest]
    have hrows : ErrorReports.remove (upload.sent.map ErrorReport.id) s.rows = [] := by
      apply List.filter_eq_nil_iff.mpr
      intro row hrow
      rw [hrest, List.append_nil] at hperm
      have hmem : row.id ∈ upload.sent.map ErrorReport.id :=
        List.mem_map_of_mem (hperm.mem_iff.mpr hrow)
      simp [hmem]
    rw [hstep] at hafter ⊢
    exact hafter.conserved hrows hrecording rfl
  | caught error => exact hcompletes.elim
  | statement id => exact hcompletes.elim
  | post fate now => exact hcompletes.elim
  | cut => exact hcompletes.elim
  | other ownerId batch verdict now => exact hcompletes.elim

end

/-- In every run that starts afresh and in which no upload is cut off once the
server has recorded one of its batches, and no row is removed that was bumped
since it was read, the server counts every error as often as it happened once
an upload completes without an error being recorded meanwhile. -/
theorem error_counts_conserved (phone : Phone) (kinds : Finset String)
    (hkinds : kinds.card < maxKept) (s : State) (hfresh : Fresh phone s) (actions : List Action)
    (action : Action) (hwithin : Along phone (Within phone kinds) s (actions ++ [action]))
    (hkept : Along phone Kept s (actions ++ [action]))
    (hcompletes : Completes (run phone s actions) action) :
    Conserved phone (run phone s (actions ++ [action])) := by
  have hinv := (Inv.fresh hfresh).run hkinds (along_append.mp hwithin).1 (along_append.mp hkept).1
  have hlast := (along_append.mp hkept).2.1
  rw [run, List.foldl_append]
  exact hinv.completes hkinds hlast hcompletes

/-- A phone on which nothing has happened. -/
def start : State := ⟨[], none, none, Table.empty, []⟩

/-- An owner's phone. -/
def ownPhone : Phone := ⟨⟨1⟩, "1.4.0", "android"⟩

/-- An error. -/
def stateError : Caught := ⟨"5f3a", "StateError", "Bad state: No element", none, 0⟩

/-- It is caught and recorded. -/
def recorded : List Action :=
  [.caught stateError, .statement ⟨7⟩, .statement ⟨7⟩, .statement ⟨7⟩]

theorem fresh_start : Fresh ownPhone start :=
  ⟨rfl, rfl, rfl, rfl, fun _ _ hfind => (by cases hfind)⟩

/-- A request of the phone, nothing being past retention. -/
theorem within_post {s : State} {fate : Fate} {row : ErrorReport}
    (hretained : Retained s.server ownPhone.ownerId 0)
    (hupload : s.upload.map Upload.rest = some [row]) (hseen : row.lastSeen = 0) :
    Within ownPhone {"5f3a"} s (.post fate 0) := by
  refine ⟨hretained, fun upload hsome report hreport => ?_⟩
  rw [hsome, Option.map_some, Option.some.injEq] at hupload
  rw [hupload] at hreport
  rw [List.mem_singleton.mp hreport, hseen]
  decide

/-- The recording is as it should be. -/
theorem within_recorded {rest : List Action}
    (h : Along ownPhone (Within ownPhone {"5f3a"}) (run ownPhone start recorded) rest) :
    Along ownPhone (Within ownPhone {"5f3a"}) start (recorded ++ rest) := by
  refine along_append.mpr ⟨⟨Finset.mem_singleton_self _, ?_, ?_, ?_, trivial⟩, h⟩
  · exact fun _ hrecording => (by cases hrecording)
  · exact fun _ _ _ hrow => absurd hrow List.not_mem_nil
  · exact fun _ hrecording => (by cases hrecording)

/-- A request that never arrives, and one that does at the next sync. -/
theorem error_counts_conserved_once : Conserved ownPhone (run ownPhone start (recorded ++
    [.read, .post .lost 0, .read, .post (.handled .allowed true) 0] ++ [.remove])) := by
  have hempty : Retained Table.empty ownPhone.ownerId 0 := fun _ _ hfind => (by cases hfind)
  apply error_counts_conserved ownPhone {"5f3a"} (by decide) start fresh_start
  · rw [List.append_assoc]
    apply within_recorded
    exact ⟨trivial, within_post hempty rfl rfl, trivial, within_post hempty rfl rfl, trivial,
      trivial⟩
  · refine ⟨trivial, trivial, trivial, trivial, trivial, ?_, trivial, ?_, ?_, trivial⟩
    · intro upload hupload _
      cases hupload
      refine Or.inr ⟨rfl, ?_⟩
      rintro ⟨heard, hfate, _⟩
      cases hfate
    · intro upload hupload _
      cases hupload
      exact Or.inl ⟨rfl, by decide⟩
    · intro upload hupload _
      cases hupload
      decide
  · exact ⟨_, rfl, rfl, rfl⟩

/-- The answer to the one batch is lost, and the next sync sends it again. -/
def answerLost : List Action :=
  recorded ++ [.read, .post (.handled .allowed false) 0, .read, .post (.handled .allowed true) 0]

/-- The error happens again while its report is sent. -/
def sentMeanwhile : List Action :=
  recorded ++ [.read, .post (.handled .allowed true) 0, .caught stateError, .statement ⟨8⟩, .remove]

/-- In the first run the error happened once and the server counts two; in the
second it happened twice and the server counts one. -/
theorem counts_doubled_or_dropped :
    (Along ownPhone (Within ownPhone {"5f3a"}) start (answerLost ++ [.remove]) ∧
      Completes (run ownPhone start answerLost) .remove ∧
      (run ownPhone start (answerLost ++ [.remove])).happened = ["5f3a"] ∧
      occurrences (run ownPhone start (answerLost ++ [.remove])).server ⟨1⟩ "5f3a" = 2) ∧
    Along ownPhone (Within ownPhone {"5f3a"}) start (sentMeanwhile ++ [.read]) ∧
      Completes (run ownPhone start sentMeanwhile) .read ∧
      (run ownPhone start (sentMeanwhile ++ [.read])).happened = ["5f3a", "5f3a"] ∧
      occurrences (run ownPhone start (sentMeanwhile ++ [.read])).server ⟨1⟩ "5f3a" = 1 := by
  have hempty : Retained Table.empty ownPhone.ownerId 0 := fun _ _ hfind => (by cases hfind)
  refine ⟨⟨?_, ⟨_, rfl, rfl, rfl⟩, rfl, by decide +kernel⟩, ?_, ⟨rfl, rfl, rfl⟩, rfl,
    by decide +kernel⟩
  · rw [answerLost, List.append_assoc]
    apply within_recorded
    exact ⟨trivial, within_post hempty rfl rfl, trivial,
      within_post (retained_record _ _ _ 0 _) rfl rfl, trivial, trivial⟩
  · rw [sentMeanwhile, List.append_assoc]
    apply within_recorded
    refine ⟨trivial, within_post hempty rfl rfl, Finset.mem_singleton_self _, ?_, trivial, trivial,
      trivial⟩
    exact fun _ hrecording => (by cases hrecording)

end Kitaza.ErrorUpload
