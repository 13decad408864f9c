import Mathlib.Data.List.Sort
import Kitaza.RateLimiting
import Kitaza.TimestampText

/-!
# Error reports

The phone keeps one row for each distinct error, with how often it happened,
until the server has it. The server adds what it is sent to its row for the
owner, the error and the version of the app.
-/

namespace Kitaza.ErrorReports

open Primitives KeyedTable BillingPlan TimestampText RateLimiting

/-- An error the phone caught. -/
structure Caught where
  /-- What tells one error from another. -/
  fingerprint : String
  errorType : String
  message : String
  stack : Option String
  /-- When it happened. -/
  at_ : Timestamp
  deriving DecidableEq, Repr

/-- One distinct error seen on this phone, however many times it happened. -/
structure ErrorReport where
  id : Uuid
  fingerprint : String
  errorType : String
  message : String
  stack : Option String
  occurrences : ℕ
  firstSeen : Timestamp
  lastSeen : Timestamp
  appVersion : String
  platform : String
  deriving DecidableEq, Repr

/-- The phone keeps at most this many distinct errors. -/
def maxKept : ℕ := 50

/-- `UPDATE error_reports SET occurrences = occurrences + 1, last_seen = ?
WHERE fingerprint = ?`. -/
def bump (fingerprint : String) (when_ : Timestamp) (rows : List ErrorReport) :
    List ErrorReport :=
  rows.map fun row =>
    if row.fingerprint = fingerprint then
      { row with occurrences := row.occurrences + 1, lastSeen := when_ }
    else row

/-- How many rows it changes. -/
def bumped (fingerprint : String) (rows : List ErrorReport) : ℕ :=
  rows.countP fun row => row.fingerprint = fingerprint

/-- The insertion, which does nothing if the identifier or the fingerprint is
taken. -/
def insertIgnore (row : ErrorReport) (rows : List ErrorReport) : List ErrorReport :=
  if rows.any fun other => other.id = row.id ∨ other.fingerprint = row.fingerprint then rows
  else rows ++ [row]

/-- The rows seen last, the texts of `last_seen` compared. -/
def pending (limit : ℕ) (rows : List ErrorReport) : List ErrorReport :=
  (rows.insertionSort fun a b =>
    ¬toIso8601String a.lastSeen < toIso8601String b.lastSeen).take limit

/-- The deletion of all but those that are kept. -/
def prune (rows : List ErrorReport) : List ErrorReport :=
  rows.filter fun row => ((pending maxKept rows).map ErrorReport.id).contains row.id

/-- `ErrorReportDao.remove`. -/
def remove (ids : List Uuid) (rows : List ErrorReport) : List ErrorReport :=
  rows.filter fun row => !ids.contains row.id

/-- A report in a request. -/
structure ErrorReportPayload where
  fingerprint : String
  errorType : String
  message : String
  stack : Option String
  occurrences : ℕ
  firstSeen : Timestamp
  lastSeen : Timestamp
  appVersion : String
  platform : String
  deriving DecidableEq, Repr

/-- `ErrorReport.toJson`. -/
def ErrorReport.toJson (report : ErrorReport) : ErrorReportPayload where
  fingerprint := report.fingerprint
  errorType := report.errorType
  message := report.message
  stack := report.stack
  occurrences := report.occurrences
  firstSeen := report.firstSeen
  lastSeen := report.lastSeen
  appVersion := report.appVersion
  platform := report.platform

/-- A length between two bounds. -/
def lengthIn (least most : ℕ) (s : String) : Bool := least ≤ s.length && s.length ≤ most

/-- The checks on a report. -/
def ErrorReportPayload.validate (report : ErrorReportPayload) : Bool :=
  lengthIn 1 32 report.fingerprint && lengthIn 1 200 report.errorType &&
    lengthIn 0 2000 report.message && report.stack.all (lengthIn 0 16000) &&
    (1 ≤ report.occurrences && report.occurrences ≤ 1000000) &&
    lengthIn 1 64 report.appVersion && lengthIn 1 128 report.platform

/-- The checks on a request. -/
def validate (reports : List ErrorReportPayload) : Bool :=
  (1 ≤ reports.length && reports.length ≤ 20) && reports.all ErrorReportPayload.validate

/-- What a row of `client_error_reports` is found by. -/
structure Identity where
  ownerId : Uuid
  fingerprint : String
  appVersion : String
  deriving DecidableEq, Repr

/-- A row of `client_error_reports`. -/
structure ClientErrorReport where
  errorType : String
  message : String
  stack : Option String
  occurrences : ℕ
  firstSeen : Timestamp
  lastSeen : Timestamp
  platform : String
  receivedAt : Timestamp
  deriving DecidableEq, Repr

/-- The server's rows. -/
abbrev Reports := Table Identity ClientErrorReport

/-- How long reports are kept. -/
def RETENTION_DAYS : ℤ := 90

/-- Insert a report, or add it to the row that is there. -/
def upsert (ownerId : Uuid) (now : Timestamp) (reports : Reports) (report : ErrorReportPayload) :
    Reports :=
  let identity : Identity := ⟨ownerId, report.fingerprint, report.appVersion⟩
  match reports.find? identity with
  | none =>
    reports.put identity
      { errorType := report.errorType
        message := report.message
        stack := report.stack
        occurrences := report.occurrences
        firstSeen := report.firstSeen
        lastSeen := report.lastSeen
        platform := report.platform
        receivedAt := now }
  | some row =>
    reports.put identity
      { row with
        occurrences := row.occurrences + report.occurrences
        firstSeen := min row.firstSeen report.firstSeen
        lastSeen := max row.lastSeen report.lastSeen
        message := report.message
        stack := report.stack.or row.stack
        receivedAt := now }

/-- `DiagnosticsRepository::record`: its transaction. -/
def record (ownerId : Uuid) (now : Timestamp) (batch : List ErrorReportPayload)
    (reports : Reports) : Reports :=
  (batch.foldl (upsert ownerId now) reports).filter fun _ row =>
    now - RETENTION_DAYS * DAY ≤ row.lastSeen

/-- `DiagnosticsService::report` behind the checks of the request: the rows
afterwards, unless it is refused. -/
def report (verdict : RateLimitVerdict) (ownerId : Uuid) (now : Timestamp)
    (batch : List ErrorReportPayload) (reports : Reports) : Option Reports :=
  if validate batch then
    match verdict with
    | .exceeded => none
    | .allowed => some (record ownerId now batch reports)
  else none

/-- What a report counts of an error. -/
def ErrorReportPayload.counts (fingerprint : String) (report : ErrorReportPayload) : ℕ :=
  if report.fingerprint = fingerprint then report.occurrences else 0

/-- What a batch counts of an error. -/
def tally (batch : List ErrorReportPayload) (fingerprint : String) : ℕ :=
  (batch.map (ErrorReportPayload.counts fingerprint)).sum

/-- What the phone's rows count of an error. -/
def held (rows : List ErrorReport) (fingerprint : String) : ℕ :=
  tally (rows.map ErrorReport.toJson) fingerprint

/-- The server's occurrences of an error, over the owner's rows. -/
def occurrences (reports : Reports) (ownerId : Uuid) (fingerprint : String) : ℕ :=
  reports.sum fun identity row =>
    if identity.ownerId = ownerId ∧ identity.fingerprint = fingerprint then row.occurrences else 0

/-- None of the owner's rows is past its retention. -/
def Retained (reports : Reports) (ownerId : Uuid) (now : Timestamp) : Prop :=
  ∀ identity row, reports.find? identity = some row → identity.ownerId = ownerId →
    now - RETENTION_DAYS * DAY ≤ row.lastSeen

theorem held_nil (fingerprint : String) : held [] fingerprint = 0 := rfl

theorem held_cons (row : ErrorReport) (rows : List ErrorReport) (fingerprint : String) :
    held (row :: rows) fingerprint =
      (if row.fingerprint = fingerprint then row.occurrences else 0) + held rows fingerprint := rfl

theorem held_append (rows others : List ErrorReport) (fingerprint : String) :
    held (rows ++ others) fingerprint = held rows fingerprint + held others fingerprint := by
  rw [held, held, held, tally, tally, tally, List.map_append, List.map_append, List.sum_append]

/-- Rows that say the same of every error count the same. -/
theorem held_congr {rows others : List ErrorReport}
    (h : (rows.map fun r => (r.fingerprint, r.occurrences)).Perm
      (others.map fun r => (r.fingerprint, r.occurrences))) (fingerprint : String) :
    held rows fingerprint = held others fingerprint := by
  have hpairs : ∀ l : List ErrorReport, held l fingerprint =
      ((l.map fun r => (r.fingerprint, r.occurrences)).map fun p =>
        if p.1 = fingerprint then p.2 else 0).sum := by
    intro l
    rw [held, tally, List.map_map, List.map_map]
    rfl
  rw [hpairs, hpairs]
  exact (h.map _).sum_eq

theorem held_perm {rows others : List ErrorReport} (h : rows.Perm others) (fingerprint : String) :
    held rows fingerprint = held others fingerprint :=
  held_congr (h.map _) fingerprint

/-- The rows are those removed and those that stay. -/
theorem held_remove (ids : List Uuid) (rows : List ErrorReport) (fingerprint : String) :
    held rows fingerprint = held (rows.filter fun row => ids.contains row.id) fingerprint +
      held (remove ids rows) fingerprint := by
  rw [← held_append]
  exact held_perm (List.filter_append_perm (fun row => ids.contains row.id) rows).symm fingerprint

theorem map_id_bump (fingerprint : String) (when_ : Timestamp) (rows : List ErrorReport) :
    (bump fingerprint when_ rows).map ErrorReport.id = rows.map ErrorReport.id := by
  rw [bump, List.map_map]
  apply List.map_congr_left
  intro row _
  rw [Function.comp_apply]
  split <;> rfl

theorem map_fingerprint_bump (fingerprint : String) (when_ : Timestamp)
    (rows : List ErrorReport) :
    (bump fingerprint when_ rows).map ErrorReport.fingerprint =
      rows.map ErrorReport.fingerprint := by
  rw [bump, List.map_map]
  apply List.map_congr_left
  intro row _
  rw [Function.comp_apply]
  split <;> rfl

/-- Nothing is bumped exactly when no row has the fingerprint. -/
theorem bumped_eq_zero {fingerprint : String} {rows : List ErrorReport} :
    bumped fingerprint rows = 0 ↔ fingerprint ∉ rows.map ErrorReport.fingerprint := by
  rw [bumped, List.countP_eq_zero, List.mem_map]
  simp

/-- Without a row of the fingerprint nothing is bumped. -/
theorem bump_eq_self {fingerprint : String} {rows : List ErrorReport} (when_ : Timestamp)
    (h : fingerprint ∉ rows.map ErrorReport.fingerprint) : bump fingerprint when_ rows = rows := by
  rw [bump]
  conv_rhs => rw [← List.map_id rows]
  apply List.map_congr_left
  intro row hrow
  have hne : row.fingerprint ≠ fingerprint := by
    intro heq
    exact h (by rw [← heq]; exact List.mem_map_of_mem hrow)
  rw [if_neg hne, id_eq]

/-- A bump counts the error once more, as each has one row. -/
theorem held_bump {fingerprint : String} {rows : List ErrorReport} (when_ : Timestamp)
    (hnames : (rows.map ErrorReport.fingerprint).Nodup)
    (hmem : fingerprint ∈ rows.map ErrorReport.fingerprint) (other : String) :
    held (bump fingerprint when_ rows) other =
      held rows other + if fingerprint = other then 1 else 0 := by
  induction rows with
  | nil => cases hmem
  | cons row rest ih =>
    rw [List.map_cons, List.nodup_cons] at hnames
    rw [bump, List.map_cons, ← bump, held_cons, held_cons]
    by_cases hrow : row.fingerprint = fingerprint
    · have hrest : bump fingerprint when_ rest = rest := by
        apply bump_eq_self
        rw [← hrow]
        exact hnames.1
      rw [hrest, if_pos hrow, ← hrow]
      change (if row.fingerprint = other then row.occurrences + 1 else 0) + held rest other = _
      split <;> omega
    · have hmem : fingerprint ∈ rest.map ErrorReport.fingerprint := by
        cases List.mem_cons.mp hmem with
        | inl heq => exact absurd heq.symm hrow
        | inr hrest => exact hrest
      rw [ih hnames.2 hmem, if_neg hrow]
      omega

/-- A row whose identifier and fingerprint are free is inserted. -/
theorem insertIgnore_eq {row : ErrorReport} {rows : List ErrorReport}
    (hid : ∀ other ∈ rows, other.id ≠ row.id)
    (hname : row.fingerprint ∉ rows.map ErrorReport.fingerprint) :
    insertIgnore row rows = rows ++ [row] := by
  rw [insertIgnore, if_neg]
  rw [List.any_eq_true]
  rintro ⟨other, hother, htaken⟩
  cases of_decide_eq_true htaken with
  | inl heq => exact hid other hother heq
  | inr heq => exact hname (by rw [← heq]; exact List.mem_map_of_mem hother)

/-- Fewer rows than the phone keeps are all pending. -/
theorem pending_perm {rows : List ErrorReport} (h : rows.length ≤ maxKept) :
    (pending maxKept rows).Perm rows := by
  rw [pending, List.take_of_length_le]
  · exact List.perm_insertionSort _ rows
  · rw [List.length_insertionSort]
    exact h

/-- And are all kept. -/
theorem prune_eq_self {rows : List ErrorReport} (h : rows.length ≤ maxKept) : prune rows = rows := by
  apply List.filter_eq_self.mpr
  intro row hrow
  rw [List.contains_iff_mem]
  exact List.mem_map_of_mem ((pending_perm h).mem_iff.mpr hrow)

/-- What is removed counts as what was read, if each row that was read is
there as often as it was read. -/
theorem held_removed {rows read : List ErrorReport} (hids : (rows.map ErrorReport.id).Nodup)
    (hnames : (rows.map ErrorReport.fingerprint).Nodup)
    (hread : (read.map ErrorReport.fingerprint).Nodup)
    (hthere : ∀ p ∈ read, ∃ row ∈ rows, row.id = p.id ∧ row.fingerprint = p.fingerprint)
    (hsame : ∀ row ∈ rows, ∀ p ∈ read, row.id = p.id → row.occurrences = p.occurrences)
    (fingerprint : String) :
    held (rows.filter fun row => (read.map ErrorReport.id).contains row.id) fingerprint =
      held read fingerprint := by
  have hnodup : ∀ l : List ErrorReport, (l.map ErrorReport.fingerprint).Nodup →
      (l.map fun r => (r.fingerprint, r.occurrences)).Nodup := by
    intro l hl
    apply List.Nodup.of_map Prod.fst
    rw [List.map_map]
    exact hl
  apply held_congr
  rw [List.perm_ext_iff_of_nodup
    (hnodup _ (hnames.sublist (List.filter_sublist.map _))) (hnodup _ hread)]
  rintro ⟨name, count⟩
  simp only [List.mem_map, List.mem_filter, List.contains_iff_mem]
  constructor
  · rintro ⟨row, ⟨hrow, p, hp, hid⟩, hpair⟩
    obtain ⟨other, hother, hotherId, hname⟩ := hthere p hp
    have heq : other = row := List.inj_on_of_nodup_map hids hother hrow (hotherId.trans hid)
    rw [heq] at hname
    exact ⟨p, hp, by rw [← hname, ← hsame row hrow p hp hid.symm, hpair]⟩
  · rintro ⟨p, hp, hpair⟩
    obtain ⟨row, hrow, hid, hname⟩ := hthere p hp
    refine ⟨row, ⟨hrow, p, hp, hid.symm⟩, ?_⟩
    rw [hname, hsame row hrow p hp hid, hpair]

/-- A report adds what it counts to the owner's rows. -/
theorem occurrences_upsert (reports : Reports) (ownerId : Uuid) (now : Timestamp)
    (report : ErrorReportPayload) (owner : Uuid) (fingerprint : String) :
    occurrences (upsert ownerId now reports report) owner fingerprint =
      occurrences reports owner fingerprint +
        if ownerId = owner then report.counts fingerprint else 0 := by
  rw [upsert]
  cases hrow : reports.find? ⟨ownerId, report.fingerprint, report.appVersion⟩ with
  | none =>
    simp only [occurrences]
    rw [Table.sum_put_of_none _ _ hrow, Nat.add_comm, ErrorReportPayload.counts]
    simp only [ite_and]
  | some row =>
    simp only [occurrences]
    have hsum := Table.sum_put_replaced
      { row with
        occurrences := row.occurrences + report.occurrences
        firstSeen := min row.firstSeen report.firstSeen
        lastSeen := max row.lastSeen report.lastSeen
        message := report.message
        stack := report.stack.or row.stack
        receivedAt := now }
      (fun (identity : Identity) (row : ClientErrorReport) =>
        if identity.ownerId = owner ∧ identity.fingerprint = fingerprint then row.occurrences else 0)
      hrow
    simp only [ite_and] at hsum ⊢
    rw [ErrorReportPayload.counts]
    split_ifs at hsum ⊢ <;> omega

/-- And a batch what it counts. -/
theorem occurrences_foldl_upsert (batch : List ErrorReportPayload) (reports : Reports)
    (ownerId : Uuid) (now : Timestamp) (owner : Uuid) (fingerprint : String) :
    occurrences (batch.foldl (upsert ownerId now) reports) owner fingerprint =
      occurrences reports owner fingerprint +
        if ownerId = owner then tally batch fingerprint else 0 := by
  induction batch generalizing reports with
  | nil => simp [tally]
  | cons report rest ih =>
    have htally : tally (report :: rest) fingerprint =
        report.counts fingerprint + tally rest fingerprint := rfl
    rw [List.foldl_cons, ih, occurrences_upsert, htally]
    split <;> omega

/-- A report within retention brings nothing past it. -/
theorem Retained.upsert {reports : Reports} {ownerId owner : Uuid} {now : Timestamp}
    (h : Retained reports owner now) {report : ErrorReportPayload}
    (hreport : ownerId = owner → now - RETENTION_DAYS * DAY ≤ report.lastSeen) :
    Retained (upsert ownerId now reports report) owner now := by
  intro identity row hfind howner
  rw [ErrorReports.upsert] at hfind
  by_cases hidentity : identity = ⟨ownerId, report.fingerprint, report.appVersion⟩
  · rw [hidentity] at hfind howner
    cases hrow : reports.find? ⟨ownerId, report.fingerprint, report.appVersion⟩ with
    | none =>
      rw [hrow] at hfind
      simp only [Table.find?_put_self, Option.some.injEq] at hfind
      rw [← hfind]
      exact hreport howner
    | some old =>
      rw [hrow] at hfind
      simp only [Table.find?_put_self, Option.some.injEq] at hfind
      rw [← hfind]
      exact (hreport howner).trans (le_max_right _ _)
  · have hold : reports.find? identity = some row := by
      cases hrow : reports.find? ⟨ownerId, report.fingerprint, report.appVersion⟩ with
      | none =>
        rw [hrow] at hfind
        exact (Table.find?_put_ne _ _ hidentity).symm.trans hfind
      | some old =>
        rw [hrow] at hfind
        exact (Table.find?_put_ne _ _ hidentity).symm.trans hfind
    exact h identity row hold howner

/-- After the clean-up nothing is past retention. -/
theorem retained_record (reports : Reports) (ownerId owner : Uuid) (now : Timestamp)
    (batch : List ErrorReportPayload) :
    Retained (record ownerId now batch reports) owner now := by
  intro identity row hfind _
  exact of_decide_eq_true (Table.find?_filter_eq_some.mp hfind).2

/-- The clean-up leaves the count of rows within retention. -/
theorem occurrences_record {reports : Reports} {ownerId owner : Uuid} {now : Timestamp}
    {batch : List ErrorReportPayload} (h : Retained reports owner now)
    (hbatch : ownerId = owner → ∀ report ∈ batch, now - RETENTION_DAYS * DAY ≤ report.lastSeen)
    (fingerprint : String) :
    occurrences (record ownerId now batch reports) owner fingerprint =
      occurrences reports owner fingerprint +
        if ownerId = owner then tally batch fingerprint else 0 := by
  have hretained : Retained (batch.foldl (upsert ownerId now) reports) owner now := by
    induction batch generalizing reports with
    | nil => exact h
    | cons report rest ih =>
      rw [List.foldl_cons]
      apply ih (h.upsert fun howner => hbatch howner report List.mem_cons_self)
      exact fun howner other hother => hbatch howner other (List.mem_cons_of_mem _ hother)
  rw [← occurrences_foldl_upsert, occurrences, record, Table.sum_filter]
  apply Table.sum_congr
  intro identity row hfind
  by_cases howner : identity.ownerId = owner
  · rw [if_pos (decide_eq_true (hretained identity row hfind howner))]
  · have hother : ¬(identity.ownerId = owner ∧ identity.fingerprint = fingerprint) :=
      fun hboth => howner hboth.1
    rw [if_neg hother, ite_self]

/-- A report that is accepted records the batch. -/
theorem report_eq_some {verdict : RateLimitVerdict} {ownerId : Uuid} {now : Timestamp}
    {batch : List ErrorReportPayload} {reports after : Reports} :
    report verdict ownerId now batch reports = some after ↔
      validate batch = true ∧ verdict = .allowed ∧ record ownerId now batch reports = after := by
  cases verdict with
  | allowed => by_cases hvalid : validate batch = true <;> simp [report, hvalid]
  | exceeded => simp [report]

end Kitaza.ErrorReports
