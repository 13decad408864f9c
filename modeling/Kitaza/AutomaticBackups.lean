import Kitaza.EventLog
import Kitaza.NewestKept
import Kitaza.PhoneReports

/-!
# The automatic copies of the phone's database

Every launch of the app makes a copy of the database if the last one is twenty
hours old, under the date of the day, and drops all but the seven latest dates.
A copy is checked before it counts. A launch that fails does so silently, and the
next one tries again: a copy that failed its check stays until a later one takes
its place, and copying that breaks off takes the day's file with it. Dates sort
as the days they are as long as the clock shows years of four digits.
-/

namespace Kitaza.AutomaticBackups

open KeyedTable Calendar BillingPlan DecimalText EventLog NewestKept PhoneReports

/-- How many copies are kept. -/
def automaticCopiesKept : ℕ := 7

/-- How old the last copy is when another is made, in microseconds. -/
def automaticInterval : ℤ := 20 * 3600 * SECOND

/-- What a copied file holds. -/
inductive Copy (α : Type*) where
  /-- The database as it was. -/
  | whole (content : α)
  /-- A database that was written to while it was copied. -/
  | torn
  deriving DecidableEq, Repr

/-- The day of a local clock. -/
def dayOfClock (clock : ℤ) : ℤ := clock / DAY

/-- The file of a day's copy. -/
def fileName (day : ℤ) : String := "kitaza-" ++ dateText day ++ ".kitaza"

variable {α : Type*}

/-- What became of a day's file. -/
structure Made (α : Type*) where
  /-- When, by the local clock. -/
  clock : ℤ
  /-- What it holds now; nothing where it is gone. -/
  copy : Option (Copy α)
  /-- Whether it was copied and passed its check. -/
  good : Bool
  deriving DecidableEq, Repr

/-- The folder of the copies, and what else a launch reads. -/
structure Backups (α : Type*) where
  /-- The files, by name. -/
  folder : Table String (Copy α)
  /-- When the last good copy was made. -/
  lastAutoBackup : Option ℤ
  /-- Every change of a file. -/
  log : List (Made α)

/-- A phone just installed. -/
def Backups.empty : Backups α := ⟨Table.empty, none, []⟩

/-- What an attempt at copying comes to. -/
inductive Attempt (α : Type*) where
  /-- It throws before the day's file is opened. -/
  | refused
  /-- Copying breaks off, and takes the day's file away. -/
  | brokeOff
  /-- The file is copied, and reading it back throws. -/
  | unread (copy : Copy α)
  /-- The file is copied and checked. -/
  | checked (copy : Copy α)
  deriving DecidableEq, Repr

/-- A launch of the app: the local clock, and what the first attempt and a second
come to. -/
structure Launch (α : Type*) where
  /-- The local clock. -/
  clock : ℤ
  /-- The first attempt. -/
  first : Attempt α
  /-- The second. -/
  second : Attempt α
  deriving DecidableEq, Repr

/-- What an attempt changes of the day's file. -/
def keepCopy (clock : ℤ) (copy : Option (Copy α)) (good : Bool) (b : Backups α) : Backups α :=
  { b with
    folder := put (fileName (dayOfClock clock)) copy b.folder
    log := b.log ++ [⟨clock, copy, good⟩] }

/-- Fold the log into the database, copy it and check the copy. Nothing comes of
an attempt that throws. -/
def tryCopy (isValid : Copy α → Bool) (clock : ℤ) (b : Backups α) :
    Attempt α → Backups α × Option Bool
  | .refused => (b, none)
  | .brokeOff => (keepCopy clock none false b, none)
  | .unread copy => (keepCopy clock (some copy) false b, none)
  | .checked copy => (keepCopy clock (some copy) (isValid copy) b, some (isValid copy))

/-- A consistent copy of the database: a write that lands between the
checkpoint and the copy is tried again once. -/
def snapshot (isValid : Copy α → Bool) (launch : Launch α) (b : Backups α) : Backups α × Bool :=
  match tryCopy isValid launch.clock b launch.first with
  | (b, some true) => (b, true)
  | (b, some false) =>
    let again := tryCopy isValid launch.clock b launch.second
    (again.1, again.2.getD false)
  | (b, none) => (b, false)

/-- Make a copy if the last one is old enough. A failed one is swallowed. -/
def backUpIfDue (isValid : Copy α → Bool) (b : Backups α) (launch : Launch α) : Backups α :=
  if b.lastAutoBackup.any fun last => decide (launch.clock - last < automaticInterval) then b
  else
    match snapshot isValid launch b with
    | (b, true) =>
      { b with
        folder := prune automaticCopiesKept b.folder
        lastAutoBackup := some launch.clock }
    | (b, false) => b

/-- One launch after another. -/
def run (isValid : Copy α → Bool) (b : Backups α) (launches : List (Launch α)) : Backups α :=
  launches.foldl (backUpIfDue isValid) b

/-- Whether a copy passes its check, where it comes to one. -/
def Attempt.passes (isValid : Copy α → Bool) : Attempt α → Option Bool
  | .checked copy => some (isValid copy)
  | _ => none

/-- Whether copying works at a launch: at the first attempt, or at the second
where the first copy fails its check. -/
def Launch.succeeds (launch : Launch α) (isValid : Copy α → Bool) : Bool :=
  match launch.first.passes isValid with
  | some true => true
  | some false => (launch.second.passes isValid).getD false
  | none => false

/-- When the last good copy was made. -/
def lastGood (log : List (Made α)) : Option ℤ :=
  log.foldl (fun last m => if m.good then some m.clock else last) none

/-- What became of a day's file last. -/
def copyOn (log : List (Made α)) (day : ℤ) : Option (Copy α) :=
  (log.reverse.find? fun m => dayOfClock m.clock == day).bind Made.copy

/-- How many later days had a file. -/
def laterDays (log : List (Made α)) (day : ℤ) : ℕ :=
  ((log.map fun m => dayOfClock m.clock).toFinset.filter (day < ·)).card

/-- What each attempt keeps to: it is made twenty hours or more after the last good
copy. -/
def Spaced (before : List (Made α)) (m : Made α) : Prop :=
  ∀ last ∈ lastGood before, last + automaticInterval ≤ m.clock

@[simp] theorem lastGood_append (log : List (Made α)) (m : Made α) :
    lastGood (log ++ [m]) = if m.good then some m.clock else lastGood log := by
  rw [lastGood, List.foldl_append]
  rfl

theorem length_dateText (day : ℤ) : (dateText day).toList.length = 10 := by
  simp [dateText, length_digits]

/-- Files sort as the days of their copies. -/
theorem fileName_lt {a b : ℤ} (ha : FourDigitDay a) (hb : FourDigitDay b) :
    fileName a < fileName b ↔ a < b := by
  rw [← dateText_lt ha hb]
  change (fileName a).toList < (fileName b).toList ↔ (dateText a).toList < (dateText b).toList
  simp only [fileName, String.toList_append, List.append_assoc]
  rw [append_lt_append_iff rfl,
    append_lt_append_iff (by rw [length_dateText, length_dateText])]
  simp

theorem fileName_inj {a b : ℤ} (ha : FourDigitDay a) (hb : FourDigitDay b) :
    fileName a = fileName b ↔ a = b := by
  refine ⟨fun h => ?_, congrArg fileName⟩
  rcases lt_trichotomy a b with hlt | heq | hgt
  · exact absurd h ((fileName_lt ha hb).mpr hlt).ne
  · exact heq
  · exact absurd h ((fileName_lt hb ha).mpr hgt).ne'

/-- What was stored in the folder, the newest first. -/
def stored (log : List (Made α)) : List (String × Option (Copy α)) :=
  log.reverse.map fun m => (fileName (dayOfClock m.clock), m.copy)

section

variable {log : List (Made α)}

theorem stored_append (m : Made α) :
    stored (log ++ [m]) = (fileName (dayOfClock m.clock), m.copy) :: stored log := by
  rw [stored, List.reverse_append]
  rfl

/-- The last copy of a day is the last one stored under its name. -/
theorem lookup_stored (hlog : ∀ m ∈ log, FourDigitDay (dayOfClock m.clock)) {day : ℤ}
    (hday : FourDigitDay day) : ((stored log).lookup (fileName day)).join = copyOn log day := by
  rw [stored, copyOn]
  have hall : ∀ m ∈ log.reverse, FourDigitDay (dayOfClock m.clock) :=
    fun m hm => hlog m (List.mem_reverse.mp hm)
  generalize log.reverse = made at hall
  induction made with
  | nil => rfl
  | cons m rest ih =>
    have hm := hall m List.mem_cons_self
    rw [List.map_cons, List.lookup_cons, List.find?_cons]
    by_cases h : dayOfClock m.clock = day
    · rw [h, beq_self_eq_true, beq_self_eq_true]
      rfl
    · have hname : ¬fileName day = fileName (dayOfClock m.clock) :=
        fun heq => h ((fileName_inj hday hm).mp heq).symm
      rw [beq_eq_false_iff_ne.mpr hname, beq_eq_false_iff_ne.mpr h]
      exact ih fun m' hm' => hall m' (List.mem_cons_of_mem _ hm')

/-- Later days are greater names. -/
theorem greater_stored (hlog : ∀ m ∈ log, FourDigitDay (dayOfClock m.clock)) {day : ℤ}
    (hday : FourDigitDay day) : greater (stored log) (fileName day) = laterDays log day := by
  have hset : ((stored log).map Prod.fst).toFinset.filter (fileName day < ·) =
      ((log.map fun m => dayOfClock m.clock).toFinset.filter (day < ·)).image fileName := by
    ext name
    simp only [stored, List.map_map, Finset.mem_filter, List.mem_toFinset, List.mem_map,
      List.mem_reverse, Function.comp_apply, Finset.mem_image]
    constructor
    · rintro ⟨⟨m, hm, rfl⟩, hlt⟩
      exact ⟨_, ⟨⟨m, hm, rfl⟩, (fileName_lt hday (hlog m hm)).mp hlt⟩, rfl⟩
    · rintro ⟨_, ⟨⟨m, hm, rfl⟩, hlt⟩, rfl⟩
      exact ⟨⟨m, hm, rfl⟩, (fileName_lt hday (hlog m hm)).mpr hlt⟩
  rw [greater, laterDays, hset]
  apply Finset.card_image_of_injOn
  intro a ha b hb heq
  have hfour : ∀ {c : ℤ}, c ∈ ((log.map fun m => dayOfClock m.clock).toFinset.filter (day < ·)) →
      FourDigitDay c := by
    intro c hc
    obtain ⟨m, hm, rfl⟩ := List.mem_map.mp (List.mem_toFinset.mp (Finset.mem_filter.mp hc).1)
    exact hlog m hm
  exact (fileName_inj (hfour ha) (hfour hb)).mp heq

end

/-- The last good copy, and what came after it. -/
theorem exists_of_lastGood {log : List (Made α)} {last : ℤ} (h : lastGood log = some last) :
    ∃ before m after, log = before ++ m :: after ∧ m.clock = last ∧ m.good = true ∧
      ∀ m' ∈ after, m'.good = false := by
  induction log using List.reverseRecOn with
  | nil => cases h
  | append_singleton log m ih =>
    rw [lastGood_append] at h
    split at h
    next hgood => exact ⟨log, m, [], rfl, Option.some.inj h, hgood, nofun⟩
    next hbad =>
      obtain ⟨before, good, after, rfl, hclock, hgood, hafter⟩ := ih h
      refine ⟨before, good, after ++ [m], by simp, hclock, hgood, fun m' hm' => ?_⟩
      rcases List.mem_append.mp hm' with hm' | hm'
      · exact hafter m' hm'
      · rw [List.mem_singleton.mp hm']
        exact Bool.eq_false_iff.mpr hbad

/-- A file no later attempt touched is what it was. -/
theorem copyOn_of_untouched {before after : List (Made α)} {m : Made α}
    (h : ∀ m' ∈ after, dayOfClock m'.clock ≠ dayOfClock m.clock) :
    copyOn (before ++ m :: after) (dayOfClock m.clock) = m.copy := by
  have hafter : after.reverse.find? (fun m' => dayOfClock m'.clock == dayOfClock m.clock) = none := by
    rw [List.find?_eq_none]
    intro m' hm'
    rw [beq_iff_eq]
    exact h m' (List.mem_reverse.mp hm')
  rw [copyOn, List.reverse_append, List.reverse_cons, List.append_assoc, List.find?_append, hafter]
  simp

/-- What holds of the folder and the log, after a launch and within one. -/
structure Sound (isValid : Copy α → Bool) (b : Backups α) : Prop where
  /-- Every file was for a day of a year of four digits. -/
  years : ∀ m ∈ b.log, FourDigitDay (dayOfClock m.clock)
  /-- Good copies passed their check. -/
  checked : ∀ m ∈ b.log, m.good = true → ∃ copy, m.copy = some copy ∧ isValid copy = true
  /-- Attempts are made twenty hours or more after the last good copy. -/
  spaced : KeepsTo Spaced b.log
  /-- The folder holds the copies of the latest days. -/
  holds : Holds automaticCopiesKept (stored b.log) b.folder

/-- What holds after every launch. -/
structure Inv (isValid : Copy α → Bool) (b : Backups α) : Prop where
  /-- What holds of the folder and the log. -/
  sound : Sound isValid b
  /-- The last good copy is remembered. -/
  last : b.lastAutoBackup = lastGood b.log
  /-- After a good copy there are no more than are kept. -/
  few : (∀ m ∈ b.log.getLast?, m.good = true) → b.folder.ids.card ≤ automaticCopiesKept

variable {isValid : Copy α → Bool} {b : Backups α} {launch : Launch α}

theorem inv_empty : Inv isValid (Backups.empty : Backups α) :=
  ⟨⟨nofun, nofun, keepsTo_nil, holds_empty⟩, rfl, fun _ => Nat.zero_le _⟩

theorem Sound.keepCopy (h : Sound isValid b) {clock : ℤ} (hclock : FourDigitDay (dayOfClock clock))
    (hdue : ∀ last ∈ lastGood b.log, last + automaticInterval ≤ clock) {copy : Option (Copy α)}
    {good : Bool} (hgood : good = true → ∃ c, copy = some c ∧ isValid c = true) :
    Sound isValid (keepCopy clock copy good b) := by
  refine ⟨fun m hm => ?_, fun m hm hm' => ?_, h.spaced.append hdue, ?_⟩
  · rcases List.mem_append.mp hm with hm | hm
    · exact h.years m hm
    · rw [List.mem_singleton.mp hm]
      exact hclock
  · rcases List.mem_append.mp hm with hm | hm
    · exact h.checked m hm hm'
    · rw [List.mem_singleton.mp hm] at hm' ⊢
      exact hgood hm'
  · dsimp only [AutomaticBackups.keepCopy]
    rw [stored_append]
    exact h.holds.put _ copy

/-- A good copy is remembered, and the folder pruned. -/
theorem Sound.keep (h : Sound isValid b) {clock : ℤ} (hlast : lastGood b.log = some clock) :
    Inv isValid
      { b with folder := prune automaticCopiesKept b.folder, lastAutoBackup := some clock } :=
  ⟨⟨h.years, h.checked, h.spaced, h.holds.prune⟩, hlast.symm, fun _ => card_ids_prune _ _⟩

/-- What an attempt leaves behind. -/
structure Tried (isValid : Copy α → Bool) (clock : ℤ) (b b' : Backups α) (passed : Option Bool) :
    Prop where
  /-- The folder is as the log has it. -/
  sound : Sound isValid b'
  /-- The last good copy is remembered later. -/
  kept : b'.lastAutoBackup = b.lastAutoBackup
  /-- A copy that passed is the last good one. -/
  good : passed = some true → lastGood b'.log = some clock
  /-- Any other attempt leaves the last good one. -/
  failed : passed ≠ some true → lastGood b'.log = lastGood b.log ∧
    (b' = b ∨ ∃ m ∈ b'.log.getLast?, m.good = false)

theorem Sound.keepBad (h : Sound isValid b) {clock : ℤ} (hclock : FourDigitDay (dayOfClock clock))
    (hdue : ∀ last ∈ lastGood b.log, last + automaticInterval ≤ clock) (copy : Option (Copy α))
    {passed : Option Bool} (hpassed : passed ≠ some true) :
    Tried isValid clock b (AutomaticBackups.keepCopy clock copy false b) passed :=
  ⟨h.keepCopy hclock hdue nofun, rfl, fun hp => absurd hp hpassed,
    fun _ => ⟨by rw [AutomaticBackups.keepCopy, lastGood_append, if_neg Bool.false_ne_true],
      .inr ⟨_, List.getLast?_concat, rfl⟩⟩⟩

theorem Sound.tryCopy (h : Sound isValid b) {clock : ℤ} (hclock : FourDigitDay (dayOfClock clock))
    (hdue : ∀ last ∈ lastGood b.log, last + automaticInterval ≤ clock) (attempt : Attempt α) :
    Tried isValid clock b (tryCopy isValid clock b attempt).1 (attempt.passes isValid) ∧
      (tryCopy isValid clock b attempt).2 = attempt.passes isValid := by
  cases attempt with
  | refused => exact ⟨⟨h, rfl, nofun, fun _ => ⟨rfl, .inl rfl⟩⟩, rfl⟩
  | brokeOff => exact ⟨h.keepBad hclock hdue none nofun, rfl⟩
  | unread copy => exact ⟨h.keepBad hclock hdue (some copy) nofun, rfl⟩
  | checked copy =>
    refine ⟨?_, rfl⟩
    rw [AutomaticBackups.tryCopy, Attempt.passes]
    cases hvalid : isValid copy with
    | false => exact h.keepBad hclock hdue (some copy) (by simp)
    | true =>
      refine ⟨h.keepCopy hclock hdue fun _ => ⟨copy, rfl, hvalid⟩, rfl, fun _ => ?_, by simp⟩
      rw [AutomaticBackups.keepCopy, lastGood_append, if_pos rfl]

/-- What a copy that is made comes to. -/
theorem snapshot_spec (h : Sound isValid b) (hclock : FourDigitDay (dayOfClock launch.clock))
    (hdue : ∀ last ∈ lastGood b.log, last + automaticInterval ≤ launch.clock) :
    Tried isValid launch.clock b (snapshot isValid launch b).1
        (some (launch.succeeds isValid)) ∧
      (snapshot isValid launch b).2 = launch.succeeds isValid := by
  obtain ⟨hfirst, hpassed⟩ := h.tryCopy hclock hdue launch.first
  rw [snapshot, Launch.succeeds]
  rcases htried : AutomaticBackups.tryCopy isValid launch.clock b launch.first with ⟨b', passed⟩
  rw [htried] at hfirst hpassed
  dsimp only at hfirst hpassed ⊢
  subst hpassed
  cases hresult : launch.first.passes isValid with
  | none => exact ⟨⟨hfirst.sound, hfirst.kept, nofun, fun _ => hfirst.failed (by simp [hresult])⟩, rfl⟩
  | some passed =>
    cases passed with
    | true => exact ⟨⟨hfirst.sound, hfirst.kept, fun _ => hfirst.good hresult, by simp⟩, rfl⟩
    | false =>
      obtain ⟨hsame, hbad⟩ := hfirst.failed (by simp [hresult])
      obtain ⟨hsecond, hpassed'⟩ :=
        hfirst.sound.tryCopy hclock (by rw [hsame]; exact hdue) launch.second
      dsimp only
      rw [hpassed']
      refine ⟨⟨hsecond.sound, hsecond.kept.trans hfirst.kept, fun hp => hsecond.good ?_,
        fun hp => ?_⟩, rfl⟩
      · cases hlast : launch.second.passes isValid with
        | none =>
          rw [hlast] at hp
          cases hp
        | some passed =>
          rw [hlast] at hp
          exact hp
      · obtain ⟨hsame', hbad'⟩ := hsecond.failed fun hlast => hp (by rw [hlast]; rfl)
        refine ⟨hsame'.trans hsame, ?_⟩
        rcases hbad' with heq | hbad'
        · rw [heq]
          exact hbad
        · exact .inr hbad'

/-- What a launch comes to. -/
theorem Inv.backUpIfDue (h : Inv isValid b) (hclock : FourDigitDay (dayOfClock launch.clock)) :
    Inv isValid (backUpIfDue isValid b launch) ∧ (launch.succeeds isValid = true →
      ∃ last, (AutomaticBackups.backUpIfDue isValid b launch).lastAutoBackup = some last ∧
        launch.clock - last < automaticInterval) := by
  rw [AutomaticBackups.backUpIfDue]
  split
  next hrecent =>
    refine ⟨h, fun _ => ?_⟩
    obtain ⟨last, hlast, hlt⟩ := (Option.any_eq_true _ _).mp hrecent
    exact ⟨last, hlast, of_decide_eq_true hlt⟩
  next hdue =>
    have hdue : ∀ last ∈ lastGood b.log, last + automaticInterval ≤ launch.clock := by
      intro last hlast
      rw [Option.mem_def, ← h.last] at hlast
      rw [hlast, Option.any_some, decide_eq_true_eq, not_lt] at hdue
      linarith
    obtain ⟨htried, hgood⟩ := snapshot_spec h.sound hclock hdue
    split
    next b' hsnapshot =>
      rw [hsnapshot] at htried hgood
      refine ⟨htried.sound.keep (htried.good (by rw [← hgood])), fun _ => ⟨launch.clock, rfl, ?_⟩⟩
      rw [sub_self]
      decide
    next b' hsnapshot =>
      rw [hsnapshot] at htried hgood
      obtain ⟨hsame, hrest⟩ := htried.failed (by simp [← hgood])
      refine ⟨⟨htried.sound, htried.kept.trans (h.last.trans hsame.symm), fun hall => ?_⟩, ?_⟩
      · rcases hrest with heq | ⟨m, hm, hbad⟩
        · dsimp only at heq hall ⊢
          subst heq
          exact h.few hall
        · exact absurd (hbad.symm.trans (hall m hm)) nofun
      · rw [← hgood]
        exact nofun

theorem Inv.run (h : Inv isValid b) {launches : List (Launch α)}
    (hyears : ∀ launch ∈ launches, FourDigitDay (dayOfClock launch.clock)) :
    Inv isValid (run isValid b launches) := by
  induction launches generalizing b with
  | nil => exact h
  | cons launch launches ih =>
    exact ih (h.backUpIfDue (hyears launch List.mem_cons_self)).1
      fun l hl => hyears l (List.mem_cons_of_mem _ hl)

/-- Whenever the app was launched, whatever its clock said in years of four digits
and however often copying broke off or a copy failed its check: attempts are made
twenty hours or more after the last good copy; what the last attempt of a day left
is there unless seven later days had a file, and nothing else is there; after a
good copy there are at most seven. A launch at which copying works finds or leaves
a good copy less than twenty hours old, and this is in the folder unless a later
attempt of its day took its place or seven later days had a file. -/
theorem keeps_a_week {isValid : Copy α → Bool} {launches : List (Launch α)} {b : Backups α}
    (hyears : ∀ launch ∈ launches, FourDigitDay (dayOfClock launch.clock))
    (hb : run isValid .empty launches = b) :
    KeepsTo Spaced b.log ∧
      (∀ day, FourDigitDay day → laterDays b.log day < automaticCopiesKept →
        b.folder.find? (fileName day) = copyOn b.log day) ∧
      (∀ name copy, b.folder.find? name = some copy → ∃ day, FourDigitDay day ∧
        name = fileName day ∧ copyOn b.log day = some copy) ∧
      ((∀ m ∈ b.log.getLast?, m.good = true) → b.folder.ids.card ≤ automaticCopiesKept) ∧
      ∀ launch ∈ launches.getLast?, launch.succeeds isValid = true →
        ∃ before m after, b.log = before ++ m :: after ∧ m.good = true ∧
          (∀ m' ∈ after, m'.good = false) ∧ launch.clock - m.clock < automaticInterval ∧
          ((∀ m' ∈ after, dayOfClock m'.clock ≠ dayOfClock m.clock) →
            laterDays b.log (dayOfClock m.clock) < automaticCopiesKept →
            ∃ copy, isValid copy = true ∧
              b.folder.find? (fileName (dayOfClock m.clock)) = some copy) := by
  have hinv : Inv isValid b := hb ▸ inv_empty.run hyears
  have hnewest : ∀ day, FourDigitDay day → laterDays b.log day < automaticCopiesKept →
      b.folder.find? (fileName day) = copyOn b.log day := by
    intro day hday hfew
    rw [← lookup_stored hinv.sound.years hday]
    apply hinv.sound.holds.newest
    rw [greater_stored hinv.sound.years hday]
    exact hfew
  refine ⟨hinv.sound.spaced, hnewest, fun name copy hcopy => ?_, hinv.few,
    fun launch hlaunch hvalid => ?_⟩
  · have hlookup := hinv.sound.holds.only name copy hcopy
    have hmem : name ∈ (stored b.log).map Prod.fst := by
      rw [← lookup_isSome, hlookup]
      rfl
    obtain ⟨e, he, rfl⟩ := List.mem_map.mp hmem
    obtain ⟨m, hm, rfl⟩ := List.mem_map.mp he
    have hday := hinv.sound.years m (List.mem_reverse.mp hm)
    refine ⟨_, hday, rfl, ?_⟩
    rw [← lookup_stored hinv.sound.years hday, hlookup]
    rfl
  · obtain ⟨earlier, rfl⟩ := List.getLast?_eq_some_iff.mp hlaunch
    rw [run, List.foldl_append] at hb
    have hbefore : Inv isValid (run isValid (.empty : Backups α) earlier) :=
      inv_empty.run fun l hl => hyears l (List.mem_append_left _ hl)
    have hclock := hyears launch (List.mem_append_right _ (List.mem_singleton.mpr rfl))
    obtain ⟨last, hlast, hlt⟩ := (hbefore.backUpIfDue hclock).2 hvalid
    have hgood : lastGood b.log = some last := by
      rw [← hinv.last, ← hb]
      exact hlast
    obtain ⟨before, m, after, hlog, rfl, hm, hafter⟩ := exists_of_lastGood hgood
    have hmem : m ∈ b.log := by
      rw [hlog]
      exact List.mem_append_right _ List.mem_cons_self
    refine ⟨before, m, after, hlog, hm, hafter, hlt, fun huntouched hfew => ?_⟩
    obtain ⟨copy, hcopy, hcopyValid⟩ := hinv.sound.checked m hmem hm
    refine ⟨copy, hcopyValid, ?_⟩
    rw [hnewest _ (hinv.sound.years m hmem) hfew, hlog, copyOn_of_untouched huntouched, hcopy]

/-- A launch at nine every morning from the first of September 2026 on. On the
fourth a sale is being recorded through both attempts, and on the sixth the disk
is full, so copying breaks off. -/
def septemberMorning (n : ℕ) : Launch ℕ where
  clock := (20697 + n) * DAY + 9 * 3600 * SECOND
  first := if n = 5 then .brokeOff else .checked (if n = 3 then .torn else .whole n)
  second := if n = 3 then .checked .torn else .refused

/-- Ten such mornings. -/
def september : List (Launch ℕ) := (List.range 10).map septemberMorning

/-- A copy counts if it was not written to. -/
def isWhole (copy : Copy ℕ) : Bool := copy != .torn

theorem keeps_a_week_september :
    (run isWhole .empty september).folder.find? (fileName 20700) = some .torn ∧
      (run isWhole .empty september).folder.find? (fileName 20702) = none ∧
      (run isWhole .empty september).folder.find? (fileName 20706) = some (.whole 9) ∧
      (run isWhole .empty september).folder.ids.card ≤ automaticCopiesKept ∧
      ∃ before m after, (run isWhole .empty september).log = before ++ m :: after ∧ m.good = true ∧
        (septemberMorning 9).clock - m.clock < automaticInterval := by
  obtain ⟨_, hnewest, _, hfew, hgood⟩ :=
    @keeps_a_week ℕ isWhole september _ (by decide) rfl
  obtain ⟨before, m, after, hlog, hm, _, hlt, _⟩ := hgood (septemberMorning 9) rfl (by decide)
  refine ⟨?_, ?_, ?_, hfew (by decide), before, m, after, hlog, hm, hlt⟩
  · rw [hnewest 20700 (by decide) (by decide)]
    decide
  · rw [hnewest 20702 (by decide) (by decide)]
    decide
  · rw [hnewest 20706 (by decide) (by decide)]
    decide

end Kitaza.AutomaticBackups
