import Kitaza.EventLog
import Kitaza.RealtimeDelivery

/-!
# The live connection of a phone

A phone of a cloud store keeps a socket to the store's events. When the socket
is lost it waits and tries again, twice as long after every failure. An event
is only a nudge: a second after the last of a burst the phone asks for one sync.

What the phone does is written down in a log, oldest first, and what is proved
of a run is said of its log.
-/

namespace Kitaza.LiveConnection

open EventLog
open Realtime (RealtimeTopic)

/-- The topic of a frame; one this version does not know is a plain refresh. -/
def parse : Option String → RealtimeTopic
  | some "sale_recorded" => .saleRecorded
  | some "sale_voided" => .saleVoided
  | some "expense_recorded" => .expenseRecorded
  | some "expense_removed" => .expenseRemoved
  | some "withdrawal_recorded" => .withdrawalRecorded
  | some "product_changed" => .productChanged
  | some "stock_low" => .stockLow
  | some "access_changed" => .accessChanged
  | _ => .dashboardStale

/-- What can arrive on a socket. -/
inductive Incoming where
  /-- Bytes. -/
  | binary
  /-- A text that is not JSON. -/
  | garbled
  /-- JSON that is no object, or whose topic or message is no text. The cast
  throws, and only the frame is lost. -/
  | misshapen
  /-- An object with its topic and message. -/
  | payload (topic message : Option String)
  deriving DecidableEq, Repr

/-- An event, as the app sees it. -/
structure RealtimeEvent where
  /-- What changed. -/
  topic : RealtimeTopic
  /-- A text to show. -/
  message : Option String
  deriving DecidableEq, Repr

/-- The event a frame carries. -/
def decode : Incoming → Option RealtimeEvent
  | .payload topic message => some ⟨parse topic, message⟩
  | _ => none

/-- The longest wait before another attempt, in milliseconds. -/
def MAX_BACKOFF : ℕ := 60000

/-- How long a burst of events must have paused, in milliseconds. -/
def DEBOUNCE : ℕ := 1000

/-- The settings of a connection. -/
structure Settings where
  /-- The wait after the first failure, in milliseconds. -/
  minBackoff : ℕ
  /-- `clamp` takes its bounds in this order only. -/
  minBackoff_le : minBackoff ≤ MAX_BACKOFF

/-- The settings of the app. -/
def appSettings : Settings := ⟨2000, by decide⟩

/-- What a connection does. -/
inductive Happening where
  /-- It reads the access token. -/
  | asked
  /-- It opens a socket with the token read. -/
  | dialled (token : String)
  /-- A frame arrived. -/
  | heard
  /-- It has no socket and waits so long. -/
  | lost (wait : ℕ)
  /-- An event asks for a sync. -/
  | nudged (topic : RealtimeTopic)
  /-- It raises the signal that access changed. -/
  | accessSignalled
  /-- It asks for a sync. -/
  | syncAsked
  /-- It is given up. -/
  | disposed
  deriving DecidableEq, Repr

/-- A line of the log. -/
structure Entry where
  /-- The time, in milliseconds. -/
  time : ℕ
  /-- What happened. -/
  what : Happening
  deriving DecidableEq, Repr

/-- The channel, its listener and the listener's debouncer. -/
structure Connection where
  /-- The clock. -/
  now : ℕ
  /-- It was given up. -/
  disposed : Bool
  /-- It waits for the access token. -/
  reading : Bool
  /-- Reading the token failed, and nothing tries again. -/
  stuck : Bool
  /-- It listens to a socket. -/
  listening : Bool
  /-- When it tries again. -/
  reconnectAt : Option ℕ
  /-- How long it waits next. -/
  backoff : ℕ
  /-- When it asks for a sync. -/
  syncAt : Option ℕ
  /-- What it did. -/
  log : List Entry
  deriving DecidableEq, Repr

variable (settings : Settings)

/-- A number kept between two bounds. -/
def clamp (x lower upper : ℕ) : ℕ :=
  if x < lower then lower else if upper < x then upper else x

/-- Let go of the socket and try again after the wait. -/
def scheduleReconnect (c : Connection) : Connection :=
  if c.disposed then c
  else
    { c with
      listening := false
      reconnectAt := some (c.now + c.backoff)
      backoff := clamp (c.backoff * 2) settings.minBackoff MAX_BACKOFF
      log := c.log ++ [⟨c.now, .lost c.backoff⟩] }

/-- `connect`, as far as the token. -/
def connect (c : Connection) : Connection :=
  if c.disposed then c
  else
    { c with
      reconnectAt := none
      reading := true
      log := c.log ++ [⟨c.now, .asked⟩] }

/-- What reading the token came to. -/
inductive TokenRead where
  /-- The keystore threw. -/
  | failed
  /-- A token or none, and whether a socket can be opened at all. -/
  | answered (token : Option String) (dials : Bool)
  deriving DecidableEq, Repr

/-- `connect`, from the token on. -/
def tokenRead (answer : TokenRead) (c : Connection) : Connection :=
  if c.reading then
    let c := { c with reading := false }
    match answer with
    | .failed => { c with stuck := true }
    | .answered token dials =>
      if c.disposed then c
      else
        match token with
        | none => scheduleReconnect settings c
        | some token =>
          if token = "" then scheduleReconnect settings c
          else if dials then
            { c with
              listening := true
              log := c.log ++ [⟨c.now, .dialled token⟩] }
          else scheduleReconnect settings c
  else c

/-- The listener: a change of access is signalled, and for anything else a sync
is asked for, put off while events keep coming. -/
def onEvent (event : RealtimeEvent) (c : Connection) : Connection :=
  if event.topic = .accessChanged then { c with log := c.log ++ [⟨c.now, .accessSignalled⟩] }
  else
    { c with
      syncAt := some (c.now + DEBOUNCE)
      log := c.log ++ [⟨c.now, .nudged event.topic⟩] }

/-- A frame means the link is healthy, whether or not it can be read. -/
def handleFrame (frame : Incoming) (c : Connection) : Connection :=
  if c.listening then
    let c := { c with backoff := settings.minBackoff, log := c.log ++ [⟨c.now, .heard⟩] }
    match decode frame with
    | none => c
    | some event => onEvent event c
  else c

/-- The socket is done or failed. -/
def hangUp (c : Connection) : Connection :=
  if c.listening then scheduleReconnect settings c else c

/-- The timer of the next attempt. -/
def reconnectTimer (c : Connection) : Connection :=
  match c.reconnectAt with
  | none => c
  | some due => if due ≤ c.now then connect c else c

/-- The debouncer's timer. -/
def debounceTimer (c : Connection) : Connection :=
  match c.syncAt with
  | none => c
  | some due =>
    if due ≤ c.now then
      { c with
        syncAt := none
        log := c.log ++ [⟨c.now, .syncAsked⟩] }
    else c

/-- The store is left, or the app. -/
def dispose (c : Connection) : Connection :=
  if c.disposed then c
  else
    { c with
      disposed := true
      listening := false
      reconnectAt := none
      syncAt := none
      log := c.log ++ [⟨c.now, .disposed⟩] }

/-- What happens to a connection. -/
inductive Action where
  | wait (d : ℕ)
  | tokenRead (answer : TokenRead)
  | frame (frame : Incoming)
  | hangUp
  | reconnectTimer
  | debounceTimer
  | dispose
  deriving DecidableEq, Repr

/-- One thing happens. -/
def step (c : Connection) : Action → Connection
  | .wait d => { c with now := c.now + d }
  | .tokenRead answer => tokenRead settings answer c
  | .frame frame => handleFrame settings frame c
  | .hangUp => hangUp settings c
  | .reconnectTimer => reconnectTimer c
  | .debounceTimer => debounceTimer c
  | .dispose => dispose c

/-- One thing after another. -/
def run (c : Connection) (actions : List Action) : Connection :=
  actions.foldl (step settings) c

/-- A phone that has just opened its store. -/
def start : Connection :=
  connect ⟨0, false, false, false, false, none, settings.minBackoff, none, []⟩

/-- How often the socket was lost since a frame last arrived. -/
def failures (log : List Entry) : ℕ :=
  log.foldl (fun n e => match e.what with
    | .heard => 0
    | .lost _ => n + 1
    | _ => n) 0

/-- When the last nudge came, if no sync was asked for after it. -/
def unserved (log : List Entry) : Option ℕ :=
  log.foldl (fun nudge e => match e.what with
    | .nudged _ => some e.time
    | .syncAsked => none
    | _ => nudge) none

/-- When the wait for another attempt is over. -/
def waitingUntil (log : List Entry) : Option ℕ :=
  log.foldl (fun due e => match e.what with
    | .lost wait => some (e.time + wait)
    | .asked => none
    | _ => due) none

/-- The token is being read. -/
def asking (log : List Entry) : Bool :=
  log.foldl (fun asked e => match e.what with
    | .asked => true
    | .dialled _ | .lost _ => false
    | _ => asked) false

/-- The wait before another attempt after so many failures. -/
def waitAfter (failures : ℕ) : ℕ := min (settings.minBackoff * 2 ^ failures) MAX_BACKOFF

/-- What each attempt keeps to: nothing follows the end; a socket that is lost
is waited for twice as long each time; the token is read again when the wait is
over and no more than `late` after; and a socket is opened with a token read
since the last one was lost. -/
def Attempts (late : ℕ) (before : List Entry) (e : Entry) : Prop :=
  (∀ d ∈ before, d.what ≠ .disposed) ∧
    match e.what with
    | .lost wait => wait = waitAfter settings (failures before)
    | .asked => before = [] ∨
        ∃ due, waitingUntil before = some due ∧ due ≤ e.time ∧ e.time ≤ due + late
    | .dialled _ => asking before = true
    | _ => True

/-- What each call for a sync keeps to: it answers a nudge that none has answered, a
second after the last one and no more than `late` later, and none comes after
the end. -/
def Bursts (late : ℕ) (before : List Entry) (e : Entry) : Prop :=
  (∀ d ∈ before, d.what ≠ .disposed) ∧
    (e.what = .syncAsked → ∃ nudge, unserved before = some nudge ∧
      nudge + DEBOUNCE ≤ e.time ∧ e.time ≤ nudge + DEBOUNCE + late)

/-- No timer is later than `late`. -/
def Prompt (late : ℕ) (c : Connection) : Prop :=
  (∀ due ∈ c.reconnectAt, c.now ≤ due + late) ∧ ∀ due ∈ c.syncAt, c.now ≤ due + late

instance (late : ℕ) (c : Connection) : Decidable (Prompt late c) :=
  inferInstanceAs (Decidable (_ ∧ _))

/-- No timer is ever later than `late`. -/
def OnTime (late : ℕ) : Connection → List Action → Prop
  | c, [] => Prompt late c
  | c, action :: actions => Prompt late c ∧ OnTime late (step settings c action) actions

/-- Whether a run is on time can be computed. -/
instance decidableOnTime (late : ℕ) :
    ∀ (c : Connection) (actions : List Action), Decidable (OnTime settings late c actions)
  | c, [] => inferInstanceAs (Decidable (Prompt late c))
  | c, action :: actions =>
    have : Decidable (OnTime settings late (step settings c action) actions) :=
      decidableOnTime late _ actions
    inferInstanceAs (Decidable (_ ∧ _))

section

variable {log : List Entry} {time : ℕ}

@[simp] theorem failures_append (e : Entry) : failures (log ++ [e]) =
    match e.what with
    | .heard => 0
    | .lost _ => failures log + 1
    | _ => failures log := by
  rw [failures, List.foldl_append]
  rfl

@[simp] theorem unserved_append (e : Entry) : unserved (log ++ [e]) =
    match e.what with
    | .nudged _ => some e.time
    | .syncAsked => none
    | _ => unserved log := by
  rw [unserved, List.foldl_append]
  rfl

@[simp] theorem waitingUntil_append (e : Entry) : waitingUntil (log ++ [e]) =
    match e.what with
    | .lost wait => some (e.time + wait)
    | .asked => none
    | _ => waitingUntil log := by
  rw [waitingUntil, List.foldl_append]
  rfl

@[simp] theorem asking_append (e : Entry) : asking (log ++ [e]) =
    match e.what with
    | .asked => true
    | .dialled _ | .lost _ => false
    | _ => asking log := by
  rw [asking, List.foldl_append]
  rfl

end

/-- Doubling and keeping within the bounds is the next wait. -/
theorem clamp_waitAfter (n : ℕ) :
    clamp (waitAfter settings n * 2) settings.minBackoff MAX_BACKOFF =
      waitAfter settings (n + 1) := by
  have hle := settings.minBackoff_le
  have hgrows : settings.minBackoff ≤ settings.minBackoff * 2 ^ n :=
    Nat.le_mul_of_pos_right _ (Nat.two_pow_pos n)
  rw [clamp, waitAfter, waitAfter, pow_succ, ← Nat.mul_assoc]
  generalize settings.minBackoff * 2 ^ n = x at hgrows ⊢
  split
  · omega
  · split <;> omega

theorem waitAfter_zero : waitAfter settings 0 = settings.minBackoff := by
  rw [waitAfter, pow_zero, Nat.mul_one]
  exact Nat.min_eq_left settings.minBackoff_le

section

variable {settings} {late : ℕ} {c : Connection}

/-- The timers and the log of a connection that was not given up. -/
structure Live (c : Connection) : Prop where
  /-- It has not ended. -/
  going : ∀ e ∈ c.log, e.what ≠ .disposed
  /-- The timer of the next attempt runs while it waits. -/
  reconnectAt : c.reconnectAt = waitingUntil c.log
  /-- The debouncer's timer runs while a nudge is unanswered. -/
  syncAt : c.syncAt = (unserved c.log).map (· + DEBOUNCE)
  /-- A token it waits for was asked for. -/
  reading : c.reading = true → asking c.log = true

/-- What holds in every state, between the steps and within them. -/
structure Sound (settings : Settings) (late : ℕ) (c : Connection) : Prop where
  /-- Every attempt was made as it should. -/
  attempts : KeepsTo (Attempts settings late) c.log
  /-- And every call for a sync. -/
  bursts : KeepsTo (Bursts late) c.log
  /-- The next wait is the one after the failures so far. -/
  backoff : c.backoff = waitAfter settings (failures c.log)
  /-- The timers are those of the log. -/
  live : c.disposed = false → Live c
  /-- After the end there are none. -/
  dead : c.disposed = true → c.listening = false ∧ c.reconnectAt = none ∧ c.syncAt = none

/-- It reads the token, listens, waits to try again or is stuck: one of them
and no two. -/
def OneWay (c : Connection) : Prop :=
  [c.reading, c.listening, c.reconnectAt.isSome, c.stuck].count true = 1

instance (c : Connection) : Decidable (OneWay c) := inferInstanceAs (Decidable (_ = _))

/-- What holds between the steps. -/
structure Inv (settings : Settings) (late : ℕ) (c : Connection) : Prop where
  /-- What holds within them. -/
  sound : Sound settings late c
  /-- There is one way on. -/
  oneWay : c.disposed = false → OneWay c

theorem Live.going_append (h : Live c) {e : Entry} (he : e.what ≠ .disposed) :
    ∀ d ∈ c.log ++ [e], d.what ≠ .disposed := by
  intro d hd
  rcases List.mem_append.mp hd with hd | hd
  · exact h.going d hd
  · rw [List.mem_singleton.mp hd]
    exact he

/-- A connection that listens was not given up. -/
theorem Sound.of_listening (h : Sound settings late c) (hl : c.listening = true) :
    c.disposed = false := by
  by_contra hdead
  rw [(h.dead (Bool.eq_true_of_not_eq_false hdead)).1] at hl
  cases hl

/-- A connection that listens does nothing else. -/
theorem OneWay.of_listening (h : OneWay c) (hl : c.listening = true) :
    c.reading = false ∧ c.reconnectAt = none ∧ c.stuck = false := by
  rw [OneWay, hl] at h
  cases hr : c.reading <;> cases ha : c.reconnectAt <;> cases hs : c.stuck <;>
    simp [hr, ha, hs] at h ⊢

/-- A connection that waits for a token does nothing else. -/
theorem OneWay.of_reading (h : OneWay c) (hr : c.reading = true) :
    c.listening = false ∧ c.reconnectAt = none ∧ c.stuck = false := by
  rw [OneWay, hr] at h
  cases hl : c.listening <;> cases ha : c.reconnectAt <;> cases hs : c.stuck <;>
    simp [hl, ha, hs] at h ⊢

/-- A connection that waits to try again does nothing else. -/
theorem OneWay.of_waiting (h : OneWay c) {due : ℕ} (ha : c.reconnectAt = some due) :
    c.reading = false ∧ c.listening = false ∧ c.stuck = false := by
  rw [OneWay, ha] at h
  cases hr : c.reading <;> cases hl : c.listening <;> cases hs : c.stuck <;>
    simp [hr, hl, hs] at h ⊢

theorem Sound.scheduleReconnect (h : Sound settings late c) (hreading : c.reading = false) :
    Sound settings late (scheduleReconnect settings c) := by
  rw [LiveConnection.scheduleReconnect]
  split
  next => exact h
  next hd =>
    have hd : c.disposed = false := Bool.eq_false_iff.mpr hd
    have hlive := h.live hd
    refine ⟨h.attempts.append ⟨hlive.going, h.backoff⟩, h.bursts.append ⟨hlive.going, nofun⟩,
      ?_, fun _ => ⟨hlive.going_append nofun, by simp, by simpa using hlive.syncAt, ?_⟩,
      fun hdead => absurd (hd.symm.trans hdead) nofun⟩
    · rw [failures_append, h.backoff]
      exact clamp_waitAfter settings _
    · intro hr
      exact absurd (hreading.symm.trans hr) nofun

theorem oneWay_scheduleReconnect (hd : c.disposed = false) (hreading : c.reading = false)
    (hstuck : c.stuck = false) : OneWay (scheduleReconnect settings c) := by
  rw [scheduleReconnect, hd, OneWay]
  simp [hreading, hstuck]

theorem Sound.connect (h : Sound settings late c)
    (hasked : c.log = [] ∨ ∃ due, c.reconnectAt = some due ∧ due ≤ c.now ∧ c.now ≤ due + late) :
    Sound settings late (connect c) := by
  rw [LiveConnection.connect]
  split
  next => exact h
  next hd =>
    have hd : c.disposed = false := Bool.eq_false_iff.mpr hd
    have hlive := h.live hd
    have hrule : Attempts settings late c.log ⟨c.now, .asked⟩ := by
      refine ⟨hlive.going, hasked.imp_right ?_⟩
      rintro ⟨due, hdue, hbounds⟩
      exact ⟨due, hlive.reconnectAt ▸ hdue, hbounds⟩
    refine ⟨h.attempts.append hrule, h.bursts.append ⟨hlive.going, nofun⟩, by simpa using h.backoff,
      fun _ => ⟨hlive.going_append nofun, by simp, by simpa using hlive.syncAt, by simp⟩,
      fun hdead => absurd (hd.symm.trans hdead) nofun⟩

theorem Sound.tokenRead (h : Sound settings late c) (answer : TokenRead) : Sound settings late (tokenRead settings answer c) := by
  rw [LiveConnection.tokenRead]
  split
  next hreading =>
    have hread : Sound settings late { c with reading := false } := by
      refine ⟨h.attempts, h.bursts, h.backoff, fun hd => ?_, h.dead⟩
      have hlive := h.live hd
      exact ⟨hlive.going, hlive.reconnectAt, hlive.syncAt, nofun⟩
    cases answer with
    | failed =>
      refine ⟨hread.attempts, hread.bursts, hread.backoff, fun hd => ?_, hread.dead⟩
      have hlive := hread.live hd
      exact ⟨hlive.going, hlive.reconnectAt, hlive.syncAt, nofun⟩
    | answered token dials =>
      dsimp only
      split
      next => exact hread
      next hd =>
        have hd : c.disposed = false := Bool.eq_false_iff.mpr hd
        have hlive := h.live hd
        cases token with
        | none => exact hread.scheduleReconnect rfl
        | some token =>
          dsimp only
          split
          · exact hread.scheduleReconnect rfl
          · split
            · -- the token was asked for, so the log says it is being asked for
              have hasking := hlive.reading hreading
              refine ⟨h.attempts.append ⟨hlive.going, hasking⟩,
                h.bursts.append ⟨hlive.going, nofun⟩, by simpa using h.backoff,
                fun _ => ⟨hlive.going_append nofun, by simpa using hlive.reconnectAt,
                  by simpa using hlive.syncAt, nofun⟩,
                fun hdead => absurd (hd.symm.trans hdead) nofun⟩
            · exact hread.scheduleReconnect rfl
  next => exact h

theorem oneWay_tokenRead (hone : OneWay c) (hd : c.disposed = false) (answer : TokenRead) :
    OneWay (tokenRead settings answer c) := by
  rw [tokenRead]
  split
  next hreading =>
    obtain ⟨hlistening, hwaiting, hstuck⟩ := hone.of_reading hreading
    have hlost : OneWay (scheduleReconnect settings { c with reading := false }) :=
      oneWay_scheduleReconnect hd rfl hstuck
    cases answer with
    | failed =>
      rw [OneWay]
      simp [hlistening, hwaiting]
    | answered token dials =>
      dsimp only
      rw [if_neg (by rw [hd]; decide)]
      cases token with
      | none => exact hlost
      | some token =>
        dsimp only
        split
        · exact hlost
        · split
          · rw [OneWay]
            simp [hwaiting, hstuck]
          · exact hlost
  next => exact hone

theorem Sound.onEvent (h : Sound settings late c) (hd : c.disposed = false)
    (event : RealtimeEvent) : Sound settings late (onEvent event c) := by
  have hlive := h.live hd
  rw [LiveConnection.onEvent]
  split
  · refine ⟨h.attempts.append ⟨hlive.going, trivial⟩, h.bursts.append ⟨hlive.going, nofun⟩,
      by simpa using h.backoff, fun _ => ⟨hlive.going_append nofun, by simpa using hlive.reconnectAt,
        by simpa using hlive.syncAt, by simpa using hlive.reading⟩,
      fun hdead => absurd (hd.symm.trans hdead) nofun⟩
  · refine ⟨h.attempts.append ⟨hlive.going, trivial⟩, h.bursts.append ⟨hlive.going, nofun⟩,
      by simpa using h.backoff, fun _ => ⟨hlive.going_append nofun, by simpa using hlive.reconnectAt,
        by simp, by simpa using hlive.reading⟩, fun hdead => absurd (hd.symm.trans hdead) nofun⟩

theorem Sound.handleFrame (h : Sound settings late c) (frame : Incoming) :
    Sound settings late (handleFrame settings frame c) := by
  rw [LiveConnection.handleFrame]
  split
  next hlistening =>
    have hd : c.disposed = false := h.of_listening hlistening
    have hlive := h.live hd
    have hheard : Sound settings late
        { c with backoff := settings.minBackoff, log := c.log ++ [⟨c.now, .heard⟩] } := by
      refine ⟨h.attempts.append ⟨hlive.going, trivial⟩, h.bursts.append ⟨hlive.going, nofun⟩,
        by simp [waitAfter_zero], fun _ => ⟨hlive.going_append nofun,
          by simpa using hlive.reconnectAt, by simpa using hlive.syncAt,
          by simpa using hlive.reading⟩, fun hdead => absurd (hd.symm.trans hdead) nofun⟩
    dsimp only
    split
    · exact hheard
    · exact hheard.onEvent hd _
  next => exact h

/-- The channel stands where it stood. -/
structure SameChannel (c c' : Connection) : Prop where
  reading : c'.reading = c.reading
  listening : c'.listening = c.listening
  reconnectAt : c'.reconnectAt = c.reconnectAt
  stuck : c'.stuck = c.stuck
  disposed : c'.disposed = c.disposed

theorem sameChannel_onEvent (event : RealtimeEvent) : SameChannel c (onEvent event c) := by
  rw [onEvent]
  split <;> exact ⟨rfl, rfl, rfl, rfl, rfl⟩

/-- A frame leaves the channel as it is. -/
theorem sameChannel_handleFrame (frame : Incoming) :
    SameChannel c (handleFrame settings frame c) := by
  rw [handleFrame]
  split
  · dsimp only
    split
    · exact ⟨rfl, rfl, rfl, rfl, rfl⟩
    · obtain ⟨hreading, hlistening, hwaiting, hstuck, hdisposed⟩ := sameChannel_onEvent _
      exact ⟨hreading, hlistening, hwaiting, hstuck, hdisposed⟩
  · exact ⟨rfl, rfl, rfl, rfl, rfl⟩

/-- So does a call for a sync. -/
theorem sameChannel_debounceTimer : SameChannel c (debounceTimer c) := by
  rw [debounceTimer]
  split
  · exact ⟨rfl, rfl, rfl, rfl, rfl⟩
  · split <;> exact ⟨rfl, rfl, rfl, rfl, rfl⟩

theorem SameChannel.oneWay {c' : Connection} (h : SameChannel c c')
    (hone : c.disposed = false → OneWay c) (hd : c'.disposed = false) : OneWay c' := by
  rw [OneWay, h.reading, h.listening, h.reconnectAt, h.stuck]
  exact hone (h.disposed.symm.trans hd)

theorem Sound.debounceTimer (h : Sound settings late c) (hprompt : Prompt late c) :
    Sound settings late (debounceTimer c) := by
  rw [LiveConnection.debounceTimer]
  split
  next => exact h
  next due hdue =>
    split
    next hle =>
      have hd : c.disposed = false := by
        by_contra hdead
        rw [(h.dead (Bool.eq_true_of_not_eq_false hdead)).2.2] at hdue
        cases hdue
      have hlive := h.live hd
      have hrule : Bursts late c.log ⟨c.now, .syncAsked⟩ := by
        refine ⟨hlive.going, fun _ => ?_⟩
        obtain ⟨nudge, hnudge, rfl⟩ := Option.map_eq_some_iff.mp (hlive.syncAt.symm.trans hdue)
        exact ⟨nudge, hnudge, hle, hprompt.2 _ hdue⟩
      refine ⟨h.attempts.append ⟨hlive.going, trivial⟩, h.bursts.append hrule,
        by simpa using h.backoff, fun _ => ⟨hlive.going_append nofun,
          by simpa using hlive.reconnectAt, by simp, by simpa using hlive.reading⟩,
        fun hdead => absurd (hd.symm.trans hdead) nofun⟩
    next => exact h

theorem Sound.dispose (h : Sound settings late c) : Sound settings late (dispose c) := by
  rw [LiveConnection.dispose]
  split
  next => exact h
  next hd =>
    have hd : c.disposed = false := Bool.eq_false_iff.mpr hd
    have hlive := h.live hd
    refine ⟨h.attempts.append ⟨hlive.going, trivial⟩, h.bursts.append ⟨hlive.going, nofun⟩,
      by simpa using h.backoff, nofun, fun _ => ⟨rfl, rfl, rfl⟩⟩

@[simp] theorem scheduleReconnect_disposed :
    (scheduleReconnect settings c).disposed = c.disposed := by
  rw [scheduleReconnect]
  split <;> rfl

@[simp] theorem connect_disposed : (connect c).disposed = c.disposed := by
  rw [connect]
  split <;> rfl

@[simp] theorem tokenRead_disposed (answer : TokenRead) :
    (tokenRead settings answer c).disposed = c.disposed := by
  rw [tokenRead]
  split
  · cases answer with
    | failed => rfl
    | answered token dials =>
      dsimp only
      split
      · rfl
      · cases token with
        | none => exact scheduleReconnect_disposed
        | some token =>
          dsimp only
          split
          · exact scheduleReconnect_disposed
          · split
            · rfl
            · exact scheduleReconnect_disposed
  · rfl

/-- Whatever happens, what holds between the steps still holds. -/
theorem Inv.step (h : Inv settings late c) (hprompt : Prompt late c) (action : Action) :
    Inv settings late (step settings c action) := by
  cases action with
  | wait d =>
    refine ⟨⟨h.sound.attempts, h.sound.bursts, h.sound.backoff, fun hd => ?_, h.sound.dead⟩,
      h.oneWay⟩
    have hlive := h.sound.live hd
    exact ⟨hlive.going, hlive.reconnectAt, hlive.syncAt, hlive.reading⟩
  | tokenRead answer =>
    refine ⟨h.sound.tokenRead answer, fun hd => ?_⟩
    have hd : c.disposed = false := (tokenRead_disposed answer).symm.trans hd
    exact oneWay_tokenRead (h.oneWay hd) hd answer
  | frame frame =>
    exact ⟨h.sound.handleFrame frame, (sameChannel_handleFrame frame).oneWay h.oneWay⟩
  | hangUp =>
    rw [LiveConnection.step, hangUp]
    split
    next hlistening =>
      have hd : c.disposed = false := h.sound.of_listening hlistening
      obtain ⟨hreading, _, hstuck⟩ := (h.oneWay hd).of_listening hlistening
      exact ⟨h.sound.scheduleReconnect hreading,
        fun _ => oneWay_scheduleReconnect hd hreading hstuck⟩
    next => exact h
  | reconnectTimer =>
    rw [LiveConnection.step, reconnectTimer]
    split
    next => exact h
    next due hdue =>
      split
      next hle =>
        refine ⟨h.sound.connect (.inr ⟨due, hdue, hle, hprompt.1 due hdue⟩), fun hd => ?_⟩
        have hd : c.disposed = false := connect_disposed.symm.trans hd
        obtain ⟨_, hlistening, hstuck⟩ := (h.oneWay hd).of_waiting hdue
        rw [connect, hd, OneWay]
        simp [hlistening, hstuck]
      next => exact h
  | debounceTimer =>
    exact ⟨h.sound.debounceTimer hprompt, sameChannel_debounceTimer.oneWay h.oneWay⟩
  | dispose =>
    refine ⟨h.sound.dispose, fun hd => ?_⟩
    rw [LiveConnection.step, dispose] at hd
    split at hd
    next hdead => exact absurd (hd.symm.trans hdead) nofun
    next => cases hd

theorem inv_start : Inv settings late (start settings) := by
  refine ⟨?_, fun _ => rfl⟩
  apply Sound.connect _ (.inl rfl)
  exact ⟨keepsTo_nil, keepsTo_nil, (waitAfter_zero settings).symm,
    fun _ => ⟨nofun, rfl, rfl, nofun⟩, nofun⟩

/-- What holds between the steps holds along every run whose timers are not
later than `late`. -/
theorem Inv.run (h : Inv settings late c) {actions : List Action}
    (htime : OnTime settings late c actions) : Inv settings late (run settings c actions) := by
  induction actions generalizing c with
  | nil => exact h
  | cons action actions ih => exact ih (h.step htime.1 action) htime.2

end

/-- In every run, whatever the tokens, sockets and frames, the phone that has
not given up its connection reads the token, listens, waits to try again or has
failed to read its keystore, exactly one of them; it never waits more than a
minute, every wait is double the one before until a frame arrives, every socket
is opened with a token read since the last one was lost, and nothing happens
after the end. -/
theorem keeps_trying (late : ℕ) (actions : List Action) (c : Connection)
    (htime : OnTime settings late (start settings) actions)
    (hc : run settings (start settings) actions = c) :
    KeepsTo (Attempts settings late) c.log ∧
      (c.disposed = false → OneWay c ∧ c.reconnectAt = waitingUntil c.log) ∧
      c.backoff = waitAfter settings (failures c.log) := by
  have hinv : Inv settings late c := hc ▸ inv_start.run htime
  exact ⟨hinv.sound.attempts,
    fun hd => ⟨hinv.oneWay hd, (hinv.sound.live hd).reconnectAt⟩, hinv.sound.backoff⟩

/-- A phone whose network is gone twice in a row before a frame arrives. -/
def shakyMorning : List Action :=
  [.tokenRead (.answered (some "a") true), .hangUp, .wait 2000, .reconnectTimer,
    .tokenRead (.answered (some "b") true), .hangUp, .wait 4000, .reconnectTimer,
    .tokenRead (.answered (some "c") true), .frame .garbled, .hangUp]

/-- It waits two seconds, then four, and after the frame two again. -/
theorem keeps_trying_shakyMorning :
    (run appSettings (start appSettings) shakyMorning).reconnectAt = some 8000 ∧
      KeepsTo (Attempts appSettings 0) (run appSettings (start appSettings) shakyMorning).log ∧
      ((run appSettings (start appSettings) shakyMorning).disposed = false →
        OneWay (run appSettings (start appSettings) shakyMorning) ∧
          (run appSettings (start appSettings) shakyMorning).reconnectAt =
            waitingUntil (run appSettings (start appSettings) shakyMorning).log) ∧
      (run appSettings (start appSettings) shakyMorning).backoff =
        waitAfter appSettings (failures (run appSettings (start appSettings) shakyMorning).log) :=
  ⟨by decide, keeps_trying appSettings 0 shakyMorning _ (by decide) rfl⟩

/-- In every run each sync asked for answers a burst of events: it is asked for a
second after the last of them, or as much later as timers are, and none was in
between; and a burst that none has answered is answered when its second is over,
unless the connection is given up before. -/
theorem one_sync_a_burst (late : ℕ) (actions : List Action) (c : Connection)
    (htime : OnTime settings late (start settings) actions)
    (hc : run settings (start settings) actions = c) :
    KeepsTo (Bursts late) c.log ∧
      (c.disposed = false → c.syncAt = (unserved c.log).map (· + DEBOUNCE)) := by
  have hinv : Inv settings late c := hc ▸ inv_start.run htime
  exact ⟨hinv.sound.bursts, fun hd => (hinv.sound.live hd).syncAt⟩

/-- Three events within a second and a half. -/
def busyCounter : List Action :=
  [.tokenRead (.answered (some "a") true), .frame (.payload (some "sale_recorded") none), .wait 700,
    .frame (.payload (some "stock_low") (some "Rice")), .wait 800,
    .frame (.payload (some "invented_later") none), .wait 1000, .debounceTimer]

/-- One sync is asked for, a second after the last. -/
theorem one_sync_a_burst_busyCounter :
    ⟨2500, .syncAsked⟩ ∈ (run appSettings (start appSettings) busyCounter).log ∧
      KeepsTo (Bursts 0) (run appSettings (start appSettings) busyCounter).log ∧
      ((run appSettings (start appSettings) busyCounter).disposed = false →
        (run appSettings (start appSettings) busyCounter).syncAt =
          (unserved (run appSettings (start appSettings) busyCounter).log).map (· + DEBOUNCE)) :=
  ⟨by decide, one_sync_a_burst appSettings 0 busyCounter _ (by decide) rfl⟩

/-- The text of a topic. -/
def topicText : RealtimeTopic → String
  | .saleRecorded => "sale_recorded"
  | .saleVoided => "sale_voided"
  | .expenseRecorded => "expense_recorded"
  | .expenseRemoved => "expense_removed"
  | .withdrawalRecorded => "withdrawal_recorded"
  | .productChanged => "product_changed"
  | .stockLow => "stock_low"
  | .dashboardStale => "dashboard_stale"
  | .accessChanged => "access_changed"

/-- What a frame of the server is to the phone. Pings are answered below the
app, and a close ends the stream. -/
def incoming : Realtime.Frame → Option Incoming
  | .event e => some (.payload (some (topicText e.topic)) e.message)
  | .stale => some (.payload (some "dashboard_stale") none)
  | .ping | .close => none

/-- The phone reads every topic as the server wrote it. -/
theorem parse_topicText (topic : RealtimeTopic) : parse (some (topicText topic)) = topic := by
  cases topic <;> rfl

/-- The frames among what happens. -/
def framesOf (actions : List Action) : List Incoming :=
  actions.filterMap fun
    | .frame frame => some frame
    | _ => none

section

variable {settings} {c : Connection} {n : ℕ}

/-- A connection that listens and does nothing else. -/
structure Listens (c : Connection) : Prop where
  going : c.disposed = false
  listening : c.listening = true
  reading : c.reading = false
  reconnectAt : c.reconnectAt = none

theorem Inv.listens {late : ℕ} (h : Inv settings late c) (hl : c.listening = true) :
    Listens c := by
  have hd : c.disposed = false := h.sound.of_listening hl
  obtain ⟨hreading, hwaiting, _⟩ := (h.oneWay hd).of_listening hl
  exact ⟨hd, hl, hreading, hwaiting⟩

/-- As long as the socket holds and the connection is not given up, it goes on
listening. -/
theorem Listens.keeps (h : Listens c) {action : Action} (hheld : action ≠ .hangUp)
    (hkept : action ≠ .dispose) : Listens (step settings c action) := by
  cases action with
  | wait d => exact ⟨h.going, h.listening, h.reading, h.reconnectAt⟩
  | tokenRead answer =>
    rw [LiveConnection.step, tokenRead, if_neg (by rw [h.reading]; decide)]
    exact h
  | frame frame =>
    have hsame := @sameChannel_handleFrame settings c frame
    exact ⟨hsame.disposed.trans h.going, hsame.listening.trans h.listening,
      hsame.reading.trans h.reading, hsame.reconnectAt.trans h.reconnectAt⟩
  | hangUp => exact absurd rfl hheld
  | reconnectTimer =>
    rw [LiveConnection.step, reconnectTimer, h.reconnectAt]
    exact h
  | debounceTimer =>
    have hsame := @sameChannel_debounceTimer c
    exact ⟨hsame.disposed.trans h.going, hsame.listening.trans h.listening,
      hsame.reading.trans h.reading, hsame.reconnectAt.trans h.reconnectAt⟩
  | dispose => exact absurd rfl hkept

/-- What happened since the log had `n` lines. -/
def since (n : ℕ) (c : Connection) : List Happening := (c.log.drop n).map Entry.what

/-- A sync was asked for since, or is to be. -/
def Served (n : ℕ) (c : Connection) : Prop := c.syncAt.isSome = true ∨ .syncAsked ∈ since n c

/-- While a connection listens its log only grows, and a sync that is to be asked
for is not forgotten. -/
theorem Listens.grows (h : Listens c) {action : Action} (hheld : action ≠ .hangUp)
    (hkept : action ≠ .dispose) : ∃ lines, (step settings c action).log = c.log ++ lines ∧
      (c.syncAt.isSome = true → (step settings c action).syncAt.isSome = true ∨
        .syncAsked ∈ lines.map Entry.what) := by
  cases action with
  | wait d => exact ⟨[], (List.append_nil _).symm, .inl⟩
  | tokenRead answer =>
    rw [LiveConnection.step, tokenRead, if_neg (by rw [h.reading]; decide)]
    exact ⟨[], (List.append_nil _).symm, .inl⟩
  | frame frame =>
    rw [LiveConnection.step, handleFrame, if_pos h.listening]
    dsimp only
    split
    next => exact ⟨_, rfl, .inl⟩
    next event _ =>
      rw [onEvent]
      split
      · exact ⟨_, List.append_assoc _ _ _, .inl⟩
      · exact ⟨_, List.append_assoc _ _ _, fun _ => .inl rfl⟩
  | hangUp => exact absurd rfl hheld
  | reconnectTimer =>
    rw [LiveConnection.step, reconnectTimer, h.reconnectAt]
    exact ⟨[], (List.append_nil _).symm, .inl⟩
  | debounceTimer =>
    rw [LiveConnection.step, debounceTimer]
    split
    next => exact ⟨[], (List.append_nil _).symm, .inl⟩
    next =>
      split
      · exact ⟨_, rfl, fun _ => .inr (List.mem_singleton.mpr rfl)⟩
      · exact ⟨[], (List.append_nil _).symm, .inl⟩
  | dispose => exact absurd rfl hkept

/-- What a frame leads to at once. -/
theorem Listens.heard (h : Listens c) (hn : n ≤ c.log.length) {frame : Incoming}
    {event : RealtimeEvent} (hevent : decode frame = some event) :
    if event.topic = .accessChanged then .accessSignalled ∈ since n (step settings c (.frame frame))
    else Served n (step settings c (.frame frame)) := by
  rw [LiveConnection.step, handleFrame, if_pos h.listening]
  dsimp only
  rw [hevent]
  dsimp only
  rw [onEvent]
  split
  · rw [since, List.append_assoc, List.drop_append_of_le_length hn, List.map_append]
    exact List.mem_append_right _ (by simp)
  · exact .inl rfl

/-- What was served stays served. -/
theorem Listens.served (h : Listens c) (hn : n ≤ c.log.length) {action : Action}
    (hheld : action ≠ .hangUp) (hkept : action ≠ .dispose) :
    n ≤ (step settings c action).log.length ∧
      (Served n c → Served n (step settings c action)) ∧
      (.accessSignalled ∈ since n c → .accessSignalled ∈ since n (step settings c action)) := by
  obtain ⟨lines, hlog, hsync⟩ := @Listens.grows settings c h action hheld hkept
  have hsince : since n (step settings c action) = since n c ++ lines.map Entry.what := by
    rw [since, hlog, List.drop_append_of_le_length hn, List.map_append]
    rfl
  rw [Served, Served, hsince, hlog, List.length_append]
  refine ⟨by omega, ?_, List.mem_append_left _⟩
  rintro (hdue | hdone)
  · exact (hsync hdue).imp_right (List.mem_append_right _)
  · exact .inr (List.mem_append_left _ hdone)

/-- A frame among those that arrive while the connection listens is served. -/
theorem Listens.run {actions : List Action} (h : Listens c) (hn : n ≤ c.log.length)
    (hkept : ∀ action ∈ actions, action ≠ .hangUp ∧ action ≠ .dispose) :
    (Served n c → Served n (run settings c actions)) ∧
      (.accessSignalled ∈ since n c → .accessSignalled ∈ since n (run settings c actions)) ∧
      ∀ frame ∈ framesOf actions, ∀ event, decode frame = some event →
        if event.topic = .accessChanged then .accessSignalled ∈ since n (run settings c actions)
        else Served n (run settings c actions) := by
  induction actions generalizing c with
  | nil => exact ⟨id, id, fun frame hframe => absurd hframe List.not_mem_nil⟩
  | cons action actions ih =>
    obtain ⟨hheld, hgoing⟩ := hkept action List.mem_cons_self
    obtain ⟨hn', hserved, hraised⟩ := @Listens.served settings c n h hn action hheld hgoing
    obtain ⟨hservedRest, hraisedRest, hrest⟩ := ih (h.keeps hheld hgoing) hn'
      fun a ha => hkept a (List.mem_cons_of_mem _ ha)
    refine ⟨hservedRest ∘ hserved, hraisedRest ∘ hraised, fun frame hframe event hevent => ?_⟩
    by_cases hthis : action = .frame frame
    · have hnow := @Listens.heard settings c n h hn frame event hevent
      rw [← hthis] at hnow
      split at hnow
      next haccess =>
        rw [if_pos haccess]
        exact hraisedRest hnow
      next hother =>
        rw [if_neg hother]
        exact hservedRest hnow
    · apply hrest frame _ event hevent
      cases action with
      | frame other =>
        obtain heq | hlater := List.mem_cons.mp hframe
        · exact absurd (congrArg Action.frame heq.symm) hthis
        · exact hlater
      | _ => exact hframe

/-- Every run is on time for some lateness. -/
theorem exists_onTime (actions : List Action) (c : Connection) :
    ∃ late, OnTime settings late c actions := by
  have hmono : ∀ (actions : List Action) (c : Connection) (late late' : ℕ), late ≤ late' →
      OnTime settings late c actions → OnTime settings late' c actions := by
    intro actions
    induction actions with
    | nil =>
      intro c late late' hle h
      exact ⟨fun due hdue => (h.1 due hdue).trans (by omega),
        fun due hdue => (h.2 due hdue).trans (by omega)⟩
    | cons action actions ih =>
      intro c late late' hle h
      exact ⟨⟨fun due hdue => (h.1.1 due hdue).trans (by omega),
        fun due hdue => (h.1.2 due hdue).trans (by omega)⟩, ih _ _ _ hle h.2⟩
  induction actions generalizing c with
  | nil => exact ⟨c.now, fun due _ => Nat.le_add_left _ _, fun due _ => Nat.le_add_left _ _⟩
  | cons action actions ih =>
    obtain ⟨late, hlate⟩ := ih (step settings c action)
    refine ⟨max late c.now, ⟨fun due _ => ?_, fun due _ => ?_⟩,
      hmono _ _ _ _ (le_max_left _ _) hlate⟩
    · exact (le_max_right late c.now).trans (Nat.le_add_left _ _)
    · exact (le_max_right late c.now).trans (Nat.le_add_left _ _)

end

/-- An event some instance publishes while a phone listens reaches the phone:
once the socket has sent what there is, the phone has read it and its last
burst is over, the phone has asked for a sync, or has signalled that its access
changed where that is what the event says. For the notice to a phone that fell
behind it always asks for a sync. -/
theorem published_then_asked {ι : Type} [DecidableEq ι] {instances : StoreLimit.Settings}
    {db : SessionDirectory.Db} {bridged : ι → Bool}
    {before after : List (Realtime.Action ι)} {s t : Realtime.State ι} {host : ι}
    {e : Realtime.RealtimeEvent} {carried : Bool} {k : ℕ} {a b : Realtime.Socket ι}
    (hs : Realtime.run instances (.initial db bridged) before = s)
    (ht : Realtime.run instances (Realtime.step instances s (.publish host e carried)) after = t)
    (ha : s.sockets[k]? = some a) (hphase : a.phase = .pumping) (hstore : a.storeId = e.storeId)
    (hb : t.sockets[k]? = some b) (hopen : b.phase ≠ .closed) (hheld : b.broken = false)
    (hread : b.next = (t.channelOf b).length)
    (hreach : host = a.host ∨ carried = true ∧ t.bridges a.host = some t.redis.length)
    {earlier actions : List Action} {c c' : Connection}
    (hc : run settings (start settings) earlier = c) (hlistening : c.listening = true)
    (hkept : ∀ action ∈ actions, action ≠ .hangUp ∧ action ≠ .dispose)
    (hheard : framesOf actions = (b.frames.drop a.frames.length).filterMap incoming)
    (hc' : run settings c actions = c') (hquiet : c'.syncAt = none) :
    .syncAsked ∈ since c.log.length c' ∨
      e.topic = .accessChanged ∧ .accessSignalled ∈ since c.log.length c' := by
  obtain ⟨late, htime⟩ := @exists_onTime settings earlier (start settings)
  have hlistens : Listens c := (hc ▸ inv_start.run htime : Inv settings late c).listens hlistening
  obtain ⟨_, _, hserved⟩ := @Listens.run settings c c.log.length actions hlistens le_rfl hkept
  rw [hc'] at hserved
  have hasked : Served c.log.length c' → .syncAsked ∈ since c.log.length c' := by
    rintro (hdue | hdone)
    · rw [hquiet] at hdue
      cases hdue
    · exact hdone
  have hinv : Realtime.Inv s := hs ▸ (Realtime.inv_initial db bridged).run instances before
  obtain hsent | hstale := Realtime.sent_after_publish instances hinv ht ha hphase hstore hb hopen
    hheld hread hreach
  · have hframe : .payload (some (topicText e.topic)) e.message ∈ framesOf actions := by
      rw [hheard]
      exact List.mem_filterMap.mpr ⟨_, hsent, rfl⟩
    have hthen := hserved _ hframe _ rfl
    rw [parse_topicText] at hthen
    split at hthen
    next haccess => exact .inr ⟨haccess, hthen⟩
    next => exact .inl (hasked hthen)
  · have hframe : .payload (some "dashboard_stale") none ∈ framesOf actions := by
      rw [hheard]
      exact List.mem_filterMap.mpr ⟨_, hstale, rfl⟩
    exact .inl (hasked (hserved _ hframe _ rfl))

/-- The owner's phone hears of the sale rung up on the tablet and asks for a sync
a second later. -/
theorem published_then_asked_tablet :
    .syncAsked ∈ since 2 (run appSettings
        (run appSettings (start appSettings) [.tokenRead (.answered (some "a") true)])
        [.frame (.payload (some "sale_recorded") none), .wait 1000, .debounceTimer]) ∨
      Realtime.saleRung.topic = .accessChanged ∧ .accessSignalled ∈ since 2 (run appSettings
        (run appSettings (start appSettings) [.tokenRead (.answered (some "a") true)])
        [.frame (.payload (some "sale_recorded") none), .wait 1000, .debounceTimer]) :=
  @published_then_asked appSettings _ _ ⟨0, false⟩ Realtime.tabletDb (fun _ => true)
    [.look false ⟨5⟩, .upgrade false ⟨5⟩ ⟨0⟩ (.lookup 0), .subscribe 0]
    [.bridge true, .bridge false, .read 0] _ _ true Realtime.saleRung true 0
    (Realtime.tabletSocket false) (Realtime.tabletSocket true) rfl rfl (by decide) rfl rfl
    (by decide) (by decide) rfl (by decide) (.inr ⟨rfl, by decide⟩)
    [.tokenRead (.answered (some "a") true)]
    [.frame (.payload (some "sale_recorded") none), .wait 1000, .debounceTimer] _ _ rfl
    (by decide) (by decide) (by decide) rfl (by decide)

end Kitaza.LiveConnection
