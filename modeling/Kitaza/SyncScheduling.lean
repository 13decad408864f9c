import Kitaza.EventLog
import Kitaza.SyncCoordinator

/-!
# When a phone syncs

Cycles are asked for by a timer every two minutes, by a burst of local writes
that has paused, by the network coming back, by the owner and by the store's
live events. A call that finds a cycle running is dropped, and so is one made
during the pause after a failure unless it is forced. The timer is what makes
up for a dropped call: a phone that may sync never rests longer than its period
after a cycle or a pause.
-/

namespace Kitaza.SyncScheduling

open EventLog SyncCoordinator

/-- The period of the timer, in microseconds. -/
def syncInterval : ℤ := 120 * 1000000

/-- How long local writes must have paused, in microseconds. -/
def pushDebounce : ℤ := 1500000

/-- How a cycle ended. -/
inductive Outcome where
  /-- It downloaded, and uploaded unless uploads are paused. -/
  | done (uploadsPaused : Bool)
  /-- It failed, as the app sees failures or in some other way. -/
  | failed (kind : Option FailureKind)
  deriving DecidableEq, Repr

/-- What a scheduler does. -/
inductive Happening where
  /-- It is built, for a store in the cloud or not. -/
  | built (cloud : Bool)
  /-- A cycle starts. -/
  | started (forced : Bool)
  /-- It ends, and with it comes a pause or none. -/
  | ended (outcome : Outcome) (retryAfter : Option ℤ)
  /-- A record was written. -/
  | wrote
  deriving DecidableEq, Repr

/-- A line of the log. -/
structure Entry where
  /-- The time, in microseconds. -/
  time : ℤ
  /-- What happened. -/
  what : Happening
  deriving DecidableEq, Repr

/-- The coordinator's timers and flags. -/
structure Scheduler where
  /-- The clock. -/
  now : ℤ
  /-- A store is open and kept in the cloud. -/
  cloud : Bool
  /-- The server refused the session. -/
  sessionLost : Bool
  /-- A cycle runs. -/
  running : Bool
  /-- When the timer fires next. -/
  periodicAt : Option ℤ
  /-- When a burst of writes is pushed. -/
  pushAt : Option ℤ
  /-- The network's coming and going is listened to. -/
  listening : Bool
  /-- No cycle of its own accord before this. -/
  retryAfter : Option ℤ
  /-- Failed cycles since the last good one. -/
  consecutiveFailures : ℕ
  /-- What it did. -/
  log : List Entry
  deriving DecidableEq, Repr

/-- Whether cycles run at all. -/
def Scheduler.enabled (s : Scheduler) : Bool := !s.sessionLost && s.cloud

/-- Whether the pause after a failure is still on. -/
def Scheduler.paused (s : Scheduler) : Bool := s.retryAfter.any (s.now < ·)

/-- A cycle is asked for. -/
def syncNow (force : Bool) (s : Scheduler) : Scheduler :=
  if s.running || !s.enabled then s
  else if !force && s.paused then s
  else
    { s with
      running := true
      log := s.log ++ [⟨s.now, .started force⟩] }

/-- Start the timer and listen to the network. -/
def startWatching (s : Scheduler) : Scheduler :=
  { s with
    periodicAt := some (s.now + syncInterval)
    listening := true }

/-- Stop the timers and listen no more. -/
def stopWatching (s : Scheduler) : Scheduler :=
  { s with
    periodicAt := none
    pushAt := none
    listening := false }

/-- `build`: what was watched before is let go, and in the cloud a cycle is
asked for at once. -/
def build (cloud : Bool) (s : Scheduler) : Scheduler :=
  let s := stopWatching s
  let s :=
    { s with
      cloud := cloud
      sessionLost := false
      log := s.log ++ [⟨s.now, .built cloud⟩] }
  if cloud then syncNow true (startWatching s) else s

/-- A record was written on the phone. -/
def schedulePush (s : Scheduler) : Scheduler :=
  if s.enabled then
    { s with
      pushAt := some (s.now + pushDebounce)
      log := s.log ++ [⟨s.now, .wrote⟩] }
  else s

/-- The pause after a cycle, and the failures counted with it. -/
def settle (outcome : Outcome) (s : Scheduler) : Option ℤ × ℕ :=
  match outcome with
  | .done uploadsPaused => (if uploadsPaused then some (s.now + maxBackoff) else none, 0)
  | .failed (some .paused) => (some (s.now + maxBackoff), s.consecutiveFailures)
  | .failed _ =>
    (some (s.now + backoffFor (s.consecutiveFailures + 1)), s.consecutiveFailures + 1)

/-- A cycle ends. One the server refused for its session is the last. -/
def finish (outcome : Outcome) (s : Scheduler) : Scheduler :=
  if s.running then
    let settled := settle outcome s
    let s :=
      { s with
        running := false
        retryAfter := settled.1
        consecutiveFailures := settled.2
        log := s.log ++ [⟨s.now, .ended outcome settled.1⟩] }
    if outcome = .failed (some .unauthorized) then stopWatching { s with sessionLost := true }
    else s
  else s

/-- The timer fires, and again a period after it was due. -/
def periodicTimer (s : Scheduler) : Scheduler :=
  match s.periodicAt with
  | none => s
  | some due =>
    if due ≤ s.now then syncNow false { s with periodicAt := some (due + syncInterval) } else s

/-- The timer of the writes fires. -/
def pushTimer (s : Scheduler) : Scheduler :=
  match s.pushAt with
  | none => s
  | some due => if due ≤ s.now then syncNow false { s with pushAt := none } else s

/-- What happens to a scheduler. -/
inductive Action where
  | wait (d : ℕ)
  | build (cloud : Bool)
  | periodicTimer
  | pushTimer
  /-- The network is back. -/
  | online
  /-- The owner, a live event or a change of access asks for a cycle. -/
  | call (force : Bool)
  /-- A record is written. -/
  | write
  | finish (outcome : Outcome)
  deriving DecidableEq, Repr

/-- One thing happens. -/
def step (s : Scheduler) : Action → Scheduler
  | .wait d => { s with now := s.now + d }
  | .build cloud => build cloud s
  | .periodicTimer => periodicTimer s
  | .pushTimer => pushTimer s
  | .online => if s.listening then syncNow true s else s
  | .call force => syncNow force s
  | .write => schedulePush s
  | .finish outcome => finish outcome s

/-- One thing after another. -/
def run (s : Scheduler) (actions : List Action) : Scheduler := actions.foldl step s

/-- An app that has just started, before anything asked for the coordinator. -/
def fresh : Scheduler := ⟨0, false, false, false, none, none, false, none, 0, []⟩

/-- No timer is later than `late`. -/
def Prompt (late : ℤ) (s : Scheduler) : Prop :=
  (∀ due ∈ s.periodicAt, s.now ≤ due + late) ∧ ∀ due ∈ s.pushAt, s.now ≤ due + late

instance (late : ℤ) (s : Scheduler) : Decidable (Prompt late s) :=
  inferInstanceAs (Decidable (_ ∧ _))

/-- No timer is ever later than `late`. -/
def OnTime (late : ℤ) : Scheduler → List Action → Prop
  | s, [] => Prompt late s
  | s, action :: actions => Prompt late s ∧ OnTime late (step s action) actions

/-- Whether a run is on time can be computed. -/
instance decidableOnTime (late : ℤ) :
    ∀ (s : Scheduler) (actions : List Action), Decidable (OnTime late s actions)
  | s, [] => inferInstanceAs (Decidable (Prompt late s))
  | s, action :: actions =>
    have : Decidable (OnTime late (step s action) actions) := decidableOnTime late _ actions
    inferInstanceAs (Decidable (_ ∧ _))

/-- Whether a cycle runs. -/
def runningAfter (log : List Entry) : Bool :=
  log.foldl (fun b e => match e.what with
    | .started _ => true
    | .ended _ _ => false
    | _ => b) false

/-- Whether cycles may run. -/
def enabledAfter (log : List Entry) : Bool :=
  log.foldl (fun b e => match e.what with
    | .built cloud => cloud
    | .ended (.failed (some .unauthorized)) _ => false
    | _ => b) false

/-- The pause the last cycle left. -/
def pauseAfter (log : List Entry) : Option ℤ :=
  log.foldl (fun pause e => match e.what with
    | .ended _ retryAfter => retryAfter
    | _ => pause) none

/-- When the last cycle ended. -/
def lastEnd (log : List Entry) : Option ℤ :=
  log.foldl (fun last e => match e.what with
    | .ended _ _ => some e.time
    | _ => last) none

/-- When a cycle for the last written record was due, if none has started since:
a debounce after the write, or when the scheduler was built again before that,
which stops the debounce and asks for a cycle at once. -/
def pushDue (log : List Entry) : Option ℤ :=
  log.foldl (fun due e => match e.what with
    | .wrote => some (e.time + pushDebounce)
    | .started _ => none
    | .built _ => due.map (min · e.time)
    | _ => due) none

/-- What each line keeps to: a cycle starts only while none runs, for a store
in the cloud and a session the server honours, and of its own accord only after
the pause; what ends was running. -/
def Cycles (before : List Entry) (e : Entry) : Prop :=
  match e.what with
  | .started forced => runningAfter before = false ∧ enabledAfter before = true ∧
      (forced = false → ∀ until' ∈ pauseAfter before, until' ≤ e.time)
  | .ended _ _ => runningAfter before = true
  | _ => True

/-- When the last cycle and the pause after it were over. -/
def restsSince (s : Scheduler) (last : ℤ) : ℤ := max last (s.retryAfter.getD last)

section

variable {log : List Entry}

@[simp] theorem runningAfter_append (e : Entry) : runningAfter (log ++ [e]) =
    match e.what with
    | .started _ => true
    | .ended _ _ => false
    | _ => runningAfter log := by
  rw [runningAfter, List.foldl_append]
  rfl

@[simp] theorem enabledAfter_append (e : Entry) : enabledAfter (log ++ [e]) =
    match e.what with
    | .built cloud => cloud
    | .ended (.failed (some .unauthorized)) _ => false
    | _ => enabledAfter log := by
  rw [enabledAfter, List.foldl_append]
  rfl

@[simp] theorem pauseAfter_append (e : Entry) : pauseAfter (log ++ [e]) =
    match e.what with
    | .ended _ retryAfter => retryAfter
    | _ => pauseAfter log := by
  rw [pauseAfter, List.foldl_append]
  rfl

@[simp] theorem lastEnd_append (e : Entry) : lastEnd (log ++ [e]) =
    match e.what with
    | .ended _ _ => some e.time
    | _ => lastEnd log := by
  rw [lastEnd, List.foldl_append]
  rfl

@[simp] theorem pushDue_append (e : Entry) : pushDue (log ++ [e]) =
    match e.what with
    | .wrote => some (e.time + pushDebounce)
    | .started _ => none
    | .built _ => (pushDue log).map (min · e.time)
    | _ => pushDue log := by
  rw [pushDue, List.foldl_append]
  rfl

end

variable {s : Scheduler}

/-- The flags and timers are those of the log. -/
structure Core (s : Scheduler) : Prop where
  /-- Every cycle started and ended as it should. -/
  rule : KeepsTo Cycles s.log
  /-- A cycle runs from its start to its end. -/
  running : s.running = runningAfter s.log
  /-- Whether cycles may run. -/
  enabled : s.enabled = enabledAfter s.log
  /-- The pause is that of the last cycle. -/
  pause : s.retryAfter = pauseAfter s.log
  /-- The timer runs while cycles may. -/
  watching : s.periodicAt.isSome = s.enabled
  /-- It fires within a period. -/
  next : ∀ due, s.periodicAt = some due → due ≤ s.now + syncInterval

/-- A scheduler at rest has been so for less than a period when its timer
fires. -/
def Rested (s : Scheduler) : Prop :=
  ∃ last, lastEnd s.log = some last ∧
    ∀ due, s.periodicAt = some due → due ≤ restsSince s last + syncInterval

/-- A write not sent yet is waited for, or its cycle was dropped: for the cycle
that still runs, or for one or a pause that is over. -/
def Sending (s : Scheduler) : Prop :=
  ∀ due, pushDue s.log = some due →
    s.pushAt = some due ∨
      s.running = true ∧ due ≤ s.now ∨
      s.running = false ∧ ∃ last, lastEnd s.log = some last ∧ due ≤ restsSince s last

/-- What holds in every state. -/
structure Inv (s : Scheduler) : Prop where
  /-- The flags and timers are those of the log. -/
  core : Core s
  /-- It has not rested for longer than a period. -/
  rested : s.enabled = true → s.running = false → Rested s
  /-- No write is forgotten. -/
  sending : s.enabled = true → Sending s

theorem le_restsSince (last : ℤ) : last ≤ restsSince s last := le_max_left _ _

/-- A pause that is on counts as rest. -/
theorem lt_restsSince (h : s.paused = true) (last : ℤ) : s.now < restsSince s last := by
  rw [Scheduler.paused] at h
  cases hr : s.retryAfter with
  | none =>
    rw [hr] at h
    cases h
  | some retryAfter =>
    rw [hr, Option.any_some, decide_eq_true_eq] at h
    rw [restsSince, hr]
    exact h.trans_le (le_max_right _ _)

theorem Core.start (h : Core s) {force : Bool} (hidle : s.running = false)
    (henabled : s.enabled = true) (hpause : (!force && s.paused) = false) :
    Core { s with running := true, log := s.log ++ [⟨s.now, .started force⟩] } := by
  have hrule : Cycles s.log ⟨s.now, .started force⟩ := by
    refine ⟨h.running.symm.trans hidle, h.enabled.symm.trans henabled, ?_⟩
    rintro rfl retryAfter hretry
    rw [Option.mem_def, ← h.pause] at hretry
    rw [Bool.not_false, Bool.true_and, Scheduler.paused, hretry, Option.any_some,
      decide_eq_false_iff_not, not_lt] at hpause
    exact hpause
  refine ⟨h.rule.append hrule, by simp, ?_, by simpa using h.pause, h.watching, h.next⟩
  rw [enabledAfter_append]
  exact h.enabled

/-- A call, where a dropped one leaves the scheduler as it should be. -/
theorem Core.syncNow (h : Core s) {force : Bool}
    (hrunning : s.enabled = true → s.running = true → Sending s)
    (hpaused : s.enabled = true → s.running = false → force = false → s.paused = true →
      Rested s ∧ Sending s) : Inv (syncNow force s) := by
  rw [SyncScheduling.syncNow]
  split
  next hoff =>
    rw [Bool.or_eq_true, Bool.not_eq_true'] at hoff
    refine ⟨h, fun henabled hidle => ?_, fun henabled => ?_⟩
    · rw [henabled, hidle] at hoff
      simp at hoff
    · rw [henabled] at hoff
      exact hrunning henabled (by simpa using hoff)
  next hon =>
    rw [Bool.or_eq_true, Bool.not_eq_true', not_or, Bool.not_eq_true, Bool.not_eq_false] at hon
    split
    next hpause =>
      rw [Bool.and_eq_true, Bool.not_eq_true'] at hpause
      obtain ⟨hrested, hsending⟩ := hpaused hon.2 hon.1 hpause.1 hpause.2
      exact ⟨h, fun _ _ => hrested, fun _ => hsending⟩
    next hpause =>
      refine ⟨h.start hon.1 hon.2 (by simpa using hpause), nofun, fun _ due hdue => ?_⟩
      rw [pushDue_append] at hdue
      cases hdue

theorem Inv.syncNow (h : Inv s) (force : Bool) : Inv (syncNow force s) :=
  h.core.syncNow (fun henabled _ => h.sending henabled)
    fun henabled hidle _ _ => ⟨h.rested henabled hidle, h.sending henabled⟩

theorem Inv.build (h : Inv s) (cloud : Bool) : Inv (build cloud s) := by
  have hrule : Cycles s.log ⟨s.now, .built cloud⟩ := trivial
  have hrunning : s.running = runningAfter (s.log ++ [⟨s.now, .built cloud⟩]) := by
    simpa using h.core.running
  have hpause : s.retryAfter = pauseAfter (s.log ++ [⟨s.now, .built cloud⟩]) := by
    simpa using h.core.pause
  rw [SyncScheduling.build]
  cases cloud with
  | true =>
    refine Core.syncNow ⟨h.core.rule.append hrule, hrunning, ?_, hpause, rfl, ?_⟩ ?_ nofun
    · rw [startWatching, stopWatching, enabledAfter_append]
      rfl
    · intro due hdue
      cases hdue
      exact le_rfl
    · intro _ hrunning due hdue
      rw [startWatching, pushDue_append] at hdue
      obtain ⟨before, -, rfl⟩ := Option.map_eq_some_iff.mp hdue
      exact .inr (.inl ⟨hrunning, min_le_right _ _⟩)
  | false =>
    dsimp only [stopWatching]
    rw [if_neg (by decide)]
    refine ⟨⟨h.core.rule.append hrule, hrunning, ?_, hpause, rfl, nofun⟩, nofun, nofun⟩
    rw [enabledAfter_append]
    rfl

theorem Inv.schedulePush (h : Inv s) : Inv (schedulePush s) := by
  rw [SyncScheduling.schedulePush]
  split
  next =>
    refine ⟨⟨h.core.rule.append trivial, by simpa using h.core.running, ?_,
      by simpa using h.core.pause, h.core.watching, h.core.next⟩,
      fun henabled hidle => ?_, fun _ due hdue => ?_⟩
    · rw [enabledAfter_append]
      exact h.core.enabled
    · obtain ⟨last, hlast, hnext⟩ := h.rested henabled hidle
      exact ⟨last, by simpa using hlast, hnext⟩
    · rw [pushDue_append] at hdue
      cases hdue
      exact .inl rfl
  next => exact h

theorem Inv.finish (h : Inv s) (outcome : Outcome) : Inv (finish outcome s) := by
  rw [SyncScheduling.finish]
  split
  next hrunning =>
    have hrule : Cycles s.log ⟨s.now, .ended outcome (settle outcome s).1⟩ :=
      h.core.running.symm.trans hrunning
    dsimp only
    split
    next hrefused =>
      subst hrefused
      refine ⟨⟨h.core.rule.append hrule, by simp [stopWatching], ?_, by simp [stopWatching], rfl,
        nofun⟩, nofun, nofun⟩
      rw [stopWatching, enabledAfter_append]
      rfl
    next hother =>
      refine ⟨⟨h.core.rule.append hrule, by simp, ?_, by simp, h.core.watching, h.core.next⟩,
        fun _ _ => ⟨s.now, by simp, fun due hdue => ?_⟩, fun henabled due hdue => ?_⟩
      · rw [enabledAfter_append]
        split
        next heq => cases heq
        next heq =>
          cases heq
          exact absurd rfl hother
        next => exact h.core.enabled
      · have hnext := h.core.next due hdue
        have hrest := @le_restsSince
          { s with
            running := false
            retryAfter := (settle outcome s).1
            consecutiveFailures := (settle outcome s).2
            log := s.log ++ [⟨s.now, .ended outcome (settle outcome s).1⟩] } s.now
        linarith
      · rw [pushDue_append] at hdue
        obtain hwaiting | ⟨_, hle⟩ | ⟨hidle, _⟩ := h.sending henabled due hdue
        · exact .inl hwaiting
        · exact .inr (.inr ⟨rfl, s.now, by simp, hle.trans (le_restsSince _)⟩)
        · exact absurd (hrunning.symm.trans hidle) nofun
  next => exact h

theorem Inv.periodicTimer (h : Inv s) : Inv (periodicTimer s) := by
  rw [SyncScheduling.periodicTimer]
  split
  next => exact h
  next due hdue =>
    split
    next hle =>
      have hcore : Core { s with periodicAt := some (due + syncInterval) } := by
        refine ⟨h.core.rule, h.core.running, h.core.enabled, h.core.pause, ?_, ?_⟩
        · have hwatching := h.core.watching
          rwa [hdue] at hwatching
        · intro due' hdue'
          cases hdue'
          exact add_le_add_left hle _
      refine hcore.syncNow (fun henabled _ => h.sending henabled) fun henabled hidle _ hpause => ?_
      obtain ⟨last, hlast, _⟩ := h.rested henabled hidle
      refine ⟨⟨last, hlast, fun due' hdue' => ?_⟩, h.sending henabled⟩
      cases hdue'
      have hrest := lt_restsSince hpause last
      exact add_le_add_left (hle.trans hrest.le) _
    next => exact h

theorem Inv.pushTimer (h : Inv s) : Inv (pushTimer s) := by
  rw [SyncScheduling.pushTimer]
  split
  next => exact h
  next due hdue =>
    split
    next hle =>
      have hcore : Core { s with pushAt := none } :=
        ⟨h.core.rule, h.core.running, h.core.enabled, h.core.pause, h.core.watching, h.core.next⟩
      refine hcore.syncNow (fun henabled hrunning due' hdue' => .inr ?_)
        fun henabled hidle _ hpause => ?_
      · obtain hthis | hdropped := h.sending henabled due' hdue'
        · rw [hdue] at hthis
          cases hthis
          exact .inl ⟨hrunning, hle⟩
        · exact hdropped
      · obtain ⟨last, hlast, hnext⟩ := h.rested henabled hidle
        refine ⟨⟨last, hlast, hnext⟩, fun due' hdue' => .inr ?_⟩
        obtain hthis | hdropped := h.sending henabled due' hdue'
        · rw [hdue] at hthis
          cases hthis
          have hrest := lt_restsSince hpause last
          exact .inr ⟨hidle, last, hlast, hle.trans hrest.le⟩
        · exact hdropped
    next => exact h

/-- Whatever happens, what holds in every state still holds. -/
theorem Inv.step (h : Inv s) (action : Action) : Inv (step s action) := by
  cases action with
  | wait d =>
    refine ⟨⟨h.core.rule, h.core.running, h.core.enabled, h.core.pause, h.core.watching, ?_⟩,
      h.rested, fun henabled due hdue => ?_⟩
    · intro due hdue
      have hnext := h.core.next due hdue
      dsimp only [SyncScheduling.step]
      linarith [Int.natCast_nonneg d]
    · obtain hwaiting | ⟨hrunning, hle⟩ | hdropped := h.sending henabled due hdue
      · exact .inl hwaiting
      · exact .inr (.inl ⟨hrunning, hle.trans (le_add_of_nonneg_right (Int.natCast_nonneg d))⟩)
      · exact .inr (.inr hdropped)
  | build cloud => exact h.build cloud
  | periodicTimer => exact h.periodicTimer
  | pushTimer => exact h.pushTimer
  | online =>
    rw [SyncScheduling.step]
    split
    · exact h.syncNow true
    · exact h
  | call force => exact h.syncNow force
  | write => exact h.schedulePush
  | finish outcome => exact h.finish outcome

theorem inv_fresh : Inv fresh :=
  ⟨⟨keepsTo_nil, rfl, rfl, rfl, rfl, nofun⟩, nofun, nofun⟩

theorem Inv.run (h : Inv s) (actions : List Action) : Inv (run s actions) := by
  induction actions generalizing s with
  | nil => exact h
  | cons action actions ih => exact ih (h.step action)

/-- A run on time ends with its timers on time. -/
theorem OnTime.prompt {late : ℤ} {actions : List Action} (h : OnTime late s actions) :
    Prompt late (SyncScheduling.run s actions) := by
  induction actions generalizing s with
  | nil => exact h
  | cons action actions ih => exact ih h.2

/-- A sale is written while a cycle runs, and the cycle fails. -/
def saleDuringCycle : List Action :=
  [.build true, .write, .wait 1500000, .pushTimer, .wait 500000, .finish (.failed (some .offline)),
    .wait 118000000, .periodicTimer]

end Kitaza.SyncScheduling
