import CSEL1.Daemon.Control
import CSEL1.Transition.Component

/-! # The loop of the events thread

The thread waits for its descriptors and then runs the handlers of all events it got,
one after the other. The timer is ready once its time has come, a button once its
pin has changed since it was last read. Meanwhile time passes, the buttons move, and
the main thread and the driver go on.
-/

namespace CSEL1

open Function Transition

namespace System

structure LampKept (s t : System) : Prop where
  pwrLed : t.daemon.pwrLed = s.daemon.pwrLed
  timerArmed : t.daemon.timerArmed = s.daemon.timerArmed
  pressed : ∀ key, t.log.count (.pressed key) = s.log.count (.pressed key)

section Lamp

variable {s t u : System} (io : Io)

theorem LampKept.refl (s : System) : LampKept s s := ⟨rfl, rfl, fun _ => rfl⟩

theorem LampKept.trans (h : LampKept s t) (h' : LampKept t u) : LampKept s u :=
  ⟨h'.pwrLed.trans h.pwrLed, h'.timerArmed.trans h.timerArmed,
    fun key => (h'.pressed key).trans (h.pressed key)⟩

theorem lampKept_note (s : System) {a : Action} (ha : ∀ key, a ≠ .pressed key) :
    LampKept s (s.note a) :=
  ⟨rfl, rfl, fun key => List.count_cons_of_ne (ha key)⟩

theorem lampKept_setFreq (s : System) (v : Int32) : LampKept s (s.setFreq io v) := by
  by_cases h : s.FreqReaches io
  · rw [setFreq_reaches io s v h]
    exact ⟨rfl, rfl, fun key => List.count_cons_of_ne (by simp)⟩
  · rw [setFreq_lost io s v h]
    exact ⟨rfl, rfl, fun _ => rfl⟩

theorem lampKept_setMode (s : System) (v : Int32) : LampKept s (s.setMode io v) := by
  by_cases h : io.ModeReaches
  · rw [setMode_reaches io s v h]
    exact ⟨rfl, rfl, fun key => List.count_cons_of_ne (by simp)⟩
  · rw [setMode_lost io s v h]
    exact ⟨rfl, rfl, fun _ => rfl⟩

theorem lampKept_incrementFreq (s : System) : LampKept s (s.incrementFreq io) := by
  rw [incrementFreq_eq]
  split
  · exact lampKept_setFreq io s _
  · exact lampKept_note s nofun

theorem lampKept_decrementFreq (s : System) : LampKept s (s.decrementFreq io) := by
  rw [decrementFreq_eq]
  split
  · split
    · exact lampKept_setFreq io s _
    · exact LampKept.refl s
  · exact lampKept_note s nofun

theorem lampKept_toggleMode (s : System) : LampKept s (s.toggleMode io) := by
  unfold toggleMode
  have h := lampKept_setMode io
    (s.assignMode (if s.daemon.curMode = 0 then 1 else 0)) (if s.daemon.curMode = 0 then 1 else 0)
  exact ⟨h.pwrLed, h.timerArmed, h.pressed⟩

theorem lampKept_dispatch (s : System) : LampKept s (s.dispatch io).1 := by
  rw [dispatch_eq]
  split
  · exact ⟨rfl, rfl, fun _ => rfl⟩
  · split
    · exact lampKept_setFreq io s _
    · exact LampKept.refl s
  · exact LampKept.refl s
  · have h := lampKept_setMode io (s.assignMode s.daemon.locals.value) s.daemon.locals.value
    exact ⟨h.pwrLed, h.timerArmed, h.pressed⟩
  · exact LampKept.refl s
  · exact LampKept.refl s
  · exact LampKept.refl s

theorem lampKept_message (s : System) (m : Msg) : LampKept s (s.step io (.message m)) := by
  have hreply : ∀ (s : System) r, LampKept s (s.reply r) := by
    rintro s (_ | text)
    · exact LampKept.refl s
    · exact lampKept_note s (by simp)
  have hhandle : LampKept s (s.handle io m).1 := by
    unfold handle
    split
    · exact LampKept.refl s
    · have hreceive : LampKept s (s.receive m) := ⟨rfl, rfl, fun _ => rfl⟩
      exact hreceive.trans (lampKept_dispatch io (s.receive m))
  simp only [step]
  split
  · exact LampKept.refl s
  · exact hhandle.trans (hreply _ _)

theorem buttonHandler_pressed (key : Key) {gpio : UInt8} {action : System → System}
    (haction : ∀ s, LampKept s (action s)) (s : System)
    (h : (if io.pread then gpio else 255) &&& 1 = 1) :
    LampKept (s.press key) (s.buttonHandler key io gpio action) := by
  rw [buttonHandler]
  exact (if_pos h).symm ▸ haction _

theorem buttonHandler_released (key : Key) {gpio : UInt8} (action : System → System) (s : System)
    (h : ¬ (if io.pread then gpio else 255) &&& 1 = 1) :
    s.buttonHandler key io gpio action = s := if_neg h

end Lamp

end System

inductive Source
  | freq
  | cpuTemp
  | timer
  | button (key : Key)
  deriving DecidableEq, Repr

/-- Where the thread is in its loop; the batch is what is left of the events it got. -/
inductive LoopTurn
  | waiting
  | handling (batch : List Source)
  | ended
  deriving DecidableEq, Repr

/-- `deadline` is when the timer expires or has expired, in nanoseconds. -/
structure EventsThread where
  sys : System
  now : ℕ
  deadline : Option ℕ
  level : Key → Bool
  notified : Key → Bool
  turn : LoopTurn

namespace EventsThread

/-- The time `set_timer` asks for: `tv_sec = 1`. -/
def second : ℕ := 10 ^ 9

def Expired (s : EventsThread) : Prop := ∃ t ∈ s.deadline, t ≤ s.now

instance (s : EventsThread) : Decidable s.Expired :=
  inferInstanceAs (Decidable (∃ t ∈ s.deadline, t ≤ s.now))

/-- What `epoll_wait` may return: all that is ready, in any order. -/
structure Ready (s : EventsThread) (batch : List Source) : Prop where
  nodup : batch.Nodup
  timer : .timer ∈ batch ↔ s.Expired
  button : ∀ key, .button key ∈ batch ↔ s.notified key = true
  freq : .freq ∈ batch → s.sys.daemon.freqFd = .attribute

instance (s : EventsThread) (batch : List Source) : Decidable (s.Ready batch) :=
  decidable_of_iff (batch.Nodup ∧ (.timer ∈ batch ↔ s.Expired) ∧
      ((.button .k1 ∈ batch ↔ s.notified .k1 = true) ∧
        (.button .k2 ∈ batch ↔ s.notified .k2 = true) ∧
        (.button .k3 ∈ batch ↔ s.notified .k3 = true)) ∧
      (.freq ∈ batch → s.sys.daemon.freqFd = .attribute))
    ⟨fun ⟨hnodup, htimer, ⟨h1, h2, h3⟩, hfreq⟩ => ⟨hnodup, htimer, fun
        | .k1 => h1
        | .k2 => h2
        | .k3 => h3, hfreq⟩,
      fun h => ⟨h.nodup, h.timer, ⟨h.button .k1, h.button .k2, h.button .k3⟩, h.freq⟩⟩

def gpio (s : EventsThread) (key : Key) : UInt8 := if s.level key then 49 else 48

def handler (s : EventsThread) (read : ThermalRead) : Source → Handler
  | .freq => .freq
  | .cpuTemp => .cpuTemp read
  | .timer => .timer
  | .button .k1 => .k1 (s.gpio .k1)
  | .button .k2 => .k2 (s.gpio .k2)
  | .button .k3 => .k3 (s.gpio .k3)

def Pressed (s : EventsThread) (io : Io) (key : Key) : Prop :=
  (if io.pread then s.gpio key else 255) &&& 1 = 1

instance (s : EventsThread) (io : Io) (key : Key) : Decidable (s.Pressed io key) :=
  inferInstanceAs (Decidable (_ = _))

/-- The handler of the first event. A read takes the notification of the pin. -/
def handle (s : EventsThread) (io : Io) (read : ThermalRead) (src : Source) (rest : List Source) :
    EventsThread :=
  { s with
    sys := (s.handler read src).run io s.sys
    deadline := match src with
      | .timer => none
      | .button key => if s.Pressed io key then some (s.now + second) else s.deadline
      | _ => s.deadline
    notified := match src with
      | .button key => if io.pread then update s.notified key false else s.notified
      | _ => s.notified
    turn := .handling rest }

/-- What happens next: in the world, in the main thread, in the driver or in the loop. -/
inductive Move
  | elapse (ns : ℕ)
  | edge (key : Key)
  | message (io : Io) (m : Msg)
  | callback (read : ThermalRead)
  | exit
  | test
  | collect (batch : List Source)
  | interrupt
  | handle (io : Io) (read : ThermalRead)

/--
The process ends with its main thread, wherever the events thread is. A wait that a signal
interrupts gives no events.
-/
def step? (s : EventsThread) : Move → Option EventsThread
  | .elapse ns => some { s with now := s.now + ns }
  | .edge key =>
    some { s with
      level := update s.level key (!s.level key)
      notified := update s.notified key true }
  | .message io m => some { s with sys := s.sys.step io (.message m) }
  | .callback read => some { s with sys := s.sys.step .ok (.callback read) }
  | .exit => if s.sys.daemon.stopRequest then some { s with turn := .ended } else none
  | .test =>
    if s.turn = .handling [] then
      some { s with turn := if s.sys.daemon.stopRequest then .ended else .waiting }
    else none
  | .collect batch =>
    if s.turn = .waiting ∧ s.Ready batch then some { s with turn := .handling batch } else none
  | .interrupt => if s.turn = .waiting then some { s with turn := .handling [] } else none
  | .handle io read =>
    match s.turn with
    | .handling (src :: rest) => some (s.handle io read src rest)
    | _ => none

def step : EventsThread → Move → EventsThread := stutter step?

/-- The thread enters its loop. A descriptor that was never read counts as notified. -/
def start (sys : System) (now : ℕ) (level : Key → Bool) : EventsThread :=
  ⟨sys, now, none, level, fun _ => true, .handling []⟩

section Handlers

variable {s : EventsThread} {io : Io} {key : Key}

theorem handle_pressed (read : ThermalRead) (rest : List Source) (h : s.Pressed io key) :
    (s.sys.press key).LampKept (s.handle io read (.button key) rest).sys := by
  cases key with
  | k1 => exact System.buttonHandler_pressed io .k1 (System.lampKept_incrementFreq io) s.sys h
  | k2 => exact System.buttonHandler_pressed io .k2 (System.lampKept_decrementFreq io) s.sys h
  | k3 => exact System.buttonHandler_pressed io .k3 (System.lampKept_toggleMode io) s.sys h

theorem handle_released (read : ThermalRead) (rest : List Source) (h : ¬ s.Pressed io key) :
    (s.handle io read (.button key) rest).sys = s.sys := by
  cases key with
  | k1 => exact System.buttonHandler_released io .k1 _ s.sys h
  | k2 => exact System.buttonHandler_released io .k2 _ s.sys h
  | k3 => exact System.buttonHandler_released io .k3 _ s.sys h

/-- A handler is that of the timer, or of a press, or it leaves the lamp alone. -/
theorem handle_cases (s : EventsThread) (io : Io) (read : ThermalRead) (src : Source)
    (rest : List Source) :
    (src = .timer ∧ (s.handle io read src rest).sys = s.sys.timerHandler ∧
      (s.handle io read src rest).deadline = none) ∨
    (∃ key, src = .button key ∧ s.Pressed io key ∧
      (s.sys.press key).LampKept (s.handle io read src rest).sys ∧
      (s.handle io read src rest).deadline = some (s.now + second)) ∨
    (src ≠ .timer ∧ (∀ key, src = .button key → ¬ s.Pressed io key) ∧
      s.sys.LampKept (s.handle io read src rest).sys ∧
      (s.handle io read src rest).deadline = s.deadline) := by
  cases src with
  | freq =>
    have hdaemon := System.freqHandler_daemon io s.sys
    have hled := congrArg Daemon.pwrLed hdaemon
    have harmed := congrArg Daemon.timerArmed hdaemon
    have hlog := System.freqHandler_log io s.sys
    exact Or.inr (Or.inr ⟨nofun, nofun, ⟨hled, harmed, fun key => congrArg _ hlog⟩, rfl⟩)
  | cpuTemp =>
    obtain ⟨temp, hdaemon, -⟩ := System.cpuTempHandler_stores io read s.sys
    have hled := congrArg Daemon.pwrLed hdaemon
    have harmed := congrArg Daemon.timerArmed hdaemon
    have hlog := System.cpuTempHandler_log io read s.sys
    exact Or.inr (Or.inr ⟨nofun, nofun, ⟨hled, harmed, fun key => congrArg _ hlog⟩, rfl⟩)
  | timer => exact Or.inl ⟨rfl, rfl, rfl⟩
  | button key =>
    right
    by_cases h : s.Pressed io key
    · exact Or.inl ⟨key, rfl, h, handle_pressed read rest h, if_pos h⟩
    · refine Or.inr ⟨nofun, ?_, ?_, if_neg h⟩
      · rintro key' ⟨⟩
        exact h
      · rw [handle_released read rest h]
        exact .refl _

end Handlers

section Steps

variable {s t : EventsThread} {m : Move}

/-- The move does not run a handler: the lamp is left alone, and the loop goes on if at all. -/
structure Between (s : EventsThread) (m : Move) (t : EventsThread) : Prop where
  lamp : s.sys.LampKept t.sys
  deadline : t.deadline = s.deadline
  now : s.now ≤ t.now
  turn : t.turn = s.turn ∨ t.turn = .ended ∨
    (s.turn = .handling [] ∧ t.turn = .waiting) ∨
    ∃ batch, s.turn = .waiting ∧ (s.Ready batch ∨ m = .interrupt ∧ batch = []) ∧
      t.turn = .handling batch

theorem step?_handle {io : Io} {read : ThermalRead} (h : s.step? (.handle io read) = some t) :
    ∃ src rest, s.turn = .handling (src :: rest) ∧ t = s.handle io read src rest := by
  simp only [step?] at h
  split at h
  · next src rest hturn => exact ⟨src, rest, hturn, (Option.some.inj h).symm⟩
  · cases h

theorem step?_cases (h : s.step? m = some t) :
    (∃ io read src rest, m = .handle io read ∧ s.turn = .handling (src :: rest) ∧
      t = s.handle io read src rest) ∨ s.Between m t := by
  cases m with
  | elapse ns =>
    cases h
    exact Or.inr ⟨.refl _, rfl, Nat.le_add_right _ _, Or.inl rfl⟩
  | edge key =>
    cases h
    exact Or.inr ⟨.refl _, rfl, le_rfl, Or.inl rfl⟩
  | message io m =>
    cases h
    exact Or.inr ⟨System.lampKept_message io s.sys m, rfl, le_rfl, Or.inl rfl⟩
  | callback read =>
    cases h
    exact Or.inr ⟨⟨rfl, rfl, fun _ => rfl⟩, rfl, le_rfl, Or.inl rfl⟩
  | exit =>
    simp only [step?] at h
    split at h
    · cases h
      exact Or.inr ⟨.refl _, rfl, le_rfl, Or.inr (Or.inl rfl)⟩
    · cases h
  | test =>
    simp only [step?] at h
    split at h
    · next hturn =>
      cases h
      right
      refine ⟨.refl _, rfl, le_rfl, ?_⟩
      cases hstop : s.sys.daemon.stopRequest with
      | true => exact Or.inr (Or.inl rfl)
      | false => exact Or.inr (Or.inr (Or.inl ⟨hturn, rfl⟩))
    · cases h
  | collect batch =>
    simp only [step?] at h
    split at h
    · next hready =>
      cases h
      right
      refine ⟨.refl _, rfl, le_rfl, Or.inr (Or.inr (Or.inr ?_))⟩
      exact ⟨batch, hready.1, Or.inl hready.2, rfl⟩
    · cases h
  | interrupt =>
    simp only [step?] at h
    split at h
    · next hwaiting =>
      cases h
      right
      refine ⟨.refl _, rfl, le_rfl, Or.inr (Or.inr (Or.inr ?_))⟩
      exact ⟨[], hwaiting, Or.inr ⟨rfl, rfl⟩, rfl⟩
    · cases h
  | handle io read =>
    obtain ⟨src, rest, hturn, rfl⟩ := step?_handle h
    exact Or.inl ⟨io, read, src, rest, rfl, hturn, rfl⟩

end Steps

end EventsThread

end CSEL1
