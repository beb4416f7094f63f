import CSEL1.Transition.Basic

/-! # Two kernel threads and a wait queue

A kernel module starts two threads. `thread_fn_wait` sleeps on a wait queue until a
flag is set and clears it; `thread_fn_notif` sets the flag and wakes the queue every
five seconds. Loading and unloading the module are the steps of a third party. A step
is what no other party can see the middle of, so the calls of the kernel that test a
condition and then sleep are several steps.
-/

namespace CSEL1.Kthread

open Transition

/--
Where `thread_fn_wait` is. In `wait_event_interruptible` the condition is tested before the thread
is queued (`check`) and after (`recheck`).
-/
inductive WaitPc | unstarted | test | print | check | prepare | recheck | schedule | clear | ended
  deriving DecidableEq, Repr

inductive NotifPc | unstarted | test | set | wake | sleep | print | ended
  deriving DecidableEq, Repr

/--
Where `skeleton_init` or `skeleton_exit` is. `kthread_stop` sets the thread's stop bit (`stop`),
wakes the thread (`rouse`) and waits for its end (`join`).
-/
inductive ModulePc
  | create1 | wake1 | create2 | wake2 | stop1 | rouse1 | join1 | stop2 | rouse2 | join2 | unloaded
  deriving DecidableEq, Repr

inductive Party | waiter | notif | module
  deriving DecidableEq, Repr

/--
`asleep` says that the waiting thread is not to be run, `queued` that its entry is in
`my_wait_queue`. `notified` and `consumed` count the assignments to `flag`.
-/
structure State where
  flag : Bool
  queued : Bool
  asleep : Bool
  stop1 : Bool
  stop2 : Bool
  waiter : WaitPc
  notif : NotifPc
  module : ModulePc
  oops : Bool
  notified : ℕ
  consumed : ℕ
  deriving DecidableEq, Repr

/-- Which of the two calls of `kthread_create` succeed. -/
structure Creates where
  thread1 : Bool
  thread2 : Bool
  deriving DecidableEq, Repr

namespace State

def start : State where
  flag := false
  queued := false
  asleep := false
  stop1 := false
  stop2 := false
  waiter := .unstarted
  notif := .unstarted
  module := .create1
  oops := false
  notified := 0
  consumed := 0

def waiterStep (s : State) : State :=
  match s.waiter with
  | .unstarted => s
  | .test => { s with waiter := if s.stop1 then .ended else .print }
  | .print => { s with waiter := .check }
  | .check => { s with waiter := if s.flag then .clear else .prepare }
  | .prepare => { s with queued := true, asleep := true, waiter := .recheck }
  | .recheck =>
    if s.flag then { s with queued := false, asleep := false, waiter := .clear }
    else { s with waiter := .schedule }
  | .schedule => if s.asleep then s else { s with waiter := .prepare }
  | .clear => { s with flag := false, consumed := s.consumed + 1, waiter := .test }
  | .ended => s

/-- `thread_fn_notif`. A thread that is woken leaves the queue. -/
def notifStep (s : State) : State :=
  match s.notif with
  | .unstarted => s
  | .test => { s with notif := if s.stop2 then .ended else .set }
  | .set => { s with flag := true, notified := s.notified + 1, notif := .wake }
  | .wake => { s with asleep := s.asleep && !s.queued, queued := false, notif := .sleep }
  | .sleep => { s with notif := .print }
  | .print => { s with notif := .test }
  | .ended => s

-- a failed `kthread_create` returns an error pointer, which `if((thread1))` takes for a thread
def moduleStep (ok : Creates) (s : State) : State :=
  if s.oops then s
  else
    match s.module with
    | .create1 => { s with module := .wake1 }
    | .wake1 =>
      if ok.thread1 then { s with waiter := .test, module := .create2 } else { s with oops := true }
    | .create2 => { s with module := .wake2 }
    | .wake2 =>
      if ok.thread2 then { s with notif := .test, module := .stop1 } else { s with oops := true }
    | .stop1 => { s with stop1 := true, module := .rouse1 }
    | .rouse1 => { s with asleep := false, module := .join1 }
    | .join1 => if s.waiter = .ended then { s with module := .stop2 } else s
    | .stop2 => { s with stop2 := true, module := .rouse2 }
    | .rouse2 => { s with module := .join2 }
    | .join2 => if s.notif = .ended then { s with module := .unloaded } else s
    | .unloaded => s

def step (ok : Creates) (s : State) : Party → State
  | .waiter => s.waiterStep
  | .notif => s.notifStep
  | .module => s.moduleStep ok

end State

@[simp] def ModulePc.phase : ModulePc → ℕ
  | .create1 => 0
  | .wake1 => 1
  | .create2 => 2
  | .wake2 => 3
  | .stop1 => 4
  | .rouse1 => 5
  | .join1 => 6
  | .stop2 => 7
  | .rouse2 => 8
  | .join2 => 9
  | .unloaded => 10

namespace State

/-- Which thread has been started, asked to stop and ended, at each step of the module. -/
structure InOrder (ok : Creates) (s : State) : Prop where
  waiter_unstarted : s.waiter = .unstarted ↔ s.module.phase < 2
  notif_unstarted : s.notif = .unstarted ↔ s.module.phase < 4
  stop1_iff : s.stop1 = true ↔ 4 < s.module.phase
  stop2_iff : s.stop2 = true ↔ 7 < s.module.phase
  waiter_ended : s.waiter = .ended → s.stop1 = true
  notif_ended : s.notif = .ended → s.stop2 = true
  joined1 : 6 < s.module.phase → s.waiter = .ended
  joined2 : 9 < s.module.phase → s.notif = .ended
  oops_at : s.oops = true →
    (s.module.phase = 1 ∧ ok.thread1 = false) ∨ (s.module.phase = 3 ∧ ok.thread2 = false)
  created1 : 1 < s.module.phase → ok.thread1 = true
  created2 : 3 < s.module.phase → ok.thread2 = true

/-- What the two threads keep about the flag and the queue. -/
structure Handshake (s : State) : Prop where
  asleep_queued : s.asleep = true → s.queued = true
  asleep_at : s.asleep = true → s.waiter = .recheck ∨ s.waiter = .schedule
  woken : s.waiter = .schedule → s.asleep = true → s.flag = true → s.notif = .wake
  clear_flag : s.waiter = .clear → s.flag = true
  consumed_le : s.consumed + s.flag.toNat ≤ s.notified

section Frames

variable (s : State)

theorem waiterStep_frame :
    s.waiterStep.stop1 = s.stop1 ∧ s.waiterStep.stop2 = s.stop2 ∧ s.waiterStep.notif = s.notif ∧
      s.waiterStep.module = s.module ∧ s.waiterStep.oops = s.oops := by
  unfold waiterStep
  split <;> try split
  all_goals exact ⟨rfl, rfl, rfl, rfl, rfl⟩

theorem notifStep_frame :
    s.notifStep.stop1 = s.stop1 ∧ s.notifStep.stop2 = s.stop2 ∧ s.notifStep.waiter = s.waiter ∧
      s.notifStep.module = s.module ∧ s.notifStep.oops = s.oops := by
  unfold notifStep
  split <;> exact ⟨rfl, rfl, rfl, rfl, rfl⟩

@[simp] theorem waiterStep_stop1 : s.waiterStep.stop1 = s.stop1 := s.waiterStep_frame.1

@[simp] theorem waiterStep_stop2 : s.waiterStep.stop2 = s.stop2 := s.waiterStep_frame.2.1

@[simp] theorem waiterStep_notif : s.waiterStep.notif = s.notif := s.waiterStep_frame.2.2.1

@[simp] theorem waiterStep_module : s.waiterStep.module = s.module := s.waiterStep_frame.2.2.2.1

@[simp] theorem waiterStep_oops : s.waiterStep.oops = s.oops := s.waiterStep_frame.2.2.2.2

@[simp] theorem notifStep_stop1 : s.notifStep.stop1 = s.stop1 := s.notifStep_frame.1

@[simp] theorem notifStep_stop2 : s.notifStep.stop2 = s.stop2 := s.notifStep_frame.2.1

@[simp] theorem notifStep_waiter : s.notifStep.waiter = s.waiter := s.notifStep_frame.2.2.1

@[simp] theorem notifStep_module : s.notifStep.module = s.module := s.notifStep_frame.2.2.2.1

@[simp] theorem notifStep_oops : s.notifStep.oops = s.oops := s.notifStep_frame.2.2.2.2

theorem waiterStep_unstarted_iff : s.waiterStep.waiter = .unstarted ↔ s.waiter = .unstarted := by
  cases h : s.waiter <;> simp only [waiterStep, h] <;> try split
  all_goals simp [h]

theorem waiterStep_ended_iff :
    s.waiterStep.waiter = .ended ↔ s.waiter = .ended ∨ (s.waiter = .test ∧ s.stop1 = true) := by
  cases h : s.waiter <;> simp only [waiterStep, h] <;> try split
  all_goals simp_all

theorem notifStep_unstarted_iff : s.notifStep.notif = .unstarted ↔ s.notif = .unstarted := by
  cases h : s.notif <;> simp only [notifStep, h] <;> try split
  all_goals simp

theorem notifStep_ended_iff :
    s.notifStep.notif = .ended ↔ s.notif = .ended ∨ (s.notif = .test ∧ s.stop2 = true) := by
  cases h : s.notif <;> simp only [notifStep, h] <;> try split
  all_goals simp_all

end Frames

section Invariants

variable {ok : Creates} {s : State}

theorem InOrder.waiterStep (h : s.InOrder ok) : s.waiterStep.InOrder ok where
  waiter_unstarted := by
    rw [waiterStep_unstarted_iff, waiterStep_module]
    exact h.waiter_unstarted
  notif_unstarted := by simpa using h.notif_unstarted
  stop1_iff := by simpa using h.stop1_iff
  stop2_iff := by simpa using h.stop2_iff
  waiter_ended := by
    rw [waiterStep_ended_iff, waiterStep_stop1]
    rintro (hw | ⟨-, hstop⟩)
    · exact h.waiter_ended hw
    · exact hstop
  notif_ended := by simpa using h.notif_ended
  joined1 := by
    rw [waiterStep_ended_iff, waiterStep_module]
    exact fun hp => Or.inl (h.joined1 hp)
  joined2 := by simpa using h.joined2
  oops_at := by simpa using h.oops_at
  created1 := by simpa using h.created1
  created2 := by simpa using h.created2

theorem InOrder.notifStep (h : s.InOrder ok) : s.notifStep.InOrder ok where
  waiter_unstarted := by simpa using h.waiter_unstarted
  notif_unstarted := by
    rw [notifStep_unstarted_iff, notifStep_module]
    exact h.notif_unstarted
  stop1_iff := by simpa using h.stop1_iff
  stop2_iff := by simpa using h.stop2_iff
  waiter_ended := by simpa using h.waiter_ended
  notif_ended := by
    rw [notifStep_ended_iff, notifStep_stop2]
    rintro (hn | ⟨-, hstop⟩)
    · exact h.notif_ended hn
    · exact hstop
  joined1 := by simpa using h.joined1
  joined2 := by
    rw [notifStep_ended_iff, notifStep_module]
    exact fun hp => Or.inl (h.joined2 hp)
  oops_at := by simpa using h.oops_at
  created1 := by simpa using h.created1
  created2 := by simpa using h.created2

theorem InOrder.moduleStep (h : s.InOrder ok) : (s.moduleStep ok).InOrder ok := by
  have ⟨h₁, h₂, h₃, h₄, h₅, h₆, h₇, h₈, h₉, h₁₀, h₁₁⟩ := h
  unfold State.moduleStep
  split
  · exact h
  · cases hm : s.module <;> simp only [hm, ModulePc.phase] at h₁ h₂ h₃ h₄ h₇ h₈ h₉ h₁₀ h₁₁ ⊢ <;>
      try split
    all_goals first | exact h | (constructor <;> simp_all)

theorem InOrder.step (h : s.InOrder ok) (p : Party) : (s.step ok p).InOrder ok := by
  cases p with
  | waiter => exact h.waiterStep
  | notif => exact h.notifStep
  | module => exact h.moduleStep

theorem Handshake.waiterStep (h : s.Handshake) : s.waiterStep.Handshake := by
  obtain ⟨h₁, h₂, h₃, h₄, h₅⟩ := h
  cases hw : s.waiter <;> simp only [hw, State.waiterStep] at h₂ h₃ h₄ ⊢ <;> try split
  all_goals constructor <;> simp_all

theorem Handshake.notifStep (h : s.Handshake) : s.notifStep.Handshake := by
  obtain ⟨h₁, h₂, h₃, h₄, h₅⟩ := h
  cases hn : s.notif <;> simp only [hn, State.notifStep] at h₃ ⊢
  all_goals constructor <;> simp_all
  -- a flag that is set again is one more notification
  omega

theorem Handshake.moduleStep (h : s.Handshake) (ho : s.InOrder ok) :
    (s.moduleStep ok).Handshake := by
  have hw := ho.waiter_unstarted
  have hn := ho.notif_unstarted
  have ⟨h₁, h₂, h₃, h₄, h₅⟩ := h
  unfold State.moduleStep
  split
  · exact h
  · cases hm : s.module <;> simp only [hm, ModulePc.phase] at hw hn ⊢ <;> try split
    all_goals first | exact h | (constructor <;> simp_all)

theorem Handshake.step (h : s.Handshake) (ho : s.InOrder ok) (p : Party) :
    (s.step ok p).Handshake := by
  cases p with
  | waiter => exact h.waiterStep
  | notif => exact h.notifStep
  | module => exact h.moduleStep ho

theorem run_kept (ok : Creates) (es : List Party) :
    (run (step ok) start es).InOrder ok ∧ (run (step ok) start es).Handshake := by
  have hstart : start.InOrder ok ∧ start.Handshake := by
    constructor <;> constructor <;> simp [start]
  have hstep : ∀ (s : State) p, s.InOrder ok ∧ s.Handshake →
      (s.step ok p).InOrder ok ∧ (s.step ok p).Handshake :=
    fun s p hs => ⟨hs.1.step p, hs.2.step hs.1 p⟩
  exact run_invariant hstep hstart es

end Invariants

/-- The waiting thread sleeps inside `wait_event_interruptible`. -/
def Blocked (s : State) : Prop := s.waiter = .schedule ∧ s.asleep = true

instance (s : State) : Decidable s.Blocked := inferInstanceAs (Decidable (_ ∧ _))

end State

open State

end CSEL1.Kthread
