import CSEL1.Driver.Basic
import CSEL1.Transition.Basic

/-! # Loading and unloading the driver

`skeleton_init` and `skeleton_exit` as sequences of calls, interleaved with the
steps of the callbacks that the timer has started. Deleting the timer neither
stops a callback that is running nor keeps it from setting the timer again.
-/

namespace CSEL1

open Transition

/-- What `skeleton_init` or `skeleton_exit` does next, or how it has returned. -/
inductive Phase
  | cpuZone
  | gpuZone
  | gpioIsValid
  | gpioRequest
  | gpioDirection
  | setTimer
  | createClass
  | createDevice
  | createGroup
  | undoDevice (error : Int32)
  | undoClass (error : Int32)
  | failed (error : Int32)
  | loaded
  | removeGroup
  | destroyDevice
  | destroyClass
  | delTimer
  | gpioFree
  | unloaded
  deriving DecidableEq, Repr

def Phase.returned : Phase → Bool
  | .failed _ | .unloaded => true
  | _ => false

inductive CallbackPc
  | toggle
  | rearm
  | read
  | update (temp : Int32)
  deriving DecidableEq, Repr

def CallbackPc.BeforeRearm (pc : CallbackPc) : Prop := pc = .toggle ∨ pc = .rearm

instance (pc : CallbackPc) : Decidable pc.BeforeRearm := inferInstanceAs (Decidable (_ ∨ _))

/-- The module: its driver, what it has registered, and the timer with its callbacks. -/
structure Module where
  driver : Driver
  phase : Phase
  led : Bool
  cls : Bool
  device : Bool
  attributes : Bool
  pending : Bool
  running : List CallbackPc
  deriving DecidableEq, Repr

/--
A step of the module's own code with the value returned by the function it calls, the start of the
callback, a step of the callback with the given index, or a store to an attribute.
-/
inductive ModuleStep
  | main (result : Int32)
  | fire
  | callback (i : ℕ) (read : ThermalRead)
  | modeStore (buf : List Char)
  | freqStore (buf : List Char)
  deriving DecidableEq

/--
The results of `thermal_zone_get_zone_by_name` taken for errors: `-EINVAL`, `-ENODEV`, `-EEXIST`.
-/
def zoneError (result : Int32) : Prop := result = -22 ∨ result = -19 ∨ result = -17

instance (result : Int32) : Decidable (zoneError result) :=
  inferInstanceAs (Decidable (_ ∨ _ ∨ _))

namespace Module

def initial : Module where
  driver := ⟨false, 2, false, false, 0, false⟩
  phase := .cpuZone
  led := false
  cls := false
  device := false
  attributes := false
  pending := false
  running := []

def mainStep (s : Module) (result : Int32) : Option Module :=
  match s.phase with
  | .cpuZone =>
    if zoneError result then some { s with phase := .failed (-1) }
    else some { s with phase := .gpuZone }
  | .gpuZone =>
    if zoneError result then some { s with phase := .failed (-1) }
    else some { s with phase := .gpioIsValid }
  | .gpioIsValid =>
    if result = 0 then some { s with phase := .failed (-1) }
    else some { s with phase := .gpioRequest }
  | .gpioRequest =>
    if result < 0 then some { s with phase := .failed (-1) }
    else some { s with phase := .gpioDirection, led := true }
  | .gpioDirection => some { s with phase := .setTimer }
  | .setTimer =>
    some { s with phase := .createClass, driver := s.driver.modTimer, pending := true }
  | .createClass => some { s with phase := .createDevice, cls := true }
  | .createDevice => some { s with phase := .createGroup, device := true }
  | .createGroup =>
    if result = 0 then some { s with phase := .loaded, attributes := true }
    else some { s with phase := .undoDevice result }
  | .undoDevice error => some { s with phase := .undoClass error, device := false }
  | .undoClass error => some { s with phase := .failed error, cls := false }
  | .failed _ => none
  -- `skeleton_exit` is called
  | .loaded => some { s with phase := .removeGroup }
  | .removeGroup => some { s with phase := .destroyDevice, attributes := false }
  | .destroyDevice => some { s with phase := .destroyClass, device := false }
  | .destroyClass => some { s with phase := .delTimer, cls := false }
  | .delTimer => some { s with phase := .gpioFree, pending := false }
  | .gpioFree => some { s with phase := .unloaded, led := false }
  | .unloaded => none

/-- One step of `timer_callback`, and what it does next unless it returns. -/
def callbackStep (d : Driver) (read : ThermalRead) : CallbackPc → Driver × Option CallbackPc
  | .toggle => (d.toggleLed, some .rearm)
  | .rearm => (d.modTimer, some .read)
  | .read =>
    if d.mode = false then
      match read with
      | .error _ => (d, none)
      | .ok temp => (d, some (.update temp))
    else (d, none)
  | .update temp => ({ d with freq := Driver.autoFreq temp }, none)

def replaceAt (running : List CallbackPc) (i : ℕ) (next : Option CallbackPc) : List CallbackPc :=
  running.take i ++ (next.toList ++ running.drop (i + 1))

def step? (s : Module) : ModuleStep → Option Module
  | .main result => s.mainStep result
  | .fire =>
    if s.pending then some { s with pending := false, running := .toggle :: s.running } else none
  | .callback i read =>
    match s.running[i]? with
    | none => none
    | some pc =>
      some { s with
        driver := (callbackStep s.driver read pc).1
        pending := s.pending || pc = .rearm
        running := replaceAt s.running i (callbackStep s.driver read pc).2 }
  | .modeStore buf =>
    if s.attributes then some { s with driver := (s.driver.modeStore buf).1 } else none
  | .freqStore buf =>
    if s.attributes then some { s with driver := (s.driver.freqStore buf).1 } else none

def step : Module → ModuleStep → Module := stutter step?

def Returned (s : Module) : Prop := s.phase.returned = true

instance (s : Module) : Decidable s.Returned := inferInstanceAs (Decidable (_ = _))

def Dead (s : Module) : Prop := s.pending = false ∧ s.running = []

instance (s : Module) : Decidable s.Dead := inferInstanceAs (Decidable (_ ∧ _))

def Alive (s : Module) : Prop := s.pending = true ∨ ∃ pc ∈ s.running, pc.BeforeRearm

/-- The timer is deleted, and the callbacks left are past setting it. -/
def Quiet (s : Module) : Prop := s.pending = false ∧ ∀ pc ∈ s.running, ¬ pc.BeforeRearm

/--
The attributes are created, no callback is about to set the timer when it is deleted, and none is
running when `skeleton_exit` returns.
-/
def TimerStopped (s : Module) : ModuleStep → Prop
  | .main result =>
    (s.phase = .createGroup → result = 0) ∧
    (s.phase = .delTimer → ∀ pc ∈ s.running, ¬ pc.BeforeRearm) ∧
    (s.phase = .gpioFree → s.running = [])
  | _ => True

instance (s : Module) : (m : ModuleStep) → Decidable (s.TimerStopped m)
  | .main _ => inferInstanceAs (Decidable (_ ∧ _ ∧ _))
  | .fire | .callback _ _ | .modeStore _ | .freqStore _ => inferInstanceAs (Decidable True)

/-- Taken without interruption, the steps of a callback are `timer_callback`. -/
theorem timerCallback_eq_steps (d : Driver) (read : ThermalRead) : d.timerCallback read =
    match callbackStep (callbackStep (callbackStep d read .toggle).1 read .rearm).1 read .read with
    | (d', none) => d'
    | (d', some pc) => (callbackStep d' read pc).1 := by
  cases hmode : d.mode with
  | true => simp [callbackStep, d.timerCallback_manual hmode, hmode]
  | false =>
    cases read with
    | error code => simp [callbackStep, Driver.timerCallback_error, hmode]
    | ok temp => simp [callbackStep, d.timerCallback_ok hmode, hmode]

section Callbacks

variable {running : List CallbackPc} {i : ℕ} {pc c : CallbackPc} {next : Option CallbackPc}

theorem mem_replaceAt (h : c ∈ replaceAt running i next) : c ∈ running ∨ next = some c := by
  simp only [replaceAt, List.mem_append, Option.mem_toList] at h
  rcases h with h | h | h
  · exact .inl (List.mem_of_mem_take h)
  · exact .inr h
  · exact .inl (List.mem_of_mem_drop h)

theorem mem_replaceAt_next : c ∈ replaceAt running i (some c) := by
  simp [replaceAt]

theorem mem_replaceAt_of_ne (hi : running[i]? = some pc) (hc : c ∈ running) (hne : c ≠ pc) :
    c ∈ replaceAt running i next := by
  obtain ⟨hlt, rfl⟩ := List.getElem?_eq_some_iff.mp hi
  rw [← List.take_append_drop i running, List.drop_eq_getElem_cons hlt] at hc
  simp only [List.mem_append, List.mem_cons] at hc
  simp only [replaceAt, List.mem_append]
  rcases hc with h | h | h
  · exact .inl h
  · exact absurd h hne
  · exact .inr (.inr h)

theorem callbackStep_past {d : Driver} {read : ThermalRead} (hpc : ¬ pc.BeforeRearm)
    (h : (callbackStep d read pc).2 = some c) : ¬ c.BeforeRearm := by
  cases pc with
  | toggle => exact absurd (.inl rfl) hpc
  | rearm => exact absurd (.inr rfl) hpc
  | update temp => cases h
  | read =>
    simp only [callbackStep] at h
    split at h
    · cases read with
      | error code => cases h
      | ok temp =>
        obtain rfl : .update temp = c := Option.some.inj h
        rintro (h | h) <;> exact CallbackPc.noConfusion h
    · cases h

end Callbacks

section Steps

variable {s t : Module} {m : ModuleStep}

theorem step?_cases (h : step? s m = some t) (hm : ∀ result, m ≠ .main result) :
    t.phase = s.phase ∧
    ((s.pending = true ∧ t.pending = false ∧ t.running = .toggle :: s.running) ∨
      (∃ i read pc, s.running[i]? = some pc ∧ t.pending = (s.pending || pc = .rearm) ∧
        t.running = replaceAt s.running i (callbackStep s.driver read pc).2) ∨
      (t.pending = s.pending ∧ t.running = s.running)) := by
  cases m with
  | main result => exact absurd rfl (hm result)
  | fire =>
    simp only [step?] at h
    split at h
    · next hp =>
      cases h
      exact ⟨rfl, .inl ⟨hp, rfl, rfl⟩⟩
    · cases h
  | callback i read =>
    simp only [step?] at h
    split at h
    · cases h
    · next pc hpc =>
      cases h
      exact ⟨rfl, .inr (.inl ⟨i, read, pc, hpc, rfl, rfl⟩)⟩
  | modeStore buf =>
    simp only [step?] at h
    split at h
    · cases h
      exact ⟨rfl, .inr (.inr ⟨rfl, rfl⟩)⟩
    · cases h
  | freqStore buf =>
    simp only [step?] at h
    split at h
    · cases h
      exact ⟨rfl, .inr (.inr ⟨rfl, rfl⟩)⟩
    · cases h

theorem dead_other (h : step? s m = some t) (hm : ∀ result, m ≠ .main result) (hs : s.Dead) :
    t.Dead := by
  obtain ⟨hpending, hrunning⟩ := hs
  obtain ⟨-, ⟨hp, -, -⟩ | ⟨i, read, pc, hpc, -, -⟩ | ⟨hp, hr⟩⟩ := step?_cases h hm
  · rw [hpending] at hp
    exact Bool.noConfusion hp
  · rw [hrunning] at hpc
    cases hpc
  · exact ⟨hp.trans hpending, hr.trans hrunning⟩

theorem alive_other (h : step? s m = some t) (hm : ∀ result, m ≠ .main result) (hs : s.Alive) :
    t.Alive := by
  obtain ⟨-, ⟨-, -, hr⟩ | ⟨i, read, pc, hpc, hp, hr⟩ | ⟨hp, hr⟩⟩ := step?_cases h hm
  · exact .inr ⟨.toggle, hr ▸ List.mem_cons_self, .inl rfl⟩
  · rcases hs with hs | ⟨c, hc, hbefore⟩
    · exact .inl (by rw [hp, hs, Bool.true_or])
    · cases pc with
      | rearm => exact .inl (by rw [hp]; simp)
      | toggle => exact .inr ⟨.rearm, hr ▸ mem_replaceAt_next, .inr rfl⟩
      | read =>
        have hne : c ≠ .read := by rintro rfl; revert hbefore; decide
        exact .inr ⟨c, hr ▸ mem_replaceAt_of_ne hpc hc hne, hbefore⟩
      | update temp =>
        have hne : c ≠ .update temp := by rintro rfl; rcases hbefore with h | h <;> cases h
        exact .inr ⟨c, hr ▸ mem_replaceAt_of_ne hpc hc hne, hbefore⟩
  · rwa [Alive, hp, hr]

theorem quiet_other (h : step? s m = some t) (hm : ∀ result, m ≠ .main result) (hs : s.Quiet) :
    t.Quiet := by
  obtain ⟨hpending, hpast⟩ := hs
  obtain ⟨-, ⟨hp, -, -⟩ | ⟨i, read, pc, hpc, hp, hr⟩ | ⟨hp, hr⟩⟩ := step?_cases h hm
  · rw [hpending] at hp
    exact Bool.noConfusion hp
  · have hpc' := hpast pc (List.mem_of_getElem? hpc)
    refine ⟨?_, fun c hc => ?_⟩
    · have hne : pc ≠ .rearm := fun h => hpc' (.inr h)
      rw [hp, hpending]
      simp [hne]
    · rw [hr] at hc
      rcases mem_replaceAt hc with hc | hc
      · exact hpast c hc
      · exact callbackStep_past hpc' hc
  · exact ⟨hp.trans hpending, hr ▸ hpast⟩

/-- What is known of the timer at each point, as long as it is stopped properly. -/
def Timer (s : Module) : Prop :=
  match s.phase with
  | .cpuZone | .gpuZone | .gpioIsValid | .gpioRequest | .gpioDirection | .setTimer => s.Dead
  | .createClass | .createDevice | .createGroup | .loaded => s.Alive
  | .removeGroup | .destroyDevice | .destroyClass | .delTimer => s.Alive
  | .gpioFree => s.Quiet
  | .undoDevice _ | .undoClass _ => False
  | .failed _ | .unloaded => s.Dead

theorem timer_main {result : Int32} (h : s.mainStep result = some t) (hs : s.Timer)
    (hstop : s.TimerStopped (.main result)) : t.Timer := by
  obtain ⟨driver, phase, led, cls, device, attributes, pending, running⟩ := s
  cases phase <;> simp only [mainStep, reduceCtorEq] at h
  case cpuZone => split at h <;> cases h <;> exact hs
  case gpuZone => split at h <;> cases h <;> exact hs
  case gpioIsValid => split at h <;> cases h <;> exact hs
  case gpioRequest => split at h <;> cases h <;> exact hs
  case gpioDirection => cases h; exact hs
  case setTimer => cases h; exact .inl rfl
  case createClass => cases h; exact hs
  case createDevice => cases h; exact hs
  case createGroup =>
    have hresult : result = 0 := hstop.1 rfl
    rw [if_pos hresult] at h
    cases h
    exact hs
  case undoDevice => exact hs.elim
  case undoClass => exact hs.elim
  case loaded => cases h; exact hs
  case removeGroup => cases h; exact hs
  case destroyDevice => cases h; exact hs
  case destroyClass => cases h; exact hs
  case delTimer => cases h; exact ⟨rfl, hstop.2.1 rfl⟩
  case gpioFree => cases h; exact ⟨hs.1, hstop.2.2 rfl⟩

/-- Each step keeps what is known of the timer, if it stops it properly. -/
theorem timer_step? (h : step? s m = some t) (hs : s.Timer) (hstop : s.TimerStopped m) :
    t.Timer := by
  by_cases hm : ∃ result, m = .main result
  · obtain ⟨result, rfl⟩ := hm
    exact timer_main h hs hstop
  · push Not at hm
    have hdead := dead_other h hm
    have halive := alive_other h hm
    have hquiet := quiet_other h hm
    have hphase := (step?_cases h hm).1
    unfold Timer at hs ⊢
    rw [hphase]
    split at hs <;> first | exact hdead hs | exact halive hs | exact hquiet hs | exact hs

theorem timer_step (m : ModuleStep) (hs : s.Timer) (hstop : s.TimerStopped m) :
    (step s m).Timer := by
  cases h : step? s m with
  | some t =>
    rw [step, stutter_of_some h]
    exact timer_step? h hs hstop
  | none => rwa [step, stutter, h]

theorem returned_iff : s.Returned ↔ s.phase = .unloaded ∨ ∃ error, s.phase = .failed error := by
  unfold Returned
  cases s.phase with
  | failed error => exact ⟨fun _ => .inr ⟨error, rfl⟩, fun _ => rfl⟩
  | unloaded => exact ⟨fun _ => .inl rfl, fun _ => rfl⟩
  | _ => exact ⟨nofun, by rintro (h | ⟨_, h⟩) <;> cases h⟩

theorem Timer.dead (hs : s.Timer) (h : s.Returned) : s.Dead := by
  rcases returned_iff.mp h with h | ⟨error, h⟩ <;> rw [Timer, h] at hs <;> exact hs

theorem dead_step (m : ModuleStep) (h : s.Returned) (hs : s.Dead) :
    (step s m).Returned ∧ (step s m).Dead := by
  cases ht : step? s m with
  | none => exact ⟨by rwa [step, stutter, ht], by rwa [step, stutter, ht]⟩
  | some t =>
    rw [step, stutter_of_some ht]
    by_cases hm : ∃ result, m = .main result
    · obtain ⟨result, rfl⟩ := hm
      rcases returned_iff.mp h with h | ⟨error, h⟩ <;> simp [step?, mainStep, h] at ht
    · push Not at hm
      refine ⟨?_, dead_other ht hm hs⟩
      rwa [Returned, (step?_cases ht hm).1]

theorem Alive.not_dead (h : s.Alive) : ¬ s.Dead := by
  rintro ⟨hpending, hrunning⟩
  rcases h with h | ⟨pc, hpc, -⟩
  · rw [hpending] at h
    exact Bool.noConfusion h
  · rw [hrunning] at hpc
    exact List.not_mem_nil hpc

/-- A step that does not stop the timer properly lets the module's code return with it alive. -/
theorem returned_not_dead (hs : s.Timer) (hstop : ¬ s.TimerStopped m) :
    (run step s [m, .main 0, .main 0]).Returned ∧ ¬ (run step s [m, .main 0, .main 0]).Dead := by
  obtain ⟨driver, phase, led, cls, device, attributes, pending, running⟩ := s
  cases m with
  | main result =>
    cases phase with
    | createGroup =>
      have hresult : result ≠ 0 := fun h => hstop (by simp [TimerStopped, h])
      have halive : pending = true ∨ ∃ pc ∈ running, pc.BeforeRearm := hs
      simp only [run_cons, run_nil, step, stutter, step?, mainStep, if_neg hresult,
        Option.getD_some]
      exact ⟨rfl, Alive.not_dead halive⟩
    | delTimer =>
      have hbefore : ∃ pc ∈ running, pc.BeforeRearm := by
        by_contra hnone
        exact hstop (by simpa [TimerStopped] using hnone)
      simp only [run_cons, run_nil, step, stutter, step?, mainStep, Option.getD_some,
        Option.getD_none]
      exact ⟨rfl, Alive.not_dead (.inr hbefore)⟩
    | gpioFree =>
      have hrunning : running ≠ [] := fun h => hstop (by simp [TimerStopped, h])
      simp only [run_cons, run_nil, step, stutter, step?, mainStep, Option.getD_some,
        Option.getD_none]
      exact ⟨rfl, fun hdead => hrunning hdead.2⟩
    | _ => exact absurd (by simp [TimerStopped]) hstop
  | _ => exact absurd trivial hstop

end Steps

section Runs

theorem timer_initial : initial.Timer := ⟨rfl, rfl⟩

/--
Whenever `skeleton_init` has returned an error or `skeleton_exit` has returned, the timer is dead
for good, provided the attributes could be created and no callback was in flight. In every other run
the module's code can return with the timer alive.
-/
theorem timer_dead_after_return (steps : List ModuleStep) :
    (Along step TimerStopped initial steps →
      Always step (fun s => s.Returned → ∀ more, (run step s more).Dead) initial steps) ∧
    (¬ Along step TimerStopped initial steps → ∃ pre, pre <+: steps ∧
      (run step initial (pre ++ [.main 0, .main 0])).Returned ∧
      ¬ (run step initial (pre ++ [.main 0, .main 0])).Dead) := by
  constructor
  · intro hstop
    have htimer := always_of_along (fun s m hs hm => timer_step m hs hm) timer_initial hstop
    refine htimer.mono fun s hs hreturned more => ?_
    have hrun := run_invariant (I := fun s : Module => s.Returned ∧ s.Dead)
      (fun s m h => dead_step m h.1 h.2) ⟨hreturned, hs.dead hreturned⟩ more
    exact hrun.2
  · intro hbreak
    obtain ⟨pre, m, post, rfl, hpre, hm⟩ := exists_first_break hbreak
    have htimer := always_of_along (fun s m hs hm => timer_step m hs hm) timer_initial hpre
    refine ⟨pre ++ [m], ⟨post, by simp⟩, ?_⟩
    rw [List.append_assoc, run_append]
    exact returned_not_dead htimer.last hm

def loadSteps : List ModuleStep :=
  [.main 1, .main 1, .main 1, .main 0, .main 0, .main 0, .main 0, .main 0, .main 0]

theorem run_loadSteps : (run step initial loadSteps).phase = .loaded ∧
    (run step initial loadSteps).driver = Driver.loaded := by
  decide

theorem timer_dead_after_return_unload :
    Always step (fun s => s.Returned → ∀ more, (run step s more).Dead) initial
      (loadSteps ++ [.fire, .callback 0 (.ok 36000), .callback 0 (.ok 36000),
        .callback 0 (.ok 36000), .callback 0 (.ok 36000), .main 0, .main 0, .main 0, .main 0,
        .main 0, .main 0]) :=
  (timer_dead_after_return _).1 (by decide)

/--
The timer is left pending when the attributes cannot be created, and set again by a callback that
started before it was deleted.
-/
theorem timer_outlives_module :
    ¬ Always step (fun s => s.Returned → ∀ more, (run step s more).Dead) initial
        [.main 1, .main 1, .main 1, .main 0, .main 0, .main 0, .main 0, .main 0, .main (-12),
          .main 0, .main 0] ∧
      ¬ Always step (fun s => s.Returned → ∀ more, (run step s more).Dead) initial
        (loadSteps ++ [.main 0, .main 0, .main 0, .main 0, .fire, .main 0,
          .callback 0 (.error (-11)), .callback 0 (.error (-11)), .main 0]) := by
  constructor
  · intro h
    have hdead := h.last (by decide) []
    revert hdead
    decide
  · intro h
    have hdead := h.last (by decide) []
    revert hdead
    decide

end Runs

end Module

end CSEL1
