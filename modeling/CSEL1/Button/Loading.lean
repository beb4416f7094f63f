import CSEL1.Transition.Leaks

/-! # Drivers of the buttons

Two modules that request the pins of three buttons and an interrupt for each of them;
one of them registers a misc device first. The load is given up at the first pin that
is refused. A refused interrupt is only logged, and since the interrupt numbers are
unsigned a pin without an interrupt is not noticed at all.
-/

namespace CSEL1.ButtonModule

open Transition Stages

inductive Key | key0 | key1 | key2
  deriving DecidableEq, Repr

inductive Resource
  | sampleDevice
  | gpio (key : Key)
  | irq (key : Key)
  deriving DecidableEq, Repr

open Resource

def miscRegister : Stage Resource := ⟨sampleDevice, [], [], .giveUp none []⟩

/-- `gpio_is_valid` and `gpio_request`. -/
def gpioRequest (key : Key) : Stage Resource := ⟨gpio key, [], [], .giveUp (some (-1)) []⟩

def requestIrq (key : Key) : Stage Resource := ⟨irq key, [], [], .goOn⟩

/-- `module_interrupt_6/skeleton.c` -/
def interrupt6 : Loadable Resource where
  init :=
    [gpioRequest .key0, gpioRequest .key1, gpioRequest .key2, requestIrq .key0, requestIrq .key1,
      requestIrq .key2]
  exit := [gpio .key0, gpio .key1, gpio .key2, irq .key0, irq .key1, irq .key2]

/-- `ex7_Op_Bloq/skeleton.c` -/
def ex7 : Loadable Resource where
  init := miscRegister :: interrupt6.init
  exit := interrupt6.exit ++ [sampleDevice]

theorem careless_interrupt6 : interrupt6.Careless (gpioRequest .key0) where
  head := ⟨_, rfl⟩
  first_giveUp := by simp [gpioRequest]
  plain := by simp [interrupt6, Stage.Plain, gpioRequest, requestIrq]
  distinct := by simp [interrupt6, gpioRequest, requestIrq]
  covers := by simp [interrupt6, gpioRequest, requestIrq]

theorem careless_ex7 : ex7.Careless miscRegister where
  head := ⟨_, rfl⟩
  first_giveUp := by simp [miscRegister]
  plain := by simp [ex7, interrupt6, Stage.Plain, miscRegister, gpioRequest, requestIrq]
  distinct := by simp [ex7, interrupt6, miscRegister, gpioRequest, requestIrq]
  covers := by simp [ex7, interrupt6, miscRegister, gpioRequest, requestIrq]

/-- A load either fails at its first request or is granted every pin, and in `ex7` the device. -/
def AllOrNothing (first : Resource) (s : State Resource) : Change Resource → Prop
  | .insmod answer =>
    s.loaded = false → answer first ≠ 0 ∨ answer first = 0 ∧ ∀ key, answer (gpio key) = 0
  | .rmmod => True

theorem granted_interrupt6_iff (answer : Resource → Int32) :
    Granted answer interrupt6.init ↔ ∀ key, answer (gpio key) = 0 := by
  constructor
  · intro h key
    refine h (gpioRequest key) ?_ (by simp [gpioRequest])
    cases key <;> simp [interrupt6]
  · intro h
    simp [Granted, interrupt6, gpioRequest, requestIrq, h]

theorem failsAtOnce_interrupt6_iff (s : State Resource) (e : Change Resource) :
    FailsAtOnce interrupt6 (gpioRequest .key0) s e ↔ AllOrNothing (gpio .key0) s e := by
  cases e with
  | rmmod => exact Iff.rfl
  | insmod answer =>
    refine imp_congr_right fun _ => or_congr_right ?_
    rw [granted_interrupt6_iff]
    exact ⟨fun h => ⟨h .key0, h⟩, And.right⟩

theorem failsAtOnce_ex7_iff (s : State Resource) (e : Change Resource) :
    FailsAtOnce ex7 miscRegister s e ↔ AllOrNothing sampleDevice s e := by
  cases e with
  | rmmod => exact Iff.rfl
  | insmod answer =>
    refine imp_congr_right fun _ => or_congr_right ?_
    rw [← granted_interrupt6_iff]
    simp [Granted, ex7, miscRegister]

/--
In every run of loads and unloads of either module nothing is left behind exactly if no load fails
half-way. What a load has left behind stays, and no later load succeeds.
-/
theorem run_leaves (es : List (Change Resource)) :
    ((Always (State.step interrupt6) (fun s => s.loaded = false → s.held = []) clean es ↔
        Along (State.step interrupt6) (AllOrNothing (gpio .key0)) clean es) ∧
      ((run (State.step interrupt6) clean es).loaded = false →
        (run (State.step interrupt6) clean es).held ≠ [] →
        ∀ es', run (State.step interrupt6) clean (es ++ es') =
          run (State.step interrupt6) clean es)) ∧
    (Always (State.step ex7) (fun s => s.loaded = false → s.held = []) clean es ↔
        Along (State.step ex7) (AllOrNothing sampleDevice) clean es) ∧
      ((run (State.step ex7) clean es).loaded = false →
        (run (State.step ex7) clean es).held ≠ [] →
        ∀ es', run (State.step ex7) clean (es ++ es') = run (State.step ex7) clean es) := by
  have h6 := leaky_run careless_interrupt6 es
  have h7 := leaky_run careless_ex7 es
  have hsame6 : FailsAtOnce interrupt6 (gpioRequest .key0) = AllOrNothing (gpio .key0) :=
    funext₂ fun s e => propext (failsAtOnce_interrupt6_iff s e)
  have hsame7 : FailsAtOnce ex7 miscRegister = AllOrNothing sampleDevice :=
    funext₂ fun s e => propext (failsAtOnce_ex7_iff s e)
  rw [hsame6] at h6
  rw [hsame7] at h7
  exact ⟨h6, h7⟩

end CSEL1.ButtonModule
