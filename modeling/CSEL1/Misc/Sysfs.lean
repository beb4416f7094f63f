import CSEL1.Transition.Stages

/-! # Drivers with attributes in sysfs

Two modules that register a misc device, a platform driver with an attribute and, in
one of them, a class with a device and a group of attributes. Each failure that is
tested releases what was acquired before; whether the class and its device were
created is not tested.
-/

namespace CSEL1.Misc.Sysfs

open Transition Stages

inductive Resource
  | sampleDevice
  | myPlatformDriver
  | driverAttrTest
  | testClass
  | testDev
  | mydrvGroup
  deriving DecidableEq, Repr

open Sysfs.Resource

def miscRegister : Stage Resource := ⟨sampleDevice, [], [], .giveUp none []⟩

def platformDriverRegister : Stage Resource :=
  ⟨myPlatformDriver, [], [], .giveUp none [sampleDevice]⟩

def driverCreateFile : Stage Resource :=
  ⟨driverAttrTest, [], [myPlatformDriver], .giveUp none [myPlatformDriver, sampleDevice]⟩

def classCreate : Stage Resource := ⟨testClass, [], [], .goOn⟩

/-- For an error instead of a class `device_create` returns an error too. -/
def deviceCreate : Stage Resource := ⟨testDev, [testClass], [], .goOn⟩

def sysfsCreateGroup : Stage Resource :=
  ⟨mydrvGroup, [], [testDev],
    .giveUp none [testDev, testClass, driverAttrTest, myPlatformDriver, sampleDevice]⟩

/-- `skeleton_bus_platform.c` -/
def busPlatform : Loadable Resource where
  init := [miscRegister, platformDriverRegister, driverCreateFile]
  exit := [driverAttrTest, myPlatformDriver, sampleDevice]

/-- `skeleton.c` -/
def skeleton : Loadable Resource where
  init :=
    [miscRegister, platformDriverRegister, driverCreateFile, classCreate, deviceCreate,
      sysfsCreateGroup]
  exit := [mydrvGroup, testDev, testClass, driverAttrTest, myPlatformDriver, sampleDevice]

theorem careful_busPlatform : busPlatform.Careful where
  distinct := by decide
  unwinds := by
    simp [busPlatform, Unwinds, miscRegister, platformDriverRegister, driverCreateFile]
  exit_eq := rfl

theorem careful_skeleton : skeleton.Careful where
  distinct := by decide
  unwinds := by
    simp [skeleton, Unwinds, Followed, miscRegister, platformDriverRegister, driverCreateFile,
      classCreate, deviceCreate, sysfsCreateGroup]
  exit_eq := rfl

/-- If the load gets as far as the class, the class and its device are created. -/
def ClassCreated (s : State Resource) : Change Resource → Prop
  | .insmod answer =>
    s.loaded = false → answer sampleDevice = 0 → answer myPlatformDriver = 0 →
      answer driverAttrTest = 0 → answer testClass = 0 ∧ answer testDev = 0
  | .rmmod => True

theorem noticed_skeleton_iff (s : State Resource) (e : Change Resource) :
    Noticed skeleton s e ↔ ClassCreated s e := by
  cases e with
  | rmmod => exact Iff.rfl
  | insmod answer =>
    refine imp_congr_right fun _ => ?_
    by_cases h₁ : answer sampleDevice = 0 <;> by_cases h₂ : answer myPlatformDriver = 0 <;>
      by_cases h₃ : answer driverAttrTest = 0 <;> by_cases h₄ : answer testClass = 0 <;>
        by_cases h₅ : answer testDev = 0 <;> by_cases h₆ : answer mydrvGroup = 0 <;>
          simp [refused, skeleton, miscRegister, platformDriverRegister, driverCreateFile,
            classCreate, deviceCreate, sysfsCreateGroup, h₁, h₂, h₃, h₄, h₅, h₆]

theorem noticed_busPlatform (s : State Resource) (e : Change Resource) :
    Noticed busPlatform s e := by
  cases e with
  | rmmod => trivial
  | insmod answer =>
    rintro - st hst
    have hall : ∀ st ∈ busPlatform.init, st.onFailure ≠ .goOn := by
      simp [busPlatform, miscRegister, platformDriverRegister, driverCreateFile]
    exact hall st (List.mem_of_find?_eq_some hst)

/--
In every run of loads and unloads the smaller module holds all its resources or none and releases
only what it holds. So does the larger one, unless a bad pointer stops it, which happens exactly if
a load gets as far as the class and the kernel refuses the class or its device.
-/
theorem run_tidy (es : List (Change Resource)) :
    (Tidy busPlatform (run (State.step busPlatform) clean es) ∧
        (run (State.step busPlatform) clean es).oops = false) ∧
      Tidy skeleton (run (State.step skeleton) clean es) ∧
        (Always (State.step skeleton) (fun s => s.oops = false) clean es ↔
          Along (State.step skeleton) ClassCreated clean es) := by
  refine ⟨⟨tidy_run careful_busPlatform es, ?_⟩, tidy_run careful_skeleton es, ?_⟩
  · have hnoticed : Along (State.step busPlatform) (Noticed busPlatform) clean es :=
      along_of_forall fun e _ s => noticed_busPlatform s e
    exact ((always_oops_iff careful_busPlatform es).mpr hnoticed).last
  · rw [always_oops_iff careful_skeleton es]
    have hsame : Noticed skeleton = ClassCreated :=
      funext₂ fun s e => propext (noticed_skeleton_iff s e)
    rw [hsame]

end CSEL1.Misc.Sysfs
