import Mathlib.Data.List.Range
import Mathlib.Data.List.TakeWhile

/-! # The devices of a device tree

The platform driver registers one misc device for each child of its node that is
switched on. One traversal counts them before the array of devices is allocated,
another one registers them in the slots of the array, and the removal deregisters as
many slots as were counted.
-/

namespace CSEL1.Misc

/-- The property `attribute` of a child: without a value, not terminated, or a string. -/
inductive Property
  | missing
  | noData
  | unterminated
  | string (value : List Char)
  deriving DecidableEq, Repr

structure Child where
  fullName : List Char
  attr : Property
  deriving DecidableEq, Repr

/-- The variables that point to allocated memory. -/
inductive Block | mymisc | globalBuffer | bufferSize | privData | priv
  deriving DecidableEq, Repr

/-- What the kernel gives: memory to be freed, memory freed when a probe fails, a misc device. -/
inductive Resource
  | memory (b : Block)
  | managed (b : Block)
  | device (slot : ℕ) (name : List Char)
  deriving DecidableEq, Repr

def Resource.device? : Resource → Option (ℕ × List Char)
  | .device slot name => some (slot, name)
  | _ => none

structure Outcomes where
  alloc : Block → Bool
  register : ℕ → Int32

def Outcomes.granted : Outcomes := ⟨fun _ => true, fun _ => 0⟩

/-- How a function ends: it returns, or the kernel stops it at a bad address. -/
inductive Exit
  | returned (retval : Int32)
  | oops
  deriving DecidableEq, Repr

/--
What a driver holds, in the order of acquisition, with the number of its devices. `outside` records
an access outside an array, `stray` a device deregistered that was not registered.
-/
structure Skeleton where
  held : List Resource
  nbDevices : ℕ
  outside : Bool
  stray : Bool
  deriving DecidableEq, Repr

def onText : List Char := "on".toList

/-- `of_property_read_string`: a failure leaves the pointer as it is. -/
def ofPropertyReadString (p : Property) (attr : Option (List Char)) :
    Int32 × Option (List Char) :=
  match p with
  | .missing => (-22, attr)
  | .noData => (-61, attr)
  | .unterminated => (-84, attr)
  | .string value => (0, some value)

/-- The loop of `countDeviceOn`, with the pointer left by the child before. -/
def countOn (attr : Option (List Char)) (count : ℕ) : List Child → ℕ
  | [] => count
  | child :: children =>
    let read := ofPropertyReadString child.attr attr
    if read.2.isSome ∧ read.1 = 0 then
      if read.2 = some onText then countOn read.2 (count + 1) children
      else countOn read.2 count children
    else countOn read.2 count children

def countDeviceOn (node : Option (List Child)) : ℕ := node.elim 0 (countOn none 0)

namespace Skeleton

def empty : Skeleton := ⟨[], 0, false, false⟩

def hold (r : Resource) (s : Skeleton) : Skeleton := { s with held := s.held ++ [r] }

def check (inside : Bool) (s : Skeleton) : Skeleton := { s with outside := s.outside || !inside }

def devmAlloc (o : Outcomes) (b : Block) (s : Skeleton) : Skeleton × Bool :=
  if o.alloc b then (s.hold (.managed b), true) else (s, false)

def miscRegister (o : Outcomes) (slot : ℕ) (name : List Char) (s : Skeleton) : Skeleton × Int32 :=
  (if o.register slot = 0 then s.hold (.device slot name) else s, o.register slot)

def inSlot (slot : ℕ) : Resource → Bool
  | .device slot' _ => slot' = slot
  | _ => false

def miscDeregister (s : Skeleton) (slot : ℕ) : Skeleton :=
  if s.held.any (inSlot slot) then { s with held := s.held.filter (!inSlot slot ·) }
  else { s with stray := true }

/-- The loop of `skeleton_probe`: the error of the registration that has failed, if any. -/
def registerOn (o : Outcomes) (attr : Option (List Char)) (i : ℕ) (s : Skeleton) :
    List Child → Skeleton × Option Int32
  | [] => (s, none)
  | child :: children =>
    let read := ofPropertyReadString child.attr attr
    if read.2.isSome ∧ read.1 = 0 then
      if read.2 = some onText then
        let registered := (s.check (i < s.nbDevices)).miscRegister o i child.fullName
        if registered.2 ≠ 0 then (registered.1, some registered.2)
        else registerOn o read.2 (i + 1) registered.1 children
      else registerOn o read.2 i s children
    else registerOn o read.2 i s children

def skeletonProbe (o : Outcomes) (node : Option (List Child)) : Skeleton × Exit :=
  let privData := empty.devmAlloc o .privData
  if privData.2 = false then (privData.1, .returned (-12))
  else
    let s := { privData.1 with nbDevices := countDeviceOn node }
    let priv := s.devmAlloc o .priv
    if priv.2 = false then (priv.1, .returned (-12))
    else
      match node with
      | none => (priv.1, .returned 0)
      | some children =>
        match registerOn o none 0 priv.1 children with
        | (s, some retval) => (s, .returned retval)
        | (s, none) => (s, .returned 0)

def skeletonRemove (s : Skeleton) : Skeleton := (List.range s.nbDevices).foldl miscDeregister s

def devices (s : Skeleton) : List (ℕ × List Char) := s.held.filterMap Resource.device?

end Skeleton

def Child.isOn (c : Child) : Bool := c.attr = .string onText

/-- The devices wanted for the children, in tree order, from a slot on. -/
def wanted (children : List Child) (i : ℕ) : List Resource :=
  (((children.filter Child.isOn).map Child.fullName).zipIdx i).map fun x => .device x.2 x.1

def Outcomes.refusal (o : Outcomes) : Resource → Option Int32
  | .memory b | .managed b => if o.alloc b then none else some (-12)
  | .device slot _ => if o.register slot = 0 then none else some (o.register slot)

def Outcomes.grants (o : Outcomes) (r : Resource) : Bool := (o.refusal r).isNone

section Traversals

variable {o : Outcomes} {child : Child} {children : List Child} {attr : Option (List Char)} {i : ℕ}

theorem wanted_nil (i : ℕ) : wanted [] i = [] := rfl

theorem wanted_cons_on (h : child.isOn = true) :
    wanted (child :: children) i = .device i child.fullName :: wanted children (i + 1) := by
  simp [wanted, h]

theorem wanted_cons_off (h : ¬ child.isOn = true) :
    wanted (child :: children) i = wanted children i := by
  simp [wanted, h]

/-- Both traversals take a child exactly if it is on, whatever the child before has left. -/
theorem taken_iff : (let read := ofPropertyReadString child.attr attr
    (read.2.isSome ∧ read.1 = 0) ∧ read.2 = some onText) ↔ child.isOn = true := by
  unfold Child.isOn ofPropertyReadString
  cases child.attr <;> simp

theorem countOn_eq (attr : Option (List Char)) (count : ℕ) (children : List Child) :
    countOn attr count children = count + (children.filter Child.isOn).length := by
  induction children generalizing attr count with
  | nil => rfl
  | cons child children ih =>
    have htaken := @taken_iff child attr
    simp only [countOn, ih]
    by_cases hon : child.isOn = true
    · obtain ⟨hread, htext⟩ := htaken.mpr hon
      rw [if_pos hread, if_pos htext, List.filter_cons_of_pos hon, List.length_cons]
      omega
    · rw [List.filter_cons_of_neg hon]
      split_ifs with hread htext
      · exact absurd (htaken.mp ⟨hread, htext⟩) hon
      · rfl
      · rfl

theorem nbDevices_eq (node : Option (List Child)) :
    countDeviceOn node = ((node.getD []).filter Child.isOn).length := by
  cases node with
  | none => rfl
  | some children => exact (countOn_eq none 0 children).trans (Nat.zero_add _)

theorem length_wanted (children : List Child) (i : ℕ) :
    (wanted children i).length = (children.filter Child.isOn).length := by
  simp [wanted]

section Loop

variable {s : Skeleton} {slot : ℕ} {name : List Char}

theorem miscRegister_granted (h : o.register slot = 0) :
    s.miscRegister o slot name = (s.hold (.device slot name), 0) := by
  rw [Skeleton.miscRegister, if_pos h, h]

theorem miscRegister_refused (h : o.register slot ≠ 0) :
    s.miscRegister o slot name = (s, o.register slot) := by
  rw [Skeleton.miscRegister, if_neg h]

theorem registerOn_cons_on (hon : child.isOn = true) :
    Skeleton.registerOn o attr i s (child :: children) =
      let registered := (s.check (i < s.nbDevices)).miscRegister o i child.fullName
      if registered.2 ≠ 0 then (registered.1, some registered.2)
      else Skeleton.registerOn o (ofPropertyReadString child.attr attr).2 (i + 1) registered.1
        children := by
  obtain ⟨hread, htext⟩ := (@taken_iff child attr).mpr hon
  rw [Skeleton.registerOn, if_pos hread, if_pos htext]

theorem registerOn_cons_off (hon : ¬ child.isOn = true) :
    Skeleton.registerOn o attr i s (child :: children) =
      Skeleton.registerOn o (ofPropertyReadString child.attr attr).2 i s children := by
  have htaken := @taken_iff child attr
  rw [Skeleton.registerOn]
  split_ifs with hread htext
  · exact absurd (htaken.mp ⟨hread, htext⟩) hon
  · rfl
  · rfl

/-- The loop acquires the devices wanted up to the first that is refused. -/
theorem registerOn_held : (Skeleton.registerOn o attr i s children).1.held =
      s.held ++ (wanted children i).takeWhile o.grants ∧
    (Skeleton.registerOn o attr i s children).2 = (wanted children i).findSome? o.refusal := by
  induction children generalizing attr i s with
  | nil => exact ⟨(List.append_nil _).symm, rfl⟩
  | cons child children ih =>
    by_cases hon : child.isOn = true
    · rw [registerOn_cons_on hon, wanted_cons_on hon]
      by_cases hret : o.register i = 0
      · rw [miscRegister_granted hret]
        simp [Skeleton.check, Skeleton.hold, Outcomes.grants, Outcomes.refusal, hret, ih]
      · rw [miscRegister_refused hret]
        simp [Skeleton.check, Outcomes.grants, Outcomes.refusal, hret]
    · rw [registerOn_cons_off hon, wanted_cons_off hon]
      exact ih

theorem registerOn_frame : (Skeleton.registerOn o attr i s children).1.nbDevices = s.nbDevices ∧
    (Skeleton.registerOn o attr i s children).1.stray = s.stray ∧
    (i + (children.filter Child.isOn).length ≤ s.nbDevices →
      (Skeleton.registerOn o attr i s children).1.outside = s.outside) := by
  induction children generalizing attr i s with
  | nil => exact ⟨rfl, rfl, fun _ => rfl⟩
  | cons child children ih =>
    by_cases hon : child.isOn = true
    · rw [registerOn_cons_on hon, List.filter_cons_of_pos hon, List.length_cons]
      have hcheck : i + ((children.filter Child.isOn).length + 1) ≤ s.nbDevices →
          (s.check (i < s.nbDevices)).outside = s.outside := by
        intro hle
        rw [Skeleton.check, decide_eq_true (by omega), Bool.not_true, Bool.or_false]
      by_cases hret : o.register i = 0
      · rw [miscRegister_granted hret]
        obtain ⟨hnb, hstray, hout⟩ := @ih (ofPropertyReadString child.attr attr).2 (i + 1)
          ((s.check (i < s.nbDevices)).hold (.device i child.fullName))
        refine ⟨hnb, hstray, fun hle => (hout ?_).trans (hcheck hle)⟩
        have hsame : ((s.check (i < s.nbDevices)).hold (.device i child.fullName)).nbDevices =
            s.nbDevices := rfl
        omega
      · rw [miscRegister_refused hret]
        simp only [ne_eq, hret, not_false_eq_true, if_true]
        exact ⟨rfl, rfl, hcheck⟩
    · rw [registerOn_cons_off hon, List.filter_cons_of_neg hon]
      exact ih

def probeWanted (node : Option (List Child)) : List Resource :=
  .managed .privData :: .managed .priv :: wanted (node.getD []) 0

theorem skeletonProbe_some (hdata : o.alloc .privData = true) (hpriv : o.alloc .priv = true) :
    Skeleton.skeletonProbe o (some children) =
      let loop := Skeleton.registerOn o none 0
        ⟨[.managed .privData, .managed .priv], countDeviceOn (some children), false, false⟩ children
      (loop.1, .returned (loop.2.getD 0)) := by
  unfold Skeleton.skeletonProbe
  simp only [Skeleton.devmAlloc, Skeleton.hold, Skeleton.empty, hdata, hpriv, if_true,
    Bool.true_eq_false, if_false, List.nil_append, List.singleton_append]
  split
  · next s retval hloop => rw [hloop]; rfl
  · next s hloop => rw [hloop]; rfl

theorem skeletonProbe_held (o : Outcomes) (node : Option (List Child)) :
    (Skeleton.skeletonProbe o node).1.held = (probeWanted node).takeWhile o.grants ∧
      (Skeleton.skeletonProbe o node).2 =
        .returned (((probeWanted node).findSome? o.refusal).getD 0) := by
  by_cases hdata : o.alloc .privData = true
  · by_cases hpriv : o.alloc .priv = true
    · cases node with
      | none =>
        simp [Skeleton.skeletonProbe, probeWanted, Skeleton.devmAlloc, Skeleton.hold,
          Skeleton.empty, Outcomes.grants, Outcomes.refusal, hdata, hpriv, wanted_nil]
      | some children =>
        obtain ⟨hheld, hret⟩ := @registerOn_held o children none 0
          ⟨[.managed .privData, .managed .priv], countDeviceOn (some children), false, false⟩
        rw [skeletonProbe_some hdata hpriv]
        simp only [hheld, hret]
        simp [probeWanted, Outcomes.grants, Outcomes.refusal, hdata, hpriv]
    · simp [Skeleton.skeletonProbe, probeWanted, Skeleton.devmAlloc, Skeleton.hold,
        Skeleton.empty, Outcomes.grants, Outcomes.refusal, hdata, hpriv]
  · simp [Skeleton.skeletonProbe, probeWanted, Skeleton.devmAlloc, Skeleton.empty,
      Outcomes.grants, Outcomes.refusal, hdata]

theorem skeletonProbe_frame (node : Option (List Child)) :
    (Skeleton.skeletonProbe .granted node).1.nbDevices = countDeviceOn node ∧
      (Skeleton.skeletonProbe .granted node).1.stray = false ∧
      (Skeleton.skeletonProbe .granted node).1.outside = false := by
  cases node with
  | none => exact ⟨rfl, rfl, rfl⟩
  | some children =>
    obtain ⟨hnb, hstray, hout⟩ := @registerOn_frame .granted children none 0
      ⟨[.managed .privData, .managed .priv], countDeviceOn (some children), false, false⟩
    have hroom : 0 + (children.filter Child.isOn).length ≤ countDeviceOn (some children) := by
      rw [nbDevices_eq, Nat.zero_add]
      exact le_refl _
    rw [skeletonProbe_some rfl rfl]
    exact ⟨hnb, hstray, hout hroom⟩

end Loop

end Traversals

structure ProbeAgrees (node : Option (List Child)) (s : Skeleton) : Prop where
  counted : s.nbDevices = countDeviceOn node
  registered : s.devices =
    (((node.getD []).filter Child.isOn).map Child.fullName).zipIdx.map fun x => (x.2, x.1)
  filled : s.devices.map Prod.fst = List.range s.nbDevices
  inside : s.outside = false
  removed : s.skeletonRemove.devices = []
  removed_once : s.skeletonRemove.stray = false

section Agreement

variable {s : Skeleton} {slot : ℕ}

theorem any_inSlot_iff :
    s.held.any (Skeleton.inSlot slot) = true ↔ slot ∈ s.devices.map Prod.fst := by
  simp only [List.any_eq_true, List.mem_map, Skeleton.devices, List.mem_filterMap]
  constructor
  · rintro ⟨r, hr, hslot⟩
    cases r with
    | device slot' name => exact ⟨(slot', name), ⟨_, hr, rfl⟩, of_decide_eq_true hslot⟩
    | _ => exact absurd hslot Bool.false_ne_true
  · rintro ⟨⟨slot', name⟩, ⟨r, hr, hdev⟩, rfl⟩
    cases r with
    | device slot'' name' =>
      obtain ⟨rfl, rfl⟩ := Prod.mk.inj (Option.some.inj hdev)
      exact ⟨_, hr, decide_eq_true rfl⟩
    | _ => exact absurd hdev.symm (Option.some_ne_none _)

theorem filterMap_device?_filter (slot : ℕ) (held : List Resource) :
    (held.filter (!Skeleton.inSlot slot ·)).filterMap Resource.device? =
      (held.filterMap Resource.device?).filter (·.1 ≠ slot) := by
  induction held with
  | nil => rfl
  | cons r held ih =>
    cases r with
    | device slot' name =>
      have hdev : (Resource.device slot' name).device? = some (slot', name) := rfl
      have hin : Skeleton.inSlot slot (.device slot' name) = decide (slot' = slot) := rfl
      rw [List.filterMap_cons_some hdev]
      by_cases hslot : slot' = slot
      · rw [List.filter_cons_of_neg (by rw [hin]; simp [hslot]),
          List.filter_cons_of_neg (by simp [hslot]), ih]
      · rw [List.filter_cons_of_pos (by rw [hin]; simp [hslot]),
          List.filter_cons_of_pos (by simp [hslot]), List.filterMap_cons_some hdev, ih]
    | memory b | managed b =>
      rw [List.filter_cons_of_pos rfl, List.filterMap_cons_none rfl, List.filterMap_cons_none rfl,
        ih]

theorem devices_miscDeregister (h : slot ∈ s.devices.map Prod.fst) :
    (s.miscDeregister slot).devices = s.devices.filter (·.1 ≠ slot) ∧
      (s.miscDeregister slot).stray = s.stray := by
  rw [Skeleton.miscDeregister, if_pos (any_inSlot_iff.mpr h)]
  refine ⟨?_, rfl⟩
  exact filterMap_device?_filter slot s.held

theorem foldl_miscDeregister {slots : List ℕ} (hnodup : slots.Nodup)
    (h : s.devices.map Prod.fst = slots) : (slots.foldl Skeleton.miscDeregister s).devices = [] ∧
      (slots.foldl Skeleton.miscDeregister s).stray = s.stray := by
  induction slots generalizing s with
  | nil => exact ⟨List.map_eq_nil_iff.mp h, rfl⟩
  | cons slot slots ih =>
    obtain ⟨hnotin, hnodup⟩ := List.nodup_cons.mp hnodup
    obtain ⟨d, ds, hdevices, hd, hds⟩ := List.map_eq_cons_iff.mp h
    obtain ⟨hrest, hstray⟩ := devices_miscDeregister (h ▸ List.mem_cons_self)
    have hleft : (s.miscDeregister slot).devices = ds := by
      have hkeep : ∀ d' ∈ ds, decide (d'.1 ≠ slot) = true := by
        intro d' hd'
        refine decide_eq_true fun heq => hnotin ?_
        rw [← hds, ← heq]
        exact List.mem_map_of_mem hd'
      rw [hrest, hdevices, List.filter_cons_of_neg (by simp [hd]), List.filter_eq_self.mpr hkeep]
    obtain ⟨hnone, hstray'⟩ := ih hnodup (hleft ▸ hds)
    exact ⟨hnone, hstray'.trans hstray⟩

/--
For every node the probe registers exactly the children that are on, in the slots counted for them,
and the removal deregisters exactly these.
-/
theorem probe_remove_agree (node : Option (List Child)) :
    (Skeleton.skeletonProbe .granted node).2 = .returned 0 ∧
      ProbeAgrees node (Skeleton.skeletonProbe .granted node).1 := by
  have hgrants : ∀ r, Outcomes.granted.grants r = true := fun r => by cases r <;> rfl
  have hrefusal : ∀ r, Outcomes.granted.refusal r = none := fun r => by cases r <;> rfl
  obtain ⟨hheld, hexit⟩ := skeletonProbe_held .granted node
  obtain ⟨hcount, hstray, hinside⟩ := skeletonProbe_frame node
  rw [List.takeWhile_eq_self_iff.mpr fun r _ => hgrants r] at hheld
  rw [List.findSome?_eq_none_iff.mpr fun r _ => hrefusal r] at hexit
  have hdevices : (Skeleton.skeletonProbe .granted node).1.devices =
      (((node.getD []).filter Child.isOn).map Child.fullName).zipIdx.map
        fun x => (x.2, x.1) := by
    rw [Skeleton.devices, hheld, probeWanted, List.filterMap_cons_none rfl,
      List.filterMap_cons_none rfl, wanted, List.filterMap_map]
    exact congrFun List.filterMap_eq_map' _
  have hfilled : (Skeleton.skeletonProbe .granted node).1.devices.map Prod.fst =
      List.range (Skeleton.skeletonProbe .granted node).1.nbDevices := by
    rw [hdevices, hcount, nbDevices_eq, List.map_map, List.range_eq_range']
    have hsnd := List.zipIdx_map_snd 0 (((node.getD []).filter Child.isOn).map Child.fullName)
    rwa [List.length_map] at hsnd
  obtain ⟨hremoved, honce⟩ := foldl_miscDeregister List.nodup_range hfilled
  exact ⟨hexit, hcount, hdevices, hfilled, hinside, hremoved, honce.trans hstray⟩

end Agreement

end CSEL1.Misc
