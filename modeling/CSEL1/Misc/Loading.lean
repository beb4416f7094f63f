import CSEL1.Misc.DeviceTree
import CSEL1.Text.Decimal

/-! # Failed initialisations

The functions that set up several misc devices acquire their memory and their devices
one after the other and return at the first error, without giving anything back. Only
the memory allocated for a device of the bus is freed by the kernel when the probe
fails.
-/

namespace CSEL1.Misc

open CText

/-- What `kzalloc` returns: for a size of zero a pointer to no memory, which is not `NULL`. -/
inductive Pointer | null | zeroSize | block
  deriving DecidableEq, Repr

def miscPrefix : List Char := "myMisc_".toList

def miscName (i : ℕ) : List Char := miscPrefix ++ decimal i

/-- An `int` converted to `size_t`: a negative one becomes larger than any memory. -/
def sizeT (n : ℤ) : ℕ := if 0 ≤ n then n.toNat else (n + 2 ^ 64).toNat

/-- `sizeof(*mymisc) * NB_Devices`, the structure having 80 bytes. -/
def miscBytes (nb : ℤ) : ℕ := 80 * sizeT nb

/-- `NB_Devices * BUFFER_SIZE * sizeof(char)`, where the first product is an `int`. -/
def bufferBytes (nb : ℤ) : ℕ := sizeT (Int32.ofInt (nb * 1024)).toInt

def sizeBytes (nb : ℤ) : ℕ := sizeT nb * 4

namespace Skeleton

def kzalloc (o : Outcomes) (b : Block) (size : ℕ) (s : Skeleton) : Skeleton × Pointer :=
  if size = 0 then (s, .zeroSize)
  else if o.alloc b then (s.hold (.memory b), .block)
  else (s, .null)

/-- The loop of `skeleton_init`, which prints each name into `name[10]`. -/
def registerAll (o : Outcomes) (i : ℕ) (s : Skeleton) : ℕ → Skeleton × Option Int32
  | 0 => (s, none)
  | left + 1 =>
    let registered := (s.check ((miscName i).length < 10)).miscRegister o i (miscName i)
    if registered.2 ≠ 0 then (registered.1, some registered.2)
    else registerAll o (i + 1) registered.1 left

/-- The end of both functions: the minor number of the first device is read from its array. -/
def allocateArrays (o : Outcomes) (nb : ℤ) (mymisc : Pointer) (s : Skeleton) : Skeleton × Exit :=
  if mymisc = .zeroSize then (s, .oops)
  else
    let globalBuffer := s.kzalloc o .globalBuffer (bufferBytes nb)
    if globalBuffer.2 = .null then (globalBuffer.1, .returned (-12))
    else
      let bufferSize := globalBuffer.1.kzalloc o .bufferSize (sizeBytes nb)
      if bufferSize.2 = .null then (bufferSize.1, .returned (-12))
      else (bufferSize.1, .returned 0)

/-- `if (retval) return retval;` in the loop, or what follows it. -/
def behindLoop (o : Outcomes) (nb : ℤ) (mymisc : Pointer) :
    Skeleton × Option Int32 → Skeleton × Exit
  | (s, some retval) => (s, .returned retval)
  | (s, none) => s.allocateArrays o nb mymisc

def skeletonInit (o : Outcomes) (nbDevices : Int32) : Skeleton × Exit :=
  let nb := nbDevices.toInt
  let mymisc := { empty with nbDevices := nb.toNat }.kzalloc o .mymisc (miscBytes nb)
  if mymisc.2 = .null then (mymisc.1, .returned (-12))
  else behindLoop o nb mymisc.2 (registerAll o 0 mymisc.1 nb.toNat)

/-- `skeleton_probe` of the version that allocates its arrays with `kzalloc`. -/
def skeletonProbe1 (o : Outcomes) (node : Option (List Child)) : Skeleton × Exit :=
  let nb := countDeviceOn node
  let mymisc := { empty with nbDevices := nb }.kzalloc o .mymisc (miscBytes nb)
  if mymisc.2 = .null then (mymisc.1, .returned (-12))
  else
    match node with
    | none => mymisc.1.allocateArrays o nb mymisc.2
    | some children => behindLoop o nb mymisc.2 (registerOn o none 0 mymisc.1 children)

end Skeleton

inductive Setup
  | init (nbDevices : Int32)
  | probe1 (node : Option (List Child))
  | probe (node : Option (List Child))

namespace Setup

def run (o : Outcomes) : Setup → Skeleton × Exit
  | .init nbDevices => Skeleton.skeletonInit o nbDevices
  | .probe1 node => Skeleton.skeletonProbe1 o node
  | .probe node => Skeleton.skeletonProbe o node

def arrays (nb : ℤ) : List Resource :=
  (if bufferBytes nb = 0 then [] else [.memory .globalBuffer]) ++
    if sizeBytes nb = 0 then [] else [.memory .bufferSize]

def named (i left : ℕ) : List Resource :=
  (List.range' i left).map fun slot => .device slot (miscName slot)

def wants : Setup → List Resource
  | .init nbDevices => .memory .mymisc ::
    (named 0 nbDevices.toInt.toNat ++ arrays nbDevices.toInt)
  | .probe1 node => .memory .mymisc :: (wanted (node.getD []) 0 ++ arrays (countDeviceOn node))
  | .probe node => probeWanted node

def Empty : Setup → Prop
  | .init nbDevices => nbDevices = 0
  | .probe1 node => countDeviceOn node = 0
  | .probe _ => False

def Granted (o : Outcomes) (x : Setup) : Prop := ∀ r ∈ x.wants, o.refusal r = none

/-- The first resource that would have to be given back is refused, or one in front of it. -/
def RefusedAtOnce (o : Outcomes) : Setup → Prop
  | .init _ | .probe1 _ => o.alloc .mymisc = false
  | .probe _ => o.alloc .privData = false ∨ o.alloc .priv = false ∨ o.register 0 ≠ 0

end Setup

/-- The kernel frees the resource itself when a probe fails. -/
def Resource.Released : Resource → Prop
  | .managed _ => True
  | _ => False

/-- If an error is returned, nothing is left that the kernel does not free itself. -/
def Clean (x : Skeleton × Exit) : Prop :=
  ∀ retval, x.2 = .returned retval → retval ≠ 0 → ∀ r ∈ x.1.held, r.Released

section Acquisition

variable {o : Outcomes} {r : Resource} {rs : List Resource} {s : Skeleton} {retval : Int32}

theorem refusal_ne_zero (h : o.refusal r = some retval) : retval ≠ 0 := by
  cases r with
  | memory b | managed b =>
    simp only [Outcomes.refusal] at h
    split at h
    · cases h
    · cases h
      decide
  | device slot name =>
    simp only [Outcomes.refusal] at h
    split at h
    · cases h
    · next hne =>
      cases h
      exact hne

theorem grants_iff : o.grants r = true ↔ o.refusal r = none := Option.isNone_iff_eq_none

theorem takeWhile_append_granted (h : rs.findSome? o.refusal = none) (rs' : List Resource) :
    (rs ++ rs').takeWhile o.grants = rs.takeWhile o.grants ++ rs'.takeWhile o.grants ∧
      (rs ++ rs').findSome? o.refusal = rs'.findSome? o.refusal := by
  have hall : ∀ r ∈ rs, o.grants r = true := fun r hr =>
    grants_iff.mpr (List.findSome?_eq_none_iff.mp h r hr)
  rw [List.takeWhile_append_of_pos hall, List.takeWhile_eq_self_iff.mpr hall,
    List.findSome?_append, h]
  exact ⟨rfl, rfl⟩

theorem takeWhile_append_refused (h : rs.findSome? o.refusal = some retval)
    (rs' : List Resource) : (rs ++ rs').takeWhile o.grants = rs.takeWhile o.grants ∧
      (rs ++ rs').findSome? o.refusal = some retval := by
  refine ⟨?_, by rw [List.findSome?_append, h]; rfl⟩
  induction rs with
  | nil => cases h
  | cons r rs ih =>
    rw [List.cons_append, List.takeWhile_cons, List.takeWhile_cons]
    cases hr : o.refusal r with
    | some e =>
      have hg : o.grants r = false := by rw [Outcomes.grants, hr]; rfl
      rw [hg]
      rfl
    | none =>
      rw [List.findSome?_cons, hr] at h
      rw [grants_iff.mpr hr, if_pos rfl, if_pos rfl, ih h]

theorem registerAll_held (i : ℕ) (s : Skeleton) (left : ℕ) :
    (Skeleton.registerAll o i s left).1.held =
        s.held ++ (Setup.named i left).takeWhile o.grants ∧
      (Skeleton.registerAll o i s left).2 = (Setup.named i left).findSome? o.refusal := by
  induction left generalizing i s with
  | zero => exact ⟨(List.append_nil _).symm, rfl⟩
  | succ left ih =>
    rw [Skeleton.registerAll, Setup.named, List.range'_succ, List.map_cons]
    by_cases hret : o.register i = 0
    · obtain ⟨hheld, hnext⟩ := ih (i + 1)
        ((s.check ((miscName i).length < 10)).hold (.device i (miscName i)))
      rw [miscRegister_granted hret]
      simp only [ne_eq, not_true_eq_false, if_false, hheld, hnext]
      simp [Skeleton.check, Skeleton.hold, Outcomes.grants, Outcomes.refusal, hret, Setup.named]
    · rw [miscRegister_refused hret]
      simp [Skeleton.check, Outcomes.grants, Outcomes.refusal, hret]

theorem allocateArrays_held {mymisc : Pointer} (h : mymisc ≠ .zeroSize) (nb : ℤ)
    (s : Skeleton) : (s.allocateArrays o nb mymisc).1.held =
        s.held ++ (Setup.arrays nb).takeWhile o.grants ∧
      (s.allocateArrays o nb mymisc).2 =
        .returned (((Setup.arrays nb).findSome? o.refusal).getD 0) := by
  unfold Skeleton.allocateArrays Setup.arrays
  rw [if_neg h]
  by_cases hbuffer : bufferBytes nb = 0 <;> by_cases hsize : sizeBytes nb = 0 <;>
    cases hbuffer' : o.alloc .globalBuffer <;> cases hsize' : o.alloc .bufferSize <;>
    simp [Skeleton.kzalloc, Skeleton.hold, Outcomes.grants, Outcomes.refusal, hbuffer, hsize,
      hbuffer', hsize']

theorem behindLoop_held {loop : Skeleton × Option Int32}
    (hheld : loop.1.held = s.held ++ rs.takeWhile o.grants)
    (hret : loop.2 = rs.findSome? o.refusal) (nb : ℤ) :
    (Skeleton.behindLoop o nb .block loop).1.held =
        s.held ++ (rs ++ Setup.arrays nb).takeWhile o.grants ∧
      (Skeleton.behindLoop o nb .block loop).2 =
        .returned (((rs ++ Setup.arrays nb).findSome? o.refusal).getD 0) := by
  obtain ⟨t, error⟩ := loop
  cases error with
  | some retval =>
    obtain ⟨htake, hfind⟩ := takeWhile_append_refused hret.symm (Setup.arrays nb)
    rw [htake, hfind]
    exact ⟨hheld, rfl⟩
  | none =>
    obtain ⟨htake, hfind⟩ := takeWhile_append_granted hret.symm (Setup.arrays nb)
    obtain ⟨harrays, hexit⟩ := @allocateArrays_held o .block (by decide) nb t
    rw [htake, hfind, ← List.append_assoc, ← hheld]
    exact ⟨harrays, hexit⟩

theorem sizeT_eq_zero_iff {n : ℤ} (h : -2 ^ 64 < n) : sizeT n = 0 ↔ n = 0 := by
  unfold sizeT
  split <;> omega

theorem miscBytes_int32_ne_zero {n : Int32} (h : n ≠ 0) : miscBytes n.toInt ≠ 0 := by
  have hl := n.le_toInt
  have hne : n.toInt ≠ 0 := fun h0 => h (Int32.toInt_inj.mp h0)
  have hsize := (sizeT_eq_zero_iff (by omega)).not.mpr hne
  rw [miscBytes]
  omega

theorem miscBytes_nat_ne_zero {n : ℕ} (h : n ≠ 0) : miscBytes n ≠ 0 := by
  have hsize := (sizeT_eq_zero_iff (n := n) (by omega)).not.mpr (by omega)
  rw [miscBytes]
  omega

theorem kzalloc_mymisc {size : ℕ} (hsize : size ≠ 0) (s : Skeleton) :
    s.kzalloc o .mymisc size =
      if o.alloc .mymisc then (s.hold (.memory .mymisc), .block) else (s, .null) := if_neg hsize

theorem takeWhile_mymisc (h : o.alloc .mymisc = true) (rs : List Resource) :
    (.memory .mymisc :: rs).takeWhile o.grants = [.memory .mymisc] ++ rs.takeWhile o.grants ∧
      (.memory .mymisc :: rs).findSome? o.refusal = rs.findSome? o.refusal := by
  simp [Outcomes.grants, Outcomes.refusal, h]

theorem run_held {x : Setup} (hne : ¬ x.Empty) : (x.run o).1.held = x.wants.takeWhile o.grants ∧
    (x.run o).2 = .returned ((x.wants.findSome? o.refusal).getD 0) := by
  cases x with
  | init nbDevices =>
    simp only [Setup.run, Skeleton.skeletonInit, kzalloc_mymisc (miscBytes_int32_ne_zero hne)]
    cases hm : o.alloc .mymisc with
    | false =>
      simp [Setup.wants, Skeleton.empty, Outcomes.grants, Outcomes.refusal, hm]
    | true =>
      obtain ⟨hloop, hret⟩ := @registerAll_held o 0
        ({ Skeleton.empty with nbDevices := nbDevices.toInt.toNat }.hold (.memory .mymisc))
        nbDevices.toInt.toNat
      obtain ⟨hheld, hexit⟩ := behindLoop_held hloop hret nbDevices.toInt
      obtain ⟨htake, hfind⟩ := takeWhile_mymisc hm
        (Setup.named 0 nbDevices.toInt.toNat ++ Setup.arrays nbDevices.toInt)
      rw [Setup.wants, htake, hfind]
      exact ⟨hheld, hexit⟩
  | probe1 node =>
    simp only [Setup.run, Skeleton.skeletonProbe1, kzalloc_mymisc (miscBytes_nat_ne_zero hne)]
    cases hm : o.alloc .mymisc with
    | false =>
      simp [Setup.wants, Skeleton.empty, Outcomes.grants, Outcomes.refusal, hm]
    | true =>
      obtain ⟨htake, hfind⟩ := takeWhile_mymisc hm
        (wanted (node.getD []) 0 ++ Setup.arrays (countDeviceOn node))
      rw [Setup.wants, htake, hfind]
      cases node with
      | none => exact absurd rfl hne
      | some children =>
        obtain ⟨hloop, hret⟩ := @registerOn_held o children none 0
          ({ Skeleton.empty with nbDevices := countDeviceOn (some children) }.hold
            (.memory .mymisc))
        obtain ⟨hheld, hexit⟩ := behindLoop_held hloop hret (countDeviceOn (some children))
        exact ⟨hheld, hexit⟩
  | probe node => exact skeletonProbe_held o node

/-- The first device is read although there is none. -/
theorem behindLoop_zeroSize {loop : Skeleton × Option Int32} {nb : ℤ} (h : loop.2 = none) :
    (Skeleton.behindLoop o nb .zeroSize loop).2 = .oops := by
  obtain ⟨t, error⟩ := loop
  obtain rfl : error = none := h
  rfl

theorem run_empty {x : Setup} (h : x.Empty) : (x.run o).2 = .oops := by
  cases x with
  | init nbDevices =>
    obtain rfl : nbDevices = 0 := h
    rfl
  | probe1 node =>
    have hcount : countDeviceOn node = 0 := h
    cases node with
    | none => rfl
    | some children =>
      have hnone : wanted children 0 = [] := by
        rw [← List.length_eq_zero_iff, length_wanted, ← hcount, nbDevices_eq]
        rfl
      have hloop := (@registerOn_held o children none 0 { Skeleton.empty with nbDevices := 0 }).2
      rw [hnone] at hloop
      simp only [Setup.run, Skeleton.skeletonProbe1, hcount]
      exact behindLoop_zeroSize hloop
  | probe node => exact h.elim

/-- A function that returns an error is clean exactly if nothing is refused or nothing kept. -/
theorem clean_iff {x : Setup} (hne : ¬ x.Empty) : Clean (x.run o) ↔
    x.Granted o ∨ ∀ r ∈ x.wants.takeWhile o.grants, r.Released := by
  obtain ⟨hheld, hexit⟩ := run_held (o := o) hne
  unfold Clean Setup.Granted
  rw [hheld, hexit, ← List.findSome?_eq_none_iff]
  cases hfind : x.wants.findSome? o.refusal with
  | none =>
    refine iff_of_true (fun retval hret hne => ?_) (.inl rfl)
    obtain rfl := Exit.returned.inj hret
    exact absurd rfl hne
  | some retval =>
    obtain ⟨r, -, hr⟩ := List.exists_of_findSome?_eq_some hfind
    have herror : retval ≠ 0 := refusal_ne_zero hr
    simp only [Option.getD_some, reduceCtorEq, false_or]
    constructor
    · exact fun h => h retval rfl herror
    · exact fun h _ _ _ => h

theorem released_mymisc_iff (rs : List Resource) :
    (∀ r ∈ (.memory .mymisc :: rs).takeWhile o.grants, r.Released) ↔ o.alloc .mymisc = false := by
  cases hm : o.alloc .mymisc with
  | false => simp [Outcomes.grants, Outcomes.refusal, hm]
  | true =>
    rw [(takeWhile_mymisc hm rs).1]
    exact iff_of_false (fun h => h _ List.mem_cons_self) Bool.noConfusion

theorem wanted_cases (children : List Child) (i : ℕ) :
    wanted children i = [] ∨ ∃ name rs, wanted children i = .device i name :: rs := by
  unfold wanted
  cases (children.filter Child.isOn).map Child.fullName with
  | nil => exact .inl rfl
  | cons name names => exact .inr ⟨name, _, rfl⟩

theorem released_probe_iff {node : Option (List Child)} (h : ¬ (Setup.probe node).Granted o) :
    (∀ r ∈ (probeWanted node).takeWhile o.grants, r.Released) ↔
      o.alloc .privData = false ∨ o.alloc .priv = false ∨ o.register 0 ≠ 0 := by
  unfold probeWanted
  cases hdata : o.alloc .privData with
  | false => simp [Outcomes.grants, Outcomes.refusal, hdata]
  | true =>
    cases hpriv : o.alloc .priv with
    | false => simp [Outcomes.grants, Outcomes.refusal, hdata, hpriv, Resource.Released]
    | true =>
      rcases wanted_cases (node.getD []) 0 with hnone | ⟨name, rs, hsome⟩
      · refine absurd ?_ h
        simp [Setup.Granted, Setup.wants, probeWanted, hnone, Outcomes.refusal, hdata, hpriv]
      · rw [hsome]
        by_cases hret : o.register 0 = 0
        · simp [Outcomes.grants, Outcomes.refusal, hdata, hpriv, hret, Resource.Released]
        · simp [Outcomes.grants, Outcomes.refusal, hdata, hpriv, hret, Resource.Released]

/--
A failed initialisation leaves nothing behind exactly if the first resource that it would have to
give back is refused, or one in front of it.
-/
theorem failed_setup_clean_iff (o : Outcomes) (x : Setup) :
    Clean (x.run o) ↔ x.Empty ∨ x.Granted o ∨ x.RefusedAtOnce o := by
  by_cases hne : x.Empty
  · refine iff_of_true (fun retval hret _ => ?_) (.inl hne)
    rw [run_empty hne] at hret
    cases hret
  · rw [clean_iff hne, or_iff_right hne]
    refine or_congr_right' fun hgranted => ?_
    cases x with
    | init nbDevices => exact released_mymisc_iff _
    | probe1 node => exact released_mymisc_iff _
    | probe node => exact released_probe_iff hgranted

/-- The second of two devices is refused, and the first one stays registered. -/
theorem failed_setup_leaves_device : ¬ ∀ (o : Outcomes) (x : Setup), Clean (x.run o) := by
  intro hall
  let o : Outcomes := ⟨fun _ => true, fun slot => if slot = 1 then -16 else 0⟩
  have hclean := hall o (.init 2) (-16) (by decide) (by decide)
  exact hclean (.device 0 (miscName 0)) (by decide)

end Acquisition

end CSEL1.Misc
