import CSEL1.Misc.LastWrite

/-! # Writes whose copy from the user stops

A write copies straight over what its device stores, and stores the length only when the copy is
complete. A copy that stops leaves new bytes under the old length, zeros behind them, and the file
at its start.
-/

namespace CSEL1.Misc

open Memory Transition

structure Device.Same (d d' : Device) : Prop where
  size : d.bufferSize = d'.bufferSize
  bytes : ∀ i < d'.bufferSize, d.buffer i = d'.buffer i

/-- What a copy puts below the stored length was stored there before. -/
def Device.Agrees (d : Device) (copied : List UInt8) : Prop :=
  ∀ i < d.bufferSize, (copied[i]?).getD (d.buffer i) = d.buffer i

section Devices

variable {d d' : Device} {ppos : ℕ}

theorem Device.Same.read (h : d.Same d') (ppos : ℕ) (buf : Bool) (count : ℕ) (fault : Bool) :
    d.read ppos buf count fault = d'.read ppos buf count fault :=
  Device.read_congr h.size h.bytes ppos buf count fault

theorem Device.Same.write (h : d.Same d') (ppos ppos' : ℕ) (data : List UInt8) (stop : Option ℕ) :
    (d.write ppos data stop).1.Same (d'.write ppos' data stop).1 := by
  by_cases hacc : (0 < data.length ∧ data.length < 1024) ∧ (copyFromUser data stop).2 = 0
  · let w : Accepted := ⟨data, hacc.1.1, hacc.1.2⟩
    have hd : d.write ppos data stop = _ := d.write_accepted ppos w hacc.2
    have hd' : d'.write ppos' data stop = _ := d'.write_accepted ppos' w hacc.2
    rw [hd, hd']
    refine ⟨rfl, fun i hi => ?_⟩
    have hlt : i < (data ++ [0]).length := by
      rw [List.length_append]
      exact hi
    have hstore := store_eq_of_lt d.buffer d'.buffer 0 hlt
    rwa [Nat.zero_add] at hstore
  · have hsize : (d'.write ppos' data stop).1.bufferSize = d'.bufferSize := by
      rw [Device.bufferSize_write, if_neg hacc]
    refine ⟨?_, fun i hi => ?_⟩
    · rw [hsize, Device.bufferSize_write, if_neg hacc, h.size]
    · exact Device.buffer_write_congr (h.bytes i (hsize ▸ hi)) ppos ppos' data stop

theorem Device.read_unread (h : 0 < d.bufferSize → ppos < d.bufferSize) (buf : Bool) (count : ℕ)
    (fault : Bool) : d.read ppos buf count fault = d.read 0 buf count fault ∨
      d.read ppos buf count fault = (ppos, .zero) ∧ d.read 0 buf count fault = (0, .zero) := by
  have hend : d.bufferSize ≤ ppos ↔ d.bufferSize ≤ 0 := by omega
  simp only [Device.read, hend]
  split_ifs
  · exact .inr ⟨rfl, rfl⟩
  · exact .inr ⟨rfl, rfl⟩
  · exact .inr ⟨rfl, rfl⟩
  · exact .inl rfl

theorem Device.read_whole (d : Device) (h : ppos < d.bufferSize) :
    (d.read ppos true d.bufferSize false).2 =
      ⟨d.bufferSize, slice d.buffer 0 d.bufferSize⟩ :=
  congrArg Prod.snd (Device.read_eq (le_refl _) h)

theorem Device.write_stopped (d : Device) (ppos : ℕ) (w : Accepted) (k : Fin w.data.length) :
    d.write ppos w.data (some k) =
      ({ d with buffer := store d.buffer 0 (copyFromUser w.data (some k)).1 }, 0, .zero) := by
  have hpos := w.pos
  have hlt := w.lt
  have hk := k.isLt
  have hmissing : (copyFromUser w.data (some k)).2 ≠ 0 := by
    simp only [copyFromUser]
    omega
  simp only [Device.write]
  rw [if_neg (by omega), if_neg (by omega), if_pos hmissing]

theorem Device.ppos_write (d : Device) (ppos : ℕ) {data : List UInt8} (stop : Option ℕ)
    (h : 0 < data.length ∧ data.length < 1024) : (d.write ppos data stop).2.1 = 0 := by
  simp only [Device.write]
  split_ifs <;> first | rfl | omega

theorem Device.same_store_iff (d : Device) (copied : List UInt8) :
    Device.Same { d with buffer := store d.buffer 0 copied } d ↔ d.Agrees copied := by
  have hstore : ∀ i, store d.buffer 0 copied i = (copied[i]?).getD (d.buffer i) := by
    intro i
    have h := store_add d.buffer 0 copied i
    rwa [Nat.zero_add] at h
  constructor
  · intro h i hi
    rw [← hstore]
    exact h.bytes i hi
  · intro h
    exact ⟨rfl, fun i hi => (hstore i).trans (h i hi)⟩

end Devices

namespace Devices

variable {δ φ : Type*} [DecidableEq δ] [DecidableEq φ] (deviceOf : φ → δ)

/-- Every later read returns what it would have returned had the write not been issued. -/
def Unnoticed (s : Devices δ φ) (file : φ) (data : List UInt8) (stop : Option ℕ) : Prop :=
  ∀ (cs : List (Call φ)) (reader : φ) (buf : Bool) (count : ℕ) (fault : Bool),
    (run (next deviceOf) (s.next deviceOf (.write file data stop)) cs).result deviceOf
        (.read reader buf count fault) =
      (run (next deviceOf) s cs).result deviceOf (.read reader buf count fault)

/--
The file reads on as from its start: it is not at the end, and no other file can write a text that
ends in front of it.
-/
structure AtStart (s : Devices δ φ) (file : φ) : Prop where
  unread : 0 < (s.device (deviceOf file)).bufferSize →
    s.ppos file < (s.device (deviceOf file)).bufferSize
  alone : s.ppos file < 2 ∨ ∀ other, deviceOf other = deviceOf file → other = file

/-- A state that cannot be told from another one in which a file is at its start. -/
structure Follows (file : φ) (t s : Devices δ φ) : Prop where
  device : ∀ k, (t.device k).Same (s.device k)
  others : ∀ other, other ≠ file → t.ppos other = s.ppos other
  ppos : t.ppos file = s.ppos file ∨ t.ppos file = 0 ∧ s.AtStart deviceOf file

section Calls

variable {deviceOf} {s t : Devices δ φ} {file other : φ}

theorem next_write_refused (s : Devices δ φ) {data : List UInt8} (stop : Option ℕ)
    (h : ¬ (0 < data.length ∧ data.length < 1024)) :
    s.next deviceOf (.write file data stop) = s := by
  simp only [next, call, Device.write_refused h, Function.update_eq_self]

theorem bufferSize_next (deviceOf : φ → δ) (s : Devices δ φ) (c : Call φ) (i : δ) :
    ((s.next deviceOf c).device i).bufferSize = (s.device i).bufferSize ∨
      deviceOf c.file = i ∧ 2 ≤ ((s.next deviceOf c).device i).bufferSize := by
  cases c with
  | read reader buf count fault => exact .inl rfl
  | write writer data stop =>
    simp only [next, call, Call.file, Function.update_apply]
    split
    · next hi =>
      rw [Device.bufferSize_write, hi]
      split
      · exact .inr ⟨rfl, by omega⟩
      · exact .inl rfl
    · exact .inl rfl

theorem same_next (h : ∀ i, (t.device i).Same (s.device i)) (c : Call φ) (i : δ) :
    ((t.next deviceOf c).device i).Same ((s.next deviceOf c).device i) := by
  cases c with
  | read reader buf count fault => exact h i
  | write writer data stop =>
    simp only [next, call, Function.update_apply]
    split
    · exact (h (deviceOf writer)).write _ _ data stop
    · exact h i

theorem ppos_next_congr {c : Call φ}
    (h : (t.device (deviceOf c.file)).Same (s.device (deviceOf c.file)))
    (hpos : t.ppos c.file = s.ppos c.file) :
    (t.next deviceOf c).ppos c.file = (s.next deviceOf c).ppos c.file := by
  cases c with
  | read file buf count fault =>
    have hpos : t.ppos file = s.ppos file := hpos
    simp only [next, call, Call.file, Function.update_self, hpos]
    exact congrArg Prod.fst (h.read _ buf count fault)
  | write file data stop =>
    have hpos : t.ppos file = s.ppos file := hpos
    simp only [next, call, Call.file, Function.update_self, hpos]
    exact congrArg Prod.fst (Device.write_snd _ _ _ data stop)

theorem AtStart.next_other (h : s.AtStart deviceOf file) {c : Call φ} (hc : file ≠ c.file) :
    (s.next deviceOf c).AtStart deviceOf file := by
  refine ⟨?_, ?_⟩
  · rw [ppos_next_of_ne hc]
    have hunread := h.unread
    rcases bufferSize_next deviceOf s c (deviceOf file) with heq | ⟨hdevice, htwo⟩
    · rwa [heq]
    · -- another file of the device: the position is below every text it can write
      have hlt := h.alone.resolve_right fun halone => hc (halone c.file hdevice).symm
      omega
  · rw [ppos_next_of_ne hc]
    exact h.alone

theorem Follows.result_read (h : Follows deviceOf file t s) (reader : φ) (buf : Bool) (count : ℕ)
    (fault : Bool) : t.result deviceOf (.read reader buf count fault) =
      s.result deviceOf (.read reader buf count fault) := by
  simp only [result, call, (h.device _).read]
  by_cases hreader : reader = file
  · subst hreader
    rcases h.ppos with hpos | ⟨hzero, hstart⟩
    · rw [hpos]
    · rw [hzero]
      rcases Device.read_unread hstart.unread buf count fault with hr | ⟨hr, hr₀⟩
      · rw [hr]
      · rw [hr, hr₀]
  · rw [h.others reader hreader]

theorem Follows.ppos_next_own {c : Call φ} (h : Follows deviceOf c.file t s) :
    (t.next deviceOf c).ppos c.file = (s.next deviceOf c).ppos c.file ∨
      (t.next deviceOf c).ppos c.file = 0 ∧ (s.next deviceOf c).AtStart deviceOf c.file := by
  rcases h.ppos with hpos | ⟨hzero, hstart⟩
  · exact .inl (ppos_next_congr (h.device _) hpos)
  cases c with
  | read file buf count fault =>
    have hzero : t.ppos file = 0 := hzero
    have hstart : s.AtStart deviceOf file := hstart
    simp only [next, call, Call.file, (h.device _).read, Function.update_self, hzero]
    rcases Device.read_unread hstart.unread buf count fault with hr | ⟨hr, hr₀⟩
    · exact .inl (congrArg Prod.fst hr.symm)
    · refine .inr ⟨congrArg Prod.fst hr₀, ?_⟩
      rwa [hr, Function.update_eq_self]
  | write file data stop =>
    by_cases hlen : 0 < data.length ∧ data.length < 1024
    · left
      simp only [next, call, Call.file, Device.ppos_write _ _ stop hlen, Function.update_self]
    · rw [next_write_refused t stop hlen, next_write_refused s stop hlen]
      exact .inr ⟨hzero, hstart⟩

theorem Follows.next (h : Follows deviceOf file t s) (c : Call φ) :
    Follows deviceOf file (t.next deviceOf c) (s.next deviceOf c) := by
  refine ⟨same_next h.device c, fun other hother => ?_, ?_⟩
  · by_cases hc : other = c.file
    · subst hc
      exact ppos_next_congr (h.device _) (h.others _ hother)
    · rw [ppos_next_of_ne hc, ppos_next_of_ne hc]
      exact h.others other hother
  · by_cases hc : file = c.file
    · subst hc
      exact h.ppos_next_own
    · rw [ppos_next_of_ne hc, ppos_next_of_ne hc]
      refine h.ppos.imp_right ?_
      rintro ⟨hzero, hstart⟩
      exact ⟨hzero, hstart.next_other hc⟩

/-- What the failed write leaves follows the state in front of it. -/
theorem follows_stopped {w : Accepted} {k : Fin w.data.length} (hstart : s.AtStart deviceOf file)
    (hagrees : (s.device (deviceOf file)).Agrees (copyFromUser w.data (some k)).1) :
    Follows deviceOf file (s.next deviceOf (.write file w.data (some k))) s := by
  refine ⟨fun k' => ?_, fun other hother => ?_, .inr ⟨?_, hstart⟩⟩
  · simp only [Devices.next, call, Device.write_stopped, Function.update_apply]
    split
    · next hk =>
      rw [hk]
      exact (Device.same_store_iff _ _).mpr hagrees
    · exact ⟨rfl, fun _ _ => rfl⟩
  · exact Function.update_of_ne hother _ _
  · simp only [Devices.next, call, Device.write_stopped, Function.update_self]

/-- A read behind the failed write: the old length, and the new bytes. -/
theorem result_read_stopped (s : Devices δ φ) (file : φ) (w : Accepted) (k : Fin w.data.length)
    (hpos : 0 < (s.device (deviceOf file)).bufferSize) :
    (s.next deviceOf (.write file w.data (some k))).result deviceOf
        (.read file true (s.device (deviceOf file)).bufferSize false) =
      ⟨(s.device (deviceOf file)).bufferSize,
        slice (store (s.device (deviceOf file)).buffer 0 (copyFromUser w.data (some k)).1) 0
          (s.device (deviceOf file)).bufferSize⟩ := by
  simp only [Devices.next, result, call, Device.write_stopped, Function.update_self]
  exact Device.read_whole ⟨_, _⟩ hpos

theorem Unnoticed.unread {w : Accepted} {k : Fin w.data.length}
    (h : s.Unnoticed deviceOf file w.data (some k))
    (hpos : 0 < (s.device (deviceOf file)).bufferSize) :
    s.ppos file < (s.device (deviceOf file)).bufferSize := by
  by_contra hend
  have hprobe := h [] file true (s.device (deviceOf file)).bufferSize false
  have hdrained : s.Drained deviceOf file := Nat.le_of_not_lt hend
  simp only [run_nil, hdrained.result_read, result_read_stopped s file w k hpos] at hprobe
  exact absurd (congrArg Result.ret hprobe) hpos.ne'

theorem ret_read_single (s : Devices δ φ) (hdevice : deviceOf other = deviceOf file)
    (hother : other ≠ file) : ((s.next deviceOf (.write other [0] none)).result deviceOf
      (.read file true 2 false)).ret = if s.ppos file < 2 then 2 else 0 := by
  let single : Accepted := ⟨[0], by decide, by decide⟩
  have hwrite := (s.device (deviceOf file)).write_complete (s.ppos other) single
  have hppos : (s.next deviceOf (.write other [0] none)).ppos file = s.ppos file :=
    Function.update_of_ne (Ne.symm hother) _ _
  have hsize : ((s.next deviceOf (.write other [0] none)).device (deviceOf file)).bufferSize =
      2 := by
    simp only [Devices.next, call, hdevice, Function.update_self]
    exact congrArg (fun x => x.1.bufferSize) hwrite
  simp only [result, call, hppos]
  split
  · next hlt =>
    rw [Device.read_eq hsize.le (hsize ▸ hlt), hsize]
  · next hge =>
    rw [Device.read_of_nothing (.inr (by omega))]
    rfl

theorem Unnoticed.alone {w : Accepted} {k : Fin w.data.length}
    (h : s.Unnoticed deviceOf file w.data (some k)) (hpos : 2 ≤ s.ppos file) :
    ∀ other, deviceOf other = deviceOf file → other = file := by
  intro other hdevice
  by_contra hother
  have hzero : (s.next deviceOf (.write file w.data (some k))).ppos file = 0 := by
    simp only [Devices.next, call, Device.write_stopped, Function.update_self]
  have hprobe := congrArg Result.ret (h [.write other [0] none] file true 2 false)
  simp only [run_cons, run_nil, ret_read_single _ hdevice hother] at hprobe
  rw [hzero, if_pos Nat.two_pos, if_neg (by omega)] at hprobe
  exact absurd hprobe (by decide)

theorem Unnoticed.agrees {w : Accepted} {k : Fin w.data.length}
    (h : s.Unnoticed deviceOf file w.data (some k)) :
    (s.device (deviceOf file)).Agrees (copyFromUser w.data (some k)).1 := by
  rcases Nat.eq_zero_or_pos (s.device (deviceOf file)).bufferSize with hzero | hpos
  · intro i hi
    omega
  have hprobe := h [] file true (s.device (deviceOf file)).bufferSize false
  have hread : s.result deviceOf (.read file true (s.device (deviceOf file)).bufferSize false) =
      ⟨(s.device (deviceOf file)).bufferSize,
        slice (s.device (deviceOf file)).buffer 0 (s.device (deviceOf file)).bufferSize⟩ :=
    Device.read_whole _ (h.unread hpos)
  simp only [run_nil, hread, result_read_stopped s file w k hpos] at hprobe
  refine (Device.same_store_iff _ _).mp ⟨rfl, fun i hi => ?_⟩
  have heq := eq_of_slice_eq (congrArg Result.data hprobe) hi
  rwa [Nat.zero_add] at heq

theorem unnoticed_of_agrees {w : Accepted} {k : Fin w.data.length}
    (hstart : s.AtStart deviceOf file)
    (hagrees : (s.device (deviceOf file)).Agrees (copyFromUser w.data (some k)).1) :
    s.Unnoticed deviceOf file w.data (some k) := by
  intro cs reader buf count fault
  have hstep : ∀ (t s : Devices δ φ) c, Follows deviceOf file t s →
      Follows deviceOf file (t.next deviceOf c) (s.next deviceOf c) := fun _ _ c h => h.next c
  have hrun := run_related hstep (follows_stopped hstart hagrees) cs
  exact hrun.result_read reader buf count fault

theorem Unnoticed.atStart {w : Accepted} {k : Fin w.data.length}
    (h : s.Unnoticed deviceOf file w.data (some k)) : s.AtStart deviceOf file := by
  refine ⟨h.unread, ?_⟩
  rcases Nat.lt_or_ge (s.ppos file) 2 with hlt | hge
  · exact .inl hlt
  · exact .inr (h.alone hge)

end Calls

section Runs

variable (file : φ) (w : Accepted) (k : Fin w.data.length)

/--
A failed write goes unnoticed exactly if its file reads on as from its start, and the bytes that it
puts under the stored length were there before.
-/
theorem unnoticed_iff (s : Devices δ φ) :
    s.Unnoticed deviceOf file w.data (some k) ↔ s.AtStart deviceOf file ∧
      (s.device (deviceOf file)).Agrees (copyFromUser w.data (some k)).1 := by
  constructor
  · exact fun h => ⟨h.atStart, h.agrees⟩
  · rintro ⟨hstart, hagrees⟩
    exact unnoticed_of_agrees hstart hagrees

/-- A text of two bytes loses its first one to a write of which no byte is copied. -/
theorem failed_write_noticed :
    ¬ (run (next (id : Bool → Bool)) start [.write true [104, 105] none]).Unnoticed id true [120]
      (some 0) := by
  intro h
  exact absurd (h [] true true 3 false) (by decide)

structure Reached (s : Devices δ φ) : Prop where
  size : ∀ i, (s.device i).bufferSize = 0 ∨ 2 ≤ (s.device i).bufferSize
  ppos : ∀ file, s.ppos file = 0 ∨ 2 ≤ s.ppos file ∧
    0 < (s.device (deviceOf file)).bufferSize ∧
    ((∃ other, deviceOf other = deviceOf file ∧ other ≠ file) ∨
      (s.device (deviceOf file)).bufferSize ≤ s.ppos file)

variable {deviceOf} in
theorem reached_next {s : Devices δ φ} (h : s.Reached deviceOf) (c : Call φ) :
    (s.next deviceOf c).Reached deviceOf := by
  refine ⟨fun i => ?_, fun f => ?_⟩
  · rcases bufferSize_next deviceOf s c i with heq | ⟨-, htwo⟩
    · rw [heq]
      exact h.size i
    · exact .inr htwo
  by_cases hf : f = c.file
  · subst hf
    cases c with
    | read f buf count fault =>
      simp only [next, call, Call.file, Function.update_self]
      rcases (s.device (deviceOf f)).read_cases (s.ppos f) buf count fault with
        hr | ⟨-, -, hlt, hr⟩
      · rw [hr]
        exact h.ppos f
      · have hsize := (h.size (deviceOf f)).resolve_left (by omega)
        rw [hr]
        exact .inr ⟨hsize, by omega, .inr (le_refl _)⟩
    | write f data stop =>
      by_cases hlen : 0 < data.length ∧ data.length < 1024
      · left
        simp only [next, call, Call.file, Device.ppos_write _ _ stop hlen, Function.update_self]
      · rw [next_write_refused s stop hlen]
        exact h.ppos f
  · rw [ppos_next_of_ne hf]
    refine (h.ppos f).imp_right ?_
    rintro ⟨htwo, hpos, hend⟩
    refine ⟨htwo, ?_, ?_⟩
    · rcases bufferSize_next deviceOf s c (deviceOf f) with heq | ⟨-, hwritten⟩ <;> omega
    · by_cases hdevice : deviceOf c.file = deviceOf f
      · exact .inl ⟨c.file, hdevice, Ne.symm hf⟩
      · rwa [device_next_of_ne (Ne.symm hdevice)]

theorem reached_run (cs : List (Call φ)) : (run (next deviceOf) start cs).Reached deviceOf := by
  have hstart : (start : Devices δ φ).Reached deviceOf := ⟨fun _ => .inl rfl, fun _ => .inl rfl⟩
  have hstep : ∀ (s : Devices δ φ) c, s.Reached deviceOf → (s.next deviceOf c).Reached deviceOf :=
    fun _ c h => reached_next h c
  exact run_invariant hstep hstart cs

/-- After any calls: the file is at position 0, and the bytes agree. -/
theorem unnoticed_run_iff (cs : List (Call φ)) :
    (run (next deviceOf) start cs).Unnoticed deviceOf file w.data (some k) ↔
      (run (next deviceOf) start cs).ppos file = 0 ∧
      ((run (next deviceOf) start cs).device (deviceOf file)).Agrees
        (copyFromUser w.data (some k)).1 := by
  have hreached := reached_run deviceOf cs
  constructor
  · intro h
    refine ⟨?_, h.agrees⟩
    rcases hreached.ppos file with hzero | ⟨htwo, hpos, hend⟩
    · exact hzero
    · have hunread := h.unread hpos
      rcases hend with ⟨other, hdevice, hother⟩ | hle
      · exact absurd (h.alone htwo other hdevice) hother
      · omega
  · rintro ⟨hzero, hagrees⟩
    refine unnoticed_of_agrees ⟨fun hpos => ?_, .inl ?_⟩ hagrees
    · rwa [hzero]
    · rw [hzero]
      exact Nat.two_pos

end Runs

end Devices

end CSEL1.Misc
