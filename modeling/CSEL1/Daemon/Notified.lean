import CSEL1.Daemon.EventLoop

/-! # Presses that reach their handlers

A button is read when its pin has changed since the last read, and the handler takes
the level it reads. Several changes may come before the read: what is lost is a press
that was released before, and nothing is taken for a press twice.
-/

namespace CSEL1.EventsThread

open Function Transition

def reported (s : EventsThread) (key : Key) : ℕ := s.sys.log.count (.pressed key)

/-- The button is down and its handler has not seen it. -/
def unread (s : EventsThread) (key : Key) : Bool := s.level key && s.notified key

def goesDown (key : Key) (s : EventsThread) : Move → Bool
  | .edge key' => key' == key && !s.level key
  | _ => false

/-- The button is released before it was read. -/
def slips (key : Key) (s : EventsThread) : Move → Bool
  | .edge key' => key' == key && s.unread key
  | _ => false

/-- The pins of the batch have changed since they were read. -/
structure Batched (s : EventsThread) : Prop where
  nodup : ∀ batch, s.turn = .handling batch → batch.Nodup
  notified : ∀ batch key, s.turn = .handling batch → .button key ∈ batch → s.notified key = true

def Reads (_ : EventsThread) : Move → Prop
  | .handle io _ => io.pread = true
  | _ => True

section Steps

variable {s t : EventsThread} {m : Move} {key : Key}

theorem pressed_iff {io : Io} (hio : io.pread = true) : s.Pressed io key ↔ s.level key = true := by
  have hup : ¬ (48 : UInt8) &&& 1 = 1 := by decide
  have hdown : (49 : UInt8) &&& 1 = 1 := by decide
  unfold Pressed gpio
  cases s.level key <;> simpa [hio]

theorem batched_handle {io : Io} {read : ThermalRead} {src : Source} {rest : List Source}
    (hs : s.Batched) (hturn : s.turn = .handling (src :: rest)) :
    (s.handle io read src rest).Batched := by
  obtain ⟨hsrc, hrest⟩ := List.nodup_cons.mp (hs.nodup _ hturn)
  constructor
  · rintro batch ⟨⟩
    exact hrest
  · rintro batch key ⟨⟩ hmem
    have hbefore := hs.notified _ key hturn (List.mem_cons_of_mem src hmem)
    cases src with
    | button key' =>
      have hne : key ≠ key' := by
        rintro rfl
        exact hsrc hmem
      cases hio : io.pread <;> simp [handle, hio, update_of_ne hne, hbefore]
    | _ => exact hbefore

theorem batched_of_turn (h : ∀ batch, s.turn ≠ .handling batch) : s.Batched :=
  ⟨fun batch hturn => absurd hturn (h batch), fun batch _ hturn => absurd hturn (h batch)⟩

theorem batched_step? (h : s.step? m = some t) (hs : s.Batched) : t.Batched := by
  cases m with
  | edge key =>
    cases h
    refine ⟨hs.nodup, fun batch key' hturn hmem => ?_⟩
    have hbefore := hs.notified batch key' hturn hmem
    by_cases hkey : key' = key
    · simp [hkey]
    · simpa [update_of_ne hkey] using hbefore
  | collect batch =>
    simp only [step?] at h
    split at h
    · next hready =>
      cases h
      constructor
      · rintro batch ⟨⟩
        exact hready.2.nodup
      · rintro batch key ⟨⟩ hmem
        exact (hready.2.button key).mp hmem
    · cases h
  | handle io read =>
    obtain ⟨src, rest, hturn, rfl⟩ := step?_handle h
    exact batched_handle hs hturn
  | test =>
    simp only [step?] at h
    split at h
    · cases h
      apply batched_of_turn
      intro batch
      cases s.sys.daemon.stopRequest <;> simp
    · cases h
  | interrupt =>
    simp only [step?] at h
    split at h
    · cases h
      constructor
      · rintro batch ⟨⟩
        exact List.nodup_nil
      · rintro batch key ⟨⟩ hmem
        cases hmem
    · cases h
  | exit =>
    simp only [step?] at h
    split at h
    · cases h
      apply batched_of_turn
      simp
    · cases h
  | elapse ns =>
    cases h
    exact ⟨hs.nodup, hs.notified⟩
  | message io m =>
    cases h
    exact ⟨hs.nodup, hs.notified⟩
  | callback read =>
    cases h
    exact ⟨hs.nodup, hs.notified⟩

theorem unread_of_level {key : Key} (hlevel : t.level key = s.level key)
    (hnotified : t.notified key = s.notified key) : t.unread key = s.unread key := by
  rw [unread, unread, hlevel, hnotified]

theorem handle_other (io : Io) (read : ThermalRead) (rest : List Source) {src : Source}
    (hsrc : src ≠ .button key) :
    (s.handle io read src rest).reported key = s.reported key ∧
      (s.handle io read src rest).unread key = s.unread key := by
  constructor
  · rcases s.handle_cases io read src rest with ⟨-, hsys, -⟩ | ⟨key', rfl, -, hlamp, -⟩ |
      ⟨-, -, hlamp, -⟩
    · rw [reported, hsys]
      rfl
    · have hne : Action.pressed key' ≠ .pressed key := by
        rintro ⟨⟩
        exact hsrc rfl
      exact (hlamp.pressed key).trans (List.count_cons_of_ne hne)
    · exact hlamp.pressed key
  · refine unread_of_level rfl ?_
    cases src with
    | button key' =>
      have hne : key ≠ key' := by
        rintro rfl
        exact hsrc rfl
      cases hio : io.pread <;> simp [handle, hio, update_of_ne hne]
    | _ => rfl

/-- A handler reports a press for each button that was down and not read. -/
theorem reported_handle {io : Io} {read : ThermalRead} {src : Source} {rest : List Source}
    (hio : io.pread = true) (hs : s.Batched) (hturn : s.turn = .handling (src :: rest)) :
    (s.handle io read src rest).reported key + ((s.handle io read src rest).unread key).toNat =
      s.reported key + (s.unread key).toNat := by
  by_cases hsrc : src = .button key
  · subst hsrc
    have hnotified : s.notified key = true := hs.notified _ key hturn List.mem_cons_self
    have hread : (s.handle io read (.button key) rest).unread key = false := by
      simp [unread, handle, hio]
    have hunread : s.unread key = s.level key := by simp [unread, hnotified]
    rw [hread, hunread]
    cases hlevel : s.level key with
    | true =>
      have hlamp := (handle_pressed read rest ((pressed_iff hio).mpr hlevel)).pressed key
      exact hlamp.trans List.count_cons_self
    | false =>
      have hup : ¬ s.Pressed io key := by simp [pressed_iff hio, hlevel]
      rw [reported, handle_released read rest hup]
      rfl
  · obtain ⟨hreported, hunread⟩ := handle_other (s := s) io read rest hsrc
    rw [hreported, hunread]

theorem pins_step? (h : s.step? m = some t) (hedge : ∀ key, m ≠ .edge key)
    (hhandle : ∀ io read, m ≠ .handle io read) : t.level = s.level ∧ t.notified = s.notified := by
  cases m with
  | edge key => exact absurd rfl (hedge key)
  | handle io read => exact absurd rfl (hhandle io read)
  | exit | test | collect batch | interrupt =>
    simp only [step?] at h
    split at h
    · cases h
      exact ⟨rfl, rfl⟩
    · cases h
  | elapse ns | message io m | callback read =>
    cases h
    exact ⟨rfl, rfl⟩

theorem reported_quiet (h : s.step? m = some t) (hedge : ∀ key, m ≠ .edge key)
    (hhandle : ∀ io read, m ≠ .handle io read) :
    t.reported key + (t.unread key).toNat + (slips key s m).toNat =
      s.reported key + (s.unread key).toNat + (goesDown key s m).toNat := by
  have hslips : slips key s m = false ∧ goesDown key s m = false := by
    cases m with
    | edge key => exact absurd rfl (hedge key)
    | _ => exact ⟨rfl, rfl⟩
  obtain ⟨hlevel, hnotified⟩ := pins_step? h hedge hhandle
  have hreported : t.reported key = s.reported key := by
    rcases step?_cases h with ⟨io, read, -, -, hmove, -⟩ | hb
    · exact absurd hmove (hhandle io read)
    · exact hb.lamp.pressed key
  rw [hslips.1, hslips.2, hreported, unread_of_level (congrFun hlevel key)
    (congrFun hnotified key)]

theorem reported_step? (h : s.step? m = some t) (hm : s.Reads m) (hs : s.Batched) :
    t.reported key + (t.unread key).toNat + (slips key s m).toNat =
      s.reported key + (s.unread key).toNat + (goesDown key s m).toNat := by
  cases m with
  | edge key' =>
    cases h
    by_cases hkey : key' = key
    · subst hkey
      cases hlevel : s.level key' <;> cases hnotified : s.notified key' <;>
        simp [slips, goesDown, unread, hlevel, hnotified, reported]
    · have hkey' : key ≠ key' := Ne.symm hkey
      simp [slips, goesDown, unread, reported, beq_false_of_ne hkey, update_of_ne hkey']
  | handle io read =>
    obtain ⟨src, rest, hturn, rfl⟩ := step?_handle h
    exact reported_handle hm hs hturn
  | elapse ns => exact reported_quiet h nofun nofun
  | message io m => exact reported_quiet h nofun nofun
  | callback read => exact reported_quiet h nofun nofun
  | exit => exact reported_quiet h nofun nofun
  | test => exact reported_quiet h nofun nofun
  | collect batch => exact reported_quiet h nofun nofun
  | interrupt => exact reported_quiet h nofun nofun

theorem reported_step (hm : s.Reads m) (hs : s.Batched) :
    (step s m).reported key + ((step s m).unread key).toNat + (slips key s m).toNat =
      s.reported key + (s.unread key).toNat + (goesDown key s m).toNat := by
  cases ht : s.step? m with
  | some t =>
    rw [step, stutter_of_some ht]
    exact reported_step? ht hm hs
  | none =>
    have hstep : step s m = s := by simp [step, stutter, ht]
    rw [hstep]
    cases m with
    | edge key' => cases ht
    | _ => rfl

end Steps

/--
In every run whose reads succeed, a press of a button is reported by its handler exactly once, or
it is released before it was read, or it is still to be read.
-/
theorem presses_conserved (sys : System) (now : ℕ) (level : Key → Bool) (key : Key)
    {ms : List Move} (hreads : Along step Reads (start sys now level) ms) :
    (run step (start sys now level) ms).reported key +
        ((run step (start sys now level) ms).unread key).toNat +
        tally step (slips key) (start sys now level) ms =
      (start sys now level).reported key + (level key).toNat +
        tally step (goesDown key) (start sys now level) ms := by
  have hstart : Batched (start sys now level) := by
    constructor
    · rintro batch ⟨⟩
      exact List.nodup_nil
    · exact fun _ _ _ _ => rfl
  have hunread : (start sys now level).unread key = level key := Bool.and_true _
  have hkept : ∀ s m, Batched s → Reads s m → Batched (step s m) := fun s m hs _ =>
    stutter_invariant (fun _ _ _ h hs => batched_step? h hs) s m hs
  have h := tally_conserved (q := fun s => s.reported key + (s.unread key).toNat) hkept
    (fun _ _ hs hm => reported_step hm hs) hstart hreads
  rwa [hunread] at h

/-- K1 is pressed, released and pressed again before the thread looks at it. -/
theorem presses_conserved_slip :
    let sys : System :=
      { driver := Driver.loaded
        lcd := Lcd.cleared
        daemon := ⟨0, 1, 0, false, .attribute, default, false, false⟩
        overrun := false
        log := [] }
    (run step (start sys 0 fun _ => false)
      [.edge .k1, .edge .k1, .edge .k1, .test, .collect [.button .k1, .button .k2, .button .k3],
        .handle .ok (.ok 0)]).reported .k1 = 1 := by
  intro sys
  have hreads : Along step Reads (start sys 0 fun _ => false)
      [.edge .k1, .edge .k1, .edge .k1, .test, .collect [.button .k1, .button .k2, .button .k3],
        .handle .ok (.ok 0)] :=
    ⟨trivial, trivial, trivial, trivial, trivial, rfl, trivial⟩
  exact Nat.add_right_cancel (presses_conserved sys 0 (fun _ => false) .k1 hreads)

end CSEL1.EventsThread
