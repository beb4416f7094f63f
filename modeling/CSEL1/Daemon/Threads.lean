import CSEL1.Daemon.Control

/-! # Two threads that set the mode

The main thread sets the mode for a client and the events thread for K3. Each
assigns the copy, reads it back as an argument, writes the mode file and draws
the mode line, and only the last of these is under the mutex.
-/

namespace CSEL1

open CText Transition

inductive Thread | main | events
  deriving DecidableEq, Repr

instance : Fintype Thread := ⟨{.main, .events}, fun t => by cases t <;> simp⟩

/-- How far a thread is with setting the mode. `loaded` holds the argument of `set_mode`. -/
inductive Pc
  | idle
  | assigned
  | loaded (mode : Int32)
  | written
  deriving DecidableEq, Repr

def Pc.WriteAhead : Pc → Prop
  | .assigned | .loaded _ => True
  | _ => False

instance (pc : Pc) : Decidable pc.WriteAhead := by
  cases pc <;> unfold Pc.WriteAhead <;> infer_instance

structure Threads where
  sys : System
  pc : Thread → Pc

/-- The atomic steps. A message sets the mode 0 or 1. -/
inductive Move
  | setmode (mode : Int32)
  | k3
  | load (t : Thread)
  | write (t : Thread)
  | draw (t : Thread)
  deriving DecidableEq, Repr

namespace Threads

def step? (s : Threads) : Move → Option Threads
  | .setmode mode =>
    if s.pc .main = .idle ∧ (mode = 0 ∨ mode = 1) then
      some ⟨s.sys.assignMode mode, Function.update s.pc .main .assigned⟩
    else none
  | .k3 =>
    if s.pc .events = .idle then
      some ⟨(s.sys.press .k3).assignMode (if s.sys.daemon.curMode = 0 then 1 else 0),
        Function.update s.pc .events .assigned⟩
    else none
  | .load t =>
    if s.pc t = .assigned then
      some { s with pc := Function.update s.pc t (.loaded s.sys.daemon.curMode) }
    else none
  | .write t =>
    match s.pc t with
    | .loaded mode => some ⟨s.sys.setMode .ok mode, Function.update s.pc t .written⟩
    | _ => none
  | .draw t =>
    if s.pc t = .written then
      some ⟨s.sys.lcdWriteMode, Function.update s.pc t .idle⟩
    else none

def step : Threads → Move → Threads := stutter step?

def start (d : Driver) (locals : Locals) : Threads :=
  ⟨System.published d locals, fun _ => .idle⟩

/-- With no handler in progress the copy, the driver and the mode line agree. -/
def QuietAgrees (s : Threads) : Prop :=
  (∀ t, s.pc t = .idle) →
    s.sys.daemon.curMode = System.getMode .ok s.sys.driver ∧
      s.sys.lcd.Shows 3 (modeText s.sys.daemon.curMode)

instance (s : Threads) : Decidable s.QuietAgrees :=
  inferInstanceAs (Decidable (_ → _ ∧ _))

/-- A mode is written that is still the copy, or that the other thread is going to overwrite. -/
def NotStale (s : Threads) : Move → Prop
  | .write t =>
    ∀ mode, s.pc t = .loaded mode →
      mode = s.sys.daemon.curMode ∨ ∃ t', t' ≠ t ∧ (s.pc t').WriteAhead
  | _ => True

section Handlers

variable (s : Threads)

/-- Taken without interruption, the steps of the main thread are the branch for `setmode`. -/
theorem run_setmode {mode : Int32} (h : s.pc .main = .idle) (hmode : mode = 0 ∨ mode = 1) :
    (run step s [.setmode mode, .load .main, .write .main, .draw .main]).sys =
      ((s.sys.assignMode mode).setMode .ok mode).lcdWriteMode := by
  simp [step, stutter, step?, h, hmode]

/-- Taken without interruption, the steps of the events thread are the action of K3. -/
theorem run_k3 (h : s.pc .events = .idle) :
    (run step s [.k3, .load .events, .write .events, .draw .events]).sys =
      (s.sys.press .k3).toggleMode .ok := by
  simp [step, stutter, step?, h, System.toggleMode]
  rfl

end Handlers

section Steps

variable {s t : Threads} {m : Move}

def Settled (s : Threads) : Prop := ∀ t, ¬ (s.pc t).WriteAhead

/-- Once no write is ahead, the driver has the mode of the copy. -/
def SettledAgrees (s : Threads) : Prop :=
  s.Settled → (s.sys.driver.mode = true ↔ s.sys.daemon.curMode ≠ 0)

structure Kept (s : Threads) : Prop where
  curMode_eq : s.sys.daemon.curMode = 0 ∨ s.sys.daemon.curMode = 1
  loaded_eq : ∀ t mode, s.pc t = .loaded mode → mode = 0 ∨ mode = 1
  line : (∀ t, s.pc t = .idle) → s.sys.lcd.Shows 3 (modeText s.sys.daemon.curMode)

theorem step?_cases (h : step? s m = some t) :
    (∃ mode, m = .setmode mode ∧ s.pc .main = .idle ∧ (mode = 0 ∨ mode = 1) ∧
      t = ⟨s.sys.assignMode mode, Function.update s.pc .main .assigned⟩) ∨
    (m = .k3 ∧ s.pc .events = .idle ∧
      t = ⟨(s.sys.press .k3).assignMode (if s.sys.daemon.curMode = 0 then 1 else 0),
        Function.update s.pc .events .assigned⟩) ∨
    (∃ i, m = .load i ∧ s.pc i = .assigned ∧
      t = { s with pc := Function.update s.pc i (.loaded s.sys.daemon.curMode) }) ∨
    (∃ i mode, m = .write i ∧ s.pc i = .loaded mode ∧
      t = ⟨s.sys.setMode .ok mode, Function.update s.pc i .written⟩) ∨
    (∃ i, m = .draw i ∧ s.pc i = .written ∧
      t = ⟨s.sys.lcdWriteMode, Function.update s.pc i .idle⟩) := by
  cases m with
  | setmode mode =>
    simp only [step?] at h
    split at h
    · next hpc => exact .inl ⟨mode, rfl, hpc.1, hpc.2, (Option.some.inj h).symm⟩
    · cases h
  | k3 =>
    simp only [step?] at h
    split at h
    · next hpc => exact .inr (.inl ⟨rfl, hpc, (Option.some.inj h).symm⟩)
    · cases h
  | load i =>
    simp only [step?] at h
    split at h
    · next hpc => exact .inr (.inr (.inl ⟨i, rfl, hpc, (Option.some.inj h).symm⟩))
    · cases h
  | write i =>
    simp only [step?] at h
    split at h
    · next mode hpc =>
      exact .inr (.inr (.inr (.inl ⟨i, mode, rfl, hpc, (Option.some.inj h).symm⟩)))
    · cases h
  | draw i =>
    simp only [step?] at h
    split at h
    · next hpc => exact .inr (.inr (.inr (.inr ⟨i, rfl, hpc, (Option.some.inj h).symm⟩)))
    · cases h

theorem not_quiet_update {pc : Thread → Pc} {i : Thread} {x : Pc} (hx : x ≠ .idle) :
    ¬ ∀ j, Function.update pc i x j = .idle := by
  intro h
  have hi := h i
  rw [Function.update_self] at hi
  exact hx hi

theorem kept_step? (h : step? s m = some t) (hs : s.Kept) : t.Kept := by
  obtain ⟨hmode, hloaded, hline⟩ := hs
  have hupdate : ∀ i x, (∀ mode, x = .loaded mode → mode = 0 ∨ mode = 1) →
      ∀ j mode, Function.update s.pc i x j = .loaded mode → mode = 0 ∨ mode = 1 :=
    fun i x hx => (Function.forall_update_iff s.pc
      fun _ x => ∀ mode, x = .loaded mode → mode = 0 ∨ mode = 1).mpr ⟨hx, fun j _ => hloaded j⟩
  rcases step?_cases h with ⟨mode, -, -, h01, rfl⟩ | ⟨-, -, rfl⟩ | ⟨i, -, -, rfl⟩ |
    ⟨i, mode, -, -, rfl⟩ | ⟨i, -, -, rfl⟩
  · exact ⟨h01, hupdate _ _ fun _ => Pc.noConfusion,
      fun hq => absurd hq (not_quiet_update Pc.noConfusion)⟩
  · refine ⟨?_, hupdate _ _ fun _ => Pc.noConfusion,
      fun hq => absurd hq (not_quiet_update Pc.noConfusion)⟩
    rw [System.assignMode_daemon]
    split
    · exact .inr rfl
    · exact .inl rfl
  · refine ⟨hmode, hupdate _ _ fun mode hx => ?_,
      fun hq => absurd hq (not_quiet_update Pc.noConfusion)⟩
    rw [← Pc.loaded.inj hx]
    exact hmode
  · refine ⟨?_, hupdate _ _ fun _ => Pc.noConfusion,
      fun hq => absurd hq (not_quiet_update Pc.noConfusion)⟩
    rw [System.setMode_daemon]
    exact hmode
  · exact ⟨hmode, hupdate _ _ fun _ => Pc.noConfusion, fun _ => Lcd.writeMode_shows _ _⟩

/-- A step keeps the settled states in agreement exactly if it writes no stale mode. -/
theorem settledAgrees_step?_iff (h : step? s m = some t) (hk : s.Kept) (hs : s.SettledAgrees) :
    t.SettledAgrees ↔ s.NotStale m := by
  have hunsettled : ∀ {sys i x}, Pc.WriteAhead x →
      SettledAgrees ⟨sys, Function.update s.pc i x⟩ := by
    intro sys i x hx hsettled
    have hi := hsettled i
    simp only [Function.update_self] at hi
    exact absurd hx hi
  rcases step?_cases h with ⟨mode, rfl, -, -, rfl⟩ | ⟨rfl, -, rfl⟩ | ⟨i, rfl, -, rfl⟩ |
    ⟨i, mode, rfl, hpc, rfl⟩ | ⟨i, rfl, hpc, rfl⟩
  · exact iff_of_true (hunsettled trivial) trivial
  · exact iff_of_true (hunsettled trivial) trivial
  · exact iff_of_true (hunsettled trivial) trivial
  · have hsettled : Settled ⟨s.sys.setMode .ok mode, Function.update s.pc i .written⟩ ↔
        ∀ j, j ≠ i → ¬ (s.pc j).WriteAhead :=
      (Function.forall_update_iff s.pc fun _ x => ¬ x.WriteAhead).trans
        (and_iff_right id)
    have hdriver : (s.sys.setMode .ok mode).driver.mode = true ↔ mode ≠ 0 := by
      rw [System.setMode_reaches .ok s.sys mode ⟨rfl, rfl⟩]
      exact bne_iff_ne
    -- both values are 0 or 1, so they agree as Booleans only if they are equal
    have hequal : (mode ≠ 0 ↔ s.sys.daemon.curMode ≠ 0) ↔ mode = s.sys.daemon.curMode := by
      rcases hk.loaded_eq i mode hpc with h | h <;> rcases hk.curMode_eq with h' | h' <;>
        rw [h, h'] <;> decide
    simp only [SettledAgrees, hsettled, hdriver, System.setMode_daemon, hequal]
    constructor
    · intro hagree mode' hpc'
      obtain rfl : mode = mode' := Pc.loaded.inj (hpc.symm.trans hpc')
      by_contra hstale
      obtain ⟨hne, hahead⟩ := not_or.mp hstale
      exact hne (hagree fun j hj hw => hahead ⟨j, hj, hw⟩)
    · intro hfresh hahead
      rcases hfresh mode hpc with h | ⟨j, hj, hw⟩
      · exact h
      · exact absurd hw (hahead j hj)
  · refine iff_of_true (fun hsettled => hs fun j => ?_) trivial
    by_cases hj : j = i
    · subst hj
      rw [hpc]
      exact id
    · have hne : ¬ (Function.update s.pc i .idle j).WriteAhead := hsettled j
      rwa [Function.update_of_ne hj] at hne

end Steps

section Runs

variable {s : Threads} {moves : List Move}

theorem kept_step (m : Move) (hs : s.Kept) : (step s m).Kept :=
  stutter_invariant (fun _ _ _ h => kept_step? h) s m hs

theorem settledAgrees_step_iff (m : Move) (hk : s.Kept) (hs : s.SettledAgrees) :
    (step s m).SettledAgrees ↔ s.NotStale m := by
  cases h : step? s m with
  | some t =>
    rw [step, stutter_of_some h]
    exact settledAgrees_step?_iff h hk hs
  | none =>
    have hstep : step s m = s := by
      simp [step, stutter, h]
    rw [hstep]
    refine iff_of_true hs ?_
    cases m with
    | write i =>
      intro mode hpc
      simp only [step?, hpc] at h
      cases h
    | _ => trivial

theorem Kept.quietAgrees (hk : s.Kept) (hs : s.SettledAgrees) : s.QuietAgrees := by
  intro hquiet
  have hsettled : s.Settled := by
    intro i
    rw [hquiet i]
    exact id
  refine ⟨?_, hk.line hquiet⟩
  have hmode := hs hsettled
  rw [System.getMode_ok]
  rcases hk.curMode_eq with h | h <;> rw [h] at hmode ⊢ <;> simp_all

theorem draw_step {i : Thread} (hi : ¬ (s.pc i).WriteAhead) :
    (step s (.draw i)).pc = Function.update s.pc i .idle ∧
      (step s (.draw i)).sys.driver = s.sys.driver ∧
      (step s (.draw i)).sys.daemon = s.sys.daemon := by
  cases hpc : s.pc i with
  | written => simp [step, stutter, step?, hpc]
  | idle =>
    have hsame : Function.update s.pc i .idle = s.pc := by rw [← hpc, Function.update_eq_self]
    simp [step, stutter, step?, hpc, hsame]
  | assigned =>
    rw [hpc] at hi
    exact absurd trivial hi
  | loaded mode =>
    rw [hpc] at hi
    exact absurd trivial hi

theorem not_quietAgrees_of_settled (hsettled : s.Settled) (hs : ¬ s.SettledAgrees) :
    ¬ (run step s [.draw .main, .draw .events]).QuietAgrees := by
  obtain ⟨hpc, hdriver, hdaemon⟩ := draw_step (hsettled .main)
  have hevents : ¬ ((step s (.draw .main)).pc .events).WriteAhead := by
    rw [hpc, Function.update_of_ne (by decide)]
    exact hsettled .events
  obtain ⟨hpc', hdriver', hdaemon'⟩ := draw_step hevents
  intro hquiet
  obtain ⟨hmode, -⟩ := hquiet fun i => by
    simp only [run_cons, run_nil, hpc', hpc]
    cases i <;> simp
  simp only [run_cons, run_nil, hdaemon', hdriver', hdaemon, hdriver, System.getMode_ok] at hmode
  refine hs fun _ => ?_
  rw [hmode]
  cases s.sys.driver.mode <;> simp

theorem curMode_start (d : Driver) (locals : Locals) :
    (start d locals).sys.daemon.curMode = if d.mode then 1 else 0 := System.getMode_ok d

theorem kept_start (d : Driver) (locals : Locals) : (start d locals).Kept := by
  refine ⟨?_, fun _ _ h => Pc.noConfusion h, fun _ => ?_⟩
  · rw [curMode_start]
    cases d.mode <;> simp
  · have hsys : (start d locals).sys = System.published d locals := rfl
    rw [hsys]
    exact System.shows_of_lineShown _ (System.lineShown_published d locals)

theorem settledAgrees_start (d : Driver) (locals : Locals) : (start d locals).SettledAgrees := by
  intro _
  have hmode : (start d locals).sys.driver.mode = d.mode := rfl
  rw [curMode_start, hmode]
  cases d.mode <;> simp

/--
In a run that writes no stale mode, the copy, the driver and the mode line agree whenever no handler
is in progress. A run that writes one can be completed, without a further request, so that they
disagree.
-/
theorem quietAgrees_of_notStale (d : Driver) (locals : Locals) (moves : List Move) :
    (Along step NotStale (start d locals) moves →
      Always step QuietAgrees (start d locals) moves) ∧
    (¬ Along step NotStale (start d locals) moves → ∃ pre, pre <+: moves ∧
      ¬ (run step (start d locals) (pre ++ [.draw .main, .draw .events])).QuietAgrees) := by
  have hkept := kept_start d locals
  have hstart := settledAgrees_start d locals
  constructor
  · intro hfresh
    have hboth : Always step (fun s => s.Kept ∧ s.SettledAgrees) (start d locals) moves :=
      always_of_along (fun s m hs hm =>
        ⟨kept_step m hs.1, (settledAgrees_step_iff m hs.1 hs.2).mpr hm⟩) ⟨hkept, hstart⟩ hfresh
    exact hboth.mono fun s hs => hs.1.quietAgrees hs.2
  · intro hstale
    have hiff : Always step SettledAgrees (start d locals) moves ↔
        Along step NotStale (start d locals) moves :=
      always_iff_along (J := Kept) (fun s m _ hk => kept_step m hk)
        (fun s m hs hk => settledAgrees_step_iff m hk hs) hstart hkept
    rw [← hiff, always_iff_prefix] at hstale
    push Not at hstale
    obtain ⟨pre, hpre, hdisagree⟩ := hstale
    have hsettled : (run step (start d locals) pre).Settled := by
      by_contra h
      exact hdisagree fun h' => absurd h' h
    refine ⟨pre, hpre, ?_⟩
    rw [run_append]
    exact not_quietAgrees_of_settled hsettled hdisagree

/-- A press of K3 between the argument and the write of a client's mode loses the press. -/
theorem press_lost :
    ¬ Always step QuietAgrees (start Driver.loaded default)
      [.setmode 1, .load .main, .k3, .load .events, .write .events, .draw .events, .write .main,
        .draw .main] := by
  intro h
  have hmode := (h.last fun t => by cases t <;> decide).1
  revert hmode
  decide

theorem quietAgrees_of_notStale_toggle :
    Always step QuietAgrees (start Driver.loaded default)
      [.setmode 1, .k3, .load .main, .load .events, .write .main, .write .events, .draw .main,
        .draw .events] :=
  (quietAgrees_of_notStale Driver.loaded default _).1
    ⟨trivial, trivial, trivial, trivial, fun _ h => .inl (Pc.loaded.inj h).symm,
      fun _ h => .inl (Pc.loaded.inj h).symm, trivial, trivial, trivial⟩

end Runs

end Threads

end CSEL1
