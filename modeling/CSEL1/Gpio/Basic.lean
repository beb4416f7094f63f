import Mathlib.Logic.Function.Basic
import Mathlib.Data.List.Infix
import CSEL1.Transition.Basic

/-! # Pins in sysfs

The programs open their LEDs and buttons through `/sys/class/gpio`: the pin is taken
out of sysfs and put back, its direction and its edge are written, and its value is
opened. Each export makes a new `value` attribute; what was opened before stays behind.
-/

namespace CSEL1.Gpio

open Function Transition

inductive Edge | none | rising | both
  deriving DecidableEq, Repr

/-- Who has requested the pin. An attribute that is exported has an identity and an edge. -/
inductive Use
  | free
  | driver
  | sysfs (node : ℕ) (edge : Edge)
  deriving DecidableEq, Repr

structure Pin where
  use : Use
  output : Bool
  level : Bool
  deriving DecidableEq, Repr

structure Tree where
  pins : ℕ → Pin
  next : ℕ

inductive Call
  | writeUnexport (pin : ℕ)
  | writeExport (pin : ℕ)
  | writeDirection (pin : ℕ) (output : Bool)
  | writeEdge (pin : ℕ) (edge : Edge)
  | openValue (pin : ℕ)
  deriving DecidableEq, Repr

def Call.pin : Call → ℕ
  | .writeUnexport pin | .writeExport pin | .writeDirection pin _ | .writeEdge pin _
  | .openValue pin => pin

/--
The effect of a call on its pin. No result is checked by the programs, and what cannot be opened is
not written. A pin that interrupts cannot be an output, nor an output interrupt.
-/
def Call.effect (next : ℕ) (p : Pin) : Call → Pin
  | .writeUnexport _ =>
    match p.use with
    | .sysfs _ _ => { p with use := .free }
    | _ => p
  | .writeExport _ => if p.use = .free then { p with use := .sysfs next .none } else p
  | .writeDirection _ output =>
    match p.use with
    | .sysfs _ edge =>
      if output ∧ edge ≠ .none then p
      else { p with output := output, level := if output then false else p.level }
    | _ => p
  | .writeEdge _ edge =>
    match p.use with
    | .sysfs node _ => if p.output ∧ edge ≠ .none then p else { p with use := .sysfs node edge }
    | _ => p
  | .openValue _ => p

def Tree.perform (t : Tree) (c : Call) : Tree where
  pins := update t.pins c.pin (c.effect t.next (t.pins c.pin))
  next := t.next + 1

/-- What `open` of the value gives: the attribute, or `-1`. -/
def Tree.value (t : Tree) (pin : ℕ) : Option ℕ :=
  match (t.pins pin).use with
  | .sysfs node _ => some node
  | _ => none

structure State where
  tree : Tree
  todo : ℕ → List Call
  opened : ℕ → List (ℕ × Option ℕ)

def State.step (s : State) (i : ℕ) : State :=
  match s.todo i with
  | [] => s
  | call :: rest =>
    { tree := s.tree.perform call
      todo := update s.todo i rest
      opened := match call with
        | .openValue pin => update s.opened i (s.opened i ++ [(pin, s.tree.value pin)])
        | _ => s.opened }

/-- How a program opens a pin: only an input has an edge. -/
structure Opening where
  pin : ℕ
  output : Bool
  edge : Edge
  input : edge ≠ .none → output = false

def Opening.calls (o : Opening) : List Call :=
  [.writeUnexport o.pin, .writeExport o.pin, .writeDirection o.pin o.output] ++
    (if o.edge = .none then [] else [.writeEdge o.pin o.edge]) ++ [.openValue o.pin]

def outputPin (pin : ℕ) : Opening := ⟨pin, true, .none, nofun⟩

def inputPin (pin : ℕ) (edge : Edge) : Opening := ⟨pin, false, edge, fun _ => rfl⟩

/-- `open_pwr_led` of the daemon -/
def openPwrLed : Opening := outputPin 362

/-- `open_k1`, `open_k2` and `open_k3` of the daemon -/
def openK1 : Opening := inputPin 0 .both
def openK2 : Opening := inputPin 2 .both
def openK3 : Opening := inputPin 3 .both

/-- `open_led` of the blink example and of its predecessor, which only opens the LED -/
def openLed : Opening := outputPin 10

/-- `open_gpio` of the blink example, for the three buttons -/
def openGpio (pin : ℕ) : Opening := inputPin pin .rising

/-- `open_gpio` of the two measurements -/
def openGpiog11 : Opening := outputPin 203

inductive Program | daemon | blink | led | measurement
  deriving DecidableEq, Repr

def Program.openings : Program → List Opening
  | .daemon => [openPwrLed, openK1, openK2, openK3]
  | .blink => [openLed, openGpio 0, openGpio 2, openGpio 3]
  | .led => [openLed]
  | .measurement => [openGpiog11]

def Program.calls (p : Program) : List Call := p.openings.flatMap Opening.calls

/-- The descriptor still refers to the attribute of its pin. -/
def Alive (t : Tree) (pin node : ℕ) : Prop := t.value pin = some node

def Tree.Fresh (t : Tree) : Prop := ∀ pin node, t.value pin = some node → node < t.next

section Perform

variable {t : Tree} {c : Call} {pin node : ℕ}

theorem pins_perform_of_ne (h : pin ≠ c.pin) : (t.perform c).pins pin = t.pins pin :=
  update_of_ne h ..

theorem pins_perform_self (t : Tree) (c : Call) :
    (t.perform c).pins c.pin = c.effect t.next (t.pins c.pin) := update_self ..

theorem value_eq_some_iff :
    t.value pin = some node ↔ ∃ edge, (t.pins pin).use = .sysfs node edge := by
  unfold Tree.value
  cases (t.pins pin).use <;> simp

theorem use_unexport (next : ℕ) (p : Pin) (pin node : ℕ) (edge : Edge) :
    ((Call.writeUnexport pin).effect next p).use ≠ .sysfs node edge := by
  cases hp : p.use <;> simp [Call.effect, hp]

theorem use_effect (next : ℕ) (p : Pin) (c : Call) :
    (c.effect next p).use = p.use ∨
    (c = .writeUnexport c.pin ∧ (c.effect next p).use = .free ∧
      ∃ node edge, p.use = .sysfs node edge) ∨
    (c = .writeExport c.pin ∧ p.use = .free ∧ (c.effect next p).use = .sysfs next .none) ∨
    ∃ node edge edge', c = .writeEdge c.pin edge' ∧ p.use = .sysfs node edge ∧
      (c.effect next p).use = .sysfs node edge' := by
  cases c with
  | writeUnexport pin =>
    cases hp : p.use with
    | sysfs node edge => simp [Call.effect, Call.pin, hp]
    | _ => simp [Call.effect, hp]
  | writeExport pin =>
    by_cases hp : p.use = .free <;> simp [Call.effect, Call.pin, hp]
  | writeDirection pin output =>
    left
    simp only [Call.effect]
    split
    · split <;> rfl
    · rfl
  | writeEdge pin edge =>
    cases hp : p.use with
    | sysfs node edge' =>
      by_cases ho : p.output = true ∧ edge ≠ .none <;> simp [Call.effect, Call.pin, hp, ho]
    | _ => simp [Call.effect, hp]
  | openValue pin => exact Or.inl rfl

/-- The attribute of a pin is kept, or removed, or new. -/
theorem value_perform (h : (t.perform c).value pin = some node) :
    t.value pin = some node ∨ node = t.next := by
  obtain ⟨edge, hedge⟩ := value_eq_some_iff.mp h
  by_cases hpin : pin = c.pin
  · subst hpin
    rw [pins_perform_self] at hedge
    rcases use_effect t.next (t.pins c.pin) c with hsame | ⟨-, hfree, -⟩ | ⟨-, -, hnew⟩ |
      ⟨node', edge', edge'', -, hold, hnew⟩
    · exact Or.inl (value_eq_some_iff.mpr ⟨edge, hsame ▸ hedge⟩)
    · rw [hfree] at hedge
      cases hedge
    · rw [hnew] at hedge
      cases hedge
      exact Or.inr rfl
    · rw [hnew] at hedge
      cases hedge
      exact Or.inl (value_eq_some_iff.mpr ⟨edge', hold⟩)
  · rw [pins_perform_of_ne hpin] at hedge
    exact Or.inl (value_eq_some_iff.mpr ⟨edge, hedge⟩)

theorem alive_perform_iff (h : Alive t pin node) :
    Alive (t.perform c) pin node ↔ c ≠ .writeUnexport pin := by
  obtain ⟨edge, hedge⟩ := value_eq_some_iff.mp h
  unfold Alive
  rw [value_eq_some_iff]
  by_cases hpin : pin = c.pin
  · subst hpin
    rw [pins_perform_self]
    rcases use_effect t.next (t.pins c.pin) c with hsame | ⟨hc, hfree, -⟩ | ⟨-, hfree, -⟩ |
      ⟨node', edge', edge'', hc, hold, hnew⟩
    · refine iff_of_true ⟨edge, hsame.trans hedge⟩ ?_
      intro hc
      obtain ⟨pin', rfl⟩ : ∃ pin', c = .writeUnexport pin' := ⟨_, hc⟩
      exact use_unexport t.next _ pin' node edge (hsame.trans hedge)
    · refine iff_of_false ?_ (not_not.mpr hc)
      rintro ⟨edge', hedge'⟩
      rw [hfree] at hedge'
      cases hedge'
    · rw [hedge] at hfree
      cases hfree
    · rw [hedge] at hold
      cases hold
      refine iff_of_true ⟨edge'', hnew⟩ ?_
      rw [hc]
      nofun
  · rw [pins_perform_of_ne hpin]
    refine iff_of_true ⟨edge, hedge⟩ ?_
    rintro rfl
    exact hpin rfl

theorem Tree.Fresh.perform (h : t.Fresh) (c : Call) : (t.perform c).Fresh := by
  intro pin node hnode
  rcases value_perform hnode with hold | rfl
  · exact (h pin node hold).trans (Nat.lt_succ_self _)
  · exact Nat.lt_succ_self _

end Perform

namespace State

variable {s : State} {pin node : ℕ}

theorem tree_step (s : State) (i : ℕ) : (s.step i).tree =
    match s.todo i with
    | [] => s.tree
    | call :: _ => s.tree.perform call := by
  unfold step
  split <;> simp [*]

theorem fresh_step (h : s.tree.Fresh) (i : ℕ) : (s.step i).tree.Fresh := by
  rw [tree_step]
  split
  · exact h
  · exact h.perform _

def Unexports (pin : ℕ) (s : State) (i : ℕ) : Prop := (s.todo i).head? = some (.writeUnexport pin)

theorem alive_step_iff (h : Alive s.tree pin node) (i : ℕ) :
    Alive (s.step i).tree pin node ↔ ¬ s.Unexports pin i := by
  rw [tree_step]
  unfold Unexports
  cases hcalls : s.todo i with
  | nil => simpa using h
  | cons call rest => simpa using alive_perform_iff h

theorem lt_next_step (h : node < s.tree.next) (i : ℕ) : node < (s.step i).tree.next := by
  rw [tree_step]
  split
  · exact h
  · exact h.trans (Nat.lt_succ_self _)

theorem dead_step (hnode : node < s.tree.next) (hdead : ¬ Alive s.tree pin node) (i : ℕ) :
    ¬ Alive (s.step i).tree pin node := by
  rw [tree_step]
  split
  · exact hdead
  · intro halive
    rcases value_perform halive with hold | rfl
    · exact hdead hold
    · exact lt_irrefl _ hnode

theorem dead_run (hnode : node < s.tree.next) (hdead : ¬ Alive s.tree pin node)
    (es : List ℕ) : ¬ Alive (run step s es).tree pin node := by
  have hstep : ∀ s i, node < s.tree.next ∧ ¬ Alive s.tree pin node →
      node < (step s i).tree.next ∧ ¬ Alive (step s i).tree pin node := by
    rintro s i ⟨hnode, hdead⟩
    exact ⟨lt_next_step hnode i, dead_step hnode hdead i⟩
  exact (run_invariant hstep ⟨hnode, hdead⟩ es).2

theorem alive_iff_along (hfresh : s.tree.Fresh) (halive : Alive s.tree pin node) (es : List ℕ) :
    Alive (run step s es).tree pin node ↔ Along step (fun s i => ¬ s.Unexports pin i) s es := by
  induction es generalizing s with
  | nil => exact iff_of_true halive trivial
  | cons i es ih =>
    have hfresh' := fresh_step hfresh i
    have hstep := alive_step_iff halive i
    by_cases hi : s.Unexports pin i
    · refine iff_of_false ?_ fun h => h.1 hi
      have hdead : ¬ Alive (s.step i).tree pin node := fun h => hstep.mp h hi
      exact dead_run (lt_next_step (hfresh pin node halive) i) hdead es
    · exact (ih hfresh' (hstep.mpr hi)).trans ⟨fun h => ⟨hi, h⟩, And.right⟩

theorem todo_step_of_ne (s : State) {i l : ℕ} (hne : l ≠ i) : (s.step i).todo l = s.todo l := by
  unfold step
  split
  · rfl
  · exact update_of_ne hne ..

theorem todo_step_self (s : State) (i : ℕ) : (s.step i).todo i = (s.todo i).tail := by
  unfold step
  split
  · next h => rw [h, List.tail_nil]
  · next h => simp [h]

theorem todo_step_suffix (s : State) (i l : ℕ) : (s.step i).todo l <:+ s.todo l := by
  by_cases hl : l = i
  · subst hl
    rw [todo_step_self]
    exact List.tail_suffix _
  · rw [todo_step_of_ne s hl]

theorem todo_run_suffix (s : State) (es : List ℕ) (l : ℕ) : (run step s es).todo l <:+ s.todo l :=
  run_invariant (I := fun t : State => t.todo l <:+ s.todo l)
    (fun t i h => (todo_step_suffix t i l).trans h) List.suffix_rfl es

/-- The call made is another one, so this one is still to be made if it was. -/
theorem mem_todo_step_iff {j : ℕ} (hj : ¬ s.Unexports pin j) (i : ℕ) :
    .writeUnexport pin ∈ s.todo i ↔ .writeUnexport pin ∈ (s.step j).todo i := by
  by_cases hi : i = j
  · subst hi
    rw [todo_step_self]
    unfold Unexports at hj
    cases htodo : s.todo i with
    | nil => simp
    | cons call rest =>
      rw [htodo, List.head?_cons, Option.some_inj] at hj
      simp [Ne.symm hj]
  · rw [todo_step_of_ne s hi]

/-- Processes that take the pin out of sysfs once at most have not done so if they still will. -/
theorem along_iff_mem (honce : ∀ i, (s.todo i).Nodup) (es : List ℕ) :
    Along step (fun s i => ¬ s.Unexports pin i) s es ↔
      ∀ i, .writeUnexport pin ∈ s.todo i → .writeUnexport pin ∈ (run step s es).todo i := by
  induction es generalizing s with
  | nil => exact iff_of_true trivial fun i h => h
  | cons j es ih =>
    have honce' : ∀ i, ((s.step j).todo i).Nodup := fun i =>
      (honce i).sublist (todo_step_suffix s j i).sublist
    rw [run_cons]
    by_cases hj : s.Unexports pin j
    · refine iff_of_false (fun h => h.1 hj) fun h => ?_
      obtain ⟨rest, hrest⟩ := List.head?_eq_some_iff.mp hj
      have hmem := (todo_run_suffix (s.step j) es j).subset (h j (by simp [hrest]))
      rw [todo_step_self, hrest, List.tail_cons] at hmem
      have hnodup := honce j
      rw [hrest] at hnodup
      exact (List.nodup_cons.mp hnodup).1 hmem
    · simp only [mem_todo_step_iff hj]
      exact (and_iff_right hj).trans (ih honce')

theorem nodup_calls (p : Program) : p.calls.Nodup := by
  cases p <;> decide

/--
Whatever any number of processes do, a descriptor works exactly until one of them takes the pin out
of sysfs to open it for itself; then it is lost for good. Among the programs that is the case
exactly once one of them has begun to open the pin.
-/
theorem alive_run_iff (hfresh : s.tree.Fresh) (halive : Alive s.tree pin node) (es : List ℕ) :
    (Alive (run step s es).tree pin node ↔
        Along step (fun s i => ¬ s.Unexports pin i) s es) ∧
      ((∀ i, ∃ p : Program, s.todo i <:+ p.calls) →
        (Alive (run step s es).tree pin node ↔
          ∀ i, .writeUnexport pin ∈ s.todo i → .writeUnexport pin ∈ (run step s es).todo i)) := by
  have halong := alive_iff_along hfresh halive es
  refine ⟨halong, fun hprograms => halong.trans (along_iff_mem (fun i => ?_) es)⟩
  obtain ⟨p, hp⟩ := hprograms i
  exact (nodup_calls p).sublist hp.sublist

/-- A measurement has its output open while a second one is started. -/
def twoMeasurements : State where
  tree := ⟨fun pin => ⟨if pin = 203 then .sysfs 0 .none else .free, true, false⟩, 1⟩
  todo := fun i => if i = 1 then Program.measurement.calls else []
  opened := fun i => if i = 0 then [(203, some 0)] else []

theorem alive_run_iff_two : Alive (run step twoMeasurements [0, 0]).tree 203 0 ∧
    ¬ Alive (run step twoMeasurements [0, 1]).tree 203 0 := by
  have hfresh : twoMeasurements.tree.Fresh := by
    intro pin node hnode
    by_cases hpin : pin = 203
    · subst hpin
      cases hnode
      exact Nat.zero_lt_one
    · simp [twoMeasurements, Tree.value, hpin] at hnode
  have halive : Alive twoMeasurements.tree 203 0 := rfl
  have hprograms : ∀ i, ∃ p : Program, twoMeasurements.todo i <:+ p.calls := by
    intro i
    refine ⟨.measurement, ?_⟩
    by_cases hi : i = 1
    · simp [twoMeasurements, hi]
    · simp [twoMeasurements, hi]
  have hidle : ∀ i ≠ 1, twoMeasurements.todo i = [] := fun i hi => if_neg hi
  constructor
  · apply ((alive_run_iff hfresh halive [0, 0]).2 hprograms).mpr
    intro i hi
    by_cases hone : i = 1
    · subst hone
      exact hi
    · rw [hidle i hone] at hi
      cases hi
  · intro h
    have hmem := ((alive_run_iff hfresh halive [0, 1]).2 hprograms).mp h 1 List.mem_cons_self
    exact absurd hmem (by decide)

end State

end CSEL1.Gpio
