import Mathlib.Data.List.Infix

/-! # Runs of a step function

A run is a starting state and a list of events. Invariants are proved of every
state a run visits, side conditions of every step it takes. When a condition is
exactly what one step needs to keep an invariant, it is exactly what a whole run
needs.
-/

namespace Transition

variable {σ ε : Type*}

/-- The state reached by taking the events in order. -/
def run (step : σ → ε → σ) (s : σ) (es : List ε) : σ := es.foldl step s

/-- Every state the run visits, the first one included, satisfies `I`. -/
def Always (step : σ → ε → σ) (I : σ → Prop) : σ → List ε → Prop
  | s, [] => I s
  | s, e :: es => I s ∧ Always step I (step s e) es

/-- Every step of the run satisfies `P` in the state it is taken from. -/
def Along (step : σ → ε → σ) (P : σ → ε → Prop) : σ → List ε → Prop
  | _, [] => True
  | s, e :: es => P s e ∧ Along step P (step s e) es

def both {τ : Type*} (step : σ → ε → σ) (step' : τ → ε → τ) (x : σ × τ) (e : ε) : σ × τ :=
  (step x.1 e, step' x.2 e)

/-- A partial step function made total: an event that is not enabled changes nothing. -/
def stutter (step? : σ → ε → Option σ) (s : σ) (e : ε) : σ := (step? s e).getD s

instance decidableAlways (step : σ → ε → σ) (I : σ → Prop) [DecidablePred I] :
    (s : σ) → (es : List ε) → Decidable (Always step I s es)
  | s, [] => inferInstanceAs (Decidable (I s))
  | s, e :: es =>
    have := decidableAlways step I (step s e) es
    inferInstanceAs (Decidable (I s ∧ Always step I (step s e) es))

instance decidableAlong (step : σ → ε → σ) (P : σ → ε → Prop) [∀ s e, Decidable (P s e)] :
    (s : σ) → (es : List ε) → Decidable (Along step P s es)
  | _, [] => inferInstanceAs (Decidable True)
  | s, e :: es =>
    have := decidableAlong step P (step s e) es
    inferInstanceAs (Decidable (P s e ∧ Along step P (step s e) es))

section Rules

variable {step : σ → ε → σ} {I J : σ → Prop} {P Q : σ → ε → Prop} {s : σ} {es : List ε}

@[simp] theorem run_nil (step : σ → ε → σ) (s : σ) : run step s [] = s := rfl

@[simp] theorem run_cons (step : σ → ε → σ) (s : σ) (e : ε) (es : List ε) :
    run step s (e :: es) = run step (step s e) es := rfl

@[simp] theorem run_append (step : σ → ε → σ) (s : σ) (es es' : List ε) :
    run step s (es ++ es') = run step (run step s es) es' := List.foldl_append

theorem Always.head (h : Always step I s es) : I s := by
  cases es with
  | nil => exact h
  | cons e es => exact h.1

theorem Always.last (h : Always step I s es) : I (run step s es) := by
  induction es generalizing s with
  | nil => exact h
  | cons e es ih => exact ih h.2

theorem Always.mono (h : Always step I s es) (hIJ : ∀ s, I s → J s) : Always step J s es := by
  induction es generalizing s with
  | nil => exact hIJ _ h
  | cons e es ih => exact ⟨hIJ _ h.1, ih h.2⟩

/-- The visited states are those reached by the prefixes of the run. -/
theorem always_iff_prefix :
    Always step I s es ↔ ∀ pre, pre <+: es → I (run step s pre) := by
  induction es generalizing s with
  | nil => simp [Always]
  | cons e es ih =>
    simp only [Always, ih]
    constructor
    · rintro ⟨hs, h⟩ pre hp
      rcases List.prefix_cons_iff.mp hp with rfl | ⟨t, rfl, ht⟩
      · exact hs
      · exact h t ht
    · intro h
      refine ⟨h [] List.nil_prefix, fun pre hp => ?_⟩
      exact h (e :: pre) (List.cons_prefix_cons.mpr ⟨rfl, hp⟩)

/-- An invariant kept by every step holds after every run. -/
theorem run_invariant (hstep : ∀ s e, I s → I (step s e)) (hs : I s) (es : List ε) :
    I (run step s es) := by
  induction es generalizing s with
  | nil => exact hs
  | cons e es ih => exact ih (hstep s e hs)

theorem always_of_along (hstep : ∀ s e, I s → P s e → I (step s e)) (hs : I s)
    (h : Along step P s es) : Always step I s es := by
  induction es generalizing s with
  | nil => exact hs
  | cons e es ih => exact ⟨hs, ih (hstep s e hs h.1) h.2⟩

/--
A condition exact for one step is exact for a run. The side invariant `J` may use that `I` has held
so far.
-/
theorem always_iff_along (hJ : ∀ s e, I s → J s → J (step s e))
    (hstep : ∀ s e, I s → J s → (I (step s e) ↔ P s e)) (hs : I s) (hs' : J s) :
    Always step I s es ↔ Along step P s es := by
  induction es generalizing s with
  | nil => exact ⟨fun _ => trivial, fun _ => hs⟩
  | cons e es ih =>
    constructor
    · rintro ⟨-, h⟩
      have he : I (step s e) := h.head
      exact ⟨(hstep s e hs hs').mp he, (ih he (hJ s e hs hs')).mp h⟩
    · rintro ⟨hP, h⟩
      have he : I (step s e) := (hstep s e hs hs').mpr hP
      exact ⟨hs, (ih he (hJ s e hs hs')).mpr h⟩

theorem along_iff_along (hPQ : ∀ s e, I s → (P s e ↔ Q s e))
    (hstep : ∀ s e, I s → Q s e → I (step s e)) (hs : I s) :
    Along step P s es ↔ Along step Q s es := by
  induction es generalizing s with
  | nil => exact Iff.rfl
  | cons e es ih =>
    simp only [Along, hPQ s e hs]
    exact and_congr_right fun hQ => ih (hstep s e hs hQ)

theorem along_of_forall (h : ∀ e ∈ es, ∀ s, P s e) : Along step P s es := by
  induction es generalizing s with
  | nil => trivial
  | cons e es ih =>
    exact ⟨h e List.mem_cons_self s, ih fun e' he' => h e' (List.mem_cons_of_mem e he')⟩

theorem Along.imp (h : Along step P s es) (hs : I s) (hstep : ∀ s e, I s → I (step s e))
    (hPQ : ∀ s e, I s → P s e → Q s e) : Along step Q s es := by
  induction es generalizing s with
  | nil => trivial
  | cons e es ih => exact ⟨hPQ s e hs h.1, ih h.2 (hstep s e hs)⟩

/-- A run that breaks a condition has a first step that breaks it. -/
theorem exists_first_break (h : ¬ Along step P s es) :
    ∃ pre e post, es = pre ++ e :: post ∧ Along step P s pre ∧ ¬ P (run step s pre) e := by
  induction es generalizing s with
  | nil => exact absurd trivial h
  | cons e es ih =>
    by_cases he : P s e
    · obtain ⟨pre, e', post, rfl, hpre, hbreak⟩ := ih fun hes => h ⟨he, hes⟩
      exact ⟨e :: pre, e', post, rfl, ⟨he, hpre⟩, hbreak⟩
    · exact ⟨[], e, es, rfl, trivial, he⟩

end Rules

section Both

variable {τ : Type*} {step : σ → ε → σ} {step' : τ → ε → τ}

@[simp] theorem run_both (s : σ) (t : τ) (es : List ε) :
    run (both step step') (s, t) es = (run step s es, run step' t es) := by
  induction es generalizing s t with
  | nil => rfl
  | cons e es ih => exact ih _ _

/-- A relation kept by every event holds after every run. -/
theorem run_related {R : σ → τ → Prop} (hstep : ∀ s t e, R s t → R (step s e) (step' t e))
    {s : σ} {t : τ} (h : R s t) (es : List ε) : R (run step s es) (run step' t es) := by
  induction es generalizing s t with
  | nil => exact h
  | cons e es ih => exact ih (hstep s t e h)

theorem along_both_left {P : σ → ε → Prop} (s : σ) (t : τ) (es : List ε) :
    Along (both step step') (fun x e => P x.1 e) (s, t) es ↔ Along step P s es := by
  induction es generalizing s t with
  | nil => exact Iff.rfl
  | cons e es ih => exact and_congr_right fun _ => ih _ _

theorem along_both_right {P : τ → ε → Prop} (s : σ) (t : τ) (es : List ε) :
    Along (both step step') (fun x e => P x.2 e) (s, t) es ↔ Along step' P t es := by
  induction es generalizing s t with
  | nil => exact Iff.rfl
  | cons e es ih => exact and_congr_right fun _ => ih _ _

end Both

section Stutter

variable {step? : σ → ε → Option σ} {I : σ → Prop}

theorem stutter_of_some {s t : σ} {e : ε} (h : step? s e = some t) :
    stutter step? s e = t := by
  simp [stutter, h]

theorem stutter_of_none {s : σ} {e : ε} (h : step? s e = none) : stutter step? s e = s := by
  simp [stutter, h]

theorem stutter_invariant (hstep : ∀ s e t, step? s e = some t → I s → I t) (s : σ) (e : ε)
    (hs : I s) : I (stutter step? s e) := by
  cases h : step? s e with
  | none => simpa [stutter, h] using hs
  | some t => simpa [stutter, h] using hstep s e t h hs

end Stutter

end Transition
