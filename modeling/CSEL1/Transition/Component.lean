import CSEL1.Transition.Basic

/-! # Components of a machine with outputs

The outputs of a run are kept with the events that gave them. A component of a machine
is simulated by a machine of its own when it only moves at some of the events, and
then its outputs are those of its own machine on these events. A machine whose steps take
effect now and then is simulated by one that only takes these effects.
-/

namespace Transition

variable {σ τ ε ο : Type*}

/-- The events of a run, each with its output. -/
def trace (step : σ → ε → σ) (out : σ → ε → ο) : σ → List ε → List (ε × ο)
  | _, [] => []
  | s, e :: es => (e, out s e) :: trace step out (step s e) es

section Rules

variable {step : σ → ε → σ} {out : σ → ε → ο} {step' : τ → ε → τ} {out' : τ → ε → ο}
  {R : σ → τ → Prop} {P : σ → ε → Prop} {p : ε → Bool}

theorem trace_related (hout : ∀ s t e, R s t → out s e = out' t e)
    (hstep : ∀ s t e, R s t → R (step s e) (step' t e)) {s : σ} {t : τ} (h : R s t)
    (es : List ε) : trace step out s es = trace step' out' t es := by
  induction es generalizing s t with
  | nil => rfl
  | cons e es ih =>
    have hrest := ih (hstep s t e h)
    simp only [trace, hrest, hout s t e h]

/-- What a whole machine puts out at the events of a component is what the component puts out. -/
theorem filter_trace
    (hout : ∀ s t e, R s t → P s e → p e = true → out s e = out' t e)
    (hstep : ∀ s t e, R s t → P s e → p e = true → R (step s e) (step' t e))
    (hother : ∀ s t e, R s t → p e = false → R (step s e) t)
    {s : σ} {t : τ} (h : R s t) {es : List ε} (hes : Along step P s es) :
    (trace step out s es).filter (fun x => p x.1) = trace step' out' t (es.filter p) := by
  induction es generalizing s t with
  | nil => rfl
  | cons e es ih =>
    cases hp : p e with
    | true =>
      have hrest := ih (hstep s t e h hes.1 hp) hes.2
      simp only [trace, List.filter_cons, hp, if_true, hrest, hout s t e h hes.1 hp]
    | false =>
      have hrest := ih (hother s t e h hp) hes.2
      simp only [trace, List.filter_cons, hp, if_false, hrest, Bool.false_eq_true]

end Rules

section Emission

/-- The outputs of a run, without the steps that put out nothing. -/
def emitted (step : σ → ε → σ) (out : σ → ε → Option ο) (s : σ) (es : List ε) : List ο :=
  (trace step out s es).filterMap Prod.snd

variable {step : σ → ε → σ} {out : σ → ε → Option ο} {s : σ}

@[simp] theorem emitted_nil (step : σ → ε → σ) (out : σ → ε → Option ο) (s : σ) :
    emitted step out s [] = [] := rfl

@[simp] theorem emitted_cons (e : ε) (es : List ε) :
    emitted step out s (e :: es) = (out s e).toList ++ emitted step out (step s e) es := by
  simp only [emitted, trace, List.filterMap_cons]
  cases out s e <;> rfl

/-- A machine is simulated by one that takes a step for each of its outputs. -/
theorem run_emitted {step' : τ → ο → τ} {R : σ → τ → Prop} {P : σ → ε → Prop}
    (hstep : ∀ s t e, R s t → P s e → R (step s e) (run step' t (out s e).toList))
    {t : τ} (h : R s t) {es : List ε} (hes : Along step P s es) :
    R (run step s es) (run step' t (emitted step out s es)) := by
  induction es generalizing s t with
  | nil => exact h
  | cons e es ih =>
    rw [emitted_cons, run_cons, run_append]
    exact ih (hstep s t e h hes.1) hes.2

end Emission

section Tally

variable {step : σ → ε → σ} {a b : σ → ε → Bool} {s : σ} {es : List ε}

def tally (step : σ → ε → σ) (p : σ → ε → Bool) (s : σ) (es : List ε) : ℕ :=
  (trace step p s es).countP Prod.snd

@[simp] theorem tally_nil (step : σ → ε → σ) (p : σ → ε → Bool) (s : σ) : tally step p s [] = 0 :=
  rfl

@[simp] theorem tally_cons (step : σ → ε → σ) (p : σ → ε → Bool) (s : σ) (e : ε) (es : List ε) :
    tally step p s (e :: es) = tally step p (step s e) es + (p s e).toNat := by
  simp only [tally, trace, List.countP_cons]
  cases p s e <;> rfl

/--
What is conserved by every step is conserved by a run: a quantity that each step raises by what
comes and lowers by what goes.
-/
theorem tally_conserved {I : σ → Prop} {P : σ → ε → Prop} {q : σ → ℕ}
    (hI : ∀ s e, I s → P s e → I (step s e))
    (hstep : ∀ s e, I s → P s e →
      q (step s e) + (b s e).toNat = q s + (a s e).toNat)
    (hs : I s) (h : Along step P s es) :
    q (run step s es) + tally step b s es = q s + tally step a s es := by
  induction es generalizing s with
  | nil => rfl
  | cons e es ih =>
    have hrest := ih (hI s e hs h.1) h.2
    have hfirst := hstep s e hs h.1
    rw [run_cons, tally_cons, tally_cons]
    omega

end Tally

end Transition
