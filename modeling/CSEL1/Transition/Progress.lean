import CSEL1.Transition.Basic

/-! # Progress under fair schedules

A schedule is a list of the parties that take the steps. It is fair in rounds: in
each round every party is scheduled at least once, in any order and any number of
times. Where some party can always lower a rank, and keeps that chance while the
others step, the rank falls by one in every round.
-/

namespace Transition

variable {σ ι : Type*}

/-- Every party is scheduled in the round. -/
def FairRound (round : List ι) : Prop := ∀ i, i ∈ round

/--
In a state of positive rank every step lowers the rank, unless it is not the helper's and leaves
both the rank and the helper.
-/
structure Helped (step : σ → ι → σ) (I : σ → Prop) (rank : σ → ℕ) (helper : σ → ι) : Prop where
  kept : ∀ s i, I s → I (step s i)
  moves : ∀ s i, I s → rank s ≠ 0 → rank (step s i) < rank s ∨
    (i ≠ helper s ∧ rank (step s i) = rank s ∧ helper (step s i) = helper s)
  stays : ∀ s i, I s → rank s = 0 → rank (step s i) = 0

namespace Helped

variable {step : σ → ι → σ} {I : σ → Prop} {rank : σ → ℕ} {helper : σ → ι} {s : σ}

theorem rank_step_le (h : Helped step I rank helper) (hs : I s) (i : ι) :
    rank (step s i) ≤ rank s := by
  by_cases h0 : rank s = 0
  · exact (h.stays s i hs h0).le.trans (Nat.zero_le _)
  · rcases h.moves s i hs h0 with hlt | ⟨-, heq, -⟩
    · exact hlt.le
    · exact heq.le

theorem rank_run_le (h : Helped step I rank helper) (hs : I s) (es : List ι) :
    rank (run step s es) ≤ rank s := by
  induction es generalizing s with
  | nil => exact le_rfl
  | cons i es ih => exact (ih (h.kept s i hs)).trans (h.rank_step_le hs i)

theorem rank_run_lt (h : Helped step I rank helper) (hs : I s) (h0 : rank s ≠ 0)
    {es : List ι} (hmem : helper s ∈ es) : rank (run step s es) < rank s := by
  induction es generalizing s with
  | nil => cases hmem
  | cons i es ih =>
    have hrest := h.rank_run_le (h.kept s i hs) es
    rcases h.moves s i hs h0 with hlt | ⟨hne, heq, hsame⟩
    · exact hrest.trans_lt hlt
    · -- the helper is still to come, and is the helper of the next state
      have hmem : helper (step s i) ∈ es := by
        rw [hsame]
        exact (List.mem_cons.mp hmem).resolve_left hne.symm
      exact (ih (h.kept s i hs) (heq.trans_ne h0) hmem).trans_eq heq

/-- Each fair round takes one off the rank. -/
theorem rank_rounds (h : Helped step I rank helper) (hs : I s) {rounds : List (List ι)}
    (hfair : ∀ round ∈ rounds, FairRound round) :
    rank (run step s rounds.flatten) ≤ rank s - rounds.length := by
  induction rounds generalizing s with
  | nil => exact le_rfl
  | cons round rounds ih =>
    rw [List.flatten_cons, run_append]
    have hrest := ih (run_invariant h.kept hs round) fun r hr => hfair r (List.mem_cons_of_mem _ hr)
    have hround : rank (run step s round) ≤ rank s - 1 := by
      by_cases h0 : rank s = 0
      · exact (h.rank_run_le hs round).trans (by omega)
      · have := h.rank_run_lt hs h0 (hfair round List.mem_cons_self (helper s))
        omega
    simp only [List.length_cons]
    omega

theorem rank_eq_zero (h : Helped step I rank helper) (hs : I s) {rounds : List (List ι)}
    (hfair : ∀ round ∈ rounds, FairRound round) (hlen : rank s ≤ rounds.length) :
    rank (run step s rounds.flatten) = 0 := by
  have := h.rank_rounds hs hfair
  omega

end Helped

end Transition
