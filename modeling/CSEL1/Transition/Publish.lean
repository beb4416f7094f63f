import CSEL1.Transition.Mutex

/-! # Values written under a mutex

A shared value that is written by a call of its own, after each of its changes and by
the thread that has changed it. Whatever the other threads do meanwhile, once all of
them are idle the last call of its kind has written the value as it is.
-/

namespace Mutex

open Transition

variable {ι σ α : Type*}

/-- The code still calls `w` after each assignment that changes what it sends. -/
def Publishes (w : σ → List α) : List (Stmt σ α) → Prop
  | [] => True
  | .assign f :: k => ((∀ x, w (f x) = w x) ∨ .call w ∈ k) ∧ Publishes w k
  | .lock :: k | .unlock :: k | .call _ :: k | .send _ :: k => Publishes w k

/-- A call of the code is `w`, or it is of another kind. -/
def Apart (w : σ → List α) (Own : List α → Prop) (code : List (Stmt σ α)) : Prop :=
  ∀ body, .call body ∈ code → body = w ∨ ∀ x, ¬ Own (body x)

def pending (x : σ) : List (Stmt σ α) → List α
  | .call body :: _ => body x
  | .send a :: k => a :: pending x k
  | _ => []

/-- What code leaves in the shared variables when no other thread runs. -/
def after : σ → List (Stmt σ α) → σ
  | x, [] => x
  | x, .assign f :: k => after (f x) k
  | x, .lock :: k | x, .unlock :: k | x, .call _ :: k | x, .send _ :: k => after x k

def Latest (Own : List α → Prop) (done : List (ι × List α)) (ys : List α) : Prop :=
  ∃ pre t post, done = pre ++ (t, ys) :: post ∧ ∀ x ∈ post, ¬ Own x.2

section Code

variable {w : σ → List α} {Own : List α → Prop} {S : List α → Prop} {k : List (Stmt σ α)}

@[simp] theorem pending_sends (x : σ) (xs : List α) :
    pending x (xs.map .send ++ .unlock :: k) = xs := by
  induction xs with
  | nil => rfl
  | cons a xs ih => exact congrArg (a :: ·) ih

@[simp] theorem publishes_sends (xs : List α) :
    Publishes w (xs.map .send ++ k) ↔ Publishes w k := by
  induction xs with
  | nil => exact Iff.rfl
  | cons a xs ih => exact ih

@[simp] theorem after_sends (x : σ) (xs : List α) : after x (xs.map .send ++ k) = after x k := by
  induction xs with
  | nil => rfl
  | cons a xs ih => exact ih

theorem call_mem_sends {body : σ → List α} {xs : List α}
    (h : .call body ∈ (xs.map Stmt.send ++ k : List (Stmt σ α))) : .call body ∈ k := by
  rcases List.mem_append.mp h with h | h
  · obtain ⟨a, -, ha⟩ := List.mem_map.mp h
    cases ha
  · exact h

theorem Apart.tail {c : Stmt σ α} (h : Apart w Own (c :: k)) : Apart w Own k :=
  fun body hbody => h body (List.mem_cons_of_mem c hbody)

theorem Apart.sends (h : Apart w Own k) (xs : List α) : Apart w Own (xs.map .send ++ k) :=
  fun body hbody => h body (call_mem_sends hbody)

theorem latest_concat (done : List (ι × List α)) (t : ι) (ys : List α) :
    Latest Own (done ++ [(t, ys)]) ys :=
  ⟨done, t, [], rfl, by simp⟩

theorem Latest.append {done : List (ι × List α)} {ys : List α} (h : Latest Own done ys)
    {x : ι × List α} (hx : ¬ Own x.2) : Latest Own (done ++ [x]) ys := by
  obtain ⟨pre, t, post, rfl, hpost⟩ := h
  refine ⟨pre, t, post ++ [x], by simp, ?_⟩
  intro y hy
  rcases List.mem_append.mp hy with hy | hy
  · exact hpost y hy
  · rwa [List.mem_singleton.mp hy]

end Code

section Threads

/-- The code of every thread writes the value after it has changed it, with calls of one kind. -/
structure Orderly (w : σ → List α) (Own : List α → Prop) (s : State ι σ α) : Prop where
  publishes : ∀ t, Publishes w (s.code t)
  apart : ∀ t, Apart w Own (s.code t)

/--
The value is still to be written, or it is what is being written, or it has been written and the
call that is being made is of another kind.
-/
inductive Current (S : List α → Prop) (base : List (ι × α)) (w : σ → List α)
    (Own : List α → Prop) (s : State ι σ α) : Prop
  | owed (t : ι) : Kept S base s → .call w ∈ s.code t → Current S base w Own s
  | free (done : List (ι × List α)) : s.holder = none → (∀ t, Guarded S (s.code t)) →
      (∀ x ∈ done, S x.2) → s.log = base ++ done.flatMap tagged →
      Latest Own done (w s.shared) → Current S base w Own s
  | held (t : ι) (done : List (ι × List α)) (sent : List α) : s.holder = some t →
      (∀ t', t' ≠ t → Guarded S (s.code t')) → Inside S sent (s.code t) →
      (∀ x ∈ done, S x.2) → s.log = base ++ (done.flatMap tagged ++ tagged (t, sent)) →
      (sent ++ pending s.shared (s.code t) = w s.shared ∨
        ¬ Own (sent ++ pending s.shared (s.code t)) ∧ Latest Own done (w s.shared)) →
      Current S base w Own s

variable {S : List α → Prop} {base : List (ι × α)} {w : σ → List α} {Own : List α → Prop}
  {s : State ι σ α}

theorem Current.kept (h : Current S base w Own s) : Kept S base s := by
  cases h with
  | owed t hkept _ => exact hkept
  | free done hfree hg hS hlog _ => exact .free done hfree hg hS hlog
  | held t done sent hheld hg hin hS hlog _ => exact .held t done sent hheld hg hin hS hlog

theorem Kept.rebase {base' : List (ι × α)} {first : List (ι × List α)} (h : Kept S base s)
    (hbase : base = base' ++ first.flatMap tagged) (hfirst : ∀ x ∈ first, S x.2) :
    Kept S base' s := by
  subst hbase
  have happend : ∀ {done : List (ι × List α)}, (∀ x ∈ done, S x.2) →
      ∀ x ∈ first ++ done, S x.2 := by
    intro done hS x hx
    rcases List.mem_append.mp hx with hx | hx
    · exact hfirst x hx
    · exact hS x hx
  cases h with
  | free done hfree hg hS hlog =>
    exact .free (first ++ done) hfree hg (happend hS) (by simpa using hlog)
  | held t done sent hheld hg hin hS hlog =>
    exact .held t (first ++ done) sent hheld hg hin (happend hS) (by simpa using hlog)

/-- Once all threads are idle the value has been written as it is. -/
theorem Current.idle (h : Current S base w Own s) (hidle : ∀ t, s.code t = []) :
    ∃ done, (∀ x ∈ done, S x.2) ∧ s.log = base ++ done.flatMap tagged ∧
      Latest Own done (w s.shared) := by
  cases h with
  | owed t _ hmem =>
    rw [hidle t] at hmem
    cases hmem
  | free done _ _ hS hlog hlast => exact ⟨done, hS, hlog, hlast⟩
  | held t _ _ _ _ hin _ _ _ => exact absurd (hidle t) hin.ne_nil

end Threads

section Steps

variable [DecidableEq ι] {S : List α → Prop} {base : List (ι × α)} {w : σ → List α}
  {Own : List α → Prop} {s s' : State ι σ α} {t : ι} {code : List (Stmt σ α)}

theorem forall_code_update {P : List (Stmt σ α) → Prop} (h : ∀ t, P (s.code t)) (hk : P code)
    (t' : ι) : P (Function.update s.code t code t') :=
  (Function.forall_update_iff s.code fun _ => P).mpr ⟨hk, fun t' _ => h t'⟩ t'

theorem orderly_tick? (h : tick? t s = some s') (hs : Orderly w Own s) : Orderly w Own s' := by
  obtain ⟨hp, ha⟩ := hs
  have hpt := hp t
  have hat := ha t
  rcases tick?_cases h with ⟨f, k, hc, rfl⟩ | ⟨k, hc, -, rfl⟩ | ⟨k, hc, rfl⟩ |
    ⟨body, k, hc, rfl⟩ | ⟨a, k, hc, rfl⟩ <;>
    rw [hc] at hpt hat
  · exact ⟨forall_code_update hp hpt.2, forall_code_update ha hat.tail⟩
  · exact ⟨forall_code_update hp hpt, forall_code_update ha hat.tail⟩
  · exact ⟨forall_code_update hp hpt, forall_code_update ha hat.tail⟩
  · exact ⟨forall_code_update hp ((publishes_sends _).mpr hpt),
      forall_code_update ha (hat.tail.sends _)⟩
  · exact ⟨forall_code_update hp hpt, forall_code_update ha hat.tail⟩

theorem orderly_begin? (h : begin? t code s = some s') (hp : Publishes w code)
    (ha : Apart w Own code) (hs : Orderly w Own s) : Orderly w Own s' := by
  obtain ⟨-, rfl⟩ := begin?_eq h
  exact ⟨forall_code_update hs.publishes hp, forall_code_update hs.apart ha⟩

theorem owed_of_assign {f : σ → σ} (hp : Publishes w (.assign f :: code))
    (hne : ∃ x, w (f x) ≠ w x) : .call w ∈ code := by
  obtain ⟨x, hx⟩ := hne
  exact hp.1.resolve_left fun hsame => hx (hsame x)

theorem mem_code_tick? (h : tick? t s = some s') {t₀ : ι} (hmem : .call w ∈ s.code t₀) :
    .call w ∈ s'.code t₀ ∨ (t₀ = t ∧ ∃ k, s.code t = .call w :: k) := by
  by_cases ht : t₀ = t
  · subst ht
    rcases tick?_cases h with ⟨f, k, hc, rfl⟩ | ⟨k, hc, -, rfl⟩ | ⟨k, hc, rfl⟩ |
      ⟨body, k, hc, rfl⟩ | ⟨a, k, hc, rfl⟩ <;>
      rw [hc] at hmem
    · left
      simpa using hmem
    · left
      simpa using hmem
    · left
      simpa using hmem
    · rcases List.mem_cons.mp hmem with hbody | hk
      · cases hbody
        exact Or.inr ⟨rfl, k, hc⟩
      · left
        simp [hk]
    · left
      simpa using hmem
  · rw [tick?_code_other h ht]
    exact Or.inl hmem

theorem current_call {k : List (Stmt σ α)} (h : tick? t s = some s') (hs : Kept S base s)
    (hc : s.code t = .call w :: k) : Current S base w Own s' := by
  have he : s' = { s with code := Function.update s.code t ((w s.shared).map .send ++ k) } := by
    simpa [tick?, hc] using h.symm
  have hs' := kept_tick? h hs
  subst he
  cases hs with
  | free done hfree hg hS hlog =>
    have ht := hg t
    rw [hc] at ht
    exact absurd ht (not_guarded_call w k)
  | held t₀ done sent hheld hg hin hS hlog =>
    by_cases ht : t = t₀
    · subst ht
      generalize hcode : s.code t = code at hin
      rw [hc] at hcode
      cases hin with
      | @before body k hbody hk =>
        cases hcode
        refine .held t done [] hheld (others_update hg) (inside_update
          (.during (hbody s.shared) hk)) hS hlog (Or.inl ?_)
        simp
      | @during sent rest k hsent hk =>
        cases rest <;> cases hcode
    · have hg' := hg t ht
      rw [hc] at hg'
      exact absurd hg' (not_guarded_call w k)

theorem current_tick?_owed {t₀ : ι} (h : tick? t s = some s') (hkept : Kept S base s)
    (hmem : .call w ∈ s.code t₀) : Current S base w Own s' := by
  rcases mem_code_tick? h hmem with hmem' | ⟨-, k, hc⟩
  · exact .owed t₀ (kept_tick? h hkept) hmem'
  · exact current_call h hkept hc

theorem current_tick?_free {done : List (ι × List α)} (h : tick? t s = some s')
    (ho : Orderly w Own s) (hfree : s.holder = none) (hg : ∀ t, Guarded S (s.code t))
    (hS : ∀ x ∈ done, S x.2) (hlog : s.log = base ++ done.flatMap tagged)
    (hlast : Latest Own done (w s.shared)) : Current S base w Own s' := by
  have hkept : Kept S base s' := kept_tick? h (.free done hfree hg hS hlog)
  have ht := hg t
  have hpt := ho.publishes t
  have hat := ho.apart t
  rcases tick?_cases h with ⟨f, k, hc, rfl⟩ | ⟨k, hc, -, rfl⟩ | ⟨k, hc, rfl⟩ |
    ⟨body, k, hc, rfl⟩ | ⟨a, k, hc, rfl⟩ <;>
    rw [hc] at ht hpt hat
  · by_cases hne : ∃ x, w (f x) ≠ w x
    · exact .owed t hkept (by simpa using owed_of_assign hpt hne)
    · push Not at hne
      exact .free done hfree (guarded_update (fun t' _ => hg t') ht) hS hlog
        ((hne s.shared).symm ▸ hlast)
  · obtain ⟨body, k', rfl, hbody, hk⟩ := ht.of_lock
    refine .held t done [] rfl (others_update fun t' _ => hg t')
      (inside_update (.before hbody hk)) hS (by simpa using hlog) ?_
    rcases hat body (by simp) with rfl | hother
    · left
      simp [pending]
    · right
      exact ⟨by simpa [pending] using hother s.shared, hlast⟩
  · exact absurd ht (not_guarded_unlock k)
  · exact absurd ht (not_guarded_call body k)
  · exact absurd ht (not_guarded_send a k)

theorem current_tick?_other {t₀ : ι} {done : List (ι × List α)} {sent : List α}
    (hown : ∀ x, Own (w x)) (h : tick? t s = some s') (ho : Orderly w Own s) (ht : t ≠ t₀)
    (hheld : s.holder = some t₀) (hg : ∀ t', t' ≠ t₀ → Guarded S (s.code t'))
    (hin : Inside S sent (s.code t₀))
    (hS : ∀ x ∈ done, S x.2) (hlog : s.log = base ++ (done.flatMap tagged ++ tagged (t₀, sent)))
    (hw : sent ++ pending s.shared (s.code t₀) = w s.shared ∨
      ¬ Own (sent ++ pending s.shared (s.code t₀)) ∧ Latest Own done (w s.shared)) :
    Current S base w Own s' := by
  have hkept : Kept S base s' := kept_tick? h (.held t₀ done sent hheld hg hin hS hlog)
  have hgt := hg t ht
  have hpt := ho.publishes t
  rcases tick?_cases h with ⟨f, k, hc, rfl⟩ | ⟨k, hc, hfree, rfl⟩ | ⟨k, hc, rfl⟩ |
    ⟨body, k, hc, rfl⟩ | ⟨a, k, hc, rfl⟩ <;>
    rw [hc] at hgt hpt
  · by_cases hne : ∃ x, w (f x) ≠ w x
    · exact .owed t hkept (by simpa using owed_of_assign hpt hne)
    · push Not at hne
      have hcode : Function.update s.code t k t₀ = s.code t₀ := Function.update_of_ne ht.symm _ _
      refine .held t₀ done sent hheld (guarded_update_other hg hgt)
        (inside_update_other ht hin) hS hlog ?_
      have hat := ho.apart t₀
      simp only [hcode, hne s.shared]
      generalize s.code t₀ = code at hin hw hat ⊢
      cases hin with
      | @before body k hbody hk =>
        -- the call is not made yet, so it will send the value after the change
        rcases hat body (by simp) with rfl | hother
        · left
          exact hne s.shared
        · right
          refine ⟨hother (f s.shared), (hw.resolve_left fun hbody => ?_).2⟩
          have hown' := hown s.shared
          rw [← hbody] at hown'
          exact hother s.shared hown'
      | @during sent rest k hsent hk =>
        simpa only [pending_sends] using hw
  · rw [hheld] at hfree
    cases hfree
  · exact absurd hgt (not_guarded_unlock k)
  · exact absurd hgt (not_guarded_call body k)
  · exact absurd hgt (not_guarded_send a k)

theorem current_tick?_holder {done : List (ι × List α)} {sent : List α} (h : tick? t s = some s')
    (hheld : s.holder = some t) (hg : ∀ t', t' ≠ t → Guarded S (s.code t'))
    (hin : Inside S sent (s.code t)) (hS : ∀ x ∈ done, S x.2)
    (hlog : s.log = base ++ (done.flatMap tagged ++ tagged (t, sent)))
    (hw : sent ++ pending s.shared (s.code t) = w s.shared ∨
      ¬ Own (sent ++ pending s.shared (s.code t)) ∧ Latest Own done (w s.shared)) :
    Current S base w Own s' := by
  generalize hc : s.code t = code at hin hw
  cases hin with
  | @before body k hbody hk =>
    have he : s' = { s with
        code := Function.update s.code t ((body s.shared).map .send ++ .unlock :: k) } := by
      simpa [tick?, hc] using h.symm
    subst he
    exact .held t done [] hheld (others_update hg) (inside_update (.during (hbody s.shared) hk))
      hS hlog (by simpa [pending] using hw)
  | @during sent rest k hsent hk =>
    rw [pending_sends] at hw
    cases rest with
    | nil =>
      have he : s' = { s with holder := none, code := Function.update s.code t k } := by
        simpa [tick?, hc] using h.symm
      subst he
      rw [List.append_nil] at hsent hw
      have hS' : ∀ x ∈ done ++ [(t, sent)], S x.2 := by
        intro x hx
        rcases List.mem_append.mp hx with hx | hx
        · exact hS x hx
        · rwa [List.mem_singleton.mp hx]
      refine .free (done ++ [(t, sent)]) rfl (guarded_update hg hk) hS' (by simpa using hlog) ?_
      rcases hw with rfl | ⟨hother, hlast⟩
      · exact latest_concat done t _
      · exact hlast.append hother
    | cons a rest =>
      have he : s' = { s with
          code := Function.update s.code t (rest.map .send ++ .unlock :: k)
          log := s.log ++ [(t, a)] } := by
        simpa [tick?, hc] using h.symm
      subst he
      have hsent' : S ((sent ++ [a]) ++ rest) := by simpa using hsent
      exact .held t done (sent ++ [a]) hheld (others_update hg)
        (inside_update (.during hsent' hk)) hS (by simp [hlog]) (by simpa using hw)

/-- A statement of any thread keeps the value current. -/
theorem current_tick? (hown : ∀ x, Own (w x)) (h : tick? t s = some s') (ho : Orderly w Own s)
    (hs : Current S base w Own s) : Current S base w Own s' := by
  cases hs with
  | owed t₀ hkept hmem => exact current_tick?_owed h hkept hmem
  | free done hfree hg hS hlog hlast => exact current_tick?_free h ho hfree hg hS hlog hlast
  | held t₀ done sent hheld hg hin hS hlog hw =>
    by_cases ht : t = t₀
    · subst ht
      exact current_tick?_holder h hheld hg hin hS hlog hw
    · exact current_tick?_other hown h ho ht hheld hg hin hS hlog hw

theorem current_begin? (h : begin? t code s = some s') (hcode : Guarded S code)
    (hs : Current S base w Own s) : Current S base w Own s' := by
  have hkept := kept_begin? h hcode hs.kept
  obtain ⟨hc, rfl⟩ := begin?_eq h
  cases hs with
  | owed t₀ _ hmem =>
    have ht : t₀ ≠ t := by
      rintro rfl
      rw [hc] at hmem
      cases hmem
    exact .owed t₀ hkept (by simpa [Function.update_of_ne ht] using hmem)
  | free done hfree hg hS hlog hlast =>
    exact .free done hfree (guarded_update (fun t' _ => hg t') hcode) hS hlog hlast
  | held t₀ done sent hheld hg hin hS hlog hw =>
    have ht : t ≠ t₀ := fun he => hin.ne_nil (he ▸ hc)
    have hsame : Function.update s.code t code t₀ = s.code t₀ :=
      Function.update_of_ne ht.symm _ _
    exact .held t₀ done sent hheld (guarded_update_other hg hcode)
      (inside_update_other ht hin) hS hlog (by simpa only [hsame] using hw)

theorem tick?_after (h : tick? t s = some s') :
    after s'.shared (s'.code t) = after s.shared (s.code t) := by
  rcases tick?_cases h with ⟨f, k, hc, rfl⟩ | ⟨k, hc, -, rfl⟩ | ⟨k, hc, rfl⟩ |
    ⟨body, k, hc, rfl⟩ | ⟨a, k, hc, rfl⟩ <;>
    simp [hc, after]

end Steps

section Alone

variable [DecidableEq ι] {s : State ι σ α} {t : ι} {code : List (Stmt σ α)}

theorem run_unlocked (hc : s.code t = code) (hcode : Unlocked code) :
    ∃ n, run tick s (List.replicate n t) =
      { s with
        shared := after s.shared code
        code := Function.update s.code t []
        log := s.log ++ tagged (t, output s.shared code) } := by
  induction code generalizing s with
  | nil =>
    have hnil : Function.update s.code t [] = s.code := by
      rw [Function.update_eq_self_iff]
      exact hc.symm
    exact ⟨0, by simp [hnil, after, output]⟩
  | cons c code ih =>
    have htail : Unlocked code :=
      ⟨fun h => hcode.1 (List.mem_cons_of_mem c h), fun h => hcode.2 (List.mem_cons_of_mem c h)⟩
    cases c with
    | assign f =>
      have hstep : tick s t = { s with
          shared := f s.shared, code := Function.update s.code t code } := by
        simp [tick, stutter, tick?, hc]
      obtain ⟨n, hn⟩ := ih (s := tick s t) (by simp [hstep]) htail
      refine ⟨n + 1, ?_⟩
      rw [List.replicate_succ, run_cons, hn, hstep]
      simp [after, output]
    | lock => exact absurd List.mem_cons_self hcode.1
    | unlock => exact absurd List.mem_cons_self hcode.2
    | call body =>
      have hstep : tick s t = { s with
          code := Function.update s.code t ((body s.shared).map .send ++ code) } := by
        simp [tick, stutter, tick?, hc]
      have hsent : (tick s t).code t = (body s.shared).map .send ++ code := by simp [hstep]
      have hsends := run_sends hsent
      obtain ⟨n, hn⟩ := ih (s := run tick (tick s t)
        (List.replicate (body s.shared).length t)) (by simp [hsends]) htail
      refine ⟨(body s.shared).length + n + 1, ?_⟩
      rw [List.replicate_succ, run_cons, List.replicate_add, run_append, hn, hsends, hstep]
      simp [after, output]
    | send a =>
      have hstep : tick s t = { s with
          code := Function.update s.code t code, log := s.log ++ [(t, a)] } := by
        simp [tick, stutter, tick?, hc]
      obtain ⟨n, hn⟩ := ih (s := tick s t) (by simp [hstep]) htail
      refine ⟨n + 1, ?_⟩
      rw [List.replicate_succ, run_cons, hn, hstep]
      simp [after, output]

end Alone

end Mutex
