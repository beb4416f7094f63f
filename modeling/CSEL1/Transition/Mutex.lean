import CSEL1.Transition.Basic
import Mathlib.Logic.Function.Basic
import Mathlib.Data.List.Basic

/-! # Threads that write under a mutex

Threads run straight-line code: they assign shared variables, take and release
one mutex, and call procedures that send a list of actions, which the shared
variables determine when the call is made. The actions of all threads reach one
log. Where each call stands between a lock and an unlock, the log is a sequence
of whole calls.
-/

namespace Mutex

open Transition

inductive Stmt (σ α : Type*)
  | assign (f : σ → σ)
  | lock
  | unlock
  | call (body : σ → List α)
  | send (a : α)

/-- The code each thread still has to run, and the actions sent so far. -/
structure State (ι σ α : Type*) where
  shared : σ
  holder : Option ι
  code : ι → List (Stmt σ α)
  log : List (ι × α)

variable {ι σ α : Type*}

def tagged (x : ι × List α) : List (ι × α) := x.2.map (Prod.mk x.1)

@[simp] theorem tagged_nil (t : ι) : tagged (t, ([] : List α)) = [] := rfl

@[simp] theorem tagged_cons (t : ι) (a : α) (xs : List α) :
    tagged (t, a :: xs) = (t, a) :: tagged (t, xs) := rfl

@[simp] theorem tagged_append (t : ι) (xs ys : List α) :
    tagged (t, xs ++ ys) = tagged (t, xs) ++ tagged (t, ys) := List.map_append

@[simp] theorem length_tagged (x : ι × List α) : (tagged x).length = x.2.length :=
  List.length_map _

/-- What code sends when no other thread runs. -/
def output : σ → List (Stmt σ α) → List α
  | _, [] => []
  | x, .assign f :: k => output (f x) k
  | x, .lock :: k => output x k
  | x, .unlock :: k => output x k
  | x, .call body :: k => body x ++ output x k
  | x, .send a :: k => a :: output x k

@[simp] theorem output_sends (x : σ) (xs : List α) (k : List (Stmt σ α)) :
    output x (xs.map .send ++ k) = xs ++ output x k := by
  induction xs with
  | nil => rfl
  | cons a xs ih => exact congrArg (a :: ·) ih

def Unlocked (code : List (Stmt σ α)) : Prop := .lock ∉ code ∧ .unlock ∉ code

/-- Each call of the code stands alone between a lock and an unlock, and sends a list in `S`. -/
def Guarded (S : List α → Prop) : List (Stmt σ α) → Prop
  | [] => True
  | .assign _ :: k => Guarded S k
  | .lock :: .call body :: .unlock :: k => (∀ x, S (body x)) ∧ Guarded S k
  | _ => False

/-- The code of a thread that holds the mutex and has sent a part of its call. -/
inductive Inside (S : List α → Prop) : List α → List (Stmt σ α) → Prop
  | before {body k} : (∀ x, S (body x)) → Guarded S k →
      Inside S [] (.call body :: .unlock :: k)
  | during {sent rest k} : S (sent ++ rest) → Guarded S k →
      Inside S sent (rest.map .send ++ .unlock :: k)

section Steps

variable [DecidableEq ι]

/-- The next statement of a thread. A lock waits until the mutex is free. -/
def tick? (t : ι) (s : State ι σ α) : Option (State ι σ α) :=
  match s.code t with
  | [] => none
  | .assign f :: k => some { s with shared := f s.shared, code := Function.update s.code t k }
  | .lock :: k =>
    if s.holder = none then
      some { s with holder := some t, code := Function.update s.code t k }
    else none
  | .unlock :: k => some { s with holder := none, code := Function.update s.code t k }
  | .call body :: k =>
    some { s with code := Function.update s.code t ((body s.shared).map .send ++ k) }
  | .send a :: k =>
    some { s with code := Function.update s.code t k, log := s.log ++ [(t, a)] }

def begin? (t : ι) (code : List (Stmt σ α)) (s : State ι σ α) : Option (State ι σ α) :=
  if (s.code t).isEmpty then some { s with code := Function.update s.code t code } else none

/--
Outside the mutex every thread has guarded code. Since `base` the log holds whole calls, then what
the thread that holds the mutex has sent of its own.
-/
inductive Kept (S : List α → Prop) (base : List (ι × α)) (s : State ι σ α) : Prop
  | free (done : List (ι × List α)) : s.holder = none → (∀ t, Guarded S (s.code t)) →
      (∀ x ∈ done, S x.2) → s.log = base ++ done.flatMap tagged → Kept S base s
  | held (t : ι) (done : List (ι × List α)) (sent : List α) : s.holder = some t →
      (∀ t', t' ≠ t → Guarded S (s.code t')) → Inside S sent (s.code t) →
      (∀ x ∈ done, S x.2) → s.log = base ++ (done.flatMap tagged ++ tagged (t, sent)) →
      Kept S base s

variable {S : List α → Prop} {base : List (ι × α)} {s s' : State ι σ α} {t : ι}
  {code : List (Stmt σ α)}

theorem tick?_cases (h : tick? t s = some s') :
    (∃ f k, s.code t = .assign f :: k ∧
      s' = { s with shared := f s.shared, code := Function.update s.code t k }) ∨
    (∃ k, s.code t = .lock :: k ∧ s.holder = none ∧
      s' = { s with holder := some t, code := Function.update s.code t k }) ∨
    (∃ k, s.code t = .unlock :: k ∧
      s' = { s with holder := none, code := Function.update s.code t k }) ∨
    (∃ body k, s.code t = .call body :: k ∧
      s' = { s with code := Function.update s.code t ((body s.shared).map .send ++ k) }) ∨
    (∃ a k, s.code t = .send a :: k ∧
      s' = { s with code := Function.update s.code t k, log := s.log ++ [(t, a)] }) := by
  unfold tick? at h
  split at h
  · cases h
  · next f k hc => exact .inl ⟨f, k, hc, (Option.some.inj h).symm⟩
  · next k hc =>
    split at h
    · next hfree => exact .inr (.inl ⟨k, hc, hfree, (Option.some.inj h).symm⟩)
    · cases h
  · next k hc => exact .inr (.inr (.inl ⟨k, hc, (Option.some.inj h).symm⟩))
  · next body k hc => exact .inr (.inr (.inr (.inl ⟨body, k, hc, (Option.some.inj h).symm⟩)))
  · next a k hc => exact .inr (.inr (.inr (.inr ⟨a, k, hc, (Option.some.inj h).symm⟩)))

theorem begin?_eq (h : begin? t code s = some s') :
    s.code t = [] ∧ s' = { s with code := Function.update s.code t code } := by
  unfold begin? at h
  split at h
  · next hc => exact ⟨List.isEmpty_iff.mp hc, (Option.some.inj h).symm⟩
  · cases h

theorem tick?_output (h : tick? t s = some s') :
    s'.log ++ tagged (t, output s'.shared (s'.code t)) =
      s.log ++ tagged (t, output s.shared (s.code t)) := by
  rcases tick?_cases h with ⟨f, k, hc, rfl⟩ | ⟨k, hc, -, rfl⟩ | ⟨k, hc, rfl⟩ |
    ⟨body, k, hc, rfl⟩ | ⟨a, k, hc, rfl⟩ <;>
    simp [hc, output]

theorem tick?_code_other (h : tick? t s = some s') {t' : ι} (ht : t' ≠ t) :
    s'.code t' = s.code t' := by
  rcases tick?_cases h with ⟨f, k, -, rfl⟩ | ⟨k, -, -, rfl⟩ | ⟨k, -, rfl⟩ |
    ⟨body, k, -, rfl⟩ | ⟨a, k, -, rfl⟩ <;>
    exact Function.update_of_ne ht _ _

theorem tick?_unlocked (h : tick? t s = some s') (hc : Unlocked (s.code t)) :
    s'.holder = s.holder ∧ Unlocked (s'.code t) := by
  rcases tick?_cases h with ⟨f, k, hk, rfl⟩ | ⟨k, hk, -, rfl⟩ | ⟨k, hk, rfl⟩ |
    ⟨body, k, hk, rfl⟩ | ⟨a, k, hk, rfl⟩ <;>
    simp_all [Unlocked]

theorem Guarded.of_lock {k : List (Stmt σ α)} (h : Guarded S (.lock :: k)) :
    ∃ body k', k = .call body :: .unlock :: k' ∧ (∀ x, S (body x)) ∧ Guarded S k' := by
  match k, h with
  | .call body :: .unlock :: k', h => exact ⟨body, k', rfl, h⟩

theorem not_guarded_unlock (k : List (Stmt σ α)) : ¬ Guarded S (.unlock :: k) := id

theorem not_guarded_call (body : σ → List α) (k : List (Stmt σ α)) :
    ¬ Guarded S (.call body :: k) := id

theorem not_guarded_send (a : α) (k : List (Stmt σ α)) : ¬ Guarded S (.send a :: k) := id

theorem guarded_update {f : ι → List (Stmt σ α)} {k : List (Stmt σ α)}
    (hf : ∀ t', t' ≠ t → Guarded S (f t')) (hk : Guarded S k) (t' : ι) :
    Guarded S (Function.update f t k t') :=
  (Function.forall_update_iff f fun _ => Guarded S).mpr ⟨hk, hf⟩ t'

theorem others_update {f : ι → List (Stmt σ α)} {k : List (Stmt σ α)}
    (hf : ∀ t', t' ≠ t → Guarded S (f t')) (t' : ι) (ht' : t' ≠ t) :
    Guarded S (Function.update f t k t') := by
  rw [Function.update_of_ne ht']
  exact hf t' ht'

theorem guarded_update_other {t₀ : ι} {f : ι → List (Stmt σ α)} {k : List (Stmt σ α)}
    (hf : ∀ t', t' ≠ t₀ → Guarded S (f t')) (hk : Guarded S k) (t' : ι) (ht' : t' ≠ t₀) :
    Guarded S (Function.update f t k t') := by
  by_cases htt : t' = t
  · subst htt
    rw [Function.update_self]
    exact hk
  · rw [Function.update_of_ne htt]
    exact hf t' ht'

theorem inside_update_other {t₀ : ι} {f : ι → List (Stmt σ α)} {k : List (Stmt σ α)}
    {sent : List α} (ht : t ≠ t₀) (h : Inside S sent (f t₀)) :
    Inside S sent (Function.update f t k t₀) := by
  rw [Function.update_of_ne ht.symm]
  exact h

theorem inside_update {f : ι → List (Stmt σ α)} {k : List (Stmt σ α)} {sent : List α}
    (h : Inside S sent k) : Inside S sent (Function.update f t k t) := by
  rw [Function.update_self]
  exact h

theorem kept_tick?_free {done : List (ι × List α)} (h : tick? t s = some s')
    (hfree : s.holder = none) (hg : ∀ t, Guarded S (s.code t)) (hS : ∀ x ∈ done, S x.2)
    (hlog : s.log = base ++ done.flatMap tagged) : Kept S base s' := by
  have ht := hg t
  rcases tick?_cases h with ⟨f, k, hc, rfl⟩ | ⟨k, hc, -, rfl⟩ | ⟨k, hc, rfl⟩ |
    ⟨body, k, hc, rfl⟩ | ⟨a, k, hc, rfl⟩
  · rw [hc] at ht
    exact .free done hfree (guarded_update (fun t' _ => hg t') ht) hS hlog
  · rw [hc] at ht
    obtain ⟨body, k', rfl, hbody, hk⟩ := ht.of_lock
    exact .held t done [] rfl (others_update fun t' _ => hg t')
      (inside_update (.before hbody hk)) hS (by simpa using hlog)
  · exact absurd (hc ▸ ht) (not_guarded_unlock k)
  · exact absurd (hc ▸ ht) (not_guarded_call body k)
  · exact absurd (hc ▸ ht) (not_guarded_send a k)

theorem kept_tick?_other {t₀ : ι} {done : List (ι × List α)} {sent : List α}
    (h : tick? t s = some s') (hheld : s.holder = some t₀) (ht : t ≠ t₀)
    (hg : ∀ t', t' ≠ t₀ → Guarded S (s.code t')) (hin : Inside S sent (s.code t₀))
    (hS : ∀ x ∈ done, S x.2)
    (hlog : s.log = base ++ (done.flatMap tagged ++ tagged (t₀, sent))) : Kept S base s' := by
  have hgt := hg t ht
  rcases tick?_cases h with ⟨f, k, hc, rfl⟩ | ⟨k, hc, hfree, rfl⟩ | ⟨k, hc, rfl⟩ |
    ⟨body, k, hc, rfl⟩ | ⟨a, k, hc, rfl⟩
  · rw [hc] at hgt
    exact .held t₀ done sent hheld (guarded_update_other hg hgt)
      (inside_update_other ht hin) hS hlog
  · rw [hheld] at hfree
    cases hfree
  · exact absurd (hc ▸ hgt) (not_guarded_unlock k)
  · exact absurd (hc ▸ hgt) (not_guarded_call body k)
  · exact absurd (hc ▸ hgt) (not_guarded_send a k)

theorem kept_tick?_holder {done : List (ι × List α)} {sent : List α}
    (h : tick? t s = some s') (hheld : s.holder = some t)
    (hg : ∀ t', t' ≠ t → Guarded S (s.code t')) (hin : Inside S sent (s.code t))
    (hS : ∀ x ∈ done, S x.2)
    (hlog : s.log = base ++ (done.flatMap tagged ++ tagged (t, sent))) : Kept S base s' := by
  generalize hc : s.code t = code at hin
  cases hin with
  | @before body k hbody hk =>
    have he : s' = { s with
        code := Function.update s.code t ((body s.shared).map .send ++ .unlock :: k) } := by
      simpa [tick?, hc] using h.symm
    subst he
    exact .held t done [] hheld (others_update hg) (inside_update (.during (hbody s.shared) hk))
      hS hlog
  | @during sent rest k hsent hk =>
    cases rest with
    | nil =>
      have he : s' = { s with holder := none, code := Function.update s.code t k } := by
        simpa [tick?, hc] using h.symm
      subst he
      have hS' : ∀ x ∈ done ++ [(t, sent)], S x.2 := by
        intro x hx
        rcases List.mem_append.mp hx with hx | hx
        · exact hS x hx
        · rw [List.append_nil] at hsent
          rwa [List.mem_singleton.mp hx]
      exact .free (done ++ [(t, sent)]) rfl (guarded_update hg hk) hS' (by simpa using hlog)
    | cons a rest =>
      have he : s' = { s with
          code := Function.update s.code t (rest.map .send ++ .unlock :: k)
          log := s.log ++ [(t, a)] } := by
        simpa [tick?, hc] using h.symm
      subst he
      have hsent' : S ((sent ++ [a]) ++ rest) := by simpa using hsent
      exact .held t done (sent ++ [a]) hheld (others_update hg)
        (inside_update (.during hsent' hk)) hS (by simp [hlog])

/-- A statement of any thread keeps the calls whole. -/
theorem kept_tick? (h : tick? t s = some s') (hs : Kept S base s) : Kept S base s' := by
  cases hs with
  | free done hfree hg hS hlog => exact kept_tick?_free h hfree hg hS hlog
  | held t₀ done sent hheld hg hin hS hlog =>
    by_cases ht : t = t₀
    · subst ht
      exact kept_tick?_holder h hheld hg hin hS hlog
    · exact kept_tick?_other h hheld ht hg hin hS hlog

theorem Inside.ne_nil {sent : List α} (h : Inside S sent code) : code ≠ [] := by
  cases h with
  | before => exact List.cons_ne_nil _ _
  | during => exact List.append_ne_nil_of_right_ne_nil _ (List.cons_ne_nil _ _)

theorem kept_begin? (h : begin? t code s = some s') (hcode : Guarded S code)
    (hs : Kept S base s) : Kept S base s' := by
  obtain ⟨hc, rfl⟩ := begin?_eq h
  cases hs with
  | free done hfree hg hS hlog =>
    exact .free done hfree (guarded_update (fun t' _ => hg t') hcode) hS hlog
  | held t₀ done sent hheld hg hin hS hlog =>
    have ht : t ≠ t₀ := fun he => hin.ne_nil (he ▸ hc)
    exact .held t₀ done sent hheld (guarded_update_other hg hcode)
      (inside_update_other ht hin) hS hlog

end Steps

section Alone

variable [DecidableEq ι] {s : State ι σ α} {t : ι}

/-- One statement of a thread; a thread that waits for the mutex stays where it is. -/
def tick : State ι σ α → ι → State ι σ α := stutter fun s t => tick? t s

theorem run_sends {xs : List α} {k : List (Stmt σ α)} (hc : s.code t = xs.map .send ++ k) :
    run tick s (List.replicate xs.length t) =
      { s with code := Function.update s.code t k, log := s.log ++ tagged (t, xs) } := by
  induction xs generalizing s with
  | nil =>
    have hk : Function.update s.code t k = s.code := by
      rw [Function.update_eq_self_iff]
      exact hc.symm
    simp [hk]
  | cons a xs ih =>
    have hstep : tick s t = { s with
        code := Function.update s.code t (xs.map .send ++ k)
        log := s.log ++ [(t, a)] } := by
      simp [tick, stutter, tick?, hc]
    rw [List.length_cons, List.replicate_succ, run_cons, hstep, ih (by simp)]
    simp

/-- A thread that finds the mutex free and is not interrupted sends its call. -/
theorem run_guarded {f : σ → σ} {body : σ → List α} (hfree : s.holder = none)
    (hc : s.code t = [.assign f, .lock, .call body, .unlock]) :
    run tick s ([t, t, t] ++ (List.replicate (body (f s.shared)).length t ++ [t])) =
      { s with
        shared := f s.shared
        code := Function.update s.code t []
        log := s.log ++ tagged (t, body (f s.shared)) } := by
  have hcall : run tick s [t, t, t] = { s with
      shared := f s.shared
      holder := some t
      code := Function.update s.code t ((body (f s.shared)).map .send ++ [.unlock]) } := by
    simp [tick, stutter, tick?, hc, hfree]
  rw [run_append, hcall, run_append, run_sends (k := [.unlock]) (by simp)]
  simp [tick, stutter, tick?, hfree]

end Alone

section Log

variable {S : List α → Prop} {base : List (ι × α)} {s : State ι σ α}

theorem Inside.exists_rest {sent : List α} {code : List (Stmt σ α)} (h : Inside S sent code)
    (x : σ) : ∃ rest, S (sent ++ rest) := by
  cases h with
  | @before body k hbody hk => exact ⟨body x, hbody x⟩
  | @during sent rest k hsent hk => exact ⟨rest, hsent⟩

/-- Since `base` there are whole calls, then what the holder of the mutex has sent of its own. -/
theorem Kept.log_eq (h : Kept S base s) :
    ∃ (done : List (ι × List α)) (part : List (ι × α)),
      s.log = base ++ (done.flatMap tagged ++ part) ∧ (∀ x ∈ done, S x.2) ∧
        (s.holder = none → part = []) ∧
        ∀ t, s.holder = some t → ∃ sent rest, S (sent ++ rest) ∧ part = tagged (t, sent) := by
  cases h with
  | free done hfree hg hS hlog =>
    refine ⟨done, [], by simpa using hlog, hS, fun _ => rfl, fun t ht => ?_⟩
    rw [hfree] at ht
    cases ht
  | held t done sent hheld hg hin hS hlog =>
    refine ⟨done, tagged (t, sent), hlog, hS, fun hfree => ?_, fun t' ht' => ?_⟩
    · rw [hheld] at hfree
      cases hfree
    · obtain rfl : t = t' := Option.some.inj (hheld.symm.trans ht')
      obtain ⟨rest, hrest⟩ := hin.exists_rest s.shared
      exact ⟨sent, rest, hrest, rfl⟩

theorem exists_call_of_split {calls : List (ι × List α)} {pre post : List (ι × α)} {t : ι} {a : α}
    (h : calls.flatMap tagged = pre ++ (t, a) :: post) :
    ∃ front sent rest, (t, sent ++ a :: rest) ∈ calls ∧ pre = front ++ tagged (t, sent) := by
  induction calls generalizing pre with
  | nil => simp at h
  | cons x calls ih =>
    rw [List.flatMap_cons, List.append_eq_append_iff] at h
    rcases h with ⟨pre', rfl, h⟩ | ⟨mid, hx, hmid⟩
    · -- the action is in a later call
      obtain ⟨front, sent, rest, hmem, rfl⟩ := ih h
      exact ⟨tagged x ++ front, sent, rest, List.mem_cons_of_mem x hmem,
        (List.append_assoc _ _ _).symm⟩
    · rcases List.cons_eq_append_iff.mp hmid with ⟨rfl, h⟩ | ⟨mid', rfl, -⟩
      · obtain ⟨front, sent, rest, hmem, hpre⟩ := @ih [] h
        obtain ⟨rfl, hsent⟩ := List.append_eq_nil_iff.mp hpre.symm
        refine ⟨pre, sent, rest, List.mem_cons_of_mem x hmem, ?_⟩
        rw [hsent, List.append_nil]
      · obtain ⟨sent, tail, hx2, rfl, htail⟩ := List.map_eq_append_iff.mp hx
        obtain ⟨a', rest, rfl, ha, -⟩ := List.map_eq_cons_iff.mp htail
        obtain ⟨rfl, rfl⟩ := Prod.mk.inj ha
        refine ⟨[], sent, rest, List.mem_cons.mpr (.inl ?_), rfl⟩
        rw [← hx2]

/-- Nothing comes between the actions of one call. -/
theorem Kept.exists_sent (h : Kept S base s) {pre post : List (ι × α)} {t : ι} {a : α}
    (hlog : s.log = base ++ (pre ++ (t, a) :: post)) :
    ∃ front sent rest, S (sent ++ a :: rest) ∧ pre = front ++ tagged (t, sent) := by
  obtain ⟨calls, hcalls, hS⟩ : ∃ calls : List (ι × List α),
      s.log = base ++ calls.flatMap tagged ∧ ∀ x ∈ calls, ∃ rest, S (x.2 ++ rest) := by
    cases h with
    | free done hfree hg hS hlog =>
      exact ⟨done, hlog, fun x hx => ⟨[], by simpa using hS x hx⟩⟩
    | held t done sent hheld hg hin hS hlog =>
      refine ⟨done ++ [(t, sent)], by simpa using hlog, fun x hx => ?_⟩
      rcases List.mem_append.mp hx with hx | hx
      · exact ⟨[], by simpa using hS x hx⟩
      · rw [List.mem_singleton.mp hx]
        exact hin.exists_rest s.shared
  obtain ⟨front, sent, rest, hmem, hpre⟩ :=
    exists_call_of_split (List.append_cancel_left (hcalls.symm.trans hlog))
  obtain ⟨rest', hrest⟩ := hS _ hmem
  exact ⟨front, sent, rest ++ rest', by simpa using hrest, hpre⟩

end Log

end Mutex
