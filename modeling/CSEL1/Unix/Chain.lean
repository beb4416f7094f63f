import CSEL1.Unix.Process

/-! # Programs run by a chain of processes

A weakest precondition for programs of system calls, with a rule for each call, and what
it says of the whole table of processes: in every schedule at most one process is on its
way through the program, and the precondition of what is left holds of it. It cannot die
by the hangup of a terminal if the process that was launched is not exposed to it.
-/

namespace Unix

open Function Transition

/--
Every way through the calls ends in `post` if the kernel's answers are in `A`. Where a call fails
`fail` has to hold.
-/
def wp (A : KernelAnswer → Prop) (fail : Prop) (limit : ℕ) (post : ℕ → Process → Prop) :
    List Syscall → ℕ → Process → Prop
  | [], pid, p => post pid p
  | call :: code, pid, p =>
    ∀ a, A a → (call = .forkProcess → a.pid ≠ pid ∧ a.pid ≠ p.session ∧ a.pid ≠ p.group) →
      match p.perform limit pid a call with
      | none => fail
      | some (pid', p') => wp A fail limit post code pid' p'

def Excused (A : KernelAnswer → Prop) (fail : Prop) : Prop :=
  ∀ a, A a → fail ∨ a.granted = true ∧ a.entry.isSome = true

section Rules

variable {A : KernelAnswer → Prop} {fail : Prop} {limit pid : ℕ} {p : Process}
  {post : ℕ → Process → Prop} {code : List Syscall}

theorem wp_forkProcess (hA : Excused A fail)
    (h : ∀ child, child ≠ pid → child ≠ p.session → child ≠ p.group →
      wp A fail limit post code child p) :
    wp A fail limit post (.forkProcess :: code) pid p := by
  intro a ha hfresh
  obtain ⟨hpid, hsession, hgroup⟩ := hfresh rfl
  rcases hA a ha with hfail | ⟨hgranted, -⟩
  · cases hgranted : a.granted with
    | false => simpa [Process.perform, hgranted] using hfail
    | true => simpa [Process.perform, hgranted] using h a.pid hpid hsession hgroup
  · simpa [Process.perform, hgranted] using h a.pid hpid hsession hgroup

theorem wp_setsid (hfail : p.group = pid → fail)
    (h : p.group ≠ pid → wp A fail limit post code pid { p with session := pid, group := pid }) :
    wp A fail limit post (.setsid :: code) pid p := by
  intro a _ _
  by_cases hgroup : p.group = pid
  · simpa [Process.perform, hgroup] using hfail hgroup
  · simpa [Process.perform, hgroup] using h hgroup

theorem wp_sigaction {sig : Signal}
    (h : wp A fail limit post code pid { p with handling := update p.handling sig .caught }) :
    wp A fail limit post (.sigaction sig :: code) pid p :=
  fun _ _ _ => h

theorem wp_umask {mask : ℕ} (h : wp A fail limit post code pid { p with mask := mask }) :
    wp A fail limit post (.umask mask :: code) pid p :=
  fun _ _ _ => h

theorem wp_chdir (hA : Excused A fail)
    (h : wp A fail limit post code pid { p with cwd := p.root }) :
    wp A fail limit post (.chdir :: code) pid p := by
  intro a ha _
  cases hgranted : a.granted with
  | false => simpa [Process.perform, hgranted] using hA a ha
  | true => simpa [Process.perform, hgranted] using h

theorem wp_close {fd : ℕ}
    (h : wp A fail limit post code pid { p with fds := update p.fds fd none }) :
    wp A fail limit post (.close fd :: code) pid p :=
  fun _ _ _ => h

theorem wp_openNull (hA : Excused A fail) {fd : ℕ} (hfail : p.lowest limit ≠ some fd → fail)
    (h : p.lowest limit = some fd →
      wp A fail limit post code pid { p with fds := update p.fds fd (some .null) }) :
    wp A fail limit post (.openNull fd :: code) pid p := by
  intro a ha _
  by_cases hlow : p.lowest limit = some fd
  · cases hgranted : a.granted with
    | false => simpa [Process.perform, hgranted] using hA a ha
    | true => simpa [Process.perform, hgranted, hlow] using h hlow
  · simpa [Process.perform, hlow] using hfail hlow

theorem wp_dup2 {src dst : ℕ} (hfail : ¬ ((p.fds src).isSome ∧ dst < limit) → fail)
    (h : dst < limit →
      wp A fail limit post code pid { p with fds := update p.fds dst (p.fds src) }) :
    wp A fail limit post (.dup2 src dst :: code) pid p := by
  intro a _ _
  by_cases hok : (p.fds src).isSome ∧ dst < limit
  · simpa [Process.perform, hok] using h hok.2
  · simpa only [Process.perform, if_neg hok] using hfail hok

/-- Without a connection to the log the program goes on. -/
theorem wp_openlog (hsame : wp A fail limit post code pid p)
    (h : ∀ fd, p.lowest limit = some fd →
      wp A fail limit post code pid { p with fds := update p.fds fd (some .log) }) :
    wp A fail limit post (.openlog :: code) pid p := by
  intro a _ _
  simp only [Process.perform]
  cases hlow : p.lowest limit with
  | none => exact hsame
  | some fd =>
    cases hgranted : a.granted with
    | false => exact hsame
    | true => exact h fd hlow

theorem wp_getpwnam (hA : Excused A fail)
    (h : ∀ entry, wp A fail limit post code pid { p with entry := some entry }) :
    wp A fail limit post (.getpwnam :: code) pid p := by
  intro a ha _
  cases hentry : a.entry with
  | none => simpa [Process.perform, hentry] using hA a ha
  | some entry => simpa [Process.perform, hentry] using h entry

theorem wp_chroot (hA : Excused A fail) (hfail : p.ids.euid ≠ 0 → fail)
    (h : p.ids.euid = 0 → wp A fail limit post code pid { p with root := p.cwd }) :
    wp A fail limit post (.chroot :: code) pid p := by
  intro a ha _
  by_cases hroot : p.ids.euid = 0
  · cases hgranted : a.granted with
    | false => simpa [Process.perform, hgranted] using hA a ha
    | true => simpa [Process.perform, hgranted, hroot] using h hroot
  · simpa [Process.perform, hroot] using hfail hroot

theorem wp_setegid (hA : Excused A fail) {entry : ℕ × ℕ} (hentry : p.entry = some entry)
    (hroot : p.ids.euid = 0)
    (h : wp A fail limit post code pid { p with ids := { p.ids with egid := entry.2 } }) :
    wp A fail limit post (.setegid :: code) pid p := by
  intro a ha _
  cases hgranted : a.granted with
  | false => simpa [Process.perform, hgranted, hentry] using hA a ha
  | true => simpa [Process.perform, hgranted, hentry, hroot] using h

theorem wp_seteuid (hA : Excused A fail) {entry : ℕ × ℕ} (hentry : p.entry = some entry)
    (hroot : p.ids.euid = 0)
    (h : wp A fail limit post code pid { p with ids := { p.ids with euid := entry.1 } }) :
    wp A fail limit post (.seteuid :: code) pid p := by
  intro a ha _
  cases hgranted : a.granted with
  | false => simpa [Process.perform, hgranted, hentry] using hA a ha
  | true => simpa [Process.perform, hgranted, hentry, hroot] using h

theorem perform_cases {a : KernelAnswer} {call : Syscall} {pid' : ℕ} {p' : Process}
    (h : p.perform limit pid a call = some (pid', p')) :
    (call = .forkProcess ∧ pid' = a.pid ∧ p' = p) ∨
    (call = .setsid ∧ p.group ≠ pid ∧ pid' = pid ∧ p'.session = pid ∧ p'.group = pid) ∨
    (call ≠ .setsid ∧ pid' = pid ∧ p'.session = p.session ∧ p'.group = p.group ∧
      (p'.handling .hup = p.handling .hup ∨ p'.handling .hup = .caught)) := by
  cases call with
  | forkProcess =>
    left
    simp only [Process.perform, Option.ite_none_right_eq_some, Option.some.injEq,
      Prod.mk.injEq] at h
    exact ⟨rfl, h.2.1.symm, h.2.2.symm⟩
  | setsid =>
    right; left
    simp only [Process.perform, Option.ite_none_left_eq_some, Option.some.injEq,
      Prod.mk.injEq] at h
    obtain ⟨hgroup, rfl, rfl⟩ := h
    exact ⟨rfl, hgroup, rfl, rfl, rfl⟩
  | sigaction sig =>
    right; right
    simp only [Process.perform, Option.some.injEq, Prod.mk.injEq] at h
    obtain ⟨rfl, rfl⟩ := h
    refine ⟨by simp, rfl, rfl, rfl, ?_⟩
    by_cases hsig : Signal.hup = sig
    · subst hsig
      exact Or.inr (by simp)
    · exact Or.inl (update_of_ne hsig ..)
  | openlog =>
    right; right
    simp only [Process.perform] at h
    split at h
    · simp only [Option.some.injEq, Prod.mk.injEq] at h
      obtain ⟨rfl, rfl⟩ := h
      refine ⟨by simp, rfl, ?_⟩
      split <;> exact ⟨rfl, rfl, Or.inl rfl⟩
    · simp only [Option.some.injEq, Prod.mk.injEq] at h
      obtain ⟨rfl, rfl⟩ := h
      exact ⟨by simp, rfl, rfl, rfl, Or.inl rfl⟩
  | umask mask | close fd =>
    right; right
    simp only [Process.perform, Option.some.injEq, Prod.mk.injEq] at h
    obtain ⟨rfl, rfl⟩ := h
    exact ⟨by simp, rfl, rfl, rfl, Or.inl rfl⟩
  | getpwnam =>
    right; right
    simp only [Process.perform, Option.map_eq_some_iff, Prod.mk.injEq] at h
    obtain ⟨entry, -, rfl, rfl⟩ := h
    exact ⟨by simp, rfl, rfl, rfl, Or.inl rfl⟩
  | chdir | openNull fd | dup2 src dst | chroot =>
    right; right
    simp only [Process.perform, Option.ite_none_right_eq_some, Option.some.injEq,
      Prod.mk.injEq] at h
    obtain ⟨-, rfl, rfl⟩ := h
    exact ⟨by simp, rfl, rfl, rfl, Or.inl rfl⟩
  | setegid | seteuid =>
    right; right
    simp only [Process.perform, Option.bind_eq_some_iff, Option.ite_none_right_eq_some,
      Option.some.injEq, Prod.mk.injEq] at h
    obtain ⟨entry, -, -, rfl, rfl⟩ := h
    exact ⟨by simp, rfl, rfl, rfl, Or.inl rfl⟩

end Rules

/-- What the kernel keeps of the numbers of processes, sessions and groups. -/
structure Process.Numbered (t : Table) (pid : ℕ) (p : Process) : Prop where
  leader : p.session = pid → p.group = pid
  session : t.foreground pid ≠ none → p.session = pid
  group : ∀ s, t.foreground s = some pid → p.group = pid

/-- At most one process is on its way through the program, in a state good for what is left. -/
structure Chain (A : KernelAnswer → Prop) (fail : Prop) (limit : ℕ) (post : ℕ → Process → Prop)
    (t : Table) : Prop where
  unique : ∀ {q q' p p' code code'}, t.tasks q = some (.going p code) →
    t.tasks q' = some (.going p' code') → q = q'
  pre : ∀ {q p code}, t.tasks q = some (.going p code) → wp A fail limit post code q p
  numbered : ∀ {q p code}, t.tasks q = some (.going p code) → p.Numbered t q

section Runs

variable {A : KernelAnswer → Prop} {fail : Prop} {limit pid : ℕ} {p : Process}
  {post : ℕ → Process → Prop} {code : List Syscall} {t : Table}

theorem Process.Numbered.exit (h : p.Numbered t pid) (q : ℕ) (r : Process) :
    p.Numbered (t.exit q r) pid where
  leader := h.leader
  session hne := by
    obtain ⟨g, hg⟩ := Option.ne_none_iff_exists'.mp hne
    exact h.session (by simp [foreground_of_exit hg])
  group s hs := h.group s (foreground_of_exit hs)

theorem Chain.exit (h : Chain A fail limit post t) (q : ℕ) (r : Process) :
    Chain A fail limit post (t.exit q r) where
  unique hq hq' := h.unique (tasks_of_exit hq).2 (tasks_of_exit hq').2
  pre hq := h.pre (tasks_of_exit hq).2
  numbered hq := (h.numbered (tasks_of_exit hq).2).exit q r

theorem turn_cases (limit : ℕ) (t : Table) (pid : ℕ) (a : KernelAnswer) :
    (t.turn limit pid a = t) ∨
    (∃ p, t.tasks pid = some (.leaving p) ∧ t.turn limit pid a = t.exit pid p) ∨
    (∃ p call code, t.tasks pid = some (.going p (call :: code)) ∧
      p.perform limit pid a call = none ∧ t.turn limit pid a = t.exit pid p) ∨
    ∃ p call code pid' p', t.tasks pid = some (.going p (call :: code)) ∧
      p.perform limit pid a call = some (pid', p') ∧
      t.turn limit pid a = t.goOn pid p pid' p' code := by
  unfold Table.turn
  split
  · exact Or.inl rfl
  · next p hp => exact Or.inr (Or.inl ⟨p, hp, rfl⟩)
  · exact Or.inl rfl
  · next p call code hp =>
    split
    · next hnone => exact Or.inr (Or.inr (Or.inl ⟨p, call, code, hp, hnone, rfl⟩))
    · next pid' p' hsome =>
      exact Or.inr (Or.inr (Or.inr ⟨p, call, code, pid', p', hp, hsome, rfl⟩))

section GoOn

variable {a : KernelAnswer} {call : Syscall} {pid' q : ℕ} {p' : Process} {r : Task}

theorem tasks_goOn (h : (t.goOn pid p pid' p' code).tasks q = some r) :
    (q = pid' ∧ r = .going p' code) ∨ (q ≠ pid' ∧ q = pid ∧ r = .leaving p) ∨
      (q ≠ pid' ∧ q ≠ pid ∧ t.tasks q = some r) := by
  by_cases hpid' : q = pid'
  · subst hpid'
    left
    simp only [Table.goOn, update_self, Option.some.injEq] at h
    exact ⟨rfl, h.symm⟩
  · right
    by_cases hpid : q = pid
    · subst hpid
      left
      simp only [Table.goOn, update_of_ne hpid', update_self, Option.some.injEq] at h
      exact ⟨hpid', rfl, h.symm⟩
    · right
      simp only [Table.goOn, update_of_ne hpid', update_of_ne hpid] at h
      exact ⟨hpid', hpid, h⟩

theorem going_of_goOn (h : Chain A fail limit post t)
    (hp : t.tasks pid = some (.going p (call :: code))) {r : Process} {code' : List Syscall}
    (hq : (t.goOn pid p pid' p' code).tasks q = some (.going r code')) :
    q = pid' ∧ r = p' ∧ code' = code := by
  rcases tasks_goOn hq with ⟨rfl, hr⟩ | ⟨-, -, hr⟩ | ⟨-, hne, hq⟩
  · cases hr
    exact ⟨rfl, rfl, rfl⟩
  · cases hr
  · exact absurd (h.unique hq hp) hne

theorem numbered_perform (h : p.Numbered t pid)
    (hp : t.tasks pid = some (.going p (call :: code)))
    (hfresh : call = .forkProcess → t.Free a.pid)
    (hperform : p.perform limit pid a call = some (pid', p')) : p'.Numbered t pid' := by
  rcases perform_cases hperform with ⟨hcall, rfl, rfl⟩ | ⟨-, -, rfl, hsession, hgroup⟩ |
    ⟨-, rfl, hsession, hgroup, -⟩
  · have hfree := hfresh hcall
    exact ⟨fun hs => absurd hs (hfree.tasks _ _ hp).2.1, fun hne => absurd hfree.session hne,
      fun s hs => absurd hs (hfree.group s)⟩
  · exact ⟨fun _ => hgroup, fun _ => hsession, fun _ _ => hgroup⟩
  · constructor
    · rw [hsession, hgroup]
      exact h.leader
    · rw [hsession]
      exact h.session
    · rw [hgroup]
      exact h.group

theorem Chain.goOn (h : Chain A fail limit post t)
    (hp : t.tasks pid = some (.going p (call :: code))) (ha : A a)
    (hfresh : call = .forkProcess → t.Free a.pid)
    (hperform : p.perform limit pid a call = some (pid', p')) :
    Chain A fail limit post (t.goOn pid p pid' p' code) where
  unique hq hq' := (going_of_goOn h hp hq).1.trans (going_of_goOn h hp hq').1.symm
  pre hq := by
    obtain ⟨rfl, rfl, rfl⟩ := going_of_goOn h hp hq
    have hpre := h.pre hp a ha fun hcall => by
      obtain ⟨hpid, hsession, hgroup⟩ := (hfresh hcall).tasks _ _ hp
      exact ⟨hpid.symm, hsession.symm, hgroup.symm⟩
    simpa only [hperform] using hpre
  numbered hq := by
    obtain ⟨rfl, rfl, rfl⟩ := going_of_goOn h hp hq
    have hnum := numbered_perform (h.numbered hp) hp hfresh hperform
    exact ⟨hnum.leader, hnum.session, hnum.group⟩

end GoOn

theorem openTerminal_cases (t : Table) (pid : ℕ) :
    t.openTerminal pid = t ∨
      ∃ p, t.tasks pid = some (.going p []) ∧ p.session = pid ∧ t.foreground pid = none ∧
        t.openTerminal pid = { t with foreground := update t.foreground pid (some p.group) } := by
  unfold Table.openTerminal
  split
  · next p hp =>
    split
    · next hs => exact Or.inr ⟨p, hp, hs.1, hs.2, rfl⟩
    · exact Or.inl rfl
  · exact Or.inl rfl

theorem Chain.openTerminal (h : Chain A fail limit post t) (pid : ℕ) :
    Chain A fail limit post (t.openTerminal pid) := by
  rcases openTerminal_cases t pid with heq | ⟨p, hp, hs, -, heq⟩
  · rwa [heq]
  · rw [heq]
    refine ⟨h.unique, h.pre, ?_⟩
    intro q r code hq
    obtain rfl := h.unique hp hq
    rw [hp] at hq
    cases hq
    have hgroup : p.group = pid := (h.numbered hp).leader hs
    exact ⟨fun _ => hgroup, fun _ => hs, fun _ _ => hgroup⟩

theorem Chain.step (h : Chain A fail limit post t) {e : TableEvent} (he : t.Allowed A e) :
    Chain A fail limit post (t.step limit e) := by
  cases e with
  | openTerminal pid => exact h.openTerminal pid
  | turn pid a =>
    rcases turn_cases limit t pid a with heq | ⟨p, -, heq⟩ | ⟨p, call, code, -, -, heq⟩ |
      ⟨p, call, code, pid', p', hp, hperform, heq⟩
    · rwa [Table.step, heq]
    · rw [Table.step, heq]
      exact h.exit pid p
    · rw [Table.step, heq]
      exact h.exit pid p
    · rw [Table.step, heq]
      exact h.goOn hp he.1 (fun hcall => he.2 p code (hcall ▸ hp)) hperform

/-- The program has been started by one process. -/
structure Launch (t : Table) (pid : ℕ) (p : Process) (code : List Syscall) : Prop where
  tasks : t.tasks = fun q => if q = pid then some (.going p code) else none
  numbered : p.Numbered t pid

theorem Launch.chain (h : Launch t pid p code) (hwp : wp A fail limit post code pid p) :
    Chain A fail limit post t := by
  have hgoing : ∀ {q r code'}, t.tasks q = some (.going r code') →
      q = pid ∧ r = p ∧ code' = code := by
    intro q r code' hq
    rw [h.tasks] at hq
    simp only [Option.ite_none_right_eq_some, Option.some.injEq, Task.going.injEq] at hq
    exact ⟨hq.1, hq.2.1.symm, hq.2.2.symm⟩
  constructor
  · intro q q' r r' c c' hq hq'
    exact (hgoing hq).1.trans (hgoing hq').1.symm
  · intro q r c hq
    obtain ⟨rfl, rfl, rfl⟩ := hgoing hq
    exact hwp
  · intro q r c hq
    obtain ⟨rfl, rfl, rfl⟩ := hgoing hq
    exact h.numbered

theorem Launch.chain_run (h : Launch t pid p code) (hwp : wp A fail limit post code pid p)
    {es : List TableEvent} (hes : Along (Table.step limit) (Table.Allowed A) t es) :
    Chain A fail limit post (run (Table.step limit) t es) :=
  (always_of_along (I := Chain A fail limit post) (fun _ _ hc he => hc.step he) (h.chain hwp)
    hes).last

/-- In every schedule at most one process gets to the end of the program, and there `post` holds. -/
theorem Launch.run_post (h : Launch t pid p code) (hwp : wp A fail limit post code pid p)
    {es : List TableEvent} (hes : Along (Table.step limit) (Table.Allowed A) t es) {q : ℕ}
    {r : Process}
    (hq : (run (Table.step limit) t es).tasks q = some (.going r [])) :
    post q r ∧ ∀ q' r' code', (run (Table.step limit) t es).tasks q' = some (.going r' code') →
      q' = q :=
  ⟨(h.chain_run hwp hes).pre hq, fun _ _ _ hq' => (h.chain_run hwp hes).unique hq' hq⟩

theorem along_turns (hcode : ∀ p code, t.tasks pid = some (.going p code) → .forkProcess ∉ code)
    {answers : List KernelAnswer} (hA : ∀ a ∈ answers, A a) :
    Along (Table.step limit) (Table.Allowed A) t (answers.map (.turn pid)) := by
  induction answers generalizing t with
  | nil => trivial
  | cons a answers ih =>
    obtain ⟨ha, hA⟩ := List.forall_mem_cons.mp hA
    refine ⟨⟨ha, fun p code hp => absurd List.mem_cons_self (hcode p _ hp)⟩, ih ?_ hA⟩
    intro r code hr
    rcases turn_cases limit t pid a with heq | ⟨p, -, heq⟩ | ⟨p, call, code, -, -, heq⟩ |
      ⟨p, call, code', pid', p', hp, hperform, heq⟩
    · exact hcode r code (by rwa [Table.step, heq] at hr)
    · rw [Table.step, heq, tasks_exit_self] at hr
      cases hr
    · rw [Table.step, heq, tasks_exit_self] at hr
      cases hr
    · rw [Table.step, heq] at hr
      have hnot := hcode p _ hp
      rcases tasks_goOn hr with ⟨-, hgoing⟩ | ⟨-, -, hleaving⟩ | ⟨-, hne, -⟩
      · cases hgoing
        exact fun hmem => hnot (List.mem_cons_of_mem call hmem)
      · cases hleaving
      · exact absurd rfl hne

section Detached

variable (hpost : ∀ q r, post q r → r.session ≠ q)
include hpost

theorem Chain.openTerminal_eq (h : Chain A fail limit post t) (pid : ℕ) :
    t.openTerminal pid = t := by
  rcases openTerminal_cases t pid with heq | ⟨p, hp, hs, -, -⟩
  · exact heq
  · exact absurd hs (hpost _ _ (h.pre hp))

def Detached (t : Table) : Prop :=
  ∀ q r code, t.tasks q = some (.going r code) → .setsid ∈ code ∨ t.foreground r.session = none

omit hpost in
theorem Detached.exit (h : Detached t) (pid : ℕ) (p : Process) : Detached (t.exit pid p) := by
  intro q r code hq
  refine (h q r code (tasks_of_exit hq).2).imp_right fun hnone => ?_
  rcases foreground_exit t pid p r.session with hn | heq
  · exact hn
  · exact heq.trans hnone

theorem Detached.step (h : Detached t) (hc : Chain A fail limit post t) {e : TableEvent} :
    Detached (t.step limit e) := by
  cases e with
  | openTerminal pid => rwa [Table.step, hc.openTerminal_eq hpost]
  | turn pid a =>
    rcases turn_cases limit t pid a with heq | ⟨p, -, heq⟩ | ⟨p, call, code, -, -, heq⟩ |
      ⟨p, call, code, pid', p', hp, hperform, heq⟩
    · rwa [Table.step, heq]
    · rw [Table.step, heq]
      exact h.exit pid p
    · rw [Table.step, heq]
      exact h.exit pid p
    · rw [Table.step, heq]
      intro q r code' hq
      obtain ⟨rfl, rfl, rfl⟩ := going_of_goOn hc hp hq
      have hold := h pid p _ hp
      rcases perform_cases hperform with ⟨rfl, -, rfl⟩ | ⟨rfl, hgroup, rfl, hsession, -⟩ |
        ⟨hcall, -, hsession, -, -⟩
      · simpa using hold
      · -- the number of a process that leads no group is that of no session with a terminal
        right
        have hnum := hc.numbered hp
        have hnone : t.foreground q = none := by
          by_contra hne
          exact hgroup (hnum.leader (hnum.session hne))
        exact hsession ▸ hnone
      · refine hold.imp (fun hmem => ?_) fun hnone => hsession ▸ hnone
        exact (List.mem_cons.mp hmem).resolve_left (Ne.symm hcall)

theorem Launch.run_detached (h : Launch t pid p code) (hwp : wp A fail limit post code pid p)
    (hsetsid : .setsid ∈ code) {es : List TableEvent}
    (hes : Along (Table.step limit) (Table.Allowed A) t es) {q : ℕ} {r : Process}
    (hq : (run (Table.step limit) t es).tasks q = some (.going r [])) :
    (run (Table.step limit) t es).foreground r.session = none := by
  have hstart : Detached t := by
    intro q r code' hq
    rw [h.tasks] at hq
    simp only [Option.ite_none_right_eq_some, Option.some.injEq, Task.going.injEq] at hq
    exact Or.inl (hq.2.2 ▸ hsetsid)
  have hboth := always_of_along (I := fun t => Chain A fail limit post t ∧ Detached t)
    (fun t e hI he => ⟨hI.1.step he, hI.2.step hpost hI.1⟩) ⟨h.chain hwp, hstart⟩ hes
  exact (hboth.last.2 q r [] hq).resolve_left (by simp)

end Detached

def Sheltered (t : Table) : Prop :=
  ∀ q r g, t.tasks q = some r → r.process.session = q → t.foreground q = some g →
    ∀ q' r' code, t.tasks q' = some (.going r' code) → ¬ (Task.going r' code).Killed g

/-- The process leads the session of a terminal, in whose foreground it is, and would be ended. -/
def Exposed (t : Table) (pid : ℕ) (p : Process) : Prop :=
  p.session = pid ∧ t.foreground pid = some p.group ∧ p.handling .hup = .default

theorem Sheltered.exit (h : Sheltered t) (pid : ℕ) (p : Process) : Sheltered (t.exit pid p) :=
  fun q r g hq hs hg q' r' code hq' =>
    h q r g (tasks_of_exit hq).2 hs (foreground_of_exit hg) q' r' code (tasks_of_exit hq').2

theorem Sheltered.goOn (h : Sheltered t) (hc : Chain A fail limit post t) {a : KernelAnswer}
    {call : Syscall} {pid' : ℕ} {p' : Process} (hp : t.tasks pid = some (.going p (call :: code)))
    (hfresh : call = .forkProcess → t.Free a.pid)
    (hperform : p.perform limit pid a call = some (pid', p')) :
    Sheltered (t.goOn pid p pid' p' code) := by
  intro q r g hq hs hg q' r' code' hq'
  obtain ⟨rfl, rfl, rfl⟩ := going_of_goOn hc hp hq'
  have hnum := hc.numbered hp
  -- the hangups that could have ended the caller
  have hcaller : ∀ q r, t.tasks q = some r → r.process.session = q → t.foreground q = some g →
      ¬ (p.group = g ∧ p.handling .hup = .default) :=
    fun q r hq hs hg => h q r g hq hs hg pid p _ hp
  have hold : ∀ q r, t.tasks q = some r → r.process.session = q → t.foreground q = some g →
      ¬ (Task.going r' code').Killed g := by
    intro s x hx hs hg'
    rcases perform_cases hperform with ⟨-, -, rfl⟩ | ⟨-, hgroup, -, -, hgroup'⟩ |
      ⟨-, -, -, hgroup', hhup⟩
    · exact hcaller s x hx hs hg'
    · rintro ⟨hkilled, -⟩
      refine hgroup (hnum.group s ?_)
      rw [hg', ← hkilled]
      exact congrArg some hgroup'
    · rintro ⟨hkilled, hdefault⟩
      rcases hhup with hsame | hcaught
      · exact hcaller s x hx hs hg' ⟨hgroup'.symm.trans hkilled, hsame.symm.trans hdefault⟩
      · cases hcaught.symm.trans hdefault
  rcases tasks_goOn hq with ⟨rfl, rfl⟩ | ⟨-, rfl, rfl⟩ | ⟨-, -, hq⟩
  · rcases perform_cases hperform with ⟨hcall, rfl, -⟩ | ⟨-, hgroup, rfl, -, -⟩ |
      ⟨-, rfl, hsession, -, -⟩
    · rw [foreground_goOn, (hfresh hcall).session] at hg
      cases hg
    · have hne : t.foreground q ≠ none := by
        rw [← foreground_goOn t q p q r' code', hg]
        simp
      exact absurd (hnum.leader (hnum.session hne)) hgroup
    · exact hold q _ hp (hsession ▸ hs) hg
  · exact hold q _ hp hs hg
  · exact hold q r hq hs hg

theorem Launch.sheltered (h : Launch t pid p code) (hexposed : ¬ Exposed t pid p) :
    Sheltered t := by
  intro q r g hq hs hg q' r' code' hq'
  rw [h.tasks] at hq hq'
  simp only [Option.ite_none_right_eq_some, Option.some.injEq, Task.going.injEq] at hq hq'
  obtain ⟨rfl, rfl⟩ := hq
  obtain ⟨-, rfl, rfl⟩ := hq'
  rintro ⟨rfl, hdefault⟩
  exact hexposed ⟨hs, hg, hdefault⟩

/-- Some process is on its way through the program, or at its end. -/
def Alive (t : Table) : Prop := ∃ q r code, t.tasks q = some (.going r code)

theorem Alive.step (h : Alive t) (hc : Chain A False limit post t)
    (hpost : ∀ q r, post q r → r.session ≠ q) (hsheltered : Sheltered t) {e : TableEvent}
    (he : t.Allowed A e) : Alive (t.step limit e) := by
  cases e with
  | openTerminal pid => rwa [Table.step, hc.openTerminal_eq hpost]
  | turn pid a =>
    rcases turn_cases limit t pid a with heq | ⟨p, hp, heq⟩ | ⟨p, call, code, hp, hnone, -⟩ |
      ⟨p, call, code, pid', p', hp, hperform, heq⟩
    · rwa [Table.step, heq]
    · obtain ⟨q, r, code, hq⟩ := h
      have hne : q ≠ pid := by
        rintro rfl
        rw [hp] at hq
        cases hq
      rw [Table.step, heq]
      exact ⟨q, r, code, tasks_exit hne hq fun g hs hg => hsheltered pid _ g hp hs hg q r code hq⟩
    · have hfail := hc.pre hp a he.1 fun hcall => by
        obtain ⟨hpid, hsession, hgroup⟩ := (he.2 p code (hcall ▸ hp)).tasks _ _ hp
        exact ⟨hpid.symm, hsession.symm, hgroup.symm⟩
      rw [hnone] at hfail
      exact hfail.elim
    · rw [Table.step, heq]
      exact ⟨pid', p', code, update_self ..⟩

theorem Sheltered.step (h : Sheltered t) (hc : Chain A fail limit post t)
    (hpost : ∀ q r, post q r → r.session ≠ q) {e : TableEvent} (he : t.Allowed A e) :
    Sheltered (t.step limit e) := by
  cases e with
  | openTerminal pid => rwa [Table.step, hc.openTerminal_eq hpost]
  | turn pid a =>
    rcases turn_cases limit t pid a with heq | ⟨p, -, heq⟩ | ⟨p, call, code, -, -, heq⟩ |
      ⟨p, call, code, pid', p', hp, hperform, heq⟩
    · rwa [Table.step, heq]
    · rw [Table.step, heq]
      exact h.exit pid p
    · rw [Table.step, heq]
      exact h.exit pid p
    · rw [Table.step, heq]
      exact h.goOn hc hp (fun hcall => he.2 p code (hcall ▸ hp)) hperform

theorem Launch.forked (h : Launch t pid p (.forkProcess :: code)) (limit : ℕ) {a : KernelAnswer}
    (hgranted : a.granted = true) (hfree : t.Free a.pid) :
    t.step limit (.turn pid a) = t.goOn pid p a.pid p code ∧
      (t.goOn pid p a.pid p code).tasks pid = some (.leaving p) := by
  have hp : t.tasks pid = some (.going p (.forkProcess :: code)) := by
    rw [h.tasks]
    exact if_pos rfl
  have hne : pid ≠ a.pid := (hfree.tasks _ _ hp).1
  constructor
  · simp [Table.step, Table.turn, hp, Process.perform, hgranted, Table.goOn]
  · simp [Table.goOn, update_of_ne hne]

/-- The parent exits before the child has left its session. -/
theorem Launch.not_alive (h : Launch t pid p (.forkProcess :: code)) (hexposed : Exposed t pid p)
    {a : KernelAnswer} (hgranted : a.granted = true) (hfree : t.Free a.pid) :
    ¬ Alive (run (Table.step limit) t [.turn pid a, .turn pid a]) := by
  obtain ⟨hs, hg, hdefault⟩ := hexposed
  obtain ⟨hforked, hleaving⟩ := h.forked limit hgranted hfree
  rintro ⟨q, r, code', hq⟩
  rw [run_cons, hforked, run_cons, run_nil] at hq
  have hexit : (t.goOn pid p a.pid p code).step limit (.turn pid a) =
      (t.goOn pid p a.pid p code).exit pid p := by
    simp [Table.step, Table.turn, hleaving]
  rw [hexit] at hq
  obtain ⟨hqne, hbefore⟩ := tasks_of_exit hq
  rcases tasks_goOn hbefore with ⟨rfl, hr⟩ | ⟨-, hqp, -⟩ | ⟨-, -, hother⟩
  · -- the child is in the foreground
    cases hr
    have hg' : (t.goOn pid p a.pid p code).foreground pid = some p.group := hg
    have hkilled : (Task.going p code).Killed p.group := ⟨rfl, hdefault⟩
    simp [Table.exit, hg', hs, hqne, hbefore, hkilled, Option.filter] at hq
  · exact hqne hqp
  · rw [h.tasks] at hother
    simp [hqne] at hother

/--
If nothing is refused, the program is not lost in any schedule exactly if the process that starts it
is not exposed to a hangup.
-/
theorem Launch.alive_iff (h : Launch t pid p (.forkProcess :: code))
    (hwp : wp A False limit post (.forkProcess :: code) pid p)
    (hpost : ∀ q r, post q r → r.session ≠ q) (hA : Excused A False)
    (hfree : ∃ a, A a ∧ t.Free a.pid) :
    (∀ es, Along (Table.step limit) (Table.Allowed A) t es →
      Alive (run (Table.step limit) t es)) ↔ ¬ Exposed t pid p := by
  constructor
  · intro halive hexposed
    obtain ⟨a, ha, hfree⟩ := hfree
    obtain ⟨hgranted, -⟩ := (hA a ha).resolve_left id
    obtain ⟨hforked, hleaving⟩ := h.forked limit hgranted hfree
    have hallowed : Along (Table.step limit) (Table.Allowed A) t [.turn pid a, .turn pid a] := by
      refine ⟨⟨ha, fun _ _ _ => hfree⟩, ⟨ha, fun r code' hr => ?_⟩, trivial⟩
      rw [hforked, hleaving] at hr
      cases hr
    exact h.not_alive hexposed hgranted hfree (halive _ hallowed)
  · intro hexposed es hes
    have hstart : Alive t := ⟨pid, p, _, by rw [h.tasks]; exact if_pos rfl⟩
    have hall := always_of_along
      (I := fun t => Chain A False limit post t ∧ Sheltered t ∧ Alive t)
      (fun t e hI he => ⟨hI.1.step he, hI.2.1.step hI.1 hpost he,
        hI.2.2.step hI.1 hpost hI.2.1 he⟩)
      ⟨h.chain hwp, h.sheltered hexposed, hstart⟩ hes
    exact hall.last.2.2

end Runs

end Unix
