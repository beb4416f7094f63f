import CSEL1.Unix.Chain

/-! # Becoming a daemon

The twelve steps by which the daemon of the project and the example daemon leave the
session, the descriptors and the identity they were started with. A second example, to
be started by init, skips the first three of them.
-/

namespace CSEL1.Daemonize

open Unix Function Transition

/-- `for (int fd = sysconf(_SC_OPEN_MAX); fd >= 0; fd--) close (fd);` -/
def closeAll : ℕ → List Syscall
  | 0 => [.close 0]
  | fd + 1 => .close (fd + 1) :: closeAll fd

/-- Steps 4 to 12. -/
def settle (limit : ℕ) : List Syscall :=
  [.sigaction .hup, .sigaction .int, .sigaction .quit, .sigaction .abrt, .sigaction .term,
    .sigaction .tstp, .umask 0o027, .chdir] ++
  (closeAll limit ++
  [.openNull 0, .dup2 0 1, .dup2 0 2, .openlog, .getpwnam, .chroot, .setegid, .seteuid])

/-- `daemon.c` -/
def daemon (limit : ℕ) : List Syscall :=
  .forkProcess :: .setsid :: .forkProcess :: settle limit

/-- `process.c`: "daemon's steps 1 to 3 skipt" -/
def process (limit : ℕ) : List Syscall := settle limit

/-- The daemon of the project takes the steps if it is told to. -/
def fanDaemon (limit : ℕ) : List String → List Syscall
  | [_, "-d"] => daemon limit
  | _ => []

/-- The steps are those of the example, or of the project's program called with `-d`. -/
def IsDaemon (limit : ℕ) (code : List Syscall) : Prop :=
  code = daemon limit ∨ ∃ name, code = fanDaemon limit [name, "-d"]

theorem IsDaemon.eq {limit : ℕ} {code : List Syscall} (h : IsDaemon limit code) :
    code = daemon limit := by
  rcases h with rfl | ⟨name, rfl⟩ <;> rfl

/-- What is open after all descriptors have been closed and the standard ones redirected. -/
structure Redirected (limit : ℕ) (fds fds' : ℕ → Option File) : Prop where
  standard : ∀ fd < 3, fds' fd = some .null
  log : fds' 3 = none ∨ fds' 3 = some .log
  closed : ∀ fd, 3 < fd → fd ≤ limit → fds' fd = none
  kept : ∀ fd, limit < fd → fds' fd = fds fd

structure Settled (limit : ℕ) (p r : Process) : Prop where
  caught : ∀ sig, r.handling sig = .caught
  mask : r.mask = 0o027
  directory : r.cwd = p.root ∧ r.root = p.root
  fds : Redirected limit p.fds r.fds
  user : ∃ entry : ℕ × ℕ, r.entry = some entry ∧
    r.ids = { p.ids with euid := entry.1, egid := entry.2 }
  superuser : p.ids.euid = 0

section Wp

variable {A : KernelAnswer → Prop} {fail : Prop} {limit pid : ℕ} {p : Process}
  {post : ℕ → Process → Prop} {code : List Syscall}

theorem wp_closeAll {n : ℕ}
    (h : wp A fail limit post code pid
      { p with fds := fun fd => if fd ≤ n then none else p.fds fd }) :
    wp A fail limit post (closeAll n ++ code) pid p := by
  induction n generalizing p with
  | zero =>
    apply wp_close
    have hfds : (fun fd => if fd ≤ 0 then none else p.fds fd) = update p.fds 0 none := by
      ext fd : 1
      by_cases hfd : fd = 0 <;> simp [hfd]
    rwa [hfds] at h
  | succ n ih =>
    apply wp_close
    apply ih
    have hfds : (fun fd => if fd ≤ n then none else update p.fds (n + 1) none fd) =
        fun fd => if fd ≤ n + 1 then none else p.fds fd := by
      ext fd : 1
      by_cases hfd : fd = n + 1
      · simp [hfd]
      · have hle : fd ≤ n + 1 ↔ fd ≤ n := by omega
        simp [update_of_ne hfd, hle]
    rwa [hfds]

theorem standard_eq (fds : ℕ → Option File) :
    update (update (update fds 0 (some .null)) 1 (some .null)) 2 (some .null) =
      fun fd => if fd < 3 then some .null else fds fd := by
  ext fd : 1
  simp only [update_apply]
  split_ifs <;> first | rfl | omega

theorem redirected_standard {fds fds' : ℕ → Option File}
    (hfds : fds' = fun fd => if fd ≤ limit then none else fds fd) (hlimit : 2 < limit) :
    Redirected limit fds (fun fd => if fd < 3 then some .null else fds' fd) where
  standard fd hfd := if_pos hfd
  log := Or.inl (by simp [hfds]; omega)
  closed fd hfd hle := by simp [hfds, hle, show ¬ fd < 3 by omega]
  kept fd hfd := by simp [hfds, show ¬ fd ≤ limit by omega, show ¬ fd < 3 by omega]

theorem Redirected.openlog {fds : ℕ → Option File} {r : Process} (h : Redirected limit fds r.fds)
    (h3 : r.fds 3 = none) {fd : ℕ} (hlow : r.lowest limit = some fd) :
    Redirected limit fds (update r.fds fd (some .log)) := by
  obtain ⟨hlt, hfree, hbelow⟩ := lowest_eq_some_iff.mp hlow
  have hge : 3 ≤ fd := by
    by_contra hfd
    rw [h.standard fd (by omega)] at hfree
    cases hfree
  obtain rfl : fd = 3 := by
    by_contra hne
    exact hbelow 3 (by omega) h3
  constructor
  · intro fd hfd
    rw [update_of_ne (by omega)]
    exact h.standard fd hfd
  · exact Or.inr (update_self ..)
  · intro fd hfd hle
    rw [update_of_ne (by omega)]
    exact h.closed fd hfd hle
  · intro fd hfd
    rw [update_of_ne (by omega)]
    exact h.kept fd hfd

theorem wp_redirect (hA : Excused A fail) (hlimit : limit < 3 → fail) {fds : ℕ → Option File}
    (hfds : p.fds = fun fd => if fd ≤ limit then none else fds fd)
    (h : ∀ fds', Redirected limit fds fds' → wp A fail limit post code pid { p with fds := fds' }) :
    wp A fail limit post
      (.openNull 0 :: .dup2 0 1 :: .dup2 0 2 :: .openlog :: code) pid p := by
  apply wp_openNull hA
  · intro hlow
    apply hlimit
    by_contra hlt
    exact hlow (lowest_eq_some_iff.mpr ⟨by omega, by simp [hfds], by simp⟩)
  intro _
  apply wp_dup2
  · intro hfull
    apply hlimit
    by_contra hlt
    exact hfull ⟨by simp, by omega⟩
  intro _
  apply wp_dup2
  · intro hfull
    apply hlimit
    by_contra hlt
    exact hfull ⟨by simp, by omega⟩
  intro h2
  have hdup : update (update p.fds 0 (some .null)) 1 (some .null) 0 = some .null := by simp
  simp only [update_self, hdup, standard_eq]
  have hred := redirected_standard hfds h2
  apply wp_openlog
  · exact h _ hred
  · intro fd hlow
    have hfree : (if 3 < 3 then some .null else p.fds 3) = none := by simp [hfds]; omega
    exact h _ (Redirected.openlog (r := { p with fds := _ }) hred hfree hlow)

/-- Only refusals, a user without the rights or too small a limit make the steps fail. -/
theorem wp_settle (hA : Excused A fail) (hroot : p.ids.euid ≠ 0 → fail)
    (hlimit : limit < 3 → fail)
    (hpost : ∀ r, r.session = p.session → r.group = p.group → Settled limit p r → post pid r) :
    wp A fail limit post (settle limit) pid p := by
  iterate 6 apply wp_sigaction
  apply wp_umask
  apply wp_chdir hA
  apply wp_closeAll
  apply wp_redirect hA hlimit
  · rfl
  intro fds' hfds'
  apply wp_getpwnam hA
  intro entry
  apply wp_chroot hA
  · exact hroot
  intro hsuper
  apply wp_setegid hA rfl
  · exact hsuper
  apply wp_seteuid hA rfl
  · exact hsuper
  refine hpost _ ?_ ?_ ?_
  · rfl
  · rfl
  refine ⟨?_, rfl, ⟨rfl, rfl⟩, hfds', ⟨entry, rfl, rfl⟩, hsuper⟩
  intro sig
  cases sig <;> simp

theorem wp_daemon (hA : Excused A fail) (hroot : p.ids.euid ≠ 0 → fail) (hlimit : limit < 3 → fail)
    (hpost : ∀ q r, r.session ≠ q → r.group = r.session → Settled limit p r → post q r) :
    wp A fail limit post (daemon limit) pid p := by
  apply wp_forkProcess hA
  intro child _ _ hgroup
  apply wp_setsid
  · intro heq
    exact absurd heq.symm hgroup
  intro _
  apply wp_forkProcess hA
  intro grandchild _ hsession _
  apply wp_settle hA
  · exact hroot
  · exact hlimit
  rintro r hs hg ⟨hcaught, hmask, hdir, hfds, huser, hsuper⟩
  refine hpost _ _ ?_ ?_ ⟨hcaught, hmask, hdir, hfds, huser, hsuper⟩
  · rw [hs]
    exact hsession.symm
  · rw [hs, hg]

end Wp

def Any (_ : KernelAnswer) : Prop := True

def Granted (a : KernelAnswer) : Prop := a.granted = true ∧ a.entry.isSome = true

theorem excused_any : Excused Any True := fun _ _ => Or.inl trivial

theorem excused_granted : Excused Granted False := fun _ ha => Or.inr ha

structure Daemonized (limit : ℕ) (t : Table) (p : Process) (q : ℕ) (r : Process) : Prop where
  leads_nothing : r.session ≠ q ∧ r.group ≠ q
  no_terminal : t.foreground r.session = none
  settled : Settled limit p r
  only : ∀ q' r' code, t.tasks q' = some (.going r' code) → q' = q

section Runs

variable {limit pid : ℕ} {p : Process} {t : Table} {code : List Syscall}

/--
Whatever the schedule and the kernel's answers, the process that has taken all steps leads no
session and never gets a controlling terminal, is the only one that runs the program, and has
nothing open but the standard descriptors, the log and what lay above the limit.
-/
theorem run_daemonized (hcode : IsDaemon limit code) (h : Launch t pid p code)
    {es : List TableEvent} (hes : Along (Table.step limit) (Table.Allowed Any) t es)
    {q : ℕ} {r : Process}
    (hq : (run (Table.step limit) t es).tasks q = some (.going r [])) :
    Daemonized limit (run (Table.step limit) t es) p q r := by
  obtain rfl := hcode.eq
  have hwp : wp Any True limit
      (fun q r => r.session ≠ q ∧ r.group = r.session ∧ Settled limit p r) (daemon limit) pid p :=
    wp_daemon excused_any (fun _ => trivial) (fun _ => trivial)
      fun q r hs hg hset => ⟨hs, hg, hset⟩
  obtain ⟨⟨hsession, hgroup, hsettled⟩, honly⟩ := h.run_post hwp hes hq
  have hterminal := h.run_detached (fun q r hr => hr.1) hwp (by simp [daemon]) hes hq
  exact ⟨⟨hsession, hgroup ▸ hsession⟩, hterminal, hsettled, honly⟩

/-- A superuser's shell has started a process in the foreground, with four descriptors at most. -/
def launched : Process where
  session := 10
  group := 100
  handling := fun _ => .default
  mask := 0
  root := "/"
  cwd := "/root"
  fds := fun fd => if fd < 3 then some (.inherited fd) else none
  ids := ⟨0, 0, 0, 0, 0, 0⟩
  entry := none

def start (code : List Syscall) : Table where
  tasks := fun q => if q = 100 then some (.going launched code) else none
  foreground := fun s => if s = 10 then some 100 else none

theorem launch_start (code : List Syscall) : Launch (start code) 100 launched code where
  tasks := rfl
  numbered := ⟨by simp [launched], by simp [start], fun _ _ => rfl⟩

theorem free_start (code : List Syscall) {child : ℕ} (h : 100 < child) :
    (start code).Free child where
  session := by simp [start]; omega
  group s := by simp [start]; omega
  tasks q r hq := by
    simp only [start, Option.ite_none_right_eq_some, Option.some.injEq] at hq
    obtain ⟨rfl, rfl⟩ := hq
    simp [Task.process, launched]
    omega

def granting (child : ℕ) : KernelAnswer := ⟨true, child, some (1, 1)⟩

/-- Process 102 gets to the end, and 100 and 101 have yet to exit. -/
def schedule : List TableEvent :=
  .turn 100 (granting 101) :: .turn 101 (granting 0) :: .turn 101 (granting 102) ::
    (List.replicate 21 (granting 0)).map (.turn 102)

theorem allowed_schedule :
    Along (Table.step 4) (Table.Allowed Any) (start (daemon 4)) schedule := by
  have hfree := free_start (daemon 4) (by decide : 100 < 102)
  refine ⟨⟨trivial, fun _ _ _ => free_start _ (by decide)⟩, ⟨trivial, ?_⟩,
    ⟨trivial, fun _ _ _ => ⟨hfree.session, hfree.group, ?_⟩⟩, along_turns ?_ fun _ _ => trivial⟩
  · intro p code h
    cases h
  · intro q r hq
    change (((start (daemon 4)).goOn 100 launched 101 launched _).goOn 101 launched 101 _ _).tasks
      q = some r at hq
    rcases tasks_goOn hq with ⟨rfl, rfl⟩ | ⟨hne, rfl, -⟩ | ⟨-, -, hq⟩
    · simp [Task.process, granting]
    · exact absurd rfl hne
    · rcases tasks_goOn hq with ⟨rfl, rfl⟩ | ⟨-, rfl, rfl⟩ | ⟨-, -, hq⟩
      · simp [Task.process, launched, granting]
      · simp [Task.process, launched, granting]
      · exact hfree.tasks q r hq
  · intro p code h
    cases h
    decide

theorem run_daemonized_start :
    ∃ r, Daemonized 4 (run (Table.step 4) (start (daemon 4)) schedule) launched 102 r :=
  ⟨_, run_daemonized (Or.inr ⟨"daemon", rfl⟩) (launch_start _) allowed_schedule rfl⟩

/-- Without the first three steps the process keeps its session and its group. -/
theorem run_process (h : Launch t pid p (process limit)) {es : List TableEvent}
    (hes : Along (Table.step limit) (Table.Allowed Any) t es) {q : ℕ} {r : Process}
    (hq : (run (Table.step limit) t es).tasks q = some (.going r [])) :
    q = pid ∧ r.session = p.session ∧ r.group = p.group ∧ Settled limit p r := by
  have hwp : wp Any True limit
      (fun q r => q = pid ∧ r.session = p.session ∧ r.group = p.group ∧ Settled limit p r)
      (process limit) pid p :=
    wp_settle excused_any (fun _ => trivial) (fun _ => trivial)
      fun r hs hg hset => ⟨rfl, hs, hg, hset⟩
  exact (h.run_post hwp hes hq).1

theorem run_process_start :
    ∃ r : Process, r.session = 10 ∧ r.group = 100 ∧ Settled 4 launched r := by
  have hes : Along (Table.step 4) (Table.Allowed Any) (start (process 4))
      ((List.replicate 21 (granting 0)).map (.turn 100)) := by
    refine along_turns ?_ fun _ _ => trivial
    intro p code h
    cases h
    decide
  obtain ⟨-, hsession, hgroup, hsettled⟩ := run_process (q := 100) (launch_start _) hes rfl
  exact ⟨_, hsession, hgroup, hsettled⟩

/--
If the superuser starts the daemon and the kernel refuses nothing, no schedule loses it exactly if
the process that starts it does not lead the session of a terminal in whose foreground it is: else
it can exit, and its terminal hang up, before the child has left the session.
-/
theorem run_alive_iff (hcode : IsDaemon limit code) (h : Launch t pid p code)
    (hroot : p.ids.euid = 0) (hlimit : 3 ≤ limit) (hfree : ∃ child, t.Free child) :
    (∀ es, Along (Table.step limit) (Table.Allowed Granted) t es →
      Alive (run (Table.step limit) t es)) ↔ ¬ Exposed t pid p := by
  obtain rfl := hcode.eq
  have hwp : wp Granted False limit (fun q r => r.session ≠ q) (daemon limit) pid p :=
    wp_daemon excused_granted (fun hne => hne hroot) (fun hlt => by omega) fun q r hs _ _ => hs
  obtain ⟨child, hchild⟩ := hfree
  exact h.alive_iff hwp (fun _ _ hs => hs) excused_granted
    ⟨granting child, ⟨rfl, rfl⟩, hchild⟩

end Runs

/-- The shell is the leader of the session. -/
theorem run_alive_iff_start :
    ¬ ∃ es, Along (Table.step 4) (Table.Allowed Granted) (start (daemon 4)) es ∧
      ¬ Alive (run (Table.step 4) (start (daemon 4)) es) := by
  rintro ⟨es, hes, hlost⟩
  have hiff := run_alive_iff (Or.inr ⟨"daemon", rfl⟩) (launch_start (daemon 4)) rfl (by decide)
    ⟨101, free_start _ (by decide)⟩
  exact hlost (hiff.mpr (fun h => absurd h.1 (by decide)) es hes)

end CSEL1.Daemonize
