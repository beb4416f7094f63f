import Mathlib.Logic.Function.Basic
import CSEL1.Transition.Basic

/-! # Processes

Processes with their sessions and process groups, signal handling, descriptors and
identifiers, and programs that are lists of system calls. After a fork the child goes on
with the program and the parent exits, so that at each time one process runs it. The
kernel schedules the processes in any order and answers each call.
-/

namespace Unix

open Function

inductive Signal | hup | int | quit | abrt | term | tstp
  deriving DecidableEq, Repr

inductive Disposition | default | ignored | caught
  deriving DecidableEq, Repr

structure Ids where
  uid : ℕ
  euid : ℕ
  suid : ℕ
  gid : ℕ
  egid : ℕ
  sgid : ℕ
  deriving DecidableEq, Repr

inductive File
  | inherited (n : ℕ)
  | null
  | log
  deriving DecidableEq, Repr

structure Process where
  session : ℕ
  group : ℕ
  handling : Signal → Disposition
  mask : ℕ
  root : String
  cwd : String
  fds : ℕ → Option File
  ids : Ids
  /-- user and group found by `getpwnam` -/
  entry : Option (ℕ × ℕ)

def Process.lowest (limit : ℕ) (p : Process) : Option ℕ :=
  (List.range limit).find? fun fd => (p.fds fd).isNone

/-- What the kernel answers to a call: the child's number, the entry of the user. -/
structure KernelAnswer where
  granted : Bool
  pid : ℕ
  entry : Option (ℕ × ℕ)
  deriving DecidableEq, Repr

inductive Syscall
  | forkProcess
  | setsid
  | sigaction (sig : Signal)
  | umask (mask : ℕ)
  | chdir
  | close (fd : ℕ)
  | openNull (fd : ℕ)
  | dup2 (src dst : ℕ)
  | openlog
  | getpwnam
  | chroot
  | setegid
  | seteuid
  deriving DecidableEq, Repr

/--
A call of process `pid`. The result is the process that goes on with the program, which after a
fork is the child, and `none` if the program exits with an error.
-/
def Process.perform (limit pid : ℕ) (p : Process) (a : KernelAnswer) :
    Syscall → Option (ℕ × Process)
  | .forkProcess => if a.granted then some (a.pid, p) else none
  | .setsid => if p.group = pid then none else some (pid, { p with session := pid, group := pid })
  | .sigaction sig => some (pid, { p with handling := update p.handling sig .caught })
  | .umask mask => some (pid, { p with mask := mask })
  | .chdir => if a.granted then some (pid, { p with cwd := p.root }) else none
  | .close fd => some (pid, { p with fds := update p.fds fd none })
  | .openNull fd =>
    if a.granted ∧ p.lowest limit = some fd then
      some (pid, { p with fds := update p.fds fd (some .null) })
    else none
  | .dup2 src dst =>
    if (p.fds src).isSome ∧ dst < limit then
      some (pid, { p with fds := update p.fds dst (p.fds src) })
    else none
  | .openlog =>
    match p.lowest limit with
    | some fd =>
      some (pid, if a.granted then { p with fds := update p.fds fd (some .log) } else p)
    | none => some (pid, p)
  | .getpwnam => a.entry.map fun entry => (pid, { p with entry := some entry })
  | .chroot =>
    if a.granted ∧ p.ids.euid = 0 then some (pid, { p with root := p.cwd }) else none
  | .setegid =>
    p.entry.bind fun entry =>
      if a.granted ∧ (p.ids.euid = 0 ∨ entry.2 ∈ [p.ids.gid, p.ids.egid, p.ids.sgid]) then
        some (pid, { p with ids := { p.ids with egid := entry.2 } })
      else none
  | .seteuid =>
    p.entry.bind fun entry =>
      if a.granted ∧ (p.ids.euid = 0 ∨ entry.1 ∈ [p.ids.uid, p.ids.euid, p.ids.suid]) then
        some (pid, { p with ids := { p.ids with euid := entry.1 } })
      else none

/-- A process on its way through the program, or about to exit after a fork. -/
inductive Task
  | going (p : Process) (code : List Syscall)
  | leaving (p : Process)

def Task.process : Task → Process
  | .going p _ => p
  | .leaving p => p

/-- The processes, and for each session with a controlling terminal its foreground group. -/
structure Table where
  tasks : ℕ → Option Task
  foreground : ℕ → Option ℕ

/-- The signal that a terminal hangs up ends the processes in the foreground. -/
def Task.Killed (foreground : ℕ) (r : Task) : Prop :=
  r.process.group = foreground ∧ r.process.handling .hup = .default

instance (foreground : ℕ) (r : Task) : Decidable (r.Killed foreground) :=
  inferInstanceAs (Decidable (_ ∧ _))

/-- With the leader of a session its controlling terminal hangs up. -/
def Table.exit (t : Table) (pid : ℕ) (p : Process) : Table :=
  match t.foreground pid with
  | some g =>
    if p.session = pid then
      ⟨update (fun q => (t.tasks q).filter fun r => ¬ r.Killed g) pid none,
        update t.foreground pid none⟩
    else { t with tasks := update t.tasks pid none }
  | none => { t with tasks := update t.tasks pid none }

/-- The process that goes on after a call; a parent is about to exit. -/
def Table.goOn (t : Table) (pid : ℕ) (p : Process) (pid' : ℕ) (p' : Process)
    (code : List Syscall) : Table :=
  { t with tasks := update (update t.tasks pid (some (.leaving p))) pid' (some (.going p' code)) }

/-- What a process does when it is scheduled; at the end of the program nothing. -/
def Table.turn (limit : ℕ) (t : Table) (pid : ℕ) (a : KernelAnswer) : Table :=
  match t.tasks pid with
  | none => t
  | some (.leaving p) => t.exit pid p
  | some (.going _ []) => t
  | some (.going p (call :: code)) =>
    match p.perform limit pid a call with
    | none => t.exit pid p
    | some (pid', p') => t.goOn pid p pid' p' code

/-- At the end of the program a process opens a terminal that controls no session. -/
def Table.openTerminal (t : Table) (pid : ℕ) : Table :=
  match t.tasks pid with
  | some (.going p []) =>
    if p.session = pid ∧ t.foreground pid = none then
      { t with foreground := update t.foreground pid (some p.group) }
    else t
  | _ => t

inductive TableEvent
  | turn (pid : ℕ) (a : KernelAnswer)
  | openTerminal (pid : ℕ)

def Table.step (limit : ℕ) (t : Table) : TableEvent → Table
  | .turn pid a => t.turn limit pid a
  | .openTerminal pid => t.openTerminal pid

structure Table.Free (t : Table) (pid : ℕ) : Prop where
  session : t.foreground pid = none
  group : ∀ s, t.foreground s ≠ some pid
  tasks : ∀ q r, t.tasks q = some r → q ≠ pid ∧ r.process.session ≠ pid ∧ r.process.group ≠ pid

/-- Answers as the kernel gives them: among those of `A`, and a child's number is free. -/
def Table.Allowed (A : KernelAnswer → Prop) (t : Table) : TableEvent → Prop
  | .turn pid a =>
    A a ∧ ∀ p code, t.tasks pid = some (.going p (.forkProcess :: code)) → t.Free a.pid
  | .openTerminal _ => True

@[simp] theorem foreground_goOn (t : Table) (pid : ℕ) (p : Process) (pid' : ℕ) (p' : Process)
    (code : List Syscall) : (t.goOn pid p pid' p' code).foreground = t.foreground := rfl

theorem lowest_eq_some_iff {limit fd : ℕ} {p : Process} :
    p.lowest limit = some fd ↔ fd < limit ∧ p.fds fd = none ∧ ∀ k < fd, p.fds k ≠ none := by
  have hsome : ∀ k, (p.fds k).isSome = true ↔ p.fds k ≠ none := fun k => Option.isSome_iff_ne_none
  simp only [Process.lowest, List.find?_range_eq_some, List.mem_range, Option.isNone_iff_eq_none,
    Bool.not_eq_true', Option.isNone_eq_false_iff, hsome]
  exact and_left_comm

section Exit

variable {t : Table} {pid q s : ℕ} {p : Process} {r : Task}

theorem tasks_exit_self (t : Table) (pid : ℕ) (p : Process) : (t.exit pid p).tasks pid = none := by
  unfold Table.exit
  split
  · split <;> simp
  · simp

theorem tasks_of_exit (h : (t.exit pid p).tasks q = some r) : q ≠ pid ∧ t.tasks q = some r := by
  have hne : q ≠ pid := by
    rintro rfl
    rw [tasks_exit_self] at h
    cases h
  refine ⟨hne, ?_⟩
  unfold Table.exit at h
  split at h
  · split at h
    · simp only [update_of_ne hne, Option.filter_eq_some_iff] at h
      exact h.1
    · simpa [update_of_ne hne] using h
  · simpa [update_of_ne hne] using h

theorem tasks_exit (hne : q ≠ pid) (h : t.tasks q = some r)
    (hkept : ∀ g, p.session = pid → t.foreground pid = some g → ¬ r.Killed g) :
    (t.exit pid p).tasks q = some r := by
  unfold Table.exit
  split
  · next g hg =>
    split
    · next hs =>
      simp only [update_of_ne hne, Option.filter_eq_some_iff]
      exact ⟨h, by simpa using hkept g hs hg⟩
    · simpa [update_of_ne hne] using h
  · simpa [update_of_ne hne] using h

theorem foreground_exit (t : Table) (pid : ℕ) (p : Process) (s : ℕ) :
    (t.exit pid p).foreground s = none ∨ (t.exit pid p).foreground s = t.foreground s := by
  unfold Table.exit
  split
  · split
    · by_cases hs : s = pid
      · exact Or.inl (hs ▸ update_self ..)
      · exact Or.inr (update_of_ne hs ..)
    · exact Or.inr rfl
  · exact Or.inr rfl

theorem foreground_of_exit {g : ℕ} (h : (t.exit pid p).foreground s = some g) :
    t.foreground s = some g := by
  rcases foreground_exit t pid p s with hn | heq
  · rw [hn] at h
    cases h
  · rwa [heq] at h

end Exit

end Unix
