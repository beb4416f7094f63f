import CSEL1.Text.Decimal
import Mathlib.Data.List.Sort

/-! # Directory listing

The list program prints a directory and, if asked to, everything below it. It walks
through the directories with its working directory: it changes into a subdirectory,
lists it and changes back to the parent. The file system does not change meanwhile.
-/

namespace CSEL1.Listing

open CText

/-- The fields of `struct stat` that are printed. -/
structure Status where
  ino : ℕ
  mode : UInt32
  nlink : ℕ
  size : ℕ
  mtime : ℤ
  deriving DecidableEq, Repr

/--
A name in a directory, the status of what it stands for unless `stat` fails, and the directory that
`chdir` changes to unless it fails.
-/
structure Entry (ι : Type*) where
  name : List Char
  status : Option Status
  enter : Option ι
  deriving DecidableEq, Repr

/-- A directory: whether `opendir` succeeds, what `readdir` returns, and where `..` leads. -/
structure Directory (ι : Type*) where
  readable : Bool
  entries : List (Entry ι)
  parent : ι

/-- The directories, and the text that `ctime_r` gives for a time. -/
structure FileSystem (ι : Type*) where
  dir : ι → Directory ι
  ctime : ℤ → List Char

structure Proc (ι : Type*) where
  cwd : ι
  out : List Char

section Modes

def sIFMT : UInt32 := 0o170000

def sISDIR (mode : UInt32) : Bool := mode &&& sIFMT == 0o040000

def mode2filetype (mode : UInt32) : Char :=
  if mode &&& sIFMT = 0o140000 then 's'
  else if mode &&& sIFMT = 0o120000 then 'l'
  else if mode &&& sIFMT = 0o100000 then '-'
  else if mode &&& sIFMT = 0o060000 then 'b'
  else if mode &&& sIFMT = 0o040000 then 'd'
  else if mode &&& sIFMT = 0o020000 then 'c'
  else if mode &&& sIFMT = 0o010000 then 'f'
  else '-'

/-- `mode & bit ? c : '-'` -/
def flag (mode bit : UInt32) (c : Char) : Char := if mode &&& bit ≠ 0 then c else '-'

/-- The text up to its terminator at index 11. -/
def mode2str (mode : UInt32) : List Char :=
  let buf :=
    [mode2filetype mode,
      flag mode 0o400 'r', flag mode 0o200 'w', flag mode 0o100 'x',
      flag mode 0o040 'r', flag mode 0o020 'w', flag mode 0o010 'x',
      flag mode 0o004 'r', flag mode 0o002 'w', flag mode 0o001 'x',
      flag mode 0o1000 't']
  let buf := if mode &&& 0o2000 ≠ 0 then buf.set 6 's' else buf
  if mode &&& 0o4000 ≠ 0 then buf.set 3 's' else buf

/-- What stands for the permission to execute: the bit for the identity comes first. -/
def execute (mode bit identity : UInt32) : Char :=
  if mode &&& identity ≠ 0 then 's' else flag mode bit 'x'

theorem mode2str_eq (mode : UInt32) : mode2str mode =
    [mode2filetype mode,
      flag mode 0o400 'r', flag mode 0o200 'w', execute mode 0o100 0o4000,
      flag mode 0o040 'r', flag mode 0o020 'w', execute mode 0o010 0o2000,
      flag mode 0o004 'r', flag mode 0o002 'w', flag mode 0o001 'x',
      flag mode 0o1000 't'] := by
  unfold mode2str execute
  split_ifs <;> rfl

theorem flag_eq_iff {c : Char} (hc : c ≠ '-') (m m' bit : UInt32) :
    flag m bit c = flag m' bit c ↔ (m &&& bit = 0 ↔ m' &&& bit = 0) := by
  unfold flag
  split_ifs with h h' h' <;> simp_all [eq_comm]

theorem execute_eq_iff (m m' bit identity : UInt32) :
    execute m bit identity = execute m' bit identity ↔
      (m &&& identity = 0 ↔ m' &&& identity = 0) ∧
        (m &&& identity = 0 → (m &&& bit = 0 ↔ m' &&& bit = 0)) := by
  have hflag : ∀ n, flag n bit 'x' ≠ 's' := by
    intro n
    unfold flag
    split <;> decide
  by_cases h : m &&& identity = 0 <;> by_cases h' : m' &&& identity = 0
  · simp [execute, h, h', flag_eq_iff]
  · simp [execute, h, h', hflag]
  · simp [execute, h, h', (hflag _).symm]
  · simp [execute, h, h']

/--
The text of a mode shows its type and every permission bit, but for the execute bits of the owner
and of the group below the bit for the identity.
-/
theorem mode2str_eq_iff (m m' : UInt32) :
    mode2str m = mode2str m' ↔
      mode2filetype m = mode2filetype m' ∧
        (∀ bit ∈ [0o4000, 0o2000, 0o1000, 0o400, 0o200, 0o040, 0o020, 0o004, 0o002, 0o001],
          (m &&& bit = 0 ↔ m' &&& bit = 0)) ∧
        (m &&& 0o4000 = 0 → (m &&& 0o100 = 0 ↔ m' &&& 0o100 = 0)) ∧
        (m &&& 0o2000 = 0 → (m &&& 0o010 = 0 ↔ m' &&& 0o010 = 0)) := by
  have hr : ('r' : Char) ≠ '-' := by decide
  have hw : ('w' : Char) ≠ '-' := by decide
  have hx : ('x' : Char) ≠ '-' := by decide
  have ht : ('t' : Char) ≠ '-' := by decide
  simp only [mode2str_eq, List.cons.injEq, and_true, flag_eq_iff hr, flag_eq_iff hw,
    flag_eq_iff hx, flag_eq_iff ht, execute_eq_iff, List.forall_mem_cons]
  constructor
  · rintro ⟨htype, h400, h200, ⟨h4000, h100⟩, h040, h020, ⟨h2000, h010⟩, h004, h002, h001, h1000⟩
    exact ⟨htype, ⟨h4000, h2000, h1000, h400, h200, h040, h020, h004, h002, h001,
      List.forall_mem_nil _⟩, h100, h010⟩
  · rintro ⟨htype, ⟨h4000, h2000, h1000, h400, h200, h040, h020, h004, h002, h001, -⟩, h100, h010⟩
    exact ⟨htype, h400, h200, ⟨h4000, h100⟩, h040, h020, ⟨h2000, h010⟩, h004, h002, h001, h1000⟩

end Modes

def padLeft (width : ℕ) (text : List Char) : List Char :=
  List.replicate (width - text.length) ' ' ++ text

/-- `strcmp(a, b) <= 0` -/
def strcmpLe : List Char → List Char → Bool
  | [], _ => true
  | _ :: _, [] => false
  | a :: as, b :: bs => a.toNat < b.toNat || (a = b && strcmpLe as bs)

section Scan

variable {ι : Type*} (fs : FileSystem ι)

/-- `time2str`, which overwrites the newline at the end. -/
def time2str (time : ℤ) : List Char := (fs.ctime time).dropLast

def printInfo (name : List Char) (s : Status) : List Char :=
  padLeft 10 (decimal s.ino) ++ ' ' :: mode2str s.mode ++ ' ' :: padLeft 3 (decimal s.nlink) ++
    ' ' :: padLeft 8 (decimal s.size) ++ ' ' :: time2str fs s.mtime ++ ' ' :: name ++ ['\n']

def entryOf (d : ι) (name : List Char) : Option (Entry ι) :=
  (fs.dir d).entries.find? (·.name == name)

def stat (d : ι) (name : List Char) : Option Status := (entryOf fs d name).bind Entry.status

def target? (d : ι) (name : List Char) : Option ι := (entryOf fs d name).bind Entry.enter

/-- `chdir`, whose result is not looked at. -/
def chdir (name : List Char) (s : Proc ι) : Proc ι :=
  { s with cwd := (target? fs s.cwd name).getD s.cwd }

def chdirUp (s : Proc ι) : Proc ι := { s with cwd := (fs.dir s.cwd).parent }

def files (d : ι) : List (List Char) :=
  ((fs.dir d).entries.map Entry.name).insertionSort (strcmpLe · ·)

def header (path : List Char) : List Char := '\n' :: '.' :: path ++ ['/', ':', '\n']

def infos (d : ι) : List Char :=
  (files fs d).flatMap fun file => (stat fs d file).elim [] (printInfo fs file)

def isSubdir (d : ι) (file : List Char) : Bool :=
  file != ['.'] && file != ['.', '.'] && (stat fs d file).any (sISDIR ·.mode)

def subPath (path file : List Char) : List Char := path ++ '/' :: file

def visit (scan : List Char → Proc ι → Option (Proc ι)) (path : List Char) (s : Proc ι)
    (file : List Char) : Option (Proc ι) :=
  if isSubdir fs s.cwd file then
    (scan (subPath path file) (chdir fs file s)).map (chdirUp fs)
  else some s

/-- `scan_dir`, or nothing if the calls nest deeper than the fuel. -/
def scanDir (recursively : Bool) : ℕ → List Char → Proc ι → Option (Proc ι)
  | 0, _, _ => none
  | fuel + 1, path, s =>
    let s := { s with out := s.out ++ header path }
    if (fs.dir s.cwd).readable then
      let listed := files fs s.cwd
      let s := { s with out := s.out ++ infos fs s.cwd }
      if recursively then listed.foldlM (visit fs (scanDir recursively fuel) path) s else some s
    else some s

end Scan

end CSEL1.Listing
