import CSEL1.Listing.Basic

/-! # What the recursive scan prints

The listing of a directory and of everything below it, as a recursion over the
directories that knows no working directory. As long as `..` leads back out of every
subdirectory, the scan prints exactly this listing and ends where it began. It comes
to an end exactly if it can enter every subdirectory it meets and they nest finitely.
-/

namespace CSEL1.Listing

variable {ι : Type*}

/-- A directory that is listed under a path, or the files of one whose subdirectories are left. -/
inductive Task (ι : Type*)
  | dir (d : ι) (path : List Char)
  | rest (d : ι) (path : List Char) (files : List (List Char))

inductive Prints (fs : FileSystem ι) (recursively : Bool) : Task ι → List Char → Prop
  | closed {d path} : (fs.dir d).readable = false →
      Prints fs recursively (.dir d path) (header path)
  | flat {d path} : (fs.dir d).readable = true → recursively = false →
      Prints fs recursively (.dir d path) (header path ++ infos fs d)
  | deep {d path text} : (fs.dir d).readable = true → recursively = true →
      Prints fs recursively (.rest d path (files fs d)) text →
      Prints fs recursively (.dir d path) (header path ++ infos fs d ++ text)
  | done {d path} : Prints fs recursively (.rest d path []) []
  | skip {d path file rest text} : isSubdir fs d file = false →
      Prints fs recursively (.rest d path rest) text →
      Prints fs recursively (.rest d path (file :: rest)) text
  | sub {d path file rest t text text'} : isSubdir fs d file = true →
      target? fs d file = some t → Prints fs recursively (.dir t (subPath path file)) text →
      Prints fs recursively (.rest d path rest) text' →
      Prints fs recursively (.rest d path (file :: rest)) (text ++ text')

/-- From a subdirectory that can be entered `..` leads back. -/
def LeadsBack (fs : FileSystem ι) : Prop :=
  ∀ d file t, isSubdir fs d file = true → target? fs d file = some t → (fs.dir t).parent = d

/-- Every subdirectory met below a directory can be entered, and they nest finitely. -/
inductive Enterable (fs : FileSystem ι) : ι → Prop
  | intro {d} :
      ((fs.dir d).readable = true → ∀ file ∈ files fs d, isSubdir fs d file = true →
        (target? fs d file).isSome) →
      ((fs.dir d).readable = true → ∀ file ∈ files fs d, isSubdir fs d file = true →
        ∀ t, target? fs d file = some t → Enterable fs t) → Enterable fs d

def Task.run (fs : FileSystem ι) (recursively : Bool) (fuel : ℕ) (out : List Char) :
    Task ι → Option (Proc ι)
  | .dir d path => scanDir fs recursively fuel path ⟨d, out⟩
  | .rest d path left => left.foldlM (visit fs (scanDir fs recursively fuel) path) ⟨d, out⟩

def Task.cwd : Task ι → ι
  | .dir d _ => d
  | .rest d _ _ => d

def Task.Enterable (fs : FileSystem ι) : Task ι → Prop
  | .dir d _ => Listing.Enterable fs d
  | .rest d _ left => ∀ file ∈ left, isSubdir fs d file = true →
      ∃ t, target? fs d file = some t ∧ Listing.Enterable fs t

section Scan

variable {fs : FileSystem ι} {recursively : Bool} {d : ι} {path : List Char}

theorem Prints.entered {rest text : List _}
    (h : Prints fs recursively (.rest d path rest) text) {file : List Char} (hmem : file ∈ rest)
    (hsub : isSubdir fs d file = true) :
    ∃ t text', target? fs d file = some t ∧
      Prints fs recursively (.dir t (subPath path file)) text' := by
  induction rest generalizing text with
  | nil => cases hmem
  | cons file' rest ih =>
    cases h with
    | skip hfile hrest =>
      rcases List.mem_cons.mp hmem with rfl | hmem
      · rw [hsub] at hfile
        cases hfile
      · exact ih hrest hmem
    | sub _ ht hdir hrest =>
      rcases List.mem_cons.mp hmem with rfl | hmem
      · exact ⟨_, _, ht, hdir⟩
      · exact ih hrest hmem

theorem Prints.entered_dir {text : List Char} (h : Prints fs true (.dir d path) text)
    (hread : (fs.dir d).readable = true) {file : List Char} (hmem : file ∈ files fs d)
    (hsub : isSubdir fs d file = true) :
    ∃ t text', target? fs d file = some t ∧
      Prints fs true (.dir t (subPath path file)) text' := by
  cases h with
  | closed hclosed =>
    rw [hread] at hclosed
    cases hclosed
  | flat _ hflat => cases hflat
  | deep _ _ hrest => exact hrest.entered hmem hsub

theorem visit_sound (hback : LeadsBack fs) (hread : (fs.dir d).readable = true)
    {scan : List Char → Proc ι → Option (Proc ι)}
    (hscan : ∀ {d path out s}, scan path ⟨d, out⟩ = some s →
      ∃ text, Prints fs true (.dir d path) text ∧ s = ⟨d, out ++ text⟩)
    {file : List Char} (hmem : file ∈ files fs d) {out : List Char} {s : Proc ι}
    (h : visit fs scan path ⟨d, out⟩ file = some s) :
    (isSubdir fs d file = false ∧ s = ⟨d, out⟩) ∨
      ∃ t text, isSubdir fs d file = true ∧ target? fs d file = some t ∧
        Prints fs true (.dir t (subPath path file)) text ∧ s = ⟨d, out ++ text⟩ := by
  unfold visit at h
  split at h
  · next hsub =>
    right
    obtain ⟨s', hs', rfl⟩ := Option.map_eq_some_iff.mp h
    cases ht : target? fs d file with
    | none =>
      -- the same directory would be listed again, and again meet this file
      have hstay : chdir fs file ⟨d, out⟩ = ⟨d, out⟩ := by rw [chdir, ht, Option.getD_none]
      rw [hstay] at hs'
      obtain ⟨text, htext, -⟩ := hscan hs'
      obtain ⟨t, -, ht', -⟩ := htext.entered_dir hread hmem hsub
      rw [ht] at ht'
      cases ht'
    | some t =>
      rw [chdir, ht] at hs'
      obtain ⟨text, htext, rfl⟩ := hscan hs'
      refine ⟨t, text, hsub, rfl, htext, ?_⟩
      rw [chdirUp, Option.getD_some, hback d file t hsub ht]
  · next hsub => exact Or.inl ⟨by simpa using hsub, (Option.some.inj h).symm⟩

theorem visits_sound (hback : LeadsBack fs) (hread : (fs.dir d).readable = true)
    {scan : List Char → Proc ι → Option (Proc ι)}
    (hscan : ∀ {d path out s}, scan path ⟨d, out⟩ = some s →
      ∃ text, Prints fs true (.dir d path) text ∧ s = ⟨d, out ++ text⟩)
    {rest : List (List Char)} (hrest : ∀ file ∈ rest, file ∈ files fs d) {out : List Char}
    {s : Proc ι} (h : rest.foldlM (visit fs scan path) ⟨d, out⟩ = some s) :
    ∃ text, Prints fs true (.rest d path rest) text ∧ s = ⟨d, out ++ text⟩ := by
  induction rest generalizing out with
  | nil =>
    refine ⟨[], .done, ?_⟩
    rw [List.append_nil]
    exact (Option.some.inj h).symm
  | cons file rest ih =>
    rw [List.foldlM_cons, Option.bind_eq_bind, Option.bind_eq_some_iff] at h
    obtain ⟨s', hs', h⟩ := h
    have hrest' : ∀ file ∈ rest, file ∈ files fs d :=
      fun file' hmem => hrest file' (List.mem_cons_of_mem file hmem)
    rcases visit_sound hback hread hscan (hrest file List.mem_cons_self) hs' with
      ⟨hsub, rfl⟩ | ⟨t, text, hsub, ht, htext, rfl⟩
    · obtain ⟨text, htext, rfl⟩ := ih hrest' h
      exact ⟨text, .skip hsub htext, rfl⟩
    · obtain ⟨text', htext', rfl⟩ := ih hrest' h
      exact ⟨text ++ text', .sub hsub ht htext htext', by rw [List.append_assoc]⟩

/-- What a scan that has come to its end has done. -/
theorem scanDir_sound (hback : LeadsBack fs) {fuel : ℕ} {out : List Char} {s : Proc ι}
    (h : scanDir fs recursively fuel path ⟨d, out⟩ = some s) :
    ∃ text, Prints fs recursively (.dir d path) text ∧ s = ⟨d, out ++ text⟩ := by
  induction fuel generalizing d path out s with
  | zero => cases h
  | succ fuel ih =>
    unfold scanDir at h
    dsimp only at h
    split at h
    · next hread =>
      cases recursively with
      | false =>
        refine ⟨_, .flat hread rfl, ?_⟩
        rw [← List.append_assoc]
        exact (Option.some.inj h).symm
      | true =>
        obtain ⟨text, htext, rfl⟩ := visits_sound hback hread ih (fun _ hmem => hmem) h
        refine ⟨_, .deep hread rfl htext, ?_⟩
        simp only [List.append_assoc]
    · next hread => exact ⟨_, .closed (by simpa using hread), (Option.some.inj h).symm⟩

/-- A scan of what has a listing comes to its end. -/
theorem Prints.runs (hback : LeadsBack fs) {task : Task ι} {text : List Char}
    (h : Prints fs recursively task text) :
    ∃ n, ∀ fuel ≥ n, ∀ out, task.run fs recursively fuel out = some ⟨task.cwd, out ++ text⟩ := by
  induction h with
  | closed hread =>
    refine ⟨1, fun fuel hfuel out => ?_⟩
    obtain ⟨fuel, rfl⟩ : ∃ n, fuel = n + 1 := ⟨fuel - 1, by omega⟩
    simp [Task.run, Task.cwd, scanDir, hread]
  | flat hread hflat =>
    refine ⟨1, fun fuel hfuel out => ?_⟩
    obtain ⟨fuel, rfl⟩ : ∃ n, fuel = n + 1 := ⟨fuel - 1, by omega⟩
    simp [Task.run, Task.cwd, scanDir, hread, hflat]
  | deep hread hdeep _ ih =>
    obtain ⟨n, hn⟩ := ih
    refine ⟨n + 1, fun fuel hfuel out => ?_⟩
    obtain ⟨fuel, rfl⟩ : ∃ n, fuel = n + 1 := ⟨fuel - 1, by omega⟩
    have hrest := hn fuel (by omega)
    subst hdeep
    simp only [Task.run, Task.cwd] at hrest ⊢
    simp [scanDir, hread, hrest]
  | done => exact ⟨0, fun fuel _ out => by simp [Task.run, Task.cwd]⟩
  | skip hsub _ ih =>
    obtain ⟨n, hn⟩ := ih
    refine ⟨n, fun fuel hfuel out => ?_⟩
    have hrest := hn fuel hfuel out
    simpa [Task.run, Task.cwd, List.foldlM_cons, visit, hsub] using hrest
  | @sub d path file rest t text text' hsub ht _ _ ih ih' =>
    obtain ⟨n, hn⟩ := ih
    obtain ⟨n', hn'⟩ := ih'
    refine ⟨max n n', fun fuel hfuel out => ?_⟩
    have hdir := hn fuel (by omega) out
    have hrest := hn' fuel (by omega) (out ++ text)
    have hup := hback d file t hsub ht
    simp only [Task.run, Task.cwd] at hdir hrest ⊢
    have hvisit : visit fs (scanDir fs recursively fuel) path ⟨d, out⟩ file =
        some ⟨d, out ++ text⟩ := by
      rw [visit, if_pos hsub, chdir, ht, Option.getD_some, hdir, Option.map_some, chdirUp, hup]
    rw [List.foldlM_cons, hvisit, Option.bind_eq_bind, Option.bind_some, hrest, List.append_assoc]

theorem Prints.enterable {task : Task ι} {text : List Char} (h : Prints fs true task text) :
    task.Enterable fs := by
  induction h with
  | closed hread => exact ⟨fun h => by simp [hread] at h, fun h => by simp [hread] at h⟩
  | flat _ hflat => cases hflat
  | deep hread _ _ ih =>
    refine ⟨fun _ file hmem hsub => ?_, fun _ file hmem hsub t ht => ?_⟩
    · obtain ⟨t, ht, -⟩ := ih file hmem hsub
      rw [ht, Option.isSome_some]
    · obtain ⟨t', ht', henter⟩ := ih file hmem hsub
      obtain rfl : t' = t := Option.some.inj (ht'.symm.trans ht)
      exact henter
  | done => exact fun file hmem => by cases hmem
  | skip hsub _ ih =>
    intro file hmem hfile
    rcases List.mem_cons.mp hmem with rfl | hmem
    · rw [hfile] at hsub
      cases hsub
    · exact ih file hmem hfile
  | sub _ ht _ _ ih ih' =>
    intro file hmem hfile
    rcases List.mem_cons.mp hmem with rfl | hmem
    · exact ⟨_, ht, ih⟩
    · exact ih' file hmem hfile

theorem Enterable.prints (h : Enterable fs d) (path : List Char) :
    ∃ text, Prints fs true (.dir d path) text := by
  induction h generalizing path with
  | @intro d henter hsubs ih =>
    cases hread : (fs.dir d).readable with
    | false => exact ⟨_, .closed hread⟩
    | true =>
      have hrest : ∀ rest, (∀ file ∈ rest, file ∈ files fs d) →
          ∃ text, Prints fs true (.rest d path rest) text := by
        intro rest hmem
        induction rest with
        | nil => exact ⟨_, .done⟩
        | cons file rest ihrest =>
          have hfile := hmem file List.mem_cons_self
          obtain ⟨text', htext'⟩ := ihrest fun f hf => hmem f (List.mem_cons_of_mem file hf)
          cases hsub : isSubdir fs d file with
          | false => exact ⟨_, .skip hsub htext'⟩
          | true =>
            obtain ⟨t, ht⟩ := Option.isSome_iff_exists.mp (henter hread file hfile hsub)
            obtain ⟨text, htext⟩ := ih hread file hfile hsub t ht (subPath path file)
            exact ⟨_, .sub hsub ht htext htext'⟩
      obtain ⟨text, htext⟩ := hrest (files fs d) fun _ hmem => hmem
      exact ⟨_, .deep hread rfl htext⟩

end Scan

section Results

variable {fs : FileSystem ι} (recursively : Bool) (d : ι) (path : List Char)

/--
The scan is the listing: deep enough calls print it and come back to the directory, and a scan that
ends has printed it, and nothing else.
-/
theorem scanDir_refines_prints (hback : LeadsBack fs) (out : List Char) :
    (∀ text, Prints fs recursively (.dir d path) text ↔
      ∃ n, ∀ fuel ≥ n, scanDir fs recursively fuel path ⟨d, out⟩ = some ⟨d, out ++ text⟩) ∧
    ∀ fuel s, scanDir fs recursively fuel path ⟨d, out⟩ = some s →
      ∃ text, Prints fs recursively (.dir d path) text ∧ s = ⟨d, out ++ text⟩ := by
  refine ⟨fun text => ⟨fun h => ?_, ?_⟩, fun fuel s h => scanDir_sound hback h⟩
  · obtain ⟨n, hn⟩ := h.runs hback
    exact ⟨n, fun fuel hfuel => hn fuel hfuel out⟩
  · rintro ⟨n, hn⟩
    obtain ⟨text', htext', heq⟩ := scanDir_sound hback (hn n le_rfl)
    obtain rfl : text = text' := List.append_cancel_left (congrArg Proc.out heq)
    exact htext'

/--
A recursive scan ends exactly if every readable directory it reaches can be left for each of its
subdirectories, and they nest finitely.
-/
theorem scanDir_ends_iff (hback : LeadsBack fs) (out : List Char) :
    (∃ fuel s, scanDir fs true fuel path ⟨d, out⟩ = some s) ↔ Enterable fs d := by
  constructor
  · rintro ⟨fuel, s, h⟩
    obtain ⟨text, htext, -⟩ := scanDir_sound hback h
    exact htext.enterable
  · intro h
    obtain ⟨text, htext⟩ := h.prints path
    obtain ⟨n, hn⟩ := htext.runs hback
    exact ⟨n, _, hn n le_rfl out⟩

end Results

section Sample

-- a directory with a subdirectory `b`, which can or cannot be entered
def sampleStatus : Status := ⟨1, 0o040755, 2, 0, 0⟩

def sample (enter : Option Bool) : FileSystem Bool where
  dir d :=
    if d then ⟨true, [⟨['.'], some sampleStatus, some true⟩], false⟩
    else ⟨true, [⟨['b'], some sampleStatus, enter⟩, ⟨['.'], some sampleStatus, some false⟩], false⟩
  ctime _ := ['\n']

theorem isSubdir_sample {enter : Option Bool} {d : Bool} {file : List Char}
    (h : isSubdir (sample enter) d file = true) : d = false ∧ file = ['b'] := by
  by_cases hdot : file = ['.']
  · subst hdot
    simp [isSubdir] at h
  have hdot : (['.'] == file) = false := beq_eq_false_iff_ne.mpr (Ne.symm hdot)
  cases d with
  | true => simp [isSubdir, stat, entryOf, sample, hdot] at h
  | false =>
    refine ⟨rfl, ?_⟩
    by_contra hb
    have hb : (['b'] == file) = false := beq_eq_false_iff_ne.mpr (Ne.symm hb)
    simp [isSubdir, stat, entryOf, sample, hb, hdot] at h

theorem leadsBack_sample (enter : Option Bool) (h : enter ≠ some false) :
    LeadsBack (sample enter) := by
  intro d file t hsub ht
  obtain ⟨rfl, rfl⟩ := isSubdir_sample hsub
  cases t with
  | true => rfl
  | false => exact absurd ht h

/-- A directory and its subdirectory are listed. -/
theorem scanDir_refines_prints_sample :
    ∃ text, Prints (sample (some true)) true (.dir false ['.']) text := by
  have h := (scanDir_refines_prints true false ['.']
    (leadsBack_sample (some true) (by decide)) []).2 2
  obtain ⟨text, htext, -⟩ := h _ rfl
  exact ⟨text, htext⟩

/-- A subdirectory that cannot be entered is scanned for ever. -/
theorem scanDir_ends_iff_sample :
    ¬ ∃ fuel s, scanDir (sample none) true fuel ['.'] ⟨false, []⟩ = some s := by
  rw [scanDir_ends_iff false ['.'] (leadsBack_sample none (by decide))]
  rintro ⟨h, -⟩
  have := h rfl ['b'] (by decide) (by decide)
  exact absurd this (by decide)

end Sample

end CSEL1.Listing
