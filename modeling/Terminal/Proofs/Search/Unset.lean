import Terminal.Proofs.Search.FirstMatch

/-!
# Settings that are empty

An environment that is captured from variables has no setting that is present and empty.  In one
that was made otherwise, an empty terminal type counts as none, but the three settings that name
directories are used as they are: an empty one still puts a directory into the search, and with it a
candidate that is read from wherever the program happens to run.  `keepsSearch_of_unsets` says what
the search keeps if some empty settings are left out: all directories exactly if none was left out
that names one, and the candidates and the course of the search just then or without a terminal
type.
-/

namespace Terminal.Search

/-! ## Leaving out empty settings -/

/-- A setting that is kept, or that is left out because it is empty. -/
inductive Unset : Option Bytes → Option Bytes → Prop where
  | kept (setting : Option Bytes) : Unset setting setting
  | leftOut : Unset (some []) none

namespace Unset

variable {setting setting' : Option Bytes}

/-- Leaving a setting out adds nothing. -/
theorem length_le (h : Unset setting setting') :
    setting'.toList.length ≤ setting.toList.length := by
  cases h with
  | kept => exact Nat.le_refl _
  | leftOut => exact Nat.zero_le _

/-- What is left out is missed. -/
theorem eq_of_length_eq (h : Unset setting setting')
    (hlength : setting'.toList.length = setting.toList.length) : setting' = setting := by
  cases h with
  | kept => rfl
  | leftOut => cases hlength

/-- A setting that is not empty is kept. -/
theorem eq_of_ne (h : Unset setting setting') (hne : setting ≠ some []) : setting' = setting := by
  cases h with
  | kept => rfl
  | leftOut => exact absurd rfl hne

/-- What is left out is no terminal type. -/
theorem getD_eq (h : Unset setting setting') : setting'.getD [] = setting.getD [] := by
  cases h <;> rfl

end Unset

/-- The second environment is the first one without some of its empty settings. -/
structure Environment.Unsets (env env' : Environment) : Prop where
  term : Unset env.term env'.term
  terminfo : Unset env.terminfo env'.terminfo
  home : Unset env.home env'.home
  terminfoDirs : Unset env.terminfoDirs env'.terminfoDirs

/-- Two environments with the same settings that name directories. -/
structure Environment.SameDirectories (env env' : Environment) : Prop where
  terminfo : env'.terminfo = env.terminfo
  home : env'.home = env.home
  terminfoDirs : env'.terminfoDirs = env.terminfoDirs

/-! ## Directories and candidates -/

/-- Every setting that names a directory adds one to those of the system. -/
theorem length_directories (env : Environment) :
    (directories env).length =
      env.terminfo.toList.length + env.home.toList.length + env.terminfoDirs.toList.length + 3 := by
  have hhome : (env.home.map userDirectory).toList.length = env.home.toList.length := by
    cases env.home <;> rfl
  have hsystem : systemDirectories.length = 3 := by
    rw [systemDirectories, List.length_map]
    rfl
  rw [directories, List.length_append, List.length_append, List.length_append, hhome, hsystem]

section Unsets

variable {env env' : Environment}

/-- The directories depend on three settings only. -/
theorem Environment.SameDirectories.directories_eq (h : env.SameDirectories env') :
    directories env' = directories env := by
  rw [directories, directories, h.terminfo, h.home, h.terminfoDirs]

/-- Every setting that is left out takes a directory with it, so their number tells whether any
was. -/
theorem Environment.Unsets.sameDirectories_of_length_eq (h : env.Unsets env')
    (hlength : (directories env').length = (directories env).length) :
    env.SameDirectories env' := by
  rw [length_directories, length_directories] at hlength
  have hterminfo := h.terminfo.length_le
  have hhome := h.home.length_le
  have hdirs := h.terminfoDirs.length_le
  exact ⟨h.terminfo.eq_of_length_eq (by omega), h.home.eq_of_length_eq (by omega),
    h.terminfoDirs.eq_of_length_eq (by omega)⟩

/-- There is one candidate in every directory. -/
theorem length_of_candidates_eq_ok {paths : List Bytes} (h : candidates env = .ok paths) :
    paths.length = (directories env).length := by
  unfold candidates at h
  split at h
  · cases h
    exact List.length_map ..
  · cases h
  · cases h

/-- A terminal type that is not empty is kept and has candidates. -/
theorem Environment.Unsets.exists_candidates (h : env.Unsets env') (hterm : env.term.getD [] ≠ []) :
    env'.term = env.term ∧
      ∃ paths paths', candidates env = .ok paths ∧ candidates env' = .ok paths' := by
  cases hsetting : env.term with
  | none => simp [hsetting] at hterm
  | some term =>
    cases term with
    | nil => simp [hsetting] at hterm
    | cons initial rest =>
      have hkept : env'.term = some (initial :: rest) := by
        rw [h.term.eq_of_ne (by simp [hsetting]), hsetting]
      exact ⟨hkept, _, _, candidates_of_term hsetting, candidates_of_term hkept⟩

/-! ## What the search keeps -/

/-- A source without any content is read to the end. -/
theorem firstReadable_none (paths : List Bytes) :
    firstReadable (fun _ => none) paths = ⟨.error .entryNotFound, paths⟩ := by
  rcases firstReadable_cases (fun _ => none) paths with ⟨place, file, hfirst, -⟩ | ⟨-, hread⟩
  · cases hfirst.content
  · exact hread

/-- What a search keeps of an environment in which some empty settings are left out. -/
structure KeepsSearch (env env' : Environment) : Prop where
  directories_iff : directories env' = directories env ↔ env.SameDirectories env'
  candidates_iff : candidates env' = candidates env ↔
    env.term.getD [] = [] ∨ env.SameDirectories env'
  /-- The same is found with as many reads, whatever there is to read. -/
  course_iff : (∀ source, (locate env' source).found = (locate env source).found ∧
      (locate env' source).reads.length = (locate env source).reads.length) ↔
    env.term.getD [] = [] ∨ env.SameDirectories env'
  /-- What a process has from its environment has no empty settings. -/
  captured : ∀ valueOf home, env = Environment.ofVariables valueOf home → env' = env

/-- The candidates depend on the terminal type and on the directories. -/
theorem candidates_eq_of_sameDirectories (hterm : env'.term = env.term)
    (h : env.SameDirectories env') : candidates env' = candidates env := by
  rw [candidates, candidates, hterm, h.directories_eq]

/-- A search depends on its candidates only. -/
theorem locate_eq_of_candidates_eq (h : candidates env' = candidates env) (source : Source) :
    locate env' source = locate env source := by
  rw [locate, locate, h]

/-- The candidates stay where there are none, or where no directory is left out. -/
theorem Environment.Unsets.candidates_eq (h : env.Unsets env')
    (hkeeps : env.term.getD [] = [] ∨ env.SameDirectories env') :
    candidates env' = candidates env := by
  by_cases hterm : env.term.getD [] = []
  · rw [candidates_of_empty_term hterm, candidates_of_empty_term (h.term.getD_eq.trans hterm)]
  · exact candidates_eq_of_sameDirectories (h.exists_candidates hterm).1
      (hkeeps.resolve_left hterm)

/-- If there is nothing to read, the reads count the directories. -/
theorem Environment.Unsets.sameDirectories_of_reads (h : env.Unsets env')
    (hterm : env.term.getD [] ≠ [])
    (hreads : (locate env' fun _ => none).reads.length = (locate env fun _ => none).reads.length) :
    env.SameDirectories env' := by
  obtain ⟨-, paths, paths', hpaths, hpaths'⟩ := h.exists_candidates hterm
  apply h.sameDirectories_of_length_eq
  rw [locate, locate, hpaths, hpaths'] at hreads
  simp only [firstReadable_none] at hreads
  rw [← length_of_candidates_eq_ok hpaths, ← length_of_candidates_eq_ok hpaths', hreads]

/-- Where every setting is absent or not empty, none can be left out. -/
theorem Environment.ofVariables_unsets (valueOf : String → Option Bytes) (home : Option Bytes)
    (h : (Environment.ofVariables valueOf home).Unsets env') :
    env' = Environment.ofVariables valueOf home := by
  have hsetting (setting : Option Bytes) :
      (setting.filter fun value => !value.isEmpty) ≠ some [] := by
    intro hempty
    have hnonempty := (Option.filter_eq_some_iff.mp hempty).2
    simp at hnonempty
  obtain ⟨hterm, hterminfo, hhome, hdirs⟩ := h
  cases env' with
  | mk term terminfo home terminfoDirs =>
    obtain rfl := hterm.eq_of_ne (hsetting _)
    obtain rfl := hterminfo.eq_of_ne (hsetting _)
    obtain rfl := hhome.eq_of_ne (hsetting _)
    obtain rfl := hdirs.eq_of_ne (hsetting _)
    rfl

/-- Leaving out an empty setting that names a directory changes the search of every terminal type;
leaving out an empty terminal type changes nothing. -/
theorem keepsSearch_of_unsets (h : env.Unsets env') : KeepsSearch env env' where
  directories_iff := by
    refine ⟨fun heq => ?_, fun hsame => hsame.directories_eq⟩
    exact h.sameDirectories_of_length_eq (congrArg List.length heq)
  candidates_iff := by
    refine ⟨fun heq => Classical.or_iff_not_imp_left.mpr fun hterm => ?_, h.candidates_eq⟩
    refine h.sameDirectories_of_reads hterm ?_
    rw [locate_eq_of_candidates_eq heq]
  -- The course lists the paths that are read, so it tells the directories apart as well.
  course_iff := by
    constructor
    · intro hcourse
      refine Classical.or_iff_not_imp_left.mpr fun hterm => ?_
      exact h.sameDirectories_of_reads hterm (hcourse _).2
    · intro hkeeps source
      rw [locate_eq_of_candidates_eq (h.candidates_eq hkeeps) source]
      exact ⟨rfl, rfl⟩
  captured := by
    rintro valueOf home rfl
    exact Environment.ofVariables_unsets valueOf home h

end Unsets

/-- An environment whose settings are all empty. -/
def blank : Environment where
  term := some []
  terminfo := some []
  home := some []
  terminfoDirs := some []

/-- Without a terminal type there are no candidates, however many directories there are. -/
theorem keepsSearch_of_unsets_blank :
    blank.Unsets { home := some [] } ∧ KeepsSearch blank { home := some [] } ∧
      candidates { home := some [] } = candidates blank := by
  have hunsets : blank.Unsets { home := some [] } := ⟨.leftOut, .leftOut, .kept _, .leftOut⟩
  have hkeeps := keepsSearch_of_unsets hunsets
  exact ⟨hunsets, hkeeps, hkeeps.candidates_iff.mpr (.inl rfl)⟩

/-- The type `x` and an empty directory of entries. -/
def relative : Environment where
  term := some (Bytes.ofAscii ['x'])
  terminfo := some []

/-- An empty directory makes the search read `x/x`, wherever the program runs. -/
theorem locate_relative :
    relative.Unsets { relative with terminfo := none } ∧
      directories { relative with terminfo := none } ≠ directories relative ∧
      candidates { relative with terminfo := none } ≠ candidates relative ∧
      (∃ paths, candidates relative = .ok paths ∧
        paths.head? = some (Bytes.ofAscii ['x', '/', 'x'])) ∧
      (locate relative fun p => if p = Bytes.ofAscii ['x', '/', 'x'] then some [] else none).found =
        .ok ⟨Bytes.ofAscii ['x', '/', 'x'], []⟩ ∧
      (locate { relative with terminfo := none }
        fun p => if p = Bytes.ofAscii ['x', '/', 'x'] then some [] else none).found =
        .error .entryNotFound := by
  -- The directories differ in number, and the candidates with them.
  have hlength : (directories { relative with terminfo := none }).length ≠
      (directories relative).length := by
    rw [length_directories, length_directories]
    exact Nat.ne_of_lt (Nat.lt_succ_self 3)
  refine ⟨⟨.kept _, .leftOut, .kept _, .kept _⟩, ?_, ?_, ⟨_, rfl, rfl⟩, rfl, rfl⟩
  · exact fun heq => hlength (congrArg List.length heq)
  · intro heq
    have hterm : relative.term = some [0x78] := rfl
    have hpaths := candidates_of_term hterm
    apply hlength
    rw [← length_of_candidates_eq_ok (heq.trans hpaths), ← length_of_candidates_eq_ok hpaths]

end Terminal.Search
