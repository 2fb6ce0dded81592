import Terminal.Load

/-!
# The first match

A search reads its candidates in order and stops at the first one that has a content
(`firstReadable_cases`).  The path of an entry and the entry itself are taken from there:
`isFirstMatch` lists the candidates of every environment and says how the search for them ends.  A
file that has a content and is no compiled entry ends the search like any other.
-/

namespace Terminal.Search

/-! ## Reading in order -/

/-- The source has a content at a place of a list of paths, and at none of the places before it. -/
structure IsFirst (source : Source) (paths : List Bytes) (place : Nat) (file : Located) : Prop where
  path : paths[place]? = some file.path
  content : source file.path = some file.content
  before : ∀ p ∈ paths.take place, source p = none

/-- A path that cannot be read moves the first that can one place on. -/
theorem IsFirst.cons {source : Source} {paths : List Bytes} {place : Nat} {file : Located}
    (h : IsFirst source paths place file) {p : Bytes} (hp : source p = none) :
    IsFirst source (p :: paths) (place + 1) file where
  path := h.path
  content := h.content
  before := by
    rw [List.take_succ_cons]
    exact List.forall_mem_cons.mpr ⟨hp, h.before⟩

/-- Reading stops behind the first path that has a content; if there is none, all are read. -/
theorem firstReadable_cases (source : Source) (paths : List Bytes) :
    (∃ place file, IsFirst source paths place file ∧
      firstReadable source paths = ⟨.ok file, paths.take (place + 1)⟩) ∨
    ((∀ p ∈ paths, source p = none) ∧
      firstReadable source paths = ⟨.error .entryNotFound, paths⟩) := by
  induction paths with
  | nil => exact .inr ⟨by simp, rfl⟩
  | cons p rest ih =>
    rw [firstReadable]
    cases hp : source p with
    | some content =>
      refine .inl ⟨0, ⟨p, content⟩, ⟨rfl, hp, by simp⟩, ?_⟩
      rw [List.take_succ_cons, List.take_zero]
    | none =>
      rcases ih with ⟨place, file, hfirst, hrest⟩ | ⟨hnone, hrest⟩
      · refine .inl ⟨place + 1, file, hfirst.cons hp, ?_⟩
        simp only [hrest, List.take_succ_cons]
      · refine .inr ⟨List.forall_mem_cons.mpr ⟨hp, hnone⟩, ?_⟩
        simp only [hrest]

/-! ## Paths and candidates -/

/-- A path is read from a directory by putting the directory in front, with a slash between the two
unless the directory is empty or ends with one.  A path that begins with a slash stands alone. -/
theorem join_eq (directory path : Bytes) :
    Path.join directory path =
      if [Path.slash] <+: path then path
      else if directory = [] ∨ [Path.slash] <:+ directory then directory ++ path
      else directory ++ Path.slash :: path := by
  have hslash : Path.needsSlash directory = true ↔
      ¬(directory = [] ∨ directory.getLast? = some Path.slash) := by
    simp [Path.needsSlash]
  simp only [Path.join, Path.isAbsolute, beq_iff_eq, hslash, ite_not,
    List.singleton_prefix_iff_head?_eq_some, List.singleton_suffix_iff_getLast?_eq_some]

/-- The candidates of a terminal type: in every directory of the search, in the order of the
directories, the file of that name in a subdirectory named by its first byte. -/
theorem candidates_of_term {env : Environment} {initial : UInt8} {rest : Bytes}
    (h : env.term = some (initial :: rest)) :
    candidates env =
      .ok ((directories env).map fun d => Path.join (Path.join d [initial]) (initial :: rest)) := by
  rw [candidates, h]
  rfl

/-- An empty terminal type has no candidates, like an absent one. -/
theorem candidates_of_empty_term {env : Environment} (h : env.term.getD [] = []) :
    candidates env = .error .missingTerminalType := by
  rw [candidates]
  cases hterm : env.term with
  | none => rfl
  | some term =>
    obtain rfl : term = [] := by simpa [hterm] using h
    rfl

/-! ## The end of a search -/

/-- How a search ends and which paths it reads.  The path of the entry and the entry are taken from
the file that is found; whether that file is a compiled entry makes no difference to the search. -/
structure EndsWith (env : Environment) (source : Source) (found : Except Error Located)
    (reads : List Bytes) : Prop where
  locate : locate env source = ⟨found, reads⟩
  path : path env source = found.map Located.path
  load : load env source = do
    let file ← found.mapError .search
    (Entry.ofBytes file.content).mapError .entry

/-- The path and the entry follow the search. -/
theorem EndsWith.of_locate {env : Environment} {source : Source} {found : Except Error Located}
    {reads : List Bytes} (h : Search.locate env source = ⟨found, reads⟩) :
    EndsWith env source found reads where
  locate := h
  path := by rw [Search.path, h]
  load := by
    rw [Terminal.load, h]
    cases found <;> rfl

/-- What an environment searches, and how the search in a source ends. -/
structure IsFirstMatch (env : Environment) (source : Source) : Prop where
  directories : directories env =
    env.terminfo.toList ++ (env.home.map (Path.join · (Bytes.ofString ".terminfo"))).toList ++
      env.terminfoDirs.toList ++
      [Bytes.ofString "/lib/terminfo", Bytes.ofString "/usr/share/lib/terminfo",
        Bytes.ofString "/usr/share/terminfo"]
  join : ∀ directory path : Bytes, Path.join directory path =
    if [Path.slash] <+: path then path
    else if directory = [] ∨ [Path.slash] <:+ directory then directory ++ path
    else directory ++ Path.slash :: path
  /-- Without a terminal type there are no candidates, and nothing is read. -/
  missing : env.term.getD [] = [] →
    candidates env = .error .missingTerminalType ∧
      EndsWith env source (.error .missingTerminalType) []
  /-- The candidates are read in order, each place of their list once, up to the first one that has
  a content. -/
  found : ∀ (initial : UInt8) (rest : Bytes), env.term = some (initial :: rest) →
    ∃ paths, candidates env = .ok paths ∧
      paths = (Search.directories env).map
        (fun d => Path.join (Path.join d [initial]) (initial :: rest)) ∧
      ((∃ place file, IsFirst source paths place file ∧
          EndsWith env source (.ok file) (paths.take (place + 1))) ∨
        ((∀ p ∈ paths, source p = none) ∧ EndsWith env source (.error .entryNotFound) paths))

/-- Every search finds the first match in the order of its directories. -/
theorem isFirstMatch (env : Environment) (source : Source) : IsFirstMatch env source where
  directories := rfl
  join := join_eq
  missing h := by
    have hcandidates := candidates_of_empty_term h
    refine ⟨hcandidates, EndsWith.of_locate ?_⟩
    rw [locate, hcandidates]
  found initial rest h := by
    have hcandidates := candidates_of_term h
    refine ⟨_, hcandidates, rfl, ?_⟩
    generalize (Search.directories env).map _ = paths at hcandidates ⊢
    have hlocate : locate env source = firstReadable source paths := by rw [locate, hcandidates]
    rcases firstReadable_cases source paths with ⟨place, file, hfirst, hread⟩ | ⟨hnone, hread⟩
    · exact .inl ⟨place, file, hfirst, EndsWith.of_locate (hlocate.trans hread)⟩
    · exact .inr ⟨hnone, EndsWith.of_locate (hlocate.trans hread)⟩

/-- A file that can be read and is no compiled entry is an error; no other candidate makes up for
it. -/
example : load { term := some [0x76] } (fun _ => some []) = .error (.entry .truncated) := rfl

end Terminal.Search
