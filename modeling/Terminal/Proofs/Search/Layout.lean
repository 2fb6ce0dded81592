import Mathlib.Data.List.Forall2
import Terminal.Proofs.Search.FirstMatch

/-!
# The layout of a search directory

A directory keeps the entry of a terminal type in a subdirectory that is named by the first byte of
the type (`layout`).  A candidate is built by two joins, and both of them read a name from the
directory on their left unless the name is absolute.  So the candidates have the layout, and lie in
their directories, for every type that does not begin with a slash (`entryPath_eq_layout`); a type
that does is itself the candidate in every directory (`entryPath_slash`).  For the whole list it is
`exists_candidates_placed` that says so.
-/

namespace Terminal.Search

/-! ## Joins -/

/-- A directory and what stands between it and a name in it: a slash, unless the directory is empty
or ends with one. -/
def separated (directory : Bytes) : Bytes :=
  if directory = [] ∨ [Path.slash] <:+ directory then directory else directory ++ [Path.slash]

/-- A separator is only ever added at the end. -/
theorem isPrefix_separated (directory : Bytes) : directory <+: separated directory := by
  unfold separated
  split
  · exact List.prefix_refl directory
  · exact List.prefix_append directory [Path.slash]

/-- A name that is not absolute is put behind the directory. -/
theorem join_of_not_isPrefix (directory : Bytes) {name : Bytes} (h : ¬[Path.slash] <+: name) :
    Path.join directory name = separated directory ++ name := by
  rw [join_eq, if_neg h, separated]
  split
  · rfl
  · rw [List.append_assoc, List.singleton_append]

/-- Behind a directory whose last byte is not a slash there is one. -/
theorem separated_append_singleton (front : Bytes) {b : UInt8} (h : b ≠ Path.slash) :
    separated (front ++ [b]) = front ++ [b, Path.slash] := by
  have hlast : ¬(front ++ [b] = [] ∨ [Path.slash] <:+ front ++ [b]) := by
    rintro (hnil | hsuffix)
    · simp at hnil
    · rw [List.singleton_suffix_iff_getLast?_eq_some, List.getLast?_concat] at hsuffix
      exact h (Option.some.inj hsuffix)
  rw [separated, if_neg hlast, List.append_assoc, List.singleton_append]

/-! ## Candidates -/

/-- Where a directory keeps the entry of a terminal type: in a subdirectory named by the first byte
of the type. -/
def layout (directory : Bytes) (initial : UInt8) (rest : Bytes) : Bytes :=
  separated directory ++ initial :: Path.slash :: initial :: rest

section Candidates

variable {initial : UInt8} {rest directory path : Bytes}

/-- A path begins with a slash just if its first byte is one. -/
theorem not_slash_isPrefix_cons (h : initial ≠ Path.slash) (rest : Bytes) :
    ¬[Path.slash] <+: initial :: rest := by
  intro hprefix
  rw [List.cons_prefix_cons] at hprefix
  exact h hprefix.1.symm

/-- Neither the subdirectory nor the file is an absolute name, so both are put behind the
directory. -/
theorem entryPath_eq_layout (h : initial ≠ Path.slash) (rest directory : Bytes) :
    entryPath initial (initial :: rest) directory = layout directory initial rest := by
  rw [entryPath, join_of_not_isPrefix directory (not_slash_isPrefix_cons h []),
    join_of_not_isPrefix _ (not_slash_isPrefix_cons h rest),
    separated_append_singleton (separated directory) h, layout, List.append_assoc]
  rfl

/-- An absolute type leaves nothing of the directory. -/
theorem entryPath_slash (rest directory : Bytes) :
    entryPath Path.slash (Path.slash :: rest) directory = Path.slash :: rest := by
  have habsolute : [Path.slash] <+: Path.slash :: rest := List.prefix_append [Path.slash] rest
  rw [entryPath, join_eq, if_pos habsolute]

/-- In the layout something stands in front of the type. -/
theorem ne_layout (directory : Bytes) (initial : UInt8) (rest : Bytes) :
    initial :: rest ≠ layout directory initial rest := by
  intro h
  have hlength := congrArg List.length h
  simp only [layout, List.length_append, List.length_cons] at hlength
  omega

/-- How the candidate in a directory has to do with the directory. -/
structure Placed (initial : UInt8) (rest directory path : Bytes) : Prop where
  /-- It has the layout of the directory unless the type is absolute. -/
  layout_iff : path = layout directory initial rest ↔ initial ≠ Path.slash
  /-- It begins with the bytes of the directory unless the type is absolute and does not. -/
  inside_iff : directory <+: path ↔ initial ≠ Path.slash ∨ directory <+: initial :: rest
  /-- An absolute type is the candidate. -/
  absolute : initial = Path.slash → path = initial :: rest

/-- The file for a terminal type is placed as the layout says. -/
theorem placed_entryPath (initial : UInt8) (rest directory : Bytes) :
    Placed initial rest directory (entryPath initial (initial :: rest) directory) := by
  by_cases h : initial = Path.slash
  · subst h
    rw [entryPath_slash]
    refine ⟨?_, ?_, fun _ => rfl⟩
    · exact iff_of_false (ne_layout directory Path.slash rest) (fun hne => hne rfl)
    · exact ⟨.inr, fun hinside => hinside.resolve_left fun hne => hne rfl⟩
  · rw [entryPath_eq_layout h]
    have hinside : directory <+: layout directory initial rest :=
      (isPrefix_separated directory).trans (List.prefix_append _ _)
    exact ⟨iff_of_true rfl h, iff_of_true hinside (.inl h), fun hslash => absurd hslash h⟩

end Candidates

/-- Every terminal type has one candidate in each directory of the search, in their order.  They
have the layout of their directories exactly if the type does not begin with a slash. -/
theorem exists_candidates_placed {env : Environment} {initial : UInt8} {rest : Bytes}
    (h : env.term = some (initial :: rest)) :
    ∃ paths, candidates env = .ok paths ∧
      List.Forall₂ (Placed initial rest) (directories env) paths := by
  refine ⟨_, candidates_of_term h, ?_⟩
  rw [List.forall₂_map_right_iff, List.forall₂_same]
  intro directory _
  exact placed_entryPath initial rest directory

/-- The type `..`, which leads out of its subdirectory but not out of the layout, in a directory
that ends with a slash. -/
def upwards : Environment where
  term := some (Bytes.ofAscii ['.', '.'])
  terminfo := some (Bytes.ofAscii ['/', 't', '/'])

/-- A type that leads upwards is taken as it is: nothing is normalised. -/
theorem exists_candidates_placed_upwards :
    upwards.term = some (0x2e :: [0x2e]) ∧
      (∃ paths, candidates upwards = .ok paths ∧
        List.Forall₂ (Placed 0x2e [0x2e]) (directories upwards) paths) ∧
      layout (Bytes.ofAscii ['/', 't', '/']) 0x2e [0x2e] =
        Bytes.ofAscii ['/', 't', '/', '.', '/', '.', '.'] :=
  ⟨rfl, exists_candidates_placed rfl, rfl⟩

/-- The type `/x`, which is a path of its own. -/
def rooted : Environment where
  term := some (Bytes.ofAscii ['/', 'x'])
  terminfo := some (Bytes.ofAscii ['/', 't'])

/-- The first candidate of an absolute type lies outside of the first directory, and the search
reads it. -/
theorem candidates_rooted :
    ∃ directory path, (directories rooted)[0]? = some directory ∧
      (∃ paths, candidates rooted = .ok paths ∧ paths[0]? = some path) ∧
      path ≠ layout directory Path.slash [0x78] ∧ ¬directory <+: path ∧
      (locate rooted fun p => if p = path then some [] else none).found = .ok ⟨path, []⟩ := by
  refine ⟨Bytes.ofAscii ['/', 't'], Bytes.ofAscii ['/', 'x'], rfl, ⟨_, rfl, rfl⟩, ?_, ?_, rfl⟩
  · exact ne_layout (Bytes.ofAscii ['/', 't']) Path.slash [0x78]
  · decide

end Terminal.Search
