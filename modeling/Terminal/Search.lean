import Terminal.Path
import Terminal.Search.Environment

/-!
# The search for an entry

`Search.directories` lists the places where entries are kept, in order, and `Search.candidates` the
file in each of them that would hold the entry.  `Search.locate` reads the candidates one after the
other until one of them is there, and keeps account of what it has read.
-/

namespace Terminal.Search

/-! ## Candidates -/

/-- The directories of the system, in the order of the search. -/
def systemDirectories : List Bytes :=
  ["/lib/terminfo", "/usr/share/lib/terminfo", "/usr/share/terminfo"].map Bytes.ofString

/-- The directory of entries in a home directory. -/
def userDirectory (home : Bytes) : Bytes := Path.join home (Bytes.ofString ".terminfo")

/-- All directories of the search, in order. -/
def directories (env : Environment) : List Bytes :=
  env.terminfo.toList ++ (env.home.map userDirectory).toList ++ env.terminfoDirs.toList ++
    systemDirectories

/-- Why a search finds nothing. -/
inductive Error where
  /-- The type of the terminal is absent or empty. -/
  | missingTerminalType
  /-- None of the candidates can be read. -/
  | entryNotFound
deriving DecidableEq, Repr

/-- The error in words. -/
def Error.message : Error → String
  | missingTerminalType => "Terminal type is not set"
  | entryNotFound => "Terminfo entry not found"

instance : ToString Error where
  toString := Error.message

/-- The file for a terminal type that begins with the byte `initial`: in a subdirectory named by
that byte alone. -/
def entryPath (initial : UInt8) (term directory : Bytes) : Bytes :=
  Path.join (Path.join directory [initial]) term

/-- The files that may hold the entry, in the order of the search. -/
def candidates (env : Environment) : Except Error (List Bytes) :=
  match env.term with
  | some (initial :: rest) => .ok ((directories env).map (entryPath initial (initial :: rest)))
  | some [] | none => .error .missingTerminalType

/-! ## Reading -/

/-- A way to read files: the content of the file at a path, if there is one that can be read. -/
abbrev Source := Bytes → Option Bytes

/-- A file that was found. -/
structure Located where
  path : Bytes
  content : Bytes
deriving DecidableEq

/-- The course of a search: how it ended, and the paths that it read, in order. -/
structure Course where
  found : Except Error Located
  reads : List Bytes

/-- Reads paths in order up to the first one that yields a content. -/
def firstReadable (source : Source) : List Bytes → Course
  | [] => ⟨.error .entryNotFound, []⟩
  | path :: rest =>
    match source path with
    | some content => ⟨.ok ⟨path, content⟩, [path]⟩
    | none =>
      let course := firstReadable source rest
      { course with reads := path :: course.reads }

/-- Searches for the entry of the environment's terminal type.  Without such a type nothing is
read. -/
def locate (env : Environment) (source : Source) : Course :=
  match candidates env with
  | .ok paths => firstReadable source paths
  | .error e => ⟨.error e, []⟩

/-- Reads paths in order up to the first one that yields a content, where reading is an effect of
its own.  Nothing is read behind that path. -/
def firstReadableM {m : Type → Type} [Monad m] (read : Bytes → m (Option Bytes)) :
    List Bytes → m Course
  | [] => pure ⟨.error .entryNotFound, []⟩
  | path :: rest => do
    match ← read path with
    | some content => pure ⟨.ok ⟨path, content⟩, [path]⟩
    | none =>
      let course ← firstReadableM read rest
      pure { course with reads := path :: course.reads }

/-- Searches for the entry of the environment's terminal type, where reading is an effect of its
own. -/
def locateM {m : Type → Type} [Monad m] (env : Environment) (read : Bytes → m (Option Bytes)) :
    m Course :=
  match candidates env with
  | .ok paths => firstReadableM read paths
  | .error e => pure ⟨.error e, []⟩

/-- Over a source without effects, the search one path at a time is the search over the list. -/
theorem firstReadableM_pure {m : Type → Type} [Monad m] [LawfulMonad m] (source : Source)
    (paths : List Bytes) :
    firstReadableM (fun path => (pure (source path) : m (Option Bytes))) paths =
      pure (firstReadable source paths) := by
  induction paths with
  | nil => rfl
  | cons path rest ih =>
    rw [firstReadableM, firstReadable, pure_bind]
    cases source path with
    | some content => rfl
    | none => rw [ih, pure_bind]

/-- If reading has no effect but its result, the search is the one in a source. -/
theorem locateM_pure {m : Type → Type} [Monad m] [LawfulMonad m] (env : Environment)
    (source : Source) :
    locateM env (fun path => (pure (source path) : m (Option Bytes))) =
      pure (locate env source) := by
  rw [locateM, locate]
  cases candidates env with
  | ok paths => exact firstReadableM_pure source paths
  | error e => rfl

/-- The path of the entry of the environment's terminal type. -/
def path (env : Environment) (source : Source) : Except Error Bytes :=
  (locate env source).found.map Located.path

end Terminal.Search
