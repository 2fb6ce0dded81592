import Terminal.Text.Bytes

/-!
# The environment of a search

The settings that steer the search for an entry, captured once so that the search itself is a
function of them.
-/

namespace Terminal.Search

/-- The settings of a search; each of them may be absent. -/
structure Environment where
  /-- The type of the terminal. -/
  term : Option Bytes := none
  /-- A directory of entries that comes before all others. -/
  terminfo : Option Bytes := none
  /-- The home directory of the user. -/
  home : Option Bytes := none
  /-- A directory of entries that comes before those of the system.  It is one path, whatever bytes
  it holds. -/
  terminfoDirs : Option Bytes := none
deriving DecidableEq, Repr

/-- The settings that a process has from its environment variables and its home directory; an empty
one counts as absent.  The home directory is the one that the system gives: that of the variable
`HOME`, or without it the one in the system's list of users. -/
def Environment.ofVariables (valueOf : String → Option Bytes) (home : Option Bytes) : Environment :=
  let nonempty setting := Option.filter (fun value => !value.isEmpty) setting
  { term := nonempty (valueOf "TERM")
    terminfo := nonempty (valueOf "TERMINFO")
    home := nonempty home
    terminfoDirs := nonempty (valueOf "TERMINFO_DIRS") }

end Terminal.Search
