import Terminal.Text.Bytes

/-!
# Paths

A path is a byte string whose parts are separated by slashes.  `Path.join` reads its right side from
the directory on its left.
-/

namespace Terminal.Path

/-- The byte between the parts of a path. -/
def slash : UInt8 := 0x2f

/-- An absolute path begins with a slash. -/
def isAbsolute (path : Bytes) : Bool := path.head? == some slash

/-- Whether a separator is needed behind a directory. -/
def needsSlash (directory : Bytes) : Bool :=
  !directory.isEmpty && directory.getLast? != some slash

/-- The path that `path` denotes when it is read from a directory.  An absolute path denotes itself;
nothing is normalised. -/
def join (directory path : Bytes) : Bytes :=
  if isAbsolute path then path
  else if needsSlash directory then directory ++ slash :: path
  else directory ++ path

end Terminal.Path
