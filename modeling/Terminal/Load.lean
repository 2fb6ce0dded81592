import Terminal.Entry.Compiled
import Terminal.Search
import Terminal.Template.Error
import Terminal.Text.Quoted

/-!
# Loading an entry

`load` searches for the entry of a terminal and reads it.  The first file that the search finds
decides: if it is not a compiled entry, no other file is tried.
-/

namespace Terminal

/-- Everything that can go wrong between a terminal type and an expansion. -/
inductive Failure where
  | search (e : Search.Error)
  | entry (e : Entry.Error)
  | template (e : Template.Error)
deriving DecidableEq, Repr

/-- The entry in the file that a search has found. -/
def Search.Course.entry (course : Search.Course) : Except Failure Entry :=
  match course.found with
  | .error e => .error (.search e)
  | .ok file => (Entry.ofBytes file.content).mapError .entry

/-- The entry of the environment's terminal type. -/
def load (env : Search.Environment) (source : Search.Source) : Except Failure Entry :=
  (Search.locate env source).entry

namespace Failure

/-- A character of the template in a diagnostic, or its absence. -/
def quotedPlace : Option Char → String
  | some c => "Some(" ++ Quoted.char c ++ ")"
  | none => "None"

/-- The failure as a term for diagnostics: its area, its cause and what it concerns. -/
def diagnostic : Failure → String
  | search .missingTerminalType => "Locate(MissingTerminalType)"
  | search .entryNotFound => "Locate(EntryNotFound)"
  | entry .unknownMagic => "Parse(InvalidFormat(\"unknown magic number\"))"
  | entry .tooManyCapabilities => "Parse(InvalidFormat(\"more capabilities than known names\"))"
  | entry .emptyName => "Parse(InvalidFormat(\"empty terminal name\"))"
  | entry .truncated => "Parse(TruncatedData)"
  | template (.unsupportedCapability name) =>
    "Expand(UnsupportedCapability(" ++ Quoted.string name ++ "))"
  | template (.stackUnderflow c) => "Expand(StackUnderflow(" ++ Quoted.char c ++ "))"
  | template (.missingArgument c) => "Expand(MissingArgument(" ++ quotedPlace c ++ "))"
  | template .malformedLiteral => "Expand(MalformedLiteral)"
  | template (.invalidVariableName c) => "Expand(InvalidVariableName(" ++ quotedPlace c ++ "))"
  | template (.typeMismatch c) => "Expand(TypeMismatch(" ++ Quoted.char c ++ "))"
  | template (.unrecognizedDirective c) => "Expand(UnrecognizedDirective(" ++ Quoted.char c ++ "))"

end Failure

end Terminal
