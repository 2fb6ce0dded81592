import Terminal.Entry
import Terminal.Template.Machine

/-!
# Expansion contexts

A `Context` holds the options of a series of expansions and the static variables between them.  An
expansion that fails yields no context, so the one before it stays in use.
-/

namespace Terminal.Template

/-- The options of a series of expansions, and the static variables that the latest successful one
left. -/
structure Context where
  options : Options := {}
  statics : Bank := Bank.zero
deriving DecidableEq

namespace Context

/-- The static variables at the start of the next expansion. -/
def initialStatics (c : Context) : Bank :=
  match c.options.statics with
  | .expansion => Bank.zero
  | .context => c.statics

/-- The machine at the start of the next expansion. -/
def machine (c : Context) (arguments : List Value) : Machine :=
  { state := { arguments, vars := { statics := c.initialStatics } } }

/-- Expands a template: the bytes that it emits, and the context after it. -/
def expand (c : Context) (template : Bytes) (arguments : List Value) :
    Except Error (Bytes × Context) := do
  let (out, s) ← (c.machine arguments).complete c.options template
  return (out, { c with statics := s.vars.statics })

/-- Expands the string capability of an entry. -/
def render (c : Context) (entry : Entry) (name : String) (arguments : List Value) :
    Except Error (Bytes × Context) :=
  match entry.string? name with
  | some template => c.expand template arguments
  | none => .error (.unsupportedCapability name)

end Context

/-- Expands a template with default options, in a context of its own. -/
def expand (template : Bytes) (arguments : List Value) : Except Error Bytes :=
  (({} : Context).expand template arguments).map Prod.fst

/-- Expands the string capability of an entry with default options, in a context of its own. -/
def render (entry : Entry) (name : String) (arguments : List Value) : Except Error Bytes :=
  (({} : Context).render entry name arguments).map Prod.fst

end Terminal.Template
