import Terminal.Template.Context

/-!
# Sessions

A `Session` is a growing list of contexts that work on one entry.  Each `Step` expands a template or
a capability in one of them, or makes a copy of it at the end of the list.
-/

namespace Terminal.Template

/-- A request to one context of a session. -/
inductive Step where
  /-- Expands a template. -/
  | expand (template : Bytes) (arguments : List Value)
  /-- Expands a string capability of the entry. -/
  | render (name : String) (arguments : List Value)
  /-- Copies the context. -/
  | clone
deriving DecidableEq

/-- What a step answers. -/
inductive Answer where
  /-- The bytes of an expansion, or why there are none. -/
  | expansion (result : Except Error Bytes)
  /-- The place of a copy. -/
  | copy (index : Nat)

/-- An entry, if there is one, and the contexts that use it. -/
structure Session where
  entry : Option Entry
  contexts : List Context

namespace Session

/-- A session with one context. -/
def start (options : Options) (entry : Option Entry) : Session := ⟨entry, [{ options }]⟩

/-- The expansion that a step asks for.  Without an entry there are no capabilities. -/
def expansion (entry : Option Entry) (c : Context) : Step → Option (Except Error (Bytes × Context))
  | .expand template arguments => some (c.expand template arguments)
  | .render name arguments =>
    match entry with
    | some e => some (c.render e name arguments)
    | none => some (.error (.unsupportedCapability name))
  | .clone => none

/-- Carries out a step in the context at a place.  A context changes only by a successful expansion
in it.  There is no answer if there is no such context. -/
def step (s : Session) (index : Nat) (request : Step) : Option (Answer × Session) :=
  match s.contexts[index]? with
  | none => none
  | some c =>
    match expansion s.entry c request with
    | some (.ok (out, c)) =>
      some (.expansion (.ok out), { s with contexts := s.contexts.set index c })
    | some (.error e) => some (.expansion (.error e), s)
    | none => some (.copy s.contexts.length, { s with contexts := s.contexts ++ [c] })

/-- The static variables at the start of the next expansion in a context, as letters and values;
those that are zero are left out. -/
def statics (s : Session) (index : Nat) : List (Char × Int32) :=
  match s.contexts[index]? with
  | none => []
  | some c =>
    (List.finRange 26).filterMap fun i =>
      let v := c.initialStatics.value i
      if v = 0 then none else some ((Variable.static i).symbol, v)

end Session

end Terminal.Template
