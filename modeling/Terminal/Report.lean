import Terminal.Load
import Terminal.Template.Registers

/-!
# Reports

What the command shows.  A `Report` is what a run leaves behind: its exit status and what it wrote to
its two outputs.  Without arguments the command shows the colors of the terminal; otherwise the first
argument names a capability, and the others are its arguments.  What was written before a failure
stays written, and so does what was written before an expansion faulted.

Two kinds of lines are left out of the second output: the log, which the user can turn on there and
which changes nothing else, and what the system says about a program that has faulted.
-/

namespace Terminal

/-- The outcome of a run of the command. -/
structure Report where
  status : UInt32
  output : Bytes
  /-- What the command itself says about a failure. -/
  errors : Bytes
deriving DecidableEq, Repr

namespace Report

/-! ## Arguments -/

/-- An argument of the command as an argument of a capability: a number if it reads as one, else a
text. -/
def argument (s : String) : Template.Value :=
  match Numeral.integer? s.toList with
  | some v => .integer v
  | none => .text (Bytes.ofString s)

/-- The capability that is asked for, with its arguments. -/
def request : List String → String × List Template.Value
  | [] => ("setab", [])
  | name :: arguments => (name, arguments.map argument)

/-! ## Outcomes -/

/-- A run that ends well. -/
def success (output : Bytes) : Report := ⟨0, output, []⟩

/-- A run that fails behind some output. -/
def failure (output : Bytes) (e : Failure) : Report :=
  ⟨1, output, Bytes.ofString ("Error: " ++ e.diagnostic ++ "\n")⟩

/-- A run that the system stops because of a fault. -/
def fault (output : Bytes) : Report := ⟨101, output, []⟩

/-- A run that an expansion ends. -/
def halt : Template.Halt → Report
  | .error e => failure [] (.template e)
  | .fault _ => fault []

/-- A run with further output in front. -/
def after (output : Bytes) (r : Report) : Report := { r with output := output ++ r.output }

/-! ## What is shown -/

/-- The options of all expansions: compiled entries are written for these. -/
def options : Template.Options := { formatEnd := .conversion, operands := .firstPushed }

/-- The first line: the terminal. -/
def heading (e : Entry) : Bytes :=
  Bytes.ofString ("Terminal: " ++ e.name ++ " (" ++ e.description ++ ")\n")

/-- A number that takes at least two columns, between spaces. -/
def label (color : Nat) : Bytes :=
  let numeral := Numeral.digits 10 color
  [0x20] ++ List.replicate (2 - numeral.length) 0x20 ++ numeral ++ [0x20]

/-- Shows some colors one after the other: the sequence that selects the background, the number of
the color, and the sequence `reset`.  A line break follows the last one. -/
def colorCells (e : Entry) (reset : Bytes) : Template.Context → List Nat → Report
  | _, [] => success [0x0a]
  | c, color :: rest =>
    match c.renderInRegisters e "setab" [.integer (Int32.ofNat color)] with
    | .error stop => halt stop
    | .ok (sequence, c) =>
      after (sequence ++ label color ++ reset) (colorCells e reset c rest)

/-- The greatest number of colors that are shown. -/
def colorLimit : Nat := 16

/-- Shows the colors of a terminal.  A terminal need not be able to reset its colors. -/
def colors (e : Entry) : Report :=
  match e.number? "colors" with
  | none => success (Bytes.ofString "Your terminal has no colors\n")
  | some n =>
    let c : Template.Context := { options }
    let shown := List.range (min n.toNat colorLimit)
    after (Bytes.ofString ("Colors: " ++ toString n.toNat ++ "\n")) <|
      match c.renderInRegisters e "sgr0" [] with
      | .ok (reset, c) => colorCells e reset c shown
      | .error (.error _) => colorCells e [] c shown
      | .error (.fault _) => fault []

/-- Shows the expansion of one capability, as a quoted text. -/
def capability (e : Entry) (name : String) (arguments : List Template.Value) : Report :=
  match ({ options } : Template.Context).renderInRegisters e name arguments with
  | .error stop => halt stop
  | .ok (sequence, _) =>
    success (Bytes.ofString (name ++ "=" ++ Quoted.string (Utf8.decode sequence) ++ "\n"))

/-- Shows what is asked for. -/
def answer (e : Entry) (name : String) (arguments : List Template.Value) : Report :=
  if name = "setab" ∧ arguments = [] then colors e else capability e name arguments

/-- A run of the command on the entry that was loaded, if there is one. -/
def ofLoaded (loaded : Except Failure Entry) (arguments : List String) : Report :=
  match loaded with
  | .error e => failure [] e
  | .ok e => after (heading e) (answer e (request arguments).1 (request arguments).2)

/-- A whole run of the command. -/
def run (env : Search.Environment) (source : Search.Source) (arguments : List String) : Report :=
  ofLoaded (load env source) arguments

end Report

end Terminal
