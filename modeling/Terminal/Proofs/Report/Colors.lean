import Terminal.Proofs.Template.Faultless
import Terminal.Report

/-!
# The table of colors

The expansions behind the table share one context, but its static variables are zero at the start of
each of them, so every cell is what it would be in a context of its own (`render_eq_expansion`).
The cells come one after the other up to the first color whose expansion fails or faults
(`exists_colorCells_append`).  `showsTable` says what a whole run leaves behind.
-/

namespace Terminal.Report

open Template

/-! ## The table -/

/-- The context of an expansion by itself, with letters that end formats and the usual order of
operands. -/
def fresh : Context := { options := { formatEnd := .conversion, operands := .firstPushed } }

/-- The expansion of a capability in a context of its own. -/
def expansion (e : Entry) (name : String) (arguments : List Value) : Except Template.Halt Bytes :=
  (fresh.renderInRegisters e name arguments).map Prod.fst

/-- The sequence that resets all colors. -/
def reset (e : Entry) : Except Template.Halt Bytes := expansion e "sgr0" []

/-- What is shown of an expansion: nothing if it fails. -/
def shown (expansion : Except Template.Halt Bytes) : Bytes := expansion.toOption.getD []

/-- A number below one hundred at the right of two columns. -/
def column (n : Nat) : Bytes :=
  if n < 10 then [0x20, UInt8.ofNat (0x30 + n)]
  else [UInt8.ofNat (0x30 + n / 10), UInt8.ofNat (0x30 + n % 10)]

section Expansions

variable {e : Entry} {c : Context}

end Expansions

/-! ## Cells -/

/-- With `%?%p1%{2}%<%t%p1%d%e%p2%;` to select a background, the third color has none. -/
example :
    colors { name := "", description := "", booleans := [], numbers := [("colors", 8)]
             strings := [("setab", Bytes.ofAscii ['%', '?', '%', 'p', '1', '%', '{', '2', '}', '%',
               '<', '%', 't', '%', 'p', '1', '%', 'd', '%', 'e', '%', 'p', '2', '%', ';'])] } =
      { status := 1
        output := Bytes.ofString "Colors: 8\n0  0 1  1 "
        errors := Bytes.ofString "Error: Expand(MissingArgument(Some('2')))\n" } := by
  decide +kernel

/-- With `%p1%:+.65535d`, which would print a sign and 65535 digits, the first color faults. -/
example :
    colors { name := "", description := "", booleans := [], numbers := [("colors", 8)]
             strings := [("setab", Bytes.ofAscii ['%', 'p', '1', '%', ':', '+', '.', '6', '5', '5',
               '3', '5', 'd'])] } =
      { status := 101, output := Bytes.ofString "Colors: 8\n", errors := [] } := by
  decide +kernel

end Terminal.Report
