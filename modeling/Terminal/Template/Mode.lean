import Terminal.Template.Instruction

/-!
# Reading a template byte by byte

A template is never parsed as a whole.  A `Mode` is all that its reader keeps between two bytes:
whether it stands in plain text or behind a `%`, what it has seen of a literal or a format, and
which part of a conditional it passes over.  `Mode.read` turns one byte into an `Action` and the
next mode, and `Mode.finish` is the action at the end.

The only action whose effect on the mode depends on data is `Action.test`: if the number that it
takes is zero, the reader passes over the part that follows.
-/

namespace Terminal.Template

/-! ## Modes -/

/-- The two parts of a conditional that can be passed over. -/
inductive Part where
  /-- Between `%t` and the `%e` or `%;` that belongs to it. -/
  | consequence
  /-- Between `%e` and the `%;` that belongs to it. -/
  | alternative
deriving DecidableEq

/-- Where the reader stands between two bytes. -/
inductive Mode where
  /-- In plain text. -/
  | text
  /-- Behind a `$` that may begin a padding specification to be left out. -/
  | dollar
  /-- In a padding specification that is left out. -/
  | padding
  /-- Behind a `%`. -/
  | percent
  /-- Behind `%p`, before the number of an argument. -/
  | argument
  /-- Behind `%P`, before the name of a variable. -/
  | store
  /-- Behind `%g`, before the name of a variable. -/
  | fetch
  /-- Behind the quote that opens a character. -/
  | charOpen
  /-- Behind a character, before the quote that closes it. -/
  | charClose (value : UInt8)
  /-- In braces, with the value of the digits so far if there are any. -/
  | number (value : Option Nat)
  /-- In a format, with its specification so far and the latest conversion letter. -/
  | format (spec : List Char) (conversion : Option Conversion)
  /-- In a part that is passed over, with the number of conditionals open in it.  The flag is set
  behind a `%`. -/
  | skip (part : Part) (depth : Nat) (percent : Bool)
deriving DecidableEq

/-- What a byte, or the end of the template, asks for. -/
inductive Action where
  | run (i : Instruction)
  /-- Takes a number and passes over the consequence if it is zero. -/
  | test
deriving DecidableEq

namespace Action

/-- The action that does nothing. -/
def idle : Action := run (.emit [])

end Action

namespace Mode

/-! ## Reading one byte -/

/-- Plain text is emitted, behind the text that was held back before it. -/
def readText (o : Options) (held : Bytes) (b : UInt8) : Action × Mode :=
  if b = 0x25 then (.run (.emit held), percent)
  else if b = 0x24 ∧ o.padding = .strip then (.run (.emit held), dollar)
  else (.run (.emit (held ++ [b])), text)

/-- A directive outside the language is passed over or refused. -/
def readUnknown (o : Options) (c : Char) : Except Error (Action × Mode) :=
  match o.unknown with
  | .ignore => .ok (.idle, text)
  | .reject => .error (.unrecognizedDirective c)

/-- The character behind a `%`. -/
def readDirective (o : Options) (c : Char) : Except Error (Action × Mode) :=
  match Instruction.ofChar? c with
  | some i => .ok (.run i, text)
  | none =>
    match c with
    | 'p' => .ok (.idle, argument)
    | 'P' => .ok (.idle, store)
    | 'g' => .ok (.idle, fetch)
    | '\x27' => .ok (.idle, charOpen)
    | '\x7b' => .ok (.idle, number none)
    | ':' => .ok (.idle, format [] none)
    | '?' => .ok (.idle, text)
    | ';' => .ok (.idle, text)
    | 't' => .ok (.test, text)
    | 'e' => .ok (.idle, skip .alternative 0 false)
    | _ =>
      if o.formatEnd = .conversion ∧ Format.isBareStart c then .ok (.idle, format [c] none)
      else readUnknown o c

/-- The number of an argument, a digit from one to nine. -/
def readArgument (c : Char) : Except Error (Action × Mode) :=
  match Numeral.digit? c with
  | some (d + 1) =>
    if h : d < 9 then .ok (.run (.argument ⟨d, h⟩), text) else .error (.missingArgument c)
  | _ => .error (.missingArgument c)

/-- The name of a variable. -/
def readVariable (use : Variable → Instruction) (c : Char) : Except Error (Action × Mode) :=
  match Variable.ofChar? c with
  | some v => .ok (.run (use v), text)
  | none => .error (.invalidVariableName c)

/-- A digit of a number in braces, or the closing brace. -/
def readNumber (value : Option Nat) (c : Char) : Except Error (Action × Mode) :=
  match Numeral.digit? c, value with
  | some d, _ =>
    match Numeral.append? Numeral.greatest (value.getD 0) d with
    | some n => .ok (.idle, number (some n))
    | none => .error .malformedLiteral
  | none, some n =>
    if c = '\x7d' then .ok (.run (.constant (Int32.ofNat n)), text) else .error .malformedLiteral
  | none, none => .error .malformedLiteral

/-- The instruction of a format that has ended.  Without a conversion letter it prints in
decimal. -/
def printed (spec : List Char) (conversion : Option Conversion) : Except Error Action :=
  match Format.ofSpec? spec with
  | some f => .ok (.run (.print f (conversion.getD .decimal)))
  | none => .error .malformedLiteral

/-- A character of a format. -/
def readFormat (o : Options) (spec : List Char) (conversion : Option Conversion) (c : Char) :
    Except Error (Action × Mode) :=
  if Format.isSpec c then .ok (.idle, format (spec ++ [c]) conversion)
  else
    match o.formatEnd, Conversion.ofChar? c with
    | .percent, some k => .ok (.idle, format spec (some k))
    | .percent, none =>
      if c = '%' then (printed spec conversion).map (·, text)
      else .ok (.idle, format spec conversion)
    | .conversion, some k => (printed spec (some k)).map (·, text)
    | .conversion, none => readUnknown o c

/-- The mode behind a `%` and a character in a part that is passed over.  Only the marks of
conditionals count. -/
def skipDirective (part : Part) (depth : Nat) (c : Char) : Mode :=
  match c, depth with
  | ';', 0 => text
  | ';', depth + 1 => skip part depth false
  | 'e', 0 => if part = .consequence then text else skip part 0 false
  | '?', _ => skip part (depth + 1) false
  | _, _ => skip part depth false

/-- Reads one byte of a template. -/
def read (o : Options) (m : Mode) (b : UInt8) : Except Error (Action × Mode) :=
  let c := Char.ofUInt8 b
  match m with
  | text => .ok (readText o [] b)
  | dollar => .ok (if b = 0x3c then (.idle, padding) else readText o [0x24] b)
  | padding => .ok (.idle, if b = 0x3e then text else padding)
  | percent => readDirective o c
  | argument => readArgument c
  | store => readVariable .store c
  | fetch => readVariable .fetch c
  | charOpen => .ok (.idle, charClose b)
  | charClose value =>
    if c = '\x27' then .ok (.run (.constant (Int32.ofNat value.toNat)), text)
    else .error .malformedLiteral
  | number value => readNumber value c
  | format spec conversion => readFormat o spec conversion c
  | skip part depth false => .ok (.idle, skip part depth (b = 0x25))
  | skip part depth true => .ok (.idle, skipDirective part depth c)

/-! ## The end of the template -/

/-- What is left to do at the end of the template.  An unfinished format is printed if a `%` would
end it. -/
def finish (o : Options) (m : Mode) : Except Error Action :=
  match m with
  | dollar => .ok (.run (.emit [0x24]))
  | charOpen | charClose _ | number _ => .error .malformedLiteral
  | argument => .error (.missingArgument none)
  | store | fetch => .error (.invalidVariableName none)
  | format spec conversion =>
    match o.formatEnd with
    | .percent => printed spec conversion
    | .conversion => .ok .idle
  | text | padding | percent | skip .. => .ok .idle

end Mode

end Terminal.Template
