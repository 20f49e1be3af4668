import Chip8Vm.CommandLine.Usage
import Chip8Vm.Text.DecimalDigit

/-!
# Arguments

Each word of a command line is looked at by itself first, before anything is made of it: it is a
value, a switch with or without a value attached, or an unknown switch. A long switch may be cut
short as long as only one spelling begins so. What begins with a dash is a value only if it is a
dash alone, looks like a negative number, or has a blank in it. After a word of two dashes
everything is a value.

What stands in one word with a short switch belongs to it, with an equals sign in between or
without. The difference to a long switch counts where the switch takes no value: behind a short one
more short switches may follow.
-/

set_option autoImplicit false

namespace Chip8Vm

/-- A value that came in the same word as its switch. -/
inductive Given where
  | nothing
  /-- Behind a long switch and an equals sign. -/
  | joined (value : List Char)
  /-- Behind a short switch, and behind an equals sign if one follows it. -/
  | attached (value : List Char)
  deriving DecidableEq

/-- What a word is. -/
inductive Argument where
  | value (text : String)
  /-- The two dashes after which everything is a value. -/
  | divider
  | switch (switch : Switch) (given : Given)
  | unknown (text : String)
  deriving DecidableEq

namespace Argument

/-- Whether characters are one or more decimal digits. -/
def isDigits (cs : List Char) : Bool := !cs.isEmpty && cs.all Text.isDigit

/-- Whether characters look like a number below zero: a dash, then digits, or digits that may be
missing, a point and digits. -/
def looksNegative : List Char → Bool
  | '-' :: cs =>
    -- a line break at the very end is overlooked
    let cs := if cs.getLast? = some '\n' then cs.dropLast else cs
    let fraction := cs.dropWhile Text.isDigit
    isDigits cs || (fraction.head? == some '.' && isDigits fraction.tail)
  | _ => false

/-- The characters before the first equals sign, and those behind it if there is one. -/
def splitValue (cs : List Char) : List Char × Given :=
  let name := cs.takeWhile (· != '=')
  match cs.dropWhile (· != '=') with
  | [] => (name, .nothing)
  | _ :: behind => (name, .joined behind)

/-- The switches that a word beginning with a dash may be cut short from, each with its value. -/
def candidates (cs : List Char) : List (String × Switch × Given) :=
  match cs with
  | '-' :: '-' :: _ =>
    let (name, given) := splitValue cs
    (Switch.spelledFrom name).map fun entry => (entry.1, entry.2, given)
  | dash :: letter :: behind =>
    match Switch.ofSpelling? (String.ofList [dash, letter]) with
    | some s => [(String.ofList [dash, letter], s, .attached behind)]
    | none => []
  | _ => []

/-- The switch that a word spells out, if it does. -/
def spelledOut? (cs : List Char) : Option (Switch × Given) :=
  match Switch.ofSpelling? (String.ofList cs) with
  | some s => some (s, .nothing)
  | none =>
    match cs with
    | dash :: letter :: '=' :: behind =>
      (Switch.ofSpelling? (String.ofList [dash, letter])).map fun s => (s, .attached behind)
    | _ =>
      match splitValue cs with
      | (_, .nothing) => none
      | (name, given) => (Switch.ofSpelling? (String.ofList name)).map fun s => (s, given)

/-- What a word is, taken by itself. -/
def ofString (text : String) : Except UsageFault Argument :=
  let cs := text.toList
  if cs.head? ≠ some '-' ∨ cs = ['-'] then .ok (.value text)
  else
    match spelledOut? cs with
    | some (s, given) => .ok (.switch s given)
    | none =>
      match candidates cs with
      | [(_, s, given)] => .ok (.switch s given)
      | [] => .ok (if looksNegative cs || cs.contains ' ' then .value text else .unknown text)
      | several => .error (.ambiguous text (several.map Prod.fst))

/-- What the words of a command line are. -/
def ofStrings : List String → Except UsageFault (List Argument)
  | [] => .ok []
  | text :: rest =>
    if text = "--" then .ok (.divider :: rest.map .value)
    else
      match ofString text with
      | .error fault => .error fault
      | .ok argument => (ofStrings rest).map (argument :: ·)

/-- The text of a word that means nothing where it stands. -/
def text : Argument → String
  | .value text | .unknown text => text
  | .divider => "--"
  | .switch .. => ""

end Argument

end Chip8Vm
