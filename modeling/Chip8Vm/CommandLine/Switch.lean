/-!
# Switches

What can be asked for on the command line, how each is spelled, and how it is named in messages.
-/

set_option autoImplicit false

namespace Chip8Vm

/-- Something to ask for on the command line. -/
inductive Switch where
  | help
  | file
  | speed
  | scale
  | paused
  deriving DecidableEq

namespace Switch

/-- Every spelling, in the order in which spellings are listed. -/
def spellings : List (String × Switch) :=
  [ ("-h", help), ("--help", help), ("-f", file), ("--file", file), ("--speed", speed),
    ("--scale", scale), ("--paused", paused) ]

/-- The switch of a spelling. -/
def ofSpelling? (s : String) : Option Switch :=
  (spellings.find? fun entry => entry.1 == s).map Prod.snd

/-- The spellings that begin with some characters. -/
def spelledFrom (start : List Char) : List (String × Switch) :=
  spellings.filter fun entry => start.isPrefixOf entry.1.toList

/-- Whether a value belongs to a switch. -/
def takesValue : Switch → Bool
  | file | speed | scale => true
  | help | paused => false

/-- How a switch is named in messages. -/
def label : Switch → String
  | help => "-h/--help"
  | file => "-f/--file"
  | speed => "--speed"
  | scale => "--scale"
  | paused => "--paused"

end Switch

end Chip8Vm
