import Chip8Vm.CommandLine.Switch
import Chip8Vm.Layout
import Chip8Vm.Text.Quoted

/-!
# Usage

What the command line answers in words: the usage line, the help, and the wording of everything that
can be wrong with a command line, by cause.
-/

set_option autoImplicit false

namespace Chip8Vm

/-- Why a command line is refused. -/
inductive UsageFault where
  /-- A shortened switch that could be more than one. -/
  | ambiguous (word : String) (spellings : List String)
  /-- A switch without the value that belongs to it. -/
  | valueMissing (switch : Switch)
  /-- A value for a switch that takes none. -/
  | valueIgnored (switch : Switch) (value : String)
  /-- A value that is no number where one is needed. -/
  | notANumber (switch : Switch) (value : String)
  /-- No file. -/
  | fileMissing
  /-- Words that mean nothing. -/
  | unrecognized (words : List String)
  /-- A speed of less than one instruction in a frame. -/
  | tooSlow
  /-- A scale that shows nothing. -/
  | tooSmall
  deriving DecidableEq

namespace UsageFault

/-- The wording of a refusal. -/
def message : UsageFault → String
  | ambiguous word spellings =>
    "ambiguous option: " ++ word ++ " could match " ++ ", ".intercalate spellings
  | valueMissing switch => "argument " ++ switch.label ++ ": expected one argument"
  | valueIgnored switch value =>
    "argument " ++ switch.label ++ ": ignored explicit argument " ++ Text.quoted value
  | notANumber switch value =>
    "argument " ++ switch.label ++ ": invalid int value: " ++ Text.quoted value
  | fileMissing => "the following arguments are required: " ++ Switch.file.label
  | unrecognized words => "unrecognized arguments: " ++ " ".intercalate words
  | tooSlow => "--speed must be at least " ++ toString frameRate
  | tooSmall => "--scale must be a positive number"

end UsageFault

namespace Usage

/-- The name of the program. -/
def programName : String := "frontend.py"

/-- The line that says how the program is called. -/
def line : String :=
  "usage: " ++ programName ++ " [-h] -f FILE [--speed SPEED] [--scale SCALE] [--paused]\n"

/-- The help. -/
def help : String :=
  line ++ "\nplay a CHIP-8 ROM\n\noptions:\n"
    ++ "  -h, --help            show this help message and exit\n"
    ++ "  -f FILE, --file FILE  input rom file\n"
    ++ "  --speed SPEED         instructions executed per second\n"
    ++ "  --scale SCALE         size in pixels of a CHIP-8 pixel\n"
    ++ "  --paused              start paused, N steps one instruction\n"

/-- What is written when a command line is refused. -/
def refusal (fault : UsageFault) : String :=
  line ++ programName ++ ": error: " ++ fault.message ++ "\n"

end Usage

end Chip8Vm
