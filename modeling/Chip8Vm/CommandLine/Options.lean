import Chip8Vm.CommandLine.Argument
import Chip8Vm.Fault
import Chip8Vm.Number.Numeral

/-!
# Options

A command line is gone through from left to right. A switch that takes a value finds it in its own
word or in the next, and the last of a repeated switch counts. The first thing that is wrong ends
the reading, and so does asking for help. What is left to be said at the end is said in this order:
no file, words that mean nothing, the speed, the scale.

A value of two dashes and nothing else is dropped, as the divider is: its switch was there, but
nothing is left of what it was given. A number that is then wanted cannot be checked, and that is a
fault and no refusal; a file may go without its name as far as the options are concerned.
-/

set_option autoImplicit false

namespace Chip8Vm

/-- What the user asked for. -/
structure Options where
  /-- The name of the file, unless it was dropped. -/
  file : Option String
  speed : Int
  scale : Int
  paused : Bool
  deriving DecidableEq

/-- What a command line comes to. -/
inductive Request where
  | play (options : Options)
  | help
  | refused (fault : UsageFault)
  | faulted (fault : Fault)
  deriving DecidableEq

namespace Options

/-- What has been asked for so far, and the words that mean nothing. -/
structure Draft where
  /-- The file, if its switch was there, and its name, unless it was dropped. -/
  file : Option (Option String)
  /-- The speed, unless it was dropped. -/
  speed : Option Int
  /-- The scale, unless it was dropped. -/
  scale : Option Int
  paused : Bool
  leftOver : List String
  deriving DecidableEq

/-- What holds when nothing is asked for. -/
def Draft.start (speed scale : Int) : Draft := ⟨none, some speed, some scale, false, []⟩

/-- Why reading stops before the end. -/
inductive Stop where
  | help
  | fault (fault : UsageFault)
  deriving DecidableEq

/-- A value, unless it is dropped. -/
def kept? (value : String) : Option String := if value = "--" then none else some value

/-- A number that belongs to a switch, unless it is dropped. -/
def number? (switch : Switch) (value : String) : Except Stop (Option Int) :=
  match kept? value with
  | none => .ok none
  | some text =>
    match Number.readInt text with
    | .ok n => .ok (some n)
    | .error _ => .error (.fault (.notANumber switch text))

/-- The draft with a switch that has its value. -/
def Draft.withValue (d : Draft) (switch : Switch) (value : String) : Except Stop Draft :=
  match switch with
  | .file => .ok { d with file := some (kept? value) }
  | .speed => (number? switch value).map fun n => { d with speed := n }
  | .scale => (number? switch value).map fun n => { d with scale := n }
  | .help | .paused => .error (.fault (.valueIgnored switch value))

/-- The draft with a switch that takes no value. -/
def Draft.plain (d : Draft) (switch : Switch) : Except Stop Draft :=
  match switch with
  | .paused => .ok { d with paused := true }
  | .help => .error .help
  | .file | .speed | .scale => .error (.fault (.valueMissing switch))

/-- What comes of the letters in one word with the short switch of help, which have to be short
switches themselves. Help is shown once the word has been gone through; `hasValue` says whether a
value stands in the next word. -/
def together (hasValue : Bool) : List Char → Stop
  | ['h'] => .help
  | 'h' :: letters => together hasValue letters
  | ['f'] => if hasValue then .help else .fault (.valueMissing .file)
  | 'f' :: _ => .help
  | letters => .fault (.valueIgnored .help (String.ofList letters))

/-- Whether a value stands next. -/
def valueFollows : List Argument → Bool
  | .value _ :: _ => true
  | _ => false

/-- Go through the arguments. -/
def readAll : Draft → List Argument → Except Stop Draft
  | d, [] => .ok d
  | d, .switch switch .nothing :: rest =>
    if switch.takesValue then
      match rest with
      | .value value :: rest => (d.withValue switch value).bind fun d => readAll d rest
      | _ => .error (.fault (.valueMissing switch))
    else (d.plain switch).bind fun d => readAll d rest
  | d, .switch switch (.joined value) :: rest =>
    (d.withValue switch (String.ofList value)).bind fun d => readAll d rest
  | d, .switch switch (.attached value) :: rest =>
    if switch = .help then .error (together (valueFollows rest) value)
    else (d.withValue switch (String.ofList value)).bind fun d => readAll d rest
  | d, argument :: rest => readAll { d with leftOver := d.leftOver ++ [argument.text] } rest

/-- Settle a draft that every argument has gone into. -/
def Draft.settle (d : Draft) : Request :=
  match d.file with
  | none => .refused .fileMissing
  | some file =>
    if !d.leftOver.isEmpty then .refused (.unrecognized d.leftOver)
    else
      match d.speed with
      | none => .faulted .noNumber
      | some speed =>
        if speed < frameRate then .refused .tooSlow
        else
          match d.scale with
          | none => .faulted .noNumber
          | some scale =>
            if scale < 1 then .refused .tooSmall else .play ⟨file, speed, scale, d.paused⟩

/-- Read a command line, given the speed and the scale that hold unless others are asked for. -/
def read (speed scale : Int) (words : List String) : Request :=
  match Argument.ofStrings words with
  | .error fault => .refused fault
  | .ok arguments =>
    match readAll (.start speed scale) arguments with
    | .error .help => .help
    | .error (.fault fault) => .refused fault
    | .ok draft => draft.settle

end Options

end Chip8Vm
