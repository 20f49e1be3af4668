import Chip8Vm.Raster
import Chip8Vm.Script
import Chip8Vm.Session
import Chip8Vm.TraceSwitch

/-!
# The program

Reads the command line and the file it names, plays the script on standard input, and leaves log and
complaints on standard error. When the script is over the last display is shown as text.
-/

set_option autoImplicit false

namespace Chip8Vm.Program

/-- What opening a name on disk gives. -/
def openFile (name : String) : IO (Except Fault (List UInt8)) := do
  if let some fault := Storage.nameFault? name then return .error fault
  try
    let bytes ← IO.FS.readBinFile name
    return .ok bytes.toList
  catch
    | .inappropriateType _ code _ =>
      -- the system's number for a file in place of a directory, given with either sign
      return .error (if code = 20 ∨ code + 20 = 0 then .notDirectory name else .isDirectory name)
    | .invalidArgument .. => return .error (.nameTooLong name)
    | _ => return .error (.noSuchFile name)

/-- Values that follow from a seed. -/
def randomFrom (seed : Nat) : RandomSource where
  value i := ((hash (seed, i)).toNat % 256 : Nat)
  drawn := 0

/-- The lines of standard input, without their ends. -/
partial def inputLines (input : IO.FS.Stream) (lines : Array String) : IO (Array String) := do
  let line ← input.getLine
  if line.isEmpty then return lines
  let text := String.ofList (line.toList.filter fun c => c ≠ '\n' && c ≠ '\r')
  inputLines input (lines.push text)

/-- Write what a session left, and give its exit code. -/
def present (report : Report .raster) : IO UInt32 := do
  IO.print report.output
  IO.eprint report.complaint
  for line in report.log.lines do
    IO.eprintln line
  match report.ending, report.machine with
  | .returned, some machine => IO.println machine.display.text
  | .gaveUp text, _ => IO.eprintln text
  | .faulted fault, _ => IO.eprintln fault.message
  | .returned, none | .helped, _ | .refused, _ => pure ()
  return report.ending.exitCode

/-- A session from the outside. -/
def play (words : List String) (threshold : Level) : IO UInt32 := do
  let content ← match Options.read Host.defaultSpeed Window.defaultScale words with
    | .play ⟨some name, _, _, _⟩ => openFile name
    | _ => pure (.ok [])
  let lines ← inputLines (← IO.getStdin) #[]
  let seed ← IO.rand 0 (Nat.pow 2 31)
  present (Session.run .raster words (fun _ => content) (Script.ofLines lines.toList)
    (randomFrom seed) threshold)

/-- The program: the setting that turns tracing on is looked at before anything else. -/
def start (words : List String) : IO UInt32 := do
  let setting ← IO.getEnv "DEBUG"
  match traceSwitch setting with
  | .ok trace => play words (if trace then .debug else .info)
  | .error fault =>
    IO.eprintln fault.message
    return 1

end Chip8Vm.Program

def main (words : List String) : IO UInt32 := Chip8Vm.Program.start words
