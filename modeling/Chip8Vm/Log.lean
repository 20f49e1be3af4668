import Chip8Vm.Instruction.Text

/-!
# The log

What happens to a machine is told in entries. An entry is data, a cause with its particulars, and
its level, its source and its wording are read off it. A log keeps the entries of its threshold and
above and drops the others on arrival, so tracing that nobody asked for costs nothing.
-/

set_option autoImplicit false

namespace Chip8Vm

/-- How much an entry matters. -/
inductive Level where
  | debug
  | info
  | warning
  | error
  deriving DecidableEq

namespace Level

/-- The place of a level among the four. -/
def rank : Level → Nat
  | debug => 0
  | info => 1
  | warning => 2
  | error => 3

/-- The name of a level. -/
def name : Level → String
  | debug => "DEBUG"
  | info => "INFO"
  | warning => "WARNING"
  | error => "ERROR"

end Level

/-- One thing that happened. -/
inductive Entry where
  /-- An instruction, fetched from an address, was executed. -/
  | executed (address : Int) (instruction : Instruction)
  /-- A word without a meaning was passed over. -/
  | passedOver (address opcode : Int)
  /-- A key went down. -/
  | pressed (key : Fin 16)
  /-- A key went up. -/
  | released (key : Fin 16)
  /-- A program image was loaded from a file. -/
  | loaded (name : String)
  /-- The host stopped running the machine. -/
  | paused
  /-- The host runs the machine again. -/
  | resumed
  /-- The host executed one instruction, and this is what came of it. -/
  | stepped (pc : Int) (dump : String)
  /-- A fault ended the session in this state. -/
  | crashed (dump : String)
  deriving DecidableEq

namespace Entry

/-- How much an entry matters. -/
def level : Entry → Level
  | executed .. | pressed _ | released _ => .debug
  | loaded _ | paused | resumed | stepped .. => .info
  | passedOver .. => .warning
  | crashed _ => .error

/-- The part of the program that an entry speaks for. -/
def source : Entry → String
  | executed .. | passedOver .. | loaded _ => "chip8"
  | pressed _ | released _ => "keypad"
  | paused | resumed | stepped .. | crashed _ => "frontend"

/-- The wording of an entry. -/
def text : Entry → String
  | executed address instruction =>
    "mem_addr: 0x" ++ Number.hex 4 address ++ "    instruction: " ++ instruction.text
  | passedOver address opcode =>
    "mem_addr: 0x" ++ Number.hex 4 address ++ "    unknown instruction: 0x" ++ Number.hex 4 opcode
      ++ ", skipped"
  | pressed key => "key 0x" ++ String.singleton (Number.upperHexDigit key) ++ " down"
  | released key => "key 0x" ++ String.singleton (Number.upperHexDigit key) ++ " up"
  | loaded name => "The ROM at path " ++ name ++ " has been loaded successfully"
  | paused => "paused"
  | resumed => "resumed"
  | stepped pc dump => "stepped to 0x" ++ Number.hex 4 pc ++ "\n" ++ dump
  | crashed dump => "********** THE EMULATOR CRASHED WITH THE FOLLOWING STATE\n" ++ dump

/-- An entry as it is written out. -/
def line (e : Entry) : String := e.level.name ++ " " ++ e.source ++ ": " ++ e.text

end Entry

/-- The entries kept so far, oldest first, and the level from which entries are kept. -/
structure Log where
  threshold : Level
  entries : Array Entry
  deriving DecidableEq

namespace Log

/-- A log with nothing in it. -/
def empty (threshold : Level) : Log := ⟨threshold, #[]⟩

/-- Whether a log keeps entries of a level. -/
def keeps (log : Log) (level : Level) : Bool := log.threshold.rank ≤ level.rank

/-- The log after an entry arrives. -/
def add (log : Log) (e : Entry) : Log :=
  if log.keeps e.level then { log with entries := log.entries.push e } else log

/-- The lines of the entries kept. -/
def lines (log : Log) : List String := log.entries.toList.map Entry.line

@[simp] theorem threshold_add (log : Log) (e : Entry) : (log.add e).threshold = log.threshold := by
  unfold add; split <;> rfl

theorem entries_add (log : Log) (e : Entry) :
    (log.add e).entries = if log.keeps e.level then log.entries.push e else log.entries := by
  unfold add; split <;> rfl

/-- An entry that is kept is one more line, and one that is dropped is none. -/
theorem lines_add (log : Log) (e : Entry) :
    (log.add e).lines = log.lines ++ if log.keeps e.level then [e.line] else [] := by
  unfold lines
  rw [entries_add]
  split
  · rw [Array.toList_push, List.map_append, List.map_singleton]
  · rw [List.append_nil]

end Log

end Chip8Vm
