import Chip8Vm.CommandLine.Options
import Chip8Vm.Host
import Chip8Vm.Storage
import Chip8Vm.Window

/-!
# Sessions

A session is the whole program: a command line is read, a machine is made, the program image is
loaded from a file, and turns are played until the host stops. In a turn the events that have come
are handed over, all of them, then a frame is run and the display shown. The user's part is a
script, the events of each turn; when the script is over the user closes the window.

What a session leaves is a `Report`: how it ended, what it wrote, and the moments that an onlooker
would have seen. The words of the command line and the name of the file are texts of characters; a
name that a system has but that is no such text is not one that can be given here.
-/

set_option autoImplicit false

namespace Chip8Vm

/-- How a session ended. -/
inductive Ending where
  /-- The host was stopped. -/
  | returned
  /-- Help was shown. -/
  | helped
  /-- The command line was refused. -/
  | refused
  /-- The program gave up, with these last words. -/
  | gaveUp (text : String)
  /-- A fault that the program does not expect. -/
  | faulted (fault : Fault)
  deriving DecidableEq

/-- The code that a program exits with when its session has ended. -/
def Ending.exitCode : Ending → UInt32
  | returned | helped => 0
  | refused => 2
  | gaveUp _ | faulted _ => 1

/-- A host, its machine and its window. -/
structure Stage (g : Graphics) where
  host : Host
  traced : Traced
  window : Window g

/-- A moment of a session. -/
inductive Moment (g : Graphics) where
  /-- The clock was waited for, at a rate. -/
  | clock (rate : Nat)
  /-- Events were fetched, and this was to be seen. -/
  | fetch (caption : String) (surface : g.Surface) (machine : Machine)

/-- What has become of the screen that windows are shown on. -/
inductive Screen where
  /-- The session never came to the point of needing it. -/
  | unused
  | opened
  | closed
  deriving DecidableEq

/-- What a session leaves. -/
structure Report (g : Graphics) where
  ending : Ending
  screen : Screen
  output : String
  complaint : String
  log : Log
  trail : Array (Moment g)
  machine : Option Machine

variable {g : Graphics}

namespace Stage

/-- Hand an event to the machine and to the host. -/
def handle (e : Event) (s : Stage g) : Outcome (Stage g) :=
  (s.host.deliver e s.traced).map fun traced => { s with host := s.host.after e, traced }

/-- Run a frame. -/
def frame (s : Stage g) : Outcome (Stage g) :=
  (s.host.frame s.traced).map fun traced => { s with traced }

/-- Show the display. -/
def render (s : Stage g) : Stage g :=
  let (window, display) := s.window.render s.traced.machine.display
  { s with window, traced := { s.traced with machine := { s.traced.machine with display } } }

/-- One turn: the events that have come, a frame, and the display. -/
def turn (events : List Event) (s : Stage g) : Outcome (Stage g) :=
  ((Outcome.each handle events s).andThen frame).andThen fun s => .done s.render

/-- What there is to see when events are fetched. -/
def moments (caption : String) (s : Stage g) : Array (Moment g) :=
  #[.clock frameRate, .fetch caption s.window.surface s.traced.machine]

/-- Play turns while the host is running: those of the script, then one in which the user closes the
window. The moments seen are added to a trail. -/
def play (caption : String) : List (List Event) → Stage g → Array (Moment g) →
    Outcome (Stage g) × Array (Moment g)
  | [], s, trail =>
    if s.host.running then (s.turn [.quit], trail ++ s.moments caption) else (.done s, trail)
  | events :: script, s, trail =>
    if s.host.running then
      match s.turn events with
      | ⟨s', none⟩ => play caption script s' (trail ++ s.moments caption)
      | ⟨s', some fault⟩ => (.cut s' fault, trail ++ s.moments caption)
    else (.done s, trail)

end Stage

/-- What opening a name gives. -/
abbrev Files := String → Except Fault (List UInt8)

namespace Traced

/-- Load a program image from the file of a name and tell of it. -/
def loadFile (files : Files) (name : String) (t : Traced) : Outcome Traced :=
  match files name with
  | .error fault => .cut t fault
  | .ok bytes =>
    match t.machine.loadImage (bytes.map fun b => (b.toNat : Int)) with
    | ⟨machine, none⟩ => .done ⟨machine, t.log.add (.loaded name)⟩
    | ⟨machine, some fault⟩ => .cut ⟨machine, t.log⟩ fault

end Traced

namespace Fault

/-- Whether a fault is one that keeps a program image from being loaded. -/
def isLoadFault : Fault → Bool
  | oddImage _ | largeImage _ => true
  | noSuchFile _ | isDirectory _ | notDirectory _ | nameTooLong _ => true
  | _ => false

/-- The name of a fault of the machine's stack, the only faults that a running program brings on. -/
def stackFaultName? : Fault → Option String
  | stackOverflow => some "StackOverflowError"
  | stackUnderflow => some "StackUnderflowError"
  | _ => none

end Fault

namespace Session

/-- The report of a command line that asks for no session. -/
def unplayed (ending : Ending) (output complaint : String) (threshold : Level) : Report g :=
  ⟨ending, .unused, output, complaint, .empty threshold, #[], none⟩

/-- The report of a session that came to no turn. -/
def unstarted (ending : Ending) (screen : Screen) (t : Traced) : Report g :=
  ⟨ending, screen, "", "", t.log, #[], some t.machine⟩

/-- The report of turns that were played. A stack fault is told of with the state it left, and the
screen is closed however the turns ended. -/
def played (o : Outcome (Stage g)) (trail : Array (Moment g)) : Report g :=
  let ⟨machine, log⟩ := o.state.traced
  let report := fun ending log => ⟨ending, .closed, "", "", log, trail, some machine⟩
  match o.fault with
  | none => report .returned log
  | some fault =>
    match fault.stackFaultName? with
    | some name =>
      report (.gaveUp (name ++ ": " ++ fault.message)) (log.add (.crashed machine.dump))
    | none => report (.faulted fault) log

/-- Play a program with the options given. -/
def play (g : Graphics) (options : Options) (files : Files) (script : List (List Event))
    (random : RandomSource) (threshold : Level) : Report g :=
  let start : Traced := ⟨.make .blank .released random, .empty threshold⟩
  match options.file with
  | none => unstarted (.faulted .noName) .unused start
  | some name =>
    match start.loadFile files name with
    | ⟨t, some fault⟩ =>
      let ending :=
        if fault.isLoadFault then .gaveUp ("Cannot load ROM " ++ name ++ ": " ++ fault.message)
        else .faulted fault
      unstarted ending .unused t
    | ⟨t, none⟩ =>
      match Window.make g options.scale Window.defaultBackground Window.defaultForeground with
      | .error fault => unstarted (.faulted fault) .opened t
      | .ok window =>
        let stage : Stage g := ⟨.make options.speed options.paused, t, window⟩
        let (o, trail) := stage.play (Storage.baseName name) script #[]
        played o trail

/-- A whole session. -/
def run (g : Graphics) (words : List String) (files : Files) (script : List (List Event))
    (random : RandomSource) (threshold : Level) : Report g :=
  match Options.read Host.defaultSpeed Window.defaultScale words with
  | .help => unplayed .helped Usage.help "" threshold
  | .refused fault => unplayed .refused "" (Usage.refusal fault) threshold
  | .faulted fault => unplayed (.faulted fault) "" "" threshold
  | .play options => play g options files script random threshold

end Session

end Chip8Vm
