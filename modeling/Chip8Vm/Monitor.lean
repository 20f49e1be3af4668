import Chip8Vm.Data
import Chip8Vm.Session

/-!
# The monitor

A bench on which a machine, its host, its window and a storage stand together, and the commands that
can be given there, each of them one change to any part. A machine can be replaced by a new one on
the same devices; a host then goes on driving the machine that it was made for, and the devices are
one for both.

A command brings what was given for it, not what it should have been: data that is no bytes and
numbers that are no colour come this far, and the fault is found where they are first needed.
-/

set_option autoImplicit false

namespace Chip8Vm

/-- What stands on the bench. -/
structure Monitor (g : Graphics) where
  machine : Machine
  log : Log
  storage : Storage
  host : Option Host
  /-- The machine that the host drives, if it is no longer the one on the bench. Its devices are
  those of the bench. -/
  retired : Option Machine
  window : Option (Window g)

/-- One change. -/
inductive Command where
  /-- Put a new machine on the bench, on the same devices. -/
  | replace
  | reset
  | loadImage (image : Data)
  | loadFile (name : String)
  | writeFile (name : String) (data : Data)
  | makeDirectory (name : String)
  | process (opcode : Int)
  | cycle
  | tick
  /-- Registers and rows are named by their places, which may be counted from the end. -/
  | setRegister (x value : Int)
  | setPc (value : Int)
  | setIndex (value : Int)
  | setDelay (value : Int)
  | setSound (value : Int)
  | poke (address value : Int)
  | loadMemory (address : Int) (data : Data)
  | resetMemory
  | push (address : Int)
  | pop
  | resetStack
  | press (key : Int)
  | release (key : Int)
  | releaseAll
  | clear
  | draw (x y : Int) (sprite : List Int)
  | setRow (row : Int) (bits : BitVec 64)
  | setDirty (dirty : Bool)
  /-- Make a host for the machine on the bench. -/
  | attachHost (speed : Int) (paused : Bool)
  | event (e : Event)
  | frame
  /-- Make a window for the display, in standard colours where none is asked for. -/
  | openWindow (scale : Int) (background foreground : Option (List Int))
  | render

namespace Monitor

variable {g : Graphics}

/-- A bench with a machine that has just been made and nothing else. -/
def start (random : RandomSource) (threshold : Level) : Monitor g where
  machine := .initial random
  log := .empty threshold
  storage := .empty
  host := none
  retired := none
  window := none

/-- A machine on the devices of another. -/
def onDevicesOf (m devices : Machine) : Machine :=
  { m with display := devices.display, keypad := devices.keypad, random := devices.random }

/-- The machine that the host drives. -/
def hosted (b : Monitor g) : Machine :=
  match b.retired with
  | none => b.machine
  | some m => onDevicesOf m b.machine

/-- The bench after the host has driven its machine. -/
def setHosted (b : Monitor g) (m : Machine) : Monitor g :=
  match b.retired with
  | none => { b with machine := m }
  | some _ => { b with machine := onDevicesOf b.machine m, retired := some m }

/-- The bench with another machine on it, on the same devices. -/
def replaceMachine (b : Monitor g) : Monitor g :=
  { b with
    machine := .make b.machine.display b.machine.keypad b.machine.random
    retired := b.retired.or (b.host.map fun _ => b.machine) }

/-- An operation on the machine. -/
def onMachine (f : Machine → Outcome Machine) (b : Monitor g) : Outcome (Monitor g) :=
  (f b.machine).map fun machine => { b with machine }

/-- An operation on the machine that is told about. -/
def onTraced (f : Traced → Outcome Traced) (b : Monitor g) : Outcome (Monitor g) :=
  (f ⟨b.machine, b.log⟩).map fun t => { b with machine := t.machine, log := t.log }

/-- An operation of the host on its machine. -/
def onHosted (f : Traced → Outcome Traced) (b : Monitor g) : Outcome (Monitor g) :=
  (f ⟨b.hosted, b.log⟩).map fun t => { b.setHosted t.machine with log := t.log }

/-- A change to the machine that cannot fail. -/
def edit (f : Machine → Machine) (b : Monitor g) : Outcome (Monitor g) :=
  .done { b with machine := f b.machine }

/-- Load a program image. Its size is known before its values are written out. -/
def loadImage (image : Data) (b : Monitor g) : Outcome (Monitor g) :=
  match image.fault?, Machine.imageFault? image.size with
  | some fault, _ | none, some fault => .cut b fault
  | none, none => b.onMachine (Machine.loadImage image.values)

/-- Lay data over the memory. -/
def loadMemory (address : Int) (data : Data) (b : Monitor g) : Outcome (Monitor g) :=
  match data.fault? with
  | some fault => .cut b fault
  | none =>
    b.onMachine fun m => (m.memory.load address data.values).map fun memory => { m with memory }

/-- Make a window. The colours are looked at before the size. -/
def openWindow (scale : Int) (background foreground : Option (List Int)) (b : Monitor g) :
    Outcome (Monitor g) :=
  let window := do
    let background ← Color.asked Window.defaultBackground background
    let foreground ← Color.asked Window.defaultForeground foreground
    Window.make g scale background foreground
  match window with
  | .ok window => .done { b with window := some window }
  | .error fault => .cut b fault

/-- Show the display in the window. -/
def render (b : Monitor g) : Monitor g :=
  match b.window with
  | none => b
  | some window =>
    let (window, display) := window.render b.machine.display
    { b with window := some window, machine := { b.machine with display } }

/-- Carry out a command. -/
def perform : Command → Monitor g → Outcome (Monitor g)
  | .replace, b => .done b.replaceMachine
  | .reset, b => b.edit .reset
  | .loadImage image, b => b.loadImage image
  | .loadFile name, b => b.onTraced (Traced.loadFile b.storage.open? name)
  | .writeFile name data, b =>
    (b.storage.write name data.bytes).map fun storage => { b with storage }
  | .makeDirectory name, b => (b.storage.makeDirectory name).map fun storage => { b with storage }
  | .process opcode, b => b.onTraced (Traced.process opcode)
  | .cycle, b => b.onTraced Traced.cycle
  | .tick, b => b.edit .tick
  | .setRegister x value, b =>
    match Number.place 16 .noSuchPlace x with
    | .ok x => b.edit fun m => m.setRegister x value
    | .error fault => .cut b fault
  | .setPc value, b => b.edit fun m => { m with pc := value }
  | .setIndex value, b => b.edit fun m => { m with index := value }
  | .setDelay value, b => b.edit fun m => { m with delay := value }
  | .setSound value, b => b.edit fun m => { m with sound := value }
  | .poke address value, b =>
    b.onMachine fun m => (m.memory.write address value).map fun memory => { m with memory }
  | .loadMemory address data, b => b.loadMemory address data
  | .resetMemory, b => b.edit fun m => { m with memory := m.memory.reset }
  | .push address, b =>
    b.onMachine fun m => (m.stack.push address).map fun stack => { m with stack }
  | .pop, b =>
    match b.machine.stack.pop? with
    | some (_, stack) => b.edit fun m => { m with stack }
    | none => .cut b .stackUnderflow
  | .resetStack, b => b.edit fun m => { m with stack := m.stack.reset }
  | .press key, b => b.onTraced (Traced.press key)
  | .release key, b => b.onTraced (Traced.release key)
  | .releaseAll, b => b.onTraced fun t => .done t.releaseAll
  | .clear, b => b.edit fun m => { m with display := m.display.clear }
  | .draw x y sprite, b => b.edit fun m => { m with display := m.display.draw x y sprite }
  | .setRow row bits, b =>
    match Number.place 32 .noSuchPlace row with
    | .ok row => b.edit fun m => { m with display := m.display.setRow row bits }
    | .error fault => .cut b fault
  | .setDirty dirty, b => b.edit fun m => { m with display := { m.display with dirty } }
  | .attachHost speed paused, b =>
    .done { b with host := some (.make speed paused), retired := none }
  | .event e, b =>
    match b.host with
    | none => .done b
    | some host => (b.onHosted (host.deliver e)).map fun b => { b with host := some (host.after e) }
  | .frame, b =>
    match b.host with
    | none => .done b
    | some host => b.onHosted host.frame
  | .openWindow scale background foreground, b => b.openWindow scale background foreground
  | .render, b => .done b.render

end Monitor

end Chip8Vm
