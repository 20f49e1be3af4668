import Chip8Vm.Monitor
import Chip8Vm.Proofs.Range
import Chip8Vm.Raster

/-!
# Runs on the bench

A run is any sequence of commands. A fault ends its command and not the run: the next command goes
on from the state that was left. The run lemma of this file is about the numbers of the machine.

Seven commands put a number from outside straight into a machine and leave it to whoever gives them
to keep it in range (`Command.tampers`). The others do not, whatever data, names, keys, addresses
and values they are given:

> **without tampering every state of every run is well-formed** (`run_wellFormed`), the machine on
> the bench and the machine that the host drives alike, and whether commands were cut short or not.

What a byte of the memory, a row, a key, the pointer of the stack and a waiting register may be is
in their types, and needs no proof.
-/

set_option autoImplicit false

namespace Chip8Vm

namespace Command

/-- Whether a command puts a number into a machine that nobody has looked at. -/
def tampers : Command → Bool
  | setRegister .. | setPc _ | setIndex _ | setDelay _ | setSound _ => true
  | loadMemory .. | push _ => true
  | _ => false

end Command

/-- Loading an image changes nothing but the memory. -/
theorem Machine.state_loadImage (m : Machine) (image : List Int) :
    ∃ memory, (m.loadImage image).state = { m with memory } := by
  unfold loadImage
  cases imageFault? image.length with
  | some fault => exact ⟨m.memory, rfl⟩
  | none => exact ⟨_, rfl⟩

namespace Traced

/-- Loading a file changes nothing of the machine but the memory. -/
theorem state_loadFile (t : Traced) (files : Files) (name : String) :
    ∃ memory, (t.loadFile files name).state.machine = { t.machine with memory } := by
  unfold loadFile
  cases files name with
  | error fault => exact ⟨t.machine.memory, rfl⟩
  | ok bytes =>
    obtain ⟨memory, left⟩ := t.machine.state_loadImage (bytes.map fun b => (b.toNat : Int))
    refine ⟨memory, ?_⟩
    dsimp only
    cases hl : t.machine.loadImage (bytes.map fun b => (b.toNat : Int)) with
    | mk machine fault =>
      rw [hl] at left
      cases fault <;> exact left

theorem loadFile_wellFormed {t : Traced} (h : t.machine.WellFormed) (files : Files)
    (name : String) : (t.loadFile files name).state.machine.WellFormed := by
  unfold loadFile
  cases files name with
  | error fault => exact h
  | ok bytes =>
    have loaded := h.loadImage (bytes.map fun b => (b.toNat : Int))
    dsimp only
    cases hl : t.machine.loadImage (bytes.map fun b => (b.toNat : Int)) with
    | mk machine fault =>
      rw [hl] at loaded
      cases fault with
      | none => exact loaded
      | some f => exact loaded

end Traced

namespace Monitor

variable {g : Graphics}

/-- Carry out commands one after the other, going on after a fault. -/
def run (commands : List Command) (b : Monitor g) : Monitor g :=
  commands.foldl (fun b c => (b.perform c).state) b

@[simp] theorem run_nil (b : Monitor g) : b.run [] = b := rfl

@[simp] theorem run_cons (c : Command) (cs : List Command) (b : Monitor g) :
    b.run (c :: cs) = (b.perform c).state.run cs := rfl

/-- What every command of a run keeps, the run keeps. -/
theorem run_keeps {P : Monitor g → Prop} {commands : List Command} {b : Monitor g}
    (h : ∀ c ∈ commands, ∀ b, P b → P (b.perform c).state) (hb : P b) : P (b.run commands) := by
  induction commands generalizing b with
  | nil => exact hb
  | cons c cs ih =>
    rw [run_cons]
    exact ih (fun d hd => h d (by simp [hd])) (h c (by simp) b hb)

/-- Loading an image changes nothing but the memory. -/
theorem state_loadImage (b : Monitor g) (image : Data) :
    ∃ memory, (b.perform (.loadImage image)).state
      = { b with machine := { b.machine with memory } } := by
  simp only [perform, loadImage]
  split
  · exact ⟨b.machine.memory, rfl⟩
  · exact ⟨b.machine.memory, rfl⟩
  · obtain ⟨memory, left⟩ := b.machine.state_loadImage image.values
    exact ⟨memory, congrArg (fun machine => { b with machine }) left⟩

/-- A bench whose machines have all their numbers in range. -/
structure WellFormed (b : Monitor g) : Prop where
  machine : b.machine.WellFormed
  retired : ∀ m, b.retired = some m → m.WellFormed

namespace WellFormed

variable {b : Monitor g}

theorem hosted (h : b.WellFormed) : b.hosted.WellFormed := by
  unfold Monitor.hosted
  cases hr : b.retired with
  | none => exact h.machine
  | some m => exact { h.retired m hr with }

theorem setHosted (h : b.WellFormed) {m : Machine} (hm : m.WellFormed) :
    (b.setHosted m).WellFormed := by
  unfold Monitor.setHosted
  cases hr : b.retired with
  | none => exact ⟨hm, fun _ hm' => absurd hm' (by simp)⟩
  | some old =>
    refine ⟨{ h.machine with }, fun m' hm' => ?_⟩
    cases hm'
    exact hm

theorem withMachine (h : b.WellFormed) {m : Machine} (hm : m.WellFormed) :
    { b with machine := m }.WellFormed :=
  { h with machine := hm }

theorem onTraced (h : b.WellFormed) {f : Traced → Outcome Traced} {o : Outcome Machine}
    (hf : (f ⟨b.machine, b.log⟩).map Traced.machine = o) (ho : o.state.WellFormed) :
    (b.onTraced f).state.WellFormed := by
  subst hf
  exact { h with machine := ho }

theorem onHosted (h : b.WellFormed) {f : Traced → Outcome Traced} {o : Outcome Machine}
    (hf : (f ⟨b.hosted, b.log⟩).map Traced.machine = o) (ho : o.state.WellFormed) :
    (b.onHosted f).state.WellFormed := by
  subst hf
  exact { h.setHosted ho with }

/-- A new machine on the bench is well-formed, and the one that the host goes on driving was. -/
theorem replaceMachine (h : b.WellFormed) : b.replaceMachine.WellFormed := by
  refine ⟨?_, fun m hm => ?_⟩
  · exact Machine.wellFormed_reset _
  simp only [Monitor.replaceMachine] at hm
  rcases Option.or_eq_some_iff.mp hm with old | ⟨-, old⟩
  · exact h.retired m old
  · obtain ⟨-, -, rfl⟩ := Option.map_eq_some_iff.mp old
    exact h.machine

theorem loadImage (h : b.WellFormed) (image : Data) : (b.loadImage image).state.WellFormed := by
  unfold Monitor.loadImage
  split
  · exact h
  · exact h
  · exact h.withMachine (h.machine.loadImage image.values)

theorem openWindow (h : b.WellFormed) (scale : Int) (background foreground : Option (List Int)) :
    (b.openWindow scale background foreground).state.WellFormed := by
  unfold Monitor.openWindow
  dsimp only
  split
  · exact { h with }
  · exact h

theorem render (h : b.WellFormed) : b.render.WellFormed := by
  unfold Monitor.render
  cases hw : b.window with
  | none => exact h
  | some window =>
    dsimp only
    cases window.render b.machine.display with
    | mk window display => exact ⟨{ h.machine with }, h.retired⟩

/-- **One command** without tampering, cut short or not. -/
theorem perform (h : b.WellFormed) {c : Command} (hc : c.tampers = false) :
    (b.perform c).state.WellFormed := by
  cases c with
  | replace => exact h.replaceMachine
  | reset => exact h.withMachine b.machine.wellFormed_reset
  | loadImage image => exact h.loadImage image
  | loadFile name => exact h.onTraced rfl (Traced.loadFile_wellFormed h.machine _ name)
  | writeFile name data => exact { h with }
  | makeDirectory name => exact { h with }
  | process opcode => exact h.onTraced (Traced.map_process opcode _) (h.machine.process opcode)
  | cycle => exact h.onTraced (Traced.map_cycle _) (h.machine.move .cycle)
  | tick => exact h.withMachine h.machine.tick
  | poke address value =>
    exact h.withMachine { h.machine with
      memory := (Memory.size_write b.machine.memory address value).trans h.machine.memory }
  | resetMemory =>
    exact h.withMachine { h.machine with memory := b.machine.wellFormed_reset.memory }
  | pop =>
    simp only [Monitor.perform]
    cases hp : b.machine.stack.pop? with
    | none => exact h
    | some top =>
      have same := (CallStack.slots_pop hp).1
      refine h.withMachine { h.machine with stack := fun i => ?_ }
      rw [same]
      exact h.machine.stack i
  | resetStack =>
    exact h.withMachine { h.machine with
      stack := (Machine.wellFormed_initial b.machine.random).stack }
  | press key => exact h.onTraced (Traced.map_press key _) (h.machine.move (.press key))
  | release key => exact h.onTraced (Traced.map_release key _) (h.machine.move (.release key))
  | releaseAll => exact h.withMachine { h.machine with }
  | clear => exact h.withMachine { h.machine with }
  | draw x y sprite => exact h.withMachine { h.machine with }
  | setRow row bits =>
    simp only [Monitor.perform]
    cases Number.place 32 .noSuchPlace row with
    | error fault => exact h
    | ok row => exact h.withMachine { h.machine with }
  | setDirty dirty => exact h.withMachine { h.machine with }
  | attachHost speed paused => exact ⟨h.machine, fun _ hm => absurd hm (by simp [Monitor.perform])⟩
  | event e =>
    simp only [Monitor.perform]
    cases b.host with
    | none => exact h
    | some host => exact { h.onHosted (host.map_deliver e _) (h.hosted.moves _) with }
  | frame =>
    simp only [Monitor.perform]
    cases b.host with
    | none => exact h
    | some host => exact h.onHosted (host.map_frame _) (h.hosted.moves _)
  | openWindow scale background foreground => exact h.openWindow scale background foreground
  | render => exact h.render
  | setRegister | setPc | setIndex | setDelay | setSound | loadMemory | push => cases hc

end WellFormed

theorem wellFormed_start (random : RandomSource) (threshold : Level) :
    (start random threshold : Monitor g).WellFormed :=
  ⟨Machine.wellFormed_initial random, fun _ hm => absurd hm (by simp [start])⟩

/-- **Every state of every run is well-formed**, from a new machine with any source of random
values, as long as nobody tampers. Every state of a run is the last state of a run, so it is enough
to say it of that. -/
theorem run_wellFormed (random : RandomSource) (threshold : Level) (commands : List Command)
    (h : ∀ c ∈ commands, c.tampers = false) :
    ((start random threshold : Monitor g).run commands).machine.WellFormed
      ∧ ((start random threshold : Monitor g).run commands).hosted.WellFormed := by
  have kept : ((start random threshold : Monitor g).run commands).WellFormed :=
    run_keeps (fun c hc _ hb => hb.perform (h c hc)) (wellFormed_start random threshold)
  exact ⟨kept.machine, kept.hosted⟩

/-- Commands of which some are cut short: a return on an empty stack, a value that is no byte, a key
that there is not; and a sprite of numbers of any size, drawn from outside the display. -/
def roughCommands : List Command :=
  [ .attachHost (-7) false, .openWindow 3 none none, .process 0x00EE, .process (-1),
    .poke (-4097) 300, .poke 0x10000 255, .loadImage (.numbers [0xC0, 0xFF, 0xF0, 0x0A]),
    .draw (-5) 1000 [256, -1], .press 99, .event (.keyDown (.character 'x')), .frame, .render ]

theorem run_wellFormed_roughCommands :
    let b : Monitor .raster := start ⟨fun i => -(i : Int), 0⟩ .debug
    (∀ c ∈ roughCommands, c.tampers = false) ∧ (b.run roughCommands).machine.WellFormed := by
  intro b
  have untampered : ∀ c ∈ roughCommands, c.tampers = false := by decide
  exact ⟨untampered, (run_wellFormed ⟨fun i => -(i : Int), 0⟩ .debug roughCommands untampered).1⟩

end Monitor
end Chip8Vm
