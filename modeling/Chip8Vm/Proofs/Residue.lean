import Chip8Vm.Proofs.Bench
import Chip8Vm.Proofs.Unseen

/-!
# Nothing is left behind by a reset

A reset gives a machine whose every part is known (`fresh_initial`), and there is only one such
machine for a source of random values (`eq_initial_of_fresh`). What it was before the reset is gone
from it but for the values that were drawn, and of those nothing can be told that does not lie in
the values to come.

> **two machines that are reset, with the same random values to come, cannot be told apart**
> (`account_reset`), whatever they were and whatever is done on their benches from then on.
-/

set_option autoImplicit false

namespace Chip8Vm

/-! ## The machine that a reset gives -/

theorem Memory.getElem?_blank (i : Nat) :
    Memory.blank.bytes[i]?
      = if i < 80 then font[i]? else if i < 4096 then some 0 else none := by
  unfold blank
  rw [List.getElem?_toArray, List.getElem?_append, List.getElem?_replicate, length_font]
  split
  · rfl
  · unfold memorySize
    congr 1
    exact propext (by omega)

/-- A machine that has just been made, part by part. -/
structure Machine.Fresh (m : Machine) : Prop where
  size : m.memory.bytes.size = 4096
  font : ∀ i < 80, m.memory.bytes[i]? = font[i]?
  zeros : ∀ i, 80 ≤ i → i < 4096 → m.memory.bytes[i]? = some 0
  registers : ∀ x : Register, m.register x = 0
  index : m.index = 0
  slots : ∀ i, m.stack.slots.get i = 0
  pointer : m.stack.pointer = 0
  pc : m.pc = 0x200
  delay : m.delay = 255
  sound : m.sound = 255
  waiting : m.waiting = none
  dark : ∀ column row, m.display.lit column row = false
  dirty : m.display.dirty = true
  up : ∀ k, m.keypad.down.get k = false

namespace Machine

theorem fresh_initial (random : RandomSource) : (initial random).Fresh where
  size := (wellFormed_initial random).memory
  font i hi := (Memory.getElem?_blank i).trans (if_pos hi)
  zeros i low high :=
    (Memory.getElem?_blank i).trans ((if_neg (Nat.not_lt.mpr low)).trans (if_pos high))
  registers x := by simp [initial, register]
  index := rfl
  slots i := by simp [initial, CallStack.empty, Vector.get]
  pointer := rfl
  pc := rfl
  delay := rfl
  sound := rfl
  waiting := rfl
  dark := Display.lit_blank
  dirty := rfl
  up k := by simp [initial, Keypad.released, Vector.get]

/-- There is one machine like this for each source of random values. -/
theorem eq_initial_of_fresh {m : Machine} (h : m.Fresh) : m = initial m.random := by
  have memory : m.memory = Memory.blank := by
    refine Memory.ext (Array.ext_getElem? fun i => ?_)
    rw [Memory.getElem?_blank]
    by_cases inFont : i < 80
    · rw [if_pos inFont, h.font i inFont]
    · by_cases inside : i < 4096
      · rw [if_neg inFont, if_pos inside, h.zeros i (by omega) inside]
      · have beyond : m.memory.bytes.size ≤ i := by
          rw [h.size]
          omega
        rw [if_neg inFont, if_neg inside, Array.getElem?_eq_none beyond]
  have registers : m.registers = Vector.replicate 16 0 := by
    refine Vector.ext fun i hi => ?_
    rw [Vector.getElem_replicate]
    exact h.registers ⟨i, hi⟩
  have stack : m.stack = CallStack.empty := by
    have slots : m.stack.slots = Vector.replicate 16 0 := by
      refine Vector.ext fun i hi => ?_
      rw [Vector.getElem_replicate]
      exact h.slots ⟨i, hi⟩
    exact congr (congrArg CallStack.mk slots) h.pointer
  have display : m.display = Display.blank := by
    have rows : m.display.rows = Vector.replicate 32 0#64 := by
      refine Vector.ext fun row hr => BitVec.eq_of_getMsbD_eq fun column hc => ?_
      rw [Vector.getElem_replicate, BitVec.getMsbD_zero]
      exact h.dark ⟨column, hc⟩ ⟨row, hr⟩
    exact congr (congrArg Display.mk rows) h.dirty
  have keypad : m.keypad = Keypad.released := by
    refine congrArg Keypad.mk (Vector.ext fun k hk => ?_)
    rw [Vector.getElem_replicate]
    exact h.up ⟨k, hk⟩
  have index := h.index
  have pc := h.pc
  have delay := h.delay
  have sound := h.sound
  have waiting := h.waiting
  obtain ⟨⟩ := m
  simp only at memory registers stack display keypad index pc delay sound waiting
  subst memory registers stack display keypad index pc delay sound waiting
  rfl

end Machine

/-! ## Machines and logs that went on alike -/

/-- Where in its row a source of random values stands, put aside. -/
def Veil.drawn : Veil where
  random r := ⟨fun i => r.value (r.drawn + i), 0⟩
  dirty := id
  next_random _ := rfl
  random_advance r := by
    show RandomSource.mk (fun i => r.value (r.drawn + (0 + 1 + i))) 0
      = RandomSource.mk (fun i => r.value (r.drawn + 1 + i)) 0
    simp only [Nat.zero_add, Nat.add_assoc]
  random_random r := by
    show RandomSource.mk (fun i => r.value (r.drawn + (0 + i))) 0 = _
    simp only [Nat.zero_add]
  dirty_dirty _ := rfl

/-- Machines that look the same are the same when they are new. -/
theorem Veil.Same.initial {m m' : Machine} (h : Veil.drawn.Same m m') :
    Veil.drawn.Same (.initial m.random) (.initial m'.random) :=
  h.edit (f := fun m => .initial m.random) fun _ => rfl

namespace Traced

/-- The two look the same but for the values that were drawn, and since the logs held some entries
the same has been told. -/
structure Alike (old old' : Array Entry) (t t' : Traced) : Prop where
  machine : Veil.drawn.Same t.machine t'.machine
  threshold : t.log.threshold = t'.log.threshold
  entries : ∃ new, t.log.entries = old ++ new ∧ t'.log.entries = old' ++ new

namespace Alike

variable {old old' : Array Entry} {t t' : Traced}

theorem withMachine (h : Alike old old' t t') {m m' : Machine} (hm : Veil.drawn.Same m m') :
    Alike old old' ⟨m, t.log⟩ ⟨m', t'.log⟩ :=
  { h with machine := hm }

/-- Both are told the same. -/
theorem add (h : Alike old old' t t') (e : Entry) :
    Alike old old' { t with log := t.log.add e } { t' with log := t'.log.add e } := by
  obtain ⟨new, entries, entries'⟩ := h.entries
  have keeps : t.log.keeps e.level = t'.log.keeps e.level := by
    unfold Log.keeps
    rw [h.threshold]
  refine ⟨h.machine, ?_, ?_⟩
  · rw [Log.threshold_add, Log.threshold_add, h.threshold]
  · rw [Log.entries_add, Log.entries_add, keeps, entries, entries']
    cases t'.log.keeps e.level with
    | true => exact ⟨new.push e, by simp, by simp⟩
    | false => exact ⟨new, rfl, rfl⟩

theorem dump (h : Alike old old' t t') : t.machine.dump = t'.machine.dump :=
  h.machine.agree fun _ => rfl

theorem pc (h : Alike old old' t t') : t.machine.pc = t'.machine.pc :=
  h.machine.agree fun _ => rfl

/-- An operation that is told of when it has come to its end. -/
theorem told (h : Alike old old' t t') {o o' : Outcome Machine} {e : Entry} :
    -- behind the colon, for the matches would take it in as a name
    Outcome.Matches Veil.drawn.Same o o' → Outcome.Matches (Alike old old')
      (match o with
        | ⟨m, none⟩ => .done ⟨m, t.log.add e⟩
        | ⟨m, some fault⟩ => .cut ⟨m, t.log⟩ fault)
      (match o' with
        | ⟨m, none⟩ => .done ⟨m, t'.log.add e⟩
        | ⟨m, some fault⟩ => .cut ⟨m, t'.log⟩ fault) := by
  intro ho
  obtain ⟨m, fault⟩ := o
  obtain ⟨m', fault'⟩ := o'
  obtain ⟨same, rfl⟩ : Veil.drawn.Same m m' ∧ fault = fault' := ⟨ho.state, ho.fault⟩
  cases fault with
  | none => exact .done ((h.withMachine same).add e)
  | some f => exact .cut (h.withMachine same) f

theorem process (h : Alike old old' t t') (opcode : Int) :
    Outcome.Matches (Alike old old') (t.process opcode) (t'.process opcode) := by
  have advanced := h.machine.advance
  have address : t.machine.advance.previousAddress = t'.machine.advance.previousAddress :=
    advanced.agree fun _ => rfl
  unfold Traced.process
  dsimp only
  rw [address]
  cases Instruction.decode? opcode with
  | none => exact .done ((h.withMachine advanced).add _)
  | some i => exact h.told (advanced.execute i)

theorem cycle (h : Alike old old' t t') :
    Outcome.Matches (Alike old old') t.cycle t'.cycle := by
  unfold Traced.cycle
  rw [h.machine.fetch]
  exact h.process _

theorem press (h : Alike old old' t t') (k : Int) :
    Outcome.Matches (Alike old old') (t.press k) (t'.press k) := by
  unfold Traced.press
  cases Keypad.key? k with
  | none => exact .cut h _
  | some key =>
    have pressed := h.machine.edit (f := fun m => { m with keypad := m.keypad.press key })
      fun _ => rfl
    exact .done ((h.withMachine pressed).add _)

theorem release (h : Alike old old' t t') (k : Int) :
    Outcome.Matches (Alike old old') (t.release k) (t'.release k) := by
  unfold Traced.release
  cases Keypad.key? k with
  | none => exact .cut h _
  | some key =>
    have released := h.machine.edit (f := fun m => { m with keypad := m.keypad.release key })
      fun _ => rfl
    exact .done ((h.withMachine released).add _)

theorem releaseAll (h : Alike old old' t t') : Alike old old' t.releaseAll t'.releaseAll :=
  h.withMachine (h.machine.edit (f := fun m => { m with keypad := .released }) fun _ => rfl)

theorem tick (h : Alike old old' t t') : Alike old old' t.tick t'.tick :=
  h.withMachine (h.machine.edit fun _ => rfl)

theorem loadImage {m m' : Machine} (h : Veil.drawn.Same m m') (image : List Int) :
    Outcome.Matches Veil.drawn.Same (m.loadImage image) (m'.loadImage image) := by
  refine Veil.Same.of_cover (fun m => ?_) h
  unfold Machine.loadImage
  cases Machine.imageFault? image.length <;> rfl

theorem loadFile (h : Alike old old' t t') (files : Files) (name : String) :
    Outcome.Matches (Alike old old') (t.loadFile files name) (t'.loadFile files name) := by
  unfold Traced.loadFile
  cases files name with
  | error fault => exact .cut h fault
  | ok bytes => exact h.told (loadImage h.machine _)

/-! ### What a host does -/

theorem step (h : Alike old old' t t') :
    Outcome.Matches (Alike old old') (Host.step t) (Host.step t') := by
  refine h.cycle.andThen fun t t' h => .done ?_
  rw [h.pc, h.dump]
  exact h.add _

theorem deliver (h : Alike old old' t t') (host : Host) (e : Event) :
    Outcome.Matches (Alike old old') (host.deliver e t) (host.deliver e t') := by
  rcases host.deliver_cases e with ⟨entry, -, h'⟩ | h' | ⟨k, h'⟩ | ⟨k, h'⟩ | h' | h'
  · rw [h', h']
    exact .done (h.add entry)
  · rw [h', h']
    exact h.step
  · rw [h', h']
    exact h.press k
  · rw [h', h']
    exact h.release k
  · rw [h', h']
    exact .done h.releaseAll
  · rw [h', h']
    exact .done h

theorem frame (h : Alike old old' t t') (host : Host) :
    Outcome.Matches (Alike old old') (host.frame t) (host.frame t') := by
  unfold Host.frame
  split
  · exact .done h
  · refine .andThen (.times (fun _ _ => Alike.cycle) _ h) fun _ _ h => .done h.tick

end Alike
end Traced

/-! ## Benches that went on alike -/

namespace Monitor

variable {g : Graphics}

/-- The two look the same but for the values that were drawn, and since the logs held some entries
the same has been told. -/
structure Alike (old old' : Array Entry) (b b' : Monitor g) : Prop where
  traced : Traced.Alike old old' ⟨b.machine, b.log⟩ ⟨b'.machine, b'.log⟩
  storage : b.storage = b'.storage
  host : b.host = b'.host
  retired : b.retired.map Veil.drawn.cover = b'.retired.map Veil.drawn.cover
  window : b.window = b'.window

namespace Alike

variable {old old' : Array Entry} {b b' : Monitor g}

theorem onMachine (h : Alike old old' b b') {f : Machine → Outcome Machine}
    (hf : ∀ m m', Veil.drawn.Same m m' → Outcome.Matches Veil.drawn.Same (f m) (f m')) :
    Outcome.Matches (Alike old old') (b.onMachine f) (b'.onMachine f) :=
  (hf _ _ h.traced.machine).map fun _ _ hm => { h with traced := h.traced.withMachine hm }

/-- A change that is the same under the veil as above it. -/
theorem edit (h : Alike old old' b b') {f : Machine → Machine}
    (hf : ∀ m, Veil.drawn.cover (f m) = f (Veil.drawn.cover m)) :
    Outcome.Matches (Alike old old') (b.edit f) (b'.edit f) :=
  .done { h with traced := h.traced.withMachine (h.traced.machine.edit hf) }

theorem onTraced (h : Alike old old' b b') {f : Traced → Outcome Traced}
    (hf : ∀ t t', Traced.Alike old old' t t' →
      Outcome.Matches (Traced.Alike old old') (f t) (f t')) :
    Outcome.Matches (Alike old old') (b.onTraced f) (b'.onTraced f) :=
  (hf _ _ h.traced).map fun _ _ ht => { h with traced := ht }

/-- A machine on the devices of another looks as the two do. -/
theorem same_onDevicesOf {m m' devices devices' : Machine} (hm : Veil.drawn.Same m m')
    (hd : Veil.drawn.Same devices devices') :
    Veil.drawn.Same (onDevicesOf m devices) (onDevicesOf m' devices') := by
  have same : onDevicesOf (Veil.drawn.cover m) (Veil.drawn.cover devices)
      = onDevicesOf (Veil.drawn.cover m') (Veil.drawn.cover devices') := by
    rw [show _ = _ from hm, show _ = _ from hd]
  exact same

/-- Either both hosts drive the machine on the bench, or both another, and these look the same. -/
theorem retired_cases (h : Alike old old' b b') :
    (b.retired = none ∧ b'.retired = none) ∨
    ∃ m m', b.retired = some m ∧ b'.retired = some m' ∧ Veil.drawn.Same m m' := by
  have retired := h.retired
  cases hr : b.retired with
  | none =>
    rw [hr] at retired
    exact .inl ⟨rfl, Option.map_eq_none_iff.mp retired.symm⟩
  | some m =>
    rw [hr] at retired
    obtain ⟨m', hr', same⟩ := Option.map_eq_some_iff.mp retired.symm
    exact .inr ⟨m, m', rfl, hr', same.symm⟩

theorem hosted (h : Alike old old' b b') : Veil.drawn.Same b.hosted b'.hosted := by
  unfold Monitor.hosted
  rcases h.retired_cases with ⟨hr, hr'⟩ | ⟨m, m', hr, hr', same⟩
  · rw [hr, hr']
    exact h.traced.machine
  · rw [hr, hr']
    exact same_onDevicesOf same h.traced.machine

theorem setHosted (h : Alike old old' b b') {t t' : Traced} (ht : Traced.Alike old old' t t') :
    Alike old old' { b.setHosted t.machine with log := t.log }
      { b'.setHosted t'.machine with log := t'.log } := by
  unfold Monitor.setHosted
  rcases h.retired_cases with ⟨hr, hr'⟩ | ⟨m, m', hr, hr', -⟩
  · rw [hr, hr']
    exact ⟨ht, h.storage, h.host, rfl, h.window⟩
  · rw [hr, hr']
    exact { h with
      traced := ht.withMachine (same_onDevicesOf h.traced.machine ht.machine)
      retired := congrArg some ht.machine }

theorem onHosted (h : Alike old old' b b') {f : Traced → Outcome Traced}
    (hf : ∀ t t', Traced.Alike old old' t t' →
      Outcome.Matches (Traced.Alike old old') (f t) (f t')) :
    Outcome.Matches (Alike old old') (b.onHosted f) (b'.onHosted f) :=
  (hf _ _ (h.traced.withMachine h.hosted)).map fun _ _ ht => h.setHosted ht

/-- A new machine is the same on both benches, and the host goes on with the machine that it had. -/
theorem replaceMachine (h : Alike old old' b b') :
    Alike old old' b.replaceMachine b'.replaceMachine := by
  unfold Monitor.replaceMachine
  rw [Machine.make_eq_initial, Machine.make_eq_initial]
  refine ⟨h.traced.withMachine h.traced.machine.initial, h.storage, h.host, ?_, h.window⟩
  dsimp only
  rw [h.host]
  rcases h.retired_cases with ⟨hr, hr'⟩ | ⟨m, m', hr, hr', same⟩
  · rw [hr, hr']
    cases b'.host with
    | none => rfl
    | some host => exact congrArg some h.traced.machine
  · rw [hr, hr']
    exact congrArg some same

theorem loadImage (h : Alike old old' b b') (image : Data) :
    Outcome.Matches (Alike old old') (b.loadImage image) (b'.loadImage image) := by
  unfold Monitor.loadImage
  split
  · exact .cut h _
  · exact .cut h _
  · exact h.onMachine fun _ _ hm => Traced.Alike.loadImage hm _

theorem render (h : Alike old old' b b') : Alike old old' b.render b'.render := by
  have display : b.machine.display = b'.machine.display := h.traced.machine.agree fun _ => rfl
  unfold Monitor.render
  rw [h.window]
  cases b'.window with
  | none => exact h
  | some window =>
    dsimp only
    rw [display]
    exact { h with
      traced := h.traced.withMachine (h.traced.machine.edit
        (f := fun m => { m with display := (window.render b'.machine.display).2 }) fun _ => rfl)
      window := rfl }

theorem openWindow (h : Alike old old' b b') (scale : Int)
    (background foreground : Option (List Int)) :
    Outcome.Matches (Alike old old') (b.openWindow scale background foreground)
      (b'.openWindow scale background foreground) := by
  unfold Monitor.openWindow
  dsimp only
  split
  · exact .done { h with window := rfl }
  · exact .cut h _

/-- **One command** does the same on both benches, and is told of in the same words. -/
theorem perform (h : Alike old old' b b') (c : Command) :
    Outcome.Matches (Alike old old') (b.perform c) (b'.perform c) := by
  cases c with
  | replace => exact .done h.replaceMachine
  | reset => exact h.edit fun _ => rfl
  | loadImage image => exact h.loadImage image
  | loadFile name =>
    simp only [Monitor.perform]
    rw [h.storage]
    exact h.onTraced fun _ _ ht => ht.loadFile _ name
  | writeFile name data =>
    simp only [Monitor.perform]
    rw [h.storage]
    exact ⟨{ h with storage := rfl }, rfl⟩
  | makeDirectory name =>
    simp only [Monitor.perform]
    rw [h.storage]
    exact ⟨{ h with storage := rfl }, rfl⟩
  | process opcode => exact h.onTraced fun _ _ ht => ht.process opcode
  | cycle => exact h.onTraced fun _ _ ht => ht.cycle
  | press key => exact h.onTraced fun _ _ ht => ht.press key
  | release key => exact h.onTraced fun _ _ ht => ht.release key
  | releaseAll => exact h.onTraced fun _ _ ht => .done ht.releaseAll
  | setRegister x value =>
    simp only [Monitor.perform]
    cases Number.place 16 .noSuchPlace x with
    | ok x => exact h.edit fun _ => rfl
    | error fault => exact .cut h fault
  | setRow row bits =>
    simp only [Monitor.perform]
    cases Number.place 32 .noSuchPlace row with
    | ok row => exact h.edit fun _ => rfl
    | error fault => exact .cut h fault
  | tick | setPc | setIndex | setDelay | setSound =>
    simp only [Monitor.perform]
    exact h.edit fun _ => rfl
  | resetMemory | resetStack | clear | draw | setDirty =>
    simp only [Monitor.perform]
    exact h.edit fun _ => rfl
  | poke address value =>
    exact h.onMachine fun _ _ => Veil.Same.of_cover
      (f := fun m => (m.memory.write address value).map fun memory => { m with memory })
      fun _ => rfl
  | push address =>
    exact h.onMachine fun _ _ => Veil.Same.of_cover
      (f := fun m => (m.stack.push address).map fun stack => { m with stack }) fun _ => rfl
  | loadMemory address data =>
    simp only [Monitor.perform, Monitor.loadMemory]
    cases data.fault? with
    | some fault => exact .cut h fault
    | none =>
      exact h.onMachine fun _ _ => Veil.Same.of_cover
        (f := fun m => (m.memory.load address data.values).map fun memory => { m with memory })
        fun _ => rfl
  | pop =>
    have stack : b.machine.stack = b'.machine.stack := h.traced.machine.agree fun _ => rfl
    simp only [Monitor.perform]
    rw [stack]
    cases b'.machine.stack.pop? with
    | none => exact .cut h _
    | some top => exact h.edit fun _ => rfl
  | attachHost speed paused => exact .done { h with host := rfl, retired := rfl }
  | event e =>
    simp only [Monitor.perform]
    rw [h.host]
    cases b'.host with
    | none => exact .done h
    | some host =>
      exact (h.onHosted fun _ _ ht => ht.deliver host e).map fun _ _ hb => { hb with host := rfl }
  | frame =>
    simp only [Monitor.perform]
    rw [h.host]
    cases b'.host with
    | none => exact .done h
    | some host => exact h.onHosted fun _ _ ht => ht.frame host
  | openWindow scale background foreground => exact h.openWindow scale background foreground
  | render => exact .done h.render

end Alike

/-! ## What there is to tell of a run -/

/-- What a bench looks like: all of it, with an empty log and without the values that its machines
have drawn. -/
def look (b : Monitor g) : Monitor g :=
  { b with
    machine := Veil.drawn.cover b.machine
    log := .empty b.log.threshold
    retired := b.retired.map Veil.drawn.cover }

/-- What there is to tell of one command: its fault, the entries it left in the log, and what the
bench looks like when it has ended. -/
structure Account (g : Graphics) where
  fault : Option Fault
  entries : List Entry
  bench : Monitor g

/-- What there is to tell of a run, command for command. -/
def account : List Command → Monitor g → List (Account g)
  | [], _ => []
  | c :: cs, b =>
    let o := b.perform c
    ⟨o.fault, o.state.log.entries.toList.drop b.log.entries.size, o.state.look⟩
      :: account cs o.state

variable {old old' : Array Entry} {b b' : Monitor g}

theorem Alike.look (h : Alike old old' b b') : b.look = b'.look := by
  have machine : Veil.drawn.cover b.machine = Veil.drawn.cover b'.machine := h.traced.machine
  unfold Monitor.look
  rw [machine, h.traced.threshold, h.storage, h.host, h.retired, h.window]

/-- A command that leaves the benches alike is told of in one way, if what comes after it is. -/
theorem account_cons {c : Command} {cs : List Command}
    (h : Outcome.Matches (Alike b.log.entries b'.log.entries) (b.perform c) (b'.perform c))
    (rest : (b.perform c).state.account cs = (b'.perform c).state.account cs) :
    b.account (c :: cs) = b'.account (c :: cs) := by
  obtain ⟨new, entries, entries'⟩ := h.state.traced.entries
  dsimp only at entries entries'
  have told : (b.perform c).state.log.entries.toList.drop b.log.entries.size
      = (b'.perform c).state.log.entries.toList.drop b'.log.entries.size := by
    rw [entries, entries', Array.toList_append, Array.toList_append]
    exact (List.drop_left' Array.length_toList).trans (List.drop_left' Array.length_toList).symm
  simp only [account, h.fault, told, h.state.look, rest]

/-- Benches that went on alike go on alike, so one account does for both. -/
theorem Alike.account (h : Alike old old' b b') (commands : List Command) :
    b.account commands = b'.account commands := by
  induction commands generalizing old old' b b' with
  | nil => rfl
  | cons c cs ih =>
    -- From here on only what this command adds to the logs counts.
    have now : Alike b.log.entries b'.log.entries b b' :=
      { h with traced := { h.traced with entries := ⟨#[], by simp, by simp⟩ } }
    have done := now.perform c
    exact account_cons done (ih done.state)

/-- **Nothing is left behind by a reset**, whatever the machine was. What it gives is made of known
parts only, has drawn nothing, is what a new machine on the same devices would be and stays what it
is when it is reset again. So any other machine and log in its place, if as much is logged and the
same random values are to come, give the same faults, the same entries and the same states from the
reset on. -/
theorem account_reset (b : Monitor g) (m' : Machine) (log' : Log) (commands : List Command)
    (threshold : b.log.threshold = log'.threshold)
    (remaining : ∀ i, b.machine.random.value (b.machine.random.drawn + i)
      = m'.random.value (m'.random.drawn + i)) :
    b.perform .reset = .done { b with machine := b.machine.reset }
      ∧ b.machine.reset.Fresh
      ∧ b.machine.reset.random = b.machine.random
      ∧ (∀ m : Machine, m.Fresh → m.random = b.machine.random → m = b.machine.reset)
      ∧ (b.perform .replace).state.machine = b.machine.reset
      ∧ b.machine.reset.reset = b.machine.reset
      ∧ b.account (.reset :: commands)
          = { b with machine := m', log := log' }.account (.reset :: commands) := by
  have initial : b.machine.reset = .initial b.machine.random := b.machine.reset_eq_initial
  have replaced : (b.perform .replace).state.machine = b.machine.reset :=
    (Machine.make_eq_initial ..).trans initial.symm
  refine ⟨rfl, initial ▸ Machine.fresh_initial _, rfl, fun m fresh random => ?_, replaced, ?_, ?_⟩
  · rw [Machine.eq_initial_of_fresh fresh, random, initial]
  · rw [initial, Machine.reset_eq_initial]
    rfl
  · have ahead : Veil.drawn.random b.machine.random = Veil.drawn.random m'.random :=
      congrArg (RandomSource.mk · 0) (funext remaining)
    have same : Veil.drawn.Same b.machine.reset m'.reset := by
      rw [initial, m'.reset_eq_initial]
      exact congrArg Machine.initial ahead
    have alike : Alike b.log.entries log'.entries { b with machine := b.machine.reset }
        { b with machine := m'.reset, log := log' } :=
      ⟨⟨same, threshold, #[], by simp, by simp⟩, rfl, rfl, rfl, rfl⟩
    exact account_cons (.done alike) (alike.account commands)

/-- A bench whose machine no program could have brought there: it has too much memory and numbers
out of range, its stack is full, a key is awaited although all are down, and five random values are
drawn. -/
def spoiledBench : Monitor .raster :=
  { start ⟨fun i => i, 5⟩ .debug with
    machine := { Machine.initial ⟨fun i => i, 5⟩ with
      memory := ⟨Array.replicate 5000 7, by rw [Array.size_replicate]; decide⟩
      index := 100000
      pc := -3
      delay := 300
      stack := ⟨Vector.replicate 16 9, Fin.last 16⟩
      waiting := some (Fin.last 15)
      display := ⟨Vector.replicate 32 (BitVec.allOnes 64), false⟩
      keypad := ⟨Vector.replicate 16 true⟩ }
    log := ⟨.debug, #[.paused]⟩ }

/-- Load a program that draws a random value, runs it and comes back from nowhere. -/
def reloadCommands : List Command :=
  [.loadImage (.numbers [0xC0, 0xFF, 0x00, 0xEE]), .cycle, .cycle]

theorem account_reset_spoiledBench :
    spoiledBench.log.threshold = (Log.empty .debug).threshold
      ∧ (∀ i, spoiledBench.machine.random.value (spoiledBench.machine.random.drawn + i)
        = (i : Int) + 5)
      ∧ spoiledBench.account (.reset :: reloadCommands)
        = (start ⟨fun i => (i : Int) + 5, 0⟩ .debug).account (.reset :: reloadCommands) := by
  have remaining : ∀ i, spoiledBench.machine.random.value (spoiledBench.machine.random.drawn + i)
      = ((0 + i : Nat) : Int) + 5 := by
    intro i
    show ((5 + i : Nat) : Int) = _
    omega
  refine ⟨rfl, fun i => ?_, ?_⟩
  · rw [remaining, Nat.zero_add]
  · obtain ⟨-, -, -, -, -, -, same⟩ := account_reset spoiledBench
      (.initial ⟨fun i => (i : Int) + 5, 0⟩) (.empty .debug) reloadCommands rfl remaining
    exact same

end Monitor
end Chip8Vm
