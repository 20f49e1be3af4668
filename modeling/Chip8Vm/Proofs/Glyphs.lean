import Chip8Vm.Proofs.Chronicle
import Chip8Vm.Proofs.Ownership
import Chip8Vm.Proofs.Refusals
import Chip8Vm.Proofs.Sprites

/-!
# The font over a run

The font is in memory like anything else, and nothing guards it. But few things write to memory: an
image does, which begins behind the font however long it is, and two instructions do, from the
index on, where an index near the last cell goes round into the font.

> **The font stays until one of the two instructions writes over it** (`run_hasFont`), in every run
> of whatever commands that do not themselves reach into memory.

As long as it is there, a register can be drawn as the digit that it is modulo 16: one word points
to the glyph and another one draws it (`HasFont.legible`).
-/

set_option autoImplicit false

namespace Chip8Vm

/-- The five bytes of the glyph that stands for a value. -/
def glyphOf (value : Int) : List Int :=
  ((font.drop (5 * (value % 16).toNat)).take 5).map fun b => (b.toNat : Int)

/-! ## Memories with the font -/

namespace Memory

/-- The first bytes of a memory are the font. -/
def HasFont (m : Memory) : Prop := ∀ place < 80, m.bytes[place]? = font[place]?

variable {m : Memory}

theorem hasFont_blank : blank.HasFont := by
  intro place inFont
  rw [blank, List.getElem?_toArray, List.getElem?_append_left (by rw [length_font]; exact inFont)]

theorem hasFont_reset (m : Memory) : m.reset.HasFont := m.reset_eq_blank ▸ hasFont_blank

/-- An image that is not refused is laid behind the font. -/
theorem HasFont.splice (h : m.HasFont) {run : List UInt8}
    (fits : Machine.imageFault? run.length = none) : (m.splice imageStart run).HasFont := by
  intro place inFont
  have short := (Machine.imageFault?_eq_none_iff.mp fits).2
  have reaches := m.reaches
  have start : (imageStart : Int) = 512 := rfl
  rw [getElem?_splice (by omega) (by omega), if_neg (by omega)]
  exact h place inFont

end Memory

namespace Machine

variable {m : Machine}

theorem hasFont_loadImage (h : m.memory.HasFont) (image : List Int) :
    (m.loadImage image).state.memory.HasFont := by
  rcases unfit_or_bytes image with ⟨fault, text, unfit⟩ | ⟨bytes, rfl, fits⟩
  · rw [unfit.loadImage]
    exact h
  · rw [loadImage_bytes, fits]
    exact h.splice fits

end Machine

theorem Traced.hasFont_loadFile {t : Traced} (h : t.machine.memory.HasFont) (files : Files)
    (name : String) : (t.loadFile files name).state.machine.memory.HasFont := by
  cases opened : files name with
  | error fault =>
    rw [loadFile_of_error opened]
    exact h
  | ok bytes =>
    have left := congrArg Outcome.state (map_loadFile opened t)
    rw [Outcome.state_map] at left
    rw [left]
    exact Machine.hasFont_loadImage h _

/-! ## Drawing a glyph -/

/-- Where the glyph of a value begins, the five bytes of the glyph stand. -/
theorem Machine.bytesAtIndex_of_hasFont {m : Machine} (h : m.memory.HasFont) {value : Int}
    (index : m.index = 5 * (value % 16)) : m.bytesAtIndex 5 = glyphOf value := by
  refine List.ext_getElem? fun i => ?_
  rw [glyphOf, List.getElem?_map, List.getElem?_take]
  by_cases hi : i < 5
  · have place : ((m.index + i) % 4096).toNat = 5 * (value % 16).toNat + i := by omega
    rw [m.getElem?_bytesAtIndex hi, place, h _ (by omega), if_pos hi, List.getElem?_drop]
  · rw [if_neg hi, List.getElem?_eq_none (by rw [length_bytesAtIndex]; omega)]
    rfl

namespace Traced

/-- Point to the glyph that stands for a register. -/
def pointToGlyph (x : Register) (t : Traced) : Outcome Traced := t.process (0xF029 + x.val * 256)

/-- Draw the five bytes of a glyph at the place that two registers say. -/
def drawGlyph (a b : Register) (t : Traced) : Outcome Traced :=
  t.process (0xD005 + a.val * 256 + b.val * 16)

theorem map_pointToGlyph (x : Register) (t : Traced) : (t.pointToGlyph x).map machine =
    .done { t.machine with
      pc := (t.machine.pc + 2) % 4096, index := 5 * (t.machine.register x % 16) } := by
  have encoded : (0xF029 + x.val * 256 : Int) = (Instruction.pointToGlyph x).encode := by
    rw [Instruction.encode, Instruction.withByte]
    omega
  have start : (fontStart + t.machine.register x % 16 * glyphSize : Int)
      = 5 * (t.machine.register x % 16) := by
    unfold fontStart glyphSize
    omega
  rw [pointToGlyph, map_process_encode encoded, ← start]
  rfl

theorem drawn_drawGlyph (a b : Register) (t : Traced) :
    t.machine.Drawn a b (t.machine.bytesAtIndex 5) ((t.drawGlyph a b).map machine) := by
  have word : (0xD005 + a.val * 256 + b.val * 16 : Int)
      = 0xD000 + a.val * 256 + b.val * 16 + (5 : Fin 16).val := by
    have five : ((5 : Fin 16).val : Int) = 5 := rfl
    omega
  rw [drawGlyph, word]
  exact t.drawn_process a b 5

end Traced

namespace Memory

/-- Whatever machine has the memory draws each of the glyphs as it is. -/
structure Legible (memory : Memory) : Prop where
  points : ∀ (t : Traced) (x : Register), t.machine.memory = memory →
    (t.pointToGlyph x).map Traced.machine = .done { t.machine with
      pc := (t.machine.pc + 2) % 4096, index := 5 * (t.machine.register x % 16) }
  draws : ∀ (t : Traced) (x a b : Register), t.machine.memory = memory →
    (t.pointToGlyph x).state.machine.Drawn a b (glyphOf (t.machine.register x))
      (((t.pointToGlyph x).state.drawGlyph a b).map Traced.machine)

theorem HasFont.legible {memory : Memory} (h : memory.HasFont) : memory.Legible where
  points t x _ := t.map_pointToGlyph x
  draws t x a b same := by
    have points := t.map_pointToGlyph x
    have left : (t.pointToGlyph x).state.machine.memory = t.machine.memory :=
      congrArg (fun o => o.state.memory) points
    have index : (t.pointToGlyph x).state.machine.index = 5 * (t.machine.register x % 16) :=
      congrArg (fun o => o.state.index) points
    have font : (t.pointToGlyph x).state.machine.memory.HasFont := by
      rw [left, same]
      exact h
    rw [← Machine.bytesAtIndex_of_hasFont font index]
    exact Traced.drawn_drawGlyph a b _

end Memory

/-! ## Deeds -/

namespace Deed

variable {d : Deed} {m : Machine} {i : Instruction}

/-- A deed carries out no instruction that writes to a cell of the font. -/
structure Spares (d : Deed) (m : Machine) : Prop where
  decimal : ∀ x, d.instruction? m = some (.writeDecimal x) →
    ∀ k < 3, 80 ≤ Number.land (m.index + (k : Nat)) 0xFFF
  block : ∀ last, d.instruction? m = some (.save last) →
    ∀ k < last.val + 1, 80 ≤ Number.land (m.index + (k : Nat)) 0xFFF

/-- The two instructions are all that own cells. -/
theorem Spares.unowned (h : d.Spares m) (hi : d.instruction? m = some i) {place : Nat}
    (inFont : place < 80) : ¬ i.Owns m.index (.cell place) := by
  cases i with
  | writeDecimal x =>
    rintro ⟨k, hk, same⟩
    have spared := h.decimal x hi k hk
    have place := Part.cell.inj same
    omega
  | save last =>
    rintro (other | ⟨k, hk, same⟩)
    · cases other
    · have spared := h.block last hi k hk
      have place := Part.cell.inj same
      omega
  | _ => simp [Instruction.Owns]

/-- A deed that carries out no instruction leaves the memory, but for an image and a reset. -/
theorem hasFont_of_none (hi : d.instruction? m = none) (h : m.memory.HasFont) :
    (d.run m).state.memory.HasFont := by
  have passedOver : ∀ opcode, Instruction.decode? opcode = none →
      (m.process opcode).state.memory.HasFont := by
    intro opcode hd
    unfold Machine.process
    rw [hd]
    exact h
  cases d with
  | move it =>
    by_cases cycle : it = .cycle
    · subst cycle
      exact passedOver m.fetch hi
    · simp only [run]
      rw [Move.run_idle cycle]
      exact h
  | process opcode => exact passedOver opcode hi
  | load image =>
    simp only [run]
    split
    · exact h
    · exact h
    · exact Machine.hasFont_loadImage h image.values
  | reset => exact m.memory.hasFont_reset

/-- **One deed** keeps the font that it spares. -/
theorem hasFont_run (h : m.memory.HasFont) (spares : d.Spares m) :
    (d.run m).state.memory.HasFont := by
  cases hi : d.instruction? m with
  | none => exact hasFont_of_none hi h
  | some i =>
    intro place inFont
    have unowned : ¬ i.Owns m.advance.index (.cell place) := spares.unowned hi inFont
    rw [run_of_instruction hi]
    exact Eq.trans (Machine.same_execute unowned) (h place inFont)

end Deed

namespace Chronicle

/-- None of the deeds wrote to a cell of the font. -/
def SparesFont (past : Chronicle) : Prop := ∀ entry ∈ past, entry.1.Spares entry.2

/-- The font is there if it was spared. -/
def KeepsFont (past : Chronicle) (m : Machine) : Prop := past.SparesFont → m.memory.HasFont

theorem keepsFont_deed (past : Chronicle) (d : Deed) (m : Machine) (h : KeepsFont past m) :
    KeepsFont (past ++ [(d, m)]) (d.run m).state := by
  intro spared
  have before : past.SparesFont := fun entry he => spared entry (List.mem_append_left _ he)
  exact Deed.hasFont_run (h before) (spared (d, m) (by simp))

end Chronicle

/-! ## Runs -/

/-- Whether a command writes to memory itself, or sets the machine aside for another. -/
def Command.intervenes : Command → Bool
  | replace | poke .. | loadMemory .. => true
  | _ => false

namespace Monitor

variable {g : Graphics} {b : Monitor g} {c : Command}

/-- A command that is no deed and does not intervene leaves the font. -/
theorem hasFont_perform (hc : c.intervenes = false) (ho : c.operates = false)
    (driven : b.retired = none) : (b.perform c).state.retired = none ∧
      (b.machine.memory.HasFont → (b.perform c).state.machine.memory.HasFont) := by
  cases c with
  | replace | poke | loadMemory => cases hc
  | reset | loadImage | process | cycle | tick | press | release | releaseAll => cases ho
  | attachHost | event | frame => cases ho
  | loadFile name =>
    exact ⟨driven, fun h => Traced.hasFont_loadFile (t := ⟨b.machine, b.log⟩) h _ name⟩
  | resetMemory => exact ⟨driven, fun _ => b.machine.memory.hasFont_reset⟩
  | setRegister x value =>
    simp only [perform]
    cases Number.place 16 .noSuchPlace x <;> exact ⟨driven, id⟩
  | setRow row bits =>
    simp only [perform]
    cases Number.place 32 .noSuchPlace row <;> exact ⟨driven, id⟩
  | pop =>
    simp only [perform]
    cases b.machine.stack.pop? <;> exact ⟨driven, id⟩
  | openWindow scale background foreground =>
    simp only [perform, openWindow]
    split <;> exact ⟨driven, id⟩
  | render =>
    simp only [perform, render]
    cases b.window <;> exact ⟨driven, id⟩
  | writeFile | makeDirectory | setPc | setIndex | setDelay | setSound => exact ⟨driven, id⟩
  | push | resetStack | clear | draw | setDirty => exact ⟨driven, id⟩

theorem deeds_of_not_operates (ho : c.operates = false) : b.deeds c = [] := by
  cases c with
  | reset | loadImage | process | cycle | tick | press | release | releaseAll => cases ho
  | attachHost | event | frame => cases ho
  | _ => rfl

/-- **A command**, with the deeds it comes down to, keeps what is said of the font now and of all
that went before. -/
theorem keepsFont_perform (hc : c.intervenes = false) (driven : b.retired = none)
    {past : Chronicle} (h : Chronicle.Held Chronicle.KeepsFont past b.machine) :
    (b.perform c).state.retired = none ∧ Chronicle.Held Chronicle.KeepsFont
      (past ++ Outcome.visits Deed.run (b.deeds c) b.machine) (b.perform c).state.machine := by
  cases ho : c.operates with
  | true =>
    have left : (b.perform c).state.machine = (Outcome.each Deed.run (b.deeds c) b.machine).state :=
      congrArg Outcome.state (map_perform_deeds driven ho)
    rw [left]
    exact ⟨retired_perform_operates driven ho,
      Outcome.visits_keep (fun _ d _ held => held.deed Chronicle.keepsFont_deed d) _ h⟩
  | false =>
    obtain ⟨next, kept⟩ := hasFont_perform hc ho driven
    rw [deeds_of_not_operates ho, Outcome.visits, List.append_nil]
    exact ⟨next, fun spared => kept (h.1 spared), h.2⟩

/-- **The font stays until it is written over.** A machine that is new or was reset, and that the
host drives if there is one, is put through any commands that do not themselves write to memory or
set it aside. If none of its deeds wrote to a cell of the font, the font is there at the end, and it
was there before every deed that only such deeds came before; and where it is, each register is
drawn as the glyph that stands for it, wherever two registers say. -/
theorem run_hasFont {b : Monitor g} (fresh : b.machine = .initial b.machine.random)
    (driven : b.retired = none) {commands : List Command}
    (outside : ∀ c ∈ commands, c.intervenes = false) :
    let chronicle := b.chronicle commands
    let reached := (b.run commands).machine
    (chronicle.SparesFont → reached.memory.HasFont ∧ reached.memory.Legible) ∧
    ∀ (before : Chronicle) d m later, chronicle = before ++ (d, m) :: later → before.SparesFont →
      m.memory.HasFont ∧ m.memory.Legible := by
  intro chronicle reached
  have start : Chronicle.Held Chronicle.KeepsFont [] b.machine := by
    refine Chronicle.held_nil fun _ => ?_
    rw [fresh]
    exact Memory.hasFont_blank
  have held : Chronicle.Held Chronicle.KeepsFont chronicle reached :=
    told_invariant (P := Chronicle.Held Chronicle.KeepsFont) (Q := fun b => b.retired = none)
      (fun c hc _ _ next held => keepsFont_perform (outside c hc) next held) driven start
  obtain ⟨kept, before⟩ := held
  refine ⟨fun spared => ?_, fun past d m later split spared => ?_⟩
  · have font := kept spared
    exact ⟨font, font.legible⟩
  · have font := before past d m later split spared
    exact ⟨font, font.legible⟩

/-- Decimal digits written to the last three cells, just short of the font, and an image that is
refused. -/
def spelledCommands : List Command :=
  [.setRegister 7 254, .process 0xAFFD, .process 0xF733, .loadImage (.numbers [1]), .clear, .tick]

theorem run_hasFont_spelledCommands :
    let b : Monitor .raster := start ⟨fun _ => 0, 0⟩ .debug
    let reached := (b.run spelledCommands).machine
    let t : Traced := ⟨reached, .empty .debug⟩
    (∀ c ∈ spelledCommands, c.intervenes = false) ∧ (b.chronicle spelledCommands).SparesFont ∧
      reached.memory.bytes[79]? = some 0x80 ∧
      ((t.pointToGlyph 7).state.drawGlyph 15 7).state.machine.display
        = Display.blank.draw 0 254 [0xF0, 0x80, 0xF0, 0x80, 0xF0] := by
  intro b reached t
  have outside : ∀ c ∈ spelledCommands, c.intervenes = false := by decide
  have spared : (b.chronicle spelledCommands).SparesFont := by
    let set := b.machine.setRegister 7 254
    let pointed := (set.process 0xAFFD).state
    let spelled := (pointed.process 0xF733).state
    have told : b.chronicle spelledCommands = Outcome.visits Deed.run [.process 0xAFFD] set
        ++ (Outcome.visits Deed.run [.process 0xF733] pointed
          ++ (Outcome.visits Deed.run [.load (.numbers [1])] spelled
            ++ (Outcome.visits Deed.run [.move .tick]
              { spelled with display := spelled.display.clear } ++ []))) := rfl
    intro entry he
    rw [told] at he
    simp only [Outcome.visits_singleton, List.mem_append, List.mem_singleton, List.not_mem_nil,
      or_false] at he
    rcases he with rfl | rfl | rfl | rfl
    · exact ⟨fun x hi => (by cases hi), fun last hi => (by cases hi)⟩
    · refine ⟨fun x _ k hk => ?_, fun last hi => (by cases hi)⟩
      show 80 ≤ Number.land (0xFFD + (k : Nat)) 0xFFF
      rw [← Memory.cell_eq_land, Memory.cell]
      omega
    · exact ⟨fun x hi => (by cases hi), fun last hi => (by cases hi)⟩
    · exact ⟨fun x hi => (by cases hi), fun last hi => (by cases hi)⟩
  obtain ⟨font, legible⟩ := (run_hasFont (b := b) rfl rfl outside).1 spared
  exact ⟨outside, spared, font 79 (by decide), (legible.draws t 7 15 7 rfl).display⟩

end Monitor
end Chip8Vm
