import Chip8Vm.Proofs.Collisions
import Chip8Vm.Proofs.Process

/-!
# Sprites of the machine

A word can draw fifteen bytes and no more, so the sprite of an instruction comes to no row twice.
Then turns do not matter. A pixel is struck by one bit or by none, and all that can be asked about
drawing can be asked about the pixels that are struck: they change and no others do
(`lit_draw_of_short`), something was met if one of them was lit (`collides_iff_strikes`), and there
are none exactly if the sprite is all zeros (`exists_strike_iff`).

So two drawings of the same sprite at the same place share the struck pixels out between them.

> **The second takes back what the first did, its flag tells of the struck pixels that were dark, as
> the first one's tells of those that were lit, and both flags are down only if no bit of the sprite
> is set** (`process_draws`).

That needs the place to be the same, and it need not be: the flag goes to a register which may be
the one that the place was read from.
-/

set_option autoImplicit false

namespace Chip8Vm
namespace Display

variable {x y : Int} {sprite : List Int}

/-- Some pixel of the first display is lit and is not lit on the second one. -/
def Loses (d d' : Display) : Prop :=
  ∃ (column : Fin 64) (row : Fin 32), d.lit column row = true ∧ d'.lit column row = false

/-! ## Sprites that are not taller than the display -/

theorem card_strikes_le_one (short : sprite.length ≤ 32) (column : Fin 64) (row : Fin 32) :
    (strikes x y sprite column row).card ≤ 1 := by
  apply Finset.card_le_one.mpr
  intro p hp q hq
  obtain ⟨-, prow, pcolumn, -⟩ := Finset.mem_filter.mp hp
  obtain ⟨-, qrow, qcolumn, -⟩ := Finset.mem_filter.mp hq
  have := p.1.isLt
  have := q.1.isLt
  apply Prod.ext
  · apply Fin.ext
    omega
  · apply Fin.ext
    omega

theorem odd_strikes_iff (short : sprite.length ≤ 32) (column : Fin 64) (row : Fin 32) :
    Odd (strikes x y sprite column row).card ↔ (strikes x y sprite column row).Nonempty := by
  have most := card_strikes_le_one (x := x) (y := y) short column row
  rw [← Finset.card_pos]
  constructor
  · rintro ⟨k, odd⟩
    omega
  · intro pos
    rw [show (strikes x y sprite column row).card = 1 by omega]
    exact odd_one

/-- A struck pixel changes, and no other does. -/
theorem lit_draw_of_short (bytes : ∀ b ∈ sprite, 0 ≤ b ∧ b < 256) (short : sprite.length ≤ 32)
    (d : Display) (column : Fin 64) (row : Fin 32) : (d.draw x y sprite).lit column row
      = (d.lit column row ^^ decide (strikes x y sprite column row).Nonempty) := by
  have drawn : (d.draw x y sprite).lit column row
      = (d.lit column row ^^ decide (Odd (strikes x y sprite column row).card)) :=
    lit_stampAll bytes x y d column row
  rw [drawn]
  congr 1
  rw [decide_eq_decide]
  exact odd_strikes_iff short column row

/-- The ink of a sprite is on the pixels that it strikes. -/
theorem getMsbD_ink (bytes : ∀ b ∈ sprite, 0 ≤ b ∧ b < 256) (short : sprite.length ≤ 32)
    (column : Fin 64) (row : Fin 32) : (ink x y sprite row).getMsbD column
      = decide (strikes x y sprite column row).Nonempty := by
  have struck := lit_draw_of_short (x := x) (y := y) bytes short blank column row
  rw [lit_draw_ink] at struck
  exact Bool.xor_right_inj.mp struck

theorem collides_iff_strikes (bytes : ∀ b ∈ sprite, 0 ≤ b ∧ b < 256) (short : sprite.length ≤ 32)
    (d : Display) : d.collides x y sprite = true ↔ ∃ (column : Fin 64) (row : Fin 32),
      d.lit column row = true ∧ (strikes x y sprite column row).Nonempty := by
  rw [collides, meets_iff short]
  simp only [and_ne_zero_iff, getMsbD_ink bytes short, decide_eq_true_eq]
  constructor
  · rintro ⟨row, column, lit, struck⟩
    exact ⟨column, row, lit, struck⟩
  · rintro ⟨column, row, lit, struck⟩
    exact ⟨row, column, lit, struck⟩

theorem loses_iff_strikes (bytes : ∀ b ∈ sprite, 0 ≤ b ∧ b < 256) (short : sprite.length ≤ 32)
    (d : Display) : d.Loses (d.draw x y sprite) ↔ ∃ (column : Fin 64) (row : Fin 32),
      d.lit column row = true ∧ (strikes x y sprite column row).Nonempty := by
  unfold Loses
  simp only [lit_draw_of_short bytes short]
  constructor
  · rintro ⟨column, row, lit, dark⟩
    rw [lit, Bool.true_xor, Bool.not_eq_false', decide_eq_true_eq] at dark
    exact ⟨column, row, lit, dark⟩
  · rintro ⟨column, row, lit, struck⟩
    rw [← decide_eq_true_eq (p := Finset.Nonempty _)] at struck
    exact ⟨column, row, lit, by rw [lit, struck]; rfl⟩

/-- A byte that is not zero has a bit that is set. -/
theorem exists_bit_of_byte {b : Int} (byte : 0 ≤ b ∧ b < 256) (nonzero : b ≠ 0) :
    ∃ j : Fin 8, Number.bit b (7 - j.val) = true := by
  by_contra none
  apply nonzero
  obtain ⟨a, rfl⟩ := Int.eq_ofNat_of_zero_le byte.1
  have zero : a = 0 := by
    apply Nat.eq_of_testBit_eq
    intro i
    rw [Nat.zero_testBit]
    by_cases hi : i < 8
    · -- the bit is the one at that many places from the right
      have unset := not_exists.mp none ⟨7 - i, by omega⟩
      rw [show 7 - (7 - i) = i by omega] at unset
      exact Bool.not_eq_true _ ▸ unset
    · exact Number.bit_of_byte byte (by omega)
  rw [zero]
  rfl

/-- A sprite strikes somewhere exactly if one of its bytes is not zero. -/
theorem exists_strike_iff (bytes : ∀ b ∈ sprite, 0 ≤ b ∧ b < 256) :
    (∃ (column : Fin 64) (row : Fin 32), (strikes x y sprite column row).Nonempty)
      ↔ ∃ b ∈ sprite, b ≠ 0 := by
  constructor
  · rintro ⟨column, row, p, hp⟩
    obtain ⟨-, -, -, set⟩ := Finset.mem_filter.mp hp
    refine ⟨sprite[p.1], List.getElem_mem _, ?_⟩
    intro zero
    rw [zero] at set
    exact absurd set (by simp [Number.bit])
  · rintro ⟨b, hb, nonzero⟩
    obtain ⟨i, hi, rfl⟩ := List.mem_iff_getElem.mp hb
    obtain ⟨j, set⟩ := exists_bit_of_byte (bytes _ hb) nonzero
    -- the pixel is the one that the bit falls on
    refine ⟨⟨((x + j.val) % 64).toNat, by omega⟩, rowAt (y + i), (⟨i, hi⟩, j), ?_⟩
    apply Finset.mem_filter.mpr
    refine ⟨Finset.mem_univ _, ?_, ?_, set⟩
    · dsimp only [rowAt]
      omega
    · dsimp only
      omega

end Display

/-! ## The instruction -/

namespace Machine

open Display (strikes)

variable {m : Machine} {x y : Register} {sprite : List Int}

theorem getElem?_bytesAtIndex (m : Machine) {count i : Nat} (hi : i < count) :
    (m.bytesAtIndex count)[i]?
      = (m.memory.bytes[((m.index + i) % 4096).toNat]?).map fun b => (b.toNat : Int) := by
  have cell : m.memory.bytes[((m.index + i) % 4096).toNat]? = some (m.memory.read (m.index + i)) :=
    m.memory.getElem?_cell (m.index + i)
  rw [cell, bytesAtIndex, Memory.readBlock, List.getElem?_map, List.getElem?_map,
    List.getElem?_range hi]
  rfl

theorem length_bytesAtIndex (m : Machine) (count : Nat) :
    (m.bytesAtIndex count).length = count := by
  rw [bytesAtIndex, Memory.readBlock, List.length_map, List.length_map, List.length_range]

theorem bytesAtIndex_range (m : Machine) (count : Nat) :
    ∀ b ∈ m.bytesAtIndex count, 0 ≤ b ∧ b < 256 := by
  intro b hb
  obtain ⟨byte, -, rfl⟩ := List.mem_map.mp hb
  have := byte.toNat_lt
  omega

/-- What drawing a sprite at the place that two registers say has done to a machine. -/
structure Drawn (m : Machine) (x y : Register) (sprite : List Int) (o : Outcome Machine) :
    Prop where
  display : o.state.display = m.display.draw (m.register x) (m.register y) sprite
  raised : m.display.Loses o.state.display → o.state.register flagRegister = 1
  lowered : ¬ m.display.Loses o.state.display → o.state.register flagRegister = 0
  registers : ∀ z ≠ flagRegister, o.state.register z = m.register z
  rest : o = .done { m with
    pc := (m.pc + 2) % 4096, registers := o.state.registers, display := o.state.display }

/-- What drawing it once more has done, the first time having left the first outcome. -/
structure Redrawn (m : Machine) (x y : Register) (sprite : List Int)
    (first second : Outcome Machine) : Prop where
  drawn : first.state.Drawn x y sprite second
  rows : second.state.display.rows = m.display.rows
  flag_iff : second.state.register flagRegister = 1 ↔ ∃ (column : Fin 64) (row : Fin 32),
    m.display.lit column row = false
      ∧ (strikes (m.register x) (m.register y) sprite column row).Nonempty
  either_iff : first.state.register flagRegister = 1 ∨ second.state.register flagRegister = 1 ↔
    ∃ b ∈ sprite, b ≠ 0

theorem Drawn.flag_eq_one_iff {o : Outcome Machine} (h : m.Drawn x y sprite o)
    (bytes : ∀ b ∈ sprite, 0 ≤ b ∧ b < 256) (short : sprite.length ≤ 32) :
    o.state.register flagRegister = 1 ↔ ∃ (column : Fin 64) (row : Fin 32),
      m.display.lit column row = true
        ∧ (strikes (m.register x) (m.register y) sprite column row).Nonempty := by
  rw [← Display.loses_iff_strikes bytes short, ← h.display]
  constructor
  · intro up
    by_contra kept
    have down := h.lowered kept
    omega
  · exact h.raised

theorem drawn_execute (m : Machine) (x y : Register) (height : Fin 16) :
    m.Drawn x y (m.bytesAtIndex height) (m.advance.execute (.draw x y height)) := by
  have bytes := m.bytesAtIndex_range height
  have short : (m.bytesAtIndex height).length ≤ 32 := by
    have := height.isLt
    rw [length_bytesAtIndex]
    omega
  have flag : (m.advance.execute (.draw x y height)).state.register flagRegister
      = flagValue (m.display.collides (m.register x) (m.register y) (m.bytesAtIndex height)) :=
    (register_setRegister m flagRegister flagRegister _).trans (if_pos rfl)
  have met : m.display.collides (m.register x) (m.register y) (m.bytesAtIndex height) = true ↔
      m.display.Loses (m.display.draw (m.register x) (m.register y) (m.bytesAtIndex height)) := by
    rw [Display.collides_iff_strikes bytes short, Display.loses_iff_strikes bytes short]
  constructor
  · rfl
  · intro lost
    rw [flag, met.mpr lost]
    rfl
  · intro kept
    rw [flag, Bool.eq_false_iff.mpr (mt met.mp kept)]
    rfl
  · intro z hz
    exact (register_setRegister m flagRegister z _).trans (if_neg hz.symm)
  · rfl

/-- The second drawing is at the place of the first, where the flag has not gone. -/
theorem redrawn_of_drawn {first second : Outcome Machine} (hx : x ≠ flagRegister)
    (hy : y ≠ flagRegister) (bytes : ∀ b ∈ sprite, 0 ≤ b ∧ b < 256) (short : sprite.length ≤ 32)
    (h : m.Drawn x y sprite first) (h' : first.state.Drawn x y sprite second) :
    m.Redrawn x y sprite first second := by
  have drawn := h.display
  have same_place : Display.Drawing.Same ⟨m.register x, m.register y, sprite⟩
      ⟨m.register x, m.register y, sprite⟩ := ⟨rfl, rfl, rfl⟩
  have struck : second.state.register flagRegister = 1 ↔ ∃ (column : Fin 64) (row : Fin 32),
      m.display.lit column row = false
        ∧ (strikes (m.register x) (m.register y) sprite column row).Nonempty := by
    rw [h'.flag_eq_one_iff bytes short, h.registers x hx, h.registers y hy, drawn]
    simp only [Display.lit_draw_of_short bytes short]
    constructor
    · rintro ⟨column, row, lit, hit⟩
      rw [decide_eq_true hit, Bool.xor_true, Bool.not_eq_true'] at lit
      exact ⟨column, row, lit, hit⟩
    · rintro ⟨column, row, dark, hit⟩
      exact ⟨column, row, by rw [dark, decide_eq_true hit]; rfl, hit⟩
  refine ⟨h', ?_, struck, ?_⟩
  · rw [h'.display, h.registers x hx, h.registers y hy, drawn]
    exact Display.draw_same same_place m.display
  · rw [h.flag_eq_one_iff bytes short, struck,
      ← Display.exists_strike_iff (x := m.register x) (y := m.register y) bytes]
    constructor
    · rintro (⟨column, row, -, hit⟩ | ⟨column, row, -, hit⟩)
      · exact ⟨column, row, hit⟩
      · exact ⟨column, row, hit⟩
    · rintro ⟨column, row, hit⟩
      cases lit : m.display.lit column row with
      | true => exact Or.inl ⟨column, row, lit, hit⟩
      | false => exact Or.inr ⟨column, row, lit, hit⟩

theorem Drawn.bytesAtIndex {o : Outcome Machine} (h : m.Drawn x y sprite o) (count : Nat) :
    o.state.bytesAtIndex count = m.bytesAtIndex count := by
  rw [h.rest]
  rfl

end Machine

namespace Traced

open Machine (flagRegister)

/-- A word that draws the bytes at the index, whatever its height. -/
theorem drawn_process (t : Traced) (x y : Register) (height : Fin 16) :
    t.machine.Drawn x y (t.machine.bytesAtIndex height)
      ((t.process (0xD000 + x.val * 256 + y.val * 16 + height.val)).map machine) := by
  have encoded : (0xD000 + x.val * 256 + y.val * 16 + height.val : Int)
      = (Instruction.draw x y height).encode := by
    rw [Instruction.encode, Instruction.nibbles]
    omega
  rw [map_process_encode encoded]
  exact t.machine.drawn_execute x y height

/-- **A word that draws, and the same word again.** The sprite is the bytes at the index; it goes to
the place that the two registers say, whichever they are, and then the flag is written. If neither
register is the one of flags, a second time takes the first one back. -/
theorem process_draws (t : Traced) (x y : Register) (height : Fin 16) :
    let m := t.machine
    let sprite := m.bytesAtIndex height
    let word : Int := 0xD000 + x.val * 256 + y.val * 16 + height.val
    let first := t.process word
    let second := first.state.process word
    (sprite.length = height ∧ ∀ i < height.val, sprite[i]?
      = (m.memory.bytes[((m.index + (i : Nat)) % 4096).toNat]?).map fun b => (b.toNat : Int)) ∧
    m.Drawn x y sprite (first.map machine) ∧
    (height = 0 → first.state.machine.register flagRegister = 0) ∧
    (x ≠ flagRegister → y ≠ flagRegister →
      m.Redrawn x y sprite (first.map machine) (second.map machine)) := by
  intro m sprite word first second
  have bytes : ∀ b ∈ sprite, 0 ≤ b ∧ b < 256 := m.bytesAtIndex_range height
  have length : sprite.length = height := m.length_bytesAtIndex height
  have short : sprite.length ≤ 32 := by omega
  have once : m.Drawn x y sprite (first.map machine) := t.drawn_process x y height
  refine ⟨⟨length, fun i hi => m.getElem?_bytesAtIndex hi⟩, once, ?_, ?_⟩
  · rintro rfl
    apply once.lowered
    rw [once.display, Display.loses_iff_strikes bytes short]
    rintro ⟨column, row, -, p, hp⟩
    exact absurd p.1.isLt (by omega)
  · intro hx hy
    have same : first.state.machine.bytesAtIndex height = sprite := once.bytesAtIndex height
    have twice : first.state.machine.Drawn x y _ (second.map machine) :=
      first.state.drawn_process x y height
    rw [same] at twice
    exact Machine.redrawn_of_drawn hx hy bytes short once twice

/-- A sprite whose bytes go over the last cell of memory, drawn over a corner of the display onto
one lit dot: both flags are up, for the dot and for the pixels that were dark, and the second time
the dot is alone again. -/
theorem process_draws_corner :
    let m : Machine := { ((Machine.initial ⟨fun _ => 0, 0⟩).setRegister 1 62).setRegister 2 30 with
      index := 0xFFF, display := Display.blank.draw 0 31 [0x80] }
    let t : Traced := ⟨m, .empty .debug⟩
    let first := t.process 0xD123
    let second := first.state.process 0xD123
    (1 : Register) ≠ flagRegister ∧ (2 : Register) ≠ flagRegister
      ∧ first.state.machine.register flagRegister = 1
      ∧ second.state.machine.register flagRegister = 1
      ∧ second.state.machine.display.rows = m.display.rows := by
  intro m t first second
  obtain ⟨-, once, -, redrawn⟩ := process_draws t 1 2 3
  have twice := redrawn (by decide) (by decide)
  refine ⟨by decide, by decide, ?_, ?_, twice.rows⟩
  · apply once.raised
    rw [once.display]
    exact ⟨0, 31, by decide +kernel, by decide +kernel⟩
  · apply twice.flag_iff.mpr
    exact ⟨62, 31, by decide +kernel, by decide +kernel⟩

end Traced
end Chip8Vm
