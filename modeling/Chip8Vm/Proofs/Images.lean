import Chip8Vm.Proofs.Process
import Chip8Vm.Proofs.Range
import Chip8Vm.Proofs.Refusals

/-!
# Images in memory

An image that is loaded is in memory byte for byte, from its start on, and nothing else has changed.
A word is two bytes, the high one first, and the second of them is found at the first address when
the counter stands at the last, so that

> **the words at the places of an image, taken apart again, are the image** (`loadImage_words`),
> and what an image has left of an older and shorter one is nothing.

Fetching is a reading: it gives a number, and no machine comes of it.
-/

set_option autoImplicit false

namespace Chip8Vm

/-- The two bytes of a word, the high one first. -/
def Word.bytes (word : Int) : List Int := [word / 256, word % 256]

theorem Word.bytes_pair (high low : UInt8) :
    bytes (256 * high.toNat + low.toNat) = [(high.toNat : Int), (low.toNat : Int)] := by
  have := high.toNat_lt
  have := low.toNat_lt
  have front : (256 * high.toNat + low.toNat : Int) / 256 = high.toNat := by omega
  have back : (256 * high.toNat + low.toNat : Int) % 256 = low.toNat := by omega
  rw [bytes, front, back]

/-- Pairs of neighbours, one after the other, make up the list. -/
theorem flatMap_pairs {α : Type} {n : Nat} {as : List α} (length : as.length = 2 * n)
    {f : Nat → List α} (pair : ∀ k (h : 2 * k + 1 < as.length), f k = [as[2 * k], as[2 * k + 1]]) :
    (List.range n).flatMap f = as := by
  induction n generalizing as with
  | zero => rw [List.length_eq_zero_iff.mp length, List.range_zero, List.flatMap_nil]
  | succ n ih =>
    -- the last pair is what is behind the first `2 * n`
    have first : (as.take (2 * n)).length = 2 * n := by
      rw [List.length_take]
      omega
    have last : as.drop (2 * n) = f n := by
      rw [pair n (by omega), List.drop_eq_getElem_cons (by omega),
        List.drop_eq_getElem_cons (by omega), List.drop_of_length_le (by omega)]
    have front : (List.range n).flatMap f = as.take (2 * n) := by
      refine ih first fun k hk => ?_
      rw [List.getElem_take, List.getElem_take]
      exact pair k (by omega)
    rw [List.range_succ, List.flatMap_append, front, List.flatMap_singleton, ← last,
      List.take_append_drop]

namespace Machine

variable {m m' : Machine}

/-- The word that is fetched with the program counter at an address. -/
def wordAt (m : Machine) (a : Nat) : Int := { m with pc := a }.fetch

/-- A word has the byte at its address as its high byte and as its low byte the next one, which
behind the last address is the first of all. -/
theorem wordAt_eq (m : Machine) {a : Nat} (h : a < 4096) :
    ∃ high low : UInt8, m.memory.bytes[a]? = some high ∧
      m.memory.bytes[(a + 1) % 4096]? = some low ∧
      m.wordAt a = 256 * high.toNat + low.toNat := by
  have here : Memory.cell a = a := by
    unfold Memory.cell
    omega
  have next : Memory.cell (a + 1) = (a + 1) % 4096 := by
    unfold Memory.cell
    omega
  refine ⟨m.memory.read a, m.memory.read (a + 1), ?_, ?_, ?_⟩
  · rw [← Memory.getElem?_cell, here]
  · rw [← Memory.getElem?_cell, next]
  · show (m.memory.read a).toNat * 256 + (m.memory.read (a + 1)).toNat = (_ : Int)
    omega

/-- A machine is another one with an image in its memory. -/
structure Holds (m : Machine) (image : List UInt8) (m' : Machine) : Prop where
  size : m'.memory.bytes.size = 4096
  byte : ∀ i (h : i < image.length), m'.memory.bytes[0x200 + i]? = some image[i]
  rest : ∀ place, ¬(0x200 ≤ place ∧ place < 0x200 + image.length) →
    m'.memory.bytes[place]? = m.memory.bytes[place]?
  parts : m' = { m with memory := m'.memory }

variable {image : List UInt8}

theorem image_inside (h : m.WellFormed) (fits : image.length ≤ 3584) :
    (imageStart : Int) + image.length ≤ m.memory.bytes.size := by
  rw [h.memory, imageStart]
  omega

theorem holds_splice (h : m.WellFormed) (fits : image.length ≤ 3584) :
    m.Holds image { m with memory := m.memory.splice imageStart image } := by
  have start : (0 : Int) ≤ imageStart := by decide
  have inside := image_inside h fits
  have laid := Memory.getElem?_splice start inside
  unfold imageStart at laid
  refine ⟨(Memory.size_splice start inside).trans h.memory, fun i hi => ?_, fun place hp => ?_, rfl⟩
  · have place : 0x200 + i - (0x200 : Int).toNat = i := by omega
    refine (laid _).trans ((if_pos (by omega)).trans ?_)
    rw [← List.getElem?_eq_getElem hi]
    exact congrArg (image[·]?) place
  · exact (laid place).trans (if_neg (by omega))

theorem Holds.wordAt_eq (h : m.Holds image m') (fits : image.length ≤ 3584) {k : Nat}
    (hk : 2 * k + 1 < image.length) :
    m'.wordAt (0x200 + 2 * k) = 256 * image[2 * k].toNat + image[2 * k + 1].toNat := by
  obtain ⟨high, low, atPlace, behind, word⟩ :=
    m'.wordAt_eq (by omega : 0x200 + 2 * k < 4096)
  have next : (0x200 + 2 * k + 1) % 4096 = 0x200 + (2 * k + 1) := by omega
  rw [h.byte _ (by omega)] at atPlace
  rw [next, h.byte _ hk] at behind
  rw [word, Option.some_inj.mp atPlace, Option.some_inj.mp behind]

/-- The words at the places of an image, taken apart, are the image. -/
theorem Holds.bytes_words (h : m.Holds image m') (whole : image.length % 2 = 0)
    (fits : image.length ≤ 3584) :
    (List.range (image.length / 2)).flatMap (fun k => Word.bytes (m'.wordAt (0x200 + 2 * k)))
      = image.map fun b => (b.toNat : Int) := by
  have length : (image.map fun b => (b.toNat : Int)).length = 2 * (image.length / 2) := by
    rw [List.length_map]
    omega
  refine flatMap_pairs length fun k hk => ?_
  rw [List.length_map] at hk
  rw [h.wordAt_eq fits hk, Word.bytes_pair, List.getElem_map, List.getElem_map]

/-- An image covers whatever is loaded before it and is no longer. -/
theorem loadImage_loadImage (h : m.WellFormed) (whole : image.length % 2 = 0)
    (fits : image.length ≤ 3584) {earlier : List Int} (shorter : earlier.length ≤ image.length) :
    (m.loadImage earlier).state.loadImage (image.map fun b => (b.toNat : Int))
      = m.loadImage (image.map fun b => (b.toNat : Int)) := by
  rcases unfit_or_bytes earlier with ⟨fault, text, unfit⟩ | ⟨bytes, rfl, allowed⟩
  · rw [unfit.loadImage, Outcome.state_cut]
  · have start : (0 : Int) ≤ imageStart := by decide
    rw [List.length_map] at shorter
    rw [loadImage_bytes m bytes, allowed, Outcome.state_done, loadImage_bytes, loadImage_bytes,
      imageFault?_eq_none_iff.mpr ⟨whole, fits⟩]
    dsimp only
    rw [Memory.splice_splice start shorter (image_inside h fits)]

/-- **An image is fetched as it was loaded.** It is in memory byte for byte and nothing else has
changed, its words taken apart are its bytes, and nothing is left of an earlier image that was no
longer. Every address has a word, made of the byte there and the next one. -/
theorem loadImage_words (h : m.WellFormed) :
    (∀ image : List UInt8, image.length % 2 = 0 → image.length ≤ 3584 →
      ∃ m', m.loadImage (image.map fun b => (b.toNat : Int)) = .done m' ∧ m.Holds image m' ∧
        (∀ k (inside : k < image.length / 2),
          m'.wordAt (0x200 + 2 * k) = 256 * image[2 * k].toNat + image[2 * k + 1].toNat) ∧
        (List.range (image.length / 2)).flatMap (fun k => Word.bytes (m'.wordAt (0x200 + 2 * k)))
          = image.map (fun b => (b.toNat : Int)) ∧
        ∀ earlier : List Int, earlier.length ≤ image.length →
          (m.loadImage earlier).state.loadImage (image.map fun b => (b.toNat : Int)) = .done m') ∧
    ∀ a < 4096, (0 ≤ m.wordAt a ∧ m.wordAt a < 65536) ∧
      ∃ high low : UInt8, m.memory.bytes[a]? = some high ∧
        m.memory.bytes[(a + 1) % 4096]? = some low ∧ m.wordAt a = 256 * high.toNat + low.toNat := by
  refine ⟨fun image whole fits => ?_, fun a ha => ⟨fetch_range _, m.wordAt_eq ha⟩⟩
  have held := holds_splice h fits
  have loaded := loadImage_bytes m image
  rw [imageFault?_eq_none_iff.mpr ⟨whole, fits⟩] at loaded
  exact ⟨_, loaded, held, fun k hk => held.wordAt_eq fits (by omega), held.bytes_words whole fits,
    fun earlier shorter => (loadImage_loadImage h whole fits shorter).trans loaded⟩

/-- Four bytes cover two, and the last address of a machine without an image has the word of its
last byte and the first one of the digits. -/
theorem loadImage_words_four :
    let m : Machine := .initial ⟨fun _ => 0, 0⟩
    (m.loadImage [0x12, 0x34]).state.loadImage [0x60, 0x05, 0x70, 0x01]
        = m.loadImage [0x60, 0x05, 0x70, 0x01] ∧
      ((m.loadImage [0x60, 0x05, 0x70, 0x01]).state.wordAt 0x202 = 0x7001) ∧
      m.wordAt 0xFFF = 0xF0 := by
  intro m
  obtain ⟨loaded, words⟩ := loadImage_words (wellFormed_initial ⟨fun _ => 0, 0⟩)
  obtain ⟨m', done, -, word, -, covers⟩ := loaded [0x60, 0x05, 0x70, 0x01] (by decide) (by decide)
  have bytes : [0x60, 0x05, 0x70, 0x01]
      = ([0x60, 0x05, 0x70, 0x01] : List UInt8).map fun b => (b.toNat : Int) := by decide
  rw [← bytes] at done covers
  refine ⟨(covers _ (by decide)).trans done.symm, ?_, ?_⟩
  · rw [done]
    exact word 1 (by decide)
  · obtain ⟨high, low, last, first, word⟩ := (words 0xFFF (by decide)).2
    have empty : m.memory.bytes[0xFFF]? = some 0 := by
      refine List.getElem?_toArray.trans ?_
      rw [List.getElem?_append_right (by decide), length_font, List.getElem?_replicate_of_lt]
      decide
    have digit : m.memory.bytes[0]? = some 0xF0 :=
      List.getElem?_toArray.trans (List.getElem?_append_left (by decide))
    have behind : (0xFFF + 1) % 4096 = 0 := rfl
    rw [empty] at last
    rw [behind, digit] at first
    rw [word, ← Option.some_inj.mp last, ← Option.some_inj.mp first]
    decide

end Machine
end Chip8Vm
