import Chip8Vm.Machine.Cycle
import Chip8Vm.Proofs.Bytes

/-!
# Laying bytes over a memory

A run of bytes that lies inside the memory takes the place of as many others:

> **the size stays** (`size_splice`), **the bytes stand where they were laid and all others stay**
> (`getElem?_splice`), and a program counter that stands among them fetches the word they make
> (`fetch_of_splice`).

What becomes of a run that ends outside is another matter, and not one for images: these are refused
if they do not fit, and a file of bytes is refused for nothing but its length (`loadImage_bytes`).
-/

set_option autoImplicit false

namespace Chip8Vm

namespace Memory

variable {m : Memory} {a : Int} {run : List UInt8}

theorem bound_inside {size : Nat} {i : Int} (hi : 0 ≤ i ∧ i ≤ size) : bound size i = i.toNat := by
  rw [bound, if_neg (by omega)]
  omega

theorem stretchEnd_inside {size n : Nat} (ha : 0 ≤ a) (hend : a + n ≤ size) :
    stretchEnd size a n = a.toNat + n := by
  rw [stretchEnd, bound_inside ⟨ha, by omega⟩, bound_inside ⟨by omega, hend⟩]
  omega

/-- A run that lies inside the array takes the place of as many bytes. -/
theorem size_splice (ha : 0 ≤ a) (hend : a + run.length ≤ m.bytes.size) :
    (m.splice a run).bytes.size = m.bytes.size := by
  have start : bound m.bytes.size a = a.toNat := bound_inside ⟨ha, by omega⟩
  have stop : stretchEnd m.bytes.size a run.length = a.toNat + run.length :=
    stretchEnd_inside ha hend
  rw [← Array.length_toList, toList_splice, start, stop, List.length_append, List.length_append,
    List.length_take, List.length_drop, Array.length_toList]
  omega

/-- The bytes of a run that lies inside the array stand where it was laid, and all others stay. -/
theorem getElem?_splice (ha : 0 ≤ a) (hend : a + run.length ≤ m.bytes.size) (place : Nat) :
    (m.splice a run).bytes[place]? =
      if a ≤ place ∧ place < a + run.length then run[place - a.toNat]? else m.bytes[place]? := by
  have start : bound m.bytes.size a = a.toNat := bound_inside ⟨ha, by omega⟩
  have stop : stretchEnd m.bytes.size a run.length = a.toNat + run.length :=
    stretchEnd_inside ha hend
  have before : min a.toNat m.bytes.size = a.toNat := by omega
  rw [← Array.getElem?_toList, toList_splice, start, stop]
  simp only [List.getElem?_append, List.length_append, List.length_take, Array.length_toList,
    before]
  by_cases left : place < a.toNat
  · rw [if_pos (by omega), if_pos left, if_neg (by omega), List.getElem?_take_of_lt left,
      Array.getElem?_toList]
  · by_cases inside : place < a.toNat + run.length
    · rw [if_pos inside, if_neg left, if_pos (by omega)]
    · have behind : a.toNat + run.length + (place - (a.toNat + run.length)) = place := by omega
      rw [if_neg inside, if_neg (by omega), List.getElem?_drop, behind, Array.getElem?_toList]

/-- Of two runs at one place the longer one is left, if it is laid last. -/
theorem splice_splice {first : List UInt8} (ha : 0 ≤ a) (shorter : first.length ≤ run.length)
    (hend : a + run.length ≤ m.bytes.size) : (m.splice a first).splice a run = m.splice a run := by
  have size : (m.splice a first).bytes.size = m.bytes.size := size_splice ha (by omega)
  refine Memory.ext (Array.ext_getElem? fun place => ?_)
  rw [getElem?_splice ha (by rw [size]; exact hend), getElem?_splice ha hend]
  split
  · rfl
  next outside => rw [getElem?_splice ha (by omega), if_neg (by omega)]

theorem read_splice (ha : 0 ≤ a) (hend : a + run.length ≤ 4096) {i : Nat} (hi : i < run.length) :
    (m.splice a run).read (a + i) = run[i] := by
  have reaches := m.reaches
  have place : cell (a + i) = a.toNat + i := by
    unfold cell
    omega
  have laid := getElem?_splice ha (by omega : a + run.length ≤ m.bytes.size) (cell (a + i))
  rw [getElem?_cell, place, if_pos (by omega), Nat.add_sub_cancel_left,
    List.getElem?_eq_getElem hi] at laid
  exact Option.some_inj.mp laid

end Memory

/-- A program counter among bytes that were laid over the memory fetches two of them. -/
theorem Machine.fetch_of_splice {m : Machine} {memory : Memory} {a : Int} {run : List UInt8}
    (hm : m.memory = memory.splice a run) (ha : 0 ≤ a) (hend : a + run.length ≤ 4096) {i : Nat}
    (hi : i + 1 < run.length) (hpc : m.pc = a + i) :
    m.fetch = run[i].toNat * 256 + run[i + 1].toNat := by
  have high : m.memory.read m.pc = run[i] := by
    rw [hm, hpc]
    exact Memory.read_splice ha hend (by omega)
  have low : m.memory.read (m.pc + 1) = run[i + 1] := by
    rw [hm, hpc, Int.add_assoc]
    exact Memory.read_splice ha hend hi
  rw [fetch, high, low]

namespace Machine

theorem imageFault?_eq_none_iff {size : Nat} :
    imageFault? size = none ↔ size % 2 = 0 ∧ size ≤ 3584 := by
  unfold imageFault? imageLimit memorySize imageStart instructionSize
  split
  · simp_all
  · split <;> simp_all

/-- An image of bytes is laid over the memory from its start on, or refused for its length. -/
theorem loadImage_bytes (m : Machine) (bytes : List UInt8) :
    m.loadImage (bytes.map fun b => (b.toNat : Int)) =
      match imageFault? bytes.length with
      | some fault => .cut m fault
      | none => .done { m with memory := m.memory.splice imageStart bytes } := by
  unfold loadImage Memory.load
  rw [List.length_map, mapM_byte?_toNat]
  cases imageFault? bytes.length with
  | some fault => rfl
  | none => rfl

end Machine
end Chip8Vm
