import Chip8Vm.Font
import Chip8Vm.Number.Byte
import Chip8Vm.Outcome

/-!
# Memory

Bytes under addresses of twelve bits. Any number is an address: it means the cell it is congruent
to modulo 4096 (`cell`), so no access is out of bounds and a block may run over the last cell into
the first.

Two operations change a memory. `write` puts one value into one cell and faults on a value that is
no byte; `load` lays a whole run of bytes over a stretch of the array, at a place that is *not*
wrapped but clipped to the array, and so may lengthen it. It never shortens it, which is why a
memory can promise the 4096 cells that addresses reach (`reaches`).

`read_put` is the fact the rest relies on: a cell holds what was last put there.
-/

set_option autoImplicit false

namespace Chip8Vm

/-- An array of bytes that covers every address. -/
@[ext] structure Memory where
  bytes : Array UInt8
  reaches : 4096 ≤ bytes.size

namespace Memory

/-- A memory that holds the font and otherwise zeros. -/
def blank : Memory where
  bytes := (font ++ List.replicate (memorySize - font.length) 0).toArray
  reaches := by
    rw [List.size_toArray, List.length_append, List.length_replicate, length_font]; decide

/-- Bytes with a run in place of the stretch between two of their bounds. -/
def exchange (bytes : Array UInt8) (first last : Nat) (run : List UInt8) : Array UInt8 :=
  (bytes.toList.take first ++ run ++ bytes.toList.drop last).toArray

/-- The place in the array that an address means. -/
def cell (address : Int) : Nat := (address % 4096).toNat

theorem cell_lt (address : Int) : cell address < 4096 := by
  unfold cell; omega

theorem cell_lt_size (m : Memory) (address : Int) : cell address < m.bytes.size :=
  Nat.lt_of_lt_of_le (cell_lt address) m.reaches

/-- The byte at an address. -/
def read (m : Memory) (address : Int) : UInt8 :=
  have := m.cell_lt_size address
  m.bytes[cell address]

/-- The memory with a byte put at an address. -/
def put (m : Memory) (address : Int) (b : UInt8) : Memory where
  bytes := m.bytes.set (cell address) b (m.cell_lt_size address)
  reaches := by rw [Array.size_set]; exact m.reaches

/-- The bytes at `count` addresses from one on. -/
def readBlock (m : Memory) (address : Int) (count : Nat) : List UInt8 :=
  (List.range count).map fun i : Nat => m.read (address + i)

/-- Put a value at an address; a value that is no byte leaves the memory as it is. -/
def write (m : Memory) (address value : Int) : Outcome Memory :=
  match byte? value with
  | some b => .done (m.put address b)
  | none => .cut m .notAByte

/-- Put values at consecutive addresses, up to the first that is no byte. -/
def writeBlock (address : Int) : List Int → Memory → Outcome Memory
  | [], m => .done m
  | v :: vs, m => (m.write address v).andThen (writeBlock (address + 1) vs)

theorem getElem?_cell (m : Memory) (a : Int) : m.bytes[cell a]? = some (m.read a) :=
  Array.getElem?_eq_getElem (m.cell_lt_size a)

@[simp] theorem size_put (m : Memory) (a : Int) (b : UInt8) :
    (m.put a b).bytes.size = m.bytes.size := by
  simp [put]

theorem read_put (m : Memory) (a a' : Int) (b : UInt8) :
    (m.put a b).read a' = if cell a = cell a' then b else m.read a' := by
  simp only [read, put]
  rw [Array.getElem_set]

/-! ## Loading a run of bytes -/

/-- A bound of a stretch: one below zero counts from the end, and all are clipped to the array. -/
def bound (size : Nat) (i : Int) : Nat :=
  if i < 0 then (i + size).toNat else min i.toNat size

theorem bound_le (size : Nat) (i : Int) : bound size i ≤ size := by
  unfold bound; split <;> omega

/-- Where a stretch of `count` bytes from `address` ends. A stretch whose end would lie before its
start is empty. -/
def stretchEnd (size : Nat) (address : Int) (count : Nat) : Nat :=
  max (bound size address) (bound size (address + count))

theorem stretchEnd_le (size n : Nat) (i : Int) :
    stretchEnd size i n ≤ bound size i + n := by
  unfold stretchEnd bound; split <;> split <;> omega

/-- The memory with a run of bytes in place of the stretch of that length. -/
def splice (m : Memory) (address : Int) (run : List UInt8) : Memory where
  bytes := exchange m.bytes (bound m.bytes.size address)
    (stretchEnd m.bytes.size address run.length) run
  reaches := by
    have h₁ := bound_le m.bytes.size address
    have h₂ := stretchEnd_le m.bytes.size run.length address
    have h₃ := m.reaches
    simp only [exchange, List.size_toArray, List.length_append, List.length_take, List.length_drop,
      Array.length_toList]
    omega

/-- What is not laid over is what comes before the stretch and what comes behind it. -/
theorem toList_splice (m : Memory) (a : Int) (run : List UInt8) :
    (m.splice a run).bytes.toList = m.bytes.toList.take (bound m.bytes.size a) ++ run
      ++ m.bytes.toList.drop (stretchEnd m.bytes.size a run.length) := rfl

/-- Lay data over the stretch from an address on; data with a value that is no byte changes
nothing. -/
def load (m : Memory) (address : Int) (data : List Int) : Outcome Memory :=
  match data.mapM byte? with
  | some run => .done (m.splice address run)
  | none => .cut m .notBytes

/-! ## The memory of a new machine -/

/-- The memory with a zero in every cell there was, cut to its proper size. -/
def zeroed (m : Memory) : Memory where
  bytes := exchange m.bytes 0 m.bytes.size (List.replicate memorySize 0)
  reaches := by
    simp only [exchange, List.size_toArray, List.length_append, List.length_replicate, memorySize]
    omega

/-- The memory with zeros everywhere, and then the font at its place. -/
def reset (m : Memory) : Memory := m.zeroed.splice fontStart font

/-- A memory that has just been made: zeros, and then it is reset. -/
def make : Memory := reset ⟨Array.replicate memorySize 0, Nat.le_of_eq Array.size_replicate.symm⟩

theorem bytes_zeroed (m : Memory) : m.zeroed.bytes = (List.replicate memorySize 0).toArray := by
  have rest : m.bytes.toList.drop m.bytes.size = [] := m.bytes.toList.drop_length
  simp [zeroed, exchange, rest]

/-- **A reset leaves nothing of the memory**, however long it had become. -/
theorem reset_eq_blank (m : Memory) : m.reset = blank := by
  have start : bound memorySize fontStart = 0 := by decide
  have stop : stretchEnd memorySize fontStart 80 = 80 := by decide
  refine Memory.ext ?_
  simp [reset, splice, exchange, bytes_zeroed, start, stop, blank]

theorem make_eq_blank : make = blank := reset_eq_blank _

end Memory

end Chip8Vm
