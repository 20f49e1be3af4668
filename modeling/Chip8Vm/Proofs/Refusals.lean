import Chip8Vm.Proofs.Files
import Chip8Vm.Proofs.Loading
import Chip8Vm.Session

/-!
# Images that are refused

An image is loaded as a whole or not at all. Three things are wrong with images, a length that is
odd, a length that is too large and a value that is no byte, and of several it is the first in this
order that is told (`Unfit`). A file adds the ways in which its name leads to none.

> **an image is refused for one of these reasons and for no other, and whatever is refused changes
> nothing** (`load_allOrNothing`), neither the machine nor the log.

An image from a file is the image that was written to it: loading it is loading the bytes.
-/

set_option autoImplicit false

namespace Chip8Vm

namespace Machine

/-- What keeps an image from being loaded, and the words for it. -/
inductive Unfit (image : List Int) : Fault → String → Prop
  | odd (half : image.length % 2 = 1) :
      Unfit image (.oddImage image.length)
        ("ROM of " ++ toString image.length ++ " bytes ends in the middle of an instruction")
  | large (whole : image.length % 2 = 0) (exceeds : 3584 < image.length) :
      Unfit image (.largeImage image.length)
        ("ROM of " ++ toString image.length ++ " bytes does not fit in memory (max 3584 bytes)")
  | value (whole : image.length % 2 = 0) (fits : image.length ≤ 3584) {v : Int} (given : v ∈ image)
      (outside : ¬(0 ≤ v ∧ v < 256)) : Unfit image .notBytes "bytes must be in range(0, 256)"

variable {image : List Int} {fault : Fault} {text : String}

theorem imageFault?_of_odd {size : Nat} (half : size % 2 = 1) :
    imageFault? size = some (.oddImage size) := by
  unfold imageFault? instructionSize
  rw [if_pos (by omega)]

theorem imageFault?_of_large {size : Nat} (whole : size % 2 = 0) (exceeds : 3584 < size) :
    imageFault? size = some (.largeImage size) := by
  unfold imageFault? instructionSize imageLimit memorySize imageStart
  rw [if_neg (by omega), if_pos (by omega)]

/-- An image that is refused leaves the machine as it was. -/
theorem Unfit.loadImage (h : Unfit image fault text) (m : Machine) :
    m.loadImage image = .cut m fault := by
  unfold Machine.loadImage
  cases h with
  | odd half => rw [imageFault?_of_odd half]
  | large whole exceeds => rw [imageFault?_of_large whole exceeds]
  | value whole fits given outside =>
    have unread := mapM_byte?_eq_none_iff.mpr ⟨_, given, byte?_eq_none_iff.mpr outside⟩
    rw [imageFault?_eq_none_iff.mpr ⟨whole, fits⟩, Memory.load, unread]
    rfl

/-- Nothing else is wrong with an image. -/
theorem unfit_or_bytes (image : List Int) :
    (∃ fault text, Unfit image fault text) ∨
      ∃ bytes : List UInt8, image = bytes.map (fun b => (b.toNat : Int)) ∧
        imageFault? bytes.length = none := by
  rcases Nat.mod_two_eq_zero_or_one image.length with whole | half
  · by_cases fits : image.length ≤ 3584
    · cases read : image.mapM byte? with
      | none =>
        obtain ⟨v, given, outside⟩ := mapM_byte?_eq_none_iff.mp read
        exact .inl ⟨_, _, .value whole fits given (byte?_eq_none_iff.mp outside)⟩
      | some bytes =>
        have written := eq_of_mapM_byte? read
        rw [written, List.length_map] at whole fits
        exact .inr ⟨bytes, written, imageFault?_eq_none_iff.mpr ⟨whole, fits⟩⟩
    · exact .inl ⟨_, _, .large whole (by omega)⟩
  · exact .inl ⟨_, _, .odd half⟩

end Machine

namespace Traced

variable {t : Traced} {files : Files} {name : String} {bytes : List UInt8} {fault : Fault}

theorem loadFile_of_error (unread : files name = .error fault) (t : Traced) :
    t.loadFile files name = .cut t fault := by
  unfold loadFile
  rw [unread]

/-- A file that can be read is loaded as its bytes are, and told of unless they are refused. -/
theorem loadFile_of_ok (read : files name = .ok bytes) (t : Traced) :
    t.loadFile files name =
      match Machine.imageFault? bytes.length with
      | some fault => .cut t fault
      | none => .done ⟨{ t.machine with memory := t.machine.memory.splice imageStart bytes },
          t.log.add (.loaded name)⟩ := by
  unfold loadFile
  simp only [read, Machine.loadImage_bytes]
  cases Machine.imageFault? bytes.length with
  | some fault => rfl
  | none => rfl

theorem map_loadFile (read : files name = .ok bytes) (t : Traced) :
    (t.loadFile files name).map machine
      = t.machine.loadImage (bytes.map fun b => (b.toNat : Int)) := by
  rw [loadFile_of_ok read, Machine.loadImage_bytes]
  cases Machine.imageFault? bytes.length with
  | some fault => rfl
  | none => rfl

end Traced
end Chip8Vm
