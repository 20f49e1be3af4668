import Chip8Vm.Fault
import Chip8Vm.Number.Byte
import Chip8Vm.Number.Signed
import Chip8Vm.Text.HexPairs

/-!
# Data

Bytes as they are given from outside: as a text of hexadecimal digits, as one value and how often it
is repeated, or as a list of numbers. The first two have to make bytes before anything can be done
with them (`fault?`). A list goes as it is to whoever reads it, so its length is known before anyone
looks at its numbers, and it may be refused for being a list (`bytes`).
-/

set_option autoImplicit false

namespace Chip8Vm

/-- Bytes in one of the forms they are given in. -/
inductive Data where
  | hex (text : String)
  /-- A value, and how often it is repeated; a count below zero is none. -/
  | fill (value count : Int)
  | numbers (values : List Int)

namespace Data

/-- The longest run of one value that there is room for. -/
def runLimit : Int := Nat.pow 2 35

/-- What keeps data from being made, if something does. The value of a run is looked at before its
length. -/
def fault? : Data → Option Fault
  | hex text =>
    match Text.readHex text with
    | .ok _ => none
    | .error place => some (.notHexadecimal place)
  | fill value count =>
    if (byte? value).isNone then some .notBytes
    else if !Number.fits 63 count then some .countTooLarge
    else if runLimit < count then some .noRoom
    else none
  | numbers _ => none

/-- The values of data, which nobody has checked if it is a list. -/
def values : Data → List Int
  | hex text =>
    match Text.readHex text with
    | .ok bytes => bytes.map fun b => Int.ofNat b.toNat
    | .error _ => []
  | fill value count => List.replicate count.toNat value
  | numbers values => values

/-- How many values there are. -/
def size : Data → Nat
  | fill _ count => count.toNat
  | d => d.values.length

/-- The bytes of data, for whoever takes bytes and nothing else. -/
def bytes (d : Data) : Except Fault (List UInt8) :=
  match d, d.fault? with
  | numbers _, _ => .error .listOfNumbers
  | _, some fault => .error fault
  | d, none =>
    match d.values.mapM byte? with
    | some bytes => .ok bytes
    | none => .error .notBytes

end Data

end Chip8Vm
