import Chip8Vm.Instruction.Encode
import Chip8Vm.Main
import Chip8Vm.Monitor
import Chip8Vm.Proofs.Endings
import Chip8Vm.Proofs.KeyWait
import Chip8Vm.Proofs.Nesting
import Chip8Vm.Proofs.Pixels
import Chip8Vm.Proofs.Residue
import Chip8Vm.Proofs.Schedule
import Chip8Vm.Proofs.Chronicle
import Chip8Vm.Proofs.Timers
import Chip8Vm.Proofs.KeyLevels
import Chip8Vm.Proofs.Randomness
import Chip8Vm.Proofs.Assembly
import Chip8Vm.Proofs.Trace
import Chip8Vm.Proofs.Muting
import Chip8Vm.Proofs.Readout
import Chip8Vm.Proofs.Collisions
import Chip8Vm.Proofs.Blocks
import Chip8Vm.Proofs.Sprites
import Chip8Vm.Proofs.Torus
import Chip8Vm.Proofs.Arithmetic
import Chip8Vm.Proofs.Refusals
import Chip8Vm.Proofs.Images
import Chip8Vm.Proofs.Lookup
import Chip8Vm.Proofs.Skips
import Chip8Vm.Proofs.Decimals
import Chip8Vm.Proofs.Glyphs
import Chip8Vm.Proofs.Answers
import Chip8Vm.Proofs.Splices
import Chip8Vm.Proofs.Columns
