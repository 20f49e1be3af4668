import Chip8Vm.Fault
import Chip8Vm.Number.Numeral

/-!
# The switch that turns tracing on

A setting outside the program says whether instructions are traced: a number of at least one turns
tracing on, a smaller one or no setting at all leaves it off. A setting that is no number is an
error, and one with a NUL in it cannot be made at all.
-/

set_option autoImplicit false

namespace Chip8Vm

/-- Why a setting is refused. -/
inductive SettingFault where
  /-- The text has a NUL in it. -/
  | nul
  /-- The text is not read as a number. -/
  | misread (text : String) (cause : Number.Misread)
  deriving DecidableEq

/-- The wording of a refusal. -/
def SettingFault.message : SettingFault → String
  | nul => Fault.nul.message
  | misread text cause => cause.message text

/-- Whether a setting turns tracing on. -/
def traceSwitch : Option String → Except SettingFault Bool
  | none => .ok false
  | some text =>
    if text.contains '\x00' then .error .nul
    else
      match Number.readInt text with
      | .ok n => .ok (decide (1 ≤ n))
      | .error cause => .error (.misread text cause)

end Chip8Vm
