import Chip8Vm.Text.Blank
import Chip8Vm.Text.DecimalDigit
import Chip8Vm.Text.Quoted

/-!
# Numerals

How a number is read from a text: blanks around it, one sign directly before the digits, decimal
digits of any script, and single underscores between digits. Nothing else is a numeral, and one of
more than `digitLimit` digits is refused before what follows it is looked at.
-/

set_option autoImplicit false

namespace Chip8Vm.Number

/-- Why a text is not read as a number. -/
inductive Misread where
  /-- The text has not the form of a numeral. -/
  | malformed
  /-- The numeral has more digits than are read. -/
  | tooManyDigits (count : Nat)
  deriving DecidableEq

/-- The longest numeral that is read, underscores not counted. -/
def digitLimit : Nat := 4300

/-- A character of the body of a numeral. -/
def isNumeralChar (c : Char) : Bool := c == '_' || Text.isDigit c

/-- Whether every underscore stands between two digits; `afterDigit` says what came before. -/
def isGrouped : (afterDigit : Bool) → List Char → Bool
  | afterDigit, [] => afterDigit
  | afterDigit, c :: cs => if c = '_' then afterDigit && isGrouped false cs else isGrouped true cs

/-- The value of a row of digits, most significant first. -/
def digitsValue (digits : List Nat) : Nat := digits.foldl (fun value d => 10 * value + d) 0

/-- The number that an unsigned numeral with blanks behind it stands for. -/
def readUnsigned (text : List Char) : Except Misread Nat :=
  let body := text.takeWhile isNumeralChar
  let rest := text.dropWhile isNumeralChar
  let digits := body.filterMap Text.digitValue?
  if !isGrouped false body then .error .malformed
  else if digitLimit < digits.length then .error (.tooManyDigits digits.length)
  else if rest.all Text.isBlank then .ok (digitsValue digits)
  else .error .malformed

/-- The number that a text stands for. -/
def readInt (text : String) : Except Misread Int :=
  match text.toList.dropWhile Text.isBlank with
  | '-' :: rest => (readUnsigned rest).map fun n => -(n : Int)
  | '+' :: rest => (readUnsigned rest).map fun n => (n : Int)
  | rest => (readUnsigned rest).map fun n => (n : Int)

/-- A text that is no numeral is shown up to this many characters, quotes counted. -/
def shownLength : Nat := 200

/-- What is said of a text that could not be read. -/
def Misread.message (text : String) : Misread → String
  | .malformed =>
    "invalid literal for int() with base 10: "
      ++ String.ofList ((Text.quoted text).toList.take shownLength)
  | .tooManyDigits count =>
    s!"Exceeds the limit ({digitLimit} digits) for integer string conversion: value has {count} "
      ++ "digits; use sys.set_int_max_str_digits() to increase the limit"

end Chip8Vm.Number
