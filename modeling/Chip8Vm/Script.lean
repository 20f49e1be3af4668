import Chip8Vm.Host

/-!
# Scripts

The events of a session written as text, a line to a turn. A line holds words between blanks: `quit`
and `blur` for the window, `+` or `-` and the name of a key for a key that goes down or up. A word
that is none of these is an event without a meaning.
-/

set_option autoImplicit false

namespace Chip8Vm.Script

/-- The key of a name. -/
def key (name : String) : HostKey :=
  if name = "escape" then .escape
  else if name = "space" then .space
  else
    match name.toList with
    | [c] => .character c
    | _ => .other

/-- The event of a word. -/
def event (word : String) : Event :=
  if word = "quit" then .quit
  else if word = "blur" then .focusLost
  else
    match word.toList with
    | '+' :: name => .keyDown (key (String.ofList name))
    | '-' :: name => .keyUp (key (String.ofList name))
    | _ => .other

/-- The events of a line. -/
def turn (line : String) : List Event :=
  ((line.splitOn " ").filter fun word => word ≠ "").map event

/-- The turns of a text. -/
def ofLines (lines : List String) : List (List Event) := lines.map turn

end Chip8Vm.Script
