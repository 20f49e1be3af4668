/-!
# Random values

A source is an endless row of values and a count of those already drawn. The values may be any
numbers; whoever draws one takes from it the bits it needs.
-/

set_option autoImplicit false

namespace Chip8Vm

/-- The values to come, by their place in the row, and how many of them have been drawn. -/
structure RandomSource where
  value : Nat → Int
  drawn : Nat

namespace RandomSource

/-- The value that is drawn next. -/
def next (s : RandomSource) : Int := s.value s.drawn

/-- The source after its next value is drawn. -/
def advance (s : RandomSource) : RandomSource := { s with drawn := s.drawn + 1 }

/-- A source that goes round a list of values, or gives zeros if there are none. -/
def cycling (values : Array Int) : RandomSource where
  value i := values.getD (i % values.size) 0
  drawn := 0

end RandomSource

end Chip8Vm
