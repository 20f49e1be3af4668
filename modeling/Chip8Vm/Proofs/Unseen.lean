import Chip8Vm.Proofs.Moves

/-!
# What a program cannot see

Two things in a machine are there for others than its program. The flag of the display says whether
it has to be shown again, and no instruction asks for it. Of a source of random values an
instruction takes the next one; how many have been drawn before, it cannot know.

A veil is laid over such things, and what is behind it makes no difference:

> **machines that look the same under a veil do the same and look the same afterwards**
> (`Veil.Same.move`), whatever is done to them.
-/

set_option autoImplicit false

namespace Chip8Vm

/-- What is put in place of the flag of a display and of a source of random values, such that the
values to come stay the same. -/
structure Veil where
  random : RandomSource → RandomSource
  dirty : Bool → Bool
  next_random : ∀ r, (random r).next = r.next
  random_advance : ∀ r, random (random r).advance = random r.advance
  random_random : ∀ r, random (random r) = random r
  dirty_dirty : ∀ b, dirty (dirty b) = dirty b

/-- Whether an instruction sets the flag of the display or draws a random value. -/
def Instruction.stirs : Instruction → Bool
  | clear | draw .. | random .. => true
  | _ => false

namespace Machine

/-- A machine with another source of random values and another flag of its display. -/
def disguise (random : RandomSource → RandomSource) (dirty : Bool → Bool) (m : Machine) : Machine :=
  { m with
    random := random m.random
    display := { m.display with dirty := dirty m.display.dirty } }

/-- An instruction that has nothing to do with either does the same. -/
theorem execute_disguise (random : RandomSource → RandomSource) (dirty : Bool → Bool)
    {i : Instruction} (hi : i.stirs = false) (m : Machine) :
    (m.disguise random dirty).execute i = (m.execute i).map (disguise random dirty) := by
  cases i with
  | clear | draw | random => cases hi
  | ret =>
    have same : (m.disguise random dirty).stack = m.stack := rfl
    simp only [execute, same]
    cases m.stack.pop? with
    | none => rfl
    | some top => rfl
  | call target =>
    have same : (m.disguise random dirty).stack = m.stack := rfl
    have pc : (m.disguise random dirty).pc = m.pc := rfl
    simp only [execute, same, pc]
    obtain ⟨stack, fault⟩ := m.stack.push m.pc
    cases fault with
    | none => rfl
    | some f => rfl
  | skip test wanted =>
    have same : (m.disguise random dirty).holds test = m.holds test := by
      cases test <;> rfl
    simp only [execute, same, Outcome.map_done]
    split
    · rfl
    · rfl
  | combine op x y => cases op <;> rfl
  | awaitKey x =>
    have same : (m.disguise random dirty).keypad = m.keypad := rfl
    simp only [execute, same]
    cases m.keypad.first? with
    | none => rfl
    | some key => rfl
  | save last =>
    simp only [execute]
    rw [Outcome.map_andThen (k := fun m => .done (m.skipBlock last)) fun _ => rfl]
    rfl
  | jump | assign | increase | point | jumpBy | readDelay | startDelay | startSound => rfl
  | movePointer | pointToGlyph | writeDecimal | restore => rfl

end Machine

namespace Veil

variable {v : Veil} {m m' : Machine}

/-- A machine under a veil. -/
def cover (v : Veil) (m : Machine) : Machine :=
  { m with
    random := v.random m.random
    display := { m.display with dirty := v.dirty m.display.dirty } }

/-- The two machines look the same under the veil. -/
def Same (v : Veil) (m m' : Machine) : Prop := v.cover m = v.cover m'

@[simp] theorem cover_cover (v : Veil) (m : Machine) : v.cover (v.cover m) = v.cover m := by
  unfold cover
  simp only [v.random_random, v.dirty_dirty]

/-! ## Instructions -/

/-- An instruction that has nothing to do with what is veiled. -/
theorem execute_cover {i : Instruction} (hi : i.stirs = false) (m : Machine) :
    (v.cover m).execute i = (m.execute i).map v.cover :=
  Machine.execute_disguise v.random v.dirty hi m

/-- The veil hides what an instruction finds under it. -/
theorem map_execute_cover (v : Veil) (m : Machine) (i : Instruction) :
    ((v.cover m).execute i).map v.cover = (m.execute i).map v.cover := by
  cases hi : i.stirs with
  | false =>
    rw [execute_cover hi]
    exact congrArg (Outcome.mk · _) (v.cover_cover _)
  | true =>
    cases i with
    | clear =>
      simp only [Machine.execute, Outcome.map_done, cover, Display.clear, v.random_random]
    | draw x y height =>
      have sprite : (v.cover m).bytesAtIndex height = m.bytesAtIndex height := rfl
      simp only [Machine.execute, Outcome.map_done, sprite]
      simp only [cover, Machine.setRegister, v.random_random]
      rfl
    | random x mask =>
      have next : (v.cover m).random.next = m.random.next := v.next_random m.random
      simp only [Machine.execute, Outcome.map_done, next]
      simp only [cover, Machine.setRegister, v.random_advance, v.dirty_dirty]
    | _ => cases hi

/-! ## Everything that is done to a machine -/

namespace Same

theorem refl (v : Veil) (m : Machine) : v.Same m m := rfl

/-- What can be read without lifting the veil is read alike. -/
theorem agree {α : Type} {f : Machine → α} (hf : ∀ m, f (v.cover m) = f m) (h : v.Same m m') :
    f m = f m' := by
  rw [← hf m, ← hf m', show _ = _ from h]

theorem fetch (h : v.Same m m') : m.fetch = m'.fetch :=
  h.agree fun _ => rfl

/-- A change that is the same under the veil as above it. -/
theorem edit {f : Machine → Machine} (hf : ∀ m, v.cover (f m) = f (v.cover m)) (h : v.Same m m') :
    v.Same (f m) (f m') := by
  have same : v.cover m = v.cover m' := h
  show v.cover (f m) = v.cover (f m')
  rw [hf, hf, same]

/-- What sees nothing behind the veil does the same to machines that look the same. -/
theorem of_map {f : Machine → Outcome Machine}
    (hf : ∀ m, (f (v.cover m)).map v.cover = (f m).map v.cover) (h : v.Same m m') :
    Outcome.Matches v.Same (f m) (f m') := by
  have both : (f m).map v.cover = (f m').map v.cover := by rw [← hf m, ← hf m', show _ = _ from h]
  exact ⟨congrArg Outcome.state both, (congrArg Outcome.fault both :)⟩

/-- An operation that is the same under the veil as above it. -/
theorem of_cover {f : Machine → Outcome Machine} (hf : ∀ m, f (v.cover m) = (f m).map v.cover)
    (h : v.Same m m') : Outcome.Matches v.Same (f m) (f m') := by
  refine of_map (fun m => ?_) h
  rw [hf]
  exact congrArg (Outcome.mk · _) (v.cover_cover _)

theorem execute (h : v.Same m m') (i : Instruction) :
    Outcome.Matches v.Same (m.execute i) (m'.execute i) :=
  of_map (f := (·.execute i)) (fun m => v.map_execute_cover m i) h

theorem advance (h : v.Same m m') : v.Same m.advance m'.advance :=
  h.edit fun _ => rfl

theorem process (h : v.Same m m') (opcode : Int) :
    Outcome.Matches v.Same (m.process opcode) (m'.process opcode) := by
  unfold Machine.process
  cases Instruction.decode? opcode with
  | none => exact .done h.advance
  | some i => exact h.advance.execute i

/-- **A move** does not look behind a veil. -/
theorem move (h : v.Same m m') (move : Move) :
    Outcome.Matches v.Same (move.run m) (move.run m') := by
  cases move with
  | cycle =>
    show Outcome.Matches v.Same (m.process m.fetch) (m'.process m'.fetch)
    rw [h.fetch]
    exact h.process m'.fetch
  | tick => exact .done (h.edit fun _ => rfl)
  | press k =>
    simp only [Move.run]
    cases Keypad.key? k with
    | none => exact .cut h _
    | some key =>
      exact .done (h.edit (f := fun m => { m with keypad := m.keypad.press key }) fun _ => rfl)
  | release k =>
    simp only [Move.run]
    cases Keypad.key? k with
    | none => exact .cut h _
    | some key =>
      exact .done (h.edit (f := fun m => { m with keypad := m.keypad.release key }) fun _ => rfl)
  | releaseAll => exact .done (h.edit (f := fun m => { m with keypad := .released }) fun _ => rfl)

end Same

end Veil
end Chip8Vm
