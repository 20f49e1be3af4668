import Chip8Vm.Instruction.Decode

/-!
# Writing instruction words

Each instruction has a word, and reading and writing are inverse: a number is read as an instruction
exactly when its low sixteen bits are the word of that instruction (`decode?_eq_some_iff`). So no
two instructions share a word, no word has two meanings, and the words without a meaning are those
that `encode` never gives.
-/

set_option autoImplicit false

namespace Chip8Vm

namespace Operation

/-- The low nibble of the word of an operation. -/
def code : Operation → Nat
  | copy => 0x0
  | or => 0x1
  | and => 0x2
  | xor => 0x3
  | add => 0x4
  | sub => 0x5
  | shiftRight => 0x6
  | subFrom => 0x7
  | shiftLeft => 0xE

theorem ofCode?_code (op : Operation) : ofCode? op.code = some op := by
  cases op <;> rfl

theorem code_lt (op : Operation) : op.code < 16 := by
  cases op <;> decide

theorem code_of_ofCode? {n : Nat} {op : Operation} (h : ofCode? n = some op) : op.code = n := by
  unfold ofCode? at h
  split at h <;> cases h <;> rfl

end Operation

namespace Instruction

/-- A word of three nibble fields behind a top nibble. -/
def nibbles (top x y n : Nat) : Nat := top * 4096 + x * 256 + y * 16 + n

/-- A word of a register and a byte behind a top nibble. -/
def withByte (top x byte : Nat) : Nat := top * 4096 + x * 256 + byte

/-- A word of an address behind a top nibble. -/
def withAddress (top address : Nat) : Nat := top * 4096 + address

/-- The word of an instruction. -/
def encode : Instruction → Nat
  | clear => 0x00E0
  | ret => 0x00EE
  | jump target => withAddress 0x1 target
  | call target => withAddress 0x2 target
  | skip (.byte x value) true => withByte 0x3 x value
  | skip (.byte x value) false => withByte 0x4 x value
  | skip (.register x y) true => nibbles 0x5 x y 0
  | skip (.register x y) false => nibbles 0x9 x y 0
  | skip (.key x) true => withByte 0xE x 0x9E
  | skip (.key x) false => withByte 0xE x 0xA1
  | assign x value => withByte 0x6 x value
  | increase x value => withByte 0x7 x value
  | combine op x y => nibbles 0x8 x y op.code
  | point address => withAddress 0xA address
  | jumpBy base => withAddress 0xB base
  | random x mask => withByte 0xC x mask
  | draw x y height => nibbles 0xD x y height
  | readDelay x => withByte 0xF x 0x07
  | awaitKey x => withByte 0xF x 0x0A
  | startDelay x => withByte 0xF x 0x15
  | startSound x => withByte 0xF x 0x18
  | movePointer x => withByte 0xF x 0x1E
  | pointToGlyph x => withByte 0xF x 0x29
  | writeDecimal x => withByte 0xF x 0x33
  | save last => withByte 0xF last 0x55
  | restore last => withByte 0xF last 0x65

/-! ## The fields of a written word -/

theorem withAddress_fields (top : Nat) (a : Fin 4096) :
    withAddress top a / 4096 = top ∧ Word.address (withAddress top a) = a := by
  unfold withAddress Word.address
  refine ⟨by omega, Fin.ext ?_⟩
  simp

theorem withByte_fields (top : Nat) (x : Register) (b : Nat) (hb : b < 256) :
    withByte top x b / 4096 = top ∧ Word.x (withByte top x b) = x ∧ withByte top x b % 256 = b := by
  unfold withByte Word.x
  refine ⟨by omega, Fin.ext ?_, by omega⟩
  simp; omega

theorem nibbles_fields (top : Nat) (x y : Register) (n : Nat) (hn : n < 16) :
    nibbles top x y n / 4096 = top ∧ Word.x (nibbles top x y n) = x
      ∧ Word.y (nibbles top x y n) = y ∧ nibbles top x y n % 16 = n := by
  unfold nibbles Word.x Word.y
  refine ⟨by omega, Fin.ext ?_, Fin.ext ?_, by omega⟩ <;> simp <;> omega

theorem byte_withByte (top : Nat) (x : Register) (b : Fin 256) :
    Word.byte (withByte top x b) = b :=
  Fin.ext (withByte_fields top x b b.isLt).2.2

theorem n_nibbles (top : Nat) (x y : Register) (n : Fin 16) : Word.n (nibbles top x y n) = n :=
  Fin.ext (nibbles_fields top x y n n.isLt).2.2.2

/-! ## Reading what was written, and writing what was read -/

theorem ofWord?_encode (i : Instruction) : ofWord? i.encode = some i := by
  cases i with
  | clear => rfl
  | ret => rfl
  | skip test wanted =>
    cases test with
    | byte x v => cases wanted <;> simp [encode, ofWord?, withByte_fields, byte_withByte]
    | register x y => cases wanted <;> simp [encode, ofWord?, nibbles_fields]
    | key x => cases wanted <;> simp [encode, ofWord?, withByte_fields]
  | combine op x y => simp [encode, ofWord?, nibbles_fields, op.code_lt, Operation.ofCode?_code]
  | draw x y n => simp [encode, ofWord?, nibbles_fields, n_nibbles]
  | assign x v => simp [encode, ofWord?, withByte_fields, byte_withByte]
  | increase x v => simp [encode, ofWord?, withByte_fields, byte_withByte]
  | random x v => simp [encode, ofWord?, withByte_fields, byte_withByte]
  | jump a => simp [encode, ofWord?, withAddress_fields]
  | call a => simp [encode, ofWord?, withAddress_fields]
  | point a => simp [encode, ofWord?, withAddress_fields]
  | jumpBy a => simp [encode, ofWord?, withAddress_fields]
  | readDelay x => simp [encode, ofWord?, withByte_fields]
  | awaitKey x => simp [encode, ofWord?, withByte_fields]
  | startDelay x => simp [encode, ofWord?, withByte_fields]
  | startSound x => simp [encode, ofWord?, withByte_fields]
  | movePointer x => simp [encode, ofWord?, withByte_fields]
  | pointToGlyph x => simp [encode, ofWord?, withByte_fields]
  | writeDecimal x => simp [encode, ofWord?, withByte_fields]
  | save x => simp [encode, ofWord?, withByte_fields]
  | restore x => simp [encode, ofWord?, withByte_fields]

theorem encode_of_ofWord? {w : Nat} {i : Instruction} (h : ofWord? w = some i) : i.encode = w := by
  unfold ofWord? at h
  split at h
  case h_9 =>
    obtain ⟨op, hop, rfl⟩ := Option.map_eq_some_iff.1 h
    have := Operation.code_of_ofCode? hop
    simp only [encode, nibbles, Word.x, Word.y, this]
    omega
  all_goals first
    | cases h
      simp only [encode, withAddress, withByte, nibbles, Word.x, Word.y, Word.n, Word.byte,
        Word.address]
      omega
    | split at h <;> cases h <;> simp only [encode, withByte, nibbles, Word.x, Word.y] <;> omega
    | split at h
      · cases h; simp only [encode]; omega
      · split at h <;> cases h
        simp only [encode]; omega
    | cases h

theorem encode_lt (i : Instruction) : i.encode < 65536 := by
  have := ofWord?_encode i
  have : i.encode / 4096 < 16 := by
    unfold ofWord? at this
    split at this <;> first | omega | cases this
  omega

/-- A number is read as an instruction exactly when its low sixteen bits are the word of it. -/
theorem decode?_eq_some_iff {opcode : Int} {i : Instruction} :
    decode? opcode = some i ↔ opcode % 65536 = i.encode := by
  unfold decode?
  constructor
  · intro h
    have := encode_of_ofWord? h
    omega
  · intro h
    rw [h, Int.toNat_natCast, ofWord?_encode]

end Instruction

end Chip8Vm
