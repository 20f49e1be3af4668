import Chip8Vm.Proofs.Bytes
import Chip8Vm.Proofs.Process
import Mathlib.Algebra.Ring.Nat
import Mathlib.Data.List.Forall2
import Mathlib.Data.List.Pairwise

/-!
# Masks, and the table of instruction words

There are two ways to say what a word means. A table has a row of four places for each form of
word, a digit where the form has one and a letter where it has an operand (`rows`). A decoder has
masks: it cuts a number with each of them in turn and looks up what is left among the patterns under
this mask (`key?`), and what it finds is the key of a handler, which cuts its operands out of the
number by masks of its own (`handlers`). Both are about numbers of any size and sign, of which a
mask of sixteen bits sees the low sixteen (`land_low`). An address is a number of any size too, and
its cell is what a mask of twelve bits leaves of it (`cell_eq_land`).

A row is a mask and a pattern, with all bits of a mask where it has a digit and none where it has a
letter:

> **the patterns under the masks are the rows in another order** (`pairs_perm`), **a mask leaves
> its pattern of the words that fit the row** (`fits_iff`), and **no word fits two rows**
> (`rows_apart`),

for any two differ in a digit at a place where neither has a letter. What a row reads is what the
word means (`decode?_of_fits`).
-/

set_option autoImplicit false

namespace Chip8Vm

namespace Word

/-- The low sixteen bits of a number. -/
def low (opcode : Int) : Nat := (opcode % 65536).toNat

/-- The four digits of a word, the first one in front. -/
def digits (w : Nat) : List Nat := [w / 4096, w / 256 % 16, w / 16 % 16, w % 16]

theorem low_lt (opcode : Int) : low opcode < 65536 := by
  unfold low
  omega

theorem digit_lt {w : Nat} (h : w < 65536) : ∀ d ∈ digits w, d < 16 := by
  simp only [digits, List.forall_mem_cons, List.not_mem_nil, false_imp_iff, implies_true, and_true]
  omega

end Word

/-! ## What a mask leaves -/

namespace Number

/-- A mask of sixteen bits leaves of a number what it leaves of the low sixteen bits. -/
theorem land_low (opcode : Int) {mask : Nat} (narrow : mask < 65536) :
    land opcode mask = ((Word.low opcode &&& mask : Nat) : Int) := by
  have high : ∀ i, 16 ≤ i → mask.testBit i = false := fun i hi =>
    Nat.testBit_lt_two_pow (Nat.lt_of_lt_of_le narrow (Nat.pow_le_pow_right Nat.two_pos hi))
  cases opcode with
  | ofNat a =>
    have low : Word.low (.ofNat a) = a % 2 ^ 16 := by
      rw [Word.low, Int.ofNat_eq_natCast]
      omega
    refine congrArg Int.ofNat (Nat.eq_of_testBit_eq fun i => ?_)
    rw [low, Nat.testBit_and, Nat.testBit_and, Nat.testBit_mod_two_pow]
    by_cases hi : i < 16
    · rw [decide_eq_true hi, Bool.true_and]
    · rw [high i (by omega), Bool.and_false, Bool.and_false]
  | negSucc a =>
    -- of a number below zero the bits are those that the other one has not
    have low : Word.low (.negSucc a) = 2 ^ 16 - (a % 2 ^ 16 + 1) := by
      unfold Word.low
      omega
    have lt : a % 2 ^ 16 < 2 ^ 16 := Nat.mod_lt a (by decide)
    refine congrArg Int.ofNat (Nat.eq_of_testBit_eq fun i => ?_)
    rw [low, Nat.testBit_xor, Nat.testBit_and, Nat.testBit_and, Nat.testBit_two_pow_sub_succ lt,
      Nat.testBit_mod_two_pow]
    by_cases hi : i < 16
    · rw [decide_eq_true hi]
      cases mask.testBit i <;> cases a.testBit i <;> rfl
    · rw [high i (by omega)]
      simp

/-- The bits of a field, moved down. -/
theorem land_field (opcode : Int) (width shift : Nat)
    (narrow : (2 ^ width - 1) * 2 ^ shift < 65536) :
    land opcode ((2 ^ width - 1) * 2 ^ shift : Nat) >>> shift
      = (Word.low opcode / 2 ^ shift % 2 ^ width : Nat) := by
  have positive : 0 < 2 ^ shift := Nat.two_pow_pos shift
  have field : (Word.low opcode &&& (2 ^ width - 1) * 2 ^ shift) / 2 ^ shift
      = Word.low opcode / 2 ^ shift % 2 ^ width := by
    rw [Nat.and_div_two_pow, Nat.mul_div_cancel _ positive, Nat.and_two_pow_sub_one_eq_mod]
  rw [land_low opcode narrow, Int.shiftRight_eq_div_pow, ← Int.natCast_ediv, field]

end Number

/-! ## Addresses -/

namespace Memory

/-- The cell of an address is what a mask of twelve bits leaves of it. -/
theorem cell_eq_land (a : Int) : (cell a : Int) = Number.land a 0xFFF := by
  have masked : Number.land a 0xFFF >>> (0 : Nat) = (Word.low a / 2 ^ 0 % 2 ^ 12 : Nat) :=
    Number.land_field a 12 0 (by decide)
  rw [Int.shiftRight_zero] at masked
  rw [masked, cell, Word.low]
  omega

@[simp] theorem toNat_land (a : Int) : (Number.land a 0xFFF).toNat = cell a := by
  rw [← cell_eq_land, Int.toNat_natCast]

/-- Every address has a place in the memory, wherever a mask of twelve bits leaves it. -/
theorem getElem?_land (m : Memory) (b : Int) :
    0 ≤ Number.land b 0xFFF ∧ m.bytes[(Number.land b 0xFFF).toNat]? = some (m.read b) := by
  rw [← cell_eq_land, Int.toNat_natCast]
  exact ⟨Int.natCast_nonneg _, m.getElem?_cell b⟩

end Memory

/-! ## Handlers -/

namespace Opcode

/-- What a mask leaves of a number, moved down. -/
def field (opcode mask : Int) (shift : Nat) : Nat := (Number.land opcode mask >>> shift).toNat

theorem field_le (opcode : Int) {mask : Int} (h : 0 ≤ mask) (shift : Nat) :
    field opcode mask shift ≤ (mask >>> shift).toNat := by
  unfold field
  rw [Int.shiftRight_eq_div_pow, Int.shiftRight_eq_div_pow]
  have positive : (0 : Int) < (2 ^ shift : Nat) := Int.natCast_pos.mpr (Nat.two_pow_pos shift)
  exact Int.toNat_le_toNat (Int.ediv_le_ediv positive (Number.land_le opcode h))

/-- The register of the second digit. -/
def x (opcode : Int) : Register :=
  ⟨field opcode 0x0F00 8, Nat.lt_of_le_of_lt (field_le opcode (by decide) 8) (by decide)⟩

/-- The register of the third digit. -/
def y (opcode : Int) : Register :=
  ⟨field opcode 0x00F0 4, Nat.lt_of_le_of_lt (field_le opcode (by decide) 4) (by decide)⟩

/-- The last digit. -/
def n (opcode : Int) : Fin 16 :=
  ⟨field opcode 0x000F 0, Nat.lt_of_le_of_lt (field_le opcode (by decide) 0) (by decide)⟩

/-- The last two digits. -/
def byte (opcode : Int) : Fin 256 :=
  ⟨field opcode 0x00FF 0, Nat.lt_of_le_of_lt (field_le opcode (by decide) 0) (by decide)⟩

/-- The last three digits. -/
def address (opcode : Int) : Fin 4096 :=
  ⟨field opcode 0x0FFF 0, Nat.lt_of_le_of_lt (field_le opcode (by decide) 0) (by decide)⟩

variable (opcode : Int)

theorem field_eq (width shift : Nat) (narrow : (2 ^ width - 1) * 2 ^ shift < 65536) :
    field opcode ((2 ^ width - 1) * 2 ^ shift : Nat) shift
      = Word.low opcode / 2 ^ shift % 2 ^ width :=
  congrArg Int.toNat (Number.land_field opcode width shift narrow)

@[simp] theorem x_eq : x opcode = Word.x (Word.low opcode) :=
  Fin.ext (field_eq opcode 4 8 (by decide))

@[simp] theorem y_eq : y opcode = Word.y (Word.low opcode) :=
  Fin.ext (field_eq opcode 4 4 (by decide))

@[simp] theorem n_eq : n opcode = Word.n (Word.low opcode) :=
  Fin.ext ((field_eq opcode 4 0 (by decide)).trans (by simp [Word.n]))

@[simp] theorem byte_eq : byte opcode = Word.byte (Word.low opcode) :=
  Fin.ext ((field_eq opcode 8 0 (by decide)).trans (by simp [Word.byte]))

@[simp] theorem address_eq : address opcode = Word.address (Word.low opcode) :=
  Fin.ext ((field_eq opcode 12 0 (by decide)).trans (by simp [Word.address]))

end Opcode

namespace Instruction

/-- The handlers: a key, and the instruction that is read from a number. -/
def handlers : List (Int × (Int → Instruction)) :=
  [ (0x00E0, fun _ => .clear),
    (0x00EE, fun _ => .ret),
    (0x1000, fun o => .jump (Opcode.address o)),
    (0x2000, fun o => .call (Opcode.address o)),
    (0x3000, fun o => .skip (.byte (Opcode.x o) (Opcode.byte o)) true),
    (0x4000, fun o => .skip (.byte (Opcode.x o) (Opcode.byte o)) false),
    (0x5000, fun o => .skip (.register (Opcode.x o) (Opcode.y o)) true),
    (0x6000, fun o => .assign (Opcode.x o) (Opcode.byte o)),
    (0x7000, fun o => .increase (Opcode.x o) (Opcode.byte o)),
    (0x8000, fun o => .combine .copy (Opcode.x o) (Opcode.y o)),
    (0x8001, fun o => .combine .or (Opcode.x o) (Opcode.y o)),
    (0x8002, fun o => .combine .and (Opcode.x o) (Opcode.y o)),
    (0x8003, fun o => .combine .xor (Opcode.x o) (Opcode.y o)),
    (0x8004, fun o => .combine .add (Opcode.x o) (Opcode.y o)),
    (0x8005, fun o => .combine .sub (Opcode.x o) (Opcode.y o)),
    (0x8006, fun o => .combine .shiftRight (Opcode.x o) (Opcode.y o)),
    (0x8007, fun o => .combine .subFrom (Opcode.x o) (Opcode.y o)),
    (0x800E, fun o => .combine .shiftLeft (Opcode.x o) (Opcode.y o)),
    (0x9000, fun o => .skip (.register (Opcode.x o) (Opcode.y o)) false),
    (0xA000, fun o => .point (Opcode.address o)),
    (0xB000, fun o => .jumpBy (Opcode.address o)),
    (0xC000, fun o => .random (Opcode.x o) (Opcode.byte o)),
    (0xD000, fun o => .draw (Opcode.x o) (Opcode.y o) (Opcode.n o)),
    (0xE09E, fun o => .skip (.key (Opcode.x o)) true),
    (0xE0A1, fun o => .skip (.key (Opcode.x o)) false),
    (0xF007, fun o => .readDelay (Opcode.x o)),
    (0xF00A, fun o => .awaitKey (Opcode.x o)),
    (0xF015, fun o => .startDelay (Opcode.x o)),
    (0xF018, fun o => .startSound (Opcode.x o)),
    (0xF01E, fun o => .movePointer (Opcode.x o)),
    (0xF029, fun o => .pointToGlyph (Opcode.x o)),
    (0xF033, fun o => .writeDecimal (Opcode.x o)),
    (0xF055, fun o => .save (Opcode.x o)),
    (0xF065, fun o => .restore (Opcode.x o)) ]

/-! ## Masks -/

/-- The masks, with the patterns that are looked for under each. -/
def masks : List (Int × List Int) :=
  [ (0xFFFF, [0x00E0, 0x00EE]),
    (0xF0FF, [0xE09E, 0xE0A1, 0xF007, 0xF00A, 0xF015, 0xF018, 0xF01E, 0xF029, 0xF033, 0xF055,
      0xF065]),
    (0xF00F, [0x5000, 0x8000, 0x8001, 0x8002, 0x8003, 0x8004, 0x8005, 0x8006, 0x8007, 0x800E,
      0x9000]),
    (0xF000, [0x1000, 0x2000, 0x3000, 0x4000, 0x6000, 0x7000, 0xA000, 0xB000, 0xC000, 0xD000]) ]

/-- Every pattern beside its mask. -/
def pairs (table : List (Int × List Int)) : List (Int × Int) :=
  table.flatMap fun entry => entry.2.map fun pattern => (entry.1, pattern)

/-- What the first mask leaves that leaves one of its patterns. -/
def key? : List (Int × List Int) → Int → Option Int
  | [], _ => none
  | (mask, patterns) :: table, opcode =>
    if Number.land opcode mask ∈ patterns then some (Number.land opcode mask)
    else key? table opcode

/-- The handler that a number is given to, if it is given to one. A key without a handler is an
error. -/
def find (table : List (Int × List Int)) (opcode : Int) : Except Int (Option (Int → Instruction)) :=
  match key? table opcode with
  | none => .ok none
  | some key =>
    match handlers.lookup key with
    | some handler => .ok (some handler)
    | none => .error key

/-- A mask leaves the pattern beside it. -/
def Leaves (opcode : Int) (pair : Int × Int) : Prop := Number.land opcode pair.1 = pair.2

/-! ## Rows -/

/-- The digit at a place of a row. A letter stands for any digit. -/
def digit? : Char → Option Nat
  | '0' => some 0x0
  | '1' => some 0x1
  | '2' => some 0x2
  | '3' => some 0x3
  | '4' => some 0x4
  | '5' => some 0x5
  | '6' => some 0x6
  | '7' => some 0x7
  | '8' => some 0x8
  | '9' => some 0x9
  | 'A' => some 0xA
  | 'B' => some 0xB
  | 'C' => some 0xC
  | 'D' => some 0xD
  | 'E' => some 0xE
  | 'F' => some 0xF
  | _ => none

/-- A form of word and what the words of this form mean. -/
structure Row where
  form : String
  read : Nat → Instruction

/-- The table of instruction words. The letters are those of the operands, `nnn` for an address,
`kk` for a byte, `x` and `y` for registers and `n` for a single digit. -/
def rows : List Row :=
  [ ⟨"00E0", fun _ => .clear⟩,
    ⟨"00EE", fun _ => .ret⟩,
    ⟨"1nnn", fun w => .jump (Word.address w)⟩,
    ⟨"2nnn", fun w => .call (Word.address w)⟩,
    ⟨"3xkk", fun w => .skip (.byte (Word.x w) (Word.byte w)) true⟩,
    ⟨"4xkk", fun w => .skip (.byte (Word.x w) (Word.byte w)) false⟩,
    ⟨"5xy0", fun w => .skip (.register (Word.x w) (Word.y w)) true⟩,
    ⟨"9xy0", fun w => .skip (.register (Word.x w) (Word.y w)) false⟩,
    ⟨"6xkk", fun w => .assign (Word.x w) (Word.byte w)⟩,
    ⟨"7xkk", fun w => .increase (Word.x w) (Word.byte w)⟩,
    ⟨"8xy0", fun w => .combine .copy (Word.x w) (Word.y w)⟩,
    ⟨"8xy1", fun w => .combine .or (Word.x w) (Word.y w)⟩,
    ⟨"8xy2", fun w => .combine .and (Word.x w) (Word.y w)⟩,
    ⟨"8xy3", fun w => .combine .xor (Word.x w) (Word.y w)⟩,
    ⟨"8xy4", fun w => .combine .add (Word.x w) (Word.y w)⟩,
    ⟨"8xy5", fun w => .combine .sub (Word.x w) (Word.y w)⟩,
    ⟨"8xy6", fun w => .combine .shiftRight (Word.x w) (Word.y w)⟩,
    ⟨"8xy7", fun w => .combine .subFrom (Word.x w) (Word.y w)⟩,
    ⟨"8xyE", fun w => .combine .shiftLeft (Word.x w) (Word.y w)⟩,
    ⟨"Annn", fun w => .point (Word.address w)⟩,
    ⟨"Bnnn", fun w => .jumpBy (Word.address w)⟩,
    ⟨"Cxkk", fun w => .random (Word.x w) (Word.byte w)⟩,
    ⟨"Dxyn", fun w => .draw (Word.x w) (Word.y w) (Word.n w)⟩,
    ⟨"Ex9E", fun w => .skip (.key (Word.x w)) true⟩,
    ⟨"ExA1", fun w => .skip (.key (Word.x w)) false⟩,
    ⟨"Fx07", fun w => .readDelay (Word.x w)⟩,
    ⟨"Fx0A", fun w => .awaitKey (Word.x w)⟩,
    ⟨"Fx15", fun w => .startDelay (Word.x w)⟩,
    ⟨"Fx18", fun w => .startSound (Word.x w)⟩,
    ⟨"Fx1E", fun w => .movePointer (Word.x w)⟩,
    ⟨"Fx29", fun w => .pointToGlyph (Word.x w)⟩,
    ⟨"Fx33", fun w => .writeDecimal (Word.x w)⟩,
    ⟨"Fx55", fun w => .save (Word.x w)⟩,
    ⟨"Fx65", fun w => .restore (Word.x w)⟩ ]

/-- A place of a row stands for a digit. -/
def Stands (place : Char) (d : Nat) : Prop := ∀ e ∈ digit? place, e = d

instance (place : Char) (d : Nat) : Decidable (Stands place d) := by
  unfold Stands
  infer_instance

namespace Row

/-- A word has the digits of a row at their places. -/
def Fits (row : Row) (w : Nat) : Prop := List.Forall₂ Stands row.form.toList (Word.digits w)

instance (row : Row) (w : Nat) : Decidable (row.Fits w) := by
  unfold Fits
  infer_instance

/-- The digit of the mask at a place: all bits where the row has a digit. -/
def maskDigit (place : Char) : Nat := if (digit? place).isSome then 15 else 0

/-- The digit of the pattern at a place. -/
def patternDigit (place : Char) : Nat := (digit? place).getD 0

/-- The number that digits make up behind another one. -/
def join (v : Nat) (ds : List Nat) : Nat := ds.foldl (fun v d => 16 * v + d) v

/-- The mask of a row has all bits of the digits and none of the letters. -/
def mask (row : Row) : Nat := join 0 (row.form.toList.map maskDigit)

/-- The digits of a row, with zeros for the letters. -/
def pattern (row : Row) : Nat := join 0 (row.form.toList.map patternDigit)

theorem stands_iff {c : Char} {d : Nat} (hd : d < 16) :
    d &&& maskDigit c = patternDigit c ↔ Stands c d := by
  unfold maskDigit patternDigit Stands
  cases digit? c with
  | none => simp
  | some e =>
    have all : d &&& 15 = d := (Nat.and_two_pow_sub_one_eq_mod d 4).trans (Nat.mod_eq_of_lt hd)
    simp [all, eq_comm]

theorem maskDigit_lt (c : Char) : maskDigit c < 16 := by
  unfold maskDigit
  split <;> decide

theorem patternDigit_lt (c : Char) : patternDigit c < 16 := by
  unfold patternDigit digit?
  split <;> decide

theorem join_digits {w : Nat} (h : w < 65536) : join 0 (Word.digits w) = w := by
  simp only [join, Word.digits, List.foldl_cons, List.foldl_nil]
  omega

theorem and_behind {v m d e : Nat} (hd : d < 16) (he : e < 16) :
    (16 * v + d) &&& (16 * m + e) = 16 * (v &&& m) + (d &&& e) := by
  have front := Nat.and_div_two_pow (a := 16 * v + d) (b := 16 * m + e) (n := 4)
  have back := Nat.and_mod_two_pow (a := 16 * v + d) (b := 16 * m + e) (n := 4)
  have front_v : (16 * v + d) / 2 ^ 4 = v := by omega
  have front_m : (16 * m + e) / 2 ^ 4 = m := by omega
  have back_d : (16 * v + d) % 2 ^ 4 = d := by omega
  have back_e : (16 * m + e) % 2 ^ 4 = e := by omega
  rw [front_v, front_m] at front
  rw [back_d, back_e] at back
  omega

/-- A mask looks at each digit by itself. -/
theorem join_and_eq_iff {cs : List Char} {ds : List Nat} (length : cs.length = ds.length)
    (small : ∀ d ∈ ds, d < 16) (v m p : Nat) :
    join v ds &&& join m (cs.map maskDigit) = join p (cs.map patternDigit) ↔
      v &&& m = p ∧ List.Forall₂ Stands cs ds := by
  induction cs generalizing ds v m p with
  | nil =>
    rw [List.length_eq_zero_iff.mp length.symm]
    simp [join]
  | cons c cs ih =>
    obtain ⟨d, ds, rfl⟩ := List.exists_cons_of_length_eq_add_one length.symm
    have hd := small d (List.mem_cons_self ..)
    have hp := patternDigit_lt c
    have cut : d &&& maskDigit c < 16 := Nat.lt_of_le_of_lt Nat.and_le_left hd
    have rest : ∀ d ∈ ds, d < 16 := fun d hd => small d (List.mem_cons_of_mem _ hd)
    -- the digit in front goes to the numbers that the rest of the digits are behind
    refine (ih (Nat.succ.inj length) rest (16 * v + d) (16 * m + maskDigit c)
      (16 * p + patternDigit c)).trans ?_
    rw [List.forall₂_cons, ← stands_iff hd, and_behind hd (maskDigit_lt c), ← and_assoc]
    refine and_congr_left fun _ => ?_
    omega

end Row

/-- Every row has four places, and so a mask of sixteen bits. -/
theorem rows_narrow : ∀ row ∈ rows, row.form.toList.length = 4 ∧ row.mask < 65536 := by
  decide +kernel

/-- A word fits a row if the mask of the row leaves the pattern. -/
theorem fits_iff {row : Row} (h : row ∈ rows) (opcode : Int) :
    row.Fits (Word.low opcode) ↔ Leaves opcode (row.mask, row.pattern) := by
  obtain ⟨four, narrow⟩ := rows_narrow row h
  have low := Word.low_lt opcode
  have places := Row.join_and_eq_iff four (Word.digit_lt low) 0 0 0
  rw [Row.join_digits low] at places
  rw [Leaves, Number.land_low opcode narrow, Int.natCast_inj, Row.mask, Row.pattern, places]
  exact (and_iff_right rfl).symm

/-- The patterns under the masks are the rows in another order. -/
theorem pairs_perm :
    (pairs masks).Perm (rows.map fun row => ((row.mask : Int), (row.pattern : Int))) := by
  decide +kernel

/-- Two places may stand for one digit. -/
def Agree (c c' : Char) : Prop := ∀ e ∈ digit? c, ∀ e' ∈ digit? c', e = e'

instance (c c' : Char) : Decidable (Agree c c') := by
  unfold Agree
  infer_instance

theorem agree_of_stands {cs cs' : List Char} {ds : List Nat} (h : List.Forall₂ Stands cs ds)
    (h' : List.Forall₂ Stands cs' ds) : List.Forall₂ Agree cs cs' := by
  induction h generalizing cs' with
  | nil =>
    cases h'
    exact .nil
  | cons here _ ih =>
    cases h' with
    | cons here' rest' =>
      exact .cons (fun e he e' he' => (here e he).trans (here' e' he').symm) (ih rest')

/-- Any two rows have a place where both have a digit and not the same. -/
theorem rows_clash : rows.Pairwise fun a b => ¬List.Forall₂ Agree a.form.toList b.form.toList := by
  decide +kernel

/-- No word fits two rows. -/
theorem rows_apart : rows.Pairwise fun a b => ∀ w, ¬(a.Fits w ∧ b.Fits w) :=
  rows_clash.imp fun clash _ fit => clash (agree_of_stands fit.1 fit.2)

/-- The handler whose key is the pattern of a row reads from a number what the row says of its low
sixteen bits. -/
theorem handler_of_row : ∀ row ∈ rows, ∃ handler,
    handlers.lookup (row.pattern : Int) = some handler ∧
      ∀ opcode, handler opcode = row.read (Word.low opcode) := by
  simp only [rows, List.forall_mem_cons, List.not_mem_nil, false_imp_iff, implies_true, and_true]
  and_intros
  all_goals exact ⟨_, rfl, fun opcode => by simp⟩

/-- A word fits a row if it is the word of what the row reads. -/
theorem fits_iff_encode {w : Nat} (h : w < 65536) : ∀ row ∈ rows,
    (row.Fits w ↔ (row.read w).encode = w) := by
  simp only [rows, List.forall_mem_cons, List.not_mem_nil, false_imp_iff, implies_true, and_true]
  and_intros
  all_goals
    simp only [encode, nibbles, withByte, withAddress, Word.x, Word.y, Word.n, Word.byte,
      Word.address, Operation.code]
    simp [Row.Fits, Word.digits, Stands, digit?]
    omega

/-- Every instruction is read by a row. -/
theorem exists_read (i : Instruction) : ∃ row ∈ rows, row.read i.encode = i := by
  simp only [rows, List.exists_mem_cons_iff, List.not_mem_nil, false_and, exists_false, or_false]
  cases i with
  | skip test wanted =>
    cases test <;> cases wanted <;> simp [encode, withByte_fields, byte_withByte, nibbles_fields]
  | combine op x y => cases op <;> simp [encode, nibbles_fields, Operation.code]
  | _ =>
    simp [encode, withByte_fields, byte_withByte, nibbles_fields, n_nibbles, withAddress_fields]

/-- A number is read as the row reads it that its low sixteen bits fit. -/
theorem decode?_of_fits {row : Row} (h : row ∈ rows) {opcode : Int}
    (fits : row.Fits (Word.low opcode)) : decode? opcode = some (row.read (Word.low opcode)) := by
  rw [decode?_eq_some_iff, (fits_iff_encode (Word.low_lt opcode) row h).mp fits, Word.low]
  omega

theorem exists_fits {opcode : Int} {i : Instruction} (h : decode? opcode = some i) :
    ∃ row ∈ rows, row.Fits (Word.low opcode) := by
  obtain ⟨row, given, read⟩ := exists_read i
  have low : Word.low opcode = i.encode := by
    rw [Word.low, decode?_eq_some_iff.mp h, Int.toNat_natCast]
  refine ⟨row, given, (fits_iff_encode (Word.low_lt opcode) row given).mpr ?_⟩
  rw [low, read]

end Instruction
end Chip8Vm
