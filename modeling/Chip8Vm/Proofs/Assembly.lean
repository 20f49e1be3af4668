import Mathlib.Algebra.Ring.Nat
import Chip8Vm.Instruction.Text
import Chip8Vm.Proofs.Bytes

/-!
# Reading assembly text

The text of an instruction says everything about it: whoever reads the text knows the instruction
(`Instruction.read_text`). The reader goes by words. It leaves out the commas, takes the text apart
at the spaces, and finds out of each word by itself what it is, a keyword, a register, a number, an
address or a mask (`Token.ofChars`). What the words mean together is a table
(`Instruction.ofTokens?`); the mnemonic alone does not decide it, for there are ten kinds of `LD`.
-/

set_option autoImplicit false

namespace Chip8Vm

namespace Number

/-! ## Numerals -/

/-- The value of a digit up to `f`. -/
def digitValue (c : Char) : Nat := ((List.range 16).find? fun d => Nat.digitChar d == c).getD 0

/-- The value of a row of digits. -/
def value (base : Nat) (digits : List Char) : Nat :=
  digits.foldl (fun v c => base * v + digitValue c) 0

theorem digitValue_digitChar {d : Nat} (hd : d < 16) : digitValue (Nat.digitChar d) = d := by
  revert d
  decide

theorem value_toDigits {base : Nat} (hb : 1 < base) (hb' : base ≤ 16) (n : Nat) :
    value base (Nat.toDigits base n) = n := by
  induction n using Nat.strongRecOn with
  | _ n ih =>
    by_cases hn : n < base
    · rw [Nat.toDigits_of_lt_base hn, value, List.foldl_cons, List.foldl_nil,
        digitValue_digitChar (by omega)]
      omega
    · have small : n / base < n := Nat.div_lt_self (by omega) hb
      have last : n % base < 16 := Nat.lt_of_lt_of_le (Nat.mod_lt n (by omega)) hb'
      rw [Nat.toDigits_of_base_le hb (by omega), value, List.foldl_append, ← value, ih _ small,
        List.foldl_cons, List.foldl_nil, digitValue_digitChar last, Nat.div_add_mod]

/-- Zeros in front make no difference to a value. -/
theorem value_zeroPad (base width : Nat) (digits : List Char) :
    value base (zeroPad width digits) = value base digits := by
  unfold zeroPad value
  rw [List.foldl_append]
  congr 1
  induction width - digits.length with
  | zero => rfl
  | succ n ih =>
    rw [List.replicate_succ, List.foldl_cons]
    exact ih

/-- The value of a row of digits where there is room for values up to `most`. -/
def residue (base most : Nat) (digits : List Char) : Fin (most + 1) :=
  ⟨value base digits % (most + 1), Nat.mod_lt _ most.succ_pos⟩

theorem residue_of_value {base most : Nat} {digits : List Char} {n : Fin (most + 1)}
    (h : value base digits = n.val) : residue base most digits = n := by
  refine Fin.ext ?_
  show value base digits % (most + 1) = n.val
  rw [h, Nat.mod_eq_of_lt n.isLt]

/-- The digits of an address or a mask. -/
def hexDigits (width n : Nat) : List Char := zeroPad width (Nat.toDigits 16 n)

theorem toList_hex (width n : Nat) : (hex width n).toList = hexDigits width n :=
  String.toList_ofList

theorem value_hexDigits (width n : Nat) : value 16 (hexDigits width n) = n := by
  rw [hexDigits, value_zeroPad, value_toDigits (by decide) (by decide)]

/-- A number that fits in a width takes up all of it. -/
theorem length_hexDigits {width n : Nat} (hw : 0 < width) (hn : n < 16 ^ width) :
    (hexDigits width n).length = width := by
  have := (Nat.length_toDigits_le_iff (b := 16) (by decide) hw).mpr hn
  rw [hexDigits, zeroPad, List.length_append, List.length_replicate]
  omega

theorem digit_of_mem_toDigits {base n : Nat} (hb : 1 < base) (hb' : base ≤ 16) {c : Char}
    (hc : c ∈ Nat.toDigits base n) : ∃ d < 16, c = Nat.digitChar d := by
  induction n using Nat.strongRecOn with
  | _ n ih =>
    by_cases hn : n < base
    · rw [Nat.toDigits_of_lt_base hn, List.mem_singleton] at hc
      exact ⟨n, by omega, hc⟩
    · rw [Nat.toDigits_of_base_le hb (by omega), List.mem_append, List.mem_singleton] at hc
      rcases hc with hc | hc
      · exact ih _ (Nat.div_lt_self (by omega) hb) hc
      · exact ⟨n % base, Nat.lt_of_lt_of_le (Nat.mod_lt n (by omega)) hb', hc⟩

end Number

/-! ## Words -/

/-- A word that stands for itself. -/
inductive Keyword where
  | cls | ret | jp | call | se | sne | skp | sknp | ld | or | and | xor | add | sub | shr | subn
  | shl | rnd | drw
  /-- The index. -/
  | i
  /-- The cells that the index points to. -/
  | atI
  | dt | st | k | f | b
  deriving DecidableEq

namespace Keyword

def text : Keyword → String
  | cls => "CLS"
  | ret => "RET"
  | jp => "JP"
  | call => "CALL"
  | se => "SE"
  | sne => "SNE"
  | skp => "SKP"
  | sknp => "SKNP"
  | ld => "LD"
  | or => "OR"
  | and => "AND"
  | xor => "XOR"
  | add => "ADD"
  | sub => "SUB"
  | shr => "SHR"
  | subn => "SUBN"
  | shl => "SHL"
  | rnd => "RND"
  | drw => "DRW"
  | i => "I"
  | atI => "[I]"
  | dt => "DT"
  | st => "ST"
  | k => "K"
  | f => "F"
  | b => "B"

def all : List Keyword :=
  [cls, ret, jp, call, se, sne, skp, sknp, ld, or, and, xor, add, sub, shr, subn, shl, rnd, drw,
    i, atI, dt, st, k, f, b]

/-- The keyword of a word, if it is one. -/
def ofChars? (word : List Char) : Option Keyword :=
  all.find? fun keyword => keyword.text.toList == word

end Keyword

/-- A word of an assembly text. -/
inductive Token where
  | word (keyword : Keyword)
  | register (x : Register)
  | number (n : Fin 256)
  | address (a : Fin 4096)
  | mask (m : Fin 256)

namespace Token

/-- How a token is written. -/
def chars : Token → List Char
  | word keyword => keyword.text.toList
  | register x => 'V' :: Nat.toDigits 10 x.val
  | number n => Nat.toDigits 10 n.val
  | address a => '0' :: 'x' :: Number.hexDigits 4 a.val
  | mask m => '0' :: 'x' :: Number.hexDigits 2 m.val

/-- The token of a word. An address has four digits, a mask two. -/
def ofChars? (word : List Char) : Option Token :=
  if word.all Char.isDigit then some (number (Number.residue 10 255 word))
  else
    match word with
    | 'V' :: digits => some (register (Number.residue 10 15 digits))
    | '0' :: 'x' :: digits =>
      if digits.length = 4 then some (address (Number.residue 16 4095 digits))
      else some (mask (Number.residue 16 255 digits))
    | _ => (Keyword.ofChars? word).map .word

theorem ofChars?_chars (token : Token) : ofChars? token.chars = some token := by
  have decimal : ∀ n, Number.value 10 (Nat.toDigits 10 n) = n :=
    Number.value_toDigits (by decide) (by decide)
  cases token with
  | word keyword => cases keyword <;> rfl
  | register x => exact congrArg (some ∘ register) (Number.residue_of_value (decimal x.val))
  | number n =>
    have digits : (Nat.toDigits 10 n.val).all Char.isDigit = true := by
      rw [List.all_eq_true]
      exact fun c hc => Nat.isDigit_of_mem_toDigits (by decide) (by decide) hc
    refine (if_pos digits).trans ?_
    exact congrArg (some ∘ number) (Number.residue_of_value (decimal n.val))
  | address a =>
    have length : (Number.hexDigits 4 a.val).length = 4 :=
      Number.length_hexDigits (by decide) (by omega)
    refine Eq.trans (if_pos length) ?_
    exact congrArg (some ∘ address) (Number.residue_of_value (Number.value_hexDigits 4 a.val))
  | mask m =>
    have length : (Number.hexDigits 2 m.val).length ≠ 4 := by
      rw [Number.length_hexDigits (by decide) (by omega)]
      decide
    refine Eq.trans (if_neg length) ?_
    exact congrArg (some ∘ mask) (Number.residue_of_value (Number.value_hexDigits 2 m.val))

/-- No word has a space or a comma in it. -/
theorem ne_of_mem_chars {token : Token} {c : Char} (hc : c ∈ token.chars) : c ≠ ' ' ∧ c ≠ ',' := by
  have digit : ∀ d < 16, Nat.digitChar d ≠ ' ' ∧ Nat.digitChar d ≠ ',' := by decide
  have numeral : ∀ base n, 1 < base → base ≤ 16 → ∀ c ∈ Nat.toDigits base n, c ≠ ' ' ∧ c ≠ ',' := by
    intro base n hb hb' c hc
    obtain ⟨d, hd, rfl⟩ := Number.digit_of_mem_toDigits hb hb' hc
    exact digit d hd
  have padded : ∀ width n, ∀ c ∈ Number.hexDigits width n, c ≠ ' ' ∧ c ≠ ',' := by
    intro width n c hc
    rcases List.mem_append.mp hc with zero | hc
    · rw [List.eq_of_mem_replicate zero]
      decide
    · exact numeral 16 n (by decide) (by decide) c hc
  cases token with
  | word keyword =>
    have letters : keyword.text.toList.all (fun c => c != ' ' && c != ',') = true := by
      cases keyword <;> rfl
    simpa using List.all_eq_true.mp letters c hc
  | register x =>
    rcases List.mem_cons.mp hc with rfl | hc
    · decide
    · exact numeral 10 x.val (by decide) (by decide) c hc
  | number n => exact numeral 10 n.val (by decide) (by decide) c hc
  | address a =>
    simp only [chars, List.mem_cons] at hc
    rcases hc with rfl | rfl | hc
    · decide
    · decide
    · exact padded 4 a.val c hc
  | mask m =>
    simp only [chars, List.mem_cons] at hc
    rcases hc with rfl | rfl | hc
    · decide
    · decide
    · exact padded 2 m.val c hc

theorem filter_chars (token : Token) : token.chars.filter (· ≠ ',') = token.chars :=
  List.filter_eq_self.mpr fun _ hc => by simpa using (ne_of_mem_chars hc).2

end Token

/-! ## Texts -/

/-- The mnemonic of an operation. -/
def Operation.keyword : Operation → Keyword
  | copy => .ld
  | or => .or
  | and => .and
  | xor => .xor
  | add => .add
  | sub => .sub
  | shiftRight => .shr
  | subFrom => .subn
  | shiftLeft => .shl

namespace Instruction

/-- The words of the text of an instruction. -/
def tokens : Instruction → List Token
  | clear => [.word .cls]
  | ret => [.word .ret]
  | jump target => [.word .jp, .address target]
  | call target => [.word .call, .address target]
  | skip (.byte x value) wanted =>
    [.word (if wanted then .se else .sne), .register x, .number value]
  | skip (.register x y) wanted =>
    [.word (if wanted then .se else .sne), .register x, .register y]
  | skip (.key x) wanted => [.word (if wanted then .skp else .sknp), .register x]
  | assign x value => [.word .ld, .register x, .number value]
  | increase x value => [.word .add, .register x, .number value]
  | combine op x y => [.word op.keyword, .register x, .register y]
  | point address => [.word .ld, .word .i, .address address]
  | jumpBy base => [.word .jp, .register (Number.residue 10 15 ['0']), .address base]
  | random x mask => [.word .rnd, .register x, .mask mask]
  | draw x y height => [.word .drw, .register x, .register y, .number (height.castLE (by decide))]
  | readDelay x => [.word .ld, .register x, .word .dt]
  | awaitKey x => [.word .ld, .register x, .word .k]
  | startDelay x => [.word .ld, .word .dt, .register x]
  | startSound x => [.word .ld, .word .st, .register x]
  | movePointer x => [.word .add, .word .i, .register x]
  | pointToGlyph x => [.word .ld, .word .f, .register x]
  | writeDecimal x => [.word .ld, .word .b, .register x]
  | save last => [.word .ld, .word .atI, .register last]
  | restore last => [.word .ld, .register last, .word .atI]

/-- The instruction that words say, if they say one. -/
def ofTokens? : List Token → Option Instruction
  | [.word .cls] => some clear
  | [.word .ret] => some ret
  | [.word .jp, .address target] => some (jump target)
  | [.word .call, .address target] => some (call target)
  | [.word .se, .register x, .number value] => some (skip (.byte x value) true)
  | [.word .sne, .register x, .number value] => some (skip (.byte x value) false)
  | [.word .se, .register x, .register y] => some (skip (.register x y) true)
  | [.word .sne, .register x, .register y] => some (skip (.register x y) false)
  | [.word .skp, .register x] => some (skip (.key x) true)
  | [.word .sknp, .register x] => some (skip (.key x) false)
  | [.word .ld, .register x, .number value] => some (assign x value)
  | [.word .add, .register x, .number value] => some (increase x value)
  | [.word .ld, .register x, .register y] => some (combine .copy x y)
  | [.word .or, .register x, .register y] => some (combine .or x y)
  | [.word .and, .register x, .register y] => some (combine .and x y)
  | [.word .xor, .register x, .register y] => some (combine .xor x y)
  | [.word .add, .register x, .register y] => some (combine .add x y)
  | [.word .sub, .register x, .register y] => some (combine .sub x y)
  | [.word .shr, .register x, .register y] => some (combine .shiftRight x y)
  | [.word .subn, .register x, .register y] => some (combine .subFrom x y)
  | [.word .shl, .register x, .register y] => some (combine .shiftLeft x y)
  | [.word .ld, .word .i, .address address] => some (point address)
  | [.word .jp, .register _, .address base] => some (jumpBy base)
  | [.word .rnd, .register x, .mask mask] => some (random x mask)
  | [.word .drw, .register x, .register y, .number height] =>
    some (draw x y ⟨height.val % 16, Nat.mod_lt height.val (by decide)⟩)
  | [.word .ld, .register x, .word .dt] => some (readDelay x)
  | [.word .ld, .register x, .word .k] => some (awaitKey x)
  | [.word .ld, .word .dt, .register x] => some (startDelay x)
  | [.word .ld, .word .st, .register x] => some (startSound x)
  | [.word .add, .word .i, .register x] => some (movePointer x)
  | [.word .ld, .word .f, .register x] => some (pointToGlyph x)
  | [.word .ld, .word .b, .register x] => some (writeDecimal x)
  | [.word .ld, .word .atI, .register last] => some (save last)
  | [.word .ld, .register last, .word .atI] => some (restore last)
  | _ => none

/-- No two instructions have the same words. -/
theorem ofTokens?_tokens (i : Instruction) : ofTokens? i.tokens = some i := by
  cases i with
  | skip test wanted => cases test <;> cases wanted <;> rfl
  | combine op x y => cases op <;> rfl
  | draw x y height =>
    exact congrArg (fun h => some (draw x y h)) (Fin.ext (Nat.mod_eq_of_lt height.isLt))
  | _ => rfl

/-- Operands as they are written behind a mnemonic. -/
def operandChars : List Token → List Char
  | [] => []
  | [token] => ' ' :: token.chars
  | token :: tokens => ' ' :: token.chars ++ ',' :: operandChars tokens

/-- Words as they are written. -/
def written : List Token → List Char
  | [] => []
  | mnemonic :: operands => mnemonic.chars ++ operandChars operands

theorem toList_registerText (x : Register) :
    (registerText x).toList = (Token.register x).chars := by
  rw [registerText, String.toList_append]
  exact congrArg (List.cons 'V') Nat.toList_repr

theorem toList_addressText (a : Fin 4096) : (addressText a).toList = (Token.address a).chars := by
  rw [addressText, String.toList_append, Number.toList_hex]
  rfl

/-- The words of a text are those that it is made of. -/
theorem toList_text (i : Instruction) : i.text.toList = written i.tokens := by
  have number : ∀ n : Nat, (toString n).toList = Nat.toDigits 10 n := fun _ => Nat.toList_repr
  cases i with
  | skip test wanted =>
    cases test <;> cases wanted <;>
      simp only [text, String.toList_append, toList_registerText, number, List.append_assoc] <;> rfl
  | combine op x y =>
    simp only [text, String.toList_append, toList_registerText, List.append_assoc]
    cases op <;> rfl
  | jump | call | point | jumpBy =>
    simp only [text, String.toList_append, toList_addressText]
    rfl
  | random x mask =>
    simp only [text, String.toList_append, toList_registerText, Number.toList_hex,
      List.append_assoc]
    rfl
  | _ =>
    simp only [text, String.toList_append, toList_registerText, number, List.append_assoc]
    rfl

/-- Without their commas operands are words with a space in front of each. -/
theorem filter_operandChars (operands : List Token) :
    (operandChars operands).filter (· ≠ ',')
      = operands.flatMap fun token => ' ' :: token.chars := by
  have first : ∀ token : Token, (' ' :: token.chars).filter (· ≠ ',') = ' ' :: token.chars :=
    fun token => congrArg (List.cons ' ') token.filter_chars
  induction operands with
  | nil => rfl
  | cons token tokens ih =>
    rw [List.flatMap_cons, ← ih]
    cases tokens with
    | nil => exact (first token).trans (List.append_nil _).symm
    | cons next rest =>
      have more : operandChars (token :: next :: rest)
          = ' ' :: token.chars ++ ',' :: operandChars (next :: rest) := rfl
      rw [more, List.filter_append, first, List.filter_cons_of_neg (by decide)]

/-- Without its commas a text is its words with spaces between them. -/
theorem filter_written (tokens : List Token) :
    (written tokens).filter (· ≠ ',') = [' '].intercalate (tokens.map Token.chars) := by
  have spaced : ∀ (first : Token) (later : List Token),
      first.chars ++ later.flatMap (fun token => ' ' :: token.chars)
        = [' '].intercalate ((first :: later).map Token.chars) := by
    intro first later
    induction later generalizing first with
    | nil => simp
    | cons next later ih =>
      rw [List.map_cons, List.map_cons, List.intercalate_cons_cons, ← List.map_cons, ← ih]
      simp
  cases tokens with
  | nil => rfl
  | cons mnemonic operands =>
    rw [← spaced, written, List.filter_append, mnemonic.filter_chars, filter_operandChars]

/-- **Read an assembly text.** -/
def read (s : String) : Option Instruction :=
  (((s.toList.filter (· ≠ ',')).splitOn ' ').mapM Token.ofChars?).bind ofTokens?

/-- **Whoever reads the text of an instruction has the instruction.** -/
theorem read_text (i : Instruction) : read i.text = some i := by
  have some_word : i.tokens ≠ [] := by
    cases i with
    | skip test => cases test <;> simp [tokens]
    | _ => simp [tokens]
  have words : (i.text.toList.filter (· ≠ ',')).splitOn ' ' = i.tokens.map Token.chars := by
    rw [toList_text, filter_written]
    refine List.splitOn_intercalate ' ' (fun l hl space => ?_) (by simpa using some_word)
    obtain ⟨token, -, rfl⟩ := List.mem_map.mp hl
    exact (Token.ne_of_mem_chars space).1 rfl
  rw [read, words, mapM_of_leftInverse Token.ofChars?_chars]
  exact ofTokens?_tokens i

theorem text_injective {i j : Instruction} (h : i.text = j.text) : i = j := by
  have same : some i = some j := by rw [← read_text i, ← read_text j, h]
  exact Option.some_inj.mp same

end Instruction

end Chip8Vm
