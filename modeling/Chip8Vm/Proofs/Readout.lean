import Chip8Vm.Machine.Dump
import Chip8Vm.Proofs.Assembly

/-!
# Reading a dump

A dump is made for the eye, but what it shows is not lost in it. It falls apart into lines, because
no part of it has a line end inside (`splitOn_dump`). A line falls apart at the marks between its
numbers: an address has its four digits, a decimal ends where a character comes that is no digit,
and no list has its closing bracket inside. So each line tells what it was written from, and

> **two machines with the same dump agree in everything but what it leaves out**
> (`sameShown_of_dump`): the memory, the slots above the stack, the values to come, the register
> that waits and the flag of the display.

The rows of the display stand between a heading and the keys, a character to a pixel
(`screenPart_dump`).
-/

set_option autoImplicit false

namespace Chip8Vm

/-! ## Texts that are cut at a character -/

namespace Text

/-- A text is cut at the first place where a character is in one way only. -/
theorem cut_inj {c : Char} {a a' r r' : List Char} (ha : c ∉ a) (ha' : c ∉ a')
    (h : a ++ c :: r = a' ++ c :: r') : a = a' ∧ r = r' := by
  rcases List.append_eq_append_iff.mp h with ⟨more, rfl, rest⟩ | ⟨more, rfl, rest⟩
  · cases more with
    | nil => simpa using rest
    | cons d more =>
      obtain ⟨rfl, -⟩ := List.cons.inj rest
      simp at ha'
  · cases more with
    | nil => simpa [eq_comm] using rest
    | cons d more =>
      obtain ⟨rfl, -⟩ := List.cons.inj rest
      simp at ha

theorem not_mem_intercalate {c : Char} {sep : List Char} (hs : c ∉ sep) {words : List (List Char)}
    (h : ∀ w ∈ words, c ∉ w) : c ∉ sep.intercalate words := by
  induction words with
  | nil => simp
  | cons w ws ih =>
    have first := h w (by simp)
    have rest := ih fun v hv => h v (by simp [hv])
    cases ws with
    | nil => simpa using first
    | cons v vs => simp [List.intercalate_cons_cons, first, hs, rest]

theorem intercalate_cons (sep w : List Char) {words : List (List Char)} (h : words ≠ []) :
    sep.intercalate (w :: words) = w ++ sep ++ sep.intercalate words := by
  cases words with
  | nil => exact absurd rfl h
  | cons v vs => exact List.intercalate_cons_cons

theorem intercalate_append_cons (sep a b : List Char) (words : List (List Char)) :
    sep.intercalate ((a ++ b) :: words) = a ++ sep.intercalate (b :: words) := by
  cases words with
  | nil => rw [List.intercalate_singleton, List.intercalate_singleton]
  | cons v vs => simp only [List.intercalate_cons_cons, List.append_assoc]

/-- Words that are joined to one word in front of others are words among them. -/
theorem intercalate_joined (sep : List Char) (words last : List (List Char)) (h : words ≠ []) :
    sep.intercalate (sep.intercalate words :: last) = sep.intercalate (words ++ last) := by
  induction words with
  | nil => exact absurd rfl h
  | cons w ws ih =>
    by_cases alone : ws = []
    · rw [alone, List.intercalate_singleton, List.singleton_append]
    · rw [intercalate_cons sep w alone, intercalate_append_cons, ih alone, List.cons_append,
        intercalate_cons sep w (List.append_ne_nil_of_left_ne_nil alone last)]

theorem intercalate_nested (sep : List Char) (front words last : List (List Char))
    (h : words ≠ []) : sep.intercalate (front ++ sep.intercalate words :: last)
      = sep.intercalate (front ++ (words ++ last)) := by
  induction front with
  | nil => exact intercalate_joined sep words last h
  | cons w ws ih =>
    rw [List.cons_append, List.cons_append, intercalate_cons sep w (by simp),
      intercalate_cons sep w (by simp [h]), ih]

theorem intercalate_ne_nil (sep : List Char) {w : List Char} (hw : w ≠ [])
    (words : List (List Char)) : sep.intercalate (w :: words) ≠ [] := by
  cases words with
  | nil => simpa using hw
  | cons v vs => simp [List.intercalate_cons_cons, hw]

theorem mem_intercalate (c : Char) (sep w v : List Char) (words : List (List Char)) :
    c ∈ (c :: sep).intercalate (w :: v :: words) := by
  rw [List.intercalate_cons_cons]
  simp

/-- Words are found again between separators, if none is empty and none has in it the character
that a separator begins with. -/
theorem intercalate_inj {c : Char} {sep : List Char} {words words' : List (List Char)}
    (h : ∀ w ∈ words, w ≠ [] ∧ c ∉ w) (h' : ∀ w ∈ words', w ≠ [] ∧ c ∉ w)
    (same : (c :: sep).intercalate words = (c :: sep).intercalate words') : words = words' := by
  induction words generalizing words' with
  | nil =>
    cases words' with
    | nil => rfl
    | cons w' ws' => exact absurd same.symm (intercalate_ne_nil _ (h' w' (by simp)).1 ws')
  | cons w ws ih =>
    obtain ⟨hw, hc⟩ := h w (by simp)
    cases words' with
    | nil => exact absurd same (intercalate_ne_nil _ hw ws)
    | cons w' ws' =>
      obtain ⟨-, hc'⟩ := h' w' (by simp)
      cases ws with
      | nil =>
        cases ws' with
        | nil => simpa using same
        | cons v' vs' =>
          rw [List.intercalate_singleton] at same
          rw [same] at hc
          exact absurd (mem_intercalate c sep w' v' vs') hc
      | cons v vs =>
        cases ws' with
        | nil =>
          rw [List.intercalate_singleton] at same
          rw [← same] at hc'
          exact absurd (mem_intercalate c sep w v vs) hc'
        | cons v' vs' =>
          rw [List.intercalate_cons_cons, List.intercalate_cons_cons, List.append_assoc,
            List.append_assoc, List.cons_append, List.cons_append] at same
          obtain ⟨first, rest⟩ := cut_inj hc hc' same
          have later := ih (fun u hu => h u (List.mem_cons_of_mem w hu))
            (fun u hu => h' u (List.mem_cons_of_mem w' hu)) (List.append_cancel_left rest)
          rw [first, later]

/-! ## Numbers and lists of them -/

theorem toList_negSucc (a : Nat) : (toString (Int.negSucc a)).toList = '-' :: (a + 1).repr.toList :=
  String.toList_append

theorem isDigit_of_mem_repr {a : Nat} {c : Char} (hc : c ∈ a.repr.toList) : c.isDigit = true := by
  rw [Nat.toList_repr] at hc
  exact Nat.isDigit_of_mem_toDigits (by decide) (by decide) hc

/-- A character of a decimal is a digit or a sign. -/
theorem not_mem_decimal {c : Char} (hd : c.isDigit = false) (hs : c ≠ '-') (n : Int) :
    c ∉ (toString n).toList := by
  have digits : ∀ a : Nat, c ∉ a.repr.toList := by
    intro a hc
    rw [isDigit_of_mem_repr hc] at hd
    cases hd
  cases n with
  | ofNat a => exact digits a
  | negSucc a =>
    rw [toList_negSucc, List.mem_cons, not_or]
    exact ⟨hs, digits (a + 1)⟩

theorem decimal_ne_nil (n : Int) : (toString n).toList ≠ [] := by
  cases n with
  | ofNat a =>
    show a.repr.toList ≠ []
    rw [Nat.toList_repr]
    exact List.ne_nil_of_length_pos Nat.length_toDigits_pos
  | negSucc a =>
    rw [toList_negSucc]
    exact List.cons_ne_nil _ _

theorem decimal_inj {m n : Int} (h : (toString m).toList = (toString n).toList) : m = n := by
  have value : ∀ n, Number.value 10 (Nat.toDigits 10 n) = n :=
    Number.value_toDigits (by decide) (by decide)
  have digits : ∀ a b : Nat, a.repr.toList = b.repr.toList → a = b := by
    intro a b same
    rw [Nat.toList_repr, Nat.toList_repr] at same
    rw [← value a, same, value]
  have unsigned : ∀ a b : Nat, a.repr.toList ≠ '-' :: b.repr.toList := by
    intro a b same
    have sign : '-' ∈ a.repr.toList := by
      rw [same]
      exact List.mem_cons_self
    exact absurd (isDigit_of_mem_repr sign) (by decide)
  cases m with
  | ofNat a =>
    cases n with
    | ofNat b => exact congrArg Int.ofNat (digits a b h)
    | negSucc b =>
      rw [toList_negSucc] at h
      exact absurd h (unsigned a (b + 1))
  | negSucc a =>
    rw [toList_negSucc] at h
    cases n with
    | ofNat b => exact absurd h.symm (unsigned b (a + 1))
    | negSucc b =>
      rw [toList_negSucc] at h
      have same := digits _ _ (List.cons.inj h).2
      rw [Nat.add_right_cancel same]

theorem toList_listed (items : List Int) :
    (listed items).toList
      = '[' :: ([',', ' '].intercalate (items.map fun n => (toString n).toList) ++ [']']) := by
  rw [listed, String.toList_append, String.toList_append, String.toList_intercalate, List.map_map]
  rfl

theorem not_mem_listed {c : Char} (hd : c.isDigit = false) (hs : c ∉ ['-', ',', ' '])
    (items : List Int) : c ∉ [',', ' '].intercalate (items.map fun n => (toString n).toList) := by
  simp only [List.mem_cons, List.not_mem_nil, or_false, not_or] at hs
  apply not_mem_intercalate
  · simp [hs]
  · intro w hw
    obtain ⟨n, -, rfl⟩ := List.mem_map.mp hw
    exact not_mem_decimal hd hs.1 n

/-- A list is known from its text, whatever stands behind it. -/
theorem listed_inj {items items' : List Int} {r r' : List Char}
    (h : (listed items).toList ++ r = (listed items').toList ++ r') : items = items' ∧ r = r' := by
  have closed := fun items => not_mem_listed (c := ']') (by decide) (by decide) items
  have word : ∀ items : List Int, ∀ w ∈ items.map fun n => (toString n).toList,
      w ≠ [] ∧ ',' ∉ w := by
    intro items w hw
    obtain ⟨n, -, rfl⟩ := List.mem_map.mp hw
    exact ⟨decimal_ne_nil n, not_mem_decimal (by decide) (by decide) n⟩
  rw [toList_listed, toList_listed] at h
  simp only [List.cons_append, List.append_assoc, List.nil_append, List.cons.injEq, true_and] at h
  obtain ⟨inside, rest⟩ := cut_inj (closed items) (closed items') h
  refine ⟨?_, rest⟩
  have texts := intercalate_inj (word items) (word items') inside
  refine (List.map_inj_right ?_).mp texts
  intro m n same
  exact decimal_inj same

end Text

/-! ## The lines of a dump -/

namespace Number

/-- An address takes four characters, and they say what it is. -/
theorem toList_hex_of_range {n : Int} (h : 0 ≤ n ∧ n < 65536) :
    (hex 4 n).toList.length = 4 ∧ value 16 (hex 4 n).toList = n := by
  obtain ⟨a, rfl⟩ := Int.eq_ofNat_of_zero_le h.1
  rw [toList_hex, value_hexDigits]
  exact ⟨length_hexDigits (by decide) (by omega), rfl⟩

theorem hex_inj {n n' : Int} (h : 0 ≤ n ∧ n < 65536) (h' : 0 ≤ n' ∧ n' < 65536)
    {r r' : List Char} (same : (hex 4 n').toList ++ r' = (hex 4 n).toList ++ r) :
    n' = n ∧ r' = r := by
  obtain ⟨length, value⟩ := toList_hex_of_range h
  obtain ⟨length', value'⟩ := toList_hex_of_range h'
  obtain ⟨digits, rest⟩ := List.append_inj same (length'.trans length.symm)
  refine ⟨?_, rest⟩
  rw [← value, ← digits, value']

/-- A character of a hexadecimal is a digit or a sign. -/
theorem not_mem_hex {c : Char} (hd : ∀ d < 16, Nat.digitChar d ≠ c) (hs : c ≠ '-') (n : Int) :
    c ∉ (hex 4 n).toList := by
  have digits : ∀ width a, c ∉ hexDigits width a := by
    intro width a hc
    rcases List.mem_append.mp hc with zero | digit
    · exact hd 0 (by decide) (List.eq_of_mem_replicate zero).symm
    · obtain ⟨d, small, rfl⟩ := digit_of_mem_toDigits (by decide) (by decide) digit
      exact hd d small rfl
  cases n with
  | ofNat a =>
    show c ∉ (hex 4 (a : Int)).toList
    rw [toList_hex]
    exact digits 4 a
  | negSucc a =>
    rw [hex, String.toList_ofList, List.mem_cons, not_or]
    exact ⟨hs, digits 3 (a + 1)⟩

end Number

namespace Machine

/-- The lines of a dump. The heading and the keys have the rows of the display between them. -/
def dumpLines (m : Machine) : List String :=
  m.registerLine :: m.timerLine :: m.stackLine :: "SCREEN:"
    :: (m.display.rows.toList.map Display.rowText ++ ["KEYPAD:" ++ m.keypad.text])

theorem toList_registerLine (m : Machine) : m.registerLine.toList
    = "PC_REGISTER:0x".toList ++ ((Number.hex 4 m.pc).toList ++ (" | IDX_REGISTER:0x".toList
      ++ ((Number.hex 4 m.index).toList ++ (" | VARIABLE_REGISTERS:".toList
        ++ (Text.listed m.registers.toList).toList)))) := by
  unfold registerLine
  simp only [String.toList_append, List.append_assoc]

theorem toList_timerLine (m : Machine) : m.timerLine.toList
    = "DELAY_TIMER:".toList ++ ((toString m.delay).toList ++ (" | SOUND_TIMER:".toList
      ++ (toString m.sound).toList)) := by
  unfold timerLine
  simp only [String.toList_append, List.append_assoc]

theorem toList_stackLine (m : Machine) : m.stackLine.toList
    = "STACK:".toList ++ ((Text.listed m.stack.live).toList ++ (" | SP:".toList
      ++ (toString m.stack.pointer.val).toList)) := by
  unfold stackLine CallStack.text
  simp only [String.toList_append, List.append_assoc]

theorem registerLine_inj {m m' : Machine} (h : m.WellFormed) (h' : m'.WellFormed)
    (same : m'.registerLine = m.registerLine) :
    m'.pc = m.pc ∧ m'.index = m.index ∧ m'.registers = m.registers := by
  have address : ∀ {m : Machine}, m.WellFormed → 0 ≤ m.pc ∧ m.pc < 65536 := by
    intro m h
    have := h.pc
    omega
  replace same := congrArg String.toList same
  rw [toList_registerLine, toList_registerLine] at same
  obtain ⟨pc, same⟩ := Number.hex_inj (address h) (address h') (List.append_cancel_left same)
  obtain ⟨index, same⟩ := Number.hex_inj h.index h'.index (List.append_cancel_left same)
  refine ⟨pc, index, ?_⟩
  replace same := List.append_cancel_left same
  rw [← List.append_nil (Text.listed m.registers.toList).toList,
    ← List.append_nil (Text.listed m'.registers.toList).toList] at same
  exact Vector.toList_inj.mp (Text.listed_inj same).1

theorem timerLine_inj {m m' : Machine} (same : m'.timerLine = m.timerLine) :
    m'.delay = m.delay ∧ m'.sound = m.sound := by
  have digits : ∀ n : Int, ' ' ∉ (toString n).toList :=
    Text.not_mem_decimal (by decide) (by decide)
  replace same := congrArg String.toList same
  rw [toList_timerLine, toList_timerLine] at same
  obtain ⟨delay, same⟩ := Text.cut_inj (digits _) (digits _) (List.append_cancel_left same)
  exact ⟨Text.decimal_inj delay, Text.decimal_inj (List.append_cancel_left same)⟩

/-- What stands behind the addresses, the pointer, is their number. -/
theorem stackLine_inj {m m' : Machine} (same : m'.stackLine = m.stackLine) :
    m'.stack.live = m.stack.live ∧ m'.stack.pointer = m.stack.pointer := by
  replace same := congrArg String.toList same
  rw [toList_stackLine, toList_stackLine] at same
  have live := (Text.listed_inj (List.append_cancel_left same)).1
  refine ⟨live, Fin.ext ?_⟩
  rw [← CallStack.length_live, ← CallStack.length_live, live]

end Machine

namespace Display

theorem toList_rowText (row : BitVec 64) : (rowText row).toList
    = (List.range 64).map fun column => if row.getMsbD column then '#' else '.' :=
  String.toList_ofList

theorem not_mem_rowText {c : Char} (hc : c ∉ ['#', '.']) (row : BitVec 64) :
    c ∉ (rowText row).toList := by
  intro mark
  rw [toList_rowText] at mark
  obtain ⟨column, -, rfl⟩ := List.mem_map.mp mark
  split at hc <;> simp at hc

theorem rowText_inj {row row' : BitVec 64} (same : rowText row' = rowText row) : row' = row := by
  have mark : ∀ a b : Bool, (if a then '#' else '.') = (if b then '#' else '.') → a = b := by
    decide
  replace same := congrArg String.toList same
  rw [toList_rowText, toList_rowText, List.map_inj_left] at same
  refine BitVec.eq_of_getMsbD_eq fun column inside => ?_
  exact mark _ _ (same column (List.mem_range.mpr inside))

end Display

namespace Keypad

theorem mem_keysDown {p : Keypad} {k : Fin 16} : k ∈ p.keysDown ↔ p.down.get k = true := by
  rw [keysDown, List.mem_filter]
  exact and_iff_right (List.mem_finRange k)

theorem keysDown_inj {p p' : Keypad} (same : p'.keysDown = p.keysDown) : p' = p := by
  have down : p'.down = p.down := by
    refine Vector.ext fun k inside => ?_
    have key := mem_keysDown (p := p) (k := ⟨k, inside⟩)
    rw [← same, mem_keysDown] at key
    exact Bool.eq_iff_iff.mpr key
  cases p
  cases p'
  exact congrArg Keypad.mk down

/-- The digits of the keys that are down. -/
def digits (p : Keypad) : List (List Char) := p.keysDown.map fun k => [Number.upperHexDigit k]

theorem toList_text (p : Keypad) :
    p.text.toList = "KEYS_DOWN:[".toList ++ ([','].intercalate p.digits ++ [']']) := by
  unfold text
  rw [String.toList_append, String.toList_append, String.toList_intercalate, List.map_map,
    List.append_assoc]
  simp only [Function.comp_def, String.toList_singleton]
  rfl

theorem not_mem_digits {c : Char} (h : ∀ k, Number.upperHexDigit k ≠ c) (p : Keypad) :
    ∀ w ∈ p.digits, c ∉ w := by
  intro w hw
  obtain ⟨k, -, rfl⟩ := List.mem_map.mp hw
  rw [List.mem_singleton]
  exact (h k).symm

theorem text_inj {p p' : Keypad} (same : p'.text = p.text) : p' = p := by
  have word : ∀ p : Keypad, ∀ w ∈ p.digits, w ≠ [] ∧ ',' ∉ w := by
    intro p w hw
    refine ⟨?_, not_mem_digits (by decide) p w hw⟩
    obtain ⟨k, -, rfl⟩ := List.mem_map.mp hw
    exact List.cons_ne_nil _ _
  have one : ∀ j k, Number.upperHexDigit j = Number.upperHexDigit k → j = k := by decide
  replace same := congrArg String.toList same
  rw [toList_text, toList_text] at same
  have keys := List.append_cancel_right (List.append_cancel_left same)
  refine keysDown_inj ((List.map_inj_right ?_).mp (Text.intercalate_inj (word p') (word p) keys))
  intro j k digit
  exact one j k (List.cons.inj digit).1

end Keypad

/-! ## The dump -/

namespace Machine

/-- No line has a line end inside. -/
theorem not_mem_of_mem_dumpLines {m : Machine} {line : String} (hl : line ∈ m.dumpLines) :
    '\n' ∉ line.toList := by
  have listed : ∀ items : List Int, '\n' ∉ (Text.listed items).toList := by
    intro items
    have inside := Text.not_mem_listed (c := '\n') (by decide) (by decide) items
    rw [Text.toList_listed]
    simpa using inside
  have hex : ∀ n : Int, '\n' ∉ (Number.hex 4 n).toList := Number.not_mem_hex (by decide) (by decide)
  have decimal : ∀ n : Int, '\n' ∉ (toString n).toList :=
    Text.not_mem_decimal (by decide) (by decide)
  simp only [dumpLines, List.mem_cons, List.mem_append, List.not_mem_nil, or_false] at hl
  rcases hl with rfl | rfl | rfl | rfl | hr | rfl
  · rw [toList_registerLine]
    simp only [List.mem_append, not_or]
    exact ⟨by decide, hex m.pc, by decide, hex m.index, by decide, listed m.registers.toList⟩
  · rw [toList_timerLine]
    simp only [List.mem_append, not_or]
    exact ⟨by decide, decimal m.delay, by decide, decimal m.sound⟩
  · rw [toList_stackLine]
    simp only [List.mem_append, not_or]
    exact ⟨by decide, listed m.stack.live, by decide, decimal m.stack.pointer.val⟩
  · decide
  · obtain ⟨row, -, rfl⟩ := List.mem_map.mp hr
    exact Display.not_mem_rowText (by decide) row
  · rw [String.toList_append, Keypad.toList_text]
    simp only [List.mem_append, not_or]
    refine ⟨by decide, by decide, ?_, by decide⟩
    exact Text.not_mem_intercalate (by decide) (Keypad.not_mem_digits (by decide) m.keypad)

theorem toList_dump (m : Machine) :
    m.dump.toList = ['\n'].intercalate (m.dumpLines.map String.toList) := by
  have rows : (m.display.rows.toList.map Display.rowText).map String.toList ≠ [] := by
    simp
  have text : m.display.text.toList
      = ['\n'].intercalate ((m.display.rows.toList.map Display.rowText).map String.toList) :=
    String.toList_intercalate
  unfold dump
  rw [String.toList_intercalate]
  simp only [List.map_cons, List.map_nil, dumpLines, text, List.map_append]
  exact Text.intercalate_nested ['\n'] [_, _, _, _] _ [_] rows

/-- A dump falls apart into its lines. -/
theorem splitOn_dump (m : Machine) :
    m.dump.toList.splitOn '\n' = m.dumpLines.map String.toList := by
  rw [toList_dump]
  refine List.splitOn_intercalate '\n' ?_ (by simp [dumpLines])
  intro line hl
  obtain ⟨text, ht, rfl⟩ := List.mem_map.mp hl
  exact not_mem_of_mem_dumpLines ht

/-! ### What it tells -/

/-- The lines between the heading of the display and the keys. -/
def screenPart (dump : String) : List (List Char) :=
  (((dump.toList.splitOn '\n').dropWhile (· ≠ "SCREEN:".toList)).drop 1).takeWhile fun line =>
    !"KEYPAD:".toList.isPrefixOf line

/-- The machines agree in everything that is written in a dump. -/
structure SameShown (m' m : Machine) : Prop where
  pc : m'.pc = m.pc
  index : m'.index = m.index
  registers : m'.registers = m.registers
  delay : m'.delay = m.delay
  sound : m'.sound = m.sound
  live : m'.stack.live = m.stack.live
  pointer : m'.stack.pointer = m.stack.pointer
  rows : m'.display.rows = m.display.rows
  down : m'.keypad.down = m.keypad.down

theorem screenPart_of_lines {dump : String} {front rows : List (List Char)} {keys : List Char}
    (lines : dump.toList.splitOn '\n' = front ++ "SCREEN:".toList :: (rows ++ [keys]))
    (hf : ∀ line ∈ front, line ≠ "SCREEN:".toList) (hr : ∀ line ∈ rows, 'K' ∉ line)
    (hk : "KEYPAD:".toList <+: keys) : screenPart dump = rows := by
  have before : ∀ line ∈ front, decide (line ≠ "SCREEN:".toList) = true :=
    fun line hl => decide_eq_true (hf line hl)
  have inside : ∀ line ∈ rows, (!"KEYPAD:".toList.isPrefixOf line) = true := by
    intro line hl
    rw [Bool.not_eq_true', ← Bool.not_eq_true, List.isPrefixOf_iff_prefix]
    intro start
    exact hr line hl (start.subset (by decide))
  unfold screenPart
  rw [lines, List.dropWhile_append_of_pos before, List.dropWhile_cons, if_neg (by simp),
    List.drop_one, List.tail_cons, List.takeWhile_append_of_pos inside, List.takeWhile_cons,
    List.isPrefixOf_iff_prefix.mpr hk]
  exact List.append_nil rows

theorem screenPart_dump (m : Machine) :
    screenPart m.dump = m.display.rows.toList.map fun row => (Display.rowText row).toList := by
  have lines : m.dump.toList.splitOn '\n'
      = [m.registerLine.toList, m.timerLine.toList, m.stackLine.toList] ++ "SCREEN:".toList
        :: ((m.display.rows.toList.map fun row => (Display.rowText row).toList)
          ++ [("KEYPAD:" ++ m.keypad.text).toList]) := by
    rw [splitOn_dump, dumpLines]
    simp only [List.map_cons, List.map_append, List.map_map, Function.comp_def, List.map_nil,
      List.cons_append, List.nil_append]
  apply screenPart_of_lines lines
  · intro line hl
    simp only [List.mem_cons, List.not_mem_nil, or_false] at hl
    rcases hl with rfl | rfl | rfl
    · rw [toList_registerLine]
      simp
    · rw [toList_timerLine]
      simp
    · rw [toList_stackLine]
      simp
  · intro line hl
    obtain ⟨row, -, rfl⟩ := List.mem_map.mp hl
    exact Display.not_mem_rowText (by decide) row
  · rw [String.toList_append]
    exact List.prefix_append _ _

/-- Line by line a dump says what it was written from. -/
theorem sameShown_of_dump {m m' : Machine} (h : m.WellFormed) (h' : m'.WellFormed)
    (same : m'.dump = m.dump) : SameShown m' m := by
  have lines := congrArg (fun dump => dump.toList.splitOn '\n') same
  simp only [splitOn_dump] at lines
  replace lines := (List.map_inj_right fun _ _ => String.toList_inj.mp).mp lines
  simp only [dumpLines, List.cons.injEq] at lines
  obtain ⟨registers, timers, stack, -, rest⟩ := lines
  obtain ⟨rows, last⟩ := List.append_inj rest (by simp)
  obtain ⟨pc, index, registers⟩ := registerLine_inj h h' registers
  obtain ⟨delay, sound⟩ := timerLine_inj timers
  obtain ⟨live, pointer⟩ := stackLine_inj stack
  have pixels := (List.map_inj_right fun _ _ => Display.rowText_inj).mp rows
  have keys : "KEYPAD:".toList ++ m'.keypad.text.toList
      = "KEYPAD:".toList ++ m.keypad.text.toList := by
    rw [← String.toList_append, ← String.toList_append, (List.cons.inj last).1]
  have keypad := Keypad.text_inj (String.toList_inj.mp (List.append_cancel_left keys))
  exact ⟨pc, index, registers, delay, sound, live, pointer, Vector.toList_inj.mp pixels,
    congrArg Keypad.down keypad⟩

/-- **A dump loses nothing of what it shows**, and it shows the display a character to a pixel. -/
theorem dump_tells {m : Machine} (h : m.WellFormed) :
    (∀ m' : Machine, m'.WellFormed → m'.dump = m.dump → SameShown m' m)
      ∧ (screenPart m.dump).length = 32
      ∧ ∀ row : Fin 32, ∃ chars, (screenPart m.dump)[row]? = some chars ∧ chars.length = 64
        ∧ ∀ column : Fin 64, ∃ lit, m.display.pixel column row = .ok lit
          ∧ chars[column]? = some (if lit then '#' else '.') := by
  refine ⟨?_, ?_, ?_⟩
  · intro m' h' same
    exact sameShown_of_dump h h' same
  · rw [screenPart_dump, List.length_map, Vector.length_toList]
  · intro row
    refine ⟨(Display.rowText m.display.rows[row]).toList, ?_, ?_, ?_⟩
    · rw [screenPart_dump]
      simp
    · rw [Display.toList_rowText, List.length_map, List.length_range]
    · intro column
      refine ⟨m.display.lit column row, Display.pixel_eq_lit m.display column row, ?_⟩
      rw [Display.toList_rowText, Fin.getElem?_fin, List.getElem?_map,
        List.getElem?_range column.isLt]
      rfl

/-- The register that waits for a key is not in a dump; what is in it is the same. -/
theorem dump_tells_waiting :
    let m := { initial ⟨fun _ => 0, 0⟩ with keypad := Keypad.released.press 10 }
    let m' := { m with waiting := some 3 }
    m.WellFormed ∧ m'.WellFormed ∧ m'.dump = m.dump ∧ SameShown m' m
      ∧ (screenPart m.dump).length = 32 := by
  intro m m'
  have h : m.WellFormed := { wellFormed_initial ⟨fun _ => 0, 0⟩ with }
  have h' : m'.WellFormed := { h with }
  have tells := dump_tells h
  exact ⟨h, h', rfl, tells.1 m' h' rfl, tells.2.1⟩

end Machine
end Chip8Vm
