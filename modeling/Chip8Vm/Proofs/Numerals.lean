import Mathlib.Data.List.Basic
import Mathlib.Data.List.TakeWhile
import Mathlib.Data.Nat.Digits.Defs
import Chip8Vm.Number.Numeral

/-!
# Plain numerals

A text of ASCII digits and nothing else is read as the number that the digits write in base ten
(`Numeral.readInt`), if there are not too many of them. None of its characters is a blank, a sign or
an underscore, so nothing is left of the reading but the digits.
-/

set_option autoImplicit false

namespace Chip8Vm

/-- A text of ASCII digits, and not too long to be read. -/
structure Numeral where
  text : String
  digits : text.toList.all Char.isDigit = true
  nonempty : text ≠ ""
  short : text.length ≤ 4300

/-- The number that a text of digits writes. -/
def Numeral.value (n : Numeral) : Nat :=
  Nat.ofDigits 10 (n.text.toList.reverse.map fun c => c.toNat - '0'.toNat)

theorem Numeral.isDigit (n : Numeral) : ∀ c ∈ n.text.toList, c.isDigit = true :=
  List.all_eq_true.mp n.digits

/-! ## Characters -/

section

variable {c : Char}

/-- A digit is not a character of another place. -/
theorem ne_of_isDigit (h : c.isDigit = true) {other : Char} (ho : other.isDigit = false) :
    c ≠ other := by
  rintro rfl
  cases h.symm.trans ho

theorem digitValue?_of_isDigit (h : c.isDigit = true) :
    Text.digitValue? c = some (c.toNat - '0'.toNat) := by
  have range : 48 ≤ c.toNat ∧ c.toNat ≤ 57 := Char.isDigit_iff_toNat.mp h
  obtain ⟨others, zeros⟩ : ∃ others, Text.digitZeros = '0'.toNat :: others := ⟨_, rfl⟩
  have first : (decide ('0'.toNat ≤ c.toNat) && decide (c.toNat < '0'.toNat + 10)) = true := by
    have zero : '0'.toNat = 48 := rfl
    simp only [zero, Bool.and_eq_true, decide_eq_true_eq]
    omega
  rw [Text.digitValue?, zeros, List.find?_cons, first]
  rfl

theorem isNumeralChar_of_isDigit (h : c.isDigit = true) : Number.isNumeralChar c = true := by
  rw [Number.isNumeralChar, Text.isDigit, digitValue?_of_isDigit h, Option.isSome_some,
    Bool.or_true]

theorem isBlank_of_isDigit (h : c.isDigit = true) : Text.isBlank c = false := by
  have range : 48 ≤ c.toNat ∧ c.toNat ≤ 57 := Char.isDigit_iff_toNat.mp h
  have blank : c ≠ ' ' := ne_of_isDigit h rfl
  simp only [Text.isBlank, Text.isAsciiBlank, Text.isWideBlank, Bool.or_eq_false_iff,
    Bool.and_eq_false_iff, beq_eq_false_iff_ne, decide_eq_false_iff_not]
  refine ⟨⟨blank, ?_⟩, ?_⟩
  all_goals omega

end

/-! ## Rows of digits -/

namespace Number

/-- A row of digits is what it comes to digit by digit, the most significant first. -/
theorem digitsValue_eq_ofDigits (digits : List Nat) :
    digitsValue digits = Nat.ofDigits 10 digits.reverse := by
  rw [Nat.ofDigits_eq_foldr, List.foldr_reverse, digitsValue]
  congr 1
  funext value d
  rw [Nat.add_comm]
  rfl

theorem isGrouped_of_digits {cs : List Char} (h : ∀ c ∈ cs, c.isDigit = true) :
    isGrouped true cs = true := by
  induction cs with
  | nil => rfl
  | cons c cs ih =>
    rw [isGrouped, if_neg (ne_of_isDigit (h c (by simp)) rfl)]
    exact ih fun d hd => h d (by simp [hd])

theorem readUnsigned_of_digits {cs : List Char} (h : ∀ c ∈ cs, c.isDigit = true)
    (nonempty : cs ≠ []) (short : cs.length ≤ 4300) :
    readUnsigned cs = .ok (Nat.ofDigits 10 (cs.reverse.map fun c => c.toNat - '0'.toNat)) := by
  have body : cs.takeWhile isNumeralChar = cs :=
    List.takeWhile_eq_self_iff.mpr fun c hc => isNumeralChar_of_isDigit (h c hc)
  have rest : cs.dropWhile isNumeralChar = [] :=
    List.dropWhile_eq_nil_iff.mpr fun c hc => isNumeralChar_of_isDigit (h c hc)
  have digits : cs.filterMap Text.digitValue? = cs.map fun c => c.toNat - '0'.toNat :=
    List.filterMap_eq_map_iff_forall_eq_some.mpr fun c hc => digitValue?_of_isDigit (h c hc)
  have grouped : isGrouped false cs = true := by
    obtain ⟨c, cs, rfl⟩ := List.exists_cons_of_ne_nil nonempty
    rw [isGrouped, if_neg (ne_of_isDigit (h c (by simp)) rfl)]
    exact isGrouped_of_digits fun d hd => h d (by simp [hd])
  have few : ¬ digitLimit < (cs.map fun c => c.toNat - '0'.toNat).length := by
    rw [List.length_map]
    exact Nat.not_lt.mpr short
  simp only [readUnsigned, body, rest, digits, grouped, if_neg few, digitsValue_eq_ofDigits,
    List.map_reverse]
  rfl

end Number

/-- **A text of digits is read as the number that it writes.** -/
theorem Numeral.readInt (n : Numeral) : Number.readInt n.text = .ok (n.value : Int) := by
  have nonempty : n.text.toList ≠ [] := fun none => n.nonempty (String.toList_eq_nil_iff.mp none)
  have unsigned := Number.readUnsigned_of_digits n.isDigit nonempty n.short
  obtain ⟨c, cs, hc⟩ := List.exists_cons_of_ne_nil nonempty
  have digit : c.isDigit = true := n.isDigit c (by simp [hc])
  have unblank : n.text.toList.dropWhile Text.isBlank = n.text.toList := by
    rw [hc, List.dropWhile_cons_of_neg (by simp [isBlank_of_isDigit digit])]
  rw [Number.readInt, unblank]
  split
  next rest he =>
    rw [hc] at he
    cases he
    cases digit
  next rest he =>
    rw [hc] at he
    cases he
    cases digit
  next =>
    rw [unsigned]
    rfl

/-- It begins with a digit. -/
theorem Numeral.undashed (n : Numeral) : n.text.toList.head? ≠ some '-' := by
  intro first
  have dash := n.isDigit '-' (List.mem_of_head? first)
  cases dash

end Chip8Vm
