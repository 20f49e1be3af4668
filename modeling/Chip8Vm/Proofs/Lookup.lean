import Chip8Vm.Proofs.Masks
import Chip8Vm.Proofs.Trace

/-!
# Looking instruction words up

A number is looked up under one mask after the other until one of them leaves a pattern of its own.
Where it stops would depend on the order, were there numbers of which two masks leave one; but there
are none (`pairs_apart`), as no word fits two rows. So

> **in whatever order the masks are tried, what is found is the handler of the row that fits, and
> nothing is found if and only if no row does** (`decode?_table`).

The bits above the low sixteen are seen by no mask, neither by those that a number is looked up with
nor by those that its operands are read with, and therefore **numbers that agree in their low
sixteen bits do the same** (`process_low`). Only the line that tells of a number without a meaning
has all of it.
-/

set_option autoImplicit false

namespace Chip8Vm

namespace Instruction

theorem key?_eq_none_iff {table : List (Int × List Int)} {opcode : Int} :
    key? table opcode = none ↔ ∀ pair ∈ pairs table, ¬Leaves opcode pair := by
  induction table with
  | nil => simp [key?, pairs]
  | cons entry table ih =>
    have head : (∀ pair ∈ entry.2.map fun pattern => (entry.1, pattern), ¬Leaves opcode pair) ↔
        Number.land opcode entry.1 ∉ entry.2 := by
      simp [Leaves, List.forall_mem_ne]
    rw [pairs, List.flatMap_cons, List.forall_mem_append, head, ← pairs, ← ih, key?]
    split <;> simp_all

/-- What is found is a pattern that its mask leaves. -/
theorem of_key? {table : List (Int × List Int)} {opcode key : Int}
    (h : key? table opcode = some key) : ∃ mask, (mask, key) ∈ pairs table ∧
      Leaves opcode (mask, key) := by
  induction table with
  | nil => cases h
  | cons entry table ih =>
    rw [key?] at h
    split at h
    next here =>
      cases h
      exact ⟨entry.1, List.mem_append_left _ (List.mem_map_of_mem here), rfl⟩
    next =>
      obtain ⟨mask, listed, leaves⟩ := ih h
      exact ⟨mask, List.mem_append_right _ listed, leaves⟩

/-- Of no number at all two masks leave the patterns beside them. -/
def Apart (a b : Int × Int) : Prop := ∀ opcode, ¬(Leaves opcode a ∧ Leaves opcode b)

instance : Std.Symm Apart := ⟨fun _ _ apart opcode leaves => apart opcode leaves.symm⟩

theorem pairs_apart : (pairs masks).Pairwise Apart := by
  have listed : (rows.map fun row => ((row.mask : Int), (row.pattern : Int))).Pairwise Apart := by
    rw [List.pairwise_map]
    refine rows_apart.imp_of_mem fun ha hb apart opcode leaves => apart (Word.low opcode) ?_
    exact ⟨(fits_iff ha opcode).mpr leaves.1, (fits_iff hb opcode).mpr leaves.2⟩
  exact (pairs_perm.pairwise_iff fun apart => symm apart).mpr listed

variable {order : List (Int × List Int)} {opcode key : Int}

/-- In whatever order the patterns are tried, what is found is the one that its mask leaves. -/
theorem key?_eq_some_iff (perm : (pairs order).Perm (pairs masks)) :
    key? order opcode = some key ↔
      ∃ mask, (mask, key) ∈ pairs masks ∧ Leaves opcode (mask, key) := by
  constructor
  · intro found
    obtain ⟨mask, listed, leaves⟩ := of_key? found
    exact ⟨mask, perm.mem_iff.mp listed, leaves⟩
  · rintro ⟨mask, listed, leaves⟩
    cases found : key? order opcode with
    | none => exact absurd leaves (key?_eq_none_iff.mp found _ (perm.mem_iff.mpr listed))
    | some key' =>
      obtain ⟨mask', listed', leaves'⟩ := of_key? found
      -- another pattern that its mask leaves would be apart from this one
      by_cases same : (mask', key') = (mask, key)
      · exact congrArg (some ∘ Prod.snd) same
      · have apart := pairs_apart.forall (perm.mem_iff.mp listed') listed same
        exact absurd ⟨leaves', leaves⟩ (apart opcode)

theorem find_perm (perm : (pairs order).Perm (pairs masks)) (opcode : Int) :
    find order opcode = find masks opcode := by
  have same : key? order opcode = key? masks opcode := Option.ext fun key =>
    (key?_eq_some_iff perm).trans (key?_eq_some_iff (List.Perm.refl _)).symm
  rw [find, find, same]

theorem find_of_key? {handler : Int → Instruction} (found : key? order opcode = some key)
    (named : handlers.lookup key = some handler) : find order opcode = .ok (some handler) := by
  rw [find, found]
  dsimp only
  rw [named]

/-- What is found is the handler of the row that fits. -/
theorem find_of_fits {row : Row} (h : row ∈ rows) (fits : row.Fits (Word.low opcode)) :
    ∃ handler, handlers.lookup (row.pattern : Int) = some handler ∧
      find masks opcode = .ok (some handler) ∧ handler opcode = row.read (Word.low opcode) := by
  obtain ⟨handler, named, reads⟩ := handler_of_row row h
  have listed : ((row.mask : Int), (row.pattern : Int)) ∈ pairs masks :=
    pairs_perm.mem_iff.mpr (List.mem_map_of_mem h)
  have found : key? masks opcode = some (row.pattern : Int) :=
    (key?_eq_some_iff (List.Perm.refl _)).mpr ⟨_, listed, (fits_iff h opcode).mp fits⟩
  exact ⟨handler, named, find_of_key? found named, reads opcode⟩

theorem fits_of_key? (found : key? masks opcode = some key) :
    ∃ row ∈ rows, row.Fits (Word.low opcode) := by
  obtain ⟨mask, listed, leaves⟩ := of_key? found
  obtain ⟨row, given, same⟩ := List.mem_map.mp (pairs_perm.mem_iff.mp listed)
  rw [← same] at leaves
  exact ⟨row, given, (fits_iff given opcode).mpr leaves⟩

theorem find_eq_none_iff :
    find masks opcode = .ok none ↔ ∀ row ∈ rows, ¬row.Fits (Word.low opcode) := by
  constructor
  · intro unknown row given fits
    obtain ⟨handler, -, found, -⟩ := find_of_fits given fits
    rw [found] at unknown
    cases unknown
  · intro none
    cases found : key? masks opcode with
    | none => rw [find, found]
    | some key =>
      obtain ⟨row, given, fits⟩ := fits_of_key? found
      exact absurd fits (none row given)

theorem find_ne_error (opcode key : Int) : find masks opcode ≠ .error key := by
  intro missing
  by_cases fits : ∃ row ∈ rows, row.Fits (Word.low opcode)
  · obtain ⟨row, given, fits⟩ := fits
    obtain ⟨handler, -, found, -⟩ := find_of_fits given fits
    rw [found] at missing
    cases missing
  · rw [find_eq_none_iff.mpr fun row given here => fits ⟨row, given, here⟩] at missing
    cases missing

theorem decode?_eq_none_iff :
    decode? opcode = none ↔ ∀ row ∈ rows, ¬row.Fits (Word.low opcode) := by
  constructor
  · intro unknown row given fits
    rw [decode?_of_fits given fits] at unknown
    cases unknown
  · intro none
    cases decoded : decode? opcode with
    | none => rfl
    | some i =>
      obtain ⟨row, given, fits⟩ := exists_fits decoded
      exact absurd fits (none row given)

/-- Every handler is given the number that is its key. -/
theorem handlers_reached : ∀ entry ∈ handlers, key? masks entry.1 = some entry.1 ∧
    handlers.lookup entry.1 = some entry.2 := by
  simp only [handlers, List.forall_mem_cons, List.not_mem_nil, false_imp_iff, implies_true,
    and_true]
  and_intros
  all_goals rfl

/-- **Instruction words are the rows of the table, in whatever order the masks are tried.** No two
of the thirty-four patterns are left of one number, so that the order of the masks is of no account.
A number whose low sixteen bits fit a row, and there is no second one, is given to the handler of
this row, which reads from it what the row says; a number that fits none is given to no handler. No
key is without a handler, and no handler is without numbers. -/
theorem decode?_table :
    ((pairs masks).length = 34 ∧ (pairs masks).Pairwise Apart) ∧
    (∀ order, (pairs order).Perm (pairs masks) → ∀ opcode, find order opcode = find masks opcode) ∧
    (rows.Pairwise fun a b => ∀ w, ¬(a.Fits w ∧ b.Fits w)) ∧
    (∀ opcode, ∀ row ∈ rows, row.Fits (Word.low opcode) → ∃ handler,
      handlers.lookup (row.pattern : Int) = some handler ∧
      find masks opcode = .ok (some handler) ∧
      handler opcode = row.read (Word.low opcode) ∧ decode? opcode = some (handler opcode)) ∧
    (∀ opcode, (find masks opcode = .ok none ↔ ∀ row ∈ rows, ¬row.Fits (Word.low opcode)) ∧
      (decode? opcode = none ↔ ∀ row ∈ rows, ¬row.Fits (Word.low opcode)) ∧
      ∀ key, find masks opcode ≠ .error key) ∧
    ∀ entry ∈ handlers, ∃ opcode, key? masks opcode = some entry.1 ∧
      find masks opcode = .ok (some entry.2) := by
  refine ⟨⟨rfl, pairs_apart⟩, fun order perm => find_perm perm, rows_apart, ?_, ?_, ?_⟩
  · intro opcode row given fits
    obtain ⟨handler, named, found, read⟩ := find_of_fits given fits
    have decoded := (decode?_of_fits given fits).trans (congrArg some read.symm)
    exact ⟨handler, named, found, read, decoded⟩
  · exact fun opcode => ⟨find_eq_none_iff, decode?_eq_none_iff, find_ne_error opcode⟩
  · intro entry given
    obtain ⟨found, named⟩ := handlers_reached entry given
    exact ⟨entry.1, found, find_of_key? found named⟩

/-- With the masks turned round a number of more than sixteen bits is given to the same handler, and
a number below zero to none. -/
theorem decode?_table_reversed :
    find masks.reverse 0x18AB4 = find masks 0x18AB4 ∧
      decode? 0x18AB4 = some (.combine .add 0xA 0xB) ∧ find masks (-1) = .ok none := by
  obtain ⟨-, order, -, row, none, -⟩ := decode?_table
  obtain ⟨handler, -, -, read, decoded⟩ := row 0x18AB4 ⟨"8xy4", _⟩
    (List.mem_of_getElem? (show rows[14]? = _ from rfl)) (by decide)
  refine ⟨order masks.reverse (by decide +kernel) _, ?_, (none (-1)).1.mpr (by decide +kernel)⟩
  rw [decoded, read]
  rfl

/-! ## Numbers that agree in their low sixteen bits -/

theorem key?_congr {table : List (Int × List Int)} {c d : Int}
    (same : ∀ entry ∈ table, Number.land c entry.1 = Number.land d entry.1) :
    key? table c = key? table d := by
  induction table with
  | nil => rfl
  | cons entry table ih =>
    obtain ⟨here, rest⟩ := List.forall_mem_cons.mp same
    rw [key?, key?, here, ih rest]

theorem find_congr {c d : Int} (same : Word.low c = Word.low d) : find masks c = find masks d := by
  have cut : ∀ mask : Nat, mask < 65536 → Number.land c mask = Number.land d mask := by
    intro mask narrow
    rw [Number.land_low c narrow, Number.land_low d narrow, same]
  have keys : key? masks c = key? masks d := by
    refine key?_congr ?_
    simp only [masks, List.forall_mem_cons, List.not_mem_nil, false_imp_iff, implies_true, and_true]
    exact ⟨cut 0xFFFF (by decide), cut 0xF0FF (by decide), cut 0xF00F (by decide),
      cut 0xF000 (by decide)⟩
  rw [find, find, keys]

theorem handlers_congr {c d : Int} (same : Word.low c = Word.low d) :
    ∀ entry ∈ handlers, entry.2 c = entry.2 d := by
  simp only [handlers, List.forall_mem_cons, List.not_mem_nil, false_imp_iff, implies_true,
    and_true, Opcode.x_eq, Opcode.y_eq, Opcode.n_eq, Opcode.byte_eq, Opcode.address_eq, same]

end Instruction

namespace Traced

/-- **Of a number the low sixteen bits count, and no others.** Numbers that agree in them are looked
up to the same handler, every handler reads the same operands from them, and carried out on one
machine they leave one machine behind, its random values drawn and its log included, and one fault.
Only a number without a meaning is told of as a whole. -/
theorem process_low {c d : Int} (same : c % 65536 = d % 65536) (t : Traced) :
    Instruction.find Instruction.masks c = Instruction.find Instruction.masks d ∧
    (∀ entry ∈ Instruction.handlers, entry.2 c = entry.2 d) ∧
    (t.process c).map machine = (t.process d).map machine ∧
    (t.process c = t.process d ∨ Instruction.decode? c = none ∧ Instruction.decode? d = none ∧
      ∃ address, (t.process c).state.log = t.log.add (.passedOver address c) ∧
        (t.process d).state.log = t.log.add (.passedOver address d) ∧
        ∀ opcode, (Entry.passedOver address opcode).line
          = "WARNING chip8: mem_addr: 0x" ++ Number.hex 4 address ++ "    unknown instruction: 0x"
            ++ Number.hex 4 opcode ++ ", skipped") := by
  have low : Word.low c = Word.low d := by rw [Word.low, Word.low, same]
  have decoded : Instruction.decode? c = Instruction.decode? d := congrArg Instruction.ofWord? low
  refine ⟨Instruction.find_congr low, Instruction.handlers_congr low, ?_⟩
  cases unknown : Instruction.decode? d with
  | none =>
    -- the only place where a number is kept as it came is the entry of one without a meaning
    rw [unknown] at decoded
    unfold process
    rw [decoded, unknown]
    exact ⟨rfl, .inr ⟨rfl, rfl, _, rfl, rfl, Entry.line_passedOver _⟩⟩
  | some i =>
    have carried : t.process c = t.process d := by
      unfold process
      rw [decoded, unknown]
    exact ⟨congrArg _ carried, .inl carried⟩

/-- A number below zero is carried out as the sum that its low sixteen bits mean, and minus one is
told of as minus one. -/
theorem process_low_sum :
    let t : Traced := ⟨.initial ⟨fun _ => 0, 0⟩, .empty .warning⟩
    (t.process (-0x754C)).map machine = (t.process 0x18AB4).map machine ∧
      (t.process (-1)).state.log.lines
        = ["WARNING chip8: mem_addr: 0x0200    unknown instruction: 0x-001, skipped"] ∧
      (t.process 0xFFFF).state.log.lines
        = ["WARNING chip8: mem_addr: 0x0200    unknown instruction: 0xffff, skipped"] := by
  intro t
  obtain ⟨-, -, same, -⟩ := process_low (by decide : (-0x754C : Int) % 65536 = 0x18AB4 % 65536) t
  refine ⟨same, ?_, ?_⟩
  · rfl
  · rfl

end Traced

end Chip8Vm
