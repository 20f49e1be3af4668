import Mathlib.Algebra.Ring.Int.Defs
import Mathlib.Data.List.Infix
import Chip8Vm.Proofs.Ownership
import Chip8Vm.Proofs.StackFaults

/-!
# Calls and returns

Sixteen slots and a pointer are all that a call leaves behind, and slots that were given up are
written over by later calls. Seen from the words that are carried out it is simpler. A call puts the
depth up by one and a return down by one, and a stretch of words is `Balanced` when it comes back to
the depth it began at and was never below it.

> **a return goes behind the call that a balanced stretch parts it from**, and a return that has no
> such call goes to the address that stood there at the beginning (`run_lastInFirstOut`).

The steps may give words from outside or fetch them, and what else they do is not looked at: a
program may write over itself and jump anywhere. What carries the proof is that a way on which the
depth does not fall below `n` leaves the lowest `n` addresses alone (`live_path`).
-/

set_option autoImplicit false

namespace Chip8Vm

/-- What a word does to the depth. -/
def Word.turn (opcode : Int) : Int :=
  if opcode % 65536 / 4096 = 2 then 1 else if opcode % 65536 = 0x00EE then -1 else 0

/-- To carry out a word that is given, or the one at the program counter. -/
inductive Step where
  | word (opcode : Int)
  | cycle

namespace Step

/-- The word that a step carries out. -/
def opcode (m : Machine) : Step → Int
  | word opcode => opcode
  | cycle => m.fetch

def run : Step → Traced → Outcome Traced
  | word opcode => Traced.process opcode
  | cycle => Traced.cycle

theorem map_run (s : Step) (t : Traced) :
    (s.run t).map Traced.machine = t.machine.process (s.opcode t.machine) := by
  cases s with
  | word opcode => exact Traced.map_process opcode t
  | cycle => exact Traced.map_cycle t

end Step

/-- A step, and the state it was done in. -/
abbrev Visit := Step × Traced

namespace Visit

def turn (v : Visit) : Int := Word.turn (v.1.opcode v.2.machine)

def outcome (v : Visit) : Outcome Traced := v.1.run v.2

end Visit

/-- How far the depth went up along a trail. -/
def rise (trail : List Visit) : Int := (trail.map Visit.turn).sum

@[simp] theorem rise_nil : rise [] = 0 := rfl

@[simp] theorem rise_cons (v : Visit) (trail : List Visit) :
    rise (v :: trail) = v.turn + rise trail := by
  simp [rise]

@[simp] theorem rise_append (p q : List Visit) : rise (p ++ q) = rise p + rise q := by
  simp [rise]

/-- As many turns up as down, and at no point more down. -/
structure Balanced (turns : List Int) : Prop where
  settled : turns.sum = 0
  above : ∀ past, past <+: turns → 0 ≤ past.sum

instance (turns : List Int) : Decidable (Balanced turns) :=
  decidable_of_iff (turns.sum = 0 ∧ ∀ past ∈ turns.inits, 0 ≤ past.sum)
    ⟨fun h => ⟨h.1, fun past hp => h.2 past ((List.mem_inits _ _).mpr hp)⟩,
      fun h => ⟨h.settled, fun past hp => h.above past ((List.mem_inits _ _).mp hp)⟩⟩

/-- No call of a trail is still open at its end. -/
def Closed (trail : List Visit) : Prop :=
  ∀ past call inner, trail = past ++ call :: inner → call.turn = 1 →
    ¬ Balanced (inner.map Visit.turn)

/-- How many addresses are on the stack at the end of a trail. -/
def depth (t : Traced) (trail : List Visit) : Int := t.machine.stack.live.length + rise trail

theorem Word.turn_cases (opcode : Int) : turn opcode = 1 ∨ turn opcode = -1 ∨ turn opcode = 0 := by
  unfold turn
  split
  · exact Or.inl rfl
  · split
    · exact Or.inr (Or.inl rfl)
    · exact Or.inr (Or.inr rfl)

/-- Where no call is open the depth was nowhere lower than at the end. The induction
is from the front: a call that all behind it closes is the one that would be open. -/
theorem Closed.rise_le {trail : List Visit} (h : Closed trail) :
    ∀ later, later <:+ trail → rise later ≤ 0 := by
  induction trail with
  | nil =>
    intro later hl
    rw [List.suffix_nil.mp hl]
    exact Int.le_refl 0
  | cons v trail ih =>
    have below : ∀ later, later <:+ trail → rise later ≤ 0 := by
      refine ih fun past call inner hs => ?_
      exact h (v :: past) call inner (congrArg (List.cons v) hs)
    intro later hl
    rcases List.suffix_cons_iff.mp hl with rfl | hl
    · rw [rise_cons]
      have rest := below trail (List.suffix_refl trail)
      -- a trail that went up although its rest did not began with a call, and that call is open
      by_contra positive
      have up : v.turn = 1 := by
        rcases Word.turn_cases (v.1.opcode v.2.machine) with hv | hv | hv <;>
          simp only [Visit.turn, hv] at positive ⊢ <;> omega
      refine h [] v trail rfl up ⟨by rw [← rise]; omega, fun turns hp => ?_⟩
      obtain ⟨past, ⟨later, rfl⟩, rfl⟩ := List.prefix_map_iff.mp hp
      have := below later (List.suffix_append past later)
      rw [← rise]
      rw [rise_append] at rest positive
      omega
    · exact below later hl

namespace Machine

variable {m : Machine}

/-! ## One word -/

/-- What a word may do to the stack, by what it does to the depth. -/
inductive Turned (m : Machine) : Int → Outcome Machine → Prop
  | call (m' : Machine) (live : m'.stack.live = m.stack.live ++ [(m.pc + 2) % 4096]) :
      Turned m 1 (.done m')
  | overflow (full : m.stack.live.length = 16) (m' : Machine) (same : m'.stack = m.stack) :
      Turned m 1 (.cut m' .stackOverflow)
  | ret (m' : Machine) (live : m.stack.live = m'.stack.live ++ [m'.pc]) : Turned m (-1) (.done m')
  | underflow (empty : m.stack.live = []) (m' : Machine) (same : m'.stack = m.stack) :
      Turned m (-1) (.cut m' .stackUnderflow)
  | other (m' : Machine) (same : m'.stack = m.stack) : Turned m 0 (.done m')

theorem turned_call {opcode : Int} {target : Fin 4096}
    (hd : Instruction.decode? opcode = some (.call target)) : m.Turned 1 (m.process opcode) := by
  rw [process_of_decode hd]
  by_cases full : m.advance.stack.pointer = 16
  · rw [execute_of_stackFault (.overflow target full)]
    refine .overflow ?_ _ rfl
    rw [CallStack.length_live, ← stack_advance, full]
    rfl
  · have room : m.advance.stack.pointer.val < 16 := by
      have : m.advance.stack.pointer.val ≠ 16 := fun hp => full (Fin.ext hp)
      omega
    obtain ⟨pushed, live⟩ := CallStack.live_push (a := m.advance.pc) room
    cases hs : m.advance.stack.push m.advance.pc with
    | mk stack fault =>
      rw [hs] at pushed live
      cases pushed
      simp only [execute, hs]
      exact .call _ live

theorem turned_ret {opcode : Int} (hd : Instruction.decode? opcode = some .ret) :
    m.Turned (-1) (m.process opcode) := by
  rw [process_of_decode hd]
  cases hp : m.advance.stack.pop? with
  | none =>
    simp only [execute, hp]
    exact .underflow (m := m) (CallStack.pop?_eq_none_iff.mp hp) _ rfl
  | some top =>
    obtain ⟨address, stack⟩ := top
    simp only [execute, hp]
    exact .ret _ (CallStack.live_pop hp)

theorem turned_other (h : m.WellFormed) {opcode : Int}
    (noRet : Instruction.decode? opcode ≠ some .ret)
    (noCall : ∀ target, Instruction.decode? opcode ≠ some (.call target)) :
    m.Turned 0 (m.process opcode) := by
  have same : Part.Same .stack m (m.process opcode).state := by
    refine same_process fun i hd => ?_
    cases i with
    | ret => exact absurd hd noRet
    | call target => exact absurd hd (noCall target)
    | _ => simp [Instruction.Owns]
  cases ho : m.process opcode with
  | mk m' fault =>
    rw [ho] at same
    cases fault with
    | none => exact .other m' same
    | some f =>
      have hf : (m.process opcode).fault = some f := congrArg Outcome.fault ho
      obtain ⟨i, hd, hs⟩ := (fault_process_iff h).mp hf
      cases hs with
      | overflow target full => exact absurd hd (noCall target)
      | underflow empty => exact absurd hd noRet

theorem turned_process (h : m.WellFormed) (opcode : Int) :
    m.Turned (Word.turn opcode) (m.process opcode) := by
  by_cases hc : opcode % 65536 / 4096 = 2
  · obtain ⟨target, hd⟩ := Instruction.decode?_call_iff.mpr hc
    rw [show Word.turn opcode = 1 from if_pos hc]
    exact turned_call hd
  · by_cases hr : opcode % 65536 = 0x00EE
    · rw [show Word.turn opcode = -1 from (if_neg hc).trans (if_pos hr)]
      exact turned_ret (Instruction.decode?_ret_iff.mpr hr)
    · rw [show Word.turn opcode = 0 from (if_neg hc).trans (if_neg hr)]
      refine turned_other h (fun hd => hr (Instruction.decode?_ret_iff.mp hd)) fun target hd => ?_
      exact hc (Instruction.decode?_call_iff.mp ⟨target, hd⟩)

end Machine

/-! ## Along a way -/

variable {t t' : Traced}

theorem Visit.turned (v : Visit) (h : v.2.machine.WellFormed) :
    v.2.machine.Turned v.turn (v.outcome.map Traced.machine) := by
  unfold Visit.outcome
  rw [Step.map_run]
  exact Machine.turned_process h _

/-- A visit that brings no fault leaves the stack one higher, one lower, or as it was. -/
theorem Visit.live_done {v : Visit} (h : v.2.machine.WellFormed) (hv : v.outcome = .done t') :
    (v.turn = 1 ∧ t'.machine.stack.live
        = v.2.machine.stack.live ++ [(v.2.machine.pc + 2) % 4096]) ∨
    (v.turn = -1 ∧ v.2.machine.stack.live = t'.machine.stack.live ++ [t'.machine.pc]) ∨
    (v.turn = 0 ∧ t'.machine.stack = v.2.machine.stack) := by
  have turned := v.turned h
  rw [hv, Outcome.map_done] at turned
  generalize v.turn = n at turned
  cases turned with
  | call m' live => exact Or.inl ⟨rfl, live⟩
  | ret m' live => exact Or.inr (Or.inl ⟨rfl, live⟩)
  | other m' same => exact Or.inr (Or.inr ⟨rfl, same⟩)

/-- **The lowest addresses are left alone** by a way on which the depth does not fall below them,
and as many addresses are on the stack at its end as its words say. -/
theorem live_path {trail : List Visit} (h : t.machine.WellFormed)
    (path : Outcome.Path Step.run t trail t') :
    t'.machine.WellFormed ∧ (t'.machine.stack.live.length : Int) = depth t trail ∧
      ∀ n : Nat, (∀ past, past <+: trail → n ≤ depth t past) →
        t'.machine.stack.live.take n = t.machine.stack.live.take n := by
  induction trail generalizing t with
  | nil =>
    obtain rfl : t' = t := path
    exact ⟨h, by simp [depth], fun n _ => rfl⟩
  | cons v trail ih =>
    obtain ⟨s, before⟩ := v
    obtain ⟨rfl, next, hs, rest⟩ := path
    have hv : Visit.outcome (s, before) = .done next := hs
    have kept : next.machine.WellFormed := by
      have := h.process (s.opcode before.machine)
      rwa [← Step.map_run, hs] at this
    obtain ⟨wellFormed, length, lowest⟩ := ih kept rest
    have stepped := Visit.live_done (v := (s, before)) h hv
    dsimp only at stepped
    have here : (next.machine.stack.live.length : Int)
        = before.machine.stack.live.length + Visit.turn (s, before) := by
      rcases stepped with ⟨ht, live⟩ | ⟨ht, live⟩ | ⟨ht, same⟩
      · rw [ht, live, List.length_append, List.length_singleton, Int.natCast_succ]
      · rw [ht, live, List.length_append, List.length_singleton, Int.natCast_succ]
        omega
      · rw [ht, same, Int.add_zero]
    refine ⟨wellFormed, ?_, fun n hn => ?_⟩
    · rw [length, depth, depth, here, rise_cons]
      omega
    · -- both stacks reach up to `n`, so that the step between them can only touch what is above
      have before_le : (n : Int) ≤ before.machine.stack.live.length := by
        have := hn [] List.nil_prefix
        rwa [depth, rise_nil, Int.add_zero] at this
      have next_le : (n : Int) ≤ next.machine.stack.live.length := by
        have := hn [(s, before)] (List.prefix_append [(s, before)] trail)
        rwa [depth, rise_cons, rise_nil, Int.add_zero, ← here] at this
      have below : next.machine.stack.live.take n = before.machine.stack.live.take n := by
        rcases stepped with ⟨-, live⟩ | ⟨-, live⟩ | ⟨-, same⟩
        · rw [live, List.take_append_of_le_length (by omega)]
        · rw [live, List.take_append_of_le_length (by omega)]
        · rw [same]
      refine (lowest n fun past hp => ?_).trans below
      have := hn ((s, before) :: past) (List.cons_prefix_cons.mpr ⟨rfl, hp⟩)
      rw [depth, rise_cons] at this
      rw [depth, here]
      omega

/-- A return with something on the stack takes the top. -/
theorem Visit.pc_ret {v : Visit} (h : v.2.machine.WellFormed) (hv : v.turn = -1)
    {rest : List Int} {a : Int} (live : v.2.machine.stack.live = rest ++ [a]) :
    v.outcome.fault = none ∧ v.outcome.state.machine.pc = a := by
  have turned := v.turned h
  rw [hv] at turned
  cases ho : v.outcome with
  | mk t' fault =>
    rw [ho] at turned
    generalize hm : Outcome.map Traced.machine ⟨t', fault⟩ = o at turned
    cases turned with
    | ret m' taken =>
      cases hm
      rw [live] at taken
      exact ⟨rfl, (List.append_inj_right' taken rfl |> List.cons.inj).1.symm⟩
    | underflow empty m' same => simp [live] at empty

/-- The steps of a run seen from the stack: `trail` are the visits, and `o` is what came of it. -/
structure LastInFirstOut (t : Traced) (trail : List Visit) (o : Outcome Traced) : Prop where
  fault_iff : o.fault = none ↔
    ∀ past, past <+: trail → 0 ≤ depth t past ∧ depth t past ≤ 16
  /-- The step that brings a fault is the first that would leave the stack, and it is as that step
  found it. -/
  fault : ∀ f, o.fault = some f → ∃ past v, trail = past ++ [v]
    ∧ (∀ p, p <+: past → 0 ≤ depth t p ∧ depth t p ≤ 16)
    ∧ (v.turn = 1 ∧ depth t past = 16 ∧ f = .stackOverflow
      ∨ v.turn = -1 ∧ depth t past = 0 ∧ f = .stackUnderflow)
    ∧ o.state.machine.stack = v.2.machine.stack
  pointer : o.fault = none → (o.state.machine.stack.pointer.val : Int) = depth t trail
  untouched : o.fault = none → ∀ n : Nat, (∀ past, past <+: trail → n ≤ depth t past) →
    o.state.machine.stack.live.take n = t.machine.stack.live.take n
  matched : ∀ past call inner ret later, trail = past ++ call :: inner ++ ret :: later →
    call.turn = 1 → Balanced (inner.map Visit.turn) → ret.turn = -1 →
    ret.outcome.fault = none ∧ ret.outcome.state.machine.pc = (call.2.machine.pc + 2) % 4096
  /-- A return that no call of the run is open for, with `n` addresses left below it. -/
  unmatched : ∀ past ret later, trail = past ++ ret :: later → ret.turn = -1 → Closed past →
    ∀ n : Nat, depth t past = n + 1 → ret.outcome.fault = none
      ∧ t.machine.stack.live[n]? = some ret.outcome.state.machine.pc
  others : ∀ v ∈ trail, v.turn = 0 → v.outcome.state.machine.stack = v.2.machine.stack

section

variable {t : Traced} {steps : List Step} (h : t.machine.WellFormed)
include h

/-- What is known of the stack where a step is come to. -/
theorem live_visit {past later : List Visit} {v : Visit}
    (hv : Outcome.visits Step.run steps t = past ++ v :: later) :
    v.2.machine.WellFormed ∧ (v.2.machine.stack.live.length : Int) = depth t past ∧
      ∀ n : Nat, (∀ p, p <+: past → n ≤ depth t p) →
        v.2.machine.stack.live.take n = t.machine.stack.live.take n :=
  live_path h (Outcome.path_of_visits hv)

theorem depth_range {past : List Visit} {t' : Traced} (path : Outcome.Path Step.run t past t')
    {p : List Visit} (hp : p <+: past) : 0 ≤ depth t p ∧ depth t p ≤ 16 := by
  obtain ⟨later, rfl⟩ := hp
  obtain ⟨mid, first, -⟩ := Outcome.path_append.mp path
  rw [← (live_path h first).2.1, CallStack.length_live]
  omega

/-- **The matching call decides where a return goes**, if the run has one. -/
theorem pc_matched {past inner later : List Visit} {call ret : Visit}
    (hv : Outcome.visits Step.run steps t = past ++ call :: inner ++ ret :: later)
    (up : call.turn = 1) (balanced : Balanced (inner.map Visit.turn)) (down : ret.turn = -1) :
    ret.outcome.fault = none
      ∧ ret.outcome.state.machine.pc = (call.2.machine.pc + 2) % 4096 := by
  obtain ⟨mid, first, rfl, after, called, second⟩ :=
    Outcome.path_append.mp (Outcome.path_of_visits hv)
  have wellFormed := (live_path h first).1
  rcases Visit.live_done wellFormed called with ⟨-, live⟩ | ⟨other, -⟩ | ⟨other, -⟩
  · have one : Outcome.Path Step.run call.2 [call] after := ⟨rfl, after, called, rfl⟩
    obtain ⟨kept, length, lowest⟩ := live_path (live_path wellFormed one).1 second
    -- the stretch never falls below what the call left, and it ends at that depth
    have whole : ret.2.machine.stack.live = after.machine.stack.live := by
      have low := lowest after.machine.stack.live.length fun p hp => by
        have := balanced.above (p.map Visit.turn) (hp.map Visit.turn)
        rw [depth, rise]
        omega
      rw [depth, rise, balanced.settled] at length
      rwa [List.take_length, List.take_of_length_le (by omega)] at low
    exact Visit.pc_ret kept down (whole.trans live)
  · exact absurd (up.symm.trans other) (by decide)
  · exact absurd (up.symm.trans other) (by decide)

/-- **Without a matching call the first stack decides.** -/
theorem pc_unmatched {past later : List Visit} {ret : Visit}
    (hv : Outcome.visits Step.run steps t = past ++ ret :: later) (down : ret.turn = -1)
    (closed : Closed past) {n : Nat} (hn : depth t past = n + 1) :
    ret.outcome.fault = none
      ∧ t.machine.stack.live[n]? = some ret.outcome.state.machine.pc := by
  obtain ⟨wellFormed, length, lowest⟩ := live_visit h hv
  -- with no call open, the depth was nowhere lower than it is here
  have whole : ret.2.machine.stack.live = t.machine.stack.live.take (n + 1) := by
    rw [← lowest (n + 1), List.take_of_length_le (by omega)]
    rintro p ⟨q, rfl⟩
    have := closed.rise_le q (List.suffix_append p q)
    rw [depth, rise_append] at hn
    rw [depth]
    omega
  have inside : n < t.machine.stack.live.length := by
    have := congrArg List.length whole
    rw [List.length_take] at this
    omega
  rw [List.take_succ_eq_append_getElem inside] at whole
  obtain ⟨quiet, pc⟩ := Visit.pc_ret wellFormed down whole
  exact ⟨quiet, by rw [pc, List.getElem?_eq_getElem inside]⟩

theorem stack_other {v : Visit} (hv : v ∈ Outcome.visits Step.run steps t) (level : v.turn = 0) :
    v.outcome.state.machine.stack = v.2.machine.stack := by
  obtain ⟨past, later, split⟩ := List.append_of_mem hv
  have turned := v.turned (live_visit h split).1
  rw [level] at turned
  generalize ho : v.outcome.map Traced.machine = o at turned
  cases turned with
  | other m' same => exact (congrArg (·.state.stack) ho).trans same

end

/-- A visit that brings a fault finds the stack full or empty, and leaves it so. -/
theorem Visit.turned_cut {v : Visit} (h : v.2.machine.WellFormed) {t' : Traced} {f : Fault}
    (hv : v.outcome = .cut t' f) :
    t'.machine.stack = v.2.machine.stack ∧
      (v.turn = 1 ∧ (v.2.machine.stack.live.length : Int) = 16 ∧ f = .stackOverflow
        ∨ v.turn = -1 ∧ (v.2.machine.stack.live.length : Int) = 0 ∧ f = .stackUnderflow) := by
  have turned := v.turned h
  rw [hv, Outcome.map_cut] at turned
  generalize v.turn = n at turned
  cases turned with
  | overflow full m' same => exact ⟨same, Or.inl ⟨rfl, by rw [full]; rfl, rfl⟩⟩
  | underflow empty m' same => exact ⟨same, Or.inr ⟨rfl, by rw [empty]; rfl, rfl⟩⟩

/-- **The call stack is last in, first out**, sixteen addresses deep, whatever program runs on a
well-formed machine and whatever words it is given in between. -/
theorem run_lastInFirstOut (t : Traced) (h : t.machine.WellFormed) (steps : List Step) :
    LastInFirstOut t (Outcome.visits Step.run steps t) (Outcome.each Step.run steps t) := by
  rcases Outcome.each_path steps t with
    ⟨t', he, path⟩ | ⟨past, s, before, after, f, hv, path, hs, he⟩
  · rw [he]
    exact {
      fault_iff := ⟨fun _ _ hp => depth_range h path hp, fun _ => rfl⟩
      fault := fun _ hf => absurd hf (by simp)
      pointer := fun _ => by
        rw [← (live_path h path).2.1, CallStack.length_live]
        rfl
      untouched := fun _ => (live_path h path).2.2
      matched := fun _ _ _ _ _ => pc_matched h
      unmatched := fun _ _ _ hv down closed _ => pc_unmatched h hv down closed
      others := fun _ => stack_other h }
  · obtain ⟨wellFormed, length, -⟩ := live_path h path
    obtain ⟨same, why⟩ := Visit.turned_cut (v := (s, before)) wellFormed hs
    dsimp only at why
    rw [length] at why
    have outside : ¬ (0 ≤ depth t (past ++ [(s, before)])
        ∧ depth t (past ++ [(s, before)]) ≤ 16) := by
      rw [depth, rise_append, rise_cons, rise_nil]
      rw [depth] at why
      rcases why with ⟨up, full, -⟩ | ⟨down, empty, -⟩ <;> omega
    rw [he]
    exact {
      fault_iff := by
        refine ⟨fun hf => absurd hf (by simp), fun inside => absurd (inside _ ?_) outside⟩
        exact hv ▸ List.prefix_refl _
      fault := fun g hg => by
        cases hg
        exact ⟨past, (s, before), hv, fun _ hp => depth_range h path hp, why, same⟩
      pointer := fun hf => absurd hf (by simp)
      untouched := fun hf => absurd hf (by simp)
      matched := fun _ _ _ _ _ => pc_matched h
      unmatched := fun _ _ _ hv down closed _ => pc_unmatched h hv down closed
      others := fun _ => stack_other h }

/-- Two calls, the outer one from the last address but one, a word that jumps in between, and three
returns, of which the last finds nothing to return to. -/
def nestedSteps : List Step :=
  [.word 0x2300, .word 0x2400, .word 0x1500, .word 0x00EE, .word 0x100EE, .word 0x00EE]

theorem run_lastInFirstOut_nestedSteps :
    let m : Machine := { Machine.initial ⟨fun _ => 0, 0⟩ with pc := 0xFFE }
    let t : Traced := ⟨m, .empty .debug⟩
    let trail := Outcome.visits Step.run nestedSteps t
    m.WellFormed ∧ (∀ ret : Visit, trail[4]? = some ret → ret.outcome.state.machine.pc = 0)
      ∧ (Outcome.each Step.run nestedSteps t).fault ≠ none := by
  intro m t trail
  have initial := Machine.wellFormed_initial ⟨fun _ => 0, 0⟩
  have h : m.WellFormed := initial.withPc (a := 0xFFE) (by decide)
  have lifo := run_lastInFirstOut t h nestedSteps
  refine ⟨h, fun ret hr => ?_, fun hf => ?_⟩
  · have split : trail = [] ++ _ :: [_, _, _] ++ _ :: [_] := rfl
    cases hr
    have balanced : Balanced [1, 0, -1] := by decide
    exact (lifo.matched _ _ _ _ _ split rfl balanced rfl).2.trans rfl
  · exact absurd (lifo.fault_iff.mp hf trail (List.prefix_refl _)).1 (by decide)

end Chip8Vm
