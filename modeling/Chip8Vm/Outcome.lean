import Chip8Vm.Fault

/-!
# Outcomes

An operation on a state may be cut short by a fault, and then the state it leaves is still there: a
call with a full stack has already moved the program counter. An `Outcome` is that pair. Sequences
of operations stop at the first fault (`andThen`, `each`, `times`), so what follows a fault is never
run, however long the sequence was to be.
-/

set_option autoImplicit false

namespace Chip8Vm

/-- The state an operation left, and the fault that cut it short, if one did. -/
structure Outcome (σ : Type) where
  state : σ
  fault : Option Fault

namespace Outcome

variable {σ τ α : Type}

/-- An operation that ran to its end. -/
def done (s : σ) : Outcome σ := ⟨s, none⟩

/-- An operation cut short. -/
def cut (s : σ) (f : Fault) : Outcome σ := ⟨s, some f⟩

/-- Go on from the state left, unless a fault came. -/
def andThen (o : Outcome σ) (next : σ → Outcome σ) : Outcome σ :=
  match o with
  | ⟨s, none⟩ => next s
  | ⟨s, some f⟩ => ⟨s, some f⟩

/-- The same outcome, seen in a state that holds this one as a part. -/
def map (g : σ → τ) (o : Outcome σ) : Outcome τ := ⟨g o.state, o.fault⟩

/-- Apply an operation `n` times, or up to its first fault. -/
def times (step : σ → Outcome σ) : Nat → σ → Outcome σ
  | 0, s => done s
  | n + 1, s =>
    match step s with
    | ⟨s', none⟩ => times step n s'
    | ⟨s', some f⟩ => ⟨s', some f⟩

/-- Apply an operation for each item in turn, up to the first fault. -/
def each (step : α → σ → Outcome σ) : List α → σ → Outcome σ
  | [], s => done s
  | a :: as, s =>
    match step a s with
    | ⟨s', none⟩ => each step as s'
    | ⟨s', some f⟩ => ⟨s', some f⟩

@[simp] theorem done_andThen (s : σ) (next : σ → Outcome σ) : (done s).andThen next = next s := rfl

@[simp] theorem cut_andThen (s : σ) (f : Fault) (next : σ → Outcome σ) :
    (cut s f).andThen next = cut s f := rfl

@[simp] theorem times_zero (step : σ → Outcome σ) (s : σ) : times step 0 s = done s := rfl

theorem times_succ (step : σ → Outcome σ) (n : Nat) (s : σ) :
    times step (n + 1) s = (step s).andThen (times step n) := rfl

@[simp] theorem each_nil (step : α → σ → Outcome σ) (s : σ) : each step [] s = done s := rfl

theorem each_cons (step : α → σ → Outcome σ) (a : α) (as : List α) (s : σ) :
    each step (a :: as) s = (step a s).andThen (each step as) := rfl

end Outcome

end Chip8Vm
