import Chip8Vm.Outcome

/-!
# Outcomes of sequences

Two facts are what everything on runs rests on.

> **what every step keeps, the sequence keeps** (`each_keeps`), also when a fault cuts it short;
> **a view that commutes with a step commutes with what follows it** (`map_andThen`), so the machine
> that a host drives can be followed without the log that is written on the way.

`visits` is the sequence seen from inside: which items were come to, and in which state. An item
behind a fault is not there, and the item at the fault is (`visits_cons`).
-/

set_option autoImplicit false

namespace Chip8Vm
namespace Outcome

variable {σ τ α : Type}

@[simp] theorem state_done (s : σ) : (done s).state = s := rfl

@[simp] theorem fault_done (s : σ) : (done s).fault = none := rfl

@[simp] theorem state_cut (s : σ) (f : Fault) : (cut s f).state = s := rfl

@[simp] theorem fault_cut (s : σ) (f : Fault) : (cut s f).fault = some f := rfl

@[simp] theorem state_map (g : σ → τ) (o : Outcome σ) : (o.map g).state = g o.state := rfl

@[simp] theorem fault_map (g : σ → τ) (o : Outcome σ) : (o.map g).fault = o.fault := rfl

@[simp] theorem map_done (g : σ → τ) (s : σ) : (done s).map g = done (g s) := rfl

@[simp] theorem map_cut (g : σ → τ) (s : σ) (f : Fault) : (cut s f).map g = cut (g s) f := rfl

theorem andThen_done (o : Outcome σ) : o.andThen done = o := by
  obtain ⟨s, fault⟩ := o
  cases fault with
  | none => rfl
  | some f => rfl

/-- A view commutes with what comes next if it does so on every state that may be left. -/
theorem map_andThen {g : σ → τ} {next : σ → Outcome σ} {k : τ → Outcome τ}
    (h : ∀ s, (next s).map g = k (g s)) (o : Outcome σ) :
    (o.andThen next).map g = (o.map g).andThen k := by
  obtain ⟨s, fault⟩ := o
  cases fault with
  | none => exact h s
  | some f => rfl

/-- What comes next keeps a property, so the whole keeps what the first part left. -/
theorem andThen_keeps {P : σ → Prop} {o : Outcome σ} {next : σ → Outcome σ} (ho : P o.state)
    (hnext : ∀ s, P s → P (next s).state) : P (o.andThen next).state := by
  obtain ⟨s, fault⟩ := o
  cases fault with
  | none => exact hnext s ho
  | some f => exact ho

/-! ## Sequences -/

theorem each_keeps {P : σ → Prop} {step : α → σ → Outcome σ} :
    ∀ {as : List α} {s : σ}, (∀ a s, P s → P (step a s).state) → P s → P (each step as s).state
  | [], _, _, hs => hs
  | a :: as, s, h, hs => by
    rw [each_cons]
    exact andThen_keeps (h a s hs) fun _ hs' => each_keeps h hs'

theorem times_keeps {P : σ → Prop} {step : σ → Outcome σ} (h : ∀ s, P s → P (step s).state)
    (n : Nat) {s : σ} (hs : P s) : P (times step n s).state := by
  induction n generalizing s with
  | zero => exact hs
  | succ n ih =>
    rw [times_succ]
    exact andThen_keeps (h s hs) fun _ => ih

theorem each_append (step : α → σ → Outcome σ) (as bs : List α) (s : σ) :
    each step (as ++ bs) s = (each step as s).andThen (each step bs) := by
  induction as generalizing s with
  | nil => rfl
  | cons a as ih =>
    rw [List.cons_append, each_cons, each_cons]
    obtain ⟨s', fault⟩ := step a s
    cases fault with
    | none => exact ih s'
    | some f => rfl

theorem each_singleton (step : α → σ → Outcome σ) (a : α) (s : σ) : each step [a] s = step a s := by
  rw [each_cons]
  exact andThen_done (step a s)

theorem each_map {β : Type} (step : α → σ → Outcome σ) (g : β → α) (bs : List β) (s : σ) :
    each step (bs.map g) s = each (fun b => step (g b)) bs s := by
  induction bs generalizing s with
  | nil => rfl
  | cons b bs ih =>
    rw [List.map_cons, each_cons, each_cons]
    exact congrArg (andThen (step (g b) s)) (funext ih)

/-- A sequence that is cut short is cut at an item, and what is behind the item is left undone. -/
theorem each_cut {step : α → σ → Outcome σ} {as : List α} {s s' : σ} {f : Fault}
    (h : each step as s = cut s' f) :
    ∃ past a later before, as = past ++ a :: later ∧ each step past s = done before
      ∧ step a before = cut s' f := by
  induction as generalizing s with
  | nil => cases h
  | cons a as ih =>
    rw [each_cons] at h
    cases hs : step a s with
    | mk next fault =>
      rw [hs] at h
      cases fault with
      | some g => exact ⟨[], a, as, s, rfl, rfl, hs.trans h⟩
      | none =>
        obtain ⟨past, b, later, before, rfl, run, last⟩ := ih h
        refine ⟨a :: past, b, later, before, rfl, ?_, last⟩
        rw [each_cons, hs]
        exact run

/-- One operation so many times over, seen so, is a sequence of equal items. -/
theorem times_map {g : σ → τ} {step : σ → Outcome σ} {k : α → τ → Outcome τ} {a : α}
    (h : ∀ s, (step s).map g = k a (g s)) (n : Nat) (s : σ) :
    (times step n s).map g = each k (List.replicate n a) (g s) := by
  induction n generalizing s with
  | zero => rfl
  | succ n ih => rw [times_succ, List.replicate_succ, each_cons, map_andThen ih, h]

/-- A view that commutes with every step commutes with the sequence. -/
theorem map_each {g : σ → τ} {step : α → σ → Outcome σ} {k : α → τ → Outcome τ}
    (h : ∀ a s, (step a s).map g = k a (g s)) (as : List α) (s : σ) :
    (each step as s).map g = each k as (g s) := by
  induction as generalizing s with
  | nil => rfl
  | cons a as ih => rw [each_cons, each_cons, map_andThen ih, h]

theorem map_times {g : σ → τ} {step : σ → Outcome σ} {k : τ → Outcome τ}
    (h : ∀ s, (step s).map g = k (g s)) (n : Nat) (s : σ) :
    (times step n s).map g = times k n (g s) := by
  induction n generalizing s with
  | zero => rfl
  | succ n ih => rw [times_succ, times_succ, map_andThen ih, h]

/-! ## Two outcomes side by side -/

/-- Two outcomes whose states belong together, with the same fault or none. -/
structure Matches (R : σ → τ → Prop) (o : Outcome σ) (o' : Outcome τ) : Prop where
  state : R o.state o'.state
  fault : o.fault = o'.fault

namespace Matches

variable {R : σ → τ → Prop}

theorem done {s : σ} {t : τ} (h : R s t) : Matches R (.done s) (.done t) := ⟨h, rfl⟩

theorem cut {s : σ} {t : τ} (h : R s t) (f : Fault) : Matches R (.cut s f) (.cut t f) := ⟨h, rfl⟩

theorem map {σ' τ' : Type} {R' : σ' → τ' → Prop} {o : Outcome σ} {o' : Outcome τ} {g : σ → σ'}
    {g' : τ → τ'} (h : Matches R o o') (hg : ∀ s t, R s t → R' (g s) (g' t)) :
    Matches R' (o.map g) (o'.map g') := ⟨hg _ _ h.state, h.fault⟩

theorem andThen {o : Outcome σ} {o' : Outcome τ} {next : σ → Outcome σ} {next' : τ → Outcome τ}
    (h : Matches R o o') (hnext : ∀ s t, R s t → Matches R (next s) (next' t)) :
    Matches R (o.andThen next) (o'.andThen next') := by
  obtain ⟨s, fault⟩ := o
  obtain ⟨t, fault'⟩ := o'
  obtain ⟨hst, rfl⟩ : R s t ∧ fault = fault' := ⟨h.state, h.fault⟩
  cases fault with
  | none => exact hnext s t hst
  | some f => exact .cut hst f

theorem times {step : σ → Outcome σ} {step' : τ → Outcome τ}
    (h : ∀ s t, R s t → Matches R (step s) (step' t)) (n : Nat) {s : σ} {t : τ} (hst : R s t) :
    Matches R (times step n s) (times step' n t) := by
  induction n generalizing s t with
  | zero => exact .done hst
  | succ n ih =>
    rw [times_succ, times_succ]
    exact (h s t hst).andThen fun _ _ => ih

theorem each {step : α → σ → Outcome σ} {step' : α → τ → Outcome τ}
    (h : ∀ a s t, R s t → Matches R (step a s) (step' a t)) (as : List α) {s : σ} {t : τ}
    (hst : R s t) : Matches R (each step as s) (each step' as t) := by
  induction as generalizing s t with
  | nil => exact .done hst
  | cons a as ih =>
    rw [each_cons, each_cons]
    exact (h a s t hst).andThen fun _ _ => ih

end Matches

/-! ## The items that a sequence comes to -/

/-- The items come to before and at the first fault, each with the state it was come to in. -/
def visits (step : α → σ → Outcome σ) : List α → σ → List (α × σ)
  | [], _ => []
  | a :: as, s =>
    match step a s with
    | ⟨s', none⟩ => (a, s) :: visits step as s'
    | ⟨_, some _⟩ => [(a, s)]

/-- An item is visited, and those behind it if it brings no fault. -/
theorem visits_cons (step : α → σ → Outcome σ) (a : α) (as : List α) (s : σ) :
    visits step (a :: as) s
      = (a, s) :: if (step a s).fault = none then visits step as (step a s).state else [] := by
  rw [visits]
  obtain ⟨s', fault⟩ := step a s
  cases fault with
  | none => rfl
  | some f => rfl

theorem visits_singleton (step : α → σ → Outcome σ) (a : α) (s : σ) :
    visits step [a] s = [(a, s)] := by
  rw [visits_cons, visits, ite_self]

/-- What is behind an item is come to if the items before it brought no fault. -/
theorem visits_append (step : α → σ → Outcome σ) (as bs : List α) (s : σ) :
    visits step (as ++ bs) s = visits step as s
      ++ if (each step as s).fault = none then visits step bs (each step as s).state else [] := by
  induction as generalizing s with
  | nil => rfl
  | cons a as ih =>
    rw [List.cons_append, visits_cons, visits_cons, each_cons]
    cases hs : step a s with
    | mk next fault =>
      cases fault with
      | none => exact congrArg (List.cons (a, s)) (ih next)
      | some f => rfl

/-- Without a fault every item is come to. -/
theorem map_fst_visits {step : α → σ → Outcome σ} {as : List α} {s : σ}
    (h : (each step as s).fault = none) : (visits step as s).map Prod.fst = as := by
  induction as generalizing s with
  | nil => rfl
  | cons a as ih =>
    rw [each_cons] at h
    rw [visits_cons]
    cases hs : step a s with
    | mk next fault =>
      rw [hs] at h
      cases fault with
      | some f => cases h
      | none => exact congrArg (List.cons a) (ih h)

/-- What every item keeps of a state and of what was visited before, a sequence keeps. -/
theorem visits_keep {P : List (α × σ) → σ → Prop} {step : α → σ → Outcome σ}
    (h : ∀ past a s, P past s → P (past ++ [(a, s)]) (step a s).state)
    (as : List α) {past : List (α × σ)} {s : σ} (hs : P past s) :
    P (past ++ visits step as s) (each step as s).state := by
  induction as generalizing past s with
  | nil =>
    rw [visits, List.append_nil]
    exact hs
  | cons a as ih =>
    -- the item is visited, fault or no fault; what is behind it only without one
    have done := h past a s hs
    rw [visits_cons, each_cons, List.append_cons]
    cases ha : step a s with
    | mk next fault =>
      rw [ha] at done
      cases fault with
      | none => exact ih done
      | some f => exact (List.append_nil _).symm ▸ done

/-- The states in which items were come to are those that the items before had left, without a
fault; and if there is an item that was not come to, a fault is why. -/
theorem visits_states (step : α → σ → Outcome σ) (as : List α) (s : σ) :
    ∃ begun ≤ as.length,
      (visits step as s).map Prod.snd
        = (List.range begun).map (fun i => (each step (as.take i) s).state) ∧
      (∀ i < begun, (each step (as.take i) s).fault = none) ∧
      each step as s = each step (as.take begun) s ∧
      ((each step as s).fault = none → begun = as.length) := by
  induction as generalizing s with
  | nil =>
    exact ⟨0, Nat.le_refl 0, rfl, fun _ hi => absurd hi (Nat.not_lt_zero _), rfl, fun _ => rfl⟩
  | cons a as ih =>
    rw [visits_cons, each_cons]
    cases hs : step a s with
    | mk next fault =>
      cases fault with
      | some f =>
        refine ⟨1, by simp, rfl, fun i hi => ?_, ?_, fun h => absurd h (by simp [andThen])⟩
        · rw [Nat.lt_one_iff.mp hi]
          rfl
        · rw [List.take_succ_cons, List.take_zero, each_singleton, hs]
          rfl
      | none =>
        obtain ⟨begun, bound, states, whole, same, all⟩ := ih next
        have after : ∀ i, each step ((a :: as).take (i + 1)) s = each step (as.take i) next := by
          intro i
          rw [List.take_succ_cons, each_cons, hs]
          rfl
        refine ⟨begun + 1, by simpa using bound, ?_, fun i hi => ?_, ?_, fun h => ?_⟩
        · rw [if_pos rfl, List.map_cons, states, List.range_succ_eq_map, List.map_cons,
            List.map_map]
          refine congrArg (List.cons s) (List.map_congr_left fun i _ => ?_)
          exact congrArg Outcome.state (after i).symm
        · cases i with
          | zero => rfl
          | succ i =>
            rw [after]
            exact whole i (by omega)
        · rw [after]
          exact same
        · rw [all h, List.length_cons]

/-- A way from one state to another, item by item and without a fault. -/
def Path (step : α → σ → Outcome σ) : σ → List (α × σ) → σ → Prop
  | s, [], s' => s' = s
  | s, (a, before) :: rest, s' =>
    before = s ∧ ∃ next, step a s = done next ∧ Path step next rest s'

variable {step : α → σ → Outcome σ}

theorem path_append {p q : List (α × σ)} {s s' : σ} :
    Path step s (p ++ q) s' ↔ ∃ mid, Path step s p mid ∧ Path step mid q s' := by
  induction p generalizing s with
  | nil => exact ⟨fun h => ⟨s, rfl, h⟩, fun ⟨mid, hp, hq⟩ => hp ▸ hq⟩
  | cons e p ih =>
    obtain ⟨a, before⟩ := e
    constructor
    · rintro ⟨here, next, hs, rest⟩
      obtain ⟨mid, hp, hq⟩ := ih.mp rest
      exact ⟨mid, ⟨here, next, hs, hp⟩, hq⟩
    · rintro ⟨mid, ⟨here, next, hs, hp⟩, hq⟩
      exact ⟨here, next, hs, ih.mpr ⟨mid, hp, hq⟩⟩

/-- What was visited before an item led to the state that the item was come to in. -/
theorem path_of_visits {as : List α} {past later : List (α × σ)} {a : α} {s before : σ}
    (h : visits step as s = past ++ (a, before) :: later) : Path step s past before := by
  induction past generalizing as s with
  | nil =>
    cases as with
    | nil => exact absurd h (by simp [visits])
    | cons b bs =>
      rw [visits_cons, List.nil_append] at h
      exact (congrArg Prod.snd (List.cons.inj h).1).symm
  | cons e past ih =>
    cases as with
    | nil => exact absurd h (by simp [visits])
    | cons b bs =>
      rw [visits_cons, List.cons_append] at h
      obtain ⟨rfl, rest⟩ := List.cons.inj h
      by_cases hf : (step b s).fault = none
      · rw [if_pos hf] at rest
        exact ⟨rfl, (step b s).state, congrArg (Outcome.mk _) hf, ih rest⟩
      · rw [if_neg hf] at rest
        exact absurd rest (by simp)

/-- A sequence runs to its end along its visits, or the last of them brings the fault. -/
theorem each_path (as : List α) (s : σ) :
    (∃ s', each step as s = done s' ∧ Path step s (visits step as s) s') ∨
    ∃ past a before after f, visits step as s = past ++ [(a, before)] ∧
      Path step s past before ∧ step a before = cut after f ∧ each step as s = cut after f := by
  induction as generalizing s with
  | nil => exact Or.inl ⟨s, rfl, rfl⟩
  | cons a as ih =>
    rw [each_cons, visits_cons]
    cases hs : step a s with
    | mk next fault =>
      cases fault with
      | some f => exact Or.inr ⟨[], a, s, next, f, rfl, rfl, hs, rfl⟩
      | none =>
        rcases ih next with ⟨s', he, hp⟩ | ⟨past, b, before, after, f, hv, hp, hb, he⟩
        · exact Or.inl ⟨s', he, rfl, next, hs, hp⟩
        · refine Or.inr ⟨(a, s) :: past, b, before, after, f, ?_, ⟨rfl, next, hs, hp⟩, hb, he⟩
          exact congrArg (List.cons (a, s)) hv

end Outcome
end Chip8Vm
