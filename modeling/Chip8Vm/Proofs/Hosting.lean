import Chip8Vm.Proofs.Keys
import Chip8Vm.Proofs.Moves
import Chip8Vm.Raster
import Chip8Vm.Session

/-!
# A host is a schedule

A host takes events and runs frames, and whether it is paused decides what they do. Said without
the host, every call is some moves of the machine: which ones depends on the call and on the mode,
and the mode on nothing but how often the space bar went down before (`pausedAfter`).

> **the machine that a host leaves is the one that the moves of its calls leave**
> (`map_calls`), with the same fault, and what is behind a fault is not done.
-/

set_option autoImplicit false

namespace Chip8Vm

/-- Whether an event stops the host that it comes to. -/
def Event.stops (e : Event) : Bool := e = .quit ∨ e = .keyDown .escape

namespace Host

/-- Something asked of a host. -/
inductive Call where
  | event (e : Event)
  | frame
  deriving DecidableEq

namespace Call

/-- The call that changes the mode. -/
def toggle : Call := event (.keyDown .space)

/-- Whether a call stops the host. -/
def stops : Call → Bool
  | event e => e.stops
  | frame => false

/-- The moves that a call comes down to, at a speed and in one of the two modes. -/
def moves (speed : Int) (paused : Bool) : Call → List Move
  | event e => (Host.make speed paused).movesOn e
  | frame =>
    if paused then [] else List.replicate (max 1 (speed / 60)).toNat .cycle ++ [.tick]

end Call

/-- Whether a host is paused after some calls: the mode it began in, changed once for each time that
the space bar went down. -/
def pausedAfter (paused : Bool) (calls : List Call) : Bool :=
  paused ^^ decide (calls.count Call.toggle % 2 = 1)

/-- The moves of calls, each in the mode that the calls before it left. -/
def schedule (speed : Int) (paused : Bool) (calls : List Call) : List Move :=
  (calls.mapIdx fun i c => c.moves speed (pausedAfter paused (calls.take i))).flatten

/-! ## The mode -/

@[simp] theorem pausedAfter_nil (paused : Bool) : pausedAfter paused [] = paused := by
  simp [pausedAfter]

theorem pausedAfter_append (paused : Bool) (past later : List Call) :
    pausedAfter paused (past ++ later) = pausedAfter (pausedAfter paused past) later := by
  unfold pausedAfter
  rw [List.count_append, Bool.xor_assoc]
  congr 1
  rcases Nat.mod_two_eq_zero_or_one (past.count Call.toggle) with hp | hp <;>
    rcases Nat.mod_two_eq_zero_or_one (later.count Call.toggle) with hl | hl <;>
      simp [Nat.add_mod, hp, hl]

theorem pausedAfter_cons (paused : Bool) (c : Call) (calls : List Call) :
    pausedAfter paused (c :: calls) = pausedAfter (pausedAfter paused [c]) calls :=
  pausedAfter_append paused [c] calls

theorem pausedAfter_toggle (paused : Bool) : pausedAfter paused [Call.toggle] = !paused := by
  simp [pausedAfter]

theorem pausedAfter_of_ne {c : Call} (hc : c ≠ Call.toggle) (paused : Bool) :
    pausedAfter paused [c] = paused := by
  simp [pausedAfter, hc]

/-! ## The moves -/

@[simp] theorem schedule_nil (speed : Int) (paused : Bool) : schedule speed paused [] = [] := rfl

theorem schedule_cons (speed : Int) (paused : Bool) (c : Call) (calls : List Call) :
    schedule speed paused (c :: calls)
      = c.moves speed paused ++ schedule speed (pausedAfter paused [c]) calls := by
  have shift : ∀ i, pausedAfter paused (c :: calls.take i)
      = pausedAfter (pausedAfter paused [c]) (calls.take i) :=
    fun i => pausedAfter_cons paused c (calls.take i)
  unfold schedule
  simp only [List.mapIdx_cons, List.flatten_cons, List.take_zero, pausedAfter_nil,
    List.take_succ_cons, shift]

theorem schedule_append (speed : Int) (paused : Bool) (past later : List Call) :
    schedule speed paused (past ++ later)
      = schedule speed paused past ++ schedule speed (pausedAfter paused past) later := by
  induction past generalizing paused with
  | nil => rw [List.nil_append, schedule_nil, List.nil_append, pausedAfter_nil]
  | cons c past ih =>
    rw [List.cons_append, schedule_cons, schedule_cons, ih, ← pausedAfter_cons, List.append_assoc]

/-- Frames of a paused host are no moves at all. -/
theorem schedule_frames (speed : Int) (n : Nat) :
    schedule speed true (List.replicate n .frame) = [] := by
  induction n with
  | zero => rfl
  | succ n ih =>
    rw [List.replicate_succ, schedule_cons, pausedAfter_of_ne (by decide), ih]
    rfl

/-! ## The host -/

/-- A host of a speed, in one of the two modes, that goes on or was stopped. -/
def inMode (speed : Int) (paused running : Bool) : Host := { make speed paused with running }

theorem after_inMode (speed : Int) (paused running : Bool) (e : Event) :
    (inMode speed paused running).after e
      = inMode speed (pausedAfter paused [.event e]) (!(Call.event e).stops && running) := by
  by_cases he : Call.event e = Call.toggle
  · rw [he, pausedAfter_toggle]
    cases he
    rfl
  · rw [pausedAfter_of_ne he]
    cases e with
    | keyDown key =>
      cases key with
      | space => exact absurd rfl he
      | escape | character | other => rfl
    | quit | keyUp | focusLost | other => rfl

end Host

namespace Stage

variable {g : Graphics}

open Host

variable {speed : Int} {paused running : Bool} {s : Stage g}

/-- Ask something of the host. -/
def call : Call → Stage g → Outcome (Stage g)
  | .event e => handle e
  | .frame => frame

theorem map_call (hs : s.host = inMode speed paused running) (c : Call) :
    (s.call c).map (·.traced.machine)
      = Outcome.each Move.run (c.moves speed paused) s.traced.machine := by
  cases c with
  | event e =>
    have moves : s.host.movesOn e = (Call.event e).moves speed paused := by
      rw [hs]
      cases e <;> rfl
    rw [← moves]
    exact s.host.map_deliver e s.traced
  | frame =>
    have moves : s.host.frameMoves = Call.frame.moves speed paused := by
      rw [hs]
      rfl
    rw [← moves]
    exact s.host.map_frame s.traced

theorem host_call (hs : s.host = inMode speed paused running) (c : Call) :
    (s.call c).state.host = inMode speed (pausedAfter paused [c]) (!c.stops && running) := by
  cases c with
  | event e => exact (congrArg (Host.after · e) hs).trans (after_inMode speed paused running e)
  | frame =>
    rw [pausedAfter_of_ne (by decide)]
    exact hs

/-- The calls that were come to; the last of them may have been cut short. -/
def reached (calls : List Call) (s : Stage g) : List Call :=
  (Outcome.visits call calls s).map Prod.fst

theorem reached_cons (c : Call) (calls : List Call) (s : Stage g) :
    s.reached (c :: calls)
      = c :: if (s.call c).fault = none then (s.call c).state.reached calls else [] := by
  unfold reached
  rw [Outcome.visits_cons]
  split
  · rfl
  · rfl

/-- **The moves of the calls leave the machine that the host leaves**, with the same fault. -/
theorem map_calls (hs : s.host = inMode speed paused running) (calls : List Call) :
    (Outcome.each call calls s).map (·.traced.machine)
      = Outcome.each Move.run (schedule speed paused calls) s.traced.machine := by
  induction calls generalizing s paused running with
  | nil => rfl
  | cons c calls ih =>
    -- what the call leaves is a host in the next mode, for which the rest of the moves is meant
    have next := host_call hs c
    rw [schedule_cons, Outcome.each_cons, Outcome.each_append, ← map_call hs c]
    cases hc : s.call c with
    | mk s' fault =>
      rw [hc] at next
      cases fault with
      | some f => rfl
      | none => exact ih next

/-- The host apart from its machine: its mode goes by the space bar, and it stops for good. -/
theorem host_calls (hs : s.host = inMode speed paused running) (calls : List Call) :
    (Outcome.each call calls s).state.host
      = inMode speed (pausedAfter paused (s.reached calls))
        (!(s.reached calls).any Call.stops && running) := by
  induction calls generalizing s paused running with
  | nil =>
    rw [Outcome.each_nil]
    exact hs.trans (by simp [reached, Outcome.visits])
  | cons c calls ih =>
    have next := host_call hs c
    rw [reached_cons, pausedAfter_cons, List.any_cons, Outcome.each_cons]
    cases hc : s.call c with
    | mk s' fault =>
      rw [hc] at next
      cases fault with
      | some f =>
        show s'.host = _
        rw [if_neg (by simp), List.any_nil, Bool.or_false, pausedAfter_nil]
        exact next
      | none =>
        refine (ih next).trans ?_
        rw [if_pos rfl, Bool.not_or, Bool.and_right_comm, Bool.and_comm]

theorem reached_of_done {calls : List Call} (h : (Outcome.each call calls s).fault = none) :
    s.reached calls = calls :=
  Outcome.map_fst_visits h

end Stage

namespace Host

variable {speed : Int} {paused : Bool}

/-- Of the moves of a host none but a cycle faults: the keys that it knows are all there. -/
theorem fault_of_mem_moves {c : Call} {move : Move} (hm : move ∈ c.moves speed paused)
    (hc : move ≠ .cycle) (m : Machine) : (move.run m).fault = none := by
  cases c with
  | frame =>
    cases paused with
    | true => exact absurd hm List.not_mem_nil
    | false =>
      rcases List.mem_append.mp hm with cycle | last
      · exact absurd (List.eq_of_mem_replicate cycle) hc
      · rw [List.mem_singleton.mp last]
        rfl
  | event e =>
    cases e with
    | quit | other => exact absurd hm List.not_mem_nil
    | focusLost =>
      have only : move = .releaseAll := List.mem_singleton.mp hm
      rw [only]
      rfl
    | keyUp key =>
      obtain ⟨k, -, rfl⟩ := List.mem_map.mp hm
      simp only [Move.run, Keypad.key?_natCast, Outcome.fault_done]
    | keyDown key =>
      simp only [Call.moves, movesOn] at hm
      split at hm
      · exact absurd (List.mem_singleton.mp hm) hc
      · obtain ⟨k, -, rfl⟩ := List.mem_map.mp hm
        simp only [Move.run, Keypad.key?_natCast, Outcome.fault_done]

theorem fault_of_mem_schedule {calls : List Call} {move : Move}
    (hm : move ∈ schedule speed paused calls) (hc : move ≠ .cycle) (m : Machine) :
    (move.run m).fault = none := by
  induction calls generalizing paused with
  | nil => cases hm
  | cons c calls ih =>
    rw [schedule_cons] at hm
    rcases List.mem_append.mp hm with here | behind
    · exact fault_of_mem_moves here hc m
    · exact ih behind

/-! ## Calls that make no difference -/

/-- A call that is no move in the mode it comes in, and keeps the mode, may come or not. -/
theorem schedule_insert {c : Call} (hc : c ≠ Call.toggle) {past : List Call}
    (silent : c.moves speed (pausedAfter paused past) = []) (later : List Call) :
    schedule speed paused (past ++ c :: later) = schedule speed paused (past ++ later) := by
  rw [schedule_append, schedule_append, schedule_cons, silent, pausedAfter_of_ne hc,
    List.nil_append]

/-- A host that is paused, is asked for frames and goes on again has done nothing. -/
theorem schedule_insert_pause {past : List Call} (h : pausedAfter paused past = false) (n : Nat)
    (later : List Call) :
    schedule speed paused
        (past ++ Call.toggle :: (List.replicate n .frame ++ Call.toggle :: later))
      = schedule speed paused (past ++ later) := by
  have still : pausedAfter true (List.replicate n .frame) = true := by
    simp [pausedAfter, List.count_replicate, Call.toggle]
  have silent : ∀ mode, Call.toggle.moves speed mode = [] := fun mode => by cases mode <;> rfl
  rw [schedule_append, schedule_append, h, schedule_cons, silent, pausedAfter_toggle,
    List.nil_append, schedule_append, Bool.not_false, schedule_frames, still, schedule_cons, silent,
    pausedAfter_toggle]
  rfl

end Host

namespace Stage

open Host

variable {g : Graphics}

/-- **A host is nothing but a schedule** for its machine, whatever the machine. Calls leave the
machine that their moves leave, up to the first fault; a fault comes from a cycle, and the moves
behind that cycle are not done. Meanwhile the mode goes by the space bar, and the host goes on until
it is stopped, and never again. So a call that is no move in its mode may be put in anywhere, and so
may a pause. The keys that calls press and release are the sixteen of the keypad, each of them on
one key of the keyboard. -/
theorem calls_scheduled (speed : Int) (paused : Bool) (t : Traced) (w : Window g)
    (calls : List Call) :
    let s : Stage g := ⟨.make speed paused, t, w⟩
    let left := fun calls : List Call => (Outcome.each call calls s).map (·.traced.machine)
    let host := (Outcome.each call calls s).state.host
    left calls = Outcome.each Move.run (schedule speed paused calls) t.machine ∧
    host.paused = pausedAfter paused (s.reached calls) ∧
    host.running = !(s.reached calls).any Call.stops ∧
    ((left calls).fault = none → s.reached calls = calls) ∧
    (∀ f, (left calls).fault = some f → ∃ past before later,
      schedule speed paused calls = past ++ .cycle :: later ∧
      Outcome.each Move.run past t.machine = .done before ∧
      left calls = before.cycle) ∧
    (∀ i, ∀ c ≠ Call.toggle, c.moves speed (pausedAfter paused (calls.take i)) = [] →
      left (calls.take i ++ c :: calls.drop i) = left calls) ∧
    (∀ i n, pausedAfter paused (calls.take i) = false →
      left (calls.take i ++ Call.toggle :: (List.replicate n .frame ++ Call.toggle :: calls.drop i))
        = left calls) ∧
    ∀ k : Fin 16, ∃! key : HostKey, key.padKey? = some k := by
  intro s left host
  have hs : s.host = inMode speed paused true := rfl
  have machine : ∀ calls,
      left calls = Outcome.each Move.run (schedule speed paused calls) t.machine := map_calls hs
  have hh := host_calls hs calls
  refine ⟨machine calls, ?_, ?_, reached_of_done, fun f hf => ?_, fun i c hc silent => ?_,
    fun i n going => ?_, HostKey.existsUnique_padKey?⟩
  · exact congrArg Host.paused hh
  · exact (congrArg Host.running hh).trans (Bool.and_true _)
  · have cut : Outcome.each Move.run (schedule speed paused calls) t.machine
        = .cut (left calls).state f := by
      rw [← machine calls]
      exact congrArg (Outcome.mk _) hf
    obtain ⟨past, move, later, before, split, run, last⟩ := Outcome.each_cut cut
    have cycle : move = .cycle := by
      by_contra hc
      have among : move ∈ schedule speed paused calls := by
        rw [split]
        exact List.mem_append_right _ (List.mem_cons_self ..)
      have whole := fault_of_mem_schedule among hc before
      rw [last] at whole
      cases whole
    rw [cycle] at split last
    exact ⟨past, before, later, split, run, (machine calls).trans (cut.trans last.symm)⟩
  · rw [machine, machine, schedule_insert hc silent, List.take_append_drop]
  · rw [machine, machine, schedule_insert_pause going, List.take_append_drop]

/-- A paused host lets the machine do one step; then it runs a frame of three cycles, and the first
of them finds nothing to return to. -/
theorem calls_scheduled_cutFrame :
    let m : Machine := { Machine.initial ⟨fun _ => 0, 0⟩ with
      memory := (Memory.blank.put 0x202 0x00).put 0x203 0xEE }
    let surface := Raster.filled 64 32 (by decide) Window.defaultBackground
    let s : Stage .raster := ⟨.make 180 true, ⟨m, .empty .info⟩,
      ⟨1, Window.defaultBackground, Window.defaultForeground, surface⟩⟩
    let calls : List Call := [.frame, .event (.keyDown (.character 'n')), .toggle, .frame, .frame]
    let left := (Outcome.each call calls s).map (·.traced.machine)
    left.fault = some .stackUnderflow ∧
      ∃ past before later, schedule 180 true calls = past ++ .cycle :: later ∧
        Outcome.each Move.run past m = .done before ∧ left = before.cycle := by
  intro m surface s calls left
  have hf : left.fault = some .stackUnderflow := by decide +kernel
  obtain ⟨-, -, -, -, cut, -⟩ := calls_scheduled 180 true s.traced s.window calls
  exact ⟨hf, cut _ hf⟩

end Stage
end Chip8Vm
