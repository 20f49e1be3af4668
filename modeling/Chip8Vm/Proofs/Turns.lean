import Chip8Vm.Proofs.Hosting
import Chip8Vm.Proofs.Refusals
import Chip8Vm.Proofs.Repaint
import Chip8Vm.Proofs.Requests
import Chip8Vm.Proofs.Unseen

/-!
# Turns

A turn is the calls of its events and of a frame, and then the display is shown. Turns are begun
until one of them has stopped the host, and what is behind the stop in that turn is done all the
same.

> **a machine is moved by the turns as by their calls, and shown in between** (`map_turns`);
> **showing it makes no difference to what it does** (`matches_beats`);
> **at the beginning of each turn the window has the picture of the display** (`Pictured.turns`), if
> it is one that can have it.

Whether anything was shown is seen in the flag of the display alone, and so the session can be
followed through the moves of its calls.
-/

set_option autoImplicit false

namespace Chip8Vm

/-- The flag of the display, put aside. -/
def Veil.flag : Veil where
  random := id
  dirty _ := false
  next_random _ := rfl
  random_advance _ := rfl
  random_random _ := rfl
  dirty_dirty _ := rfl

/-- Machines that are the same up to the flag differ in the flag at most. -/
theorem Veil.Same.eq_of_flag {m m' : Machine} (h : Veil.flag.Same m m') :
    m = { m' with display := { m'.display with dirty := m.display.dirty } } :=
  congrArg (fun shown : Machine =>
    { shown with display := { shown.display with dirty := m.display.dirty } }) h

namespace Host

/-- What a turn asks of the host. -/
def turnCalls (events : List Event) : List Call := events.map .event ++ [.frame]

/-- The turns that come to a host: those of a script and one in which the user closes the window,
up to the first that stops the host. -/
def turnsUntilStop : List (List Event) → List (List Event)
  | [] => [[.quit]]
  | events :: script => events :: if events.any Event.stops then [] else turnsUntilStop script

theorem turnsUntilStop_eq (script : List (List Event)) :
    turnsUntilStop script
      = (script ++ [[Event.quit]]).take (script.findIdx (·.any Event.stops) + 1) := by
  induction script with
  | nil => rfl
  | cons events script ih =>
    rw [turnsUntilStop, List.findIdx_cons, List.cons_append, List.take_succ_cons, ih]
    cases events.any Event.stops with
    | true => rfl
    | false => rfl

theorem length_turnsUntilStop (script : List (List Event)) :
    (turnsUntilStop script).length = script.findIdx (·.any Event.stops) + 1 := by
  have bound : script.findIdx (·.any Event.stops) ≤ script.length := List.findIdx_le_length
  rw [turnsUntilStop_eq, List.length_take, List.length_append, List.length_singleton]
  omega

/-! ## Moves, and showing in between -/

/-- Something that a session does to its machine: a move, or to show the display. -/
inductive Beat where
  | move (move : Move)
  | shown

namespace Beat

def run : Beat → Machine → Outcome Machine
  | .move done, m => done.run m
  | .shown, m => .done { m with display := { m.display with dirty := false } }

/-- The move, if it is one. -/
def move? : Beat → Option Move
  | .move done => some done
  | .shown => none

end Beat

/-- What turns come down to: the moves of each, and then the display is shown. -/
def beats (speed : Int) : Bool → List (List Event) → List Beat
  | _, [] => []
  | paused, events :: turns =>
    (schedule speed paused (turnCalls events)).map .move
      ++ .shown :: beats speed (pausedAfter paused (turnCalls events)) turns

/-- Without the showing, turns are their calls. -/
theorem moves_beats (speed : Int) (paused : Bool) (turns : List (List Event)) :
    (beats speed paused turns).filterMap Beat.move?
      = schedule speed paused (turns.flatMap turnCalls) := by
  induction turns generalizing paused with
  | nil => rfl
  | cons events turns ih =>
    have all : ∀ moves : List Move, (moves.map Beat.move).filterMap Beat.move? = moves := by
      intro moves
      rw [List.filterMap_map]
      exact List.filterMap_some
    rw [beats, List.filterMap_append, all, List.filterMap_cons_none rfl, ih, List.flatMap_cons,
      schedule_append]

/-- What the moves of the first so many turns make of a machine. -/
def afterTurns (speed : Int) (paused : Bool) (turns : List (List Event)) (m : Machine) (n : Nat) :
    Outcome Machine :=
  Outcome.each Move.run (schedule speed paused ((turns.take n).flatMap turnCalls)) m

/-- The machine as it is seen at the beginning of a turn. Since the turn before its display has been
shown. -/
def seenAt (speed : Int) (paused : Bool) (turns : List (List Event)) (m : Machine) (n : Nat) :
    Machine :=
  let left := (afterTurns speed paused turns m n).state
  { left with display := { left.display with dirty := n = 0 } }

/-- **Showing the display makes no difference** to the machine but for the flag. -/
theorem matches_beats {m m' : Machine} (h : Veil.flag.Same m m') (bs : List Beat) :
    Outcome.Matches Veil.flag.Same (Outcome.each Beat.run bs m)
      (Outcome.each Move.run (bs.filterMap Beat.move?) m') := by
  induction bs generalizing m m' with
  | nil => exact .done h
  | cons b bs ih =>
    cases b with
    | move move =>
      have first : (Beat.move move :: bs).filterMap Beat.move? = move :: bs.filterMap Beat.move? :=
        rfl
      rw [first, Outcome.each_cons, Outcome.each_cons]
      exact (h.move move).andThen fun _ _ => ih
    | shown =>
      rw [List.filterMap_cons_none rfl, Outcome.each_cons]
      have shown : Veil.flag.Same { m with display := { m.display with dirty := false } } m := rfl
      exact ih (shown.trans h)

end Host

namespace Stage

open Host

variable {g : Graphics} {speed : Int} {paused running : Bool} {s s' : Stage g} {w : Window g}

/-! ## One turn -/

theorem turn_eq (events : List Event) (s : Stage g) :
    s.turn events = (Outcome.each call (turnCalls events) s).andThen fun s => .done s.render := by
  have last : Outcome.each call [.frame] = frame (g := g) :=
    funext (Outcome.each_singleton call .frame)
  rw [turnCalls, Outcome.each_append, Outcome.each_map, last]
  rfl

theorem machine_render (s : Stage g) :
    s.render.traced.machine
      = { s.traced.machine with display := { s.traced.machine.display with dirty := false } } := by
  unfold render Window.render
  cases dirty : s.traced.machine.display.dirty with
  | true => rfl
  | false =>
    show s.traced.machine = _
    rw [← dirty]

theorem map_turn (hs : s.host = inMode speed paused running) (events : List Event) :
    (s.turn events).map (·.traced.machine)
      = Outcome.each Beat.run ((schedule speed paused (turnCalls events)).map .move ++ [.shown])
        s.traced.machine := by
  have shown : ∀ s : Stage g, (Outcome.done s.render).map (·.traced.machine)
      = Outcome.each Beat.run [.shown] s.traced.machine :=
    fun s => congrArg Outcome.done s.machine_render
  rw [turn_eq, Outcome.each_append, Outcome.each_map, Outcome.map_andThen shown, map_calls hs]
  rfl

theorem host_turn (hs : s.host = inMode speed paused running) {events : List Event}
    (done : s.turn events = .done s') :
    s'.host = inMode speed (pausedAfter paused (turnCalls events))
      (!events.any Event.stops && running) := by
  rw [turn_eq] at done
  have host := host_calls hs (turnCalls events)
  cases hc : Outcome.each call (turnCalls events) s with
  | mk before fault =>
    rw [hc] at done host
    cases fault with
    | some f => cases done
    | none =>
      have stops : (turnCalls events).any Call.stops = events.any Event.stops := by
        simp [turnCalls, List.any_map, Function.comp_def, Call.stops]
      cases done
      rw [reached_of_done (congrArg Outcome.fault hc), stops] at host
      exact host

/-! ## All of them -/

/-- **What turns do to the machine**, showing it included. -/
theorem map_turns (hs : s.host = inMode speed paused running) (turns : List (List Event)) :
    (Outcome.each turn turns s).map (·.traced.machine)
      = Outcome.each Beat.run (beats speed paused turns) s.traced.machine := by
  induction turns generalizing s paused running with
  | nil => rfl
  | cons events turns ih =>
    rw [beats, List.append_cons, Outcome.each_append, ← map_turn hs, Outcome.each_cons]
    cases ht : s.turn events with
    | mk next fault =>
      cases fault with
      | some f => rfl
      | none => exact ih (host_turn hs ht)

/-- A host that was stopped has no more turns. -/
theorem play_stopped (h : s.host.running = false) (caption : String) (script : List (List Event))
    (trail : Array (Moment g)) : s.play caption script trail = (.done s, trail) := by
  cases script with
  | nil => simp [play, h]
  | cons events script => simp [play, h]

/-- A session plays the turns until the stop, and its trail is what there was to see at the
beginning of each. -/
theorem play_eq (hs : s.host = inMode speed paused true) (caption : String)
    (script : List (List Event)) (trail : Array (Moment g)) :
    (s.play caption script trail).1 = Outcome.each turn (turnsUntilStop script) s ∧
    (s.play caption script trail).2.toList = trail.toList
      ++ ((Outcome.visits turn (turnsUntilStop script) s).map Prod.snd).flatMap
        fun s => (s.moments caption).toList := by
  have running : s.host.running = true := congrArg Host.running hs
  induction script generalizing s paused trail with
  | nil =>
    rw [play, if_pos running, turnsUntilStop, Outcome.each_singleton, Outcome.visits_singleton]
    simp
  | cons events script ih =>
    rw [play, if_pos running, turnsUntilStop, Outcome.each_cons, Outcome.visits_cons]
    cases ht : s.turn events with
    | mk next fault =>
      cases fault with
      | some f => exact ⟨rfl, by simp⟩
      | none =>
        have after := host_turn hs ht
        cases stop : events.any Event.stops with
        | true =>
          rw [stop] at after
          have stopped : next.host.running = false := congrArg Host.running after
          dsimp only
          rw [play_stopped stopped]
          exact ⟨rfl, by simp [Outcome.visits]⟩
        | false =>
          rw [stop] at after
          obtain ⟨whole, seen⟩ := ih after (trail ++ s.moments caption)
            (congrArg Host.running after)
          refine ⟨whole, ?_⟩
          dsimp only
          rw [seen]
          simp

/-! ## The display and its flag -/

theorem told_calls (hs : s.host = inMode speed paused running) (calls : List Call) :
    s.traced.machine.display.Told (Outcome.each call calls s).state.traced.machine.display := by
  have told := s.traced.machine.told_moves (schedule speed paused calls)
  rw [← map_calls hs] at told
  exact told

/-- What is left of a turn is a stage that its calls have left, and that was then shown. -/
theorem rendered_turn {events : List Event} (done : s.turn events = .done s') :
    Outcome.each call (turnCalls events) s
        = .done (Outcome.each call (turnCalls events) s).state ∧
      s' = (Outcome.each call (turnCalls events) s).state.render := by
  rw [turn_eq] at done
  cases hc : Outcome.each call (turnCalls events) s with
  | mk before fault =>
    rw [hc] at done
    cases fault with
    | some f => cases done
    | none =>
      cases done
      exact ⟨rfl, rfl⟩

/-- At the end of a turn the flag is taken back. -/
theorem dirty_turns {turns : List (List Event)} (done : Outcome.each turn turns s = .done s') :
    s'.traced.machine.display.dirty = (turns.isEmpty && s.traced.machine.display.dirty) := by
  induction turns generalizing s with
  | nil =>
    cases done
    rfl
  | cons events turns ih =>
    rw [Outcome.each_cons] at done
    cases ht : s.turn events with
    | mk next fault =>
      rw [ht] at done
      cases fault with
      | some f => cases done
      | none =>
        have clean : next.traced.machine.display.dirty = false := by
          rw [(rendered_turn ht).2, machine_render]
        rw [ih done, clean, Bool.and_false]
        rfl

/-- **Turns leave what the moves of their calls leave**, but for the flag. -/
theorem matches_turns (hs : s.host = inMode speed paused running) (turns : List (List Event)) :
    Outcome.Matches Veil.flag.Same ((Outcome.each turn turns s).map (·.traced.machine))
      (Outcome.each Move.run (schedule speed paused (turns.flatMap turnCalls))
        s.traced.machine) := by
  rw [map_turns hs, ← moves_beats]
  exact matches_beats (.refl _ _) _

/-- The stage at the beginning of a turn, if the turns before it have gone through. -/
def atTurn (s : Stage g) (turns : List (List Event)) (n : Nat) : Stage g :=
  (Outcome.each turn (turns.take n) s).state

/-- The machine at the beginning of a turn, of one that was to be shown at first. -/
theorem machine_atTurn (hs : s.host = inMode speed paused running)
    (changed : s.traced.machine.display.dirty = true) {turns : List (List Event)} {n : Nat}
    (hn : n < turns.length) (done : (Outcome.each turn (turns.take n) s).fault = none) :
    (s.atTurn turns n).traced.machine = seenAt speed paused turns s.traced.machine n := by
  have reached : Outcome.each turn (turns.take n) s = .done (s.atTurn turns n) :=
    congrArg (Outcome.mk _) done
  have flag := dirty_turns reached
  have same : Veil.flag.Same (s.atTurn turns n).traced.machine
      (afterTurns speed paused turns s.traced.machine n).state :=
    (matches_turns hs (turns.take n)).state
  have first : (turns.take n).isEmpty = decide (n = 0) := by
    cases turns with
    | nil => cases hn
    | cons events turns => cases n <;> rfl
  rw [changed, Bool.and_true, first] at flag
  rw [same.eq_of_flag, flag]
  rfl

/-- **The moments of turns**, of a machine that was to be shown: as many as there are turns begun,
and all of them are begun unless the moves fault. -/
theorem moments_turns (hs : s.host = inMode speed paused running)
    (changed : s.traced.machine.display.dirty = true) (caption : String)
    (turns : List (List Event)) :
    let after := afterTurns speed paused turns s.traced.machine
    let seen := seenAt speed paused turns s.traced.machine
    ∃ begun ≤ turns.length,
      ((Outcome.visits turn turns s).map Prod.snd).flatMap (fun s => (s.moments caption).toList)
        = (List.range begun).flatMap (fun n =>
          [.clock 60, .fetch caption (s.atTurn turns n).window.surface (seen n)]) ∧
      (∀ n < begun, (Outcome.each turn (turns.take n) s).fault = none ∧ (after n).fault = none) ∧
      (Outcome.each turn turns s).fault = (after begun).fault ∧
      ((after begun).fault = none → begun = turns.length) := by
  intro after seen
  obtain ⟨begun, bound, states, running, same, all⟩ := Outcome.visits_states turn turns s
  have fault : ∀ n, (Outcome.each turn (turns.take n) s).fault = (after n).fault :=
    fun n => (matches_turns hs (turns.take n)).fault
  have faults : (Outcome.each turn turns s).fault = (after begun).fault := by
    rw [same, fault]
  refine ⟨begun, bound, ?_, fun n hn => ⟨running n hn, (fault n).symm.trans (running n hn)⟩, faults,
    fun h => all (faults.trans h)⟩
  rw [states, List.flatMap_map]
  refine congrArg List.flatten (List.map_congr_left fun n hn => ?_)
  have hn : n < begun := List.mem_range.mp hn
  have machine := machine_atTurn hs changed (by omega : n < turns.length) (running n hn)
  unfold atTurn at machine
  unfold moments
  rw [machine]
  rfl

/-! ## The picture -/

/-- The window is as it was made, apart from what is to be seen; it keeps up with the display, and
just now it shows it. -/
structure Pictured (w : Window g) (s : Stage g) : Prop where
  window : ∃ surface, s.window = { w with surface }
  tracks : s.window.Tracks s.traced.machine.display
  shows : s.window.Shows s.traced.machine.display

theorem window_calls (calls : List Call) (s : Stage g) :
    (Outcome.each call calls s).state.window = s.window := by
  refine Outcome.each_keeps (P := fun s' : Stage g => s'.window = s.window) (fun c s' h => ?_) rfl
  cases c with
  | event e => exact h
  | frame => exact h

/-- **One turn**: the calls leave the window behind the display, and showing it makes it right. -/
theorem Pictured.turn (paints : g.Paints) (hs : s.host = inMode speed paused running)
    (h : s.Pictured w) {events : List Event} (done : s.turn events = .done s') :
    s'.Pictured w := by
  obtain ⟨-, rfl⟩ := rendered_turn done
  have window := window_calls (turnCalls events) s
  have told := told_calls hs (turnCalls events)
  generalize (Outcome.each call (turnCalls events) s).state = left at window told
  have tracks : left.window.Tracks left.traced.machine.display := by
    rw [window]
    exact h.tracks.told told
  obtain ⟨⟨surface, same⟩, shows, tracks, display⟩ := tracks.render paints
  obtain ⟨before, made⟩ := h.window
  refine ⟨⟨surface, ?_⟩, tracks, ?_⟩
  · show (left.window.render left.traced.machine.display).1 = _
    rw [same, window, made]
  · show (left.window.render left.traced.machine.display).1.Shows
      (left.window.render left.traced.machine.display).2
    rw [display]
    exact shows

/-- **All turns** that go through. -/
theorem Pictured.turns (paints : g.Paints) (hs : s.host = inMode speed paused running)
    (h : s.Pictured w) {turns : List (List Event)}
    (done : Outcome.each Stage.turn turns s = .done s') : s'.Pictured w := by
  induction turns generalizing s paused running with
  | nil =>
    cases done
    exact h
  | cons events turns ih =>
    rw [Outcome.each_cons] at done
    cases ht : s.turn events with
    | mk next fault =>
      rw [ht] at done
      cases fault with
      | some f => cases done
      | none => exact ih (host_turn hs ht) (h.turn paints hs ht) done

end Stage

/-! ## Sessions -/

/-- A machine that has just been made and has a program image in its memory. -/
def Machine.loaded (random : RandomSource) (bytes : List UInt8) : Machine :=
  { initial random with memory := Memory.blank.splice imageStart bytes }

namespace Session

open Host

variable {g : Graphics} {files : Files} {words : List String} {options : Options} {name : String}
  {bytes : List UInt8} {opened : g.Surface}

/-- The stage of a session whose program image has been loaded and whose window has a surface. -/
def opening (options : Options) (name : String) (bytes : List UInt8) (opened : g.Surface)
    (random : RandomSource) (threshold : Level) : Stage g where
  host := .make options.speed options.paused
  traced := ⟨.loaded random bytes, (Log.empty threshold).add (.loaded name)⟩
  window := ⟨options.scale, Window.defaultBackground, Window.defaultForeground,
    g.fill Window.defaultBackground opened⟩

/-- At first there is nothing to show but the background, and that is what there is to see. -/
theorem pictured_opening (paints : g.Paints) (exact : Window.Exact options.scale opened)
    (name : String) (bytes : List UInt8) (random : RandomSource) (threshold : Level) :
    let s := opening options name bytes opened random threshold
    s.Pictured s.window := by
  intro s
  have shows := Window.shows_fill paints exact Window.defaultBackground Window.defaultForeground
    Display.lit_blank
  have filled := exact.fill paints Window.defaultBackground
  exact ⟨⟨_, rfl⟩, ⟨filled, fun _ => shows⟩, shows⟩

theorem loadFile_of_fits (there : files name = .ok bytes)
    (fits : Machine.imageFault? bytes.length = none) (random : RandomSource) (log : Log) :
    Traced.loadFile files name ⟨.make .blank .released random, log⟩
      = .done ⟨.loaded random bytes, log.add (.loaded name)⟩ := by
  rw [Traced.loadFile_of_ok there, fits, Machine.make_eq_initial]
  rfl

/-- A session that comes so far plays its turns. -/
theorem run_eq_played (asked : Options.read defaultSpeed Window.defaultScale words = .play options)
    (named : options.file = some name) (there : files name = .ok bytes)
    (fits : Machine.imageFault? bytes.length = none)
    (granted : g.grant (displayWidth * options.scale) (displayHeight * options.scale) = .ok opened)
    (script : List (List Event)) (random : RandomSource) (threshold : Level) :
    let s := opening options name bytes opened random threshold
    run g words files script random threshold
      = played (s.play (Storage.baseName name) script #[]).1
        (s.play (Storage.baseName name) script #[]).2 := by
  intro s
  unfold run
  rw [asked]
  simp only [play, named, loadFile_of_fits there fits, Window.make, granted]
  rfl

theorem trail_played (o : Outcome (Stage g)) (trail : Array (Moment g)) :
    (played o trail).trail = trail := by
  unfold played
  dsimp only
  split
  · rfl
  · split
    · rfl
    · rfl

theorem played_returned_iff {o : Outcome (Stage g)} {trail : Array (Moment g)} :
    (played o trail).ending = .returned ↔ o.fault = none := by
  unfold played
  dsimp only
  cases o.fault with
  | none => simp
  | some fault =>
    cases h : fault.stackFaultName? with
    | none => simp [h]
    | some title => simp [h]

/-- **The shape of every session** that comes to be played. Turns are begun up to the one that stops
the host, or that in which the moves fault; the session returns exactly when they do not. At the
beginning of each turn the clock is waited for, and then there is to be seen the base name of the
file and the machine that the moves of all the turns before have left. If the library paints, and
the window is as large as was asked for, there is also the picture of the machine's display. -/
theorem run_turns (files : Files) (script : List (List Event)) (random : RandomSource)
    (threshold : Level)
    (asked : Options.read defaultSpeed Window.defaultScale words = .play options)
    (named : options.file = some name) (there : files name = .ok bytes)
    (even : bytes.length % 2 = 0) (fits : bytes.length ≤ 3584)
    (granted : g.grant (displayWidth * options.scale) (displayHeight * options.scale)
      = .ok opened) :
    let report := run g words files script random threshold
    let last := script.findIdx (·.any Event.stops)
    let turns := (script ++ [[Event.quit]]).take (last + 1)
    let after := afterTurns options.speed options.paused turns (.loaded random bytes)
    let seen := seenAt options.speed options.paused turns (.loaded random bytes)
    ∃ caption, Storage.IsBaseName name caption ∧ ∃ begun ≤ last + 1, ∃ surface : Nat → g.Surface,
      report.trail.toList = (List.range begun).flatMap
        (fun n => [.clock 60, .fetch caption (surface n) (seen n)]) ∧
      (∀ n < begun, (after n).fault = none) ∧
      (report.ending = .returned ↔ (after begun).fault = none) ∧
      ((after begun).fault = none → begun = last + 1) ∧
      (g.Paints → (g.width opened : Int) = displayWidth * options.scale →
        (g.height opened : Int) = displayHeight * options.scale → ∀ n < begun,
          Window.Shows
            ⟨options.scale, Window.defaultBackground, Window.defaultForeground, surface n⟩
            (seen n).display) := by
  intro report last turns after seen
  have upToStop : turnsUntilStop script = turns := turnsUntilStop_eq script
  have length : turns.length = last + 1 := upToStop ▸ length_turnsUntilStop script
  let s : Stage g := opening options name bytes opened random threshold
  have hs : s.host = inMode options.speed options.paused true := rfl
  obtain ⟨whole, trail⟩ := Stage.play_eq hs (Storage.baseName name) script #[]
  obtain ⟨begun, bound, moments, running, fault, all⟩ :=
    Stage.moments_turns hs rfl (Storage.baseName name) turns
  have played : report = played _ _ := run_eq_played asked named there
    (Machine.imageFault?_eq_none_iff.mpr ⟨even, fits⟩) granted script random threshold
  rw [upToStop] at whole trail
  rw [length] at all
  refine ⟨Storage.baseName name, Storage.isBaseName_baseName name, begun, length ▸ bound,
    fun n => (s.atTurn turns n).window.surface, ?_, fun n hn => (running n hn).2, ?_, all,
    fun paints width height n hn => ?_⟩
  · rw [played, trail_played, trail, moments]
    rfl
  · rw [played, played_returned_iff, whole, fault]
    rfl
  · have exact : Window.Exact options.scale opened :=
      ⟨(Options.bounds_of_read asked).2, width, height⟩
    have reached : Outcome.each Stage.turn (turns.take n) s = .done (s.atTurn turns n) :=
      congrArg (Outcome.mk _) (running n hn).1
    have pictured := (pictured_opening paints exact name bytes random threshold).turns paints hs
      reached
    obtain ⟨surface, window⟩ := pictured.window
    have machine : (s.atTurn turns n).traced.machine = seen n :=
      Stage.machine_atTurn hs rfl (by omega) (running n hn).1
    have shows := pictured.shows
    rw [machine, window] at shows
    dsimp only
    rw [window]
    exact shows

/-- A paused session with a script of three turns that is stopped in the second, where the keys are
still released: there are two turns, with two moments each, and a pixel at first in the
background. -/
theorem run_turns_stoppedScript :
    let script : List (List Event) :=
      [[.keyDown (.character 'q')], [.keyDown .escape, .focusLost], [.keyDown .space]]
    let report := run .raster ["-f", "roms/loop", "--scale=2", "--paused"]
      (fun _ => .ok [0x12, 0x00]) script ⟨fun _ => 0, 0⟩ .info
    report.ending = .returned ∧ report.trail.size = 4 ∧
      ∃ caption surface machine, report.trail.toList[1]? = some (.fetch caption surface machine) ∧
        surface.read 127 63 = .ok Window.defaultBackground := by
  intro script report
  let options : Options := ⟨some "roms/loop", 600, 2, true⟩
  have asked : Options.read defaultSpeed Window.defaultScale
      ["-f", "roms/loop", "--scale=2", "--paused"] = .play options := by decide +kernel
  obtain ⟨caption, -, begun, bound, surface, trail, running, returned, all, shows⟩ :=
    run_turns (g := .raster) (fun _ => .ok [0x12, 0x00]) script ⟨fun _ => 0, 0⟩ .info asked rfl rfl
      (by decide) (by decide) rfl
  have quiet : ∀ n ≤ 2, (afterTurns 600 true (script.take 2)
      (.loaded ⟨fun _ => 0, 0⟩ [0x12, 0x00]) n).fault = none := by
    intro n hn
    match n, hn with
    | 0, _ | 1, _ | 2, _ => rfl
  have whole := quiet begun bound
  have two : begun = 2 := all whole
  have column : ((127 : Nat) : Int) < displayWidth * 2 := by decide
  have line : ((63 : Nat) : Int) < displayHeight * 2 := by decide
  obtain ⟨lit, pixel, color⟩ :=
    shows Graphics.paints_raster rfl rfl 0 (two ▸ by decide) 127 63 column line
  cases (Display.pixel_eq_lit _ 63 31).symm.trans pixel
  have dark : ∀ turns, (seenAt options.speed options.paused turns
      (.loaded ⟨fun _ => 0, 0⟩ [0x12, 0x00]) 0).display.lit 63 31 = false :=
    fun _ => Display.lit_blank 63 31
  rw [dark] at color
  let first := seenAt 600 true (script.take 2) (.loaded ⟨fun _ => 0, 0⟩ [0x12, 0x00]) 0
  refine ⟨returned.mpr whole, ?_, caption, surface 0, first, ?_, color⟩
  · rw [← Array.length_toList, trail, two]
    rfl
  · rw [trail, two]
    rfl

/-- **The size asked for is needed for the picture.** At this scale there is a window, and the
library paints, but what is to be seen when the first events are fetched has one pixel to a place
and none where the picture would go on. -/
theorem run_cutPicture :
    let report := run .raster ["-f", "loop", "--scale=134217729"] (fun _ => .ok [0x12, 0x00]) []
      ⟨fun _ => 0, 0⟩ .info
    Graphics.raster.Paints ∧
      (∃ opened, Graphics.raster.grant (displayWidth * 134217729) (displayHeight * 134217729)
        = .ok opened) ∧
      ∃ caption surface machine, report.trail.toList[1]? = some (.fetch caption surface machine) ∧
        ¬ Window.Shows (g := .raster)
          ⟨134217729, Window.defaultBackground, Window.defaultForeground, surface⟩
          machine.display := by
  intro report
  let options : Options := ⟨some "loop", 600, 134217729, false⟩
  have asked : Options.read defaultSpeed Window.defaultScale
      ["-f", "loop", "--scale=134217729"] = .play options := by decide +kernel
  let opened := Raster.filled 64 32 (by decide) Raster.black
  have granted : Graphics.raster.grant (displayWidth * options.scale)
      (displayHeight * options.scale) = .ok opened := rfl
  let s : Stage .raster := opening options "loop" [0x12, 0x00] opened ⟨fun _ => 0, 0⟩ .info
  have played : report = played _ _ :=
    run_eq_played asked rfl rfl (by decide) granted [] ⟨fun _ => 0, 0⟩ .info
  refine ⟨Graphics.paints_raster, ⟨opened, granted⟩, Storage.baseName "loop", s.window.surface,
    s.traced.machine, ?_, fun shows => ?_⟩
  · rw [played, trail_played]
    rfl
  · obtain ⟨lit, -, color⟩ := shows 64 0 (by decide) (by decide)
    cases color

end Session
end Chip8Vm
