import Chip8Vm.Proofs.Bench
import Chip8Vm.Proofs.Moves

/-!
# Tracing only looks on

Nothing that is done to a machine asks the log anything: the log is only told. So a run with a log
that keeps everything and the same run with a log that keeps less are one run, and the two logs
differ by the entries that one of them dropped.

To *mute* a log is to raise its threshold and to drop what it would not have kept. Muting commutes
with everything, with one entry that arrives (`Log.mute_add`), with every operation that tells of
what it does, with every command (`Monitor.map_mute_perform`) and every turn of a session
(`Stage.map_mute_turn`), and so with runs and sessions:

> **a run that is traced, with its log muted, is the run that is not traced** (`Monitor.mute_run`,
> `Session.run_mute`), and the faults are the same.
-/

set_option autoImplicit false

namespace Chip8Vm

namespace Log

/-- The log as it would be if it had kept nothing under a level. -/
def mute (level : Level) (log : Log) : Log where
  threshold := if log.threshold.rank ≤ level.rank then level else log.threshold
  entries := log.entries.filter fun e => level.rank ≤ e.level.rank

theorem keeps_mute (level : Level) (log : Log) (l : Level) :
    (log.mute level).keeps l = (log.keeps l && decide (level.rank ≤ l.rank)) := by
  unfold keeps mute
  rw [← Bool.decide_and, decide_eq_decide]
  dsimp only
  split <;> omega

/-- An entry that arrives at the log arrives at the muted log. -/
theorem mute_add (level : Level) (log : Log) (e : Entry) :
    (log.add e).mute level = (log.mute level).add e := by
  have threshold : ((log.add e).mute level).threshold = ((log.mute level).add e).threshold := by
    rw [threshold_add]
    simp only [mute, threshold_add]
  have entries : ((log.add e).mute level).entries = ((log.mute level).add e).entries := by
    rw [entries_add, keeps_mute]
    simp only [mute, entries_add]
    cases log.keeps e.level with
    | false => rfl
    | true => exact Array.filter_push
  have both := congr (congrArg Log.mk threshold) entries
  exact both

theorem mute_empty (level threshold : Level) (h : threshold.rank ≤ level.rank) :
    (empty threshold).mute level = empty level := by
  unfold empty mute
  rw [if_pos h]
  rfl

end Log

namespace Traced

/-- The machine with its log muted. -/
def mute (level : Level) (t : Traced) : Traced := { t with log := t.log.mute level }

variable {level : Level}

theorem map_mute_add (m : Machine) (log : Log) (e : Entry) :
    (Outcome.done ⟨m, log.add e⟩).map (mute level) = .done ⟨m, (log.mute level).add e⟩ :=
  congrArg (fun log => Outcome.done (Traced.mk m log)) (log.mute_add level e)

/-- An operation that is told of when it has come to its end. -/
theorem map_mute_told (log : Log) (e : Entry) (o : Outcome Machine) :
    Outcome.map (mute level)
      (match o with
        | ⟨m, none⟩ => .done ⟨m, log.add e⟩
        | ⟨m, some fault⟩ => .cut ⟨m, log⟩ fault)
      = match o with
        | ⟨m, none⟩ => .done ⟨m, (log.mute level).add e⟩
        | ⟨m, some fault⟩ => .cut ⟨m, log.mute level⟩ fault := by
  obtain ⟨m, fault⟩ := o
  cases fault with
  | none => exact map_mute_add m log e
  | some f => rfl

theorem map_mute_process (opcode : Int) (t : Traced) :
    (t.process opcode).map (mute level) = (t.mute level).process opcode := by
  unfold process
  dsimp only [mute]
  cases Instruction.decode? opcode with
  | none => exact map_mute_add _ t.log _
  | some i => exact map_mute_told t.log _ _

theorem map_mute_cycle (t : Traced) : t.cycle.map (mute level) = (t.mute level).cycle :=
  map_mute_process _ t

theorem map_mute_press (k : Int) (t : Traced) :
    (t.press k).map (mute level) = (t.mute level).press k := by
  unfold press
  cases Keypad.key? k with
  | none => rfl
  | some key => exact map_mute_add _ t.log _

theorem map_mute_release (k : Int) (t : Traced) :
    (t.release k).map (mute level) = (t.mute level).release k := by
  unfold release
  cases Keypad.key? k with
  | none => rfl
  | some key => exact map_mute_add _ t.log _

theorem map_mute_loadFile (files : Files) (name : String) (t : Traced) :
    (t.loadFile files name).map (mute level) = (t.mute level).loadFile files name := by
  unfold loadFile
  cases files name with
  | error fault => rfl
  | ok bytes => exact map_mute_told t.log _ _

end Traced

/-! ## What a host does -/

namespace Host

variable {level : Level}

theorem map_mute_step (t : Traced) : (step t).map (Traced.mute level) = step (t.mute level) := by
  unfold step
  rw [← Traced.map_mute_cycle]
  exact Outcome.map_andThen (fun t => Traced.map_mute_add t.machine t.log _) _

theorem map_mute_deliver (h : Host) (e : Event) (t : Traced) :
    (h.deliver e t).map (Traced.mute level) = h.deliver e (t.mute level) := by
  rcases h.deliver_cases e with ⟨entry, -, he⟩ | he | ⟨k, he⟩ | ⟨k, he⟩ | he | he
  · rw [he, he]
    exact Traced.map_mute_add t.machine t.log entry
  · rw [he, he]
    exact map_mute_step t
  · rw [he, he]
    exact Traced.map_mute_press k t
  · rw [he, he]
    exact Traced.map_mute_release k t
  · rw [he, he]
    rfl
  · rw [he, he]
    rfl

theorem map_mute_frame (h : Host) (t : Traced) :
    (h.frame t).map (Traced.mute level) = h.frame (t.mute level) := by
  unfold frame
  split
  · rfl
  · rw [← Outcome.map_times Traced.map_mute_cycle]
    exact Outcome.map_andThen (k := fun t : Traced => .done t.tick) (fun _ => rfl) _

end Host

/-! ## The bench -/

namespace Monitor

variable {g : Graphics} {level : Level}

/-- The bench with its log muted. -/
def mute (level : Level) (b : Monitor g) : Monitor g := { b with log := b.log.mute level }

theorem map_mute_onTraced {f : Traced → Outcome Traced}
    (hf : ∀ t, (f t).map (Traced.mute level) = f (t.mute level)) (b : Monitor g) :
    (b.onTraced f).map (mute level) = (b.mute level).onTraced f := by
  have muted : f ⟨b.machine, b.log.mute level⟩ = (f ⟨b.machine, b.log⟩).map (Traced.mute level) :=
    (hf ⟨b.machine, b.log⟩).symm
  unfold onTraced
  dsimp only [mute]
  rw [muted]
  rfl

theorem map_mute_onHosted {f : Traced → Outcome Traced}
    (hf : ∀ t, (f t).map (Traced.mute level) = f (t.mute level)) (b : Monitor g) :
    (b.onHosted f).map (mute level) = (b.mute level).onHosted f := by
  have muted : f ⟨b.hosted, b.log.mute level⟩ = (f ⟨b.hosted, b.log⟩).map (Traced.mute level) :=
    (hf ⟨b.hosted, b.log⟩).symm
  have hosted : (b.mute level).hosted = b.hosted := rfl
  unfold onHosted setHosted
  rw [hosted]
  dsimp only [mute]
  rw [muted]
  cases b.retired with
  | none => rfl
  | some old => rfl

/-- **One command** does with the log muted what it does without. -/
theorem map_mute_perform (c : Command) (b : Monitor g) :
    (b.perform c).map (mute level) = (b.mute level).perform c := by
  cases c with
  | loadImage image =>
    simp only [perform, loadImage]
    split <;> rfl
  | loadFile name => exact map_mute_onTraced (Traced.map_mute_loadFile _ name) b
  | process opcode => exact map_mute_onTraced (Traced.map_mute_process opcode) b
  | cycle => exact map_mute_onTraced Traced.map_mute_cycle b
  | press key => exact map_mute_onTraced (Traced.map_mute_press key) b
  | release key => exact map_mute_onTraced (Traced.map_mute_release key) b
  | releaseAll => exact map_mute_onTraced (fun _ => rfl) b
  | setRegister x value =>
    simp only [perform]
    split <;> rfl
  | setRow row bits =>
    simp only [perform]
    split <;> rfl
  | loadMemory address data =>
    simp only [perform, loadMemory]
    split <;> rfl
  | pop =>
    have machine : (b.mute level).machine = b.machine := rfl
    simp only [perform]
    rw [machine]
    cases b.machine.stack.pop? with
    | none => rfl
    | some top => rfl
  | event e =>
    have host : (b.mute level).host = b.host := rfl
    simp only [perform]
    rw [host]
    cases b.host with
    | none => rfl
    | some host =>
      dsimp only
      rw [← map_mute_onHosted (host.map_mute_deliver e)]
      rfl
  | frame =>
    have host : (b.mute level).host = b.host := rfl
    simp only [perform]
    rw [host]
    cases b.host with
    | none => rfl
    | some host => exact map_mute_onHosted host.map_mute_frame b
  | openWindow scale background foreground =>
    simp only [perform, openWindow]
    split <;> rfl
  | render =>
    have window : (b.mute level).window = b.window := rfl
    simp only [perform, render]
    rw [window]
    cases b.window with
    | none => rfl
    | some window => rfl
  | _ => rfl

/-- **A run with its log muted** is the run that begins with its log muted. -/
theorem mute_run (commands : List Command) (b : Monitor g) :
    (b.run commands).mute level = (b.mute level).run commands := by
  induction commands generalizing b with
  | nil => rfl
  | cons c cs ih =>
    rw [run_cons, run_cons, ih, ← map_mute_perform]
    rfl

end Monitor

/-! ## Sessions -/

namespace Stage

variable {g : Graphics} {level : Level}

/-- The stage with its log muted. -/
def mute (level : Level) (s : Stage g) : Stage g := { s with traced := s.traced.mute level }

theorem map_mute_handle (e : Event) (s : Stage g) :
    (s.handle e).map (mute level) = (s.mute level).handle e := by
  unfold handle
  dsimp only [mute]
  rw [← Host.map_mute_deliver]
  rfl

theorem map_mute_frame (s : Stage g) : s.frame.map (mute level) = (s.mute level).frame := by
  unfold frame
  dsimp only [mute]
  rw [← Host.map_mute_frame]
  rfl

theorem map_mute_turn (events : List Event) (s : Stage g) :
    (s.turn events).map (mute level) = (s.mute level).turn events := by
  unfold turn
  rw [← Outcome.map_each map_mute_handle, ← Outcome.map_andThen map_mute_frame]
  exact Outcome.map_andThen (k := fun s : Stage g => .done s.render) (fun _ => rfl) _

/-- Turns are the same turns and have the same moments. -/
theorem play_mute (level : Level) (caption : String) (script : List (List Event)) (s : Stage g)
    (trail : Array (Moment g)) : (s.mute level).play caption script trail
      = ((s.play caption script trail).1.map (mute level), (s.play caption script trail).2) := by
  have running : (s.mute level).host.running = s.host.running := rfl
  have moments : (s.mute level).moments caption = s.moments caption := rfl
  induction script generalizing s trail with
  | nil =>
    unfold play
    rw [running, moments, ← map_mute_turn]
    split <;> rfl
  | cons events script ih =>
    unfold play
    rw [running, moments, ← map_mute_turn]
    split
    · obtain ⟨s', fault⟩ := s.turn events
      cases fault with
      | none => exact ih s' _ rfl rfl
      | some f => rfl
    · rfl

end Stage

/-- The report with its log muted. -/
def Report.mute {g : Graphics} (level : Level) (r : Report g) : Report g :=
  { r with log := r.log.mute level }

namespace Session

variable {g : Graphics} {level threshold : Level}

theorem played_mute (o : Outcome (Stage g)) (trail : Array (Moment g)) :
    (played o trail).mute level = played (o.map (Stage.mute level)) trail := by
  obtain ⟨⟨host, ⟨machine, log⟩, window⟩, fault⟩ := o
  cases fault with
  | none => rfl
  | some f =>
    unfold played
    dsimp only [Outcome.map, Stage.mute, Traced.mute]
    cases f.stackFaultName? with
    | none => rfl
    | some name =>
      dsimp only [Report.mute]
      rw [Log.mute_add]

/-- **A session with its log muted** is the session that keeps no more than the muted log. -/
theorem play_mute (h : threshold.rank ≤ level.rank) (options : Options) (files : Files)
    (script : List (List Event)) (random : RandomSource) :
    (play g options files script random threshold).mute level
      = play g options files script random level := by
  have start : (⟨.make .blank .released random, .empty level⟩ : Traced)
      = Traced.mute level ⟨.make .blank .released random, .empty threshold⟩ := by
    rw [Traced.mute, Log.mute_empty level threshold h]
  unfold play
  rw [start]
  cases options.file with
  | none => rfl
  | some name =>
    dsimp only
    rw [← Traced.map_mute_loadFile]
    obtain ⟨t, fault⟩ :=
      Traced.loadFile files name ⟨.make .blank .released random, .empty threshold⟩
    cases fault with
    | some f => rfl
    | none =>
      dsimp only [Outcome.map]
      cases Window.make g options.scale Window.defaultBackground Window.defaultForeground with
      | error fault => rfl
      | ok window =>
        -- the stage of the one session is that of the other with its log muted
        have turns := Stage.play_mute level (Storage.baseName name) script
          ⟨.make options.speed options.paused, t, window⟩ #[]
        dsimp only [Stage.mute] at turns
        dsimp only
        rw [turns]
        exact played_mute _ _

theorem run_mute (h : threshold.rank ≤ level.rank) (words : List String) (files : Files)
    (script : List (List Event)) (random : RandomSource) :
    (run g words files script random threshold).mute level
      = run g words files script random level := by
  have nothing : ∀ ending output complaint,
      (unplayed ending output complaint threshold : Report g).mute level
        = unplayed ending output complaint level := by
    intro ending output complaint
    unfold unplayed Report.mute
    rw [Log.mute_empty level threshold h]
  unfold run
  cases Options.read Host.defaultSpeed Window.defaultScale words with
  | help => exact nothing _ _ _
  | refused fault => exact nothing _ _ _
  | faulted fault => exact nothing _ _ _
  | play options => exact play_mute h options files script random

end Session

/-! ## With and without tracing -/

/-- The lines of a log that tell of more than single instructions and keys. -/
def Log.toldLines (log : Log) : List String :=
  (log.entries.toList.filter fun e => e.level ∈ [.info, .warning, .error]).map Entry.line

theorem Log.lines_mute (log : Log) : (log.mute .info).lines = log.toldLines := by
  have important : ∀ l : Level, decide (Level.info.rank ≤ l.rank)
      = decide (l ∈ [.info, .warning, .error]) := by
    intro l
    cases l <;> rfl
  unfold lines toldLines mute
  simp only [Array.toList_filter, important]

/-- **Tracing only looks on.** From any bench and after any commands, a bench that is traced and
one that is not differ in their logs alone, the next command brings the same fault if it brings one,
and the untraced log has the lines of the other that are no trace. A session leaves the same report
but for its log, and there too nothing but the trace is missing. -/
theorem tracing_looks_on {g : Graphics} :
    (∀ (b : Monitor g) (commands : List Command) (next : Command),
      let traced := { b with log := .empty .debug }.run commands
      let plain := { b with log := .empty .info }.run commands
      plain = { traced with log := plain.log }
        ∧ plain.log.lines = traced.log.toldLines
        ∧ (plain.perform next).fault = (traced.perform next).fault)
      ∧ ∀ (words : List String) (files : Files) (script : List (List Event))
          (random : RandomSource),
        let traced := Session.run g words files script random .debug
        let plain := Session.run g words files script random .info
        plain = { traced with log := plain.log } ∧ plain.log.lines = traced.log.toldLines := by
  refine ⟨?_, ?_⟩
  · intro b commands next traced plain
    have start : ({ b with log := .empty .info } : Monitor g)
        = Monitor.mute .info { b with log := .empty .debug } := by
      rw [Monitor.mute, Log.mute_empty .info .debug (by decide)]
    have muted : plain = traced.mute .info := by
      rw [Monitor.mute_run, ← start]
    refine ⟨?_, ?_, ?_⟩
    · rw [muted]
      rfl
    · rw [muted]
      exact traced.log.lines_mute
    · rw [muted, ← Monitor.map_mute_perform]
      rfl
  · intro words files script random traced plain
    have muted : plain = traced.mute .info :=
      (Session.run_mute (by decide) words files script random).symm
    refine ⟨?_, ?_⟩
    · rw [muted]
      rfl
    · rw [muted]
      exact traced.log.lines_mute

/-- Of an instruction, a key that goes down and a word without a meaning only the last is no
trace. -/
example : ((Monitor.start ⟨fun _ => 0, 0⟩ .debug : Monitor .raster).run
    [.process 0x00E0, .press 3, .process (-1)]).log.entries.toList.map Entry.level
      = [.debug, .debug, .warning] := by
  decide

end Chip8Vm
