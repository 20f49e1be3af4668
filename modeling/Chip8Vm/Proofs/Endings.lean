import Chip8Vm.Proofs.StackFaults
import Chip8Vm.Proofs.Turns

/-!
# Endings

A session ends in one of few ways, and which of them is known from what it is given: from what the
command line comes to, from the file, from whether there is a window, and from the moves of the
turns.

> **each way of ending has exactly its own cause** (`run_ends`).

That there are no more of them rests on the machine. It is well-formed from the start, so that only
the stack can fault under it, and what is left then is the state before the instruction with the
program counter moved on (`cycle_of_fault`).
-/

set_option autoImplicit false

namespace Chip8Vm

/-! ## Errors in the log -/

namespace Log

/-- No entry tells of an error. -/
def Quiet (log : Log) : Prop := ∀ e ∈ log.entries, e.level ≠ .error

variable {log : Log}

theorem quiet_empty (threshold : Level) : (empty threshold).Quiet := by
  intro e he
  cases he with | mk he => cases he

theorem Quiet.add (h : log.Quiet) {e : Entry} (he : e.level ≠ .error) : (log.add e).Quiet := by
  intro e' he'
  rw [entries_add] at he'
  split at he'
  · rcases Array.mem_push.mp he' with old | rfl
    · exact h e' old
    · exact he
  · exact h e' he'

/-- Behind a log without errors, an entry of an error is the only one, for every log keeps it. -/
theorem Quiet.errors_add (h : log.Quiet) {e : Entry} (he : e.level = .error) :
    (log.add e).entries.toList.filter (·.level = .error) = [e] := by
  have kept : log.keeps e.level = true := by
    rw [he]
    unfold keeps
    cases log.threshold <;> rfl
  have none : log.entries.toList.filter (·.level = .error) = [] := by
    simpa using fun e he => h e (Array.mem_def.mpr he)
  rw [entries_add, if_pos kept, Array.toList_push, List.filter_append, none]
  simp [he]

end Log

namespace Traced

variable {t : Traced}

theorem quiet_process (h : t.log.Quiet) (opcode : Int) : (t.process opcode).state.log.Quiet := by
  unfold process
  cases Instruction.decode? opcode with
  | none => exact h.add (by simp [Entry.level])
  | some i =>
    dsimp only
    cases t.machine.advance.execute i with
    | mk m fault =>
      cases fault with
      | none => exact h.add (by simp [Entry.level])
      | some f => exact h

theorem quiet_press (h : t.log.Quiet) (k : Int) : (t.press k).state.log.Quiet := by
  unfold press
  cases Keypad.key? k with
  | none => exact h
  | some key => exact h.add (by simp [Entry.level])

theorem quiet_release (h : t.log.Quiet) (k : Int) : (t.release k).state.log.Quiet := by
  unfold release
  cases Keypad.key? k with
  | none => exact h
  | some key => exact h.add (by simp [Entry.level])

end Traced

namespace Host

variable {t : Traced}

theorem quiet_step (h : t.log.Quiet) : (step t).state.log.Quiet :=
  Outcome.andThen_keeps (P := fun t : Traced => t.log.Quiet) (Traced.quiet_process h _) fun _ ht =>
    ht.add (by simp [Entry.level])

theorem quiet_deliver (host : Host) (h : t.log.Quiet) (e : Event) :
    (host.deliver e t).state.log.Quiet := by
  rcases host.deliver_cases e with ⟨entry, level, h'⟩ | h' | ⟨k, h'⟩ | ⟨k, h'⟩ | h' | h'
  · rw [h']
    exact h.add (by simp [level])
  · rw [h']
    exact quiet_step h
  · rw [h']
    exact Traced.quiet_press h k
  · rw [h']
    exact Traced.quiet_release h k
  · rw [h']
    exact h
  · rw [h']
    exact h

theorem quiet_frame (host : Host) (h : t.log.Quiet) : (host.frame t).state.log.Quiet := by
  unfold frame
  split
  · exact h
  · refine Outcome.andThen_keeps (P := fun t : Traced => t.log.Quiet) ?_ fun _ ht => ht
    exact Outcome.times_keeps (P := fun t : Traced => t.log.Quiet)
      (fun _ ht => Traced.quiet_process ht _) _ h

end Host

/-- **Turns tell of no error.** -/
theorem Stage.quiet_turns {g : Graphics} {s : Stage g} (h : s.traced.log.Quiet)
    (turns : List (List Event)) : (Outcome.each turn turns s).state.traced.log.Quiet := by
  refine Outcome.each_keeps (P := fun s : Stage g => s.traced.log.Quiet) (fun events s hs => ?_) h
  rw [turn_eq]
  refine Outcome.andThen_keeps (P := fun s : Stage g => s.traced.log.Quiet) ?_ fun s hs => hs
  refine Outcome.each_keeps (P := fun s : Stage g => s.traced.log.Quiet) (fun c s hs => ?_) hs
  cases c with
  | event e => exact s.host.quiet_deliver hs e
  | frame => exact s.host.quiet_frame hs

/-! ## The faults of turns -/

namespace Machine

/-- A cycle that faults has moved the program counter on, and the fault is one of the stack. -/
theorem cycle_of_fault {m : Machine} (h : m.WellFormed) {fault : Fault}
    (hf : m.cycle.fault = some fault) :
    m.cycle = .cut { m with pc := (m.pc + 2) % 4096 } fault ∧
      (fault = .stackOverflow ∨ fault = .stackUnderflow) := by
  obtain ⟨i, hd, stack⟩ := (fault_process_iff h).mp hf
  constructor
  · exact (process_of_decode hd m).trans (execute_of_stackFault stack)
  · cases stack with
    | overflow => exact .inl rfl
    | underflow => exact .inr rfl

theorem wellFormed_loaded (random : RandomSource) {bytes : List UInt8}
    (fits : imageFault? bytes.length = none) : (loaded random bytes).WellFormed := by
  have image := (wellFormed_initial random).loadImage (bytes.map fun b => (b.toNat : Int))
  rw [loadImage_bytes, fits] at image
  exact image

end Machine

namespace Host

/-- A cycle among some beats faults: the machine that it finds, and the fault. -/
structure Crash (beats : List Beat) (start before : Machine) (fault : Fault) : Prop where
  reached : ∃ past later, beats = past ++ .move .cycle :: later ∧
    Outcome.each Beat.run past start = .done before
  faults : before.cycle.fault = some fault

variable {speed : Int} {paused : Bool} {turns : List (List Event)} {bs : List Beat}
  {m before : Machine} {fault : Fault}

theorem wellFormed_beats (h : m.WellFormed) (bs : List Beat) :
    (Outcome.each Beat.run bs m).state.WellFormed := by
  refine Outcome.each_keeps (P := Machine.WellFormed) (fun b m hm => ?_) h
  cases b with
  | move move => exact hm.move move
  | shown => exact { hm with }

/-- Beats that come to such a cycle end there. -/
theorem Crash.each_eq (h : Crash bs m before fault) :
    Outcome.each Beat.run bs m = .cut before.cycle.state fault := by
  obtain ⟨⟨past, later, rfl, run⟩, faults⟩ := h
  have cycle : Beat.run (.move .cycle) before = .cut before.cycle.state fault :=
    congrArg (Outcome.mk _) faults
  rw [Outcome.each_append, run, Outcome.done_andThen, Outcome.each_cons, cycle]
  rfl

/-- **Nothing but a cycle faults** in the turns of a host. -/
theorem crash_of_fault
    (hf : (Outcome.each Beat.run (beats speed paused turns) m).fault = some fault) :
    ∃ before, Crash (beats speed paused turns) m before fault := by
  obtain ⟨past, b, later, before, split, run, last⟩ :=
    Outcome.each_cut (congrArg (Outcome.mk _) hf : _ = Outcome.cut _ fault)
  have among : b ∈ beats speed paused turns := by
    rw [split]
    exact List.mem_append_right _ (List.mem_cons_self ..)
  cases b with
  | shown => exact absurd (congrArg Outcome.fault last) (by simp [Beat.run])
  | move move =>
    by_cases hm : move = .cycle
    · subst hm
      exact ⟨before, ⟨past, later, split, run⟩, congrArg Outcome.fault last⟩
    · have scheduled : move ∈ schedule speed paused (turns.flatMap turnCalls) := by
        rw [← moves_beats]
        exact List.mem_filterMap.mpr ⟨_, among, rfl⟩
      have whole := fault_of_mem_schedule scheduled hm before
      cases (congrArg Outcome.fault last).symm.trans whole

end Host

/-! ## What a file is good for -/

namespace Session

open Host

/-- What a session asks for is played from a file that has a program image. -/
structure Loads (words : List String) (storage : Storage) (options : Options) (name : String)
    (bytes : List UInt8) : Prop where
  asked : Options.read defaultSpeed Window.defaultScale words = .play options
  named : options.file = some name
  there : storage.open? name = .ok bytes
  even : bytes.length % 2 = 0
  fits : bytes.length ≤ 3584

/-- It is played, in a window that the library grants. -/
structure Plays (g : Graphics) (words : List String) (storage : Storage) (options : Options)
    (name : String) (bytes : List UInt8) : Prop extends Loads words storage options name bytes where
  granted : ∃ opened, g.grant (displayWidth * options.scale) (displayHeight * options.scale)
    = .ok opened

/-- It comes to no window, because the library refuses the one that is asked for. -/
structure Unopened (g : Graphics) (words : List String) (storage : Storage) (options : Options)
    (name : String) (bytes : List UInt8) (fault : Fault) : Prop
    extends Loads words storage options name bytes where
  ungranted : g.grant (displayWidth * options.scale) (displayHeight * options.scale) = .error fault

/-- What a session asks for cannot be played: the file of the name cannot be read, or its length is
none of a program image. -/
structure Fails (words : List String) (storage : Storage) (options : Options) (name : String)
    (fault : Fault) : Prop where
  asked : Options.read defaultSpeed Window.defaultScale words = .play options
  named : options.file = some name
  because :
    (storage.open? name = .error fault ∧
      fault ∈ [.noSuchFile name, .isDirectory name, .notDirectory name, .nameTooLong name]) ∨
    ∃ bytes, storage.open? name = .ok bytes ∧
      ((bytes.length % 2 = 1 ∧ fault = .oddImage bytes.length) ∨
        (bytes.length % 2 = 0 ∧ 3584 < bytes.length ∧ fault = .largeImage bytes.length))

variable {g : Graphics} {words : List String} {storage : Storage} {options : Options}
  {name : String} {bytes : List UInt8} {fault : Fault}

theorem loads_or_fails (hn : name.contains '\x00' = false)
    (asked : Options.read defaultSpeed Window.defaultScale words = .play options)
    (named : options.file = some name) :
    (∃ bytes, Loads words storage options name bytes) ∨
      ∃ fault, Fails words storage options name fault := by
  cases ho : storage.open? name with
  | error fault => exact .inr ⟨fault, asked, named, .inl ⟨ho, Storage.open?_error hn ho⟩⟩
  | ok bytes =>
    rcases Nat.mod_two_eq_zero_or_one bytes.length with even | odd
    · by_cases fits : bytes.length ≤ 3584
      · exact .inl ⟨bytes, asked, named, ho, even, fits⟩
      · refine .inr ⟨_, asked, named, .inr ⟨bytes, ho, .inr ⟨even, ?_, rfl⟩⟩⟩
        omega
    · exact .inr ⟨_, asked, named, .inr ⟨bytes, ho, .inl ⟨odd, rfl⟩⟩⟩

/-- A file that cannot be loaded leaves the machine and the log as they were. -/
theorem Fails.loadFile (h : Fails words storage options name fault) (t : Traced) :
    t.loadFile storage.open? name = .cut t fault ∧ fault.isLoadFault = true := by
  rcases h.because with ⟨there, among⟩ | ⟨bytes, there, ⟨odd, rfl⟩ | ⟨even, large, rfl⟩⟩
  · refine ⟨Traced.loadFile_of_error there t, ?_⟩
    simp only [List.mem_cons, List.not_mem_nil, or_false] at among
    rcases among with rfl | rfl | rfl | rfl <;> rfl
  · rw [Traced.loadFile_of_ok there, Machine.imageFault?_of_odd odd]
    exact ⟨rfl, rfl⟩
  · rw [Traced.loadFile_of_ok there, Machine.imageFault?_of_large even large]
    exact ⟨rfl, rfl⟩

/-! ## From a cause to its ending -/

variable {script : List (List Event)} {random : RandomSource} {threshold : Level} {before : Machine}
  {title : String}

/-- What the turns of a session come down to. -/
def sessionBeats (options : Options) (script : List (List Event)) : List Beat :=
  beats options.speed options.paused (turnsUntilStop script)

/-- The faults that a running program can bring on, by the names that they are given. -/
def Titled (title : String) (fault : Fault) : Prop :=
  (title = "StackOverflowError" ∧ fault = .stackOverflow) ∨
    (title = "StackUnderflowError" ∧ fault = .stackUnderflow)

theorem Titled.stackFaultName? (h : Titled title fault) : fault.stackFaultName? = some title := by
  rcases h with ⟨rfl, rfl⟩ | ⟨rfl, rfl⟩ <;> rfl

/-- The report of turns that such a fault has cut. -/
theorem played_of_titled {o : Outcome (Stage g)} {trail : Array (Moment g)}
    (cut : o.fault = some fault) (titled : Titled title fault) :
    let t := o.state.traced
    played o trail = ⟨.gaveUp (title ++ ": " ++ fault.message), .closed, "", "",
      t.log.add (.crashed t.machine.dump), trail, some t.machine⟩ := by
  unfold played
  simp only [cut, titled.stackFaultName?]

theorem run_of_help (asked : Options.read defaultSpeed Window.defaultScale words = .help) :
    run g words storage.open? script random threshold
      = unplayed .helped Usage.help "" threshold := by
  unfold run
  rw [asked]

theorem run_of_refused {fault : UsageFault}
    (asked : Options.read defaultSpeed Window.defaultScale words = .refused fault) :
    run g words storage.open? script random threshold
      = unplayed .refused "" (Usage.refusal fault) threshold := by
  unfold run
  rw [asked]

theorem run_of_faulted
    (asked : Options.read defaultSpeed Window.defaultScale words = .faulted fault) :
    run g words storage.open? script random threshold
      = unplayed (.faulted fault) "" "" threshold := by
  unfold run
  rw [asked]

theorem run_of_nameless
    (asked : Options.read defaultSpeed Window.defaultScale words = .play options)
    (nameless : options.file = none) :
    run g words storage.open? script random threshold
      = unstarted (.faulted .noName) .unused ⟨.initial random, .empty threshold⟩ := by
  unfold run
  rw [asked]
  simp only [play, nameless, Machine.make_eq_initial]

theorem run_of_fails (h : Fails words storage options name fault) :
    run g words storage.open? script random threshold
      = unstarted (.gaveUp ("Cannot load ROM " ++ name ++ ": " ++ fault.message)) .unused
        ⟨.initial random, .empty threshold⟩ := by
  obtain ⟨failed, load⟩ := h.loadFile ⟨.initial random, .empty threshold⟩
  unfold run
  rw [h.asked]
  simp only [play, h.named, Machine.make_eq_initial, failed]
  show unstarted (if fault.isLoadFault then _ else _) _ _ = _
  rw [if_pos load]

/-- A session without a window has loaded its file. -/
theorem run_of_unopened (h : Unopened g words storage options name bytes fault) :
    run g words storage.open? script random threshold
      = unstarted (.faulted fault) .opened
        ⟨.loaded random bytes, (Log.empty threshold).add (.loaded name)⟩ := by
  have fits := Machine.imageFault?_eq_none_iff.mpr ⟨h.even, h.fits⟩
  unfold run
  rw [h.asked]
  simp only [play, h.named, loadFile_of_fits h.there fits, Window.make, h.ungranted]
  rfl

/-- A session that has a window plays the turns of its script. -/
theorem run_of_plays (h : Plays g words storage options name bytes) :
    ∃ (o : Outcome (Stage g)) (trail : Array (Moment g)),
      run g words storage.open? script random threshold = played o trail ∧
      o.map (·.traced.machine)
        = Outcome.each Beat.run (sessionBeats options script) (.loaded random bytes) ∧
      o.state.traced.log.Quiet := by
  obtain ⟨opened, granted⟩ := h.granted
  let s := opening options name bytes opened random threshold
  have hs : s.host = inMode options.speed options.paused true := rfl
  have quiet : s.traced.log.Quiet := (Log.quiet_empty threshold).add (by simp [Entry.level])
  refine ⟨Outcome.each Stage.turn (turnsUntilStop script) s,
    (s.play (Storage.baseName name) script #[]).2, ?_, Stage.map_turns hs _,
    Stage.quiet_turns quiet _⟩
  rw [← (Stage.play_eq hs (Storage.baseName name) script #[]).1]
  exact run_eq_played h.asked h.named h.there
    (Machine.imageFault?_eq_none_iff.mpr ⟨h.even, h.fits⟩) granted script random threshold

theorem run_of_done (threshold : Level) (h : Plays g words storage options name bytes)
    (done : (Outcome.each Beat.run (sessionBeats options script) (.loaded random bytes)).fault
      = none) :
    let report := run g words storage.open? script random threshold
    report.ending = .returned ∧ report.screen = .closed := by
  obtain ⟨o, trail, report_eq, machine, -⟩ := run_of_plays h
  have whole : o.fault = none := (congrArg Outcome.fault machine).trans done
  intro report
  have report_eq : report = played o trail := report_eq
  rw [report_eq]
  unfold played
  simp only [whole, and_self]

/-- What a cycle leaves that faults in a session, and the name that its fault has. -/
theorem titled_of_crash (h : Loads words storage options name bytes)
    (crash : Crash (sessionBeats options script) (.loaded random bytes) before fault) :
    before.cycle = .cut { before with pc := (before.pc + 2) % 4096 } fault ∧
      ∃ title, Titled title fault := by
  have loaded := Machine.wellFormed_loaded random
    (Machine.imageFault?_eq_none_iff.mpr ⟨h.even, h.fits⟩)
  have wellFormed : before.WellFormed := by
    obtain ⟨past, -, -, run⟩ := crash.reached
    have kept := wellFormed_beats loaded past
    rw [run] at kept
    exact kept
  obtain ⟨cycle, stack⟩ := Machine.cycle_of_fault wellFormed crash.faults
  refine ⟨cycle, ?_⟩
  rcases stack with rfl | rfl
  · exact ⟨_, .inl ⟨rfl, rfl⟩⟩
  · exact ⟨_, .inr ⟨rfl, rfl⟩⟩

theorem run_of_crash (threshold : Level) (h : Plays g words storage options name bytes)
    (crash : Crash (sessionBeats options script) (.loaded random bytes) before fault)
    (titled : Titled title fault) :
    let report := run g words storage.open? script random threshold
    let final := { before with pc := (before.pc + 2) % 4096 }
    report.ending = .gaveUp (title ++ ": " ++ fault.message) ∧ report.screen = .closed ∧
      report.machine = some final ∧
      ∃ log : Log, log.Quiet ∧ report.log = log.add (.crashed final.dump) := by
  obtain ⟨o, trail, report_eq, machine, quiet⟩ := run_of_plays h
  intro report final
  rw [crash.each_eq, (titled_of_crash h.toLoads crash).1] at machine
  have left : o.state.traced.machine = final := congrArg Outcome.state machine
  have cut : o.fault = some fault := (congrArg Outcome.fault machine :)
  have report_eq : report = _ := report_eq.trans (played_of_titled cut titled)
  rw [report_eq, left]
  exact ⟨rfl, rfl, rfl, _, quiet, rfl⟩

/-! ## From an ending to its cause -/

section

variable (g words storage script random threshold)

/-- The ways of ending that there are, with the screen, the machine and the log that each leaves,
and with what brings it about. -/
inductive Course : Ending → Screen → Option Machine → Log → Prop
  | helped (asked : Options.read defaultSpeed Window.defaultScale words = .help) :
      Course .helped .unused none (.empty threshold)
  | refused (fault : UsageFault)
      (asked : Options.read defaultSpeed Window.defaultScale words = .refused fault) :
      Course .refused .unused none (.empty threshold)
  | numberless (asked : Options.read defaultSpeed Window.defaultScale words = .faulted .noNumber) :
      Course (.faulted .noNumber) .unused none (.empty threshold)
  | nameless (options : Options)
      (asked : Options.read defaultSpeed Window.defaultScale words = .play options)
      (nameless : options.file = none) :
      Course (.faulted .noName) .unused (some (.initial random)) (.empty threshold)
  | failed (options : Options) (name : String) (fault : Fault)
      (fails : Fails words storage options name fault) :
      Course (.gaveUp ("Cannot load ROM " ++ name ++ ": " ++ fault.message)) .unused
        (some (.initial random)) (.empty threshold)
  | unopened (options : Options) (name : String) (bytes : List UInt8) (fault : Fault)
      (unopened : Unopened g words storage options name bytes fault) :
      Course (.faulted fault) .opened (some (.loaded random bytes))
        ((Log.empty threshold).add (.loaded name))
  | crashed (options : Options) (name : String) (bytes : List UInt8) (before : Machine)
      (fault : Fault) (title : String) (m : Option Machine) (log : Log)
      (plays : Plays g words storage options name bytes)
      (crash : Crash (sessionBeats options script) (.loaded random bytes) before fault)
      (titled : Titled title fault) :
      Course (.gaveUp (title ++ ": " ++ fault.message)) .closed m log
  | returned (options : Options) (name : String) (bytes : List UInt8) (m : Option Machine)
      (log : Log) (plays : Plays g words storage options name bytes)
      (done : (Outcome.each Beat.run (sessionBeats options script) (.loaded random bytes)).fault
        = none) :
      Course .returned .closed m log

variable {g words storage script random threshold}

namespace Course

variable {ending : Ending} {screen : Screen} {machine : Option Machine} {log : Log} {text : String}

theorem of_helped (c : Course g words storage script random threshold .helped screen machine log) :
    Options.read defaultSpeed Window.defaultScale words = .help ∧
      machine = none ∧ screen = .unused := by
  cases c with | helped asked => exact ⟨asked, rfl, rfl⟩

theorem of_refused
    (c : Course g words storage script random threshold .refused screen machine log) :
    (∃ fault, Options.read defaultSpeed Window.defaultScale words = .refused fault) ∧
      machine = none ∧ screen = .unused := by
  cases c with | refused fault asked => exact ⟨⟨fault, asked⟩, rfl, rfl⟩

theorem of_failed
    (c : Course g words storage script random threshold (.gaveUp text) .unused machine log) :
    (∃ options name fault, Fails words storage options name fault ∧
      text = "Cannot load ROM " ++ name ++ ": " ++ fault.message) ∧
      machine = some (.initial random) ∧ log = .empty threshold := by
  cases c with
  | failed options name fault fails => exact ⟨⟨options, name, fault, fails, rfl⟩, rfl, rfl⟩

theorem of_crashed
    (c : Course g words storage script random threshold (.gaveUp text) .closed machine log) :
    ∃ options name bytes before fault title, Plays g words storage options name bytes ∧
      Crash (sessionBeats options script) (.loaded random bytes) before fault ∧
      Titled title fault ∧ text = title ++ ": " ++ fault.message := by
  cases c with
  | crashed options name bytes before fault title _ _ plays crash titled =>
    exact ⟨options, name, bytes, before, fault, title, plays, crash, titled, rfl⟩

theorem of_returned
    (c : Course g words storage script random threshold .returned screen machine log) :
    ∃ options name bytes, Plays g words storage options name bytes ∧
      (Outcome.each Beat.run (sessionBeats options script) (.loaded random bytes)).fault
        = none := by
  cases c with
  | returned options name bytes _ _ plays done => exact ⟨options, name, bytes, plays, done⟩

theorem of_faulted
    (c : Course g words storage script random threshold (.faulted fault) screen machine log) :
    (fault = .noNumber ∧ Options.read defaultSpeed Window.defaultScale words = .faulted fault) ∨
      (fault = .noName ∧ ∃ options,
        Options.read defaultSpeed Window.defaultScale words = .play options ∧
          options.file = none) ∨
      ∃ options name bytes, Unopened g words storage options name bytes fault := by
  cases c with
  | numberless asked => exact .inl ⟨rfl, asked⟩
  | nameless options asked nameless => exact .inr (.inl ⟨rfl, options, asked, nameless⟩)
  | unopened options name bytes fault unopened => exact .inr (.inr ⟨options, name, bytes, unopened⟩)

theorem lacking
    (c : Course g words storage script random threshold (.faulted fault) .unused machine log) :
    Options.Lacking (Options.read defaultSpeed Window.defaultScale words) := by
  cases c with
  | numberless asked =>
    rw [asked]
    exact .number _
  | nameless options asked nameless =>
    rw [asked]
    exact .name options nameless

theorem of_opened (c : Course g words storage script random threshold ending .opened machine log) :
    ∃ options name bytes fault, Unopened g words storage options name bytes fault ∧
      ending = .faulted fault := by
  cases c with
  | unopened options name bytes fault unopened =>
    exact ⟨options, name, bytes, fault, unopened, rfl⟩

end Course

/-- A session that has a window crashes or returns, by what its turns do to the machine. -/
theorem course_of_plays (script : List (List Event)) (random : RandomSource) (threshold : Level)
    (plays : Plays g words storage options name bytes) :
    let report := run g words storage.open? script random threshold
    Course g words storage script random threshold report.ending report.screen report.machine
      report.log := by
  intro report
  cases end_ : (Outcome.each Beat.run (sessionBeats options script)
      (.loaded random bytes)).fault with
  | none =>
    obtain ⟨ending, screen⟩ := run_of_done threshold plays end_
    rw [show report.ending = _ from ending, show report.screen = _ from screen]
    exact .returned options name bytes _ _ plays end_
  | some fault =>
    obtain ⟨before, crash⟩ := crash_of_fault end_
    obtain ⟨-, title, titled⟩ := titled_of_crash plays.toLoads crash
    obtain ⟨ending, screen, -⟩ := run_of_crash threshold plays crash titled
    rw [show report.ending = _ from ending, show report.screen = _ from screen]
    exact .crashed options name bytes before fault title _ _ plays crash titled

/-- Every session takes one of these ways. -/
theorem run_course (g : Graphics) (storage : Storage) (script : List (List Event))
    (random : RandomSource) (threshold : Level)
    (noNul : ∀ options name, Options.read defaultSpeed Window.defaultScale words = .play options →
      options.file = some name → name.contains '\x00' = false) :
    let report := run g words storage.open? script random threshold
    Course g words storage script random threshold report.ending report.screen report.machine
      report.log := by
  intro report
  cases asked : Options.read defaultSpeed Window.defaultScale words with
  | help =>
    have : report = unplayed .helped Usage.help "" threshold := run_of_help asked
    rw [this]
    exact .helped asked
  | refused fault =>
    have : report = unplayed .refused "" (Usage.refusal fault) threshold := run_of_refused asked
    rw [this]
    exact .refused fault asked
  | faulted fault =>
    have : report = unplayed (.faulted fault) "" "" threshold := run_of_faulted asked
    rw [this]
    cases Options.noNumber_of_faulted asked
    exact .numberless asked
  | play options =>
    cases named : options.file with
    | none =>
      rw [show report = _ from run_of_nameless asked named]
      exact .nameless options asked named
    | some name =>
      rcases loads_or_fails (noNul options name asked named) asked named with
        ⟨bytes, loads⟩ | ⟨fault, fails⟩
      · cases granted : g.grant (displayWidth * options.scale) (displayHeight * options.scale) with
        | error fault =>
          have unopened : Unopened g words storage options name bytes fault := ⟨loads, granted⟩
          rw [show report = _ from run_of_unopened unopened]
          exact .unopened options name bytes fault unopened
        | ok opened => exact course_of_plays script random threshold ⟨loads, opened, granted⟩
      · rw [show report = _ from run_of_fails fails]
        exact .failed options name fault fails

end

/-- A session ends for a cause, and for each cause in its own way. -/
structure EndsForCause (g : Graphics) (words : List String) (storage : Storage)
    (script : List (List Event)) (random : RandomSource) (report : Report g) : Prop where
  helped : report.ending = .helped ↔
    Options.read defaultSpeed Window.defaultScale words = .help
  refused : report.ending = .refused ↔
    ∃ fault, Options.read defaultSpeed Window.defaultScale words = .refused fault
  /-- A command line that is answered makes no machine. -/
  answered : report.ending = .helped ∨ report.ending = .refused →
    report.machine = none ∧ report.screen = .unused
  failed : ∀ text, (report.ending = .gaveUp text ∧ report.screen = .unused) ↔
    ∃ options name fault, Fails words storage options name fault ∧
      text = "Cannot load ROM " ++ name ++ ": " ++ fault.message
  /-- A machine that nothing was loaded into is as it was made, and nothing is told. -/
  failed_leaves : ∀ text, report.ending = .gaveUp text → report.screen = .unused →
    report.machine = some (.initial random) ∧ report.log.entries = #[]
  crashed : ∀ text, (report.ending = .gaveUp text ∧ report.screen = .closed) ↔
    ∃ options name bytes before fault title, Plays g words storage options name bytes ∧
      Crash (sessionBeats options script) (.loaded random bytes) before fault ∧
      Titled title fault ∧ text = title ++ ": " ++ fault.message
  /-- A cycle that faults leaves the program counter moved on, and one error that is told of. -/
  crashed_leaves : ∀ options name bytes before fault, Plays g words storage options name bytes →
    Crash (sessionBeats options script) (.loaded random bytes) before fault →
    report.machine = some { before with pc := (before.pc + 2) % 4096 } ∧
      ∃ entry heading, report.log.entries.toList.filter (·.level = .error) = [entry] ∧
        entry.text = heading ++ Machine.dump { before with pc := (before.pc + 2) % 4096 }
  returned : report.ending = .returned ↔
    ∃ options name bytes, Plays g words storage options name bytes ∧
      (Outcome.each Beat.run (sessionBeats options script) (.loaded random bytes)).fault = none
  /-- Nothing else ends a session but that something is lacking: a number, a name, or a window. -/
  lacking : ∀ fault, report.ending = .faulted fault ↔
    (fault = .noNumber ∧ Options.read defaultSpeed Window.defaultScale words = .faulted fault) ∨
    (fault = .noName ∧ ∃ options,
      Options.read defaultSpeed Window.defaultScale words = .play options ∧
        options.file = none) ∨
    ∃ options name bytes, Unopened g words storage options name bytes fault
  /-- What is lacking before there is a screen was dropped. -/
  lacking_dropped : ∀ fault, report.ending = .faulted fault → report.screen = .unused →
    ∃ args, Argument.ofStrings words = .ok args ∧ ∃ a ∈ args, a.dropped = true
  /-- A screen that was opened is closed, unless there was no window on it. -/
  shut : report.screen = .opened ↔
    ∃ options name bytes fault, Unopened g words storage options name bytes fault
  /-- A library that grants every window of a size grants that of a session. -/
  granted : (∀ width height, 0 < width → 0 < height → ∃ opened, g.grant width height = .ok opened) →
    (∀ options name bytes fault, ¬ Unopened g words storage options name bytes fault) ∧
      ∀ options name bytes, Loads words storage options name bytes →
        Plays g words storage options name bytes

/-- The window that a session asks for has a size. -/
theorem Loads.plays (h : Loads words storage options name bytes)
    (grants : ∀ width height, 0 < width → 0 < height →
      ∃ opened, g.grant width height = .ok opened) :
    Plays g words storage options name bytes := by
  have large : 1 ≤ options.scale := (Options.bounds_of_read h.asked).2
  refine ⟨h, grants _ _ ?_ ?_⟩
  · show 0 < (64 : Int) * options.scale
    omega
  · show 0 < (32 : Int) * options.scale
    omega

/-- **Each way of ending has exactly its own cause**, and there are no more ways. -/
theorem run_ends (g : Graphics) (words : List String) (storage : Storage)
    (script : List (List Event)) (random : RandomSource) (threshold : Level)
    (noNul : ∀ options name, Options.read defaultSpeed Window.defaultScale words = .play options →
      options.file = some name → name.contains '\x00' = false) :
    EndsForCause g words storage script random
      (run g words storage.open? script random threshold) := by
  have course := run_course g storage script random threshold noNul
  dsimp only at course
  constructor
  case helped =>
    refine ⟨fun ended => ?_, fun asked => by rw [run_of_help asked]; rfl⟩
    rw [ended] at course
    exact course.of_helped.1
  case refused =>
    refine ⟨fun ended => ?_, fun ⟨fault, asked⟩ => by rw [run_of_refused asked]; rfl⟩
    rw [ended] at course
    exact course.of_refused.1
  case answered =>
    rintro (ended | ended)
    · rw [ended] at course
      exact course.of_helped.2
    · rw [ended] at course
      exact course.of_refused.2
  case failed =>
    intro text
    constructor
    · rintro ⟨ended, screen⟩
      rw [ended, screen] at course
      exact course.of_failed.1
    · rintro ⟨options, name, fault, fails, rfl⟩
      rw [run_of_fails fails]
      exact ⟨rfl, rfl⟩
  case failed_leaves =>
    intro text ended screen
    rw [ended, screen] at course
    obtain ⟨-, machine, log⟩ := course.of_failed
    exact ⟨machine, congrArg Log.entries log⟩
  case crashed =>
    intro text
    constructor
    · rintro ⟨ended, screen⟩
      rw [ended, screen] at course
      exact course.of_crashed
    · rintro ⟨options, name, bytes, before, fault, title, plays, crash, titled, rfl⟩
      obtain ⟨ended, screen, -⟩ := run_of_crash threshold plays crash titled
      exact ⟨ended, screen⟩
  case crashed_leaves =>
    intro options name bytes before fault plays crash
    obtain ⟨-, title, titled⟩ := titled_of_crash plays.toLoads crash
    obtain ⟨-, -, machine, log, quiet, told⟩ := run_of_crash threshold plays crash titled
    refine ⟨machine, .crashed _, _, ?_, rfl⟩
    rw [told]
    exact quiet.errors_add rfl
  case returned =>
    constructor
    · intro ended
      rw [ended] at course
      exact course.of_returned
    · rintro ⟨options, name, bytes, plays, done⟩
      exact (run_of_done threshold plays done).1
  case lacking =>
    intro fault
    constructor
    · intro ended
      rw [ended] at course
      exact course.of_faulted
    · rintro (⟨rfl, asked⟩ | ⟨rfl, options, asked, nameless⟩ | ⟨options, name, bytes, unopened⟩)
      · rw [run_of_faulted asked]
        rfl
      · rw [run_of_nameless asked nameless]
        rfl
      · rw [run_of_unopened unopened]
        rfl
  case lacking_dropped =>
    intro fault ended screen
    rw [ended, screen] at course
    exact Options.dropped_of_lacking course.lacking
  case shut =>
    constructor
    · intro opened
      rw [opened] at course
      obtain ⟨options, name, bytes, fault, unopened, -⟩ := course.of_opened
      exact ⟨options, name, bytes, fault, unopened⟩
    · rintro ⟨options, name, bytes, fault, unopened⟩
      rw [run_of_unopened unopened]
      rfl
  case granted =>
    intro grants
    refine ⟨fun options name bytes fault unopened => ?_, fun options name bytes loads =>
      loads.plays grants⟩
    obtain ⟨opened, granted⟩ := (unopened.toLoads.plays grants).granted
    cases granted.symm.trans unopened.ungranted

/-- A storage with one file, and in that one instruction, a return. -/
def returnStorage : Storage := ⟨[(["rom"], .file [0x00, 0xEE])]⟩

theorem open?_returnStorage : returnStorage.open? "rom" = .ok [0x00, 0xEE] := by
  have parts : Storage.parts "rom" = ["rom"] := by decide
  have found : returnStorage.walk (Storage.start "rom") ["rom"] = .file [0x00, 0xEE] := by
    decide +kernel
  unfold Storage.open?
  rw [Storage.nameFault?_rom, parts]
  dsimp only
  rw [found]

/-- The first cycle of the first frame finds nothing to return to. -/
theorem run_ends_emptyReturn :
    let report := run .raster ["-f", "rom"] returnStorage.open? [] ⟨fun _ => 0, 0⟩ .info
    report.ending
        = .gaveUp "StackUnderflowError: Return from subroutine with an empty CHIP-8 stack" ∧
      report.machine = some { Machine.loaded ⟨fun _ => 0, 0⟩ [0x00, 0xEE] with pc := 0x202 } := by
  intro report
  have asked : Options.read defaultSpeed Window.defaultScale ["-f", "rom"]
      = .play ⟨some "rom", 600, 15, false⟩ := by decide +kernel
  have ends : EndsForCause .raster ["-f", "rom"] returnStorage [] ⟨fun _ => 0, 0⟩ report := by
    refine run_ends .raster _ returnStorage [] _ .info fun options name h named => ?_
    cases asked.symm.trans h
    cases named
    rw [String.contains_char_eq]
    decide
  have plays : Plays .raster ["-f", "rom"] returnStorage ⟨some "rom", 600, 15, false⟩ "rom"
      [0x00, 0xEE] :=
    ⟨⟨asked, rfl, open?_returnStorage, rfl, by decide⟩, _, rfl⟩
  have wellFormed : (Machine.loaded ⟨fun _ => 0, 0⟩ [0x00, 0xEE]).WellFormed :=
    Machine.wellFormed_loaded _ rfl
  have laid : (Machine.loaded ⟨fun _ => 0, 0⟩ [0x00, 0xEE]).memory
      = Memory.blank.splice imageStart [0x00, 0xEE] := rfl
  have start : (Machine.loaded ⟨fun _ => 0, 0⟩ [0x00, 0xEE]).pc = imageStart + ((0 : Nat) : Int) :=
    rfl
  have fetched := Machine.fetch_of_splice laid (by decide) (by decide) (by decide) start
  have faults : (Machine.loaded ⟨fun _ => 0, 0⟩ [0x00, 0xEE]).cycle.fault
      = some .stackUnderflow := by
    refine (Machine.fault_process_iff wellFormed).mpr ⟨.ret, ?_, .underflow rfl⟩
    rw [fetched]
    decide +kernel
  have crash : Crash (sessionBeats ⟨some "rom", 600, 15, false⟩ [])
      (.loaded ⟨fun _ => 0, 0⟩ [0x00, 0xEE]) (.loaded ⟨fun _ => 0, 0⟩ [0x00, 0xEE])
      .stackUnderflow := ⟨⟨[], _, rfl, rfl⟩, faults⟩
  refine ⟨((ends.crashed _).mpr ⟨_, _, _, _, _, _, plays, crash, .inr ⟨rfl, rfl⟩, rfl⟩).1, ?_⟩
  exact (ends.crashed_leaves _ _ _ _ _ plays crash).1

/-- **A name that is dropped** ends a session in a way that is none of the program's own: no help
and no refusal, no last words, and no return. -/
theorem run_droppedName :
    let report := run .raster ["-f--"] Storage.empty.open? [] ⟨fun _ => 0, 0⟩ .info
    report.ending = .faulted .noName ∧ report.screen = .unused ∧ report.machine.isSome ∧
      report.ending ≠ .helped ∧ report.ending ≠ .refused ∧
      (∀ text, report.ending ≠ .gaveUp text) ∧ report.ending ≠ .returned := by
  intro report
  have ended : report.ending = .faulted .noName := by rfl
  refine ⟨ended, rfl, rfl, ?_⟩
  rw [ended]
  exact ⟨nofun, nofun, nofun, nofun⟩

end Session
end Chip8Vm
