import Chip8Vm.Proofs.Endings
import Chip8Vm.Proofs.Phrases

/-!
# Answers to a command line

Before anything is played a command line is accepted, answered with the help, or refused, and each
of these can be told from outside by the code and by what was written where.

> **Every command line gets one of these answers** (`run_answers`), and one that is accepted makes a
> host that does at least one cycle in a frame.

There is one way around it. Two dashes that are given as the value of a switch in one word with it
are dropped; then a file goes without its name, and a number is missing where it is to be compared
with its limit, which is no answer at all (`run_droppedSpeed`).
-/

set_option autoImplicit false

namespace Chip8Vm

/-- Two dashes are the value of a switch in one word with it, somewhere on a command line. -/
def Argument.Drops (words : List String) (s : Switch) : Prop :=
  ∃ args, ofStrings words = .ok args ∧ ∃ a ∈ args, a.drops s = true

/-- A host runs at a speed: in each of sixty frames it does its part of the cycles of a second, but
for what is left over. -/
structure Host.Runs (h : Host) (speed : Int) : Prop where
  cycles : (h.cyclesPerFrame : Int) = speed / 60
  pos : 1 ≤ h.cyclesPerFrame
  least : 60 * (h.cyclesPerFrame : Int) ≤ speed
  most : speed < 60 * (h.cyclesPerFrame : Int) + 60

theorem Host.runs_make {speed : Int} (fast : 60 ≤ speed) (paused : Bool) :
    (make speed paused).Runs speed := by
  have cycles : ((make speed paused).cyclesPerFrame : Int) = speed / 60 := by
    have rate : (frameRate : Int) = 60 := rfl
    show ((max 1 (speed / frameRate)).toNat : Int) = speed / 60
    rw [rate]
    omega
  constructor <;> omega

namespace Session

/-- The answer that a command line gets, by what it comes to. -/
inductive Answer {g : Graphics} (words : List String) (report : Report g) : Request → Prop
  | accepted (o : Options) (named : o.file = none → Argument.Drops words .file)
      (fast : 60 ≤ o.speed) (large : 1 ≤ o.scale)
      (runs : (Host.make o.speed o.paused).Runs o.speed) : Answer words report (.play o)
  | helped (code : report.ending.exitCode = 0) (shown : report.output = Usage.help)
      (silent : report.complaint = "" ∧ report.log.entries = #[]) : Answer words report .help
  | refused (fault : UsageFault) (code : report.ending.exitCode = 2)
      (told : report.complaint
        = "usage: frontend.py [-h] -f FILE [--speed SPEED] [--scale SCALE] [--paused]\n"
          ++ "frontend.py: error: " ++ fault.message ++ "\n")
      (silent : report.output = "" ∧ report.log.entries = #[]) :
      Answer words report (.refused fault)
  | unanswered (s : Switch) (number : s = .speed ∨ s = .scale) (dropped : Argument.Drops words s) :
      Answer words report (.faulted .noNumber)

theorem refusal_eq (fault : UsageFault) : Usage.refusal fault
    = "usage: frontend.py [-h] -f FILE [--speed SPEED] [--scale SCALE] [--paused]\n"
      ++ "frontend.py: error: " ++ fault.message ++ "\n" := by
  have front : Usage.line ++ Usage.programName ++ ": error: "
      = "usage: frontend.py [-h] -f FILE [--speed SPEED] [--scale SCALE] [--paused]\n"
        ++ "frontend.py: error: " := by decide +kernel
  rw [Usage.refusal, front]

/-- **Every command line is answered**, unless two dashes were dropped that a number was to be read
from. One that consists of phrases is accepted exactly if they name a file and the last speed and
the last scale, where one is asked for, are within their limits. -/
theorem run_answers (g : Graphics) (words : List String) (storage : Storage)
    (script : List (List Event)) (random : RandomSource) (threshold : Level) :
    Answer words (run g words storage.open? script random threshold)
        (Options.read 600 15 words) ∧
      ∀ phrases : List Phrase, phrases.flatMap Phrase.words = words →
        Phrase.Settles phrases (Options.read 600 15 words) := by
  refine ⟨?_, fun phrases same => ?_⟩
  · rcases Options.read_cases 600 15 words with
      help | ⟨fault, refused⟩ | ⟨args, d, separate, draft, settled⟩
    · rw [run_of_help help, help]
      exact .helped rfl rfl ⟨rfl, rfl⟩
    · rw [run_of_refused refused, refused]
      exact .refused fault rfl (refusal_eq fault) ⟨rfl, rfl⟩
    · have dropped : ∀ s, d.Lacks s → Argument.Drops words s := fun s lacks =>
        ⟨args, separate, Options.Draft.drops_of_lacks separate draft lacks⟩
      rcases settled with ⟨faulted, slow | small⟩ | ⟨o, play, named, fast, large⟩
      · rw [faulted]
        exact .unanswered .speed (.inl rfl) (dropped .speed slow)
      · rw [faulted]
        exact .unanswered .scale (.inr rfl) (dropped .scale small)
      · rw [play]
        refine .accepted o (fun none => dropped .file ?_) fast large (Host.runs_make fast o.paused)
        rw [none] at named
        exact named
  · rw [← same]
    exact Phrase.settles_phrases phrases

/-- A speed that is too slow, a file, and a speed again. -/
def overriddenPhrases : List Phrase :=
  [ .joined (.speed ⟨"30", by decide, by decide, by decide⟩), .short ⟨"a", by decide⟩, .paused,
    .apart (.speed ⟨"0600", by decide, by decide, by decide⟩) ]

theorem run_answers_overriddenPhrases :
    let words := ["--speed=30", "-f", "a", "--paused", "--speed", "0600"]
    overriddenPhrases.flatMap Phrase.words = words ∧
      Options.read 600 15 words = .play ⟨some "a", 600, 15, true⟩ ∧
      (Host.make 600 true).cyclesPerFrame = 10 := by
  intro words
  have same : overriddenPhrases.flatMap Phrase.words = words := by decide +kernel
  obtain ⟨answer, settles⟩ := run_answers .raster words .empty [] ⟨fun _ => 0, 0⟩ .info
  have play : Options.read 600 15 words = .play ⟨some "a", 600, 15, true⟩ :=
    ((settles _ same).play_iff _).mpr
      ⟨"a", by decide +kernel, by decide +kernel, by decide +kernel, by decide +kernel⟩
  rw [play] at answer
  cases answer with
  | accepted _ _ _ _ runs =>
    have cycles : ((Host.make 600 true).cyclesPerFrame : Int) = 600 / 60 := runs.cycles
    exact ⟨same, play, by omega⟩

/-- A speed that is dropped is compared all the same: the command line is not accepted, and the
program exits with neither of the two codes. -/
theorem run_droppedSpeed :
    let report := run .raster ["-f", "a", "--speed=--"] Storage.empty.open? [] ⟨fun _ => 0, 0⟩ .info
    (∀ o, Options.read 600 15 ["-f", "a", "--speed=--"] ≠ .play o) ∧
      report.ending = .faulted .noNumber ∧ report.ending.exitCode ≠ 0 ∧
      report.ending.exitCode ≠ 2 := by
  intro report
  have asked : Options.read 600 15 ["-f", "a", "--speed=--"] = .faulted .noNumber := by
    decide +kernel
  have ended : report = unplayed (.faulted .noNumber) "" "" .info := run_of_faulted asked
  rw [asked, ended]
  exact ⟨nofun, rfl, by decide, by decide⟩

end Session
end Chip8Vm
