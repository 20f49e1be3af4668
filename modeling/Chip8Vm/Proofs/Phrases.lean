import Chip8Vm.Proofs.Numerals
import Chip8Vm.Proofs.Requests

/-!
# Command lines in phrases

Most command lines are nothing but switches with their values, a phrase of one word or two for each.
The words of a phrase are what they are wherever they stand (`ofStrings_words`), and reading them
does one thing to the draft (`readAll_arguments`), so that nothing is left of a phrase when a later
one asks for the same.

> **A command line of phrases comes to what the last phrase of each switch asks for**
> (`settles_phrases`), and only that is compared with the limits.
-/

set_option autoImplicit false

namespace Chip8Vm

/-- A name that does not begin with a dash, and so is no switch. -/
structure FileName where
  text : String
  undashed : text.toList.head? ≠ some '-'

/-- The long spelling of a switch. -/
def Switch.long : Switch → String
  | help => "--help"
  | file => "--file"
  | speed => "--speed"
  | scale => "--scale"
  | paused => "--paused"

/-- A switch with its value. -/
inductive Wish where
  | file (name : FileName)
  | speed (numeral : Numeral)
  | scale (numeral : Numeral)

namespace Wish

def switch : Wish → Switch
  | file _ => .file
  | speed _ => .speed
  | scale _ => .scale

/-- The value as it is written. -/
def text : Wish → String
  | file name => name.text
  | speed numeral | scale numeral => numeral.text

theorem undashed (w : Wish) : w.text.toList.head? ≠ some '-' := by
  cases w with
  | file name => exact name.undashed
  | speed numeral | scale numeral => exact numeral.undashed

theorem takesValue (w : Wish) : w.switch.takesValue = true := by
  cases w <;> rfl

end Wish

/-- The words of a command line that belong together. -/
inductive Phrase where
  /-- The short switch of the file, and its name in the next word. -/
  | short (name : FileName)
  /-- A long switch, and its value in the next word. -/
  | apart (wish : Wish)
  /-- A long switch and its value, with an equals sign in between. -/
  | joined (wish : Wish)
  | paused

namespace Phrase

def words : Phrase → List String
  | short name => ["-f", name.text]
  | apart w => [w.switch.long, w.text]
  | joined w => [w.switch.long ++ "=" ++ w.text]
  | paused => [Switch.paused.long]

/-- What is asked for with a value. -/
def wish? : Phrase → Option Wish
  | short name => some (.file name)
  | apart w | joined w => some w
  | paused => none

def file? (p : Phrase) : Option String :=
  p.wish?.bind fun | .file name => some name.text | _ => none

def speed? (p : Phrase) : Option Int :=
  p.wish?.bind fun | .speed numeral => some (numeral.value : Int) | _ => none

def scale? (p : Phrase) : Option Int :=
  p.wish?.bind fun | .scale numeral => some (numeral.value : Int) | _ => none

/-- Whether it is asked to start paused. -/
def pauses : Phrase → Bool
  | paused => true
  | _ => false

/-- What the last of the phrases asks for that asks for it at all. -/
def last? {α : Type} (asks : Phrase → Option α) (phrases : List Phrase) : Option α :=
  phrases.reverse.findSome? asks

theorem last?_cons {α : Type} (asks : Phrase → Option α) (p : Phrase) (phrases : List Phrase) :
    last? asks (p :: phrases) = (last? asks phrases).or (asks p) := by
  rw [last?, List.reverse_cons, List.findSome?_append, List.findSome?_singleton]
  rfl

/-! ## What the words are -/

/-- The arguments that the words of a phrase are. -/
def arguments : Phrase → List Argument
  | short name => [.switch .file .nothing, .value name.text]
  | apart w => [.switch w.switch .nothing, .value w.text]
  | joined w => [.switch w.switch (.joined w.text.toList)]
  | paused => [.switch .paused .nothing]

end Phrase

namespace Argument

theorem ofString_undashed {text : String} (h : text.toList.head? ≠ some '-') :
    ofString text = .ok (.value text) := if_pos (.inl h)

theorem ofString_long (s : Switch) : ofString s.long = .ok (.switch s .nothing) := by
  cases s <;> decide

/-- What has an equals sign in it is no spelling of a switch. -/
theorem ofSpelling?_eq_none {cs : List Char} (h : '=' ∈ cs) :
    Switch.ofSpelling? (String.ofList cs) = none := by
  have unequal : ∀ entry ∈ Switch.spellings, '=' ∉ entry.1.toList := by decide
  unfold Switch.ofSpelling?
  rw [Option.map_eq_none_iff, List.find?_eq_none]
  intro entry he same
  apply unequal entry he
  rw [beq_iff_eq.mp same, String.toList_ofList]
  exact h

theorem splitValue_long (s : Switch) (behind : List Char) :
    splitValue (s.long.toList ++ '=' :: behind) = (s.long.toList, .joined behind) := by
  have before : ∀ c ∈ s.long.toList, (c != '=') = true :=
    List.all_eq_true.mp (by cases s <;> rfl)
  unfold splitValue
  rw [List.takeWhile_append_of_pos before, List.dropWhile_append_of_pos before]
  simp

theorem spelledOut?_joined (s : Switch) (behind : List Char) :
    spelledOut? (s.long.toList ++ '=' :: behind) = some (s, .joined behind) := by
  have unspelled : Switch.ofSpelling? (String.ofList (s.long.toList ++ '=' :: behind)) = none :=
    ofSpelling?_eq_none (by simp)
  have spelled : Switch.ofSpelling? (String.ofList s.long.toList) = some s := by
    rw [String.ofList_toList]
    cases s <;> decide
  obtain ⟨letter, letters, long, unequal⟩ : ∃ letter letters,
      s.long.toList = '-' :: '-' :: letter :: letters ∧ letter ≠ '=' := by
    cases s <;> exact ⟨_, _, rfl, by decide⟩
  unfold spelledOut?
  rw [unspelled]
  dsimp only
  split
  next dash _ behind' short =>
    -- the third character of a long switch is a letter
    rw [long] at short
    cases short
    exact absurd rfl unequal
  next =>
    rw [splitValue_long]
    dsimp only
    rw [spelled]
    rfl

/-- What stands behind the equals sign is the value, whatever it is. -/
theorem ofString_joined (s : Switch) (value : String) :
    ofString (s.long ++ "=" ++ value) = .ok (.switch s (.joined value.toList)) := by
  have word : (s.long ++ "=" ++ value).toList = s.long.toList ++ '=' :: value.toList := by
    rw [String.toList_append, String.toList_append, List.append_assoc]
    rfl
  have dashed : ¬ ((s.long.toList ++ '=' :: value.toList).head? ≠ some '-' ∨
      s.long.toList ++ '=' :: value.toList = ['-']) := by
    cases s <;> simp [Switch.long]
  unfold ofString
  rw [word]
  dsimp only
  rw [if_neg dashed, spelledOut?_joined]

/-- Two dashes alone could be any long switch cut short. -/
theorem ofStrings_cons {word : String} {a : Argument} (h : ofString word = .ok a)
    (rest : List String) : ofStrings (word :: rest) = (ofStrings rest).map (a :: ·) := by
  have divides : word ≠ "--" := by
    rintro rfl
    have several : (ofString "--").isOk = false := by decide
    rw [h] at several
    cases several
  rw [ofStrings, if_neg divides, h]

theorem ofStrings_words (p : Phrase) (rest : List String) :
    ofStrings (p.words ++ rest) = (ofStrings rest).map (p.arguments ++ ·) := by
  have two : ∀ {word value : String} {a : Argument}, ofString word = .ok a →
      value.toList.head? ≠ some '-' → ofStrings (word :: value :: rest)
        = (ofStrings rest).map fun args => a :: .value value :: args := by
    intro word value a h undashed
    rw [ofStrings_cons h, ofStrings_cons (ofString_undashed undashed)]
    cases ofStrings rest <;> rfl
  cases p with
  | short name => exact two (by decide) name.undashed
  | apart w => exact two (ofString_long w.switch) w.undashed
  | joined w => exact ofStrings_cons (ofString_joined w.switch w.text) rest
  | paused => exact ofStrings_cons (ofString_long .paused) rest

theorem ofStrings_phrases (phrases : List Phrase) :
    ofStrings (phrases.flatMap Phrase.words) = .ok (phrases.flatMap Phrase.arguments) := by
  induction phrases with
  | nil => rfl
  | cons p ps ih =>
    rw [List.flatMap_cons, ofStrings_words, ih]
    rfl

end Argument

/-! ## What is made of them -/

namespace Options

variable {d : Draft}

theorem kept?_of_undashed {text : String} (h : text.toList.head? ≠ some '-') :
    kept? text = some text := by
  have apart : text ≠ "--" := by
    rintro rfl
    exact h rfl
  exact if_neg apart

theorem number?_numeral (s : Switch) (n : Numeral) :
    number? s n.text = .ok (some (n.value : Int)) := by
  unfold number?
  rw [kept?_of_undashed n.undashed]
  dsimp only
  rw [n.readInt]

/-- The draft after a phrase. -/
def Draft.put (d : Draft) (p : Phrase) : Draft where
  file := (p.file?.map some).or d.file
  speed := p.speed?.or d.speed
  scale := p.scale?.or d.scale
  paused := d.paused || p.pauses
  leftOver := d.leftOver

theorem withValue_wish (w : Wish) (d : Draft) :
    d.withValue w.switch w.text = .ok (d.put (.apart w)) := by
  have unpaused : (d.paused || false) = d.paused := Bool.or_false _
  cases w with
  | file name =>
    show Except.ok { d with file := some (kept? name.text) } = _
    rw [kept?_of_undashed name.undashed, ← unpaused]
    rfl
  | speed numeral =>
    show (number? .speed numeral.text).map (fun n => { d with speed := n }) = _
    rw [number?_numeral, ← unpaused]
    rfl
  | scale numeral =>
    show (number? .scale numeral.text).map (fun n => { d with scale := n }) = _
    rw [number?_numeral, ← unpaused]
    rfl

theorem plain_paused (d : Draft) : d.plain .paused = .ok (d.put .paused) := by
  have paused : (d.paused || true) = true := Bool.or_true _
  show Except.ok { d with paused := true } = _
  rw [← paused]
  rfl

/-- **Reading a phrase** puts into the draft what the phrase asks for, and nothing more. -/
theorem readAll_arguments (p : Phrase) (d : Draft) (rest : List Argument) :
    readAll d (p.arguments ++ rest) = readAll (d.put p) rest := by
  have next : ∀ w : Wish, readAll d (.switch w.switch .nothing :: .value w.text :: rest)
      = readAll (d.put (.apart w)) rest := by
    intro w
    rw [readAll, if_pos w.takesValue, withValue_wish]
    rfl
  cases p with
  | short name => exact next (.file name)
  | apart w => exact next w
  | joined w =>
    show readAll d (.switch w.switch (.joined w.text.toList) :: rest) = _
    rw [readAll, String.ofList_toList, withValue_wish]
    rfl
  | paused =>
    show readAll d (.switch .paused .nothing :: rest) = _
    conv_lhs => unfold readAll
    rw [if_neg (by decide), plain_paused]
    rfl

theorem readAll_phrases (phrases : List Phrase) (d : Draft) :
    readAll d (phrases.flatMap Phrase.arguments) = .ok (phrases.foldl Draft.put d) := by
  induction phrases generalizing d with
  | nil => rfl
  | cons p ps ih => rw [List.flatMap_cons, readAll_arguments, ih, List.foldl_cons]

/-- The last phrase that asks for something settles it. -/
theorem foldl_put (phrases : List Phrase) (d : Draft) : phrases.foldl Draft.put d = {
    file := ((Phrase.last? Phrase.file? phrases).map some).or d.file
    speed := (Phrase.last? Phrase.speed? phrases).or d.speed
    scale := (Phrase.last? Phrase.scale? phrases).or d.scale
    paused := d.paused || phrases.any Phrase.pauses
    leftOver := d.leftOver } := by
  induction phrases generalizing d with
  | nil => simp [Phrase.last?]
  | cons p ps ih =>
    rw [List.foldl_cons, ih]
    simp only [Draft.put, Phrase.last?_cons, Option.map_or, Option.or_assoc, List.any_cons,
      Bool.or_assoc]

/-- A draft in which no number is missing is refused for the first of three reasons, or accepted. -/
theorem settle_of_numbers {speed scale : Int} (fast : d.speed = some speed)
    (large : d.scale = some scale) (nothing : d.leftOver = []) : d.settle =
      match d.file with
      | none => .refused .fileMissing
      | some file =>
        if speed < 60 then .refused .tooSlow
        else if scale < 1 then .refused .tooSmall
        else .play ⟨file, speed, scale, d.paused⟩ := by
  have rate : (frameRate : Int) = 60 := rfl
  unfold Draft.settle
  rw [fast, large, nothing, rate]
  rfl

end Options

namespace Phrase

/-- The speed that the phrases come to. -/
def speed (phrases : List Phrase) : Int := (last? speed? phrases).getD 600

/-- The scale that the phrases come to. -/
def scale (phrases : List Phrase) : Int := (last? scale? phrases).getD 15

/-- A request that was made of phrases is what the last of each switch asks for. -/
structure Settles (phrases : List Phrase) (request : Request) : Prop where
  play_iff : ∀ o, request = .play o ↔ ∃ name, last? file? phrases = some name ∧
    60 ≤ speed phrases ∧ 1 ≤ scale phrases ∧
    o = ⟨some name, speed phrases, scale phrases, phrases.any pauses⟩
  refused : last? file? phrases = none ∨ speed phrases < 60 ∨ scale phrases < 1 →
    ∃ fault, request = .refused fault

theorem readAll_start (phrases : List Phrase) :
    Options.readAll (.start 600 15) (phrases.flatMap arguments) = .ok {
      file := (last? file? phrases).map some
      speed := some (speed phrases)
      scale := some (scale phrases)
      paused := phrases.any pauses
      leftOver := [] } := by
  rw [Options.readAll_phrases, Options.foldl_put]
  simp only [Options.Draft.start, Option.or_none, Option.or_some, Bool.false_or, speed, scale]

theorem read_phrases (phrases : List Phrase) : Options.read 600 15 (phrases.flatMap words) =
    match last? file? phrases with
    | none => .refused .fileMissing
    | some name =>
      if speed phrases < 60 then .refused .tooSlow
      else if scale phrases < 1 then .refused .tooSmall
      else .play ⟨some name, speed phrases, scale phrases, phrases.any pauses⟩ := by
  unfold Options.read
  rw [Argument.ofStrings_phrases]
  dsimp only
  rw [readAll_start]
  dsimp only
  rw [Options.settle_of_numbers rfl rfl rfl]
  cases last? file? phrases with
  | none => rfl
  | some name => rfl

/-- **A command line of phrases** is accepted or refused for what the last of each switch asks
for. -/
theorem settles_phrases (phrases : List Phrase) :
    Settles phrases (Options.read 600 15 (phrases.flatMap words)) := by
  rw [read_phrases]
  cases named : last? file? phrases with
  | none => exact ⟨fun o => by simp [named], fun _ => ⟨_, rfl⟩⟩
  | some name =>
    dsimp only
    by_cases fast : 60 ≤ speed phrases
    · by_cases large : 1 ≤ scale phrases
      · rw [if_neg (by omega), if_neg (by omega)]
        refine ⟨fun o => ?_, fun wrong => ?_⟩
        · rw [named]
          constructor
          · intro play
            cases play
            exact ⟨name, rfl, fast, large, rfl⟩
          · rintro ⟨_, same, -, -, rfl⟩
            cases same
            rfl
        · rw [named] at wrong
          rcases wrong with missing | slow | small
          · cases missing
          · omega
          · omega
      · rw [if_neg (by omega), if_pos (by omega)]
        exact ⟨fun o => by simp [large], fun _ => ⟨_, rfl⟩⟩
    · rw [if_pos (by omega)]
      exact ⟨fun o => by simp [fast], fun _ => ⟨_, rfl⟩⟩

end Phrase

end Chip8Vm
