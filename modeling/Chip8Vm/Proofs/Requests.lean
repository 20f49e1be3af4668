import Mathlib.Data.List.Chain
import Chip8Vm.CommandLine.Options

/-!
# Requests

What can be relied on when a command line is accepted: the speed and the scale are in range
(`bounds_of_read`), and nothing that was asked for is missing, unless its value was dropped.

> **only a value of two dashes in one word with its switch is dropped** (`dropped_of_lacking`).

Two dashes that stand alone never come to be the value of a switch, for they make values of what is
behind them and not of themselves (`separate_ofStrings`).
-/

set_option autoImplicit false

namespace Chip8Vm

namespace Argument

/-- Two dashes in one word with a switch that takes a value. -/
def dropped : Argument → Bool
  | .switch s (.joined text) | .switch s (.attached text) => s.takesValue && text = ['-', '-']
  | _ => false

/-- Two dashes in one word with a switch that takes a value and is this one. -/
def drops (s : Switch) : Argument → Bool
  | .switch s' (.joined text) | .switch s' (.attached text) => s' = s && text = ['-', '-']
  | _ => false

theorem dropped_of_drops {s : Switch} (takes : s.takesValue = true) {a : Argument}
    (h : a.drops s = true) : a.dropped = true := by
  unfold drops at h
  split at h
  · obtain ⟨rfl, rfl⟩ : _ = s ∧ _ = ['-', '-'] := by simpa using h
    simp [dropped, takes]
  · obtain ⟨rfl, rfl⟩ : _ = s ∧ _ = ['-', '-'] := by simpa using h
    simp [dropped, takes]
  · cases h

/-- The second is not what is dropped when it is taken for the value of the first. -/
def Separate (before behind : Argument) : Prop :=
  (∃ s, before = .switch s .nothing) → behind ≠ .value "--"

/-- A word that is no divider is no value of two dashes. -/
theorem ofString_ne_dashes {word : String} (hw : word ≠ "--") {a : Argument}
    (h : ofString word = .ok a) : a ≠ .value "--" := by
  rintro rfl
  have same : ∀ text : String, Argument.value text = .value "--" → text = "--" := by
    intro text he
    injection he
  unfold ofString at h
  dsimp only at h
  split at h
  · injection h with he
    exact hw (same word he)
  · split at h
    · cases h
    · split at h
      · cases h
      · injection h with he
        split at he
        · exact hw (same word he)
        · cases he
      · cases h

/-- Behind a switch no word of a command line is a value of two dashes. -/
theorem separate_ofStrings {words : List String} {args : List Argument}
    (h : ofStrings words = .ok args) : args.IsChain Separate := by
  -- what comes first is no such value either, which is what the switch before it needs
  suffices args.IsChain Separate ∧ ∀ a ∈ args.head?, a ≠ .value "--" from this.1
  induction words generalizing args with
  | nil =>
    cases h
    exact ⟨.nil, by simp⟩
  | cons word words ih =>
    unfold ofStrings at h
    by_cases divides : word = "--"
    · rw [if_pos divides] at h
      cases h
      refine ⟨?_, by simp⟩
      -- of the divider and the values behind it none is a switch
      have values : ∀ rest : List String, (rest.map Argument.value).IsChain Separate := by
        intro rest
        refine List.Pairwise.isChain (List.pairwise_of_forall_mem_list ?_)
        simp [Separate]
      cases words with
      | nil => exact .singleton _
      | cons next rest =>
        exact List.isChain_cons_cons.mpr ⟨by simp [Separate], values (next :: rest)⟩
    · rw [if_neg divides] at h
      cases hw : ofString word with
      | error fault =>
        rw [hw] at h
        cases h
      | ok a =>
        rw [hw] at h
        cases hr : ofStrings words with
        | error fault =>
          rw [hr] at h
          cases h
        | ok rest =>
          rw [hr] at h
          cases h
          obtain ⟨chain, first⟩ := ih hr
          refine ⟨?_, fun b hb => ?_⟩
          · cases rest with
            | nil => exact .singleton a
            | cons b rest => exact List.isChain_cons_cons.mpr ⟨fun _ => first b rfl, chain⟩
          · cases hb
            exact ofString_ne_dashes divides hw

end Argument

namespace Options

theorem exists_of_bind {ε α β : Type} {x : Except ε α} {f : α → Except ε β} {b : β}
    (h : x.bind f = .ok b) : ∃ a, x = .ok a ∧ f a = .ok b := by
  cases x with
  | error e => cases h
  | ok a => exact ⟨a, rfl, h⟩

theorem exists_of_map {ε α β : Type} {x : Except ε α} {f : α → β} {b : β}
    (h : x.map f = .ok b) : ∃ a, x = .ok a ∧ f a = b := by
  cases x with
  | error e => cases h
  | ok a =>
    cases h
    exact ⟨a, rfl, rfl⟩

/-! ## What comes of a command line -/

/-- A draft is refused, or a number is missing in it, or it has everything and its numbers are in
range. -/
theorem settle_cases (d : Draft) :
    (∃ fault, d.settle = .refused fault) ∨
    (d.settle = .faulted .noNumber ∧ (d.speed = none ∨ d.scale = none)) ∨
    ∃ file speed scale, d.settle = .play ⟨file, speed, scale, d.paused⟩ ∧
      d.file = some file ∧ 60 ≤ speed ∧ 1 ≤ scale := by
  unfold Draft.settle
  cases hf : d.file with
  | none => exact .inl ⟨_, rfl⟩
  | some file =>
    dsimp only
    split
    · exact .inl ⟨_, rfl⟩
    cases hv : d.speed with
    | none => exact .inr (.inl ⟨rfl, .inl rfl⟩)
    | some speed =>
      dsimp only
      split
      · exact .inl ⟨_, rfl⟩
      next fast =>
        cases hs : d.scale with
        | none => exact .inr (.inl ⟨rfl, .inr rfl⟩)
        | some scale =>
          dsimp only
          split
          · exact .inl ⟨_, rfl⟩
          next large =>
            exact .inr (.inr
              ⟨file, speed, scale, rfl, rfl, Int.not_lt.mp fast, Int.not_lt.mp large⟩)

/-- A command line is answered or refused, or it makes a draft that a number is missing in or that
has everything. -/
theorem read_cases (speed scale : Int) (words : List String) :
    read speed scale words = .help ∨ (∃ fault, read speed scale words = .refused fault) ∨
    ∃ args d, Argument.ofStrings words = .ok args ∧ readAll (.start speed scale) args = .ok d ∧
      ((read speed scale words = .faulted .noNumber ∧ (d.speed = none ∨ d.scale = none)) ∨
      ∃ o, read speed scale words = .play o ∧ d.file = some o.file ∧
        60 ≤ o.speed ∧ 1 ≤ o.scale) := by
  unfold read
  cases Argument.ofStrings words with
  | error fault => exact .inr (.inl ⟨fault, rfl⟩)
  | ok args =>
    dsimp only
    cases hd : readAll (.start speed scale) args with
    | error stop =>
      cases stop with
      | help => exact .inl rfl
      | fault fault => exact .inr (.inl ⟨fault, rfl⟩)
    | ok d =>
      rcases settle_cases d with refused | missing | ⟨_, _, _, play, named, fast, large⟩
      · exact .inr (.inl refused)
      · exact .inr (.inr ⟨args, d, rfl, hd, .inl missing⟩)
      · exact .inr (.inr ⟨args, d, rfl, hd, .inr ⟨_, play, named, fast, large⟩⟩)

/-- **The speed and the scale of an accepted command line are in range.** -/
theorem bounds_of_read {speed scale : Int} {words : List String} {o : Options}
    (h : read speed scale words = .play o) : 60 ≤ o.speed ∧ 1 ≤ o.scale := by
  rcases read_cases speed scale words with
    help | ⟨_, refused⟩ | ⟨_, _, -, -, ⟨missing, -⟩ | ⟨_, play, -, fast, large⟩⟩
  · cases help.symm.trans h
  · cases refused.symm.trans h
  · cases missing.symm.trans h
  · cases play.symm.trans h
    exact ⟨fast, large⟩

/-- The only fault of a command line is a number that is missing. -/
theorem noNumber_of_faulted {speed scale : Int} {words : List String} {fault : Fault}
    (h : read speed scale words = .faulted fault) : fault = .noNumber := by
  rcases read_cases speed scale words with
    help | ⟨_, refused⟩ | ⟨_, _, -, -, ⟨missing, -⟩ | ⟨_, play, -⟩⟩
  · cases help.symm.trans h
  · cases refused.symm.trans h
  · cases missing.symm.trans h
    rfl
  · cases play.symm.trans h

/-! ## Nothing missing -/

namespace Draft

variable {d d' : Draft} {s : Switch}

/-- What was asked for with a switch has been dropped. -/
def Lacks (d : Draft) : Switch → Prop
  | .file => d.file = some none
  | .speed => d.speed = none
  | .scale => d.scale = none
  | .help | .paused => False

theorem takesValue_of_lacks (h : d.Lacks s) : s.takesValue = true := by
  cases s with
  | file | speed | scale => rfl
  | help | paused => exact h.elim

theorem not_lacks_start (speed scale : Int) (s : Switch) : ¬ (start speed scale).Lacks s := by
  cases s <;> simp [Lacks, start]

theorem number_ne_none {value : String} (hv : value ≠ "--") {n : Option Int}
    (h : number? s value = .ok n) : n ≠ none := by
  unfold number? kept? at h
  rw [if_neg hv] at h
  dsimp only at h
  split at h
  · cases h
    simp
  · cases h

/-- A value is dropped for no other switch than its own, and only two dashes are. -/
theorem lacks_withValue {given : Switch} {value : String} (hv : given = s → value ≠ "--")
    (h : d.withValue given value = .ok d') (lacks : d'.Lacks s) : d.Lacks s := by
  cases given with
  | help | paused => cases h
  | file =>
    cases h
    cases s with
    | file => simp [Lacks, kept?, hv rfl] at lacks
    | _ => exact lacks
  | speed =>
    obtain ⟨n, read, rfl⟩ := exists_of_map h
    cases s with
    | speed => exact absurd lacks (number_ne_none (hv rfl) read)
    | _ => exact lacks
  | scale =>
    obtain ⟨n, read, rfl⟩ := exists_of_map h
    cases s with
    | scale => exact absurd lacks (number_ne_none (hv rfl) read)
    | _ => exact lacks

/-- A value in one word with its switch. -/
theorem lacks_withAttached {given : Switch} {value : List Char}
    (hv : (given = s && value = ['-', '-']) = false)
    (h : d.withValue given (String.ofList value) = .ok d') (lacks : d'.Lacks s) : d.Lacks s := by
  refine lacks_withValue (fun same he => ?_) h lacks
  have value : value = ['-', '-'] := by
    rw [← String.toList_ofList (l := value), he]
    rfl
  rw [value, decide_eq_true same] at hv
  cases hv

theorem lacks_plain {given : Switch} (h : d.plain given = .ok d') (lacks : d'.Lacks s) :
    d.Lacks s := by
  cases given with
  | paused =>
    cases h
    exact lacks
  | help | file | speed | scale => cases h

/-- **Reading drops nothing** but what is dropped as an argument. -/
theorem lacks_readAll {args : List Argument} (chain : args.IsChain Argument.Separate)
    (kept : ∀ a ∈ args, a.drops s = false) (h : Options.readAll d args = .ok d')
    (lacks : d'.Lacks s) : d.Lacks s := by
  fun_induction Options.readAll d args with
  | case1 =>
    cases h
    exact lacks
  | case2 d given _ text rest ih =>
    obtain ⟨next, first, h⟩ := exists_of_bind h
    have apart : text ≠ "--" := by
      rintro rfl
      exact (List.isChain_cons_cons.mp chain).1 ⟨given, rfl⟩ rfl
    exact lacks_withValue (fun _ => apart) first
      (ih next chain.tail.tail (fun a ha => kept a (by simp [ha])) h)
  | case3 => cases h
  | case4 d given rest _ ih =>
    obtain ⟨next, first, h⟩ := exists_of_bind h
    exact lacks_plain first (ih next chain.tail (fun a ha => kept a (by simp [ha])) h)
  | case5 d given text rest ih =>
    obtain ⟨next, first, h⟩ := exists_of_bind h
    have here : (Argument.switch given (.joined text)).drops s = false := kept _ (by simp)
    exact lacks_withAttached here first (ih next chain.tail (fun a ha => kept a (by simp [ha])) h)
  | case6 => cases h
  | case7 d given text rest _ ih =>
    obtain ⟨next, first, h⟩ := exists_of_bind h
    have here : (Argument.switch given (.attached text)).drops s = false := kept _ (by simp)
    exact lacks_withAttached here first (ih next chain.tail (fun a ha => kept a (by simp [ha])) h)
  | case8 d a rest _ _ _ ih =>
    exact ih chain.tail (fun a ha => kept a (by simp [ha])) h

/-- What is lacking in the end was dropped in one word with its switch. -/
theorem drops_of_lacks {speed scale : Int} {words : List String} {args : List Argument}
    (separate : Argument.ofStrings words = .ok args)
    (draft : Options.readAll (.start speed scale) args = .ok d) (lacks : d.Lacks s) :
    ∃ a ∈ args, a.drops s = true := by
  by_contra nothing
  have kept : ∀ a ∈ args, a.drops s = false := by simpa using nothing
  exact not_lacks_start speed scale s
    (lacks_readAll (Argument.separate_ofStrings separate) kept draft lacks)

end Draft

/-- A request that lacks a number or the name of the file. -/
inductive Lacking : Request → Prop where
  | number (fault : Fault) : Lacking (.faulted fault)
  | name (o : Options) (h : o.file = none) : Lacking (.play o)

/-- **Something is lacking only if it was dropped** in one word with its switch. -/
theorem dropped_of_lacking {speed scale : Int} {words : List String}
    (lacking : Lacking (read speed scale words)) :
    ∃ args, Argument.ofStrings words = .ok args ∧ ∃ a ∈ args, a.dropped = true := by
  rcases read_cases speed scale words with
    help | ⟨_, refused⟩ | ⟨args, d, separate, draft, settled⟩
  · rw [help] at lacking
    cases lacking
  · rw [refused] at lacking
    cases lacking
  · obtain ⟨s, lacks⟩ : ∃ s, d.Lacks s := by
      rcases settled with ⟨-, slow | small⟩ | ⟨o, play, named, -, -⟩
      · exact ⟨.speed, slow⟩
      · exact ⟨.scale, small⟩
      · rw [play] at lacking
        cases lacking with
        | name _ missing =>
          rw [missing] at named
          exact ⟨.file, named⟩
    obtain ⟨a, given, drops⟩ := Draft.drops_of_lacks separate draft lacks
    exact ⟨args, separate, a, given,
      Argument.dropped_of_drops (Draft.takesValue_of_lacks lacks) drops⟩

end Options
end Chip8Vm
