import Chip8Vm.Proofs.Ownership
import Chip8Vm.Proofs.Bench

/-!
# Keys from the outside

A key is a level and no event: it is down from a press on, until it is released or all keys are, and
nothing that the machine does in between is in the way. Only a few commands touch a key
(`Command.touches`), and whether one does so can be read off the command alone, be the host paused
or not.

> **a key is down exactly when the last command that touched it is a press** (`run_levels`), in
> every run of whatever commands, and whoever asks for any number is told of the key that it means.
-/

set_option autoImplicit false

namespace Chip8Vm

namespace Command

/-- What a command leaves a key as, down or up, if it touches the key. -/
def touches (j : Fin 16) : Command → Option Bool
  | press k => if k = (j.val : Int) then some true else none
  | release k => if k = (j.val : Int) then some false else none
  | event (.keyDown key) => if key.padKey? = some j then some true else none
  | event (.keyUp key) => if key.padKey? = some j then some false else none
  | event .focusLost | releaseAll | reset | replace => some false
  | _ => none

end Command

namespace Traced

variable (t : Traced) (j : Fin 16)

/-- No instruction touches a key. -/
theorem keypad_process (opcode : Int) :
    (t.process opcode).state.machine.keypad = t.machine.keypad := by
  have unowned : ∀ i, Instruction.decode? opcode = some i → ¬ i.Owns t.machine.index .keypad := by
    intro i _
    cases i <;> simp [Instruction.Owns]
  have left : (t.process opcode).state.machine = (t.machine.process opcode).state :=
    congrArg Outcome.state (map_process opcode t)
  rw [left]
  exact Machine.same_process unowned

theorem isDown_press (k : Int) : (t.press k).state.machine.keypad.isDown j
    = ((Command.press k).touches j).getD (t.machine.keypad.isDown j) := by
  have left : (t.press k).state.machine.keypad
      = (Keypad.key? k).elim t.machine.keypad t.machine.keypad.press := by
    unfold press
    cases Keypad.key? k <;> rfl
  rw [left]
  exact Keypad.isDown_elim (fun i k => t.machine.keypad.isDown_press i (Keypad.keyOf k)) k j

theorem isDown_release (k : Int) : (t.release k).state.machine.keypad.isDown j
    = ((Command.release k).touches j).getD (t.machine.keypad.isDown j) := by
  have left : (t.release k).state.machine.keypad
      = (Keypad.key? k).elim t.machine.keypad t.machine.keypad.release := by
    unfold release
    cases Keypad.key? k <;> rfl
  rw [left]
  exact Keypad.isDown_elim (fun i k => t.machine.keypad.isDown_release i (Keypad.keyOf k)) k j

end Traced

namespace Host

variable (h : Host) (t : Traced) (j : Fin 16)

theorem keypad_frame : (h.frame t).state.machine.keypad = t.machine.keypad := by
  let Kept (s : Traced) : Prop := s.machine.keypad = t.machine.keypad
  have cycle : ∀ s : Traced, Kept s → Kept s.cycle.state := fun s hs =>
    (s.keypad_process _).trans hs
  unfold frame
  split
  · rfl
  · exact Outcome.andThen_keeps (P := Kept) (Outcome.times_keeps cycle _ rfl) fun _ hs => hs

theorem keypad_step : (step t).state.machine.keypad = t.machine.keypad :=
  Outcome.andThen_keeps (P := fun s : Traced => s.machine.keypad = t.machine.keypad)
    (t.keypad_process _) fun _ hs => hs

/-- An event touches a key or leaves it as it was, whether the host is paused or not. -/
theorem isDown_deliver (e : Event) : (h.deliver e t).state.machine.keypad.isDown j
    = ((Command.event e).touches j).getD (t.machine.keypad.isDown j) := by
  cases e with
  | quit | other => rfl
  | focusLost => exact Keypad.isDown_released _
  | keyUp key =>
    simp only [deliver, Command.touches]
    cases key.padKey? with
    | none => rfl
    | some k =>
      refine (t.isDown_release j k.val).trans ?_
      simp only [Command.touches, Option.some_inj, Int.natCast_inj, Fin.val_inj]
  | keyDown key =>
    by_cases hstep : key = .character stepCharacter ∧ h.paused
    · -- the key that steps is on no key of the keypad
      obtain ⟨rfl, paused⟩ := hstep
      have untouched : (Command.event (.keyDown (.character stepCharacter))).touches j = none := by
        revert j
        decide
      have steps : h.deliver (.keyDown (.character stepCharacter)) t = step t :=
        if_pos ⟨rfl, paused⟩
      rw [untouched, steps, keypad_step]
      rfl
    · have pressed : key = .space ∨ h.deliver (.keyDown key) t
          = key.padKey?.elim (.done t) fun k => t.press k.val := by
        cases key with
        | space => exact .inl rfl
        | escape | other => exact .inr rfl
        | character c =>
          refine .inr ((if_neg hstep).trans ?_)
          cases (HostKey.character c).padKey? <;> rfl
      rcases pressed with rfl | delivered
      · rfl
      · rw [delivered]
        simp only [Command.touches]
        cases key.padKey? with
        | none => rfl
        | some k =>
          refine (t.isDown_press j k.val).trans ?_
          simp only [Command.touches, Option.some_inj, Int.natCast_inj, Fin.val_inj]

end Host

namespace Monitor

variable {g : Graphics} {b : Monitor g}

/-- The machine that the host drives has the keypad of the bench. -/
theorem keypad_hosted (b : Monitor g) : b.hosted.keypad = b.machine.keypad := by
  unfold hosted
  cases b.retired <;> rfl

theorem keypad_onHosted (b : Monitor g) (f : Traced → Outcome Traced) :
    (b.onHosted f).state.machine.keypad = (f ⟨b.hosted, b.log⟩).state.machine.keypad := by
  simp only [onHosted, setHosted, Outcome.state_map]
  cases b.retired <;> rfl

theorem host_onHosted (b : Monitor g) (f : Traced → Outcome Traced) :
    (b.onHosted f).state.host = b.host := by
  simp only [onHosted, setHosted, Outcome.state_map]
  cases b.retired <;> rfl

/-- **A command** leaves a key as it touches it or as it was, and the host stays. -/
theorem levels_perform (hosting : b.host.isSome) (c : Command) :
    (b.perform c).state.host.isSome ∧ ∀ j : Fin 16,
      (b.perform c).state.machine.keypad.isDown j
        = (c.touches j).getD (b.machine.keypad.isDown j) := by
  obtain ⟨host, hh⟩ := Option.isSome_iff_exists.mp hosting
  cases c with
  | press k => exact ⟨hosting, fun j => Traced.isDown_press _ j k⟩
  | release k => exact ⟨hosting, fun j => Traced.isDown_release _ j k⟩
  | releaseAll | reset | replace =>
    refine ⟨hosting, fun j => ?_⟩
    simp only [Command.touches, Option.getD_some]
    exact Keypad.isDown_released j
  | process opcode =>
    exact ⟨hosting, fun j => congrArg (·.isDown j) (Traced.keypad_process _ opcode)⟩
  | cycle => exact ⟨hosting, fun j => congrArg (·.isDown j) (Traced.keypad_process _ _)⟩
  | attachHost => exact ⟨rfl, fun _ => rfl⟩
  | event e =>
    simp only [perform, hh]
    refine ⟨rfl, fun j => ?_⟩
    rw [← b.keypad_hosted, ← host.isDown_deliver ⟨b.hosted, b.log⟩ j e]
    exact congrArg (·.isDown j) (keypad_onHosted b (host.deliver e))
  | frame =>
    simp only [perform, hh, host_onHosted, keypad_onHosted, host.keypad_frame, b.keypad_hosted]
    exact ⟨rfl, fun _ => rfl⟩
  | loadImage image =>
    obtain ⟨memory, left⟩ := state_loadImage b image
    rw [left]
    exact ⟨hosting, fun _ => rfl⟩
  | loadFile name =>
    obtain ⟨memory, left⟩ := Traced.state_loadFile ⟨b.machine, b.log⟩ b.storage.open? name
    exact ⟨hosting, fun j => congrArg (·.keypad.isDown j) left⟩
  | setRegister x value =>
    simp only [perform]
    cases Number.place 16 .noSuchPlace x <;> exact ⟨hosting, fun _ => rfl⟩
  | loadMemory address data =>
    simp only [perform, Monitor.loadMemory]
    cases data.fault? <;> exact ⟨hosting, fun _ => rfl⟩
  | pop =>
    simp only [perform]
    cases b.machine.stack.pop? <;> exact ⟨hosting, fun _ => rfl⟩
  | setRow row bits =>
    simp only [perform]
    cases Number.place 32 .noSuchPlace row <;> exact ⟨hosting, fun _ => rfl⟩
  | openWindow scale background foreground =>
    simp only [perform, Monitor.openWindow]
    split <;> exact ⟨hosting, fun _ => rfl⟩
  | render =>
    simp only [perform, Monitor.render]
    cases b.window <;> exact ⟨hosting, fun _ => rfl⟩
  | _ => exact ⟨hosting, fun _ => rfl⟩

/-- The last command that touches a key settles it; a key that none touches is as it was. -/
theorem isDown_run (hosting : b.host.isSome) (commands : List Command) (j : Fin 16) :
    (b.run commands).machine.keypad.isDown j
      = (commands.reverse.findSome? (Command.touches j)).getD (b.machine.keypad.isDown j) := by
  induction commands generalizing b with
  | nil => rfl
  | cons c cs ih =>
    obtain ⟨still, level⟩ := levels_perform hosting c
    rw [run_cons, ih still, level, List.reverse_cons, List.findSome?_append]
    cases cs.reverse.findSome? (Command.touches j) with
    | some down => rfl
    | none =>
      rw [List.findSome?_singleton]
      rfl

/-- **A key is down exactly when the last command that touched it left it down**, in every run from
a new machine with a host. A number of no key is refused and changes nothing, any number may be
asked about, and the lowest key that is down is found. -/
theorem run_levels (random : RandomSource) (threshold : Level) (speed : Int) (paused : Bool)
    (commands : List Command) :
    let hosted : Monitor g := ((start random threshold).perform (.attachHost speed paused)).state
    let reached := hosted.run commands
    let keypad := reached.machine.keypad
    (∀ j : Fin 16, keypad.isDown j
      = (commands.reverse.findSome? (Command.touches j)).getD false) ∧
    (∀ j : Fin 16, ∃! key : HostKey, key.padKey? = some j) ∧
    (∀ k : Int,
      (reached.perform (.press k)).fault = (if 0 ≤ k ∧ k < 16 then none else some (.noSuchKey k)) ∧
      (reached.perform (.release k)).fault
        = (if 0 ≤ k ∧ k < 16 then none else some (.noSuchKey k)) ∧
      (¬ (0 ≤ k ∧ k < 16) →
        (reached.perform (.press k)).state = reached
          ∧ (reached.perform (.release k)).state = reached)) ∧
    (∀ (k : Int) (j : Fin 16), k % 16 = j.val → keypad.isDown k = keypad.isDown j) ∧
    (keypad.first? = none ↔ ∀ j : Fin 16, keypad.isDown j = false) ∧
    (∀ j : Fin 16, keypad.first? = some j ↔
      keypad.isDown j = true ∧ ∀ i < j, keypad.isDown i = false) ∧
    reached.hosted.keypad = keypad := by
  intro hosted reached keypad
  refine ⟨fun j => ?_, HostKey.existsUnique_padKey?, fun k => ?_, fun k j hk => ?_,
    Keypad.first?_eq_none_iff, fun j => Keypad.first?_eq_some_iff, reached.keypad_hosted⟩
  · refine (isDown_run rfl commands j).trans (congrArg _ ?_)
    exact Keypad.isDown_released _
  · simp only [perform, onTraced, Traced.press, Traced.release, Keypad.key?]
    by_cases hk : 0 ≤ k ∧ k < 16
    · rw [dif_pos hk, if_pos hk]
      exact ⟨rfl, rfl, fun out => absurd hk out⟩
    · rw [dif_neg hk, if_neg hk]
      exact ⟨rfl, rfl, fun _ => ⟨rfl, rfl⟩⟩
  · have same : Keypad.keyOf k = j := by
      refine Fin.ext ?_
      show (k % 16).toNat = j.val
      omega
    simp only [← same, Keypad.isDown, Keypad.keyOf_natCast]

/-- Keys that are pressed by the user and directly, two of them on a host that is paused and made
to step; then a key of no keypad, and one that is let go. -/
def pressedCommands : List Command :=
  [ .press 3, .event (.keyDown .space), .event (.keyDown (.character 'x')),
    .event (.keyDown (.character 'n')), .reset, .event (.keyDown (.character 'v')), .press 16,
    .frame, .event (.keyDown (.character 'q')), .press 7, .event (.keyUp (.character 'q')),
    .event (.keyDown .escape) ]

theorem run_levels_pressedCommands :
    let hosted : Monitor .raster :=
      ((start ⟨fun _ => 0, 0⟩ .debug).perform (.attachHost 600 false)).state
    let reached := hosted.run pressedCommands
    reached.machine.keypad.first? = some 7
      ∧ reached.machine.keypad.isDown (-1) = true
      ∧ (reached.perform (.press 16)).state = reached := by
  obtain ⟨level, -, refused, numbers, -, lowest, -⟩ :=
    run_levels ⟨fun _ => 0, 0⟩ .debug 600 false pressedCommands
  refine ⟨(lowest 7).mpr ⟨(level 7).trans (by decide), fun i hi => ?_⟩,
    (numbers (-1) 15 (by decide)).trans ((level 15).trans (by decide)),
    ((refused 16).2.2 (by decide)).1⟩
  rw [level]
  revert i
  decide

end Monitor
end Chip8Vm
