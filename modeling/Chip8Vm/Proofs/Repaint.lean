import Chip8Vm.Proofs.Bench
import Chip8Vm.Proofs.Ownership
import Chip8Vm.Proofs.Rasters
import Chip8Vm.Proofs.Squares

/-!
# Repaints

A window is painted anew only when the display says that it has changed. Whether that is enough is
a matter of everything that can write to the display: of two instructions, of a reset and of a new
machine, of whoever draws from outside, and of the host, which may drive another machine on the same
display.

> **where the display does not say that it has changed, the window shows it** (`run_repaints`),
> whatever was done on the bench and however the repaints fell in between.

Each command leaves the display as it is or sets the flag (`tells_perform`), and none but a repaint
touches the window. Two commands that write rows and flag past each other are left out, and so is
another window (`Command.overwrites`).
-/

set_option autoImplicit false

namespace Chip8Vm

/-- Whether a command writes the rows or the flag alone, or puts another window on the bench. -/
def Command.overwrites : Command → Bool
  | setRow .. | setDirty _ | openWindow .. => true
  | _ => false

/-- The second display is the first one, or says that it has changed. -/
def Display.Told (d d' : Display) : Prop := d' = d ∨ d'.dirty = true

theorem Display.Told.trans {d d' d'' : Display} (h : d.Told d') (h' : d'.Told d'') :
    d.Told d'' := by
  rcases h' with rfl | dirty
  · exact h
  · exact Or.inr dirty

/-! ## What a window keeps up with -/

namespace Window

variable {g : Graphics} {w : Window g} {d d' : Display}

/-- The window has the right size, and shows the display unless that says that it has changed. -/
structure Tracks (w : Window g) (d : Display) : Prop where
  exact : Exact w.scale w.surface
  shows : d.dirty = false → w.Shows d

/-- A change that the display tells of is one that the window need not show yet. -/
theorem Tracks.told (h : w.Tracks d) (told : d.Told d') : w.Tracks d' where
  exact := h.exact
  shows clean := by
    rcases told with rfl | dirty
    · exact h.shows clean
    · exact absurd (dirty.symm.trans clean) (by decide)

/-- **A repaint** shows the display as it stands, and takes the flag back. -/
theorem Tracks.render (paints : g.Paints) (h : w.Tracks d) :
    (∃ surface, (w.render d).1 = { w with surface }) ∧ (w.render d).1.Shows d ∧
      (w.render d).1.Tracks (w.render d).2 ∧ (w.render d).2 = { d with dirty := false } := by
  unfold Window.render
  by_cases dirty : d.dirty = true
  · have shows := shows_paint paints h.exact d
    have exact := h.exact.paint paints d
    rw [if_pos dirty]
    -- how it is painted no longer matters
    generalize w.paint d = surface at shows exact ⊢
    exact ⟨⟨surface, rfl⟩, shows, ⟨exact, fun _ => shows⟩, rfl⟩
  · have clean : d.dirty = false := Bool.eq_false_iff.mpr dirty
    rw [if_neg dirty]
    exact ⟨⟨_, rfl⟩, h.shows clean, h, congrArg (Display.mk d.rows) clean⟩

/-- A window that has just been made has nothing to show but the background. -/
theorem surface_of_make {scale : Int} {background foreground : Color}
    (made : make g scale background foreground = .ok w) :
    ∃ opened, g.grant (displayWidth * scale) (displayHeight * scale) = .ok opened ∧
      w = ⟨scale, background, foreground, g.fill background opened⟩ := by
  unfold make at made
  cases granted : g.grant (displayWidth * scale) (displayHeight * scale) with
  | error fault =>
    rw [granted] at made
    cases made
  | ok opened =>
    rw [granted] at made
    cases made
    exact ⟨opened, rfl, rfl⟩

end Window

/-! ## What is done to the display -/

namespace Machine

theorem told_execute (m : Machine) (i : Instruction) :
    m.display.Told (m.execute i).state.display := by
  by_cases owned : i.Owns m.index .display
  · cases i with
    | clear | draw => exact Or.inr rfl
    | _ => simp [Instruction.Owns] at owned
  · exact Or.inl (same_execute owned)

theorem told_process (m : Machine) (opcode : Int) :
    m.display.Told (m.process opcode).state.display := by
  unfold process
  cases Instruction.decode? opcode with
  | none => exact Or.inl rfl
  | some i => exact m.advance.told_execute i

theorem told_move (m : Machine) (move : Move) : m.display.Told (move.run m).state.display := by
  by_cases hm : move = .cycle
  · subst hm
    exact m.told_process m.fetch
  · rw [Move.run_idle hm]
    exact Or.inl rfl

theorem told_moves (m : Machine) (moves : List Move) :
    m.display.Told (Outcome.each Move.run moves m).state.display :=
  Outcome.each_keeps (P := fun m' : Machine => m.display.Told m'.display)
    (fun move m' h => h.trans (m'.told_move move)) (Or.inl rfl)

end Machine

theorem Traced.display_loadFile (t : Traced) (files : Files) (name : String) :
    (t.loadFile files name).state.machine.display = t.machine.display := by
  obtain ⟨memory, left⟩ := t.state_loadFile files name
  rw [left]

/-! ## What is done on the bench -/

namespace Monitor

variable {g : Graphics} {b : Monitor g}

/-- A command leaves the display alone or sets the flag, and leaves the window alone. -/
structure Tells (b : Monitor g) (o : Outcome (Monitor g)) : Prop where
  display : b.machine.display.Told o.state.machine.display
  window : o.state.window = b.window

theorem tells_onTraced {f : Traced → Outcome Traced} {o : Outcome Machine}
    (hf : (f ⟨b.machine, b.log⟩).map Traced.machine = o)
    (ho : b.machine.display.Told o.state.display) : b.Tells (b.onTraced f) := by
  subst hf
  exact ⟨ho, rfl⟩

theorem tells_onHosted {f : Traced → Outcome Traced} {o : Outcome Machine}
    (hf : (f ⟨b.hosted, b.log⟩).map Traced.machine = o)
    (ho : b.hosted.display.Told o.state.display) : b.Tells (b.onHosted f) := by
  subst hf
  -- whichever machine the host drives, its display is the one on the bench
  have display : b.hosted.display = b.machine.display := by
    unfold hosted
    cases b.retired <;> rfl
  rw [display] at ho
  unfold onHosted setHosted
  cases b.retired with
  | none => exact ⟨ho, rfl⟩
  | some m => exact ⟨ho, rfl⟩

theorem tells_loadImage (b : Monitor g) (image : Data) : b.Tells (b.loadImage image) := by
  obtain ⟨memory, loaded⟩ := state_loadImage b image
  have : (b.loadImage image).state = { b with machine := { b.machine with memory } } := loaded
  exact ⟨by rw [this]; exact Or.inl rfl, by rw [this]⟩

theorem tells_perform {c : Command} (hc : c.overwrites = false) (hr : c ≠ .render) :
    b.Tells (b.perform c) := by
  cases c with
  | render => exact absurd rfl hr
  | setRow | setDirty | openWindow => cases hc
  -- a new machine and a reset one have a blank display, and that is to be shown
  | replace | reset | clear | draw => exact ⟨Or.inr rfl, rfl⟩
  | loadImage image => exact b.tells_loadImage image
  | process opcode =>
    exact tells_onTraced (Traced.map_process opcode _) (b.machine.told_process opcode)
  | cycle => exact tells_onTraced (Traced.map_cycle _) (b.machine.told_move .cycle)
  | press key => exact tells_onTraced (Traced.map_press key _) (b.machine.told_move (.press key))
  | release key =>
    exact tells_onTraced (Traced.map_release key _) (b.machine.told_move (.release key))
  | loadFile name =>
    exact tells_onTraced rfl (Or.inl (Traced.display_loadFile ⟨b.machine, b.log⟩ _ name))
  | setRegister x value =>
    simp only [perform]
    cases Number.place 16 .noSuchPlace x <;> exact ⟨Or.inl rfl, rfl⟩
  | loadMemory address data =>
    simp only [perform, loadMemory]
    cases data.fault? <;> exact ⟨Or.inl rfl, rfl⟩
  | pop =>
    simp only [perform]
    cases b.machine.stack.pop? <;> exact ⟨Or.inl rfl, rfl⟩
  | event e =>
    simp only [perform]
    cases b.host with
    | none => exact ⟨Or.inl rfl, rfl⟩
    | some host =>
      have told := tells_onHosted (host.map_deliver e ⟨b.hosted, b.log⟩) (b.hosted.told_moves _)
      exact ⟨told.display, told.window⟩
  | frame =>
    simp only [perform]
    cases b.host with
    | none => exact ⟨Or.inl rfl, rfl⟩
    | some host => exact tells_onHosted (host.map_frame ⟨b.hosted, b.log⟩) (b.hosted.told_moves _)
  | writeFile | makeDirectory | attachHost => exact ⟨Or.inl rfl, rfl⟩
  | tick | setPc | setIndex | setDelay | setSound | poke | resetMemory | push | resetStack =>
    exact ⟨Or.inl rfl, rfl⟩
  | releaseAll => exact ⟨Or.inl rfl, rfl⟩

/-- The window is the one that was made, apart from what is to be seen, and it keeps up with the
display. -/
structure Showing (b : Monitor g) (w : Window g) : Prop where
  window : ∃ surface, b.window = some { w with surface }
  tracks : ∀ shown, b.window = some shown → shown.Tracks b.machine.display

namespace Showing

variable {w : Window g}

/-- A repaint on the bench is a repaint in the window. -/
theorem render (paints : g.Paints) (h : b.Showing w) :
    b.render.Showing w ∧ (∃ surface, b.render.window = some { w with surface } ∧
      Window.Shows { w with surface } b.machine.display) ∧
      b.render.machine.display = { b.machine.display with dirty := false } := by
  obtain ⟨before, hw⟩ := h.window
  obtain ⟨⟨surface, left⟩, shows, tracks, display⟩ := (h.tracks _ hw).render paints
  have rendered : b.render.window = some (Window.render { w with surface := before }
      b.machine.display).1 := by
    unfold Monitor.render
    rw [hw]
  have machine : b.render.machine.display = (Window.render { w with surface := before }
      b.machine.display).2 := by
    unfold Monitor.render
    rw [hw]
  rw [left] at shows tracks rendered
  refine ⟨⟨⟨surface, rendered⟩, fun shown hs => ?_⟩, ⟨surface, rendered, shows⟩,
    machine.trans display⟩
  cases rendered.symm.trans hs
  rw [machine]
  exact tracks

/-- **Every other command** that is allowed keeps the window, and the picture in it is right as long
as the display does not say that it has changed. -/
theorem perform (paints : g.Paints) (h : b.Showing w) {c : Command} (hc : c.overwrites = false) :
    (b.perform c).state.Showing w := by
  by_cases hr : c = .render
  · subst hr
    exact (h.render paints).1
  · obtain ⟨display, window⟩ := tells_perform (b := b) hc hr
    exact ⟨window ▸ h.window, fun shown hs => (h.tracks shown (window ▸ hs)).told display⟩

end Showing

/-- **No change is lost.** A window of the size that was asked for is put in front of a display that
says that it has changed, and then anything is done but to write rows or flag alone. In every state
that is reached a repaint shows the display and takes the flag back; as long as the flag is not set
the window shows the display as it is; and nothing but a repaint touches the window. -/
theorem run_repaints (paints : g.Paints) {scale : Int} {background foreground : Color}
    {w : Window g} (hs : 1 ≤ scale) (made : Window.make g scale background foreground = .ok w)
    (width : (g.width w.surface : Int) = displayWidth * scale)
    (height : (g.height w.surface : Int) = displayHeight * scale) {b : Monitor g}
    (placed : b.window = some w) (changed : b.machine.display.dirty = true)
    {commands : List Command} (allowed : ∀ c ∈ commands, c.overwrites = false) :
    let reached := b.run commands
    (∃ surface, reached.window = some ⟨scale, background, foreground, surface⟩) ∧
    (reached.machine.display.dirty = false →
      ∀ shown, reached.window = some shown → shown.Shows reached.machine.display) ∧
    (∃ surface, reached.render.window = some ⟨scale, background, foreground, surface⟩ ∧
      Window.Shows ⟨scale, background, foreground, surface⟩ reached.machine.display ∧
      reached.render.machine.display = { reached.machine.display with dirty := false }) ∧
    ∀ c : Command, c.overwrites = false → c ≠ .render →
      (reached.perform c).state.window = reached.window := by
  intro reached
  obtain ⟨opened, -, asMade⟩ := Window.surface_of_make made
  have exact : Window.Exact w.scale w.surface := by
    rw [asMade] at width height ⊢
    exact ⟨hs, width, height⟩
  have start : b.Showing w := by
    refine ⟨⟨w.surface, placed⟩, fun shown hs => ?_⟩
    cases placed.symm.trans hs
    exact ⟨exact, fun clean => absurd (changed.symm.trans clean) (by decide)⟩
  rw [asMade] at start
  have showing := run_keeps (P := fun b => b.Showing _)
    (fun c hc _ hb => hb.perform paints (allowed c hc)) start
  obtain ⟨-, ⟨surface, painted, shows⟩, display⟩ := showing.render paints
  exact ⟨showing.window, fun clean shown hs => (showing.tracks shown hs).shows clean,
    ⟨surface, painted, shows, display⟩, fun c hc hr => (tells_perform hc hr).window⟩

/-- A pixel drawn after a repaint, and a frame that draws nothing. -/
def dottedCommands : List Command :=
  [.render, .draw 1 1 [0x80], .attachHost 60 false, .frame]

theorem run_repaints_dottedCommands :
    let surface := Raster.filled 192 96 (by decide) Window.defaultBackground
    let w : Window .raster := ⟨3, Window.defaultBackground, Window.defaultForeground, surface⟩
    let b : Monitor .raster := { (start ⟨fun _ => 0, 0⟩ .debug : Monitor .raster) with
      window := some w }
    Window.make .raster 3 Window.defaultBackground Window.defaultForeground = .ok w ∧
      (∀ c ∈ dottedCommands, c.overwrites = false) ∧
      ∃ shown, (b.run dottedCommands).render.window = some shown
        ∧ shown.surface.read 5 3 = .ok Window.defaultForeground
        ∧ shown.surface.read 6 3 = .ok Window.defaultBackground := by
  intro surface w b
  have allowed : ∀ c ∈ dottedCommands, c.overwrites = false := by decide
  have made : Window.make .raster 3 Window.defaultBackground Window.defaultForeground = .ok w := rfl
  obtain ⟨-, -, ⟨surface, painted, shows, -⟩, -⟩ := run_repaints (b := b) Graphics.paints_raster
    (by decide) made rfl rfl rfl rfl allowed
  have column : ∀ px : Nat, px < 7 → (px : Int) < displayWidth * 3 := by decide
  have line : ((3 : Nat) : Int) < displayHeight * 3 := by decide
  have dot : (b.run dottedCommands).machine.display.lit 1 1 = true := by decide +kernel
  have dark : (b.run dottedCommands).machine.display.lit 2 1 = false := by decide +kernel
  refine ⟨made, allowed, _, painted, ?_, ?_⟩
  · obtain ⟨lit, pixel, color⟩ := shows 5 3 (column 5 (by decide)) line
    cases (Display.pixel_eq_lit _ 1 1).symm.trans pixel
    rw [dot] at color
    exact color
  · obtain ⟨lit, pixel, color⟩ := shows 6 3 (column 6 (by decide)) line
    cases (Display.pixel_eq_lit _ 2 1).symm.trans pixel
    rw [dark] at color
    exact color

/-- **The size asked for is needed, and colours are shown without their alpha.** Of a library that
paints, the window at one scale is a pixel to a place, because sizes are cut down, and no pixel of
it is where the picture would go on. The window at another scale is as large as was asked for, and
what is read off it is another colour than the one that shows through. -/
theorem render_cutScale :
    let bench : Window .raster → Monitor .raster := fun w =>
      { (start ⟨fun _ => 0, 0⟩ .debug : Monitor .raster) with window := some w }
    Graphics.raster.Paints ∧
      (∃ w, Window.make .raster 134217729 Window.defaultBackground Window.defaultForeground
          = .ok w ∧
        (bench w).machine.display.dirty = true ∧
        ∀ shown, ((bench w).perform .render).state.window = some shown →
          ¬ shown.Shows ((bench w).perform .render).state.machine.display) ∧
      ∃ w, Window.make .raster 1 ⟨1, 2, 3, 0⟩ Window.defaultForeground = .ok w ∧
        (bench w).machine.display.dirty = true ∧
        ((bench w).perform .render).state.machine.display.pixel 0 0 = .ok false ∧
        ∃ shown, ((bench w).perform .render).state.window = some shown ∧
          shown.surface.read 0 0 ≠ .ok shown.background := by
  intro bench
  have painted : ∀ w, ((bench w).perform .render).state.window
      = some { w with surface := Graphics.raster.fill w.background w.surface } := fun w => by
    rw [← w.paint_dark Display.lit_blank]
    rfl
  have pixel : Display.blank.pixel 0 0 = .ok false :=
    (Display.blank.pixel_eq_lit 0 0).trans (congrArg Except.ok (Display.lit_blank 0 0))
  refine ⟨Graphics.paints_raster, ⟨_, rfl, rfl, fun shown hs shows => ?_⟩,
    ⟨_, rfl, rfl, pixel, _, painted _, ?_⟩⟩
  · cases (painted _).symm.trans hs
    obtain ⟨lit, -, color⟩ := shows 64 0 (by decide) (by decide)
    cases color
  · decide

end Monitor
end Chip8Vm
