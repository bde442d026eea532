import SketchBuild.Console
import SketchBuild.Proofs.Action

/-!
# Reasoning about commands

A command is run like an action. An action that is part of a command runs as it does alone; if it
stops, its fault stops the command.
-/

namespace SketchBuild

namespace Command

variable {α β : Type} {x : Command α} {f : α → Command β} {w w' : World}

theorem bind_of_ok {a : α} (h : x w = .ok a w') : (x >>= f) w = f a w' :=
  Computation.bind_of_ok h

theorem bind_of_error {e : Stop} (h : x w = .error e w') : (x >>= f) w = .error e w' :=
  Computation.bind_of_error h

theorem tryCatch_of_ok {g : Stop → Command α} {a : α} (h : x w = .ok a w') :
    (tryCatch x g) w = .ok a w' :=
  Computation.tryCatch_of_ok h

theorem tryCatch_of_error {g : Stop → Command α} {e : Stop} (h : x w = .error e w') :
    (tryCatch x g) w = g e w' :=
  Computation.tryCatch_of_error h

/-! ## Actions in commands -/

section Lift

variable {y : Action α}

theorem lift_of_ok {a : α} (h : y w = .ok a w') : (liftM y : Command α) w = .ok a w' := by
  show EStateM.adaptExcept Stop.fault y w = _
  rw [EStateM.adaptExcept, h]

theorem lift_of_error {e : Fault} (h : y w = .error e w') :
    (liftM y : Command α) w = .error (.fault e) w' := by
  show EStateM.adaptExcept Stop.fault y w = _
  rw [EStateM.adaptExcept, h]

end Lift

/-! ## What a command leaves -/

/-- The world in which a command ends, however it does. -/
def after (x : Command α) (w : World) : World :=
  match x w with
  | .ok _ w' => w'
  | .error _ w' => w'

theorem after_congr {y : Command α} {w₁ : World} (h : x w = y w₁) : x.after w = y.after w₁ := by
  rw [after, h, after]

theorem after_of_error {e : Stop} (h : x w = .error e w') : x.after w = w' := by
  rw [after, h]

theorem after_bind_of_ok {a : α} (h : x w = .ok a w') : (x >>= f).after w = (f a).after w' := by
  rw [after, bind_of_ok h, after]

theorem after_bind_of_error {e : Stop} (h : x w = .error e w') : (x >>= f).after w = w' := by
  rw [after, bind_of_error h]

theorem after_lift (y : Action α) (w : World) : (liftM y : Command α).after w = y.after w := by
  cases h : y w with
  | ok a w' => rw [after, lift_of_ok h, Action.after_of_ok h]
  | error e w' => rw [after, lift_of_error h, Action.after_of_error h]

/-- A command that starts no program, however it ends. -/
def Silent (x : Command α) : Prop := ∀ w, Trail w (x.after w) []

theorem Silent.pure (a : α) : Silent (pure a : Command α) := fun w => .refl w

theorem Silent.throw (s : Stop) : Silent (throw s : Command α) := fun w => .refl w

theorem Silent.lift {y : Action α} (h : y.Silent) : Silent (liftM y : Command α) := by
  intro w
  rw [after_lift]
  exact h w

section Trail

variable {runs : List Tool.Start} (hx : Trail w (x.after w) runs)

include hx

theorem trail_bind (hf : ∀ a, Silent (f a)) : Trail w ((x >>= f).after w) runs := by
  rw [after] at hx
  cases hr : x w with
  | ok a w' =>
      rw [hr] at hx
      rw [after_bind_of_ok hr]
      exact hx.trans_silent (hf a w')
  | error s w' =>
      rw [hr] at hx
      rwa [after_bind_of_error hr]

theorem trail_tryCatch {g : Stop → Command α} (hg : ∀ s, Silent (g s)) :
    Trail w ((tryCatch x g).after w) runs := by
  rw [after] at hx
  cases hr : x w with
  | ok a w' =>
      rw [hr] at hx
      rwa [after, tryCatch_of_ok hr]
  | error s w' =>
      rw [hr] at hx
      rw [after, tryCatch_of_error hr]
      exact hx.trans_silent (hg s w')

end Trail

theorem Silent.bind (hx : Silent x) (hf : ∀ a, Silent (f a)) : Silent (x >>= f) :=
  fun w => trail_bind (hx w) hf

theorem Silent.tryCatch {g : Stop → Command α} (hx : Silent x) (hg : ∀ s, Silent (g s)) :
    Silent (tryCatch x g) :=
  fun w => trail_tryCatch (hx w) hg

/-! ## Faults that stop a command -/

section StopsOnly

variable {P : Fault → Prop}

end StopsOnly

/-! ## Commands that let no fault through -/

end Command

/-! ## Showing -/

namespace Console

theorem shows_palette {f : Palette → Action Unit} (h : ∀ c, Action.Shows (f c)) :
    Action.Shows (palette >>= f) :=
  fun w => h w.palette w

theorem shows_error_of_isText (title : String) {message : Text.Str} (h : message.isText = true)
    (hint : Option String) : Action.Shows (Console.error title message hint) := by
  have hgap : Action.Shows gap := .print ""
  refine shows_palette fun c => hgap.bind ((Action.Shows.print _).bind (hgap.bind ?_))
  dsimp only
  refine Action.Shows.ite_bind _ (.printStr h) ?_
  cases hint with
  | none => exact hgap
  | some h => exact Action.Shows.ite_bind _ (.print _) hgap

theorem shows_error (title message : String) (hint : Option String) :
    Action.Shows (Console.error title message hint) :=
  shows_error_of_isText title rfl hint

/-- The console shows the title of an error, and stops at a torn message. -/
theorem error_of_torn (title : String) {message : Text.Str} (h : message.isText = false)
    (hint : Option String) (w : World) :
    ∃ e w', Console.error title message hint w = .error (.pieces e) w' ∧ Quiet w w' := by
  have hgap : Action.Shows gap := .print ""
  obtain ⟨e, hprint⟩ := Action.printStr_of_torn h
  have hne : (!message.isEmpty) = true := by rw [Text.Str.isEmpty_of_torn h, Bool.not_false]
  obtain ⟨w₁, hrun₁, hq₁⟩ := hgap w
  obtain ⟨w₂, hrun₂, hq₂⟩ := Action.Shows.print s!"{w.palette.red}✗ {title}{w.palette.reset}" w₁
  obtain ⟨w₃, hrun₃, hq₃⟩ := hgap w₂
  refine ⟨e, w₃, ?_, (hq₁.trans hq₂).trans hq₃⟩
  rw [Console.error, hprint, Action.bind_of_ok (show palette w = .ok w.palette w from rfl),
    Action.bind_of_ok hrun₁, Action.bind_of_ok hrun₂, Action.bind_of_ok hrun₃, if_pos hne]
  rfl

theorem shows_success_of_isText {message : Text.Str} (h : message.isText = true) :
    Action.Shows (success message) :=
  shows_palette fun _ => (Action.Shows.print _).bind (.printStr (by simp [h]))

theorem shows_success (message : String) : Action.Shows (success message) :=
  shows_success_of_isText rfl

/-- To set up the console changes nothing else. -/
theorem shows_setColor (enabled : Bool) : Action.Shows (setColor enabled) :=
  fun _ => ⟨_, rfl, ⟨⟨by simp, by simp [World.calls], rfl, rfl, rfl⟩, rfl⟩⟩

theorem shows_setLogging (verbose : Bool) : Action.Shows (setLogging verbose) :=
  fun _ => ⟨_, rfl, ⟨⟨by simp, by simp [World.calls], rfl, rfl, rfl⟩, rfl⟩⟩

theorem shows_warning (message : String) : Action.Shows (warning message) :=
  shows_palette fun _ => .print _

theorem shows_traceback (t : Diagnostic.Traceback) : Action.Shows (Console.traceback t) :=
  shows_palette fun _ _ => ⟨_, rfl, .emit (by simp)⟩

end Console

end SketchBuild
