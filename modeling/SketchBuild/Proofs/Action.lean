import SketchBuild.Proofs.Computation
import SketchBuild.World

/-! # Reasoning about actions

An action is run step by step: `bind_of_ok` and `bind_of_error` carry a run over one bind, and
`bind_eq_ok_iff` takes a successful run apart. What matters of a run beside its value is kept in two
relations between the worlds before and after it. `Trail w w' ss` says that exactly the programs
`ss` were started; it holds of every run, also of one that stops. `Quiet w w'` says that nothing
happened but printing and logging. -/

namespace SketchBuild

variable {α β : Type}

namespace Action

/-! ## Running a bind -/

section Run

variable {x : Action α} {f : α → Action β} {w w' : World}

theorem bind_of_ok {a : α} (h : x w = .ok a w') : (x >>= f) w = f a w' :=
  Computation.bind_of_ok h

theorem bind_of_error {e : Fault} (h : x w = .error e w') : (x >>= f) w = .error e w' :=
  Computation.bind_of_error h

/-- A bind succeeds when both of its parts do. -/
theorem bind_eq_ok_iff {b : β} {w'' : World} :
    (x >>= f) w = .ok b w'' ↔ ∃ a w', x w = .ok a w' ∧ f a w' = .ok b w'' := by
  cases h : x w with
  | ok a w' =>
      rw [bind_of_ok h]
      constructor
      · intro hb
        exact ⟨a, w', rfl, hb⟩
      · rintro ⟨a', w₁, ha, hb⟩
        cases ha
        exact hb
  | error e w' =>
      rw [bind_of_error h]
      constructor
      · intro hb
        cases hb
      · rintro ⟨a', w₁, ha, -⟩
        cases ha

theorem bind_congr {y : Action α} (h : x w = y w') : (x >>= f) w = (y >>= f) w' := by
  cases hy : y w' with
  | ok a w₁ => rw [bind_of_ok hy, bind_of_ok (h.trans hy)]
  | error e w₁ => rw [bind_of_error hy, bind_of_error (h.trans hy)]

theorem tryCatch_of_ok {g : Fault → Action α} {a : α} (h : x w = .ok a w') :
    (tryCatch x g) w = .ok a w' :=
  Computation.tryCatch_of_ok h

theorem tryCatch_of_error {g : Fault → Action α} {e : Fault} (h : x w = .error e w') :
    (tryCatch x g) w = g e w' :=
  Computation.tryCatch_of_error h

theorem ask_of_ok {question : Disk → Except FileError α} {a : α} (h : question w.disk = .ok a) :
    ask question w = .ok a w := by
  show ofExcept .file (question w.disk) w = _
  rw [h]
  rfl

theorem ask_of_error {question : Disk → Except FileError α} {e : FileError}
    (h : question w.disk = .error e) : ask question w = .error (.file e) w := by
  show ofExcept .file (question w.disk) w = _
  rw [h]
  rfl

theorem ask_eq_ok_iff {question : Disk → Except FileError α} {a : α} :
    ask question w = .ok a w' ↔ question w.disk = .ok a ∧ w' = w := by
  cases h : question w.disk with
  | ok b =>
      rw [ask_of_ok h]
      simp [eq_comm]
  | error e =>
      rw [ask_of_error h]
      simp

theorem change_of_ok {operation : Disk → Except FileError Disk} {d : Disk}
    (h : operation w.disk = .ok d) : change operation w = .ok () { w with disk := d } := by
  show (ofExcept .file (operation w.disk) >>= fun d => set { w with disk := d }) w = _
  rw [h]
  rfl

theorem change_of_error {operation : Disk → Except FileError Disk} {e : FileError}
    (h : operation w.disk = .error e) : change operation w = .error (.file e) w := by
  show (ofExcept .file (operation w.disk) >>= fun d => set { w with disk := d }) w = _
  rw [h]
  rfl

theorem change_eq_ok_iff {operation : Disk → Except FileError Disk} :
    change operation w = .ok () w' ↔
      ∃ d, operation w.disk = .ok d ∧ w' = { w with disk := d } := by
  cases h : operation w.disk with
  | ok d =>
      rw [change_of_ok h]
      simp [eq_comm]
  | error e =>
      rw [change_of_error h]
      simp

theorem changePartly_of_none {operation : Disk → Option FileError × Disk} {d : Disk}
    (h : operation w.disk = (none, d)) :
    changePartly operation w = .ok () { w with disk := d } := by
  unfold changePartly
  rw [bind_of_ok (rfl : (get : Action World) w = .ok w w), h]
  rfl

theorem changePartly_of_some {operation : Disk → Option FileError × Disk} {d : Disk}
    {e : FileError} (h : operation w.disk = (some e, d)) :
    changePartly operation w = .error (.file e) { w with disk := d } := by
  unfold changePartly
  rw [bind_of_ok (rfl : (get : Action World) w = .ok w w), h]
  rfl

theorem changePartly_eq_ok_iff {operation : Disk → Option FileError × Disk} :
    changePartly operation w = .ok () w' ↔
      ∃ d, operation w.disk = (none, d) ∧ w' = { w with disk := d } := by
  rcases h : operation w.disk with ⟨failure, d⟩
  cases failure with
  | none =>
      rw [changePartly_of_none h]
      simp [eq_comm]
  | some e =>
      rw [changePartly_of_some h]
      simp

theorem makePath_of_none {p : Path} {d : Disk} (h : w.disk.makePath p = (none, d)) :
    changePartly (·.makePath p) w = .ok () { w with disk := d } :=
  changePartly_of_none h

theorem makePath_of_some {p : Path} {d : Disk} {e : FileError}
    (h : w.disk.makePath p = (some e, d)) :
    changePartly (·.makePath p) w = .error (.file e) { w with disk := d } :=
  changePartly_of_some h

end Run

/-- The world after an action, however it ends. -/
def after (x : Action α) (w : World) : World :=
  match x w with
  | .ok _ w' => w'
  | .error _ w' => w'

/-- What an action gives, if it succeeds. -/
def value? (x : Action α) (w : World) : Option α :=
  match x w with
  | .ok a _ => some a
  | .error _ _ => none

theorem value?_eq_some_iff {x : Action α} {a : α} {w : World} :
    x.value? w = some a ↔ x w = .ok a (x.after w) := by
  rw [value?, after]
  cases x w <;> simp

theorem value?_eq_none_iff {x : Action α} {w : World} :
    x.value? w = none ↔ ∃ e, x w = .error e (x.after w) := by
  rw [value?, after]
  cases x w <;> simp

/-- What the system refused, if an action stops with that. -/
def refusal? (x : Action α) (w : World) : Option FileError :=
  match x w with
  | .error (.file e) _ => some e
  | _ => none

theorem refusal?_eq_some_iff {x : Action α} {e : FileError} {w : World} :
    x.refusal? w = some e ↔ x w = .error (.file e) (x.after w) := by
  rw [refusal?, after]
  split
  · next h => simp [h]
  · next h =>
      refine iff_of_false nofun fun herr => ?_
      exact h e _ herr

theorem after_of_ok {x : Action α} {a : α} {w w' : World} (h : x w = .ok a w') :
    x.after w = w' := by
  rw [after, h]

theorem after_of_error {x : Action α} {e : Fault} {w w' : World} (h : x w = .error e w') :
    x.after w = w' := by
  rw [after, h]

theorem after_congr {x y : Action α} {w w' : World} (h : x w = y w') : x.after w = y.after w' := by
  rw [after, h, after]

theorem after_bind_of_ok {x : Action α} {f : α → Action β} {a : α} {w w' : World}
    (h : x w = .ok a w') : (x >>= f).after w = (f a).after w' :=
  after_congr (bind_of_ok h)

theorem after_bind_of_error {x : Action α} {f : α → Action β} {e : Fault} {w w' : World}
    (h : x w = .error e w') : (x >>= f).after w = w' :=
  after_of_error (bind_of_error h)

end Action

/-! ## What a run may stop with -/

namespace Action

/-- If the action stops at all, then with a fault that satisfies `P`. -/
def FailsOnly (P : Fault → Prop) (x : Action α) (w : World) : Prop :=
  ∀ f w', x w = .error f w' → P f

section FailsOnly

variable {P Q : Fault → Prop} {x : Action α} {w w' : World}

theorem failsOnly_of_ok {a : α} (h : x w = .ok a w') : FailsOnly P x w := by
  intro f w₁ herr
  cases h.symm.trans herr

theorem failsOnly_iff_of_error {f : Fault} (h : x w = .error f w') : FailsOnly P x w ↔ P f := by
  constructor
  · intro hx
    exact hx f w' h
  · intro hf g w₁ herr
    cases h.symm.trans herr
    exact hf

theorem failsOnly_congr {y : Action α} (h : x w = y w') : FailsOnly P x w ↔ FailsOnly P y w' := by
  rw [FailsOnly, FailsOnly, h]

/-- A bind stops as one of its parts does. -/
theorem failsOnly_bind_iff {f : α → Action β} :
    FailsOnly P (x >>= f) w ↔
      FailsOnly P x w ∧ ∀ a w', x w = .ok a w' → FailsOnly P (f a) w' := by
  cases h : x w with
  | ok a w₁ =>
      rw [FailsOnly, bind_of_ok h]
      constructor
      · intro hf
        refine ⟨failsOnly_of_ok h, fun a' w₂ heq => ?_⟩
        cases heq
        exact hf
      · rintro ⟨-, hf⟩
        exact hf a w₁ rfl
  | error e w₁ =>
      rw [failsOnly_iff_of_error (bind_of_error h), failsOnly_iff_of_error h]
      exact ⟨fun he => ⟨he, nofun⟩, And.left⟩

theorem failsOnly_bind_of_ok {f : α → Action β} {a : α} (h : x w = .ok a w') :
    FailsOnly P (x >>= f) w ↔ FailsOnly P (f a) w' := by
  rw [FailsOnly, bind_of_ok h, FailsOnly]

theorem tryCatch_of_throw {g : Fault → Action α} {f f' : Fault} (h : x w = .error f w')
    (hg : g f = throw f') : tryCatch x g w = .error f' w' := by
  rw [tryCatch_of_error h, hg]
  rfl

theorem FailsOnly.tryCatch {g : Fault → Action α} (h : FailsOnly Q x w)
    (hg : ∀ f, Q f → ∃ f', g f = throw f' ∧ P f') : FailsOnly P (tryCatch x g) w := by
  cases hx : x w with
  | ok a w₁ => exact failsOnly_of_ok (tryCatch_of_ok hx)
  | error f w₁ =>
      obtain ⟨f', hf', hP⟩ := hg f (h f w₁ hx)
      exact (failsOnly_iff_of_error (tryCatch_of_throw hx hf')).mpr hP

/-- A handler that only exchanges faults exchanges what may be stopped with. -/
theorem failsOnly_tryCatch_iff {g : Fault → Action α}
    (hg : ∀ f, ∃ f', g f = throw f' ∧ (P f' ↔ Q f)) :
    FailsOnly P (tryCatch x g) w ↔ FailsOnly Q x w := by
  cases h : x w with
  | ok a w₁ => exact iff_of_true (failsOnly_of_ok (tryCatch_of_ok h)) (failsOnly_of_ok h)
  | error f w₁ =>
      obtain ⟨f', hf', hiff⟩ := hg f
      rw [failsOnly_iff_of_error (tryCatch_of_throw h hf'), failsOnly_iff_of_error h, hiff]

/-- What the disk refuses is told as it is. -/
theorem failsOnly_ask (question : Disk → Except FileError α) (w : World) :
    FailsOnly (fun f => ∃ e, f = .file e) (ask question) w := by
  cases h : question w.disk with
  | ok a => exact failsOnly_of_ok (ask_of_ok h)
  | error e => exact (failsOnly_iff_of_error (ask_of_error h)).mpr ⟨e, rfl⟩

theorem failsOnly_change (operation : Disk → Except FileError Disk) (w : World) :
    FailsOnly (fun f => ∃ e, f = .file e) (change operation) w := by
  cases h : operation w.disk with
  | ok d => exact failsOnly_of_ok (change_of_ok h)
  | error e => exact (failsOnly_iff_of_error (change_of_error h)).mpr ⟨e, rfl⟩

theorem failsOnly_changePartly (operation : Disk → Option FileError × Disk) (w : World) :
    FailsOnly (fun f => ∃ e, f = .file e) (changePartly operation) w := by
  rcases h : operation w.disk with ⟨failure, d⟩
  cases failure with
  | none => exact failsOnly_of_ok (changePartly_of_none h)
  | some e => exact (failsOnly_iff_of_error (changePartly_of_some h)).mpr ⟨e, rfl⟩

theorem failsOnly_forM {ι : Type} {f : ι → Action Unit} (h : ∀ i w, FailsOnly P (f i) w)
    (is : List ι) (w : World) : FailsOnly P (is.forM f) w := by
  induction is generalizing w with
  | nil => exact failsOnly_of_ok rfl
  | cons i is ih => exact failsOnly_bind_iff.mpr ⟨h i w, fun _ w' _ => ih w'⟩

end FailsOnly

end Action

/-! ## What a run leaves behind -/

/-- From `w` to `w'` exactly the programs `ss` were started, in this order. -/
structure Trail (w w' : World) (ss : List Tool.Start) : Prop where
  past : w'.past = w.past ++ ss
  calls : w'.calls = w.calls ++ ss.map (·.invocation)
  tools : w'.tools = w.tools
  env : w'.env = w.env
  host : w'.host = w.host

theorem Trail.refl (w : World) : Trail w w [] := ⟨by simp, by simp, rfl, rfl, rfl⟩

theorem Trail.trans {w w' w'' : World} {ss ss' : List Tool.Start} (h : Trail w w' ss)
    (h' : Trail w' w'' ss') : Trail w w'' (ss ++ ss') where
  past := by rw [h'.past, h.past, List.append_assoc]
  calls := by rw [h'.calls, h.calls, List.map_append, List.append_assoc]
  tools := h'.tools.trans h.tools
  env := h'.env.trans h.env
  host := h'.host.trans h.host

theorem Trail.silent_trans {w w' w'' : World} {ss : List Tool.Start} (h : Trail w w' [])
    (h' : Trail w' w'' ss) : Trail w w'' ss :=
  h.trans h'

theorem Trail.trans_silent {w w' w'' : World} {ss : List Tool.Start} (h : Trail w w' ss)
    (h' : Trail w' w'' []) : Trail w w'' ss := by
  simpa using h.trans h'

/-- Changing the disk starts nothing. -/
theorem Trail.withDisk (w : World) (d : Disk) : Trail w { w with disk := d } [] :=
  ⟨by simp, by simp [World.calls], rfl, rfl, rfl⟩

/-- Nothing happened but printing and logging. -/
structure Quiet (w w' : World) : Prop where
  trail : Trail w w' []
  disk : w'.disk = w.disk

theorem Quiet.refl (w : World) : Quiet w w := ⟨.refl w, rfl⟩

theorem Quiet.trans {w w' w'' : World} (h : Quiet w w') (h' : Quiet w' w'') : Quiet w w'' :=
  ⟨h.trail.silent_trans h'.trail, h'.disk.trans h.disk⟩

theorem Quiet.emit {w : World} {e : Event} (h : ∀ i, e ≠ .called i) : Quiet w (w.emit e) := by
  refine ⟨⟨by simp [World.emit], ?_, rfl, rfl, rfl⟩, rfl⟩
  cases e <;> simp_all [World.calls, World.emit]

theorem Quiet.record (w : World) (level : Level) (message : Text.Str) :
    Quiet w (w.record level message) := by
  rw [World.record]
  split
  · exact .emit (by simp)
  · split
    · exact .emit (by simp)
    · exact .refl w

namespace Action

/-- An action that only shows something: it succeeds, and nothing else happens. -/
def Shows (x : Action Unit) : Prop := ∀ w, ∃ w', x w = .ok () w' ∧ Quiet w w'

theorem Shows.log (level : Level) (message : Text.Str) : Shows (Action.log level message) :=
  fun w => ⟨_, rfl, .record w level message⟩

theorem Shows.print (line : String) : Shows (Action.print line) :=
  fun _ => ⟨_, rfl, .emit (by simp)⟩

theorem printStr_text (line : String) : printStr (.text line) = Action.print line := rfl

theorem Shows.printStr {line : Text.Str} (h : line.isText = true) :
    Shows (Action.printStr line) := by
  obtain ⟨t, rfl⟩ := Text.Str.isText_iff.mp h
  exact .print t

/-- The console takes no torn string. -/
theorem printStr_of_torn {line : Text.Str} (h : line.isText = false) :
    ∃ e, Action.printStr line = throw (.pieces e) := by
  obtain ⟨e, he⟩ := Text.Str.exists_printable_error h
  exact ⟨e, by rw [Action.printStr, he]; rfl⟩

theorem Shows.pure : Shows (pure ()) := fun w => ⟨w, rfl, .refl w⟩

theorem Shows.bind {x y : Action Unit} (hx : Shows x) (hy : Shows y) :
    Shows (x >>= fun _ => y) := by
  intro w
  obtain ⟨w₁, h₁, q₁⟩ := hx w
  obtain ⟨w₂, h₂, q₂⟩ := hy w₁
  exact ⟨w₂, by rw [bind_of_ok h₁, h₂], q₁.trans q₂⟩

theorem Shows.ite_print (c : Prop) [Decidable c] (line : String) :
    Shows (if c then Action.print line else Pure.pure ()) := by
  split
  · exact .print line
  · exact .pure

/-- What is shown first may depend on a switch. -/
theorem Shows.ite_bind (c : Prop) [Decidable c] {x : Action Unit} {f : Unit → Action Unit}
    (hx : Shows x) (hf : Shows (f ())) : Shows (if c then x >>= f else f ()) := by
  split
  · exact hx.bind hf
  · exact hf

theorem Shows.forM {ι : Type} {f : ι → Action Unit} (h : ∀ i, Shows (f i)) (is : List ι) :
    Shows (is.forM f) := by
  induction is with
  | nil => exact .pure
  | cons i is ih => exact (h i).bind ih

theorem Shows.failsOnly {x : Action Unit} (h : Shows x) {P : Fault → Prop} (w : World) :
    FailsOnly P x w := by
  obtain ⟨w', hx, -⟩ := h w
  exact failsOnly_of_ok hx

theorem Shows.quiet {x : Action Unit} (h : Shows x) {w w' : World} (hx : x w = .ok () w') :
    Quiet w w' := by
  obtain ⟨w₁, h₁, hq⟩ := h w
  rw [hx] at h₁
  cases h₁
  exact hq

/-- What follows an action that only shows something runs as if it came first. -/
theorem Shows.bind_apply {x : Action Unit} (h : Shows x) (f : Unit → Action β) (w : World) :
    ∃ w', Quiet w w' ∧ (x >>= f) w = f () w' := by
  obtain ⟨w', hx, hq⟩ := h w
  exact ⟨w', hq, bind_of_ok hx⟩

/-- The same for an action that is shown only if a switch is on. -/
theorem Shows.ite_bind_apply {x : Action Unit} (h : Shows x) (c : Prop) [Decidable c]
    (f : Unit → Action β) (w : World) :
    ∃ w', Quiet w w' ∧ (if c then x >>= f else f ()) w = f () w' := by
  split
  · exact h.bind_apply f w
  · exact ⟨w, .refl w, rfl⟩

/-- However the action ends, the world that it leaves is related to the one that it found. -/
def Leaves (T : World → World → Prop) (x : Action α) : Prop := ∀ w, T w (x.after w)

section Leaves

variable {T : World → World → Prop} {x : Action α}

theorem Leaves.of_eq (h : ∀ w, T w w) (hx : ∀ w, x.after w = w) : Leaves T x := by
  intro w
  rw [hx]
  exact h w

theorem Leaves.bind {f : α → Action β} (htrans : ∀ {u v w}, T u v → T v w → T u w)
    (hx : Leaves T x) (hf : ∀ a, Leaves T (f a)) : Leaves T (x >>= f) := by
  intro w
  have h := hx w
  cases hr : x w with
  | ok a w' =>
      rw [after_of_ok hr] at h
      rw [after_bind_of_ok hr]
      exact htrans h (hf a w')
  | error e w' =>
      rw [after_of_error hr] at h
      rwa [after_bind_of_error hr]

theorem Leaves.tryCatch {g : Fault → Action α} (htrans : ∀ {u v w}, T u v → T v w → T u w)
    (hx : Leaves T x) (hg : ∀ e, Leaves T (g e)) : Leaves T (tryCatch x g) := by
  intro w
  have h := hx w
  cases hr : x w with
  | ok a w' =>
      rw [after_of_ok hr] at h
      rwa [after_of_ok (tryCatch_of_ok hr)]
  | error e w' =>
      rw [after_of_error hr] at h
      have hrun : (MonadExcept.tryCatch x g).after w = (g e).after w' := by
        rw [after, after, tryCatch_of_error hr]
      rw [hrun]
      exact htrans h (hg e w')

theorem after_ask (question : Disk → Except FileError α) (w : World) :
    (ask question).after w = w := by
  cases h : question w.disk with
  | ok a => exact after_of_ok (ask_of_ok h)
  | error e => exact after_of_error (ask_of_error h)

theorem Leaves.change (h : ∀ w, T w w) (hdisk : ∀ w d, T w { w with disk := d })
    (operation : Disk → Except FileError Disk) : Leaves T (change operation) := by
  intro w
  cases hr : operation w.disk with
  | ok d =>
      rw [after_of_ok (change_of_ok hr)]
      exact hdisk w d
  | error e =>
      rw [after_of_error (change_of_error hr)]
      exact h w

theorem Leaves.changePartly (hdisk : ∀ w d, T w { w with disk := d })
    (operation : Disk → Option FileError × Disk) : Leaves T (changePartly operation) := by
  intro w
  rcases hr : operation w.disk with ⟨failure, d⟩
  cases failure with
  | none =>
      rw [after_of_ok (changePartly_of_none hr)]
      exact hdisk w d
  | some e =>
      rw [after_of_error (changePartly_of_some hr)]
      exact hdisk w d

end Leaves

/-- An action that starts no program, however it ends. -/
def Silent (x : Action α) : Prop := ∀ w, Trail w (x.after w) []

theorem Silent.pure (a : α) : Silent (pure a : Action α) := fun w => .refl w

theorem Silent.throw (e : Fault) : Silent (throw e : Action α) := fun w => .refl w

theorem Silent.bind {x : Action α} {f : α → Action β} (hx : Silent x) (hf : ∀ a, Silent (f a)) :
    Silent (x >>= f) :=
  Leaves.bind (T := (Trail · · [])) Trail.silent_trans hx hf

theorem Silent.tryCatch {x : Action α} {g : Fault → Action α} (hx : Silent x)
    (hg : ∀ e, Silent (g e)) : Silent (tryCatch x g) :=
  Leaves.tryCatch (T := (Trail · · [])) Trail.silent_trans hx hg

theorem Shows.silent {x : Action Unit} (h : Shows x) : Silent x := by
  intro w
  obtain ⟨w', hx, hq⟩ := h w
  rw [after_of_ok hx]
  exact hq.trail

theorem Silent.ofExcept {ε : Type} (toFault : ε → Fault) (e : Except ε α) :
    Silent (ofExcept toFault e) := by
  cases e with
  | ok a => exact .pure a
  | error e => exact .throw _

theorem Silent.printStr (line : Text.Str) : Silent (Action.printStr line) :=
  (Silent.ofExcept _ _).bind fun text => (Shows.print text).silent

theorem Silent.ask (question : Disk → Except FileError α) : Silent (ask question) :=
  Leaves.of_eq (T := (Trail · · [])) Trail.refl (after_ask question)

theorem Silent.change (operation : Disk → Except FileError Disk) : Silent (change operation) :=
  Leaves.change (T := (Trail · · [])) Trail.refl Trail.withDisk operation

theorem Silent.changePartly (operation : Disk → Option FileError × Disk) :
    Silent (changePartly operation) :=
  Leaves.changePartly (T := (Trail · · [])) Trail.withDisk operation

theorem Silent.forM {ι : Type} {f : ι → Action Unit} (h : ∀ i, Silent (f i)) (is : List ι) :
    Silent (is.forM f) := by
  induction is with
  | nil => exact .pure ()
  | cons i is ih => exact (h i).bind fun _ => ih

theorem silent_isThere (dir : Directory) : Silent dir.isThere := by
  cases dir with
  | named p => exact Silent.ask (·.exists? p)
  | torn => exact Silent.pure false

end Action

end SketchBuild
