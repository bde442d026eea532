/-!
# Running computations

Actions, commands and work on processes are computations with a state, which may stop with an error.
A run is carried over a bind or a handler by the result of its first part.
-/

namespace SketchBuild.Computation

variable {ε σ α β : Type} {x : EStateM ε σ α} {s s' : σ}

theorem bind_of_ok {f : α → EStateM ε σ β} {a : α} (h : x s = .ok a s') :
    (x >>= f) s = f a s' := by
  show EStateM.bind x f s = _
  rw [EStateM.bind, h]

theorem bind_of_error {f : α → EStateM ε σ β} {e : ε} (h : x s = .error e s') :
    (x >>= f) s = .error e s' := by
  show EStateM.bind x f s = _
  rw [EStateM.bind, h]

theorem tryCatch_of_ok {g : ε → EStateM ε σ α} {a : α} (h : x s = .ok a s') :
    tryCatch x g s = .ok a s' := by
  show EStateM.tryCatch x g s = _
  delta EStateM.tryCatch
  dsimp only
  rw [h]

theorem tryCatch_of_error {g : ε → EStateM ε σ α} {e : ε} (h : x s = .error e s') :
    tryCatch x g s = g e s' := by
  show EStateM.tryCatch x g s = _
  delta EStateM.tryCatch
  dsimp only
  rw [h]
  rfl

end SketchBuild.Computation
