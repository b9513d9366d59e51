import EdgeRoutes.Compile.Error
import EdgeRoutes.Compile.Event

/-! Compilations that report events.

A traced computation has an outcome and the events on the way to it, also where the outcome
is an error. The events never have an influence on the outcome.
-/

set_option autoImplicit false

namespace EdgeRoutes

structure Traced (Value : Type) where
  events : List Event
  outcome : Except CompileError Value

namespace Traced

def note (event : Event) : Traced Unit := ⟨[event], .ok ()⟩

def ofOutcome {Value : Type} (outcome : Except CompileError Value) : Traced Value := ⟨[], outcome⟩

def bind {First Second : Type} (first : Traced First) (next : First → Traced Second) :
    Traced Second :=
  match first.outcome with
  | .error error => ⟨first.events, .error error⟩
  | .ok value => ⟨first.events ++ (next value).events, (next value).outcome⟩

instance : Monad Traced where
  pure value := ⟨[], .ok value⟩
  bind := Traced.bind

@[simp] theorem outcome_pure {Value : Type} (value : Value) :
    (pure value : Traced Value).outcome = .ok value := rfl

@[simp] theorem outcome_note (event : Event) : (note event).outcome = .ok () := rfl

@[simp] theorem outcome_ofOutcome {Value : Type} (outcome : Except CompileError Value) :
    (ofOutcome outcome).outcome = outcome := rfl

/-- The outcome of two steps is the outcome of the second after that of the first. -/
@[simp] theorem outcome_bind {First Second : Type} (first : Traced First)
    (next : First → Traced Second) :
    (first >>= next).outcome = first.outcome >>= fun value => (next value).outcome := by
  show (Traced.bind first next).outcome = _
  unfold Traced.bind
  cases first.outcome <;> rfl

end Traced

end EdgeRoutes
