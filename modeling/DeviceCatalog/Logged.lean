import DeviceCatalog.Notice

/-!
# Results with notices

A computation that may fail and that reports as it goes. What was reported before a failure stays reported. The outcome of a
sequence of steps is the sequence of their outcomes, so every statement about results can leave the notices aside.
-/

namespace DeviceCatalog

/-- The notices of a computation, in order, and what it came to. -/
structure Logged (ε α : Type) where
  notices : List Notice
  outcome : Except ε α

namespace Logged

variable {ε ε' α β : Type}

/-- The next step sees the value; its notices come after those of the step before. -/
def bind (x : Logged ε α) (f : α → Logged ε β) : Logged ε β :=
  match x.outcome with
  | .ok a => ⟨x.notices ++ (f a).notices, (f a).outcome⟩
  | .error e => ⟨x.notices, .error e⟩

instance : Monad (Logged ε) where
  pure a := ⟨[], .ok a⟩
  bind := bind

/-- A failure without notices. -/
def fail (e : ε) : Logged ε α := ⟨[], .error e⟩

/-- A notice and nothing else. -/
def note (n : Notice) : Logged ε Unit := ⟨[n], .ok ()⟩

/-- Some notices and nothing else. -/
def notes (ns : List Notice) : Logged ε Unit := ⟨ns, .ok ()⟩

/-- A result without notices. -/
def ofExcept (r : Except ε α) : Logged ε α := ⟨[], r⟩

/-- The same with the failure restated. -/
def mapError (f : ε → ε') (x : Logged ε α) : Logged ε' α :=
  ⟨x.notices, x.outcome.mapError f⟩

end Logged

end DeviceCatalog
