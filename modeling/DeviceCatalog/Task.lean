import DeviceCatalog.Failure
import DeviceCatalog.FileTree
import DeviceCatalog.Logged

/-!
# Tasks

A computation on a file tree that may fail and that reports as it goes. What it changed and what it reported before a failure stay.
-/

namespace DeviceCatalog

/-- A computation on a file tree. -/
def Task (α : Type) : Type := FileTree → Logged Failure α × FileTree

namespace Task

variable {α β : Type}

/-- The next step sees the value and the tree; its notices come after those of the step before. -/
def bind (x : Task α) (f : α → Task β) : Task β := fun t =>
  let (r, t') := x t
  match r.outcome with
  | .ok a =>
    let (s, t'') := f a t'
    (⟨r.notices ++ s.notices, s.outcome⟩, t'')
  | .error e => (⟨r.notices, .error e⟩, t')

instance : Monad Task where
  pure a := fun t => (pure a, t)
  bind := bind

/-- A computation that does not touch the tree. -/
def ofLogged (x : Logged Failure α) : Task α := fun t => (x, t)

/-- A notice and nothing else. -/
def note (n : Notice) : Task Unit := ofLogged (.note n)

/-- What a function reads off the tree. -/
def inspect (f : FileTree → α) : Task α := fun t => (pure (f t), t)

/-- A step on the tree that may fail, its fault restated; what it changed stays. -/
def attempt (restate : DiskFault → Failure) (f : FileTree → Except DiskFault α × FileTree) : Task α := fun t =>
  let (r, t') := f t
  (.ofExcept (r.mapError restate), t')

/-- A step that gives a new tree unless it fails. -/
def attemptChange (restate : DiskFault → Failure) (f : FileTree → Except DiskFault FileTree) : Task Unit := fun t =>
  match f t with
  | .ok t' => (pure (), t')
  | .error fault => (.fail (restate fault), t)

/-- A change of the tree made after a task, whether it failed or not. -/
def andThen (x : Task α) (f : FileTree → FileTree) : Task α := fun t =>
  let (r, t') := x t
  (r, f t')

end Task

end DeviceCatalog
