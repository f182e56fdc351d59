import AppHost.Failure
import AppHost.Files.Change

/-!
# Attempts

Preparing a launch changes files on the way, and a step that fails does not undo the ones before it.
An attempt holds both what came of it and the files as it left them.
-/

namespace AppHost.Launch

structure Attempt (α : Type) where
  files : Files
  result : Except Failure α

namespace Attempt

def ok (files : Files) (a : α) : Attempt α := { files, result := .ok a }

def failed (files : Files) (failure : Failure) : Attempt α := { files, result := .error failure }

def andThen (a : Attempt α) (next : Files → α → Attempt β) : Attempt β :=
  match a.result with
  | .ok v => next a.files v
  | .error failure => .failed a.files failure

@[simp] theorem ok_andThen (files : Files) (a : α) (next : Files → α → Attempt β) :
    (ok files a).andThen next = next files a := rfl

@[simp] theorem failed_andThen (files : Files) (failure : Failure) (next : Files → α → Attempt β) :
    (failed files failure).andThen next = failed files failure := rfl

end Attempt

/-- The files after a change that may fail without harm. -/
def orUnchanged (files : Files) (change : Except IoError Files) : Files :=
  match change with
  | .ok changed => changed
  | .error _ => files

end AppHost.Launch
