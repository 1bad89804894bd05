import VersionMatrix.Error
import VersionMatrix.FileTree.Operations

/-!
Actions on files that may fail a stage. What an action has changed before it fails stays changed.
An action takes one operation on the disk at a time, and others may use the disk in between.
-/

namespace VersionMatrix

/-- An action on the disk with a result or a stage error. What follows an operation is told how the
operation found the disk, and nothing of the disk before or after that. -/
inductive DiskAction (α : Type) where
  | done (result : Except StageError α)
  | operate (effect : Disk → Disk) (next : Disk → DiskAction α)

namespace DiskAction

variable {α β : Type}

/-- The whole action with nothing in between: its result and the disk. -/
def run : DiskAction α → Disk → Except StageError α × Disk
  | .done result, disk => (result, disk)
  | .operate effect next, disk => (next disk).run (effect disk)

/-- Goes on with the result. An error ends the action. -/
def andThen (action : DiskAction α) (after : α → DiskAction β) : DiskAction β :=
  match action with
  | .done (.ok result) => after result
  | .done (.error error) => .done (.error error)
  | .operate effect next => .operate effect fun disk => (next disk).andThen after

/-- Goes on after an error. -/
def recover (action : DiskAction α) (handler : StageError → DiskAction α) : DiskAction α :=
  match action with
  | .done (.ok result) => .done (.ok result)
  | .done (.error error) => handler error
  | .operate effect next => .operate effect fun disk => (next disk).recover handler

instance : Monad DiskAction where
  pure result := .done (.ok result)
  bind := andThen

instance : MonadExceptOf StageError DiskAction where
  throw error := .done (.error error)
  tryCatch := recover

/-- Looks at the disk. -/
def inspect (look : Disk → α) : DiskAction α :=
  .operate id fun disk => .done (.ok (look disk))

/-- What is left of an answer when a refusal is an error at `path`. -/
def answerAt (path : String) : Except FileFault α → Except StageError α
  | .ok answer => .ok answer
  | .error fault => .error (.io path (.file fault))

/-- Asks the disk. A refusal is an error at `path`. -/
def query (path : String) (ask : Disk → Except FileFault α) : DiskAction α :=
  .operate id fun disk => .done (answerAt path (ask disk))

/-- Changes the disk. A refusal changes nothing and is an error at `path`. -/
def change (path : String) (act : Disk → Except FileFault Disk) : DiskAction Unit :=
  .operate (fun disk => (act disk).toOption.getD disk) fun disk =>
    .done (answerAt path ((act disk).map fun _ => ()))

def removeTree (path : String) : DiskAction Unit :=
  .operate (fun disk => (disk.removeTree path).2) fun disk =>
    .done (answerAt path (disk.removeTree path).1)

/-- Removes what stands at `path`, whether that succeeds or not. -/
def discardTree (path : String) : DiskAction Unit :=
  .operate (fun disk => (disk.removeTree path).2) fun _ => .done (.ok ())

end DiskAction

end VersionMatrix
