import Jack.Files.Tree

namespace Jack

/-- What a run does with a place. -/
inductive Use where
  | inspect
  | list
  | read
  | write
deriving DecidableEq, Repr

/-- A tree of files, and why some of its places cannot be used for something. -/
structure Disk where
  tree : FileTree
  refusal : Use → Place → Option FileError

namespace Disk

/-- Whether the place that a path leads to may be used for something. -/
def permit (disk : Disk) (use : Use) (path : String) : Except FileError Unit :=
  match disk.tree.locate path with
  | .error error => .error error
  | .ok place =>
    match disk.refusal use place with
    | some error => .error error
    | none => .ok ()

def kind (disk : Disk) (path : String) : Except FileError FileKind := do
  disk.permit .inspect path
  disk.tree.kind path

def names (disk : Disk) (path : String) : Except FileError (List String) := do
  disk.permit .list path
  disk.tree.names path

def read (disk : Disk) (path : String) : Except FileError ByteArray := do
  disk.permit .read path
  disk.tree.read path

def write (disk : Disk) (path : String) (content : ByteArray) : Except FileError Disk := do
  disk.permit .write path
  let tree ← disk.tree.write path content
  return { disk with tree }

instance : FileAccess (StateM Disk) where
  kind path := return (← get).kind path
  names path := return (← get).names path
  read path := return (← get).read path
  write path content := do
    match (← get).write path content with
    | .ok disk => set disk; return .ok ()
    | .error error => return .error error

end Disk

end Jack
