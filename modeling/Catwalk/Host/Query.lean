import Catwalk.Host.Basic

/-!
# Questions to a host

A question takes a path as it is spelt by the caller, and spells it the same way in a fault.
-/

namespace Catwalk.Host

/-- The node that a spelling of a path names. -/
def require (host : Host) (spelling : Text) : Except Fault Node :=
  match host.find? (.ofText spelling) with
  | some node => .ok node
  | none => .error (.noObject spelling)

/-- The file type of an object. -/
def fileType (host : Host) (spelling : Text) : Except Fault Nat := do
  return Stamp.fileType (← host.require spelling).load.val

/-- The date stamp of an object. -/
def dateStamp (host : Host) (spelling : Text) : Except Fault Bytes := do
  let node ← host.require spelling
  return Stamp.bytes node.load.val node.exec.val

/-- The length of a file. -/
def fileSize (host : Host) (spelling : Text) : Except Fault Nat := do
  match (← host.require spelling).content with
  | .file length => return length
  | .folder .. => throw (.isDirectory spelling)

/-- What the catalogue says about an object, and that it is not found if there is none. -/
def information (host : Host) (spelling : Text) : Entry :=
  let path := Path.ofText spelling
  match host.find? path with
  | some node => node.entry path.name
  | none => { name := path.name, objectType := ObjectType.notFound.code }

/-- Whether there is an object. -/
def exists? (host : Host) (spelling : Text) : Bool := (host.find? (.ofText spelling)).isSome

/-- Whether there is a directory or an image. -/
def isFolder (host : Host) (spelling : Text) : Bool :=
  (host.find? (.ofText spelling)).any (·.content.isFolder)

/-- Whether there is a file. -/
def isFile (host : Host) (spelling : Text) : Bool :=
  (host.find? (.ofText spelling)).any (!·.content.isFolder)

/-- The children of a directory or an image. -/
def childrenOf (host : Host) (spelling : Text) : Except Fault (List (Text × NodeId)) := do
  match (← host.require spelling).content with
  | .folder _ children => return children
  | .file _ => throw (.notDirectory spelling)

/-- The names in a directory or an image, in catalogue order. -/
def names (host : Host) (spelling : Text) : Except Fault (List Text) := do
  return (← host.childrenOf spelling).map (·.1)

/-- The entries of a directory or an image, in catalogue order. -/
def catalogue (host : Host) (spelling : Text) : Except Fault (List Entry) := do
  return (← host.childrenOf spelling).filterMap fun (name, id) =>
    (host.node? id).map (·.entry name)

end Catwalk.Host
