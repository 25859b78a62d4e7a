import Catwalk.Path
import Catwalk.Record
import Catwalk.Stamp

/-!
# The host

A filing system in memory. Its objects are nodes in a table, in the order in which they were made;
a folder, which is a directory or an image that is entered like one, holds the names and the numbers
of its children in the order in which a catalogue lists them. The root is node 0.
-/

namespace Catwalk

/-- The number of a node, which is never given to another. -/
abbrev NodeId := Nat

/-- What an object holds. -/
inductive Content where
  | file (length : Nat)
  | folder (isImage : Bool) (children : List (Text × NodeId))
deriving DecidableEq, Repr

/-- An object of a host. -/
structure Node where
  load : Word
  exec : Word
  attributes : Int
  content : Content
deriving DecidableEq, Repr

/-- A filing system in memory. -/
structure Host where
  /-- How many nodes the table may have. -/
  maxNodes : Option Nat
  /-- The number of the next node. -/
  nextId : NodeId
  nodes : List (NodeId × Node)
deriving DecidableEq, Repr

namespace Content

/-- Whether an object can have children. -/
def isFolder : Content → Bool
  | file _ => false
  | folder .. => true

/-- Whether an object is a directory and no image. -/
def isDirectory : Content → Bool
  | folder false _ => true
  | _ => false

/-- The children of an object. -/
def children : Content → List (Text × NodeId)
  | file _ => []
  | folder _ children => children

/-- The length of a file; nothing else has one. -/
def length : Content → Nat
  | file length => length
  | folder .. => 0

/-- The kind of object. -/
def objectType : Content → ObjectType
  | file _ => .file
  | folder false _ => .directory
  | folder true _ => .image

/-- The same object with other children, if it can have any. -/
def withChildren (content : Content) (update : List (Text × NodeId) → List (Text × NodeId)) :
    Content :=
  match content with
  | file length => .file length
  | folder isImage children => .folder isImage (update children)

end Content

namespace Node

/-- Readable and writable by the owner. -/
def directoryAttributes : Int := 3

/-- An empty directory that is made at a moment. -/
def emptyDirectory (now : Moment) : Node :=
  let (load, exec) := Stamp.encode Stamp.typeData now
  { load, exec, attributes := directoryAttributes, content := .folder false [] }

/-- The entry that lists an object under a name. -/
def entry (node : Node) (name : Text) : Entry :=
  { name
    objectType := node.content.objectType.code
    load := node.load.val
    exec := node.exec.val
    length := node.content.length
    attributes := node.attributes }

end Node

namespace Host

/-- The number of the root. -/
def rootId : NodeId := 0

/-- A host with an empty root, and room for `maxNodes` nodes or without end. -/
def make? (maxNodes : Option Int) (now : Moment) : Except Fault Host :=
  match maxNodes with
  | none => .ok ⟨none, 1, [(rootId, Node.emptyDirectory now)]⟩
  | some limit =>
    if limit < 1 then .error (.badNodeLimit limit)
    else .ok ⟨some limit.toNat, 1, [(rootId, Node.emptyDirectory now)]⟩

/-- The node with a number. -/
def node? (host : Host) (id : NodeId) : Option Node := host.nodes.lookup id

/-- The number of the child of a node under a name. -/
def childId? (host : Host) (id : NodeId) (name : Text) : Option NodeId := do
  (← host.node? id).content.children.lookup name

/-- The number of the node to which elements lead from a node. -/
def locateFrom? (host : Host) : NodeId → List Text → Option NodeId
  | id, [] => some id
  | id, element :: elements =>
    match host.childId? id element with
    | some child => locateFrom? host child elements
    | none => none

/-- The number of the node that a path names. -/
def locate? (host : Host) (path : Path) : Option NodeId := host.locateFrom? rootId path.elements

/-- The node that a path names. -/
def find? (host : Host) (path : Path) : Option Node := do host.node? (← host.locate? path)

end Host

end Catwalk
