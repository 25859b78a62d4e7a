import Catwalk.Host.Basic

/-!
# Changes to a host

Objects are made at the end of their directory's catalogue. A single object is made or removed
altogether or not at all; `makeDirectory` and `makePath`, which make a chain of directories, keep
those that they made before they fail.
-/

namespace Catwalk

namespace Node

/-- Readable and writable by the owner, readable by the public. -/
def fileAttributes : Int := 19

/-- The type of an image that is given none. -/
def imageType : Int := 0xDDC

end Node

/-- What a file is made from. Without a type it has no stamp either; without a stamp it is stamped
with the present moment. -/
structure FilePlan where
  length : Int := 0
  fileType : Option Int := some Stamp.typeData
  attributes : Int := Node.fileAttributes
  stamp : Option Moment := none
deriving DecidableEq, Repr

/-- What an image is made from. -/
structure ImagePlan where
  fileType : Int := Node.imageType
  attributes : Int := Node.fileAttributes
  stamp : Option Moment := none
deriving DecidableEq, Repr

namespace Host

/-- Refuses a name that cannot be stored. -/
def checkName (name spelling : Text) : Except Fault Unit :=
  if name.contains 0 then .error (.nulInName spelling)
  else if (Text.encode? name).isNone then .error .unencodable
  else .ok ()

/-- The host with one node changed. -/
def update (host : Host) (id : NodeId) (change : Node → Node) : Host :=
  { host with
    nodes := host.nodes.map fun (other, node) => (other, if other = id then change node else node) }

/-- The host with other children of one node. -/
def updateChildren (host : Host) (id : NodeId)
    (change : List (Text × NodeId) → List (Text × NodeId)) : Host :=
  host.update id fun node => { node with content := node.content.withChildren change }

/-- Whether the node table has no room. -/
def isFull (host : Host) : Bool :=
  match host.maxNodes with
  | some limit => limit ≤ host.nodes.length
  | none => false

/-- Adds a node as the last child of another, unless the node table is full. -/
def add (parent : NodeId) (name : Text) (node : Node) : Act Host NodeId := fun host =>
  if host.isFull then .error (.hostFull host.nodes.length (host.maxNodes.getD 0)) host
  else
    let id := host.nextId
    let extended := { host with nextId := id + 1, nodes := host.nodes ++ [(id, node)] }
    .ok id (extended.updateChildren parent (· ++ [(name, id)]))

/-- Adds a node under a path that names no object yet. -/
def link (spelling : Text) (node : Node) : Act Host Unit := do
  let path := Path.ofText spelling
  if path.isPlainRoot then throw (.directoryExists spelling)
  let host ← get
  if (host.find? path).isSome then throw (.fileExists spelling)
  match host.locate? path.parent with
  | some parent =>
    if (host.node? parent).any (·.content.isFolder) then
      Act.ofExcept (checkName path.name spelling)
      let _ ← add parent path.name node
    else throw (.noParent path.parent.text)
  | none => throw (.noParent path.parent.text)

/-- Makes the directories that are missing on the way from a node. An image on the way will do. All
of them are stamped with one moment, however long it takes to make them. -/
def makeMissing (now : Moment) (spelling : Text) : NodeId → List Text → Act Host Unit
  | _, [] => pure ()
  | id, element :: elements => do
    let host ← get
    match host.childId? id element with
    | some child =>
      if (host.node? child).any (·.content.isFolder) then makeMissing now spelling child elements
      else throw (.fileOnPath element)
    | none =>
      Act.ofExcept (checkName element spelling)
      let child ← add id element (Node.emptyDirectory now)
      makeMissing now spelling child elements

/-- Makes a directory and the directories that are missing on the way to it. -/
def makeDirectory (now : Moment) (spelling : Text) (existsOk : Bool) : Act Host Unit := do
  let path := Path.ofText spelling
  match (← get).find? path with
  | some node =>
    if node.content.isDirectory then
      if existsOk then pure () else throw (.directoryExists spelling)
    else throw (.fileAtPath spelling)
  | none => makeMissing now path.text rootId path.elements

/-- The cuts of a text before each of its solidi from `offset` on, the empty one left out. -/
def cutsBefore (spelling : Text) (offset : Nat) : List Text :=
  ((List.range spelling.length).filter fun i =>
    offset ≤ i && i ≠ 0 && spelling[i]? = some CodePoint.solidus).map spelling.take

/-- Makes every directory that a solidus from `offset` on ends the spelling of, all of them with the
one moment as their stamp. -/
def makePath (now : Moment) (spelling : Text) (offset : Int) : Act Host Unit := do
  unless 0 ≤ offset ∧ offset ≤ spelling.length do throw (.badOffset offset spelling)
  (cutsBefore spelling offset.toNat).forM fun directory => makeDirectory now directory true

/-- Makes a file. -/
def createFile (now : Moment) (spelling : Text) (plan : FilePlan) : Act Host Unit := do
  if plan.length < 0 then throw (.badLength plan.length)
  let (load, exec) ←
    match plan.fileType with
    | none => pure (0, 0)
    | some fileType => Act.ofExcept (Stamp.encode? fileType (plan.stamp.getD now))
  link spelling
    { load, exec, attributes := plan.attributes, content := .file plan.length.toNat }

/-- Makes an image without children. -/
def createImage (now : Moment) (spelling : Text) (plan : ImagePlan) : Act Host Unit := do
  let (load, exec) ← Act.ofExcept (Stamp.encode? plan.fileType (plan.stamp.getD now))
  link spelling { load, exec, attributes := plan.attributes, content := .folder true [] }

/-- Gives an object another type, and the present moment as its stamp if it has none. -/
def setFileType (now : Moment) (spelling : Text) (fileType : Int) : Act Host Unit := do
  unless Stamp.isFileType fileType do throw (.badFileType fileType)
  let host ← get
  match host.locate? (.ofText spelling) with
  | none => throw (.noObject spelling)
  | some id =>
    set <| host.update id fun node =>
      if Stamp.isStamped node.load.val then
        { node with load := Stamp.retype node.load fileType.toNat }
      else
        let (load, exec) := Stamp.encode fileType.toNat now
        { node with load, exec }

/-- The host without the link to an object. -/
def unlink (host : Host) (path : Path) : Host :=
  match host.locate? path.parent with
  | some parent => host.updateChildren parent (·.filter (·.1 ≠ path.name))
  | none => host

/-- The nodes that remain when those that are `doomed` go, and all below them. Children stand behind
their parents, so that one pass finds them all, and none is too far down for it: a limit on how deep
calls may be nested is no part of the model. -/
def prune : List NodeId → List (NodeId × Node) → List (NodeId × Node)
  | _, [] => []
  | doomed, (id, node) :: nodes =>
    if doomed.contains id then prune (node.content.children.map (·.2) ++ doomed) nodes
    else (id, node) :: prune doomed nodes

/-- Removes a file. -/
def remove (spelling : Text) : Act Host Unit := do
  let path := Path.ofText spelling
  let host ← get
  match host.locate? path, host.find? path with
  | some id, some node =>
    if node.content.isFolder then throw (.isDirectory spelling)
    let host := host.unlink path
    set { host with nodes := prune [id] host.nodes }
  | _, _ => throw (.noFile spelling)

/-- Removes a directory or an image with all that is below it, at any depth. The root stays. -/
def removeTree (spelling : Text) : Act Host Unit := do
  let path := Path.ofText spelling
  if path.isPlainRoot then throw .rootRemoval
  let host ← get
  match host.locate? path, host.find? path with
  | some id, some node =>
    unless node.content.isFolder do throw (.notDirectory spelling)
    if path.elements.isEmpty then throw .rootUnlinked
    let host := host.unlink path
    set { host with nodes := prune [id] host.nodes }
  | _, _ => throw (.noDirectory spelling)

end Host

end Catwalk
