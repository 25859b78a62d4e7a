import Catwalk.Host.Edit
import Catwalk.Host.Query
import Catwalk.Proofs.Stamps

/-!
# Ordered trees

A tree of objects as it is seen from outside: each object has its facts, and its children by name in
the order of its catalogue. `Tree.alter` changes what a way leads to, and nothing that is neither
above nor below it (`find?_alter_apart`); what is above keeps its facts and the names of its
children (`find?_alter_above`).
-/

namespace Catwalk

/-- What there is to know of an object besides its name and its children. -/
structure Facts where
  kind : ObjectType
  load : Word
  exec : Word
  length : Nat
  attributes : Int
deriving DecidableEq, Repr

/-- The facts of a node. -/
def Node.facts (node : Node) : Facts where
  kind := node.content.objectType
  load := node.load
  exec := node.exec
  length := node.content.length
  attributes := node.attributes

namespace Facts

/-- The facts of a directory that is made at a moment. -/
def directory (now : Moment) : Facts := (Node.emptyDirectory now).facts

/-- Whether an object can have children. -/
def isFolder (facts : Facts) : Bool := facts.kind = .directory || facts.kind = .image

/-- The entry that lists an object under a name. -/
def entry (facts : Facts) (name : Text) : Entry where
  name := name
  objectType := facts.kind.code
  load := facts.load.val
  exec := facts.exec.val
  length := facts.length
  attributes := facts.attributes

/-- Another type, with the stamp that was there, or with that of a moment where none was. All other
facts are the same. -/
structure Retyped (now : Moment) (fileType : Nat) (before after : Facts) : Prop where
  stamped : Stamp.isStamped after.load.val = true
  fileType : Stamp.fileType after.load.val = fileType
  stamp : Stamp.bytes after.load.val after.exec.val =
    if Stamp.isStamped before.load.val then Stamp.bytes before.load.val before.exec.val
    else Stamp.bytesAt now
  others : after = { before with load := after.load, exec := after.exec }

end Facts

/-- Objects below one another, in order. -/
inductive Tree where
  | object (facts : Facts) (children : List (Text × Tree))

namespace Tree

/-- The facts of the topmost object. -/
def facts : Tree → Facts
  | object facts _ => facts

/-- What is right below the topmost object, by name. -/
def children : Tree → List (Text × Tree)
  | object _ children => children

/-- The names right below the topmost object. -/
def childNames (tree : Tree) : List Text := tree.children.map Prod.fst

/-- The child by a name. -/
def child? (tree : Tree) (name : Text) : Option Tree := tree.children.lookup name

/-- What a way of names leads to. -/
def find? : Tree → List Text → Option Tree
  | tree, [] => some tree
  | tree, element :: way =>
    match tree.child? element with
    | some child => find? child way
    | none => none

/-! ## Changes -/

/-- The tree with a change of what a way leads to. -/
def alter (change : Tree → Tree) : Tree → List Text → Tree
  | tree, [] => change tree
  | tree, element :: way =>
    object tree.facts <| tree.children.map fun child =>
      (child.1, if child.1 = element then alter change child.2 way else child.2)

/-- A new child at the end. -/
def append (tree : Tree) (name : Text) (new : Tree) : Tree :=
  object tree.facts (tree.children ++ [(name, new)])

/-- The child by a name goes, with all below it. -/
def erase (tree : Tree) (name : Text) : Tree :=
  object tree.facts (tree.children.filter (·.1 ≠ name))

/-- The same children below other facts. -/
def restate (tree : Tree) (facts : Facts) : Tree := object facts tree.children

/-- The tree with the objects that are missing on a way: the first of them at the end of the
children of the last that is there, and each of the others alone in the one before it. -/
def lay (facts : Facts) : Tree → List Text → Tree
  | tree, [] => tree
  | tree, element :: way =>
    if (tree.child? element).isSome then
      object tree.facts <| tree.children.map fun child =>
        (child.1, if child.1 = element then lay facts child.2 way else child.2)
    else tree.append element (lay facts (object facts []) way)

variable {tree : Tree} {change other : Tree → Tree} {element name : Text} {way front : List Text}

private theorem lookup_map {α β : Type} (update : Text → α → β) (pairs : List (Text × α))
    (key : Text) :
    (pairs.map fun pair => (pair.1, update pair.1 pair.2)).lookup key =
      (pairs.lookup key).map (update key) := by
  induction pairs with
  | nil => rfl
  | cons pair pairs ih =>
    obtain ⟨first, value⟩ := pair
    by_cases here : key = first
    · subst here
      simp
    · have apart : (key == first) = false := by simpa using here
      simp [List.lookup_cons, apart, ih]

theorem child?_alter (change : Tree → Tree) (tree : Tree) (element name : Text) (way : List Text) :
    (tree.alter change (element :: way)).child? name =
      (tree.child? name).map fun child =>
        if name = element then child.alter change way else child :=
  lookup_map
    (fun name (child : Tree) => if name = element then child.alter change way else child) ..

theorem child?_append (tree : Tree) (element name : Text) (new : Tree) :
    (tree.append element new).child? name =
      (tree.child? name).or (if name = element then some new else none) := by
  change (tree.children ++ _).lookup name = _
  rw [List.lookup_append]
  by_cases own : name = element
  · simp [own, child?]
  · have apart : (name == element) = false := by simpa using own
    simp [own, apart, List.lookup_cons, child?]

@[simp] theorem childNames_alter : (tree.alter change (element :: way)).childNames =
    tree.childNames := by
  simp [alter, childNames, children]

/-- What a way leads to is changed. -/
private theorem find?_alter (change : Tree → Tree) (tree : Tree) (way : List Text) :
    (tree.alter change way).find? way = (tree.find? way).map change := by
  induction way generalizing tree with
  | nil => rfl
  | cons element way ih =>
    rw [find?, find?, child?_alter]
    cases tree.child? element with
    | none => rfl
    | some child => simp [ih]

private theorem alter_append (change : Tree → Tree) (tree : Tree) (front way : List Text) :
    tree.alter change (front ++ way) = tree.alter (·.alter change way) front := by
  induction front generalizing tree with
  | nil => rfl
  | cons element front ih => simp [alter, ih]

/-- What is above a change keeps its facts and the names of its children. -/
theorem find?_alter_above (change : Tree → Tree) (tree : Tree) (front : List Text) :
    ((tree.alter change (front ++ element :: way)).find? front).map (fun above =>
        (above.facts, above.childNames)) =
      (tree.find? front).map fun above => (above.facts, above.childNames) := by
  rw [alter_append, find?_alter, Option.map_map]
  congr 1
  funext above
  exact congrArg (Prod.mk above.facts) childNames_alter

/-- What is neither above nor below a change stays as it is. -/
theorem find?_alter_apart (change : Tree → Tree) (tree : Tree) (front rest : List Text)
    (apart : name ≠ element) :
    (tree.alter change (front ++ element :: way)).find? (front ++ name :: rest) =
      tree.find? (front ++ name :: rest) := by
  induction front generalizing tree with
  | nil =>
    rw [List.nil_append, List.nil_append, find?, find?, child?_alter]
    cases tree.child? name with
    | none => rfl
    | some child => simp [apart]
  | cons first front ih =>
    rw [List.cons_append, List.cons_append, find?, find?, child?_alter]
    cases tree.child? first with
    | none => rfl
    | some child => simp [ih]

private theorem find?_append (tree : Tree) (front way : List Text) :
    tree.find? (front ++ way) = (tree.find? front).bind (·.find? way) := by
  induction front generalizing tree with
  | nil => rfl
  | cons element front ih =>
    rw [List.cons_append, find?, find?]
    cases tree.child? element with
    | none => rfl
    | some child => exact ih child

/-- What a change of the topmost object leaves as it is: all that is below its other children. -/
def Spares (change : Tree → Tree) (element : Text) : Prop :=
  ∀ tree name rest, name ≠ element → (change tree).find? (name :: rest) = tree.find? (name :: rest)

theorem spares_append (element : Text) (new : Tree) : Spares (·.append element new) element := by
  intro tree name rest apart
  rw [find?, find?, child?_append, if_neg apart, Option.or_none]

theorem spares_erase (element : Text) : Spares (·.erase element) element := by
  intro tree name rest apart
  have kept : (tree.erase element).child? name = tree.child? name := by
    change (tree.children.filter fun child => child.1 ≠ element).lookup name = _
    unfold child?
    induction tree.children with
    | nil => rfl
    | cons child children ih =>
      obtain ⟨first, below⟩ := child
      by_cases gone : first = element
      · have other : (name == first) = false := by simpa [gone] using apart
        rw [List.filter_cons_of_neg (by simpa using gone), ih, List.lookup_cons, other]
      · rw [List.filter_cons_of_pos (by simpa using gone), List.lookup_cons, List.lookup_cons, ih]
  rw [find?, find?, kept]

/-- A change of the object that a path's parent names spares what is neither above nor below the
path if it spares what is below the other children. -/
theorem find?_alter_beside {path : Path} (spares : Spares change path.name)
    (split : path.elements = front ++ element :: way) (apart : name ≠ element) (tree : Tree)
    (rest : List Text) :
    (tree.alter change path.parent.elements).find? (front ++ name :: rest) =
      tree.find? (front ++ name :: rest) := by
  have below : path.elements ≠ [] := by simp [split]
  have whole := Path.elements_eq_concat below
  rw [split] at whole
  rcases List.eq_nil_or_concat way with rfl | ⟨between, last, rfl⟩
  · obtain ⟨parent, last⟩ := List.append_inj' whole rfl
    obtain rfl := (List.cons.inj last).1
    rw [← parent, find?_append, find?_append, find?_alter]
    cases tree.find? front with
    | none => rfl
    | some above => exact spares above name rest apart
  · rw [List.concat_eq_append, ← List.cons_append, ← List.append_assoc] at whole
    rw [← (List.append_inj' whole rfl).1]
    exact find?_alter_apart change tree front rest apart

theorem lay_of_child (facts : Facts) (there : (tree.child? element).isSome = true) :
    tree.lay facts (element :: way) = tree.alter (·.lay facts way) [element] := by
  rw [lay, if_pos there]
  rfl

theorem lay_of_no_child (facts : Facts) (missing : tree.child? element = none) :
    tree.lay facts (element :: way) =
      (tree.append element (object facts [])).alter (·.lay facts way) [element] := by
  have others : ∀ child ∈ tree.children, child.1 ≠ element := by
    intro child member same
    have found := List.lookup_eq_none_iff.mp missing child member
    simp [same] at found
  have kept : tree.children.map (fun child =>
      (child.1, if child.1 = element then child.2.lay facts way else child.2)) = tree.children :=
    (List.map_congr_left fun child member => by rw [if_neg (others child member)]; rfl).trans
      (List.map_id _)
  rw [lay, if_neg (by simp [missing])]
  change object _ (tree.children ++ _) = object _ ((tree.children ++ _).map _)
  rw [List.map_append]
  simp only [alter, kept, List.map_cons, List.map_nil, if_true]
  rfl

/-- A way that is laid leads to something. -/
theorem isSome_find?_lay (facts : Facts) (tree : Tree) (way : List Text) :
    ((tree.lay facts way).find? way).isSome = true := by
  induction way generalizing tree with
  | nil => rfl
  | cons element way ih =>
    cases there : tree.child? element with
    | none =>
      rw [lay_of_no_child facts there, find?, child?_alter, child?_append]
      simp [there, alter, ih]
    | some child =>
      rw [lay_of_child facts (by simp [there]), find?, child?_alter]
      simp [there, alter, ih]

/-! ## Questions -/

/-- What a spelling of a path names. -/
def require (tree : Tree) (spelling : Text) : Except Fault Tree :=
  match tree.find? (Path.ofText spelling).elements with
  | some found => .ok found
  | none => .error (.noObject spelling)

/-- Whether there is an object. -/
def exists? (tree : Tree) (spelling : Text) : Bool :=
  (tree.find? (Path.ofText spelling).elements).isSome

/-- Whether there is a directory or an image. -/
def isFolder (tree : Tree) (spelling : Text) : Bool :=
  (tree.find? (Path.ofText spelling).elements).any (·.facts.isFolder)

/-- Whether there is a file. -/
def isFile (tree : Tree) (spelling : Text) : Bool :=
  (tree.find? (Path.ofText spelling).elements).any (·.facts.kind = .file)

/-- What is in a directory or an image. -/
def childrenOf (tree : Tree) (spelling : Text) : Except Fault (List (Text × Tree)) := do
  let found ← tree.require spelling
  if found.facts.isFolder then return found.children else throw (.notDirectory spelling)

/-- The names in a directory or an image. -/
def names (tree : Tree) (spelling : Text) : Except Fault (List Text) := do
  return (← tree.childrenOf spelling).map Prod.fst

/-- The entries of a directory or an image. -/
def catalogue (tree : Tree) (spelling : Text) : Except Fault (List Entry) := do
  return (← tree.childrenOf spelling).map fun child => child.2.facts.entry child.1

/-- What there is to know of an object, and that it is not found if there is none. -/
def information (tree : Tree) (spelling : Text) : Entry :=
  match tree.find? (Path.ofText spelling).elements with
  | some found => found.facts.entry (Path.ofText spelling).name
  | none =>
    { name := (Path.ofText spelling).name, objectType := ObjectType.notFound.code }

/-- The file type of an object. -/
def fileType (tree : Tree) (spelling : Text) : Except Fault Nat := do
  return Stamp.fileType (← tree.require spelling).facts.load.val

/-- The date stamp of an object. -/
def dateStamp (tree : Tree) (spelling : Text) : Except Fault Bytes := do
  let found ← tree.require spelling
  return Stamp.bytes found.facts.load.val found.facts.exec.val

/-- The length of a file. -/
def fileSize (tree : Tree) (spelling : Text) : Except Fault Nat := do
  let found ← tree.require spelling
  if found.facts.isFolder then throw (.isDirectory spelling) else return found.facts.length

end Tree

end Catwalk
