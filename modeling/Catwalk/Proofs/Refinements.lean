import Catwalk.Proofs.Tables
import Catwalk.Proofs.Views

/-!
# What operations make of the tree

The tree of a host answers every question as the host does (`Sound.answersAs`), and an operation
that succeeds turns it into the tree that `Operation.Turns` tells, which says of each operation what
goes where and leaves everything else in its place (`turns_of_reachable`). What makes, changes or
removes one object leaves alone what is neither above nor below it (`Operation.Turns.apart`).
-/

namespace Catwalk.Host

variable {host after : Host} {id parent : NodeId} {node : Node} {path : Path} {now : Moment}
  {tree : Tree} {spelling : Text}

/-! ## Questions -/

/-- A host and a tree answer every question in the same way, faults included. -/
structure AnswersAs (host : Host) (tree : Tree) : Prop where
  exists? (spelling : Text) : host.exists? spelling = tree.exists? spelling
  isFolder (spelling : Text) : host.isFolder spelling = tree.isFolder spelling
  isFile (spelling : Text) : host.isFile spelling = tree.isFile spelling
  names (spelling : Text) : host.names spelling = tree.names spelling
  catalogue (spelling : Text) : host.catalogue spelling = tree.catalogue spelling
  information (spelling : Text) : host.information spelling = tree.information spelling
  fileType (spelling : Text) : host.fileType spelling = tree.fileType spelling
  dateStamp (spelling : Text) : host.dateStamp spelling = tree.dateStamp spelling
  fileSize (spelling : Text) : host.fileSize spelling = tree.fileSize spelling

private theorem isFolder_facts (node : Node) : node.facts.isFolder = node.content.isFolder := by
  obtain ⟨load, exec, attributes, content⟩ := node
  rcases content with length | ⟨_ | _, children⟩
  · rfl
  · rfl
  · rfl

theorem isDirectory_facts (node : Node) :
    node.facts.kind = .directory ↔ node.content.isDirectory = true := by
  obtain ⟨load, exec, attributes, content⟩ := node
  rcases content with length | ⟨_ | _, children⟩ <;>
    simp [Node.facts, Content.objectType, Content.isDirectory]

private theorem isFile_facts (node : Node) : decide
    (node.facts.kind = .file) = !node.content.isFolder := by
  obtain ⟨load, exec, attributes, content⟩ := node
  rcases content with length | ⟨_ | _, children⟩
  · rfl
  · rfl
  · rfl

/-- A path names in the tree what it names in the host. -/
theorem Sound.find?_tree (sound : host.Sound) (read : host.tree? = some tree) (path : Path) :
    tree.find? path.elements = (host.find? path).map host.treeOf := by
  obtain ⟨root, known, -⟩ := sound.root
  rw [tree?, sound.treeAt?_of_node? known, Option.some.injEq] at read
  rw [← read, sound.find?_treeOf known, find?, locate?]
  cases host.locateFrom? rootId path.elements with
  | none => rfl
  | some id => exact sound.treeAt?_eq id

/-- What is in a folder of the host, and the same as trees. -/
private theorem Sound.childrenOf_tree (sound : host.Sound) (read : host.tree? = some tree)
    (spelling : Text) : tree.childrenOf spelling = (host.childrenOf spelling).map host.trees ∧
      ∀ children, host.childrenOf spelling = .ok children → ∀ child ∈ children,
        ∃ holder, host.node? child.2 = some holder ∧
          host.treeAt? child.2 = some (host.treeOf holder) := by
  unfold Tree.childrenOf childrenOf Tree.require require
  rw [sound.find?_tree read]
  cases found : host.find? (.ofText spelling) with
  | none => exact ⟨rfl, nofun⟩
  | some node =>
    obtain ⟨id, -, known⟩ := Option.bind_eq_some_iff.mp found
    constructor
    · change (if node.facts.isFolder then _ else _) = _
      rw [isFolder_facts]
      cases content : node.content with
      | file length =>
        dsimp only [bind, Except.bind]
        rw [content]
        rfl
      | folder isImage children =>
        dsimp only [bind, Except.bind]
        rw [content]
        change Except.ok (host.trees node.content.children) = _
        rw [content]
        rfl
    · intro children listed child member
      refine sound.exists_tree_of_mem known ?_
      dsimp only [bind, Except.bind] at listed
      cases content : node.content with
      | file length =>
        rw [content] at listed
        cases listed
      | folder isImage children' =>
        rw [content] at listed
        cases listed
        exact member

private theorem Sound.require_tree (sound : host.Sound) (read : host.tree? = some tree)
    (spelling : Text) : tree.require spelling = (host.require spelling).map host.treeOf := by
  rw [Tree.require, require, sound.find?_tree read]
  cases host.find? (.ofText spelling) <;> rfl

private theorem Sound.names_tree (sound : host.Sound) (read : host.tree? = some tree)
    (spelling : Text) : host.names spelling = tree.names spelling := by
  obtain ⟨same, present⟩ := sound.childrenOf_tree read spelling
  rw [Host.names, Tree.names, same]
  cases listed : host.childrenOf spelling with
  | error fault => rfl
  | ok children =>
    have all := present children listed
    refine congrArg Except.ok (map_fst_trees fun child member => ?_).symm
    obtain ⟨holder, -, read⟩ := all child member
    exact ⟨_, read⟩

private theorem Sound.catalogue_tree (sound : host.Sound) (read : host.tree? = some tree)
    (spelling : Text) : host.catalogue spelling = tree.catalogue spelling := by
  obtain ⟨same, present⟩ := sound.childrenOf_tree read spelling
  rw [catalogue, Tree.catalogue, same]
  cases listed : host.childrenOf spelling with
  | error fault => rfl
  | ok children =>
    have all := present children listed
    refine congrArg Except.ok ?_
    rw [trees, List.map_filterMap]
    refine List.filterMap_congr fun child member => ?_
    obtain ⟨name, id⟩ := child
    obtain ⟨holder, known, read⟩ := all _ member
    dsimp only at known read ⊢
    rw [known, read]
    rfl

private theorem Sound.fileSize_tree (sound : host.Sound) (read : host.tree? = some tree)
    (spelling : Text) : host.fileSize spelling = tree.fileSize spelling := by
  rw [fileSize, Tree.fileSize, sound.require_tree read]
  cases host.require spelling with
  | error fault => rfl
  | ok node =>
    change _ = if node.facts.isFolder then _ else _
    rw [isFolder_facts]
    cases content : node.content with
    | file length =>
      dsimp only [bind, Except.bind]
      rw [content]
      change Except.ok length = Except.ok node.content.length
      rw [content]
      rfl
    | folder isImage children =>
      dsimp only [bind, Except.bind]
      rw [content]
      rfl

theorem Sound.answersAs (sound : host.Sound) (read : host.tree? = some tree) :
    host.AnswersAs tree where
  exists? spelling := by simp [exists?, Tree.exists?, sound.find?_tree read]
  isFolder spelling := by
    rw [isFolder, Tree.isFolder, sound.find?_tree read]
    cases host.find? (.ofText spelling) with
    | none => rfl
    | some node => exact (isFolder_facts node).symm
  isFile spelling := by
    rw [isFile, Tree.isFile, sound.find?_tree read]
    cases host.find? (.ofText spelling) with
    | none => rfl
    | some node => exact (isFile_facts node).symm
  names := sound.names_tree read
  catalogue := sound.catalogue_tree read
  information spelling := by
    rw [information, Tree.information, sound.find?_tree read]
    cases host.find? (.ofText spelling) <;> rfl
  fileType spelling := by
    rw [fileType, Tree.fileType, sound.require_tree read]
    cases host.require spelling <;> rfl
  dateStamp spelling := by
    rw [dateStamp, Tree.dateStamp, sound.require_tree read]
    cases host.require spelling <;> rfl
  fileSize := sound.fileSize_tree read

end Catwalk.Host

/-! ## Operations -/

namespace Catwalk.Tree

/-- A path by which the tree takes an object: its parent names a folder that has no child by its
name. -/
def Takes (tree : Tree) (path : Path) : Prop :=
  path.elements ≠ [] ∧ ∃ folder, tree.find? path.parent.elements = some folder ∧
    folder.facts.isFolder = true ∧ path.name ∉ folder.childNames

/-- No object has two children by one name. -/
def Distinct (tree : Tree) : Prop :=
  ∀ way found, tree.find? way = some found → found.childNames.Nodup

end Catwalk.Tree

namespace Catwalk.Host

variable {host after : Host} {id parent : NodeId} {node : Node} {path : Path} {now : Moment}
  {tree : Tree} {spelling : Text}

/-- What an operation that succeeds makes of the tree. -/
inductive Operation.Turns (now : Moment) (tree : Tree) : Operation → Tree → Prop
  | makeDirectory {spelling : Text} {existsOk : Bool} :
      (∀ found, tree.find? (Path.ofText spelling).elements = some found →
        found.facts.kind = .directory ∧ existsOk = true) →
      Turns now tree (.makeDirectory spelling existsOk)
        (tree.lay (Facts.directory now) (Path.ofText spelling).elements)
  | makePath {spelling : Text} {offset : Int} : 0 ≤ offset ∧ offset ≤ spelling.length →
      Turns now tree (.makePath spelling offset)
        ((cutsBefore spelling offset.toNat).foldl (fun tree cut =>
          tree.lay (Facts.directory now) (Path.ofText cut).elements) tree)
  | createFile {spelling : Text} {plan : FilePlan} : plan.Valid → tree.Takes (.ofText spelling) →
      Turns now tree (.createFile spelling plan)
        (tree.alter (·.append (Path.ofText spelling).name (.object (plan.node now).facts []))
          (Path.ofText spelling).parent.elements)
  | createImage {spelling : Text} {plan : ImagePlan} : Stamp.isFileType plan.fileType = true →
      tree.Takes (.ofText spelling) →
      Turns now tree (.createImage spelling plan)
        (tree.alter (·.append (Path.ofText spelling).name (.object (plan.node now).facts []))
          (Path.ofText spelling).parent.elements)
  | setFileType {spelling : Text} {fileType : Int} {found : Tree} {facts : Facts} :
      Stamp.isFileType fileType = true →
      tree.find? (Path.ofText spelling).elements = some found →
      found.facts.Retyped now fileType.toNat facts →
      Turns now tree (.setFileType spelling fileType)
        (tree.alter (·.restate facts) (Path.ofText spelling).elements)
  | remove {spelling : Text} {found : Tree} :
      tree.find? (Path.ofText spelling).elements = some found → found.facts.kind = .file →
      Turns now tree (.remove spelling)
        (tree.alter (·.erase (Path.ofText spelling).name) (Path.ofText spelling).parent.elements)
  | removeTree {spelling : Text} {found : Tree} :
      tree.find? (Path.ofText spelling).elements = some found → found.facts.isFolder = true →
      (Path.ofText spelling).elements ≠ [] →
      Turns now tree (.removeTree spelling)
        (tree.alter (·.erase (Path.ofText spelling).name) (Path.ofText spelling).parent.elements)

private theorem Sound.find?_of_locate? (sound : host.Sound) (read : host.tree? = some tree)
    (located : host.locate? path = some id) (known : host.node? id = some node) :
    tree.find? path.elements = some (host.treeOf node) := by
  simp [sound.find?_tree read, find?, located, known]

private theorem Sound.childNames_treeOf (sound : host.Sound) (known : host.node? id = some node) :
    (host.treeOf node).childNames = node.content.children.map Prod.fst := by
  refine map_fst_trees fun child member => ?_
  obtain ⟨holder, -, read⟩ := sound.exists_tree_of_mem known member
  exact ⟨_, read⟩

theorem Sound.distinct (sound : host.Sound) (read : host.tree? = some tree) : tree.Distinct := by
  intro way found here
  obtain ⟨root, known, -⟩ := sound.root
  rw [tree?, sound.treeAt?_of_node? known, Option.some.injEq] at read
  rw [← read, sound.find?_treeOf known, Option.bind_eq_some_iff] at here
  obtain ⟨id, -, here⟩ := here
  rw [sound.treeAt?_eq, Option.map_eq_some_iff] at here
  obtain ⟨node, known', rfl⟩ := here
  rw [sound.childNames_treeOf known']
  have part : (node.content.children.map (Prod.mk id)).Sublist host.links :=
    List.sublist_flatten_of_mem
      (List.mem_map.mpr ⟨_, sound.node?_eq_some_iff.mp known', rfl⟩)
  have once := sound.named.sublist (part.map _)
  rw [List.map_map] at once
  refine List.Nodup.of_map (Prod.mk id) ?_
  rw [List.map_map]
  exact once

private theorem Gains.turns (gains : host.Gains path node after) (sound : host.Sound)
    (read : host.tree? = some tree) (childless : node.content.children = []) :
    tree.Takes path ∧ after.tree? =
      some (tree.alter (·.append path.name (.object node.facts [])) path.parent.elements) := by
  obtain ⟨parent, located, below, slot, rfl⟩ := gains
  obtain ⟨before, known, folder⟩ := slot.folder
  refine ⟨⟨below, _, sound.find?_of_locate? read located known, ?_, ?_⟩, ?_⟩
  · exact (isFolder_facts before).trans folder
  · rw [sound.childNames_treeOf known]
    intro member
    obtain ⟨child, listed, same⟩ := List.mem_map.mp member
    have link : (parent, path.name, child.2) ∈ host.links :=
      sound.mem_links_iff.mpr ⟨before, known, same ▸ listed⟩
    have is := sound.childId?_eq_some_iff.mpr link
    rw [slot.fresh] at is
    cases is
  · have altered := sound.treeAt?_alter (sound.grown slot childless)
      (agreesOff_of_ne (sound.node?_grown_of_ne path.name node))
      (sound.treeAt?_grown slot childless) located
    exact altered.trans (congrArg _ read)

/-- The facts of an object with another type. -/
private theorem retyped_facts (node : Node) (now : Moment) {fileType : Nat}
    (valid : fileType ≤ 0xFFF) :
    node.facts.Retyped now fileType (node.retyped now fileType).facts := by
  have others : (node.retyped now fileType).facts =
      { node.facts with
        load := (node.retyped now fileType).load
        exec := (node.retyped now fileType).exec } := by
    simp only [Node.facts, Node.content_retyped, Node.attributes_retyped]
  rw [others]
  by_cases stamped : Stamp.isStamped node.load.val = true
  · have load : (node.retyped now fileType).load = Stamp.retype node.load fileType := by
      simp only [Node.retyped, if_pos stamped]
    have exec : (node.retyped now fileType).exec = node.exec := by
      simp only [Node.retyped, if_pos stamped]
    rw [load, exec]
    refine ⟨Stamp.isStamped_retype stamped valid, Stamp.fileType_retype stamped valid, ?_, rfl⟩
    exact (Stamp.bytes_retype stamped valid).trans (if_pos stamped).symm
  · have load : (node.retyped now fileType).load = (Stamp.encode fileType now).1 := by
      simp only [Node.retyped, if_neg stamped]
    have exec : (node.retyped now fileType).exec = (Stamp.encode fileType now).2 := by
      simp only [Node.retyped, if_neg stamped]
    rw [load, exec]
    refine ⟨Stamp.isStamped_encode valid, Stamp.fileType_encode valid, ?_, rfl⟩
    exact (Stamp.bytes_encode valid).trans (if_neg stamped).symm

private theorem Sound.tree?_without (sound : host.Sound) (read : host.tree? = some tree)
    (located : host.locate? path = some id) (below : path.elements ≠ []) :
    (host.without path id).tree? = some (tree.alter (·.erase path.name) path.parent.elements) := by
  obtain ⟨parent, -, parents, -⟩ := sound.exists_link located below
  obtain ⟨agrees, here⟩ := sound.treeAt?_without located below parents
  exact (sound.treeAt?_alter (sound.without located below) agrees here parents).trans
    (congrArg _ read)

private theorem Operation.Makes.turns {operation : Operation}
    (makes : operation.Makes now host after) (sound : host.Sound) (read : host.tree? = some tree) :
    ∃ turned, after.tree? = some turned ∧ operation.Turns now tree turned := by
  cases makes with
  | @makeDirectory spelling existsOk _ given paves =>
    refine ⟨_, (paves.tree?_eq sound).trans (congrArg _ read), .makeDirectory ?_⟩
    intro found there
    rw [sound.find?_tree read, Option.map_eq_some_iff] at there
    obtain ⟨node, known, rfl⟩ := there
    obtain ⟨directory, allowed⟩ := given node known
    exact ⟨(isDirectory_facts node).mpr directory, allowed⟩
  | makePath inside paves =>
    exact ⟨_, (paves.tree?_eq sound).trans (congrArg _ read), .makePath inside⟩
  | createFile valid gains =>
    obtain ⟨takes, turned⟩ := gains.turns sound read rfl
    exact ⟨_, turned, .createFile valid takes⟩
  | createImage valid gains =>
    obtain ⟨takes, turned⟩ := gains.turns sound read rfl
    exact ⟨_, turned, .createImage valid takes⟩
  | @setFileType spelling fileType id valid located =>
    obtain ⟨node, known⟩ := sound.exists_node (sound.mem_ids_of_leads sound.mem_ids_root
      (leads_of_locateFrom? sound located))
    have small := Stamp.toNat_le_of_isFileType valid
    have altered := sound.treeAt?_alter (sound.update fun _ => Node.content_retyped)
      (agreesOff_of_ne (Sound.node?_retyped_of_ne fileType.toNat))
      (sound.treeAt?_retyped known now fileType.toNat) located
    exact ⟨_, altered.trans (congrArg _ read), .setFileType valid
      (sound.find?_of_locate? read located known) (retyped_facts node now small)⟩
  | remove located known file =>
    have below := sound.elements_ne_nil located known file
    refine ⟨_, sound.tree?_without read located below,
      .remove (sound.find?_of_locate? read located known) ?_⟩
    exact of_decide_eq_true ((isFile_facts _).trans (by rw [file]; rfl))
  | removeTree located known folder below =>
    exact ⟨_, sound.tree?_without read located below,
      .removeTree (sound.find?_of_locate? read located known) ((isFolder_facts _).trans folder)
        below⟩

/-- Every host that operations lead to is an ordered tree: the tree answers what the host is asked,
and an operation that succeeds changes the tree as it says and no more. -/
theorem turns_of_reachable (reachable : host.Reachable) :
    ∃ tree, host.tree? = some tree ∧ tree.Distinct ∧ host.AnswersAs tree ∧
      ∀ (now : Moment) (operation : Operation) (after : Host),
        operation.act now host = .ok () after →
          ∃ turned, after.tree? = some turned ∧ operation.Turns now tree turned := by
  have sound := sound_of_reachable reachable
  obtain ⟨root, known, -⟩ := sound.root
  have read := sound.treeAt?_of_node? known
  refine ⟨_, read, sound.distinct read, sound.answersAs read, ?_⟩
  intro now operation after run
  exact ((operation.act_meets now sound).of_ok run).turns sound read

/-! ## What an operation leaves alone -/

/-- The path of the one object that an operation makes, changes or removes. -/
def Operation.target? : Operation → Option Path
  | .createFile spelling _ => some (.ofText spelling)
  | .createImage spelling _ => some (.ofText spelling)
  | .setFileType spelling _ => some (.ofText spelling)
  | .remove spelling => some (.ofText spelling)
  | .removeTree spelling => some (.ofText spelling)
  | .makeDirectory .. => none
  | .makePath .. => none

/-- An operation that makes, changes or removes one object leaves alone what is neither above nor
below it. -/
theorem Operation.Turns.apart {operation : Operation} {turned : Tree}
    (turns : operation.Turns now tree turned) (target : operation.target? = some path)
    {front way rest : List Text} {element name : Text}
    (split : path.elements = front ++ element :: way) (apart : name ≠ element) :
    turned.find? (front ++ name :: rest) = tree.find? (front ++ name :: rest) := by
  cases turns with
  | makeDirectory _ => cases target
  | makePath _ => cases target
  | createFile _ _ =>
    cases target
    exact Tree.find?_alter_beside (Tree.spares_append _ _) split apart tree rest
  | createImage _ _ =>
    cases target
    exact Tree.find?_alter_beside (Tree.spares_append _ _) split apart tree rest
  | setFileType _ _ _ =>
    cases target
    rw [split]
    exact Tree.find?_alter_apart _ tree front rest apart
  | remove _ _ =>
    cases target
    exact Tree.find?_alter_beside (Tree.spares_erase _) split apart tree rest
  | removeTree _ _ _ =>
    cases target
    exact Tree.find?_alter_beside (Tree.spares_erase _) split apart tree rest

/-- What is above the directory of that object keeps its facts and the names of its children. -/
theorem Operation.Turns.above {operation : Operation} {turned : Tree}
    (turns : operation.Turns now tree turned) (target : operation.target? = some path)
    {front way : List Text} {element : Text}
    (split : path.parent.elements = front ++ element :: way) :
    (turned.find? front).map (fun above => (above.facts, above.childNames)) =
      (tree.find? front).map fun above => (above.facts, above.childNames) := by
  cases turns with
  | makeDirectory _ => cases target
  | makePath _ => cases target
  | createFile _ _ =>
    cases target
    rw [split]
    exact Tree.find?_alter_above _ tree front
  | createImage _ _ =>
    cases target
    rw [split]
    exact Tree.find?_alter_above _ tree front
  | @setFileType spelling _ _ _ _ _ _ =>
    cases target
    have below : (Path.ofText spelling).elements ≠ [] := by
      intro bare
      simp [Path.parent, bare] at split
    rw [Path.elements_eq_concat below, split, List.append_assoc]
    exact Tree.find?_alter_above _ tree front
  | remove _ _ =>
    cases target
    rw [split]
    exact Tree.find?_alter_above _ tree front
  | removeTree _ _ _ =>
    cases target
    rw [split]
    exact Tree.find?_alter_above _ tree front

/-- The only file of a host is removed. -/
theorem turns_ofOneFile : ofOneFile.Reachable ∧ ∃ tree turned, ofOneFile.tree? = some tree ∧
    ofOneFile.AnswersAs tree ∧
    (((Operation.remove [0x2F, 0x61]).act 0).leaves ofOneFile).tree? = some turned ∧
    (Operation.remove [0x2F, 0x61]).Turns 0 tree turned := by
  obtain ⟨tree, read, -, answers, turns⟩ := turns_of_reachable reachable_ofOneFile
  have run : (Operation.remove [0x2F, 0x61]).act 0 ofOneFile =
      .ok () (((Operation.remove [0x2F, 0x61]).act 0).leaves ofOneFile) := by decide
  obtain ⟨turned, read', turn⟩ := turns 0 _ _ run
  exact ⟨reachable_ofOneFile, tree, turned, read, answers, read', turn⟩

end Catwalk.Host
