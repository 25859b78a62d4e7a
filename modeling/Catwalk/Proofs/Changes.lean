import Catwalk.Proofs.Edits
import Catwalk.Proofs.Stamps
import Mathlib.Logic.Relation

/-!
# Operations on hosts

What each operation makes of a host when it succeeds (`Operation.Makes`), and that it leaves the
host as it was when it fails, but for the directories that it made before. Either way it goes by
changes of one object each (`Changed`): a new one, another type, or one less with all below it. So
what these changes keep holds of every host that operations lead to (`Reachable.invariant`).
-/

namespace Catwalk

/-! ## The nodes of new objects -/

namespace FilePlan

/-- The words of a file that is made at a moment. -/
def words (plan : FilePlan) (now : Moment) : Word × Word :=
  match plan.fileType with
  | none => (0, 0)
  | some fileType => Stamp.encode fileType.toNat (plan.stamp.getD now)

/-- A file that is made at a moment. -/
def node (plan : FilePlan) (now : Moment) : Node where
  load := (plan.words now).1
  exec := (plan.words now).2
  attributes := plan.attributes
  content := .file plan.length.toNat

/-- What a file can be made from. -/
structure Valid (plan : FilePlan) : Prop where
  length : 0 ≤ plan.length
  fileType : ∀ fileType, plan.fileType = some fileType → Stamp.isFileType fileType = true

end FilePlan

/-- An image that is made at a moment. -/
def ImagePlan.node (plan : ImagePlan) (now : Moment) : Node where
  load := (Stamp.encode plan.fileType.toNat (plan.stamp.getD now)).1
  exec := (Stamp.encode plan.fileType.toNat (plan.stamp.getD now)).2
  attributes := plan.attributes
  content := .folder true []

namespace Node

/-- An object with another type, and with the present moment as its stamp if it has none. -/
def retyped (now : Moment) (fileType : Nat) (node : Node) : Node :=
  if Stamp.isStamped node.load.val then { node with load := Stamp.retype node.load fileType }
  else
    { node with
      load := (Stamp.encode fileType now).1
      exec := (Stamp.encode fileType now).2 }

/-- The words of an object are both zero, or they hold a type and a stamp, and have not wrapped. -/
def Worded (node : Node) : Prop :=
  node.load = 0 ∧ node.exec = 0 ∨
    ∃ fileType moment, Stamp.Spells node.load node.exec fileType moment

variable {now : Moment} {fileType : Nat} {node : Node}

@[simp] theorem content_retyped : (node.retyped now fileType).content = node.content := by
  unfold retyped
  split <;> rfl

@[simp] theorem attributes_retyped : (node.retyped now fileType).attributes = node.attributes := by
  unfold retyped
  split <;> rfl

theorem Worded.retyped (worded : node.Worded) (valid : fileType ≤ 0xFFF) :
    (node.retyped now fileType).Worded := by
  unfold Node.retyped
  by_cases stamped : Stamp.isStamped node.load.val = true
  · rw [if_pos stamped]
    obtain ⟨none', -⟩ | ⟨other, moment, spells⟩ := worded
    · rw [none'] at stamped
      cases stamped
    · exact .inr ⟨fileType, moment, spells.retype stamped valid⟩
  · rw [if_neg stamped]
    exact .inr ⟨fileType, now, Stamp.spells_encode valid now⟩

theorem worded_emptyDirectory (now : Moment) : (emptyDirectory now).Worded :=
  .inr ⟨_, _, Stamp.spells_encode (by decide) now⟩

end Node

theorem Stamp.toNat_le_of_isFileType {fileType : Int} (valid : isFileType fileType = true) :
    fileType.toNat ≤ 0xFFF := by
  simp only [isFileType, Bool.and_eq_true, decide_eq_true_eq] at valid
  omega

private theorem FilePlan.Valid.worded {plan : FilePlan} (valid : plan.Valid) (now : Moment) :
    (plan.node now).Worded := by
  cases given : plan.fileType with
  | none => exact .inl (by simp [node, words, given])
  | some fileType =>
    have small := Stamp.toNat_le_of_isFileType (valid.fileType fileType given)
    have spelt := Stamp.spells_encode small (plan.stamp.getD now)
    exact .inr ⟨_, _, by simpa [node, words, given] using spelt⟩

namespace Host

variable {host after : Host} {id parent : NodeId} {node before : Node} {name spelling : Text}
  {path : Path} {now : Moment}

/-! ## Linking one object -/

/-- A host gains an object under a path: as the last child of the folder that the path's parent
names. -/
def Gains (host : Host) (path : Path) (node : Node) (after : Host) : Prop :=
  ∃ parent, host.locate? path.parent = some parent ∧ path.elements ≠ [] ∧
    host.Slot parent path.name ∧ after = host.grown parent path.name node

theorem meets_add {done : NodeId → Host → Prop} {failed : Fault → Host → Prop} :
    (add parent name node).Meets host done failed ↔
      if host.isFull then failed (.hostFull host.nodes.length (host.maxNodes.getD 0)) host
      else done host.nextId (host.grown parent name node) := by
  by_cases full : host.isFull = true
  · simp only [Act.Meets, add_eq, if_pos full]
  · simp only [Act.Meets, add_eq, if_neg full]

/-- A link to a folder that has nothing by the name only fails if the node table has no room. -/
theorem link_meets_of_free (sound : host.Sound) (free : host.find? (.ofText spelling) = none)
    (located : host.locate? (Path.ofText spelling).parent = some parent)
    (folder : (host.node? parent).any (·.content.isFolder) = true)
    (checked : checkName (Path.ofText spelling).name spelling = .ok ()) :
    (link spelling node).Meets host
      (fun _ after => host.isFull = false ∧
        after = host.grown parent (Path.ofText spelling).name node)
      fun fault after => host.isFull = true ∧
        fault = .hostFull host.nodes.length (host.maxNodes.getD 0) ∧ after = host := by
  have below := (sound.fresh_of_find? free located).1
  have plain : (Path.ofText spelling).isPlainRoot = false := by simp [Path.isPlainRoot, below]
  cases full : host.isFull <;>
    simp [link, plain, free, located, folder, checked, meets_add, full]

private theorem link_meets (sound : host.Sound) (spelling : Text) (node : Node) :
    (link spelling node).Meets host (fun _ after => host.Gains (.ofText spelling) node after)
      fun _ after => after = host := by
  unfold link
  dsimp only
  by_cases plain : (Path.ofText spelling).isPlainRoot = true
  · rw [if_pos plain]
    rfl
  rw [if_neg plain]
  simp only [Act.meets_bind, Act.meets_get]
  by_cases taken : (host.find? (.ofText spelling)).isSome = true
  · rw [if_pos taken]
    rfl
  rw [if_neg taken]
  have free : host.find? (.ofText spelling) = none := by simpa using taken
  cases located : host.locate? (Path.ofText spelling).parent with
  | none => rfl
  | some parent =>
    dsimp only
    by_cases folder : (host.node? parent).any (·.content.isFolder) = true
    · rw [if_pos folder, Act.meets_bind, Act.meets_ofExcept]
      obtain ⟨below, fresh⟩ := sound.fresh_of_find? free located
      cases checked : checkName (Path.ofText spelling).name spelling with
      | error fault => rfl
      | ok =>
        have element : (Path.ofText spelling).name ∈ (Path.ofText spelling).elements := by
          unfold Path.name
          rw [List.getLast?_eq_getLast_of_ne_nil below]
          exact List.getLast_mem below
        have linkable := linkable_of_checkName (Path.plain_of_mem_elements element) checked
        simp only [Act.meets_bind, Act.meets_pure, meets_add]
        by_cases full : host.isFull = true
        · simp [full]
        · rw [if_neg full]
          have slot : host.Slot parent (Path.ofText spelling).name :=
            ⟨by simpa using full, (Option.any_eq_true _ _).mp folder, linkable, fresh⟩
          exact ⟨parent, located, below, slot, rfl⟩
    · rw [if_neg folder]
      rfl

theorem createFile_eq {plan : FilePlan} (valid : plan.Valid) :
    createFile now spelling plan = link spelling (plan.node now) := by
  unfold createFile
  rw [if_neg (Int.not_lt.mpr valid.length)]
  cases given : plan.fileType with
  | none => simp only [FilePlan.node, FilePlan.words, given]; rfl
  | some fileType =>
    simp only [FilePlan.node, FilePlan.words, given, Stamp.encode?,
      valid.fileType fileType given, if_true]
    rfl

/-- A plan that no file can be made from is refused whatever the host is. -/
theorem createFile_eq_throw {plan : FilePlan} (invalid : ¬plan.Valid) (now : Moment)
    (spelling : Text) :
    ∃ fault, fault.kind = .value ∧ createFile now spelling plan = throw fault := by
  unfold createFile
  by_cases negative : plan.length < 0
  · rw [if_pos negative]
    exact ⟨_, rfl, rfl⟩
  rw [if_neg negative]
  cases given : plan.fileType with
  | none => exact absurd ⟨Int.not_lt.mp negative, by simp [given]⟩ invalid
  | some fileType =>
    have unknown : Stamp.isFileType fileType ≠ true := by
      intro known
      exact invalid ⟨Int.not_lt.mp negative, by simpa [given] using known⟩
    simp only [Stamp.encode?, if_neg unknown]
    exact ⟨_, rfl, rfl⟩

theorem createFile_meets (now : Moment) (spelling : Text) (plan : FilePlan) (sound : host.Sound) :
    (createFile now spelling plan).Meets host
      (fun _ after => plan.Valid ∧ host.Gains (.ofText spelling) (plan.node now) after)
      fun _ after => after = host := by
  by_cases valid : plan.Valid
  · rw [createFile_eq valid]
    exact (link_meets sound spelling _).mono (fun _ _ gains => ⟨valid, gains⟩) fun _ _ same => same
  · obtain ⟨fault, -, refused⟩ := createFile_eq_throw valid now spelling
    rw [refused]
    rfl

theorem createImage_eq {plan : ImagePlan} (valid : Stamp.isFileType plan.fileType = true) :
    createImage now spelling plan = link spelling (plan.node now) := by
  simp only [createImage, Stamp.encode?, valid, if_true]
  rfl

private theorem createImage_meets (now : Moment) (spelling : Text) (plan : ImagePlan)
    (sound : host.Sound) : (createImage now spelling plan).Meets host
      (fun _ after => Stamp.isFileType plan.fileType = true ∧
        host.Gains (.ofText spelling) (plan.node now) after)
      fun _ after => after = host := by
  by_cases valid : Stamp.isFileType plan.fileType = true
  · rw [createImage_eq valid]
    exact (link_meets sound spelling _).mono (fun _ _ gains => ⟨valid, gains⟩) fun _ _ same => same
  · simp only [createImage, Stamp.encode?, if_neg valid]
    rfl

/-! ## Changes of one object -/

/-- One object more, one with another type, or one less with all below it. -/
inductive Changed (host : Host) : Host → Prop
  | grown {parent : NodeId} {name : Text} {node : Node} : host.Slot parent name →
      node.content.children = [] → node.Worded → Changed host (host.grown parent name node)
  | retyped {fileType : Nat} (now : Moment) (id : NodeId) : fileType ≤ 0xFFF →
      Changed host (host.update id (·.retyped now fileType))
  | without {path : Path} {id : NodeId} : host.locate? path = some id → path.elements ≠ [] →
      Changed host (host.without path id)

/-- Changes, one after the other. -/
abbrev Changes : Host → Host → Prop := Relation.ReflTransGen Changed

private theorem Sound.changed (sound : host.Sound) (changed : host.Changed after) :
    after.Sound := by
  cases changed with
  | grown slot childless _ => exact sound.grown slot childless
  | retyped now id _ => exact sound.update fun node => Node.content_retyped
  | without located below => exact sound.without located below

/-! ## Chains of directories -/

/-- What is missing on the way from a folder is made: the first element that names no child, and
then every element behind it. -/
inductive Paves (now : Moment) : Host → NodeId → List Text → Host → Prop
  | done {host : Host} {id : NodeId} : Paves now host id [] host
  | through {host after : Host} {id child : NodeId} {element : Text} {elements : List Text} :
      host.childId? id element = some child →
      (∃ node, host.node? child = some node ∧ node.content.isFolder = true) →
      Paves now host child elements after → Paves now host id (element :: elements) after
  | missing {host after : Host} {id : NodeId} {element : Text} {elements : List Text} :
      host.Slot id element →
      Paves now (host.grown id element (Node.emptyDirectory now)) host.nextId elements after →
      Paves now host id (element :: elements) after

/-- The ways to several paths are made, one after the other. -/
inductive PavesAll (now : Moment) : Host → List Text → Host → Prop
  | done {host : Host} : PavesAll now host [] host
  | cons {host between after : Host} {spelling : Text} {spellings : List Text} :
      Paves now host rootId (Path.ofText spelling).elements between →
      PavesAll now between spellings after → PavesAll now host (spelling :: spellings) after

/-- A way from a folder that is not made to its end: something stands in it, or the first element
that names no child is refused. What was made on the way stays. -/
inductive Strands (now : Moment) : Host → NodeId → List Text → Fault → Host → Prop
  | blocked {host : Host} {id child : NodeId} {element : Text} {elements : List Text}
      {fault : Fault} : host.childId? id element = some child → fault.kind = .alreadyExists →
      Strands now host id (element :: elements) fault host
  | refused {host : Host} {id : NodeId} {element : Text} {elements : List Text} {fault : Fault} :
      host.childId? id element = none → fault.kind ≠ .alreadyExists →
      Strands now host id (element :: elements) fault host
  | through {host after : Host} {id child : NodeId} {element : Text} {elements : List Text}
      {fault : Fault} : host.childId? id element = some child →
      (∃ node, host.node? child = some node ∧ node.content.isFolder = true) →
      Strands now host child elements fault after →
      Strands now host id (element :: elements) fault after
  | missing {host after : Host} {id : NodeId} {element : Text} {elements : List Text}
      {fault : Fault} : host.Slot id element →
      Strands now (host.grown id element (Node.emptyDirectory now)) host.nextId elements fault
        after →
      Strands now host id (element :: elements) fault after

/-- The ways to several paths, up to one at which something stands or that is not made. -/
inductive StrandsAll (now : Moment) : Host → List Text → Fault → Host → Prop
  | taken {host : Host} {spelling : Text} {spellings : List Text} {fault : Fault} :
      fault.kind = .alreadyExists → StrandsAll now host (spelling :: spellings) fault host
  | stranded {host after : Host} {spelling : Text} {spellings : List Text} {fault : Fault} :
      Strands now host rootId (Path.ofText spelling).elements fault after →
      StrandsAll now host (spelling :: spellings) fault after
  | past {host between after : Host} {spelling : Text} {spellings : List Text} {fault : Fault} :
      Paves now host rootId (Path.ofText spelling).elements between →
      StrandsAll now between spellings fault after →
      StrandsAll now host (spelling :: spellings) fault after

private theorem Slot.emptyDirectory (slot : host.Slot parent name) (now : Moment) :
    host.Changed (host.grown parent name (Node.emptyDirectory now)) :=
  .grown slot rfl (Node.worded_emptyDirectory now)

theorem Paves.changes {elements : List Text} (paves : Paves now host id elements after) :
    host.Changes after := by
  induction paves with
  | done => exact .refl
  | through _ _ _ ih => exact ih
  | missing slot _ ih => exact ih.head (slot.emptyDirectory now)

private theorem PavesAll.changes {spellings : List Text}
    (paves : PavesAll now host spellings after) : host.Changes after := by
  induction paves with
  | done => exact .refl
  | cons first _ ih => exact first.changes.trans ih

private theorem Strands.changes {elements : List Text} {fault : Fault}
    (strands : Strands now host id elements fault after) : host.Changes after := by
  induction strands with
  | blocked => exact .refl
  | refused => exact .refl
  | through _ _ _ ih => exact ih
  | missing slot _ ih => exact ih.head (slot.emptyDirectory now)

private theorem StrandsAll.changes {spellings : List Text} {fault : Fault}
    (strands : StrandsAll now host spellings fault after) : host.Changes after := by
  induction strands with
  | taken => exact .refl
  | stranded strands => exact strands.changes
  | past first _ ih => exact first.changes.trans ih

/-- What is on the way to a folder are folders: what has a child is one. -/
theorem Sound.exists_folder_on_way (sound : host.Sound) (front : List Text) {rest : List Text}
    (located : host.locateFrom? id (front ++ rest) = some parent)
    (folder : ∃ node, host.node? parent = some node ∧ node.content.isFolder = true) :
    ∃ above, host.locateFrom? id front = some above ∧
      ∃ node, host.node? above = some node ∧ node.content.isFolder = true := by
  rw [locateFrom?_append] at located
  obtain ⟨above, there, located⟩ := Option.bind_eq_some_iff.mp located
  refine ⟨above, there, ?_⟩
  cases rest with
  | nil =>
    cases located
    exact folder
  | cons element rest =>
    rw [locateFrom?] at located
    cases is : host.childId? above element with
    | none =>
      rw [is] at located
      cases located
    | some child =>
      obtain ⟨node, known, member⟩ := sound.mem_links_iff.mp (sound.childId?_eq_some_iff.mp is)
      exact ⟨node, known, Content.isFolder_of_mem member⟩

/-- The way to a folder that is there is made already. -/
private theorem paves_of_locateFrom? (sound : host.Sound) {elements : List Text}
    (located : host.locateFrom? id elements = some parent) (known : host.node? parent = some node)
    (folder : node.content.isFolder = true) : Paves now host id elements host := by
  induction elements generalizing id with
  | nil => exact .done
  | cons element elements ih =>
    rw [locateFrom?] at located
    cases is : host.childId? id element with
    | none =>
      rw [is] at located
      cases located
    | some child =>
      rw [is] at located
      obtain ⟨above, same, holds⟩ := sound.exists_folder_on_way [] located ⟨node, known, folder⟩
      cases same
      exact .through is holds (ih located)

theorem kind_of_checkName {element spelling : Text} {fault : Fault}
    (refused : checkName element spelling = .error fault) :
    fault.kind = .value ∨ fault.kind = .encoding := by
  unfold checkName at refused
  split_ifs at refused <;> cases refused <;> simp [Fault.kind]

private theorem makeMissing_meets (now : Moment) (spelling : Text) {elements : List Text}
    (sound : host.Sound) (plain : ∀ element ∈ elements, Path.Plain element)
    (folder : ∃ node, host.node? id = some node ∧ node.content.isFolder = true) :
    (makeMissing now spelling id elements).Meets host
      (fun _ after => Paves now host id elements after)
      fun fault after => Strands now host id elements fault after := by
  induction elements generalizing host id with
  | nil => exact .done
  | cons element elements ih =>
    have others := fun other member => plain other (List.mem_cons_of_mem element member)
    unfold makeMissing
    simp only [Act.meets_bind, Act.meets_get]
    cases is : host.childId? id element with
    | some child =>
      dsimp only
      by_cases through : (host.node? child).any (·.content.isFolder) = true
      · rw [if_pos through]
        have folder' := (Option.any_eq_true _ _).mp through
        exact (ih sound others folder').mono (fun _ _ => .through is folder')
          fun _ _ => .through is folder'
      · rw [if_neg through]
        exact .blocked is rfl
    | none =>
      dsimp only
      rw [Act.meets_bind, Act.meets_ofExcept]
      cases checked : checkName element spelling with
      | error fault =>
        refine .refused is fun taken => ?_
        rcases kind_of_checkName checked with kind | kind <;> simp [kind] at taken
      | ok =>
        simp only [Act.meets_bind, meets_add]
        by_cases full : host.isFull = true
        · rw [if_pos full]
          exact .refused is (by simp [Fault.kind])
        · rw [if_neg full]
          have linkable := linkable_of_checkName (plain element List.mem_cons_self) checked
          have slot : host.Slot id element := ⟨by simpa using full, folder, linkable, is⟩
          have made : (host.grown id element (Node.emptyDirectory now)).node? host.nextId =
              some (Node.emptyDirectory now) := by
            rw [sound.node?_grown, if_pos rfl, Option.map_some,
              if_neg (Nat.ne_of_gt (slot.older sound))]
          exact (ih (sound.grown slot rfl) others ⟨_, made, rfl⟩).mono
            (fun _ _ => .missing slot) fun _ _ => .missing slot

theorem makeDirectory_meets (now : Moment) (spelling : Text) (existsOk : Bool)
    (sound : host.Sound) : (makeDirectory now spelling existsOk).Meets host
      (fun _ after => (∀ node, host.find? (.ofText spelling) = some node →
          node.content.isDirectory = true ∧ existsOk = true) ∧
        Paves now host rootId (Path.ofText spelling).elements after)
      fun fault after => fault.kind = .alreadyExists ∧ after = host ∨
        Strands now host rootId (Path.ofText spelling).elements fault after := by
  unfold makeDirectory
  simp only [Act.meets_bind, Act.meets_get]
  cases found : host.find? (.ofText spelling) with
  | some node =>
    dsimp only
    by_cases directory : node.content.isDirectory = true
    · rw [if_pos directory]
      by_cases allowed : existsOk = true
      · rw [if_pos allowed, Act.meets_pure]
        obtain ⟨id, located, known⟩ := Option.bind_eq_some_iff.mp found
        refine ⟨?_, paves_of_locateFrom? sound located known
          (Content.isFolder_of_isDirectory directory)⟩
        rintro _ ⟨⟩
        exact ⟨directory, allowed⟩
      · rw [if_neg allowed]
        exact .inl ⟨rfl, rfl⟩
    · rw [if_neg directory]
      exact .inl ⟨rfl, rfl⟩
  | none =>
    exact (makeMissing_meets now _ sound (fun _ => Path.plain_of_mem_elements) sound.root).mono
      (fun _ _ paves => ⟨by simp, paves⟩) fun _ _ => .inr

theorem Changes.sound (changes : host.Changes after) (sound : host.Sound) : after.Sound := by
  induction changes with
  | refl => exact sound
  | tail _ changed ih => exact ih.changed changed

private theorem makePath_meets (now : Moment) (spelling : Text) (offset : Int)
    (sound : host.Sound) :
    (makePath now spelling offset).Meets host
      (fun _ after => (0 ≤ offset ∧ offset ≤ spelling.length) ∧
        PavesAll now host (cutsBefore spelling offset.toNat) after)
      fun fault after => after = host ∨
        StrandsAll now host (cutsBefore spelling offset.toNat) fault after := by
  have every : ∀ (cuts : List Text) (host : Host), host.Sound →
      (cuts.forM fun directory => makeDirectory now directory true).Meets host
        (fun _ after => PavesAll now host cuts after)
        fun fault after => StrandsAll now host cuts fault after := by
    intro cuts
    induction cuts with
    | nil => exact fun _ _ => .done
    | cons cut cuts ih =>
      intro host sound
      refine Act.meets_bind.mpr ((makeDirectory_meets now cut true sound).mono ?_ ?_)
      · rintro _ between ⟨-, paves⟩
        exact (ih between (paves.changes.sound sound)).mono (fun _ _ => .cons paves)
          fun _ _ => .past paves
      · rintro fault after (⟨kind, rfl⟩ | strands)
        · exact .taken kind
        · exact .stranded strands
  unfold makePath
  by_cases inside : 0 ≤ offset ∧ offset ≤ spelling.length
  · rw [if_pos inside]
    exact (every _ host sound).mono (fun _ _ paves => ⟨inside, paves⟩) fun _ _ => .inr
  · rw [if_neg inside]
    exact .inl rfl

/-! ## Objects with another type and objects that are removed -/

private theorem setFileType_meets (now : Moment) (spelling : Text) (fileType : Int) (host : Host) :
    (setFileType now spelling fileType).Meets host
      (fun _ after => Stamp.isFileType fileType = true ∧ ∃ id,
        host.locate? (.ofText spelling) = some id ∧
        after = host.update id (·.retyped now fileType.toNat))
      fun _ after => after = host := by
  unfold setFileType
  by_cases known : Stamp.isFileType fileType = true
  · rw [if_pos known]
    simp only [Act.meets_bind, Act.meets_get]
    cases located : host.locate? (.ofText spelling) with
    | none => rfl
    | some id => exact ⟨known, id, rfl, rfl⟩
  · rw [if_neg known]
    rfl

theorem remove_meets (spelling : Text) (host : Host) :
    (remove spelling).Meets host
      (fun _ after => ∃ id node, host.locate? (.ofText spelling) = some id ∧
        host.node? id = some node ∧ node.content.isFolder = false ∧
        after = host.without (.ofText spelling) id)
      fun _ after => after = host := by
  unfold remove
  simp only [Act.meets_bind, Act.meets_get]
  split
  · next id node located found =>
    by_cases folder : node.content.isFolder = true
    · rw [if_pos folder]
      rfl
    · rw [if_neg folder]
      have known : host.node? id = some node := by simpa [find?, located] using found
      exact ⟨id, node, located, known, by simpa using folder, rfl⟩
  · rfl

private theorem removeTree_meets (spelling : Text) (host : Host) :
    (removeTree spelling).Meets host
      (fun _ after => ∃ id node, host.locate? (.ofText spelling) = some id ∧
        host.node? id = some node ∧ node.content.isFolder = true ∧
        (Path.ofText spelling).elements ≠ [] ∧ after = host.without (.ofText spelling) id)
      fun _ after => after = host := by
  unfold removeTree
  dsimp only
  by_cases plain : (Path.ofText spelling).isPlainRoot = true
  · rw [if_pos plain]
    rfl
  rw [if_neg plain]
  simp only [Act.meets_bind, Act.meets_get]
  split
  · next id node located found =>
    have known : host.node? id = some node := by simpa [find?, located] using found
    by_cases folder : node.content.isFolder = true
    · rw [if_pos folder]
      by_cases root : (Path.ofText spelling).elements.isEmpty = true
      · rw [if_pos root]
        rfl
      · rw [if_neg root]
        exact ⟨id, node, located, known, folder, by simpa using root, rfl⟩
    · rw [if_neg folder]
      rfl
  · rfl

/-! ## Hosts that operations lead to -/

/-- An operation on a host. -/
inductive Operation where
  | makeDirectory (spelling : Text) (existsOk : Bool)
  | makePath (spelling : Text) (offset : Int)
  | createFile (spelling : Text) (plan : FilePlan)
  | createImage (spelling : Text) (plan : ImagePlan)
  | setFileType (spelling : Text) (fileType : Int)
  | remove (spelling : Text)
  | removeTree (spelling : Text)

namespace Operation

/-- What an operation does at a moment. -/
def act (now : Moment) : Operation → Act Host Unit
  | makeDirectory spelling existsOk => Host.makeDirectory now spelling existsOk
  | makePath spelling offset => Host.makePath now spelling offset
  | createFile spelling plan => Host.createFile now spelling plan
  | createImage spelling plan => Host.createImage now spelling plan
  | setFileType spelling fileType => Host.setFileType now spelling fileType
  | remove spelling => Host.remove spelling
  | removeTree spelling => Host.removeTree spelling

/-- What an operation that succeeds makes of a host. -/
inductive Makes (now : Moment) (host : Host) : Operation → Host → Prop
  | makeDirectory {spelling : Text} {existsOk : Bool} {after : Host} :
      (∀ node, host.find? (.ofText spelling) = some node →
        node.content.isDirectory = true ∧ existsOk = true) →
      Paves now host rootId (Path.ofText spelling).elements after →
      Makes now host (.makeDirectory spelling existsOk) after
  | makePath {spelling : Text} {offset : Int} {after : Host} :
      0 ≤ offset ∧ offset ≤ spelling.length →
      PavesAll now host (cutsBefore spelling offset.toNat) after →
      Makes now host (.makePath spelling offset) after
  | createFile {spelling : Text} {plan : FilePlan} {after : Host} : plan.Valid →
      host.Gains (.ofText spelling) (plan.node now) after →
      Makes now host (.createFile spelling plan) after
  | createImage {spelling : Text} {plan : ImagePlan} {after : Host} :
      Stamp.isFileType plan.fileType = true →
      host.Gains (.ofText spelling) (plan.node now) after →
      Makes now host (.createImage spelling plan) after
  | setFileType {spelling : Text} {fileType : Int} {id : NodeId} :
      Stamp.isFileType fileType = true → host.locate? (.ofText spelling) = some id →
      Makes now host (.setFileType spelling fileType)
        (host.update id (·.retyped now fileType.toNat))
  | remove {spelling : Text} {id : NodeId} {node : Node} :
      host.locate? (.ofText spelling) = some id → host.node? id = some node →
      node.content.isFolder = false →
      Makes now host (.remove spelling) (host.without (.ofText spelling) id)
  | removeTree {spelling : Text} {id : NodeId} {node : Node} :
      host.locate? (.ofText spelling) = some id → host.node? id = some node →
      node.content.isFolder = true → (Path.ofText spelling).elements ≠ [] →
      Makes now host (.removeTree spelling) (host.without (.ofText spelling) id)

/-- Whether an operation makes, changes or removes one object, with what is below it. -/
def isSingle : Operation → Bool
  | makeDirectory .. | makePath .. => false
  | createFile .. | createImage .. | setFileType .. | remove .. | removeTree .. => true

/-- What an operation that fails makes of a host. -/
inductive Fails (now : Moment) (host : Host) : Operation → Fault → Host → Prop
  | makeDirectory {spelling : Text} {existsOk : Bool} {fault : Fault} {after : Host} :
      fault.kind = .alreadyExists ∧ after = host ∨
        Strands now host rootId (Path.ofText spelling).elements fault after →
      Fails now host (.makeDirectory spelling existsOk) fault after
  | makePath {spelling : Text} {offset : Int} {fault : Fault} {after : Host} :
      after = host ∨ StrandsAll now host (cutsBefore spelling offset.toNat) fault after →
      Fails now host (.makePath spelling offset) fault after
  | single {operation : Operation} {fault : Fault} :
      operation.isSingle = true → Fails now host operation fault host

theorem act_meets (operation : Operation) (now : Moment) (sound : host.Sound) :
    (operation.act now).Meets host (fun _ after => operation.Makes now host after)
      fun fault after => operation.Fails now host fault after := by
  have whole : ∀ {operation : Operation}, operation.isSingle = true → ∀ fault after,
      after = host → operation.Fails now host fault after := by
    rintro operation single fault _ rfl
    exact .single single
  cases operation with
  | makeDirectory spelling existsOk =>
    exact (makeDirectory_meets now spelling existsOk sound).mono
      (fun _ _ ⟨known, paves⟩ => .makeDirectory known paves) fun _ _ => .makeDirectory
  | makePath spelling offset =>
    exact (makePath_meets now spelling offset sound).mono
      (fun _ _ ⟨inside, paves⟩ => .makePath inside paves) fun _ _ => .makePath
  | createFile spelling plan =>
    exact (createFile_meets now spelling plan sound).mono
      (fun _ _ ⟨valid, gains⟩ => .createFile valid gains) (whole rfl)
  | createImage spelling plan =>
    exact (createImage_meets now spelling plan sound).mono
      (fun _ _ ⟨valid, gains⟩ => .createImage valid gains) (whole rfl)
  | setFileType spelling fileType =>
    refine (setFileType_meets now spelling fileType host).mono ?_ (whole rfl)
    rintro _ _ ⟨valid, id, located, rfl⟩
    exact .setFileType valid located
  | remove spelling =>
    refine (remove_meets spelling host).mono ?_ (whole rfl)
    rintro _ _ ⟨id, node, located, known, file, rfl⟩
    exact .remove located known file
  | removeTree spelling =>
    refine (removeTree_meets spelling host).mono ?_ (whole rfl)
    rintro _ _ ⟨id, node, located, known, folder, below, rfl⟩
    exact .removeTree located known folder below

private theorem Fails.changes {operation : Operation} {fault : Fault}
    (fails : operation.Fails now host fault after) : host.Changes after := by
  cases fails with
  | makeDirectory left =>
    rcases left with ⟨-, rfl⟩ | strands
    · exact .refl
    · exact strands.changes
  | makePath left =>
    rcases left with rfl | strands
    · exact .refl
    · exact strands.changes
  | single => exact .refl

end Operation

private theorem Gains.changed (gains : host.Gains path node after)
    (childless : node.content.children = []) (worded : node.Worded) : host.Changed after := by
  obtain ⟨parent, -, -, slot, rfl⟩ := gains
  exact .grown slot childless worded

private theorem Operation.Makes.changes {operation : Operation} (sound : host.Sound)
    (makes : operation.Makes now host after) : host.Changes after := by
  cases makes with
  | makeDirectory _ paves => exact paves.changes
  | makePath _ paves => exact paves.changes
  | createFile valid gains => exact .single (gains.changed rfl (valid.worded now))
  | createImage valid gains =>
    have small := Stamp.toNat_le_of_isFileType valid
    exact .single (gains.changed rfl (.inr ⟨_, _, Stamp.spells_encode small _⟩))
  | setFileType valid _ => exact .single (.retyped now _ (Stamp.toNat_le_of_isFileType valid))
  | remove located known file =>
    exact .single (.without located (sound.elements_ne_nil located known file))
  | removeTree located _ _ below => exact .single (.without located below)

/-- Whether it succeeds or fails, an operation goes by changes. -/
theorem Sound.changes_leaves (sound : host.Sound) (now : Moment) (operation : Operation) :
    host.Changes ((operation.act now).leaves host) :=
  ((operation.act_meets now sound).mono (fun _ _ makes => makes.changes sound)
    fun _ _ fails => fails.changes).leaves

/-- The hosts that operations lead to, whether they succeed or fail. -/
inductive Reachable : Host → Prop
  | made {maxNodes : Option Int} {now : Moment} {host : Host} :
      make? maxNodes now = .ok host → Reachable host
  | after {host : Host} (now : Moment) (operation : Operation) :
      Reachable host → Reachable ((operation.act now).leaves host)

/-- A host with nothing but its root. -/
def empty : Host := ⟨none, 1, [(rootId, Node.emptyDirectory 0)]⟩

theorem reachable_empty : empty.Reachable := .made (rfl : make? none 0 = .ok _)

/-- A new host has an empty root. -/
theorem exists_of_make? {maxNodes : Option Int} (made : make? maxNodes now = .ok host) :
    ∃ limit : Option Nat, (∀ n, limit = some n → 1 ≤ n) ∧
      host = ⟨limit, 1, [(rootId, Node.emptyDirectory now)]⟩ := by
  unfold make? at made
  cases maxNodes with
  | none =>
    cases made
    exact ⟨none, by simp, rfl⟩
  | some limit =>
    dsimp only at made
    by_cases small : limit < 1
    · rw [if_pos small] at made
      cases made
    · rw [if_neg small] at made
      cases made
      refine ⟨some limit.toNat, ?_, rfl⟩
      rintro _ ⟨⟩
      omega

theorem sound_of_make? {maxNodes : Option Int} (made : make? maxNodes now = .ok host) :
    host.Sound := by
  obtain ⟨limit, -, rfl⟩ := exists_of_make? made
  refine ⟨List.pairwise_singleton _ _, ?_, ⟨Node.emptyDirectory now, rfl, rfl⟩, ?_, ?_, ?_, ?_⟩
  · intro id member
    rw [List.mem_singleton.mp member]
    exact Nat.zero_lt_one
  · intro link never
    cases never
  · intro link never
    cases never
  · exact List.nodup_nil
  · exact List.nodup_nil

/-- What a new host satisfies and changes keep holds of every host that operations lead to. -/
theorem Reachable.invariant {P : Host → Prop}
    (made : ∀ {maxNodes now host}, make? maxNodes now = .ok host → P host)
    (changed : ∀ {host after}, host.Sound → P host → host.Changed after → P after)
    (reachable : host.Reachable) : host.Sound ∧ P host := by
  induction reachable with
  | made new => exact ⟨sound_of_make? new, made new⟩
  | @after between now operation _ ih =>
    have keeps : ∀ {after}, between.Changes after → P after := by
      intro after changes
      induction changes with
      | refl => exact ih.2
      | tail first last holds => exact changed (Changes.sound first ih.1) holds last
    have changes := ih.1.changes_leaves now operation
    exact ⟨changes.sound ih.1, keeps changes⟩

theorem sound_of_reachable (reachable : host.Reachable) : host.Sound :=
  (reachable.invariant (P := fun _ => True) (fun _ => trivial) fun _ _ _ => trivial).1

end Host

end Catwalk
