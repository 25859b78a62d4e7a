import Catwalk.Proofs.Additions
import Catwalk.Proofs.Descents
import Catwalk.Proofs.Trees

/-!
# Hosts where files come and go

Other operations may make files on a host, and remove files that were made so, while it keeps every
object that it had at first, under its name and in its place among the others (`Host.Retains`).
Every catalogue of the first host is then the beginning of the same catalogue later, and what is
behind it are new files (`Retains.enlarged`).
-/

namespace Catwalk

namespace Content

variable {content : Content} {edit other : List (Text × NodeId) → List (Text × NodeId)}

private theorem withChildren_withChildren : (content.withChildren edit).withChildren other =
    content.withChildren (other ∘ edit) := by
  cases content <;> rfl

private theorem mem_of_mem_withChildren {child : Text × NodeId}
    (member : child ∈ (content.withChildren edit).children) : child ∈ edit content.children := by
  cases content with
  | file => cases member
  | folder => exact member

private theorem withChildren_congr (same : other content.children = edit content.children) :
    content.withChildren other = content.withChildren edit := by
  cases content with
  | file => rfl
  | folder isImage children => exact congrArg (folder isImage) same

end Content

/-- A node is of one kind whatever becomes of its children. -/
private theorem Node.isFolder_edited {p : Prop} [Decidable p] (node : Node)
    (edit : List (Text × NodeId) → List (Text × NodeId)) :
    (if p then { node with content := node.content.withChildren edit } else node).content.isFolder =
      node.content.isFolder := by
  split
  · exact Content.isFolder_withChildren
  · rfl

/-- Only what is in a folder tells it from one with other children. -/
private theorem Node.entry_withChildren (node : Node)
    (edit : List (Text × NodeId) → List (Text × NodeId)) (name : Text) :
    ({ node with content := node.content.withChildren edit } : Node).entry name =
      node.entry name := by
  obtain ⟨load, exec, attributes, content⟩ := node
  rcases content with length | ⟨_ | _, children⟩
  · rfl
  · rfl
  · rfl

namespace Host

variable {original host after : Host} {id parent child : NodeId} {node before : Node} {name : Text}

/-- An operation that makes a file whose name is read back, or removes one that the original host
has not. -/
inductive Operation.Stirs (original host : Host) : Operation → Prop
  | create {spelling : Text} {plan : FilePlan} :
      (Path.ofText spelling).name.Legible → Stirs original host (.createFile spelling plan)
  | remove {spelling : Text} :
      (∀ id, host.locate? (.ofText spelling) = some id → id ∉ original.ids) →
      Stirs original host (.remove spelling)

/-- What such operations make of a host, one after the other, whether they succeed or fail. -/
inductive Stirred (original host : Host) : Host → Prop
  | still : Stirred original host host
  | after {between : Host} (now : Moment) (operation : Operation) :
      Stirred original host between → operation.Stirs original between →
      Stirred original host ((operation.act now).leaves between)

/-- A host still has all objects of the original, under their names and in their order. Behind them
there may be files. -/
structure Retains (original host : Host) : Prop where
  legible : host.Legible
  later : original.nextId ≤ host.nextId
  nodes : ∀ id node, original.node? id = some node → ∃ more,
    host.node? id = some { node with content := node.content.withChildren (· ++ more) } ∧
    ∀ child ∈ more, original.nextId ≤ child.2
  files : ∀ id node, host.node? id = some node → id ∈ original.ids ∨
    original.nextId ≤ id ∧ node.content.isFolder = false

theorem Retains.refl (legible : host.Legible) : host.Retains host := by
  refine ⟨legible, Nat.le_refl _, fun id node known => ⟨[], ?_, nofun⟩,
    fun id node known => .inl (mem_ids_of_node? known)⟩
  have same : node.content.withChildren (· ++ []) = node.content := by
    cases node.content <;> simp [Content.withChildren]
  rw [known, same]

/-- Links stay. -/
private theorem Retains.links (retains : original.Retains host) (origin : original.Sound)
    (sound : host.Sound) (link : (id, name, child) ∈ original.links) :
    (id, name, child) ∈ host.links := by
  obtain ⟨node, known, member⟩ := origin.mem_links_iff.mp link
  obtain ⟨more, known', -⟩ := retains.nodes id node known
  refine sound.mem_links_iff.mpr ⟨_, known', ?_⟩
  rw [Content.children_withChildren (Content.isFolder_of_mem member)]
  exact List.mem_append_left more member

/-! ## A file that is made -/

/-- A new file leaves all other objects as they are. -/
private theorem Retains.extended (retains : original.Retains host) (sound : host.Sound)
    (file : node.content.isFolder = false) : original.Retains (host.extend node) := by
  refine ⟨?_, Nat.le_succ_of_le retains.later, ?_, ?_⟩
  · unfold Legible
    rw [links_extend (Content.children_eq_nil file)]
    exact retains.legible
  · intro id holder known
    obtain ⟨more, known', new⟩ := retains.nodes id holder known
    have older : id ≠ host.nextId := Nat.ne_of_lt (sound.below id (mem_ids_of_node? known'))
    exact ⟨more, by rw [sound.node?_extend, if_neg older, known'], new⟩
  · intro id holder known
    rw [sound.node?_extend] at known
    by_cases new : id = host.nextId
    · rw [if_pos new] at known
      cases known
      exact .inr ⟨new ▸ retains.later, file⟩
    · rw [if_neg new] at known
      exact retains.files id holder known

/-- A new link behind those of a folder leaves all objects as they are. -/
private theorem Retains.linked (retains : original.Retains host) (sound : host.Sound)
    (sound' : (host.updateChildren parent (· ++ [(name, child)])).Sound)
    (new : original.nextId ≤ child) (legible : name.Legible) :
    original.Retains (host.updateChildren parent (· ++ [(name, child)])) := by
  have nodes : ∀ other, (host.updateChildren parent (· ++ [(name, child)])).node? other =
      (host.node? other).map fun node => if other = parent then
        { node with content := node.content.withChildren (· ++ [(name, child)]) } else node :=
    fun other => node?_update other
  refine ⟨?_, retains.later, ?_, ?_⟩
  · rintro ⟨from', by', to'⟩ link
    obtain ⟨holder, known, member⟩ := sound'.mem_links_iff.mp link
    rw [nodes] at known
    obtain ⟨before, found, rfl⟩ := Option.map_eq_some_iff.mp known
    have old : (by', to') ∈ before.content.children → Text.Legible by' := fun member =>
      retains.legible _ (sound.mem_links_iff.mpr ⟨before, found, member⟩)
    split at member
    · have member := Content.mem_of_mem_withChildren member
      rcases List.mem_append.mp member with member | added
      · exact old member
      · cases List.mem_singleton.mp added
        exact legible
    · exact old member
  · intro id holder known
    obtain ⟨more, known', later⟩ := retains.nodes id holder known
    rw [nodes, known', Option.map_some]
    by_cases here : id = parent
    · refine ⟨more ++ [(name, child)], ?_, ?_⟩
      · rw [if_pos here, Content.withChildren_withChildren]
        simp only [Function.comp_def, List.append_assoc]
      · exact List.forall_mem_append.mpr ⟨later, List.forall_mem_singleton.mpr new⟩
    · exact ⟨more, by rw [if_neg here], later⟩
  · intro id holder known
    rw [nodes] at known
    obtain ⟨before, found, rfl⟩ := Option.map_eq_some_iff.mp known
    rw [before.isFolder_edited]
    exact retains.files id before found

private theorem createFile_retains_meets (now : Moment) (plan : FilePlan) {spelling : Text}
    (retains : original.Retains host) (sound : host.Sound)
    (legible : (Path.ofText spelling).name.Legible) :
    (createFile now spelling plan).Meets host (fun _ host => original.Retains host)
      fun _ host => original.Retains host := by
  refine (createFile_meets now spelling plan sound).mono ?_ ?_
  · rintro _ _ ⟨-, parent, -, -, slot, rfl⟩
    exact (retains.extended sound rfl).linked (sound.extend rfl) (sound.grown slot rfl)
      retains.later legible
  · rintro _ _ rfl
    exact retains

/-! ## A file that is removed -/

/-- The nodes that stay when a file goes. -/
private theorem Sound.node?_removed (sound : host.Sound) {path : Path}
    (located : host.locate? path = some id) (known : host.node? id = some node)
    (file : node.content.isFolder = false) :
    ∃ parent, (parent, path.name, id) ∈ host.links ∧ ∀ other holder,
      (host.without path id).node? other = some holder ↔
      other ≠ id ∧ (host.node? other).map (fun node => if other = parent then
        { node with content := node.content.withChildren (·.filter (·.1 ≠ path.name)) } else node) =
          some holder := by
  obtain ⟨parent, -, link, nodes⟩ :=
    sound.node?_without located (sound.elements_ne_nil located known file)
  refine ⟨parent, link, fun other holder => ?_⟩
  rw [nodes, sound.leads_file_iff known file]

/-- A new file that goes leaves all other objects as they are. -/
private theorem Retains.removed (retains : original.Retains host) (origin : original.Sound)
    (sound : host.Sound) {path : Path} (located : host.locate? path = some id)
    (known : host.node? id = some node) (file : node.content.isFolder = false)
    (new : id ∉ original.ids) : original.Retains (host.without path id) := by
  have sound' := sound.without located (sound.elements_ne_nil located known file)
  obtain ⟨parent, link, nodes⟩ := sound.node?_removed located known file
  have nextId : (host.without path id).nextId = host.nextId := by
    unfold Host.without unlink
    split <;> rfl
  refine ⟨?_, nextId ▸ retains.later, ?_, ?_⟩
  · rintro ⟨from', by', to'⟩ listed
    obtain ⟨holder, known, member⟩ := sound'.mem_links_iff.mp listed
    obtain ⟨-, before, found, rfl⟩ := ((nodes _ _).mp known).imp_right Option.map_eq_some_iff.mp
    refine retains.legible _ (sound.mem_links_iff.mpr ⟨before, found, ?_⟩)
    split at member
    · have member := Content.mem_of_mem_withChildren member
      exact (List.mem_filter.mp member).1
    · exact member
  · intro other holder known
    obtain ⟨more, found, later⟩ := retains.nodes other holder known
    have stays : other ≠ id := fun same => new (same ▸ mem_ids_of_node? known)
    by_cases here : other = parent
    · refine ⟨more.filter (·.1 ≠ path.name), (nodes _ _).mpr ⟨stays, ?_⟩, ?_⟩
      · rw [found, Option.map_some, if_pos here, Content.withChildren_withChildren]
        -- no object of the original has the name
        have old : holder.content.children.filter (·.1 ≠ path.name) = holder.content.children := by
          refine List.filter_eq_self.mpr fun child member => decide_eq_true fun same => new ?_
          have first : (parent, child.1, child.2) ∈ original.links :=
            origin.mem_links_iff.mpr ⟨holder, here ▸ known, member⟩
          have only := List.inj_on_of_nodup_map sound.named (retains.links origin sound first) link
            (by rw [same])
          have last : child.2 = id := congrArg (fun link => link.2.2) only
          exact last ▸ (origin.upwards _ first).2
        have whole : holder.content.withChildren ((·.filter (·.1 ≠ path.name)) ∘ (· ++ more)) =
            holder.content.withChildren (· ++ more.filter (·.1 ≠ path.name)) := by
          refine Content.withChildren_congr ?_
          rw [Function.comp_apply, List.filter_append, old]
        rw [whole]
      · exact fun child member => later child (List.mem_of_mem_filter member)
    · exact ⟨more, (nodes _ _).mpr ⟨stays, by rw [found, Option.map_some, if_neg here]⟩, later⟩
  · intro other holder known
    obtain ⟨-, before, found, rfl⟩ := ((nodes _ _).mp known).imp_right Option.map_eq_some_iff.mp
    exact (retains.files other before found).imp_right fun ⟨later, file⟩ =>
      ⟨later, (before.isFolder_edited _).trans file⟩

/-! ## Hosts that have been stirred -/

private theorem Operation.Stirs.retains_meets {operation : Operation}
    (stirs : operation.Stirs original host) (now : Moment) (retains : original.Retains host)
    (origin : original.Sound) (sound : host.Sound) :
    (operation.act now).Meets host (fun _ host => original.Retains host)
      fun _ host => original.Retains host := by
  cases stirs with
  | create legible => exact createFile_retains_meets now _ retains sound legible
  | remove new =>
    refine (remove_meets _ host).mono ?_ ?_
    · rintro _ _ ⟨id, node, located, known, file, rfl⟩
      exact retains.removed origin sound located known file (new id located)
    · rintro _ _ rfl
      exact retains

/-- A host keeps what the original has, whatever stirs it. -/
theorem Stirred.retains (stirred : original.Stirred host after) (origin : original.Sound)
    (sound : host.Sound) (retains : original.Retains host) :
    after.Sound ∧ original.Retains after := by
  induction stirred with
  | still => exact ⟨sound, retains⟩
  | after now operation _ stirs ih =>
    obtain ⟨sound, retains⟩ := ih
    exact ⟨(sound.changes_leaves now operation).sound sound,
      (stirs.retains_meets now retains origin sound).leaves⟩

/-! ## Catalogues -/

private theorem Retains.locate? (retains : original.Retains host) (origin : original.Sound)
    (sound : host.Sound) {path : Path} (located : original.locate? path = some id) :
    host.locate? path = some id := by
  have every : ∀ (elements : List Text) (from' : NodeId),
      original.locateFrom? from' elements = some id →
        host.locateFrom? from' elements = some id := by
    intro elements
    induction elements with
    | nil => exact fun _ located => located
    | cons element elements ih =>
      intro from' located
      rw [locateFrom?] at located ⊢
      cases is : original.childId? from' element with
      | none =>
        rw [is] at located
        cases located
      | some child =>
        rw [is] at located
        have link := retains.links origin sound (origin.childId?_eq_some_iff.mp is)
        rw [sound.childId?_eq_some_iff.mpr link]
        exact ih child located
  exact every path.elements rootId located

/-- Every catalogue of the original is still there, with new files behind it. -/
theorem Retains.enlarged (retains : original.Retains host) (origin : original.Sound)
    (sound : host.Sound) {bound : Nat} (short : host.effort ≤ bound) {path : Text}
    {listing : List Entry} (found : original.catalogue path = .ok listing) :
    ∃ whole, host.catalogue path = .ok whole ∧
      Entry.Enlarged (Entry.Joins listing) bound bound listing whole := by
  obtain ⟨id, node, located, known, folder, rfl⟩ := exists_folder_of_catalogue found
  obtain ⟨more, known', new⟩ := retains.nodes id node known
  let grown : Node := { node with content := node.content.withChildren (· ++ more) }
  have children : grown.content.children = node.content.children ++ more :=
    Content.children_withChildren folder
  have linked : ∀ child ∈ node.content.children, (id, child.1, child.2) ∈ original.links :=
    fun child member => origin.mem_links_iff.mpr ⟨node, known, member⟩
  -- the objects of the original are listed as they were
  have old : (node.content.children.filterMap fun child =>
      (host.node? child.2).map (·.entry child.1)) = original.entriesOf node := by
    rw [entriesOf_eq]
    refine List.filterMap_congr fun child member => ?_
    obtain ⟨inner, inside⟩ := origin.exists_node (origin.upwards _ (linked child member)).2
    obtain ⟨deeper, inside', -⟩ := retains.nodes child.2 inner inside
    rw [inside, inside', Option.map_some, Option.map_some, Node.entry_withChildren]
  have whole : host.entriesOf grown = original.entriesOf node ++
      more.filterMap fun child => (host.node? child.2).map (·.entry child.1) := by
    rw [entriesOf_eq, children, List.filterMap_append, old]
  have listed : host.catalogue path = .ok (host.entriesOf grown) := by
    refine catalogue_of_find? ?_ (Content.isFolder_withChildren.trans folder)
    unfold find?
    rw [retains.locate? origin sound located]
    exact known'
  have effort := Nat.le_trans (sound.within_effort path _ listed) short
  unfold Entry.effort at effort
  refine ⟨_, listed, ⟨_, whole, ?_⟩, by omega, by omega⟩
  intro entry member
  obtain ⟨⟨name, child⟩, added, is⟩ := List.mem_filterMap.mp member
  obtain ⟨inner, inside, rfl⟩ := Option.map_eq_some_iff.mp is
  have link : (id, name, child) ∈ host.links :=
    sound.mem_links_iff.mpr ⟨grown, known', children ▸ List.mem_append_right _ added⟩
  have later := new _ added
  have file : inner.content.isFolder = false := by
    refine (retains.files child inner inside).elim (fun old => ?_) (·.2)
    exact absurd (origin.below child old) (Nat.not_lt.mpr later)
  refine ⟨storable_entry (sound.names _ link) (retains.legible _ link) inner, ?_,
    (sound.names _ link).toPlain, ?_⟩
  · change (inner.content.objectType.code : Int) = _
    cases content : inner.content with
    | file => rfl
    | folder =>
      rw [content] at file
      cases file
  · intro other listed same
    obtain ⟨⟨name', child'⟩, member', is'⟩ := List.mem_filterMap.mp listed
    obtain ⟨inner', -, rfl⟩ := Option.map_eq_some_iff.mp is'
    have first := linked _ member'
    have only := List.inj_on_of_nodup_map sound.named (retains.links origin sound first) link
      (congrArg (Prod.mk id) same)
    have last : child' = child := congrArg (fun link => link.2.2) only
    have older : child' < original.nextId := origin.below _ (origin.upwards _ first).2
    exact absurd later (Nat.not_le.mpr (last ▸ older))

end Host

end Catwalk
