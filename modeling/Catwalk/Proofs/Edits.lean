import Catwalk.Proofs.Hosts
import Mathlib.Data.List.Flatten

/-!
# Edits of hosts

Each edit of a host keeps it sound. A new object is linked to a folder under a name that the folder
had no link by (`Sound.grown`); an object that is removed takes its only link with it, and every
object below (`Sound.without`).
-/

namespace Catwalk

namespace Content

variable {content : Content} {edit : List (Text × NodeId) → List (Text × NodeId)}

@[simp] theorem isFolder_withChildren :
    (content.withChildren edit).isFolder = content.isFolder := by
  cases content <;> rfl

theorem children_withChildren (folder : content.isFolder = true) :
    (content.withChildren edit).children = edit content.children := by
  cases content with
  | file length => cases folder
  | folder isImage children => rfl

/-- Only folders have children. -/
theorem isFolder_of_mem {child : Text × NodeId} (member : child ∈ content.children) :
    content.isFolder = true := by
  cases content with
  | file => cases member
  | folder => rfl

theorem isFolder_of_isDirectory (directory : content.isDirectory = true) :
    content.isFolder = true := by
  cases content with
  | file => cases directory
  | folder => rfl

theorem children_eq_nil (file : content.isFolder = false) : content.children = [] := by
  cases content with
  | file => rfl
  | folder => cases file

end Content

namespace Host

variable {host : Host} {id parent child : NodeId} {node before : Node} {name : Text}
  {change : Node → Node} {edit : List (Text × NodeId) → List (Text × NodeId)}

/-! ## Changing one node -/

@[simp] theorem ids_update : (host.update id change).ids = host.ids := by
  unfold ids Host.update
  rw [List.map_map]
  rfl

theorem node?_update (other : NodeId) : (host.update id change).node? other =
    (host.node? other).map fun node => if other = id then change node else node := by
  unfold node? Host.update
  induction host.nodes with
  | nil => rfl
  | cons pair nodes ih =>
    obtain ⟨first, node⟩ := pair
    rw [List.map_cons]
    by_cases here : other = first
    · subst here
      rw [List.lookup_cons_self, List.lookup_cons_self]
      rfl
    · have apart : (other == first) = false := by simpa using here
      rw [List.lookup_cons, List.lookup_cons, apart, ih]

/-- The root stays a folder when the contents of nodes stay of their kinds. -/
private theorem Sound.root_update (sound : host.Sound)
    (kind : ∀ node, (change node).content.isFolder = node.content.isFolder) :
    ∃ node, (host.update id change).node? rootId = some node ∧ node.content.isFolder = true := by
  obtain ⟨node, known, folder⟩ := sound.root
  refine ⟨if rootId = id then change node else node, by rw [node?_update, known]; rfl, ?_⟩
  by_cases here : rootId = id
  · rw [if_pos here, kind, folder]
  · rw [if_neg here, folder]

/-- A change that keeps the contents of nodes keeps the links. -/
theorem links_update (same : ∀ node, (change node).content = node.content) :
    (host.update id change).links = host.links := by
  unfold links Host.update
  rw [List.flatMap_map]
  congr 1
  funext ⟨other, node⟩
  unfold linksOf
  by_cases here : other = id
  · simp only [if_pos here, same]
  · simp only [if_neg here]

/-- A change that keeps the contents of nodes keeps a host sound. -/
theorem Sound.update (sound : host.Sound) (same : ∀ node, (change node).content = node.content) :
    (host.update id change).Sound := by
  have links : (host.update id change).links = host.links := links_update same
  refine ⟨?_, ?_, sound.root_update fun node => by rw [same], ?_, ?_, ?_, ?_⟩
  · rw [ids_update]
    exact sound.sorted
  · rw [ids_update]
    exact sound.below
  · rw [links, ids_update]
    exact sound.upwards
  · rw [links]
    exact sound.names
  · rw [links]
    exact sound.single
  · rw [links]
    exact sound.named

/-- A change of the children of one folder changes its links and no others. -/
private theorem Sound.links_updateChildren (sound : host.Sound) (known : host.node? id = some node)
    (folder : node.content.isFolder = true) (edit : List (Text × NodeId) → List (Text × NodeId)) :
    ∃ before after,
      host.links = before ++ node.content.children.map (Prod.mk id) ++ after ∧
      (host.updateChildren id edit).links =
        before ++ (edit node.content.children).map (Prod.mk id) ++ after := by
  obtain ⟨before, after, split⟩ := List.append_of_mem (sound.node?_eq_some_iff.mp known)
  have once := sound.sorted.imp Nat.ne_of_lt
  unfold ids at once
  rw [split, List.map_append, List.map_cons, List.pairwise_append, List.pairwise_cons] at once
  obtain ⟨-, ⟨later, -⟩, apart⟩ := once
  have elsewhere : ∀ (f : NodeId × Node → NodeId × Node) (pairs : List (NodeId × Node)),
      (∀ pair, pair.1 ≠ id → f pair = pair) → (∀ pair ∈ pairs, pair.1 ≠ id) →
        pairs.map f = pairs := by
    intro f pairs kept other
    exact (List.map_congr_left fun pair member => kept pair (other pair member)).trans
      (List.map_id pairs)
  refine ⟨before.flatMap linksOf, after.flatMap linksOf, ?_, ?_⟩
  · unfold links
    rw [split, List.flatMap_append, List.flatMap_cons, ← List.append_assoc]
    rfl
  · unfold links updateChildren Host.update
    rw [split, List.map_append, List.map_cons,
      elsewhere _ before (fun pair other => congrArg (Prod.mk pair.1) (if_neg other))
        fun pair member => apart pair.1 (List.mem_map_of_mem member) id List.mem_cons_self,
      elsewhere _ after (fun pair other => congrArg (Prod.mk pair.1) (if_neg other))
        fun pair member => (later pair.1 (List.mem_map_of_mem member)).symm,
      List.flatMap_append, List.flatMap_cons, ← List.append_assoc]
    simp only [linksOf, if_true, Content.children_withChildren folder]

/-! ## New objects -/

/-- The host with a new node that no link leads to. -/
def extend (host : Host) (node : Node) : Host :=
  { host with nextId := host.nextId + 1, nodes := host.nodes ++ [(host.nextId, node)] }

private theorem ids_extend : (host.extend node).ids = host.ids ++ [host.nextId] := by
  unfold ids extend
  rw [List.map_append]
  rfl

theorem links_extend (childless : node.content.children = []) :
    (host.extend node).links = host.links := by
  unfold links extend
  rw [List.flatMap_append, List.flatMap_singleton]
  unfold linksOf
  rw [childless, List.map_nil, List.append_nil]

theorem Sound.extend (sound : host.Sound) (childless : node.content.children = []) :
    (host.extend node).Sound := by
  have links : (host.extend node).links = host.links := links_extend childless
  refine ⟨?_, ?_, ?_, ?_, ?_, ?_, ?_⟩
  · rw [ids_extend, List.pairwise_append]
    refine ⟨sound.sorted, List.pairwise_singleton _ _, fun id member other new => ?_⟩
    rw [List.mem_singleton.mp new]
    exact sound.below id member
  · rw [ids_extend]
    intro id member
    rcases List.mem_append.mp member with member | new
    · exact Nat.lt_succ_of_lt (sound.below id member)
    · rw [List.mem_singleton.mp new]
      exact Nat.lt_succ_self _
  · obtain ⟨root, known, folder⟩ := sound.root
    refine ⟨root, ?_, folder⟩
    unfold node? Host.extend at *
    rw [List.lookup_append, known]
    rfl
  · rw [links, ids_extend]
    exact fun link member => ⟨(sound.upwards link member).1,
      List.mem_append_left _ (sound.upwards link member).2⟩
  · rw [links]
    exact sound.names
  · rw [links]
    exact sound.single
  · rw [links]
    exact sound.named

/-- A link behind those of a folder is the only new one. -/
private theorem Sound.links_linked (sound : host.Sound) (known : host.node? parent = some node)
    (folder : node.content.isFolder = true) (name : Text) (child : NodeId) :
    (host.updateChildren parent (· ++ [(name, child)])).links.Perm
      ((parent, name, child) :: host.links) := by
  obtain ⟨before, after, links, links'⟩ :=
    sound.links_updateChildren known folder (· ++ [(name, child)])
  rw [links, links', List.map_append, List.append_assoc, List.append_assoc, List.append_assoc,
    ← List.append_assoc before, ← List.append_assoc before]
  exact List.perm_middle

/-- A node that no link leads to may be linked to a folder before it. -/
private theorem Sound.link (sound : host.Sound) (known : host.node? parent = some node)
    (folder : node.content.isFolder = true) (upwards : parent < child ∧ child ∈ host.ids)
    (linkable : Linkable name) (orphan : ∀ link ∈ host.links, link.2.2 ≠ child)
    (fresh : ∀ link ∈ host.links, (link.1, link.2.1) ≠ (parent, name)) :
    (host.updateChildren parent (· ++ [(name, child)])).Sound := by
  have more := sound.links_linked known folder name child
  have ids : (host.updateChildren parent (· ++ [(name, child)])).ids = host.ids := ids_update
  have member : ∀ link ∈ (host.updateChildren parent (· ++ [(name, child)])).links,
      link = (parent, name, child) ∨ link ∈ host.links :=
    fun link member => List.mem_cons.mp (more.mem_iff.mp member)
  refine ⟨ids ▸ sound.sorted, ids ▸ sound.below,
    sound.root_update fun node => Content.isFolder_withChildren, ?_, ?_, ?_, ?_⟩
  · intro link listed
    rw [ids]
    rcases member link listed with rfl | listed
    · exact upwards
    · exact sound.upwards link listed
  · intro link listed
    rcases member link listed with rfl | listed
    · exact linkable
    · exact sound.names link listed
  · rw [(more.map _).nodup_iff, List.map_cons, List.nodup_cons]
    refine ⟨fun listed => ?_, sound.single⟩
    obtain ⟨link, listed, same⟩ := List.mem_map.mp listed
    exact orphan link listed same
  · rw [(more.map _).nodup_iff, List.map_cons, List.nodup_cons]
    refine ⟨fun listed => ?_, sound.named⟩
    obtain ⟨link, listed, same⟩ := List.mem_map.mp listed
    exact fresh link listed same

theorem Sound.node?_extend (sound : host.Sound) (node : Node) (other : NodeId) :
    (host.extend node).node? other =
      if other = host.nextId then some node else host.node? other := by
  unfold node? Host.extend
  rw [List.lookup_append]
  by_cases new : other = host.nextId
  · have free : host.nodes.lookup other = none := by
      cases known : host.nodes.lookup other with
      | none => rfl
      | some node =>
        have below := sound.below other (mem_ids_of_node? known)
        exact absurd new (Nat.ne_of_lt below)
    rw [if_pos new, free, new, List.lookup_cons_self]
    rfl
  · have apart : (other == host.nextId) = false := by simpa using new
    rw [if_neg new, List.lookup_cons, apart]
    exact Option.or_none

/-- The host with a new node as the last child of another. -/
def grown (host : Host) (parent : NodeId) (name : Text) (node : Node) : Host :=
  (host.extend node).updateChildren parent (· ++ [(name, host.nextId)])

/-- Where a new node may go: into a folder without a child by the name, while the table has room. -/
structure Slot (host : Host) (parent : NodeId) (name : Text) : Prop where
  room : host.isFull = false
  folder : ∃ node, host.node? parent = some node ∧ node.content.isFolder = true
  linkable : Linkable name
  fresh : host.childId? parent name = none

theorem add_eq : add parent name node host =
    if host.isFull then .error (.hostFull host.nodes.length (host.maxNodes.getD 0)) host
    else .ok host.nextId (host.grown parent name node) := rfl

theorem ids_grown : (host.grown parent name node).ids = host.ids ++ [host.nextId] :=
  ids_update.trans ids_extend

theorem Sound.node?_grown (sound : host.Sound) (other : NodeId) :
    (host.grown parent name node).node? other =
      (if other = host.nextId then some node else host.node? other).map fun node =>
        if other = parent then
          { node with content := node.content.withChildren (· ++ [(name, host.nextId)]) }
        else node := by
  rw [← sound.node?_extend]
  exact node?_update other

theorem Slot.older (slot : host.Slot parent name) (sound : host.Sound) : parent < host.nextId := by
  obtain ⟨before, known, -⟩ := slot.folder
  exact sound.below parent (mem_ids_of_node? known)

/-- The folder of a slot is still there when there is one node more. -/
private theorem Slot.folder_extend (slot : host.Slot parent name) (sound : host.Sound) :
    ∃ before, (host.extend node).node? parent = some before ∧
      before.content.isFolder = true := by
  obtain ⟨before, known, folder⟩ := slot.folder
  refine ⟨before, ?_, folder⟩
  rw [sound.node?_extend, if_neg (Nat.ne_of_lt (slot.older sound)), known]

/-- The link to a new object is the only new one. -/
theorem Sound.links_grown (sound : host.Sound) (slot : host.Slot parent name)
    (childless : node.content.children = []) : (host.grown parent name node).links.Perm
      ((parent, name, host.nextId) :: host.links) := by
  obtain ⟨before, known, folder⟩ := slot.folder_extend sound
  have linked := (sound.extend childless).links_linked known folder name host.nextId
  rwa [links_extend childless] at linked

/-- A new object keeps a host sound. -/
theorem Sound.grown (sound : host.Sound) (slot : host.Slot parent name)
    (childless : node.content.children = []) : (host.grown parent name node).Sound := by
  obtain ⟨before, known, folder⟩ := slot.folder_extend sound
  have links : (host.extend node).links = host.links := links_extend childless
  refine (sound.extend childless).link known folder ⟨slot.older sound, ?_⟩ slot.linkable ?_ ?_
  · rw [ids_extend]
    exact List.mem_append_right _ List.mem_cons_self
  · rw [links]
    intro link member
    exact Nat.ne_of_lt (sound.below _ (sound.upwards link member).2)
  · rw [links]
    rintro ⟨from', by', child⟩ member same
    cases same
    have is := sound.childId?_eq_some_iff.mpr member
    rw [slot.fresh] at is
    cases is

/-! ## Paths of new objects -/

/-- An object that is not the root is a child of what the path of its directory names. -/
private theorem locate?_eq_childId? {path : Path} (below : path.elements ≠ []) :
    host.locate? path = (host.locate? path.parent).bind (host.childId? · path.name) := by
  unfold locate?
  rw [Path.elements_eq_concat below, locateFrom?_append]
  congr 1
  funext id
  rw [locateFrom?]
  cases host.childId? id path.name <;> rfl

theorem linkable_of_checkName {spelling : Text} (plain : Path.Plain name)
    (checked : checkName name spelling = .ok ()) : Linkable name := by
  unfold checkName at checked
  split at checked
  · cases checked
  · next noZero =>
    split at checked
    · cases checked
    · next storable =>
      refine ⟨plain, ?_, ?_⟩
      · exact Option.isSome_iff_ne_none.mpr (by simpa using storable)
      · simpa using noZero

/-- What a child's number leads to. -/
theorem Sound.node?_of_childId? (sound : host.Sound) (is : host.childId? id name = some child) :
    ∃ node, host.node? child = some node :=
  sound.exists_node (sound.upwards _ (sound.childId?_eq_some_iff.mp is)).2

/-- A path that names nothing is not the root's, and its directory has no child by its name. -/
theorem Sound.fresh_of_find? (sound : host.Sound) {path : Path} (free : host.find? path = none)
    (located : host.locate? path.parent = some parent) :
    path.elements ≠ [] ∧ host.childId? parent path.name = none := by
  have below : path.elements ≠ [] := by
    intro none'
    obtain ⟨root, known, -⟩ := sound.root
    have found : host.find? path = host.node? rootId := by
      unfold find? locate?
      rw [none']
      rfl
    rw [found, known] at free
    cases free
  refine ⟨below, ?_⟩
  cases is : host.childId? parent path.name with
  | none => rfl
  | some child =>
    obtain ⟨node, known⟩ := sound.node?_of_childId? is
    have found : host.find? path = host.node? child := by
      unfold find?
      rw [locate?_eq_childId? below, located, Option.bind_some, is]
      rfl
    rw [found, known] at free
    cases free

/-! ## Objects that are removed -/

/-- Taking away links from a folder keeps a host sound. -/
theorem Sound.filterChildren (sound : host.Sound) (known : host.node? id = some node)
    (folder : node.content.isFolder = true) (keeps : Text × NodeId → Bool) :
    (host.updateChildren id (·.filter keeps)).Sound ∧
      (host.updateChildren id (·.filter keeps)).links.Sublist host.links := by
  obtain ⟨before, after, links, links'⟩ :=
    sound.links_updateChildren known folder (·.filter keeps)
  have fewer : (host.updateChildren id (·.filter keeps)).links.Sublist host.links := by
    rw [links, links']
    exact ((List.Sublist.refl before).append (List.filter_sublist.map _)).append
      (List.Sublist.refl after)
  have ids : (host.updateChildren id (·.filter keeps)).ids = host.ids := ids_update
  refine ⟨⟨ids ▸ sound.sorted, ids ▸ sound.below,
    sound.root_update fun node => Content.isFolder_withChildren, ?_, ?_, ?_, ?_⟩, fewer⟩
  · rw [ids]
    exact fun link member => sound.upwards link (fewer.subset member)
  · exact fun link member => sound.names link (fewer.subset member)
  · exact sound.single.sublist (fewer.map _)
  · exact sound.named.sublist (fewer.map _)

theorem prune_sublist (doomed : List NodeId) (nodes : List (NodeId × Node)) :
    (prune doomed nodes).Sublist nodes := by
  induction nodes generalizing doomed with
  | nil => exact List.Sublist.refl []
  | cons pair nodes ih =>
    obtain ⟨first, node⟩ := pair
    rw [prune]
    split
    · exact (ih _).cons _
    · exact (ih _).cons_cons _

/-- An object stays if its number is not doomed and all its parents stay. -/
theorem mem_prune {nodes : List (NodeId × Node)} {doomed : List NodeId}
    (once : (nodes.map Prod.fst).Nodup) (member : (child, node) ∈ nodes)
    (spared : child ∉ doomed) (parents : ∀ pair ∈ nodes,
      child ∈ pair.2.content.children.map Prod.snd → pair ∈ prune doomed nodes) :
    (child, node) ∈ prune doomed nodes := by
  induction nodes generalizing doomed with
  | nil => cases member
  | cons pair nodes ih =>
    obtain ⟨first, before⟩ := pair
    rw [List.map_cons, List.nodup_cons] at once
    obtain ⟨new, once⟩ := once
    rw [prune] at parents ⊢
    by_cases lost : doomed.contains first = true
    · rw [if_pos lost] at parents ⊢
      rcases List.mem_cons.mp member with same | member
      · cases same
        exact absurd (List.contains_iff_mem.mp lost) spared
      · -- a child of what is lost would have a parent that goes
        have apart : child ∉ before.content.children.map Prod.snd := by
          intro below
          have stays := parents _ List.mem_cons_self below
          exact new (List.mem_map_of_mem ((prune_sublist _ nodes).subset stays))
        refine ih once member ?_ fun pair listed => parents pair (List.mem_cons_of_mem _ listed)
        rw [List.mem_append, not_or]
        exact ⟨apart, spared⟩
    · rw [if_neg lost] at parents ⊢
      rcases List.mem_cons.mp member with same | member
      · rw [same]
        exact List.mem_cons_self
      · refine List.mem_cons_of_mem _ (ih once member spared fun pair listed below => ?_)
        rcases List.mem_cons.mp (parents pair (List.mem_cons_of_mem _ listed) below) with
          rfl | stays
        · exact absurd (List.mem_map_of_mem listed) new
        · exact stays

/-- A host without a node that no link leads to, and without all below it. -/
private theorem Sound.pruned (sound : host.Sound) (deep : id ≠ rootId)
    (orphan : ∀ link ∈ host.links, link.2.2 ≠ id) :
    ({ host with nodes := prune [id] host.nodes } : Host).Sound := by
  have fewer := prune_sublist [id] host.nodes
  have links : (prune [id] host.nodes |>.flatMap linksOf).Sublist host.links := fewer.flatMap _
  have once : (host.nodes.map Prod.fst).Nodup := sound.sorted.imp Nat.ne_of_lt
  have sorted : ((prune [id] host.nodes).map Prod.fst).Pairwise (· < ·) :=
    sound.sorted.sublist (fewer.map _)
  refine ⟨sorted, fun id member => sound.below id ((fewer.map _).subset member), ?_, ?_, ?_, ?_, ?_⟩
  · obtain ⟨root, known, folder⟩ := sound.root
    refine ⟨root, ?_, folder⟩
    refine (lookup_eq_some_iff_mem (sorted.imp Nat.ne_of_lt)).mpr
      (mem_prune once (sound.node?_eq_some_iff.mp known) ?_ ?_)
    · intro doomed
      exact deep (List.mem_singleton.mp doomed).symm
    · rintro ⟨parent, node⟩ listed below
      obtain ⟨⟨name, child⟩, member, same⟩ := List.mem_map.mp below
      have upwards := (sound.upwards _ (mem_links.mpr ⟨node, listed, member⟩)).1
      dsimp only at upwards same
      rw [same] at upwards
      exact absurd upwards (Nat.not_lt_zero parent)
  · rintro ⟨parent, name, child⟩ member
    have old := links.subset member
    refine ⟨(sound.upwards _ old).1, ?_⟩
    obtain ⟨⟨_, node⟩, listed, rfl⟩ := List.mem_map.mp (sound.upwards _ old).2
    obtain ⟨before, stays, below⟩ := mem_links.mp member
    refine List.mem_map_of_mem (mem_prune once listed ?_ ?_)
    · intro doomed
      exact orphan _ old (List.mem_singleton.mp doomed)
    · -- the folder that stays is the only parent
      rintro ⟨other, between⟩ listed' below'
      obtain ⟨⟨name', _⟩, member', rfl⟩ := List.mem_map.mp below'
      have link := mem_links.mpr ⟨between, listed', member'⟩
      have same := List.inj_on_of_nodup_map sound.single old link rfl
      obtain ⟨rfl, -⟩ := Prod.mk.inj same
      have held := sound.node?_eq_some_iff.mpr listed'
      rw [sound.node?_eq_some_iff.mpr (fewer.subset stays)] at held
      cases held
      exact stays
  · exact fun link member => sound.names link (links.subset member)
  · exact sound.single.sublist (links.map _)
  · exact sound.named.sublist (links.map _)

/-- The host without an object, its link and all below it. -/
def without (host : Host) (path : Path) (id : NodeId) : Host :=
  { host.unlink path with nodes := prune [id] (host.unlink path).nodes }

/-- What leads to an object that is not the root: its link in the folder of its path. -/
theorem Sound.exists_link (sound : host.Sound) {path : Path} (located : host.locate? path = some id)
    (below : path.elements ≠ []) : ∃ parent node, host.locate? path.parent = some parent ∧
      host.node? parent = some node ∧ node.content.isFolder = true ∧
      (parent, path.name, id) ∈ host.links := by
  rw [locate?_eq_childId? below, Option.bind_eq_some_iff] at located
  obtain ⟨parent, located, is⟩ := located
  have link := sound.childId?_eq_some_iff.mp is
  obtain ⟨node, known, member⟩ := sound.mem_links_iff.mp link
  exact ⟨parent, node, located, known, Content.isFolder_of_mem member, link⟩

theorem unlink_eq {path : Path} (located : host.locate? path.parent = some parent) :
    host.unlink path = host.updateChildren parent (·.filter (·.1 ≠ path.name)) := by
  simp only [unlink, located]

/-- The only link to an object goes with it. -/
private theorem Sound.not_linked (sound : host.Sound)
    (link : (parent, name, id) ∈ host.links) :
    ∀ other ∈ (host.updateChildren parent (·.filter (·.1 ≠ name))).links, other.2.2 ≠ id := by
  obtain ⟨node', known', member⟩ := sound.mem_links_iff.mp link
  have folder := Content.isFolder_of_mem member
  obtain ⟨sound', fewer⟩ := sound.filterChildren known' folder fun child => child.1 ≠ name
  intro other member same
  have only := List.inj_on_of_nodup_map sound.single (fewer.subset member) link same
  subst only
  obtain ⟨after, known, member⟩ := sound'.mem_links_iff.mp member
  unfold updateChildren at known
  rw [node?_update, known', Option.map_some, if_pos rfl, Option.some.injEq] at known
  rw [← known, Content.children_withChildren folder, List.mem_filter] at member
  simpa using member.2

/-- A host without an object and all below it is sound. -/
theorem Sound.without (sound : host.Sound) {path : Path} (located : host.locate? path = some id)
    (below : path.elements ≠ []) : (host.without path id).Sound := by
  obtain ⟨parent, node, located, known, folder, link⟩ := sound.exists_link located below
  obtain ⟨sound', -⟩ := sound.filterChildren known folder fun child => child.1 ≠ path.name
  have deep : id ≠ rootId := by
    intro root
    have upwards := (sound.upwards _ link).1
    rw [root] at upwards
    exact absurd upwards (Nat.not_lt_zero parent)
  unfold Host.without
  rw [unlink_eq located]
  exact sound'.pruned deep (sound.not_linked link)

/-- A path that names a file is not the root's. -/
theorem Sound.elements_ne_nil (sound : host.Sound) {path : Path}
    (located : host.locate? path = some id) (known : host.node? id = some node)
    (file : node.content.isFolder = false) : path.elements ≠ [] := by
  intro root
  obtain ⟨top, known', folder⟩ := sound.root
  unfold locate? at located
  rw [root] at located
  cases located
  rw [known] at known'
  cases known'
  rw [file] at folder
  cases folder

end Host

end Catwalk
