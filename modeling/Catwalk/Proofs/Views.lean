import Catwalk.Proofs.Changes
import Catwalk.Proofs.Descents
import Catwalk.Proofs.OrderedTrees

/-!
# Hosts as ordered trees

A sound host is read as a tree (`Host.tree?`): every node with what its children are read as. A
change of the table below one node changes the tree at the way to the node and nowhere else
(`Sound.treeAt?_alter`), and each edit of a host makes one such change.
-/

namespace Catwalk.Host

/-- The tree below a node of a table in which children stand behind their parents. -/
def treeIn : List (NodeId × Node) → NodeId → Option Tree
  | [], _ => none
  | (other, node) :: nodes, id =>
    if id = other then
      some <| .object node.facts <| node.content.children.filterMap fun child =>
        (treeIn nodes child.2).map (child.1, ·)
    else treeIn nodes id

/-- The tree below a node. -/
def treeAt? (host : Host) (id : NodeId) : Option Tree := treeIn host.nodes id

/-- The host as a tree. -/
def tree? (host : Host) : Option Tree := host.treeAt? rootId

/-- Children as trees. -/
def trees (host : Host) (children : List (Text × NodeId)) : List (Text × Tree) :=
  children.filterMap fun child => (host.treeAt? child.2).map (child.1, ·)

/-- A node with what is below it. -/
def treeOf (host : Host) (node : Node) : Tree :=
  .object node.facts (host.trees node.content.children)

variable {host after : Host} {id target parent child : NodeId} {node : Node} {name : Text}
  {path : Path} {now : Moment} {way elements : List Text} {change : Tree → Tree}

private theorem treeIn_eq {nodes : List (NodeId × Node)}
    (sorted : (nodes.map Prod.fst).Pairwise (· < ·))
    (upwards : ∀ pair ∈ nodes, ∀ child ∈ pair.2.content.children, pair.1 < child.2) (id : NodeId) :
    treeIn nodes id = (nodes.lookup id).map fun node =>
      .object node.facts <| node.content.children.filterMap fun child =>
        (treeIn nodes child.2).map (child.1, ·) := by
  induction nodes with
  | nil => rfl
  | cons pair nodes ih =>
    obtain ⟨first, node⟩ := pair
    rw [List.map_cons, List.pairwise_cons] at sorted
    obtain ⟨least, sorted⟩ := sorted
    have behind : ∀ {child}, first < child →
        treeIn ((first, node) :: nodes) child = treeIn nodes child := by
      intro child later
      rw [treeIn, if_neg (Nat.ne_of_gt later)]
    by_cases here : id = first
    · subst here
      rw [List.lookup_cons_self, Option.map_some, treeIn, if_pos rfl]
      congr 2
      refine List.filterMap_congr fun child member => ?_
      rw [behind (upwards _ List.mem_cons_self child member)]
    · have apart : (id == first) = false := by simpa using here
      rw [List.lookup_cons, apart, treeIn, if_neg here,
        ih sorted fun pair listed => upwards pair (List.mem_cons_of_mem _ listed)]
      cases found : nodes.lookup id with
      | none => rfl
      | some holder =>
        obtain ⟨front, rest, split, -⟩ := List.lookup_eq_some_iff.mp found
        have listed : (id, holder) ∈ nodes := by simp [split]
        have later : first < id := least id (List.mem_map_of_mem listed)
        simp only [Option.map_some]
        congr 2
        refine List.filterMap_congr fun child member => ?_
        rw [behind (Nat.lt_trans later (upwards _ (List.mem_cons_of_mem _ listed) child member))]

namespace Sound

theorem treeAt?_eq (sound : host.Sound) (id : NodeId) :
    host.treeAt? id = (host.node? id).map host.treeOf :=
  treeIn_eq sound.sorted (fun _ listed _ member =>
    (sound.upwards _ (mem_links.mpr ⟨_, listed, member⟩)).1) id

theorem treeAt?_of_node? (sound : host.Sound) (known : host.node? id = some node) :
    host.treeAt? id = some (host.treeOf node) := by
  rw [sound.treeAt?_eq, known, Option.map_some]

/-- Every child has a tree. -/
theorem exists_tree_of_mem (sound : host.Sound) (known : host.node? id = some node)
    {child : Text × NodeId} (member : child ∈ node.content.children) :
    ∃ holder, host.node? child.2 = some holder ∧
      host.treeAt? child.2 = some (host.treeOf holder) := by
  obtain ⟨holder, known'⟩ :=
    sound.exists_node (sound.mem_ids_of_link (sound.link_of_mem known member))
  exact ⟨holder, known', sound.treeAt?_of_node? known'⟩

end Sound

private theorem lookup_trees {children : List (Text × NodeId)}
    (present : ∀ child ∈ children, ∃ tree, host.treeAt? child.2 = some tree) (name : Text) :
    (host.trees children).lookup name = (children.lookup name).bind host.treeAt? := by
  unfold trees
  induction children with
  | nil => rfl
  | cons child children ih =>
    obtain ⟨first, id⟩ := child
    obtain ⟨tree, found⟩ := present _ List.mem_cons_self
    have others := ih fun child member => present child (List.mem_cons_of_mem _ member)
    by_cases here : name = first
    · subst here
      simp [found]
    · have apart : (name == first) = false := by simpa using here
      simp [found, List.lookup_cons, apart, others]

theorem map_fst_trees {children : List (Text × NodeId)}
    (present : ∀ child ∈ children, ∃ tree, host.treeAt? child.2 = some tree) :
    (host.trees children).map Prod.fst = children.map Prod.fst := by
  unfold trees
  induction children with
  | nil => rfl
  | cons child children ih =>
    obtain ⟨tree, found⟩ := present _ List.mem_cons_self
    have others := ih fun child member => present child (List.mem_cons_of_mem _ member)
    simp [found, others]

private theorem trees_append (children others : List (Text × NodeId)) :
    host.trees (children ++ others) = host.trees children ++ host.trees others :=
  List.filterMap_append

private theorem trees_filter (children : List (Text × NodeId)) (name : Text) :
    host.trees (children.filter (·.1 ≠ name)) = (host.trees children).filter (·.1 ≠ name) := by
  unfold trees
  induction children with
  | nil => rfl
  | cons child children ih =>
    by_cases here : child.1 = name <;> cases found : host.treeAt? child.2 <;> simp_all

namespace Sound

private theorem child?_treeOf (sound : host.Sound) (known : host.node? id = some node)
    (name : Text) : (host.treeOf node).child? name = (host.childId? id name).bind host.treeAt? := by
  have named : host.childId? id name = node.content.children.lookup name := by
    unfold childId?
    rw [known]
    rfl
  rw [named]
  refine lookup_trees (fun child member => ?_) name
  obtain ⟨holder, -, found⟩ := sound.exists_tree_of_mem known member
  exact ⟨_, found⟩

/-- A way leads to what it leads to in the tree. -/
theorem find?_treeOf (sound : host.Sound) (known : host.node? id = some node) (way : List Text) :
    (host.treeOf node).find? way = (host.locateFrom? id way).bind host.treeAt? := by
  induction way generalizing id node with
  | nil =>
    rw [locateFrom?, Option.bind_some, sound.treeAt?_of_node? known]
    rfl
  | cons element way ih =>
    rw [Tree.find?, sound.child?_treeOf known, locateFrom?]
    cases is : host.childId? id element with
    | none => rfl
    | some child =>
      obtain ⟨holder, known'⟩ := sound.node?_of_childId? is
      rw [Option.bind_some, sound.treeAt?_of_node? known']
      exact ih known'

/-! ## Changes below one node -/

/-- What is below a node is read from the nodes that it leads to. -/
private theorem treeAt?_congr (sound : host.Sound) (sound' : after.Sound)
    (same : ∀ other, host.Leads id other → after.node? other = host.node? other) :
    after.treeAt? id = host.treeAt? id := by
  induction id using sound.descend with
  | step id ih =>
    rw [sound.treeAt?_eq, sound'.treeAt?_eq, same id .refl]
    cases known : host.node? id with
    | none => rfl
    | some node =>
      have children : after.trees node.content.children = host.trees node.content.children := by
        refine List.filterMap_congr fun child member => ?_
        have link := sound.link_of_mem known member
        rw [ih child.2 link fun other leads => same other (leads.head link)]
      simp only [Option.map_some, treeOf, children]

end Sound

/-- Two hosts differ below one node of the first at most. -/
def AgreesOff (host after : Host) (target : NodeId) : Prop :=
  ∀ other ∈ host.ids, ¬ host.Leads target other → after.node? other = host.node? other

/-- A change below a node changes the tree at every way to the node. -/
theorem Sound.treeAt?_alter (sound : host.Sound) (sound' : after.Sound)
    (agrees : host.AgreesOff after target)
    (here : after.treeAt? target = (host.treeAt? target).map change)
    (located : host.locateFrom? id way = some target) :
    after.treeAt? id = (host.treeAt? id).map (·.alter change way) := by
  induction way generalizing id with
  | nil =>
    cases located
    exact here
  | cons element way ih =>
    rw [locateFrom?] at located
    cases is : host.childId? id element with
    | none =>
      rw [is] at located
      cases located
    | some next =>
      rw [is] at located
      have link : host.Link id next := link_of_childId? sound is
      have leads : host.Leads next target := leads_of_locateFrom? sound located
      have above : id < target :=
        Nat.lt_of_lt_of_le (sound.lt_of_link link) (sound.le_of_leads leads)
      have kept : ¬ host.Leads target id := fun back =>
        absurd (sound.le_of_leads back) (Nat.not_le.mpr above)
      obtain ⟨node, known, -⟩ := sound.mem_links_iff.mp (sound.childId?_eq_some_iff.mp is)
      have known' := (agrees id (mem_ids_of_node? known) kept).trans known
      rw [sound.treeAt?_of_node? known, sound'.treeAt?_of_node? known', Option.map_some, treeOf,
        treeOf, Tree.alter]
      congr 2
      unfold trees Tree.children
      rw [List.map_filterMap]
      refine List.filterMap_congr fun child member => ?_
      have link' : (id, child.1, child.2) ∈ host.links :=
        sound.mem_links_iff.mpr ⟨node, known, member⟩
      rw [Option.map_map]
      by_cases same : child.1 = element
      · -- the child on the way
        have only : child.2 = next := by
          have is' := sound.childId?_eq_some_iff.mpr link'
          rw [same, is] at is'
          exact (Option.some.inj is').symm
        rw [only, ih located, Option.map_map]
        congr 1
        funext tree
        simp [same]
      · -- its siblings lead past the node
        have apart : child.2 ≠ next := by
          intro only
          have link'' := sound.childId?_eq_some_iff.mp is
          have twice := List.inj_on_of_nodup_map sound.single link' link'' only
          exact same (Prod.mk.inj (Prod.mk.inj twice).2).1
        have tree : after.treeAt? child.2 = host.treeAt? child.2 := by
          refine sound.treeAt?_congr sound' fun other leads' => agrees other ?_ fun back => ?_
          · exact sound.mem_ids_of_leads (sound.mem_ids_of_link ⟨_, link'⟩) leads'
          · exact apart (sound.eq_of_siblings ⟨_, link'⟩ link leads' (leads.trans back))
        rw [tree]
        congr 1
        funext tree
        simp [same]

/-! ## Edits -/

/-- Only its children tell a node from one with other children. -/
private theorem facts_withChildren (node : Node)
    (edit : List (Text × NodeId) → List (Text × NodeId)) :
    ({ node with content := node.content.withChildren edit } : Node).facts = node.facts := by
  obtain ⟨load, exec, attributes, content⟩ := node
  rcases content with length | ⟨_ | _, children⟩
  · rfl
  · rfl
  · rfl

/-- What changes at a node alone changes below it. -/
theorem agreesOff_of_ne
    (same : ∀ other ∈ host.ids, other ≠ target → after.node? other = host.node? other) :
    host.AgreesOff after target := by
  intro other member apart
  refine same other member ?_
  rintro rfl
  exact apart .refl

namespace Sound

/-- Children are the same trees if all that they lead to is the same. -/
private theorem trees_congr (sound : host.Sound) (sound' : after.Sound)
    {children : List (Text × NodeId)} (same : ∀ child ∈ children, ∀ other,
      host.Leads child.2 other → after.node? other = host.node? other) :
    after.trees children = host.trees children := by
  refine List.filterMap_congr fun child member => ?_
  rw [sound.treeAt?_congr sound' (same child member)]

/-- What changes at a node alone leaves the trees of its children. -/
private theorem trees_of_ne (sound : host.Sound) (sound' : after.Sound)
    (known : host.node? id = some node)
    (same : ∀ other ∈ host.ids, other ≠ id → after.node? other = host.node? other) :
    after.trees node.content.children = host.trees node.content.children := by
  refine sound.trees_congr sound' fun child member other leads => same other ?_ ?_
  · exact sound.mem_ids_of_leads (sound.mem_ids_of_link (sound.link_of_mem known member)) leads
  · have up := sound.lt_of_link (sound.link_of_mem known member)
    exact Nat.ne_of_gt (Nat.lt_of_lt_of_le up (sound.le_of_leads leads))

theorem node?_grown_of_ne (sound : host.Sound) (name : Text) (node : Node) :
    ∀ other ∈ host.ids, other ≠ parent →
      (host.grown parent name node).node? other = host.node? other := by
  intro other member apart
  rw [sound.node?_grown, if_neg (Nat.ne_of_lt (sound.below other member))]
  simp [apart]

/-- The folder of a new object has it behind its other children. -/
theorem treeAt?_grown (sound : host.Sound) (slot : host.Slot parent name)
    (childless : node.content.children = []) :
    (host.grown parent name node).treeAt? parent =
      (host.treeAt? parent).map (·.append name (.object node.facts [])) := by
  obtain ⟨before, known, folder⟩ := slot.folder
  have sound' := sound.grown slot childless
  have older := slot.older sound
  have known' : (host.grown parent name node).node? parent = _ := sound.node?_grown parent
  rw [if_neg (Nat.ne_of_lt older), known, Option.map_some, if_pos rfl] at known'
  have new : (host.grown parent name node).treeAt? host.nextId = some (.object node.facts []) := by
    have found : (host.grown parent name node).node? host.nextId = _ :=
      sound.node?_grown host.nextId
    rw [if_pos rfl, Option.map_some, if_neg (Nat.ne_of_gt older)] at found
    rw [sound'.treeAt?_of_node? found, treeOf, childless]
    rfl
  have old := sound.trees_of_ne sound' known (sound.node?_grown_of_ne name node)
  rw [sound'.treeAt?_of_node? known', sound.treeAt?_of_node? known, Option.map_some, treeOf, treeOf,
    facts_withChildren, Content.children_withChildren folder, trees_append, old]
  simp [trees, new, Tree.append, Tree.facts, Tree.children]

theorem node?_retyped_of_ne (fileType : Nat) :
    ∀ other ∈ host.ids, other ≠ id →
      (host.update id (·.retyped now fileType)).node? other = host.node? other := by
  intro other _ apart
  rw [node?_update]
  simp [apart]

/-- An object with another type has the same children. -/
theorem treeAt?_retyped (sound : host.Sound) (known : host.node? id = some node) (now : Moment)
    (fileType : Nat) : (host.update id (·.retyped now fileType)).treeAt? id =
      (host.treeAt? id).map (·.restate (node.retyped now fileType).facts) := by
  have sound' : (host.update id (·.retyped now fileType)).Sound :=
    sound.update fun _ => Node.content_retyped
  have known' : (host.update id (·.retyped now fileType)).node? id =
      some (node.retyped now fileType) := by
    rw [node?_update, known, Option.map_some, if_pos rfl]
  have old := sound.trees_of_ne sound' known (node?_retyped_of_ne fileType)
  rw [sound'.treeAt?_of_node? known', sound.treeAt?_of_node? known, Option.map_some, treeOf, treeOf,
    Node.content_retyped, old]
  rfl

/-- The folder of an object that is removed loses it, and the tree nothing else. -/
theorem treeAt?_without (sound : host.Sound) (located : host.locate? path = some id)
    (below : path.elements ≠ []) (parents : host.locate? path.parent = some parent) :
    host.AgreesOff (host.without path id) parent ∧
      (host.without path id).treeAt? parent = (host.treeAt? parent).map (·.erase path.name) := by
  have sound' := sound.without located below
  obtain ⟨parent', located', link, nodes⟩ := sound.node?_without located below
  rw [parents] at located'
  cases located'
  have stays : ∀ {other}, ¬ host.Leads id other → other ≠ parent →
      (host.without path id).node? other = host.node? other := by
    intro other apart elsewhere
    refine Option.ext fun holder => ?_
    rw [nodes]
    simp [apart, elsewhere]
  refine ⟨fun other member apart => stays (fun leads => ?_) ?_, ?_⟩
  · exact apart (leads.head ⟨_, link⟩)
  · rintro rfl
    exact apart .refl
  · obtain ⟨before, known, member⟩ := sound.mem_links_iff.mp link
    have folder := Content.isFolder_of_mem member
    have known' := (nodes parent _).mpr ⟨?_, by rw [known, Option.map_some, if_pos rfl]⟩
    · have old : (host.without path id).trees (before.content.children.filter (·.1 ≠ path.name)) =
          host.trees (before.content.children.filter (·.1 ≠ path.name)) := by
        refine sound.trees_congr sound' fun child kept other leads => stays (fun leads' => ?_) ?_
        · -- the child that goes is the only one by its name
          rw [List.mem_filter] at kept
          have link' := sound.mem_links_iff.mpr ⟨before, known, kept.1⟩
          have same := sound.eq_of_siblings ⟨_, link'⟩ ⟨_, link⟩ leads leads'
          have twice := List.inj_on_of_nodup_map sound.single link' link same
          have named : child.1 = path.name := (Prod.mk.inj (Prod.mk.inj twice).2).1
          simp [named] at kept
        · have up := sound.lt_of_link (sound.link_of_mem known (List.mem_of_mem_filter kept))
          exact Nat.ne_of_gt (Nat.lt_of_lt_of_le up (sound.le_of_leads leads))
      rw [sound'.treeAt?_of_node? known', sound.treeAt?_of_node? known, Option.map_some, treeOf,
        treeOf, facts_withChildren, Content.children_withChildren folder, old, trees_filter]
      rfl
    · intro leads
      exact absurd (sound.le_of_leads leads) (Nat.not_le.mpr (sound.lt_of_link ⟨_, link⟩))

end Sound

/-! ## Chains of directories -/

/-- A way that is made below a node is laid in its tree, and nothing else changes. -/
private theorem Paves.treeAt?_eq (paves : Paves now host id elements after) (sound : host.Sound) :
    host.AgreesOff after id ∧
      after.treeAt? id = (host.treeAt? id).map (·.lay (Facts.directory now) elements) := by
  induction paves with
  | done => exact ⟨fun _ _ _ => rfl, by simp [Tree.lay]⟩
  | @through host after id child element elements is _ paves ih =>
    obtain ⟨agrees, tree⟩ := ih sound
    have link := link_of_childId? sound is
    refine ⟨fun other member apart => agrees other member fun leads => apart (leads.head link), ?_⟩
    have there : host.locateFrom? id [element] = some child := by simp [locateFrom?, is]
    rw [sound.treeAt?_alter (paves.changes.sound sound) agrees tree there]
    obtain ⟨node, known, -⟩ := sound.mem_links_iff.mp (sound.childId?_eq_some_iff.mp is)
    obtain ⟨holder, known'⟩ := sound.node?_of_childId? is
    have found : ((host.treeOf node).child? element).isSome = true := by
      simp [sound.child?_treeOf known, is, sound.treeAt?_of_node? known']
    rw [sound.treeAt?_of_node? known, Option.map_some, Option.map_some, Tree.lay_of_child _ found]
  | @missing host after id element elements slot paves ih =>
    have sound' := sound.grown slot (rfl : (Node.emptyDirectory now).content.children = [])
    obtain ⟨agrees, tree⟩ := ih sound'
    have near : ∀ other ∈ host.ids, other ≠ id → _ :=
      sound.node?_grown_of_ne element (Node.emptyDirectory now)
    have older := slot.older sound
    refine ⟨fun other member apart => ?_, ?_⟩
    · have new : other < host.nextId := sound.below other member
      rw [agrees other, agreesOff_of_ne near other member apart]
      · rw [ids_grown]
        exact List.mem_append_left _ member
      · exact fun leads => absurd (sound'.le_of_leads leads) (Nat.not_le.mpr new)
    · have there : (host.grown id element (Node.emptyDirectory now)).locateFrom? id [element] =
          some host.nextId := by
        have is : (host.grown id element (Node.emptyDirectory now)).childId? id element =
            some host.nextId := by
          refine sound'.childId?_eq_some_iff.mpr ?_
          exact (sound.links_grown slot rfl).mem_iff.mpr List.mem_cons_self
        simp [locateFrom?, is]
      rw [sound'.treeAt?_alter (paves.changes.sound sound') agrees tree there,
        sound.treeAt?_grown slot rfl]
      obtain ⟨node, known, -⟩ := slot.folder
      have free : (host.treeOf node).child? element = none := by
        simp [sound.child?_treeOf known, slot.fresh]
      rw [sound.treeAt?_of_node? known, Option.map_some, Option.map_some, Option.map_some,
        Tree.lay_of_no_child _ free]
      rfl

theorem Paves.tree?_eq (paves : Paves now host rootId elements after) (sound : host.Sound) :
    after.tree? = host.tree?.map (·.lay (Facts.directory now) elements) :=
  (paves.treeAt?_eq sound).2

theorem PavesAll.tree?_eq {spellings : List Text} (paves : PavesAll now host spellings after)
    (sound : host.Sound) : after.tree? = host.tree?.map fun tree =>
      spellings.foldl (fun tree spelling =>
        tree.lay (Facts.directory now) (Path.ofText spelling).elements) tree := by
  induction paves with
  | done => simp
  | cons first _ ih =>
    rw [ih (first.changes.sound sound), first.tree?_eq sound, Option.map_map]
    rfl

end Catwalk.Host
