import Catwalk.Proofs.Edits
import Mathlib.Data.List.Perm.Subperm
import Mathlib.Logic.Relation

/-!
# What is below an object

An object leads to its children, to theirs and so on. Since links lead upwards and no two lead to
one object, what two objects both lead to makes one of them lead to the other. An object that is
removed takes along what it leads to, and nothing else (`Sound.node?_without`): the one pass over
the table that removes it comes to the same as going down to each object in turn, children first
(`Sound.takeDown_unlink`).
-/

namespace Catwalk.Host

variable {host : Host} {id other parent child : NodeId} {node holder : Node} {name : Text}

/-- One object is a child of another. -/
def Link (host : Host) (parent child : NodeId) : Prop := ∃ name, (parent, name, child) ∈ host.links

/-- One object is another, or below it. -/
abbrev Leads (host : Host) : NodeId → NodeId → Prop := Relation.ReflTransGen host.Link

theorem link_of_childId? (sound : host.Sound) (is : host.childId? id name = some child) :
    host.Link id child :=
  ⟨name, sound.childId?_eq_some_iff.mp is⟩

/-- A path leads to what is below the object that it starts at. -/
theorem leads_of_locateFrom? (sound : host.Sound) {elements : List Text}
    (located : host.locateFrom? id elements = some other) : host.Leads id other := by
  induction elements generalizing id with
  | nil =>
    cases located
    exact .refl
  | cons element elements ih =>
    rw [locateFrom?] at located
    cases is : host.childId? id element with
    | none =>
      rw [is] at located
      cases located
    | some child =>
      rw [is] at located
      exact (ih located).head (link_of_childId? sound is)

namespace Sound

theorem lt_of_link (sound : host.Sound) (link : host.Link parent child) : parent < child := by
  obtain ⟨name, member⟩ := link
  exact (sound.upwards _ member).1

theorem link_of_mem (sound : host.Sound) (known : host.node? id = some node) {child : Text × NodeId}
    (member : child ∈ node.content.children) : host.Link id child.2 :=
  ⟨child.1, sound.mem_links_iff.mpr ⟨node, known, member⟩⟩

theorem mem_ids_of_link (sound : host.Sound) (link : host.Link parent child) :
    child ∈ host.ids := by
  obtain ⟨name, member⟩ := link
  exact (sound.upwards _ member).2

theorem mem_ids_of_leads (sound : host.Sound) (member : id ∈ host.ids)
    (leads : host.Leads id other) : other ∈ host.ids := by
  cases leads with
  | refl => exact member
  | tail _ link => exact sound.mem_ids_of_link link

theorem le_of_leads (sound : host.Sound) (leads : host.Leads id other) : id ≤ other := by
  induction leads with
  | refl => exact Nat.le_refl _
  | tail _ link ih => exact Nat.le_of_lt (Nat.lt_of_le_of_lt ih (sound.lt_of_link link))

/-- A file leads to nothing but itself. -/
theorem leads_file_iff (sound : host.Sound) (known : host.node? id = some node)
    (file : node.content.isFolder = false) : host.Leads id other ↔ other = id := by
  constructor
  · intro leads
    rcases leads.cases_head with same | ⟨child, ⟨name, member⟩, -⟩
    · exact same.symm
    · obtain ⟨holder, known', member⟩ := sound.mem_links_iff.mp member
      rw [known] at known'
      cases known'
      rw [Content.isFolder_of_mem member] at file
      cases file
  · rintro rfl
    exact .refl

/-- Induction from the objects without children upwards. -/
theorem descend (sound : host.Sound) {P : NodeId → Prop}
    (step : ∀ id, (∀ child, host.Link id child → P child) → P id) (id : NodeId) : P id := by
  have every : ∀ n id : Nat, host.nextId ≤ id + n → P id := by
    intro n
    induction n with
    | zero =>
      intro id large
      refine step id fun child link => ?_
      have up := sound.lt_of_link link
      obtain ⟨name, member⟩ := link
      have below := sound.below child (sound.upwards _ member).2
      exact absurd (Nat.lt_trans up below) (Nat.not_lt.mpr large)
    | succ n ih =>
      intro id large
      refine step id fun child link => ih child ?_
      have up : id + 1 ≤ child := sound.lt_of_link link
      calc
        host.nextId ≤ id + (n + 1) := large
        _ = id + 1 + n := by rw [Nat.add_comm n, Nat.add_assoc]
        _ ≤ child + n := Nat.add_le_add_right up n
  exact every host.nextId id (Nat.le_add_left _ _)

/-- An object has one parent. -/
private theorem link_unique (sound : host.Sound) (link : host.Link parent child)
    (link' : host.Link other child) : parent = other := by
  obtain ⟨name, member⟩ := link
  obtain ⟨name', member'⟩ := link'
  have same := List.inj_on_of_nodup_map sound.single member member' rfl
  exact (Prod.mk.inj same).1

/-- Of two objects that lead to a third, one leads to the other. -/
private theorem leads_total (sound : host.Sound) (leads : host.Leads id child)
    (leads' : host.Leads other child) : host.Leads id other ∨ host.Leads other id := by
  have back : Relator.RightUnique (Function.swap host.Link) :=
    fun _ _ _ link link' => sound.link_unique link link'
  have total := Relation.ReflTransGen.total_of_right_unique back
    (Relation.reflTransGen_swap.mpr leads) (Relation.reflTransGen_swap.mpr leads')
  exact (total.imp Relation.reflTransGen_swap.mp Relation.reflTransGen_swap.mp).symm

/-- No two children of a folder lead to one object. -/
theorem eq_of_siblings (sound : host.Sound) (link : host.Link parent id)
    (link' : host.Link parent other) (leads : host.Leads id child)
    (leads' : host.Leads other child) : id = other := by
  have apart : ∀ {a b}, host.Link parent a → host.Link parent b → host.Leads a b → a = b := by
    intro a b above below leads
    cases leads with
    | refl => rfl
    | tail leads last =>
      have same := sound.link_unique below last
      subst same
      exact absurd (sound.lt_of_link above) (Nat.not_lt.mpr (sound.le_of_leads leads))
  rcases sound.leads_total leads leads' with between | between
  · exact apart link link' between
  · exact (apart link' link between).symm

end Sound

/-! ## Removal -/

/-- What stays was not doomed, and all its parents stay. -/
private theorem of_mem_prune {nodes : List (NodeId × Node)} {doomed : List NodeId}
    (sorted : (nodes.map Prod.fst).Pairwise (· < ·))
    (upwards : ∀ pair ∈ nodes, ∀ child ∈ pair.2.content.children, pair.1 < child.2)
    (stays : (child, node) ∈ prune doomed nodes) :
    child ∉ doomed ∧ ∀ pair ∈ nodes, child ∈ pair.2.content.children.map Prod.snd →
      pair ∈ prune doomed nodes := by
  induction nodes generalizing doomed with
  | nil => cases stays
  | cons pair nodes ih =>
    obtain ⟨first, before⟩ := pair
    rw [List.map_cons, List.pairwise_cons] at sorted
    obtain ⟨least, sorted⟩ := sorted
    have upwards' := fun pair listed => upwards pair (List.mem_cons_of_mem _ listed)
    rw [prune] at stays ⊢
    by_cases lost : doomed.contains first = true
    · rw [if_pos lost] at stays ⊢
      obtain ⟨spared, parents⟩ := ih sorted upwards' stays
      rw [List.mem_append, not_or] at spared
      refine ⟨spared.2, fun pair listed below => ?_⟩
      rcases List.mem_cons.mp listed with rfl | listed
      · exact absurd below spared.1
      · exact parents pair listed below
    · rw [if_neg lost] at stays ⊢
      rcases List.mem_cons.mp stays with same | stays
      · cases same
        refine ⟨fun doomed => lost (List.contains_iff_mem.mpr doomed), fun pair listed below => ?_⟩
        rcases List.mem_cons.mp listed with rfl | behind
        · exact List.mem_cons_self
        · -- nothing behind the first links to it
          obtain ⟨link, member, same⟩ := List.mem_map.mp below
          have up := upwards' pair behind link member
          have later := least pair.1 (List.mem_map_of_mem behind)
          rw [same] at up
          exact absurd up (Nat.lt_asymm later)
      · obtain ⟨spared, parents⟩ := ih sorted upwards' stays
        refine ⟨spared, fun pair listed below => ?_⟩
        rcases List.mem_cons.mp listed with rfl | listed
        · exact List.mem_cons_self
        · exact List.mem_cons_of_mem _ (parents pair listed below)

/-- What goes with an object is what it leads to. -/
private theorem Sound.mem_prune_iff (sound : host.Sound) :
    (other, node) ∈ prune [id] host.nodes ↔ (other, node) ∈ host.nodes ∧ ¬ host.Leads id other := by
  have once : (host.nodes.map Prod.fst).Nodup := sound.sorted.imp Nat.ne_of_lt
  have kept : ∀ {other node}, (other, node) ∈ prune [id] host.nodes →
      other ≠ id ∧ ∀ {parent}, host.Link parent other →
        ∃ before, (parent, before) ∈ prune [id] host.nodes := by
    intro other node stays
    have upwards : ∀ pair ∈ host.nodes, ∀ child ∈ pair.2.content.children, pair.1 < child.2 :=
      fun pair listed child member => (sound.upwards _ (mem_links.mpr ⟨_, listed, member⟩)).1
    obtain ⟨spared, parents⟩ := of_mem_prune sound.sorted upwards stays
    refine ⟨by simpa using spared, ?_⟩
    rintro parent ⟨name, link⟩
    obtain ⟨before, listed, member⟩ := mem_links.mp link
    exact ⟨before, parents _ listed (List.mem_map_of_mem member)⟩
  constructor
  · intro stays
    refine ⟨(prune_sublist _ _).subset stays, fun leads => ?_⟩
    induction leads generalizing node with
    | refl => exact (kept stays).1 rfl
    | tail _ link ih =>
      obtain ⟨before, stays⟩ := (kept stays).2 link
      exact ih stays
  · rintro ⟨listed, apart⟩
    -- on the number of the object: its parents have lower ones
    induction other using Nat.strongRecOn generalizing node with
    | ind other ih =>
      refine mem_prune once listed ?_ ?_
      · intro doomed
        rw [List.mem_singleton.mp doomed] at apart
        exact apart .refl
      · rintro ⟨parent, before⟩ listed' below
        obtain ⟨⟨name, child⟩, member, rfl⟩ := List.mem_map.mp below
        have link : host.Link parent child := ⟨name, mem_links.mpr ⟨before, listed', member⟩⟩
        exact ih parent (sound.lt_of_link link) listed' fun leads => apart (leads.tail link)

/-- Takes an object out of a table after all that is below it: its children first, one after the
other. It stops at an object that is not in the table, and at one that is `depth` objects down. -/
def takeDown : Nat → NodeId → List (NodeId × Node) → Option (List (NodeId × Node))
  | 0, _, _ => none
  | depth + 1, id, nodes => do
    let node ← nodes.lookup id
    let left ← node.content.children.foldlM (fun left child => takeDown depth child.2 left) nodes
    return left.filter (·.1 ≠ id)

section
variable {depth : Nat} {nodes : List (NodeId × Node)}

/-- A table of the host's in which an object and all below it still are. -/
structure Standing (host : Host) (id : NodeId) (nodes : List (NodeId × Node)) : Prop where
  fewer : nodes.Sublist host.nodes
  whole : ∀ pair ∈ host.nodes, host.Leads id pair.1 → pair ∈ nodes

/-- Taking down some children of a folder, one after the other, leaves all but what they lead to, if
taking down each of them does. -/
private theorem Sound.takeDownAll (sound : host.Sound)
    (each : ∀ child nodes, host.Link parent child → host.Standing child nodes →
      ∃ left, takeDown depth child nodes = some left ∧ left.Sublist nodes ∧
        ∀ pair, pair ∈ left ↔ pair ∈ nodes ∧ ¬ host.Leads child pair.1)
    {children : List (Text × NodeId)} (below : ∀ child ∈ children, host.Link parent child.2)
    (once : (children.map Prod.snd).Nodup)
    (stand : ∀ child ∈ children, host.Standing child.2 nodes) :
    ∃ left, children.foldlM (fun left child => takeDown depth child.2 left) nodes = some left ∧
      left.Sublist nodes ∧
      ∀ pair, pair ∈ left ↔ pair ∈ nodes ∧ ∀ child ∈ children, ¬ host.Leads child.2 pair.1 := by
  induction children generalizing nodes with
  | nil => exact ⟨nodes, rfl, .refl nodes, by simp⟩
  | cons first others ih =>
    rw [List.forall_mem_cons] at below stand
    rw [List.map_cons, List.nodup_cons] at once
    obtain ⟨between, run, fewer, kept⟩ := each first.2 nodes below.1 stand.1
    have stand' : ∀ child ∈ others, host.Standing child.2 between := by
      intro child member
      refine ⟨fewer.trans stand.1.fewer, fun pair listed leads => ?_⟩
      refine (kept pair).mpr ⟨(stand.2 child member).whole pair listed leads, fun leads' => ?_⟩
      -- no two siblings lead to one object
      have same := sound.eq_of_siblings below.1 (below.2 child member) leads' leads
      exact once.1 (same ▸ List.mem_map_of_mem member)
    obtain ⟨left, run', fewer', kept'⟩ := ih below.2 once.2 stand'
    refine ⟨left, ?_, fewer'.trans fewer, fun pair => ?_⟩
    · rw [List.foldlM_cons, run]
      exact run'
    · rw [kept', kept, List.forall_mem_cons, and_assoc]

/-- Taking an object down leaves all but what it leads to. -/
private theorem Sound.takeDown_standing (sound : host.Sound) (member : id ∈ host.ids)
    (deep : host.nextId ≤ id + depth) (stand : host.Standing id nodes) :
    ∃ left, takeDown depth id nodes = some left ∧ left.Sublist nodes ∧
      ∀ pair, pair ∈ left ↔ pair ∈ nodes ∧ ¬ host.Leads id pair.1 := by
  induction depth generalizing id nodes with
  | zero => exact absurd (sound.below id member) (Nat.not_lt.mpr deep)
  | succ depth ih =>
    obtain ⟨node, known⟩ := sound.exists_node member
    have listed := sound.node?_eq_some_iff.mp known
    have sorted : (nodes.map Prod.fst).Pairwise (· < ·) := sound.sorted.sublist (stand.fewer.map _)
    have found : nodes.lookup id = some node :=
      (lookup_eq_some_iff_mem (sorted.imp Nat.ne_of_lt)).mpr (stand.whole _ listed .refl)
    have link : ∀ {child}, host.Link id child ↔ ∃ name, (name, child) ∈ node.content.children := by
      intro child
      constructor
      · rintro ⟨name, member⟩
        obtain ⟨holder, known', below⟩ := sound.mem_links_iff.mp member
        rw [known] at known'
        cases known'
        exact ⟨name, below⟩
      · rintro ⟨name, below⟩
        exact sound.link_of_mem known below
    have once : (node.content.children.map Prod.snd).Nodup := by
      have own : (linksOf (id, node)).Sublist host.links :=
        List.sublist_flatten_of_mem (List.mem_map_of_mem listed)
      have single := sound.single.sublist (own.map (·.2.2))
      rwa [linksOf, List.map_map] at single
    have each : ∀ child nodes, host.Link id child → host.Standing child nodes →
        ∃ left, takeDown depth child nodes = some left ∧ left.Sublist nodes ∧
          ∀ pair, pair ∈ left ↔ pair ∈ nodes ∧ ¬ host.Leads child pair.1 := by
      intro child nodes step stand
      refine ih (sound.mem_ids_of_link step) ?_ stand
      calc
        host.nextId ≤ id + (depth + 1) := deep
        _ = id + 1 + depth := by rw [Nat.add_comm depth, Nat.add_assoc]
        _ ≤ child + depth := Nat.add_le_add_right (sound.lt_of_link step) depth
    obtain ⟨left, run, fewer, kept⟩ := sound.takeDownAll each
      (fun child below => sound.link_of_mem known below) once
      fun child below => ⟨stand.fewer, fun pair listed leads =>
        stand.whole pair listed (leads.head (sound.link_of_mem known below))⟩
    refine ⟨left.filter (·.1 ≠ id), ?_, List.filter_sublist.trans fewer, fun pair => ?_⟩
    · simp [takeDown, found, run]
    · have ways : host.Leads id pair.1 ↔ id = pair.1 ∨ ∃ child, host.Link id child ∧
          host.Leads child pair.1 := Relation.ReflTransGen.cases_head_iff
      rw [List.mem_filter, kept, decide_eq_true_iff, ways, not_or, and_assoc]
      refine and_congr_right fun _ => ?_
      rw [and_comm, ne_comm]
      refine and_congr_right fun _ => ?_
      constructor
      · rintro apart ⟨child, step, leads⟩
        obtain ⟨name, below⟩ := link.mp step
        exact apart _ below leads
      · rintro apart ⟨name, child⟩ below leads
        exact apart ⟨child, link.mpr ⟨name, below⟩, leads⟩

/-- The one pass removes what the descent takes down. -/
private theorem Sound.takeDown_eq_prune (sound : host.Sound) (member : id ∈ host.ids)
    (deep : host.nextId ≤ id + depth) :
    takeDown depth id host.nodes = some (prune [id] host.nodes) := by
  obtain ⟨left, run, fewer, kept⟩ := sound.takeDown_standing member deep
    ⟨.refl _, fun pair listed _ => listed⟩
  have ids : (host.nodes.map Prod.fst).Nodup := sound.sorted.imp Nat.ne_of_lt
  have once : host.nodes.Nodup := ids.of_map
  have same : left.Perm (prune [id] host.nodes) :=
    (List.perm_ext_iff_of_nodup (once.sublist fewer) (once.sublist (prune_sublist _ _))).mpr
      fun pair => (kept pair).trans sound.mem_prune_iff.symm
  have equal := (List.Nodup.perm_iff_eq_of_sublist once fewer (prune_sublist _ _)).mp same
  rw [run, equal]

end

/-- Taking an object down once its folder has lost the link to it removes what `without` does. -/
theorem Sound.takeDown_unlink (sound : host.Sound) {path : Path}
    (located : host.locate? path = some id) (below : path.elements ≠ []) :
    takeDown host.nextId id (host.unlink path).nodes = some (host.without path id).nodes := by
  obtain ⟨parent, top, located', known, folder, link⟩ := sound.exists_link located below
  unfold Host.without
  rw [unlink_eq located']
  obtain ⟨sound', -⟩ := sound.filterChildren known folder fun child => child.1 ≠ path.name
  have member : id ∈ (host.updateChildren parent (·.filter (·.1 ≠ path.name))).ids := by
    rw [updateChildren, ids_update]
    exact (sound.upwards _ link).2
  exact sound'.takeDown_eq_prune member (Nat.le_add_left _ _)

/-- The nodes of a host without an object: its folder has lost the link to it, and it has taken
along what it leads to. -/
theorem Sound.node?_without (sound : host.Sound) {path : Path}
    (located : host.locate? path = some id) (below : path.elements ≠ []) :
    ∃ parent, host.locate? path.parent = some parent ∧ (parent, path.name, id) ∈ host.links ∧
      ∀ other holder, (host.without path id).node? other = some holder ↔
        ¬ host.Leads id other ∧ (host.node? other).map (fun node => if other = parent then
            { node with content := node.content.withChildren (·.filter (·.1 ≠ path.name)) }
          else node) = some holder := by
  obtain ⟨parent, top, located', known, folder, link⟩ := sound.exists_link located below
  refine ⟨parent, located', link, fun other holder => ?_⟩
  have sound'' := sound.without located below
  unfold Host.without at sound'' ⊢
  rw [unlink_eq located'] at sound'' ⊢
  obtain ⟨sound', fewer⟩ := sound.filterChildren known folder fun child => child.1 ≠ path.name
  have nodes : ∀ other, (host.updateChildren parent (·.filter (·.1 ≠ path.name))).node? other =
      (host.node? other).map fun node => if other = parent then
        { node with content := node.content.withChildren (·.filter (·.1 ≠ path.name)) } else node :=
    fun other => node?_update other
  -- the way down from the object passes its folder nowhere
  have same : (host.updateChildren parent (·.filter (·.1 ≠ path.name))).Leads id other ↔
      host.Leads id other := by
    constructor
    · intro leads
      induction leads with
      | refl => exact .refl
      | tail _ step ih =>
        obtain ⟨name, member⟩ := step
        exact ih.tail ⟨name, fewer.subset member⟩
    · intro leads
      induction leads with
      | refl => exact .refl
      | @tail between last leads step ih =>
        obtain ⟨name, member⟩ := step
        obtain ⟨before, found, listed⟩ := sound.mem_links_iff.mp member
        have deep : between ≠ parent := by
          have after := sound.lt_of_link ⟨_, link⟩
          exact Nat.ne_of_gt (Nat.lt_of_lt_of_le after (sound.le_of_leads leads))
        refine ih.tail ⟨name, sound'.mem_links_iff.mpr ⟨before, ?_, listed⟩⟩
        rw [nodes, found, Option.map_some, if_neg deep]
  rw [sound''.node?_eq_some_iff, ← nodes, ← same, sound'.node?_eq_some_iff]
  exact sound'.mem_prune_iff.trans and_comm

/-- The links of a host without an object: all but those to what it leads to. -/
theorem Sound.mem_links_without (sound : host.Sound) {path : Path}
    (located : host.locate? path = some id) (below : path.elements ≠ []) :
    (parent, name, child) ∈ (host.without path id).links ↔
      (parent, name, child) ∈ host.links ∧ ¬ host.Leads id child := by
  obtain ⟨top, -, link, nodes⟩ := sound.node?_without located below
  rw [(sound.without located below).mem_links_iff]
  constructor
  · rintro ⟨holder, known, member⟩
    obtain ⟨apart, edited⟩ := (nodes _ _).mp known
    obtain ⟨before, found, rfl⟩ := Option.map_eq_some_iff.mp edited
    have old : (name, child) ∈ before.content.children ∧ (parent = top → name ≠ path.name) := by
      by_cases here : parent = top
      · rw [if_pos here] at member
        have folder := Content.isFolder_of_mem member
        rw [Content.isFolder_withChildren] at folder
        rw [Content.children_withChildren folder, List.mem_filter] at member
        exact ⟨member.1, fun _ => by simpa using member.2⟩
      · rw [if_neg here] at member
        exact ⟨member, fun same => absurd same here⟩
    have listed := sound.mem_links_iff.mpr ⟨before, found, old.1⟩
    refine ⟨listed, fun leads => ?_⟩
    cases leads with
    | refl =>
      have same := List.inj_on_of_nodup_map sound.single listed link rfl
      cases same
      exact old.2 rfl rfl
    | tail leads last =>
      rw [sound.link_unique ⟨name, listed⟩ last] at apart
      exact apart leads
  · rintro ⟨listed, apart⟩
    obtain ⟨before, found, member⟩ := sound.mem_links_iff.mp listed
    refine ⟨_, (nodes _ _).mpr ⟨fun leads => apart (leads.tail ⟨name, listed⟩),
      by rw [found, Option.map_some]⟩, ?_⟩
    by_cases here : parent = top
    · rw [if_pos here, Content.children_withChildren (Content.isFolder_of_mem member),
        List.mem_filter]
      refine ⟨member, decide_eq_true fun same => apart ?_⟩
      have only := List.inj_on_of_nodup_map sound.named listed link (by rw [here, same])
      cases only
      exact .refl
    · rwa [if_neg here]

theorem Sound.mem_ids_without (sound : host.Sound) {path : Path}
    (located : host.locate? path = some id) (below : path.elements ≠ []) :
    other ∈ (host.without path id).ids ↔ other ∈ host.ids ∧ ¬ host.Leads id other := by
  obtain ⟨top, -, -, nodes⟩ := sound.node?_without located below
  constructor
  · intro member
    obtain ⟨holder, known⟩ := (sound.without located below).exists_node member
    obtain ⟨apart, found⟩ := (nodes _ _).mp known
    obtain ⟨before, found, -⟩ := Option.map_eq_some_iff.mp found
    exact ⟨mem_ids_of_node? found, apart⟩
  · rintro ⟨member, apart⟩
    obtain ⟨before, found⟩ := sound.exists_node member
    exact mem_ids_of_node? ((nodes _ _).mpr ⟨apart, by rw [found, Option.map_some]⟩)

end Catwalk.Host
