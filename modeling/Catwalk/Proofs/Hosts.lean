import Catwalk.Host.Edit
import Catwalk.Proofs.Names
import Catwalk.Proofs.Outcomes
import Mathlib.Data.List.Nodup

/-!
# Sound hosts

The links of a host lead from a folder's number by a name to a child's number. A host is sound if
links lead upwards to nodes that exist, no two lead to one node or from one node by one name, and
their names are elements of paths that can be stored (`Sound`).
-/

namespace Catwalk

/-- Keys that occur once are looked up. -/
theorem lookup_eq_some_iff_mem {α β : Type} [BEq α] [LawfulBEq α] {pairs : List (α × β)}
    (once : (pairs.map Prod.fst).Nodup) {key : α} {value : β} :
    pairs.lookup key = some value ↔ (key, value) ∈ pairs := by
  induction pairs with
  | nil => simp
  | cons pair pairs ih =>
    obtain ⟨first, second⟩ := pair
    rw [List.map_cons, List.nodup_cons] at once
    by_cases same : key = first
    · subst same
      rw [List.lookup_cons_self, List.mem_cons]
      constructor
      · rintro ⟨⟩
        exact .inl rfl
      · rintro (same | member)
        · cases same
          rfl
        · exact absurd (List.mem_map_of_mem member) once.1
    · have other : (key == first) = false := by simpa using same
      rw [List.lookup_cons, other, ih once.2, List.mem_cons]
      simp [same]

namespace Host

/-- A name that a link may have. -/
structure Linkable (name : Text) : Prop extends Path.Plain name where
  storable : (Text.encode? name).isSome = true
  zero : (0 : CodePoint) ∉ name

/-- The links of a node. -/
def linksOf (pair : NodeId × Node) : List (NodeId × Text × NodeId) :=
  pair.2.content.children.map fun child => (pair.1, child)

/-- The links of a host: from a node, by a name, to a node. -/
def links (host : Host) : List (NodeId × Text × NodeId) := host.nodes.flatMap linksOf

/-- The numbers of a host's nodes. -/
def ids (host : Host) : List NodeId := host.nodes.map Prod.fst

/-- The invariant of hosts. -/
structure Sound (host : Host) : Prop where
  sorted : host.ids.Pairwise (· < ·)
  below : ∀ id ∈ host.ids, id < host.nextId
  root : ∃ node, host.node? rootId = some node ∧ node.content.isFolder = true
  upwards : ∀ link ∈ host.links, link.1 < link.2.2 ∧ link.2.2 ∈ host.ids
  names : ∀ link ∈ host.links, Linkable link.2.1
  single : (host.links.map (·.2.2)).Nodup
  named : (host.links.map fun link => (link.1, link.2.1)).Nodup

variable {host : Host} {id child : NodeId} {node : Node} {name : Text}

theorem mem_links : (id, name, child) ∈ host.links ↔
    ∃ node, (id, node) ∈ host.nodes ∧ (name, child) ∈ node.content.children := by
  unfold links linksOf
  simp only [List.mem_flatMap, List.mem_map, Prod.exists, Prod.mk.injEq]
  constructor
  · rintro ⟨other, node, found, name, child, member, rfl, rfl, rfl⟩
    exact ⟨node, found, member⟩
  · rintro ⟨node, found, member⟩
    exact ⟨id, node, found, name, child, member, rfl, rfl, rfl⟩

theorem mem_of_node? (known : host.node? id = some node) : (id, node) ∈ host.nodes := by
  obtain ⟨before, after, split, -⟩ := List.lookup_eq_some_iff.mp known
  exact split ▸ List.mem_append_right before List.mem_cons_self

theorem mem_ids_of_node? (known : host.node? id = some node) : id ∈ host.ids :=
  List.mem_map.mpr ⟨_, mem_of_node? known, rfl⟩

theorem locateFrom?_append (elements others : List Text) :
    host.locateFrom? id (elements ++ others) =
      (host.locateFrom? id elements).bind (host.locateFrom? · others) := by
  induction elements generalizing id with
  | nil => rfl
  | cons element elements ih =>
    rw [List.cons_append, locateFrom?, locateFrom?]
    cases host.childId? id element with
    | none => rfl
    | some child => exact ih

namespace Sound

theorem node?_eq_some_iff (sound : host.Sound) :
    host.node? id = some node ↔ (id, node) ∈ host.nodes :=
  lookup_eq_some_iff_mem (sound.sorted.imp Nat.ne_of_lt)

theorem mem_links_iff (sound : host.Sound) : (id, name, child) ∈ host.links ↔
    ∃ node, host.node? id = some node ∧ (name, child) ∈ node.content.children := by
  rw [mem_links]
  simp only [sound.node?_eq_some_iff]

theorem exists_node (sound : host.Sound) (known : id ∈ host.ids) :
    ∃ node, host.node? id = some node := by
  obtain ⟨⟨_, node⟩, member, rfl⟩ := List.mem_map.mp known
  exact ⟨node, sound.node?_eq_some_iff.mpr member⟩

theorem childId?_eq_some_iff (sound : host.Sound) :
    host.childId? id name = some child ↔ (id, name, child) ∈ host.links := by
  have found : ∀ {child}, host.childId? id name = some child → (id, name, child) ∈ host.links := by
    intro child is
    unfold childId? at is
    cases known : host.node? id with
    | none =>
      rw [known] at is
      cases is
    | some node =>
      rw [known] at is
      obtain ⟨before, after, split, -⟩ := List.lookup_eq_some_iff.mp is
      exact mem_links.mpr ⟨node, sound.node?_eq_some_iff.mp known,
        split ▸ List.mem_append_right before List.mem_cons_self⟩
  constructor
  · exact found
  · intro link
    obtain ⟨node, member, listed⟩ := mem_links.mp link
    have some' : (node.content.children.lookup name).isSome = true := by
      rw [List.lookup_isSome_iff]
      exact ⟨_, listed, by simp⟩
    obtain ⟨other, is⟩ := Option.isSome_iff_exists.mp some'
    have is : host.childId? id name = some other := by
      rw [childId?, sound.node?_eq_some_iff.mpr member]
      exact is
    have same := List.inj_on_of_nodup_map sound.named (found is) link rfl
    cases same
    exact is

end Sound

end Host

end Catwalk
