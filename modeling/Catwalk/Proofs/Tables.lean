import Catwalk.Proofs.Changes
import Catwalk.Proofs.Descents

/-!
# Tables of nodes

However operations on a host end, its table holds the root and what the root leads to, and nothing
else (`table_of_reachable`). So the room that an object had is there again when it has gone: a
single object that could be made otherwise is refused for want of space only when the objects below
the root, and the root, are as many as the table may have.
-/

namespace Catwalk

namespace Host

variable {host after : Host} {id : NodeId} {node : Node} {now : Moment}

/-- What changes keep besides soundness: no object is left without a parent, no words are other than
they are made, and the table does not outgrow its limit. -/
structure Rooted (host : Host) : Prop where
  held : ∀ id ∈ host.ids, id ≠ rootId → ∃ parent, host.Link parent id
  worded : ∀ id node, host.node? id = some node → node.Worded
  room : ∀ limit, host.maxNodes = some limit → host.nodes.length ≤ limit

private theorem rooted_of_make? {maxNodes : Option Int} (made : make? maxNodes now = .ok host) :
    host.Rooted := by
  obtain ⟨limit, room, rfl⟩ := exists_of_make? made
  refine ⟨?_, ?_, room⟩
  · intro id member deep
    exact absurd (List.mem_singleton.mp member) deep
  · intro id node known
    have listed := (sound_of_make? made).node?_eq_some_iff.mp known
    cases List.mem_singleton.mp listed
    exact Node.worded_emptyDirectory now

private theorem length_update {change : Node → Node} :
    (host.update id change).nodes.length = host.nodes.length :=
  List.length_map ..

private theorem length_unlink {path : Path} :
    (host.unlink path).nodes.length = host.nodes.length := by
  unfold unlink
  split
  · exact length_update
  · rfl

private theorem maxNodes_unlink {path : Path} : (host.unlink path).maxNodes = host.maxNodes := by
  unfold unlink
  split <;> rfl

namespace Rooted

private theorem grown {parent : NodeId} {name : Text} (rooted : host.Rooted) (sound : host.Sound)
    (slot : host.Slot parent name) (childless : node.content.children = []) (worded : node.Worded) :
    (host.grown parent name node).Rooted := by
  have links := sound.links_grown slot childless
  constructor
  · intro id member deep
    rw [ids_grown, List.mem_append, List.mem_singleton] at member
    rcases member with member | rfl
    · obtain ⟨above, name', link⟩ := rooted.held id member deep
      exact ⟨above, name', links.mem_iff.mpr (List.mem_cons_of_mem _ link)⟩
    · exact ⟨parent, name, links.mem_iff.mpr List.mem_cons_self⟩
  · intro id holder known
    rw [sound.node?_grown] at known
    obtain ⟨before, found, rfl⟩ := Option.map_eq_some_iff.mp known
    have before_worded : before.Worded := by
      by_cases new : id = host.nextId
      · rw [if_pos new] at found
        cases found
        exact worded
      · rw [if_neg new] at found
        exact rooted.worded id before found
    split <;> exact before_worded
  · intro limit limited
    have room := slot.room
    have limited' : host.maxNodes = some limit := limited
    have length : (host.grown parent name node).nodes.length = host.nodes.length + 1 :=
      length_update.trans (List.length_append ..)
    simp only [isFull, limited', decide_eq_false_iff_not] at room
    omega

private theorem retyped {fileType : Nat} (rooted : host.Rooted) (valid : fileType ≤ 0xFFF) :
    (host.update id (·.retyped now fileType)).Rooted := by
  have links : (host.update id (·.retyped now fileType)).links = host.links :=
    links_update fun _ => Node.content_retyped
  constructor
  · intro other member deep
    rw [ids_update] at member
    obtain ⟨parent, name, link⟩ := rooted.held other member deep
    exact ⟨parent, name, by rwa [links]⟩
  · intro other holder known
    rw [node?_update] at known
    obtain ⟨before, found, rfl⟩ := Option.map_eq_some_iff.mp known
    have worded := rooted.worded other before found
    split
    · exact worded.retyped valid
    · exact worded
  · intro limit limited
    rw [length_update]
    exact rooted.room limit limited

private theorem without {path : Path} (rooted : host.Rooted) (sound : host.Sound)
    (located : host.locate? path = some id) (below : path.elements ≠ []) :
    (host.without path id).Rooted := by
  constructor
  · intro other member deep
    obtain ⟨member, apart⟩ := (sound.mem_ids_without located below).mp member
    obtain ⟨parent, name, link⟩ := rooted.held other member deep
    exact ⟨parent, name, (sound.mem_links_without located below).mpr ⟨link, apart⟩⟩
  · intro other holder known
    obtain ⟨parent, -, -, nodes⟩ := sound.node?_without located below
    obtain ⟨before, found, rfl⟩ := Option.map_eq_some_iff.mp ((nodes other holder).mp known).2
    have worded := rooted.worded other before found
    split <;> exact worded
  · intro limit limited
    have limited' : host.maxNodes = some limit := maxNodes_unlink.symm.trans limited
    have fewer : (host.without path id).nodes.length ≤ host.nodes.length :=
      Nat.le_trans (prune_sublist _ _).length_le (Nat.le_of_eq length_unlink)
    exact Nat.le_trans fewer (rooted.room limit limited')

private theorem changed (rooted : host.Rooted) (sound : host.Sound) (changed : host.Changed after) :
    after.Rooted := by
  cases changed with
  | grown slot childless worded => exact rooted.grown sound slot childless worded
  | retyped now id valid => exact rooted.retyped valid
  | without located below => exact rooted.without sound located below

/-- By their numbers: every object has a parent with a lower one. -/
private theorem leads (rooted : host.Rooted) (sound : host.Sound) (member : id ∈ host.ids) :
    host.Leads rootId id := by
  induction id using Nat.strongRecOn with
  | ind id ih =>
    by_cases deep : id = rootId
    · rw [deep]
    · obtain ⟨parent, name, link⟩ := rooted.held id member deep
      obtain ⟨before, known, -⟩ := sound.mem_links_iff.mp link
      have up := sound.lt_of_link ⟨name, link⟩
      exact (ih parent up (mem_ids_of_node? known)).tail ⟨name, link⟩

end Rooted

theorem Sound.mem_ids_root (sound : host.Sound) : rootId ∈ host.ids := by
  obtain ⟨root, known, -⟩ := sound.root
  exact mem_ids_of_node? known

/-- A table of nodes that is a tree: its numbers are those of the root and of what the root leads
to, each once; whatever is not the root is the child of one folder under one name; and so on. -/
structure Intact (host : Host) : Prop where
  once : host.ids.Nodup
  live : ∀ id, id ∈ host.ids ↔ host.Leads rootId id
  root : ∃ node, host.node? rootId = some node ∧ node.content.isFolder = true
  folders : ∀ link ∈ host.links, ∃ node, host.node? link.1 = some node ∧
    node.content.isFolder = true
  distinct : host.links.Nodup
  place : ∀ id ∈ host.ids, id ≠ rootId →
    ∃! place : NodeId × Text, (place.1, place.2, id) ∈ host.links
  acyclic : ∀ id, ¬ Relation.TransGen host.Link id id
  below : ∀ id ∈ host.ids, id < host.nextId
  names : ∀ link ∈ host.links, Linkable link.2.1
  words : ∀ id node, host.node? id = some node →
    node.load.val ≤ 0xFFFFFFFF ∧ node.exec.val ≤ 0xFFFFFFFF ∧ node.Worded
  room : ∀ limit, host.maxNodes = some limit → host.nodes.length ≤ limit

private theorem Rooted.intact (rooted : host.Rooted) (sound : host.Sound) : host.Intact where
  once := sound.sorted.imp Nat.ne_of_lt
  live _ := ⟨rooted.leads sound, sound.mem_ids_of_leads sound.mem_ids_root⟩
  root := sound.root
  folders := by
    rintro ⟨parent, name, child⟩ link
    obtain ⟨node, known, member⟩ := sound.mem_links_iff.mp link
    exact ⟨node, known, Content.isFolder_of_mem member⟩
  distinct := .of_map _ sound.single
  place := by
    intro id member deep
    obtain ⟨parent, name, link⟩ := rooted.held id member deep
    refine ⟨(parent, name), link, fun other link' => ?_⟩
    have same := List.inj_on_of_nodup_map sound.single link' link rfl
    exact Prod.ext (Prod.mk.inj same).1 (Prod.mk.inj (Prod.mk.inj same).2).1
  acyclic := by
    intro id cycle
    have up : ∀ {other}, Relation.TransGen host.Link id other → id < other := by
      intro other chain
      induction chain with
      | single link => exact sound.lt_of_link link
      | tail _ link ih => exact Nat.lt_trans ih (sound.lt_of_link link)
    exact Nat.lt_irrefl id (up cycle)
  below := sound.below
  names := sound.names
  words id node known := ⟨Nat.le_of_lt_succ node.load.isLt, Nat.le_of_lt_succ node.exec.isLt,
    rooted.worded id node known⟩
  room := rooted.room

/-! ## Room for one more -/

/-- The error number of a host that has no space. -/
def noSpace : Int := 28

/-- A path by which one object can be made: it names none, its parent names a folder, and its name
can be stored. -/
structure Vacant (host : Host) (spelling : Text) : Prop where
  free : host.find? (.ofText spelling) = none
  folder : (host.find? (Path.ofText spelling).parent).any (·.content.isFolder) = true
  storable : checkName (Path.ofText spelling).name spelling = .ok ()

/-- An operation that makes one object and has nothing to fear but want of space. -/
inductive Operation.Creates (host : Host) : Operation → Prop
  | file {spelling : Text} {plan : FilePlan} : host.Vacant spelling → plan.Valid →
      Creates host (.createFile spelling plan)
  | image {spelling : Text} {plan : ImagePlan} : host.Vacant spelling →
      Stamp.isFileType plan.fileType = true → Creates host (.createImage spelling plan)

private theorem Vacant.link_meets {spelling : Text} (vacant : host.Vacant spelling)
    (sound : host.Sound)
    (node : Node) : (link spelling node).Meets host (fun _ _ => host.isFull = false)
      fun fault _ => host.isFull = true ∧ fault.number? = some noSpace := by
  obtain ⟨before, found, folder⟩ := (Option.any_eq_true _ _).mp vacant.folder
  obtain ⟨parent, located, known⟩ := Option.bind_eq_some_iff.mp found
  have folder' : (host.node? parent).any (·.content.isFolder) = true := by simp [known, folder]
  refine (link_meets_of_free sound vacant.free located folder' vacant.storable).mono ?_ ?_
  · rintro _ _ ⟨room, -⟩
    exact room
  · rintro _ _ ⟨full, rfl, -⟩
    exact ⟨full, rfl⟩

private theorem Operation.Creates.act_meets {operation : Operation}
    (creates : operation.Creates host) (now : Moment) (sound : host.Sound) :
    (operation.act now).Meets host (fun _ _ => host.isFull = false)
      fun fault _ => host.isFull = true ∧ fault.number? = some noSpace := by
  cases creates with
  | file vacant valid =>
    rw [Operation.act, createFile_eq valid]
    exact vacant.link_meets sound _
  | image vacant valid =>
    rw [Operation.act, createImage_eq valid]
    exact vacant.link_meets sound _

private theorem Rooted.isFull_iff (rooted : host.Rooted) :
    host.isFull = true ↔ host.maxNodes = some host.nodes.length := by
  unfold isFull
  cases limited : host.maxNodes with
  | none => simp
  | some limit =>
    have room := rooted.room limit limited
    simp only [decide_eq_true_eq, Option.some.injEq]
    omega

/-- The table of every host that operations lead to is a tree below the root, and one object more
finds no space exactly when as many objects as the table may have are the root or below it. -/
theorem table_of_reachable (reachable : host.Reachable) :
    host.Intact ∧ ∀ live : List NodeId, live.Nodup → (∀ id, id ∈ live ↔ host.Leads rootId id) →
      ∀ (now : Moment) (operation : Operation), operation.Creates host →
        ((∃ fault after, operation.act now host = .error fault after ∧
            fault.number? = some noSpace) ↔ host.maxNodes = some live.length) ∧
          (host.maxNodes ≠ some live.length → ∃ after, operation.act now host = .ok () after) := by
  obtain ⟨sound, rooted⟩ := reachable.invariant rooted_of_make? fun sound rooted changed =>
    rooted.changed sound changed
  have intact := rooted.intact sound
  refine ⟨intact, fun live once leads now operation creates => ?_⟩
  have count : live.length = host.nodes.length := by
    have same : live.Perm host.ids :=
      (List.perm_ext_iff_of_nodup once intact.once).mpr fun id =>
        (leads id).trans (intact.live id).symm
    exact same.length_eq.trans (List.length_map ..)
  simp only [count, ne_eq, ← rooted.isFull_iff]
  have outcome := creates.act_meets now sound
  cases run : operation.act now host with
  | ok done after =>
    have room := outcome.of_ok run
    simp [room]
  | error fault after =>
    obtain ⟨full, number⟩ := outcome.of_error run
    simp [full, number]

/-- A root with room for one file, and the file. -/
def ofOneFile : Host :=
  ((Operation.createFile [0x2F, 0x61] {}).act 0).leaves
    ⟨some 2, 1, [(rootId, Node.emptyDirectory 0)]⟩

theorem reachable_ofOneFile : ofOneFile.Reachable :=
  .after 0 _ (.made (rfl : make? (some 2) 0 = .ok _))

/-- There is no space for a second file. -/
theorem table_ofOneFile : ofOneFile.Intact ∧ ∃ fault after,
    (Operation.createFile [0x2F, 0x62] {}).act 0 ofOneFile = .error fault after ∧
      fault.number? = some noSpace := by
  obtain ⟨intact, room⟩ := table_of_reachable reachable_ofOneFile
  have creates : (Operation.createFile [0x2F, 0x62] {}).Creates ofOneFile :=
    .file ⟨by decide, by decide, rfl⟩ ⟨by decide, by decide⟩
  have ids : ofOneFile.ids = [0, 1] := by decide
  have live : ∀ id, id ∈ [0, 1] ↔ ofOneFile.Leads rootId id := ids ▸ intact.live
  exact ⟨intact, (room [0, 1] (by decide) live 0 _ creates).1.mpr (by decide)⟩

end Host

end Catwalk
