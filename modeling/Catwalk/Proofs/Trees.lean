import Catwalk.Host.Query
import Catwalk.Proofs.Changes
import Catwalk.Proofs.Descents
import Catwalk.Proofs.Progress

/-!
# Trees of a host

The objects below a folder of a sound host make up a forest (`Sound.exists_grows`), and the
catalogues of the host lead through it: the journey through a folder sees every object in its place,
before what is inside it (`Grows.journey`).
-/

namespace Catwalk

/-- Objects in a folder: the first of them, what is inside it, and the others behind it. -/
inductive Forest where
  | nil
  | object (name : Text) (node : Node) (inside others : Forest)

/-- Whether a name is read back as it was stored. -/
def Text.Legible (name : Text) : Prop := (Text.encode? name).map Text.decode = some name

instance (name : Text) : Decidable name.Legible := inferInstanceAs (Decidable (_ = _))

/-- Whether a walk goes into an object. -/
def Settings.entersContent (settings : Settings) : Content → Bool
  | .file _ => false
  | .folder false _ => settings.entersDirectories
  | .folder true _ => settings.entersImages

theorem Settings.enters_entry (settings : Settings) (node : Node) (name : Text) :
    settings.enters (node.entry name).stored.header.objectType =
      settings.entersContent node.content := by
  cases node with
  | mk load exec attributes content =>
    rcases content with length | ⟨_ | _, children⟩
    · rfl
    · rfl
    · rfl

namespace Forest

/-- The entries that list the objects of a folder. -/
def entries : Forest → List Entry
  | nil => []
  | object name node _ others => node.entry name :: others.entries

/-- What a journey through a folder sees when its reads leave out what fails their pattern. -/
def sights (settings : Settings) (path : Text) (depth : Nat) : Forest → List Sight
  | nil => []
  | object name node inside others =>
    if Pattern.matchesName settings.readPattern name then
      ⟨path, node.entry name, depth⟩ ::
        ((if settings.entersContent node.content then
          inside.sights settings (settings.child path name) (depth + 1) else []) ++
        others.sights settings path depth)
    else others.sights settings path depth

end Forest

namespace Host

/-- The children, with all that is below them, make up the forest. -/
inductive Grows (host : Host) : List (Text × NodeId) → Forest → Prop
  | nil : Grows host [] .nil
  | object {name : Text} {id : NodeId} {node : Node} {children : List (Text × NodeId)}
      {inside others : Forest} : host.node? id = some node →
      Grows host node.content.children inside → Grows host children others →
      Grows host ((name, id) :: children) (.object name node inside others)

/-- The entries of a node. -/
def entriesOf (host : Host) (node : Node) : List Entry :=
  node.content.children.filterMap fun (name, id) => (host.node? id).map (·.entry name)

variable {host : Host} {id parent : NodeId} {node : Node} {path : Text}
  {children : List (Text × NodeId)} {forest : Forest} {listing : List Entry}

theorem entriesOf_eq : host.entriesOf node = node.content.children.filterMap fun child =>
    (host.node? child.2).map (·.entry child.1) := rfl

/-- There is one forest to a folder. -/
theorem Grows.unique {other : Forest} (grows : host.Grows children forest)
    (grows' : host.Grows children other) : forest = other := by
  induction grows generalizing other with
  | nil =>
    cases grows'
    rfl
  | object known _ _ inner behind =>
    cases grows' with
    | object known' inside' others' =>
      rw [known] at known'
      cases known'
      rw [inner inside', behind others']

theorem Grows.entriesOf_eq (grows : host.Grows node.content.children forest) :
    host.entriesOf node = forest.entries := by
  unfold entriesOf
  generalize node.content.children = children at grows
  induction grows with
  | nil => rfl
  | object known _ _ _ ih =>
    rw [List.filterMap_cons]
    dsimp only
    rw [known, ih]
    rfl

/-- The objects below a node come to an end. -/
theorem Sound.exists_grows (sound : host.Sound) (known : host.node? id = some node) :
    ∃ forest, host.Grows node.content.children forest := by
  have every : ∀ id node, host.node? id = some node →
      ∃ forest, host.Grows node.content.children forest := by
    intro id
    induction id using sound.descend with
    | step id below =>
      intro node known
      have links : ∀ child ∈ node.content.children, host.Link id child.2 := fun _ =>
        sound.link_of_mem known
      generalize node.content.children = children at links
      induction children with
      | nil => exact ⟨.nil, .nil⟩
      | cons child children ih =>
        obtain ⟨name, inner⟩ := child
        have link := links _ List.mem_cons_self
        obtain ⟨node, known⟩ := sound.exists_node (sound.mem_ids_of_link link)
        obtain ⟨inside, within'⟩ := below inner link node known
        obtain ⟨others, behind⟩ :=
          ih fun child listed => links child (List.mem_cons_of_mem _ listed)
        exact ⟨.object name node inside others, .object known within' behind⟩
  exact every id node known

/-! ## Catalogues -/

theorem catalogue_of_find? (found : host.find? (.ofText path) = some node)
    (folder : node.content.isFolder = true) : host.catalogue path = .ok (host.entriesOf node) := by
  unfold catalogue childrenOf require
  rw [found]
  unfold entriesOf
  cases content : node.content with
  | file length =>
    rw [content] at folder
    cases folder
  | folder isImage children =>
    dsimp only [bind, Except.bind]
    rw [content]
    rfl

/-- What has a catalogue is a folder under that path. -/
theorem exists_folder_of_catalogue (found : host.catalogue path = .ok listing) :
    ∃ id node, host.locate? (.ofText path) = some id ∧ host.node? id = some node ∧
      node.content.isFolder = true ∧ listing = host.entriesOf node := by
  have listed := found
  unfold catalogue childrenOf require at listed
  cases known : host.find? (.ofText path) with
  | none =>
    rw [known] at listed
    cases listed
  | some node =>
    rw [known] at listed
    dsimp only [bind, Except.bind] at listed
    have folder : node.content.isFolder = true := by
      cases content : node.content with
      | file =>
        rw [content] at listed
        cases listed
      | folder => rfl
    obtain ⟨id, located, known'⟩ := Option.bind_eq_some_iff.mp known
    have same := (catalogue_of_find? known folder).symm.trans found
    exact ⟨id, node, located, known', folder, (Except.ok.inj same).symm⟩

/-- The names of all objects are read back as they were stored. -/
def Legible (host : Host) : Prop := ∀ link ∈ host.links, Text.Legible link.2.1

instance (host : Host) : Decidable host.Legible := inferInstanceAs (Decidable (∀ _ ∈ _, _))

private theorem packable_entry {name : Text} (linkable : Linkable name) (node : Node) :
    (node.entry name).Packable ∧ (0 : UInt8) ∉ (node.entry name).stored.name := by
  obtain ⟨bytes, encoded⟩ := Option.isSome_iff_exists.mp linkable.storable
  have stored : (node.entry name).stored.name = bytes := by
    change (Text.encode? name).getD [] = bytes
    rw [encoded, Option.getD_some]
  rw [← stored] at encoded
  refine ⟨⟨encoded, ?_⟩, Text.zero_not_mem_encode linkable.zero encoded⟩
  change 0 ≤ (node.content.objectType.code : Int) ∧
    (node.content.objectType.code : Int) < 0x100000000
  cases node.content.objectType with
  | notFound => decide
  | file => decide
  | directory => decide
  | image => decide

theorem storable_entry {name : Text} (linkable : Linkable name) (legible : name.Legible)
    (node : Node) : (node.entry name).Storable := by
  obtain ⟨packable, ended⟩ := packable_entry linkable node
  refine ⟨packable.encoded, ended, ?_, packable.objectType⟩
  have encoded : Text.encode? name = some (node.entry name).stored.name := packable.encoded
  unfold Text.Legible at legible
  rw [encoded] at legible
  exact Option.some.inj legible

/-- An entry in a catalogue lists what a link from its folder leads to. -/
theorem Sound.exists_link_of_mem (sound : host.Sound) (found : host.catalogue path = .ok listing)
    {entry : Entry} (member : entry ∈ listing) :
    ∃ id name child node, host.locate? (.ofText path) = some id ∧
      (id, name, child) ∈ host.links ∧ host.node? child = some node ∧
      entry = node.entry name := by
  obtain ⟨id, node, located, known, -, rfl⟩ := exists_folder_of_catalogue found
  obtain ⟨⟨name, child⟩, listed, is⟩ := List.mem_filterMap.mp member
  obtain ⟨inner, known', rfl⟩ := Option.map_eq_some_iff.mp is
  exact ⟨id, name, child, inner, located, sound.mem_links_iff.mpr ⟨node, known, listed⟩, known',
    rfl⟩

theorem Sound.packable (sound : host.Sound) (found : host.catalogue path = .ok listing) :
    ∀ entry ∈ listing, entry.Packable ∧ (0 : UInt8) ∉ entry.stored.name := by
  intro entry member
  obtain ⟨id, name, child, node, -, link, -, rfl⟩ := sound.exists_link_of_mem found member
  exact packable_entry (sound.names _ link) node

theorem Sound.storable (sound : host.Sound) (legible : host.Legible) :
    Catalogue.Storable host.catalogue := by
  intro path listing found entry member
  obtain ⟨id, name, child, node, -, link, -, rfl⟩ := sound.exists_link_of_mem found member
  exact storable_entry (sound.names _ link) (legible _ link) node

/-- Patience for every catalogue of a host. -/
def effort (host : Host) : Nat :=
  (host.nodes.map fun pair => Entry.effort (host.entriesOf pair.2)).foldr (· + ·) 0

theorem Sound.within_effort (sound : host.Sound) : Catalogue.Within host.catalogue host.effort := by
  intro path listing found
  obtain ⟨id, node, -, known, -, rfl⟩ := exists_folder_of_catalogue found
  exact List.single_le_sum (fun _ _ => Nat.zero_le _) _
    (List.mem_map_of_mem (sound.node?_eq_some_iff.mp known))

/-! ## The way through a forest -/

/-- What is below a path under a name is the child by that name. -/
theorem locate?_below {settings : Settings} {name : Text}
    (separator : settings.separator = [CodePoint.solidus]) (plain : Path.Plain name) :
    host.locate? (.ofText (settings.child path name)) =
      (host.locate? (.ofText path)).bind (host.childId? · name) := by
  have elements : (Path.ofText (settings.child path name)).elements =
      (Path.ofText path).elements ++ [name] := by
    unfold Settings.child
    by_cases empty : path.isEmpty = true
    · rw [if_pos empty, List.isEmpty_iff.mp empty]
      exact Path.elements_ofText_name plain
    · rw [if_neg empty, separator]
      exact Path.elements_ofText_below path plain
  unfold locate?
  rw [elements, locateFrom?_append]
  congr 1
  funext id
  rw [locateFrom?]
  cases host.childId? id name <;> rfl

theorem locate?_child (sound : host.Sound) {settings : Settings} {name : Text}
    (separator : settings.separator = [CodePoint.solidus])
    (located : host.locate? (.ofText path) = some parent) {child : NodeId}
    (link : (parent, name, child) ∈ host.links) :
    host.locate? (.ofText (settings.child path name)) = some child := by
  rw [locate?_below separator (sound.names _ link).toPlain, located, Option.bind_some,
    sound.childId?_eq_some_iff.mpr link]

/-- The catalogues lead through the objects below a folder. -/
theorem Grows.journey (sound : host.Sound) {settings : Settings}
    (separator : settings.separator = [CodePoint.solidus]) (grows : host.Grows children forest)
    (depth : Nat) (located : host.locate? (.ofText path) = some parent)
    (links : ∀ child ∈ children, (parent, child) ∈ host.links) :
    Journey host.catalogue settings path depth
      (Entry.listed settings.readPattern forest.entries) (forest.sights settings path depth) := by
  induction grows generalizing path depth parent with
  | nil => exact .done
  | @object name id node children inside others known grows _ inner behind =>
    have later := behind depth located fun child listed =>
      links child (List.mem_cons_of_mem _ listed)
    rw [Forest.entries, Forest.sights]
    by_cases read : Pattern.matchesName settings.readPattern name = true
    · rw [if_pos read]
      unfold Entry.listed
      rw [List.filter_cons_of_pos (by exact read)]
      have enters := settings.enters_entry node name
      by_cases goes : settings.entersContent node.content = true
      · rw [if_pos goes]
        have here := locate?_child sound separator located (links _ List.mem_cons_self)
        have folder : node.content.isFolder = true := by
          cases content : node.content with
          | file length =>
            rw [content] at goes
            cases goes
          | folder isImage children => rfl
        have found : host.find? (.ofText (settings.child path name)) = some node := by
          unfold find?
          rw [here]
          exact known
        refine .into (enters.trans goes)
          ((catalogue_of_find? found folder).trans (congrArg _ grows.entriesOf_eq)) ?_ later
        exact inner (depth + 1) here fun child listed =>
          sound.mem_links_iff.mpr ⟨node, known, listed⟩
      · rw [if_neg goes, List.nil_append]
        exact .pass (enters.trans (eq_false_of_ne_true goes)) later
    · rw [if_neg read]
      unfold Entry.listed
      rw [List.filter_cons_of_neg (by exact read)]
      exact later

/-- A folder has a forest in it, and a journey through that. -/
theorem Sound.exists_journey (sound : host.Sound) {settings : Settings}
    (separator : settings.separator = [CodePoint.solidus]) (folder : host.isFolder path = true) :
    ∃ node forest, host.find? (.ofText path) = some node ∧
      (∃ id, ∀ child ∈ node.content.children, (id, child) ∈ host.links) ∧
      host.Grows node.content.children forest ∧ host.catalogue path = .ok forest.entries ∧
      Journey host.catalogue settings path 1 (Entry.listed settings.readPattern forest.entries)
        (forest.sights settings path 1) := by
  obtain ⟨node, found, folder⟩ := (Option.any_eq_true _ _).mp folder
  obtain ⟨id, located, known⟩ := Option.bind_eq_some_iff.mp found
  obtain ⟨forest, grows⟩ := sound.exists_grows known
  have links : ∀ child ∈ node.content.children, (id, child) ∈ host.links := fun child listed =>
    sound.mem_links_iff.mpr ⟨node, known, listed⟩
  exact ⟨node, forest, found, ⟨id, links⟩, grows,
    (catalogue_of_find? found folder).trans (congrArg _ grows.entriesOf_eq),
    grows.journey sound separator 1 located links⟩

end Host

end Catwalk
