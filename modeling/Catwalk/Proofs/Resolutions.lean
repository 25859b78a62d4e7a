import Catwalk.Proofs.Retries
import Catwalk.Proofs.Sightings

/-!
# Paths that are shown

Over a host that stays as it is, the path that a walk tells of an object leads to that object in the
host, however the root is spelt, and what the walk tells of the object is what the host tells of the
path (`confirms_of_roamed`). Calls may fail on the way, and resets may come in between.
-/

namespace Catwalk

/-! ## Paths -/

namespace Host

variable {host : Host} {top id parent : NodeId} {node : Node} {name root : Text} {way : List Text}
  {settings : Settings}

/-- A way below a path leads to what the path with the names of the way behind it names. -/
private theorem locate?_pathOf (separator : settings.separator = [CodePoint.solidus])
    (plain : ∀ name ∈ way, Path.Plain name) :
    host.locate? (.ofText (settings.pathOf root way)) =
      (host.locate? (.ofText root)).bind (host.locateFrom? · way) := by
  induction way using List.reverseRecOn with
  | nil => simp [Settings.pathOf, locateFrom?]
  | append_singleton way name ih =>
    have front := ih fun name member => plain name (List.mem_append_left _ member)
    have last := plain name (List.mem_append_right _ List.mem_cons_self)
    rw [Settings.pathOf_concat, locate?_below separator last, front, Option.bind_assoc]
    congr 1
    funext id
    rw [locateFrom?_append]
    congr 1
    funext id
    rw [locateFrom?]
    cases host.childId? id name <;> rfl

/-- What is seen is an object of the host, and a way of names leads to it from a folder. -/
structure Met (host : Host) (settings : Settings) (root : Text) (top : NodeId) (sight : Sight)
    (way trail : List Text) (name : Text) (id : NodeId) (node : Node) : Prop where
  last : way = trail ++ [name]
  directory : sight.directory = settings.pathOf root trail
  entry : sight.entry = node.entry name
  located : host.locateFrom? top way = some id
  known : host.node? id = some node
  names : ∀ name ∈ way, Linkable name ∧ name.Legible

/-- Each object that is shown is met at the way to it. -/
private theorem Grows.met (sound : host.Sound) (legible : host.Legible)
    {children : List (Text × NodeId)} {forest : Forest} (grows : host.Grows children forest)
    (settings : Settings) (root : Text) (links : ∀ child ∈ children, (top, child) ∈ host.links) :
    List.Forall₂ (fun sight way => ∃ trail name id node,
        host.Met settings root top sight way trail name id node)
      ((forest.sights settings root 1).filter settings.shows)
      (forest.preorder settings.entersContent (Pattern.matchesName settings.pattern)) := by
  have down : ∀ {trail : List Text} {parent name id},
      (host.locateFrom? top trail = some parent ∧ ∀ name ∈ trail, Linkable name ∧ name.Legible) →
      (parent, name, id) ∈ host.links → host.locateFrom? top (trail ++ [name]) = some id ∧
        ∀ other ∈ trail ++ [name], Linkable other ∧ other.Legible := by
    rintro trail parent name id ⟨located, names⟩ link
    constructor
    · rw [locateFrom?_append, located, Option.bind_some, locateFrom?,
        sound.childId?_eq_some_iff.mpr link]
      rfl
    · intro other member
      rcases List.mem_append.mp member with member | member
      · exact names other member
      · rw [List.mem_singleton.mp member]
        exact ⟨sound.names _ link, legible _ link⟩
  have here : host.locateFrom? top [] = some top ∧
      ∀ name ∈ ([] : List Text), Linkable name ∧ name.Legible := ⟨rfl, by simp⟩
  have met := grows.sights_preorder settings root
    (P := fun trail parent => host.locateFrom? top trail = some parent ∧
      ∀ name ∈ trail, Linkable name ∧ name.Legible)
    (R := fun sight way => ∃ trail name id node,
      host.Met settings root top sight way trail name id node) down ?_ here links
  · simpa using met
  · intro trail parent name id node reached link known
    obtain ⟨located, names⟩ := down reached link
    exact ⟨trail, name, id, node, rfl, rfl, rfl, located, known, names⟩

/-! ## Answers -/

/-- The lengths and the attributes of all objects are words. -/
def FitsWords (host : Host) : Prop := ∀ pair ∈ host.nodes,
  pair.2.content.length < 0x100000000 ∧
    0 ≤ pair.2.attributes ∧ pair.2.attributes < 0x100000000

instance (host : Host) : Decidable host.FitsWords := inferInstanceAs (Decidable (∀ _ ∈ _, _))

/-- What is told of an object is what the host tells of a path. Directories and images have no
length, and their type is told by the mark at the start of their names. -/
structure Confirms (host : Host) (path leaf : Text) (kind : ObjectType) (told : Information) :
    Prop where
  objectType : (host.information path).objectType = kind.code
  attributes : (host.information path).attributes = told.attributes
  dateStamp : host.dateStamp path = .ok told.dateStamp
  file : kind = ObjectType.file →
    host.fileSize path = .ok told.length ∧ host.fileType path = .ok told.fileType
  folder : kind = ObjectType.directory ∨ kind = ObjectType.image → told.length = 0 ∧
    told.fileType =
      if leaf.head? = some 0x21 then Stamp.typeApplication else Stamp.typeDirectory

/-- The header of a record holds the fields of its node. -/
private theorem header_entry (node : Node) (name : Text)
    (length : node.content.length < 0x100000000)
    (attributes : 0 ≤ node.attributes ∧ node.attributes < 0x100000000) :
    (node.entry name).header.load = node.load ∧ (node.entry name).header.exec = node.exec ∧
      (node.entry name).header.length.val = node.content.length ∧
      ((node.entry name).header.attributes.val : Int) = node.attributes ∧
      (node.entry name).header.objectType.val = node.content.objectType.code := by
  refine ⟨Word.ofInt_val node.load, Word.ofInt_val node.exec, Word.val_ofInt length, ?_, ?_⟩
  · change ((Word.ofInt node.attributes).val : Int) = _
    simp only [Word.ofInt]
    omega
  · refine Word.val_ofInt ?_
    cases node.content.objectType <;> decide

private theorem confirms_of_find? {path : Text} {shown : Position}
    (found : host.find? (.ofText path) = some node)
    (header : shown.header = (node.entry name).header)
    (length : node.content.length < 0x100000000)
    (attributes : 0 ≤ node.attributes ∧ node.attributes < 0x100000000) :
    shown.objectType = .ok node.content.objectType ∧
      host.Confirms path (Text.decode shown.storedName) node.content.objectType
        shown.information := by
  obtain ⟨load, exec, long, attributed, typed⟩ := header_entry node name length attributes
  rw [← header] at load exec long attributed typed
  have required : host.require path = .ok node := by simp [require, found]
  refine ⟨?_, ?_, ?_, ?_, ?_, ?_⟩
  · rw [Position.objectType, typed, ObjectType.ofCode?_code]
  · simp [information, found, Node.entry]
  · simp [information, found, Node.entry, Position.information, attributed]
  · simp [dateStamp, required, Position.information, load, exec]
  · cases content : node.content with
    | file size =>
      intro _
      rw [content] at long typed
      have size : host.fileSize path = .ok size := by
        unfold fileSize
        rw [required]
        dsimp only [bind, Except.bind]
        rw [content]
        rfl
      constructor
      · simp [size, Position.information, typed, long, ObjectType.code, Content.objectType,
          Content.length]
      · simp [fileType, required, Position.information, typed, load, ObjectType.code,
          Content.objectType]
    | folder isImage children => cases isImage <;> simp [Content.objectType]
  · cases content : node.content with
    | file size => simp [Content.objectType]
    | folder isImage children =>
      rw [content] at typed
      cases isImage <;>
        simp [Position.information, typed, Content.objectType, ObjectType.code]

end Host

/-! ## Walks -/

namespace Walk

variable {walk : Walk} {shown : Position} {plan : Plan} {settings : Settings} {n : Nat}

/-- The whole path is that of the directory with the object's own name below it. -/
private theorem tells_path_child (position : walk.position = .ok (some shown))
    (separator : walk.settings.separator = [CodePoint.solidus])
    (legible : shown.directory.Legible) :
    walk.Tells .path (walk.settings.child shown.directory (Text.decode shown.storedName)) := by
  unfold Settings.child
  by_cases empty : shown.directory = []
  · rw [if_pos (by simp [empty])]
    have shallow : ¬ 0 < shown.directory.length := by simp [empty]
    exact tells_of_not_lt position rfl shallow
  · rw [if_neg (by simp [empty]), separator]
    have told : walk.Tells .path _ := tells_of_lt position rfl (List.length_pos_iff.mpr empty)
      separator (by decide) legible
    simpa using told

/-- Of an object that it meets, a walk tells what its host tells of the path to it. -/
private theorem tells_of_met {host : Host} {top id : NodeId} {sight : Sight} {root name : Text}
    {way trail : List Text} {node : Node} (fits : host.FitsWords) (readable : root.Legible)
    (located : host.locate? (.ofText root) = some top)
    (separator : walk.settings.separator = [CodePoint.solidus])
    (met : host.Met walk.settings root top sight way trail name id node)
    (position : walk.position = .ok (some sight.position)) :
    ∃ path told, walk.name .path = .ok path ∧ host.locate? (.ofText path) = some id ∧
      walk.name .leaf = .ok name ∧
      walk.information = .ok (some told, .ok node.content.objectType) ∧
      host.Confirms path name node.content.objectType told := by
  obtain ⟨last, directory, entry, reached, known, names⟩ := met
  have own := names name (last ▸ List.mem_append_right _ List.mem_cons_self)
  have decoded : Text.decode sight.position.storedName = name := by
    change Text.decode sight.entry.stored.name = name
    rw [entry]
    exact (Host.storable_entry own.1 own.2 node).decoded
  have legible : Text.Legible sight.position.directory := by
    change Text.Legible sight.directory
    rw [directory]
    exact walk.settings.legible_pathOf separator (by decide) readable fun name member =>
      (names name (last ▸ List.mem_append_left _ member)).2
  have path : walk.settings.child sight.position.directory (Text.decode sight.position.storedName) =
      walk.settings.pathOf root way := by
    rw [decoded, last, Settings.pathOf_concat, ← directory]
    rfl
  have resolves : host.locate? (.ofText (walk.settings.pathOf root way)) = some id := by
    rw [Host.locate?_pathOf separator fun name member => (names name member).1.toPlain, located]
    exact reached
  have found : host.find? (.ofText (walk.settings.pathOf root way)) = some node := by
    rw [Host.find?, resolves]
    exact known
  obtain ⟨length, attributes⟩ := fits _ (Host.mem_of_node? known)
  have header : sight.position.header = (node.entry name).header := congrArg Entry.header entry
  obtain ⟨kind, confirms⟩ := Host.confirms_of_find? found header length attributes
  refine ⟨walk.settings.pathOf root way, sight.position.information, ?_, resolves, ?_, ?_, ?_⟩
  · rw [← path]
    exact (tells_path_child position separator legible).told
  · rw [← decoded]
    exact (tells_leaf position).told
  · rw [Walk.information, position]
    change Except.ok (some sight.position.information, sight.position.objectType) = _
    rw [kind]
  · rwa [decoded] at confirms

/-- A plan that a walk has come of was in order. -/
private theorem Roamed.planned {ρ : Type} {reader : Reader ρ} {source : ρ → Prop}
    (roamed : Roamed reader source plan n walk) :
    ∃ settings, plan.settings? reader.separator = .ok settings := by
  induction roamed with
  | @started patience world _ _ _ run =>
    cases checked : plan.settings? reader.separator with
    | ok settings => exact ⟨settings, rfl⟩
    | error fault =>
      have refused : (start reader patience plan).Meets world (fun _ _ => False)
          fun _ _ => True := by
        unfold start
        simp only [Act.meets_bind, Act.meets_ofExcept, checked]
      exact (refused.of_ok run).elim
  | advanced _ _ _ ih | halted _ _ _ ih | reset _ _ _ ih | returned _ _ _ ih => exact ih

/-- A walk that shows an object shows the first that is due. -/
private theorem Due.exists_shown {catalogue : Catalogue} {root : Text} {bound : Nat}
    {sights : List Sight} {ways : List (List Text)} {R : Sight → List Text → Prop}
    (due : walk.Due catalogue settings root bound (sights.drop n))
    (related : List.Forall₂ R sights ways) (shows : walk.isEmpty = false) :
    ∃ sight way, ways[n]? = some way ∧ R sight way ∧
      walk.position = .ok (some sight.position) := by
  have later := List.forall₂_drop n related
  cases coming : sights.drop n with
  | nil =>
    rw [coming] at due
    rw [due.ended.1] at shows
    cases shows
  | cons sight sights =>
    rw [coming] at due later
    cases left : ways.drop n with
    | nil =>
      rw [left] at later
      cases later
    | cons way ways =>
      rw [left] at later
      refine ⟨sight, way, ?_, (List.forall₂_cons.mp later).1, due.shown.2.1⟩
      rw [← List.head?_drop, left]
      rfl

/-- What a walk shows over a reachable host that stays as it is, the path that it tells resolves to:
the object at the way of the pre-order that is due after so many advances. What the walk tells of
the object is what the host tells of the path. -/
theorem confirms_of_roamed {host : Host} (reachable : host.Reachable) (legible : host.Legible)
    (fits : host.FitsWords) (plan : Plan) (readable : plan.path.Legible)
    (folder : host.isFolder plan.path = true) :
    ∃ top root forest, host.locate? (.ofText plan.path) = some top ∧ host.node? top = some root ∧
      host.Grows root.content.children forest ∧
      ∀ n walk,
        Roamed (Device.reader [CodePoint.solidus]) (fun device => device.Shows host) plan n walk →
        walk.isEmpty = false →
        ∃ way id node path leaf told,
          (forest.preorder plan.enters (Pattern.matchesName plan.pattern))[n]? = some way ∧
          way.getLast? = some leaf ∧ host.locateFrom? top way = some id ∧
          host.node? id = some node ∧
          walk.name .path = .ok path ∧ host.locate? (.ofText path) = some id ∧
          walk.name .leaf = .ok leaf ∧
          walk.information = .ok (some told, .ok node.content.objectType) ∧
          host.Confirms path leaf node.content.objectType told := by
  have sound := Host.sound_of_reachable reachable
  obtain ⟨root, found, -⟩ := (Option.any_eq_true _ _).mp folder
  obtain ⟨top, located, known⟩ := Option.bind_eq_some_iff.mp found
  obtain ⟨forest, grows⟩ := sound.exists_grows known
  refine ⟨top, root, forest, located, known, grows, ?_⟩
  intro n walk roamed shows
  obtain ⟨settings, planned⟩ := roamed.planned
  have follows := Plan.follows_of_settings? planned
  have separator : settings.separator = [CodePoint.solidus] := follows.separator
  obtain ⟨root', forest', found', -, grows', catalogue, journey⟩ :=
    sound.exists_journey separator folder
  cases found.symm.trans found'
  cases grows.unique grows'
  have due := roamed.due
    (follows.surroundings sound legible (Device.reflects_wild host [CodePoint.solidus])) planned
    catalogue journey
  obtain ⟨-, -, same⟩ := due.kept
  have met := grows.met sound legible settings plan.path fun child listed =>
    sound.mem_links_iff.mpr ⟨root, known, listed⟩
  rw [follows.enters, show Pattern.matchesName settings.pattern = Pattern.matchesName plan.pattern
    from funext follows.matchesName] at met
  obtain ⟨sight, way, due', ⟨trail, name, id, node, met⟩, position⟩ := due.exists_shown met shows
  subst same
  obtain ⟨path, told, whole, resolves, leaf, informs, confirms⟩ :=
    tells_of_met fits readable located separator met position
  have last : way.getLast? = some name := by
    rw [met.last]
    exact List.getLast?_concat
  exact ⟨way, id, node, path, name, told, due', last, met.located, met.known, whole, resolves, leaf,
    informs, confirms⟩

/-- A walk on the file `f` in the directory `d`, below the root spelt `r/.`. -/
theorem confirms_of_roamed_below_dot :
    let plan : Plan := ⟨[0x72, 0x2F, 0x2E], 1, none, 24, 1⟩
    let cell (kind attributes name : UInt8) : Bytes :=
      [0, 0xFD, 0xFF, 0xFF, 0, 0, 0, 0, 0, 0, 0, 0,
        attributes, 0, 0, 0, kind, 0, 0, 0, name, 0, 0, 0]
    let onFile : Walk :=
      ⟨⟨true, false, none, 24, 1, [0x2F]⟩,
        ⟨[0x72, 0x2F, 0x2E, 0x2F, 0x64], [0x72, 0x2F, 0x2E], 64⟩, 3,
        [⟨5, cell 1 19 0x66, -1, some ⟨0, 1, 0⟩⟩, ⟨3, cell 2 3 0x64, 1, none⟩], none, false⟩
    let path : Text := [0x72, 0x2F, 0x2E, 0x2F, 0x64, 0x2F, 0x66]
    Host.ofTwoFiles.Reachable ∧ Host.ofTwoFiles.Legible ∧ Host.ofTwoFiles.FitsWords ∧
    plan.path.Legible ∧ Host.ofTwoFiles.isFolder plan.path = true ∧
    Roamed (Device.reader [CodePoint.solidus]) (fun device => device.Shows Host.ofTwoFiles) plan 1
      onFile ∧
    onFile.isEmpty = false ∧ onFile.name .path = .ok path ∧
    ∃ node told, Host.ofTwoFiles.find? (.ofText path) = some node ∧
      onFile.information = .ok (some told, .ok node.content.objectType) ∧
      Host.ofTwoFiles.Confirms path [0x66] node.content.objectType told := by
  intro plan cell onFile path
  let reader := Device.reader [CodePoint.solidus]
  let world : World Device := ⟨⟨none, 0, 0, none⟩, ⟨Host.ofTwoFiles, .host, none, []⟩⟩
  let onFolder : Walk :=
    ⟨⟨true, false, none, 24, 1, [0x2F]⟩, ⟨[0x72, 0x2F, 0x2E], [], 64⟩, 3,
      [⟨3, cell 2 3 0x64, 1, some ⟨0, 1, 0⟩⟩], none, false⟩
  have started : start reader 9 plan world =
      .ok onFolder ((start reader 9 plan).leaves world) := by decide +kernel
  have advanced : advance reader 9 (onFolder, world) =
      .ok () (onFile, ((advance reader 9).leaves (onFolder, world)).2) := by decide +kernel
  have roamed : Roamed reader (fun device => device.Shows Host.ofTwoFiles) plan 1 onFile :=
    .advanced (.started ⟨rfl, rfl⟩ started) ⟨rfl, rfl⟩ advanced
  have legible : Host.ofTwoFiles.Legible := by decide +kernel
  have fits : Host.ofTwoFiles.FitsWords := by decide +kernel
  have readable : plan.path.Legible := by decide
  have folder : Host.ofTwoFiles.isFolder plan.path = true := by decide +kernel
  have told : onFile.name .path = .ok path := by decide +kernel
  refine ⟨Host.reachable_ofTwoFiles, legible, fits, readable, folder, roamed, rfl, told, ?_⟩
  obtain ⟨top, root, forest, -, -, -, shown⟩ :=
    confirms_of_roamed Host.reachable_ofTwoFiles legible fits plan readable folder
  obtain ⟨way, id, node, path', leaf, information, -, -, -, known, whole, resolves, own, informs,
    confirms⟩ := shown 1 onFile roamed rfl
  have name : onFile.name .leaf = .ok [0x66] := by decide +kernel
  cases told.symm.trans whole
  cases name.symm.trans own
  refine ⟨node, information, ?_, informs, confirms⟩
  rw [Host.find?, resolves]
  exact known

end Walk

end Catwalk
