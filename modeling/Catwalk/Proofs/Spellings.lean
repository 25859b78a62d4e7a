import Catwalk.Host.Query
import Catwalk.Proofs.Changes

/-!
# Spellings of a path

Spellings whose canonical forms have the same components lead to the same object, and neither an
operation nor a question tells them apart (`takesForOne_of_components`). Only the refusal to remove
the root is of another class where two solidi are kept in front.
-/

namespace Catwalk

/-! ## What is seen of a run -/

namespace Act

variable {σ α β : Type} {act act' : Act σ α} {next next' : α → Act σ β} {s t : σ}

/-- What callers see of a run: the value or the class of the fault, and the state that is left. -/
def seen (act : Act σ α) (s : σ) : Except Fault.Kind α × σ :=
  match act s with
  | .ok a t => (.ok a, t)
  | .error fault t => (.error fault.kind, t)

@[simp] theorem seen_throw (fault : Fault) :
    (throw fault : Act σ α).seen s = (.error fault.kind, s) := rfl

@[simp] theorem seen_ofExcept (result : Except Fault α) :
    (ofExcept result : Act σ α).seen s = (result.mapError Fault.kind, s) := by
  cases result <;> rfl

@[simp] theorem seen_get_bind {next : σ → Act σ β} : (get >>= next).seen s = (next s).seen s := rfl

@[simp] theorem seen_throw_bind (fault : Fault) :
    (throw fault >>= next).seen s = (.error fault.kind, s) := rfl

/-- Acts are seen alike when their parts are, each where the one before leaves it. -/
private theorem seen_bind_congr (first : act.seen s = act'.seen s)
    (rest : ∀ a t, act'.seen s = (.ok a, t) → (next a).seen t = (next' a).seen t) :
    (act >>= next).seen s = (act' >>= next').seen s := by
  change seen (EStateM.bind act next) s = seen (EStateM.bind act' next') s
  unfold seen EStateM.bind at *
  cases run : act s <;> cases run' : act' s <;> simp [run, run'] at first rest ⊢
  · obtain ⟨rfl, rfl⟩ := first
    exact rest
  · exact first

end Act

/-- Computations fail alike when their parts do. -/
private theorem mapError_bind_congr {α β : Type} {first first' : Except Fault α}
    {next next' : α → Except Fault β}
    (same : first.mapError Fault.kind = first'.mapError Fault.kind)
    (rest : ∀ a, (next a).mapError Fault.kind = (next' a).mapError Fault.kind) :
    (first >>= next).mapError Fault.kind = (first' >>= next').mapError Fault.kind := by
  cases first <;> cases first' <;> simp [Except.mapError] at same
  · simpa [Except.mapError, bind, Except.bind] using same
  · subst same
    exact rest _

/-! ## Components -/

namespace Path

/-- The components of a text between its solidi, but for empty ones. -/
def components (t : Text) : List Text := (t.split (· = CodePoint.solidus)).filter (· ≠ [])

private theorem components_append_solidus (t rest : Text) :
    components (t ++ CodePoint.solidus :: rest) = components t ++ components rest := by
  unfold components
  rw [Text.split_append_break (by simp), List.filter_append]

private theorem components_of_plain {name : Text} (plain : Plain name) :
    components name = [name] := by
  have uncut : ∀ c ∈ name, decide (c = CodePoint.solidus) = false := by
    intro c member
    have whole := plain.uncut c member
    simp only [isSeparator, Bool.or_eq_false_iff] at whole
    exact whole.1
  simp [components, Text.split_of_uncut uncut, plain.nonempty]

private theorem components_intercalate {names : List Text} (plain : ∀ name ∈ names, Plain name) :
    components (List.intercalate [CodePoint.solidus] names) = names := by
  induction names with
  | nil => rfl
  | cons name names ih =>
    have first := components_of_plain (plain name List.mem_cons_self)
    cases names with
    | nil => simpa using first
    | cons next names =>
      rw [List.intercalate_cons_cons, List.append_assoc, List.singleton_append,
        components_append_solidus, first, ih fun other member => plain other (.tail name member)]
      rfl

/-- The components of a canonical form are the elements of the path, with one solidus in front or
with two. -/
private theorem components_text (t : Text) : components (ofText t).text = (ofText t).elements := by
  have names : components (List.intercalate [CodePoint.solidus] (ofText t).elements) =
      (ofText t).elements := components_intercalate fun _ => plain_of_mem_elements
  have solidus : ∀ rest, components (CodePoint.solidus :: rest) = components rest := by
    intro rest
    exact components_append_solidus [] rest
  unfold text
  cases (ofText t).doubled <;> simp [solidus, names]

end Path

namespace Host

variable {host : Host} {spelling other : Text} {now : Moment}

/-! ## Paths with the same elements -/

section
variable {path path' : Path} (same : path.elements = path'.elements)
include same

private theorem locate?_congr : host.locate? path = host.locate? path' := by
  simp [locate?, same]

private theorem find?_congr : host.find? path = host.find? path' := by
  simp [find?, locate?_congr same]

private theorem name_congr : path.name = path'.name := by
  simp [Path.name, same]

private theorem parent_congr : path.parent.elements = path'.parent.elements := by
  simp [Path.parent, same]

end

private theorem isPlainRoot_of_ne {path : Path} (below : path.elements ≠ []) :
    path.isPlainRoot = false := by
  simp [Path.isPlainRoot, below]

private theorem mapError_checkName (name spelling other : Text) :
    (checkName name spelling).mapError Fault.kind = (checkName name other).mapError Fault.kind := by
  unfold checkName
  by_cases zero : name.contains 0 = true
  · simp only [if_pos zero]
    rfl
  · simp only [if_neg zero]

/-! ## Operations -/

/-- The root is taken, however it is spelt. -/
private theorem seen_link_root (sound : host.Sound) (root : (Path.ofText spelling).elements = [])
    (node : Node) : (link spelling node).seen host = (.error .alreadyExists, host) := by
  obtain ⟨found, known, -⟩ := sound.root
  have taken : host.find? (.ofText spelling) = some found := by
    simp [find?, locate?, root, locateFrom?, known]
  unfold link
  cases plain : (Path.ofText spelling).isPlainRoot <;> simp [plain, taken, Fault.kind]

private theorem seen_link (sound : host.Sound)
    (same : (Path.ofText spelling).elements = (Path.ofText other).elements) (node : Node) :
    (link spelling node).seen host = (link other node).seen host := by
  by_cases root : (Path.ofText spelling).elements = []
  · rw [seen_link_root sound root, seen_link_root sound (same ▸ root)]
  unfold link
  simp only [isPlainRoot_of_ne root, isPlainRoot_of_ne (same ▸ root), Bool.false_eq_true,
    if_false, Act.seen_get_bind, find?_congr same, locate?_congr (parent_congr same),
    name_congr same]
  by_cases taken : (host.find? (.ofText other)).isSome = true
  · simp [taken, Fault.kind]
  simp only [taken]
  cases host.locate? (Path.ofText other).parent with
  | none => simp [Fault.kind]
  | some parent =>
    by_cases folder : (host.node? parent).any (·.content.isFolder) = true
    · simp only [folder, if_true]
      refine Act.seen_bind_congr ?_ fun _ _ _ => rfl
      simp [mapError_checkName _ spelling other]
    · simp [folder, Fault.kind]

/-- Only the text of a fault tells how the path was spelt. -/
private theorem seen_makeMissing (now : Moment) (spelling other : Text) (id : NodeId)
    (elements : List Text) (host : Host) :
    (makeMissing now spelling id elements).seen host =
      (makeMissing now other id elements).seen host := by
  induction elements generalizing id host with
  | nil => rfl
  | cons element elements ih =>
    unfold makeMissing
    simp only [Act.seen_get_bind]
    cases host.childId? id element with
    | some child =>
      by_cases folder : (host.node? child).any (·.content.isFolder) = true
      · simpa [folder] using ih child host
      · simp [folder]
    | none =>
      refine Act.seen_bind_congr ?_ fun _ _ _ => Act.seen_bind_congr rfl fun _ _ _ => ih _ _
      simp [mapError_checkName element spelling other]

private theorem seen_makeDirectory (host : Host) (now : Moment) (existsOk : Bool)
    (same : (Path.ofText spelling).elements = (Path.ofText other).elements) :
    (makeDirectory now spelling existsOk).seen host =
      (makeDirectory now other existsOk).seen host := by
  unfold makeDirectory
  simp only [Act.seen_get_bind, find?_congr same, same]
  cases host.find? (.ofText other) with
  | none => exact seen_makeMissing now _ _ rootId _ host
  | some node =>
    by_cases directory : node.content.isDirectory = true
    · cases existsOk <;> simp [directory, Fault.kind]
    · simp [directory, Fault.kind]

private theorem seen_createFile (sound : host.Sound) (now : Moment) (plan : FilePlan)
    (same : (Path.ofText spelling).elements = (Path.ofText other).elements) :
    (createFile now spelling plan).seen host = (createFile now other plan).seen host := by
  unfold createFile
  by_cases negative : plan.length < 0
  · simp [negative]
  · simp only [negative, if_false]
    cases plan.fileType with
    | none => exact seen_link sound same _
    | some fileType =>
      refine Act.seen_bind_congr rfl fun words t reached => ?_
      obtain rfl : host = t := by simp_all
      exact seen_link sound same _

private theorem seen_createImage (sound : host.Sound) (now : Moment) (plan : ImagePlan)
    (same : (Path.ofText spelling).elements = (Path.ofText other).elements) :
    (createImage now spelling plan).seen host = (createImage now other plan).seen host := by
  unfold createImage
  refine Act.seen_bind_congr rfl fun words t reached => ?_
  obtain rfl : host = t := by simp_all
  exact seen_link sound same _

private theorem seen_setFileType (host : Host) (now : Moment) (fileType : Int)
    (same : (Path.ofText spelling).elements = (Path.ofText other).elements) :
    (setFileType now spelling fileType).seen host =
      (setFileType now other fileType).seen host := by
  unfold setFileType
  by_cases valid : Stamp.isFileType fileType = true
  · simp only [valid, if_true, Act.seen_get_bind, locate?_congr same]
    cases host.locate? (.ofText other) with
    | none => simp [Fault.kind]
    | some id => rfl
  · simp [valid]

private theorem unlink_congr {path path' : Path} (same : path.elements = path'.elements) :
    host.unlink path = host.unlink path' := by
  simp [unlink, locate?_congr (parent_congr same), name_congr same]

private theorem seen_remove (host : Host)
    (same : (Path.ofText spelling).elements = (Path.ofText other).elements) :
    (remove spelling).seen host = (remove other).seen host := by
  unfold remove
  simp only [Act.seen_get_bind, locate?_congr same, find?_congr same, unlink_congr same]
  split
  · next id node located found =>
    by_cases folder : node.content.isFolder = true
    · simp [folder, Fault.kind]
    · simp [folder]
  · simp [Fault.kind]

/-- Below the root. -/
private theorem seen_removeTree (host : Host)
    (same : (Path.ofText spelling).elements = (Path.ofText other).elements)
    (below : (Path.ofText spelling).elements ≠ []) :
    (removeTree spelling).seen host = (removeTree other).seen host := by
  have below' : (Path.ofText other).elements ≠ [] := same ▸ below
  unfold removeTree
  simp only [isPlainRoot_of_ne below, isPlainRoot_of_ne below', List.isEmpty_iff, below, below',
    Bool.false_eq_true, if_false, Act.seen_get_bind, locate?_congr same, find?_congr same,
    unlink_congr same]
  split
  · next id node located found =>
    by_cases folder : node.content.isFolder = true
    · simp [folder]
    · simp [folder, Fault.kind]
  · simp [Fault.kind]

/-- The root is not removed, but only its plain spelling is refused as such. -/
private theorem seen_removeTree_root (sound : host.Sound)
    (root : (Path.ofText spelling).elements = []) : (removeTree spelling).seen host =
      (.error (if (Path.ofText spelling).doubled then .key else .value), host) := by
  obtain ⟨node, known, folder⟩ := sound.root
  have located : host.locate? (.ofText spelling) = some rootId := by
    simp [locate?, root, locateFrom?]
  have found : host.find? (.ofText spelling) = some node := by simp [find?, located, known]
  unfold removeTree
  cases doubled : (Path.ofText spelling).doubled <;>
    simp [Path.isPlainRoot, doubled, root, located, found, folder, Fault.kind]

/-! ## Questions -/

private theorem mapError_require
    (same : (Path.ofText spelling).elements = (Path.ofText other).elements) :
    (host.require spelling).mapError Fault.kind = (host.require other).mapError Fault.kind := by
  unfold require
  rw [find?_congr same]
  cases host.find? (.ofText other) <;> rfl

private theorem mapError_childrenOf
    (same : (Path.ofText spelling).elements = (Path.ofText other).elements) :
    (host.childrenOf spelling).mapError Fault.kind =
      (host.childrenOf other).mapError Fault.kind := by
  refine mapError_bind_congr (mapError_require same) fun node => ?_
  cases node.content <;> rfl

/-- At a moment a host takes two spellings for one. Each operation leaves the same host, and ends
the same way or in a fault of the same class, and so does each question. Neither spelling of the
root gets it removed. -/
structure TakesForOne (host : Host) (now : Moment) (spelling other : Text) : Prop where
  makeDirectory : ∀ existsOk, (Host.makeDirectory now spelling existsOk).seen host =
    (Host.makeDirectory now other existsOk).seen host
  createFile : ∀ plan, (Host.createFile now spelling plan).seen host =
    (Host.createFile now other plan).seen host
  createImage : ∀ plan, (Host.createImage now spelling plan).seen host =
    (Host.createImage now other plan).seen host
  setFileType : ∀ fileType, (Host.setFileType now spelling fileType).seen host =
    (Host.setFileType now other fileType).seen host
  remove : (Host.remove spelling).seen host = (Host.remove other).seen host
  removeTree : (Path.ofText spelling).elements ≠ [] →
    (Host.removeTree spelling).seen host = (Host.removeTree other).seen host
  removeTree_root : (Path.ofText spelling).elements = [] → ∀ root ∈ [spelling, other],
    (Host.removeTree root).seen host =
      (.error (if (Path.ofText root).doubled then .key else .value), host)
  names : (host.names spelling).mapError Fault.kind = (host.names other).mapError Fault.kind
  catalogue : (host.catalogue spelling).mapError Fault.kind =
    (host.catalogue other).mapError Fault.kind
  exists? : host.exists? spelling = host.exists? other
  isFolder : host.isFolder spelling = host.isFolder other
  isFile : host.isFile spelling = host.isFile other
  information : host.information spelling = host.information other
  fileType : (host.fileType spelling).mapError Fault.kind =
    (host.fileType other).mapError Fault.kind
  dateStamp : (host.dateStamp spelling).mapError Fault.kind =
    (host.dateStamp other).mapError Fault.kind
  fileSize : (host.fileSize spelling).mapError Fault.kind =
    (host.fileSize other).mapError Fault.kind

/-- Spellings whose canonical forms have the same components are taken for one. -/
theorem takesForOne_of_components (reachable : host.Reachable) (now : Moment)
    (components : Path.components (Path.ofText spelling).text =
      Path.components (Path.ofText other).text) : host.TakesForOne now spelling other := by
  have sound := sound_of_reachable reachable
  have same : (Path.ofText spelling).elements = (Path.ofText other).elements := by
    simpa only [Path.components_text] using components
  exact {
    makeDirectory := fun existsOk => seen_makeDirectory host now existsOk same
    createFile := fun plan => seen_createFile sound now plan same
    createImage := fun plan => seen_createImage sound now plan same
    setFileType := fun fileType => seen_setFileType host now fileType same
    remove := seen_remove host same
    removeTree := seen_removeTree host same
    removeTree_root := fun root => by
      simp [seen_removeTree_root sound root, seen_removeTree_root sound (same ▸ root)]
    names := mapError_bind_congr (mapError_childrenOf same) fun _ => rfl
    catalogue := mapError_bind_congr (mapError_childrenOf same) fun _ => rfl
    exists? := by simp [Host.exists?, find?_congr same]
    isFolder := by simp [Host.isFolder, find?_congr same]
    isFile := by simp [Host.isFile, find?_congr same]
    information := by simp [Host.information, find?_congr same, name_congr same]
    fileType := mapError_bind_congr (mapError_require same) fun _ => rfl
    dateStamp := mapError_bind_congr (mapError_require same) fun _ => rfl
    fileSize := by
      refine mapError_bind_congr (mapError_require same) fun node => ?_
      cases node.content <;> rfl }

/-- The spellings `//a` and `a\.`. -/
theorem takesForOne_empty :
    Path.components (Path.ofText [0x2F, 0x2F, 0x61]).text =
      Path.components (Path.ofText [0x61, 0x5C, 0x2E]).text ∧
    empty.TakesForOne 0 [0x2F, 0x2F, 0x61] [0x61, 0x5C, 0x2E] := by
  have same : Path.components (Path.ofText [0x2F, 0x2F, 0x61]).text =
      Path.components (Path.ofText [0x61, 0x5C, 0x2E]).text := by decide
  exact ⟨same, takesForOne_of_components reachable_empty 0 same⟩

/-- The root's spellings `/` and `//` have the same components, but removal is not seen alike. -/
theorem removeTree_seen_apart : empty.Reachable ∧
    Path.components (Path.ofText [0x2F]).text = Path.components (Path.ofText [0x2F, 0x2F]).text ∧
    (removeTree [0x2F]).seen empty = (.error .value, empty) ∧
    (removeTree [0x2F, 0x2F]).seen empty = (.error .key, empty) :=
  ⟨reachable_empty, by decide, by decide, by decide⟩

end Host

end Catwalk
