import Catwalk.Proofs.Plans
import Catwalk.Walk.Tour
import Mathlib.Data.List.Forall2
import Mathlib.Data.List.Induction

/-!
# Traversals

An undisturbed walk over a host shows the objects below its root in pre-order, those that match its
pattern, and nothing else. Each is shown under the names that lead to it from the root, with as many
levels open as there are names.
-/

namespace Catwalk

/-! ## Names put together -/

namespace Text

/-- Names with solidi between them. -/
def joined (names : List Text) : Text := List.intercalate [CodePoint.solidus] names

private theorem joined_cons_cons (first second : Text) (names : List Text) :
    joined (first :: second :: names) =
      first ++ CodePoint.solidus :: joined (second :: names) := rfl

private theorem joined_singleton (name : Text) : joined [name] = name := List.append_nil name

private theorem joined_concat {names : List Text} (some' : names ≠ []) (name : Text) :
    joined (names ++ [name]) = joined names ++ CodePoint.solidus :: name :=
  intercalate_concat _ some' name

private theorem Legible.append_solidus {t u : Text} (front : t.Legible) (back : u.Legible) :
    Legible (t ++ CodePoint.solidus :: u) := by
  obtain ⟨x, encoded, same⟩ := Option.map_eq_some_iff.mp front
  obtain ⟨y, encoded', same'⟩ := Option.map_eq_some_iff.mp back
  refine Option.map_eq_some_iff.mpr ⟨x ++ 0x2F :: y, ?_, ?_⟩
  · have cons : encode? (CodePoint.solidus :: u) = some (0x2F :: y) := by
      rw [encode?, encoded']
      rfl
    rw [encode?_append, encoded, cons]
    rfl
  · rw [decode_append_solidus, same, same']

private theorem legible_joined {names : List Text} (legible : ∀ name ∈ names, name.Legible) :
    (joined names).Legible := by
  induction names with
  | nil => rfl
  | cons first names ih =>
    have here := legible first List.mem_cons_self
    cases names with
    | nil =>
      rw [joined_singleton]
      exact here
    | cons second names =>
      rw [joined_cons_cons]
      exact here.append_solidus (ih fun name member => legible name (List.mem_cons_of_mem _ member))

end Text

/-! ## The way to an object -/

namespace Forest

/-- The names that lead to the objects of a forest, in pre-order: each before what is inside it. An
object is listed if its name `shows`, and what is inside it is listed if its content is one that the
traversal `enters`, whether or not it is listed itself. -/
def preorder (enters : Content → Bool) (shows : Text → Bool) : Forest → List (List Text)
  | nil => []
  | object name node inside others =>
    (if shows name then [[name]] else []) ++
      ((if enters node.content then (inside.preorder enters shows).map (name :: ·) else []) ++
        others.preorder enters shows)

end Forest

/-- The names lead from the root to what is seen. -/
structure Sight.Along (settings : Settings) (root : Text) (sight : Sight) (way : List Text) :
    Prop where
  last : way = way.dropLast ++ [sight.entry.name]
  directory : sight.directory = way.dropLast.foldl settings.child root
  depth : sight.depth = way.length
  stored : Text.decode sight.entry.stored.name = sight.entry.name
  names : ∀ name ∈ way, name ≠ [] ∧ name.Legible

theorem Settings.foldl_child (settings : Settings) {root : Text} (rooted : root ≠ [])
    {way : List Text} (deep : way ≠ []) : way.foldl settings.child root =
      root ++ (settings.separator ++ List.intercalate settings.separator way) := by
  induction way using List.reverseRecOn with
  | nil => exact absurd rfl deep
  | append_singleton way name ih =>
    rw [List.foldl_append, List.foldl_cons, List.foldl_nil]
    by_cases first : way = []
    · subst first
      rw [List.foldl_nil, List.nil_append, List.intercalate_singleton, child,
        if_neg (by simpa using rooted)]
    · rw [ih first, Text.intercalate_concat _ first, child, if_neg (by simp [rooted])]
      simp only [List.append_assoc]

/-! ## Objects that are shown -/

/-- What the reader leaves out is not shown, and nothing is entered then. -/
private theorem Settings.matchesName_eq_false {settings : Settings} {name : Text}
    (left : Pattern.matchesName settings.readPattern name = false) (content : Content) :
    Pattern.matchesName settings.pattern name = false ∧ settings.entersContent content = false := by
  unfold readPattern at left
  by_cases filters : settings.filters = true
  · rw [if_pos filters] at left
    cases left
  · rw [if_neg filters] at left
    refine ⟨left, ?_⟩
    have flat : settings.entersDirectories = false ∧ settings.entersImages = false := by
      cases pattern : settings.pattern with
      | none =>
        rw [pattern] at left
        cases left
      | some pattern' => simpa [Settings.filters, pattern] using filters
    rcases content with length | ⟨_ | _, children⟩
    · rfl
    · exact flat.1
    · exact flat.2

/-- Of what the reader yields, that is shown which matches. -/
private theorem Settings.shows_eq_matchesName {settings : Settings} {sight : Sight}
    (read : Pattern.matchesName settings.readPattern sight.entry.name = true) :
    settings.shows sight = Pattern.matchesName settings.pattern sight.entry.name := by
  unfold shows
  unfold readPattern at read
  by_cases filters : settings.filters = true
  · rw [filters, Bool.true_and, Bool.not_not]
  · rw [if_neg filters] at read
    rw [read, Bool.not_true, Bool.and_false]
    rfl

namespace Host

variable {host : Host} {children : List (Text × NodeId)} {forest : Forest}

/-- What is shown of a forest is listed by its pre-order: what holds of the way to a folder and goes
down every link relates each object that is shown to the way to it. -/
theorem Grows.sights_preorder (grows : host.Grows children forest) (settings : Settings)
    (root : Text) {P : List Text → NodeId → Prop} {R : Sight → List Text → Prop}
    (down : ∀ {trail parent name id}, P trail parent → (parent, name, id) ∈ host.links →
      P (trail ++ [name]) id)
    (here : ∀ {trail parent name id node}, P trail parent → (parent, name, id) ∈ host.links →
      host.node? id = some node →
      R ⟨trail.foldl settings.child root, node.entry name, trail.length + 1⟩ (trail ++ [name]))
    {trail : List Text} {parent : NodeId} (reached : P trail parent)
    (links : ∀ child ∈ children, (parent, child) ∈ host.links) :
    List.Forall₂ R
      ((forest.sights settings (trail.foldl settings.child root) (trail.length + 1)).filter
        settings.shows)
      ((forest.preorder settings.entersContent (Pattern.matchesName settings.pattern)).map
        (trail ++ ·)) := by
  induction grows generalizing trail parent with
  | nil => exact .nil
  | @object name id node children inside others known grows _ inner behind =>
    have link := links _ List.mem_cons_self
    have later := behind reached fun child listed => links child (List.mem_cons_of_mem _ listed)
    rw [Forest.sights, Forest.preorder]
    by_cases read : Pattern.matchesName settings.readPattern name = true
    · rw [if_pos read, List.map_append, List.map_append]
      have deeper : List.Forall₂ R
          ((if settings.entersContent node.content then
            inside.sights settings (settings.child (trail.foldl settings.child root) name)
              (trail.length + 1 + 1) else []).filter settings.shows)
          ((if settings.entersContent node.content then
            (inside.preorder settings.entersContent (Pattern.matchesName settings.pattern)).map
              (name :: ·) else []).map (trail ++ ·)) := by
        by_cases goes : settings.entersContent node.content = true
        · rw [if_pos goes, if_pos goes, List.map_map]
          have below := inner (down reached link) fun child listed =>
            mem_links.mpr ⟨node, mem_of_node? known, listed⟩
          rw [List.foldl_append, List.length_append] at below
          have whole : (trail ++ ·) ∘ (name :: ·) = (trail ++ [name] ++ ·) := by
            funext way
            exact List.append_cons trail name way
          rw [whole]
          exact below
        · rw [if_neg goes, if_neg goes]
          exact .nil
      have rest := List.rel_append deeper later
      dsimp only at rest
      rw [← List.filter_append] at rest
      have shows :
          settings.shows ⟨trail.foldl settings.child root, node.entry name, trail.length + 1⟩ =
            Pattern.matchesName settings.pattern name := Settings.shows_eq_matchesName read
      by_cases shown : Pattern.matchesName settings.pattern name = true
      · rw [if_pos shown, List.filter_cons_of_pos (shows.trans shown)]
        exact .cons (here reached link known) rest
      · rw [if_neg shown, List.filter_cons_of_neg (fun is => shown (shows.symm.trans is))]
        exact rest
    · rw [if_neg read]
      obtain ⟨unmatched, flat⟩ :=
        Settings.matchesName_eq_false (eq_false_of_ne_true read) node.content
      rw [unmatched, flat]
      exact later

/-- What is shown of a forest is listed by its pre-order, and each way leads along its directory. -/
theorem Grows.along (sound : host.Sound) (legible : host.Legible)
    (grows : host.Grows children forest) (settings : Settings) (root : Text)
    (links : ∃ id, ∀ child ∈ children, (id, child) ∈ host.links) (trail : List Text)
    (names : ∀ name ∈ trail, name ≠ [] ∧ name.Legible) :
    List.Forall₂ (Sight.Along settings root)
      ((forest.sights settings (trail.foldl settings.child root) (trail.length + 1)).filter
        settings.shows)
      ((forest.preorder settings.entersContent (Pattern.matchesName settings.pattern)).map
        (trail ++ ·)) := by
  obtain ⟨parent, links⟩ := links
  have down : ∀ {trail : List Text} {parent name id},
      (∀ other ∈ trail, other ≠ [] ∧ other.Legible) → (parent, name, id) ∈ host.links →
        ∀ other ∈ trail ++ [name], other ≠ [] ∧ other.Legible := by
    intro trail parent name id names link other member
    rcases List.mem_append.mp member with member | member
    · exact names other member
    · rw [List.mem_singleton.mp member]
      exact ⟨(sound.names _ link).nonempty, legible _ link⟩
  refine grows.sights_preorder settings root
    (P := fun trail _ => ∀ name ∈ trail, name ≠ [] ∧ name.Legible) down ?_ names links
  intro trail parent name id node names link known
  refine ⟨?_, ?_, ?_, ?_, down names link⟩
  · rw [List.dropLast_concat]
    rfl
  · rw [List.dropLast_concat]
  · rw [List.length_append]
    rfl
  · exact (storable_entry (sound.names _ link) (legible _ link) node).decoded

end Host

namespace Walk

variable {walk : Walk} {settings : Settings} {root : Text} {sight : Sight} {way : List Text}

/-- A name that begins below the directory shown is the stored name. -/
theorem storedName_of_not_lt {shown : Position} {kind : NameKind} {skip : Nat}
    (position : walk.position = .ok (some shown)) (skips : walk.omitted kind = some skip)
    (shallow : ¬ skip < shown.directory.length) :
    walk.storedName kind = .ok shown.storedName := by
  unfold storedName
  rw [position, skips]
  exact if_neg shallow

/-- A name that begins above the object shown has the rest of the directory in front. -/
theorem storedName_of_lt {shown : Position} {kind : NameKind} {skip : Nat} {front : Bytes}
    (position : walk.position = .ok (some shown)) (skips : walk.omitted kind = some skip)
    (deep : skip < shown.directory.length)
    (encoded : Text.encode? (shown.directory.drop skip ++ walk.settings.separator) = some front) :
    walk.storedName kind = .ok (front ++ shown.storedName) := by
  unfold storedName
  rw [position, skips]
  refine (if_pos deep).trans ?_
  rw [encoded]
  rfl

/-- A walk that shows an object tells the way to it. -/
theorem name_subPath (rooted : root ≠ []) (rootLength : walk.rootLength = root.length)
    (separator : walk.settings.separator = [CodePoint.solidus])
    (along : sight.Along walk.settings root way)
    (position : walk.position = .ok (some sight.position)) :
    walk.name .subPath = .ok (Text.joined way) := by
  have skip : walk.omitted .subPath = some (root.length + 1) := by
    rw [omitted, rootLength]
  unfold name
  generalize front : way.dropLast = trail at along
  obtain ⟨last, directory, -, decoded, names⟩ := along
  rw [front] at last directory
  by_cases first : trail = []
  · rw [first, List.foldl_nil] at directory
    have shallow : ¬ root.length + 1 < sight.directory.length := by
      rw [directory]
      exact Nat.not_lt.mpr (Nat.le_succ _)
    rw [storedName_of_not_lt position skip shallow, last, first, List.nil_append,
      Text.joined_singleton, ← decoded]
    rfl
  · have legible : (Text.joined trail).Legible := Text.legible_joined fun name member =>
      (names name (last ▸ List.mem_append_left _ member)).2
    obtain ⟨bytes, encoded, same⟩ := Option.map_eq_some_iff.mp legible
    have long : Text.joined trail ≠ [] := Text.intercalate_ne_nil _ first fun name member =>
      (names name (last ▸ List.mem_append_left _ member)).1
    rw [Settings.foldl_child _ rooted first, separator] at directory
    change sight.directory = root ++ CodePoint.solidus :: Text.joined trail at directory
    have deep : root.length + 1 < sight.directory.length := by
      have positive := List.length_pos_iff.mpr long
      rw [directory, List.length_append, List.length_cons]
      omega
    have rest : sight.directory.drop (root.length + 1) = Text.joined trail := by
      rw [directory, ← List.drop_drop, List.drop_left]
      rfl
    have slash : Text.encode? (sight.directory.drop (root.length + 1) ++ walk.settings.separator) =
        some (bytes ++ [0x2F]) := by
      rw [rest, separator, Text.encode?_append, encoded]
      rfl
    rw [storedName_of_lt position skip deep slash, last, Text.joined_concat first]
    change Except.ok (Text.decode (bytes ++ [0x2F] ++ sight.entry.stored.name)) = _
    rw [List.append_assoc, List.singleton_append, Text.decode_append_solidus, same, decoded]

/-- A tour notes all that is due, and ends on the root. -/
private theorem tour_due_meets {ρ : Type} {reader : Reader ρ} {patience bound limit : Nat}
    {catalogue : Catalogue} {source : ρ → Prop} {world : World ρ} {coming : List Sight}
    {ways : List (List Text)}
    (around : Surroundings reader catalogue source True settings)
    (enough : catalogue.Within patience ∧ bound ≤ patience) (rooted : root ≠ [])
    (separator : settings.separator = [CodePoint.solidus])
    (due : walk.Due catalogue settings root bound coming) (unheld : walk.held = none)
    (along : List.Forall₂ (Sight.Along settings root) coming ways) (long : coming.length ≤ limit)
    (w : (Terms.keeping source True).world world) :
    (tour reader patience limit).Meets (walk, world)
      (fun outcome s => outcome.2 = none ∧
        outcome.1.map (fun stop => (stop.subPath, stop.depth)) =
          ways.map (fun way => (Text.joined way, way.length)) ∧
        s.1.held = none ∧ s.1.Due catalogue settings root bound [])
      fun _ _ => False := by
  induction along generalizing walk world limit with
  | nil =>
    cases limit with
    | zero => exact ⟨rfl, rfl, unheld, due⟩
    | succ limit =>
      unfold tour getWalk
      simp only [Act.meets_bind, Act.meets_get, Act.meets_pure, due.ended.1, if_true]
      exact ⟨trivial, rfl, unheld, due⟩
  | @cons sight way coming ways first along ih =>
    cases limit with
    | zero => exact absurd long (Nat.not_succ_le_zero _)
    | succ limit =>
      obtain ⟨shows, position, depth⟩ := due.shown
      obtain ⟨-, sound, rfl⟩ := due.kept
      have told := name_subPath rooted sound.rootLength separator first position
      unfold tour stop getWalk
      simp only [Act.meets_bind, Act.meets_get, Act.meets_pure, shows, Bool.false_eq_true, if_false,
        Act.meets_ofExcept, told, Act.meets_outcome]
      refine (advance_due_meets around (fun _ => enough) due w).mono ?_ ?_
      · rintro _ s ⟨w, unheld', due'⟩
        refine (ih due' unheld' (Nat.le_of_succ_le_succ long) w).mono ?_ fun _ _ never => never
        rintro ⟨notes, fault⟩ s ⟨ended, told, rest⟩
        refine ⟨ended, ?_, rest⟩
        rw [List.map_cons, List.map_cons, told, depth unheld, first.depth]
      · rintro fault s ⟨-, disturbed, -⟩
        exact absurd trivial disturbed

/-- A start and a tour succeed, with memory without end and without faults, and the tour lists the
objects below the root in pre-order. -/
theorem tour_eq_preorder {host : Host} (reachable : host.Reachable) (legible : host.Legible)
    (plan : Plan) (rooted : plan.path ≠ []) (folder : host.isFolder plan.path = true)
    (flags : 0 ≤ plan.flags ∧ plan.flags < 4) (size : 24 ≤ plan.bufferSize)
    (batch : 1 ≤ plan.maxEntries) :
    ∃ top forest enough, host.find? (.ofText plan.path) = some top ∧
      host.Grows top.content.children forest ∧
      ∀ patience ≥ enough, ∀ limit ≥ enough, ∀ world : World Device, world.Calm host →
        ∃ walk started notes last ended,
          start (Device.reader [CodePoint.solidus]) patience plan world = .ok walk started ∧
          tour (Device.reader [CodePoint.solidus]) patience limit (walk, started) =
            .ok (notes, none) (last, ended) ∧
          notes.map (fun stop => (stop.subPath, stop.depth)) =
            (forest.preorder plan.enters (Pattern.matchesName plan.pattern)).map
              (fun way => (Text.joined way, way.length)) ∧
          last.isEmpty = true ∧ last.depth = 0 ∧ last.path.text = plan.path := by
  have sound := Host.sound_of_reachable reachable
  obtain ⟨settings, planned, follows⟩ := plan.exists_settings [CodePoint.solidus] flags size batch
  obtain ⟨top, forest, found, links, grows, catalogue, journey⟩ :=
    sound.exists_journey follows.separator folder
  have along := grows.along sound legible settings plan.path links [] (by simp)
  rw [follows.enters, show Pattern.matchesName settings.pattern = Pattern.matchesName plan.pattern
    from funext follows.matchesName] at along
  have around := follows.surroundings sound legible
    (Device.reflects host [CodePoint.solidus] True)
  refine ⟨top, forest, host.effort + (forest.sights settings plan.path 1).length, found, grows, ?_⟩
  intro patience patient limit long world calm
  have within' : Catalogue.Within host.catalogue patience := fun path listing found =>
    Nat.le_trans (sound.within_effort path listing found) (by omega)
  have enough : Catalogue.Within host.catalogue patience ∧
      (forest.sights settings plan.path 1).length ≤ patience := ⟨within', by omega⟩
  obtain ⟨walk, started, run, w, unheld, due⟩ :=
    ((start_due_meets planned around (fun _ => enough) catalogue journey (Nat.le_refl _)
      calm.keeping).mono (fun _ _ done => done) fun _ _ failed => failed.2 trivial).exists_ok
  have few : ((forest.sights settings plan.path 1).filter settings.shows).length ≤ limit :=
    Nat.le_trans (List.length_filter_le _ _) (by omega)
  obtain ⟨⟨notes, fault⟩, ⟨last, ended⟩, run', rfl, told, -, due'⟩ :=
    (tour_due_meets around enough rooted follows.separator due unheld along few w).exists_ok
  obtain ⟨empty, -, depth, path⟩ := due'.ended
  refine ⟨walk, started, notes, last, ended, run, run', ?_, empty, depth, path⟩
  rw [told, List.map_map]
  rfl

/-- A tour of the directory `d`, of the file `f` in it and of the file `g`. -/
theorem tour_eq_preorder_of_two_files :
    let plan : Plan := ⟨[0x2F, 0x72], 1, none, 24, 1⟩
    let world : World Device := ⟨⟨none, 0, 0, none⟩, ⟨Host.ofTwoFiles, .host, none, []⟩⟩
    Host.ofTwoFiles.Reachable ∧ Host.ofTwoFiles.Legible ∧
    Host.ofTwoFiles.isFolder plan.path = true ∧
    ∃ enough, ∀ patience ≥ enough, ∀ limit ≥ enough, ∃ walk started notes last ended,
      start (Device.reader [CodePoint.solidus]) patience plan world = .ok walk started ∧
      tour (Device.reader [CodePoint.solidus]) patience limit (walk, started) =
        .ok (notes, none) (last, ended) ∧
      notes.map (fun stop => (stop.subPath, stop.depth)) =
        [([0x64], 1), ([0x64, 0x2F, 0x66], 2), ([0x67], 1)] ∧
      last.isEmpty = true ∧ last.depth = 0 ∧ last.path.text = plan.path := by
  intro plan world
  let file : Node := { Node.emptyDirectory 0 with attributes := 19, content := .file 0 }
  let folder (children : List (Text × NodeId)) : Node :=
    { Node.emptyDirectory 0 with content := .folder false children }
  have legible : Host.ofTwoFiles.Legible := by decide +kernel
  have isFolder : Host.ofTwoFiles.isFolder plan.path = true := by decide +kernel
  refine ⟨Host.reachable_ofTwoFiles, legible, isFolder, ?_⟩
  obtain ⟨top, forest, enough, found, grows, tours⟩ :=
    tour_eq_preorder Host.reachable_ofTwoFiles legible plan (by decide) isFolder
      (by decide) (by decide) (by decide)
  have known : Host.ofTwoFiles.find? (.ofText plan.path) =
      some (folder [([0x64], 2), ([0x67], 4)]) := by decide +kernel
  have inside : Host.ofTwoFiles.Grows (folder [([0x66], 3)]).content.children
      (.object [0x66] file .nil .nil) := .object (by decide +kernel) .nil .nil
  have grows' : Host.ofTwoFiles.Grows (folder [([0x64], 2), ([0x67], 4)]).content.children
      (.object [0x64] (folder [([0x66], 3)]) (.object [0x66] file .nil .nil)
        (.object [0x67] file .nil .nil)) :=
    .object (by decide +kernel) inside (.object (by decide +kernel) .nil .nil)
  rw [known] at found
  cases found
  rw [grows.unique grows'] at tours
  refine ⟨enough, fun patience patient limit long => ?_⟩
  exact tours patience patient limit long world ⟨⟨rfl, rfl⟩, rfl, rfl, rfl⟩

end Walk

end Catwalk
