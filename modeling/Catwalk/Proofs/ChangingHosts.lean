import Catwalk.Proofs.Detours
import Catwalk.Proofs.Likenesses
import Catwalk.Proofs.Stirrings
import Catwalk.Proofs.Traversals

/-!
# Walks of a host where files come and go

A walk sees its host only when it reads, so whatever is done to the host between two of its calls,
or in the middle of one, is done before some read. While files are made there and new ones are
removed again, calls succeed, and the objects that were there at first are shown in the order of the
tree, each of them once (`Walk.visits_original`).
-/

namespace Catwalk

/-- A device, and what its host is to become: before each read it becomes the next of these hosts,
as long as there are any. -/
structure ChangingDevice where
  device : Device
  coming : List Host

namespace ChangingDevice

/-- The device when it is read next. -/
def next (changing : ChangingDevice) : Device :=
  match changing.coming with
  | [] => changing.device
  | host :: _ => { changing.device with host }

/-- Lets the host become the next, and answers a call from that. -/
def read (call : ReadCall) (changing : ChangingDevice) : Deposit Batch × ChangingDevice :=
  let (answer, device) := changing.next.read call
  (answer, ⟨device, changing.coming.tail⟩)

/-- The reader of a device whose host does not rest. -/
def reader (separator : Text) : Reader ChangingDevice := ⟨separator, read⟩

end ChangingDevice

namespace Host

/-- Every one of these hosts is what stirring makes of the one before it. -/
def Stirs (original : Host) : Host → List Host → Prop
  | _, [] => True
  | host, next :: later => original.Stirred host next ∧ original.Stirs next later

variable {original host : Host} {coming : List Host}

private theorem Stirs.retains (stirs : original.Stirs host coming) (origin : original.Sound)
    (sound : host.Sound) (retains : original.Retains host) :
    ∀ after ∈ host :: coming, after.Sound ∧ original.Retains after := by
  induction coming generalizing host with
  | nil => exact List.forall_mem_singleton.mpr ⟨sound, retains⟩
  | cons next later ih =>
    obtain ⟨sound', retains'⟩ := stirs.1.retains origin sound retains
    exact List.forall_mem_cons.mpr ⟨⟨sound, retains⟩, ih stirs.2 sound' retains'⟩

end Host

/-- A device without a countdown answers from a host that retains all of the original, and so do all
hosts to come. -/
structure ChangingDevice.Upholds (original : Host) (bound : Nat)
    (changing : ChangingDevice) : Prop where
  source : changing.device.source = .host
  idle : changing.device.countdown = none
  hosts : ∀ host ∈ changing.device.host :: changing.coming,
    (host.Sound ∧ original.Retains host) ∧ host.effort ≤ bound

/-- A world without faults whose host is stirred: a device that shows the host, and memory without
end. -/
structure World.Stirred (original host : Host) (coming : List Host) (world : World ChangingDevice) :
    Prop where
  shows : world.source.device.Shows host
  idle : world.source.device.countdown = none
  endless : world.ledger.Endless
  hosts : world.source.coming = coming
  stirs : original.Stirs host coming

/-- Patience for the catalogues of all these hosts. -/
def Host.efforts (hosts : List Host) : Nat := (hosts.map Host.effort).foldr (· + ·) 0

private theorem Host.effort_le_efforts {host : Host} {hosts : List Host} (member : host ∈ hosts) :
    host.effort ≤ efforts hosts :=
  List.single_le_sum (fun _ _ => Nat.zero_le _) _ (List.mem_map_of_mem member)

namespace ChangingDevice

variable {original : Host} {bound : Nat} {changing : ChangingDevice}

/-- The device is read with one of the hosts that it may have. -/
private theorem Upholds.next (upholds : changing.Upholds original bound) :
    (changing.next.source = .host ∧ changing.next.countdown = none) ∧
      changing.next.host ∈ changing.device.host :: changing.coming ∧
      ∀ host ∈ changing.next.host :: changing.coming.tail,
        host ∈ changing.device.host :: changing.coming := by
  unfold ChangingDevice.next
  cases coming : changing.coming with
  | nil => exact ⟨⟨upholds.source, upholds.idle⟩, List.mem_cons_self, fun host member => member⟩
  | cons host later =>
    refine ⟨⟨upholds.source, upholds.idle⟩, ?_, ?_⟩
    · exact List.mem_cons_of_mem _ List.mem_cons_self
    · exact fun other member => List.mem_cons_of_mem _ member

private theorem Upholds.read (upholds : changing.Upholds original bound) (call : ReadCall) :
    (ChangingDevice.read call changing).2.Upholds original bound ∧
      ∃ host, ((host.Sound ∧ original.Retains host) ∧ host.effort ≤ bound) ∧
        (ChangingDevice.read call changing).1 =
          Device.answerFrom call (host.catalogue call.path) := by
  obtain ⟨⟨source, idle⟩, here, covered⟩ := upholds.next
  have shows : changing.next.Shows changing.next.host := ⟨source, rfl⟩
  obtain ⟨shows', idle', answer⟩ := shows.read call
  refine ⟨⟨shows'.source, idle' idle, ?_⟩, changing.next.host, upholds.hosts _ here, ?_⟩
  · intro host member
    change host ∈ (changing.next.read call).2.host :: changing.coming.tail at member
    rw [shows'.host] at member
    exact upholds.hosts host (covered host member)
  · exact answer.resolve_right fun failed => failed.1 idle

/-- The reader answers from the catalogues of the original, with files behind their entries. -/
private theorem enlarges (origin : original.Sound) (bound : Nat) (separator : Text) :
    (reader separator).Enlarges original.catalogue (Upholds original bound) bound where
  keeps call _ upholds := (upholds.read call).1
  answers call s listing upholds found := by
    obtain ⟨host, ⟨⟨sound, retains⟩, short⟩, answer⟩ := (upholds.read call).2
    obtain ⟨whole, listed, enlarged⟩ := retains.enlarged origin sound short found
    refine ⟨whole, enlarged, answer.trans ?_⟩
    rw [listed]
    rfl

end ChangingDevice

private theorem World.Stirred.keeping {original host : Host} {coming : List Host}
    {world : World ChangingDevice}
    (stirred : world.Stirred original host coming) (origin : original.Sound)
    (sound : host.Sound) (retains : original.Retains host) {bound : Nat}
    (short : Host.efforts (host :: coming) ≤ bound) (calm : Prop) :
    (Terms.keeping (ChangingDevice.Upholds original bound) calm).world world := by
  refine ⟨⟨stirred.shows.source, stirred.idle, ?_⟩, fun _ =>
    ⟨stirred.endless.unlimited, stirred.endless.unarmed⟩⟩
  rw [stirred.shows.host, stirred.hosts]
  exact fun after member => ⟨stirred.stirs.retains origin sound retains after member,
    Nat.le_trans (Host.effort_le_efforts member) short⟩

/-! ## Ways through the host -/

/-- A directory that names lead to from the root, and how many directories there are on the way to
what is in it. -/
def Settings.Reaches (settings : Settings) (root directory : Text) (depth : Nat) : Prop :=
  ∃ trail : List Text, directory = trail.foldl settings.child root ∧ depth = trail.length + 1 ∧
    ∀ name ∈ trail, name ≠ [] ∧ name.Legible

private theorem Settings.Reaches.child {settings : Settings} {root directory : Text} {depth : Nat}
    (reaches : settings.Reaches root directory depth) {name : Text}
    (good : name ≠ [] ∧ name.Legible) :
    settings.Reaches root (settings.child directory name) (depth + 1) := by
  obtain ⟨trail, rfl, rfl, names⟩ := reaches
  refine ⟨trail ++ [name], ?_, ?_, ?_⟩
  · rw [List.foldl_append]
    rfl
  · rw [List.length_append]
    rfl
  · exact List.forall_mem_append.mpr ⟨names, List.forall_mem_singleton.mpr good⟩

/-- What is in a directory that names lead to is led to by its own name too. -/
private theorem Settings.Reaches.along {settings : Settings} {root : Text} {sight : Sight}
    (reaches : settings.Reaches root sight.directory sight.depth)
    (storable : sight.entry.Storable) (filled : sight.entry.name ≠ []) :
    ∃ way, sight.Along settings root way ∧
      way.foldl settings.child root = settings.child sight.directory sight.entry.name := by
  obtain ⟨trail, directory, depth, names⟩ := reaches
  have legible : sight.entry.name.Legible := by
    unfold Text.Legible
    rw [storable.encoded, Option.map_some, storable.decoded]
  refine ⟨trail ++ [sight.entry.name], ⟨?_, ?_, ?_, storable.decoded, ?_⟩, ?_⟩
  · rw [List.dropLast_concat]
  · rw [List.dropLast_concat]
    exact directory
  · rw [List.length_append]
    exact depth
  · exact List.forall_mem_append.mpr ⟨names, List.forall_mem_singleton.mpr ⟨filled, legible⟩⟩
  · rw [List.foldl_append, directory]
    rfl

/-- Whether a host has the object with a sub path below the root. -/
def Host.knows (host : Host) (root : Text) (told : Text × Nat) : Bool :=
  host.exists? (root ++ CodePoint.solidus :: told.1)

/-- What a walk tells of an object that these names lead to. -/
def Text.noted (way : List Text) : Text × Nat := (joined way, way.length)

private theorem Host.knows_noted {settings : Settings}
    (separator : settings.separator = [CodePoint.solidus]) (host : Host) {root : Text}
    (rooted : root ≠ []) {way : List Text} (deep : way ≠ []) :
    host.knows root (Text.noted way) = host.exists? (way.foldl settings.child root) := by
  rw [settings.foldl_child rooted deep, separator]
  rfl

namespace Host

variable {host : Host} {settings : Settings} {path : Text} {listing : List Entry}

/-- Every object of a listing has a name that can be linked and read. -/
private theorem Sound.good_of_catalogue (sound : host.Sound) (legible : host.Legible)
    (found : host.catalogue path = .ok listing) {entry : Entry} (member : entry ∈ listing) :
    entry.name ≠ [] ∧ entry.name.Legible := by
  obtain ⟨id, node, -, known, -, rfl⟩ := exists_folder_of_catalogue found
  obtain ⟨⟨name, child⟩, listed, is⟩ := List.mem_filterMap.mp member
  obtain ⟨inner, -, rfl⟩ := Option.map_eq_some_iff.mp is
  have link := sound.mem_links_iff.mpr ⟨node, known, listed⟩
  exact ⟨(sound.names _ link).nonempty, legible _ link⟩

/-- What joins a listing was not there. -/
private theorem Sound.not_exists_of_joins (sound : host.Sound)
    (separator : settings.separator = [CodePoint.solidus])
    (found : host.catalogue path = .ok listing) {entry : Entry} (joins : entry.Joins listing) :
    host.exists? (settings.child path entry.name) = false := by
  obtain ⟨id, node, located, known, -, rfl⟩ := exists_folder_of_catalogue found
  unfold exists? find?
  rw [locate?_below separator joins.plain, located, Option.bind_some]
  cases is : host.childId? id entry.name with
  | none => rfl
  | some child =>
    have link := sound.childId?_eq_some_iff.mp is
    obtain ⟨inner, inside⟩ := sound.exists_node (sound.upwards _ link).2
    obtain ⟨node', known', listed⟩ := sound.mem_links_iff.mp link
    rw [known] at known'
    cases known'
    refine absurd rfl (joins.name (inner.entry entry.name) (List.mem_filterMap.mpr ⟨_, listed, ?_⟩))
    dsimp only
    rw [inside]
    rfl

/-- The ways through a forest lead to objects. -/
private theorem Grows.exists_at (sound : host.Sound)
    (separator : settings.separator = [CodePoint.solidus])
    {children : List (Text × NodeId)} {forest : Forest} (grows : host.Grows children forest)
    {parent : NodeId} (located : host.locate? (.ofText path) = some parent)
    (links : ∀ child ∈ children, (parent, child) ∈ host.links) {enters : Content → Bool}
    {shows : Text → Bool} :
    ∀ way ∈ forest.preorder enters shows,
      way ≠ [] ∧ host.exists? (way.foldl settings.child path) = true := by
  induction grows generalizing path parent with
  | nil => exact fun _ never => absurd never List.not_mem_nil
  | @object name id node children inside others known grows _ inner behind =>
    have here := locate?_child sound separator located (links _ List.mem_cons_self)
    intro way member
    rw [Forest.preorder] at member
    rcases List.mem_append.mp member with member | member
    · split at member
      · rw [List.mem_singleton.mp member]
        refine ⟨List.cons_ne_nil _ _, ?_⟩
        change (host.find? (.ofText (settings.child path name))).isSome = true
        unfold find?
        rw [here]
        change (host.node? id).isSome = true
        rw [known]
        rfl
      · cases member
    rcases List.mem_append.mp member with member | member
    · split at member
      · obtain ⟨below, listed, rfl⟩ := List.mem_map.mp member
        refine ⟨List.cons_ne_nil _ _, (inner here (fun child listed => ?_) below listed).2⟩
        exact sound.mem_links_iff.mpr ⟨node, known, listed⟩
      · cases member
    · exact behind located (fun child listed => links child (List.mem_cons_of_mem _ listed))
        way member

end Host

/-! ## Walks -/

namespace Walk

/-- What a walk tells of the object that it shows: its sub path and its depth. It tells nothing when
it shows none. -/
inductive Told (walk : Walk) : List (Text × Nat) → Prop
  | nothing : walk.isEmpty = true → Told walk []
  | object {subPath : Text} : walk.isEmpty = false → walk.name .subPath = .ok subPath →
      Told walk [(subPath, walk.depth)]

/-- How a walk goes whose host is stirred, from its start on. The host is stirred in the course of a
call and between two calls, and what the walk shows before each advance is noted. -/
inductive Toured (original : Host) (plan : Plan) : List (Text × Nat) → Walk → Host → Prop
  | started {coming : List Host} {patience : Nat} {world after : World ChangingDevice}
      {walk : Walk} :
      world.Stirred original original coming →
      start (ChangingDevice.reader [CodePoint.solidus]) patience plan world = .ok walk after →
      Toured original plan [] walk after.source.device.host
  | stirred {seen : List (Text × Nat)} {walk : Walk} {host later : Host} :
      Toured original plan seen walk host → original.Stirred host later →
      Toured original plan seen walk later
  | advanced {seen told : List (Text × Nat)} {walk next : Walk} {host : Host}
      {coming : List Host} {patience : Nat} {world after : World ChangingDevice} :
      Toured original plan seen walk host → walk.Told told →
      world.Stirred original host coming →
      advance (ChangingDevice.reader [CodePoint.solidus]) patience (walk, world) =
        .ok () (next, after) →
      Toured original plan (seen ++ told) next after.source.device.host

/-- All there is to know of a plan and of the host that a walk finds at its start: which settings
follow the plan, and what they let the walk see, in the order of these ways. -/
structure Outset (original : Host) (plan : Plan) (settings : Settings) (sights : List Sight)
    (ways : List (List Text)) : Prop where
  sound : original.Sound
  legible : original.Legible
  rooted : plan.path ≠ []
  planned : plan.settings? [CodePoint.solidus] = .ok settings
  follows : plan.Follows [CodePoint.solidus] settings
  journey : ∃ listing, original.catalogue plan.path = .ok listing ∧
    Journey original.catalogue settings plan.path 1 (Entry.listed settings.readPattern listing)
      sights
  along : List.Forall₂ (Sight.Along settings plan.path) (sights.filter settings.shows) ways
  known : ∀ way ∈ ways, original.knows plan.path (Text.noted way) = true

/-- A walk between two calls. What it has told of the objects that its host had at first are the
ways to some of them, and it is touring on to the others. -/
def Visits (original : Host) (plan : Plan) (settings : Settings) (ways : List (List Text))
    (bound : Nat) (seen : List (Text × Nat)) (walk : Walk) (total : Nat) : Prop :=
  ∃ due shown coming,
    walk.Touring original.catalogue settings (settings.Reaches plan.path) bound plan.path due
      total ∧
    List.Forall₂ (Sight.Along settings plan.path) due coming ∧
    ways = shown ++ coming ∧ seen.filter (original.knows plan.path) = shown.map Text.noted

variable {original host : Host} {plan : Plan} {settings : Settings} {sights : List Sight}
  {ways : List (List Text)} {seen : List (Text × Nat)} {walk : Walk} {world : World ChangingDevice}
  {bound patience total : Nat} {calm : Prop}

/-- A plan in order finds its way through a host. -/
private theorem exists_outset (sound : original.Sound) (legible : original.Legible)
    (rooted : plan.path ≠ []) (folder : original.isFolder plan.path = true)
    (flags : 0 ≤ plan.flags ∧ plan.flags < 4) (size : 24 ≤ plan.bufferSize)
    (batch : 1 ≤ plan.maxEntries) :
    ∃ top forest settings sights, original.find? (.ofText plan.path) = some top ∧
      original.Grows top.content.children forest ∧
      Outset original plan settings sights
        (forest.preorder plan.enters (Pattern.matchesName plan.pattern)) := by
  obtain ⟨settings, planned, follows⟩ := plan.exists_settings [CodePoint.solidus] flags size batch
  obtain ⟨top, forest, found, links, grows, catalogue, journey⟩ :=
    sound.exists_journey follows.separator folder
  have along := grows.along sound legible settings plan.path links [] nofun
  rw [List.map_id'' List.nil_append, follows.enters, show Pattern.matchesName settings.pattern =
    Pattern.matchesName plan.pattern from funext follows.matchesName] at along
  refine ⟨top, forest, settings, forest.sights settings plan.path 1, found, grows, sound, legible,
    rooted, planned, follows, ⟨_, catalogue, journey⟩, along, fun way member => ?_⟩
  obtain ⟨id, located, known⟩ := Option.bind_eq_some_iff.mp found
  obtain ⟨deep, exists'⟩ := grows.exists_at sound follows.separator located (fun child listed =>
    sound.mem_links_iff.mpr ⟨top, known, listed⟩) way member
  rw [Host.knows_noted follows.separator original rooted deep]
  exact exists'

namespace Outset

private theorem surroundings (outset : Outset original plan settings sights ways) (bound : Nat) :
    EnlargedSurroundings (ChangingDevice.reader [CodePoint.solidus]) original.catalogue
      (ChangingDevice.Upholds original bound) bound settings (settings.Reaches plan.path) where
  enlarges := ChangingDevice.enlarges outset.sound bound _
  storable := outset.sound.storable outset.legible
  looks := outset.follows.looks
  room := outset.follows.room
  deeper := fun reaches found member _ _ =>
    reaches.child (outset.sound.good_of_catalogue outset.legible found member)

/-- A walk that has been started has everything still to show. -/
private theorem start_meets (outset : Outset original plan settings sights ways)
    (enough : calm → 2 * bound < patience ∧ workLeft bound sights bound ≤ patience)
    (w : (Terms.keeping (ChangingDevice.Upholds original bound) calm).world world) :
    (start (ChangingDevice.reader [CodePoint.solidus]) patience plan).Meets world
      (fun walk w => (Terms.keeping (ChangingDevice.Upholds original bound) calm).world w ∧
        Visits original plan settings ways bound [] walk (workLeft bound sights bound))
      fun _ w => (Terms.keeping (ChangingDevice.Upholds original bound) calm).world w ∧ ¬ calm := by
  obtain ⟨listing, found, journey⟩ := outset.journey
  refine (start_touring_meets outset.planned (outset.surroundings bound) found ⟨[], rfl, rfl, nofun⟩
    journey enough w).mono ?_ fun _ _ failed => failed
  rintro walk world ⟨w, touring⟩
  exact ⟨w, ⟨_, [], ways, touring, outset.along, rfl, rfl⟩⟩

private theorem exists_start (outset : Outset original plan settings sights ways)
    (coming : List Host) :
    ∃ enough, ∀ patience ≥ enough, ∀ world : World ChangingDevice,
      world.Stirred original original coming → ∃ walk after,
        start (ChangingDevice.reader [CodePoint.solidus]) patience plan world = .ok walk after := by
  obtain ⟨bound, short⟩ : ∃ bound, Host.efforts (original :: coming) ≤ bound := ⟨_, Nat.le_refl _⟩
  refine ⟨2 * bound + 1 + workLeft bound sights bound, fun patience patient world stirred => ?_⟩
  have w := stirred.keeping outset.sound outset.sound (.refl outset.legible) short True
  have enough : 2 * bound < patience ∧ workLeft bound sights bound ≤ patience := by omega
  obtain ⟨walk, after, run, -⟩ :=
    ((outset.start_meets (fun _ => enough) w).mono (fun _ _ done => done)
      fun _ _ failed => failed.2 trivial).exists_ok
  exact ⟨walk, after, run⟩

end Outset

namespace Visits

private theorem enlarge (visits : Visits original plan settings ways bound seen walk total)
    {larger : Nat}
    (le : bound ≤ larger) : ∃ total, Visits original plan settings ways larger seen walk total := by
  obtain ⟨due, shown, coming, touring, rest⟩ := visits
  obtain ⟨total, touring⟩ := touring.enlarge le
  exact ⟨total, due, shown, coming, touring, rest⟩

private theorem opened (visits : Visits original plan settings ways bound seen walk total) :
    walk.closed = false := by
  obtain ⟨_, _, _, touring, -⟩ := visits
  exact touring.opened

/-- A walk that shows nothing has shown all that was there at its start. -/
private theorem ended (visits : Visits original plan settings ways bound seen walk total)
    (bare : walk.isEmpty = true) :
    seen.filter (original.knows plan.path) = ways.map Text.noted := by
  obtain ⟨due, shown, coming, touring, along, rfl, noted⟩ := visits
  obtain ⟨rfl, -⟩ := touring.ended bare
  cases along
  rw [noted, List.append_nil]

/-- A walk that shows something tells its sub path, and an advance leaves less to do. -/
private theorem advance_meets (visits : Visits original plan settings ways bound seen walk total)
    (outset : Outset original plan settings sights ways) (shows : walk.isEmpty = false)
    (calm : Prop) :
    ∃ subPath, walk.name .subPath = .ok subPath ∧ 0 < total ∧ ∀ patience world,
      (calm → 2 * bound < patience ∧ total ≤ patience) →
      (Terms.keeping (ChangingDevice.Upholds original bound) calm).world world →
      (advance (ChangingDevice.reader [CodePoint.solidus]) patience).Meets (walk, world)
        (fun _ s => (Terms.keeping (ChangingDevice.Upholds original bound) calm).world s.2 ∧
          Visits original plan settings ways bound (seen ++ [(subPath, walk.depth)]) s.1
            (total - 1))
        fun _ s =>
          (Terms.keeping (ChangingDevice.Upholds original bound) calm).world s.2 ∧ ¬ calm := by
  obtain ⟨due, shown, coming, touring, along, split, noted⟩ := visits
  obtain ⟨sight, left, takes, position, depth, busy, advances⟩ :=
    touring.advance_meets (outset.surroundings bound) shows calm
  obtain ⟨sound, same⟩ := touring.sound
  subst same
  have separator := outset.follows.separator
  have told : ∀ {way}, sight.Along walk.settings plan.path way →
      walk.name .subPath = .ok (Text.joined way) ∧
        (Text.joined way, walk.depth) = Text.noted way := fun along =>
    ⟨name_subPath outset.rooted sound.rootLength separator along position,
      by rw [depth, along.depth]; rfl⟩
  cases takes with
  | first =>
    cases along with
    | @cons _ way _ coming here along =>
      obtain ⟨named, is⟩ := told here
      refine ⟨_, named, busy, fun patience world enough w => (advances patience world enough w).mono
        ?_ fun _ _ failed => failed⟩
      rintro _ s ⟨w, touring⟩
      refine ⟨w, ⟨_, shown ++ [way], coming, touring, along, ?_, ?_⟩⟩
      · rw [split, List.append_assoc]
        rfl
      · have known := outset.known way (split ▸ List.mem_append_right _ List.mem_cons_self)
        rw [is, List.filter_append, noted, List.filter_cons_of_pos known, List.map_append]
        rfl
  | newcomer new =>
    obtain ⟨reaches, listing, found, joins⟩ := new
    obtain ⟨way, here, whole⟩ := reaches.along joins.storable joins.plain.nonempty
    obtain ⟨named, is⟩ := told here
    refine ⟨_, named, busy, fun patience world enough w => (advances patience world enough w).mono
      ?_ fun _ _ failed => failed⟩
    rintro _ s ⟨w, touring⟩
    refine ⟨w, ⟨_, shown, coming, touring, along, split, ?_⟩⟩
    have deep : way ≠ [] := by
      rw [here.last]
      exact List.concat_ne_nil _ _
    have unknown : original.knows plan.path (Text.noted way) = false := by
      rw [Host.knows_noted separator original outset.rooted deep, whole]
      exact outset.sound.not_exists_of_joins separator found joins
    rw [is, List.filter_append, noted, List.filter_cons_of_neg (by simp [unknown])]
    exact List.append_nil _

private theorem exists_told (visits : Visits original plan settings ways bound seen walk total)
    (outset : Outset original plan settings sights ways) : ∃ told, walk.Told told := by
  cases shows : walk.isEmpty with
  | true => exact ⟨_, .nothing shows⟩
  | false =>
    obtain ⟨subPath, named, -⟩ := visits.advance_meets outset shows True
    exact ⟨_, .object shows named⟩

private theorem exists_advance (visits : Visits original plan settings ways bound seen walk total)
    (outset : Outset original plan settings sights ways)
    (enough : 2 * bound < patience ∧ total ≤ patience)
    (w : (Terms.keeping (ChangingDevice.Upholds original bound) True).world world) :
    ∃ next after, advance (ChangingDevice.reader [CodePoint.solidus]) patience (walk, world) =
      .ok () (next, after) := by
  cases shows : walk.isEmpty with
  | true => exact ⟨walk, world, advance_of_isEmpty visits.opened shows⟩
  | false =>
    obtain ⟨_, _, _, advances⟩ := visits.advance_meets outset shows True
    obtain ⟨_, ⟨next, after⟩, run, -⟩ :=
      ((advances patience world (fun _ => enough) w).mono (fun _ _ done => done)
        fun _ _ failed => failed.2 trivial).exists_ok
    exact ⟨next, after, run⟩

/-- A tour shows the rest of what was there at the start of the walk. -/
private theorem tour_meets (visits : Visits original plan settings ways bound seen walk total)
    (outset : Outset original plan settings sights ways)
    (enough : 2 * bound < patience ∧ total ≤ patience) {limit : Nat} (long : total ≤ limit)
    (w : (Terms.keeping (ChangingDevice.Upholds original bound) True).world world) :
    (tour (ChangingDevice.reader [CodePoint.solidus]) patience limit).Meets (walk, world)
      (fun outcome s => outcome.2 = none ∧ s.1.isEmpty = true ∧
        (seen ++ outcome.1.map fun stop => (stop.subPath, stop.depth)).filter
          (original.knows plan.path) = ways.map Text.noted)
      fun _ _ => False := by
  induction limit generalizing seen walk world total with
  | zero =>
    cases shows : walk.isEmpty with
    | true =>
      refine ⟨rfl, shows, ?_⟩
      rw [List.map_nil, List.append_nil]
      exact visits.ended shows
    | false =>
      obtain ⟨-, -, busy, -⟩ := visits.advance_meets outset shows True
      omega
  | succ limit ih =>
    cases shows : walk.isEmpty with
    | true =>
      unfold tour getWalk
      simp only [Act.meets_bind, Act.meets_get, Act.meets_pure, shows, if_true]
      refine ⟨trivial, trivial, ?_⟩
      rw [List.map_nil, List.append_nil]
      exact visits.ended shows
    | false =>
      obtain ⟨subPath, told, busy, advances⟩ := visits.advance_meets outset shows True
      unfold tour stop getWalk
      simp only [Act.meets_bind, Act.meets_get, Act.meets_pure, shows, Bool.false_eq_true, if_false,
        Act.meets_ofExcept, told, Act.meets_outcome]
      refine (advances patience world (fun _ => enough) w).mono ?_ fun _ _ failed =>
        absurd trivial failed.2
      rintro _ s ⟨w, visits⟩
      refine (ih visits (by omega) (by omega) w).mono ?_ fun _ _ never => never
      rintro ⟨notes, fault⟩ s ⟨ended, empty, whole⟩
      refine ⟨ended, empty, ?_⟩
      rw [List.append_assoc] at whole
      exact whole

end Visits

/-- However a walk has gone, it visits what was there at its start. -/
private theorem Toured.visits (toured : Toured original plan seen walk host)
    (outset : Outset original plan settings sights ways) :
    (host.Sound ∧ original.Retains host) ∧
      ∃ bound total, Visits original plan settings ways bound seen walk total := by
  induction toured with
  | started stirred run =>
    have w := stirred.keeping outset.sound outset.sound (.refl outset.legible) (Nat.le_refl _)
      False
    obtain ⟨w, visits⟩ := (outset.start_meets nofun w).of_ok run
    exact ⟨(w.1.hosts _ List.mem_cons_self).1, _, _, visits⟩
  | stirred _ stirred ih =>
    obtain ⟨⟨sound, retains⟩, visits⟩ := ih
    exact ⟨stirred.retains outset.sound sound retains, visits⟩
  | @advanced seen _ walk next host coming _ world after _ told stirred run ih =>
    obtain ⟨⟨sound, retains⟩, bound, total, visits⟩ := ih
    cases told with
    | nothing bare =>
      rw [advance_of_isEmpty visits.opened bare] at run
      cases run
      rw [List.append_nil, stirred.shows.host]
      exact ⟨⟨sound, retains⟩, bound, total, visits⟩
    | object shows named =>
      obtain ⟨total, visits⟩ :=
        visits.enlarge (Nat.le_max_left bound (Host.efforts (host :: coming)))
      have w := stirred.keeping outset.sound sound retains (Nat.le_max_right bound _) False
      obtain ⟨subPath, named', -, advances⟩ := visits.advance_meets outset shows False
      obtain ⟨w, visits⟩ := (advances _ _ nofun w).of_ok run
      rw [named] at named'
      cases named'
      exact ⟨(w.1.hosts _ List.mem_cons_self).1, _, _, visits⟩

/-- While files are made on a host and new ones are removed, before, in and between the calls of a
walk, every call succeeds. Once no more comes, advances bring the walk to its end, and the objects
that were there at its start are shown in pre-order, each of them once. -/
theorem visits_original {original : Host} (reachable : original.Reachable)
    (legible : original.Legible) (plan : Plan) (rooted : plan.path ≠ [])
    (folder : original.isFolder plan.path = true) (flags : 0 ≤ plan.flags ∧ plan.flags < 4)
    (size : 24 ≤ plan.bufferSize) (batch : 1 ≤ plan.maxEntries) :
    ∃ top forest, original.find? (.ofText plan.path) = some top ∧
      original.Grows top.content.children forest ∧
      (∀ coming, ∃ enough, ∀ patience ≥ enough, ∀ world : World ChangingDevice,
        world.Stirred original original coming → ∃ walk after,
          start (ChangingDevice.reader [CodePoint.solidus]) patience plan world = .ok walk after) ∧
      ∀ seen walk host, Toured original plan seen walk host →
        (∃ told, walk.Told told) ∧
        ∀ coming, ∃ enough, ∀ patience ≥ enough, ∀ world : World ChangingDevice,
          world.Stirred original host coming →
          (∃ next after,
            advance (ChangingDevice.reader [CodePoint.solidus]) patience (walk, world) =
              .ok () (next, after)) ∧
          ∀ limit ≥ enough, ∃ notes last ended,
            tour (ChangingDevice.reader [CodePoint.solidus]) patience limit (walk, world) =
              .ok (notes, none) (last, ended) ∧
            last.isEmpty = true ∧
            (seen ++ notes.map fun stop => (stop.subPath, stop.depth)).filter
                (original.knows plan.path) =
              (forest.preorder plan.enters (Pattern.matchesName plan.pattern)).map
                fun way => (Text.joined way, way.length) := by
  have sound := Host.sound_of_reachable reachable
  obtain ⟨top, forest, settings, sights, found, grows, outset⟩ :=
    exists_outset sound legible rooted folder flags size batch
  refine ⟨top, forest, found, grows, outset.exists_start, fun seen walk host toured => ?_⟩
  obtain ⟨⟨sound', retains⟩, bound, total, visits⟩ := toured.visits outset
  refine ⟨visits.exists_told outset, fun coming => ?_⟩
  obtain ⟨larger, le, le'⟩ : ∃ larger, bound ≤ larger ∧ Host.efforts (host :: coming) ≤ larger :=
    ⟨_, Nat.le_max_left _ _, Nat.le_max_right _ _⟩
  obtain ⟨total, visits⟩ := visits.enlarge le
  refine ⟨2 * larger + 1 + total, fun patience patient world stirred => ?_⟩
  have w := stirred.keeping sound sound' retains le' True
  have enough : 2 * larger < patience ∧ total ≤ patience := by omega
  refine ⟨visits.exists_advance outset enough w, fun limit long => ?_⟩
  obtain ⟨⟨notes, fault⟩, ⟨last, ended⟩, run, rfl, empty, whole⟩ :=
    (visits.tour_meets outset enough (by omega : total ≤ limit) w).exists_ok
  exact ⟨notes, last, ended, run, empty, whole⟩

/-- While a walk is started, a file `x` is made beside the file `f` in the directory `d`, and it is
removed again while the walk goes on. -/
theorem visits_original_of_two_files :
    let plan : Plan := ⟨[0x2F, 0x72], 1, none, 24, 1⟩
    let added : Text := [0x2F, 0x72, 0x2F, 0x64, 0x2F, 0x78]
    let fuller := ((Host.Operation.createFile added {}).act 0).leaves Host.ofTwoFiles
    let emptied := ((Host.Operation.remove added).act 0).leaves fuller
    let world (host : Host) (coming : List Host) : World ChangingDevice :=
      ⟨⟨none, 0, 0, none⟩, ⟨⟨host, .host, none, []⟩, coming⟩⟩
    Host.ofTwoFiles.Reachable ∧ Host.ofTwoFiles.Legible ∧
    Host.ofTwoFiles.isFolder plan.path = true ∧
    ∃ walk started,
      start (ChangingDevice.reader [CodePoint.solidus]) 9 plan (world Host.ofTwoFiles [fuller]) =
        .ok walk started ∧
      started.source.device.host = fuller ∧
      ∃ enough, ∀ patience ≥ enough, ∀ limit ≥ enough, ∃ notes last ended,
        tour (ChangingDevice.reader [CodePoint.solidus]) patience limit
          (walk, world fuller [fuller, fuller, emptied]) = .ok (notes, none) (last, ended) ∧
        last.isEmpty = true ∧
        (notes.map fun stop => (stop.subPath, stop.depth)).filter
            (Host.ofTwoFiles.knows plan.path) =
          [([0x64], 1), ([0x64, 0x2F, 0x66], 2), ([0x67], 1)] := by
  intro plan added fuller emptied world
  let file : Node := { Node.emptyDirectory 0 with attributes := 19, content := .file 0 }
  let folder (children : List (Text × NodeId)) : Node :=
    { Node.emptyDirectory 0 with content := .folder false children }
  have legible : Host.ofTwoFiles.Legible := by decide +kernel
  have isFolder : Host.ofTwoFiles.isFolder plan.path = true := by decide +kernel
  -- the file is made, and it may be removed since it was not there at first
  have made : Host.ofTwoFiles.Stirred Host.ofTwoFiles fuller :=
    .after 0 _ .still (.create (by decide +kernel))
  have removed : Host.ofTwoFiles.Stirred fuller emptied := by
    refine .after 0 _ .still (.remove fun id located => ?_)
    have here : fuller.locate? (.ofText added) = some 5 := by decide +kernel
    rw [here] at located
    cases located
    decide +kernel
  have stirred : ∀ host coming, Host.ofTwoFiles.Stirs host coming →
      (world host coming).Stirred Host.ofTwoFiles host coming :=
    fun _ _ stirs => ⟨⟨rfl, rfl⟩, rfl, ⟨rfl, rfl⟩, rfl, stirs⟩
  refine ⟨Host.reachable_ofTwoFiles, legible, isFolder, ?_⟩
  obtain ⟨top, forest, found, grows, -, tours⟩ :=
    visits_original Host.reachable_ofTwoFiles legible plan (by decide) isFolder
      (by decide) (by decide) (by decide)
  have checked : (match start (ChangingDevice.reader [CodePoint.solidus]) 9 plan
      (world Host.ofTwoFiles [fuller]) with
    | .ok _ started => decide (started.source.device.host = fuller)
    | .error .. => false) = true := by decide +kernel
  split at checked
  next walk started run =>
    have after := of_decide_eq_true checked
    refine ⟨walk, started, run, after, ?_⟩
    have toured : Toured Host.ofTwoFiles plan [] walk fuller :=
      after ▸ .started (stirred _ [fuller] ⟨made, trivial⟩) run
    obtain ⟨enough, calls⟩ := (tours _ _ _ toured).2 [fuller, fuller, emptied]
    have known : Host.ofTwoFiles.find? (.ofText plan.path) =
        some (folder [([0x64], 2), ([0x67], 4)]) := by decide +kernel
    have inside : Host.ofTwoFiles.Grows (folder [([0x66], 3)]).content.children
        (.object [0x66] file .nil .nil) := .object (by decide +kernel) .nil .nil
    have grows' : Host.ofTwoFiles.Grows (folder [([0x64], 2), ([0x67], 4)]).content.children
        (.object [0x64] (folder [([0x66], 3)]) (.object [0x66] file .nil .nil)
          (.object [0x67] file .nil .nil)) :=
      .object (by decide +kernel) inside (.object (by decide +kernel) .nil .nil)
    rw [known] at found
    cases found
    rw [grows.unique grows'] at calls
    refine ⟨enough, fun patience patient limit long => ?_⟩
    exact (calls patience patient _
      (stirred _ [fuller, fuller, emptied] ⟨.still, .still, removed, trivial⟩)).2 limit long
  next => cases checked

end Walk

end Catwalk
