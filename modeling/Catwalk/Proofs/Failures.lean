import Catwalk.Proofs.Refinements

/-!
# Operations that fail

An operation on one object that fails leaves the host as it was. One that makes directories leaves
those that it has made: a chain of new directories below the deepest that was there
(`failures_of_reachable`), and nothing at all if it fails because something is there already.
-/

namespace Catwalk

namespace Tree

/-! ## Chains -/

/-- Objects with these facts, each the only one in the one before. -/
def chain (facts : Facts) : List Text → List (Text × Tree)
  | [] => []
  | name :: names => [(name, object facts (chain facts names))]

/-- The tree with more children behind those that it has. -/
def extend (more : List (Text × Tree)) (tree : Tree) : Tree :=
  object tree.facts (tree.children ++ more)

variable {facts : Facts} {tree base between after : Tree} {trunk added way names : List Text}
  {name element : Text} {ways more : List (List Text)}

private theorem lay_bare (facts : Facts) (names : List Text) :
    (object facts []).lay facts names = object facts (chain facts names) := by
  induction names with
  | nil => rfl
  | cons name names ih =>
    rw [lay, if_neg (by simp [child?, children]), ih]
    rfl

private theorem lay_of_free (facts : Facts)
    (free : ∀ first, added.head? = some first → tree.child? first = none) :
    tree.lay facts added = tree.extend (chain facts added) := by
  cases added with
  | nil =>
    obtain ⟨own, old⟩ := tree
    simp [lay, extend, chain, Tree.facts, children]
  | cons first added =>
    rw [lay, if_neg (by simp [free first rfl]), lay_bare]
    rfl

private theorem Distinct.child (distinct : tree.Distinct) {child : Tree}
    (found : tree.child? name = some child) : child.Distinct := by
  intro way inner there
  refine distinct (name :: way) inner ?_
  simp [find?, found, there]

/-- A child is the only one by its name. -/
private theorem Distinct.child?_eq_some_iff (distinct : tree.Distinct) {child : Tree} :
    tree.child? name = some child ↔ (name, child) ∈ tree.children :=
  lookup_eq_some_iff_mem (distinct [] tree rfl)

/-- Laying a way is making a chain at the end of what is there of it. -/
private theorem lay_eq_alter (facts : Facts) (distinct : tree.Distinct)
    (there : tree.find? trunk = some base)
    (free : ∀ first, added.head? = some first → base.child? first = none) :
    tree.lay facts (trunk ++ added) = tree.alter (extend (chain facts added)) trunk := by
  induction trunk generalizing tree with
  | nil =>
    cases there
    exact lay_of_free facts free
  | cons element trunk ih =>
    cases found : tree.child? element with
    | none => simp [find?, found] at there
    | some child =>
      simp only [find?, found] at there
      rw [List.cons_append, lay, if_pos (by simp [found]), alter]
      congr 1
      refine List.map_congr_left fun other member => ?_
      by_cases here : other.1 = element
      · have same : other.2 = child := by
          have twice := distinct.child?_eq_some_iff.mpr member
          rw [here, found] at twice
          exact (Option.some.inj twice).symm
        simp [here, same, ih (distinct.child found) there]
      · simp [here]

/-- A way that is not there leads to something up to some element. -/
private theorem exists_trunk (missing : tree.find? way = none) :
    ∃ trunk base first rest, way = trunk ++ first :: rest ∧ tree.find? trunk = some base ∧
      base.child? first = none := by
  induction way generalizing tree with
  | nil => cases missing
  | cons element way ih =>
    cases found : tree.child? element with
    | none => exact ⟨[], tree, element, way, rfl, rfl, found⟩
    | some child =>
      simp only [find?, found] at missing
      obtain ⟨trunk, base, first, rest, rfl, there, free⟩ := ih missing
      exact ⟨element :: trunk, base, first, rest, rfl, by simp [find?, found, there], free⟩

/-! ## What is added -/

/-- All that was there is there with its facts, and has what it had in the same order in front of
anything new. All that is new has these facts, and lies on one of these ways. -/
structure Adds (facts : Facts) (ways : List (List Text)) (tree after : Tree) : Prop where
  kept : ∀ way found, tree.find? way = some found → ∃ found', after.find? way = some found' ∧
    found'.facts = found.facts ∧ found.childNames <+: found'.childNames
  fresh : ∀ way found, after.find? way = some found → tree.find? way = none →
    found.facts = facts ∧ ∃ whole ∈ ways, way <+: whole

theorem Adds.refl (facts : Facts) (ways : List (List Text)) (tree : Tree) :
    Adds facts ways tree tree := by
  constructor
  · intro way found there
    exact ⟨found, there, rfl, List.prefix_refl _⟩
  · intro way found there missing
    rw [there] at missing
    cases missing

theorem Adds.trans (first : Adds facts ways tree between) (second : Adds facts more between after) :
    Adds facts (ways ++ more) tree after := by
  constructor
  · intro way found there
    obtain ⟨found', there', facts', names⟩ := first.kept way found there
    obtain ⟨found'', there'', facts'', names'⟩ := second.kept way found' there'
    exact ⟨found'', there'', facts''.trans facts', names.trans names'⟩
  · intro way found there missing
    cases middle : between.find? way with
    | none =>
      obtain ⟨plain, whole, member, front⟩ := second.fresh way found there middle
      exact ⟨plain, whole, List.mem_append_right ways member, front⟩
    | some found' =>
      obtain ⟨plain, whole, member, front⟩ := first.fresh way found' middle missing
      obtain ⟨found'', there'', facts'', -⟩ := second.kept way found' middle
      obtain rfl : found'' = found := by simpa [there''] using there
      exact ⟨facts''.trans plain, whole, List.mem_append_left more member, front⟩

theorem Adds.mono (adds : Adds facts ways tree after)
    (longer : ∀ whole ∈ ways, ∃ whole' ∈ more, whole <+: whole') : Adds facts more tree after := by
  refine ⟨adds.kept, fun way found there missing => ?_⟩
  obtain ⟨plain, whole, member, front⟩ := adds.fresh way found there missing
  obtain ⟨whole', member', further⟩ := longer whole member
  exact ⟨plain, whole', member', front.trans further⟩

/-- Where there was a bare object, all that is there is new. -/
private theorem Adds.of_bare {trail : List Text} {found : Tree}
    (adds : Adds facts [way] (object facts []) after) (there : after.find? trail = some found) :
    found.facts = facts ∧ trail <+: way := by
  cases trail with
  | nil =>
    cases there
    obtain ⟨after', there', plain, -⟩ := adds.kept [] _ rfl
    cases there'
    exact ⟨plain, List.nil_prefix⟩
  | cons next trail =>
    obtain ⟨plain, whole, member, front⟩ :=
      adds.fresh (next :: trail) found there (by simp [find?, child?, children])
    exact ⟨plain, List.mem_singleton.mp member ▸ front⟩

/-- What is added below a child by some name, or is a new child by that name. -/
private theorem Adds.of_children (same : after.facts = tree.facts)
    (names : tree.childNames <+: after.childNames)
    (old : ∀ name child, tree.child? name = some child → ∃ child',
      after.child? name = some child' ∧
        (child' = child ∨ name = element ∧ Adds facts [way] child child'))
    (new : ∀ name child', tree.child? name = none → after.child? name = some child' →
      name = element ∧ Adds facts [way] (object facts []) child') :
    Adds facts [element :: way] tree after := by
  constructor
  · intro trail found there
    cases trail with
    | nil =>
      cases there
      exact ⟨after, rfl, same, names⟩
    | cons name trail =>
      cases here : tree.child? name with
      | none => simp [find?, here] at there
      | some child =>
        simp only [find?, here] at there
        obtain ⟨child', here', rfl | ⟨-, adds⟩⟩ := old name child here
        · exact ⟨found, by simpa [find?, here'] using there, rfl, List.prefix_refl _⟩
        · obtain ⟨found', there', kept⟩ := adds.kept trail found there
          exact ⟨found', by simpa [find?, here'] using there', kept⟩
  · intro trail found there missing
    cases trail with
    | nil => cases missing
    | cons name trail =>
      cases here' : after.child? name with
      | none => simp [find?, here'] at there
      | some child' =>
        simp only [find?, here'] at there
        have onto : ∀ {trail : List Text}, trail <+: way → name = element →
            ∃ whole ∈ [element :: way], name :: trail <+: whole := by
          rintro trail front rfl
          exact ⟨_, List.mem_singleton_self _, List.cons_prefix_cons.mpr ⟨rfl, front⟩⟩
        cases here : tree.child? name with
        | none =>
          obtain ⟨own, adds⟩ := new name child' here here'
          obtain ⟨plain, front⟩ := adds.of_bare there
          exact ⟨plain, onto front own⟩
        | some child =>
          simp only [find?, here] at missing
          obtain ⟨child'', here'', same⟩ := old name child here
          obtain rfl : child'' = child' := by simpa [here''] using here'
          rcases same with rfl | ⟨own, adds⟩
          · rw [there] at missing
            cases missing
          · obtain ⟨plain, whole, member, front⟩ := adds.fresh trail found there missing
            exact ⟨plain, onto (List.mem_singleton.mp member ▸ front) own⟩

/-- What is laid is new where nothing was, and lies on the way. -/
theorem adds_lay (facts : Facts) (tree : Tree) (way : List Text) :
    Adds facts [way] tree (tree.lay facts way) := by
  induction way generalizing tree with
  | nil => exact .refl facts _ tree
  | cons element way ih =>
    cases there : tree.child? element with
    | some child =>
      have names : (tree.lay facts (element :: way)).childNames = tree.childNames := by
        rw [lay_of_child facts (by simp [there]), childNames_alter]
      have laid : ∀ name, (tree.lay facts (element :: way)).child? name =
          (tree.child? name).map fun child =>
            if name = element then child.lay facts way else child := by
        intro name
        rw [lay_of_child facts (by simp [there]), child?_alter]
        rfl
      have own : (tree.lay facts (element :: way)).facts = tree.facts := by
        rw [lay_of_child facts (by simp [there])]
        rfl
      refine .of_children own (names ▸ List.prefix_rfl) ?_ ?_
      · intro name child here
        refine ⟨_, by rw [laid, here, Option.map_some], ?_⟩
        by_cases own : name = element
        · exact .inr ⟨own, by simpa [own] using ih child⟩
        · exact .inl (if_neg own)
      · intro name child' missing here
        simp [laid, missing] at here
    | none =>
      have grown : tree.lay facts (element :: way) =
          tree.append element ((object facts []).lay facts way) := by
        rw [lay, if_neg (by simp [there])]
      have laid : ∀ name, (tree.lay facts (element :: way)).child? name =
          (tree.child? name).or
            (if name = element then some ((object facts []).lay facts way) else none) := by
        intro name
        rw [grown, child?_append]
      refine .of_children (by rw [grown]; rfl) ?_ ?_ ?_
      · rw [grown]
        exact ⟨[element], by simp [childNames, append, children]⟩
      · intro name child here
        exact ⟨child, by simp [laid, here], .inl rfl⟩
      · intro name child' missing here
        by_cases own : name = element
        · simp only [laid, missing, Option.none_or, if_pos own, Option.some.injEq] at here
          exact ⟨own, here ▸ ih (object facts [])⟩
        · simp [laid, missing, own] at here

end Tree

namespace Host

variable {host after : Host} {id : NodeId} {fault : Fault} {now : Moment} {elements : List Text}
  {spellings : List Text} {tree : Tree}

/-! ## Ways that are not made to their end -/

/-- What is in the way of directories that are missing is there from the start: it is the first
element, so that nothing has been made. -/
private theorem Strands.of_alreadyExists (strands : Strands now host id elements fault after)
    (sound : host.Sound) (exists' : fault.kind = .alreadyExists) : after = host ∧
      ∀ element, elements.head? = some element →
        ∃ child, host.childId? id element = some child := by
  induction strands with
  | blocked is _ => exact ⟨rfl, by simp [is]⟩
  | refused _ other => exact absurd exists' other
  | through is _ _ ih => exact ⟨(ih sound exists').1, by simp [is]⟩
  | @missing host _ _ _ elements _ slot strands ih =>
    -- what has just been made holds nothing that could be in the way
    have sound' := sound.grown slot (rfl : (Node.emptyDirectory now).content.children = [])
    obtain ⟨-, held⟩ := ih sound' exists'
    cases elements with
    | nil => cases strands
    | cons element elements =>
      obtain ⟨child, is⟩ := held element rfl
      have linked := (sound.links_grown slot rfl).mem_iff.mp (sound'.childId?_eq_some_iff.mp is)
      rcases List.mem_cons.mp linked with new | old
      · have own := (Prod.mk.inj new).1
        exact absurd own (Nat.ne_of_gt (slot.older sound))
      · obtain ⟨up, known⟩ := sound.upwards _ old
        exact absurd (Nat.lt_trans up (sound.below _ known)) (Nat.lt_irrefl _)

/-- What was made of a way is a front of it, and something behind that was missing if nothing stands
in the way. -/
private theorem Strands.exists_front (strands : Strands now host id elements fault after) :
    ∃ front last rest, elements = front ++ last :: rest ∧ Paves now host id front after ∧
      (fault.kind ≠ .alreadyExists → host.locateFrom? id (front ++ [last]) = none) := by
  induction strands with
  | blocked _ exists' => exact ⟨[], _, _, rfl, .done, absurd exists'⟩
  | refused is _ => exact ⟨[], _, _, rfl, .done, fun _ => by simp [locateFrom?, is]⟩
  | @through _ _ _ _ element _ _ is folder _ ih =>
    obtain ⟨front, last, rest, rfl, paves, missing⟩ := ih
    exact ⟨element :: front, last, rest, rfl, .through is folder paves, fun other => by
      simpa [locateFrom?, is] using missing other⟩
  | @missing _ _ _ element _ _ slot _ ih =>
    obtain ⟨front, last, rest, rfl, paves, -⟩ := ih
    exact ⟨element :: front, last, rest, rfl, .missing slot paves, fun _ => by
      simp [locateFrom?, slot.fresh]⟩

private theorem Strands.adds (strands : Strands now host rootId elements fault after)
    (sound : host.Sound) (read : host.tree? = some tree) :
    ∃ turned, after.tree? = some turned ∧
      tree.Adds (Facts.directory now) [elements] turned := by
  obtain ⟨front, last, rest, rfl, paves, -⟩ := strands.exists_front
  have laid := (paves.tree?_eq sound).trans (congrArg _ read)
  exact ⟨_, laid, (Tree.adds_lay _ tree front).mono (by simp)⟩

private theorem StrandsAll.adds (strands : StrandsAll now host spellings fault after)
    (sound : host.Sound) (read : host.tree? = some tree) :
    ∃ turned, after.tree? = some turned ∧
      tree.Adds (Facts.directory now)
        (spellings.map fun spelling => (Path.ofText spelling).elements) turned := by
  induction strands generalizing tree with
  | taken => exact ⟨tree, read, .refl _ _ tree⟩
  | stranded strands =>
    obtain ⟨turned, read', adds⟩ := strands.adds sound read
    exact ⟨turned, read', adds.mono (by simp)⟩
  | past paves _ ih =>
    have laid := (paves.tree?_eq sound).trans (congrArg _ read)
    obtain ⟨turned, read', adds⟩ := ih (paves.changes.sound sound) laid
    exact ⟨turned, read', (Tree.adds_lay _ tree _).trans adds⟩

/-- Behind the deepest object that was there on a way, a chain of directories has been made that
does not come to the end of the way. -/
def FallsShort (now : Moment) (tree turned : Tree) (elements : List Text) : Prop :=
  ∃ trunk base added last rest, elements = trunk ++ (added ++ last :: rest) ∧
    tree.find? trunk = some base ∧
    (∀ first, (added ++ [last]).head? = some first → base.child? first = none) ∧
    turned = tree.alter (Tree.extend (Tree.chain (Facts.directory now) added)) trunk

private theorem Strands.fallsShort (strands : Strands now host rootId elements fault after)
    (sound : host.Sound) (read : host.tree? = some tree) (other : fault.kind ≠ .alreadyExists) :
    ∃ turned, after.tree? = some turned ∧ FallsShort now tree turned elements := by
  obtain ⟨front, last, rest, rfl, paves, unlocated⟩ := strands.exists_front
  have missing : tree.find? (front ++ [last]) = none := by
    have same := sound.find?_tree read ⟨false, front ++ [last]⟩
    simpa [find?, locate?, unlocated other] using same
  obtain ⟨trunk, base, first, behind, split, there, free⟩ := Tree.exists_trunk missing
  obtain ⟨added, last', cut⟩ : ∃ added last', first :: behind = added ++ [last'] :=
    ⟨_, _, (List.dropLast_append_getLast (List.cons_ne_nil first behind)).symm⟩
  rw [cut, ← List.append_assoc] at split
  obtain ⟨rfl, same⟩ := List.append_inj' split rfl
  obtain rfl : last = last' := by simpa using same
  have open' : ∀ name, (added ++ [last]).head? = some name → base.child? name = none := by
    rw [← cut]
    rintro name ⟨⟩
    exact free
  have laid := (paves.tree?_eq sound).trans (congrArg _ read)
  refine ⟨_, laid, trunk, base, added, last, rest, by simp, there, open', ?_⟩
  refine Tree.lay_eq_alter _ (sound.distinct read) there fun name is => open' name ?_
  cases added with
  | nil => cases is
  | cons name added => exact is

/-! ## Operations -/

/-- What an operation that fails leaves of a host and of its tree. -/
def Operation.Leaves (now : Moment) (fault : Fault) (host after : Host) (tree turned : Tree) :
    Operation → Prop
  | .makeDirectory spelling _ =>
    (fault.kind = .alreadyExists → after = host) ∧
      (fault.kind ≠ .alreadyExists → FallsShort now tree turned (Path.ofText spelling).elements) ∧
      tree.Adds (Facts.directory now) [(Path.ofText spelling).elements] turned
  | .makePath spelling offset =>
    tree.Adds (Facts.directory now)
      ((cutsBefore spelling offset.toNat).map fun cut => (Path.ofText cut).elements) turned
  | .createFile .. | .createImage .. | .setFileType .. | .remove .. | .removeTree .. => after = host

private theorem Operation.Fails.leaves {operation : Operation}
    (fails : operation.Fails now host fault after) (sound : host.Sound)
    (read : host.tree? = some tree) :
    ∃ turned, after.tree? = some turned ∧ operation.Leaves now fault host after tree turned := by
  cases fails with
  | @makeDirectory spelling existsOk _ _ left =>
    rcases left with ⟨exists', rfl⟩ | strands
    · exact ⟨tree, read, fun _ => rfl, absurd exists', .refl _ _ tree⟩
    · obtain ⟨turned, read', adds⟩ := strands.adds sound read
      refine ⟨turned, read', fun exists' => (strands.of_alreadyExists sound exists').1,
        fun other => ?_, adds⟩
      obtain ⟨turned', read'', short⟩ := strands.fallsShort sound read other
      obtain rfl : turned' = turned := by simpa [read'] using read''.symm
      exact short
  | makePath left =>
    rcases left with rfl | strands
    · exact ⟨tree, read, .refl _ _ tree⟩
    · exact strands.adds sound read
  | single one =>
    refine ⟨tree, read, ?_⟩
    cases operation with
    | makeDirectory => cases one
    | makePath => cases one
    | createFile => rfl
    | createImage => rfl
    | setFileType => rfl
    | remove => rfl
    | removeTree => rfl

/-- Whatever fails and wherever, a host that operations lead to loses nothing: an operation on one
object leaves it as it was, and one that makes directories leaves those that it has made. -/
theorem failures_of_reachable (reachable : host.Reachable) (now : Moment) (operation : Operation)
    (fault : Fault) (after : Host) (run : operation.act now host = .error fault after) :
    ∃ tree turned, host.tree? = some tree ∧ after.tree? = some turned ∧
      operation.Leaves now fault host after tree turned := by
  have sound := sound_of_reachable reachable
  obtain ⟨root, known, -⟩ := sound.root
  have read : host.tree? = some (host.treeOf root) := sound.treeAt?_of_node? known
  obtain ⟨turned, read', leaves⟩ := ((operation.act_meets now sound).of_error run).leaves sound read
  exact ⟨_, turned, read, read', leaves⟩

/-- A host with room for one directory has none for the second of `/a/b`. -/
theorem failures_of_full_host :
    let host : Host := ⟨some 2, 1, [(rootId, Node.emptyDirectory 0)]⟩
    let operation : Operation := .makeDirectory [0x2F, 0x61, 0x2F, 0x62] false
    let after := host.grown rootId [0x61] (Node.emptyDirectory 0)
    host.Reachable ∧ operation.act 0 host = .error (.hostFull 2 2) after ∧
      ∃ tree turned, host.tree? = some tree ∧ after.tree? = some turned ∧
        operation.Leaves 0 (.hostFull 2 2) host after tree turned := by
  intro host operation after
  have reachable : host.Reachable := .made (rfl : make? (some 2) 0 = .ok _)
  have run : operation.act 0 host = .error (.hostFull 2 2) after := by decide
  exact ⟨reachable, run, failures_of_reachable reachable 0 operation _ after run⟩

end Host

end Catwalk
