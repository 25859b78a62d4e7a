import Catwalk.Proofs.Failures
import Mathlib.Data.List.Infix

/-!
# Ways that are prepared

Making a path makes the directories that its spelling cuts off at its solidi. The directory that is
to hold the object is then there (`makePath_prepares`), unless a reverse solidus stands behind the
last solidus: it separates elements, but nothing is cut off at it
(`makePath_overlooks_reverseSolidus`).
-/

namespace Catwalk

/-! ## Cuts -/

/-- No reverse solidus stands behind the last solidus. -/
def Text.EndsStraight (t : Text) : Prop :=
  ∀ front rest, t = front ++ CodePoint.reverseSolidus :: rest → CodePoint.solidus ∈ rest

private theorem Text.endsStraight_iff {t : Text} : t.EndsStraight ↔ ∀ rest ∈ t.tails,
    rest.head? = some CodePoint.reverseSolidus → CodePoint.solidus ∈ rest := by
  constructor
  · intro straight rest back first
    obtain ⟨front, split⟩ := (List.mem_tails _ _).mp back
    obtain ⟨behind, rfl⟩ := List.head?_eq_some_iff.mp first
    exact List.mem_cons_of_mem _ (straight front behind split.symm)
  · intro all front rest split
    have found := all _ ((List.mem_tails _ _).mpr ⟨front, split.symm⟩) rfl
    exact (List.mem_cons.mp found).resolve_left (by decide)

instance (t : Text) : Decidable t.EndsStraight := decidable_of_iff _ Text.endsStraight_iff.symm

private theorem Text.EndsStraight.uncut {front last : Text}
    (straight : (front ++ last).EndsStraight)
    (uncut : CodePoint.solidus ∉ last) : ∀ c ∈ last, Path.isSeparator c = false := by
  intro c member
  refine eq_false_of_ne_true fun cut => ?_
  simp only [Path.isSeparator, Bool.or_eq_true, decide_eq_true_eq] at cut
  rcases cut with rfl | rfl
  · exact uncut member
  · obtain ⟨before, behind, rfl⟩ := List.append_of_mem member
    have later := straight (front ++ before) behind (List.append_assoc ..).symm
    exact uncut (by simp [later])

namespace Path

/-- One more piece leads to a child at most, so that what would hold it is on the way so far. -/
private theorem dropLast_visit_prefix (trail : List Text) (piece : Text) :
    (visit trail piece).reverse.dropLast <+: trail.reverse := by
  unfold visit
  split_ifs
  · exact List.dropLast_prefix _
  · rw [← List.dropLast_reverse]
    exact (List.dropLast_prefix _).trans (List.dropLast_prefix _)
  · simp

end Path

namespace Host

private theorem mem_cutsBefore {front : Text} (filled : front ≠ []) (rest : Text) :
    front ∈ cutsBefore (front ++ CodePoint.solidus :: rest) 0 := by
  refine List.mem_map.mpr ⟨front.length, List.mem_filter.mpr ⟨?_, ?_⟩, by simp⟩
  · simp
  · simp [filled]

/-- What is to hold the object is on the way to the last cut, or is the root. -/
private theorem exists_cut {spelling : Text} (straight : spelling.EndsStraight) :
    ∃ cut, (cut = [] ∨ cut ∈ cutsBefore spelling 0) ∧
      (Path.ofText spelling).parent.elements <+: (Path.ofText cut).elements := by
  by_cases solidus : CodePoint.solidus ∈ spelling
  · -- the last cut is before the first solidus from behind
    obtain ⟨last, front, split, none'⟩ :=
      List.eq_append_cons_of_mem (List.mem_reverse.mpr solidus)
    obtain rfl : spelling = front.reverse ++ CodePoint.solidus :: last.reverse := by
      simpa using congrArg List.reverse split
    refine ⟨front.reverse, ?_, ?_⟩
    · by_cases empty : front.reverse = []
      · exact .inl empty
      · exact .inr (mem_cutsBefore empty _)
    · rw [← List.singleton_append, ← List.append_assoc] at straight
      have uncut := straight.uncut (by simpa using none')
      unfold Path.parent Path.ofText
      dsimp only
      rw [Text.split_append_break rfl, Text.split_of_uncut uncut, List.foldl_append]
      exact Path.dropLast_visit_prefix _ last.reverse
  · have whole : Text.EndsStraight ([] ++ spelling) := straight
    have uncut := whole.uncut solidus
    refine ⟨[], .inl rfl, ?_⟩
    unfold Path.parent Path.ofText
    dsimp only
    rw [Text.split_of_uncut uncut]
    exact Path.dropLast_visit_prefix [] spelling

variable {host after : Host} {now : Moment} {spelling : Text} {tree : Tree}

/-! ## Directories on the way -/

/-- A way is laid to what is there already, or to a new directory. -/
private theorem exists_directory_of_lay (now : Moment) (tree : Tree) (way : List Text)
    (own : ∀ found, tree.find? way = some found → found.facts.kind = .directory) :
    ∃ found, (tree.lay (Facts.directory now) way).find? way = some found ∧
      found.facts.kind = .directory := by
  obtain ⟨found, laid⟩ := Option.isSome_iff_exists.mp
    (Tree.isSome_find?_lay (Facts.directory now) tree way)
  have adds := Tree.adds_lay (Facts.directory now) tree way
  refine ⟨found, laid, ?_⟩
  cases there : tree.find? way with
  | none =>
    rw [(adds.fresh way found laid there).1]
    rfl
  | some before =>
    obtain ⟨found', laid', same, -⟩ := adds.kept way before there
    obtain rfl : found' = found := by simpa [laid] using laid'.symm
    rw [same]
    exact own before there

/-- Directories that are made one after the other are there in the end, with all that was there
before. -/
private theorem adds_of_makeDirectory {cuts : List Text} (sound : host.Sound)
    (read : host.tree? = some tree)
    (run : (cuts.forM fun cut => makeDirectory now cut true) host = .ok () after) :
    after.Sound ∧ ∃ turned, after.tree? = some turned ∧
      tree.Adds (Facts.directory now) (cuts.map fun cut => (Path.ofText cut).elements) turned ∧
      ∀ cut ∈ cuts, ∃ found, turned.find? (Path.ofText cut).elements = some found ∧
        found.facts.kind = .directory := by
  induction cuts generalizing host tree with
  | nil =>
    cases run
    exact ⟨sound, tree, read, .refl _ _ tree, by simp⟩
  | cons cut cuts ih =>
    obtain ⟨_, between, first, others⟩ := Act.exists_of_bind_ok run
    obtain ⟨known, paves⟩ := (makeDirectory_meets now cut true sound).of_ok first
    have read' := (paves.tree?_eq sound).trans (congrArg _ read)
    obtain ⟨sound', turned, last, adds, directories⟩ :=
      ih (paves.changes.sound sound) read' others
    refine ⟨sound', turned, last, (Tree.adds_lay _ tree _).trans adds, ?_⟩
    refine List.forall_mem_cons.mpr ⟨?_, directories⟩
    -- this cut's directory is there before the others are made, and they keep it
    obtain ⟨found, laid, kind⟩ := exists_directory_of_lay now tree (Path.ofText cut).elements (by
      intro found there
      rw [sound.find?_tree read] at there
      obtain ⟨node, is, rfl⟩ := Option.map_eq_some_iff.mp there
      exact (isDirectory_facts node).mpr (known node is).1)
    obtain ⟨found', there, same, -⟩ := adds.kept _ found laid
    exact ⟨found', there, same ▸ kind⟩

private theorem makeDirectory_of_directory {node : Node}
    (found : host.find? (.ofText spelling) = some node)
    (directory : node.content.isDirectory = true) (now : Moment) :
    makeDirectory now spelling true host = .ok () host := by
  unfold makeDirectory
  rw [Act.get_bind, found]
  dsimp only
  rw [if_pos directory]
  rfl

private theorem makePath_zero (now : Moment) (spelling : Text) : makePath now spelling 0 =
    (cutsBefore spelling 0).forM fun cut => makeDirectory now cut true := by
  unfold makePath
  rw [if_pos ⟨Int.le_refl 0, Int.natCast_nonneg _⟩]
  rfl

/-- Where all directories are there, making the path changes nothing. -/
private theorem makePath_of_directories (there : ∀ cut ∈ cutsBefore spelling 0,
      ∃ node, host.find? (.ofText cut) = some node ∧ node.content.isDirectory = true)
    (now : Moment) : makePath now spelling 0 host = .ok () host := by
  rw [makePath_zero]
  generalize cutsBefore spelling 0 = cuts at there
  induction cuts with
  | nil => rfl
  | cons cut cuts ih =>
    obtain ⟨⟨node, found, directory⟩, others⟩ := List.forall_mem_cons.mp there
    exact (Act.bind_of_ok (makeDirectory_of_directory found directory now)).trans (ih others)

/-! ## Linking below a folder -/

private theorem link_meets_of_parent (parent : ∃ node,
      host.find? (Path.ofText spelling).parent = some node ∧ node.content.isFolder = true)
    (node : Node) : (link spelling node).Meets host (fun _ _ => True)
      fun fault _ => fault.kind ≠ .notFound := by
  obtain ⟨folder, found, isFolder⟩ := parent
  obtain ⟨id, located, known⟩ := Option.bind_eq_some_iff.mp found
  unfold link
  dsimp only
  by_cases plain : (Path.ofText spelling).isPlainRoot = true
  · rw [if_pos plain]
    exact Fault.Kind.noConfusion
  rw [if_neg plain]
  simp only [Act.meets_bind, Act.meets_get]
  by_cases taken : (host.find? (.ofText spelling)).isSome = true
  · rw [if_pos taken]
    exact Fault.Kind.noConfusion
  rw [if_neg taken, located]
  dsimp only
  rw [if_pos (by simp [known, isFolder]), Act.meets_bind, Act.meets_ofExcept]
  cases checked : checkName (Path.ofText spelling).name spelling with
  | error fault => rcases kind_of_checkName checked with kind | kind <;> simp [kind]
  | ok =>
    simp only [Act.meets_bind, Act.meets_pure, meets_add]
    split <;> simp [Fault.kind]

private theorem createFile_meets_of_parent (parent : ∃ node,
      host.find? (Path.ofText spelling).parent = some node ∧ node.content.isFolder = true)
    (now : Moment) (plan : FilePlan) : (createFile now spelling plan).Meets host (fun _ _ => True)
      fun fault _ => fault.kind ≠ .notFound := by
  by_cases valid : plan.Valid
  · rw [createFile_eq valid]
    exact link_meets_of_parent parent _
  obtain ⟨fault, kind, refused⟩ := createFile_eq_throw valid now spelling
  rw [refused]
  exact Act.meets_throw.mpr (by simp [kind])

/-! ## Making a path -/

/-- What making a path has come to. -/
structure Prepared (now : Moment) (spelling : Text) (host after : Host) : Prop where
  /-- All that was there is there as it was, and all that is new are directories. -/
  adds : ∃ tree turned, host.tree? = some tree ∧ after.tree? = some turned ∧
    tree.Adds (Facts.directory now)
      ((cutsBefore spelling 0).map fun cut => (Path.ofText cut).elements) turned
  directories : ∀ cut ∈ cutsBefore spelling 0,
    ∃ node, after.find? (.ofText cut) = some node ∧ node.content.isDirectory = true
  /-- To make the path again changes nothing. -/
  settled : ∀ now, makePath now spelling 0 after = .ok () after
  parent : spelling.EndsStraight → ∃ node,
    after.find? (Path.ofText spelling).parent = some node ∧ node.content.isFolder = true
  /-- A file is not refused for want of a directory to hold it. -/
  held : spelling.EndsStraight → ∀ now plan fault left,
    createFile now spelling plan after = .error fault left → fault.kind ≠ .notFound

/-- What is to hold the object is a folder if all cuts are directories. -/
private theorem Sound.exists_parent (sound : host.Sound) (straight : spelling.EndsStraight)
    (directories : ∀ cut ∈ cutsBefore spelling 0,
      ∃ node, host.find? (.ofText cut) = some node ∧ node.content.isDirectory = true) :
    ∃ node, host.find? (Path.ofText spelling).parent = some node ∧
      node.content.isFolder = true := by
  obtain ⟨cut, among, rest, whole⟩ := exists_cut straight
  have folder : ∃ id, host.locateFrom? rootId (Path.ofText cut).elements = some id ∧
      ∃ node, host.node? id = some node ∧ node.content.isFolder = true := by
    rcases among with rfl | member
    · exact ⟨rootId, rfl, sound.root⟩
    · obtain ⟨node, found, directory⟩ := directories cut member
      obtain ⟨id, located, is⟩ := Option.bind_eq_some_iff.mp found
      exact ⟨id, located, node, is, Content.isFolder_of_isDirectory directory⟩
  obtain ⟨id, located, is⟩ := folder
  obtain ⟨above, there, node, known, isFolder⟩ :=
    sound.exists_folder_on_way (Path.ofText spelling).parent.elements (whole ▸ located) is
  exact ⟨node, Option.bind_eq_some_iff.mpr ⟨above, there, known⟩, isFolder⟩

/-- A path that has been made is prepared for an object. -/
theorem makePath_prepares (reachable : host.Reachable) (now : Moment) (spelling : Text)
    (run : makePath now spelling 0 host = .ok () after) : Prepared now spelling host after := by
  have sound := sound_of_reachable reachable
  obtain ⟨root, known, -⟩ := sound.root
  have read : host.tree? = some (host.treeOf root) := sound.treeAt?_of_node? known
  rw [makePath_zero] at run
  obtain ⟨sound', turned, read', adds, all⟩ := adds_of_makeDirectory sound read run
  have directories : ∀ cut ∈ cutsBefore spelling 0,
      ∃ node, after.find? (.ofText cut) = some node ∧ node.content.isDirectory = true := by
    intro cut member
    obtain ⟨found, there, kind⟩ := all cut member
    rw [sound'.find?_tree read'] at there
    obtain ⟨node, is, rfl⟩ := Option.map_eq_some_iff.mp there
    exact ⟨node, is, (isDirectory_facts node).mp kind⟩
  have parent : spelling.EndsStraight → ∃ node,
      after.find? (Path.ofText spelling).parent = some node ∧ node.content.isFolder = true :=
    fun straight => sound'.exists_parent straight directories
  exact {
    adds := ⟨_, turned, read, read', adds⟩
    directories
    settled := makePath_of_directories directories
    parent
    held := fun straight now plan _ _ =>
      (createFile_meets_of_parent (parent straight) now plan).of_error }

/-- On a host with one file, `f`, the way to `../a\b//./c/..` is made. -/
theorem makePath_prepares_beside_file :
    let spelling : Text := [0x2E, 0x2E, 0x2F, 0x61, 0x5C, 0x62, 0x2F, 0x2F, 0x2E, 0x2F, 0x63, 0x2F,
      0x2E, 0x2E]
    let host : Host := ((Operation.createFile [0x2F, 0x66] {}).act 0).leaves empty
    ∃ after, host.Reachable ∧ makePath 1 spelling 0 host = .ok () after ∧
      Prepared 1 spelling host after ∧ spelling.EndsStraight ∧
      after.names [0x2F] = .ok [[0x66], [0x61]] ∧
      after.isFolder [0x61, 0x5C, 0x62, 0x5C, 0x63] := by
  intro spelling host
  have reachable : host.Reachable := .after 0 _ reachable_empty
  obtain ⟨after, run, names, made⟩ : ∃ after, makePath 1 spelling 0 host = .ok () after ∧
      after.names [0x2F] = .ok [[0x66], [0x61]] ∧ after.isFolder [0x61, 0x5C, 0x62, 0x5C, 0x63] :=
    ⟨_, rfl, by decide +kernel, by decide +kernel⟩
  exact ⟨after, reachable, run, makePath_prepares reachable 1 spelling run, by decide +kernel,
    names, made⟩

/-- For `a\b` nothing is made, and then there is no directory to hold `b`. -/
theorem makePath_overlooks_reverseSolidus :
    let spelling : Text := [0x61, 0x5C, 0x62]
    empty.Reachable ∧ makePath 0 spelling 0 empty = .ok () empty ∧
      empty.find? (Path.ofText spelling).parent = none ∧
      createFile 0 spelling {} empty = .error (.noParent [0x2F, 0x61]) empty ∧
      (Fault.noParent [0x2F, 0x61]).kind = .notFound := by
  exact ⟨reachable_empty, by decide, by decide, by decide, rfl⟩

end Host

end Catwalk
