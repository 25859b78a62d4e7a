import Catwalk.Proofs.Names

/-!
# Canonical spellings

A text is evaluated piece by piece on a stack of names (`Path.Evaluates`). The canonical spelling of
its path names what is left on the stack, behind one solidus or two, and is its own canonical
spelling; behind a text that is continued the evaluation goes on where it was
(`Path.canonical_text`).
-/

namespace Catwalk

namespace Path

variable {t : Text} {name piece top : Text} {names pieces stack result : List Text}

/-! ## Pieces -/

/-- A text with solidi for its reverse solidi. -/
def upright (t : Text) : Text :=
  t.map fun c => if c = CodePoint.reverseSolidus then CodePoint.solidus else c

@[simp] theorem upright_nil : upright [] = [] := rfl

private theorem upright_cons (c : CodePoint) (t : Text) : upright (c :: t) =
    (if isSeparator c then CodePoint.solidus else c) :: upright t := by
  by_cases solidus : c = CodePoint.solidus
  · simp [upright, isSeparator, solidus]
  · simp [upright, isSeparator, solidus]

private theorem ne_solidus_of_uncut {c : CodePoint} (uncut : isSeparator c = false) :
    c ≠ CodePoint.solidus := by
  rintro rfl
  cases uncut

/-- The pieces between separators are those between the solidi of the upright text. -/
private theorem split_eq_splitOn (t : Text) :
    t.split isSeparator = (upright t).splitOn CodePoint.solidus := by
  induction t with
  | nil => rfl
  | cons c t ih =>
    rw [upright_cons, Text.split, ih, List.splitOn, List.splitOn,
      List.splitOnP_cons_eq_if_modifyHead]
    cases cut : isSeparator c with
    | true => simp
    | false =>
      cases pieces : List.splitOnP (· == CodePoint.solidus) (upright t) with
      | nil => exact absurd pieces (List.splitOnP_ne_nil _ _)
      | cons piece pieces => simp [ne_solidus_of_uncut cut]

/-- Whether a text begins with exactly two solidi. -/
def BeginsDoubled (t : Text) : Prop :=
  ∃ rest, t = CodePoint.solidus :: CodePoint.solidus :: rest ∧
    rest.head? ≠ some CodePoint.solidus

private theorem isDoubled_iff (t : Text) : isDoubled t = true ↔ BeginsDoubled (upright t) := by
  -- three code points decide
  rcases t with _ | ⟨first, _ | ⟨second, rest⟩⟩
  · simp [isDoubled, BeginsDoubled]
  · cases cut : isSeparator first <;> simp [isDoubled, BeginsDoubled, upright_cons, cut]
  cases cut : isSeparator first with
  | false => simp [isDoubled, BeginsDoubled, upright_cons, cut, ne_solidus_of_uncut cut]
  | true =>
    cases cut' : isSeparator second with
    | false => simp [isDoubled, BeginsDoubled, upright_cons, cut, cut', ne_solidus_of_uncut cut']
    | true =>
      rcases rest with _ | ⟨third, rest⟩
      · simp [isDoubled, BeginsDoubled, upright_cons, cut, cut']
      · cases cut'' : isSeparator third with
        | false =>
          simp [isDoubled, BeginsDoubled, upright_cons, cut, cut', cut'', ne_solidus_of_uncut cut'']
        | true => simp [isDoubled, BeginsDoubled, upright_cons, cut, cut', cut'']

/-! ## Evaluation -/

/-- What pieces come to on a stack of names, the top of which is the last: an empty piece and `.`
leave it as it is, `..` takes off the top if there is one, and any other piece goes on top. -/
inductive Evaluates : List Text → List Text → List Text → Prop
  | done {stack : List Text} : Evaluates stack [] stack
  | stays {stack pieces result : List Text} {piece : Text} :
      piece = [] ∨ piece = [CodePoint.fullStop] → Evaluates stack pieces result →
      Evaluates stack (piece :: pieces) result
  | rises {stack pieces result : List Text} {top : Text} : Evaluates stack pieces result →
      Evaluates (stack ++ [top]) ([CodePoint.fullStop, CodePoint.fullStop] :: pieces) result
  | clamps {pieces result : List Text} : Evaluates [] pieces result →
      Evaluates [] ([CodePoint.fullStop, CodePoint.fullStop] :: pieces) result
  | descends {stack pieces result : List Text} {piece : Text} : piece ≠ [] →
      piece ≠ [CodePoint.fullStop] → piece ≠ [CodePoint.fullStop, CodePoint.fullStop] →
      Evaluates (stack ++ [piece]) pieces result → Evaluates stack (piece :: pieces) result

/-- Pieces come to one thing: a trail is a stack with its top in front. -/
private theorem evaluates_iff : Evaluates stack pieces result ↔
    result = (pieces.foldl visit stack.reverse).reverse := by
  constructor
  · intro evaluates
    induction evaluates with
    | done => simp
    | stays idle _ ih => rw [ih, List.foldl_cons, visit, if_pos idle]
    | rises _ ih => simp [ih, visit]
    | clamps _ ih => simp [ih, visit]
    | descends filled here up _ ih => simp [ih, visit, filled, here, up]
  · rintro rfl
    induction pieces generalizing stack with
    | nil => simpa using Evaluates.done
    | cons piece pieces ih =>
      rw [List.foldl_cons, visit]
      by_cases idle : piece = [] ∨ piece = [CodePoint.fullStop]
      · rw [if_pos idle]
        exact .stays idle ih
      rw [if_neg idle]
      rw [not_or] at idle
      by_cases up : piece = [CodePoint.fullStop, CodePoint.fullStop]
      · rw [if_pos up]
        subst up
        rcases List.eq_nil_or_concat stack with rfl | ⟨below, top, rfl⟩
        · exact .clamps ih
        · have lower := @ih below
          simpa using Evaluates.rises lower
      · rw [if_neg up]
        have deeper := @ih (stack ++ [piece])
        exact .descends idle.1 idle.2 up (by simpa using deeper)

/-! ## Spelling a path out -/

/-- Plain names behind a path lead below it, one after the other. -/
private theorem elements_ofText_names (front : Text) (plain : ∀ name ∈ names, Plain name) :
    (ofText (front ++ CodePoint.solidus :: List.intercalate [CodePoint.solidus] names)).elements =
      (ofText front).elements ++ names := by
  induction names generalizing front with
  | nil =>
    unfold ofText
    dsimp only
    rw [List.intercalate_nil, Text.split_append_break rfl, List.foldl_append, List.append_nil]
    rfl
  | cons name names ih =>
    have first := elements_ofText_below front (plain name List.mem_cons_self)
    cases names with
    | nil => simpa using first
    | cons next names =>
      have rest := ih (front ++ CodePoint.solidus :: name) fun other member =>
        plain other (.tail name member)
      rw [List.intercalate_cons_cons]
      simpa [first] using rest

private theorem mem_names_of_mem_intercalate {c : CodePoint}
    (member : c ∈ List.intercalate [CodePoint.solidus] names) :
    c = CodePoint.solidus ∨ ∃ name ∈ names, c ∈ name := by
  induction names with
  | nil => simp at member
  | cons name names ih =>
    cases names with
    | nil => exact .inr ⟨name, List.mem_singleton_self name, by simpa using member⟩
    | cons next names =>
      simp only [List.intercalate_cons_cons, List.mem_append, List.mem_singleton] at member
      rcases member with (own | between) | later
      · exact .inr ⟨name, List.mem_cons_self, own⟩
      · exact .inl between
      · exact (ih later).imp_right fun ⟨other, listed, within⟩ => ⟨other, .tail name listed, within⟩

private theorem takeWhile_names (plain : ∀ name ∈ names, Plain name) :
    (List.intercalate [CodePoint.solidus] names).takeWhile isSeparator = [] := by
  cases names with
  | nil => rfl
  | cons name names =>
    have first := plain name List.mem_cons_self
    obtain ⟨c, rest, rfl⟩ := List.exists_cons_of_ne_nil first.nonempty
    have uncut := first.uncut c List.mem_cons_self
    cases names <;> simp [List.intercalate_cons_cons, uncut]

/-- The spelling of a path of plain names names the path. -/
private theorem ofText_text {path : Path} (plain : ∀ name ∈ path.elements, Plain name) :
    ofText path.text = path := by
  obtain ⟨doubled, names⟩ := path
  have front : isDoubled (text ⟨doubled, names⟩) = doubled := by
    cases doubled <;> simp [isDoubled, text, isSeparator, takeWhile_names plain]
  have elements : (ofText (text ⟨doubled, names⟩)).elements = names := by
    cases doubled with
    | false => exact elements_ofText_names [] plain
    | true => exact elements_ofText_names [CodePoint.solidus] plain
  calc ofText (text ⟨doubled, names⟩)
    _ = ⟨isDoubled (text ⟨doubled, names⟩), (ofText (text ⟨doubled, names⟩)).elements⟩ := rfl
    _ = ⟨doubled, names⟩ := by rw [front, elements]

/-- What stands in front of the names of a path. -/
def lead (path : Path) : Text :=
  if path.doubled then [CodePoint.solidus, CodePoint.solidus] else [CodePoint.solidus]

/-- What the canonical spelling of a text looks like: as many solidi as `lead` has, and then the
names that the text evaluates to, with a solidus between any two. -/
structure IsCanonical (t spelling lead : Text) (names : List Text) : Prop where
  evaluates : ∀ result, Evaluates [] ((upright t).splitOn CodePoint.solidus) result ↔ result = names
  plain : ∀ name ∈ names, Plain name
  single : lead = [CodePoint.solidus] ∨ lead = [CodePoint.solidus, CodePoint.solidus]
  doubled : lead = [CodePoint.solidus, CodePoint.solidus] ↔ BeginsDoubled (upright t)
  spelt : spelling = lead ++ List.intercalate [CodePoint.solidus] names
  /-- No piece is empty but those before the solidi in front. -/
  pieces : names ≠ [] → spelling.splitOn CodePoint.solidus = lead.map (fun _ => []) ++ names
  upright : CodePoint.reverseSolidus ∉ spelling

private theorem isCanonical_ofText (t : Text) :
    IsCanonical t (ofText t).text (ofText t).lead (ofText t).elements where
  evaluates result := by
    rw [evaluates_iff, ← split_eq_splitOn]
    rfl
  plain name := plain_of_mem_elements
  single := by
    unfold lead
    cases (ofText t).doubled <;> simp
  doubled := by
    rw [← isDoubled_iff, lead]
    change _ ↔ (ofText t).doubled = true
    cases (ofText t).doubled <;> simp
  spelt := rfl
  pieces filled := by
    obtain ⟨name, names, split⟩ := List.exists_cons_of_ne_nil filled
    have joined : (ofText t).text = List.intercalate [CodePoint.solidus]
        ((ofText t).lead.map (fun _ => []) ++ (ofText t).elements) := by
      unfold text lead
      cases (ofText t).doubled <;> simp [split, List.intercalate_cons_cons]
    rw [joined]
    refine List.splitOn_intercalate _ (fun piece member solidus => ?_) (by simp [filled])
    rcases List.mem_append.mp member with front | name
    · obtain ⟨-, -, rfl⟩ := List.mem_map.mp front
      cases solidus
    · cases (plain_of_mem_elements name).uncut _ solidus
  upright member := by
    have apart : CodePoint.reverseSolidus ≠ CodePoint.solidus := by decide
    rcases List.mem_append.mp member with front | behind
    · split at front <;> simp [apart] at front
    · rcases mem_names_of_mem_intercalate behind with solidus | ⟨name, listed, within⟩
      · exact apart solidus
      · cases (plain_of_mem_elements listed).uncut _ within

/-- The canonical spelling of a text is what the text's pieces evaluate to, and its own canonical
spelling. With more pieces the evaluation goes on where it was. -/
theorem canonical_text (t more : Text) :
    (ofText (ofText t).text).text = (ofText t).text ∧
    ∃ lead names, IsCanonical t (ofText t).text lead names ∧
    ∃ lead' names', IsCanonical (t ++ CodePoint.solidus :: more)
        (ofText (t ++ CodePoint.solidus :: more)).text lead' names' ∧
      ∀ result, Evaluates names ((upright more).splitOn CodePoint.solidus) result ↔
        result = names' := by
  refine ⟨?_, _, _, isCanonical_ofText t, _, _, isCanonical_ofText _, fun result => ?_⟩
  · rw [ofText_text fun _ => plain_of_mem_elements]
  · rw [evaluates_iff, ← split_eq_splitOn]
    unfold ofText
    dsimp only
    rw [Text.split_append_break rfl, List.foldl_append, List.reverse_reverse]

end Path

end Catwalk
