import Catwalk.Proofs.Catalogues
import Catwalk.Proofs.Names

/-!
# Levels that read a listing to which entries are added

Entries may be added behind those of a listing and be taken away again, at any time, while a level
reads it. Where an entry of the listing stands never changes, so a cursor has always passed the same
ones of them, and these are what a level has ahead: the entries of the listing that it holds, and
those behind its cursor that match (`Level.Spans`). Refills move entries from the second to the
first, whether they succeed or fail (`Level.Spans.tried`). How far a cursor still has to go in any
of the longer listings (`entriesLeft`) shrinks with every read, so that refills succeed while no
fault is injected (`Level.Spans.serves`).
-/

namespace Catwalk

variable {ρ : Type}

namespace Entry

/-- The entry of a file that may be added to a listing. -/
structure Joins (listing : List Entry) (entry : Entry) : Prop where
  storable : entry.Storable
  file : entry.objectType = ObjectType.file.code
  plain : Path.Plain entry.name
  name : ∀ other ∈ listing, other.name ≠ entry.name

theorem Joins.not_mem {listing : List Entry} {entry : Entry} (joins : entry.Joins listing) :
    entry ∉ listing := fun member => joins.name entry member rfl

/-- The entries that are in a listing. -/
def kept (listing entries : List Entry) : List Entry := entries.filter (· ∈ listing)

variable {listing whole entries : List Entry} {joins : Entry → Prop} {many large : Nat}

theorem kept_eq_self (known : ∀ entry ∈ entries, entry ∈ listing) :
    kept listing entries = entries :=
  List.filter_eq_self.mpr fun entry member => decide_eq_true (known entry member)

theorem kept_append (others : List Entry) :
    kept listing (entries ++ others) = kept listing entries ++ kept listing others :=
  List.filter_append _ _

private theorem kept_listed (pattern : Option Text) :
    kept listing (listed pattern entries) = listed pattern (kept listing entries) :=
  List.filter_comm _ _ _

/-- A listing to which entries have been added that may join it. It has no more than so many
entries, and two of them need no more than so much room. -/
structure Enlarged (joins : Entry → Prop) (many large : Nat) (listing whole : List Entry) :
    Prop where
  added : ∃ added, whole = listing ++ added ∧ ∀ entry ∈ added, joins entry
  length : whole.length ≤ many
  extent : 2 * Row.extent (records whole) ≤ large

theorem Enlarged.refl (listing : List Entry) : Enlarged joins listing.length
    (2 * Row.extent (records listing)) listing listing :=
  ⟨⟨[], (List.append_nil _).symm, nofun⟩, Nat.le_refl _, Nat.le_refl _⟩

/-- What is behind a place in the longer listing is the same of the listing itself. -/
private theorem Enlarged.kept_drop (enlarged : Enlarged joins many large listing whole)
    (new : ∀ entry, joins entry → entry ∉ listing) (n : Nat) :
    kept listing (whole.drop n) = listing.drop n := by
  obtain ⟨added, rfl, joined⟩ := enlarged.added
  have old : kept listing (listing.drop n) = listing.drop n :=
    kept_eq_self fun entry member => List.mem_of_mem_drop member
  have new : kept listing (added.drop (n - listing.length)) = [] :=
    List.filter_eq_nil_iff.mpr fun entry member is =>
      new entry (joined entry (List.mem_of_mem_drop member)) (of_decide_eq_true is)
  rw [List.drop_append, kept_append, old, new, List.append_nil]

/-- An entry that a level may hold: one that is listed or that may join the listing, and of which
two have room. -/
structure Held (joins : Entry → Prop) (large : Nat) (listing : List Entry) (entry : Entry) :
    Prop where
  known : entry ∈ listing ∨ joins entry
  short : 2 * entry.stored.extent ≤ large

theorem Held.mono {entry : Entry} {larger : Nat} (held : entry.Held joins large listing)
    (le : large ≤ larger) : entry.Held joins larger listing :=
  ⟨held.known, Nat.le_trans held.short le⟩

private theorem Enlarged.held (enlarged : Enlarged joins many large listing whole) {entry : Entry}
    (member : entry ∈ whole) : entry.Held joins large listing := by
  have one := extent_le_records member
  have extent := enlarged.extent
  obtain ⟨added, rfl, joined⟩ := enlarged.added
  refine ⟨(List.mem_append.mp member).imp id (joined entry), ?_⟩
  omega

private theorem Enlarged.storable (enlarged : Enlarged joins many large listing whole)
    (storable : ∀ entry ∈ listing, entry.Storable)
    (new : ∀ entry, joins entry → entry.Storable) : ∀ entry ∈ whole, entry.Storable :=
  fun entry member => (enlarged.held member).known.elim (storable entry) (new entry)

end Entry

open Entry ReadCall

/-- How many entries a cursor may still have to pass in listings of this size. -/
def entriesLeft (many : Nat) (cursor : Int) : Nat :=
  if cursor = cursorEnd then 0 else many - cursor.toNat

theorem entriesLeft_le (many : Nat) (cursor : Int) : entriesLeft many cursor ≤ many := by
  unfold entriesLeft
  split
  · exact Nat.zero_le many
  · exact Nat.sub_le many _

namespace ReadCall

variable {listing whole unread : List Entry} {joins : Entry → Prop} {many large : Nat}
  {cursor : Int}

/-- What a read makes of a cursor: it has passed the entries that have been `seen`. -/
structure Passes (joins : Entry → Prop) (many large : Nat) (listing unread : List Entry)
    (cursor : Int) (seen : List Entry) (next : Int) : Prop where
  left : ∃ rest, unread = kept listing seen ++ rest ∧ Unread listing next rest
  shrinks : seen.length + entriesLeft many next ≤ entriesLeft many cursor
  held : ∀ entry ∈ seen, entry.Held joins large listing

theorem Passes.trans {seen later : List Entry} {middle next : Int} {rest : List Entry}
    (split : unread = kept listing seen ++ rest)
    (shrinks : seen.length + entriesLeft many middle ≤ entriesLeft many cursor)
    (held : ∀ entry ∈ seen, entry.Held joins large listing)
    (passes : Passes joins many large listing rest middle later next) :
    Passes joins many large listing unread cursor (seen ++ later) next := by
  obtain ⟨⟨rest', split', left⟩, shrinks', held'⟩ := passes
  refine ⟨⟨rest', ?_, left⟩, ?_, List.forall_mem_append.mpr ⟨held, held'⟩⟩
  · rw [split, split', kept_append, List.append_assoc]
  · rw [List.length_append]
    omega

/-- Passing entries of the longer listing passes those of the listing itself. -/
private theorem passes_of_unread (enlarged : Enlarged joins many large listing whole)
    (new : ∀ entry, joins entry → entry ∉ listing) (more : cursor ≠ cursorEnd)
    (left : Unread listing cursor unread) {seen rest : List Entry} {next : Int}
    (split : whole.drop cursor.toNat = seen ++ rest) (further : next ≠ cursorEnd → rest ≠ [])
    (left' : Unread whole next rest) :
    Passes joins many large listing unread cursor seen next := by
  have most := enlarged.length
  have length := congrArg List.length split
  rw [List.length_drop, List.length_append] at length
  rw [Unread, if_neg more] at left
  obtain ⟨start, dropped⟩ := left
  have covered : ∀ entry ∈ seen, entry ∈ whole := fun entry member =>
    List.mem_of_mem_drop (split ▸ List.mem_append_left rest member)
  refine ⟨⟨kept listing rest, ?_, ?_⟩, ?_, fun entry member => enlarged.held (covered entry member)⟩
  · rw [← dropped, ← enlarged.kept_drop new, split, kept_append]
  · unfold Unread at left' ⊢
    by_cases ended : next = cursorEnd
    · rw [if_pos ended] at left' ⊢
      rw [left']
      rfl
    · rw [if_neg ended] at left' ⊢
      exact ⟨left'.1, by rw [← left'.2, enlarged.kept_drop new]⟩
  · rw [entriesLeft, entriesLeft, if_neg more]
    by_cases ended : next = cursorEnd
    · rw [if_pos ended]
      omega
    · have some' := List.length_pos_iff.mpr (further ended)
      rw [Unread, if_neg ended] at left'
      have length' := congrArg List.length left'.2
      rw [List.length_drop] at length'
      rw [if_neg ended]
      omega

end ReadCall

namespace Level

variable {reader : Reader ρ} {source : ρ → Prop} {calm : Prop} {request : Request}
  {patience many large : Nat} {joins : Entry → Prop} {listing unread ahead read : List Entry}
  {pattern : Option Text}

/-- What it takes to speak of the reads of a listing to which entries are added. As long as its
source is as it should be, the reader answers from a longer listing, or fails, but only when it is
not calm; all entries can be stored, and reads look at them. -/
structure AnswersEnlarged (reader : Reader ρ) (source : ρ → Prop) (calm : Prop)
    (joins : Entry → Prop)
    (many large : Nat) (request : Request) (listing : List Entry) : Prop where
  keeps : ∀ call s, source s → source (reader.read call s).2
  answers : ∀ call s, source s → call.path = request.path → call.pattern = request.pattern →
    (∃ whole, Enlarged joins many large listing whole ∧
      (reader.read call s).1 = call.fill whole) ∨
      ¬ calm ∧ ∃ fault, (reader.read call s).1.result = .error fault
  storable : ∀ entry ∈ listing, entry.Storable
  new : ∀ entry, joins entry → entry.Storable ∧ entry ∉ listing
  looks : 1 ≤ request.maxEntries

private theorem AnswersEnlarged.wild
    (answering : AnswersEnlarged reader source calm joins many large request listing) :
    AnswersEnlarged reader source False joins many large request listing :=
  { answering with answers := fun call s held path pattern =>
      (answering.answers call s held path pattern).imp_right fun failed => ⟨id, failed.2⟩ }

/-- An answer brings in the next records that match, or fails; in calm it fails only for want of
room in the buffer. -/
private theorem answer_cases
    (answering : AnswersEnlarged reader source calm joins many large request listing)
    (level : Level) {cursor : Int} {s : ρ} (held : source s) (more : cursor ≠ cursorEnd)
    (left : Unread listing cursor unread) :
    let answer := (reader.read (call request level cursor) s).1
    (∃ seen next, Passes joins many large listing unread cursor seen next ∧
      (next ≠ cursorEnd → seen ≠ []) ∧
      Row (answer.into level.buffer level.keep) level.keep
        (records (listed request.pattern seen)) ∧
      answer.result = .ok ⟨(listed request.pattern seen).length, next⟩) ∨
    ∃ fault, answer.result = .error fault ∧ (calm → fault.kind = .overflow ∧
      2 * level.buffer.length < 2 * level.keep + large) := by
  intro answer
  rcases answering.answers (call request level cursor) s held rfl rfl with
    ⟨whole, enlarged, filled⟩ | ⟨wild, fault, failed⟩
  · have storable := enlarged.storable answering.storable fun entry joins =>
      (answering.new entry joins).1
    have start : 0 ≤ cursor := by
      rw [Unread, if_neg more] at left
      exact left.1
    have upcoming : Unread whole cursor (whole.drop cursor.toNat) := by
      rw [Unread, if_neg more]
      exact ⟨start, rfl⟩
    change answer = _ at filled
    have packable := fun entry member => (storable entry member).packable
    rcases fill_cases (call request level cursor) packable answering.looks more upcoming with
      ⟨seen, rest, next, split, progress, fits, further, left', result⟩ |
        ⟨entry, member, full, result⟩
    · have passes := passes_of_unread enlarged (fun entry joins => (answering.new entry joins).2)
        more left split further left'
      rw [filled, result]
      refine .inl ⟨seen, next, passes, fun on => progress (further on), ?_, rfl⟩
      refine row_of_fits (call request level cursor) fits fun entry found => ?_
      have passed : entry ∈ whole.drop cursor.toNat :=
        split ▸ List.mem_append_left rest (mem_of_listed found)
      exact (storable entry (List.mem_of_mem_drop passed)).ended
    · rw [filled, result]
      have short := (enlarged.held (mem_of_listed member)).short
      have full : (level.buffer.length : Int) - level.keep < entry.stored.extent := full
      exact .inr ⟨_, rfl, fun _ => ⟨rfl, by omega⟩⟩
  · exact .inr ⟨fault, failed, fun calm => absurd calm wild⟩

/-- What a batch takes in: the records of entries that it has passed. -/
def Brought (joins : Entry → Prop) (many large : Nat) (listing : List Entry)
    (pattern : Option Text) (unread : List Entry) (cursor : Int) (batch : Batch)
    (fetched : Level) : Prop :=
  ∃ seen, Passes joins many large listing unread cursor seen batch.next ∧
    Row fetched.buffer fetched.keep (records (listed pattern seen)) ∧
    batch.count = (listed pattern seen).length

/-- Every read that does not end a fetch passes an entry or is followed by a buffer of twice the
size, and the buffer grows only while it is too small for two records. -/
private theorem fetch_meets_of_answersEnlarged
    (answering : AnswersEnlarged reader source calm joins many large request listing)
    {front level : Level} {cursor : Int} {world : World ρ}
    (fits : front.keep ≤ front.buffer.length) (small : 2 * front.keep ≤ large)
    (extended : front.Extends level) (positive : 0 < level.buffer.length)
    (more : cursor ≠ cursorEnd) (left : Unread listing cursor unread)
    (w : (Terms.keeping source calm).world world)
    (enough : calm → entriesLeft many cursor + (large - level.buffer.length) < patience) :
    (fetch reader request patience cursor).Meets (level, world)
      (fun batch s => front.Extends s.1 ∧
        Brought joins many large listing request.pattern unread cursor batch s.1 ∧
        (Terms.keeping source calm).world s.2)
      fun _ s => front.Extends s.1 ∧ (Terms.keeping source calm).world s.2 ∧ ¬ calm := by
  induction patience generalizing cursor level world unread with
  | zero => exact ⟨extended, w, fun calm => absurd (enough calm) (Nat.not_lt_zero _)⟩
  | succ patience ih =>
    rw [fetch_succ_meets]
    have read : (Terms.keeping source calm).world { world with
        source := (reader.read (call request level cursor) world.source).2 } :=
      ⟨answering.keeps _ _ w.1, w.2⟩
    have written := extended.write (reader.read (call request level cursor) world.source).1
    have keep := extended.keep
    have length : (Deposit.into (reader.read (call request level cursor) world.source).1
        level.buffer level.keep).length = level.buffer.length := Bytes.length_overwrite _ _ _
    dsimp only
    rcases answer_cases answering level w.1 more left with
      ⟨seen, next, passes, progress, row, result⟩ | ⟨fault, result, room⟩
    · rw [result]
      dsimp only
      by_cases nothing : (listed request.pattern seen).length = 0 ∧ next ≠ cursorEnd
      · rw [if_pos nothing]
        obtain ⟨⟨rest, split, left'⟩, shrinks, held⟩ := passes
        have passed := List.length_pos_iff.mpr (progress nothing.2)
        refine (ih written (length ▸ positive) nothing.2 left' read ?_).mono ?_
          fun _ _ failed => failed
        · intro calm
          have enough := enough calm
          dsimp only
          rw [length]
          omega
        · rintro batch s ⟨extended, ⟨later, passes, row, count⟩, w⟩
          have none' := List.eq_nil_of_length_eq_zero nothing.1
          refine ⟨extended, ⟨seen ++ later, .trans split shrinks held passes, ?_, ?_⟩, w⟩
          · rwa [listed_append, none', List.nil_append]
          · rwa [listed_append, none', List.nil_append]
      · rw [if_neg nothing]
        exact ⟨written, ⟨seen, passes, row, rfl⟩, read⟩
    · rw [result]
      dsimp only
      by_cases overflow : fault.kind = .overflow
      · rw [if_pos overflow]
        refine (growInPlace_meets _ written fits read).mono ?_ fun _ _ failed => failed
        rintro _ ⟨grown, world⟩ ⟨extended, w, size⟩
        rw [length] at size
        dsimp only at size
        refine ih extended (by omega) more left w fun calm => ?_
        have enough := enough calm
        have room := (room calm).2
        omega
      · rw [if_neg overflow]
        exact ⟨written, read, fun calm => overflow (room calm).1⟩

/-- A level of a directory with a known listing, to which entries may be added, holds the records of
these entries that have been read, and has these entries of the listing ahead. -/
structure Spans (joins : Entry → Prop) (large : Nat) (listing : List Entry)
    (pattern : Option Text) (level : Level) (ahead read unread : List Entry) : Prop where
  holds : level.Holds (records read)
  left : Unread listing level.cursor unread
  ahead : ahead = kept listing read ++ listed pattern unread
  held : ∀ entry ∈ read, entry.Held joins large listing
  positive : 0 < level.buffer.length

theorem Spans.mono {level : Level} {larger : Nat}
    (spans : level.Spans joins large listing pattern ahead read unread) (le : large ≤ larger) :
    level.Spans joins larger listing pattern ahead read unread :=
  ⟨spans.holds, spans.left, spans.ahead, fun entry member => (spans.held entry member).mono le,
    spans.positive⟩

theorem Spans.nothing {level : Level}
    (spans : level.Spans joins large listing pattern ahead read unread)
    (none' : level.remaining = 0) (ended : level.isExhausted = true) : ahead = [] := by
  rw [spans.holds.remaining, records, List.length_map] at none'
  have left := spans.left
  have cursor : level.cursor = cursorEnd := by
    simpa only [isExhausted, decide_eq_true_eq] using ended
  rw [Unread, if_pos cursor] at left
  rw [spans.ahead, List.eq_nil_of_length_eq_zero none', left]
  rfl

/-- A level that drops its first record has the rest ahead. -/
theorem Spans.drop {level : Level} {entry : Entry} {left : List Entry}
    (spans : level.Spans joins large listing pattern ahead (entry :: read) unread)
    (split : ahead = kept listing [entry] ++ left) {current : Option Place}
    (holds : { level with current }.Holds (records read)) :
    { level with current }.Spans joins large listing pattern left read unread := by
  refine ⟨holds, spans.left, ?_, (List.forall_mem_cons.mp spans.held).2, spans.positive⟩
  have whole : ahead = kept listing [entry] ++ (kept listing read ++ listed pattern unread) := by
    rw [← List.append_assoc, ← kept_append]
    exact spans.ahead
  exact List.append_cancel_left (split.symm.trans whole)

/-- What a refill makes of a level: it may hold more, and its cursor has passed what that was. -/
def Widens (joins : Entry → Prop) (many large : Nat) (listing : List Entry)
    (pattern : Option Text) (ahead read : List Entry) (level widened : Level) : Prop :=
  ∃ fresh rest, widened.Spans joins large listing pattern ahead (read ++ fresh) rest ∧
    fresh.length + entriesLeft many widened.cursor ≤ entriesLeft many level.cursor

private theorem Spans.widens {level : Level}
    (spans : level.Spans joins large listing pattern ahead read unread) :
    Widens joins many large listing pattern ahead read level level :=
  ⟨[], unread, by rwa [List.append_nil], by rw [List.length_nil, Nat.zero_add]⟩

/-- A level that takes in the entries that match of those that a read has passed. -/
private theorem Spans.takeIn {level filled : Level} {seen : List Entry} {next : Int}
    (spans : level.Spans joins large listing pattern ahead read unread)
    (passes : Passes joins many large listing unread level.cursor seen next)
    (holds : filled.Holds (records (read ++ listed pattern seen))) (cursor : filled.cursor = next)
    (positive : 0 < filled.buffer.length) :
    Widens joins many large listing pattern ahead read level filled := by
  obtain ⟨⟨rest, split, left⟩, shrinks, held⟩ := passes
  subst cursor
  refine ⟨listed pattern seen, rest, ⟨holds, left, ?_, ?_, positive⟩, ?_⟩
  · rw [spans.ahead, split, listed_append, kept_append, kept_listed, List.append_assoc]
  · exact List.forall_mem_append.mpr
      ⟨spans.held, fun entry member => held entry (mem_of_listed member)⟩
  · have fewer := List.length_filter_le
      (fun entry => Pattern.matchesName pattern entry.name) seen
    unfold listed
    omega

/-- A refill changes nothing of what is ahead. In calm it succeeds. -/
private theorem refill_meets_of_answersEnlarged
    (answering : AnswersEnlarged reader source calm joins many large request listing)
    {level : Level} {world : World ρ} (last : read.length ≤ 1)
    (spans : level.Spans joins large listing request.pattern ahead read unread)
    (more : level.isExhausted = false) (w : (Terms.keeping source calm).world world)
    (enough : calm → many + large < patience) :
    (refill reader patience request).Meets (level, world)
      (fun _ s => (Terms.keeping source calm).world s.2 ∧
        Widens joins many large listing request.pattern ahead read level s.1)
      fun _ s => (Terms.keeping source calm).world s.2 ∧ ¬ calm ∧
        Widens joins many large listing request.pattern ahead read level s.1 := by
  have short : (records read).length ≤ 1 := by
    rw [records, List.length_map]
    exact last
  have ready := spans.holds.moveToFront short
  have front : 2 * level.moveToFront.keep ≤ large := by
    rw [ready.keep]
    rcases Nat.le_one_iff_eq_zero_or_eq_one.mp last with none | one
    · obtain rfl := List.length_eq_zero_iff.mp none
      exact Nat.zero_le _
    · obtain ⟨entry, rfl⟩ := List.length_eq_one_iff.mp one
      exact (spans.held entry List.mem_cons_self).short
  have further : level.cursor ≠ cursorEnd := by
    simpa only [isExhausted, decide_eq_false_iff_not] using more
  have patient : calm →
      entriesLeft many level.cursor + (large - level.moveToFront.buffer.length) < patience := by
    intro calm
    have enough := enough calm
    have fewer := entriesLeft_le many level.cursor
    omega
  have fetches := fetch_meets_of_answersEnlarged answering ready.fits front (Extends.refl _)
    (ready.size ▸ spans.positive) further spans.left w patient
  refine (refill_meets_of_fetch _
    (Brought joins many large listing request.pattern unread level.cursor) spans.holds short more
    fetches ?_).mono ?_ ?_
  · rintro batch fetched fault - ⟨seen, -, row, count⟩ refused
    have checked := row.check
    rw [records, List.length_map, ← count] at checked
    rw [checked] at refused
    cases refused
  · rintro n ⟨left, world⟩ ⟨w, fresh, batch, fetched, number, count, row, extended,
      ⟨seen, passes, row', count'⟩, ⟨current, rfl⟩, holds⟩
    have same : fresh = records (listed request.pattern seen) := by
      refine Row.unique row row' ?_
      rw [records, List.length_map]
      omega
    subst same
    refine ⟨w, spans.takeIn passes ?_ rfl ?_⟩
    · rw [records, List.map_append]
      exact holds
    · have long := extended.long
      have positive := spans.positive
      have size := ready.size
      dsimp only
      omega
  · rintro fault ⟨left, world⟩ ⟨w, wild, holds, -, cursor, size⟩
    have same : left.Spans joins large listing request.pattern ahead read unread :=
      ⟨holds, cursor ▸ spans.left, spans.ahead, spans.held, size ▸ spans.positive⟩
    obtain ⟨fresh, rest, spans', shrinks⟩ := same.widens
    exact ⟨w, wild, fresh, rest, spans', cursor ▸ shrinks⟩

/-- Trying to refill a level leaves what is ahead, and the current record if there is one. -/
theorem Spans.tried {level tried : Level}
    (spans : level.Spans joins large listing request.pattern ahead read unread)
    (answering : AnswersEnlarged reader source calm joins many large request listing)
    (attempt : level.Tried (Terms.keeping source calm) reader request tried) :
    Widens joins many large listing request.pattern ahead read level tried := by
  obtain rfl | ⟨patience, world, w, rfl⟩ := attempt
  · exact spans.widens
  · by_cases unfit : level.isExhausted = true ∨ 1 < level.remaining
    · obtain ⟨fault, run⟩ := refill_refuses reader patience request world unfit
      rw [Act.leaves, run]
      exact spans.widens
    · rw [not_or, Bool.not_eq_true, spans.holds.remaining, records, List.length_map] at unfit
      -- whether the refill would succeed in calm does not matter here
      have outcome : (refill reader patience request).Meets (level, world) _ _ :=
        refill_meets_of_answersEnlarged answering.wild (Nat.not_lt.mp unfit.2) spans unfit.1
          ⟨w.1, False.elim⟩ False.elim
      exact (outcome.mono (fun _ _ done => done.2) fun _ _ failed => failed.2.2).leaves

/-- In calm, with enough patience, refills succeed. -/
theorem Spans.serves {level : Level}
    (spans : level.Spans joins large listing request.pattern ahead read unread)
    (answering : AnswersEnlarged reader source calm joins many large request listing)
    (enough : calm → many + large < patience) :
    (Terms.keeping source calm).Serves reader patience request level := by
  intro more few world w
  rw [spans.holds.remaining, records, List.length_map] at few
  exact (refill_meets_of_answersEnlarged answering few spans more w enough).mono
    (fun _ _ done => done.1) fun _ _ failed => ⟨failed.1, failed.2.1⟩

end Level

end Catwalk
