import PapitalErp.Documents.DocumentNumbers

/-!
# The series of automatic numbers

In every order of the statements no two live documents of a type and year have one number, the
automatic numbers rise in the order of the commits, and each is the first serial from its
predecessor on that no live document held. What was held, and what a scan read, are facts about
earlier moments: they are recorded in `Past`, and the last theorem takes for it the moments of the
run itself.

Whoever writes a counter holds its row from the read to the commit, so the counter is the last
automatic number. The first number of a series has no counter to continue from: it continues from
the largest serial that the scan found, whoever gave it.
-/

namespace PapitalErp.DocumentNumbers

open Interleaving Transition

/-! ## The invariant -/

/-- What was so at some moment. -/
structure Past where
  /-- a live document had the number -/
  held : RefKey → Prop
  /-- the largest serial of the series that a scan could read -/
  scanned : Series → ℕ → Prop

/-- The last automatic number of a series. -/
def lastGiven (given : List Given) (series : Series) : Option ℕ :=
  ((given.filter fun g => decide (g.series = series)).getLast?).map Given.number

/-- The number continues from the last automatic one before it. The first one continues from the
counter there was at the start and, without one, from a scan. -/
def Follows (past : Past) (initial : Series → Option ℕ) (earlier : List Given) (g : Given) : Prop :=
  match lastGiven earlier g.series with
  | some last => g.previous = last
  | none => initial g.series = some g.previous ∨
      initial g.series = none ∧ past.scanned g.series g.previous

/-- The number is the first one from its predecessor and the start number on, but for serials that
live documents held. -/
structure Given.FirstFree (past : Past) (g : Given) : Prop where
  after : max (g.previous + 1) g.startNumber ≤ g.number
  passed : ∀ m, max (g.previous + 1) g.startNumber ≤ m → m < g.number →
    past.held ⟨g.series, toString m⟩

structure Tables.Valid (past : Past) (initial : Series → Option ℕ) (s : Tables) : Prop where
  unique : s.documents.Pairwise fun d e =>
    ¬(d.isDeleted = false ∧ e.isDeleted = false ∧ d.key = e.key)
  counted : ∀ series, s.counters series = (lastGiven s.given series <|> initial series)
  bounded : ∀ g ∈ s.given, ∃ last, s.counters g.series = some last ∧ g.number ≤ last
  rising : s.given.Pairwise fun g h => g.series = h.series → g.number < h.number
  free : ∀ g ∈ s.given, g.FirstFree past
  follows : ∀ earlier g later, s.given = earlier ++ g :: later → Follows past initial earlier g
  kept : ∀ g ∈ s.given, ∃ d ∈ s.documents, d.id = g.documentId ∧ d.key = ⟨g.series, toString g.number⟩

/-- The transaction has the counter's row, and its search has come so far. -/
structure Searching (past : Past) (i : ℕ) (s : Tables) (search : Search) : Prop where
  own : s.counterLocks search.series = some i
  continues : s.counters search.series = some search.previous ∨
    s.counters search.series = none ∧ past.scanned search.series search.previous
  after : search.first ≤ search.serial
  passed : ∀ m, search.first ≤ m → m < search.serial → past.held ⟨search.series, toString m⟩

/-- What a request knows at a point. -/
def Knows (past : Past) (i : ℕ) (s : Tables) : Point → Prop
  | .seeding series _ maxNum => past.scanned series maxNum
  | .retrying series _ => s.counters series ≠ none
  | .searching search => Searching past i s search
  | .numbered series refNumber search => ∀ found ∈ search,
      Searching past i s found ∧ found.series = series ∧ toString found.serial = refNumber
  | .inserted series refNumber search => s.refLocks ⟨series, refNumber⟩ = some i ∧
      s.taken ⟨series, refNumber⟩ = false ∧ ∀ found ∈ search,
        Searching past i s found ∧ found.series = series ∧ toString found.serial = refNumber
  | _ => True

/-- The moment is recorded. -/
def Watched (past : Past) (_ : ℕ) (_ : Weather) (s : Tables) (_ : Point) : Prop :=
  (∀ key, s.taken key = true → past.held key) ∧
    ∀ series, past.scanned series (s.getMaxExistingRefNumber series)

/-- What the others see of a statement: a counter is written by who has its row, a number is taken
by who has its entry in the index. -/
structure Leaves (i : ℕ) (s s' : Tables) : Prop where
  counters : ∀ series, s'.counters series = s.counters series ∨
    s.counterLocks series = some i ∧ s'.counters series ≠ none
  counterLocks : ∀ series j, j ≠ i → s.counterLocks series = some j → s'.counterLocks series = some j
  refLocks : ∀ key j, j ≠ i → s.refLocks key = some j → s'.refLocks key = some j
  taken : ∀ key, s'.taken key = true → s.taken key = true ∨ s.refLocks key = some i

structure Outcome (past : Past) (initial : Series → Option ℕ) (i : ℕ) (s : Tables)
    (out : Tables × Point) : Prop where
  leaves : Leaves i s out.1
  valid : out.1.Valid past initial
  knows : Knows past i out.1 out.2

variable {past : Past} {initial : Series → Option ℕ} {s s' : Tables} {i j : ℕ} {series : Series}
  {refNumber : String} {search : Search} {found : Option Search} {startNumber maxNum : ℕ} {next : Point}

theorem Leaves.refl (i : ℕ) (s : Tables) : Leaves i s s :=
  ⟨fun _ => .inl rfl, fun _ _ _ held => held, fun _ _ _ held => held, fun _ taken => .inl taken⟩

/-- The rows stay, and the locks of the others. -/
theorem Leaves.of_locks (counters : s'.counters = s.counters) (documents : s'.documents = s.documents)
    (counterLocks : ∀ series j, j ≠ i → s.counterLocks series = some j → s'.counterLocks series = some j)
    (refLocks : ∀ key j, j ≠ i → s.refLocks key = some j → s'.refLocks key = some j) :
    Leaves i s s' := by
  refine ⟨fun series => .inl (by rw [counters]), counterLocks, refLocks, fun key taken => .inl ?_⟩
  rwa [Tables.taken, documents] at taken

theorem Tables.Valid.of_rows (valid : s.Valid past initial) (counters : s'.counters = s.counters)
    (documents : s'.documents = s.documents) (given : s'.given = s.given) : s'.Valid past initial := by
  obtain ⟨unique, counted, bounded, rising, free, follows, kept⟩ := valid
  constructor <;> simp only [counters, documents, given] <;> assumption

theorem outcome_go (valid : s.Valid past initial) (knows : Knows past i s next) :
    Outcome past initial i s (s, next) :=
  ⟨.refl i s, valid, knows⟩

theorem leaves_release (i : ℕ) (s : Tables) : Leaves i s (s.release i) :=
  .of_locks rfl rfl (fun _ _ apart held => Locks.release_keeps apart held)
    fun _ _ apart held => Locks.release_keeps apart held

theorem outcome_abort (valid : s.Valid past initial) : Outcome past initial i s (s.abort i) :=
  ⟨leaves_release i s, valid.of_rows rfl rfl rfl, trivial⟩

/-! ## Locks and searches -/

theorem takeCounter_leaves {counterLocks : Locks Series ℕ}
    (taken : s.counterLocks.take i series = some counterLocks) :
    Leaves i s { s with counterLocks := counterLocks } := by
  refine .of_locks rfl rfl (fun series' j apart held => ?_) fun _ _ _ held => held
  obtain kept | ⟨-, same⟩ := Locks.take_keeps taken held
  · exact kept
  · exact absurd same apart

/-- A search starts under the row lock of its counter. -/
theorem search_outcome {previous : ℕ} {counterLocks : Locks Series ℕ} (valid : s.Valid past initial)
    (taken : s.counterLocks.take i series = some counterLocks)
    (continues : s.counters series = some previous ∨
      s.counters series = none ∧ past.scanned series previous) :
    Outcome past initial i s (({ s with counterLocks := counterLocks } : Tables).search i series previous
      startNumber) := by
  have leaves := takeCounter_leaves taken
  have valid' : ({ s with counterLocks := counterLocks } : Tables).Valid past initial :=
    valid.of_rows rfl rfl rfl
  unfold Tables.search
  split
  · refine ⟨leaves, valid', Locks.take_self taken, continues, le_rfl, ?_⟩
    intro m first before
    exact absurd before (Nat.not_lt.mpr first)
  · refine ⟨?_, (outcome_abort valid').valid, trivial⟩
    refine .of_locks rfl rfl (fun series' j apart held => ?_) fun key j apart held =>
      Locks.release_keeps apart held
    exact Locks.release_keeps apart (leaves.counterLocks series' j apart held)

theorem lockCounter_outcome (valid : s.Valid past initial) {out : Tables × Point}
    (runs : s.lockCounter i series startNumber = some out) : Outcome past initial i s out := by
  unfold Tables.lockCounter at runs
  cases counter : s.counters series with
  | none =>
      simp only [counter] at runs
      obtain rfl := Option.some.inj runs.symm
      exact outcome_go valid trivial
  | some last =>
      simp only [counter, Option.map_eq_some_iff] at runs
      obtain ⟨counterLocks, taken, rfl⟩ := runs
      exact search_outcome valid taken (.inl counter)

theorem seedCounter_outcome (valid : s.Valid past initial) (scanned : past.scanned series maxNum)
    {out : Tables × Point} (runs : s.seedCounter i series startNumber maxNum = some out) :
    Outcome past initial i s out := by
  unfold Tables.seedCounter at runs
  cases counter : s.counters series with
  | some last =>
      simp only [counter] at runs
      obtain rfl := Option.some.inj runs.symm
      exact outcome_go valid (by simp [Knows, counter])
  | none =>
      simp only [counter, Option.map_eq_some_iff] at runs
      obtain ⟨counterLocks, taken, rfl⟩ := runs
      exact search_outcome valid taken (.inr ⟨counter, scanned⟩)

theorem retryCounter_outcome (valid : s.Valid past initial) (seeded : s.counters series ≠ none)
    {out : Tables × Point} (runs : s.retryCounter i series startNumber = some out) :
    Outcome past initial i s out := by
  simp only [Tables.retryCounter, Option.map_eq_some_iff] at runs
  obtain ⟨counterLocks, taken, rfl⟩ := runs
  obtain ⟨last, counter⟩ := Option.ne_none_iff_exists'.mp seeded
  rw [counter, Option.getD_some]
  exact search_outcome valid taken (.inl counter)

/-- A serial is passed over only if a live document holds it. -/
theorem lookAt_outcome (valid : s.Valid past initial)
    (held : ∀ key, s.taken key = true → past.held key) (knows : Searching past i s search) :
    Outcome past initial i s (s.lookAt i search) := by
  unfold Tables.lookAt
  split
  · exact outcome_abort valid
  split
  · rename_i taken
    refine outcome_go valid ⟨knows.own, knows.continues, knows.after.trans (Nat.le_succ _), ?_⟩
    intro m first before
    rcases Nat.lt_succ_iff_lt_or_eq.mp before with earlier | rfl
    · exact knows.passed m first earlier
    · exact held _ taken
  split
  · refine outcome_go valid ?_
    rintro found ⟨⟩
    exact ⟨knows, rfl, rfl⟩
  · exact outcome_abort valid

theorem assertRefNumberFree_outcome (valid : s.Valid past initial) :
    Outcome past initial i s (s.assertRefNumberFree i series refNumber) := by
  unfold Tables.assertRefNumberFree
  split
  · exact outcome_abort valid
  · exact outcome_go valid (fun _ none => by cases none)

theorem insertDocument_outcome (valid : s.Valid past initial)
    (knows : Knows past i s (.numbered series refNumber found)) {out : Tables × Point}
    (runs : s.insertDocument i series refNumber found = some out) : Outcome past initial i s out := by
  unfold Tables.insertDocument at runs
  split at runs
  · obtain rfl := Option.some.inj runs.symm
    exact outcome_abort valid
  · rename_i free
    rw [Option.map_eq_some_iff] at runs
    obtain ⟨refLocks, taken, rfl⟩ := runs
    refine ⟨.of_locks rfl rfl (fun _ _ _ held => held) fun key j apart held => ?_,
      valid.of_rows rfl rfl rfl, Locks.take_self taken, Bool.eq_false_iff.mpr free, ?_⟩
    · obtain kept | ⟨-, same⟩ := Locks.take_keeps taken held
      · exact kept
      · exact absurd same apart
    · intro search mem
      obtain ⟨searching, sameSeries, sameNumber⟩ := knows search mem
      exact ⟨⟨searching.own, searching.continues, searching.after, searching.passed⟩, sameSeries, sameNumber⟩

/-! ## The writes of the documents -/

theorem taken_iff {key : RefKey} :
    s.taken key = true ↔ ∃ d ∈ s.documents, d.isDeleted = false ∧ d.key = key := by
  simp [Tables.taken]

/-- A new document with a free number. -/
theorem addDocument_valid (valid : s.Valid past initial) (free : s.taken ⟨series, refNumber⟩ = false) :
    (s.addDocument i series refNumber).Valid past initial := by
  refine ⟨?_, valid.counted, valid.bounded, valid.rising, valid.free, valid.follows, ?_⟩
  · refine List.pairwise_append.mpr ⟨valid.unique, List.pairwise_singleton _ _, ?_⟩
    intro d mem e new
    obtain rfl := List.mem_singleton.mp new
    rintro ⟨live, -, same⟩
    exact Bool.eq_false_iff.mp free (taken_iff.mpr ⟨d, mem, live, same⟩)
  · intro g mem
    obtain ⟨d, docMem, named, key⟩ := valid.kept g mem
    exact ⟨d, List.mem_append_left _ docMem, named, key⟩

theorem lastGiven_append (given : List Given) (g : Given) (series : Series) :
    lastGiven (given ++ [g]) series = if g.series = series then some g.number else lastGiven given series := by
  unfold lastGiven
  rw [List.filter_append]
  split <;> simp [*]

/-- The counter of a series is at least every number given. -/
theorem number_le_previous (valid : s.Valid past initial) (knows : Searching past i s search) {g : Given}
    (mem : g ∈ s.given) (same : g.series = search.series) : g.number ≤ search.previous := by
  obtain ⟨last, counter, le⟩ := valid.bounded g mem
  rw [same] at counter
  rcases knows.continues with continues | ⟨none, -⟩
  · rw [Option.some.inj (continues.symm.trans counter)]
    exact le
  · rw [none] at counter
    cases counter

/-- The number of a search is the next one of its series. -/
theorem giveNumber_valid (valid : s.Valid past initial) (knows : Searching past i s search)
    (document : ∃ d ∈ s.documents, d.id = i ∧ d.key = ⟨search.series, toString search.serial⟩) :
    (s.giveNumber i search).Valid past initial := by
  have beyond : search.previous < search.serial :=
    Nat.lt_of_succ_le ((le_max_left _ _).trans knows.after)
  refine ⟨valid.unique, ?_, ?_, ?_, ?_, ?_, ?_⟩
  · intro series
    show Function.update s.counters search.series (some search.serial) series = _
    rw [Tables.giveNumber, lastGiven_append, Function.update_apply]
    by_cases same : series = search.series
    · simp [same]
    · rw [if_neg same, if_neg (Ne.symm same)]
      exact valid.counted series
  · intro g mem
    show ∃ last, Function.update s.counters search.series (some search.serial) g.series = some last ∧ _
    by_cases same : g.series = search.series
    · refine ⟨search.serial, by rw [same, Function.update_self], ?_⟩
      rcases List.mem_append.mp mem with earlier | new
      · exact (number_le_previous valid knows earlier same).trans beyond.le
      · rw [List.mem_singleton.mp new]
    · rw [Function.update_of_ne same]
      rcases List.mem_append.mp mem with earlier | new
      · exact valid.bounded g earlier
      · exact absurd (congrArg Given.series (List.mem_singleton.mp new)) same
  · refine List.pairwise_append.mpr ⟨valid.rising, List.pairwise_singleton _ _, ?_⟩
    intro g mem h new same
    obtain rfl := List.mem_singleton.mp new
    exact (number_le_previous valid knows mem same).trans_lt beyond
  · intro g mem
    rcases List.mem_append.mp mem with earlier | new
    · exact valid.free g earlier
    · obtain rfl := List.mem_singleton.mp new
      exact ⟨knows.after, knows.passed⟩
  · intro earlier g later split_
    rcases later.eq_nil_or_concat with rfl | ⟨before, last, rfl⟩
    · obtain ⟨rfl, same⟩ := List.append_inj' split_ rfl
      obtain rfl := List.cons.inj same |>.1
      show Follows past initial s.given _
      unfold Follows
      have counted := valid.counted search.series
      cases given : lastGiven s.given search.series with
      | some last =>
          rw [given] at counted
          rcases knows.continues with continues | ⟨none, -⟩
          · exact Option.some.inj (continues.symm.trans counted)
          · cases none.symm.trans counted
      | none =>
          have continues := knows.continues
          rw [counted, given] at continues
          exact continues
    · refine valid.follows earlier g before ?_
      rw [List.concat_eq_append, ← List.cons_append, ← List.append_assoc] at split_
      exact (List.append_inj' split_ rfl).1
  · intro g mem
    rcases List.mem_append.mp mem with earlier | new
    · exact valid.kept g earlier
    · obtain rfl := List.mem_singleton.mp new
      exact document

/-- A commit publishes the document and the number under their locks. -/
theorem commit_outcome (valid : s.Valid past initial)
    (knows : Knows past i s (.inserted series refNumber found)) :
    Outcome past initial i s (s.commit i series refNumber found) := by
  obtain ⟨entry, free, searches⟩ := knows
  have added : (s.addDocument i series refNumber).Valid past initial := addDocument_valid valid free
  have taken : ∀ key, (s.addDocument i series refNumber).taken key = true →
      s.taken key = true ∨ s.refLocks key = some i := by
    intro key held
    obtain ⟨d, mem, live, same⟩ := taken_iff.mp held
    rcases List.mem_append.mp mem with earlier | new
    · exact .inl (taken_iff.mpr ⟨d, earlier, live, same⟩)
    · obtain rfl := List.mem_singleton.mp new
      exact .inr (same ▸ entry)
  cases found with
  | none =>
      refine ⟨⟨fun _ => .inl rfl, ?_, ?_, taken⟩, added.of_rows rfl rfl rfl, trivial⟩
      · exact fun _ _ apart held => Locks.release_keeps apart held
      · exact fun _ _ apart held => Locks.release_keeps apart held
  | some search =>
      obtain ⟨searching, rfl, rfl⟩ := searches search rfl
      have searching' : Searching past i (s.addDocument i search.series (toString search.serial)) search :=
        ⟨searching.own, searching.continues, searching.after, searching.passed⟩
      have document : ∃ d ∈ (s.addDocument i search.series (toString search.serial)).documents,
          d.id = i ∧ d.key = ⟨search.series, toString search.serial⟩ :=
        ⟨_, List.mem_append_right _ (List.mem_singleton_self _), rfl, rfl⟩
      refine ⟨⟨fun series => ?_, ?_, ?_, taken⟩,
        (giveNumber_valid added searching' document).of_rows rfl rfl rfl, trivial⟩
      · by_cases same : series = search.series
        · refine .inr ⟨same ▸ searching.own, ?_⟩
          show Function.update s.counters search.series (some search.serial) series ≠ none
          simp [same]
        · exact .inl (Function.update_of_ne same _ _)
      · exact fun _ _ apart held => Locks.release_keeps apart held
      · exact fun _ _ apart held => Locks.release_keeps apart held

/-- A void frees a number and gives none. -/
theorem void_outcome (valid : s.Valid past initial) (documentId : ℕ) :
    Outcome past initial i s (s.voidDocument documentId, .ended) := by
  have key (d : Document) :
      (if d.id = documentId then { d with isDeleted := true } else d).key = d.key := by
    split <;> rfl
  have live (d : Document)
      (after : (if d.id = documentId then { d with isDeleted := true } else d).isDeleted = false) :
      d.isDeleted = false := by
    split at after
    · cases after
    · exact after
  refine ⟨⟨fun _ => .inl rfl, fun _ _ _ held => held, fun _ _ _ held => held, ?_⟩, ?_, trivial⟩
  · intro refKey taken
    obtain ⟨after, mem, isLive, same⟩ := taken_iff.mp taken
    obtain ⟨d, docMem, rfl⟩ := List.mem_map.mp mem
    exact .inl (taken_iff.mpr ⟨d, docMem, live d isLive, (key d).symm.trans same⟩)
  · refine ⟨?_, valid.counted, valid.bounded, valid.rising, valid.free, valid.follows, ?_⟩
    · refine List.pairwise_map.mpr (valid.unique.imp ?_)
      rintro d e apart ⟨liveD, liveE, same⟩
      exact apart ⟨live d liveD, live e liveE, (key d).symm.trans (same.trans (key e))⟩
    · intro g mem
      obtain ⟨d, docMem, named, same⟩ := valid.kept g mem
      refine ⟨_, List.mem_map_of_mem docMem, ?_, (key d).trans same⟩
      split <;> exact named

/-! ## Runs -/

theorem statement_outcome (valid : s.Valid past initial) {weather : Weather} {point : Point}
    (cond : Watched past i weather s point) (knows : Knows past i s point) {out : Tables × Point}
    (runs : statement i weather s point = some out) : Outcome past initial i s out := by
  cases point with
  | sent request =>
      cases request with
      | create docType fiscalYear requested =>
          cases requested with
          | none =>
              obtain rfl := Option.some.inj runs.symm
              exact outcome_go valid trivial
          | some text =>
              simp only [statement] at runs
              split at runs
              · obtain rfl := Option.some.inj runs.symm
                exact outcome_go valid trivial
              · obtain rfl := Option.some.inj runs.symm
                exact assertRefNumberFree_outcome valid
      | peek docType fiscalYear =>
          obtain rfl := Option.some.inj runs.symm
          exact outcome_go valid trivial
      | void documentId =>
          obtain rfl := Option.some.inj runs.symm
          exact void_outcome valid documentId
  | counting series startNumber => exact lockCounter_outcome valid runs
  | scanning series startNumber =>
      obtain rfl := Option.some.inj runs.symm
      exact outcome_go valid (cond.2 series)
  | seeding series startNumber maxNum => exact seedCounter_outcome valid knows runs
  | retrying series startNumber => exact retryCounter_outcome valid knows runs
  | searching search =>
      obtain rfl := Option.some.inj runs.symm
      exact lookAt_outcome valid cond.1 knows
  | numbered series refNumber search => exact insertDocument_outcome valid knows runs
  | inserted series refNumber search =>
      obtain rfl := Option.some.inj runs.symm
      exact commit_outcome valid knows
  | peeking series startNumber =>
      simp only [statement] at runs
      split at runs <;>
      · obtain rfl := Option.some.inj runs.symm
        exact outcome_go valid trivial
  | peekScanning series startNumber =>
      obtain rfl := Option.some.inj runs.symm
      exact outcome_go valid trivial
  | peekSearching search =>
      obtain rfl := Option.some.inj runs.symm
      refine outcome_go valid ?_
      unfold Tables.peekAt
      split_ifs <;> trivial
  | answered nextRef => cases runs
  | ended => cases runs

theorem requests_outcome (valid : s.Valid past initial) {weather : Weather} {point : Point}
    (cond : Watched past i weather s point) (knows : Knows past i s point) {out : Tables × Point}
    (runs : requests i weather s point = some out) : Outcome past initial i s out := by
  unfold requests at runs
  split at runs
  · obtain rfl := Option.some.inj runs.symm
    exact outcome_abort valid
  · exact statement_outcome valid cond knows runs

/-- A search goes on under its lock, whatever another request does. -/
theorem Searching.others (leaves : Leaves i s s') (apart : j ≠ i) (knows : Searching past j s search) :
    Searching past j s' search := by
  have same : s'.counters search.series = s.counters search.series := by
    rcases leaves.counters search.series with same | ⟨own, -⟩
    · exact same
    · exact absurd (Option.some.inj (knows.own.symm.trans own)) apart
  exact ⟨leaves.counterLocks _ j apart knows.own, same ▸ knows.continues, knows.after, knows.passed⟩

theorem knows_others (leaves : Leaves i s s') (apart : j ≠ i) {other : Point}
    (h : Knows past j s other) : Knows past j s' other := by
  cases other with
  | retrying series startNumber =>
      rcases leaves.counters series with same | ⟨-, some⟩
      · exact fun none => h (same.symm.trans none)
      · exact some
  | searching search => exact h.others leaves apart
  | numbered series refNumber search =>
      intro found mem
      obtain ⟨searching, same⟩ := h found mem
      exact ⟨searching.others leaves apart, same⟩
  | inserted series refNumber search =>
      obtain ⟨entry, free, searches⟩ := h
      refine ⟨leaves.refLocks _ j apart entry, Bool.eq_false_iff.mpr fun taken => ?_, ?_⟩
      · rcases leaves.taken _ taken with before | own
        · exact Bool.eq_false_iff.mp free before
        · exact apart (Option.some.inj (entry.symm.trans own))
      · intro found mem
        obtain ⟨searching, same⟩ := searches found mem
        exact ⟨searching.others leaves apart, same⟩
  | _ => exact h

theorem outline (past : Past) (initial : Series → Option ℕ) :
    Outline requests (Watched past) (Tables.Valid past initial) (Knows past) where
  own valid knows cond runs := by
    have outcome := requests_outcome valid cond knows runs
    exact ⟨outcome.valid, outcome.knows⟩
  others apart valid knows other cond runs :=
    knows_others (requests_outcome valid cond knows runs).leaves apart other

/-- Tables before the first request: documents with distinct numbers, and counters. -/
structure Start where
  counters : Series → Option ℕ
  documents : List Document
  unique : documents.Pairwise fun d e => ¬(d.isDeleted = false ∧ e.isDeleted = false ∧ d.key = e.key)

def Start.tables (start : Start) : Tables :=
  ⟨start.counters, start.documents, fun _ => none, fun _ => none, []⟩

/-- Every request is sent. -/
def Start.config (start : Start) (ops : ℕ → Request) : Config ℕ Tables Point :=
  ⟨start.tables, fun i => .sent (ops i)⟩

theorem holds_start (past : Past) (start : Start) (ops : ℕ → Request) :
    Holds (Tables.Valid past start.counters) (Knows past) (start.config ops) := by
  refine ⟨⟨start.unique, fun _ => rfl, nofun, List.Pairwise.nil, nofun, ?_, nofun⟩, fun _ => trivial⟩
  intro earlier g later split_
  exact absurd split_.symm (List.append_ne_nil_of_right_ne_nil _ (List.cons_ne_nil _ _))

/-- The moments of a run. -/
def pastOf (start : Start) (ops : ℕ → Request) (schedule : List (ℕ × Weather)) : Past where
  held key := ∃ n, (requests.after (start.config ops) (schedule.take n)).shared.taken key = true
  scanned series maxNum := ∃ n,
    (requests.after (start.config ops) (schedule.take n)).shared.getMaxExistingRefNumber series = maxNum

/-- After every schedule no two live documents of a type and year have one number, the automatic
numbers of a series rise in the order of the commits and belong to documents, and each is the first
serial from the automatic number before it that no live document held; the first number of a
series without a counter continues from the largest serial that a scan found. -/
theorem document_numbers (start : Start) (ops : ℕ → Request) (schedule : List (ℕ × Weather)) :
    let s := (requests.after (start.config ops) schedule).shared
    (s.documents.Pairwise fun d e => ¬(d.isDeleted = false ∧ e.isDeleted = false ∧ d.key = e.key)) ∧
    (s.given.Pairwise fun g h => g.series = h.series → g.number < h.number) ∧
    (∀ g ∈ s.given, ∃ d ∈ s.documents,
      d.id = g.documentId ∧ d.key = ⟨g.series, toString g.number⟩) ∧
    (∀ g ∈ s.given, g.FirstFree (pastOf start ops schedule)) ∧
    ∀ earlier g later, s.given = earlier ++ g :: later →
      Follows (pastOf start ops schedule) start.counters earlier g := by
  have watched : requests.Meets (Watched (pastOf start ops schedule)) (start.config ops) schedule :=
    along_of_take fun n _ => ⟨fun _ taken => ⟨n, taken⟩, fun _ => ⟨n, rfl⟩⟩
  have valid := ((outline _ _).after_meets (holds_start _ start ops) watched).shared
  exact ⟨valid.unique, valid.rising, valid.kept, valid.free, valid.follows⟩

/-- Two automatic receipts of a year get 1 and 2; with a receipt that its user numbered 900000
before the first of them, they get 900001 and 900002. -/
theorem manual_number_starts_series :
    ∃ (start : Start) (ops : ℕ → Request) (automatic manual : List (ℕ × Weather)),
      ops 1 = .create "receipt" 1404 none ∧ ops 2 = .create "receipt" 1404 none ∧
      ops 3 = .create "receipt" 1404 (some "900000") ∧
      (requests.after (start.config ops) automatic).shared.documents.map (·.refNumber) = ["1", "2"] ∧
      (requests.after (start.config ops) (manual ++ automatic)).shared.documents.map (·.refNumber) =
        ["900000", "900001", "900002"] := by
  let clear : Weather := ⟨false, none⟩
  let ops : ℕ → Request := fun i =>
    .create "receipt" 1404 (if i = 3 then some "900000" else none)
  refine ⟨⟨fun _ => none, [], .nil⟩, ops,
    List.replicate 7 (1, clear) ++ List.replicate 7 (2, clear), List.replicate 3 (3, clear), rfl, rfl, rfl, ?_⟩
  decide +kernel

end PapitalErp.DocumentNumbers
