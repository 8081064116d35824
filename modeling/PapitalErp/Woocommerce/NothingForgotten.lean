import PapitalErp.Woocommerce.WcAutoPush

/-!
# No stock change is forgotten by the automatic push

A link that a run finds to differ and does not record as pushed is compared by the next run that picks
its links, as long as that one tracks it. The links past the cap and those that a request did not reach
are marked, and a run that fails puts the marks that it took back.

Two kinds are left without a mark: a product that the shop refused by itself, and what was sent when the
outcomes could not be recorded. They are due only when their stock is not the one they were last settled
at, when an order names them, or in the hourly pass.
-/

namespace PapitalErp.WcAutoPush

open Transition Server

/-- Whatever the marks that were taken name, the marks name. -/
def Covers (marks taken : DueMarks) : Prop :=
  ∀ link, taken.isMarkedDue link = true → marks.isMarkedDue link = true

/-- No run has passed over a link that it had to compare, and the marks of the runs that failed are there
for the next one. -/
structure Remembered (s : Server) : Prop where
  compared : s.forgotten = ∅
  marks : s.run = .idle → ∀ taken ∈ s.failed, Covers s.marks taken

/-- When a run picks its links, those that were left without a mark are due: the pass is an hourly one, an
order has named them since, or their stock is not the one they were settled at. -/
def unmarkedDue (s : Server) : Step → Bool
  | .advance weather =>
      match s.run with
      | .read marks now all =>
          weather.fails || s.fullPass now || (tracked all).all fun link =>
            link.toLinkKey ∉ s.unmarked || marks.isMarkedDue link.toLinkKey || s.isDue link
      | _ => true
  | _ => true

def UnmarkedDue (s : Server) (op : Step) : Prop := unmarkedDue s op = true

instance (s : Server) (op : Step) : Decidable (UnmarkedDue s op) :=
  inferInstanceAs (Decidable (_ = true))

/-! ## Marks -/

namespace DueMarks

variable {marks taken : DueMarks} {link : LinkKey}

theorem isMarkedDue_iff : marks.isMarkedDue link = true ↔ marks.everyLink = true ∨ link.id ∈ marks.linkIds ∨
    (link.wcProductId, link.wcVariationId) ∈ marks.orderKeys ∨
    (link.wcVariationId = 0 ∧ ∃ variationId, (link.wcProductId, variationId) ∈ marks.orderKeys) := by
  have product : link.wcProductId ∈ marks.productIds ↔
      ∃ variationId, (link.wcProductId, variationId) ∈ marks.orderKeys := by
    simp [productIds]
  simp only [isMarkedDue, Bool.or_eq_true, Bool.and_eq_true, decide_eq_true_eq, product, or_assoc]

theorem isMarkedDue_restore : (marks.restore taken).isMarkedDue link = true ↔
    marks.isMarkedDue link = true ∨ taken.isMarkedDue link = true := by
  simp only [isMarkedDue_iff, restore, Bool.or_eq_true, Finset.mem_union, exists_or]
  tauto

theorem isMarkedDue_markLinksDue {linkIds : List ℕ} : (marks.markLinksDue linkIds).isMarkedDue link = true ↔
    marks.isMarkedDue link = true ∨ link.id ∈ linkIds := by
  simp only [isMarkedDue_iff, markLinksDue, Finset.mem_union, List.mem_toFinset]
  tauto

end DueMarks

open DueMarks

theorem covers_restore {marks taken earlier : DueMarks} (covers : Covers taken earlier) :
    Covers (marks.restore taken) earlier :=
  fun link named => isMarkedDue_restore.mpr (.inr (covers link named))

/-- An order names more links, and when there are too many all. -/
theorem covers_markOrderLinesDue (marks : DueMarks) (lines : Option (List OrderLine)) :
    Covers (marks.markOrderLinesDue lines) marks := by
  intro link named
  cases lines with
  | none => exact named
  | some lines =>
      simp only [markOrderLinesDue]
      split_ifs
      · simp [isMarkedDue]
      · rw [isMarkedDue_iff] at named ⊢
        refine named.imp_right (Or.imp_right (Or.imp (Finset.mem_union_left _) (And.imp_right ?_)))
        exact fun ⟨variationId, mem⟩ => ⟨variationId, Finset.mem_union_left _ mem⟩

/-! ## Requests -/

theorem mem_chunked {α : Type} {rows : List α} {row : α} (mem : row ∈ rows) :
    ∃ chunk ∈ chunked rows, row ∈ chunk := by
  obtain ⟨n, lt, rfl⟩ := List.getElem_of_mem mem
  have batch : WC_BATCH_SIZE = 100 := rfl
  have split : n / WC_BATCH_SIZE * WC_BATCH_SIZE + n % WC_BATCH_SIZE = n := Nat.div_add_mod' n _
  refine ⟨_, List.mem_map.mpr ⟨n / WC_BATCH_SIZE, List.mem_range.mpr ?_, rfl⟩, ?_⟩
  · rw [batch]
    omega
  · have inside : n % WC_BATCH_SIZE < WC_BATCH_SIZE := Nat.mod_lt _ (by decide)
    refine List.mem_iff_getElem.mpr ⟨n % WC_BATCH_SIZE, ?_, ?_⟩
    · rw [List.length_take, List.length_drop]
      omega
    · rw [List.getElem_take, List.getElem_drop]
      congr 1

/-- Every product to send is in a batch. -/
theorem mem_batches {wanted : List Wanted} {row : Wanted} (mem : row ∈ wanted) :
    ∃ rows ∈ batches wanted, row ∈ rows := by
  by_cases simple : row.link.wcVariationId = 0
  · have simpleMem : row ∈ wanted.filter fun row => row.link.wcVariationId = 0 :=
      List.mem_filter.mpr ⟨mem, decide_eq_true simple⟩
    obtain ⟨chunk, chunkMem, rowMem⟩ := mem_chunked simpleMem
    exact ⟨chunk, List.mem_append_left _ chunkMem, rowMem⟩
  · have variation : row ∈ wanted.filter fun row => 0 < row.link.wcVariationId :=
      List.mem_filter.mpr ⟨mem, by simpa using Nat.pos_of_ne_zero simple⟩
    have ofParent : row ∈ (wanted.filter fun row => 0 < row.link.wcVariationId).filter fun other =>
        other.link.wcProductId = row.link.wcProductId :=
      List.mem_filter.mpr ⟨variation, decide_eq_true rfl⟩
    obtain ⟨chunk, chunkMem, rowMem⟩ := mem_chunked ofParent
    refine ⟨chunk, List.mem_append_right _ (List.mem_flatMap.mpr ⟨row.link.wcProductId, ?_, chunkMem⟩), rowMem⟩
    exact List.mem_eraseDups.mpr (List.mem_map_of_mem variation)

theorem mem_pushBatch {weather : BatchWeather} {rows : List Wanted} {row : Wanted} (mem : row ∈ rows) :
    ∃ outcome ∈ pushBatch weather rows, outcome.link = row.link := by
  unfold pushBatch
  split_ifs
  · exact ⟨_, List.mem_map_of_mem mem, rfl⟩
  · cases weather.answer with
    | rows answers =>
        refine ⟨_, List.mem_map_of_mem mem, ?_⟩
        unfold answered
        split <;> rfl
    | failed err => exact ⟨_, List.mem_map_of_mem mem, rfl⟩

/-- Every product to send has an outcome. -/
theorem mem_sendStocks {weather : ℕ → BatchWeather} {wanted : List Wanted} {row : Wanted} (mem : row ∈ wanted) :
    ∃ outcome ∈ sendStocks weather wanted, outcome.link = row.link := by
  obtain ⟨rows, batchMem, rowMem⟩ := mem_batches mem
  obtain ⟨n, lt, rfl⟩ := List.getElem_of_mem batchMem
  obtain ⟨outcome, outcomeMem, same⟩ : ∃ outcome ∈ pushBatch (weather n) (batches wanted)[n], outcome.link = row.link :=
    mem_pushBatch rowMem
  refine ⟨outcome, List.mem_flatMap.mpr ⟨((batches wanted)[n], n), ?_, outcomeMem⟩, same⟩
  exact List.mem_zipIdx_iff_getElem?.mpr (List.getElem?_eq_getElem lt)

/-! ## The invariant -/

/-- The marks that the next picking uses. -/
def Server.inHand (s : Server) : DueMarks :=
  match s.run with
  | .idle => s.marks
  | .started marks _ | .read marks _ _ | .picked marks _ _ _ | .sending marks _ | .recording marks _ _ => marks

/-- The link is one of the rows to send. -/
def Sent (toSend : List Row) (key : LinkKey) : Prop := ∃ row ∈ toSend, row.link.toLinkKey = key

/-- Why a link that has to be compared will be. -/
def Owed (s : Server) (key : LinkKey) : Run → Prop
  | .idle => key ∈ s.unmarked ∨ s.marks.isMarkedDue key = true
  | .started marks _ | .read marks _ _ => key ∈ s.unmarked ∨ marks.isMarkedDue key = true
  | .picked marks _ _ due => (key ∈ s.unmarked ∨ marks.isMarkedDue key = true) ∧ ∃ link ∈ due, link.toLinkKey = key
  | .sending _ toSend => s.marks.isMarkedDue key = true ∨ Sent toSend key
  | .recording _ toSend outcomes => (s.marks.isMarkedDue key = true ∨ Sent toSend key) ∧
      (Sent toSend key → ∃ outcome ∈ outcomes, outcome.link.toLinkKey = key)

structure Kept (s : Server) : Prop where
  forgotten : s.forgotten = ∅
  failed : ∀ taken ∈ s.failed, Covers s.inHand taken
  owed : ∀ key ∈ s.owed, Owed s key s.run

theorem Kept.remembered {s : Server} (kept : Kept s) : Remembered s := by
  refine ⟨kept.forgotten, fun idle taken mem => ?_⟩
  have covers := kept.failed taken mem
  rwa [inHand, idle] at covers

variable {s : Server}

theorem start_kept (links : List Link) (nextLink : ℕ) (deletedItems : Finset ℕ) (sellable : ℕ → ℕ) :
    Kept (start links nextLink deletedItems sellable) :=
  ⟨rfl, nofun, nofun⟩

/-! ### Outside the runs -/

/-- What a run does not use may change, and orders may name more links. -/
theorem Kept.orderWebhook (kept : Kept s) (lines : Option (List OrderLine)) :
    Kept { s with marks := s.marks.markOrderLinesDue lines } := by
  have covers := covers_markOrderLinesDue s.marks lines
  refine ⟨kept.forgotten, fun taken mem => ?_, fun key mem => ?_⟩
  · have before := kept.failed taken mem
    unfold inHand at before ⊢
    cases run : s.run <;> simp only [run] at before ⊢
    · exact fun link named => covers link (before link named)
    all_goals exact before
  · have before := kept.owed key mem
    dsimp only
    cases run : s.run <;> simp only [run, Owed] at before ⊢
    · exact before.imp_right (covers key)
    · exact before
    · exact before
    · exact before
    · exact before.imp_left (covers key)
    · exact ⟨before.1.imp_left (covers key), before.2⟩

/-! ### The run -/

theorem Kept.takeDueMarks (kept : Kept s) (idle : s.run = .idle) (now : ℕ) : Kept (s.takeDueMarks now) := by
  refine ⟨kept.forgotten, fun taken mem => ?_, fun key mem => ?_⟩
  · have before := kept.failed taken mem
    rwa [inHand, idle] at before
  · have before := kept.owed key mem
    rwa [idle] at before

/-- A run that has no outcomes to record fails. -/
theorem Kept.fail (kept : Kept s) {marks : DueMarks} (inHand : s.inHand = marks)
    (owed : ∀ key ∈ s.owed, key ∈ s.unmarked ∨ marks.isMarkedDue key = true ∨ s.marks.isMarkedDue key = true) :
    Kept (s.fail marks) := by
  refine ⟨kept.forgotten, fun taken mem => ?_, fun key mem => ?_⟩
  · obtain rfl | earlier := List.mem_cons.mp mem
    · exact covers_restore fun _ => id
    · have before := kept.failed taken earlier
      rw [inHand] at before
      exact covers_restore before
  · refine (owed key mem).imp_right fun named => ?_
    exact isMarkedDue_restore.mpr named.symm

/-- What a run picks includes every link that it has to compare. -/
theorem mustCompare_due (kept : Kept s) {marks : DueMarks} {now : ℕ} {all : List Link}
    (run : s.run = .read marks now all)
    (unmarked : s.fullPass now = true ∨ ∀ link ∈ tracked all, link.toLinkKey ∉ s.unmarked ∨
      marks.isMarkedDue link.toLinkKey = true ∨ s.isDue link = true) {link : Link} (mem : link ∈ tracked all)
    (must : link.toLinkKey ∈ s.owed ∨ ∃ taken ∈ s.failed, taken.isMarkedDue link.toLinkKey = true) :
    link ∈ s.due marks now all := by
  refine List.mem_filter.mpr ⟨mem, ?_⟩
  simp only [Bool.or_eq_true]
  obtain full | unmarked := unmarked
  · exact .inl (.inl full)
  obtain owed | ⟨taken, takenMem, named⟩ := must
  · have reason := kept.owed _ owed
    rw [run] at reason
    obtain left | named := reason
    · obtain no | named | moved := unmarked link mem
      · exact absurd left no
      · exact .inl (.inr named)
      · exact .inr moved
    · exact .inl (.inr named)
  · have covers := kept.failed taken takenMem
    rw [inHand, run] at covers
    exact .inl (.inr (covers _ named))

theorem Kept.pick (kept : Kept s) {marks : DueMarks} {now : ℕ} {all : List Link}
    (run : s.run = .read marks now all)
    (unmarked : s.fullPass now = true ∨ ∀ link ∈ tracked all, link.toLinkKey ∉ s.unmarked ∨
      marks.isMarkedDue link.toLinkKey = true ∨ s.isDue link = true) : Kept (s.pick marks now all) := by
  have picks {link : Link} := @mustCompare_due s kept marks now all run unmarked link
  have forgotten : s.forgotten ∪ ((s.mustCompare all).toFinset \
      ((s.due marks now all).map Link.toLinkKey).toFinset) = ∅ := by
    rw [kept.forgotten, Finset.empty_union, Finset.sdiff_eq_empty_iff_subset]
    intro key mem
    obtain ⟨link, linkMem, rfl⟩ := List.mem_map.mp (List.mem_toFinset.mp mem)
    obtain ⟨mem, must⟩ := List.mem_filter.mp linkMem
    refine List.mem_toFinset.mpr (List.mem_map_of_mem (picks mem ?_))
    simpa using must
  have owed : ∀ key ∈ s.owed ∩ ((tracked all).map Link.toLinkKey).toFinset,
      (key ∈ s.unmarked ∩ ((tracked all).map Link.toLinkKey).toFinset ∨ marks.isMarkedDue key = true) ∧
        ∃ link ∈ s.due marks now all, link.toLinkKey = key := by
    intro key mem
    obtain ⟨before, trackedMem⟩ := Finset.mem_inter.mp mem
    obtain ⟨link, linkMem, rfl⟩ := List.mem_map.mp (List.mem_toFinset.mp trackedMem)
    have reason := kept.owed _ before
    rw [run] at reason
    exact ⟨reason.imp_left fun left => Finset.mem_inter.mpr ⟨left, trackedMem⟩,
      link, picks linkMem (.inl before), rfl⟩
  unfold Server.pick
  dsimp only
  split_ifs with none
  · refine ⟨forgotten, nofun, fun key mem => ?_⟩
    obtain ⟨-, link, linkMem, -⟩ := owed key mem
    rw [none] at linkMem
    cases linkMem
  · refine ⟨forgotten, fun taken mem => ?_, owed⟩
    have covers := kept.failed taken mem
    rwa [inHand, run] at covers

theorem Kept.compare (kept : Kept s) {marks : DueMarks} {now : ℕ} {fullPass : Bool} {due : List Link}
    (run : s.run = .picked marks now fullPass due) (weather : Weather) :
    Kept (s.compare marks now fullPass due weather) := by
  set rows : List Row := due.map fun link => ⟨⟨link, s.wanted weather.held link.itemId⟩, s.sellable link.itemId⟩
    with rows_eq
  set differing := rows.filter fun row : Row => some row.quantity ≠ row.link.siteStock with differing_eq
  have owed : ∀ key ∈ (s.owed \ (due.map Link.toLinkKey).toFinset) ∪
      (differing.map fun row : Row => row.link.toLinkKey).toFinset,
      (s.marks.markLinksDue ((differing.drop weather.maxProducts).map fun row : Row => row.link.id)).isMarkedDue key =
        true ∨ Sent (differing.take weather.maxProducts) key := by
    intro key mem
    obtain before | new := Finset.mem_union.mp mem
    · -- whatever was owed has been picked
      obtain ⟨owed, left⟩ := Finset.mem_sdiff.mp before
      have reason := kept.owed key owed
      rw [run] at reason
      obtain ⟨-, link, linkMem, rfl⟩ := reason
      exact absurd (List.mem_toFinset.mpr (List.mem_map_of_mem linkMem)) left
    · obtain ⟨row, rowMem, rfl⟩ := List.mem_map.mp (List.mem_toFinset.mp new)
      rw [← List.take_append_drop weather.maxProducts differing] at rowMem
      obtain sent | later := List.mem_append.mp rowMem
      · exact .inr ⟨row, sent, rfl⟩
      · exact .inl (isMarkedDue_markLinksDue.mpr (.inr (List.mem_map_of_mem (f := fun row : Row => row.link.id) later)))
  unfold Server.compare
  dsimp only
  rw [← rows_eq, ← differing_eq]
  by_cases none : differing.take weather.maxProducts = []
  · rw [if_pos none]
    refine ⟨kept.forgotten, nofun, fun key mem => ?_⟩
    obtain marked | ⟨row, rowMem, -⟩ := owed key mem
    · exact .inr marked
    · rw [none] at rowMem
      cases rowMem
  · rw [if_neg none]
    refine ⟨kept.forgotten, fun taken mem => ?_, owed⟩
    have covers := kept.failed taken mem
    rwa [inHand, run] at covers

/-- The links that are still owed when the outcomes are recorded are marked, or the shop refused them. -/
theorem Kept.record (kept : Kept s) {marks : DueMarks} {toSend : List Row} {outcomes : List Outcome}
    (run : s.run = .recording marks toSend outcomes) : Kept (s.record toSend outcomes).finish := by
  refine ⟨kept.forgotten, nofun, fun key mem => ?_⟩
  obtain ⟨before, left⟩ := Finset.mem_sdiff.mp mem
  have reason := kept.owed key before
  rw [run] at reason
  obtain ⟨marked | sent, answered⟩ := reason
  · exact .inr (isMarkedDue_markLinksDue.mpr (.inl marked))
  obtain ⟨outcome, outcomeMem, rfl⟩ := answered sent
  by_cases pushed : outcome.error = ""
  · exact absurd (List.mem_toFinset.mpr (List.mem_map.mpr
      ⟨outcome, List.mem_filter.mpr ⟨outcomeMem, decide_eq_true pushed⟩, rfl⟩)) left
  by_cases unreached : outcome.requestFailed = true
  · refine .inr (isMarkedDue_markLinksDue.mpr (.inr (List.mem_map.mpr ⟨outcome, ?_, rfl⟩)))
    exact List.mem_filter.mpr ⟨outcomeMem, by simp [pushed, unreached]⟩
  · refine .inl (Finset.mem_union_right _ (List.mem_toFinset.mpr (List.mem_map.mpr ⟨outcome, ?_, rfl⟩)))
    exact List.mem_filter.mpr ⟨outcomeMem, by simp [pushed, unreached]⟩

/-- When the recording fails, what was sent is marked by the marks of the run, or left without a mark. -/
theorem Kept.loseOutcomes (kept : Kept s) {marks : DueMarks} {toSend : List Row} {outcomes : List Outcome}
    (run : s.run = .recording marks toSend outcomes) : Kept (s.loseOutcomes marks toSend) := by
  refine ⟨kept.forgotten, fun taken mem => ?_, fun key mem => ?_⟩
  · obtain rfl | earlier := List.mem_cons.mp mem
    · exact covers_restore fun _ => id
    · have before := kept.failed taken earlier
      rw [inHand, run] at before
      exact covers_restore before
  · have reason := kept.owed key mem
    rw [run] at reason
    obtain ⟨marked | sent, -⟩ := reason
    · exact .inr (isMarkedDue_restore.mpr (.inl marked))
    obtain ⟨row, rowMem, rfl⟩ := sent
    by_cases named : marks.isMarkedDue row.link.toLinkKey = true
    · exact .inr (isMarkedDue_restore.mpr (.inr named))
    · refine .inl (Finset.mem_union_right _ (List.mem_toFinset.mpr (List.mem_filter.mpr ⟨?_, by simpa using named⟩)))
      exact List.mem_map_of_mem (f := fun row : Row => row.link.toLinkKey) rowMem

theorem Kept.advance (kept : Kept s) {weather : Weather} (unmarked : UnmarkedDue s (.advance weather)) {s' : Server}
    (runs : s.advance weather = .ok s') : Kept s' := by
  have owed := kept.owed
  unfold Server.advance at runs
  cases run : s.run with
  | idle =>
      rw [run] at runs
      cases runs
  | started marks now =>
      rw [run] at runs owed
      dsimp only at runs
      split_ifs at runs
      · cases runs
        exact kept.fail (by rw [inHand, run]) fun key mem => (owed key mem).imp_right .inl
      · cases runs
        refine ⟨kept.forgotten, fun taken mem => ?_, owed⟩
        have covers := kept.failed taken mem
        rwa [inHand, run] at covers
  | read marks now all =>
      rw [run] at runs owed
      dsimp only at runs
      split_ifs at runs with fails
      · cases runs
        exact kept.fail (by rw [inHand, run]) fun key mem => (owed key mem).imp_right .inl
      · cases runs
        refine kept.pick run ?_
        simp only [UnmarkedDue, unmarkedDue, run, Bool.or_eq_true, List.all_eq_true, decide_eq_true_eq] at unmarked
        obtain (failed | full) | unmarked := unmarked
        · -- a run that tracks no link asks nothing
          have nothing : tracked all = [] := by simpa [failed] using fails
          rw [nothing]
          exact .inr nofun
        · exact .inl full
        · exact .inr fun link mem => or_assoc.mp (unmarked link mem)
  | picked marks now fullPass due =>
      rw [run] at runs owed
      dsimp only at runs
      split_ifs at runs
      · cases runs
        exact kept.fail (by rw [inHand, run]) fun key mem => (owed key mem).1.imp_right .inl
      · cases runs
        exact kept.compare run weather
  | sending marks toSend =>
      rw [run] at runs owed
      cases runs
      refine ⟨kept.forgotten, fun taken mem => ?_, fun key mem => ⟨owed key mem, ?_⟩⟩
      · have covers := kept.failed taken mem
        rwa [inHand, run] at covers
      · rintro ⟨row, rowMem, rfl⟩
        obtain ⟨outcome, outcomeMem, same⟩ := mem_sendStocks (List.mem_map_of_mem (f := Row.toWanted) rowMem)
        exact ⟨outcome, outcomeMem, congrArg Link.toLinkKey same⟩
  | recording marks toSend outcomes =>
      rw [run] at runs
      dsimp only at runs
      split_ifs at runs
      · cases runs
        exact kept.loseOutcomes run
      · cases runs
        exact kept.record run

theorem step_kept {op : Step} {s' : Server} (kept : Kept s) (unmarked : UnmarkedDue s op)
    (runs : step s op = .ok s') : Kept s' := by
  cases op with
  | moveStock | setItemDeleted =>
      cases runs
      exact ⟨kept.forgotten, kept.failed, kept.owed⟩
  | orderWebhook lines =>
      cases runs
      exact kept.orderWebhook lines
  | refreshCatalog reading fresh =>
      simp only [step] at runs
      split_ifs at runs
      cases runs
      exact ⟨kept.forgotten, kept.failed, kept.owed⟩
  | pushStocks itemIds onlyChanged weather =>
      simp only [step] at runs
      split_ifs at runs
      cases runs
      unfold Server.pushStocks
      dsimp only
      split_ifs
      · exact kept
      · exact ⟨kept.forgotten, kept.failed, kept.owed⟩
  | begin now =>
      simp only [step] at runs
      split_ifs at runs with idle
      cases runs
      exact kept.takeDueMarks idle now
  | advance weather => exact kept.advance unmarked runs

/-- Where the condition is met, at any moment no link is forgotten and no mark of a failed run is lost. -/
theorem nothing_forgotten (links : List Link) (nextLink : ℕ) (deletedItems : Finset ℕ) (sellable : ℕ → ℕ)
    (ops : List Step) (meets : Along step UnmarkedDue (start links nextLink deletedItems sellable) ops) :
    ∀ n, Remembered (run step (start links nextLink deletedItems sellable) (ops.take n)) := by
  intro n
  refine (run_invariant_along (fun s op s' kept unmarked runs => ?_) (start_kept _ _ _ _) (meets.take n)).remembered
  exact step_kept kept unmarked runs

/-- One product of the shop, whose stock the shop keeps. -/
def chair : Link := ⟨⟨1, 10, 0⟩, 7, some 5, 1, 0, false⟩

/-- An open order holds one piece, and the shop takes what is sent. -/
def fair : Weather := ⟨false, fun _ => 1, fun _ => ⟨false, .rows [⟨10, none⟩]⟩, WC_AUTO_PUSH_MAX_PRODUCTS⟩

/-- A run with the weather of each of its steps. -/
def pushRun (now : ℕ) (weathers : List Weather) : List Step := .begin now :: weathers.map .advance

/-- The shop is down when the hourly pass sends the stock, and the next run a minute later sends it. -/
theorem nothing_forgotten_shop_down :
    let ops := pushRun 3600000 [fair, fair, fair, { fair with batch := fun _ => ⟨false, .failed none⟩ }, fair] ++
      pushRun 3660000 [fair, fair, fair, fair, fair]
    (∀ n, Remembered (run step (start [chair] 2 ∅ fun _ => 5) (ops.take n))) ∧
      (run step (start [chair] 2 ∅ fun _ => 5) ops).links = [{ chair with siteStock := some 4 }] :=
  ⟨nothing_forgotten _ _ _ _ _ (by decide +kernel), by decide +kernel⟩

/-- The shop refuses the product, or the outcomes are not recorded; the next run does not look at it. -/
theorem forgotten_without_mark :
    ¬Remembered (run step (start [chair] 2 ∅ fun _ => 5)
      (pushRun 3600000 [fair, fair, fair,
        { fair with batch := fun _ => ⟨false, .rows [⟨10, some (some "invalid")⟩]⟩ }, fair] ++
      pushRun 3660000 [fair, fair])) ∧
    ¬Remembered (run step (start [chair] 2 ∅ fun _ => 5)
      (pushRun 3600000 [fair, fair, fair, fair, { fair with fails := true }] ++ pushRun 3660000 [fair, fair])) :=
  ⟨fun remembered => absurd remembered.compared (by decide +kernel),
    fun remembered => absurd remembered.compared (by decide +kernel)⟩

end PapitalErp.WcAutoPush
