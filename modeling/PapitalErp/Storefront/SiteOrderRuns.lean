import PapitalErp.Storefront.SiteOrderTables

/-!
# Every schedule of buyers, staff and the expiry sweep

The lock of an order keeps its file as the holder read it, since every other process waits for
the same lock. So what a transaction checked still holds when it writes, and all files stay
sound in every schedule.
-/

namespace PapitalErp.SiteOrders

open Interleaving FilteredSums

/-! ## What a process knows -/

/-- The process holds the order's lock, and the row is as it read it. -/
structure HoldsOrder (i : ℕ) (t : SiteTables) (order : SiteOrder) : Prop where
  lock : t.locks (.order order.id) = some i
  row : order ∈ t.orders

/-- The statuses an action begins with. -/
def SiteRequest.statuses : SiteRequest → List OrderStatus
  | .sendReceipt _ _ => [.awaiting_payment]
  | .confirmPayment _ _ _ | .rejectReceipt _ _ _ _ | .cancelOrder _ _ => OPEN_ORDER_STATUSES
  | .approveOnAccount _ _ => [.awaiting_approval]
  | .shipOrder _ _ => [.paid, .confirmed]
  | .deliverOrder _ _ => [.shipped]
  | .placeOrder _ | .expireDueOrdersOnce => []

def KnowsSite (request : SiteRequest) (i : ℕ) (t : SiteTables) : SiteProgress → Prop
  | .start | .placing _ | .pricing _ | .choosing _ | .counting _ | .counted _ | .chosen _
  | .opened _ _ | .sweeping _ | .done => True
  | .locked _ order => HoldsOrder i t order ∧ order.status ∈ request.statuses
  | .reviewed order receipt => HoldsOrder i t order ∧ (OrderCommit.pay receipt.id).Fits (t.file order)
  | .ready _ order commit _ => HoldsOrder i t order ∧ commit.Fits (t.file order)
  | .expiring _ order _ => HoldsOrder i t order ∧ order.status ∈ EXPIRING_ORDER_STATUSES

/-- What a statement of process `i` leaves to the others. -/
structure LeavesOrders (i : ℕ) (t t' : SiteTables) : Prop where
  locks : ∀ j ≠ i, ∀ lock, t.locks lock = some j → t'.locks lock = some j
  files : ∀ j ≠ i, ∀ order, HoldsOrder j t order → order ∈ t'.orders ∧ t'.file order = t.file order

/-- The effect of a statement. -/
structure SiteOutcome (request : SiteRequest) (i : ℕ) (t t' : SiteTables) (next : SiteProgress) : Prop where
  valid : t'.Valid
  own : KnowsSite request i t' next
  others : LeavesOrders i t t'

section Outline

variable {requests : ℕ → SiteRequest} {request : SiteRequest} {i j id : ℕ} {t t' : SiteTables}
  {progress next : SiteProgress} {order : SiteOrder} {now : ℤ} {commit : OrderCommit} {due : List ℕ}
  {locks : Locks SiteLock ℕ} {codes : ℕ → DiscountCode}

theorem HoldsOrder.others (h : HoldsOrder j t order) (apart : j ≠ i) (leaves : LeavesOrders i t t') :
    HoldsOrder j t' order :=
  ⟨leaves.locks j apart _ h.lock, (leaves.files j apart order h).1⟩

theorem KnowsSite.others (h : KnowsSite request j t progress) (apart : j ≠ i) (leaves : LeavesOrders i t t') :
    KnowsSite request j t' progress := by
  cases progress with
  | start | placing | pricing | choosing | counting | counted | chosen | opened | sweeping | done => trivial
  | locked now order => exact ⟨h.1.others apart leaves, h.2⟩
  | reviewed order receipt =>
      refine ⟨h.1.others apart leaves, ?_⟩
      rw [(leaves.files j apart order h.1).2]
      exact h.2
  | ready now order commit due =>
      refine ⟨h.1.others apart leaves, ?_⟩
      rw [(leaves.files j apart order h.1).2]
      exact h.2
  | expiring now order due => exact ⟨h.1.others apart leaves, h.2⟩

theorem LeavesOrders.refl (i : ℕ) (t : SiteTables) : LeavesOrders i t t :=
  ⟨fun _ _ _ => id, fun _ _ _ holds => ⟨holds.row, rfl⟩⟩

theorem LeavesOrders.trans {t'' : SiteTables} (h : LeavesOrders i t t') (h' : LeavesOrders i t' t'') :
    LeavesOrders i t t'' := by
  refine ⟨fun j apart id held => h'.locks j apart id (h.locks j apart id held), fun j apart order holds => ?_⟩
  obtain ⟨mem, same⟩ := h'.files j apart order (holds.others apart h)
  exact ⟨mem, same.trans (h.files j apart order holds).2⟩

theorem SiteOutcome.after {t₁ : SiteTables} (first : LeavesOrders i t t₁)
    (h : SiteOutcome request i t₁ t' next) : SiteOutcome request i t t' next :=
  ⟨h.valid, h.own, first.trans h.others⟩

/-! ## Time, locks and the end of a transaction -/

theorem valid_tick (h : t.Valid) (elapsed : ℕ) : (t.tick elapsed).Valid :=
  ⟨⟨h.linked.orders, h.linked.documents, h.linked.receiptIds, h.linked.orderBelow, h.linked.receiptBelow,
    h.linked.documentBelow, h.linked.treasuryBelow, h.linked.useBelow⟩, h.sound⟩

theorem leaves_tick (i : ℕ) (t : SiteTables) (elapsed : ℕ) : LeavesOrders i t (t.tick elapsed) :=
  ⟨fun _ _ _ => id, fun _ _ _ holds => ⟨holds.row, rfl⟩⟩

theorem knows_tick (h : KnowsSite request i t progress) (elapsed : ℕ) :
    KnowsSite request i (t.tick elapsed) progress := by
  cases progress with
  | start | placing | pricing | choosing | counting | counted | chosen | opened | sweeping | done => trivial
  | locked | reviewed | ready | expiring => exact ⟨⟨h.1.lock, h.1.row⟩, h.2⟩

theorem valid_locks (h : t.Valid) (locks : Locks SiteLock ℕ) (checking : List (ℕ × Option ℕ)) :
    ({ t with locks, checking } : SiteTables).Valid :=
  ⟨⟨h.linked.orders, h.linked.documents, h.linked.receiptIds, h.linked.orderBelow, h.linked.receiptBelow,
    h.linked.documentBelow, h.linked.treasuryBelow, h.linked.useBelow⟩, h.sound⟩

theorem SiteOutcome.read (h : t.Valid) (own : KnowsSite request i t next) : SiteOutcome request i t t next :=
  ⟨h, own, .refl i t⟩

/-- The locks are given back. -/
theorem SiteOutcome.finish (h : t.Valid) (due : List ℕ) :
    SiteOutcome request i t (finish i due t).1 (finish i due t).2 := by
  refine ⟨valid_locks h _ _, ?_, fun j apart id held => Locks.release_keeps apart held,
    fun _ _ _ holds => ⟨holds.row, rfl⟩⟩
  simp only [SiteOrders.finish]
  split <;> trivial

theorem leaves_take {lock : SiteLock} (taken : t.locks.take i lock = some locks) : LeavesOrders i t { t with locks } := by
  refine ⟨fun j apart id held => ?_, fun _ _ _ holds => ⟨holds.row, rfl⟩⟩
  rcases Locks.take_keeps taken held with kept | ⟨-, rfl⟩
  · exact kept
  · exact absurd rfl apart

/-- An order is locked and read, and what follows is decided on its row. -/
theorem lockOrder_outcome {found : SiteTables → SiteOrder → SiteTables × SiteProgress} (h : t.Valid)
    (follows : ∀ t order, t.Valid → HoldsOrder i t order →
      SiteOutcome request i t (found t order).1 (found t order).2)
    (runs : lockOrder i t id found due = some (t', next)) : SiteOutcome request i t t' next := by
  obtain ⟨locks, taken, result⟩ := Option.map_eq_some_iff.mp runs
  have valid := valid_locks h locks t.checking
  refine .after (leaves_take taken) ?_
  dsimp only at result
  split at result
  · cases result
    exact .finish valid due
  · rename_i order there
    have same : order.id = id := by simpa using List.find?_some there
    have outcome := follows _ order valid
      ⟨same ▸ Locks.take_self taken, List.mem_of_find?_eq_some there⟩
    rw [result] at outcome
    exact outcome

theorem lockedOrder_outcome {version : ℕ} (h : t.Valid)
    (runs : lockedOrder i t now id version request.statuses = some (t', next)) :
    SiteOutcome request i t t' next := by
  refine lockOrder_outcome h (fun t order valid holds => ?_) runs
  split
  · rename_i opened
    exact .read valid ⟨holds, opened.2⟩
  · exact .finish valid []

/-! ## Reads and writes of an order -/

theorem hasPending_of_pendingReceipt {receiptId : ℕ} {receipt : PaymentReceipt}
    (found : t.pendingReceipt order.id receiptId = some receipt) :
    (t.file order).HasPending receiptId receipt := by
  obtain ⟨there, waits⟩ := Option.filter_eq_some_iff.mp found
  have meets := List.find?_some there
  simp only [decide_eq_true_eq] at meets
  refine ⟨List.mem_filter.mpr ⟨List.mem_of_find?_eq_some there, ?_⟩, meets.1, by simpa using waits⟩
  exact decide_eq_true meets.2

theorem reviewOrder_outcome (now : ℤ) (h : t.Valid) (holds : HoldsOrder i t order)
    (begins : order.status ∈ request.statuses) :
    SiteOutcome request i t (reviewOrder i t now order request).1 (reviewOrder i t now order request).2 := by
  cases request with
  | placeOrder | expireDueOrdersOnce => exact absurd begins List.not_mem_nil
  | sendReceipt id amount =>
      simp only [reviewOrder]
      split
      · exact .finish h []
      · rename_i rial readable
        split
        · refine .read h ⟨holds, List.mem_singleton.mp begins, ?_⟩
          simp only [rialAmount, Option.ite_none_right_eq_some, Option.some.injEq] at readable
          obtain ⟨digits, rfl⟩ := readable
          exact digits.2
        · exact .finish h []
  | confirmPayment id receiptId version =>
      simp only [reviewOrder]
      split
      · exact .finish h []
      · rename_i receipt found
        have pending := hasPending_of_pendingReceipt found
        split
        · exact .read h ⟨holds, receipt, ⟨pending.1, rfl, pending.2.2⟩, ‹_›⟩
        · exact .finish h []
  | approveOnAccount id version =>
      simp only [reviewOrder]
      split
      · exact .read h ⟨holds, List.mem_singleton.mp begins⟩
      · exact .finish h []
  | rejectReceipt id receiptId version hours =>
      simp only [reviewOrder]
      split
      · exact .finish h []
      · rename_i receipt found
        exact .read h ⟨holds, receipt, hasPending_of_pendingReceipt found⟩
  | cancelOrder id version =>
      simp only [reviewOrder]
      split
      · exact .finish h []
      · exact .read h ⟨holds, begins, fun expired => by cases expired⟩
  | shipOrder id version => exact .read h ⟨holds, begins⟩
  | deliverOrder id version => exact .read h ⟨holds, List.mem_singleton.mp begins⟩

theorem commit_outcome (h : t.Valid) (holds : HoldsOrder i t order) (fits : commit.Fits (t.file order)) :
    SiteOutcome request i t (finish i due (t.commit now order commit)).1
      (finish i due (t.commit now order commit)).2 := by
  have linked := h.linked
  have leaves : LeavesOrders i t (t.commit now order commit) := by
    refine ⟨fun j apart id held => ?_, fun j apart other held => ?_⟩
    · rw [SiteTables.commit_locks]
      exact held
    · have ids : other.id ≠ order.id := by
        intro same
        have locked := held.lock
        rw [same, holds.lock] at locked
        exact apart (Option.some.inj locked).symm
      have documents : other.documentId ≠ order.documentId := by
        intro same
        exact ids (congrArg SiteOrder.id (eq_of_key_eq linked.documents held.row holds.row same))
      refine ⟨?_, SiteTables.file_commit_other linked.receiptIds fits ids documents⟩
      rw [SiteTables.commit_orders]
      exact mem_update_of_ne held.row ids
  exact .after leaves (.finish (h.commit holds.row fits) due)

theorem place_outcome (h : t.Valid) (cart : CleanOrder) :
    SiteOutcome request i t (finish i [] (t.place now cart)).1 (finish i [] (t.place now cart)).2 := by
  have leaves : LeavesOrders i t (t.place now cart) :=
    ⟨fun _ _ _ => id, fun _ _ order holds => ⟨List.mem_append_left _ holds.row,
      SiteTables.file_place_other h.linked cart holds.row⟩⟩
  exact .after leaves (.finish (h.place cart) [])

/-! ## The statements -/

/-- A placement that goes on has changed no row. -/
theorem placeOrder_outcome {ok : Bool} {cart : CleanOrder} (h : t.Valid)
    (runs : placeOrder codes i t cart ok progress = some (t', next)) : SiteOutcome request i t t' next := by
  unfold placeOrder at runs
  split at runs
  · obtain ⟨locks, taken, result⟩ := Option.map_eq_some_iff.mp runs
    cases result
    exact ⟨valid_locks h _ _, trivial, leaves_take taken⟩
  · cases runs
    exact .read h trivial
  · obtain ⟨locks, taken, result⟩ := Option.map_eq_some_iff.mp runs
    cases result
    exact ⟨valid_locks h _ _, trivial, leaves_take taken⟩
  · split at runs
    · cases runs
      exact .finish h []
    · split at runs
      · split at runs <;> cases runs
        · exact .finish h []
        · exact ⟨valid_locks h _ _, trivial, fun _ _ _ => id, fun _ _ _ holds => ⟨holds.row, rfl⟩⟩
      · cases runs
        exact .read h trivial
  · dsimp only at runs
    split at runs <;> cases runs
    · exact .finish h []
    · exact .read h trivial
  · dsimp only at runs
    split at runs <;> cases runs
    · exact .finish h []
    · exact .read h trivial
  · split at runs <;> cases runs
    · exact place_outcome h _
    · exact .finish h []
  · cases runs

theorem siteProceed_outcome {ok : Bool} (h : t.Valid) (knows : KnowsSite request i t progress)
    (runs : siteProceed codes i t request ok progress = some (t', next)) : SiteOutcome request i t t' next := by
  unfold siteProceed at runs
  split at runs
  · cases runs
    refine .read h ?_
    split <;> trivial
  · cases runs
    refine .read h ?_
    split <;> trivial
  · cases runs
    refine .read h ?_
    split <;> trivial
  · refine lockOrder_outcome h (fun t order valid holds => ?_) runs
    split
    · exact .read valid ⟨holds, List.mem_singleton.mpr ‹_›⟩
    · exact .finish valid []
  · exact lockedOrder_outcome h runs
  · exact lockedOrder_outcome h runs
  · exact lockedOrder_outcome h runs
  · exact lockedOrder_outcome h runs
  · exact lockedOrder_outcome h runs
  · exact lockedOrder_outcome h runs
  · refine lockOrder_outcome h (fun t order valid holds => ?_) runs
    split
    · rename_i due
      exact .read valid ⟨holds, due.1⟩
    · exact .finish valid _
  · rename_i now order
    have outcome := reviewOrder_outcome now h knows.1 knows.2
    rw [Option.some.inj runs] at outcome
    exact outcome
  · split at runs <;> cases runs
    · exact .read h knows
    · exact .finish h []
  · split at runs <;> cases runs
    · exact commit_outcome h knows.1 knows.2
    · exact .finish h _
  · cases runs
    refine .read h ?_
    split <;> trivial
  · split at runs <;> cases runs
    · exact .finish h _
    · refine .read h ⟨knows.1, ?_, fun _ => knows.2⟩
      have expiring := knows.2
      simp only [EXPIRING_ORDER_STATUSES, List.mem_cons, List.not_mem_nil, or_false] at expiring
      obtain same | same := expiring <;> simp [SiteTables.file, same, OPEN_ORDER_STATUSES]
  · exact placeOrder_outcome h runs
  · cases runs

theorem siteStatement_outcome {turn : SiteTurn} (h : t.Valid) (knows : KnowsSite (requests i) i t progress)
    (runs : siteStatement codes requests i turn t progress = some (t', next)) :
    SiteOutcome (requests i) i t t' next := by
  cases turn with
  | die =>
      cases runs
      exact ⟨(SiteOutcome.finish h [] : SiteOutcome (requests i) i t _ _).valid, trivial,
        (SiteOutcome.finish h [] : SiteOutcome (requests i) i t _ _).others⟩
  | proceed elapsed ok =>
      exact .after (leaves_tick i t elapsed)
        (siteProceed_outcome (valid_tick h elapsed) (knows_tick knows elapsed) runs)

/-- All statements follow the outline. -/
theorem siteOutline (codes : ℕ → DiscountCode) (requests : ℕ → SiteRequest) :
    Outline (siteStatement codes requests) (fun _ _ _ _ => True) SiteTables.Valid
      (fun i => KnowsSite (requests i) i) where
  own h knows _ runs :=
    have outcome := siteStatement_outcome h knows runs
    ⟨outcome.valid, outcome.own⟩
  others apart h knows other _ runs :=
    other.others apart (siteStatement_outcome h knows runs).others

end Outline

/-! ## All schedules -/

/-- What holds of an order and the rows that hang on it. -/
structure OrderKept (t : SiteTables) (order : SiteOrder) : Prop where
  moves : order.trail.IsChain fun later earlier => later ∈ earlier.next
  starts : order.trail.getLast? = some .awaiting_payment ∨ order.trail.getLast? = some .awaiting_approval
  accepted : t.receipts.countP (fun r => decide (r.orderId = order.id ∧ r.status = .accepted)) =
    if order.ReachedPaid then 1 else 0
  treasury : (t.treasury.filter fun row => decide (row.documentId = order.documentId)).map
    TreasuryReceipt.amount = if order.ReachedPaid then [order.payableAmount] else []
  pending : (∃ r ∈ t.receipts, r.orderId = order.id ∧ r.status = .pending) ↔
    order.status = .payment_submitted
  expired : order.cancelReason = some .expired →
    ∃ earlier rest, order.past = earlier :: rest ∧ earlier ≠ .payment_submitted
  document : order.status = .cancelled → ∀ doc ∈ t.documents, doc.id = order.documentId →
    doc.isDeleted = true ∧ doc.reserves = false
  uses : order.status = .cancelled → ∀ use ∈ t.redemptions, use.orderId = order.id →
    use.releasedAt ≠ none ∧ use.releases = 1

theorem OrderFile.Sound.kept {t : SiteTables} {order : SiteOrder} (h : (t.file order).Sound) :
    OrderKept t order := by
  obtain ⟨orderly, receipts, papers⟩ := h
  refine ⟨orderly.moves, orderly.starts, ?_, receipts.treasury, ⟨?_, ?_⟩, ?_, ?_, ?_⟩
  · refine Eq.trans ?_ receipts.accepted
    rw [SiteTables.file, List.countP_filter]
    refine List.countP_congr fun r _ => ?_
    simp [and_comm]
  · rintro ⟨r, mem, own, waits⟩
    have pending : (t.file order).HasPending r.id r :=
      ⟨List.mem_filter.mpr ⟨mem, decide_eq_true own⟩, rfl, waits⟩
    exact pending.submitted receipts
  · intro submitted
    have one := receipts.pending.trans (if_pos submitted)
    obtain ⟨r, mem, waits⟩ := List.countP_pos_iff.mp (Nat.lt_of_lt_of_eq Nat.one_pos one.symm)
    obtain ⟨known, own⟩ := List.mem_filter.mp mem
    exact ⟨r, known, of_decide_eq_true own, by simpa using waits⟩
  · intro expired
    obtain ⟨earlier, due, rest, past⟩ := orderly.expired expired
    refine ⟨earlier, rest, past, ?_⟩
    rintro rfl
    exact absurd due (by decide)
  · intro cancelled doc mem own
    obtain ⟨only, single, deleted, -⟩ := papers.document
    have there : doc ∈ (t.file order).documents := List.mem_filter.mpr ⟨mem, decide_eq_true own⟩
    rw [single] at there
    obtain rfl := List.mem_singleton.mp there
    rw [show (t.file order).order.status = .cancelled from cancelled] at deleted
    have gone : doc.isDeleted = true := by simpa using deleted
    exact ⟨gone, by simp [SalesDocument.reserves, gone]⟩
  · intro cancelled use mem own
    obtain ⟨-, releases, released⟩ :=
      papers.uses use (List.mem_filter.mpr ⟨mem, decide_eq_true own⟩)
    exact ⟨fun unreleased => released.mp unreleased cancelled, releases.trans (if_pos cancelled)⟩

theorem valid_initial (clock : ℤ) : (SiteTables.initial clock).Valid := by
  refine ⟨⟨List.Pairwise.nil, List.Pairwise.nil, List.Pairwise.nil, ?_, ?_, ?_, ?_, ?_⟩, ?_⟩
  all_goals
    intro row mem
    cases mem

/-- After every schedule of buyers, staff and sweeps, every order is kept. -/
theorem site_orders_kept (codes : ℕ → DiscountCode) (requests : ℕ → SiteRequest) (clock : ℤ)
    (schedule : List (ℕ × SiteTurn)) :
    let t := ((siteStatement codes requests).after ⟨.initial clock, fun _ => .start⟩ schedule).shared
    ∀ order ∈ t.orders, OrderKept t order := by
  intro t order mem
  have begins : Holds SiteTables.Valid (fun i => KnowsSite (requests i) i)
      (⟨.initial clock, fun _ => .start⟩ : Config ℕ SiteTables SiteProgress) :=
    ⟨valid_initial clock, fun _ => trivial⟩
  exact (((siteOutline codes requests).after begins schedule).shared.sound order mem).kept

end PapitalErp.SiteOrders
