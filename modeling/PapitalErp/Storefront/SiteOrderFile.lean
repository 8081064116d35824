import PapitalErp.Storefront.SiteOrders

/-!
# An order with the rows that hang on it

The file of an order is the order with its receipts, its sales document, its treasury rows
and the use of its discount code. What a transaction writes is a change of one file, and the
changes keep the file sound: the statuses go along the permitted moves, and what hangs on the
order is what its status says.
-/

namespace PapitalErp.SiteOrders

open FilteredSums

/-! ## Sound files -/

/-- The statuses that may follow. -/
def OrderStatus.next : OrderStatus → List OrderStatus
  | .awaiting_payment => [.payment_submitted, .cancelled]
  | .payment_submitted => [.paid, .awaiting_payment, .cancelled]
  | .awaiting_approval => [.confirmed, .cancelled]
  | .paid | .confirmed => [.shipped]
  | .shipped => [.delivered]
  | .delivered | .cancelled => []

/-- All statuses of an order, the last one first. -/
def SiteOrder.trail (order : SiteOrder) : List OrderStatus := order.status :: order.past

def SiteOrder.ReachedPaid (order : SiteOrder) : Prop := .paid ∈ order.trail

instance (order : SiteOrder) : Decidable order.ReachedPaid :=
  inferInstanceAs (Decidable (_ ∈ order.trail))

/-- The statuses of an order. -/
structure SiteOrder.Orderly (order : SiteOrder) : Prop where
  moves : order.trail.IsChain fun later earlier => later ∈ earlier.next
  starts : order.trail.getLast? = some .awaiting_payment ∨ order.trail.getLast? = some .awaiting_approval
  reached : order.ReachedPaid → order.status ∈ [.paid, .shipped, .delivered]
  reason : order.cancelReason ≠ none → order.status = .cancelled
  expired : order.cancelReason = some .expired →
    ∃ earlier ∈ EXPIRING_ORDER_STATUSES, ∃ rest, order.past = earlier :: rest

structure OrderFile where
  order : SiteOrder
  receipts : List PaymentReceipt
  documents : List SalesDocument
  treasury : List TreasuryReceipt
  redemptions : List DiscountRedemption

/-- The receipts of an order are what its status says. -/
structure OrderFile.ReceiptsMatch (f : OrderFile) : Prop where
  amounts : ∀ receipt ∈ f.receipts, receipt.amount < 10 ^ 14
  pending : f.receipts.countP (fun receipt => receipt.status == .pending) =
    if f.order.status = .payment_submitted then 1 else 0
  accepted : f.receipts.countP (fun receipt => receipt.status == .accepted) =
    if f.order.ReachedPaid then 1 else 0
  treasury : f.treasury.map TreasuryReceipt.amount =
    if f.order.ReachedPaid then [f.order.payableAmount] else []

/-- The status of the document of an order that is not cancelled. -/
def OrderStatus.document (status : OrderStatus) : DocumentStatus :=
  if status ∈ OPEN_ORDER_STATUSES then .proforma else .final

/-- The document and the discount's use of an order are what its status says. -/
structure OrderFile.PapersMatch (f : OrderFile) : Prop where
  document : ∃ doc, f.documents = [doc] ∧ doc.isDeleted = decide (f.order.status = .cancelled) ∧
    (f.order.status ≠ .cancelled → doc.status = f.order.status.document)
  uses : ∀ use ∈ f.redemptions, use.orderId = f.order.id ∧
    use.releases = (if f.order.status = .cancelled then 1 else 0) ∧
    (use.releasedAt = none ↔ f.order.status ≠ .cancelled)

structure OrderFile.Sound (f : OrderFile) : Prop where
  order : f.order.Orderly
  receipts : f.ReceiptsMatch
  papers : f.PapersMatch

/-! ## Changes of a file -/

/-- The file after a transaction; `receiptId` and `treasuryId` are the ids of new rows. -/
def OrderFile.commit (f : OrderFile) (clock now : ℤ) (receiptId treasuryId : ℕ) (c : OrderCommit) :
    OrderFile :=
  let f' := { f with order := c.order now f.order }
  let finalized := f.documents.map fun doc => { doc with status := DocumentStatus.final }
  match c with
  | .submit amount => { f' with receipts := f.receipts ++ [⟨receiptId, f.order.id, amount, .pending, none⟩] }
  | .pay id =>
      { f' with
        receipts := f.receipts.map fun receipt => if receipt.id = id then
          { receipt with status := .accepted, treasuryTransactionId := some treasuryId } else receipt
        documents := finalized
        treasury := f.treasury ++
          [⟨treasuryId, f.order.documentId, Binary64.roundInt f.order.payableAmount⟩] }
  | .approve => { f' with documents := finalized }
  | .reject id _ =>
      { f' with receipts := f.receipts.map fun receipt =>
          if receipt.id = id then { receipt with status := .rejected } else receipt }
  | .cancel _ =>
      { f' with
        receipts := f.receipts.map fun receipt =>
          if receipt.status = .pending then { receipt with status := .rejected } else receipt
        documents := f.documents.map fun doc => { doc with isDeleted := true }
        redemptions := f.redemptions.map fun use => if use.releasedAt = none then
          { use with releasedAt := some clock, releases := use.releases + 1 } else use }
  | .ship | .deliver => f'

/-- The pending receipt that an action is about. -/
def OrderFile.HasPending (f : OrderFile) (id : ℕ) (receipt : PaymentReceipt) : Prop :=
  receipt ∈ f.receipts ∧ receipt.id = id ∧ receipt.status = .pending

/-- What a transaction has checked before it writes. -/
def OrderCommit.Fits (f : OrderFile) : OrderCommit → Prop
  | .submit amount => f.order.status = .awaiting_payment ∧ amount < 10 ^ 14
  | .pay id => ∃ receipt, f.HasPending id receipt ∧ (receipt.amount : ℤ) = f.order.payableAmount
  | .approve => f.order.status = .awaiting_approval
  | .reject id _ => ∃ receipt, f.HasPending id receipt
  | .cancel reason => f.order.status ∈ OPEN_ORDER_STATUSES ∧
      (reason = .expired → f.order.status ∈ EXPIRING_ORDER_STATUSES)
  | .ship => f.order.status ∈ [.paid, .confirmed]
  | .deliver => f.order.status = .shipped

section Changes

variable {f : OrderFile} {order : SiteOrder} {status : OrderStatus} {clock now : ℤ} {receiptId treasuryId : ℕ}
  {c : OrderCommit}

/-- The status after a transaction. -/
def OrderCommit.target : OrderCommit → OrderStatus
  | .submit _ => .payment_submitted
  | .pay _ => .paid
  | .approve => .confirmed
  | .reject _ _ => .awaiting_payment
  | .cancel _ => .cancelled
  | .ship => .shipped
  | .deliver => .delivered

@[simp] theorem OrderCommit.order_status (c : OrderCommit) (now : ℤ) (order : SiteOrder) :
    (c.order now order).status = c.target := by
  cases c <;> rfl

@[simp] theorem OrderCommit.order_past (c : OrderCommit) (now : ℤ) (order : SiteOrder) :
    (c.order now order).past = order.trail := by
  cases c <;> rfl

@[simp] theorem OrderCommit.order_id (c : OrderCommit) (now : ℤ) (order : SiteOrder) :
    (c.order now order).id = order.id := by
  cases c <;> rfl

@[simp] theorem OrderCommit.order_documentId (c : OrderCommit) (now : ℤ) (order : SiteOrder) :
    (c.order now order).documentId = order.documentId := by
  cases c <;> rfl

@[simp] theorem OrderCommit.order_payableAmount (c : OrderCommit) (now : ℤ) (order : SiteOrder) :
    (c.order now order).payableAmount = order.payableAmount := by
  cases c <;> rfl

@[simp] theorem OrderFile.commit_order :
    (f.commit clock now receiptId treasuryId c).order = c.order now f.order := by
  cases c <;> rfl

theorem OrderCommit.reached_iff : (c.order now order).ReachedPaid ↔ c.target = .paid ∨ order.ReachedPaid := by
  unfold SiteOrder.ReachedPaid
  rw [SiteOrder.trail, c.order_status, c.order_past, List.mem_cons, eq_comm]

/-- A pending receipt is of a submitted payment. -/
theorem OrderFile.HasPending.submitted {id : ℕ} {receipt : PaymentReceipt} (pending : f.HasPending id receipt)
    (h : f.ReceiptsMatch) : f.order.status = .payment_submitted := by
  by_contra other
  have none := h.pending
  rw [if_neg other, List.countP_eq_zero] at none
  exact none receipt pending.1 (beq_iff_eq.mpr pending.2.2)

/-- The transactions move along the permitted moves. -/
theorem OrderCommit.Fits.follows (fits : c.Fits f) (h : f.ReceiptsMatch) : c.target ∈ f.order.status.next := by
  cases c with
  | submit amount =>
      rw [fits.1]
      exact List.mem_cons_self
  | pay id =>
      obtain ⟨receipt, pending, -⟩ := fits
      rw [pending.submitted h]
      exact List.mem_cons_self
  | approve =>
      rw [show f.order.status = .awaiting_approval from fits]
      exact List.mem_cons_self
  | reject id reserveUntil =>
      obtain ⟨receipt, pending⟩ := fits
      rw [pending.submitted h]
      simp [OrderCommit.target, OrderStatus.next]
  | cancel reason =>
      have still := fits.1
      simp only [OPEN_ORDER_STATUSES, List.mem_cons, List.not_mem_nil, or_false] at still
      obtain same | same | same := still <;> rw [same] <;> simp [OrderCommit.target, OrderStatus.next]
  | ship =>
      have before : f.order.status = .paid ∨ f.order.status = .confirmed := by
        simpa [OrderCommit.Fits] using fits
      obtain same | same := before <;> rw [same] <;> exact List.mem_cons_self
  | deliver =>
      rw [show f.order.status = .shipped from fits]
      exact List.mem_cons_self

/-- A status that something may follow is not the last of a cancelled order. -/
theorem not_cancelled_of_next (follows : status ∈ order.status.next) : order.status ≠ .cancelled := by
  intro same
  rw [same] at follows
  exact absurd follows List.not_mem_nil

theorem SiteOrder.Orderly.commit (h : f.order.Orderly) (receipts : f.ReceiptsMatch) (fits : c.Fits f) :
    (c.order now f.order).Orderly := by
  have follows := fits.follows receipts
  have live := not_cancelled_of_next follows
  have fresh : f.order.cancelReason = none := by
    by_contra some
    exact live (h.reason some)
  have cancels : (c.order now f.order).cancelReason ≠ none → ∃ reason, c = .cancel reason := by
    intro some
    cases c with
    | cancel reason => exact ⟨reason, rfl⟩
    | submit | pay | approve | reject | ship | deliver => exact absurd fresh some
  refine ⟨?_, ?_, ?_, ?_, ?_⟩
  · rw [SiteOrder.trail, c.order_status, c.order_past]
    refine List.isChain_cons.mpr ⟨fun earlier mem => ?_, h.moves⟩
    obtain rfl : f.order.status = earlier := by simpa [SiteOrder.trail] using mem
    exact follows
  · rw [SiteOrder.trail, c.order_status, c.order_past]
    simpa [SiteOrder.trail] using h.starts
  · intro paid
    rw [c.order_status]
    obtain now_paid | before := OrderCommit.reached_iff.mp paid
    · rw [now_paid]
      exact List.mem_cons_self
    · have status := h.reached before
      simp only [List.mem_cons, List.not_mem_nil, or_false] at status
      obtain same | same | same := status <;> rw [same] at follows
      · rw [List.mem_singleton.mp follows]
        simp
      · rw [List.mem_singleton.mp follows]
        simp
      · exact absurd follows List.not_mem_nil
  · intro some
    obtain ⟨reason, rfl⟩ := cancels some
    rfl
  · intro expired
    obtain ⟨reason, rfl⟩ := cancels (by rw [expired]; exact Option.some_ne_none _)
    cases Option.some.inj expired
    exact ⟨f.order.status, fits.2 rfl, f.order.past, rfl⟩

/-! ## What hangs on the order -/

theorem OrderFile.ReceiptsMatch.not_reached (h : f.order.Orderly)
    (open' : f.order.status ∈ OPEN_ORDER_STATUSES) : ¬f.order.ReachedPaid := by
  intro paid
  have status := h.reached paid
  simp only [OPEN_ORDER_STATUSES, List.mem_cons, List.not_mem_nil, or_false] at open' status
  obtain same | same | same := open' <;> simp [same] at status

/-- The receipts of a transaction that leaves them alone. -/
theorem OrderFile.ReceiptsMatch.keep (h : f.ReceiptsMatch) (before : f.order.status ≠ .payment_submitted)
    (after : c.target ≠ .payment_submitted) (unpaid : c.target ≠ .paid) :
    ({ f with order := c.order now f.order } : OrderFile).ReceiptsMatch := by
  have reached : (c.order now f.order).ReachedPaid ↔ f.order.ReachedPaid := by
    rw [OrderCommit.reached_iff]
    exact or_iff_right unpaid
  refine ⟨h.amounts, ?_, ?_, ?_⟩
  · rw [h.pending, if_neg before, c.order_status, if_neg after]
  · simp only [h.accepted, reached]
  · simp only [h.treasury, reached, c.order_payableAmount]

/-- One pending receipt is reviewed. -/
theorem review_counts {id : ℕ} {receipt : PaymentReceipt} (h : f.ReceiptsMatch) (order : f.order.Orderly)
    (ids : f.receipts.Pairwise fun a b => a.id ≠ b.id) (pending : f.HasPending id receipt)
    (review : PaymentReceipt → PaymentReceipt) (reviewed : (review receipt).status ≠ .pending) :
    let receipts := f.receipts.map fun r => if r.id = id then review r else r
    receipts.countP (fun r => r.status == .pending) = 0 ∧
      receipts.countP (fun r => r.status == .accepted) =
        if (review receipt).status = .accepted then 1 else 0 := by
  intro receipts
  have submitted := pending.submitted h
  have unpaid : ¬f.order.ReachedPaid := by
    refine OrderFile.ReceiptsMatch.not_reached order ?_
    simp [submitted, OPEN_ORDER_STATUSES]
  obtain ⟨mem, rfl, waits⟩ := pending
  have waiting := countP_update (fun r : PaymentReceipt => r.status == .pending) review ids mem
  have taken := countP_update (fun r : PaymentReceipt => r.status == .accepted) review ids mem
  have one := h.pending
  have none := h.accepted
  rw [if_pos submitted] at one
  rw [if_neg unpaid] at none
  simp only [waits, one, beq_iff_eq, if_true, if_neg reviewed] at waiting
  simp only [waits, none, beq_iff_eq, reduceCtorEq, if_false, Nat.add_zero, Nat.zero_add] at taken
  exact ⟨Nat.succ.inj waiting, taken⟩

theorem amounts_map {receipts : List PaymentReceipt} (h : ∀ r ∈ receipts, r.amount < 10 ^ 14)
    (change : PaymentReceipt → PaymentReceipt) (same : ∀ r, (change r).amount = r.amount) :
    ∀ r ∈ receipts.map change, r.amount < 10 ^ 14 := by
  intro r mem
  obtain ⟨earlier, known, rfl⟩ := List.mem_map.mp mem
  rw [same]
  exact h earlier known

theorem OrderFile.ReceiptsMatch.pay {id : ℕ} (h : f.ReceiptsMatch) (order : f.order.Orderly)
    (ids : f.receipts.Pairwise fun a b => a.id ≠ b.id) (fits : (OrderCommit.pay id).Fits f) :
    (f.commit clock now receiptId treasuryId (.pay id)).ReceiptsMatch := by
  obtain ⟨receipt, pending, amount⟩ := fits
  have unpaid : ¬f.order.ReachedPaid := by
    refine OrderFile.ReceiptsMatch.not_reached order ?_
    simp [pending.submitted h, OPEN_ORDER_STATUSES]
  have reached : ((OrderCommit.pay id).order now f.order).ReachedPaid :=
    OrderCommit.reached_iff.mpr (Or.inl rfl)
  have counts := review_counts h order ids pending
    (fun r => { r with status := .accepted, treasuryTransactionId := some treasuryId }) (by simp)
  -- the receipt has fourteen digits at most, and so has the amount of the order
  have exact_amount : Binary64.roundInt f.order.payableAmount = f.order.payableAmount := by
    have small := h.amounts receipt pending.1
    refine Binary64.roundInt_of_lt ?_
    omega
  refine ⟨amounts_map h.amounts _ fun r => ?_, ?_, ?_, ?_⟩
  · split <;> rfl
  · exact counts.1
  · rw [OrderFile.commit_order, if_pos reached]
    exact counts.2
  · have before := h.treasury
    rw [if_neg unpaid] at before
    simp only [OrderFile.commit, List.map_append, before, List.map_singleton, exact_amount, if_pos reached,
      OrderCommit.order_payableAmount, List.nil_append]

theorem OrderFile.ReceiptsMatch.reject {id : ℕ} {reserveUntil : ℤ} (h : f.ReceiptsMatch)
    (order : f.order.Orderly) (ids : f.receipts.Pairwise fun a b => a.id ≠ b.id)
    (fits : (OrderCommit.reject id reserveUntil).Fits f) :
    (f.commit clock now receiptId treasuryId (.reject id reserveUntil)).ReceiptsMatch := by
  obtain ⟨receipt, pending⟩ := fits
  have unpaid : ¬f.order.ReachedPaid := by
    refine OrderFile.ReceiptsMatch.not_reached order ?_
    simp [pending.submitted h, OPEN_ORDER_STATUSES]
  have still : ¬((OrderCommit.reject id reserveUntil).order now f.order).ReachedPaid := by
    rw [OrderCommit.reached_iff]
    simpa [OrderCommit.target] using unpaid
  have counts := review_counts h order ids pending (fun r => { r with status := .rejected }) (by simp)
  refine ⟨amounts_map h.amounts _ fun r => ?_, ?_, ?_, ?_⟩
  · split <;> rfl
  · exact counts.1
  · rw [OrderFile.commit_order, if_neg still]
    exact counts.2
  · rw [OrderFile.commit_order, if_neg still]
    exact h.treasury.trans (if_neg unpaid)

theorem OrderFile.ReceiptsMatch.cancel {reason : CancelReason} (h : f.ReceiptsMatch) (order : f.order.Orderly)
    (fits : (OrderCommit.cancel reason).Fits f) :
    (f.commit clock now receiptId treasuryId (.cancel reason)).ReceiptsMatch := by
  have unpaid := OrderFile.ReceiptsMatch.not_reached order fits.1
  have still : ¬((OrderCommit.cancel reason).order now f.order).ReachedPaid := by
    rw [OrderCommit.reached_iff]
    simpa [OrderCommit.target] using unpaid
  refine ⟨amounts_map h.amounts _ fun r => ?_, ?_, ?_, ?_⟩
  · split <;> rfl
  · refine (List.countP_eq_zero.mpr fun r mem => ?_).trans (if_neg ?_).symm
    · obtain ⟨earlier, -, rfl⟩ := List.mem_map.mp mem
      split <;> simp_all
    · simp [OrderCommit.target]
  · rw [OrderFile.commit_order, if_neg still]
    have none := h.accepted
    rw [if_neg unpaid, List.countP_eq_zero] at none
    refine List.countP_eq_zero.mpr fun r mem => ?_
    obtain ⟨earlier, known, rfl⟩ := List.mem_map.mp mem
    split
    · simp
    · exact none earlier known
  · rw [OrderFile.commit_order, if_neg still]
    exact h.treasury.trans (if_neg unpaid)

theorem OrderFile.ReceiptsMatch.submit {amount : ℕ} (h : f.ReceiptsMatch) (order : f.order.Orderly)
    (fits : (OrderCommit.submit amount).Fits f) :
    (f.commit clock now receiptId treasuryId (.submit amount)).ReceiptsMatch := by
  obtain ⟨waiting, small⟩ := fits
  have unpaid : ¬f.order.ReachedPaid := by
    refine OrderFile.ReceiptsMatch.not_reached order ?_
    simp [waiting, OPEN_ORDER_STATUSES]
  have still : ¬((OrderCommit.submit amount).order now f.order).ReachedPaid := by
    rw [OrderCommit.reached_iff]
    simpa [OrderCommit.target] using unpaid
  have none := h.pending
  have untaken := h.accepted
  rw [if_neg (by simp [waiting])] at none
  rw [if_neg unpaid] at untaken
  refine ⟨fun r mem => ?_, ?_, ?_, ?_⟩
  · rcases List.mem_append.mp mem with earlier | here
    · exact h.amounts r earlier
    · cases List.mem_singleton.mp here
      exact small
  · simp [OrderFile.commit, none, OrderCommit.target]
  · rw [OrderFile.commit_order, if_neg still]
    simp [OrderFile.commit, untaken]
  · rw [OrderFile.commit_order, if_neg still]
    exact h.treasury.trans (if_neg unpaid)

theorem OrderFile.ReceiptsMatch.commit (h : f.ReceiptsMatch) (order : f.order.Orderly)
    (ids : f.receipts.Pairwise fun a b => a.id ≠ b.id) (fits : c.Fits f) :
    (f.commit clock now receiptId treasuryId c).ReceiptsMatch := by
  have follows := fits.follows h
  have not_submitted : c.target ∉ OrderStatus.payment_submitted.next →
      f.order.status ≠ .payment_submitted := by
    intro apart same
    rw [same] at follows
    exact apart follows
  cases c with
  | submit amount => exact h.submit order fits
  | pay id => exact h.pay order ids fits
  | approve =>
      have kept : ({ f with order := OrderCommit.approve.order now f.order } : OrderFile).ReceiptsMatch :=
        h.keep (not_submitted (by decide)) (by decide) (by decide)
      exact ⟨kept.amounts, kept.pending, kept.accepted, kept.treasury⟩
  | reject id reserveUntil => exact h.reject order ids fits
  | cancel reason => exact h.cancel order fits
  | ship => exact h.keep (c := .ship) (not_submitted (by decide)) (by decide) (by decide)
  | deliver => exact h.keep (c := .deliver) (not_submitted (by decide)) (by decide) (by decide)

/-- The papers of an order that stays uncancelled, with its document in the right status. -/
theorem OrderFile.PapersMatch.keep (h : f.PapersMatch)
    (before : f.order.status ≠ .cancelled) (after : c.target ≠ .cancelled) {f' : OrderFile}
    (order : f'.order = c.order now f.order) (uses : f'.redemptions = f.redemptions)
    (change : DocumentStatus → DocumentStatus)
    (changed : f'.documents = f.documents.map fun doc => { doc with status := change doc.status })
    (right : change f.order.status.document = c.target.document) : f'.PapersMatch := by
  obtain ⟨doc, single, live, status⟩ := h.document
  refine ⟨⟨{ doc with status := change doc.status }, ?_, ?_, ?_⟩, ?_⟩
  · rw [changed, single, List.map_singleton]
  · rw [order, c.order_status]
    simpa [before, after] using live
  · intro _
    rw [order, c.order_status, ← right, status before]
  · intro use mem
    rw [uses] at mem
    rw [order, c.order_status, c.order_id]
    simpa [before, after] using h.uses use mem

theorem OrderFile.PapersMatch.cancel {reason : CancelReason} (h : f.PapersMatch)
    (before : f.order.status ≠ .cancelled) :
    (f.commit clock now receiptId treasuryId (.cancel reason)).PapersMatch := by
  obtain ⟨doc, single, -, -⟩ := h.document
  refine ⟨⟨{ doc with isDeleted := true }, ?_, ?_, ?_⟩, ?_⟩
  · simp only [OrderFile.commit, single, List.map_singleton]
  · simp [OrderCommit.target]
  · intro live
    exact absurd (OrderCommit.order_status _ _ _) live
  · intro use mem
    obtain ⟨earlier, known, rfl⟩ := List.mem_map.mp mem
    obtain ⟨own, releases, unreleased⟩ := h.uses earlier known
    rw [if_neg before] at releases
    rw [if_pos (unreleased.mpr before)]
    simp [OrderCommit.target, releases, own]

theorem OrderFile.PapersMatch.commit (h : f.PapersMatch) (receipts : f.ReceiptsMatch) (fits : c.Fits f) :
    (f.commit clock now receiptId treasuryId c).PapersMatch := by
  have follows := fits.follows receipts
  have before := not_cancelled_of_next follows
  have same := (List.map_id f.documents).symm
  cases c with
  | submit amount =>
      refine h.keep before (c := .submit amount) (by simp [OrderCommit.target]) OrderFile.commit_order rfl (fun s => s) same ?_
      rw [fits.1]
      rfl
  | pay id =>
      exact h.keep before (c := .pay id) (by simp [OrderCommit.target]) OrderFile.commit_order rfl
        (fun _ => .final) rfl rfl
  | approve =>
      exact h.keep before (c := .approve) (by simp [OrderCommit.target]) OrderFile.commit_order rfl
        (fun _ => .final) rfl rfl
  | reject id reserveUntil =>
      obtain ⟨receipt, pending⟩ := fits
      refine h.keep before (c := .reject id reserveUntil) (by simp [OrderCommit.target]) OrderFile.commit_order rfl (fun s => s) same ?_
      rw [pending.submitted receipts]
      rfl
  | cancel reason => exact h.cancel before
  | ship =>
      refine h.keep before (c := .ship) (by simp [OrderCommit.target]) OrderFile.commit_order rfl (fun s => s) same ?_
      have paid : f.order.status = .paid ∨ f.order.status = .confirmed := by
        simpa [OrderCommit.Fits] using fits
      obtain status | status := paid <;> rw [status] <;> rfl
  | deliver =>
      refine h.keep before (c := .deliver) (by simp [OrderCommit.target]) OrderFile.commit_order rfl (fun s => s) same ?_
      rw [show f.order.status = .shipped from fits]
      rfl

/-- Every transaction keeps the file sound. -/
theorem OrderFile.Sound.commit (h : f.Sound) (ids : f.receipts.Pairwise fun a b => a.id ≠ b.id)
    (fits : c.Fits f) : (f.commit clock now receiptId treasuryId c).Sound := by
  refine ⟨?_, h.receipts.commit h.order ids fits, h.papers.commit h.receipts fits⟩
  rw [OrderFile.commit_order]
  exact h.order.commit h.receipts fits

end Changes

end PapitalErp.SiteOrders
