import PapitalErp.Storefront.SiteOrderFile

/-!
# Transactions on the tables change one file

A transaction on an order changes the file of that order as the change of a file says, and no
other file. A placed order begins with a sound file.
-/

namespace PapitalErp.SiteOrders

open FilteredSums

/-- The file of an order. -/
def SiteTables.file (t : SiteTables) (order : SiteOrder) : OrderFile where
  order := order
  receipts := t.receipts.filter fun receipt => decide (receipt.orderId = order.id)
  documents := t.documents.filter fun doc => decide (doc.id = order.documentId)
  treasury := t.treasury.filter fun row => decide (row.documentId = order.documentId)
  redemptions := t.redemptions.filter fun use => decide (use.orderId = order.id)

/-- Rows have their own keys, and refer to orders and documents that were given out. -/
structure SiteTables.Linked (t : SiteTables) : Prop where
  orders : t.orders.Pairwise fun a b => a.id ≠ b.id
  documents : t.orders.Pairwise fun a b => a.documentId ≠ b.documentId
  receiptIds : t.receipts.Pairwise fun a b => a.id ≠ b.id
  orderBelow : ∀ order ∈ t.orders, order.id < t.nextOrder ∧ order.documentId < t.nextDocument
  receiptBelow : ∀ receipt ∈ t.receipts, receipt.id < t.nextReceipt ∧ receipt.orderId < t.nextOrder
  documentBelow : ∀ doc ∈ t.documents, doc.id < t.nextDocument
  treasuryBelow : ∀ row ∈ t.treasury, row.documentId < t.nextDocument
  useBelow : ∀ use ∈ t.redemptions, use.orderId < t.nextOrder

structure SiteTables.Valid (t : SiteTables) : Prop where
  linked : t.Linked
  sound : ∀ order ∈ t.orders, (t.file order).Sound

section Files

variable {t : SiteTables} {order other : SiteOrder} {id documentId : ℕ} {now : ℤ} {c : OrderCommit}

/-! ## Writes and files -/

/-- Rows rewritten in place, read through a condition that the rewriting keeps. -/
theorem filter_map_of_keeps {α : Type*} {p : α → Bool} {change : α → α} (keeps : ∀ a, p (change a) = p a)
    (rows : List α) : (rows.map change).filter p = (rows.filter p).map change := by
  rw [List.filter_map]
  congr 2
  funext a
  exact keeps a

theorem map_eq_self {α : Type*} {change : α → α} {rows : List α} (same : ∀ a ∈ rows, change a = a) :
    rows.map change = rows := by
  conv_rhs => rw [← List.map_id rows]
  exact List.map_congr_left same

theorem SiteTables.receipts_of_map (rows : List PaymentReceipt) (change : PaymentReceipt → PaymentReceipt)
    (keeps : ∀ r, (change r).orderId = r.orderId) :
    (rows.map change).filter (fun r => decide (r.orderId = id)) =
      (rows.filter fun r => decide (r.orderId = id)).map change :=
  filter_map_of_keeps (fun r => by rw [keeps]) rows

theorem SiteTables.documents_of_map (rows : List SalesDocument) (change : SalesDocument → SalesDocument)
    (keeps : ∀ d, (change d).id = d.id) :
    (rows.map change).filter (fun d => decide (d.id = id)) =
      (rows.filter fun d => decide (d.id = id)).map change :=
  filter_map_of_keeps (fun d => by rw [keeps]) rows

/-- The document of an order is changed, and it alone. -/
theorem SiteTables.documents_of_update (rows : List SalesDocument) (change : SalesDocument → SalesDocument)
    (keeps : ∀ d, (change d).id = d.id) :
    (rows.map fun d => if d.id = documentId then change d else d).filter (fun d => decide (d.id = id)) =
      if id = documentId then (rows.filter fun d => decide (d.id = id)).map change
      else rows.filter fun d => decide (d.id = id) := by
  rw [SiteTables.documents_of_map rows _ fun d => by split <;> simp [keeps]]
  split
  · rename_i same
    refine List.map_congr_left fun d mem => ?_
    rw [if_pos ((of_decide_eq_true (List.mem_filter.mp mem).2).trans same)]
  · rename_i apart
    refine map_eq_self fun d mem => ?_
    rw [if_neg fun same => apart ((of_decide_eq_true (List.mem_filter.mp mem).2).symm.trans same)]

/-- A transaction changes the file of its order. -/
theorem SiteTables.file_commit (t : SiteTables) (now : ℤ) (order : SiteOrder) (c : OrderCommit) :
    (t.commit now order c).file (c.order now order) =
      (t.file order).commit t.clock now t.nextReceipt t.nextTreasury c := by
  cases c with
  | submit amount =>
      simp [SiteTables.commit, SiteTables.file, SiteTables.updateOrder, SiteTables.insertReceipt,
        OrderFile.commit, List.filter_append]
  | pay receiptId =>
      simp only [SiteTables.commit, SiteTables.file, SiteTables.updateOrder, SiteTables.insertTreasury,
        SiteTables.finalizeDocument, SiteTables.updateReceipts, OrderFile.commit, OrderCommit.order_id,
        OrderCommit.order_documentId, List.filter_append, decide_eq_true_eq]
      rw [SiteTables.receipts_of_map _ _ fun r => by split <;> rfl,
        SiteTables.documents_of_update _ (fun doc => { doc with status := .final }) fun _ => rfl, if_pos rfl]
      simp
  | approve =>
      simp only [SiteTables.commit, SiteTables.file, SiteTables.updateOrder, SiteTables.finalizeDocument,
        OrderFile.commit, OrderCommit.order_id, OrderCommit.order_documentId]
      rw [SiteTables.documents_of_update _ (fun doc => { doc with status := .final }) fun _ => rfl, if_pos rfl]
  | reject receiptId reserveUntil =>
      simp only [SiteTables.commit, SiteTables.file, SiteTables.updateOrder, SiteTables.updateReceipts,
        OrderFile.commit, OrderCommit.order_id, OrderCommit.order_documentId, decide_eq_true_eq]
      rw [SiteTables.receipts_of_map _ _ fun r => by split <;> rfl]
  | cancel reason =>
      simp only [SiteTables.commit, SiteTables.file, SiteTables.updateOrder, SiteTables.deleteDocument,
        SiteTables.updateReceipts, SiteTables.releaseDiscount, OrderFile.commit, OrderCommit.order_id,
        OrderCommit.order_documentId, decide_eq_true_eq]
      rw [SiteTables.receipts_of_map _ _ fun r => by split <;> rfl,
        SiteTables.documents_of_update _ (fun doc => { doc with isDeleted := true }) fun _ => rfl, if_pos rfl,
        filter_map_of_keeps fun use => by split <;> rfl]
      congr 1
      · refine List.map_congr_left fun r mem => ?_
        simp [of_decide_eq_true (List.mem_filter.mp mem).2]
      · refine List.map_congr_left fun use mem => ?_
        simp [of_decide_eq_true (List.mem_filter.mp mem).2]
  | ship | deliver =>
      simp [SiteTables.commit, SiteTables.file, SiteTables.updateOrder, OrderFile.commit]

/-- And no other file: a reviewed receipt is one of the order's own. -/
theorem SiteTables.file_commit_other (receiptIds : t.receipts.Pairwise fun a b => a.id ≠ b.id)
    (fits : c.Fits (t.file order)) (apart : other.id ≠ order.id)
    (documents : other.documentId ≠ order.documentId) : (t.commit now order c).file other = t.file other := by
  have reviewed : ∀ {receiptId receipt}, (t.file order).HasPending receiptId receipt →
      ∀ r ∈ t.receipts.filter (fun r => decide (r.orderId = other.id)), r.id ≠ receiptId := by
    rintro receiptId receipt ⟨mem, rfl, -⟩ r own same
    obtain ⟨known, there⟩ := List.mem_filter.mp mem
    obtain ⟨known', here⟩ := List.mem_filter.mp own
    obtain rfl := eq_of_key_eq receiptIds known' known same
    exact apart ((of_decide_eq_true here).symm.trans (of_decide_eq_true there))
  cases c with
  | submit amount =>
      simp [SiteTables.commit, SiteTables.file, SiteTables.updateOrder, SiteTables.insertReceipt,
        List.filter_append, apart.symm]
  | pay receiptId =>
      obtain ⟨receipt, pending, -⟩ := fits
      simp only [SiteTables.commit, SiteTables.file, SiteTables.updateOrder, SiteTables.insertTreasury,
        SiteTables.finalizeDocument, SiteTables.updateReceipts, List.filter_append, decide_eq_true_eq]
      rw [SiteTables.receipts_of_map _ _ fun r => by split <;> rfl,
        SiteTables.documents_of_update _ (fun doc => { doc with status := .final }) fun _ => rfl,
        if_neg documents, map_eq_self fun r mem => if_neg (reviewed pending r mem)]
      simp [documents.symm]
  | approve =>
      simp only [SiteTables.commit, SiteTables.file, SiteTables.updateOrder, SiteTables.finalizeDocument]
      rw [SiteTables.documents_of_update _ (fun doc => { doc with status := .final }) fun _ => rfl,
        if_neg documents]
  | reject receiptId reserveUntil =>
      obtain ⟨receipt, pending⟩ := fits
      simp only [SiteTables.commit, SiteTables.file, SiteTables.updateOrder, SiteTables.updateReceipts,
        decide_eq_true_eq]
      rw [SiteTables.receipts_of_map _ _ fun r => by split <;> rfl,
        map_eq_self fun r mem => if_neg (reviewed pending r mem)]
  | cancel reason =>
      simp only [SiteTables.commit, SiteTables.file, SiteTables.updateOrder, SiteTables.deleteDocument,
        SiteTables.updateReceipts, SiteTables.releaseDiscount, decide_eq_true_eq]
      rw [SiteTables.receipts_of_map _ _ fun r => by split <;> rfl,
        SiteTables.documents_of_update _ (fun doc => { doc with isDeleted := true }) fun _ => rfl,
        if_neg documents, filter_map_of_keeps fun use => by split <;> rfl]
      congr 1
      · refine map_eq_self fun r mem => if_neg ?_
        exact fun own => apart ((of_decide_eq_true (List.mem_filter.mp mem).2).symm.trans own.1)
      · refine map_eq_self fun use mem => if_neg ?_
        exact fun own => apart ((of_decide_eq_true (List.mem_filter.mp mem).2).symm.trans own.1)
  | ship | deliver => rfl

/-! ## Keys -/

theorem forall_map {α : Type*} {P : α → Prop} {rows : List α} {change : α → α} (h : ∀ a ∈ rows, P a)
    (keeps : ∀ a, P a → P (change a)) : ∀ a ∈ rows.map change, P a := by
  intro a mem
  obtain ⟨before, known, rfl⟩ := List.mem_map.mp mem
  exact keeps before (h before known)

theorem pairwise_map_of_keeps {α κ : Type*} {key : α → κ} {rows : List α} {change : α → α}
    (h : rows.Pairwise fun a b => key a ≠ key b) (keeps : ∀ a, key (change a) = key a) :
    (rows.map change).Pairwise fun a b => key a ≠ key b := by
  refine List.pairwise_map.mpr (h.imp fun {a b} apart => ?_)
  rwa [keeps, keeps]

theorem SiteTables.Linked.updateOrder (h : t.Linked) (id : ℕ) (now : ℤ) (c : OrderCommit) :
    (t.updateOrder id (c.order now)).Linked := by
  have keeps : ∀ o : SiteOrder, (if o.id = id then c.order now o else o).id = o.id := by
    intro o
    split <;> simp
  have document : ∀ o : SiteOrder,
      (if o.id = id then c.order now o else o).documentId = o.documentId := by
    intro o
    split <;> simp
  refine ⟨pairwise_map_of_keeps h.orders keeps, pairwise_map_of_keeps h.documents document, h.receiptIds,
    forall_map h.orderBelow fun o below => ?_, h.receiptBelow, h.documentBelow, h.treasuryBelow, h.useBelow⟩
  rw [keeps, document]
  exact below

theorem SiteTables.Linked.updateReceipts (h : t.Linked) (p : PaymentReceipt → Bool)
    (change : PaymentReceipt → PaymentReceipt) (ids : ∀ r, (change r).id = r.id)
    (orderIds : ∀ r, (change r).orderId = r.orderId) : (t.updateReceipts p change).Linked := by
  have keeps : ∀ r : PaymentReceipt, (if p r then change r else r).id = r.id := by
    intro r
    split <;> simp [ids]
  have orders : ∀ r : PaymentReceipt, (if p r then change r else r).orderId = r.orderId := by
    intro r
    split <;> simp [orderIds]
  refine ⟨h.orders, h.documents, pairwise_map_of_keeps h.receiptIds keeps, h.orderBelow,
    forall_map h.receiptBelow fun r below => ?_, h.documentBelow, h.treasuryBelow, h.useBelow⟩
  rw [keeps, orders]
  exact below

theorem SiteTables.Linked.updateDocument (h : t.Linked) (documentId : ℕ)
    (change : SalesDocument → SalesDocument) (ids : ∀ d, (change d).id = d.id) :
    ({ t with documents := t.documents.map fun d => if d.id = documentId then change d else d } :
      SiteTables).Linked := by
  refine ⟨h.orders, h.documents, h.receiptIds, h.orderBelow, h.receiptBelow,
    forall_map h.documentBelow fun d below => ?_, h.treasuryBelow, h.useBelow⟩
  split
  · rwa [ids]
  · exact below

theorem SiteTables.Linked.insertReceipt (h : t.Linked) (mem : order ∈ t.orders) (amount : ℕ) :
    (t.insertReceipt order.id amount).Linked := by
  refine ⟨h.orders, h.documents, ?_, h.orderBelow, ?_, h.documentBelow, h.treasuryBelow, h.useBelow⟩
  · refine List.pairwise_append.mpr ⟨h.receiptIds, List.pairwise_singleton _ _, fun r known r' new => ?_⟩
    cases List.mem_singleton.mp new
    exact (h.receiptBelow r known).1.ne
  · intro r known
    rcases List.mem_append.mp known with earlier | new
    · exact ⟨(h.receiptBelow r earlier).1.trans (Nat.lt_succ_self _), (h.receiptBelow r earlier).2⟩
    · cases List.mem_singleton.mp new
      exact ⟨Nat.lt_succ_self _, (h.orderBelow order mem).1⟩

theorem SiteTables.Linked.insertTreasury (h : t.Linked) (mem : order ∈ t.orders) (payable : ℤ) :
    (t.insertTreasury order.documentId payable).Linked := by
  refine ⟨h.orders, h.documents, h.receiptIds, h.orderBelow, h.receiptBelow, h.documentBelow, ?_, h.useBelow⟩
  intro row known
  rcases List.mem_append.mp known with earlier | new
  · exact h.treasuryBelow row earlier
  · cases List.mem_singleton.mp new
    exact (h.orderBelow order mem).2

theorem SiteTables.Linked.releaseDiscount (h : t.Linked) (id : ℕ) : (t.releaseDiscount id).Linked := by
  refine ⟨h.orders, h.documents, h.receiptIds, h.orderBelow, h.receiptBelow, h.documentBelow, h.treasuryBelow,
    forall_map h.useBelow fun use below => ?_⟩
  split <;> exact below

theorem SiteTables.Linked.commit (h : t.Linked) (mem : order ∈ t.orders) :
    (t.commit now order c).Linked := by
  cases c with
  | submit amount => exact (h.insertReceipt mem amount).updateOrder _ _ _
  | pay receiptId =>
      have booked := h.insertTreasury mem order.payableAmount
      have final := booked.updateDocument order.documentId (fun d => { d with status := .final })
        fun _ => rfl
      have accepted := final.updateReceipts (fun receipt => decide (receipt.id = receiptId))
        (fun receipt => { receipt with status := .accepted, treasuryTransactionId := some t.nextTreasury })
        (fun _ => rfl) fun _ => rfl
      exact accepted.updateOrder _ _ _
  | approve =>
      have final := h.updateDocument order.documentId (fun d => { d with status := .final })
        fun _ => rfl
      exact final.updateOrder _ _ _
  | reject receiptId reserveUntil =>
      have rejected := h.updateReceipts (fun receipt => decide (receipt.id = receiptId))
        (fun receipt => { receipt with status := .rejected }) (fun _ => rfl) fun _ => rfl
      exact rejected.updateOrder _ _ _
  | cancel reason =>
      have void := h.updateDocument order.documentId (fun d => { d with isDeleted := true })
        fun _ => rfl
      have rejected := void.updateReceipts
        (fun receipt => decide (receipt.orderId = order.id ∧ receipt.status = .pending))
        (fun receipt => { receipt with status := .rejected }) (fun _ => rfl) fun _ => rfl
      exact (rejected.updateOrder _ _ _).releaseDiscount _
  | ship | deliver => exact h.updateOrder _ _ _

theorem SiteTables.commit_orders (t : SiteTables) (now : ℤ) (order : SiteOrder) (c : OrderCommit) :
    (t.commit now order c).orders =
      t.orders.map fun o => if o.id = order.id then c.order now o else o := by
  cases c <;> rfl

theorem SiteTables.commit_locks (t : SiteTables) (now : ℤ) (order : SiteOrder) (c : OrderCommit) :
    (t.commit now order c).locks = t.locks := by
  cases c <;> rfl

/-- A transaction that fits keeps the tables valid. -/
theorem SiteTables.Valid.commit (h : t.Valid) (mem : order ∈ t.orders) (fits : c.Fits (t.file order)) :
    (t.commit now order c).Valid := by
  have linked := h.linked
  refine ⟨linked.commit mem, fun o there => ?_⟩
  rw [SiteTables.commit_orders] at there
  obtain ⟨before, known, rfl⟩ := List.mem_map.mp there
  by_cases same : before.id = order.id
  · obtain rfl := eq_of_key_eq linked.orders known mem same
    rw [if_pos rfl, SiteTables.file_commit]
    exact (h.sound before mem).commit (linked.receiptIds.filter _) fits
  · have apart : before.documentId ≠ order.documentId := by
      intro eq
      exact same (congrArg SiteOrder.id (eq_of_key_eq linked.documents known mem eq))
    rw [if_neg same, SiteTables.file_commit_other linked.receiptIds fits same apart]
    exact h.sound before known

/-! ## A placed order -/

theorem filter_eq_nil_of_ne {α : Type*} {rows : List α} {key : α → ℕ} {k : ℕ} (below : ∀ a ∈ rows, key a < k) :
    rows.filter (fun a => decide (key a = k)) = [] := by
  refine List.filter_eq_nil_iff.mpr fun a mem same => ?_
  exact (below a mem).ne (of_decide_eq_true same)

theorem filter_append_singleton {α : Type*} (rows : List α) (p : α → Bool) (a : α) :
    (rows ++ [a]).filter p = rows.filter p ++ if p a then [a] else [] := by
  rw [List.filter_append, List.filter_singleton]
  cases p a <;> rfl

theorem SiteTables.file_place_other (h : t.Linked) (order : CleanOrder) (mem : other ∈ t.orders) :
    (t.place now order).file other = t.file other := by
  obtain ⟨below, document⟩ := h.orderBelow other mem
  have uses : ∀ use ∈ (order.choice.map fun choice =>
      (⟨choice.1, t.nextOrder, order.phoneKey, order.buyerAccountId, choice.2, none, 0⟩ :
        DiscountRedemption)).toList,
      ¬decide (use.orderId = other.id) = true := by
    intro use new same
    obtain ⟨choice, -, rfl⟩ := Option.map_eq_some_iff.mp (Option.mem_toList.mp new)
    exact below.ne (of_decide_eq_true same).symm
  have documents : [(⟨t.nextDocument, .proforma, false⟩ : SalesDocument)].filter
      (fun doc => decide (doc.id = other.documentId)) = [] := by
    simp [document.ne']
  simp only [SiteTables.file, SiteTables.place, List.filter_append, documents,
    List.filter_eq_nil_iff.mpr uses, List.append_nil]

theorem SiteTables.Valid.place (h : t.Valid) (order : CleanOrder) : (t.place now order).Valid := by
  have linked := h.linked
  have placed : ∀ o ∈ (t.place now order).orders, o ∈ t.orders ∨
      o.id = t.nextOrder ∧ o.documentId = t.nextDocument ∧ o.past = [] ∧ o.cancelReason = none ∧
        (o.status = .awaiting_payment ∨ o.status = .awaiting_approval) := by
    intro o mem
    rcases List.mem_append.mp mem with earlier | new
    · exact Or.inl earlier
    · cases List.mem_singleton.mp new
      refine Or.inr ⟨rfl, rfl, rfl, rfl, ?_⟩
      dsimp only
      split
      · exact Or.inr rfl
      · exact Or.inl rfl
  have uses : ∀ use ∈ (t.place now order).redemptions, use ∈ t.redemptions ∨
      use.orderId = t.nextOrder ∧ use.releases = 0 ∧ use.releasedAt = none := by
    intro use mem
    rcases List.mem_append.mp mem with earlier | new
    · exact Or.inl earlier
    · obtain ⟨choice, -, rfl⟩ := Option.map_eq_some_iff.mp (Option.mem_toList.mp new)
      exact Or.inr ⟨rfl, rfl, rfl⟩
  refine ⟨⟨?_, ?_, linked.receiptIds, fun o mem => ?_, fun r mem => ?_, fun d mem => ?_, fun row mem => ?_,
    fun use mem => ?_⟩, fun o mem => ?_⟩
  · refine List.pairwise_append.mpr ⟨linked.orders, List.pairwise_singleton _ _, fun o known o' new => ?_⟩
    cases List.mem_singleton.mp new
    exact (linked.orderBelow o known).1.ne
  · refine List.pairwise_append.mpr ⟨linked.documents, List.pairwise_singleton _ _, fun o known o' new => ?_⟩
    cases List.mem_singleton.mp new
    exact (linked.orderBelow o known).2.ne
  · show o.id < t.nextOrder + 1 ∧ o.documentId < t.nextDocument + 1
    obtain known | ⟨id, document, -⟩ := placed o mem
    · exact ⟨(linked.orderBelow o known).1.trans (Nat.lt_succ_self _),
        (linked.orderBelow o known).2.trans (Nat.lt_succ_self _)⟩
    · exact ⟨id ▸ Nat.lt_succ_self _, document ▸ Nat.lt_succ_self _⟩
  · exact ⟨(linked.receiptBelow r mem).1, (linked.receiptBelow r mem).2.trans (Nat.lt_succ_self _)⟩
  · rcases List.mem_append.mp mem with earlier | new
    · exact (linked.documentBelow d earlier).trans (Nat.lt_succ_self _)
    · cases List.mem_singleton.mp new
      exact Nat.lt_succ_self _
  · exact (linked.treasuryBelow row mem).trans (Nat.lt_succ_self _)
  · show use.orderId < t.nextOrder + 1
    obtain known | ⟨same, -⟩ := uses use mem
    · exact (linked.useBelow use known).trans (Nat.lt_succ_self _)
    · exact same ▸ Nat.lt_succ_self _
  · obtain known | ⟨id, document, past, reason, status⟩ := placed o mem
    · rw [SiteTables.file_place_other linked order known]
      exact h.sound o known
    · -- nothing hangs on a new order but its proforma and the use of its code
      have trail : o.trail = [o.status] := congrArg (o.status :: ·) past
      have unpaid : ¬o.ReachedPaid := by
        obtain same | same := status <;> simp [SiteOrder.ReachedPaid, trail, same]
      have live : o.status ≠ .cancelled ∧ o.status ≠ .payment_submitted := by
        obtain same | same := status <;> simp [same]
      have receipts : ((t.place now order).file o).receipts = [] :=
        filter_eq_nil_of_ne fun r mem => id ▸ (linked.receiptBelow r mem).2
      have treasury : ((t.place now order).file o).treasury = [] :=
        filter_eq_nil_of_ne fun r mem => document ▸ linked.treasuryBelow r mem
      have documents : ((t.place now order).file o).documents = [⟨t.nextDocument, .proforma, false⟩] := by
        show List.filter _ (t.documents ++ [_]) = _
        rw [filter_append_singleton, filter_eq_nil_of_ne fun d mem => document ▸ linked.documentBelow d mem]
        simp [document]
      refine ⟨⟨?_, ?_, fun paid => absurd paid unpaid, ?_, ?_⟩, ⟨?_, ?_, ?_, ?_⟩, ⟨⟨_, documents, ?_, ?_⟩, ?_⟩⟩
      · show List.IsChain _ o.trail
        rw [trail]
        exact List.isChain_singleton _
      · show o.trail.getLast? = _ ∨ o.trail.getLast? = _
        rw [trail]
        exact status.imp (fun same => congrArg some same) fun same => congrArg some same
      · exact fun some => absurd reason some
      · intro expired
        cases reason.symm.trans expired
      · intro r mem
        rw [receipts] at mem
        cases mem
      · rw [receipts]
        exact (if_neg live.2).symm
      · rw [receipts]
        exact (if_neg unpaid).symm
      · rw [treasury]
        exact (if_neg unpaid).symm
      · exact (decide_eq_false live.1).symm
      · intro _
        obtain same | same := status <;> simp [SiteTables.file, same, OrderStatus.document, OPEN_ORDER_STATUSES]
      · intro use mem
        obtain ⟨there, own⟩ := List.mem_filter.mp mem
        refine ⟨of_decide_eq_true own, ?_⟩
        obtain known | ⟨-, releases, unreleased⟩ := uses use there
        · exact absurd ((of_decide_eq_true own).trans id) (linked.useBelow use known).ne
        · exact ⟨releases.trans (if_neg live.1).symm, fun _ => live.1, fun _ => unreleased⟩

end Files

end PapitalErp.SiteOrders
