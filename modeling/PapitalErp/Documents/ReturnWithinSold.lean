import PapitalErp.Documents.SalesReturn
import PapitalErp.Lib.Interleaving
import PapitalErp.Lib.FilteredSums

/-!
# Concurrent returns of one invoice

Any number of requests on one final invoice and its sales returns run at once:
final returns, drafts and their edits, finalizations, voids of returns and of the
invoice. A statement reads what is committed (READ COMMITTED), a transaction
writes at its commit, and a row lock taken with FOR UPDATE is kept until then.
An abort, at any point, stands for every other refusal, a deadlock and a crash.

The Kardex rows of a final document mirror its lines and go with it when it is
voided; a draft has none. The locks of the stock items are left out: without
them there are more schedules, not fewer.
-/

namespace PapitalErp

open Rounding Interleaving FilteredSums

/-- The lines of a return as the request schema and the columns give them. -/
structure ReturnLines where
  lines : List DocumentLine
  nonempty : lines ≠ []
  quantity : ∀ l ∈ lines, 0 < l.quantity ∧ AtScale 4 l.quantity

/-- A final invoice whose quantities are positive and at the scale of their column. -/
structure ReturnedInvoice extends SalesInvoice where
  quantity : ∀ l ∈ lines, 0 < l.quantity ∧ AtScale 4 l.quantity

inductive ReturnStatus where
  | draft
  | final
  deriving DecidableEq

/-- A row of `documents` with `return_of_document_id` the invoice. -/
structure ReturnDocument where
  id : ℕ
  sent : ReturnLines
  status : ReturnStatus
  isDeleted : Bool

/-- The rows the transactions lock. -/
inductive DocumentRow where
  | invoice
  | salesReturn (id : ℕ)
  deriving DecidableEq

/-- The committed rows and the row locks. -/
structure ReturnTables where
  invoiceDeleted : Bool
  returns : List ReturnDocument
  nextId : ℕ
  locks : Locks DocumentRow ℕ

namespace ReturnTables

/-- The live `out` rows of the invoice. -/
def sold (invoice : ReturnedInvoice) (t : ReturnTables) : List DocumentLine :=
  if t.invoiceDeleted then [] else invoice.lines

/-- The final returns that are not voided. -/
def liveReturns (t : ReturnTables) : List ReturnDocument :=
  t.returns.filter fun r => !r.isDeleted && r.status == .final

/-- The live `in` rows of the returns of the invoice. -/
def liveRows (t : ReturnTables) : List DocumentLine :=
  t.liveReturns.flatMap fun r => r.sent.lines

def find (t : ReturnTables) (id : ℕ) : Option ReturnDocument :=
  t.returns.find? fun r => r.id = id ∧ r.isDeleted = false

def update (t : ReturnTables) (id : ℕ) (f : ReturnDocument → ReturnDocument) : ReturnTables :=
  { t with returns := t.returns.map fun r => if r.id = id then f r else r }

def insert (t : ReturnTables) (sent : ReturnLines) (status : ReturnStatus) : ReturnTables :=
  { t with returns := t.returns ++ [⟨t.nextId, sent, status, false⟩], nextId := t.nextId + 1 }

/-- The end of a transaction. -/
def release (t : ReturnTables) (i : ℕ) : ReturnTables :=
  { t with locks := t.locks.release i }

end ReturnTables

/-! ## Requests and their statements -/

inductive ReturnRequest where
  | createDraft (sent : ReturnLines)
  | createFinal (sent : ReturnLines)
  | editDraft (id : ℕ) (sent : ReturnLines)
  | finalize (id : ℕ)
  | voidReturn (id : ℕ)
  | voidInvoice

/-- How far a transaction is and what it has read. -/
inductive ReturnProgress where
  | start
  /-- the row of the return is locked and was live -/
  | returnLocked (sent : ReturnLines)
  /-- `assertReturnableInvoice` passed -/
  | invoiceRead (sent : ReturnLines)
  /-- `assertReturnWithinSold` locked the invoice -/
  | invoiceLocked (sent : ReturnLines)
  | soldRead (sent : ReturnLines) (sold : List DocumentLine)
  /-- `assertReturnWithinSold` passed -/
  | checked (sent : ReturnLines)
  /-- `deleteDocument` locked the live invoice -/
  | voidLocked
  /-- `assertVoidHasNoReturns` passed -/
  | voidChecked
  | done

/-- What the environment decides: the transaction goes on, or it ends here. -/
inductive Turn where
  | proceed
  | abort

/-- Lock the row of a return, if it is live and of a wanted status. -/
def lockReturn (i id : ℕ) (wanted : ReturnStatus → Bool) (t : ReturnTables) :
    Option (ReturnTables × ReturnProgress) :=
  match t.locks.take i (.salesReturn id) with
  | none => none
  | some locks =>
      match t.find id with
      | none => some (t.release i, .done)
      | some r =>
          if wanted r.status then some ({ t with locks }, .returnLocked r.sent)
          else some (t.release i, .done)

/-- `assertReturnableInvoice`: a plain read. -/
def readInvoice (i : ℕ) (sent : ReturnLines) (t : ReturnTables) : ReturnTables × ReturnProgress :=
  if t.invoiceDeleted then (t.release i, .done) else (t, .invoiceRead sent)

/-- The commit of a return that passed its checks. -/
def commitReturn (i : ℕ) (request : ReturnRequest) (sent : ReturnLines) (t : ReturnTables) :
    ReturnTables :=
  match request with
  | .createFinal _ => (t.insert sent .final).release i
  | .finalize id => (t.update id fun r => { r with status := .final }).release i
  | _ => t.release i

/-- The next statement of request `i`. -/
def returnStatement (invoice : ReturnedInvoice) (requests : ℕ → ReturnRequest) :
    Program ℕ Turn ReturnTables ReturnProgress := fun i turn t progress =>
  match turn, progress with
  | .abort, _ => some (t.release i, .done)
  | .proceed, .start =>
      match requests i with
      | .createDraft sent => some (readInvoice i sent t)
      | .createFinal sent => some (readInvoice i sent t)
      | .editDraft id _ => lockReturn i id (· == .draft) t
      | .finalize id => lockReturn i id (· == .draft) t
      | .voidReturn id => lockReturn i id (fun _ => true) t
      | .voidInvoice =>
          match t.locks.take i .invoice with
          | none => none
          | some locks =>
              if t.invoiceDeleted then some (t.release i, .done)
              else some ({ t with locks }, .voidLocked)
  | .proceed, .returnLocked sent =>
      match requests i with
      | .editDraft id new => some ((t.update id fun r => { r with sent := new }).release i, .done)
      | .voidReturn id => some ((t.update id fun r => { r with isDeleted := true }).release i, .done)
      | _ => some (readInvoice i sent t)
  | .proceed, .invoiceRead sent =>
      match requests i with
      | .createDraft _ => some ((t.insert sent .draft).release i, .done)
      | _ =>
          match t.locks.take i .invoice with
          | none => none
          | some locks => some ({ t with locks }, .invoiceLocked sent)
  | .proceed, .invoiceLocked sent => some (t, .soldRead sent (t.sold invoice))
  | .proceed, .soldRead sent sold =>
      match assertReturnWithinSold { invoice.toSalesInvoice with lines := sold } t.liveRows
          sent.lines with
      | .error _ => some (t.release i, .done)
      | .ok () => some (t, .checked sent)
  | .proceed, .checked sent => some (commitReturn i (requests i) sent t, .done)
  | .proceed, .voidLocked =>
      -- `activeReturnsOf` lists drafts as well
      if t.returns.any fun r => !r.isDeleted then some (t.release i, .done)
      else some (t, .voidChecked)
  | .proceed, .voidChecked => some ({ t with invoiceDeleted := true }.release i, .done)
  | .proceed, .done => none

/-! ## Quantities -/

theorem atScale_quantityOf {lines : List DocumentLine} (h : ∀ l ∈ lines, AtScale 4 l.quantity)
    (itemId : ItemId) : AtScale 4 (quantityOf lines itemId) := by
  apply AtScale.sum
  intro x mem
  obtain ⟨l, kept, rfl⟩ := List.mem_map.mp mem
  exact h l (List.mem_of_mem_filter kept)

theorem quantityOf_nonneg {lines : List DocumentLine} (h : ∀ l ∈ lines, 0 < l.quantity)
    (itemId : ItemId) : 0 ≤ quantityOf lines itemId := by
  apply List.sum_nonneg
  intro x mem
  obtain ⟨l, kept, rfl⟩ := List.mem_map.mp mem
  exact (h l (List.mem_of_mem_filter kept)).le

namespace ReturnLines

variable (sent : ReturnLines)

/-- A return gives something back. -/
theorem exists_quantityOf_pos : ∃ l ∈ sent.lines, 0 < quantityOf sent.lines l.itemId := by
  obtain ⟨l, rest, eq⟩ := List.exists_cons_of_ne_nil sent.nonempty
  have mem : l ∈ sent.lines := by simp [eq]
  refine ⟨l, mem, (sent.quantity l mem).1.trans_le ?_⟩
  apply List.single_le_sum
  · intro x hx
    obtain ⟨l', kept, rfl⟩ := List.mem_map.mp hx
    exact (sent.quantity l' (List.mem_of_mem_filter kept)).1.le
  · exact List.mem_map.mpr ⟨l, List.mem_filter.mpr ⟨mem, by simp⟩, rfl⟩

end ReturnLines

/-- An accepted return asks for no more than the tolerance above what is left. -/
theorem assertReturnWithinSold_ok {invoice : SalesInvoice} {earlier lines : List DocumentLine}
    (h : assertReturnWithinSold invoice earlier lines = .ok ()) {l : DocumentLine}
    (mem : l ∈ lines) :
    quantityOf lines l.itemId - (quantityOf invoice.lines l.itemId - quantityOf earlier l.itemId) ≤
      RETURN_QTY_TOLERANCE := by
  unfold assertReturnWithinSold at h
  dsimp only at h
  split at h
  · rename_i none
    have listed : l.itemId ∈ (lines.map DocumentLine.itemId).dedup.insertionSort (· ≤ ·) := by
      rw [List.mem_insertionSort, List.mem_dedup]
      exact List.mem_map_of_mem mem
    simpa using List.find?_eq_none.mp none _ listed
  · cases h

/-- The quantities have four decimals, so the tolerance lets nothing more through. -/
theorem assertReturnWithinSold_exact {invoice : SalesInvoice} {earlier : List DocumentLine}
    {sent : ReturnLines} (h : assertReturnWithinSold invoice earlier sent.lines = .ok ())
    (sold : ∀ l ∈ invoice.lines, AtScale 4 l.quantity)
    (returned : ∀ l ∈ earlier, AtScale 4 l.quantity)
    (within : ∀ itemId, quantityOf earlier itemId ≤ quantityOf invoice.lines itemId)
    (itemId : ItemId) :
    quantityOf earlier itemId + quantityOf sent.lines itemId ≤ quantityOf invoice.lines itemId := by
  by_cases asked : ∃ l ∈ sent.lines, l.itemId = itemId
  · obtain ⟨l, mem, rfl⟩ := asked
    have accepted := assertReturnWithinSold_ok h mem
    have left : AtScale 4 (quantityOf invoice.lines l.itemId - quantityOf earlier l.itemId -
        quantityOf sent.lines l.itemId) :=
      ((atScale_quantityOf sold _).sub (atScale_quantityOf returned _)).sub
        (atScale_quantityOf (fun l' mem' => (sent.quantity l' mem').2) _)
    have := left.nonneg_of_neg_lt (show -RETURN_QTY_TOLERANCE ≤ _ by linarith)
      (by norm_num [RETURN_QTY_TOLERANCE])
    linarith
  · have none : quantityOf sent.lines itemId = 0 := by
      have empty : sent.lines.filter (fun l => decide (l.itemId = itemId)) = [] := by
        rw [List.filter_eq_nil_iff]
        intro l mem
        simpa using fun same => asked ⟨l, mem, same⟩
      rw [quantityOf, empty]
      rfl
    rw [none, add_zero]
    exact within itemId

/-! ## The tables -/

/-- A return that counts. -/
def ReturnDocument.counts (r : ReturnDocument) : Bool := !r.isDeleted && r.status == .final

namespace ReturnTables

variable {t : ReturnTables} {r : ReturnDocument} {id : ℕ}

theorem liveReturns_eq_nil : t.liveReturns = [] ↔ ∀ r ∈ t.returns, r.counts = false := by
  simp [liveReturns, ReturnDocument.counts]

theorem quantityOf_liveRows (t : ReturnTables) (itemId : ItemId) : quantityOf t.liveRows itemId =
    sumWhere ReturnDocument.counts (fun r => quantityOf r.sent.lines itemId) t.returns := by
  unfold liveRows liveReturns sumWhere
  show quantityOf ((t.returns.filter ReturnDocument.counts).flatMap _) itemId = _
  induction t.returns.filter ReturnDocument.counts with
  | nil => rfl
  | cons r rest ih => rw [List.flatMap_cons, quantityOf_append, ih, List.map_cons, List.sum_cons]

theorem find_some (h : t.find id = some r) : r ∈ t.returns ∧ r.id = id ∧ r.isDeleted = false :=
  ⟨List.mem_of_find?_eq_some h, by simpa using List.find?_some h⟩

/-- What holds of the committed rows at every moment. -/
structure Valid (invoice : ReturnedInvoice) (t : ReturnTables) : Prop where
  apart : t.returns.Pairwise fun a b => a.id ≠ b.id
  fresh : ∀ r ∈ t.returns, r.id < t.nextId
  within : ∀ itemId, quantityOf t.liveRows itemId ≤ quantityOf invoice.lines itemId
  unvoided : t.invoiceDeleted = true → t.liveReturns = []

/-- Locks come and go without touching the rows. -/
theorem Valid.withLocks {invoice : ReturnedInvoice} (h : t.Valid invoice)
    (locks : Locks DocumentRow ℕ) : ({ t with locks } : ReturnTables).Valid invoice :=
  ⟨h.apart, h.fresh, h.within, h.unvoided⟩

/-- What a transaction of another process must leave to the holder of a lock. -/
structure Undisturbed (j : ℕ) (t t' : ReturnTables) : Prop where
  locks : ∀ row, t.locks row = some j → t'.locks row = some j
  invoice : t.locks .invoice = some j → t'.invoiceDeleted = t.invoiceDeleted ∧
    (∀ itemId, quantityOf t'.liveRows itemId ≤ quantityOf t.liveRows itemId) ∧
    (t.liveReturns = [] → t'.liveReturns = [])
  returns : ∀ r ∈ t.returns, t.locks (.salesReturn r.id) = some j → r ∈ t'.returns

theorem undisturbed_withLocks {j : ℕ} {locks : Locks DocumentRow ℕ}
    (keeps : ∀ row, t.locks row = some j → locks row = some j) :
    Undisturbed j t { t with locks } :=
  ⟨keeps, fun _ => ⟨rfl, fun _ => le_rfl, id⟩, fun _ mem _ => mem⟩

theorem undisturbed_release {i j : ℕ} (apart : j ≠ i) : Undisturbed j t (t.release i) :=
  undisturbed_withLocks fun _ => Locks.release_keeps apart

theorem undisturbed_take {i j : ℕ} (apart : j ≠ i) {row : DocumentRow}
    {locks : Locks DocumentRow ℕ} (taken : t.locks.take i row = some locks) :
    Undisturbed j t { t with locks } := by
  refine undisturbed_withLocks fun row held => ?_
  rcases Locks.take_keeps taken held with kept | ⟨-, same⟩
  · exact kept
  · exact absurd same apart

/-! ### A new return -/

theorem quantityOf_insert (t : ReturnTables) (sent : ReturnLines) (status : ReturnStatus)
    (itemId : ItemId) : quantityOf (t.insert sent status).liveRows itemId =
      quantityOf t.liveRows itemId +
        if status = .final then quantityOf sent.lines itemId else 0 := by
  rw [quantityOf_liveRows, quantityOf_liveRows, insert, sumWhere_append]
  cases status <;> simp [ReturnDocument.counts]

theorem liveReturns_insert_draft (sent : ReturnLines) (none : t.liveReturns = []) :
    (t.insert sent .draft).liveReturns = [] := by
  rw [liveReturns_eq_nil] at none ⊢
  intro r mem
  rcases List.mem_append.mp mem with old | new
  · exact none r old
  · rw [List.mem_singleton.mp new]
    rfl

theorem Valid.insert {invoice : ReturnedInvoice} (h : t.Valid invoice) {sent : ReturnLines}
    {status : ReturnStatus}
    (room : status = .final → t.invoiceDeleted = false ∧ ∀ itemId,
      quantityOf t.liveRows itemId + quantityOf sent.lines itemId ≤
        quantityOf invoice.lines itemId) :
    (t.insert sent status).Valid invoice := by
  refine ⟨?_, ?_, ?_, ?_⟩
  · refine List.pairwise_append.mpr ⟨h.apart, List.pairwise_singleton _ _, ?_⟩
    intro r mem r' new
    rw [List.mem_singleton.mp new]
    exact (h.fresh r mem).ne
  · intro r mem
    show r.id < t.nextId + 1
    rcases List.mem_append.mp mem with old | new
    · exact (h.fresh r old).trans (Nat.lt_succ_self _)
    · rw [List.mem_singleton.mp new]
      exact Nat.lt_succ_self _
  · intro itemId
    rw [quantityOf_insert]
    split_ifs with final
    · exact (room final).2 itemId
    · rw [add_zero]
      exact h.within itemId
  · intro deleted
    cases status with
    | draft => exact liveReturns_insert_draft sent (h.unvoided deleted)
    | final =>
        have kept : t.invoiceDeleted = false := (room rfl).1
        rw [show t.invoiceDeleted = true from deleted] at kept
        cases kept

/-! ### A return that changes -/

section Update

variable {f : ReturnDocument → ReturnDocument}

/-- One return moves what counts by what it counted for and now counts for. -/
theorem quantityOf_update {invoice : ReturnedInvoice} (h : t.Valid invoice) (mem : r ∈ t.returns)
    (f : ReturnDocument → ReturnDocument) (itemId : ItemId) :
    quantityOf (t.update r.id f).liveRows itemId +
        (if r.counts then quantityOf r.sent.lines itemId else 0) =
      quantityOf t.liveRows itemId +
        if (f r).counts then quantityOf (f r).sent.lines itemId else 0 := by
  rw [quantityOf_liveRows, quantityOf_liveRows]
  exact sumWhere_update f h.apart mem

theorem liveReturns_update_nil (id : ℕ) (none : t.liveReturns = [])
    (quiet : ∀ r ∈ t.returns, r.id = id → r.counts = false → (f r).counts = false) :
    (t.update id f).liveReturns = [] := by
  rw [liveReturns_eq_nil] at none ⊢
  intro r mem
  obtain ⟨old, stored, rfl⟩ := List.mem_map.mp mem
  split_ifs with same
  · exact quiet old stored same (none old stored)
  · exact none old stored

theorem Valid.update {invoice : ReturnedInvoice} (h : t.Valid invoice)
    (keeps : ∀ r, (f r).id = r.id)
    (within : ∀ itemId, quantityOf (t.update id f).liveRows itemId ≤ quantityOf invoice.lines itemId)
    (unvoided : t.invoiceDeleted = true → (t.update id f).liveReturns = []) :
    (t.update id f).Valid invoice := by
  refine ⟨pairwise_update h.apart keeps, ?_, within, unvoided⟩
  intro r mem
  obtain ⟨old, stored, rfl⟩ := List.mem_map.mp mem
  rw [key_update keeps]
  exact h.fresh old stored

/-- The holder of a return's row rewrites it and ends; it adds to the invoice's returns
only when it holds the invoice too. -/
theorem undisturbed_update {i j : ℕ} (apart : j ≠ i) (held : t.locks (.salesReturn id) = some i)
    (invoice : t.locks .invoice = some j →
      (∀ itemId, quantityOf (t.update id f).liveRows itemId ≤ quantityOf t.liveRows itemId) ∧
        (t.liveReturns = [] → (t.update id f).liveReturns = [])) :
    Undisturbed j t ((t.update id f).release i) := by
  refine ⟨fun row => Locks.release_keeps apart, fun own => ⟨rfl, invoice own⟩, ?_⟩
  intro r mem own
  apply mem_update_of_ne mem
  rintro rfl
  exact apart (Option.some.inj (own.symm.trans held))

end Update

end ReturnTables

/-! ## The outline -/

/-- A transaction on one return holds the lock of its row, which is still as it was read. -/
def HoldsReturn (request : ReturnRequest) (i : ℕ) (t : ReturnTables) (sent : ReturnLines) : Prop :=
  match request with
  | .finalize id | .editDraft id _ => t.locks (.salesReturn id) = some i ∧
      ∃ r ∈ t.returns, r.id = id ∧ r.isDeleted = false ∧ r.status = .draft ∧ r.sent = sent
  | .voidReturn id => t.locks (.salesReturn id) = some i ∧ ∃ r ∈ t.returns, r.id = id
  | _ => True

/-- What a transaction knows at each point. -/
def ReturnAssertion (invoice : ReturnedInvoice) (requests : ℕ → ReturnRequest) (i : ℕ)
    (t : ReturnTables) : ReturnProgress → Prop
  | .start => True
  | .returnLocked sent => HoldsReturn (requests i) i t sent
  | .invoiceRead sent => HoldsReturn (requests i) i t sent
  | .invoiceLocked sent => t.locks .invoice = some i ∧ HoldsReturn (requests i) i t sent
  | .soldRead sent sold => t.locks .invoice = some i ∧ HoldsReturn (requests i) i t sent ∧
      sold = t.sold invoice
  | .checked sent => t.locks .invoice = some i ∧ HoldsReturn (requests i) i t sent ∧
      t.invoiceDeleted = false ∧ ∀ itemId,
        quantityOf t.liveRows itemId + quantityOf sent.lines itemId ≤ quantityOf invoice.lines itemId
  | .voidLocked => t.locks .invoice = some i
  | .voidChecked => t.locks .invoice = some i ∧ t.liveReturns = []
  | .done => True

section Outline

variable {invoice : ReturnedInvoice} {requests : ℕ → ReturnRequest} {t t' : ReturnTables}
  {i j : ℕ} {sent : ReturnLines}

theorem HoldsReturn.undisturbed {request : ReturnRequest} (h : HoldsReturn request j t sent)
    (kept : t.Undisturbed j t') : HoldsReturn request j t' sent := by
  cases request with
  | finalize id =>
      obtain ⟨held, r, mem, rfl, live, draft, same⟩ := h
      exact ⟨kept.locks _ held, r, kept.returns r mem held, rfl, live, draft, same⟩
  | editDraft id new =>
      obtain ⟨held, r, mem, rfl, live, draft, same⟩ := h
      exact ⟨kept.locks _ held, r, kept.returns r mem held, rfl, live, draft, same⟩
  | voidReturn id =>
      obtain ⟨held, r, mem, rfl⟩ := h
      exact ⟨kept.locks _ held, r, kept.returns r mem held, rfl⟩
  | createDraft sent => trivial
  | createFinal sent => trivial
  | voidInvoice => trivial

theorem ReturnAssertion.undisturbed {progress : ReturnProgress}
    (h : ReturnAssertion invoice requests j t progress) (kept : t.Undisturbed j t') :
    ReturnAssertion invoice requests j t' progress := by
  cases progress with
  | start => trivial
  | returnLocked sent => exact HoldsReturn.undisturbed h kept
  | invoiceRead sent => exact HoldsReturn.undisturbed h kept
  | invoiceLocked sent => exact ⟨kept.locks _ h.1, h.2.undisturbed kept⟩
  | soldRead sent sold =>
      obtain ⟨held, own, rfl⟩ := h
      refine ⟨kept.locks _ held, own.undisturbed kept, ?_⟩
      rw [ReturnTables.sold, ReturnTables.sold, (kept.invoice held).1]
  | checked sent =>
      obtain ⟨held, own, live, room⟩ := h
      obtain ⟨same, less, -⟩ := kept.invoice held
      refine ⟨kept.locks _ held, own.undisturbed kept, same.trans live, fun itemId => ?_⟩
      have := room itemId
      have := less itemId
      linarith
  | voidLocked => exact kept.locks _ h
  | voidChecked => exact ⟨kept.locks _ h.1, (kept.invoice h.1).2.2 h.2⟩
  | done => trivial

/-- A statement keeps the tables valid, gives its transaction the next assertion, leaves
the holders of other locks undisturbed and voids no invoice with a live return. -/
structure Outcome (invoice : ReturnedInvoice) (requests : ℕ → ReturnRequest) (i : ℕ)
    (t t' : ReturnTables) (progress : ReturnProgress) : Prop where
  valid : t'.Valid invoice
  own : ReturnAssertion invoice requests i t' progress
  others : ∀ j, j ≠ i → t.Undisturbed j t'
  voids : t'.invoiceDeleted = true → t.invoiceDeleted = true ∨ t.liveReturns = []

theorem outcome_release (h : t.Valid invoice) : Outcome invoice requests i t (t.release i) .done :=
  ⟨h.withLocks _, trivial, fun _ => ReturnTables.undisturbed_release, .inl⟩

theorem outcome_stay (h : t.Valid invoice) {progress : ReturnProgress}
    (own : ReturnAssertion invoice requests i t progress) :
    Outcome invoice requests i t t progress :=
  ⟨h, own, fun _ _ => ReturnTables.undisturbed_withLocks fun _ held => held, .inl⟩

theorem outcome_readInvoice (h : t.Valid invoice) (own : HoldsReturn (requests i) i t sent)
    {progress : ReturnProgress} (read : some (readInvoice i sent t) = some (t', progress)) :
    Outcome invoice requests i t t' progress := by
  unfold readInvoice at read
  split_ifs at read
  · cases read
    exact outcome_release h
  · cases read
    exact outcome_stay h own

theorem outcome_lockReturn (h : t.Valid invoice) {id : ℕ} {wanted : ReturnStatus → Bool}
    {progress : ReturnProgress} (locked : lockReturn i id wanted t = some (t', progress))
    (own : ∀ locks : Locks DocumentRow ℕ, ∀ r ∈ t.returns, locks (.salesReturn r.id) = some i →
      r.id = id → r.isDeleted = false → wanted r.status = true →
        HoldsReturn (requests i) i { t with locks } r.sent) :
    Outcome invoice requests i t t' progress := by
  unfold lockReturn at locked
  split at locked
  · cases locked
  · rename_i locks taken
    split at locked
    · cases locked
      exact outcome_release h
    · rename_i r found
      obtain ⟨mem, rfl, live⟩ := ReturnTables.find_some found
      split_ifs at locked with status
      · cases locked
        exact ⟨h.withLocks _, own locks r mem (Locks.take_self taken) rfl live status,
          fun _ apart => ReturnTables.undisturbed_take apart taken, .inl⟩
      · cases locked
        exact outcome_release h

theorem outcome_insert (h : t.Valid invoice) {status : ReturnStatus}
    (room : status = .final → t.locks .invoice = some i ∧ t.invoiceDeleted = false ∧ ∀ itemId,
      quantityOf t.liveRows itemId + quantityOf sent.lines itemId ≤
        quantityOf invoice.lines itemId) :
    Outcome invoice requests i t ((t.insert sent status).release i) .done := by
  refine ⟨(h.insert fun final => (room final).2).withLocks _, trivial, fun j apart => ?_, .inl⟩
  refine ⟨fun row => Locks.release_keeps apart, fun own => ⟨rfl, ?_⟩, ?_⟩
  · cases status with
    | final => exact absurd (Option.some.inj (own.symm.trans (room rfl).1)) apart
    | draft =>
        refine ⟨fun itemId => ?_, ReturnTables.liveReturns_insert_draft sent⟩
        show quantityOf (t.insert sent .draft).liveRows itemId ≤ _
        rw [ReturnTables.quantityOf_insert]
        simp
  · intro r mem _
    exact List.mem_append_left _ mem

theorem outcome_editDraft (h : t.Valid invoice) {id : ℕ} (request : requests i = .editDraft id sent)
    {old : ReturnLines} (own : HoldsReturn (requests i) i t old) : Outcome invoice requests i t
      ((t.update id fun r => { r with sent := sent }).release i) .done := by
  rw [request] at own
  obtain ⟨held, r, mem, rfl, live, draft, -⟩ := own
  have same : ∀ itemId, quantityOf (t.update r.id fun r => { r with sent := sent }).liveRows itemId =
      quantityOf t.liveRows itemId := by
    intro itemId
    simpa [ReturnDocument.counts, draft] using
      ReturnTables.quantityOf_update h mem (fun r => { r with sent := sent }) itemId
  have quiet : t.liveReturns = [] →
      (t.update r.id fun r => { r with sent := sent }).liveReturns = [] :=
    fun none => ReturnTables.liveReturns_update_nil r.id none fun _ _ _ uncounted => uncounted
  have valid : (t.update r.id fun r => { r with sent := sent }).Valid invoice := by
    refine h.update (fun _ => rfl) (fun itemId => ?_) fun deleted => quiet (h.unvoided deleted)
    rw [same]
    exact h.within itemId
  refine ⟨valid.withLocks _, trivial, fun j apart => ?_, .inl⟩
  exact ReturnTables.undisturbed_update apart held fun _ => ⟨fun itemId => (same itemId).le, quiet⟩

theorem outcome_voidReturn (h : t.Valid invoice) {id : ℕ} (request : requests i = .voidReturn id)
    (own : HoldsReturn (requests i) i t sent) : Outcome invoice requests i t
      ((t.update id fun r => { r with isDeleted := true }).release i) .done := by
  rw [request] at own
  obtain ⟨held, r, mem, rfl⟩ := own
  have less : ∀ itemId, quantityOf (t.update r.id fun r => { r with isDeleted := true }).liveRows
      itemId ≤ quantityOf t.liveRows itemId := by
    intro itemId
    have moved := ReturnTables.quantityOf_update h mem (fun r => { r with isDeleted := true }) itemId
    have nonneg := quantityOf_nonneg (fun l line => (r.sent.quantity l line).1) itemId
    have gone : ({ r with isDeleted := true } : ReturnDocument).counts = false := rfl
    rw [gone, if_neg Bool.false_ne_true, add_zero] at moved
    split_ifs at moved
    · linarith
    · linarith
  have quiet : t.liveReturns = [] →
      (t.update r.id fun r => { r with isDeleted := true }).liveReturns = [] :=
    fun none => ReturnTables.liveReturns_update_nil r.id none fun _ _ _ _ => rfl
  have valid : (t.update r.id fun r => { r with isDeleted := true }).Valid invoice :=
    h.update (fun _ => rfl) (fun itemId => (less itemId).trans (h.within itemId))
      fun deleted => quiet (h.unvoided deleted)
  refine ⟨valid.withLocks _, trivial, fun j apart => ?_, .inl⟩
  exact ReturnTables.undisturbed_update apart held fun _ => ⟨less, quiet⟩

theorem outcome_finalize (h : t.Valid invoice) {id : ℕ} (request : requests i = .finalize id)
    (own : ReturnAssertion invoice requests i t (.checked sent)) : Outcome invoice requests i t
      ((t.update id fun r => { r with status := .final }).release i) .done := by
  obtain ⟨holder, own, kept, room⟩ := own
  rw [request] at own
  obtain ⟨held, r, mem, rfl, live, draft, rfl⟩ := own
  have valid : (t.update r.id fun r => { r with status := .final }).Valid invoice := by
    refine h.update (fun _ => rfl) (fun itemId => ?_) fun deleted => ?_
    · have moved := ReturnTables.quantityOf_update h mem (fun r => { r with status := .final }) itemId
      have room := room itemId
      rw [if_neg (by simp [ReturnDocument.counts, draft]),
        if_pos (by simp [ReturnDocument.counts, live]), add_zero] at moved
      exact moved.trans_le room
    · rw [show t.invoiceDeleted = true from deleted] at kept
      cases kept
  refine ⟨valid.withLocks _, trivial, fun j apart => ?_, .inl⟩
  exact ReturnTables.undisturbed_update apart held fun other =>
    absurd (Option.some.inj (other.symm.trans holder)) apart

/-- The check leaves room for the return, and passes for no return of a voided invoice. -/
theorem outcome_check (h : t.Valid invoice) {sold : List DocumentLine}
    (own : ReturnAssertion invoice requests i t (.soldRead sent sold))
    (passed : assertReturnWithinSold { invoice.toSalesInvoice with lines := sold } t.liveRows
      sent.lines = .ok ()) : Outcome invoice requests i t t (.checked sent) := by
  obtain ⟨held, own, rfl⟩ := own
  have returned : ∀ l ∈ t.liveRows, AtScale 4 l.quantity := by
    intro l mem
    obtain ⟨r, -, line⟩ := List.mem_flatMap.mp mem
    exact (r.sent.quantity l line).2
  cases deleted : t.invoiceDeleted with
  | false =>
      have sold : t.sold invoice = invoice.lines := by simp [ReturnTables.sold, deleted]
      rw [sold] at passed
      refine outcome_stay h ⟨held, own, deleted, fun itemId => ?_⟩
      exact assertReturnWithinSold_exact passed (fun l line => (invoice.quantity l line).2) returned
        h.within itemId
  | true =>
      have sold : t.sold invoice = [] := by simp [ReturnTables.sold, deleted]
      rw [sold] at passed
      have none : t.liveRows = [] := by
        rw [ReturnTables.liveRows, h.unvoided deleted]
        rfl
      obtain ⟨l, -, positive⟩ := sent.exists_quantityOf_pos
      have room := assertReturnWithinSold_exact passed (by simp) returned
        (fun itemId => by rw [none]) l.itemId
      rw [none] at room
      simp only [quantityOf, List.filter_nil, List.map_nil, List.sum_nil, zero_add] at room
      exact absurd (positive.trans_le room) (lt_irrefl 0)

/-- Every statement has its outcome. -/
theorem returnStatement_outcome (h : t.Valid invoice) {turn : Turn} {progress next : ReturnProgress}
    (own : ReturnAssertion invoice requests i t progress)
    (runs : returnStatement invoice requests i turn t progress = some (t', next)) :
    Outcome invoice requests i t t' next := by
  cases turn with
  | abort =>
      cases runs
      exact outcome_release h
  | proceed =>
      cases progress with
      | start =>
          simp only [returnStatement] at runs
          cases request : requests i with
          | createDraft sent =>
              simp only [request] at runs
              exact outcome_readInvoice h (by simp [HoldsReturn, request]) runs
          | createFinal sent =>
              simp only [request] at runs
              exact outcome_readInvoice h (by simp [HoldsReturn, request]) runs
          | editDraft id new =>
              simp only [request] at runs
              refine outcome_lockReturn h runs fun locks r mem held same live draft => ?_
              subst same
              rw [request]
              exact ⟨held, r, mem, rfl, live, by simpa using draft, rfl⟩
          | finalize id =>
              simp only [request] at runs
              refine outcome_lockReturn h runs fun locks r mem held same live draft => ?_
              subst same
              rw [request]
              exact ⟨held, r, mem, rfl, live, by simpa using draft, rfl⟩
          | voidReturn id =>
              simp only [request] at runs
              refine outcome_lockReturn h runs fun locks r mem held same _ _ => ?_
              subst same
              rw [request]
              exact ⟨held, r, mem, rfl⟩
          | voidInvoice =>
              simp only [request] at runs
              split at runs
              · cases runs
              · rename_i locks taken
                split_ifs at runs
                · cases runs
                  exact outcome_release h
                · cases runs
                  exact ⟨h.withLocks _, Locks.take_self taken,
                    fun _ apart => ReturnTables.undisturbed_take apart taken, .inl⟩
      | returnLocked sent =>
          simp only [returnStatement] at runs
          cases request : requests i with
          | editDraft id new =>
              simp only [request] at runs
              cases runs
              exact outcome_editDraft h request own
          | voidReturn id =>
              simp only [request] at runs
              cases runs
              exact outcome_voidReturn h request own
          | createDraft _ | createFinal _ | finalize _ | voidInvoice =>
              simp only [request] at runs
              exact outcome_readInvoice h own runs
      | invoiceRead sent =>
          simp only [returnStatement] at runs
          cases request : requests i with
          | createDraft _ =>
              simp only [request] at runs
              cases runs
              exact outcome_insert h fun final => by cases final
          | createFinal _ | editDraft _ _ | finalize _ | voidReturn _ | voidInvoice =>
              simp only [request] at runs
              split at runs
              · cases runs
              · rename_i locks taken
                cases runs
                refine ⟨h.withLocks _, ⟨Locks.take_self taken, ?_⟩,
                  fun _ apart => ReturnTables.undisturbed_take apart taken, .inl⟩
                exact HoldsReturn.undisturbed own
                  (ReturnTables.undisturbed_withLocks fun _ => Locks.take_keeps_own taken)
      | invoiceLocked sent =>
          cases runs
          exact outcome_stay h ⟨own.1, own.2, rfl⟩
      | soldRead sent sold =>
          simp only [returnStatement] at runs
          split at runs
          · cases runs
            exact outcome_release h
          · cases runs
            exact outcome_check h own ‹_›
      | checked sent =>
          cases runs
          unfold commitReturn
          split
          · rename_i request
            exact outcome_insert h fun _ => ⟨own.1, own.2.2⟩
          · rename_i request
            exact outcome_finalize h request own
          · exact outcome_release h
      | voidLocked =>
          simp only [returnStatement] at runs
          split_ifs at runs with listed
          · cases runs
            exact outcome_release h
          · cases runs
            refine outcome_stay h ⟨own, ReturnTables.liveReturns_eq_nil.mpr fun r mem => ?_⟩
            have deleted := (Bool.not_eq_true _).mp fun live => listed (List.any_eq_true.mpr ⟨r, mem, live⟩)
            simp [ReturnDocument.counts, deleted]
      | voidChecked =>
          cases runs
          obtain ⟨held, none⟩ := own
          refine ⟨⟨h.apart, h.fresh, h.within, fun _ => none⟩, trivial, fun j apart => ?_,
            fun _ => .inr none⟩
          exact ⟨fun row => Locks.release_keeps apart,
            fun other => absurd (Option.some.inj (other.symm.trans held)) apart,
            fun _ mem _ => mem⟩
      | done => cases runs

/-- The statements follow the outline, so it holds after every schedule. -/
theorem returnOutline (invoice : ReturnedInvoice) (requests : ℕ → ReturnRequest) :
    Outline (returnStatement invoice requests) (fun _ _ _ _ => True)
      (fun t => t.Valid invoice) (ReturnAssertion invoice requests) where
  own h own _ runs :=
    have outcome := returnStatement_outcome h own runs
    ⟨outcome.valid, outcome.own⟩
  others apart h own other _ runs :=
    other.undisturbed ((returnStatement_outcome h own runs).others _ apart)

end Outline

/-- The invoice before any return of it. -/
def ReturnTables.initial : ReturnTables := ⟨false, [], 1, fun _ => none⟩

/-- However the requests on a final invoice and its returns interleave, the live final
returns give back no more of any item than the invoice sold, a voided invoice has no
live final return, and no statement voids an invoice that has one. -/
theorem returned_within_sold (invoice : ReturnedInvoice) (requests : ℕ → ReturnRequest)
    (schedule : List (ℕ × Turn)) :
    let c := (returnStatement invoice requests).after ⟨.initial, fun _ => .start⟩ schedule
    (∀ itemId, quantityOf c.shared.liveRows itemId ≤ quantityOf invoice.lines itemId) ∧
      (c.shared.invoiceDeleted = true → c.shared.liveReturns = []) ∧
      ∀ turn c', (returnStatement invoice requests).step c turn = .ok c' →
        c.shared.liveReturns ≠ [] → c'.shared.invoiceDeleted = false := by
  intro c
  have start : Holds (fun t => t.Valid invoice) (ReturnAssertion invoice requests)
      ⟨.initial, fun _ => .start⟩ := by
    refine ⟨⟨List.Pairwise.nil, by simp [ReturnTables.initial], ?_, fun _ => rfl⟩, fun _ => trivial⟩
    exact fun itemId => quantityOf_nonneg (fun l line => (invoice.quantity l line).1) itemId
  have holds := (returnOutline invoice requests).after start schedule
  refine ⟨holds.shared.within, holds.shared.unvoided, ?_⟩
  intro turn c' runs live
  obtain ⟨t', progress, statement, rfl⟩ := Program.step_ok.mp runs
  have outcome := returnStatement_outcome holds.shared (holds.locals turn.1) statement
  refine (Bool.not_eq_true _).mp fun deleted => live ?_
  rcases outcome.voids deleted with before | none
  · exact holds.shared.unvoided before
  · exact none

end PapitalErp
