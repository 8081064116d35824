import PapitalErp.Inventory.Kardex

/-!
# Kardex replay

`replayKardexWac` recomputes an item's balance and weighted average cost from
its stored rows alone, in id order, from a zero average. It is the second
implementation of what the stock engine does incrementally, and the tool that
repairs an item's average trusts it.

A voided row stays in its place, its reversal row applies the reversal formula.
Which formula a row gets depends on the row, on its original and on the live
reversals of the whole list, as in the source.
-/

namespace PapitalErp

namespace KardexReplay

/-- The running result of a replay. -/
structure Valuation where
  balance : ℚ
  wac : ℚ

/-- `byId.get(reversalOfId)`. -/
def originalOf (allRows : List KardexRow) (row : KardexRow) : Option KardexRow :=
  row.reversalOfId.bind fun id => allRows.find? fun o => decide (o.id = id)

def activelyReversed (allRows : List KardexRow) (id : ℕ) : Bool :=
  allRows.any fun r => !r.isDeleted && decide (r.reversalOfId = some id)

/-- Whether a row has any effect in the ledger. -/
def counts (allRows : List KardexRow) (row : KardexRow) : Bool :=
  if !isInType row.type && !isOutType row.type then false
  else if row.isDeleted && !activelyReversed allRows row.id then false
  else !(row.isDeleted && row.reversalOfId.isSome)

def isReversalRef (documentRef : String) : Bool := documentRef.startsWith "REV-"

/-- Rows that move goods without touching the average. -/
def quantityOnly (allRows : List KardexRow) (row : KardexRow) : Bool :=
  (row.reversalOfId.isSome && (originalOf allRows row).all fun o => !o.isDeleted)
    || isReversalRef row.documentRef
    || decide (row.documentType = .transfer)

/-- The average after `qty` units valued at `unitPrice` are taken back out. -/
def reverseIncoming (v : Valuation) (qty unitPrice : ℚ) : ℚ :=
  let newBalance := v.balance - qty
  let remainingValue := v.balance * v.wac - qty * unitPrice
  if 0 < newBalance ∧ 0 ≤ remainingValue then
    FinancialDecimal.round (FinancialDecimal.divide remainingValue newBalance) 4
  else v.wac

/-- The reversal of a row, in the direction of the reversal row. -/
def applyReversal (v : Valuation) (row : KardexRow) : Valuation :=
  if isInType row.type then
    ⟨v.balance + row.quantity,
      FinancialMath.calculateWAC v.balance v.wac row.quantity row.unitPrice⟩
  else ⟨v.balance - row.quantity, reverseIncoming v row.quantity row.unitPrice⟩

/-- An ordinary movement. -/
def applyMovement (v : Valuation) (row : KardexRow) (quantityOnly : Bool) : Valuation :=
  if isInType row.type then
    ⟨v.balance + row.quantity,
      if quantityOnly then v.wac
      else FinancialMath.calculateWAC v.balance v.wac row.quantity row.unitPrice⟩
  else ⟨v.balance - row.quantity, v.wac⟩

/-- `createKardexReplayer(...).apply`, none for a row without effect. -/
def apply (allRows : List KardexRow) (v : Valuation) (row : KardexRow) : Option Valuation :=
  if !counts allRows row then none
  else
    match originalOf allRows row with
    | some original =>
        if original.isDeleted && decide (original.documentType ≠ .transfer) then
          some (applyReversal v row)
        else some (applyMovement v row (quantityOnly allRows row))
    | none => some (applyMovement v row (quantityOnly allRows row))

structure KardexReplayResult where
  balance : ℚ
  wac : ℚ
  firstNegativeRowId : Option ℕ
  minimumBalance : ℚ

/-- One turn of the replay loop. -/
def replayStep (allRows : List KardexRow) (acc : KardexReplayResult) (row : KardexRow) :
    KardexReplayResult :=
  match apply allRows ⟨acc.balance, acc.wac⟩ row with
  | none => acc
  | some v =>
      { balance := v.balance
        wac := v.wac
        minimumBalance := if v.balance < acc.minimumBalance then v.balance else acc.minimumBalance
        firstNegativeRowId :=
          if v.balance < 0 ∧ acc.firstNegativeRowId = none then some row.id
          else acc.firstNegativeRowId }

/-- Rows by ascending id. -/
def sortById (rows : List KardexRow) : List KardexRow :=
  rows.insertionSort fun a b => a.id ≤ b.id

def replayKardexWac (rows : List KardexRow) (fallbackWac : ℚ) : KardexReplayResult :=
  let sorted := sortById rows
  let result := sorted.foldl (replayStep sorted) ⟨0, 0, none, 0⟩
  { result with wac := if result.wac ≤ 0 then fallbackWac else result.wac }

/-! ## A row's effect is the row's own

In a table written by the stock operations the effect of a row does not depend
on the other rows, and voiding its document later does not change it. -/

/-- The effect of a row, read from the row alone. -/
def rowEffect (v : Valuation) (row : KardexRow) : Valuation :=
  if row.reversalOfId.isSome && decide (row.documentType ≠ .transfer) then applyReversal v row
  else applyMovement v row
    (row.reversalOfId.isSome || isReversalRef row.documentRef
      || decide (row.documentType = .transfer))

/-- What a table written by the stock operations says about one of its rows. -/
structure Settled (allRows : List KardexRow) (row : KardexRow) : Prop where
  type : isInType row.type ∨ isOutType row.type
  deleted : row.isDeleted = true → row.reversalOfId = none ∧ activelyReversed allRows row.id = true
  reversal : ∀ id, row.reversalOfId = some id → ∃ original, originalOf allRows row = some original ∧
    original.isDeleted = true ∧ original.documentType = row.documentType

theorem apply_of_settled {allRows : List KardexRow} {row : KardexRow}
    (h : Settled allRows row) (v : Valuation) : apply allRows v row = some (rowEffect v row) := by
  have counted : counts allRows row = true := by
    have htype := h.type
    cases hdel : row.isDeleted with
    | false => simp_all [counts]
    | true =>
        obtain ⟨hnone, hrev⟩ := h.deleted hdel
        simp_all [counts]
  unfold apply rowEffect
  rw [counted]
  cases hid : row.reversalOfId with
  | none => simp [originalOf, quantityOnly, hid]
  | some id =>
      obtain ⟨original, horig, hdeleted, htype⟩ := h.reversal id hid
      by_cases htransfer : row.documentType = .transfer <;>
        simp [horig, hdeleted, htype, htransfer, quantityOnly, hid]

theorem foldl_replayStep {allRows rows : List KardexRow}
    (settled : ∀ row ∈ rows, Settled allRows row) (acc : KardexReplayResult) :
    let result := rows.foldl (replayStep allRows) acc
    (⟨result.balance, result.wac⟩ : Valuation) = rows.foldl rowEffect ⟨acc.balance, acc.wac⟩ := by
  induction rows generalizing acc with
  | nil => rfl
  | cons row rest ih =>
      have step := apply_of_settled (settled row List.mem_cons_self) ⟨acc.balance, acc.wac⟩
      have tail := ih (fun r hr => settled r (List.mem_cons_of_mem _ hr))
        (replayStep allRows acc row)
      simp only [List.foldl_cons]
      rw [tail]
      simp [replayStep, step]

theorem sortById_of_sorted {rows : List KardexRow} (h : rows.Pairwise fun a b => a.id < b.id) :
    sortById rows = rows :=
  (h.imp fun hab => le_of_lt hab).insertionSort_eq

/-- A replay of settled rows is the fold of their effects. -/
theorem replayKardexWac_eq {rows : List KardexRow} (sorted : rows.Pairwise fun a b => a.id < b.id)
    (settled : ∀ row ∈ rows, Settled rows row) (fallbackWac : ℚ) :
    let v := rows.foldl rowEffect ⟨0, 0⟩
    (replayKardexWac rows fallbackWac).balance = v.balance ∧
      (replayKardexWac rows fallbackWac).wac = if v.wac ≤ 0 then fallbackWac else v.wac := by
  have fold := foldl_replayStep settled ⟨0, 0, none, 0⟩
  dsimp only at fold ⊢
  rw [← fold]
  simp [replayKardexWac, sortById_of_sorted sorted]

end KardexReplay

end PapitalErp
