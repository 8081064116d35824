import PapitalErp.Inventory.Kardex
import PapitalErp.Lib.FilteredSums

/-!
# The vouchers of a stock count

A count posts its shortages and surpluses at the totals of its Kardex rows, between
the inventory account of each item and the account of count differences. A void takes
a draft voucher back and reverses a posted one, and posts what the void of the stock
left behind.

A voucher here is what the balance of an account and a void read of it. Closed years,
numbers and texts are left out: they refuse a voucher or do not move an account.
-/

namespace PapitalErp

open Rounding FilteredSums

abbrev AccountId := ℕ

structure JournalVoucherItem where
  accountId : AccountId
  debit : ℚ
  credit : ℚ
  deriving DecidableEq

structure JournalVoucher where
  sourceDocumentId : Option DocumentId
  isDraft : Bool
  isDeleted : Bool
  items : List JournalVoucherItem

/-- What rows bring an account, debit less credit. -/
def itemsBalance (items : List JournalVoucherItem) (account : AccountId) : ℚ :=
  sumWhere (fun row => decide (row.accountId = account)) (fun row => row.debit - row.credit) items

/-- What the live vouchers bring an account. -/
def accountBalance (vouchers : List JournalVoucher) (account : AccountId) : ℚ :=
  sumWhere (fun voucher => !voucher.isDeleted) (fun voucher => itemsBalance voucher.items account) vouchers

/-- The accounts the settings map. A difference is a profit or loss and the inventory an
asset, which `saveMappings` keeps apart. -/
structure CountAccounts where
  difference : Option AccountId
  rawMaterials : Option AccountId
  finishedGoods : Option AccountId
  apart : ∀ account ∈ difference, account ∉ rawMaterials ∧ account ∉ finishedGoods

/-- The inventory account of an item, by its type. -/
def CountAccounts.inventory (accounts : CountAccounts) (isProduct : Bool) : Option AccountId :=
  if isProduct then accounts.finishedGoods else accounts.rawMaterials

structure AdjustmentTotals where
  shortageRaw : ℚ
  shortageFinished : ℚ
  surplusRaw : ℚ
  surplusFinished : ℚ

namespace AdjustmentTotals

def addRow (isProduct : ItemId → Bool) (totals : AdjustmentTotals) (row : KardexRow) : AdjustmentTotals :=
  let value := row.totalPrice
  match row.type with
  | .outgoing =>
      if isProduct row.itemId then { totals with shortageFinished := totals.shortageFinished + value }
      else { totals with shortageRaw := totals.shortageRaw + value }
  | .incoming =>
      if isProduct row.itemId then { totals with surplusFinished := totals.surplusFinished + value }
      else { totals with surplusRaw := totals.surplusRaw + value }
  | _ => totals

def ofRows (isProduct : ItemId → Bool) (rows : List KardexRow) : AdjustmentTotals :=
  rows.foldl (addRow isProduct) ⟨0, 0, 0, 0⟩

end AdjustmentTotals

/-- A row in an account, when there is a value to post. -/
def inventoryLine (account : Option AccountId) (debit credit : ℚ) : List JournalVoucherItem :=
  if 0 < debit ∨ 0 < credit then account.toList.map fun id => ⟨id, money debit, money credit⟩ else []

/-- The rows of the voucher of a stock adjustment. -/
def adjustmentItems (accounts : CountAccounts) (shortageRaw shortageFinished surplusRaw surplusFinished : ℚ) :
    List JournalVoucherItem :=
  inventoryLine accounts.difference (shortageRaw + shortageFinished) 0 ++
    inventoryLine accounts.rawMaterials 0 shortageRaw ++
    inventoryLine accounts.finishedGoods 0 shortageFinished ++
    inventoryLine accounts.rawMaterials surplusRaw 0 ++
    inventoryLine accounts.finishedGoods surplusFinished 0 ++
    inventoryLine accounts.difference 0 (surplusRaw + surplusFinished)

/-- `syncStockAdjustmentVoucher` over the rows of a document: nothing of value posts no
voucher, and an account that is missing refuses it (`none`). -/
def syncStockAdjustmentVoucher (accounts : CountAccounts) (isProduct : ItemId → Bool)
    (document : DocumentId) (rows : List KardexRow) : Option (List JournalVoucher) :=
  let totals := AdjustmentTotals.ofRows isProduct rows
  let shortageRaw := money totals.shortageRaw
  let shortageFinished := money totals.shortageFinished
  let surplusRaw := money totals.surplusRaw
  let surplusFinished := money totals.surplusFinished
  if ¬0 < shortageRaw + shortageFinished ∧ ¬0 < surplusRaw + surplusFinished then some []
  else if accounts.difference = none ∨
      (0 < shortageRaw ∨ 0 < surplusRaw) ∧ accounts.rawMaterials = none ∨
      (0 < shortageFinished ∨ 0 < surplusFinished) ∧ accounts.finishedGoods = none then none
  else some [{
    sourceDocumentId := some document
    isDraft := true
    isDeleted := false
    items := adjustmentItems accounts shortageRaw shortageFinished surplusRaw surplusFinished }]

/-! ## The void of a document -/

/-- `reverseVoucher` -/
def reversalVoucher (voucher : JournalVoucher) : JournalVoucher where
  sourceDocumentId := none
  isDraft := false
  isDeleted := false
  items := voucher.items.map fun row => ⟨row.accountId, row.credit, row.debit⟩

/-- The live vouchers a document has posted. -/
def JournalVoucher.postedBy (document : DocumentId) (voucher : JournalVoucher) : Bool :=
  voucher.sourceDocumentId = some document && !voucher.isDeleted

/-- `voidSourceVoucher` for every voucher of the document: a draft is deleted, a posted
one is reversed. -/
def voidSourceVouchers (document : DocumentId) (vouchers : List JournalVoucher) : List JournalVoucher :=
  vouchers.map (fun voucher =>
    if voucher.postedBy document && voucher.isDraft then { voucher with isDeleted := true } else voucher) ++
  (vouchers.filter fun voucher => voucher.postedBy document && !voucher.isDraft).map reversalVoucher

/-- The rows of the residue voucher for one inventory account: the stock account is
credited with what the ledger holds above the stock, or debited with what it lacks. -/
def residueItems (accounts : CountAccounts) (account : Option AccountId) (amount : ℚ) :
    List JournalVoucherItem :=
  if amount = 0 then []
  else if 0 < amount then
    inventoryLine account 0 amount ++ inventoryLine accounts.difference amount 0
  else inventoryLine account (-amount) 0 ++ inventoryLine accounts.difference 0 (-amount)

/-- `postVoidResidueVoucher`, to the whole rial. -/
def postVoidResidueVoucher (accounts : CountAccounts) (isProduct : ItemId → Bool)
    (residues : List (ItemId × ℚ)) : Option (List JournalVoucher) :=
  let raw := FinancialDecimal.round ((residues.filter fun line => !isProduct line.1).map Prod.snd).sum 0
  let finished := FinancialDecimal.round ((residues.filter fun line => isProduct line.1).map Prod.snd).sum 0
  if raw = 0 ∧ finished = 0 then some []
  else if accounts.difference = none ∨ raw ≠ 0 ∧ accounts.rawMaterials = none ∨
      finished ≠ 0 ∧ accounts.finishedGoods = none then none
  else some [{
    sourceDocumentId := none
    isDraft := true
    isDeleted := false
    items := residueItems accounts accounts.rawMaterials raw ++
      residueItems accounts accounts.finishedGoods finished }]

/-! ## What a count posts -/

section Count

variable {accounts : CountAccounts} {isProduct : ItemId → Bool} {account : AccountId}

theorem itemsBalance_append (items items' : List JournalVoucherItem) :
    itemsBalance (items ++ items') account = itemsBalance items account + itemsBalance items' account :=
  sumWhere_append items'

theorem itemsBalance_inventoryLine {target : Option AccountId} {debit credit : ℚ} (hd : 0 ≤ debit)
    (hc : 0 ≤ credit) : itemsBalance (inventoryLine target debit credit) account =
      if target = some account then money debit - money credit else 0 := by
  by_cases value : 0 < debit ∨ 0 < credit
  · rw [inventoryLine, if_pos value]
    cases target with
    | none => simp [itemsBalance]
    | some id => by_cases same : id = account <;> simp [itemsBalance, same]
  · obtain ⟨no_debit, no_credit⟩ := not_or.mp value
    obtain rfl := le_antisymm (not_lt.mp no_debit) hd
    obtain rfl := le_antisymm (not_lt.mp no_credit) hc
    simp [inventoryLine, itemsBalance]

/-- The totals of the rows of one kind of item that move one way. -/
def part (isProduct : ItemId → Bool) (product : Bool) (type : MovementType) (rows : List KardexRow) : ℚ :=
  sumWhere (fun row => isProduct row.itemId == product && row.type == type) KardexRow.totalPrice rows

theorem foldl_addRow (rows : List KardexRow) (totals : AdjustmentTotals) :
    rows.foldl (AdjustmentTotals.addRow isProduct) totals =
      ⟨totals.shortageRaw + part isProduct false .outgoing rows,
        totals.shortageFinished + part isProduct true .outgoing rows,
        totals.surplusRaw + part isProduct false .incoming rows,
        totals.surplusFinished + part isProduct true .incoming rows⟩ := by
  induction rows generalizing totals with
  | nil => simp [part]
  | cons row rows ih =>
      rw [List.foldl_cons, ih]
      cases type : row.type <;> cases product : isProduct row.itemId <;>
        simp [AdjustmentTotals.addRow, part, type, product, add_assoc]

theorem ofRows_eq (rows : List KardexRow) : AdjustmentTotals.ofRows isProduct rows =
    ⟨part isProduct false .outgoing rows, part isProduct true .outgoing rows,
      part isProduct false .incoming rows, part isProduct true .incoming rows⟩ := by
  rw [AdjustmentTotals.ofRows, foldl_addRow]
  simp

/-- The rows a count writes: one way or the other, at a stored value of at least nothing. -/
def Valued (row : KardexRow) : Prop :=
  (row.type = .incoming ∨ row.type = .outgoing) ∧ AtScale 4 row.totalPrice ∧ 0 ≤ row.totalPrice

variable {rows : List KardexRow}

theorem part_column (isProduct : ItemId → Bool) (valued : ∀ row ∈ rows, Valued row) (product : Bool) (type : MovementType) :
    money (part isProduct product type rows) = part isProduct product type rows ∧
      0 ≤ part isProduct product type rows := by
  have each : ∀ x ∈ (rows.filter fun row => isProduct row.itemId == product && row.type == type).map
      KardexRow.totalPrice, AtScale 4 x ∧ 0 ≤ x := by
    intro x mem
    obtain ⟨row, listed, rfl⟩ := List.mem_map.mp mem
    exact (valued row (List.mem_of_mem_filter listed)).2
  exact ⟨money_of_atScale (AtScale.sum fun x mem => (each x mem).1),
    List.sum_nonneg fun x mem => (each x mem).2⟩

/-- What the rows bring the inventory account of one kind of item. -/
theorem part_sub_part (valued : ∀ row ∈ rows, Valued row) (product : Bool) :
    part isProduct product .incoming rows - part isProduct product .outgoing rows =
      sumWhere (fun row => isProduct row.itemId == product) KardexRow.signedTotal rows := by
  induction rows with
  | nil => simp [part]
  | cons row rows ih =>
      have tail := ih fun other mem => valued other (List.mem_cons_of_mem _ mem)
      have here := (valued row List.mem_cons_self).1
      unfold part at tail ⊢
      simp only [sumWhere_cons]
      by_cases kind : isProduct row.itemId = product
      · rcases here with type | type <;>
          simp only [kind, type, KardexRow.signedTotal, beq_self_eq_true, Bool.true_and, if_true,
            signed_incoming, signed_outgoing, ← tail]
        · simp only [show (MovementType.incoming == .outgoing) = false from rfl]
          norm_num
          ring
        · simp only [show (MovementType.outgoing == .incoming) = false from rfl]
          norm_num
          ring
      · have other : (isProduct row.itemId == product) = false := by simpa using kind
        simp only [other, Bool.false_and, Bool.false_eq_true, if_false, zero_add, tail]

theorem sumWhere_inventory (rows : List KardexRow) :
    sumWhere (fun row => decide (accounts.inventory (isProduct row.itemId) = some account))
        KardexRow.signedTotal rows =
      (if accounts.rawMaterials = some account then
        sumWhere (fun row => isProduct row.itemId == false) KardexRow.signedTotal rows else 0) +
      if accounts.finishedGoods = some account then
        sumWhere (fun row => isProduct row.itemId == true) KardexRow.signedTotal rows else 0 := by
  induction rows with
  | nil => simp
  | cons row rows ih =>
      simp only [sumWhere_cons, ih]
      cases product : isProduct row.itemId <;>
        by_cases raw : accounts.rawMaterials = some account <;>
        by_cases finished : accounts.finishedGoods = some account <;>
        simp [CountAccounts.inventory, raw, finished] <;> ring

/-- The voucher of a count moves an inventory account by the value of the rows whose items
are kept on it. -/
theorem syncStockAdjustmentVoucher_balance {document : DocumentId} {posted : List JournalVoucher}
    (ok : syncStockAdjustmentVoucher accounts isProduct document rows = some posted)
    (valued : ∀ row ∈ rows, Valued row) (inventory : accounts.difference ≠ some account) :
    accountBalance posted account =
      sumWhere (fun row => decide (accounts.inventory (isProduct row.itemId) = some account))
        KardexRow.signedTotal rows := by
  have raw_out := part_column isProduct valued false .outgoing
  have raw_in := part_column isProduct valued false .incoming
  have finished_out := part_column isProduct valued true .outgoing
  have finished_in := part_column isProduct valued true .incoming
  rw [sumWhere_inventory, ← part_sub_part valued, ← part_sub_part valued]
  simp only [syncStockAdjustmentVoucher, ofRows_eq, raw_out.1, raw_in.1, finished_out.1,
    finished_in.1] at ok
  split at ok
  · rename_i nothing
    obtain rfl := Option.some.inj ok
    have no_raw_out : part isProduct false .outgoing rows = 0 := by linarith [nothing.1, nothing.2]
    have no_finished_out : part isProduct true .outgoing rows = 0 := by linarith [nothing.1, nothing.2]
    have no_raw_in : part isProduct false .incoming rows = 0 := by linarith [nothing.1, nothing.2]
    have no_finished_in : part isProduct true .incoming rows = 0 := by linarith [nothing.1, nothing.2]
    simp [accountBalance, no_raw_out, no_finished_out, no_raw_in, no_finished_in]
  · split at ok
    · exact absurd ok nofun
    · obtain rfl := Option.some.inj ok
      have posted_items : accountBalance [{
          sourceDocumentId := some document
          isDraft := true
          isDeleted := false
          items := adjustmentItems accounts (part isProduct false .outgoing rows)
            (part isProduct true .outgoing rows) (part isProduct false .incoming rows)
            (part isProduct true .incoming rows) }] account =
          itemsBalance (adjustmentItems accounts (part isProduct false .outgoing rows)
            (part isProduct true .outgoing rows) (part isProduct false .incoming rows)
            (part isProduct true .incoming rows)) account := by
        simp [accountBalance]
      rw [posted_items, adjustmentItems]
      simp only [itemsBalance_append]
      rw [itemsBalance_inventoryLine (add_nonneg raw_out.2 finished_out.2) le_rfl,
        itemsBalance_inventoryLine le_rfl raw_out.2, itemsBalance_inventoryLine le_rfl finished_out.2,
        itemsBalance_inventoryLine raw_in.2 le_rfl, itemsBalance_inventoryLine finished_in.2 le_rfl,
        itemsBalance_inventoryLine le_rfl (add_nonneg raw_in.2 finished_in.2),
        if_neg inventory, if_neg inventory, raw_out.1, raw_in.1, finished_out.1, finished_in.1]
      split_ifs <;> simp <;> ring

/-! ## What a void takes back -/

theorem itemsBalance_reversalVoucher (voucher : JournalVoucher) :
    itemsBalance (reversalVoucher voucher).items account = -itemsBalance voucher.items account := by
  rw [reversalVoucher, itemsBalance, itemsBalance]
  induction voucher.items with
  | nil => simp
  | cons row items ih =>
      rw [List.map_cons, sumWhere_cons, sumWhere_cons, ih, neg_add]
      split <;> simp

/-- A void takes back what the live vouchers of the document had posted. -/
theorem accountBalance_voidSourceVouchers (document : DocumentId) (vouchers : List JournalVoucher) :
    accountBalance (voidSourceVouchers document vouchers) account =
      accountBalance vouchers account -
        sumWhere (fun voucher => voucher.postedBy document)
          (fun voucher => itemsBalance voucher.items account) vouchers := by
  rw [accountBalance, accountBalance, voidSourceVouchers, sumWhere_append, sumWhere_map, sumWhere_map]
  induction vouchers with
  | nil => simp
  | cons voucher vouchers ih =>
      simp only [sumWhere_cons, List.filter_cons]
      cases posted : voucher.postedBy document with
      | false =>
          simp only [Bool.false_and, Function.comp_apply, posted, Bool.false_eq_true, if_false, zero_add]
          linarith [ih]
      | true =>
          have live : voucher.isDeleted = false := by
            simp only [JournalVoucher.postedBy, Bool.and_eq_true, Bool.not_eq_true'] at posted
            exact posted.2
          cases draft : voucher.isDraft
          · have reversed := @itemsBalance_reversalVoucher account voucher
            simp only [Function.comp_apply, posted, draft, live, Bool.and_false, Bool.not_false,
              Bool.and_true, Bool.false_eq_true, if_false, if_true, sumWhere_cons, reversed]
            simp only [reversalVoucher, Bool.not_false, if_true]
            linarith [ih]
          · simp only [Function.comp_apply, posted, draft, live, Bool.and_true, Bool.not_true,
              Bool.and_false, Bool.false_eq_true, if_false, if_true, Bool.not_false]
            linarith [ih]

theorem postVoidResidueVoucher_nothing {residues : List (ItemId × ℚ)}
    (none : ∀ line ∈ residues, line.2 = 0) :
    postVoidResidueVoucher accounts isProduct residues = some [] := by
  have nothing (keep : ItemId × ℚ → Bool) : ((residues.filter keep).map Prod.snd).sum = 0 := by
    apply List.sum_eq_zero
    intro x mem
    obtain ⟨line, listed, rfl⟩ := List.mem_map.mp mem
    exact none line (List.mem_of_mem_filter listed)
  have whole : FinancialDecimal.round 0 0 = 0 := roundHalfUp_zero 0
  simp only [postVoidResidueVoucher, nothing, whole, and_self, if_true]

end Count

end PapitalErp
