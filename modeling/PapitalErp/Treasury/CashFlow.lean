import PapitalErp.Treasury.BankBalance

/-!
# The cash flow report

`getCashFlowReport` gives for every active account the opening balance of a period, what came
in and went out, and the closing balance, from the treasury rows with their days. It leaves
out voided rows and counts their reversals, and counts rows of method `cheque`; the treasury
balance and the running balance of the transaction list do neither. Days are integers, in the
order of the ISO dates, and the monthly trend of the report is left out.
-/

namespace PapitalErp.BankBook

open Rounding FilteredSums

structure CashBank extends Bank where
  isActive : Bool
  deriving DecidableEq

structure CashRow extends TreasuryRow where
  date : ℤ
  deriving DecidableEq

/-- The accounts in the order of their ids, the rows by day and id, and the cheques. -/
structure CashBook where
  banks : List CashBank
  rows : List CashRow
  cheques : List Cheque

/-- The book that `computeBankBalances` reads. -/
def CashBook.toBook (book : CashBook) : Book where
  banks := book.banks.map CashBank.toBank
  rows := book.rows.map CashRow.toTreasuryRow
  cheques := book.cheques

/-! ## The report -/

structure CashFlowSums where
  opening : ℚ
  receipts : ℚ
  payments : ℚ

/-- A day in a period; a bound that is not given is not checked. -/
def inPeriod (start finish : Option ℤ) (day : ℤ) : Bool :=
  start.all (fun first => first ≤ day) && finish.all fun last => day ≤ last

/-- One turn of the loop over the rows of an account. -/
def addRow (bankId : ℕ) (start finish : Option ℤ) (s : CashFlowSums) (row : CashRow) : CashFlowSums :=
  if row.bankAccountId ≠ some bankId ∨ row.voided = true ∨ row.isDeleted = true then s
  else if inPeriod start finish row.date then
    match row.type with
    | .receipt => { s with receipts := s.receipts + row.amount }
    | .payment => { s with payments := s.payments + row.amount }
  else if start.all (fun first => row.date < first) then
    { s with opening := s.opening + row.type.signed row.amount }
  else s

structure CashFlowRow where
  accountId : ℕ
  opening : ℚ
  receipts : ℚ
  payments : ℚ
  closing : ℚ

/-- A row of the report. -/
def cashFlowRow (book : CashBook) (start finish : Option ℤ) (bank : CashBank) : CashFlowRow :=
  let s := book.rows.foldl (addRow bank.id start finish) ⟨bank.initialBalance, 0, 0⟩
  { accountId := bank.id
    opening := FinancialDecimal.round s.opening
    receipts := FinancialDecimal.round s.receipts
    payments := FinancialDecimal.round s.payments
    closing := FinancialDecimal.round (s.opening + s.receipts - s.payments) }

structure CashFlowReport where
  rows : List CashFlowRow
  opening : ℚ
  receipts : ℚ
  payments : ℚ
  closing : ℚ

def getCashFlowReport (book : CashBook) (start finish : Option ℤ) : CashFlowReport :=
  let rows := (book.banks.filter fun b => !b.isDeleted && b.isActive).map (cashFlowRow book start finish)
  { rows := rows
    opening := (rows.map CashFlowRow.opening).sum
    receipts := (rows.map CashFlowRow.receipts).sum
    payments := (rows.map CashFlowRow.payments).sum
    closing := (rows.map CashFlowRow.closing).sum }

/-! ## The running balance of the transaction list -/

/-- A row that `runningBalancesOf` ranks. -/
def CashRow.ranked (bankId : ℕ) (row : CashRow) : Bool :=
  !row.isDeleted && decide (row.bankAccountId = some bankId) && decide (row.method ≠ .cheque)

/-- The order of the window: by day, then by id. -/
def CashRow.before (row last : CashRow) : Bool :=
  row.date < last.date || row.date = last.date && row.id ≤ last.id

/-- The balance after a row of the list. -/
def runningBalance (book : CashBook) (bank : CashBank) (row : CashRow) : ℚ :=
  bank.initialBalance +
    sumWhere (fun r => r.ranked bank.id && r.before row) (fun r => r.type.signed r.amount) book.rows

/-- The last row of the list that has a running balance. -/
structure IsLastRow (book : CashBook) (bank : CashBank) (last : CashRow) : Prop where
  mem : last ∈ book.rows
  ranked : last.ranked bank.id
  after : ∀ row ∈ book.rows, row.ranked bank.id → row.before last

/-! ## What the report counts -/

/-- A live row of an account that is not voided. -/
def CashRow.counted (bankId : ℕ) (row : CashRow) : Bool :=
  !row.isDeleted && !row.voided && decide (row.bankAccountId = some bankId)

/-- What a row adds to the account. -/
def CashRow.signed (row : CashRow) : ℚ := row.type.signed row.amount

theorem atScale_signed (row : CashRow) : AtScale 4 row.signed := by
  unfold CashRow.signed
  cases row.type
  · exact row.amount.2
  · exact row.amount.2.neg

variable {book : CashBook} {bank : CashBank}

/-- What a row adds to the opening, and to the closing beyond the opening. -/
def openingPart (bankId : ℕ) (start finish : Option ℤ) (row : CashRow) : ℚ :=
  if row.counted bankId ∧ ¬inPeriod start finish row.date ∧ start.all (fun first => row.date < first) then
    row.signed
  else 0

def periodPart (bankId : ℕ) (start finish : Option ℤ) (row : CashRow) : ℚ :=
  if row.counted bankId ∧ inPeriod start finish row.date then row.signed else 0

theorem counted_iff {bankId : ℕ} {row : CashRow} : row.counted bankId = true ↔
    ¬(row.bankAccountId ≠ some bankId ∨ row.voided = true ∨ row.isDeleted = true) := by
  unfold CashRow.counted
  cases row.isDeleted <;> cases row.voided <;> simp

theorem addRow_eq (bankId : ℕ) (start finish : Option ℤ) (s : CashFlowSums) (row : CashRow) :
    (addRow bankId start finish s row).opening = s.opening + openingPart bankId start finish row ∧
      (addRow bankId start finish s row).receipts - (addRow bankId start finish s row).payments =
        s.receipts - s.payments + periodPart bankId start finish row := by
  unfold addRow openingPart periodPart
  by_cases skipped : row.bankAccountId ≠ some bankId ∨ row.voided = true ∨ row.isDeleted = true
  · have not_counted : ¬row.counted bankId = true := fun h => counted_iff.mp h skipped
    rw [if_pos skipped, if_neg fun h => not_counted h.1, if_neg fun h => not_counted h.1]
    exact ⟨(add_zero _).symm, (add_zero _).symm⟩
  · have counted : row.counted bankId = true := counted_iff.mpr skipped
    rw [if_neg skipped]
    by_cases inside : inPeriod start finish row.date = true
    · rw [if_pos inside, if_neg fun h => h.2.1 inside, if_pos ⟨counted, inside⟩]
      unfold CashRow.signed
      cases row.type <;> constructor <;> dsimp only [TreasuryType.signed] <;> ring
    · have outside : ¬(row.counted bankId = true ∧ inPeriod start finish row.date = true) := fun h => inside h.2
      rw [if_neg inside, if_neg outside]
      by_cases early : start.all (fun first => row.date < first) = true
      · rw [if_pos early, if_pos ⟨counted, inside, early⟩]
        exact ⟨rfl, (add_zero _).symm⟩
      · rw [if_neg early, if_neg fun h => early h.2.2]
        exact ⟨(add_zero _).symm, (add_zero _).symm⟩

/-- The loop adds every row's parts. -/
theorem foldl_addRow (bankId : ℕ) (start finish : Option ℤ) (rows : List CashRow) (s : CashFlowSums) :
    (rows.foldl (addRow bankId start finish) s).opening =
        s.opening + (rows.map (openingPart bankId start finish)).sum ∧
      (rows.foldl (addRow bankId start finish) s).receipts - (rows.foldl (addRow bankId start finish) s).payments =
        s.receipts - s.payments + (rows.map (periodPart bankId start finish)).sum := by
  induction rows generalizing s with
  | nil => exact ⟨(add_zero _).symm, (add_zero _).symm⟩
  | cons row rows ih =>
    obtain ⟨opening, period⟩ := ih (addRow bankId start finish s row)
    obtain ⟨first, second⟩ := addRow_eq bankId start finish s row
    rw [List.foldl_cons, opening, period, first, second, List.map_cons, List.map_cons, List.sum_cons, List.sum_cons]
    exact ⟨add_assoc _ _ _, add_assoc _ _ _⟩

theorem atScale_sum_map {f : CashRow → ℚ} (rows : List CashRow) (h : ∀ row, f row = row.signed ∨ f row = 0) :
    AtScale 4 (rows.map f).sum := by
  refine AtScale.sum fun x hx => ?_
  obtain ⟨row, -, rfl⟩ := List.mem_map.mp hx
  rcases h row with same | zero
  · exact same ▸ atScale_signed row
  · exact zero ▸ AtScale.zero 4

/-- The opening and the closing of a row of the report. -/
theorem cashFlowRow_eq (book : CashBook) (start finish : Option ℤ) (bank : CashBank) :
    (cashFlowRow book start finish bank).opening =
        bank.initialBalance + (book.rows.map (openingPart bank.id start finish)).sum ∧
      (cashFlowRow book start finish bank).closing =
        bank.initialBalance + (book.rows.map (openingPart bank.id start finish)).sum +
          (book.rows.map (periodPart bank.id start finish)).sum := by
  obtain ⟨opening, period⟩ := foldl_addRow bank.id start finish book.rows ⟨bank.initialBalance, 0, 0⟩
  have openingScale : AtScale 4 (bank.initialBalance + (book.rows.map (openingPart bank.id start finish)).sum) :=
    bank.initialBalance.2.add (atScale_sum_map book.rows fun _ => ite_eq_or_eq _ _ _)
  have periodScale : AtScale 4 (book.rows.map (periodPart bank.id start finish)).sum :=
    atScale_sum_map book.rows fun _ => ite_eq_or_eq _ _ _
  unfold cashFlowRow
  dsimp only
  rw [add_sub_assoc, opening, period]
  dsimp only
  rw [sub_zero, zero_add]
  exact ⟨money_of_atScale openingScale, money_of_atScale (openingScale.add periodScale)⟩

/-! ## Where the report agrees -/

/-- What the voided rows of an account move, except those of method `cheque`. -/
def voidedNet (book : CashBook) (bankId : ℕ) : ℚ :=
  sumWhere (fun row => row.ranked bankId && row.voided) CashRow.signed book.rows

/-- What the rows of method `cheque` of an account would move, except the voided ones. -/
def chequeNet (book : CashBook) (bankId : ℕ) : ℚ :=
  sumWhere (fun row => row.counted bankId && decide (row.method = .cheque)) CashRow.signed book.rows

/-- What the report takes into the opening of a period from the days after its end: all of them
where the period has no first day. -/
def lateOpening (book : CashBook) (bankId : ℕ) (start : Option ℤ) (finish : ℤ) : ℚ :=
  sumWhere (fun row => row.counted bankId && (finish < row.date && start.all fun first => row.date < first))
    CashRow.signed book.rows

/-- The rows up to a day. -/
def upTo (book : CashBook) (bankId : ℕ) (finish : ℤ) : ℚ :=
  sumWhere (fun row => row.counted bankId && row.date ≤ finish) CashRow.signed book.rows

/-- Without a last day the closing is the initial balance and every counted row. -/
theorem closing_without_end (book : CashBook) (start : Option ℤ) (bank : CashBank) :
    (cashFlowRow book start none bank).closing =
      bank.initialBalance + sumWhere (CashRow.counted bank.id) CashRow.signed book.rows := by
  rw [(cashFlowRow_eq book start none bank).2, add_assoc, sumWhere, sum_map_filter, ← List.sum_map_add]
  congr 2
  refine List.map_congr_left fun row _ => ?_
  unfold openingPart periodPart inPeriod
  cases row.counted bank.id
  · simp
  · cases start with
    | none => simp
    | some first =>
      rcases lt_or_ge row.date first with early | later
      · simp [early, not_le.mpr early]
      · simp [later, not_lt.mpr later]

/-- The closing of a period: the rows up to its end and the late ones. -/
theorem closing_with_end (book : CashBook) (start : Option ℤ) (finish : ℤ) (bank : CashBank) :
    (cashFlowRow book start (some finish) bank).closing =
      bank.initialBalance + (upTo book bank.id finish + lateOpening book bank.id start finish) := by
  rw [(cashFlowRow_eq book start (some finish) bank).2, add_assoc, upTo, lateOpening, sumWhere, sumWhere,
    sum_map_filter, sum_map_filter, ← List.sum_map_add, ← List.sum_map_add]
  congr 2
  refine List.map_congr_left fun row _ => ?_
  unfold openingPart periodPart inPeriod
  cases row.counted bank.id
  · simp
  · rcases le_or_gt row.date finish with within | after
    · cases start with
      | none => simp [within]
      | some first =>
        rcases lt_or_ge row.date first with early | later
        · simp [early, within, not_le.mpr early]
        · simp [later, within, not_lt.mpr later, not_lt.mpr within]
    · cases start with
      | none => simp [after, not_le.mpr after]
      | some first =>
        rcases lt_or_ge row.date first with early | later
        · simp [early, after, not_le.mpr early, not_le.mpr after]
        · simp [not_lt.mpr later, after, not_le.mpr after]

/-- The opening of a period that starts a day later. -/
theorem opening_next (book : CashBook) (finish : ℤ) (last : Option ℤ) (bank : CashBank) :
    (cashFlowRow book (some (finish + 1)) last bank).opening = bank.initialBalance + upTo book bank.id finish := by
  rw [(cashFlowRow_eq book (some (finish + 1)) last bank).1, upTo, sumWhere, sum_map_filter]
  congr 2
  refine List.map_congr_left fun row _ => ?_
  unfold openingPart inPeriod
  have day : row.date < finish + 1 ↔ row.date ≤ finish := Int.lt_add_one_iff
  cases row.counted bank.id
  · simp
  · rcases le_or_gt row.date finish with within | after
    · have early : ¬finish + 1 ≤ row.date := not_le.mpr (day.mpr within)
      simp [within, day.mpr within, early]
    · have late : ¬row.date < finish + 1 := fun h => absurd (day.mp h) (not_le.mpr after)
      simp [not_le.mpr after, late]

/-- What a row moves by the rule of the treasury balance. -/
theorem effect_eq (bankId : ℕ) (row : CashRow) :
    row.toTreasuryRow.effect bankId = if row.ranked bankId then row.signed else 0 := by
  unfold TreasuryRow.effect TreasuryRow.counts CashRow.ranked CashRow.signed
  have place : decide (row.method ≠ .cheque) = !decide (row.method = .cheque) := decide_not
  cases row.isDeleted <;> cases row.type <;>
    by_cases method : row.method = .cheque <;> by_cases here : row.bankAccountId = some bankId <;>
      simp [method, here, TreasuryType.signed]

/-- The treasury balance without the effect of the cheques. -/
theorem treasury_without_cheques (book : CashBook) (bank : CashBank) :
    treasuryBalance book.toBook bank.toBank - (book.cheques.map (Cheque.effect bank.id)).sum =
      bank.initialBalance + sumWhere (CashRow.ranked bank.id) CashRow.signed book.rows := by
  rw [treasuryBalance_eq, Book.movement]
  have rows : (book.toBook.rows.map (TreasuryRow.effect bank.id)).sum =
      sumWhere (CashRow.ranked bank.id) CashRow.signed book.rows := by
    rw [sumWhere, sum_map_filter, CashBook.toBook, List.map_map]
    exact congrArg List.sum (List.map_congr_left fun row _ => effect_eq bank.id row)
  change (bank.initialBalance : ℚ) + ((book.toBook.rows.map (TreasuryRow.effect bank.id)).sum +
    (book.cheques.map (Cheque.effect bank.id)).sum) - _ = _
  rw [rows]
  ring

/-- The counted rows are the ranked ones without the voided, with those of method `cheque`. -/
theorem counted_eq (book : CashBook) (bankId : ℕ) :
    sumWhere (CashRow.counted bankId) CashRow.signed book.rows + voidedNet book bankId =
      sumWhere (CashRow.ranked bankId) CashRow.signed book.rows + chequeNet book bankId := by
  unfold voidedNet chequeNet
  rw [sumWhere, sumWhere, sumWhere, sumWhere, sum_map_filter, sum_map_filter, sum_map_filter, sum_map_filter,
    ← List.sum_map_add, ← List.sum_map_add]
  refine congrArg List.sum (List.map_congr_left fun row _ => ?_)
  unfold CashRow.counted CashRow.ranked
  cases row.isDeleted <;> cases row.voided <;> by_cases method : row.method = .cheque <;>
    by_cases here : row.bankAccountId = some bankId <;> simp [method, here]

/-- After the last row the running balance has every ranked row. -/
theorem runningBalance_last {last : CashRow} (h : IsLastRow book bank last) :
    runningBalance book bank last =
      bank.initialBalance + sumWhere (CashRow.ranked bank.id) CashRow.signed book.rows := by
  unfold runningBalance
  congr 1
  refine sumWhere_congr (fun row mem => ?_) fun _ _ _ => rfl
  cases ranked : row.ranked bank.id with
  | false => rfl
  | true => rw [Bool.true_and, h.after row mem ranked]

/-- The report agrees with the treasury balance without the cheques, with the opening of the
next period and with the last running balance. -/
structure CashFlowAgrees (book : CashBook) (bank : CashBank) (start : Option ℤ) (finish : ℤ) : Prop where
  treasury : (cashFlowRow book start none bank).closing =
    treasuryBalance book.toBook bank.toBank - (book.cheques.map (Cheque.effect bank.id)).sum
  next : ∀ last, (cashFlowRow book start (some finish) bank).closing =
    (cashFlowRow book (some (finish + 1)) last bank).opening
  running : ∀ last, IsLastRow book bank last →
    (cashFlowRow book start none bank).closing = runningBalance book bank last

/-- It agrees exactly when what the voided rows move and what the rows of method `cheque` would
move are equal, and the opening of the period has nothing of the days after its end. -/
theorem cash_flow_agrees (book : CashBook) (bank : CashBank) (start : Option ℤ) (finish : ℤ) :
    CashFlowAgrees book bank start finish ↔
      voidedNet book bank.id = chequeNet book bank.id ∧ lateOpening book bank.id start finish = 0 := by
  have closing := closing_without_end book start bank
  have net := counted_eq book bank.id
  constructor
  · rintro ⟨treasury, next, -⟩
    have late := next none
    rw [closing_with_end, opening_next] at late
    rw [closing, treasury_without_cheques] at treasury
    exact ⟨by linarith, by linarith⟩
  · rintro ⟨same, late⟩
    refine ⟨?_, fun last => ?_, fun last isLast => ?_⟩
    · rw [closing, treasury_without_cheques]
      linarith
    · rw [closing_with_end, opening_next, late, add_zero]
    · rw [closing, runningBalance_last isLast]
      linarith

/-- A receipt of 100 that was voided a day later leaves 100 less in the report. -/
theorem voided_receipt_in_report :
    let bank : CashBank := ⟨⟨1, stored 500, stored 500, true, false⟩, true⟩
    let row : TreasuryType → ℕ → Option ℕ → Bool → ℤ → CashRow := fun type id reversalOf voided day =>
      ⟨⟨id, type, .cash, stored 100, some 1, none, none, reversalOf, voided, false⟩, day⟩
    let book : CashBook := ⟨[bank], [row .receipt 1 none true 10, row .payment 2 (some 1) false 11], []⟩
    ¬CashFlowAgrees book bank (some 0) 20 ∧ (cashFlowRow book (some 0) none bank).closing = 400 ∧
      treasuryBalance book.toBook bank.toBank = 500 := by
  refine ⟨?_, by decide +kernel, by decide +kernel⟩
  rw [cash_flow_agrees]
  decide +kernel

/-! ## A period cut in two -/

/-- The sums of a period and of the two it is cut into. -/
structure InParts (whole first rest : CashFlowSums) : Prop where
  opening : whole.opening = first.opening
  next : rest.opening = first.opening + first.receipts - first.payments
  receipts : whole.receipts = first.receipts + rest.receipts
  payments : whole.payments = first.payments + rest.payments
  scaled : (AtScale 4 first.receipts ∧ AtScale 4 first.payments) ∧ AtScale 4 rest.receipts ∧ AtScale 4 rest.payments

variable {whole first rest : CashFlowSums} {start next last : ℤ}

/-- A row goes to the opening, to one of the two parts, or to none. -/
theorem InParts.addRow (h : InParts whole first rest) (bankId : ℕ) (before : start ≤ next) (after : next ≤ last + 1)
    (row : CashRow) :
    InParts (addRow bankId (some start) (some last) whole row) (addRow bankId (some start) (some (next - 1)) first row)
      (addRow bankId (some next) (some last) rest row) := by
  obtain ⟨opening, next, receipts, payments, scaled⟩ := h
  have amount := row.amount.2
  simp only [BankBook.addRow, inPeriod, Option.all_some, Bool.and_eq_true, decide_eq_true_eq]
  constructor
  · grind
  · grind [TreasuryType.signed]
  · grind
  · grind
  · grind [AtScale.add]

theorem InParts.foldl (h : InParts whole first rest) (bankId : ℕ) (before : start ≤ next) (after : next ≤ last + 1)
    (rows : List CashRow) :
    InParts (rows.foldl (BankBook.addRow bankId (some start) (some last)) whole)
      (rows.foldl (BankBook.addRow bankId (some start) (some (next - 1))) first)
      (rows.foldl (BankBook.addRow bankId (some next) (some last)) rest) := by
  induction rows generalizing whole first rest with
  | nil => exact h
  | cons row rows ih => exact ih (h.addRow bankId before after row)

/-- The report of a period opens as that of its first days, adds up the receipts and the payments of both
parts and closes as that of its last days, which opens where the first closed. -/
theorem cash_flow_in_parts (book : CashBook) (start : ℤ) (days more : ℕ) :
    let whole := getCashFlowReport book (some start) (some (start + days + more - 1))
    let first := getCashFlowReport book (some start) (some (start + days - 1))
    let rest := getCashFlowReport book (some (start + days)) (some (start + days + more - 1))
    whole.opening = first.opening ∧ first.closing = rest.opening ∧ whole.closing = rest.closing ∧
      whole.receipts = first.receipts + rest.receipts ∧ whole.payments = first.payments + rest.payments := by
  intro whole first rest
  have none : ∀ x : ℚ, InParts ⟨x, 0, 0⟩ ⟨x, 0, 0⟩ ⟨x, 0, 0⟩ := fun _ =>
    ⟨rfl, by simp, by simp, by simp, by simp [AtScale.zero]⟩
  have exact : ∀ {x y : ℚ}, AtScale 4 x → AtScale 4 y → money (x + y) = money x + money y := fun hx hy => by
    rw [money_of_atScale hx, money_of_atScale hy, money_of_atScale (hx.add hy)]
  simp only [whole, first, rest, getCashFlowReport, List.map_map, ← List.sum_map_add]
  refine ⟨?_, ?_, ?_, ?_, ?_⟩ <;> refine congrArg List.sum (List.map_congr_left fun bank _ => ?_) <;>
    obtain ⟨opening, next, receipts, payments, ⟨r, p⟩, r', p'⟩ := (none bank.initialBalance).foldl bank.id
      (show start ≤ start + days by omega) (show start + days ≤ start + days + more - 1 + 1 by omega) book.rows
  · exact congrArg money opening
  · exact congrArg money next.symm
  · refine congrArg money ?_
    rw [opening, receipts, payments, next]
    ring
  · exact (congrArg money receipts).trans (exact r r')
  · exact (congrArg money payments).trans (exact p p')

end PapitalErp.BankBook
