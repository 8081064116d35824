import PapitalErp.Accounting.FiscalPeriod
import PapitalErp.Lib.Transition

/-!
# The order in which fiscal years close

One operation after another: postings and changes of vouchers, closings and reopenings,
with the checks of the order of the years. A closing asks that every earlier year with
vouchers is closed, a reopening that no later year is closed. A posting asks only for
its own year, so an earlier year that was empty when a later one closed takes vouchers
afterwards, and no closing counts them.

A voucher's number is its position. The rows of the vouchers that a closing writes, and
which of them a reopening reverses, are inputs.
-/

namespace PapitalErp

open Transition

/-- The vouchers, the closed years, and the vouchers as each closing found them. -/
structure FiscalBooks where
  vouchers : List Voucher
  closed : Finset ℤ
  counted : ℤ → List Voucher

inductive FiscalYearOp where
  | voucher (op : VoucherOp)
  /-- `today` is the fiscal year of the business day -/
  | executeFiscalYearClosing (year today : ℤ) (closing : List ℕ) (opening : Option ℕ)
  | reopenFiscalYear (year : ℤ) (reversals : List (ℕ × ℕ))

inductive FiscalYearError where
  | yearInvalid
  | notEnded
  | alreadyClosed
  | earlierOpen (years : Finset ℤ)
  | hasDraftVouchers
  | notClosed
  | laterClosed
  | periodClosed
  | voucherRefused

/-- `jalaliYearBounds` has an answer. -/
def HasYearBounds (jy : ℤ) : Prop := 1300 ≤ jy ∧ jy < 1500

instance (jy : ℤ) : Decidable (HasYearBounds jy) := inferInstanceAs (Decidable (_ ∧ _))

namespace FiscalBooks

def initial : FiscalBooks := ⟨[], ∅, fun _ => []⟩

variable (b : FiscalBooks)

/-- The years of the vouchers that are not deleted. -/
def voucherYears : List ℤ := (b.vouchers.filter fun v => !v.isDeleted).map (·.year)

def earliestVoucherYear : Option ℤ := b.voucherYears.min?

def fiscalYearsWithVouchers (fromYear toYear : ℤ) : Finset ℤ :=
  b.voucherYears.toFinset.filter fun y => fromYear ≤ y ∧ y ≤ toYear ∧ HasYearBounds y

def findEarlierOpenYears (year : ℤ) : Finset ℤ :=
  match b.earliestVoucherYear with
  | none => ∅
  | some first =>
      if year ≤ first then ∅ else b.fiscalYearsWithVouchers first (year - 1) \ b.closed

def write (w : VoucherWrite) : FiscalBooks :=
  { b with
    vouchers :=
      match w.id with
      | some id => b.vouchers.set id w.row
      | none => b.vouchers ++ [w.row] }

/-- An operation of `VoucherService`, in a transaction of some kind. -/
def operate (kind : FiscalKind) (op : VoucherOp) : Except FiscalYearError FiscalBooks :=
  match op.plan kind (op.target.bind fun id => b.vouchers[id]?) with
  | none => throw .voucherRefused
  | some w => do
      ensure (w.row.year ∉ b.closed) .periodClosed
      return b.write w

/-- The vouchers of a closing: those of the year itself, then the opening voucher. -/
def closingVouchers (year : ℤ) (closing : List ℕ) (opening : Option ℕ) : List Voucher :=
  (closing.map fun rows => ⟨year, .approved, false, some year, rows⟩) ++
    (opening.map fun rows => ⟨year + 1, .approved, false, some year, rows⟩).toList

def executeFiscalYearClosing (year today : ℤ) (closing : List ℕ) (opening : Option ℕ) :
    Except FiscalYearError FiscalBooks := do
  ensure (HasYearBounds year) .yearInvalid
  ensure (year < today) .notEnded
  ensure (year ∉ b.closed) .alreadyClosed
  ensure (b.findEarlierOpenYears year = ∅) (.earlierOpen (b.findEarlierOpenYears year))
  ensure (∀ v ∈ b.vouchers, v.year = year → v.isDeleted = false → v.status ≠ .draft) .hasDraftVouchers
  let written ← (closingVouchers year closing opening).foldlM
    (fun b row => b.operate (.closing year fun id => b.vouchers[id]?) (.createJournalVoucher row)) b
  return { written with
    closed := insert year written.closed
    counted := Function.update written.counted year b.vouchers }

/-- One voucher of the year's closing is reversed, at its own date. -/
def voidClosingVoucher (year : ℤ) (reversal : ℕ × ℕ) : Except FiscalYearError FiscalBooks :=
  match b.vouchers[reversal.1]? with
  | none => throw .voucherRefused
  | some old => do
      ensure (old.sourceFiscalYear = some year) .voucherRefused
      b.operate (.reopening year) (.reverseVoucher reversal.1 { old with rows := reversal.2 })

def reopenFiscalYear (year : ℤ) (reversals : List (ℕ × ℕ)) : Except FiscalYearError FiscalBooks := do
  ensure (HasYearBounds year) .yearInvalid
  ensure (year ∈ b.closed) .notClosed
  ensure (∀ later ∈ b.closed, later ≤ year) .laterClosed
  reversals.foldlM (fun b reversal => b.voidClosingVoucher year reversal)
    { b with closed := b.closed.erase year }

end FiscalBooks

def fiscalYearStep (b : FiscalBooks) : FiscalYearOp → Except FiscalYearError FiscalBooks
  | .voucher op => b.operate .posting op
  | .executeFiscalYearClosing year today closing opening =>
      b.executeFiscalYearClosing year today closing opening
  | .reopenFiscalYear year reversals => b.reopenFiscalYear year reversals

/-! ## The order of the years -/

namespace FiscalBooks

variable {b b' : FiscalBooks} {year : ℤ}

/-- The balances that the closing of a year carried on include a voucher. -/
def Carries (b : FiscalBooks) (year : ℤ) (id : ℕ) (row : Voucher) : Prop :=
  ∃ old, (b.counted year)[id]? = some old ∧ old.isDeleted = false ∧ old.status ≠ .draft ∧
    old.year = row.year ∧ old.rows = row.rows

/-- No year before a closed one is open with vouchers that the later closing did not
carry on. -/
def InOrder (b : FiscalBooks) : Prop :=
  ∀ year ∈ b.closed, ∀ earlier < year, earlier ∉ b.closed → ∀ (id : ℕ) row,
    b.vouchers[id]? = some row → row.year = earlier → row.isDeleted = false → b.Carries year id row

/-- Vouchers of a closing are no drafts and not dated before its year. -/
def Sourced (vouchers : List Voucher) : Prop :=
  ∀ v ∈ vouchers, ∀ year, v.sourceFiscalYear = some year → year ≤ v.year ∧ v.status ≠ .draft

end FiscalBooks

/-- The year that an operation puts rows of a voucher in. -/
def VoucherOp.postsIn : VoucherOp → Option ℤ
  | .createJournalVoucher row | .updateJournalVoucher _ row | .reverseVoucher _ row => some row.year
  | .applyVoucherStatus _ _ | .deleteJournalVoucher _ => none

/-- Rows go into no year before a closed one, and no year closes over a draft of a year
that has no bounds, which no closing looks for. -/
def KeepsOrder (b : FiscalBooks) : FiscalYearOp → Prop
  | .voucher op => ∀ year ∈ op.postsIn, ∀ later ∈ b.closed, later ≤ year
  | .executeFiscalYearClosing year _ _ opening =>
      (∀ v ∈ b.vouchers, v.isDeleted = false → v.status = .draft → 1300 ≤ v.year) ∧
        (opening ≠ none → ∀ later ∈ b.closed, later ≤ year + 1)
  | .reopenFiscalYear _ _ => True

instance (b : FiscalBooks) (op : FiscalYearOp) : Decidable (KeepsOrder b op) :=
  match op with
  | .voucher op => inferInstanceAs (Decidable (∀ year ∈ op.postsIn, ∀ later ∈ b.closed, later ≤ year))
  | .executeFiscalYearClosing _ _ _ _ => inferInstanceAs (Decidable (_ ∧ _))
  | .reopenFiscalYear _ _ => .isTrue trivial

/-! ## What the operations write -/

namespace FiscalBooks

variable {b b' : FiscalBooks} {year : ℤ} {kind : FiscalKind} {op : VoucherOp} {w : VoucherWrite}

/-- A voucher after a write was there before, or is the written one. -/
theorem getElem_write {id : ℕ} {row : Voucher} (found : (b.write w).vouchers[id]? = some row) :
    b.vouchers[id]? = some row ∨ row = w.row ∧ ∀ number, w.id = some number → id = number := by
  unfold write at found
  cases target : w.id with
  | none =>
      simp only [target] at found
      rw [List.getElem?_append] at found
      split at found
      · exact .inl found
      · have new := List.mem_singleton.mp (List.mem_of_getElem? found)
        exact .inr ⟨new, by simp⟩
  | some number =>
      simp only [target] at found
      rw [List.getElem?_set] at found
      split at found
      · rename_i same
        split at found
        · obtain rfl := Option.some.inj found
          exact .inr ⟨rfl, fun n eq => same.symm.trans (Option.some.inj eq)⟩
        · cases found
      · exact .inl found

theorem mem_write {row : Voucher} (mem : row ∈ (b.write w).vouchers) :
    row ∈ b.vouchers ∨ row = w.row := by
  obtain ⟨id, found⟩ := List.mem_iff_getElem?.mp mem
  obtain before | ⟨new, -⟩ := getElem_write found
  · exact .inl (List.mem_of_getElem? before)
  · exact .inr new

theorem operate_ok (runs : b.operate kind op = .ok b') : ∃ w,
    op.plan kind (op.target.bind fun id => b.vouchers[id]?) = some w ∧ w.row.year ∉ b.closed ∧
      b' = b.write w := by
  unfold operate at runs
  split at runs
  · simp at runs
  · rename_i w plans
    simp only [bind_eq_ok, ensure_eq_ok, pure_eq_ok] at runs
    obtain ⟨_, notClosed, rfl⟩ := runs
    exact ⟨w, plans, notClosed, rfl⟩

/-- A posting puts rows in its year, or leaves the rows of its voucher and their year. -/
theorem plan_posting {existing : Option Voucher} (plans : op.plan .posting existing = some w) :
    op.postsIn = some w.row.year ∨ ∃ old, existing = some old ∧ w.id = op.target ∧
      old.isDeleted = false ∧ old.year = w.row.year ∧ old.rows = w.row.rows := by
  cases op with
  | createJournalVoucher row =>
      cases plans
      exact .inl rfl
  | updateJournalVoucher id row | reverseVoucher id row =>
      cases existing with
      | none => cases plans
      | some old =>
          simp only [VoucherOp.plan] at plans
          split_ifs at plans
          cases plans
          exact .inl rfl
  | applyVoucherStatus id status | deleteJournalVoucher id =>
      cases existing with
      | none => cases plans
      | some old =>
          simp only [VoucherOp.plan] at plans
          split_ifs at plans with live
          cases plans
          exact .inr ⟨old, rfl, rfl, live.1, rfl, rfl⟩

/-- A posting leaves the vouchers of closings as they are, but for their approval. -/
theorem plan_posting_sourced {existing : Option Voucher} (plans : op.plan .posting existing = some w)
    (sourced : ∀ old, existing = some old → Sourced [old]) : Sourced [w.row] := by
  intro v mem year source
  obtain rfl := List.mem_singleton.mp mem
  cases op with
  | createJournalVoucher row =>
      cases plans
      cases source
  | updateJournalVoucher id row =>
      cases existing with
      | none => cases plans
      | some old =>
          simp only [VoucherOp.plan] at plans
          split_ifs at plans with draft
          cases plans
          exact absurd draft.2 (sourced old rfl old List.mem_cons_self year source).2
  | applyVoucherStatus id status =>
      cases existing with
      | none => cases plans
      | some old =>
          simp only [VoucherOp.plan] at plans
          split_ifs at plans with allowed
          cases plans
          obtain ⟨dated, posted⟩ := sourced old rfl old List.mem_cons_self year source
          refine ⟨dated, fun draft => ?_⟩
          cases source.symm.trans (allowed.2.2 draft posted)
  | deleteJournalVoucher id =>
      cases existing with
      | none => cases plans
      | some old =>
          simp only [VoucherOp.plan] at plans
          split_ifs at plans with draft
          cases plans
          exact absurd draft.2 (sourced old rfl old List.mem_cons_self year source).2
  | reverseVoucher id row =>
      cases existing with
      | none => cases plans
      | some old =>
          simp only [VoucherOp.plan] at plans
          split_ifs at plans
          cases plans
          cases source

/-- Only vouchers that meet `P` are added. -/
structure Appends (P : Voucher → Prop) (b b' : FiscalBooks) : Prop where
  closed : b'.closed = b.closed
  counted : b'.counted = b.counted
  vouchers : ∃ added, b'.vouchers = b.vouchers ++ added ∧ ∀ v ∈ added, P v

theorem Appends.refl (P : Voucher → Prop) (b : FiscalBooks) : Appends P b b :=
  ⟨rfl, rfl, [], by simp, by simp⟩

theorem Appends.add {P : Voucher → Prop} {b₀ : FiscalBooks} (h : Appends P b₀ b) (new : w.id = none)
    (row : P w.row) : Appends P b₀ (b.write w) := by
  obtain ⟨added, eq, all⟩ := h.vouchers
  refine ⟨h.closed, h.counted, added ++ [w.row], ?_, ?_⟩
  · simp [write, new, eq]
  · intro v mem
    obtain old | new := List.mem_append.mp mem
    · exact all v old
    · rw [List.mem_singleton.mp new]
      exact row

theorem Appends.mem {P : Voucher → Prop} (h : Appends P b b') {v : Voucher} (mem : v ∈ b'.vouchers) :
    v ∈ b.vouchers ∨ P v := by
  obtain ⟨added, eq, all⟩ := h.vouchers
  rw [eq] at mem
  exact (List.mem_append.mp mem).imp_right (all v)

theorem Appends.getElem {P : Voucher → Prop} (h : Appends P b b') {id : ℕ} {row : Voucher}
    (found : b'.vouchers[id]? = some row) : b.vouchers[id]? = some row ∨ P row := by
  obtain ⟨added, eq, all⟩ := h.vouchers
  rw [eq, List.getElem?_append] at found
  split at found
  · exact .inl found
  · exact .inr (all row (List.mem_of_getElem? found))

/-- The rows that the vouchers of a closing have. -/
def ClosingRow (year : ℤ) (opening : Option ℕ) (v : Voucher) : Prop :=
  v.sourceFiscalYear = some year ∧ v.status ≠ .draft ∧
    (v.year = year ∨ opening ≠ none ∧ v.year = year + 1)

theorem closingVouchers_row {closing : List ℕ} {opening : Option ℕ} {row : Voucher}
    (mem : row ∈ closingVouchers year closing opening) : row.year = year ∨ opening ≠ none ∧ row.year = year + 1 := by
  obtain old | new := List.mem_append.mp mem
  · obtain ⟨rows, -, rfl⟩ := List.mem_map.mp old
    exact .inl rfl
  · obtain ⟨rows, eq, rfl⟩ := Option.map_eq_some_iff.mp (Option.mem_toList.mp new)
    exact .inr ⟨by simp [eq], rfl⟩

/-- A closing finds the year open, its drafts gone and the earlier years closed, and adds
its vouchers. -/
theorem executeFiscalYearClosing_ok {today : ℤ} {closing : List ℕ} {opening : Option ℕ}
    (runs : b.executeFiscalYearClosing year today closing opening = .ok b') : ∃ written,
    HasYearBounds year ∧ b.findEarlierOpenYears year = ∅ ∧
      Appends (ClosingRow year opening) b written ∧
      b' = { written with
        closed := insert year b.closed
        counted := Function.update b.counted year b.vouchers } := by
  simp only [executeFiscalYearClosing, bind_eq_ok, ensure_eq_ok, pure_eq_ok] at runs
  obtain ⟨_, bounds, _, -, _, -, _, earlier, _, -, written, writes, rfl⟩ := runs
  have appends : Appends (ClosingRow year opening) b written := by
    refine foldlM_invariant (I := Appends (ClosingRow year opening) b) ?_ (.refl _ b) writes
    intro b₁ b₂ row mem before runs
    obtain ⟨w, plans, -, rfl⟩ := operate_ok runs
    cases plans
    have dated := closingVouchers_row mem
    exact before.add rfl ⟨rfl, by simp, dated⟩
  exact ⟨written, bounds, earlier, appends, by rw [appends.closed, appends.counted]⟩

/-- A reopening finds no later year closed, and adds reversals of vouchers of the closing. -/
theorem reopenFiscalYear_ok {reversals : List (ℕ × ℕ)} (sourced : Sourced b.vouchers)
    (runs : b.reopenFiscalYear year reversals = .ok b') : (∀ later ∈ b.closed, later ≤ year) ∧
      Appends (fun v => v.sourceFiscalYear = some year ∧ v.status ≠ .draft ∧ year ≤ v.year)
        { b with closed := b.closed.erase year } b' := by
  simp only [reopenFiscalYear, bind_eq_ok, ensure_eq_ok] at runs
  obtain ⟨_, -, _, -, _, last, writes⟩ := runs
  refine ⟨last, foldlM_invariant (I := Appends _ _) ?_ (.refl _ _) writes⟩
  intro b₁ b₂ reversal _ before runs
  unfold voidClosingVoucher at runs
  split at runs
  · simp at runs
  · rename_i old found
    simp only [bind_eq_ok, ensure_eq_ok] at runs
    obtain ⟨_, source, runs⟩ := runs
    obtain ⟨w, plans, -, rfl⟩ := operate_ok runs
    simp only [VoucherOp.target, Option.bind_some, found, VoucherOp.plan] at plans
    split_ifs at plans
    cases plans
    refine before.add rfl ⟨source, by simp, ?_⟩
    obtain original | added := before.mem (List.mem_of_getElem? found)
    · exact (sourced old original year source).1
    · exact added.2.2

/-- A closing that the check of the order lets pass has vouchers in earlier open years
only where these have no bounds. -/
theorem without_bounds_of_earlier {earlier : ℤ} {row : Voucher} (checked : b.findEarlierOpenYears year = ∅)
    (mem : row ∈ b.vouchers) (dated : row.year = earlier) (live : row.isDeleted = false)
    (before : earlier < year) (notClosed : earlier ∉ b.closed) : ¬ HasYearBounds earlier := by
  intro bounds
  have years : earlier ∈ b.voucherYears :=
    List.mem_map.mpr ⟨row, List.mem_filter.mpr ⟨mem, by simp [live]⟩, dated⟩
  unfold findEarlierOpenYears at checked
  cases first : b.earliestVoucherYear with
  | none =>
      rw [List.min?_eq_none_iff.mp first] at years
      cases years
  | some least =>
      have lower : least ≤ earlier := by
        obtain ⟨-, minimal⟩ := List.min?_eq_some_iff.mp first
        exact minimal earlier years
      simp only [first] at checked
      rw [if_neg (by omega)] at checked
      have found : earlier ∈ b.fiscalYearsWithVouchers least (year - 1) \ b.closed := by
        refine Finset.mem_sdiff.mpr ⟨Finset.mem_filter.mpr ⟨List.mem_toFinset.mpr years, lower, ?_, bounds⟩, notClosed⟩
        omega
      rw [checked] at found
      cases found

/-! ## Every run keeps the order -/

structure Valid (b : FiscalBooks) : Prop where
  sourced : Sourced b.vouchers
  inOrder : b.InOrder

theorem valid_initial : initial.Valid :=
  ⟨by simp [Sourced, initial], by simp [InOrder, initial]⟩

theorem Valid.posting (h : b.Valid) (keeps : KeepsOrder b (.voucher op))
    (runs : b.operate .posting op = .ok b') : b'.Valid := by
  obtain ⟨w, plans, notClosed, rfl⟩ := operate_ok runs
  refine ⟨fun v mem closer eq => ?_, ?_⟩
  · obtain before | rfl := mem_write mem
    · exact h.sourced v before closer eq
    · refine plan_posting_sourced plans (fun old existing => ?_) _ List.mem_cons_self closer eq
      obtain ⟨id, -, found⟩ := Option.bind_eq_some_iff.mp existing
      intro v mem
      rw [List.mem_singleton.mp mem]
      exact h.sourced old (List.mem_of_getElem? found)
  · intro year closed earlier before stays id row found dated live
    obtain old | ⟨rfl, same⟩ := getElem_write found
    · exact h.inOrder year closed earlier before stays id row old dated live
    · obtain posts | ⟨old, existing, target, undeleted, year', rows⟩ := plan_posting plans
      · have latest := keeps _ posts year closed
        omega
      · obtain ⟨number, eq, found⟩ := Option.bind_eq_some_iff.mp existing
        obtain rfl := same number (target.trans eq)
        obtain ⟨kept, counted, live, posted, sameYear, sameRows⟩ :=
          h.inOrder year closed earlier before stays _ old found (year'.trans dated) undeleted
        exact ⟨kept, counted, live, posted, sameYear.trans year', sameRows.trans rows⟩

theorem Valid.closing (h : b.Valid) {today : ℤ} {closing : List ℕ} {opening : Option ℕ}
    (keeps : KeepsOrder b (.executeFiscalYearClosing year today closing opening))
    (runs : b.executeFiscalYearClosing year today closing opening = .ok b') : b'.Valid := by
  obtain ⟨written, bounds, checked, appends, rfl⟩ := executeFiscalYearClosing_ok runs
  refine ⟨fun v mem closer eq => ?_, ?_⟩
  · obtain before | ⟨new, posted, dated⟩ := appends.mem mem
    · exact h.sourced v before closer eq
    · obtain rfl := Option.some.inj (new.symm.trans eq)
      exact ⟨by omega, posted⟩
  · intro later closed earlier before stays id row found dated live
    obtain ⟨other, notClosed⟩ := not_or.mp (mt Finset.mem_insert.mpr stays)
    obtain old | ⟨-, -, new⟩ := appends.getElem found
    · by_cases now : later = year
      · subst now
        have unbounded := without_bounds_of_earlier checked (List.mem_of_getElem? old) dated live before notClosed
        refine ⟨row, by simp [old], live, fun draft => unbounded ?_, rfl, rfl⟩
        have bounded := keeps.1 row (List.mem_of_getElem? old) live draft
        exact ⟨dated ▸ bounded, before.trans bounds.2⟩
      · have closed' := (Finset.mem_insert.mp closed).resolve_left now
        obtain ⟨kept, counted, rest⟩ := h.inOrder later closed' earlier before notClosed id row old dated live
        exact ⟨kept, by simpa [now] using counted, rest⟩
    · obtain same | ⟨asked, next⟩ := new
      · exact absurd (dated.symm.trans same) other
      · obtain rfl | closed' := Finset.mem_insert.mp closed
        · omega
        · have latest := keeps.2 asked later closed'
          omega

theorem Valid.reopening (h : b.Valid) {reversals : List (ℕ × ℕ)}
    (runs : b.reopenFiscalYear year reversals = .ok b') : b'.Valid := by
  obtain ⟨last, appends⟩ := reopenFiscalYear_ok h.sourced runs
  refine ⟨fun v mem closer eq => ?_, ?_⟩
  · obtain before | ⟨new, posted, dated⟩ := appends.mem mem
    · exact h.sourced v before closer eq
    · obtain rfl := Option.some.inj (new.symm.trans eq)
      exact ⟨dated, posted⟩
  · intro later closed earlier before stays id row found dated live
    rw [appends.closed] at closed stays
    obtain ⟨other, closed'⟩ := Finset.mem_erase.mp closed
    have early := last later closed'
    obtain old | ⟨-, -, new⟩ := appends.getElem found
    · have notClosed : earlier ∉ b.closed := fun mem => stays (Finset.mem_erase.mpr ⟨by omega, mem⟩)
      obtain ⟨kept, counted, rest⟩ := h.inOrder later closed' earlier before notClosed id row old dated live
      exact ⟨kept, by rw [appends.counted]; exact counted, rest⟩
    · omega

end FiscalBooks

open FiscalBooks

theorem valid_fiscalYearStep {b b' : FiscalBooks} {op : FiscalYearOp} (h : b.Valid)
    (keeps : KeepsOrder b op) (runs : fiscalYearStep b op = .ok b') : b'.Valid := by
  cases op with
  | voucher op => exact h.posting keeps runs
  | executeFiscalYearClosing year today closing opening => exact h.closing keeps runs
  | reopenFiscalYear year reversals => exact h.reopening runs

/-- After every run of postings, closings and reopenings that puts no rows into a year
before a closed one, no year before a closed one is open with vouchers that the later
closing did not carry on. -/
theorem years_close_in_order (ops : List FiscalYearOp)
    (keeps : Along fiscalYearStep KeepsOrder FiscalBooks.initial ops) :
    (run fiscalYearStep FiscalBooks.initial ops).InOrder :=
  (run_invariant_along (fun _ _ _ => valid_fiscalYearStep) valid_initial keeps).inOrder

/-- Two years are closed one after the other, and the later one is reopened. -/
theorem years_close_in_order_over_reopening :
    (run fiscalYearStep FiscalBooks.initial
      [.voucher (.createJournalVoucher ⟨1402, .approved, false, none, 7⟩),
        .executeFiscalYearClosing 1402 1404 [8] (some 9),
        .voucher (.createJournalVoucher ⟨1403, .approved, false, none, 10⟩),
        .executeFiscalYearClosing 1403 1404 [11] none, .reopenFiscalYear 1403 [(4, 12)],
        .voucher (.createJournalVoucher ⟨1403, .draft, false, none, 13⟩)]).InOrder := by
  apply years_close_in_order
  decide +kernel

/-- The year 1401 has no vouchers when 1402 closes and takes one afterwards. -/
theorem voucher_before_closed_year :
    ¬ (run fiscalYearStep FiscalBooks.initial
      [.voucher (.createJournalVoucher ⟨1400, .approved, false, none, 7⟩),
        .voucher (.createJournalVoucher ⟨1402, .approved, false, none, 8⟩),
        .executeFiscalYearClosing 1400 1403 [] none, .executeFiscalYearClosing 1402 1403 [] none,
        .voucher (.createJournalVoucher ⟨1401, .approved, false, none, 9⟩)]).InOrder := by
  intro inOrder
  have carried := inOrder 1402 (by decide +kernel) 1401 (by decide) (by decide +kernel) 2
    ⟨1401, .approved, false, none, 9⟩ (by decide +kernel) rfl rfl
  obtain ⟨old, counted, -⟩ := carried
  have absent : (run fiscalYearStep FiscalBooks.initial
      [.voucher (.createJournalVoucher ⟨1400, .approved, false, none, 7⟩),
        .voucher (.createJournalVoucher ⟨1402, .approved, false, none, 8⟩),
        .executeFiscalYearClosing 1400 1403 [] none, .executeFiscalYearClosing 1402 1403 [] none,
        .voucher (.createJournalVoucher ⟨1401, .approved, false, none, 9⟩)]).counted 1402 =
      [⟨1400, .approved, false, none, 7⟩, ⟨1402, .approved, false, none, 8⟩] := by
    decide +kernel
  rw [absent] at counted
  cases counted

end PapitalErp
