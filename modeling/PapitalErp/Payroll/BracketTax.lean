import PapitalErp.Lib.FilteredSums
import PapitalErp.Payroll.MonthsOfPeriod
import PapitalErp.Payroll.Payslips

/-!
# The bracket tax of an accepted table

A table that `statutoryRatesError` accepts is a ladder: each bracket starts where the one
below it ends, the first at zero, and only the last may be open. The parts of a base that
lie inside the brackets of a ladder follow one another, and the tax is the sum of each
part at the rate of its bracket.

`bracketTax` keeps ten decimals of each of these terms. What holds of the sum exactly
holds of it up to half a unit of that decimal for every bracket.
-/

namespace PapitalErp.Payslips

open Rounding FilteredSums

/-! ## What the table is checked for -/

/-- `STATUTORY_PERCENT_MAX`. -/
def statutoryPercentMax : ℚ := 100

/-- The helper `percent` of `statutoryRatesError`. -/
def IsPercent (v : ℚ) : Prop := 0 ≤ v ∧ v ≤ statutoryPercentMax

instance (v : ℚ) : Decidable (IsPercent v) := inferInstanceAs (Decidable (_ ∧ _))

/-- The loop over the brackets, the `n`-th of them next. -/
def taxBracketsError : ℕ → Option ℚ → List TaxBracket → Option String
  | _, _, [] => none
  | n, previousTo, b :: rest =>
      if ¬ IsPercent b.rate then some s!"نرخ پله {n} مالیات باید از ۰ تا ۱۰۰ باشد."
      else if previousTo ≠ some b.fromAmount then
        some s!"پله {n} مالیات باید از پایان پله پیش از خود (یا صفر) آغاز شود."
      else
        match b.toAmount with
        | none =>
            if rest ≠ [] then some "فقط پله آخر مالیات می‌تواند بی‌پایان باشد."
            else taxBracketsError (n + 1) none rest
        | some finish =>
            if ¬ b.fromAmount < finish then some s!"پایان پله {n} مالیات باید از آغازش بیشتر باشد."
            else taxBracketsError (n + 1) (some finish) rest

def statutoryRatesError (jalaliYear : ℚ) (rates : StatutoryRates) : Option String :=
  if ¬ jalaliYear.isInt ∨ jalaliYear < 1390 ∨ 1500 < jalaliYear then some "سال جلالی نرخ‌ها معتبر نیست."
  else if ¬ IsPercent rates.employeeInsurancePercent then some "درصد بیمه سهم کارگر باید از ۰ تا ۱۰۰ باشد."
  else if ¬ IsPercent rates.employerInsurancePercent then some "درصد بیمه سهم کارفرما باید از ۰ تا ۱۰۰ باشد."
  else if rates.insuranceWageCap < 0 then some "سقف دستمزد مشمول بیمه نمی‌تواند منفی باشد."
  else taxBracketsError 1 (some 0) rates.taxBrackets

/-- Brackets one above the other from `start` on. -/
inductive Ladder : ℚ → List TaxBracket → Prop
  | nil (start : ℚ) : Ladder start []
  | top {start rate : ℚ} (percent : IsPercent rate) : Ladder start [⟨start, none, rate⟩]
  | step {start finish rate : ℚ} {rest : List TaxBracket} (percent : IsPercent rate) (lt : start < finish)
      (above : Ladder finish rest) : Ladder start (⟨start, some finish, rate⟩ :: rest)

/-- The loop finds no error in a ladder, and in nothing else. -/
theorem taxBracketsError_eq_none_iff {n : ℕ} {start : ℚ} {brackets : List TaxBracket} :
    taxBracketsError n (some start) brackets = none ↔ Ladder start brackets := by
  induction brackets generalizing n start with
  | nil => exact iff_of_true rfl (.nil start)
  | cons b rest ih =>
      obtain ⟨fromAmount, toAmount, rate⟩ := b
      constructor
      · intro passed
        cases toAmount with
        | none =>
            simp only [taxBracketsError] at passed
            split_ifs at passed with percent joined last
            obtain rfl := Option.some.inj (not_not.mp joined)
            obtain rfl := not_not.mp last
            exact .top percent
        | some finish =>
            simp only [taxBracketsError] at passed
            split_ifs at passed with percent joined lt
            obtain rfl := Option.some.inj (not_not.mp joined)
            exact .step percent lt (ih.mp passed)
      · intro ladder
        cases ladder with
        | top percent => simp [taxBracketsError, percent]
        | step percent lt above => simp [taxBracketsError, percent, lt, ih.mpr above]

theorem ladder_of_accepted {jalaliYear : ℚ} {rates : StatutoryRates}
    (accepted : statutoryRatesError jalaliYear rates = none) :
    IsPercent rates.employeeInsurancePercent ∧ Ladder 0 rates.taxBrackets := by
  unfold statutoryRatesError at accepted
  split_ifs at accepted with year employee employer cap
  exact ⟨employee, taxBracketsError_eq_none_iff.mp accepted⟩

/-! ## The tax of a base -/

section Tax

variable (brackets : List TaxBracket) (fraction : ℚ)

/-- The part of the base inside the bracket, whose bounds are for a whole month. -/
def TaxBracket.part (b : TaxBracket) (base fraction : ℚ) : ℚ :=
  max 0 ((b.toAmount.elim base fun finish => min base (finish * fraction)) - b.fromAmount * fraction)

/-- The sum over the brackets of rate times part. -/
def ladderTax (base : ℚ) : ℚ := (brackets.map fun b => b.part base fraction * b.rate / 100).sum

variable {brackets fraction} {base base' c start rate : ℚ}

/-- One turn of the loop of `bracketTax`. -/
theorem tax_of_part (lower upper rate : ℚ) :
    (if lower < upper then FinancialDecimal.divide ((upper - lower) * rate) 100 10 else 0) =
      roundHalfUp 10 (max 0 (upper - lower) * rate / 100) := by
  split_ifs with inside
  · rw [max_eq_right (sub_nonneg.mpr inside.le)]
    rfl
  · rw [max_eq_left (sub_nonpos.mpr (not_lt.mp inside)), zero_mul, zero_div, roundHalfUp_zero]

/-- The code sums the same parts, each term in ten decimals. -/
theorem bracketTax_eq (base : ℚ) (brackets : List TaxBracket) (fraction : ℚ) :
    bracketTax base brackets fraction =
      (brackets.map fun b => roundHalfUp 10 (b.part base fraction * b.rate / 100)).sum := by
  unfold bracketTax
  congr 1
  refine List.map_congr_left fun b _ => ?_
  obtain ⟨fromAmount, toAmount, rate⟩ := b
  cases toAmount with
  | none => exact tax_of_part (fromAmount * fraction) base rate
  | some finish =>
      have lesser : (if base < finish * fraction then base else finish * fraction) = min base (finish * fraction) := by
        split_ifs with below
        · exact (min_eq_left below.le).symm
        · exact (min_eq_right (not_lt.mp below)).symm
      dsimp only
      rw [lesser]
      exact tax_of_part (fromAmount * fraction) (min base (finish * fraction)) rate

theorem TaxBracket.part_mono (b : TaxBracket) (fraction : ℚ) (le : base ≤ base') :
    b.part base fraction ≤ b.part base' fraction := by
  refine max_le_max_left 0 (sub_le_sub_right ?_ _)
  cases b.toAmount with
  | none => exact le
  | some finish => exact min_le_min_right _ le

/-- Scaling the base and the fraction scales the parts. -/
theorem TaxBracket.part_mul (b : TaxBracket) (hc : 0 ≤ c) :
    b.part (c * base) (c * fraction) = c * b.part base fraction := by
  have upper : (b.toAmount.elim (c * base) fun finish => min (c * base) (finish * (c * fraction))) =
      c * b.toAmount.elim base fun finish => min base (finish * fraction) := by
    cases b.toAmount with
    | none => rfl
    | some finish =>
        rw [Option.elim_some, Option.elim_some, mul_left_comm finish c, mul_min_of_nonneg _ _ hc]
  rw [TaxBracket.part, TaxBracket.part, upper, mul_left_comm _ c, ← mul_sub, mul_max_of_nonneg _ _ hc, mul_zero]

theorem Ladder.percent (ladder : Ladder start brackets) : ∀ b ∈ brackets, IsPercent b.rate := by
  induction ladder with
  | nil => exact fun b mem => absurd mem List.not_mem_nil
  | top percent =>
      intro b mem
      obtain rfl := List.mem_singleton.mp mem
      exact percent
  | step percent _ _ ih =>
      intro b mem
      rcases List.mem_cons.mp mem with rfl | rest
      · exact percent
      · exact ih b rest

/-- The part of a closed bracket, from above its start to above its end. -/
theorem part_closed {finish : ℚ} (h : 0 ≤ fraction) (lt : start < finish) (rate base : ℚ) :
    (TaxBracket.mk start (some finish) rate).part base fraction =
      max 0 (base - start * fraction) - max 0 (base - finish * fraction) := by
  have order := mul_le_mul_of_nonneg_right lt.le h
  simp only [TaxBracket.part, Option.elim_some]
  rcases le_total base (finish * fraction) with below | above
  · rw [min_eq_left below, max_eq_left (sub_nonpos.mpr below), sub_zero]
  · rw [min_eq_right above, max_eq_right (sub_nonneg.mpr above),
      max_eq_right (sub_nonneg.mpr order), max_eq_right (sub_nonneg.mpr (order.trans above))]
    ring

/-- What is added to a base is added to the parts above the start of the ladder, once. -/
theorem Ladder.sum_parts_le (ladder : Ladder start brackets) (h : 0 ≤ fraction) (le : base ≤ base') :
    (brackets.map fun b => b.part base' fraction - b.part base fraction).sum ≤
      max 0 (base' - start * fraction) - max 0 (base - start * fraction) := by
  induction ladder with
  | nil start => simpa using max_le_max_left 0 (sub_le_sub_right le _)
  | top => simp [TaxBracket.part]
  | step percent lt above ih =>
      rw [List.map_cons, List.sum_cons, part_closed h lt, part_closed h lt]
      linarith

theorem max_sub_max_le (le : base ≤ base') (bound : ℚ) :
    max 0 (base' - bound) - max 0 (base - bound) ≤ base' - base := by
  rcases max_choice 0 (base' - bound) with reached | reached <;> rw [reached]
  · linarith [le_max_left 0 (base - bound)]
  · linarith [le_max_right 0 (base - bound)]

/-- The tax of a ladder whose rates are at most `rate` grows at most at that rate. -/
theorem ladderTax_growth (ladder : Ladder start brackets) (h : 0 ≤ fraction) (le : base ≤ base')
    (most : ∀ b ∈ brackets, b.rate ≤ rate) (nonneg : 0 ≤ rate) :
    ladderTax brackets fraction base' - ladderTax brackets fraction base ≤ rate / 100 * (base' - base) := by
  have terms : ladderTax brackets fraction base' - ladderTax brackets fraction base ≤
      rate / 100 * (brackets.map fun b => b.part base' fraction - b.part base fraction).sum := by
    unfold ladderTax
    rw [← sum_map_sub, ← List.sum_map_mul_left]
    refine List.sum_le_sum fun b mem => ?_
    have grown := sub_nonneg.mpr (b.part_mono fraction le)
    calc b.part base' fraction * b.rate / 100 - b.part base fraction * b.rate / 100
        = b.rate / 100 * (b.part base' fraction - b.part base fraction) := by ring
      _ ≤ rate / 100 * (b.part base' fraction - b.part base fraction) := by
          gcongr
          exact most b mem
  refine terms.trans (mul_le_mul_of_nonneg_left ?_ (by positivity))
  exact (ladder.sum_parts_le h le).trans (max_sub_max_le le _)

theorem ladderTax_mul (hc : 0 ≤ c) :
    ladderTax brackets (c * fraction) (c * base) = c * ladderTax brackets fraction base := by
  unfold ladderTax
  rw [← List.sum_map_mul_left]
  congr 1
  refine List.map_congr_left fun b _ => ?_
  rw [b.part_mul hc]
  ring

/-- The code is within half a unit of the tenth decimal of each term. -/
theorem abs_bracketTax_sub_le (base : ℚ) (brackets : List TaxBracket) (fraction : ℚ) :
    |bracketTax base brackets fraction - ladderTax brackets fraction base| ≤ brackets.length * halfUnit 10 := by
  rw [bracketTax_eq]
  exact abs_sum_roundHalfUp_sub_le 10 (fun b : TaxBracket => b.part base fraction * b.rate / 100) brackets

theorem bracketTax_mono (ladder : Ladder start brackets) (fraction : ℚ) (le : base ≤ base') :
    bracketTax base brackets fraction ≤ bracketTax base' brackets fraction := by
  rw [bracketTax_eq, bracketTax_eq]
  refine List.sum_le_sum fun b mem => roundHalfUp_mono 10 ?_
  have percent := (ladder.percent b mem).1
  have parts := b.part_mono fraction le
  gcongr

/-- Nothing of a base of zero lies inside a bracket. -/
theorem Ladder.part_zero (ladder : Ladder start brackets) (h : 0 ≤ fraction) (hs : 0 ≤ start) :
    ∀ b ∈ brackets, b.part 0 fraction = 0 := by
  have none_above : ∀ b ∈ brackets, 0 ≤ b.fromAmount := by
    induction ladder with
    | nil => exact fun b mem => absurd mem List.not_mem_nil
    | top =>
        intro b mem
        obtain rfl := List.mem_singleton.mp mem
        exact hs
    | step _ lt _ ih =>
        intro b mem
        rcases List.mem_cons.mp mem with rfl | rest
        · exact hs
        · exact ih (hs.trans lt.le) b rest
  intro b mem
  have below := mul_nonneg (none_above b mem) h
  refine max_eq_left ?_
  cases b.toAmount with
  | none => simpa using below
  | some finish =>
      rw [Option.elim_some]
      linarith [min_le_left 0 (finish * fraction)]

theorem bracketTax_zero (ladder : Ladder start brackets) (h : 0 ≤ fraction) (hs : 0 ≤ start) :
    bracketTax 0 brackets fraction = 0 := by
  rw [bracketTax_eq]
  refine List.sum_eq_zero fun x mem => ?_
  obtain ⟨b, listed, rfl⟩ := List.mem_map.mp mem
  rw [ladder.part_zero h hs b listed, zero_mul, zero_div, roundHalfUp_zero]

theorem ladderTax_zero (ladder : Ladder start brackets) (h : 0 ≤ fraction) (hs : 0 ≤ start) :
    ladderTax brackets fraction 0 = 0 := by
  refine List.sum_eq_zero fun x mem => ?_
  obtain ⟨b, listed, rfl⟩ := List.mem_map.mp mem
  rw [ladder.part_zero h hs b listed, zero_mul, zero_div]

/-- The tax grows at most as the base does, up to the decimals of its terms. -/
theorem bracketTax_growth (ladder : Ladder start brackets) (h : 0 ≤ fraction) (le : base ≤ base') :
    bracketTax base' brackets fraction - bracketTax base brackets fraction ≤
      base' - base + 2 * (brackets.length * halfUnit 10) := by
  have growth := ladderTax_growth ladder h le (fun b mem => (ladder.percent b mem).2)
    (by norm_num [statutoryPercentMax])
  have near := abs_le.mp (abs_bracketTax_sub_le base brackets fraction)
  have near' := abs_le.mp (abs_bracketTax_sub_le base' brackets fraction)
  rw [statutoryPercentMax, div_self (by norm_num), one_mul] at growth
  linarith [near.1, near'.2]

/-- Scaling the base and the fraction scales the tax, up to the decimals of its terms. -/
theorem abs_bracketTax_mul_sub_le (hc : 0 ≤ c) :
    |bracketTax (c * base) brackets (c * fraction) - c * bracketTax base brackets fraction| ≤
      (1 + c) * (brackets.length * halfUnit 10) := by
  have near := abs_le.mp (abs_bracketTax_sub_le base brackets fraction)
  have scaled := abs_le.mp (abs_bracketTax_sub_le (c * base) brackets (c * fraction))
  rw [ladderTax_mul hc] at scaled
  have low := mul_le_mul_of_nonneg_left near.1 hc
  have high := mul_le_mul_of_nonneg_left near.2 hc
  rw [abs_le]
  constructor <;> linarith [scaled.1, scaled.2]

/-- A ladder whose rates are at most `rate` takes at most that share of the base. -/
theorem bracketTax_le (ladder : Ladder start brackets) (h : 0 ≤ fraction) (hs : 0 ≤ start)
    (most : ∀ b ∈ brackets, b.rate ≤ rate) (nonneg : 0 ≤ rate) (hb : 0 ≤ base) :
    bracketTax base brackets fraction ≤ rate / 100 * base + brackets.length * halfUnit 10 := by
  have growth := ladderTax_growth ladder h hb most nonneg
  rw [ladderTax_zero ladder h hs, sub_zero, sub_zero] at growth
  have near := abs_le.mp (abs_bracketTax_sub_le base brackets fraction)
  linarith [near.2]

end Tax

/-! ## Insurance and tax together -/

section Deductions

variable {rates : StatutoryRates} {coverage : StatutoryCoverage} {gross : ℚ} {startIso endIso : StorageDate}

theorem periodMonthFraction_nonneg (startIso endIso : StorageDate) : 0 ≤ periodMonthFraction startIso endIso := by
  refine List.sum_nonneg fun x mem => ?_
  obtain ⟨c, listed, rfl⟩ := List.mem_map.mp mem
  by_cases backwards : isoToUtc endIso < isoToUtc startIso
  · rw [jalaliMonthsInPeriod, if_pos backwards] at listed
    cases listed
  · have sound := jalaliMonthsInPeriod_sound (not_lt.mp backwards) c listed
    have covered : (0 : ℚ) ≤ c.coveredDays := by exact_mod_cast zero_le_one.trans sound.covered
    have days : (0 : ℚ) ≤ c.monthDays := by exact_mod_cast zero_le_one.trans (sound.covered.trans sound.within)
    exact roundHalfUp_nonneg 10 (div_nonneg covered days)

theorem roundHalfUp_le_add_halfUnit (n : ℕ) (x : ℚ) : roundHalfUp n x ≤ x + halfUnit n := by
  linarith [(abs_le.mp (abs_roundHalfUp_sub_le n x)).2]

/-- A share of an amount within the gross pay, in whole rial. -/
theorem share_le {amount limit percent : ℚ} (within : amount ≤ limit) (hp : IsPercent percent) :
    FinancialDecimal.round (FinancialDecimal.divide (amount * percent) 100 10) 0 ≤
      percent / 100 * limit + halfUnit 10 + 1 / 2 := by
  have first := roundHalfUp_le_add_halfUnit 10 (amount * percent / 100)
  have second := roundHalfUp_le_add_halfUnit 0 (roundHalfUp 10 (amount * percent / 100))
  have half : halfUnit 0 = 1 / 2 := by norm_num [halfUnit]
  have share := mul_le_mul_of_nonneg_left within (div_nonneg hp.1 (by norm_num : (0 : ℚ) ≤ 100))
  rw [half] at second
  unfold FinancialDecimal.round FinancialDecimal.divide
  have same : amount * percent / 100 = percent / 100 * amount := by ring
  rw [same] at first second ⊢
  linarith

/-- The wage that insurance is taken of. -/
def insuranceBase (gross fraction : ℚ) (rates : StatutoryRates) (coverage : StatutoryCoverage) : ℚ :=
  if coverage.insurance then
    if 0 < rates.insuranceWageCap ∧ rates.insuranceWageCap * fraction < max 0 gross then
      rates.insuranceWageCap * fraction
    else max 0 gross
  else 0

theorem insuranceBase_le (gross fraction : ℚ) (rates : StatutoryRates) (coverage : StatutoryCoverage) :
    insuranceBase gross fraction rates coverage ≤ max 0 gross := by
  unfold insuranceBase
  split_ifs with covered capped
  · exact capped.2.le
  · exact le_rfl
  · exact le_max_left _ _

theorem suggested_eq (gross : ℚ) (startIso endIso : StorageDate) (rates : StatutoryRates)
    (coverage : StatutoryCoverage) :
    (suggestStatutoryDeductions gross startIso endIso (some rates) coverage).employeeInsurance =
        FinancialDecimal.round (FinancialDecimal.divide
          (insuranceBase gross (periodMonthFraction startIso endIso) rates coverage *
            rates.employeeInsurancePercent) 100 10) 0 ∧
      (suggestStatutoryDeductions gross startIso endIso (some rates) coverage).incomeTax =
        if coverage.tax then FinancialDecimal.round (bracketTax
          (max 0 (max 0 gross - if rates.deductInsuranceFromTax then
            (suggestStatutoryDeductions gross startIso endIso (some rates) coverage).employeeInsurance else 0))
          rates.taxBrackets (periodMonthFraction startIso endIso)) 0 else 0 := ⟨rfl, rfl⟩

/-- The decimals that the amounts of a table are rounded to. -/
def statutoryRounding (rates : StatutoryRates) : ℚ := 1 + (rates.taxBrackets.length + 1) * halfUnit 10

/-- Insurance and tax stay within the gross pay where the tax is of what the insurance
leaves, or where the percents of the two together stay within a hundred. -/
theorem insurance_and_tax_le {jalaliYear : ℚ} (accepted : statutoryRatesError jalaliYear rates = none)
    (together : coverage.insurance = true → coverage.tax = true →
      rates.deductInsuranceFromTax = true ∨
        ∀ b ∈ rates.taxBrackets, rates.employeeInsurancePercent + b.rate ≤ statutoryPercentMax)
    (gross : ℚ) (startIso endIso : StorageDate) :
    (suggestStatutoryDeductions gross startIso endIso (some rates) coverage).employeeInsurance +
        (suggestStatutoryDeductions gross startIso endIso (some rates) coverage).incomeTax ≤
      max 0 gross + statutoryRounding rates := by
  obtain ⟨percent, ladder⟩ := ladder_of_accepted accepted
  have fraction := periodMonthFraction_nonneg startIso endIso
  have within := insuranceBase_le gross (periodMonthFraction startIso endIso) rates coverage
  obtain ⟨insured, taxed⟩ := suggested_eq gross startIso endIso rates coverage
  have pay : 0 ≤ max 0 gross := le_max_left 0 gross
  have unit := (halfUnit_pos 10).le
  have terms : 0 ≤ (rates.taxBrackets.length : ℚ) * halfUnit 10 := by positivity
  have most : ∀ b ∈ rates.taxBrackets, b.rate ≤ 100 := fun b mem => (ladder.percent b mem).2
  have insurance := share_le within percent
  have share : rates.employeeInsurancePercent / 100 * max 0 gross ≤ max 0 gross :=
    mul_le_of_le_one_left pay ((div_le_one (by norm_num)).mpr percent.2)
  rw [← insured] at insurance
  -- the tax of a base at rates up to `rate`
  have tax (rate base : ℚ) (highest : ∀ b ∈ rates.taxBrackets, b.rate ≤ rate) (nonneg : 0 ≤ rate) (hb : 0 ≤ base) :
      FinancialDecimal.round (bracketTax base rates.taxBrackets (periodMonthFraction startIso endIso)) 0 ≤
        rate / 100 * base + rates.taxBrackets.length * halfUnit 10 + 1 / 2 := by
    have first := bracketTax_le ladder fraction le_rfl highest nonneg hb
    have second := roundHalfUp_le_add_halfUnit 0
      (bracketTax base rates.taxBrackets (periodMonthFraction startIso endIso))
    have half : halfUnit 0 = 1 / 2 := by norm_num [halfUnit]
    rw [half] at second
    exact second.trans (by linarith)
  unfold statutoryRounding
  rw [taxed]
  split_ifs with covered deducts
  · -- the tax is of what the insurance leaves
    have left := tax 100 _ most (by norm_num) (le_max_left 0 (max 0 gross -
      (suggestStatutoryDeductions gross startIso endIso (some rates) coverage).employeeInsurance))
    rcases max_choice 0 (max 0 gross -
      (suggestStatutoryDeductions gross startIso endIso (some rates) coverage).employeeInsurance) with kept | kept <;>
      rw [kept] at left ⊢ <;> linarith
  · rw [sub_zero, max_eq_right pay]
    by_cases both : coverage.insurance = true
    · have apart := (together both covered).resolve_left deducts
      have bound := tax (100 - rates.employeeInsurancePercent) _
        (fun b mem => le_sub_iff_add_le'.mpr (apart b mem)) (sub_nonneg.mpr percent.2) pay
      linarith
    · have nothing : insuranceBase gross (periodMonthFraction startIso endIso) rates coverage = 0 := if_neg both
      have least := share_le (le_refl (0 : ℚ)) percent
      rw [insured, nothing]
      have bound := tax 100 _ most (by norm_num) pay
      linarith
  · linarith

/-- The laws of the bracket tax of an accepted table, each up to the decimals that its
terms are rounded to, and the bound of insurance and tax together. -/
theorem bracket_tax_laws {jalaliYear : ℚ} (accepted : statutoryRatesError jalaliYear rates = none) :
    (∀ fraction, 0 ≤ fraction →
      bracketTax 0 rates.taxBrackets fraction = 0 ∧
      (∀ base base', base ≤ base' →
        bracketTax base rates.taxBrackets fraction ≤ bracketTax base' rates.taxBrackets fraction ∧
        bracketTax base' rates.taxBrackets fraction - bracketTax base rates.taxBrackets fraction ≤
          base' - base + 2 * (rates.taxBrackets.length * halfUnit 10)) ∧
      (∀ base c, 0 ≤ c →
        |bracketTax (c * base) rates.taxBrackets (c * fraction) - c * bracketTax base rates.taxBrackets fraction| ≤
          (1 + c) * (rates.taxBrackets.length * halfUnit 10)) ∧
      ∀ base, bracketTax base rates.taxBrackets fraction =
        (rates.taxBrackets.map fun b => roundHalfUp 10 (b.part base fraction * b.rate / 100)).sum) ∧
    ∀ coverage gross startIso endIso,
      (coverage.insurance = true → coverage.tax = true → rates.deductInsuranceFromTax = true ∨
        ∀ b ∈ rates.taxBrackets, rates.employeeInsurancePercent + b.rate ≤ statutoryPercentMax) →
      (suggestStatutoryDeductions gross startIso endIso (some rates) coverage).employeeInsurance +
          (suggestStatutoryDeductions gross startIso endIso (some rates) coverage).incomeTax ≤
        max 0 gross + statutoryRounding rates := by
  obtain ⟨-, ladder⟩ := ladder_of_accepted accepted
  refine ⟨fun fraction h => ⟨bracketTax_zero ladder h le_rfl, ?_, ?_, ?_⟩, ?_⟩
  · exact fun base base' le => ⟨bracketTax_mono ladder fraction le, bracketTax_growth ladder h le⟩
  · exact fun base c hc => abs_bracketTax_mul_sub_le hc
  · exact fun base => bracketTax_eq base rates.taxBrackets fraction
  · exact fun coverage gross startIso endIso together =>
      insurance_and_tax_le accepted together gross startIso endIso

/-- A table of two brackets, the lower one free. -/
theorem bracket_tax_laws_of_two :
    let rates : StatutoryRates := ⟨7, 23, 0, [⟨0, some 1000, 0⟩, ⟨1000, none, 10⟩], true⟩
    bracketTax 0 rates.taxBrackets 1 = 0 ∧ bracketTax 500 rates.taxBrackets 1 ≤ bracketTax 2000 rates.taxBrackets 1 := by
  intro rates
  have accepted : statutoryRatesError 1405 rates = none := by decide +kernel
  obtain ⟨laws, -⟩ := bracket_tax_laws accepted
  obtain ⟨zero, growth, -⟩ := laws 1 zero_le_one
  exact ⟨zero, (growth 500 2000 (by norm_num)).1⟩

theorem isDate_farvardin : GregorianCalendar.IsDate 2026 3 21 := by decide +kernel

/-- The insurance stays in the base of the tax, and the percents of the two exceed a
hundred; and at a thirty-first of a month the tenth decimal shows. -/
theorem insurance_and_tax_above_gross :
    let rates : StatutoryRates := ⟨7, 23, 0, [⟨0, some 1, 1⟩, ⟨1, none, 95⟩], false⟩
    let farvardin : StorageDate := ⟨2026, 3, 21, isDate_farvardin, by decide⟩
    let lastDay : StorageDate := ⟨2026, 4, 20, by decide +kernel, by decide⟩
    let fraction := periodMonthFraction farvardin farvardin
    let amounts := suggestStatutoryDeductions 1000000 farvardin lastDay (some rates) ⟨true, true⟩
    statutoryRatesError 1405 rates = none ∧
      1000000 + 10000 < amounts.employeeInsurance + amounts.incomeTax ∧
        bracketTax (2 * 1) rates.taxBrackets (2 * fraction) ≠ 2 * bracketTax 1 rates.taxBrackets fraction := by
  decide +kernel

end Deductions

end PapitalErp.Payslips
