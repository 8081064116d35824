import PapitalErp.Lib.RoundingDown
import PapitalErp.Storefront.PlacedOrders
import PapitalErp.Documents.DocumentVat

/-!
# The fee discount of a shop order

The negative fees of an order are spread over its lines in decimals, each share rounded down to the
smallest unit of the currency and the rest given to the largest lines. On amounts of the currency the
decimals count its units, and the spreading of a discount code in whole rials is the same algorithm.

An array holds fewer than 2 ^ 32 elements. So many quotients rounded to twelve decimals do not make up a
unit of a currency; more of them could.
-/

namespace PapitalErp.FeeDiscount

open Rounding
open PlaceOrder (Shares SharesOf giveRial spreadLeft spreadDiscount)

def floorAt (value : ℚ) (scale : ℕ) : ℚ :=
  let rounded := FinancialDecimal.round value scale
  if value < rounded then rounded - FinancialDecimal.divide 1 (10 ^ scale) scale else rounded

/-- The shares of the lines, what is left of the discount, and whether a pass has moved anything. -/
structure Allocation where
  shares : List ℚ
  left : ℚ
  moved : Bool
  deriving DecidableEq

/-- One line of a pass. -/
def give (amounts : List ℚ) (step : ℚ) (state : Allocation) (index : ℕ) : Allocation :=
  let room := amounts.getD index 0 - state.shares.getD index 0
  if state.left ≤ 0 ∨ room ≤ 0 then state
  else
    let add := if state.left < step then state.left else if room < step then room else step
    { shares := state.shares.set index (state.shares.getD index 0 + add)
      left := state.left - add
      moved := true }

/-- The `while` loop, for so many passes. -/
def allocateLeft (amounts : List ℚ) (step : ℚ) (byAmount : List ℕ) : ℕ → Allocation → Option (List ℚ)
  | 0, state => if state.left ≤ 0 then some state.shares else none
  | passes + 1, state =>
      if state.left ≤ 0 then some state.shares
      else
        let state := byAmount.foldl (give amounts step) { state with moved := false }
        if state.moved then allocateLeft amounts step byAmount passes state else none

/-- The lines by their amounts, the largest first. -/
def byAmount (amounts : List ℚ) : List ℕ :=
  (List.range amounts.length).insertionSort fun i j =>
    amounts.getD j 0 < amounts.getD i 0 ∨ amounts.getD j 0 = amounts.getD i 0 ∧ i ≤ j

/-- The shares of the lines rounded down. -/
def floors (lineAmounts : List ℚ) (discount : ℚ) (scale : ℕ) : List ℚ :=
  lineAmounts.map fun a => floorAt (FinancialDecimal.divide (discount * a) lineAmounts.sum 12) scale

/-- A pass that moves something fills a line or gives a step, so the loop ends within so many passes. -/
def allocateFeeDiscount (lineAmounts : List ℚ) (discount : ℚ) (scale : ℕ) : Option (List ℚ) :=
  if lineAmounts.sum < discount then none
  else if discount ≤ 0 ∨ lineAmounts.sum ≤ 0 then some (lineAmounts.map fun _ => 0)
  else
    let shares := floors lineAmounts discount scale
    let left := discount - shares.sum
    allocateLeft lineAmounts (FinancialDecimal.divide 1 (10 ^ scale) scale) (byAmount lineAmounts)
      (lineAmounts.length + ⌈left * 10 ^ scale⌉₊ + 1) ⟨shares, left, false⟩

/-! ## Amounts in units of the currency -/

/-- So many units of the last decimal. -/
def units (scale : ℕ) (n : ℕ) : ℚ := n / 10 ^ scale

variable {scale : ℕ} {amounts : List ℕ} {shares : Shares} {discount left index : ℕ}

theorem unit_pos (scale : ℕ) : (0 : ℚ) < 10 ^ scale := by positivity

@[simp] theorem units_zero (scale : ℕ) : units scale 0 = 0 := by simp [units]

theorem units_nonneg (n : ℕ) : 0 ≤ units scale n := div_nonneg n.cast_nonneg (unit_pos scale).le

@[simp] theorem units_le {m n : ℕ} : units scale m ≤ units scale n ↔ m ≤ n := by
  rw [units, units, div_le_div_iff_of_pos_right (unit_pos scale), Nat.cast_le]

@[simp] theorem units_inj {m n : ℕ} : units scale m = units scale n ↔ m = n := by
  simp [le_antisymm_iff]

@[simp] theorem units_lt {m n : ℕ} : units scale m < units scale n ↔ m < n := by
  rw [← not_le, units_le, not_le]

@[simp] theorem units_nonpos {n : ℕ} : units scale n ≤ 0 ↔ n = 0 := by
  have zero : units scale n ≤ units scale 0 ↔ n = 0 := units_le.trans Nat.le_zero
  rwa [units_zero] at zero

theorem units_add (m n : ℕ) : units scale (m + n) = units scale m + units scale n := by
  rw [units, units, units, Nat.cast_add, add_div]

theorem units_sub {m n : ℕ} (h : n ≤ m) : units scale (m - n) = units scale m - units scale n := by
  rw [units, units, units, Nat.cast_sub h, sub_div]

theorem sum_units (amounts : List ℕ) : (amounts.map (units scale)).sum = units scale amounts.sum := by
  induction amounts with
  | nil => simp
  | cons amount amounts ih => rw [List.map_cons, List.sum_cons, ih, List.sum_cons, units_add]

theorem getD_units (amounts : List ℕ) (index : ℕ) :
    (amounts.map (units scale)).getD index 0 = units scale (amounts.getD index 0) := by
  rw [List.getD_eq_getElem?_getD, List.getD_eq_getElem?_getD, List.getElem?_map]
  cases amounts[index]? <;> simp

theorem step_eq (scale : ℕ) : FinancialDecimal.divide 1 (10 ^ scale) scale = units scale 1 := by
  have grid : AtScale scale (1 / 10 ^ scale) := ⟨1, by simp⟩
  rw [FinancialDecimal.divide, roundHalfUp_of_atScale grid, units, Nat.cast_one]

theorem atScale_units (n : ℕ) : AtScale scale (units scale n) := ⟨n, by simp [units]⟩

/-- An amount of the currency is a number of its units. -/
theorem exists_units {x : ℚ} (grid : AtScale scale x) (h : 0 ≤ x) : ∃ n : ℕ, x = units scale n := by
  obtain ⟨k, rfl⟩ := grid
  have whole : 0 ≤ k := by
    by_contra negative
    have below : (k : ℚ) < 0 := by exact_mod_cast not_le.mp negative
    exact absurd h (not_le.mpr (div_neg_of_neg_of_pos below (unit_pos scale)))
  refine ⟨k.toNat, ?_⟩
  rw [units]
  congr 1
  exact_mod_cast (Int.toNat_of_nonneg whole).symm

theorem units_rials : units 0 = Nat.cast := by
  funext n
  simp [units]

/-! ## A pass counts the units -/

/-- The decimals of some shares. -/
def inUnits (scale : ℕ) (shares : Shares) (moved : Bool) : Allocation :=
  ⟨shares.1.map (units scale), units scale shares.2, moved⟩

theorem give_inUnits (moved : Bool) :
    give (amounts.map (units scale)) (units scale 1) (inUnits scale shares moved) index =
      inUnits scale (giveRial amounts shares index)
        (moved || decide ((giveRial amounts shares index).2 < shares.2)) := by
  have full : ((inUnits scale shares moved).left ≤ 0 ∨
      (amounts.map (units scale)).getD index 0 - (inUnits scale shares moved).shares.getD index 0 ≤ 0) ↔
      (shares.2 = 0 ∨ amounts.getD index 0 ≤ shares.1.getD index 0) := by
    rw [inUnits]
    dsimp only
    rw [getD_units, getD_units, sub_nonpos, units_le, units_nonpos]
  unfold give giveRial
  dsimp only
  by_cases done : shares.2 = 0 ∨ amounts.getD index 0 ≤ shares.1.getD index 0
  · rw [if_pos (full.mpr done), if_pos done]
    simp
  · rw [if_neg (mt full.mp done), if_neg done]
    obtain ⟨left, room⟩ := not_or.mp done
    have leftStep : ¬units scale shares.2 < units scale 1 := by
      rw [units_lt]
      omega
    have roomStep : ¬units scale (amounts.getD index 0) - units scale (shares.1.getD index 0) < units scale 1 := by
      rw [← units_sub (by omega), units_lt]
      omega
    simp only [inUnits, getD_units, if_neg leftStep, if_neg roomStep, ← units_add, List.map_set,
      units_sub (Nat.one_le_iff_ne_zero.mpr left)]
    have fewer : shares.2 - 1 < shares.2 := by omega
    simp [fewer]

theorem giveRial_le (amounts : List ℕ) (shares : Shares) (index : ℕ) :
    (giveRial amounts shares index).2 ≤ shares.2 := by
  obtain fewer | kept := PlaceOrder.giveRial_left amounts shares index
  · exact fewer.le
  · exact (congrArg Prod.snd kept).le

theorem pass_le (amounts order : List ℕ) (shares : Shares) : (order.foldl (giveRial amounts) shares).2 ≤ shares.2 := by
  induction order generalizing shares with
  | nil => exact le_rfl
  | cons index order ih => exact (ih _).trans (giveRial_le amounts shares index)

theorem pass_inUnits (order : List ℕ) (moved : Bool) :
    order.foldl (give (amounts.map (units scale)) (units scale 1)) (inUnits scale shares moved) =
      inUnits scale (order.foldl (giveRial amounts) shares)
        (moved || decide ((order.foldl (giveRial amounts) shares).2 < shares.2)) := by
  induction order generalizing shares moved with
  | nil => simp
  | cons index order ih =>
      have first := giveRial_le amounts shares index
      have rest := pass_le amounts order (giveRial amounts shares index)
      rw [List.foldl_cons, List.foldl_cons, give_inUnits, ih, Bool.or_assoc]
      congr 2
      rw [← Bool.decide_or, decide_eq_decide]
      omega

theorem byAmount_units (amounts : List ℕ) :
    byAmount (amounts.map (units scale)) = PlaceOrder.byAmount amounts := by
  simp only [byAmount, PlaceOrder.byAmount, getD_units, units_lt, units_inj, List.length_map]

theorem spreadLeft_of_done (order : List ℕ) (passes : ℕ) (done : shares.2 = 0) :
    spreadLeft amounts order passes shares = shares := by
  cases passes with
  | zero => rfl
  | succ passes => rw [spreadLeft, if_pos done]

theorem allocateLeft_of_done {amounts : List ℚ} {step : ℚ} {state : Allocation} (order : List ℕ) (passes : ℕ)
    (done : state.left ≤ 0) : allocateLeft amounts step order passes state = some state.shares := by
  cases passes with
  | zero => rw [allocateLeft, if_pos done]
  | succ passes => rw [allocateLeft, if_pos done]

/-- With passes enough both loops end with the same shares. -/
theorem allocateLeft_inUnits (h : SharesOf amounts discount shares) (fits : discount ≤ amounts.sum)
    {passes passes' : ℕ} (enough : shares.2 ≤ passes) (enough' : shares.2 ≤ passes') (moved : Bool) :
    allocateLeft (amounts.map (units scale)) (units scale 1) (PlaceOrder.byAmount amounts) passes
        (inUnits scale shares moved) =
      some ((spreadLeft amounts (PlaceOrder.byAmount amounts) passes' shares).1.map (units scale)) := by
  induction passes generalizing shares passes' moved with
  | zero =>
      have done : shares.2 = 0 := Nat.le_zero.mp enough
      rw [spreadLeft_of_done _ _ done, allocateLeft_of_done _ _ (by simp [inUnits, done]), inUnits]
  | succ passes ih =>
      by_cases done : shares.2 = 0
      · rw [spreadLeft_of_done _ _ done, allocateLeft_of_done _ _ (by simp [inUnits, done]), inUnits]
      · obtain ⟨passes', rfl⟩ := Nat.exists_eq_succ_of_ne_zero (show passes' ≠ 0 by omega)
        have positive : ¬(inUnits scale shares moved).left ≤ 0 := mt units_nonpos.mp done
        have fewer := PlaceOrder.pass_gives h fits done
        have pass : (PlaceOrder.byAmount amounts).foldl (give (amounts.map (units scale)) (units scale 1))
            { inUnits scale shares moved with moved := false } =
              inUnits scale ((PlaceOrder.byAmount amounts).foldl (giveRial amounts) shares) true :=
          (pass_inUnits _ false).trans (by rw [decide_eq_true fewer, Bool.or_true])
        rw [allocateLeft, if_neg positive, spreadLeft, if_neg done]
        dsimp only
        rw [pass, if_pos (show (inUnits scale _ true).moved = true from rfl)]
        exact ih (PlaceOrder.pass_sharesOf h _) (by omega) (by omega) true

/-! ## The shares rounded down -/

/-- The part of a line in the discount. -/
def quotient (scale : ℕ) (amounts : List ℕ) (discount a : ℕ) : ℚ :=
  units scale discount * units scale a / units scale amounts.sum

/-- Such a part to twelve decimals, in whole units. -/
def wholeShare (scale : ℕ) (amounts : List ℕ) (discount a : ℕ) : ℕ :=
  ⌊roundHalfUp 12 (quotient scale amounts discount a) * 10 ^ scale⌋₊

def wholeShares (scale : ℕ) (amounts : List ℕ) (discount : ℕ) : List ℕ :=
  amounts.map (wholeShare scale amounts discount)

theorem quotient_nonneg (a : ℕ) : 0 ≤ quotient scale amounts discount a :=
  div_nonneg (mul_nonneg (units_nonneg _) (units_nonneg _)) (units_nonneg _)

theorem floorAt_eq {value : ℚ} (h : 0 ≤ value) (scale : ℕ) : floorAt value scale = units scale ⌊value * 10 ^ scale⌋₊ := by
  have down := roundDown_eq (n := scale) h
  rw [floorAt, step_eq, units, Nat.cast_one, FinancialDecimal.round, down, roundDown, units,
    ← Int.floor_toNat]
  congr 1
  have whole : 0 ≤ ⌊value * 10 ^ scale⌋ := Int.floor_nonneg.mpr (mul_nonneg h (unit_pos scale).le)
  exact_mod_cast (Int.toNat_of_nonneg whole).symm

theorem floors_units (amounts : List ℕ) (discount : ℕ) :
    floors (amounts.map (units scale)) (units scale discount) scale =
      (wholeShares scale amounts discount).map (units scale) := by
  rw [floors, wholeShares, List.map_map, List.map_map]
  refine List.map_congr_left fun a mem => ?_
  rw [Function.comp_apply, Function.comp_apply, sum_units, FinancialDecimal.divide, ← quotient,
    floorAt_eq (roundHalfUp_nonneg 12 (quotient_nonneg a)), wholeShare]

/-- A discount of the currency over amounts of the currency is spread in whole units, from the shares
rounded down. -/
theorem allocateFeeDiscount_units {passes : ℕ} (positive : 0 < discount) (fits : discount ≤ amounts.sum)
    (start : SharesOf amounts discount (wholeShares scale amounts discount,
      discount - (wholeShares scale amounts discount).sum))
    (enough : discount - (wholeShares scale amounts discount).sum ≤ passes) :
    allocateFeeDiscount (amounts.map (units scale)) (units scale discount) scale =
      some ((spreadLeft amounts (PlaceOrder.byAmount amounts) passes (wholeShares scale amounts discount,
        discount - (wholeShares scale amounts discount).sum)).1.map (units scale)) := by
  have within : ¬units scale amounts.sum < units scale discount := by
    rw [units_lt]
    omega
  have filled : ¬(units scale discount ≤ 0 ∨ units scale amounts.sum ≤ 0) := by
    rw [units_nonpos, units_nonpos]
    omega
  have below : (wholeShares scale amounts discount).sum ≤ discount := by
    have total := start.total
    dsimp only at total
    omega
  have ceil : ⌈units scale (discount - (wholeShares scale amounts discount).sum) * 10 ^ scale⌉₊ =
      discount - (wholeShares scale amounts discount).sum := by
    rw [units, div_mul_cancel₀ _ (unit_pos scale).ne', Nat.ceil_natCast]
  unfold allocateFeeDiscount
  dsimp only
  rw [sum_units, if_neg within, if_neg filled, floors_units, sum_units, ← units_sub below, step_eq, byAmount_units,
    ceil]
  refine allocateLeft_inUnits start fits ?_ enough false
  dsimp only
  omega

/-- A sum of shares is at most their parts with half a unit of the twelfth decimal for each. -/
theorem sum_wholeShare_le (rest : List ℕ) :
    ((rest.map (wholeShare scale amounts discount)).sum : ℚ) ≤
      ((rest.map (quotient scale amounts discount)).sum + rest.length * halfUnit 12) * 10 ^ scale := by
  have unit := unit_pos scale
  induction rest with
  | nil => simp
  | cons a rest ih =>
      have floor : (wholeShare scale amounts discount a : ℚ) ≤
          roundHalfUp 12 (quotient scale amounts discount a) * 10 ^ scale :=
        Nat.floor_le (mul_nonneg (roundHalfUp_nonneg 12 (quotient_nonneg a)) unit.le)
      have moved := (abs_le.mp (abs_roundHalfUp_sub_le 12 (quotient scale amounts discount a))).2
      have part := mul_le_mul_of_nonneg_right (sub_le_iff_le_add'.mp moved) unit.le
      simp only [List.map_cons, List.sum_cons, List.length_cons, Nat.cast_add, Nat.cast_one]
      linarith

theorem sum_quotient_le (scale : ℕ) (amounts : List ℕ) (discount : ℕ) :
    (amounts.map (quotient scale amounts discount)).sum ≤ units scale discount := by
  have parts : ∀ rest : List ℕ, (rest.map (quotient scale amounts discount)).sum =
      units scale discount * (units scale rest.sum / units scale amounts.sum) := by
    intro rest
    induction rest with
    | nil => simp
    | cons a rest ih =>
        rw [List.map_cons, List.sum_cons, ih, List.sum_cons, units_add, quotient]
        ring
  rw [parts]
  exact mul_le_of_le_one_right (units_nonneg _) (div_self_le_one _)

/-- The shares rounded down do not exceed the discount, unless there are enough lines for their roundings to
make up a unit. -/
theorem sum_wholeShares_le (few : (amounts.length : ℚ) * 10 ^ scale < 2 * 10 ^ 12) :
    (wholeShares scale amounts discount).sum ≤ discount := by
  have unit := unit_pos scale
  have shares : ((wholeShares scale amounts discount).sum : ℚ) ≤
      ((amounts.map (quotient scale amounts discount)).sum + amounts.length * (1 / (2 * 10 ^ 12))) * 10 ^ scale :=
    sum_wholeShare_le amounts
  have parts := mul_le_mul_of_nonneg_right (sum_quotient_le scale amounts discount) unit.le
  rw [units, div_mul_cancel₀ _ unit.ne'] at parts
  have below : ((wholeShares scale amounts discount).sum : ℚ) < (discount + 1 : ℕ) := by
    rw [Nat.cast_add, Nat.cast_one]
    linarith
  exact Nat.lt_succ_iff.mp (Nat.cast_lt.mp below)

/-- No share is above its line. -/
theorem wholeShare_le (fits : discount ≤ amounts.sum) (a : ℕ) (fine : scale ≤ 12) : wholeShare scale amounts discount a ≤ a := by
  have part : quotient scale amounts discount a ≤ units scale a := by
    refine div_le_of_le_mul₀ (units_nonneg _) (units_nonneg _) ?_
    rw [mul_comm]
    exact mul_le_mul_of_nonneg_left (units_le.mpr fits) (units_nonneg _)
  have rounded : roundHalfUp 12 (quotient scale amounts discount a) ≤ a / 10 ^ scale :=
    roundHalfUp_le part ((atScale_units a).mono fine)
  exact Nat.floor_le_of_le ((le_div_iff₀ (unit_pos scale)).mp rounded)

theorem start_sharesOf (fits : discount ≤ amounts.sum) (fine : scale ≤ 12) (few : (amounts.length : ℚ) * 10 ^ scale < 2 * 10 ^ 12) :
    SharesOf amounts discount (wholeShares scale amounts discount,
      discount - (wholeShares scale amounts discount).sum) := by
  refine ⟨List.length_map _, fun index => ?_, Nat.add_sub_of_le (sum_wholeShares_le few)⟩
  dsimp only
  rw [wholeShares, List.getD_eq_getElem?_getD, List.getD_eq_getElem?_getD, List.getElem?_map]
  cases amounts[index]? with
  | none => exact le_rfl
  | some a => exact wholeShare_le fits a fine

/-! ## The shares make the discount -/

/-- The amounts of an array of lines in a currency. -/
structure LineAmounts (currency : String) where
  amounts : List ℚ
  array : amounts.length < 2 ^ 32
  grid : ∀ a ∈ amounts, 0 ≤ a ∧ AtScale (currencyScale currency) a

/-- A share of each line, at most its amount, and together the discount. -/
structure Spread (amounts : List ℚ) (discount : ℚ) (shares : List ℚ) : Prop where
  within : List.Forall₂ (fun share amount => 0 ≤ share ∧ share ≤ amount) shares amounts
  total : shares.sum = discount

theorem spread_units (scale : ℕ) {shares : List ℕ} (h : SharesOf amounts discount (shares, 0)) :
    Spread (amounts.map (units scale)) (units scale discount) (shares.map (units scale)) := by
  obtain ⟨length, within, total⟩ := h
  dsimp only at length within total
  refine ⟨?_, by rw [sum_units, ← total, Nat.add_zero]⟩
  rw [List.forall₂_map_left_iff, List.forall₂_map_right_iff, List.forall₂_iff_get]
  refine ⟨length, fun index inside inside' => ⟨units_nonneg _, units_le.mpr ?_⟩⟩
  have below := within index
  rwa [List.getD_eq_getElem _ _ inside, List.getD_eq_getElem _ _ inside'] at below

theorem exists_map_units {amounts : List ℚ} (grid : ∀ a ∈ amounts, 0 ≤ a ∧ AtScale scale a) :
    ∃ whole : List ℕ, amounts = whole.map (units scale) := by
  induction amounts with
  | nil => exact ⟨[], rfl⟩
  | cons a amounts ih =>
      obtain ⟨whole, rfl⟩ := ih fun b mem => grid b (List.mem_cons_of_mem a mem)
      obtain ⟨nonneg, onGrid⟩ := grid a List.mem_cons_self
      obtain ⟨n, rfl⟩ := exists_units onGrid nonneg
      exact ⟨n :: whole, rfl⟩

theorem allocateFeeDiscount_spread {currency : String} (lines : LineAmounts currency) {discount : ℚ}
    (grid : AtScale (currencyScale currency) discount) (positive : 0 < discount) (fits : discount ≤ lines.amounts.sum) :
    ∃ shares, allocateFeeDiscount lines.amounts discount (currencyScale currency) = some shares ∧
      Spread lines.amounts discount shares := by
  obtain ⟨amounts, array, onGrid⟩ := lines
  dsimp only at fits ⊢
  obtain ⟨whole, rfl⟩ := exists_map_units onGrid
  obtain ⟨d, rfl⟩ := exists_units grid positive.le
  rw [sum_units, units_le] at fits
  rw [← units_zero (currencyScale currency), units_lt] at positive
  rw [List.length_map] at array
  have few : (whole.length : ℚ) * 10 ^ currencyScale currency < 2 * 10 ^ 12 := by
    have length : (whole.length : ℚ) ≤ 2 ^ 32 := by exact_mod_cast array.le
    have unit : (10 : ℚ) ^ currencyScale currency ≤ 10 ^ 2 :=
      pow_le_pow_right₀ (by norm_num) (currencyScale_le currency)
    calc (whole.length : ℚ) * 10 ^ currencyScale currency ≤ 2 ^ 32 * 10 ^ 2 :=
          mul_le_mul length unit (unit_pos _).le (by norm_num)
      _ < 2 * 10 ^ 12 := by norm_num
  have start := start_sharesOf fits ((currencyScale_le currency).trans (by norm_num)) few
  obtain ⟨shares, done⟩ := PlaceOrder.spreadLeft_total start fits le_rfl
  refine ⟨_, allocateFeeDiscount_units positive fits start le_rfl, spread_units _ ?_⟩
  rwa [← done]

/-- What a line of the proforma comes to. -/
def lineNet (line : PlaceOrder.ProformaLine) : ℚ := line.quantity * line.unitPrice - line.discount

/-- Parts of at most 10 ^ 12 rials, rounded to twelve decimals and then down, are the whole parts. -/
theorem wholeShare_rials {a : ℕ} (small : amounts.sum ≤ 10 ^ 12) (filled : 0 < amounts.sum) :
    wholeShare 0 amounts discount a = discount * a / amounts.sum := by
  have part : quotient 0 amounts discount a = (discount * a : ℕ) / (amounts.sum : ℕ) := by
    simp [quotient, units]
  have floor := floor_roundHalfUp_of_fraction part filled small
  have whole : ⌊quotient 0 amounts discount a⌋ = ((discount * a / amounts.sum : ℕ) : ℤ) := by
    rw [part, Rat.floor_natCast_div_natCast]
    norm_cast
  rw [wholeShare, pow_zero, mul_one, ← Int.floor_toNat, floor, whole, Int.toNat_natCast]

/-- The fees of a shop order and the discount of a site order are spread alike over whole rials. -/
theorem allocators_agree (amounts : List ℕ) (discount : ℕ) (small : amounts.sum ≤ 10 ^ 12) (positive : 1 ≤ discount)
    (fits : discount ≤ amounts.sum) :
    allocateFeeDiscount (amounts.map Nat.cast) discount 0 =
      some ((spreadDiscount amounts discount).map Nat.cast) := by
  have floors : wholeShares 0 amounts discount = amounts.map fun amount => discount * amount / amounts.sum :=
    List.map_congr_left fun a _ => wholeShare_rials small (by omega)
  have start := PlaceOrder.floors_sharesOf fits
  rw [← floors] at start
  have spread := allocateFeeDiscount_units positive fits start le_rfl
  rw [units_rials] at spread
  rw [spread, spreadDiscount, if_neg (by omega)]
  dsimp only
  rw [floors]

theorem allocators_agree_three :
    allocateFeeDiscount ([1, 0, 2].map Nat.cast) (2 : ℕ) 0 = some ((spreadDiscount [1, 0, 2] 2).map Nat.cast) :=
  allocators_agree [1, 0, 2] 2 (by decide) (by decide) (by decide)

end PapitalErp.FeeDiscount
