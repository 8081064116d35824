import Mathlib.Data.List.Sort
import PapitalErp.FinancialDecimal
import PapitalErp.Lib.Binary64
import PapitalErp.Storefront.SiteOrders

/-!
# What a site order costs

The server prices a cart, takes off a discount code, adds the shipping and issues a proforma. The
amounts of the order are whole rials in BigInt; the proforma keeps decimals, and a unit price goes
through a number on its way into it.

A stored amount has at most fourteen whole digits. Weights are exact, where the source adds numbers;
they only choose a row of a rate table. The catalog, the price lists, the groups and the codes are what
the tables hold; whether a code applies otherwise is the environment's choice.
-/

namespace PapitalErp.PlaceOrder

open Transition
open SiteOrders (PaymentMethod)

/-- Whole rials in a `numeric(18, 4)` column. -/
abbrev Rial := { amount : ℕ // amount < 10 ^ 14 }

/-- An item that the site offers now. -/
structure OnSale where
  itemId : ℕ
  collections : List String
  retailPrice : Rial
  weight : Option ℚ
  deriving DecidableEq

structure BuyerAccount where
  id : ℕ
  isActive : Bool
  isApproved : Bool
  groupId : Option ℕ
  deriving DecidableEq

structure BuyerGroup where
  id : ℕ
  priceList : String
  ofCollections : Bool
  collections : List String
  minLineQuantity : ℕ
  minOrderAmount : Rial
  allowCard : Bool
  allowOnAccount : Bool
  isActive : Bool
  isDeleted : Bool

inductive ShippingPricing where
  | flat | table | free | on_delivery
  deriving DecidableEq

/-- A row of a rate table; `""` is every other province. -/
structure ShippingRate where
  province : String
  maxWeightGrams : Option ℕ
  rate : Rial
  deriving DecidableEq

structure ShippingMethod where
  code : String
  pricing : ShippingPricing
  flatRate : Rial
  isFreeShippingEligible : Bool
  rates : List ShippingRate

inductive DiscountKind where
  | percent | amount
  deriving DecidableEq

structure DiscountTerms where
  kind : DiscountKind
  percent : ℕ
  amount : ℕ
  maxDiscount : ℕ

/-- What the tables and the settings hold. -/
structure Shop where
  openOrdersPerPhone : ℕ
  freeShippingThreshold : Option ℕ
  onSale : String → Option OnSale
  /-- `pricesOf` one item in a list -/
  price : String → ℕ → Option Rial
  account : ℕ → Option BuyerAccount
  account_id : ∀ {id row}, account id = some row → row.id = id
  group : ℕ → Option BuyerGroup
  /-- the active ones, in their order -/
  methods : List ShippingMethod
  discount : String → Option DiscountTerms

inductive PlaceError where
  | STOREFRONT_ITEM_NOT_ON_SALE (slugs : List String)
  | STOREFRONT_GROUP_MIN_LINE (slugs : List String) (minLineQuantity : ℕ)
  | STOREFRONT_GROUP_MIN_ORDER (minOrderAmount itemsAmount : ℕ)
  | STOREFRONT_ORDER_FIELD_INVALID (field : String)
  | STOREFRONT_DISCOUNT_NOT_APPLICABLE

/-! ## Prices -/

/-- A group counts while it is live and active and has a price list. -/
def Shop.activeGroupOf (shop : Shop) (account : BuyerAccount) : Option BuyerGroup :=
  if account.isActive && account.isApproved then
    (account.groupId.bind shop.group).filter fun group => !group.isDeleted && group.isActive && group.priceList ≠ ""
  else none

structure CartLine where
  slug : String
  quantity : ℕ
  deriving DecidableEq

structure PricedLine where
  item : OnSale
  quantity : ℕ
  unitPrice : Rial
  deriving DecidableEq

def PricedLine.lineAmount (line : PricedLine) : ℕ := line.unitPrice * line.quantity

structure PricedCart where
  lines : List PricedLine
  weightGrams : Option ℕ

def PricedCart.itemsAmount (cart : PricedCart) : ℕ := (cart.lines.map PricedLine.lineAmount).sum

/-- The item that a slug names for a buyer with its price: the retail price, or for a group the price in
its list, when the item is in its collections. -/
def Shop.offer (shop : Shop) (group : Option BuyerGroup) (slug : String) : Option (OnSale × Rial) :=
  (shop.onSale slug).bind fun item =>
    match group with
    | none => some (item, item.retailPrice)
    | some group =>
        if group.ofCollections && !item.collections.any (· ∈ group.collections) then none
        else (shop.price group.priceList item.itemId).map fun price => (item, price)

/-- The weight of a cart whose items all have one. -/
def cartWeight (lines : List PricedLine) : Option ℕ :=
  if lines.all fun line => line.item.weight.any (0 < ·) then
    some ⌈(lines.map fun line => line.item.weight.getD 0 * (line.quantity : ℚ)).sum⌉.toNat
  else none

def Shop.priceCart (shop : Shop) (cart : List CartLine) (group : Option BuyerGroup) : Except PlaceError PricedCart := do
  let missing := cart.filter fun line => (shop.offer group line.slug).isNone
  ensure (missing = []) (.STOREFRONT_ITEM_NOT_ON_SALE (missing.map CartLine.slug))
  let few := cart.filter fun line => group.any fun group => line.quantity < group.minLineQuantity
  ensure (few = []) (.STOREFRONT_GROUP_MIN_LINE (few.map CartLine.slug) ((group.map BuyerGroup.minLineQuantity).getD 0))
  let lines := cart.filterMap fun line =>
    (shop.offer group line.slug).map fun offer => ⟨offer.1, line.quantity, offer.2⟩
  let priced : PricedCart := ⟨lines, cartWeight lines⟩
  ensure (!group.any fun group => priced.itemsAmount < group.minOrderAmount)
    (.STOREFRONT_GROUP_MIN_ORDER ((group.map fun group => group.minOrderAmount.1).getD 0) priced.itemsAmount)
  return priced

/-! ## Discounts -/

/-- Discounts are taken in whole tomans. -/
def TOMAN : ℕ := 10

def discountAmountOf (code : DiscountTerms) (items : ℕ) : ℕ :=
  if items = 0 then 0
  else
    let discount := match code.kind with
      | .percent => items * code.percent / 100 / TOMAN * TOMAN
      | .amount => code.amount
    let discount := if code.kind = .percent ∧ 0 < code.maxDiscount ∧ code.maxDiscount < discount then code.maxDiscount
      else discount
    if items ≤ discount then items - 1 else discount

theorem discountAmountOf_le (code : DiscountTerms) (items : ℕ) : discountAmountOf code items ≤ items := by
  unfold discountAmountOf
  dsimp only
  split_ifs <;> omega

/-- `chooseDiscount`; `applies` is what it checks of the code besides its amount. -/
def Shop.chooseDiscount (shop : Shop) (code : String) (items : ℕ) (applies : Bool) : Except PlaceError ℕ :=
  match shop.discount code with
  | none => .error .STOREFRONT_DISCOUNT_NOT_APPLICABLE
  | some terms =>
      if applies && 0 < discountAmountOf terms items then .ok (discountAmountOf terms items)
      else .error .STOREFRONT_DISCOUNT_NOT_APPLICABLE

/-- The shares of the lines and what is left of the discount. -/
abbrev Shares := List ℕ × ℕ

/-- One rial for a line that has room. -/
def giveRial (amounts : List ℕ) (shares : Shares) (index : ℕ) : Shares :=
  if shares.2 = 0 ∨ amounts.getD index 0 ≤ shares.1.getD index 0 then shares
  else (shares.1.set index (shares.1.getD index 0 + 1), shares.2 - 1)

/-- The `while` loop; each pass gives a rial, so it ends before so many passes. -/
def spreadLeft (amounts byAmount : List ℕ) : ℕ → Shares → Shares
  | 0, shares => shares
  | passes + 1, shares =>
      if shares.2 = 0 then shares else spreadLeft amounts byAmount passes (byAmount.foldl (giveRial amounts) shares)

/-- The lines by their amounts, the largest first. -/
def byAmount (amounts : List ℕ) : List ℕ :=
  (List.range amounts.length).insertionSort fun i j =>
    amounts.getD j 0 < amounts.getD i 0 ∨ amounts.getD j 0 = amounts.getD i 0 ∧ i ≤ j

/-- A discount over the lines, each share rounded down and the rest one rial at a time. -/
def spreadDiscount (amounts : List ℕ) (discount : ℕ) : List ℕ :=
  if discount = 0 ∨ amounts.sum = 0 then amounts.map fun _ => 0
  else
    let shares := amounts.map fun amount => discount * amount / amounts.sum
    let left := discount - shares.sum
    (spreadLeft amounts (byAmount amounts) left (shares, left)).1

/-! ## Shipping -/

inductive ShippingQuote where
  | cost (amount : ℕ) (free : Bool)
  | on_delivery
  | unavailable

/-- The row with the lightest bound that holds the weight; a row without a bound is the heaviest. -/
def lightest (rows : List ShippingRate) (weightGrams : ℕ) : Option ShippingRate :=
  let bound := fun row : ShippingRate => row.maxWeightGrams.getD (2 ^ 53 - 1)
  ((rows.filter fun row => row.maxWeightGrams.all (weightGrams ≤ ·)).insertionSort fun row other =>
    bound row ≤ bound other).head?

def shippingQuote (method : ShippingMethod) (province : String) (weightGrams subtotal : ℕ)
    (freeThreshold : Option ℕ) : ShippingQuote :=
  let quote := fun amount : ℕ =>
    if method.isFreeShippingEligible && freeThreshold.any (· ≤ subtotal) then ShippingQuote.cost 0 true
    else .cost amount (amount = 0)
  match method.pricing with
  | .on_delivery => .on_delivery
  | .free => quote 0
  | .flat => quote method.flatRate
  | .table =>
      let row := (if province ≠ "" then lightest (method.rates.filter (·.province = province)) weightGrams else none).or
        (lightest (method.rates.filter (·.province = "")) weightGrams)
      match row with
      | none => .unavailable
      | some row => quote row.rate

/-- The method of the order among `shippingOptions`, with what it adds to the order. -/
def Shop.shippingAmount (shop : Shop) (cart : PricedCart) (province code : String) (subtotal : ℕ) :
    Except PlaceError ℕ :=
  let options := shop.methods.filterMap fun method =>
    if method.pricing = .table ∧ cart.weightGrams = none then none
    else
      match shippingQuote method province (cart.weightGrams.getD 0) subtotal shop.freeShippingThreshold with
      | .unavailable => none
      | .on_delivery => some (method.code, 0)
      | .cost amount _ => some (method.code, amount)
  match options.find? fun option => option.1 = code with
  | none => .error (.STOREFRONT_ORDER_FIELD_INVALID "shippingMethod")
  | some option => .ok option.2

/-! ## The proforma -/

/-- A row of `document_items`. -/
structure ProformaLine where
  itemId : ℕ
  quantity : ℕ
  unitPrice : MoneyColumn
  discount : MoneyColumn

/-- The document that `createDocument` makes. -/
structure Proforma where
  id : ℕ
  lines : List ProformaLine
  vatAmount : MoneyColumn
  serviceChargeAmount : MoneyColumn

/-- `payableAmount` of `documentAmounts`. -/
def Proforma.total (doc : Proforma) : ℚ :=
  (doc.lines.map fun line => (line.quantity : ℚ) * line.unitPrice).sum -
    (doc.lines.map fun line => (line.discount : ℚ)).sum + doc.vatAmount + doc.serviceChargeAmount

/-- The row of a cart line; `Number` is applied to the unit price. -/
def proformaLine (line : PricedLine) (discount : ℕ) : ProformaLine :=
  ⟨line.item.itemId, line.quantity, stored (Binary64.roundNat line.unitPrice : ℕ), stored (discount : ℕ)⟩

/-- The document of a cart. -/
def proformaOf (id : ℕ) (lines : List PricedLine) (lineDiscounts : List ℕ) (shippingAmount : ℕ) : Proforma where
  id
  lines := List.zipWith proformaLine lines lineDiscounts
  vatAmount := stored 0
  serviceChargeAmount := stored shippingAmount

/-! ## The shares add up -/

section Spread

variable {amounts order : List ℕ} {discount : ℕ} {shares : Shares}

/-- The shares and what is left make the discount, and no line gives more than its amount. -/
structure SharesOf (amounts : List ℕ) (discount : ℕ) (shares : Shares) : Prop where
  length : shares.1.length = amounts.length
  within : ∀ index, shares.1.getD index 0 ≤ amounts.getD index 0
  total : shares.1.sum + shares.2 = discount

theorem giveRial_sharesOf (h : SharesOf amounts discount shares) (index : ℕ) :
    SharesOf amounts discount (giveRial amounts shares index) := by
  obtain ⟨length, within, total⟩ := h
  unfold giveRial
  split_ifs with full
  · exact ⟨length, within, total⟩
  · obtain ⟨left, room⟩ : shares.2 ≠ 0 ∧ shares.1.getD index 0 < amounts.getD index 0 := by
      simpa [not_or] using full
    have inside : index < shares.1.length := by
      rw [length]
      by_contra outside
      rw [List.getD_eq_default _ _ (not_lt.mp outside)] at room
      omega
    refine ⟨by simpa using length, fun other => ?_, ?_⟩
    · by_cases same : other = index
      · subst same
        rw [List.getD_eq_getElem _ _ (by simpa using inside), List.getElem_set_self]
        omega
      · rw [List.getD_eq_getElem?_getD, List.getElem?_set_ne (Ne.symm same), ← List.getD_eq_getElem?_getD]
        exact within other
    · have split := List.sum_take_add_sum_drop shares.1 index
      have drop : (shares.1.drop index).sum = shares.1[index] + (shares.1.drop (index + 1)).sum := by
        rw [List.drop_eq_getElem_cons inside, List.sum_cons]
      have set := List.sum_set shares.1 index (shares.1.getD index 0 + 1)
      rw [if_pos inside, List.getD_eq_getElem _ _ inside] at set
      dsimp only
      rw [List.getD_eq_getElem _ _ inside, set]
      omega

theorem pass_sharesOf (h : SharesOf amounts discount shares) (order : List ℕ) :
    SharesOf amounts discount (order.foldl (giveRial amounts) shares) := by
  induction order generalizing shares with
  | nil => exact h
  | cons index order ih => exact ih (giveRial_sharesOf h index)

theorem giveRial_left (amounts : List ℕ) (shares : Shares) (index : ℕ) :
    (giveRial amounts shares index).2 < shares.2 ∨ giveRial amounts shares index = shares := by
  unfold giveRial
  split_ifs with full
  · exact .inr rfl
  · exact .inl (Nat.sub_lt (by omega) Nat.one_pos)

/-- A pass that gives nothing finds no room. -/
theorem pass_left (amounts order : List ℕ) (shares : Shares) :
    (order.foldl (giveRial amounts) shares).2 < shares.2 ∨
      ∀ index ∈ order, giveRial amounts shares index = shares := by
  induction order generalizing shares with
  | nil => exact .inr nofun
  | cons index order ih =>
      obtain fewer | kept := giveRial_left amounts shares index
      · obtain rest | same := ih (giveRial amounts shares index)
        · exact .inl (rest.trans fewer)
        · have stays : order.foldl (giveRial amounts) (giveRial amounts shares index) =
              giveRial amounts shares index := by
            clear ih fewer
            induction order with
            | nil => rfl
            | cons next order ih =>
                rw [List.foldl_cons, same next List.mem_cons_self]
                exact ih fun other mem => same other (List.mem_cons_of_mem next mem)
          rw [List.foldl_cons, stays]
          exact .inl fewer
      · rw [List.foldl_cons, kept]
        refine (ih shares).imp_right fun same other mem => ?_
        obtain rfl | mem := List.mem_cons.mp mem
        · exact kept
        · exact same other mem

/-- While something is left a line has room. -/
theorem pass_gives (h : SharesOf amounts discount shares) (fits : discount ≤ amounts.sum) (left : shares.2 ≠ 0) :
    ((byAmount amounts).foldl (giveRial amounts) shares).2 < shares.2 := by
  refine (pass_left amounts (byAmount amounts) shares).resolve_right fun full => ?_
  have same : ∀ index, amounts.getD index 0 ≤ shares.1.getD index 0 := by
    intro index
    by_cases inside : index < amounts.length
    · have mem : index ∈ byAmount amounts := by
        rw [byAmount, List.mem_insertionSort, List.mem_range]
        exact inside
      by_contra room
      have gives := congrArg Prod.snd (full index mem)
      rw [giveRial, if_neg (not_or.mpr ⟨left, room⟩)] at gives
      dsimp only at gives
      omega
    · rw [List.getD_eq_default _ _ (not_lt.mp inside)]
      exact Nat.zero_le _
  have equal : shares.1 = amounts := by
    refine List.ext_getElem h.length fun index inside inside' => ?_
    have below := h.within index
    have above := same index
    rw [List.getD_eq_getElem _ _ inside, List.getD_eq_getElem _ _ inside'] at below above
    omega
  have total := h.total
  rw [equal] at total
  omega

theorem spreadLeft_total (h : SharesOf amounts discount shares) (fits : discount ≤ amounts.sum) {passes : ℕ}
    (enough : shares.2 ≤ passes) :
    SharesOf amounts discount (spreadLeft amounts (byAmount amounts) passes shares) ∧
      (spreadLeft amounts (byAmount amounts) passes shares).2 = 0 := by
  induction passes generalizing shares with
  | zero => exact ⟨h, Nat.le_zero.mp enough⟩
  | succ passes ih =>
      rw [spreadLeft]
      split_ifs with done
      · exact ⟨h, done⟩
      · have fewer := pass_gives h fits done
        exact ih (pass_sharesOf h _) (by omega)

/-- The shares of the lines rounded down. -/
theorem floors_sharesOf (fits : discount ≤ amounts.sum) :
    SharesOf amounts discount (amounts.map fun amount => discount * amount / amounts.sum,
      discount - (amounts.map fun amount => discount * amount / amounts.sum).sum) := by
  have scaled : ∀ rest : List ℕ, (rest.map fun amount => discount * amount / amounts.sum).sum * amounts.sum ≤
      discount * rest.sum := by
    intro rest
    induction rest with
    | nil => simp
    | cons amount rest ih =>
        have floor := Nat.div_mul_le_self (discount * amount) amounts.sum
        simp only [List.map_cons, List.sum_cons, Nat.add_mul, Nat.mul_add]
        omega
  refine ⟨List.length_map _, fun index => ?_, ?_⟩
  · by_cases inside : index < amounts.length
    · rw [List.getD_eq_getElem _ _ (by simpa using inside), List.getD_eq_getElem _ _ inside, List.getElem_map]
      by_cases zero : amounts.sum = 0
      · simp [zero]
      · refine Nat.div_le_of_le_mul ?_
        exact Nat.mul_le_mul_right _ fits
    · rw [List.getD_eq_default _ _ (by simpa using inside)]
      exact Nat.zero_le _
  · dsimp only
    by_cases zero : amounts.sum = 0
    · have none : discount = 0 := by omega
      simp [none]
    · have whole := scaled amounts
      have below := Nat.le_of_mul_le_mul_right whole (Nat.pos_of_ne_zero zero)
      omega

theorem spreadDiscount_sharesOf (fits : discount ≤ amounts.sum) :
    SharesOf amounts discount (spreadDiscount amounts discount, 0) := by
  unfold spreadDiscount
  split_ifs with nothing
  · have none : discount = 0 := by omega
    refine ⟨List.length_map _, fun index => ?_, ?_⟩
    · simp [List.getD_eq_getElem?_getD]
    · simp [none]
  · obtain ⟨shares, done⟩ := spreadLeft_total (floors_sharesOf fits) fits le_rfl
    dsimp only at shares done ⊢
    rwa [← done]

end Spread

/-! ## The proforma has the amounts of the order -/

theorem money_natCast (n : ℕ) : money (n : ℚ) = n := money_of_atScale (Rounding.AtScale.natCast 4 n)

/-- A stored amount is kept by `Number`. -/
theorem roundNat_rial (amount : Rial) : Binary64.roundNat amount = amount :=
  Binary64.roundNat_of_lt (amount.2.trans (by norm_num))

theorem proformaLine_price (line : PricedLine) (discount : ℕ) :
    ((proformaLine line discount).quantity : ℚ) * (proformaLine line discount).unitPrice = line.lineAmount := by
  rw [proformaLine, coe_stored, money_natCast, roundNat_rial, PricedLine.lineAmount, Nat.cast_mul, mul_comm]

theorem proformaLine_discount (line : PricedLine) (discount : ℕ) :
    ((proformaLine line discount).discount : ℚ) = discount := by
  rw [proformaLine, coe_stored, money_natCast]

theorem sum_proformaLine {lines : List PricedLine} {lineDiscounts : List ℕ}
    (length : lineDiscounts.length = lines.length) :
    ((List.zipWith proformaLine lines lineDiscounts).map fun line => (line.quantity : ℚ) * line.unitPrice).sum =
        ((lines.map PricedLine.lineAmount).sum : ℕ) ∧
      ((List.zipWith proformaLine lines lineDiscounts).map fun line => (line.discount : ℚ)).sum =
        (lineDiscounts.sum : ℕ) := by
  induction lines generalizing lineDiscounts with
  | nil =>
      obtain rfl := List.length_eq_zero_iff.mp length
      simp
  | cons line lines ih =>
      cases lineDiscounts with
      | nil => cases length
      | cons discount lineDiscounts =>
          obtain ⟨prices, discounts⟩ := ih (Nat.succ.inj length)
          simp only [List.zipWith_cons_cons, List.map_cons, List.sum_cons, proformaLine_price, proformaLine_discount,
            prices, discounts, Nat.cast_add, and_self]

/-- The total of the proforma is the items less the discount and with the shipping. -/
theorem proformaOf_total (id shipping : ℕ) {cart : PricedCart} {discount : ℕ} (fits : discount ≤ cart.itemsAmount) :
    (proformaOf id cart.lines (spreadDiscount (cart.lines.map PricedLine.lineAmount) discount) shipping).total =
      cart.itemsAmount - discount + shipping := by
  have spread := spreadDiscount_sharesOf fits
  have total : (spreadDiscount (cart.lines.map PricedLine.lineAmount) discount).sum = discount := by
    simpa using spread.total
  have length : (spreadDiscount (cart.lines.map PricedLine.lineAmount) discount).length = cart.lines.length := by
    simpa using spread.length
  obtain ⟨prices, discounts⟩ := sum_proformaLine length
  rw [total] at discounts
  rw [Proforma.total, proformaOf, prices, discounts, coe_stored, coe_stored, money_natCast, money_zero, add_zero,
    PricedCart.itemsAmount]

/-! ## The price of a cart -/

/-- Every line has the price of its buyer, and the cart meets the minimums of the group. -/
structure PricedFor (shop : Shop) (group : Option BuyerGroup) (cart : List CartLine) (priced : PricedCart) : Prop where
  lines : List.Forall₂ (fun line row => shop.offer group line.slug = some (row.item, row.unitPrice) ∧
    row.quantity = line.quantity) cart priced.lines
  minLine : ∀ g ∈ group, ∀ line ∈ cart, g.minLineQuantity ≤ line.quantity
  minOrder : ∀ g ∈ group, g.minOrderAmount ≤ priced.itemsAmount

theorem priceCart_pricedFor {shop : Shop} {group : Option BuyerGroup} {cart : List CartLine} {priced : PricedCart}
    (accepted : shop.priceCart cart group = .ok priced) : PricedFor shop group cart priced := by
  simp only [Shop.priceCart, bind_eq_ok, ensure_eq_ok, pure_eq_ok, exists_const] at accepted
  obtain ⟨offered, enough, minimum, rfl⟩ := accepted
  refine ⟨?_, fun g mem line lineMem => ?_, fun g mem => ?_⟩
  · have all : ∀ line ∈ cart, shop.offer group line.slug ≠ none := by
      intro line mem none
      have stays : line ∈ cart.filter fun line => (shop.offer group line.slug).isNone :=
        List.mem_filter.mpr ⟨mem, by rw [none]; rfl⟩
      rw [offered] at stays
      cases stays
    clear offered enough minimum
    induction cart with
    | nil => exact .nil
    | cons line cart ih =>
        obtain ⟨offer, offered⟩ := Option.ne_none_iff_exists'.mp (all line List.mem_cons_self)
        simp only [List.filterMap_cons, offered, Option.map_some]
        exact .cons ⟨offered, rfl⟩ (ih fun line mem => all line (List.mem_cons_of_mem _ mem))
  · obtain rfl : group = some g := mem
    by_contra few
    have stays : line ∈ cart.filter fun line => (some g).any fun group => line.quantity < group.minLineQuantity :=
      List.mem_filter.mpr ⟨lineMem, by simpa using few⟩
    rw [enough] at stays
    cases stays
  · obtain rfl : group = some g := mem
    simpa using minimum

end PapitalErp.PlaceOrder
