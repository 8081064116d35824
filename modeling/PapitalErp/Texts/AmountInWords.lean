import PapitalErp.Lib.Binary64
import PapitalErp.Lib.Rounding
import PapitalErp.Texts.PersianWords

/-!
# Amounts in Persian words

`financialAmountToPersianWords` of an amount and its currency, as the text that is printed
on vouchers and invoices, and what a reader makes of that text. An amount is the value of
its decimal text; the number that the function works with is the double nearest to it.

Amounts are below `2 ^ 53` of the smallest unit for rial and toman, so that the text of a
whole number is its digits, and have 14 whole digits and 4 decimals in other currencies.
-/

namespace PapitalErp.AmountInWords

open PersianWords SpacedWords Rounding

/-! ## The text -/

/-- `formatCurrencyLabel`. -/
def formatCurrencyLabel (c : String) : String :=
  if c = "" ∨ c = "IRR" ∨ c = "ریال" then "ریال"
  else if c = "TOMAN" ∨ c = "تومان" then "تومان"
  else if c = "USD" then "دلار"
  else if c = "EUR" then "یورو"
  else if c = "AED" then "درهم"
  else if c = "GBP" then "پوند"
  else c

/-- `FOREIGN_SUBUNIT_LABELS`, with `صدم` for the others. -/
def subunitLabel (cur : String) : String :=
  if cur = "USD" ∨ cur = "EUR" then "سنت"
  else if cur = "AED" then "فلس"
  else if cur = "GBP" then "پنی"
  else "صدم"

/-- `currency?.toUpperCase() || 'IRR'`. -/
def currencyCode (currency : String) : String :=
  if currency = "" then "IRR" else currency.toUpper

def IsRial (cur : String) : Prop := cur = "IRR" ∨ cur = "ریال"

instance (cur : String) : Decidable (IsRial cur) := inferInstanceAs (Decidable (_ ∨ _))

def IsToman (cur : String) : Prop := cur = "TOMAN" ∨ cur = "تومان"

instance (cur : String) : Decidable (IsToman cur) := inferInstanceAs (Decidable (_ ∨ _))

structure FinancialWordsResult where
  words : String
  tomanEquivalent : String
  fullDescription : String

/-- The branch of rials. -/
def rialResult (sign : String) (intPart : ℕ) : FinancialWordsResult :=
  let rialText := sign ++ numberToPersianWords intPart ++ " ریال"
  let tomanValue := intPart / 10
  let tomanRemainder := intPart % 10
  let tomanText :=
    if 0 < tomanValue then
      sign ++ numberToPersianWords tomanValue ++ " تومان" ++
        if 0 < tomanRemainder then " و " ++ numberToPersianWords tomanRemainder ++ " ریال" else ""
    else ""
  { words := rialText
    tomanEquivalent := tomanText
    fullDescription := if tomanText = "" then rialText else rialText ++ " (معادل " ++ tomanText ++ ")" }

/-- The branch of tomans; ten times the number is rounded as doubles are. -/
def tomanResult (sign : String) (intPart : ℕ) : FinancialWordsResult :=
  let tomanText := sign ++ numberToPersianWords intPart ++ " تومان"
  let rialValue := Binary64.roundNat (intPart * 10)
  let rialText := sign ++ numberToPersianWords rialValue ++ " ریال"
  { words := tomanText
    tomanEquivalent := rialText
    fullDescription := tomanText ++ " (معادل " ++ rialText ++ ")" }

/-- The branch of other currencies. The cents are of the amount's own text, less the whole
part of the double. -/
def foreignResult (sign cur : String) (amount : ℚ) (intPart : ℕ) : FinancialWordsResult :=
  let cents := nearestInt ((|amount| - intPart) * 100)
  let intWords :=
    if 0 < intPart then numberToPersianWords intPart ++ " " ++ formatCurrencyLabel cur else ""
  let centWords := if 0 < cents then numberToPersianWords cents ++ " " ++ subunitLabel cur else ""
  let fullText := sign ++ " و ".intercalate ([intWords, centWords].filter (· ≠ ""))
  { words := fullText
    tomanEquivalent := ""
    fullDescription := fullText }

/-- `financialAmountToPersianWords`. -/
def financialAmountToPersianWords (amount : ℚ) (currency : String) : FinancialWordsResult :=
  let num := Binary64.nearest amount
  let cur := currencyCode currency
  if num = 0 then
    let zeroDesc := "صفر " ++ formatCurrencyLabel cur
    { words := zeroDesc
      tomanEquivalent := ""
      fullDescription := zeroDesc }
  else
    let sign := if num < 0 then "منفی " else ""
    let intPart := ⌊|num|⌋₊
    if IsRial cur then rialResult sign intPart
    else if IsToman cur then tomanResult sign intPart
    else foreignResult sign cur amount intPart

/-! ## What a reader makes of it -/

/-- The units and the parts read so far, and the words since. -/
structure Tally where
  units : ℕ
  parts : ℕ
  pending : Reading

/-- The unit's label takes the number before it for units, the part's for parts. -/
def readAmountWord (unit part : String) (t : Tally) (w : String) : Tally :=
  if w = unit then ⟨t.units + t.pending.value, t.parts, ⟨0, 0⟩⟩
  else if w = part then ⟨t.units, t.parts + t.pending.value, ⟨0, 0⟩⟩
  else ⟨t.units, t.parts, readWord t.pending w⟩

/-- The sign of a text's words, and the words after it. -/
def signed (words : List String) : Bool × List String :=
  match words with
  | "منفی" :: rest => (true, rest)
  | words => (false, words)

/-- An amount read from a text. -/
structure AmountRead where
  negative : Bool
  units : ℕ
  parts : ℕ

/-- A text without a label names no amount. -/
def readAmount (unit part text : String) : Option AmountRead :=
  let words := signed (wordsOf text)
  let tally := words.2.foldl (readAmountWord unit part) ⟨0, 0, ⟨0, 0⟩⟩
  if unit ∈ words.2 ∨ part ∈ words.2 then some ⟨words.1, tally.units, tally.parts⟩ else none

/-- The value, with so many parts to the unit. -/
def AmountRead.value (r : AmountRead) (parts : ℕ) : ℚ :=
  (if r.negative then -1 else 1) * (r.units + r.parts / parts)

/-- A text reads as an amount, with fewer parts than make a unit. -/
def ReadsAs (unit part : String) (parts : ℕ) (text : String) (value : ℚ) : Prop :=
  match readAmount unit part text with
  | some r => r.parts < parts ∧ r.value parts = value
  | none => False

instance (unit part : String) (parts : ℕ) (text : String) (value : ℚ) :
    Decidable (ReadsAs unit part parts text value) := by
  unfold ReadsAs
  split <;> infer_instance

/-! ## The amounts -/

/-- A text of capital Latin letters. -/
def IsLatin (w : String) : Prop := w.toList.all Char.isUpper = true

instance (w : String) : Decidable (IsLatin w) := inferInstanceAs (Decidable (_ = true))

/-- A currency's code: of Latin letters, or one of the two Persian names. -/
def IsCode (cur : String) : Prop :=
  cur = "ریال" ∨ cur = "تومان" ∨ (cur ≠ "" ∧ IsLatin cur)

instance (cur : String) : Decidable (IsCode cur) := inferInstanceAs (Decidable (_ ∨ _))

/-- The amounts that the callers pass. -/
def Admitted (value : ℚ) (cur : String) : Prop :=
  if IsRial cur then AtScale 0 value ∧ |value| < 2 ^ 53
  else if IsToman cur then AtScale 0 value ∧ 10 * |value| < 2 ^ 53
  else AtScale 4 value ∧ |value| < 10 ^ 14

structure Amount where
  value : ℚ
  currency : String
  code : IsCode (currencyCode currency)
  admitted : Admitted value (currencyCode currency)

def Amount.cur (a : Amount) : String := currencyCode a.currency

/-- The decimals of the currency's smallest unit. -/
def Amount.decimals (a : Amount) : ℕ := if IsRial a.cur ∨ IsToman a.cur then 0 else 2

/-- The amount in its currency's smallest unit. -/
def Amount.rounded (a : Amount) : ℚ := roundHalfUp a.decimals a.value

def Amount.result (a : Amount) : FinancialWordsResult :=
  financialAmountToPersianWords a.value a.currency

/-- The equivalent, where there is one, is the same amount in the other unit. -/
def EquivalentAgrees (a : Amount) : Prop :=
  a.result.tomanEquivalent = "" ∨
    if IsRial a.cur then ReadsAs "تومان" "ریال" 10 a.result.tomanEquivalent (a.value / 10)
    else ReadsAs "ریال" "صدم" 100 a.result.tomanEquivalent (a.value * 10)

/-- The text is not empty and says the amount in its currency's smallest unit. -/
structure InWords (a : Amount) : Prop where
  nonempty : a.result.words ≠ "" ∧ a.result.fullDescription ≠ ""
  reads : ReadsAs (formatCurrencyLabel a.cur) (subunitLabel a.cur) 100 a.result.words a.rounded
  equivalent : EquivalentAgrees a

/-! ## Labels -/

/-- A word that is read as a label: not a number's word, and not the sign. -/
structure IsLabel (w : String) : Prop where
  isWord : IsWord w
  new : ¬InVocabulary w
  notSign : w ≠ "منفی"
  nonempty : w ≠ ""

theorem isLabel_iff (w : String) :
    IsLabel w ↔ IsWord w ∧ ¬InVocabulary w ∧ w ≠ "منفی" ∧ w ≠ "" :=
  ⟨fun h => ⟨h.isWord, h.new, h.notSign, h.nonempty⟩, fun ⟨a, b, c, d⟩ => ⟨a, b, c, d⟩⟩

instance (w : String) : Decidable (IsLabel w) := decidable_of_iff' _ (isLabel_iff w)

/-- The labels of a currency. -/
structure Labels (unit part : String) : Prop where
  ofUnit : IsLabel unit
  ofPart : IsLabel part
  differ : unit ≠ part

def vocabulary : List String := "و" :: numberTable.map Prod.fst ++ scaleTable.map Prod.fst

theorem mem_of_lookup {table : List (String × ℕ)} {w : String} (h : (lookup table w).isSome) :
    w ∈ table.map Prod.fst := by
  rw [lookup, Option.isSome_map, List.find?_isSome] at h
  obtain ⟨entry, mem, same⟩ := h
  exact List.mem_map.mpr ⟨entry, mem, of_decide_eq_true same⟩

theorem mem_vocabulary {w : String} (h : InVocabulary w) : w ∈ vocabulary := by
  rcases h with rfl | number | scale
  · exact List.mem_cons_self
  · exact List.mem_append_left _ (List.mem_cons_of_mem _ (mem_of_lookup number))
  · exact List.mem_append_right _ (mem_of_lookup scale)

theorem vocabulary_not_latin : ∀ w ∈ vocabulary, ¬IsLatin w := by decide

theorem IsLatin.isLabel {w : String} (latin : IsLatin w) (nonempty : w ≠ "") : IsLabel w where
  isWord := fun space => absurd (List.all_eq_true.mp latin ' ' space) (by decide)
  new := fun inVocabulary => vocabulary_not_latin w (mem_vocabulary inVocabulary) latin
  notSign := by
    rintro rfl
    exact absurd latin (by decide)
  nonempty := nonempty

def unitLabels : List String := ["ریال", "تومان", "دلار", "یورو", "درهم", "پوند"]

def partLabels : List String := ["سنت", "فلس", "پنی", "صدم"]

theorem labels_of_mem : ∀ unit ∈ unitLabels, ∀ part ∈ "ریال" :: partLabels, unit ≠ part →
    Labels unit part := by
  have units : ∀ unit ∈ unitLabels, IsLabel unit := by decide
  have parts : ∀ part ∈ "ریال" :: partLabels, IsLabel part := by decide
  exact fun unit hu part hp differ => ⟨units unit hu, parts part hp, differ⟩

theorem formatCurrencyLabel_cases (cur : String) :
    formatCurrencyLabel cur ∈ unitLabels ∨ formatCurrencyLabel cur = cur ∧ cur ≠ "ریال" ∧
      cur ≠ "تومان" := by
  unfold formatCurrencyLabel
  split_ifs with rial toman usd eur aed gbp
  all_goals first
    | exact Or.inl (by decide)
    | exact Or.inr ⟨rfl, fun h => rial (Or.inr (Or.inr h)), fun h => toman (Or.inr h)⟩

theorem subunitLabel_mem (cur : String) : subunitLabel cur ∈ partLabels := by
  unfold subunitLabel
  split_ifs <;> decide

/-- The labels of every currency can be told from numbers and from each other. -/
theorem labels_of_code {cur : String} (code : IsCode cur) :
    Labels (formatCurrencyLabel cur) (subunitLabel cur) := by
  have part := subunitLabel_mem cur
  have apart : ∀ unit ∈ unitLabels, unit ∉ partLabels := by decide
  rcases formatCurrencyLabel_cases cur with unit | ⟨same, notRial, notToman⟩
  · exact labels_of_mem _ unit _ (List.mem_cons_of_mem _ part) fun h => apart _ unit (h ▸ part)
  · obtain ⟨nonempty, latin⟩ := (code.resolve_left notRial).resolve_left notToman
    have foreign : ∀ w ∈ partLabels, ¬IsLatin w ∧ IsLabel w := by decide
    rw [same]
    exact ⟨IsLatin.isLabel latin nonempty, (foreign _ part).2,
      fun h => (foreign _ part).1 (h ▸ latin)⟩

/-! ## Reading a text of labelled numbers -/

section

variable {unit part : String}

theorem inVocabulary_and : InVocabulary "و" := Or.inl rfl

theorem readAmountWord_number (labels : Labels unit part) {w : String} (h : InVocabulary w)
    (t : Tally) :
    readAmountWord unit part t w = ⟨t.units, t.parts, readWord t.pending w⟩ := by
  have notUnit : w ≠ unit := fun same => labels.ofUnit.new (same ▸ h)
  have notPart : w ≠ part := fun same => labels.ofPart.new (same ▸ h)
  rw [readAmountWord, if_neg notUnit, if_neg notPart]

theorem readAmountWord_and (labels : Labels unit part) (t : Tally) :
    readAmountWord unit part t "و" = t := by
  rw [readAmountWord_number labels inVocabulary_and, readWord_and]

theorem foldl_numbers (labels : Labels unit part) {words : List String}
    (h : ∀ w ∈ words, InVocabulary w) (t : Tally) :
    words.foldl (readAmountWord unit part) t =
      ⟨t.units, t.parts, words.foldl readWord t.pending⟩ := by
  induction words generalizing t with
  | nil => rfl
  | cons w words ih =>
    rw [List.foldl_cons, readAmountWord_number labels (h w List.mem_cons_self),
      ih fun v hv => h v (List.mem_cons_of_mem w hv), List.foldl_cons]

theorem foldl_units (labels : Labels unit part) {words : List String}
    (h : ∀ w ∈ words, InVocabulary w) (units parts : ℕ) :
    (words ++ [unit]).foldl (readAmountWord unit part) ⟨units, parts, ⟨0, 0⟩⟩ =
      ⟨units + readNumber words, parts, ⟨0, 0⟩⟩ := by
  rw [List.foldl_append, foldl_numbers labels h, List.foldl_cons, List.foldl_nil, readAmountWord,
    if_pos rfl]
  rfl

theorem foldl_parts (labels : Labels unit part) {words : List String}
    (h : ∀ w ∈ words, InVocabulary w) (units parts : ℕ) :
    (words ++ [part]).foldl (readAmountWord unit part) ⟨units, parts, ⟨0, 0⟩⟩ =
      ⟨units, parts + readNumber words, ⟨0, 0⟩⟩ := by
  rw [List.foldl_append, foldl_numbers labels h, List.foldl_cons, List.foldl_nil, readAmountWord,
    if_neg labels.differ.symm, if_pos rfl]
  rfl

theorem signed_signWords {negative : Bool} {words : List String} (h : ∀ w ∈ words, w ≠ "منفی") :
    signed (signWords negative ++ words) = (negative, words) := by
  cases negative with
  | true => rfl
  | false =>
    rw [signWords, if_neg Bool.false_ne_true, List.nil_append]
    unfold signed
    split
    · exact absurd rfl (h _ List.mem_cons_self)
    · rfl

/-- The words that texts of amounts are made of. -/
def InText (unit part w : String) : Prop := InVocabulary w ∨ w = unit ∨ w = part

theorem isWord_vocabulary : ∀ w ∈ vocabulary, IsWord w := by decide

theorem InText.isWord (labels : Labels unit part) {w : String} (h : InText unit part w) :
    IsWord w := by
  rcases h with number | rfl | rfl
  · exact isWord_vocabulary w (mem_vocabulary number)
  · exact labels.ofUnit.isWord
  · exact labels.ofPart.isWord

theorem InText.notSign (labels : Labels unit part) {w : String} (h : InText unit part w) :
    w ≠ "منفی" := by
  rcases h with number | rfl | rfl
  · exact fun same => minus_notInVocabulary (same ▸ number)
  · exact labels.ofUnit.notSign
  · exact labels.ofPart.notSign

/-- A text of words with a label in it is read word by word. -/
theorem readAmount_spaced (labels : Labels unit part) {words : List String}
    (each : ∀ w ∈ words, InText unit part w) (named : unit ∈ words ∨ part ∈ words)
    (negative : Bool) :
    readAmount unit part ((if negative then "منفی " else "") ++ spaced words) =
      some ⟨negative, (words.foldl (readAmountWord unit part) ⟨0, 0, ⟨0, 0⟩⟩).units,
        (words.foldl (readAmountWord unit part) ⟨0, 0, ⟨0, 0⟩⟩).parts⟩ := by
  have nonempty : words ≠ [] := by
    rintro rfl
    exact named.elim List.not_mem_nil List.not_mem_nil
  have split : signed (wordsOf ((if negative then "منفی " else "") ++ spaced words)) =
      (negative, words) := by
    rw [wordsOf_sign nonempty fun w hw => (each w hw).isWord labels]
    exact signed_signWords fun w hw => (each w hw).notSign labels
  rw [readAmount, split]
  exact if_pos named

/-- The phrases of an amount: its units and its parts, where there are any. -/
def phrases (unit part : String) (units parts : ℕ) : List (List String) :=
  (if 0 < units then [numberWords units ++ [unit]] else []) ++
    if 0 < parts then [numberWords parts ++ [part]] else []

theorem inText_of_mem_phrases {units parts : ℕ} {p : List String} (hp : p ∈ phrases unit part units parts)
    {w : String} (hw : w ∈ p) : InText unit part w := by
  rcases List.mem_append.mp hp with ofUnits | ofParts
  · split_ifs at ofUnits
    · obtain rfl := List.mem_singleton.mp ofUnits
      rcases List.mem_append.mp hw with number | label
      · exact Or.inl (inVocabulary_of_mem_numberWords number)
      · exact Or.inr (Or.inl (List.mem_singleton.mp label))
    · exact absurd ofUnits List.not_mem_nil
  · split_ifs at ofParts
    · obtain rfl := List.mem_singleton.mp ofParts
      rcases List.mem_append.mp hw with number | label
      · exact Or.inl (inVocabulary_of_mem_numberWords number)
      · exact Or.inr (Or.inr (List.mem_singleton.mp label))
    · exact absurd ofParts List.not_mem_nil

theorem foldl_phrases (labels : Labels unit part) (units parts : ℕ) :
    (joinedBy "و" (phrases unit part units parts)).foldl (readAmountWord unit part) ⟨0, 0, ⟨0, 0⟩⟩ =
      ⟨if 0 < units then readNumber (numberWords units) else 0,
        if 0 < parts then readNumber (numberWords parts) else 0, ⟨0, 0⟩⟩ := by
  have word : ∀ n, ∀ w ∈ numberWords n, InVocabulary w := fun _ _ => inVocabulary_of_mem_numberWords
  rw [foldl_joinedBy (readAmountWord_and labels), phrases, List.foldl_append]
  split_ifs
  all_goals simp only [List.foldl_cons, List.foldl_nil]
  · rw [foldl_units labels (word units), foldl_parts labels (word parts), zero_add, zero_add]
  · rw [foldl_units labels (word units), zero_add]
  · rw [foldl_parts labels (word parts), zero_add]

/-- The text of an amount's phrases is read as its units and parts. -/
theorem readAmount_phrases (labels : Labels unit part) {units parts : ℕ}
    (nonzero : 0 < units ∨ 0 < parts) (small : units < 10 ^ 18) (few : parts < 10 ^ 18)
    (negative : Bool) :
    readAmount unit part ((if negative then "منفی " else "") ++
        spaced (joinedBy "و" (phrases unit part units parts))) =
      some ⟨negative, units, parts⟩ := by
  have each : ∀ w ∈ joinedBy "و" (phrases unit part units parts), InText unit part w := by
    intro w hw
    rcases mem_joinedBy hw with rfl | ⟨p, hp, member⟩
    · exact Or.inl inVocabulary_and
    · exact inText_of_mem_phrases hp member
  have named : unit ∈ joinedBy "و" (phrases unit part units parts) ∨
      part ∈ joinedBy "و" (phrases unit part units parts) := by
    rcases nonzero with positive | positive
    · refine Or.inl (mem_joinedBy_of_mem (p := numberWords units ++ [unit]) ?_ (by simp))
      exact List.mem_append_left _ (by rw [if_pos positive]; exact List.mem_cons_self)
    · refine Or.inr (mem_joinedBy_of_mem (p := numberWords parts ++ [part]) ?_ (by simp))
      exact List.mem_append_right _ (by rw [if_pos positive]; exact List.mem_cons_self)
  rw [readAmount_spaced labels each named, foldl_phrases labels, readNumber_of_lt small,
    readNumber_of_lt few]
  have units_eq : (if 0 < units then units else 0) = units := by split_ifs <;> omega
  have parts_eq : (if 0 < parts then parts else 0) = parts := by split_ifs <;> omega
  rw [units_eq, parts_eq]

/-- Zero of a currency. -/
theorem readAmount_zero (labels : Labels unit part) :
    readAmount unit part ("صفر " ++ unit) = some ⟨false, 0, 0⟩ := by
  have zero : InVocabulary "صفر" := by decide
  have value : readNumber ["صفر"] = 0 := by decide
  have space : "صفر " = "صفر" ++ " " := by decide
  have text : "صفر " ++ unit = (if false then "منفی " else "") ++ spaced (["صفر"] ++ [unit]) := by
    rw [spaced_append (List.cons_ne_nil _ _) (List.cons_ne_nil _ _), spaced_singleton,
      spaced_singleton, space, if_neg Bool.false_ne_true, String.empty_append]
  have number : ∀ w ∈ ["صفر"], InVocabulary w := by
    intro w hw
    rwa [List.mem_singleton.mp hw]
  have each : ∀ w ∈ ["صفر"] ++ [unit], InText unit part w := by
    intro w hw
    rcases List.mem_append.mp hw with isZero | label
    · exact Or.inl (number w isZero)
    · exact Or.inr (Or.inl (List.mem_singleton.mp label))
  rw [text, readAmount_spaced labels each (Or.inl (by simp)), foldl_units labels number, value]

/-- A sign alone names no amount. -/
theorem readAmount_sign (labels : Labels unit part) (negative : Bool) :
    readAmount unit part (if negative then "منفی " else "") = none := by
  have words : (signed (wordsOf (if negative then "منفی " else ""))).2 = [""] := by
    cases negative <;> rfl
  rw [readAmount, words]
  refine if_neg ?_
  rw [List.mem_singleton, List.mem_singleton]
  exact fun h => h.elim labels.ofUnit.nonempty labels.ofPart.nonempty

end

/-! ## The text is of labelled numbers -/

theorem numberToPersianWords_of_pos {n : ℕ} (positive : 0 < n) :
    numberToPersianWords n = spaced (numberWords n) := by
  rw [numberToPersianWords, if_neg (by omega), if_neg (by omega), Int.natAbs_natCast,
    digitsInWords_eq, String.empty_append]

/-- The labelled numbers of an amount, where they are not zero. -/
def labelledTexts (unit part : String) (units parts : ℕ) : List String :=
  (if 0 < units then [numberToPersianWords units ++ " " ++ unit] else []) ++
    if 0 < parts then [numberToPersianWords parts ++ " " ++ part] else []

theorem labelled_eq {n : ℕ} (positive : 0 < n) (label : String) :
    numberToPersianWords n ++ " " ++ label = spaced (numberWords n ++ [label]) := by
  rw [spaced_append (numberWords_ne_nil positive) (List.cons_ne_nil _ _), spaced_singleton,
    numberToPersianWords_of_pos positive]

theorem labelledTexts_eq (unit part : String) (units parts : ℕ) :
    labelledTexts unit part units parts = (phrases unit part units parts).map spaced := by
  rw [labelledTexts, phrases, List.map_append]
  congr 1
  · split_ifs with positive
    · rw [labelled_eq positive, List.map_singleton]
    · rfl
  · split_ifs with positive
    · rw [labelled_eq positive, List.map_singleton]
    · rfl

theorem intercalate_labelledTexts (unit part : String) (units parts : ℕ) :
    " و ".intercalate (labelledTexts unit part units parts) =
      spaced (joinedBy "و" (phrases unit part units parts)) := by
  rw [labelledTexts_eq]
  refine intercalate_spaced and_eq fun p hp => ?_
  rcases List.mem_append.mp hp with ofUnits | ofParts
  · split_ifs at ofUnits
    · obtain rfl := List.mem_singleton.mp ofUnits
      simp
    · exact absurd ofUnits List.not_mem_nil
  · split_ifs at ofParts
    · obtain rfl := List.mem_singleton.mp ofParts
      simp
    · exact absurd ofParts List.not_mem_nil

/-- The text of labelled numbers is read as them. -/
theorem readAmount_labelled {unit part : String} (labels : Labels unit part) {units parts : ℕ}
    (nonzero : 0 < units ∨ 0 < parts) (small : units < 10 ^ 18) (few : parts < 10 ^ 18)
    (negative : Prop) [Decidable negative] :
    readAmount unit part ((if negative then "منفی " else "") ++
        " و ".intercalate (labelledTexts unit part units parts)) =
      some ⟨decide negative, units, parts⟩ := by
  have read := readAmount_phrases labels nonzero small few (decide negative)
  simp only [decide_eq_true_eq] at read
  rw [intercalate_labelledTexts, read]

theorem intercalate_units {n : ℕ} (positive : 0 < n) (unit part : String) :
    " و ".intercalate (labelledTexts unit part n 0) = numberToPersianWords n ++ " " ++ unit := by
  rw [labelledTexts, if_pos positive, if_neg (lt_irrefl 0), List.append_nil,
    String.intercalate_singleton]

theorem intercalate_both {n c : ℕ} (positive : 0 < n) (more : 0 < c) (unit part : String) :
    " و ".intercalate (labelledTexts unit part n c) =
      numberToPersianWords n ++ " " ++ unit ++ " و " ++ (numberToPersianWords c ++ " " ++ part) := by
  rw [labelledTexts, if_pos positive, if_pos more, List.singleton_append,
    String.intercalate_cons_of_ne_nil (List.cons_ne_nil _ _), String.intercalate_singleton]

/-- Empty texts are left out of the words of a foreign amount. -/
theorem filter_labelled (unit part : String) (units parts : ℕ) :
    [if 0 < units then numberToPersianWords units ++ " " ++ unit else "",
        if 0 < parts then numberToPersianWords parts ++ " " ++ part else ""].filter (· ≠ "") =
      labelledTexts unit part units parts := by
  unfold labelledTexts
  split_ifs <;> simp

/-! ## The numbers of the text -/

theorem Amount.small (a : Amount) : |a.value| < 2 ^ 53 := by
  have admitted := a.admitted
  unfold Admitted at admitted
  split_ifs at admitted
  · exact admitted.2
  · linarith [admitted.2, abs_nonneg a.value]
  · exact admitted.2.trans (by norm_num)

theorem Amount.labels (a : Amount) : Labels (formatCurrencyLabel a.cur) (subunitLabel a.cur) :=
  labels_of_code a.code

/-- The sign's text. -/
def signText (x : ℚ) : String := if x < 0 then "منفی " else ""

theorem result_of_ne_zero {a : Amount} (nonzero : a.value ≠ 0) :
    a.result =
      if IsRial a.cur then rialResult (signText a.value) ⌊|Binary64.nearest a.value|⌋₊
      else if IsToman a.cur then tomanResult (signText a.value) ⌊|Binary64.nearest a.value|⌋₊
      else foreignResult (signText a.value) a.cur a.value ⌊|Binary64.nearest a.value|⌋₊ := by
  have sign : (if Binary64.nearest a.value < 0 then "منفی " else "") = signText a.value :=
    if_congr (Binary64.nearest_neg_iff a.small) rfl rfl
  rw [Amount.result, financialAmountToPersianWords]
  dsimp only
  rw [if_neg (mt Binary64.nearest_eq_zero_iff.mp nonzero), sign]
  rfl

theorem ReadsAs.ne_empty {unit part : String} (labels : Labels unit part) {parts : ℕ} {text : String}
    {value : ℚ} (h : ReadsAs unit part parts text value) : text ≠ "" := by
  rintro rfl
  have nothing : readAmount unit part "" = none := readAmount_sign labels false
  rw [ReadsAs, nothing] at h
  exact h

/-- A text that is read is one of its number of units and parts. -/
theorem readsAs_iff {unit part text : String} {x : ℚ} {units count : ℕ}
    (read : readAmount unit part text = some ⟨decide (x < 0), units, count⟩) (parts : ℕ) (value : ℚ) :
    ReadsAs unit part parts text value ↔
      count < parts ∧ (if x < 0 then -1 else 1) * ((units : ℚ) + count / parts) = value := by
  unfold ReadsAs
  rw [read]
  simp only [AmountRead.value, decide_eq_true_eq]

/-- A number is its sign and its size. -/
theorem sign_mul_abs (x : ℚ) : (if x < 0 then -1 else 1) * |x| = x := by
  split_ifs with negative
  · rw [abs_of_neg negative, neg_one_mul, neg_neg]
  · rw [abs_of_nonneg (not_lt.mp negative), one_mul]

/-- Whole amounts are kept as doubles. -/
theorem whole_amount {x : ℚ} (whole : AtScale 0 x) (small : |x| < 2 ^ 53) :
    ((⌊|Binary64.nearest x|⌋₊ : ℕ) : ℚ) = |x| := by
  obtain ⟨k, rfl⟩ := whole
  have same : ((k : ℚ) / 10 ^ 0) = k := by rw [pow_zero, div_one]
  rw [same] at small ⊢
  rw [Binary64.nearest_intCast small, ← Int.cast_abs, ← Int.natCast_natAbs, Int.cast_natCast,
    Nat.floor_natCast]

theorem pos_of_abs {n : ℕ} {x : ℚ} (same : (n : ℚ) = |x|) (nonzero : x ≠ 0) : 0 < n := by
  have positive : (0 : ℚ) < n := same ▸ abs_pos.mpr nonzero
  exact_mod_cast positive

theorem lt_of_abs {n : ℕ} {x : ℚ} (same : (n : ℚ) = |x|) (small : |x| < 2 ^ 53) : n < 2 ^ 53 := by
  rw [← same] at small
  exact_mod_cast small

theorem readAmount_units {unit part : String} (labels : Labels unit part) {n : ℕ} (positive : 0 < n)
    (small : n < 2 ^ 53) (x : ℚ) :
    readAmount unit part (signText x ++ numberToPersianWords n ++ (" " ++ unit)) =
      some ⟨decide (x < 0), n, 0⟩ := by
  have text : signText x ++ numberToPersianWords n ++ (" " ++ unit) =
      signText x ++ " و ".intercalate (labelledTexts unit part n 0) := by
    rw [intercalate_units positive]
    simp only [String.append_assoc]
  rw [text]
  exact readAmount_labelled labels (Or.inl positive) (small.trans (by norm_num)) (by norm_num) _

/-- A rial amount and its toman equivalent. -/
theorem rialResult_reads {part : String} (labels : Labels "ریال" part) {n : ℕ} (positive : 0 < n)
    (small : n < 2 ^ 53) {x : ℚ} (same : (n : ℚ) = |x|) :
    ReadsAs "ریال" part 100 (rialResult (signText x) n).words x ∧
      ((rialResult (signText x) n).tomanEquivalent = "" ∨
        ReadsAs "تومان" "ریال" 10 (rialResult (signText x) n).tomanEquivalent (x / 10)) := by
  have rial : " ریال" = " " ++ "ریال" := by simp
  have toman : " تومان" = " " ++ "تومان" := by simp
  have others : Labels "تومان" "ریال" :=
    labels_of_mem _ (by decide) _ (by decide) (by simp)
  constructor
  · have read := readAmount_units labels positive small x
    rw [← rial] at read
    refine (readsAs_iff read 100 x).mpr ⟨by norm_num, ?_⟩
    rw [Nat.cast_zero, zero_div, add_zero, same, sign_mul_abs]
  · by_cases tens : 0 < n / 10
    · refine Or.inr ?_
      have text : (rialResult (signText x) n).tomanEquivalent =
          signText x ++ " و ".intercalate (labelledTexts "تومان" "ریال" (n / 10) (n % 10)) := by
        rw [rialResult]
        dsimp only
        rw [if_pos tens]
        by_cases more : 0 < n % 10
        · rw [if_pos more, intercalate_both tens more, toman, rial]
          simp only [String.append_assoc]
        · rw [if_neg more, show n % 10 = 0 by omega, intercalate_units tens, toman]
          simp only [String.append_assoc, String.append_empty]
      have read := readAmount_labelled others (Or.inl tens) (show n / 10 < 10 ^ 18 by omega)
        (show n % 10 < 10 ^ 18 by omega) (x < 0)
      rw [text]
      refine (readsAs_iff read 10 _).mpr ⟨Nat.mod_lt _ (by norm_num), ?_⟩
      have split : ((n / 10 : ℕ) : ℚ) + (n % 10 : ℕ) / (10 : ℕ) = |x| / 10 := by
        have digits : ((10 * (n / 10) + n % 10 : ℕ) : ℚ) = |x| := by rw [Nat.div_add_mod, same]
        push_cast at digits ⊢
        linarith
      rw [split, mul_div_assoc', sign_mul_abs]
    · exact Or.inl (if_neg tens)

/-- A toman amount and its rial equivalent. -/
theorem tomanResult_reads {part : String} (labels : Labels "تومان" part) {n : ℕ} (positive : 0 < n)
    (small : 10 * n < 2 ^ 53) {x : ℚ} (same : (n : ℚ) = |x|) :
    ReadsAs "تومان" part 100 (tomanResult (signText x) n).words x ∧
      ReadsAs "ریال" "صدم" 100 (tomanResult (signText x) n).tomanEquivalent (x * 10) := by
  have rial : " ریال" = " " ++ "ریال" := by simp
  have toman : " تومان" = " " ++ "تومان" := by simp
  have others : Labels "ریال" "صدم" :=
    labels_of_mem _ (by decide) _ (by decide) (by simp)
  have double : Binary64.roundNat (n * 10) = n * 10 := Binary64.roundNat_of_lt (by omega)
  constructor
  · have read := readAmount_units labels positive (by omega) x
    rw [← toman] at read
    refine (readsAs_iff read 100 x).mpr ⟨by norm_num, ?_⟩
    rw [Nat.cast_zero, zero_div, add_zero, same, sign_mul_abs]
  · have read := readAmount_units others (show 0 < n * 10 by omega) (by omega) x
    rw [← rial, ← double] at read
    refine (readsAs_iff read 100 _).mpr ⟨by norm_num, ?_⟩
    rw [Nat.cast_zero, zero_div, add_zero, double, Nat.cast_mul, same, ← mul_assoc, sign_mul_abs]
    norm_num

/-! ## The cents of a foreign amount -/

theorem nearestInt_of_nonneg {y : ℚ} (h : 0 ≤ y) : nearestInt y = ⌊y + 1 / 2⌋ := if_pos h

theorem nearestInt_add_natCast {y : ℚ} (h : 0 ≤ y) (n : ℕ) : nearestInt (n + y) = n + nearestInt y := by
  rw [nearestInt_of_nonneg h, nearestInt_of_nonneg (by positivity), add_assoc, Int.floor_natCast_add]

/-- The part of an amount below its unit. -/
def fraction (x : ℚ) : ℚ := |x| - ⌊|x|⌋₊

theorem fraction_nonneg (x : ℚ) : 0 ≤ fraction x := sub_nonneg.mpr (Nat.floor_le (abs_nonneg x))

theorem fraction_lt_one (x : ℚ) : fraction x < 1 := by
  have above := Nat.lt_floor_add_one |x|
  unfold fraction
  linarith

/-- The hundredths that the fraction is rounded to. -/
def hundredths (x : ℚ) : ℤ := nearestInt (fraction x * 100)

theorem hundredths_bounds (x : ℚ) :
    (hundredths x : ℚ) ≤ fraction x * 100 + 1 / 2 ∧ fraction x * 100 + 1 / 2 < hundredths x + 1 := by
  have nonneg := fraction_nonneg x
  rw [hundredths, nearestInt_of_nonneg (by positivity)]
  exact ⟨Int.floor_le _, Int.lt_floor_add_one _⟩

theorem hundredths_nonneg (x : ℚ) : 0 ≤ hundredths x := by
  have nonneg := fraction_nonneg x
  have above : ((-1 : ℤ) : ℚ) < hundredths x := by
    push_cast
    linarith [(hundredths_bounds x).2]
  have := Int.cast_lt.mp above
  omega

theorem hundredths_le (x : ℚ) : hundredths x ≤ 100 := by
  have below : (hundredths x : ℚ) < ((101 : ℤ) : ℚ) := by
    push_cast
    linarith [(hundredths_bounds x).1, fraction_lt_one x]
  have := Int.cast_lt.mp below
  omega

theorem hundredths_eq_iff (x : ℚ) : hundredths x = 100 ↔ 199 / 200 ≤ fraction x := by
  obtain ⟨low, high⟩ := hundredths_bounds x
  have le := hundredths_le x
  constructor
  · intro h
    rw [h] at low
    push_cast at low
    linarith
  · intro h
    have above : ((99 : ℤ) : ℚ) < hundredths x := by
      push_cast
      linarith
    have := Int.cast_lt.mp above
    omega

theorem hundredths_pos_iff (x : ℚ) : 0 < hundredths x ↔ 1 / 200 ≤ fraction x := by
  obtain ⟨low, high⟩ := hundredths_bounds x
  constructor
  · intro h
    have one : ((1 : ℤ) : ℚ) ≤ hundredths x := Int.cast_le.mpr h
    push_cast at one
    linarith
  · intro h
    have above : ((0 : ℤ) : ℚ) < hundredths x := by
      push_cast
      linarith
    exact Int.cast_lt.mp above

/-- An amount in hundredths is its whole part and the hundredths of its fraction. -/
theorem roundHalfUp_two (x : ℚ) :
    roundHalfUp 2 x = (if x < 0 then -1 else 1) * (⌊|x|⌋₊ + hundredths x / 100) := by
  have size : roundHalfUp 2 |x| = ⌊|x|⌋₊ + hundredths x / 100 := by
    have nonneg := fraction_nonneg x
    have split : |x| * 10 ^ 2 = ((⌊|x|⌋₊ * 100 : ℕ) : ℚ) + fraction x * 100 := by
      unfold fraction
      push_cast
      ring
    rw [roundHalfUp, split, nearestInt_add_natCast (by positivity), ← hundredths]
    push_cast
    ring
  split_ifs with negative
  · rw [← size, abs_of_neg negative, roundHalfUp_neg, neg_one_mul, neg_neg]
  · rw [← size, abs_of_nonneg (not_lt.mp negative), one_mul]

/-- The double nearest to the amount is past the amount's whole part. -/
def RoundsUp (x : ℚ) : Prop := ((⌊|x|⌋₊ + 1 : ℕ) : ℚ) ≤ |Binary64.nearest x|

instance (x : ℚ) : Decidable (RoundsUp x) := inferInstanceAs (Decidable (_ ≤ _))

/-- The whole part that the text is made with. -/
theorem intPart_eq {x : ℚ} (small : |x| < 2 ^ 53) :
    ⌊|Binary64.nearest x|⌋₊ = if RoundsUp x then ⌊|x|⌋₊ + 1 else ⌊|x|⌋₊ := by
  have floor : (⌊|x|⌋₊ : ℚ) ≤ |x| := Nat.floor_le (abs_nonneg x)
  have low : ⌊|x|⌋₊ ≤ ⌊|Binary64.nearest x|⌋₊ := Nat.le_floor (Binary64.le_abs_nearest floor small)
  have above : |x| ≤ ((⌊|x|⌋₊ + 1 : ℕ) : ℚ) := by
    push_cast
    exact (Nat.lt_floor_add_one |x|).le
  have high : ⌊|Binary64.nearest x|⌋₊ ≤ ⌊|x|⌋₊ + 1 := by
    have floors := Nat.floor_le_floor (Binary64.abs_nearest_le above small)
    rwa [Nat.floor_natCast] at floors
  split_ifs with up
  · exact le_antisymm high (Nat.le_floor up)
  · have below : ⌊|Binary64.nearest x|⌋₊ < ⌊|x|⌋₊ + 1 :=
      (Nat.floor_lt (abs_nonneg _)).mpr (not_le.mp up)
    omega

theorem foreignResult_words (cur : String) (x : ℚ) (p : ℕ) :
    (foreignResult (signText x) cur x p).words = signText x ++ " و ".intercalate
      (labelledTexts (formatCurrencyLabel cur) (subunitLabel cur) p
        (nearestInt ((|x| - p) * 100)).toNat) := by
  rw [← filter_labelled]
  unfold foreignResult
  dsimp only
  generalize nearestInt ((|x| - p) * 100) = cents
  by_cases positive : 0 < cents
  · rw [if_pos positive, if_pos (show 0 < cents.toNat by omega), Int.toNat_of_nonneg positive.le]
  · rw [if_neg positive, if_neg (show ¬0 < cents.toNat by omega)]

/-- The fraction carries into the whole part of the double exactly when it is rounded to a
whole. -/
def CarriesRight (x : ℚ) : Prop := RoundsUp x ↔ 199 / 200 ≤ fraction x

instance (x : ℚ) : Decidable (CarriesRight x) := inferInstanceAs (Decidable (_ ↔ _))

/-- A foreign amount's text. -/
theorem foreignResult_reads_iff {cur : String} (labels : Labels (formatCurrencyLabel cur) (subunitLabel cur))
    {x : ℚ} (small : |x| < 10 ^ 14) :
    ReadsAs (formatCurrencyLabel cur) (subunitLabel cur) 100
        (foreignResult (signText x) cur x ⌊|Binary64.nearest x|⌋₊).words (roundHalfUp 2 x) ↔
      1 / 200 ≤ |x| ∧ CarriesRight x := by
  have floor : (⌊|x|⌋₊ : ℚ) ≤ |x| := Nat.floor_le (abs_nonneg x)
  have whole : ⌊|x|⌋₊ < 10 ^ 14 := by
    have bound := floor.trans_lt small
    exact_mod_cast bound
  have sign : (if x < 0 then (-1 : ℚ) else 1) ≠ 0 := by split_ifs <;> norm_num
  have size : |x| = ⌊|x|⌋₊ + fraction x := by
    unfold fraction
    ring
  have nonneg := hundredths_nonneg x
  have le := hundredths_le x
  have full := hundredths_eq_iff x
  rw [foreignResult_words, roundHalfUp_two, intPart_eq (small.trans (by norm_num))]
  by_cases up : RoundsUp x
  · -- the text names the next whole number, and no cents
    have none_left : nearestInt ((|x| - (⌊|x|⌋₊ + 1 : ℕ)) * 100) ≤ 0 := by
      have below : (|x| - (⌊|x|⌋₊ + 1 : ℕ)) * 100 ≤ 0 := by
        push_cast
        linarith [Nat.lt_floor_add_one |x|]
      have mono := nearestInt_mono below
      rwa [← Int.cast_zero, nearestInt_intCast] at mono
    have read := readAmount_labelled labels (Or.inl (Nat.succ_pos ⌊|x|⌋₊)) (by omega)
      (show 0 < 10 ^ 18 by norm_num) (x < 0)
    rw [if_pos up, Int.toNat_of_nonpos none_left, signText]
    rw [readsAs_iff read, mul_right_inj' sign, CarriesRight, iff_true_left up, ← full]
    push_cast
    constructor
    · rintro ⟨-, same⟩
      have value : (hundredths x : ℚ) = (100 : ℤ) := by
        push_cast
        linarith
      have hundred : hundredths x = 100 := Int.cast_inj.mp value
      refine ⟨?_, hundred⟩
      have := full.mp hundred
      linarith [Nat.cast_nonneg (α := ℚ) ⌊|x|⌋₊]
    · rintro ⟨-, hundred⟩
      rw [hundred]
      norm_num
  · have cents : nearestInt ((|x| - ⌊|x|⌋₊) * 100) = hundredths x := rfl
    have count : ((hundredths x).toNat : ℤ) = hundredths x := Int.toNat_of_nonneg nonneg
    have countRat : (((hundredths x).toNat : ℕ) : ℚ) = hundredths x := by exact_mod_cast congrArg (Int.cast : ℤ → ℚ) count
    rw [if_neg up, cents, signText, CarriesRight, iff_false_left up, ← full]
    by_cases nothing : ⌊|x|⌋₊ = 0 ∧ hundredths x = 0
    · -- neither a unit nor a cent is named
      obtain ⟨noUnit, noCent⟩ := nothing
      have silent : ¬ 1 / 200 ≤ fraction x := by
        rw [← hundredths_pos_iff]
        omega
      have read : readAmount (formatCurrencyLabel cur) (subunitLabel cur)
          (if x < 0 then "منفی " else "") = none := by
        have sign := readAmount_sign labels (decide (x < 0))
        simpa only [decide_eq_true_eq] using sign
      have empty : " و ".intercalate
          (labelledTexts (formatCurrencyLabel cur) (subunitLabel cur) 0 0) = "" := rfl
      rw [noUnit, noCent, Int.toNat_zero, empty, String.append_empty, ReadsAs, read]
      refine iff_of_false id fun h => silent ?_
      rw [size, noUnit, Nat.cast_zero, zero_add] at h
      exact h.1
    · have nonzero : 0 < ⌊|x|⌋₊ ∨ 0 < (hundredths x).toNat := by omega
      have read := readAmount_labelled labels nonzero (by omega)
        (show (hundredths x).toNat < 10 ^ 18 by omega) (x < 0)
      have large : 1 / 200 ≤ |x| := by
        rcases nonzero with unit | cent
        · have one : (1 : ℚ) ≤ ⌊|x|⌋₊ := by exact_mod_cast unit
          linarith
        · have := (hundredths_pos_iff x).mp (by omega)
          linarith [Nat.cast_nonneg (α := ℚ) ⌊|x|⌋₊]
      rw [readsAs_iff read, mul_right_inj' sign, countRat, Nat.cast_ofNat]
      constructor
      · rintro ⟨few, -⟩
        exact ⟨large, by omega⟩
      · rintro ⟨-, few⟩
        exact ⟨by omega, rfl⟩

/-! ## Every amount -/

/-- The amounts whose text is right: every rial and toman amount, zero, and the others from
half a hundredth on whose double passes the next whole number exactly when the rounding to
hundredths does. -/
def Amount.Kept (a : Amount) : Prop :=
  IsRial a.cur ∨ IsToman a.cur ∨ a.value = 0 ∨ 1 / 200 ≤ |a.value| ∧ CarriesRight a.value

instance (a : Amount) : Decidable a.Kept := inferInstanceAs (Decidable (_ ∨ _))

/-- A text that is read makes the amount one in words, where the description is not empty
and the equivalent agrees. -/
theorem inWords_of_reads {a : Amount}
    (reads : ReadsAs (formatCurrencyLabel a.cur) (subunitLabel a.cur) 100 a.result.words a.rounded)
    (described : a.result.words ≠ "" → a.result.fullDescription ≠ "") (agrees : EquivalentAgrees a) :
    InWords a :=
  ⟨⟨reads.ne_empty a.labels, described (reads.ne_empty a.labels)⟩, reads, agrees⟩

theorem inWords_zero {a : Amount} (zero : a.value = 0) : InWords a := by
  have result : a.result =
      ⟨"صفر " ++ formatCurrencyLabel a.cur, "", "صفر " ++ formatCurrencyLabel a.cur⟩ := by
    rw [Amount.result, financialAmountToPersianWords, zero, Binary64.nearest_zero]
    exact if_pos rfl
  refine inWords_of_reads ?_ (fun h => ?_) (Or.inl ?_)
  · unfold ReadsAs
    rw [result, readAmount_zero a.labels, Amount.rounded, zero, roundHalfUp_zero]
    exact ⟨by norm_num, by norm_num [AmountRead.value]⟩
  · rwa [result] at h ⊢
  · rw [result]

theorem inWords_rial {a : Amount} (rial : IsRial a.cur) (nonzero : a.value ≠ 0) : InWords a := by
  obtain ⟨whole, small⟩ : AtScale 0 a.value ∧ |a.value| < 2 ^ 53 := by
    have admitted := a.admitted
    rwa [Admitted, if_pos (show IsRial (currencyCode a.currency) from rial)] at admitted
  have label : formatCurrencyLabel a.cur = "ریال" := if_pos (Or.inr rial)
  have labels := a.labels
  have same := whole_amount whole small
  have rounded : a.rounded = a.value := by
    rw [Amount.rounded, Amount.decimals, if_pos (Or.inl rial), roundHalfUp_of_atScale whole]
  rw [label] at labels
  obtain ⟨reads, equivalent⟩ :=
    rialResult_reads labels (pos_of_abs same nonzero) (lt_of_abs same small) same
  have result : a.result = rialResult (signText a.value) ⌊|Binary64.nearest a.value|⌋₊ := by
    rw [result_of_ne_zero nonzero, if_pos rial]
  refine inWords_of_reads ?_ (fun h => ?_) ?_
  · rw [result, label, rounded]
    exact reads
  · rw [result] at h ⊢
    unfold rialResult at h ⊢
    dsimp only at h ⊢
    split_ifs <;> simp
  · rw [EquivalentAgrees, if_pos rial, result]
    exact equivalent

theorem inWords_toman {a : Amount} (notRial : ¬IsRial a.cur) (toman : IsToman a.cur)
    (nonzero : a.value ≠ 0) : InWords a := by
  obtain ⟨whole, small⟩ : AtScale 0 a.value ∧ 10 * |a.value| < 2 ^ 53 := by
    have admitted := a.admitted
    rwa [Admitted, if_neg (show ¬IsRial (currencyCode a.currency) from notRial),
      if_pos (show IsToman (currencyCode a.currency) from toman)] at admitted
  have label : formatCurrencyLabel a.cur = "تومان" := by
    rcases toman with same | same <;> rw [same] <;> rfl
  have labels := a.labels
  have same := whole_amount whole a.small
  have tens : 10 * ⌊|Binary64.nearest a.value|⌋₊ < 2 ^ 53 := by
    rw [← same] at small
    exact_mod_cast small
  have rounded : a.rounded = a.value := by
    rw [Amount.rounded, Amount.decimals, if_pos (Or.inr toman), roundHalfUp_of_atScale whole]
  rw [label] at labels
  obtain ⟨reads, equivalent⟩ := tomanResult_reads labels (pos_of_abs same nonzero) tens same
  have result : a.result = tomanResult (signText a.value) ⌊|Binary64.nearest a.value|⌋₊ := by
    rw [result_of_ne_zero nonzero, if_neg notRial, if_pos toman]
  refine inWords_of_reads ?_ (fun _ => ?_) ?_
  · rw [result, label, rounded]
    exact reads
  · rw [result]
    simp [tomanResult]
  · rw [EquivalentAgrees, if_neg notRial, result]
    exact Or.inr equivalent

theorem inWords_foreign_iff {a : Amount} (notRial : ¬IsRial a.cur) (notToman : ¬IsToman a.cur)
    (nonzero : a.value ≠ 0) : InWords a ↔ 1 / 200 ≤ |a.value| ∧ CarriesRight a.value := by
  have small : |a.value| < 10 ^ 14 := by
    have admitted := a.admitted
    rw [Admitted, if_neg (show ¬IsRial (currencyCode a.currency) from notRial),
      if_neg (show ¬IsToman (currencyCode a.currency) from notToman)] at admitted
    exact admitted.2
  have result : a.result =
      foreignResult (signText a.value) a.cur a.value ⌊|Binary64.nearest a.value|⌋₊ := by
    rw [result_of_ne_zero nonzero, if_neg notRial, if_neg notToman]
  have rounded : a.rounded = roundHalfUp 2 a.value := by
    rw [Amount.rounded, Amount.decimals, if_neg (not_or.mpr ⟨notRial, notToman⟩)]
  have iff := foreignResult_reads_iff a.labels small
  rw [← result, ← rounded] at iff
  rw [← iff]
  refine ⟨InWords.reads, fun reads => inWords_of_reads reads (fun h => ?_) (Or.inl ?_)⟩
  · rw [result] at h ⊢
    exact h
  · rw [result]
    rfl

theorem inWords_iff (a : Amount) : InWords a ↔ a.Kept := by
  unfold Amount.Kept
  by_cases zero : a.value = 0
  · exact iff_of_true (inWords_zero zero) (Or.inr (Or.inr (Or.inl zero)))
  · by_cases rial : IsRial a.cur
    · exact iff_of_true (inWords_rial rial zero) (Or.inl rial)
    · by_cases toman : IsToman a.cur
      · exact iff_of_true (inWords_toman rial toman zero) (Or.inr (Or.inl toman))
      · rw [inWords_foreign_iff rial toman zero, or_iff_right rial, or_iff_right toman,
          or_iff_right zero]

theorem ReadsAs.unique {unit part : String} {parts : ℕ} {text : String} {x y : ℚ}
    (hx : ReadsAs unit part parts text x) (hy : ReadsAs unit part parts text y) : x = y := by
  unfold ReadsAs at hx hy
  cases read : readAmount unit part text with
  | none =>
    rw [read] at hx
    exact hx.elim
  | some r =>
    rw [read] at hx hy
    exact hx.2.symm.trans hy.2

/-- The text of an amount is right exactly for the amounts that are kept; of these, the ones
that differ in their currency's smallest unit have different texts. The words of an integer
read back exactly below 10^18, where different integers have different words. -/
theorem amount_in_words (a : Amount) :
    (InWords a ↔ a.Kept) ∧
      (∀ b : Amount, a.Kept → b.Kept → a.cur = b.cur → a.rounded ≠ b.rounded →
        a.result.words ≠ b.result.words) ∧
      (∀ n : ℤ, readInteger (numberToPersianWords n) = n ↔ n.natAbs < 10 ^ 18) ∧
      ∀ m n : ℤ, m.natAbs < 10 ^ 18 → n.natAbs < 10 ^ 18 → m ≠ n →
        numberToPersianWords m ≠ numberToPersianWords n := by
  refine ⟨inWords_iff a, fun b ha hb cur differ same => ?_, readInteger_eq_iff,
    fun m n hm hn differ same => ?_⟩
  · have readsA := ((inWords_iff a).mpr ha).reads
    have readsB := ((inWords_iff b).mpr hb).reads
    rw [cur, same] at readsA
    exact differ (readsA.unique readsB)
  · refine differ ?_
    rw [← (readInteger_eq_iff m).mpr hm, same, (readInteger_eq_iff n).mpr hn]

/-- 12.995 dollars. -/
def twelveDollars : Amount where
  value := 12995 / 1000
  currency := "USD"
  code := by decide +kernel
  admitted := by
    have cur : currencyCode "USD" = "USD" := by decide +kernel
    rw [cur, Admitted, if_neg (by decide +kernel), if_neg (by decide +kernel)]
    exact ⟨⟨129950, by norm_num⟩, by norm_num [abs_of_pos]⟩

/-- The cents of 12.995 dollars are a hundred, and are not carried to the dollars. -/
theorem a_hundred_cents :
    twelveDollars.result.words = "دوازده دلار و صد سنت" ∧ ¬InWords twelveDollars := by
  have words : twelveDollars.result.words = "دوازده دلار و صد سنت" := by decide +kernel
  refine ⟨words, fun h => ?_⟩
  have reads := h.reads
  rw [words] at reads
  revert reads
  decide +kernel

end PapitalErp.AmountInWords
