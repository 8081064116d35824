import PapitalErp.Lib.Binary64
import PapitalErp.Lib.TextPatterns

/-!
# Texts of numbers

What a number field shows for a decimal text, and how a typed text is read in the browser
and on the server. A text is the list of its characters. The rules of a field are what
`ruleNumber` and `stepScale` make of them, and how a number is written in an error's text is
a parameter.
-/

namespace PapitalErp.NumberTexts

open TextPatterns RegularExpression

/-! ## Characters -/

def digits : List Char := "0123456789".toList

def persianDigits : List Char := "۰۱۲۳۴۵۶۷۸۹".toList

def arabicDigits : List Char := "٠١٢٣٤٥٦٧٨٩".toList

/-- The Latin digit of a Persian or an Arabic one. -/
def latinDigit (c : Char) : Char :=
  (((persianDigits ++ arabicDigits).zip (digits ++ digits)).lookup c).getD c

def toLatinDigits (value : List Char) : List Char := value.map latinDigit

/-- `٫` as a point. -/
def decimalSign (c : Char) : Char := if c = '٫' then '.' else c

/-- `GROUP_SEPARATOR`. -/
def separators : List Char := [',', '٬', '،']

/-- `\s`. -/
def whitespace : List Char :=
  ['\t', '\n', '\x0b', '\x0c', '\r', ' ', '\u00a0', '\u1680', '\u2000', '\u2001', '\u2002',
    '\u2003', '\u2004', '\u2005', '\u2006', '\u2007', '\u2008', '\u2009', '\u200a', '\u2028',
    '\u2029', '\u202f', '\u205f', '\u3000', '\ufeff']

/-- `INVISIBLE`. -/
def invisible : List Char := whitespace ++ ['\u200c', '\u200e', '\u200f']

def trim (s : List Char) : List Char :=
  (s.dropWhile (· ∈ whitespace)).rdropWhile (· ∈ whitespace)

/-! ## Patterns -/

/-- `^-?\d*(\.\d*)?$` -/
def decimalText : RegularExpression Char :=
  maybe (char '-') * ((anyOf digits).star * maybe (char '.' * (anyOf digits).star))

/-- `^-?\.?$` -/
def partialPattern : RegularExpression Char := maybe (char '-') * maybe (char '.')

/-- `^-?\d+(\.\d+)?$` -/
def decimalPattern : RegularExpression Char :=
  maybe (char '-') * (oneOrMore (anyOf digits) * maybe (char '.' * oneOrMore (anyOf digits)))

/-- `[,٬،]\d{3}` -/
def group : RegularExpression Char :=
  anyOf separators * (anyOf digits * (anyOf digits * anyOf digits))

/-- `^-?0*[1-9]\d{0,2}([,٬،]\d{3})+(\.\d*)?$` -/
def groupedText : RegularExpression Char :=
  maybe (char '-') * ((anyOf ['0']).star * (anyOf digits.tail *
    (maybe (anyOf digits * maybe (anyOf digits)) * (oneOrMore group *
      maybe (char '.' * (anyOf digits).star)))))

def HasSeparator (s : List Char) : Prop := ∃ c ∈ s, c ∈ separators

instance (s : List Char) : Decidable (HasSeparator s) := inferInstanceAs (Decidable (∃ _ ∈ _, _))

/-! ## The server -/

def normalizeDecimalString (value : List Char) : List Char :=
  trim (((toLatinDigits value).map decimalSign).filter fun c => c ∉ separators ++ invisible)

/-- Latin digits and points, without spaces and marks. -/
def cleaned (value : List Char) : List Char :=
  ((toLatinDigits value).map decimalSign).filter fun c => c ∉ invisible

def normalizeGroupedDecimalString (value : List Char) : List Char :=
  let text := cleaned value
  if HasSeparator text ∧ ¬Fits groupedText text then text else normalizeDecimalString text

/-- The value that a route takes, where the text has `DECIMAL_PATTERN`. -/
def readOnServer (value : List Char) : Option (List Char) :=
  let clean := normalizeGroupedDecimalString value
  if Fits decimalPattern clean then some clean else none

/-! ## The browser -/

/-- `.replace(/(\d)\/(?=\d|$)/, '$1.')`: the first one only. -/
def firstSlash : List Char → List Char
  | [] => []
  | a :: rest =>
    match rest with
    | '/' :: after =>
      if a ∈ digits ∧ (∀ c ∈ after.head?, c ∈ digits) then a :: '.' :: after else a :: firstSlash rest
    | _ => a :: firstSlash rest

def separatorError : String :=
  "جداکنندهٔ هزارگان فقط میان دسته‌های سه‌رقمی می‌آید؛ برای ممیز «٫» یا «/» بزنید."

/-- `canonicalText`. -/
def canonicalText (raw : List Char) : Except String (List Char) :=
  let text := firstSlash (cleaned raw)
  if ¬HasSeparator text then .ok text
  else if ¬Fits groupedText text then .error separatorError
  else .ok (normalizeDecimalString text)

/-- `text.split('.')`, its first two. -/
def splitPoint (text : List Char) : List Char × Option (List Char) :=
  (text.takeWhile (· ≠ '.'), ((text.dropWhile (· ≠ '.')).tail?).map (·.takeWhile (· ≠ '.')))

def digitsValue (s : List Char) : ℕ := s.foldl (fun n c => 10 * n + (c.toNat - '0'.toNat)) 0

/-- `Number(text)` of a decimal text that is not a sign or a point alone. -/
def numberOf (text : List Char) : ℚ :=
  let sign := if text.head? = some '-' then ['-'] else []
  let parts := splitPoint (text.drop sign.length)
  let fraction := parts.2.getD []
  let size := (digitsValue parts.1 : ℚ) + digitsValue fraction / 10 ^ fraction.length
  Binary64.nearest (if sign = [] then size else -size)

structure DecimalInputRules where
  min : Option ℚ
  max : Option ℚ
  scale : Option ℕ

/-- What a number field makes of a text; `unfinished` is the kind `partial`. -/
inductive DecimalInputRead
  | value (text : List Char) (rangeError : Option String)
  | unfinished
  | invalid (error : String)

section

variable (formatPersianNumber : ℚ → ℕ → String)

def rangeError (rules : DecimalInputRules) (text : List Char) : Option String :=
  let value := numberOf text
  let fraction := (splitPoint text).2.getD []
  if rules.scale.any (· < fraction.length) then
    some (if rules.scale = some 0 then "این عدد اعشار ندارد."
      else "حداکثر " ++ formatPersianNumber (rules.scale.getD 0) 2 ++ " رقم اعشار پذیرفته است.")
  else if rules.min.any (value < ·) then
    some ("کمتر از " ++ formatPersianNumber (rules.min.getD 0) 6 ++ " نباشد.")
  else if rules.max.any (· < value) then
    some ("بیشتر از " ++ formatPersianNumber (rules.max.getD 0) 6 ++ " نباشد.")
  else none

/-- The reading of a canonical text, or of the error in its place. -/
def readCanonical (rules : DecimalInputRules) : Except String (List Char) → DecimalInputRead
  | .error error => .invalid error
  | .ok text =>
    if text = [] then .value [] none
    else if Fits partialPattern text then .unfinished
    else if ¬Fits decimalText text then .invalid "فقط رقم و ممیز پذیرفته می‌شود."
    else if text.head? = some '-' ∧ rules.min.any (0 ≤ ·) then .invalid "عدد منفی پذیرفته نیست."
    else .value text (rangeError formatPersianNumber rules text)

def readDecimalInputText (raw : List Char) (rules : DecimalInputRules) : DecimalInputRead :=
  readCanonical formatPersianNumber rules (canonicalText raw)

end

/-! ## What a field shows -/

/-- `persianDigitsOf`, of one character. -/
def persianDigit (c : Char) : Char := ((digits.zip persianDigits).lookup c).getD c

def persianDigitsOf (text : List Char) : List Char := text.map persianDigit

/-- `/^0+(?=\d)/`: the zeros that a digit follows. -/
def leadingZeros (intPart : List Char) : List Char :=
  let zeros := intPart.takeWhile (· = '0')
  if (intPart.dropWhile (· = '0')).head?.any (· ∈ digits) then zeros else zeros.dropLast

/-- `.replace(/\B(?=(\d{3})+(?!\d))/g, '٬')`, of digits. -/
def groupThousands : List Char → List Char
  | [] => []
  | d :: rest =>
    if rest ≠ [] ∧ rest.length % 3 = 0 then d :: '٬' :: groupThousands rest
    else d :: groupThousands rest

/-- A sign before a fraction's digits, where there is a fraction. -/
def fractionText (mark : Char) : Option (List Char) → List Char
  | none => []
  | some fraction => mark :: fraction

def persianNumberText (text : List Char) (grouped : Bool) : List Char :=
  let sign := if text.head? = some '-' then ['-'] else []
  let parts := splitPoint (text.drop sign.length)
  let zeros := leadingZeros parts.1
  let rest := parts.1.drop zeros.length
  let integer := if grouped then zeros ++ groupThousands rest else parts.1
  persianDigitsOf (sign ++ integer ++ fractionText '٫' parts.2)

/-- A canonical text as it is shown; any other text is shown as it was typed. -/
def displayCanonical (text : List Char) (grouped : Bool) : Except String (List Char) → List Char
  | .error _ => persianDigitsOf text
  | .ok canonical =>
    if ¬Fits decimalText canonical then persianDigitsOf text else persianNumberText canonical grouped

def decimalDisplayText (text : List Char) (grouped : Bool) : List Char :=
  displayCanonical text grouped (canonicalText text)

end PapitalErp.NumberTexts
