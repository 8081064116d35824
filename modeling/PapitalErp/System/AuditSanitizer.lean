import Mathlib.Data.List.Infix
import PapitalErp.Lib.Json
import PapitalErp.Lib.TrimmedText

/-!
# The audit sanitizer

Before details are written to the audit log, texts and objects under secret keys are
replaced, tokens in texts are replaced, and card, account and Sheba numbers are masked
down to their last four digits. Keys are recognised by parts of their normalised name.

Details are JSON values here, so no object is met twice and the set of objects seen,
which stops a circular one, has no part. How a key is lowered and how a number is
written are parameters.
-/

namespace PapitalErp.AuditSanitizer

open JsonValue

/-- `toLowerCase` and `String` of a number. -/
structure AuditText (N : Type) where
  toLowerCase : String → String
  numberText : N → String

def SECRET_KEY_PARTS : List String :=
  ["password", "passwd", "secret", "token", "apikey", "cookie", "jwt", "authorization", "privatekey"]
def SECRET_KEYS : List String := ["pass", "pwd", "cvv", "cvv2", "ssn"]
def BANK_NUMBER_KEY_PARTS : List String :=
  ["cardnumber", "cardno", "creditcard", "bankcard", "sheba", "shaba", "iban", "accountnumber",
    "accountno"]
def BANK_NUMBER_KEYS : List String := ["card", "cards"]

/-! ## Texts -/

/-- What `trim` removes and `\s` matches. -/
def isBlank (c : Char) : Bool :=
  c.toNat ∈ [0x09, 0x0A, 0x0B, 0x0C, 0x0D, 0x20, 0xA0, 0x1680, 0x2028, 0x2029, 0x202F, 0x205F, 0x3000,
    0xFEFF] || (0x2000 ≤ c.toNat && c.toNat ≤ 0x200A)

/-- `[A-Za-z0-9-_=]` -/
def isTokenChar (c : Char) : Bool := c.isAlphanum || c = '-' || c = '_' || c = '='

/-- `[A-Za-z0-9-_.+/=]` -/
def isSignatureChar (c : Char) : Bool := isTokenChar c || c = '.' || c = '+' || c = '/'

/-- `[A-Za-z0-9-_=]+\.[A-Za-z0-9-_=]+\.?[A-Za-z0-9-_.+/=]*`: the last two parts together
take any signature characters. -/
def isTokenBody (text : List Char) : Bool :=
  let first := text.takeWhile isTokenChar
  match text.dropWhile isTokenChar with
  | '.' :: c :: rest => !first.isEmpty && isTokenChar c && rest.all isSignatureChar
  | _ => false

/-- The text begins with `start` in any case; what follows it. -/
def afterStart (start : List Char) (text : List Char) : Option (List Char) :=
  if (text.take start.length).map Char.toLower = start then some (text.drop start.length) else none

/-- `^Bearer\s+…$` -/
def isBearer (text : List Char) : Bool :=
  match afterStart "bearer".toList text with
  | none => false
  | some rest => !(rest.takeWhile isBlank).isEmpty && isTokenBody (rest.dropWhile isBlank)

/-- `^eyJ…$` -/
def isJwt (text : List Char) : Bool :=
  match afterStart "eyj".toList text with
  | none => false
  | some rest => isTokenBody rest

/-- What stands for a token text in the log, for a text that is one. -/
def tokenMask (s : String) : Option String :=
  let text := TrimmedText.trimEnds isBlank s.toList
  if isBearer text then some "Bearer [PROTECTED_JWT]"
  else if isJwt text then some "[PROTECTED_JWT]"
  else none

def sanitizeText (s : String) : String := (tokenMask s).getD s

/-- `toEnglishDigits` of one character. -/
def englishDigit (c : Char) : Char :=
  if 0x6F0 ≤ c.toNat ∧ c.toNat ≤ 0x6F9 then Char.ofNat (c.toNat - 0x6F0 + 0x30)
  else if 0x660 ≤ c.toNat ∧ c.toNat ≤ 0x669 then Char.ofNat (c.toNat - 0x660 + 0x30)
  else c

/-- The digits of a text. -/
def digitsOf (text : List Char) : List Char := (text.map englishDigit).filter Char.isDigit

/-- `^\*+\d{0,4}$` -/
def isMasked (text : List Char) : Bool :=
  let rest := text.dropWhile (· = '*')
  !(text.takeWhile (· = '*')).isEmpty && rest.all Char.isDigit && rest.length ≤ 4

/-- Four stars and the last four digits; a text without digits and a masked one stay. -/
def maskBankNumber (s : String) : String :=
  if isMasked s.toList then s
  else
    let digits := digitsOf s.toList
    if digits = [] then s
    else if digits.length ≤ 4 then "****"
    else "****" ++ String.ofList (digits.drop (digits.length - 4))

section Values

variable {N : Type} (text : AuditText N)

def normalizedKey (key : String) : String :=
  String.ofList ((text.toLowerCase key).toList.filter fun c => c.isLower || c.isDigit)

def hasPart (parts : List String) (key : String) : Bool :=
  parts.any fun part => decide (part.toList <:+: key.toList)

def isSecretAuditKey (key : String) : Bool :=
  normalizedKey text key ∈ SECRET_KEYS || hasPart SECRET_KEY_PARTS (normalizedKey text key)

def isBankNumberAuditKey (key : String) : Bool :=
  normalizedKey text key ∈ BANK_NUMBER_KEYS || hasPart BANK_NUMBER_KEY_PARTS (normalizedKey text key)

/-- A text or an object, lists included. -/
def isTextOrObject : JsonValue N → Bool
  | .str _ => true
  | .arr _ => true
  | .obj _ => true
  | _ => false

/-- The value of a secret key. -/
def protect (value : JsonValue N) : JsonValue N :=
  if isTextOrObject value then .str "[PROTECTED]" else value

/-- `sanitizeAuditValue`, the value masked as a bank number and sanitized in hand. -/
def auditValue (key : String) (value masked sanitized : JsonValue N) : JsonValue N :=
  if isSecretAuditKey text key then protect value
  else if isBankNumberAuditKey text key then masked
  else sanitized

def maxDepthReached : JsonValue N := .str "[MAX_DEPTH_REACHED]"

/-- A value other than null, below the depth limit. -/
def withinDepth (depth : ℕ) (sanitized : JsonValue N) : JsonValue N :=
  if 6 < depth then maxDepthReached else sanitized

mutual

def sanitizeSensitiveData (depth : ℕ) : JsonValue N → JsonValue N
  | .null => .null
  | .bool b => withinDepth depth (.bool b)
  | .num n => withinDepth depth (.num n)
  | .str s => withinDepth depth (.str (sanitizeText s))
  | .arr items => withinDepth depth (.arr (sanitizeItems (depth + 1) items))
  | .obj members => withinDepth depth (.obj (sanitizeMembers depth members))

def sanitizeItems (depth : ℕ) : List (JsonValue N) → List (JsonValue N)
  | [] => []
  | item :: rest => sanitizeSensitiveData depth item :: sanitizeItems depth rest

/-- The members of an object; assigning to `__proto__` makes no member. -/
def sanitizeMembers (depth : ℕ) : List (String × JsonValue N) → List (String × JsonValue N)
  | [] => []
  | (key, value) :: rest =>
      if key = "__proto__" then sanitizeMembers depth rest
      else
        (key, auditValue text key value (maskBankNumbersDeep depth value)
          (sanitizeSensitiveData (depth + 1) value)) :: sanitizeMembers depth rest

/-- A value under a bank-number key. Other than texts, numbers and lists it is
sanitized as any value is. -/
def maskBankNumbersDeep (depth : ℕ) : JsonValue N → JsonValue N
  | .str s => .str (maskBankNumber s)
  | .num n => .str (maskBankNumber (text.numberText n))
  | .arr items => .arr (maskItems (depth + 1) items)
  | .null => .null
  | .bool b => withinDepth (depth + 1) (.bool b)
  | .obj members => withinDepth (depth + 1) (.obj (sanitizeMembers (depth + 1) members))

def maskItems (depth : ℕ) : List (JsonValue N) → List (JsonValue N)
  | [] => []
  | item :: rest => maskBankNumbersDeep depth item :: maskItems depth rest

end

def sanitizeAuditValue (key : String) (value : JsonValue N) (depth : ℕ) : JsonValue N :=
  auditValue text key value (maskBankNumbersDeep text depth value)
    (sanitizeSensitiveData text (depth + 1) value)

end Values

end PapitalErp.AuditSanitizer
