import PapitalErp.Lib.JoinedTexts
import PapitalErp.Workflow.Delegation

/-!
# The address check of outgoing calls

The guard of the webhooks refuses a host that is a private or reserved address. An IPv6 address is expanded
to its eight words, with `::` anywhere and with a dotted IPv4 suffix, and the verdict is taken on the words.

Texts are lists of characters and numbers are exact. The platform recognises addresses: `net.isIPv4` is true
of four decimal octets without leading zeros and `net.isIPv6` of the text forms of RFC 4291. The conversion
to lower case is the platform's too; on ASCII text it is that of ASCII.
-/

namespace PapitalErp.SsrfGuard

open JoinedTexts TrimmedText

abbrev Text := List Char

/-! ## Numbers in texts -/

def isHexDigit (c : Char) : Bool :=
  c.isDigit || ('a' ≤ c && c ≤ 'f') || ('A' ≤ c && c ≤ 'F')

def hexValue (c : Char) : ℕ :=
  if c.isDigit then c.toNat - '0'.toNat
  else if 'a' ≤ c then c.toNat - 'a'.toNat + 10 else c.toNat - 'A'.toNat + 10

def hexNumber (digits : Text) : ℕ := digits.foldl (fun n c => 16 * n + hexValue c) 0

/-- Whether a number has a minus sign, and the rest of it. -/
def signOf : Text → Bool × Text
  | '-' :: rest => (true, rest)
  | '+' :: rest => (false, rest)
  | s => (false, s)

def withoutPrefix : Text → Text
  | '0' :: 'x' :: rest => rest
  | '0' :: 'X' :: rest => rest
  | s => s

/-- `parseInt(p, 16)`; `none` is `NaN`. -/
def parseInt16 (p : Text) : Option ℤ :=
  let signed := signOf (p.dropWhile isJsBlank)
  let digits := (withoutPrefix signed.2).takeWhile isHexDigit
  if digits = [] then none else some (if signed.1 then -hexNumber digits else hexNumber digits)

/-- `Number` of decimal digits. -/
def number (p : Text) : ℕ := Nat.ofDigitChars 10 p 0

/-- `\d{1,3}` -/
def isShortNumber (p : Text) : Bool := 1 ≤ p.length && p.length ≤ 3 && p.all Char.isDigit

/-! ## The verdict -/

def isPrivateOrReservedIPv4 (a b c _d : ℕ) : Bool :=
  a == 0 || a == 10 || (a == 100 && 64 ≤ b && b ≤ 127) || a == 127 || (a == 169 && b == 254) ||
    (a == 172 && 16 ≤ b && b ≤ 31) || (a == 192 && b == 0 && c == 0) || (a == 192 && b == 0 && c == 2) ||
    (a == 192 && b == 88 && c == 99) || (a == 192 && b == 168) || (a == 198 && (b == 18 || b == 19)) ||
    (a == 198 && b == 51 && c == 100) || (a == 203 && b == 0 && c == 113) || (224 ≤ a && a ≤ 239) || 240 ≤ a

/-- `(w >> 8) & 0xff` and `w & 0xff` of two words, as an IPv4 address. -/
def isPrivateOrReservedTail (high low : ℤ) : Bool :=
  isPrivateOrReservedIPv4 (high / 256 % 256).toNat (high % 256).toNat (low / 256 % 256).toNat (low % 256).toNat

/-- A test of the top bits of the low half: `(w & mask) === value` for `mask` of the bits from `bit` on. -/
def hasTop (bit : ℕ) (value w : ℤ) : Bool := w % 65536 / 2 ^ bit * 2 ^ bit == value

def isPrivateOrReservedIPv6Words (w : List ℤ) : Bool :=
  match w with
  | [w0, w1, w2, w3, w4, w5, w6, w7] =>
      let five := w0 == 0 && w1 == 0 && w2 == 0 && w3 == 0 && w4 == 0
      if five && w5 == 0 && w6 == 0 && w7 == 1 then true
      else if five && w5 == 0 && w6 == 0 && w7 == 0 then true
      else if five && w5 == 0xffff then isPrivateOrReservedTail w6 w7
      else if five && w5 == 0 && (w6 != 0 || 1 < w7) then isPrivateOrReservedTail w6 w7
      else if w0 == 0x0064 && w1 == 0xff9b && w2 == 0 && w3 == 0 && w4 == 0 && w5 == 0 then
        isPrivateOrReservedTail w6 w7
      else if w0 == 0x2002 then isPrivateOrReservedTail w1 w2
      else if hasTop 9 0xfc00 w0 then true
      else if hasTop 6 0xfe80 w0 then true
      else if hasTop 6 0xfec0 w0 then true
      else if hasTop 8 0xff00 w0 then true
      else if w0 == 0x2001 && w1 == 0x0db8 then true
      else w0 == 0x0100 && w1 == 0 && w2 == 0 && w3 == 0
  | _ => true

/-! ## Addresses as texts -/

/-- Four decimal octets. -/
structure Octets where
  a : Fin 256
  b : Fin 256
  c : Fin 256
  d : Fin 256

def Octets.text (v4 : Octets) : Text :=
  join '.' ([v4.a, v4.b, v4.c, v4.d].map fun octet : Fin 256 => Nat.toDigits 10 octet)

/-- A group of one to four hexadecimal digits of either case. -/
structure Group where
  digits : Text
  short : 1 ≤ digits.length ∧ digits.length ≤ 4
  hex : ∀ c ∈ digits, isHexDigit c = true

/-- The end of an address: groups and perhaps a dotted IPv4 address for the last two words. -/
structure Suffix where
  groups : List Group
  dotted : Option Octets

def Suffix.pieces (suffix : Suffix) : List Text :=
  suffix.groups.map Group.digits ++ (suffix.dotted.map Octets.text).toList

def Octets.words (v4 : Octets) : List ℤ := [(v4.a * 256 + v4.b : ℕ), (v4.c * 256 + v4.d : ℕ)]

def Suffix.words (suffix : Suffix) : List ℤ :=
  suffix.groups.map (fun group => (hexNumber group.digits : ℤ)) ++ (suffix.dotted.map Octets.words).getD []

/-- The text forms of RFC 4291: eight words, or fewer with `::` for the zeros between. -/
inductive AddressForm where
  | full (suffix : Suffix) (eight : suffix.words.length = 8)
  | compressed (left : List Group) (right : Suffix) (fewer : left.length + right.words.length ≤ 7)

def AddressForm.text : AddressForm → Text
  | .full suffix _ => join ':' suffix.pieces
  | .compressed left right _ => join ':' (left.map Group.digits) ++ ':' :: ':' :: join ':' right.pieces

/-- The eight words of the address. -/
def AddressForm.words : AddressForm → List ℤ
  | .full suffix _ => suffix.words
  | .compressed left right _ =>
      left.map (fun group => (hexNumber group.digits : ℤ)) ++
        List.replicate (8 - (left.length + right.words.length)) 0 ++ right.words

/-! ## The guard -/

/-- What the platform recognises. -/
structure Net where
  toLowerCase : Text → Text
  isIPv4 : Text → Bool
  isIPv6 : Text → Bool
  lower_ascii : ∀ s : Text, (∀ c ∈ s, c.toNat < 128) → toLowerCase s = s.map Char.toLower
  isIPv4_iff : ∀ s, isIPv4 s = true ↔ ∃ v4 : Octets, s = v4.text
  isIPv6_iff : ∀ s, isIPv6 s = true ↔ ∃ form : AddressForm, s = form.text

/-- The octets of `/:(\d{1,3}\.\d{1,3}\.\d{1,3}\.\d{1,3})$/`, which has to follow the last colon. -/
def v4Match (clean : Text) : Option (List ℕ) :=
  let parts := (afterLast ':' clean).splitOn '.'
  if throughLast ':' clean ≠ [] ∧ parts.length = 4 ∧ parts.all isShortNumber then some (parts.map number) else none

/-- A text with its dotted suffix as two groups. -/
def undotted (clean : Text) : Text :=
  match v4Match clean with
  | some [a, b, c, d] =>
      if a ≤ 255 ∧ b ≤ 255 ∧ c ≤ 255 ∧ d ≤ 255 then
        throughLast ':' clean ++ Nat.toDigits 16 (a * 256 + b) ++ ':' :: Nat.toDigits 16 (c * 256 + d)
      else clean
  | _ => clean

/-- The groups of a part and their numbers. -/
def groupsOf (part : Text) : List Text := (part.splitOn ':').filter (· ≠ [])

def wordOf (p : Text) : ℤ := (parseInt16 p).getD 0

variable (net : Net)

/-- The words of a text without a dotted suffix. -/
def wordsOf (clean : Text) : List ℤ :=
  match splitTwice ':' clean with
  | [left, right] =>
      let zeros := List.replicate (8 - ((groupsOf left).length + (groupsOf right).length)) ['0']
      (groupsOf left ++ zeros ++ groupsOf right).map wordOf
  | parts => (groupsOf (parts.headD [])).map wordOf

def expandIPv6 (ip : Text) : List ℤ := wordsOf (undotted (trimEnds isJsBlank (net.toLowerCase ip)))

/-- `replace(/^\[|\]$/g, '')` -/
def stripBrackets (s : Text) : Text :=
  let s := match s with
    | '[' :: rest => rest
    | _ => s
  if s.getLast? = some ']' then s.dropLast else s

def startsWith (start : String) (s : Text) : Bool := start.toList.isPrefixOf s

def endsWith (ending : String) (s : Text) : Bool := ending.toList.isSuffixOf s

/-- The patterns of the fallback, those with the flag `i` on the lower-case text. -/
def PRIVATE_IP_PATTERNS : List (Text → Bool) :=
  [startsWith "10."] ++ (List.range' 16 16).map (fun n => startsWith ("172." ++ toString n ++ ".")) ++
    [startsWith "192.168.", startsWith "127.", startsWith "169.254."] ++
    (List.range' 64 64).map (fun n => startsWith ("100." ++ toString n ++ ".")) ++
    [startsWith "0.", fun s => s == "::1".toList] ++
    [startsWith "fe80:", startsWith "fc00:", startsWith "fd", fun s => s == "localhost".toList,
      fun s => s == "metadata.google.internal".toList].map (fun pattern s => pattern (s.map Char.toLower))

def isPrivateOrReservedIp (rawHostOrIp : Text) : Bool :=
  if rawHostOrIp = [] then true
  else
    let clean := stripBrackets (net.toLowerCase (trimEnds isJsBlank rawHostOrIp))
    if clean == "localhost".toList || clean == "metadata.google.internal".toList || endsWith ".localhost" clean ||
        endsWith ".internal" clean || endsWith ".local" clean then true
    else if net.isIPv4 clean then
      match (clean.splitOn '.').map number with
      | [a, b, c, d] =>
          if a ≤ 255 ∧ b ≤ 255 ∧ c ≤ 255 ∧ d ≤ 255 then isPrivateOrReservedIPv4 a b c d else true
      | _ => true
    else if net.isIPv6 clean && (expandIPv6 net clean).length == 8 then
      isPrivateOrReservedIPv6Words (expandIPv6 net clean)
    else PRIVATE_IP_PATTERNS.any fun pattern => pattern clean

end PapitalErp.SsrfGuard
