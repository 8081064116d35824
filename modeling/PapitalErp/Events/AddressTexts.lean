import PapitalErp.Events.SsrfGuard

/-!
# The verdict depends on the address only

Every text form of an IPv6 address is expanded to its words, whatever the compression, the letter case and
the suffix, so the guard gives all of them one verdict. An address with an IPv4 address inside it is refused
when the IPv4 address is.
-/

namespace PapitalErp.SsrfGuard

open JoinedTexts TrimmedText

/-! ## The characters of an address -/

/-- What is decided for every ASCII character holds of one. -/
theorem ascii_all {P : Char → Prop} (all : ∀ n : Fin 128, P (Char.ofNat n)) {c : Char} (h : c.toNat < 128) : P c := by
  have own := all ⟨c.toNat, h⟩
  rwa [Char.ofNat_toNat] at own

theorem hexDigit_lt {c : Char} (h : isHexDigit c = true) : c.toNat < 128 := by
  simp only [isHexDigit, Char.isDigit, Bool.or_eq_true, Bool.and_eq_true, decide_eq_true_eq, Char.le_def,
    UInt32.le_iff_toNat_le] at h
  have seven : ('9'.val.toNat, 'f'.val.toNat, 'F'.val.toNat) = (57, 102, 70) := rfl
  simp only [Prod.mk.injEq] at seven
  unfold Char.toNat
  omega

/-- No blank, no bracket and no letter of a reserved host name. -/
structure Plain (c : Char) : Prop where
  ascii : c.toNat < 128
  visible : isJsBlank c = false
  notOpen : c ≠ '['
  notClose : c ≠ ']'
  notL : c ≠ 'l'

instance (c : Char) : Decidable (Plain c) :=
  decidable_of_iff (c.toNat < 128 ∧ isJsBlank c = false ∧ c ≠ '[' ∧ c ≠ ']' ∧ c ≠ 'l')
    ⟨fun ⟨ascii, visible, notOpen, notClose, notL⟩ => ⟨ascii, visible, notOpen, notClose, notL⟩,
      fun ⟨ascii, visible, notOpen, notClose, notL⟩ => ⟨ascii, visible, notOpen, notClose, notL⟩⟩

theorem plain_of_hexDigit {c : Char} (h : isHexDigit c = true) : Plain c := by
  have all : ∀ n : Fin 128, isHexDigit (Char.ofNat n) = true → Plain (Char.ofNat n) := by decide +kernel
  exact ascii_all (P := fun c => isHexDigit c = true → Plain c) all (hexDigit_lt h) h

/-- The lower case of a hexadecimal digit is the same digit, and no mark, sign or `x`. -/
theorem lower_hexDigit {c : Char} (h : isHexDigit c = true) :
    isHexDigit c.toLower = true ∧ hexValue c.toLower = hexValue c := by
  have all : ∀ n : Fin 128, isHexDigit (Char.ofNat n) = true →
      isHexDigit (Char.ofNat n).toLower = true ∧ hexValue (Char.ofNat n).toLower = hexValue (Char.ofNat n) := by
    decide +kernel
  exact ascii_all (P := fun c => isHexDigit c = true → isHexDigit c.toLower = true ∧ hexValue c.toLower = hexValue c)
    all (hexDigit_lt h) h

theorem hexDigit_apart {c : Char} (h : isHexDigit c = true) :
    c ≠ ':' ∧ c ≠ '.' ∧ c ≠ '-' ∧ c ≠ '+' ∧ c ≠ 'x' ∧ c ≠ 'X' := by
  refine ⟨?_, ?_, ?_, ?_, ?_, ?_⟩ <;> rintro rfl <;> revert h <;> decide

theorem hexDigit_of_isDigit {c : Char} (h : c.isDigit = true) : isHexDigit c = true := by
  simp [isHexDigit, h]

/-! ## Numbers -/

theorem hexDigit_digitChar {d : ℕ} (h : d < 16) :
    isHexDigit d.digitChar = true ∧ hexValue d.digitChar = d := by
  have all : ∀ d : Fin 16, isHexDigit (d : ℕ).digitChar = true ∧ hexValue (d : ℕ).digitChar = d := by decide
  exact all ⟨d, h⟩

theorem hexNumber_append (p q : Text) : hexNumber (p ++ q) = q.foldl (fun n c => 16 * n + hexValue c) (hexNumber p) :=
  List.foldl_append

/-- A number in hexadecimal digits. -/
theorem hexNumber_toDigits (n : ℕ) :
    (∀ c ∈ Nat.toDigits 16 n, isHexDigit c = true) ∧ hexNumber (Nat.toDigits 16 n) = n := by
  induction n using Nat.strongRecOn with
  | ind n ih =>
      rw [Nat.toDigits_eq_if (by norm_num)]
      split_ifs with small
      · obtain ⟨digit, value⟩ := hexDigit_digitChar small
        refine ⟨fun c mem => List.mem_singleton.mp mem ▸ digit, ?_⟩
        simp [hexNumber, value]
      · obtain ⟨digits, number⟩ := ih (n / 16) (by omega)
        obtain ⟨digit, value⟩ := hexDigit_digitChar (Nat.mod_lt n (show 0 < 16 by norm_num))
        refine ⟨fun c mem => ?_, ?_⟩
        · obtain mem | mem := List.mem_append.mp mem
          · exact digits c mem
          · exact List.mem_singleton.mp mem ▸ digit
        · rw [hexNumber_append, number, List.foldl_cons, List.foldl_nil, value]
          omega

/-- Digits have no sign and no `0x`. -/
theorem parseInt16_digits {p : Text} (filled : p ≠ []) (hex : ∀ c ∈ p, isHexDigit c = true) :
    parseInt16 p = some (hexNumber p : ℤ) := by
  have kept : p.dropWhile isJsBlank = p := by
    cases p with
    | nil => rfl
    | cons c rest =>
        have visible := (plain_of_hexDigit (hex c List.mem_cons_self)).visible
        exact List.dropWhile_cons_of_neg (by rw [visible]; exact Bool.false_ne_true)
  have all : p.takeWhile isHexDigit = p := List.takeWhile_eq_self_iff.mpr hex
  have signed : signOf p = (false, p) := by
    unfold signOf
    split
    · exact absurd rfl (hexDigit_apart (hex '-' List.mem_cons_self)).2.2.1
    · exact absurd rfl (hexDigit_apart (hex '+' List.mem_cons_self)).2.2.2.1
    · rfl
  have bare : withoutPrefix p = p := by
    unfold withoutPrefix
    split
    · exact absurd rfl (hexDigit_apart (hex 'x' (by simp))).2.2.2.2.1
    · exact absurd rfl (hexDigit_apart (hex 'X' (by simp))).2.2.2.2.2
    · rfl
  unfold parseInt16
  dsimp only
  rw [kept, signed, bare, all, if_neg filled]
  rfl

theorem wordOf_group (group : Group) : wordOf group.digits = hexNumber group.digits := by
  have filled : group.digits ≠ [] := List.ne_nil_of_length_pos group.short.1
  rw [wordOf, parseInt16_digits filled group.hex, Option.getD_some]

/-! ## Pieces -/

theorem isPiece_group (group : Group) : IsPiece ':' group.digits where
  nonempty := List.ne_nil_of_length_pos group.short.1
  unmarked := fun mem => (hexDigit_apart (group.hex ':' mem)).1 rfl

/-- The number of a word in hexadecimal digits, as a group. -/
def hexGroup (n : ℕ) (h : n < 65536) : Group where
  digits := Nat.toDigits 16 n
  short := ⟨Nat.length_toDigits_pos, (Nat.length_toDigits_le_iff (by norm_num) (by norm_num)).mpr h⟩
  hex := (hexNumber_toDigits n).1

/-- The characters of an address text. -/
def isAddressChar (c : Char) : Bool := isHexDigit c || c == ':' || c == '.'

theorem plain_of_address {c : Char} (h : isAddressChar c = true) : Plain c := by
  simp only [isAddressChar, Bool.or_eq_true, beq_iff_eq] at h
  obtain (hex | rfl) | rfl := h
  · exact plain_of_hexDigit hex
  · decide
  · decide

/-! ### Dotted addresses -/

theorem octet_digits (octet : Fin 256) :
    isShortNumber (Nat.toDigits 10 octet) = true ∧ number (Nat.toDigits 10 octet) = octet ∧
      ∀ c ∈ Nat.toDigits 10 (octet : ℕ), c.isDigit = true := by
  have digits : ∀ c ∈ Nat.toDigits 10 (octet : ℕ), c.isDigit = true :=
    fun c mem => Nat.isDigit_of_mem_toDigits (by norm_num) (by norm_num) mem
  have short : (Nat.toDigits 10 (octet : ℕ)).length ≤ 3 :=
    (Nat.length_toDigits_le_iff (by norm_num) (by norm_num)).mpr (octet.2.trans (by norm_num))
  refine ⟨?_, Nat.ofDigitChars_ten_toDigits, digits⟩
  simp only [isShortNumber, Bool.and_eq_true, decide_eq_true_eq, List.all_eq_true]
  exact ⟨⟨Nat.length_toDigits_pos, short⟩, digits⟩

theorem Octets.text_chars (v4 : Octets) : ∀ c ∈ v4.text, c = '.' ∨ c.isDigit = true := by
  intro c mem
  obtain dot | ⟨p, there, inside⟩ := mem_join mem
  · exact .inl dot
  · obtain ⟨octet, -, rfl⟩ := List.mem_map.mp there
    exact .inr ((octet_digits octet).2.2 c inside)

theorem Octets.splitOn_text (v4 : Octets) :
    v4.text.splitOn '.' = [v4.a, v4.b, v4.c, v4.d].map fun octet : Fin 256 => Nat.toDigits 10 octet := by
  refine List.splitOn_intercalate '.' (fun p mem dot => ?_) (by simp)
  obtain ⟨octet, -, rfl⟩ := List.mem_map.mp mem
  exact (hexDigit_apart (hexDigit_of_isDigit ((octet_digits octet).2.2 '.' dot))).2.1 rfl

theorem Octets.numbers (v4 : Octets) :
    (v4.text.splitOn '.').map number = [v4.a.1, v4.b.1, v4.c.1, v4.d.1] := by
  rw [v4.splitOn_text]
  simp [octet_digits]

theorem Octets.no_colon (v4 : Octets) : ':' ∉ v4.text := by
  intro mem
  obtain dot | digit := v4.text_chars ':' mem
  · revert dot
    decide
  · revert digit
    decide

/-- A dotted suffix becomes its two words. -/
theorem undotted_dotted (front : Text) (v4 : Octets) :
    undotted (front ++ [':'] ++ v4.text) =
      front ++ [':'] ++ Nat.toDigits 16 (v4.a * 256 + v4.b) ++ ':' :: Nat.toDigits 16 (v4.c * 256 + v4.d) := by
  have clean : front ++ [':'] ++ v4.text = front ++ ':' :: v4.text := by simp
  have shorts : (v4.text.splitOn '.').all isShortNumber = true := by
    rw [v4.splitOn_text]
    simp [octet_digits]
  have four : (v4.text.splitOn '.').length = 4 := by
    rw [v4.splitOn_text]
    rfl
  have found : v4Match (front ++ ':' :: v4.text) = some [v4.a.1, v4.b.1, v4.c.1, v4.d.1] := by
    unfold v4Match
    dsimp only
    rw [afterLast_append v4.no_colon, throughLast_append v4.no_colon, if_pos ⟨by simp, four, shorts⟩, v4.numbers]
  rw [clean, undotted, found, throughLast_append v4.no_colon]
  dsimp only
  rw [if_pos (by omega)]

theorem undotted_of_no_dot {clean : Text} (noDot : '.' ∉ clean) : undotted clean = clean := by
  have one : (afterLast ':' clean).splitOn '.' = [afterLast ':' clean] := by
    have none : '.' ∉ afterLast ':' clean := fun mem => noDot ((List.rtakeWhile_suffix _ _).subset mem)
    have split : (join '.' [afterLast ':' clean]).splitOn '.' = [afterLast ':' clean] :=
      List.splitOn_intercalate '.' (by simpa using none) (by simp)
    rwa [join_singleton] at split
  rw [undotted, v4Match]
  simp [one]

/-! ### Forms -/

def Group.lower (group : Group) : Group where
  digits := group.digits.map Char.toLower
  short := by simpa using group.short
  hex := by
    intro c mem
    obtain ⟨c, own, rfl⟩ := List.mem_map.mp mem
    exact (lower_hexDigit (group.hex c own)).1

theorem Group.lower_number (group : Group) : hexNumber group.lower.digits = hexNumber group.digits := by
  have folded : ∀ (digits : Text) (n : ℕ), (∀ c ∈ digits, isHexDigit c = true) →
      (digits.map Char.toLower).foldl (fun n c => 16 * n + hexValue c) n =
        digits.foldl (fun n c => 16 * n + hexValue c) n := by
    intro digits
    induction digits with
    | nil => exact fun _ _ => rfl
    | cons c digits ih =>
        intro n hex
        rw [List.map_cons, List.foldl_cons, List.foldl_cons, (lower_hexDigit (hex c List.mem_cons_self)).2]
        exact ih _ fun d mem => hex d (List.mem_cons_of_mem c mem)
  exact folded _ 0 group.hex

theorem Octets.lower_text (v4 : Octets) : v4.text.map Char.toLower = v4.text := by
  have kept : ∀ c ∈ v4.text, c.toLower = c := by
    intro c mem
    obtain rfl | digit := v4.text_chars c mem
    · rfl
    · have all : ∀ n : Fin 128, (Char.ofNat n).isDigit = true → (Char.ofNat n).toLower = Char.ofNat n := by
        decide +kernel
      exact ascii_all (P := fun c => c.isDigit = true → c.toLower = c) all
        (hexDigit_lt (hexDigit_of_isDigit digit)) digit
  exact (List.map_congr_left kept).trans (List.map_id _)

def Suffix.lower (suffix : Suffix) : Suffix := ⟨suffix.groups.map Group.lower, suffix.dotted⟩

theorem words_lower (groups : List Group) :
    (groups.map Group.lower).map (fun group => (hexNumber group.digits : ℤ)) =
      groups.map fun group => (hexNumber group.digits : ℤ) := by
  rw [List.map_map]
  exact List.map_congr_left fun group _ => congrArg Nat.cast group.lower_number

@[simp] theorem Suffix.lower_words (suffix : Suffix) : suffix.lower.words = suffix.words := by
  rw [Suffix.words, Suffix.words, Suffix.lower, words_lower]

theorem Suffix.lower_pieces (suffix : Suffix) : suffix.lower.pieces = suffix.pieces.map (List.map Char.toLower) := by
  rw [Suffix.pieces, Suffix.pieces, Suffix.lower, List.map_append, List.map_map, List.map_map]
  cases suffix.dotted with
  | none => rfl
  | some v4 => simp [v4.lower_text, Group.lower, Function.comp_def]

def AddressForm.lower : AddressForm → AddressForm
  | .full suffix eight => .full suffix.lower (by simpa using eight)
  | .compressed left right fewer => .compressed (left.map Group.lower) right.lower (by simpa using fewer)

theorem AddressForm.lower_words (form : AddressForm) : form.lower.words = form.words := by
  cases form with
  | full suffix eight => exact suffix.lower_words
  | compressed left right fewer => simp only [AddressForm.lower, AddressForm.words, words_lower, Suffix.lower_words,
      List.length_map]

theorem AddressForm.lower_text (form : AddressForm) : form.lower.text = form.text.map Char.toLower := by
  have colon : Char.toLower ':' = ':' := rfl
  cases form with
  | full suffix eight => rw [AddressForm.lower, AddressForm.text, AddressForm.text, map_join, colon, suffix.lower_pieces]
  | compressed left right fewer =>
      simp only [AddressForm.lower, AddressForm.text, List.map_append, List.map_cons, map_join, colon,
        right.lower_pieces, List.map_map]
      rfl

/-- The dotted suffix as two groups. -/
def Suffix.undotted (suffix : Suffix) : List Group :=
  match suffix.dotted with
  | none => suffix.groups
  | some v4 => suffix.groups ++ [hexGroup (v4.a * 256 + v4.b) (by omega), hexGroup (v4.c * 256 + v4.d) (by omega)]

theorem Suffix.undotted_words (suffix : Suffix) :
    suffix.undotted.map (fun group => (hexNumber group.digits : ℤ)) = suffix.words := by
  obtain ⟨groups, dotted⟩ := suffix
  cases dotted with
  | none => simp [Suffix.undotted, Suffix.words]
  | some v4 => simp [Suffix.undotted, Suffix.words, Octets.words, hexGroup, hexNumber_toDigits]

theorem groups_chars {groups : List Group} {c : Char} (mem : c ∈ join ':' (groups.map Group.digits)) :
    c = ':' ∨ isHexDigit c = true := by
  refine (mem_join mem).imp_right ?_
  rintro ⟨p, there, inside⟩
  obtain ⟨group, -, rfl⟩ := List.mem_map.mp there
  exact group.hex c inside

theorem no_dot_of_groups (groups : List Group) : '.' ∉ join ':' (groups.map Group.digits) := by
  intro mem
  obtain colon | hex := groups_chars mem
  · revert colon
    decide
  · exact (hexDigit_apart hex).2.1 rfl

/-- After a colon, or after other groups, a dotted suffix is replaced by its two groups. -/
theorem undotted_suffix {front : Text} (suffix : Suffix) (noDot : '.' ∉ front)
    (marked : suffix.groups = [] → ∃ rest, front = rest ++ [':']) :
    undotted (front ++ join ':' suffix.pieces) = front ++ join ':' (suffix.undotted.map Group.digits) := by
  obtain ⟨groups, dotted⟩ := suffix
  cases dotted with
  | none =>
      have pieces : (⟨groups, none⟩ : Suffix).pieces = groups.map Group.digits := by simp [Suffix.pieces]
      rw [pieces, undotted_of_no_dot (by simp [noDot, no_dot_of_groups])]
      rfl
  | some v4 =>
      obtain ⟨rest, colon⟩ : ∃ rest, front ++ ends ':' (groups.map Group.digits) = rest ++ [':'] := by
        by_cases empty : groups = []
        · obtain ⟨rest, rfl⟩ := marked empty
          exact ⟨rest, by simp [empty, ends]⟩
        · rw [ends_eq (by simpa using empty), ← List.append_assoc]
          exact ⟨_, rfl⟩
      have pieces : (⟨groups, some v4⟩ : Suffix).pieces = groups.map Group.digits ++ [v4.text] := by
        simp [Suffix.pieces]
      have words : (⟨groups, some v4⟩ : Suffix).undotted.map Group.digits = groups.map Group.digits ++
          [Nat.toDigits 16 (v4.a * 256 + v4.b), Nat.toDigits 16 (v4.c * 256 + v4.d)] := by
        simp [Suffix.undotted, hexGroup]
      rw [pieces, join_concat, ← List.append_assoc, colon, undotted_dotted, words, join_concat_two, ← colon]
      simp only [List.append_assoc]

theorem AddressForm.text_chars (form : AddressForm) : ∀ c ∈ form.text, isAddressChar c = true := by
  have colon : isAddressChar ':' = true := by decide
  have hex : ∀ c, isHexDigit c = true → isAddressChar c = true := fun c digit => by simp [isAddressChar, digit]
  have pieces : ∀ (suffix : Suffix) (c : Char), c ∈ join ':' suffix.pieces → isAddressChar c = true := by
    intro suffix c mem
    obtain rfl | ⟨p, there, inside⟩ := mem_join mem
    · exact colon
    · obtain own | dotted := List.mem_append.mp there
      · obtain ⟨group, -, rfl⟩ := List.mem_map.mp own
        exact hex c (group.hex c inside)
      · obtain ⟨v4, -, rfl⟩ := Option.map_eq_some_iff.mp (Option.mem_toList.mp dotted)
        obtain rfl | digit := v4.text_chars c inside
        · decide
        · exact hex c (hexDigit_of_isDigit digit)
  cases form with
  | full suffix eight => exact pieces suffix
  | compressed left right fewer =>
      intro c mem
      obtain own | mem := List.mem_append.mp mem
      · obtain rfl | digit := groups_chars own
        · exact colon
        · exact hex c digit
      · obtain rfl | mem := List.mem_cons.mp mem
        · exact colon
        · obtain rfl | mem := List.mem_cons.mp mem
          · exact colon
          · exact pieces right c mem

/-! ## The words of a text -/

theorem groupsOf_join (groups : List Group) : groupsOf (join ':' (groups.map Group.digits)) = groups.map Group.digits := by
  refine filter_splitOn_join fun p mem => ?_
  obtain ⟨group, -, rfl⟩ := List.mem_map.mp mem
  exact isPiece_group group

theorem isPiece_groups (groups : List Group) : ∀ p ∈ groups.map Group.digits, IsPiece ':' p := by
  intro p mem
  obtain ⟨group, -, rfl⟩ := List.mem_map.mp mem
  exact isPiece_group group

theorem map_wordOf (groups : List Group) :
    (groups.map Group.digits).map wordOf = groups.map fun group => (hexNumber group.digits : ℤ) := by
  rw [List.map_map]
  exact List.map_congr_left fun group _ => wordOf_group group

theorem wordsOf_full (groups : List Group) :
    wordsOf (join ':' (groups.map Group.digits)) = groups.map fun group => (hexNumber group.digits : ℤ) := by
  rw [wordsOf, splitTwice_join (isPiece_groups groups)]
  dsimp only [List.headD]
  rw [groupsOf_join, map_wordOf]

theorem wordsOf_compressed (left right : List Group) :
    wordsOf (join ':' (left.map Group.digits) ++ ':' :: ':' :: join ':' (right.map Group.digits)) =
      left.map (fun group => (hexNumber group.digits : ℤ)) ++ List.replicate (8 - (left.length + right.length)) 0 ++
        right.map fun group => (hexNumber group.digits : ℤ) := by
  have zero : wordOf ['0'] = 0 := by decide
  rw [wordsOf, splitTwice_two (isPiece_groups left) (isPiece_groups right)]
  dsimp only
  rw [groupsOf_join, groupsOf_join, List.map_append, List.map_append, map_wordOf, map_wordOf, List.map_replicate, zero,
    List.length_map, List.length_map]

theorem Suffix.length_words_le (suffix : Suffix) : suffix.words.length ≤ suffix.groups.length + 2 := by
  rw [Suffix.words, List.length_append, List.length_map]
  cases suffix.dotted <;> simp [Octets.words]

theorem Suffix.length_undotted (suffix : Suffix) : suffix.undotted.length = suffix.words.length := by
  rw [← suffix.undotted_words, List.length_map]

/-- Whatever its form, a text gives the words of its address. -/
theorem wordsOf_undotted (form : AddressForm) : wordsOf (undotted form.text) = form.words := by
  cases form with
  | full suffix eight =>
      have grouped : suffix.groups ≠ [] := by
        intro empty
        have six := suffix.length_words_le
        rw [empty] at six
        simp only [List.length_nil] at six
        omega
      have text : undotted ([] ++ join ':' suffix.pieces) = [] ++ join ':' (suffix.undotted.map Group.digits) :=
        undotted_suffix suffix (by simp) fun empty => absurd empty grouped
      rw [List.nil_append, List.nil_append] at text
      rw [AddressForm.text, text, wordsOf_full, suffix.undotted_words, AddressForm.words]
  | compressed left right fewer =>
      have noDot : '.' ∉ join ':' (left.map Group.digits) ++ [':', ':'] := by
        simp [no_dot_of_groups]
      have text := undotted_suffix right noDot fun _ => ⟨join ':' (left.map Group.digits) ++ [':'], by simp⟩
      simp only [List.append_assoc, List.cons_append, List.nil_append] at text
      rw [AddressForm.text, text, wordsOf_compressed, right.undotted_words, right.length_undotted, AddressForm.words]

variable (net : Net)

theorem trimmed_of_plain {s : Text} (plain : ∀ c ∈ s, Plain c) : trimEnds isJsBlank s = s := by
  have visible : ∀ c ∈ s, ¬isJsBlank c = true := fun c mem => by
    rw [(plain c mem).visible]
    exact Bool.false_ne_true
  exact trimEnds_eq_self (fun c mem => visible c (List.mem_of_mem_head? mem)) fun some => visible _ (List.getLast_mem some)

theorem AddressForm.plain (form : AddressForm) : ∀ c ∈ form.text, Plain c :=
  fun c mem => plain_of_address (form.text_chars c mem)

theorem AddressForm.lowered (form : AddressForm) : net.toLowerCase form.text = form.lower.text := by
  rw [net.lower_ascii form.text fun c mem => (form.plain c mem).ascii, form.lower_text]

theorem expandIPv6_text (form : AddressForm) : expandIPv6 net form.text = form.words := by
  rw [expandIPv6, form.lowered, trimmed_of_plain form.lower.plain, wordsOf_undotted, form.lower_words]

theorem AddressForm.length_words (form : AddressForm) : form.words.length = 8 := by
  cases form with
  | full suffix eight => exact eight
  | compressed left right fewer =>
      simp only [AddressForm.words, List.length_append, List.length_map, List.length_replicate]
      omega

/-! ## The verdict on a text -/

theorem stripped_of_plain {s : Text} (plain : ∀ c ∈ s, Plain c) : stripBrackets s = s := by
  have notOpen : ∀ rest, s ≠ '[' :: rest := by
    rintro rest rfl
    exact (plain '[' List.mem_cons_self).notOpen rfl
  have notClose : s.getLast? ≠ some ']' := fun eq => (plain ']' (List.mem_of_getLast? eq)).notClose rfl
  unfold stripBrackets
  dsimp only
  split
  · exact absurd rfl (notOpen _)
  · rw [if_neg notClose]

/-- The host names that are refused by name. -/
theorem not_reserved {s : Text} (plain : ∀ c ∈ s, Plain c) :
    (s == "localhost".toList || s == "metadata.google.internal".toList || endsWith ".localhost" s ||
      endsWith ".internal" s || endsWith ".local" s) = false := by
  have absent : 'l' ∉ s := fun mem => (plain 'l' mem).notL rfl
  have notName : ∀ name : String, 'l' ∈ name.toList → (s == name.toList) = false ∧ endsWith name s = false := by
    intro name named
    constructor
    · rw [beq_eq_false_iff_ne]
      exact fun eq => absent (eq ▸ named)
    · rw [endsWith, Bool.eq_false_iff]
      exact fun ending => absent ((List.isSuffixOf_iff_suffix.mp ending).subset named)
  rw [(notName "localhost" (by decide)).1, (notName "metadata.google.internal" (by decide)).1,
    (notName ".localhost" (by decide)).2, (notName ".internal" (by decide)).2, (notName ".local" (by decide)).2]
  rfl

theorem AddressForm.has_colon (form : AddressForm) : ':' ∈ form.text := by
  cases form with
  | full suffix eight =>
      obtain ⟨p, q, rest, pieces⟩ : ∃ p q rest, suffix.pieces = p :: q :: rest := by
        have six := suffix.length_words_le
        have grouped : 2 ≤ suffix.pieces.length := by
          rw [Suffix.pieces, List.length_append, List.length_map]
          omega
        match suffix.pieces, grouped with
        | p :: q :: rest, _ => exact ⟨p, q, rest, rfl⟩
      rw [AddressForm.text, pieces, join_cons_cons]
      simp
  | compressed left right fewer => simp [AddressForm.text]

theorem AddressForm.not_isIPv4 (form : AddressForm) : net.isIPv4 form.text = false := by
  rw [Bool.eq_false_iff]
  intro dotted
  obtain ⟨v4, text⟩ := (net.isIPv4_iff _).mp dotted
  exact v4.no_colon (text ▸ form.has_colon)

/-- The guard takes its verdict on the words. -/
theorem isPrivateOrReservedIp_text (form : AddressForm) :
    isPrivateOrReservedIp net form.text = isPrivateOrReservedIPv6Words form.words := by
  have filled : form.text ≠ [] := List.ne_nil_of_mem form.has_colon
  have clean : stripBrackets (net.toLowerCase (trimEnds isJsBlank form.text)) = form.lower.text := by
    rw [trimmed_of_plain form.plain, form.lowered, stripped_of_plain form.lower.plain]
  have isIPv6 : net.isIPv6 form.lower.text = true := (net.isIPv6_iff _).mpr ⟨form.lower, rfl⟩
  have words : expandIPv6 net form.lower.text = form.words := by
    rw [expandIPv6_text, form.lower_words]
  unfold isPrivateOrReservedIp
  dsimp only
  rw [if_neg filled, clean, not_reserved form.lower.plain, form.lower.not_isIPv4, isIPv6, words, form.length_words]
  rfl

theorem Octets.plain (v4 : Octets) : ∀ c ∈ v4.text, Plain c := by
  intro c mem
  obtain rfl | digit := v4.text_chars c mem
  · decide
  · exact plain_of_hexDigit (hexDigit_of_isDigit digit)

/-- A dotted address is judged by its octets. -/
theorem isPrivateOrReservedIp_dotted (v4 : Octets) :
    isPrivateOrReservedIp net v4.text = isPrivateOrReservedIPv4 v4.a v4.b v4.c v4.d := by
  have filled : v4.text ≠ [] := by
    intro empty
    have four := v4.splitOn_text
    rw [empty] at four
    exact absurd (congrArg List.length four) (by simp)
  have clean : stripBrackets (net.toLowerCase (trimEnds isJsBlank v4.text)) = v4.text := by
    rw [trimmed_of_plain v4.plain, net.lower_ascii v4.text fun c mem => (v4.plain c mem).ascii, v4.lower_text,
      stripped_of_plain v4.plain]
  have isIPv4 : net.isIPv4 v4.text = true := (net.isIPv4_iff _).mpr ⟨v4, rfl⟩
  unfold isPrivateOrReservedIp
  dsimp only
  rw [if_neg filled, clean, not_reserved v4.plain, isIPv4, v4.numbers]
  dsimp only
  rw [if_neg Bool.false_ne_true, if_pos rfl, if_pos (by omega)]

/-! ## Addresses inside addresses -/

/-- The words of an address that holds an IPv4 address. -/
inductive Embeds (v4 : Octets) : List ℤ → Prop
  | mapped : Embeds v4 ([0, 0, 0, 0, 0, 0xffff] ++ v4.words)
  | compatible : Embeds v4 ([0, 0, 0, 0, 0, 0] ++ v4.words)
  | nat64 : Embeds v4 ([0x0064, 0xff9b, 0, 0, 0, 0] ++ v4.words)
  | sixToFour (w3 w4 w5 w6 w7 : ℤ) : Embeds v4 ([0x2002] ++ v4.words ++ [w3, w4, w5, w6, w7])

theorem isPrivateOrReservedTail_words (v4 : Octets) :
    isPrivateOrReservedTail (v4.a * 256 + v4.b : ℕ) (v4.c * 256 + v4.d : ℕ) =
      isPrivateOrReservedIPv4 v4.a v4.b v4.c v4.d := by
  have bytes : ∀ high low : Fin 256, ((high * 256 + low : ℕ) / 256 % 256 : ℤ).toNat = high ∧
      ((high * 256 + low : ℕ) % 256 : ℤ).toNat = low := by
    intro high low
    omega
  rw [isPrivateOrReservedTail, (bytes v4.a v4.b).1, (bytes v4.a v4.b).2, (bytes v4.c v4.d).1, (bytes v4.c v4.d).2]

/-- The unspecified address and the loopback address are refused before the IPv4 test. -/
theorem compatible_refused {x y : ℤ} (hx : 0 ≤ x) (hy : 0 ≤ y) (refused : isPrivateOrReservedTail x y = true) :
    isPrivateOrReservedIPv6Words [0, 0, 0, 0, 0, 0, x, y] = true := by
  by_cases small : x = 0 ∧ (y = 0 ∨ y = 1)
  · obtain ⟨rfl, rfl | rfl⟩ := small
    · decide
    · decide
  · have embedded : (x != 0 || decide (1 < y)) = true := by
      simp only [Bool.or_eq_true, bne_iff_ne, decide_eq_true_eq]
      omega
    simp only [isPrivateOrReservedIPv6Words, embedded, refused]
    simp

/-- The words are refused when the IPv4 address inside is. -/
theorem Embeds.refused {v4 : Octets} {words : List ℤ} (embeds : Embeds v4 words)
    (refused : isPrivateOrReservedIPv4 v4.a v4.b v4.c v4.d = true) : isPrivateOrReservedIPv6Words words = true := by
  rw [← isPrivateOrReservedTail_words] at refused
  cases embeds with
  | mapped => simpa [isPrivateOrReservedIPv6Words, Octets.words] using refused
  | compatible => exact compatible_refused (Int.natCast_nonneg _) (Int.natCast_nonneg _) refused
  | nat64 => simpa [isPrivateOrReservedIPv6Words, Octets.words] using refused
  | sixToFour w3 w4 w5 w6 w7 => simpa [isPrivateOrReservedIPv6Words, Octets.words] using refused

/-- There is such a platform. -/
theorem exists_net : Nonempty Net := by
  classical
  exact ⟨{
    toLowerCase := List.map Char.toLower
    isIPv4 := fun s => decide (∃ v4 : Octets, s = v4.text)
    isIPv6 := fun s => decide (∃ form : AddressForm, s = form.text)
    lower_ascii := fun _ _ => rfl
    isIPv4_iff := fun _ => decide_eq_true_iff
    isIPv6_iff := fun _ => decide_eq_true_iff }⟩

/-- The address check depends on the address only. -/
theorem verdict_of_address (net : Net) :
    (∀ form : AddressForm, expandIPv6 net form.text = form.words) ∧
    (∀ form form' : AddressForm, form.words = form'.words →
      isPrivateOrReservedIp net form.text = isPrivateOrReservedIp net form'.text) ∧
    ∀ (v4 : Octets) (form : AddressForm), Embeds v4 form.words → isPrivateOrReservedIp net v4.text = true →
      isPrivateOrReservedIp net form.text = true := by
  refine ⟨expandIPv6_text net, fun form form' same => ?_, fun v4 form embeds refused => ?_⟩
  · rw [isPrivateOrReservedIp_text, isPrivateOrReservedIp_text, same]
  · rw [isPrivateOrReservedIp_dotted] at refused
    rw [isPrivateOrReservedIp_text]
    exact embeds.refused refused

end PapitalErp.SsrfGuard
