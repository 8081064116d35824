import PapitalErp.System.AuditSanitizer

/-!
# What the audit log shows of a value

Two values that differ only in what must not be shown are `Alike`: in texts and
objects under secret keys, and in the leading digits of texts and numbers under
bank-number keys, at any depth. The sanitizer makes them equal exactly when no such
difference stands under an ordinary key inside an object under a bank-number key,
since the members of that object are sanitized by their own keys.

Sanitizing again changes nothing. A value that may be shown is kept unless it stands
under a member named `__proto__`, which the copy of its object does not get.
-/

namespace PapitalErp.AuditSanitizer

open JsonValue

/-! ## Bank numbers -/

theorem digitsOf_append (a b : List Char) : digitsOf (a ++ b) = digitsOf a ++ digitsOf b := by
  simp [digitsOf]

theorem isDigit_of_mem_digitsOf {text : List Char} {c : Char} (mem : c ∈ digitsOf text) :
    c.isDigit = true := (List.mem_filter.mp mem).2

/-- A masked text shows four digits at most. -/
theorem digitsOf_masked {text : List Char} (masked : isMasked text = true) :
    (digitsOf text).length ≤ 4 := by
  simp only [isMasked, Bool.and_eq_true, decide_eq_true_eq] at masked
  obtain ⟨⟨_, _⟩, short⟩ := masked
  have stars : digitsOf (text.takeWhile (· = '*')) = [] := by
    rw [digitsOf, List.filter_eq_nil_iff]
    intro c mem
    obtain ⟨star, there, rfl⟩ := List.mem_map.mp mem
    have is := List.mem_takeWhile_imp there
    rw [decide_eq_true_eq] at is
    subst is
    decide
  rw [← List.takeWhile_append_dropWhile (p := (· = '*')) (l := text), digitsOf_append, stars,
    List.nil_append]
  exact ((List.length_filter_le _ _).trans_eq (List.length_map ..)).trans short

theorem toList_stars : "****".toList = ['*', '*', '*', '*'] := by decide +kernel

theorem isMasked_stars {digits : List Char} (all : ∀ c ∈ digits, c.isDigit = true)
    (short : digits.length ≤ 4) : isMasked ("****" ++ String.ofList digits).toList = true := by
  have stop : ∀ c ∈ digits, ¬ decide (c = '*') = true := by
    intro c mem star
    rw [decide_eq_true_eq] at star
    exact absurd (all c mem) (by rw [star]; decide)
  have rest : digits.dropWhile (· = '*') = digits := by
    cases digits with
    | nil => rfl
    | cons c digits => exact List.dropWhile_cons_of_neg (stop c List.mem_cons_self)
  rw [String.toList_append, toList_stars, String.toList_ofList, isMasked]
  simpa [rest, short] using all

theorem maskBankNumber_of_masked {s : String} (masked : isMasked s.toList = true) :
    maskBankNumber s = s := by
  rw [maskBankNumber, if_pos masked]

theorem maskBankNumber_of_unmasked {s : String} (unmasked : ¬ isMasked s.toList = true) :
    maskBankNumber s =
      if digitsOf s.toList = [] then s
      else if (digitsOf s.toList).length ≤ 4 then "****"
      else "****" ++ String.ofList ((digitsOf s.toList).drop ((digitsOf s.toList).length - 4)) :=
  if_neg unmasked

/-- Masking a masked number changes nothing. -/
theorem maskBankNumber_idem (s : String) : maskBankNumber (maskBankNumber s) = maskBankNumber s := by
  by_cases masked : isMasked s.toList = true
  · rw [maskBankNumber_of_masked masked, maskBankNumber_of_masked masked]
  · rw [maskBankNumber_of_unmasked masked]
    split
    · next empty => rw [maskBankNumber_of_unmasked masked, if_pos empty]
    · split
      · refine maskBankNumber_of_masked ?_
        rw [toList_stars]
        decide
      · have shown : ∀ c ∈ (digitsOf s.toList).drop ((digitsOf s.toList).length - 4),
            c.isDigit = true := by
          intro c mem
          have digit : c ∈ digitsOf s.toList := List.mem_of_mem_drop mem
          exact isDigit_of_mem_digitsOf digit
        have four : ((digitsOf s.toList).drop ((digitsOf s.toList).length - 4)).length ≤ 4 := by
          rw [List.length_drop]
          omega
        exact maskBankNumber_of_masked (isMasked_stars shown four)

/-- The characters of a text that are no digits. -/
def nonDigits (text : List Char) : List Char := text.filter fun c => !(englishDigit c).isDigit

/-- The same text but for digits before the last four. -/
def SameButLeadingDigits (a b : String) : Prop :=
  ∃ before before' after, a.toList = before ++ after ∧ b.toList = before' ++ after ∧
    (digitsOf after).length = 4 ∧ digitsOf before ≠ [] ∧ digitsOf before' ≠ [] ∧
    nonDigits before = nonDigits before'

theorem maskBankNumber_append {s : String} {before after : List Char}
    (text : s.toList = before ++ after) (four : (digitsOf after).length = 4)
    (some : digitsOf before ≠ []) :
    maskBankNumber s = "****" ++ String.ofList (digitsOf after) := by
  have count := List.length_pos_of_ne_nil some
  have many : (digitsOf s.toList).length = (digitsOf before).length + 4 := by
    rw [text, digitsOf_append, List.length_append, four]
  have unmasked : ¬ isMasked s.toList = true := fun masked => by
    have := digitsOf_masked masked
    omega
  have last : (digitsOf s.toList).drop ((digitsOf s.toList).length - 4) = digitsOf after := by
    rw [many, Nat.add_sub_cancel, text, digitsOf_append, List.drop_left]
  have nonempty : digitsOf s.toList ≠ [] := by
    rw [← List.length_pos_iff]
    omega
  rw [maskBankNumber, if_neg unmasked, if_neg nonempty, if_neg (by omega), last]

/-- The mask hides the leading digits. -/
theorem SameButLeadingDigits.mask {a b : String} (h : SameButLeadingDigits a b) :
    maskBankNumber a = maskBankNumber b := by
  obtain ⟨before, before', after, first, second, four, some, some', _⟩ := h
  rw [maskBankNumber_append first four some, maskBankNumber_append second four some']

/-- Such a text has digits, so it is no replacement for a token. -/
theorem SameButLeadingDigits.digits {a b : String} (h : SameButLeadingDigits a b) :
    digitsOf a.toList ≠ [] ∧ digitsOf b.toList ≠ [] := by
  obtain ⟨before, before', after, first, second, _, some, some', _⟩ := h
  rw [first, second, digitsOf_append, digitsOf_append]
  exact ⟨List.append_ne_nil_of_left_ne_nil some _, List.append_ne_nil_of_left_ne_nil some' _⟩

/-! ## Sanitizing again -/

theorem tokenMask_mask {s mask : String} (is : tokenMask s = some mask) :
    mask = "Bearer [PROTECTED_JWT]" ∨ mask = "[PROTECTED_JWT]" := by
  simp only [tokenMask] at is
  split at is
  · exact .inl (Option.some.inj is).symm
  · split at is
    · exact .inr (Option.some.inj is).symm
    · exact absurd is nofun

/-- What stands for a token is no token and has no digits. -/
theorem tokenMask_clean {s mask : String} (is : tokenMask s = some mask) :
    tokenMask mask = none ∧ digitsOf mask.toList = [] := by
  rcases tokenMask_mask is with rfl | rfl
  · exact ⟨by decide +kernel, by decide +kernel⟩
  · exact ⟨by decide +kernel, by decide +kernel⟩

theorem sanitizeText_idem (s : String) : sanitizeText (sanitizeText s) = sanitizeText s := by
  cases is : tokenMask s with
  | none => simp [sanitizeText, is]
  | some mask => simp [sanitizeText, is, tokenMask_clean is]

section Values

variable {N : Type} {text : AuditText N}

theorem withinDepth_of_le {depth : ℕ} (le : depth ≤ 6) (v : JsonValue N) : withinDepth depth v = v :=
  if_neg (not_lt.mpr le)

theorem withinDepth_of_lt {depth : ℕ} (lt : 6 < depth) (v : JsonValue N) :
    withinDepth depth v = maxDepthReached := if_pos lt

/-- Below the limit every value but null is the same text, and stays it. -/
theorem sanitize_maxDepthReached {depth : ℕ} (lt : 6 < depth) :
    sanitizeSensitiveData text depth maxDepthReached = (maxDepthReached : JsonValue N) := by
  rw [maxDepthReached, sanitizeSensitiveData, withinDepth_of_lt lt, maxDepthReached]

theorem mask_maxDepthReached (depth : ℕ) :
    maskBankNumbersDeep text depth maxDepthReached = (maxDepthReached : JsonValue N) := by
  have same : maskBankNumber "[MAX_DEPTH_REACHED]" = "[MAX_DEPTH_REACHED]" := by decide +kernel
  rw [maxDepthReached, maskBankNumbersDeep, same]

theorem sanitize_withinDepth {depth : ℕ} {v : JsonValue N}
    (again : sanitizeSensitiveData text depth v = withinDepth depth v) :
    sanitizeSensitiveData text depth (withinDepth depth v) = withinDepth depth v := by
  by_cases le : depth ≤ 6
  · rw [withinDepth_of_le le] at again ⊢
    exact again
  · rw [withinDepth_of_lt (not_le.mp le), sanitize_maxDepthReached (not_le.mp le)]

theorem mask_withinDepth {depth : ℕ} {v : JsonValue N}
    (again : maskBankNumbersDeep text depth v = withinDepth (depth + 1) v) :
    maskBankNumbersDeep text depth (withinDepth (depth + 1) v) = withinDepth (depth + 1) v := by
  by_cases le : depth + 1 ≤ 6
  · rw [withinDepth_of_le le] at again ⊢
    exact again
  · rw [withinDepth_of_lt (not_le.mp le), mask_maxDepthReached]

theorem protect_protect (v : JsonValue N) : protect (protect v) = protect v := by
  cases v <;> rfl

theorem sanitizeMembers_idem {depth : ℕ} {members : List (String × JsonValue N)}
    (each : ∀ m ∈ members,
      sanitizeSensitiveData text (depth + 1) (sanitizeSensitiveData text (depth + 1) m.2) =
        sanitizeSensitiveData text (depth + 1) m.2 ∧
      maskBankNumbersDeep text depth (maskBankNumbersDeep text depth m.2) =
        maskBankNumbersDeep text depth m.2) :
    sanitizeMembers text depth (sanitizeMembers text depth members) =
      sanitizeMembers text depth members := by
  induction members with
  | nil => rfl
  | cons m rest ih =>
      obtain ⟨key, value⟩ := m
      have tail := ih fun m mem => each m (List.mem_cons_of_mem _ mem)
      obtain ⟨plain, masked⟩ := each (key, value) List.mem_cons_self
      rw [sanitizeMembers]
      by_cases proto : key = "__proto__"
      · rw [if_pos proto, tail]
      · rw [if_neg proto, sanitizeMembers, if_neg proto, tail]
        congr 2
        simp only [auditValue]
        split
        · exact protect_protect value
        · split
          · exact masked
          · exact plain

theorem sanitizeItems_idem {depth : ℕ} {items : List (JsonValue N)}
    (each : ∀ v ∈ items, sanitizeSensitiveData text depth (sanitizeSensitiveData text depth v) =
      sanitizeSensitiveData text depth v) :
    sanitizeItems text depth (sanitizeItems text depth items) = sanitizeItems text depth items := by
  induction items with
  | nil => rfl
  | cons v rest ih =>
      rw [sanitizeItems, sanitizeItems, each v List.mem_cons_self,
        ih fun w mem => each w (List.mem_cons_of_mem _ mem)]

theorem maskItems_idem {depth : ℕ} {items : List (JsonValue N)}
    (each : ∀ v ∈ items, maskBankNumbersDeep text depth (maskBankNumbersDeep text depth v) =
      maskBankNumbersDeep text depth v) :
    maskItems text depth (maskItems text depth items) = maskItems text depth items := by
  induction items with
  | nil => rfl
  | cons v rest ih =>
      rw [maskItems, maskItems, each v List.mem_cons_self,
        ih fun w mem => each w (List.mem_cons_of_mem _ mem)]

/-- Both functions leave what they have made. -/
theorem sanitize_idem_both (v : JsonValue N) :
    (∀ depth, sanitizeSensitiveData text depth (sanitizeSensitiveData text depth v) =
      sanitizeSensitiveData text depth v) ∧
    ∀ depth, maskBankNumbersDeep text depth (maskBankNumbersDeep text depth v) =
      maskBankNumbersDeep text depth v := by
  induction v using JsonValue.induction with
  | null => exact ⟨fun _ => rfl, fun _ => rfl⟩
  | bool b =>
      exact ⟨fun depth => sanitize_withinDepth rfl, fun depth => mask_withinDepth rfl⟩
  | num n =>
      refine ⟨fun depth => sanitize_withinDepth rfl, fun depth => ?_⟩
      rw [maskBankNumbersDeep, maskBankNumbersDeep, maskBankNumber_idem]
  | str s =>
      refine ⟨fun depth => ?_, fun depth => ?_⟩
      · refine sanitize_withinDepth ?_
        rw [sanitizeSensitiveData, sanitizeText_idem]
      · rw [maskBankNumbersDeep, maskBankNumbersDeep, maskBankNumber_idem]
  | arr items ih =>
      refine ⟨fun depth => ?_, fun depth => ?_⟩
      · refine sanitize_withinDepth ?_
        rw [sanitizeSensitiveData, sanitizeItems_idem fun v mem => (ih v mem).1 (depth + 1)]
      · rw [maskBankNumbersDeep, maskBankNumbersDeep,
          maskItems_idem fun v mem => (ih v mem).2 (depth + 1)]
  | obj members ih =>
      have inside (depth : ℕ) : sanitizeMembers text depth (sanitizeMembers text depth members) =
          sanitizeMembers text depth members :=
        sanitizeMembers_idem fun m mem => ⟨(ih m mem).1 (depth + 1), (ih m mem).2 depth⟩
      refine ⟨fun depth => ?_, fun depth => ?_⟩
      · refine sanitize_withinDepth ?_
        rw [sanitizeSensitiveData, inside depth]
      · refine mask_withinDepth ?_
        rw [maskBankNumbersDeep, inside (depth + 1)]

end Values


/-! ## Values that differ in what must not be shown -/

section Difference

variable {N : Type} (text : AuditText N)

mutual

/-- The values differ only in texts and objects under secret keys and, where a
bank-number key stands above, in leading digits. -/
def Alike (bank : Bool) : JsonValue N → JsonValue N → Prop
  | .null, .null => True
  | .bool b, .bool c => b = c
  | .num m, .num n =>
      m = n ∨ bank = true ∧ SameButLeadingDigits (text.numberText m) (text.numberText n)
  | .str s, .str u => s = u ∨ bank = true ∧ SameButLeadingDigits s u
  | .arr items, .arr others => AlikeItems bank items others
  | .obj members, .obj others => AlikeMembers bank members others
  | _, _ => False

def AlikeItems (bank : Bool) : List (JsonValue N) → List (JsonValue N) → Prop
  | [], [] => True
  | v :: rest, w :: others => Alike bank v w ∧ AlikeItems bank rest others
  | _, _ => False

def AlikeMembers (bank : Bool) :
    List (String × JsonValue N) → List (String × JsonValue N) → Prop
  | [], [] => True
  | (key, v) :: rest, (name, w) :: others =>
      key = name ∧
        (isSecretAuditKey text key = true ∧ isTextOrObject v = true ∧ isTextOrObject w = true ∨
          Alike (bank || isBankNumberAuditKey text key) v w) ∧
        AlikeMembers bank rest others
  | _, _ => False

end

/-- Numbers under a secret key stay in the log, so they may not differ. -/
def SameNumbers : JsonValue N → JsonValue N → Prop
  | .num m, .num n => m = n
  | _, _ => True

mutual

/-- No difference between the values stands where a value is copied: it is below the
depth limit, in two tokens of one kind, under a secret key, or under a bank-number
key with only lists between. -/
def Hidden (depth : ℕ) : JsonValue N → JsonValue N → Prop
  | .num m, .num n => 6 < depth ∨ m = n
  | .str s, .str u => 6 < depth ∨ s = u ∨ tokenMask s ≠ none ∧ tokenMask s = tokenMask u
  | .arr items, .arr others => 6 < depth ∨ HiddenItems (depth + 1) items others
  | .obj members, .obj others => 6 < depth ∨ HiddenMembers depth members others
  | _, _ => True

def HiddenItems (depth : ℕ) : List (JsonValue N) → List (JsonValue N) → Prop
  | v :: rest, w :: others => Hidden depth v w ∧ HiddenItems depth rest others
  | _, _ => True

def HiddenMembers (depth : ℕ) :
    List (String × JsonValue N) → List (String × JsonValue N) → Prop
  | (key, v) :: rest, (_, w) :: others =>
      (key = "__proto__" ∨
        if isSecretAuditKey text key = true then SameNumbers v w
        else if isBankNumberAuditKey text key = true then HiddenByMask depth v w
        else Hidden (depth + 1) v w) ∧
        HiddenMembers depth rest others
  | _, _ => True

/-- The same under a bank-number key: the mask hides the texts and numbers, but an
object is sanitized by its own keys. -/
def HiddenByMask (depth : ℕ) : JsonValue N → JsonValue N → Prop
  | .arr items, .arr others => HiddenItemsByMask (depth + 1) items others
  | .obj members, .obj others => 6 < depth + 1 ∨ HiddenMembers (depth + 1) members others
  | _, _ => True

def HiddenItemsByMask (depth : ℕ) : List (JsonValue N) → List (JsonValue N) → Prop
  | v :: rest, w :: others => HiddenByMask depth v w ∧ HiddenItemsByMask depth rest others
  | _, _ => True

end

variable {text}

/-- A text is copied into the log unless it is a token. -/
theorem sanitizeText_eq {s u : String} (alike : s = u ∨ SameButLeadingDigits s u) :
    sanitizeText s = sanitizeText u ↔ s = u ∨ tokenMask s ≠ none ∧ tokenMask s = tokenMask u := by
  constructor
  · intro same
    rcases alike with equal | alike
    · exact .inl equal
    · cases first : tokenMask s with
      | none =>
          cases second : tokenMask u with
          | none =>
              simp only [sanitizeText, first, second, Option.getD_none] at same
              exact .inl same
          | some mask =>
              simp only [sanitizeText, first, second, Option.getD_none, Option.getD_some] at same
              exact absurd (same ▸ (tokenMask_clean second).2) alike.digits.1
      | some mask =>
          cases second : tokenMask u with
          | none =>
              simp only [sanitizeText, first, second, Option.getD_none, Option.getD_some] at same
              exact absurd (same ▸ (tokenMask_clean first).2) alike.digits.2
          | some other =>
              simp only [sanitizeText, first, second, Option.getD_some] at same
              exact .inr ⟨nofun, congrArg some same⟩
  · rintro (equal | ⟨_, same⟩)
    · rw [equal]
    · cases second : tokenMask u with
      | none =>
          rename_i token
          exact absurd (same.trans second) token
      | some mask => simp [sanitizeText, same, second]

/-- A secret text or object is replaced, and anything else under the key copied. -/
theorem protect_eq {bank : Bool} {v w : JsonValue N}
    (alike : isTextOrObject v = true ∧ isTextOrObject w = true ∨ Alike text bank v w) :
    protect v = protect w ↔ SameNumbers v w := by
  rcases alike with ⟨first, second⟩ | alike
  · rw [protect, protect, if_pos first, if_pos second]
    cases v <;> cases w <;> simp_all [isTextOrObject, SameNumbers]
  · cases v <;> cases w <;> simp_all [protect, isTextOrObject, SameNumbers, Alike]

end Difference


/-! ## What is equal after sanitizing -/

section Equal

variable {N : Type} {text : AuditText N} {bank : Bool} {depth : ℕ}

theorem withinDepth_eq {v w : JsonValue N} :
    withinDepth depth v = withinDepth depth w ↔ 6 < depth ∨ v = w := by
  by_cases le : depth ≤ 6
  · rw [withinDepth_of_le le, withinDepth_of_le le]
    exact ⟨.inr, fun either => either.resolve_left (not_lt.mpr le)⟩
  · rw [withinDepth_of_lt (not_le.mp le), withinDepth_of_lt (not_le.mp le)]
    exact iff_of_true rfl (.inl (not_le.mp le))

theorem sanitizeItems_eq {items others : List (JsonValue N)}
    (each : ∀ v ∈ items, ∀ w, Alike text bank v w →
      (sanitizeSensitiveData text depth v = sanitizeSensitiveData text depth w ↔
        Hidden text depth v w))
    (alike : AlikeItems text bank items others) :
    sanitizeItems text depth items = sanitizeItems text depth others ↔
      HiddenItems text depth items others := by
  induction items generalizing others with
  | nil =>
      cases others with
      | nil => exact iff_of_true rfl (by simp [HiddenItems])
      | cons w others => exact absurd alike nofun
  | cons v rest ih =>
      cases others with
      | nil => exact absurd alike nofun
      | cons w others =>
          obtain ⟨head, tail⟩ := alike
          rw [sanitizeItems, sanitizeItems, List.cons.injEq, HiddenItems,
            each v List.mem_cons_self w head,
            ih (fun v mem => each v (List.mem_cons_of_mem _ mem)) tail]

theorem maskItems_eq {items others : List (JsonValue N)}
    (each : ∀ v ∈ items, ∀ w, Alike text true v w →
      (maskBankNumbersDeep text depth v = maskBankNumbersDeep text depth w ↔
        HiddenByMask text depth v w))
    (alike : AlikeItems text true items others) :
    maskItems text depth items = maskItems text depth others ↔
      HiddenItemsByMask text depth items others := by
  induction items generalizing others with
  | nil =>
      cases others with
      | nil => exact iff_of_true rfl (by simp [HiddenItemsByMask])
      | cons w others => exact absurd alike nofun
  | cons v rest ih =>
      cases others with
      | nil => exact absurd alike nofun
      | cons w others =>
          obtain ⟨head, tail⟩ := alike
          rw [maskItems, maskItems, List.cons.injEq, HiddenItemsByMask,
            each v List.mem_cons_self w head,
            ih (fun v mem => each v (List.mem_cons_of_mem _ mem)) tail]

theorem sanitizeMembers_eq {members others : List (String × JsonValue N)}
    (plain : ∀ m ∈ members, ∀ bank w, Alike text bank m.2 w →
      (sanitizeSensitiveData text (depth + 1) m.2 = sanitizeSensitiveData text (depth + 1) w ↔
        Hidden text (depth + 1) m.2 w))
    (masked : ∀ m ∈ members, ∀ w, Alike text true m.2 w →
      (maskBankNumbersDeep text depth m.2 = maskBankNumbersDeep text depth w ↔
        HiddenByMask text depth m.2 w))
    (alike : AlikeMembers text bank members others) :
    sanitizeMembers text depth members = sanitizeMembers text depth others ↔
      HiddenMembers text depth members others := by
  induction members generalizing others with
  | nil =>
      cases others with
      | nil => exact iff_of_true rfl (by simp [HiddenMembers])
      | cons m others => exact absurd alike nofun
  | cons m rest ih =>
      cases others with
      | nil => exact absurd alike nofun
      | cons m' others =>
          obtain ⟨key, v⟩ := m
          obtain ⟨name, w⟩ := m'
          obtain ⟨rfl, head, tail⟩ := alike
          have rests := ih (fun m mem => plain m (List.mem_cons_of_mem _ mem))
            (fun m mem => masked m (List.mem_cons_of_mem _ mem)) tail
          rw [sanitizeMembers, sanitizeMembers, HiddenMembers]
          by_cases proto : key = "__proto__"
          · rw [if_pos proto, if_pos proto, rests]
            exact (and_iff_right (.inl proto)).symm
          · rw [if_neg proto, if_neg proto, List.cons.injEq, Prod.mk.injEq, rests,
              or_iff_right proto]
            simp only [auditValue, true_and]
            refine and_congr_left fun _ => ?_
            -- the three kinds of keys
            by_cases secret : isSecretAuditKey text key = true
            · rw [if_pos secret, if_pos secret, if_pos secret]
              exact protect_eq (head.imp_left fun both => both.2)
            · rw [if_neg secret, if_neg secret, if_neg secret]
              have under := head.resolve_left fun both => secret both.1
              by_cases number : isBankNumberAuditKey text key = true
              · rw [if_pos number, if_pos number, if_pos number]
                rw [number, Bool.or_true] at under
                exact masked (key, v) List.mem_cons_self w under
              · rw [if_neg number, if_neg number, if_neg number]
                exact plain (key, v) List.mem_cons_self _ w under

/-- Alike values become equal exactly where their differences are hidden. -/
theorem sanitize_eq_both (v : JsonValue N) :
    (∀ depth bank w, Alike text bank v w →
      (sanitizeSensitiveData text depth v = sanitizeSensitiveData text depth w ↔
        Hidden text depth v w)) ∧
    ∀ depth w, Alike text true v w →
      (maskBankNumbersDeep text depth v = maskBankNumbersDeep text depth w ↔
        HiddenByMask text depth v w) := by
  induction v using JsonValue.induction with
  | null =>
      refine ⟨fun depth bank w alike => ?_, fun depth w alike => ?_⟩
      · cases w with
        | null => exact iff_of_true rfl (by simp [Hidden])
        | _ => exact absurd alike nofun
      · cases w with
        | null => exact iff_of_true rfl (by simp [HiddenByMask])
        | _ => exact absurd alike nofun
  | bool b =>
      refine ⟨fun depth bank w alike => ?_, fun depth w alike => ?_⟩
      · cases w with
        | bool c =>
            obtain rfl : b = c := alike
            exact iff_of_true rfl (by simp [Hidden])
        | _ => exact absurd alike nofun
      · cases w with
        | bool c =>
            obtain rfl : b = c := alike
            exact iff_of_true rfl (by simp [HiddenByMask])
        | _ => exact absurd alike nofun
  | num m =>
      refine ⟨fun depth bank w alike => ?_, fun depth w alike => ?_⟩
      · cases w with
        | num n => simp only [sanitizeSensitiveData, withinDepth_eq, num.injEq, Hidden]
        | _ => exact absurd alike nofun
      · cases w with
        | num n =>
            refine iff_of_true ?_ (by simp [HiddenByMask])
            rw [maskBankNumbersDeep, maskBankNumbersDeep]
            rcases alike with equal | ⟨_, alike⟩
            · rw [equal]
            · rw [alike.mask]
        | _ => exact absurd alike nofun
  | str s =>
      refine ⟨fun depth bank w alike => ?_, fun depth w alike => ?_⟩
      · cases w with
        | str u =>
            rw [sanitizeSensitiveData, sanitizeSensitiveData, withinDepth_eq, str.injEq, Hidden]
            exact or_congr_right (sanitizeText_eq (alike.imp_right fun both => both.2))
        | _ => exact absurd alike nofun
      · cases w with
        | str u =>
            refine iff_of_true ?_ (by simp [HiddenByMask])
            rw [maskBankNumbersDeep, maskBankNumbersDeep]
            rcases alike with equal | ⟨_, alike⟩
            · rw [equal]
            · rw [alike.mask]
        | _ => exact absurd alike nofun
  | arr items ih =>
      refine ⟨fun depth bank w alike => ?_, fun depth w alike => ?_⟩
      · cases w with
        | arr others =>
            rw [sanitizeSensitiveData, sanitizeSensitiveData, withinDepth_eq, arr.injEq, Hidden]
            exact or_congr_right
              (sanitizeItems_eq (fun v mem w => (ih v mem).1 (depth + 1) bank w) alike)
        | _ => exact absurd alike nofun
      · cases w with
        | arr others =>
            rw [maskBankNumbersDeep, maskBankNumbersDeep, arr.injEq, HiddenByMask]
            exact maskItems_eq (fun v mem => (ih v mem).2 (depth + 1)) alike
        | _ => exact absurd alike nofun
  | obj members ih =>
      have inside (depth : ℕ) (bank : Bool) (others : List (String × JsonValue N))
          (alike : AlikeMembers text bank members others) :
          sanitizeMembers text depth members = sanitizeMembers text depth others ↔
            HiddenMembers text depth members others :=
        sanitizeMembers_eq (fun m mem => (ih m mem).1 (depth + 1)) (fun m mem => (ih m mem).2 depth)
          alike
      refine ⟨fun depth bank w alike => ?_, fun depth w alike => ?_⟩
      · cases w with
        | obj others =>
            rw [sanitizeSensitiveData, sanitizeSensitiveData, withinDepth_eq, obj.injEq, Hidden]
            exact or_congr_right (inside depth bank others alike)
        | _ => exact absurd alike nofun
      · cases w with
        | obj others =>
            rw [maskBankNumbersDeep, maskBankNumbersDeep, withinDepth_eq, obj.injEq, HiddenByMask]
            exact or_congr_right (inside (depth + 1) true others alike)
        | _ => exact absurd alike nofun

end Equal


/-! ## What is kept -/

section Kept

variable {N : Type} (text : AuditText N)

/-- A step that goes through no secret and no bank-number key. -/
def PlainStep : Step → Prop
  | .key key => isSecretAuditKey text key = false ∧ isBankNumberAuditKey text key = false
  | .index _ => True

/-- The value `x` of `v` at the path may be shown: no key above it is a secret or a
bank-number key, it is within the depth limit, and it is no token. -/
structure Shown (v : JsonValue N) (path : List Step) (x : JsonValue N) : Prop where
  there : v.at? path = some x
  plain : ∀ s ∈ path, PlainStep text s
  within : path.length ≤ 6
  noToken : ∀ s, x = .str s → tokenMask s = none

/-- The same text, number, truth value or null; a list of the same length; an object. -/
def KeptAs : JsonValue N → JsonValue N → Prop
  | .null, y => y = .null
  | .bool b, y => y = .bool b
  | .num n, y => y = .num n
  | .str s, y => y = .str s
  | .arr items, y => ∃ others, y = .arr others ∧ others.length = items.length
  | .obj _, y => ∃ others, y = .obj others

/-- Every value that may be shown is in the log, at its place. -/
def Keeps (v : JsonValue N) : Prop :=
  ∀ path x, Shown text v path x →
    ∃ y, (sanitizeSensitiveData text 0 v).at? path = some y ∧ KeptAs x y

/-- No value that may be shown stands under a member named `__proto__`. -/
def ProtoFree (v : JsonValue N) : Prop :=
  ∀ path x, Shown text v path x → Step.key "__proto__" ∉ path

variable {text}

theorem member_sanitizeMembers {key : String} {depth : ℕ} (plain : PlainStep text (.key key))
    (members : List (String × JsonValue N)) :
    member key (sanitizeMembers text depth members) =
      if key = "__proto__" then none
      else (member key members).map (sanitizeSensitiveData text (depth + 1)) := by
  induction members with
  | nil => simp [sanitizeMembers, member]
  | cons m rest ih =>
      obtain ⟨name, value⟩ := m
      rw [sanitizeMembers]
      by_cases proto : name = "__proto__"
      · rw [if_pos proto, ih]
        by_cases own : key = "__proto__"
        · rw [if_pos own, if_pos own]
        · rw [if_neg own, if_neg own, member, if_neg (by rw [proto]; exact Ne.symm own)]
      · rw [if_neg proto, member, member, ih]
        by_cases same : name = key
        · subst same
          rw [if_pos rfl, if_neg proto, if_pos rfl, auditValue, if_neg (by simp [plain.1]),
            if_neg (by simp [plain.2])]
          rfl
        · rw [if_neg same, if_neg same]

theorem sanitizeItems_getElem? {depth i : ℕ} (items : List (JsonValue N)) :
    (sanitizeItems text depth items)[i]? = items[i]?.map (sanitizeSensitiveData text depth) := by
  induction items generalizing i with
  | nil => simp [sanitizeItems]
  | cons v rest ih =>
      cases i with
      | zero => simp [sanitizeItems]
      | succ i => simpa [sanitizeItems] using ih

/-- One step down from a sanitized value: the sanitized child, but for `__proto__`. -/
theorem child_sanitize {depth : ℕ} (le : depth ≤ 6) {s : Step} (plain : PlainStep text s)
    (v : JsonValue N) :
    (sanitizeSensitiveData text depth v).child s =
      if s = .key "__proto__" then none
      else (v.child s).map (sanitizeSensitiveData text (depth + 1)) := by
  cases v with
  | arr items =>
      rw [sanitizeSensitiveData, withinDepth_of_le le]
      cases s with
      | key key => simp [child]
      | index i => simpa [child] using sanitizeItems_getElem? items
  | obj members =>
      rw [sanitizeSensitiveData, withinDepth_of_le le]
      cases s with
      | key key => simpa [child] using member_sanitizeMembers plain members
      | index i => simp [child]
  | null => simp [sanitizeSensitiveData, child]
  | _ => simp [sanitizeSensitiveData, withinDepth_of_le le, child]

/-- A plain path within the limit leads to the sanitized value, unless it goes through
`__proto__`. -/
theorem at_sanitize {path : List Step} {depth : ℕ} (within : depth + path.length ≤ 6)
    (plain : ∀ s ∈ path, PlainStep text s) (v : JsonValue N) :
    (sanitizeSensitiveData text depth v).at? path =
      if .key "__proto__" ∈ path then none
      else (v.at? path).map (sanitizeSensitiveData text (depth + path.length)) := by
  induction path generalizing depth v with
  | nil => simp [at?]
  | cons s path ih =>
      rw [List.length_cons] at within
      rw [at?, at?, child_sanitize (by omega) (plain s List.mem_cons_self)]
      by_cases proto : s = .key "__proto__"
      · rw [if_pos proto, if_pos (by simp [proto])]
        rfl
      · have deeper : depth + 1 + path.length ≤ 6 := by omega
        have next := fun w => ih deeper (fun s mem => plain s (List.mem_cons_of_mem _ mem)) w
        have mem_iff : Step.key "__proto__" ∈ s :: path ↔ Step.key "__proto__" ∈ path := by
          rw [List.mem_cons, or_iff_right (Ne.symm proto)]
        have total : depth + (path.length + 1) = depth + 1 + path.length := by omega
        rw [if_neg proto, List.length_cons, total]
        simp only [mem_iff]
        cases v.child s with
        | none => simp
        | some w => simpa using next w

theorem sanitizeItems_length {depth : ℕ} (items : List (JsonValue N)) :
    (sanitizeItems text depth items).length = items.length := by
  induction items with
  | nil => rfl
  | cons v rest ih => rw [sanitizeItems, List.length_cons, List.length_cons, ih]

theorem keptAs_sanitize {depth : ℕ} (le : depth ≤ 6) {x : JsonValue N}
    (noToken : ∀ s, x = .str s → tokenMask s = none) :
    KeptAs x (sanitizeSensitiveData text depth x) := by
  cases x with
  | null => rfl
  | bool b => exact withinDepth_of_le le _
  | num n => exact withinDepth_of_le le _
  | str s =>
      rw [sanitizeSensitiveData, withinDepth_of_le le, sanitizeText, noToken s rfl]
      rfl
  | arr items =>
      exact ⟨_, (withinDepth_of_le le _ : _), sanitizeItems_length items⟩
  | obj members => exact ⟨_, (withinDepth_of_le le _ : _)⟩

theorem keeps_iff (v : JsonValue N) : Keeps text v ↔ ProtoFree text v := by
  constructor
  · intro keeps path x shown proto
    obtain ⟨y, there, _⟩ := keeps path x shown
    rw [at_sanitize (by simpa using shown.within) shown.plain, if_pos proto] at there
    exact absurd there nofun
  · intro free path x shown
    refine ⟨sanitizeSensitiveData text (0 + path.length) x, ?_, ?_⟩
    · rw [at_sanitize (by simpa using shown.within) shown.plain, if_neg (free path x shown),
        shown.there, Option.map_some]
    · exact keptAs_sanitize (by simpa using shown.within) shown.noToken

end Kept

/-! ## The redaction -/

section Redaction

variable {N : Type} (text : AuditText N)

/-- What the log promises about a value, and about another that may differ from it in
what must not be shown. -/
structure Redacts (v w : JsonValue N) : Prop where
  blind : Alike text false v w →
    sanitizeSensitiveData text 0 v = sanitizeSensitiveData text 0 w
  stable : sanitizeSensitiveData text 0 (sanitizeSensitiveData text 0 v) =
    sanitizeSensitiveData text 0 v
  keeps : Keeps text v

/-- For every two values the sanitizer does what it promises exactly when no difference
between them stands under an ordinary key inside an object under a bank-number key,
and no value to be shown stands under `__proto__`. -/
theorem redacts_iff (v w : JsonValue N) :
    Redacts text v w ↔ (Alike text false v w → Hidden text 0 v w) ∧ ProtoFree text v := by
  have equal (alike : Alike text false v w) :
      sanitizeSensitiveData text 0 v = sanitizeSensitiveData text 0 w ↔ Hidden text 0 v w :=
    (sanitize_eq_both v).1 0 false w alike
  constructor
  · intro ⟨blind, _, keeps⟩
    exact ⟨fun alike => (equal alike).mp (blind alike), (keeps_iff v).mp keeps⟩
  · intro ⟨hidden, free⟩
    exact ⟨fun alike => (equal alike).mpr (hidden alike), (sanitize_idem_both v).1 0,
      (keeps_iff v).mpr free⟩

/-! ### The changes of the site's settings -/

def plainText : AuditText ℕ := ⟨String.toLower, fun n => toString n⟩

/-- The details of a settings save that changes the card number. -/
def cardChange (cardNumber : String) : JsonValue ℕ :=
  .obj [("changes", .obj [("cardNumber", .obj [("before", .str ""), ("after", .str cardNumber)])])]

theorem alike_cardChange {a b : String} (alike : SameButLeadingDigits a b) :
    Alike plainText false (cardChange a) (cardChange b) := by
  have bank : isBankNumberAuditKey plainText "cardNumber" = true := by decide +kernel
  simp [cardChange, Alike, AlikeMembers, bank, alike]

/-- The card number stays readable under `after`. -/
theorem card_number_in_the_log :
    ¬ ∀ (N : Type) (text : AuditText N) (v w : JsonValue N), Redacts text v w := by
  intro claim
  have alike : SameButLeadingDigits "6104337812345678" "5022291012345678" :=
    ⟨"610433781234".toList, "502229101234".toList, "5678".toList, by decide +kernel,
      by decide +kernel, by decide +kernel, by decide +kernel, by decide +kernel, by decide +kernel⟩
  have hidden := ((redacts_iff plainText _ _).mp
    (claim ℕ plainText (cardChange "6104337812345678") (cardChange "5022291012345678"))).1
      (alike_cardChange alike)
  have secret : isSecretAuditKey plainText "changes" = false ∧
      isSecretAuditKey plainText "cardNumber" = false ∧
      isSecretAuditKey plainText "after" = false := by decide +kernel
  have bank : isBankNumberAuditKey plainText "changes" = false ∧
      isBankNumberAuditKey plainText "cardNumber" = true ∧
      isBankNumberAuditKey plainText "after" = false := by decide +kernel
  have noToken : tokenMask "6104337812345678" = none := by decide +kernel
  simp [cardChange, Hidden, HiddenMembers, HiddenByMask, secret, bank, noToken] at hidden

end Redaction


end PapitalErp.AuditSanitizer
