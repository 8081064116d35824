import PapitalErp.Texts.NumberTexts

/-!
# The readings of a number's text agree

The text that a field shows for a decimal text is read back as it, in the browser and on the
server; a typed text that both take is the same text for both, and one with a misplaced
separator is refused by both. Both clean a typed text alike, and differ in that the browser
takes a slash after a digit for a point, which the server does not take at all.
-/

namespace PapitalErp.NumberTexts

open TextPatterns RegularExpression

/-! ## Uniform texts -/

/-- A character that cleaning leaves as it is. -/
def Uniform (c : Char) : Prop := latinDigit c = c ∧ decimalSign c = c ∧ c ∉ invisible

instance (c : Char) : Decidable (Uniform c) := inferInstanceAs (Decidable (_ ∧ _))

theorem uniform_digits : ∀ c ∈ digits, Uniform c := List.all_iff_forall_prop.mp (by rfl)

theorem uniform_marks : ∀ c ∈ ['-', '.', '٬'], Uniform c :=
  List.all_iff_forall_prop.mp (by rfl)

/-- A digit of either script becomes a Latin one; other characters stay. -/
theorem latinDigit_cases (c : Char) : latinDigit c ∈ digits ∨ latinDigit c = c := by
  cases found : ((persianDigits ++ arabicDigits).zip (digits ++ digits)).lookup c with
  | none => exact Or.inr (by rw [latinDigit, found, Option.getD_none])
  | some d =>
    obtain ⟨before, after, split, -⟩ := List.lookup_eq_some_iff.mp found
    have member : (c, d) ∈ (persianDigits ++ arabicDigits).zip (digits ++ digits) := by
      rw [split]
      exact List.mem_append_right _ List.mem_cons_self
    refine Or.inl ?_
    rw [latinDigit, found, Option.getD_some]
    simpa using (List.of_mem_zip member).2

theorem uniform_of_clean {c : Char} (visible : decimalSign (latinDigit c) ∉ invisible) :
    Uniform (decimalSign (latinDigit c)) := by
  rcases latinDigit_cases c with digit | same
  · have uniform := uniform_digits _ digit
    rwa [uniform.2.1]
  · rw [same] at visible ⊢
    by_cases point : c = '٫'
    · rw [point]
      exact uniform_marks '.' (by decide)
    · have sign : decimalSign c = c := if_neg point
      rw [sign] at visible ⊢
      exact ⟨same, sign, visible⟩

theorem uniform_cleaned {raw : List Char} : ∀ c ∈ cleaned raw, Uniform c := by
  intro c hc
  obtain ⟨member, visible⟩ := List.mem_filter.mp hc
  obtain ⟨d, hd, rfl⟩ := List.mem_map.mp member
  obtain ⟨e, -, rfl⟩ := List.mem_map.mp hd
  exact uniform_of_clean (of_decide_eq_true visible)

theorem map_clean {t : List Char} (h : ∀ c ∈ t, Uniform c) :
    (toLatinDigits t).map decimalSign = t := by
  rw [toLatinDigits, List.map_map]
  refine (List.map_congr_left fun c hc => ?_).trans (List.map_id t)
  rw [Function.comp_apply, (h c hc).1, (h c hc).2.1]
  rfl

/-- The text without its separators. -/
def ungrouped (t : List Char) : List Char := t.filter (· ∉ separators)

theorem trim_of_visible {t : List Char} (h : ∀ c ∈ t, c ∉ invisible) : trim t = t := by
  have visible : ∀ c ∈ t, ¬(decide (c ∈ whitespace) = true) := by
    intro c hc space
    exact h c hc (List.mem_append_left _ (of_decide_eq_true space))
  have front : t.dropWhile (· ∈ whitespace) = t :=
    List.dropWhile_eq_self_iff.mpr fun _ => visible _ (List.getElem_mem _)
  rw [trim, front]
  exact List.rdropWhile_eq_self_iff.mpr fun _ => visible _ (List.getLast_mem _)

/-- Of a cleaned text, only the separators go. -/
theorem normalizeDecimalString_of_uniform {t : List Char} (h : ∀ c ∈ t, Uniform c) :
    normalizeDecimalString t = ungrouped t := by
  have same : t.filter (fun c => c ∉ separators ++ invisible) = ungrouped t := by
    refine List.filter_congr fun c hc => ?_
    rw [decide_eq_decide, List.mem_append, or_iff_left (h c hc).2.2]
  rw [normalizeDecimalString, map_clean h, same]
  exact trim_of_visible fun c hc => (h c (List.mem_of_mem_filter hc)).2.2

theorem ungrouped_cons_of_not {c : Char} (h : c ∉ separators) (t : List Char) :
    ungrouped (c :: t) = c :: ungrouped t := by simp [ungrouped, h]

theorem ungrouped_cons_of_mem {c : Char} (h : c ∈ separators) (t : List Char) :
    ungrouped (c :: t) = ungrouped t := by simp [ungrouped, h]

theorem ungrouped_append (a b : List Char) : ungrouped (a ++ b) = ungrouped a ++ ungrouped b :=
  List.filter_append a b

theorem ungrouped_of_none {t : List Char} (h : ¬HasSeparator t) : ungrouped t = t :=
  List.filter_eq_self.mpr fun c hc => decide_eq_true fun separator => h ⟨c, hc, separator⟩

/-! ## What the readers take -/

theorem firstSlash_of_none {t : List Char} (h : '/' ∉ t) : firstSlash t = t := by
  induction t with
  | nil => rfl
  | cons a rest ih =>
    have later := ih fun mem => h (List.mem_cons_of_mem a mem)
    unfold firstSlash
    split
    · exact absurd (List.mem_cons_of_mem a List.mem_cons_self) h
    · rw [later]

theorem mem_firstSlash {t : List Char} {c : Char} (h : c ∈ firstSlash t) : c ∈ t ∨ c = '.' := by
  induction t with
  | nil => exact Or.inl h
  | cons a rest ih =>
    have step : c ∈ a :: firstSlash rest → c ∈ a :: rest ∨ c = '.' := by
      intro mem
      rcases List.mem_cons.mp mem with rfl | later
      · exact Or.inl List.mem_cons_self
      · exact (ih later).imp_left (List.mem_cons_of_mem a)
    unfold firstSlash at h
    split at h
    · split_ifs at h
      · rename_i after _
        rcases List.mem_cons.mp h with rfl | later
        · exact Or.inl List.mem_cons_self
        · rcases List.mem_cons.mp later with point | rest
          · exact Or.inr point
          · exact Or.inl (List.mem_cons_of_mem a (List.mem_cons_of_mem _ rest))
      · exact step h
    · exact step h

theorem uniform_firstSlash {t : List Char} (h : ∀ c ∈ t, Uniform c) :
    ∀ c ∈ firstSlash t, Uniform c := by
  intro c hc
  rcases mem_firstSlash hc with mem | rfl
  · exact h c mem
  · exact uniform_marks '.' (by decide)

theorem not_hasSeparator_of_decimalPattern {t : List Char} (h : Fits decimalPattern t) :
    ¬HasSeparator t := by
  have apart : ∀ c ∈ symbols decimalPattern, c ∉ separators :=
    List.all_iff_forall_prop.mp (by rfl)
  rintro ⟨c, hc, separator⟩
  exact apart c (h.mem_symbols c hc) separator

theorem no_slash_of_decimalPattern {t : List Char} (h : Fits decimalPattern t) : '/' ∉ t := by
  intro mem
  exact absurd (h.mem_symbols _ mem) (by decide)

/-- What the server takes: the cleaned text without its separators, which are between groups
of three digits. -/
theorem readOnServer_eq_some {raw clean : List Char} (h : readOnServer raw = some clean) :
    clean = ungrouped (cleaned raw) ∧ Fits decimalPattern clean ∧
      (HasSeparator (cleaned raw) → Fits groupedText (cleaned raw)) := by
  unfold readOnServer at h
  dsimp only at h
  split_ifs at h with pattern
  obtain rfl := Option.some.inj h
  have grouped : HasSeparator (cleaned raw) → Fits groupedText (cleaned raw) := by
    intro separator
    by_contra misplaced
    have kept : normalizeGroupedDecimalString raw = cleaned raw := by
      rw [normalizeGroupedDecimalString]
      exact if_pos ⟨separator, misplaced⟩
    exact not_hasSeparator_of_decimalPattern pattern (kept ▸ separator)
  refine ⟨?_, pattern, grouped⟩
  rw [normalizeGroupedDecimalString, ← normalizeDecimalString_of_uniform uniform_cleaned]
  exact if_neg fun both => both.2 (grouped both.1)

/-- A text with a slash is not taken on the server. -/
theorem no_slash_of_readOnServer {raw clean : List Char} (h : readOnServer raw = some clean) :
    '/' ∉ cleaned raw := by
  obtain ⟨text, pattern, -⟩ := readOnServer_eq_some h
  have apart : '/' ∉ separators := by decide
  intro slash
  refine no_slash_of_decimalPattern pattern ?_
  rw [text]
  exact List.mem_filter.mpr ⟨slash, decide_eq_true apart⟩

/-- What the browser makes of a text without a misplaced separator. -/
theorem canonicalText_of_grouped (raw : List Char)
    (h : HasSeparator (firstSlash (cleaned raw)) → Fits groupedText (firstSlash (cleaned raw))) :
    canonicalText raw = .ok (ungrouped (firstSlash (cleaned raw))) := by
  unfold canonicalText
  dsimp only
  by_cases separator : HasSeparator (firstSlash (cleaned raw))
  · rw [if_neg (not_not.mpr separator), if_neg (not_not.mpr (h separator)),
      normalizeDecimalString_of_uniform (uniform_firstSlash uniform_cleaned)]
  · rw [if_pos separator, ungrouped_of_none separator]

/-! ## What a field shows -/

theorem fits_decimalText_iff {t : List Char} : Fits decimalText t ↔ ∃ sign intPart fraction,
    (sign = [] ∨ sign = ['-']) ∧ (∀ c ∈ intPart, c ∈ digits) ∧
      (∀ f ∈ fraction, ∀ c ∈ f, c ∈ digits) ∧ t = sign ++ intPart ++ fractionText '.' fraction := by
  constructor
  · intro h
    obtain ⟨sign, hSign, tail, hTail, rfl⟩ := fits_mul.mp h
    obtain ⟨intPart, hInt, rest, hRest, rfl⟩ := fits_mul.mp hTail
    have signs : sign = [] ∨ sign = ['-'] := (fits_maybe.mp hSign).symm.imp_right fits_char.mp
    rcases fits_maybe.mp hRest with point | rfl
    · obtain ⟨mark, hMark, f, hf, rfl⟩ := fits_mul.mp point
      obtain rfl := fits_char.mp hMark
      refine ⟨sign, intPart, some f, signs, fits_star_anyOf.mp hInt, ?_, (List.append_assoc _ _ _).symm⟩
      rintro g ⟨⟩
      exact fits_star_anyOf.mp hf
    · refine ⟨sign, intPart, none, signs, fits_star_anyOf.mp hInt, ?_, (List.append_assoc _ _ _).symm⟩
      rintro g ⟨⟩
  · rintro ⟨sign, intPart, fraction, hSign, hInt, hFraction, rfl⟩
    rw [List.append_assoc]
    refine Fits.mul (fits_maybe.mpr (hSign.symm.imp_left fits_char.mpr))
      (Fits.mul (fits_star_anyOf.mpr hInt) (fits_maybe.mpr ?_))
    cases fraction with
    | none => exact Or.inr rfl
    | some f => exact Or.inl (Fits.mul (a := ['.']) (fits_char.mpr rfl) (fits_star_anyOf.mpr (hFraction f rfl)))

theorem splitPoint_eq {intPart : List Char} {fraction : Option (List Char)}
    (hInt : ∀ c ∈ intPart, c ∈ digits) (hFraction : ∀ f ∈ fraction, ∀ c ∈ f, c ∈ digits) :
    splitPoint (intPart ++ fractionText '.' fraction) = (intPart, fraction) := by
  have noPoint : ∀ c ∈ digits, c ≠ '.' := List.all_iff_forall_prop.mp (by rfl)
  have before : ∀ c ∈ intPart, decide (c ≠ '.') = true := fun c hc => decide_eq_true (noPoint c (hInt c hc))
  unfold splitPoint
  rw [List.takeWhile_append_of_pos before, List.dropWhile_append_of_pos before]
  cases fraction with
  | none => simp [fractionText]
  | some f =>
    have after : ∀ c ∈ f, c ≠ '.' := fun c hc => noPoint c (hFraction f rfl c hc)
    simpa [fractionText] using after

/-- The zeros that are not grouped, and the other digits of a whole part. -/
theorem leadingZeros_spec {intPart : List Char} (hInt : ∀ c ∈ intPart, c ∈ digits) :
    ∃ rest, intPart = leadingZeros intPart ++ rest ∧ (∀ c ∈ leadingZeros intPart, c = '0') ∧
      (rest.length ≤ 1 ∨ ∃ d after, rest = d :: after ∧ d ∈ digits.tail) := by
  have zeros : ∀ c ∈ intPart.takeWhile (· = '0'), c = '0' := by
    intro c hc
    have holds := List.mem_takeWhile_imp hc
    exact of_decide_eq_true holds
  have split := List.takeWhile_append_dropWhile (p := (· = '0')) (l := intPart)
  unfold leadingZeros
  dsimp only
  cases tail : intPart.dropWhile (· = '0') with
  | nil =>
    rw [tail, List.append_nil] at split
    refine ⟨intPart.drop (intPart.length - 1), ?_, fun c hc => ?_, Or.inl ?_⟩
    · rw [List.head?_nil, Option.any_none, if_neg Bool.false_ne_true, split, List.dropLast_eq_take,
        List.take_append_drop]
    · rw [List.head?_nil, Option.any_none, if_neg Bool.false_ne_true] at hc
      exact zeros c (List.mem_of_mem_dropLast hc)
    · rw [List.length_drop]
      omega
  | cons d after =>
    have member : d ∈ intPart := by
      rw [← split, tail]
      exact List.mem_append_right _ List.mem_cons_self
    have nonzero : d ≠ '0' := by
      have first := List.head?_dropWhile_not (fun c => decide (c = '0')) intPart
      rw [tail] at first
      simpa using first
    have digit : d ∈ digits := hInt d member
    have positive : d ∈ digits.tail := by
      have cases : ∀ c ∈ digits, c = '0' ∨ c ∈ digits.tail := List.all_iff_forall_prop.mp (by rfl)
      exact (cases d digit).resolve_left nonzero
    rw [List.head?_cons, Option.any_some, if_pos (decide_eq_true digit)]
    refine ⟨d :: after, ?_, zeros, Or.inr ⟨d, after, rfl, positive⟩⟩
    rw [← tail, split]

theorem separator_mark : '٬' ∈ separators := by decide

theorem digit_not_separator : ∀ c ∈ digits, c ∉ separators :=
  List.all_iff_forall_prop.mp (by rfl)

theorem groupThousands_of_short {ds : List Char} (short : ds.length ≤ 3) : groupThousands ds = ds := by
  induction ds with
  | nil => rfl
  | cons d rest ih =>
    rw [List.length_cons] at short
    have few : ¬(rest ≠ [] ∧ rest.length % 3 = 0) := by
      rintro ⟨nonempty, threes⟩
      have := List.length_pos_iff.mpr nonempty
      omega
    rw [groupThousands, if_neg few, ih (by omega)]

theorem ungrouped_groupThousands {ds : List Char} (h : ∀ c ∈ ds, c ∈ digits) :
    ungrouped (groupThousands ds) = ds := by
  induction ds with
  | nil => rfl
  | cons d rest ih =>
    have digit : d ∉ separators := digit_not_separator d (h d List.mem_cons_self)
    have later := ih fun c hc => h c (List.mem_cons_of_mem d hc)
    rw [groupThousands]
    split_ifs
    · rw [ungrouped_cons_of_not digit, ungrouped_cons_of_mem separator_mark, later]
    · rw [ungrouped_cons_of_not digit, later]

/-- Grouped digits are one to three digits, and groups of three with a separator. -/
theorem groupThousands_spec {ds : List Char} (h : ∀ c ∈ ds, c ∈ digits) (nonempty : ds ≠ []) :
    ∃ first tail, groupThousands ds = first ++ tail ∧ (∀ c ∈ first, c ∈ digits) ∧
      1 ≤ first.length ∧ first.length ≤ 3 ∧ first.length % 3 = ds.length % 3 ∧
        first.head? = ds.head? ∧ Fits group.star tail := by
  induction ds with
  | nil => exact absurd rfl nonempty
  | cons d rest ih =>
    have digit : d ∈ digits := h d List.mem_cons_self
    rw [groupThousands, List.length_cons]
    by_cases last : rest = []
    · rw [if_neg fun both => both.1 last, last]
      exact ⟨[d], [], rfl, by simpa using digit, le_rfl, by simp, rfl, rfl, Fits.star_nil _⟩
    · obtain ⟨first, tail, text, ofDigits, low, high, count, -, groups⟩ :=
        ih (fun c hc => h c (List.mem_cons_of_mem d hc)) last
      by_cases threes : rest.length % 3 = 0
      · -- the digits read so far are a whole group
        obtain ⟨a, b, c, rfl⟩ : ∃ a b c, first = [a, b, c] :=
          List.length_eq_three.mp (by omega)
        have one : Fits group ['٬', a, b, c] :=
          Fits.mul (a := ['٬']) (fits_singleton.mpr separator_mark)
            (Fits.mul (a := [a]) (fits_singleton.mpr (ofDigits a (by simp)))
              (Fits.mul (a := [b]) (fits_singleton.mpr (ofDigits b (by simp)))
                (fits_singleton.mpr (ofDigits c (by simp)))))
        rw [if_pos ⟨last, threes⟩, text]
        refine ⟨[d], ['٬', a, b, c] ++ tail, rfl, by simpa using digit, le_rfl, by simp, ?_, rfl,
          one.star_append groups⟩
        rw [List.length_singleton]
        omega
      · rw [if_neg fun both => threes both.2, text]
        refine ⟨d :: first, tail, rfl, fun c hc => ?_, by simp, ?_, ?_, rfl, groups⟩
        · rcases List.mem_cons.mp hc with rfl | later
          · exact digit
          · exact ofDigits c later
        · rw [List.length_cons]
          omega
        · rw [List.length_cons]
          omega

/-- The first group after the zeros, of a digit that is not zero and up to two more. -/
theorem fits_first {more : List Char} (few : more.length ≤ 2) (h : ∀ c ∈ more, c ∈ digits) :
    Fits (maybe (anyOf digits * maybe (anyOf digits))) more := by
  rw [fits_maybe]
  match more, few, h with
  | [], _, _ => exact Or.inr rfl
  | [a], _, h =>
    exact Or.inl (Fits.mul (a := [a]) (b := []) (fits_singleton.mpr (h a (by simp)))
      (fits_maybe.mpr (Or.inr rfl)))
  | [a, b], _, h =>
    exact Or.inl (Fits.mul (a := [a]) (fits_singleton.mpr (h a (by simp)))
      (fits_maybe.mpr (Or.inl (fits_singleton.mpr (h b (by simp))))))

/-- A number with grouped digits has its separators in their places. -/
theorem fits_groupedText {sign zeros rest : List Char} {fraction : Option (List Char)}
    (hSign : sign = [] ∨ sign = ['-']) (hZeros : ∀ c ∈ zeros, c = '0')
    (hRest : ∀ c ∈ rest, c ∈ digits) (long : 3 < rest.length)
    (hFirst : ∃ d after, rest = d :: after ∧ d ∈ digits.tail)
    (hFraction : ∀ f ∈ fraction, ∀ c ∈ f, c ∈ digits) :
    Fits groupedText (sign ++ (zeros ++ groupThousands rest) ++ fractionText '.' fraction) := by
  have nonempty : rest ≠ [] := List.length_pos_iff.mp (by omega)
  obtain ⟨first, tail, text, ofDigits, low, high, -, head, groups⟩ := groupThousands_spec hRest nonempty
  have more : tail ≠ [] := by
    rintro rfl
    have all := ungrouped_groupThousands hRest
    have length := List.length_filter_le (· ∉ separators) (groupThousands rest)
    rw [← ungrouped, all, text, List.append_nil] at length
    omega
  obtain ⟨d, after, rfl, positive⟩ := hFirst
  obtain ⟨e, others, rfl⟩ : ∃ e others, first = e :: others :=
    List.exists_cons_of_length_pos (by omega)
  obtain rfl : e = d := by simpa using head
  have shape : sign ++ (zeros ++ groupThousands (e :: after)) ++ fractionText '.' fraction =
      sign ++ (zeros ++ ([e] ++ (others ++ (tail ++ fractionText '.' fraction)))) := by
    rw [text]
    simp only [List.append_assoc, List.cons_append, List.nil_append]
  rw [shape]
  refine Fits.mul (fits_maybe.mpr (hSign.symm.imp_left fits_char.mpr))
    (Fits.mul (fits_star_anyOf.mpr fun c hc => List.mem_singleton.mpr (hZeros c hc))
      (Fits.mul (fits_singleton.mpr positive) (Fits.mul ?_ (Fits.mul (groups.oneOrMore more) ?_))))
  · rw [List.length_cons] at high
    exact fits_first (by omega) fun c hc => ofDigits c (List.mem_cons_of_mem e hc)
  · rw [fits_maybe]
    cases fraction with
    | none => exact Or.inr rfl
    | some f =>
      exact Or.inl (Fits.mul (a := ['.']) (fits_char.mpr rfl) (fits_star_anyOf.mpr (hFraction f rfl)))

/-! ## A shown text is read back -/

/-- A decimal text in its parts, and as it is shown, with Latin digits and a point. -/
structure Shown (text latin : List Char) : Prop where
  uniform : ∀ c ∈ latin, Uniform c
  noSlash : '/' ∉ latin
  grouped : HasSeparator latin → Fits groupedText latin
  same : ungrouped latin = text

theorem not_mem_slash {sign integer : List Char} {fraction : Option (List Char)}
    (h : ∀ c ∈ sign ++ integer ++ fractionText '.' fraction, c ∈ digits ++ ['-', '.', '٬']) :
    '/' ∉ sign ++ integer ++ fractionText '.' fraction := by
  intro slash
  exact absurd (h _ slash) (by decide)

theorem uniform_shown : ∀ c ∈ digits ++ ['-', '.', '٬'], Uniform c :=
  List.all_iff_forall_prop.mp (by decide)

/-- The characters of a shown text, before its digits are made Persian. -/
theorem mem_shown {sign integer : List Char} {fraction : Option (List Char)}
    (hSign : sign = [] ∨ sign = ['-']) (hInteger : ∀ c ∈ integer, c ∈ digits ∨ c = '٬')
    (hFraction : ∀ f ∈ fraction, ∀ c ∈ f, c ∈ digits) :
    ∀ c ∈ sign ++ integer ++ fractionText '.' fraction, c ∈ digits ++ ['-', '.', '٬'] := by
  intro c hc
  rcases List.mem_append.mp hc with before | after
  · rcases List.mem_append.mp before with isSign | inInteger
    · rcases hSign with rfl | rfl
      · exact absurd isSign List.not_mem_nil
      · obtain rfl := List.mem_singleton.mp isSign
        simp
    · rcases hInteger c inInteger with digit | rfl
      · exact List.mem_append_left _ digit
      · simp
  · cases fraction with
    | none => exact absurd after List.not_mem_nil
    | some f =>
      rcases List.mem_cons.mp after with rfl | digit
      · simp
      · exact List.mem_append_left _ (hFraction f rfl c digit)

/-- Cleaning a shown text gives the Latin digits and the point back. -/
theorem cleaned_persianDigitsOf {sign integer : List Char} {fraction : Option (List Char)}
    (hSign : sign = [] ∨ sign = ['-']) (hInteger : ∀ c ∈ integer, c ∈ digits ∨ c = '٬')
    (hFraction : ∀ f ∈ fraction, ∀ c ∈ f, c ∈ digits) :
    cleaned (persianDigitsOf (sign ++ integer ++ fractionText '٫' fraction)) =
      sign ++ integer ++ fractionText '.' fraction := by
  have back : ∀ c ∈ digits ++ ['-', '٬'], decimalSign (latinDigit (persianDigit c)) = c :=
    List.all_iff_forall_prop.mp (by rfl)
  have point : decimalSign (latinDigit (persianDigit '٫')) = '.' := by rfl
  have each : ∀ l : List Char, (∀ c ∈ l, c ∈ digits ++ ['-', '٬']) →
      l.map (decimalSign ∘ latinDigit ∘ persianDigit) = l :=
    fun l hl => (List.map_congr_left fun c hc => back c (hl c hc)).trans (List.map_id l)
  have ofSign : ∀ c ∈ sign, c ∈ digits ++ ['-', '٬'] := by
    rcases hSign with rfl | rfl
    · exact fun c hc => absurd hc List.not_mem_nil
    · intro c hc
      rw [List.mem_singleton.mp hc]
      simp
  have ofInteger : ∀ c ∈ integer, c ∈ digits ++ ['-', '٬'] := by
    intro c hc
    rcases hInteger c hc with digit | rfl
    · exact List.mem_append_left _ digit
    · simp
  have ofFraction : (fractionText '٫' fraction).map (decimalSign ∘ latinDigit ∘ persianDigit) =
      fractionText '.' fraction := by
    cases fraction with
    | none => rfl
    | some f =>
      have digitsBack := each f fun c hc => List.mem_append_left _ (hFraction f rfl c hc)
      rw [fractionText, List.map_cons, digitsBack, Function.comp_apply, Function.comp_apply, point]
      rfl
  have latin : (toLatinDigits (persianDigitsOf (sign ++ integer ++ fractionText '٫' fraction))).map
      decimalSign = sign ++ integer ++ fractionText '.' fraction := by
    rw [toLatinDigits, persianDigitsOf, List.map_map, List.map_map, List.map_append, List.map_append]
    exact congrArg₂ _ (congrArg₂ _ (each sign ofSign) (each integer ofInteger)) ofFraction
  rw [cleaned, latin]
  refine List.filter_eq_self.mpr fun c hc => decide_eq_true ?_
  exact (uniform_shown c (mem_shown hSign hInteger hFraction c hc)).2.2

/-- The whole part as it is shown, before its digits are made Persian. -/
def shownInteger (intPart : List Char) (grouped : Bool) : List Char :=
  if grouped then
    leadingZeros intPart ++ groupThousands (intPart.drop (leadingZeros intPart).length)
  else intPart

theorem mem_groupThousands {ds : List Char} (h : ∀ c ∈ ds, c ∈ digits) :
    ∀ c ∈ groupThousands ds, c ∈ digits ∨ c = '٬' := by
  induction ds with
  | nil => exact fun _ hc => absurd hc List.not_mem_nil
  | cons d rest ih =>
    have digit : d ∈ digits := h d List.mem_cons_self
    have later := ih fun c hc => h c (List.mem_cons_of_mem d hc)
    rw [groupThousands]
    split_ifs
    · simpa [digit] using later
    · simpa [digit] using later

theorem ungrouped_of_digits {l : List Char} (h : ∀ c ∈ l, c ∉ separators) : ungrouped l = l :=
  ungrouped_of_none fun ⟨c, hc, separator⟩ => h c hc separator

theorem sign_not_separator {sign : List Char} (hSign : sign = [] ∨ sign = ['-']) :
    ∀ c ∈ sign, c ∉ separators := by
  rcases hSign with rfl | rfl
  · exact fun _ hc => absurd hc List.not_mem_nil
  · intro c hc
    rw [List.mem_singleton.mp hc]
    decide

theorem fraction_not_separator {fraction : Option (List Char)}
    (hFraction : ∀ f ∈ fraction, ∀ c ∈ f, c ∈ digits) :
    ∀ c ∈ fractionText '.' fraction, c ∉ separators := by
  cases fraction with
  | none => exact fun _ hc => absurd hc List.not_mem_nil
  | some f =>
    intro c hc
    rcases List.mem_cons.mp hc with rfl | digit
    · decide
    · exact digit_not_separator c (hFraction f rfl c digit)

/-- A shown text, with Latin digits and a point: its separators are in their places, and
without them it is the text. -/
theorem shown_of_parts {sign intPart : List Char} {fraction : Option (List Char)}
    (hSign : sign = [] ∨ sign = ['-']) (hInt : ∀ c ∈ intPart, c ∈ digits)
    (hFraction : ∀ f ∈ fraction, ∀ c ∈ f, c ∈ digits) (grouped : Bool) :
    (∀ c ∈ shownInteger intPart grouped, c ∈ digits ∨ c = '٬') ∧
      Shown (sign ++ intPart ++ fractionText '.' fraction)
        (sign ++ shownInteger intPart grouped ++ fractionText '.' fraction) := by
  have ofSign := ungrouped_of_digits (sign_not_separator hSign)
  have ofFraction := ungrouped_of_digits (fraction_not_separator hFraction)
  have members : ∀ c ∈ shownInteger intPart grouped, c ∈ digits ∨ c = '٬' := by
    unfold shownInteger
    split_ifs
    · intro c hc
      rcases List.mem_append.mp hc with zero | digit
      · obtain ⟨rest, -, zeros, -⟩ := leadingZeros_spec hInt
        rw [zeros c zero]
        exact Or.inl (by decide)
      · exact mem_groupThousands (fun c hc => hInt c (List.mem_of_mem_drop hc)) c digit
    · exact fun c hc => Or.inl (hInt c hc)
  have shown := mem_shown hSign members hFraction
  refine ⟨members, fun c hc => uniform_shown c (shown c hc), not_mem_slash shown, ?_, ?_⟩
  · -- a separator is shown in a grouped whole part of four digits or more
    rintro ⟨c, hc, separator⟩
    have inInteger : c ∈ shownInteger intPart grouped := by
      rcases List.mem_append.mp hc with before | after
      · rcases List.mem_append.mp before with isSign | member
        · exact absurd separator (sign_not_separator hSign c isSign)
        · exact member
      · exact absurd separator (fraction_not_separator hFraction c after)
    obtain ⟨rest, split, zeros, first⟩ := leadingZeros_spec hInt
    have hRest : ∀ c ∈ rest, c ∈ digits := by
      intro c hc
      refine hInt c ?_
      rw [split]
      exact List.mem_append_right _ hc
    have drop : intPart.drop (leadingZeros intPart).length = rest :=
      (congrArg (List.drop (leadingZeros intPart).length) split).trans List.drop_left
    have integer : shownInteger intPart true = leadingZeros intPart ++ groupThousands rest := by
      rw [shownInteger, if_pos rfl, drop]
    have isGrouped : grouped = true := by
      cases grouped with
      | true => rfl
      | false => exact absurd separator (digit_not_separator c (hInt c inInteger))
    subst isGrouped
    have long : 3 < rest.length := by
      by_contra short
      rw [integer, groupThousands_of_short (not_lt.mp short), ← split] at inInteger
      exact digit_not_separator c (hInt c inInteger) separator
    rw [integer]
    exact fits_groupedText hSign zeros hRest long (first.resolve_left (by omega)) hFraction
  · rw [ungrouped_append, ungrouped_append, ofSign, ofFraction]
    congr 2
    unfold shownInteger
    split_ifs
    · obtain ⟨rest, split, zeros, -⟩ := leadingZeros_spec hInt
      have ofZeros : ungrouped (leadingZeros intPart) = leadingZeros intPart := by
        refine ungrouped_of_digits fun c hc => ?_
        rw [zeros c hc]
        decide
      have drop : intPart.drop (leadingZeros intPart).length = rest :=
        (congrArg (List.drop (leadingZeros intPart).length) split).trans List.drop_left
      rw [ungrouped_append, ofZeros,
        ungrouped_groupThousands fun c hc => hInt c (List.mem_of_mem_drop hc), drop, ← split]
    · exact ungrouped_of_digits fun c hc => digit_not_separator c (hInt c hc)

/-- The text without the separators is what both readers make of a shown text. -/
theorem Shown.reads {text latin raw : List Char} (h : Shown text latin) (clean : cleaned raw = latin) :
    canonicalText raw = .ok text ∧ normalizeGroupedDecimalString raw = text := by
  have slash : firstSlash (cleaned raw) = latin := by rw [clean, firstSlash_of_none h.noSlash]
  constructor
  · have read := canonicalText_of_grouped raw (by rw [slash]; exact h.grouped)
    rwa [slash, h.same] at read
  · rw [normalizeGroupedDecimalString, clean, if_neg fun both => both.2 (h.grouped both.1), normalizeDecimalString_of_uniform h.uniform,
      h.same]

theorem cleaned_of_uniform {t : List Char} (h : ∀ c ∈ t, Uniform c) : cleaned t = t := by
  rw [cleaned, map_clean h]
  exact List.filter_eq_self.mpr fun c hc => decide_eq_true (h c hc).2.2

/-- A decimal text's sign is found. -/
theorem head_sign {sign intPart : List Char} {fraction : Option (List Char)}
    (hSign : sign = [] ∨ sign = ['-']) (hInt : ∀ c ∈ intPart, c ∈ digits) :
    (if (sign ++ intPart ++ fractionText '.' fraction).head? = some '-' then ['-'] else []) = sign := by
  rcases hSign with rfl | rfl
  · refine if_neg fun minus => ?_
    cases intPart with
    | nil =>
      cases fraction with
      | none => exact absurd minus (by simp [fractionText])
      | some f => exact absurd (Option.some.inj minus) (by decide)
    | cons d rest =>
      obtain rfl := Option.some.inj minus
      exact absurd (hInt _ List.mem_cons_self) (by decide)
  · rfl

theorem persianNumberText_eq {sign intPart : List Char} {fraction : Option (List Char)}
    (hSign : sign = [] ∨ sign = ['-']) (hInt : ∀ c ∈ intPart, c ∈ digits)
    (hFraction : ∀ f ∈ fraction, ∀ c ∈ f, c ∈ digits) (grouped : Bool) :
    persianNumberText (sign ++ intPart ++ fractionText '.' fraction) grouped =
      persianDigitsOf (sign ++ shownInteger intPart grouped ++ fractionText '٫' fraction) := by
  have parts : splitPoint ((sign ++ intPart ++ fractionText '.' fraction).drop sign.length) =
      (intPart, fraction) := by
    rw [List.append_assoc, List.drop_left, splitPoint_eq hInt hFraction]
  unfold persianNumberText
  rw [head_sign hSign hInt]
  dsimp only
  rw [parts]
  rfl

theorem decimalDisplayText_eq {text : List Char} (own : canonicalText text = .ok text)
    (decimal : Fits decimalText text) (grouped : Bool) :
    decimalDisplayText text grouped = persianNumberText text grouped := by
  rw [decimalDisplayText, own]
  exact if_neg (not_not.mpr decimal)

/-- The text that is shown for a decimal text is read as it, in the browser and on the server. -/
theorem display_reads {text : List Char} (decimal : Fits decimalText text) (grouped : Bool) :
    canonicalText text = .ok text ∧ canonicalText (decimalDisplayText text grouped) = .ok text ∧
      normalizeGroupedDecimalString (decimalDisplayText text grouped) = text := by
  obtain ⟨sign, intPart, fraction, hSign, hInt, hFraction, rfl⟩ := fits_decimalText_iff.mp decimal
  obtain ⟨-, plain⟩ := shown_of_parts hSign hInt hFraction false
  obtain ⟨members, shown⟩ := shown_of_parts hSign hInt hFraction grouped
  have own := (plain.reads (cleaned_of_uniform plain.uniform)).1
  rw [shownInteger, if_neg Bool.false_ne_true] at own
  have clean := cleaned_persianDigitsOf hSign members hFraction
  rw [← persianNumberText_eq hSign hInt hFraction, ← decimalDisplayText_eq own decimal] at clean
  exact ⟨own, shown.reads clean⟩

/-! ## The claims of a reading -/

/-- A separator that is not between groups of three digits, where `/` may stand for the point. -/
def Misplaced (raw : List Char) : Prop :=
  HasSeparator (firstSlash (cleaned raw)) ∧ ¬Fits groupedText (firstSlash (cleaned raw))

variable (formatPersianNumber : ℚ → ℕ → String)

theorem read_of_misplaced {raw : List Char} (h : Misplaced raw) (rules : DecimalInputRules) :
    readDecimalInputText formatPersianNumber raw rules = .invalid separatorError := by
  have refused : canonicalText raw = .error separatorError := by
    unfold canonicalText
    rw [if_neg (not_not.mpr h.1), if_pos h.2]
  rw [readDecimalInputText, refused]
  rfl

theorem readOnServer_of_misplaced {raw : List Char} (h : Misplaced raw) : readOnServer raw = none := by
  refine Option.eq_none_iff_forall_ne_some.mpr fun clean read => ?_
  have slash := firstSlash_of_none (no_slash_of_readOnServer read)
  obtain ⟨separator, misplaced⟩ := h
  rw [slash] at separator misplaced
  exact misplaced ((readOnServer_eq_some read).2.2 separator)

/-- The text of a value is the canonical text. -/
theorem readCanonical_value {rules : DecimalInputRules} {canonical : Except String (List Char)}
    {text : List Char} {error : Option String}
    (h : readCanonical formatPersianNumber rules canonical = .value text error) :
    canonical = .ok text := by
  cases canonical with
  | error e => exact absurd h (by simp [readCanonical])
  | ok t =>
    unfold readCanonical at h
    dsimp only at h
    split_ifs at h with empty
    · obtain ⟨rfl, -⟩ := DecimalInputRead.value.inj h
      rw [empty]
    · obtain ⟨rfl, -⟩ := DecimalInputRead.value.inj h
      rfl

/-- Without rules a decimal text is its own value, a sign or a point alone apart. -/
theorem readCanonical_free {text : List Char} (decimal : Fits decimalText text) :
    readCanonical formatPersianNumber ⟨none, none, none⟩ (.ok text) =
      if text ≠ [] ∧ Fits partialPattern text then .unfinished else .value text none := by
  unfold readCanonical
  dsimp only
  by_cases empty : text = []
  · rw [if_pos empty, if_neg fun both => both.1 empty, empty]
  · by_cases half : Fits partialPattern text
    · rw [if_neg empty, if_pos half, if_pos ⟨empty, half⟩]
    · rw [if_neg empty, if_neg half, if_neg (not_not.mpr decimal), if_neg fun both => by simp at both,
        if_neg fun both => half both.2]
      rfl

/-- A text that both readers take is the same text for both. -/
theorem readers_agree {raw text clean : List Char} {rules : DecimalInputRules} {error : Option String}
    (browser : readDecimalInputText formatPersianNumber raw rules = .value text error)
    (server : readOnServer raw = some clean) : text = clean := by
  obtain ⟨same, -, grouped⟩ := readOnServer_eq_some server
  have slash := firstSlash_of_none (no_slash_of_readOnServer server)
  have canonical := canonicalText_of_grouped raw (by rw [slash]; exact grouped)
  have read := readCanonical_value formatPersianNumber browser
  rw [canonical, slash, ← same] at read
  exact (Except.ok.inj read).symm

/-- A text that is shown for a decimal text reads back as it on both sides, and with every rule
of a field as the text itself does; a text that both sides take is one number for both; and a
misplaced separator is refused on both sides. -/
theorem number_texts :
    (∀ (text : List Char) (grouped : Bool), Fits decimalText text →
      (readDecimalInputText formatPersianNumber (decimalDisplayText text grouped) ⟨none, none, none⟩ =
          if text ≠ [] ∧ Fits partialPattern text then .unfinished else .value text none) ∧
        (∀ rules, readDecimalInputText formatPersianNumber (decimalDisplayText text grouped) rules =
          readDecimalInputText formatPersianNumber text rules) ∧
        normalizeGroupedDecimalString (decimalDisplayText text grouped) = text) ∧
      (∀ raw rules text error clean,
        readDecimalInputText formatPersianNumber raw rules = .value text error →
          readOnServer raw = some clean → text = clean) ∧
      ∀ raw, Misplaced raw →
        (∀ rules, readDecimalInputText formatPersianNumber raw rules = .invalid separatorError) ∧
          readOnServer raw = none := by
  refine ⟨fun text grouped decimal => ?_,
    fun raw rules text error clean => readers_agree formatPersianNumber,
    fun raw misplaced => ⟨read_of_misplaced formatPersianNumber misplaced,
      readOnServer_of_misplaced misplaced⟩⟩
  obtain ⟨own, browser, server⟩ := display_reads decimal grouped
  refine ⟨?_, fun rules => ?_, server⟩
  · rw [readDecimalInputText, browser, readCanonical_free formatPersianNumber decimal]
  · rw [readDecimalInputText, readDecimalInputText, browser, own]

end PapitalErp.NumberTexts
