import PapitalErp.Lib.SpacedWords

/-!
# Numbers in Persian words

`numberToPersianWords` of the text of an integer: its digits in groups of three from
the last, each group in words with the name of its place. The words read back as the
integer exactly when it is below 10^18: there are names for five places of thousands.
-/

namespace PapitalErp.PersianWords

open SpacedWords

/-! ## A group of three digits -/

def ones : List String := ["", "یک", "دو", "سه", "چهار", "پنج", "شش", "هفت", "هشت", "نه"]

def teens : List String :=
  ["ده", "یازده", "دوازده", "سیزده", "چهارده", "پانزده", "شانزده", "هفده", "هجده", "نوزده"]

def tens : List String :=
  ["", "", "بیست", "سی", "چهل", "پنجاه", "شصت", "هفتاد", "هشتاد", "نود"]

def hundreds : List String :=
  ["", "صد", "دویست", "سیصد", "چهارصد", "پانصد", "ششصد", "هفتصد", "هشتصد", "نهصد"]

/-- The `parts` of `chunk3ToPersianWords`. -/
def chunk3Parts (num : ℕ) : List String :=
  let h := num / 100
  let rem := num % 100
  let t := rem / 10
  let o := rem % 10
  (if 0 < h then [hundreds.getD h ""] else []) ++
    if 10 ≤ rem ∧ rem < 20 then [teens.getD (rem - 10) ""]
    else (if 0 < t then [tens.getD t ""] else []) ++ if 0 < o then [ones.getD o ""] else []

/-- `chunk3ToPersianWords`. -/
def chunk3ToPersianWords (num : ℕ) : String :=
  if num = 0 then "" else " و ".intercalate (chunk3Parts num)

/-! ## A number -/

def scales : List String := ["", "هزار", "میلیون", "میلیارد", "تریلیون", "کوادریلیون"]

/-- The groups of three digits, the last group first; the digits come last first too. -/
def chunks : List ℕ → List ℕ
  | [] => []
  | [a] => [a]
  | [a, b] => [a + 10 * b]
  | a :: b :: c :: rest => (a + 10 * b + 100 * c) :: chunks rest

/-- The words of the group at a place. -/
def chunkText (i chunk : ℕ) : String :=
  let chunkWords := chunk3ToPersianWords chunk
  let scale := scales.getD i ""
  if i = 1 ∧ chunk = 1 then "یک هزار"
  else if scale = "" then chunkWords else chunkWords ++ " " ++ scale

/-- `wordsParts`: the groups that are not zero, the highest first. -/
def wordsParts : ℕ → List ℕ → List String
  | _, [] => []
  | i, chunk :: rest =>
    wordsParts (i + 1) rest ++ if 0 < chunk then [chunkText i chunk] else []

/-- The digits of a number, in words. -/
def digitsInWords (n : ℕ) : String :=
  " و ".intercalate (wordsParts 0 (chunks (Nat.digits 10 n)))

/-- `numberToPersianWords` of an integer's own text. -/
def numberToPersianWords (n : ℤ) : String :=
  if n = 0 then "صفر" else (if n < 0 then "منفی " else "") ++ digitsInWords n.natAbs

/-! ## Reading words -/

/-- The words of ones, teens, tens and hundreds, with their values. -/
def numberTable : List (String × ℕ) :=
  ("صفر", 0) :: (ones.zip ((List.range 10))).drop 1 ++ teens.zip ((List.range 10).map (10 + ·)) ++
    (tens.zip ((List.range 10).map (10 * ·))).drop 2 ++
      (hundreds.zip ((List.range 10).map (100 * ·))).drop 1

def scaleTable : List (String × ℕ) := (scales.zip ((List.range 6).map (1000 ^ ·))).drop 1

def lookup (table : List (String × ℕ)) (w : String) : Option ℕ :=
  (table.find? fun entry => entry.1 = w).map Prod.snd

/-- What is read so far: the places before, and the group at hand. -/
structure Reading where
  total : ℕ
  group : ℕ

/-- A place's name closes its group; a number's word adds to it; other words join. -/
def readWord (r : Reading) (w : String) : Reading :=
  match lookup scaleTable w with
  | some place => ⟨r.total + r.group * place, 0⟩
  | none => ⟨r.total, r.group + (lookup numberTable w).getD 0⟩

def Reading.value (r : Reading) : ℕ := r.total + r.group

/-- The number that some words read as. -/
def readNumber (words : List String) : ℕ := (words.foldl readWord ⟨0, 0⟩).value

/-- The integer that a text reads as. -/
def readInteger (text : String) : ℤ :=
  match wordsOf text with
  | "منفی" :: words => -readNumber words
  | words => readNumber words

/-! ## Groups as words -/

/-- A number's word: read as its value, and without a space. -/
def Means (w : String) (value : ℕ) : Prop :=
  IsWord w ∧ lookup scaleTable w = none ∧ lookup numberTable w = some value

instance (w : String) (value : ℕ) : Decidable (Means w value) := inferInstanceAs (Decidable (_ ∧ _))

theorem means_hundreds : ∀ h ∈ [1, 2, 3, 4, 5, 6, 7, 8, 9], Means (hundreds.getD h "") (100 * h) := by
  decide

theorem means_teens : ∀ o ∈ [0, 1, 2, 3, 4, 5, 6, 7, 8, 9], Means (teens.getD o "") (10 + o) := by
  decide

theorem means_tens : ∀ t ∈ [2, 3, 4, 5, 6, 7, 8, 9], Means (tens.getD t "") (10 * t) := by
  decide

theorem means_ones : ∀ o ∈ [1, 2, 3, 4, 5, 6, 7, 8, 9], Means (ones.getD o "") o := by
  decide

theorem scale_words : ∀ i ∈ [1, 2, 3, 4, 5], IsWord (scales.getD i "") ∧ scales.getD i "" ≠ "" ∧
    lookup scaleTable (scales.getD i "") = some (1000 ^ i) := by
  decide

theorem readWord_and (r : Reading) : readWord r "و" = r := by
  have word : lookup scaleTable "و" = none ∧ lookup numberTable "و" = none := by decide
  rw [readWord, word.1, word.2]
  rfl

theorem Means.readWord {w : String} {value : ℕ} (h : Means w value) (r : Reading) :
    readWord r w = ⟨r.total, r.group + value⟩ := by
  rw [PersianWords.readWord, h.2.1, h.2.2]
  rfl

/-- A word that is there on a condition. -/
theorem mem_optional {p : Prop} [Decidable p] {w v : String} {value : ℕ} (h : p → Means w value)
    (mem : v ∈ if p then [w] else []) : ∃ value, Means v value := by
  split_ifs at mem with holds
  · obtain rfl := List.mem_singleton.mp mem
    exact ⟨value, h holds⟩
  · exact absurd mem List.not_mem_nil

theorem foldl_optional {p : Prop} [Decidable p] {w : String} {value : ℕ} (h : p → Means w value)
    (r : Reading) : (if p then [w] else []).foldl readWord r =
      ⟨r.total, r.group + if p then value else 0⟩ := by
  split_ifs with holds
  · exact (h holds).readWord r
  · rfl

/-- The words of a group are read as the group. -/
theorem chunk3Parts_spec {num : ℕ} (small : num < 1000) :
    (∀ w ∈ chunk3Parts num, ∃ value, Means w value) ∧
      ∀ r, (chunk3Parts num).foldl readWord r = ⟨r.total, r.group + num⟩ := by
  have hundred : 0 < num / 100 → Means (hundreds.getD (num / 100) "") (100 * (num / 100)) := by
    intro positive
    refine means_hundreds _ ?_
    simp only [List.mem_cons, List.not_mem_nil, or_false]
    omega
  unfold chunk3Parts
  dsimp only
  by_cases teen : 10 ≤ num % 100 ∧ num % 100 < 20
  · have last : Means (teens.getD (num % 100 - 10) "") (10 + (num % 100 - 10)) := by
      refine means_teens _ ?_
      simp only [List.mem_cons, List.not_mem_nil, or_false]
      omega
    rw [if_pos teen]
    refine ⟨fun w hw => ?_, fun r => ?_⟩
    · rcases List.mem_append.mp hw with inHundreds | isTeen
      · exact mem_optional hundred inHundreds
      · obtain rfl := List.mem_singleton.mp isTeen
        exact ⟨_, last⟩
    · rw [List.foldl_append, foldl_optional hundred, List.foldl_cons, List.foldl_nil, last.readWord]
      have sum : (if 0 < num / 100 then 100 * (num / 100) else 0) + (10 + (num % 100 - 10)) = num := by
        split_ifs <;> omega
      rw [Reading.mk.injEq, add_assoc, sum]
      exact ⟨rfl, rfl⟩
  · have ten : 0 < num % 100 / 10 → Means (tens.getD (num % 100 / 10) "") (10 * (num % 100 / 10)) := by
      intro positive
      refine means_tens _ ?_
      simp only [List.mem_cons, List.not_mem_nil, or_false]
      omega
    have one : 0 < num % 100 % 10 → Means (ones.getD (num % 100 % 10) "") (num % 100 % 10) := by
      intro positive
      refine means_ones _ ?_
      simp only [List.mem_cons, List.not_mem_nil, or_false]
      omega
    rw [if_neg teen]
    refine ⟨fun w hw => ?_, fun r => ?_⟩
    · rw [List.mem_append, List.mem_append] at hw
      obtain inHundreds | inTens | inOnes := hw
      · exact mem_optional hundred inHundreds
      · exact mem_optional ten inTens
      · exact mem_optional one inOnes
    · rw [List.foldl_append, List.foldl_append, foldl_optional hundred, foldl_optional ten,
        foldl_optional one]
      have sum : (if 0 < num / 100 then 100 * (num / 100) else 0) +
          ((if 0 < num % 100 / 10 then 10 * (num % 100 / 10) else 0) +
            if 0 < num % 100 % 10 then num % 100 % 10 else 0) = num := by
        split_ifs <;> omega
      refine Reading.mk.injEq _ _ _ _ ▸ ⟨rfl, ?_⟩
      dsimp only
      linarith

theorem chunk3Parts_ne_nil {num : ℕ} (small : num < 1000) (positive : 0 < num) :
    chunk3Parts num ≠ [] := by
  intro empty
  have read := (chunk3Parts_spec small).2 ⟨0, 0⟩
  rw [empty, List.foldl_nil, Reading.mk.injEq] at read
  omega

/-! ## The groups of a number -/

theorem chunks_lt {digits : List ℕ} (small : ∀ d ∈ digits, d < 10) :
    ∀ chunk ∈ chunks digits, chunk < 1000 := by
  induction digits using chunks.induct with
  | case1 => exact fun _ h => absurd h List.not_mem_nil
  | case2 a =>
    intro chunk h
    rw [List.mem_singleton.mp h]
    have := small a List.mem_cons_self
    omega
  | case3 a b =>
    intro chunk h
    obtain rfl := List.mem_singleton.mp h
    have := small a (by simp)
    have := small b (by simp)
    omega
  | case4 a b c rest ih =>
    intro chunk h
    rcases List.mem_cons.mp h with rfl | later
    · have := small a (by simp)
      have := small b (by simp)
      have := small c (by simp)
      omega
    · exact ih (fun d hd => small d (by simp [hd])) chunk later

theorem ofDigits_chunks (digits : List ℕ) :
    Nat.ofDigits 1000 (chunks digits) = Nat.ofDigits 10 digits := by
  induction digits using chunks.induct with
  | case1 => rfl
  | case2 a => simp [chunks]
  | case3 a b => simp [chunks, Nat.ofDigits_cons]
  | case4 a b c rest ih =>
    rw [chunks, Nat.ofDigits_cons, ih, Nat.ofDigits_cons, Nat.ofDigits_cons, Nat.ofDigits_cons]
    ring

/-- The groups of a number. -/
def groupsOf (n : ℕ) : List ℕ := chunks (Nat.digits 10 n)

theorem groupsOf_lt (n : ℕ) : ∀ chunk ∈ groupsOf n, chunk < 1000 :=
  chunks_lt fun _ hd => Nat.digits_lt_base (by decide) hd

theorem ofDigits_groupsOf (n : ℕ) : Nat.ofDigits 1000 (groupsOf n) = n := by
  rw [groupsOf, ofDigits_chunks, Nat.ofDigits_digits]

/-! ## The groups as words -/

/-- The words of a group at its place. -/
def chunkWords (i chunk : ℕ) : List String :=
  joinedBy "و" ((chunk3Parts chunk).map fun w => [w]) ++
    if scales.getD i "" = "" then [] else [scales.getD i ""]

/-- The words of the groups that are not zero, the highest first. -/
def wordLists : ℕ → List ℕ → List (List String)
  | _, [] => []
  | i, chunk :: rest => wordLists (i + 1) rest ++ if 0 < chunk then [chunkWords i chunk] else []

theorem and_eq : " و " = " " ++ "و" ++ " " := by simp

theorem chunk3ToPersianWords_eq {chunk : ℕ} (positive : 0 < chunk) :
    chunk3ToPersianWords chunk = spaced (joinedBy "و" ((chunk3Parts chunk).map fun w => [w])) := by
  have texts : chunk3Parts chunk = ((chunk3Parts chunk).map fun w => [w]).map spaced := by
    rw [List.map_map]
    exact (List.map_id _).symm.trans (List.map_congr_left fun w _ => (spaced_singleton w).symm)
  have each : ∀ p ∈ (chunk3Parts chunk).map fun w => [w], p ≠ [] := by
    intro p hp
    obtain ⟨w, -, rfl⟩ := List.mem_map.mp hp
    exact List.cons_ne_nil _ _
  rw [chunk3ToPersianWords, if_neg positive.ne', ← intercalate_spaced and_eq each, ← texts]

theorem joined_ne_nil {chunk : ℕ} (small : chunk < 1000) (positive : 0 < chunk) :
    joinedBy "و" ((chunk3Parts chunk).map fun w => [w]) ≠ [] := by
  refine joinedBy_ne_nil (by simpa using chunk3Parts_ne_nil small positive) fun p hp => ?_
  obtain ⟨w, -, rfl⟩ := List.mem_map.mp hp
  exact List.cons_ne_nil _ _

/-- The group's text is its words; the thousand of one thousand is said as any other. -/
theorem chunkText_eq {i chunk : ℕ} (small : chunk < 1000) (positive : 0 < chunk) :
    chunkText i chunk = spaced (chunkWords i chunk) := by
  have words := chunk3ToPersianWords_eq positive
  unfold chunkText chunkWords
  dsimp only
  split_ifs with thousand noScale noScale
  · obtain ⟨rfl, rfl⟩ := thousand
    exact absurd noScale (scale_words 1 (by decide)).2.1
  · obtain ⟨rfl, rfl⟩ := thousand
    rfl
  · rw [words, List.append_nil]
  · rw [words, spaced_append (joined_ne_nil small positive) (List.cons_ne_nil _ _), spaced_singleton]

theorem chunkWords_ne_nil {i chunk : ℕ} (small : chunk < 1000) (positive : 0 < chunk) :
    chunkWords i chunk ≠ [] :=
  fun empty => joined_ne_nil small positive (List.append_eq_nil_iff.mp empty).1

theorem wordsParts_eq {groups : List ℕ} (small : ∀ chunk ∈ groups, chunk < 1000) (i : ℕ) :
    wordsParts i groups = (wordLists i groups).map spaced := by
  induction groups generalizing i with
  | nil => rfl
  | cons chunk rest ih =>
    rw [wordsParts, wordLists, List.map_append, ih fun c hc => small c (List.mem_cons_of_mem _ hc)]
    split_ifs with positive
    · rw [List.map_singleton, chunkText_eq (small chunk List.mem_cons_self) positive]
    · rfl

theorem ne_nil_of_mem_wordLists {groups : List ℕ} (small : ∀ chunk ∈ groups, chunk < 1000) {i : ℕ}
    {p : List String} (h : p ∈ wordLists i groups) : p ≠ [] := by
  induction groups generalizing i with
  | nil => exact absurd h List.not_mem_nil
  | cons chunk rest ih =>
    rcases List.mem_append.mp h with later | here
    · exact ih (fun c hc => small c (List.mem_cons_of_mem _ hc)) later
    · split_ifs at here with positive
      · obtain rfl := List.mem_singleton.mp here
        exact chunkWords_ne_nil (small chunk List.mem_cons_self) positive
      · exact absurd here List.not_mem_nil

/-- The words of a number. -/
def numberWords (n : ℕ) : List String := joinedBy "و" (wordLists 0 (groupsOf n))

theorem digitsInWords_eq (n : ℕ) : digitsInWords n = spaced (numberWords n) := by
  rw [digitsInWords, numberWords, ← groupsOf, wordsParts_eq (groupsOf_lt n)]
  exact intercalate_spaced and_eq fun p hp => ne_nil_of_mem_wordLists (groupsOf_lt n) hp

/-! ## The words read back -/

theorem isWord_of_mem_chunkWords {i chunk : ℕ} (small : chunk < 1000) {w : String}
    (h : w ∈ chunkWords i chunk) : IsWord w := by
  rcases List.mem_append.mp h with inGroup | scale
  · rcases mem_joinedBy inGroup with rfl | ⟨p, hp, member⟩
    · simp [IsWord]
    · obtain ⟨v, hv, rfl⟩ := List.mem_map.mp hp
      obtain rfl := List.mem_singleton.mp member
      obtain ⟨value, meaning⟩ := (chunk3Parts_spec small).1 w hv
      exact meaning.1
  · split_ifs at scale with noScale
    · exact absurd scale List.not_mem_nil
    · obtain rfl := List.mem_singleton.mp scale
      have place : ∀ j < 6, IsWord (scales.getD j "") := by decide
      by_cases named : i < 6
      · exact place i named
      · exact absurd (List.getD_eq_default scales "" (by simpa [scales] using named)) noScale

theorem exists_of_mem_wordLists {groups : List ℕ} {i : ℕ} {p : List String}
    (h : p ∈ wordLists i groups) : ∃ j, ∃ chunk ∈ groups, p = chunkWords j chunk := by
  induction groups generalizing i with
  | nil => exact absurd h List.not_mem_nil
  | cons chunk rest ih =>
    rcases List.mem_append.mp h with later | here
    · obtain ⟨j, c, hc, same⟩ := ih later
      exact ⟨j, c, List.mem_cons_of_mem _ hc, same⟩
    · split_ifs at here with positive
      · exact ⟨i, chunk, List.mem_cons_self, List.mem_singleton.mp here⟩
      · exact absurd here List.not_mem_nil

theorem isWord_of_mem_numberWords {n : ℕ} {w : String} (h : w ∈ numberWords n) : IsWord w := by
  rcases mem_joinedBy h with rfl | ⟨p, hp, member⟩
  · simp [IsWord]
  · obtain ⟨j, chunk, hc, rfl⟩ := exists_of_mem_wordLists hp
    exact isWord_of_mem_chunkWords (groupsOf_lt n chunk hc) member

/-- The places with a name. -/
def Named (i : ℕ) : Prop := 1 ≤ i ∧ i ≤ 5

instance (i : ℕ) : Decidable (Named i) := inferInstanceAs (Decidable (_ ∧ _))

/-- What reading a group does. -/
def readGroup (i chunk : ℕ) (r : Reading) : Reading :=
  if Named i then ⟨r.total + (r.group + chunk) * 1000 ^ i, 0⟩ else ⟨r.total, r.group + chunk⟩

theorem foldl_chunkWords {i chunk : ℕ} (small : chunk < 1000) (r : Reading) :
    (chunkWords i chunk).foldl readWord r = readGroup i chunk r := by
  have group : (joinedBy "و" ((chunk3Parts chunk).map fun w => [w])).foldl readWord r =
      ⟨r.total, r.group + chunk⟩ := by
    rw [foldl_joinedBy readWord_and, List.foldl_map]
    exact (chunk3Parts_spec small).2 r
  rw [chunkWords, List.foldl_append, group, readGroup]
  by_cases named : Named i
  · obtain ⟨-, nonempty, place⟩ := scale_words i (by
      obtain ⟨low, high⟩ := named
      simp only [List.mem_cons, List.not_mem_nil, or_false]
      omega)
    rw [if_pos named, if_neg nonempty, List.foldl_cons, List.foldl_nil, readWord, place]
  · have noScale : scales.getD i "" = "" := by
      by_cases first : i = 0
      · rw [first]
        rfl
      · refine List.getD_eq_default scales "" ?_
        unfold Named at named
        simp only [scales, List.length_cons, List.length_nil]
        omega
    rw [if_neg named, if_pos noScale, List.foldl_nil]

/-- The reading of the groups from a place on. -/
def readGroups : ℕ → List ℕ → Reading
  | _, [] => ⟨0, 0⟩
  | i, chunk :: rest =>
    if 0 < chunk then readGroup i chunk (readGroups (i + 1) rest) else readGroups (i + 1) rest

theorem foldl_wordLists {groups : List ℕ} (small : ∀ chunk ∈ groups, chunk < 1000) (i : ℕ) :
    (wordLists i groups).foldl (fun r p => p.foldl readWord r) ⟨0, 0⟩ = readGroups i groups := by
  induction groups generalizing i with
  | nil => rfl
  | cons chunk rest ih =>
    rw [wordLists, List.foldl_append, ih fun c hc => small c (List.mem_cons_of_mem _ hc), readGroups]
    split_ifs with positive
    · rw [List.foldl_cons, List.foldl_nil, foldl_chunkWords (small chunk List.mem_cons_self)]
    · rfl

theorem readNumber_numberWords (n : ℕ) :
    readNumber (numberWords n) = (readGroups 0 (groupsOf n)).value := by
  rw [readNumber, numberWords, foldl_joinedBy readWord_and, foldl_wordLists (groupsOf_lt n)]

/-- Groups at named places are read as they are. -/
theorem readGroups_named {groups : List ℕ} {i : ℕ} (first : 1 ≤ i) (last : i + groups.length ≤ 6) :
    readGroups i groups = ⟨1000 ^ i * Nat.ofDigits 1000 groups, 0⟩ := by
  induction groups generalizing i with
  | nil => simp [readGroups]
  | cons chunk rest ih =>
    rw [List.length_cons] at last
    rw [readGroups, ih (i := i + 1) (by omega) (by omega), Nat.ofDigits_cons]
    split_ifs with positive
    · rw [readGroup, if_pos ⟨first, by omega⟩, Reading.mk.injEq]
      exact ⟨by dsimp only; ring, rfl⟩
    · obtain rfl : chunk = 0 := by omega
      rw [Reading.mk.injEq]
      exact ⟨by ring, rfl⟩

theorem length_chunks {digits : List ℕ} {k : ℕ} (h : digits.length ≤ 3 * k) :
    (chunks digits).length ≤ k := by
  induction digits using chunks.induct generalizing k with
  | case1 => exact Nat.zero_le k
  | case2 a =>
    simp only [chunks, List.length_cons, List.length_nil] at h ⊢
    omega
  | case3 a b =>
    simp only [chunks, List.length_cons, List.length_nil] at h ⊢
    omega
  | case4 a b c rest ih =>
    simp only [List.length_cons] at h
    have shorter := ih (k := k - 1) (by omega)
    rw [chunks, List.length_cons]
    omega

/-- Below 10^18 the words say the number. -/
theorem readNumber_of_lt {n : ℕ} (small : n < 10 ^ 18) : readNumber (numberWords n) = n := by
  have length : (groupsOf n).length ≤ 6 :=
    length_chunks ((Nat.digits_length_le_iff (by decide) n).mpr small)
  have value := ofDigits_groupsOf n
  rw [readNumber_numberWords]
  cases groups : groupsOf n with
  | nil =>
    rw [groups] at value
    exact value
  | cons chunk rest =>
    rw [groups] at value length
    rw [List.length_cons] at length
    rw [Nat.ofDigits_cons] at value
    rw [readGroups, readGroups_named le_rfl (by omega)]
    split_ifs with positive
    · rw [readGroup, if_neg (by unfold Named; omega), Reading.value]
      dsimp only
      omega
    · obtain rfl : chunk = 0 := by omega
      rw [Reading.value]
      dsimp only
      omega

/-- Groups above the named places are read as if they were the highest named one: never
more than they are, and less if there are any. -/
theorem readGroups_le {groups : List ℕ} (small : ∀ chunk ∈ groups, chunk < 1000) {i : ℕ}
    (first : 1 ≤ i) :
    (readGroups i groups).total + (readGroups i groups).group * 1000 ^ 5 ≤
        1000 ^ i * Nat.ofDigits 1000 groups ∧
      ((readGroups i groups).total + (readGroups i groups).group * 1000 ^ 5 =
          1000 ^ i * Nat.ofDigits 1000 groups →
        1000 ^ i * Nat.ofDigits 1000 groups < 1000 ^ 6) := by
  induction groups generalizing i with
  | nil => simp [readGroups]
  | cons chunk rest ih =>
    obtain ⟨bound, equal⟩ := ih (fun c hc => small c (List.mem_cons_of_mem _ hc)) (Nat.le_add_left 1 i)
    have lower : chunk < 1000 := small chunk List.mem_cons_self
    have power : 1000 ^ (i + 1) * Nat.ofDigits 1000 rest = 1000 ^ i * (1000 * Nat.ofDigits 1000 rest) := by
      ring
    rw [power] at bound equal
    rw [readGroups, Nat.ofDigits_cons, mul_add]
    generalize readGroups (i + 1) rest = r at bound equal ⊢
    generalize Nat.ofDigits 1000 rest = higher at bound equal ⊢
    by_cases zero : chunk = 0
    · rw [if_neg (by omega), zero, mul_zero, zero_add]
      exact ⟨bound, equal⟩
    · rw [if_pos (by omega), readGroup]
      by_cases named : Named i
      · have place : r.group * 1000 ^ i ≤ r.group * 1000 ^ 5 :=
          Nat.mul_le_mul_left _ (Nat.pow_le_pow_right (by decide) named.2)
        rw [if_pos named]
        dsimp only
        rw [add_mul, zero_mul, add_zero, mul_comm chunk]
        refine ⟨by omega, fun same => ?_⟩
        have rest := equal (by omega)
        have split : 1000 ^ 6 = 1000 ^ i * (1000 * 1000 ^ (5 - i)) := by
          rw [← pow_succ', ← pow_add]
          congr 1
          have := named.2
          omega
        have fewer : 1000 * higher < 1000 * 1000 ^ (5 - i) := by
          rw [split] at rest
          exact lt_of_mul_lt_mul_left rest (Nat.zero_le _)
        rw [split, ← mul_add]
        refine Nat.mul_lt_mul_of_pos_left ?_ (by positivity)
        omega
      · have above : 1000 ^ 5 < 1000 ^ i :=
          Nat.pow_lt_pow_right (by decide) (by unfold Named at named; omega)
        have more : chunk * 1000 ^ 5 < 1000 ^ i * chunk := by
          rw [mul_comm (1000 ^ i)]
          exact Nat.mul_lt_mul_of_pos_left above (by omega)
        rw [if_neg named]
        dsimp only
        rw [add_mul]
        refine ⟨by linarith, fun same => ?_⟩
        exfalso
        linarith

/-- The words say the number exactly below 10^18. -/
theorem readNumber_eq_iff (n : ℕ) : readNumber (numberWords n) = n ↔ n < 10 ^ 18 := by
  refine ⟨fun same => ?_, readNumber_of_lt⟩
  have value := ofDigits_groupsOf n
  have small := groupsOf_lt n
  rw [readNumber_numberWords] at same
  cases groups : groupsOf n with
  | nil =>
    rw [groups] at value
    rw [← value]
    decide
  | cons chunk rest =>
    rw [groups] at value small same
    rw [Nat.ofDigits_cons] at value
    obtain ⟨bound, equal⟩ := readGroups_le (fun c hc => small c (List.mem_cons_of_mem _ hc)) le_rfl
    rw [pow_one] at bound equal
    have lower : chunk < 1000 := small chunk List.mem_cons_self
    have first : (readGroups 1 rest).total + (readGroups 1 rest).group = 1000 * Nat.ofDigits 1000 rest := by
      rw [readGroups, zero_add] at same
      split_ifs at same with positive
      · rw [readGroup, if_neg (by unfold Named; omega), Reading.value] at same
        dsimp only at same
        omega
      · rw [Reading.value] at same
        omega
    have below := equal (by omega)
    omega

/-! ## The text of a number -/

theorem ofDigits_of_wordLists_nil {groups : List ℕ} {i : ℕ} (empty : wordLists i groups = []) :
    Nat.ofDigits 1000 groups = 0 := by
  induction groups generalizing i with
  | nil => rfl
  | cons chunk rest ih =>
    obtain ⟨later, here⟩ := List.append_eq_nil_iff.mp empty
    split_ifs at here with positive
    rw [Nat.ofDigits_cons, ih later]
    omega

theorem numberWords_ne_nil {n : ℕ} (positive : 0 < n) : numberWords n ≠ [] := by
  refine joinedBy_ne_nil (fun empty => ?_) fun p hp => ne_nil_of_mem_wordLists (groupsOf_lt n) hp
  have zero := ofDigits_of_wordLists_nil empty
  rw [ofDigits_groupsOf] at zero
  omega

/-- The words that numbers are made of. -/
def InVocabulary (w : String) : Prop :=
  w = "و" ∨ (lookup numberTable w).isSome ∨ (lookup scaleTable w).isSome

instance (w : String) : Decidable (InVocabulary w) := inferInstanceAs (Decidable (_ ∨ _))

theorem inVocabulary_of_mem_chunkWords {i chunk : ℕ} (small : chunk < 1000) {w : String}
    (h : w ∈ chunkWords i chunk) : InVocabulary w := by
  rcases List.mem_append.mp h with inGroup | scale
  · rcases mem_joinedBy inGroup with rfl | ⟨p, hp, member⟩
    · exact Or.inl rfl
    · obtain ⟨v, hv, rfl⟩ := List.mem_map.mp hp
      obtain rfl := List.mem_singleton.mp member
      obtain ⟨value, -, -, found⟩ := (chunk3Parts_spec small).1 w hv
      exact Or.inr (Or.inl (found ▸ rfl))
  · split_ifs at scale with noScale
    · exact absurd scale List.not_mem_nil
    · obtain rfl := List.mem_singleton.mp scale
      have place : ∀ j < 6, scales.getD j "" = "" ∨ (lookup scaleTable (scales.getD j "")).isSome := by
        decide
      by_cases named : i < 6
      · exact Or.inr (Or.inr ((place i named).resolve_left noScale))
      · exact absurd (List.getD_eq_default scales "" (by simpa [scales] using named)) noScale

theorem inVocabulary_of_mem_numberWords {n : ℕ} {w : String} (h : w ∈ numberWords n) :
    InVocabulary w := by
  rcases mem_joinedBy h with rfl | ⟨p, hp, member⟩
  · exact Or.inl rfl
  · obtain ⟨j, chunk, hc, rfl⟩ := exists_of_mem_wordLists hp
    exact inVocabulary_of_mem_chunkWords (groupsOf_lt n chunk hc) member

theorem minus_notInVocabulary : ¬InVocabulary "منفی" := by decide

/-- A sign before the words of a text. -/
def signWords (negative : Bool) : List String := if negative then ["منفی"] else []

theorem spaced_signWords {negative : Bool} {words : List String} (nonempty : words ≠ []) :
    spaced (signWords negative ++ words) = (if negative then "منفی " else "") ++ spaced words := by
  cases negative with
  | false => exact (String.empty_append).symm
  | true =>
    have space : "منفی " = "منفی" ++ " " := by simp
    rw [signWords, if_pos rfl, spaced_append (List.cons_ne_nil _ _) nonempty, spaced_singleton,
      if_pos rfl, space]

theorem wordsOf_sign {negative : Bool} {words : List String} (nonempty : words ≠ [])
    (isWord : ∀ w ∈ words, IsWord w) :
    wordsOf ((if negative then "منفی " else "") ++ spaced words) = signWords negative ++ words := by
  rw [← spaced_signWords nonempty]
  refine wordsOf_spaced (by simp [nonempty]) fun w hw => ?_
  rcases List.mem_append.mp hw with sign | later
  · cases negative with
    | false => exact absurd sign List.not_mem_nil
    | true =>
      obtain rfl := List.mem_singleton.mp sign
      simp [IsWord]
  · exact isWord w later

/-- The text of an integer reads as the integer exactly below 10^18. -/
theorem readInteger_eq_iff (n : ℤ) :
    readInteger (numberToPersianWords n) = n ↔ n.natAbs < 10 ^ 18 := by
  by_cases zero : n = 0
  · rw [zero]
    exact iff_of_true (by rfl) (by decide)
  · have positive : 0 < n.natAbs := Int.natAbs_pos.mpr zero
    have nonempty := numberWords_ne_nil positive
    have words : wordsOf ((if decide (n < 0) = true then "منفی " else "") ++
        spaced (numberWords n.natAbs)) = signWords (decide (n < 0)) ++ numberWords n.natAbs :=
      wordsOf_sign nonempty fun w hw => isWord_of_mem_numberWords hw
    have iff := readNumber_eq_iff n.natAbs
    simp only [decide_eq_true_eq] at words
    rw [numberToPersianWords, if_neg zero, digitsInWords_eq, readInteger, words]
    by_cases negative : n < 0
    · rw [decide_eq_true negative, signWords, if_pos rfl]
      simp only [List.singleton_append]
      omega
    · rw [decide_eq_false negative, signWords, if_neg Bool.false_ne_true, List.nil_append]
      have noSign : ∀ rest, numberWords n.natAbs ≠ "منفی" :: rest := by
        intro rest same
        exact minus_notInVocabulary (inVocabulary_of_mem_numberWords (same ▸ List.mem_cons_self))
      split
      · rename_i rest same
        exact absurd same (noSign rest)
      · omega

end PapitalErp.PersianWords
