import PapitalErp.Workflow.Delegation

/-!
# The warehouse item of a material row

A row of a project's materials names an item by its id, its code or its name:
`findProjectItemMatch` takes the first item of a list that it names, by id before code and
by code before name. The server reads only the items that the rows may name; its condition
is in SQL, which maps letter case for ASCII alone, so that items with other letters are read
whatever their keys are. Live items come in the order of their ids.
-/

namespace PapitalErp.ItemMatch

/-- A character whose letter case the two languages map alike: the complement of
`KEY_UNSAFE_CHAR`. -/
def Plain (c : Char) : Prop :=
  (0x0001 ≤ c.toNat ∧ c.toNat ≤ 0x007f) ∨ (0x0600 ≤ c.toNat ∧ c.toNat ≤ 0x06ff) ∨
    c.toNat = 0x200c ∨ c.toNat = 0x200d ∨ (0xfb50 ≤ c.toNat ∧ c.toNat ≤ 0xfdff) ∨
      (0xfe70 ≤ c.toNat ∧ c.toNat ≤ 0xfefc)

instance (c : Char) : Decidable (Plain c) := inferInstanceAs (Decidable (_ ∨ _))

/-- `upper` and `lower` of the "C" collation: ASCII letters only. -/
def upperC (s : String) : String := String.ofList (s.toList.map Char.toUpper)

def lowerC (s : String) : String := String.ofList (s.toList.map Char.toLower)

theorem toUpper_ne_nul {c : Char} (other : c ≠ '\x00') : c.toUpper ≠ '\x00' := by
  intro same
  unfold Char.toUpper at same
  split_ifs at same with lower
  · have value := congrArg (fun d : Char => d.val.toNat) same
    have low := UInt32.le_iff_toNat_le.mp lower.1
    have high := UInt32.le_iff_toNat_le.mp lower.2
    have sub : ('A'.val - 'a'.val).toNat = 4294967264 := by decide
    have a : 'a'.val.toNat = 97 := by decide
    have z : 'z'.val.toNat = 122 := by decide
    have zero : '\x00'.val.toNat = 0 := by decide
    simp only [UInt32.toNat_add, sub, zero] at value
    omega
  · exact other same

theorem toLower_ne_nul {c : Char} (other : c ≠ '\x00') : c.toLower ≠ '\x00' := by
  intro same
  unfold Char.toLower at same
  split_ifs at same with upper
  · have value := congrArg (fun d : Char => d.val.toNat) same
    have low := UInt32.le_iff_toNat_le.mp upper.1
    have high := UInt32.le_iff_toNat_le.mp upper.2
    have sub : ('a'.val - 'A'.val).toNat = 32 := by decide
    have a : 'A'.val.toNat = 65 := by decide
    have z : 'Z'.val.toNat = 90 := by decide
    have zero : '\x00'.val.toNat = 0 := by decide
    simp only [UInt32.toNat_add, sub, zero] at value
    omega
  · exact other same

/-- A text that PostgreSQL can hold. -/
def NoNul (text : String) : Prop := '\x00' ∉ text.toList

instance (text : String) : Decidable (NoNul text) := inferInstanceAs (Decidable (_ ∉ _))

theorem noNul_map {f : Char → Char} (keeps : ∀ c, c ≠ '\x00' → f c ≠ '\x00') {text : String}
    (h : NoNul text) : NoNul (String.ofList (text.toList.map f)) := by
  unfold NoNul
  rw [String.toList_ofList]
  intro mem
  obtain ⟨c, hc, same⟩ := List.mem_map.mp mem
  exact keeps c (fun nul => h (nul ▸ hc)) same

/-- JavaScript's conversions of letter case; on plain characters they are the ones of ASCII,
and no other character becomes a NUL. -/
structure Casing where
  toUpperCase : String → String
  toLowerCase : String → String
  upper_plain : ∀ s, (∀ c ∈ s.toList, Plain c) → toUpperCase s = upperC s
  lower_plain : ∀ s, (∀ c ∈ s.toList, Plain c) → toLowerCase s = lowerC s
  upper_noNul : ∀ s, NoNul s → NoNul (toUpperCase s)
  lower_noNul : ∀ s, NoNul s → NoNul (toLowerCase s)

/-- The conversions of ASCII text. -/
def Casing.ascii : Casing where
  toUpperCase := upperC
  toLowerCase := lowerC
  upper_plain _ _ := rfl
  lower_plain _ _ := rfl
  upper_noNul _ h := noNul_map (fun _ => toUpper_ne_nul) h
  lower_noNul _ h := noNul_map (fun _ => toLower_ne_nul) h

structure MatchableItem where
  id : ℕ
  code : String
  name : String
  deriving DecidableEq

/-- A warehouse item; the columns that may be null have a text that `text` reads alike. -/
structure StockItem extends MatchableItem where
  category : String
  unit : String
  currentStock : ℚ
  deriving DecidableEq

/-- The live items, in the order of their ids. -/
structure Catalog where
  items : List StockItem
  ordered : items.Pairwise fun a b => a.id < b.id
  positive : ∀ i ∈ items, 0 < i.id
  stored : ∀ i ∈ items, NoNul i.code ∧ NoNul i.name

/-- A material row's reference; an id that is not a positive integer is none. -/
structure ProjectMaterialRef where
  itemId : Option ℕ
  code : String
  name : String

section

variable (casing : Casing)

def itemCodeKey (code : String) : String := casing.toUpperCase (jsTrim code)

def itemNameKey (name : String) : String := casing.toLowerCase (jsTrim name)

variable {α : Type*} (item : α → MatchableItem)

/-- The first item that a key names; no key names none. -/
def byKey (keyOf : α → String) (key : String) (items : List α) : Option α :=
  if key = "" then none else items.find? fun i => keyOf i = key

def findProjectItemMatch (ref : ProjectMaterialRef) (items : List α) : Option α :=
  ((ref.itemId.bind fun id => items.find? fun i => (item i).id = id).or
    (byKey (fun i => itemCodeKey casing (item i).code) (itemCodeKey casing ref.code) items)).or
      (byKey (fun i => itemNameKey casing (item i).name) (itemNameKey casing ref.name) items)

/-! ## The narrowed read -/

def Safe (text : String) : Prop := ∀ c ∈ text.toList, Plain c

instance (text : String) : Decidable (Safe text) := inferInstanceAs (Decidable (∀ _ ∈ _, _))

/-- A key that a stored text may have. -/
def Storable (key : String) : Prop := key ≠ "" ∧ NoNul key

instance (key : String) : Decidable (Storable key) := inferInstanceAs (Decidable (_ ∧ _))

/-- `itemRefKeyCondition`; none when the references name nothing. -/
def itemRefKeyCondition (refs : List ProjectMaterialRef) : Option (StockItem → Bool) :=
  let codes := (refs.map fun r => itemCodeKey casing r.code).filter fun key => Storable key
  let names := (refs.map fun r => itemNameKey casing r.name).filter fun key => Storable key
  let ids := refs.filterMap ProjectMaterialRef.itemId
  if codes = [] ∧ names = [] ∧ ids = [] then none
  else some fun i => i.id ∈ ids || upperC (jsTrim i.code) ∈ codes || lowerC (jsTrim i.name) ∈ names ||
    ¬Safe i.code || ¬Safe i.name

def readStockItemsForRefs (catalog : Catalog) (refs : List ProjectMaterialRef) : List StockItem :=
  match itemRefKeyCondition casing refs with
  | none => []
  | some condition => catalog.items.filter condition

end

/-! ## The narrowed read is enough -/

section

variable {casing : Casing}

theorem mem_of_mem_trim {blank : Char → Bool} {s : String} {c : Char}
    (h : c ∈ (TrimmedText.trim blank s).toList) : c ∈ s.toList := by
  rw [TrimmedText.trim, String.toList_ofList, TrimmedText.trimEnds] at h
  exact (List.dropWhile_suffix _).subset ((List.rdropWhile_prefix _ _).subset h)

theorem codeKey_eq_of_safe (casing : Casing) {code : String} (safe : Safe code) :
    itemCodeKey casing code = upperC (jsTrim code) :=
  casing.upper_plain _ fun c hc => safe c (mem_of_mem_trim hc)

theorem nameKey_eq_of_safe (casing : Casing) {name : String} (safe : Safe name) :
    itemNameKey casing name = lowerC (jsTrim name) :=
  casing.lower_plain _ fun c hc => safe c (mem_of_mem_trim hc)

theorem find?_filter_of_imp {α : Type*} {p q : α → Bool} {l : List α}
    (h : ∀ a ∈ l, q a = true → p a = true) : (l.filter p).find? q = l.find? q := by
  induction l with
  | nil => rfl
  | cons a l ih =>
    have rest := ih fun b hb => h b (List.mem_cons_of_mem a hb)
    by_cases kept : p a = true
    · rw [List.filter_cons_of_pos kept, List.find?_cons, List.find?_cons, rest]
    · have other : ¬q a = true := fun found => kept (h a List.mem_cons_self found)
      rw [List.filter_cons_of_neg kept, List.find?_cons_of_neg other, rest]

theorem noNul_trim {text : String} (h : NoNul text) : NoNul (jsTrim text) :=
  fun nul => h (mem_of_mem_trim nul)

/-- The keys of a stored item are storable where they are not empty. -/
theorem storable_code {i : StockItem} (h : NoNul i.code) (nonempty : itemCodeKey casing i.code ≠ "") :
    Storable (itemCodeKey casing i.code) :=
  ⟨nonempty, casing.upper_noNul _ (noNul_trim h)⟩

theorem storable_name {i : StockItem} (h : NoNul i.name) (nonempty : itemNameKey casing i.name ≠ "") :
    Storable (itemNameKey casing i.name) :=
  ⟨nonempty, casing.lower_noNul _ (noNul_trim h)⟩

variable {catalog : Catalog} {refs : List ProjectMaterialRef} {ref : ProjectMaterialRef}
  {i : StockItem}

/-- A reference names an item: by its id, by a code key or by a name key. -/
def Names (casing : Casing) (ref : ProjectMaterialRef) (i : StockItem) : Prop :=
  ref.itemId = some i.id ∨
    itemCodeKey casing ref.code ≠ "" ∧ itemCodeKey casing i.code = itemCodeKey casing ref.code ∨
      itemNameKey casing ref.name ≠ "" ∧ itemNameKey casing i.name = itemNameKey casing ref.name

/-- The condition keeps what a reference names. -/
theorem condition_of_names {condition : StockItem → Bool}
    (h : itemRefKeyCondition casing refs = some condition) (mem : ref ∈ refs)
    (stored : NoNul i.code ∧ NoNul i.name) (named : Names casing ref i) : condition i = true := by
  unfold itemRefKeyCondition at h
  dsimp only at h
  split_ifs at h
  obtain rfl := Option.some.inj h
  simp only [Bool.or_eq_true, decide_eq_true_eq]
  rcases named with byId | ⟨nonempty, same⟩ | ⟨nonempty, same⟩
  · exact Or.inl (Or.inl (Or.inl (Or.inl (List.mem_filterMap.mpr ⟨ref, mem, byId⟩))))
  · by_cases safe : Safe i.code
    · refine Or.inl (Or.inl (Or.inl (Or.inr ?_)))
      rw [← codeKey_eq_of_safe casing safe]
      refine List.mem_filter.mpr ⟨List.mem_map.mpr ⟨ref, mem, same.symm⟩, decide_eq_true ?_⟩
      exact storable_code stored.1 (same ▸ nonempty)
    · exact Or.inl (Or.inr safe)
  · by_cases safe : Safe i.name
    · refine Or.inl (Or.inl (Or.inr ?_))
      rw [← nameKey_eq_of_safe casing safe]
      refine List.mem_filter.mpr ⟨List.mem_map.mpr ⟨ref, mem, same.symm⟩, decide_eq_true ?_⟩
      exact storable_name stored.2 (same ▸ nonempty)
    · exact Or.inr safe

/-- Where the references name nothing, no item is named. -/
theorem not_names (h : itemRefKeyCondition casing refs = none) (mem : ref ∈ refs)
    (stored : NoNul i.code ∧ NoNul i.name) : ¬Names casing ref i := by
  unfold itemRefKeyCondition at h
  dsimp only at h
  split_ifs at h with nothing
  obtain ⟨codes, names, ids⟩ := nothing
  rintro (byId | ⟨nonempty, same⟩ | ⟨nonempty, same⟩)
  · rw [List.filterMap_eq_nil_iff.mp ids ref mem] at byId
    exact Option.some_ne_none _ byId.symm
  · refine List.filter_eq_nil_iff.mp codes _ (List.mem_map.mpr ⟨ref, mem, same.symm⟩) (decide_eq_true ?_)
    exact storable_code stored.1 (same ▸ nonempty)
  · refine List.filter_eq_nil_iff.mp names _ (List.mem_map.mpr ⟨ref, mem, same.symm⟩) (decide_eq_true ?_)
    exact storable_name stored.2 (same ▸ nonempty)

/-- The match in a list without the items that the reference does not name. -/
theorem findProjectItemMatch_filter {keep : StockItem → Bool} {items : List StockItem}
    (kept : ∀ i ∈ items, Names casing ref i → keep i = true) :
    findProjectItemMatch casing StockItem.toMatchableItem ref (items.filter keep) =
      findProjectItemMatch casing StockItem.toMatchableItem ref items := by
  have byId : (ref.itemId.bind fun id => (items.filter keep).find? fun i => i.id = id) =
      ref.itemId.bind fun id => items.find? fun i => i.id = id := by
    cases given : ref.itemId with
    | none => rfl
    | some id =>
      refine find?_filter_of_imp fun i hi same => kept i hi (Or.inl ?_)
      rw [given, of_decide_eq_true same]
  have byCode : byKey (fun i => itemCodeKey casing i.code) (itemCodeKey casing ref.code)
      (items.filter keep) = byKey (fun i => itemCodeKey casing i.code) (itemCodeKey casing ref.code) items := by
    unfold byKey
    split_ifs with nothing
    · rfl
    · exact find?_filter_of_imp fun i hi same =>
        kept i hi (Or.inr (Or.inl ⟨nothing, of_decide_eq_true same⟩))
  have byName : byKey (fun i => itemNameKey casing i.name) (itemNameKey casing ref.name)
      (items.filter keep) = byKey (fun i => itemNameKey casing i.name) (itemNameKey casing ref.name) items := by
    unfold byKey
    split_ifs with nothing
    · rfl
    · exact find?_filter_of_imp fun i hi same =>
        kept i hi (Or.inr (Or.inr ⟨nothing, of_decide_eq_true same⟩))
  exact congrArg₂ Option.or (congrArg₂ Option.or byId byCode) byName

/-- A match is named. -/
theorem names_of_match {items : List StockItem}
    (found : findProjectItemMatch casing StockItem.toMatchableItem ref items = some i) :
    i ∈ items ∧ Names casing ref i := by
  have key : ∀ (keyOf : StockItem → String) (k : String), byKey keyOf k items = some i →
      i ∈ items ∧ k ≠ "" ∧ keyOf i = k := by
    intro keyOf k h
    unfold byKey at h
    split_ifs at h with nothing
    have holds := List.find?_some h
    exact ⟨List.mem_of_find?_eq_some h, nothing, of_decide_eq_true holds⟩
  rcases Option.or_eq_some_iff.mp found with first | ⟨-, byName⟩
  · rcases Option.or_eq_some_iff.mp first with byId | ⟨-, byCode⟩
    · obtain ⟨id, given, h⟩ := Option.bind_eq_some_iff.mp byId
      have holds := List.find?_some h
      refine ⟨List.mem_of_find?_eq_some h, Or.inl ?_⟩
      rw [given, of_decide_eq_true holds]
    · obtain ⟨mem, nonempty, same⟩ := key _ _ byCode
      exact ⟨mem, Or.inr (Or.inl ⟨nonempty, same⟩)⟩
  · obtain ⟨mem, nonempty, same⟩ := key _ _ byName
    exact ⟨mem, Or.inr (Or.inr ⟨nonempty, same⟩)⟩

/-- Every reference finds among the items that are read what it finds among all live items. -/
theorem findProjectItemMatch_narrow (mem : ref ∈ refs) :
    findProjectItemMatch casing StockItem.toMatchableItem ref (readStockItemsForRefs casing catalog refs) =
      findProjectItemMatch casing StockItem.toMatchableItem ref catalog.items := by
  cases narrow : itemRefKeyCondition casing refs with
  | none =>
    have empty : readStockItemsForRefs casing catalog refs = [] := by rw [readStockItemsForRefs, narrow]
    rw [empty]
    cases found : findProjectItemMatch casing StockItem.toMatchableItem ref catalog.items with
    | none =>
      cases none_found : findProjectItemMatch casing StockItem.toMatchableItem ref ([] : List StockItem) with
      | none => rfl
      | some i => exact absurd (names_of_match none_found).1 List.not_mem_nil
    | some i =>
      obtain ⟨member, named⟩ := names_of_match found
      exact absurd named (not_names narrow mem (catalog.stored i member))
  | some condition =>
    have read : readStockItemsForRefs casing catalog refs = catalog.items.filter condition := by
      rw [readStockItemsForRefs, narrow]
    rw [read]
    exact findProjectItemMatch_filter fun i hi named =>
      condition_of_names narrow mem (catalog.stored i hi) named

end

end PapitalErp.ItemMatch
