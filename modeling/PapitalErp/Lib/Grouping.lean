import PapitalErp.Lib.FilteredSums

/-!
# Rows collected by a key

A pass over some rows keeps one entry for each key, in the order of the first rows: the first row of a
key makes its entry and every other one joins it. Rows without a key are passed over. The entry of a key
is the fold of the rows of the key, so a measure to which each row adds is the sum over them.
-/

namespace Grouping

open FilteredSums

variable {α β κ : Type*} [DecidableEq κ]

section Put

variable (new : α → β) (join : β → α → β)

/-- A row of the key `k`. -/
def put (k : κ) (a : α) : List (κ × β) → List (κ × β)
  | [] => [(k, new a)]
  | entry :: rest => if entry.1 = k then (k, join entry.2 a) :: rest else entry :: put k a rest

/-- A row, which may have no key. -/
def putRow (key : α → Option κ) (groups : List (κ × β)) (a : α) : List (κ × β) :=
  match key a with
  | none => groups
  | some k => put new join k a groups

/-- The entries of the rows. -/
def group (key : α → Option κ) (rows : List α) : List (κ × β) := rows.foldl (putRow new join key) []

/-- The entry that some rows of one key make. -/
def entryOf : List α → Option β
  | [] => none
  | a :: rest => some (rest.foldl join (new a))

end Put

variable {new : α → β} {join : β → α → β} {key : α → Option κ} {rows : List α} {k k' : κ} {a : α} {b : β}
  {groups : List (κ × β)}

theorem entryOf_concat (l : List α) (a : α) :
    entryOf new join (l ++ [a]) = some (((entryOf new join l).map fun b => join b a).getD (new a)) := by
  cases l with
  | nil => rfl
  | cons first rest => simp [entryOf, List.foldl_append]

/-- What is read of an entry is made of what is read of the rows. -/
theorem map_entryOf {γ δ : Type*} {new' : γ → δ} {join' : δ → γ → δ} (f : β → δ) (g : α → γ)
    (first : ∀ a, f (new a) = new' (g a)) (next : ∀ b a, f (join b a) = join' (f b) (g a)) (l : List α) :
    (entryOf new join l).map f = entryOf new' join' (l.map g) := by
  have folded : ∀ (l : List α) (b : β), f (l.foldl join b) = (l.map g).foldl join' (f b) := by
    intro l
    induction l with
    | nil => exact fun _ => rfl
    | cons a l ih => exact fun b => (ih _).trans (congrArg (List.foldl join' · (l.map g)) (next b a))
  cases l with
  | nil => rfl
  | cons a rest => simp [entryOf, folded, first]

theorem keys_put : k' ∈ (put new join k a groups).map Prod.fst ↔ k' = k ∨ k' ∈ groups.map Prod.fst := by
  induction groups with
  | nil => simp [put]
  | cons entry rest ih =>
      by_cases same : entry.1 = k
      · simp [put, same]
      · simp only [put, same, if_false, List.map_cons, List.mem_cons, ih]
        tauto

theorem nodup_put (distinct : (groups.map Prod.fst).Nodup) :
    ((put new join k a groups).map Prod.fst).Nodup := by
  induction groups with
  | nil => simp [put]
  | cons entry rest ih =>
      rw [List.map_cons, List.nodup_cons] at distinct
      by_cases same : entry.1 = k
      · rw [put, if_pos same, List.map_cons, List.nodup_cons]
        exact same ▸ distinct
      · rw [put, if_neg same, List.map_cons, List.nodup_cons]
        refine ⟨fun mem => ?_, ih distinct.2⟩
        obtain eq | mem := keys_put.mp mem
        · exact same eq
        · exact distinct.1 mem

theorem lookup_put_of_ne (apart : k' ≠ k) : (put new join k a groups).lookup k' = groups.lookup k' := by
  induction groups with
  | nil => simp [put, List.lookup_cons, beq_eq_false_iff_ne.mpr apart]
  | cons entry rest ih =>
      obtain ⟨own, held⟩ := entry
      by_cases same : own = k
      · subst same
        simp [put, List.lookup_cons, beq_eq_false_iff_ne.mpr apart]
      · simp [put, same, List.lookup_cons, ih]

theorem lookup_put_self :
    (put new join k a groups).lookup k = some (((groups.lookup k).map fun b => join b a).getD (new a)) := by
  induction groups with
  | nil => simp [put]
  | cons entry rest ih =>
      obtain ⟨own, held⟩ := entry
      by_cases same : own = k
      · simp [put, same]
      · simp [put, same, List.lookup_cons, beq_eq_false_iff_ne.mpr (Ne.symm same), ih]

/-- The rows of a key. -/
def rowsOf (key : α → Option κ) (rows : List α) (k : κ) : List α := rows.filter fun a => key a == some k

theorem group_concat (rows : List α) (a : α) :
    group new join key (rows ++ [a]) = putRow new join key (group new join key rows) a := by
  rw [group, List.foldl_append]
  rfl

/-- The entry of a key is made of the rows of the key. -/
theorem lookup_group (rows : List α) (k : κ) :
    (group new join key rows).lookup k = entryOf new join (rowsOf key rows k) := by
  induction rows using List.reverseRecOn with
  | nil => rfl
  | append_singleton rows a ih =>
      rw [group_concat, rowsOf, List.filter_append, ← rowsOf, putRow]
      cases found : key a with
      | none => simp [found, ih]
      | some k' =>
          dsimp only
          by_cases same : k' = k
          · subst same
            rw [lookup_put_self, ih, List.filter_cons_of_pos (by simp [found]), List.filter_nil, entryOf_concat]
          · rw [lookup_put_of_ne (Ne.symm same), ih, List.filter_cons_of_neg (by simp [found, same])]
            simp

theorem nodup_group (key : α → Option κ) (rows : List α) : ((group new join key rows).map Prod.fst).Nodup := by
  induction rows using List.reverseRecOn with
  | nil => exact List.nodup_nil
  | append_singleton rows a ih =>
      rw [group_concat, putRow]
      cases key a with
      | none => exact ih
      | some k => exact nodup_put ih

/-- With distinct keys the entries are what a lookup finds. -/
theorem mem_iff_lookup (distinct : (groups.map Prod.fst).Nodup) : (k, b) ∈ groups ↔ groups.lookup k = some b := by
  induction groups with
  | nil => simp
  | cons entry rest ih =>
      obtain ⟨own, held⟩ := entry
      rw [List.map_cons, List.nodup_cons] at distinct
      by_cases same : k = own
      · subst same
        have absent : (k, b) ∉ rest := fun mem => distinct.1 (List.mem_map.mpr ⟨_, mem, rfl⟩)
        simp [absent, eq_comm]
      · simp [List.lookup_cons, beq_eq_false_iff_ne.mpr same, same, ih distinct.2]

theorem mem_group : (k, b) ∈ group new join key rows ↔ entryOf new join (rowsOf key rows k) = some b := by
  rw [mem_iff_lookup (nodup_group key rows), lookup_group]

/-- A key has an entry when a row has the key. -/
theorem key_mem_group : k ∈ (group new join key rows).map Prod.fst ↔ ∃ a ∈ rows, key a = some k := by
  have nonempty : (∃ b, entryOf new join (rowsOf key rows k) = some b) ↔ rowsOf key rows k ≠ [] := by
    cases rowsOf key rows k <;> simp [entryOf]
  have members : rowsOf key rows k ≠ [] ↔ ∃ a ∈ rows, key a = some k := by
    simp [rowsOf, List.filter_eq_nil_iff]
  rw [← members, ← nonempty]
  constructor
  · intro mem
    obtain ⟨⟨own, b⟩, there, rfl⟩ := List.mem_map.mp mem
    exact ⟨b, mem_group.mp there⟩
  · rintro ⟨b, made⟩
    exact List.mem_map_of_mem (mem_group.mpr made)

theorem group_eq_nil_iff : group new join key rows = [] ↔ ∀ a ∈ rows, key a = none := by
  constructor
  · intro empty a mem
    by_contra named
    obtain ⟨k, own⟩ := Option.ne_none_iff_exists'.mp named
    have found : k ∈ (group new join key rows).map Prod.fst := key_mem_group.mpr ⟨a, mem, own⟩
    rw [empty] at found
    cases found
  · intro unnamed
    rw [List.eq_nil_iff_forall_not_mem]
    rintro ⟨k, b⟩ mem
    obtain ⟨a, there, own⟩ := key_mem_group.mp (List.mem_map_of_mem mem)
    exact Option.some_ne_none k (own.symm.trans (unnamed a there))

/-- A measure to which every row adds is a sum over the rows of the key. -/
theorem measure_of_mem {M : Type*} [AddCommMonoid M] (measure : β → M) {amount : α → M}
    (first : ∀ a, measure (new a) = amount a) (next : ∀ b a, measure (join b a) = measure b + amount a)
    (mem : (k, b) ∈ group new join key rows) :
    measure b = sumWhere (fun a => key a == some k) amount rows := by
  have folded : ∀ (l : List α) (b : β), measure (l.foldl join b) = measure b + (l.map amount).sum := by
    intro l
    induction l with
    | nil => simp
    | cons a l ih =>
        intro b
        rw [List.foldl_cons, ih, next, List.map_cons, List.sum_cons, add_assoc]
  have made := mem_group.mp mem
  have sum : sumWhere (fun a => key a == some k) amount rows = ((rowsOf key rows k).map amount).sum := rfl
  rw [sum]
  cases rowsOfKey : rowsOf key rows k with
  | nil =>
      rw [rowsOfKey] at made
      cases made
  | cons a rest =>
      rw [rowsOfKey, entryOf, Option.some.injEq] at made
      rw [← made, folded, first, List.map_cons, List.sum_cons]

/-- What the first row of a key gives its entry and no other row changes. -/
theorem kept_of_mem {γ : Type*} (get : β → γ) (next : ∀ b a, get (join b a) = get b)
    (mem : (k, b) ∈ group new join key rows) : ∃ a ∈ rows, key a = some k ∧ get b = get (new a) := by
  have folded : ∀ (l : List α) (b : β), get (l.foldl join b) = get b := by
    intro l
    induction l with
    | nil => exact fun _ => rfl
    | cons a l ih => exact fun b => (ih _).trans (next b a)
  have made := mem_group.mp mem
  cases rowsOfKey : rowsOf key rows k with
  | nil =>
      rw [rowsOfKey] at made
      cases made
  | cons a rest =>
      rw [rowsOfKey, entryOf, Option.some.injEq] at made
      have member : a ∈ rowsOf key rows k := rowsOfKey ▸ List.mem_cons_self
      obtain ⟨there, own⟩ := List.mem_filter.mp member
      exact ⟨a, there, beq_iff_eq.mp own, made ▸ folded rest (new a)⟩

end Grouping
