import Mathlib.Logic.Function.Basic

/-!
# A cache beside a table

A cache keeps, for some keys, a value that was read from a table. It changes in two ways: an
entry is filled with a value, or dropped. `Only cache k Q` says that the cache has nothing for
`k` that does not meet `Q`; a drop makes it true, and a fill keeps it true when the value meets
`Q`.
-/

namespace CacheAside

variable {κ ν : Type*} [DecidableEq κ] {cache : κ → Option ν} {k l : κ} {v : ν} {Q R : ν → Prop}

/-- What the cache has for the key meets `Q`. -/
def Only (cache : κ → Option ν) (k : κ) (Q : ν → Prop) : Prop := ∀ v, cache k = some v → Q v

def fill (cache : κ → Option ν) (k : κ) (v : ν) : κ → Option ν := Function.update cache k (some v)

def drop (cache : κ → Option ν) (k : κ) : κ → Option ν := Function.update cache k none

/-- Drop every key that meets the condition. -/
def dropWhere (cache : κ → Option ν) (p : κ → Bool) : κ → Option ν :=
  fun k => if p k then none else cache k

theorem fill_cases {w : ν} (h : fill cache k v l = some w) : l = k ∧ w = v ∨ cache l = some w := by
  unfold fill at h
  by_cases same : l = k
  · subst same
    rw [Function.update_self] at h
    exact .inl ⟨rfl, (Option.some.inj h).symm⟩
  · rw [Function.update_of_ne same] at h
    exact .inr h

theorem of_drop {w : ν} (h : drop cache k l = some w) : l ≠ k ∧ cache l = some w := by
  unfold drop at h
  by_cases same : l = k
  · subst same
    rw [Function.update_self] at h
    cases h
  · rw [Function.update_of_ne same] at h
    exact ⟨same, h⟩

omit [DecidableEq κ] in
theorem of_dropWhere {p : κ → Bool} {w : ν} (h : dropWhere cache p l = some w) :
    p l = false ∧ cache l = some w := by
  unfold dropWhere at h
  split at h
  · cases h
  · rename_i kept
    exact ⟨by simpa using kept, h⟩

theorem Only.fill (h : Only cache l Q) (meets : l = k → Q v) : Only (fill cache k v) l Q := by
  intro w found
  obtain ⟨same, rfl⟩ | old := fill_cases found
  · exact meets same
  · exact h w old

theorem Only.drop (h : Only cache l Q) : Only (drop cache k) l Q :=
  fun w found => h w (of_drop found).2

omit [DecidableEq κ] in
theorem Only.dropWhere {p : κ → Bool} (h : Only cache l Q) : Only (dropWhere cache p) l Q :=
  fun w found => h w (of_dropWhere found).2

theorem only_drop_self : Only (drop cache k) k Q :=
  fun _ found => absurd rfl (of_drop found).1

omit [DecidableEq κ] in
theorem only_dropWhere {p : κ → Bool} (dropped : p l = true) : Only (dropWhere cache p) l Q := by
  intro w found
  have kept := (of_dropWhere found).1
  rw [dropped] at kept
  cases kept

end CacheAside
