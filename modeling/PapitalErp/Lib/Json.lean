import Mathlib.Data.List.Basic

/-!
# JSON values

A JSON value with numbers of any type. Members of an object are a list in the order
of the object; a path goes down through members and list entries.
-/

inductive JsonValue (N : Type*) where
  | null
  | bool (b : Bool)
  | num (n : N)
  | str (s : String)
  | arr (items : List (JsonValue N))
  | obj (members : List (String × JsonValue N))

namespace JsonValue

variable {N : Type*}

/-- A property of every value: of lists and objects once it holds of what is in them. -/
theorem induction {P : JsonValue N → Prop} (null : P .null) (bool : ∀ b, P (.bool b))
    (num : ∀ n, P (.num n)) (str : ∀ s, P (.str s))
    (arr : ∀ items, (∀ v ∈ items, P v) → P (.arr items))
    (obj : ∀ members, (∀ m ∈ members, P m.2) → P (.obj members)) (v : JsonValue N) : P v := by
  refine JsonValue.rec (motive_1 := P) (motive_2 := fun items => ∀ v ∈ items, P v)
    (motive_3 := fun members => ∀ m ∈ members, P m.2) (motive_4 := fun m => P m.2)
    null bool num str (fun items => arr items) (fun members => obj members) ?_ ?_ ?_ ?_ ?_ v
  · exact fun _ mem => absurd mem List.not_mem_nil
  · exact fun _ _ head tail _ mem => (List.mem_cons.mp mem).elim (fun is => is ▸ head) (tail _)
  · exact fun _ mem => absurd mem List.not_mem_nil
  · exact fun _ _ head tail _ mem => (List.mem_cons.mp mem).elim (fun is => is ▸ head) (tail _)
  · exact fun _ _ value => value

/-- One step down: a member by its key or a list entry by its index. -/
inductive Step
  | key (key : String)
  | index (i : ℕ)
  deriving DecidableEq

/-- The first member of that name. -/
def member (key : String) : List (String × JsonValue N) → Option (JsonValue N)
  | [] => none
  | (name, value) :: rest => if name = key then some value else member key rest

/-- The value one step down. -/
def child : JsonValue N → Step → Option (JsonValue N)
  | .obj members, .key key => member key members
  | .arr items, .index i => items[i]?
  | _, _ => none

/-- The value at the end of a path. -/
def at? : JsonValue N → List Step → Option (JsonValue N)
  | v, [] => some v
  | v, s :: path => (v.child s).bind fun w => w.at? path

end JsonValue
