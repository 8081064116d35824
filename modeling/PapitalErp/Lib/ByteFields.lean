import Mathlib

/-!
# Numbers in bytes

A number of a fixed width, its lowest byte first, and the reading of fields from the front of some bytes.
A field that was written is read back with what follows it.
-/

namespace ByteFields

abbrev Bytes := List UInt8

/-- `value` in `width` bytes, the lowest first. -/
def number : ℕ → ℕ → Bytes
  | 0, _ => []
  | width + 1, value => UInt8.ofNat value :: number width (value / 256)

/-- The number that some bytes stand for. -/
def valueOf : Bytes → ℕ
  | [] => 0
  | byte :: rest => byte.toNat + 256 * valueOf rest

@[simp] theorem length_number (width value : ℕ) : (number width value).length = width := by
  induction width generalizing value with
  | zero => rfl
  | succ width ih => rw [number, List.length_cons, ih]

/-- A number that fits into its width is kept. -/
theorem valueOf_number {width value : ℕ} (fits : value < 256 ^ width) : valueOf (number width value) = value := by
  induction width generalizing value with
  | zero =>
      rw [pow_zero] at fits
      exact (Nat.lt_one_iff.mp fits).symm
  | succ width ih =>
      have rest : value / 256 < 256 ^ width := by
        rw [Nat.div_lt_iff_lt_mul (by norm_num), ← pow_succ]
        exact fits
      have byte : (UInt8.ofNat value).toNat = value % 256 := rfl
      rw [number, valueOf, ih rest, byte]
      omega

/-- So many bytes from the front. -/
def takeBytes (n : ℕ) (s : Bytes) : Option (Bytes × Bytes) := if n ≤ s.length then some (s.take n, s.drop n) else none

/-- A number of so many bytes from the front. -/
def takeNumber (width : ℕ) (s : Bytes) : Option (ℕ × Bytes) :=
  (takeBytes width s).map fun taken => (valueOf taken.1, taken.2)

theorem takeBytes_append {n : ℕ} {p : Bytes} (length : p.length = n) (rest : Bytes) :
    takeBytes n (p ++ rest) = some (p, rest) := by
  subst length
  simp [takeBytes]

/-- What is read goes to the reading of what follows. -/
theorem read_next {α β : Type} {x : Option α} {a : α} {f : α → Option β} {r : Option β} (field : x = some a)
    (rest : f a = r) : (x >>= f) = r := by
  rw [field, Option.bind_eq_bind, Option.bind_some, rest]

@[simp] theorem takeBytes_zero (s : Bytes) : takeBytes 0 s = some ([], s) := by
  simp [takeBytes]

theorem takeNumber_number {width value : ℕ} (fits : value < 256 ^ width) (rest : Bytes) :
    takeNumber width (number width value ++ rest) = some (value, rest) := by
  rw [takeNumber, takeBytes_append (length_number width value), Option.map_some, valueOf_number fits]

end ByteFields
