import Mathlib.Algebra.Order.BigOperators.Group.List
import Mathlib.Algebra.Order.Group.MinMax
import Mathlib.Tactic

/-!
# Oldest-first settlement

A book of claims, oldest first, with what is still open on each. A payment takes
the oldest claims first; what no claim needs is kept as an advance, from which
the next claims are met as they come. What is left in the end depends only on the
claims, in their order, and on the sum of the payments: `run_eq` says so, and
`settle_eq_running` gives it in closed form by the running sums of the claims.
-/

namespace OldestFirst

variable {ι M : Type*} [AddCommGroup M]

/-- Each claim with its amount and the sum up to and including it, on top of `base`. -/
def running : M → List (ι × M) → List (ι × M × M)
  | _, [] => []
  | base, (i, a) :: rest => (i, a, base + a) :: running (base + a) rest

@[simp] theorem running_nil (base : M) : running base ([] : List (ι × M)) = [] := rfl

@[simp] theorem running_cons (base : M) (claim : ι × M) (rest : List (ι × M)) :
    running base (claim :: rest) =
      (claim.1, claim.2, base + claim.2) :: running (base + claim.2) rest := rfl

variable [LinearOrder M]

/-- Take `c` from the claims, the oldest first: what stays open, and what is left of `c`. -/
def settle : M → List (ι × M) → List (ι × M) × M
  | c, [] => ([], c)
  | c, (i, a) :: rest =>
      let later := settle (c - min c a) rest
      ((i, a - min c a) :: later.1, later.2)

/-- No claim is negative. -/
def NonNegative (claims : List (ι × M)) : Prop := ∀ claim ∈ claims, 0 ≤ claim.2

@[simp] theorem settle_nil (c : M) : settle c ([] : List (ι × M)) = ([], c) := rfl

@[simp] theorem settle_cons (c : M) (claim : ι × M) (rest : List (ι × M)) :
    settle c (claim :: rest) =
      ((claim.1, claim.2 - min c claim.2) :: (settle (c - min c claim.2) rest).1,
        (settle (c - min c claim.2) rest).2) := rfl

theorem nonNegative_cons {claim : ι × M} {rest : List (ι × M)} :
    NonNegative (claim :: rest) ↔ 0 ≤ claim.2 ∧ NonNegative rest := by
  simp [NonNegative]

theorem settle_append (c : M) (first second : List (ι × M)) :
    settle c (first ++ second) =
      ((settle c first).1 ++ (settle (settle c first).2 second).1,
        (settle (settle c first).2 second).2) := by
  induction first generalizing c with
  | nil => rfl
  | cons claim rest ih => simp [ih]

theorem settle_zero {claims : List (ι × M)} (h : NonNegative claims) :
    settle 0 claims = (claims, 0) := by
  induction claims with
  | nil => rfl
  | cons claim rest ih =>
      obtain ⟨amount, rest'⟩ := nonNegative_cons.mp h
      simp [min_eq_left amount, ih rest']

/-- Nothing is lost: what stays open is the claims less what was taken. -/
theorem sum_settle (c : M) (claims : List (ι × M)) :
    ((settle c claims).1.map Prod.snd).sum =
      (claims.map Prod.snd).sum - c + (settle c claims).2 := by
  induction claims generalizing c with
  | nil => simp
  | cons claim rest ih =>
      rw [settle_cons, List.map_cons, List.sum_cons, ih, List.map_cons, List.sum_cons, ← add_assoc,
        sub_add_sub_comm, add_sub_cancel]

variable [IsOrderedAddMonoid M]

/-- What two payments take from one claim is what one payment of both takes. -/
theorem min_add_min {c d a : M} (hd : 0 ≤ d) :
    min (c + d) a = min c a + min d (a - min c a) := by
  rcases le_total c a with h | h
  · rw [min_eq_left h, ← min_add_add_left, add_sub_cancel]
  · rw [min_eq_right h, sub_self, min_eq_right hd, add_zero,
      min_eq_right (h.trans (le_add_of_nonneg_right hd))]

/-- Two payments settle what one payment of both does. -/
theorem settle_add {c d : M} (hd : 0 ≤ d) {claims : List (ι × M)} :
    settle (c + d) claims =
      ((settle d (settle c claims).1).1, (settle c claims).2 + (settle d (settle c claims).1).2) := by
  induction claims generalizing c d with
  | nil => rfl
  | cons claim rest ih =>
      have left : 0 ≤ d - min d (claim.2 - min c claim.2) := sub_nonneg.mpr (min_le_left _ _)
      have split := min_add_min (c := c) (a := claim.2) hd
      have tail := ih (c := c - min c claim.2) left
      rw [sub_add_sub_comm, ← split] at tail
      rw [settle_cons, tail, split, settle_cons, settle_cons, sub_add_eq_sub_sub]

/-- What is left of a payment is what exceeds the claims. -/
theorem settle_snd {c : M} {claims : List (ι × M)} (hc : 0 ≤ c) (h : NonNegative claims) :
    (settle c claims).2 = max (c - (claims.map Prod.snd).sum) 0 := by
  induction claims generalizing c with
  | nil => simp [hc]
  | cons claim rest ih =>
      obtain ⟨amount, rest'⟩ := nonNegative_cons.mp h
      have total : 0 ≤ (rest.map Prod.snd).sum := by
        refine List.sum_nonneg fun x hx => ?_
        obtain ⟨b, mem, rfl⟩ := List.mem_map.mp hx
        exact rest' b mem
      rw [settle_cons, ih (sub_nonneg.mpr (min_le_left _ _)) rest', List.map_cons, List.sum_cons]
      rcases le_total c claim.2 with small | large
      · have within : c ≤ claim.2 + (rest.map Prod.snd).sum :=
          small.trans (le_add_of_nonneg_right total)
        rw [min_eq_left small, sub_self, max_eq_right (by simpa using total),
          max_eq_right (sub_nonpos.mpr within)]
      · rw [min_eq_right large, sub_sub]

/-- What stays open in all. -/
theorem sum_settle_eq_max {c : M} {claims : List (ι × M)} (hc : 0 ≤ c) (h : NonNegative claims) :
    ((settle c claims).1.map Prod.snd).sum = max ((claims.map Prod.snd).sum - c) 0 := by
  rw [sum_settle, settle_snd hc h]
  rcases le_total c (claims.map Prod.snd).sum with small | large
  · rw [max_eq_right (sub_nonpos.mpr small), max_eq_left (sub_nonneg.mpr small), add_zero]
  · rw [max_eq_left (sub_nonneg.mpr large), max_eq_right (sub_nonpos.mpr large),
      sub_add_sub_cancel, sub_self]

/-! ## The closed form -/

/-- Claims that lie wholly above what was settled stay open. -/
theorem running_untouched {settled base : M} {claims : List (ι × M)} (h : NonNegative claims)
    (above : settled ≤ base) :
    ((running base claims).map fun r => (r.1, max (min (r.2.2 - settled) r.2.1) 0)) = claims := by
  induction claims generalizing base with
  | nil => rfl
  | cons claim rest ih =>
      obtain ⟨amount, rest'⟩ := nonNegative_cons.mp h
      have whole : claim.2 ≤ base + claim.2 - settled := by
        rw [add_sub_right_comm]
        exact le_add_of_nonneg_left (sub_nonneg.mpr above)
      rw [running_cons, List.map_cons, ih rest' (above.trans (le_add_of_nonneg_right amount)),
        min_eq_right whole, max_eq_left amount]

theorem settle_eq_running_from {c b : M} {claims : List (ι × M)} (hc : 0 ≤ c)
    (h : NonNegative claims) :
    (settle c claims).1 =
      (running b claims).map fun r => (r.1, max (min (r.2.2 - (b + c)) r.2.1) 0) := by
  induction claims generalizing c b with
  | nil => rfl
  | cons claim rest ih =>
      obtain ⟨amount, rest'⟩ := nonNegative_cons.mp h
      have smaller : claim.2 - c ≤ claim.2 := sub_le_self _ hc
      rw [settle_cons, running_cons, List.map_cons, add_sub_add_left_eq_sub, min_eq_left smaller]
      rcases le_total c claim.2 with small | large
      · rw [min_eq_left small, sub_self, settle_zero rest', max_eq_left (sub_nonneg.mpr small),
          running_untouched rest' (add_le_add_right small b)]
      · rw [min_eq_right large, sub_self, max_eq_right (sub_nonpos.mpr large),
          ih (b := b + claim.2) (sub_nonneg.mpr large) rest', add_assoc, add_sub_cancel]

/-- Each claim keeps what its running sum exceeds the payment by, at most its
amount and at least nothing. -/
theorem settle_eq_running {c : M} {claims : List (ι × M)} (hc : 0 ≤ c) (h : NonNegative claims) :
    (settle c claims).1 =
      (running 0 claims).map fun r => (r.1, max (min (r.2.2 - c) r.2.1) 0) := by
  simpa using settle_eq_running_from (b := 0) hc h

/-! ## Claims and payments as they come -/

inductive Entry (ι M : Type*) where
  | claim (label : ι) (amount : M)
  | payment (amount : M)

structure Book (ι M : Type*) where
  outstanding : List (ι × M)
  advance : M

/-- A claim is met from the advance first; a payment settles the oldest claims first. -/
def Book.post (book : Book ι M) : Entry ι M → Book ι M
  | .claim label amount =>
      ⟨book.outstanding ++ [(label, amount - min book.advance amount)],
        book.advance - min book.advance amount⟩
  | .payment amount =>
      ⟨(settle amount book.outstanding).1, book.advance + (settle amount book.outstanding).2⟩

def run (entries : List (Entry ι M)) : Book ι M := entries.foldl Book.post ⟨[], 0⟩

namespace Entry

def amount : Entry ι M → M
  | claim _ amount => amount
  | payment amount => amount

def claim? : Entry ι M → Option (ι × M)
  | claim label amount => some (label, amount)
  | payment _ => none

/-- What the entry pays. -/
def pays : Entry ι M → M
  | claim _ _ => 0
  | payment amount => amount

end Entry

/-- The claims among the entries, in their order. -/
def claims (entries : List (Entry ι M)) : List (ι × M) := entries.filterMap Entry.claim?

/-- The sum of the payments among the entries. -/
def paid (entries : List (Entry ι M)) : M := (entries.map Entry.pays).sum

/-- The book after the entries: the claims in their order, with all payments
settled at once. -/
theorem run_eq {entries : List (Entry ι M)} (h : ∀ entry ∈ entries, 0 ≤ entry.amount) :
    run entries = ⟨(settle (paid entries) (claims entries)).1,
      (settle (paid entries) (claims entries)).2⟩ := by
  induction entries using List.reverseRecOn with
  | nil => rfl
  | append_singleton entries entry ih =>
      have before := ih fun e he => h e (List.mem_append_left _ he)
      rw [run] at before ⊢
      rw [List.foldl_append, before]
      cases entry with
      | claim label amount =>
          have same : paid (entries ++ [.claim label amount]) = paid entries := by
            simp [paid, Entry.pays]
          have more : claims (entries ++ [.claim label amount]) =
              claims entries ++ [(label, amount)] := by
            simp [claims, Entry.claim?]
          rw [same, more, settle_append]
          rfl
      | payment amount =>
          have more : paid (entries ++ [.payment amount]) = paid entries + amount := by
            simp [paid, Entry.pays]
          have same : claims (entries ++ [.payment amount]) = claims entries := by
            simp [claims, Entry.claim?]
          have positive : 0 ≤ amount := h (.payment amount) (by simp)
          rw [same, more, settle_add positive]
          rfl

end OldestFirst
