import PapitalErp.Lib.PrefixSums
import PapitalErp.Documents.SalesReturn

/-!
# The VAT that returns give back

Each return is given the increase of `vatShare` over the net that is live when
it is made, so the live VAT is the share of the live net as long as a voided
return takes off exactly the increase at the end of that net. A return voided
out of turn takes off another amount, because each share is rounded; from then
on the returns may give back more, or less, than the invoice's VAT.
-/

namespace PapitalErp

open Rounding Transition

/-! ## The share -/

section Share

variable {invoice : SalesInvoice}

/-- The share before it is capped at the invoice's VAT. -/
def roundedShare (invoice : SalesInvoice) (net : ℚ) : ℚ :=
  FinancialDecimal.round
    (FinancialDecimal.divide (invoice.vatAmount * net) (computeNetAmount invoice.lines) 12)
    (currencyScale invoice.currency)

/-- Nothing to share: an invoice without net or without VAT. -/
abbrev SharesNothing (invoice : SalesInvoice) : Prop :=
  computeNetAmount invoice.lines ≤ 0 ∨ invoice.vatAmount ≤ 0

theorem vatShare_eq (net : ℚ) : vatShare invoice net =
    if SharesNothing invoice then 0 else min invoice.vatAmount (roundedShare invoice net) := by
  unfold vatShare
  dsimp only
  split
  · rfl
  · split
    · rename_i hcap
      exact (min_eq_left hcap.le).symm
    · rename_i hcap
      exact (min_eq_right (not_lt.mp hcap)).symm

theorem vatShare_le (net : ℚ) : vatShare invoice net ≤ invoice.vatAmount := by
  rw [vatShare_eq]
  split
  · exact invoice.vat_valid.2
  · exact min_le_left _ _

theorem vatShare_zero : vatShare invoice 0 = 0 := by
  have none : roundedShare invoice 0 = 0 := by
    simp [roundedShare, FinancialDecimal.round, FinancialDecimal.divide, roundHalfUp_zero]
  rw [vatShare_eq, none]
  split
  · rfl
  · exact min_eq_right invoice.vat_valid.2

theorem vatShare_mono {x y : ℚ} (h : x ≤ y) : vatShare invoice x ≤ vatShare invoice y := by
  rw [vatShare_eq, vatShare_eq]
  split
  · exact le_rfl
  · rename_i hshares
    have hnet : 0 < computeNetAmount invoice.lines := not_le.mp fun h => hshares (.inl h)
    refine min_le_min le_rfl (roundHalfUp_mono _ (roundHalfUp_mono _ ?_))
    exact div_le_div_of_nonneg_right (mul_le_mul_of_nonneg_left h invoice.vat_valid.2) hnet.le

theorem vatShare_atScale (net : ℚ) : AtScale 4 (vatShare invoice net) := by
  rw [vatShare_eq]
  split
  · exact AtScale.zero 4
  · rcases min_choice invoice.vatAmount (roundedShare invoice net) with h | h <;> rw [h]
    · exact invoice.vat_valid.1
    · exact (atScale_roundHalfUp _ _).mono ((currencyScale_le _).trans (by decide))

/-- The whole net carries the whole VAT, when the VAT loses nothing by rounding
to the currency and there is a net to share it over. -/
theorem vatShare_whole
    (exact : invoice.vatAmount ≤
      FinancialDecimal.round invoice.vatAmount (currencyScale invoice.currency))
    (based : 0 < computeNetAmount invoice.lines ∨ invoice.vatAmount = 0) :
    vatShare invoice (computeNetAmount invoice.lines) = invoice.vatAmount := by
  rw [vatShare_eq]
  split
  · rename_i hnothing
    rcases hnothing with hnet | hvat
    · exact (based.resolve_left (not_lt.mpr hnet)).symm
    · exact le_antisymm invoice.vat_valid.2 hvat
  · rename_i hshares
    have hnet : computeNetAmount invoice.lines ≠ 0 := fun h => hshares (.inl h.le)
    have whole : roundedShare invoice (computeNetAmount invoice.lines) =
        FinancialDecimal.round invoice.vatAmount (currencyScale invoice.currency) := by
      rw [roundedShare, FinancialDecimal.divide, mul_div_cancel_right₀ _ hnet,
        roundHalfUp_of_atScale (invoice.vat_valid.1.mono (by decide))]
    rw [whole]
    exact min_eq_left exact

end Share

/-! ## Steps -/

section Steps

variable {invoice : SalesInvoice} {s s' : ReturnState}

/-- A return is given the increase of the share over its net. -/
theorem resolveReturnVatFromInvoice_ok {earlierNet : ℚ} {lines : List DocumentLine}
    {input : VatInput} {vat : DocumentVat}
    (h : resolveReturnVatFromInvoice invoice earlierNet lines input = .ok vat) :
    vat.vatAmount = vatShare invoice (earlierNet + computeNetAmount lines) -
      vatShare invoice earlierNet := by
  simp only [resolveReturnVatFromInvoice, bind_eq_ok, ensure_eq_ok, pure_eq_ok] at h
  obtain ⟨sent, -, -, -, rfl⟩ := h
  have up : vatShare invoice earlierNet ≤
      vatShare invoice (earlierNet + computeNetAmount lines) :=
    vatShare_mono (le_add_of_nonneg_right (computeNetAmount_nonneg lines))
  have scale : AtScale 4 (vatShare invoice (earlierNet + computeNetAmount lines) -
      vatShare invoice earlierNet) := (vatShare_atScale _).sub (vatShare_atScale _)
  dsimp only
  rw [if_neg (not_lt.mpr (sub_nonneg.mpr up)), round_four, money_of_atScale scale,
    money_of_atScale scale]

/-- A new final return. -/
structure ReturnAdded (invoice : SalesInvoice) (s s' : ReturnState) (lines : List DocumentLine)
    (vatAmount : ℚ) : Prop where
  share : vatAmount = vatShare invoice (s.liveNet + computeNetAmount lines) -
    vatShare invoice s.liveNet
  result : s' = ⟨s.returns ++ [⟨s.nextId, lines, vatAmount, false⟩], s.nextId + 1⟩

/-- A live return voided. -/
structure ReturnVoided (s s' : ReturnState) (id : ℕ) : Prop where
  live : ∃ r ∈ s.live, r.id = id
  result : s' = { s with
    returns := s.returns.map fun r => if r.id = id then { r with isDeleted := true } else r }

theorem addReturn_ok {lines : List DocumentLine} {input : VatInput}
    (h : addReturn invoice s lines input = .ok s') :
    ∃ vatAmount, ReturnAdded invoice s s' lines vatAmount := by
  simp only [addReturn, bind_eq_ok] at h
  obtain ⟨-, -, h⟩ := h
  split at h
  · cases h
  · rename_i vat hvat
    cases h
    exact ⟨vat.vatAmount, resolveReturnVatFromInvoice_ok hvat, rfl⟩

/-- What a request about the returns can do. -/
theorem returnStep_ok {op : ReturnOperation} (h : returnStep invoice s op = .ok s') :
    (∃ lines vatAmount, ReturnAdded invoice s s' lines vatAmount) ∨
      ∃ id pass, op = .void id pass ∧ ReturnVoided s s' id := by
  cases op with
  | record sent currency rate input =>
      simp only [returnStep, bind_eq_ok] at h
      obtain ⟨lines, -, -, -, hadd⟩ := h
      exact .inl ⟨lines, addReturn_ok hadd⟩
  | finalize draft currency rate input =>
      simp only [returnStep, bind_eq_ok] at h
      obtain ⟨-, -, -, -, hadd⟩ := h
      exact .inl ⟨draft, addReturn_ok hadd⟩
  | void id pass =>
      simp only [returnStep, bind_eq_ok, ensure_eq_ok, pure_eq_ok, exists_const] at h
      exact .inr ⟨id, pass, rfl, h.1, h.2.2.symm⟩

end Steps

/-! ## Runs -/

/-- A void takes off a return whose stored VAT is the increase of the share over
the end of the live net. -/
def VoidsLastShare (invoice : SalesInvoice) (s : ReturnState) : ReturnOperation → Prop
  | .void id _ => ∀ r ∈ s.live, r.id = id →
      r.vatAmount = vatShare invoice s.liveNet - vatShare invoice (s.liveNet - r.net)
  | _ => True

instance (invoice : SalesInvoice) (s : ReturnState) (op : ReturnOperation) :
    Decidable (VoidsLastShare invoice s op) :=
  match op with
  | .void id _ => inferInstanceAs (Decidable (∀ r ∈ s.live, r.id = id → _))
  | .record .. | .finalize .. => .isTrue trivial

structure VatTelescopes (invoice : SalesInvoice) (s : ReturnState) : Prop where
  sorted : s.returns.Pairwise fun a b => a.id < b.id
  below : ∀ r ∈ s.returns, r.id < s.nextId
  share : s.liveVat = vatShare invoice s.liveNet

namespace VatTelescopes

variable {invoice : SalesInvoice} {s s' : ReturnState}

theorem initial : VatTelescopes invoice .initial where
  sorted := List.Pairwise.nil
  below := by simp [ReturnState.initial]
  share := vatShare_zero.symm

theorem add (h : VatTelescopes invoice s) {lines : List DocumentLine} {vatAmount : ℚ}
    (added : ReturnAdded invoice s s' lines vatAmount) : VatTelescopes invoice s' := by
  obtain ⟨share, rfl⟩ := added
  refine ⟨?_, ?_, ?_⟩
  · rw [List.pairwise_append]
    refine ⟨h.sorted, List.pairwise_singleton _ _, fun a ha b hb => ?_⟩
    rw [List.mem_singleton.mp hb]
    exact h.below a ha
  · intro r hr
    rcases List.mem_append.mp hr with hr | hr
    · exact (h.below r hr).trans (Nat.lt_succ_self _)
    · rw [List.mem_singleton.mp hr]
      exact Nat.lt_succ_self _
  · have live : (⟨s.returns ++ [⟨s.nextId, lines, vatAmount, false⟩], s.nextId + 1⟩ :
        ReturnState).live = s.live ++ [⟨s.nextId, lines, vatAmount, false⟩] := by
      simp [ReturnState.live]
    have old := h.share
    simp only [ReturnState.liveVat, ReturnState.liveNet] at old share ⊢
    rw [live]
    simp only [List.map_append, List.sum_append, List.map_cons, List.map_nil, List.sum_cons,
      List.sum_nil, add_zero, SalesReturn.net]
    rw [old, share]
    ring

theorem live_nodup (h : VatTelescopes invoice s) : (s.live.map SalesReturn.id).Nodup := by
  rw [List.nodup_iff_pairwise_ne, List.pairwise_map]
  exact (h.sorted.filter _).imp fun hab => hab.ne

theorem filter_voided (id : ℕ) (returns : List SalesReturn) :
    (returns.map fun x => if x.id = id then { x with isDeleted := true } else x).filter
        (fun x => !x.isDeleted) =
      returns.filter fun x => !decide (x.id = id) && !x.isDeleted := by
  induction returns with
  | nil => rfl
  | cons head rest ih =>
      simp only [List.map_cons, List.filter_cons, ih]
      by_cases hid : head.id = id <;> simp [hid]

theorem void (h : VatTelescopes invoice s) {id : ℕ} {pass : Bool}
    (voided : ReturnVoided s s' id) (last : VoidsLastShare invoice s (.void id pass)) :
    VatTelescopes invoice s' := by
  obtain ⟨⟨r, hr, rfl⟩, rfl⟩ := voided
  have live : ({ s with returns := s.returns.map fun x =>
      if x.id = r.id then { x with isDeleted := true } else x } : ReturnState).live =
      s.live.filter fun x => !decide (x.id = r.id) := by
    simp only [ReturnState.live, List.filter_filter]
    exact filter_voided r.id s.returns
  refine ⟨?_, ?_, ?_⟩
  · rw [List.pairwise_map]
    refine h.sorted.imp fun {a b} hab => ?_
    split <;> split <;> exact hab
  · intro x hx
    obtain ⟨y, hy, rfl⟩ := List.mem_map.mp hx
    have := h.below y hy
    split <;> exact this
  · have share := last r hr rfl
    have old := h.share
    simp only [ReturnState.liveVat, ReturnState.liveNet, live] at old share ⊢
    rw [PrefixSums.sum_filter_ne_key _ _ h.live_nodup hr,
      PrefixSums.sum_filter_ne_key _ _ h.live_nodup hr, old, share]
    ring

theorem step (h : VatTelescopes invoice s) {op : ReturnOperation}
    (last : VoidsLastShare invoice s op) (hstep : returnStep invoice s op = .ok s') :
    VatTelescopes invoice s' := by
  rcases returnStep_ok hstep with ⟨lines, vatAmount, added⟩ | ⟨id, pass, rfl, voided⟩
  · exact h.add added
  · exact h.void voided last

end VatTelescopes

/-- Net 15 and VAT 2, since a VAT is rounded to whole rials. -/
def threeUnits : SalesInvoice where
  lines := [⟨1, 3, 5, 0⟩]
  currency := "IRR"
  exchangeRate := 0
  vatPercent := 10
  vatAmount := 2
  vat_valid := ⟨AtScale.natCast 4 2, by norm_num⟩

def returnOne : ReturnOperation := .record [⟨1, 1, none, none⟩] none none .none

/-- Three returns of one unit, a void, and the voided unit returned again. -/
def returnAgain (voided : ℕ) : List ReturnOperation :=
  [returnOne, returnOne, returnOne, .void voided true, returnOne]

end PapitalErp
