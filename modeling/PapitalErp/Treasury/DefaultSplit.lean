import PapitalErp.Treasury.SettlementAllocation

/-!
# The default split of a receipt

The forms put a receipt or a cheque on the oldest open documents of its party first, each up
to what is left on it. The form checks the parts before it sends them, the server checks them
again: both accept what the default makes, as long as it takes no more than fifty documents.

Amounts are exact; ids of documents are those of a table.
-/

namespace PapitalErp

open Rounding

/-- What the default split reads of an open document. -/
structure OpenSettlementDocument where
  id : DocumentId
  refNumber : String
  status : Option DocumentStatus
  remaining : ℚ
  allocatedHere : ℚ

/-- `isSettleableStatus`; a status that is not given counts as issued. -/
def isSettleableStatus : Option DocumentStatus → Bool
  | none => true
  | some status => status ∈ settleableDocumentStatuses

/-- What a document can still take. -/
def settlementRoom (doc : OpenSettlementDocument) : ℚ :=
  money (if isSettleableStatus doc.status then doc.remaining + doc.allocatedHere else doc.allocatedHere)

/-- The loop of `fillOldestFirst`. -/
def fillFrom : ℚ → List OpenSettlementDocument → List SettlementAllocationInput
  | _, [] => []
  | left, doc :: docs =>
      if left ≤ 0 then []
      else
        let room := settlementRoom doc
        if room ≤ 0 then fillFrom left docs
        else
          let part := if room < left then room else left
          ⟨doc.id, part⟩ :: fillFrom (left - part) docs

def fillOldestFirst (docs : List OpenSettlementDocument) (amount : ℚ) : List SettlementAllocationInput :=
  fillFrom amount docs

def allocationTotal (parts : List SettlementAllocationInput) : ℚ :=
  (parts.map SettlementAllocationInput.amount).sum

/-- Why the form refuses parts. -/
inductive SettlementPartsProblem
  | tooManyParts
  | aboveAmount
  | aboveRemaining (refNumber : String)
  | draft (refNumber : String)

def SettlementPartsProblem.text (toPersianDigits : String → String) : SettlementPartsProblem → String
  | .tooManyParts =>
      "یک دریافت یا چک روی بیش از " ++ toPersianDigits (toString maxSettlementParts) ++ " سند نمی‌نشیند."
  | .aboveAmount => "جمع سهم سندها از مبلغ بیشتر است."
  | .aboveRemaining refNumber => "سهم سند «" ++ toPersianDigits refNumber ++ "» از مانده آن بیشتر است."
  | .draft refNumber =>
      "سند «" ++ toPersianDigits refNumber ++
        "» پیش‌نویس است؛ سهم آن می‌ماند یا کم می‌شود اما بیشتر نمی‌شود."

/-- Why a part is refused by its document. -/
def partProblem (docs : List OpenSettlementDocument) (part : SettlementAllocationInput) :
    Option SettlementPartsProblem :=
  (docs.find? fun d => d.id = part.documentId).bind fun doc =>
    if settlementRoom doc < part.amount then
      some (if isSettleableStatus doc.status then .aboveRemaining doc.refNumber else .draft doc.refNumber)
    else none

def settlementPartsProblem (parts : List SettlementAllocationInput) (amount : ℚ)
    (docs : List OpenSettlementDocument) : Option SettlementPartsProblem :=
  if maxSettlementParts < parts.length then some .tooManyParts
  else if amount < allocationTotal parts then some .aboveAmount
  else parts.findSome? (partProblem docs)

/-- The open documents of a party. -/
structure OpenDocuments where
  docs : List OpenSettlementDocument
  once : (docs.map OpenSettlementDocument.id).Nodup
  positive : ∀ doc ∈ docs, 0 < doc.id

/-! ## What the loop puts on the documents -/

/-- What a document takes of any amount. -/
def roomOf (doc : OpenSettlementDocument) : ℚ := max 0 (settlementRoom doc)

def roomsOf (docs : List OpenSettlementDocument) : ℚ := (docs.map roomOf).sum

/-- What parts put on a document. -/
def partOn (parts : List SettlementAllocationInput) (id : DocumentId) : ℚ :=
  FilteredSums.sumWhere (fun p => decide (p.documentId = id)) SettlementAllocationInput.amount parts

variable {docs : List OpenSettlementDocument} {left amount : ℚ}

theorem roomOf_nonneg (doc : OpenSettlementDocument) : 0 ≤ roomOf doc := le_max_left _ _

theorem roomsOf_nonneg (docs : List OpenSettlementDocument) : 0 ≤ roomsOf docs := by
  refine List.sum_nonneg fun x hx => ?_
  obtain ⟨doc, -, rfl⟩ := List.mem_map.mp hx
  exact roomOf_nonneg doc

theorem fillFrom_of_nonpos (h : left ≤ 0) : fillFrom left docs = [] := by
  cases docs with
  | nil => rfl
  | cons doc docs => rw [fillFrom, if_pos h]

theorem fillFrom_cons_of_full {doc : OpenSettlementDocument} (h : settlementRoom doc ≤ 0) :
    fillFrom left (doc :: docs) = fillFrom left docs := by
  by_cases spent : left ≤ 0
  · rw [fillFrom_of_nonpos spent, fillFrom_of_nonpos spent]
  · rw [fillFrom, if_neg spent]
    exact if_pos h

/-- A document with room takes the smaller of the room and the amount. -/
theorem fillFrom_cons_of_room {doc : OpenSettlementDocument} (hleft : 0 < left)
    (h : 0 < settlementRoom doc) :
    fillFrom left (doc :: docs) =
      ⟨doc.id, min (roomOf doc) left⟩ :: fillFrom (left - min (roomOf doc) left) docs := by
  have room : roomOf doc = settlementRoom doc := max_eq_right h.le
  have part : (if settlementRoom doc < left then settlementRoom doc else left) =
      min (settlementRoom doc) left := by
    split
    · exact (min_eq_left (le_of_lt ‹_›)).symm
    · exact (min_eq_right (not_lt.mp ‹_›)).symm
  rw [fillFrom, if_neg (not_le.mpr hleft)]
  dsimp only
  rw [if_neg (not_le.mpr h), part, room]

theorem allocationTotal_cons (part : SettlementAllocationInput) (parts : List SettlementAllocationInput) :
    allocationTotal (part :: parts) = part.amount + allocationTotal parts := rfl

/-- The documents take the whole amount, or are filled. -/
theorem allocationTotal_fillFrom (hleft : 0 ≤ left) :
    allocationTotal (fillFrom left docs) = min left (roomsOf docs) := by
  induction docs generalizing left with
  | nil => exact (min_eq_right hleft).symm
  | cons doc docs ih =>
    have rooms : roomsOf (doc :: docs) = roomOf doc + roomsOf docs := rfl
    have later := roomsOf_nonneg docs
    rcases hleft.eq_or_lt with rfl | positive
    · rw [fillFrom_of_nonpos le_rfl, min_eq_left (roomsOf_nonneg _)]
      rfl
    by_cases room : 0 < settlementRoom doc
    · rw [fillFrom_cons_of_room positive room, allocationTotal_cons,
        ih (sub_nonneg.mpr (min_le_right _ _)), rooms]
      rcases le_total (roomOf doc) left with small | large
      · rw [min_eq_left small, ← min_add_add_left, add_sub_cancel]
      · rw [min_eq_right large, sub_self, min_eq_left later, add_zero,
          min_eq_left (large.trans (le_add_of_nonneg_right later))]
    · have full : roomOf doc = 0 := max_eq_left (not_lt.mp room)
      rw [fillFrom_cons_of_full (not_lt.mp room), ih hleft, rooms, full, zero_add]

/-- Documents are filled in their order: the later ones share what the first ones leave. -/
theorem fillFrom_append (hleft : 0 ≤ left) (before after : List OpenSettlementDocument) :
    fillFrom left (before ++ after) =
      fillFrom left before ++ fillFrom (left - min left (roomsOf before)) after := by
  induction before generalizing left with
  | nil =>
    rw [List.nil_append, roomsOf, List.map_nil, List.sum_nil, min_eq_right hleft, sub_zero]
    rfl
  | cons doc before ih =>
    have rooms : roomsOf (doc :: before) = roomOf doc + roomsOf before := rfl
    have later := roomsOf_nonneg before
    rw [List.cons_append, rooms]
    rcases hleft.eq_or_lt with rfl | positive
    · rw [fillFrom_of_nonpos le_rfl, fillFrom_of_nonpos le_rfl, fillFrom_of_nonpos]
      · rfl
      · exact (sub_nonpos.mpr (le_min le_rfl (add_nonneg (roomOf_nonneg doc) later)))
    by_cases room : 0 < settlementRoom doc
    · have rest : left - min (roomOf doc) left - min (left - min (roomOf doc) left) (roomsOf before) =
          left - min left (roomOf doc + roomsOf before) := by
        rcases le_total (roomOf doc) left with small | large
        · rw [min_eq_left small, sub_sub, ← min_add_add_left, add_sub_cancel]
        · rw [min_eq_right large, sub_self, min_eq_left later, sub_zero,
            min_eq_left (large.trans (le_add_of_nonneg_right later)), sub_self]
      rw [fillFrom_cons_of_room positive room, fillFrom_cons_of_room positive room,
        ih (sub_nonneg.mpr (min_le_right _ _)), rest, List.cons_append]
    · have full : roomOf doc = 0 := max_eq_left (not_lt.mp room)
      rw [fillFrom_cons_of_full (not_lt.mp room), fillFrom_cons_of_full (not_lt.mp room), ih hleft, full,
        zero_add]

/-- Every part is on a document of the list, with room for it. -/
theorem of_mem_fillFrom {part : SettlementAllocationInput}
    (h : part ∈ fillFrom left docs) :
    ∃ doc ∈ docs, doc.id = part.documentId ∧ 0 < part.amount ∧ part.amount ≤ settlementRoom doc := by
  induction docs generalizing left with
  | nil => exact absurd h List.not_mem_nil
  | cons doc docs ih =>
    by_cases spent : left ≤ 0
    · rw [fillFrom_of_nonpos spent] at h
      exact absurd h List.not_mem_nil
    by_cases room : 0 < settlementRoom doc
    · rw [fillFrom_cons_of_room (not_le.mp spent) room] at h
      rcases List.mem_cons.mp h with rfl | h
      · have same : roomOf doc = settlementRoom doc := max_eq_right room.le
        refine ⟨doc, List.mem_cons_self, rfl, ?_, ?_⟩
        · exact lt_min (same ▸ room) (not_le.mp spent)
        · exact same ▸ min_le_left _ _
      · obtain ⟨other, member, rest⟩ := ih h
        exact ⟨other, List.mem_cons_of_mem _ member, rest⟩
    · rw [fillFrom_cons_of_full (not_lt.mp room)] at h
      obtain ⟨other, member, rest⟩ := ih h
      exact ⟨other, List.mem_cons_of_mem _ member, rest⟩

/-- The parts stand in the order of the documents. -/
theorem ids_fillFrom (left : ℚ) (docs : List OpenSettlementDocument) :
    ((fillFrom left docs).map SettlementAllocationInput.documentId).Sublist
      (docs.map OpenSettlementDocument.id) := by
  induction docs generalizing left with
  | nil => exact List.Sublist.refl _
  | cons doc docs ih =>
    by_cases spent : left ≤ 0
    · rw [fillFrom_of_nonpos spent]
      exact List.nil_sublist _
    by_cases room : 0 < settlementRoom doc
    · rw [fillFrom_cons_of_room (not_le.mp spent) room]
      exact (ih _).cons_cons _
    · rw [fillFrom_cons_of_full (not_lt.mp room)]
      exact (ih _).cons _

theorem partOn_of_not_mem {parts : List SettlementAllocationInput} {id : DocumentId}
    (h : id ∉ parts.map SettlementAllocationInput.documentId) : partOn parts id = 0 :=
  FilteredSums.sumWhere_eq_zero fun part member =>
    decide_eq_false fun same => h (same ▸ List.mem_map_of_mem member)

/-- What a document is given: what the ones before it leave, up to its room. -/
theorem partOn_fillFrom (hleft : 0 ≤ left) {before after : List OpenSettlementDocument}
    {doc : OpenSettlementDocument}
    (once : ((before ++ doc :: after).map OpenSettlementDocument.id).Nodup) :
    partOn (fillFrom left (before ++ doc :: after)) doc.id =
      min (roomOf doc) (left - min left (roomsOf before)) := by
  have remains : 0 ≤ left - min left (roomsOf before) := sub_nonneg.mpr (min_le_left _ _)
  rw [List.map_append, List.map_cons, List.nodup_append, List.nodup_cons] at once
  obtain ⟨-, ⟨not_later, -⟩, apart⟩ := once
  have none_before : partOn (fillFrom left before) doc.id = 0 :=
    partOn_of_not_mem fun here =>
      apart _ ((ids_fillFrom left before).subset here) _ List.mem_cons_self rfl
  have none_after : ∀ rest, partOn (fillFrom rest after) doc.id = 0 :=
    fun rest => partOn_of_not_mem fun here => not_later ((ids_fillFrom rest after).subset here)
  rw [fillFrom_append hleft, partOn, FilteredSums.sumWhere_append]
  change partOn (fillFrom left before) doc.id + partOn _ doc.id = _
  rw [none_before, zero_add]
  rcases remains.eq_or_lt with nothing | positive
  · rw [← nothing, fillFrom_of_nonpos le_rfl, min_eq_right (roomOf_nonneg doc)]
    rfl
  by_cases room : 0 < settlementRoom doc
  · rw [fillFrom_cons_of_room positive room, partOn, FilteredSums.sumWhere_cons]
    change (if decide (doc.id = doc.id) then _ else 0) + partOn _ doc.id = _
    rw [none_after, add_zero, decide_eq_true rfl, if_pos rfl]
  · have full : roomOf doc = 0 := max_eq_left (not_lt.mp room)
    rw [fillFrom_cons_of_full (not_lt.mp room), none_after, full, min_eq_left remains]

/-! ## What the form and the server make of the parts -/

/-- No document of the list refuses its part. -/
theorem partProblem_fillFrom (list : OpenDocuments) {part : SettlementAllocationInput}
    (h : part ∈ fillFrom left list.docs) : partProblem list.docs part = none := by
  obtain ⟨doc, member, same, -, within⟩ := of_mem_fillFrom h
  unfold partProblem
  cases found : list.docs.find? fun d => d.id = part.documentId with
  | none => rfl
  | some other =>
    have holds := List.find?_some found
    have one : other = doc := List.inj_on_of_nodup_map list.once (List.mem_of_find?_eq_some found) member
      ((of_decide_eq_true holds).trans same.symm)
    rw [Option.bind_some, one, if_neg (not_lt.mpr within)]

theorem settlementPartsProblem_fillOldestFirst (list : OpenDocuments) (amount : ℚ) :
    settlementPartsProblem (fillOldestFirst list.docs amount) amount list.docs = none ↔
      (fillOldestFirst list.docs amount).length ≤ maxSettlementParts ∧
        allocationTotal (fillOldestFirst list.docs amount) ≤ amount := by
  have accepted : (fillOldestFirst list.docs amount).findSome? (partProblem list.docs) = none :=
    List.findSome?_eq_none_iff.mpr fun part member => partProblem_fillFrom list member
  unfold settlementPartsProblem
  split_ifs with many beyond
  · simp [not_le.mpr many]
  · simp [not_le.mpr beyond]
  · simp [accepted, not_lt.mp many, not_lt.mp beyond]

theorem normalizeAllocations_fillOldestFirst (list : OpenDocuments) (amount : ℚ) :
    (∃ sorted, normalizeAllocations (fillOldestFirst list.docs amount) amount = .ok sorted) ↔
      (fillOldestFirst list.docs amount).length ≤ maxSettlementParts ∧
        allocationTotal (fillOldestFirst list.docs amount) ≤ amount := by
  have ids : ∀ p ∈ fillOldestFirst list.docs amount, 0 < p.documentId := by
    intro part member
    obtain ⟨doc, listed, same, -⟩ := of_mem_fillFrom member
    exact same ▸ list.positive doc listed
  have once : ((fillOldestFirst list.docs amount).map SettlementAllocationInput.documentId).Nodup :=
    (ids_fillFrom amount list.docs).nodup list.once
  have amounts : ∀ p ∈ fillOldestFirst list.docs amount, 0 < p.amount := by
    intro part member
    obtain ⟨doc, -, -, positive, -⟩ := of_mem_fillFrom member
    exact positive
  unfold normalizeAllocations
  simp only [Transition.bind_eq_ok, Transition.ensure_eq_ok, Transition.pure_eq_ok]
  constructor
  · rintro ⟨-, -, few, -, -, -, -, -, -, -, within, -⟩
    exact ⟨few, within⟩
  · rintro ⟨few, within⟩
    exact ⟨_, (), few, (), ids, (), once, (), amounts, (), within, rfl⟩

theorem allocationTotal_fillOldestFirst_le_iff (docs : List OpenSettlementDocument) (amount : ℚ) :
    allocationTotal (fillOldestFirst docs amount) ≤ amount ↔ 0 ≤ amount := by
  by_cases paid : 0 ≤ amount
  · have total : allocationTotal (fillOldestFirst docs amount) = min amount (roomsOf docs) :=
      allocationTotal_fillFrom paid
    rw [total]
    exact iff_of_true (min_le_left _ _) paid
  · have none_made : fillOldestFirst docs amount = [] := fillFrom_of_nonpos (le_of_not_ge paid)
    rw [none_made]
    exact Iff.rfl

/-- A document is filled once the rooms of all are no more than the amount. -/
theorem partOn_of_filled (list : OpenDocuments) (paid : 0 ≤ amount) (enough : roomsOf list.docs ≤ amount)
    {doc : OpenSettlementDocument} (member : doc ∈ list.docs) :
    partOn (fillOldestFirst list.docs amount) doc.id = roomOf doc := by
  obtain ⟨before, after, split⟩ := List.append_of_mem member
  have rooms : roomsOf list.docs = roomsOf before + (roomOf doc + roomsOf after) := by
    rw [split, roomsOf, List.map_append, List.sum_append]
    rfl
  have later := roomsOf_nonneg after
  have first := roomOf_nonneg doc
  have part := partOn_fillFrom paid (split ▸ list.once)
  rw [← split, min_eq_right (by linarith : roomsOf before ≤ amount), min_eq_left (by linarith)] at part
  exact part

/-- The default split of any amount over the open documents of a party: what every document
gets, and when the form and the server take it. -/
theorem default_split (list : OpenDocuments) (amount : ℚ) :
    let parts := fillOldestFirst list.docs amount
    (∀ part ∈ parts, ∃ doc ∈ list.docs,
      doc.id = part.documentId ∧ 0 < part.amount ∧ part.amount ≤ settlementRoom doc) ∧
    (parts.map SettlementAllocationInput.documentId).Sublist (list.docs.map OpenSettlementDocument.id) ∧
    (∀ before doc after, list.docs = before ++ doc :: after →
      partOn parts doc.id = min (roomOf doc) (max 0 amount - min (max 0 amount) (roomsOf before))) ∧
    (0 ≤ amount → allocationTotal parts ≤ amount ∧
      (allocationTotal parts = amount ∨ ∀ doc ∈ list.docs, partOn parts doc.id = roomOf doc)) ∧
    ((settlementPartsProblem parts amount list.docs = none ∧
        ∃ sorted, normalizeAllocations parts amount = .ok sorted) ↔
      0 ≤ amount ∧ parts.length ≤ maxSettlementParts) := by
  intro parts
  refine ⟨fun part member => of_mem_fillFrom member, ids_fillFrom amount list.docs,
    fun before doc after split => ?_, fun paid => ⟨?_, ?_⟩, ?_⟩
  · have clipped : parts = fillFrom (max 0 amount) list.docs := by
      rcases le_total 0 amount with paid | nothing
      · rw [max_eq_right paid]
        rfl
      · rw [max_eq_left nothing, fillFrom_of_nonpos le_rfl]
        exact fillFrom_of_nonpos nothing
    rw [clipped, split]
    exact partOn_fillFrom (le_max_left _ _) (split ▸ list.once)
  · exact (allocationTotal_fillOldestFirst_le_iff list.docs amount).mpr paid
  · have total : allocationTotal parts = min amount (roomsOf list.docs) := allocationTotal_fillFrom paid
    rcases le_total amount (roomsOf list.docs) with spent | filled
    · exact .inl (total.trans (min_eq_left spent))
    · exact .inr fun doc member => partOn_of_filled list paid filled member
  · rw [settlementPartsProblem_fillOldestFirst, normalizeAllocations_fillOldestFirst, and_self,
      allocationTotal_fillOldestFirst_le_iff, and_comm]

/-- Open documents with one rial each. -/
def rialDocuments (count : ℕ) : List OpenSettlementDocument :=
  (List.range count).map fun i => {
    id := i + 1
    refNumber := ""
    status := some .final
    remaining := 1
    allocatedHere := 0 }

/-- Fifty-one documents and the amount that settles them: the default makes fifty-one parts. -/
theorem default_split_refused :
    settlementPartsProblem (fillOldestFirst (rialDocuments 51) 51) 51 (rialDocuments 51) =
        some .tooManyParts ∧
      ¬∃ sorted, normalizeAllocations (fillOldestFirst (rialDocuments 51) 51) 51 = .ok sorted := by
  have many : (fillOldestFirst (rialDocuments 51) 51).length = 51 := by decide +kernel
  refine ⟨?_, ?_⟩
  · unfold settlementPartsProblem
    rw [many]
    rfl
  · rintro ⟨sorted, accepted⟩
    unfold normalizeAllocations at accepted
    simp only [Transition.bind_eq_ok, Transition.ensure_eq_ok, many] at accepted
    obtain ⟨-, few, -⟩ := accepted
    exact absurd few (by decide)

end PapitalErp
