import PapitalErp.Lib.ClosedSubsets

/-!
# Taking back old openings

Before the history of a year is entered again, the openings of items are taken back.
`classify` tells which can be: an item is refused for a reason of its own, and then items
are refused because a voucher that they share holds an item that stays, over and over until
nothing changes. What is left is the largest set of items that no voucher joins to another.

The closed fiscal years and the way numbers and days are written are parameters. The link
rows come in any order.
-/

namespace PapitalErp.OpeningReplay

open ClosedSubsets

/-- How reasons write numbers and days (`toPersianDigits`, `faDate`). -/
structure Wording where
  toPersianDigits : String → String
  faDate : String → String

structure OpeningVoucher where
  id : ℕ
  number : String
  status : String

structure OpeningRow where
  itemId : ℕ
  code : String
  name : String
  unit : Option String
  quantity : ℚ
  value : ℚ
  day : String
  lastDay : String
  moved : Bool
  onDocument : Bool
  inWorkflow : Bool
  vouchers : List OpeningVoucher

/-- The rows of the query, one for each item. -/
structure OpeningRows where
  rows : List OpeningRow
  once : (rows.map OpeningRow.itemId).Nodup

structure OldOpeningItem where
  itemId : ℕ
  code : String
  name : String
  unit : String
  quantity : ℚ
  value : ℚ
  day : String
  vouchers : List OpeningVoucher
  withdrawable : Bool
  reason : Option String

/-- A row of `item_opening_voucher_items`. -/
structure VoucherLink where
  voucherId : ℕ
  itemId : ℕ

section

variable (wording : Wording) (isClosed : String → Bool)

/-- The refusal of an item by itself. -/
def ownRefusal (r : OpeningRow) : Option String :=
  if r.moved || r.onDocument then
    some "این کالا گردش یا سند دیگری هم دارد؛ موجودی اولیه‌اش برداشته نمی‌شود."
  else if r.vouchers = [] ∧ r.inWorkflow then
    some "تعریف این کالا هنوز در گردش کار است؛ اول آن را تأیید یا رد کنید."
  else if r.vouchers.any fun v => v.status ≠ "draft" then
    let numbers := (r.vouchers.filter fun v => v.status ≠ "draft").map OpeningVoucher.number
    some ("سند افتتاحیهٔ " ++ wording.toPersianDigits ("، ".intercalate numbers) ++
      " تأیید شده است؛ اول آن را به پیش‌نویس برگردانید.")
  else if isClosed r.day || isClosed r.lastDay then
    some ("موجودی اولیهٔ این کالا (" ++ wording.faDate r.day ++ ") در سال مالی بسته است.")
  else none

def openingItem (r : OpeningRow) : OldOpeningItem where
  itemId := r.itemId
  code := r.code
  name := r.name
  unit := r.unit.getD ""
  quantity := r.quantity
  value := r.value
  day := r.day
  vouchers := r.vouchers
  withdrawable := (ownRefusal wording isClosed r).isNone
  reason := ownRefusal wording isClosed r

end

/-! ## The items of the vouchers -/

/-- A link in the map of vouchers, which keeps the order of insertion. -/
def addLink : List (ℕ × List ℕ) → VoucherLink → List (ℕ × List ℕ)
  | [], link => [(link.voucherId, [link.itemId])]
  | (voucherId, ids) :: rest, link =>
      if voucherId = link.voucherId then (voucherId, ids ++ [link.itemId]) :: rest
      else (voucherId, ids) :: addLink rest link

def voucherItems (links : List VoucherLink) (voucherIds : List ℕ) : List (ℕ × List ℕ) :=
  (links.filter fun l => l.voucherId ∈ voucherIds).foldl addLink []

/-! ## The loop -/

def byId (list : List OldOpeningItem) (id : ℕ) : Option OldOpeningItem :=
  list.find? fun i => i.itemId = id

section

variable (wording : Wording)

/-- Why a voucher keeps an item. -/
def sharedReason (voucherId : ℕ) (blocker : Option OldOpeningItem) (missing : ℕ) (i : OldOpeningItem) :
    String :=
  let number := wording.toPersianDigits
    (((i.vouchers.find? fun v => v.id = voucherId).map OpeningVoucher.number).getD (toString voucherId))
  match blocker with
  | some b => "سند افتتاحیهٔ " ++ number ++ " کالای «" ++ b.name ++
      "» را هم دارد که موجودی‌اش برداشته نمی‌شود."
  | none => "سند افتتاحیهٔ " ++ number ++ " " ++ wording.toPersianDigits (toString missing) ++
      " کالای دیگر هم دارد که انتخاب نشده‌اند؛ همهٔ کالاهای یک سند با هم برداشته می‌شوند."

/-- An item of a voucher is refused; the flag says whether anything changed. -/
def refuseItem (reason : OldOpeningItem → String) (s : List OldOpeningItem × Bool) (id : ℕ) :
    List OldOpeningItem × Bool :=
  match byId s.1 id with
  | some i =>
      if i.withdrawable then
        (s.1.map fun j =>
          if j.itemId = id then
            { j with
              withdrawable := false
              reason := some (reason i) }
          else j, true)
      else s
  | none => s

/-- One voucher. -/
def passVoucher (s : List OldOpeningItem × Bool) (voucher : ℕ × List ℕ) : List OldOpeningItem × Bool :=
  let blocker := (voucher.2.filterMap (byId s.1)).find? fun i => !i.withdrawable
  let missing := voucher.2.filter fun id => (byId s.1 id).isNone
  if blocker.isNone ∧ missing = [] then s
  else voucher.2.foldl (refuseItem (sharedReason wording voucher.1 blocker missing.length)) s

/-- One pass over the vouchers. -/
def passVouchers (shared : List (ℕ × List ℕ)) (list : List OldOpeningItem) : List OldOpeningItem × Bool :=
  shared.foldl (passVoucher wording) (list, false)

/-- The passes, as many as there is fuel for. -/
def passesUntilStable (shared : List (ℕ × List ℕ)) : ℕ → List OldOpeningItem → Option (List OldOpeningItem)
  | 0, _ => none
  | fuel + 1, list =>
      let after := passVouchers wording shared list
      if after.2 then passesUntilStable shared fuel after.1 else some after.1

def classify (isClosed : String → Bool) (links : List VoucherLink) (fuel : ℕ) (rows : OpeningRows) :
    Option (List OldOpeningItem) :=
  let list := rows.rows.map (openingItem wording isClosed)
  let voucherIds := (list.flatMap fun i => i.vouchers.map OpeningVoucher.id).eraseDups
  passesUntilStable wording (voucherItems links voucherIds) fuel list

end

/-! ## What is withdrawable -/

/-- The items that a list calls withdrawable. -/
def withdrawable (list : List OldOpeningItem) : Set ℕ :=
  { id | ∃ i ∈ list, i.itemId = id ∧ i.withdrawable = true }

variable {wording : Wording} {list : List OldOpeningItem}

/-- Each item once. -/
def Once (list : List OldOpeningItem) : Prop := (list.map OldOpeningItem.itemId).Nodup

theorem byId_of_mem (once : Once list) {i : OldOpeningItem} (member : i ∈ list) :
    byId list i.itemId = some i := by
  unfold byId
  cases found : list.find? fun j => j.itemId = i.itemId with
  | none => exact absurd (List.find?_eq_none.mp found i member) (by simp)
  | some j =>
    have holds := List.find?_some found
    rw [List.inj_on_of_nodup_map once (List.mem_of_find?_eq_some found) member (of_decide_eq_true holds)]

theorem mem_of_byId {id : ℕ} {i : OldOpeningItem} (h : byId list id = some i) :
    i ∈ list ∧ i.itemId = id := by
  have holds := List.find?_some h
  exact ⟨List.mem_of_find?_eq_some h, of_decide_eq_true holds⟩

theorem mem_withdrawable_iff (once : Once list) {id : ℕ} :
    id ∈ withdrawable list ↔ ∃ i, byId list id = some i ∧ i.withdrawable = true := by
  refine ⟨?_, ?_⟩
  · rintro ⟨i, member, rfl, flag⟩
    exact ⟨i, byId_of_mem once member, flag⟩
  · rintro ⟨i, found, flag⟩
    obtain ⟨member, same⟩ := mem_of_byId found
    exact ⟨i, member, same, flag⟩

/-! ## One item -/

variable {reason : OldOpeningItem → String} {s : List OldOpeningItem × Bool}

theorem ids_refuseItem (reason : OldOpeningItem → String) (s : List OldOpeningItem × Bool) (id : ℕ) :
    (refuseItem reason s id).1.map OldOpeningItem.itemId = s.1.map OldOpeningItem.itemId := by
  unfold refuseItem
  split
  · split_ifs
    · rw [List.map_map]
      refine List.map_congr_left fun j _ => ?_
      rw [Function.comp_apply]
      split <;> rfl
    · rfl
  · rfl

/-- An item is taken out, and the flag says whether it was in. -/
theorem withdrawable_refuseItem (once : Once s.1) (id : ℕ) :
    withdrawable (refuseItem reason s id).1 = withdrawable s.1 \ {id} ∧
      ((refuseItem reason s id).2 = true ↔ s.2 = true ∨ id ∈ withdrawable s.1) := by
  by_cases inside : id ∈ withdrawable s.1
  · obtain ⟨i, found, flag⟩ := (mem_withdrawable_iff once).mp inside
    unfold refuseItem
    rw [found]
    dsimp only
    rw [if_pos flag]
    refine ⟨?_, by simp [inside]⟩
    ext a
    constructor
    · rintro ⟨j, listed, rfl, still⟩
      obtain ⟨k, member, rfl⟩ := List.mem_map.mp listed
      split_ifs at still ⊢ with same
      exact ⟨⟨k, member, rfl, still⟩, same⟩
    · rintro ⟨⟨k, member, rfl, still⟩, other⟩
      exact ⟨k, List.mem_map.mpr ⟨k, member, if_neg other⟩, rfl, still⟩
  · have same : refuseItem reason s id = s := by
      unfold refuseItem
      split
      · rename_i i found
        rw [if_neg fun flag => inside ((mem_withdrawable_iff once).mpr ⟨i, found, flag⟩)]
      · rfl
    rw [same, Set.sdiff_singleton_eq_self inside]
    exact ⟨rfl, by simp [inside]⟩

theorem ids_refuseItems (reason : OldOpeningItem → String) (s : List OldOpeningItem × Bool) (ids : List ℕ) :
    (ids.foldl (refuseItem reason) s).1.map OldOpeningItem.itemId = s.1.map OldOpeningItem.itemId := by
  induction ids generalizing s with
  | nil => rfl
  | cons id ids ih => rw [List.foldl_cons, ih, ids_refuseItem]

theorem withdrawable_refuseItems (once : Once s.1) (ids : List ℕ) :
    withdrawable (ids.foldl (refuseItem reason) s).1 = withdrawable s.1 \ { id | id ∈ ids } ∧
      ((ids.foldl (refuseItem reason) s).2 = true ↔
        s.2 = true ∨ ∃ id ∈ ids, id ∈ withdrawable s.1) := by
  induction ids generalizing s with
  | nil => simp
  | cons id ids ih =>
    have head : withdrawable (refuseItem reason s id).1 = withdrawable s.1 \ {id} ∧
        ((refuseItem reason s id).2 = true ↔ s.2 = true ∨ id ∈ withdrawable s.1) :=
      withdrawable_refuseItem once id
    obtain ⟨first, first_flag⟩ := head
    have once' : Once (refuseItem reason s id).1 := by
      unfold Once
      rw [ids_refuseItem]
      exact once
    obtain ⟨later, later_flag⟩ := ih once'
    rw [List.foldl_cons]
    refine ⟨?_, ?_⟩
    · rw [later, first, Set.sdiff_sdiff]
      congr 1
      ext a
      simp
    · rw [later_flag, first_flag, first]
      constructor
      · rintro ((old | here) | ⟨a, member, inside⟩)
        · exact .inl old
        · exact .inr ⟨id, List.mem_cons_self, here⟩
        · exact .inr ⟨a, List.mem_cons_of_mem _ member, inside.1⟩
      · rintro (old | ⟨a, member, inside⟩)
        · exact .inl (.inl old)
        · by_cases same : a = id
          · exact .inl (.inr (same ▸ inside))
          · exact .inr ⟨a, (List.mem_cons.mp member).resolve_left same, inside, same⟩

/-! ## One voucher -/

/-- The items of a voucher in the list of vouchers. -/
def groupOf (shared : List (ℕ × List ℕ)) (voucher : { v // v ∈ shared }) : Set ℕ :=
  { id | id ∈ voucher.1.2 }

/-- A voucher keeps its items when it holds one that is not withdrawable or not there. -/
theorem kept_iff (once : Once list) (ids : List ℕ) :
    (((ids.filterMap (byId list)).find? fun i => !i.withdrawable).isNone ∧
        (ids.filter fun id => (byId list id).isNone) = []) ↔
      ∀ id ∈ ids, id ∈ withdrawable list := by
  simp only [Option.isNone_iff_eq_none, List.find?_eq_none, List.filter_eq_nil_iff, List.mem_filterMap,
    mem_withdrawable_iff once]
  constructor
  · rintro ⟨free, present⟩ id member
    cases found : byId list id with
    | none => exact absurd found (present id member)
    | some i =>
      have flag := free i ⟨id, member, found⟩
      exact ⟨i, rfl, by simpa using flag⟩
  · intro all
    refine ⟨?_, fun id member missing => ?_⟩
    · rintro i ⟨id, member, found⟩
      obtain ⟨j, same, flag⟩ := all id member
      rw [found] at same
      rw [Option.some.inj same, flag]
      simp
    · obtain ⟨j, found, -⟩ := all id member
      exact Option.some_ne_none j (found.symm.trans missing)

theorem ids_passVoucher (s : List OldOpeningItem × Bool) (voucher : ℕ × List ℕ) :
    (passVoucher wording s voucher).1.map OldOpeningItem.itemId = s.1.map OldOpeningItem.itemId := by
  unfold passVoucher
  dsimp only
  split
  · rfl
  · exact ids_refuseItems _ _ _

theorem Once.passVoucher (once : Once s.1) (voucher : ℕ × List ℕ) :
    Once (passVoucher wording s voucher).1 := by
  unfold Once
  rw [ids_passVoucher]
  exact once

/-- What one voucher does: nothing when all its items are withdrawable, otherwise all of
them are taken out. -/
theorem withdrawable_passVoucher (wording : Wording) (once : Once s.1) (voucher : ℕ × List ℕ) :
    (∀ id ∈ voucher.2, id ∈ withdrawable s.1) ∧ passVoucher wording s voucher = s ∨
      (¬∀ id ∈ voucher.2, id ∈ withdrawable s.1) ∧
        withdrawable (passVoucher wording s voucher).1 = withdrawable s.1 \ { id | id ∈ voucher.2 } ∧
        ((passVoucher wording s voucher).2 = true ↔
          s.2 = true ∨ ∃ id ∈ voucher.2, id ∈ withdrawable s.1) := by
  have kept := kept_iff once voucher.2
  by_cases all : ∀ id ∈ voucher.2, id ∈ withdrawable s.1
  · refine .inl ⟨all, ?_⟩
    unfold passVoucher
    dsimp only
    rw [if_pos (kept.mpr all)]
  · refine .inr ⟨all, ?_⟩
    unfold passVoucher
    dsimp only
    rw [if_neg fun free => all (kept.mp free)]
    exact withdrawable_refuseItems once voucher.2

/-! ## One pass -/

/-- What a pass over some of the vouchers does. -/
structure Passed (shared vouchers : List (ℕ × List ℕ)) (s t : List OldOpeningItem × Bool) : Prop where
  ids : t.1.map OldOpeningItem.itemId = s.1.map OldOpeningItem.itemId
  demotion : Demotion (groupOf shared) (withdrawable s.1) (withdrawable t.1)
  unchanged : t.2 = false → s.2 = false ∧ withdrawable t.1 = withdrawable s.1 ∧
    ∀ v ∈ vouchers, ∀ a ∈ v.2, a ∈ withdrawable s.1 → ∀ b ∈ v.2, b ∈ withdrawable s.1
  changed : t.2 = true → s.2 = true ∨ withdrawable t.1 ⊂ withdrawable s.1

theorem passed_voucher (wording : Wording) {shared : List (ℕ × List ℕ)} {voucher : ℕ × List ℕ}
    (member : voucher ∈ shared) (once : Once s.1) :
    Passed shared [voucher] s (passVoucher wording s voucher) := by
  rcases withdrawable_passVoucher wording once voucher with ⟨all, same⟩ | ⟨some_out, taken, flag_iff⟩
  · rw [same]
    refine ⟨rfl, .refl, fun flag => ⟨flag, rfl, fun v hv a _ _ b hb => ?_⟩, .inl⟩
    rw [List.mem_singleton.mp hv] at hb
    exact all b hb
  · refine ⟨ids_passVoucher s voucher, .single ⟨taken ▸ Set.sdiff_subset, fun a inside out => ?_⟩,
      fun flag => ?_, fun flag => ?_⟩
    · have here : a ∈ voucher.2 := by
        by_contra away
        exact out (taken ▸ ⟨inside, away⟩)
      exact ⟨⟨voucher, member⟩, here, fun whole => some_out fun id hid => whole hid⟩
    · rw [← Bool.not_eq_true, flag_iff] at flag
      obtain ⟨old, nothing⟩ := not_or.mp flag
      have apart : ∀ id ∈ voucher.2, id ∉ withdrawable s.1 := fun id hid inside => nothing ⟨id, hid, inside⟩
      refine ⟨Bool.eq_false_iff.mpr old, ?_, fun v hv a ha inside => ?_⟩
      · rw [taken]
        exact sdiff_eq_left.mpr (Set.disjoint_left.mpr fun id inside here => apart id here inside)
      · rw [List.mem_singleton.mp hv] at ha
        exact absurd inside (apart a ha)
    · refine (flag_iff.mp flag).imp_right ?_
      rintro ⟨a, here, inside⟩
      rw [taken]
      exact ⟨Set.sdiff_subset, fun back => (back inside).2 here⟩

theorem Passed.trans {shared vouchers vouchers' : List (ℕ × List ℕ)} {t u : List OldOpeningItem × Bool}
    (first : Passed shared vouchers s t) (later : Passed shared vouchers' t u) :
    Passed shared (vouchers ++ vouchers') s u := by
  refine ⟨later.ids.trans first.ids, first.demotion.trans later.demotion, fun flag => ?_, fun flag => ?_⟩
  · obtain ⟨middle, same', closed'⟩ := later.unchanged flag
    obtain ⟨start, same, closed⟩ := first.unchanged middle
    refine ⟨start, same'.trans same, fun v hv => ?_⟩
    rcases List.mem_append.mp hv with hv | hv
    · exact closed v hv
    · rw [← same]
      exact closed' v hv
  · rcases later.changed flag with middle | fewer
    · refine (first.changed middle).imp_right fun less => ?_
      exact lt_of_le_of_lt later.demotion.subset less
    · exact .inr (lt_of_lt_of_le fewer first.demotion.subset)

theorem passed_vouchers (wording : Wording) {shared vouchers : List (ℕ × List ℕ)}
    (inside : ∀ v ∈ vouchers, v ∈ shared) (once : Once s.1) :
    Passed shared vouchers s (vouchers.foldl (passVoucher wording) s) := by
  induction vouchers generalizing s with
  | nil => exact ⟨rfl, .refl, fun flag => ⟨flag, rfl, by simp⟩, .inl⟩
  | cons voucher vouchers ih =>
    have first := passed_voucher wording (inside voucher List.mem_cons_self) once
    have once' : Once (passVoucher wording s voucher).1 := by
      unfold Once
      rw [first.ids]
      exact once
    exact first.trans (ih (fun v hv => inside v (List.mem_cons_of_mem _ hv)) once')

/-! ## All passes -/

theorem withdrawable_subset (list : List OldOpeningItem) :
    withdrawable list ⊆ { id | id ∈ list.map OldOpeningItem.itemId } := by
  rintro id ⟨i, member, same, -⟩
  exact same ▸ List.mem_map_of_mem member

theorem finite_withdrawable (list : List OldOpeningItem) : (withdrawable list).Finite :=
  (List.finite_toSet _).subset (withdrawable_subset list)

theorem ncard_withdrawable_le (list : List OldOpeningItem) : (withdrawable list).ncard ≤ list.length := by
  have cover : withdrawable list ⊆ ((list.map OldOpeningItem.itemId).toFinset : Set ℕ) := by
    intro id member
    simpa using withdrawable_subset list member
  refine (Set.ncard_le_ncard cover (Finset.finite_toSet _)).trans ?_
  rw [Set.ncard_coe_finset]
  exact (List.toFinset_card_le _).trans (List.length_map _).le

/-- Every pass that changes something leaves fewer withdrawable items, and one that changes
nothing finds them closed. -/
theorem passes_end (wording : Wording) (shared : List (ℕ × List ℕ)) {fuel : ℕ} (once : Once list)
    (enough : (withdrawable list).ncard < fuel) :
    ∃ result, passesUntilStable wording shared fuel list = some result ∧
      result.map OldOpeningItem.itemId = list.map OldOpeningItem.itemId ∧
      Demotion (groupOf shared) (withdrawable list) (withdrawable result) ∧
      Closed (groupOf shared) (withdrawable result) := by
  induction fuel generalizing list with
  | zero => exact absurd enough (Nat.not_lt_zero _)
  | succ fuel ih =>
    have once' : Once (list, false).1 := once
    have pass := passed_vouchers wording (fun v (hv : v ∈ shared) => hv) once'
    have after : passVouchers wording shared list = shared.foldl (passVoucher wording) (list, false) := rfl
    rw [passesUntilStable, after]
    cases flag : (shared.foldl (passVoucher wording) (list, false)).2 with
    | false =>
      obtain ⟨-, same, closed⟩ := pass.unchanged flag
      refine ⟨_, rfl, pass.ids, pass.demotion, fun v a ha inside b hb => ?_⟩
      rw [same] at inside ⊢
      exact closed v.1 v.2 a ha inside b hb
    | true =>
      have fewer := (pass.changed flag).resolve_left Bool.false_ne_true
      have less := Set.ncard_lt_ncard fewer (finite_withdrawable list)
      have once'' : Once (shared.foldl (passVoucher wording) (list, false)).1 := by
        unfold Once
        rw [pass.ids]
        exact once
      obtain ⟨result, found, ids, demotion, closed⟩ := ih once'' (less.trans_le (Nat.lt_succ_iff.mp enough))
      exact ⟨result, found, ids.trans pass.ids, pass.demotion.trans demotion, closed⟩

theorem passesUntilStable_mono {shared : List (ℕ × List ℕ)} {fuel fuel' : ℕ} (more : fuel ≤ fuel')
    {result : List OldOpeningItem} (h : passesUntilStable wording shared fuel list = some result) :
    passesUntilStable wording shared fuel' list = some result := by
  induction fuel generalizing list fuel' with
  | zero => exact absurd h.symm (Option.some_ne_none result)
  | succ fuel ih =>
    obtain ⟨extra, rfl⟩ := Nat.exists_eq_succ_of_ne_zero (Nat.ne_zero_of_lt more)
    rw [passesUntilStable] at h ⊢
    split_ifs at h ⊢
    · exact ih (Nat.succ_le_succ_iff.mp more) h
    · exact h

/-! ## The links of the vouchers -/

/-- A map of vouchers holds a link. -/
def Holds (vouchers : List (ℕ × List ℕ)) (link : VoucherLink) : Prop :=
  ∃ v ∈ vouchers, v.1 = link.voucherId ∧ link.itemId ∈ v.2

theorem holds_addLink {vouchers : List (ℕ × List ℕ)} {link other : VoucherLink} :
    Holds (addLink vouchers link) other ↔ Holds vouchers other ∨ other = link := by
  induction vouchers with
  | nil =>
    obtain ⟨v, i⟩ := link
    obtain ⟨w, j⟩ := other
    simp [Holds, addLink, eq_comm]
  | cons v rest ih =>
    obtain ⟨voucherId, ids⟩ := v
    have head : ∀ (ids : List ℕ) (l : List (ℕ × List ℕ)), Holds ((voucherId, ids) :: l) other ↔
        (voucherId = other.voucherId ∧ other.itemId ∈ ids) ∨ Holds l other := by
      intro ids l
      simp [Holds]
    rw [addLink]
    split_ifs with same
    · subst same
      rw [head, head, List.mem_append, List.mem_singleton]
      constructor
      · rintro (⟨here, old | new⟩ | later)
        · exact .inl (.inl ⟨here, old⟩)
        · refine .inr ?_
          obtain ⟨w, j⟩ := other
          obtain rfl : link.voucherId = w := here
          obtain rfl : j = link.itemId := new
          rfl
        · exact .inl (.inr later)
      · rintro ((⟨here, old⟩ | later) | rfl)
        · exact .inl ⟨here, .inl old⟩
        · exact .inr later
        · exact .inl ⟨rfl, .inr rfl⟩
    · rw [head, head, ih, or_assoc]

theorem keys_addLink (vouchers : List (ℕ × List ℕ)) (link : VoucherLink) :
    (addLink vouchers link).map Prod.fst =
      if link.voucherId ∈ vouchers.map Prod.fst then vouchers.map Prod.fst
      else vouchers.map Prod.fst ++ [link.voucherId] := by
  induction vouchers with
  | nil => simp [addLink]
  | cons v rest ih =>
    obtain ⟨voucherId, ids⟩ := v
    rw [addLink]
    by_cases same : voucherId = link.voucherId
    · simp [same]
    · rw [if_neg same, List.map_cons, List.map_cons, ih]
      have other : link.voucherId ≠ voucherId := fun h => same h.symm
      by_cases later : link.voucherId ∈ rest.map Prod.fst
      · rw [if_pos later, if_pos (List.mem_cons_of_mem _ later)]
      · rw [if_neg later, if_neg (by simpa [other] using later), List.cons_append]

theorem holds_foldl_addLink (links : List VoucherLink) {vouchers : List (ℕ × List ℕ)}
    (once : (vouchers.map Prod.fst).Nodup) :
    ((links.foldl addLink vouchers).map Prod.fst).Nodup ∧
      ∀ other, Holds (links.foldl addLink vouchers) other ↔ Holds vouchers other ∨ other ∈ links := by
  induction links generalizing vouchers with
  | nil => exact ⟨once, fun other => by simp⟩
  | cons link links ih =>
    have once' : ((addLink vouchers link).map Prod.fst).Nodup := by
      rw [keys_addLink]
      split_ifs with known
      · exact once
      · exact List.nodup_append.mpr ⟨once, List.nodup_singleton _, fun a ha b hb same =>
          known (List.mem_singleton.mp hb ▸ same ▸ ha)⟩
    obtain ⟨keys, holds⟩ := ih once'
    refine ⟨keys, fun other => ?_⟩
    rw [List.foldl_cons, holds, holds_addLink, List.mem_cons, or_assoc]

/-- The items that a voucher of the list is linked to. -/
def linkedTo (links : List VoucherLink) (voucherIds : List ℕ) (voucher : { v // v ∈ voucherIds }) : Set ℕ :=
  { id | VoucherLink.mk voucher.1 id ∈ links }

/-- The map of vouchers groups the items as the links do. -/
theorem closed_voucherItems_iff (links : List VoucherLink) (voucherIds : List ℕ) (S : Set ℕ) :
    Closed (groupOf (voucherItems links voucherIds)) S ↔ Closed (linkedTo links voucherIds) S := by
  have empty : (([] : List (ℕ × List ℕ)).map Prod.fst).Nodup := List.nodup_nil
  obtain ⟨keys, holds⟩ := holds_foldl_addLink (links.filter fun l => l.voucherId ∈ voucherIds) empty
  change ((voucherItems links voucherIds).map Prod.fst).Nodup at keys
  have linked : ∀ link, Holds (voucherItems links voucherIds) link ↔
      link ∈ links ∧ link.voucherId ∈ voucherIds := by
    intro link
    refine (holds link).trans ?_
    simp [Holds]
  constructor
  · rintro closed ⟨voucherId, known⟩ a ha inside b hb
    obtain ⟨v, member, same, here⟩ := (linked ⟨voucherId, a⟩).mpr ⟨ha, known⟩
    obtain ⟨w, member', same', there⟩ := (linked ⟨voucherId, b⟩).mpr ⟨hb, known⟩
    obtain rfl := List.inj_on_of_nodup_map keys member member' (same.trans same'.symm)
    exact closed ⟨v, member⟩ a here inside there
  · rintro closed ⟨v, member⟩ a ha inside b hb
    obtain ⟨here, known⟩ := (linked ⟨v.1, a⟩).mp ⟨v, member, rfl, ha⟩
    obtain ⟨there, -⟩ := (linked ⟨v.1, b⟩).mp ⟨v, member, rfl, hb⟩
    exact closed ⟨v.1, known⟩ a here inside there

/-! ## The largest consistent set -/

/-- The items that nothing of their own refuses. -/
def free (wording : Wording) (isClosed : String → Bool) (rows : OpeningRows) : Set ℕ :=
  { id | ∃ r ∈ rows.rows, r.itemId = id ∧ ownRefusal wording isClosed r = none }

/-- The vouchers of the rows. -/
def liveVouchers (rows : OpeningRows) : List ℕ := rows.rows.flatMap fun r => r.vouchers.map OpeningVoucher.id

/-- A set of items that no voucher of the rows joins to an item outside it. -/
def Unjoined (links : List VoucherLink) (rows : OpeningRows) (S : Set ℕ) : Prop :=
  ∀ l ∈ links, ∀ l' ∈ links, l.voucherId = l'.voucherId → l.voucherId ∈ liveVouchers rows →
    l.itemId ∈ S → l'.itemId ∈ S

theorem withdrawable_openingItems (wording : Wording) (isClosed : String → Bool) (rows : OpeningRows) :
    withdrawable (rows.rows.map (openingItem wording isClosed)) = free wording isClosed rows := by
  ext id
  constructor
  · rintro ⟨i, listed, same, flag⟩
    obtain ⟨r, member, rfl⟩ := List.mem_map.mp listed
    exact ⟨r, member, same, Option.isNone_iff_eq_none.mp flag⟩
  · rintro ⟨r, member, same, nothing⟩
    exact ⟨_, List.mem_map_of_mem member, same, Option.isNone_iff_eq_none.mpr nothing⟩

theorem closed_linkedTo_iff (links : List VoucherLink) (rows : OpeningRows) {voucherIds : List ℕ}
    (same : ∀ v, v ∈ voucherIds ↔ v ∈ liveVouchers rows) (S : Set ℕ) :
    Closed (linkedTo links voucherIds) S ↔ Unjoined links rows S := by
  constructor
  · rintro closed l hl l' hl' joined known inside
    obtain ⟨v, b⟩ := l'
    obtain rfl : l.voucherId = v := joined
    exact closed ⟨l.voucherId, (same _).mpr known⟩ l.itemId hl inside hl'
  · rintro unjoined ⟨v, known⟩ a ha inside b hb
    exact unjoined ⟨v, a⟩ ha ⟨v, b⟩ hb rfl ((same v).mp known) inside

theorem once_openingItems (wording : Wording) (isClosed : String → Bool) (rows : OpeningRows) :
    (rows.rows.map (openingItem wording isClosed)).map OldOpeningItem.itemId =
      rows.rows.map OpeningRow.itemId := by
  rw [List.map_map]
  rfl

/-- The classification of any rows and links. -/
theorem classify_isGreatest (wording : Wording) (isClosed : String → Bool) (links : List VoucherLink)
    (rows : OpeningRows) :
    ∃ result, (∀ fuel, rows.rows.length < fuel → classify wording isClosed links fuel rows = some result) ∧
      result.map OldOpeningItem.itemId = rows.rows.map OpeningRow.itemId ∧
      IsGreatest { S | S ⊆ free wording isClosed rows ∧ Unjoined links rows S } (withdrawable result) := by
  have ids := once_openingItems wording isClosed rows
  have once : Once (rows.rows.map (openingItem wording isClosed)) := by
    unfold Once
    rw [ids]
    exact rows.once
  have few := ncard_withdrawable_le (rows.rows.map (openingItem wording isClosed))
  rw [List.length_map] at few
  obtain ⟨result, found, same, demotion, closed⟩ := passes_end wording
    (voucherItems links ((rows.rows.map (openingItem wording isClosed)).flatMap fun i =>
      i.vouchers.map OpeningVoucher.id).eraseDups) once (Nat.lt_succ_of_le few)
  have vouchers : ∀ v, v ∈ ((rows.rows.map (openingItem wording isClosed)).flatMap fun i =>
      i.vouchers.map OpeningVoucher.id).eraseDups ↔ v ∈ liveVouchers rows := by
    intro v
    rw [List.mem_eraseDups, List.flatMap_map]
    rfl
  have greatest := demotion.isGreatest closed
  simp only [closed_voucherItems_iff, closed_linkedTo_iff links rows vouchers,
    withdrawable_openingItems] at greatest
  exact ⟨result, fun fuel more => passesUntilStable_mono more found, same.trans ids, greatest⟩

/-- The classification ends, with the largest set of freely withdrawable items that no
voucher joins to an item outside it; the order of the rows and of the links does not count. -/
theorem classify_largest (wording : Wording) (isClosed : String → Bool) (links : List VoucherLink)
    (rows : OpeningRows) :
    ∃ result, (∀ fuel, rows.rows.length < fuel → classify wording isClosed links fuel rows = some result) ∧
      result.map OldOpeningItem.itemId = rows.rows.map OpeningRow.itemId ∧
      IsGreatest { S | S ⊆ free wording isClosed rows ∧ Unjoined links rows S } (withdrawable result) ∧
      ∀ (rows' : OpeningRows) (links' : List VoucherLink), rows.rows.Perm rows'.rows → links.Perm links' →
        ∃ result', (∀ fuel, rows.rows.length < fuel →
            classify wording isClosed links' fuel rows' = some result') ∧
          withdrawable result' = withdrawable result := by
  obtain ⟨result, found, ids, greatest⟩ := classify_isGreatest wording isClosed links rows
  refine ⟨result, found, ids, greatest, fun rows' links' same_rows same_links => ?_⟩
  obtain ⟨result', found', -, greatest'⟩ := classify_isGreatest wording isClosed links' rows'
  refine ⟨result', fun fuel more => found' fuel (same_rows.length_eq ▸ more), ?_⟩
  have same_free : free wording isClosed rows' = free wording isClosed rows := by
    unfold free
    simp only [same_rows.mem_iff]
  have same_vouchers : ∀ v, v ∈ liveVouchers rows' ↔ v ∈ liveVouchers rows :=
    fun v => (same_rows.flatMap_right _).mem_iff.symm
  have same_unjoined : ∀ S, Unjoined links' rows' S ↔ Unjoined links rows S := by
    intro S
    unfold Unjoined
    simp only [same_links.mem_iff, same_vouchers]
  rw [same_free] at greatest'
  simp only [same_unjoined] at greatest'
  exact greatest'.unique greatest

end PapitalErp.OpeningReplay
