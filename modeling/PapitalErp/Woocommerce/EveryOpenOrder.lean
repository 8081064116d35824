import PapitalErp.Woocommerce.OpenOrders

/-!
# A reading of the open orders misses none

An order that is open in the list at every request is in what a successful reading
returns, however other orders come and go meanwhile. The overlap row carries the
argument: each answer starts with the last order of the answer before, so it has
everything of its own list below that order, and the answers together reach down to
the end of the last list. The counts and the second reading of the first page only
make the reading stricter.
-/

namespace PapitalErp.OpenOrders

open Transition MovingList WcAutoPush

variable {moments : ℕ → Moment} {s s' : Progress} {done : ℕ}

def ids (orders : List OpenOrder) : List ℕ := orders.map (·.id)

/-- What a reading of so many requests says about the lists it has seen. -/
structure Complete (moments : ℕ → Moment) (requests : ℕ) (orders : List OpenOrder) : Prop where
  once : (ids orders).Nodup
  every : ∀ id, (∀ n, 1 ≤ n → n ≤ requests → id ∈ idsOf (moments n).rows) → id ∈ ids orders
  seen : ∀ order ∈ orders, ∃ n, 1 ≤ n ∧ n ≤ requests ∧
    ∃ row ∈ (moments n).rows, asOrder row = some order

/-- Every order open all along has been read, as far down as `bound` allows. -/
def ReadDownTo (moments : ℕ → Moment) (requests : ℕ) (bound : ℕ → Prop) (orders : List OpenOrder) :
    Prop :=
  ∀ id, bound id → (∀ n, 1 ≤ n → n ≤ requests → id ∈ idsOf (moments n).rows) → id ∈ ids orders

/-- What holds between two answers. -/
structure Reads (moments : ℕ → Moment) (done : ℕ) (s : Progress) : Prop where
  once : (ids s.orders).Nodup
  seen : ∀ order ∈ s.orders, ∃ n, 1 ≤ n ∧ n ≤ done ∧
    ∃ row ∈ (moments n).rows, asOrder row = some order
  start : done = 0 → s.offset = 0
  anchored : 1 ≤ done → 0 < s.lastId ∧ ReadDownTo moments done (s.lastId ≤ ·) s.orders

theorem ReadDownTo.mono {bound : ℕ → Prop} {orders : List OpenOrder} {more : ℕ}
    (h : ReadDownTo moments done bound orders) (le : done ≤ more) :
    ReadDownTo moments more bound orders :=
  fun id above everywhere => h id above fun n first last => everywhere n first (last.trans le)

/-! ## The rows of one answer -/

/-- The rows that were added are orders of their own, each new. -/
theorem addOrders_ok {orders added : List OpenOrder} {rows : List RawRow}
    (ok : addOrders orders rows = .ok added) :
    ids added = ids orders ++ idsOf rows ∧ ((ids orders).Nodup → (ids added).Nodup) ∧
      ∀ order ∈ added, order ∈ orders ∨ ∃ row ∈ rows, asOrder row = some order := by
  induction rows generalizing orders with
  | nil =>
      obtain rfl := Except.ok.inj ok
      exact ⟨by simp [idsOf], id, fun order mem => .inl mem⟩
  | cons row rows ih =>
      rw [addOrders] at ok
      cases found : asOrder row with
      | none =>
          rw [found] at ok
          cases ok
      | some order =>
          rw [found] at ok
          simp only [bind_eq_ok, ensure_eq_ok] at ok
          obtain ⟨_, new, ok⟩ := ok
          obtain ⟨listed, nodup, each⟩ := ih ok
          have own : idOf row = order.id := by simp [idOf, found]
          refine ⟨?_, fun distinct => nodup ?_, fun other mem => ?_⟩
          · rw [listed]
            simp [ids, idsOf, own]
          · rw [ids, List.map_append, List.nodup_append]
            refine ⟨distinct, List.nodup_singleton _, fun a mem b here => ?_⟩
            obtain ⟨other, there, rfl⟩ := List.mem_map.mp mem
            obtain rfl := List.mem_singleton.mp here
            exact new other there
          · rcases each other mem with old | ⟨r, there, is⟩
            · rcases List.mem_append.mp old with before | here
              · exact .inl before
              · exact .inr ⟨row, List.mem_cons_self, by rw [found, List.mem_singleton.mp here]⟩
            · exact .inr ⟨r, List.mem_cons_of_mem _ there, is⟩

/-- The rows an answer adds, by the number of the reading. -/
def rowsAfterAnchor (reading : ℕ) (rows : List RawRow) : List RawRow :=
  if reading = 1 then rows else rows.tail

/-- What `readAnswer` has done with an answer it took. -/
theorem readAnswer_ok {reading : ℕ} {answer : WcAnswer} {last : Bool}
    (ok : readAnswer reading s answer = .ok (s', last)) :
    ∃ rows, answer.data = some rows ∧
      (reading ≠ 1 → (rows.head?.map idOf).getD 0 = s.lastId) ∧
      addOrders s.orders (rowsAfterAnchor reading rows) = .ok s'.orders ∧
      (last = false → s'.lastId = (rows.getLast?.map idOf).getD 0 ∧ 0 < s'.lastId) ∧
      (last = true → rows.length < WC_BATCH_SIZE ∨
        ∃ total, answer.total = some total ∧ total ≤ s.offset + rows.length) := by
  rw [readAnswer] at ok
  cases data : answer.data with
  | none =>
      rw [data] at ok
      cases ok
  | some rows =>
      rw [data] at ok
      simp only [bind_eq_ok, ensure_eq_ok] at ok
      obtain ⟨_, _, ⟨s₁, fresh⟩, chosen, orders, added, ok⟩ := ok
      -- the two kinds of reading leave the offset and the orders, and know the count
      have kept : s₁.orders = s.orders ∧ s₁.offset = s.offset ∧ fresh = rowsAfterAnchor reading rows ∧
          (reading ≠ 1 → (rows.head?.map idOf).getD 0 = s.lastId) ∧
          ∀ total ∈ s₁.firstTotal, answer.total = some total := by
        by_cases first : reading = 1
        · rw [freshRows, if_pos first] at chosen
          simp only [firstRows, bind_eq_ok, ensure_eq_ok, pure_eq_ok, Prod.mk.injEq] at chosen
          obtain ⟨_, _, rfl, rfl⟩ := chosen
          exact ⟨rfl, rfl, (if_pos first).symm, absurd first, fun total mem => mem⟩
        · rw [freshRows, if_neg first] at chosen
          simp only [laterRows, bind_eq_ok, ensure_eq_ok, pure_eq_ok, Prod.mk.injEq] at chosen
          obtain ⟨_, same, _, anchor, rfl, rfl⟩ := chosen
          refine ⟨rfl, rfl, (if_neg first).symm, fun _ => anchor, fun total mem => ?_⟩
          rw [Option.mem_def] at mem
          exact (same (by simp [mem])).trans mem
      obtain ⟨sameOrders, sameOffset, rfl, anchor, counted⟩ := kept
      rw [sameOrders] at added
      refine ⟨rows, rfl, anchor, ?_⟩
      by_cases ends : isLast s₁ rows = true
      · rw [if_pos ends] at ok
        simp only [bind_eq_ok, ensure_eq_ok, pure_eq_ok, Prod.mk.injEq] at ok
        obtain ⟨_, _, rfl, rfl⟩ := ok
        refine ⟨added, (by simp), fun _ => ?_⟩
        rw [isLast, Bool.or_eq_true, decide_eq_true_eq, Option.any_eq_true] at ends
        rcases ends with short | ⟨total, here, reached⟩
        · exact .inl short
        · exact .inr ⟨total, counted total here, by simpa [sameOffset] using reached⟩
      · rw [if_neg ends] at ok
        simp only [bind_eq_ok, ensure_eq_ok, pure_eq_ok, Prod.mk.injEq] at ok
        obtain ⟨_, positive, rfl, rfl⟩ := ok
        exact ⟨added, fun _ => ⟨rfl, positive⟩, by simp⟩

/-! ## One answer of the moving list -/

section Answer

variable {list : OpenList} {counted last : Bool}

/-- An order of the list that was open all along is among the orders once the answer
reaches down to it. -/
theorem Reads.covers (h : Reads moments done s) (now : (moments (done + 1)).rows = list.rows)
    {orders : List OpenOrder} (listed : ids orders = ids s.orders ++
      idsOf (rowsAfterAnchor (done + 1) (page list.rows s.offset WC_BATCH_SIZE)))
    (anchor : done + 1 ≠ 1 →
      ((page list.rows s.offset WC_BATCH_SIZE).head?.map idOf).getD 0 = s.lastId) {bound : ℕ → Prop}
    (reaches : ∀ id, bound id →
      (idsOf list.rows).length ≤ s.offset + (page (idsOf list.rows) s.offset WC_BATCH_SIZE).length ∨
        ∃ b ∈ page (idsOf list.rows) s.offset WC_BATCH_SIZE, b ≤ id) :
    ReadDownTo moments (done + 1) bound orders := by
  intro id above everywhere
  have here : id ∈ idsOf list.rows := now ▸ everywhere (done + 1) (by omega) le_rfl
  have mapped : idsOf (page list.rows s.offset WC_BATCH_SIZE) =
      page (idsOf list.rows) s.offset WC_BATCH_SIZE := page_map idOf
  rw [listed, List.mem_append]
  by_cases first : done = 0
  · right
    rw [rowsAfterAnchor, if_pos (by omega), mapped]
    exact mem_page_of_between list.descending here (.inl (h.start first)) (reaches id above)
  · obtain ⟨positive, before⟩ := h.anchored (by omega)
    by_cases read : s.lastId ≤ id
    · left
      exact before id read fun n start till => everywhere n start (by omega)
    · right
      rw [rowsAfterAnchor, if_neg (by omega)]
      have starts := anchor (by omega)
      cases rows : page list.rows s.offset WC_BATCH_SIZE with
      | nil =>
          rw [rows] at starts
          exact absurd starts positive.ne
      | cons row rest =>
          rw [rows] at starts mapped
          refine mem_tail_of_anchor list.descending mapped.symm here ?_ (reaches id above)
          exact (not_le.mp read).trans_eq starts.symm

/-- The orders of an answer were open when it was given. -/
theorem Reads.seen_next (h : Reads moments done s) (now : (moments (done + 1)).rows = list.rows)
    {orders : List OpenOrder}
    (each : ∀ order ∈ orders, order ∈ s.orders ∨
      ∃ row ∈ rowsAfterAnchor (done + 1) (page list.rows s.offset WC_BATCH_SIZE), asOrder row = some order) :
    ∀ order ∈ orders, ∃ n, 1 ≤ n ∧ n ≤ done + 1 ∧
      ∃ row ∈ (moments n).rows, asOrder row = some order := by
  intro order mem
  rcases each order mem with old | ⟨row, there, is⟩
  · obtain ⟨n, first, till, rest⟩ := h.seen order old
    exact ⟨n, first, by omega, rest⟩
  · refine ⟨done + 1, by omega, le_rfl, row, ?_, is⟩
    have inPage : row ∈ page list.rows s.offset WC_BATCH_SIZE := by
      rw [rowsAfterAnchor] at there
      split at there
      · exact there
      · exact List.mem_of_mem_tail there
    exact now ▸ page_sublist.subset inPage

/-- The last row of a page, as a bound of what the page has. -/
theorem last_mem_page {offset id : ℕ} (positive : 0 < id)
    (last : id = ((page list.rows offset WC_BATCH_SIZE).getLast?.map idOf).getD 0) :
    id ∈ page (idsOf list.rows) offset WC_BATCH_SIZE := by
  cases found : (page list.rows offset WC_BATCH_SIZE).getLast? with
  | none =>
      rw [found] at last
      exact absurd last positive.ne'
  | some row =>
      rw [found] at last
      rw [idsOf, ← page_map, last]
      exact List.mem_map_of_mem (List.mem_of_getLast? found)

/-- One answer from the list of its moment. -/
theorem Reads.next (h : Reads moments done s)
    (moment : moments (done + 1) = .answers list counted)
    (ok : readAnswer (done + 1) s {
      data := some (page list.rows s.offset WC_BATCH_SIZE)
      total := if counted then some list.rows.length else none } = .ok (s', last)) :
    (last = false → Reads moments (done + 1) s') ∧
      (last = true → Complete moments (done + 1) s'.orders) := by
  have now : (moments (done + 1)).rows = list.rows := by rw [moment, Moment.rows]
  obtain ⟨_, data, anchor, added, continues, ends⟩ := readAnswer_ok ok
  obtain rfl := Option.some.inj data
  obtain ⟨listed, nodup, each⟩ := addOrders_ok added
  refine ⟨fun goesOn => ⟨nodup h.once, h.seen_next now each, nofun, fun _ => ?_⟩,
    fun stops => ⟨nodup h.once, ?_, h.seen_next now each⟩⟩
  · obtain ⟨is, positive⟩ := continues goesOn
    refine ⟨positive, h.covers now listed anchor fun id above => .inr ?_⟩
    exact ⟨s'.lastId, last_mem_page positive is, above⟩
  · have all : ReadDownTo moments (done + 1) (fun _ => True) s'.orders := by
      refine h.covers now listed anchor fun id _ => .inl ?_
      rw [idsOf, ← page_map, List.length_map, List.length_map]
      rcases ends stops with short | ⟨total, count, reached⟩
      · exact reaches_of_short short
      · cases counted with
        | false => cases count
        | true =>
            obtain rfl := Option.some.inj count
            exact reached
    exact fun id everywhere => all id trivial everywhere

end Answer

/-! ## The whole reading -/

theorem Complete.mono {requests more : ℕ} {orders : List OpenOrder}
    (h : Complete moments requests orders) (le : requests ≤ more) : Complete moments more orders where
  once := h.once
  every id everywhere := h.every id fun n first till => everywhere n first (till.trans le)
  seen order mem := by
    obtain ⟨n, first, till, rest⟩ := h.seen order mem
    exact ⟨n, first, till.trans le, rest⟩

/-- The second reading of the first page can only refuse. -/
theorem Complete.conclude {reading : ℕ} (h : Complete moments reading s.orders)
    {orders : List OpenOrder}
    (ok : (conclude (shopRead moments) reading s).result = .ok orders) :
    Complete moments (conclude (shopRead moments) reading s).requests orders := by
  by_cases single : reading = 1
  · rw [OpenOrders.conclude, if_pos single] at ok ⊢
    obtain rfl := Except.ok.inj ok
    exact h.mono single.le
  · rw [OpenOrders.conclude, if_neg single] at ok ⊢
    simp only [bind_eq_ok, pure_eq_ok] at ok
    obtain ⟨_, _, _, _, rfl⟩ := ok
    exact h.mono (Nat.le_succ reading)

theorem conclude_requests (read : ℕ → ℕ → Except ReadFailure WcAnswer) (reading : ℕ) :
    (conclude read reading s).requests ≤ reading + 1 := by
  rw [conclude]
  split
  · show 1 ≤ reading + 1
    omega
  · exact le_rfl

/-- The loop makes a request a reading, and one more to conclude. -/
theorem readings_requests (read : ℕ → ℕ → Except ReadFailure WcAnswer) (left done : ℕ) :
    (readings read left (done + 1) s).requests ≤ done + left + 1 := by
  induction left generalizing done s with
  | zero => exact Nat.le_succ done
  | succ left ih =>
      rw [readings]
      split
      · show done + 1 ≤ _
        omega
      · exact (ih (done + 1)).trans (by omega)
      · exact (conclude_requests read (done + 1)).trans (by omega)

/-- The loop from any point on. -/
theorem Reads.readings (h : Reads moments done s) {left : ℕ} {orders : List OpenOrder}
    (ok : (readings (shopRead moments) left (done + 1) s).result = .ok orders) :
    Complete moments (readings (shopRead moments) left (done + 1) s).requests orders := by
  induction left generalizing done s with
  | zero => cases ok
  | succ left ih =>
      rw [OpenOrders.readings] at ok ⊢
      cases moment : moments (done + 1) with
      | fails e => simp [shopRead, moment, Moment.answer, bind, Except.bind] at ok
      | answers list counted =>
          have next : ∀ s' last, readAnswer (done + 1) s {
              data := some (page list.rows s.offset WC_BATCH_SIZE)
              total := if counted then some list.rows.length else none } = .ok (s', last) → _ :=
            fun s' last => h.next moment
          simp only [shopRead, moment, Moment.answer, bind, Except.bind] at ok ⊢
          split at ok
          · cases ok
          · rename_i s' found
            exact ih ((next s' false found).1 rfl) ok
          · rename_i s' found
            exact ((next s' true found).2 rfl).conclude ok

/-- However the list of the shop changes between the requests: the reading ends within
its page limit, what it returns is every order open at all of them, each once, and
only orders open at one of them; and when it fails, nothing is sent. -/
theorem open_orders_are_read {α : Type} (moments : ℕ → Moment) (sendStocks : List OpenOrder → List α) :
    (readOpenOrders (shopRead moments)).requests ≤ WC_MAX_ORDER_PAGES + 3 ∧
      (∀ orders, (readOpenOrders (shopRead moments)).result = .ok orders →
        Complete moments (readOpenOrders (shopRead moments)).requests orders) ∧
      ∀ e, (readOpenOrders (shopRead moments)).result = .error e →
        pushWithOrders (shopRead moments) sendStocks = (.error e, []) := by
  have begins : Reads moments 0 ⟨[], none, [], 0, 0⟩ :=
    ⟨List.nodup_nil, nofun, fun _ => rfl, by omega⟩
  refine ⟨?_, fun orders ok => begins.readings ok, fun e failed => ?_⟩
  · exact (readings_requests (shopRead moments) (WC_MAX_ORDER_PAGES + 2) 0).trans (by omega)
  · rw [pushWithOrders, failed]

end PapitalErp.OpenOrders
