import PapitalErp.Storefront.SiteStock

/-!
# Open site orders are covered by the site's warehouse

What may be sold is the lesser of two bounds, the warehouse's stock and the total
less all reservations. Neither is the warehouse's stock less the open orders: with
stock elsewhere, two orders are promised the same pieces of the warehouse
(`same_pieces_promised_twice`).

`open_orders_are_covered` is the promise for runs in which each item is ordered
while it has no other open site order or no stock in another warehouse. The lock on
an item's row carries the argument: between the check of a placement and its commit
nobody else adds an order of its items or takes them out.
-/

namespace PapitalErp.SiteStock

open Rounding Transition SiteOrders FilteredSums

/-! ## Quantities -/

theorem Cart.quantityOf_nonneg (cart : Cart) (itemId : ItemId) : 0 ≤ cart.quantityOf itemId := by
  apply List.sum_nonneg
  intro x mem
  obtain ⟨l, _, rfl⟩ := List.mem_map.mp mem
  exact l.quantity.cast_nonneg

theorem Cart.quantityOf_eq_zero {cart : Cart} {itemId : ItemId}
    (h : ∀ l ∈ cart.lines, l.itemId ≠ itemId) : cart.quantityOf itemId = 0 :=
  sumWhere_eq_zero fun l mem => by simpa using h l mem

/-- A cart names an item once, so its line has the cart's quantity. -/
theorem Cart.quantityOf_line {cart : Cart} {l : CartLine} (mem : l ∈ cart.lines) :
    cart.quantityOf l.itemId = l.quantity := by
  have distinct := List.pairwise_map.mp cart.distinct
  refine sumWhere_of_unique (f := fun l : CartLine => (l.quantity : ℚ)) mem (by simp) ?_
  refine distinct.imp fun {b c} apart both => apart ?_
  simp only [decide_eq_true_eq] at both
  exact both.1.trans both.2.symm

theorem Order.sum_reservations (order : Order) (itemId : ItemId) :
    ((order.reservations itemId).map ReservedItemDetail.reservedQty).sum =
      order.cart.quantityOf itemId := by
  simp [Order.reservations, Cart.quantityOf, sumWhere, Function.comp_def]

/-- What the reservations of some orders add up to. -/
theorem sum_flatMap_reservations (orders : List Order) (itemId : ItemId) :
    ((orders.flatMap fun order => order.reservations itemId).map ReservedItemDetail.reservedQty).sum =
      (orders.map fun order => order.cart.quantityOf itemId).sum := by
  induction orders with
  | nil => rfl
  | cons order orders ih =>
      rw [List.flatMap_cons, List.map_append, List.sum_append, ih, order.sum_reservations,
        List.map_cons, List.sum_cons]

section

variable {shop : Shop} {t : Tables}

theorem sum_reservations (itemId : ItemId) :
    ((reservations t itemId).map ReservedItemDetail.reservedQty).sum = openQuantity t itemId :=
  sum_flatMap_reservations _ _

/-- The reservations of all orders but one. -/
theorem othersReservations_reservations {order : Order} (itemId : ItemId) :
    othersReservations (reservations t itemId) ⟨some order.documentId, none⟩ =
      ((openOrders t).filter fun other => other.documentId ≠ order.documentId).flatMap
        fun other => other.reservations itemId := by
  have known : order.documentId ≠ 0 := order.stored.ne'
  have own : ∀ other : Order, (other.reservations itemId).filter (fun r =>
      !(decide (r.sourceType = .proforma) && isOwnId (some order.documentId) r.sourceId)) =
        if other.documentId ≠ order.documentId then other.reservations itemId else [] := by
    intro other
    have source : ∀ r ∈ other.reservations itemId,
        r.sourceType = .proforma ∧ r.sourceId = other.documentId := by
      intro r mem
      obtain ⟨l, _, rfl⟩ := List.mem_map.mp mem
      exact ⟨rfl, rfl⟩
    by_cases same : other.documentId = order.documentId
    · rw [if_neg (not_not.mpr same)]
      refine List.filter_eq_nil_iff.mpr fun r mem => ?_
      simp [source r mem, isOwnId, same, known]
    · rw [if_pos same]
      refine List.filter_eq_self.mpr fun r mem => ?_
      simp [source r mem, isOwnId, same]
  have projects : ∀ rows : List ReservedItemDetail, (rows.filter fun r =>
      !(decide (r.sourceType = .project) && isOwnId none r.sourceId)) = rows := by
    intro rows
    simp [isOwnId]
  rw [othersReservations, projects, reservations]
  induction openOrders t with
  | nil => rfl
  | cons other orders ih =>
      rw [List.flatMap_cons, List.filter_append, ih, own]
      by_cases same : other.documentId = order.documentId <;> simp [same]

/-- Without the order's own reservation, the reservations of an item are the rest. -/
theorem reservedForOthers_eq {order : Order} (mem : order ∈ t.orders) (isOpen : order.isOpen)
    (apart : t.orders.Pairwise fun a b => a.documentId ≠ b.documentId) (itemId : ItemId) :
    (stockItem shop t (reservations t) itemId).reservedForOthers ⟨some order.documentId, none⟩ =
      openQuantity t itemId - order.cart.quantityOf itemId := by
  have own : sumWhere (fun other : Order => other.isOpen && decide (other.documentId = order.documentId))
      (fun other => other.cart.quantityOf itemId) t.orders = order.cart.quantityOf itemId := by
    refine sumWhere_of_unique mem (by simp [isOpen]) (apart.imp fun {b c} ne both => ne ?_)
    simp only [Bool.and_eq_true, decide_eq_true_eq] at both
    exact both.1.2.trans both.2.2.symm
  have others : sumWhere (fun other : Order => other.isOpen && decide (other.documentId ≠ order.documentId))
      (fun other => other.cart.quantityOf itemId) t.orders =
        (stockItem shop t (reservations t) itemId).reservedForOthers ⟨some order.documentId, none⟩ := by
    rw [StockItem.reservedForOthers, stockItem, othersReservations_reservations,
      sum_flatMap_reservations, openOrders, List.filter_filter, sumWhere]
    congr 3
    funext other
    exact Bool.and_comm _ _
  have whole : openQuantity t itemId =
      sumWhere (fun other : Order => other.isOpen && decide (other.documentId ≠ order.documentId))
        (fun other => other.cart.quantityOf itemId) t.orders + order.cart.quantityOf itemId := by
    rw [← own, sumWhere_add_sumWhere, openQuantity]
    · refine sumWhere_congr (fun other _ => ?_) fun _ _ _ => rfl
      by_cases same : other.documentId = order.documentId <;> simp [same]
    · intro other _
      by_cases same : other.documentId = order.documentId <;> simp [same]
  rw [← others]
  linarith

end

/-! ## The promise -/

/-- The open orders of each item fit into its stock in the site's warehouse. -/
def Covered (shop : Shop) (t : Tables) : Prop :=
  ∀ itemId, openQuantity t itemId ≤ siteStock shop t itemId

/-- Open orders are covered, and the gate lets each of them become its invoice. -/
structure Safe (shop : Shop) (t : Tables) : Prop where
  covered : Covered shop t
  confirmable : ∀ order ∈ t.orders, order.isOpen → gate shop t order = .ok ()

/-- The stock of an item outside the site's warehouse. -/
def stockElsewhere (shop : Shop) (t : Tables) (itemId : ItemId) : ℚ :=
  AssocTotals.total (t.stock itemId).byCode - siteStock shop t itemId

/-- The lines whose stocks a placement is about to compare. -/
def comparedLines (t : Tables) (p : ℕ) : List CartLine :=
  match t.placing p with
  | .reported cart _ => cart.lines
  | _ => []

/-- When the stocks are read for a cart, each of its items has no open site order or
no stock in another warehouse. -/
def ordersWithin (shop : Shop) (t : Tables) : Op → Bool
  | .check p => (comparedLines t p).all fun l =>
      decide (openQuantity t l.itemId = 0) || decide (stockElsewhere shop t l.itemId = 0)
  | _ => true

/-- What is known of a placement from how far it is. -/
def Knows (shop : Shop) (t : Tables) (p : ℕ) : Placing → Prop
  | .idle => True
  | .locked cart => ∀ l ∈ cart.lines, t.locks l.itemId = some p
  | .reported cart report => ∀ l ∈ cart.lines, t.locks l.itemId = some p ∧
      openQuantity t l.itemId ≤ ((report l.itemId).map ReservedItemDetail.reservedQty).sum
  | .checked cart => ∀ l ∈ cart.lines, t.locks l.itemId = some p ∧
      openQuantity t l.itemId + l.quantity ≤ siteStock shop t l.itemId

structure Valid (shop : Shop) (t : Tables) : Prop where
  apart : t.orders.Pairwise fun a b => a.documentId ≠ b.documentId
  numbered : ∀ order ∈ t.orders, order.documentId ≤ t.nextDocument
  covered : Covered shop t
  knows : ∀ p, Knows shop t p (t.placing p)

section

variable {shop : Shop} {t t' : Tables}

theorem siteStock_le_total (itemId : ItemId) :
    siteStock shop t itemId ≤ AssocTotals.total (t.stock itemId).byCode :=
  AssocTotals.get_le_total (fun row mem => ((t.stock itemId).valid row mem).2) _

/-- The gate lets every open order through. -/
theorem Valid.gate_ok (h : Valid shop t) {order : Order} (mem : order ∈ t.orders)
    (isOpen : order.isOpen) : gate shop t order = .ok () := by
  have located : ∀ l ∈ order.outflow shop,
      l.warehouse shop.text shop.active ⟨⟨some order.documentId, none⟩, none⟩ = .ok shop.site := by
    intro l mem
    obtain ⟨line, _, rfl⟩ := List.mem_map.mp mem
    have named : shop.site ≠ "" := resolveWarehouse_ne shop.resolves
    simp [OutflowLine.warehouse, shop.trimmed, named, shop.resolves]
  have active : shop.active ≠ [] := by
    intro empty
    have := shop.resolves
    rw [empty] at this
    simp [resolveWarehouse] at this
  have placed : ∀ l ∈ order.outflow shop, l.outflowItem.isSome → ∃ w,
      l.warehouse shop.text shop.active ⟨⟨some order.documentId, none⟩, none⟩ = .ok w :=
    fun l mem _ => ⟨shop.site, located l mem⟩
  obtain ⟨requested, added⟩ := requestedOf_exists [] placed
  refine (assertOutflowWithinSellable_ok active added).mpr fun r listed => ?_
  refine ⟨_, rfl, rfl, ?_⟩
  have adds := AddsUp.nil.run added
  rw [List.nil_append] at adds
  obtain ⟨l, lineMem, _, place⟩ := (adds.keys r.1.1 r.1.2).mp (List.mem_map_of_mem listed)
  have site : r.1.2 = shop.site := Except.ok.inj (place.symm.trans (located l lineMem))
  have asked : r.2 ≤ order.cart.quantityOf r.1.1 := by
    have amount : r.2 = leavingFrom shop.text shop.active ⟨⟨some order.documentId, none⟩, none⟩
        (order.outflow shop) r.1.1 r.1.2 := by
      rw [← adds.amounts, AssocTotals.get_of_mem adds.distinct listed]
    rw [amount]
    refine (leavingFrom_le_leaving _ _ _).trans_eq ?_
    have item : ∀ line : CartLine, (⟨some (line.itemId : ℤ), line.quantity, some shop.site⟩ : OutflowLine).outflowItem =
        some line.itemId := by
      intro line
      have counted : (0 : ℤ) < line.itemId ∧ (0 : ℚ) < line.quantity :=
        ⟨by exact_mod_cast line.stored, by exact_mod_cast line.ordered.1⟩
      show (if (0 : ℤ) < line.itemId ∧ (0 : ℚ) < line.quantity then some (line.itemId : ℤ).toNat
        else none) = some line.itemId
      rw [if_pos counted, Int.toNat_natCast]
    simp [leavingQuantity, Order.outflow, Cart.quantityOf, sumWhere, List.filter_map,
      Function.comp_def, item]
  have own : order.cart.quantityOf r.1.1 ≤ openQuantity t r.1.1 :=
    List.single_le_sum (by
      intro x mem
      obtain ⟨other, _, rfl⟩ := List.mem_map.mp mem
      exact other.cart.quantityOf_nonneg r.1.1) _
      (List.mem_map_of_mem (List.mem_filter.mpr ⟨mem, isOpen⟩))
  have covered : openQuantity t r.1.1 ≤ siteStock shop t r.1.1 := h.covered r.1.1
  have total := @siteStock_le_total shop t r.1.1
  rw [StockItem.sellable, reservedForOthers_eq mem isOpen h.apart, site]
  refine le_max_of_le_right (le_min ?_ (le_max_of_le_right ?_))
  · exact (asked.trans own).trans covered
  · have whole : (stockItem shop t (reservations t) r.1.1).totalStock =
        AssocTotals.total (t.stock r.1.1).byCode := rfl
    rw [whole]
    linarith

theorem Valid.safe (h : Valid shop t) : Safe shop t where
  covered := h.covered
  confirmable _ mem isOpen := h.gate_ok mem isOpen

/-! ## One step -/

/-- The item keeps its lock, and its open orders and its stock only ease. -/
structure Eases (shop : Shop) (t t' : Tables) (p : ℕ) (itemId : ItemId) : Prop where
  lock : t'.locks itemId = some p
  orders : openQuantity t' itemId ≤ openQuantity t itemId
  stock : siteStock shop t itemId ≤ siteStock shop t' itemId

theorem Knows.eases {p : ℕ} {place : Placing} (h : Knows shop t p place)
    (eases : ∀ itemId, t.locks itemId = some p → Eases shop t t' p itemId) :
    Knows shop t' p place := by
  cases place with
  | idle => trivial
  | locked cart => exact fun l mem => (eases l.itemId (h l mem)).lock
  | reported cart report =>
      intro l mem
      obtain ⟨lock, seen⟩ := h l mem
      have kept := eases l.itemId lock
      exact ⟨kept.lock, kept.orders.trans seen⟩
  | checked cart =>
      intro l mem
      obtain ⟨lock, fits⟩ := h l mem
      have kept := eases l.itemId lock
      have orders := kept.orders
      have stock := kept.stock
      exact ⟨kept.lock, by linarith⟩

/-- A step of one placement leaves the others what they know. -/
theorem Valid.knows_update (h : Valid shop t) (p : ℕ) (place : Placing)
    (own : Knows shop t' p place) (placing : t'.placing = Function.update t.placing p place)
    (eases : ∀ q ≠ p, ∀ itemId, t.locks itemId = some q → Eases shop t t' q itemId) (q : ℕ) :
    Knows shop t' q (t'.placing q) := by
  rw [placing]
  by_cases same : q = p
  · subst same
    rwa [Function.update_self]
  · rw [Function.update_of_ne same]
    exact (h.knows q).eases (eases q same)

theorem unlock_other {p q : ℕ} (other : q ≠ p) {itemId : ItemId}
    (lock : t.locks itemId = some q) : unlock t p itemId = some q := by
  rw [unlock, lock, if_neg]
  simpa using other

theorem Valid.begin (h : Valid shop t) {p : ℕ} {cart : Cart}
    (free : ∀ l ∈ cart.lines, t.locks l.itemId = none) :
    Valid shop { t with
      locks := fun itemId =>
        if itemId ∈ cart.lines.map CartLine.itemId then some p else t.locks itemId
      placing := Function.update t.placing p (.locked cart) } := by
  refine ⟨h.apart, h.numbered, h.covered, ?_⟩
  refine h.knows_update p (.locked cart) ?_ rfl fun q _ itemId lock => ?_
  · intro l mem
    exact if_pos (List.mem_map_of_mem mem)
  · refine ⟨?_, le_rfl, le_rfl⟩
    have outside : itemId ∉ cart.lines.map CartLine.itemId := by
      intro mem
      obtain ⟨l, line, rfl⟩ := List.mem_map.mp mem
      rw [free l line] at lock
      cases lock
    exact (if_neg outside).trans lock

theorem checkLine_ok {report : ItemId → List ReservedItemDetail} {l : CartLine}
    (ok : checkLine shop t report l = .ok ⟨⟩) :
    (l.quantity : ℚ) ≤ siteStock shop t l.itemId ∧ (l.quantity : ℚ) ≤
      AssocTotals.total (t.stock l.itemId).byCode -
        ((report l.itemId).map ReservedItemDetail.reservedQty).sum := by
  have named : shop.site ≠ "" := resolveWarehouse_ne shop.resolves
  have positive : (0 : ℚ) < l.quantity := by exact_mod_cast l.ordered.1
  have all : (stockItem shop t report l.itemId).reservedForOthers ⟨none, none⟩ =
      ((report l.itemId).map ReservedItemDetail.reservedQty).sum := by
    simp [StockItem.reservedForOthers, othersReservations, isOwnId, stockItem]
  simp only [checkLine, storefrontSellable, computeSellable, if_neg named, Except.map, ensure_eq_ok,
    all] at ok
  rcases le_max_iff.mp ok with none' | within
  · exact absurd none' (not_le.mpr positive)
  · obtain ⟨here, total⟩ := le_min_iff.mp within
    rcases le_max_iff.mp total with none' | total
    · exact absurd none' (not_le.mpr positive)
    · exact ⟨here, total⟩

theorem Valid.check (h : Valid shop t) {p : ℕ} {cart : Cart}
    {report : ItemId → List ReservedItemDetail} (place : t.placing p = .reported cart report)
    (within : ∀ l ∈ cart.lines, openQuantity t l.itemId = 0 ∨ stockElsewhere shop t l.itemId = 0)
    (ok : ∀ l ∈ cart.lines, checkLine shop t report l = .ok ⟨⟩) :
    Valid shop { t with placing := Function.update t.placing p (.checked cart) } := by
  refine ⟨h.apart, h.numbered, h.covered, ?_⟩
  have known := h.knows p
  rw [place] at known
  refine h.knows_update p (.checked cart) ?_ rfl
    fun q _ itemId lock => ⟨lock, le_rfl, le_rfl⟩
  intro l mem
  obtain ⟨lock, seen⟩ := known l mem
  obtain ⟨here, total⟩ := checkLine_ok (ok l mem)
  refine ⟨lock, ?_⟩
  show openQuantity t l.itemId + l.quantity ≤ siteStock shop t l.itemId
  rcases within l mem with first | alone
  · rw [first, zero_add]
    exact here
  · rw [stockElsewhere, sub_eq_zero] at alone
    rw [alone] at total
    linarith

end


section

variable {shop : Shop} {t : Tables}

theorem openQuantity_append (order : Order) (isOpen : order.isOpen) (itemId : ItemId) :
    openQuantity { t with orders := t.orders ++ [order] } itemId =
      openQuantity t itemId + order.cart.quantityOf itemId := by
  simp [openQuantity, isOpen]

theorem Valid.commit (h : Valid shop t) {p : ℕ} {cart : Cart} (place : t.placing p = .checked cart)
    {order : Order} (isOpen : order.isOpen) (bought : order.cart = cart)
    (fresh : order.documentId = t.nextDocument + 1) :
    Valid shop { t with
      orders := t.orders ++ [order]
      nextDocument := t.nextDocument + 1
      locks := unlock t p
      placing := Function.update t.placing p .idle } := by
  have known := h.knows p
  rw [place] at known
  have quantity : ∀ itemId, openQuantity { t with
      orders := t.orders ++ [order]
      nextDocument := t.nextDocument + 1
      locks := unlock t p
      placing := Function.update t.placing p .idle } itemId =
        openQuantity t itemId + cart.quantityOf itemId :=
    fun itemId => bought ▸ openQuantity_append order isOpen itemId
  refine ⟨?_, ?_, fun itemId => ?_, ?_⟩
  · refine List.pairwise_append.mpr ⟨h.apart, List.pairwise_singleton _ _, fun a mem b new => ?_⟩
    obtain rfl := List.mem_singleton.mp new
    have := h.numbered a mem
    omega
  · intro other mem
    rcases List.mem_append.mp mem with mem | mem
    · exact (h.numbered other mem).trans (Nat.le_succ _)
    · obtain rfl := List.mem_singleton.mp mem
      exact fresh.le
  · rw [quantity]
    by_cases named : ∃ l ∈ cart.lines, l.itemId = itemId
    · obtain ⟨l, mem, rfl⟩ := named
      rw [cart.quantityOf_line mem]
      exact (known l mem).2
    · have none' : cart.quantityOf itemId = 0 :=
        Cart.quantityOf_eq_zero fun l mem same => named ⟨l, mem, same⟩
      rw [none', add_zero]
      exact h.covered itemId
  · refine h.knows_update p .idle trivial rfl fun q other itemId lock => ?_
    have outside : cart.quantityOf itemId = 0 := by
      refine Cart.quantityOf_eq_zero fun l mem same => other ?_
      have own := (known l mem).1
      rw [same, lock] at own
      exact Option.some.inj own
    refine ⟨unlock_other other lock, ?_, le_rfl⟩
    rw [quantity, outside, add_zero]

theorem Valid.abort (h : Valid shop t) (p : ℕ) :
    Valid shop { t with
      locks := unlock t p
      placing := Function.update t.placing p .idle } :=
  ⟨h.apart, h.numbered, h.covered, h.knows_update p .idle trivial rfl
    fun _ other _ lock => ⟨unlock_other other lock, le_rfl, le_rfl⟩⟩

theorem Valid.report (h : Valid shop t) {p : ℕ} {cart : Cart} (place : t.placing p = .locked cart) :
    Valid shop { t with placing := Function.update t.placing p (.reported cart (reservations t)) } := by
  have known := h.knows p
  rw [place] at known
  refine ⟨h.apart, h.numbered, h.covered, ?_⟩
  refine h.knows_update p (.reported cart (reservations t)) ?_ rfl
    fun _ _ _ lock => ⟨lock, le_rfl, le_rfl⟩
  exact fun l mem => ⟨known l mem, (sum_reservations l.itemId).ge⟩

/-! ### A step on one order -/

theorem findOpen_ok {documentId : ℕ} {order : Order} (ok : findOpen t documentId = .ok order) :
    order ∈ t.orders ∧ order.isOpen ∧ order.documentId = documentId := by
  rw [findOpen] at ok
  cases found : t.orders.find? fun order => order.documentId = documentId ∧ order.isOpen with
  | none =>
      rw [found] at ok
      cases ok
  | some other =>
      rw [found] at ok
      obtain rfl := Except.ok.inj ok
      have meets := List.find?_some found
      simp only [Bool.decide_and, Bool.and_eq_true, decide_eq_true_eq] at meets
      exact ⟨List.mem_of_find?_eq_some found, meets.2, meets.1⟩

/-- The open quantity after an open order got another status. -/
theorem openQuantity_withStatus (apart : t.orders.Pairwise fun a b => a.documentId ≠ b.documentId)
    {order : Order} (mem : order ∈ t.orders) (isOpen : order.isOpen) (status : OrderStatus)
    (stock : ItemId → StockByCode) (itemId : ItemId) :
    openQuantity { t with stock := stock, orders := withStatus t order.documentId status } itemId =
      openQuantity t itemId -
        if status ∈ OPEN_ORDER_STATUSES then 0 else order.cart.quantityOf itemId := by
  have replaced :
      sumWhere (fun o : Order => o.isOpen) (fun o => o.cart.quantityOf itemId)
        (t.orders.map fun o =>
          if o.documentId = order.documentId then { o with status := status } else o) +
          (if order.isOpen then order.cart.quantityOf itemId else 0) = openQuantity t itemId +
            if ({ order with status := status } : Order).isOpen then order.cart.quantityOf itemId
              else 0 :=
    sumWhere_update (fun o : Order => { o with status := status }) apart mem
  rw [if_pos isOpen] at replaced
  have still : ({ order with status := status } : Order).isOpen =
      decide (status ∈ OPEN_ORDER_STATUSES) := rfl
  rw [still] at replaced
  show sumWhere _ _ (t.orders.map fun o => if o.documentId = order.documentId then
    { o with status := status } else o) = _
  by_cases stays : status ∈ OPEN_ORDER_STATUSES
  · simp only [stays, decide_true, if_true] at replaced ⊢
    rw [sub_zero]
    exact add_right_cancel replaced
  · simp only [stays, decide_false, if_false, Bool.false_eq_true, add_zero] at replaced ⊢
    exact eq_sub_of_add_eq replaced

theorem withStatus_documents (documentId : ℕ) (status : OrderStatus) :
    (withStatus t documentId status).map Order.documentId = t.orders.map Order.documentId := by
  rw [withStatus, List.map_map]
  refine List.map_congr_left fun order _ => ?_
  by_cases same : order.documentId = documentId <;> simp [same]

theorem apart_withStatus (apart : t.orders.Pairwise fun a b => a.documentId ≠ b.documentId)
    (documentId : ℕ) (status : OrderStatus) :
    (withStatus t documentId status).Pairwise fun a b => a.documentId ≠ b.documentId := by
  have keys : (t.orders.map Order.documentId).Nodup := List.pairwise_map.mpr apart
  rw [← withStatus_documents documentId status] at keys
  exact List.pairwise_map.mp keys

theorem numbered_withStatus (numbered : ∀ order ∈ t.orders, order.documentId ≤ t.nextDocument)
    (documentId : ℕ) (status : OrderStatus) :
    ∀ order ∈ withStatus t documentId status, order.documentId ≤ t.nextDocument := by
  intro order mem
  have listed : order.documentId ∈ (withStatus t documentId status).map Order.documentId :=
    List.mem_map_of_mem mem
  rw [withStatus_documents] at listed
  obtain ⟨other, mem, same⟩ := List.mem_map.mp listed
  exact same ▸ numbered other mem

/-- An order that ends without its items leaving, or stays open. -/
theorem Valid.withStatus (h : Valid shop t) {order : Order} (mem : order ∈ t.orders)
    (isOpen : order.isOpen) (status : OrderStatus) :
    Valid shop { t with orders := withStatus t order.documentId status } := by
  have eases : ∀ itemId, openQuantity { t with
      orders := SiteStock.withStatus t order.documentId status } itemId ≤ openQuantity t itemId := by
    intro itemId
    have after := openQuantity_withStatus h.apart mem isOpen status t.stock itemId
    have nonneg := order.cart.quantityOf_nonneg itemId
    refine after.trans_le ?_
    split <;> linarith
  refine ⟨apart_withStatus h.apart _ _, numbered_withStatus h.numbered _ _,
    fun itemId => (eases itemId).trans (h.covered itemId), fun p => ?_⟩
  exact (h.knows p).eases fun itemId lock => ⟨lock, eases itemId, le_rfl⟩

/-! ### A confirmation -/

theorem get_takeOut {stock left : StockByCode} {code : String} {quantity : ℕ}
    (ok : takeOut stock code quantity = .ok left) :
    AssocTotals.get left.byCode code = AssocTotals.get stock.byCode code - quantity := by
  by_cases enough : (quantity : ℚ) ≤ AssocTotals.get stock.byCode code
  · simp only [takeOut, dif_pos enough, Except.ok.injEq] at ok
    rw [← ok, AssocTotals.get_set_self]
  · simp [takeOut, enough] at ok

/-- The lines take what they name out of the site's warehouse. -/
theorem get_applyMovements {lines : List CartLine} {stock left : ItemId → StockByCode}
    (ok : applyMovements shop stock lines = .ok left) (itemId : ItemId) :
    AssocTotals.get (left itemId).byCode shop.site = AssocTotals.get (stock itemId).byCode shop.site -
      sumWhere (fun l => decide (l.itemId = itemId)) (fun l => (l.quantity : ℚ)) lines := by
  induction lines generalizing stock with
  | nil =>
      rw [applyMovements, List.foldlM_nil, pure_eq_ok] at ok
      simp [ok]
  | cons l lines ih =>
      rw [applyMovements, List.foldlM_cons, bind_eq_ok] at ok
      obtain ⟨middle, first, rest⟩ := ok
      obtain ⟨taken, took, written⟩ := bind_eq_ok.mp first
      rw [pure_eq_ok] at written
      have there := ih rest
      rw [there, ← written, sumWhere_cons]
      by_cases same : l.itemId = itemId
      · subst same
        simp only [Function.update_self, decide_true, if_true, get_takeOut took]
        ring
      · simp [same, Function.update_of_ne (Ne.symm same)]

theorem Valid.confirm (h : Valid shop t) {order : Order} (mem : order ∈ t.orders)
    (isOpen : order.isOpen) {status : OrderStatus} (closes : status = .paid ∨ status = .confirmed)
    (free : ∀ l ∈ order.cart.lines, t.locks l.itemId = none) {stock : ItemId → StockByCode}
    (moved : applyMovements shop t.stock order.cart.lines = .ok stock) :
    Valid shop { t with
      stock := stock
      orders := SiteStock.withStatus t order.documentId status } := by
  have closed : status ∉ OPEN_ORDER_STATUSES := by
    rcases closes with rfl | rfl <;> decide
  have orders : ∀ itemId, openQuantity { t with
      stock := stock
      orders := SiteStock.withStatus t order.documentId status } itemId =
        openQuantity t itemId - order.cart.quantityOf itemId := by
    intro itemId
    rw [openQuantity_withStatus h.apart mem isOpen, if_neg closed]
  have left : ∀ itemId, siteStock shop { t with
      stock := stock
      orders := SiteStock.withStatus t order.documentId status } itemId =
        siteStock shop t itemId - order.cart.quantityOf itemId :=
    fun itemId => get_applyMovements moved itemId
  refine ⟨apart_withStatus h.apart _ _, numbered_withStatus h.numbered _ _, fun itemId => ?_,
    fun p => ?_⟩
  · rw [orders, left]
    exact sub_le_sub_right (h.covered itemId) _
  · refine (h.knows p).eases fun itemId lock => ?_
    have outside : order.cart.quantityOf itemId = 0 := by
      refine Cart.quantityOf_eq_zero fun l line same => ?_
      have unlocked := free l line
      rw [same, lock] at unlocked
      cases unlocked
    exact ⟨lock, by rw [orders, outside, sub_zero], by rw [left, outside, sub_zero]⟩

theorem Valid.move (h : Valid shop t) {itemId : ItemId} {stock : StockByCode}
    (free : t.locks itemId = none)
    (grows : siteStock shop t itemId ≤ AssocTotals.get stock.byCode shop.site) :
    Valid shop { t with stock := Function.update t.stock itemId stock } := by
  have stays : ∀ other, siteStock shop t other ≤
      siteStock shop { t with stock := Function.update t.stock itemId stock } other := by
    intro other
    by_cases same : other = itemId
    · subst same
      simpa [siteStock] using grows
    · simp [siteStock, Function.update_of_ne same]
  refine ⟨h.apart, h.numbered, fun other => (h.covered other).trans (stays other), fun p => ?_⟩
  exact (h.knows p).eases fun other lock => ⟨lock, le_rfl, stays other⟩

end


/-! ## Every run -/

/-- One step keeps the open orders covered. -/
theorem Valid.step {shop : Shop} {t t' : Tables} {op : Op} (h : Valid shop t)
    (within : ordersWithin shop t op = true) (ok : step shop t op = .ok t') : Valid shop t' := by
  cases op with
  | begin p cart =>
      cases place : t.placing p <;> simp only [SiteStock.step, place, reduceCtorEq] at ok
      simp only [bind_eq_ok, ensure_eq_ok, pure_eq_ok] at ok
      obtain ⟨_, free, rfl⟩ := ok
      exact h.begin free
  | report p =>
      cases place : t.placing p <;> simp only [SiteStock.step, place, reduceCtorEq] at ok
      exact Except.ok.inj ok ▸ h.report place
  | check p =>
      cases place : t.placing p <;> simp only [SiteStock.step, place, reduceCtorEq] at ok
      simp only [bind_eq_ok, forM_eq_ok, pure_eq_ok] at ok
      obtain ⟨_, passes, rfl⟩ := ok
      refine h.check place (fun l mem => ?_) passes
      simp only [ordersWithin, comparedLines, place, List.all_eq_true, Bool.or_eq_true,
        decide_eq_true_eq] at within
      exact within l mem
  | commit p refNumber onAccount =>
      cases place : t.placing p <;> simp only [SiteStock.step, place, reduceCtorEq] at ok
      refine Except.ok.inj ok ▸ h.commit place ?_ rfl rfl
      cases onAccount <;> simp [Order.isOpen, OPEN_ORDER_STATUSES]
  | abort p => exact Except.ok.inj ok ▸ h.abort p
  | confirm documentId status =>
      simp only [SiteStock.step, bind_eq_ok, ensure_eq_ok, pure_eq_ok] at ok
      obtain ⟨order, found, _, closes, _, free, _, _, stock, moved, rfl⟩ := ok
      obtain ⟨mem, isOpen, rfl⟩ := findOpen_ok found
      exact h.confirm mem isOpen closes free moved
  | cancel documentId =>
      simp only [SiteStock.step, bind_eq_ok, pure_eq_ok] at ok
      obtain ⟨order, found, rfl⟩ := ok
      obtain ⟨mem, isOpen, rfl⟩ := findOpen_ok found
      exact h.withStatus mem isOpen .cancelled
  | review documentId status =>
      simp only [SiteStock.step, bind_eq_ok, ensure_eq_ok, pure_eq_ok] at ok
      obtain ⟨order, found, _, _, rfl⟩ := ok
      obtain ⟨mem, isOpen, rfl⟩ := findOpen_ok found
      exact h.withStatus mem isOpen status
  | move itemId stock =>
      simp only [SiteStock.step, bind_eq_ok, ensure_eq_ok, pure_eq_ok] at ok
      obtain ⟨_, free, _, grows, rfl⟩ := ok
      exact h.move free grows

/-- The orders of a database: each has a document of its own, numbered so far. -/
structure Stored (orders : List Order) (nextDocument : ℕ) : Prop where
  apart : orders.Pairwise fun a b => a.documentId ≠ b.documentId
  numbered : ∀ order ∈ orders, order.documentId ≤ nextDocument

/-- In every run that starts with covered orders and orders an item only while it has
no open site order or no stock elsewhere, the open orders of each item fit into its
stock in the site's warehouse and each can be confirmed, in any order. -/
theorem open_orders_are_covered (shop : Shop) (stock : ItemId → StockByCode) (orders : List Order)
    (nextDocument : ℕ) (stored : Stored orders nextDocument)
    (covered : Covered shop (start stock orders nextDocument)) (ops : List Op)
    (within : Along (step shop) (fun t op => ordersWithin shop t op = true)
      (start stock orders nextDocument) ops) (n : ℕ) :
    Safe shop (run (step shop) (start stock orders nextDocument) (ops.take n)) := by
  have begins : Valid shop (start stock orders nextDocument) :=
    ⟨stored.apart, stored.numbered, covered, fun _ => trivial⟩
  have valid : Valid shop (run (step shop) (start stock orders nextDocument) (ops.take n)) :=
    run_invariant_along (fun _ _ _ h meets ok => h.step meets ok) begins (within.take n)
  exact valid.safe

/-! ### Two orders of five pieces -/

def twoWarehouseShop : Shop where
  text := ⟨id, id⟩
  active := twoWarehouses
  site := "shop"
  trimmed := rfl
  resolves := by decide +kernel
  code _ := "K1"
  name _ := "glaze"

/-- Some pieces in the site's warehouse and some in the other. -/
def pieces (site elsewhere : ℕ) : ItemId → StockByCode := fun _ =>
  { byCode := [("shop", site), ("main", elsewhere)]
    codes_nodup := by simp
    valid := by
      intro row mem
      rcases List.mem_pair.mp mem with rfl | rfl
      · exact ⟨AtScale.natCast 4 site, site.cast_nonneg⟩
      · exact ⟨AtScale.natCast 4 elsewhere, elsewhere.cast_nonneg⟩ }

def fiveOf (itemId : ItemId) (stored : 0 < itemId) : Cart where
  lines := [⟨itemId, 5, stored, by decide⟩]
  distinct := by simp

/-- Two buyers order five pieces each, one after the other; the first is paid. -/
def twoOrders : List Op :=
  [.begin 1 (fiveOf 1 Nat.one_pos), .report 1, .check 1, .commit 1 "P-1" false,
    .begin 2 (fiveOf 1 Nat.one_pos), .report 2, .check 2, .commit 2 "P-2" false, .confirm 1 .paid]

theorem covered_at_first (site elsewhere : ℕ) :
    Covered twoWarehouseShop (start (pieces site elsewhere) [] 0) := by
  intro itemId
  show (0 : ℚ) ≤ siteStock twoWarehouseShop (start (pieces site elsewhere) [] 0) itemId
  simp [siteStock, start, pieces, twoWarehouseShop, AssocTotals.get]

theorem open_orders_are_covered_twice_five :
    Safe twoWarehouseShop
      (run (step twoWarehouseShop) (start (pieces 12 0) [] 0) (twoOrders.take 9)) :=
  open_orders_are_covered twoWarehouseShop (pieces 12 0) [] 0 ⟨List.Pairwise.nil, nofun⟩
    (covered_at_first 12 0) twoOrders (by decide +kernel) 9

/-- Five pieces in the site's warehouse and five in the other: both orders are taken,
ten are promised of the five, and after the first is paid the second cannot be. -/
theorem same_pieces_promised_twice :
    ¬ ∀ (shop : Shop) (stock : ItemId → StockByCode) (orders : List Order) (nextDocument : ℕ),
      Stored orders nextDocument → Covered shop (start stock orders nextDocument) →
        ∀ (ops : List Op) (n : ℕ),
          Safe shop (run (step shop) (start stock orders nextDocument) (ops.take n)) := by
  intro claim
  have safe := claim twoWarehouseShop (pieces 5 5) [] 0 ⟨List.Pairwise.nil, nofun⟩
    (covered_at_first 5 5) twoOrders 8
  have promised := safe.covered 1
  exact absurd promised (by decide +kernel)


end PapitalErp.SiteStock
