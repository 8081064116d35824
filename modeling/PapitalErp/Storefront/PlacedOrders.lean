import PapitalErp.Storefront.PlaceOrder

/-!
# The orders that were placed

In every order of the statements a request key has one order at most, a placement leaves its phone with
no more open orders than the limit, and an order has the prices and the amounts of its buyer.

The session is read twice. The account of the first reading goes into the fingerprint of the request, the
account of the second one into the order; when the session ends in between, the order is a guest's with
the fingerprint of the account, and the account is answered with it later.
-/

namespace PapitalErp.PlaceOrder

open Interleaving Transition SiteOrders Tables

variable {H : Type}

/-! ## What is promised -/

/-- The active group of an account. -/
def Shop.groupOf (shop : Shop) (accountId : Option ℕ) : Option BuyerGroup :=
  (accountId.bind shop.account).bind shop.activeGroupOf

/-- The order has the prices, the minimums and a payment method of its buyer. -/
structure PlacedOrder.Priced (site : Site H) (order : PlacedOrder H) : Prop where
  cart : PricedFor site.shop (site.shop.groupOf order.buyerAccountId) order.madeFrom.lines order.cart
  payment : paymentAllowed (site.shop.groupOf order.buyerAccountId) order.madeFrom.paymentMethod = true
  group : order.buyerGroupId = (site.shop.groupOf order.buyerAccountId).map BuyerGroup.id

/-- The payable amount is what the items, the discount and the shipping make, and the total of the proforma. -/
structure PlacedOrder.AddsUp (documents : List Proforma) (order : PlacedOrder H) : Prop where
  items : order.itemsAmount = order.cart.itemsAmount
  payable : order.payableAmount = order.itemsAmount - order.discountAmount + order.shippingAmount
  proforma : ∃ doc ∈ documents, doc.id = order.documentId ∧ doc.total = order.payableAmount

/-- A call whose key has an order is answered with it exactly when its content and its account are those
of the order. -/
structure Replay.Fair (replay : Replay H) : Prop where
  key : replay.order.requestKey = replay.requestKey
  answered : replay.answered = true ↔
    replay.content = replay.order.madeFrom ∧ replay.accountId = replay.order.buyerAccountId

structure Safe (site : Site H) (s : Tables H) : Prop where
  keys : s.orders.Pairwise fun order other => order.requestKey ≠ other.requestKey
  replays : ∀ replay ∈ s.replays, replay.Fair
  limit : ∀ count ∈ s.openAtCommit, count ≤ site.shop.openOrdersPerPhone
  priced : ∀ order ∈ s.orders, order.Priced site
  addsUp : ∀ order ∈ s.orders, order.AddsUp s.documents
  documents : s.documents.Pairwise fun doc other => doc.id ≠ other.id

/-- A placement reads the same account from its session in the transaction as before it. -/
def sessionKept (site : Site H) (weather : Weather) (s : Tables H) : Point H → Bool
  | .entering _ session accountId _ =>
      !weather.ok || (s.sessionAccount site session).map BuyerAccount.id = accountId
  | _ => true

def SessionKept (site : Site H) (_ : ℕ) (weather : Weather) (s : Tables H) (point : Point H) : Prop :=
  sessionKept site weather s point = true

instance (site : Site H) (i : ℕ) (weather : Weather) (s : Tables H) (point : Point H) :
    Decidable (SessionKept site i weather s point) :=
  inferInstanceAs (Decidable (_ = true))

/-! ## The invariant -/

structure Valid (site : Site H) (s : Tables H) : Prop extends Safe site s where
  hashes : ∀ order ∈ s.orders, order.requestHash = site.requestHashOf (order.madeFrom, order.buyerAccountId)
  nextDocument : ∀ doc ∈ s.documents, doc.id < s.nextDocument

/-- The fingerprint of a call. -/
def Fingerprint (site : Site H) (order : CleanOrder) (accountId : Option ℕ) (requestHash : H) : Prop :=
  requestHash = site.requestHashOf (order.toContent, accountId)

/-- The buyer of a placement is the account of its fingerprint, and may pay as it asks. -/
structure Buys (site : Site H) (order : CleanOrder) (accountId : Option ℕ) (buyer : Option BuyerAccount) : Prop where
  account : buyer.map BuyerAccount.id = accountId
  group : buyer.bind site.shop.activeGroupOf = site.shop.groupOf accountId
  payment : paymentAllowed (buyer.bind site.shop.activeGroupOf) order.paymentMethod = true

def Knows (site : Site H) (i : ℕ) (s : Tables H) : Point H → Prop
  | .signedIn order _ accountId requestHash | .entering order _ accountId requestHash
  | .raced order accountId requestHash => Fingerprint site order accountId requestHash
  | .bought order accountId requestHash buyer =>
      Fingerprint site order accountId requestHash ∧ Buys site order accountId buyer
  | .locked order accountId requestHash buyer =>
      Fingerprint site order accountId requestHash ∧ Buys site order accountId buyer ∧
        s.phoneLocks (site.hashtext order.phoneKey) = some i
  | .counted order accountId requestHash buyer =>
      Fingerprint site order accountId requestHash ∧ Buys site order accountId buyer ∧
        s.phoneLocks (site.hashtext order.phoneKey) = some i ∧
        s.openOrders order.phoneKey < site.shop.openOrdersPerPhone
  | .sent _ | .ended => True

/-- What the others see of a statement: a phone whose lock they have gets no more open orders. -/
def Leaves (site : Site H) (i : ℕ) (s s' : Tables H) : Prop :=
  ∀ phoneKey j, j ≠ i → s.phoneLocks (site.hashtext phoneKey) = some j →
    s'.phoneLocks (site.hashtext phoneKey) = some j ∧ s'.openOrders phoneKey ≤ s.openOrders phoneKey

structure Outcome (site : Site H) (i : ℕ) (s : Tables H) (out : Tables H × Point H) : Prop where
  leaves : Leaves site i s out.1
  valid : Valid site out.1
  knows : Knows site i out.1 out.2

variable {site : Site H} {s s' : Tables H} {i j : ℕ} {order : CleanOrder} {session accountId : Option ℕ}
  {requestHash : H} {buyer : Option BuyerAccount}

theorem Knows.of_leaves {point : Point H} (apart : j ≠ i) (knows : Knows site j s point)
    (leaves : Leaves site i s s') : Knows site j s' point := by
  cases point with
  | signedIn | entering | raced | bought | sent | ended => exact knows
  | locked =>
      obtain ⟨fingerprint, buys, lock⟩ := knows
      exact ⟨fingerprint, buys, (leaves _ j apart lock).1⟩
  | counted =>
      obtain ⟨fingerprint, buys, lock, room⟩ := knows
      obtain ⟨lock', fewer⟩ := leaves _ j apart lock
      exact ⟨fingerprint, buys, lock', fewer.trans_lt room⟩

/-! ### Statements that write no order -/

/-- Rows that no order depends on change. -/
theorem Valid.of_rows (valid : Valid site s) (orders : s'.orders = s.orders) (documents : s'.documents = s.documents)
    (next : s'.nextDocument = s.nextDocument) (counts : s'.openAtCommit = s.openAtCommit)
    (replays : ∀ replay ∈ s'.replays, replay.Fair) : Valid site s' := by
  obtain ⟨⟨keys, -, limit, priced, addsUp, apart⟩, hashes, below⟩ := valid
  rw [← orders] at keys priced addsUp hashes
  rw [← counts] at limit
  rw [← documents] at addsUp apart below
  rw [← next] at below
  exact ⟨⟨keys, replays, limit, priced, addsUp, apart⟩, hashes, below⟩

theorem leaves_refl (site : Site H) (i : ℕ) (s : Tables H) : Leaves site i s s :=
  fun _ _ _ held => ⟨held, le_rfl⟩

theorem leaves_endTransaction (site : Site H) (i : ℕ) (s : Tables H) : Leaves site i s (s.endTransaction i) :=
  fun _ _ apart held => ⟨Locks.release_keeps apart held, le_rfl⟩

theorem Leaves.trans {s'' : Tables H} (first : Leaves site i s s') (second : Leaves site i s' s'') :
    Leaves site i s s'' := by
  intro phoneKey j apart held
  obtain ⟨held', fewer⟩ := first phoneKey j apart held
  obtain ⟨held'', fewer'⟩ := second phoneKey j apart held'
  exact ⟨held'', fewer'.trans fewer⟩

theorem outcome_refuse (valid : Valid site s) : Outcome site i s (s.refuse i) :=
  ⟨leaves_endTransaction site i s, valid.of_rows rfl rfl rfl rfl valid.replays, trivial⟩

theorem outcome_go {next : Point H} (valid : Valid site s) (knows : Knows site i s next) :
    Outcome site i s (s, next) :=
  ⟨leaves_refl site i s, valid, knows⟩

/-! ### Replays -/

theorem findByRequestKey_some {requestKey : String} {existing : PlacedOrder H}
    (found : s.findByRequestKey requestKey = some existing) :
    existing ∈ s.orders ∧ existing.requestKey = requestKey :=
  ⟨List.mem_of_find?_eq_some found, by simpa using List.find?_some found⟩

/-- A call is answered by the fingerprint of the order with its key. -/
theorem replay_outcome [DecidableEq H] (sound : Function.Injective site.requestHashOf) (valid : Valid site s)
    (fingerprint : Fingerprint site order accountId requestHash) {existing : PlacedOrder H}
    (found : s.findByRequestKey order.requestKey = some existing) :
    Outcome site i s (s.replay order accountId requestHash existing, .ended) := by
  refine ⟨fun _ _ _ held => ⟨held, le_rfl⟩, valid.of_rows rfl rfl rfl rfl fun replay mem => ?_, trivial⟩
  obtain old | new := List.mem_append.mp mem
  · exact valid.replays replay old
  · obtain rfl := List.mem_singleton.mp new
    obtain ⟨known, key⟩ := findByRequestKey_some found
    refine ⟨key, ?_⟩
    dsimp only
    rw [decide_eq_true_eq, valid.hashes existing known, fingerprint, sound.eq_iff, Prod.mk.injEq]
    exact and_congr eq_comm eq_comm

/-! ### Cancellations -/

/-- Orders are only cancelled, so a phone has no more open ones. -/
theorem cancel_outcome (valid : Valid site s) (which : PlacedOrder H → Bool) :
    Outcome site i s (s.cancel which, .ended) := by
  have kept : ∀ order ∈ (s.cancel which).orders, ∃ old ∈ s.orders, order = old ∨ order = { old with status := .cancelled } := by
    intro order mem
    obtain ⟨old, oldMem, rfl⟩ := List.mem_map.mp mem
    refine ⟨old, oldMem, ?_⟩
    split_ifs
    · exact .inr rfl
    · exact .inl rfl
  refine ⟨fun phoneKey j _ held => ⟨held, ?_⟩, ⟨⟨?_, valid.replays, valid.limit, ?_, ?_, valid.documents⟩, ?_,
    valid.nextDocument⟩, trivial⟩
  · show (s.orders.map _).countP _ ≤ s.orders.countP _
    rw [List.countP_map]
    refine List.countP_mono_left fun order _ => ?_
    simp only [Function.comp_apply]
    split_ifs
    · simp [isOpen, OPEN_ORDER_STATUSES]
    · exact id
  · refine List.Pairwise.map _ (fun order other apart => ?_) valid.keys
    split_ifs <;> exact apart
  · intro order mem
    obtain ⟨old, oldMem, rfl | rfl⟩ := kept order mem
    · exact valid.priced _ oldMem
    · obtain ⟨cart, payment, group⟩ := valid.priced _ oldMem
      exact ⟨cart, payment, group⟩
  · intro order mem
    obtain ⟨old, oldMem, rfl | rfl⟩ := kept order mem
    · exact valid.addsUp _ oldMem
    · obtain ⟨items, payable, proforma⟩ := valid.addsUp _ oldMem
      exact ⟨items, payable, proforma⟩
  · intro order mem
    obtain ⟨old, oldMem, rfl | rfl⟩ := kept order mem
    · exact valid.hashes _ oldMem
    · exact valid.hashes old oldMem

/-! ### Placements -/

theorem discountOf_le {shop : Shop} {discountCode : Option String} {items discount : ℕ} {codeApplies : Bool}
    (chosen : shop.discountOf discountCode items codeApplies = .ok discount) : discount ≤ items := by
  unfold Shop.discountOf at chosen
  split at chosen
  · cases chosen
    exact Nat.zero_le _
  · unfold Shop.chooseDiscount at chosen
    split at chosen
    · cases chosen
    · split_ifs at chosen
      cases chosen
      exact discountAmountOf_le _ _

theorem priceOrder_ok {shop : Shop} {content : Content} {group : Option BuyerGroup} {codeApplies : Bool}
    {cart : PricedCart} {discount shipping : ℕ}
    (accepted : shop.priceOrder content group codeApplies = .ok (cart, discount, shipping)) :
    PricedFor shop group content.lines cart ∧ discount ≤ cart.itemsAmount := by
  simp only [Shop.priceOrder, bind_eq_ok, pure_eq_ok, Prod.mk.injEq] at accepted
  obtain ⟨cart, priced, discount, chosen, shipping, -, rfl, rfl, rfl⟩ := accepted
  exact ⟨priceCart_pricedFor priced, discountOf_le chosen⟩

/-- In the transaction a live session has its account. -/
theorem sessionAccount_buys (kept : (s.sessionAccount site session).map BuyerAccount.id = accountId)
    (allowed : paymentAllowed ((s.sessionAccount site session).bind site.shop.activeGroupOf) order.paymentMethod = true) :
    Buys site order accountId (s.sessionAccount site session) := by
  refine ⟨kept, ?_, allowed⟩
  rw [← kept, Shop.groupOf]
  cases found : s.sessionAccount site session with
  | none => rfl
  | some account =>
      obtain ⟨row, -⟩ := Option.filter_eq_some_iff.mp found
      obtain ⟨id, -, row⟩ := Option.bind_eq_some_iff.mp row
      obtain rfl := site.shop.account_id row
      simp only [Option.map_some, Option.bind_some, row]

variable {cart : PricedCart} {discount shipping : ℕ}

/-- The payable amount is made as an integer. -/
theorem money_payable (fits : discount ≤ cart.itemsAmount) :
    money ((cart.itemsAmount - discount + shipping : ℤ) : ℚ) = cart.itemsAmount - discount + shipping := by
  have whole : ((cart.itemsAmount - discount + shipping : ℤ) : ℚ) = ((cart.itemsAmount - discount + shipping : ℕ) : ℚ) := by
    push_cast [Nat.cast_sub fits]
    ring
  rw [whole, money_natCast]
  push_cast [Nat.cast_sub fits]
  ring

theorem orderRow_addsUp (fits : discount ≤ cart.itemsAmount) (documents : List Proforma) :
    (s.orderRow site order requestHash buyer cart discount shipping).AddsUp
      (documents ++ [s.proforma cart discount shipping]) := by
  refine ⟨money_natCast _, ?_, _, List.mem_append_right _ (List.mem_singleton_self _), rfl, ?_⟩
  · show money _ = money _ - money _ + money _
    rw [money_payable fits, money_natCast, money_natCast, money_natCast]
  · show (proformaOf _ _ _ _).total = money _
    rw [proformaOf_total _ _ fits, money_payable fits]

theorem PlacedOrder.AddsUp.append {row : PlacedOrder H} {documents : List Proforma} (h : row.AddsUp documents)
    (later : List Proforma) : row.AddsUp (documents ++ later) := by
  obtain ⟨items, payable, doc, mem, id, total⟩ := h
  exact ⟨items, payable, doc, List.mem_append_left _ mem, id, total⟩

/-- An insertion opens one order, of its own phone. -/
theorem openOrders_insert (phoneKey : String) :
    (s.insert site order requestHash buyer cart discount shipping).openOrders phoneKey ≤
      s.openOrders phoneKey + if order.phoneKey = phoneKey then 1 else 0 := by
  show (s.orders ++ [_]).countP _ ≤ s.orders.countP _ + _
  rw [List.countP_append, List.countP_cons, List.countP_nil]
  have same : (s.orderRow site order requestHash buyer cart discount shipping).madeFrom.phoneKey = order.phoneKey := rfl
  by_cases own : order.phoneKey = phoneKey
  · rw [if_pos own]
    split_ifs <;> omega
  · rw [if_neg own, same]
    simp [own]

theorem insert_outcome (valid : Valid site s) (fingerprint : Fingerprint site order accountId requestHash)
    (buys : Buys site order accountId buyer) (lock : s.phoneLocks (site.hashtext order.phoneKey) = some i)
    (room : s.openOrders order.phoneKey < site.shop.openOrdersPerPhone)
    (priced : PricedFor site.shop (buyer.bind site.shop.activeGroupOf) order.lines cart)
    (fits : discount ≤ cart.itemsAmount) (free : s.findByRequestKey order.requestKey = none) :
    Outcome site i s ((s.insert site order requestHash buyer cart discount shipping).endTransaction i, .ended) := by
  obtain ⟨account, group, payment⟩ := buys
  have groupOf : site.shop.groupOf (buyer.map BuyerAccount.id) = buyer.bind site.shop.activeGroupOf := by
    rw [account, group]
  have inserts : Leaves site i s (s.insert site order requestHash buyer cart discount shipping) := by
    intro phoneKey j apart held
    refine ⟨held, openOrders_insert phoneKey |>.trans ?_⟩
    have other : order.phoneKey ≠ phoneKey := by
      rintro rfl
      exact apart (Option.some.inj (held.symm.trans lock))
    rw [if_neg other, Nat.add_zero]
  have inserted : Valid site (s.insert site order requestHash buyer cart discount shipping) := by
    refine ⟨⟨?_, valid.replays, ?_, ?_, ?_, ?_⟩, ?_, ?_⟩
    · refine List.pairwise_append.mpr ⟨valid.keys, List.pairwise_singleton _ _, fun old mem row rowMem => ?_⟩
      obtain rfl := List.mem_singleton.mp rowMem
      show old.requestKey ≠ order.requestKey
      simpa using List.find?_eq_none.mp free old mem
    · intro count mem
      obtain old | new := List.mem_append.mp mem
      · exact valid.limit count old
      · obtain rfl := List.mem_singleton.mp new
        have opened : (s.insert site order requestHash buyer cart discount shipping).openOrders order.phoneKey ≤
            s.openOrders order.phoneKey + if order.phoneKey = order.phoneKey then 1 else 0 := openOrders_insert _
        rw [if_pos rfl] at opened
        exact opened.trans room
    · intro row mem
      obtain old | new := List.mem_append.mp mem
      · exact valid.priced row old
      · obtain rfl := List.mem_singleton.mp new
        refine ⟨?_, ?_, ?_⟩
        · show PricedFor _ (site.shop.groupOf (buyer.map BuyerAccount.id)) _ _
          rw [groupOf]
          exact priced
        · show paymentAllowed (site.shop.groupOf (buyer.map BuyerAccount.id)) _ = true
          rw [groupOf]
          exact payment
        · show (buyer.bind site.shop.activeGroupOf).map BuyerGroup.id = _
          rw [← groupOf]
          rfl
    · intro row mem
      obtain old | new := List.mem_append.mp mem
      · exact (valid.addsUp row old).append _
      · obtain rfl := List.mem_singleton.mp new
        exact orderRow_addsUp fits _
    · refine List.pairwise_append.mpr ⟨valid.documents, List.pairwise_singleton _ _, fun old mem doc docMem => ?_⟩
      obtain rfl := List.mem_singleton.mp docMem
      exact (valid.nextDocument old mem).ne
    · intro row mem
      obtain old | new := List.mem_append.mp mem
      · exact valid.hashes row old
      · obtain rfl := List.mem_singleton.mp new
        show requestHash = site.requestHashOf (order.toContent, buyer.map BuyerAccount.id)
        rw [account]
        exact fingerprint
    · intro doc mem
      obtain old | new := List.mem_append.mp mem
      · exact (valid.nextDocument doc old).trans (Nat.lt_succ_self _)
      · obtain rfl := List.mem_singleton.mp new
        exact Nat.lt_succ_self _
  exact ⟨inserts.trans (leaves_endTransaction site i _),
    inserted.of_rows rfl rfl rfl rfl inserted.replays, trivial⟩

/-! ### Runs -/

variable [DecidableEq H]

theorem statement_outcome (sound : Function.Injective site.requestHashOf) {weather : Weather} {point : Point H}
    {out : Tables H × Point H} (valid : Valid site s) (knows : Knows site i s point)
    (kept : ∀ order session accountId requestHash, point = .entering order session accountId requestHash →
      (s.sessionAccount site session).map BuyerAccount.id = accountId)
    (runs : statement site i weather s point = some out) : Outcome site i s out := by
  cases point with
  | sent request =>
      cases request with
      | placeOrder order session =>
          obtain rfl := Option.some.inj runs
          exact outcome_go valid rfl
      | startSession session accountId =>
          obtain rfl := Option.some.inj runs
          exact ⟨leaves_refl site i s, valid.of_rows rfl rfl rfl rfl valid.replays, trivial⟩
      | endSession session =>
          obtain rfl := Option.some.inj runs
          exact ⟨leaves_refl site i s, valid.of_rows rfl rfl rfl rfl valid.replays, trivial⟩
      | cancelOrder orderId =>
          obtain rfl := Option.some.inj runs
          exact cancel_outcome valid _
      | expireDueOrdersOnce due =>
          obtain rfl := Option.some.inj runs
          exact cancel_outcome valid _
  | signedIn order session accountId requestHash =>
      simp only [statement] at runs
      cases found : s.findByRequestKey order.requestKey with
      | some existing =>
          rw [found] at runs
          obtain rfl := Option.some.inj runs
          exact replay_outcome sound valid knows found
      | none =>
          rw [found] at runs
          obtain rfl := Option.some.inj runs
          exact outcome_go valid knows
  | entering order session accountId requestHash =>
      simp only [statement] at runs
      split_ifs at runs with allowed
      · obtain rfl := Option.some.inj runs
        exact outcome_go valid ⟨knows, sessionAccount_buys (kept _ _ _ _ rfl) allowed⟩
      · obtain rfl := Option.some.inj runs
        exact outcome_refuse valid
  | bought order accountId requestHash buyer =>
      obtain ⟨fingerprint, buys⟩ := knows
      obtain ⟨phoneLocks, taken, rfl⟩ := Option.map_eq_some_iff.mp runs
      refine ⟨fun phoneKey j apart held => ⟨?_, le_rfl⟩, valid.of_rows rfl rfl rfl rfl valid.replays,
        fingerprint, buys, Locks.take_self taken⟩
      obtain kept | ⟨-, mine⟩ := Locks.take_keeps taken held
      · exact kept
      · exact absurd mine apart
  | locked order accountId requestHash buyer =>
      obtain ⟨fingerprint, buys, lock⟩ := knows
      simp only [statement] at runs
      split_ifs at runs with full
      · obtain rfl := Option.some.inj runs
        exact outcome_refuse valid
      · obtain rfl := Option.some.inj runs
        exact outcome_go valid ⟨fingerprint, buys, lock, not_le.mp full⟩
  | counted order accountId requestHash buyer =>
      obtain ⟨fingerprint, buys, lock, room⟩ := knows
      simp only [statement] at runs
      cases priced : site.shop.priceOrder order.toContent (buyer.bind site.shop.activeGroupOf) weather.codeApplies with
      | error =>
          rw [priced] at runs
          obtain rfl := Option.some.inj runs
          exact outcome_refuse valid
      | ok amounts =>
          obtain ⟨cart, discount, shipping⟩ := amounts
          rw [priced] at runs
          dsimp only at runs
          obtain ⟨pricedFor, fits⟩ := priceOrder_ok priced
          cases found : s.findByRequestKey order.requestKey with
          | some existing =>
              rw [found] at runs
              obtain rfl := Option.some.inj runs
              exact ⟨leaves_endTransaction site i s, valid.of_rows rfl rfl rfl rfl valid.replays, fingerprint⟩
          | none =>
              rw [found] at runs
              obtain rfl := Option.some.inj runs
              exact insert_outcome valid fingerprint buys lock room pricedFor fits found
  | raced order accountId requestHash =>
      simp only [statement] at runs
      cases found : s.findByRequestKey order.requestKey with
      | some existing =>
          rw [found] at runs
          obtain rfl := Option.some.inj runs
          exact replay_outcome sound valid knows found
      | none =>
          rw [found] at runs
          obtain rfl := Option.some.inj runs
          exact outcome_go valid trivial
  | ended => cases runs

theorem requests_outcome (sound : Function.Injective site.requestHashOf) {weather : Weather} {point : Point H}
    {out : Tables H × Point H} (valid : Valid site s) (knows : Knows site i s point)
    (meets : SessionKept site i weather s point) (runs : requests site i weather s point = some out) :
    Outcome site i s out := by
  unfold requests at runs
  split_ifs at runs with ok
  · refine statement_outcome sound valid knows ?_ runs
    rintro order session accountId requestHash rfl
    simpa [SessionKept, sessionKept, ok] using meets
  · obtain rfl := Option.some.inj runs
    exact outcome_refuse valid

theorem outline (sound : Function.Injective site.requestHashOf) :
    Outline (requests site) (SessionKept site) (Valid site) (Knows site) where
  own valid knows meets runs :=
    have outcome := requests_outcome sound valid knows meets runs
    ⟨outcome.valid, outcome.knows⟩
  others apart valid knows known meets runs :=
    known.of_leaves apart (requests_outcome sound valid knows meets runs).leaves

omit [DecidableEq H] in
theorem start_holds (site : Site H) (request : ℕ → Request) : Holds (Valid site) (Knows site) (start H request) where
  shared :=
    { keys := .nil
      replays := fun _ mem => by cases mem
      limit := fun _ mem => by cases mem
      priced := fun _ mem => by cases mem
      addsUp := fun _ mem => by cases mem
      documents := .nil
      hashes := fun _ mem => by cases mem
      nextDocument := fun _ mem => by cases mem }
  locals := fun _ => trivial

/-- Where the condition is met, at any moment the orders, the answers and the counts are as promised. -/
theorem orders_are_placed_once (site : Site H) (sound : Function.Injective site.requestHashOf) (request : ℕ → Request)
    (schedule : List (ℕ × Weather)) (meets : (requests site).Meets (SessionKept site) (start H request) schedule) :
    ∀ n, Safe site ((requests site).after (start H request) (schedule.take n)).shared := by
  intro n
  exact ((outline sound).after_meets (start_holds site request) (meets.take n)).shared.toSafe

/-- A shop with one lamp, cheaper for its wholesale group. -/
def lampShop : Shop where
  openOrdersPerPhone := 1
  freeShippingThreshold := none
  onSale slug := if slug = "lamp" then some ⟨1, [], ⟨500000, by decide⟩, none⟩ else none
  price list _ := if list = "wholesale" then some ⟨400000, by decide⟩ else none
  account id := if id = 7 then some ⟨7, true, true, some 1⟩ else none
  account_id := by
    intro id row found
    split_ifs at found with same
    obtain rfl := Option.some.inj found
    exact same.symm
  group id := if id = 1 then some ⟨1, "wholesale", false, [], 1, ⟨0, by decide⟩, true, true, true, false⟩ else none
  methods := [⟨"post", .flat, ⟨20000, by decide⟩, false, []⟩]
  discount _ := none

def lampSite : Site (Content × Option ℕ) := ⟨lampShop, id, fun _ => 0⟩

def lampOrder : CleanOrder :=
  { recipientName := "Sara"
    phone := "09120000000"
    phoneKey := "9120000000"
    province := "Tehran"
    city := "Tehran"
    address := "Azadi 1"
    postalCode := "1234567890"
    note := ""
    shippingMethod := "post"
    lines := [⟨"lamp", 2⟩]
    paymentMethod := .card
    discountCode := none
    requestKey := "request-key-000001" }

/-- The account signs in, orders, and orders again; its first session may end. -/
def lampRequests (i : ℕ) : Request :=
  [.startSession 5 7, .placeOrder lampOrder (some 5), .endSession 5, .startSession 6 7,
    .placeOrder lampOrder (some 6)].getD i (.cancelOrder 1)

/-- So many statements of request `i` that nothing refuses. -/
def turns (i statements : ℕ) : List (ℕ × Weather) := List.replicate statements (i, ⟨true, true⟩)

/-- The first session ends after the order was placed, and the second call repeats the first. -/
theorem orders_are_placed_once_repeated :
    let schedule := turns 0 1 ++ turns 1 6 ++ turns 2 1 ++ turns 3 1 ++ turns 4 2
    (∀ n, Safe lampSite ((requests lampSite).after (start _ lampRequests) (schedule.take n)).shared) ∧
      ((requests lampSite).after (start _ lampRequests) schedule).shared.orders.length = 1 :=
  ⟨orders_are_placed_once lampSite Function.injective_id lampRequests _ (by decide +kernel), by decide +kernel⟩

/-- The first session ends between its two readings: the account is answered with a guest's order. -/
theorem account_answered_with_guest_order :
    ¬Safe lampSite ((requests lampSite).after (start _ lampRequests)
      (turns 0 1 ++ turns 1 2 ++ turns 2 1 ++ turns 1 4 ++ turns 3 1 ++ turns 4 2)).shared := by
  intro safe
  have unfair : ∃ replay ∈ ((requests lampSite).after (start _ lampRequests)
      (turns 0 1 ++ turns 1 2 ++ turns 2 1 ++ turns 1 4 ++ turns 3 1 ++ turns 4 2)).shared.replays,
      replay.answered = true ∧ replay.accountId ≠ replay.order.buyerAccountId := by
    decide +kernel
  obtain ⟨replay, mem, answered, other⟩ := unfair
  exact other ((safe.replays replay mem).answered.mp answered).2

end PapitalErp.PlaceOrder
