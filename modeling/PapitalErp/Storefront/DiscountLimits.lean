import PapitalErp.Storefront.SiteOrderRuns

/-!
# The limits of discount codes

The uses of a code are counted under the lock of its row, so its limits hold in every
schedule. The earlier orders of a buyer are read under the lock of the phone and of one code:
two placements of one account with two phones and two codes share neither, and both may pass
the check of a first order. In a schedule where no placement makes that check while another
one of its account has passed it and is open, the limit to the first order holds as well.
-/

namespace PapitalErp.SiteOrders

open Interleaving FilteredSums

/-! ## Limits -/

/-- The live uses of a code by some buyers. -/
def SiteTables.uses (t : SiteTables) (codeId : ℕ) (buyer : String → Option ℕ → Bool) : ℕ :=
  t.redemptions.countP fun use => decide (use.codeId = codeId ∧ use.releasedAt = none) &&
    buyer use.phoneKey use.buyerAccountId

/-- A live order with a code that is limited to the first order. -/
def SiteOrder.FirstOrder (codes : ℕ → DiscountCode) (order : SiteOrder) : Prop :=
  order.status ≠ .cancelled ∧ ∃ codeId ∈ order.discountCodeId, (codes codeId).firstOrderOnly = true

/-- No phone and no account in common. -/
def SiteOrder.Apart (phoneKey : String) (account : Option ℕ) (order : SiteOrder) : Prop :=
  order.phoneKey ≠ phoneKey ∧ ∀ a ∈ account, order.buyerAccountId ≠ some a

structure WithinLimits (codes : ℕ → DiscountCode) (t : SiteTables) : Prop where
  uses : ∀ codeId, 0 < (codes codeId).usageLimit → t.usesOf codeId ≤ (codes codeId).usageLimit
  phone : ∀ codeId phoneKey, 0 < (codes codeId).perBuyerLimit →
    t.uses codeId (fun phone _ => phone == phoneKey) ≤ (codes codeId).perBuyerLimit
  account : ∀ codeId account, 0 < (codes codeId).perBuyerLimit →
    t.uses codeId (fun _ a => a == some account) ≤ (codes codeId).perBuyerLimit
  first : t.orders.Pairwise fun a b => a.FirstOrder codes → b.FirstOrder codes →
    a.Apart b.phoneKey b.buyerAccountId

/-! ## What a placement knows -/

/-- A placement at a code it holds and may be first with. -/
structure ChecksCode (codes : ℕ → DiscountCode) (i : ℕ) (t : SiteTables) (cart : CleanOrder)
    (codeId : ℕ) : Prop where
  lock : t.locks (.code codeId) = some i
  first : (codes codeId).firstOrderOnly = true → (i, cart.buyerAccountId) ∈ t.checking ∧
    ∀ order ∈ t.orders, order.FirstOrder codes → order.Apart cart.phoneKey cart.buyerAccountId

/-- The uses of the code leave room. -/
structure CountsCode (codes : ℕ → DiscountCode) (i : ℕ) (t : SiteTables) (cart : CleanOrder)
    (codeId : ℕ) : Prop where
  checks : ChecksCode codes i t cart codeId
  uses : 0 < (codes codeId).usageLimit → t.usesOf codeId < (codes codeId).usageLimit

structure ChoosesCode (codes : ℕ → DiscountCode) (i : ℕ) (t : SiteTables) (cart : CleanOrder)
    (codeId : ℕ) : Prop where
  counts : CountsCode codes i t cart codeId
  buyer : 0 < (codes codeId).perBuyerLimit →
    t.usesOfBuyer codeId cart.phoneKey cart.buyerAccountId < (codes codeId).perBuyerLimit

def Placing (codes : ℕ → DiscountCode) (i : ℕ) (t : SiteTables) (cart : CleanOrder) : SiteProgress → Prop
  | .pricing _ => t.locks (.phone cart.phoneKey) = some i
  | .choosing _ => t.locks (.phone cart.phoneKey) = some i ∧
      ∀ choice ∈ cart.choice, t.locks (.code choice.1) = some i
  | .counting _ => t.locks (.phone cart.phoneKey) = some i ∧
      ∀ choice ∈ cart.choice, ChecksCode codes i t cart choice.1
  | .counted _ => t.locks (.phone cart.phoneKey) = some i ∧
      ∀ choice ∈ cart.choice, CountsCode codes i t cart choice.1
  | .chosen _ => t.locks (.phone cart.phoneKey) = some i ∧
      ∀ choice ∈ cart.choice, ChoosesCode codes i t cart choice.1
  | _ => True

def KnowsLimits (codes : ℕ → DiscountCode) (request : SiteRequest) (i : ℕ) (t : SiteTables)
    (progress : SiteProgress) : Prop :=
  ∀ cart, request = .placeOrder cart → Placing codes i t cart progress

/-- The accounts of the open placements that passed the first-order check differ. -/
def Alone (t : SiteTables) : Prop :=
  t.checking.Pairwise fun entry other => ∀ a ∈ entry.2, other.2 ≠ some a

/-- A placement checks that its order is the first one while no other placement of its account
that passed the check is open. -/
def FirstAlone (codes : ℕ → DiscountCode) (requests : ℕ → SiteRequest) (i : ℕ) (turn : SiteTurn)
    (t : SiteTables) (progress : SiteProgress) : Prop :=
  match turn, progress, requests i with
  | .proceed _ _, .choosing _, .placeOrder cart =>
      ∀ choice ∈ cart.choice, (codes choice.1).firstOrderOnly = true →
        ∀ a ∈ cart.buyerAccountId, ∀ entry ∈ t.checking, entry.2 ≠ some a
  | _, _, _ => True

instance (codes : ℕ → DiscountCode) (requests : ℕ → SiteRequest) (i : ℕ) (turn : SiteTurn)
    (t : SiteTables) (progress : SiteProgress) :
    Decidable (FirstAlone codes requests i turn t progress) := by
  unfold FirstAlone
  split <;> infer_instance

section Outline

variable {codes : ℕ → DiscountCode} {requests : ℕ → SiteRequest} {request : SiteRequest} {i j id codeId : ℕ}
  {t t' : SiteTables} {progress next : SiteProgress} {order : SiteOrder} {now : ℤ} {c : OrderCommit}
  {due : List ℕ} {cart : CleanOrder} {buyer : String → Option ℕ → Bool}

/-! ## Statements that open no use -/

/-- Uses only go back, and orders only lose their place. -/
structure Eases (i : ℕ) (t t' : SiteTables) : Prop where
  uses : ∀ codeId buyer, t'.uses codeId buyer ≤ t.uses codeId buyer
  orders : ∃ change : SiteOrder → SiteOrder, t'.orders = t.orders.map change ∧ ∀ order ∈ t.orders,
    (change order).phoneKey = order.phoneKey ∧ (change order).buyerAccountId = order.buyerAccountId ∧
    (change order).discountCodeId = order.discountCodeId ∧
    (order.status = .cancelled → (change order).status = .cancelled)
  checking : ∀ j ≠ i, ∀ account, (j, account) ∈ t.checking → (j, account) ∈ t'.checking
  fewer : t'.checking.Sublist t.checking

theorem Eases.of_rows (orders : t'.orders = t.orders) (redemptions : t'.redemptions = t.redemptions)
    (checking : ∀ j ≠ i, ∀ account, (j, account) ∈ t.checking → (j, account) ∈ t'.checking)
    (fewer : t'.checking.Sublist t.checking) : Eases i t t' := by
  refine ⟨fun codeId buyer => ?_, ⟨id, ?_, fun _ _ => ⟨rfl, rfl, rfl, id⟩⟩, checking, fewer⟩
  · simp only [SiteTables.uses, redemptions, le_refl]
  · rw [orders, List.map_id]

theorem Eases.refl (i : ℕ) (t : SiteTables) : Eases i t t :=
  .of_rows rfl rfl (fun _ _ _ => id) (List.Sublist.refl _)

theorem Eases.locks (i : ℕ) (t : SiteTables) (locks : Locks SiteLock ℕ) : Eases i t { t with locks } :=
  .of_rows rfl rfl (fun _ _ _ => id) (List.Sublist.refl _)

theorem Eases.tick (i : ℕ) (t : SiteTables) (elapsed : ℕ) : Eases i t (t.tick elapsed) :=
  .of_rows rfl rfl (fun _ _ _ => id) (List.Sublist.refl _)

theorem Eases.finish (i : ℕ) (due : List ℕ) (t : SiteTables) : Eases i t (finish i due t).1 := by
  refine .of_rows rfl rfl (fun j apart account mem => ?_) List.filter_sublist
  exact List.mem_filter.mpr ⟨mem, by simpa using apart⟩

theorem Eases.trans {t'' : SiteTables} (h : Eases i t t') (h' : Eases i t' t'') : Eases i t t'' := by
  obtain ⟨change, rows, kept⟩ := h.orders
  obtain ⟨change', rows', kept'⟩ := h'.orders
  refine ⟨fun codeId buyer => (h'.uses codeId buyer).trans (h.uses codeId buyer),
    ⟨change' ∘ change, by rw [rows', rows, List.map_map], fun order mem => ?_⟩,
    fun j apart account mem => h'.checking j apart account (h.checking j apart account mem),
    h'.fewer.trans h.fewer⟩
  have there : change order ∈ t'.orders := rows ▸ List.mem_map_of_mem mem
  obtain ⟨phone, account, code, cancelled⟩ := kept order mem
  obtain ⟨phone', account', code', cancelled'⟩ := kept' _ there
  exact ⟨phone'.trans phone, account'.trans account, code'.trans code,
    fun status => cancelled' (cancelled status)⟩

theorem Eases.commit (h : t.Valid) (mem : order ∈ t.orders) (fits : c.Fits (t.file order)) :
    Eases i t (t.commit now order c) := by
  have follows := fits.follows (h.sound order mem).receipts
  have live : order.status ≠ .cancelled := not_cancelled_of_next follows
  refine ⟨fun codeId buyer => ?_, ⟨_, SiteTables.commit_orders t now order c, fun o known => ?_⟩, ?_, ?_⟩
  · cases c with
    | cancel reason =>
        show (t.redemptions.map _).countP _ ≤ _
        rw [List.countP_map]
        refine List.countP_mono_left fun use _ => ?_
        simp only [Function.comp_apply]
        split <;> simp
    | submit | pay | approve | reject | ship | deliver => exact le_rfl
  · split
    · rename_i same
      obtain rfl := eq_of_key_eq h.linked.orders known mem same
      refine ⟨?_, ?_, ?_, fun cancelled => absurd cancelled live⟩ <;> cases c <;> rfl
    · exact ⟨rfl, rfl, rfl, id⟩
  · intro j _ account there
    cases c <;> exact there
  · cases c <;> exact List.Sublist.refl _

theorem lockOrder_eases {found : SiteTables → SiteOrder → SiteTables × SiteProgress}
    (follows : ∀ t order, Eases i t (found t order).1)
    (runs : lockOrder i t id found due = some (t', next)) : Eases i t t' := by
  obtain ⟨locks, -, result⟩ := Option.map_eq_some_iff.mp runs
  refine .trans (.locks i t locks) ?_
  dsimp only at result
  split at result
  · cases result
    exact .finish i due _
  · rename_i order there
    have eases := follows { t with locks } order
    rw [result] at eases
    exact eases

theorem reviewOrder_eases : Eases i t (reviewOrder i t now order request).1 := by
  unfold reviewOrder
  split
  · split
    · exact .finish i [] t
    · split
      · exact .refl i t
      · exact .finish i [] t
  · split
    · exact .finish i [] t
    · split
      · exact .refl i t
      · exact .finish i [] t
  · split
    · exact .refl i t
    · exact .finish i [] t
  · split
    · exact .finish i [] t
    · exact .refl i t
  · split
    · exact .finish i [] t
    · exact .refl i t
  · exact .refl i t
  · exact .refl i t
  · exact .finish i [] t
  · exact .finish i [] t

theorem lockedOrder_eases {version : ℕ} {statuses : List OrderStatus}
    (runs : lockedOrder i t now id version statuses = some (t', next)) : Eases i t t' := by
  refine lockOrder_eases (fun t order => ?_) runs
  split
  · exact .refl i t
  · exact .finish i [] t

/-- Every action but a placement opens no use. -/
theorem siteProceed_eases {ok : Bool} (h : t.Valid) (knows : KnowsSite request i t progress)
    (placesNot : ∀ cart, request ≠ .placeOrder cart)
    (runs : siteProceed codes i t request ok progress = some (t', next)) : Eases i t t' := by
  unfold siteProceed at runs
  split at runs
  · exact absurd rfl (placesNot _)
  · cases runs
    exact .refl i t
  · cases runs
    exact .refl i t
  · refine lockOrder_eases (fun t order => ?_) runs
    split
    · exact .refl i t
    · exact .finish i [] t
  · exact lockedOrder_eases runs
  · exact lockedOrder_eases runs
  · exact lockedOrder_eases runs
  · exact lockedOrder_eases runs
  · exact lockedOrder_eases runs
  · exact lockedOrder_eases runs
  · refine lockOrder_eases (fun t order => ?_) runs
    split
    · exact .refl i t
    · exact .finish i _ t
  · rename_i now order
    have eases : Eases i t (reviewOrder i t now order request).1 := reviewOrder_eases
    rw [Option.some.inj runs] at eases
    exact eases
  · split at runs <;> cases runs
    · exact .refl i t
    · exact .finish i [] t
  · split at runs <;> cases runs
    · rename_i due _
      exact .trans (.commit h knows.1.row knows.2) (.finish i due _)
    · rename_i due _
      exact .finish i due t
  · cases runs
    exact .refl i t
  · split at runs <;> cases runs
    · rename_i due _
      exact .finish i due t
    · exact .refl i t
  · exact absurd rfl (placesNot _)
  · cases runs

/-! ## What is left to the others -/

/-- What a statement of process `i` leaves of the counts to the others. -/
structure LeavesCounts (codes : ℕ → DiscountCode) (i : ℕ) (t t' : SiteTables) : Prop where
  locks : ∀ j ≠ i, ∀ lock, t.locks lock = some j → t'.locks lock = some j
  checking : ∀ j ≠ i, ∀ account, (j, account) ∈ t.checking → (j, account) ∈ t'.checking
  uses : ∀ j ≠ i, ∀ codeId, t.locks (.code codeId) = some j → ∀ buyer, t'.uses codeId buyer ≤ t.uses codeId buyer
  first : ∀ j ≠ i, ∀ phoneKey account, t.locks (.phone phoneKey) = some j → (j, account) ∈ t.checking →
    (∀ order ∈ t.orders, order.FirstOrder codes → order.Apart phoneKey account) →
    ∀ order ∈ t'.orders, order.FirstOrder codes → order.Apart phoneKey account

theorem usesOf_eq (t : SiteTables) (codeId : ℕ) : t.usesOf codeId = t.uses codeId fun _ _ => true := by
  simp [SiteTables.usesOf, SiteTables.uses]

theorem usesOfBuyer_eq (t : SiteTables) (codeId : ℕ) (phoneKey : String) (account : Option ℕ) :
    t.usesOfBuyer codeId phoneKey account =
      t.uses codeId fun phone a => phone == phoneKey || account.isSome && a == account :=
  rfl

theorem ChecksCode.others (h : ChecksCode codes j t cart codeId) (apart : j ≠ i)
    (phone : t.locks (.phone cart.phoneKey) = some j) (leaves : LeavesCounts codes i t t') :
    ChecksCode codes j t' cart codeId := by
  refine ⟨leaves.locks j apart _ h.lock, fun limited => ?_⟩
  obtain ⟨entry, alone⟩ := h.first limited
  exact ⟨leaves.checking j apart _ entry, leaves.first j apart _ _ phone entry alone⟩

theorem CountsCode.others (h : CountsCode codes j t cart codeId) (apart : j ≠ i)
    (phone : t.locks (.phone cart.phoneKey) = some j) (leaves : LeavesCounts codes i t t') :
    CountsCode codes j t' cart codeId := by
  refine ⟨h.checks.others apart phone leaves, fun limited => ?_⟩
  have before := h.uses limited
  rw [usesOf_eq] at before ⊢
  exact (leaves.uses j apart codeId h.checks.lock _).trans_lt before

theorem ChoosesCode.others (h : ChoosesCode codes j t cart codeId) (apart : j ≠ i)
    (phone : t.locks (.phone cart.phoneKey) = some j) (leaves : LeavesCounts codes i t t') :
    ChoosesCode codes j t' cart codeId := by
  refine ⟨h.counts.others apart phone leaves, fun limited => ?_⟩
  rw [usesOfBuyer_eq]
  exact (leaves.uses j apart codeId h.counts.checks.lock _).trans_lt (h.buyer limited)

theorem KnowsLimits.others (h : KnowsLimits codes request j t progress) (apart : j ≠ i)
    (leaves : LeavesCounts codes i t t') : KnowsLimits codes request j t' progress := by
  intro cart asks
  have knows := h cart asks
  cases progress with
  | pricing now => exact leaves.locks j apart _ knows
  | choosing now =>
      exact ⟨leaves.locks j apart _ knows.1, fun choice mem => leaves.locks j apart _ (knows.2 choice mem)⟩
  | counting now =>
      exact ⟨leaves.locks j apart _ knows.1, fun choice mem => (knows.2 choice mem).others apart knows.1 leaves⟩
  | counted now =>
      exact ⟨leaves.locks j apart _ knows.1, fun choice mem => (knows.2 choice mem).others apart knows.1 leaves⟩
  | chosen now =>
      exact ⟨leaves.locks j apart _ knows.1, fun choice mem => (knows.2 choice mem).others apart knows.1 leaves⟩
  | start | placing | opened | locked | reviewed | ready | sweeping | expiring | done => trivial

theorem LeavesCounts.trans {t'' : SiteTables} (h : LeavesCounts codes i t t')
    (h' : LeavesCounts codes i t' t'') : LeavesCounts codes i t t'' := by
  refine ⟨fun j apart lock held => h'.locks j apart lock (h.locks j apart lock held),
    fun j apart account mem => h'.checking j apart account (h.checking j apart account mem),
    fun j apart codeId held buyer => ?_, fun j apart phone account held entry alone => ?_⟩
  · exact (h'.uses j apart codeId (h.locks j apart _ held) buyer).trans (h.uses j apart codeId held buyer)
  · exact h'.first j apart phone account (h.locks j apart _ held) (h.checking j apart _ entry)
      (h.first j apart phone account held entry alone)

/-- An order that may come first was live before. -/
theorem Eases.firstOrder (h : Eases i t t') (mem : order ∈ t'.orders) (first : order.FirstOrder codes) :
    ∃ before ∈ t.orders, before.FirstOrder codes ∧ before.phoneKey = order.phoneKey ∧
      before.buyerAccountId = order.buyerAccountId := by
  obtain ⟨change, rows, kept⟩ := h.orders
  rw [rows] at mem
  obtain ⟨before, known, rfl⟩ := List.mem_map.mp mem
  obtain ⟨phone, account, code, cancelled⟩ := kept before known
  obtain ⟨live, codeId, there, limited⟩ := first
  exact ⟨before, known, ⟨fun status => live (cancelled status), codeId, code ▸ there, limited⟩, phone.symm,
    account.symm⟩

theorem Eases.leaves (h : Eases i t t') (locks : ∀ j ≠ i, ∀ lock, t.locks lock = some j → t'.locks lock = some j) :
    LeavesCounts codes i t t' := by
  refine ⟨locks, h.checking, fun _ _ codeId _ buyer => h.uses codeId buyer, ?_⟩
  intro j _ phone account _ _ alone order mem first
  obtain ⟨before, known, first', samePhone, sameAccount⟩ := h.firstOrder mem first
  have apart := alone before known first'
  exact ⟨samePhone ▸ apart.1, sameAccount ▸ apart.2⟩

theorem Eases.limits (h : Eases i t t') (limits : WithinLimits codes t) : WithinLimits codes t' := by
  refine ⟨fun codeId limited => ?_, fun codeId phone limited => ?_, fun codeId account limited => ?_, ?_⟩
  · rw [usesOf_eq]
    exact (h.uses codeId _).trans (usesOf_eq t codeId ▸ limits.uses codeId limited)
  · exact (h.uses codeId _).trans (limits.phone codeId phone limited)
  · exact (h.uses codeId _).trans (limits.account codeId account limited)
  · obtain ⟨change, rows, kept⟩ := h.orders
    rw [rows]
    refine List.pairwise_map.mpr (limits.first.imp_of_mem fun {a b} aMem bMem apart aFirst bFirst => ?_)
    obtain ⟨aPhone, aAccount, aCode, aCancelled⟩ := kept a aMem
    obtain ⟨bPhone, bAccount, bCode, bCancelled⟩ := kept b bMem
    have aBefore : a.FirstOrder codes := ⟨fun status => aFirst.1 (aCancelled status), aCode ▸ aFirst.2⟩
    have bBefore : b.FirstOrder codes := ⟨fun status => bFirst.1 (bCancelled status), bCode ▸ bFirst.2⟩
    have distinct := apart aBefore bBefore
    rw [SiteOrder.Apart, aPhone, aAccount, bPhone, bAccount]
    exact distinct

/-! ## A placed order -/

theorem uses_place (t : SiteTables) (now : ℤ) (cart : CleanOrder) (codeId : ℕ)
    (buyer : String → Option ℕ → Bool) : (t.place now cart).uses codeId buyer = t.uses codeId buyer +
      if (∃ choice ∈ cart.choice, choice.1 = codeId) ∧ buyer cart.phoneKey cart.buyerAccountId = true then 1
      else 0 := by
  show (t.redemptions ++ _).countP _ = _
  rw [List.countP_append]
  congr 1
  cases cart.choice with
  | none => simp
  | some choice => simp [List.countP_singleton]

/-- Below its limit before, a count is within it after one more. -/
theorem uses_place_le {limit : ℕ} (within : t.uses codeId buyer ≤ limit)
    (below : (∃ choice ∈ cart.choice, choice.1 = codeId) → buyer cart.phoneKey cart.buyerAccountId = true →
      t.uses codeId buyer < limit) : (t.place now cart).uses codeId buyer ≤ limit := by
  rw [uses_place]
  split
  · rename_i counts
    exact below counts.1 counts.2
  · exact within

theorem uses_mono {buyer buyer' : String → Option ℕ → Bool}
    (le : ∀ phone account, buyer phone account = true → buyer' phone account = true) :
    t.uses codeId buyer ≤ t.uses codeId buyer' := by
  refine List.countP_mono_left fun use _ counts => ?_
  simp only [Bool.and_eq_true] at counts ⊢
  exact ⟨counts.1, le _ _ counts.2⟩

theorem place_limits (h : WithinLimits codes t)
    (chooses : ∀ choice ∈ cart.choice, ChoosesCode codes i t cart choice.1) :
    WithinLimits codes (t.place now cart) := by
  refine ⟨fun codeId limited => ?_, fun codeId phone limited => ?_, fun codeId account limited => ?_, ?_⟩
  · rw [usesOf_eq]
    refine uses_place_le (usesOf_eq t codeId ▸ h.uses codeId limited) ?_
    rintro ⟨choice, mem, rfl⟩ -
    exact usesOf_eq t choice.1 ▸ (chooses choice mem).counts.uses limited
  · refine uses_place_le (h.phone codeId phone limited) ?_
    rintro ⟨choice, mem, rfl⟩ own
    have room := (chooses choice mem).buyer limited
    rw [usesOfBuyer_eq] at room
    obtain rfl : cart.phoneKey = phone := by simpa using own
    refine (uses_mono fun p a same => ?_).trans_lt room
    rw [same, Bool.true_or]
  · refine uses_place_le (h.account codeId account limited) ?_
    rintro ⟨choice, mem, rfl⟩ own
    have room := (chooses choice mem).buyer limited
    rw [usesOfBuyer_eq] at room
    have signed : cart.buyerAccountId = some account := by simpa using own
    rw [signed] at room
    refine (uses_mono fun p a same => ?_).trans_lt room
    rw [same, Option.isSome_some, Bool.and_true, Bool.or_true]
  · refine List.pairwise_append.mpr ⟨h.first, List.pairwise_singleton _ _, fun order known new mem => ?_⟩
    cases List.mem_singleton.mp mem
    rintro first ⟨-, codeId, code, limited⟩
    obtain ⟨choice, there, rfl⟩ := Option.map_eq_some_iff.mp code
    exact ((chooses choice there).counts.checks.first limited).2 order known first

theorem leaves_place (alone : Alone t) (phone : t.locks (.phone cart.phoneKey) = some i)
    (chooses : ∀ choice ∈ cart.choice, ChoosesCode codes i t cart choice.1) :
    LeavesCounts codes i t (t.place now cart) := by
  refine ⟨fun _ _ _ => id, fun _ _ _ => id, fun j apart codeId held buyer => ?_,
    fun j apart phoneKey account held entry known order mem first => ?_⟩
  · rw [uses_place, if_neg]
    · exact le_rfl
    · rintro ⟨⟨choice, mem, rfl⟩, -⟩
      exact apart (Option.some.inj (held.symm.trans (chooses choice mem).counts.checks.lock))
  · rcases List.mem_append.mp mem with earlier | new
    · exact known order earlier first
    · cases List.mem_singleton.mp new
      obtain ⟨-, codeId, code, limited⟩ := first
      obtain ⟨choice, there, rfl⟩ := Option.map_eq_some_iff.mp code
      have own := ((chooses choice there).counts.checks.first limited).1
      refine ⟨fun same => ?_, fun a mem same => ?_⟩
      · dsimp only at same
        rw [same] at phone
        exact apart (Option.some.inj (held.symm.trans phone))
      · have symmetric : Std.Symm fun e e' : ℕ × Option ℕ => ∀ a ∈ e.2, e'.2 ≠ some a :=
          ⟨fun e e' far a there here => far a here there⟩
        have different : (j, account) ≠ (i, cart.buyerAccountId) := fun eq => apart (congrArg Prod.fst eq)
        exact alone.forall entry own different a mem same

/-! ## The statements of a placement -/

/-- The effect of a statement on the counts. -/
structure CountsOutcome (codes : ℕ → DiscountCode) (request : SiteRequest) (i : ℕ) (t t' : SiteTables)
    (next : SiteProgress) : Prop where
  limits : WithinLimits codes t'
  alone : Alone t'
  own : KnowsLimits codes request i t' next
  others : LeavesCounts codes i t t'

theorem CountsOutcome.after {t₁ : SiteTables} (first : LeavesCounts codes i t t₁)
    (h : CountsOutcome codes request i t₁ t' next) : CountsOutcome codes request i t t' next :=
  ⟨h.limits, h.alone, h.own, first.trans h.others⟩

theorem LeavesCounts.refl (i : ℕ) (t : SiteTables) : LeavesCounts codes i t t :=
  (Eases.refl i t).leaves fun _ _ _ => id

theorem CountsOutcome.read (h : WithinLimits codes t) (alone : Alone t)
    (own : Placing codes i t cart next) : CountsOutcome codes (.placeOrder cart) i t t next := by
  refine ⟨h, alone, ?_, .refl i t⟩
  rintro other ⟨⟩
  exact own

theorem placing_finish (due : List ℕ) : Placing codes i t' cart (finish i due t).2 := by
  simp only [finish]
  split <;> trivial

theorem leaves_finish (i : ℕ) (due : List ℕ) (t : SiteTables) : LeavesCounts codes i t (finish i due t).1 :=
  (Eases.finish i due t).leaves fun _ apart _ held => Locks.release_keeps apart held

theorem CountsOutcome.refuse (h : WithinLimits codes t) (alone : Alone t) (due : List ℕ) :
    CountsOutcome codes request i t (finish i due t).1 (finish i due t).2 :=
  ⟨(Eases.finish i due t).limits h, alone.sublist (Eases.finish i due t).fewer, fun _ _ => placing_finish due,
    leaves_finish i due t⟩

theorem CountsOutcome.lock {lock : SiteLock} {locks : Locks SiteLock ℕ} (h : WithinLimits codes t)
    (alone : Alone t) (taken : t.locks.take i lock = some locks)
    (own : Placing codes i { t with locks } cart next) :
    CountsOutcome codes (.placeOrder cart) i t { t with locks } next := by
  have eases := Eases.locks i t locks
  refine ⟨eases.limits h, alone, ?_, eases.leaves fun j apart l held => ?_⟩
  · rintro other ⟨⟩
    exact own
  · rcases Locks.take_keeps taken held with kept | ⟨-, rfl⟩
    · exact kept
    · exact absurd rfl apart

/-- The first-order check is passed and recorded. -/
theorem CountsOutcome.check {choice : ℕ × ℕ} (h : WithinLimits codes t) (alone : Alone t)
    (phone : t.locks (.phone cart.phoneKey) = some i) (code : t.locks (.code choice.1) = some i)
    (chosen : cart.choice = some choice) (none : t.hasEarlierOrder cart.phoneKey cart.buyerAccountId = false)
    (quiet : ∀ a ∈ cart.buyerAccountId, ∀ entry ∈ t.checking, entry.2 ≠ some a) :
    CountsOutcome codes (.placeOrder cart) i t
      { t with checking := (i, cart.buyerAccountId) :: t.checking } (.counting now) := by
  refine ⟨⟨h.uses, h.phone, h.account, h.first⟩, ?_, ?_, ?_⟩
  · refine List.pairwise_cons.mpr ⟨fun entry mem a own => quiet a own entry mem, alone⟩
  · rintro other ⟨⟩
    refine ⟨phone, fun choice' mem => ?_⟩
    obtain rfl := Option.some.inj (chosen.symm.trans mem)
    refine ⟨code, fun _ => ⟨List.mem_cons_self, fun order known first => ?_⟩⟩
    have other := List.any_eq_false.mp none order known
    simp only [Bool.and_eq_true, bne_iff_ne, Bool.or_eq_true, beq_iff_eq, not_and, not_or] at other
    obtain ⟨phones, accounts⟩ := other first.1
    refine ⟨phones, fun a signed same => accounts ?_ (same.trans signed.symm)⟩
    rw [Option.mem_def.mp signed, Option.isSome_some]
  · exact ⟨fun _ _ _ => id, fun _ _ _ mem => List.mem_cons_of_mem _ mem, fun _ _ _ _ _ => le_rfl,
      fun _ _ _ _ _ _ known => known⟩

theorem placeOrder_counts (ok : Bool) (h : WithinLimits codes t) (alone : Alone t)
    (knows : Placing codes i t cart progress)
    (quiet : ∀ now, progress = .choosing now → ∀ choice ∈ cart.choice,
      (codes choice.1).firstOrderOnly = true → ∀ a ∈ cart.buyerAccountId, ∀ entry ∈ t.checking,
        entry.2 ≠ some a)
    (runs : placeOrder codes i t cart ok progress = some (t', next)) :
    CountsOutcome codes (.placeOrder cart) i t t' next := by
  unfold placeOrder at runs
  split at runs
  · obtain ⟨locks, taken, result⟩ := Option.map_eq_some_iff.mp runs
    cases result
    exact .lock h alone taken (Locks.take_self taken)
  · rename_i none
    cases runs
    refine .read h alone ⟨knows, fun choice mem => ?_⟩
    rw [none] at mem
    cases mem
  · rename_i choice chosen
    obtain ⟨locks, taken, result⟩ := Option.map_eq_some_iff.mp runs
    cases result
    refine .lock h alone taken ⟨Locks.take_keeps_own taken knows, fun choice' mem => ?_⟩
    obtain rfl := Option.some.inj (chosen.symm.trans mem)
    exact Locks.take_self taken
  · rename_i now choice chosen
    obtain ⟨phone, code⟩ := knows
    split at runs
    · cases runs
      exact .refuse h alone []
    · split at runs
      · rename_i limited
        split at runs <;> cases runs
        · exact .refuse h alone []
        · rename_i none
          exact .check h alone phone (code choice chosen) chosen (by simpa using none)
            (quiet now rfl choice chosen limited)
      · rename_i unlimited
        cases runs
        refine .read h alone ⟨phone, fun choice' mem => ?_⟩
        obtain rfl := Option.some.inj (chosen.symm.trans mem)
        exact ⟨code choice chosen, fun limited => absurd limited unlimited⟩
  · rename_i choice chosen
    dsimp only at runs
    split at runs <;> cases runs
    · exact .refuse h alone []
    · rename_i room
      refine .read h alone ⟨knows.1, fun choice' mem => ⟨knows.2 choice' mem, fun limited => ?_⟩⟩
      obtain rfl := Option.some.inj (chosen.symm.trans mem)
      exact not_le.mp fun full => room ⟨limited, full⟩
  · rename_i choice chosen
    dsimp only at runs
    split at runs <;> cases runs
    · exact .refuse h alone []
    · rename_i room
      refine .read h alone ⟨knows.1, fun choice' mem => ⟨knows.2 choice' mem, fun limited => ?_⟩⟩
      obtain rfl := Option.some.inj (chosen.symm.trans mem)
      exact not_le.mp fun full => room ⟨limited, full⟩
  · obtain ⟨phone, chooses⟩ := knows
    split at runs <;> cases runs
    · exact .after (leaves_place alone phone chooses)
        (.refuse (place_limits h chooses) alone [])
    · exact .refuse h alone []
  · cases runs

theorem siteProceed_counts {ok : Bool} (valid : t.Valid) (site : KnowsSite request i t progress)
    (h : WithinLimits codes t) (alone : Alone t) (knows : KnowsLimits codes request i t progress)
    (leaves : LeavesOrders i t t')
    (quiet : ∀ cart now, request = .placeOrder cart → progress = .choosing now → ∀ choice ∈ cart.choice,
      (codes choice.1).firstOrderOnly = true → ∀ a ∈ cart.buyerAccountId, ∀ entry ∈ t.checking,
        entry.2 ≠ some a)
    (runs : siteProceed codes i t request ok progress = some (t', next)) :
    CountsOutcome codes request i t t' next := by
  by_cases places : ∃ cart, request = .placeOrder cart
  · obtain ⟨cart, rfl⟩ := places
    have placing := knows cart rfl
    cases progress with
    | start =>
        cases runs
        refine .read h alone ?_
        split <;> trivial
    | placing | pricing | choosing | counting | counted | chosen =>
        exact placeOrder_counts ok h alone placing (fun now same => quiet cart now rfl same) runs
    | opened | done =>
        simp [siteProceed, placeOrder] at runs
    | locked now order => exact absurd site.2 List.not_mem_nil
    | reviewed order receipt =>
        simp only [siteProceed] at runs
        split at runs <;> cases runs
        · exact .read h alone trivial
        · exact .refuse h alone []
    | ready now order c due =>
        simp only [siteProceed] at runs
        split at runs <;> cases runs
        · have eases : Eases i t (t.commit now order c) := .commit valid site.1.row site.2
          have locks : ∀ j ≠ i, ∀ lock, t.locks lock = some j → (t.commit now order c).locks lock = some j := by
            intro j _ lock held
            rw [SiteTables.commit_locks]
            exact held
          exact .after (eases.leaves locks) (.refuse (eases.limits h) (alone.sublist eases.fewer) due)
        · exact .refuse h alone due
    | sweeping due =>
        cases runs
        refine .read h alone ?_
        split <;> trivial
    | expiring now order due =>
        simp only [siteProceed] at runs
        split at runs <;> cases runs
        · exact .refuse h alone due
        · exact .read h alone trivial
  · have eases := siteProceed_eases valid site (fun cart same => places ⟨cart, same⟩) runs
    exact ⟨eases.limits h, alone.sublist eases.fewer, fun cart same => absurd ⟨cart, same⟩ places,
      eases.leaves leaves.locks⟩

theorem siteStatement_counts {turn : SiteTurn} (valid : t.Valid) (site : KnowsSite (requests i) i t progress)
    (h : WithinLimits codes t) (alone : Alone t) (knows : KnowsLimits codes (requests i) i t progress)
    (quiet : FirstAlone codes requests i turn t progress)
    (runs : siteStatement codes requests i turn t progress = some (t', next)) :
    CountsOutcome codes (requests i) i t t' next := by
  cases turn with
  | die =>
      cases runs
      exact ⟨(Eases.finish i [] t).limits h, alone.sublist (Eases.finish i [] t).fewer, fun _ _ => trivial,
        leaves_finish i [] t⟩
  | proceed elapsed ok =>
      have eases := Eases.tick i t elapsed
      have stays : KnowsLimits codes (requests i) i (t.tick elapsed) progress := by
        intro cart asks
        have placing := knows cart asks
        cases progress with
        | counting now =>
            exact ⟨placing.1, fun choice mem => ⟨(placing.2 choice mem).lock, (placing.2 choice mem).first⟩⟩
        | counted now =>
            refine ⟨placing.1, fun choice mem => ?_⟩
            obtain ⟨⟨lock, first⟩, uses⟩ := placing.2 choice mem
            exact ⟨⟨lock, first⟩, uses⟩
        | chosen now =>
            refine ⟨placing.1, fun choice mem => ?_⟩
            obtain ⟨⟨⟨lock, first⟩, uses⟩, buyer⟩ := placing.2 choice mem
            exact ⟨⟨⟨lock, first⟩, uses⟩, buyer⟩
        | pricing | choosing => exact placing
        | start | placing | opened | locked | reviewed | ready | sweeping | expiring | done => trivial
      refine .after (eases.leaves fun _ _ _ => id)
        (siteProceed_counts (valid_tick valid elapsed) (knows_tick site elapsed) (eases.limits h) alone stays
          (siteProceed_outcome (valid_tick valid elapsed) (knows_tick site elapsed) runs).others
          (fun cart now asks choosing => ?_) runs)
      subst choosing
      simp only [FirstAlone, asks] at quiet
      exact quiet

/-- All statements that meet the condition follow the outline. -/
theorem discountOutline (codes : ℕ → DiscountCode) (requests : ℕ → SiteRequest) :
    Outline (siteStatement codes requests) (FirstAlone codes requests)
      (fun t => t.Valid ∧ WithinLimits codes t ∧ Alone t)
      (fun i t progress => KnowsSite (requests i) i t progress ∧
        KnowsLimits codes (requests i) i t progress) where
  own h knows quiet runs :=
    have site := siteStatement_outcome h.1 knows.1 runs
    have counts := siteStatement_counts h.1 knows.1 h.2.1 h.2.2 knows.2 quiet runs
    ⟨⟨site.valid, counts.limits, counts.alone⟩, site.own, counts.own⟩
  others apart h knows other quiet runs :=
    have site := siteStatement_outcome h.1 knows.1 runs
    have counts := siteStatement_counts h.1 knows.1 h.2.1 h.2.2 knows.2 quiet runs
    ⟨other.1.others apart site.others, other.2.others apart counts.others⟩

end Outline

/-! ## All schedules -/

/-- The limits hold in every schedule where a placement that checks its first order is alone
with its account. -/
theorem discount_limits {codes : ℕ → DiscountCode} {requests : ℕ → SiteRequest} {clock : ℤ}
    {schedule : List (ℕ × SiteTurn)}
    (quiet : (siteStatement codes requests).Meets (FirstAlone codes requests)
      ⟨.initial clock, fun _ => .start⟩ schedule) :
    WithinLimits codes
      ((siteStatement codes requests).after ⟨.initial clock, fun _ => .start⟩ schedule).shared := by
  have nothing : WithinLimits codes (.initial clock) :=
    ⟨fun _ _ => Nat.zero_le _, fun _ _ _ => Nat.zero_le _, fun _ _ _ => Nat.zero_le _, List.Pairwise.nil⟩
  have begins : Holds (fun t => t.Valid ∧ WithinLimits codes t ∧ Alone t)
      (fun i t progress => KnowsSite (requests i) i t progress ∧ KnowsLimits codes (requests i) i t progress)
      (⟨.initial clock, fun _ => .start⟩ : Config ℕ SiteTables SiteProgress) :=
    ⟨⟨valid_initial clock, nothing, List.Pairwise.nil⟩, fun _ => ⟨trivial, fun _ _ => trivial⟩⟩
  exact ((discountOutline codes requests).after_meets begins quiet).shared.2.1

/-- A first order is cancelled, and the account places another one with a first-order code. -/
theorem discount_limits_after_cancellation :
    let codes : ℕ → DiscountCode := fun _ => ⟨1, 1, true⟩
    let requests : ℕ → SiteRequest := fun i =>
      if i = 0 then .placeOrder ⟨"k0", "0912", some 1, .card, 1000, 0, some (1, 100), 24⟩
      else if i = 1 then .cancelOrder 1 1
      else .placeOrder ⟨"k1", "0935", some 1, .card, 1000, 0, some (2, 100), 24⟩
    let turns : ℕ → List (ℕ × SiteTurn) := fun i => List.replicate 7 (i, .proceed 1 true)
    let t := ((siteStatement codes requests).after ⟨.initial 0, fun _ => .start⟩
      (turns 0 ++ turns 1 ++ turns 2)).shared
    t.orders.map SiteOrder.status = [.cancelled, .awaiting_payment] ∧ WithinLimits codes t := by
  intro codes requests turns t
  have quiet : (siteStatement codes requests).Meets (FirstAlone codes requests)
      ⟨.initial 0, fun _ => .start⟩ (turns 0 ++ turns 1 ++ turns 2) := by decide +kernel
  exact ⟨by decide +kernel, discount_limits quiet⟩

/-- Two placements of one account at once, with two phones and two codes: both are first. -/
theorem two_first_orders :
    let codes : ℕ → DiscountCode := fun _ => ⟨0, 0, true⟩
    let requests : ℕ → SiteRequest := fun i =>
      if i = 0 then .placeOrder ⟨"k0", "0912", some 1, .card, 1000, 0, some (1, 100), 24⟩
      else .placeOrder ⟨"k1", "0935", some 1, .card, 1000, 0, some (2, 100), 24⟩
    let turns : ℕ → ℕ → List (ℕ × SiteTurn) := fun n i => List.replicate n (i, .proceed 1 true)
    let t := ((siteStatement codes requests).after ⟨.initial 0, fun _ => .start⟩
      (turns 4 0 ++ turns 4 1 ++ turns 3 0 ++ turns 3 1)).shared
    ∃ a b, t.orders = [a, b] ∧ a.FirstOrder codes ∧ b.FirstOrder codes ∧
      a.buyerAccountId = some 1 ∧ b.buyerAccountId = some 1 := by
  intro codes requests turns t
  refine ⟨⟨1, "k0", 1, "0912", some 1, some 1, .awaiting_payment, [], none, 900, .card, 86400000001, none, 1⟩,
    ⟨2, "k1", 2, "0935", some 1, some 2, .awaiting_payment, [], none, 900, .card, 86400000005, none, 1⟩,
    by decide +kernel, ⟨by decide, 1, rfl, rfl⟩, ⟨by decide, 2, rfl, rfl⟩, rfl, rfl⟩

end PapitalErp.SiteOrders
