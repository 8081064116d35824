import PapitalErp.Storefront.LoginCodes

/-!
# Guesses, texts and proofs of a phone stay within their limits

A verification judges the newest code it read, so what it relies on stays as long as no
newer code of the phone is committed before it ends: then every open verification of the
phone has the same row and waits for its lock. In a schedule where this never happens only
the newest code is verified, and at every moment the wrong tries on the codes of the last
day are within their limit. The limits of requests need no such condition, since they are
counted under one lock, nor do the tries of one code and the single use of a proof, since
the row is read again under its lock.
-/

namespace PapitalErp.LoginCodes

open Interleaving SlidingWindow FilteredSums

/-! ## The order of codes -/

/-- A code of the phone that no code of the phone is newer than. -/
structure Newest (rows : List SmsCode) (row : SmsCode) : Prop where
  known : ∃ r ∈ rows, r.id = row.id ∧ r.phoneKey = row.phoneKey ∧ r.createdAt = row.createdAt
  last : ∀ r ∈ rows, r.phoneKey = row.phoneKey → r.newer row = false

section Newest

variable {rows : List SmsCode} {row other : SmsCode} {phoneKey : String}

theorem newer_eq_false : row.newer other = false ↔
    row.createdAt ≤ other.createdAt ∧ (other.createdAt = row.createdAt → row.id ≤ other.id) := by
  simp only [SmsCode.newer, decide_eq_false_iff_not, not_or, not_lt, not_and]

theorem newestCode_spec (phoneKey : String) (rows : List SmsCode) : match newestCode phoneKey rows with
    | none => ∀ r ∈ rows, r.phoneKey ≠ phoneKey
    | some row => row ∈ rows ∧ row.phoneKey = phoneKey ∧
        ∀ r ∈ rows, r.phoneKey = phoneKey → r.newer row = false := by
  induction rows with
  | nil => simp [newestCode]
  | cons row rows ih =>
      have self : row.newer row = false := newer_eq_false.mpr ⟨le_rfl, fun _ => le_rfl⟩
      cases found : newestCode phoneKey rows with
      | none =>
          rw [found] at ih
          simp only [newestCode, found]
          by_cases here : row.phoneKey = phoneKey
          · rw [if_pos here]
            refine ⟨List.mem_cons_self, here, fun r mem same => ?_⟩
            rcases List.mem_cons.mp mem with rfl | later
            · exact self
            · exact absurd same (ih r later)
          · rw [if_neg here]
            intro r mem
            rcases List.mem_cons.mp mem with rfl | later
            · exact here
            · exact ih r later
      | some best =>
          rw [found] at ih
          simp only [newestCode, found]
          obtain ⟨known, same, last⟩ := ih
          by_cases first : row.phoneKey = phoneKey ∧ row.newer best = true
          · rw [if_pos first]
            refine ⟨List.mem_cons_self, first.1, fun r mem own => ?_⟩
            rcases List.mem_cons.mp mem with rfl | later
            · exact self
            · have before := newer_eq_false.mp (last r later own)
              have after : best.createdAt < row.createdAt ∨
                  best.createdAt = row.createdAt ∧ best.id < row.id := by
                simpa [SmsCode.newer] using first.2
              rw [newer_eq_false]
              omega
          · rw [if_neg first]
            refine ⟨List.mem_cons_of_mem _ known, same, fun r mem own => ?_⟩
            rcases List.mem_cons.mp mem with rfl | later
            · exact Bool.eq_false_iff.mpr fun newer => first ⟨own, newer⟩
            · exact last r later own

theorem newest_of_newestCode (found : newestCode phoneKey rows = some row) :
    row.phoneKey = phoneKey ∧ Newest rows row := by
  have spec := newestCode_spec phoneKey rows
  rw [found] at spec
  obtain ⟨mem, rfl, last⟩ := spec
  exact ⟨rfl, ⟨row, mem, rfl, rfl, rfl⟩, last⟩

/-- A phone has one newest code. -/
theorem Newest.id_eq (h : Newest rows row) (h' : Newest rows other)
    (same : row.phoneKey = other.phoneKey) : row.id = other.id := by
  obtain ⟨r, mem, id, phone, created⟩ := h.known
  obtain ⟨r', mem', id', phone', created'⟩ := h'.known
  have first := newer_eq_false.mp (h'.last r mem (phone.trans same))
  have second := newer_eq_false.mp (h.last r' mem' (phone'.trans same.symm))
  omega

end Newest

/-! ## What holds in every state -/

/-- In the history: a verified code has no newer code before it, no code is verified twice and
no proof is consumed twice. -/
def Orderly : OtpEvent → OtpEvent → Prop
  | .requested row, .verified later _ => row.phoneKey = later.phoneKey → row.newer later = false
  | .verified row _, .verified later _ => row.id ≠ later.id
  | .consumed _ proof _, .consumed _ later _ => proof ≠ later
  | _, _ => True

/-- A try of the code, right or wrong. -/
def OtpEvent.triesCode (id : ℕ) : OtpEvent → Bool
  | .wrongTry row _ | .verified row _ => decide (row.id = id)
  | _ => false

/-- A wrong try on a code of the phone that came after a moment. -/
def OtpEvent.wrongOn (phoneKey : String) (moment : ℤ) : OtpEvent → Bool
  | .wrongTry row _ => decide (row.phoneKey = phoneKey ∧ moment < row.createdAt)
  | _ => false

/-- What the history says about the rows. -/
structure Told (t : OtpTables) : Prop where
  order : t.history.Pairwise Orderly
  requested : ∀ row, OtpEvent.requested row ∈ t.history →
    ∃ r ∈ t.rows, r.id = row.id ∧ r.phoneKey = row.phoneKey ∧ r.createdAt = row.createdAt
  verified : ∀ row moment, OtpEvent.verified row moment ∈ t.history →
    ∃ r ∈ t.rows, r.id = row.id ∧ r.verification ≠ none
  consumed : ∀ phoneKey proof moment, OtpEvent.consumed phoneKey proof moment ∈ t.history →
    ∃ r ∈ t.rows, r.phoneKey = phoneKey ∧ ∃ v ∈ r.verification, v.proof = proof ∧ v.usedAt ≠ none
  tries : ∀ id, t.history.countP (OtpEvent.triesCode id) =
    sumWhere (fun row => decide (row.id = id)) SmsCode.attempts t.rows
  wrongs : ∀ phoneKey moment,
    t.history.countP (OtpEvent.wrongOn phoneKey moment) = t.wrongSince phoneKey moment

/-- A code's own fields. -/
structure SmsCode.Sound (row : SmsCode) : Prop where
  attempts : row.attempts ≤ OTP_VERIFY_ATTEMPTS_MAX
  counted : row.verification ≠ none → 1 ≤ row.attempts

/-- The codes in their order, and the limits of requests. -/
structure Listed (rows : List SmsCode) (nextId : ℕ) (clock : ℤ) : Prop where
  ids : rows.Pairwise fun a b => a.id ≠ b.id
  below : ∀ row ∈ rows, row.id < nextId
  past : ∀ row ∈ rows, row.createdAt ≤ clock
  phoneHour : ∀ phoneKey, Limited (fun row => decide (row.phoneKey = phoneKey)) SmsCode.createdAt hour
    OTP_PER_PHONE_HOUR_MAX rows
  phoneDay : ∀ phoneKey, Limited (fun row => decide (row.phoneKey = phoneKey)) SmsCode.createdAt day
    OTP_PER_PHONE_DAY_MAX rows
  addressHour : ∀ addressKey, Limited (fun row => decide (row.addressKey = addressKey)) SmsCode.createdAt
    hour OTP_PER_ADDRESS_HOUR_MAX rows

structure OtpTables.Valid (t : OtpTables) : Prop where
  listed : Listed t.rows t.nextId t.clock
  sound : ∀ row ∈ t.rows, row.Sound
  proofs : ∀ row ∈ t.rows, ∀ v ∈ row.verification, v.proof < t.nextProof
  apart : t.rows.Pairwise fun a b => ∀ v ∈ a.verification, ∀ w ∈ b.verification, v.proof ≠ w.proof
  wrong : ∀ phoneKey, t.wrongSince phoneKey (t.clock - day) ≤ OTP_WRONG_PER_PHONE_DAY_MAX
  told : Told t

/-! ## What a process knows -/

/-- The process has read this code as the newest, in a verification that is still open. -/
structure Reads (i : ℕ) (t : OtpTables) (row : SmsCode) : Prop where
  listed : (i, row.phoneKey) ∈ t.reading
  newest : Newest t.rows row

/-- The process holds the row's lock, and the row is as it read it. -/
structure HoldsCode (i : ℕ) (t : OtpTables) (row : SmsCode) : Prop where
  lock : t.locks (.code row.id) = some i
  row : row ∈ t.rows

/-- A verification at a code that may still be tried. -/
structure Tries (i : ℕ) (t : OtpTables) (row : SmsCode) : Prop where
  reads : Reads i t row
  holds : HoldsCode i t row
  unverified : row.verification = none
  attempts : row.attempts < OTP_VERIFY_ATTEMPTS_MAX

def KnowsOtp (request : OtpRequest) (i : ℕ) (t : OtpTables) : OtpProgress → Prop
  | .start | .sending _ | .closing _ | .done => True
  | .asking now | .verifying now | .consuming now => now ≤ t.clock
  | .holding now => now ≤ t.clock ∧ t.locks .requests = some i
  | .counted now => now ≤ t.clock ∧ t.locks .requests = some i ∧
      ∀ phoneKey code addressKey, request = .requestOtp phoneKey code addressKey →
        t.mayAsk phoneKey addressKey now
  | .chosen now row => now ≤ t.clock ∧ Reads i t row
  | .locked now row => now ≤ t.clock ∧ Tries i t row
  | .judged now row => now ≤ t.clock ∧ Tries i t row ∧
      t.wrongSince row.phoneKey (now - day) < OTP_WRONG_PER_PHONE_DAY_MAX
  | .found _ row => HoldsCode i t row ∧ ∀ phoneKey proof, request = .consumePhoneProof phoneKey proof →
      row.phoneKey = phoneKey ∧ ∃ v ∈ row.verification, v.proof = proof ∧ v.usedAt = none

/-- A request commits its code while no verification of the phone is open on a code it read. -/
def NoneReading (requests : ℕ → OtpRequest) (i : ℕ) (turn : OtpTurn) (t : OtpTables)
    (progress : OtpProgress) : Prop :=
  match turn, progress, requests i with
  | .proceed _ _, .counted _, .requestOtp phoneKey _ _ => ∀ entry ∈ t.reading, entry.2 ≠ phoneKey
  | _, _, _ => True

instance (requests : ℕ → OtpRequest) (i : ℕ) (turn : OtpTurn) (t : OtpTables)
    (progress : OtpProgress) : Decidable (NoneReading requests i turn t progress) := by
  unfold NoneReading
  split <;> infer_instance

section Outline

variable {requests : ℕ → OtpRequest} {request : OtpRequest} {i j id : ℕ} {t t' : OtpTables}
  {progress next : OtpProgress} {row new : SmsCode} {now : ℤ} {change : SmsCode → SmsCode}

/-- What a statement of process `i` leaves to the others. -/
structure LeavesOtp (i : ℕ) (t t' : OtpTables) : Prop where
  clock : t.clock ≤ t'.clock
  locks : ∀ j ≠ i, ∀ lock, t.locks lock = some j → t'.locks lock = some j
  reading : ∀ j ≠ i, ∀ phoneKey, (j, phoneKey) ∈ t.reading → (j, phoneKey) ∈ t'.reading
  rows : ∀ j ≠ i, ∀ row ∈ t.rows, t.locks (.code row.id) = some j → row ∈ t'.rows
  newest : ∀ j ≠ i, ∀ row, Reads j t row → Newest t'.rows row
  asks : ∀ j ≠ i, t.locks .requests = some j → ∀ phoneKey addressKey now,
    t.mayAsk phoneKey addressKey now → t'.mayAsk phoneKey addressKey now
  wrong : ∀ j ≠ i, ∀ row, Reads j t row → t.locks (.code row.id) = some j → ∀ moment,
    t'.wrongSince row.phoneKey moment ≤ t.wrongSince row.phoneKey moment

/-- The effect of a statement. -/
structure OtpOutcome (request : OtpRequest) (i : ℕ) (t t' : OtpTables) (next : OtpProgress) : Prop where
  valid : t'.Valid
  own : KnowsOtp request i t' next
  others : LeavesOtp i t t'

theorem Reads.others (h : Reads j t row) (apart : j ≠ i) (leaves : LeavesOtp i t t') : Reads j t' row :=
  ⟨leaves.reading j apart _ h.listed, leaves.newest j apart row h⟩

theorem HoldsCode.others (h : HoldsCode j t row) (apart : j ≠ i) (leaves : LeavesOtp i t t') :
    HoldsCode j t' row :=
  ⟨leaves.locks j apart _ h.lock, leaves.rows j apart row h.row h.lock⟩

theorem Tries.others (h : Tries j t row) (apart : j ≠ i) (leaves : LeavesOtp i t t') : Tries j t' row :=
  ⟨h.reads.others apart leaves, h.holds.others apart leaves, h.unverified, h.attempts⟩

theorem KnowsOtp.others (h : KnowsOtp request j t progress) (apart : j ≠ i) (leaves : LeavesOtp i t t') :
    KnowsOtp request j t' progress := by
  cases progress with
  | start | sending | closing | done => trivial
  | asking now | verifying now | consuming now => exact le_trans h leaves.clock
  | holding now => exact ⟨h.1.trans leaves.clock, leaves.locks j apart _ h.2⟩
  | counted now =>
      obtain ⟨past, lock, asks⟩ := h
      refine ⟨past.trans leaves.clock, leaves.locks j apart _ lock, fun phoneKey code addressKey same => ?_⟩
      exact leaves.asks j apart lock phoneKey addressKey now (asks phoneKey code addressKey same)
  | chosen now row => exact ⟨h.1.trans leaves.clock, h.2.others apart leaves⟩
  | locked now row => exact ⟨h.1.trans leaves.clock, h.2.others apart leaves⟩
  | judged now row =>
      obtain ⟨past, tries, below⟩ := h
      refine ⟨past.trans leaves.clock, tries.others apart leaves, ?_⟩
      exact (leaves.wrong j apart row tries.reads tries.holds.lock _).trans_lt below
  | found now row => exact ⟨h.1.others apart leaves, h.2⟩

theorem LeavesOtp.refl (i : ℕ) (t : OtpTables) : LeavesOtp i t t :=
  ⟨le_rfl, fun _ _ _ => id, fun _ _ _ => id, fun _ _ _ mem _ => mem, fun _ _ _ reads => reads.newest,
    fun _ _ _ _ _ _ => id, fun _ _ _ _ _ _ => le_rfl⟩

theorem LeavesOtp.trans {t'' : OtpTables} (h : LeavesOtp i t t') (h' : LeavesOtp i t' t'') :
    LeavesOtp i t t'' := by
  have reads : ∀ j ≠ i, ∀ row, Reads j t row → Reads j t' row := fun j apart row reads =>
    reads.others apart h
  refine ⟨h.clock.trans h'.clock, fun j apart lock held => h'.locks j apart lock (h.locks j apart lock held),
    fun j apart phone mem => h'.reading j apart phone (h.reading j apart phone mem), ?_, ?_, ?_, ?_⟩
  · intro j apart row mem held
    exact h'.rows j apart row (h.rows j apart row mem held) (h.locks j apart _ held)
  · exact fun j apart row own => h'.newest j apart row (reads j apart row own)
  · intro j apart held phone address now may
    exact h'.asks j apart (h.locks j apart _ held) phone address now (h.asks j apart held phone address now may)
  · intro j apart row own held moment
    exact (h'.wrong j apart row (reads j apart row own) (h.locks j apart _ held) moment).trans
      (h.wrong j apart row own held moment)

theorem OtpOutcome.after {t₁ : OtpTables} (first : LeavesOtp i t t₁) (h : OtpOutcome request i t₁ t' next) :
    OtpOutcome request i t t' next :=
  ⟨h.valid, h.own, first.trans h.others⟩

/-! ## Time, locks and the end of a transaction -/

theorem wrongSince_anti {phoneKey : String} {moment later : ℤ} (le : moment ≤ later) :
    t.wrongSince phoneKey later ≤ t.wrongSince phoneKey moment := by
  unfold OtpTables.wrongSince
  induction t.rows with
  | nil => exact le_rfl
  | cons row rows ih =>
      rw [sumWhere_cons, sumWhere_cons]
      refine add_le_add ?_ ih
      split
      · rename_i inside
        simp only [decide_eq_true_eq] at inside
        rw [if_pos (by simpa using ⟨inside.1, le.trans_lt inside.2⟩)]
      · exact Nat.zero_le _

theorem valid_tick (h : t.Valid) (elapsed : ℕ) : (t.tick elapsed).Valid := by
  have later : t.clock ≤ t.clock + elapsed := by omega
  refine ⟨⟨h.listed.ids, h.listed.below, fun row mem => (h.listed.past row mem).trans later,
    h.listed.phoneHour, h.listed.phoneDay, h.listed.addressHour⟩, h.sound, h.proofs, h.apart,
    fun phoneKey => ?_, ?_⟩
  · refine le_trans (wrongSince_anti ?_) (h.wrong phoneKey)
    exact sub_le_sub_right later day
  · exact ⟨h.told.order, h.told.requested, h.told.verified, h.told.consumed, h.told.tries, h.told.wrongs⟩

theorem leaves_tick (i : ℕ) (t : OtpTables) (elapsed : ℕ) : LeavesOtp i t (t.tick elapsed) := by
  have later : t.clock ≤ t.clock + elapsed := by omega
  exact ⟨later, fun _ _ _ => id, fun _ _ _ => id, fun _ _ _ mem _ => mem, fun _ _ _ reads => reads.newest,
    fun _ _ _ _ _ _ => id, fun _ _ _ _ _ _ => le_rfl⟩

/-- What a process knows lasts while time passes. -/
theorem knows_tick (h : KnowsOtp request i t progress) (elapsed : ℕ) :
    KnowsOtp request i (t.tick elapsed) progress := by
  have later : t.clock ≤ t.clock + elapsed := by omega
  cases progress with
  | start | sending | closing | done => trivial
  | asking now | verifying now | consuming now => exact le_trans h later
  | holding now => exact ⟨h.1.trans later, h.2⟩
  | counted now => exact ⟨h.1.trans later, h.2⟩
  | chosen now row => exact ⟨h.1.trans later, h.2.listed, h.2.newest⟩
  | locked now row =>
      exact ⟨h.1.trans later, ⟨h.2.reads.listed, h.2.reads.newest⟩, ⟨h.2.holds.lock, h.2.holds.row⟩,
        h.2.unverified, h.2.attempts⟩
  | judged now row =>
      obtain ⟨past, tries, below⟩ := h
      exact ⟨past.trans later, ⟨⟨tries.reads.listed, tries.reads.newest⟩,
        ⟨tries.holds.lock, tries.holds.row⟩, tries.unverified, tries.attempts⟩, below⟩
  | found now row => exact ⟨⟨h.1.lock, h.1.row⟩, h.2⟩

theorem valid_finish (h : t.Valid) (i : ℕ) : (t.finish i).Valid :=
  ⟨h.listed, h.sound, h.proofs, h.apart, h.wrong, ⟨h.told.order, h.told.requested, h.told.verified,
    h.told.consumed, h.told.tries, h.told.wrongs⟩⟩

theorem leaves_finish (i : ℕ) (t : OtpTables) : LeavesOtp i t (t.finish i) := by
  refine ⟨le_rfl, fun j apart lock held => Locks.release_keeps apart held, fun j apart phone mem => ?_,
    fun _ _ _ mem _ => mem, fun _ _ _ reads => reads.newest, fun _ _ _ _ _ _ => id,
    fun _ _ _ _ _ _ => le_rfl⟩
  exact List.mem_filter.mpr ⟨mem, by simpa using apart⟩

theorem OtpOutcome.read (h : t.Valid) (own : KnowsOtp request i t next) : OtpOutcome request i t t next :=
  ⟨h, own, .refl i t⟩

theorem OtpOutcome.refuse (h : t.Valid) : OtpOutcome request i t (t.finish i) .done :=
  ⟨valid_finish h i, trivial, leaves_finish i t⟩

/-- A lock is taken. -/
theorem OtpOutcome.lock {lock : OtpLock} {locks : Locks OtpLock ℕ} (h : t.Valid)
    (taken : t.locks.take i lock = some locks) (own : KnowsOtp request i { t with locks } next) :
    OtpOutcome request i t { t with locks } next := by
  refine ⟨⟨h.listed, h.sound, h.proofs, h.apart, h.wrong, ⟨h.told.order, h.told.requested, h.told.verified, h.told.consumed, h.told.tries,
      h.told.wrongs⟩⟩, own, le_rfl, fun j apart l held => ?_, fun _ _ _ => id, fun _ _ _ mem _ => mem,
    fun _ _ _ reads => reads.newest, fun _ _ _ _ _ _ => id, fun _ _ _ _ _ _ => le_rfl⟩
  rcases Locks.take_keeps taken held with kept | ⟨-, rfl⟩
  · exact kept
  · exact absurd rfl apart

/-! ## A row is rewritten -/

/-- A change that keeps what a code was requested with. -/
structure KeepsRequest (change : SmsCode → SmsCode) : Prop where
  id : ∀ row, (change row).id = row.id
  phoneKey : ∀ row, (change row).phoneKey = row.phoneKey
  addressKey : ∀ row, (change row).addressKey = row.addressKey
  createdAt : ∀ row, (change row).createdAt = row.createdAt

theorem keeps_wrongTry : KeepsRequest SmsCode.wrongTry :=
  ⟨fun _ => rfl, fun _ => rfl, fun _ => rfl, fun _ => rfl⟩

theorem keeps_verify (proof : ℕ) (now : ℤ) : KeepsRequest (SmsCode.verify proof now) :=
  ⟨fun _ => rfl, fun _ => rfl, fun _ => rfl, fun _ => rfl⟩

theorem keeps_close (now : ℤ) : KeepsRequest (SmsCode.close now) :=
  ⟨fun _ => rfl, fun _ => rfl, fun _ => rfl, fun _ => rfl⟩

theorem keeps_use (now : ℤ) : KeepsRequest (SmsCode.use now) :=
  ⟨fun _ => rfl, fun _ => rfl, fun _ => rfl, fun _ => rfl⟩

/-- The change of the row with one id. -/
theorem KeepsRequest.at (keeps : KeepsRequest change) (id : ℕ) :
    KeepsRequest fun row => if row.id = id then change row else row := by
  refine ⟨fun row => ?_, fun row => ?_, fun row => ?_, fun row => ?_⟩
  · split <;> simp [keeps.id]
  · split <;> simp [keeps.phoneKey]
  · split <;> simp [keeps.addressKey]
  · split <;> simp [keeps.createdAt]

theorem KeepsRequest.newest {rows : List SmsCode} (keeps : KeepsRequest change) (h : Newest rows row) :
    Newest (rows.map change) row := by
  obtain ⟨⟨r, mem, id, phone, created⟩, last⟩ := h
  refine ⟨⟨change r, List.mem_map_of_mem mem, ?_, ?_, ?_⟩, ?_⟩
  · rw [keeps.id, id]
  · rw [keeps.phoneKey, phone]
  · rw [keeps.createdAt, created]
  · intro r' mem' same
    obtain ⟨s, before, rfl⟩ := List.mem_map.mp mem'
    have quiet := last s before ((keeps.phoneKey s).symm.trans same)
    rw [newer_eq_false] at quiet ⊢
    rwa [keeps.id, keeps.createdAt]

theorem KeepsRequest.listed {rows : List SmsCode} {nextId : ℕ} {clock : ℤ} (keeps : KeepsRequest change)
    (h : Listed rows nextId clock) : Listed (rows.map change) nextId clock := by
  refine ⟨?_, ?_, ?_, fun phone => ?_, fun phone => ?_, fun address => ?_⟩
  · refine List.pairwise_map.mpr (h.ids.imp fun {a b} apart => ?_)
    rwa [keeps.id, keeps.id]
  · intro r mem
    obtain ⟨s, before, rfl⟩ := List.mem_map.mp mem
    exact keeps.id s ▸ h.below s before
  · intro r mem
    obtain ⟨s, before, rfl⟩ := List.mem_map.mp mem
    exact keeps.createdAt s ▸ h.past s before
  · exact (h.phoneHour phone).map (fun r => by simp only [keeps.phoneKey]) keeps.createdAt
  · exact (h.phoneDay phone).map (fun r => by simp only [keeps.phoneKey]) keeps.createdAt
  · exact (h.addressHour address).map (fun r => by simp only [keeps.addressKey]) keeps.createdAt

theorem mem_update {r : SmsCode} (ids : t.rows.Pairwise fun a b => a.id ≠ b.id) (mem : row ∈ t.rows)
    (there : r ∈ (t.update row.id change).rows) : r = change row ∨ r ∈ t.rows ∧ r.id ≠ row.id := by
  obtain ⟨s, before, rfl⟩ := List.mem_map.mp there
  split
  · rename_i same
    exact Or.inl (by rw [eq_of_key_eq ids before mem same])
  · exact Or.inr ⟨before, ‹_›⟩

/-- One row's share of a sum over the codes is replaced. -/
theorem sumWhere_rewritten {p : SmsCode → Bool} {f : SmsCode → ℕ} (change : SmsCode → SmsCode)
    (ids : t.rows.Pairwise fun a b => a.id ≠ b.id) (mem : row ∈ t.rows) (same : p (change row) = p row) :
    sumWhere p f (t.update row.id change).rows + (if p row then f row else 0) =
      sumWhere p f t.rows + if p row then f (change row) else 0 := by
  have replaced := sumWhere_update (p := p) (f := f) change ids mem
  rwa [same] at replaced

theorem wrongSince_update (keeps : KeepsRequest change)
    (ids : t.rows.Pairwise fun a b => a.id ≠ b.id) (mem : row ∈ t.rows) (phoneKey : String) (moment : ℤ) :
    (t.update row.id change).wrongSince phoneKey moment +
        (if row.phoneKey = phoneKey ∧ moment < row.createdAt then row.wrong else 0) =
      t.wrongSince phoneKey moment +
        if row.phoneKey = phoneKey ∧ moment < row.createdAt then (change row).wrong else 0 := by
  have replaced := sumWhere_rewritten (p := fun r => decide (r.phoneKey = phoneKey ∧ moment < r.createdAt))
    (f := SmsCode.wrong) change ids mem (by simp only [keeps.phoneKey, keeps.createdAt])
  simpa only [decide_eq_true_eq, OtpTables.wrongSince] using replaced

/-- A process rewrites a row that no other holds. -/
theorem LeavesOtp.update (keeps : KeepsRequest change)
    (free : ∀ j ≠ i, t.locks (.code id) ≠ some j)
    (wrong : ∀ j ≠ i, ∀ row, Reads j t row → t.locks (.code row.id) = some j → ∀ moment,
      (t.update id change).wrongSince row.phoneKey moment ≤ t.wrongSince row.phoneKey moment) :
    LeavesOtp i t (t.update id change) := by
  have kept := keeps.at id
  refine ⟨le_rfl, fun _ _ _ held => held, fun _ _ _ mem => mem, ?_, ?_, ?_, wrong⟩
  · intro j apart row mem held
    have other : row.id ≠ id := fun same => free j apart (same ▸ held)
    exact List.mem_map.mpr ⟨row, mem, if_neg other⟩
  · exact fun j _ row reads => kept.newest reads.newest
  · intro j _ _ phoneKey addressKey now may
    have phone : ∀ moment, (t.update id change).phoneSince phoneKey moment = t.phoneSince phoneKey moment := by
      intro moment
      simp only [OtpTables.phoneSince, since, OtpTables.update, List.countP_map, Function.comp_def,
        kept.phoneKey, kept.createdAt]
    have address : ∀ moment,
        (t.update id change).addressSince addressKey moment = t.addressSince addressKey moment := by
      intro moment
      simp only [OtpTables.addressSince, since, OtpTables.update, List.countP_map, Function.comp_def,
        kept.addressKey, kept.createdAt]
    simpa only [OtpTables.mayAsk, phone, address] using may

/-- The commit of a changed row with what it adds to the history. -/
def OtpTables.commit (t : OtpTables) (row : SmsCode) (change : SmsCode → SmsCode)
    (event : Option OtpEvent) (nextProof : ℕ) : OtpTables :=
  { t.update row.id change with history := t.history ++ event.toList, nextProof := nextProof }

/-- A changed row goes with its event. -/
structure Commits (t : OtpTables) (row : SmsCode) (change : SmsCode → SmsCode) (event : Option OtpEvent)
    (nextProof : ℕ) : Prop where
  keeps : KeepsRequest change
  sound : (change row).Sound
  grows : t.nextProof ≤ nextProof
  proof : ∀ v ∈ (change row).verification,
    v.proof < nextProof ∧ ((∃ w ∈ row.verification, w.proof = v.proof) ∨ t.nextProof ≤ v.proof)
  used : ∀ v ∈ row.verification, ∃ w ∈ (change row).verification,
    w.proof = v.proof ∧ (v.usedAt ≠ none → w.usedAt ≠ none)
  order : ∀ e ∈ event, ∀ earlier ∈ t.history, Orderly earlier e
  verified : ∀ r moment, event = some (.verified r moment) →
    r.id = row.id ∧ (change row).verification ≠ none
  consumed : ∀ phoneKey proof moment, event = some (.consumed phoneKey proof moment) →
    row.phoneKey = phoneKey ∧ ∃ v ∈ (change row).verification, v.proof = proof ∧ v.usedAt ≠ none
  requested : ∀ r, event ≠ some (.requested r)
  tries : ∀ id, event.toList.countP (OtpEvent.triesCode id) + (if row.id = id then row.attempts else 0) =
    if row.id = id then (change row).attempts else 0
  wrongs : ∀ phoneKey moment, event.toList.countP (OtpEvent.wrongOn phoneKey moment) +
      (if row.phoneKey = phoneKey ∧ moment < row.createdAt then row.wrong else 0) =
    if row.phoneKey = phoneKey ∧ moment < row.createdAt then (change row).wrong else 0
  limit : ∀ phoneKey,
    (t.update row.id change).wrongSince phoneKey (t.clock - day) ≤ OTP_WRONG_PER_PHONE_DAY_MAX

theorem told_commit {event : Option OtpEvent} {nextProof : ℕ} (h : t.Valid) (mem : row ∈ t.rows)
    (commits : Commits t row change event nextProof) : Told (t.commit row change event nextProof) := by
  have ids := h.listed.ids
  have kept := commits.keeps.at row.id
  have moved : ∀ r ∈ t.rows, (if r.id = row.id then change r else r) ∈ (t.update row.id change).rows :=
    fun r there => List.mem_map_of_mem there
  have changed : change row ∈ (t.update row.id change).rows := by
    have there := moved row mem
    rwa [if_pos rfl] at there
  have old : ∀ e ∈ t.history ++ event.toList, e ∈ t.history ∨ event = some e := by
    intro e there
    rcases List.mem_append.mp there with earlier | new
    · exact Or.inl earlier
    · exact Or.inr (Option.mem_toList.mp new)
  refine ⟨?_, ?_, ?_, ?_, ?_, ?_⟩
  · refine List.pairwise_append.mpr ⟨h.told.order, ?_, ?_⟩
    · cases event with
      | none => exact List.Pairwise.nil
      | some e => exact List.pairwise_singleton _ _
    · exact fun earlier there e new => commits.order e (Option.mem_toList.mp new) earlier there
  · intro r there
    rcases old _ there with earlier | new
    · obtain ⟨s, known, id, phone, created⟩ := h.told.requested r earlier
      refine ⟨_, moved s known, ?_, ?_, ?_⟩
      · rw [kept.id, id]
      · rw [kept.phoneKey, phone]
      · rw [kept.createdAt, created]
    · exact absurd new (commits.requested r)
  · intro r moment there
    rcases old _ there with earlier | new
    · obtain ⟨s, known, id, done⟩ := h.told.verified r moment earlier
      refine ⟨_, moved s known, (kept.id s).trans id, ?_⟩
      split
      · rename_i same
        obtain rfl := eq_of_key_eq ids known mem same
        obtain ⟨v, here⟩ := Option.ne_none_iff_exists'.mp done
        obtain ⟨w, there, -⟩ := commits.used v here
        rw [Option.mem_def.mp there]
        exact Option.some_ne_none w
      · exact done
    · obtain ⟨id, done⟩ := commits.verified r moment new
      exact ⟨_, changed, (commits.keeps.id row).trans id.symm, done⟩
  · intro phone proof moment there
    rcases old _ there with earlier | new
    · obtain ⟨s, known, own, v, here, same, spent⟩ := h.told.consumed phone proof moment earlier
      refine ⟨_, moved s known, (kept.phoneKey s).trans own, ?_⟩
      split
      · rename_i id
        obtain rfl := eq_of_key_eq ids known mem id
        obtain ⟨w, there, still, stays⟩ := commits.used v here
        exact ⟨w, there, still.trans same, stays spent⟩
      · exact ⟨v, here, same, spent⟩
    · obtain ⟨own, rest⟩ := commits.consumed phone proof moment new
      exact ⟨_, changed, (commits.keeps.phoneKey row).trans own, rest⟩
  · intro id
    have replaced := sumWhere_rewritten (p := fun r => decide (r.id = id)) (f := SmsCode.attempts) change ids
      mem (by simp only [commits.keeps.id])
    simp only [decide_eq_true_eq] at replaced
    have own := commits.tries id
    have before := h.told.tries id
    show (t.history ++ event.toList).countP _ = sumWhere _ _ (t.update row.id change).rows
    rw [List.countP_append]
    omega
  · intro phone moment
    have replaced := wrongSince_update commits.keeps ids mem phone moment
    have own := commits.wrongs phone moment
    have before := h.told.wrongs phone moment
    show (t.history ++ event.toList).countP _ = (t.update row.id change).wrongSince phone moment
    rw [List.countP_append]
    omega

theorem valid_commit {event : Option OtpEvent} {nextProof : ℕ} (h : t.Valid) (mem : row ∈ t.rows)
    (commits : Commits t row change event nextProof) : (t.commit row change event nextProof).Valid := by
  have ids := h.listed.ids
  refine ⟨(commits.keeps.at row.id).listed h.listed, ?_, ?_, ?_, commits.limit, told_commit h mem commits⟩
  · intro r there
    rcases mem_update ids mem there with rfl | ⟨before, -⟩
    · exact commits.sound
    · exact h.sound r before
  · intro r there v here
    rcases mem_update ids mem there with rfl | ⟨before, -⟩
    · exact (commits.proof v here).1
    · exact (h.proofs r before v here).trans_le commits.grows
  · have new : ∀ b ∈ t.rows, (∀ v ∈ row.verification, ∀ w ∈ b.verification, v.proof ≠ w.proof) →
        ∀ v ∈ (change row).verification, ∀ w ∈ b.verification, v.proof ≠ w.proof := by
      intro b known apart v here w there
      rcases (commits.proof v here).2 with ⟨u, old, same⟩ | fresh
      · exact same ▸ apart u old w there
      · exact ((h.proofs b known w there).trans_le fresh).ne'
    refine List.pairwise_map.mpr ((ids.and h.apart).imp_of_mem fun {a b} aMem bMem both => ?_)
    obtain ⟨other, apart⟩ := both
    split <;> split
    · exact absurd (Eq.trans ‹_› (Eq.symm ‹_›)) other
    · obtain rfl := eq_of_key_eq ids aMem mem ‹_›
      exact new b bMem apart
    · obtain rfl := eq_of_key_eq ids bMem mem ‹_›
      intro v here w there eq
      exact new a aMem (fun v here w there eq => apart w there v here eq.symm) w there v here eq.symm
    · exact apart

/-! ## The four changes of a row -/

theorem wrong_of_unverified (unverified : row.verification = none) : row.wrong = row.attempts := by
  simp [SmsCode.wrong, unverified]

theorem limit_of_same_wrong (h : t.Valid) (mem : row ∈ t.rows) (keeps : KeepsRequest change)
    (same : (change row).wrong = row.wrong) (phoneKey : String) :
    (t.update row.id change).wrongSince phoneKey (t.clock - day) ≤ OTP_WRONG_PER_PHONE_DAY_MAX := by
  have replaced := wrongSince_update keeps h.listed.ids mem phoneKey (t.clock - day)
  rw [same] at replaced
  exact (Nat.add_right_cancel replaced).le.trans (h.wrong phoneKey)

theorem commits_wrongTry (h : t.Valid) (tries : Tries i t row) (past : now ≤ t.clock)
    (below : t.wrongSince row.phoneKey (now - day) < OTP_WRONG_PER_PHONE_DAY_MAX) :
    Commits t row SmsCode.wrongTry (some (.wrongTry row t.clock)) t.nextProof := by
  have unverified := tries.unverified
  have more : row.wrongTry.wrong = row.wrong + 1 := by
    have still : row.wrongTry.verification = none := unverified
    rw [wrong_of_unverified unverified, wrong_of_unverified still]
    rfl
  refine ⟨keeps_wrongTry, ⟨tries.attempts, fun done => absurd unverified done⟩, le_rfl, ?_, ?_, ?_, ?_, ?_,
    ?_, ?_, ?_, ?_⟩
  · intro v here
    rw [show row.wrongTry.verification = none from unverified] at here
    cases here
  · intro v here
    rw [unverified] at here
    cases here
  · intro e new earlier _
    cases Option.some.inj new
    cases earlier <;> trivial
  · intro r moment new
    cases new
  · intro phone proof moment new
    cases new
  · intro r new
    cases new
  · intro id
    by_cases same : row.id = id
    · simp [OtpEvent.triesCode, same, SmsCode.wrongTry, Nat.add_comm]
    · simp [OtpEvent.triesCode, same]
  · intro phone moment
    by_cases inside : row.phoneKey = phone ∧ moment < row.createdAt
    · simp [OtpEvent.wrongOn, inside, more, Nat.add_comm]
    · simp only [if_neg inside, Option.toList_some, List.countP_singleton, OtpEvent.wrongOn,
        decide_eq_true_eq]
  · intro phone
    have replaced := wrongSince_update keeps_wrongTry h.listed.ids tries.holds.row phone (t.clock - day)
    by_cases own : row.phoneKey = phone
    · subst own
      have older : t.wrongSince row.phoneKey (t.clock - day) ≤ t.wrongSince row.phoneKey (now - day) :=
        wrongSince_anti (sub_le_sub_right past day)
      rw [more] at replaced
      split at replaced <;> omega
    · have limit := h.wrong phone
      simp only [own, false_and, if_false] at replaced
      omega

theorem commits_verify (h : t.Valid) (tries : Tries i t row) :
    Commits t row (SmsCode.verify t.nextProof now) (some (.verified row t.clock)) (t.nextProof + 1) := by
  have unverified := tries.unverified
  have same : (row.verify t.nextProof now).wrong = row.wrong := by
    rw [wrong_of_unverified unverified]
    simp [SmsCode.wrong, SmsCode.verify]
  refine ⟨keeps_verify _ _, ⟨tries.attempts, fun _ => Nat.succ_pos _⟩, Nat.le_succ _, ?_, ?_, ?_, ?_, ?_,
    ?_, ?_, ?_, limit_of_same_wrong h tries.holds.row (keeps_verify _ _) same⟩
  · intro v here
    cases Option.some.inj here
    exact ⟨Nat.lt_succ_self _, Or.inr le_rfl⟩
  · intro v here
    rw [unverified] at here
    cases here
  · intro e new earlier there
    cases Option.some.inj new
    cases earlier with
    | requested r =>
        -- the requested code is a row, and no row of the phone is newer
        intro own
        obtain ⟨s, known, id, phone, created⟩ := h.told.requested r there
        have quiet := tries.reads.newest.last s known (phone.trans own)
        rw [newer_eq_false] at quiet ⊢
        rwa [← id, ← created]
    | verified r moment =>
        intro eq
        obtain ⟨s, known, id, done⟩ := h.told.verified r moment there
        obtain rfl := eq_of_key_eq h.listed.ids known tries.holds.row (id.trans eq)
        exact done unverified
    | wrongTry | consumed => trivial
  · intro r moment new
    cases new
    exact ⟨rfl, Option.some_ne_none _⟩
  · intro phone proof moment new
    cases new
  · intro r new
    cases new
  · intro id
    by_cases own : row.id = id
    · simp [OtpEvent.triesCode, own, SmsCode.verify, Nat.add_comm]
    · simp [OtpEvent.triesCode, own]
  · intro phone moment
    rw [same]
    simp [OtpEvent.wrongOn]

theorem commits_close (h : t.Valid) (mem : row ∈ t.rows) :
    Commits t row (SmsCode.close now) none t.nextProof := by
  have same : (row.close now).wrong = row.wrong := rfl
  have sound := h.sound row mem
  refine ⟨keeps_close _, ⟨sound.attempts, sound.counted⟩, le_rfl, ?_, ?_, ?_, ?_, ?_, ?_, ?_, ?_,
    limit_of_same_wrong h mem (keeps_close _) same⟩
  · exact fun v here => ⟨h.proofs row mem v here, Or.inl ⟨v, here, rfl⟩⟩
  · exact fun v here => ⟨v, here, rfl, id⟩
  · intro e new
    cases new
  · intro r moment new
    cases new
  · intro phone proof moment new
    cases new
  · intro r new
    cases new
  · intro id
    simp [SmsCode.close]
  · intro phone moment
    simp [same]

theorem commits_use {phoneKey : String} {proof : ℕ} (h : t.Valid) (holds : HoldsCode i t row)
    (own : row.phoneKey = phoneKey) {v : PhoneProof} (here : v ∈ row.verification)
    (matching : v.proof = proof) (unused : v.usedAt = none) :
    Commits t row (SmsCode.use now) (some (.consumed phoneKey proof t.clock)) t.nextProof := by
  have after : (row.use now).verification = some { v with usedAt := some now } := by
    simp [SmsCode.use, Option.mem_def.mp here]
  have same : (row.use now).wrong = row.wrong := by
    simp [SmsCode.wrong, SmsCode.use, Option.mem_def.mp here]
  have sound := h.sound row holds.row
  refine ⟨keeps_use _, ⟨sound.attempts, fun _ => sound.counted (by simp [Option.mem_def.mp here])⟩, le_rfl,
    ?_, ?_, ?_, ?_, ?_, ?_, ?_, ?_, limit_of_same_wrong h holds.row (keeps_use _) same⟩
  · intro w there
    rw [after] at there
    cases Option.some.inj there
    exact ⟨h.proofs row holds.row v here, Or.inl ⟨v, here, rfl⟩⟩
  · intro w there
    cases Option.some.inj (here.symm.trans there)
    exact ⟨_, after, rfl, fun _ => Option.some_ne_none _⟩
  · intro e new earlier there
    cases Option.some.inj new
    cases earlier with
    | consumed phone spent moment =>
        rintro rfl
        obtain ⟨s, known, -, w, there, equal, used⟩ := h.told.consumed phone spent moment there
        by_cases row_eq : s = row
        · subst row_eq
          cases Option.some.inj (here.symm.trans there)
          exact used unused
        · have symmetric : Std.Symm fun a b : SmsCode =>
              ∀ v ∈ a.verification, ∀ w ∈ b.verification, v.proof ≠ w.proof :=
            ⟨fun a b apart v here w there eq => apart w there v here eq.symm⟩
          exact h.apart.forall known holds.row row_eq w there v here (equal.trans matching.symm)
    | requested | wrongTry | verified => trivial
  · intro r moment new
    cases new
  · intro phone spent moment new
    cases new
    exact ⟨own, _, after, matching, Option.some_ne_none _⟩
  · intro r new
    cases new
  · intro id
    simp [OtpEvent.triesCode, SmsCode.use]
  · intro phone moment
    rw [same]
    simp [OtpEvent.wrongOn]

end Outline

end PapitalErp.LoginCodes
