import PapitalErp.Storefront.LoginCodeLimits

/-!
# Every schedule of requests, verifications and consumptions

Each statement keeps the tables valid and disturbs no other process, as long as no code is
committed while a verification of its phone is open. The wrong tries are counted over the
codes of the last day: tries on an older code may still fall into the same day.
-/

namespace PapitalErp.LoginCodes

open Interleaving SlidingWindow FilteredSums

section Statements

variable {requests : ℕ → OtpRequest} {request : OtpRequest} {i j id : ℕ} {t t' : OtpTables}
  {progress next : OtpProgress} {row other new : SmsCode} {now : ℤ} {change : SmsCode → SmsCode}

/-! ## The commit of a changed row -/

theorem OtpTables.update_of_absent (absent : ∀ row ∈ t.rows, row.id ≠ id) : t.update id change = t := by
  have same : (t.rows.map fun row => if row.id = id then change row else row) = t.rows := by
    conv_rhs => rw [← List.map_id t.rows]
    exact List.map_congr_left fun row mem => if_neg (absent row mem)
  simp only [OtpTables.update, same]

/-- The wrong tries of a phone where a row counts no more than before. -/
theorem wrongSince_update_le (keeps : KeepsRequest change) (h : t.Valid) (mem : row ∈ t.rows)
    {phoneKey : String} {moment : ℤ} (le : row.phoneKey = phoneKey → (change row).wrong ≤ row.wrong) :
    (t.update row.id change).wrongSince phoneKey moment ≤ t.wrongSince phoneKey moment := by
  have replaced := wrongSince_update keeps h.listed.ids mem phoneKey moment
  split at replaced
  · rename_i inside
    have fewer := le inside.1
    omega
  · omega

theorem OtpOutcome.commit {event : Option OtpEvent} {nextProof : ℕ} (h : t.Valid) (mem : row ∈ t.rows)
    (commits : Commits t row change event nextProof) (free : ∀ j ≠ i, t.locks (.code row.id) ≠ some j)
    (wrong : ∀ j ≠ i, ∀ other, Reads j t other → t.locks (.code other.id) = some j →
      row.phoneKey = other.phoneKey → (change row).wrong ≤ row.wrong) :
    OtpOutcome request i t ((t.commit row change event nextProof).finish i) .done := by
  have left : LeavesOtp i t (t.update row.id change) := by
    refine .update commits.keeps free fun j apart other reads held moment => ?_
    exact wrongSince_update_le commits.keeps h mem (wrong j apart other reads held)
  have leaves : LeavesOtp i t (t.commit row change event nextProof) :=
    ⟨left.clock, left.locks, left.reading, left.rows, left.newest, left.asks, left.wrong⟩
  exact .after leaves (.refuse (valid_commit h mem commits))

theorem HoldsCode.free (holds : HoldsCode i t row) : ∀ j ≠ i, t.locks (.code row.id) ≠ some j :=
  fun _ apart held => apart (Option.some.inj (held.symm.trans holds.lock))

/-- Two open verifications that hold the newest code of one phone are one. -/
theorem Tries.alone (tries : Tries i t row) (apart : j ≠ i) (reads : Reads j t other)
    (held : t.locks (.code other.id) = some j) : row.phoneKey ≠ other.phoneKey := by
  intro same
  have id_eq := tries.reads.newest.id_eq reads.newest same
  exact tries.holds.free j apart (id_eq ▸ held)

theorem tryCode_outcome {code : String} (h : t.Valid) (tries : Tries i t row) (past : now ≤ t.clock)
    (below : t.wrongSince row.phoneKey (now - day) < OTP_WRONG_PER_PHONE_DAY_MAX) :
    OtpOutcome request i t ((tryCode t code now row).finish i) .done := by
  have alone : ∀ change : SmsCode → SmsCode, ∀ j ≠ i, ∀ other, Reads j t other →
      t.locks (.code other.id) = some j → row.phoneKey = other.phoneKey → (change row).wrong ≤ row.wrong :=
    fun _ j apart other reads held same => absurd same (tries.alone apart reads held)
  unfold tryCode
  split
  · exact .commit h tries.holds.row (commits_verify h tries) tries.holds.free (alone _)
  · exact .commit h tries.holds.row (commits_wrongTry h tries past below) tries.holds.free (alone _)

theorem close_outcome (h : t.Valid) (free : t.locks (.code id) = none) :
    OtpOutcome request i t (t.update id (SmsCode.close now)) .done := by
  by_cases known : ∃ row ∈ t.rows, row.id = id
  · obtain ⟨row, mem, rfl⟩ := known
    have commits : Commits t row (SmsCode.close now) none t.nextProof := commits_close h mem
    have same : t.commit row (SmsCode.close now) none t.nextProof = t.update row.id (SmsCode.close now) := by
      simp only [OtpTables.commit, Option.toList_none, List.append_nil]
      rfl
    have valid := valid_commit h mem commits
    rw [same] at valid
    refine ⟨valid, trivial, .update commits.keeps (fun j _ held => ?_) fun j _ other _ _ moment => ?_⟩
    · rw [free] at held
      cases held
    · exact wrongSince_update_le commits.keeps h mem fun _ => le_rfl
  · have absent : ∀ row ∈ t.rows, row.id ≠ id := fun row mem same => known ⟨row, mem, same⟩
    rw [OtpTables.update_of_absent absent]
    exact .read h trivial

theorem use_outcome {phoneKey : String} {proof : ℕ} (h : t.Valid) (holds : HoldsCode i t row)
    (own : row.phoneKey = phoneKey) {v : PhoneProof} (here : v ∈ row.verification)
    (matching : v.proof = proof) (unused : v.usedAt = none) :
    OtpOutcome request i t
      (((t.update row.id (SmsCode.use now)).record (.consumed phoneKey proof t.clock)).finish i) .done := by
  have same : (row.use now).wrong = row.wrong := by
    simp [SmsCode.wrong, SmsCode.use, Option.mem_def.mp here]
  exact .commit h holds.row (commits_use h holds own here matching unused) holds.free
    fun _ _ _ _ _ _ => same.le

/-! ## A new code -/

section Insert

variable {phoneKey code addressKey : String}

theorem listed_newCode (h : Listed t.rows t.nextId t.clock) (past : now ≤ t.clock)
    (may : t.mayAsk phoneKey addressKey now) :
    Listed (t.rows ++ [t.newCode phoneKey code addressKey now]) (t.nextId + 1) t.clock := by
  obtain ⟨perHour, perDay, perAddress⟩ := may
  refine ⟨?_, ?_, ?_, fun phone => ?_, fun phone => ?_, fun address => ?_⟩
  · refine List.pairwise_append.mpr ⟨h.ids, List.pairwise_singleton _ _, fun row mem r there => ?_⟩
    cases List.mem_singleton.mp there
    exact (h.below row mem).ne
  · intro row mem
    rcases List.mem_append.mp mem with earlier | here
    · exact (h.below row earlier).trans (Nat.lt_succ_self _)
    · cases List.mem_singleton.mp here
      exact Nat.lt_succ_self _
  · intro row mem
    rcases List.mem_append.mp mem with earlier | here
    · exact h.past row earlier
    · cases List.mem_singleton.mp here
      exact past
  · refine (h.phoneHour phone).append fun own => ?_
    cases of_decide_eq_true own
    exact perHour
  · refine (h.phoneDay phone).append fun own => ?_
    cases of_decide_eq_true own
    exact perDay
  · refine (h.addressHour address).append fun own => ?_
    cases of_decide_eq_true own
    exact perAddress

/-- A new code has no tries. -/
theorem sumWhere_newCode {p : SmsCode → Bool} {f : SmsCode → ℕ} {rows : List SmsCode} (zero : f new = 0) :
    sumWhere p f (rows ++ [new]) = sumWhere p f rows := by
  rw [sumWhere_append, sumWhere_cons, sumWhere_nil, zero, ite_self, add_zero, add_zero]

theorem wrongSince_insert (zero : new.wrong = 0) (phone : String) (moment : ℤ) :
    (t.insert new).wrongSince phone moment = t.wrongSince phone moment :=
  sumWhere_newCode zero

theorem told_insert (h : Told t) (attempts : new.attempts = 0) (wrong : new.wrong = 0) :
    Told ((t.insert new).record (.requested new)) := by
  have kept : ∀ row ∈ t.rows, row ∈ t.rows ++ [new] := fun row mem => List.mem_append_left _ mem
  refine ⟨?_, fun row mem => ?_, fun row moment mem => ?_, fun phone proof moment mem => ?_, fun id => ?_,
    fun phone moment => ?_⟩
  · refine List.pairwise_append.mpr ⟨h.order, List.pairwise_singleton _ _, fun e _ e' mem => ?_⟩
    cases List.mem_singleton.mp mem
    cases e <;> trivial
  · rcases List.mem_append.mp mem with earlier | here
    · obtain ⟨r, known, rest⟩ := h.requested row earlier
      exact ⟨r, kept r known, rest⟩
    · cases List.mem_singleton.mp here
      exact ⟨new, List.mem_append_right _ List.mem_cons_self, rfl, rfl, rfl⟩
  · rcases List.mem_append.mp mem with earlier | here
    · obtain ⟨r, known, rest⟩ := h.verified row moment earlier
      exact ⟨r, kept r known, rest⟩
    · cases List.mem_singleton.mp here
  · rcases List.mem_append.mp mem with earlier | here
    · obtain ⟨r, known, rest⟩ := h.consumed phone proof moment earlier
      exact ⟨r, kept r known, rest⟩
    · cases List.mem_singleton.mp here
  · show (t.history ++ [_]).countP _ = sumWhere _ _ (t.rows ++ [new])
    rw [List.countP_append, sumWhere_newCode attempts, h.tries id]
    rfl
  · show (t.history ++ [_]).countP _ = (t.insert new).wrongSince phone moment
    rw [List.countP_append, wrongSince_insert wrong, h.wrongs phone moment]
    rfl

theorem insert_outcome (h : t.Valid) (past : now ≤ t.clock) (lock : t.locks .requests = some i)
    (may : t.mayAsk phoneKey addressKey now) (quiet : ∀ entry ∈ t.reading, entry.2 ≠ phoneKey) :
    let row := t.newCode phoneKey code addressKey now
    OtpOutcome request i t (((t.insert row).record (.requested row)).finish i) (.sending row.id) := by
  intro row
  have wrong : row.wrong = 0 := rfl
  have valid : ((t.insert row).record (.requested row)).Valid := by
    refine ⟨listed_newCode h.listed past may, fun r mem => ?_, fun r mem v here => ?_, ?_, fun phone => ?_,
      told_insert h.told rfl wrong⟩
    · rcases List.mem_append.mp mem with earlier | last
      · exact h.sound r earlier
      · cases List.mem_singleton.mp last
        exact ⟨Nat.zero_le _, fun verified => absurd rfl verified⟩
    · rcases List.mem_append.mp mem with earlier | last
      · exact h.proofs r earlier v here
      · cases List.mem_singleton.mp last
        cases here
    · refine List.pairwise_append.mpr ⟨h.apart, List.pairwise_singleton _ _, fun r _ s last => ?_⟩
      cases List.mem_singleton.mp last
      intro v _ w there
      cases there
    · exact (wrongSince_insert wrong phone (t.clock - day)).le.trans (h.wrong phone)
  have leaves : LeavesOtp i t ((t.insert row).record (.requested row)) := by
    refine ⟨le_rfl, fun _ _ _ => id, fun _ _ _ => id, fun j _ r mem _ => List.mem_append_left _ mem, ?_, ?_,
      fun j _ r _ _ moment => (wrongSince_insert wrong r.phoneKey moment).le⟩
    · intro j _ r reads
      obtain ⟨⟨s, known, rest⟩, last⟩ := reads.newest
      refine ⟨⟨s, List.mem_append_left _ known, rest⟩, fun s mem own => ?_⟩
      rcases List.mem_append.mp mem with earlier | here
      · exact last s earlier own
      · cases List.mem_singleton.mp here
        exact absurd own.symm (quiet _ reads.listed)
    · intro j apart held
      exact absurd (Option.some.inj (held.symm.trans lock)) apart
  exact .after leaves ⟨valid_finish valid i, trivial, leaves_finish i _⟩

end Insert

/-! ## The statements -/

/-- The newest code under its lock is the row the verification read. -/
theorem lockCode_outcome (h : t.Valid) (past : now ≤ t.clock) (reads : Reads i t row)
    (runs : lockCode i t now row = some (t', next)) : OtpOutcome request i t t' next := by
  obtain ⟨locks, taken, result⟩ := Option.map_eq_some_iff.mp runs
  have locked : OtpOutcome request i t { t with locks } .done := .lock h taken trivial
  dsimp only at result
  split at result
  · cases result
    exact .after locked.others (.refuse locked.valid)
  · rename_i r found
    have mem : r ∈ t.rows := List.mem_of_find?_eq_some found
    have same : r.id = row.id := by simpa using List.find?_some found
    obtain ⟨⟨s, known, id, phone, created⟩, last⟩ := reads.newest
    obtain rfl := eq_of_key_eq h.listed.ids known mem (id.trans same.symm)
    split at result
    · rename_i open'
      cases result
      have listed : (i, s.phoneKey) ∈ t.reading := phone ▸ reads.listed
      have newest : Newest t.rows s := by
        refine ⟨⟨s, mem, rfl, rfl, rfl⟩, fun other there own => ?_⟩
        have quiet := newer_eq_false.mp (last other there (own.trans phone))
        rw [newer_eq_false]
        omega
      refine .lock h taken ⟨past, ⟨listed, newest⟩, ⟨?_, mem⟩, open'.1, open'.2⟩
      rw [id]
      exact Locks.take_self taken
    · cases result
      exact .after locked.others (.refuse locked.valid)

theorem lockProof_outcome {phoneKey : String} {proof : ℕ} (h : t.Valid)
    (runs : lockProof i t phoneKey proof now = some (t', next)) :
    OtpOutcome (.consumePhoneProof phoneKey proof) i t t' next := by
  unfold lockProof at runs
  split at runs
  · cases runs
    exact .refuse h
  · rename_i row found
    obtain ⟨locks, taken, result⟩ := Option.map_eq_some_iff.mp runs
    cases result
    have meets := List.find?_some found
    simp only [Bool.and_eq_true, decide_eq_true_eq, Option.any_eq_true] at meets
    obtain ⟨own, v, here, matching, unused, -⟩ := meets
    refine .lock h taken ⟨⟨Locks.take_self taken, List.mem_of_find?_eq_some found⟩, ?_⟩
    rintro phone spent ⟨⟩
    exact ⟨own, v, here, matching, unused⟩

theorem otpProceed_outcome {ok : Bool} (h : t.Valid) (knows : KnowsOtp request i t progress)
    (quiet : ∀ phoneKey code addressKey now, request = .requestOtp phoneKey code addressKey →
      progress = .counted now → ∀ entry ∈ t.reading, entry.2 ≠ phoneKey)
    (runs : otpProceed i t request ok progress = some (t', next)) : OtpOutcome request i t t' next := by
  unfold otpProceed at runs
  split at runs
  · cases runs
    refine .read h ?_
    cases ok
    · trivial
    · exact le_rfl
  · cases runs
    refine .read h ?_
    cases ok
    · trivial
    · exact le_rfl
  · cases runs
    exact .read h le_rfl
  · obtain ⟨locks, taken, result⟩ := Option.map_eq_some_iff.mp runs
    cases result
    exact .lock h taken ⟨knows, Locks.take_self taken⟩
  · split at runs
    · rename_i may
      cases runs
      refine .read h ⟨knows.1, knows.2, ?_⟩
      rintro phone code address ⟨⟩
      exact may.2
    · cases runs
      exact .refuse h
  · obtain ⟨past, lock, may⟩ := knows
    cases runs
    exact insert_outcome h past lock (may _ _ _ rfl) (quiet _ _ _ _ rfl rfl)
  · cases runs
    refine .read h ?_
    split <;> trivial
  · split at runs
    · cases runs
      exact close_outcome h ‹_›
    · cases runs
  · split at runs
    · cases runs
      exact .refuse h
    · rename_i row found
      cases runs
      obtain ⟨rfl, newest⟩ := newest_of_newestCode found
      refine ⟨⟨h.listed, h.sound, h.proofs, h.apart, h.wrong, ⟨h.told.order, h.told.requested,
        h.told.verified, h.told.consumed, h.told.tries, h.told.wrongs⟩⟩,
        ⟨knows, List.mem_cons_self, newest⟩, le_rfl, fun _ _ _ => id,
        fun _ _ _ mem => List.mem_cons_of_mem _ mem, fun _ _ _ mem _ => mem,
        fun _ _ _ reads => reads.newest, fun _ _ _ _ _ _ => id, fun _ _ _ _ _ _ => le_rfl⟩
  · exact lockCode_outcome h knows.1 knows.2 runs
  · split at runs
    · rename_i below
      cases runs
      exact .read h ⟨knows.1, knows.2, below.1⟩
    · cases runs
      exact .refuse h
  · cases runs
    exact tryCode_outcome h knows.2.1 knows.1 knows.2.2
  · exact lockProof_outcome h runs
  · split at runs
    · obtain ⟨holds, reads⟩ := knows
      obtain ⟨own, v, here, matching, unused⟩ := reads _ _ rfl
      cases runs
      exact use_outcome h holds own here matching unused
    · cases runs
      exact .refuse h
  · cases runs

theorem otpStatement_outcome {turn : OtpTurn} (h : t.Valid) (knows : KnowsOtp (requests i) i t progress)
    (quiet : NoneReading requests i turn t progress)
    (runs : otpStatement requests i turn t progress = some (t', next)) :
    OtpOutcome (requests i) i t t' next := by
  cases turn with
  | die =>
      cases runs
      exact .refuse h
  | proceed elapsed ok =>
      refine .after (leaves_tick i t elapsed) (otpProceed_outcome (valid_tick h elapsed)
        (knows_tick knows elapsed) (fun phone code address now asks counted => ?_) runs)
      subst counted
      simp only [NoneReading, asks] at quiet
      exact quiet

/-- All statements follow the outline. -/
theorem otpOutline (requests : ℕ → OtpRequest) :
    Outline (otpStatement requests) (NoneReading requests) OtpTables.Valid
      (fun i => KnowsOtp (requests i) i) where
  own h knows quiet runs :=
    have outcome := otpStatement_outcome h knows quiet runs
    ⟨outcome.valid, outcome.own⟩
  others apart h knows other quiet runs :=
    other.others apart (otpStatement_outcome h knows quiet runs).others

end Statements

/-! ## All schedules -/

/-- A wrong try on a code of the phone in a span of time. -/
def OtpEvent.wrongIn (phoneKey : String) (moment length : ℤ) : OtpEvent → Bool
  | .wrongTry row tried => decide (row.phoneKey = phoneKey ∧ moment ≤ tried ∧ tried ≤ moment + length)
  | _ => false

/-- The limits of guesses, of codes and of proofs. -/
structure WithinLimits (t : OtpTables) : Prop where
  orderly : t.history.Pairwise Orderly
  tries : ∀ id, t.history.countP (OtpEvent.triesCode id) ≤ OTP_VERIFY_ATTEMPTS_MAX
  wrong : ∀ phoneKey,
    t.history.countP (OtpEvent.wrongOn phoneKey (t.clock - day)) ≤ OTP_WRONG_PER_PHONE_DAY_MAX
  phoneHour : ∀ phoneKey, Limited (fun row => decide (row.phoneKey = phoneKey)) SmsCode.createdAt hour
    OTP_PER_PHONE_HOUR_MAX t.rows
  phoneDay : ∀ phoneKey, Limited (fun row => decide (row.phoneKey = phoneKey)) SmsCode.createdAt day
    OTP_PER_PHONE_DAY_MAX t.rows
  addressHour : ∀ addressKey, Limited (fun row => decide (row.addressKey = addressKey)) SmsCode.createdAt
    hour OTP_PER_ADDRESS_HOUR_MAX t.rows
  owner : ∀ phoneKey proof moment, OtpEvent.consumed phoneKey proof moment ∈ t.history →
    ∀ row ∈ t.rows, ∀ v ∈ row.verification, v.proof = proof → row.phoneKey = phoneKey

theorem attempts_of_id {rows : List SmsCode} (ids : rows.Pairwise fun a b => a.id ≠ b.id)
    (sound : ∀ row ∈ rows, row.Sound) (id : ℕ) :
    sumWhere (fun row => decide (row.id = id)) SmsCode.attempts rows ≤ OTP_VERIFY_ATTEMPTS_MAX := by
  by_cases known : ∃ row ∈ rows, row.id = id
  · obtain ⟨row, mem, rfl⟩ := known
    have single := sumWhere_of_unique (p := fun r : SmsCode => decide (r.id = row.id))
      (f := SmsCode.attempts) mem (decide_eq_true rfl) (ids.imp fun {a b} apart both =>
        apart ((of_decide_eq_true both.1).trans (of_decide_eq_true both.2).symm))
    exact single ▸ (sound row mem).attempts
  · have nothing := sumWhere_eq_zero (p := fun r : SmsCode => decide (r.id = id)) (f := SmsCode.attempts)
      fun row mem => decide_eq_false fun same => known ⟨row, mem, same⟩
    exact nothing ▸ Nat.zero_le _

theorem withinLimits_of_valid {t : OtpTables} (h : t.Valid) : WithinLimits t := by
  refine ⟨h.told.order, fun id => ?_, fun phone => ?_, h.listed.phoneHour, h.listed.phoneDay,
    h.listed.addressHour, fun phone proof moment mem row known v here matching => ?_⟩
  · rw [h.told.tries id]
    exact attempts_of_id h.listed.ids h.sound id
  · rw [h.told.wrongs]
    exact h.wrong phone
  · obtain ⟨r, there, own, w, proves, same, -⟩ := h.told.consumed phone proof moment mem
    by_cases row_eq : row = r
    · exact row_eq ▸ own
    · have symmetric : Std.Symm fun a b : SmsCode =>
          ∀ v ∈ a.verification, ∀ w ∈ b.verification, v.proof ≠ w.proof :=
        ⟨fun a b apart v here w there eq => apart w there v here eq.symm⟩
      exact absurd (matching.trans same.symm) (h.apart.forall known there row_eq v here w proves)

theorem valid_initial (clock : ℤ) : (OtpTables.initial clock).Valid := by
  refine ⟨⟨List.Pairwise.nil, ?_, ?_, fun _ => limited_nil, fun _ => limited_nil, fun _ => limited_nil⟩,
    ?_, ?_, List.Pairwise.nil, fun _ => Nat.zero_le _, ⟨List.Pairwise.nil, ?_, ?_, ?_, fun _ => rfl,
    fun _ _ => rfl⟩⟩
  all_goals
    intros
    contradiction

end PapitalErp.LoginCodes
