import PapitalErp.Lib.FilteredSums
import PapitalErp.Lib.Interleaving
import PapitalErp.Lib.SlidingWindow

/-!
# Login codes by text message

`requestOtp`, `verifyOtp` and `consumePhoneProof`. A request counts and inserts under one
advisory lock; a verification reads the newest code of the phone, waits for that row's lock
and reads the row again; a consumption runs in the transaction of its caller, which may
roll back. `now()` is the start of the transaction.

Keyed hashes are their arguments and a random proof is a new number. The settings, the wait
between two texts and the site's budget of texts only refuse a request, which a turn
decides. `reading` and `history` are for the statements about runs: the verifications that
have read the newest code and are still open, and what was committed, in order.
-/

namespace PapitalErp.LoginCodes

open Interleaving SlidingWindow FilteredSums

/-! ## Limits -/

/-- A second, in microseconds. -/
def second : ℤ := 1000000

def OTP_TTL_SECONDS : ℤ := 180
def OTP_VERIFY_ATTEMPTS_MAX : ℕ := 5
def OTP_PER_PHONE_HOUR_MAX : ℕ := 5
def OTP_PER_PHONE_DAY_MAX : ℕ := 10
def OTP_PER_ADDRESS_HOUR_MAX : ℕ := 10
def OTP_WRONG_PER_PHONE_DAY_MAX : ℕ := 10
def PHONE_PROOF_TTL_SECONDS : ℤ := 600

def hour : ℤ := 3600 * second
def day : ℤ := 86400 * second

/-! ## Rows -/

/-- What a right code leaves in its row. -/
structure PhoneProof where
  proof : ℕ
  verifiedAt : ℤ
  expiresAt : ℤ
  usedAt : Option ℤ
  deriving DecidableEq

/-- A row of `storefront_sms_codes`. -/
structure SmsCode where
  id : ℕ
  phoneKey : String
  code : String
  addressKey : String
  createdAt : ℤ
  expiresAt : ℤ
  attempts : ℕ
  verification : Option PhoneProof
  deriving DecidableEq

/-- The wrong tries of a code: a right one is counted on a verified code. -/
def SmsCode.wrong (row : SmsCode) : ℕ := row.attempts - if row.verification = none then 0 else 1

/-- The order of `created_at DESC, id DESC`. -/
def SmsCode.newer (row other : SmsCode) : Bool :=
  decide (other.createdAt < row.createdAt ∨ other.createdAt = row.createdAt ∧ other.id < row.id)

/-- The newest code of a phone. -/
def newestCode (phoneKey : String) : List SmsCode → Option SmsCode
  | [] => none
  | row :: rows =>
      match newestCode phoneKey rows with
      | none => if row.phoneKey = phoneKey then some row else none
      | some best => if row.phoneKey = phoneKey ∧ row.newer best = true then some row else some best

/-! ## Processes -/

inductive OtpRequest where
  | requestOtp (phoneKey code addressKey : String)
  | verifyOtp (phoneKey code : String)
  | consumePhoneProof (phoneKey : String) (proof : ℕ)

/-- What was committed. -/
inductive OtpEvent where
  | requested (row : SmsCode)
  | wrongTry (row : SmsCode) (moment : ℤ)
  | verified (row : SmsCode) (moment : ℤ)
  | consumed (phoneKey : String) (proof : ℕ) (moment : ℤ)

/-- The advisory lock of the requests, and the locks of the rows. -/
inductive OtpLock where
  | requests
  | code (id : ℕ)
  deriving DecidableEq

structure OtpTables where
  clock : ℤ
  rows : List SmsCode
  nextId : ℕ
  nextProof : ℕ
  locks : Locks OtpLock ℕ
  reading : List (ℕ × String)
  history : List OtpEvent

/-- How far a process is; `now` is the start of its transaction. -/
inductive OtpProgress where
  | start
  | asking (now : ℤ)
  | holding (now : ℤ)
  | counted (now : ℤ)
  | sending (id : ℕ)
  | closing (id : ℕ)
  | verifying (now : ℤ)
  /-- the newest code was read; its lock comes next -/
  | chosen (now : ℤ) (row : SmsCode)
  | locked (now : ℤ) (row : SmsCode)
  /-- the phone's wrong tries are below the limit and the code is live -/
  | judged (now : ℤ) (row : SmsCode)
  | consuming (now : ℤ)
  | found (now : ℤ) (row : SmsCode)
  | done

/-- What the environment decides: how much time passes first, and whether the statement goes
well: a request is not refused, a text is sent, the caller of a consumption commits. -/
inductive OtpTurn where
  | proceed (elapsed : ℕ) (ok : Bool)
  | die

namespace OtpTables

def tick (t : OtpTables) (elapsed : ℕ) : OtpTables := { t with clock := t.clock + elapsed }

/-- The end of a transaction. -/
def finish (t : OtpTables) (i : ℕ) : OtpTables :=
  { t with locks := t.locks.release i, reading := t.reading.filter fun entry => entry.1 ≠ i }

def update (t : OtpTables) (id : ℕ) (change : SmsCode → SmsCode) : OtpTables :=
  { t with rows := t.rows.map fun row => if row.id = id then change row else row }

def record (t : OtpTables) (event : OtpEvent) : OtpTables := { t with history := t.history ++ [event] }

/-- The codes of a phone that are younger than so long. -/
def phoneSince (t : OtpTables) (phoneKey : String) (moment : ℤ) : ℕ :=
  since (fun row => decide (row.phoneKey = phoneKey)) SmsCode.createdAt moment t.rows

def addressSince (t : OtpTables) (addressKey : String) (moment : ℤ) : ℕ :=
  since (fun row => decide (row.addressKey = addressKey)) SmsCode.createdAt moment t.rows

/-- The wrong tries of a phone over its codes that came after a moment. -/
def wrongSince (t : OtpTables) (phoneKey : String) (moment : ℤ) : ℕ :=
  sumWhere (fun row => decide (row.phoneKey = phoneKey ∧ moment < row.createdAt)) SmsCode.wrong t.rows

/-- The limits of a request, counted under the advisory lock. -/
def mayAsk (t : OtpTables) (phoneKey addressKey : String) (now : ℤ) : Prop :=
  t.phoneSince phoneKey (now - hour) < OTP_PER_PHONE_HOUR_MAX ∧
    t.phoneSince phoneKey (now - day) < OTP_PER_PHONE_DAY_MAX ∧
    t.addressSince addressKey (now - hour) < OTP_PER_ADDRESS_HOUR_MAX

instance (t : OtpTables) (phoneKey addressKey : String) (now : ℤ) :
    Decidable (t.mayAsk phoneKey addressKey now) :=
  inferInstanceAs (Decidable (_ ∧ _))

/-- The row that a request inserts. -/
def newCode (t : OtpTables) (phoneKey code addressKey : String) (now : ℤ) : SmsCode :=
  { id := t.nextId
    phoneKey := phoneKey
    code := code
    addressKey := addressKey
    createdAt := now
    expiresAt := now + OTP_TTL_SECONDS * second
    attempts := 0
    verification := none }

def insert (t : OtpTables) (row : SmsCode) : OtpTables :=
  { t with rows := t.rows ++ [row], nextId := t.nextId + 1 }

/-- The code a proof belongs to: of this phone, unused and not expired. -/
def proofRow (t : OtpTables) (phoneKey : String) (proof : ℕ) (now : ℤ) : Option SmsCode :=
  t.rows.find? fun row => decide (row.phoneKey = phoneKey) &&
    row.verification.any fun v => decide (v.proof = proof ∧ v.usedAt = none ∧ now < v.expiresAt)

end OtpTables

def SmsCode.wrongTry (row : SmsCode) : SmsCode := { row with attempts := row.attempts + 1 }

def SmsCode.verify (proof : ℕ) (now : ℤ) (row : SmsCode) : SmsCode :=
  { row with
    attempts := row.attempts + 1
    verification := some ⟨proof, now, now + PHONE_PROOF_TTL_SECONDS * second, none⟩ }

def SmsCode.close (now : ℤ) (row : SmsCode) : SmsCode := { row with expiresAt := now }

def SmsCode.use (now : ℤ) (row : SmsCode) : SmsCode :=
  { row with verification := row.verification.map fun v => { v with usedAt := some now } }

/-! ## Statements -/

section Statements

variable (i : ℕ) (t : OtpTables)

/-- The transaction is rolled back. -/
def refuseOtp : OtpTables × OtpProgress := (t.finish i, .done)

/-- The newest code of the phone under its lock: verified or tried out, it is refused. -/
def lockCode (now : ℤ) (row : SmsCode) : Option (OtpTables × OtpProgress) :=
  (t.locks.take i (.code row.id)).map fun locks =>
    let t := { t with locks }
    match t.rows.find? fun r => decide (r.id = row.id) with
    | none => refuseOtp i t
    | some row =>
        if row.verification = none ∧ row.attempts < OTP_VERIFY_ATTEMPTS_MAX then (t, .locked now row)
        else refuseOtp i t

/-- The right code verifies its row and gets a proof; a wrong one is counted. -/
def tryCode (code : String) (now : ℤ) (row : SmsCode) : OtpTables :=
  if row.code = code then
    { (t.update row.id (SmsCode.verify t.nextProof now)).record (.verified row t.clock) with
      nextProof := t.nextProof + 1 }
  else (t.update row.id SmsCode.wrongTry).record (.wrongTry row t.clock)

/-- The proof's row under its lock; a waiting consumption reads it again. -/
def lockProof (phoneKey : String) (proof : ℕ) (now : ℤ) : Option (OtpTables × OtpProgress) :=
  match t.proofRow phoneKey proof now with
  | none => some (refuseOtp i t)
  | some row => (t.locks.take i (.code row.id)).map fun locks => ({ t with locks }, .found now row)

/-- The next statement of process `i`, after the time has passed. -/
def otpProceed (request : OtpRequest) (ok : Bool) (progress : OtpProgress) :
    Option (OtpTables × OtpProgress) :=
  match progress, request with
  | .start, .requestOtp _ _ _ => some (t, if ok then .asking t.clock else .done)
  | .start, .verifyOtp _ _ => some (t, if ok then .verifying t.clock else .done)
  | .start, .consumePhoneProof _ _ => some (t, .consuming t.clock)
  | .asking now, _ =>
      (t.locks.take i .requests).map fun locks => ({ t with locks }, .holding now)
  | .holding now, .requestOtp phoneKey _ addressKey =>
      if ok = true ∧ t.mayAsk phoneKey addressKey now then some (t, .counted now)
      else some (refuseOtp i t)
  | .counted now, .requestOtp phoneKey code addressKey =>
      let row := t.newCode phoneKey code addressKey now
      some (((t.insert row).record (.requested row)).finish i, .sending row.id)
  | .sending id, _ => some (t, if ok then .done else .closing id)
  | .closing id, _ =>
      if t.locks (.code id) = none then some (t.update id (SmsCode.close t.clock), .done) else none
  | .verifying now, .verifyOtp phoneKey _ =>
      match newestCode phoneKey t.rows with
      | none => some (refuseOtp i t)
      | some row => some ({ t with reading := (i, phoneKey) :: t.reading }, .chosen now row)
  | .chosen now row, _ => lockCode i t now row
  | .locked now row, _ =>
      if t.wrongSince row.phoneKey (now - day) < OTP_WRONG_PER_PHONE_DAY_MAX ∧ now < row.expiresAt then
        some (t, .judged now row)
      else some (refuseOtp i t)
  | .judged now row, .verifyOtp _ code => some ((tryCode t code now row).finish i, .done)
  | .consuming now, .consumePhoneProof phoneKey proof => lockProof i t phoneKey proof now
  | .found now row, .consumePhoneProof phoneKey proof =>
      if ok then
        some (((t.update row.id (SmsCode.use now)).record (.consumed phoneKey proof t.clock)).finish i,
          .done)
      else some (refuseOtp i t)
  | _, _ => none

end Statements

def otpStatement (requests : ℕ → OtpRequest) : Program ℕ OtpTurn OtpTables OtpProgress :=
  fun i turn t progress =>
    match turn with
    | .die => some (refuseOtp i t)
    | .proceed elapsed ok => otpProceed i (t.tick elapsed) (requests i) ok progress

/-- No code yet. -/
def OtpTables.initial (clock : ℤ) : OtpTables := ⟨clock, [], 1, 1, fun _ => none, [], []⟩

end PapitalErp.LoginCodes
