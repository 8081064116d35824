import PapitalErp.Lib.Interleaving

/-!
# The chart of accounts

`createAccount`, `updateAccount`, `restoreAccount` and `deleteAccount` are transactions
that write one row and commit. They lock the row they change FOR UPDATE, and the parent
they place an account under FOR SHARE; what other statements read is what is committed.

The rules of account codes, names and descriptions only refuse a request, and a code
does not change in the tree's sense; a turn says whether they do. The number of voucher
rows on an account is what the environment answers.
-/

namespace PapitalErp

open Interleaving

/-! ## Accounts -/

inductive AccountLevel where
  | group
  | general
  | subsidiary
  | detailed
  deriving DecidableEq

inductive AccountType where
  | asset
  | liability
  | equity
  | revenue
  | expense
  | costOfSales
  deriving DecidableEq

inductive AccountNature where
  | debit
  | credit
  | both
  deriving DecidableEq

/-- A row of `accounts`. -/
structure Account where
  id : ℕ
  code : String
  level : AccountLevel
  parentId : Option ℕ
  accountType : AccountType
  nature : AccountNature
  isSystem : Bool
  isActive : Bool
  isDeleted : Bool

/-- `parentLevelOf`. -/
def parentLevelOf : AccountLevel → Option AccountLevel
  | .group => none
  | .general => some .group
  | .subsidiary => some .general
  | .detailed => some .subsidiary

/-! ## Requests -/

structure NewAccountInput where
  code : String
  level : AccountLevel
  parentId : Option ℕ
  accountType : AccountType
  nature : AccountNature

/-- The fields of an update that are sent. -/
structure AccountEdit where
  level : Option AccountLevel
  parentId : Option (Option ℕ)
  accountType : Option AccountType
  nature : Option AccountNature
  isActive : Option Bool

inductive ChartRequest where
  | create (input : NewAccountInput)
  | update (id : ℕ) (edit : AccountEdit)
  | restore (id : ℕ)
  | delete (id : ℕ)

/-- The row with the fields of an update. -/
def Account.edited (account : Account) (edit : AccountEdit) : Account :=
  { account with
    level := edit.level.getD account.level
    parentId := edit.parentId.getD account.parentId
    accountType := edit.accountType.getD account.accountType
    nature := edit.nature.getD account.nature
    isActive := edit.isActive.getD account.isActive }

/-- Level or parent changes. -/
def Account.moves (account target : Account) : Bool :=
  decide (target.level ≠ account.level ∨ target.parentId ≠ account.parentId)

/-- Level, parent, type or nature changes. -/
def Account.structural (account target : Account) : Bool :=
  account.moves target ||
    decide (target.accountType ≠ account.accountType ∨ target.nature ≠ account.nature)

/-- The row that a creation inserts. -/
def NewAccountInput.account (input : NewAccountInput) (id : ℕ) : Account :=
  { id := id
    code := input.code
    level := input.level
    parentId := input.parentId
    accountType := input.accountType
    nature := input.nature
    isSystem := false
    isActive := true
    isDeleted := false }

def Account.restored (account : Account) : Account :=
  { account with isDeleted := false, isActive := true }

def Account.deleted (account : Account) : Account :=
  { account with isDeleted := true, isActive := false }

/-! ## Transactions -/

/-- The committed rows, the next id of the sequence and the row locks. -/
structure ChartTables where
  rows : List Account
  nextId : ℕ
  locks : RowLocks ℕ ℕ

/-- How far a transaction is. `account` is the row it read under its lock, `target` the
row that the update writes. -/
inductive ChartProgress where
  | start
  /-- the parent of the new account is read and locked -/
  | placed (input : NewAccountInput)
  | counting (account target : Account)
  | placing (account target : Account)
  /-- climbing from the new parent; `next` is the parent of the last row read -/
  | climbing (account target : Account) (seen : List ℕ) (next : Option ℕ)
  | fitting (account target : Account)
  | writing (account target : Account)
  /-- a deletion counts the live children, then the voucher rows -/
  | emptying (account : Account)
  | deleting (account : Account)
  /-- a restoration reads the parent, then writes -/
  | reviving (account : Account)
  | restoring (account : Account)
  | done

/-- What the environment decides: whether the other rules refuse the request, and the
number of voucher rows on the account; `die` is a failure, a deadlock among them. -/
inductive ChartTurn where
  | proceed (refused : Bool) (voucherRows : ℕ)
  | die

namespace ChartTables

def find (t : ChartTables) (id : ℕ) : Option Account := t.rows.find? fun row => row.id == id

/-- The live children of an account. -/
def children (t : ChartTables) (id : ℕ) : List Account :=
  t.rows.filter fun row => decide (row.parentId = some id) && !row.isDeleted

/-- The end of a transaction. -/
def release (t : ChartTables) (i : ℕ) : ChartTables := { t with locks := t.locks.release i }

def insert (t : ChartTables) (account : Account) : ChartTables :=
  { t with rows := t.rows ++ [account], nextId := t.nextId + 1 }

/-- The update of the row with the id of `account`. -/
def write (t : ChartTables) (account : Account) : ChartTables :=
  { t with rows := t.rows.map fun row => if row.id = account.id then account else row }

end ChartTables

section Statements

variable (i : ℕ) (t : ChartTables)

/-- The transaction is refused and rolled back. -/
def refuseChart : ChartTables × ChartProgress := (t.release i, .done)

/-- The first half of `assertAccountPlacement`: the parent is locked FOR SHARE, live, not the
account itself and one level above. -/
def lockParent (id : Option ℕ) (level : AccountLevel) (parentId : ℕ)
    (next : Account → ChartProgress) : Option (ChartTables × ChartProgress) :=
  (t.locks.share i parentId).map fun locks =>
    let t := { t with locks }
    match t.find parentId with
    | none => refuseChart i t
    | some parent =>
        if parent.isDeleted = false ∧ id ≠ some parent.id ∧ parentLevelOf level = some parent.level then
          (t, next parent)
        else refuseChart i t

/-- The first statement of each request that locks a row. -/
def lockOwn (id : ℕ) (next : Account → ChartTables → ChartTables × ChartProgress) :
    Option (ChartTables × ChartProgress) :=
  (t.locks.own i id).map fun locks =>
    let t := { t with locks }
    match t.find id with
    | none => refuseChart i t
    | some existing => next existing t

/-- What an update does with the row it locked. -/
def beginUpdate (edit : AccountEdit) (existing : Account) (t : ChartTables) :
    ChartTables × ChartProgress :=
  let target := existing.edited edit
  if existing.isDeleted = true then refuseChart i t
  else if existing.isSystem = true ∧
      (existing.structural target = true ∨ target.isActive ≠ existing.isActive) then refuseChart i t
  else if existing.structural target = true then (t, .counting existing target)
  else (t, .writing existing target)

/-- The next statement of process `i`. -/
def chartStatement (requests : ℕ → ChartRequest) :
    Program ℕ ChartTurn ChartTables ChartProgress := fun i turn t progress =>
  match turn, progress with
  | .die, _ => some (refuseChart i t)
  | .proceed refused _, .start =>
      if refused = true then some (refuseChart i t)
      else
        match requests i with
        | .create input =>
            match input.parentId with
            | none => some (t, .placed input)
            | some parentId => lockParent i t none input.level parentId fun _ => .placed input
        | .update id edit => lockOwn i t id (beginUpdate i edit)
        | .restore id => lockOwn i t id fun existing t =>
            if existing.isDeleted = true then (t, .reviving existing) else refuseChart i t
        | .delete id => lockOwn i t id fun existing t =>
            if existing.isDeleted = true ∨ existing.isSystem = true then refuseChart i t
            else (t, .emptying existing)
  | .proceed refused _, .placed input =>
      if refused = true then some (refuseChart i t)
      else some ((t.insert (input.account t.nextId)).release i, .done)
  | .proceed _ voucherRows, .counting existing target =>
      if 0 < voucherRows then some (refuseChart i t)
      else if existing.moves target = true then some (t, .placing existing target)
      else some (t, .writing existing target)
  | .proceed _ _, .placing existing target =>
      match target.parentId with
      | none => some (t, .fitting existing target)
      | some parentId =>
          lockParent i t (some existing.id) target.level parentId fun parent =>
            .climbing existing target [parent.id] parent.parentId
  | .proceed _ _, .climbing existing target seen next =>
      match next with
      | none => some (t, .fitting existing target)
      | some id =>
          if id = existing.id then some (refuseChart i t)
          else if id ∈ seen then some (t, .fitting existing target)
          else some (t, .climbing existing target (id :: seen) ((t.find id).bind (·.parentId)))
  | .proceed _ _, .fitting existing target =>
      if ∀ child ∈ t.children existing.id, parentLevelOf child.level = some target.level then
        some (t, .writing existing target)
      else some (refuseChart i t)
  | .proceed refused _, .writing _ target =>
      if refused = true then some (refuseChart i t) else some ((t.write target).release i, .done)
  | .proceed _ _, .emptying existing =>
      if t.children existing.id = [] then some (t, .deleting existing) else some (refuseChart i t)
  | .proceed _ voucherRows, .deleting existing =>
      if 0 < voucherRows then some (refuseChart i t)
      else some ((t.write existing.deleted).release i, .done)
  | .proceed refused _, .reviving existing =>
      if refused = true then some (refuseChart i t)
      else
        match existing.parentId.bind t.find with
        | some parent =>
            if parent.isDeleted = true then some (refuseChart i t) else some (t, .restoring existing)
        | none => some (t, .restoring existing)
  | .proceed _ _, .restoring existing => some ((t.write existing.restored).release i, .done)
  | .proceed _ _, .done => none

end Statements

end PapitalErp
