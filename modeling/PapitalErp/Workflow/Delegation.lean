import PapitalErp.Lib.Interleaving
import PapitalErp.Lib.TrimmedText

/-!
# Delegations of workflow signatures

A delegation lets a deputy sign for its delegator in one workflow or in all of them,
from a first to a last moment. Creations and revocations are transactions of their
own: a creation holds the advisory lock of its delegator from its first statement to
its commit, and what it inserts is seen by others after the commit. A revocation only
clears `is_active`, so the row lock it takes orders nothing that matters here.

JavaScript's and SQL's case conversions are parameters. The reason and the audit row
are left out.
-/

namespace PapitalErp

open Interleaving TrimmedText

/-! ## Text -/

/-- The characters that JavaScript's `trim` removes. -/
def isJsBlank (c : Char) : Bool :=
  c.toNat ∈ [9, 10, 11, 12, 13, 32, 0xA0, 0x1680, 0x2028, 0x2029, 0x202F, 0x205F, 0x3000, 0xFEFF] ||
    (0x2000 ≤ c.toNat && c.toNat ≤ 0x200A)

/-- JavaScript's `trim`. -/
def jsTrim (s : String) : String := trim isJsBlank s

/-- SQL's `btrim`, which removes spaces only. -/
def btrim (s : String) : String := trim (· == ' ') s

/-- The case conversions of JavaScript and of the database; lower-case letters and `*`
stay as they are. -/
structure CaseRules where
  toLowerCase : String → String
  toUpperCase : String → String
  lower : String → String
  all : toLowerCase "all" = "all"
  star : toLowerCase "*" = "*"

/-- The conversions of ASCII text. -/
def asciiRules : CaseRules where
  toLowerCase s := String.ofList (s.toList.map Char.toLower)
  toUpperCase s := String.ofList (s.toList.map Char.toUpper)
  lower s := String.ofList (s.toList.map Char.toLower)
  all := by decide +kernel
  star := by decide +kernel

/-! ## Rows -/

/-- A row of `workflow_delegations`. -/
structure Delegation where
  id : ℕ
  fromUserId : ℕ
  toUserId : ℕ
  scope : String
  startDate : ℤ
  endDate : ℤ
  isActive : Bool
  deriving DecidableEq

/-- An end of a requested range: a day of the display time zone, or an instant. -/
inductive DelegationEnd where
  | day (day : ℤ)
  | instant (instant : ℤ)

/-- `delegationWindow`, in milliseconds: `dayStart` gives the first instant of a day. -/
def delegationWindow (dayStart : ℤ → ℤ) (first last : DelegationEnd) : ℤ × ℤ :=
  (match first with
    | .day day => dayStart day
    | .instant instant => instant,
    match last with
    | .day day => dayStart (day + 1) - 1
    | .instant instant => instant)

section Scopes

variable (rules : CaseRules)

def isAllScope (scope : String) : Bool :=
  ["all", "*"].contains (rules.toLowerCase (jsTrim scope))

/-- The condition of `findOverlappingDelegation` on a stored row. -/
def overlaps (candidate row : Delegation) : Bool :=
  let scopeKey := rules.toLowerCase (jsTrim candidate.scope)
  row.fromUserId == candidate.fromUserId && row.isActive &&
    row.startDate ≤ candidate.endDate && candidate.startDate ≤ row.endDate &&
    (isAllScope rules scopeKey || ["all", "*", scopeKey].contains (rules.lower (btrim row.scope)))

/-- `findOverlappingDelegation`: the first such row. -/
def findOverlappingDelegation (rows : List Delegation) (candidate : Delegation) :
    Option Delegation :=
  rows.find? (overlaps rules candidate)

/-- `delegationCovers`. -/
def delegationCovers (scope workflowCode : String) : Bool :=
  let s := rules.toLowerCase (jsTrim (if scope = "" then "ALL" else scope))
  s == "all" || s == "*" || (workflowCode ≠ "" && s == rules.toLowerCase (jsTrim workflowCode))

/-- A delegation that is not revoked, at a moment of its range. -/
def Delegation.isLive (d : Delegation) (now : ℤ) : Bool :=
  d.isActive && d.startDate ≤ now && now ≤ d.endDate

end Scopes

/-! ## Creating and revoking -/

/-- The request of a creation; the route trims the scope before it looks at it. -/
structure CreateDelegation where
  fromUserId : ℕ
  toUserId : ℕ
  scope : Option String
  startDate : DelegationEnd
  endDate : DelegationEnd

/-- What a process does. -/
inductive DelegationActor where
  | create (params : CreateDelegation)
  | revoke (delegation userId : ℕ) (userRole : String)

/-- The committed rows, the next id of the sequence and the advisory locks of delegators. -/
structure DelegationTables where
  rows : List Delegation
  nextId : ℕ
  locks : Locks ℕ ℕ

/-- How far a process is; a row that is not committed yet is its own. -/
inductive DelegationProgress where
  | start
  /-- the request is valid; the advisory lock comes next -/
  | begun (candidate : Delegation)
  | locked (candidate : Delegation)
  | checked (candidate : Delegation)
  /-- no overlapping delegation was found -/
  | clear (candidate : Delegation)
  | inserted (row : Delegation)
  /-- a revocation that is allowed -/
  | revoking (delegation : ℕ)
  | done

/-- What the environment decides: whether both users are found, and the workflow codes
that are defined. -/
inductive DelegationTurn where
  | proceed (usersFound : Bool) (codes : List String)
  | die

/-- `scope` of `createDelegation`. -/
def requestedScope (scope : Option String) : String :=
  match scope with
  | none => "ALL"
  | some text => if jsTrim text = "" then "ALL" else jsTrim (jsTrim text)

section Statements

variable (rules : CaseRules) (dayStart : ℤ → ℤ)

def isSystemAdminRole (role : String) : Bool := rules.toLowerCase (jsTrim role) == "admin"

/-- The row that a request asks for. -/
def CreateDelegation.candidate (params : CreateDelegation) : Delegation :=
  let window := delegationWindow dayStart params.startDate params.endDate
  ⟨0, params.fromUserId, params.toUserId, requestedScope params.scope, window.1, window.2, true⟩

/-- The scope is «all» or the code of a defined workflow. -/
def scopeDefined (scope : String) (codes : List String) : Bool :=
  isAllScope rules scope || codes.any fun code => rules.lower (btrim code) == rules.toLowerCase scope

namespace DelegationTables

/-- The end of a transaction gives its advisory lock back. -/
def release (t : DelegationTables) (i : ℕ) : DelegationTables :=
  { t with locks := t.locks.release i }

def commitRow (t : DelegationTables) (row : Delegation) : DelegationTables :=
  { t with rows := t.rows ++ [row] }

def deactivate (t : DelegationTables) (delegation : ℕ) : DelegationTables :=
  { t with rows := t.rows.map fun row =>
      if row.id = delegation then { row with isActive := false } else row }

end DelegationTables

/-- The first statement of each process. -/
def beginDelegation (actor : DelegationActor) (t : DelegationTables) : DelegationProgress :=
  match actor with
  | .create params =>
      let candidate := params.candidate dayStart
      if params.fromUserId = params.toUserId ∨ candidate.endDate < candidate.startDate then .done
      else .begun candidate
  | .revoke delegation userId userRole =>
      match t.rows.find? (·.id == delegation) with
      | none => .done
      | some row =>
          if isSystemAdminRole rules userRole || row.fromUserId == userId then .revoking delegation
          else .done

/-- The next statement of process `i`. -/
def delegationStatement (actors : ℕ → DelegationActor) :
    Program ℕ DelegationTurn DelegationTables DelegationProgress := fun i turn t progress =>
  match turn, progress with
  | .die, _ => some (t.release i, .done)
  | .proceed _ _, .start => some (t, beginDelegation rules dayStart (actors i) t)
  | .proceed _ _, .begun candidate =>
      (t.locks.take i candidate.fromUserId).map fun locks => ({ t with locks }, .locked candidate)
  | .proceed usersFound codes, .locked candidate =>
      if usersFound && scopeDefined rules candidate.scope codes then some (t, .checked candidate)
      else some (t.release i, .done)
  | .proceed _ _, .checked candidate =>
      match findOverlappingDelegation rules t.rows candidate with
      | some _ => some (t.release i, .done)
      | none => some (t, .clear candidate)
  | .proceed _ _, .clear candidate =>
      some ({ t with nextId := t.nextId + 1 }, .inserted { candidate with id := t.nextId })
  | .proceed _ _, .inserted row => some ((t.commitRow row).release i, .done)
  | .proceed _ _, .revoking delegation => some (t.deactivate delegation, .done)
  | .proceed _ _, .done => none

end Statements

/-- No delegation yet. -/
def DelegationTables.none : DelegationTables := ⟨[], 1, fun _ => .none⟩

end PapitalErp
