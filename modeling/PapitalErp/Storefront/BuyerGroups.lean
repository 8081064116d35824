import PapitalErp.Lib.Transition
import PapitalErp.Inventory.WarehouseResolver

/-!
# Buyer groups of the site

A buyer group is a price policy of the site: a price list of its own, minimums,
payment methods and visible products. A save checks the group against the
configured price lists and the retail list of the settings before its transaction
begins; a review of an account reads the group inside its transaction without
locking it; the settings are saved under the lock of their version row and do not
read the groups.

Each statement that another transaction can come between is a step. What a
transaction writes is seen by the others when it commits, so a write that its own
row lock, or the share lock of the foreign key, keeps to itself is one step with the
commit. The configured price lists and the reading of rial amounts are parameters.
-/

namespace PapitalErp.BuyerGroups

open Transition

/-- The text functions of the host and `rialAmountText` with zero allowed. -/
structure GroupText extends HostText where
  rialAmountText : String → Option String

inductive CatalogScope
  | all
  | collections
  deriving DecidableEq

inductive ApplicationStatus
  | none
  | pending
  | approved
  | declined
  deriving DecidableEq

/-- The form of a group. A catalog scope the site does not know is `none`. -/
structure BuyerGroupInput where
  code : String
  title : String
  description : String
  priceList : String
  minOrderAmount : String
  minLineQuantity : ℤ
  allowCard : Bool
  allowOnAccount : Bool
  creditLimit : String
  catalogScope : Option CatalogScope
  collections : List String
  acceptsDiscounts : Bool
  isActive : Bool
  sortOrder : ℤ

inductive Refusal
  | groupCodeRequired
  | groupCodeInvalid
  | groupTitleRequired
  | groupTitleTooLong
  | groupDescriptionTooLong
  | priceListNotConfigured
  | groupPriceListRetail
  | groupPriceListRequired
  | groupMinOrderInvalid
  | groupCreditInvalid
  | groupMinLineInvalid
  | groupPaymentRequired
  | groupScopeInvalid
  | groupCollectionsRequired
  | groupCollectionsTooMany
  | groupSortInvalid
  | groupPriceForbidden
  | groupCodeTaken
  | groupNotFound
  | groupInUse
  | buyerNotFound
  | buyerNotPending
  | buyerNotApproved
  | priceListsSame
  | staleVersion
  /-- the row lock is another transaction's: the request waits -/
  | locked
  /-- not the next statement of the request -/
  | notPossible

def GROUP_TITLE_MAX : ℕ := 80
def GROUP_DESCRIPTION_MAX : ℕ := 300
def GROUP_COLLECTIONS_MAX : ℕ := 30
def GROUP_MIN_LINE_QUANTITY_MAX : ℤ := 999
def SORT_MAX : ℤ := 100000

/-- `^[a-z][a-z0-9_-]{1,39}$` -/
def isGroupCode (code : String) : Bool :=
  match code.toList with
  | [] => false
  | first :: others =>
      first.isLower && others.all (fun c => c.isLower || c.isDigit || c = '_' || c = '-') &&
        decide (1 ≤ others.length ∧ others.length ≤ 39)

def groupCodeError (code : String) : Except Refusal Unit :=
  if code = "" then .error .groupCodeRequired else ensure (isGroupCode code) .groupCodeInvalid

def rialAmountOf (text : GroupText) (amount : String) (refusal : Refusal) : Except Refusal String :=
  let trimmed := text.trim amount
  match text.rialAmountText (if trimmed = "" then "0" else trimmed) with
  | some clean => .ok clean
  | none => .error refusal

/-- The collections of the form, each once and without the empty ones. -/
def collectionsOf (text : GroupText) (input : BuyerGroupInput) : List String :=
  if input.catalogScope = some .collections then
    ((input.collections.map text.trim).filter (· ≠ "")).reverse.dedup.reverse
  else []

/-- The group as it is stored, or the first reason it cannot be. -/
def checkedBuyerGroup (text : GroupText) (input : BuyerGroupInput) (priceLists : List String)
    (retailPriceList : String) : Except Refusal BuyerGroupInput := do
  let code := text.trim input.code
  groupCodeError code
  let title := text.trim input.title
  ensure (title ≠ "") .groupTitleRequired
  ensure (title.length ≤ GROUP_TITLE_MAX) .groupTitleTooLong
  let description := text.trim input.description
  ensure (description.length ≤ GROUP_DESCRIPTION_MAX) .groupDescriptionTooLong
  let priceList := text.trim input.priceList
  ensure (priceList = "" ∨ priceList ∈ priceLists) .priceListNotConfigured
  ensure (priceList = "" ∨ priceList ≠ retailPriceList) .groupPriceListRetail
  ensure (input.isActive = true → priceList ≠ "") .groupPriceListRequired
  let minOrderAmount ← rialAmountOf text input.minOrderAmount .groupMinOrderInvalid
  let creditLimit ← rialAmountOf text input.creditLimit .groupCreditInvalid
  ensure (0 ≤ input.minLineQuantity ∧ input.minLineQuantity ≤ GROUP_MIN_LINE_QUANTITY_MAX)
    .groupMinLineInvalid
  ensure (input.allowCard = true ∨ input.allowOnAccount = true) .groupPaymentRequired
  ensure (input.catalogScope.isSome = true) .groupScopeInvalid
  let collections := collectionsOf text input
  ensure (input.catalogScope = some .collections → collections ≠ []) .groupCollectionsRequired
  ensure (collections.length ≤ GROUP_COLLECTIONS_MAX) .groupCollectionsTooMany
  ensure (0 ≤ input.sortOrder ∧ input.sortOrder ≤ SORT_MAX) .groupSortInvalid
  pure { input with
    code := code
    title := title
    description := description
    priceList := priceList
    minOrderAmount := minOrderAmount
    creditLimit := creditLimit
    collections := collections }

/-- A row of `storefront_buyer_groups`. -/
structure BuyerGroup where
  id : ℕ
  values : BuyerGroupInput
  isDeleted : Bool
  version : ℕ

def BuyerGroup.isActive (group : BuyerGroup) : Bool := group.values.isActive

def BuyerGroup.priceList (group : BuyerGroup) : String := group.values.priceList

/-- A row of `storefront_buyer_accounts`, as far as the groups go. -/
structure BuyerAccount where
  id : ℕ
  applicationStatus : ApplicationStatus
  groupId : Option ℕ
  version : ℕ

/-- `approveBuyer` or `changeBuyerGroup`. -/
inductive Review
  | approve
  | change

/-- The price lists of the settings form, the texts trimmed. -/
structure PriceListSettings where
  retailPriceList : String
  wholesalePriceList : String
  deriving DecidableEq

/-- How far a request is. -/
inductive Phase
  | idle
  /-- `createBuyerGroup` has checked its values -/
  | creating (values : BuyerGroupInput)
  /-- `updateBuyerGroup` has checked its values -/
  | updating (id version : ℕ) (values : BuyerGroupInput)
  /-- `updateBuyerGroup` has the row of the group -/
  | updateLocked (id : ℕ) (values : BuyerGroupInput)
  /-- `deleteBuyerGroup` has the row of the group -/
  | deleteLocked (id : ℕ)
  /-- it has found no account in it -/
  | unused (id : ℕ)
  /-- a review has the row of the account -/
  | accountLocked (accountId : ℕ) (review : Review)
  /-- `groupForApproval` has found the group -/
  | groupRead (accountId groupId : ℕ) (review : Review)
  /-- `lockVersion` of the settings -/
  | settingsLocked
  /-- `checkedInput` of the settings -/
  | settingsChecked (values : PriceListSettings)

structure Tables where
  groups : List BuyerGroup
  nextGroup : ℕ
  accounts : List BuyerAccount
  settings : PriceListSettings
  settingsVersion : ℕ
  groupLocks : ℕ → Option ℕ
  accountLocks : ℕ → Option ℕ
  settingsLock : Option ℕ
  phase : ℕ → Phase

section Statements

variable (text : GroupText) (t : Tables)

def live (group : BuyerGroup) : Bool := !group.isDeleted

/-- A live group by its id. -/
def liveGroup (id : ℕ) (refusal : Refusal) : Except Refusal BuyerGroup :=
  match t.groups.find? fun group => group.id = id ∧ live group with
  | some group => .ok group
  | none => .error refusal

def accountById (id : ℕ) : Except Refusal BuyerAccount :=
  match t.accounts.find? fun account => account.id = id with
  | some account => .ok account
  | none => .error .buyerNotFound

/-- Another live group than `exceptId` has the code. -/
def codeTaken (code : String) (exceptId : Option ℕ) : Bool :=
  t.groups.any fun group => live group && group.values.code = code && exceptId ≠ some group.id

/-- `checkedFor`: the values against the settings as they are now. -/
def checkedFor (input : BuyerGroupInput) (priceLists : List String) : Except Refusal BuyerGroupInput :=
  checkedBuyerGroup text input priceLists t.settings.retailPriceList

/-- The price lists in `checkedInput` of the settings; its other checks refuse as any
other failure of the transaction does. -/
def checkedInput (input : PriceListSettings) (priceLists : List String) :
    Except Refusal PriceListSettings := do
  let retailPriceList := text.trim input.retailPriceList
  ensure (retailPriceList = "" ∨ retailPriceList ∈ priceLists) .priceListNotConfigured
  let wholesalePriceList := text.trim input.wholesalePriceList
  ensure (wholesalePriceList = "" ∨ wholesalePriceList ∈ priceLists) .priceListNotConfigured
  ensure (retailPriceList = "" ∨ retailPriceList ≠ wholesalePriceList) .priceListsSame
  pure { retailPriceList := retailPriceList, wholesalePriceList := wholesalePriceList }

def withGroup (id : ℕ) (change : BuyerGroup → BuyerGroup) : List BuyerGroup :=
  t.groups.map fun group => if group.id = id then change group else group

def withAccount (id : ℕ) (change : BuyerAccount → BuyerAccount) : List BuyerAccount :=
  t.accounts.map fun account => if account.id = id then change account else account

/-- The status a review asks of the account. -/
def reviewable (review : Review) (account : BuyerAccount) : Except Refusal Unit :=
  match review with
  | .approve => ensure (account.applicationStatus = .pending ∨ account.applicationStatus = .declined)
      .buyerNotPending
  | .change => ensure (account.applicationStatus = .approved) .buyerNotApproved

/-- The end of a transaction: its locks are free again. -/
def finish (p : ℕ) : Tables :=
  { t with
    groupLocks := fun id => if t.groupLocks id = some p then none else t.groupLocks id
    accountLocks := fun id => if t.accountLocks id = some p then none else t.accountLocks id
    settingsLock := if t.settingsLock = some p then none else t.settingsLock
    phase := Function.update t.phase p .idle }

def enter (p : ℕ) (phase : Phase) : Tables := { t with phase := Function.update t.phase p phase }

end Statements

inductive Op
  /-- `createBuyerGroup` checks its values and the right to set a price -/
  | checkNew (p : ℕ) (input : BuyerGroupInput) (priceLists : List String) (mayPrice : Bool)
  /-- it inserts the group and commits -/
  | create (p : ℕ)
  /-- `updateBuyerGroup` checks its values -/
  | checkUpdate (p id version : ℕ) (input : BuyerGroupInput) (priceLists : List String)
  /-- it locks the group -/
  | lockForUpdate (p : ℕ) (mayPrice : Bool)
  /-- it writes the group and commits -/
  | update (p : ℕ)
  /-- `deleteBuyerGroup` locks the group -/
  | lockForDelete (p id version : ℕ)
  /-- it looks for an account of the group -/
  | lookForAccounts (p : ℕ)
  /-- it marks the group deleted and commits -/
  | delete (p : ℕ)
  /-- `approveBuyer` and `changeBuyerGroup` lock the account -/
  | lockAccount (p accountId version : ℕ) (review : Review)
  /-- `groupForApproval` -/
  | readGroup (p groupId : ℕ)
  /-- the account is written and the transaction commits -/
  | joinGroup (p : ℕ)
  /-- `saveStorefrontSettings` locks its version row -/
  | lockSettings (p version : ℕ)
  /-- `checkedInput` -/
  | checkSettings (p : ℕ) (input : PriceListSettings) (priceLists : List String)
  /-- the changed values are written and the transaction commits -/
  | saveSettings (p : ℕ) (otherChanges : Bool)
  /-- any failure rolls the transaction back -/
  | abort (p : ℕ)

section Step

variable (text : GroupText)

/-- One statement of a request. A refused one changes nothing; a request that a row
lock stops waits, that is, it is refused here and asks again. -/
def step (t : Tables) : Op → Except Refusal Tables
  | .checkNew p input priceLists mayPrice =>
      match t.phase p with
      | .idle => do
          let values ← checkedFor text t input priceLists
          ensure (values.priceList = "" ∨ mayPrice = true) .groupPriceForbidden
          pure (enter t p (.creating values))
      | _ => .error .notPossible
  | .create p =>
      match t.phase p with
      | .creating values => do
          ensure (codeTaken t values.code none = false) .groupCodeTaken
          pure (finish { t with
            groups := t.groups ++ [{
              id := t.nextGroup + 1
              values := values
              isDeleted := false
              version := 1 }]
            nextGroup := t.nextGroup + 1 } p)
      | _ => .error .notPossible
  | .checkUpdate p id version input priceLists =>
      match t.phase p with
      | .idle => do
          let values ← checkedFor text t input priceLists
          pure (enter t p (.updating id version values))
      | _ => .error .notPossible
  | .lockForUpdate p mayPrice =>
      match t.phase p with
      | .updating id version values => do
          ensure (t.groupLocks id = none) .locked
          let group ← liveGroup t id .groupNotFound
          ensure (group.version = version) .staleVersion
          ensure (group.priceList = values.priceList ∨ mayPrice = true) .groupPriceForbidden
          pure { enter t p (.updateLocked id values) with
            groupLocks := Function.update t.groupLocks id (some p) }
      | _ => .error .notPossible
  | .update p =>
      match t.phase p with
      | .updateLocked id values => do
          let group ← liveGroup t id .groupNotFound
          ensure (codeTaken t values.code (some id) = false) .groupCodeTaken
          pure (finish { t with
            groups := withGroup t id fun row =>
              { row with values := values, version := group.version + 1 } } p)
      | _ => .error .notPossible
  | .lockForDelete p id version =>
      match t.phase p with
      | .idle => do
          ensure (t.groupLocks id = none) .locked
          let group ← liveGroup t id .groupNotFound
          ensure (group.version = version) .staleVersion
          pure { enter t p (.deleteLocked id) with
            groupLocks := Function.update t.groupLocks id (some p) }
      | _ => .error .notPossible
  | .lookForAccounts p =>
      match t.phase p with
      | .deleteLocked id => do
          ensure (∀ account ∈ t.accounts, account.groupId ≠ some id) .groupInUse
          pure (enter t p (.unused id))
      | _ => .error .notPossible
  | .delete p =>
      match t.phase p with
      | .unused id => do
          let group ← liveGroup t id .groupNotFound
          pure (finish { t with
            groups := withGroup t id fun row =>
              { row with
                values := { row.values with isActive := false }
                isDeleted := true
                version := group.version + 1 } } p)
      | _ => .error .notPossible
  | .lockAccount p accountId version review =>
      match t.phase p with
      | .idle => do
          ensure (t.accountLocks accountId = none) .locked
          let account ← accountById t accountId
          ensure (account.version = version) .staleVersion
          reviewable review account
          pure { enter t p (.accountLocked accountId review) with
            accountLocks := Function.update t.accountLocks accountId (some p) }
      | _ => .error .notPossible
  | .readGroup p groupId =>
      match t.phase p with
      | .accountLocked accountId review => do
          let _ ← liveGroup t groupId .groupNotFound
          pure (enter t p (.groupRead accountId groupId review))
      | _ => .error .notPossible
  | .joinGroup p =>
      match t.phase p with
      | .groupRead accountId groupId _ => do
          let account ← accountById t accountId
          -- the foreign key asks for the row of a group the account is not in yet
          ensure (account.groupId = some groupId ∨ t.groupLocks groupId = none) .locked
          pure (finish { t with
            accounts := withAccount t accountId fun row =>
              { row with
                applicationStatus := .approved
                groupId := some groupId
                version := account.version + 1 } } p)
      | _ => .error .notPossible
  | .lockSettings p version =>
      match t.phase p with
      | .idle => do
          ensure (t.settingsLock = none) .locked
          ensure (t.settingsVersion = version) .staleVersion
          pure { enter t p .settingsLocked with settingsLock := some p }
      | _ => .error .notPossible
  | .checkSettings p input priceLists =>
      match t.phase p with
      | .settingsLocked => do
          let values ← checkedInput text input priceLists
          pure (enter t p (.settingsChecked values))
      | _ => .error .notPossible
  | .saveSettings p otherChanges =>
      match t.phase p with
      | .settingsChecked values =>
          .ok (finish { t with
            settings := values
            settingsVersion :=
              if t.settings ≠ values ∨ otherChanges = true then t.settingsVersion + 1
              else t.settingsVersion } p)
      | _ => .error .notPossible
  | .abort p => .ok (finish t p)

end Step

/-- The state the requests meet: groups, accounts and settings of any kind, no request
under way. -/
def start (groups : List BuyerGroup) (nextGroup : ℕ) (accounts : List BuyerAccount)
    (settings : PriceListSettings) (settingsVersion : ℕ) : Tables where
  groups := groups
  nextGroup := nextGroup
  accounts := accounts
  settings := settings
  settingsVersion := settingsVersion
  groupLocks _ := none
  accountLocks _ := none
  settingsLock := none
  phase _ := .idle

end PapitalErp.BuyerGroups
