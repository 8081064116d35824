import PapitalErp.Lib.Interleaving
import PapitalErp.Workflow.Delegation

/-!
# Numbers of documents

Documents are numbered for each type and fiscal year. A new document takes the next number of the
series or one its user wrote. The series is a row of `document_ref_counters`: the first automatic
number of a type and year starts it from the documents there are, the next ones lock the row, and
serials that a live document holds are passed over.

A creation is one transaction of several statements; another one sees its rows after the commit.
A write of the counter touches only the row its transaction has locked, so it goes with the
statement that locks it. The index on type, year and number admits no second live row: an insert
waits for the uncommitted row of another transaction and is refused by a committed one. A void
takes effect at its commit. The rest of a creation is a failure that may come at any statement.
-/

namespace PapitalErp.DocumentNumbers

open Interleaving

/-- The partition of the numbers. -/
structure Series where
  docType : String
  fiscalYear : ℕ
  deriving DecidableEq

structure Document where
  id : ℕ
  docType : String
  /-- `resolveJalaliFiscalYear` of the document's date -/
  dateYear : ℕ
  refFiscalYear : ℕ
  refNumber : String
  isDeleted : Bool

/-- What the index `uq_documents_type_fy_ref_active` is on. -/
structure RefKey where
  series : Series
  refNumber : String
  deriving DecidableEq

def Document.key (d : Document) : RefKey := ⟨⟨d.docType, d.refFiscalYear⟩, d.refNumber⟩

/-- A committed automatic number, with the number it continues from and the start number of its
type. -/
structure Given where
  documentId : ℕ
  series : Series
  number : ℕ
  previous : ℕ
  startNumber : ℕ

structure Tables where
  /-- `last_ref_number` of the committed rows of `document_ref_counters` -/
  counters : Series → Option ℕ
  documents : List Document
  /-- who has locked or inserted the row of a counter -/
  counterLocks : Locks Series ℕ
  /-- whose uncommitted document is in the index -/
  refLocks : Locks RefKey ℕ
  /-- the automatic numbers in the order of the commits -/
  given : List Given

def MAX_REF_COUNTER_VALUE : ℕ := 2147483647

def MAX_TAKEN_SERIALS_SKIPPED : ℕ := 1000

/-- `extractRefSerial`: the digits at the end of the text. -/
def extractRefSerial (refNumber : String) : Option ℕ :=
  let digits := (refNumber.toList.reverse.takeWhile Char.isDigit).reverse
  if digits = [] then none else some (digits.foldl (fun n c => 10 * n + (c.toNat - '0'.toNat)) 0)

/-- `isAutoRefNumber`; no other letters than those of `auto` have its lower-case letters. -/
def isAutoRefNumber (requested : Option String) : Bool :=
  requested.all fun text => jsTrim text = "" || (jsTrim text).toLower = "auto"

namespace Tables

variable (s : Tables)

/-- A live document of the series has the number. -/
def taken (key : RefKey) : Bool :=
  s.documents.any fun d => !d.isDeleted && d.key = key

/-- The documents that the scan of `getMaxExistingRefNumber` reads. -/
def scanned (series : Series) : List Document :=
  s.documents.filter fun d => !d.isDeleted && d.docType = series.docType &&
    (!(1300 ≤ series.fiscalYear && series.fiscalYear ≤ 1500) || d.dateYear = series.fiscalYear)

def getMaxExistingRefNumber (series : Series) : ℕ :=
  (s.scanned series).foldl (fun maxNum d =>
    match extractRefSerial d.refNumber with
    | none => maxNum
    | some val => if val ≤ MAX_REF_COUNTER_VALUE ∧ val > maxNum then val else maxNum) 0

/-- The end of a transaction. -/
def release (i : ℕ) : Tables :=
  { s with
    counterLocks := s.counterLocks.release i
    refLocks := s.refLocks.release i }

end Tables

inductive Request where
  | create (docType : String) (fiscalYear : ℕ) (requested : Option String)
  | peek (docType : String) (fiscalYear : ℕ)
  | void (documentId : ℕ)
  deriving DecidableEq

/-- How `firstFreeSerial` is going: the number it continues from, the start number and the next
serial to look at. -/
structure Search where
  series : Series
  previous : ℕ
  startNumber : ℕ
  serial : ℕ
  deriving DecidableEq

/-- The first serial to look at. -/
def Search.first (search : Search) : ℕ := max (search.previous + 1) search.startNumber

/-- A search from its first serial on. -/
def Search.begin (series : Series) (previous startNumber : ℕ) : Search :=
  ⟨series, previous, startNumber, max (previous + 1) startNumber⟩

/-- How far a request is. -/
inductive Point where
  | sent (request : Request)
  /-- the context is resolved -/
  | counting (series : Series) (startNumber : ℕ)
  | scanning (series : Series) (startNumber : ℕ)
  | seeding (series : Series) (startNumber maxNum : ℕ)
  | retrying (series : Series) (startNumber : ℕ)
  | searching (search : Search)
  /-- the number is assigned; an automatic one comes from a search -/
  | numbered (series : Series) (refNumber : String) (search : Option Search)
  | inserted (series : Series) (refNumber : String) (search : Option Search)
  | peeking (series : Series) (startNumber : ℕ)
  | peekScanning (series : Series) (startNumber : ℕ)
  | peekSearching (search : Search)
  | answered (nextRef : Option ℕ)
  | ended

/-- What a statement meets: a failure of its own, and the setting `invoice_start_number`. -/
structure Weather where
  fails : Bool
  invoiceStartNumber : Option ℤ

/-- The start number of `resolveRefContext`; one below 1 never counts. -/
def startNumberOf (docType : String) (weather : Weather) : ℕ :=
  if docType = "invoice" then (weather.invoiceStartNumber.getD 1).toNat else 1

namespace Tables

variable (s : Tables) (i : ℕ)

/-- An error: the transaction is rolled back. -/
def abort : Tables × Point := (s.release i, .ended)

/-- The counter of the locked row becomes the search's number, which the column has to hold. -/
def search (series : Series) (previous startNumber : ℕ) : Tables × Point :=
  if (Search.begin series previous startNumber).serial ≤ MAX_REF_COUNTER_VALUE then
    (s, .searching (.begin series previous startNumber))
  else s.abort i

/-- The counter row FOR UPDATE: a row that is not committed yet is not seen. -/
def lockCounter (series : Series) (startNumber : ℕ) : Option (Tables × Point) :=
  match s.counters series with
  | none => some (s, .scanning series startNumber)
  | some last =>
      (s.counterLocks.take i series).map fun counterLocks =>
        ({ s with counterLocks } : Tables).search i series last startNumber

/-- INSERT … ON CONFLICT DO NOTHING of the seeded counter. -/
def seedCounter (series : Series) (startNumber maxNum : ℕ) : Option (Tables × Point) :=
  match s.counters series with
  | some _ => some (s, .retrying series startNumber)
  | none =>
      (s.counterLocks.take i series).map fun counterLocks =>
        ({ s with counterLocks } : Tables).search i series maxNum startNumber

/-- The counter row of the transaction that was first, FOR UPDATE. -/
def retryCounter (series : Series) (startNumber : ℕ) : Option (Tables × Point) :=
  (s.counterLocks.take i series).map fun counterLocks =>
    ({ s with counterLocks } : Tables).search i series ((s.counters series).getD 0) startNumber

/-- The serial is looked at; a free one becomes the counter and the number. -/
def lookAt (search : Search) : Tables × Point :=
  if search.first + MAX_TAKEN_SERIALS_SKIPPED ≤ search.serial then s.abort i
  else if s.taken ⟨search.series, toString search.serial⟩ then
    (s, .searching { search with serial := search.serial + 1 })
  else if search.serial ≤ MAX_REF_COUNTER_VALUE then
    (s, .numbered search.series (toString search.serial) (some search))
  else s.abort i

/-- `assertRefNumberFree` of a number the user wrote. -/
def assertRefNumberFree (series : Series) (refNumber : String) : Tables × Point :=
  if s.taken ⟨series, refNumber⟩ then s.abort i else (s, .numbered series refNumber none)

/-- The insert of the document: its entry in the unique index. -/
def insertDocument (series : Series) (refNumber : String) (search : Option Search) :
    Option (Tables × Point) :=
  if s.taken ⟨series, refNumber⟩ then some (s.abort i)
  else
    (s.refLocks.take i ⟨series, refNumber⟩).map fun refLocks =>
      ({ s with refLocks }, .inserted series refNumber search)

/-- The document of request `i`. -/
def newDocument (series : Series) (refNumber : String) : Document :=
  ⟨i, series.docType, series.fiscalYear, series.fiscalYear, refNumber, false⟩

/-- The document is in the table. -/
def addDocument (series : Series) (refNumber : String) : Tables :=
  { s with documents := s.documents ++ [newDocument i series refNumber] }

/-- The counter has the number of the search. -/
def giveNumber (found : Search) : Tables :=
  { s with
    counters := Function.update s.counters found.series (some found.serial)
    given := s.given ++ [⟨i, found.series, found.serial, found.previous, found.startNumber⟩] }

/-- The commit: the others see the document and the counter. -/
def commit (series : Series) (refNumber : String) (search : Option Search) : Tables × Point :=
  match search with
  | none => ((s.addDocument i series refNumber).release i, .ended)
  | some found => (((s.addDocument i series refNumber).giveNumber i found).release i, .ended)

/-- The number is soft-deleted with its document. -/
def voidDocument (documentId : ℕ) : Tables :=
  { s with documents := s.documents.map fun d =>
      if d.id = documentId then { d with isDeleted := true } else d }

/-- The serial is looked at for a preview. -/
def peekAt (search : Search) : Point :=
  if search.first + MAX_TAKEN_SERIALS_SKIPPED ≤ search.serial then .answered none
  else if s.taken ⟨search.series, toString search.serial⟩ then
    .peekSearching { search with serial := search.serial + 1 }
  else .answered (some search.serial)

end Tables

/-- The next statement of request `i`. -/
def statement (i : ℕ) (weather : Weather) (s : Tables) : Point → Option (Tables × Point)
  | .sent (.create docType fiscalYear requested) =>
      match requested with
      | some text =>
          if isAutoRefNumber requested then
            some (s, .counting ⟨docType, fiscalYear⟩ (startNumberOf docType weather))
          else some (s.assertRefNumberFree i (Series.mk docType fiscalYear) (jsTrim text))
      | none => some (s, .counting ⟨docType, fiscalYear⟩ (startNumberOf docType weather))
  | .sent (.peek docType fiscalYear) =>
      some (s, .peeking ⟨docType, fiscalYear⟩ (startNumberOf docType weather))
  | .sent (.void documentId) => some (s.voidDocument documentId, .ended)
  | .counting series startNumber => s.lockCounter i series startNumber
  | .scanning series startNumber =>
      some (s, .seeding series startNumber (s.getMaxExistingRefNumber series))
  | .seeding series startNumber maxNum => s.seedCounter i series startNumber maxNum
  | .retrying series startNumber => s.retryCounter i series startNumber
  | .searching search => some (s.lookAt i search)
  | .numbered series refNumber search => s.insertDocument i series refNumber search
  | .inserted series refNumber search => some (s.commit i series refNumber search)
  | .peeking series startNumber =>
      match s.counters series with
      | some last => some (s, .peekSearching (.begin series last startNumber))
      | none => some (s, .peekScanning series startNumber)
  | .peekScanning series startNumber =>
      some (s, .answered (some (max (s.getMaxExistingRefNumber series + 1) startNumber)))
  | .peekSearching search => some (s, s.peekAt search)
  | .answered _ | .ended => none

/-- Requests for document numbers, each a transaction that may fail at any statement. -/
def requests : Program ℕ Weather Tables Point := fun i weather s point =>
  if weather.fails then some (s.abort i) else statement i weather s point

end PapitalErp.DocumentNumbers
