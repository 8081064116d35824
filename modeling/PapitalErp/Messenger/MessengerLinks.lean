import PapitalErp.Lib.Interleaving

/-!
# Links of users to the staff bots

A user's profile issues a one-time code, the user sends it to the bot of a messenger, and the poller
of the bot links that chat to the user. A bot is read by one pass at a time, under an advisory lock;
a pass stores the next offset after every update. «/stop», the profile and a delivery that the bot
refuses close links.

A statement may fail and a process may stop at any point; the clock moves between statements, and
`now()` of a transaction is its start. From the lock of a code's row to the commit a transaction
writes rows that it has locked, and links that only the pass of the bot inserts, which is one step
here. Codes stand for their hashes. What a user has sent is read as a stop, a code or another text.
The limit of a chat, which is in memory and only refuses codes, and the bot's answer are the
environment's choice; the replies, the back-off, the audit rows and the change of a bot are left out.
-/

namespace PapitalErp.MessengerLinks

open Interleaving

/-- In milliseconds, as every time here. -/
def LINK_CODE_TTL : ℕ := 10 * 60 * 1000

def WRONG_CODE_WINDOW : ℕ := 10 * 60 * 1000
def BOT_WRONG_CODE_LIMIT : ℕ := 30
def MAX_CODE_ATTEMPTS : ℕ := 5

inductive Messenger where
  | bale | telegram
  deriving DecidableEq

/-- A row of `messenger_link_codes`. -/
structure LinkCode where
  id : ℕ
  userId : ℕ
  messenger : Messenger
  code : ℕ
  expiresAt : ℕ
  deriving DecidableEq

/-- A row of `user_messenger_links`, with the update that made it. -/
structure Link where
  id : ℕ
  userId : ℕ
  messenger : Messenger
  chatId : ℕ
  isActive : Bool
  madeBy : ℕ
  deriving DecidableEq

/-- What `messenger_bots` holds about the updates of a bot. -/
structure Bot where
  updateOffset : ℕ
  wrongCodesCount : ℕ
  wrongCodesSince : Option ℕ

inductive Text where
  | stop
  | code (code : ℕ)
  | other
  deriving DecidableEq

/-- A message of a private chat to a bot. -/
structure Update where
  id : ℕ
  chatId : ℕ
  text : Text
  deriving DecidableEq

/-- The commits that issue a code or link by one, the latter with the start of its transaction. -/
inductive Event where
  | issued (code : LinkCode)
  | linked (code : LinkCode) (link : Link) (startedAt : ℕ)

/-- A refused message: the link it was sent over and a link that was closed for it. -/
structure Refusal where
  sentOver : ℕ
  closed : ℕ
  deriving DecidableEq

structure Tables where
  now : ℕ
  isDeleted : ℕ → Bool
  codes : List LinkCode
  nextCode : ℕ
  links : List Link
  nextLink : ℕ
  bot : Messenger → Bot
  /-- what was sent to a bot, in the order of the ids -/
  inbox : Messenger → List Update
  userLocks : Locks ℕ ℕ
  codeLocks : Locks ℕ ℕ
  /-- the advisory lock `MESSENGER_BOT_UPDATES` of each bot -/
  pollLocks : Locks Messenger ℕ
  /-- the commits about codes, in their order -/
  events : List Event
  refusals : List Refusal
  /-- when the bot tested a wrong code -/
  tests : Messenger → List ℕ
  /-- tests that the bot's row does not count yet -/
  uncounted : Messenger → ℕ
  /-- the starts of the bot's windows -/
  windows : Messenger → List ℕ

inductive Answer where
  | ok | blocked | failed
  deriving DecidableEq

/-- What a statement meets. -/
structure Weather where
  /-- how far the clock moves before it -/
  elapsed : ℕ
  fails : Bool
  /-- the process stops and its connections are closed -/
  crashes : Bool
  /-- `tooManyWrongCodes` of the chat -/
  tooManyWrongCodes : Bool
  /-- how many updates `getUpdates` returns at most -/
  limit : ℕ
  answer : Answer

inductive Request where
  | issueLinkCode (userId : ℕ) (messenger : Messenger) (draws : List ℕ)
  | pollMessenger (messenger : Messenger)
  | unlinkMine (userId : ℕ) (messenger : Messenger)
  | sendTestMessage (userId : ℕ) (messenger : Messenger)
  | deliverMessengerJob (linkId : ℕ)
  /-- a user writes to a bot -/
  | write (messenger : Messenger) (chatId : ℕ) (text : Text) (skipped : ℕ)
  deriving DecidableEq

/-- How far a request is; `rest` are the updates of a pass after the one in hand. -/
inductive Point where
  | sent (request : Request)
  | issuing (userId : ℕ) (messenger : Messenger) (draws : List ℕ) (startedAt : ℕ)
  | inserting (userId : ℕ) (messenger : Messenger) (draws : List ℕ) (startedAt : ℕ)
  | fetching (messenger : Messenger) (offset : ℕ)
  | handling (messenger : Messenger) (updates : List Update)
  | stopping (messenger : Messenger) (update : Update) (rest : List Update)
  | reading (messenger : Messenger) (update : Update) (code : ℕ) (rest : List Update)
  | matching (messenger : Messenger) (update : Update) (code : ℕ) (rest : List Update)
  | found (messenger : Messenger) (update : Update) (code : LinkCode) (startedAt : ℕ) (rest : List Update)
  | confirming (messenger : Messenger) (update : Update) (code : LinkCode) (startedAt : ℕ)
      (rest : List Update)
  | linking (messenger : Messenger) (update : Update) (code : LinkCode) (startedAt : ℕ)
      (rest : List Update)
  | counting (messenger : Messenger) (update : Update) (rest : List Update)
  | storing (messenger : Messenger) (update : Update) (rest : List Update)
  | testing (link : Link)
  | testRefused (link : Link)
  | delivering (link : Link)
  | deliveryRefused (link : Link)
  | ended

namespace Tables

variable (s : Tables) (i : ℕ)

/-- The end of a transaction. -/
def endTransaction : Tables :=
  { s with
    userLocks := s.userLocks.release i
    codeLocks := s.codeLocks.release i }

/-- The end of a process: its connections are closed. -/
def close : Tables := { s.endTransaction i with pollLocks := s.pollLocks.release i }

def stop : Tables × Point := (s.close i, .ended)

/-! ## Codes -/

/-- `issueLinkCode` takes the user's row first. -/
def lockUser (userId : ℕ) (messenger : Messenger) (draws : List ℕ) (startedAt : ℕ) :
    Option (Tables × Point) :=
  (s.userLocks.take i userId).map fun userLocks =>
    if s.isDeleted userId then s.stop i
    else ({ s with userLocks }, .inserting userId messenger draws startedAt)

/-- The codes that a new one removes. -/
def outdated (userId : ℕ) (messenger : Messenger) (startedAt : ℕ) (code : LinkCode) : Bool :=
  (code.userId = userId && code.messenger = messenger) || code.expiresAt ≤ startedAt

/-- The first draw that no code of the messenger has. -/
def freeCode (codes : List LinkCode) (messenger : Messenger) (draws : List ℕ) : Option ℕ :=
  (draws.take MAX_CODE_ATTEMPTS).find? fun draw =>
    !codes.any fun code => code.messenger = messenger && code.code = draw

def issue (userId : ℕ) (messenger : Messenger) (startedAt code : ℕ) (kept : List LinkCode) : Tables :=
  let row : LinkCode := ⟨s.nextCode, userId, messenger, code, startedAt + LINK_CODE_TTL⟩
  { s with
    codes := kept ++ [row]
    nextCode := s.nextCode + 1
    events := s.events ++ [.issued row] }

/-- The older codes go, which waits for a row that is being used, and a new one is inserted. -/
def insertCode (userId : ℕ) (messenger : Messenger) (draws : List ℕ) (startedAt : ℕ) :
    Option (Tables × Point) :=
  if s.codes.any fun code => outdated userId messenger startedAt code &&
      (s.codeLocks code.id).any (· ≠ i) then none
  else
    let kept := s.codes.filter fun code => !outdated userId messenger startedAt code
    match freeCode kept messenger draws with
    | none => some (s.stop i)
    | some code => some ((s.issue userId messenger startedAt code kept).stop i)

/-! ## Closing links -/

/-- `closeLinks`: the active links that meet the condition are closed. -/
def closeLinks (which : Link → Bool) : Tables :=
  { s with links := s.links.map fun link =>
      if link.isActive ∧ which link then { link with isActive := false } else link }

/-- The links that a refusal closes are recorded with the link it came over. -/
def closeRefused (sentOver : ℕ) (which : Link → Bool) : Tables :=
  { s.closeLinks which with refusals := s.refusals ++
      ((s.links.filter fun link => link.isActive && which link).map fun link => ⟨sentOver, link.id⟩) }

/-- `closeChatLink`. -/
def ofChat (messenger : Messenger) (chatId : ℕ) (link : Link) : Bool :=
  link.messenger = messenger && link.chatId = chatId

def ofUser (userId : ℕ) (messenger : Messenger) (link : Link) : Bool :=
  link.userId = userId && link.messenger = messenger

/-- `activeLinkOf`. -/
def activeLinkOf (userId : ℕ) (messenger : Messenger) : Option Link :=
  s.links.find? fun link => ofUser userId messenger link && link.isActive

/-! ## A pass over a bot -/

/-- The bot's updates from the offset on. -/
def updatesFrom (messenger : Messenger) (offset limit : ℕ) : List Update :=
  ((s.inbox messenger).filter fun update => offset ≤ update.id).take limit

/-- The bot's wrong codes are in a window. -/
def inWindow (messenger : Messenger) : Bool :=
  (s.bot messenger).wrongCodesSince.any fun since => s.now < since + WRONG_CODE_WINDOW

def botWrongCodes (messenger : Messenger) : ℕ :=
  if s.inWindow messenger then (s.bot messenger).wrongCodesCount else 0

/-- A code that can be used. -/
def matches_ (messenger : Messenger) (code startedAt : ℕ) (row : LinkCode) : Bool :=
  row.messenger = messenger && row.code = code && startedAt < row.expiresAt

/-- The bot has tested a wrong code. -/
def wrongCode (messenger : Messenger) : Tables :=
  { s with
    tests := Function.update s.tests messenger (s.now :: s.tests messenger)
    uncounted := Function.update s.uncounted messenger (s.uncounted messenger + 1) }

/-- The transaction ends without a link. -/
def invalid (messenger : Messenger) (update : Update) (rest : List Update) : Tables × Point :=
  ((s.wrongCode messenger).endTransaction i, .counting messenger update rest)

/-- `completeLinkFromChat`: the code is looked up. -/
def findCode (messenger : Messenger) (update : Update) (code : ℕ) (rest : List Update) : Tables × Point :=
  match s.codes.find? (matches_ messenger code s.now) with
  | none => s.invalid i messenger update rest
  | some row => (s, .found messenger update row s.now rest)

/-- The row of the code's user, before the row of the code. -/
def lockCodeUser (messenger : Messenger) (update : Update) (code : LinkCode) (startedAt : ℕ)
    (rest : List Update) : Option (Tables × Point) :=
  (s.userLocks.take i code.userId).map fun userLocks =>
    ({ s with userLocks }, .confirming messenger update code startedAt rest)

/-- The row of the code, which may be gone by now. -/
def lockCode (messenger : Messenger) (update : Update) (code : LinkCode) (startedAt : ℕ)
    (rest : List Update) : Option (Tables × Point) :=
  if code ∈ s.codes then
    (s.codeLocks.take i code.id).map fun codeLocks =>
      ({ s with codeLocks }, .linking messenger update code startedAt rest)
  else some (s.invalid i messenger update rest)

/-- The code is used up. -/
def useCode (code : LinkCode) : Tables :=
  { s with codes := s.codes.filter fun row => row.id ≠ code.id }

/-- The links that the new one replaces. -/
def replaced (messenger : Messenger) (update : Update) (code : LinkCode) (link : Link) : Bool :=
  ofUser code.userId messenger link || (ofChat messenger update.chatId link && link.userId ≠ code.userId)

/-- The new link, active. -/
def insertLink (messenger : Messenger) (update : Update) (code : LinkCode) (startedAt : ℕ) : Tables :=
  let row : Link := ⟨s.nextLink, code.userId, messenger, update.chatId, true, update.id⟩
  { s with
    links := s.links ++ [row]
    nextLink := s.nextLink + 1
    events := s.events ++ [.linked code row startedAt] }

/-- The rest of the transaction under the locks of the user and the code. -/
def linkChat (messenger : Messenger) (update : Update) (code : LinkCode) (startedAt : ℕ)
    (rest : List Update) : Tables × Point :=
  if s.isDeleted code.userId then (s.useCode code).invalid i messenger update rest
  else
    ((((s.useCode code).closeLinks (replaced messenger update code)).insertLink messenger update code
      startedAt).endTransaction i, .storing messenger update rest)

/-- `countBotWrongCode`: one statement. -/
def countBotWrongCode (messenger : Messenger) : Tables :=
  let bot := s.bot messenger
  { s with
    bot := Function.update s.bot messenger { bot with
      wrongCodesCount := if s.inWindow messenger then bot.wrongCodesCount + 1 else 1
      wrongCodesSince := if s.inWindow messenger then bot.wrongCodesSince else some s.now }
    windows := if s.inWindow messenger then s.windows
      else Function.update s.windows messenger (s.now :: s.windows messenger)
    uncounted := Function.update s.uncounted messenger (s.uncounted messenger - 1) }

/-- The offset is past the update. -/
def storeOffset (messenger : Messenger) (update : Update) : Tables :=
  let bot := s.bot messenger
  { s with
    bot := Function.update s.bot messenger { bot with
      updateOffset := max bot.updateOffset (update.id + 1) } }

/-- The id of the last update of a bot. -/
def lastUpdate (messenger : Messenger) : ℕ := ((s.inbox messenger).getLast?.map Update.id).getD 0

/-- The messenger numbers the updates of a bot, and may skip ids. -/
def receive (messenger : Messenger) (chatId : ℕ) (text : Text) (skipped : ℕ) : Tables :=
  let update : Update := ⟨s.lastUpdate messenger + skipped + 1, chatId, text⟩
  { s with
    inbox := Function.update s.inbox messenger (s.inbox messenger ++ [update]) }

end Tables

open Tables in
/-- The next statement of request `i`. -/
def statement (i : ℕ) (weather : Weather) (s : Tables) : Point → Option (Tables × Point)
  | .sent (.issueLinkCode userId messenger draws) => some (s, .issuing userId messenger draws s.now)
  | .sent (.pollMessenger messenger) =>
      match s.pollLocks.take i messenger with
      | none => some (s, .ended)
      | some pollLocks =>
          some ({ s with pollLocks }, .fetching messenger (s.bot messenger).updateOffset)
  | .sent (.unlinkMine userId messenger) => some ((s.closeLinks (ofUser userId messenger)).stop i)
  | .sent (.sendTestMessage userId messenger) =>
      match s.activeLinkOf userId messenger with
      | none => some (s, .ended)
      | some link => some (s, .testing link)
  | .sent (.deliverMessengerJob linkId) =>
      match s.links.find? fun link => link.id = linkId && link.isActive with
      | none => some (s, .ended)
      | some link => if s.isDeleted link.userId then some (s, .ended) else some (s, .delivering link)
  | .sent (.write messenger chatId text skipped) =>
      some (s.receive messenger chatId text skipped, .ended)
  | .issuing userId messenger draws startedAt => s.lockUser i userId messenger draws startedAt
  | .inserting userId messenger draws startedAt => s.insertCode i userId messenger draws startedAt
  | .fetching messenger offset => some (s, .handling messenger (s.updatesFrom messenger offset weather.limit))
  | .handling _ [] => some (s.stop i)
  | .handling messenger (update :: rest) =>
      match update.text with
      | .stop => some (s, .stopping messenger update rest)
      | .code code =>
          if weather.tooManyWrongCodes then some (s, .storing messenger update rest)
          else some (s, .reading messenger update code rest)
      | .other => some (s, .storing messenger update rest)
  | .stopping messenger update rest =>
      some (s.closeLinks (ofChat messenger update.chatId), .storing messenger update rest)
  | .reading messenger update code rest =>
      if BOT_WRONG_CODE_LIMIT ≤ s.botWrongCodes messenger then some (s, .storing messenger update rest)
      else some (s, .matching messenger update code rest)
  | .matching messenger update code rest => some (s.findCode i messenger update code rest)
  | .found messenger update code startedAt rest => s.lockCodeUser i messenger update code startedAt rest
  | .confirming messenger update code startedAt rest => s.lockCode i messenger update code startedAt rest
  | .linking messenger update code startedAt rest =>
      some (s.linkChat i messenger update code startedAt rest)
  | .counting messenger update rest =>
      some (s.countBotWrongCode messenger, .storing messenger update rest)
  | .storing messenger update rest => some (s.storeOffset messenger update, .handling messenger rest)
  | .testing link =>
      some (s, if weather.answer = .blocked then .testRefused link else .ended)
  | .testRefused link => some ((s.closeRefused link.id (ofChat link.messenger link.chatId)).stop i)
  | .delivering link =>
      some (s, if weather.answer = .blocked then .deliveryRefused link else .ended)
  | .deliveryRefused link =>
      some ((s.closeRefused link.id fun other => other.id = link.id).stop i)
  | .ended => none

/-- The update whose handling an error ends: `pollMessenger` goes on to store the offset. -/
def Point.handled : Point → Option (Messenger × Update × List Update)
  | .stopping messenger update rest | .reading messenger update _ rest
  | .matching messenger update _ rest | .found messenger update _ _ rest
  | .confirming messenger update _ _ rest | .linking messenger update _ _ rest
  | .counting messenger update rest => some (messenger, update, rest)
  | _ => none

/-- An error: the transaction is rolled back; one in the handling of an update is caught. -/
def failed (i : ℕ) (s : Tables) (point : Point) : Tables × Point :=
  match point.handled with
  | some (messenger, update, rest) => (s.endTransaction i, .storing messenger update rest)
  | none => s.stop i

/-- Requests about links, each of which may fail or stop at any statement. -/
def requests : Program ℕ Weather Tables Point := fun i weather s point =>
  let s := { s with now := s.now + weather.elapsed }
  if weather.crashes then some (s.stop i)
  else if weather.fails then some (failed i s point)
  else statement i weather s point

/-- No code, no link and nothing read. -/
def start (isDeleted : ℕ → Bool) (request : ℕ → Request) : Config ℕ Tables Point where
  shared :=
    { now := 0
      isDeleted
      codes := []
      nextCode := 0
      links := []
      nextLink := 0
      bot := fun _ => ⟨0, 0, none⟩
      inbox := fun _ => []
      userLocks := fun _ => none
      codeLocks := fun _ => none
      pollLocks := fun _ => none
      events := []
      refusals := []
      tests := fun _ => []
      uncounted := fun _ => 0
      windows := fun _ => [] }
  locals := fun i => .sent (request i)

end PapitalErp.MessengerLinks
