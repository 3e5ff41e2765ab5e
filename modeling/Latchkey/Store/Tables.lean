import Latchkey.Account
import Latchkey.ApiKey

/-!
# Tables

What a store keeps: six lists of rows in the order of their insertion and the last number that was
given to a row. Every operation here is one step: what it answers and the tables after it. A change
and the entries in the trails that tell of it are made in the same step.
-/

namespace Latchkey

/-- The rows of a store. Devices have no number of their own. -/
structure Tables where
  lastId : RowId := 0
  accounts : List Account := []
  devices : List Device := []
  securityTrail : List SecurityEntry := []
  charges : List Charge := []
  keys : List ApiKey := []
  keyTrail : List KeyEntry := []
  deriving DecidableEq

/-- A list with its first member of a kind replaced. -/
def replaceFirst {α : Type} (p : α → Bool) (y : α) : List α → List α
  | [] => []
  | x :: xs => if p x then y :: xs else x :: replaceFirst p y xs

namespace Tables

/-- The number of the next row. -/
def nextId (t : Tables) : RowId := t.lastId + 1

/-! ## Trails -/

/-- The entry that becomes of a new one. -/
def securityEntry (t : Tables) (e : NewSecurityEntry) : SecurityEntry :=
  { id := t.nextId, account := e.account, action := e.action, fingerprint := e.fingerprint
    createdAt := e.createdAt }

/-- Adds an entry about an account. -/
def recordSecurity (t : Tables) (e : NewSecurityEntry) : SecurityEntry × Tables :=
  let entry := t.securityEntry e
  (entry, { t with lastId := entry.id, securityTrail := t.securityTrail ++ [entry] })

/-- Adds one entry for each event about an account. -/
def recordSecurityEvents (t : Tables) (account : RowId) (events : List SecurityEvent)
    (now : Instant) : Tables :=
  events.foldl (fun t event => (t.recordSecurity (.ofEvent account event now none)).2) t

/-- Adds one entry for each event about a key. -/
def recordKeyEvents (t : Tables) (key : RowId) (events : List KeyEvent) (now : Instant) : Tables :=
  events.foldl
    (fun t event =>
      { t with
        lastId := t.nextId
        keyTrail := t.keyTrail ++
          [{ id := t.nextId, key := key, action := event.label, createdAt := now }] })
    t

/-- All entries about an account, oldest first. -/
def securityTrailOf (t : Tables) (account : RowId) : List SecurityEntry :=
  t.securityTrail.filter (·.account = account)

/-- All charges to an account, oldest first. -/
def chargesOf (t : Tables) (account : RowId) : List Charge :=
  t.charges.filter (·.account = account)

/-- All entries about a key, oldest first. -/
def keyTrailOf (t : Tables) (key : RowId) : List KeyEntry :=
  t.keyTrail.filter (·.key = key)

/-- Adds a charge. -/
def recordCharge (t : Tables) (c : NewCharge) : Charge × Tables :=
  let charge : Charge :=
    { id := t.nextId, account := c.account, action := c.action, amount := c.amount
      createdAt := c.createdAt }
  (charge, { t with lastId := charge.id, charges := t.charges ++ [charge] })

/-! ## Accounts -/

/-- The account of a number. -/
def account? (t : Tables) (id : RowId) : Option Account :=
  t.accounts.find? (·.id = id)

/-- The account of a name. Names are compared as they are written. -/
def accountNamed? (t : Tables) (username : String) : Option Account :=
  t.accounts.find? (·.username = username)

/-- The account that waits for a reset with this token. -/
def accountResetBy? (t : Tables) (token : Uuid) : Option Account :=
  t.accounts.find? (·.resetToken = some token)

/-- Some account has this name. -/
def isTaken (t : Tables) (username : String) : Bool :=
  t.accounts.any (·.username = username)

/-- Adds an account and records that it was created; nothing happens if its name is taken. -/
def insertAccount (t : Tables) (a : NewAccount) : Option Account × Tables :=
  if t.isTaken a.username then (none, t)
  else
    let account := a.row t.nextId
    let t := { t with lastId := account.id, accounts := t.accounts ++ [account] }
    (some account, t.recordSecurityEvents account.id [.created] account.createdAt)

/-- Overwrites an account and records what happened to it. There must be a row of its number. -/
def saveAccount (t : Tables) (a : Account) (events : List SecurityEvent) (now : Instant) :
    Except StoreFault Account × Tables :=
  if t.accounts.any (·.id = a.id) then
    let t := { t with accounts := replaceFirst (·.id = a.id) a t.accounts }
    (.ok a, t.recordSecurityEvents a.id events now)
  else (.error ⟨"account " ++ intText a.id ++ " does not exist"⟩, t)

/-! ## Devices -/

/-- Adds a device. No trail tells of it. -/
def insertDevice (t : Tables) (d : Device) : Device × Tables :=
  (d, { t with devices := t.devices ++ [d] })

/-- The device of a token, whether or not it has expired. -/
def device? (t : Tables) (token : Uuid) : Option Device :=
  t.devices.find? (·.token = token)

/-- All devices of an account, oldest first, with those that have expired. -/
def devicesOf (t : Tables) (account : RowId) : List Device :=
  t.devices.filter (·.account = account)

/-- Removes a device of an account, and tells whether the account had it. -/
def deleteDevice (t : Tables) (account : RowId) (token : Uuid) : Bool × Tables :=
  let gone := fun (d : Device) => d.account = account && d.token = token
  (t.devices.any gone, { t with devices := t.devices.filter (!gone ·) })

/-- Removes all devices of an account, and tells how many there were. -/
def deleteDevicesOf (t : Tables) (account : RowId) : Nat × Tables :=
  ((t.devicesOf account).length, { t with devices := t.devices.filter (·.account ≠ account) })

/-! ## Keys -/

/-- The keys of an account that are not deleted. -/
def keysOf (t : Tables) (account : RowId) : List ApiKey :=
  t.keys.filter fun k => k.account = account && !k.isDeleted

/-- The keys of all accounts with this lead that are not deleted. -/
def keysLedBy (t : Tables) (lead : String) : List ApiKey :=
  t.keys.filter fun k => k.lead = lead && !k.isDeleted

/-- The key has this number, belongs to this account and is not deleted. -/
def isLive (account id : RowId) (k : ApiKey) : Bool :=
  k.id = id && k.account = account && !k.isDeleted

/-- The key of a number, if it belongs to this account and is not deleted. -/
def key? (t : Tables) (account id : RowId) : Option ApiKey :=
  t.keys.find? (isLive account id)

/-- Adds a key and records it in both trails, unless its account already has as many keys as the
limit allows. -/
def insertKey (t : Tables) (k : NewApiKey) (limit : Int) : Option ApiKey × Tables :=
  if limit ≤ (t.keysOf k.account).length then (none, t)
  else
    let key := k.row t.nextId
    let t := { t with lastId := key.id, keys := t.keys ++ [key] }
    let t := t.recordKeyEvents key.id [.created] key.createdAt
    (some key, t.recordSecurityEvents key.account [.keyCreated key.id] key.createdAt)

/-- Edits a key that is not deleted. Only an edit that reports events is written, together with one
entry for each event and, if one is given, an entry about the account. -/
def modifyKey (t : Tables) (account id : RowId) (edit : ApiKey → KeyChange)
    (security : Option SecurityEvent) (now : Instant) : Option KeyChange × Tables :=
  match t.key? account id with
  | none => (none, t)
  | some key =>
    let change := edit key
    if change.events.isEmpty then (some change, t)
    else
      let t := { t with keys := replaceFirst (isLive account id) change.key t.keys }
      let t := t.recordKeyEvents id change.events now
      (some change, t.recordSecurityEvents account security.toList now)

end Tables

end Latchkey
