import Latchkey.Store.Tables

/-!
# Store calls

The calls that a store answers, each one step. A request sees tables through them alone, so that
the calls of several requests may be interleaved.
-/

namespace Latchkey

/-- A call to a store, by the type of its answer. -/
inductive Call : Type → Type where
  | findAccount (id : RowId) : Call (Option Account)
  | findAccountNamed (username : String) : Call (Option Account)
  | findAccountResetBy (token : Uuid) : Call (Option Account)
  | isTaken (username : String) : Call Bool
  | insertAccount (a : NewAccount) : Call (Option Account)
  | saveAccount (a : Account) (events : List SecurityEvent) (now : Instant) : Call Account
  | insertDevice (d : Device) : Call Device
  | findDevice (token : Uuid) : Call (Option Device)
  | listDevices (account : RowId) : Call (List Device)
  | deleteDevice (account : RowId) (token : Uuid) : Call Bool
  | deleteDevicesOf (account : RowId) : Call Nat
  | recordSecurity (e : NewSecurityEntry) : Call SecurityEntry
  | securityTrail (account : RowId) : Call (List SecurityEntry)
  | securityPage (account : RowId) (page : Page) : Call (List SecurityEntry)
  | recordCharge (c : NewCharge) : Call Charge
  | chargePage (account : RowId) (page : Page) : Call (List Charge)
  | countKeys (account : RowId) : Call Nat
  | listKeys (account : RowId) : Call (List ApiKey)
  | findKey (account id : RowId) : Call (Option ApiKey)
  | listKeysLedBy (lead : String) : Call (List ApiKey)
  | insertKey (k : NewApiKey) (limit : Int) : Call (Option ApiKey)
  | modifyKey (account id : RowId) (edit : ApiKey → KeyChange) (security : Option SecurityEvent)
      (now : Instant) : Call (Option KeyChange)
  | keyPage (key : RowId) (page : Page) : Call (List KeyEntry)

namespace Call

/-- A step that only looks at the tables. -/
def look {β : Type} (t : Tables) (found : β) : Except StoreFault β × Tables :=
  (.ok found, t)

/-- A step that cannot fail. -/
def sure {β : Type} (step : β × Tables) : Except StoreFault β × Tables :=
  (.ok step.1, step.2)

/-- What tables answer to a call, and what becomes of them. -/
def apply {β : Type} (c : Call β) (t : Tables) : Except StoreFault β × Tables :=
  match c with
  | .findAccount id => look t (t.account? id)
  | .findAccountNamed username => look t (t.accountNamed? username)
  | .findAccountResetBy token => look t (t.accountResetBy? token)
  | .isTaken username => look t (t.isTaken username)
  | .insertAccount a => sure (t.insertAccount a)
  | .saveAccount a events now => t.saveAccount a events now
  | .insertDevice d => sure (t.insertDevice d)
  | .findDevice token => look t (t.device? token)
  | .listDevices account => look t (t.devicesOf account)
  | .deleteDevice account token => sure (t.deleteDevice account token)
  | .deleteDevicesOf account => sure (t.deleteDevicesOf account)
  | .recordSecurity e => sure (t.recordSecurity e)
  | .securityTrail account => look t (t.securityTrailOf account)
  | .securityPage account page => look t (page.newestFirst (t.securityTrailOf account))
  | .recordCharge c => sure (t.recordCharge c)
  | .chargePage account page => look t (page.newestFirst (t.chargesOf account))
  | .countKeys account => look t (t.keysOf account).length
  | .listKeys account => look t (t.keysOf account)
  | .findKey account id => look t (t.key? account id)
  | .listKeysLedBy lead => look t (t.keysLedBy lead)
  | .insertKey k limit => sure (t.insertKey k limit)
  | .modifyKey account id edit security now => sure (t.modifyKey account id edit security now)
  | .keyPage key page => look t (page.newestFirst (t.keyTrailOf key))

end Call

end Latchkey
