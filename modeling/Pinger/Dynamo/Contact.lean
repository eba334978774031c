import Pinger.Device.Contact
import Pinger.Dynamo.Item

/-! # Device contacts in DynamoDB

The handler puts an item under the attributes `user`, `context` and `device`, and asks for it by
`user_id`, `client_context` and `device_id`. What it reads into a record has neither the id nor the
last request, and it never sets the handler of the record; and for an item that is not there it
returns a record of zeros, where the SQL handler returns none. -/

namespace Pinger.Dynamo

open GoString (lit)

/-- A `deviceContact`; `db` says whether its handler is set. -/
structure DeviceContact where
  id : Int64 := 0
  created : Int64 := 0
  updated : Int64 := 0
  lastContact : Int64 := 0
  lastContactRequest : Int64 := 0
  userId : GoString := []
  clientContext : GoString := []
  deviceId : GoString := []
  db : Bool := false
  deriving DecidableEq

namespace DeviceContact

/-- The record of a row of the SQL table. -/
def ofRow (db : Bool) (row : Contact.DeviceContact) : DeviceContact where
  id := Int64.ofNat row.id
  created := Int64.ofInt row.created
  updated := Int64.ofInt row.updated
  lastContact := Int64.ofInt row.lastContact
  lastContactRequest := Int64.ofInt row.lastContactRequest
  userId := row.key.userId
  clientContext := row.key.clientContext
  deviceId := row.key.deviceId
  db

def toMap (dc : DeviceContact) : GoMap :=
  (∅ : GoMap)
    |>.insert (lit "user") (.string dc.userId)
    |>.insert (lit "context") (.string dc.clientContext)
    |>.insert (lit "device") (.string dc.deviceId)
    |>.insert (lit "created") (.int64 dc.created)
    |>.insert (lit "updated") (.int64 dc.updated)
    |>.insert (lit "last_contact") (.int64 dc.lastContact)
    |>.insert (lit "last_contact_request") (.int64 dc.lastContactRequest)

/-- The case of the loop for a text. -/
def setString (dc : DeviceContact) (k v : GoString) : DeviceContact :=
  if k = lit "user" then { dc with userId := v }
  else if k = lit "device" then { dc with deviceId := v }
  else if k = lit "context" then { dc with clientContext := v }
  else dc

/-- The case of the loop for a number. -/
def setInt64 (dc : DeviceContact) (k : GoString) (v : Int64) : DeviceContact :=
  if k = lit "created" then { dc with created := v }
  else if k = lit "updated" then { dc with updated := v }
  else if k = lit "last_contact" then { dc with lastContact := v }
  else if k = lit "id" then { dc with id := v }
  else dc

def setField (dc : DeviceContact) (entry : Σ _ : GoString, Value) : DeviceContact :=
  match entry.2 with
  | .string v => dc.setString entry.1 v
  | .int64 v => dc.setInt64 entry.1 v
  | .int v => dc.setInt64 entry.1 v
  | .method _ => dc

end DeviceContact

def fromDeviceInfoMap (dcMap : GoMap) : DeviceContact :=
  dcMap.entries.foldl DeviceContact.setField {}

/-! ## What is read back -/

theorem DeviceContact.switches : Switches setField setString setInt64 :=
  ⟨fun _ _ _ => rfl, fun _ _ _ => rfl, fun _ _ _ => rfl, fun _ _ _ => rfl⟩

/-- The loop sets six of the fields and the id, each by the entry under its key. -/
theorem DeviceContact.sets : SetsField setField id (lit "id") Value.asInt64 ∧
    SetsField setField created (lit "created") Value.asInt64 ∧
    SetsField setField updated (lit "updated") Value.asInt64 ∧
    SetsField setField lastContact (lit "last_contact") Value.asInt64 ∧
    SetsField setField userId (lit "user") Value.asString ∧
    SetsField setField clientContext (lit "context") Value.asString ∧
    SetsField setField deviceId (lit "device") Value.asString := by
  refine ⟨switches.setsInt64 (fun _ _ => rfl) ?_ ?_, switches.setsInt64 (fun _ _ => rfl) ?_ ?_,
    switches.setsInt64 (fun _ _ => rfl) ?_ ?_, switches.setsInt64 (fun _ _ => rfl) ?_ ?_,
    switches.setsString (fun _ _ => rfl) ?_ ?_, switches.setsString (fun _ _ => rfl) ?_ ?_,
    switches.setsString (fun _ _ => rfl) ?_ ?_⟩
  -- another key, or a value of the other type
  all_goals
    intros
    dsimp only [setString, setInt64]
    split_ifs <;> first | rfl | contradiction

/-- No entry sets the last request or the handler. -/
theorem DeviceContact.setField_unset (dc : DeviceContact) (entry : Σ _ : GoString, Value) :
    (dc.setField entry).lastContactRequest = dc.lastContactRequest ∧
      (dc.setField entry).db = dc.db := by
  obtain ⟨k, v⟩ := entry
  cases v with
  | string v => simp only [setField, setString]; split_ifs <;> exact ⟨rfl, rfl⟩
  | int v => simp only [setField, setInt64]; split_ifs <;> exact ⟨rfl, rfl⟩
  | int64 v => simp only [setField, setInt64]; split_ifs <;> exact ⟨rfl, rfl⟩
  | method name => exact ⟨rfl, rfl⟩

theorem DeviceContact.foldl_unset (entries : List (Σ _ : GoString, Value)) (dc : DeviceContact) :
    (entries.foldl setField dc).lastContactRequest = dc.lastContactRequest ∧
      (entries.foldl setField dc).db = dc.db := by
  induction entries generalizing dc with
  | nil => exact ⟨rfl, rfl⟩
  | cons entry entries ih =>
    rw [List.foldl_cons, (ih _).1, (ih _).2]
    exact dc.setField_unset entry

theorem fromDeviceInfoMap_eq (m : GoMap) : fromDeviceInfoMap m = {
    id := ((m.lookup (lit "id")).bind Value.asInt64).getD 0
    created := ((m.lookup (lit "created")).bind Value.asInt64).getD 0
    updated := ((m.lookup (lit "updated")).bind Value.asInt64).getD 0
    lastContact := ((m.lookup (lit "last_contact")).bind Value.asInt64).getD 0
    userId := ((m.lookup (lit "user")).bind Value.asString).getD []
    clientContext := ((m.lookup (lit "context")).bind Value.asString).getD []
    deviceId := ((m.lookup (lit "device")).bind Value.asString).getD [] } := by
  obtain ⟨hid, hcreated, hupdated, hlast, huser, hcontext, hdevice⟩ := DeviceContact.sets
  have hid := hid.lookup m {}
  have hcreated := hcreated.lookup m {}
  have hupdated := hupdated.lookup m {}
  have hlast := hlast.lookup m {}
  have huser := huser.lookup m {}
  have hcontext := hcontext.lookup m {}
  have hdevice := hdevice.lookup m {}
  have hunset := DeviceContact.foldl_unset m.entries {}
  rw [← fromDeviceInfoMap] at hid hcreated hupdated hlast huser hcontext hdevice hunset
  rw [← hid, ← hcreated, ← hupdated, ← hlast, ← huser, ← hcontext, ← hdevice]
  generalize fromDeviceInfoMap m = dc at hunset
  obtain ⟨⟩ := dc
  cases hunset.1
  cases hunset.2
  rfl

theorem storable_toMap (dc : DeviceContact) : Storable dc.toMap :=
  ((((((storable_empty.insert rfl _).insert rfl _).insert rfl _).insert rfl _).insert rfl _).insert
    rfl _).insert rfl _

/-- A record that is written and taken from its own item is without the id, the last request and
the handler. -/
theorem stored_contact (dc : DeviceContact) :
    ∃ item m, goMaptoAwsAttributeMap dc.toMap = some item ∧ awsAttributeMapToGo item = some m ∧
      fromDeviceInfoMap m = { dc with id := 0, lastContactRequest := 0, db := false } := by
  obtain ⟨item, m, hitem, hm, hlookup⟩ := stored_map (storable_toMap dc)
  refine ⟨item, m, hitem, hm, ?_⟩
  rw [fromDeviceInfoMap_eq]
  simp only [hlookup]
  simp (disch := decide) only [DeviceContact.toMap, AList.lookup_insert, AList.lookup_insert_ne,
    AList.lookup_empty]
  rfl

/-- A row that is written here and taken from its own item is without its version and its last
request. -/
theorem stored_row (row : Contact.DeviceContact) :
    ∃ item m, goMaptoAwsAttributeMap (DeviceContact.ofRow true row).toMap = some item ∧
      awsAttributeMapToGo item = some m ∧
      fromDeviceInfoMap m = .ofRow false { row with id := 0, lastContactRequest := 0 } :=
  stored_contact (.ofRow true row)

/-! ## The handler -/

inductive KeyComparisonType
  | eq
  | gt
  | lt
  deriving DecidableEq

structure DBKeyValue where
  key : GoString
  value : Value
  comparison : KeyComparisonType

inductive Failure
  | error (text : GoString)
  | panic
  deriving DecidableEq

/-- The loop that makes the key to ask for. -/
def keyItem : List DBKeyValue → Item → Except Failure Item
  | [], dKeys => .ok dKeys
  | k :: keys, dKeys =>
    if k.comparison ≠ .eq then
      .error (.error (lit "Can not use anything but EQ for Get call"))
    else
      match goTypeToAttributeValue k.value with
      | none => .error .panic
      | some a => keyItem keys (dKeys.insert k.key a)

/-- The service, by the item it answers with: of the items put so far, for a key. -/
structure DynamoDb where
  getItem : List Item → Item → Item

namespace DynamoDb

def get (d : DynamoDb) (puts : List Item) (keys : List DBKeyValue) : Except Failure GoMap :=
  match keyItem keys ∅ with
  | .error failure => .error failure
  | .ok dKeys =>
    match awsAttributeMapToGo (d.getItem puts dKeys) with
    | none => .error .panic
    | some m => .ok m

/-- `get` of the handler. -/
def contact (d : DynamoDb) (puts : List Item) (keys : List DBKeyValue) :
    Except Failure (Option DeviceContact) :=
  match d.get puts keys with
  | .error failure => .error failure
  | .ok dcMap => .ok (some (fromDeviceInfoMap dcMap))

end DynamoDb

/-- The lookup of a contact by the `get` of a handler. -/
def deviceContactGet (get : List DBKeyValue → Except Failure (Option DeviceContact))
    (userId clientContext deviceId : GoString) : Except Failure (Option DeviceContact) :=
  get [⟨lit "user_id", .string userId, .eq⟩, ⟨lit "client_context", .string clientContext, .eq⟩,
    ⟨lit "device_id", .string deviceId, .eq⟩]

/-- A call that writes a record, at a time of the clock. -/
inductive Op
  | insert (dc : DeviceContact) (now : Int64)
  | update (dc : DeviceContact) (now : Int64)

namespace Op

/-- The record as the call leaves it. -/
def record : Op → DeviceContact
  | insert dc now =>
    let created := if dc.created = 0 then now else dc.created
    { dc with created, updated := created, lastContact := created }
  | update dc now => { dc with updated := now }

/-- The item that the call puts; none is a panic. -/
def put (op : Op) : Option Item := goMaptoAwsAttributeMap op.record.toMap

end Op

/-- A contact that is new is inserted as the SQL handler inserts it. -/
theorem Op.record_new (key : ContactKey) (now : Int64) :
    (Op.insert (.ofRow true (Contact.newDeviceContact key)) now).record =
      .ofRow true ((Contact.newDeviceContact key).preInsert now.toInt) := by
  have hnow : Int64.ofInt now.toInt = now := Int64.ofInt_toInt now
  simp only [record, DeviceContact.ofRow, Contact.newDeviceContact,
    Contact.DeviceContact.preInsert, hnow]
  rfl

/-- The record last written for these ids. -/
def lastWritten (ops : List Op) (userId clientContext deviceId : GoString) :
    Option DeviceContact :=
  (ops.map Op.record).reverse.find? fun dc =>
    dc.userId = userId ∧ dc.clientContext = clientContext ∧ dc.deviceId = deviceId

/-- After these calls the handler returns the record last written for the ids, with its handler
set, and none if none was written. -/
def Agrees (d : DynamoDb) (ops : List Op) (userId clientContext deviceId : GoString) : Prop :=
  ∃ puts, ops.mapM Op.put = some puts ∧
    deviceContactGet (d.contact puts) userId clientContext deviceId =
      .ok ((lastWritten ops userId clientContext deviceId).map fun dc => { dc with db := true })

/-! ## What the handler returns -/

/-- A record is returned always, and its handler is not set. -/
theorem DynamoDb.contact_ok {d : DynamoDb} (h : d.contact puts keys = .ok r) :
    ∃ dc, r = some dc ∧ dc.db = false := by
  unfold contact at h
  split at h
  next => cases h
  next dcMap _ =>
    cases h
    refine ⟨_, rfl, ?_⟩
    rw [fromDeviceInfoMap_eq]

/-- Whatever the service answers, what the handler returns is never as the record was written. -/
theorem never_agrees (d : DynamoDb) (ops : List Op) (userId clientContext deviceId : GoString) :
    ¬Agrees d ops userId clientContext deviceId := by
  rintro ⟨puts, -, h⟩
  obtain ⟨dc, hdc, hdb⟩ := DynamoDb.contact_ok h
  obtain ⟨written, -, hwritten⟩ := Option.map_eq_some_iff.mp hdc
  rw [← hwritten] at hdb
  cases hdb

/-- The item has all the attributes of the key. -/
def Under (key item : Item) : Bool := key.entries.all fun entry =>
  item.lookup entry.1 == some entry.2

/-- The service returns the item last put under a key, and an empty item when there is none. -/
def Faithful (d : DynamoDb) : Prop :=
  ∀ puts key, d.getItem puts key = (puts.reverse.find? (Under key)).getD ∅

/-- Every call puts an item, and none has an attribute of the name that the lookup asks for. -/
theorem Op.put_some (op : Op) :
    ∃ item, op.put = some item ∧ item.lookup (lit "user_id") = none := by
  obtain ⟨item, hitem, hlookup⟩ := convert_some (f := goTypeToAttributeValue)
    (m := op.record.toMap) fun key value hv => isSome_goType (storable_toMap _ key value hv)
  refine ⟨item, hitem, ?_⟩
  rw [hlookup]
  simp (disch := decide) only [DeviceContact.toMap, AList.lookup_insert_ne, AList.lookup_empty]
  rfl

theorem mapM_put (ops : List Op) : ∃ puts, ops.mapM Op.put = some puts ∧
    ∀ item ∈ puts, item.lookup (lit "user_id") = none := by
  induction ops with
  | nil => exact ⟨[], rfl, fun item h => nomatch h⟩
  | cons op ops ih =>
    obtain ⟨item, hitem, hlookup⟩ := op.put_some
    obtain ⟨puts, hputs, hall⟩ := ih
    refine ⟨item :: puts, by rw [List.mapM_cons, hitem, hputs]; rfl, fun item' h => ?_⟩
    rcases List.mem_cons.mp h with rfl | h
    · exact hlookup
    · exact hall item' h

/-- An item without an attribute of the key is not under it. -/
theorem under_of_missing {key item : Item} (hkey : key.lookup name = some a)
    (hitem : item.lookup name = none) : Under key item = false := by
  refine List.all_eq_false.mpr ⟨⟨name, a⟩, AList.mem_lookup_iff.mp hkey, ?_⟩
  rw [hitem]
  exact Bool.false_ne_true

/-- With a faithful service a record of zeros is returned, whatever was written. -/
theorem deviceContactGet_zero {d : DynamoDb} (hd : Faithful d) {ops : List Op}
    (hputs : ops.mapM Op.put = some puts) (userId clientContext deviceId : GoString) :
    deviceContactGet (d.contact puts) userId clientContext deviceId = .ok (some {}) := by
  obtain ⟨puts', hputs', hmissing⟩ := mapM_put ops
  cases hputs.symm.trans hputs'
  -- the key has the attribute that no item has
  obtain ⟨key, hkey, huser⟩ : ∃ key : Item, keyItem
      [⟨lit "user_id", .string userId, .eq⟩, ⟨lit "client_context", .string clientContext, .eq⟩,
        ⟨lit "device_id", .string deviceId, .eq⟩] ∅ = .ok key ∧
      key.lookup (lit "user_id") = some { S := some userId } := by
    refine ⟨_, rfl, ?_⟩
    simp (disch := decide) only [AList.lookup_insert, AList.lookup_insert_ne]
  have hnone : puts.reverse.find? (Under key) = none := by
    refine List.find?_eq_none.mpr fun item hitem => ?_
    rw [under_of_missing huser (hmissing item (List.mem_reverse.mp hitem))]
    decide
  have hget : d.getItem puts key = ∅ := by rw [hd, hnone, Option.getD_none]
  unfold deviceContactGet DynamoDb.contact DynamoDb.get
  rw [hkey]
  dsimp only
  rw [hget]
  rfl

/-- A service that holds what was put. -/
def lastItem : DynamoDb where
  getItem puts key := (puts.reverse.find? (Under key)).getD ∅

def newContact : DeviceContact where
  userId := lit "u"
  clientContext := lit "c"
  deviceId := lit "NCHO"

theorem written_contact_lost : Faithful lastItem ∧
    ¬Agrees lastItem [.insert newContact 5] (lit "u") (lit "c") (lit "NCHO") := by
  refine ⟨fun _ _ => rfl, ?_⟩
  rintro ⟨puts, hputs, h⟩
  rw [deviceContactGet_zero (fun _ _ => rfl) hputs] at h
  have hwritten : lastWritten [.insert newContact 5] (lit "u") (lit "c") (lit "NCHO") =
      some (Op.insert newContact 5).record := by decide +kernel
  rw [hwritten] at h
  exact absurd (congrArg DeviceContact.db (Option.some.inj (Except.ok.inj h))) Bool.false_ne_true

end Pinger.Dynamo
