import Pinger.Device.Info
import Pinger.Lib.Table

/-! # The device tables

The SQL tables `device_info` and `device_contact`, and the functions that read and write them. The
rows have a version, the column `Id`: an update counts it up, and fails when the row does not have
the version of the copy that is written. A panic is an outcome of its own. The rows are without
their times; those of the contacts are in `Device.Contact`. -/

namespace Pinger

structure DeviceKey where
  userId : GoString
  clientContext : GoString
  deviceId : GoString
  sessionId : GoString
  deriving DecidableEq, Repr

structure ContactKey where
  userId : GoString
  clientContext : GoString
  deviceId : GoString
  deriving DecidableEq, Repr

def DeviceInfo.key (di : DeviceInfo) : DeviceKey :=
  ⟨di.userId, di.clientContext, di.deviceId, di.sessionId⟩

def DeviceInfo.contactKey (di : DeviceInfo) : ContactKey :=
  ⟨di.userId, di.clientContext, di.deviceId⟩

/-- A row of `device_info`, or a copy of it in memory. -/
structure DeviceRecord where
  info : DeviceInfo
  id : Nat := 0
  pinger : GoString := []
  deriving DecidableEq, Repr

/-- A row of `device_contact`. -/
structure DeviceContact where
  key : ContactKey
  id : Nat := 0
  deriving DecidableEq, Repr

abbrev DeviceTable := Table DeviceKey DeviceRecord
abbrev ContactTable := Table ContactKey DeviceContact

/-- What any call may do to the contacts: a row is inserted with its first version, or the row that
was read is written with the next one. -/
inductive ContactWrite (t : ContactTable) : ContactTable → Prop
  | insert (key : ContactKey) : t key = none → ContactWrite t (t.put key ⟨key, 1⟩)
  | update (dc : DeviceContact) : (t dc.key).map DeviceContact.id = some dc.id →
    ContactWrite t (t.put dc.key { dc with id := dc.id + 1 })

/-- `pingerHostId`. -/
abbrev HostId := GoString

namespace DeviceRecord

/-- `PreInsert` and `PreUpdate`, up to the validation. -/
def claim (host : HostId) (r : DeviceRecord) : DeviceRecord :=
  { r with pinger := if r.pinger = [] then host else r.pinger }

/-- The copy passes `validate` before it is written. -/
def valid (r : DeviceRecord) : Bool := r.info.validate.toBool

/-- `db.insert(di)`: the copy as it is afterwards and the table, which is `none` for an error. -/
def insert (host : HostId) (t : DeviceTable) (r : DeviceRecord) : DeviceRecord × Option DeviceTable :=
  let r := r.claim host
  if r.valid then
    let r := { r with id := r.id + 1 }
    (r, t.insert r.info.key r)
  else (r, none)

/-- `db.update(di)`. -/
def update (host : HostId) (t : DeviceTable) (r : DeviceRecord) : DeviceRecord × Option DeviceTable :=
  let r := r.claim host
  if r.valid then
    let r' := { r with id := r.id + 1 }
    match t.update DeviceRecord.id r.info.key r.id r' with
    | some t' => (r', some t')
    | none => (r, none)
  else (r, none)

/-- `updateDeviceInfo` up to the update. -/
def updateDeviceInfo (r : DeviceRecord)
    (pushService pushToken platform osVersion appBuildVersion appBuildNumber : GoString) :
    DeviceRecord × Bool :=
  let (di, changed) := r.info.updateDeviceInfo pushService pushToken platform osVersion
    appBuildVersion appBuildNumber
  ({ r with info := di }, changed)

@[simp] theorem claim_info (host : HostId) (r : DeviceRecord) : (r.claim host).info = r.info := rfl

@[simp] theorem claim_id (host : HostId) (r : DeviceRecord) : (r.claim host).id = r.id := rfl

variable {host : HostId} {t t' : DeviceTable} {r r' : DeviceRecord}

/-- What an insert can do. The device itself is not changed. -/
theorem insert_cases (h : insert host t r = (r', ot)) :
    r'.info = r.info ∧ ∀ t', ot = some t' → t r.info.key = none ∧ t' = t.put r.info.key r' := by
  simp only [insert] at h
  split at h
  next =>
    cases h
    exact ⟨rfl, fun t' ht => Table.insert_eq_some ht⟩
  next =>
    cases h
    exact ⟨rfl, fun _ ht => (nomatch ht)⟩

theorem valid_of_insert (h : insert host t r = (r', some t')) : r'.valid := by
  simp only [insert] at h
  split at h
  next hv =>
    obtain ⟨rfl, -⟩ := Prod.mk.inj h
    exact hv
  next => cases h

/-- What an update can do. -/
theorem update_cases (h : update host t r = (r', ot)) :
    r'.info = r.info ∧ ∀ t', ot = some t' →
      (∃ row, t r.info.key = some row ∧ row.id = r.id) ∧ t' = t.put r.info.key r' := by
  simp only [update] at h
  split at h
  next =>
    split at h
    next ht =>
      cases h
      refine ⟨rfl, fun t' ht' => ?_⟩
      cases ht'
      exact Table.update_eq_some ht
    next =>
      cases h
      exact ⟨rfl, fun _ ht => by cases ht⟩
  next =>
    cases h
    exact ⟨rfl, fun _ ht => by cases ht⟩

/-- A valid copy of the current version is written. -/
theorem update_of_current (hv : r.valid) (hrow : t r.info.key = some row) (hid : row.id = r.id) :
    update host t r = ({ r.claim host with id := r.id + 1 },
      some (t.put r.info.key { r.claim host with id := r.id + 1 })) := by
  have hv' : (r.claim host).valid := hv
  simp [update, hv', Table.update, hrow, hid]

end DeviceRecord

theorem DeviceInfo.updateDeviceInfo_key (di : DeviceInfo) (service token plat os version number) :
    (di.updateDeviceInfo service token plat os version number).1.key = di.key := by
  simp only [updateDeviceInfo]
  split_ifs <;> rfl

/-- Only the key, the service and the platform of a device are validated. -/
theorem DeviceInfo.validate_congr {di di' : DeviceInfo} (hu : di.userId = di'.userId)
    (hc : di.clientContext = di'.clientContext) (hd : di.deviceId = di'.deviceId)
    (hs : di.pushService = di'.pushService) (hp : di.platform = di'.platform) :
    di.validate = di'.validate := by
  simp only [validate, hu, hc, hd, hs, hp]

/-! ## Endpoints -/

/-- A match of `Endpoint (arn:aws:sns:[^ ]+) already exists.*$` at the start of the text. -/
def matchAlreadyRegisted (s : GoString) : Option GoString :=
  let pre := GoString.lit "Endpoint "
  let after := s.drop pre.length
  let arn := after.takeWhile (· ≠ ' ')
  let rest := after.dropWhile (· ≠ ' ')
  if GoString.hasPrefix s pre ∧ GoString.hasPrefix arn (GoString.lit "arn:aws:sns:") ∧
      12 < arn.length ∧ GoString.hasPrefix rest (GoString.lit " already exists") ∧ '\n' ∉ rest then
    some arn
  else none

/-- The `arn` of `alreadyRegisted` in the text of an error: the last match, with no line break
before it. -/
def alreadyRegisted : GoString → Option GoString
  | [] => none
  | c :: cs => (if c = '\n' then none else alreadyRegisted cs).or (matchAlreadyRegisted (c :: cs))

/-- A call of `RegisterEndpointArn` and its answer: an ARN, or the text of an error. -/
structure Registration where
  service : GoString
  token : GoString
  answer : Except GoString GoString

/-- The ARN that AWS has returned, directly or in the error of an endpoint that exists. -/
def Registration.arn (reg : Registration) : Option GoString :=
  match reg.answer with
  | .ok arn => some arn
  | .error text => alreadyRegisted text

/-- The attributes of an endpoint. -/
abbrev Attributes := List (GoString × GoString)

def Attributes.get (attrs : Attributes) (name : GoString) : GoString := (attrs.lookup name).getD []

def Attributes.set (attrs : Attributes) (name value : GoString) : Attributes :=
  (name, value) :: attrs.filter (·.1 ≠ name)

/-- What AWS answers to the calls of `registerAws`. -/
structure AwsAnswers where
  register : Except GoString GoString
  attributes : Except GoString (Option Attributes)
  setAttributes : Option GoString := none

inductive AwsError
  | register (e : RegisterError)
  | aws (text : GoString)
  deriving DecidableEq, Repr

/-- How `registerAws` goes on after its calls: with an update of the row or without, with an error,
or with a panic. -/
inductive RegisterEnd
  | done (needDiUpdate : Bool)
  | failed (e : AwsError)
  | panicked
  deriving DecidableEq, Repr

/-- The attributes `registerAws` wants an endpoint to have, when they are not the ones it has. -/
def wantedAttributes (customerData pushToken : GoString) (attrs : Attributes) : Option Attributes :=
  let enabled := attrs.get (GoString.lit "Enabled") ≠ GoString.lit "true"
  let attrs₁ := if enabled then attrs.set (GoString.lit "Enabled") (GoString.lit "true") else attrs
  let token := attrs₁.get (GoString.lit "Token") = [] ∨
    pushToken ≠ [] ∧ pushToken ≠ attrs₁.get (GoString.lit "Token")
  let attrs₂ := if token then attrs₁.set (GoString.lit "Token") pushToken else attrs₁
  let data := customerData ≠ attrs₂.get (GoString.lit "CustomUserData")
  let attrs₃ := if data then attrs₂.set (GoString.lit "CustomUserData") customerData else attrs₂
  if enabled ∨ token ∨ data then some attrs₃ else none

/-- `registerAws` from the fetching of the attributes on. -/
def fetchAttributes (customerData : GoString) (ans : AwsAnswers) (pushToken : GoString)
    (needDiUpdate : Bool) : RegisterEnd :=
  match ans.attributes with
  | .error text => .failed (.aws text)
  | .ok none => .panicked
  | .ok (some attrs) =>
    match wantedAttributes customerData pushToken attrs, ans.setAttributes with
    | some _, some text => .failed (.aws text)
    | _, _ => .done needDiUpdate

/-- `registerAws` up to its update: the device, the call of `RegisterEndpointArn` it made, and how
it goes on. -/
def DeviceInfo.registerAws (customerData : GoString) (ans : AwsAnswers) (di : DeviceInfo) :
    DeviceInfo × Option Registration × RegisterEnd :=
  if di.awsEndpointArn = [] then
    match di.registerAwsToken with
    | .error e => (di, none, .failed (.register e))
    | .ok pushToken =>
      let reg : Registration := ⟨di.pushService, pushToken, ans.register⟩
      match ans.register, reg.arn with
      | .error text, none => (di, some reg, .failed (.aws text))
      | _, arn =>
        ({ di with awsEndpointArn := arn.getD [] }, some reg,
          fetchAttributes customerData ans pushToken true)
  else (di, none, fetchAttributes customerData ans [] false)

/-- What `registerAws` can do up to its update. -/
inductive RegisterCase (data : GoString) (ans : AwsAnswers) (di : DeviceInfo) :
    DeviceInfo × Option Registration × RegisterEnd → Prop
  | known (hne : di.awsEndpointArn ≠ []) :
    RegisterCase data ans di (di, none, fetchAttributes data ans [] false)
  | badToken (hnil : di.awsEndpointArn = []) (htok : di.registerAwsToken = .error e) :
    RegisterCase data ans di (di, none, .failed (.register e))
  | refused (hnil : di.awsEndpointArn = []) (htok : di.registerAwsToken = .ok tok)
      (harn : Registration.arn ⟨di.pushService, tok, ans.register⟩ = none) :
    RegisterCase data ans di (di, some ⟨di.pushService, tok, ans.register⟩, .failed (.aws text))
  | registered (hnil : di.awsEndpointArn = []) (htok : di.registerAwsToken = .ok tok)
      (harn : Registration.arn ⟨di.pushService, tok, ans.register⟩ = some arn) :
    RegisterCase data ans di ({ di with awsEndpointArn := arn },
      some ⟨di.pushService, tok, ans.register⟩, fetchAttributes data ans tok true)

theorem DeviceInfo.registerAws_cases (data : GoString) (ans : AwsAnswers) (di : DeviceInfo) :
    RegisterCase data ans di (di.registerAws data ans) := by
  unfold registerAws
  split
  next hnil =>
    cases htok : di.registerAwsToken with
    | error e => exact .badToken hnil htok
    | ok tok =>
      dsimp only
      split
      next harn => exact .refused hnil htok harn
      next hno =>
        cases harn : Registration.arn ⟨di.pushService, tok, ans.register⟩ with
        | some arn => exact .registered hnil htok harn
        | none =>
          -- an answer without an error has its ARN
          cases hreg : ans.register with
          | ok arn => simp [Registration.arn, hreg] at harn
          | error text => exact absurd harn (hno text hreg)
  next hne => exact .known hne

/-- `registerAws` changes nothing of a device but its endpoint. -/
theorem DeviceInfo.registerAws_eq {di di' : DeviceInfo}
    (h : di.registerAws data ans = (di', reg, out)) :
    ∃ arn, di' = { di with awsEndpointArn := arn } := by
  have hcase := di.registerAws_cases data ans
  rw [h] at hcase
  cases hcase with
  | known | badToken | refused => exact ⟨di.awsEndpointArn, rfl⟩
  | registered => exact ⟨_, rfl⟩

theorem fetchAttributes_panicked (h : fetchAttributes data ans tok b = .panicked) :
    ans.attributes = .ok none := by
  unfold fetchAttributes at h
  split at h
  next => cases h
  next hattr => exact hattr
  next => split at h <;> cases h

/-- It panics only when AWS returns no attributes. -/
theorem DeviceInfo.registerAws_panicked {di di' : DeviceInfo}
    (h : di.registerAws data ans = (di', reg, .panicked)) : ans.attributes = .ok none := by
  have hcase := di.registerAws_cases data ans
  rw [h] at hcase
  generalize hout : RegisterEnd.panicked = out at hcase
  cases hcase with
  | known | registered => exact fetchAttributes_panicked hout.symm
  | badToken | refused => cases hout

end Pinger
