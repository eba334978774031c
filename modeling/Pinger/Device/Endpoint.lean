import Pinger.Device.Store
import Pinger.Lib.Run

/-! # Endpoints and tokens

Any number of copies of device rows are made, changed, registered with AWS and written back. An
endpoint belongs to a push service and a token: a copy or a row has no endpoint, or one that AWS has
returned for the service and the token it has now. A new value for a field that the endpoint
depends on resets it before anything else can be written. -/

namespace Pinger.Endpoint

open Transition

/-- The table, the copies in memory that have not been cleaned up, and the calls of
`RegisterEndpointArn` so far. -/
structure World where
  rows : DeviceTable := fun _ => none
  copies : Table Nat DeviceRecord := fun _ => none
  ncopies : Nat := 0
  calls : List Registration := []

/-- The arguments of `updateDeviceInfo`. -/
structure Update where
  pushService : GoString
  pushToken : GoString
  platform : GoString
  osVersion : GoString
  appBuildVersion : GoString
  appBuildNumber : GoString
  deriving DecidableEq, Repr

/-- An operation on one copy. `dbErr` is an error of the database at the write of the operation. -/
inductive Act
  | newDeviceInfo (di : DeviceInfo) (dbErr : Bool)
  | getDeviceInfo (key : DeviceKey) (dbErr : Bool)
  | updateDeviceInfo (i : Nat) (u : Update) (dbErr : Bool)
  | registerAws (i : Nat) (ans : AwsAnswers) (dbErr : Bool)
  | cleanup (i : Nat) (dbErr : Bool)

namespace World

def addCopy (w : World) (r : DeviceRecord) : World :=
  { w with copies := w.copies.put w.ncopies r, ncopies := w.ncopies + 1 }

def setCopy (w : World) (i : Nat) (r : DeviceRecord) : World :=
  { w with copies := w.copies.put i r }

/-- `di.update()` of a copy that is in slot `i`. A write that fails panics and leaves the copy as it
is in memory. -/
def update (w : World) (host : HostId) (i : Nat) (r : DeviceRecord) (dbErr : Bool) : World :=
  match r.update host w.rows with
  | (r', some rows) => if dbErr then w.setCopy i (r.claim host) else { w.setCopy i r' with rows := rows }
  | (r', none) => w.setCopy i r'

end World

section
variable (host : HostId) (customerData : DeviceInfo → GoString) (w : World)

/-- `newDeviceInfo` makes a device without an endpoint. It panics without a session id, and a device
that is not valid, or that the database does not take, is dropped. -/
def newDeviceInfo (di : DeviceInfo) (dbErr : Bool) : Option World :=
  let di := { di with awsEndpointArn := [] }
  if di.sessionId = [] ∨ di.validate.toBool = false then none
  else
    match DeviceRecord.insert host w.rows { info := di } with
    | (r, some rows) => if dbErr then none else some ({ w with rows := rows }.addCopy r)
    | (_, none) => none

/-- `getDeviceInfo` takes a copy of a row. The row of another pinger is taken over. -/
def getDeviceInfo (key : DeviceKey) (dbErr : Bool) : Option World :=
  (w.rows key).map fun r =>
    let w' := w.addCopy r
    if r.pinger ≠ host then w'.update host w.ncopies { r with pinger := host } dbErr else w'

def updateDeviceInfo (i : Nat) (r : DeviceRecord) (u : Update) (dbErr : Bool) : World :=
  let (r', changed) := r.updateDeviceInfo u.pushService u.pushToken u.platform u.osVersion
    u.appBuildVersion u.appBuildNumber
  if changed then w.update host i r' dbErr else w.setCopy i r'

def registerAws (i : Nat) (r : DeviceRecord) (ans : AwsAnswers) (dbErr : Bool) : World :=
  let (di, reg, out) := r.info.registerAws (customerData r.info) ans
  let w' := { w with calls := w.calls ++ reg.toList }.setCopy i { r with info := di }
  match out with
  | .done true => w'.update host i { r with info := di } dbErr
  | _ => w'

/-- `cleanup` deletes the row of the copy, if it still has its version, and clears the copy. -/
def cleanup (i : Nat) (r : DeviceRecord) (dbErr : Bool) : World :=
  let w' := { w with copies := w.copies.delete i }
  if dbErr = false ∧ (w.rows r.info.key).map DeviceRecord.id = some r.id then
    { w' with rows := w.rows.delete r.info.key }
  else w'

def step : Act → Option World
  | .newDeviceInfo di dbErr => newDeviceInfo host w di dbErr
  | .getDeviceInfo key dbErr => getDeviceInfo host w key dbErr
  | .updateDeviceInfo i u dbErr => (w.copies i).map fun r => updateDeviceInfo host w i r u dbErr
  | .registerAws i ans dbErr =>
    (w.copies i).map fun r => registerAws host customerData w i r ans dbErr
  | .cleanup i dbErr => (w.copies i).map fun r => cleanup w i r dbErr

end

/-! ## Consistency -/

/-- The device has no endpoint, or one that AWS has returned for its service and its token. -/
def Consistent (calls : List Registration) (di : DeviceInfo) : Prop :=
  di.awsEndpointArn = [] ∨ ∃ reg ∈ calls, reg.service = di.pushService ∧
    decodeAPNSPushToken di.pushToken = .ok reg.token ∧ reg.arn = some di.awsEndpointArn

/-- The rows and the copies are consistent. -/
structure World.Consistent (w : World) : Prop where
  rows : w.rows.All fun r => Endpoint.Consistent w.calls r.info
  copies : w.copies.All fun r => Endpoint.Consistent w.calls r.info

variable {calls calls' : List Registration} {di : DeviceInfo} {w w' : World} {r : DeviceRecord}

theorem Consistent.mono (h : Consistent calls di) (hsub : calls ⊆ calls') : Consistent calls' di := by
  rcases h with h | ⟨reg, hmem, hreg⟩
  · exact .inl h
  · exact .inr ⟨reg, hsub hmem, hreg⟩

/-- An endpoint that `updateDeviceInfo` keeps is still for the service and the token. -/
theorem Consistent.updateDeviceInfo (h : Consistent calls di) (service token plat os version number) :
    Consistent calls (di.updateDeviceInfo service token plat os version number).1 := by
  simp only [DeviceInfo.updateDeviceInfo]
  split_ifs with h₁ h₂ h₃
  all_goals first | exact .inl rfl | exact h

/-- The token that `registerAws` registers is the decoding of the token of the device. -/
theorem decode_of_registerAwsToken (h : di.registerAwsToken = .ok token) :
    decodeAPNSPushToken di.pushToken = .ok token := by
  simp only [DeviceInfo.registerAwsToken] at h
  split at h
  next =>
    split at h
    next => cases h
    next hdecode =>
      split at h <;> cases h
      exact hdecode
  next => cases h

/-- `registerAws` takes the endpoint that AWS returns for the service and the token. -/
theorem Consistent.registerAws (h : Consistent calls di)
    (heq : di.registerAws data ans = (di', reg, out)) :
    Consistent (calls ++ reg.toList) di' := by
  simp only [DeviceInfo.registerAws] at heq
  split at heq
  next =>
    split at heq
    next =>
      cases heq
      exact h.mono (List.subset_append_left _ _)
    next pushToken htoken =>
      split at heq
      next =>
        cases heq
        exact h.mono (List.subset_append_left _ _)
      next hsome =>
        cases heq
        cases harn : Registration.arn ⟨di.pushService, pushToken, ans.register⟩ with
        | none => exact .inl rfl
        | some arn =>
          exact .inr ⟨_, List.mem_append_right _ List.mem_cons_self, rfl,
            decode_of_registerAwsToken htoken, harn⟩
  next =>
    cases heq
    exact h.mono (List.subset_append_left _ _)

/-! ## One step -/

namespace World.Consistent

theorem setCopy (h : w.Consistent) (hr : Endpoint.Consistent w.calls r.info) (i : Nat) :
    (w.setCopy i r).Consistent :=
  ⟨h.rows, h.copies.put hr⟩

theorem addCopy (h : w.Consistent) (hr : Endpoint.Consistent w.calls r.info) :
    (w.addCopy r).Consistent :=
  ⟨h.rows, h.copies.put hr⟩

theorem putRow (h : w.Consistent) (hr : Endpoint.Consistent w.calls r.info) (key : DeviceKey) :
    { w with rows := w.rows.put key r }.Consistent :=
  ⟨h.rows.put hr, h.copies⟩

theorem update (h : w.Consistent) (hr : Endpoint.Consistent w.calls r.info) (host : HostId) (i : Nat)
    (dbErr : Bool) : (w.update host i r dbErr).Consistent := by
  unfold World.update
  split
  next r' rows heq =>
    obtain ⟨hinfo, hrows⟩ := DeviceRecord.update_cases heq
    obtain ⟨-, rfl⟩ := hrows rows rfl
    have hr' : Endpoint.Consistent w.calls r'.info := hinfo ▸ hr
    split
    · exact h.setCopy (r := r.claim host) hr i
    · exact (h.setCopy hr' i).putRow hr' _
  next r' heq =>
    obtain ⟨hinfo, -⟩ := DeviceRecord.update_cases heq
    exact h.setCopy (hinfo ▸ hr) i

/-- More calls of `RegisterEndpointArn` do no harm. -/
theorem addCalls (h : w.Consistent) (more : List Registration) :
    { w with calls := w.calls ++ more }.Consistent :=
  ⟨h.rows.mono fun _ hr => hr.mono (List.subset_append_left _ _),
    h.copies.mono fun _ hr => hr.mono (List.subset_append_left _ _)⟩

theorem newDeviceInfo (h : w.Consistent) (hs : Endpoint.newDeviceInfo host w di dbErr = some w') :
    w'.Consistent := by
  simp only [Endpoint.newDeviceInfo] at hs
  split at hs
  next => cases hs
  next =>
    split at hs
    next r rows heq =>
      split at hs
      next => cases hs
      next =>
        cases hs
        obtain ⟨hinfo, hrows⟩ := DeviceRecord.insert_cases heq
        obtain ⟨-, rfl⟩ := hrows rows rfl
        have hr : Endpoint.Consistent w.calls r.info := .inl (hinfo ▸ rfl)
        exact (h.putRow hr _).addCopy hr
    next => cases hs

theorem getDeviceInfo (h : w.Consistent) (hs : Endpoint.getDeviceInfo host w key dbErr = some w') :
    w'.Consistent := by
  obtain ⟨r, hrow, rfl⟩ := Option.map_eq_some_iff.mp hs
  have hr := h.rows key r hrow
  have hadd := h.addCopy hr
  split
  · exact hadd.update (r := { r with pinger := host }) hr host w.ncopies dbErr
  · exact hadd

theorem updateDeviceInfo (h : w.Consistent) (hi : w.copies i = some r) (u : Update) (dbErr : Bool) :
    (Endpoint.updateDeviceInfo host w i r u dbErr).Consistent := by
  have hr := (h.copies i r hi).updateDeviceInfo u.pushService u.pushToken u.platform u.osVersion
    u.appBuildVersion u.appBuildNumber
  simp only [Endpoint.updateDeviceInfo]
  split
  · exact h.update hr host i dbErr
  · exact h.setCopy hr i

theorem registerAws (h : w.Consistent) (hi : w.copies i = some r) (ans : AwsAnswers) (dbErr : Bool) :
    (Endpoint.registerAws host customerData w i r ans dbErr).Consistent := by
  simp only [Endpoint.registerAws]
  generalize heq : r.info.registerAws (customerData r.info) ans = out
  obtain ⟨di, reg, out⟩ := out
  have hr : Endpoint.Consistent (w.calls ++ reg.toList) di := (h.copies i r hi).registerAws heq
  have hset := (h.addCalls reg.toList).setCopy (r := { r with info := di }) hr i
  dsimp only
  split
  · exact hset.update (r := { r with info := di }) hr host i dbErr
  · exact hset

theorem cleanup (h : w.Consistent) (i : Nat) (r : DeviceRecord) (dbErr : Bool) :
    (Endpoint.cleanup w i r dbErr).Consistent := by
  simp only [Endpoint.cleanup]
  split
  · exact ⟨h.rows.delete, h.copies.delete⟩
  · exact ⟨h.rows, h.copies.delete⟩

theorem step (h : w.Consistent) (hs : Endpoint.step host customerData w a = some w') :
    w'.Consistent := by
  cases a with
  | newDeviceInfo di dbErr => exact h.newDeviceInfo hs
  | getDeviceInfo key dbErr => exact h.getDeviceInfo hs
  | updateDeviceInfo i u dbErr =>
    obtain ⟨r, hi, rfl⟩ := Option.map_eq_some_iff.mp hs
    exact h.updateDeviceInfo hi u dbErr
  | registerAws i ans dbErr =>
    obtain ⟨r, hi, rfl⟩ := Option.map_eq_some_iff.mp hs
    exact h.registerAws hi ans dbErr
  | cleanup i dbErr =>
    obtain ⟨r, hi, rfl⟩ := Option.map_eq_some_iff.mp hs
    exact h.cleanup i r dbErr

end World.Consistent

/-! ## Whole runs -/

/-- In every run, a row or a copy has no endpoint, or one that AWS has returned for the service and
the token it has now. -/
theorem endpoint_consistent (h : Run (step host customerData) Free {} as w) :
    (∀ key r, w.rows key = some r → Consistent w.calls r.info) ∧
      ∀ i r, w.copies i = some r → Consistent w.calls r.info := by
  have hinv : w.Consistent := h.inv (fun hw _ hs => hw.step hs)
    ⟨fun _ _ hrow => (nomatch hrow), fun _ _ hcopy => (nomatch hcopy)⟩
  exact ⟨hinv.rows, hinv.copies⟩

/-- An iPhone with a token in hexadecimal. -/
def iphone : DeviceInfo where
  userId := GoString.lit "us-east-1a-1"
  clientContext := GoString.lit "ctx"
  deviceId := GoString.lit "NCHO1"
  sessionId := GoString.lit "5"
  platform := GoString.lit "ios"
  pushService := pushServiceAPNS
  pushToken := List.replicate 64 'a'

/-- AWS has the endpoint already, and it is disabled. -/
def existingEndpoint : AwsAnswers where
  register := .error (GoString.lit "Invalid: Endpoint arn:aws:sns:1 already exists with the token.")
  attributes := .ok (some [(GoString.lit "Enabled", GoString.lit "false")])

def newToken : Update where
  pushService := iphone.pushService
  pushToken := List.replicate 64 'b'
  platform := iphone.platform
  osVersion := []
  appBuildVersion := []
  appBuildNumber := []

/-- A device is registered; a second copy of its row gets a new token and is registered again. -/
def registerActs : List Act :=
  [.newDeviceInfo iphone false, .registerAws 0 existingEndpoint false,
    .getDeviceInfo iphone.key false,
    .updateDeviceInfo 1 newToken false,
    .registerAws 1 existingEndpoint false]

theorem endpoint_consistent_renewed :
    ∃ (w : World) (r : DeviceRecord),
      Run (step (GoString.lit "host") fun _ => []) Free {} registerActs w ∧
      w.copies 1 = some r ∧ r.info.awsEndpointArn = GoString.lit "arn:aws:sns:1" ∧
      Consistent w.calls r.info := by
  have h : Run (step (GoString.lit "host") fun _ => []) Free {} registerActs _ := Run.of_exec rfl
  exact ⟨_, _, h, rfl, rfl, (endpoint_consistent h).2 1 _ rfl⟩

end Pinger.Endpoint
