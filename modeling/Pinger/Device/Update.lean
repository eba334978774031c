import Pinger.Device.Endpoint

/-! # Bringing a device up to date

`updateDeviceInfo` compares a copy of a row with the six values of a request, resets what depends on
a value that has changed, and writes the copy when something was new. On a copy that agrees with
its row, the row has the six values afterwards, and a second call finds nothing to do. -/

namespace Pinger

open Endpoint (Update World)

/-- `updateDeviceInfo` on the table: what it returns, and the copy and the table afterwards. None is
the panic of a write that fails, and `dbErr` such a failure of the database. -/
def DeviceRecord.updateStored (host : HostId) (dbErr : Bool) (u : Update) (r : DeviceRecord)
    (t : DeviceTable) : Option Bool × DeviceRecord × DeviceTable :=
  let (r', changed) := r.updateDeviceInfo u.pushService u.pushToken u.platform u.osVersion
    u.appBuildVersion u.appBuildNumber
  if changed then
    match r'.update host t with
    | (r'', some t') => if dbErr then (none, r'.claim host, t) else (some true, r'', t')
    | (r'', none) => (none, r'', t)
  else (some false, r', t)

/-- The operation on a slot is this one, on the copy in the slot. -/
theorem Endpoint.updateDeviceInfo_eq_updateStored (host : HostId) (w : World) (i : Nat)
    (r : DeviceRecord) (u : Update) (dbErr : Bool) :
    Endpoint.updateDeviceInfo host w i r u dbErr =
      { w.setCopy i (r.updateStored host dbErr u w.rows).2.1 with
        rows := (r.updateStored host dbErr u w.rows).2.2 } := by
  simp only [Endpoint.updateDeviceInfo, DeviceRecord.updateStored]
  generalize r.updateDeviceInfo u.pushService u.pushToken u.platform u.osVersion
    u.appBuildVersion u.appBuildNumber = up
  obtain ⟨r', changed⟩ := up
  cases changed with
  | false => rfl
  | true =>
    rcases hu : r'.update host w.rows with ⟨r'', _ | t'⟩
    · simp only [if_true, World.update, hu]
      rfl
    · simp only [if_true, World.update, hu]
      cases dbErr <;> rfl

namespace DeviceInfo

/-- The device has the values of the request. -/
def Has (di : DeviceInfo) (u : Update) : Prop :=
  di.pushService = u.pushService ∧ di.pushToken = u.pushToken ∧ di.platform = u.platform ∧
    di.osVersion = u.osVersion ∧ di.appBuildVersion = u.appBuildVersion ∧
    di.appBuildNumber = u.appBuildNumber

instance (di : DeviceInfo) (u : Update) : Decidable (di.Has u) :=
  inferInstanceAs (Decidable (_ ∧ _))

/-- The endpoint still belongs to the platform, the service and the token of the request. -/
def KeepsEndpoint (di : DeviceInfo) (u : Update) : Prop :=
  di.platform = u.platform ∧ di.pushService = u.pushService ∧ di.pushToken = u.pushToken

instance (di : DeviceInfo) (u : Update) : Decidable (di.KeepsEndpoint u) :=
  inferInstanceAs (Decidable (_ ∧ _))

/-- The device with the values of the request. -/
def updated (di : DeviceInfo) (u : Update) : DeviceInfo :=
  (di.updateDeviceInfo u.pushService u.pushToken u.platform u.osVersion u.appBuildVersion
    u.appBuildNumber).1

/-- The flag of `updateDeviceInfo`. -/
def changes (di : DeviceInfo) (u : Update) : Bool :=
  (di.updateDeviceInfo u.pushService u.pushToken u.platform u.osVersion u.appBuildVersion
    u.appBuildNumber).2

variable {di : DeviceInfo} {u : Update}

theorem updated_has (di : DeviceInfo) (u : Update) : (di.updated u).Has u := by
  rw [updated, updateDeviceInfo_eq]
  exact ⟨rfl, rfl, rfl, rfl, rfl, rfl⟩

theorem updated_arn (di : DeviceInfo) (u : Update) :
    (di.updated u).awsEndpointArn = if di.KeepsEndpoint u then di.awsEndpointArn else [] := by
  rw [updated, updateDeviceInfo_eq]
  rfl

@[simp] theorem updated_key (di : DeviceInfo) (u : Update) : (di.updated u).key = di.key :=
  updateDeviceInfo_key ..

theorem changes_iff : di.changes u = true ↔ ¬di.Has u := by
  rw [changes, updateDeviceInfo_changed_iff, Has]
  tauto

theorem updated_of_has (h : di.Has u) : di.updated u = di := by
  apply updateDeviceInfo_unchanged
  exact Bool.eq_false_iff.mpr fun hc => changes_iff.mp hc h

end DeviceInfo

namespace DeviceRecord

variable {host : HostId} {dbErr : Bool} {u : Update} {r r' : DeviceRecord} {t t' : DeviceTable}

theorem updateStored_eq : r.updateStored host dbErr u t =
    let r' := { r with info := r.info.updated u }
    if r.info.changes u then
      match r'.update host t with
      | (r'', some t') => if dbErr then (none, r'.claim host, t) else (some true, r'', t')
      | (r'', none) => (none, r'', t)
    else (some false, r', t) := rfl

/-- A device that has the values of the request is not written. -/
theorem updateStored_of_has (h : r.info.Has u) : r.updateStored host dbErr u t = (some false, r, t) := by
  rw [updateStored_eq]
  dsimp only
  rw [if_neg fun hc => DeviceInfo.changes_iff.mp hc h, DeviceInfo.updated_of_has h]

/-- Any other device is written with the values, or the call panics. -/
theorem updateStored_of_not_has (h : ¬r.info.Has u)
    (hs : r.updateStored host dbErr u t = (some changed, r', t')) :
    changed = true ∧ r'.info = r.info.updated u ∧ t' = t.put r.info.key r' := by
  rw [updateStored_eq] at hs
  dsimp only at hs
  rw [if_pos (DeviceInfo.changes_iff.mpr h)] at hs
  split at hs
  next r'' t'' hu =>
    split at hs
    · cases hs
    · cases hs
      obtain ⟨hinfo, hput⟩ := update_cases hu
      have htable := (hput t' rfl).2
      rw [DeviceInfo.updated_key] at htable
      exact ⟨rfl, hinfo, htable⟩
  · cases hs

end DeviceRecord

open DeviceRecord in
/-- A call on a copy that agrees with its row, when it returns: the copy has the six values, its row
agrees with it and no other row has changed; the flag says whether one of the values was new, the
endpoint is kept only with its platform, service and token; and the same call again returns false
and leaves the copy and the table as they are. -/
theorem updateDeviceInfo_stored (host : HostId) (dbErr : Bool) (u : Update) {r r' : DeviceRecord}
    {t t' : DeviceTable} {changed : Bool} (hagree : t r.info.key = some r)
    (h : r.updateStored host dbErr u t = (some changed, r', t')) :
    r'.info.Has u ∧ t' r'.info.key = some r' ∧ r'.info.key = r.info.key ∧
    (∀ k, k ≠ r.info.key → t' k = t k) ∧ (changed = true ↔ ¬r.info.Has u) ∧
    r'.info.awsEndpointArn = (if r.info.KeepsEndpoint u then r.info.awsEndpointArn else []) ∧
    ∀ dbErr', r'.updateStored host dbErr' u t' = (some false, r', t') := by
  by_cases hhas : r.info.Has u
  · rw [updateStored_of_has hhas] at h
    cases h
    refine ⟨hhas, hagree, rfl, fun _ _ => rfl, iff_of_false Bool.false_ne_true (not_not.mpr hhas), ?_,
      fun _ => updateStored_of_has hhas⟩
    rw [← DeviceInfo.updated_arn, DeviceInfo.updated_of_has hhas]
  · obtain ⟨rfl, hinfo, rfl⟩ := updateStored_of_not_has hhas h
    have hhas' : r'.info.Has u := hinfo ▸ DeviceInfo.updated_has r.info u
    have hkey : r'.info.key = r.info.key := by rw [hinfo, DeviceInfo.updated_key]
    refine ⟨hhas', ?_, hkey, fun k hk => Table.put_of_ne hk r', iff_of_true rfl hhas, ?_,
      fun _ => updateStored_of_has hhas'⟩
    · rw [hkey, Table.put_self]
    · rw [hinfo, DeviceInfo.updated_arn]

/-- An iPad whose token has changed. -/
def renewedToken : Update where
  pushService := pushServiceAPNS
  pushToken := GoString.lit "BEEF"
  platform := GoString.lit "ios"
  osVersion := GoString.lit "8.1"
  appBuildVersion := []
  appBuildNumber := GoString.lit "209"

def registeredDevice : DeviceRecord where
  info :=
    { userId := GoString.lit "us-east-1:1"
      clientContext := GoString.lit "5"
      deviceId := GoString.lit "Ncho1"
      sessionId := GoString.lit "0f4a"
      platform := GoString.lit "ios"
      pushToken := GoString.lit "CAFE"
      pushService := pushServiceAPNS
      osVersion := GoString.lit "8.1"
      appBuildNumber := GoString.lit "209"
      awsEndpointArn := GoString.lit "arn:aws:sns:1" }
  id := 1
  pinger := GoString.lit "pinger-1"

theorem updateDeviceInfo_stored_token :
    ∃ r' t', registeredDevice.updateStored (GoString.lit "pinger-1") false renewedToken
        (Table.put (fun _ => none) registeredDevice.info.key registeredDevice) =
          (some true, r', t') ∧
      r'.info.Has renewedToken ∧ r'.info.awsEndpointArn = [] := by
  have hagree := Table.put_self (fun _ => none) registeredDevice.info.key registeredDevice
  refine ⟨_, _, rfl, ?_⟩
  obtain ⟨hhas, -, -, -, -, harn, -⟩ :=
    updateDeviceInfo_stored (GoString.lit "pinger-1") false renewedToken hagree rfl
  exact ⟨hhas, harn⟩

end Pinger
