import Mathlib.Tactic.Tauto
import Pinger.Lib.Bytes

/-! # Devices

A `DeviceInfo` is the row of a device: whose it is, and how to push to it. -/

namespace Pinger

/-- The fields of a device that the model reads. -/
structure DeviceInfo where
  userId : GoString := []
  clientContext : GoString := []
  deviceId : GoString := []
  sessionId : GoString := []
  platform : GoString := []
  pushToken : GoString := []
  pushService : GoString := []
  osVersion : GoString := []
  appBuildVersion : GoString := []
  appBuildNumber : GoString := []
  awsEndpointArn : GoString := []
  deriving DecidableEq, Repr

namespace DeviceInfo

inductive InfoError
  | userIdEmpty
  | clientContextEmpty
  | deviceIdEmpty
  | pushServiceEmpty
  | pushServiceUnknown (service : GoString)
  | platformEmpty
  | platformUnknown (platform : GoString)
  deriving DecidableEq, Repr

/-- The patterns `(APNS|GCM)` and `(ios|android)` are not anchored: a match anywhere will do. -/
def validate (di : DeviceInfo) : Except InfoError Unit :=
  if di.userId = [] then .error .userIdEmpty
  else if di.clientContext = [] then .error .clientContextEmpty
  else if di.deviceId = [] then .error .deviceIdEmpty
  else if di.pushService = [] then .error .pushServiceEmpty
  else if !(GoString.contains (GoString.lit "APNS") di.pushService ||
      GoString.contains (GoString.lit "GCM") di.pushService) then
    .error (.pushServiceUnknown di.pushService)
  else if di.platform = [] then .error .platformEmpty
  else if !(GoString.contains (GoString.lit "ios") di.platform ||
      GoString.contains (GoString.lit "android") di.platform) then
    .error (.platformUnknown di.platform)
  else .ok ()

/-- `updateDeviceInfo`: the device with the six values, and whether one of them is new. A new
platform resets the push service, a new service the token, and a new token the endpoint. -/
def updateDeviceInfo (di : DeviceInfo)
    (pushService pushToken platform osVersion appBuildVersion appBuildNumber : GoString) :
    DeviceInfo × Bool :=
  let di₁ := { di with osVersion, appBuildVersion, appBuildNumber }
  let di₂ := if di₁.platform ≠ platform then
    { di₁ with platform, pushService := [], pushToken := [], awsEndpointArn := [] } else di₁
  let di₃ := if di₂.pushService ≠ pushService then
    { di₂ with pushService, pushToken := [], awsEndpointArn := [] } else di₂
  let di₄ := if di₃.pushToken ≠ pushToken then
    { di₃ with pushToken, awsEndpointArn := [] } else di₃
  (di₄, di.osVersion ≠ osVersion || di.appBuildVersion ≠ appBuildVersion ||
    di.appBuildNumber ≠ appBuildNumber || di.platform ≠ platform ||
    di₂.pushService ≠ pushService || di₃.pushToken ≠ pushToken)

section
variable (di : DeviceInfo) (service token plat os version number : GoString)

/-- The device as it is with the six values and with an endpoint that depends on three of them. -/
theorem updateDeviceInfo_eq : (di.updateDeviceInfo service token plat os version number).1 =
    { di with
      pushService := service
      pushToken := token
      platform := plat
      osVersion := os
      appBuildVersion := version
      appBuildNumber := number
      awsEndpointArn := if di.platform = plat ∧ di.pushService = service ∧ di.pushToken = token then
        di.awsEndpointArn else [] } := by
  by_cases hp : di.platform = plat
  · by_cases hs : di.pushService = service
    · by_cases ht : di.pushToken = token
      · simp [updateDeviceInfo, hp, hs, ht]
      · simp [updateDeviceInfo, hp, hs, ht]
    · simp only [updateDeviceInfo, hp, hs]
      split_ifs <;> simp_all
  · simp only [updateDeviceInfo, hp]
    split_ifs <;> simp_all

/-- The device keeps its key and takes the values. -/
theorem updateDeviceInfo_fields :
    let di' := (di.updateDeviceInfo service token plat os version number).1
    di'.userId = di.userId ∧ di'.clientContext = di.clientContext ∧ di'.deviceId = di.deviceId ∧
      di'.pushService = service ∧ di'.pushToken = token ∧ di'.platform = plat := by
  rw [updateDeviceInfo_eq]
  exact ⟨rfl, rfl, rfl, rfl, rfl, rfl⟩

/-- The flag: one of the six values is new. A reset to the empty text before a comparison never
hides a change, because what was reset has been flagged. -/
theorem updateDeviceInfo_changed_iff :
    (di.updateDeviceInfo service token plat os version number).2 = true ↔
      di.pushService ≠ service ∨ di.pushToken ≠ token ∨ di.platform ≠ plat ∨
        di.osVersion ≠ os ∨ di.appBuildVersion ≠ version ∨ di.appBuildNumber ≠ number := by
  by_cases hp : di.platform = plat
  · by_cases hs : di.pushService = service
    · simp [updateDeviceInfo, hp, hs]
      tauto
    · simp [updateDeviceInfo, hp, hs]
  · simp [updateDeviceInfo, hp]

/-- A device that has the six values stays as it is. -/
theorem updateDeviceInfo_unchanged
    (h : (di.updateDeviceInfo service token plat os version number).2 = false) :
    (di.updateDeviceInfo service token plat os version number).1 = di := by
  have hne := mt (updateDeviceInfo_changed_iff ..).mpr (Bool.eq_false_iff.mp h)
  simp only [not_or, not_not] at hne
  obtain ⟨rfl, rfl, rfl, rfl, rfl, rfl⟩ := hne
  rw [updateDeviceInfo_eq, if_pos ⟨rfl, rfl, rfl⟩]

end

end DeviceInfo

/-! ## Push tokens -/

def pushServiceAPNS : GoString := GoString.lit "APNS"

inductive TokenError
  | corruptBase64
  | wrongLength
  | unknownFormat (token : GoString)
  deriving DecidableEq, Repr

/-- A token of 64 characters is taken for hexadecimal, any other one for base 64. -/
def decodeAPNSPushToken (token : GoString) : Except TokenError GoString :=
  if token.length = 64 then
    if GoString.isHex token then .ok (GoString.toUpper token) else .error (.unknownFormat token)
  else
    match GoString.base64Decode token with
    | none => .error .corruptBase64
    | some bytes =>
      if (GoString.hexEncode bytes).length ≠ 64 then .error .wrongLength
      else .ok (GoString.toUpper (GoString.hexEncode bytes))

inductive RegisterError
  | token (e : TokenError)
  | tokenLength (token : GoString)
  | unsupportedService (service token : GoString)
  deriving DecidableEq, Repr

/-- The switch of `registerAws` for a device that has no endpoint yet: the token to register. -/
def DeviceInfo.registerAwsToken (di : DeviceInfo) : Except RegisterError GoString :=
  if di.pushService = pushServiceAPNS then
    match decodeAPNSPushToken di.pushToken with
    | .error e => .error (.token e)
    | .ok pushToken =>
      if pushToken.length ≠ 64 then .error (.tokenLength pushToken) else .ok pushToken
  else .error (.unsupportedService di.pushService di.pushToken)

/-- The major version of an OS version, 0 when it is not a number. -/
def getMajorVersion (osVersion : GoString) : Int :=
  match GoString.split '.' osVersion with
  | [] => 0
  | major :: _ => (GoString.atoi major).getD 0

end Pinger
