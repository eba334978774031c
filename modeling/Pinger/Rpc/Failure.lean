import Pinger.Device.Attributes
import Pinger.Rpc.Creation

/-! # A creation that fails

`NewMailClientContext` from its call to its return, with nothing else going on: what it returns and
what it leaves in the tables, for every content of the tables, every answer of AWS and every failure
of a database operation that it reports. The row of the device is written early and nothing takes
it back, so a creation that fails later leaves it behind. -/

namespace Pinger

/-- What `updateDeviceInfo` is called with. -/
def MailPingInformation.request (pi : MailPingInformation) : Endpoint.Update where
  pushService := pi.pushService
  pushToken := pi.pushToken
  platform := pi.platform
  osVersion := pi.osVersion
  appBuildVersion := pi.appBuildVersion
  appBuildNumber := pi.appBuildNumber

end Pinger

namespace Pinger.Create

inductive CreateError
  | cognito (text : GoString)
  | db (text : GoString)
  | info (e : DeviceInfo.InfoError)
  | register (e : AwsError)
  | unsupportedProtocol (protocol : GoString)
  deriving DecidableEq, Repr

/-- Why a function does not return a value. -/
inductive Stop
  | err (e : CreateError)
  | panicked
  deriving DecidableEq, Repr

structure Tables where
  devices : DeviceTable := fun _ => none
  contacts : ContactTable := fun _ => none

/-- What AWS answers, and the errors of the operations on the tables whose error is returned. -/
structure Outside where
  cognito : Option GoString := none
  getInfo : Option GoString := none
  insertInfo : Option GoString := none
  getContact : Option GoString := none
  aws : AwsAnswers

/-! ## The functions -/

section
variable (env : Env) (o : Outside) (pi : MailPingInformation)

/-- `di.update()`. -/
def updateRow (r : DeviceRecord) (t : Tables) : Except Stop DeviceRecord × Tables :=
  match r.update env.host t.devices with
  | (r', some devices) => (.ok r', { t with devices })
  | (_, none) => (.error .panicked, t)

def getDeviceInfo (t : Tables) : Except Stop (Option DeviceRecord) × Tables :=
  match o.getInfo, t.devices (deviceKey pi) with
  | some text, _ => (.error (.err (.db text)), t)
  | none, none => (.ok none, t)
  | none, some r =>
    if r.pinger ≠ env.host then
      let (r', t') := updateRow env { r with pinger := env.host } t
      (r'.map some, t')
    else (.ok (some r), t)

/-- A device that is not in the table. -/
def insertDeviceInfo (t : Tables) : Except Stop DeviceRecord × Tables :=
  if pi.sessionId = [] then (.error .panicked, t)
  else
    match (pi.deviceInfo none).validate, o.insertInfo with
    | .error e, _ => (.error (.err (.info e)), t)
    | .ok _, some text => (.error (.err (.db text)), t)
    | .ok _, none =>
      match ({ info := pi.deviceInfo none } : DeviceRecord).insert env.host t.devices with
      | (r, some devices) => (.ok r, { t with devices })
      | (_, none) => (.error (.err (.db [])), t)

/-- A device that is in the table. -/
def updateDeviceInfo (r : DeviceRecord) (t : Tables) : Except Stop DeviceRecord × Tables :=
  match r.updateStored env.host false pi.request t.devices with
  | (some _, r', devices) => (.ok r', { t with devices })
  | (none, _, _) => (.error .panicked, t)

/-- `getContactInfoObj(true)`. -/
def getContactInfoObj (r : DeviceRecord) (t : Tables) : Except Stop DeviceRecord × Tables :=
  match o.getContact, t.contacts r.info.contactKey with
  | some text, _ => (.error (.err (.db text)), t)
  | none, some _ => (.ok r, t)
  | none, none =>
    (.ok r, { t with contacts := t.contacts.put r.info.contactKey ⟨r.info.contactKey, 1⟩ })

/-- The row of the device, new or brought up to date. -/
def deviceRow (t : Tables) : Except Stop DeviceRecord × Tables :=
  match getDeviceInfo env o pi t with
  | (.error e, t) => (.error e, t)
  | (.ok none, t) => insertDeviceInfo env o pi t
  | (.ok (some r), t) => updateDeviceInfo env pi r t

/-- `pi.newDeviceInfo`. -/
def newDeviceInfo (t : Tables) : Except Stop DeviceRecord × Tables :=
  match deviceRow env o pi t with
  | (.error e, t) => (.error e, t)
  | (.ok r, t) => getContactInfoObj o r t

/-- `validateClient` up to the update of `registerAws`. -/
def checkClient (di : DeviceInfo) : DeviceInfo × RegisterEnd :=
  if Push.viaSns env.cfg di.pushService then
    match di.registerAws (env.customerData di) o.aws with
    | (di', _, .failed e) => (di', if env.ignorePushFailures then .done false else .failed e)
    | (di', _, out) => (di', out)
  else (di, .done false)

def validateClient (r : DeviceRecord) (t : Tables) : Except Stop DeviceRecord × Tables :=
  let r' := { r with info := (checkClient env o r.info).1 }
  match (checkClient env o r.info).2 with
  | .failed e => (.error (.err (.register e)), t)
  | .panicked => (.error .panicked, t)
  | .done true => updateRow env r' t
  | .done false => (.ok r', t)

/-- `updateLastContact`, whose error is not looked at. -/
def updateLastContact (r : DeviceRecord) (t : Tables) : Tables :=
  match t.contacts r.info.contactKey with
  | some dc => { t with contacts := t.contacts.put dc.key { dc with id := dc.id + 1 } }
  | none => t

def newMailClientContext (t : Tables) : Except Stop DeviceRecord × Tables :=
  match o.cognito with
  | some text => (.error (.err (.cognito text)), t)
  | none =>
    match newDeviceInfo env o pi t with
    | (.error e, t) => (.error e, t)
    | (.ok r, t) =>
      match validateClient env o r t with
      | (.error e, t) => (.error e, t)
      | (.ok r, t) =>
        if (Web.protocolSwitch pi.protocol).isNone then
          (.error (.err (.unsupportedProtocol pi.protocol)), t)
        else (.ok r, updateLastContact r t)

end

/-! ## Writes -/

/-- The row under `k` is newer. -/
def Ahead (k : DeviceKey) (t t' : DeviceTable) : Prop :=
  ∃ r', t' k = some r' ∧ ∀ r, t k = some r → r.id < r'.id

theorem Ahead.ne (h : Ahead k t t') : t' ≠ t := by
  rintro rfl
  obtain ⟨r, hr, hlt⟩ := h
  exact Nat.lt_irrefl _ (hlt r hr)

theorem Ahead.trans (h : Ahead k t t') (h' : Ahead k t' t'') : Ahead k t t'' := by
  obtain ⟨r', hr', hlt⟩ := h
  obtain ⟨r'', hr'', hlt'⟩ := h'
  exact ⟨r'', hr'', fun r hr => Nat.lt_trans (hlt r hr) (hlt' r' hr')⟩

/-- The copy has the version of its row. -/
def Current (t : DeviceTable) (r : DeviceRecord) : Prop :=
  ∃ row, t r.info.key = some row ∧ row.id = r.id

/-- The device row is there, it is this pinger's and it has the values of the registration. -/
def Kept (env : Env) (o : Outside) (pi : MailPingInformation) (t : Tables) (r : DeviceRecord) :
    Prop :=
  o.getInfo = none ∧ t.devices (deviceKey pi) = some r ∧ r.pinger = env.host ∧ r.info.Has pi.request

/-- The device row is inserted, or written because it was another pinger's or has other values. -/
def Writes (env : Env) (o : Outside) (pi : MailPingInformation) (t : Tables) : Prop :=
  o.getInfo = none ∧
    match t.devices (deviceKey pi) with
    | none => pi.sessionId ≠ [] ∧ (pi.deviceInfo none).validate = .ok () ∧ o.insertInfo = none
    | some r => (r.pinger ≠ env.host ∨ ¬r.info.Has pi.request) ∧ (r.pinger ≠ env.host → r.valid) ∧
      (r.info.updated pi.request).validate = .ok ()

/-- The device of the registration, with what the table holds of it. -/
def deviceOf (pi : MailPingInformation) (t : Tables) : DeviceInfo :=
  pi.deviceInfo ((t.devices (deviceKey pi)).map DeviceRecord.info)

/-- What can become of the device row. -/
inductive RowEnd (env : Env) (o : Outside) (pi : MailPingInformation) (t : Tables) :
    Except Stop DeviceRecord × Tables → Prop
  | stopped (hpanic : e = .panicked ∨ t' = t) (hwrites : ¬Writes env o pi t)
      (hkept : ∀ r, ¬Kept env o pi t r) : RowEnd env o pi t (.error e, t')
  | kept (hkept : Kept env o pi t r) : RowEnd env o pi t (.ok r, t)
  | wrote (hwrites : Writes env o pi t) (hinfo : r.info = deviceOf pi t) (hvalid : r.valid)
      (hcurrent : Current t'.devices r) (hahead : Ahead (deviceKey pi) t.devices t'.devices) :
    RowEnd env o pi t (.ok r, t')

variable {env : Env} {o : Outside} {pi : MailPingInformation} {t : Tables} {r : DeviceRecord}

theorem updateRow_valid (env : Env) (hv : r.valid) (hc : Current t.devices r) :
    ∃ r' devices, updateRow env r t = (.ok r', { t with devices }) ∧ r'.info = r.info ∧
      Current devices r' ∧ Ahead r.info.key t.devices devices := by
  obtain ⟨row, hrow, hid⟩ := hc
  have hup : r.update env.host t.devices = _ := DeviceRecord.update_of_current hv hrow hid
  refine ⟨{ r.claim env.host with id := r.id + 1 },
    t.devices.put r.info.key { r.claim env.host with id := r.id + 1 }, ?_, rfl,
    ⟨_, Table.put_self .., rfl⟩, ?_⟩
  · rw [updateRow, hup]
  · refine ⟨_, Table.put_self .., fun r' hr' => ?_⟩
    cases hrow.symm.trans hr'
    exact hid ▸ Nat.lt_succ_self _

theorem updateRow_invalid (hv : ¬r.valid) : updateRow env r t = (.error .panicked, t) := by
  have hv' : ¬(r.claim env.host).valid := hv
  rw [updateRow, DeviceRecord.update]
  simp only [if_neg hv']

theorem valid_iff_validate : r.valid ↔ r.info.validate = .ok () := by
  rw [DeviceRecord.valid]
  cases h : r.info.validate with
  | error e => simp [Except.toBool]
  | ok u => simp [Except.toBool]

/-- A device that is not in the table. -/
theorem insertDeviceInfo_cases (hnone : t.devices (deviceKey pi) = none) (hget : o.getInfo = none) :
    RowEnd env o pi t (insertDeviceInfo env o pi t) := by
  have hkept : ∀ r, ¬Kept env o pi t r := by
    rintro r ⟨-, hr, -⟩
    cases hnone.symm.trans hr
  have hwrites : Writes env o pi t ↔
      pi.sessionId ≠ [] ∧ (pi.deviceInfo none).validate = .ok () ∧ o.insertInfo = none := by
    rw [Writes, hnone, and_iff_right hget]
  unfold insertDeviceInfo
  split
  next hs => exact .stopped (.inr rfl) (fun hw => (hwrites.mp hw).1 hs) hkept
  next hs =>
  split
  next hv =>
    refine .stopped (.inr rfl) (fun hw => ?_) hkept
    cases hv.symm.trans (hwrites.mp hw).2.1
  next hi =>
    refine .stopped (.inr rfl) (fun hw => ?_) hkept
    cases hi.symm.trans (hwrites.mp hw).2.2
  next hv hi =>
    have hvalid : (DeviceRecord.claim env.host { info := pi.deviceInfo none }).valid :=
      valid_iff_validate.mpr hv
    have hins : Table.insert t.devices (pi.deviceInfo none).key = fun r =>
        some (t.devices.put (pi.deviceInfo none).key r) := by
      funext r
      have hnone' : t.devices (pi.deviceInfo none).key = none := hnone
      rw [Table.insert, hnone']
      rfl
    simp only [DeviceRecord.insert, if_pos hvalid, DeviceRecord.claim_info, hins]
    refine .wrote (hwrites.mpr ⟨hs, hv, hi⟩) ?_ (valid_iff_validate.mpr hv)
      ⟨_, Table.put_self .., rfl⟩ ⟨_, Table.put_self .., fun r hr => ?_⟩
    · rw [deviceOf, hnone]
      rfl
    · cases hnone.symm.trans hr

theorem updateDeviceInfo_eq : updateDeviceInfo env pi r t =
    if r.info.changes pi.request then updateRow env { r with info := r.info.updated pi.request } t
    else (.ok { r with info := r.info.updated pi.request }, t) := by
  rw [updateDeviceInfo, DeviceRecord.updateStored_eq]
  dsimp only
  by_cases hc : r.info.changes pi.request
  · rw [if_pos hc, if_pos hc, updateRow]
    rcases hu : DeviceRecord.update env.host t.devices { r with info := r.info.updated pi.request }
      with ⟨r', _ | t'⟩
    · rfl
    · rfl
  · rw [if_neg hc, if_neg hc]

theorem updateDeviceInfo_of_has (h : r.info.Has pi.request) :
    updateDeviceInfo env pi r t = (.ok r, t) := by
  rw [updateDeviceInfo_eq, if_neg fun hc => DeviceInfo.changes_iff.mp hc h,
    DeviceInfo.updated_of_has h]

/-- A device that is written. -/
theorem updateDeviceInfo_of_not_has (env : Env) (h : ¬r.info.Has pi.request) (hc : Current t.devices r) :
    if (r.info.updated pi.request).validate = .ok () then
      ∃ r' devices, updateDeviceInfo env pi r t = (.ok r', { t with devices }) ∧
        r'.info = r.info.updated pi.request ∧ Current devices r' ∧
        Ahead r.info.key t.devices devices
    else updateDeviceInfo env pi r t = (.error .panicked, t) := by
  have hcopy : Current t.devices { r with info := r.info.updated pi.request } := by
    obtain ⟨row, hrow, hid⟩ := hc
    exact ⟨row, (congrArg t.devices (DeviceInfo.updated_key ..)).trans hrow, hid⟩
  rw [updateDeviceInfo_eq, if_pos (DeviceInfo.changes_iff.mpr h)]
  split
  next hv =>
    have := updateRow_valid env (valid_iff_validate.mpr hv) hcopy
    simpa only [DeviceInfo.updated_key] using this
  next hv => exact updateRow_invalid (mt valid_iff_validate.mp hv)

/-- A device that is in the table, of this pinger or just taken over. -/
theorem updateDeviceInfo_cases (hget : o.getInfo = none) (hrow : t.devices (deviceKey pi) = some r)
    (hkey : r.info.key = deviceKey pi) (hinfo : r'.info = r.info) (hc : Current t'.devices r')
    (htaken : (r'= r ∧ t' = t ∧ r.pinger = env.host) ∨
      (r.pinger ≠ env.host ∧ r.valid ∧ Ahead (deviceKey pi) t.devices t'.devices)) :
    RowEnd env o pi t (updateDeviceInfo env pi r' t') := by
  have hdevice : deviceOf pi t = r.info.updated pi.request := by
    rw [deviceOf, hrow]
    rfl
  have hwrites : Writes env o pi t ↔ (r.pinger ≠ env.host ∨ ¬r.info.Has pi.request) ∧
      (r.pinger ≠ env.host → r.valid) ∧ (r.info.updated pi.request).validate = .ok () := by
    rw [Writes, hrow, and_iff_right hget]
  by_cases hhas : r.info.Has pi.request
  · have hup : updateDeviceInfo env pi r' t' = (.ok r', t') :=
      updateDeviceInfo_of_has (hinfo ▸ hhas)
    rw [hup]
    rcases htaken with ⟨rfl, rfl, hours⟩ | ⟨hother, hvalid, hahead⟩
    · exact .kept ⟨hget, hrow, hours, hhas⟩
    · have hsame := DeviceInfo.updated_of_has hhas
      refine .wrote (hwrites.mpr ⟨.inl hother, fun _ => hvalid, ?_⟩) ?_ ?_ hc hahead
      · rw [hsame]
        exact valid_iff_validate.mp hvalid
      · rw [hinfo, hdevice, hsame]
      · rw [valid_iff_validate, hinfo]
        exact valid_iff_validate.mp hvalid
  · have hspec := updateDeviceInfo_of_not_has env (hinfo ▸ hhas) hc
    rw [hinfo] at hspec
    split at hspec
    next hv =>
      obtain ⟨r'', devices, hup, hinfo', hcur, hahead⟩ := hspec
      rw [hup]
      rw [hkey] at hahead
      refine .wrote (hwrites.mpr ⟨.inr hhas, ?_, hv⟩) (hinfo'.trans hdevice.symm)
        (valid_iff_validate.mpr (hinfo'.symm ▸ hv)) hcur ?_
      · rcases htaken with ⟨-, -, hours⟩ | ⟨-, hvalid, -⟩
        · exact fun hother => absurd hours hother
        · exact fun _ => hvalid
      · rcases htaken with ⟨-, rfl, -⟩ | ⟨-, -, hahead'⟩
        · exact hahead
        · exact hahead'.trans hahead
    next hv =>
      rw [hspec]
      refine .stopped (.inl rfl) (fun hw => hv (hwrites.mp hw).2.2) ?_
      rintro r₁ ⟨-, hr₁, -, hhas₁⟩
      cases hrow.symm.trans hr₁
      exact hhas hhas₁

/-- The three things that become of the row. -/
theorem deviceRow_cases (env : Env) (o : Outside) (pi : MailPingInformation)
    (hkeyed : ∀ k r, t.devices k = some r → r.info.key = k) :
    RowEnd env o pi t (deviceRow env o pi t) := by
  rw [deviceRow, getDeviceInfo]
  cases hget : o.getInfo with
  | some text =>
    refine .stopped (.inr rfl) (fun hw => ?_) (fun r hk => ?_)
    · cases hget.symm.trans hw.1
    · cases hget.symm.trans hk.1
  | none =>
    cases hrow : t.devices (deviceKey pi) with
    | none => exact insertDeviceInfo_cases hrow hget
    | some r =>
      have hkey := hkeyed _ _ hrow
      by_cases hours : r.pinger = env.host
      · simp only [if_neg (not_not.mpr hours)]
        exact updateDeviceInfo_cases hget hrow hkey rfl ⟨r, hkey ▸ hrow, rfl⟩
          (.inl ⟨rfl, rfl, hours⟩)
      · simp only [if_pos hours]
        by_cases hvalid : r.valid
        · have hcurrent : Current t.devices { r with pinger := env.host } :=
            ⟨r, (congrArg t.devices hkey).trans hrow, rfl⟩
          obtain ⟨r', devices, hup, hinfo, hcur, hahead⟩ :=
            updateRow_valid env (r := { r with pinger := env.host }) hvalid hcurrent
          rw [hup]
          exact updateDeviceInfo_cases hget hrow hkey hinfo hcur (.inr ⟨hours, hvalid, hkey ▸ hahead⟩)
        · rw [updateRow_invalid (r := { r with pinger := env.host }) hvalid]
          refine .stopped (.inl rfl) (fun hw => ?_) (fun r' hk => ?_)
          · have hw' := hw.2
            simp only [hrow] at hw'
            exact hvalid (hw'.2.1 hours)
          · cases hrow.symm.trans hk.2.1
            exact hours hk.2.2.1

/-! ## After the row -/

/-- AWS is asked for an endpoint, and the error is not ignored. -/
def AwsRefuses (env : Env) (o : Outside) (di : DeviceInfo) : Prop :=
  Push.viaSns env.cfg di.pushService ∧ CallsFail (env.customerData di) o.aws di ∧
    env.ignorePushFailures = false

/-- AWS returns no attributes of the endpoint. -/
def AwsPanics (env : Env) (o : Outside) (di : DeviceInfo) : Prop :=
  Push.viaSns env.cfg di.pushService ∧ ¬CallsFail (env.customerData di) o.aws di ∧
    o.aws.attributes = .ok none

/-- AWS registers a device that had no ARN. -/
def AwsRegisters (env : Env) (o : Outside) (di : DeviceInfo) : Prop :=
  Push.viaSns env.cfg di.pushService ∧ ¬CallsFail (env.customerData di) o.aws di ∧
    o.aws.attributes ≠ .ok none ∧ di.awsEndpointArn = []

/-- The creation fails after the row of the device `di` has been dealt with: the contact record
cannot be read, AWS does not take the device, or the protocol is unknown. -/
def LateFailure (env : Env) (o : Outside) (pi : MailPingInformation) (di : DeviceInfo) : Prop :=
  o.getContact ≠ none ∨ AwsRefuses env o di ∨
    ¬AwsPanics env o di ∧ Web.protocolSwitch pi.protocol = none

/-- The creation stores the ARN of the device and then fails on its protocol. -/
def FailsAfterArn (env : Env) (o : Outside) (pi : MailPingInformation) (r : DeviceRecord) : Prop :=
  r.valid ∧ o.getContact = none ∧ AwsRegisters env o r.info ∧ Web.protocolSwitch pi.protocol = none

/-- The creation fails after it has written a row: the row of the device, or a row it had found in
order, with the endpoint it had no ARN of. -/
def LeavesRow (env : Env) (o : Outside) (pi : MailPingInformation) (t : Tables) : Prop :=
  o.cognito = none ∧ (Writes env o pi t ∧ LateFailure env o pi (deviceOf pi t) ∨
    ∃ r, Kept env o pi t r ∧ FailsAfterArn env o pi r)

theorem AwsRegisters.not_panics {di : DeviceInfo} (h : AwsRegisters env o di) :
    ¬AwsPanics env o di :=
  fun h' => h.2.2.1 h'.2.2

theorem checkClient_valid (env : Env) (o : Outside) (di : DeviceInfo) :
    (checkClient env o di).1.validate = di.validate ∧ (checkClient env o di).1.key = di.key := by
  unfold checkClient
  split
  · rcases hr : di.registerAws (env.customerData di) o.aws with ⟨di', reg, out⟩
    obtain ⟨arn, rfl⟩ := DeviceInfo.registerAws_eq hr
    cases out <;> exact ⟨rfl, rfl⟩
  · exact ⟨rfl, rfl⟩

/-- How `validateClient` goes on, on the answers of AWS. -/
theorem checkClient_end (env : Env) (o : Outside) (di : DeviceInfo) :
    match (checkClient env o di).2 with
    | .failed _ => AwsRefuses env o di
    | .panicked => AwsPanics env o di
    | .done stored =>
      ¬AwsRefuses env o di ∧ ¬AwsPanics env o di ∧ (stored = true ↔ AwsRegisters env o di) := by
  unfold checkClient AwsRefuses AwsPanics AwsRegisters
  by_cases hsns : Push.viaSns env.cfg di.pushService
  · have hend := registerAws_end (env.customerData di) o.aws di
    rw [if_pos hsns]
    generalize di.registerAws (env.customerData di) o.aws = after at hend
    obtain ⟨di', reg, out⟩ := after
    cases out with
    | failed e =>
      have hend : CallsFail (env.customerData di) o.aws di := hend
      cases hign : env.ignorePushFailures with
      | false => exact ⟨hsns, hend, rfl⟩
      | true => simp [hend]
    | panicked => exact ⟨hsns, hend⟩
    | done need =>
      obtain ⟨hno, hattrs, hneed⟩ := hend
      simp [hno, hattrs, hneed, hsns]
  · simp [hsns]

/-- The rest of the creation from a copy of the current version: what it returns, and whether it
writes the row once more. -/
def finish (env : Env) (o : Outside) (pi : MailPingInformation) (r : DeviceRecord) (t : Tables) :
    Except Stop DeviceRecord × Tables :=
  match getContactInfoObj o r t with
  | (.error e, t) => (.error e, t)
  | (.ok r, t) =>
    match validateClient env o r t with
    | (.error e, t) => (.error e, t)
    | (.ok r, t) =>
      if (Web.protocolSwitch pi.protocol).isNone then
        (.error (.err (.unsupportedProtocol pi.protocol)), t)
      else (.ok r, updateLastContact r t)

theorem newMailClientContext_eq (h : o.cognito = none) : newMailClientContext env o pi t =
    match deviceRow env o pi t with
    | (.error e, t) => (.error e, t)
    | (.ok r, t) => finish env o pi r t := by
  simp only [newMailClientContext, h, newDeviceInfo]
  rcases deviceRow env o pi t with ⟨e | r, t'⟩
  · rfl
  · rfl

theorem getContactInfoObj_none (h : o.getContact = none) (r : DeviceRecord) (t : Tables) :
    ∃ contacts, getContactInfoObj o r t = (.ok r, { t with contacts }) := by
  rw [getContactInfoObj, h]
  cases t.contacts r.info.contactKey with
  | none => exact ⟨_, rfl⟩
  | some dc => exact ⟨t.contacts, rfl⟩

/-- The device with its endpoint is as valid as before, and has its key. -/
theorem checked (env : Env) (o : Outside) (r : DeviceRecord) :
    (({ r with info := (checkClient env o r.info).1 } : DeviceRecord).valid ↔ r.valid) ∧
      (Current t.devices r → Current t.devices { r with info := (checkClient env o r.info).1 }) := by
  obtain ⟨hvalid, hkey⟩ := checkClient_valid env o r.info
  constructor
  · rw [valid_iff_validate, hvalid, valid_iff_validate]
  · rintro ⟨row, hrow, hid⟩
    exact ⟨row, (congrArg t.devices hkey).trans hrow, hid⟩

/-- `validateClient` stores the ARN. -/
theorem validateClient_stores (hout : (checkClient env o r.info).2 = .done true) (hvalid : r.valid)
    (hc : Current t.devices r) : ∃ r' devices,
      validateClient env o r t = (.ok r', { t with devices }) ∧
        Ahead r.info.key t.devices devices := by
  obtain ⟨r', devices, hup, -, -, hahead⟩ :=
    updateRow_valid env ((checked (t := t) env o r).1.mpr hvalid) ((checked env o r).2 hc)
  refine ⟨r', devices, ?_, ?_⟩
  · rw [validateClient, hout]
    exact hup
  · exact (checkClient_valid env o r.info).2 ▸ hahead

theorem validateClient_invalid (hout : (checkClient env o r.info).2 = .done true)
    (hvalid : ¬r.valid) : validateClient env o r t = (.error .panicked, t) := by
  rw [validateClient, hout]
  exact updateRow_invalid (mt (checked (t := t) env o r).1.mp hvalid)

/-- It returns an error only when AWS does not take the device. -/
theorem validateClient_err (h : (validateClient env o r t).1 = .error (.err e)) :
    ∃ e', (checkClient env o r.info).2 = .failed e' := by
  unfold validateClient at h
  split at h
  next e' hout => exact ⟨e', hout⟩
  next => cases h
  next =>
    simp only [updateRow] at h
    split at h <;> cases h
  next => cases h

/-- The rest fails, with the row as it is unless the ARN was stored; or it does not return an
error. -/
theorem finish_cases (env : Env) (o : Outside) (pi : MailPingInformation)
    (hc : Current t.devices r) :
    (∃ e t', finish env o pi r t = (.error (.err e), t') ∧ LateFailure env o pi r.info ∧
      (t'.devices = t.devices ∧ ¬FailsAfterArn env o pi r ∨
        Ahead r.info.key t.devices t'.devices ∧ FailsAfterArn env o pi r)) ∨
    (∀ e, (finish env o pi r t).1 ≠ .error (.err e)) ∧
      (r.valid → ¬LateFailure env o pi r.info) := by
  cases hcontact : o.getContact with
  | some text =>
    refine .inl ⟨.db text, t, ?_, .inl (by rw [hcontact]; simp), .inl ⟨rfl, ?_⟩⟩
    · rw [finish, getContactInfoObj, hcontact]
    · rintro ⟨-, h, -⟩
      cases hcontact.symm.trans h
  | none =>
    obtain ⟨contacts, hok⟩ := getContactInfoObj_none hcontact r t
    have hlate : LateFailure env o pi r.info ↔ AwsRefuses env o r.info ∨
        ¬AwsPanics env o r.info ∧ Web.protocolSwitch pi.protocol = none := by
      rw [LateFailure, hcontact]
      simp
    have hend := checkClient_end env o r.info
    rw [finish, hok]
    dsimp only
    cases hout : (checkClient env o r.info).2 with
    | failed e =>
      rw [hout] at hend
      have hv : validateClient env o r { t with contacts } =
          (.error (.err (.register e)), { t with contacts }) := by
        rw [validateClient, hout]
      rw [hv]
      refine .inl ⟨.register e, _, rfl, hlate.mpr (.inl hend), .inl ⟨rfl, ?_⟩⟩
      rintro ⟨-, -, h, -⟩
      exact h.2.1 hend.2.1
    | panicked =>
      rw [hout] at hend
      have hv : validateClient env o r { t with contacts } =
          (.error .panicked, { t with contacts }) := by
        rw [validateClient, hout]
      rw [hv]
      refine .inr ⟨fun e he => (nomatch he), fun _ => mt hlate.mp ?_⟩
      rintro (h | h)
      · exact hend.2.1 h.2.1
      · exact h.1 hend
    | done stored =>
      rw [hout] at hend
      obtain ⟨hrefuses, hpanics, hstored⟩ := hend
      cases hproto : Web.protocolSwitch pi.protocol with
      | some kind =>
        refine .inr ⟨fun e he => ?_, fun _ => mt hlate.mp (by simp [hrefuses, hproto])⟩
        rcases hv : validateClient env o r { t with contacts } with ⟨e' | r', t'⟩
        · rw [hv] at he
          obtain rfl : e' = .err e := Except.error.inj he
          obtain ⟨e', hf⟩ := validateClient_err (congrArg Prod.fst hv)
          cases hout.symm.trans hf
        · rw [hv] at he
          cases he
      | none =>
        have hl : LateFailure env o pi r.info := hlate.mpr (.inr ⟨hpanics, hproto⟩)
        cases stored with
        | false =>
          have hv : validateClient env o r { t with contacts } =
              (.ok { r with info := (checkClient env o r.info).1 }, { t with contacts }) := by
            rw [validateClient, hout]
          rw [hv]
          refine .inl ⟨.unsupportedProtocol pi.protocol, _, rfl, hl, .inl ⟨rfl, ?_⟩⟩
          rintro ⟨-, -, h, -⟩
          cases hstored.mpr h
        | true =>
          by_cases hvalid : r.valid
          · obtain ⟨r', devices, hv, hahead⟩ :=
              validateClient_stores (t := { t with contacts }) hout hvalid hc
            rw [hv]
            exact .inl ⟨.unsupportedProtocol pi.protocol, _, rfl, hl,
              .inr ⟨hahead, hvalid, hcontact, hstored.mp rfl, hproto⟩⟩
          · rw [validateClient_invalid hout hvalid]
            exact .inr ⟨fun e he => (nomatch he), fun h => absurd h hvalid⟩

/-! ## What a failed creation leaves -/

/-- A creation that returns an error leaves the device rows as they were. -/
def Undone (env : Env) (o : Outside) (pi : MailPingInformation) (t : Tables) : Prop :=
  ∀ e, (newMailClientContext env o pi t).1 = .error (.err e) →
    (newMailClientContext env o pi t).2.devices = t.devices

theorem deviceOf_key (hkeyed : ∀ k r, t.devices k = some r → r.info.key = k) :
    (deviceOf pi t).key = deviceKey pi := by
  rw [deviceOf]
  cases hrow : t.devices (deviceKey pi) with
  | none => rfl
  | some r => exact (DeviceInfo.updated_key r.info pi.request).trans (hkeyed _ r hrow)

theorem Kept.not_writes (h : Kept env o pi t r) : ¬Writes env o pi t := by
  rintro ⟨-, hw⟩
  obtain ⟨-, hrow, hours, hhas⟩ := h
  simp only [hrow] at hw
  exact hw.1.elim (fun h => h hours) fun h => h hhas

theorem Kept.unique (h : Kept env o pi t r) (h' : Kept env o pi t r') : r = r' :=
  Option.some.inj (h.2.1.symm.trans h'.2.1)

/-- A row that is in order is written only for its ARN. -/
theorem leavesRow_of_kept (hcog : o.cognito = none) (hkept : Kept env o pi t r) :
    LeavesRow env o pi t ↔ FailsAfterArn env o pi r := by
  constructor
  · rintro ⟨-, h | ⟨r', h, h'⟩⟩
    · exact absurd h.1 hkept.not_writes
    · rwa [hkept.unique h]
  · exact fun h => ⟨hcog, .inr ⟨r, hkept, h⟩⟩

/-- After the write of the row every failure is late. -/
theorem leavesRow_of_writes (hcog : o.cognito = none) (hwrites : Writes env o pi t) :
    LeavesRow env o pi t ↔ LateFailure env o pi (deviceOf pi t) := by
  constructor
  · rintro ⟨-, h | ⟨r', h, -⟩⟩
    · exact h.2
    · exact absurd hwrites h.not_writes
  · exact fun h => ⟨hcog, .inl ⟨hwrites, h⟩⟩

/-- A creation that returns an error leaves the device rows as they were exactly when it does not
fail after a write. -/
theorem undone_iff (env : Env) (o : Outside) (pi : MailPingInformation) (t : Tables)
    (hkeyed : ∀ k r, t.devices k = some r → r.info.key = k) :
    Undone env o pi t ↔ ¬LeavesRow env o pi t := by
  unfold Undone
  cases hcog : o.cognito with
  | some text =>
    rw [newMailClientContext, hcog]
    refine iff_of_true (fun _ _ => rfl) fun h => ?_
    cases hcog.symm.trans h.1
  | none =>
    rw [newMailClientContext_eq hcog]
    have hrow := deviceRow_cases env o pi hkeyed
    generalize deviceRow env o pi t = out at hrow
    cases hrow with
    | stopped hpanic hwrites hkept =>
      refine iff_of_true ?_ ?_
      · rintro e ⟨⟩
        rcases hpanic with h | rfl
        · cases h
        · rfl
      · rintro ⟨-, h | ⟨r, h, -⟩⟩
        · exact hwrites h.1
        · exact hkept r h
    | @kept r hkept =>
      have hkey := hkeyed _ _ hkept.2.1
      rw [leavesRow_of_kept hcog hkept]
      rcases finish_cases env o pi (⟨r, hkey ▸ hkept.2.1, rfl⟩ :
          Current t.devices r) with ⟨e, t', hf, -, h⟩ | ⟨hne, hlate⟩
      · simp only [hf]
        rcases h with ⟨hsame, hnot⟩ | ⟨hahead, hyes⟩
        · exact iff_of_true (fun _ _ => hsame) hnot
        · exact iff_of_false (fun h => hahead.ne (h e rfl)) (not_not.mpr hyes)
      · refine iff_of_true (fun e he => absurd he (hne e)) fun h => hlate h.1 ?_
        exact .inr (.inr ⟨h.2.2.1.not_panics, h.2.2.2⟩)
    | @wrote r t' hwrites hinfo hvalid hcurrent hahead =>
      rw [leavesRow_of_writes hcog hwrites, ← hinfo]
      rcases finish_cases env o pi hcurrent with
        ⟨e, t'', hf, hlate, h⟩ | ⟨hne, hlate⟩
      · simp only [hf]
        refine iff_of_false (fun hu => ?_) (not_not.mpr hlate)
        rcases h with ⟨hsame, -⟩ | ⟨hahead', -⟩
        · exact hahead.ne (hsame ▸ hu e rfl)
        · have hkey : r.info.key = deviceKey pi := hinfo ▸ deviceOf_key hkeyed
          exact (hahead.trans (hkey ▸ hahead')).ne (hu e rfl)
      · exact iff_of_true (fun e he => absurd he (hne e)) (hlate hvalid)

/-- The registration of the phone, with a protocol there is no client for. -/
def fooPi : MailPingInformation := { iphonePi ['1'] with protocol := GoString.lit "Foo" }

/-- The row of the phone from an earlier session of this pinger, with its endpoint. -/
def iphoneRow : DeviceRecord where
  info := { fooPi.deviceInfo none with awsEndpointArn := GoString.lit "arn:aws:sns:1" }
  id := 1
  pinger := lenientEnv.host

def iphoneTables : Tables where
  devices := Table.put (fun _ => none) (deviceKey fooPi) iphoneRow

theorem iphoneTables_row : iphoneTables.devices (deviceKey fooPi) = some iphoneRow := rfl

theorem iphoneTables_keyed (k : DeviceKey) (r : DeviceRecord) (h : iphoneTables.devices k = some r) :
    r.info.key = k := by
  by_cases hk : k = deviceKey fooPi
  · subst hk
    cases iphoneTables_row.symm.trans h
    rfl
  · change Table.put (fun _ => none) (deviceKey fooPi) iphoneRow k = some r at h
    rw [Table.put_of_ne hk] at h
    cases h

theorem undone_iff_kept :
    (newMailClientContext lenientEnv { aws := endpoint } fooPi iphoneTables).1 =
      .error (.err (.unsupportedProtocol (GoString.lit "Foo"))) ∧
    (newMailClientContext lenientEnv { aws := endpoint } fooPi iphoneTables).2.devices =
      iphoneTables.devices := by
  have herr : (newMailClientContext lenientEnv { aws := endpoint } fooPi iphoneTables).1 =
      .error (.err (.unsupportedProtocol (GoString.lit "Foo"))) := by decide +kernel
  have hkept : Kept lenientEnv { aws := endpoint } fooPi iphoneTables iphoneRow :=
    ⟨rfl, iphoneTables_row, rfl, rfl, rfl, rfl, rfl, rfl, rfl⟩
  refine ⟨herr, (undone_iff _ _ _ _ iphoneTables_keyed).mpr ?_ _ herr⟩
  rintro ⟨-, h | ⟨r, h, h'⟩⟩
  · exact hkept.not_writes h.1
  · cases hkept.unique h
    -- the row has an ARN already
    cases h'.2.2.1.2.2.2

/-- The row of a phone whose registration was refused for its protocol stays in the table. -/
theorem unsupported_protocol_leaves_row :
    ¬Undone lenientEnv { aws := endpoint } fooPi {} := by
  intro h
  have hsome : ((newMailClientContext lenientEnv { aws := endpoint } fooPi {}).2.devices
      (deviceKey fooPi)).isSome := by decide +kernel
  rw [h (.unsupportedProtocol (GoString.lit "Foo")) (by decide +kernel)] at hsome
  cases hsome

end Pinger.Create
