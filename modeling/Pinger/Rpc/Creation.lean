import Pinger.Device.Store
import Pinger.Device.Push
import Pinger.Web.Register

/-! # Creating sessions side by side

`createNewPingerSession` runs in a goroutine of its own, outside the map lock and without a
`recover`: a panic ends the process. Several calls for one identity, each with its session id, share
the record in `device_contact`. Here the calls go over the two tables in any order, one database
operation or round of AWS calls at a time, up to the return of `newMailClientContext`.

A call looks for the contact record and inserts it when there is none. When another call has
inserted it in between, the insert fails and the call panics. -/

namespace Pinger.Create

open Transition

/-- The settings of the backend; `customerData` is the JSON text of a device. -/
structure Env where
  host : HostId
  cfg : Push.Config := {}
  ignorePushFailures : Bool := false
  customerData : DeviceInfo → GoString := fun _ => []

/-- Where a call is: its next database operation, with its copy of the device row. From
`validateClient` on it has its contact record. -/
inductive Creation
  | absent
  | getInfo
  | steal (r : DeviceRecord)
  | insertInfo (r : DeviceRecord)
  | updateInfo (r : DeviceRecord)
  | getContact (r : DeviceRecord)
  | insertContact (r : DeviceRecord)
  | validateClient (r : DeviceRecord) (dc : DeviceContact)
  | storeArn (r : DeviceRecord) (dc : DeviceContact)
  | newClient (r : DeviceRecord) (dc : DeviceContact)
  | touch (dc found : DeviceContact)
  | created (dc : DeviceContact)
  | failed (dc : Option DeviceContact)
  | panicked
  deriving DecidableEq, Repr

structure Backend where
  devices : DeviceTable := fun _ => none
  contacts : ContactTable := fun _ => none
  pis : Nat → MailPingInformation := fun _ => {}
  calls : Nat → Creation := fun _ => .absent
  ncalls : Nat := 0
  died : Bool := false

/-- A new call, with the answer of `ValidateCognitoID`; the next operation of a call; and what AWS
answers to the calls of `registerAws`. -/
inductive Act
  | call (pi : MailPingInformation) (validId : Bool)
  | next (i : Nat)
  | register (i : Nat) (ans : AwsAnswers)

def deviceKey (pi : MailPingInformation) : DeviceKey := (pi.deviceInfo none).key

def contactKey (pi : MailPingInformation) : ContactKey := (pi.deviceInfo none).contactKey

namespace Backend

def goto (s : Backend) (i : Nat) (c : Creation) : Backend :=
  { s with calls := Function.update s.calls i c }

/-- Nothing recovers the panic. -/
def panic (s : Backend) (i : Nat) : Backend := { s.goto i .panicked with died := true }

end Backend

section
variable (env : Env) (s : Backend)

/-- `getDeviceInfo` has returned a row, which `updateDeviceInfo` brings up to date. -/
def fetched (pi : MailPingInformation) (r : DeviceRecord) : Creation :=
  let (r', changed) := r.updateDeviceInfo pi.pushService pi.pushToken pi.platform pi.osVersion
    pi.appBuildVersion pi.appBuildNumber
  if changed then .updateInfo r' else .getContact r'

/-- `di.update()`, which panics when the update fails. -/
def update (i : Nat) (r : DeviceRecord) (k : DeviceRecord → Creation) : Backend :=
  match r.update env.host s.devices with
  | (r', some t) => { s.goto i (k r') with devices := t }
  | (_, none) => s.panic i

/-- The next database operation of call `i`. -/
def next (i : Nat) (pi : MailPingInformation) : Creation → Option Backend
  | .getInfo =>
    match s.devices (deviceKey pi) with
    | some r =>
      if r.pinger ≠ env.host then some (s.goto i (.steal { r with pinger := env.host }))
      else some (s.goto i (fetched pi r))
    | none =>
      if pi.sessionId = [] then some (s.panic i)
      else if (pi.deviceInfo none).validate.toBool then
        some (s.goto i (.insertInfo { info := pi.deviceInfo none }))
      else some (s.goto i (.failed none))
  | .steal r => some (update env s i r (fetched pi))
  | .insertInfo r =>
    match r.insert env.host s.devices with
    | (r', some t) => some { s.goto i (.getContact r') with devices := t }
    | (_, none) => some (s.goto i (.failed none))
  | .updateInfo r => some (update env s i r .getContact)
  | .getContact r =>
    match s.contacts r.info.contactKey with
    | some dc => some (s.goto i (.validateClient r dc))
    | none => some (s.goto i (.insertContact r))
  | .insertContact r =>
    let dc : DeviceContact := ⟨r.info.contactKey, 1⟩
    match s.contacts.insert r.info.contactKey dc with
    | some t => some { s.goto i (.validateClient r dc) with contacts := t }
    | none => some (s.panic i)
  | .storeArn r dc => some (update env s i r fun r' => .newClient r' dc)
  | .newClient r dc =>
    if (Web.protocolSwitch pi.protocol).isNone then some (s.goto i (.failed (some dc)))
    else
      match s.contacts r.info.contactKey with
      | some found => some (s.goto i (.touch dc found))
      | none => some (s.goto i (.created dc))
  | .touch dc found =>
    -- `updateLastContact`, whose error is not looked at
    match s.contacts.update DeviceContact.id found.key found.id { found with id := found.id + 1 } with
    | some t => some { s.goto i (.created dc) with contacts := t }
    | none => some (s.goto i (.created dc))
  | _ => none

/-- `validateClient`. -/
def register (i : Nat) (ans : AwsAnswers) : Creation → Option Backend
  | .validateClient r dc =>
    if Push.viaSns env.cfg r.info.pushService then
      let (di, _, out) := r.info.registerAws (env.customerData r.info) ans
      let r' := { r with info := di }
      match out with
      | .done true => some (s.goto i (.storeArn r' dc))
      | .done false => some (s.goto i (.newClient r' dc))
      | .failed _ =>
        if env.ignorePushFailures then some (s.goto i (.newClient r' dc))
        else some (s.goto i (.failed (some dc)))
      | .panicked => some (s.panic i)
    else some (s.goto i (.newClient r dc))
  | _ => none

def step (a : Act) : Option Backend :=
  if s.died then none
  else match a with
    | .call pi validId =>
      some { s.goto s.ncalls (if validId then .getInfo else .failed none) with
        pis := Function.update s.pis s.ncalls pi
        ncalls := s.ncalls + 1 }
    | .next i => next env s i (s.pis i) (s.calls i)
    | .register i ans => register env s i ans (s.calls i)

end

/-! ## The condition -/

namespace Creation

/-- The copy of a row that the call may still write. -/
def copy : Creation → Option DeviceRecord
  | .steal r | .updateInfo r | .getContact r | .insertContact r | .validateClient r _
  | .storeArn r _ => some r
  | _ => none

/-- The call works on its row of `device_info`. -/
def busy : Creation → Bool
  | .insertInfo _ => true
  | c => c.copy.isSome

/-- The call has found no contact record and is about to insert one. -/
def inserting : Creation → Bool
  | .insertContact _ => true
  | _ => false

/-- The record that `getContactInfoObj(true)` has returned to the call. -/
def contact : Creation → Option DeviceContact
  | .validateClient _ dc | .storeArn _ dc | .newClient _ dc | .touch dc _ | .created dc => some dc
  | .failed dc => dc
  | _ => none

end Creation

/-- A call looks for the contact record only while no other call for its identity is about to insert
it, and fetches its device row only while no other call works on that row. The registrations have a
session id and are valid, and AWS returns attributes. -/
def Apart (s : Backend) : Act → Prop
  | .call pi _ => pi.sessionId ≠ [] ∧ (pi.deviceInfo none).validate.toBool
  | .next i =>
    match s.calls i with
    | .getInfo => ∀ j < s.ncalls, (s.calls j).busy → deviceKey (s.pis j) ≠ deviceKey (s.pis i)
    | .getContact _ =>
      ∀ j < s.ncalls, (s.calls j).inserting → contactKey (s.pis j) ≠ contactKey (s.pis i)
    | _ => True
  | .register _ ans => match ans.attributes with | .ok none => False | _ => True

instance (s : Backend) : (a : Act) → Decidable (Apart s a)
  | .call pi _ =>
    inferInstanceAs (Decidable (pi.sessionId ≠ [] ∧ (pi.deviceInfo none).validate.toBool))
  | .next i =>
    match h : s.calls i with
    | .getInfo => decidable_of_iff
        (∀ j < s.ncalls, (s.calls j).busy → deviceKey (s.pis j) ≠ deviceKey (s.pis i))
        (by simp only [Apart, h])
    | .getContact _ => decidable_of_iff
        (∀ j < s.ncalls, (s.calls j).inserting → contactKey (s.pis j) ≠ contactKey (s.pis i))
        (by simp only [Apart, h])
    | .absent | .steal _ | .insertInfo _ | .updateInfo _ | .insertContact _ | .validateClient _ _
    | .storeArn _ _ | .newClient _ _ | .touch _ _ | .created _ | .failed _ | .panicked =>
      .isTrue (by simp only [Apart, h])
  | .register _ ans =>
    match h : ans.attributes with
    | .ok none => .isFalse (by simp only [Apart, h, not_false_eq_true])
    | .ok (some _) => .isTrue (by simp only [Apart, h])
    | .error _ => .isTrue (by simp only [Apart, h])

/-! ## One step -/

/-- What a call relies on. -/
structure CallOk (devices : DeviceTable) (contacts : ContactTable) (pi : MailPingInformation)
    (c : Creation) : Prop where
  copy : ∀ r, c.copy = some r → r.info.key = deviceKey pi ∧ r.valid ∧
    ∃ row, devices (deviceKey pi) = some row ∧ row.id = r.id
  insert : ∀ r, c = .insertInfo r → r.info.key = deviceKey pi
  contact : ∀ dc, c.contact = some dc → dc.key = contactKey pi ∧ (contacts (contactKey pi)).isSome
  inserting : c.inserting → contacts (contactKey pi) = none

/-- Rows are stored under their own keys, and the device rows are valid. -/
structure TablesOk (devices : DeviceTable) (contacts : ContactTable) : Prop where
  devices : ∀ k r, devices k = some r → r.info.key = k ∧ r.valid
  contacts : ∀ k dc, contacts k = some dc → dc.key = k

/-- At most one call of each key is where `b` says. -/
def OneAt {κ : Type} (b : Creation → Bool) (key : Nat → κ) (calls : Nat → Creation) : Prop :=
  ∀ i j, b (calls i) → b (calls j) → key i = key j → i = j

structure Sound (s : Backend) : Prop where
  alive : s.died = false
  unborn : ∀ i, s.ncalls ≤ i → s.calls i = .absent
  admitted : ∀ i < s.ncalls, (s.pis i).sessionId ≠ [] ∧ ((s.pis i).deviceInfo none).validate.toBool
  tables : TablesOk s.devices s.contacts
  calls : ∀ i, CallOk s.devices s.contacts (s.pis i) (s.calls i)
  oneBusy : OneAt Creation.busy (fun i => deviceKey (s.pis i)) s.calls
  oneInsert : OneAt Creation.inserting (fun i => contactKey (s.pis i)) s.calls

-- the equations of `next` are stated once, here, and not by each of the lemmas below
attribute [local simp] next

variable {env : Env} {s s' : Backend} {r : DeviceRecord} {c : Creation}
  {pi : MailPingInformation} {devices : DeviceTable} {contacts : ContactTable}

theorem contactKey_of_key {di : DeviceInfo} (h : di.key = deviceKey pi) :
    di.contactKey = contactKey pi := by
  have := congrArg (fun k => ContactKey.mk k.userId k.clientContext k.deviceId) h
  exact this

theorem busy_of_copy (h : c.copy = some r) : c.busy := by
  cases c <;> first | exact Option.isSome_iff_exists.mpr ⟨r, h⟩ | cases h

theorem busy_of_inserting (h : c.inserting) : c.busy := by
  cases c <;> first | rfl | cases h

/-- A call that does not work on its row relies on its contact record only. -/
theorem callOk_of_not_busy (hb : c.busy = false)
    (h : ∀ dc, c.contact = some dc → dc.key = contactKey pi ∧ (contacts (contactKey pi)).isSome) :
    CallOk devices contacts pi c where
  copy r hr := by rw [busy_of_copy hr] at hb; cases hb
  insert r hr := by rw [hr] at hb; cases hb
  contact := h
  inserting hi := by rw [busy_of_inserting hi] at hb; cases hb

/-- Another row of `device_info` is written. -/
theorem CallOk.putDevice (h : CallOk devices contacts pi c)
    (hk : c.busy → deviceKey pi ≠ k) (row : DeviceRecord) :
    CallOk (devices.put k row) contacts pi c where
  copy r hr := by
    rw [Table.put_of_ne (hk (busy_of_copy hr))]
    exact h.copy r hr
  insert := h.insert
  contact := h.contact
  inserting := h.inserting

/-- A contact record is written; no call that is about to insert it is left. -/
theorem CallOk.putContact (h : CallOk devices contacts pi c)
    (hk : c.inserting → contactKey pi ≠ k) (dc : DeviceContact) :
    CallOk devices (contacts.put k dc) pi c where
  copy := h.copy
  insert := h.insert
  contact dc' hdc' := by
    obtain ⟨hkey, hsome⟩ := h.contact dc' hdc'
    refine ⟨hkey, ?_⟩
    by_cases he : contactKey pi = k
    · rw [he, Table.put_self]
      rfl
    · rw [Table.put_of_ne he]
      exact hsome
  inserting hi := by
    rw [Table.put_of_ne (hk hi)]
    exact h.inserting hi

theorem OneAt.update {b : Creation → Bool} {key : Nat → κ} {calls : Nat → Creation}
    (h : OneAt b key calls) (hc : b c → ∀ j, j ≠ i → b (calls j) → key j ≠ key i) :
    OneAt b key (Function.update calls i c) := by
  intro j k hj hk heq
  by_cases hji : j = i
  · subst hji
    rw [Function.update_self] at hj
    by_contra hne
    rw [Function.update_of_ne (Ne.symm hne)] at hk
    exact hc hj k (Ne.symm hne) hk heq.symm
  · rw [Function.update_of_ne hji] at hj
    by_cases hki : k = i
    · subst hki
      rw [Function.update_self] at hk
      exact absurd heq (hc hk j hji hj)
    · rw [Function.update_of_ne hki] at hk
      exact h j k hj hk heq

/-- A call goes on. -/
theorem Sound.move (h : Sound s) (hi : i < s.ncalls)
    (hcalls : s'.calls = Function.update s.calls i c) (hpis : s'.pis = s.pis)
    (hn : s'.ncalls = s.ncalls) (hdied : s'.died = s.died) (htables : TablesOk s'.devices s'.contacts)
    (hc : CallOk s'.devices s'.contacts (s.pis i) c)
    (hothers : ∀ j, j ≠ i → CallOk s'.devices s'.contacts (s.pis j) (s.calls j))
    (hbusy : c.busy → ∀ j, j ≠ i → (s.calls j).busy → deviceKey (s.pis j) ≠ deviceKey (s.pis i))
    (hins : c.inserting →
      ∀ j, j ≠ i → (s.calls j).inserting → contactKey (s.pis j) ≠ contactKey (s.pis i)) :
    Sound s' := by
  constructor
  · rw [hdied]
    exact h.alive
  · intro j hj
    rw [hn] at hj
    have hne : j ≠ i := by
      rintro rfl
      exact absurd hi (Nat.not_lt_of_le hj)
    rw [hcalls, Function.update_of_ne hne]
    exact h.unborn j hj
  · rw [hn, hpis]
    exact h.admitted
  · exact htables
  · intro j
    rw [hcalls, hpis]
    by_cases hj : j = i
    · subst hj
      rw [Function.update_self]
      exact hc
    · rw [Function.update_of_ne hj]
      exact hothers j hj
  · rw [hcalls, hpis]
    exact h.oneBusy.update hbusy
  · rw [hcalls, hpis]
    exact h.oneInsert.update hins

theorem Sound.goto (h : Sound s) (hi : i < s.ncalls)
    (hc : CallOk s.devices s.contacts (s.pis i) c)
    (hbusy : c.busy → ∀ j, j ≠ i → (s.calls j).busy → deviceKey (s.pis j) ≠ deviceKey (s.pis i))
    (hins : c.inserting →
      ∀ j, j ≠ i → (s.calls j).inserting → contactKey (s.pis j) ≠ contactKey (s.pis i)) :
    Sound (s.goto i c) :=
  h.move hi rfl rfl rfl rfl h.tables hc (fun j _ => h.calls j) hbusy hins

theorem Sound.apart (h : Sound s) (hb : (s.calls i).busy) (j : Nat) (hne : j ≠ i)
    (hj : (s.calls j).busy) : deviceKey (s.pis j) ≠ deviceKey (s.pis i) :=
  fun heq => hne (h.oneBusy j i hj hb heq)

theorem TablesOk.putDevice (h : TablesOk devices contacts) (hkey : r.info.key = k) (hv : r.valid) :
    TablesOk (devices.put k r) contacts where
  devices := by
    intro k' row hrow
    by_cases he : k' = k
    · subst he
      rw [Table.put_self] at hrow
      cases hrow
      exact ⟨hkey, hv⟩
    · rw [Table.put_of_ne he] at hrow
      exact h.devices k' row hrow
  contacts := h.contacts

theorem TablesOk.putContact (h : TablesOk devices contacts) (hkey : dc.key = k) :
    TablesOk devices (contacts.put k dc) where
  devices := h.devices
  contacts := by
    intro k' dc' hdc'
    by_cases he : k' = k
    · subst he
      rw [Table.put_self] at hdc'
      cases hdc'
      exact hkey
    · rw [Table.put_of_ne he] at hdc'
      exact h.contacts k' dc' hdc'

/-- A call that works on its device row writes it. -/
theorem Sound.putDevice (h : Sound s) (hi : i < s.ncalls) (hb : (s.calls i).busy)
    (hkey : r.info.key = deviceKey (s.pis i)) (hv : r.valid)
    (hc : CallOk (s.devices.put (deviceKey (s.pis i)) r) s.contacts (s.pis i) c)
    (hins : c.inserting = false) :
    Sound { s.goto i c with devices := s.devices.put (deviceKey (s.pis i)) r } := by
  refine h.move hi rfl rfl rfl rfl (h.tables.putDevice hkey hv) hc ?_ (fun _ => h.apart hb) ?_
  · intro j hne
    exact (h.calls j).putDevice (h.apart hb j hne) r
  · intro hi'
    rw [hins] at hi'
    cases hi'

theorem update_eq (env : Env) (hv : r.valid) (hrow : s.devices r.info.key = some row)
    (hid : row.id = r.id) (k : DeviceRecord → Creation) : ∃ r', r'.info = r.info ∧
      update env s i r k = { s.goto i (k r') with devices := s.devices.put r.info.key r' } := by
  rw [update, DeviceRecord.update_of_current hv hrow hid]
  exact ⟨{ r.claim env.host with id := r.id + 1 }, rfl, rfl⟩

/-- `di.update()` succeeds on the copy of a call. -/
theorem Sound.update (h : Sound s) (hi : i < s.ncalls) (hr : (s.calls i).copy = some r)
    {k : DeviceRecord → Creation}
    (hk : ∀ r' devices, r'.info = r.info → devices (deviceKey (s.pis i)) = some r' →
      CallOk devices s.contacts (s.pis i) (k r'))
    (hins : ∀ r', (k r').inserting = false) : Sound (update env s i r k) := by
  obtain ⟨hkey, hv, row, hrow, hid⟩ := (h.calls i).copy r hr
  obtain ⟨r', hinfo, heq⟩ := update_eq env (i := i) hv (hkey ▸ hrow) hid k
  have hv' : r'.valid := by
    rw [DeviceRecord.valid, hinfo]
    exact hv
  rw [heq, hkey]
  exact h.putDevice hi (busy_of_copy hr) (hinfo ▸ hkey) hv' (hk r' _ hinfo (Table.put_self ..))
    (hins r')

/-! ## The operations of a call -/

theorem callOk_copy (hc : c.copy = some r) (hcontact : c.contact = none) (hins : c.inserting = false)
    (hkey : r.info.key = deviceKey pi) (hv : r.valid) (hrow : devices (deviceKey pi) = some row)
    (hid : row.id = r.id) : CallOk devices contacts pi c where
  copy r' hr' := by
    cases hc.symm.trans hr'
    exact ⟨hkey, hv, row, hrow, hid⟩
  insert r' hr' := by
    subst hr'
    cases hc
  contact dc hdc := by rw [hcontact] at hdc; cases hdc
  inserting hi := by rw [hins] at hi; cases hi

/-- A row that `updateDeviceInfo` brings up to date with an admitted registration is valid. -/
theorem callOk_fetched (hp : (pi.deviceInfo none).validate.toBool)
    (hkey : r.info.key = deviceKey pi) (hrow : devices (deviceKey pi) = some row)
    (hid : row.id = r.id) : CallOk devices contacts pi (fetched pi r) := by
  obtain ⟨-, -, -, hservice, -, hplat⟩ := r.info.updateDeviceInfo_fields pi.pushService
    pi.pushToken pi.platform pi.osVersion pi.appBuildVersion pi.appBuildNumber
  have hkey' := (r.info.updateDeviceInfo_key pi.pushService pi.pushToken pi.platform pi.osVersion
    pi.appBuildVersion pi.appBuildNumber).trans hkey
  have hv : (r.updateDeviceInfo pi.pushService pi.pushToken pi.platform pi.osVersion
      pi.appBuildVersion pi.appBuildNumber).1.valid := by
    have heq := DeviceInfo.validate_congr (congrArg DeviceKey.userId hkey')
      (congrArg DeviceKey.clientContext hkey') (congrArg DeviceKey.deviceId hkey') hservice hplat
    exact (congrArg Except.toBool heq).trans hp
  simp only [fetched]
  split
  · exact callOk_copy rfl rfl rfl hkey' hv hrow hid
  · exact callOk_copy rfl rfl rfl hkey' hv hrow hid

theorem inserting_fetched : (fetched pi r).inserting = false := by
  simp only [fetched]
  split <;> rfl

/-- A call is through with its device row. -/
theorem Sound.leave (h : Sound s) (hi : i < s.ncalls) (hb : c.busy = false)
    (hc : c.contact = none ∨ c.contact = (s.calls i).contact) : Sound (s.goto i c) := by
  refine h.goto hi (callOk_of_not_busy hb fun dc hdc => ?_) (fun hb' => ?_) fun hins => ?_
  · rcases hc with hc | hc
    · cases hc.symm.trans hdc
    · exact (h.calls i).contact dc (hc ▸ hdc)
  · rw [hb] at hb'
    cases hb'
  · rw [busy_of_inserting hins] at hb
    cases hb

/-- A call goes on with its contact record, and with its copy or with one that has another
endpoint. -/
theorem callOk_validated (h : CallOk devices contacts pi (.validateClient r dc)) (arn : GoString)
    (hc : c = .storeArn { r with info := { r.info with awsEndpointArn := arn } } dc) :
    CallOk devices contacts pi c := by
  subst hc
  obtain ⟨hkey, hv, hrow⟩ := h.copy r rfl
  refine ⟨?_, fun _ hr => (nomatch hr), ?_, fun hi => (nomatch hi)⟩
  · intro r' hr'
    cases hr'
    exact ⟨hkey, hv, hrow⟩
  · intro dc' hdc'
    cases hdc'
    exact h.contact dc rfl

/-- A call fetches its device row while no other call works on it. -/
theorem Sound.getInfo (h : Sound s) (hi : i < s.ncalls)
    (halone : ∀ j < s.ncalls, (s.calls j).busy → deviceKey (s.pis j) ≠ deviceKey (s.pis i))
    (hs : next env s i (s.pis i) .getInfo = some s') : Sound s' := by
  obtain ⟨hsession, hvalid⟩ := h.admitted i hi
  have hothers : ∀ j, j ≠ i → (s.calls j).busy → deviceKey (s.pis j) ≠ deviceKey (s.pis i) := by
    intro j _ hb
    by_cases hj : j < s.ncalls
    · exact halone j hj hb
    · rw [h.unborn j (Nat.le_of_not_lt hj)] at hb
      cases hb
  simp only [Create.next] at hs
  split at hs
  next r hrow =>
    obtain ⟨hkey, hv⟩ := h.tables.devices _ r hrow
    split at hs
    next =>
      cases hs
      exact h.goto hi (callOk_copy (r := { r with pinger := env.host }) rfl rfl rfl hkey hv hrow rfl)
        (fun _ => hothers) (fun hins => (nomatch hins))
    next =>
      cases hs
      refine h.goto hi (callOk_fetched hvalid hkey hrow rfl) (fun _ => hothers) fun hins => ?_
      rw [inserting_fetched] at hins
      cases hins
  next =>
    simp only [if_neg hsession, if_pos hvalid] at hs
    cases hs
    refine h.goto hi
      ⟨fun _ hr => (nomatch hr), ?_, fun _ hd => (nomatch hd), fun hins => (nomatch hins)⟩
      (fun _ => hothers) (fun hins => (nomatch hins))
    intro r hr
    cases hr
    rfl

theorem Sound.insertInfo (h : Sound s) (hi : i < s.ncalls) (hc : s.calls i = .insertInfo r)
    (hs : next env s i (s.pis i) (.insertInfo r) = some s') : Sound s' := by
  have hkey := (h.calls i).insert r hc
  have hb : (s.calls i).busy := by rw [hc]; rfl
  simp only [Create.next] at hs
  split at hs
  next r' t heq =>
    cases hs
    obtain ⟨hinfo, ht⟩ := DeviceRecord.insert_cases heq
    obtain ⟨-, rfl⟩ := ht t rfl
    have hv := DeviceRecord.valid_of_insert heq
    rw [hkey]
    exact h.putDevice hi hb (hinfo ▸ hkey) hv
      (callOk_copy rfl rfl rfl (hinfo ▸ hkey) hv (Table.put_self ..) rfl) rfl
  next =>
    cases hs
    exact h.leave hi rfl (.inl rfl)

/-- A call looks for its contact record while no other call is about to insert it. -/
theorem Sound.getContact (h : Sound s) (hi : i < s.ncalls) (hc : s.calls i = .getContact r)
    (halone : ∀ j < s.ncalls, (s.calls j).inserting → contactKey (s.pis j) ≠ contactKey (s.pis i))
    (hs : next env s i (s.pis i) (.getContact r) = some s') : Sound s' := by
  have hcopy := (h.calls i).copy r (by rw [hc]; rfl)
  have hb : (s.calls i).busy := by rw [hc]; rfl
  have hkey := contactKey_of_key hcopy.1
  simp only [Create.next, hkey] at hs
  split at hs
  next dc hdc =>
    cases hs
    refine h.goto hi ⟨?_, fun _ hr => (nomatch hr), ?_, fun hins => (nomatch hins)⟩
      (fun _ => h.apart hb) (fun hins => (nomatch hins))
    · intro r' hr'
      cases hr'
      exact hcopy
    · intro dc' hdc'
      cases hdc'
      exact ⟨h.tables.contacts _ dc hdc, by rw [hdc]; rfl⟩
  next hnone =>
    cases hs
    refine h.goto hi ⟨?_, fun _ hr => (nomatch hr), fun _ hd => (nomatch hd), fun _ => hnone⟩
      (fun _ => h.apart hb) fun _ j _ hins => ?_
    · intro r' hr'
      cases hr'
      exact hcopy
    · by_cases hj : j < s.ncalls
      · exact halone j hj hins
      · rw [h.unborn j (Nat.le_of_not_lt hj)] at hins
        cases hins

/-- The insert of the contact record succeeds. -/
theorem Sound.insertContact (h : Sound s) (hi : i < s.ncalls) (hc : s.calls i = .insertContact r)
    (hs : next env s i (s.pis i) (.insertContact r) = some s') : Sound s' := by
  have hcopy := (h.calls i).copy r (by rw [hc]; rfl)
  have hb : (s.calls i).busy := by rw [hc]; rfl
  have hins : (s.calls i).inserting := by rw [hc]; rfl
  have hkey := contactKey_of_key hcopy.1
  have hnone := (h.calls i).inserting hins
  simp only [Create.next, hkey, Table.insert, hnone] at hs
  cases hs
  refine h.move hi rfl rfl rfl rfl (h.tables.putContact rfl) ?_ ?_ (fun _ => h.apart hb)
    (fun hins' => by cases hins')
  · refine ⟨?_, (fun _ hr => by cases hr), ?_, fun hins' => by cases hins'⟩
    · intro r' hr'
      cases hr'
      exact hcopy
    · intro dc hdc
      cases hdc
      exact ⟨rfl, Option.isSome_iff_exists.mpr ⟨_, Table.put_self ..⟩⟩
  · intro j hne
    exact (h.calls j).putContact (fun hj heq => hne (h.oneInsert j i hj hins heq)) _

/-- `newMailClientContext` after `validateClient`. -/
theorem Sound.newClient (h : Sound s) (hi : i < s.ncalls) (hc : s.calls i = .newClient r dc)
    (hs : next env s i (s.pis i) (.newClient r dc) = some s') : Sound s' := by
  have hleave : ∀ {c}, c.busy = false → c.contact = some dc → Sound (s.goto i c) :=
    fun hb hdc => h.leave hi hb (.inr (by rw [hc]; exact hdc))
  simp only [Create.next] at hs
  split at hs
  next =>
    cases hs
    exact hleave rfl rfl
  next =>
    split at hs
    next =>
      cases hs
      exact hleave rfl rfl
    next =>
      cases hs
      exact hleave rfl rfl

/-- The update of the contact record leaves it in the table. -/
theorem Sound.touch (h : Sound s) (hi : i < s.ncalls) (hc : s.calls i = .touch dc found)
    (hs : next env s i (s.pis i) (.touch dc found) = some s') : Sound s' := by
  simp only [Create.next] at hs
  split at hs
  next t heq =>
    cases hs
    obtain ⟨⟨row, hrow, -⟩, rfl⟩ := Table.update_eq_some heq
    have hput : ∀ j, CallOk s.devices (s.contacts.put found.key { found with id := found.id + 1 })
        (s.pis j) (s.calls j) := by
      intro j
      apply (h.calls j).putContact
      intro hins hkey
      have hnone := (h.calls j).inserting hins
      rw [hkey, hrow] at hnone
      cases hnone
    refine h.move hi rfl rfl rfl rfl (h.tables.putContact rfl) ?_ (fun j _ => hput j)
      (fun hb => (nomatch hb)) (fun hins => (nomatch hins))
    apply callOk_of_not_busy rfl
    intro dc' hdc'
    apply (hput i).contact
    rw [hc]
    exact hdc'
  next =>
    cases hs
    exact h.leave hi rfl (.inr (by rw [hc]; rfl))

/-- The next database operation of a call that is apart from the others. -/
theorem Sound.next (h : Sound s) (hi : i < s.ncalls) (ha : Apart s (.next i))
    (hs : next env s i (s.pis i) (s.calls i) = some s') : Sound s' := by
  have hcall := h.calls i
  cases hc : s.calls i with
  | getInfo =>
    rw [hc] at hs
    simp only [Apart, hc] at ha
    exact h.getInfo hi ha hs
  | steal r =>
    rw [hc] at hs
    cases hs
    have hr : (s.calls i).copy = some r := by rw [hc]; rfl
    refine h.update hi hr (fun r' devices hinfo hrow => ?_) fun _ => inserting_fetched
    exact callOk_fetched (h.admitted i hi).2 (hinfo ▸ (hcall.copy r hr).1) hrow rfl
  | insertInfo r =>
    rw [hc] at hs
    exact h.insertInfo hi hc hs
  | updateInfo r =>
    rw [hc] at hs
    cases hs
    have hr : (s.calls i).copy = some r := by rw [hc]; rfl
    obtain ⟨hkey, hv, -⟩ := hcall.copy r hr
    refine h.update hi hr (fun r' devices hinfo hrow => ?_) fun _ => rfl
    refine callOk_copy rfl rfl rfl (hinfo ▸ hkey) ?_ hrow rfl
    rw [DeviceRecord.valid, hinfo]
    exact hv
  | getContact r =>
    rw [hc] at hs
    simp only [Apart, hc] at ha
    exact h.getContact hi hc ha hs
  | insertContact r =>
    rw [hc] at hs
    exact h.insertContact hi hc hs
  | storeArn r dc =>
    rw [hc] at hs
    cases hs
    have hr : (s.calls i).copy = some r := by rw [hc]; rfl
    have hdc := hcall.contact dc (by rw [hc]; rfl)
    refine h.update hi hr (fun _ _ _ _ => callOk_of_not_busy rfl fun dc' hdc' => ?_) fun _ => rfl
    cases hdc'
    exact hdc
  | newClient r dc =>
    rw [hc] at hs
    exact h.newClient hi hc hs
  | touch dc found =>
    rw [hc] at hs
    exact h.touch hi hc hs
  | _ =>
    rw [hc] at hs
    cases hs

/-- `validateClient`, when AWS returns attributes. -/
theorem Sound.register (h : Sound s) (hi : i < s.ncalls) (ha : Apart s (.register i ans))
    (hs : register env s i ans (s.calls i) = some s') : Sound s' := by
  have hcall := h.calls i
  cases hc : s.calls i with
  | validateClient r dc =>
    rw [hc] at hs hcall
    have hb : (s.calls i).busy := by rw [hc]; rfl
    have hleave : ∀ {c}, c.busy = false → c.contact = some dc → Sound (s.goto i c) :=
      fun hb hdc => h.leave hi hb (.inr (by rw [hc]; exact hdc))
    simp only [Create.register] at hs
    split at hs
    next =>
      generalize hreg : r.info.registerAws (env.customerData r.info) ans = out at hs
      obtain ⟨di, reg, out⟩ := out
      obtain ⟨arn, rfl⟩ := DeviceInfo.registerAws_eq hreg
      cases out with
      | done needDiUpdate =>
        cases needDiUpdate with
        | true =>
          cases hs
          exact h.goto hi (callOk_validated hcall arn rfl) (fun _ => h.apart hb)
            (fun hins => (nomatch hins))
        | false =>
          cases hs
          exact hleave rfl rfl
      | failed e =>
        dsimp only at hs
        split at hs <;> cases hs
        · exact hleave rfl rfl
        · exact hleave rfl rfl
      | panicked =>
        simp only [Apart, DeviceInfo.registerAws_panicked hreg] at ha
    next =>
      cases hs
      exact hleave rfl rfl
  | _ =>
    rw [hc] at hs
    cases hs

/-- A new call has done nothing yet. -/
theorem Sound.begin (h : Sound s) (hpi : pi.sessionId ≠ [] ∧ (pi.deviceInfo none).validate.toBool)
    (hb : c.busy = false) (hcontact : c.contact = none) :
    Sound { s.goto s.ncalls c with
      pis := Function.update s.pis s.ncalls pi
      ncalls := s.ncalls + 1 } := by
  have hold : ∀ j, j ≠ s.ncalls → Function.update s.calls s.ncalls c j = s.calls j ∧
      Function.update s.pis s.ncalls pi j = s.pis j :=
    fun j hne => ⟨Function.update_of_ne hne .., Function.update_of_ne hne ..⟩
  -- the new call is nowhere where another could be in its way
  have hne : ∀ j, (Function.update s.calls s.ncalls c j).busy → j ≠ s.ncalls := by
    rintro j hj rfl
    rw [Function.update_self, hb] at hj
    cases hj
  constructor
  · exact h.alive
  · intro j hj
    have hj' : s.ncalls < j := hj
    exact (hold j (Nat.ne_of_gt hj')).1.trans (h.unborn j (Nat.le_of_lt hj'))
  · intro j hj
    by_cases heq : j = s.ncalls
    · subst heq
      simp only [Function.update_self]
      exact hpi
    · simp only [(hold j heq).2]
      exact h.admitted j (Nat.lt_of_le_of_ne (Nat.le_of_lt_succ hj) heq)
  · exact h.tables
  · intro j
    by_cases heq : j = s.ncalls
    · subst heq
      have hcall : CallOk s.devices s.contacts pi c :=
        callOk_of_not_busy hb fun dc hdc => by rw [hcontact] at hdc; cases hdc
      simpa only [Backend.goto, Function.update_self] using hcall
    · simpa only [Backend.goto, (hold j heq).1, (hold j heq).2] using h.calls j
  · intro i j hi hj heq
    have hi' := hold i (hne i hi)
    have hj' := hold j (hne j hj)
    simp only [Backend.goto, hi'.1, hj'.1, hi'.2, hj'.2] at hi hj heq
    exact h.oneBusy i j hi hj heq
  · intro i j hi hj heq
    have hi' := hold i (hne i (busy_of_inserting hi))
    have hj' := hold j (hne j (busy_of_inserting hj))
    simp only [Backend.goto, hi'.1, hj'.1, hi'.2, hj'.2] at hi hj heq
    exact h.oneInsert i j hi hj heq

theorem Sound.step (h : Sound s) (ha : Apart s a) (hs : step env s a = some s') : Sound s' := by
  have hborn : ∀ i, s.calls i ≠ .absent → i < s.ncalls := by
    intro i hne
    by_contra hle
    exact hne (h.unborn i (Nat.le_of_not_lt hle))
  simp only [Create.step, h.alive, Bool.false_eq_true, if_false] at hs
  cases a with
  | call pi validId =>
    cases hs
    refine h.begin ha ?_ ?_
    · split <;> rfl
    · split <;> rfl
  | next i =>
    refine h.next (hborn i fun hc => ?_) ha hs
    simp only [hc] at hs
    cases hs
  | register i ans =>
    refine h.register (hborn i fun hc => ?_) ha hs
    simp only [hc] at hs
    cases hs

/-! ## The contacts -/

theorem update_contacts (env : Env) (s : Backend) (i : Nat) (r : DeviceRecord)
    (k : DeviceRecord → Creation) : (update env s i r k).contacts = s.contacts := by
  rw [update]
  split <;> rfl

theorem register_contacts (hs : register env s i ans c = some s') : s'.contacts = s.contacts := by
  cases c with
  | validateClient r dc =>
    simp only [register] at hs
    split at hs
    · split at hs
      · cases hs
        rfl
      · cases hs
        rfl
      · split at hs <;> cases hs <;> rfl
      · cases hs
        rfl
    · cases hs
      rfl
  | _ => cases hs

/-- A database operation of a call leaves the contacts alone, inserts a new one or updates the one
that was found. -/
theorem next_writes (hs : next env s i pi c = some s') :
    Relation.ReflGen ContactWrite s.contacts s'.contacts := by
  cases c with
  | steal r | storeArn r _ | updateInfo r =>
    cases hs
    rw [update_contacts]
  | getInfo =>
    simp only [Create.next] at hs
    split at hs
    · split at hs <;> cases hs <;> exact .refl
    · split_ifs at hs <;> cases hs <;> exact .refl
  | insertInfo r =>
    simp only [Create.next] at hs
    split at hs <;> cases hs <;> exact .refl
  | getContact r =>
    simp only [Create.next] at hs
    split at hs <;> cases hs <;> exact .refl
  | insertContact r =>
    simp only [Create.next] at hs
    split at hs <;> cases hs
    next t ht =>
      obtain ⟨hfree, rfl⟩ := Table.insert_eq_some ht
      exact .single (.insert r.info.contactKey hfree)
    next => exact .refl
  | newClient r dc =>
    simp only [Create.next] at hs
    split at hs
    · cases hs
      exact .refl
    · split at hs <;> cases hs <;> exact .refl
  | touch dc found =>
    simp only [Create.next] at hs
    split at hs <;> cases hs
    next t ht =>
      obtain ⟨⟨row, hrow, hid⟩, rfl⟩ := Table.update_eq_some ht
      exact .single (.update found (by rw [hrow, Option.map_some, hid]))
    next => exact .refl
  | _ => cases hs

/-- What a step does to the contacts is what the goroutines of `Device.Contact` may do to them,
apart from the times. -/
theorem step_writes (hs : step env s a = some s') :
    Relation.ReflGen ContactWrite s.contacts s'.contacts := by
  simp only [Create.step] at hs
  split at hs
  · cases hs
  · cases a with
    | call pi validId =>
      cases hs
      exact .refl
    | next i => exact next_writes hs
    | register i ans => rw [register_contacts hs]

/-! ## Whole runs -/

/-- No call has begun, and the rows the tables hold are ones that could have been written. -/
structure Started (s : Backend) : Prop where
  calls : ∀ i, s.calls i = .absent
  alive : s.died = false
  none : s.ncalls = 0
  tables : TablesOk s.devices s.contacts

theorem Started.sound (h : Started s) : Sound s where
  alive := h.alive
  unborn i _ := h.calls i
  admitted i hi := by rw [h.none] at hi; cases hi
  tables := h.tables
  calls i := by
    rw [h.calls i]
    exact callOk_of_not_busy rfl fun _ hdc => (nomatch hdc)
  oneBusy i _ hi := by rw [h.calls i] at hi; cases hi
  oneInsert i _ hi := by rw [h.calls i] at hi; cases hi

/-- In every run in which no two calls for an identity are at the insert of the contact record
together, and no two calls work on one device row, no call panics, and the record that a call has is
the one in the table. -/
theorem contact_shared (h₀ : Started s) (h : Run (step env) Apart s as s') :
    s'.died = false ∧ ∀ i dc, (s'.calls i).contact = some dc → dc.key = contactKey (s'.pis i) ∧
      ∃ row, s'.contacts (contactKey (s'.pis i)) = some row ∧ row.key = dc.key := by
  have hs : Sound s' := h.inv (fun hs ha hstep => hs.step ha hstep) h₀.sound
  refine ⟨hs.alive, fun i dc hdc => ?_⟩
  obtain ⟨hkey, hsome⟩ := (hs.calls i).contact dc hdc
  obtain ⟨row, hrow⟩ := Option.isSome_iff_exists.mp hsome
  exact ⟨hkey, row, hrow, (hs.tables.contacts _ row hrow).trans hkey.symm⟩

/-- A registration of one device, in the session given. -/
def iphonePi (session : GoString) : MailPingInformation where
  userId := GoString.lit "us-east-1a-1"
  clientContext := GoString.lit "ctx"
  deviceId := GoString.lit "NCHO1"
  sessionId := session
  platform := GoString.lit "ios"
  pushService := pushServiceAPNS
  pushToken := List.replicate 64 'a'
  protocol := GoString.lit "IMAP"

/-- A host that goes on when a push fails. -/
def lenientEnv : Env where
  host := GoString.lit "host"
  ignorePushFailures := true

def endpoint : AwsAnswers where
  register := .ok (GoString.lit "arn:aws:sns:1")
  attributes := .ok (some [])

/-- Two calls for one identity look for the contact record one after the other. -/
def politeActs : List Act :=
  [.call (iphonePi ['1']) true, .call (iphonePi ['2']) true, .next 0, .next 1, .next 0, .next 1,
    .next 0, .next 0, .next 1, .register 0 endpoint, .register 1 endpoint, .next 0, .next 1, .next 0,
    .next 1, .next 0, .next 1]

/-- Both look for it before either inserts it. -/
def racingActs : List Act :=
  [.call (iphonePi ['1']) true, .call (iphonePi ['2']) true, .next 0, .next 1, .next 0, .next 1,
    .next 0, .next 1, .next 0, .next 1]

theorem contact_shared_polite :
    ∃ s : Backend, Run (step lenientEnv) Apart {} politeActs s ∧
      s.calls 0 = .created ⟨contactKey (iphonePi ['1']), 1⟩ ∧
      s.calls 1 = .created ⟨contactKey (iphonePi ['1']), 1⟩ ∧ s.died = false := by
  have h₀ : Started {} :=
    ⟨fun _ => rfl, rfl, rfl, ⟨fun _ _ hr => (nomatch hr), fun _ _ hr => (nomatch hr)⟩⟩
  have h : Run (step lenientEnv) Apart {} politeActs _ := Run.of_execIf rfl
  exact ⟨_, h, rfl, rfl, (contact_shared h₀ h).1⟩

/-- Both calls find no contact record, and the insert of the second one fails. -/
theorem second_insert_panics :
    ∃ s : Backend, Run (step lenientEnv) Free {} racingActs s ∧
      contactKey (s.pis 0) = contactKey (s.pis 1) ∧ s.calls 1 = .panicked ∧ s.died = true :=
  ⟨_, Run.of_exec rfl, rfl, rfl, rfl⟩

end Pinger.Create
