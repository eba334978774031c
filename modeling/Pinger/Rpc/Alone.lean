import Pinger.Rpc.Failure

/-! # A creation on its own

The calls of `Creation` go on one database operation at a time, and `newMailClientContext` is one
function. A call that runs by itself, with no operation reporting an error, comes to what the
function returns, on the tables that the function leaves. -/

namespace Pinger.Create

open Transition

variable {env : Env} {o : Outside} {pi : MailPingInformation} {t : Tables} {r : DeviceRecord}

/-- Call `i` goes on at `c`, and the tables are `t`. -/
def Backend.come (s : Backend) (i : Nat) (t : Tables) (c : Creation) : Backend :=
  { s.goto i c with
    devices := t.devices, contacts := t.contacts, died := s.died || c = .panicked }

/-- Call `i` of the backend is at `c`, and the tables are `t`. -/
structure At (s : Backend) (i : Nat) (pi : MailPingInformation) (t : Tables) (c : Creation) :
    Prop where
  call : s.calls i = c
  info : s.pis i = pi
  devices : s.devices = t.devices
  contacts : s.contacts = t.contacts
  alive : c ≠ .panicked → s.died = false

/-- When call `i` runs alone from `c` on the tables `t`, it comes to `c'` on `t'`. -/
def ComesTo (env : Env) (ans : AwsAnswers) (i : Nat) (pi : MailPingInformation) (t : Tables)
    (c : Creation) (t' : Tables) (c' : Creation) : Prop :=
  ∀ s, At s i pi t c → ∃ as s', (∀ a ∈ as, a = .next i ∨ a = .register i ans) ∧
    Run (step env) Free s as s' ∧ At s' i pi t' c'

variable {ans : AwsAnswers} {i : Nat} {s : Backend} {t' t'' : Tables} {c c' c'' : Creation}

theorem At.goto (h : At s i pi t c) (hc : c' ≠ .panicked) : s.goto i c' = s.come i t c' := by
  obtain ⟨-, -, hd, hcs, -⟩ := h
  simp [Backend.come, Backend.goto, hd, hcs, hc]

theorem At.putDevices (h : At s i pi t c) (hc : c' ≠ .panicked) (devices : DeviceTable) :
    { s.goto i c' with devices } = s.come i { t with devices } c' := by
  obtain ⟨-, -, -, hcs, -⟩ := h
  simp [Backend.come, Backend.goto, hcs, hc]

theorem At.putContacts (h : At s i pi t c) (hc : c' ≠ .panicked) (contacts : ContactTable) :
    { s.goto i c' with contacts } = s.come i { t with contacts } c' := by
  obtain ⟨-, -, hd, -, -⟩ := h
  simp [Backend.come, Backend.goto, hd, hc]

theorem At.panic (h : At s i pi t c) : s.panic i = s.come i t .panicked := by
  obtain ⟨-, -, hd, hcs, -⟩ := h
  simp [Backend.come, Backend.panic, Backend.goto, hd, hcs]

theorem At.come (h : At s i pi t c) (hc : c ≠ .panicked) : At (s.come i t' c') i pi t' c' :=
  ⟨Function.update_self .., h.info, rfl, rfl, fun hne => by simp [Backend.come, h.alive hc, hne]⟩

theorem ComesTo.refl : ComesTo env ans i pi t c t c :=
  fun s h => ⟨[], s, by simp, .nil, h⟩

theorem ComesTo.trans (h : ComesTo env ans i pi t c t' c')
    (h' : ComesTo env ans i pi t' c' t'' c'') :
    ComesTo env ans i pi t c t'' c'' := by
  intro s hs
  obtain ⟨as, s', has, hrun, hs'⟩ := h s hs
  obtain ⟨bs, s'', hbs, hrun', hs''⟩ := h' s' hs'
  refine ⟨as ++ bs, s'', fun a ha => ?_, hrun.append hrun', hs''⟩
  exact (List.mem_append.mp ha).elim (has a) (hbs a)

/-- One database operation. -/
theorem ComesTo.next (hc : c ≠ .panicked)
    (h : ∀ s, At s i pi t c → next env s i pi c = some (s.come i t' c')) :
    ComesTo env ans i pi t c t' c' := by
  intro s hs
  refine ⟨[.next i], s.come i t' c', by simp, .single trivial ?_, hs.come hc⟩
  simp [step, hs.alive hc, hs.call, hs.info, h s hs]

/-- The calls of `registerAws`. -/
theorem ComesTo.register (hc : c ≠ .panicked)
    (h : ∀ s, At s i pi t c → register env s i ans c = some (s.come i t' c')) :
    ComesTo env ans i pi t c t' c' := by
  intro s hs
  refine ⟨[.register i ans], s.come i t' c', by simp, .single trivial ?_, hs.come hc⟩
  simp [step, hs.alive hc, hs.call, h s hs]

/-- Where a call goes on after a function: with its value, or with its error, or not at all. -/
def Creation.after (k : DeviceRecord → Creation) (failed : Creation) :
    Except Stop DeviceRecord → Creation
  | .ok r => k r
  | .error (.err _) => failed
  | .error .panicked => .panicked

theorem comesTo_update (hc : c ≠ .panicked) (k : DeviceRecord → Creation)
    (hk : ∀ r, k r ≠ .panicked)
    (h : ∀ s, At s i pi t c → Create.next env s i pi c = some (update env s i r k))
    (failed : Creation) :
    ComesTo env ans i pi t c (updateRow env r t).2 (.after k failed (updateRow env r t).1) := by
  refine .next hc fun s hs => ?_
  rw [h s hs, update, updateRow, hs.devices]
  rcases r.update env.host t.devices with ⟨r', _ | devices⟩
  · exact congrArg some hs.panic
  · exact congrArg some (hs.putDevices (hk r') devices)

theorem fetched_eq : fetched pi r =
    if r.info.changes pi.request then .updateInfo { r with info := r.info.updated pi.request }
    else .getContact { r with info := r.info.updated pi.request } := rfl

theorem fetched_ne_panicked : fetched pi r ≠ .panicked := by
  rw [fetched_eq]
  split <;> simp

theorem comesTo_fetched (t : Tables) (r : DeviceRecord) : ComesTo env ans i pi t (fetched pi r)
    (updateDeviceInfo env pi r t).2
    (.after .getContact (.failed none) (updateDeviceInfo env pi r t).1) := by
  rw [updateDeviceInfo_eq, fetched_eq]
  split
  · exact comesTo_update (by simp) _ (by simp) (fun s _ => rfl) _
  · exact .refl

theorem comesTo_insert (hnone : t.devices (deviceKey pi) = none) (hins : o.insertInfo = none) :
    ComesTo env ans i pi t .getInfo (insertDeviceInfo env o pi t).2
      (.after .getContact (.failed none) (insertDeviceInfo env o pi t).1) := by
  unfold insertDeviceInfo
  split
  next hsession =>
    refine .next (by simp) fun s hs => ?_
    simp only [Create.next, hs.devices, hnone, hsession, if_true]
    exact congrArg some hs.panic
  next hsession =>
    rw [hins]
    cases hv : (pi.deviceInfo none).validate with
    | error e =>
      refine .next (by simp) fun s hs => ?_
      simp only [Create.next, hs.devices, hnone, hsession, hv, Except.toBool, if_false]
      exact congrArg some (hs.goto (by simp))
    | ok u =>
      have hvalid : ComesTo env ans i pi t .getInfo t
          (.insertInfo { info := pi.deviceInfo none }) := by
        refine .next (by simp) fun s hs => ?_
        simp only [Create.next, hs.devices, hnone, hsession, hv, Except.toBool, if_false, if_true]
        exact congrArg some (hs.goto (by simp))
      refine hvalid.trans (.next (by simp) fun s hs => ?_)
      simp only [Create.next, hs.devices]
      rcases ({ info := pi.deviceInfo none } : DeviceRecord).insert env.host t.devices with
        ⟨r', _ | devices⟩
      · exact congrArg some (hs.goto (by simp))
      · exact congrArg some (hs.putDevices (by simp) devices)

/-- No operation on the tables reports an error, and the identity is valid. -/
structure Outside.Calm (o : Outside) : Prop where
  cognito : o.cognito = none
  getInfo : o.getInfo = none
  insertInfo : o.insertInfo = none
  getContact : o.getContact = none

theorem comesTo_deviceRow (env : Env) (ans : AwsAnswers) (i : Nat) (pi : MailPingInformation)
    (t : Tables) (ho : o.Calm) : ComesTo env ans i pi t .getInfo (deviceRow env o pi t).2
    (.after .getContact (.failed none) (deviceRow env o pi t).1) := by
  rw [deviceRow, getDeviceInfo, ho.getInfo]
  cases hrow : t.devices (deviceKey pi) with
  | none => exact comesTo_insert hrow ho.insertInfo
  | some r =>
    dsimp only
    by_cases hours : r.pinger ≠ env.host
    · rw [if_pos hours]
      have hsteal : ComesTo env ans i pi t .getInfo t (.steal { r with pinger := env.host }) := by
        refine .next (by simp) fun s hs => ?_
        simp only [Create.next, hs.devices, hrow, if_pos hours]
        exact congrArg some (hs.goto (by simp))
      refine hsteal.trans ?_
      have hup : ComesTo env ans i pi t (.steal { r with pinger := env.host })
          (updateRow env { r with pinger := env.host } t).2
          (.after (fetched pi) (.failed none) (updateRow env { r with pinger := env.host } t).1) :=
        comesTo_update (by simp) _ (fun _ => fetched_ne_panicked) (fun s _ => rfl) _
      rcases hrow' : updateRow env { r with pinger := env.host } t with ⟨⟨e | _⟩ | r', t'⟩
      · rwa [hrow'] at hup
      · rwa [hrow'] at hup
      · rw [hrow'] at hup
        exact hup.trans (comesTo_fetched t' r')
    · rw [if_neg hours]
      have hfetch : ComesTo env ans i pi t .getInfo t (fetched pi r) := by
        refine .next (by simp) fun s hs => ?_
        simp only [Create.next, hs.devices, hrow, if_neg hours]
        exact congrArg some (hs.goto fetched_ne_panicked)
      exact hfetch.trans (comesTo_fetched t r)

theorem comesTo_getContactInfoObj (env : Env) (ans : AwsAnswers) (i : Nat)
    (pi : MailPingInformation) (ho : o.Calm) (t : Tables) (r : DeviceRecord) :
    ∃ dc, ComesTo env ans i pi t (.getContact r) (getContactInfoObj o r t).2
        (.validateClient r dc) ∧
      (getContactInfoObj o r t).1 = .ok r := by
  rw [getContactInfoObj, ho.getContact]
  cases hrow : t.contacts r.info.contactKey with
  | some dc =>
    refine ⟨dc, .next (by simp) fun s hs => ?_, rfl⟩
    simp only [Create.next, hs.contacts, hrow]
    exact congrArg some (hs.goto (by simp))
  | none =>
    refine ⟨⟨r.info.contactKey, 1⟩, ?_, rfl⟩
    have hinsert : ComesTo env ans i pi t (.getContact r) t (.insertContact r) := by
      refine .next (by simp) fun s hs => ?_
      simp only [Create.next, hs.contacts, hrow]
      exact congrArg some (hs.goto (by simp))
    refine hinsert.trans (.next (by simp) fun s hs => ?_)
    simp only [Create.next, hs.contacts, Table.insert, hrow, Option.isSome_none]
    exact congrArg some (hs.putContacts (by simp) _)

theorem comesTo_validateClient (env : Env) (o : Outside) (i : Nat) (pi : MailPingInformation)
    (t : Tables) (r : DeviceRecord) (dc : DeviceContact) :
    ComesTo env o.aws i pi t (.validateClient r dc) (validateClient env o r t).2
      (.after (fun r' => .newClient r' dc) (.failed (some dc)) (validateClient env o r t).1) := by
  unfold validateClient checkClient
  by_cases hsns : Push.viaSns env.cfg r.info.pushService
  · rw [if_pos hsns]
    rcases hr : r.info.registerAws (env.customerData r.info) o.aws with ⟨di, reg, out⟩
    match out with
    | .panicked =>
      refine .register (by simp) fun s hs => ?_
      simp only [register, if_pos hsns, hr]
      exact congrArg some hs.panic
    | .done false =>
      refine .register (by simp) fun s hs => ?_
      simp only [register, if_pos hsns, hr]
      exact congrArg some (hs.goto (by simp))
    | .done true =>
      have hstore : ComesTo env o.aws i pi t (.validateClient r dc) t
          (.storeArn { r with info := di } dc) := by
        refine .register (by simp) fun s hs => ?_
        simp only [register, if_pos hsns, hr]
        exact congrArg some (hs.goto (by simp))
      exact hstore.trans (comesTo_update (by simp) _ (by simp) (fun s _ => rfl) _)
    | .failed e =>
      refine .register (by simp) fun s hs => ?_
      simp only [register, if_pos hsns, hr]
      split
      · exact congrArg some (hs.goto (by simp))
      · exact congrArg some (hs.goto (by simp))
  · rw [if_neg hsns]
    refine .register (by simp) fun s hs => ?_
    rw [register, if_neg hsns]
    exact congrArg some (hs.goto (by simp))

/-- Where a call has returned what the function returns. -/
def Returned : Creation → Except Stop DeviceRecord → Prop
  | .created _, .ok _ => True
  | .failed _, .error (.err _) => True
  | .panicked, .error .panicked => True
  | _, _ => False

/-- Every contact record is under its own key. -/
def Keyed (contacts : ContactTable) : Prop :=
  ∀ k dc, contacts k = some dc → dc.key = k

theorem comesTo_newClient (hproto : Web.protocolSwitch pi.protocol ≠ none)
    (hkeyed : Keyed t.contacts) (r : DeviceRecord) (dc : DeviceContact) :
    ComesTo env ans i pi t (.newClient r dc) (updateLastContact r t) (.created dc) := by
  rw [updateLastContact]
  have hsome : (Web.protocolSwitch pi.protocol).isNone = false := by
    simpa [Option.isSome_iff_ne_none] using hproto
  cases hrow : t.contacts r.info.contactKey with
  | none =>
    refine .next (by simp) fun s hs => ?_
    simp only [Create.next, hs.contacts, hrow, hsome]
    exact congrArg some (hs.goto (by simp))
  | some found =>
    have htouch : ComesTo env ans i pi t (.newClient r dc) t (.touch dc found) := by
      refine .next (by simp) fun s hs => ?_
      simp only [Create.next, hs.contacts, hrow, hsome]
      exact congrArg some (hs.goto (by simp))
    refine htouch.trans (.next (by simp) fun s hs => ?_)
    have hfound : t.contacts found.key = some found := hkeyed _ _ hrow ▸ hrow
    simp only [Create.next, hs.contacts, Table.update, hfound, Option.map_some, if_true]
    exact congrArg some (hs.putContacts (by simp) _)

theorem updateRow_contacts (env : Env) (r : DeviceRecord) (t : Tables) :
    (updateRow env r t).2.contacts = t.contacts := by
  unfold updateRow
  split <;> rfl

theorem updateDeviceInfo_contacts : (updateDeviceInfo env pi r t).2.contacts = t.contacts := by
  rw [updateDeviceInfo_eq]
  split
  · exact updateRow_contacts ..
  · rfl

theorem insertDeviceInfo_contacts : (insertDeviceInfo env o pi t).2.contacts = t.contacts := by
  unfold insertDeviceInfo
  repeat' split
  all_goals rfl

theorem deviceRow_contacts : (deviceRow env o pi t).2.contacts = t.contacts := by
  rw [deviceRow, getDeviceInfo]
  cases o.getInfo with
  | some text => rfl
  | none =>
    cases t.devices (deviceKey pi) with
    | none => exact insertDeviceInfo_contacts
    | some r =>
      by_cases hours : r.pinger ≠ env.host
      · have hup := updateRow_contacts env { r with pinger := env.host } t
        dsimp only
        rw [if_pos hours]
        generalize updateRow env { r with pinger := env.host } t = out at hup
        rcases out with ⟨e | r', t'⟩
        · exact hup
        · exact updateDeviceInfo_contacts.trans hup
      · dsimp only
        rw [if_neg hours]
        exact updateDeviceInfo_contacts

theorem validateClient_contacts : (validateClient env o r t).2.contacts = t.contacts := by
  unfold validateClient
  split
  · rfl
  · rfl
  · exact updateRow_contacts ..
  · rfl

theorem Keyed.put (h : Keyed contacts) (dc : DeviceContact) :
    Keyed (contacts.put dc.key dc) := by
  intro k dc' hk
  by_cases hkey : k = dc.key
  · subst hkey
    cases (Table.put_self ..).symm.trans hk
    rfl
  · rw [Table.put_of_ne hkey] at hk
    exact h k dc' hk

theorem getContactInfoObj_keyed (o : Outside) (r : DeviceRecord) (h : Keyed t.contacts) :
    Keyed (getContactInfoObj o r t).2.contacts := by
  rw [getContactInfoObj]
  split
  · exact h
  · exact h
  · exact h.put ⟨r.info.contactKey, 1⟩

theorem comesTo_newMailClientContext (env : Env) (pi : MailPingInformation) (i : Nat) (ho : o.Calm)
    (hkeyed : Keyed t.contacts) :
    ∃ c, ComesTo env o.aws i pi t .getInfo (newMailClientContext env o pi t).2 c ∧
      Returned c (newMailClientContext env o pi t).1 := by
  rw [newMailClientContext_eq ho.cognito]
  have hrow := comesTo_deviceRow env o.aws i pi t ho
  have hk : Keyed (deviceRow env o pi t).2.contacts := deviceRow_contacts.symm ▸ hkeyed
  generalize deviceRow env o pi t = out at hrow hk
  rcases out with ⟨⟨e | _⟩ | r, t₁⟩
  · exact ⟨_, hrow, trivial⟩
  · exact ⟨_, hrow, trivial⟩
  dsimp only [finish]
  obtain ⟨dc, hcontact, hok⟩ := comesTo_getContactInfoObj env o.aws i pi ho t₁ r
  have hk' := getContactInfoObj_keyed o r hk
  generalize getContactInfoObj o r t₁ = out at hcontact hok hk'
  obtain ⟨_, t₂⟩ := out
  obtain rfl := hok
  dsimp only
  have hvalidate := comesTo_validateClient env o i pi t₂ r dc
  have hk'' : Keyed (validateClient env o r t₂).2.contacts := by
    rw [validateClient_contacts]
    exact hk'
  generalize validateClient env o r t₂ = out at hvalidate hk''
  have hto := (hrow.trans hcontact).trans hvalidate
  rcases out with ⟨⟨e | _⟩ | r', t₃⟩
  · exact ⟨_, hto, trivial⟩
  · exact ⟨_, hto, trivial⟩
  dsimp only
  by_cases hproto : Web.protocolSwitch pi.protocol = none
  · rw [if_pos (by simp [hproto])]
    have hfail : ComesTo env o.aws i pi t₃ (.newClient r' dc) t₃ (.failed (some dc)) := by
      refine .next (by simp) fun s hs => ?_
      simp only [Create.next, hproto]
      exact congrArg some (hs.goto (by simp))
    exact ⟨_, hto.trans hfail, trivial⟩
  · rw [if_neg (by simpa using hproto)]
    exact ⟨_, hto.trans (comesTo_newClient hproto hk'' r' dc), trivial⟩

/-- A new call that nothing else comes between ends as the function does, and leaves the tables that
the function leaves. -/
theorem call_alone (env : Env) (pi : MailPingInformation) (s : Backend) (halive : s.died = false)
    (ho : o.Calm) (hkeyed : Keyed s.contacts) :
    ∃ as s', (∀ a ∈ as, a = .next s.ncalls ∨ a = .register s.ncalls o.aws) ∧
      Run (step env) Free s (.call pi true :: as) s' ∧
      s'.devices = (newMailClientContext env o pi ⟨s.devices, s.contacts⟩).2.devices ∧
      s'.contacts = (newMailClientContext env o pi ⟨s.devices, s.contacts⟩).2.contacts ∧
      Returned (s'.calls s.ncalls) (newMailClientContext env o pi ⟨s.devices, s.contacts⟩).1 := by
  obtain ⟨c, hto, hret⟩ :=
    comesTo_newMailClientContext (t := ⟨s.devices, s.contacts⟩) env pi s.ncalls ho hkeyed
  let s₁ : Backend :=
    { s.goto s.ncalls .getInfo with
      pis := Function.update s.pis s.ncalls pi
      ncalls := s.ncalls + 1 }
  have hcall : step env s (.call pi true) = some s₁ := by
    rw [step, if_neg (by simp [halive])]
    rfl
  obtain ⟨as, s', has, hrun, hs'⟩ := hto s₁
    ⟨Function.update_self .., Function.update_self .., rfl, rfl, fun _ => halive⟩
  exact ⟨as, s', has, .cons trivial hcall hrun, hs'.devices, hs'.contacts, hs'.call ▸ hret⟩

end Pinger.Create
