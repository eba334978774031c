import Pinger.Device.Update

/-! # Registering a device with SNS

`registerAws` against a faithful SNS, which returns the attributes an endpoint has and replaces
those it is passed, and against the table, which gets the ARN last. The decoded token exists only
for a device that had no ARN. For any other device the token of the endpoint stays what it was. -/

namespace Pinger

/-! ## Attributes -/

namespace Attributes

def enabled : GoString := GoString.lit "Enabled"
def token : GoString := GoString.lit "Token"
def customUserData : GoString := GoString.lit "CustomUserData"

/-- `SetEndpointAttributes` replaces the attributes that are passed. -/
def replace (attrs passed : Attributes) : Attributes := passed ++ attrs

variable {attrs attrs' : Attributes}

theorem lookup_filter_ne (h : name' ≠ name) (attrs : Attributes) :
    (attrs.filter (·.1 ≠ name)).lookup name' = attrs.lookup name' := by
  induction attrs with
  | nil => rfl
  | cons a attrs ih =>
    obtain ⟨k, v⟩ := a
    by_cases hk : k = name
    · subst hk
      rw [List.filter_cons_of_neg (by simp), List.lookup_cons, beq_eq_false_iff_ne.mpr h, ih]
    · rw [List.filter_cons_of_pos (by simpa using hk), List.lookup_cons, List.lookup_cons, ih]

theorem lookup_set (attrs : Attributes) (name value name' : GoString) :
    (attrs.set name value).lookup name' = if name' = name then some value else attrs.lookup name' := by
  rw [set, List.lookup_cons]
  by_cases h : name' = name
  · rw [beq_iff_eq.mpr h, if_pos h]
  · rw [beq_eq_false_iff_ne.mpr h, if_neg h]
    exact lookup_filter_ne h attrs

theorem get_set_self (attrs : Attributes) (name value : GoString) :
    (attrs.set name value).get name = value := by
  rw [get, lookup_set, if_pos rfl, Option.getD_some]

theorem get_set_of_ne (h : name' ≠ name) (value : GoString) :
    (attrs.set name value).get name' = attrs.get name' := by
  rw [get, lookup_set, if_neg h, get]

/-- Every attribute there is, is passed. -/
def Covers (passed attrs : Attributes) : Prop :=
  ∀ name, passed.lookup name = none → attrs.lookup name = none

theorem Covers.set (h : Covers passed attrs) (name value : GoString) :
    Covers (Attributes.set passed name value) attrs := by
  intro name' hnone
  rw [lookup_set] at hnone
  split at hnone
  · cases hnone
  · exact h name' hnone

/-- Set an attribute when it is to be changed. -/
def setIf (change : Prop) [Decidable change] (name value : GoString) (attrs : Attributes) : Attributes :=
  if change then attrs.set name value else attrs

variable {change : Prop} [Decidable change]

theorem get_setIf (name value : GoString) (attrs : Attributes) :
    (attrs.setIf change name value).get name = if change then value else attrs.get name := by
  unfold setIf
  split
  · exact get_set_self ..
  · rfl

theorem get_setIf_of_ne (h : name' ≠ name) (value : GoString) (attrs : Attributes) :
    (attrs.setIf change name value).get name' = attrs.get name' := by
  unfold setIf
  split
  · exact get_set_of_ne h _
  · rfl

theorem Covers.setIf (h : Covers passed attrs) (name value : GoString) :
    Covers (Attributes.setIf change name value passed) attrs := by
  unfold Attributes.setIf
  split
  · exact h.set name value
  · exact h

/-- Attributes that cover the old ones replace them. -/
theorem get_replace (h : Covers passed attrs) (name : GoString) :
    (attrs.replace passed).get name = passed.get name := by
  rw [get, replace, List.lookup_append, get]
  cases hp : passed.lookup name with
  | none => rw [h name hp, Option.or_none]
  | some value => rfl

end Attributes

open Attributes (enabled token customUserData)

/-- The token of the endpoint is written: it has none, or there is another one for it. -/
def tokenDiffers (pushToken : GoString) (attrs : Attributes) : Prop :=
  attrs.get token = [] ∨ pushToken ≠ [] ∧ pushToken ≠ attrs.get token

instance (pushToken : GoString) (attrs : Attributes) : Decidable (tokenDiffers pushToken attrs) :=
  inferInstanceAs (Decidable (_ ∨ _))

/-! The three changes to the map of the attributes, one after the other. -/

def enable (attrs : Attributes) : Attributes :=
  attrs.setIf (attrs.get enabled ≠ GoString.lit "true") enabled (GoString.lit "true")

def putToken (pushToken : GoString) (attrs : Attributes) : Attributes :=
  attrs.setIf (tokenDiffers pushToken attrs) token pushToken

def putData (customerData : GoString) (attrs : Attributes) : Attributes :=
  attrs.setIf (customerData ≠ attrs.get customUserData) customUserData customerData

/-- The attributes as `registerAws` leaves them in its map. -/
def finalAttributes (customerData pushToken : GoString) (attrs : Attributes) : Attributes :=
  putData customerData (putToken pushToken (enable attrs))

/-- They are passed to `SetEndpointAttributes` when one of them is new. -/
theorem wantedAttributes_eq (customerData pushToken : GoString) (attrs : Attributes) :
    wantedAttributes customerData pushToken attrs =
      if attrs.get enabled ≠ GoString.lit "true" ∨ tokenDiffers pushToken (enable attrs) ∨
          customerData ≠ (putToken pushToken (enable attrs)).get customUserData then
        some (finalAttributes customerData pushToken attrs)
      else none := rfl

theorem finalAttributes_of_unwanted (h : wantedAttributes customerData pushToken attrs = none) :
    finalAttributes customerData pushToken attrs = attrs := by
  rw [wantedAttributes_eq, ite_eq_right_iff] at h
  have hno := fun hd => Option.some_ne_none _ (h hd)
  rw [imp_false, not_or, not_or] at hno
  rw [finalAttributes, putData, Attributes.setIf, if_neg hno.2.2, putToken, Attributes.setIf,
    if_neg hno.2.1, enable, Attributes.setIf, if_neg hno.1]

theorem some_finalAttributes_of_wanted
    (h : wantedAttributes customerData pushToken attrs = some passed) :
    passed = finalAttributes customerData pushToken attrs := by
  rw [wantedAttributes_eq] at h
  split at h
  · exact (Option.some.inj h).symm
  · cases h

/-- The three attributes afterwards. -/
theorem finalAttributes_get (customerData pushToken : GoString) (attrs : Attributes) :
    (finalAttributes customerData pushToken attrs).get enabled = GoString.lit "true" ∧
    (finalAttributes customerData pushToken attrs).get token =
      (if tokenDiffers pushToken attrs then pushToken else attrs.get token) ∧
    (finalAttributes customerData pushToken attrs).get customUserData = customerData := by
  have hte : token ≠ enabled := by decide
  have hed : enabled ≠ customUserData := by decide
  have htd : token ≠ customUserData := by decide
  have htoken : (enable attrs).get token = attrs.get token := Attributes.get_setIf_of_ne hte ..
  refine ⟨?_, ?_, ?_⟩
  · rw [finalAttributes, putData, Attributes.get_setIf_of_ne hed, putToken,
      Attributes.get_setIf_of_ne hte.symm, enable, Attributes.get_setIf, ite_not]
    split
    next h => exact h
    next => rfl
  · rw [finalAttributes, putData, Attributes.get_setIf_of_ne htd, putToken, Attributes.get_setIf]
    simp only [tokenDiffers, htoken]
    rfl
  · rw [finalAttributes, putData, Attributes.get_setIf, ite_not]
    split
    next h => exact h.symm
    next => rfl

/-- All the attributes that were fetched are passed. -/
theorem finalAttributes_covers (customerData pushToken : GoString) (attrs : Attributes) :
    Attributes.Covers (finalAttributes customerData pushToken attrs) attrs := by
  have h₀ : Attributes.Covers attrs attrs := fun _ h => h
  exact ((h₀.setIf _ _).setIf _ _).setIf _ _

/-! ## The endpoint afterwards -/

/-- The endpoints of SNS. -/
abbrev Sns := GoString → Option Attributes

namespace DeviceInfo

/-- `customerData()`: the JSON text of the two ids. -/
def customerData (json : (deviceId userId : GoString) → GoString) (di : DeviceInfo) : GoString :=
  json di.deviceId di.userId

/-- The decoded token, which only a device without an ARN has. -/
def sentToken (di : DeviceInfo) : GoString :=
  if di.awsEndpointArn = [] then di.registerAwsToken.toOption.getD [] else []

/-- The ARN `registerAws` goes on with, when `RegisterEndpointArn` answers `register`. -/
def arnFor (register : Except GoString GoString) (di : DeviceInfo) : GoString :=
  if di.awsEndpointArn = [] then
    (Registration.arn ⟨di.pushService, di.sentToken, register⟩).getD []
  else di.awsEndpointArn

/-- The answers of a faithful SNS. `RegisterEndpointArn` answers `register`, and the calls of
`SetEndpointAttributes` fail with `setError` or succeed. -/
def answers (register : Except GoString GoString) (setError : Option GoString) (sns : Sns)
    (di : DeviceInfo) : AwsAnswers where
  register := register
  attributes := match sns (di.arnFor register) with
    | some attrs => .ok (some attrs)
    | none => .error (GoString.lit "NotFound")
  setAttributes := setError

/-- `registerAws` against a faithful SNS. -/
def registerAwsOn (json : (deviceId userId : GoString) → GoString)
    (register : Except GoString GoString) (setError : Option GoString) (sns : Sns)
    (di : DeviceInfo) : DeviceInfo × RegisterEnd × Sns :=
  let (di', _, out) := di.registerAws (di.customerData json) (di.answers register setError sns)
  match out, sns (di.arnFor register) with
  | .done _, some attrs =>
    match wantedAttributes (di.customerData json) di.sentToken attrs with
    | some passed =>
      (di', out, Function.update sns (di.arnFor register) (some (attrs.replace passed)))
    | none => (di', out, sns)
  | _, _ => (di', out, sns)

theorem length_of_registerAwsToken {di : DeviceInfo} (h : di.registerAwsToken = .ok tok) :
    decodeAPNSPushToken di.pushToken = .ok tok ∧ tok.length = 64 := by
  unfold registerAwsToken at h
  split at h
  · split at h
    · cases h
    next hdecode =>
      split at h
      · cases h
      next hlen =>
        cases h
        exact ⟨hdecode, not_not.mp hlen⟩
  · cases h

theorem fetchAttributes_done (h : fetchAttributes data ans tok need = .done b) :
    b = need ∧ ∃ attrs, ans.attributes = .ok (some attrs) := by
  unfold fetchAttributes at h
  split at h
  · cases h
  · cases h
  next attrs hattrs =>
    split at h
    · cases h
    · cases h
      exact ⟨rfl, attrs, hattrs⟩

/-- A successful call has the ARN it asked for the attributes of, and a device without an ARN had a
token. -/
theorem registerAws_done {di di' : DeviceInfo}
    (h : di.registerAws data ans = (di', reg, .done b)) :
    di' = { di with awsEndpointArn := di.arnFor ans.register } ∧
      (di.awsEndpointArn = [] → di.registerAwsToken = .ok di.sentToken) ∧
      ∃ attrs, ans.attributes = .ok (some attrs) := by
  have hcase := di.registerAws_cases data ans
  rw [h] at hcase
  generalize hout : RegisterEnd.done b = out at hcase
  cases hcase with
  | known hne =>
    rw [arnFor, if_neg hne]
    exact ⟨rfl, fun hnil => absurd hnil hne, (fetchAttributes_done hout.symm).2⟩
  | badToken | refused => cases hout
  | @registered tok arn hnil htok harn =>
    have hsent : di.sentToken = tok := by
      rw [sentToken, if_pos hnil, htok]
      rfl
    rw [arnFor, if_pos hnil, hsent, harn]
    exact ⟨rfl, fun _ => htok, (fetchAttributes_done hout.symm).2⟩

/-- The attributes of the endpoint after a successful call. -/
theorem registerAwsOn_done {di di' : DeviceInfo}
    (h : di.registerAwsOn json register setError sns = (di', .done b, sns')) :
    ∃ attrs attrs', sns (di.arnFor register) = some attrs ∧
      di' = { di with awsEndpointArn := di.arnFor register } ∧
      (di.awsEndpointArn = [] → di.registerAwsToken = .ok di.sentToken) ∧
      sns' (di.arnFor register) = some attrs' ∧
      ∀ name, attrs'.get name =
        (finalAttributes (di.customerData json) di.sentToken attrs).get name := by
  simp only [registerAwsOn] at h
  rcases hr : di.registerAws (di.customerData json) (di.answers register setError sns) with
    ⟨di₁, reg, out⟩
  simp only [hr] at h
  split at h
  next b' attrs hsns =>
    obtain ⟨hdi, htok, -⟩ := registerAws_done hr
    refine ⟨attrs, ?_⟩
    split at h
    next passed hw =>
      cases h
      refine ⟨_, hsns, hdi, htok, Function.update_self .., fun name => ?_⟩
      rw [some_finalAttributes_of_wanted hw]
      exact Attributes.get_replace (finalAttributes_covers _ _ _) name
    next hw =>
      cases h
      exact ⟨attrs, hsns, hdi, htok, hsns, fun name => by rw [finalAttributes_of_unwanted hw]⟩
  next hno =>
    cases h
    obtain ⟨-, -, attrs, hattrs⟩ := registerAws_done hr
    cases hsns : sns (di.arnFor register) with
    | none => simp [answers, hsns] at hattrs
    | some attrs => exact absurd hsns (hno b attrs rfl)

end DeviceInfo

/-- The endpoint of the device is enabled, and has its token and its data. -/
def InOrder (json : (deviceId userId : GoString) → GoString) (sns : Sns) (di : DeviceInfo) : Prop :=
  ∃ attrs, sns di.awsEndpointArn = some attrs ∧ attrs.get enabled = GoString.lit "true" ∧
    decodeAPNSPushToken di.pushToken = .ok (attrs.get token) ∧
    attrs.get customUserData = di.customerData json

/-- A successful call leaves the endpoint enabled and with the data of the device, so that only its
token decides. -/
theorem inOrder_iff {di : DeviceInfo} (hsns : sns (di.arnFor register) = some attrs')
    (hget : ∀ name, attrs'.get name =
      (finalAttributes (di.customerData json) di.sentToken attrs).get name) :
    InOrder json sns { di with awsEndpointArn := di.arnFor register } ↔
      decodeAPNSPushToken di.pushToken =
        .ok (if tokenDiffers di.sentToken attrs then di.sentToken else attrs.get token) := by
  obtain ⟨he, ht, hd⟩ := finalAttributes_get (di.customerData json) di.sentToken attrs
  rw [← ht, ← hget]
  constructor
  · rintro ⟨attrs'', hs, -, hdecode, -⟩
    cases hsns.symm.trans hs
    exact hdecode
  · exact fun hdecode => ⟨attrs', hsns, (hget _).trans he, hdecode, (hget _).trans hd⟩

/-- Without a decoded token the endpoint keeps the one it has. -/
theorem token_kept (attrs : Attributes) :
    (if tokenDiffers [] attrs then [] else attrs.get token) = attrs.get token := by
  split
  next hdiffers =>
    rcases hdiffers with hempty | ⟨h, -⟩
    · exact hempty.symm
    · exact absurd rfl h
  next => rfl

/-- After a successful call the endpoint of the device is in order exactly when the device had no
ARN before, or its endpoint had the decoded token already. -/
theorem registerAws_inOrder_iff (json : (deviceId userId : GoString) → GoString)
    {register : Except GoString GoString} {setError : Option GoString} {sns sns' : Sns}
    {di di' : DeviceInfo} {b : Bool}
    (h : di.registerAwsOn json register setError sns = (di', .done b, sns')) :
    InOrder json sns' di' ↔ di.awsEndpointArn = [] ∨
      ∃ attrs, sns di.awsEndpointArn = some attrs ∧
        decodeAPNSPushToken di.pushToken = .ok (attrs.get token) := by
  obtain ⟨attrs, attrs', hsns, rfl, htok, hsns', hget⟩ := DeviceInfo.registerAwsOn_done h
  rw [inOrder_iff hsns' hget]
  by_cases hnil : di.awsEndpointArn = []
  · -- a new ARN: the decoded token is at hand, and is the token afterwards
    obtain ⟨hdecode, hlen⟩ := DeviceInfo.length_of_registerAwsToken (htok hnil)
    have hne : di.sentToken ≠ [] := List.ne_nil_of_length_pos (hlen ▸ Nat.zero_lt_succ 63)
    refine iff_of_true ?_ (.inl hnil)
    split
    · exact hdecode
    next hsame =>
      rw [tokenDiffers, not_or, not_and] at hsame
      rw [← not_not.mp (hsame.2 hne)]
      exact hdecode
  · -- a known ARN: no token is at hand
    have hsent : di.sentToken = [] := if_neg hnil
    have harn : di.arnFor register = di.awsEndpointArn := if_neg hnil
    rw [hsent, token_kept, or_iff_right hnil, ← harn, hsns]
    simp

/-- The JSON text of two ids that need no quoting. -/
def plainJson (deviceId userId : GoString) : GoString :=
  GoString.lit "\x7b\"deviceId\":\"" ++ deviceId ++ GoString.lit "\",\"userId\":\"" ++ userId ++
    GoString.lit "\"\x7d"

def iphone : DeviceInfo where
  userId := GoString.lit "us-east-1a-1"
  clientContext := GoString.lit "ctx"
  deviceId := GoString.lit "NCHO1"
  sessionId := ['1']
  platform := GoString.lit "ios"
  pushService := pushServiceAPNS
  pushToken := List.replicate 64 'a'

def iphoneArn : GoString := GoString.lit "arn:aws:sns:1"

/-- SNS with one endpoint. -/
def oneEndpoint (attrs : Attributes) : Sns := fun arn => if arn = iphoneArn then some attrs else none

theorem registerAws_inOrder_new :
    ∃ di' sns', iphone.registerAwsOn plainJson (.ok iphoneArn) none (oneEndpoint []) =
        (di', .done true, sns') ∧ InOrder plainJson sns' di' := by
  have h : iphone.registerAwsOn plainJson (.ok iphoneArn) none (oneEndpoint []) =
      (_, .done true, _) := rfl
  exact ⟨_, _, h, (registerAws_inOrder_iff plainJson h).mpr (.inl rfl)⟩

/-- The endpoint of a phone whose ARN is known keeps the token of another phone. -/
theorem known_endpoint_keeps_token :
    ∃ di' sns', ({ iphone with awsEndpointArn := iphoneArn }).registerAwsOn plainJson
        (.ok iphoneArn) none (oneEndpoint [(token, List.replicate 64 'B')]) =
          (di', .done false, sns') ∧ ¬InOrder plainJson sns' di' := by
  refine ⟨_, _, rfl, ?_⟩
  rintro ⟨attrs, hs, -, ht, -⟩
  cases hs
  exact absurd ht (by decide +kernel)

/-! ## The row afterwards -/

/-- `registerAws` on the table from the end of its calls on: what it returns, and the copy and the
table afterwards. None is a panic, and `dbErr` a failure of the database at the update. -/
def DeviceRecord.afterCalls (host : HostId) (dbErr : Bool) (r : DeviceRecord) (t : DeviceTable) :
    RegisterEnd → Option (Option AwsError) × DeviceRecord × DeviceTable
  | .panicked => (none, r, t)
  | .failed e => (some (some e), r, t)
  | .done false => (some none, r, t)
  | .done true =>
    match r.update host t with
    | (r', some t') => if dbErr then (none, r.claim host, t) else (some none, r', t')
    | (r', none) => (none, r', t)

/-- `registerAws` on the table. -/
def DeviceRecord.registerAwsStored (host : HostId) (dbErr : Bool) (customerData : GoString)
    (ans : AwsAnswers) (r : DeviceRecord) (t : DeviceTable) :
    Option (Option AwsError) × DeviceRecord × DeviceTable :=
  let (di, _, out) := r.info.registerAws customerData ans
  DeviceRecord.afterCalls host dbErr { r with info := di } t out

/-- The operation on a slot is this one, on the copy in the slot. -/
theorem Endpoint.registerAws_eq_registerAwsStored (host : HostId)
    (customerData : DeviceInfo → GoString) (w : Endpoint.World) (i : Nat) (r : DeviceRecord)
    (ans : AwsAnswers) (dbErr : Bool) :
    let after := r.registerAwsStored host dbErr (customerData r.info) ans w.rows
    (Endpoint.registerAws host customerData w i r ans dbErr).rows = after.2.2 ∧
      (Endpoint.registerAws host customerData w i r ans dbErr).copies i = some after.2.1 := by
  simp only [Endpoint.registerAws, DeviceRecord.registerAwsStored, DeviceRecord.afterCalls]
  generalize r.info.registerAws (customerData r.info) ans = end'
  obtain ⟨di, reg, out⟩ := end'
  have hself : ∀ (w' : Endpoint.World) r', (w'.setCopy i r').copies i = some r' :=
    fun w' r' => Table.put_self ..
  cases out with
  | panicked | failed text => exact ⟨rfl, hself ..⟩
  | done changed =>
    cases changed with
    | false => exact ⟨rfl, hself ..⟩
    | true =>
      rcases hu : DeviceRecord.update host w.rows { r with info := di } with ⟨r'', _ | t'⟩
      · simp only [Endpoint.World.update, Endpoint.World.setCopy, hu]
        exact ⟨trivial, Table.put_self ..⟩
      · simp only [Endpoint.World.update, Endpoint.World.setCopy, hu]
        cases dbErr <;> exact ⟨rfl, Table.put_self ..⟩

/-- The row of the copy has the ARN of the copy. -/
def ArnStored (t : DeviceTable) (r : DeviceRecord) : Prop :=
  ∃ row, t r.info.key = some row ∧ row.info.awsEndpointArn = r.info.awsEndpointArn

/-- The attributes of the endpoint cannot be fetched, or cannot be set and have to be. -/
def Unsettled (customerData pushToken : GoString) (ans : AwsAnswers) : Prop :=
  (∃ text, ans.attributes = .error text) ∨
    ∃ attrs, ans.attributes = .ok (some attrs) ∧
      wantedAttributes customerData pushToken attrs ≠ none ∧ ans.setAttributes ≠ none

theorem fetchAttributes_failed_iff (data tok : GoString) (ans : AwsAnswers) (need : Bool) :
    (∃ e, fetchAttributes data ans tok need = .failed e) ↔ Unsettled data tok ans := by
  unfold fetchAttributes Unsettled
  cases ans.attributes with
  | error text => simp
  | ok attributes =>
    cases attributes with
    | none => simp
    | some attrs =>
      cases hw : wantedAttributes data tok attrs with
      | none => simp [hw]
      | some passed =>
        cases ans.setAttributes with
        | none => simp
        | some text => simp [hw]

/-- There is an endpoint for the device, and this token is at hand for it: the endpoint the device
has, or the one AWS registers for the token. -/
def HasEndpoint (ans : AwsAnswers) (di : DeviceInfo) (tok : GoString) : Prop :=
  di.awsEndpointArn ≠ [] ∧ tok = [] ∨
    di.awsEndpointArn = [] ∧ di.registerAwsToken = .ok tok ∧
      Registration.arn ⟨di.pushService, tok, ans.register⟩ ≠ none

/-- The calls of `registerAws` fail: there is no endpoint, or its attributes are not settled. -/
def CallsFail (customerData : GoString) (ans : AwsAnswers) (di : DeviceInfo) : Prop :=
  ∀ tok, HasEndpoint ans di tok → Unsettled customerData tok ans

theorem HasEndpoint.unique {di : DeviceInfo} (h : HasEndpoint ans di tok)
    (h' : HasEndpoint ans di tok') : tok' = tok := by
  rcases h with ⟨hne, rfl⟩ | ⟨hnil, htok, -⟩ <;> rcases h' with ⟨hne', rfl⟩ | ⟨hnil', htok', -⟩
  · rfl
  · exact absurd hnil' hne
  · exact absurd hnil hne'
  · exact Except.ok.inj (htok'.symm.trans htok)

theorem HasEndpoint.callsFail_iff {di : DeviceInfo} (h : HasEndpoint ans di tok) :
    CallsFail data ans di ↔ Unsettled data tok ans :=
  ⟨fun hf => hf tok h, fun hu _ h' => h.unique h' ▸ hu⟩

/-- How the calls end, on the answers. -/
def EndsAs (data : GoString) (ans : AwsAnswers) (di : DeviceInfo) : RegisterEnd → Prop
  | .failed _ => CallsFail data ans di
  | .panicked => ¬CallsFail data ans di ∧ ans.attributes = .ok none
  | .done need =>
    ¬CallsFail data ans di ∧ ans.attributes ≠ .ok none ∧ (need = true ↔ di.awsEndpointArn = [])

theorem HasEndpoint.endsAs {di : DeviceInfo} (h : HasEndpoint ans di tok)
    (hneed : need = true ↔ di.awsEndpointArn = []) :
    EndsAs data ans di (fetchAttributes data ans tok need) := by
  have hfail := fetchAttributes_failed_iff data tok ans need
  cases hout : fetchAttributes data ans tok need with
  | failed e => exact h.callsFail_iff.mpr (hfail.mp ⟨e, hout⟩)
  | panicked =>
    rw [hout, ← h.callsFail_iff] at hfail
    refine ⟨fun hf => ?_, fetchAttributes_panicked hout⟩
    obtain ⟨e, he⟩ := hfail.mpr hf
    cases he
  | done b =>
    rw [hout, ← h.callsFail_iff] at hfail
    obtain ⟨rfl, attrs, hattrs⟩ := DeviceInfo.fetchAttributes_done hout
    refine ⟨fun hf => ?_, by rw [hattrs]; simp, hneed⟩
    obtain ⟨e, he⟩ := hfail.mpr hf
    cases he

theorem registerAws_end (data : GoString) (ans : AwsAnswers) (di : DeviceInfo) :
    EndsAs data ans di (di.registerAws data ans).2.2 := by
  have hcase := di.registerAws_cases data ans
  generalize di.registerAws data ans = after at hcase
  cases hcase with
  | known hne => exact HasEndpoint.endsAs (.inl ⟨hne, rfl⟩) (by simp [hne])
  | badToken hnil htok =>
    rintro tok (⟨hne, -⟩ | ⟨-, htok', -⟩)
    · exact absurd hnil hne
    · cases htok.symm.trans htok'
  | refused hnil htok harn =>
    rintro tok (⟨hne, -⟩ | ⟨-, htok', harn'⟩)
    · exact absurd hnil hne
    · cases htok.symm.trans htok'
      exact absurd harn harn'
  | registered hnil htok harn =>
    exact HasEndpoint.endsAs (.inr ⟨hnil, htok, by simp [harn]⟩) (by simp [hnil])

/-- The device had no ARN, AWS registers it, and then its attributes are not settled. -/
def LosesArn (customerData : GoString) (ans : AwsAnswers) (di : DeviceInfo) : Prop :=
  di.awsEndpointArn = [] ∧ ∃ tok arn, di.registerAwsToken = .ok tok ∧
    Registration.arn ⟨di.pushService, tok, ans.register⟩ = some arn ∧ arn ≠ [] ∧
    Unsettled customerData tok ans

theorem registerAwsStored_eq (h : r.info.registerAws data ans = (di, reg, out)) :
    DeviceRecord.registerAwsStored host dbErr data ans r t =
      DeviceRecord.afterCalls host dbErr { r with info := di } t out := by
  rw [DeviceRecord.registerAwsStored, h]

/-- Every return after these calls leaves the copy and its row with the same ARN. -/
def Agrees (after : Option (Option AwsError) × DeviceRecord × DeviceTable) : Prop :=
  ∀ res, after.1 = some res → ArnStored after.2.2 after.2.1

/-- An update leaves both with the same ARN, and so does a panic, which does not return. -/
theorem agrees_done (host : HostId) (dbErr : Bool) (r : DeviceRecord) (t : DeviceTable) :
    Agrees (r.afterCalls host dbErr t (.done true)) := by
  intro res hres
  simp only [DeviceRecord.afterCalls] at hres ⊢
  split at hres
  next r' t' hu =>
    obtain ⟨hinfo, hput⟩ := DeviceRecord.update_cases hu
    cases dbErr with
    | true => cases hres
    | false =>
      refine ⟨r', ?_, rfl⟩
      change t' r'.info.key = some r'
      rw [(hput t' rfl).2, hinfo]
      exact Table.put_self ..
  next => cases hres

/-- The copy is the row. -/
theorem agrees_of_agree (hagree : t r.info.key = some r) (hout : out ≠ .done true) :
    Agrees (DeviceRecord.afterCalls host dbErr r t out) := by
  intro res hres
  match out with
  | .panicked => cases hres
  | .failed _ | .done false => exact ⟨r, hagree, rfl⟩
  | .done true => exact absurd rfl hout

theorem losesArn_iff {di : DeviceInfo} (hnil : di.awsEndpointArn = [])
    (htok : di.registerAwsToken = .ok tok)
    (harn : Registration.arn ⟨di.pushService, tok, ans.register⟩ = some arn) :
    LosesArn data ans di ↔ arn ≠ [] ∧ Unsettled data tok ans := by
  constructor
  · rintro ⟨-, tok', arn', htok', harn', hne, hun⟩
    cases htok.symm.trans htok'
    cases harn.symm.trans harn'
    exact ⟨hne, hun⟩
  · exact fun ⟨hne, hun⟩ => ⟨hnil, tok, arn, htok, harn, hne, hun⟩

/-- The copy has a new ARN, and its row none. -/
theorem arnStored_iff (hagree : t r.info.key = some r) (hnil : r.info.awsEndpointArn = []) :
    ArnStored t { r with info := { r.info with awsEndpointArn := arn } } ↔ arn = [] := by
  constructor
  · rintro ⟨row, hrow, harn⟩
    cases hagree.symm.trans hrow
    exact harn.symm.trans hnil
  · rintro rfl
    exact ⟨r, hagree, hnil⟩

/-- A call on a copy that agrees with its row leaves both with the same ARN whenever it returns,
with an error or without, exactly when it does not fail between a new registration and the update.
-/
theorem registerAws_stored_iff (host : HostId) (dbErr : Bool) (data : GoString) (ans : AwsAnswers)
    {r : DeviceRecord} {t : DeviceTable} (hagree : t r.info.key = some r) :
    Agrees (r.registerAwsStored host dbErr data ans t) ↔ ¬LosesArn data ans r.info := by
  have hcase := r.info.registerAws_cases data ans
  generalize hr : r.info.registerAws data ans = after at hcase
  cases hcase with
  | known hne =>
    rw [registerAwsStored_eq hr]
    refine iff_of_true (agrees_of_agree hagree fun hdone => ?_) fun h => hne h.1
    cases (DeviceInfo.fetchAttributes_done hdone).1
  | badToken hnil htok =>
    rw [registerAwsStored_eq hr]
    refine iff_of_true (agrees_of_agree hagree (by simp)) ?_
    rintro ⟨-, tok, arn, htok', -⟩
    cases htok.symm.trans htok'
  | @refused tok text hnil htok harn =>
    rw [registerAwsStored_eq hr]
    refine iff_of_true (agrees_of_agree hagree (by simp)) ?_
    rintro ⟨-, tok', arn, htok', harn', -⟩
    cases htok.symm.trans htok'
    cases harn.symm.trans harn'
  | @registered tok arn hnil htok harn =>
    rw [registerAwsStored_eq hr]
    rw [losesArn_iff hnil htok harn, ← fetchAttributes_failed_iff data tok ans true]
    cases hout : fetchAttributes data ans tok true with
    | panicked => exact iff_of_true (fun _ hres => (nomatch hres)) (by simp)
    | done b =>
      obtain rfl := (DeviceInfo.fetchAttributes_done hout).1
      exact iff_of_true (agrees_done _ _ _ _) (by simp)
    | failed e =>
      constructor
      · exact fun h hne => hne.1 ((arnStored_iff hagree hnil).mp (h _ rfl))
      · intro h res _
        refine (arnStored_iff hagree hnil).mpr ?_
        by_contra hne
        exact h ⟨hne, e, rfl⟩

def iphoneRecord : DeviceRecord where
  info := iphone
  id := 1
  pinger := GoString.lit "pinger-1"

def iphoneTable : DeviceTable := Table.put (fun _ => none) iphone.key iphoneRecord

/-- AWS registers the phone. -/
def iphoneAnswers : AwsAnswers where
  register := .ok iphoneArn
  attributes := .ok (some [])

theorem registerAws_stored_new :
    Agrees (iphoneRecord.registerAwsStored (GoString.lit "pinger-1") false [] iphoneAnswers
      iphoneTable) ∧
    ((iphoneRecord.registerAwsStored (GoString.lit "pinger-1") false [] iphoneAnswers
      iphoneTable).2.2 iphone.key).map (·.info.awsEndpointArn) = some iphoneArn := by
  have hagree : iphoneTable iphoneRecord.info.key = some iphoneRecord := Table.put_self ..
  refine ⟨(registerAws_stored_iff _ _ _ _ hagree).mpr ?_, rfl⟩
  rintro ⟨-, tok, arn, -, -, -, ⟨text, h⟩ | ⟨attrs, -, -, h⟩⟩
  · cases h
  · exact h rfl

/-- The attributes of the new endpoint cannot be fetched: the phone has an ARN in memory, and its
row has none. -/
theorem fetch_failure_splits_arn :
    ¬Agrees (iphoneRecord.registerAwsStored (GoString.lit "pinger-1") false []
      { iphoneAnswers with attributes := .error (GoString.lit "Throttling: Rate exceeded") }
      iphoneTable) := by
  intro h
  obtain ⟨row, hrow, harn⟩ := h _ rfl
  cases (Table.put_self (fun _ => none) iphone.key iphoneRecord).symm.trans hrow
  cases harn

end Pinger
