import Pinger.Device.Info
import Pinger.Exchange.Response
import Pinger.Lib.Timer
import Pinger.Web.Credentials
import Pinger.Web.Identity

/-! # Registrations

`registerDevice` checks the posted data twice, first for missing fields and then for invalid ones,
rewriting some fields on the way, and passes it to the backend as a `MailPingInformation`. What
both checks accept the backend can work with. -/

namespace Pinger.Web

open GoTime

/-- The posted data. -/
structure RegisterPostData where
  clientId : GoString := []
  userId : GoString := []
  clientContext : GoString := []
  deviceId : GoString := []
  platform : GoString := []
  mailServerUrl : GoString := []
  username : GoString := []
  password : GoString := []
  protocol : GoString := []
  httpHeaders : List (GoString × GoString) := []
  requestData : Option GoString := none
  expectedReply : Option GoString := none
  noChangeReply : Option GoString := none
  responseTimeout : Nat := 0
  waitBeforeUse : Nat := 0
  pushToken : GoString := []
  pushService : GoString := []
  maxPollTimeout : Nat := 0
  osVersion : GoString := []
  appBuildNumber : GoString := []
  appBuildVersion : GoString := []
  imapAuthenticationBlob : GoString := []
  imapFolderName : GoString := []
  imapSupportsIdle : Bool := false
  imapSupportsExpunge : Bool := false
  imapExistsCount : Nat := 0
  imapUidNext : Nat := 0
  asIsSyncRequest : Bool := false
  deriving DecidableEq, Repr

/-- What the checks take from the libraries: `url.ParseRequestURI`, of which they read the scheme
and the host, and `strings.EqualFold` on texts of any alphabet. -/
structure Env where
  parseRequestURI : GoString → Option (GoString × GoString)
  equalFold : GoString → GoString → Bool

/-! ## The checks -/

def maxResponseTimeout : Nat := 3600000
def maxWaitBeforeUse : Nat := 600000
def maxRequestDataSize : Nat := 10240
def maxNoChangeReplySize : Nat := 10240
def maxOsVersionSize : Nat := 32
def maxAppBuildVersionSize : Nat := 32
def maxAppBuildNumberSize : Nat := 32

/-- Two days, in milliseconds. -/
def defaultMaxPollTimeout : Nat := 2 * 24 * 60 * 60 * 1000

def mailClientActiveSync : GoString := GoString.lit "ActiveSync"
def mailClientIMAP : GoString := GoString.lit "IMAP"

/-- `len` of a slice that may be nil. -/
def sliceLength (s : Option GoString) : Nat := (s.map List.length).getD 0

/-- `govalidator.IsASCII`. -/
def isASCII (s : GoString) : Bool := s.all fun c => c.toNat < 128

/-- `govalidator.IsInt`: empty, or the pattern `^(?:[-+]?(?:0|[1-9][0-9]*))$`. -/
def isInt : GoString → Bool
  | [] => true
  | '-' :: s | '+' :: s => isNumeral s
  | s => isNumeral s
where
  isNumeral : GoString → Bool
    | [] => false
    | ['0'] => true
    | c :: s => GoString.isDigit c && c ≠ '0' && s.all GoString.isDigit

/-- The pattern `^([0-9A-Z]{64})$`. -/
def pushTokenRegex (s : GoString) : Bool :=
  s.length = 64 && s.all fun c => GoString.isDigit c || GoString.isUpper c

def pushServiceGCM : GoString := GoString.lit "GCM"

def isValidPushService (pushService : GoString) : Bool :=
  pushService = pushServiceAPNS || pushService = pushServiceGCM

def isValidPushToken (pushService pushToken : GoString) : Bool :=
  pushService = pushServiceAPNS &&
    match decodeAPNSPushToken pushToken with
    | .ok decodedToken => pushTokenRegex decodedToken
    | .error _ => false

def isMailServerURL (env : Env) (rawurl : GoString) : Bool :=
  match env.parseRequestURI rawurl with
  | none => false
  | some (scheme, host) =>
    scheme ≠ [] && (GoString.equalFold scheme (GoString.lit "https") ||
      GoString.equalFold scheme (GoString.lit "imap") ||
      GoString.equalFold scheme (GoString.lit "imaps")) && host ≠ []

def isValidFolderName (env : Env) (folderName : GoString) (validFolderNames : List GoString) :
    Bool :=
  validFolderNames.any fun f => env.equalFold f folderName

/-- A field is named when its check fails. -/
def check (ok : Bool) (field : String) : List GoString := if ok then [] else [field.toList]

namespace RegisterPostData

/-- `checkForMissingFields`: the data as it leaves it, and the missing fields. An old client sends
its user id as `ClientId`. The counts are unsigned, so they are never negative. -/
def checkForMissingFields (pd : RegisterPostData) : RegisterPostData × List GoString :=
  let pd' := if pd.userId = [] then { pd with userId := pd.clientId } else pd
  let missing :=
    check (pd'.userId ≠ []) "UserId" ++
    check (pd.deviceId ≠ []) "DeviceId" ++
    check (pd.mailServerUrl ≠ []) "MailServerUrl" ++
    check (pd.clientContext ≠ []) "ClientContext"
  if pd.protocol = mailClientActiveSync then
    (pd', missing ++
      check (0 < sliceLength pd.requestData) "RequestData" ++
      check (0 < sliceLength pd.noChangeReply || pd.asIsSyncRequest) "NoChangeReply")
  else if pd.protocol = mailClientIMAP then
    (pd', missing ++
      check (pd.imapAuthenticationBlob ≠ []) "IMAPAuthenticationBlob" ++
      check (pd.imapFolderName ≠ []) "IMAPFolderName")
  else (pd', missing ++ check false "Protocol")

/-- The checks that do not depend on the protocol. -/
def invalidCommon (env : Env) (pd : RegisterPostData) : List GoString :=
  check (isValidUserId pd.userId) "UserId" ++
  check (isValidDeviceId pd.deviceId) "DeviceId" ++
  check (isValidClientContext pd.clientContext) "ClientContextId" ++
  check (pd.platform = GoString.lit "ios" || pd.platform = GoString.lit "android") "Platform" ++
  check (isMailServerURL env pd.mailServerUrl) "MailServerUrl" ++
  check (pd.responseTimeout ≤ maxResponseTimeout) "ResponseTimeout" ++
  check (pd.waitBeforeUse ≤ maxWaitBeforeUse) "WaitBeforeUse" ++
  (if isValidPushService pd.pushService then
    check (isValidPushToken pd.pushService pd.pushToken) "PushToken"
  else check false "PushService" ++ check false "PushToken") ++
  check (pd.osVersion.length ≤ maxOsVersionSize && isASCII pd.osVersion) "OSVersion" ++
  check (pd.appBuildVersion.length ≤ maxAppBuildVersionSize && isASCII pd.appBuildVersion)
    "AppBuildVersion" ++
  check (pd.appBuildNumber.length ≤ maxAppBuildNumberSize && isInt pd.appBuildNumber)
    "AppBuildNumber"

/-- `validate`: the data as it leaves it, and the invalid fields. -/
def validate (env : Env) (folderNames : List GoString) (pd : RegisterPostData) :
    RegisterPostData × List GoString :=
  let pd' := { pd with
    maxPollTimeout :=
      if pd.maxPollTimeout = 0 ∨ defaultMaxPollTimeout < pd.maxPollTimeout then
        defaultMaxPollTimeout
      else pd.maxPollTimeout }
  if GoString.equalFold pd.protocol mailClientActiveSync then
    ({ pd' with
        expectedReply := none, imapAuthenticationBlob := [], imapFolderName := []
        imapSupportsIdle := false, imapSupportsExpunge := false
        imapExistsCount := 0, imapUidNext := 0 },
      invalidCommon env pd ++
        check (isValidMailServerCredentials pd.username pd.password) "MailServerCredentials" ++
        check (sliceLength pd.requestData ≤ maxRequestDataSize) "RequestData" ++
        check (sliceLength pd.noChangeReply ≤ maxNoChangeReplySize) "NoChangeReply")
  else if GoString.equalFold pd.protocol mailClientIMAP then
    ({ pd' with
        username := [], password := [], httpHeaders := []
        requestData := none, noChangeReply := none, expectedReply := none },
      invalidCommon env pd ++
        check (isValidIMAPAuthenticationBlob pd.imapAuthenticationBlob) "IMAPAuthenticationBlob" ++
        check (isValidFolderName env pd.imapFolderName folderNames) "IMAPFolderName")
  else (pd', invalidCommon env pd ++ check false "Protocol")

/-- `AsMailInfo`. -/
def asMailInfo (pd : RegisterPostData) (sessionId : GoString) : MailPingInformation where
  userId := pd.userId
  clientContext := pd.clientContext
  deviceId := pd.deviceId
  platform := pd.platform
  mailServerUrl := pd.mailServerUrl
  username := pd.username
  password := pd.password
  protocol := pd.protocol
  httpHeaders := pd.httpHeaders
  requestData := pd.requestData
  expectedReply := pd.expectedReply
  noChangeReply := pd.noChangeReply
  responseTimeout := pd.responseTimeout
  waitBeforeUse := pd.waitBeforeUse
  pushToken := pd.pushToken
  pushService := pd.pushService
  maxPollTimeout := pd.maxPollTimeout
  osVersion := pd.osVersion
  appBuildNumber := pd.appBuildNumber
  appBuildVersion := pd.appBuildVersion
  imapAuthenticationBlob := pd.imapAuthenticationBlob
  imapFolderName := pd.imapFolderName
  imapSupportsIdle := pd.imapSupportsIdle
  imapSupportsExpunge := pd.imapSupportsExpunge
  imapExistsCount := pd.imapExistsCount
  imapUidNext := pd.imapUidNext
  asIsSyncRequest := pd.asIsSyncRequest
  sessionId := sessionId

end RegisterPostData

/-! ## What the backend does with a registration -/

inductive MailClientKind
  | exchange
  | imap
  deriving DecidableEq, Repr

/-- The protocol switch of `NewMailClientContext`; `none` is its error. -/
def protocolSwitch (protocol : GoString) : Option MailClientKind :=
  if GoString.equalFold protocol mailClientActiveSync then some .exchange
  else if GoString.equalFold protocol mailClientIMAP then some .imap
  else none


end Pinger.Web

namespace Pinger

/-- The device of a registration: a new one, or the row found under its key, brought up to date. -/
def MailPingInformation.deviceInfo (pi : MailPingInformation) : Option DeviceInfo → DeviceInfo
  | none =>
    { userId := pi.userId
      clientContext := pi.clientContext
      deviceId := pi.deviceId
      sessionId := pi.sessionId
      platform := pi.platform
      pushToken := pi.pushToken
      pushService := pi.pushService
      osVersion := pi.osVersion
      appBuildVersion := pi.appBuildVersion
      appBuildNumber := pi.appBuildNumber }
  | some row =>
    (row.updateDeviceInfo pi.pushService pi.pushToken pi.platform pi.osVersion
      pi.appBuildVersion pi.appBuildNumber).1

/-- What `getDeviceInfo` can find: nothing, or the row with the key of the registration. -/
def MailPingInformation.Stored (pi : MailPingInformation) (row : Option DeviceInfo) : Prop :=
  ∀ di ∈ row, di.userId = pi.userId ∧ di.clientContext = pi.clientContext ∧
    di.deviceId = pi.deviceId ∧ di.sessionId = pi.sessionId

end Pinger

namespace Pinger.Web

open GoTime

/-- A conversion from milliseconds does not overflow. -/
def Fits (ms : Nat) : Prop := milliseconds ms = (ms * 1000000 : Nat)

/-- The checks the backend makes on a registration succeed. The session id keeps `newDeviceInfo`
from panicking. -/
structure Usable (pi : MailPingInformation) : Prop where
  session : pi.sessionId ≠ []
  device : ∀ row, pi.Stored row → (pi.deviceInfo row).validate = .ok ()
  protocol : (protocolSwitch pi.protocol).isSome
  apns : ∀ row, pi.Stored row → (pi.deviceInfo row).pushService = pushServiceAPNS
  token : ∃ t, decodeAPNSPushToken pi.pushToken = .ok t ∧ t.length = 64 ∧
    ∀ row, pi.Stored row → (pi.deviceInfo row).registerAwsToken = .ok t
  blob : protocolSwitch pi.protocol = some .imap →
    (GoString.base64Decode pi.imapAuthenticationBlob).isSome
  reply : protocolSwitch pi.protocol = some .exchange → pi.asIsSyncRequest = false →
    ∃ r, pi.noChangeReply = some r ∧ r ≠ []
  size : protocolSwitch pi.protocol = some .exchange →
    1 ≤ Exchange.maxResponseSize pi ∧ Exchange.maxResponseSize pi ≤ 10240
  responseTimeout : Fits pi.responseTimeout
  waitBeforeUse : Fits pi.waitBeforeUse
  maxPollTimeout : 1 ≤ pi.maxPollTimeout ∧ pi.maxPollTimeout ≤ defaultMaxPollTimeout ∧
    Fits pi.maxPollTimeout

/-! ## Admission -/

@[simp] theorem check_eq_nil : check ok field = [] ↔ ok = true := by
  cases ok <;> simp [check]

/-- What `checkForMissingFields` accepts names one of the two protocols exactly. -/
theorem present_of_checkForMissingFields (h : (RegisterPostData.checkForMissingFields pd).2 = []) :
    let pd' := pd.checkForMissingFields.1
    (pd'.protocol = mailClientActiveSync ∧
      (0 < sliceLength pd'.noChangeReply ∨ pd'.asIsSyncRequest)) ∨
    pd'.protocol = mailClientIMAP := by
  simp only [RegisterPostData.checkForMissingFields] at h ⊢
  split at h
  next hp =>
    simp only [List.append_eq_nil_iff, check_eq_nil, Bool.or_eq_true, decide_eq_true_eq] at h
    refine .inl ?_
    rw [if_pos hp]
    split <;> exact ⟨hp, h.2⟩
  next hp =>
    split at h
    next hp' =>
      refine .inr ?_
      rw [if_neg hp, if_pos hp']
      split <;> exact hp'
    next =>
      simp only [List.append_eq_nil_iff, check_eq_nil] at h
      cases h.2

/-- The checks on the fields of every registration, as facts. -/
structure Valid (pd : RegisterPostData) : Prop where
  userId : isValidUserId pd.userId
  deviceId : isValidDeviceId pd.deviceId
  clientContext : isValidClientContext pd.clientContext
  platform : pd.platform = GoString.lit "ios" ∨ pd.platform = GoString.lit "android"
  responseTimeout : pd.responseTimeout ≤ maxResponseTimeout
  waitBeforeUse : pd.waitBeforeUse ≤ maxWaitBeforeUse
  pushToken : isValidPushToken pd.pushService pd.pushToken

theorem valid_of_invalidCommon (h : RegisterPostData.invalidCommon env pd = []) : Valid pd := by
  simp only [RegisterPostData.invalidCommon, List.append_eq_nil_iff, check_eq_nil,
    Bool.or_eq_true, decide_eq_true_eq] at h
  obtain ⟨⟨⟨⟨⟨⟨⟨⟨⟨⟨hu, hd⟩, hc⟩, hp⟩, -⟩, hr⟩, hw⟩, ht⟩, -⟩, -⟩, -⟩ := h
  refine ⟨hu, hd, hc, hp, hr, hw, ?_⟩
  split at ht
  · exact check_eq_nil.mp ht
  · cases ht

theorem of_isValidPushToken (h : isValidPushToken service token) :
    service = pushServiceAPNS ∧ ∃ t, decodeAPNSPushToken token = .ok t ∧ t.length = 64 := by
  simp only [isValidPushToken, Bool.and_eq_true, decide_eq_true_eq] at h
  refine ⟨h.1, ?_⟩
  cases ht : decodeAPNSPushToken token with
  | error e => simp [ht] at h
  | ok t =>
    refine ⟨t, rfl, ?_⟩
    have := h.2
    simp only [ht, pushTokenRegex, Bool.and_eq_true, decide_eq_true_eq] at this
    exact this.1

/-- Whatever the database held, the device of a registration has the values of the registration. -/
theorem deviceInfo_fields {pi : MailPingInformation} (h : pi.Stored row) :
    let di := pi.deviceInfo row
    di.userId = pi.userId ∧ di.clientContext = pi.clientContext ∧ di.deviceId = pi.deviceId ∧
      di.pushService = pi.pushService ∧ di.pushToken = pi.pushToken ∧ di.platform = pi.platform := by
  cases row with
  | none => exact ⟨rfl, rfl, rfl, rfl, rfl, rfl⟩
  | some di =>
    obtain ⟨hu, hc, hd, -⟩ := h di rfl
    rw [← hu, ← hc, ← hd]
    exact di.updateDeviceInfo_fields _ _ _ _ _ _

theorem deviceInfo_validate {di : DeviceInfo} (hu : di.userId ≠ []) (hc : di.clientContext ≠ [])
    (hd : di.deviceId ≠ []) (hs : di.pushService = pushServiceAPNS)
    (hp : di.platform = GoString.lit "ios" ∨ di.platform = GoString.lit "android") :
    di.validate = .ok () := by
  simp only [DeviceInfo.validate, if_neg hu, if_neg hc, if_neg hd, hs]
  rcases hp with hp | hp
  · rw [hp]
    rfl
  · rw [hp]
    rfl

theorem fits (h : ms ≤ maxResponseTimeout ∨ ms ≤ defaultMaxPollTimeout) : Fits ms := by
  apply milliseconds_eq
  simp only [maxResponseTimeout, defaultMaxPollTimeout] at h
  omega

theorem reply_of_sliceLength (h : 0 < sliceLength s) : ∃ r, s = some r ∧ r ≠ [] := by
  cases s with
  | none => cases h
  | some r => exact ⟨r, rfl, List.ne_nil_of_length_pos h⟩

/-- The data as `validate` leaves it, when it finds nothing wrong. -/
structure Validated (pd : RegisterPostData) : Prop extends Valid pd where
  maxPollTimeout : 1 ≤ pd.maxPollTimeout ∧ pd.maxPollTimeout ≤ defaultMaxPollTimeout
  protocol : (pd.protocol = mailClientActiveSync ∧ pd.expectedReply = none ∧
      (0 < sliceLength pd.noChangeReply ∨ pd.asIsSyncRequest) ∧
      sliceLength pd.noChangeReply ≤ maxNoChangeReplySize) ∨
    (pd.protocol = mailClientIMAP ∧ isValidIMAPAuthenticationBlob pd.imapAuthenticationBlob)

theorem maxPollTimeout_bounds (n : Nat) :
    let m := if n = 0 ∨ defaultMaxPollTimeout < n then defaultMaxPollTimeout else n
    1 ≤ m ∧ m ≤ defaultMaxPollTimeout := by
  by_cases h : n = 0 ∨ defaultMaxPollTimeout < n
  · rw [if_pos h]
    decide
  · rw [if_neg h]
    dsimp only
    omega

theorem validated_of_validate {pd : RegisterPostData}
    (hp : (pd.protocol = mailClientActiveSync ∧
      (0 < sliceLength pd.noChangeReply ∨ pd.asIsSyncRequest)) ∨ pd.protocol = mailClientIMAP)
    (h : (pd.validate env folderNames).2 = []) : Validated (pd.validate env folderNames).1 := by
  rcases hp with ⟨hp, hr⟩ | hp
  · have hfold : GoString.equalFold pd.protocol mailClientActiveSync := by
      rw [hp]
      decide
    simp only [RegisterPostData.validate, if_pos hfold] at h ⊢
    simp only [List.append_eq_nil_iff, check_eq_nil, decide_eq_true_eq] at h
    obtain ⟨⟨⟨hc, -⟩, -⟩, hsize⟩ := h
    have hvalid := valid_of_invalidCommon hc
    exact { hvalid with
      maxPollTimeout := maxPollTimeout_bounds pd.maxPollTimeout
      protocol := .inl ⟨hp, rfl, hr, hsize⟩ }
  · have hnot : ¬ GoString.equalFold pd.protocol mailClientActiveSync := by
      rw [hp]
      decide
    have hfold : GoString.equalFold pd.protocol mailClientIMAP := by
      rw [hp]
      decide
    simp only [RegisterPostData.validate, if_neg hnot, if_pos hfold] at h ⊢
    simp only [List.append_eq_nil_iff, check_eq_nil] at h
    obtain ⟨⟨hc, hblob⟩, -⟩ := h
    have hvalid := valid_of_invalidCommon hc
    exact { hvalid with
      maxPollTimeout := maxPollTimeout_bounds pd.maxPollTimeout
      protocol := .inr ⟨hp, hblob⟩ }

/-- The read buffer is the size of the expected reply, or the default. -/
theorem maxResponseSize_bounds {pi : MailPingInformation} (he : pi.expectedReply = none)
    (hn : sliceLength pi.noChangeReply ≤ maxNoChangeReplySize) :
    1 ≤ Exchange.maxResponseSize pi ∧ Exchange.maxResponseSize pi ≤ 10240 := by
  simp only [sliceLength, maxNoChangeReplySize] at hn
  simp only [Exchange.maxResponseSize, he, Exchange.maxSyncResponseDataSize]
  split_ifs <;> simp_all
  omega

/-- What `checkForMissingFields` and then `validate` accept the backend can use. -/
theorem admission (env : Env) (folderNames : List GoString) (pd : RegisterPostData)
    (sessionId : GoString) (hsession : sessionId ≠ [])
    (hmissing : pd.checkForMissingFields.2 = [])
    (hinvalid : (pd.checkForMissingFields.1.validate env folderNames).2 = []) :
    Usable ((pd.checkForMissingFields.1.validate env folderNames).1.asMailInfo sessionId) := by
  have hv := validated_of_validate (present_of_checkForMissingFields hmissing) hinvalid
  generalize (pd.checkForMissingFields.1.validate env folderNames).1 = pd' at hv
  obtain ⟨hservice, t, ht, hlen⟩ := of_isValidPushToken hv.pushToken
  -- the backend folds case, but on the two exact names it takes the same branch
  have hproto := hv.protocol.imp
    (And.imp_left fun hp => show protocolSwitch pd'.protocol = some .exchange by rw [hp]; rfl)
    (And.imp_left fun hp => show protocolSwitch pd'.protocol = some .imap by rw [hp]; rfl)
  have hdev {row} (hrow : (pd'.asMailInfo sessionId).Stored row) := deviceInfo_fields hrow
  refine
    { session := hsession
      device := fun row hrow => ?_
      protocol := ?_
      apns := fun row hrow => ?_
      token := ⟨t, ht, hlen, fun row hrow => ?_⟩
      blob := fun himap => ?_
      reply := fun hex hsync => ?_
      size := fun hex => ?_
      responseTimeout := fits (.inl hv.responseTimeout)
      waitBeforeUse := fits (.inl (Nat.le_trans hv.waitBeforeUse (by decide)))
      maxPollTimeout := ⟨hv.maxPollTimeout.1, hv.maxPollTimeout.2, fits (.inr hv.maxPollTimeout.2)⟩ }
  · obtain ⟨hu, hc, hd, hs, -, hp⟩ := hdev hrow
    have hne {ok : GoString → Bool} {s : GoString} (h : ok s) (hnil : ok [] = false) : s ≠ [] := by
      rintro rfl
      rw [hnil] at h
      cases h
    apply deviceInfo_validate
    · exact hu ▸ hne hv.userId rfl
    · exact hc ▸ hne hv.clientContext rfl
    · exact hd ▸ hne hv.deviceId rfl
    · exact hs.trans hservice
    · exact hp ▸ hv.platform
  · rcases hproto with ⟨hp, -⟩ | ⟨hp, -⟩
    · exact hp ▸ rfl
    · exact hp ▸ rfl
  · exact (hdev hrow).2.2.2.1.trans hservice
  · obtain ⟨-, -, -, hs, htok, -⟩ := hdev hrow
    rw [DeviceInfo.registerAwsToken, if_pos (hs.trans hservice), htok,
      show decodeAPNSPushToken (pd'.asMailInfo sessionId).pushToken = .ok t from ht]
    simp [hlen]
  · rcases hproto with ⟨hp, -⟩ | ⟨-, hblob⟩
    · cases hp.symm.trans himap
    · exact isSome_of_isValidIMAPAuthenticationBlob hblob
  · rcases hproto with ⟨-, -, hr, -⟩ | ⟨hp, -⟩
    · exact reply_of_sliceLength (hr.resolve_right (Bool.eq_false_iff.mp hsync))
    · cases hp.symm.trans hex
  · rcases hproto with ⟨-, he, -, hn⟩ | ⟨hp, -⟩
    · exact maxResponseSize_bounds he hn
    · cases hp.symm.trans hex

/-- The registration of an iPad, for its Exchange account. -/
def registration : RegisterPostData where
  userId := identity.userId
  clientContext := identity.clientContext
  deviceId := identity.deviceId
  platform := GoString.lit "ios"
  mailServerUrl := GoString.lit "https://officeburrito.com"
  username := GoString.lit "janv"
  password := GoString.lit "Password1"
  protocol := GoString.lit "ActiveSync"
  httpHeaders := [(GoString.lit "MS-ASProtocolVersion", GoString.lit "14.1")]
  requestData := GoString.base64Decode (GoString.lit "AwFqAAANRUgDNjAw")
  noChangeReply := GoString.base64Decode (GoString.lit "AwFqAAANRUcDMQABAQ==")
  responseTimeout := 600000
  waitBeforeUse := 3000
  pushToken := GoString.lit "AEEEEEEEEEEEEEEEEEEEEEEEEEEEEEEEEEEEEEEEEEEEEEEEEEEEEEEEEEEEEEEF"
  pushService := GoString.lit "APNS"
  osVersion := GoString.lit "8.1"
  appBuildNumber := GoString.lit "209"

/-- The same device, for an IMAP account, by an old client. -/
def imapRegistration : RegisterPostData :=
  { registration with
    userId := []
    clientId := identity.userId
    mailServerUrl := GoString.lit "imaps://officeburrito.com"
    protocol := GoString.lit "IMAP"
    imapAuthenticationBlob := GoString.lit "TE9HSU4gamFudiBQYXNzd29yZDE="
    imapFolderName := GoString.lit "INBOX" }

/-- The answers of the libraries for the two registrations. -/
def registrationEnv : Env where
  parseRequestURI rawurl :=
    if rawurl = registration.mailServerUrl then
      some (GoString.lit "https", GoString.lit "officeburrito.com")
    else if rawurl = imapRegistration.mailServerUrl then
      some (GoString.lit "imaps", GoString.lit "officeburrito.com")
    else none
  equalFold s t := GoString.equalFold s t

theorem admission_ipad :
    Usable ((registration.checkForMissingFields.1.validate registrationEnv [GoString.lit "Inbox"]).1
      |>.asMailInfo (GoString.lit "0f4a")) ∧
    Usable ((imapRegistration.checkForMissingFields.1.validate registrationEnv
      [GoString.lit "Inbox"]).1 |>.asMailInfo (GoString.lit "0f4a")) :=
  ⟨admission _ _ _ _ (by decide) (by decide +kernel) (by decide +kernel),
    admission _ _ _ _ (by decide) (by decide +kernel) (by decide +kernel)⟩

end Pinger.Web
