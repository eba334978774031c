import Mathlib.Logic.Equiv.List
import Pinger.Web.Register

/-! # Tokens

A registration is answered with a token, the MAC of the identity under a key made for it, and the
key is kept under the token. A later request presents the token. The handlers are modelled from
the decoded request on; a token counts as issued when `registerDevice` has made it and stored its
key, and as used when `stopPolling` has accepted it. -/

namespace Pinger.Web

open Rpc Transition

/-! ## Making and checking tokens -/

/-- The configuration and the libraries the handlers use. -/
structure Context extends Env where
  imapFolderNames : List GoString
  hmacSha256 : (key message : GoString) → GoString
  sha256 : GoString → GoString

def makeIdBytes (i : Identity) : GoString :=
  i.userId ++ GoString.lit ":" ++ i.clientContext ++ GoString.lit ":" ++ i.deviceId

section
variable (ctx : Context)

/-- `CreateAuthToken`, with the key that `make256Key` made. -/
def createAuthToken (i : Identity) (key : GoString) : GoString :=
  GoString.base64Encode (ctx.hmacSha256 key (makeIdBytes i))

def checkMAC (message messageMAC key : GoString) : Bool := messageMAC = ctx.hmacSha256 key message

def validateAuthToken (i : Identity) (tokenb64 key : GoString) : Bool :=
  match GoString.base64Decode tokenb64 with
  | none => false
  | some token => checkMAC ctx (makeIdBytes i) token key

def makeSessionId (token : GoString) : GoString := GoString.hexEncode ((ctx.sha256 token).take 8)

end

/-! ## Requests -/

structure DeferPost where
  clientId : GoString := []
  userId : GoString := []
  clientContext : GoString := []
  deviceId : GoString := []
  timeout : Nat := 0
  token : GoString := []
  requestData : Option GoString := none
  deriving DecidableEq, Repr

structure StopPost where
  clientId : GoString := []
  userId : GoString := []
  clientContext : GoString := []
  deviceId : GoString := []
  token : GoString := []
  deriving DecidableEq, Repr

/-- An old client sends its user id as `ClientId`. -/
def effectiveUserId (userId clientId : GoString) : GoString :=
  if userId = [] ∧ clientId ≠ [] then clientId else userId

def DeferPost.identity (dp : DeferPost) : Identity :=
  ⟨effectiveUserId dp.userId dp.clientId, dp.clientContext, dp.deviceId⟩

def StopPost.identity (sp : StopPost) : Identity :=
  ⟨effectiveUserId sp.userId sp.clientId, sp.clientContext, sp.deviceId⟩

/-- The invalid fields of an identity. -/
def Identity.invalidFields (i : Identity) : List GoString :=
  check (isValidUserId i.userId) "UserId" ++
  check (isValidDeviceId i.deviceId) "DeviceId" ++
  check (isValidClientContext i.clientContext) "ClientContextId"

def DeferPost.validate (dp : DeferPost) : List GoString :=
  dp.identity.invalidFields ++
  check (sliceLength dp.requestData ≤ maxRequestDataSize) "RequestData" ++
  check (dp.timeout ≤ maxWaitBeforeUse) "Timeout"

def StopPost.validate (sp : StopPost) : List GoString := sp.identity.invalidFields

/-- A request, with the key it would draw and what the backend answers when it is called. -/
inductive Request
  | register (pd : RegisterPostData) (key : GoString) (backend : Except GoString PollingResponse)
  | defer (dp : DeferPost) (backend : Except GoString PollingResponse)
  | stop (sp : StopPost) (backend : Except GoString PollingResponse)

/-- The token a request presents. -/
def Request.token : Request → Option GoString
  | .register .. => none
  | .defer dp _ => some dp.token
  | .stop sp _ => some sp.token

/-- A call of the backend. -/
inductive BackendCall
  | startPoll (pi : MailPingInformation)
  | deferPoll (i : Identity) (timeout : Nat) (requestData : Option GoString)
  | stopPoll (i : Identity)
  deriving DecidableEq, Repr

def BackendCall.identity : BackendCall → Identity
  | .startPoll pi => pi.identity
  | .deferPoll i _ _ => i
  | .stopPoll i => i

/-- What the client is sent. -/
inductive Response
  | invalidData (fields : List GoString)
  | rpcServerError
  | internalServerError (message : GoString)
  | status (reply : PollingResponse) (token : Option GoString := none)
  deriving DecidableEq, Repr

/-! ## The handlers -/

structure WebServer where
  authTokenKeys : GoString → Option GoString := fun _ => none

/-- What a handler leaves: the keys, the call it made, and its answer. -/
structure Outcome where
  server : WebServer
  call : Option BackendCall := none
  response : Response

/-- The message of an OK is dropped. -/
def statusReply : PollingResponse → PollingResponse
  | ⟨.ok, _⟩ => { code := .ok }
  | r => r

def tokenNotValid : Response := .status ⟨.error, GoString.lit "Token is not valid"⟩

namespace WebServer

/-- `authTokenKeys[token] = key`. -/
def store (s : WebServer) (token key : GoString) : WebServer :=
  { s with authTokenKeys := Function.update s.authTokenKeys token (some key) }

/-- `delete(authTokenKeys, token)`. -/
def delete (s : WebServer) (token : GoString) : WebServer :=
  { s with authTokenKeys := Function.update s.authTokenKeys token none }

variable (ctx : Context)

/-- The token has a key, and is the MAC of the identity under it. -/
def accepts (s : WebServer) (i : Identity) (token : GoString) : Bool :=
  match s.authTokenKeys token with
  | none => false
  | some key => validateAuthToken ctx i token key

def registerDevice (s : WebServer) (pd : RegisterPostData) (key : GoString)
    (backend : Except GoString PollingResponse) : Outcome :=
  let (pd, missingFields) := pd.checkForMissingFields
  if missingFields ≠ [] then { server := s, response := .invalidData missingFields }
  else
    let (pd, invalidFields) := pd.validate ctx.toEnv ctx.imapFolderNames
    if invalidFields ≠ [] then { server := s, response := .invalidData invalidFields }
    else
      let token := createAuthToken ctx ⟨pd.userId, pd.clientContext, pd.deviceId⟩ key
      { server := s.store token key
        call := some (.startPoll (pd.asMailInfo (makeSessionId ctx token)))
        response :=
          match backend with
          | .error _ => .rpcServerError
          | .ok reply => .status (statusReply reply) (if reply.code = .error then none else token) }

/-- The answer to a defer or a stop that has called the backend. -/
def relay : Except GoString PollingResponse → Response
  | .error err => .internalServerError err
  | .ok reply => .status (statusReply reply)

def deferPolling (s : WebServer) (dp : DeferPost) (backend : Except GoString PollingResponse) :
    Outcome :=
  if dp.validate ≠ [] then { server := s, response := .invalidData dp.validate }
  else if s.accepts ctx dp.identity dp.token then
    { server := s
      call := some (.deferPoll dp.identity dp.timeout dp.requestData)
      response := relay backend }
  else { server := s, response := tokenNotValid }

def stopPolling (s : WebServer) (sp : StopPost) (backend : Except GoString PollingResponse) :
    Outcome :=
  if sp.validate ≠ [] then { server := s, response := .invalidData sp.validate }
  else if s.accepts ctx sp.identity sp.token then
    { server := s.delete sp.token
      call := some (.stopPoll sp.identity)
      response := relay backend }
  else { server := s, response := tokenNotValid }

def handle (s : WebServer) : Request → Outcome
  | .register pd key backend => s.registerDevice ctx pd key backend
  | .defer dp backend => s.deferPolling ctx dp backend
  | .stop sp backend => s.stopPolling ctx sp backend

/-- Requests are served one after the other. -/
def step (s : WebServer) (r : Request) : Option WebServer := some (s.handle ctx r).server

end WebServer

/-! ## What becomes of a token -/

/-- An entry of the history: a token was issued to an identity, or used in a stop. -/
inductive Event
  | issued (token : GoString) (i : Identity)
  | used (token : GoString)
  deriving DecidableEq, Repr

/-- What a request writes into the history. -/
def WebServer.events (ctx : Context) (s : WebServer) (r : Request) : List Event :=
  match r, (s.handle ctx r).call with
  | .register _ key _, some call =>
    [.issued (createAuthToken ctx call.identity key) call.identity]
  | .stop sp _, some _ => [.used sp.token]
  | _, _ => []

/-- The token was issued to the identity and has not been used since. -/
def Outstanding (log : List Event) (token : GoString) (i : Identity) : Prop :=
  ∃ pre post, log = pre ++ .issued token i :: post ∧ .used token ∉ post

theorem Outstanding.issue (log : List Event) :
    Outstanding (log ++ [.issued token i]) token i :=
  ⟨log, [], rfl, List.not_mem_nil⟩

theorem Outstanding.append (h : Outstanding log token i) (hused : .used token ∉ events) :
    Outstanding (log ++ events) token i := by
  obtain ⟨pre, post, rfl, hpost⟩ := h
  refine ⟨pre, post ++ events, by simp, ?_⟩
  intro hmem
  exact (List.mem_append.mp hmem).elim hpost hused

/-- Every stored key made the token it is stored under, for a valid identity to which the token is
outstanding. -/
def Bound (ctx : Context) (log : List Event) (s : WebServer) : Prop :=
  ∀ token key, s.authTokenKeys token = some key →
    ∃ i : Identity, i.valid ∧ token = createAuthToken ctx i key ∧ Outstanding log token i

section
variable {ctx : Context} {s : WebServer}

theorem Identity.valid_of_invalidFields {i : Identity} (h : i.invalidFields = []) : i.valid := by
  simp only [Identity.invalidFields, List.append_eq_nil_iff, check_eq_nil] at h
  simp only [Identity.valid, Bool.and_eq_true]
  exact h

/-- A registration is turned away, or it stores a key for a valid identity and calls the backend. -/
theorem registerDevice_cases (ctx : Context) (s : WebServer) (pd key backend) :
    let o := s.registerDevice ctx pd key backend
    (o.server = s ∧ o.call = none) ∨
    ∃ call : BackendCall, call.identity.valid ∧ o.call = some call ∧
      o.server = s.store (createAuthToken ctx call.identity key) key := by
  simp only [WebServer.registerDevice]
  split
  · exact .inl ⟨rfl, rfl⟩
  next hmissing =>
  split
  · exact .inl ⟨rfl, rfl⟩
  next hinvalid =>
  have hv := validated_of_validate
    (present_of_checkForMissingFields (not_not.mp hmissing)) (not_not.mp hinvalid)
  refine .inr ⟨_, ?_, rfl, rfl⟩
  simp only [Identity.valid, Bool.and_eq_true]
  exact ⟨⟨hv.userId, hv.deviceId⟩, hv.clientContext⟩

/-- A defer changes no key, and calls the backend only for an identity whose token is accepted. -/
theorem deferPolling_cases (ctx : Context) (s : WebServer) (dp backend) :
    let o := s.deferPolling ctx dp backend
    o.server = s ∧ ∀ call ∈ o.call,
      call.identity.valid ∧ s.accepts ctx call.identity dp.token := by
  simp only [WebServer.deferPolling]
  split
  · exact ⟨rfl, fun _ h => (nomatch h)⟩
  next hvalid =>
  split
  next haccepts =>
    refine ⟨rfl, ?_⟩
    rintro _ ⟨⟩
    simp only [DeferPost.validate, not_not, List.append_eq_nil_iff] at hvalid
    exact ⟨Identity.valid_of_invalidFields hvalid.1.1, haccepts⟩
  · exact ⟨rfl, fun _ h => (nomatch h)⟩

/-- A stop is turned away, or its token is accepted and the key deleted. -/
theorem stopPolling_cases (ctx : Context) (s : WebServer) (sp backend) :
    let o := s.stopPolling ctx sp backend
    (o.server = s ∧ o.call = none) ∨
    ∃ call : BackendCall, call.identity.valid ∧ s.accepts ctx call.identity sp.token ∧
      o.call = some call ∧ o.server = s.delete sp.token := by
  simp only [WebServer.stopPolling]
  split
  · exact .inl ⟨rfl, rfl⟩
  next hvalid =>
  split
  next haccepts =>
    have hi : sp.identity.valid := Identity.valid_of_invalidFields (not_not.mp hvalid)
    exact .inr ⟨.stopPoll sp.identity, hi, haccepts, rfl, rfl⟩
  · exact .inl ⟨rfl, rfl⟩

theorem Bound.step (h : Bound ctx log s) {r : Request} (hs : s.step ctx r = some s') :
    Bound ctx (log ++ s.events ctx r) s' := by
  obtain rfl : (s.handle ctx r).server = s' := Option.some.inj hs
  intro token key' hkey
  cases r with
  | register pd key backend =>
    simp only [WebServer.events, WebServer.handle] at hkey ⊢
    rcases registerDevice_cases ctx s pd key backend with
      ⟨hserver, hcall⟩ | ⟨call, hvalid, hcall, hserver⟩
    · rw [hserver] at hkey
      rw [hcall]
      simpa using h token key' hkey
    · rw [hserver] at hkey
      rw [hcall]
      by_cases htoken : token = createAuthToken ctx call.identity key
      · subst htoken
        obtain rfl : key = key' := by simpa [WebServer.store] using hkey
        exact ⟨call.identity, hvalid, rfl, .issue log⟩
      · obtain ⟨i, hi, heq, hout⟩ := h token key' (by simpa [WebServer.store, htoken] using hkey)
        exact ⟨i, hi, heq, hout.append (by simp)⟩
  | defer dp backend =>
    simp only [WebServer.handle, (deferPolling_cases ctx s dp backend).1] at hkey
    obtain ⟨i, hi, heq, hout⟩ := h token key' hkey
    exact ⟨i, hi, heq, hout.append (by simp [WebServer.events])⟩
  | stop sp backend =>
    simp only [WebServer.events, WebServer.handle] at hkey ⊢
    rcases stopPolling_cases ctx s sp backend with
      ⟨hserver, hcall⟩ | ⟨call, -, -, hcall, hserver⟩
    · rw [hserver] at hkey
      rw [hcall]
      simpa using h token key' hkey
    · rw [hserver] at hkey
      rw [hcall]
      have htoken : token ≠ sp.token := by
        rintro rfl
        simp [WebServer.delete] at hkey
      obtain ⟨i, hi, heq, hout⟩ := h token key' (by simpa [WebServer.delete, htoken] using hkey)
      exact ⟨i, hi, heq, hout.append (by simpa using htoken)⟩

end

/-! ## Binding -/

section
variable {ctx : Context} {s : WebServer}
  (hinj : ∀ key, Function.Injective (ctx.hmacSha256 key))
  (hbytes : ∀ key message, GoString.IsBytes (ctx.hmacSha256 key message))
include hinj hbytes

/-- A key accepts the token it made for the identity it made it for, and for no other. -/
theorem identity_of_validateAuthToken {i j : Identity} (hi : i.valid) (hj : j.valid)
    (h : validateAuthToken ctx j (createAuthToken ctx i key) key) : j = i := by
  rw [validateAuthToken, createAuthToken, GoString.base64Decode_base64Encode (hbytes _ _)] at h
  have hmac : ctx.hmacSha256 key (makeIdBytes i) = ctx.hmacSha256 key (makeIdBytes j) := by
    simpa [checkMAC] using h
  have hid : makeIdBytes j = makeIdBytes i := hinj key hmac.symm
  refine joined_inj ':' [] (GoString.lit ":") (by decide) hj hi ?_
  simpa [makeIdBytes, GoString.lit] using hid

/-- A token that is accepted for an identity is outstanding to it. -/
theorem Bound.outstanding (h : Bound ctx log s) {i : Identity} (hi : i.valid)
    (ha : s.accepts ctx i token) : Outstanding log token i := by
  unfold WebServer.accepts at ha
  split at ha
  · cases ha
  next key hkey =>
  obtain ⟨j, hj, rfl, hout⟩ := h token key hkey
  rw [identity_of_validateAuthToken hinj hbytes hj hi ha]
  exact hout

end

/-- Over every sequence of requests, a defer or a stop that calls the backend for an identity
presents a token that was issued to this identity and has not been used since. -/
theorem token_binding (ctx : Context) (hinj : ∀ key, Function.Injective (ctx.hmacSha256 key))
    (hbytes : ∀ key message, GoString.IsBytes (ctx.hmacSha256 key message)) {rs : List Request}
    {s : WebServer} (hrun : Run (WebServer.step ctx) Free {} rs s) {r : Request}
    {token : GoString} {call : BackendCall} (htoken : r.token = some token)
    (hcall : (s.handle ctx r).call = some call) :
    Outstanding (observe (WebServer.step ctx) (WebServer.events ctx) {} rs) token
      call.identity := by
  have hbound : Bound ctx ([] ++ observe (WebServer.step ctx) (WebServer.events ctx) {} rs) s :=
    hrun.observe_inv (fun h _ hs => h.step hs) fun _ _ h => (nomatch h)
  cases r with
  | register => cases htoken
  | defer dp backend =>
    cases htoken
    obtain ⟨hvalid, haccepts⟩ := (deferPolling_cases ctx s dp backend).2 call hcall
    exact hbound.outstanding hinj hbytes hvalid haccepts
  | stop sp backend =>
    cases htoken
    rcases stopPolling_cases ctx s sp backend with ⟨-, hnone⟩ | ⟨call', hvalid, haccepts, hsome, -⟩
    · cases hnone.symm.trans hcall
    · obtain rfl : call' = call := Option.some.inj (hsome.symm.trans hcall)
      exact hbound.outstanding hinj hbytes hvalid haccepts

/-- A key of zeros, and the token it makes for the identity of the iPad. -/
def zeroKey : GoString := List.replicate 256 '\x00'

def ipadToken : GoString := GoString.lit "QBuBQm604faHDpZ5Vt9/6A7RJj1pZu4LlaIOXlDBlz4="

/-- The MAC of the identity under that key. -/
def ipadMac : GoString :=
  [0x40, 0x1b, 0x81, 0x42, 0x6e, 0xb4, 0xe1, 0xf6, 0x87, 0x0e, 0x96, 0x79,
    0x56, 0xdf, 0x7f, 0xe8, 0x0e, 0xd1, 0x26, 0x3d, 0x69, 0x66, 0xee, 0x0b,
    0x95, 0xa2, 0x0e, 0x5e, 0x50, 0xc1, 0x97, 0x3e].map Char.ofNat

/-- A context that answers the one registration as the libraries do. -/
def ipadContext : Context where
  toEnv := registrationEnv
  imapFolderNames := [GoString.lit "Inbox"]
  hmacSha256 key message :=
    if key = zeroKey ∧ message = makeIdBytes identity then ipadMac
    else List.replicate (33 + Encodable.encode (message.map Char.toNat)) '\x00'
  sha256 _ :=
    [0xfa, 0x1f, 0x28, 0x8b, 0x1a, 0xcf, 0xe4, 0x17, 0x99, 0x71, 0x89, 0xfa,
      0x7b, 0xe2, 0x4e, 0xf6, 0x17, 0xbe, 0xcf, 0x99, 0x2a, 0xd5, 0xa3, 0xc3,
      0x83, 0xf6, 0x78, 0xaa, 0x93, 0x04, 0x3d, 0x57].map Char.ofNat

theorem ipadContext_injective (key : GoString) :
    Function.Injective (ipadContext.hmacSha256 key) := by
  intro m m' h
  simp only [ipadContext] at h
  split at h <;> split at h
  next hm hm' => exact hm.2.trans hm'.2.symm
  next =>
    have := congrArg List.length h
    simp [ipadMac] at this
    omega
  next =>
    have := congrArg List.length h
    simp [ipadMac] at this
    omega
  next =>
    have hlen := congrArg List.length h
    simp only [List.length_replicate, Nat.add_left_cancel_iff] at hlen
    exact List.map_injective_iff.mpr (fun _ _ => Char.toNat_inj.mp) (Encodable.encode_injective hlen)

theorem ipadContext_bytes (key message : GoString) :
    GoString.IsBytes (ipadContext.hmacSha256 key message) := by
  intro c hc
  simp only [ipadContext] at hc
  split at hc
  · have hall : ipadMac.all (fun c => c.toNat < 256) := by decide
    simpa using List.all_eq_true.mp hall c hc
  · rw [List.eq_of_mem_replicate hc]
    decide

/-- The iPad registers, and defers with the token it got. -/
def ipadRegister : Request := .register registration zeroKey (.ok { code := .ok })

def ipadDefer : DeferPost where
  userId := identity.userId
  clientContext := identity.clientContext
  deviceId := identity.deviceId
  token := ipadToken

theorem token_binding_ipad :
    ∃ s call, Run (WebServer.step ipadContext) Free {} [ipadRegister] s ∧
      (s.handle ipadContext (.defer ipadDefer (.ok { code := .ok }))).call = some call ∧
      Outstanding (observe (WebServer.step ipadContext) (WebServer.events ipadContext) {}
        [ipadRegister]) ipadToken call.identity := by
  have hrun : Run (WebServer.step ipadContext) Free {} [ipadRegister] _ := .single trivial rfl
  have hcall : (WebServer.handle ipadContext (WebServer.handle ipadContext {} ipadRegister).server
      (.defer ipadDefer (.ok { code := .ok }))).call = some (.deferPoll identity 0 none) := by
    decide +kernel
  exact ⟨_, _, hrun, hcall,
    token_binding ipadContext ipadContext_injective ipadContext_bytes hrun rfl hcall⟩

end Pinger.Web
