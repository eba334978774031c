import Pinger.Web.Tokens

/-! # What a failed request leaves

The handlers from the HTTP request on, for every way a call of the backend can end. A registration
stores its key before it calls the backend and keeps it when the call fails or is answered with an
error; a stop deletes the key before it calls the backend and does not put it back. -/

namespace Pinger.Web

open Rpc

/-! ## Requests and answers -/

/-- A request; `body` is none when the decoder fails. -/
structure HttpRequest (β : Type) where
  method : GoString := GoString.lit "POST"
  contentType : GoString := GoString.lit "application/json"
  body : Option β

/-- How a call of the backend ends. The code of a reply is a number on the wire. -/
inductive BackendEnd
  | failed (err : GoString)
  | replied (code : Int) (message : GoString)
  deriving DecidableEq, Repr

/-- The end of a call as the handlers switch on it; none is an unknown code. -/
def BackendEnd.known : BackendEnd → Option (Except GoString PollingResponse)
  | .failed err => some (.error err)
  | .replied 0 message => some (.ok ⟨.error, message⟩)
  | .replied 1 message => some (.ok ⟨.ok, message⟩)
  | .replied 2 message => some (.ok ⟨.warn, message⟩)
  | .replied _ _ => none

inductive Answer
  | httpError (message : GoString) (code : Nat)
  | sent (response : Response)
  | panicked
  deriving DecidableEq, Repr

/-- The token the client is sent. -/
def Answer.token : Answer → Option GoString
  | .sent (.status _ token) => token
  | _ => none

structure Handled where
  server : WebServer
  call : Option BackendCall := none
  answer : Answer

/-- An answer of `http.Error` that changes nothing. -/
def WebServer.httpError (s : WebServer) (message : String) : Handled :=
  { server := s, answer := .httpError (GoString.lit message) 400 }

/-- What a handler that has decoded its request does. For a reply with an unknown code it asks the
nil error for its text, which is a panic. -/
def Handled.of (backend : BackendEnd) (o : Except GoString PollingResponse → Outcome) : Handled :=
  match backend.known with
  | some reply =>
    { server := (o reply).server, call := (o reply).call, answer := .sent (o reply).response }
  | none =>
    let o := o (.error [])
    { server := o.server
      call := o.call
      answer := if o.call.isSome then .panicked else .sent o.response }

/-- The keys and the call do not depend on how the call ends. -/
theorem Handled.of_frame {o : Except GoString PollingResponse → Outcome}
    (h : ∀ reply, (o reply).server = s' ∧ (o reply).call = c) (backend : BackendEnd) :
    (Handled.of backend o).server = s' ∧ (Handled.of backend o).call = c := by
  unfold Handled.of
  split
  next reply _ => exact h reply
  next => exact h (.error [])

variable (ctx : Context) (s : WebServer)

/-- `registerDevice`, from the HTTP request on. -/
def WebServer.serveRegister (r : HttpRequest RegisterPostData) (key : GoString)
    (backend : BackendEnd) : Handled :=
  if r.method ≠ GoString.lit "POST" then s.httpError "UNKNOWN METHOD"
  else if r.contentType = GoString.lit "application/json" ∨
      r.contentType = GoString.lit "text/json" then
    match r.body with
    | none => s.httpError "Could not parse json"
    | some pd => .of backend (s.registerDevice ctx pd key)
  else s.httpError "UNKNOWN Encoding"

/-- `stopPolling`, from the HTTP request on. -/
def WebServer.serveStop (r : HttpRequest StopPost) (backend : BackendEnd) : Handled :=
  if r.method ≠ GoString.lit "POST" then s.httpError "UNKNOWN METHOD"
  else if r.contentType ≠ GoString.lit "application/json" then s.httpError "UNKNOWN Encoding"
  else
    match r.body with
    | none => s.httpError "Could not parse json"
    | some sp => .of backend (s.stopPolling ctx sp)

/-! ## What is admitted -/

/-- The identity of a registration that passes the checks. -/
def RegisterPostData.admitted (pd : RegisterPostData) : Option Identity :=
  let (pd, missingFields) := pd.checkForMissingFields
  if missingFields ≠ [] then none
  else
    let (pd, invalidFields) := pd.validate ctx.toEnv ctx.imapFolderNames
    if invalidFields ≠ [] then none
    else some ⟨pd.userId, pd.clientContext, pd.deviceId⟩

/-- The identity of a request for a registration that passes the checks. -/
def registrant (r : HttpRequest RegisterPostData) : Option Identity :=
  if r.method = GoString.lit "POST" ∧ (r.contentType = GoString.lit "application/json" ∨
      r.contentType = GoString.lit "text/json") then
    r.body.bind (RegisterPostData.admitted ctx)
  else none

/-- The request for a stop passes the checks and presents the token of its identity. -/
def stopAccepted (r : HttpRequest StopPost) : Bool :=
  r.method = GoString.lit "POST" && r.contentType = GoString.lit "application/json" &&
    r.body.any fun sp => sp.validate = [] && s.accepts ctx sp.identity sp.token

variable {ctx s}

theorem registerDevice_refused (h : RegisterPostData.admitted ctx pd = none) (key backend) :
    ∃ fields, s.registerDevice ctx pd key backend =
      { server := s, response := .invalidData fields } := by
  simp only [RegisterPostData.admitted] at h
  simp only [WebServer.registerDevice]
  split at h
  next hm => exact ⟨_, if_pos hm⟩
  next hm =>
  split at h
  next hi => exact ⟨_, by rw [if_neg hm, if_pos hi]⟩
  next => cases h

theorem registerDevice_admitted (h : RegisterPostData.admitted ctx pd = some i) (key backend) :
    ∃ call, s.registerDevice ctx pd key backend =
      { server := s.store (createAuthToken ctx i key) key
        call := some call
        response := match backend with
          | .error _ => .rpcServerError
          | .ok reply => .status (statusReply reply)
              (if reply.code = .error then none else createAuthToken ctx i key) } := by
  simp only [RegisterPostData.admitted] at h
  simp only [WebServer.registerDevice]
  split at h
  · cases h
  next hm =>
  split at h
  · cases h
  next hi =>
  cases h
  exact ⟨_, (if_neg hm).trans (if_neg hi)⟩

theorem serveRegister_refused (h : registrant ctx r = none) (key backend) :
    (s.serveRegister ctx r key backend).server = s := by
  unfold registrant at h
  unfold WebServer.serveRegister
  by_cases hm : r.method = GoString.lit "POST"
  · rw [if_neg (not_not.mpr hm)]
    split at h
    next hc =>
      rw [if_pos hc.2]
      cases hb : r.body with
      | none => rfl
      | some pd =>
        rw [hb, Option.bind_some] at h
        refine (Handled.of_frame (c := none) (fun reply => ?_) backend).1
        obtain ⟨fields, hd⟩ := registerDevice_refused (s := s) h key reply
        rw [hd]
        exact ⟨rfl, rfl⟩
    next hc =>
      rw [if_neg fun hc' => hc ⟨hm, hc'⟩]
      rfl
  · rw [if_pos hm]
    rfl

/-- A registration that passes the checks stores its key, and the client is sent the token when
the backend answers OK or WARN. -/
theorem serveRegister_admitted (h : registrant ctx r = some i) (key backend) :
    (s.serveRegister ctx r key backend).server = s.store (createAuthToken ctx i key) key ∧
    ((s.serveRegister ctx r key backend).answer.token = none ↔
      ∀ message, backend ≠ .replied 1 message ∧ backend ≠ .replied 2 message) := by
  unfold registrant at h
  split at h
  next hc =>
    obtain ⟨pd, hb, hpd⟩ := Option.bind_eq_some_iff.mp h
    simp only [WebServer.serveRegister, if_neg (not_not.mpr hc.1), if_pos hc.2, hb, Handled.of]
    have hd := fun backend => (registerDevice_admitted (s := s) hpd key backend)
    cases hk : backend.known with
    | none =>
      obtain ⟨call, hd⟩ := hd (.error [])
      simp only [hd]
      refine ⟨trivial, iff_of_true rfl fun message => ⟨?_, ?_⟩⟩
      · rintro rfl
        cases hk
      · rintro rfl
        cases hk
    | some reply =>
      obtain ⟨call, hd⟩ := hd reply
      simp only [hd]
      refine ⟨trivial, ?_⟩
      unfold BackendEnd.known at hk
      split at hk <;> cases hk <;> simp [Answer.token]
  next => cases h

theorem serveStop_refused (h : stopAccepted ctx s r = false) (backend) :
    (s.serveStop ctx r backend).server = s ∧ (s.serveStop ctx r backend).call = none := by
  unfold WebServer.serveStop
  by_cases hm : r.method = GoString.lit "POST"
  · by_cases hc : r.contentType = GoString.lit "application/json"
    · rw [if_neg (not_not.mpr hm), if_neg (not_not.mpr hc)]
      cases hb : r.body with
      | none => exact ⟨rfl, rfl⟩
      | some sp =>
        simp only [stopAccepted, hm, hc, hb, Option.any_some, decide_true, Bool.true_and] at h
        refine Handled.of_frame (fun reply => ?_) backend
        unfold WebServer.stopPolling
        split
        · exact ⟨rfl, rfl⟩
        next hv =>
        split
        next ha => simp [not_not.mp hv, ha] at h
        · exact ⟨rfl, rfl⟩
    · rw [if_neg (not_not.mpr hm), if_pos hc]
      exact ⟨rfl, rfl⟩
  · rw [if_pos hm]
    exact ⟨rfl, rfl⟩

theorem serveStop_accepted (h : stopAccepted ctx s r) (backend) :
    ∃ sp : StopPost, (s.authTokenKeys sp.token).isSome ∧
      (s.serveStop ctx r backend).server = s.delete sp.token ∧
      (s.serveStop ctx r backend).call = some (.stopPoll sp.identity) := by
  simp only [stopAccepted, Bool.and_eq_true, decide_eq_true_eq, Option.any_eq_true] at h
  obtain ⟨⟨hm, hc⟩, sp, hb, hv, ha⟩ := h
  refine ⟨sp, ?_, ?_⟩
  · unfold WebServer.accepts at ha
    split at ha
    · cases ha
    next hkey => rw [hkey]; rfl
  · simp only [WebServer.serveStop, if_neg (not_not.mpr hm), if_neg (not_not.mpr hc), hb]
    refine Handled.of_frame (fun reply => ?_) backend
    rw [WebServer.stopPolling, if_neg (not_not.mpr hv), if_pos ha]
    exact ⟨rfl, rfl⟩

/-! ## Atomicity -/

/-- A registration that sends the client no token leaves the keys as they were. -/
def RegisterAtomic (s : WebServer) (h : Handled) : Prop :=
  h.answer.token = none → h.server.authTokenKeys = s.authTokenKeys

/-- A stop whose call of `StopPoll` has failed leaves the keys as they were. -/
def StopAtomic (s : WebServer) (backend : BackendEnd) (h : Handled) : Prop :=
  h.call.isSome → ∀ err, backend = .failed err → h.server.authTokenKeys = s.authTokenKeys

theorem authTokenKeys_store_eq_iff :
    (s.store token key).authTokenKeys = s.authTokenKeys ↔ s.authTokenKeys token = some key := by
  rw [WebServer.store, Function.update_eq_self_iff]
  exact eq_comm

theorem authTokenKeys_delete_ne (h : (s.authTokenKeys token).isSome) :
    (s.delete token).authTokenKeys ≠ s.authTokenKeys := by
  rw [WebServer.delete, Ne, Function.update_eq_self_iff]
  intro hnone
  rw [← hnone] at h
  cases h

theorem registerAtomic_iff (r : HttpRequest RegisterPostData) (key : GoString)
    (backend : BackendEnd) : RegisterAtomic s (s.serveRegister ctx r key backend) ↔
      ∀ i, registrant ctx r = some i →
        (∃ message, backend = .replied 1 message ∨ backend = .replied 2 message) ∨
        s.authTokenKeys (createAuthToken ctx i key) = some key := by
  unfold RegisterAtomic
  cases hr : registrant ctx r with
  | none =>
    rw [serveRegister_refused hr]
    exact iff_of_true (fun _ => rfl) fun i hi => nomatch hi
  | some i =>
    obtain ⟨hs, ht⟩ := serveRegister_admitted (s := s) hr key backend
    simp only [hs, ht, authTokenKeys_store_eq_iff, Option.some.injEq, forall_eq']
    rw [imp_iff_not_or, not_forall]
    simp only [not_and_or, not_not]

theorem stopAtomic_iff (r : HttpRequest StopPost) (backend : BackendEnd) :
    StopAtomic s backend (s.serveStop ctx r backend) ↔
      (stopAccepted ctx s r → ∀ err, backend ≠ .failed err) := by
  unfold StopAtomic
  cases hr : stopAccepted ctx s r with
  | false =>
    rw [(serveStop_refused hr backend).2]
    exact iff_of_true (fun h => nomatch h) fun h => nomatch h
  | true =>
    obtain ⟨sp, hkey, hs, hc⟩ := serveStop_accepted hr backend
    rw [hs, hc]
    constructor
    · exact fun h _ err he => authTokenKeys_delete_ne hkey (h rfl err he)
    · exact fun h _ err he => absurd he (h rfl err)

/-- A registration is atomic exactly when it is refused before it calls the backend, the backend
answers OK or WARN, or the key it drew stood under its token already; a stop, exactly when it is
refused before it calls the backend, or the call does not fail. -/
theorem handlers_atomic_iff (ctx : Context) (s : WebServer) (r : HttpRequest RegisterPostData)
    (key : GoString) (started : BackendEnd) (r' : HttpRequest StopPost) (stopped : BackendEnd) :
    (RegisterAtomic s (s.serveRegister ctx r key started) ↔
      ∀ i, registrant ctx r = some i →
        (∃ message, started = .replied 1 message ∨ started = .replied 2 message) ∨
        s.authTokenKeys (createAuthToken ctx i key) = some key) ∧
    (StopAtomic s stopped (s.serveStop ctx r' stopped) ↔
      (stopAccepted ctx s r' → ∀ err, stopped ≠ .failed err)) :=
  ⟨registerAtomic_iff r key started, stopAtomic_iff r' stopped⟩

def connectionRefused : BackendEnd :=
  .failed (GoString.lit "dial tcp 127.0.0.1:10: connection refused")

def ipadStop : StopPost where
  userId := identity.userId
  clientContext := identity.clientContext
  deviceId := identity.deviceId
  token := ipadToken

/-- The backend is down: the registration of the iPad leaves a key no client has the token of, and
its stop takes the key away, so that it cannot be tried again. -/
theorem backend_down_keys :
    ¬RegisterAtomic {} (WebServer.serveRegister ipadContext {} { body := registration } zeroKey
      connectionRefused) ∧
    ¬StopAtomic (WebServer.store {} ipadToken zeroKey) connectionRefused
      ((WebServer.store {} ipadToken zeroKey).serveStop ipadContext { body := ipadStop }
        connectionRefused) := by
  constructor
  · rw [registerAtomic_iff]
    intro h
    obtain ⟨i, hi⟩ := Option.isSome_iff_exists.mp
      (show (registrant ipadContext { body := registration }).isSome by decide +kernel)
    rcases h i hi with ⟨_, h | h⟩ | h
    · cases h
    · cases h
    · cases h
  · rw [stopAtomic_iff]
    intro h
    exact h (by decide +kernel) _ rfl

end Pinger.Web
