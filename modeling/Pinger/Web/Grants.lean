import Pinger.Web.Tokens

/-! # What the tokens stand for

The web server keeps a key under each token and asks whether the token is the MAC of an identity
under that key. Without any key, it keeps to whom it has given each token: a defer or a stop is let
through when its token was given to its identity, and a stop gives the token up. -/

namespace Pinger.Web

open Rpc Transition

/-! ## The server without keys -/

/-- Whom each token was given to. -/
abbrev Grants := GoString → Option Identity

/-- What a request does to the tokens, the call it makes, and the answer. -/
structure Granted where
  grants : Grants
  call : Option BackendCall := none
  response : Response

namespace Grants
variable (ctx : Context) (g : Grants)

def register (pd : RegisterPostData) (key : GoString) (backend : Except GoString PollingResponse) :
    Granted :=
  let (pd, missingFields) := pd.checkForMissingFields
  if missingFields ≠ [] then { grants := g, response := .invalidData missingFields }
  else
    let (pd, invalidFields) := pd.validate ctx.toEnv ctx.imapFolderNames
    if invalidFields ≠ [] then { grants := g, response := .invalidData invalidFields }
    else
      let i : Identity := ⟨pd.userId, pd.clientContext, pd.deviceId⟩
      let token := createAuthToken ctx i key
      { grants := Function.update g token (some i)
        call := some (.startPoll (pd.asMailInfo (makeSessionId ctx token)))
        response :=
          match backend with
          | .error _ => .rpcServerError
          | .ok reply => .status (statusReply reply) (if reply.code = .error then none else token) }

/-- A request for `i` that presents a token and is valid when `invalidFields` is empty. -/
def present (i : Identity) (token : GoString) (invalidFields : List GoString) (call : BackendCall)
    (backend : Except GoString PollingResponse) (after : Grants) : Granted :=
  if invalidFields ≠ [] then { grants := g, response := .invalidData invalidFields }
  else if g token = some i then
    { grants := after, call := some call, response := WebServer.relay backend }
  else { grants := g, response := tokenNotValid }

def handle : Request → Granted
  | .register pd key backend => g.register ctx pd key backend
  | .defer dp backend =>
    g.present dp.identity dp.token dp.validate (.deferPoll dp.identity dp.timeout dp.requestData)
      backend g
  | .stop sp backend =>
    g.present sp.identity sp.token sp.validate (.stopPoll sp.identity) backend
      (Function.update g sp.token none)

def step (r : Request) : Option Grants := some (g.handle ctx r).grants

end Grants

/-- A token is kept by both, or by neither; its key has made it for whom it was given to. -/
inductive Held (ctx : Context) (token : GoString) : Option GoString → Option Identity → Prop
  | neither : Held ctx token none none
  | both : i.valid → token = createAuthToken ctx i key → Held ctx token (some key) (some i)

def Simulates (ctx : Context) (s : WebServer) (g : Grants) : Prop :=
  ∀ token, Held ctx token (s.authTokenKeys token) (g token)

section
variable {ctx : Context} {s : WebServer} {g : Grants}

theorem Simulates.update (h : Simulates ctx s g) (hheld : Held ctx token key i) :
    Simulates ctx { s with authTokenKeys := Function.update s.authTokenKeys token key }
      (Function.update g token i) := by
  intro token'
  by_cases htoken : token' = token
  · subst htoken
    simpa only [Function.update_self] using hheld
  · simpa only [Function.update_of_ne htoken] using h token'

theorem Simulates.register (h : Simulates ctx s g) (pd key backend) :
    let o := s.registerDevice ctx pd key backend
    let o' := g.register ctx pd key backend
    Simulates ctx o.server o'.grants ∧ o.call = o'.call ∧ o.response = o'.response := by
  simp only [WebServer.registerDevice, Grants.register]
  split
  · exact ⟨h, rfl, rfl⟩
  next hmissing =>
    split
    · exact ⟨h, rfl, rfl⟩
    next hinvalid =>
      have hv := validated_of_validate
        (present_of_checkForMissingFields (not_not.mp hmissing)) (not_not.mp hinvalid)
      refine ⟨h.update (.both ?_ rfl), rfl, rfl⟩
      simp only [Identity.valid, Bool.and_eq_true]
      exact ⟨⟨hv.userId, hv.deviceId⟩, hv.clientContext⟩

variable (hinj : ∀ key, Function.Injective (ctx.hmacSha256 key))
  (hbytes : ∀ key message, GoString.IsBytes (ctx.hmacSha256 key message))
include hinj hbytes

/-- The token of an identity is accepted for it. -/
theorem Simulates.accepts_iff (h : Simulates ctx s g) {i : Identity} (hi : i.valid)
    (token : GoString) :
    s.accepts ctx i token ↔ g token = some i := by
  have hheld := h token
  rw [WebServer.accepts]
  cases hheld' : s.authTokenKeys token with
  | none =>
    rw [hheld'] at hheld
    generalize g token = o at hheld
    cases hheld
    simp
  | some key =>
    rw [hheld'] at hheld
    generalize g token = o at hheld
    cases hheld with
    | @both j _ hj htoken =>
      subst htoken
      constructor
      · intro ha
        rw [identity_of_validateAuthToken hinj hbytes hj hi ha]
      · intro heq
        cases heq
        simp only [validateAuthToken, createAuthToken,
          GoString.base64Decode_base64Encode (hbytes _ _), checkMAC, decide_true]

theorem Simulates.defer (h : Simulates ctx s g) (dp backend) :
    let o := s.deferPolling ctx dp backend
    let o' := g.handle ctx (.defer dp backend)
    Simulates ctx o.server o'.grants ∧ o.call = o'.call ∧ o.response = o'.response := by
  simp only [WebServer.deferPolling, Grants.handle, Grants.present]
  split
  · exact ⟨h, rfl, rfl⟩
  next hvalid =>
    simp only [DeferPost.validate, not_not, List.append_eq_nil_iff] at hvalid
    have hi : dp.identity.valid := Identity.valid_of_invalidFields hvalid.1.1
    have hiff := h.accepts_iff hinj hbytes hi dp.token
    simp only [hiff]
    split
    · exact ⟨h, rfl, rfl⟩
    · exact ⟨h, rfl, rfl⟩

theorem Simulates.stop (h : Simulates ctx s g) (sp backend) :
    let o := s.stopPolling ctx sp backend
    let o' := g.handle ctx (.stop sp backend)
    Simulates ctx o.server o'.grants ∧ o.call = o'.call ∧ o.response = o'.response := by
  simp only [WebServer.stopPolling, Grants.handle, Grants.present]
  split
  · exact ⟨h, rfl, rfl⟩
  next hvalid =>
    have hi : sp.identity.valid := Identity.valid_of_invalidFields (not_not.mp hvalid)
    have hiff := h.accepts_iff hinj hbytes hi sp.token
    simp only [hiff]
    split
    · exact ⟨h.update .neither, rfl, rfl⟩
    · exact ⟨h, rfl, rfl⟩

theorem Simulates.handle (h : Simulates ctx s g) (r : Request) :
    let o := s.handle ctx r
    let o' := g.handle ctx r
    Simulates ctx o.server o'.grants ∧ o.call = o'.call ∧ o.response = o'.response := by
  cases r with
  | register pd key backend => exact h.register pd key backend
  | defer dp backend => exact h.defer hinj hbytes dp backend
  | stop sp backend => exact h.stop hinj hbytes sp backend

end

end Pinger.Web
