import Pinger.Lib.Format
import Pinger.Web.AliveCheck

/-! # Replies

A handler answers with the JSON text of a map, and hands that text to `fmt.Fprintf` as the format.
The message of the backend is a part of it, so a percent sign in the message is taken for the
beginning of a directive. -/

namespace Pinger.Web

open GoString (lit)
open Rpc

/-! ## Bodies -/

def statusText : PollingReplyType → GoString
  | .ok => lit "OK"
  | .warn => lit "WARN"
  | .error => lit "ERROR"

/-- The map, in the order of its keys. -/
def responseData (reply : PollingResponse) (token : Option GoString) :
    List (GoString × GoString) :=
  [(lit "Message", reply.message), (lit "Status", statusText reply.code)] ++
    token.toList.map fun token => (lit "Token", token)

/-- `json.Marshal(responseData)`. -/
def responseJson (reply : PollingResponse) (token : Option GoString) : GoString :=
  Json.encodeObject (responseData reply token)

/-- What `fmt.Fprintf(w, string(responseJson))` writes. -/
def body (reply : PollingResponse) (token : Option GoString) : GoString :=
  Format.sprintf (responseJson reply token)

/-- The body is the text of the map, and the client reads the map from it. -/
def Recovers (reply : PollingResponse) (token : Option GoString) : Prop :=
  body reply token = responseJson reply token ∧
    Json.decodeObject (body reply token) = some (responseData reply token)

instance (reply : PollingResponse) (token : Option GoString) : Decidable (Recovers reply token) :=
  inferInstanceAs (Decidable (_ ∧ _))

/-- A token, if there is one, has only characters of base 64. -/
def TokenText (token : Option GoString) : Prop := ∀ t ∈ token, t.all GoString.isBase64

variable {reply : PollingResponse} {token : Option GoString}

theorem verbatim_percent : Json.Verbatim '%' := ⟨by decide, by decide, by decide, by decide⟩

theorem percent_not_base64 (h : TokenText token) (ht : t ∈ token) : '%' ∉ t := fun hmem =>
  absurd (List.all_eq_true.mp (h t ht) _ hmem) (by decide)

theorem ascii_of_isBase64 (h : GoString.isBase64 c) : c.toNat < 0x80 := by
  have hle : ∀ d : Char, d.toNat < 0x80 → c ≤ d → c.toNat < 0x80 :=
    fun d hd hc => Nat.lt_of_le_of_lt (show c.toNat ≤ d.toNat from hc) hd
  simp only [GoString.isBase64, GoString.isAlnum, GoString.isDigit, Bool.or_eq_true,
    Bool.and_eq_true, decide_eq_true_eq] at h
  rcases h with ((((⟨-, h⟩ | ⟨-, h⟩) | ⟨-, h⟩) | rfl) | rfl) | rfl
  · exact hle _ (by decide) h
  · exact hle _ (by decide) h
  · exact hle _ (by decide) h
  · decide
  · decide
  · decide

theorem statusText_plain (code : PollingReplyType) :
    '%' ∉ statusText code ∧ GoString.validString (statusText code) := by
  cases code <;> decide

/-- Of the texts in the map, only the message may have a percent sign. -/
theorem percent_mem_responseJson (htoken : TokenText token) :
    '%' ∈ responseJson reply token ↔ '%' ∈ reply.message := by
  have hkeys : '%' ∉ lit "Message" ∧ '%' ∉ lit "Status" ∧ '%' ∉ lit "Token" := by decide
  rw [responseJson, Json.mem_encodeObject verbatim_percent, responseData]
  simp only [List.mem_append, List.mem_cons, List.not_mem_nil, or_false, List.mem_map,
    Option.mem_toList]
  constructor
  · rintro ⟨member, (rfl | rfl) | ⟨t, ht, rfl⟩, hkey | hvalue⟩
    · exact absurd hkey hkeys.1
    · exact hvalue
    · exact absurd hkey hkeys.2.1
    · exact absurd hvalue (statusText_plain _).1
    · exact absurd hkey hkeys.2.2
    · exact absurd hvalue (percent_not_base64 htoken ht)
  · exact fun h => ⟨_, .inl (.inl rfl), .inr h⟩

/-- The body is the text of the map exactly when the message has no percent sign. -/
theorem body_eq_iff (htoken : TokenText token) :
    body reply token = responseJson reply token ↔ '%' ∉ reply.message := by
  rw [body, Format.sprintf_eq_self_iff, percent_mem_responseJson htoken]

/-- The text of the map is read back exactly when the message is valid UTF-8. -/
theorem decode_responseJson_iff (htoken : TokenText token) :
    Json.decodeObject (responseJson reply token) = some (responseData reply token) ↔
      GoString.validString reply.message := by
  have hkeys : GoString.validString (lit "Message") ∧ GoString.validString (lit "Status") ∧
      GoString.validString (lit "Token") := by decide
  have hvalidToken : ∀ t ∈ token, GoString.toValid t = t := fun t ht =>
    GoString.toValid_eq_self <| GoString.validString_of_ascii fun c hc =>
      ascii_of_isBase64 (List.all_eq_true.mp (htoken t ht) c hc)
  have hmembers : (responseData reply token).map Json.validMember =
      responseData { reply with message := GoString.toValid reply.message } token := by
    have htokens : (token.toList.map fun t => (lit "Token", t)).map Json.validMember =
        token.toList.map fun t => (lit "Token", t) := by
      rw [List.map_map]
      refine List.map_congr_left fun t ht => ?_
      rw [Function.comp_apply, Json.validMember, GoString.toValid_eq_self hkeys.2.2,
        hvalidToken t (Option.mem_toList.mp ht)]
    rw [responseData, List.map_append, htokens]
    simp only [List.map_cons, List.map_nil, Json.validMember, GoString.toValid_eq_self hkeys.1,
      GoString.toValid_eq_self hkeys.2.1, GoString.toValid_eq_self (statusText_plain _).2]
    rfl
  rw [responseJson, Json.decodeObject_encodeObject, hmembers, Option.some.injEq,
    ← GoString.toValid_eq_self_iff]
  simp [responseData]

theorem recovers_iff (htoken : TokenText token) :
    Recovers reply token ↔ '%' ∉ reply.message ∧ GoString.validString reply.message := by
  rw [Recovers, body_eq_iff htoken]
  refine and_congr_right fun hpercent => ?_
  rw [(body_eq_iff htoken).mpr hpercent, decode_responseJson_iff htoken]

/-! ## The handlers -/

/-- The answer of the backend, if it is called. -/
def Request.backend : Request → Except GoString PollingResponse
  | .register _ _ backend | .defer _ backend | .stop _ backend => backend

theorem tokenText_createAuthToken (ctx : Context) (i : Identity) (key : GoString) :
    TokenText (some (createAuthToken ctx i key)) := by
  intro t ht
  cases ht
  exact GoString.isBase64_base64Encode _

theorem tokenText_none : TokenText none := fun t ht => by cases ht

/-- A handler that calls the backend answers with what the backend has answered. -/
theorem handle_response (ctx : Context) (s : WebServer) (r : Request)
    (hbackend : r.backend = .ok reply) (hcall : (s.handle ctx r).call.isSome) :
    ∃ token, TokenText token ∧ (s.handle ctx r).response = .status (statusReply reply) token := by
  cases r with
  | register pd key backend =>
    obtain rfl : backend = .ok reply := hbackend
    simp only [WebServer.handle, WebServer.registerDevice] at hcall ⊢
    split at hcall
    · cases hcall
    next hmissing =>
    split at hcall
    · cases hcall
    next hinvalid =>
    rw [if_neg hmissing, if_neg hinvalid]
    refine ⟨_, ?_, rfl⟩
    split
    · exact tokenText_none
    · exact tokenText_createAuthToken ctx _ key
  | defer dp backend =>
    obtain rfl : backend = .ok reply := hbackend
    simp only [WebServer.handle, WebServer.deferPolling] at hcall ⊢
    split at hcall
    · cases hcall
    next hvalid =>
    split at hcall
    next haccepts =>
      rw [if_neg hvalid, if_pos haccepts]
      exact ⟨none, tokenText_none, rfl⟩
    next => cases hcall
  | stop sp backend =>
    obtain rfl : backend = .ok reply := hbackend
    simp only [WebServer.handle, WebServer.stopPolling] at hcall ⊢
    split at hcall
    · cases hcall
    next hvalid =>
    split at hcall
    next haccepts =>
      rw [if_neg hvalid, if_pos haccepts]
      exact ⟨none, tokenText_none, rfl⟩
    next => cases hcall

theorem aliveCheck_response {cfg : AliveConfig} {r : AliveRequest} {answer : PollingResponse}
    (h : (aliveCheck cfg r (.ok reply)).response = .status answer) :
    answer = statusReply reply := by
  simp only [aliveCheck] at h
  split at h
  · cases h
  · split at h
    · cases h
    · cases h
    · split at h
      · cases h
      · split at h
        · cases h
        · dsimp only at h
          split at h
          · cases h
          · split at h
            · cases h
            · exact (AliveResponse.status.inj h).symm

/-- The message of an OK is dropped. -/
theorem percent_statusReply :
    '%' ∉ (statusReply reply).message ↔ reply.code = .ok ∨ '%' ∉ reply.message := by
  obtain ⟨code, message⟩ := reply
  cases code <;> simp [statusReply]

theorem validString_statusReply : GoString.validString (statusReply reply).message ↔
    reply.code = .ok ∨ GoString.validString reply.message := by
  obtain ⟨code, message⟩ := reply
  cases code <;> simp [statusReply, show GoString.validString [] = true from rfl]

/-- What is written for an answer of the backend is the text of the map when its message is dropped
or has no percent sign, and the client reads the map from it when the message is valid besides. -/
structure ReplyWritten (reply : PollingResponse) (token : Option GoString) : Prop where
  verbatim : body (statusReply reply) token = responseJson (statusReply reply) token ↔
    reply.code = .ok ∨ '%' ∉ reply.message
  recovers : Recovers (statusReply reply) token ↔
    reply.code = .ok ∨ '%' ∉ reply.message ∧ GoString.validString reply.message

theorem replyWritten (reply : PollingResponse) (htoken : TokenText token) :
    ReplyWritten reply token where
  verbatim := by rw [body_eq_iff htoken, percent_statusReply]
  recovers := by
    rw [recovers_iff htoken, percent_statusReply, validString_statusReply]
    exact or_and_left.symm

/-- Whatever the backend answers to the call of a handler: what the client is sent. -/
theorem body_verbatim_iff (ctx : Context) (cfg : AliveConfig) :
    (∀ (s : WebServer) (r : Request) reply, r.backend = .ok reply →
      (s.handle ctx r).call.isSome →
      ∃ token, (s.handle ctx r).response = .status (statusReply reply) token ∧
        ReplyWritten reply token) ∧
    ∀ (r : AliveRequest) reply answer, (aliveCheck cfg r (.ok reply)).response = .status answer →
      answer = statusReply reply ∧ ReplyWritten reply none := by
  constructor
  · intro s r reply hbackend hcall
    obtain ⟨token, htoken, hresponse⟩ := handle_response ctx s r hbackend hcall
    exact ⟨token, hresponse, replyWritten reply htoken⟩
  · intro r reply answer h
    exact ⟨aliveCheck_response h, replyWritten reply tokenText_none⟩

/-- The iPad registers, and the backend warns it with a text that has a directive in it. -/
def warnedRegister : Request :=
  .register registration zeroKey (.ok ⟨.warn, lit "Get https://mail.d1.com/a%20b: EOF"⟩)

theorem body_verbatim_iff_warned :
    (∃ token, (WebServer.handle ipadContext {} warnedRegister).response =
        .status ⟨.warn, lit "Get https://mail.d1.com/a%20b: EOF"⟩ token ∧
      ReplyWritten ⟨.warn, lit "Get https://mail.d1.com/a%20b: EOF"⟩ token) ∧
    ReplyWritten ⟨.warn, lit "disk is full"⟩ none := by
  obtain ⟨hhandlers, halive⟩ := body_verbatim_iff ipadContext openCheck
  have hcall : (WebServer.handle ipadContext {} warnedRegister).call.isSome := by decide +kernel
  have hstatus : (aliveCheck openCheck directRequest (.ok ⟨.warn, lit "disk is full"⟩)).response =
      .status ⟨.warn, lit "disk is full"⟩ := by decide +kernel
  exact ⟨hhandlers {} warnedRegister _ rfl hcall, (halive _ _ _ hstatus).2⟩

/-- The check answers a warning with a text that is neither the text of the map nor true to the
message. -/
theorem body_garbled :
    (aliveCheck openCheck directRequest (.ok ⟨.warn, lit "disk is 100% full"⟩)).response =
      .status ⟨.warn, lit "disk is 100% full"⟩ ∧
    body ⟨.warn, lit "disk is 100% full"⟩ none =
      lit "\x7b\"Message\":\"disk is 100%!f(MISSING)ull\",\"Status\":\"WARN\"\x7d" ∧
    ¬ ∀ (r : AliveRequest) reply answer,
      (aliveCheck openCheck r (.ok reply)).response = .status answer →
        body answer none = responseJson answer none := by
  have hstatus : (aliveCheck openCheck directRequest
      (.ok ⟨.warn, lit "disk is 100% full"⟩)).response =
        .status ⟨.warn, lit "disk is 100% full"⟩ := by decide +kernel
  refine ⟨hstatus, by decide +kernel, fun h => ?_⟩
  have hbody := h directRequest _ _ hstatus
  revert hbody
  decide +kernel

end Pinger.Web
