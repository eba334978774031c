import Pinger.Lib.Address
import Pinger.Web.Tokens

/-! # The alive check

The check is answered only for clients of certain networks. The address of a client is taken from
the header of a proxy, where it stands alone, or from the connection, where a port follows it. The
text is cut at its first colon unless it is an address in brackets with a port, so an address of
IPv6 in the header is cut in the middle. -/

namespace Pinger.Web

open GoString (lit)

/-! ## The address of the client -/

/-- The pattern `^\[(?P<ip6>.+)\]:(?P<port>\d+)$`: what its first group matches. The port is all the
digits at the end, so there is one way to match. -/
def ipv6Regex : GoString → Option GoString
  | '[' :: s =>
    match s.reverse.dropWhile GoString.isDigit with
    | ':' :: ']' :: ip6 =>
      if s.reverse.takeWhile GoString.isDigit ≠ [] ∧ ip6 ≠ [] ∧ '\n' ∉ ip6 then some ip6.reverse
      else none
    | _ => none
  | _ => none

/-- `strings.Trim(s, " ")`. -/
def trimSpaces (s : GoString) : GoString :=
  ((s.dropWhile (· = ' ')).reverse.dropWhile (· = ' ')).reverse

/-- A request for `/1/alive`; a form that cannot be parsed is none. -/
structure AliveRequest where
  method : GoString := lit "GET"
  xForwardedFor : GoString := []
  remoteAddr : GoString
  form : Option (GoString → GoString)

/-- The last entry of the header, without spaces around it. -/
def lastEntry (xff : GoString) : Option GoString := (GoString.split ',' xff).getLast?.map trimSpaces

/-- The text in which the address is looked for. -/
def AliveRequest.rIp (r : AliveRequest) : GoString :=
  if r.xForwardedFor = [] then r.remoteAddr else (lastEntry r.xForwardedFor).getD r.remoteAddr

/-- The address that is found in a text. -/
def remoteIP (rIp : GoString) : Option Net.IP :=
  match ipv6Regex rIp with
  | some ip6 => Net.parseIP ip6
  | none => (GoString.split ':' rIp).head?.bind Net.parseIP

/-! ## The handler -/

/-- The part of the configuration of the server that is for the check. -/
structure AliveConfig where
  aliveCheckToken : List GoString
  aliveCheckCidrList : List Net.IPNet

def AliveConfig.checkIP (cfg : AliveConfig) (ip : Net.IP) : Bool :=
  cfg.aliveCheckCidrList.isEmpty || cfg.aliveCheckCidrList.any (·.contains ip)

def AliveConfig.checkToken (cfg : AliveConfig) (token : GoString) : Bool :=
  cfg.aliveCheckToken.any (· = token)

/-- The token of a form, which has one of two names. -/
def formToken (form : GoString → GoString) : GoString :=
  if form (lit "Token") = [] then form (lit "token") else form (lit "Token")

inductive AliveResponse
  | unknownMethod
  | internalError
  | noToken
  | tokenMismatch
  | badIP
  | rpcServerError
  | badRequest (message : GoString)
  | status (reply : Rpc.PollingResponse)
  deriving DecidableEq, Repr

/-- What the check leaves: the address it passed to `CheckIP`, and its answer. -/
structure AliveOutcome where
  checkedIP : Option Net.IP := none
  response : AliveResponse
  deriving DecidableEq, Repr

def aliveCheck (cfg : AliveConfig) (r : AliveRequest)
    (backend : Except GoString Rpc.PollingResponse) : AliveOutcome :=
  if r.method ≠ lit "GET" then { response := .unknownMethod }
  else
    match remoteIP r.rIp, r.form with
    | none, _ | some _, none => { response := .internalError }
    | some ip, some form =>
      if formToken form = [] then { response := .noToken }
      else if cfg.checkToken (formToken form) = false then { response := .tokenMismatch }
      else
        { checkedIP := some ip
          response :=
            if cfg.checkIP ip = false then .badIP
            else
              match backend with
              | .error _ => .rpcServerError
              | .ok reply =>
                if reply.code = .error then .badRequest reply.message
                else .status (statusReply reply) }

/-- Nothing is wrong with the request but, maybe, the address of the client. -/
structure AliveRequest.Authorized (cfg : AliveConfig) (r : AliveRequest) : Prop where
  method : r.method = lit "GET"
  token : ∃ form, r.form = some form ∧ formToken form ≠ [] ∧ cfg.checkToken (formToken form)

/-- The address that is passed on is the one that is found. -/
theorem aliveCheck_checkedIP {cfg : AliveConfig} {r : AliveRequest} (h : r.Authorized cfg)
    (backend : Except GoString Rpc.PollingResponse) :
    (aliveCheck cfg r backend).checkedIP = remoteIP r.rIp := by
  obtain ⟨form, hform, hne, htoken⟩ := h.token
  have hmethod : ¬r.method ≠ lit "GET" := fun hne => hne h.method
  have htoken' : ¬cfg.checkToken (formToken form) = false := by rw [htoken]; simp
  simp only [aliveCheck, if_neg hmethod, hform]
  cases remoteIP r.rIp with
  | none => rfl
  | some ip => simp only [if_neg hne, if_neg htoken']

/-! ## Where the address is found -/

theorem takeWhile_digits (port : GoString) (hport : port.all GoString.isDigit)
    (hc : GoString.isDigit c = false) (s : GoString) :
    (port ++ c :: s).takeWhile GoString.isDigit = port ∧
      (port ++ c :: s).dropWhile GoString.isDigit = c :: s := by
  have hall := List.all_eq_true.mp hport
  rw [List.takeWhile_append_of_pos hall, List.dropWhile_append_of_pos hall,
    List.takeWhile_cons_of_neg (by simp [hc]), List.dropWhile_cons_of_neg (by simp [hc]),
    List.append_nil]
  exact ⟨rfl, rfl⟩

/-- The pattern finds an address in brackets. -/
theorem ipv6Regex_brackets {text port : GoString} (htext : text ≠ []) (hnl : '\n' ∉ text)
    (hport : port.all GoString.isDigit) (hne : port ≠ []) :
    ipv6Regex ('[' :: text ++ ']' :: ':' :: port) = some text := by
  have hreverse : (text ++ ']' :: ':' :: port).reverse =
      port.reverse ++ ':' :: ']' :: text.reverse := by simp
  have hdigits := takeWhile_digits port.reverse (by rwa [List.all_reverse])
    (show GoString.isDigit ':' = false by decide) (']' :: text.reverse)
  rw [← hreverse] at hdigits
  rw [List.cons_append, ipv6Regex, hdigits.1, hdigits.2]
  simp [htext, hnl, hne]

/-- The pattern matches only what begins with a bracket. -/
theorem ipv6Regex_of_ne (h : c ≠ '[') (s : GoString) : ipv6Regex (c :: s) = none := by
  unfold ipv6Regex
  split
  next heq => exact absurd (List.cons.inj heq).1 h
  next => rfl

/-- Without a bracket in front, the address is what stands before the first colon. -/
theorem remoteIP_cons (h : c ≠ '[') (s : GoString) :
    remoteIP (c :: s) = (GoString.split ':' (c :: s)).head?.bind Net.parseIP := by
  rw [remoteIP, ipv6Regex_of_ne h]

variable {text port : GoString} {a : Net.IP}

/-- An address does not begin with a bracket. -/
theorem eq_cons_of_parseIP (h : Net.parseIP text = some a) :
    ∃ c s, text = c :: s ∧ c ≠ '[' := by
  cases text with
  | nil => cases h
  | cons c s =>
    have hc := List.all_eq_true.mp (Net.parseIP_chars h) c List.mem_cons_self
    refine ⟨c, s, rfl, ?_⟩
    rintro rfl
    revert hc
    decide

theorem newline_not_mem (h : Net.parseIP text = some a) : '\n' ∉ text := fun hmem =>
  absurd (List.all_eq_true.mp (Net.parseIP_chars h) _ hmem) (by decide)

/-- Of an address of IPv6 that stands alone only the first group is looked at. -/
theorem remoteIP_alone_colon (h : Net.parseIP text = some a) (hcolon : ':' ∈ text) :
    remoteIP text = none := by
  obtain ⟨front, rest, hsplit, hfront, hnone⟩ := Net.parseIP_before_colon h hcolon
  obtain ⟨c, s, rfl, hc⟩ := eq_cons_of_parseIP h
  rw [remoteIP_cons hc, hsplit, GoString.split_first hfront]
  exact hnone

theorem remoteIP_alone (h : Net.parseIP text = some a) (hcolon : ':' ∉ text) :
    remoteIP text = some a := by
  obtain ⟨c, s, rfl, hc⟩ := eq_cons_of_parseIP h
  rw [remoteIP_cons hc, GoString.split_of_not_mem hcolon]
  exact h

/-- The address of a connection is found, whatever its form is. -/
theorem remoteIP_joinHostPort (h : Net.parseIP text = some a) (hport : port.all GoString.isDigit)
    (hne : port ≠ []) : remoteIP (Net.joinHostPort text port) = some a := by
  obtain ⟨c, s, htext, hc⟩ := eq_cons_of_parseIP h
  by_cases hcolon : ':' ∈ text
  · have htext' : text ≠ [] := by rw [htext]; exact List.cons_ne_nil c s
    rw [Net.joinHostPort, if_pos (.inl hcolon), remoteIP,
      ipv6Regex_brackets htext' (newline_not_mem h) hport hne]
    exact h
  · have hpercent : '%' ∉ text := fun hmem =>
      absurd (List.all_eq_true.mp (Net.parseIP_chars h) _ hmem) (by decide)
    rw [Net.joinHostPort, if_neg (not_or.mpr ⟨hcolon, hpercent⟩)]
    have hfirst : remoteIP (text ++ ':' :: port) =
        (GoString.split ':' (text ++ ':' :: port)).head?.bind Net.parseIP := by
      rw [htext, List.cons_append]
      exact remoteIP_cons hc _
    rw [hfirst, GoString.split_first hcolon]
    exact h

/-- The text of the address is the last entry of the header, or there is no header, and the address
of the connection is the text with a port. -/
def AliveRequest.Shows (r : AliveRequest) (text port : GoString) : Prop :=
  r.xForwardedFor ≠ [] ∧ lastEntry r.xForwardedFor = some text ∨
    r.xForwardedFor = [] ∧ r.remoteAddr = Net.joinHostPort text port

/-- The address passed to `CheckIP` is that of the client exactly when there is no header or the
text of the address has no colon. -/
theorem aliveCheck_address_iff {cfg : AliveConfig} {r : AliveRequest} (hr : r.Authorized cfg)
    (backend : Except GoString Rpc.PollingResponse) (h : Net.parseIP text = some a)
    (hport : port.all GoString.isDigit ∧ port ≠ []) (hshows : r.Shows text port) :
    (aliveCheck cfg r backend).checkedIP = some a ↔ r.xForwardedFor = [] ∨ ':' ∉ text := by
  rw [aliveCheck_checkedIP hr, AliveRequest.rIp]
  rcases hshows with ⟨hxff, hlast⟩ | ⟨hxff, haddr⟩
  · rw [if_neg hxff, hlast, Option.getD_some, or_iff_right hxff]
    by_cases hcolon : ':' ∈ text
    · rw [remoteIP_alone_colon h hcolon]
      exact iff_of_false (fun hnone => by cases hnone) (not_not.mpr hcolon)
    · exact iff_of_true (remoteIP_alone h hcolon) hcolon
  · rw [if_pos hxff, haddr]
    exact iff_of_true (remoteIP_joinHostPort h hport.1 hport.2) (.inl hxff)

/-- A check that accepts one token, from every network. -/
def openCheck : AliveConfig := ⟨[lit "secret"], []⟩

def secretForm (name : GoString) : GoString := if name = lit "Token" then lit "secret" else []

def clientIP : Net.IP := [0x20, 0x01, 0x0D, 0xB8, 0, 0, 0, 0, 0, 0, 0, 0, 0, 0, 0, 1]

/-- A client that connects over IPv6. -/
def directRequest : AliveRequest where
  remoteAddr := lit "[2001:db8::1]:52814"
  form := some secretForm

theorem aliveCheck_address_direct :
    (aliveCheck openCheck directRequest (.ok { code := .ok })).checkedIP = some clientIP := by
  have hparse : Net.parseIP (lit "2001:db8::1") = some clientIP := by decide
  have hr : directRequest.Authorized openCheck := ⟨rfl, secretForm, rfl, by decide, by decide⟩
  have hshows : directRequest.Shows (lit "2001:db8::1") (lit "52814") := .inr ⟨rfl, by decide⟩
  exact (aliveCheck_address_iff hr _ hparse (by decide) hshows).mpr (.inl rfl)

/-- The same client behind a proxy. -/
def proxiedRequest : AliveRequest :=
  { directRequest with
    xForwardedFor := lit "10.0.0.7, 2001:db8::1"
    remoteAddr := lit "10.0.0.9:40022" }

/-- The address in the header is cut at its first colon, and the check fails. -/
theorem aliveCheck_address_proxied :
    ¬ ∀ cfg r backend text port a, AliveRequest.Authorized cfg r → Net.parseIP text = some a →
      port.all GoString.isDigit ∧ port ≠ [] → r.Shows text port →
      (aliveCheck cfg r backend).checkedIP = some a := by
  intro h
  have hr : proxiedRequest.Authorized openCheck := ⟨rfl, secretForm, rfl, by decide, by decide⟩
  have hshows : proxiedRequest.Shows (lit "2001:db8::1") (lit "443") :=
    .inl ⟨by decide, by decide⟩
  have hparse : Net.parseIP (lit "2001:db8::1") = some clientIP := by decide
  have h := h openCheck proxiedRequest (.ok { code := .ok }) _ _ _ hr hparse (by decide) hshows
  have hnone : (aliveCheck openCheck proxiedRequest (.ok { code := .ok })).checkedIP = none := by
    decide
  rw [hnone] at h
  cases h

end Pinger.Web
