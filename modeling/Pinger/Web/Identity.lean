import Pinger.Rpc.Server

/-! # Identities

A client names itself by a user id, a client context and a device id. The web server lets only
identities of a certain form pass; of that form the parts can be read off the key of a session and
off the text a token is made for, although a user id may contain the separators of both. -/

namespace Pinger.Web

/-! ## The validators -/

/-- The pattern `^(us-[a-z]+-[0-9]+:[a-z\-0-9]+).*$`: the classes that follow each other are
disjoint, so there is one way to match. -/
def clientIdRegex (s : GoString) : Bool :=
  GoString.hasPrefix s (GoString.lit "us-") &&
    let s₁ := s.drop 3
    !(s₁.takeWhile GoString.isLower).isEmpty &&
      match s₁.dropWhile GoString.isLower with
      | '-' :: s₂ =>
        !(s₂.takeWhile GoString.isDigit).isEmpty &&
          match s₂.dropWhile GoString.isDigit with
          | ':' :: c :: rest =>
            (GoString.isLower c || c = '-' || GoString.isDigit c) && rest.all (· ≠ '\n')
          | _ => false
      | _ => false

/-- The pattern `^(Ncho[0-9A-Z]{24})$`. -/
def deviceIdRegex (s : GoString) : Bool :=
  GoString.hasPrefix s (GoString.lit "Ncho") && s.length = 28 &&
    (s.drop 4).all fun c => GoString.isDigit c || GoString.isUpper c

/-- The pattern `^([a-z0-9A-Z]+)$`. -/
def contextRegex (s : GoString) : Bool := s ≠ [] && s.all GoString.isAlnum

def isValidUserId (userId : GoString) : Bool :=
  userId ≠ [] && GoString.runeCount userId = 46 && clientIdRegex userId

def isValidDeviceId (deviceId : GoString) : Bool := deviceId ≠ [] && deviceIdRegex deviceId

def isValidClientContext (context : GoString) : Bool :=
  context ≠ [] && 5 ≤ GoString.runeCount context && GoString.runeCount context ≤ 64 &&
    contextRegex context

/-- Who a request is for. -/
structure Identity where
  userId : GoString
  clientContext : GoString
  deviceId : GoString
  deriving DecidableEq, Repr

/-- The identity passes the validators. -/
def Identity.valid (i : Identity) : Bool :=
  isValidUserId i.userId && isValidDeviceId i.deviceId && isValidClientContext i.clientContext

/-! ## Reading the parts off a joined text -/

theorem length_of_isValidDeviceId (h : isValidDeviceId d) : d.length = 28 := by
  simp only [isValidDeviceId, deviceIdRegex, Bool.and_eq_true, decide_eq_true_eq] at h
  exact h.2.1.2

theorem not_mem_of_isValidClientContext (h : isValidClientContext c)
    (hsep : GoString.isAlnum sep = false) : sep ∉ c := by
  simp only [isValidClientContext, contextRegex, Bool.and_eq_true] at h
  intro hmem
  have := List.all_eq_true.mp h.2.2 sep hmem
  rw [hsep] at this
  cases this

/-- The device id is the last 28 bytes, the context what stands between it and the last separator
before it. -/
theorem joined_inj (sep : Char) (mid last : GoString) (hsep : GoString.isAlnum sep = false)
    {i j : Identity} (hi : i.valid) (hj : j.valid)
    (h : i.userId ++ mid ++ sep :: i.clientContext ++ last ++ i.deviceId =
      j.userId ++ mid ++ sep :: j.clientContext ++ last ++ j.deviceId) : i = j := by
  simp only [Identity.valid, Bool.and_eq_true] at hi hj
  obtain ⟨⟨-, hid⟩, hic⟩ := hi
  obtain ⟨⟨-, hjd⟩, hjc⟩ := hj
  have hlen : i.deviceId.length = j.deviceId.length := by
    rw [length_of_isValidDeviceId hid, length_of_isValidDeviceId hjd]
  obtain ⟨hfront, hdev⟩ := List.append_inj' h hlen
  have hfront := List.append_cancel_right hfront
  obtain ⟨huser, hctx⟩ := GoString.last_sep_inj hfront
    (not_mem_of_isValidClientContext hic hsep) (not_mem_of_isValidClientContext hjc hsep)
  have huser := List.append_cancel_right huser
  cases i
  cases j
  simp_all

def Identity.key (i : Identity) : GoString := sessionKey i.userId i.clientContext i.deviceId

theorem key_inj {i j : Identity} (hi : i.valid) (hj : j.valid) (h : i.key = j.key) : i = j := by
  refine joined_inj '-' ['-'] (GoString.lit "--") (by decide) hi hj ?_
  simpa [Identity.key, sessionKey, GoString.lit] using h

/-! ## Whose session a request finds -/

end Pinger.Web

namespace Pinger

def MailPingInformation.identity (mi : MailPingInformation) : Web.Identity :=
  ⟨mi.userId, mi.clientContext, mi.deviceId⟩

def Rpc.StopPollArgs.identity (args : Rpc.StopPollArgs) : Web.Identity :=
  ⟨args.userId, args.clientContext, args.deviceId⟩

def Rpc.DeferPollArgs.identity (args : Rpc.DeferPollArgs) : Web.Identity :=
  ⟨args.userId, args.clientContext, args.deviceId⟩

/-- The identity a request to the map is for. -/
def Rpc.Act.identity : Rpc.Act → Option Web.Identity
  | .startPoll mi _ => some mi.identity
  | .stopPoll args => some args.identity
  | .create _ _ | .offer _ => none

end Pinger

namespace Pinger.Web

open Rpc Transition

/-- The web server has let the request pass. -/
def Admitted (_ : Registry) (a : Rpc.Act) : Prop := ∀ i ∈ a.identity, i.valid

/-- Every session is registered, or about to be, for a valid identity. -/
structure Registered (r : Registry) : Prop where
  pending : r.creations c = .pending mi → mi.identity.valid
  created : r.creations c = .created mi sid → mi.identity.valid
  session : r.sessions sid = some mi → mi.identity.valid

theorem Registered.step {r r' : Registry} (hr : Registered r) (ha : Admitted r a)
    (h : r.step a = some r') : Registered r' := by
  have hst := step_cases h
  refine ⟨fun {c mi} hc => ?_, fun {c mi sid} hc => ?_, fun {sid mi} hs => ?_⟩
  · cases hst.creationStep c with
    | same heq => exact hr.pending (heq ▸ hc)
    | spawn _ hp =>
      cases hp.symm.trans hc
      exact ha _ rfl
    | create _ hp | fail _ hp | refused _ hp | stored _ hp => cases hp.symm.trans hc
  · cases hst.creationStep c with
    | same heq => exact hr.created (heq ▸ hc)
    | create hp hp' =>
      cases hp'.symm.trans hc
      exact hr.pending hp
    | spawn _ hp | fail _ hp | refused _ hp | stored _ hp => cases hp.symm.trans hc
  · cases hst with
    | @created c mi' hp =>
      by_cases hsid : sid = r.nsessions
      · subst hsid
        obtain rfl : mi' = mi := by simpa [Registry.addSession] using hs
        exact hr.pending hp
      · exact hr.session (by simpa [Registry.addSession, Registry.setCreation, hsid] using hs)
    | replaced | started | stopped | notFound | failed | refused | stored => exact hr.session hs

/-- The session under the key of a valid identity was registered for that identity. -/
theorem session_identity {r : Registry} (h : Run Registry.step Admitted {} as r) {i : Identity}
    (hi : i.valid) (hk : r.pollMap i.key = some sid) :
    ∃ mi, r.sessions sid = some mi ∧ mi.identity = i := by
  have hr : Registered r := h.inv Registered.step
    ⟨fun h => (nomatch h), fun h => (nomatch h), fun h => (nomatch h)⟩
  obtain ⟨mi, hs, hkey⟩ := (history_inv h.free).keyed hk
  exact ⟨mi, hs, key_inj (hr.session hs) hi hkey⟩

/-- A request for one identity leaves the entry of another alone. -/
theorem other_entry {r r' : Registry} {i j : Identity} (hi : i.valid) (hj : j.valid) (hne : i ≠ j)
    (ha : a.identity = some i) (h : r.step a = some r') : r'.pollMap j.key = r.pollMap j.key := by
  cases (step_cases h).keyStep j.key with
  | same heq => exact heq
  | removed hreq =>
    have hkey : i.key = j.key := by
      cases a with
      | startPoll mi status =>
        cases ha
        exact Option.some.inj hreq
      | stopPoll args =>
        cases ha
        exact Option.some.inj hreq
      | create | offer => cases ha
    exact absurd (key_inj hi hj hkey) hne
  | stored => cases ha

/-- Of two valid identities the keys differ, the three requests compute one key, and so a request
finds only a session registered for its identity and leaves the entries of others alone. -/
theorem session_key_identifies (i j : Identity) (hi : i.valid) (hj : j.valid) :
    (i.key = j.key → i = j) ∧
    (∀ (mi : MailPingInformation) (sp : StopPollArgs) (dp : DeferPollArgs),
      mi.identity = i → sp.identity = i → dp.identity = i →
      mi.pollMapKey = i.key ∧ sp.pollMapKey = i.key ∧ dp.pollMapKey = i.key) ∧
    ∀ as r, Run Registry.step Admitted {} as r →
      (∀ sid, r.pollMap i.key = some sid → ∃ mi, r.sessions sid = some mi ∧ mi.identity = i) ∧
      (i ≠ j → ∀ a r', a.identity = some i → r.step a = some r' →
        r'.pollMap j.key = r.pollMap j.key) := by
  refine ⟨key_inj hi hj, ?_, fun as r h => ⟨fun sid hk => session_identity h hi hk, ?_⟩⟩
  · rintro mi sp dp rfl hsp hdp
    exact ⟨rfl, by rw [← hsp]; rfl, by rw [← hdp]; rfl⟩
  · intro hne a r' ha hs
    exact other_entry hi hj hne ha hs

/-- The device of an iPhone, with two accounts. -/
def identity : Identity where
  userId := GoString.lit "us-east-1:0005d365-c8ea-470f-8a61-a7f44f145efb"
  clientContext := GoString.lit "12345"
  deviceId := GoString.lit "NchoDC28E565X072CX46B1XBF205"

def otherIdentity : Identity := { identity with clientContext := GoString.lit "12346" }

theorem session_key_identifies_accounts :
    identity.valid ∧ otherIdentity.valid ∧ identity.key ≠ otherIdentity.key := by
  have hi : identity.valid := by decide
  have hj : otherIdentity.valid := by decide
  refine ⟨hi, hj, fun h => ?_⟩
  have := (session_key_identifies identity otherIdentity hi hj).1 h
  exact absurd this (by decide)

end Pinger.Web
