import Mathlib.Data.List.Basic
import Pinger.Device.Info
import Pinger.Session.Start

/-! # Pushing a notification

`Push` tries up to ten times to hand one notification to Apple directly or to SNS, and
`DeviceInfo.Push` records a push that succeeded. The two transports, the contact record and the
JSON encoder are parameters: in every call the model reads what they answer to each attempt. -/

namespace Pinger.Push

/-- The error of a push. Apart from the first two, the retry loop treats all alike. -/
inductive PushError
  | messageTooLarge
  | invalidToken
  | endpointNotRegistered (service token : GoString)
  | token (e : TokenError)
  | marshal (text : GoString)
  | aws (text : GoString)
  | apns (text : GoString)
  | unknown
  | contact (text : GoString)
  deriving DecidableEq, Repr

/-- What becomes the JSON text of a push. The contexts stand in the order in which a loop over
the map visits them, each with its command. -/
structure Notification where
  alert : GoString := []
  sound : GoString := []
  contentAvailable : Int := 0
  time : GoString := []
  ctxs : List (GoString × GoString)
  deriving DecidableEq, Repr

structure Config where
  apnsCertFile : GoString := []
  apnsKeyFile : GoString := []
  apnsAlert : Bool := false
  apnsSound : GoString := []
  apnsContentAvailable : Int := 0
  deriving DecidableEq, Repr

/-- What Apple's gateway answers. -/
structure ApnsResponse where
  error : Option GoString := none
  success : Bool := true
  deriving DecidableEq, Repr

/-- The outside of a push: the JSON encoder, and the answers of the transports to attempt `i`. -/
structure Transport where
  json : Notification → GoString
  marshalError : Option GoString := none
  apns : Nat → ApnsResponse
  sns : Nat → Option GoString

/-! ## One attempt -/

/-- The loop over the contexts that deletes them until one is left. It tests the count only after
a deletion, so a single context is deleted too. -/
def trimContexts (ctxCount : Nat) : List (GoString × GoString) → List (GoString × GoString)
  | [] => []
  | _ :: ctxs => if ctxCount - 1 = 1 then ctxs else trimContexts (ctxCount - 1) ctxs

section
variable (t : Transport)

def trimmed (majorVersion : Int) (n : Notification) : Notification :=
  if 256 ≤ (t.json n).length ∧ majorVersion < 8 then
    { n with ctxs := trimContexts n.ctxs.length n.ctxs }
  else n

/-- `APNSpushMessage`, with the notification as it leaves it: the trimming is done on the map of
the caller. -/
def apnsPushMessage (token osVersion : GoString) (i : Nat) (n : Notification) :
    Option PushError × Notification :=
  match decodeAPNSPushToken token with
  | .error e => (some (.token e), n)
  | .ok _ =>
    let majorVersion := getMajorVersion osVersion
    let n' := trimmed t majorVersion n
    if 256 ≤ (t.json n').length ∧ majorVersion < 8 then (some .messageTooLarge, n')
    else if 2048 ≤ (t.json n').length ∧ 8 ≤ majorVersion then (some .messageTooLarge, n')
    else
      match (t.apns i).error with
      | some text =>
        if text = GoString.lit "INVALID_TOKEN" then (some .invalidToken, n')
        else (some (.apns text), n')
      | none => if (t.apns i).success then (none, n') else (some .unknown, n')

/-- The error of `awsPushMessageString`: for ios the text of the notification has a limit. -/
def awsPushMessageString (platform : GoString) (n : Notification) : Option PushError :=
  match t.marshalError with
  | some text => some (.marshal text)
  | none =>
    if platform = GoString.lit "ios" ∧ 256 < (t.json n).length then some .messageTooLarge else none

/-- The attempt of the SNS branch. -/
def snsPushMessage (platform : GoString) (i : Nat) (n : Notification) : Option PushError :=
  match awsPushMessageString t platform n with
  | some e => some e
  | none => (t.sns i).map .aws

end

/-! ## The retry loop -/

/-- What a call of `Push` returns, and the outcomes of the attempts it made; `none` is an attempt
that was accepted. -/
structure Pushed where
  err : Option PushError
  attempts : List (Option PushError)
  deriving DecidableEq, Repr

def Pushed.after (o : Option PushError) (r : Pushed) : Pushed := { r with attempts := o :: r.attempts }

/-- The push goes through SNS: the service is not Apple's, or there is no certificate for it. -/
def viaSns (cfg : Config) (service : GoString) : Bool :=
  !GoString.equalFold service pushServiceAPNS || cfg.apnsCertFile = [] || cfg.apnsKeyFile = []

section
variable (t : Transport) (cfg : Config) (di : DeviceInfo)

/-- Up to `k` more passes of the loop, from pass `i` with the value of `err` so far. -/
def pushFrom : (k i : Nat) → Option PushError → Notification → Pushed
  | 0, _, err, _ => ⟨err, []⟩
  | k + 1, i, err, n =>
    if viaSns cfg di.pushService then
      if di.awsEndpointArn = [] then
        ⟨some (.endpointNotRegistered di.pushService di.pushToken), []⟩
      else
        let o := snsPushMessage t di.platform i n
        -- the branch assigns to an `err` of its own, so the test sees the one from before
        match err with
        | none => ⟨none, [o]⟩
        | some .invalidToken => ⟨some .invalidToken, [o]⟩
        | some e => (pushFrom k (i + 1) (some e) n).after o
    else
      match apnsPushMessage t di.pushToken di.osVersion i n with
      | (none, _) => ⟨none, [none]⟩
      | (some .invalidToken, _) => ⟨some .invalidToken, [some .invalidToken]⟩
      | (some e, n') => (pushFrom k (i + 1) (some e) n').after (some e)

/-- The number of attempts `Push` allows itself. -/
def maxAttempts : Nat := 10

/-- The package-level `Push`. -/
def push (n : Notification) : Pushed := pushFrom t cfg di maxAttempts 0 none n

/-- What `DeviceInfo.Push` is called with, and the second at which it builds the message. -/
structure Message where
  command : GoString
  alert : GoString
  sound : GoString
  contentAvailable : Int
  time : GoString
  deriving DecidableEq, Repr

/-- The notification `DeviceInfo.Push` builds: one context, with its command. -/
def notification (m : Message) : Notification where
  alert := m.alert
  sound := m.sound
  contentAvailable := m.contentAvailable
  time := m.time
  ctxs := [(di.clientContext, m.command)]

/-- `DeviceInfo.Push`; `contact` is the error of `updateLastContactRequest`. -/
def devicePush (contact : Option GoString) (m : Message) : Pushed :=
  let r := push t cfg di (notification di m)
  match r.err with
  | none => { r with err := contact.map .contact }
  | some _ => r

/-- `DeviceInfo.PushRegister`. -/
def pushRegister (contact : Option GoString) (time : GoString) : Pushed :=
  devicePush t cfg di contact
    { command := GoString.lit "reg"
      alert := if cfg.apnsAlert then GoString.lit "Nacho says: Reregister!" else []
      sound := cfg.apnsSound, contentAvailable := cfg.apnsContentAvailable, time := time }

/-- `DeviceInfo.PushNewMail`. -/
def pushNewMail (contact : Option GoString) (time : GoString) : Pushed :=
  devicePush t cfg di contact
    { command := GoString.lit "new"
      alert := if cfg.apnsAlert then GoString.lit "Nacho says: You have mail!" else []
      sound := cfg.apnsSound, contentAvailable := cfg.apnsContentAvailable, time := time }

end

/-! ## What a caller may rely on -/

/-- A push is reported exactly as it went: it returns nil if and only if one attempt was accepted,
it makes at most ten attempts, and an accepted attempt or an invalid token is the last one. -/
structure Contract (r : Pushed) : Prop where
  reported : r.err = none ↔ r.attempts.count none = 1
  bounded : r.attempts.length ≤ 10
  last : ∀ before o later, r.attempts = before ++ o :: later →
    o = none ∨ o = some .invalidToken → later = []

/-- The ways in which up to `k` attempts go, as long as each error is seen by the loop. -/
inductive Tried : Nat → Pushed → Prop
  | spent (he : e ≠ .invalidToken) : Tried 0 ⟨some e, []⟩
  | accepted : Tried (k + 1) ⟨none, [none]⟩
  | invalid : Tried (k + 1) ⟨some .invalidToken, [some .invalidToken]⟩
  | again (he : e ≠ .invalidToken) (h : Tried k r) : Tried (k + 1) (r.after (some e))

theorem Tried.reported (h : Tried k r) : r.err = none ↔ r.attempts.count none = 1 := by
  induction h with
  | spent | accepted | invalid => simp
  | again he _ ih => simpa [Pushed.after] using ih

theorem Tried.length_le (h : Tried k r) : r.attempts.length ≤ k := by
  induction h with
  | spent => exact Nat.zero_le _
  | accepted | invalid => exact Nat.succ_le_succ (Nat.zero_le _)
  | again _ _ ih => exact Nat.succ_le_succ ih

theorem Tried.last (h : Tried k r) (heq : r.attempts = before ++ o :: later)
    (ho : o = none ∨ o = some .invalidToken) : later = [] := by
  induction h generalizing before with
  | spent => simp at heq
  | accepted | invalid =>
    cases before with
    | nil => exact (List.cons.inj heq).2.symm
    | cons b before => simp at heq
  | again he _ ih =>
    cases before with
    | nil =>
      obtain ⟨rfl, -⟩ := List.cons.inj heq
      simp [he] at ho
    | cons b before => exact ih (List.cons.inj heq).2

theorem Tried.contract (h : Tried 10 r) : Contract r :=
  ⟨h.reported, h.length_le, fun _ _ _ heq ho => h.last heq ho⟩

section
variable {t : Transport} {cfg : Config} {di : DeviceInfo}

/-! ### The direct path -/

/-- The notification as attempt `i` finds it, and what comes of the attempt. -/
def apnsNotification (t : Transport) (di : DeviceInfo) (n : Notification) : Nat → Notification
  | 0 => n
  | i + 1 => (apnsPushMessage t di.pushToken di.osVersion i (apnsNotification t di n i)).2

def apnsOutcome (t : Transport) (di : DeviceInfo) (n : Notification) (i : Nat) : Option PushError :=
  (apnsPushMessage t di.pushToken di.osVersion i (apnsNotification t di n i)).1

/-- Apple accepts one of the ten attempts and does not call the token invalid before. -/
def AppleAccepts (t : Transport) (di : DeviceInfo) (n : Notification) : Prop :=
  ∃ i < maxAttempts, apnsOutcome t di n i = none ∧
    ∀ j < i, apnsOutcome t di n j ≠ some .invalidToken

theorem pushFrom_accepted (hd : viaSns cfg di.pushService = false)
    (ho : apnsPushMessage t di.pushToken di.osVersion i n = (none, n')) :
    pushFrom t cfg di (k + 1) i err n = ⟨none, [none]⟩ := by
  simp [pushFrom, hd, ho]

theorem pushFrom_invalid (hd : viaSns cfg di.pushService = false)
    (ho : apnsPushMessage t di.pushToken di.osVersion i n = (some .invalidToken, n')) :
    pushFrom t cfg di (k + 1) i err n = ⟨some .invalidToken, [some .invalidToken]⟩ := by
  simp [pushFrom, hd, ho]

theorem pushFrom_again (hd : viaSns cfg di.pushService = false)
    (ho : apnsPushMessage t di.pushToken di.osVersion i n = (some e, n')) (he : e ≠ .invalidToken) :
    pushFrom t cfg di (k + 1) i err n = (pushFrom t cfg di k (i + 1) (some e) n').after (some e) := by
  rw [pushFrom, hd, ho]
  cases e <;> first | rfl | exact absurd rfl he

/-- On the direct path the loop sees every error. -/
theorem pushFrom_tried (hd : viaSns cfg di.pushService = false)
    (hk : k = 0 → ∃ e, err = some e ∧ e ≠ .invalidToken) : Tried k (pushFrom t cfg di k i err n) := by
  induction k generalizing i err n with
  | zero =>
    obtain ⟨e, rfl, he⟩ := hk rfl
    exact .spent he
  | succ k ih =>
    obtain ⟨o, n', ho⟩ : ∃ o n', apnsPushMessage t di.pushToken di.osVersion i n = (o, n') :=
      ⟨_, _, rfl⟩
    cases o with
    | none => exact pushFrom_accepted hd ho ▸ .accepted
    | some e =>
      by_cases he : e = .invalidToken
      · subst he
        exact pushFrom_invalid hd ho ▸ .invalid
      · rw [pushFrom_again hd ho he]
        exact .again he (ih fun _ => ⟨e, rfl, he⟩)

/-- The loop returns nil exactly when an attempt is accepted before an invalid token ends it. -/
theorem pushFrom_err_none (hd : viaSns cfg di.pushService = false) (hk : k = 0 → err ≠ none) :
    (pushFrom t cfg di k i err (apnsNotification t di n i)).err = none ↔
      ∃ j, i ≤ j ∧ j < i + k ∧ apnsOutcome t di n j = none ∧
        ∀ l, i ≤ l → l < j → apnsOutcome t di n l ≠ some .invalidToken := by
  induction k generalizing i err with
  | zero =>
    constructor
    · exact fun h => absurd h (hk rfl)
    · rintro ⟨j, hij, hj, -⟩
      omega
  | succ k ih =>
    obtain ⟨o, n', ho⟩ : ∃ o n', apnsPushMessage t di.pushToken di.osVersion i
        (apnsNotification t di n i) = (o, n') := ⟨_, _, rfl⟩
    have hout : apnsOutcome t di n i = o := by rw [apnsOutcome, ho]
    have hnext : apnsNotification t di n (i + 1) = n' := by rw [apnsNotification, ho]
    cases o with
    | none =>
      rw [pushFrom_accepted hd ho]
      exact ⟨fun _ => ⟨i, Nat.le_refl _, by omega, hout, by omega⟩, fun _ => rfl⟩
    | some e =>
      -- the first attempt is not the accepted one
      have hlater : ∀ j, apnsOutcome t di n j = none → i ≤ j → i + 1 ≤ j := by
        intro j hj hij
        rcases Nat.lt_or_eq_of_le hij with h | rfl
        · exact h
        · simp [hout] at hj
      by_cases he : e = .invalidToken
      · subst he
        rw [pushFrom_invalid hd ho]
        constructor
        · intro h
          cases h
        · rintro ⟨j, hij, -, hj, hl⟩
          exact absurd hout (hl i (Nat.le_refl _) (hlater j hj hij))
      · have htail := @ih (some e) (i + 1) (by simp)
        rw [hnext] at htail
        rw [pushFrom_again hd ho he]
        refine htail.trans ⟨?_, ?_⟩
        · rintro ⟨j, hij, hjk, hj, hl⟩
          refine ⟨j, by omega, by omega, hj, fun l hil hlj => ?_⟩
          rcases Nat.lt_or_eq_of_le hil with h | rfl
          · exact hl l h hlj
          · simpa [hout] using he
        · rintro ⟨j, hij, hjk, hj, hl⟩
          exact ⟨j, hlater j hj hij, by omega, hj, fun l hil => hl l (by omega)⟩

theorem push_direct_err_none (hd : viaSns cfg di.pushService = false) :
    (push t cfg di n).err = none ↔ AppleAccepts t di n := by
  refine (pushFrom_err_none hd (i := 0) (by simp [maxAttempts])).trans ?_
  simp [AppleAccepts, maxAttempts]

/-! ### The SNS path -/

theorem push_unregistered (hs : viaSns cfg di.pushService) (harn : di.awsEndpointArn = []) :
    push t cfg di n = ⟨some (.endpointNotRegistered di.pushService di.pushToken), []⟩ := by
  simp [push, maxAttempts, pushFrom, hs, harn]

/-- One attempt is made, and whatever comes of it the loop finds nil. -/
theorem push_sns (hs : viaSns cfg di.pushService) (harn : di.awsEndpointArn ≠ []) :
    push t cfg di n = ⟨none, [snsPushMessage t di.platform 0 n]⟩ := by
  simp [push, maxAttempts, pushFrom, hs, harn]

/-! ### Both -/

/-- The condition under which a push is reported as it went. -/
def ReportsTruly (t : Transport) (cfg : Config) (di : DeviceInfo) (contact : Option GoString)
    (n : Notification) : Prop :=
  if viaSns cfg di.pushService then
    di.awsEndpointArn = [] ∨ snsPushMessage t di.platform 0 n = none ∧ contact = none
  else AppleAccepts t di n → contact = none

theorem contract_single : Contract ⟨err, [o]⟩ ↔ (err = none ↔ o = none) := by
  constructor
  · intro h
    have := h.reported
    cases o <;> simpa using this
  · intro h
    refine ⟨?_, by simp, fun before x later heq _ => ?_⟩
    · cases o <;> simpa using h
    · cases before with
      | nil => exact (List.cons.inj heq).2.symm
      | cons b before => simp at heq

theorem contract_unregistered : Contract ⟨some e, []⟩ := by
  refine ⟨by simp, by simp, fun before x later heq => ?_⟩
  simp at heq

theorem devicePush_eq (h : push t cfg di (notification di m) = r) :
    devicePush t cfg di contact m =
      if r.err = none then { r with err := contact.map .contact } else r := by
  subst h
  simp only [devicePush]
  split <;> simp_all

/-- A push through SNS is reported as it went exactly when the endpoint is not registered or the
one attempt is accepted, and then only if the contact record is updated; a direct push whenever
its acceptance, if there is one, is followed by an update of the contact record. -/
theorem push_contract_iff (t : Transport) (cfg : Config) (di : DeviceInfo)
    (contact : Option GoString) (m : Message) :
    Contract (push t cfg di (notification di m)) ∧ Contract (devicePush t cfg di contact m) ↔
      ReportsTruly t cfg di contact (notification di m) := by
  unfold ReportsTruly
  cases hs : viaSns cfg di.pushService with
  | true =>
    by_cases harn : di.awsEndpointArn = []
    · have hr := push_unregistered (t := t) (n := notification di m) hs harn
      rw [devicePush_eq hr, hr]
      simp [harn, contract_unregistered]
    · have hr := push_sns (t := t) (n := notification di m) hs harn
      rw [devicePush_eq hr, hr]
      simp only [if_true, contract_single, harn, false_or, true_iff, Option.map_eq_none_iff]
      constructor
      · rintro ⟨ho, hc⟩
        exact ⟨ho, hc.mpr ho⟩
      · rintro ⟨ho, hc⟩
        exact ⟨ho, by simp [ho, hc]⟩
  | false =>
    have htried : Tried 10 (push t cfg di (notification di m)) :=
      pushFrom_tried hs (by simp)
    obtain ⟨r, hr⟩ : ∃ r, push t cfg di (notification di m) = r := ⟨_, rfl⟩
    have haccept := push_direct_err_none (t := t) (n := notification di m) hs
    rw [devicePush_eq hr]
    rw [hr] at htried haccept ⊢
    simp only [Bool.false_eq_true, if_false, htried.contract, true_and, ← haccept]
    split
    next herr =>
      constructor
      · intro h _
        have hone : r.attempts.count none = 1 := htried.reported.mp herr
        simpa using h.reported.mpr hone
      · intro h
        exact ⟨by simp [h herr, ← htried.reported, herr], htried.length_le, fun _ _ _ => htried.last⟩
    next herr => simp [herr, htried.contract]

/-! ### The pushes of a session -/

/-- The push that `start()` makes. -/
def sessionPush (t : Transport) (cfg : Config) (di : DeviceInfo) (contact : Option GoString)
    (time : GoString) : Session.PushSite → Pushed
  | .newMail => pushNewMail t cfg di contact time
  | .maxPoll | .reRegister => pushRegister t cfg di contact time

/-- What `start()` tells apart of it. -/
def Pushed.result (r : Pushed) : Session.PushResult :=
  match r.err with
  | none => .ok
  | some .invalidToken => .invalidToken
  | some _ => .failed

theorem Pushed.result_invalid {r : Pushed} :
    r.result = .invalidToken ↔ r.err = some .invalidToken := by
  obtain ⟨err, attempts⟩ := r
  cases err with
  | none => simp [Pushed.result]
  | some e => cases e <;> simp [Pushed.result]

theorem Tried.err_invalid (h : Tried k r) :
    r.err = some .invalidToken ↔ some .invalidToken ∈ r.attempts := by
  induction h with
  | spent he => simpa using he
  | accepted | invalid => simp
  | again he _ ih => simpa [Pushed.after, Ne.symm he] using ih

/-- SNS never calls a token invalid. -/
theorem snsPushMessage_valid : snsPushMessage t platform i n ≠ some .invalidToken := by
  unfold snsPushMessage awsPushMessageString
  split
  next e he =>
    split at he
    · cases he
      simp
    · split at he <;> cases he
      simp
  next => cases t.sns i <;> simp

theorem push_invalid (t : Transport) (cfg : Config) (di : DeviceInfo) (n : Notification) :
    (push t cfg di n).err = some .invalidToken ↔
      some .invalidToken ∈ (push t cfg di n).attempts := by
  cases hs : viaSns cfg di.pushService with
  | true =>
    by_cases harn : di.awsEndpointArn = []
    · rw [push_unregistered hs harn]
      simp
    · rw [push_sns hs harn]
      simpa using (snsPushMessage_valid (t := t)).symm
  | false => exact (pushFrom_tried hs (by simp [maxAttempts])).err_invalid

theorem devicePush_invalid (t : Transport) (cfg : Config) (di : DeviceInfo)
    (contact : Option GoString) (m : Message) :
    (devicePush t cfg di contact m).err = some .invalidToken ↔
      some .invalidToken ∈ (devicePush t cfg di contact m).attempts := by
  have hpush := push_invalid t cfg di (notification di m)
  rw [devicePush_eq rfl]
  split
  next herr =>
    rw [herr] at hpush
    simpa using hpush
  next => exact hpush

/-- Whatever a session pushes, it is told of an invalid token if and only if Apple has called the
token invalid in one of the attempts. -/
theorem sessionPush_invalid (t : Transport) (cfg : Config) (di : DeviceInfo)
    (contact : Option GoString) (time : GoString) (site : Session.PushSite) :
    (sessionPush t cfg di contact time site).result = .invalidToken ↔
      some .invalidToken ∈ (sessionPush t cfg di contact time site).attempts := by
  rw [Pushed.result_invalid]
  cases site <;> exact devicePush_invalid t cfg di contact _

/-- A session keeps its device in a push unless Apple has called the token invalid. -/
theorem pushed_keeps_device (M : MailClient) (scfg : Session.Settings) (s : Session.Ctx M.State)
    (hvalid : some .invalidToken ∉ (sessionPush t cfg di contact time site).attempts) :
    (Session.pushed M scfg s site (sessionPush t cfg di contact time site).result).di = s.di := by
  rw [← sessionPush_invalid] at hvalid
  cases site with
  | maxPoll | reRegister => exact if_neg hvalid
  | newMail =>
    simp only [Session.pushed, hvalid, if_false]
    split <;> rfl

end

/-! ### Concrete pushes -/

/-- A device that is registered with SNS. -/
def iphone : DeviceInfo where
  clientContext := GoString.lit "ctx12"
  platform := GoString.lit "ios"
  pushService := pushServiceAPNS
  awsEndpointArn := GoString.lit "arn:aws:sns:us-west-2:263277746520:endpoint/APNS/nacho/1"

def newMailMessage : Message where
  command := GoString.lit "new"
  alert := []
  sound := []
  contentAvailable := 0
  time := GoString.lit "1427000000"

/-- The JSON text of the message for the device, and SNS answering every attempt with `answer`. -/
def snsAnswers (answer : Option GoString) : Transport where
  json _ :=
    GoString.lit "\x7b\"aps\":\x7b\x7d,\"pinger\":\x7b\"ctxs\":\x7b\"ctx12\":" ++
    GoString.lit "\x7b\"cmd\":\"new\"\x7d\x7d,\"meta\":\x7b\"time\":\"1427000000\"\x7d\x7d\x7d"
  apns _ := {}
  sns _ := answer

/-- SNS refuses the notification and the push returns nil after one attempt; SNS accepts it, the
contact record cannot be updated, and the push returns an error. -/
theorem push_misreported :
    (devicePush (snsAnswers (some (GoString.lit "Throttling"))) {} iphone none newMailMessage =
        ⟨none, [some (.aws (GoString.lit "Throttling"))]⟩ ∧
      ¬Contract (devicePush (snsAnswers (some (GoString.lit "Throttling"))) {} iphone none
        newMailMessage)) ∧
    devicePush (snsAnswers none) {} iphone (some (GoString.lit "No object found"))
        newMailMessage = ⟨some (.contact (GoString.lit "No object found")), [none]⟩ ∧
      ¬Contract (devicePush (snsAnswers none) {} iphone (some (GoString.lit "No object found"))
        newMailMessage) := by
  have hrefused : devicePush (snsAnswers (some (GoString.lit "Throttling"))) {} iphone none
      newMailMessage = ⟨none, [some (.aws (GoString.lit "Throttling"))]⟩ := by decide
  have haccepted : devicePush (snsAnswers none) {} iphone (some (GoString.lit "No object found"))
      newMailMessage = ⟨some (.contact (GoString.lit "No object found")), [none]⟩ := by decide
  refine ⟨⟨hrefused, ?_⟩, haccepted, ?_⟩
  · rw [hrefused, contract_single]
    simp
  · rw [haccepted, contract_single]
    simp

end Pinger.Push
