import Mathlib.Data.List.Dedup
import Mathlib.Data.List.Perm.Subperm
import Pinger.Device.Push
import Pinger.Device.Store

/-! # Alerting all devices

`alertAllDevices` selects the distinct tokens of the rows of this pinger and pushes to each a
message that names the contexts of all rows with that token. The rows are selected by five columns,
and a token is pushed to once for each combination of them; and a message that is too long for an
old device is sent with its contexts trimmed. -/

namespace Pinger.Push

/-! ## The message that is accepted -/

section
variable (t : Transport) (cfg : Config) (di : DeviceInfo)

/-- The notification as Apple accepts it in one of up to `k` more attempts. -/
def deliveredFrom : (k i : Nat) → Notification → Option Notification
  | 0, _, _ => none
  | k + 1, i, n =>
    match apnsPushMessage t di.pushToken di.osVersion i n with
    | (none, n') => some n'
    | (some .invalidToken, _) => none
    | (some _, n') => deliveredFrom k (i + 1) n'

/-- The notification as the transport accepts it. -/
def delivered (n : Notification) : Option Notification :=
  if viaSns cfg di.pushService then
    if di.awsEndpointArn ≠ [] ∧ snsPushMessage t di.platform 0 n = none then some n else none
  else deliveredFrom t di maxAttempts 0 n

/-- The notification is too long for the device, and contexts are trimmed from it. -/
def Trims (n : Notification) : Prop :=
  viaSns cfg di.pushService = false ∧ 256 ≤ (t.json n).length ∧ getMajorVersion di.osVersion < 8

end

variable {t : Transport} {cfg : Config} {di : DeviceInfo} {n m : Notification}

theorem deliveredFrom_isSome (hd : viaSns cfg di.pushService = false) (k i : Nat) (err n) :
    (deliveredFrom t di k i n).isSome ↔ none ∈ (pushFrom t cfg di k i err n).attempts := by
  induction k generalizing i err n with
  | zero => simp [deliveredFrom, pushFrom]
  | succ k ih =>
    obtain ⟨o, n', ho⟩ : ∃ o n', apnsPushMessage t di.pushToken di.osVersion i n = (o, n') :=
      ⟨_, _, rfl⟩
    cases o with
    | none =>
      rw [pushFrom_accepted hd ho]
      simp [deliveredFrom, ho]
    | some e =>
      by_cases he : e = .invalidToken
      · subst he
        rw [pushFrom_invalid hd ho]
        simp [deliveredFrom, ho]
      · have hnext : deliveredFrom t di (k + 1) i n = deliveredFrom t di k (i + 1) n' := by
          simp only [deliveredFrom, ho]
        rw [pushFrom_again hd ho he, hnext, ih (i + 1) (some e) n']
        simp [Pushed.after]

/-- A notification is delivered exactly when an attempt of the push is accepted. -/
theorem delivered_isSome_iff (t : Transport) (cfg : Config) (di : DeviceInfo) (n : Notification) :
    (delivered t cfg di n).isSome ↔ none ∈ (push t cfg di n).attempts := by
  unfold delivered
  cases hs : viaSns cfg di.pushService with
  | false => exact deliveredFrom_isSome hs ..
  | true =>
    rw [if_pos rfl]
    by_cases harn : di.awsEndpointArn = []
    · rw [push_unregistered hs harn, if_neg fun h => h.1 harn]
      simp
    · rw [push_sns hs harn]
      by_cases ho : snsPushMessage t di.platform 0 n = none
      · rw [if_pos ⟨harn, ho⟩]
        simp [ho]
      · rw [if_neg fun h => ho h.2]
        simpa using Ne.symm ho

theorem trimContexts_suffix (c : Nat) (ctxs : List (GoString × GoString)) :
    trimContexts c ctxs <:+ ctxs := by
  induction ctxs generalizing c with
  | nil => exact List.suffix_rfl
  | cons x ctxs ih =>
    rw [trimContexts]
    split
    · exact List.suffix_cons x ctxs
    · exact (ih _).trans (List.suffix_cons x ctxs)

theorem length_trimContexts_lt (c : Nat) (h : ctxs ≠ []) :
    (trimContexts c ctxs).length < ctxs.length := by
  cases ctxs with
  | nil => exact absurd rfl h
  | cons x ctxs =>
    rw [trimContexts, List.length_cons]
    split
    · exact Nat.lt_succ_self _
    · exact Nat.lt_succ_of_le (trimContexts_suffix _ ctxs).length_le

theorem trimmed_suffix (t : Transport) (v : Int) (n : Notification) :
    (trimmed t v n).ctxs <:+ n.ctxs := by
  unfold trimmed
  split
  · exact trimContexts_suffix ..
  · exact List.suffix_rfl

/-- The notification an attempt leaves: as it was, or trimmed. -/
theorem apnsPushMessage_snd (t : Transport) (token osVersion : GoString) (i : Nat) (n : Notification) :
    (apnsPushMessage t token osVersion i n).2 =
      if (decodeAPNSPushToken token).toBool then trimmed t (getMajorVersion osVersion) n else n := by
  unfold apnsPushMessage
  cases decodeAPNSPushToken token with
  | error e => rfl
  | ok tok =>
    simp only [Except.toBool, if_true]
    split
    · rfl
    · split
      · rfl
      · split
        · split <;> rfl
        · split <;> rfl

/-- What is delivered in a later attempt has only contexts of the notification. -/
theorem deliveredFrom_suffix (h : deliveredFrom t di k i n = some m) : m.ctxs <:+ n.ctxs := by
  induction k generalizing i n with
  | zero => cases h
  | succ k ih =>
    have hn' : (apnsPushMessage t di.pushToken di.osVersion i n).2.ctxs <:+ n.ctxs := by
      rw [apnsPushMessage_snd]
      split
      · exact trimmed_suffix ..
      · exact List.suffix_rfl
    unfold deliveredFrom at h
    split at h
    next n' ho =>
      cases h
      rwa [ho] at hn'
    next => cases h
    next n' _ ho =>
      rw [ho] at hn'
      exact (ih h).trans hn'

/-- A notification that is not too long is delivered as it is. -/
theorem delivered_of_not_trims (hn : ¬Trims t cfg di n) (h : delivered t cfg di n = some m) :
    m = n := by
  unfold delivered at h
  split at h
  · split at h
    · exact (Option.some.inj h).symm
    · cases h
  next hd =>
    have hshort : ¬(256 ≤ (t.json n).length ∧ getMajorVersion di.osVersion < 8) :=
      fun h => hn ⟨Bool.not_eq_true _ ▸ hd, h⟩
    have hsame : ∀ i, (apnsPushMessage t di.pushToken di.osVersion i n).2 = n := by
      intro i
      rw [apnsPushMessage_snd, trimmed, if_neg hshort, ite_self]
    have hloop : ∀ k i, deliveredFrom t di k i n = some m → m = n := by
      intro k
      induction k with
      | zero => exact fun _ h => nomatch h
      | succ k ih =>
        intro i h
        have hs := hsame i
        unfold deliveredFrom at h
        split at h
        next n' ho =>
          rw [ho] at hs
          exact (Option.some.inj h).symm.trans hs
        next => cases h
        next n' _ ho =>
          have hn' : n' = n := by rwa [ho] at hs
          exact ih _ (hn' ▸ h)
    exact hloop _ _ h

/-- Apple is asked only about a token that decodes. -/
theorem decodes_of_delivered (h : deliveredFrom t di k i n = some m) :
    (decodeAPNSPushToken di.pushToken).toBool := by
  induction k generalizing i with
  | zero => cases h
  | succ k ih =>
    cases hdec : decodeAPNSPushToken di.pushToken with
    | ok tok => rfl
    | error e =>
      have ho : apnsPushMessage t di.pushToken di.osVersion i n = (some (.token e), n) := by
        rw [apnsPushMessage, hdec]
      simp only [deliveredFrom, ho] at h
      exact hdec ▸ ih h

/-- A notification that is too long loses a context. -/
theorem length_delivered_lt (hn : Trims t cfg di n) (hne : n.ctxs ≠ [])
    (h : delivered t cfg di n = some m) : m.ctxs.length < n.ctxs.length := by
  obtain ⟨hd, hlong⟩ := hn
  rw [delivered, hd, if_neg Bool.false_ne_true] at h
  have hdecode := decodes_of_delivered h
  -- the first attempt trims it
  have hfirst : (apnsPushMessage t di.pushToken di.osVersion 0 n).2.ctxs.length <
      n.ctxs.length := by
    rw [apnsPushMessage_snd, if_pos hdecode, trimmed, if_pos hlong]
    exact length_trimContexts_lt _ hne
  change deliveredFrom t di (9 + 1) 0 n = some m at h
  unfold deliveredFrom at h
  split at h
  next n' ho =>
    cases h
    rwa [ho] at hfirst
  next => cases h
  next n' _ ho =>
    rw [ho] at hfirst
    exact Nat.lt_of_le_of_lt (deliveredFrom_suffix h).length_le hfirst

/-! ## The queries -/

/-- A `select distinct`: the rows of its result are those selected, each once, in some order. -/
structure Distinct (α : Type) where
  select : List α → List α
  nodup : ∀ l, (select l).Nodup
  mem_select : ∀ l x, x ∈ select l ↔ x ∈ l

/-- The order of first occurrences from the end. -/
def Distinct.dedup (α : Type) [DecidableEq α] : Distinct α where
  select := List.dedup
  nodup := List.nodup_dedup
  mem_select _ _ := List.mem_dedup

/-- The columns of `distinctPushServiceTokenSql`. -/
structure Target where
  pushService : GoString
  pushToken : GoString
  osVersion : GoString
  platform : GoString
  awsEndpointArn : GoString
  deriving DecidableEq, Repr

/-- The device a push to the target is for. -/
def Target.device (x : Target) : DeviceInfo where
  pushService := x.pushService
  pushToken := x.pushToken
  osVersion := x.osVersion
  platform := x.platform
  awsEndpointArn := x.awsEndpointArn

def Target.pair (x : Target) : GoString × GoString := (x.pushService, x.pushToken)

def target (di : DeviceInfo) : Target :=
  ⟨di.pushService, di.pushToken, di.osVersion, di.platform, di.awsEndpointArn⟩

def pair (di : DeviceInfo) : GoString × GoString := (di.pushService, di.pushToken)

/-- The database, and the outside of each push. -/
structure AlertEnv where
  host : HostId
  cfg : Config := {}
  targets : Distinct Target := .dedup Target
  contexts : Distinct GoString := .dedup GoString
  transport : Target → Transport
  time : Target → GoString

section
variable (env : AlertEnv) (rows : List DeviceRecord)

/-- The rows of this pinger. -/
def owned : List DeviceRecord := rows.filter (·.pinger = env.host)

/-- The result of `distinctPushServiceTokenSql`. -/
def servicesAndTokens : List Target := env.targets.select ((owned env rows).map fun r => target r.info)

/-- The result of `clientContextsSql`. -/
def clientContexts (p : GoString × GoString) : List GoString :=
  env.contexts.select ((rows.filter (pair ·.info = p)).map (·.info.clientContext))

/-- The notification for a target: a register command for each context. -/
def registerMessage (x : Target) : Notification where
  alert := if env.cfg.apnsAlert then GoString.lit "Nacho says: Reregister!" else []
  sound := env.cfg.apnsSound
  contentAvailable := env.cfg.apnsContentAvailable
  time := env.time x
  ctxs := (clientContexts env rows x.pair).map fun c => (c, GoString.lit "reg")

/-- The push to a target. -/
def pushTo (x : Target) : Pushed := push (env.transport x) env.cfg x.device (registerMessage env rows x)

/-- `alertAllDevices`: the number of pushes that returned nil. -/
def alertAllDevices : Nat :=
  ((servicesAndTokens env rows).filter fun x => (pushTo env rows x).err = none).length

/-- What the transport accepts of the push to a target. -/
def messageTo (x : Target) : Option Notification :=
  delivered (env.transport x) env.cfg x.device (registerMessage env rows x)

/-- The messages that a service and a token receive. -/
def received (p : GoString × GoString) : List Notification :=
  ((servicesAndTokens env rows).filter (·.pair = p)).filterMap (messageTo env rows)

/-- Every push returns nil, and one of its attempts is accepted. -/
def AllSucceed : Prop :=
  ∀ x ∈ servicesAndTokens env rows,
    (pushTo env rows x).err = none ∧ none ∈ (pushTo env rows x).attempts

/-- Every service and token of this pinger receives one message, with a register command for exactly
the contexts of the rows with that service and token, and the messages are counted. -/
def AlertedOnce : Prop :=
  (∀ r ∈ owned env rows, ∃ m, received env rows (pair r.info) = [m] ∧
    (∀ x ∈ m.ctxs, x.2 = GoString.lit "reg") ∧
    ∀ c, c ∈ m.ctxs.map Prod.fst ↔
      ∃ r' ∈ rows, pair r'.info = pair r.info ∧ r'.info.clientContext = c) ∧
  alertAllDevices env rows = ((owned env rows).map fun r => pair r.info).dedup.length

/-- The rows of this pinger with one service and token agree on the other columns of the query. -/
def SameColumns : Prop :=
  ∀ r ∈ owned env rows, ∀ r' ∈ owned env rows, pair r.info = pair r'.info →
    target r.info = target r'.info

/-- No message is too long for its device. -/
def NoneTrimmed : Prop :=
  ∀ r ∈ owned env rows, ¬Trims (env.transport (target r.info)) env.cfg (target r.info).device
    (registerMessage env rows (target r.info))

end

variable {env : AlertEnv} {rows : List DeviceRecord}

theorem mem_servicesAndTokens :
    x ∈ servicesAndTokens env rows ↔ ∃ r ∈ owned env rows, target r.info = x := by
  rw [servicesAndTokens, env.targets.mem_select, List.mem_map]

theorem mem_clientContexts : c ∈ clientContexts env rows p ↔
    ∃ r ∈ rows, pair r.info = p ∧ r.info.clientContext = c := by
  rw [clientContexts, env.contexts.mem_select, List.mem_map]
  simp only [List.mem_filter, decide_eq_true_eq, and_assoc]

theorem registerMessage_names (env : AlertEnv) (rows : List DeviceRecord) (x : Target) :
    (registerMessage env rows x).ctxs.map Prod.fst = clientContexts env rows x.pair := by
  rw [registerMessage, List.map_map]
  exact List.map_id _

/-- The target of a row has a context, that of the row. -/
theorem registerMessage_ne_nil (h : r ∈ owned env rows) :
    (registerMessage env rows (target r.info)).ctxs ≠ [] := by
  intro hnil
  have hmem : r.info.clientContext ∈ clientContexts env rows (target r.info).pair :=
    mem_clientContexts.mpr ⟨r, List.mem_of_mem_filter h, rfl, rfl⟩
  rw [← registerMessage_names, hnil] at hmem
  cases hmem

theorem eq_singleton_of_nodup {l : List α} (hn : l.Nodup) (hx : x ∈ l) (hall : ∀ y ∈ l, y = x) :
    l = [x] := by
  cases l with
  | nil => cases hx
  | cons a l =>
    cases l with
    | nil => rw [hall a List.mem_cons_self]
    | cons b l =>
      have ha := hall a List.mem_cons_self
      have hb := hall b (List.mem_cons_of_mem a List.mem_cons_self)
      exact absurd (ha.trans hb.symm ▸ List.mem_cons_self) (List.nodup_cons.mp hn).1

theorem messageTo_isSome (h : AllSucceed env rows) (hx : x ∈ servicesAndTokens env rows) :
    ∃ m, messageTo env rows x = some m :=
  Option.isSome_iff_exists.mp ((delivered_isSome_iff ..).mpr (h x hx).2)

/-- The targets of a service and token, when there is one alone. -/
theorem targets_of_sameColumns (h : SameColumns env rows) (hr : r ∈ owned env rows) :
    (servicesAndTokens env rows).filter (·.pair = pair r.info) = [target r.info] := by
  apply eq_singleton_of_nodup
  · exact (env.targets.nodup _).filter _
  · exact List.mem_filter.mpr ⟨mem_servicesAndTokens.mpr ⟨r, hr, rfl⟩, decide_eq_true rfl⟩
  · intro y hy
    obtain ⟨hy, hpair⟩ := List.mem_filter.mp hy
    obtain ⟨r', hr', rfl⟩ := mem_servicesAndTokens.mp hy
    exact h r' hr' r hr (of_decide_eq_true hpair)

theorem alertAllDevices_eq (h : AllSucceed env rows) :
    alertAllDevices env rows = (servicesAndTokens env rows).length := by
  rw [alertAllDevices, List.filter_eq_self.mpr]
  exact fun x hx => decide_eq_true (h x hx).1

/-- Targets with different services and tokens are as many as these. -/
theorem length_servicesAndTokens (h : SameColumns env rows) :
    (servicesAndTokens env rows).length = ((owned env rows).map fun r => pair r.info).dedup.length := by
  have hnodup : ((servicesAndTokens env rows).map Target.pair).Nodup := by
    refine List.Nodup.map_on ?_ (env.targets.nodup _)
    intro x hx y hy hxy
    obtain ⟨r, hr, rfl⟩ := mem_servicesAndTokens.mp hx
    obtain ⟨r', hr', rfl⟩ := mem_servicesAndTokens.mp hy
    exact h r hr r' hr' hxy
  have hperm : ((servicesAndTokens env rows).map Target.pair).Perm
      ((owned env rows).map fun r => pair r.info).dedup := by
    refine (List.perm_ext_iff_of_nodup hnodup (List.nodup_dedup _)).mpr fun p => ?_
    rw [List.mem_dedup, List.mem_map, List.mem_map]
    constructor
    · rintro ⟨x, hx, rfl⟩
      obtain ⟨r, hr, rfl⟩ := mem_servicesAndTokens.mp hx
      exact ⟨r, hr, rfl⟩
    · rintro ⟨r, hr, rfl⟩
      exact ⟨target r.info, mem_servicesAndTokens.mpr ⟨r, hr, rfl⟩, rfl⟩
  rw [← hperm.length_eq, List.length_map]

theorem length_received (h : AllSucceed env rows) (p : GoString × GoString) :
    (received env rows p).length = ((servicesAndTokens env rows).filter (·.pair = p)).length := by
  rw [received, List.length_filterMap_eq_countP, List.countP_eq_length]
  intro x hx
  obtain ⟨m, hm⟩ := messageTo_isSome h (List.mem_of_mem_filter hx)
  rw [hm]
  rfl

/-- A token that receives one message has one target. -/
theorem target_unique (h : AllSucceed env rows) (hr : r ∈ owned env rows) (hr' : r' ∈ owned env rows)
    (hpair : pair r.info = pair r'.info) (hone : received env rows (pair r.info) = [m]) :
    target r.info = target r'.info := by
  have hlen := length_received h (pair r.info)
  rw [hone] at hlen
  obtain ⟨x, hx⟩ := List.length_eq_one_iff.mp hlen.symm
  have hmem : ∀ r' ∈ owned env rows, pair r.info = pair r'.info → target r'.info = x := by
    intro r' hr' hpair
    have : target r'.info ∈ (servicesAndTokens env rows).filter (·.pair = pair r.info) :=
      List.mem_filter.mpr ⟨mem_servicesAndTokens.mpr ⟨r', hr', rfl⟩, decide_eq_true hpair.symm⟩
    rw [hx] at this
    exact List.mem_singleton.mp this
  rw [hmem r hr rfl, hmem r' hr' hpair]

/-- A message that names all contexts was not trimmed. -/
theorem not_trims_of_names (h : AllSucceed env rows) (hr : r ∈ owned env rows)
    (hone : received env rows (pair r.info) = [m])
    (hnames : ∀ c, c ∈ m.ctxs.map Prod.fst ↔
      ∃ r' ∈ rows, pair r'.info = pair r.info ∧ r'.info.clientContext = c) :
    ¬Trims (env.transport (target r.info)) env.cfg (target r.info).device
      (registerMessage env rows (target r.info)) := by
  intro htrims
  have hx : target r.info ∈ servicesAndTokens env rows := mem_servicesAndTokens.mpr ⟨r, hr, rfl⟩
  obtain ⟨m', hm'⟩ := messageTo_isSome h hx
  obtain rfl : m' = m := by
    have : m' ∈ received env rows (pair r.info) :=
      List.mem_filterMap.mpr ⟨_, List.mem_filter.mpr ⟨hx, decide_eq_true rfl⟩, hm'⟩
    rw [hone] at this
    exact List.mem_singleton.mp this
  have hlt := length_delivered_lt htrims (registerMessage_ne_nil hr) hm'
  have hsub : clientContexts env rows (pair r.info) ⊆ m'.ctxs.map Prod.fst :=
    fun c hc => (hnames c).mpr (mem_clientContexts.mp hc)
  have hle := (List.subperm_of_subset (env.contexts.nodup _) hsub).length_le
  have hfull := congrArg List.length (registerMessage_names env rows (target r.info))
  rw [List.length_map] at hle hfull
  exact absurd (hfull.trans_le hle) (Nat.not_le_of_lt hlt)

/-- When every push succeeds, every service and token of this pinger is alerted once, with all its
contexts, exactly when its rows of this pinger agree on OS version, platform and ARN and its message
is not too long for an old device. -/
theorem alertedOnce_iff (env : AlertEnv) (rows : List DeviceRecord) (h : AllSucceed env rows) :
    AlertedOnce env rows ↔ SameColumns env rows ∧ NoneTrimmed env rows := by
  constructor
  · rintro ⟨hone, -⟩
    constructor
    · intro r hr r' hr' hpair
      obtain ⟨m, hm, -⟩ := hone r hr
      exact target_unique h hr hr' hpair hm
    · intro r hr
      obtain ⟨m, hm, -, hnames⟩ := hone r hr
      exact not_trims_of_names h hr hm hnames
  · rintro ⟨hcols, htrim⟩
    refine ⟨fun r hr => ?_, (alertAllDevices_eq h).trans (length_servicesAndTokens hcols)⟩
    obtain ⟨m, hm⟩ := messageTo_isSome h (mem_servicesAndTokens.mpr ⟨r, hr, rfl⟩)
    have hreg : m = registerMessage env rows (target r.info) :=
      delivered_of_not_trims (htrim r hr) hm
    refine ⟨m, ?_, ?_, fun c => ?_⟩
    · rw [received, targets_of_sameColumns hcols hr]
      simp [hm]
    · rw [hreg]
      intro x hx
      obtain ⟨c, -, rfl⟩ := List.mem_map.mp hx
      rfl
    · rw [hreg, registerMessage_names]
      exact mem_clientContexts

/-- A row of the phone, from the session given. -/
def phoneRow (session osVersion : String) : DeviceRecord where
  info :=
    { iphone with
      sessionId := GoString.lit session
      pushToken := List.replicate 64 'a'
      osVersion := GoString.lit osVersion }
  id := 1
  pinger := GoString.lit "pinger-1"

/-- SNS accepts what it is sent; the text is that of the message to the phone. -/
def alertEnv : AlertEnv where
  host := GoString.lit "pinger-1"
  transport _ :=
    { snsAnswers none with
      json := fun _ =>
        GoString.lit "\x7b\"aps\":\x7b\x7d,\"pinger\":\x7b\"ctxs\":\x7b\"ctx12\":" ++
        GoString.lit "\x7b\"cmd\":\"reg\"\x7d\x7d,\"meta\":\x7b\"time\":\"1427000000\"\x7d\x7d\x7d" }
  time _ := GoString.lit "1427000000"

theorem alertedOnce_two_sessions :
    AlertedOnce alertEnv [phoneRow "1" "8.1", phoneRow "2" "8.1"] ∧
      alertAllDevices alertEnv [phoneRow "1" "8.1", phoneRow "2" "8.1"] = 1 := by
  have hone : servicesAndTokens alertEnv [phoneRow "1" "8.1", phoneRow "2" "8.1"] =
      [target (phoneRow "1" "8.1").info] := by decide +kernel
  have hall : AllSucceed alertEnv [phoneRow "1" "8.1", phoneRow "2" "8.1"] := by
    intro x hx
    rw [hone, List.mem_singleton] at hx
    subst hx
    decide +kernel
  have hsame : ∀ r ∈ owned alertEnv [phoneRow "1" "8.1", phoneRow "2" "8.1"],
      target r.info = target (phoneRow "1" "8.1").info := by
    intro r hr
    have hx := mem_servicesAndTokens.mpr ⟨r, hr, rfl⟩
    rw [hone] at hx
    exact List.mem_singleton.mp hx
  refine ⟨(alertedOnce_iff _ _ hall).mpr ⟨?_, ?_⟩, by rw [alertAllDevices_eq hall, hone]; rfl⟩
  · exact fun r hr r' hr' _ => (hsame r hr).trans (hsame r' hr').symm
  · -- there is no certificate, so the push goes through SNS
    intro r hr h
    rw [hsame r hr] at h
    exact absurd h.1 (by decide)

/-- The phone was updated between two sessions: it is alerted twice. -/
theorem two_versions_alerted_twice :
    alertAllDevices alertEnv [phoneRow "1" "8.0", phoneRow "2" "8.1"] = 2 ∧
      AllSucceed alertEnv [phoneRow "1" "8.0", phoneRow "2" "8.1"] ∧
      ¬AlertedOnce alertEnv [phoneRow "1" "8.0", phoneRow "2" "8.1"] := by
  have htwo : servicesAndTokens alertEnv [phoneRow "1" "8.0", phoneRow "2" "8.1"] =
      [target (phoneRow "1" "8.0").info, target (phoneRow "2" "8.1").info] := by decide +kernel
  have hcount : alertAllDevices alertEnv [phoneRow "1" "8.0", phoneRow "2" "8.1"] = 2 := by
    decide +kernel
  refine ⟨hcount, fun x hx => ?_, fun h => ?_⟩
  · rw [htwo, List.mem_pair] at hx
    rcases hx with rfl | rfl
    · decide +kernel
    · decide +kernel
  · exact absurd (hcount.symm.trans h.2) (by decide +kernel)

end Pinger.Push
