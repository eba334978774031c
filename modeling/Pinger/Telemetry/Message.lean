import Mathlib.Data.List.AList
import Pinger.Lib.Calendar
import Pinger.Telemetry.Writer

/-! # The fields of a message

`toMap` takes the text of a message apart at `|` and each part at its first `=`, and of two parts
with one key the later one wins. The fields of the record are set afterwards, so that the text
cannot set them. The fields that the prefix of a client sets can be set again by what is logged
behind it. -/

/-- `strings.SplitN(s, sep, 2)` when there are two parts. -/
def GoString.splitPair (sep : Char) (s : GoString) : Option (GoString × GoString) :=
  if sep ∈ s then some (s.takeWhile (· ≠ sep), (s.dropWhile (· ≠ sep)).tail) else none

theorem GoString.splitPair_append (h : sep ∉ a) (b : GoString) :
    splitPair sep (a ++ sep :: b) = some (a, b) := by
  have hne : ∀ c ∈ a, decide (c ≠ sep) = true :=
    fun c hc => decide_eq_true fun e => h (e ▸ hc)
  rw [splitPair, if_pos (List.mem_append_right a List.mem_cons_self),
    List.takeWhile_append_of_pos hne, List.dropWhile_append_of_pos hne]
  simp

theorem GoString.splitPair_eq_none : splitPair sep s = none ↔ sep ∉ s := by
  unfold splitPair
  split <;> simp_all

namespace Pinger.Telemetry

open GoString (lit split splitPair)

/-! ## Maps -/

abbrev TelemetryLogMsgMap := AList fun _ : GoString => GoString

def EventType.text : EventType → GoString
  | .debug => lit "DEBUG"
  | .info => lit "INFO"
  | .warning => lit "WARN"
  | .error => lit "ERROR"

/-- What the loop over the tokens has collected. -/
structure Collected where
  msgMap : TelemetryLogMsgMap := ∅
  rawMessage : GoString := []

def Collected.token (p : Collected) (token : GoString) : Collected :=
  match splitPair '=' token with
  | none =>
    { p with rawMessage := if p.rawMessage = [] then token else p.rawMessage ++ ',' :: token }
  | some (key, value) => { p with msgMap := p.msgMap.insert key value }

def collect (tokens : List GoString) : Collected := tokens.foldl Collected.token {}

/-- The tokens without a key are added to the field `message`. -/
def Collected.fields (p : Collected) : TelemetryLogMsgMap :=
  if p.rawMessage = [] then p.msgMap
  else
    match p.msgMap.lookup (lit "message") with
    | some value => p.msgMap.insert (lit "message") (value ++ ',' :: p.rawMessage)
    | none => p.msgMap.insert (lit "message") p.rawMessage

/-- `toMap` on this host, at this time. -/
def toMap (hostId : GoString) (now : Int) (msg : TelemetryLogMsg) : TelemetryLogMsgMap :=
  (collect (split '|' msg.message)).fields
    |>.insert (lit "id") msg.id
    |>.insert (lit "event_type") msg.eventType.text
    |>.insert (lit "timestamp") (Calendar.format Calendar.stampLayout msg.timestamp)
    |>.insert (lit "uploaded_at") (Calendar.format Calendar.stampLayout (round now))
    |>.insert (lit "module") msg.moduleName
    |>.insert (lit "pinger") hostId

/-! ## Looking up a field -/

/-- The value of the last token with this key. -/
def assigned (key : GoString) (tokens : List GoString) : Option GoString :=
  (tokens.filterMap (splitPair '=')).reverse.lookup key

theorem assigned_append (key : GoString) (tokens tokens' : List GoString) :
    assigned key (tokens ++ tokens') = (assigned key tokens').or (assigned key tokens) := by
  rw [assigned, List.filterMap_append, List.reverse_append, List.lookup_append]
  rfl

/-- A token that sets a field. -/
def fieldToken (field : GoString × GoString) : GoString := field.1 ++ '=' :: field.2

theorem assigned_fieldTokens {fields : List (GoString × GoString)}
    (h : ∀ field ∈ fields, '=' ∉ field.1) (key : GoString) :
    assigned key (fields.map fieldToken) = fields.reverse.lookup key := by
  have hpairs : (fields.map fieldToken).filterMap (splitPair '=') = fields := by
    rw [List.filterMap_map]
    conv_rhs => rw [← List.filterMap_some (l := fields)]
    exact List.filterMap_congr fun field hf => GoString.splitPair_append (h field hf) field.2
  rw [assigned, hpairs]

theorem lookup_collect (key : GoString) (tokens : List GoString) :
    (collect tokens).msgMap.lookup key = assigned key tokens := by
  induction tokens using List.reverseRecOn with
  | nil => rfl
  | append_singleton tokens token ih =>
    rw [collect, List.foldl_append, ← collect, List.foldl_cons, List.foldl_nil, Collected.token,
      assigned_append, assigned]
    cases hpair : splitPair '=' token with
    | none => simp [hpair, ih]
    | some pair =>
      obtain ⟨key', value⟩ := pair
      simp only [List.filterMap_cons, hpair, List.filterMap_nil, List.reverse_singleton,
        List.lookup_cons, List.lookup_nil]
      by_cases hk : key = key'
      · subst hk
        simp [AList.lookup_insert]
      · simp [AList.lookup_insert_ne hk, beq_eq_false_iff_ne.mpr hk, ih]

/-- Only the field `message` is changed after the loop. -/
theorem lookup_fields (h : key ≠ lit "message") (p : Collected) :
    p.fields.lookup key = p.msgMap.lookup key := by
  unfold Collected.fields
  split
  · rfl
  · split <;> exact AList.lookup_insert_ne h

/-- The fields that are set from the record. -/
def recordKeys : List GoString :=
  [lit "id", lit "event_type", lit "timestamp", lit "uploaded_at", lit "module", lit "pinger"]

theorem lookup_toMap (h : key ∉ recordKeys) (hostId : GoString) (now : Int)
    (msg : TelemetryLogMsg) :
    (toMap hostId now msg).lookup key =
      (collect (split '|' msg.message)).fields.lookup key := by
  simp only [recordKeys, List.mem_cons, List.not_mem_nil, or_false, not_or] at h
  obtain ⟨hid, htype, htime, hup, hmodule, hpinger⟩ := h
  rw [toMap, AList.lookup_insert_ne hpinger, AList.lookup_insert_ne hmodule,
    AList.lookup_insert_ne hup, AList.lookup_insert_ne htime, AList.lookup_insert_ne htype,
    AList.lookup_insert_ne hid]

/-- The fields of the record are those of the message. -/
structure HasRecord (map : TelemetryLogMsgMap) (hostId : GoString) (msg : TelemetryLogMsg) :
    Prop where
  id : map.lookup (lit "id") = some msg.id
  eventType : map.lookup (lit "event_type") = some msg.eventType.text
  timestamp : map.lookup (lit "timestamp") =
    some (Calendar.format Calendar.stampLayout msg.timestamp)
  moduleName : map.lookup (lit "module") = some msg.moduleName
  pinger : map.lookup (lit "pinger") = some hostId

theorem toMap_hasRecord (hostId : GoString) (now : Int) (msg : TelemetryLogMsg) :
    HasRecord (toMap hostId now msg) hostId msg := by
  constructor <;>
    simp (disch := decide) only [toMap, AList.lookup_insert, AList.lookup_insert_ne]

/-! ## What a client logs -/

def getLogPrefix (deviceId userId clientContext sessionId : GoString) : GoString :=
  lit "|device=" ++ deviceId ++ lit "|client=" ++ userId ++ lit "|context=" ++ clientContext ++
    lit "|session=" ++ sessionId

/-- The text of a message that a client logs. -/
def logText (deviceId userId clientContext sessionId text : GoString) : GoString :=
  getLogPrefix deviceId userId clientContext sessionId ++ lit "|message=" ++ text

structure HasIdentity (map : TelemetryLogMsgMap)
    (deviceId userId clientContext sessionId : GoString) : Prop where
  device : map.lookup (lit "device") = some deviceId
  client : map.lookup (lit "client") = some userId
  context : map.lookup (lit "context") = some clientContext
  session : map.lookup (lit "session") = some sessionId

/-- No token sets the field to another value in the end. -/
def Keeps (tokens : List GoString) (key value : GoString) : Prop :=
  ∀ value', assigned key tokens = some value' → value' = value

instance (tokens : List GoString) (key value : GoString) : Decidable (Keeps tokens key value) :=
  decidable_of_iff (assigned key tokens = none ∨ assigned key tokens = some value) <| by
    unfold Keeps
    cases assigned key tokens <;> simp

theorem or_some_eq_iff {o : Option α} : o.or (some a) = some a ↔ ∀ b, o = some b → b = a := by
  cases o <;> simp

/-- The fields a client sets before the text. -/
def prefixFields (deviceId userId clientContext sessionId : GoString) :
    List (GoString × GoString) :=
  [(lit "device", deviceId), (lit "client", userId), (lit "context", clientContext),
    (lit "session", sessionId)]

/-- The tokens of the prefix, the one that is begun by the text, and those of the rest of it. -/
theorem split_logText (hd : '|' ∉ deviceId) (hu : '|' ∉ userId) (hc : '|' ∉ clientContext)
    (hs : '|' ∉ sessionId) (h : split '|' text = first :: tokens) :
    split '|' (logText deviceId userId clientContext sessionId text) =
      [[]] ++ (prefixFields deviceId userId clientContext sessionId ++
        [(lit "message", first)]).map fieldToken ++ tokens := by
  have hbar : '|' ∉ lit "message=" := by decide
  have hkey : ∀ key value : GoString, '|' ∉ key → '|' ∉ value → '|' ∉ key ++ '=' :: value := by
    intro key value hk hv
    simp [hk, hv]
  have htext : logText deviceId userId clientContext sessionId text =
      '|' :: (lit "device" ++ '=' :: deviceId) ++ '|' :: ((lit "client" ++ '=' :: userId) ++
        '|' :: ((lit "context" ++ '=' :: clientContext) ++
          '|' :: ((lit "session" ++ '=' :: sessionId) ++ '|' :: (lit "message=" ++ text)))) := by
    have hdevice : lit "|device=" = '|' :: lit "device" ++ ['='] := by decide
    have hclient : lit "|client=" = '|' :: lit "client" ++ ['='] := by decide
    have hcontext : lit "|context=" = '|' :: lit "context" ++ ['='] := by decide
    have hsession : lit "|session=" = '|' :: lit "session" ++ ['='] := by decide
    have hmessage : lit "|message=" = '|' :: lit "message=" := by decide
    unfold logText getLogPrefix
    rw [hdevice, hclient, hcontext, hsession, hmessage]
    simp only [List.append_assoc, List.cons_append, List.nil_append]
  rw [htext, List.cons_append, GoString.split_sep,
    GoString.split_first (hkey _ _ (by decide) hd),
    GoString.split_first (hkey _ _ (by decide) hu),
    GoString.split_first (hkey _ _ (by decide) hc),
    GoString.split_first (hkey _ _ (by decide) hs), GoString.split_extend hbar h]
  rfl

/-- A field has the value that the rest of the text gives it, or else the one of the prefix. -/
theorem lookup_logText (hd : '|' ∉ deviceId) (hu : '|' ∉ userId) (hc : '|' ∉ clientContext)
    (hs : '|' ∉ sessionId) (hkey : key ≠ lit "message" ∧ key ∉ recordKeys)
    {msg : TelemetryLogMsg}
    (hmsg : msg.message = logText deviceId userId clientContext sessionId text) :
    (toMap hostId now msg).lookup key = (assigned key (split '|' text).tail).or
      ((prefixFields deviceId userId clientContext sessionId).reverse.lookup key) := by
  cases h : split '|' text with
  | nil => exact absurd h (GoString.split_ne_nil _ _)
  | cons first tokens =>
    have heq : ∀ field ∈ prefixFields deviceId userId clientContext sessionId ++
        [(lit "message", first)], '=' ∉ Prod.fst field := by
      intro field hf
      simp only [prefixFields, List.cons_append, List.nil_append, List.mem_cons,
        List.not_mem_nil, or_false] at hf
      rcases hf with rfl | rfl | rfl | rfl | rfl <;> exact show '=' ∉ lit _ by decide
    rw [lookup_toMap hkey.2, lookup_fields hkey.1, lookup_collect, hmsg,
      split_logText hd hu hc hs h, assigned_append, assigned_append, assigned_fieldTokens heq,
      List.tail_cons, List.reverse_append, List.reverse_singleton, List.singleton_append,
      List.lookup_cons, beq_eq_false_iff_ne.mpr hkey.1]
    exact congrArg _ Option.or_none

/-- The fields of the record are always its own, and those of the prefix exactly when the last token
behind the first `|` of the text that sets one of them, if there is one, sets it to the same
value. -/
theorem identity_kept_iff (hostId : GoString) (now : Int) {msg : TelemetryLogMsg}
    (hd : '|' ∉ deviceId) (hu : '|' ∉ userId) (hc : '|' ∉ clientContext) (hs : '|' ∉ sessionId)
    (hmsg : msg.message = logText deviceId userId clientContext sessionId text) :
    (HasIdentity (toMap hostId now msg) deviceId userId clientContext sessionId ∧
        HasRecord (toMap hostId now msg) hostId msg) ↔
      Keeps (split '|' text).tail (lit "device") deviceId ∧
        Keeps (split '|' text).tail (lit "client") userId ∧
        Keeps (split '|' text).tail (lit "context") clientContext ∧
        Keeps (split '|' text).tail (lit "session") sessionId := by
  rw [and_iff_left (toMap_hasRecord hostId now msg)]
  have hkeys : ∀ key ∈ [lit "device", lit "client", lit "context", lit "session"],
      key ≠ lit "message" ∧ key ∉ recordKeys := by decide
  have hfield : ∀ key ∈ [lit "device", lit "client", lit "context", lit "session"], ∀ value,
      (prefixFields deviceId userId clientContext sessionId).reverse.lookup key = some value →
        ((toMap hostId now msg).lookup key = some value ↔
          Keeps (split '|' text).tail key value) := by
    intro key hkey value hvalue
    rw [lookup_logText hd hu hc hs (hkeys key hkey) hmsg, hvalue]
    exact or_some_eq_iff
  have hdevice := hfield (lit "device") (by decide) deviceId rfl
  have hclient := hfield (lit "client") (by decide) userId rfl
  have hcontext := hfield (lit "context") (by decide) clientContext rfl
  have hsession := hfield (lit "session") (by decide) sessionId rfl
  rw [← hdevice, ← hclient, ← hcontext, ← hsession]
  exact ⟨fun h => ⟨h.device, h.client, h.context, h.session⟩,
    fun h => ⟨h.1, h.2.1, h.2.2.1, h.2.2.2⟩⟩

/-- A reply that a server sends. -/
def reply (text : GoString) : TelemetryLogMsg where
  id := lit "1"
  eventType := .info
  timestamp := 0
  moduleName := lit "pinger"
  message := logText (lit "d1") (lit "u1") (lit "c1") (lit "s1") text

/-- A reply with other bars keeps the identity. -/
theorem identity_kept_reply :
    HasIdentity (toMap (lit "host") 0 (reply (lit "status|device=d1|code=5")))
        (lit "d1") (lit "u1") (lit "c1") (lit "s1") ∧
      HasRecord (toMap (lit "host") 0 (reply (lit "status|device=d1|code=5"))) (lit "host")
        (reply (lit "status|device=d1|code=5")) :=
  (identity_kept_iff _ _ (by decide) (by decide) (by decide) (by decide) rfl).mpr (by decide)

/-- A reply can name another device. -/
theorem identity_forged :
    (∀ value ∈ [lit "d1", lit "u1", lit "c1", lit "s1"], '|' ∉ value) ∧
    (toMap (lit "host") 0 (reply (lit "x|device=evil"))).lookup (lit "device") =
      some (lit "evil") ∧
    ¬HasIdentity (toMap (lit "host") 0 (reply (lit "x|device=evil")))
      (lit "d1") (lit "u1") (lit "c1") (lit "s1") := by
  have hdevice : (toMap (lit "host") 0 (reply (lit "x|device=evil"))).lookup (lit "device") =
      some (lit "evil") := by decide +kernel
  refine ⟨by decide, hdevice, fun h => ?_⟩
  exact absurd (hdevice.symm.trans h.device) (by decide)

end Pinger.Telemetry
