import Pinger.Lib.JsonValue
import Pinger.Device.Trim

/-! # The text of a push message

`pingerPushMessageMapV2` puts the contexts with their commands into a map, and the push encodes that
map for the platform of the device: for SNS as a map from the names of its services to texts that
are JSON themselves. What a device reads in such a text are the contexts of the message. -/

namespace Pinger.Payload

open GoString (lit validString)
open Json (Value)
open Push (ContextMessage PushError Visits)

/-! ## The maps -/

/-- What `pingerPushMessageMapV2` returns: the contexts and their commands in the order in which a
loop over the map visits them. A message without contexts has no such map. -/
structure PingerMap where
  time : GoString
  ctxs : Option (List (GoString × GoString))
  deriving DecidableEq, Repr

/-- The message for these contexts at this second; the map of the contexts, which is
`Push.pingerPushMessageMapV2`, is visited in this order. -/
def pingerPushMessageMapV2 (now : Int) (contexts : List ContextMessage)
    (order : List (GoString × GoString)) : PingerMap where
  time := Json.encodeNumber now
  ctxs := if contexts = [] then none else some order

def contextValue (c : GoString × GoString) : GoString × Value :=
  (c.1, .ofMap [(lit "cmd", .string c.2)])

def PingerMap.value (m : PingerMap) : Value :=
  let time := (lit "meta", Value.ofMap [(lit "time", .string m.time)])
  match m.ctxs with
  | none => .ofMap [time]
  | some ctxs => .ofMap [time, (lit "ctxs", .ofMap (ctxs.map contextValue))]

/-- What the device shows and plays. -/
structure Alert where
  alert : GoString
  sound : GoString
  contentAvailable : Int
  deriving DecidableEq, Repr

/-- The entries of the map of an alert: none for an empty text, and none for a number below one. -/
def Alert.entries (a : Alert) : List (GoString × Value) :=
  (if 0 < a.contentAvailable then [(lit "content-available", .number a.contentAvailable)] else []) ++
    (if a.sound = [] then [] else [(lit "sound", .string a.sound)]) ++
    (if a.alert = [] then [] else [(lit "alert", .string a.alert)])

def Alert.value (a : Alert) : Value := .ofMap a.entries

def apnsMap (a : Alert) (m : PingerMap) : Value :=
  .ofMap [(lit "pinger", m.value), (lit "aps", a.value)]

/-- The map for Android; `sha1` is the hash of the encoded message. -/
def gcmMap (sha1 : GoString → GoString) (ttl : Int64) (m : PingerMap) : Value :=
  .ofMap [(lit "data", m.value),
    (lit "collapse_key", .string (GoString.hexEncode (sha1 m.value.encode))),
    (lit "time_to_live", .number ttl.toInt), (lit "delay_while_idle", .bool false)]

def marshalStrings (m : List (GoString × GoString)) : GoString :=
  (Value.ofMap (m.map fun entry => (entry.1, .string entry.2))).encode

/-- The map of the texts for a platform. -/
def notificationMap (sha1 : GoString → GoString) (platform : GoString) (a : Alert) (ttl : Int64)
    (m : PingerMap) : List (GoString × GoString) :=
  (lit "default", m.value.encode) ::
    if platform = lit "ios" then
      [(lit "APNS", (apnsMap a m).encode), (lit "APNS_SANDBOX", (apnsMap a m).encode)]
    else if platform = lit "android" then [(lit "GCM", (gcmMap sha1 ttl m).encode)]
    else []

/-- The text for SNS. The maps hold only texts, numbers and truth values, which always can be
encoded. -/
def awsPushMessageString (sha1 : GoString → GoString) (platform : GoString) (a : Alert)
    (ttl : Int64) (m : PingerMap) : Except PushError GoString :=
  if platform = lit "ios" ∧ 256 < (apnsMap a m).encode.length then .error .messageTooLarge
  else .ok (marshalStrings (notificationMap sha1 platform a ttl m))

/-! ## Reading a text -/

/-- What stands at a path of the JSON text that is a member of a JSON text. -/
def readIn (name : GoString) (path : List GoString) (text : GoString) : Option Value :=
  match Json.readAt [name] text with
  | some (.string inner) => Json.readAt path inner
  | _ => none

/-- The members of the text for a platform, and where each has the message. -/
def sections (platform : GoString) : List (GoString × List GoString) :=
  (lit "default", []) ::
    if platform = lit "ios" then [(lit "APNS", [lit "pinger"]), (lit "APNS_SANDBOX", [lit "pinger"])]
    else if platform = lit "android" then [(lit "GCM", [lit "data"])]
    else []

/-- The message read at these paths is this one. -/
structure Carries (read : List GoString → Option Value) (m : PingerMap) : Prop where
  time : read [lit "meta", lit "time"] = some (.string m.time)
  ctxs : (read [lit "ctxs"]).isSome ↔ m.ctxs.isSome
  command : ∀ context command, read [lit "ctxs", context, lit "cmd"] = some (.string command) ↔
    ∃ ctxs ∈ m.ctxs, (context, command) ∈ ctxs

/-- The alert read at these paths is this one. -/
structure Shows (read : List GoString → Option Value) (a : Alert) : Prop where
  alert : read [lit "alert"] = if a.alert = [] then none else some (.string a.alert)
  sound : read [lit "sound"] = if a.sound = [] then none else some (.string a.sound)
  contentAvailable : read [lit "content-available"] =
    if 0 < a.contentAvailable then some (.number a.contentAvailable) else none

/-! ## What is in the maps -/

/-- The keys are different, and all texts are valid. -/
structure PingerMap.Ok (m : PingerMap) : Prop where
  time : validString m.time
  nodup : ∀ ctxs ∈ m.ctxs, (ctxs.map Prod.fst).Nodup
  valid : ∀ ctxs ∈ m.ctxs, ∀ c ∈ ctxs, validString c.1 ∧ validString c.2

def Alert.Ok (a : Alert) : Prop := validString a.alert ∧ validString a.sound

instance (a : Alert) : Decidable a.Ok := inferInstanceAs (Decidable (_ ∧ _))

section
variable {m : PingerMap} {a : Alert}

theorem keys_contextValue (ctxs : List (GoString × GoString)) :
    (ctxs.map contextValue).map Prod.fst = ctxs.map Prod.fst := by
  rw [List.map_map]
  rfl

/-- The map of the contexts, and the time. -/
theorem PingerMap.member_value (m : PingerMap) :
    m.value.member (lit "ctxs") = m.ctxs.map (fun ctxs => .ofMap (ctxs.map contextValue)) ∧
      m.value.member (lit "meta") = some (.ofMap [(lit "time", .string m.time)]) := by
  have hne : lit "ctxs" ≠ lit "meta" := by decide
  rw [PingerMap.value]
  cases m.ctxs with
  | none =>
    have hnodup : [lit "meta"].Nodup := List.nodup_singleton _
    constructor
    · apply Option.ext
      intro v
      rw [Json.member_ofMap (by exact hnodup)]
      simp [hne]
    · rw [Json.member_ofMap (by exact hnodup)]
      exact List.mem_singleton_self _
  | some ctxs =>
    have hnodup : [lit "meta", lit "ctxs"].Nodup := by decide
    constructor
    · rw [Option.map_some, Json.member_ofMap (by exact hnodup)]
      exact List.mem_cons_of_mem _ (List.mem_singleton_self _)
    · rw [Json.member_ofMap (by exact hnodup)]
      exact List.mem_cons_self

theorem find?_contextValue {ctxs : List (GoString × GoString)}
    (h : (ctxs.map Prod.fst).Nodup) (context command : GoString) :
    (Value.ofMap (ctxs.map contextValue)).find? [context, lit "cmd"] = some (.string command) ↔
      (context, command) ∈ ctxs := by
  have hcmd : ∀ s v, (Value.ofMap [(lit "cmd", .string s)]).find? [lit "cmd"] = some v ↔
      .string s = v := by
    intro s v
    rw [Json.find?_cons, Option.bind_eq_some_iff]
    constructor
    · rintro ⟨w, hw, hv⟩
      rw [Json.member_ofMap (by simp)] at hw
      simp only [List.mem_singleton, Prod.mk.injEq, true_and] at hw
      rw [Json.find?_nil, hw] at hv
      exact Option.some.inj hv
    · intro hv
      refine ⟨v, ?_, Json.find?_nil v⟩
      rw [Json.member_ofMap (by simp)]
      simp [hv]
  rw [Json.find?_cons, Option.bind_eq_some_iff]
  constructor
  · rintro ⟨v, hv, hfind⟩
    rw [Json.member_ofMap (by rwa [keys_contextValue])] at hv
    obtain ⟨c, hc, heq⟩ := List.mem_map.mp hv
    obtain ⟨rfl, rfl⟩ := Prod.mk.inj heq
    cases (hcmd ..).mp hfind
    exact hc
  · intro hmem
    refine ⟨.ofMap [(lit "cmd", .string command)], ?_, (hcmd ..).mpr rfl⟩
    rw [Json.member_ofMap (by rwa [keys_contextValue])]
    exact List.mem_map.mpr ⟨(context, command), hmem, rfl⟩

/-- The value of a message has the message. -/
theorem PingerMap.Ok.carries (h : m.Ok) : Carries (fun path => m.value.find? path) m := by
  obtain ⟨hctxs, hmeta⟩ := m.member_value
  constructor
  · rw [Json.find?_cons, hmeta, Option.bind_some, Json.find?_cons, Option.bind_eq_some_iff]
    refine ⟨.string m.time, ?_, Json.find?_nil _⟩
    rw [Json.member_ofMap (by simp)]
    exact List.mem_singleton_self _
  · rw [Json.find?_cons, hctxs]
    cases m.ctxs with
    | none => simp
    | some ctxs => simp [Json.find?_nil]
  · intro context command
    rw [Json.find?_cons, hctxs]
    cases hm : m.ctxs with
    | none => simp
    | some ctxs =>
      rw [Option.map_some, Option.bind_some, find?_contextValue (h.nodup ctxs hm)]
      simp

theorem Alert.nodup_entries (a : Alert) : (a.entries.map Prod.fst).Nodup := by
  have hall : ([lit "content-available"] ++ [lit "sound"] ++ [lit "alert"]).Nodup := by decide
  have hif : ∀ (p : Prop) [Decidable p] (k : GoString) (v : Value),
      List.Sublist ((if p then [(k, v)] else []).map Prod.fst) [k] ∧
        List.Sublist ((if p then [] else [(k, v)]).map Prod.fst) [k] := by
    intro p _ k v
    split <;> simp
  refine List.Nodup.sublist ?_ hall
  rw [Alert.entries, List.map_append, List.map_append]
  exact ((hif ..).1.append (hif ..).2).append (hif ..).2

theorem Alert.member_value (a : Alert) :
    a.value.member key = some v ↔
      key = lit "content-available" ∧ 0 < a.contentAvailable ∧ v = .number a.contentAvailable ∨
      key = lit "sound" ∧ a.sound ≠ [] ∧ v = .string a.sound ∨
      key = lit "alert" ∧ a.alert ≠ [] ∧ v = .string a.alert := by
  have hmem : ∀ (p : Prop) [Decidable p] (k : GoString) (w : Value),
      (key, v) ∈ (if p then [(k, w)] else []) ↔ key = k ∧ p ∧ v = w := by
    intro p _ k w
    split
    next hp => simp [hp]
    next hp => simp [hp]
  have hmem' : ∀ (p : Prop) [Decidable p] (k : GoString) (w : Value),
      (key, v) ∈ (if p then [] else [(k, w)]) ↔ key = k ∧ ¬p ∧ v = w := by
    intro p _ k w
    split
    next hp => simp [hp]
    next hp => simp [hp]
  rw [Alert.value, Json.member_ofMap a.nodup_entries, Alert.entries, List.mem_append, List.mem_append,
    hmem, hmem', hmem', or_assoc]

/-- The value of an alert has the alert. -/
theorem Alert.shows (a : Alert) : Shows (fun path => a.value.find? path) a := by
  have hsound : lit "sound" ≠ lit "alert" := by decide
  have hcontent : lit "content-available" ≠ lit "alert" := by decide
  have hcontent' : lit "content-available" ≠ lit "sound" := by decide
  have hfind : ∀ key v, a.value.find? [key] = some v ↔ a.value.member key = some v := by
    intro key v
    rw [Json.find?_cons, Option.bind_eq_some_iff]
    simp only [Json.find?_nil, Option.some.injEq, exists_eq_right]
  constructor
  · apply Option.ext
    intro v
    rw [hfind, a.member_value]
    by_cases h : a.alert = [] <;> simp [h, hsound.symm, hcontent.symm, eq_comm]
  · apply Option.ext
    intro v
    rw [hfind, a.member_value]
    by_cases h : a.sound = [] <;> simp [h, hsound, hcontent'.symm, eq_comm]
  · apply Option.ext
    intro v
    rw [hfind, a.member_value]
    by_cases h : 0 < a.contentAvailable <;> simp [h, hcontent, hcontent', eq_comm]

/-! ## Valid texts -/

theorem PingerMap.Ok.valid_value (h : m.Ok) : m.value.valid := by
  have hmeta : (Value.ofMap [(lit "time", .string m.time)]).valid := by
    apply Json.valid_ofMap
    intro entry hentry
    rw [List.mem_singleton.mp hentry]
    exact ⟨show validString (lit "time") by decide, h.time⟩
  rw [PingerMap.value]
  cases hm : m.ctxs with
  | none =>
    apply Json.valid_ofMap
    intro entry hentry
    rw [List.mem_singleton.mp hentry]
    exact ⟨show validString (lit "meta") by decide, hmeta⟩
  | some ctxs =>
    have hctxs : (Value.ofMap (ctxs.map contextValue)).valid := by
      apply Json.valid_ofMap
      intro entry hentry
      obtain ⟨c, hc, rfl⟩ := List.mem_map.mp hentry
      obtain ⟨hkey, hcmd⟩ := h.valid ctxs hm c hc
      refine ⟨hkey, Json.valid_ofMap fun entry hentry => ?_⟩
      rw [List.mem_singleton.mp hentry]
      exact ⟨show validString (lit "cmd") by decide, hcmd⟩
    apply Json.valid_ofMap
    intro entry hentry
    rcases List.mem_cons.mp hentry with rfl | hentry
    · exact ⟨show validString (lit "meta") by decide, hmeta⟩
    · rw [List.mem_singleton.mp hentry]
      exact ⟨show validString (lit "ctxs") by decide, hctxs⟩

theorem Alert.Ok.valid_value (h : a.Ok) : a.value.valid := by
  apply Json.valid_ofMap
  intro entry hentry
  rw [Alert.entries, List.mem_append, List.mem_append] at hentry
  rcases hentry with (hentry | hentry) | hentry
  · split at hentry
    · rw [List.mem_singleton.mp hentry]
      exact ⟨show validString (lit "content-available") by decide, rfl⟩
    · cases hentry
  · split at hentry
    · cases hentry
    · rw [List.mem_singleton.mp hentry]
      exact ⟨show validString (lit "sound") by decide, h.2⟩
  · split at hentry
    · cases hentry
    · rw [List.mem_singleton.mp hentry]
      exact ⟨show validString (lit "alert") by decide, h.1⟩

theorem digitChar_lt (n : Nat) : n.digitChar.toNat < 0x80 := by
  rcases Nat.lt_or_ge n 16 with h | h
  · have hall : ∀ n < 16, n.digitChar.toNat < 0x80 := by decide
    exact hall n h
  · have hstar : n.digitChar = '*' := by
      unfold Nat.digitChar
      simp (disch := omega) only [if_neg]
    rw [hstar]
    decide

theorem validString_hexEncode (s : GoString) : validString (GoString.hexEncode s) := by
  apply GoString.validString_of_ascii
  intro c hc
  obtain ⟨b, -, hb⟩ := List.mem_flatMap.mp hc
  simp only [List.mem_cons, List.not_mem_nil, or_false] at hb
  rcases hb with rfl | rfl
  · exact digitChar_lt _
  · exact digitChar_lt _

theorem valid_apnsMap (ha : a.Ok) (hm : m.Ok) : (apnsMap a m).valid := by
  apply Json.valid_ofMap
  intro entry hentry
  simp only [List.mem_cons, List.not_mem_nil, or_false] at hentry
  rcases hentry with rfl | rfl
  · exact ⟨show validString (lit "pinger") by decide, hm.valid_value⟩
  · exact ⟨show validString (lit "aps") by decide, ha.valid_value⟩

theorem valid_gcmMap (sha1 : GoString → GoString) (ttl : Int64) (hm : m.Ok) :
    (gcmMap sha1 ttl m).valid := by
  apply Json.valid_ofMap
  intro entry hentry
  simp only [List.mem_cons, List.not_mem_nil, or_false] at hentry
  rcases hentry with rfl | rfl | rfl | rfl
  · exact ⟨show validString (lit "data") by decide, hm.valid_value⟩
  · exact ⟨show validString (lit "collapse_key") by decide, validString_hexEncode _⟩
  · exact ⟨show validString (lit "time_to_live") by decide, rfl⟩
  · exact ⟨show validString (lit "delay_while_idle") by decide, rfl⟩

/-- The message and the alert in the map for Apple. -/
theorem member_apnsMap (a : Alert) (m : PingerMap) :
    (apnsMap a m).member (lit "pinger") = some m.value ∧
      (apnsMap a m).member (lit "aps") = some a.value := by
  have hnodup : [lit "pinger", lit "aps"].Nodup := by decide
  constructor
  · rw [apnsMap, Json.member_ofMap (by exact hnodup)]
    exact List.mem_cons_self
  · rw [apnsMap, Json.member_ofMap (by exact hnodup)]
    exact List.mem_cons_of_mem _ List.mem_cons_self

theorem member_gcmMap (sha1 : GoString → GoString) (ttl : Int64) (m : PingerMap) :
    (gcmMap sha1 ttl m).member (lit "data") = some m.value ∧
      (gcmMap sha1 ttl m).member (lit "collapse_key") =
        some (.string (GoString.hexEncode (sha1 m.value.encode))) ∧
      (gcmMap sha1 ttl m).member (lit "time_to_live") = some (.number ttl.toInt) ∧
      (gcmMap sha1 ttl m).member (lit "delay_while_idle") = some (.bool false) := by
  have hnodup : [lit "data", lit "collapse_key", lit "time_to_live", lit "delay_while_idle"].Nodup := by
    decide
  refine ⟨?_, ?_, ?_, ?_⟩ <;> rw [gcmMap, Json.member_ofMap (by exact hnodup)] <;>
    simp only [List.mem_cons, true_or, or_true]

/-! ## The sections of the text -/

/-- The texts for a platform, as encoded values. -/
def values (sha1 : GoString → GoString) (platform : GoString) (a : Alert) (ttl : Int64)
    (m : PingerMap) : List (GoString × Value) :=
  (lit "default", m.value) ::
    if platform = lit "ios" then [(lit "APNS", apnsMap a m), (lit "APNS_SANDBOX", apnsMap a m)]
    else if platform = lit "android" then [(lit "GCM", gcmMap sha1 ttl m)]
    else []

section
variable {sha1 : GoString → GoString} {platform : GoString} {ttl : Int64}

theorem notificationMap_eq : notificationMap sha1 platform a ttl m =
    (values sha1 platform a ttl m).map fun entry => (entry.1, entry.2.encode) := by
  rw [notificationMap, values]
  split_ifs <;> rfl

theorem values_names (sha1 : GoString → GoString) (platform : GoString) (a : Alert) (ttl : Int64)
    (m : PingerMap) :
    (values sha1 platform a ttl m).map Prod.fst = (sections platform).map Prod.fst := by
  rw [sections, values]
  split_ifs <;> rfl

theorem sections_names (platform : GoString) : ((sections platform).map Prod.fst).Nodup ∧
    ∀ name ∈ (sections platform).map Prod.fst, validString name := by
  rw [sections]
  split_ifs <;> decide

theorem values_valid (ha : a.Ok) (hm : m.Ok) :
    ∀ entry ∈ values sha1 platform a ttl m, entry.2.valid := by
  intro entry hentry
  rw [values] at hentry
  rcases List.mem_cons.mp hentry with rfl | hentry
  · exact hm.valid_value
  · split_ifs at hentry
    · simp only [List.mem_cons, List.not_mem_nil, or_false] at hentry
      rcases hentry with rfl | rfl
      · exact valid_apnsMap ha hm
      · exact valid_apnsMap ha hm
    · rw [List.mem_singleton.mp hentry]
      exact valid_gcmMap sha1 ttl hm
    · cases hentry

/-- Where a section has the message. -/
theorem values_message (sha1 : GoString → GoString) (a : Alert) (ttl : Int64) (m : PingerMap)
    (h : s ∈ sections platform) :
    ∃ v, (s.1, v) ∈ values sha1 platform a ttl m ∧ v.find? s.2 = some m.value := by
  have hone : ∀ (v w : Value) (key : GoString), v.member key = some w → v.find? [key] = some w := by
    intro v w key hv
    rw [Json.find?_cons, hv, Option.bind_some, Json.find?_nil]
  rw [sections] at h
  rcases List.mem_cons.mp h with rfl | h
  · exact ⟨m.value, List.mem_cons_self, Json.find?_nil _⟩
  · rw [values]
    split_ifs at h ⊢
    · simp only [List.mem_cons, List.not_mem_nil, or_false] at h
      rcases h with rfl | rfl
      · exact ⟨apnsMap a m, by simp, hone _ _ _ (member_apnsMap a m).1⟩
      · exact ⟨apnsMap a m, by simp, hone _ _ _ (member_apnsMap a m).1⟩
    · rw [List.mem_singleton.mp h]
      exact ⟨gcmMap sha1 ttl m, by simp, hone _ _ _ (member_gcmMap sha1 ttl m).1⟩
    · cases h

/-- The sections of the text are those of the platform, and each is a text of its own. -/
theorem readAt_marshalStrings {name : GoString} (v : Value) :
    Json.readAt [name] (marshalStrings (notificationMap sha1 platform a ttl m)) = some v ↔
      ∃ w, (name, w) ∈ values sha1 platform a ttl m ∧ v = .string w.encode := by
  obtain ⟨hnodup, hvalid⟩ := sections_names platform
  have hentries : (notificationMap sha1 platform a ttl m).map
      (fun entry => (entry.1, Value.string entry.2)) =
        (values sha1 platform a ttl m).map fun entry => (entry.1, .string entry.2.encode) := by
    rw [notificationMap_eq, List.map_map]
    rfl
  have hkeys : ((values sha1 platform a ttl m).map fun entry =>
      (entry.1, Value.string entry.2.encode)).map Prod.fst = (sections platform).map Prod.fst := by
    rw [List.map_map, ← values_names sha1 platform a ttl m]
    rfl
  have hvalue : (Value.ofMap ((values sha1 platform a ttl m).map fun entry =>
      (entry.1, .string entry.2.encode))).valid := by
    apply Json.valid_ofMap
    intro entry hentry
    refine ⟨hvalid _ (hkeys ▸ List.mem_map_of_mem hentry), ?_⟩
    obtain ⟨w, -, rfl⟩ := List.mem_map.mp hentry
    exact (Json.complete_encode w.2).validString
  rw [marshalStrings, hentries, Json.readAt_encode hvalue, Json.find?_cons, Option.bind_eq_some_iff]
  simp only [Json.find?_nil, Option.some.injEq, exists_eq_right]
  rw [Json.member_ofMap (hkeys ▸ hnodup), List.mem_map]
  constructor
  · rintro ⟨entry, hentry, heq⟩
    obtain ⟨rfl, rfl⟩ := Prod.mk.inj heq
    exact ⟨entry.2, hentry, rfl⟩
  · rintro ⟨w, hw, rfl⟩
    exact ⟨(name, w), hw, rfl⟩

theorem readIn_of_mem (ha : a.Ok) (hm : m.Ok) (h : (name, v) ∈ values sha1 platform a ttl m)
    (path : List GoString) :
    readIn name path (marshalStrings (notificationMap sha1 platform a ttl m)) = v.find? path := by
  have hname := (readAt_marshalStrings (.string v.encode)).mpr ⟨v, h, rfl⟩
  rw [readIn, hname]
  exact Json.readAt_encode (values_valid ha hm _ h) path

end

end

/-! ## What the text announces -/

/-- The message read at these paths names the contexts, each with its last command, and the
second at which it was made. -/
structure Tells (read : List GoString → Option Value) (now : Int) (contexts : List ContextMessage) :
    Prop where
  time : read [lit "meta", lit "time"] = some (.string (Json.encodeNumber now))
  ctxs : (read [lit "ctxs"]).isSome ↔ contexts ≠ []
  command : ∀ context command, read [lit "ctxs", context, lit "cmd"] = some (.string command) ↔
    Push.pingerPushMessageMapV2 contexts context = some command

/-- The text has exactly the sections of the platform. Each of them has the message, those for
Apple, which are short enough, the alert as well, and the one for Android the time to live and the
hash of the default section. -/
structure Announces (sha1 : GoString → GoString) (platform : GoString) (a : Alert) (ttl : Int64)
    (now : Int) (contexts : List ContextMessage) (text : GoString) : Prop where
  names : ∀ name, (Json.readAt [name] text).isSome ↔ name ∈ (sections platform).map Prod.fst
  message : ∀ s ∈ sections platform, Tells (fun path => readIn s.1 (s.2 ++ path) text) now contexts
  alert : platform = lit "ios" → ∀ name ∈ [lit "APNS", lit "APNS_SANDBOX"],
    Shows (fun path => readIn name (lit "aps" :: path) text) a ∧
      ∀ s, Json.readAt [name] text = some (.string s) → s.length ≤ 256
  gcm : platform = lit "android" →
    readIn (lit "GCM") [lit "time_to_live"] text = some (.number ttl.toInt) ∧
      readIn (lit "GCM") [lit "delay_while_idle"] text = some (.bool false) ∧
      ∀ s, Json.readAt [lit "default"] text = some (.string s) →
        readIn (lit "GCM") [lit "collapse_key"] text =
          some (.string (GoString.hexEncode (sha1 s)))

/-- What becomes of a message: it is refused because it is too long for Apple, or what is sent to
SNS announces it. -/
inductive Outcome (sha1 : GoString → GoString) (platform : GoString) (a : Alert) (ttl : Int64)
    (now : Int) (contexts : List ContextMessage) (m : PingerMap) : Except PushError GoString → Prop
  | refused (hios : platform = lit "ios") (hlong : 256 < (apnsMap a m).encode.length) :
    Outcome sha1 platform a ttl now contexts m (.error .messageTooLarge)
  | sent (h : Announces sha1 platform a ttl now contexts text) :
    Outcome sha1 platform a ttl now contexts m (.ok text)

section
variable {contexts : List ContextMessage} {order : List (GoString × GoString)}

theorem validString_encodeNumber (n : Int) : validString (Json.encodeNumber n) :=
  (Json.complete_encodeNumber n).validString

theorem mem_of_foldl_put {t : Push.Contexts} {k v : GoString}
    (h : contexts.foldl (fun t c => t.put c.context c.message) t k = some v) :
    (∃ c ∈ contexts, c.context = k ∧ c.message = v) ∨ t k = some v := by
  induction contexts generalizing t with
  | nil => exact .inr h
  | cons c contexts ih =>
    rcases ih h with ⟨c', hc', hkv⟩ | hput
    · exact .inl ⟨c', List.mem_cons_of_mem c hc', hkv⟩
    · dsimp only at hput
      by_cases hk : k = c.context
      · subst hk
        rw [Table.put_self] at hput
        exact .inl ⟨c, List.mem_cons_self, rfl, Option.some.inj hput⟩
      · rw [Table.put_of_ne hk] at hput
        exact .inr hput

/-- Every command in the map of the contexts is that of a context. -/
theorem mem_of_pingerPushMessageMapV2 {k v : GoString}
    (h : Push.pingerPushMessageMapV2 contexts k = some v) :
    ∃ c ∈ contexts, c.context = k ∧ c.message = v :=
  (mem_of_foldl_put h).resolve_right fun h => by cases h

theorem ctxs_eq (now : Int) :
    ∀ ctxs ∈ (pingerPushMessageMapV2 now contexts order).ctxs, ctxs = order := by
  intro ctxs hctxs
  simp only [pingerPushMessageMapV2] at hctxs
  split at hctxs
  · cases hctxs
  · exact (Option.some.inj hctxs).symm

/-- The message has the entries of the map that is trimmed for an old device. -/
theorem mem_ctxs (hv : Visits (Push.pingerPushMessageMapV2 contexts) order) (now : Int)
    (k v : GoString) :
    (∃ ctxs ∈ (pingerPushMessageMapV2 now contexts order).ctxs, (k, v) ∈ ctxs) ↔
      Push.pingerPushMessageMapV2 contexts k = some v := by
  rw [← hv.mem_iff, pingerPushMessageMapV2]
  dsimp only
  split
  next hnil =>
    subst hnil
    rw [hv.mem_iff]
    simp [Push.pingerPushMessageMapV2]
  next => simp

theorem ok_message (hv : Visits (Push.pingerPushMessageMapV2 contexts) order)
    (hvalid : ∀ c ∈ contexts, validString c.context ∧ validString c.message) (now : Int) :
    (pingerPushMessageMapV2 now contexts order).Ok := by
  refine ⟨validString_encodeNumber now, fun ctxs hctxs => ?_, fun ctxs hctxs c hc => ?_⟩
  · rw [ctxs_eq now ctxs hctxs]
    exact hv.nodup
  · have hmap := (mem_ctxs hv now c.1 c.2).mp ⟨ctxs, hctxs, hc⟩
    obtain ⟨context, hcontext, hkey, hcmd⟩ := mem_of_pingerPushMessageMapV2 hmap
    exact ⟨hkey ▸ (hvalid context hcontext).1, hcmd ▸ (hvalid context hcontext).2⟩

theorem Carries.tells {read : List GoString → Option Value} {now : Int}
    (hv : Visits (Push.pingerPushMessageMapV2 contexts) order)
    (h : Carries read (pingerPushMessageMapV2 now contexts order)) : Tells read now contexts := by
  refine ⟨h.time, ?_, fun context command => ?_⟩
  · rw [h.ctxs, pingerPushMessageMapV2]
    dsimp only
    split <;> simp [*]
  · rw [h.command, mem_ctxs hv]

end

/-- A message is refused exactly when it is for Apple and too long, and otherwise what is sent to
SNS reads back as the message. -/
theorem push_text_announces (sha1 : GoString → GoString) (platform : GoString) (a : Alert)
    (ttl : Int64) (now : Int) {contexts : List ContextMessage}
    {order : List (GoString × GoString)}
    (hv : Visits (Push.pingerPushMessageMapV2 contexts) order)
    (hvalid : ∀ c ∈ contexts, validString c.context ∧ validString c.message) (ha : a.Ok) :
    let m := pingerPushMessageMapV2 now contexts order
    Outcome sha1 platform a ttl now contexts m (awsPushMessageString sha1 platform a ttl m) := by
  intro m
  have hok : m.Ok := ok_message hv hvalid now
  rw [awsPushMessageString]
  split_ifs with hlong
  · exact .refused hlong.1 hlong.2
  · apply Outcome.sent
    constructor
    · intro name
      rw [Option.isSome_iff_exists, ← values_names sha1 platform a ttl m]
      simp only [readAt_marshalStrings]
      constructor
      · rintro ⟨_, w, hw, rfl⟩
        exact List.mem_map_of_mem hw
      · intro hname
        obtain ⟨entry, hentry, rfl⟩ := List.mem_map.mp hname
        exact ⟨_, entry.2, hentry, rfl⟩
    · intro s hs
      obtain ⟨v, hmem, hfind⟩ := values_message sha1 a ttl m hs
      apply Carries.tells hv
      have hread : (fun path => readIn s.1 (s.2 ++ path)
          (marshalStrings (notificationMap sha1 platform a ttl m))) =
            fun path => m.value.find? path := by
        funext path
        rw [readIn_of_mem ha hok hmem, Json.find?_append, hfind, Option.bind_some]
      rw [hread]
      exact hok.carries
    · intro hios name hname
      have hmem : (name, apnsMap a m) ∈ values sha1 platform a ttl m := by
        rw [values, if_pos hios]
        apply List.mem_cons_of_mem
        simpa using hname
      constructor
      · have hread : (fun path => readIn name (lit "aps" :: path)
            (marshalStrings (notificationMap sha1 platform a ttl m))) =
              fun path => a.value.find? path := by
          funext path
          rw [readIn_of_mem ha hok hmem, Json.find?_cons, (member_apnsMap a m).2, Option.bind_some]
        rw [hread]
        exact a.shows
      · intro s hs
        have hsame := (readAt_marshalStrings (.string (apnsMap a m).encode)).mpr ⟨_, hmem, rfl⟩
        rw [hs] at hsame
        cases hsame
        exact Nat.le_of_not_lt fun h => hlong ⟨hios, h⟩
    · intro handroid
      have hmem : (lit "GCM", gcmMap sha1 ttl m) ∈ values sha1 platform a ttl m := by
        rw [values, handroid, if_neg (by decide), if_pos rfl]
        simp
      obtain ⟨-, hcollapse, httl, hdelay⟩ := member_gcmMap sha1 ttl m
      refine ⟨?_, ?_, fun s hs => ?_⟩
      · rw [readIn_of_mem ha hok hmem, Json.find?_cons, httl, Option.bind_some, Json.find?_nil]
      · rw [readIn_of_mem ha hok hmem, Json.find?_cons, hdelay, Option.bind_some, Json.find?_nil]
      · have hdefault : (lit "default", m.value) ∈ values sha1 platform a ttl m := List.mem_cons_self
        have hsame := (readAt_marshalStrings (.string m.value.encode)).mpr ⟨_, hdefault, rfl⟩
        rw [hs] at hsame
        cases hsame
        rw [readIn_of_mem ha hok hmem, Json.find?_cons, hcollapse, Option.bind_some, Json.find?_nil]

/-- The message for a device with one context. -/
def newMail : List ContextMessage := [⟨lit "new", lit "ctx12"⟩]

def mailAlert : Alert := ⟨lit "You have mail!", [], 1⟩

def newMailOrder : List (GoString × GoString) := [(lit "ctx12", lit "new")]

/-- A message for Apple that is short enough. -/
theorem push_text_announces_newMail :
    let m := pingerPushMessageMapV2 1427000000 newMail newMailOrder
    Outcome id (lit "ios") mailAlert 0 1427000000 newMail m
      (awsPushMessageString id (lit "ios") mailAlert 0 m) := by
  have hv : Visits (Push.pingerPushMessageMapV2 newMail) newMailOrder :=
    Push.visits_contexts (by decide)
  have hvalid : ∀ c ∈ newMail, validString c.context ∧ validString c.message := by
    decide +kernel
  have ha : mailAlert.Ok := by decide +kernel
  exact push_text_announces id (lit "ios") mailAlert 0 1427000000 hv hvalid ha

end Pinger.Payload
