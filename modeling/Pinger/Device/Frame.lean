import Pinger.Lib.Wire
import Pinger.Device.Payload
import Pinger.Web.PushToken

/-! # The frame of a push message

`APNSpushMessage` makes a notification of the token and of the two maps, trims the contexts of a
message that is too long for an old device, and hands the notification to the client of Apple's
gateway, which writes it as a frame of five items. Every notification that gets that far has a
frame, and what is read in it is the token, the alert and the contexts that are left. -/

namespace GoString

/-- `hex.DecodeString`. -/
def hexDecode : GoString → Option GoString
  | [] => some []
  | [_] => none
  | a :: b :: s => do
    let x ← Json.hexValue a
    let y ← Json.hexValue b
    let bytes ← hexDecode s
    return Char.ofNat (16 * x + y) :: bytes

/-- The upper-case form of a digit is that of its value. -/
theorem hexValue_cases : ∀ n < 128, isHexDigit (Char.ofNat n) →
    ∃ x < 16, Json.hexValue (Char.ofNat n) = some x ∧
      toUpper [x.digitChar] = toUpper [Char.ofNat n] := by
  decide

theorem hexValue_of_isHexDigit (h : isHexDigit c) :
    ∃ x < 16, Json.hexValue c = some x ∧ toUpper [x.digitChar] = toUpper [c] := by
  have hc := hexValue_cases c.toNat (toNat_lt_of_isHexDigit h)
  rw [Char.ofNat_toNat] at hc
  exact hc h

/-- A hexadecimal text is decoded to bytes whose encoding is that text, in lower case. -/
theorem hexDecode_of_isHex : ∀ s : GoString, isHex s →
    ∃ bytes, hexDecode s = some bytes ∧ 2 * bytes.length = s.length ∧ IsBytes bytes ∧
      toUpper (hexEncode bytes) = toUpper s
  | [], _ => ⟨[], rfl, rfl, fun c hc => (by cases hc), rfl⟩
  | [_], h => by cases h
  | a :: b :: s, h => by
    rw [isHex, Bool.and_eq_true, List.all_cons, List.all_cons, Bool.and_eq_true, Bool.and_eq_true,
      decide_eq_true_eq, List.length_cons, List.length_cons] at h
    obtain ⟨hlen, ha, hb, hs⟩ := h
    have hhex : isHex s := by
      rw [isHex, hs, Bool.and_true, decide_eq_true_eq]
      omega
    obtain ⟨bytes, hdecode, hlength, hbytes, hupper⟩ := hexDecode_of_isHex s hhex
    obtain ⟨x, hx, hax, hupx⟩ := hexValue_of_isHexDigit ha
    obtain ⟨y, hy, hby, hupy⟩ := hexValue_of_isHexDigit hb
    have hbyte : (Char.ofNat (16 * x + y)).toNat = 16 * x + y := Wire.toNat_ofNat (by omega)
    refine ⟨Char.ofNat (16 * x + y) :: bytes, ?_, ?_, ?_, ?_⟩
    · rw [hexDecode, hax, hby, hdecode]
      rfl
    · simp only [List.length_cons]
      omega
    · intro c hc
      rcases List.mem_cons.mp hc with rfl | hc
      · exact toNat_ofNat_lt (by omega)
      · exact hbytes c hc
    · have hdiv : (16 * x + y) / 16 = x := by omega
      have hmod : (16 * x + y) % 16 = y := by omega
      have hencode : hexEncode (Char.ofNat (16 * x + y) :: bytes) =
          [x.digitChar] ++ [y.digitChar] ++ hexEncode bytes := by
        rw [hexEncode, List.flatMap_cons, hbyte, hdiv, hmod]
        rfl
      have happend : ∀ s t, toUpper (s ++ t) = toUpper s ++ toUpper t := fun _ _ => List.map_append
      rw [hencode, happend, happend, hupx, hupy, hupper]
      rfl

end GoString

namespace Pinger.Payload

open GoString (lit)
open Json (Value)
open Push (PushError)
open Wire (putUint)

/-! ## The notification -/

/-- A notification of the client of Apple's gateway. -/
structure PushNotification where
  identifier : Int32
  expiry : UInt32
  deviceToken : GoString
  payload : Value
  priority : UInt8

inductive ToBytesError
  | hex
  | tokenLength
  | payloadLength
  deriving DecidableEq, Repr

def maxPayloadSizeBytes : Nat := 2048

def deviceTokenLength : Nat := 32

/-- `ToBytes`: each item has its number, the length that is fixed for it, and its data. -/
def PushNotification.toBytes (pn : PushNotification) : Except ToBytesError GoString :=
  match GoString.hexDecode pn.deviceToken with
  | none => .error .hex
  | some token =>
    if token.length ≠ deviceTokenLength then .error .tokenLength
    else
      let payload := pn.payload.encode
      if maxPayloadSizeBytes < payload.length then .error .payloadLength
      else
        let frame :=
          putUint 1 1 ++ putUint 2 deviceTokenLength ++ token ++
          putUint 1 2 ++ putUint 2 payload.length ++ payload ++
          putUint 1 3 ++ putUint 2 4 ++ putUint 4 pn.identifier.toUInt32.toNat ++
          putUint 1 4 ++ putUint 2 4 ++ putUint 4 pn.expiry.toNat ++
          putUint 1 5 ++ putUint 2 1 ++ putUint 1 pn.priority.toNat
        .ok (putUint 1 2 ++ putUint 4 frame.length ++ frame)

/-! ## The gateway -/

/-- What the gateway reads. -/
structure Received where
  token : GoString
  payload : GoString
  identifier : Nat
  expiry : Nat
  priority : Nat
  deriving DecidableEq, Repr

/-- The items of a frame: the command 2, the length of the items, and the items. -/
def readFrame (s : GoString) : Option (List Wire.Item) := do
  let (command, s) ← Wire.getUint 1 s
  let (length, s) ← Wire.getUint 4 s
  if command = 2 ∧ length = s.length then Wire.getItems s.length s else none

def receive (s : GoString) : Option Received :=
  match readFrame s with
  | some [⟨1, token⟩, ⟨2, payload⟩, ⟨3, identifier⟩, ⟨4, expiry⟩, ⟨5, priority⟩] =>
    some ⟨token, payload, Wire.value identifier, Wire.value expiry, Wire.value priority⟩
  | _ => none

section
variable {pn : PushNotification}

theorem length_le_of_flatMap_put (items : List Wire.Item) :
    items.length ≤ (items.flatMap Wire.Item.put).length := by
  induction items with
  | nil => exact Nat.le_refl _
  | cons item items ih =>
    rw [List.flatMap_cons, List.length_append, List.length_cons]
    have hput : item.put.length = 1 + (2 + item.data.length) := by simp [Wire.Item.put]
    omega

/-- A frame of items that fit is read back. -/
theorem readFrame_put {items : List Wire.Item} (h : ∀ item ∈ items, item.Fits)
    (hlen : (items.flatMap Wire.Item.put).length < 256 ^ 4) :
    readFrame (putUint 1 2 ++ putUint 4 (items.flatMap Wire.Item.put).length ++
      items.flatMap Wire.Item.put) = some items := by
  have hcommand : 2 < 256 ^ 1 := by decide
  rw [List.append_assoc, readFrame]
  simp only [Wire.getUint_putUint hcommand, Wire.getUint_putUint hlen, Option.bind_eq_bind,
    Option.bind_some, and_self, if_true]
  exact Wire.getItems_put h (length_le_of_flatMap_put items)

/-- Bytes for a notification: its token is the hexadecimal of 32 bytes, its payload is not too long,
and the gateway reads what the notification says. -/
theorem PushNotification.receive_toBytes (htoken : GoString.hexDecode pn.deviceToken = some token)
    (hlen : token.length = 32) (hpayload : pn.payload.encode.length ≤ 2048) :
    ∃ frame, pn.toBytes = .ok frame ∧ receive frame =
      some ⟨token, pn.payload.encode, pn.identifier.toUInt32.toNat, pn.expiry.toNat,
        pn.priority.toNat⟩ := by
  obtain ⟨items, hitems⟩ : ∃ items, items = [Wire.Item.mk 1 token, ⟨2, pn.payload.encode⟩,
    ⟨3, putUint 4 pn.identifier.toUInt32.toNat⟩, ⟨4, putUint 4 pn.expiry.toNat⟩,
    ⟨5, putUint 1 pn.priority.toNat⟩] := ⟨_, rfl⟩
  have hbytes : pn.toBytes = .ok (putUint 1 2 ++
      putUint 4 (items.flatMap Wire.Item.put).length ++ items.flatMap Wire.Item.put) := by
    rw [PushNotification.toBytes, htoken]
    dsimp only
    rw [if_neg (by rw [hlen]; decide), if_neg (by rw [maxPayloadSizeBytes]; omega), hitems]
    simp only [List.flatMap_cons, List.flatMap_nil, Wire.Item.put, hlen, Wire.length_putUint,
      deviceTokenLength, List.append_assoc, List.append_nil]
  have hfits : ∀ item ∈ items, item.Fits := by
    intro item hitem
    rw [hitems] at hitem
    simp only [List.mem_cons, List.not_mem_nil, or_false] at hitem
    rcases hitem with rfl | rfl | rfl | rfl | rfl
    · exact ⟨show 1 < 256 by decide, by rw [hlen]; decide⟩
    · exact ⟨show 2 < 256 by decide, Nat.lt_of_le_of_lt hpayload (by decide)⟩
    · exact ⟨show 3 < 256 by decide, by rw [Wire.length_putUint]; decide⟩
    · exact ⟨show 4 < 256 by decide, by rw [Wire.length_putUint]; decide⟩
    · exact ⟨show 5 < 256 by decide, by rw [Wire.length_putUint]; decide⟩
  have hshort : (items.flatMap Wire.Item.put).length < 256 ^ 4 := by
    rw [hitems]
    simp only [List.flatMap_cons, List.flatMap_nil, Wire.Item.put, List.length_append,
      Wire.length_putUint, List.length_nil, hlen]
    omega
  have hread := readFrame_put hfits hshort
  refine ⟨_, hbytes, ?_⟩
  rw [receive, hread, hitems]
  simp only [Wire.value_putUint (w := 4) pn.identifier.toUInt32.toNat_lt,
    Wire.value_putUint (w := 4) pn.expiry.toNat_lt, Wire.value_putUint (w := 1) pn.priority.toNat_lt]

end

/-! ## One attempt -/

/-- What `APNSpushMessage` comes to before the gateway answers. -/
inductive Attempt
  | panicked
  | failed (e : PushError)
  | send (pn : PushNotification)

/-- What a push to Apple is called with. -/
structure Call where
  cfg : Push.Config
  token : GoString
  osVersion : GoString
  alert : Alert
  ttl : Int64

namespace Call

variable (c : Call)

/-- `pn.PayloadString()`. -/
def text (m : PingerMap) : GoString := (apnsMap c.alert m).encode

/-- The device is too old for messages of 256 bytes. -/
def old : Prop := getMajorVersion c.osVersion < 8

instance : Decidable c.old := inferInstanceAs (Decidable (_ < _))

/-- The deletion of contexts. The type assertion panics when the message has none. -/
def trim (m : PingerMap) : Option PingerMap :=
  if 256 ≤ (c.text m).length ∧ c.old then
    m.ctxs.map fun ctxs => { m with ctxs := some (Push.trimContexts ctxs.length ctxs) }
  else some m

/-- The second at which the notification expires; the time is in nanoseconds. -/
def expiry (now : Int) : UInt32 :=
  if 0 < c.ttl then
    .ofNat (GoString.toUint32 ((now + (c.ttl * 1000000000).toInt) / 1000000000))
  else 0

/-- `APNSpushMessage` up to the call of the client, and the map as it leaves it. -/
def apnsPushMessage (now : Int) (identifier : Int32) (m : PingerMap) : Attempt × PingerMap :=
  if c.cfg.apnsCertFile = [] ∨ c.cfg.apnsKeyFile = [] then (.panicked, m)
  else
    match decodeAPNSPushToken c.token with
    | .error e => (.failed (.token e), m)
    | .ok deviceToken =>
      match c.trim m with
      | none => (.panicked, m)
      | some m' =>
        if 256 ≤ (c.text m').length ∧ c.old then (.failed .messageTooLarge, m')
        else if 2048 ≤ (c.text m').length ∧ ¬c.old then (.failed .messageTooLarge, m')
        else
          (.send ⟨identifier, c.expiry now, deviceToken, apnsMap c.alert m', 10⟩, m')

/-- The map as attempt `i` of a push finds it. The attempts are made at these times and with these
identifiers. -/
def mapAt (now : Nat → Int) (identifier : Nat → Int32) (m : PingerMap) : Nat → PingerMap
  | 0 => m
  | i + 1 => (c.apnsPushMessage (now i) (identifier i) (mapAt now identifier m i)).2

end Call

/-! ## What is left of a map -/

/-- The second map is the first one, without some of its contexts. -/
structure Trimmed (m m' : PingerMap) : Prop where
  time : m'.time = m.time
  isSome : m'.ctxs.isSome = m.ctxs.isSome
  suffix : ∀ ctxs' ∈ m'.ctxs, ∃ ctxs ∈ m.ctxs, ctxs' <:+ ctxs

theorem Trimmed.refl (m : PingerMap) : Trimmed m m :=
  ⟨rfl, rfl, fun ctxs h => ⟨ctxs, h, List.suffix_rfl⟩⟩

theorem Trimmed.trans (h : Trimmed m m') (h' : Trimmed m' m'') : Trimmed m m'' := by
  refine ⟨h'.time.trans h.time, h'.isSome.trans h.isSome, fun ctxs'' hctxs'' => ?_⟩
  obtain ⟨ctxs', hctxs', hsuffix'⟩ := h'.suffix ctxs'' hctxs''
  obtain ⟨ctxs, hctxs, hsuffix⟩ := h.suffix ctxs' hctxs'
  exact ⟨ctxs, hctxs, hsuffix'.trans hsuffix⟩

theorem Trimmed.ok (h : Trimmed m m') (hm : m.Ok) : m'.Ok := by
  refine ⟨h.time ▸ hm.time, fun ctxs' hctxs' => ?_, fun ctxs' hctxs' c hc => ?_⟩
  · obtain ⟨ctxs, hctxs, hsuffix⟩ := h.suffix ctxs' hctxs'
    exact List.Nodup.sublist (hsuffix.map Prod.fst).sublist (hm.nodup ctxs hctxs)
  · obtain ⟨ctxs, hctxs, hsuffix⟩ := h.suffix ctxs' hctxs'
    exact hm.valid ctxs hctxs c (hsuffix.subset hc)

section
variable {c : Call} {m m' : PingerMap} {now : Int} {identifier : Int32}

/-- Only a message that is too long for an old device is trimmed. -/
theorem Call.trim_some (h : c.trim m = some m') :
    Trimmed m m' ∧ (m' = m ∨ c.old ∧ 256 ≤ (c.text m).length) := by
  rw [Call.trim] at h
  split at h
  next hlong =>
    obtain ⟨ctxs, hctxs, rfl⟩ := Option.map_eq_some_iff.mp h
    refine ⟨⟨rfl, by rw [hctxs]; rfl, ?_⟩, .inr ⟨hlong.2, hlong.1⟩⟩
    intro ctxs' hctxs'
    cases hctxs'
    exact ⟨ctxs, hctxs, Push.trimContexts_suffix ctxs.length ctxs⟩
  next =>
    cases h
    exact ⟨.refl m, .inl rfl⟩

/-- An attempt only trims the map. -/
theorem Call.trimmed_apnsPushMessage (c : Call) (now : Int) (identifier : Int32) (m : PingerMap) :
    Trimmed m (c.apnsPushMessage now identifier m).2 := by
  rw [Call.apnsPushMessage]
  split
  · exact .refl m
  · cases decodeAPNSPushToken c.token with
    | error e => exact .refl m
    | ok deviceToken =>
      dsimp only
      cases htrim : c.trim m with
      | none => exact .refl m
      | some m' =>
        have htrimmed := (Call.trim_some htrim).1
        dsimp only
        split
        · exact htrimmed
        · split
          · exact htrimmed
          · exact htrimmed

/-- So do all the attempts of a push. -/
theorem Call.trimmed_mapAt (c : Call) (now : Nat → Int) (identifier : Nat → Int32) (m : PingerMap)
    (i : Nat) : Trimmed m (c.mapAt now identifier m i) := by
  induction i with
  | zero => exact .refl m
  | succ i ih => exact ih.trans (c.trimmed_apnsPushMessage ..)

/-- What an attempt sends. -/
theorem Call.apnsPushMessage_send
    (h : (c.apnsPushMessage now identifier m).1 = .send pn) :
    ∃ deviceToken m', decodeAPNSPushToken c.token = .ok deviceToken ∧ c.trim m = some m' ∧
      (c.text m').length < (if c.old then 256 else 2048) ∧
      pn = ⟨identifier, c.expiry now, deviceToken, apnsMap c.alert m', 10⟩ := by
  rw [Call.apnsPushMessage] at h
  split at h
  · cases h
  · cases hdecode : decodeAPNSPushToken c.token with
    | error e =>
      rw [hdecode] at h
      cases h
    | ok deviceToken =>
      rw [hdecode] at h
      dsimp only at h
      cases htrim : c.trim m with
      | none =>
        rw [htrim] at h
        cases h
      | some m' =>
        rw [htrim] at h
        dsimp only at h
        split_ifs at h with hlong hlong'
        cases h
        refine ⟨deviceToken, m', rfl, rfl, ?_, rfl⟩
        split
        next hold => exact Nat.lt_of_not_le fun hle => hlong ⟨hle, hold⟩
        next hnew => exact Nat.lt_of_not_le fun hle => hlong' ⟨hle, hnew⟩

/-- A map that is not as it was has been too long for an old device. -/
theorem Call.mapAt_eq_or (c : Call) (now : Nat → Int) (identifier : Nat → Int32) (m : PingerMap)
    (i : Nat) : c.mapAt now identifier m i = m ∨ c.old ∧ 256 ≤ (c.text m).length := by
  have hstep : ∀ now identifier, (c.apnsPushMessage now identifier m).2 = m ∨
      c.old ∧ 256 ≤ (c.text m).length := by
    intro now identifier
    rw [Call.apnsPushMessage]
    split
    · exact .inl rfl
    · cases decodeAPNSPushToken c.token with
      | error e => exact .inl rfl
      | ok deviceToken =>
        dsimp only
        cases htrim : c.trim m with
        | none => exact .inl rfl
        | some m' =>
          have htrimmed := (Call.trim_some htrim).2
          dsimp only
          split
          · exact htrimmed
          · split
            · exact htrimmed
            · exact htrimmed
  induction i with
  | zero => exact .inl rfl
  | succ i ih =>
    rcases ih with ih | ih
    · rw [Call.mapAt, ih]
      exact hstep ..
    · exact .inr ih

/-- The token of a notification, in bytes. -/
theorem hexDecode_token (h : decodeAPNSPushToken token = .ok deviceToken) :
    ∃ bytes, GoString.hexDecode deviceToken = some bytes ∧ bytes.length = 32 ∧
      decodeAPNSPushToken (GoString.base64Encode bytes) = decodeAPNSPushToken token := by
  obtain ⟨s, hlen, hhex, rfl⟩ := decodeAPNSPushToken_ok h
  have hupper : GoString.isHex (GoString.toUpper s) := (GoString.isHex_toUpper s).trans hhex
  obtain ⟨bytes, hdecode, hlength, hbytes, hencode⟩ := GoString.hexDecode_of_isHex _ hupper
  have h32 : bytes.length = 32 := by
    rw [GoString.length_toUpper, hlen] at hlength
    omega
  refine ⟨bytes, hdecode, h32, ?_⟩
  rw [decodeAPNSPushToken_base64 hbytes h32, hencode, GoString.toUpper_toUpper, h]

end

/-! ## What the gateway reads -/

/-- What is read in a frame: the token of the device, the alert, the message without the contexts
that were trimmed, and the numbers of the call. Nothing is trimmed unless the device is old and the
message too long for it. -/
structure Reads (c : Call) (now : Int) (identifier : Int32) (m : PingerMap) (r : Received) : Prop where
  token : r.token.length = 32 ∧
    decodeAPNSPushToken (GoString.base64Encode r.token) = decodeAPNSPushToken c.token
  length : r.payload.length < if c.old then 256 else 2048
  alert : Shows (fun path => Json.readAt (lit "aps" :: path) r.payload) c.alert
  message : ∃ m', Carries (fun path => Json.readAt (lit "pinger" :: path) r.payload) m' ∧
    Trimmed m m' ∧ (m' = m ∨ c.old ∧ 256 ≤ (c.text m).length)
  identifier : r.identifier = identifier.toUInt32.toNat
  expiry : r.expiry = if 0 < c.ttl then
    GoString.toUint32 ((now + (c.ttl * 1000000000).toInt) / 1000000000) else 0
  priority : r.priority = 10

theorem Call.toNat_expiry (c : Call) (now : Int) : (c.expiry now).toNat = if 0 < c.ttl then
    GoString.toUint32 ((now + (c.ttl * 1000000000).toInt) / 1000000000) else 0 := by
  rw [Call.expiry]
  split
  · rw [UInt32.toNat_ofNat']
    apply Nat.mod_eq_of_lt
    rw [GoString.toUint32]
    omega
  · rfl

/-- Whatever attempt of a push hands a notification to the client, the client has a frame for it,
and the gateway reads in the frame what was to be sent. -/
theorem Call.frame_reads (c : Call) (now : Nat → Int) (identifier : Nat → Int32) {m : PingerMap}
    (hm : m.Ok) (ha : c.alert.Ok) (i : Nat) {pn : PushNotification}
    (h : (c.apnsPushMessage (now i) (identifier i) (c.mapAt now identifier m i)).1 = .send pn) :
    ∃ frame r, pn.toBytes = .ok frame ∧ receive frame = some r ∧
      Reads c (now i) (identifier i) m r := by
  obtain ⟨deviceToken, m', hdecode, htrim, hlength, hpn⟩ := Call.apnsPushMessage_send h
  obtain ⟨bytes, hbytes, h32, htoken⟩ := hexDecode_token hdecode
  have htrimmed : Trimmed m m' :=
    (c.trimmed_mapAt now identifier m i).trans (Call.trim_some htrim).1
  have hsame : m' = m ∨ c.old ∧ 256 ≤ (c.text m).length := by
    rcases c.mapAt_eq_or now identifier m i with hi | hi
    · rw [hi] at htrim
      exact (Call.trim_some htrim).2
    · exact .inr hi
  have hok : m'.Ok := htrimmed.ok hm
  have hpayload : pn.payload.encode.length ≤ 2048 := by
    have hlength : (apnsMap c.alert m').encode.length < if c.old then 256 else 2048 := hlength
    rw [hpn]
    show (apnsMap c.alert m').encode.length ≤ 2048
    split at hlength <;> omega
  have htokenBytes : GoString.hexDecode pn.deviceToken = some bytes := by rw [hpn, hbytes]
  obtain ⟨frame, hframe, hreceive⟩ := PushNotification.receive_toBytes htokenBytes h32 hpayload
  subst hpn
  obtain ⟨hpinger, haps⟩ := member_apnsMap c.alert m'
  have hread : ∀ key v, (apnsMap c.alert m').member key = some v →
      (fun path => Json.readAt (key :: path) (apnsMap c.alert m').encode) =
        fun path => v.find? path := by
    intro key v hkey
    funext path
    rw [Json.readAt_encode (valid_apnsMap ha hok), Json.find?_cons, hkey, Option.bind_some]
  refine ⟨frame, _, hframe, hreceive, ⟨h32, htoken⟩, hlength, ?_, ⟨m', ?_, htrimmed, hsame⟩, rfl,
    c.toNat_expiry (now i), rfl⟩
  · rw [hread _ _ haps]
    exact c.alert.shows
  · rw [hread _ _ hpinger]
    exact hok.carries

/-! ## The attempts of `Push` -/

/-- The transport of a push whose payload is this text. -/
def transport (answers : Push.Transport) : Push.Transport where
  json n := (apnsMap ⟨n.alert, n.sound, n.contentAvailable⟩ ⟨n.time, some n.ctxs⟩).encode
  apns := answers.apns
  sns := answers.sns

section
variable (answers : Push.Transport) {c : Call} {n : Push.Notification}

/-- The map of a notification. -/
def mapOf (n : Push.Notification) : PingerMap := ⟨n.time, some n.ctxs⟩

theorem text_mapOf (halert : c.alert = ⟨n.alert, n.sound, n.contentAvailable⟩) :
    c.text (mapOf n) = (transport answers).json n := by
  rw [Call.text, halert]
  rfl

theorem trim_mapOf (halert : c.alert = ⟨n.alert, n.sound, n.contentAvailable⟩) :
    c.trim (mapOf n) =
      some (mapOf (Push.trimmed (transport answers) (getMajorVersion c.osVersion) n)) := by
  rw [Call.trim, Push.trimmed, text_mapOf answers halert]
  by_cases h : 256 ≤ ((transport answers).json n).length ∧ getMajorVersion c.osVersion < 8
  · rw [if_pos h, if_pos (show _ ∧ c.old from h)]
    rfl
  · rw [if_neg h, if_neg (show ¬(_ ∧ c.old) from h)]

/-- An attempt of `Push` leaves the map that `APNSpushMessage` leaves, and it is accepted only if a
notification was sent. -/
theorem apnsPushMessage_refines (hcert : c.cfg.apnsCertFile ≠ [] ∧ c.cfg.apnsKeyFile ≠ [])
    (halert : c.alert = ⟨n.alert, n.sound, n.contentAvailable⟩) (i : Nat) (now : Int)
    (identifier : Int32) :
    let p := Push.apnsPushMessage (transport answers) c.token c.osVersion i n
    let r := c.apnsPushMessage now identifier (mapOf n)
    r.2 = mapOf p.2 ∧ c.alert = ⟨p.2.alert, p.2.sound, p.2.contentAvailable⟩ ∧
      (p.1 = none → ∃ pn, r.1 = .send pn) := by
  intro p r
  have hr : r = c.apnsPushMessage now identifier (mapOf n) := rfl
  have hp : p = Push.apnsPushMessage (transport answers) c.token c.osVersion i n := rfl
  rw [Call.apnsPushMessage, if_neg (by simp [hcert]), trim_mapOf answers halert] at hr
  rw [Push.apnsPushMessage] at hp
  cases hdecode : decodeAPNSPushToken c.token with
  | error e =>
    rw [hdecode] at hr hp
    rw [hr, hp]
    exact ⟨rfl, halert, fun h => by cases h⟩
  | ok deviceToken =>
    rw [hdecode] at hr hp
    dsimp only at hr hp
    obtain ⟨n', hn'⟩ : ∃ n', Push.trimmed (transport answers) (getMajorVersion c.osVersion) n = n' :=
      ⟨_, rfl⟩
    have halert' : c.alert = ⟨n'.alert, n'.sound, n'.contentAvailable⟩ := by
      rw [← hn', Push.trimmed]
      split
      · exact halert
      · exact halert
    rw [hn', text_mapOf answers halert'] at hr
    rw [hn'] at hp
    by_cases hlong : 256 ≤ ((transport answers).json n').length ∧ getMajorVersion c.osVersion < 8
    · rw [if_pos hlong] at hp
      rw [if_pos (show _ ∧ c.old from hlong)] at hr
      rw [hr, hp]
      exact ⟨rfl, halert', fun h => by cases h⟩
    · rw [if_neg hlong] at hp
      rw [if_neg (show ¬(_ ∧ c.old) from hlong)] at hr
      by_cases hlong' : 2048 ≤ ((transport answers).json n').length ∧
          8 ≤ getMajorVersion c.osVersion
      · rw [if_pos hlong'] at hp
        have hnew : ¬c.old := Int.not_lt.mpr hlong'.2
        rw [if_pos ⟨hlong'.1, hnew⟩] at hr
        rw [hr, hp]
        exact ⟨rfl, halert', fun h => by cases h⟩
      · rw [if_neg hlong'] at hp
        rw [if_neg fun h => hlong' ⟨h.1, Int.not_lt.mp h.2⟩] at hr
        have hpn' : p.2 = n' := by
          rw [hp]
          split
          · split <;> rfl
          · split <;> rfl
        rw [hr, hpn']
        exact ⟨rfl, halert', fun _ => ⟨_, rfl⟩⟩

end

/-- The call that a push of this notification to this device makes. -/
def callOf (cfg : Push.Config) (di : DeviceInfo) (ttl : Int64) (n : Push.Notification) : Call where
  cfg := cfg
  token := di.pushToken
  osVersion := di.osVersion
  alert := ⟨n.alert, n.sound, n.contentAvailable⟩
  ttl := ttl

section
variable {cfg : Push.Config} {di : DeviceInfo}

theorem certs_of_direct (h : Push.viaSns cfg di.pushService = false) :
    cfg.apnsCertFile ≠ [] ∧ cfg.apnsKeyFile ≠ [] := by
  simp only [Push.viaSns, Bool.or_eq_false_iff, decide_eq_false_iff_not] at h
  exact ⟨h.1.2, h.2⟩

/-- The attempts of `Push` find the maps that the attempts of `APNSpushMessage` leave. -/
theorem mapAt_callOf (answers : Push.Transport) (n : Push.Notification)
    (hd : Push.viaSns cfg di.pushService = false) (ttl : Int64) (now : Nat → Int)
    (identifier : Nat → Int32) (i : Nat) :
    (callOf cfg di ttl n).mapAt now identifier (mapOf n) i =
        mapOf (Push.apnsNotification (transport answers) di n i) ∧
      let n' := Push.apnsNotification (transport answers) di n i
      (callOf cfg di ttl n).alert = ⟨n'.alert, n'.sound, n'.contentAvailable⟩ := by
  induction i with
  | zero => exact ⟨rfl, rfl⟩
  | succ i ih =>
    obtain ⟨hmap, halert⟩ := ih
    obtain ⟨hmap', halert', -⟩ := apnsPushMessage_refines answers (certs_of_direct hd) halert i
      (now i) (identifier i)
    rw [Call.mapAt, hmap]
    exact ⟨hmap', halert'⟩

end

/-- Whatever attempt of a push to Apple sends has a frame, and what the gateway reads in it is what
was to be sent. A push that returns nil has sent one in one of its ten attempts. -/
theorem push_frames_read (answers : Push.Transport) (cfg : Push.Config) (di : DeviceInfo)
    (ttl : Int64) (n : Push.Notification) (now : Nat → Int) (identifier : Nat → Int32)
    (hd : Push.viaSns cfg di.pushService = false) (hn : (mapOf n).Ok)
    (ha : (callOf cfg di ttl n).alert.Ok) :
    let c := callOf cfg di ttl n
    let attempt := fun i => (c.apnsPushMessage (now i) (identifier i)
      (mapOf (Push.apnsNotification (transport answers) di n i))).1
    (∀ i pn, attempt i = .send pn → ∃ frame r, pn.toBytes = .ok frame ∧ receive frame = some r ∧
      Reads c (now i) (identifier i) (mapOf n) r) ∧
    ((Push.push (transport answers) cfg di n).err = none → ∃ i < Push.maxAttempts, ∃ pn,
      attempt i = .send pn ∧ Push.apnsOutcome (transport answers) di n i = none) := by
  intro c attempt
  have hmap := mapAt_callOf answers n hd ttl now identifier
  constructor
  · intro i pn hsend
    apply c.frame_reads now identifier hn ha i
    rw [(hmap i).1]
    exact hsend
  · intro herr
    obtain ⟨i, hi, hout, -⟩ := (Push.push_direct_err_none hd).mp herr
    obtain ⟨-, -, hsend⟩ := apnsPushMessage_refines answers (certs_of_direct hd) (hmap i).2 i
      (now i) (identifier i)
    obtain ⟨pn, hpn⟩ := hsend hout
    exact ⟨i, hi, pn, hpn, hout⟩

def iphoneDevice : DeviceInfo where
  clientContext := lit "ctx12"
  platform := lit "ios"
  pushService := pushServiceAPNS
  pushToken := lit "pOsktxj+u6C/w7Tew4bIEiafcB4ZkBnDdbG4y/yLLoA="
  osVersion := lit "7.1.2"

def iphoneConfig : Push.Config where
  apnsCertFile := lit "cert.pem"
  apnsKeyFile := lit "key.pem"

def iphoneNotification : Push.Notification where
  alert := lit "You have mail!"
  time := lit "1427000000"
  ctxs := [(lit "ctx12", lit "new")]

/-- A push that Apple accepts in its first attempt. -/
theorem push_frames_read_iphone :
    ∃ pn : PushNotification, ∃ frame r, pn.toBytes = .ok frame ∧ receive frame = some r ∧
      ∃ now identifier, Reads (callOf iphoneConfig iphoneDevice 3600 iphoneNotification) now
        identifier (mapOf iphoneNotification) r := by
  have hn : (mapOf iphoneNotification).Ok := by
    refine ⟨by decide +kernel, fun ctxs h => ?_, fun ctxs h => ?_⟩
    · cases h
      decide
    · cases h
      decide +kernel
  obtain ⟨hsent, haccepted⟩ := push_frames_read
    { json := fun _ => [], apns := fun _ => {}, sns := fun _ => none }
    iphoneConfig iphoneDevice 3600 iphoneNotification (fun _ => 1427000000000000000) (fun _ => 7)
    (by decide) hn (by decide +kernel)
  obtain ⟨i, -, pn, hpn, -⟩ := haccepted (by decide +kernel)
  obtain ⟨frame, r, hframe, hreceive, hreads⟩ := hsent i pn hpn
  exact ⟨pn, frame, r, hframe, hreceive, _, _, hreads⟩

end Pinger.Payload
