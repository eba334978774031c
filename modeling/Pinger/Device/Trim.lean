import Pinger.Device.Alert

/-! # Trimming a message

`APNSpushMessage` deletes contexts from the map of a message that is too long for an old device,
until one is left. It looks at the count only after a deletion, so a single context is deleted
as well. The map is the one the caller passes again in its next attempt. -/

namespace Pinger.Push

/-! ## The map -/

structure ContextMessage where
  message : GoString
  context : GoString
  deriving DecidableEq, Repr

/-- A map from the contexts to their commands. -/
abbrev Contexts := Table GoString GoString

/-- The map of the contexts in `pingerPushMessageMapV2`. -/
def pingerPushMessageMapV2 (contexts : List ContextMessage) : Contexts :=
  contexts.foldl (fun m c => m.put c.context c.message) fun _ => none

/-- A loop over the map may visit its entries in this order. -/
structure Visits (m : Contexts) (order : List (GoString × GoString)) : Prop where
  nodup : (order.map Prod.fst).Nodup
  mem_iff : ∀ k v, (k, v) ∈ order ↔ m k = some v

/-- The loop that trims the map, over its entries in this order. -/
def trimMap (ctxCount : Nat) (m : Contexts) : List (GoString × GoString) → Contexts
  | [] => m
  | (key, _) :: order =>
    if ctxCount - 1 = 1 then m.delete key else trimMap (ctxCount - 1) (m.delete key) order

variable {contexts : List ContextMessage} {m : Contexts} {order : List (GoString × GoString)}

theorem foldl_put_isSome (k : GoString) :
    (contexts.foldl (fun m c => m.put c.context c.message) m k).isSome ↔
      (m k).isSome ∨ ∃ c ∈ contexts, c.context = k := by
  induction contexts generalizing m with
  | nil => simp
  | cons c contexts ih =>
    rw [List.foldl_cons, ih]
    by_cases hk : k = c.context
    · subst hk
      simp [Table.put_self]
    · simp [Table.put_of_ne hk, Ne.symm hk]

/-- The keys of the map are the contexts. -/
theorem pingerPushMessageMapV2_isSome (k : GoString) :
    (pingerPushMessageMapV2 contexts k).isSome ↔ ∃ c ∈ contexts, c.context = k := by
  rw [pingerPushMessageMapV2, foldl_put_isSome]
  simp

theorem foldl_put_eq_some (h : (contexts.map ContextMessage.context).Nodup) (k v : GoString) :
    contexts.foldl (fun m c => m.put c.context c.message) m k = some v ↔
      (∃ c ∈ contexts, (c.context, c.message) = (k, v)) ∨
        (k ∉ contexts.map ContextMessage.context ∧ m k = some v) := by
  induction contexts generalizing m with
  | nil => simp
  | cons c contexts ih =>
    obtain ⟨hc, hnodup⟩ := List.nodup_cons.mp h
    rw [List.foldl_cons, ih hnodup]
    by_cases hk : k = c.context
    · subst hk
      have hno : ∀ c' ∈ contexts, c'.context ≠ c.context := fun c' hc' he =>
        hc (he ▸ List.mem_map_of_mem hc')
      simp only [Table.put_self, List.mem_cons, List.map_cons, Prod.mk.injEq]
      constructor
      · rintro (⟨c', hc', he, -⟩ | ⟨-, hv⟩)
        · exact absurd he (hno c' hc')
        · exact .inl ⟨c, .inl rfl, rfl, Option.some.inj hv⟩
      · rintro (⟨c', rfl | hc', he, rfl⟩ | ⟨hno', -⟩)
        · exact .inr ⟨hc, rfl⟩
        · exact absurd he (hno c' hc')
        · exact absurd (.inl trivial) hno'
    · simp [Table.put_of_ne hk, Ne.symm hk, hk]

/-- Contexts that are all different can be visited in their order. -/
theorem visits_contexts (h : (contexts.map ContextMessage.context).Nodup) :
    Visits (pingerPushMessageMapV2 contexts) (contexts.map fun c => (c.context, c.message)) := by
  refine ⟨by rwa [List.map_map], fun k v => ?_⟩
  rw [pingerPushMessageMapV2, foldl_put_eq_some h, List.mem_map]
  simp

theorem Visits.delete (h : Visits m ((k, v) :: order)) : Visits (m.delete k) order := by
  obtain ⟨hk, hnodup⟩ := List.nodup_cons.mp h.nodup
  refine ⟨hnodup, fun k' v' => ?_⟩
  by_cases hkk : k' = k
  · subst hkk
    rw [Table.delete, Function.update_self]
    exact iff_of_false (fun hm => hk (List.mem_map.mpr ⟨(k', v'), hm, rfl⟩)) (Option.some_ne_none v').symm
  · rw [Table.delete, Function.update_of_ne hkk, ← h.mem_iff, List.mem_cons,
      or_iff_right fun e => hkk (Prod.mk.inj e).1]

/-- The loop leaves in the map what it leaves of the order. -/
theorem Visits.trim (h : Visits m order) (c : Nat) :
    Visits (trimMap c m order) (trimContexts c order) := by
  induction order generalizing c m with
  | nil => exact h
  | cons x order ih =>
    rw [trimMap, trimContexts]
    split
    · exact h.delete
    · exact ih h.delete _

/-! ## The loop -/

/-- Of two entries or more the last one is left. -/
theorem trimContexts_of_two (h : 2 ≤ order.length) :
    ∃ x, order.getLast? = some x ∧ trimContexts order.length order = [x] := by
  induction order with
  | nil => cases h
  | cons x order ih =>
    rw [trimContexts, List.length_cons, Nat.add_sub_cancel]
    split
    next hone =>
      obtain ⟨y, rfl⟩ := List.length_eq_one_iff.mp hone
      exact ⟨y, rfl, rfl⟩
    next hne =>
      rw [List.length_cons] at h
      obtain ⟨y, hy, hlast⟩ := ih (by omega)
      exact ⟨y, by rw [List.getLast?_cons, hy, Option.getD_some], hlast⟩

/-- A single entry is deleted. -/
theorem trimContexts_single (x : GoString × GoString) : trimContexts 1 [x] = [] := rfl

theorem trimContexts_one_left_iff :
    (∃ x ∈ order, trimContexts order.length order = [x]) ↔ 2 ≤ order.length := by
  constructor
  · rintro ⟨x, hx, h⟩
    match order with
    | [] => cases hx
    | [y] => cases (trimContexts_single y).symm.trans h
    | _ :: _ :: _ => simp
  · intro h
    obtain ⟨x, hx, hone⟩ := trimContexts_of_two h
    exact ⟨x, List.mem_of_getLast? hx, hone⟩

/-- The map has two entries when two of the contexts are different. -/
theorem Visits.two_le_iff (hv : Visits (pingerPushMessageMapV2 contexts) order) :
    2 ≤ order.length ↔ ∃ a ∈ contexts, ∃ b ∈ contexts, a.context ≠ b.context := by
  have hkeys : ∀ k, k ∈ order.map Prod.fst ↔ ∃ c ∈ contexts, c.context = k := by
    intro k
    rw [← pingerPushMessageMapV2_isSome, List.mem_map, Option.isSome_iff_exists]
    constructor
    · rintro ⟨⟨k, v⟩, hm, rfl⟩
      exact ⟨v, (hv.mem_iff k v).mp hm⟩
    · rintro ⟨v, hk⟩
      exact ⟨(k, v), (hv.mem_iff k v).mpr hk, rfl⟩
  rw [← List.length_map (f := Prod.fst)]
  constructor
  · intro h
    match hl : order.map Prod.fst, h with
    | k :: k' :: ks, _ =>
      obtain ⟨a, ha, rfl⟩ := (hkeys k).mp (hl ▸ List.mem_cons_self)
      obtain ⟨b, hb, rfl⟩ := (hkeys k').mp (hl ▸ List.mem_cons_of_mem _ List.mem_cons_self)
      have hnodup := hv.nodup
      rw [hl] at hnodup
      exact ⟨a, ha, b, hb, fun h => (List.nodup_cons.mp hnodup).1 (h ▸ List.mem_cons_self)⟩
  · rintro ⟨a, ha, b, hb, hne⟩
    have hsub : [a.context, b.context] ⊆ order.map Prod.fst := by
      intro k hk
      simp only [List.mem_cons, List.not_mem_nil, or_false] at hk
      rcases hk with rfl | rfl
      · exact (hkeys _).mpr ⟨a, ha, rfl⟩
      · exact (hkeys _).mpr ⟨b, hb, rfl⟩
    exact (List.subperm_of_subset (by simpa using hne) hsub).length_le

/-! ## The attempts of a push -/

/-- The test before the trimming. -/
def TooLong (t : Transport) (di : DeviceInfo) (n : Notification) : Prop :=
  256 ≤ (t.json n).length ∧ getMajorVersion di.osVersion < 8

/-- The push makes attempt `i`: none before it was accepted, and none told it that the token is
invalid. -/
def Attempted (t : Transport) (di : DeviceInfo) (n : Notification) (i : Nat) : Prop :=
  i < maxAttempts ∧ ∀ j < i, apnsOutcome t di n j ≠ none ∧ apnsOutcome t di n j ≠ some .invalidToken

/-- One context of the first notification is left in the second one. -/
def OneLeft (n n' : Notification) : Prop := ∃ x ∈ n.ctxs, n'.ctxs = [x]

/-- Attempt `i` either does not trim, or it leaves one context of the notification. -/
def TrimsToOne (t : Transport) (di : DeviceInfo) (n : Notification) (i : Nat) : Prop :=
  TooLong t di (apnsNotification t di n i) → OneLeft n (apnsNotification t di n (i + 1))

section
variable {t : Transport} {di : DeviceInfo} {n : Notification}

theorem apnsNotification_succ (hdec : (decodeAPNSPushToken di.pushToken).toBool) (i : Nat) :
    apnsNotification t di n (i + 1) =
      trimmed t (getMajorVersion di.osVersion) (apnsNotification t di n i) := by
  rw [apnsNotification, apnsPushMessage_snd, if_pos hdec]

theorem trimmed_of_tooLong (h : TooLong t di n) :
    trimmed t (getMajorVersion di.osVersion) n =
      { n with ctxs := trimContexts n.ctxs.length n.ctxs } := if_pos h

theorem trimmed_of_not_tooLong (h : ¬TooLong t di n) :
    trimmed t (getMajorVersion di.osVersion) n = n := if_neg h

/-- A message that is still too long is refused, and the push goes on. -/
theorem apnsPushMessage_tooLong (hdec : (decodeAPNSPushToken di.pushToken).toBool)
    (h : TooLong t di (trimmed t (getMajorVersion di.osVersion) n)) (i : Nat) :
    (apnsPushMessage t di.pushToken di.osVersion i n).1 = some .messageTooLarge := by
  rw [apnsPushMessage]
  cases hd : decodeAPNSPushToken di.pushToken with
  | error e => rw [hd] at hdec; cases hdec
  | ok tok => simp only [if_pos h.1, h.2, and_true]

theorem oneLeft_first_iff (hdec : (decodeAPNSPushToken di.pushToken).toBool)
    (hlong : TooLong t di n) :
    TrimsToOne t di n 0 ↔ 2 ≤ n.ctxs.length := by
  rw [← trimContexts_one_left_iff, TrimsToOne, imp_iff_right (by exact hlong), OneLeft,
    apnsNotification_succ hdec, apnsNotification, trimmed_of_tooLong hlong]

/-- What every attempt does follows from the first one, and from whether the message is short enough
after it. -/
theorem oneLeft_all_iff (hdec : (decodeAPNSPushToken di.pushToken).toBool)
    (hlong : TooLong t di n) :
    (∀ i, Attempted t di n i → TrimsToOne t di n i) ↔
      2 ≤ n.ctxs.length ∧ ∀ x, n.ctxs.getLast? = some x → ¬TooLong t di { n with ctxs := [x] } := by
  have hfirst : apnsNotification t di n 1 =
      { n with ctxs := trimContexts n.ctxs.length n.ctxs } := by
    rw [apnsNotification_succ hdec, apnsNotification, trimmed_of_tooLong hlong]
  constructor
  · intro h
    have htwo := (oneLeft_first_iff hdec hlong).mp (h 0 ⟨by decide, fun j hj => absurd hj j.not_lt_zero⟩)
    obtain ⟨x, hx, hone⟩ := trimContexts_of_two htwo
    rw [hone] at hfirst
    refine ⟨htwo, fun y hy hagain => ?_⟩
    obtain rfl : x = y := Option.some.inj (hx.symm.trans hy)
    -- the second attempt deletes the context that is left
    have hout : apnsOutcome t di n 0 = some .messageTooLarge := by
      refine apnsPushMessage_tooLong hdec ?_ 0
      rwa [← apnsNotification_succ hdec, hfirst]
    have hattempt : Attempted t di n 1 := by
      refine ⟨by decide, fun j hj => ?_⟩
      obtain rfl : j = 0 := by omega
      simp [hout]
    obtain ⟨y, -, hy⟩ := h 1 hattempt (hfirst ▸ hagain)
    rw [apnsNotification_succ hdec, hfirst, trimmed_of_tooLong hagain] at hy
    cases hy
  · rintro ⟨htwo, hshort⟩ i -
    obtain ⟨x, hx, hone⟩ := trimContexts_of_two htwo
    rw [hone] at hfirst
    cases i with
    | zero => exact (oneLeft_first_iff hdec hlong).mpr htwo
    | succ i =>
      -- no later attempt trims
      have hsame : apnsNotification t di n (i + 1) = { n with ctxs := [x] } := by
        induction i with
        | zero => exact hfirst
        | succ i ih => rw [apnsNotification_succ hdec, ih, trimmed_of_not_tooLong (hshort x hx)]
      intro hlong'
      rw [hsame] at hlong'
      exact absurd hlong' (hshort x hx)

end

/-- The attempt on a message that is too long leaves one of its contexts exactly when two of them
are different; and all attempts of its push do, when moreover the message with the last context that
is visited is short enough. -/
theorem trims_to_one_iff (t : Transport) (di : DeviceInfo) {n : Notification}
    (hv : Visits (pingerPushMessageMapV2 contexts) n.ctxs)
    (hdec : (decodeAPNSPushToken di.pushToken).toBool) (hlong : TooLong t di n) :
    (TrimsToOne t di n 0 ↔ ∃ a ∈ contexts, ∃ b ∈ contexts, a.context ≠ b.context) ∧
    ((∀ i, Attempted t di n i → TrimsToOne t di n i) ↔
      (∃ a ∈ contexts, ∃ b ∈ contexts, a.context ≠ b.context) ∧
        ∀ x, n.ctxs.getLast? = some x → ¬TooLong t di { n with ctxs := [x] }) := by
  rw [oneLeft_first_iff hdec hlong, oneLeft_all_iff hdec hlong, hv.two_le_iff]
  exact ⟨Iff.rfl, Iff.rfl⟩

/-- The text of a message whose parts need no quoting. -/
def plainText (n : Notification) : GoString :=
  GoString.lit "\x7b\"aps\":\x7b\"alert\":\"" ++ n.alert ++
    GoString.lit "\"\x7d,\"pinger\":\x7b\"ctxs\":\x7b" ++
    [','].intercalate (n.ctxs.map fun (c, cmd) =>
      '"' :: c ++ GoString.lit "\":\x7b\"cmd\":\"" ++ cmd ++ GoString.lit "\"\x7d") ++
    GoString.lit "\x7d,\"meta\":\x7b\"time\":\"" ++ n.time ++ GoString.lit "\"\x7d\x7d\x7d"

/-- Apple accepts what it is sent. -/
def plainTransport : Transport where
  json := plainText
  apns _ := {}
  sns _ := none

/-- A phone under iOS 7. -/
def oldPhone : DeviceInfo where
  pushToken := List.replicate 64 'a'
  osVersion := GoString.lit "7.1"

/-- A register command for the context of this length. -/
def context (length : Nat) : ContextMessage where
  message := GoString.lit "reg"
  context := List.replicate length 'c'

def alertOf (contexts : List ContextMessage) : Notification where
  alert := GoString.lit "Nacho says: Reregister!"
  time := GoString.lit "1427000000"
  ctxs := contexts.map fun c => (c.context, c.message)

/-- Of two contexts the second one is left. -/
theorem trims_to_one_of_two :
    TooLong plainTransport oldPhone (alertOf [context 160, context 8]) ∧
      ∀ i, Attempted plainTransport oldPhone (alertOf [context 160, context 8]) i →
        TrimsToOne plainTransport oldPhone (alertOf [context 160, context 8]) i := by
  have hlong : TooLong plainTransport oldPhone (alertOf [context 160, context 8]) := by
    constructor <;> decide +kernel
  have hv : Visits (pingerPushMessageMapV2 [context 160, context 8])
      (alertOf [context 160, context 8]).ctxs := visits_contexts (by decide +kernel)
  refine ⟨hlong, (trims_to_one_iff _ _ hv (by decide +kernel) hlong).2.mpr ⟨?_, ?_⟩⟩
  · exact ⟨context 160, by simp, context 8, by simp, by decide +kernel⟩
  · rintro x hx ⟨hlen, -⟩
    obtain rfl : ((context 8).context, (context 8).message) = x := Option.some.inj hx
    exact absurd hlen (by decide +kernel)

/-- The only context of a message is deleted, and the message is sent without one. -/
theorem single_context_deleted :
    Visits (pingerPushMessageMapV2 [context 180]) (alertOf [context 180]).ctxs ∧
      TooLong plainTransport oldPhone (alertOf [context 180]) ∧
      ¬TrimsToOne plainTransport oldPhone (alertOf [context 180]) 0 ∧
      apnsPushMessage plainTransport oldPhone.pushToken oldPhone.osVersion 0
        (alertOf [context 180]) = (none, { alertOf [context 180] with ctxs := [] }) := by
  have hlong : TooLong plainTransport oldPhone (alertOf [context 180]) := by
    constructor <;> decide +kernel
  refine ⟨visits_contexts (by decide +kernel), hlong, ?_, by decide +kernel⟩
  intro h
  exact absurd ((oneLeft_first_iff (by decide +kernel) hlong).mp h) (by decide)

end Pinger.Push
