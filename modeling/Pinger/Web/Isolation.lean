import Mathlib.Data.List.Duplicate
import Pinger.Rpc.Lock
import Pinger.Web.Tokens

/-! # Isolation

The web server and the backend as one system. A handler of the web server that calls the backend
puts one call on the way; a call comes in at the backend once, at any later time and in any order,
or is lost with its connection. No client disturbs the session of another: what is not a step of
the session itself goes back to a request that presented a token of the same identity, or to a
second registration of it. -/

namespace Pinger

open Transition

/-! ## Sessions and the registrations they are from -/

namespace Rpc

open Web (Identity Admitted Registered key_inj)

/-- Session `sid` is the one that creation `c` has made. -/
def Registry.Made (r : Registry) (c sid : Nat) (mi : MailPingInformation) : Prop :=
  r.creations c = .created mi sid ∨ r.creations c = .finished (some sid)

/-- The creations stand in the order in which the identities were registered. -/
structure Origins (D : List Identity) (r : Registry) : Prop where
  inv : Inv r
  registered : Registered r
  pending : r.creations c = .pending mi → D[c]? = some mi.identity
  created : r.creations c = .created mi sid → D[c]? = some mi.identity
  session : r.sessions sid = some mi → ∃ c, D[c]? = some mi.identity ∧ r.Made c sid mi

theorem twice_of_get {D : List Identity} {i : Identity} {m n : Nat} (hm : D[m]? = some i)
    (hn : D[n]? = some i) (hne : m ≠ n) : D.Duplicate i := by
  obtain ⟨hm', rfl⟩ := List.getElem?_eq_some_iff.mp hm
  obtain ⟨hn', heq⟩ := List.getElem?_eq_some_iff.mp hn
  apply List.duplicate_iff_exists_distinct_get.mpr
  rcases Nat.lt_or_gt_of_ne hne with hlt | hlt
  · exact ⟨⟨m, hm'⟩, ⟨n, hn'⟩, hlt, rfl, heq.symm⟩
  · exact ⟨⟨n, hn'⟩, ⟨m, hm'⟩, hlt, heq.symm, rfl⟩

/-- The step issues a stop to the session. -/
def Registry.Issues (r : Registry) (sid : Nat) : Act → Prop
  | .startPoll mi _ => r.pollMap mi.pollMapKey = some sid
  | .stopPoll args => r.pollMap args.pollMapKey = some sid
  | .create _ _ => False
  | .offer c => ∃ mi sid', r.creations c = .created mi sid ∧ r.pollMap mi.pollMapKey = some sid'

/-- The identities that a step registers. -/
def Act.creates : Act → List Identity
  | .startPoll mi _ => [mi.identity]
  | _ => []

section
variable {D : List Identity} {r r' : Registry}

theorem Stepped.creates (h : Stepped r a r') :
    r'.ncreations = r.ncreations + a.creates.length := by
  cases h with
  | replaced | started | stopped | notFound | created | failed | refused | stored => rfl

theorem Stepped.issues (h : Stepped r a r') (hs : r'.stops sid ≠ []) :
    r.stops sid ≠ [] ∨ r.Issues sid a := by
  have hupd {sid'} (hs : Function.update r.stops sid' (r.stops sid' ++ [a]) sid ≠ []) :
      r.stops sid ≠ [] ∨ sid' = sid := by
    by_cases hsid : sid' = sid
    · exact .inr hsid
    · rw [Function.update_of_ne (Ne.symm hsid)] at hs
      exact .inl hs
  cases h with
  | replaced hk | stopped hk =>
    apply (hupd hs).imp_right
    rintro rfl
    exact hk
  | refused hc hk =>
    apply (hupd hs).imp_right
    rintro rfl
    exact ⟨_, _, hc, hk⟩
  | started | notFound | created | failed | stored => exact .inl hs

theorem Stepped.made (hinv : Inv r) (h : Stepped r a r') (hm : r.Made c sid mi) :
    r'.Made c sid mi := by
  cases h.creationStep c with
  | same heq => rwa [Registry.Made, heq]
  | spawn heq =>
    have habsent := hinv.unborn (Nat.le_of_eq heq.symm)
    rcases hm with hm | hm <;> cases habsent.symm.trans hm
  | create hp | fail hp => rcases hm with hm | hm <;> cases hp.symm.trans hm
  | refused hp hp' | stored hp hp' =>
    rcases hm with hm | hm <;> cases hp.symm.trans hm
    exact .inr hp'

theorem Origins.lt (h : Origins D r) (hm : r.Made c sid mi) : c < r.ncreations := by
  apply Nat.lt_of_not_le
  intro hle
  have habsent := h.inv.unborn hle
  rcases hm with hm | hm <;> cases habsent.symm.trans hm

theorem Origins.step (h : Origins D r) (ha : Admitted r a)
    (hstart : ∀ i ∈ a.creates, D[r.ncreations]? = some i) (hs : r.step a = some r') :
    Origins D r' := by
  have hst := step_cases hs
  refine ⟨hst.inv h.inv, h.registered.step ha hs, ?_, ?_, ?_⟩
  · intro c mi hc
    cases hst.creationStep c with
    | same heq => exact h.pending (heq ▸ hc)
    | spawn heq hp =>
      cases hp.symm.trans hc
      exact heq ▸ hstart _ (List.mem_singleton.mpr rfl)
    | create _ hp | fail _ hp | refused _ hp | stored _ hp => cases hp.symm.trans hc
  · intro c mi sid hc
    cases hst.creationStep c with
    | same heq => exact h.created (heq ▸ hc)
    | create hp hp' =>
      cases hp'.symm.trans hc
      exact h.pending hp
    | spawn _ hp | fail _ hp | refused _ hp | stored _ hp => cases hp.symm.trans hc
  · intro sid mi hsid
    have hold (hsid : r.sessions sid = some mi) :
        ∃ c, D[c]? = some mi.identity ∧ r'.Made c sid mi := by
      obtain ⟨c, hd, hm⟩ := h.session hsid
      exact ⟨c, hd, hst.made h.inv hm⟩
    cases hst with
    | @created c mi' hp =>
      by_cases heq : sid = r.nsessions
      · subst heq
        obtain rfl : mi' = mi := by simpa [Registry.addSession] using hsid
        exact ⟨c, h.pending hp, .inl (Function.update_self ..)⟩
      · apply hold
        simpa [Registry.addSession, Registry.setCreation, heq] using hsid
    | replaced | started | stopped | notFound | failed | refused | stored => exact hold hsid

theorem Origins.mono (h : Origins D r) (D' : List Identity) : Origins (D ++ D') r := by
  have hext {c : Nat} {i : Identity} (hd : D[c]? = some i) : (D ++ D')[c]? = some i := by
    rwa [List.getElem?_append_left (List.getElem?_eq_some_iff.mp hd).1]
  refine ⟨h.inv, h.registered, fun hc => hext (h.pending hc), fun hc => hext (h.created hc), ?_⟩
  intro sid mi hs
  obtain ⟨c, hd, hm⟩ := h.session hs
  exact ⟨c, hext hd, hm⟩

/-- The session under the key of an identity is from one of its registrations. -/
theorem Origins.found (h : Origins D r) (hi : i.valid) (hk : r.pollMap i.key = some sid) :
    ∃ mi c, r.sessions sid = some mi ∧ mi.identity = i ∧ D[c]? = some i ∧ r.Made c sid mi := by
  obtain ⟨mi, hs, hkey⟩ := h.inv.keyed hk
  obtain rfl : mi.identity = i := key_inj (h.registered.session hs) hi hkey
  obtain ⟨c, hd, hm⟩ := h.session hs
  exact ⟨mi, c, hs, rfl, hd, hm⟩

/-- A session that is not taken into the map, and the one in its place, are from two registrations
of one identity. -/
theorem Origins.refused (h : Origins D r) (hc : r.creations c = .created mi sid)
    (hk : r.pollMap mi.pollMapKey = some sid') : D.Duplicate mi.identity := by
  obtain ⟨mi', c', -, -, hd, hm⟩ := h.found (h.registered.created hc) hk
  apply twice_of_get (h.created hc) hd
  rintro rfl
  rcases hm with hm | hm
  · cases hc.symm.trans hm
    have hown : r.Owns sid (.unoffered c) := ⟨_, hc⟩
    obtain ⟨o, -, huniq⟩ := h.inv.owner (h.inv.known hown)
    cases (huniq _ hown).trans (huniq (.stored _) hk).symm
  · cases hc.symm.trans hm

end

/-! ## The sessions of the backend -/

/-- The identity that the holder of the lock is about to register, if it is. -/
def starting (lock : Option Holder) : List Identity := lock.elim [] fun h => h.act.creates

/-- The session has gone on by itself, as time has passed. -/
def Server.Alone (s : Server B) (sid : Nat) : Prop :=
  ∃ bs, Run (Session.step (B.mailClient sid) (B.settings sid))
    (fun _ b => b.own ∨ ∃ d, b = .advance d)
    (Session.init (B.mailClient sid) (B.settings sid)) bs (s.ctx sid)

/-- The identity of the session has presented a token, or was registered twice. -/
def Excused (D : List Identity) (E : Identity → Prop) (r : Registry) (sid : Nat) : Prop :=
  ∃ mi, r.sessions sid = some mi ∧ (E mi.identity ∨ D.Duplicate mi.identity)

/-- `D` lists the identities registered, and `E` holds of those that have presented a token. -/
structure Lawful (D : List Identity) (E : Identity → Prop) (s : Server B) : Prop where
  origins : Origins D s.reg
  held : s.lock = some h → ∀ i ∈ h.act.identity, i.valid ∧ i ∈ h.act.creates
  holder : s.lock = some h → Excused D E s.reg h.sid
  task : s.tasks g = some (sid, t) → Excused D E s.reg sid
  stopped : s.reg.stops sid ≠ [] → Excused D E s.reg sid
  alone (sid : Nat) : s.Alone sid ∨ Excused D E s.reg sid

/-- The registrations are those the map has seen and the one that waits for a session to take its
stop. -/
def Listed (D : List Identity) (s : Server B) : Prop :=
  ∃ pre, D = pre ++ starting s.lock ∧ pre.length = s.reg.ncreations

/-- The steps of the backend that no call begins. -/
def ServerAct.inner {B : Backend} : ServerAct B → Bool
  | .startPoll _ | .stopPoll _ | .deferPoll _ => false
  | _ => true

section
variable {B : Backend} {D : List Identity} {E : Identity → Prop} {s s' : Server B}
  {r r' : Registry}

theorem Excused.mono (h : Excused D E r sid) (D' : List Identity) {E' : Identity → Prop}
    (hE : ∀ i, E i → E' i) : Excused (D ++ D') E' r sid := by
  obtain ⟨mi, hs, h⟩ := h
  exact ⟨mi, hs, h.imp (hE _) fun h => h.mono_sublist (List.sublist_append_left ..)⟩

theorem Excused.step (h : Excused D E r sid) (hinv : Inv r) (hst : Stepped r a r') :
    Excused D E r' sid := by
  obtain ⟨mi, hs, h⟩ := h
  exact ⟨mi, hst.sessions hinv hs, h⟩

theorem Lawful.mono (h : Lawful D E s) (D' : List Identity) {E' : Identity → Prop}
    (hE : ∀ i, E i → E' i) : Lawful (D ++ D') E' s where
  origins := h.origins.mono D'
  held := h.held
  holder hl := (h.holder hl).mono D' hE
  task ht := (h.task ht).mono D' hE
  stopped hs := (h.stopped hs).mono D' hE
  alone sid := (h.alone sid).imp_right fun hx => hx.mono D' hE

/-- Who a step issues a stop to is excused when its request is. -/
theorem Lawful.issues (h : Lawful D E s) (ha : Admitted s.reg a)
    (hstart : ∀ i ∈ a.creates, D[s.reg.ncreations]? = some i)
    (hstop : ∀ args, a = .stopPoll args → E args.identity) (hi : s.reg.Issues sid a) :
    Excused D E s.reg sid := by
  cases a with
  | startPoll mi st =>
    obtain ⟨mi', c, hs, heq, hd, hm⟩ := h.origins.found (ha _ rfl) hi
    have hd' := hstart mi.identity (List.mem_singleton.mpr rfl)
    have hne : c ≠ s.reg.ncreations := Nat.ne_of_lt (h.origins.lt hm)
    exact ⟨mi', hs, .inr (heq ▸ twice_of_get hd hd' hne)⟩
  | stopPoll args =>
    obtain ⟨mi', c, hs, heq, -, -⟩ := h.origins.found (ha _ rfl) hi
    exact ⟨mi', hs, .inl (heq ▸ hstop args rfl)⟩
  | create c ok => cases hi
  | offer c =>
    obtain ⟨mi, sid', hc, hk⟩ := hi
    exact ⟨mi, h.origins.inv.built hc, .inr (h.origins.refused hc hk)⟩

/-- A section of a handler, at the end of which it may give the lock back. -/
theorem Lawful.commit (h : Lawful D E s) (hs : s.reg.step a = some r) (ha : Admitted s.reg a)
    (hstart : ∀ i ∈ a.creates, D[s.reg.ncreations]? = some i)
    (hstop : ∀ args, a = .stopPoll args → E args.identity)
    (hlock : lock = s.lock ∨ lock = none) : Lawful D E { s with reg := r, lock } := by
  have hst := step_cases hs
  have hkeep {sid} (hx : Excused D E s.reg sid) : Excused D E r sid := hx.step h.origins.inv hst
  have hheld {holder} (heq : lock = some holder) : s.lock = some holder := by
    rcases hlock with rfl | rfl
    · exact heq
    · cases heq
  refine ⟨h.origins.step ha hstart hs, fun hl => h.held (hheld hl),
    fun hl => hkeep (h.holder (hheld hl)), fun ht => hkeep (h.task ht), ?_,
    fun sid => (h.alone sid).imp_right hkeep⟩
  intro sid hne
  rcases hst.issues hne with hne | hi
  · exact hkeep (h.stopped hne)
  · exact hkeep (h.issues ha hstart hstop hi)

/-- Code runs on a session that is excused. -/
theorem Lawful.setCtx (h : Lawful D E s) (hx : Excused D E s.reg sid)
    (x : Session.Ctx (B.mailClient sid).State) : Lawful D E (s.setCtx sid x) := by
  refine ⟨h.origins, h.held, h.holder, h.task, h.stopped, ?_⟩
  intro sid'
  by_cases heq : sid' = sid
  · exact .inr (heq ▸ hx)
  · apply (h.alone sid').imp_left
    rintro ⟨bs, hbs⟩
    exact ⟨bs, by rwa [Server.setCtx_of_ne s heq]⟩

theorem Lawful.setTask (h : Lawful D E s) (hx : Excused D E s.reg sid) (g : Nat) (t : Task)
    (n : Nat) : Lawful D E
      { s with tasks := Function.update s.tasks g (some (sid, t)), ntasks := n } := by
  refine ⟨h.origins, h.held, h.holder, ?_, h.stopped, h.alone⟩
  intro g' sid' t' ht
  by_cases hg : g' = g
  · subst hg
    cases (Function.update_self ..).symm.trans ht
    exact hx
  · exact h.task ((Function.update_of_ne hg ..).symm.trans ht)

theorem Lawful.acquire (h : Lawful D E s) (hx : Excused D E s.reg sid)
    (ha : ∀ i ∈ a.identity, i.valid ∧ i ∈ a.creates) (t : Task) :
    Lawful D E { s with lock := some ⟨a, sid, t⟩ } := by
  refine ⟨h.origins, ?_, ?_, h.task, h.stopped, h.alone⟩
  · rintro _ ⟨⟩
    exact ha
  · rintro _ ⟨⟩
    exact hx

/-! ## The calls -/

theorem Listed.next (h : Listed D s) (hl : s.lock = none) (i : Identity) :
    (D ++ [i])[s.reg.ncreations]? = some i := by
  obtain ⟨pre, rfl, hlen⟩ := h
  rw [hl, starting, Option.elim_none, List.append_nil, ← hlen, List.getElem?_concat_length]

theorem Listed.unlocked (h : Listed D s) (hl : s.lock = none) : D.length = s.reg.ncreations := by
  obtain ⟨pre, rfl, hlen⟩ := h
  rw [hl, starting, Option.elim_none, List.append_nil, hlen]

theorem Lawful.startPoll (h : Lawful D E s) (hlist : Listed D s) (hi : mi.identity.valid)
    (hs : s.step (.startPoll mi) = some s') :
    Lawful (D ++ [mi.identity]) E s' ∧ Listed (D ++ [mi.identity]) s' := by
  have h' := h.mono [mi.identity] fun _ hE => hE
  simp only [Server.step] at hs
  split at hs
  · cases hs
  next hl =>
    have hl : s.lock = none := Option.not_isSome_iff_eq_none.mp hl
    have hnext := hlist.next hl mi.identity
    have hlen := hlist.unlocked hl
    split at hs
    next sid hk =>
      cases hs
      obtain ⟨mi', c, hsess, heq, hd, hm⟩ := h'.origins.found hi hk
      have hne : c ≠ s.reg.ncreations := Nat.ne_of_lt (h'.origins.lt hm)
      refine ⟨h'.acquire ⟨mi', hsess, .inr ?_⟩ ?_ _, ⟨D, rfl, hlen⟩⟩
      · rw [heq]
        exact twice_of_get hd hnext hne
      · rintro _ ⟨⟩
        exact ⟨hi, List.mem_singleton.mpr rfl⟩
    next =>
      obtain ⟨r, hr, rfl⟩ := Option.map_eq_some_iff.mp hs
      refine ⟨h'.commit hr ?_ ?_ (fun _ ha => by cases ha) (.inl rfl),
        ⟨D ++ [mi.identity], ?_, ?_⟩⟩
      · rintro _ ⟨⟩
        exact hi
      · intro i hmem
        rw [List.mem_singleton.mp hmem]
        exact hnext
      · rw [hl, starting, Option.elim_none, List.append_nil]
      · rw [List.length_append, hlen]
        exact ((step_cases hr).creates).symm

theorem Lawful.stopPoll (h : Lawful D E s) (hlist : Listed D s) (args : StopPollArgs)
    (hi : args.identity.valid) (hE : E args.identity) (hs : s.step (.stopPoll args) = some s') :
    Lawful D E s' ∧ Listed D s' := by
  have ha : Admitted s.reg (.stopPoll args) := by
    rintro _ ⟨⟩
    exact hi
  have hstop (args') (heq : Act.stopPoll args = .stopPoll args') : E args'.identity := by
    cases heq
    exact hE
  have hstart (i) (hi : i ∈ Act.creates (.stopPoll args)) : D[s.reg.ncreations]? = some i := by
    cases hi
  obtain ⟨pre, hd, hlen⟩ := hlist
  simp only [Server.step] at hs
  split at hs
  · cases hs
  next hl =>
    split at hs
    next sid hk =>
      obtain ⟨s₁, h₁, rfl⟩ := Option.map_eq_some_iff.mp hs
      obtain ⟨r, hr, rfl⟩ := Option.map_eq_some_iff.mp h₁
      have hx := (h.issues ha hstart hstop hk).step h.origins.inv (step_cases hr)
      exact ⟨(h.commit hr ha hstart hstop (.inl rfl)).setTask hx _ _ _,
        ⟨pre, hd, hlen.trans (step_cases hr).creates.symm⟩⟩
    next =>
      obtain ⟨r, hr, rfl⟩ := Option.map_eq_some_iff.mp hs
      exact ⟨h.commit hr ha hstart hstop (.inl rfl),
        ⟨pre, hd, hlen.trans (step_cases hr).creates.symm⟩⟩

theorem Lawful.deferPoll (h : Lawful D E s) (hlist : Listed D s) (args : DeferPollArgs)
    (hi : args.identity.valid) (hE : E args.identity) (hs : s.step (.deferPoll args) = some s') :
    Lawful D E s' ∧ Listed D s' := by
  simp only [Server.step, rpcDeferPoll, Option.some.injEq] at hs
  subst hs
  split
  next sid hk =>
    split
    · exact ⟨h, hlist⟩
    · split
      · exact ⟨h, hlist⟩
      · obtain ⟨mi, c, hsess, heq, -, -⟩ := h.origins.found hi hk
        exact ⟨h.setTask ⟨mi, hsess, .inl (heq ▸ hE)⟩ _ _ _, hlist⟩
  · exact ⟨h, hlist⟩

/-! ## The other steps of the backend -/

theorem Lawful.holder_step (h : Lawful D E s) (hlist : Listed D s)
    (hs : s.step .holder = some s') : Lawful D E s' ∧ Listed D s' := by
  obtain ⟨pre, rfl, hlen⟩ := hlist
  simp only [Server.step] at hs
  split at hs
  next a sid hl =>
    obtain ⟨s₁, h₁, rfl⟩ := Option.map_eq_some_iff.mp hs
    obtain ⟨r, hr, rfl⟩ := Option.map_eq_some_iff.mp h₁
    have hstart (i) (hmem : i ∈ a.creates) :
        (pre ++ starting s.lock)[s.reg.ncreations]? = some i := by
      cases a with
      | startPoll mi st =>
        rw [List.mem_singleton.mp hmem, hl, ← hlen]
        exact List.getElem?_concat_length
      | stopPoll | create | offer => cases hmem
    have hstop (args) (heq : a = .stopPoll args) : E args.identity := by
      subst heq
      cases (h.held hl _ rfl).2
    refine ⟨h.commit hr (fun i hi => (h.held hl i hi).1) hstart hstop (.inr rfl), ?_⟩
    refine ⟨pre ++ starting s.lock, (List.append_nil _).symm, ?_⟩
    rw [List.length_append, hlen, hl]
    exact (step_cases hr).creates.symm
  next a sid t _ hl =>
    obtain ⟨⟨x, t'⟩, -, rfl⟩ := Option.map_eq_some_iff.mp hs
    refine ⟨(h.setCtx (h.holder hl) x).acquire (h.holder hl) (h.held hl) t', ⟨pre, ?_, hlen⟩⟩
    rw [hl]
    rfl
  · cases hs

theorem Lawful.inner (h : Lawful D E s) (hlist : Listed D s) (ha : a.inner)
    (hs : s.step a = some s') : Lawful D E s' ∧ Listed D s' := by
  have hcommit {b r} (hb : b.creates = []) (hid : b.identity = none)
      (hr : s.reg.step b = some r) :
      Lawful D E { s with reg := r } ∧ Listed D { s with reg := r } := by
    obtain ⟨pre, hd, hlen⟩ := hlist
    refine ⟨h.commit hr ?_ ?_ ?_ (.inl rfl), ⟨pre, hd, ?_⟩⟩
    · intro i hi
      rw [hid] at hi
      cases hi
    · intro i hi
      rw [hb] at hi
      cases hi
    · rintro args rfl
      cases hid
    · rw [hlen, (step_cases hr).creates, hb]
      rfl
  cases a with
  | startPoll | stopPoll | deferPoll => cases ha
  | create c ok =>
    obtain ⟨r, hr, rfl⟩ := Option.map_eq_some_iff.mp hs
    exact hcommit rfl rfl hr
  | offer c =>
    simp only [Server.step] at hs
    split at hs
    · cases hs
    next hl =>
      have hl : s.lock = none := Option.not_isSome_iff_eq_none.mp hl
      split at hs
      next mi sid hc =>
        split at hs
        next sid' hk =>
          cases hs
          have hx : Excused D E s.reg sid :=
            ⟨mi, h.origins.inv.built hc, .inr (h.origins.refused hc hk)⟩
          obtain ⟨pre, hd, hlen⟩ := hlist
          rw [hl] at hd
          exact ⟨h.acquire hx (fun _ hi => by cases hi) _, ⟨pre, hd, hlen⟩⟩
        · obtain ⟨r, hr, rfl⟩ := Option.map_eq_some_iff.mp hs
          exact hcommit rfl rfl hr
      · cases hs
  | holder => exact h.holder_step hlist hs
  | task g =>
    simp only [Server.step] at hs
    split at hs
    next sid t hg =>
      obtain ⟨⟨x, t'⟩, -, rfl⟩ := Option.map_eq_some_iff.mp hs
      exact ⟨(h.setCtx (h.task hg) x).setTask (h.task hg) g t' _, hlist⟩
    · cases hs
  | session sid b =>
    simp only [Server.step] at hs
    split at hs
    next hb =>
      obtain ⟨x, hx, rfl⟩ := Option.map_eq_some_iff.mp hs
      refine ⟨⟨h.origins, h.held, h.holder, h.task, h.stopped, ?_⟩, hlist⟩
      intro sid'
      by_cases heq : sid' = sid
      · subst heq
        apply (h.alone sid').imp_left
        rintro ⟨bs, hbs⟩
        exact ⟨bs ++ [b], by rw [Server.setCtx_self]; exact hbs.snoc (.inl hb.2) hx⟩
      · apply (h.alone sid').imp_left
        rintro ⟨bs, hbs⟩
        exact ⟨bs, by rwa [Server.setCtx_of_ne s heq]⟩
    · cases hs
  | advance d =>
    cases hs
    refine ⟨⟨h.origins, h.held, h.holder, h.task, h.stopped, ?_⟩, hlist⟩
    intro sid
    apply (h.alone sid).imp_left
    rintro ⟨bs, hbs⟩
    exact ⟨bs ++ [.advance d], hbs.snoc (.inr ⟨d, rfl⟩) rfl⟩

end

end Rpc

/-! ## The system -/

namespace Web

open Rpc

/-- The call as the backend takes it. -/
def BackendCall.serverAct {B : Backend} : BackendCall → ServerAct B
  | .startPoll pi => .startPoll pi
  | .deferPoll i timeout _ => .deferPoll ⟨i.userId, i.clientContext, i.deviceId, timeout⟩
  | .stopPoll i => .stopPoll ⟨i.userId, i.clientContext, i.deviceId⟩

/-- The identities that a call registers. -/
def BackendCall.registers : BackendCall → List Identity
  | .startPoll pi => [pi.identity]
  | .deferPoll .. | .stopPoll _ => []

/-- `calls` are on their way from the web server to the backend. -/
structure System (B : Backend) where
  web : WebServer := {}
  calls : List BackendCall := []
  backend : Server B := {}

inductive SystemAct (B : Backend)
  | request (r : Request)
  | deliver (n : Nat)
  | lose (n : Nat)
  | backend (a : ServerAct B)

/-- An entry of the history of the system. -/
inductive Entry
  | token (e : Event)
  | called (token : Option GoString) (call : BackendCall)
  | delivered (call : BackendCall)
  deriving DecidableEq, Repr

namespace System

def step (ctx : Context) (s : System B) : SystemAct B → Option (System B)
  | .request r =>
    let o := s.web.handle ctx r
    some { s with web := o.server, calls := s.calls ++ o.call.toList }
  | .deliver n =>
    s.calls[n]?.bind fun call => (s.backend.step call.serverAct).map fun backend =>
      { s with calls := s.calls.eraseIdx n, backend }
  | .lose n => if n < s.calls.length then some { s with calls := s.calls.eraseIdx n } else none
  | .backend a => if a.inner then (s.backend.step a).map fun backend => { s with backend } else none

/-- What a step writes into the history. -/
def entries (ctx : Context) (s : System B) : SystemAct B → List Entry
  | .request r => (s.web.handle ctx r).call.toList.map (.called r.token) ++
      (s.web.events ctx r).map .token
  | .deliver n => s.calls[n]?.toList.map .delivered
  | .lose _ | .backend _ => []

end System

/-- What the history says of the tokens. -/
def tokens (log : List Entry) : List Event :=
  log.filterMap fun
    | .token e => some e
    | _ => none

/-- The identities for which a registration has come in at the backend. -/
def registrations (log : List Entry) : List Identity :=
  log.flatMap fun
    | .delivered call => call.registers
    | _ => []

/-- A request has presented a token of the identity, at a time when the token was outstanding to
it, and has called the backend. -/
def Entitled (log : List Entry) (i : Identity) : Prop :=
  ∃ pre post token call, log = pre ++ .called (some token) call :: post ∧ call.identity = i ∧
    Outstanding (tokens pre) token i

theorem tokens_append : tokens (log ++ log') = tokens log ++ tokens log' := List.filterMap_append ..

theorem registrations_append :
    registrations (log ++ log') = registrations log ++ registrations log' := List.flatMap_append ..

theorem Entitled.append (h : Entitled log i) (log' : List Entry) : Entitled (log ++ log') i := by
  obtain ⟨pre, post, token, call, rfl, hi, hout⟩ := h
  exact ⟨pre, post ++ log', token, call, by simp, hi, hout⟩

theorem Outstanding.issued (h : Outstanding log token i) : .issued token i ∈ log := by
  obtain ⟨pre, post, rfl, -⟩ := h
  simp

/-- What the history says of a call that is on its way. -/
structure Called (log : List Entry) (call : BackendCall) : Prop where
  valid : call.identity.valid
  issued : ∃ token, .issued token call.identity ∈ tokens log
  entitled : call.registers = [] → Entitled log call.identity

theorem Called.append (h : Called log call) (log' : List Entry) : Called (log ++ log') call where
  valid := h.valid
  issued := by
    obtain ⟨token, hmem⟩ := h.issued
    exact ⟨token, tokens_append ▸ List.mem_append_left _ hmem⟩
  entitled hcall := (h.entitled hcall).append log'

structure Sound (ctx : Context) (log : List Entry) (s : System B) : Prop where
  bound : Bound ctx (tokens log) s.web
  calls : ∀ call ∈ s.calls, Called log call
  lawful : Lawful (registrations log) (Entitled log) s.backend
  listed : Listed (registrations log) s.backend
  issued : ∀ i ∈ registrations log, ∃ token, .issued token i ∈ tokens log

section
variable {ctx : Context} {s s' : System B}

theorem registers_of_registerDevice {w : WebServer}
    (h : (w.registerDevice ctx pd key backend).call = some call) :
    call.registers = [call.identity] := by
  simp only [WebServer.registerDevice] at h
  split at h
  · cases h
  · split at h
    · cases h
    · cases h
      rfl

theorem tokens_map (events : List Event) : tokens (events.map .token) = events := by
  induction events with
  | nil => rfl
  | cons e events ih =>
    change e :: tokens (events.map .token) = e :: events
    rw [ih]

theorem tokens_called (token : Option GoString) (calls : List BackendCall) :
    tokens (calls.map (.called token)) = [] := by
  induction calls with
  | nil => rfl
  | cons call calls ih => exact ih

theorem registrations_request (ctx : Context) (s : System B) (r : Request) :
    registrations (s.entries ctx (.request r)) = [] := by
  apply List.flatMap_eq_nil_iff.mpr
  intro e he
  rcases List.mem_append.mp he with he | he
  all_goals
    obtain ⟨x, -, rfl⟩ := List.mem_map.mp he
    rfl

theorem tokens_request (ctx : Context) (s : System B) (r : Request) :
    tokens (s.entries ctx (.request r)) = s.web.events ctx r := by
  rw [System.entries, tokens_append, tokens_called, tokens_map, List.nil_append]

theorem tokens_deliver (ctx : Context) (s : System B) (n : Nat) :
    tokens (s.entries ctx (.deliver n)) = [] := by
  apply List.filterMap_eq_nil_iff.mpr
  intro e he
  obtain ⟨call, -, rfl⟩ := List.mem_map.mp he
  rfl

variable (hinj : ∀ key, Function.Injective (ctx.hmacSha256 key))
  (hbytes : ∀ key message, GoString.IsBytes (ctx.hmacSha256 key message))
include hinj hbytes

/-- The call that a request makes. -/
theorem Sound.called (h : Sound ctx log s) {r : Request}
    (hcall : (s.web.handle ctx r).call = some call) :
    Called (log ++ s.entries ctx (.request r)) call := by
  have hpresents {token} (htoken : r.token = some token) (hvalid : call.identity.valid)
      (haccepts : s.web.accepts ctx call.identity token) :
      Called (log ++ s.entries ctx (.request r)) call := by
    have hout := h.bound.outstanding hinj hbytes hvalid haccepts
    refine ⟨hvalid, ⟨token, ?_⟩, fun _ => ?_⟩
    · rw [tokens_append]
      exact List.mem_append_left _ hout.issued
    · refine ⟨log, (s.web.events ctx r).map .token, token, call, ?_, rfl, hout⟩
      rw [System.entries, hcall, htoken]
      rfl
  cases r with
  | register pd key backend =>
    rcases registerDevice_cases ctx s.web pd key backend with ⟨-, hnone⟩ | ⟨_, hvalid, hsome, -⟩
    · cases hnone.symm.trans hcall
    · cases hsome.symm.trans hcall
      have hissued : s.web.events ctx (.register pd key backend) =
          [.issued (createAuthToken ctx call.identity key) call.identity] := by
        simp only [WebServer.events, hcall]
      refine ⟨hvalid, ⟨createAuthToken ctx call.identity key, ?_⟩, ?_⟩
      · rw [tokens_append, tokens_request, hissued]
        exact List.mem_append_right _ List.mem_cons_self
      · intro hnil
        cases (registers_of_registerDevice hcall).symm.trans hnil
  | defer dp backend =>
    obtain ⟨hvalid, haccepts⟩ := (deferPolling_cases ctx s.web dp backend).2 call hcall
    exact hpresents rfl hvalid haccepts
  | stop sp backend =>
    rcases stopPolling_cases ctx s.web sp backend with
      ⟨-, hnone⟩ | ⟨_, hvalid, haccepts, hsome, -⟩
    · cases hnone.symm.trans hcall
    · cases hsome.symm.trans hcall
      exact hpresents rfl hvalid haccepts

theorem Sound.request (h : Sound ctx log s) (hs : s.step ctx (.request r) = some s') :
    Sound ctx (log ++ s.entries ctx (.request r)) s' := by
  have hcalled {call} (hcall : (s.web.handle ctx r).call = some call) :
      Called (log ++ s.entries ctx (.request r)) call := h.called hinj hbytes hcall
  cases hs
  have hregs : registrations (log ++ s.entries ctx (.request r)) = registrations log := by
    rw [registrations_append, registrations_request, List.append_nil]
  refine ⟨?_, ?_, ?_, ?_, ?_⟩
  · rw [tokens_append, tokens_request]
    exact h.bound.step rfl
  · intro call hmem
    rcases List.mem_append.mp hmem with hmem | hmem
    · exact (h.calls call hmem).append _
    · exact hcalled (Option.mem_toList.mp hmem)
  · rw [hregs, ← List.append_nil (registrations log)]
    exact h.lawful.mono [] fun i hi => hi.append _
  · rw [hregs]
    exact h.listed
  · rw [hregs]
    intro i hi
    obtain ⟨token, hmem⟩ := h.issued i hi
    exact ⟨token, tokens_append ▸ List.mem_append_left _ hmem⟩

omit hinj hbytes

theorem Sound.deliver (h : Sound ctx log s) (hs : s.step ctx (.deliver n) = some s') :
    Sound ctx (log ++ s.entries ctx (.deliver n)) s' := by
  obtain ⟨call, hn, hs⟩ := Option.bind_eq_some_iff.mp hs
  obtain ⟨backend, hb, rfl⟩ := Option.map_eq_some_iff.mp hs
  have hcalled : Called log call := h.calls call (List.mem_of_getElem? hn)
  have hregs : registrations (log ++ s.entries ctx (.deliver n)) =
      registrations log ++ call.registers := by
    rw [registrations_append, System.entries, hn]
    exact congrArg _ (List.append_nil _)
  have htokens : tokens (log ++ s.entries ctx (.deliver n)) = tokens log := by
    rw [tokens_append, tokens_deliver, List.append_nil]
  have hlawful : Lawful (registrations log ++ call.registers) (Entitled log) backend ∧
      Listed (registrations log ++ call.registers) backend := by
    cases call with
    | startPoll pi => exact h.lawful.startPoll h.listed hcalled.valid hb
    | deferPoll i timeout requestData =>
      rw [BackendCall.registers, List.append_nil]
      exact h.lawful.deferPoll h.listed ⟨i.userId, i.clientContext, i.deviceId, timeout⟩
        hcalled.valid (hcalled.entitled rfl) hb
    | stopPoll i =>
      rw [BackendCall.registers, List.append_nil]
      exact h.lawful.stopPoll h.listed ⟨i.userId, i.clientContext, i.deviceId⟩ hcalled.valid
        (hcalled.entitled rfl) hb
  refine ⟨?_, ?_, ?_, ?_, ?_⟩
  · rw [htokens]
    exact h.bound
  · intro call' hmem
    exact (h.calls call' (List.mem_of_mem_eraseIdx hmem)).append _
  · rw [hregs, ← List.append_nil (_ ++ call.registers)]
    exact hlawful.1.mono [] fun i hi => hi.append _
  · rw [hregs]
    exact hlawful.2
  · rw [hregs, htokens]
    intro i hi
    rcases List.mem_append.mp hi with hi | hi
    · exact h.issued i hi
    · cases call with
      | startPoll pi =>
        rw [List.mem_singleton.mp hi]
        exact hcalled.issued
      | deferPoll | stopPoll => cases hi

include hinj hbytes

theorem Sound.step (h : Sound ctx log s) {a : SystemAct B} (hs : s.step ctx a = some s') :
    Sound ctx (log ++ s.entries ctx a) s' := by
  cases a with
  | request r => exact h.request hinj hbytes hs
  | deliver n => exact h.deliver hs
  | lose n =>
    simp only [System.step] at hs
    split at hs <;> cases hs
    rw [System.entries, List.append_nil]
    exact ⟨h.bound, fun call hmem => h.calls call (List.mem_of_mem_eraseIdx hmem), h.lawful,
      h.listed, h.issued⟩
  | backend a =>
    simp only [System.step] at hs
    split at hs
    next ha =>
      obtain ⟨backend, hb, rfl⟩ := Option.map_eq_some_iff.mp hs
      obtain ⟨hlawful, hlisted⟩ := h.lawful.inner h.listed ha hb
      rw [System.entries, List.append_nil]
      exact ⟨h.bound, h.calls, hlawful, hlisted, h.issued⟩
    · cases hs

end

theorem sound_init (ctx : Context) : Sound ctx [] ({} : System B) where
  bound := nofun
  calls := nofun
  lawful := {
    origins := ⟨.init, ⟨nofun, nofun, nofun⟩, nofun, nofun, nofun⟩
    held := nofun
    holder := nofun
    task := nofun
    stopped := fun h => absurd rfl h
    alone := fun _ => .inl ⟨[], .nil⟩ }
  listed := ⟨[], rfl, rfl⟩
  issued := nofun

/-! ## Isolation -/

/-- No task runs on the session, no holder of the lock has to do with it, and it has been issued no
stop: it has gone on by itself. -/
structure Undisturbed (s : Server B) (sid : Nat) : Prop where
  task : s.tasks g ≠ some (sid, t)
  holder : s.lock = some h → h.sid ≠ sid
  stops : s.reg.stops sid = []
  alone : s.Alone sid

/-- In every run of the web server, the calls and the backend, every session was registered for a
valid identity to which a token was issued; and the session is undisturbed, unless a request has
presented an outstanding token of that very identity or the identity was registered twice. -/
theorem session_isolated (ctx : Context) (hinj : ∀ key, Function.Injective (ctx.hmacSha256 key))
    (hbytes : ∀ key message, GoString.IsBytes (ctx.hmacSha256 key message)) {s : System B}
    (h : Run (System.step ctx) Free {} as s) (hsid : s.backend.reg.sessions sid = some mi) :
    let log := observe (System.step ctx) (System.entries ctx) ({} : System B) as
    (mi.identity.valid ∧ ∃ token, .issued token mi.identity ∈ tokens log) ∧
      (Undisturbed s.backend sid ∨ Entitled log mi.identity ∨
        (registrations log).Duplicate mi.identity) := by
  intro log
  have hsound : Sound ctx ([] ++ log) s :=
    h.observe_inv (fun h _ hs => h.step hinj hbytes hs) (sound_init ctx)
  rw [List.nil_append] at hsound
  have hlawful := hsound.lawful
  obtain ⟨c, hd, -⟩ := hlawful.origins.session hsid
  refine ⟨⟨hlawful.origins.registered.session hsid,
    hsound.issued _ (List.mem_of_getElem? hd)⟩, ?_⟩
  by_cases hx : Excused (registrations log) (Entitled log) s.backend.reg sid
  · obtain ⟨mi', hsid', hx⟩ := hx
    cases hsid.symm.trans hsid'
    exact .inr hx
  · refine .inl ⟨?_, ?_, ?_, (hlawful.alone sid).resolve_right hx⟩
    · intro g t ht
      exact hx (hlawful.task ht)
    · rintro holder hl rfl
      exact hx (hlawful.holder hl)
    · apply Classical.byContradiction
      intro hne
      exact hx (hlawful.stopped hne)

/-- The iPad registers, and its session is created and taken into the map. -/
def ipadActs : List (SystemAct Server.activeSyncBackend) :=
  [.request ipadRegister, .deliver 0, .backend (.create 0 true), .backend (.offer 0)]

def ipadLog : List Entry :=
  observe (System.step ipadContext) (System.entries ipadContext) {} ipadActs

/-- No request has presented a token. -/
def unpresented (log : List Entry) : Bool :=
  log.all fun
    | .called (some _) _ => false
    | _ => true

theorem Entitled.presented (h : Entitled log i) : unpresented log = false := by
  obtain ⟨pre, post, token, call, rfl, -, -⟩ := h
  simp [unpresented]

theorem session_isolated_ipad :
    ∃ s mi, Run (System.step ipadContext) Free {} ipadActs s ∧
      s.backend.reg.pollMap identity.key = some 0 ∧ s.backend.reg.sessions 0 = some mi ∧
      Undisturbed s.backend 0 := by
  have heval : (exec (System.step ipadContext) {} ipadActs).any fun s =>
      s.backend.reg.pollMap identity.key = some 0 ∧ (s.backend.reg.sessions 0).isSome := by
    decide +kernel
  have hlog : unpresented ipadLog ∧ registrations ipadLog = [identity] := by decide +kernel
  rcases hexec : exec (System.step ipadContext) {} ipadActs with _ | s <;> rw [hexec] at heval
  · cases heval
  · obtain ⟨hkey, hsome⟩ := of_decide_eq_true heval
    obtain ⟨mi, hmi⟩ := Option.isSome_iff_exists.mp hsome
    have hrun := Run.of_exec hexec
    refine ⟨s, mi, hrun, hkey, hmi, ?_⟩
    rcases (session_isolated ipadContext ipadContext_injective ipadContext_bytes hrun hmi).2 with
      hundisturbed | hentitled | htwice
    · exact hundisturbed
    · cases hlog.1.symm.trans hentitled.presented
    · have htwice : List.Duplicate mi.identity [identity] := hlog.2 ▸ htwice
      exact absurd htwice (List.not_duplicate_singleton _ _)

end Web
end Pinger
