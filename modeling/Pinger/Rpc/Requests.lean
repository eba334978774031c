import Pinger.Rpc.Ownership

/-! # Requests that meet a creation on its way

`RPCStartPoll` replies before the session exists, and `createNewPingerSession` looks at the map but
not at the requests that came in between. So a stop is lost, and an older registration wins, when
the goroutine of a creation is late. -/

namespace Pinger.Rpc

open Transition

/-- The key of a creation that has not returned. -/
def Creation.key : Creation → Option GoString
  | .pending mi | .created mi _ => some mi.pollMapKey
  | .absent | .finished _ => none

/-- The key a registration is for. -/
def Act.registers : Act → Option GoString
  | .startPoll mi _ => some mi.pollMapKey
  | _ => none

section
variable {r r' t : Registry}

/-- A creation for a key comes from a registration of that key. -/
theorem Stepped.creation_key (h : Stepped r a r') (hk : (r'.creations c).key = some key) :
    (r.creations c).key = some key ∨ a.registers = some key ∧ c = r.ncreations := by
  cases h.creationStep c with
  | same heq => exact .inl (heq ▸ hk)
  | spawn hc hp => rw [hp] at hk; exact .inr ⟨hk, hc⟩
  | create hp hp' _ => rw [hp'] at hk; rw [hp]; exact .inl hk
  | fail _ hp' | refused _ hp' _ _ | stored _ hp' _ _ => rw [hp'] at hk; cases hk

/-! ## Stops -/

/-- No session is in the map under `key`, and no creation for it is on its way. -/
def Quiet (key : GoString) (r : Registry) : Prop :=
  r.pollMap key = none ∧ ∀ c, (r.creations c).key ≠ some key

theorem Quiet.step (hq : Quiet key r) (ha : a.registers ≠ some key) (h : Stepped r a r') :
    Quiet key r' := by
  refine ⟨?_, fun c hc => ?_⟩
  · cases h.keyStep key with
    | same heq => exact heq.trans hq.1
    | removed _ _ hnone _ => exact hnone
    | stored hp hkey _ _ =>
      subst hkey
      exact absurd (congrArg Creation.key hp) (hq.2 _)
  · rcases h.creation_key hc with hc | ⟨hreg, -⟩
    · exact hq.2 c hc
    · exact ha hreg

/-- No session for `key` is in the map, and a stop has been issued to each. -/
def AllStopped (key : GoString) (r : Registry) : Prop :=
  r.pollMap key = none ∧
    ∀ sid mi, r.sessions sid = some mi → mi.pollMapKey = key → r.stops sid ≠ []

theorem Quiet.allStopped (hinv : Inv r) (hq : Quiet key r) : AllStopped key r := by
  refine ⟨hq.1, fun sid mi hs hkey => ?_⟩
  obtain ⟨o, ho, -⟩ := hinv.owner (hinv.numbered hs)
  cases o with
  | unoffered c =>
    obtain ⟨mi', hc⟩ := ho
    cases hs.symm.trans (hinv.built hc)
    subst hkey
    exact absurd (congrArg Creation.key hc) (hq.2 c)
  | stored key' =>
    obtain ⟨mi', hs', hkey'⟩ := hinv.keyed ho
    cases hs.symm.trans hs'
    subst hkey hkey'
    cases ho.symm.trans hq.1
  | stopped a => exact List.ne_nil_of_mem ho

/-- The stop request `args`, served in `r`, is kept: when no later registration of its key is made
and every creation for it has returned, its sessions are stopped. -/
def StopKept (r : Registry) (args : StopPollArgs) : Prop :=
  ∀ post t, Run Registry.step Free r (.stopPoll args :: post) t →
    (∀ a ∈ post, a.registers ≠ some args.pollMapKey) →
    (∀ c, (t.creations c).key ≠ some args.pollMapKey) → AllStopped args.pollMapKey t

/-- A creation for `key` can return while a session is in the map. -/
theorem finish_one (hk : r.pollMap key = some sid) (hc : (r.creations n).key = some key) :
    ∃ a r', r.step a = some r' ∧ a.registers = none ∧ r'.pollMap key = some sid ∧
      r'.ncreations = r.ncreations ∧ (r'.creations n).key = none ∧
      ∀ c ≠ n, r'.creations c = r.creations c := by
  cases hp : r.creations n with
  | absent => rw [hp] at hc; cases hc
  | finished x => rw [hp] at hc; cases hc
  | pending mi =>
    refine ⟨.create n false, r.setCreation n (.finished none), ?_, rfl, hk, rfl, ?_, ?_⟩
    · simp only [Registry.step, hp]
      rfl
    · simp [Registry.setCreation, Creation.key]
    · intro c hne
      exact Function.update_of_ne hne ..
  | created mi s =>
    have hkey : mi.pollMapKey = key := by rw [hp] at hc; exact Option.some.inj hc
    refine ⟨.offer n, (r.issueStop s (.offer n)).setCreation n (.finished (some s)), ?_, rfl, hk,
      rfl, ?_, ?_⟩
    · simp only [Registry.step, hp, offer, hkey, hk]
    · simp [Registry.setCreation, Creation.key]
    · intro c hne
      exact Function.update_of_ne hne ..

theorem finish_below (hk : r.pollMap key = some sid) (n : Nat) :
    ∃ post t, Run Registry.step Free r post t ∧ (∀ a ∈ post, a.registers = none) ∧
      t.pollMap key = some sid ∧ t.ncreations = r.ncreations ∧
      ∀ c < n, (t.creations c).key ≠ some key := by
  induction n with
  | zero =>
    refine ⟨[], r, .nil, fun _ hb => (nomatch hb), hk, rfl, fun c hlt => ?_⟩
    exact absurd hlt (Nat.not_lt_zero c)
  | succ n ih =>
    obtain ⟨post, t, hrun, hreg, hmap, hn, hdone⟩ := ih
    by_cases hc : (t.creations n).key = some key
    · obtain ⟨a, t', hs, ha, hmap', hn', hnone, hsame⟩ := finish_one hmap hc
      refine ⟨post ++ [a], t', hrun.snoc trivial hs, ?_, hmap', hn'.trans hn, ?_⟩
      · intro b hb
        rcases List.mem_append.mp hb with hb | hb
        · exact hreg b hb
        · exact List.mem_singleton.mp hb ▸ ha
      · intro c hlt
        rcases Nat.lt_succ_iff_lt_or_eq.mp hlt with hlt | rfl
        · rw [hsame c (Nat.ne_of_lt hlt)]
          exact hdone c hlt
        · rw [hnone]
          nofun
    · refine ⟨post, t, hrun, hreg, hmap, hn, fun c hlt => ?_⟩
      rcases Nat.lt_succ_iff_lt_or_eq.mp hlt with hlt | rfl
      · exact hdone c hlt
      · exact hc

/-- All creations for `key` can return with session `sid` in the map. -/
theorem finish_all (hinv : Inv r) (hk : r.pollMap key = some sid) :
    ∃ post t, Run Registry.step Free r post t ∧ (∀ a ∈ post, a.registers = none) ∧
      t.pollMap key = some sid ∧ ∀ c, (t.creations c).key ≠ some key := by
  obtain ⟨post, t, hrun, hreg, hmap, hn, hdone⟩ := finish_below hk r.ncreations
  refine ⟨post, t, hrun, hreg, hmap, fun c => ?_⟩
  have htinv : Inv t := hrun.inv (fun hinv _ hs => (step_cases hs).inv hinv) hinv
  by_cases hlt : c < r.ncreations
  · exact hdone c hlt
  · rw [htinv.unborn (hn ▸ Nat.le_of_not_lt hlt)]
    nofun

/-- A creation for a key without a session can put its own there. -/
theorem store_late (hk : r.pollMap key = none) (hc : (r.creations c).key = some key) :
    ∃ post t sid, Run Registry.step Free r post t ∧ (∀ a ∈ post, a.registers = none) ∧
      t.pollMap key = some sid := by
  have hoffer {r : Registry} {mi s} (hk : r.pollMap key = none) (hkey : mi.pollMapKey = key)
      (hp : r.creations c = .created mi s) :
      ∃ t, r.step (.offer c) = some t ∧ t.pollMap key = some s := by
    subst hkey
    refine ⟨(r.store mi.pollMapKey s).setCreation c (.finished (some s)), ?_,
      Function.update_self ..⟩
    simp only [Registry.step, hp, offer, hk]
  cases hp : r.creations c with
  | absent => rw [hp] at hc; cases hc
  | finished x => rw [hp] at hc; cases hc
  | pending mi =>
    have hkey : mi.pollMapKey = key := by rw [hp] at hc; exact Option.some.inj hc
    have hs : r.step (.create c true) = some (r.addSession c mi) := by
      simp only [Registry.step, hp]
      rfl
    have hp' : (r.addSession c mi).creations c = .created mi r.nsessions :=
      Function.update_self ..
    obtain ⟨t, ht, hmap⟩ := hoffer (r := r.addSession c mi) hk hkey hp'
    exact ⟨[.create c true, .offer c], t, _, .cons trivial hs (.single trivial ht),
      by simp [Act.registers], hmap⟩
  | created mi s =>
    have hkey : mi.pollMapKey = key := by rw [hp] at hc; exact Option.some.inj hc
    obtain ⟨t, ht, hmap⟩ := hoffer hk hkey hp
    exact ⟨[.offer c], t, s, .single trivial ht, by simp [Act.registers], hmap⟩

/-- A stop request is kept if and only if no creation for its key is on its way when it is
served. -/
theorem stop_kept_iff (h : Run Registry.step Free {} as r) :
    StopKept r args ↔ ∀ c, (r.creations c).key ≠ some args.pollMapKey := by
  have hinv := history_inv h
  have hs : r.step (.stopPoll args) = some (rpcStopPoll r args).1 := rfl
  have hnone : (rpcStopPoll r args).1.pollMap args.pollMapKey = none :=
    (step_cases hs).requested rfl
  have hinv' : Inv (rpcStopPoll r args).1 := (step_cases hs).inv hinv
  have hsame : (rpcStopPoll r args).1.creations = r.creations := by
    unfold rpcStopPoll
    split <;> rfl
  constructor
  · intro hkept c hc
    obtain ⟨post₁, t₁, sid, hrun₁, hreg₁, hmap₁⟩ := store_late hnone (hsame ▸ hc)
    have hinv₁ : Inv t₁ := hrun₁.inv (fun hinv _ hs => (step_cases hs).inv hinv) hinv'
    obtain ⟨post₂, t₂, hrun₂, hreg₂, hmap₂, hdone⟩ := finish_all hinv₁ hmap₁
    have hreg : ∀ a ∈ post₁ ++ post₂, a.registers ≠ some args.pollMapKey := by
      intro a ha
      rcases List.mem_append.mp ha with ha | ha
      · rw [hreg₁ a ha]; nofun
      · rw [hreg₂ a ha]; nofun
    have hstopped := hkept _ _ (.cons trivial hs (hrun₁.append hrun₂)) hreg hdone
    cases hmap₂.symm.trans hstopped.1
  · intro hquiet post t hrun hreg _
    cases hrun with
    | cons _ hs' hrun =>
      obtain rfl := Option.some.inj (hs.symm.trans hs')
      have hq : Quiet args.pollMapKey (rpcStopPoll r args).1 := ⟨hnone, hsame ▸ hquiet⟩
      have hboth : Inv t ∧ Quiet args.pollMapKey t :=
        (hrun.restrict hreg).inv (I := fun r => Inv r ∧ Quiet args.pollMapKey r)
          (fun hI ha hs => ⟨(step_cases hs).inv hI.1, hI.2.step ha (step_cases hs)⟩) ⟨hinv', hq⟩
      exact hboth.2.allStopped hboth.1

def stopDevice : StopPollArgs := ⟨device.userId, device.clientContext, device.deviceId⟩

/-- A stop after the creation has returned. -/
theorem stop_kept_iff_stored :
    ∃ r, Run Registry.step Free {} [.startPoll device (.initialized, none), .create 0 true,
        .offer 0] r ∧ StopKept r stopDevice :=
  have h : Run Registry.step Free {} [.startPoll device (.initialized, none), .create 0 true,
      .offer 0] _ := Run.of_exec rfl
  ⟨_, h, (stop_kept_iff h).mpr fun c => by
    cases c with
    | zero => nofun
    | succ c => nofun⟩

/-- A registration is acknowledged. The stop that follows finds no session, and the session is
stored after it. -/
theorem late_creation_unstopped :
    ∃ r t, Run Registry.step Free {} [.startPoll device (.initialized, none)] r ∧
      (rpcStopPoll r stopDevice).2.message = GoString.lit "No active sessions found" ∧
      Run Registry.step Free r [.stopPoll stopDevice, .create 0 true, .offer 0] t ∧
      (∀ c, (t.creations c).key ≠ some stopDevice.pollMapKey) ∧
      t.pollMap stopDevice.pollMapKey = some 0 ∧ t.stops 0 = [] ∧
      ¬AllStopped stopDevice.pollMapKey t :=
  ⟨_, _, Run.of_exec rfl, rfl, Run.of_exec rfl, fun c => by
    cases c with
    | zero => nofun
    | succ c => nofun, rfl, rfl, fun h => Option.some_ne_none 0 h.1⟩

/-! ## Registrations -/

/-- A creation has not come to the map yet. -/
def Before (r : Registry) (c : Nat) (mi : MailPingInformation) : Prop :=
  r.creations c = .pending mi ∨ ∃ sid, r.creations c = .created mi sid

/-- A creation has returned, and a stop has been issued to the session it has made. -/
def Lost (r : Registry) (c : Nat) (mi : MailPingInformation) : Prop :=
  r.creations c = .finished none ∨ ∃ sid, r.creations c = .finished (some sid) ∧
    r.sessions sid = some mi ∧ r.stops sid ≠ []

/-- A creation has returned, and its session is in the map. -/
def Holds (r : Registry) (c : Nat) (mi : MailPingInformation) : Prop :=
  ∃ sid, r.creations c = .finished (some sid) ∧ r.sessions sid = some mi ∧
    r.pollMap mi.pollMapKey = some sid

/-- The creations `cs` are all there have been for `key`, and the session in the map is that of
creation `w`. -/
structure Contest (key : GoString) (cs : List (Nat × MailPingInformation)) (w : Option Nat)
    (r : Registry) : Prop where
  keys : (c, mi) ∈ cs → mi.pollMapKey = key
  sole : (r.creations c).key = some key → ∃ mi, (c, mi) ∈ cs
  free : w = none → r.pollMap key = none
  holder : w = some c → ∃ mi, (c, mi) ∈ cs
  holds : (c, mi) ∈ cs → w = some c → Holds r c mi
  waits : (c, mi) ∈ cs → w ≠ some c → Before r c mi ∨ Lost r c mi

theorem Contest.init : Contest key [] none {} where
  keys h := nomatch h
  sole h := nomatch h
  free _ := rfl
  holder h := nomatch h
  holds h := nomatch h
  waits h := nomatch h

theorem Stepped.finished (hinv : Inv r) (h : Stepped r a r') (hf : r.creations c = .finished x) :
    r'.creations c = .finished x := by
  cases h.creationStep c with
  | same heq => exact heq.trans hf
  | spawn heq _ => cases (hinv.unborn (Nat.le_of_eq heq.symm)).symm.trans hf
  | create hp _ _ | fail hp _ | refused hp _ _ _ | stored hp _ _ _ => cases hp.symm.trans hf

theorem Lost.step (hinv : Inv r) (hl : Lost r c mi) (h : Stepped r a r') : Lost r' c mi := by
  rcases hl with hl | ⟨sid, hf, hs, hstop⟩
  · exact .inl (h.finished hinv hl)
  · exact .inr ⟨sid, h.finished hinv hf, h.sessions hinv hs, h.stops_mono hstop⟩

theorem Holds.step (hinv : Inv r) (hh : Holds r c mi) (ha : a.requests ≠ some mi.pollMapKey)
    (h : Stepped r a r') : Holds r' c mi := by
  obtain ⟨sid, hf, hs, hk⟩ := hh
  refine ⟨sid, h.finished hinv hf, h.sessions hinv hs, ?_⟩
  cases h.keyStep mi.pollMapKey with
  | same heq => exact heq.trans hk
  | removed hreq _ _ _ => exact absurd hreq ha
  | stored _ _ hnone _ => cases hnone.symm.trans hk

/-- A creation that has not returned wins by offering its session while the map has none. -/
theorem Before.step (hinv : Inv r) (hb : Before r c mi) (h : Stepped r a r') :
    ((Before r' c mi ∨ Lost r' c mi) ∧ (a = .offer c → r.pollMap mi.pollMapKey ≠ none)) ∨
      a = .offer c ∧ r.pollMap mi.pollMapKey = none ∧ Holds r' c mi := by
  cases h.creationStep c with
  | same heq =>
    refine .inl ⟨.inl (by unfold Before; rw [heq]; exact hb), ?_⟩
    rintro rfl
    -- an offer does not leave its creation as it was
    cases h with
    | refused hp _ | stored hp _ => cases ((Function.update_self ..).symm.trans heq).trans hp
  | spawn heq _ =>
    have hnone := hinv.unborn (Nat.le_of_eq heq.symm)
    rcases hb with hb | ⟨_, hb⟩ <;> cases hnone.symm.trans hb
  | create hp hp' _ =>
    rcases hb with hb | ⟨_, hb⟩ <;> cases hp.symm.trans hb
    exact .inl ⟨.inl (.inr ⟨_, hp'⟩), nofun⟩
  | fail _ hp' => exact .inl ⟨.inr (.inl hp'), nofun⟩
  | refused hp hp' hk hstop =>
    rcases hb with hb | ⟨_, hb⟩ <;> cases hp.symm.trans hb
    refine .inl ⟨.inr (.inr ⟨_, hp', h.sessions hinv (hinv.built hp), ?_⟩), fun _ => ?_⟩
    · exact List.ne_nil_of_mem hstop
    · rw [hk]
      nofun
  | stored hp hp' hnone hk =>
    rcases hb with hb | ⟨_, hb⟩ <;> cases hp.symm.trans hb
    exact .inr ⟨rfl, hnone, _, hp', h.sessions hinv (hinv.built hp), hk⟩

namespace Contest

theorem entry_step (hinv : Inv r) (he : Before r c mi ∨ Lost r c mi) (h : Stepped r a r') :
    ((Before r' c mi ∨ Lost r' c mi) ∧ (a = .offer c → r.pollMap mi.pollMapKey ≠ none)) ∨
      a = .offer c ∧ r.pollMap mi.pollMapKey = none ∧ Holds r' c mi := by
  rcases he with hb | hl
  · exact hb.step hinv h
  · refine .inl ⟨.inr (hl.step hinv h), ?_⟩
    rintro rfl
    -- a creation that has returned offers nothing
    cases h with
    | refused hp _ | stored hp _ => rcases hl with hl | ⟨_, hl, _⟩ <;> cases hp.symm.trans hl

theorem step (hinv : Inv r) (hc : Contest key cs w r) (ha : a.requests ≠ some key)
    (h : Stepped r a r') :
    (∃ c mi, w = none ∧ (c, mi) ∈ cs ∧ a = .offer c ∧ Contest key cs (some c) r') ∨
      (∀ c mi, w = none → (c, mi) ∈ cs → a ≠ .offer c) ∧ Contest key cs w r' := by
  have hsole {c} (hkey : (r'.creations c).key = some key) : ∃ mi, (c, mi) ∈ cs := by
    rcases h.creation_key hkey with hkey | ⟨hreg, -⟩
    · exact hc.sole hkey
    · cases a with
      | startPoll mi status => exact absurd hreg ha
      | _ => cases hreg
  by_cases hwin : ∃ c mi, w = none ∧ (c, mi) ∈ cs ∧ a = .offer c
  · obtain ⟨c, mi, rfl, hmem, rfl⟩ := hwin
    refine .inl ⟨c, mi, rfl, hmem, rfl, hc.keys, hsole, nofun, ?_, ?_, ?_⟩
    · rintro _ ⟨⟩
      exact ⟨mi, hmem⟩
    · rintro c' mi' hmem' ⟨⟩
      rcases entry_step hinv (hc.waits hmem' nofun) h with ⟨-, hsome⟩ | ⟨-, -, hh⟩
      · exact absurd (hc.keys hmem' ▸ hc.free rfl) (hsome rfl)
      · exact hh
    · intro c' mi' hmem' hne
      rcases entry_step hinv (hc.waits hmem' nofun) h with ⟨he, -⟩ | ⟨heq, -⟩
      · exact he
      · cases heq
        exact absurd rfl hne
  · refine .inr ⟨fun c mi hw hmem heq => hwin ⟨c, mi, hw, hmem, heq⟩, hc.keys, hsole, ?_,
      hc.holder, ?_, ?_⟩
    · intro hw
      cases h.keyStep key with
      | same heq => exact heq.trans (hc.free hw)
      | removed hreq _ _ _ => exact absurd hreq ha
      | stored hp hkey _ _ =>
        subst hkey
        obtain ⟨mi, hmem⟩ := hc.sole (congrArg Creation.key hp)
        exact absurd ⟨_, mi, hw, hmem, rfl⟩ hwin
    · intro c mi hmem hw
      exact (hc.holds hmem hw).step hinv (hc.keys hmem ▸ ha) h
    · intro c mi hmem hne
      rcases entry_step hinv (hc.waits hmem hne) h with ⟨he, -⟩ | ⟨heq, hnone, -⟩
      · exact he
      · cases w with
        | none => exact absurd ⟨c, mi, rfl, hmem, heq⟩ hwin
        | some c' =>
          obtain ⟨mi', hmem'⟩ := hc.holder rfl
          obtain ⟨sid, -, -, hk⟩ := hc.holds hmem' rfl
          rw [hc.keys hmem', ← hc.keys hmem, hnone] at hk
          cases hk

theorem start (hinv : Inv r) (hc : Contest key cs w r) (hkey : mi.pollMapKey = key)
    (h : Stepped r (.startPoll mi status) r') : Contest key ((r.ncreations, mi) :: cs) none r' := by
  have hpending : r'.creations r.ncreations = .pending mi := by
    cases h with
    | replaced _ | started _ => exact Function.update_self ..
  have hnone : r'.pollMap key = none := h.requested (congrArg some hkey)
  refine ⟨?_, ?_, fun _ => hnone, nofun, fun _ h => (nomatch h), ?_⟩
  · intro c mi' hmem
    rcases List.mem_cons.mp hmem with heq | hmem
    · cases heq
      exact hkey
    · exact hc.keys hmem
  · intro c hkey'
    rcases h.creation_key hkey' with hkey' | ⟨-, rfl⟩
    · obtain ⟨mi', hmem⟩ := hc.sole hkey'
      exact ⟨mi', List.mem_cons_of_mem _ hmem⟩
    · exact ⟨mi, List.mem_cons_self⟩
  · intro c mi' hmem _
    rcases List.mem_cons.mp hmem with heq | hmem
    · cases heq
      exact .inl (.inl hpending)
    · by_cases hw : w = some c
      · -- the session in the map gets a stop
        obtain ⟨sid, hf, hs, hk⟩ := hc.holds hmem hw
        rw [hc.keys hmem] at hk
        refine .inr (.inr ⟨sid, h.finished hinv hf, h.sessions hinv hs, ?_⟩)
        cases h.keyStep key with
        | same heq => cases (heq.trans hk).symm.trans hnone
        | removed _ hk' _ hstop =>
          cases hk.symm.trans hk'
          exact List.ne_nil_of_mem hstop
      · rcases entry_step hinv (hc.waits hmem hw) h with ⟨he, -⟩ | ⟨heq, -⟩
        · exact he
        · cases heq

/-- The session of the first creation that comes to the map stays there. -/
theorem run (hinv : Inv r) (hc : Contest key cs none r) (h : Run Registry.step Free r as t)
    (hq : ∀ a ∈ as, a.requests ≠ some key) :
    (Contest key cs none t ∧ ∀ c mi, (c, mi) ∈ cs → .offer c ∉ as) ∨
      ∃ bs c mi ds, as = bs ++ .offer c :: ds ∧ (c, mi) ∈ cs ∧
        (∀ c' mi', (c', mi') ∈ cs → .offer c' ∉ bs) ∧ Contest key cs (some c) t := by
  induction h with
  | nil => exact .inl ⟨hc, fun _ _ _ => List.not_mem_nil⟩
  | @cons r a r₁ as t _ hs htail ih =>
    have hstep := step_cases hs
    have hq' : ∀ b ∈ as, b.requests ≠ some key := fun b hb => hq b (List.mem_cons_of_mem a hb)
    rcases hc.step hinv (hq a List.mem_cons_self) hstep with
      ⟨c, mi, -, hmem, rfl, hwon⟩ | ⟨hnot, hc'⟩
    · refine .inr ⟨[], c, mi, as, rfl, hmem, fun _ _ _ => List.not_mem_nil, ?_⟩
      have hboth : Inv t ∧ Contest key cs (some c) t := by
        refine (htail.restrict hq').inv (I := fun r => Inv r ∧ Contest key cs (some c) r) ?_
          ⟨hstep.inv hinv, hwon⟩
        intro r b r' hI hb hs
        refine ⟨(step_cases hs).inv hI.1, ?_⟩
        rcases hI.2.step hI.1 hb (step_cases hs) with ⟨_, _, hw, _⟩ | ⟨-, hc⟩
        · cases hw
        · exact hc
      exact hboth.2
    · have hne : ∀ c mi, (c, mi) ∈ cs → .offer c ≠ a := fun c mi hmem heq =>
        hnot c mi rfl hmem heq.symm
      rcases ih (hstep.inv hinv) hc' hq' with ⟨hend, hno⟩ | ⟨bs, c, mi, ds, rfl, hmem, hno, hwon⟩
      · refine .inl ⟨hend, fun c mi hmem hin => ?_⟩
        rcases List.mem_cons.mp hin with heq | hin
        · exact hne c mi hmem heq
        · exact hno c mi hmem hin
      · refine .inr ⟨a :: bs, c, mi, ds, rfl, hmem, fun c' mi' hmem' hin => ?_, hwon⟩
        rcases List.mem_cons.mp hin with heq | hin
        · exact hne c' mi' hmem' heq
        · exact hno c' mi' hmem' hin

end Contest

theorem offered_of_finished (h : Run Registry.step Free r as t) (hr : r.creations c = .pending mi)
    (ht : t.creations c = .finished (some sid)) : .offer c ∈ as := by
  by_contra hno
  have hP : ∀ a ∈ as, a ≠ .offer c := fun a ha heq => hno (heq ▸ ha)
  refine (h.restrict hP).inv (I := fun r => ∀ sid, r.creations c ≠ .finished (some sid)) ?_ ?_ sid ht
  · intro r a r' hI ha hs sid hf
    cases (step_cases hs).creationStep c with
    | same heq => exact hI sid (heq ▸ hf)
    | spawn _ hp | create _ hp _ | fail _ hp => cases hp.symm.trans hf
    | refused _ _ _ _ | stored _ _ _ _ => exact ha rfl
  · intro sid hf
    cases hr.symm.trans hf

/-- After two registrations of a key, with no other request for it. -/
theorem two_starts (hpre : Run Registry.step Free {} pre r₁)
    (hs₁ : r₁.step (.startPoll mi₁ status₁) = some r₁')
    (hmid : Run Registry.step Free r₁' mid r₂)
    (hs₂ : r₂.step (.startPoll mi₂ status₂) = some r₂') (hkey : mi₁.pollMapKey = mi₂.pollMapKey)
    (hqpre : ∀ a ∈ pre, a.requests ≠ some mi₂.pollMapKey)
    (hqmid : ∀ a ∈ mid, a.requests ≠ some mi₂.pollMapKey) :
    Inv r₂' ∧ r₁.ncreations ≠ r₂.ncreations ∧ r₂'.creations r₂.ncreations = .pending mi₂ ∧
      Contest mi₂.pollMapKey [(r₂.ncreations, mi₂), (r₁.ncreations, mi₁)] none r₂' := by
  have hinv₁ : Inv r₁ := history_inv hpre
  have hinv₁' : Inv r₁' := (step_cases hs₁).inv hinv₁
  have hinv₂ : Inv r₂ := hmid.inv (fun hinv _ hs => (step_cases hs).inv hinv) hinv₁'
  have hlt : r₁.ncreations < r₂.ncreations := by
    refine hmid.inv (I := fun r => r₁.ncreations < r.ncreations) ?_ ?_
    · intro r a r' hlt _ hs
      exact Nat.lt_of_lt_of_le hlt (step_cases hs).ncreations_le
    · cases step_cases hs₁ with
      | replaced _ | started _ => exact Nat.lt_succ_self _
  have hnone : Contest mi₂.pollMapKey [] none r₁ := by
    rcases Contest.init.run .init hpre hqpre with ⟨hc, -⟩ | ⟨_, _, _, _, -, hmem, -⟩
    · exact hc
    · cases hmem
  have hone : ∃ w, Contest mi₂.pollMapKey [(r₁.ncreations, mi₁)] w r₂ := by
    have hc := hnone.start hinv₁ hkey (step_cases hs₁)
    rcases hc.run hinv₁' hmid hqmid with ⟨hc, -⟩ | ⟨_, c, _, _, -, -, -, hc⟩
    · exact ⟨none, hc⟩
    · exact ⟨some c, hc⟩
  obtain ⟨w, hone⟩ := hone
  refine ⟨(step_cases hs₂).inv hinv₂, Nat.ne_of_lt hlt, ?_,
    hone.start hinv₂ rfl (step_cases hs₂)⟩
  cases step_cases hs₂ with
  | replaced _ | started _ => exact Function.update_self ..

/-- The session of the second registration is in the map and that of the first is stopped. -/
def LatestWins (t : Registry) (mi₁ mi₂ : MailPingInformation) (sid₁ sid₂ : Nat) : Prop :=
  t.pollMap mi₂.pollMapKey = some sid₂ ∧ t.sessions sid₂ = some mi₂ ∧
    t.sessions sid₁ = some mi₁ ∧ t.stops sid₁ ≠ []

/-- Of two registrations of a key, with no other request for it, the second wins if and only if
the creation for the first does not come to the map between the second request and the creation
for that. -/
theorem latest_wins_iff (hpre : Run Registry.step Free {} pre r₁)
    (hs₁ : r₁.step (.startPoll mi₁ status₁) = some r₁')
    (hmid : Run Registry.step Free r₁' mid r₂)
    (hs₂ : r₂.step (.startPoll mi₂ status₂) = some r₂')
    (hpost : Run Registry.step Free r₂' post t) (hkey : mi₁.pollMapKey = mi₂.pollMapKey)
    (hq : ∀ a ∈ pre ++ mid ++ post, a.requests ≠ some mi₂.pollMapKey)
    (hf₁ : t.creations r₁.ncreations = .finished (some sid₁))
    (hf₂ : t.creations r₂.ncreations = .finished (some sid₂)) :
    LatestWins t mi₁ mi₂ sid₁ sid₂ ↔
      .offer r₁.ncreations ∉ post.takeWhile (· ≠ .offer r₂.ncreations) := by
  simp only [List.mem_append] at hq
  obtain ⟨hinv, hne, hpending, hc⟩ := two_starts hpre hs₁ hmid hs₂ hkey
    (fun a ha => hq a (.inl (.inl ha))) (fun a ha => hq a (.inl (.inr ha)))
  have hinvt : Inv t := hpost.inv (fun hinv _ hs => (step_cases hs).inv hinv) hinv
  have hfirst : ∀ {bs ds c}, (∀ c' mi', (c', mi') ∈
      [(r₂.ncreations, mi₂), (r₁.ncreations, mi₁)] → .offer c' ∉ bs) →
      (bs ++ Act.offer c :: ds).takeWhile (· ≠ .offer r₂.ncreations) =
        bs ++ (Act.offer c :: ds).takeWhile (· ≠ .offer r₂.ncreations) := by
    intro bs ds c hno
    refine List.takeWhile_append_of_pos fun a ha => ?_
    have hne : a ≠ .offer r₂.ncreations := fun heq => hno _ _ List.mem_cons_self (heq ▸ ha)
    exact decide_eq_true hne
  rcases hc.run hinv hpost (fun a ha => hq a (.inr ha)) with
    ⟨-, hno⟩ | ⟨bs, c, mi, ds, rfl, hmem, hno, hwon⟩
  · exact absurd (offered_of_finished hpost hpending hf₂) (hno _ _ List.mem_cons_self)
  rw [hfirst hno]
  simp only [List.mem_cons, Prod.mk.injEq, List.not_mem_nil, or_false] at hmem
  rcases hmem with ⟨rfl, rfl⟩ | ⟨rfl, rfl⟩
  · -- the second creation comes first
    refine ⟨fun _ hin => ?_, fun _ => ?_⟩
    · rw [List.takeWhile_cons_of_neg (by simp), List.append_nil] at hin
      exact hno _ mi₁ (by simp) hin
    · obtain ⟨sid, hf, hs, hk⟩ := hwon.holds List.mem_cons_self rfl
      cases hf.symm.trans hf₂
      have hne' : some r₂.ncreations ≠ some r₁.ncreations := fun heq =>
        hne (Option.some.inj heq).symm
      rcases hwon.waits (List.mem_cons_of_mem _ List.mem_cons_self) hne' with
        (hp | ⟨_, hp⟩) | (hf | ⟨sid', hf, hs', hstop⟩)
      · cases hp.symm.trans hf₁
      · cases hp.symm.trans hf₁
      · cases hf.symm.trans hf₁
      · cases hf.symm.trans hf₁
        exact ⟨hk, hs, hs', hstop⟩
  · -- the first creation comes first, and its session stays in the map
    have hin : Act.offer r₁.ncreations ∈
        bs ++ (Act.offer r₁.ncreations :: ds).takeWhile (· ≠ .offer r₂.ncreations) := by
      rw [List.takeWhile_cons_of_pos (by simpa using hne)]
      exact List.mem_append_right bs List.mem_cons_self
    refine ⟨fun hlatest => ?_, fun hnot => absurd hin hnot⟩
    obtain ⟨sid, hf, -, hk⟩ := hwon.holds (List.mem_cons_of_mem _ List.mem_cons_self) rfl
    cases hf.symm.trans hf₁
    obtain ⟨b, hb⟩ := List.exists_mem_of_ne_nil _ hlatest.2.2.2
    obtain ⟨o, -, huniq⟩ := hinvt.owner (hinvt.known (o := .stored _) hk)
    cases (huniq (.stored _) hk).trans (huniq (.stopped b) hb).symm

end

/-- A second registration of the device, with another protocol. -/
def imapDevice : MailPingInformation := { device with protocol := GoString.lit "IMAP" }

/-- The second request is made after the first session is stored. -/
theorem latest_wins_iff_sequential :
    ∃ t, Run Registry.step Free {}
        [.startPoll device (.initialized, none), .create 0 true, .offer 0,
          .startPoll imapDevice (.pinging, none), .create 1 true, .offer 1] t ∧
      LatestWins t device imapDevice 0 1 :=
  have hmid : Run Registry.step Free (rpcStartPoll {} device (.initialized, none)).1
      [.create 0 true, .offer 0] _ := Run.of_exec rfl
  have hpost : Run Registry.step Free (rpcStartPoll _ imapDevice (.pinging, none)).1
      [.create 1 true, .offer 1] _ := Run.of_exec rfl
  ⟨_, Run.of_exec rfl,
    (latest_wins_iff .nil rfl hmid rfl hpost rfl (by decide) rfl rfl).mpr (by decide)⟩

/-- The creation for the first request overtakes that for the second. -/
theorem first_registration_stored :
    ∃ t, Run Registry.step Free {}
        [.startPoll device (.initialized, none), .startPoll imapDevice (.initialized, none),
          .create 0 true, .create 1 true, .offer 0, .offer 1] t ∧
      t.creations 0 = .finished (some 0) ∧ t.creations 1 = .finished (some 1) ∧
      t.pollMap imapDevice.pollMapKey = some 0 ∧ t.sessions 0 = some device ∧
      ¬LatestWins t device imapDevice 0 1 :=
  ⟨_, Run.of_exec rfl, rfl, rfl, rfl, rfl, fun h => h.2.2.2 rfl⟩

end Pinger.Rpc
