import Pinger.Rpc.Registry

/-! # Every session has one owner

A session belongs to the goroutine that creates it until that goroutine offers it to the map, then
to the map under the key of its registration, and then to the handler that has issued a stop to
it. -/

namespace Pinger.Rpc

open Transition

/-- Who answers for a session. -/
inductive Owner
  | unoffered (c : Nat)
  | stored (key : GoString)
  | stopped (a : Act)

def Registry.Owns (r : Registry) (sid : Nat) : Owner → Prop
  | .unoffered c => ∃ mi, r.creations c = .created mi sid
  | .stored key => r.pollMap key = some sid
  | .stopped a => a ∈ r.stops sid

/-- The ways in which a step gives a session from one owner to the next. -/
inductive Handover : Act → Owner → Owner → Prop
  | stored (key : GoString) : Handover (.offer c) (.unoffered c) (.stored key)
  | refused : Handover (.offer c) (.unoffered c) (.stopped (.offer c))
  | replaced : Handover (.startPoll mi status) (.stored mi.pollMapKey)
      (.stopped (.startPoll mi status))
  | removed : Handover (.stopPoll args) (.stored args.pollMapKey) (.stopped (.stopPoll args))

/-! ## What the operations of the handlers do to the owners -/

section
variable {r r' : Registry}

theorem owns_issueStop :
    (r.issueStop sid a).Owns sid' o ↔ r.Owns sid' o ∨ sid' = sid ∧ o = .stopped a := by
  cases o with
  | unoffered c => simp [Registry.issueStop, Registry.Owns]
  | stored key => simp [Registry.issueStop, Registry.Owns]
  | stopped b =>
    by_cases h : sid' = sid
    · subst h
      simp [Registry.issueStop, Registry.Owns]
    · simp [Registry.issueStop, Registry.Owns, h]

theorem owns_delete : (r.delete key).Owns sid o ↔ r.Owns sid o ∧ o ≠ .stored key := by
  cases o with
  | unoffered c => simp [Registry.delete, Registry.Owns]
  | stored key' =>
    by_cases h : key' = key
    · subst h
      simp [Registry.delete, Registry.Owns]
    · simp [Registry.delete, Registry.Owns, h]
  | stopped b => simp [Registry.delete, Registry.Owns]

theorem owns_store (hk : r.pollMap key = none) :
    (r.store key sid).Owns sid' o ↔ r.Owns sid' o ∨ sid' = sid ∧ o = .stored key := by
  cases o with
  | unoffered c => simp [Registry.store, Registry.Owns]
  | stored key' =>
    by_cases h : key' = key
    · subst h
      simp [Registry.store, Registry.Owns, hk, eq_comm]
    · simp [Registry.store, Registry.Owns, h]
  | stopped b => simp [Registry.store, Registry.Owns]

theorem owns_finish : (r.setCreation c (.finished x)).Owns sid o ↔
    r.Owns sid o ∧ o ≠ .unoffered c := by
  cases o with
  | unoffered c' =>
    by_cases h : c' = c
    · subst h
      simp [Registry.setCreation, Registry.Owns]
    · simp [Registry.setCreation, Registry.Owns, h]
  | stored key => simp [Registry.setCreation, Registry.Owns]
  | stopped b => simp [Registry.setCreation, Registry.Owns]

theorem owns_spawn (hc : r.creations r.ncreations = .absent) :
    (r.spawn mi).Owns sid o ↔ r.Owns sid o := by
  cases o with
  | unoffered c =>
    by_cases h : c = r.ncreations
    · subst h
      simp [Registry.spawn, Registry.setCreation, Registry.Owns, hc]
    · simp [Registry.spawn, Registry.setCreation, Registry.Owns, h]
  | stored key => simp [Registry.spawn, Registry.setCreation, Registry.Owns]
  | stopped b => simp [Registry.spawn, Registry.setCreation, Registry.Owns]

theorem owns_addSession (hc : r.creations c = .pending mi) :
    (r.addSession c mi).Owns sid o ↔ r.Owns sid o ∨ sid = r.nsessions ∧ o = .unoffered c := by
  cases o with
  | unoffered c' =>
    by_cases h : c' = c
    · subst h
      simp [Registry.addSession, Registry.setCreation, Registry.Owns, hc, eq_comm]
    · simp [Registry.addSession, Registry.setCreation, Registry.Owns, h]
  | stored key => simp [Registry.addSession, Registry.setCreation, Registry.Owns]
  | stopped b => simp [Registry.addSession, Registry.setCreation, Registry.Owns]

/-- Session `sid` goes from `o` to `o'`, the others stay where they are. -/
structure Moved (r r' : Registry) (sid : Nat) (o o' : Owner) : Prop where
  before : r.Owns sid o
  after : r'.Owns sid x ↔ x = o' ∨ r.Owns sid x ∧ x ≠ o
  others : sid' ≠ sid → (r'.Owns sid' x ↔ r.Owns sid' x)

/-- The goroutine of a creation and a key own one session each. -/
theorem Moved.intro (hb : r.Owns sid o) (ho : ∀ a, o ≠ .stopped a)
    (h : ∀ sid' x, r'.Owns sid' x ↔ r.Owns sid' x ∧ x ≠ o ∨ sid' = sid ∧ x = o') :
    Moved r r' sid o o' := by
  have hsole : ∀ {sid'}, r.Owns sid' o → sid' = sid := by
    intro sid' hb'
    cases o with
    | unoffered c =>
      obtain ⟨mi, hb⟩ := hb
      obtain ⟨mi', hb'⟩ := hb'
      cases hb.symm.trans hb'
      rfl
    | stored key => exact Option.some.inj (hb'.symm.trans hb)
    | stopped a => exact absurd rfl (ho a)
  refine ⟨hb, ?_, ?_⟩
  · intro x
    rw [h, or_comm]
    simp
  · intro sid' x hne
    rw [h]
    constructor
    · rintro (⟨hx, -⟩ | ⟨hs, -⟩)
      · exact hx
      · exact absurd hs hne
    · intro hx
      exact .inl ⟨hx, fun hxo => hne (hsole (hxo ▸ hx))⟩

/-- What a step does to the owners. -/
inductive Transfer (r : Registry) (a : Act) (r' : Registry) : Prop
  | kept : r'.nsessions = r.nsessions → (∀ {sid x}, r'.Owns sid x ↔ r.Owns sid x) →
      Transfer r a r'
  | moved : r'.nsessions = r.nsessions → Handover a o o' → Moved r r' sid o o' → Transfer r a r'
  | born : r'.nsessions = r.nsessions + 1 →
      (∀ {sid x}, r'.Owns sid x ↔ r.Owns sid x ∨ sid = r.nsessions ∧ x = .unoffered c) →
      Transfer r a r'

end

/-! ## The invariant -/

structure Inv (r : Registry) : Prop where
  unborn : r.ncreations ≤ c → r.creations c = .absent
  built : r.creations c = .created mi sid → r.sessions sid = some mi
  keyed : r.pollMap key = some sid → ∃ mi, r.sessions sid = some mi ∧ mi.pollMapKey = key
  numbered : r.sessions sid = some mi → sid < r.nsessions
  known : r.Owns sid o → sid < r.nsessions
  owner : sid < r.nsessions → ∃! o, r.Owns sid o
  once : (r.stops sid).length ≤ 1

theorem Inv.init : Inv {} where
  unborn _ := rfl
  built h := nomatch h
  keyed h := nomatch h
  numbered h := nomatch h
  known {sid o} h := by
    cases o with
    | unoffered c => obtain ⟨mi, h⟩ := h; cases h
    | stored key => cases h
    | stopped a => cases h
  owner h := absurd h (Nat.not_lt_zero _)
  once := Nat.zero_le _

section
variable {r r' : Registry}

theorem Stepped.transfer (hinv : Inv r) (h : Stepped r a r') : Transfer r a r' := by
  have hfresh : r.creations r.ncreations = .absent := hinv.unborn (Nat.le_refl _)
  cases h with
  | replaced hk =>
    refine .moved rfl .replaced (.intro hk (fun _ h => nomatch h) fun sid' x => ?_)
    rw [owns_spawn (by exact hfresh), owns_delete, owns_issueStop]
    grind
  | started hk => exact .kept rfl (owns_spawn hfresh)
  | stopped hk =>
    refine .moved rfl .removed (.intro hk (fun _ h => nomatch h) fun sid' x => ?_)
    rw [owns_issueStop, owns_delete]
  | notFound hk => exact .kept rfl .rfl
  | created hc => exact .born rfl (owns_addSession hc)
  | failed hc =>
    refine .kept rfl fun {sid x} => ?_
    rw [owns_finish, and_iff_left_iff_imp]
    rintro hx rfl
    obtain ⟨mi, hx⟩ := hx
    cases hx.symm.trans hc
  | refused hc hk =>
    refine .moved rfl .refused (.intro ⟨_, hc⟩ (fun _ h => nomatch h) fun sid' x => ?_)
    rw [owns_finish, owns_issueStop]
    grind
  | @stored c mi sid hc hk =>
    refine .moved rfl (.stored mi.pollMapKey)
      (.intro ⟨_, hc⟩ (fun _ h => nomatch h) fun sid' x => ?_)
    rw [owns_finish, owns_store hk]
    grind

/-- After a step every session still has one owner. -/
theorem Transfer.owner (hinv : Inv r) (h : Transfer r a r') :
    (∀ {sid o}, r'.Owns sid o → sid < r'.nsessions) ∧
      ∀ {sid}, sid < r'.nsessions → ∃! o, r'.Owns sid o := by
  cases h with
  | kept hn h =>
    rw [hn]
    refine ⟨fun ho => hinv.known (h.mp ho), fun hs => ?_⟩
    obtain ⟨o, ho, huniq⟩ := hinv.owner hs
    exact ⟨o, h.mpr ho, fun x hx => huniq x (h.mp hx)⟩
  | @moved o o' sid hn hand h =>
    rw [hn]
    refine ⟨fun {sid' x} hx => ?_, fun {sid'} hs => ?_⟩
    · by_cases hsid : sid' = sid
      · exact hsid ▸ hinv.known h.before
      · exact hinv.known ((h.others hsid).mp hx)
    · obtain ⟨y, hy, huniq⟩ := hinv.owner hs
      by_cases hsid : sid' = sid
      · subst hsid
        refine ⟨o', h.after.mpr (.inl rfl), fun x hx => ?_⟩
        rcases h.after.mp hx with rfl | ⟨hx, hne⟩
        · rfl
        · exact absurd ((huniq x hx).trans (huniq o h.before).symm) hne
      · exact ⟨y, (h.others hsid).mpr hy, fun x hx => huniq x ((h.others hsid).mp hx)⟩
  | @born c hn h =>
    rw [hn]
    refine ⟨fun {sid x} hx => ?_, fun {sid} hs => ?_⟩
    · rcases h.mp hx with hx | ⟨rfl, -⟩
      · exact Nat.lt_succ_of_lt (hinv.known hx)
      · exact Nat.lt_succ_self _
    · rcases Nat.lt_succ_iff_lt_or_eq.mp hs with hs | rfl
      · obtain ⟨o, ho, huniq⟩ := hinv.owner hs
        refine ⟨o, h.mpr (.inl ho), fun x hx => ?_⟩
        rcases h.mp hx with hx | ⟨rfl, -⟩
        · exact huniq x hx
        · exact absurd hs (Nat.lt_irrefl _)
      · refine ⟨.unoffered c, h.mpr (.inr ⟨rfl, rfl⟩), fun x hx => ?_⟩
        rcases h.mp hx with hx | ⟨-, rfl⟩
        · exact absurd (hinv.known hx) (Nat.lt_irrefl _)
        · rfl

theorem Stepped.stops (hinv : Inv r) (h : Stepped r a r') : (r'.stops sid).length ≤ 1 := by
  -- a stop goes to a session that is not stopped, so its list is empty
  have hlast {sid' o} (ho : r.Owns sid' o) (hne : ∀ b, o ≠ .stopped b) :
      (Function.update r.stops sid' (r.stops sid' ++ [a]) sid).length ≤ 1 := by
    by_cases hsid : sid = sid'
    · subst hsid
      have hnil : r.stops sid = [] := by
        refine List.eq_nil_iff_forall_not_mem.mpr fun b hb => ?_
        obtain ⟨y, -, huniq⟩ := hinv.owner (hinv.known ho)
        exact hne b ((huniq o ho).trans (huniq (.stopped b) hb).symm)
      rw [Function.update_self, hnil]
      exact Nat.le_refl 1
    · rw [Function.update_of_ne hsid]
      exact hinv.once
  cases h with
  | replaced hk => exact hlast (o := .stored _) hk (fun _ h => nomatch h)
  | stopped hk => exact hlast (o := .stored _) hk (fun _ h => nomatch h)
  | refused hc _ => exact hlast (o := .unoffered _) ⟨_, hc⟩ (fun _ h => nomatch h)
  | started _ | notFound _ | created _ | failed _ | stored _ _ => exact hinv.once

/-- No step changes what a session was built from. -/
theorem Stepped.sessions (hinv : Inv r) (h : Stepped r a r') (hs : r.sessions sid = some mi) :
    r'.sessions sid = some mi := by
  cases h with
  | created hc =>
    have hne : sid ≠ r.nsessions := Nat.ne_of_lt (hinv.numbered hs)
    exact (Function.update_of_ne hne ..).trans hs
  | _ => exact hs

theorem Stepped.ncreations_le (h : Stepped r a r') : r.ncreations ≤ r'.ncreations := by
  cases h with
  | replaced _ | started _ => exact Nat.le_succ _
  | _ => exact Nat.le_refl _

theorem Stepped.unborn (hinv : Inv r) (h : Stepped r a r') (hc : r'.ncreations ≤ c) :
    r'.creations c = .absent := by
  have hold : r.creations c = .absent := hinv.unborn (Nat.le_trans h.ncreations_le hc)
  cases h.creationStep c with
  | same heq => exact heq.trans hold
  | spawn heq _ =>
    cases h with
    | replaced _ | started _ => exact absurd hc (by rw [heq]; exact Nat.not_succ_le_self _)
  | create hp _ _ | fail hp _ | refused hp _ _ _ | stored hp _ _ _ => cases hold.symm.trans hp

theorem Stepped.inv (hinv : Inv r) (h : Stepped r a r') : Inv r' where
  unborn := h.unborn hinv
  built {c mi sid} hc := by
    cases h.creationStep c with
    | same heq => exact h.sessions hinv (hinv.built (heq ▸ hc))
    | create _ hp hs => cases hp.symm.trans hc; exact hs
    | spawn _ hp | fail _ hp | refused _ hp _ _ | stored _ hp _ _ => cases hp.symm.trans hc
  keyed {key sid} hk := by
    cases h.keyStep key with
    | same heq =>
      obtain ⟨mi, hs, hkey⟩ := hinv.keyed (heq ▸ hk)
      exact ⟨mi, h.sessions hinv hs, hkey⟩
    | removed _ _ hnone _ => cases hnone.symm.trans hk
    | stored hp hkey _ hsome =>
      cases hsome.symm.trans hk
      exact ⟨_, h.sessions hinv (hinv.built hp), hkey⟩
  numbered {sid mi} hs := by
    have hold : r.sessions sid = some mi → sid < r.nsessions := hinv.numbered
    cases h with
    | created hc =>
      by_cases hsid : sid = r.nsessions
      · exact hsid ▸ Nat.lt_succ_self _
      · exact Nat.lt_succ_of_lt (hold ((Function.update_of_ne hsid ..).symm.trans hs))
    | _ => exact hold hs
  known := ((h.transfer hinv).owner hinv).1
  owner := ((h.transfer hinv).owner hinv).2
  once := h.stops hinv

theorem history_inv (h : Run Registry.step Free {} as r) : Inv r :=
  h.inv (fun hinv _ hs => (step_cases hs).inv hinv) .init

/-- What a step does to a session with an owner. -/
theorem Transfer.next (h : Transfer r a r') (ho : r.Owns sid o) :
    r'.Owns sid o ∨ ∃ o', Handover a o o' ∧ r'.Owns sid o' := by
  cases h with
  | kept _ h => exact .inl (h.mpr ho)
  | @moved o₀ o' sid₀ _ hand h =>
    by_cases hsid : sid = sid₀
    · subst hsid
      by_cases heq : o = o₀
      · exact .inr ⟨o', heq ▸ hand, h.after.mpr (.inl rfl)⟩
      · exact .inl (h.after.mpr (.inr ⟨ho, heq⟩))
    · exact .inl ((h.others hsid).mpr ho)
  | born _ h => exact .inl (h.mpr (.inl ho))

/-- In every run every session has one owner and at most one stop is issued to it, the map holds
one session under a key, which was created for that key, and every step that ends an ownership
hands the session over. -/
theorem session_owned (h : Run Registry.step Free {} as r) :
    (∀ sid mi, r.sessions sid = some mi → (∃! o, r.Owns sid o) ∧ (r.stops sid).length ≤ 1) ∧
    (∀ key sid, r.pollMap key = some sid → ∃ mi, r.sessions sid = some mi ∧ mi.pollMapKey = key) ∧
    (∀ key sid sid', r.Owns sid (.stored key) → r.Owns sid' (.stored key) → sid = sid') ∧
    ∀ a r', r.step a = some r' → ∀ sid o, r.Owns sid o →
      r'.Owns sid o ∨ ∃ o', Handover a o o' ∧ r'.Owns sid o' := by
  have hinv := history_inv h
  refine ⟨?_, fun _ _ => hinv.keyed, ?_, ?_⟩
  · intro sid mi hs
    exact ⟨hinv.owner (hinv.numbered hs), hinv.once⟩
  · intro key sid sid' hk hk'
    exact Option.some.inj (hk.symm.trans hk')
  · intro a r' hs sid o ho
    exact ((step_cases hs).transfer hinv).next ho

end

/-- A registration of `u`, client context `c` and device `d`. -/
def device : MailPingInformation :=
  { userId := GoString.lit "u", clientContext := GoString.lit "c", deviceId := GoString.lit "d" }

/-- A device registers again. -/
theorem session_owned_replaced :
    ∃ r, Run Registry.step Free {}
        [.startPoll device (.initialized, none), .create 0 true, .offer 0,
          .startPoll device (.pinging, none)] r ∧
      r.Owns 0 (.stopped (.startPoll device (.pinging, none))) ∧ ∃! o, r.Owns 0 o :=
  have h : Run Registry.step Free {} [.startPoll device (.initialized, none), .create 0 true,
      .offer 0, .startPoll device (.pinging, none)] _ := Run.of_exec rfl
  ⟨_, h, .head _, ((session_owned h).1 0 device rfl).1⟩

end Pinger.Rpc
