import Pinger.Rpc.Crash
import Pinger.Rpc.Lock

/-! # Finding sessions

`RPCFindActiveSessions` on the sessions of the server. It goes through the map in any order, without
the lock, and stops when it has as many sessions as it was asked for. -/

namespace Pinger.Rpc.Crash

open Go Transition

/-! ## What the loop collects -/

/-- `getSessionInfo` of a session, which keeps the fields of its registration. -/
def getSessionInfo (s : Server B) (sid : Nat) : Except GoString ClientSessionInfo :=
  match s.reg.sessions sid with
  | none => .error (GoString.lit "Entry has no active client")
  | some mi =>
    if (s.ctx sid).mailClient = false then .error (GoString.lit "Entry has no active client")
    else if mi.userId = [] ∨ mi.clientContext = [] ∨ mi.deviceId = [] then
      .error (GoString.lit "Entry has been cleaned up.")
    else
      let (status, err) := (s.ctx sid).getStatus
      .ok ⟨mi.userId, mi.clientContext, mi.deviceId, mi.sessionId, status, err.getD []⟩

/-- What an entry of the map adds to the reply. -/
def pick (o : Outside) (args : FindSessionsArgs) (entry : Sigma fun _ : GoString => Option Nat) :
    Option ClientSessionInfo :=
  entry.2.bind fun sid =>
    match o.getSessionInfo sid with
    | .error _ => none
    | .ok session => if args.selects session then some session else none

/-- As many as the request asks for. -/
def FindSessionsArgs.cap (args : FindSessionsArgs) (sessions : List ClientSessionInfo) :
    List ClientSessionInfo :=
  if 0 < args.maxSessions then sessions.take args.maxSessions.toNat else sessions

section
variable {o : Outside} {args : FindSessionsArgs}

theorem cap_of_full (hfull : 0 < args.maxSessions ∧ args.maxSessions ≤ sessions.length)
    (hlen : 0 < args.maxSessions → (sessions.length : Int) ≤ args.maxSessions)
    (more : List ClientSessionInfo) : args.cap (sessions ++ more) = sessions := by
  have hlen := hlen hfull.1
  have htake : args.maxSessions.toNat = sessions.length := by omega
  rw [FindSessionsArgs.cap, if_pos hfull.1, htake, List.take_left]

theorem cap_of_le (hlen : 0 < args.maxSessions → (sessions.length : Int) ≤ args.maxSessions) :
    args.cap sessions = sessions := by
  rw [FindSessionsArgs.cap]
  split
  next hpos => exact List.take_of_length_le (by have := hlen hpos; omega)
  next => rfl

/-- The loop adds what the entries are worth, up to the number it was asked for. -/
theorem visit_calm (h : ∀ n, o.panics n = none)
    (entries : List (Sigma fun _ : GoString => Option Nat)) (hsome : ∀ e ∈ entries, e.2.isSome)
    (f : Frame Vars PanicValue)
    (hlen : 0 < args.maxSessions → (f.vars.reply.sessionInfos.length : Int) ≤ args.maxSessions) :
    ∃ n, visit o args entries f = (.next (), { f with vars := { f.vars with
      reply := { f.vars.reply with
        sessionInfos := args.cap (f.vars.reply.sessionInfos ++ entries.filterMap (pick o args)) }
      statements := n } }) := by
  induction entries generalizing f with
  | nil =>
    refine ⟨f.vars.statements, ?_⟩
    rw [List.filterMap_nil, List.append_nil, cap_of_le hlen]
    rfl
  | cons e entries ih =>
    have hrest : ∀ e ∈ entries, e.2.isSome := fun e he => hsome e (List.mem_cons_of_mem _ he)
    obtain ⟨key, poll⟩ := e
    simp only [visit, Block.bind_apply, Block.get_apply]
    by_cases hfull : 0 < args.maxSessions ∧ args.maxSessions ≤ f.vars.reply.sessionInfos.length
    · refine ⟨f.vars.statements + 1, ?_⟩
      simp only [if_pos hfull, exec_calm h, id, cap_of_full hfull hlen]
    · simp only [if_neg hfull]
      cases poll with
      | none => cases hsome _ List.mem_cons_self
      | some sid =>
        simp only [Block.bind_apply, exec_calm h, id]
        cases hinfo : o.getSessionInfo sid with
        | error err =>
          have hpick : pick o args ⟨key, some sid⟩ = none := by simp [pick, hinfo]
          rw [List.filterMap_cons_none hpick]
          simp only [Block.bind_apply, exec_calm h, id]
          exact ih hrest _ hlen
        | ok session =>
          simp only [Block.bind_apply, exec_calm h]
          by_cases hsel : args.selects session
          · have hpick : pick o args ⟨key, some sid⟩ = some session := by simp [pick, hinfo, hsel]
            rw [List.filterMap_cons_some hpick]
            simp only [if_pos hsel]
            rw [List.append_cons]
            apply ih hrest
            intro hpos
            have hroom := not_le.mp fun hle => hfull ⟨hpos, hle⟩
            simp only [Vars.addSession, List.length_append, List.length_singleton]
            omega
          · have hpick : pick o args ⟨key, some sid⟩ = none := by simp [pick, hinfo, hsel]
            rw [List.filterMap_cons_none hpick]
            simp only [if_neg hsel]
            exact ih hrest _ hlen

/-- The handler returns what the entries of the map are worth, in the order of the map. -/
theorem handle_findActiveSessions (h : ∀ n, o.panics n = none) {pollMap : PollMap}
    (hsome : ∀ e ∈ pollMap.entries, e.2.isSome) (args : FindSessionsArgs) :
    ∃ n, Request.handle o (.findActiveSessions args) pollMap {} = (none,
      { Vars.start pollMap ⟨.ok, [], args.cap (pollMap.entries.filterMap (pick o args))⟩ with
        statements := n }) := by
  have hlen : 0 < args.maxSessions → (([] : List ClientSessionInfo).length : Int) ≤
      args.maxSessions := fun hpos => Int.le_of_lt hpos
  obtain ⟨n, hvisit⟩ := visit_calm h pollMap.entries hsome
    ⟨{ Vars.start pollMap {} with statements := 1 }, [recoverErr]⟩ hlen
  refine ⟨n + 3, ?_⟩
  have hbody : rpcFindActiveSessions o args ⟨Vars.start pollMap {}, []⟩ = (.ret,
      ⟨{ Vars.start pollMap ⟨.ok, [], args.cap (pollMap.entries.filterMap (pick o args))⟩ with
        statements := n + 3 }, [recoverErr]⟩) := by
    simp only [Vars.start, List.nil_append] at hvisit
    simp [rpcFindActiveSessions, returns, exec_calm h, Vars.start, hvisit]
  rw [handle_eq (.findActiveSessions args) hbody, unwind_cons recoverErr_keeps, unwind]
  rfl

end

/-! ## What is found -/

/-- The key of the session. -/
def ClientSessionInfo.key (session : ClientSessionInfo) : GoString :=
  sessionKey session.userId session.clientContext session.deviceId

/-- The session is in the map under its own key, is not cleaned up, and is one the request asks
for. -/
def Selected (s : Server B) (args : FindSessionsArgs) (session : ClientSessionInfo) : Prop :=
  ∃ sid, s.reg.pollMap session.key = some sid ∧ getSessionInfo s sid = .ok session ∧
    args.selects session

/-- Sessions that are asked for, none of them twice and no more than asked for; all of them unless
there are as many as asked for. -/
structure Found (s : Server B) (args : FindSessionsArgs) (found : List ClientSessionInfo) :
    Prop where
  nodup : found.Nodup
  selected : ∀ session ∈ found, Selected s args session
  bounded : 0 < args.maxSessions → (found.length : Int) ≤ args.maxSessions
  complete : (0 < args.maxSessions → (found.length : Int) < args.maxSessions) →
    ∀ session, Selected s args session → session ∈ found

section
variable {s : Server B} {args : FindSessionsArgs} {pollMap : PollMap} {o : Outside}

theorem getSessionInfo_key (h : getSessionInfo s sid = .ok session) :
    ∃ mi, s.reg.sessions sid = some mi ∧ session.key = mi.pollMapKey := by
  unfold getSessionInfo at h
  split at h
  · cases h
  next mi hmi =>
    split at h
    · cases h
    · split at h
      · cases h
      · cases h
        exact ⟨mi, hmi, rfl⟩

theorem pick_eq_some (hinfo : ∀ sid, o.getSessionInfo sid = getSessionInfo s sid) :
    pick o args ⟨key, some sid⟩ = some session ↔
      getSessionInfo s sid = .ok session ∧ args.selects session := by
  simp only [pick, Option.bind_some, hinfo]
  cases getSessionInfo s sid with
  | error err => simp
  | ok session' =>
    by_cases hsel : args.selects session'
    · simp only [if_pos hsel, Option.some.injEq, Except.ok.injEq]
      constructor
      · rintro rfl
        exact ⟨rfl, hsel⟩
      · exact And.left
    · simp only [if_neg hsel, Except.ok.injEq]
      constructor
      · intro hnone
        cases hnone
      · rintro ⟨rfl, hsel'⟩
        exact absurd hsel' hsel

theorem Represents.entry (hmap : Represents pollMap m) {e : Sigma fun _ : GoString => Option Nat}
    (he : e ∈ pollMap.entries) : ∃ sid, e.2 = some sid ∧ m e.1 = some sid := by
  have hlookup : (m e.1).map some = some e.2 := (hmap e.1).symm.trans (AList.mem_lookup_iff.mpr he)
  obtain ⟨sid, hsid, heq⟩ := Option.map_eq_some_iff.mp hlookup
  exact ⟨sid, heq.symm, hsid⟩

/-- What an entry is worth is in the map under its key. -/
theorem pick_entry (hinv : Inv s.reg) (hmap : Represents pollMap s.reg.pollMap)
    (hinfo : ∀ sid, o.getSessionInfo sid = getSessionInfo s sid) (he : e ∈ pollMap.entries)
    (hpick : pick o args e = some session) : session.key = e.1 ∧ Selected s args session := by
  obtain ⟨sid, heq, hsid⟩ := hmap.entry he
  obtain ⟨key, poll⟩ := e
  cases heq
  obtain ⟨hsession, hsel⟩ := (pick_eq_some hinfo).mp hpick
  obtain ⟨mi, hmi, hkey⟩ := getSessionInfo_key hsession
  obtain ⟨mi', hmi', hkey'⟩ := hinv.keyed hsid
  cases hmi.symm.trans hmi'
  have hown : session.key = key := hkey.trans hkey'
  exact ⟨hown, sid, hown ▸ hsid, hsession, hsel⟩

theorem cap_sublist (args : FindSessionsArgs) (sessions : List ClientSessionInfo) :
    (args.cap sessions).Sublist sessions := by
  rw [FindSessionsArgs.cap]
  split
  next => exact List.take_sublist ..
  next => exact List.Sublist.refl _

theorem found_cap (hinv : Inv s.reg) (hmap : Represents pollMap s.reg.pollMap)
    (hinfo : ∀ sid, o.getSessionInfo sid = getSessionInfo s sid) :
    Found s args (args.cap (pollMap.entries.filterMap (pick o args))) := by
  have hsub := cap_sublist args (pollMap.entries.filterMap (pick o args))
  refine ⟨hsub.nodup ?_, ?_, ?_, ?_⟩
  · -- two entries have two keys, and the key can be read off the session
    apply List.pairwise_filterMap.mpr
    apply (List.nodupKeys_iff_pairwise.mp pollMap.nodupKeys).imp_of_mem
    rintro e e' he he' hne session hpick _ hpick' rfl
    have hkey := (pick_entry hinv hmap hinfo he hpick).1
    have hkey' := (pick_entry hinv hmap hinfo he' hpick').1
    exact hne (hkey.symm.trans hkey')
  · intro session hmem
    obtain ⟨e, he, hpick⟩ := List.mem_filterMap.mp (hsub.mem hmem)
    exact (pick_entry hinv hmap hinfo he hpick).2
  · intro hpos
    rw [FindSessionsArgs.cap, if_pos hpos]
    have hle := List.length_take_le args.maxSessions.toNat
      (pollMap.entries.filterMap (pick o args))
    omega
  · rintro hroom session ⟨sid, hsid, hsession, hsel⟩
    have hlookup : pollMap.lookup session.key = some (some sid) := by
      rw [hmap, hsid, Option.map_some]
    have hmem : session ∈ pollMap.entries.filterMap (pick o args) :=
      List.mem_filterMap.mpr
        ⟨_, AList.mem_lookup_iff.mp hlookup, (pick_eq_some hinfo).mpr ⟨hsession, hsel⟩⟩
    rw [FindSessionsArgs.cap] at hroom ⊢
    split at hroom
    next hpos =>
      have hlt := hroom hpos
      rw [List.length_take] at hlt
      rwa [if_pos hpos, List.take_of_length_le (by omega)]
    next hpos => rwa [if_neg hpos]

end

/-- In every state that the server reaches and for every order in which the map is gone through,
`RPCFindActiveSessions` leaves the map as it is and returns, of the sessions in the map that are not
cleaned up and that the request asks for, each once: all of them, or as many as it may. -/
theorem find_sessions_exact {s : Server B} (h : Run Server.step Free {} as s)
    (hcalm : ∀ n, o.panics n = none) (hmap : Represents pollMap s.reg.pollMap)
    (hinfo : ∀ sid, o.getSessionInfo sid = getSessionInfo s sid) (args : FindSessionsArgs) :
    ∃ found n, Request.handle o (.findActiveSessions args) pollMap {} =
        (none, { Vars.start pollMap ⟨.ok, [], found⟩ with statements := n }) ∧
      Found s args found := by
  obtain ⟨bs, hreg⟩ := Server.history_reg h
  have hsome : ∀ e ∈ pollMap.entries, e.2.isSome := by
    intro e he
    obtain ⟨sid, heq, -⟩ := hmap.entry he
    rw [heq, Option.isSome_some]
  obtain ⟨n, hresult⟩ := handle_findActiveSessions hcalm hsome args
  exact ⟨_, n, hresult, found_cap (history_inv hreg) hmap hinfo⟩

/-- The session of a registration, for a request that asks for all. -/
theorem find_sessions_exact_all :
    ∃ (s : Server Server.activeSyncBackend) (found : List ClientSessionInfo) (n : Nat),
      Run Server.step Free {} [.startPoll Server.activeSync, .create 0 true, .offer 0] s ∧
      Request.handle { polling with getSessionInfo := getSessionInfo s } (.findActiveSessions {})
        (AList.singleton Server.activeSync.pollMapKey (some 0)) {} =
        (none, { Vars.start (AList.singleton Server.activeSync.pollMapKey (some 0))
          ⟨.ok, [], found⟩ with statements := n }) ∧
      ∃ session ∈ found, session.key = Server.activeSync.pollMapKey := by
  obtain ⟨s, h, hkey, hinfo⟩ : ∃ s : Server Server.activeSyncBackend,
      Run Server.step Free {} [.startPoll Server.activeSync, .create 0 true, .offer 0] s ∧
      s.reg.pollMap = Function.update (fun _ => none) Server.activeSync.pollMapKey (some 0) ∧
      ∃ session, getSessionInfo s 0 = .ok session ∧
        session.key = Server.activeSync.pollMapKey :=
    ⟨_, Run.of_exec rfl, rfl, _, rfl, rfl⟩
  obtain ⟨session, hsession, hown⟩ := hinfo
  have hmap : Represents (AList.singleton Server.activeSync.pollMapKey (some 0)) s.reg.pollMap := by
    intro key
    rw [hkey]
    by_cases heq : key = Server.activeSync.pollMapKey
    · subst heq
      rw [Function.update_self]
      exact List.dlookup_cons_eq ..
    · rw [Function.update_of_ne heq]
      exact List.dlookup_cons_ne _ ⟨_, _⟩ heq
  obtain ⟨found, n, hresult, hfound⟩ :=
    find_sessions_exact (o := { polling with getSessionInfo := getSessionInfo s }) h
      (fun _ => rfl) hmap (fun _ => rfl) {}
  refine ⟨s, found, n, h, hresult, session, ?_, hown⟩
  apply hfound.complete (fun hpos => absurd hpos (by decide))
  refine ⟨0, ?_, hsession, rfl⟩
  rw [hown, hkey, Function.update_self]

end Pinger.Rpc.Crash
