import Pinger.Session.Results

/-! # Polls that share one Exchange client

Successive `LongPoll` instances share the saved request and the flag `cancelled`. When an instance
is launched while an older one is still about, for example in its back-off sleep, the older one
wakes up, is told to stop, and its `cancel()` ends the request of the newer one and marks it as
cancelled; the newer one then waits for a reply that nobody will send. This cannot happen when an
instance is launched only once nothing of the client is running. -/

namespace Pinger.Exchange

open Session Transition

/-! ## At most one poll and one request -/

/-- The goroutine does not run, or has ended. -/
def Poll.ended : Poll → Bool
  | .absent | .returned => true
  | _ => false

def Request.ended : Request → Bool
  | .absent | .exited => true
  | _ => false

/-- `ex.request` holds the request of this goroutine. -/
def Request.saved : Request → Bool
  | .armed | .doing _ | .replied _ => true
  | _ => false

/-- The goroutine holds `ex.mutex`. -/
def Request.holdsMutex : Request → Bool
  | .locked => true
  | .sending _ b => b
  | _ => false

/-- Only instance `p` runs, and no later one has been launched. -/
structure OnePoll (polls : Nat → Poll) (p : Option Nat) : Prop where
  ended : ∀ g, p ≠ some g → (polls g).ended
  later : ∀ g, p = some g → ∀ g', g < g' → polls g' = .absent

/-- Only request goroutine `q` runs. -/
structure OneRequest (requests : Nat → Request) (n : Nat) (q : Option Nat) : Prop where
  ended : ∀ r, q ≠ some r → (requests r).ended
  unborn : ∀ r, n ≤ r → requests r = .absent

/-- `o` holds the running request goroutine `q` exactly when `q` is where `b` says. -/
def Held (b : Request → Bool) (requests : Nat → Request) (q o : Option Nat) : Prop :=
  ∀ r, o = some r ↔ q = some r ∧ b (requests r)

/-- How far the one poll and the one request are. -/
def Stage (c : Client) : Option Nat → Option Nat → Prop
  | none, none => True
  | none, some r => (c.requests r).ended = false
  | some g, none => (c.polls g).ended = false ∧ ∀ r n t, c.polls g ≠ .select r n t
  | some g, some r => (c.requests r).ended = false ∧ c.owner r = g ∧
      (c.polls g = .stopping ∨ (∃ n t, c.polls g = .select r n t) ∧ c.cancelled = false)

/-- The client runs at most one poll `p` and one request `q`. -/
structure Exclusive (c : Client) (p q : Option Nat) : Prop where
  poll : OnePoll c.polls p
  request : OneRequest c.requests c.nrequests q
  saved : Held Request.saved c.requests q c.request
  mutex : Held Request.holdsMutex c.requests q c.mutex
  stage : Stage c p q

variable {env : Env} {sig : Signals} {c c' : Client} {p q : Option Nat}

theorem OnePoll.eq_some (h : OnePoll polls p) (hg : (polls g).ended = false) : p = some g := by
  by_contra hne
  rw [h.ended g hne] at hg
  cases hg

theorem OneRequest.eq_some (h : OneRequest requests n q) (hr : (requests r).ended = false) :
    q = some r := by
  by_contra hne
  rw [h.ended r hne] at hr
  cases hr

theorem OnePoll.update (h : OnePoll polls (some g)) (x : Poll) :
    OnePoll (Function.update polls g x) (some g) := by
  refine ⟨fun g' hne => ?_, fun g₀ heq g' hlt => ?_⟩
  · have hne' : g' ≠ g := fun e => hne (e ▸ rfl)
    rw [Function.update_of_ne hne']
    exact h.ended g' hne
  · cases heq
    rw [Function.update_of_ne (Nat.ne_of_gt hlt)]
    exact h.later _ rfl g' hlt

theorem OnePoll.finish (h : OnePoll polls (some g)) (hx : x.ended) :
    OnePoll (Function.update polls g x) none := by
  refine ⟨fun g' _ => ?_, fun _ heq => (nomatch heq)⟩
  by_cases hg : g' = g
  · subst hg
    rw [Function.update_self]
    exact hx
  · rw [Function.update_of_ne hg]
    exact h.ended g' fun e => hg (Option.some.inj e).symm

theorem OneRequest.update (h : OneRequest requests n (some r)) (hlt : r < n) (x : Request) :
    OneRequest (Function.update requests r x) n (some r) := by
  refine ⟨fun r' hne => ?_, fun r' hle => ?_⟩
  · have hne' : r' ≠ r := fun e => hne (e ▸ rfl)
    rw [Function.update_of_ne hne']
    exact h.ended r' hne
  · rw [Function.update_of_ne (Nat.ne_of_gt (Nat.lt_of_lt_of_le hlt hle))]
    exact h.unborn r' hle

theorem OneRequest.finish (h : OneRequest requests n (some r)) (hlt : r < n) :
    OneRequest (Function.update requests r .exited) n none := by
  have h' := h.update hlt .exited
  refine ⟨fun r' _ => ?_, h'.unborn⟩
  by_cases hr : r' = r
  · subst hr
    rw [Function.update_self]
    rfl
  · exact h'.ended r' fun e => hr (Option.some.inj e).symm

theorem OneRequest.spawn (h : OneRequest requests n none) :
    OneRequest (Function.update requests n .spawned) (n + 1) (some n) := by
  refine ⟨fun r hne => ?_, fun r hle => ?_⟩
  · have hne' : r ≠ n := fun e => hne (e ▸ rfl)
    rw [Function.update_of_ne hne']
    exact h.ended r fun e => (nomatch e)
  · rw [Function.update_of_ne (by omega)]
    exact h.unborn r (Nat.le_of_succ_le hle)

/-- A running request has been started. -/
theorem OneRequest.lt (h : OneRequest requests n q) (hr : (requests r).ended = false) : r < n := by
  by_contra hle
  rw [h.unborn r (Nat.le_of_not_lt hle)] at hr
  cases hr

theorem Held.eq_none (h : Held b requests q o) (hq : ∀ r, q = some r → b (requests r) = false) :
    o = none := by
  cases ho : o with
  | none => rfl
  | some r =>
    obtain ⟨hq', hb⟩ := (h r).mp ho
    rw [hq r hq'] at hb
    cases hb

theorem Held.eq_some (h : Held b requests (some r) o) (hb : b (requests r)) : o = some r :=
  (h r).mpr ⟨rfl, hb⟩

theorem held_none (ho : o = none) : Held b requests none o := by
  subst ho
  exact fun _ => ⟨fun e => (nomatch e), fun e => (nomatch e.1)⟩

theorem held_update (hb : o = if b x then some r else none) :
    Held b (Function.update requests r x) (some r) o := by
  subst hb
  intro r'
  constructor
  · intro hr'
    split at hr'
    next hb =>
      cases hr'
      rw [Function.update_self]
      exact ⟨rfl, hb⟩
    next => cases hr'
  · rintro ⟨hr', hb⟩
    cases hr'
    rw [Function.update_self] at hb
    rw [if_pos hb]

/-! ## What the poll and the request do -/

namespace Exclusive

/-- The running poll has not ended. -/
theorem running (h : Exclusive c (some g) q) : (c.polls g).ended = false := by
  have hst := h.stage
  cases q with
  | none => exact hst.1
  | some r =>
    rcases hst.2.2 with hp | ⟨⟨n, t, hp⟩, -⟩ <;> rw [hp] <;> rfl

theorem doing (h : Exclusive c p (some r)) : (c.requests r).ended = false := by
  have hst := h.stage
  cases p with
  | none => exact hst
  | some g => exact hst.1

theorem born (h : Exclusive c p (some r)) : r < c.nrequests := h.request.lt h.doing

/-- A poll that is neither in its select nor stopping has no request. -/
theorem no_request (h : Exclusive c (some g) q) (hs : c.polls g ≠ .stopping)
    (hsel : ∀ r n t, c.polls g ≠ .select r n t) : q = none := by
  cases q with
  | none => rfl
  | some r =>
    rcases h.stage.2.2 with hp | ⟨⟨n, t, hp⟩, -⟩
    · exact absurd hp hs
    · exact absurd hp (hsel r n t)

/-- The request a poll waits for in its select runs, and has not been cancelled. -/
theorem awaits (h : Exclusive c (some g) q) (hp : c.polls g = .select r n t) :
    q = some r ∧ c.owner r = g ∧ c.cancelled = false := by
  cases q with
  | none => exact absurd hp (h.stage.2 r n t)
  | some r' =>
    obtain ⟨-, howner, hst⟩ := h.stage
    rcases hst with hp' | ⟨⟨n', t', hp'⟩, hc⟩
    · rw [hp] at hp'; cases hp'
    · rw [hp] at hp'; cases hp'
      exact ⟨rfl, howner, hc⟩

theorem movePoll (h : Exclusive c (some g) none) (hx : x.ended = false)
    (hsel : ∀ r n t, x ≠ .select r n t) (tr : Option Nat) (wg : Nat) :
    Exclusive ({ c with wg := wg, transport := tr }.setPoll g x) (some g) none where
  poll := h.poll.update x
  request := h.request
  saved := h.saved
  mutex := h.mutex
  stage := by
    simp only [Stage, Client.setPoll_polls, Function.update_self]
    exact ⟨hx, hsel⟩

/-- A request goroutine goes on; `ex.request` and the mutex follow it. -/
theorem moveRequest (h : Exclusive c p (some r)) (hx : x.ended = false)
    (hrq : rq = if x.saved then some r else none) (hm : m = if x.holdsMutex then some r else none) :
    Exclusive { c.setRequest r x with request := rq, mutex := m } p (some r) where
  poll := h.poll
  request := h.request.update h.born x
  saved := held_update hrq
  mutex := held_update hm
  stage := by
    have hst := h.stage
    cases p with
    | none =>
      simp only [Stage, Client.setRequest_requests, Function.update_self]
      exact hx
    | some g =>
      simp only [Stage, Client.setRequest_requests, Function.update_self]
      exact ⟨hx, hst.2⟩

/-- A request goroutine that ends leaves the mutex free. -/
theorem exit_mutex (h : Exclusive c p (some r)) : (c.exitRequest r).mutex = none := by
  show (if c.mutex = some r then none else c.mutex) = none
  split
  next => rfl
  next hne =>
    cases hm : c.mutex with
    | none => rfl
    | some r' =>
      obtain ⟨hq, -⟩ := (h.mutex r').mp hm
      cases hq
      exact absurd hm hne

theorem exit_request (h : Exclusive c p (some r)) (hs : (c.requests r).saved = false) :
    (c.exitRequest r).request = none :=
  h.saved.eq_none fun _ e => Option.some.inj e ▸ hs

/-- A request goroutine whose poll is not in its select ends. -/
theorem exitRequest (h : Exclusive c p (some r)) (hs : (c.requests r).saved = false)
    (hp : ∀ g, p = some g → ∀ r n t, c.polls g ≠ .select r n t) :
    Exclusive (c.exitRequest r) p none where
  poll := h.poll
  request := h.request.finish h.born
  saved := held_none (h.exit_request hs)
  mutex := held_none h.exit_mutex
  stage := by
    cases p with
    | none => trivial
    | some g => exact ⟨h.running, hp g rfl⟩

/-- A poll receives from its request goroutine, which ends. -/
theorem recv (h : Exclusive c (some g) (some r)) (hs : (c.requests r).saved = false)
    (hx : x.ended = false) (hsel : ∀ r n t, x ≠ .select r n t) :
    Exclusive ((c.exitRequest r).setPoll g x) (some g) none where
  poll := h.poll.update x
  request := h.request.finish h.born
  saved := held_none (h.exit_request hs)
  mutex := held_none h.exit_mutex
  stage := by
    simp only [Stage, Client.setPoll_polls, Function.update_self]
    exact ⟨hx, hsel⟩

theorem spawn (h : Exclusive c (some g) none) (n : Nat) (now : Int) :
    Exclusive { c.setPoll g (.select c.nrequests n now) with
        requests := Function.update c.requests c.nrequests .spawned
        owner := Function.update c.owner c.nrequests g
        nrequests := c.nrequests + 1
        wg := c.wg + 1
        cancelled := false } (some g) (some c.nrequests) where
  poll := h.poll.update _
  request := h.request.spawn
  saved := held_update (h.saved.eq_none fun _ e => (nomatch e))
  mutex := held_update (h.mutex.eq_none fun _ e => (nomatch e))
  stage := by
    simp only [Stage, Client.setPoll_polls, Function.update_self]
    exact ⟨rfl, trivial, .inr ⟨⟨n, now, rfl⟩, trivial⟩⟩

/-- A poll leaves its select because it was told to. -/
theorem stop (h : Exclusive c (some g) q) (hp : c.polls g = .select r n t) :
    Exclusive (c.setPoll g .stopping) (some g) q where
  poll := h.poll.update _
  request := h.request
  saved := h.saved
  mutex := h.mutex
  stage := by
    obtain ⟨rfl, howner, -⟩ := h.awaits hp
    simp only [Stage, Client.setPoll_polls, Function.update_self]
    exact ⟨h.doing, howner, .inl trivial⟩

theorem cancel (h : Exclusive c (some g) q) : Exclusive (c.cancel g) none q where
  poll := h.poll.finish rfl
  request := h.request
  saved := h.saved
  mutex := h.mutex
  stage := by
    cases q with
    | none => trivial
    | some r => exact h.doing

theorem launch (h : Exclusive c none none)
    (hlater : ∀ g', g < g' → c.polls g' = .absent) :
    Exclusive (c.setPoll g .launched) (some g) none where
  poll := by
    refine ⟨fun g' hne => ?_, fun g₀ heq g' hlt => ?_⟩
    · have hne' : g' ≠ g := fun e => hne (e ▸ rfl)
      rw [Client.setPoll_polls, Function.update_of_ne hne']
      exact h.poll.ended g' fun e => (nomatch e)
    · cases heq
      rw [Client.setPoll_polls, Function.update_of_ne (Nat.ne_of_gt hlt)]
      exact hlater g' hlt
  request := h.request
  saved := h.saved
  mutex := h.mutex
  stage := by
    simp only [Stage, Client.setPoll_polls, Function.update_self]
    exact ⟨rfl, fun r n t e => (nomatch e)⟩

/-- A step of the client keeps the poll and the request alone. -/
theorem stepped (h : Exclusive c p q) (hs : Stepped env sig c l c') :
    ∃ p q, Exclusive c' p q := by
  cases hs with
  | proxyErr hp | started hp =>
    obtain rfl := h.poll.eq_some (by rw [hp]; rfl)
    obtain rfl := h.no_request (by rw [hp]; simp) (by rw [hp]; simp)
    exact ⟨_, _, h.movePoll rfl (by simp) _ _⟩
  | spawned hp =>
    obtain rfl := h.poll.eq_some (by rw [hp]; rfl)
    obtain rfl := h.no_request (by rw [hp]; simp) (by rw [hp]; simp)
    exact ⟨_, _, h.spawn _ _⟩
  | ended hp hr | again hp hr =>
    obtain rfl := h.poll.eq_some (by rw [hp]; rfl)
    obtain rfl := h.request.eq_some (by rw [hr]; rfl)
    exact ⟨_, _, h.recv (by rw [hr]; rfl) rfl (by simp)⟩
  | stopPoll hp | stopAll hp =>
    obtain rfl := h.poll.eq_some (by rw [hp]; rfl)
    exact ⟨_, _, h.stop hp⟩
  | cancelled hp =>
    obtain rfl := h.poll.eq_some (by rw [hp]; rfl)
    exact ⟨_, _, h.cancel⟩
  | locked hr =>
    obtain rfl := h.request.eq_some (by rw [hr]; rfl)
    exact ⟨_, _, h.moveRequest rfl (h.saved.eq_none fun _ e => by cases e; rw [hr]; rfl) rfl⟩
  | badRequest hr =>
    obtain rfl := h.request.eq_some (by rw [hr]; rfl)
    exact ⟨_, _, h.moveRequest rfl (h.saved.eq_none fun _ e => by cases e; rw [hr]; rfl)
      (h.mutex.eq_some (by rw [hr]; rfl))⟩
  | refused hr hb =>
    obtain rfl := h.request.eq_some (by rw [hr]; rfl)
    rw [h.saved.eq_none fun _ e => by cases e; rw [hr]; rfl] at hb
    cases hb
  | armed hr =>
    obtain rfl := h.request.eq_some (by rw [hr]; rfl)
    exact ⟨_, _, h.moveRequest rfl rfl rfl⟩
  | nilRequest hr hn =>
    obtain rfl := h.request.eq_some (by rw [hr]; rfl)
    rw [h.saved.eq_some (by rw [hr]; rfl)] at hn
    cases hn
  | called hr | replied hr =>
    obtain rfl := h.request.eq_some (by rw [hr]; rfl)
    exact ⟨_, _, h.moveRequest rfl (h.saved.eq_some (by rw [hr]; rfl))
      (h.mutex.eq_none fun _ e => by cases e; rw [hr]; rfl)⟩
  | cleared hr =>
    obtain rfl := h.request.eq_some (by rw [hr]; rfl)
    exact ⟨_, _, h.moveRequest rfl rfl (h.mutex.eq_none fun _ e => by cases e; rw [hr]; rfl)⟩
  | answered hr =>
    obtain rfl := h.request.eq_some (by rw [hr]; rfl)
    exact ⟨_, _, h.moveRequest rfl (h.saved.eq_none fun _ e => by cases e; rw [hr]; rfl)
      (h.mutex.eq_none fun _ e => by cases e; rw [hr]; rfl)⟩
  | dropped hr hc =>
    obtain rfl := h.request.eq_some (by rw [hr]; rfl)
    refine ⟨_, _, h.exitRequest (by rw [hr]; rfl) fun g hg r n t hp => ?_⟩
    subst hg
    rw [(h.awaits hp).2.2] at hc
    cases hc

end Exclusive

/-! ## Sessions -/

/-- No goroutine of the client is running. -/
def Quiet (c : Client) (madePoll : Nat) : Prop :=
  (∀ g < madePoll, (c.polls g).ended) ∧ ∀ r < c.nrequests, (c.requests r).ended

instance decidableQuiet : Decidable (Quiet c n) := inferInstanceAs (Decidable (_ ∧ _))

/-- A poll is launched only while no goroutine of the client is running. -/
def NoOverlap (s : Ctx (client env).State) : Act (client env).Label → Prop
  | .start .go => s.pc.launches → Quiet s.mc s.madePoll
  | _ => True

instance (s : Ctx (client env).State) : (a : Act (client env).Label) → Decidable (NoOverlap s a)
  | .start .go =>
    let _ : Decidable (Quiet s.mc s.madePoll) := decidableQuiet
    inferInstanceAs (Decidable (_ → Quiet s.mc s.madePoll))
  | .start .maxPoll | .start .deferTick | .start (.errCh _) | .start .command
  | .start (.pushed _) => .isTrue trivial
  | .advance _ | .expireDefer | .expireMax | .command _ | .setWait _ | .poll _ => .isTrue trivial

variable {cfg : Settings} {s s' : Ctx (client env).State}

/-- The client of the session runs at most one poll and one request. -/
structure OneAtATime (s : Ctx (client env).State) : Prop where
  wired : Wired s
  exclusive : ∃ p q, Exclusive s.mc p q

theorem Exclusive.of_quiet (h : Exclusive c p q) (hq : Quiet c n)
    (habs : ∀ g, n ≤ g → c.polls g = .absent) : p = none ∧ q = none := by
  constructor
  · cases p with
    | none => rfl
    | some g =>
      have hrun := h.running
      by_cases hg : g < n
      · rw [hq.1 g hg] at hrun
        cases hrun
      · rw [habs g (Nat.le_of_not_lt hg)] at hrun
        cases hrun
  · cases q with
    | none => rfl
    | some r =>
      have hrun := h.doing
      rw [hq.2 r h.born] at hrun
      cases hrun

theorem Exclusive.taken (h : Exclusive c p q) (hv : offer c g = some v) :
    ∃ p q, Exclusive (c.setPoll g .stopping) p q := by
  unfold offer at hv
  split at hv <;> cases hv
  next hp =>
    obtain rfl := h.poll.eq_some (by rw [hp]; rfl)
    obtain rfl := h.no_request (by rw [hp]; simp) (by rw [hp]; simp)
    exact ⟨_, _, h.movePoll rfl (by simp) c.transport c.wg⟩

theorem OneAtATime.start (h : OneAtATime s)
    (hs : Session.start (client env) cfg s pick = some s')
    (hq : s.pc.launches → Quiet s.mc s.madePoll) : OneAtATime s' := by
  have hstep := start_cases hs
  obtain ⟨p, q, hex⟩ := h.exclusive
  have hd := hstep.drives
  refine ⟨hstep.wired h.wired, ?_⟩
  generalize s'.mc = mc at hd ⊢
  cases hd with
  | idle => exact ⟨p, q, hex⟩
  | launch hg hpc =>
    obtain ⟨rfl, rfl⟩ := hex.of_quiet (hq hpc) h.wired.absent
    refine ⟨_, _, hex.launch fun g' hlt => h.wired.absent g' ?_⟩
    have := h.wired.made _ hg
    omega
  | taken hpc hv => exact hex.taken hv
  | cleanup => exact ⟨p, q, hex.poll, hex.request, hex.saved, hex.mutex, hex.stage⟩

theorem OneAtATime.step {a : Act (client env).Label} (h : OneAtATime s) (hc : NoOverlap s a)
    (hs : Session.step (client env) cfg s a = some s') : OneAtATime s' := by
  have hw' := step_wired h.wired hs
  cases step_moves hs with
  | @start p _ hs =>
    refine h.start hs fun hpc => ?_
    by_cases hp : p = .go
    · subst hp
      exact hc hpc
    · rcases start_pick hs hp with h' | ⟨site, h'⟩ <;> rw [h'] at hpc <;> cases hpc
  | poll _ hm =>
    obtain ⟨p, q, hex⟩ := h.exclusive
    obtain ⟨d, hd, rfl | rfl⟩ := step_cases hm
    · exact ⟨hw', hex.stepped hd⟩
    · exact ⟨hw', p, q, hex.poll, hex.request, hex.saved, hex.mutex, hex.stage⟩
  | expire => exact ⟨hw', h.exclusive⟩
  | other hf hmc => exact ⟨hw', hmc ▸ h.exclusive⟩

theorem init_oneAtATime : OneAtATime (init (client env) cfg) where
  wired := init_wired
  exclusive := ⟨none, none, ⟨fun _ _ => rfl, fun _ e => (nomatch e)⟩,
    ⟨fun _ _ => rfl, fun _ _ => rfl⟩, held_none rfl, held_none rfl, trivial⟩

/-! ## Whole runs -/

/-- The next step of a request goroutine that is not at its send. -/
def Request.next (r : Nat) : Request → Option Label
  | .spawned => some (.lock r)
  | .locked => some (.setup r)
  | .armed => some (.call r)
  | .doing _ => some (.reply r (.failed []))
  | .replied _ => some (.clear r)
  | .cleared _ => some (.test r)
  | _ => none

/-- `cancel()` ends no request of a later instance, and there is none that it could mark as
cancelled. -/
def CancelsOwn (env : Env) (sig : Signals) (c : Client) : Prop :=
  ∀ g c', step env sig c (.cancel g) = some c' →
    (∀ g', g < g' → c.polls g' = .absent) ∧ ∀ r ∈ c'.aborted, r ∉ c.aborted → c.owner r = g

/-- A poll in its select waits for a request goroutine of its own, which is not marked as
cancelled and goes on until it sends. -/
def Answers (env : Env) (sig : Signals) (c : Client) : Prop :=
  ∀ g r n t, c.polls g = .select r n t →
    c.owner r = g ∧ c.cancelled = false ∧ (c.requests r).ended = false ∧
      ∀ l ∈ (c.requests r).next r, c.died = false → (step env sig c l).isSome

theorem Exclusive.cancelsOwn (h : Exclusive c p q) : CancelsOwn env sig c := by
  intro g c' hs
  obtain ⟨d, hd, hc'⟩ := step_cases hs
  cases hd with
  | cancelled hp hm =>
    obtain rfl := h.poll.eq_some (by rw [hp]; rfl)
    refine ⟨h.poll.later g rfl, fun r hr hnot => ?_⟩
    obtain rfl | rfl := hc'
    case inr => exact absurd hr hnot
    have hr' : r ∈ c.cancelRequest := hr
    unfold Client.cancelRequest at hr'
    split at hr'
    next => exact absurd hr' hnot
    next r₀ hreq =>
      obtain ⟨rfl, -⟩ := (h.saved r₀).mp hreq
      have howner : c.owner r₀ = g := h.stage.2.1
      split at hr'
      · split at hr'
        · rcases List.mem_cons.mp hr' with rfl | hr'
          · exact howner
          · exact absurd hr' hnot
        · exact absurd hr' hnot
      · exact absurd hr' hnot

theorem Exclusive.answers (h : Exclusive c p q) : Answers env sig c := by
  intro g r n t hp
  obtain rfl := h.poll.eq_some (by rw [hp]; rfl)
  obtain ⟨rfl, howner, hc⟩ := h.awaits hp
  refine ⟨howner, hc, h.doing, fun l hl hd => ?_⟩
  suffices (advance env sig c l).isSome by simpa [step, hd] using this
  cases hr : c.requests r <;> rw [hr] at hl <;> cases hl
  · have hm : c.mutex = none := h.mutex.eq_none fun _ e => by cases e; rw [hr]; rfl
    simp [advance, hr, hm]
  · simp only [advance, hr]
    split
    · rfl
    · split <;> rfl
  · simp only [advance, hr]
    split <;> rfl
  · simp [advance, hr]
  · simp [advance, hr]
  · simp only [advance, hr]
    split <;> rfl

/-- When no goroutine of the client runs while a poll is launched, the `cancel()` of an instance
leaves later instances alone, and no poll waits for a request that nobody makes. -/
theorem cancel_spares_later (h : Run (Session.step (client env) cfg) NoOverlap
    (init (client env) cfg) as s) : CancelsOwn env s.signals s.mc ∧ Answers env s.signals s.mc := by
  have hone : OneAtATime s := h.inv OneAtATime.step init_oneAtATime
  obtain ⟨p, q, hex⟩ := hone.exclusive
  exact ⟨hex.cancelsOwn, hex.answers⟩

/-- The steps by which instance `g` makes request `r`. -/
def requestSteps (g r : Nat) : List Label := [.spawn g, .lock r, .setup r, .call r]

/-- The error of a request that `CancelRequest` has ended. -/
def requestCanceled : DoOutcome := .failed (GoString.lit "net/http: request canceled")

/-- The first poll is told to stop, ends, and then the second one makes its request. -/
def deferredActs : List (Act Label) :=
  List.flatten [eagerActs, (Label.start 0 :: requestSteps 0 0).map .poll,
    [.command .defer, .start .command], goSteps 11,
    [Label.stopPoll 0, .cancel 0, .reply 0 requestCanceled, .clear 0, .test 0].map .poll,
    [.expireDefer], pingActs, (Label.start 1 :: requestSteps 1 1).map .poll]

/-- The first poll sleeps after a failed request, the second one makes its request, and the first
one wakes up and is told to stop. -/
def sleepingActs : List (Act Label) :=
  List.flatten [eagerActs, (Label.start 0 :: requestSteps 0 0).map .poll,
    [Label.reply 0 (.failed (GoString.lit "timeout")), .clear 0, .test 0, .recv 0].map .poll,
    [.command .defer, .start .command], goSteps 11, [.expireDefer], pingActs,
    (Label.start 1 :: requestSteps 1 1).map .poll, [.poll (.spawn 0), .poll (.stopPoll 0)]]

theorem cancel_spares_later_deferred :
    ∃ s : Ctx Client, Run (Session.step (client { pi := pingInfo }) eagerSettings) NoOverlap
        (init (client { pi := pingInfo }) eagerSettings) deferredActs s ∧
      s.stopPollCh = some 1 ∧ Answers { pi := pingInfo } s.signals s.mc :=
  have h : Run (Session.step (client { pi := pingInfo }) eagerSettings) NoOverlap
      (init (client { pi := pingInfo }) eagerSettings) deferredActs _ := Run.of_execIf rfl
  ⟨_, h, rfl, (cancel_spares_later h).2⟩

/-- The first poll sleeps when a deferral is served and the second poll makes its request. It wakes
up, is told to stop and cancels that request, and the second poll waits for ever. -/
theorem sleeping_poll_cancels_later :
    ∃ s s' s'' : Ctx Client,
      Run (Session.step (client { pi := pingInfo }) eagerSettings) Free
        (init (client { pi := pingInfo }) eagerSettings) sleepingActs s ∧
      Session.step (client { pi := pingInfo }) eagerSettings s (.poll (.cancel 0)) = some s' ∧
      1 ∉ s.mc.aborted ∧ 1 ∈ s'.mc.aborted ∧ s.mc.owner 1 = 1 ∧
      Run (Session.step (client { pi := pingInfo }) eagerSettings) Free s'
        ([Label.reply 1 requestCanceled, .clear 1, .test 1].map .poll) s'' ∧
      s''.stopPollCh = some 1 ∧ 1 ∉ s''.closedPoll ∧
      s''.mc.polls 1 = .select 1 0 0 ∧ s''.mc.requests 1 = .exited :=
  ⟨_, _, _, Run.of_exec rfl, rfl, by decide, by decide, rfl, Run.of_exec rfl, rfl, by decide, rfl,
    rfl⟩

end Pinger.Exchange
