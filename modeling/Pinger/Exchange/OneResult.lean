import Pinger.Exchange.Sharing

/-! # The result of an Exchange poll

The loop of `LongPoll` makes a new pair of channels for every request and closes the old one. While
one instance has the client to itself, each of its request goroutines sends one value on its own
pair and ends before the pair is closed, except that a request which is under way when the poll is
told to stop finds itself cancelled and sends nothing. The poll itself sends one value on `errCh`
or has been told to stop.

An instance has the client to itself when no goroutine of the client runs at its launch. A request
goroutine that has outlived its poll makes the first request of the next poll give up, and that
poll waits for ever. -/

namespace Pinger.Exchange

open Session Transition

/-! ## What is sent -/

/-- A value sent by an instance on `errCh`, or by a request goroutine on its own channels. -/
inductive Sent
  | result (g : Nat)
  | value (r : Nat)
  deriving DecidableEq

/-- What a step of the client sends. -/
def sentBy (c : Client) : Label → List Sent
  | .recv g =>
    match c.polls g with
    | .select r _ _ => [.value r]
    | _ => []
  | _ => []

def sent (s : Caller Client) : CallerAct Label → List Sent
  | .take g => [.result g]
  | .poll l => sentBy s.mc l
  | _ => []

/-- No other instance is launched. -/
def Alone (_ : Caller (client env).State) : CallerAct (client env).Label → Prop
  | .launch => False
  | _ => True

instance (s : Caller (client env).State) :
    (a : CallerAct (client env).Label) → Decidable (Alone s a)
  | .launch => .isFalse id
  | .take _ | .closePoll _ | .closeAll | .advance _ | .poll _ => .isTrue trivial

/-- The loop has made a later request, and has closed the channels of request `r` before it. -/
def ClosedPair (c : Client) (r : Nat) : Prop :=
  ∃ r', r < r' ∧ r' < c.nrequests ∧ c.owner r' = c.owner r

/-! ## Any history

What holds however the client was used before. -/

/-- The goroutine in `o` is where `b` says. -/
def Owned (b : Request → Bool) (requests : Nat → Request) (o : Option Nat) : Prop :=
  ∀ r, o = some r → b (requests r)

/-- The client has launched `n` instances. -/
structure Tidy (c : Client) (n : Nat) : Prop where
  died : c.died = false
  cleaned : c.cleaned = false
  absent : ∀ g, n ≤ g → c.polls g = .absent
  unborn : ∀ r, c.nrequests ≤ r → c.requests r = .absent
  owner : ∀ r < c.nrequests, c.owner r < n
  saved : Owned Request.saved c.requests c.request
  mutex : Owned Request.holdsMutex c.requests c.mutex

variable {env : Env} {sig : Signals} {c c' : Client}

theorem Owned.update (h : Owned b requests o) (hx : b (requests r) → b x) :
    Owned b (Function.update requests r x) o := by
  intro r' ho
  by_cases hr : r' = r
  · subst hr
    rw [Function.update_self]
    exact hx (h r' ho)
  · rw [Function.update_of_ne hr]
    exact h r' ho

theorem Owned.leave (h : Owned b requests o) (hne : o ≠ some r) :
    Owned b (Function.update requests r x) o := by
  intro r' ho
  have hr : r' ≠ r := fun e => hne (e ▸ ho)
  rw [Function.update_of_ne hr]
  exact h r' ho

/-- A goroutine that is not where `b` says is not the one in `o`. -/
theorem Owned.ne (h : Owned b requests o) (hb : b (requests r) = false) : o ≠ some r := by
  intro ho
  rw [h r ho] at hb
  cases hb

theorem owned_none : Owned b requests none := fun _ h => (nomatch h)

theorem owned_self (hx : b x) : Owned b (Function.update requests r x) (some r) := by
  intro r' hr
  cases hr
  rw [Function.update_self]
  exact hx

theorem Request.not_saved {q : Request} (h : q.ended) : q.saved = false := by
  cases q <;> first | rfl | cases h

theorem Request.not_holdsMutex {q : Request} (h : q.ended) : q.holdsMutex = false := by
  cases q <;> first | rfl | cases h

theorem Stepped.died (h : Stepped env sig c l c') : c'.died = c.died := by cases h <;> rfl

theorem Stepped.cleaned (h : Stepped env sig c l c') : c'.cleaned = c.cleaned := by cases h <;> rfl

/-- A client that has its `pi` does not die. -/
theorem stepped_of_alive (hd : c.died = false) (hc : c.cleaned = false)
    (h : step env sig c l = some c') : Stepped env sig c l c' := by
  rw [step, if_neg (by simp [hd])] at h
  obtain ⟨d, hadv, rfl⟩ := Option.map_eq_some_iff.mp h
  rw [if_neg (by simp [hc])]
  exact advance_cases hadv

namespace Tidy

/-- An instance that has been launched is known. -/
theorem lt (h : Tidy c n) (hp : c.polls g ≠ .absent) : g < n := by
  by_contra hle
  exact hp (h.absent g (Nat.le_of_not_lt hle))

theorem setPoll (h : Tidy c n) (hg : g < n) (p : Poll) : Tidy (c.setPoll g p) n where
  died := h.died
  cleaned := h.cleaned
  absent g' hle := by
    rw [Client.setPoll_polls, Function.update_of_ne (by omega)]
    exact h.absent g' hle
  unborn := h.unborn
  owner := h.owner
  saved := h.saved
  mutex := h.mutex

theorem moveRequest (h : Tidy c n) (hr : c.requests r ≠ .absent)
    (hrq : Owned Request.saved (Function.update c.requests r x) rq)
    (hm : Owned Request.holdsMutex (Function.update c.requests r x) m) :
    Tidy { c.setRequest r x with request := rq, mutex := m } n where
  died := h.died
  cleaned := h.cleaned
  absent := h.absent
  unborn r' hle := by
    have hne : r' ≠ r := fun e => hr (e ▸ h.unborn r' hle)
    show Function.update c.requests r x r' = .absent
    rw [Function.update_of_ne hne]
    exact h.unborn r' hle
  owner := h.owner
  saved := hrq
  mutex := hm

theorem exitRequest (h : Tidy c n) (hr : c.requests r ≠ .absent) (hs : c.request ≠ some r) :
    Tidy (c.exitRequest r) n := by
  have hm : Owned Request.holdsMutex (Function.update c.requests r .exited)
      (if c.mutex = some r then none else c.mutex) := by
    split
    next => exact owned_none
    next hne => exact h.mutex.leave hne
  have h' := h.moveRequest hr (h.saved.leave hs) hm
  exact ⟨h'.died, h'.cleaned, h'.absent, h'.unborn, h'.owner, h'.saved, h'.mutex⟩

theorem spawn (h : Tidy c n) (hg : g < n) (k : Nat) (now : Int) :
    Tidy { c.setPoll g (.select c.nrequests k now) with
        requests := Function.update c.requests c.nrequests .spawned
        owner := Function.update c.owner c.nrequests g
        nrequests := c.nrequests + 1
        wg := c.wg + 1
        cancelled := false } n where
  died := h.died
  cleaned := h.cleaned
  absent := (h.setPoll hg _).absent
  unborn r hle := by
    show Function.update c.requests c.nrequests .spawned r = .absent
    have hle' : c.nrequests + 1 ≤ r := hle
    rw [Function.update_of_ne (by omega)]
    exact h.unborn r (by omega)
  owner r hlt := by
    show Function.update c.owner c.nrequests g r < n
    have hlt' : r < c.nrequests + 1 := hlt
    by_cases hr : r = c.nrequests
    · rw [hr, Function.update_self]
      exact hg
    · rw [Function.update_of_ne hr]
      exact h.owner r (by omega)
  saved := h.saved.update fun hs => by rw [h.unborn _ (Nat.le_refl _)] at hs; cases hs
  mutex := h.mutex.update fun hs => by rw [h.unborn _ (Nat.le_refl _)] at hs; cases hs

theorem stepped (h : Tidy c n) (hs : Stepped env sig c l c') : Tidy c' n := by
  cases hs with
  | proxyErr hp | started hp =>
    have h' := h.setPoll (h.lt (by rw [hp]; simp))
    exact ⟨h.died, h.cleaned, (h' _).absent, h.unborn, h.owner, h.saved, h.mutex⟩
  | spawned hp => exact h.spawn (h.lt (by rw [hp]; simp)) _ _
  | ended hp hr | again hp hr =>
    have h' := h.exitRequest (by rw [hr]; simp) (h.saved.ne (by rw [hr]; rfl))
    exact h'.setPoll (h.lt (by rw [hp]; simp)) _
  | stopPoll hp | stopAll hp => exact h.setPoll (h.lt (by rw [hp]; simp)) _
  | cancelled hp =>
    have h' := h.setPoll (h.lt (by rw [hp]; simp)) .returned
    exact ⟨h.died, h.cleaned, h'.absent, h.unborn, h.owner, h.saved, h.mutex⟩
  | locked hr =>
    exact h.moveRequest (by rw [hr]; simp) (h.saved.update fun hs => by rw [hr] at hs; cases hs)
      (owned_self rfl)
  | refused hr => exact h.exitRequest (by rw [hr]; simp) (h.saved.ne (by rw [hr]; rfl))
  | badRequest hr hb =>
    exact h.moveRequest (by rw [hr]; simp) (h.saved.update fun hs => by rw [hr] at hs; cases hs)
      (h.mutex.update fun _ => rfl)
  | armed hr => exact h.moveRequest (by rw [hr]; simp) (owned_self rfl) owned_none
  | nilRequest hr hn => exact h.exitRequest (by rw [hr]; simp) (by rw [hn]; simp)
  | called hr | replied hr =>
    exact h.moveRequest (by rw [hr]; simp) (h.saved.update fun _ => rfl)
      (h.mutex.update fun hs => by rw [hr] at hs; cases hs)
  | cleared hr =>
    exact h.moveRequest (by rw [hr]; simp) owned_none
      (h.mutex.update fun hs => by rw [hr] at hs; cases hs)
  | dropped hr => exact h.exitRequest (by rw [hr]; simp) (h.saved.ne (by rw [hr]; rfl))
  | answered hr =>
    exact h.moveRequest (by rw [hr]; simp) (h.saved.update fun hs => by rw [hr] at hs; cases hs)
      (h.mutex.update fun hs => by rw [hr] at hs; cases hs)

theorem request_ended (h : Tidy c n) (hq : Quiet c n) (r : Nat) : (c.requests r).ended := by
  by_cases hr : r < c.nrequests
  · exact hq.2 r hr
  · rw [h.unborn r (Nat.le_of_not_lt hr)]
    rfl

/-- When none of its goroutines runs, the client runs nothing. -/
theorem exclusive (h : Tidy c n) (hq : Quiet c n) : Exclusive c none none where
  poll := by
    refine ⟨fun g _ => ?_, fun _ e => (nomatch e)⟩
    by_cases hg : g < n
    · exact hq.1 g hg
    · rw [h.absent g (Nat.le_of_not_lt hg)]
      rfl
  request := ⟨fun r _ => h.request_ended hq r, h.unborn⟩
  saved := by
    refine held_none (Option.eq_none_iff_forall_ne_some.mpr fun r => h.saved.ne ?_)
    exact Request.not_saved (h.request_ended hq r)
  mutex := by
    refine held_none (Option.eq_none_iff_forall_ne_some.mpr fun r => h.mutex.ne ?_)
    exact Request.not_holdsMutex (h.request_ended hq r)
  stage := trivial

end Tidy

variable {s s' : Caller (client env).State}

theorem Tidy.step {a : CallerAct (client env).Label} (h : Tidy s.mc s.launched)
    (hs : Caller.step (client env) s a = some s') : Tidy s'.mc s'.launched := by
  cases a with
  | launch =>
    cases hs
    refine Tidy.setPoll ⟨h.died, h.cleaned, fun g hle => ?_, h.unborn, fun r hr => ?_, h.saved,
      h.mutex⟩ (Nat.lt_succ_self _) .launched
    · exact h.absent g (Nat.le_of_succ_le hle)
    · exact Nat.lt_succ_of_lt (h.owner r hr)
  | take g =>
    obtain ⟨v, hv, rfl⟩ := Option.map_eq_some_iff.mp hs
    refine h.setPoll (h.lt fun hp => ?_) .stopping
    simp [client, offer, hp] at hv
  | poll l =>
    obtain ⟨mc, hm, rfl⟩ := Option.map_eq_some_iff.mp hs
    exact h.stepped (stepped_of_alive h.died h.cleaned hm)
  | closePoll | closeAll | advance =>
    cases hs
    exact h

theorem tidy_init : Tidy ({} : Client) 0 :=
  ⟨rfl, rfl, fun _ _ => rfl, fun _ _ => rfl, fun _ hr => absurd hr (Nat.not_lt_zero _),
    owned_none, owned_none⟩

/-! ## One instance -/

/-- The poll has left its loop for good. -/
def Poll.over : Poll → Bool
  | .stopping | .returned => true
  | _ => false

/-- An instance has sent `n` results: none until it leaves its loop, and none at all only if it has
been told to stop. -/
def Told (stopped : Prop) (n : Nat) (p : Poll) : Prop :=
  if p.over then n = 1 ∨ n = 0 ∧ stopped else n = 0

/-- Request `r` has sent `n` values: one, and it has ended; or none, and it is the request its
instance waits for or was waiting for when it was told to stop. -/
def Fate (g : Nat) (stopped : Prop) (c : Client) (r n : Nat) : Prop :=
  n = 1 ∧ c.requests r = .exited ∨
    n = 0 ∧ r + 1 = c.nrequests ∧
      ((∃ k t, c.polls g = .select r k t) ∨ stopped ∧ (c.polls g).over)

/-- What instance `g` and its requests have sent when no other instance runs. -/
structure Tally (g : Nat) (stopped : Prop) (log : List Sent) (c : Client) : Prop where
  others : ∀ g', g' ≠ g → (c.polls g').ended
  told : Told stopped (log.count (.result g)) (c.polls g)
  unmade : ∀ r, c.nrequests ≤ r → log.count (.value r) = 0
  foreign : ∀ r < c.nrequests, c.owner r ≠ g → (c.requests r).ended
  own : ∀ r < c.nrequests, c.owner r = g → Fate g stopped c r (log.count (.value r))

namespace Tally

variable {stopped : Prop} {log : List Sent} {p q : Option Nat}

theorem eq_of_runs (h : Tally g stopped log c) (hp : (c.polls g').ended = false) : g' = g := by
  by_contra hne
  rw [h.others g' hne] at hp
  cases hp

/-- A request that runs belongs to the instance, is its last one and has sent nothing. -/
theorem running (h : Tally g stopped log c) (hex : Exclusive c p q)
    (hr : (c.requests r).ended = false) :
    c.owner r = g ∧ log.count (.value r) = 0 ∧ r + 1 = c.nrequests ∧
      ((∃ k t, c.polls g = .select r k t) ∨ stopped ∧ (c.polls g).over) := by
  have hlt := hex.request.lt hr
  have ho : c.owner r = g := by
    by_contra hne
    rw [h.foreign r hlt hne] at hr
    cases hr
  rcases h.own r hlt ho with ⟨-, he⟩ | hrun
  · rw [he] at hr
    cases hr
  · exact ⟨ho, hrun⟩

/-- While the instance is in its loop, outside the select, its requests are all done. -/
theorem settled (h : Tally g stopped log c) (hsel : ∀ r k t, c.polls g ≠ .select r k t)
    (hover : (c.polls g).over = false) (hr : r < c.nrequests) (ho : c.owner r = g) :
    log.count (.value r) = 1 ∧ c.requests r = .exited := by
  rcases h.own r hr ho with hdone | ⟨-, -, ⟨k, t, hp⟩ | ⟨-, hp⟩⟩
  · exact hdone
  · exact absurd hp (hsel r k t)
  · rw [hover] at hp
    cases hp

/-- The instance moves outside its select. -/
theorem movePoll (h : Tally g stopped log c) (hsel : ∀ r k t, c.polls g ≠ .select r k t)
    (hover : (c.polls g).over = false) {log' : List Sent}
    (hvalue : ∀ r, log'.count (.value r) = log.count (.value r))
    (htold : Told stopped (log'.count (.result g)) x) (tr : Option Nat) (wg : Nat) :
    Tally g stopped log' ({ c with wg := wg, transport := tr }.setPoll g x) where
  others g' hne := by
    rw [Client.setPoll_polls, Function.update_of_ne hne]
    exact h.others g' hne
  told := by
    rw [Client.setPoll_polls, Function.update_self]
    exact htold
  unmade r hle := by
    rw [hvalue]
    exact h.unmade r hle
  foreign := h.foreign
  own r hr ho := by
    rw [hvalue]
    exact .inl (h.settled hsel hover hr ho)

/-- The instance is told to stop in its select. -/
theorem stop (h : Tally g stopped log c) (hp : c.polls g = .select r k t) (hs : stopped) :
    Tally g stopped log (c.setPoll g .stopping) where
  others g' hne := by
    rw [Client.setPoll_polls, Function.update_of_ne hne]
    exact h.others g' hne
  told := by
    have htold := h.told
    rw [hp] at htold
    rw [Client.setPoll_polls, Function.update_self]
    exact .inr ⟨htold, hs⟩
  unmade := h.unmade
  foreign := h.foreign
  own r' hr ho := by
    rcases h.own r' hr ho with hdone | ⟨hn, hlast, -⟩
    · exact .inl hdone
    · refine .inr ⟨hn, hlast, .inr ⟨hs, ?_⟩⟩
      rw [Client.setPoll_polls, Function.update_self]
      rfl

/-- The instance returns. -/
theorem cancel (h : Tally g stopped log c) (hp : c.polls g = .stopping) :
    Tally g stopped log (c.cancel g) where
  others g' hne := by
    show (Function.update c.polls g .returned g').ended
    rw [Function.update_of_ne hne]
    exact h.others g' hne
  told := by
    have htold := h.told
    rw [hp] at htold
    show Told _ _ (Function.update c.polls g .returned g)
    rw [Function.update_self]
    exact htold
  unmade := h.unmade
  foreign := h.foreign
  own r hr ho := by
    rcases h.own r hr ho with hdone | ⟨hn, hlast, ⟨k, t, hsel⟩ | ⟨hs, -⟩⟩
    · exact .inl hdone
    · rw [hp] at hsel
      cases hsel
    · refine .inr ⟨hn, hlast, .inr ⟨hs, ?_⟩⟩
      show (Function.update c.polls g .returned g).over
      rw [Function.update_self]
      rfl

/-- The instance makes its next request. -/
theorem spawn (h : Tally g stopped log c) (hp : c.polls g = .loop k) (now : Int) :
    Tally g stopped log { c.setPoll g (.select c.nrequests k now) with
        requests := Function.update c.requests c.nrequests .spawned
        owner := Function.update c.owner c.nrequests g
        nrequests := c.nrequests + 1
        wg := c.wg + 1
        cancelled := false } := by
  have hcount := h.told
  rw [hp] at hcount
  have old : ∀ r < c.nrequests + 1, r ≠ c.nrequests → r < c.nrequests := fun r hlt hne => by omega
  constructor
  case others =>
    intro g' hne
    show (Function.update c.polls g _ g').ended
    rw [Function.update_of_ne hne]
    exact h.others g' hne
  case told =>
    show Told _ _ (Function.update c.polls g _ g)
    rw [Function.update_self]
    exact hcount
  case unmade => exact fun r hle => h.unmade r (Nat.le_of_succ_le hle)
  case foreign =>
    intro r hlt hne
    by_cases hr : r = c.nrequests
    · subst hr
      exact absurd (Function.update_self ..) hne
    · have hne' : c.owner r ≠ g := fun e => hne (by simpa [Function.update_of_ne hr] using e)
      show (Function.update c.requests c.nrequests .spawned r).ended
      rw [Function.update_of_ne hr]
      exact h.foreign r (old r hlt hr) hne'
  case own =>
    intro r hlt ho
    by_cases hr : r = c.nrequests
    · subst hr
      exact .inr ⟨h.unmade _ (Nat.le_refl _), rfl, .inl ⟨k, now, Function.update_self ..⟩⟩
    · have ho' : c.owner r = g := by simpa [Function.update_of_ne hr] using ho
      have hdone := h.settled (by rw [hp]; simp) (by rw [hp]; rfl) (old r hlt hr) ho'
      refine .inl ⟨hdone.1, ?_⟩
      show Function.update c.requests c.nrequests .spawned r = .exited
      rw [Function.update_of_ne hr]
      exact hdone.2

/-- The instance receives from the request it waits for. -/
theorem recv (h : Tally g stopped log c) (hex : Exclusive c p q) (hp : c.polls g = .select r k t)
    (hr : (c.requests r).ended = false) (hx : x.over = false) :
    Tally g stopped (log ++ [.value r]) ((c.exitRequest r).setPoll g x) := by
  obtain ⟨-, hzero, hlast, -⟩ := h.running hex hr
  have hcount : log.count (.result g) = 0 := by simpa [hp, Told, Poll.over] using h.told
  constructor
  case others =>
    intro g' hne
    rw [Client.setPoll_polls, Function.update_of_ne hne]
    exact h.others g' hne
  case told =>
    rw [Client.setPoll_polls, Function.update_self, Told, if_neg (by simp [hx]), List.count_append]
    simpa using hcount
  case unmade =>
    intro r' hle
    have hne : r ≠ r' := by
      have hle' : c.nrequests ≤ r' := hle
      omega
    rw [List.count_append, h.unmade r' hle]
    simp [hne]
  case foreign =>
    intro r' hlt hne
    show (Function.update c.requests r .exited r').ended
    by_cases hr' : r' = r
    · rw [hr', Function.update_self]
      rfl
    · rw [Function.update_of_ne hr']
      exact h.foreign r' hlt hne
  case own =>
    intro r' hlt ho
    rw [List.count_append]
    by_cases hr' : r' = r
    · subst hr'
      exact .inl ⟨by simp [hzero], Function.update_self ..⟩
    · have hdone : log.count (.value r') = 1 ∧ c.requests r' = .exited := by
        rcases h.own r' hlt ho with hdone | ⟨-, hlast', -⟩
        · exact hdone
        · omega
      refine .inl ⟨by simp [hdone.1, Ne.symm hr'], ?_⟩
      show Function.update c.requests r .exited r' = .exited
      rw [Function.update_of_ne hr']
      exact hdone.2

/-- A running request goroutine goes on. -/
theorem moveRequest (h : Tally g stopped log c) (hex : Exclusive c p q)
    (hr : (c.requests r).ended = false) (hp : c'.polls = c.polls)
    (hreq : c'.requests = Function.update c.requests r x) (howner : c'.owner = c.owner)
    (hn : c'.nrequests = c.nrequests) : Tally g stopped log c' := by
  obtain ⟨ho, hrun⟩ := h.running hex hr
  constructor
  case others => rw [hp]; exact h.others
  case told => rw [hp]; exact h.told
  case unmade => rw [hn]; exact h.unmade
  case foreign =>
    rw [hn, howner, hreq]
    intro r' hlt hne
    have hr' : r' ≠ r := fun e => hne (e ▸ ho)
    rw [Function.update_of_ne hr']
    exact h.foreign r' hlt hne
  case own =>
    rw [hn, howner]
    intro r' hlt ho'
    unfold Fate
    rw [hp, hn, hreq]
    by_cases hr' : r' = r
    · subst hr'
      exact .inr hrun
    · rw [Function.update_of_ne hr']
      exact h.own r' hlt ho'

theorem stepped (h : Tally g stopped log c) (hex : Exclusive c p q)
    (hsig : sig.stopPoll g ∨ sig.stopAll → stopped) (hs : Stepped env sig c l c') :
    Tally g stopped (log ++ sentBy c l) c' := by
  cases hs with
  | proxyErr hp | started hp =>
    obtain rfl := h.eq_of_runs (by rw [hp]; rfl)
    have htold := h.told
    rw [hp] at htold
    simp only [sentBy, List.append_nil]
    refine h.movePoll (by rw [hp]; simp) (by rw [hp]; rfl) (fun _ => rfl) ?_ _ _
    exact htold
  | spawned hp =>
    obtain rfl := h.eq_of_runs (by rw [hp]; rfl)
    simp only [sentBy, List.append_nil]
    exact h.spawn hp sig.now
  | ended hp hr | again hp hr =>
    obtain rfl := h.eq_of_runs (by rw [hp]; rfl)
    simp only [sentBy, hp]
    exact h.recv hex hp (by rw [hr]; rfl) rfl
  | stopPoll hp hs =>
    obtain rfl := h.eq_of_runs (by rw [hp]; rfl)
    simp only [sentBy, List.append_nil]
    exact h.stop hp (hsig (.inl hs))
  | stopAll hp hs =>
    obtain rfl := h.eq_of_runs (by rw [hp]; rfl)
    simp only [sentBy, List.append_nil]
    exact h.stop hp (hsig (.inr hs))
  | cancelled hp =>
    obtain rfl := h.eq_of_runs (by rw [hp]; rfl)
    simp only [sentBy, List.append_nil]
    exact h.cancel hp
  | locked hr | refused hr | badRequest hr | armed hr | nilRequest hr | called hr | replied hr
  | cleared hr | dropped hr | answered hr =>
    simp only [sentBy, List.append_nil]
    exact h.moveRequest hex (by rw [hr]; rfl) rfl rfl rfl rfl

end Tally

/-- Instance `g` has the client to itself. -/
structure Lone (g : Nat) (log : List Sent) (s : Caller (client env).State) : Prop where
  died : s.mc.died = false
  cleaned : s.mc.cleaned = false
  exclusive : ∃ p q, Exclusive s.mc p q
  tally : Tally g (¬s.Open g) log s.mc

theorem Tally.mono {stopped stopped' : Prop} (h : Tally g stopped log c)
    (hs : stopped → stopped') : Tally g stopped' log c where
  others := h.others
  told := by
    have htold := h.told
    unfold Told at htold ⊢
    split
    next hover =>
      rw [if_pos hover] at htold
      exact htold.imp id fun ⟨hn, hst⟩ => ⟨hn, hs hst⟩
    next hover =>
      rw [if_neg hover] at htold
      exact htold
  unmade := h.unmade
  foreign := h.foreign
  own r hr ho := (h.own r hr ho).imp id fun ⟨hn, hlast, hwhy⟩ =>
    ⟨hn, hlast, hwhy.imp id fun ⟨hst, hover⟩ => ⟨hs hst, hover⟩⟩

theorem Lone.step {a : CallerAct (client env).Label} (h : Lone g log s) (ha : Alone s a)
    (hs : Caller.step (client env) s a = some s') : Lone g (log ++ sent s a) s' := by
  obtain ⟨p, q, hex⟩ := h.exclusive
  have hmono : ¬s.Open g → ¬s'.Open g := fun hn ho => hn (Caller.open_of_step hs ho)
  cases a with
  | launch => cases ha
  | take g' =>
    obtain ⟨v, hv, rfl⟩ := Option.map_eq_some_iff.mp hs
    refine ⟨h.died, h.cleaned, hex.taken hv, ?_⟩
    obtain ⟨v', hp⟩ : ∃ v', s.mc.polls g' = .sending v' := by
      simp only [client, offer] at hv
      split at hv
      next v' hp => exact ⟨v', hp⟩
      next => cases hv
    obtain rfl := h.tally.eq_of_runs (by rw [hp]; rfl)
    have hcount : log.count (.result g') = 0 := by simpa [hp, Told, Poll.over] using h.tally.told
    refine h.tally.movePoll (by rw [hp]; simp) (by rw [hp]; rfl) (fun r => ?_) ?_
      s.mc.transport s.mc.wg
    · simp [sent, List.count_append]
    · exact .inl (by simp [sent, List.count_append, hcount])
  | poll l =>
    obtain ⟨mc, hm, rfl⟩ := Option.map_eq_some_iff.mp hs
    have hst := stepped_of_alive h.died h.cleaned hm
    refine ⟨?_, ?_, hex.stepped hst, ?_⟩
    · exact hst.died ▸ h.died
    · exact hst.cleaned ▸ h.cleaned
    · refine h.tally.stepped hex (fun hsig hopen => ?_) hst
      rcases hsig with hsig | hsig
      · exact hopen.1 (of_decide_eq_true hsig)
      · cases hopen.2.symm.trans hsig
  | closePoll | closeAll | advance =>
    cases hs
    simp only [sent, List.append_nil]
    exact ⟨h.died, h.cleaned, ⟨p, q, hex⟩, h.tally.mono hmono⟩

/-! ## The awaited request goes on to its send -/

/-- How many steps a request goroutine still makes before its send. -/
def Request.rank : Request → Nat
  | .spawned => 6
  | .locked => 5
  | .armed => 4
  | .doing _ => 3
  | .replied _ => 2
  | .cleared _ => 1
  | _ => 0

theorem next_progress (h : Stepped env sig c l c') (hl : (c.requests r).next r = some l) :
    c'.polls = c.polls ∧ (c'.requests r).rank < (c.requests r).rank ∧ sentBy c l = [] := by
  cases hr : c.requests r <;> rw [hr] at hl <;> cases hl
  all_goals
    cases h
    all_goals
      refine ⟨rfl, ?_, rfl⟩
      simp [Client.exitRequest, Client.setRequest, Request.rank]

/-- Request `r` can go on until it has sent a value. -/
def CanSend (s : Caller (client env).State) (r : Nat) : Prop :=
  ∃ as s', Run (Caller.step (client env)) Alone s as s' ∧
    observe (Caller.step (client env)) sent s as = [.value r]

theorem CanSend.cons {a : CallerAct (client env).Label} (ha : Alone s a)
    (hs : Caller.step (client env) s a = some s') (hsent : sent s a = []) (h : CanSend s' r) :
    CanSend s r := by
  obtain ⟨as, s'', hrun, hobs⟩ := h
  refine ⟨a :: as, s'', .cons ha hs hrun, ?_⟩
  simpa only [observe, hs, hsent, Option.elim_some, List.nil_append] using hobs

theorem Lone.canSend_recv (h : Lone g log s) (hp : s.mc.polls g = .select r k t)
    (hr : s.mc.requests r = .sending m b) : CanSend s r := by
  have hadv : (advance env s.signals s.mc (.recv g)).isSome := by
    simp only [advance, hp, hr]
    split <;> rfl
  obtain ⟨mc, hadv⟩ := Option.isSome_iff_exists.mp hadv
  have hm : Exchange.step env s.signals s.mc (.recv g) = some mc := by
    simp [Exchange.step, h.died, h.cleaned, hadv]
  have hs : Caller.step (client env) s (.poll (.recv g)) = some { s with mc := mc } :=
    Caller.step_poll hm
  have ha : Alone s (.poll (.recv g)) := trivial
  refine ⟨[.poll (.recv g)], _, .single ha hs, ?_⟩
  simp only [observe, hs, Option.elim_some, List.append_nil, sent, sentBy, hp]

theorem Lone.canSend (h : Lone g log s) (hp : s.mc.polls g = .select r k t) : CanSend s r := by
  induction hn : (s.mc.requests r).rank using Nat.strong_induction_on generalizing s log with
  | _ n ih =>
  obtain ⟨p, q, hex⟩ := h.exclusive
  obtain ⟨-, -, hrun, hnext⟩ : _ ∧ _ ∧ _ ∧ ∀ l ∈ (s.mc.requests r).next r, s.mc.died = false →
    (Exchange.step env s.signals s.mc l).isSome := hex.answers g r k t hp
  cases hl : (s.mc.requests r).next r with
  | none =>
    cases hr : s.mc.requests r with
    | sending m b => exact h.canSend_recv hp hr
    | absent | exited => rw [hr] at hrun; cases hrun
    | _ => rw [hr] at hl; cases hl
  | some l =>
    obtain ⟨mc, hm⟩ := Option.isSome_iff_exists.mp (hnext l hl h.died)
    obtain ⟨hpolls, hrank, hsent⟩ := next_progress (stepped_of_alive h.died h.cleaned hm) hl
    have hs : Caller.step (client env) s (.poll l) = some { s with mc := mc } :=
      Caller.step_poll hm
    have ha : Alone s (.poll l) := trivial
    have hp' : mc.polls g = .select r k t := by rw [hpolls, hp]
    exact .cons ha hs hsent (ih _ (hn ▸ hrank) (h.step ha hs) hp' rfl)

/-! ## Whole runs -/

/-- What instance `g` and its requests have sent: the instance at most one result, and none only if
it has been told to stop; a request one value before it ends, unless the instance still waits for
it or was told to stop while it did. No request that runs finds its channels closed. -/
structure OneResult (g : Nat) (log : List Sent) (s : Caller (client env).State) : Prop where
  result : log.count (.result g) ≤ 1
  returned : s.mc.polls g = .returned → log.count (.result g) = 0 → ¬s.Open g
  values : ∀ r < s.mc.nrequests, s.mc.owner r = g →
    log.count (.value r) = 1 ∧ s.mc.requests r = .exited ∨
      log.count (.value r) = 0 ∧ r + 1 = s.mc.nrequests ∧
        ((∃ k t, s.mc.polls g = .select r k t) ∧ (s.mc.requests r).ended = false ∧ CanSend s r ∨
          ¬s.Open g ∧ (s.mc.polls g).over)
  openPair : ∀ r, (s.mc.requests r).ended = false → ¬ClosedPair s.mc r

theorem Told.le_one (h : Told stopped n p) : n ≤ 1 := by
  unfold Told at h
  split at h <;> omega

theorem Lone.oneResult (h : Lone g log s) : OneResult g log s := by
  obtain ⟨p, q, hex⟩ := h.exclusive
  refine ⟨h.tally.told.le_one, fun hp hzero => ?_, fun r hr ho => ?_, fun r hr hclosed => ?_⟩
  · have htold : _ ∨ _ := hp ▸ h.tally.told
    rcases htold with hone | ⟨-, hstopped⟩
    · omega
    · exact hstopped
  · rcases h.tally.own r hr ho with hdone | ⟨hzero, hlast, ⟨k, t, hp⟩ | hstopped⟩
    · exact .inl hdone
    · obtain ⟨rfl, -, -⟩ := (hex.poll.eq_some (g := g) (by rw [hp]; rfl) ▸ hex).awaits hp
      have hrun := hex.doing
      exact .inr ⟨hzero, hlast, .inl ⟨⟨k, t, hp⟩, hrun, h.canSend hp⟩⟩
    · exact .inr ⟨hzero, hlast, .inr hstopped⟩
  · obtain ⟨-, -, hlast, -⟩ := h.tally.running hex hr
    obtain ⟨r', hlt, hlt', -⟩ := hclosed
    omega

/-- The instance launched on a quiet client has it to itself. -/
theorem Tidy.lone (h : Tidy s.mc s.launched) (hq : Quiet s.mc s.launched)
    (hs : Caller.step (client env) s .launch = some s') : Lone s.launched [] s' := by
  cases hs
  have hex := (h.exclusive hq).launch (g := s.launched) fun g' hlt => h.absent g' (Nat.le_of_lt hlt)
  refine ⟨h.died, h.cleaned, ⟨_, _, hex⟩, fun g' hne => ?_, ?_, fun _ _ => rfl, fun r hr _ => ?_,
    fun r hr ho => ?_⟩
  · exact hex.poll.ended g' fun e => hne (Option.some.inj e).symm
  · show Told _ _ (Function.update s.mc.polls s.launched .launched s.launched)
    rw [Function.update_self]
    rfl
  · exact h.request_ended hq r
  · exact absurd ho (Nat.ne_of_lt (h.owner r hr))

/-- Whatever the servers answer and whenever the stop channels are closed: an instance that is
launched while no goroutine of the client runs, and is the only one until then, sends one result or
is told to stop, and so do its requests. -/
theorem lone_poll_results
    (hpre : Run (Caller.step (client env)) Free { mc := (client env).fresh } pre s₀)
    (hq : Quiet s₀.mc s₀.launched) (hlaunch : Caller.step (client env) s₀ .launch = some s₁)
    (h : Run (Caller.step (client env)) Alone s₁ as s) :
    OneResult s₀.launched (observe (Caller.step (client env)) sent s₁ as) s := by
  have htidy : Tidy s₀.mc s₀.launched :=
    hpre.inv (I := fun s => Tidy s.mc s.launched) (fun ht _ hs => ht.step hs) tidy_init
  exact (h.observe_inv (fun hl ha hs => hl.step ha hs) (htidy.lone hq hlaunch)).oneResult

/-- The request of the instance finds no server, and the device is told to register again. -/
def noHostActs : List (CallerAct Label) :=
  List.flatten [(Label.start 0 :: requestSteps 0 0).map .poll,
    [Label.reply 0 (.failed (GoString.lit "no such host")), .clear 0, .test 0, .recv 0].map .poll,
    [.take 0, .poll (.cancel 0)]]

/-- A fresh client with its first instance. -/
def firstLaunched : Caller Client := { mc := ({} : Client).setPoll 0 .launched, launched := 1 }

theorem lone_poll_results_noHost :
    ∃ s : Caller (client { pi := pingInfo }).State,
      Run (Caller.step (client { pi := pingInfo })) Alone firstLaunched noHostActs s ∧
      s.mc.polls 0 = .returned ∧
      observe (Caller.step (client { pi := pingInfo })) sent firstLaunched noHostActs =
        [.value 0, .result 0] ∧
      OneResult 0 (observe (Caller.step (client { pi := pingInfo })) sent firstLaunched noHostActs)
        s :=
  have h : Run (Caller.step (client { pi := pingInfo })) Alone firstLaunched noHostActs _ :=
    Run.of_execIf rfl
  ⟨_, h, rfl, rfl, lone_poll_results .nil ⟨fun _ h => (nomatch h), fun _ h => (nomatch h)⟩ rfl h⟩

/-- Instance `0` makes its request, is told to stop and returns. -/
def stoppedActs : List (CallerAct Label) :=
  List.flatten [.launch :: (Label.start 0 :: requestSteps 0 0).map .poll,
    [.closePoll 0, .poll (.stopPoll 0), .poll (.cancel 0)]]

/-- A request that is under way when its instance is told to stop finds itself cancelled and sends
nothing. While it is under way, it makes the first request of the next instance give up, although
that instance has not been told to stop and the first one has returned. -/
theorem stopped_request_silent :
    (∃ s : Caller Client, Run (Caller.step (client { pi := pingInfo })) Free { mc := {} }
        (stoppedActs ++ [Label.reply 0 requestCanceled, .clear 0, .test 0].map .poll) s ∧
      s.mc.owner 0 = 0 ∧ s.mc.requests 0 = .exited ∧
      observe (Caller.step (client { pi := pingInfo })) sent { mc := {} }
        (stoppedActs ++ [Label.reply 0 requestCanceled, .clear 0, .test 0].map .poll) = []) ∧
    ∃ s s' : Caller Client,
      Run (Caller.step (client { pi := pingInfo })) Free { mc := {} } stoppedActs s ∧
      s.mc.polls 0 = .returned ∧
      Run (Caller.step (client { pi := pingInfo })) Free s
        (.launch :: [Label.start 1, .spawn 1, .lock 1, .setup 1].map .poll) s' ∧
      s'.Open 1 ∧ s'.mc.polls 1 = .select 1 0 0 ∧ s'.mc.owner 1 = 1 ∧ s'.mc.requests 1 = .exited ∧
      observe (Caller.step (client { pi := pingInfo })) sent s
        (.launch :: [Label.start 1, .spawn 1, .lock 1, .setup 1].map .poll) = [] :=
  ⟨⟨_, Run.of_exec rfl, rfl, rfl, rfl⟩,
    ⟨_, _, Run.of_exec rfl, rfl, Run.of_exec rfl, ⟨(by decide : 1 ∉ [0]), rfl⟩, rfl, rfl, rfl, rfl⟩⟩

end Pinger.Exchange
