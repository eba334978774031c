import Pinger.Exchange.OneResult
import Pinger.Lib.Jobs

/-! # Requests that are left behind

A `LongPoll` that leaves its select because it is told to stop may leave a request goroutine behind.
The goroutine finds `cancelled` set and ends without a send, provided that it is not yet in its send
when the poll leaves, that it does not look at `cancelled` before the poll has set it, and that no
later request has reset it by then. -/

namespace Pinger.Exchange

variable {env : Env} {sig : Signals} {c c' : Client}

/-! ## The results of the polls -/

/-- The instance that the step brings to its send on `errCh`. -/
def result (env : Env) (sig : Signals) (c : Client) : Label → Option Nat
  | .start g => if env.proxyErr.isSome then some g else none
  | .recv g =>
    match c.polls g with
    | .select r sleepTime timeSent =>
      match c.requests r with
      | .sending m _ =>
        match verdict env.pi (sig.now - timeSent ≤ tooFastResponse env.pi) sleepTime m with
        | .send _ => some g
        | .again _ => none
      | _ => none
    | _ => none
  | _ => none

theorem offer_eq_some : offer c g = some v ↔ c.polls g = .sending v := by
  unfold offer
  cases c.polls g <;> simp

/-- Only the instance that moves can come to a send. -/
theorem offer_moved (hp : c'.polls = Function.update c.polls g p) (h : offer c' g' = some v) :
    offer c g' = some v ∨ g' = g ∧ p = .sending v := by
  rw [offer_eq_some, hp] at h
  rw [offer_eq_some]
  exact Jobs.update_eq h

theorem offer_step (h : step env sig c l = some c') (hv : offer c' g = some v) :
    offer c g = some v ∨ result env sig c l = some g := by
  obtain ⟨d, hd, rfl | rfl⟩ := step_cases h
  case inr => exact .inl hv
  cases hd with
  | proxyErr hp he =>
    refine (offer_moved rfl hv).imp id fun ⟨hg, _⟩ => ?_
    simp [result, he, hg]
  | @ended g' r n t m b v' hp hr hv' =>
    refine (offer_moved rfl hv).imp id fun ⟨hg, _⟩ => ?_
    simp only [result, hp, hr, hv', hg]
  | started | spawned | again | stopPoll | stopAll | cancelled =>
    refine (offer_moved rfl hv).imp id fun ⟨_, hp⟩ => ?_
    cases hp
  | _ => exact .inl hv

theorem offer_over (h : (c.polls g).over) : offer c g = none := by
  refine Option.eq_none_iff_forall_ne_some.mpr fun v hv => ?_
  rw [offer_eq_some.mp hv] at h
  cases h

theorem over_step (h : step env sig c l = some c') (ho : (c.polls g).over) :
    (c'.polls g).over := by
  have hkeeps {g' p} (hp : (c.polls g').over → p.over) : (Function.update c.polls g' p g).over :=
    Jobs.update_keeps (K := fun p : Poll => p.over) ho hp
  obtain ⟨d, hd, rfl | rfl⟩ := step_cases h
  case inr => exact ho
  cases hd with
  | proxyErr hp | started hp | spawned hp | ended hp | again hp =>
    exact hkeeps fun hover => by rw [hp] at hover; cases hover
  | stopPoll | stopAll | cancelled => exact hkeeps fun _ => rfl
  | _ => exact ho

/-! ## The order of the steps -/

/-- The instance has been told to stop and has not yet run `cancel()`. -/
def Poll.leaving : Poll → Bool
  | .stopping => true
  | _ => false

/-- The poll is in its select on request `r`. -/
def Poll.waits (r : Nat) : Poll → Bool
  | .select r' _ _ => r' = r
  | _ => false

def Request.sends : Request → Bool
  | .sending _ _ => true
  | _ => false

theorem Request.not_ended {q : Request} (h : q.sends) : q.ended = false := by
  cases q <;> first | rfl | cases h

theorem atSend_eq (c : Client) (r : Nat) : atSend c r = (c.requests r).sends := by
  unfold atSend
  cases c.requests r <;> rfl

/-- `LongPoll` takes a stop branch of its select only while its request is not in its send; a
request comes to its test of `cancelled` before its `LongPoll` is told to stop or after it has run
`cancel()`, and `http.NewRequest` fails only while it has not been told to stop; a new request
resets `cancelled` only when no request of an instance that has returned is left. -/
def InOrder (env : Env) (c : Client) : Label → Prop
  | .stopPoll g => ∀ r ∈ concerns c (.stopPoll g), atSend c r = false
  | .stopAll g => ∀ r ∈ concerns c (.stopAll g), atSend c r = false
  | .setup r => env.newRequestErr.isSome → (c.polls (c.owner r)).over = false
  | .test r => (c.polls (c.owner r)).leaving = false
  | .spawn _ => ∀ r < c.nrequests, (c.polls (c.owner r)).ended → (c.requests r).ended
  | _ => True

instance (c : Client) : (l : Label) → Decidable (InOrder env c l)
  | .stopPoll _ | .stopAll _ => inferInstanceAs (Decidable (∀ r ∈ _, atSend c r = false))
  | .setup _ => inferInstanceAs (Decidable (_ → _ = false))
  | .test _ => inferInstanceAs (Decidable (_ = false))
  | .spawn _ => inferInstanceAs (Decidable (∀ r < c.nrequests, _ → _))
  | .start _ | .recv _ | .cancel _ | .lock _ | .call _ | .reply _ _ | .clear _ => .isTrue trivial

/-- A poll at `p` has made request `r`, which is at `q`: the request has ended, or the poll waits
for it, or it is not in a send and its poll is about to set `cancelled` or has set it. -/
def Followed (cancelled : Bool) (p : Poll) (r : Nat) (q : Request) : Prop :=
  p ≠ .absent ∧ (q.ended ∨ p.waits r ∨ q.sends = false ∧ (p.leaving ∨ p.over ∧ cancelled))

/-- Every request that has not ended is followed by its poll. -/
def Attended (c : Client) : Prop :=
  Jobs .absent (Followed c.cancelled) c.polls c.requests c.owner c.nrequests

theorem Poll.over_of_leaving {p : Poll} (h : p.leaving) : p.over := by
  cases p <;> first | rfl | cases h

namespace Followed

theorem of_ended (hp : p ≠ .absent) (hq : q.ended) : Followed b p r q := ⟨hp, .inl hq⟩

theorem waiting (hp : p.waits r) : Followed b p r q := by
  refine ⟨?_, .inr (.inl hp)⟩
  rintro rfl
  cases hp

/-- The request of an instance that is in its loop has ended, unless the instance waits for it. -/
theorem ended (h : Followed b p r q) (hw : p.waits r = false) (hover : p.over = false) :
    q.ended := by
  obtain ⟨-, h | h | ⟨-, h⟩⟩ := h
  · exact h
  · rw [hw] at h
    cases h
  · have hover' : p.over := h.elim Poll.over_of_leaving And.left
    rw [hover] at hover'
    cases hover'

/-- A request that has not ended goes on, though not to its send. -/
theorem goes (h : Followed b p r q) (hq : q.ended = false) (hs : q'.sends = false) :
    Followed b p r q' := by
  refine ⟨h.1, ?_⟩
  obtain ⟨-, h | h | ⟨-, h⟩⟩ := h
  · rw [hq] at h
    cases h
  · exact .inr (.inl h)
  · exact .inr (.inr ⟨hs, h⟩)

/-- The poll of a request that goes to its send waits for it. -/
theorem awaited (h : Followed b p r q) (hq : q.ended = false)
    (ho : p.over = false ∨ p.leaving = false ∧ b = false) : p.waits r := by
  obtain ⟨-, h | h | ⟨-, h⟩⟩ := h
  · rw [hq] at h
    cases h
  · exact h
  · rcases ho with ho | ⟨hl, hb⟩
    · rw [h.elim Poll.over_of_leaving And.left] at ho
      cases ho
    · simp [hl, hb] at h

/-- The request of an instance that is told to stop. -/
theorem left (h : Followed b p r q) (hover : p.over = false) (hs : p.waits r → q.sends = false) :
    Followed b .stopping r q := by
  cases hw : p.waits r with
  | true => exact ⟨by simp, .inr (.inr ⟨hs hw, .inl rfl⟩)⟩
  | false => exact .of_ended (by simp) (h.ended hw hover)

/-- The request of an instance that has run `cancel()`. -/
theorem cancelled (h : Followed b .stopping r q) : Followed true .returned r q := by
  obtain ⟨-, h | h | ⟨hs, -⟩⟩ := h
  · exact .of_ended (by simp) h
  · cases h
  · exact ⟨by simp, .inr (.inr ⟨hs, .inr ⟨rfl, rfl⟩⟩)⟩

/-- A step resets `cancelled` while no request of an instance that has returned is left. -/
theorem reset (h : Followed b p r q) (ho : p.ended → q.ended) : Followed b' p r q := by
  refine ⟨h.1, ?_⟩
  obtain ⟨-, h | h | ⟨hs, h | ⟨hover, -⟩⟩⟩ := h
  · exact .inl h
  · exact .inr (.inl h)
  · exact .inr (.inr ⟨hs, .inl h⟩)
  · cases p with
    | stopping => exact .inr (.inr ⟨hs, .inl rfl⟩)
    | returned => exact .inl (ho rfl)
    | _ => cases hover

end Followed

/-! ## One step -/

namespace Attended

/-- An instance outside its select goes on: it has no request. -/
theorem goesOn (h : Attended c) (hw : ∀ r, (c.polls g).waits r = false)
    (hover : (c.polls g).over = false) (hp : p ≠ .absent) (tr : Option Nat) (wg : Nat) :
    Attended ({ c with wg := wg, transport := tr }.setPoll g p) :=
  h.moveWorker (fun r _ hf => .of_ended hp (hf.ended (hw r) hover)) fun _ _ _ => id

/-- `LongPoll` makes a request. -/
theorem spawn (h : Attended c) (hp : c.polls g = .loop n)
    (ho : ∀ r < c.nrequests, (c.polls (c.owner r)).ended → (c.requests r).ended) (now : Int) :
    Attended { c.setPoll g (.select c.nrequests n now) with
      requests := Function.update c.requests c.nrequests .spawned
      owner := Function.update c.owner c.nrequests g
      nrequests := c.nrequests + 1
      wg := c.wg + 1
      cancelled := false } := by
  have hmoved : Jobs .absent (Followed false)
      (Function.update c.polls g (.select c.nrequests n now)) c.requests c.owner c.nrequests := by
    refine h.moveWorker (fun r _ hf => ?_) fun r hr _ hf => hf.reset (ho r hr)
    rw [hp] at hf
    exact .of_ended (by simp) (hf.ended rfl rfl)
  refine hmoved.make ?_
  rw [Function.update_self]
  exact .waiting (decide_eq_true rfl)

/-- A request goroutine ends. -/
theorem exitRequest (h : Attended c) (hr : c.requests r ≠ .absent) : Attended (c.exitRequest r) :=
  h.moveJob hr fun hf => .of_ended hf.1 rfl

/-- `LongPoll` receives from its request goroutine, which ends. -/
theorem recv (h : Attended c) (hp : c.polls g = .select r n t) (hr : c.requests r ≠ .absent)
    (hx : p ≠ .absent) : Attended ((c.exitRequest r).setPoll g p) := by
  refine (h.exitRequest hr).moveWorker (fun r' _ hf => .of_ended hx ?_) fun _ _ _ => id
  rw [Client.exitRequest_polls, hp] at hf
  by_cases hne : r' = r
  · rw [hne, Client.exitRequest_requests, Function.update_self]
    rfl
  · exact hf.ended (decide_eq_false (Ne.symm hne)) rfl

/-- `LongPoll` takes a stop branch of its select. -/
theorem stop (h : Attended c) (hp : c.polls g = .select r n t) (ho : atSend c r = false) :
    Attended (c.setPoll g .stopping) := by
  refine h.moveWorker (fun r' _ hf => ?_) fun _ _ _ => id
  rw [hp] at hf
  refine hf.left rfl fun hw => ?_
  obtain rfl : r = r' := of_decide_eq_true hw
  exact (atSend_eq c r).symm.trans ho

/-- `LongPoll` runs `cancel()` and returns. -/
theorem cancel (h : Attended c) (hp : c.polls g = .stopping) : Attended (c.cancel g) := by
  refine h.moveWorker (fun r _ hf => ?_) fun r _ _ hf => ?_
  · rw [hp] at hf
    exact hf.cancelled
  · exact ⟨hf.1, hf.2.imp id (.imp id fun ⟨hs, hl⟩ => ⟨hs, hl.imp id fun ⟨ho, _⟩ => ⟨ho, rfl⟩⟩)⟩

theorem stepped (h : Attended c) (ho : InOrder env c l) (hs : Stepped env sig c l c') :
    Attended c' := by
  cases hs with
  | proxyErr hp | started hp =>
    exact h.goesOn (fun r => by rw [hp]; rfl) (by rw [hp]; rfl) (by simp) _ _
  | spawned hp => exact h.spawn hp ho _
  | ended hp hr | again hp hr => exact h.recv hp (by rw [hr]; simp) (by simp)
  | stopPoll hp | stopAll hp => exact h.stop hp (ho _ (by simp [concerns, hp]))
  | cancelled hp => exact h.cancel hp
  | locked hr | armed hr | called hr | replied hr | cleared hr =>
    exact h.moveJob (by rw [hr]; simp) fun hf => hf.goes (by rw [hr]; rfl) rfl
  | refused hr | nilRequest hr | dropped hr => exact h.exitRequest (by rw [hr]; simp)
  | badRequest hr _ he =>
    refine h.moveJob (by rw [hr]; simp) fun hf => .waiting (hf.awaited (by rw [hr]; rfl) (.inl ?_))
    exact ho (by rw [he]; rfl)
  | answered hr hc =>
    exact h.moveJob (by rw [hr]; simp) fun hf =>
      .waiting (hf.awaited (by rw [hr]; rfl) (.inr ⟨ho, hc⟩))

theorem step (h : Attended c) (ho : InOrder env c l) (hs : Exchange.step env sig c l = some c') :
    Attended c' := by
  obtain ⟨d, hd, rfl | rfl⟩ := step_cases hs
  · exact h.stepped ho hd
  · exact h

theorem launch (h : Attended c) (hg : c.polls g = .absent) : Attended (c.setPoll g .launched) :=
  h.moveWorker (fun _ _ hf => absurd hg hf.1) fun _ _ _ => id

theorem taken (h : Attended c) (hv : offer c g = some v) : Attended (c.setPoll g .stopping) := by
  have hp := offer_eq_some.mp hv
  exact h.goesOn (fun r => by rw [hp]; rfl) (by rw [hp]; rfl) (by simp) c.transport c.wg

theorem awaited (h : Attended c) (ha : atSend c r) : awaited c r := by
  rw [atSend_eq] at ha
  have hlt : r < c.nrequests := h.lt fun hr => by rw [hr] at ha; cases ha
  obtain ⟨-, hf | hf | ⟨hf, -⟩⟩ := h.each r hlt
  · rw [Request.not_ended ha] at hf
    cases hf
  · exact hf
  · rw [ha] at hf
    cases hf

end Attended

theorem attended_fresh : Attended {} :=
  ⟨fun _ _ => rfl, fun _ hr => absurd hr (Nat.not_lt_zero _)⟩

def order (env : Env) : (client env).Order where
  result := result env
  finished c g := (c.polls g).over
  InOrder := InOrder env
  Attended := Attended
  decidableInOrder := fun (c : Client) (l : Label) =>
    inferInstanceAs (Decidable (InOrder env c l))
  offer_step := offer_step
  offer_finished := offer_over
  finished_step := over_step
  finished_taken {c g _} _ := by
    show (Function.update c.polls g .stopping g).over
    rw [Function.update_self]
    rfl
  finished_cleanup := id
  attended_fresh := attended_fresh
  attended_step hs ho h := h.step ho hs
  attended_launch hg h := h.launch hg
  attended_taken hv h := h.taken hv
  attended_cleanup := id
  awaited_of_atSend h ha := h.awaited ha

end Pinger.Exchange
