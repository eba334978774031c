import Pinger.Imap.Independence
import Pinger.Lib.Jobs

/-! # Requests that are left behind

`LongPoll` leaves its select when it is told to stop and when the timer of its request expires. The
request goroutine that it leaves behind ends without a send once `cancelled` is set, which nothing
resets; before that it goes to a send that nobody receives. -/

namespace Pinger.Imap

variable {env : Env} {sig : Signals} {c c' : Client}

/-! ## The results of the polls -/

/-- The instance that the step brings to its send on `errCh`. -/
def result (env : Env) (c : Client) : Label → Option Nat
  | .dial g false => some g
  | .io g e =>
    match pollIo env c.sh g (c.polls g) e with
    | some (_, .sending _) => some g
    | _ => none
  | .recv g =>
    match c.polls g with
    | .select r _ =>
      match c.requests r with
      | .sendErr false => some g
      | .sendResp => if c.sh.hasNewEmail then some g else none
      | _ => none
    | _ => none
  | _ => none

theorem offer_eq_some : offer c g = some v ↔ c.polls g = .sending v :=
  ⟨sending_of_offer, fun hp => by rw [offer, hp]⟩

/-- Only the instance that moves can come to a send. -/
theorem offer_moved (hp : c'.polls = Function.update c.polls g p) (h : offer c' g' = some v) :
    offer c g' = some v ∨ g' = g ∧ p = .sending v := by
  rw [offer_eq_some, hp] at h
  rw [offer_eq_some]
  exact Jobs.update_eq h

theorem ready_not_sending (env : Env) (sh : Shared) : (ready env sh).2 ≠ .sending v := by
  unfold ready
  split <;> simp

theorem offer_step (h : step env sig c l = some c') (hv : offer c' g = some v) :
    offer c g = some v ∨ result env c l = some g := by
  obtain ⟨d, hd, rfl | rfl⟩ := step_cases h
  case inr => exact .inl hv
  cases hd with
  | dialErr hp =>
    refine (offer_moved rfl hv).imp id fun ⟨hg, _⟩ => ?_
    rw [hg]
    rfl
  | io hio =>
    refine (offer_moved rfl hv).imp id fun ⟨hg, hp⟩ => ?_
    rw [hp] at hio
    simp only [result, hio, hg]
  | requestErr hp hr =>
    refine (offer_moved rfl hv).imp id fun ⟨hg, _⟩ => ?_
    simp only [result, hp, hr, hg]
  | newMail hp hr hm =>
    refine (offer_moved rfl hv).imp id fun ⟨hg, _⟩ => ?_
    simp only [result, hp, hr, hg, if_pos hm]
  | connected =>
    exact (offer_moved rfl hv).imp id fun ⟨_, hp⟩ => absurd hp (ready_not_sending env c.sh)
  | timer =>
    refine (offer_moved rfl hv).imp id fun ⟨_, hp⟩ => ?_
    split at hp <;> cases hp
  | alreadyIdling | started | setupConn | dialled | spawned | ioTimeout | noMail | stopPoll
  | stopAll | cancelled =>
    refine (offer_moved rfl hv).imp id fun ⟨_, hp⟩ => ?_
    cases hp
  | @requestIo r _ _ sh out =>
    obtain ⟨q, wg, heq, -⟩ := requestOut_eq { c with sh := sh } r out
    rw [heq] at hv
    exact .inl hv
  | _ => exact .inl hv

theorem offer_over (h : (c.polls g).working = false) : offer c g = none := by
  refine Option.eq_none_iff_forall_ne_some.mpr fun v hv => ?_
  rw [sending_of_offer hv] at h
  cases h

theorem over_step (h : step env sig c l = some c') (ho : (c.polls g).working = false) :
    (c'.polls g).working = false := by
  have hkeeps {g' p} (hp : (c.polls g').working = false → p.working = false) :
      (Function.update c.polls g' p g).working = false :=
    Jobs.update_keeps (K := fun p : Poll => p.working = false) ho hp
  obtain ⟨d, hd, rfl | rfl⟩ := step_cases h
  case inr => exact ho
  cases hd with
  | alreadyIdling hp | started hp | connected hp | setupConn hp | dialled hp | dialErr hp
  | spawned hp | timer hp | ioTimeout hp | requestErr hp | newMail hp | noMail hp =>
    exact hkeeps fun hover => by rw [hp] at hover; cases hover
  | io hio =>
    refine hkeeps fun hover => ?_
    rw [Poll.working_of_goesOn (Poll.goesOn_of_talks (pollIo_talks hio))] at hover
    cases hover
  | stopPoll | stopAll | cancelled => exact hkeeps fun _ => rfl
  | @requestIo r _ _ sh out =>
    obtain ⟨q, wg, heq, -⟩ := requestOut_eq { c with sh := sh } r out
    rw [heq]
    exact ho
  | _ => exact ho

/-! ## The order of the steps -/

/-- `LongPoll` leaves its select by a stop branch or by the timer of its request only while the
request is not in its send, and a request comes to its test of `cancelled` while `LongPoll` is in
the select on it, or when that instance has run `cancel()` and returned. -/
def InOrder (c : Client) : Label → Prop
  | .stopPoll g => ∀ r ∈ concerns c (.stopPoll g), atSend c r = false
  | .stopAll g => ∀ r ∈ concerns c (.stopAll g), atSend c r = false
  | .timer g => ∀ r ∈ concerns c (.timer g), atSend c r = false
  | .test r => awaited c r ∨ c.polls (c.owner r) = .returned
  | _ => True

instance (c : Client) : (l : Label) → Decidable (InOrder c l)
  | .stopPoll _ | .stopAll _ | .timer _ => inferInstanceAs (Decidable (∀ r ∈ _, atSend c r = false))
  | .test _ => inferInstanceAs (Decidable (_ ∨ _))
  | .start _ | .next _ | .dial _ _ | .io _ _ | .spawn _ | .recv _ | .cancel _ | .count _ | .begin _
  | .requestIo _ _ => .isTrue trivial

/-- The poll is in its select on request `r`. -/
def Poll.waits (r : Nat) : Poll → Bool
  | .select r' _ => r' = r
  | _ => false

def Request.sends : Request → Bool
  | .sendErr _ | .sendResp => true
  | _ => false

theorem atSend_eq (c : Client) (r : Nat) : atSend c r = (c.requests r).sends := by
  unfold atSend
  cases c.requests r <;> rfl

theorem awaited_eq (c : Client) (r : Nat) : awaited c r = (c.polls (c.owner r)).waits r := by
  unfold awaited
  cases c.polls (c.owner r) <;> rfl

/-- A poll at `p` has made request `r`, which is at `q`: the poll waits for it, or it is not in a
send, and when the poll has returned it has set `cancelled`. -/
def Followed (cancelled : Bool) (p : Poll) (r : Nat) (q : Request) : Prop :=
  (p.active ∨ p = .returned ∧ cancelled) ∧ (p.waits r ∨ q.sends = false)

/-- Every request that is in a send is followed by its poll. -/
def Attended (c : Client) : Prop :=
  Jobs .absent (Followed c.sh.cancelled) c.polls c.requests c.owner c.nrequests

namespace Followed

theorem quiet (h : Followed b p r q) (hs : q'.sends = false) : Followed b p r q' := ⟨h.1, .inr hs⟩

/-- The instance goes on and leaves no request behind that is in its send. -/
theorem goesOn (h : Followed b p r q) (hp : p'.active) (hs : p.waits r → q.sends = false) :
    Followed b p' r q := ⟨.inl hp, .inr (h.2.elim hs id)⟩

/-- An instance that has made a request has been entered. -/
theorem entered (h : Followed b p r q) (hp : p = .absent ∨ p = .launched) : False := by
  obtain ⟨h | ⟨rfl, -⟩, -⟩ := h
  · rcases hp with rfl | rfl <;> cases h
  · rcases hp with hp | hp <;> cases hp

/-- The poll of a request that goes to its send waits for it. -/
theorem awaited (h : Followed b p r q) (ho : p.waits r ∨ p = .returned) (hb : b = false) :
    p.waits r := by
  rcases ho with ho | rfl
  · exact ho
  · obtain ⟨h | ⟨-, h⟩, -⟩ := h
    · cases h
    · rw [hb] at h
      cases h

end Followed

/-! ## One step -/

/-- `LongPoll` itself leaves `cancelled` alone while it talks to the server. -/
theorem pollIo_cancelled (h : pollIo env sh g p e = some (sh', p')) :
    sh'.cancelled = sh.cancelled := by
  cases p with
  | greeting phase =>
    obtain ⟨seq, rfl⟩ := greet_tag h
    rfl
  | auth cmd | authAgain isOK cmd | examine cmd =>
    obtain ⟨⟨sh₁, out⟩, hstep, heq⟩ := Option.map_eq_some_iff.mp h
    obtain ⟨seq, htag⟩ := pollOut_tag env sh₁ _ out
    obtain rfl := (congrArg Prod.fst heq).symm.trans htag
    have hc := (Cmd.step_sameConn hstep).cancelled
    exact hc
  | _ => cases h

theorem Poll.waits_of_talks {p : Poll} (h : p.talks) : p.waits r = false := by
  cases p <;> first | rfl | cases h

namespace Attended

/-- Of the shared state only `cancelled` matters. -/
theorem of_jobs (hb : c.sh.cancelled = b)
    (h : Jobs .absent (Followed b) c.polls c.requests c.owner c.nrequests) : Attended c := by
  subst hb
  exact h

/-- An instance goes on and leaves no request behind that is in its send. -/
theorem movePoll (h : Attended c) (hp : p.active)
    (hs : ∀ r, (c.polls g).waits r → (c.requests r).sends = false) :
    Jobs .absent (Followed c.sh.cancelled) (Function.update c.polls g p) c.requests c.owner
      c.nrequests :=
  h.moveWorker (fun r _ hf => hf.goesOn hp (hs r)) fun _ _ _ => id

/-- An instance that is not in its select leaves no request behind. -/
theorem goesOn (h : Attended c) (hw : ∀ r, (c.polls g).waits r = false) (hp : p.active) :
    Jobs .absent (Followed c.sh.cancelled) (Function.update c.polls g p) c.requests c.owner
      c.nrequests :=
  h.movePoll hp fun r hr => by rw [hw r] at hr; cases hr

/-- `LongPoll` leaves its select. -/
theorem leave (h : Attended c) (hsel : c.polls g = .select r t) (hp : p.active)
    (ho : atSend c r = false) :
    Jobs .absent (Followed c.sh.cancelled) (Function.update c.polls g p) c.requests c.owner
      c.nrequests := by
  refine h.movePoll hp fun r' hr => ?_
  rw [hsel] at hr
  obtain rfl : r = r' := of_decide_eq_true hr
  exact (atSend_eq c r).symm.trans ho

/-- An instance that has not been entered has no request. -/
theorem enter (h : Attended c) (hg : c.polls g = .absent ∨ c.polls g = .launched) (p : Poll) :
    Jobs .absent (Followed c.sh.cancelled) (Function.update c.polls g p) c.requests c.owner
      c.nrequests :=
  h.moveWorker (fun _ _ hf => (hf.entered hg).elim) fun _ _ _ => id

/-- A request goroutine goes on, though not to its send. -/
theorem goes (h : Attended c) (hr : c.requests r ≠ .absent) (hs : q.sends = false) :
    Jobs .absent (Followed c.sh.cancelled) c.polls (Function.update c.requests r q) c.owner
      c.nrequests :=
  h.moveJob hr fun hf => hf.quiet hs

/-- A request goroutine comes to its send. -/
theorem comes (h : Attended c) (hr : c.requests r ≠ .absent) (ho : InOrder c (.test r))
    (hc : c.sh.cancelled = false) :
    Jobs .absent (Followed c.sh.cancelled) c.polls (Function.update c.requests r q) c.owner
      c.nrequests := by
  refine h.moveJob hr fun hf => ⟨hf.1, .inl (hf.awaited ?_ hc)⟩
  have ho : awaited c r ∨ c.polls (c.owner r) = .returned := ho
  rw [awaited_eq] at ho
  exact ho

/-- `LongPoll` receives from its request goroutine, which ends. -/
theorem recv (h : Attended c) (hsel : c.polls g = .select r t) (hr : c.requests r ≠ .absent)
    (hp : p.active) :
    Jobs .absent (Followed c.sh.cancelled) (Function.update c.polls g p)
      (Function.update c.requests r .exited) c.owner c.nrequests := by
  refine (h.goes hr rfl).moveWorker (fun r' _ hf => hf.goesOn hp fun hw => ?_) fun _ _ _ => id
  rw [hsel] at hw
  obtain rfl : r = r' := of_decide_eq_true hw
  rw [Function.update_self]
  rfl

/-- `LongPoll` makes a request. -/
theorem spawn (h : Attended c) (hp : c.polls g = .request) (t : Int) (command : GoString) :
    Jobs .absent (Followed c.sh.cancelled) (Function.update c.polls g (.select c.nrequests t))
      (Function.update c.requests c.nrequests (.spawned command))
      (Function.update c.owner c.nrequests g) (c.nrequests + 1) := by
  refine (h.goesOn (fun r => by rw [hp]; rfl) rfl).make ⟨.inl ?_, .inr rfl⟩
  rw [Function.update_self]
  rfl

/-- `LongPoll` runs `cancel()` and returns. -/
theorem cancel (h : Attended c) (hp : c.polls g = .stopping) :
    Jobs .absent (Followed true) (Function.update c.polls g .returned) c.requests c.owner
      c.nrequests := by
  refine h.moveWorker (fun r _ hf => ⟨.inr ⟨rfl, rfl⟩, ?_⟩) fun r _ _ hf => ?_
  · rw [hp] at hf
    exact .inr (hf.2.elim (fun hw => by cases hw) id)
  · exact ⟨hf.1.imp id fun ⟨hr, _⟩ => ⟨hr, rfl⟩, hf.2⟩

theorem stepped (h : Attended c) (ho : InOrder c l) (hs : Stepped env sig c l c') :
    Attended c' := by
  cases hs with
  | alreadyIdling hp | started hp => exact h.enter (.inr hp) _
  | connected hp =>
    obtain ⟨seq, htag⟩ := ready_tag env c.sh
    refine of_jobs (congrArg Shared.cancelled htag) (h.goesOn (fun r => by rw [hp]; rfl) ?_)
    exact Poll.active_of_goesOn (ready_goesOn env c.sh)
  | setupConn hp | dialled hp | dialErr hp => exact h.goesOn (fun r => by rw [hp]; rfl) rfl
  | @io g _ sh p hio =>
    refine of_jobs (pollIo_cancelled hio) (h.goesOn (fun r => ?_) (pollIo_active hio))
    exact Poll.waits_of_talks (pollIo_talks hio)
  | spawned hp => exact h.spawn hp _ _
  | @timer g r t hp ht =>
    have hc := (cancelIDLE_sameConn c.sh (some g)).cancelled
    refine of_jobs hc (h.leave hp ?_ (ho r (by simp [concerns, hp])))
    split <;> rfl
  | ioTimeout hp hr | requestErr hp hr | newMail hp hr | noMail hp hr =>
    exact h.recv hp (by rw [hr]; simp) rfl
  | stopPoll hp | stopAll hp => exact h.leave hp rfl (ho _ (by simp [concerns, hp]))
  | @cancelled g hp => exact of_jobs (cancel_cancelled c.sh (some g)) (h.cancel hp)
  | counted hr | begun hr | noConn hr => exact h.goes (by rw [hr]; simp) rfl
  | @requestIo r _ _ sh out hr hstep =>
    obtain ⟨q, wg, heq, herr, hresp, -⟩ := requestOut_eq { c with sh := sh } r out
    rw [heq]
    refine of_jobs (Cmd.step_sameConn hstep).cancelled (h.goes (by rw [hr]; simp) ?_)
    cases q <;> first | rfl | exact absurd rfl (herr _) | exact absurd rfl hresp
  | dropped hr => exact h.goes (by rcases hr with hr | ⟨t, hr⟩ <;> simp [hr]) rfl
  | failed hr hc | answered hr hc => exact h.comes (by rw [hr]; simp) ho hc

theorem step (h : Attended c) (ho : InOrder c l) (hs : Imap.step env sig c l = some c') :
    Attended c' := by
  obtain ⟨d, hd, rfl | rfl⟩ := step_cases hs
  · exact h.stepped ho hd
  · exact h

theorem awaited (h : Attended c) (ha : atSend c r) : awaited c r := by
  rw [atSend_eq] at ha
  rw [awaited_eq]
  have hlt : r < c.nrequests := h.lt fun hr => by rw [hr] at ha; cases ha
  refine (h.each r hlt).2.resolve_right fun hs => ?_
  rw [ha] at hs
  cases hs

end Attended

theorem attended_fresh (env : Env) : Attended (newIMAPClient env) :=
  ⟨fun _ _ => rfl, fun _ hr => absurd hr (Nat.not_lt_zero _)⟩

theorem attended_cleanup (h : Attended c) :
    Attended { c with sh := cancel c.sh none, cleaned := true } := by
  refine Attended.of_jobs (cancel_cancelled c.sh none) (h.mono fun hf => ⟨?_, hf.2⟩)
  exact hf.1.imp id fun ⟨hr, _⟩ => ⟨hr, rfl⟩

def order (env : Env) : (client env).Order where
  result := fun _ => result env
  finished c g := (c.polls g).working = false
  InOrder := InOrder
  Attended := Attended
  decidableInOrder := fun (c : Client) (l : Label) => inferInstanceAs (Decidable (InOrder c l))
  offer_step := offer_step
  offer_finished := offer_over
  finished_step := over_step
  finished_taken {c g _} _ := by
    show (Function.update c.polls g .stopping g).working = false
    rw [Function.update_self]
    rfl
  finished_cleanup := id
  attended_fresh := attended_fresh env
  attended_step hs ho h := h.step ho hs
  attended_launch hg h := h.enter (.inl hg) .launched
  attended_taken hv h := by
    have hp := sending_of_offer hv
    exact h.goesOn (fun r => by rw [hp]; rfl) rfl
  attended_cleanup := attended_cleanup
  awaited_of_atSend h ha := h.awaited ha

end Pinger.Imap
