import Pinger.Exchange.Classify
import Pinger.Exchange.OneResult

/-! # The back-off

How long `LongPoll` sleeps before a request depends on what it found the replies before to be. Each
bad outcome doubles the time, up to ten minutes, and a reply that says in good time that nothing has
changed sets it back to zero. -/

namespace Pinger.Exchange

open Session Transition

/-! ## Outcomes -/

/-- What a message is for `LongPoll`. -/
inductive Outcome
  | retry
  | badStatus
  | fastNoChange
  | slowNoChange
  | unhandled
  /-- The poll ends with a result. -/
  | ended
  deriving DecidableEq

/-- The poll backs off after this outcome. -/
def Outcome.backsOff : Outcome → Bool
  | .retry | .badStatus | .fastNoChange | .unhandled => true
  | .slowNoChange | .ended => false

/-- The body says that nothing has changed: for Sync it is empty. -/
def isNoChange (pi : MailPingInformation) (body : GoString) : Bool :=
  if pi.asIsSyncRequest then body = [] else pi.noChangeReply = some body

def isNewMail (pi : MailPingInformation) (body : GoString) : Bool :=
  if pi.asIsSyncRequest then body ≠ []
  else pi.expectedReply = none || pi.expectedReply = some body

def outcome (pi : MailPingInformation) (tooFast : Bool) : Message → Outcome
  | .err _ | .response _ (.error _) => .ended
  | .retry => .retry
  | .response statusCode (.ok body) =>
    if statusCode ≠ 200 then if statusCode = 401 then .ended else .badStatus
    else if isNoChange pi body then if tooFast then .fastNoChange else .slowNoChange
    else if isNewMail pi body then .ended
    else .unhandled

/-- The sleep time after this outcome, when the poll goes on. -/
def Outcome.sleepTime (sleepTime : Nat) : Outcome → Option Nat
  | .retry | .badStatus | .fastNoChange | .unhandled => some (exponentialBackoff sleepTime)
  | .slowNoChange => some 0
  | .ended => none

def Verdict.sleepTime : Verdict → Option Nat
  | .send _ => none
  | .again sleepTime => some sleepTime

/-- The outcome decides what becomes of the sleep time. -/
theorem sleepTime_verdict (pi : MailPingInformation) (tooFast : Bool) (n : Nat) (m : Message) :
    (verdict pi tooFast n m).sleepTime = (outcome pi tooFast m).sleepTime n := by
  cases m with
  | err e => cases e <;> rfl
  | retry => rfl
  | response statusCode body =>
  cases body with
  | error e => rfl
  | ok body =>
  by_cases hstatus : statusCode = 200
  · cases hsync : pi.asIsSyncRequest with
    | false =>
      by_cases hno : pi.noChangeReply = some body
      · cases tooFast <;> simp [verdict, outcome, isNoChange, hstatus, hsync, hno,
          Verdict.sleepTime, Outcome.sleepTime]
      · by_cases hnew : pi.expectedReply = none ∨ pi.expectedReply = some body <;>
          simp [verdict, outcome, isNoChange, isNewMail, hstatus, hsync, hno, hnew,
            Verdict.sleepTime, Outcome.sleepTime]
    | true =>
      by_cases hbody : body = []
      · cases tooFast <;> simp [verdict, outcome, isNoChange, hstatus, hsync, hbody,
          Verdict.sleepTime, Outcome.sleepTime]
      · simp [verdict, outcome, isNoChange, isNewMail, hstatus, hsync, hbody,
          Verdict.sleepTime, Outcome.sleepTime]
  · by_cases h401 : statusCode = 401 <;>
      simp [verdict, outcome, hstatus, h401, Verdict.sleepTime, Outcome.sleepTime]

/-! ## The closed form -/

/-- The back-off outcomes since the start or the last reset. -/
def streak (outcomes : List Outcome) : Nat := (outcomes.reverse.takeWhile Outcome.backsOff).length

theorem streak_snoc (outcomes : List Outcome) (o : Outcome) :
    streak (outcomes ++ [o]) = if o.backsOff then streak outcomes + 1 else 0 := by
  rw [streak, List.reverse_append, List.reverse_singleton, List.singleton_append, List.takeWhile_cons]
  cases o.backsOff <;> rfl

/-- The sleep time after `k` back-off outcomes. -/
def sleepAfter (k : Nat) : Nat := if k = 0 then 0 else min (2 ^ k) 600

theorem exponentialBackoff_sleepAfter (k : Nat) :
    exponentialBackoff (sleepAfter k) = sleepAfter (k + 1) := by
  cases k with
  | zero => rfl
  | succ k =>
    have hpow : 2 ^ (k + 1 + 1) = 2 * 2 ^ (k + 1) := Nat.pow_succ'
    have hpos : 0 < 2 ^ (k + 1) := Nat.two_pow_pos _
    rw [exponentialBackoff, sleepAfter, sleepAfter, if_neg (Nat.succ_ne_zero k),
      if_neg (Nat.succ_ne_zero _), hpow]
    omega

theorem sleepAfter_le (k : Nat) : sleepAfter k ≤ 600 := by
  rw [sleepAfter]
  split
  · exact Nat.zero_le 600
  · exact Nat.min_le_right ..

/-- One more outcome, when the poll goes on after it. -/
theorem Outcome.sleepTime_streak {outcomes : List Outcome} {o : Outcome}
    (h : o.sleepTime (sleepAfter (streak outcomes)) = some n) :
    n = sleepAfter (streak (outcomes ++ [o])) := by
  rw [streak_snoc]
  cases o with
  | retry | badStatus | fastNoChange | unhandled =>
    cases h
    exact exponentialBackoff_sleepAfter _
  | slowNoChange => cases h; rfl
  | ended => cases h

/-! ## The arithmetic of the machine

The sleep time is an `int`, it is doubled as one, and the minimum is taken of floating-point
numbers. -/

/-- `float64(n)`: the nearest number with 53 significant bits, of two the even one. -/
def float64 (n : Int) : Int :=
  let unit := 2 ^ (n.natAbs.log2 - 52)
  let q := n.natAbs / unit
  let r := n.natAbs % unit
  let q := if unit < 2 * r ∨ 2 * r = unit ∧ q % 2 = 1 then q + 1 else q
  n.sign * (q * unit : Nat)

/-- The function `exponentialBackoff` as it is compiled for a 64-bit platform. -/
def exponentialBackoffInt (sleepTime : Int64) : Int64 :=
  let sleepTime := if sleepTime ≤ 0 then 1 else sleepTime
  Int64.ofInt (min (float64 (sleepTime * 2).toInt) 600)

theorem float64_natCast {n : Nat} (h : n < 2 ^ 53) : float64 n = n := by
  have hlog : n.log2 - 52 = 0 := by
    rcases Nat.eq_zero_or_pos n with rfl | hn
    · rfl
    · have := (Nat.log2_lt (Nat.ne_of_gt hn)).mpr h
      omega
  simp only [float64, Int.natAbs_natCast, hlog, Nat.pow_zero, Nat.div_one, Nat.mod_one,
    Nat.mul_one, Nat.mul_zero, Nat.not_lt_zero, false_or]
  rw [if_neg (by omega)]
  rcases Nat.eq_zero_or_pos n with rfl | hn
  · rfl
  · rw [Int.sign_eq_one_of_pos (by omega), Int.one_mul]

/-- The time fits the machine's `int` and so does its double, and the function doubles it. -/
structure Machine (n : Nat) : Prop where
  fits : (Int64.ofNat n).toInt = n
  double : (Int64.ofNat (max n 1) * 2).toInt = 2 * max n 1
  backoff : (exponentialBackoffInt (Int64.ofNat n)).toInt = exponentialBackoff n

theorem toInt_ofNat_small (h : n ≤ 1200) : (Int64.ofNat n).toInt = n :=
  Int64.toInt_ofNat_of_lt (Nat.lt_of_le_of_lt h (by decide))

theorem machine_of_le (h : n ≤ 600) : Machine n := by
  have hfits := toInt_ofNat_small (n := n) (by omega)
  have hdouble : (Int64.ofNat (max n 1) * 2).toInt = (2 * max n 1 : Nat) := by
    have hmul : Int64.ofNat (max n 1) * 2 = Int64.ofNat (2 * max n 1) := by
      rw [Nat.mul_comm, Int64.ofNat_mul]
      rfl
    rw [hmul, toInt_ofNat_small (by omega)]
  refine ⟨hfits, hdouble, ?_⟩
  have hguard : (if Int64.ofNat n ≤ 0 then 1 else Int64.ofNat n) = Int64.ofNat (max n 1) := by
    rcases Nat.eq_zero_or_pos n with rfl | hn
    · rfl
    · rw [if_neg, Nat.max_eq_left hn]
      rw [Int64.le_iff_toInt_le, hfits]
      simpa using Nat.ne_of_gt hn
  have hmin : min ((2 * max n 1 : Nat) : Int) 600 = (exponentialBackoff n : Nat) := by
    rw [exponentialBackoff]
    omega
  rw [exponentialBackoffInt, hguard, hdouble, float64_natCast (by omega), hmin]
  exact toInt_ofNat_small (by rw [exponentialBackoff]; omega)

/-! ## Runs -/

variable {env : Env} {s s' : Caller (client env).State}

/-- The variable `sleepTime` of an instance in its loop. -/
def Poll.sleepTime : Poll → Option Nat
  | .loop sleepTime | .select _ sleepTime _ => some sleepTime
  | _ => none

/-- The outcome that instance `g` finds when it receives a message. -/
def received (s : Caller (client env).State) : CallerAct (client env).Label → List (Nat × Outcome)
  | .poll (.recv g) =>
    match s.mc.polls g with
    | .select r _ timeSent =>
      match s.mc.requests r with
      | .sending m _ => [(g, outcome env.pi (s.now - timeSent ≤ tooFastResponse env.pi) m)]
      | _ => []
    | _ => []
  | _ => []

/-- The outcomes that instance `g` has found. -/
def outcomesOf (g : Nat) (log : List (Nat × Outcome)) : List Outcome :=
  (log.filter (·.1 = g)).map (·.2)

/-! ## One step -/

/-- The instance has not come to its loop. -/
def Poll.early : Poll → Bool
  | .absent | .launched => true
  | _ => false

/-- Where a step leaves instance `g`. -/
inductive PollStep (env : Env) (sig : Signals) (c : Client) (g : Nat) : Label → Poll → Prop
  | same (hl : l ≠ .recv g) : PollStep env sig c g l (c.polls g)
  | started (hp : c.polls g = .launched) : PollStep env sig c g (.start g) (.loop 0)
  | spawned (hp : c.polls g = .loop n) : PollStep env sig c g (.spawn g) (.select r n t)
  | received (hp : c.polls g = .select r n t) (hr : c.requests r = .sending m b) :
      PollStep env sig c g (.recv g)
        (verdict env.pi (sig.now - t ≤ tooFastResponse env.pi) n m).next
  | left (hl : l ≠ .recv g) (hp : p.sleepTime = none) (he : p.early = false) :
      PollStep env sig c g l p

variable {sig : Signals} {c c' : Client}

/-- A step moves one instance, and only that one receives. -/
theorem PollStep.update (h : PollStep env sig c g' l p) (hl : ∀ g, g ≠ g' → l ≠ .recv g) (g : Nat) :
    PollStep env sig c g l (Function.update c.polls g' p g) := by
  by_cases hg : g = g'
  · subst hg
    rw [Function.update_self]
    exact h
  · rw [Function.update_of_ne hg]
    exact .same (hl g hg)

theorem Stepped.pollStep (h : Stepped env sig c l c') (g : Nat) :
    PollStep env sig c g l (c'.polls g) := by
  cases h with
  | proxyErr => exact .update (.left (by simp) rfl rfl) (by simp) g
  | started hp => exact .update (.started hp) (by simp) g
  | spawned hp => exact .update (.spawned hp) (by simp) g
  | ended hp hr hv =>
    have h := @PollStep.received env sig c _ _ _ _ _ _ hp hr
    rw [hv] at h
    exact h.update (by simp [eq_comm]) g
  | again hp hr hv =>
    have h := @PollStep.received env sig c _ _ _ _ _ _ hp hr
    rw [hv] at h
    exact h.update (by simp [eq_comm]) g
  | stopPoll | stopAll | cancelled => exact .update (.left (by simp) rfl rfl) (by simp) g
  | locked | refused | badRequest | armed | nilRequest | called | replied | cleared | dropped
  | answered => exact .same (by simp)

theorem sleepTime_next (v : Verdict) : v.next.sleepTime = v.sleepTime := by cases v <;> rfl

/-! ## Whole runs -/

theorem outcomesOf_append (log log' : List (Nat × Outcome)) :
    outcomesOf g (log ++ log') = outcomesOf g log ++ outcomesOf g log' := by
  rw [outcomesOf, List.filter_append, List.map_append]
  rfl

theorem received_select (hp : s.mc.polls g = .select r n t) (hr : s.mc.requests r = .sending m b) :
    received s (.poll (.recv g)) = [(g, outcome env.pi (s.now - t ≤ tooFastResponse env.pi) m)] := by
  simp only [received, hp, hr]

/-- A step in which the instance receives nothing adds nothing to its outcomes. -/
theorem outcomesOf_received {a : CallerAct (client env).Label} (h : a ≠ .poll (.recv g)) :
    outcomesOf g (received s a) = [] := by
  cases a with
  | launch | take | closePoll | closeAll | advance => rfl
  | poll l =>
    cases l with
    | recv g' =>
      have hg : g' ≠ g := fun e => h (e ▸ rfl)
      simp only [received]
      split
      · split
        · simp [outcomesOf, hg]
        · rfl
      · rfl
    | _ => rfl

/-- The sleep time of every instance in its loop is that of its history. -/
structure Threaded (log : List (Nat × Outcome)) (s : Caller (client env).State) : Prop where
  tidy : Tidy s.mc s.launched
  early : (s.mc.polls g).early → outcomesOf g log = []
  sleepTime : (s.mc.polls g).sleepTime = some n → n = sleepAfter (streak (outcomesOf g log))

theorem Threaded.keep {log : List (Nat × Outcome)} (h : Threaded log s)
    (hlog : ∀ g, outcomesOf g log' = outcomesOf g log) (htidy : Tidy s'.mc s'.launched)
    (hpolls : ∀ g, s'.mc.polls g = s.mc.polls g ∨
      (s'.mc.polls g).sleepTime = none ∧ ((s'.mc.polls g).early → (s.mc.polls g).early)) :
    Threaded log' s' := by
  refine ⟨htidy, fun {g} he => ?_, fun {g n} hn => ?_⟩
  · rw [hlog]
    rcases hpolls g with hp | ⟨-, hp⟩
    · exact h.early (hp ▸ he)
    · exact h.early (hp he)
  · rw [hlog]
    rcases hpolls g with hp | ⟨hp, -⟩
    · exact h.sleepTime (hp ▸ hn)
    · rw [hp] at hn
      cases hn

theorem Threaded.poll {log : List (Nat × Outcome)} {l : (client env).Label} (h : Threaded log s)
    (hs : Stepped env s.signals s.mc l s'.mc) (htidy : Tidy s'.mc s'.launched) :
    Threaded (log ++ received s (.poll l)) s' := by
  have hother (g) (hl : l ≠ .recv g) :
      outcomesOf g (log ++ received s (.poll l)) = outcomesOf g log := by
    have hnone : outcomesOf g (received s (.poll l)) = [] :=
      outcomesOf_received fun e => hl (CallerAct.poll.inj e)
    rw [outcomesOf_append, hnone, List.append_nil]
  refine ⟨htidy, fun {g} he => ?_, fun {g n} hn => ?_⟩
  · have hstep := hs.pollStep g
    generalize s'.mc.polls g = p at hstep he
    cases hstep with
    | same hl =>
      rw [hother g hl]
      exact h.early he
    | @received _ _ _ m _ hp hr =>
      cases hv : verdict env.pi _ _ m <;> rw [hv] at he <;> cases he
    | left _ _ hp =>
      rw [hp] at he
      cases he
    | started | spawned => cases he
  · have hstep := hs.pollStep g
    generalize s'.mc.polls g = p at hstep hn
    cases hstep with
    | same hl =>
      rw [hother g hl]
      exact h.sleepTime hn
    | started hp =>
      cases hn
      rw [hother g (fun e => by cases e), h.early (by rw [hp]; rfl)]
      rfl
    | spawned hp =>
      rw [hother g (fun e => by cases e)]
      exact h.sleepTime (by rw [hp]; exact hn)
    | @received _ k _ _ _ hp hr =>
      have hk : k = sleepAfter (streak (outcomesOf g log)) := h.sleepTime (by rw [hp]; rfl)
      rw [sleepTime_next, sleepTime_verdict, hk] at hn
      rw [outcomesOf_append, received_select hp hr]
      have hself : ∀ o : Outcome, outcomesOf g [(g, o)] = [o] := fun o => by simp [outcomesOf]
      rw [hself]
      exact Outcome.sleepTime_streak hn
    | left _ hp =>
      rw [hp] at hn
      cases hn

theorem Threaded.step {log : List (Nat × Outcome)} {a : CallerAct (client env).Label}
    (h : Threaded log s) (hs : Caller.step (client env) s a = some s') :
    Threaded (log ++ received s a) s' := by
  have htidy := h.tidy.step hs
  cases a with
  | launch =>
    cases hs
    refine h.keep (fun g => by simp [received]) htidy fun g => ?_
    by_cases hg : g = s.launched
    · subst hg
      right
      show (Function.update s.mc.polls s.launched .launched s.launched).sleepTime = none ∧ _
      rw [Function.update_self, h.tidy.absent _ (Nat.le_refl _)]
      exact ⟨rfl, fun _ => rfl⟩
    · exact .inl (Function.update_of_ne hg ..)
  | take g =>
    obtain ⟨v, hv, rfl⟩ := Option.map_eq_some_iff.mp hs
    refine h.keep (fun g => by simp [received]) htidy fun g' => ?_
    by_cases hg : g' = g
    · subst hg
      right
      show (Function.update s.mc.polls g' .stopping g').sleepTime = none ∧
        ((Function.update s.mc.polls g' .stopping g').early → _)
      rw [Function.update_self]
      exact ⟨rfl, fun he => by cases he⟩
    · exact .inl (Function.update_of_ne hg ..)
  | poll l =>
    obtain ⟨mc, hm, rfl⟩ := Option.map_eq_some_iff.mp hs
    exact h.poll (stepped_of_alive h.tidy.died h.tidy.cleaned hm) htidy
  | closePoll | closeAll | advance =>
    cases hs
    exact h.keep (fun g => by simp [received]) htidy fun g => .inl rfl

/-- The sleep time of instance `g` in its loop is at most 600, it is zero after a slow reply without
a change and given by the back-off outcomes since, and the machine computes it without overflow. -/
structure BacksOff (outcomes : List Outcome) (p : Poll) : Prop where
  le : p.sleepTime = some n → n ≤ 600
  reset : p.sleepTime = some n → outcomes.getLast? = some .slowNoChange → n = 0
  closed : p.sleepTime = some n →
    n = if streak outcomes = 0 then 0 else min (2 ^ streak outcomes) 600
  machine : p.sleepTime = some n → Machine n

theorem streak_of_reset {outcomes : List Outcome} (h : outcomes.getLast? = some .slowNoChange) :
    streak outcomes = 0 := by
  obtain ⟨front, rfl⟩ := List.getLast?_eq_some_iff.mp h
  rw [streak_snoc]
  rfl

theorem Threaded.backsOff {log : List (Nat × Outcome)} (h : Threaded log s) (g : Nat) :
    BacksOff (outcomesOf g log) (s.mc.polls g) where
  le hn := h.sleepTime hn ▸ sleepAfter_le _
  reset hn hlast := by
    rw [h.sleepTime hn, streak_of_reset hlast]
    rfl
  closed := h.sleepTime
  machine hn := machine_of_le (h.sleepTime hn ▸ sleepAfter_le _)

/-- Whatever is received, the sleep time of every instance follows its back-off outcomes. -/
theorem sleepTime_backsOff
    (h : Run (Caller.step (client env)) Free { mc := (client env).fresh } as s) (g : Nat) :
    BacksOff (outcomesOf g (observe (Caller.step (client env)) received
      { mc := (client env).fresh } as)) (s.mc.polls g) := by
  have hinit : @Threaded env [] { mc := (client env).fresh } :=
    ⟨tidy_init, fun _ => rfl, fun hn => by cases hn⟩
  exact (h.observe_inv (fun ht _ hs => ht.step hs) hinit).backsOff g

/-- Request `r` of instance 0, with what becomes of it. -/
def attempt (r : Nat) (o : DoOutcome) : List (CallerAct Label) :=
  (requestSteps 0 r ++ [Label.reply r o, .clear r, .test r]).map .poll ++
    [.advance 1, .poll (.recv 0)]

/-- A server that is busy, a reply in good time, and the busy server again. -/
def busyActs : List (CallerAct Label) :=
  let busy : DoOutcome := .ok { statusCode := 503, chunk := GoString.lit "busy", readErr := none }
  let noChange : DoOutcome := .ok { statusCode := 200, chunk := GoString.lit "no", readErr := none }
  List.flatten [[.launch, .poll (.start 0)], attempt 0 busy, attempt 1 noChange, attempt 2 busy]

theorem sleepTime_backsOff_busy :
    ∃ s : Caller (client { pi := pingInfo }).State,
      Run (Caller.step (client { pi := pingInfo })) Free { mc := {} } busyActs s ∧
      (s.mc.polls 0).sleepTime = some 2 ∧
      BacksOff [.badStatus, .slowNoChange, .badStatus] (s.mc.polls 0) := by
  have hexec : (exec (Caller.step (client { pi := pingInfo })) { mc := {} } busyActs).map
      (fun s => (s.mc.polls 0).sleepTime) = some (some 2) := by decide +kernel
  obtain ⟨s, hs, hp⟩ := Option.map_eq_some_iff.mp hexec
  have h := Run.of_exec hs
  have hlog : outcomesOf 0 (observe (Caller.step (client { pi := pingInfo })) received { mc := {} }
      busyActs) = [.badStatus, .slowNoChange, .badStatus] := by decide +kernel
  have hbacks : BacksOff (outcomesOf 0 (observe (Caller.step (client { pi := pingInfo })) received
      { mc := {} } busyActs)) (s.mc.polls 0) := sleepTime_backsOff h 0
  rw [hlog] at hbacks
  exact ⟨s, h, hp, hbacks⟩

end Pinger.Exchange
