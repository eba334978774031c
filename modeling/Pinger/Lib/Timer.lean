import Mathlib.Algebra.Group.Nat.Defs

/-! # One-shot timers with a one-slot channel

A timer is armed for a deadline or not, and owns a channel with room for one tick. When it
expires it is disarmed and a tick is put in the slot, unless one is already there. `stop` and
`reset` change only the deadline: a tick that is already in the slot stays there. Each arming
has a serial number and a tick records the arming that produced it.

Durations are 64-bit nanosecond counts, so a conversion from a larger unit wraps. -/

namespace GoTime

/-- `time.Duration(n) * unit`, in 64-bit arithmetic. -/
def duration (n unit : Int) : Int := (n * unit).bmod (2 ^ 64)

def nsPerMillisecond : Int := 1000000
def nsPerMinute : Int := 60000000000

def milliseconds (n : Nat) : Int := duration n nsPerMillisecond

structure Timer where
  deadline : Option Int := none
  tick : Option Nat := none
  armings : Nat := 0
  deriving DecidableEq, Repr

def newTimer (now d : Int) : Timer := { deadline := some (now + d), armings := 1 }

namespace Timer

def stop (t : Timer) : Timer := { t with deadline := none }

def reset (t : Timer) (now d : Int) : Timer :=
  { t with deadline := some (now + d), armings := t.armings + 1 }

/-- The timer is armed and its deadline has come. -/
def due (t : Timer) (now : Int) : Bool := t.deadline.any (· ≤ now)

/-- The expiry of a due timer. The tick is dropped when the slot is taken. -/
def expire (t : Timer) (now : Int) : Option Timer :=
  if t.due now then
    some { t with deadline := none, tick := t.tick.or (some t.armings) }
  else none

/-- Receive the waiting tick. -/
def recv (t : Timer) : Option Timer := t.tick.map fun _ => { t with tick := none }

/-- The timer is armed or a tick waits: a receive will not wait for ever. -/
def live (t : Timer) : Bool := t.deadline.isSome || t.tick.isSome

theorem live_reset {t : Timer} : (t.reset now d).live := rfl

theorem live_expire {t t' : Timer} (h : t.expire now = some t') : t'.live := by
  simp only [expire] at h
  split at h <;> cases h
  cases t.tick <;> simp [live]

theorem recv_eq_some {t t' : Timer} (h : t.recv = some t') : t' = { t with tick := none } := by
  obtain ⟨_, _, rfl⟩ := Option.map_eq_some_iff.mp h
  rfl

theorem recv_of_tick_none {t : Timer} (h : t.tick = none) : t.recv = none := by simp [recv, h]

/-- A timer that is not armed does not expire. -/
theorem expire_of_deadline_none {t : Timer} (h : t.deadline = none) : t.expire now = none := by
  simp [expire, due, h]

/-! ## Where a tick comes from -/

/-- Everything the timer holds comes from one arming: a tick that waits was sent by it, not before
its deadline. -/
structure ArmedBy (t : Timer) (arming : Nat) (dl now : Int) : Prop where
  armings : t.armings = arming
  tick : ∀ n, t.tick = some n → n = arming ∧ dl ≤ now
  deadline : ∀ d, t.deadline = some d → d = dl

variable {t t' : Timer}

/-- An arming with an empty slot. -/
theorem ArmedBy.reset (h : t.tick = none) :
    ArmedBy (t.reset now d) (t.armings + 1) (now + d) now := by
  refine ⟨rfl, fun n hn => ?_, fun d' hd => ?_⟩
  · rw [show (t.reset now d).tick = t.tick from rfl, h] at hn
    cases hn
  · cases hd
    rfl

theorem ArmedBy.stop (h : ArmedBy t arming dl now) : ArmedBy t.stop arming dl now :=
  ⟨h.armings, h.tick, fun _ hd => (nomatch hd)⟩

theorem ArmedBy.expire (h : ArmedBy t arming dl now) (he : t.expire now = some t') :
    ArmedBy t' arming dl now := by
  simp only [Timer.expire] at he
  split at he <;> cases he
  next hdue =>
  refine ⟨h.armings, fun n hn => ?_, fun _ hd => (nomatch hd)⟩
  cases ht : t.tick with
  | some m =>
    obtain rfl : m = n := by simpa [ht] using hn
    exact h.tick m ht
  | none =>
    obtain ⟨d, hd, hle⟩ : ∃ d, t.deadline = some d ∧ d ≤ now := by
      simpa [due, Option.any_eq_true] using hdue
    obtain rfl : t.armings = n := by simpa [ht] using hn
    exact ⟨h.armings, h.deadline d hd ▸ hle⟩

theorem ArmedBy.recv (h : ArmedBy t arming dl now) (hr : t.recv = some t') :
    ArmedBy t' arming dl now := by
  rw [recv_eq_some hr]
  exact ⟨h.armings, fun _ hn => (nomatch hn), h.deadline⟩

theorem ArmedBy.later (h : ArmedBy t arming dl now) (hle : now ≤ now') :
    ArmedBy t arming dl now' :=
  ⟨h.armings, fun n hn => ⟨(h.tick n hn).1, Int.le_trans (h.tick n hn).2 hle⟩, h.deadline⟩

end Timer

/-- A duration that fits in 63 bits does not wrap. -/
theorem milliseconds_eq (h : n * 1000000 < 2 ^ 63) : milliseconds n = (n * 1000000 : Nat) := by
  rw [milliseconds, duration, nsPerMillisecond, Int.bmod_eq_of_le_mul_two] <;> omega

/-- A wait that wraps at most once is kept exactly when it does not wrap at all. -/
theorem milliseconds_eq_iff (h : w = c ∨ w * 1000000 < 2 ^ 64) :
    milliseconds w = (c * 1000000 : Nat) ↔ w = c ∧ c * 1000000 < 2 ^ 63 := by
  refine ⟨fun heq => ?_, fun ⟨heq, hlt⟩ => heq ▸ milliseconds_eq (heq ▸ hlt)⟩
  have hc : c * 1000000 < 2 ^ 63 := by
    have hlt := Int.bmod_lt (x := (w : Int) * 1000000) (m := 2 ^ 64) (by decide)
    rw [milliseconds, duration, nsPerMillisecond] at heq
    omega
  refine ⟨h.elim id fun hw => ?_, hc⟩
  rcases Nat.lt_or_ge (w * 1000000) (2 ^ 63) with hlt | hge
  · rw [milliseconds_eq hlt] at heq
    omega
  · -- more than 63 bits become a negative duration
    rw [milliseconds, duration, nsPerMillisecond, Int.bmod_def,
      Int.emod_eq_of_lt (by omega) (by omega), if_neg (by omega)] at heq
    omega

end GoTime
