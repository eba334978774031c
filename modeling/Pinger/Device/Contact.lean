import Pinger.Device.Store
import Pinger.Lib.Run
import Pinger.Lib.Versioned

/-! # The times of the last contact

A device contact is read, one of its times is set in the copy, and the copy is written back as a
whole. The copy is written only when nobody has written the row in between, which its version, the
column `Id`, tells; otherwise the update is refused, and there is no second attempt. So in whatever
order the goroutines of all the hosts take their steps, a row is what the updates that were applied
make of it one after the other: setting one of the times never puts back the other. Neither time
goes back either, as all of them are taken from one clock that does not. -/

namespace Pinger.Contact

open Transition

/-! ## The rows -/

/-- A row of `device_contact`, or a copy of it. -/
structure DeviceContact where
  key : ContactKey
  id : Nat := 0
  created : Int := 0
  updated : Int := 0
  lastContact : Int := 0
  lastContactRequest : Int := 0
  deriving DecidableEq, Repr

abbrev ContactTable := Table ContactKey DeviceContact

def newDeviceContact (key : ContactKey) : DeviceContact := { key }

namespace DeviceContact

/-- `PreInsert`. There is no `PreUpdate`. -/
def preInsert (now : Int) (dc : DeviceContact) : DeviceContact :=
  { dc with created := now, updated := now, lastContact := now }

/-- The row is written with the next version. -/
def bump (dc : DeviceContact) : DeviceContact := { dc with id := dc.id + 1 }

end DeviceContact

/-- The time that `updateLastContact` or `updateLastContactRequest` sets. -/
inductive Touch
  | contact
  | request
  deriving DecidableEq, Repr

def Touch.set (now : Int) (dc : DeviceContact) : Touch → DeviceContact
  | .contact => { dc with lastContact := now }
  | .request => { dc with lastContactRequest := now }

/-! ## The goroutines -/

/-- `getContactInfoObj(true)`, or the setting of a time after `getContactInfoObj(false)`. -/
inductive Op
  | ensure
  | touch (touch : Touch)
  deriving DecidableEq, Repr

/-- Where a goroutine is. In `updating` the time has been taken, and the copy is the row that was
read with the time set in it. -/
inductive Pc
  | idle
  | getting (op : Op) (key : ContactKey)
  | preparing (key : ContactKey)
  | inserting (dc : DeviceContact)
  | stamping (touch : Touch) (dc : DeviceContact)
  | updating (touch : Touch) (dc : DeviceContact) (now : Int)
  | panicked
  deriving DecidableEq, Repr

/-- The table, and the goroutines that work on it. -/
structure Contacts where
  now : Int
  table : ContactTable
  pc : Nat → Pc

/-- A statement of the database may fail, and it may be applied all the same. -/
inductive Act
  | tick (d : Nat)
  | call (i : Nat) (op : Op) (key : ContactKey)
  | get (i : Nat) (ok : Bool)
  | prepare (i : Nat)
  | insert (i : Nat) (applied ok : Bool)
  | stamp (i : Nat)
  | update (i : Nat) (applied : Bool)
  deriving DecidableEq, Repr

namespace Contacts

def setPc (s : Contacts) (i : Nat) (pc : Pc) : Contacts :=
  { s with pc := Function.update s.pc i pc }

/-- What follows the `get`: no row is an error unless one is to be inserted. -/
def got (op : Op) (key : ContactKey) : Option DeviceContact → Pc
  | none =>
    match op with
    | .ensure => .preparing key
    | .touch _ => .idle
  | some dc =>
    match op with
    | .ensure => .idle
    | .touch touch => .stamping touch dc

def step (s : Contacts) : Act → Option Contacts
  | .tick d => some { s with now := s.now + d }
  | .call i op key => if s.pc i = .idle then some (s.setPc i (.getting op key)) else none
  | .get i ok =>
    match s.pc i with
    | .getting op key => some (s.setPc i (if ok then got op key (s.table key) else .idle))
    | _ => none
  | .prepare i =>
    match s.pc i with
    | .preparing key => some (s.setPc i (.inserting ((newDeviceContact key).preInsert s.now)))
    | _ => none
  | .insert i applied ok =>
    match s.pc i with
    | .inserting dc =>
      match if applied then s.table.insert dc.key dc.bump else none with
      | some table => some ({ s with table }.setPc i (if ok then .idle else .panicked))
      | none => some (s.setPc i .panicked)
    | _ => none
  | .stamp i =>
    match s.pc i with
    | .stamping touch dc => some (s.setPc i (.updating touch dc s.now))
    | _ => none
  | .update i applied =>
    match s.pc i with
    | .updating touch dc now =>
      let dc := touch.set now dc
      match if applied then s.table.update DeviceContact.id dc.key dc.id dc.bump else none with
      | some table => some ({ s with table }.setPc i .idle)
      | none => some (s.setPc i .idle)
    | _ => none

/-- The copy of a row that a goroutine has. -/
def copy : Pc → Option (Versioned.Copy ContactKey DeviceContact)
  | .stamping _ dc => some ⟨dc.key, dc, dc⟩
  | .updating touch dc now => some ⟨dc.key, dc, touch.set now dc⟩
  | _ => none

/-- The rows and the copies of them. -/
def cells (s : Contacts) : Versioned.State ContactKey DeviceContact Nat :=
  ⟨s.table, fun i => copy (s.pc i)⟩

end Contacts

open Contacts (copy cells)

/-- The rows are under their keys. -/
def Keyed (t : ContactTable) : Prop := ∀ k row, t k = some row → row.key = k

theorem Touch.set_key (touch : Touch) (now : Int) (dc : DeviceContact) :
    (touch.set now dc).key = dc.key := by cases touch <;> rfl

theorem Touch.set_id (touch : Touch) (now : Int) (dc : DeviceContact) :
    (touch.set now dc).id = dc.id := by cases touch <;> rfl

variable {s s' : Contacts} {a : Act}

theorem cells_setPc (s : Contacts) (i : Nat) (pc : Pc) : cells (s.setPc i pc) =
    { cells s with copies := Function.update (cells s).copies i (copy pc) } := by
  have hcopies := Function.comp_update copy s.pc i pc
  rw [cells, cells, Contacts.setPc]
  congr

theorem Keyed.put {t : ContactTable} (h : Keyed t) (row : DeviceContact) :
    Keyed (t.put row.key row) := by
  intro k row' hrow
  by_cases hk : k = row.key
  · subst hk
    rw [Table.put_self] at hrow
    cases hrow
    rfl
  · rw [Table.put_of_ne hk] at hrow
    exact h k row' hrow

/-! ## What a step does -/

/-- An update that was applied. -/
structure Applied where
  key : ContactKey
  touch : Touch
  now : Int
  deriving DecidableEq, Repr

/-- The update that a step applies. -/
def applied (s : Contacts) : Act → List Applied
  | .update i true =>
    match s.pc i with
    | .updating touch dc now =>
      if (s.table dc.key).map DeviceContact.id = some dc.id then [⟨dc.key, touch, now⟩] else []
    | _ => []
  | _ => []

/-- A step with the update that it applies. It leaves the table alone, or it inserts a row, or it
updates one. -/
inductive Moves (s : Contacts) : List Applied → Contacts → Prop
  | tick (d : Nat) : Moves s [] { s with now := s.now + d }
  | call : Moves s [] (s.setPc i (.getting op key))
  | get : s.pc i = .getting op key → Moves s [] (s.setPc i (Contacts.got op key (s.table key)))
  | prepare : Moves s [] (s.setPc i (.inserting ((newDeviceContact key).preInsert s.now)))
  | insert : s.pc i = .inserting dc → s.table dc.key = none → copy pc = none →
      (∀ dc, pc ≠ .inserting dc) →
      Moves s [] ({ s with table := s.table.put dc.key dc.bump }.setPc i pc)
  | stamp : s.pc i = .stamping touch dc → Moves s [] (s.setPc i (.updating touch dc s.now))
  | update : s.pc i = .updating touch dc now →
      (s.table dc.key).map DeviceContact.id = some dc.id → Moves s [⟨dc.key, touch, now⟩]
        ({ s with table := s.table.put dc.key (touch.set now dc).bump }.setPc i .idle)
  /-- A statement has failed, or the update was refused. -/
  | fail : copy pc = none → (∀ dc, pc ≠ .inserting dc) → Moves s [] (s.setPc i pc)

theorem moves (hs : s.step a = some s') : Moves s (applied s a) s' := by
  cases a with
  | tick d =>
    cases hs
    exact .tick d
  | call i op key =>
    simp only [Contacts.step] at hs
    split at hs <;> cases hs
    exact .call
  | get i ok =>
    simp only [Contacts.step] at hs
    split at hs <;> cases hs
    next hpc =>
      cases ok
      · exact .fail rfl fun _ h => by cases h
      · exact .get hpc
  | prepare i =>
    simp only [Contacts.step] at hs
    split at hs <;> cases hs
    exact .prepare
  | insert i applied ok =>
    simp only [Contacts.step] at hs
    split at hs
    next dc hpc =>
      split at hs <;> cases hs
      next table htable =>
        split at htable
        · obtain ⟨hfree, rfl⟩ := Table.insert_eq_some htable
          cases ok
          · exact .insert hpc hfree rfl fun _ h => by cases h
          · exact .insert hpc hfree rfl fun _ h => by cases h
        · cases htable
      next => exact .fail rfl fun _ h => by cases h
    next => cases hs
  | stamp i =>
    simp only [Contacts.step] at hs
    split at hs <;> cases hs
    next hpc => exact .stamp hpc
  | update i ok =>
    simp only [Contacts.step] at hs
    split at hs
    next touch dc now hpc =>
      rw [touch.set_key, touch.set_id] at hs
      split at hs <;> cases hs
      next table htable =>
        split at htable
        next hok =>
          subst hok
          obtain ⟨⟨row, hrow, hid⟩, rfl⟩ := Table.update_eq_some htable
          have hver : (s.table dc.key).map DeviceContact.id = some dc.id := by
            rw [hrow, Option.map_some, hid]
          have hlog : applied s (.update i true) = [⟨dc.key, touch, now⟩] := by
            simp only [applied, hpc, if_pos hver]
          rw [hlog]
          exact .update hpc hver
        next => cases htable
      next hrefused =>
        have hlog : applied s (.update i ok) = [] := by
          cases ok with
          | false => rfl
          | true =>
            simp only [applied, hpc]
            refine if_neg fun hver => ?_
            simp [Table.update, hver] at hrefused
        rw [hlog]
        exact .fail rfl fun _ h => by cases h
    next => cases hs

/-! ## No update is lost -/

/-- A step is one of the versioned rows. -/
theorem Moves.versioned (h : Moves s log s') (hkeyed : Keyed s.table) :
    Relation.ReflGen (Versioned.Step DeviceContact.id DeviceContact.bump) (cells s) (cells s') := by
  cases h with
  | tick => exact .refl
  | call | prepare =>
    rw [cells_setPc]
    exact .single (.drop _)
  | fail hpc =>
    rw [cells_setPc, hpc]
    exact .single (.drop _)
  | @get i op key hpc =>
    rw [cells_setPc]
    cases hrow : s.table key with
    | none =>
      have hcopy : copy (Contacts.got op key none) = none := by cases op <;> rfl
      rw [hcopy]
      exact .single (.drop _)
    | some dc =>
      cases op with
      | ensure => exact .single (.drop _)
      | touch touch =>
        have hkey := hkeyed key dc hrow
        subst hkey
        exact .single (.read i hrow)
  | @insert i dc pc hpc hfree hcopy =>
    have hnone : (cells s).copies i = none := by
      rw [cells]
      simp only [hpc, copy]
    have hsame : Function.update (cells s).copies i none = (cells s).copies :=
      (Function.update_eq_iff ..).mpr ⟨hnone.symm, fun _ _ => rfl⟩
    rw [cells_setPc, hcopy]
    have hcells : (Versioned.State.mk (s.table.put dc.key dc.bump)
        (Function.update (cells s).copies i none)) =
        { cells s with table := (cells s).table.put dc.key dc.bump } := by
      rw [hsame]
      rfl
    exact hcells ▸ .single (.insert dc.key dc.bump hfree)
  | @stamp i touch dc hpc =>
    rw [cells_setPc]
    have hcopy : (cells s).copies i = some ⟨dc.key, dc, dc⟩ := by
      rw [cells]
      simp only [hpc, copy]
    exact .single (.edit i (touch.set s.now dc) hcopy (touch.set_id _ _))
  | @update i touch dc now hpc hver =>
    rw [cells_setPc]
    have hcopy : (cells s).copies i = some ⟨dc.key, dc, touch.set now dc⟩ := by
      rw [cells]
      simp only [hpc, copy]
    exact .single (.write i hcopy (by rw [touch.set_id]; exact hver))

theorem DeviceContact.id_lt_bump (dc : DeviceContact) : dc.id < dc.bump.id := Nat.lt_succ_self _

/-- The times of the copy are not later than this one. -/
def DeviceContact.Before (dc : DeviceContact) (t : Int) : Prop :=
  dc.lastContact ≤ t ∧ dc.lastContactRequest ≤ t

/-- A time is taken after the row was read. A row that is to be inserted has no version yet. -/
def Timely (now : Int) : Pc → Prop
  | .inserting dc => dc.id = 0 ∧ dc.Before now
  | .stamping _ dc => dc.Before now
  | .updating _ dc t => dc.Before t ∧ t ≤ now
  | _ => True

structure Steady (s : Contacts) : Prop where
  keyed : Keyed s.table
  current : Versioned.Current DeviceContact.id (cells s)
  clock : 0 ≤ s.now
  row : ∀ k row, s.table k = some row → row.Before s.now
  pc : ∀ i, Timely s.now (s.pc i)

theorem DeviceContact.Before.mono {dc : DeviceContact} (h : dc.Before t) (hle : t ≤ t') :
    dc.Before t' := ⟨Int.le_trans h.1 hle, Int.le_trans h.2 hle⟩

theorem Timely.mono (h : Timely now pc) (hle : now ≤ now') : Timely now' pc := by
  cases pc with
  | inserting dc => exact ⟨h.1, h.2.mono hle⟩
  | stamping touch dc => exact DeviceContact.Before.mono h hle
  | updating touch dc t => exact ⟨h.1, Int.le_trans h.2 hle⟩
  | _ => trivial

theorem DeviceContact.Before.set {dc : DeviceContact} (h : dc.Before t) (touch : Touch) :
    (touch.set t dc).Before t := by
  cases touch with
  | contact => exact ⟨Int.le_refl t, h.2⟩
  | request => exact ⟨h.1, Int.le_refl t⟩

theorem timely_update {pcs : Nat → Pc} (h : ∀ i, Timely now (pcs i)) (hpc : Timely now pc) :
    ∀ j, Timely now (Function.update pcs i pc j) := by
  intro j
  rw [Function.update_apply]
  split
  · exact hpc
  · exact h j

theorem before_put {t : ContactTable} (h : ∀ k row, t k = some row → row.Before now)
    (hnew : new.Before now) : ∀ k row, t.put key new k = some row → row.Before now :=
  Table.All.put h hnew

theorem Steady.moves (h : Steady s) (hs : Moves s log s') : Steady s' := by
  have hcurrent := h.current.run DeviceContact.id_lt_bump (hs.versioned h.keyed).to_reflTransGen
  cases hs with
  | tick d =>
    have hle : s.now ≤ s.now + d := Int.le_add_of_nonneg_right (Int.natCast_nonneg d)
    exact ⟨h.keyed, hcurrent, Int.le_trans h.clock hle,
      fun k row hrow => (h.row k row hrow).mono hle, fun i => (h.pc i).mono hle⟩
  | call => exact ⟨h.keyed, hcurrent, h.clock, h.row, timely_update h.pc trivial⟩
  | @get i op key hpc =>
    refine ⟨h.keyed, hcurrent, h.clock, h.row, timely_update h.pc ?_⟩
    cases hrow : s.table key with
    | none => cases op <;> trivial
    | some dc =>
      cases op with
      | ensure => trivial
      | touch touch => exact h.row key dc hrow
  | prepare =>
    exact ⟨h.keyed, hcurrent, h.clock, h.row, timely_update h.pc ⟨rfl, Int.le_refl _, h.clock⟩⟩
  | @insert i dc pc hpc hfree hcopy hno =>
    have hbefore := h.pc i
    rw [hpc] at hbefore
    refine ⟨h.keyed.put dc.bump, hcurrent, h.clock, before_put h.row hbefore.2,
      timely_update h.pc ?_⟩
    cases pc with
    | inserting dc => exact absurd rfl (hno dc)
    | stamping | updating => cases hcopy
    | _ => trivial
  | @stamp i touch dc hpc =>
    have hbefore := h.pc i
    rw [hpc] at hbefore
    exact ⟨h.keyed, hcurrent, h.clock, h.row, timely_update h.pc ⟨hbefore, Int.le_refl _⟩⟩
  | @update i touch dc now hpc hver =>
    have hbefore := h.pc i
    rw [hpc] at hbefore
    have hkeyed := h.keyed.put (touch.set now dc).bump
    have hkey : (touch.set now dc).bump.key = dc.key := touch.set_key now dc
    rw [hkey] at hkeyed
    exact ⟨hkeyed, hcurrent, h.clock,
      before_put h.row ((hbefore.1.set touch).mono hbefore.2), timely_update h.pc trivial⟩
  | @fail pc i hcopy hno =>
    refine ⟨h.keyed, hcurrent, h.clock, h.row, timely_update h.pc ?_⟩
    cases pc with
    | inserting dc => exact absurd rfl (hno dc)
    | stamping | updating => cases hcopy
    | _ => trivial

/-! ## The rows without their times -/

/-- A row as the calls that make a session have it. -/
def DeviceContact.untimed (dc : DeviceContact) : Pinger.DeviceContact := ⟨dc.key, dc.id⟩

def untimed (t : ContactTable) : Pinger.ContactTable := t.map DeviceContact.untimed

theorem Moves.writes (hs : Moves s log s') (h : Steady s) :
    Relation.ReflGen ContactWrite (untimed s.table) (untimed s'.table) := by
  cases hs with
  | @insert i dc pc hpc hfree =>
    have htimely := h.pc i
    rw [hpc] at htimely
    have hrow : dc.bump.untimed = ⟨dc.key, 1⟩ := by
      rw [DeviceContact.untimed, DeviceContact.bump, htimely.1]
    have hnone : untimed s.table dc.key = none := by
      rw [untimed, Table.map, hfree, Option.map_none]
    have hwrite := ContactWrite.insert dc.key hnone
    rw [← hrow, untimed, ← Table.map_put] at hwrite
    exact .single hwrite
  | @update i touch dc now hpc hver =>
    have hrow : (touch.set now dc).bump.untimed =
        { dc.untimed with id := dc.untimed.id + 1 } := by
      cases touch <;> rfl
    have hold : (untimed s.table dc.key).map Pinger.DeviceContact.id = some dc.id := by
      rw [untimed, Table.map, Option.map_map]
      exact hver
    have hwrite := ContactWrite.update dc.untimed hold
    rw [← hrow, untimed] at hwrite
    have hkey : dc.untimed.key = dc.key := rfl
    rw [hkey, ← Table.map_put] at hwrite
    exact .single hwrite
  | _ => exact .refl

/-! ## Runs -/

/-- The row after the update. -/
def Applied.apply (row : DeviceContact) (u : Applied) : DeviceContact :=
  (u.touch.set u.now row).bump

/-- The row after those of the updates that are its own. -/
def replay (k : ContactKey) (log : List Applied) (row : DeviceContact) : DeviceContact :=
  (log.filter (·.key = k)).foldl Applied.apply row

/-- Neither time is earlier. -/
structure NoEarlier (row row' : DeviceContact) : Prop where
  lastContact : row.lastContact ≤ row'.lastContact
  lastContactRequest : row.lastContactRequest ≤ row'.lastContactRequest

/-- What a step makes of a row is what the update that it applies makes of it. -/
theorem Moves.replays (hs : Moves s log s') (h : Steady s) (hrow : s.table k = some row) :
    s'.table k = some (replay k log row) ∧ NoEarlier row (replay k log row) := by
  have hsame : replay k [] row = row := rfl
  have hle : NoEarlier row row := ⟨Int.le_refl _, Int.le_refl _⟩
  cases hs with
  | @insert i dc pc hpc hfree =>
    have hk : k ≠ dc.key := by
      rintro rfl
      cases hrow.symm.trans hfree
    exact ⟨(Table.put_of_ne hk _).trans hrow, hle⟩
  | @update i touch dc now hpc hver =>
    by_cases hk : k = dc.key
    · subst hk
      have hcopy : (cells s).copies i = some ⟨dc.key, dc, touch.set now dc⟩ := by
        rw [cells]
        simp only [hpc, copy]
      -- the row is the one that was read
      have hold := h.current.replaces hcopy (by rw [touch.set_id]; exact hver)
      obtain rfl : dc = row := Option.some.inj (hold.symm.trans hrow)
      have hreplay : replay dc.key [⟨dc.key, touch, now⟩] dc = (touch.set now dc).bump := by
        simp [replay, Applied.apply]
      have htimely := h.pc i
      rw [hpc] at htimely
      obtain ⟨⟨hcontact, hrequest⟩, -⟩ := htimely
      rw [hreplay]
      refine ⟨Table.put_self _ _ _, ?_⟩
      cases touch with
      | contact => exact ⟨hcontact, Int.le_refl _⟩
      | request => exact ⟨Int.le_refl _, hrequest⟩
    · have hreplay : replay k [⟨dc.key, touch, now⟩] row = row := by
        simp [replay, Ne.symm hk]
      rw [hreplay]
      exact ⟨(Table.put_of_ne hk _).trans hrow, hle⟩
  | _ => exact ⟨hrow, hle⟩

theorem replay_append (k : ContactKey) (log log' : List Applied) (row : DeviceContact) :
    replay k (log ++ log') row = replay k log' (replay k log row) := by
  rw [replay, List.filter_append, List.foldl_append, replay, replay]

theorem NoEarlier.trans (h : NoEarlier row row') (h' : NoEarlier row' row'') :
    NoEarlier row row'' :=
  ⟨Int.le_trans h.lastContact h'.lastContact,
    Int.le_trans h.lastContactRequest h'.lastContactRequest⟩

/-- The goroutines have not begun, and the rows are of the past. -/
structure Begun (s : Contacts) : Prop where
  idle : ∀ i, s.pc i = .idle
  keyed : Keyed s.table
  clock : 0 ≤ s.now
  row : ∀ k row, s.table k = some row → row.Before s.now

theorem Begun.steady (h : Begun s) : Steady s := by
  refine ⟨h.keyed, fun i c hc => ?_, h.clock, h.row, fun i => ?_⟩
  · rw [cells] at hc
    simp only [h.idle, copy] at hc
    cases hc
  · rw [h.idle]
    trivial

/-- The goroutines stay steady. -/
theorem steady_run (hstart : Begun s₀) (h : Run Contacts.step Free s₀ as s) : Steady s :=
  h.inv (fun hi _ hs => hi.moves (moves hs)) hstart.steady

/-- Without the times, what the goroutines do to the contacts is what the calls that make a session
may do to them. -/
theorem contacts_writes (hstart : Begun s₀) (h : Run Contacts.step Free s₀ as s)
    (hs : s.step a = some s') :
    Relation.ReflGen ContactWrite (untimed s.table) (untimed s'.table) :=
  (moves hs).writes (steady_run hstart h)

/-- The updates that a run applies. -/
def updates (s : Contacts) (as : List Act) : List Applied := observe Contacts.step applied s as

/-- The row as the updates so far leave it. -/
structure Replayed (k : ContactKey) (row : DeviceContact) (log : List Applied) (s : Contacts) :
    Prop where
  steady : Steady s
  table : s.table k = some (replay k log row)
  noEarlier : NoEarlier row (replay k log row)

/-- In every run of the goroutines, with whatever fails in it, a row is what the updates that were
applied make of it one after the other, each on the result of the one before; and neither of its
times goes back, since the one clock they are taken from does not. -/
theorem contacts_serial (hstart : Begun s₀) (h : Run Contacts.step Free s₀ as s)
    (h' : Run Contacts.step Free s bs s') (hrow : s.table k = some row) :
    s'.table k = some (replay k (updates s bs) row) ∧
      NoEarlier row (replay k (updates s bs) row) := by
  have hsteady : Steady s := steady_run hstart h
  have hstep {log t a t'} (ht : Replayed k row log t) (hs : t.step a = some t') :
      Replayed k row (log ++ applied t a) t' := by
    obtain ⟨htable, hle⟩ := (moves hs).replays ht.steady ht.table
    rw [← replay_append] at htable hle
    exact ⟨ht.steady.moves (moves hs), htable, ht.noEarlier.trans hle⟩
  have hbegin : Replayed k row [] s := ⟨hsteady, hrow, ⟨Int.le_refl _, Int.le_refl _⟩⟩
  have hlast : Replayed k row ([] ++ updates s bs) s' :=
    h'.observe_inv (fun ht _ hs => hstep ht hs) hbegin
  exact ⟨hlast.table, hlast.noEarlier⟩

def someKey : ContactKey := ⟨GoString.lit "u", GoString.lit "c", GoString.lit "d"⟩

/-- No row, and no goroutine has begun. -/
def noRows : Contacts := ⟨5, fun _ => none, fun _ => .idle⟩

theorem noRows_begun : Begun noRows := ⟨fun _ => rfl, nofun, by decide, nofun⟩

/-- A contact is made. -/
def makeActs : List Act := [.call 0 .ensure someKey, .get 0 true, .prepare 0, .insert 0 true true]

/-- Two goroutines read the row; the second of them writes it first, and the first is refused. -/
def raceActs : List Act :=
  [.tick 1, .call 1 (.touch .contact) someKey, .call 2 (.touch .request) someKey, .get 1 true,
    .get 2 true, .stamp 1, .tick 1, .stamp 2, .update 2 true, .update 1 true]

theorem contacts_serial_race :
    ∃ s row s', Run Contacts.step Free noRows makeActs s ∧ s.table someKey = some row ∧
      Run Contacts.step Free s raceActs s' ∧ s'.table someKey = some { row with
        id := 2, lastContactRequest := 7 } ∧
      NoEarlier row (replay someKey (updates s raceActs) row) := by
  obtain ⟨s, row, s', hmake, hrow, hrace, hlast⟩ : ∃ s row s',
      Run Contacts.step Free noRows makeActs s ∧ s.table someKey = some row ∧
      Run Contacts.step Free s raceActs s' ∧
      s'.table someKey = some { row with id := 2, lastContactRequest := 7 } :=
    ⟨_, _, _, Run.of_exec rfl, rfl, Run.of_exec rfl, rfl⟩
  exact ⟨s, row, s', hmake, hrow, hrace, hlast,
    (contacts_serial noRows_begun hmake hrace hrow).2⟩

end Pinger.Contact
