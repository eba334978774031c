import Pinger.Dynamo.Item

/-! # The pinger record in DynamoDB

`toMap` stores the method `UpdateEntry` under `updated` where the field `Updated` belongs. The
conversion to attributes stops the program at such a value, so no record can be written. All else
would come back as it was. -/

namespace Pinger.Dynamo

open GoString (lit)

/-- The fields of a `PingerInfo` that are stored. -/
structure PingerInfo where
  id : Int64 := 0
  pinger : GoString := []
  created : Int64 := 0
  updated : Int64 := 0
  deriving DecidableEq

namespace PingerInfo

def toMap (pinger : PingerInfo) : GoMap :=
  (∅ : GoMap)
    |>.insert (lit "id") (.int64 pinger.id)
    |>.insert (lit "pinger") (.string pinger.pinger)
    |>.insert (lit "created") (.int64 pinger.created)
    |>.insert (lit "updated") (.method (lit "UpdateEntry"))

/-- The case of the loop for a text. -/
def setString (pinger : PingerInfo) (k v : GoString) : PingerInfo :=
  if k = lit "pinger" then { pinger with pinger := v } else pinger

/-- The case of the loop for a number. -/
def setInt64 (pinger : PingerInfo) (k : GoString) (v : Int64) : PingerInfo :=
  if k = lit "created" then { pinger with created := v }
  else if k = lit "updated" then { pinger with updated := v }
  else if k = lit "id" then { pinger with id := v }
  else pinger

def setField (pinger : PingerInfo) (entry : Σ _ : GoString, Value) : PingerInfo :=
  match entry.2 with
  | .string v => pinger.setString entry.1 v
  | .int64 v => pinger.setInt64 entry.1 v
  | .int v => pinger.setInt64 entry.1 v
  | .method _ => pinger

end PingerInfo

def fromPingerInfoMap (dcMap : GoMap) : PingerInfo := dcMap.entries.foldl PingerInfo.setField {}

theorem PingerInfo.switches : Switches setField setString setInt64 :=
  ⟨fun _ _ _ => rfl, fun _ _ _ => rfl, fun _ _ _ => rfl, fun _ _ _ => rfl⟩

/-- The loop sets each field by the entry under its key. -/
theorem PingerInfo.sets : SetsField setField id (lit "id") Value.asInt64 ∧
    SetsField setField pinger (lit "pinger") Value.asString ∧
    SetsField setField created (lit "created") Value.asInt64 ∧
    SetsField setField updated (lit "updated") Value.asInt64 := by
  refine ⟨switches.setsInt64 (fun _ _ => rfl) ?_ ?_, switches.setsString (fun _ _ => rfl) ?_ ?_,
    switches.setsInt64 (fun _ _ => rfl) ?_ ?_, switches.setsInt64 (fun _ _ => rfl) ?_ ?_⟩
  -- another key, or a value of the other type
  all_goals
    intros
    dsimp only [setString, setInt64]
    split_ifs <;> first | rfl | contradiction

theorem fromPingerInfoMap_eq (m : GoMap) : fromPingerInfoMap m = {
    id := ((m.lookup (lit "id")).bind Value.asInt64).getD 0
    pinger := ((m.lookup (lit "pinger")).bind Value.asString).getD []
    created := ((m.lookup (lit "created")).bind Value.asInt64).getD 0
    updated := ((m.lookup (lit "updated")).bind Value.asInt64).getD 0 } := by
  obtain ⟨hid, hpinger, hcreated, hupdated⟩ := PingerInfo.sets
  have hid := hid.lookup m {}
  have hpinger := hpinger.lookup m {}
  have hcreated := hcreated.lookup m {}
  have hupdated := hupdated.lookup m {}
  rw [← fromPingerInfoMap] at hid hpinger hcreated hupdated
  rw [← hid, ← hpinger, ← hcreated, ← hupdated]

/-! ## Writing and reading -/

/-- The record comes back from its attributes. -/
def RoundTrips (pinger : PingerInfo) : Prop :=
  ∃ item m, goMaptoAwsAttributeMap pinger.toMap = some item ∧ awsAttributeMapToGo item = some m ∧
    fromPingerInfoMap m = pinger

theorem lookup_updated (pinger : PingerInfo) :
    pinger.toMap.lookup (lit "updated") = some (.method (lit "UpdateEntry")) :=
  AList.lookup_insert _

/-- The conversion of the map is a panic, for every record. -/
theorem goMaptoAwsAttributeMap_toMap (pinger : PingerInfo) :
    goMaptoAwsAttributeMap pinger.toMap = none := convert_none (lookup_updated pinger) rfl

/-- No record can be written, so none comes back. -/
theorem not_roundTrips (pinger : PingerInfo) : ¬RoundTrips pinger := by
  rintro ⟨item, m, hitem, -⟩
  rw [goMaptoAwsAttributeMap_toMap] at hitem
  cases hitem

/-- A record just made. -/
def newRecord : PingerInfo where
  pinger := lit "host"
  created := 5
  updated := 5

theorem newRecord_panics :
    goMaptoAwsAttributeMap newRecord.toMap = none ∧ ¬RoundTrips newRecord := by
  have hnone : goMaptoAwsAttributeMap newRecord.toMap = none := by decide +kernel
  refine ⟨hnone, ?_⟩
  rintro ⟨item, m, hitem, -⟩
  cases hnone.symm.trans hitem

/-- With the field in the place of the method the record would come back. -/
theorem roundTrips_with_updated (pinger : PingerInfo) : ∃ item m,
    goMaptoAwsAttributeMap (pinger.toMap.insert (lit "updated") (.int64 pinger.updated)) =
      some item ∧ awsAttributeMapToGo item = some m ∧ fromPingerInfoMap m = pinger := by
  have hstorable : Storable (pinger.toMap.insert (lit "updated") (.int64 pinger.updated)) := by
    rw [PingerInfo.toMap, AList.insert_insert]
    exact (((storable_empty.insert rfl _).insert rfl _).insert rfl _).insert rfl _
  obtain ⟨item, m, hitem, hm, hlookup⟩ := stored_map hstorable
  refine ⟨item, m, hitem, hm, ?_⟩
  rw [fromPingerInfoMap_eq, hlookup, hlookup, hlookup, hlookup]
  simp (disch := decide) only [PingerInfo.toMap, AList.lookup_insert, AList.lookup_insert_ne]
  rfl

end Pinger.Dynamo
