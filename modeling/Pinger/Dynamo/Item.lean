import Mathlib.Data.List.AList
import Pinger.Lib.Numeral

/-! # Items of DynamoDB

The conversions between Go values and attribute values. A number is an attribute in decimal and
comes back as an `int64`; a value that is neither a string nor a number stops the program. A record
is taken from a map field by field, so the order in which the map is visited makes no difference. -/

namespace GoString

/-! ## Signed numerals -/

/-- `fmt.Sprintf("%d", n)` -/
def formatInt (n : Int) : GoString :=
  if n < 0 then '-' :: formatUint n.natAbs else formatUint n.natAbs

/-- The value of a digit of the bases up to 36. -/
def digitValue (c : Char) : Nat :=
  if '0' ≤ c ∧ c ≤ '9' then c.toNat - 48
  else if 'a' ≤ c ∧ c ≤ 'z' then c.toNat - 87
  else if 'A' ≤ c ∧ c ≤ 'Z' then c.toNat - 55
  else 36

/-- A numeral of this base. -/
def parseBase (base : Nat) (s : GoString) : Option Nat :=
  if s = [] then none
  else s.foldl (fun acc c =>
    acc.bind fun n => if digitValue c < base then some (base * n + digitValue c) else none) (some 0)

/-- An unsigned numeral whose base is told by its prefix. -/
def parseUint : GoString → Option Nat
  | '0' :: 'x' :: s => parseBase 16 s
  | '0' :: 'X' :: s => parseBase 16 s
  | '0' :: s => parseBase 8 ('0' :: s)
  | s => parseDigits s

/-- `strconv.ParseInt(s, 0, 0)` on a 64-bit platform. -/
def parseInt : GoString → Option Int64
  | '-' :: s => (parseUint s).bind fun n => if n ≤ 2 ^ 63 then some (Int64.ofInt (-n)) else none
  | '+' :: s => (parseUint s).bind fun n => if n < 2 ^ 63 then some (Int64.ofInt n) else none
  | s => (parseUint s).bind fun n => if n < 2 ^ 63 then some (Int64.ofInt n) else none

/-- A numeral does not begin with a zero unless it is that of zero. -/
theorem formatUint_head (n : Nat) (hn : 0 < n) : ∃ c s, formatUint n = c :: s ∧ c ≠ '0' := by
  induction n using Nat.strongRecOn with
  | ind n ih =>
    rcases Nat.lt_or_ge n 10 with hlt | hge
    · refine ⟨_, [], formatUint_of_lt hlt, ?_⟩
      have hdigit : ∀ m < 10, 0 < m → m.digitChar ≠ '0' := by decide
      exact hdigit n hlt hn
    · obtain ⟨c, s, hs, hc⟩ := ih (n / 10) (by omega) (by omega)
      exact ⟨c, _, by rw [formatUint_of_le hge, hs]; rfl, hc⟩

theorem parseUint_formatUint (n : Nat) : parseUint (formatUint n) = some n := by
  rcases Nat.eq_zero_or_pos n with rfl | hn
  · decide
  · obtain ⟨c, s, hs, hc⟩ := formatUint_head n hn
    have hparse := parseDigits_eq_some.mpr (denotes_formatUint n)
    rw [hs] at hparse ⊢
    unfold parseUint
    split
    next heq => exact absurd (List.cons.inj heq).1 hc
    next heq => exact absurd (List.cons.inj heq).1 hc
    next heq => exact absurd (List.cons.inj heq).1 hc
    next => exact hparse

/-- A number that is written in decimal is read as it was. -/
theorem parseInt_formatInt (n : Int64) : parseInt (formatInt n.toInt) = some n := by
  have hlt := n.toInt_lt
  have hle := n.le_toInt
  unfold formatInt
  split
  next hneg =>
    have habs : -(n.toInt.natAbs : Int) = n.toInt := by omega
    rw [parseInt, parseUint_formatUint, Option.bind_some, if_pos (by omega), habs,
      Int64.ofInt_toInt]
  next hpos =>
    have habs : (n.toInt.natAbs : Int) = n.toInt := by omega
    have hparse : (parseUint (formatUint n.toInt.natAbs)).bind
        (fun m => if m < 2 ^ 63 then some (Int64.ofInt m) else none) = some n := by
      rw [parseUint_formatUint, Option.bind_some, if_pos (by omega), habs, Int64.ofInt_toInt]
    have hdigit := (denotes_formatUint n.toInt.natAbs).2.1
    unfold parseInt
    split
    next heq => exact absurd (hdigit '-' (heq ▸ List.mem_cons_self)) (by decide)
    next heq => exact absurd (hdigit '+' (heq ▸ List.mem_cons_self)) (by decide)
    next => exact hparse

end GoString

namespace Pinger.Dynamo

/-! ## Values and attributes -/

/-- An interface value: the dynamic types that the records put into their maps. -/
inductive Value
  | string (s : GoString)
  | int (n : Int64)
  | int64 (n : Int64)
  /-- A bound method. -/
  | method (name : GoString)
  deriving DecidableEq

/-- A `dynamodb.AttributeValue`, of which the strings and the numbers are used. -/
structure AttributeValue where
  S : Option GoString := none
  N : Option GoString := none
  deriving DecidableEq

abbrev GoMap := AList fun _ : GoString => Value

abbrev Item := AList fun _ : GoString => AttributeValue

/-- A value of another type is a panic. -/
def goTypeToAttributeValue : Value → Option AttributeValue
  | .string s => some { S := some s }
  | .int n => some { N := some (GoString.formatInt n.toInt) }
  | .int64 n => some { N := some (GoString.formatInt n.toInt) }
  | .method _ => none

/-- A number that cannot be read is a panic, and so is an attribute of another type. -/
def awsAttributeValueToGo (a : AttributeValue) : Option Value :=
  match a.S, a.N with
  | some s, _ => some (.string s)
  | none, some n => (GoString.parseInt n).map .int64
  | none, none => none

/-- What a value is after it was stored. -/
def Value.stored : Value → Value
  | .int n => .int64 n
  | v => v

theorem awsAttributeValueToGo_goType {v : Value} (h : goTypeToAttributeValue v = some a) :
    awsAttributeValueToGo a = some v.stored := by
  cases v <;> cases h
  · rfl
  · simp [awsAttributeValueToGo, GoString.parseInt_formatInt, Value.stored]
  · simp [awsAttributeValueToGo, GoString.parseInt_formatInt, Value.stored]

/-! ## Maps -/

section
variable {α : Type u} {β : Type v}

/-- The loop that fills a map with the converted values of the entries. -/
def convertFrom (f : α → Option β) : List (Σ _ : GoString, α) → (AList fun _ : GoString => β) →
    Option (AList fun _ : GoString => β)
  | [], new => some new
  | entry :: entries, new =>
    (f entry.2).bind fun value => convertFrom f entries (new.insert entry.1 value)

/-- The map with all values converted; a value that cannot be is a panic. -/
def convert (f : α → Option β) (m : AList fun _ : GoString => α) :
    Option (AList fun _ : GoString => β) :=
  convertFrom f m.entries ∅

variable {f : α → Option β}

theorem convertFrom_none {l : List (Σ _ : GoString, α)} (h : entry ∈ l) (hf : f entry.2 = none)
    (new : AList fun _ : GoString => β) : convertFrom f l new = none := by
  induction l generalizing new with
  | nil => cases h
  | cons head l ih =>
    rw [convertFrom]
    rcases List.mem_cons.mp h with rfl | h
    · rw [hf, Option.bind_none]
    · cases f head.2 with
      | none => rfl
      | some value => exact ih h _

/-- A value that cannot be converted is met whatever the order of the entries is. -/
theorem convert_none {m : AList fun _ : GoString => α} (h : m.lookup key = some value)
    (hf : f value = none) : convert f m = none :=
  convertFrom_none (AList.mem_lookup_iff.mp h) hf ∅

theorem convertFrom_some {l : List (Σ _ : GoString, α)} (hl : l.NodupKeys)
    (hf : ∀ entry ∈ l, (f entry.2).isSome) (new : AList fun _ : GoString => β) :
    ∃ new', convertFrom f l new = some new' ∧
      ∀ key, new'.lookup key = ((l.dlookup key).bind f).or (new.lookup key) := by
  induction l generalizing new with
  | nil => exact ⟨new, rfl, fun key => rfl⟩
  | cons head l ih =>
    obtain ⟨name, v⟩ := head
    obtain ⟨value, hvalue⟩ := Option.isSome_iff_exists.mp (hf ⟨name, v⟩ List.mem_cons_self)
    have hnodup := List.nodupKeys_cons.mp hl
    obtain ⟨new', hnew', hlookup⟩ :=
      ih hnodup.2 (fun entry h => hf entry (List.mem_cons_of_mem _ h)) (new.insert name value)
    refine ⟨new', by rw [convertFrom, hvalue, Option.bind_some, hnew'], fun key => ?_⟩
    rw [hlookup]
    by_cases hk : key = name
    · subst hk
      rw [List.dlookup_eq_none.mpr hnodup.1, AList.lookup_insert, List.dlookup_cons_eq,
        Option.bind_some, hvalue]
      rfl
    · rw [AList.lookup_insert_ne hk, List.dlookup_cons_ne _ _ hk]

/-- The converted map has the converted values under the same keys. -/
theorem convert_some {m : AList fun _ : GoString => α}
    (hf : ∀ key value, m.lookup key = some value → (f value).isSome) :
    ∃ m', convert f m = some m' ∧ ∀ key, m'.lookup key = (m.lookup key).bind f := by
  obtain ⟨m', hm', hlookup⟩ := convertFrom_some m.nodupKeys
    (fun entry h => hf entry.1 entry.2 (AList.mem_lookup_iff.mpr h)) ∅
  refine ⟨m', hm', fun key => ?_⟩
  rw [hlookup, AList.lookup_empty, Option.or_none]
  rfl

/-- The order in which a map is visited makes no difference to what it is converted to. -/
theorem convert_perm {m visited : AList fun _ : GoString => α} (h : convert f m = some m')
    (hperm : visited.entries.Perm m.entries) :
    ∃ new, convert f visited = some new ∧ ∀ key, new.lookup key = m'.lookup key := by
  have hf : ∀ key value, m.lookup key = some value → (f value).isSome := by
    intro key value hvalue
    cases hfv : f value with
    | none => rw [convert_none hvalue hfv] at h; cases h
    | some => rfl
  have hlookup (key) : visited.lookup key = m.lookup key := AList.perm_lookup hperm
  obtain ⟨new, hnew, hnewlookup⟩ := convert_some (f := f) (m := visited)
    fun key value hv => hf key value (hlookup key ▸ hv)
  obtain ⟨_, heq, hlookup'⟩ := convert_some hf
  cases h.symm.trans heq
  exact ⟨new, hnew, fun key => by rw [hnewlookup, hlookup', hlookup]⟩

end

def goMaptoAwsAttributeMap (m : GoMap) : Option Item := convert goTypeToAttributeValue m

def awsAttributeMapToGo (item : Item) : Option GoMap := convert awsAttributeValueToGo item

/-- The value is no method, so it can be stored. -/
def Value.storable : Value → Bool
  | .method _ => false
  | _ => true

theorem isSome_goType {v : Value} (h : v.storable) : (goTypeToAttributeValue v).isSome := by
  cases v <;> first | rfl | cases h

def Storable (m : GoMap) : Prop := ∀ key value, m.lookup key = some value → value.storable

theorem storable_empty : Storable ∅ := fun _ _ h => nomatch h

theorem Storable.insert {m : GoMap} (h : Storable m) {value : Value} (hvalue : value.storable)
    (key : GoString) : Storable (m.insert key value) := by
  intro key' value' hlookup
  by_cases hk : key' = key
  · subst hk
    rw [AList.lookup_insert] at hlookup
    rwa [← Option.some.inj hlookup]
  · rw [AList.lookup_insert_ne hk] at hlookup
    exact h key' value' hlookup

/-- A map without methods comes back with every number as an `int64`. -/
theorem stored_map {m : GoMap} (h : Storable m) :
    ∃ item m', goMaptoAwsAttributeMap m = some item ∧ awsAttributeMapToGo item = some m' ∧
      ∀ key, m'.lookup key = (m.lookup key).map Value.stored := by
  obtain ⟨item, hitem, hlookup⟩ := convert_some (f := goTypeToAttributeValue) (m := m)
    fun key value hv => isSome_goType (h key value hv)
  have hback : ∀ key a, item.lookup key = some a →
      ∃ v, m.lookup key = some v ∧ awsAttributeValueToGo a = some v.stored := by
    intro key a ha
    rw [hlookup] at ha
    obtain ⟨v, hv, hgo⟩ := Option.bind_eq_some_iff.mp ha
    exact ⟨v, hv, awsAttributeValueToGo_goType hgo⟩
  obtain ⟨m', hm', hlookup'⟩ := convert_some (f := awsAttributeValueToGo) (m := item) <| by
    intro key a ha
    obtain ⟨v, -, hgo⟩ := hback key a ha
    rw [hgo]
    rfl
  refine ⟨item, m', hitem, hm', fun key => ?_⟩
  rw [hlookup']
  cases ha : item.lookup key with
  | none =>
    rw [hlookup] at ha
    cases hv : m.lookup key with
    | none => rfl
    | some v =>
      rw [hv, Option.bind_some] at ha
      have := isSome_goType (h key v hv)
      rw [ha] at this
      cases this
  | some a =>
    obtain ⟨v, hv, hgo⟩ := hback key a ha
    rw [hv, Option.bind_some, hgo]
    rfl

/-- What a map of texts and numbers is stored as comes back as the map, in whatever order either map
is visited: the `int` values as `int64`, and everything else as it was. -/
theorem attributeMap_roundtrip (m : GoMap) (h : Storable m) :
    ∀ visited : GoMap, visited.entries.Perm m.entries →
      ∃ item, goMaptoAwsAttributeMap visited = some item ∧
        ∀ visitedItem : Item, visitedItem.entries.Perm item.entries →
          ∃ m', awsAttributeMapToGo visitedItem = some m' ∧
            (∀ key, m'.lookup key = (m.lookup key).map Value.stored) ∧
            ((∀ key n, m.lookup key ≠ some (.int n)) → m'.entries.Perm m.entries) := by
  intro visited hvisited
  have hlookup (key) : visited.lookup key = m.lookup key := AList.perm_lookup hvisited
  obtain ⟨item, _, hitem, hback, hstored⟩ :=
    stored_map (m := visited) fun key value hv => h key value (hlookup key ▸ hv)
  refine ⟨item, hitem, fun visitedItem hperm => ?_⟩
  obtain ⟨m', hm', hsame⟩ := convert_perm hback hperm
  have hm (key) : m'.lookup key = (m.lookup key).map Value.stored := by
    rw [hsame, hstored, hlookup]
  refine ⟨m', hm', hm, fun hint => List.lookup_ext m'.nodupKeys m.nodupKeys fun key v => ?_⟩
  have hsome : m'.lookup key = m.lookup key := by
    rw [hm]
    cases hv : m.lookup key with
    | none => rfl
    | some v =>
      cases v with
      | int n => exact absurd hv (hint key n)
      | string | int64 | method => rfl
  exact iff_of_eq (congrArg (v ∈ ·) hsome)

/-- The least and the greatest number, an empty text and an `int`. -/
def extremes : GoMap :=
  (((AList.insert (GoString.lit "low") (.int64 Int64.minValue) ∅).insert (GoString.lit "high")
    (.int64 Int64.maxValue)).insert (GoString.lit "note") (.string [])).insert
    (GoString.lit "sent") (.int (-7))

theorem attributeMap_roundtrip_extremes :
    ∃ item m', goMaptoAwsAttributeMap extremes = some item ∧ awsAttributeMapToGo item = some m' ∧
      m'.lookup (GoString.lit "low") = some (.int64 Int64.minValue) ∧
      m'.lookup (GoString.lit "high") = some (.int64 Int64.maxValue) ∧
      m'.lookup (GoString.lit "note") = some (.string []) ∧
      m'.lookup (GoString.lit "sent") = some (.int64 (-7)) := by
  have hstorable : Storable extremes :=
    (((storable_empty.insert rfl _).insert rfl _).insert rfl _).insert rfl _
  obtain ⟨item, hitem, hback⟩ := attributeMap_roundtrip extremes hstorable extremes (.refl _)
  obtain ⟨m', hm', hlookup, -⟩ := hback item (.refl _)
  refine ⟨item, m', hitem, hm', ?_, ?_, ?_, ?_⟩ <;> rw [hlookup] <;> decide

/-! ## Taking a record from a map -/

/-- A value as a text. -/
def Value.asString : Value → Option GoString
  | .string s => some s
  | _ => none

/-- A value as a number. -/
def Value.asInt64 : Value → Option Int64
  | .int n => some n
  | .int64 n => some n
  | _ => none

section
variable {ρ : Type u} {φ : Type v}

/-- The field is set by the entry under this key, when its value is of the right type. -/
def SetsField (set : ρ → (Σ _ : GoString, Value) → ρ) (get : ρ → φ) (key : GoString)
    (g : Value → Option φ) : Prop :=
  ∀ r entry, get (set r entry) = if entry.1 = key then (g entry.2).getD (get r) else get r

variable {set : ρ → (Σ _ : GoString, Value) → ρ} {get : ρ → φ} {key : GoString}
  {g : Value → Option φ}

/-- After the loop a field has what is stored under its key, and else what it was. -/
theorem SetsField.foldl (h : SetsField set get key g) {l : List (Σ _ : GoString, Value)}
    (hl : l.NodupKeys) (r : ρ) :
    get (l.foldl set r) = ((l.dlookup key).bind g).getD (get r) := by
  induction l generalizing r with
  | nil => rfl
  | cons head l ih =>
    obtain ⟨name, v⟩ := head
    have hnodup := List.nodupKeys_cons.mp hl
    rw [List.foldl_cons, ih hnodup.2, h]
    by_cases hk : name = key
    · subst hk
      rw [if_pos rfl, List.dlookup_eq_none.mpr hnodup.1, List.dlookup_cons_eq]
      rfl
    · rw [if_neg hk, List.dlookup_cons_ne _ _ (Ne.symm hk)]

/-- The field of the record that is taken from a map. -/
theorem SetsField.lookup (h : SetsField set get key g) (m : GoMap) (r : ρ) :
    get (m.entries.foldl set r) = ((m.lookup key).bind g).getD (get r) := h.foldl m.nodupKeys r

/-- The switch on the type of a value: a text goes to `setString`, a number to `setInt64`. -/
structure Switches (set : ρ → (Σ _ : GoString, Value) → ρ) (setString : ρ → GoString → GoString → ρ)
    (setInt64 : ρ → GoString → Int64 → ρ) : Prop where
  string : ∀ r k v, set r ⟨k, .string v⟩ = setString r k v
  int : ∀ r k v, set r ⟨k, .int v⟩ = setInt64 r k v
  int64 : ∀ r k v, set r ⟨k, .int64 v⟩ = setInt64 r k v
  method : ∀ r k name, set r ⟨k, .method name⟩ = r

variable {setString : ρ → GoString → GoString → ρ} {setInt64 : ρ → GoString → Int64 → ρ}

/-- A field of text is set under its key, and by no number. -/
theorem Switches.setsString (h : Switches set setString setInt64) {get : ρ → GoString}
    (hkey : ∀ r v, get (setString r key v) = v)
    (hother : ∀ r k v, k ≠ key → get (setString r k v) = get r)
    (hnumber : ∀ r k v, get (setInt64 r k v) = get r) :
    SetsField set get key Value.asString := by
  rintro r ⟨k, v⟩
  cases v with
  | string v =>
    rw [h.string]
    split
    next hk => subst hk; exact hkey r v
    next hk => exact hother r k v hk
  | int v => rw [h.int, hnumber]; exact (ite_self _).symm
  | int64 v => rw [h.int64, hnumber]; exact (ite_self _).symm
  | method name => rw [h.method]; exact (ite_self _).symm

/-- A number is set under its key, and by no text. -/
theorem Switches.setsInt64 (h : Switches set setString setInt64) {get : ρ → Int64}
    (hkey : ∀ r v, get (setInt64 r key v) = v)
    (hother : ∀ r k v, k ≠ key → get (setInt64 r k v) = get r)
    (htext : ∀ r k v, get (setString r k v) = get r) :
    SetsField set get key Value.asInt64 := by
  rintro r ⟨k, v⟩
  cases v with
  | string v => rw [h.string, htext]; exact (ite_self _).symm
  | int v =>
    rw [h.int]
    split
    next hk => subst hk; exact hkey r v
    next hk => exact hother r k v hk
  | int64 v =>
    rw [h.int64]
    split
    next hk => subst hk; exact hkey r v
    next hk => exact hother r k v hk
  | method name => rw [h.method]; exact (ite_self _).symm

end

end Pinger.Dynamo
