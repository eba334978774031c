import Mathlib.Data.Char
import Mathlib.Data.List.Lex
import Mathlib.Data.List.Sort
import Pinger.Lib.Json
import Pinger.Lib.Numeral

/-! # JSON texts of nested objects

Values that are strings, whole numbers, booleans and objects of such values, the texts that
`json.Marshal` writes for them, and a decoder that reads a value off the front of a text. What was
written is read back, with every byte that begins no rune replaced. A map is written as an object
whose members are in the order of their keys. -/

namespace GoString

/-! ## Texts of whole runes -/

/-- The runes of the text are the same whatever follows it, and none is a byte on its own outside
ASCII. -/
def Complete (t : GoString) : Prop :=
  ∃ rs : List GoString, rs.all validRune ∧ ∀ s, runes (t ++ s) = rs ++ runes s

theorem Complete.validString (h : Complete t) : validString t := by
  obtain ⟨rs, hrs, ht⟩ := h
  have hnil := ht []
  rw [List.append_nil] at hnil
  rw [GoString.validString, hnil]
  simpa [runes, runesAt] using hrs

theorem complete_nil : Complete [] := ⟨[], rfl, fun _ => rfl⟩

theorem Complete.append (ht : Complete t) (hu : Complete u) : Complete (t ++ u) := by
  obtain ⟨rs, hrs, ht⟩ := ht
  obtain ⟨us, hus, hu⟩ := hu
  refine ⟨rs ++ us, ?_, fun s => ?_⟩
  · rw [List.all_append, hrs, hus]
    rfl
  · rw [List.append_assoc, ht, hu, List.append_assoc]

theorem complete_of_ascii (h : ∀ c ∈ t, c.toNat < 0x80) : Complete t := by
  induction t with
  | nil => exact complete_nil
  | cons c t ih =>
    obtain ⟨hc, ht⟩ := List.forall_mem_cons.mp h
    apply Complete.append (t := [c]) ?_ (ih ht)
    refine ⟨[[c]], ?_, fun s => ?_⟩
    · simpa [validRune] using hc
    · exact runes_append hc [] s

theorem complete_of_all (h : t.all fun c => c.toNat < 0x80) : Complete t :=
  complete_of_ascii fun c hc => of_decide_eq_true (List.all_eq_true.mp h c hc)

theorem runesAt_append_self (u s : GoString) : runesAt u.length (u ++ s) = runes s := by
  induction u with
  | nil => rfl
  | cons c u ih => exact ih

/-- The tail of a rune is found whatever follows the rune. -/
theorem tailOf_take (hn : 0 < n) (h : tailOf u n lo hi = n) (s : GoString) :
    tailOf (u.take n ++ s) n lo hi = n := by
  obtain ⟨n, rfl⟩ : ∃ m, n = m + 1 := ⟨n - 1, by omega⟩
  cases u with
  | nil => cases h
  | cons c u =>
    simp only [tailOf, Nat.add_sub_cancel] at h
    split at h
    next hc =>
      obtain ⟨hfirst, hlen, hall⟩ := hc
      have htake : (u.take n ++ s).take n = u.take n := List.take_left' hlen
      rw [List.take_succ_cons, List.cons_append]
      simp only [tailOf, Nat.add_sub_cancel, htake, hfirst, hlen, hall, and_self, if_true]
    next => cases h

theorem runeTail_take (h : runeTail c u ≠ 0) (s : GoString) :
    runeTail c (u.take (runeTail c u) ++ s) = runeTail c u := by
  rcases runeTail_ledBy c with hnone | ⟨-, n, lo, hi, hn, hlo, heq⟩
  · exact absurd (hnone u) h
  · rw [heq u] at h ⊢
    obtain ⟨htail, -, -⟩ := tailOf_spec hn hlo h
    rw [heq, htail]
    exact tailOf_take hn htail s

theorem complete_of_mem_runesAt (h : r ∈ runesAt skip s) (hvalid : validRune r) : Complete r := by
  induction s generalizing skip with
  | nil => cases skip <;> cases h
  | cons c s ih =>
    cases skip with
    | zero =>
      rcases List.mem_cons.mp h with rfl | h
      · by_cases htail : runeTail c s = 0
        · rw [htail, List.take_zero] at hvalid ⊢
          apply complete_of_ascii
          intro d hd
          rw [List.mem_singleton.mp hd]
          simpa [validRune] using hvalid
        · refine ⟨[c :: s.take (runeTail c s)], by rw [List.all_cons, hvalid]; rfl, fun t => ?_⟩
          have hlen : (s.take (runeTail c s)).length = runeTail c s :=
            List.length_take_of_le (runeTail_le c s)
          have hrest := runesAt_append_self (s.take (runeTail c s)) t
          rw [hlen] at hrest
          rw [List.cons_append, runes, runesAt_zero, runeTail_take htail, List.take_left' hlen, hrest]
          rfl
      · exact ih h
    | succ skip => exact ih h

/-- A valid rune of a text. -/
theorem complete_of_mem_runes (h : r ∈ runes s) (hvalid : validRune r) : Complete r :=
  complete_of_mem_runesAt h hvalid

theorem complete_flatMap {rs : List GoString} {f : GoString → GoString}
    (h : ∀ r ∈ rs, Complete (f r)) : Complete (rs.flatMap f) := by
  induction rs with
  | nil => exact complete_nil
  | cons r rs ih =>
    obtain ⟨hr, hrs⟩ := List.forall_mem_cons.mp h
    exact hr.append (ih hrs)

end GoString

namespace Json

open GoString (lit Complete)

/-! ## Values -/

mutual
inductive Value
  | string (s : GoString)
  | number (n : Int)
  | bool (b : Bool)
  | object (members : Members)

/-- The members of an object, in the order in which they are written. -/
inductive Members
  | nil
  | cons (key : GoString) (value : Value) (members : Members)
end

def Members.ofList : List (GoString × Value) → Members
  | [] => .nil
  | (key, value) :: members => .cons key value (.ofList members)

def Members.find? (key : GoString) : Members → Option Value
  | .nil => none
  | .cons key' value members => if key' = key then some value else members.find? key

/-- The member of an object. -/
def Value.member (key : GoString) : Value → Option Value
  | .object members => members.find? key
  | _ => none

/-- What is found along the keys. -/
def Value.find? : List GoString → Value → Option Value
  | [], v => some v
  | key :: path, v => (v.member key).bind (Value.find? path)

theorem find?_nil (v : Value) : v.find? [] = some v := by
  cases v <;> rfl

theorem find?_cons (v : Value) (key : GoString) (path : List GoString) :
    v.find? (key :: path) = (v.member key).bind (Value.find? path) := by
  cases v <;> rfl

theorem find?_append (v : Value) (path path' : List GoString) :
    v.find? (path ++ path') = (v.find? path).bind (Value.find? path') := by
  induction path generalizing v with
  | nil => rw [List.nil_append, find?_nil, Option.bind_some]
  | cons key path ih =>
    rw [List.cons_append, find?_cons, find?_cons, Option.bind_assoc]
    exact Option.bind_congr fun w _ => ih w

mutual
/-- The value with every byte that begins no rune replaced. -/
def Value.toValid : Value → Value
  | .string s => .string (GoString.toValid s)
  | .number n => .number n
  | .bool b => .bool b
  | .object members => .object members.toValid

def Members.toValid : Members → Members
  | .nil => .nil
  | .cons key value members => .cons (GoString.toValid key) value.toValid members.toValid
end

mutual
/-- How deep the decoder goes. -/
def Value.height : Value → Nat
  | .object members => members.height + 1
  | _ => 1

def Members.height : Members → Nat
  | .nil => 0
  | .cons _ value members => max value.height members.height + 1
end

mutual
/-- Every text in the value is valid. -/
def Value.valid : Value → Bool
  | .string s => GoString.validString s
  | .number _ => true
  | .bool _ => true
  | .object members => members.valid

def Members.valid : Members → Bool
  | .nil => true
  | .cons key value members => GoString.validString key && value.valid && members.valid
end

mutual
theorem toValid_of_valid (v : Value) (h : v.valid) : v.toValid = v := by
  match v with
  | .string s => rw [Value.toValid, GoString.toValid_eq_self h]
  | .number _ => rfl
  | .bool _ => rfl
  | .object members => rw [Value.toValid, membersToValid_of_valid members h]

theorem membersToValid_of_valid (members : Members) (h : members.valid) :
    members.toValid = members := by
  match members with
  | .nil => rfl
  | .cons key value members =>
    rw [Members.valid, Bool.and_eq_true, Bool.and_eq_true] at h
    obtain ⟨⟨hkey, hvalue⟩, hmembers⟩ := h
    rw [Members.toValid, GoString.toValid_eq_self hkey, toValid_of_valid value hvalue,
      membersToValid_of_valid members hmembers]
end

/-! ## Maps -/

/-- A map as an object. -/
def Value.ofMap (entries : List (GoString × Value)) : Value :=
  .object (.ofList (entries.insertionSort (·.1 ≤ ·.1)))

section
variable {entries : List (GoString × Value)}

theorem find?_ofList (h : (entries.map Prod.fst).Nodup) :
    (Members.ofList entries).find? key = some v ↔ (key, v) ∈ entries := by
  induction entries with
  | nil =>
    constructor
    · intro hfind
      cases hfind
    · intro hmem
      cases hmem
  | cons entry entries ih =>
    obtain ⟨key', value⟩ := entry
    obtain ⟨hkey, hnodup⟩ := List.nodup_cons.mp h
    rw [Members.ofList, Members.find?, List.mem_cons]
    split
    next heq =>
      subst heq
      constructor
      · intro hv
        exact .inl (by rw [Option.some.inj hv])
      · rintro (hv | hmem)
        · rw [(Prod.mk.inj hv).2]
        · exact absurd (List.mem_map_of_mem hmem) hkey
    next hne =>
      rw [ih hnodup, or_iff_right]
      intro hv
      exact hne (Prod.mk.inj hv).1.symm

/-- A member of the object of a map is an entry of the map. -/
theorem member_ofMap (h : (entries.map Prod.fst).Nodup) :
    (Value.ofMap entries).member key = some v ↔ (key, v) ∈ entries := by
  have hperm := List.perm_insertionSort (·.1 ≤ ·.1) entries
  rw [Value.ofMap, Value.member, find?_ofList ((hperm.map Prod.fst).nodup_iff.mpr h), hperm.mem_iff]

theorem valid_ofList (h : ∀ entry ∈ entries, GoString.validString entry.1 ∧ entry.2.valid) :
    (Members.ofList entries).valid := by
  induction entries with
  | nil => rfl
  | cons entry entries ih =>
    obtain ⟨⟨hkey, hvalue⟩, hentries⟩ := List.forall_mem_cons.mp h
    rw [Members.ofList, Members.valid, hkey, hvalue, ih hentries]
    rfl

theorem valid_ofMap (h : ∀ entry ∈ entries, GoString.validString entry.1 ∧ entry.2.valid) :
    (Value.ofMap entries).valid := by
  apply valid_ofList
  intro entry hentry
  exact h entry ((List.perm_insertionSort (·.1 ≤ ·.1) entries).mem_iff.mp hentry)

end

/-! ## Encoding -/

def encodeNumber (n : Int) : GoString :=
  if n < 0 then '-' :: GoString.formatUint n.natAbs else GoString.formatUint n.natAbs

mutual
def Value.encode : Value → GoString
  | .string s => encodeString s
  | .number n => encodeNumber n
  | .bool true => lit "true"
  | .bool false => lit "false"
  | .object members => '\x7b' :: members.encode

/-- The members and the closing brace. -/
def Members.encode : Members → GoString
  | .nil => ['\x7d']
  | .cons key value .nil => encodeString key ++ ':' :: (value.encode ++ ['\x7d'])
  | .cons key value members => encodeString key ++ ':' :: (value.encode ++ ',' :: members.encode)
end

/-! ## Decoding -/

def decodeNatural (s : GoString) : Option (Nat × GoString) :=
  (GoString.parseDigits (s.takeWhile GoString.isDigit)).map fun n =>
    (n, s.dropWhile GoString.isDigit)

def decodeNumber : GoString → Option (Int × GoString)
  | '-' :: s => (decodeNatural s).map fun (n, s) => (-(n : Int), s)
  | s => (decodeNatural s).map fun (n, s) => ((n : Int), s)

mutual
/-- A value at the front of a text, and what follows; the number bounds how deep it is. -/
def decodeValue : Nat → GoString → Option (Value × GoString)
  | 0, _ => none
  | n + 1, s =>
    match s with
    | '"' :: s => (decodeBody s).map fun (text, s) => (.string text, s)
    | '\x7b' :: '\x7d' :: s => some (.object .nil, s)
    | '\x7b' :: s => (decodeNested n s).map fun (members, s) => (.object members, s)
    | 't' :: 'r' :: 'u' :: 'e' :: s => some (.bool true, s)
    | 'f' :: 'a' :: 'l' :: 's' :: 'e' :: s => some (.bool false, s)
    | s => (decodeNumber s).map fun (n, s) => (.number n, s)

/-- One member or more, and the closing brace. -/
def decodeNested : Nat → GoString → Option (Members × GoString)
  | 0, _ => none
  | n + 1, s =>
    match decodeString s with
    | some (key, ':' :: s) =>
      match decodeValue n s with
      | some (value, '\x7d' :: s) => some (.cons key value .nil, s)
      | some (value, ',' :: s) =>
        (decodeNested n s).map fun (members, s) => (.cons key value members, s)
      | _ => none
    | _ => none
end

/-- A text that is one value, without blanks. -/
def decode (s : GoString) : Option Value :=
  match decodeValue s.length s with
  | some (v, []) => some v
  | _ => none

/-- What stands at a path of a text. -/
def readAt (path : List GoString) (s : GoString) : Option Value :=
  (decode s).bind (Value.find? path)

/-! ## Numbers -/

/-- A number ends in front of this text. -/
def Ends (s : GoString) : Prop := ∀ c ∈ s.head?, GoString.isDigit c = false

theorem takeWhile_digits_append {ds : GoString} (hds : ∀ c ∈ ds, GoString.isDigit c) (h : Ends s) :
    (ds ++ s).takeWhile GoString.isDigit = ds ∧ (ds ++ s).dropWhile GoString.isDigit = s := by
  induction ds with
  | nil =>
    cases s with
    | nil => exact ⟨rfl, rfl⟩
    | cons c s =>
      have hc := h c rfl
      simp [hc]
  | cons c ds ih =>
    obtain ⟨hc, hds⟩ := List.forall_mem_cons.mp hds
    obtain ⟨htake, hdrop⟩ := ih hds
    simp [hc, htake, hdrop]

theorem decodeNatural_formatUint (n : Nat) (h : Ends s) :
    decodeNatural (GoString.formatUint n ++ s) = some (n, s) := by
  have hn := GoString.denotes_formatUint n
  obtain ⟨htake, hdrop⟩ := takeWhile_digits_append hn.2.1 h
  rw [decodeNatural, htake, hdrop, GoString.parseDigits_eq_some.mpr hn]
  rfl

/-- The first character of a numeral. -/
theorem formatUint_cons (n : Nat) : ∃ c s, GoString.formatUint n = c :: s ∧ GoString.isDigit c := by
  have hn := GoString.denotes_formatUint n
  cases hs : GoString.formatUint n with
  | nil => exact absurd hs hn.1
  | cons c s => exact ⟨c, s, rfl, hn.2.1 c (hs ▸ List.mem_cons_self)⟩

theorem decodeNumber_encodeNumber (n : Int) (h : Ends s) :
    decodeNumber (encodeNumber n ++ s) = some (n, s) := by
  have hnat := decodeNatural_formatUint n.natAbs h
  rw [encodeNumber]
  split
  next hneg =>
    have habs : -(n.natAbs : Int) = n := by omega
    rw [List.cons_append, decodeNumber, hnat]
    simp only [Option.map_some, habs]
  next hpos =>
    have habs : (n.natAbs : Int) = n := by omega
    obtain ⟨c, ds, hds, hc⟩ := formatUint_cons n.natAbs
    rw [hds, List.cons_append] at hnat ⊢
    unfold decodeNumber
    split
    next heq =>
      cases (List.cons.inj heq).1
      cases hc
    next =>
      rw [hnat]
      simp only [Option.map_some, habs]

/-- A number begins with a digit or with the sign. -/
theorem encodeNumber_cons (n : Int) :
    ∃ c s, encodeNumber n = c :: s ∧ (c = '-' ∨ GoString.isDigit c) := by
  rw [encodeNumber]
  split
  · exact ⟨_, _, rfl, .inl rfl⟩
  · obtain ⟨c, s, hs, hc⟩ := formatUint_cons n.natAbs
    exact ⟨c, s, hs, .inr hc⟩

/-! ## Reading back what was written -/

section
variable {n : Nat} {s : GoString}

theorem decodeValue_string (h : decodeBody s = some (text, rest)) :
    decodeValue (n + 1) ('"' :: s) = some (.string text, rest) := by
  simp only [decodeValue, h, Option.map_some]

theorem decodeValue_object (hs : ∀ t, s ≠ '\x7d' :: t) (h : decodeNested n s = some (ms, rest)) :
    decodeValue (n + 1) ('\x7b' :: s) = some (.object ms, rest) := by
  unfold decodeValue
  split
  next heq => cases (List.cons.inj heq).1
  next heq => exact absurd (List.cons.inj heq).2 (hs _)
  next heq =>
    cases heq
    rw [h]
    rfl
  next heq => cases (List.cons.inj heq).1
  next heq => cases (List.cons.inj heq).1
  next _ _ hobject _ _ => exact absurd rfl (hobject _)

theorem decodeValue_number (m : Int) (h : Ends s) :
    decodeValue (n + 1) (encodeNumber m ++ s) = some (.number m, s) := by
  have hnumber := decodeNumber_encodeNumber m h
  obtain ⟨c, ds, hds, hc⟩ := encodeNumber_cons m
  rw [hds, List.cons_append] at hnumber ⊢
  unfold decodeValue
  split
  next heq => obtain ⟨rfl, -⟩ := List.cons.inj heq; simp at hc; cases hc
  next heq => obtain ⟨rfl, -⟩ := List.cons.inj heq; simp at hc; cases hc
  next heq => obtain ⟨rfl, -⟩ := List.cons.inj heq; simp at hc; cases hc
  next heq => obtain ⟨rfl, -⟩ := List.cons.inj heq; simp at hc; cases hc
  next heq => obtain ⟨rfl, -⟩ := List.cons.inj heq; simp at hc; cases hc
  next => rw [hnumber]; rfl

theorem decodeNested_last (hkey : decodeString s = some (key, ':' :: s'))
    (h : decodeValue n s' = some (v, '\x7d' :: rest)) :
    decodeNested (n + 1) s = some (.cons key v .nil, rest) := by
  simp only [decodeNested, hkey, h]

theorem decodeNested_more (hkey : decodeString s = some (key, ':' :: s'))
    (h : decodeValue n s' = some (v, ',' :: s'')) (hmore : decodeNested n s'' = some (ms, rest)) :
    decodeNested (n + 1) s = some (.cons key v ms, rest) := by
  simp only [decodeNested, hkey, h, hmore, Option.map_some]

end

theorem encode_cons (key : GoString) (value : Value) {members : Members} (h : members ≠ .nil) :
    (Members.cons key value members).encode =
      encodeString key ++ ':' :: (value.encode ++ ',' :: members.encode) := by
  cases members with
  | nil => exact absurd rfl h
  | cons => rfl

theorem encode_ne_brace (key : GoString) (value : Value) (members : Members) (rest t : GoString) :
    (Members.cons key value members).encode ++ rest ≠ '\x7d' :: t := by
  intro h
  cases members with
  | nil => cases (List.cons.inj h).1
  | cons => cases (List.cons.inj h).1

theorem ends_brace (s : GoString) : Ends ('\x7d' :: s) := by
  intro c hc
  cases hc
  rfl

theorem ends_comma (s : GoString) : Ends (',' :: s) := by
  intro c hc
  cases hc
  rfl

mutual
theorem decodeValue_encode (v : Value) {n : Nat} {s : GoString} (hn : v.height ≤ n)
    (hs : Ends s) : decodeValue n (v.encode ++ s) = some (v.toValid, s) := by
  cases n with
  | zero => cases v <;> cases hn
  | succ n =>
    match v with
    | .string text =>
      have hstring := decodeString_encodeString text s
      exact decodeValue_string hstring
    | .number m => exact decodeValue_number m hs
    | .bool true => rfl
    | .bool false => rfl
    | .object .nil => rfl
    | .object (.cons key value members) =>
      have hn : (Members.cons key value members).height ≤ n := Nat.le_of_succ_le_succ hn
      exact decodeValue_object (encode_ne_brace key value members s)
        (decodeNested_encode key value members hn)

theorem decodeNested_encode (key : GoString) (value : Value) (members : Members) {n : Nat}
    {s : GoString} (hn : (Members.cons key value members).height ≤ n) :
    decodeNested n ((Members.cons key value members).encode ++ s) =
      some ((Members.cons key value members).toValid, s) := by
  cases n with
  | zero => cases hn
  | succ n =>
    have hn : max value.height members.height ≤ n := Nat.le_of_succ_le_succ hn
    have hheight : value.height ≤ n := Nat.le_trans (Nat.le_max_left ..) hn
    match members with
    | .nil =>
      have hkey := decodeString_encodeString key (':' :: (value.encode ++ '\x7d' :: s))
      have hvalue := decodeValue_encode value hheight (ends_brace s)
      rw [Members.encode, List.append_assoc, List.cons_append, List.append_assoc]
      exact decodeNested_last hkey hvalue
    | .cons key' value' members =>
      have hmore := decodeNested_encode key' value' members (s := s)
        (Nat.le_trans (Nat.le_max_right ..) hn)
      have hkey := decodeString_encodeString key
        (':' :: (value.encode ++ ',' :: ((Members.cons key' value' members).encode ++ s)))
      have hvalue := decodeValue_encode value hheight
        (ends_comma ((Members.cons key' value' members).encode ++ s))
      rw [encode_cons key value (fun h => by cases h), List.append_assoc, List.cons_append,
        List.append_assoc, List.cons_append]
      exact decodeNested_more hkey hvalue hmore
end

/-! ## Whole texts -/

theorem length_encodeString_pos (s : GoString) : 2 ≤ (encodeString s).length := by
  simp [encodeString]

theorem length_encodeNumber_pos (n : Int) : 1 ≤ (encodeNumber n).length := by
  obtain ⟨c, s, hs, -⟩ := encodeNumber_cons n
  rw [hs]
  exact Nat.succ_le_succ (Nat.zero_le _)

mutual
/-- A text is longer than its value is deep. -/
theorem height_le_length (v : Value) : v.height ≤ v.encode.length := by
  match v with
  | .string s => exact Nat.le_trans (Nat.le_succ 1) (length_encodeString_pos s)
  | .number n => exact length_encodeNumber_pos n
  | .bool true => exact Nat.succ_le_succ (Nat.zero_le _)
  | .bool false => exact Nat.succ_le_succ (Nat.zero_le _)
  | .object members => exact Nat.succ_le_succ (membersHeight_le_length members)

theorem membersHeight_le_length (members : Members) : members.height ≤ members.encode.length := by
  match members with
  | .nil => exact Nat.zero_le _
  | .cons key value .nil =>
    have hvalue := height_le_length value
    simp only [Members.height, Members.encode, List.length_append, List.length_cons]
    omega
  | .cons key value (.cons key' value' members) =>
    have hvalue := height_le_length value
    have hmembers := membersHeight_le_length (.cons key' value' members)
    rw [encode_cons key value (fun h => by cases h)]
    simp only [Members.height] at hmembers
    simp only [Members.height, List.length_append, List.length_cons]
    omega
end

/-- What was written is read back. -/
theorem decode_encode (v : Value) : decode v.encode = some v.toValid := by
  have h := decodeValue_encode v (height_le_length v) (s := []) (fun c hc => by cases hc)
  rw [List.append_nil] at h
  simp only [decode, h]

/-! ## Valid texts -/

theorem complete_encodeRune (hr : r ∈ GoString.runes s) : Complete (encodeRune r) := by
  rcases encodeRune_cases (GoString.isRune_of_mem hr) with ⟨henc, hself, -⟩ |
    ⟨c, e, -, hesc, henc⟩ | ⟨a, b, c, d, henc, -, hhex, -⟩
  · rw [henc]
    apply GoString.complete_of_mem_runes hr
    by_contra hvalid
    -- a byte on its own is not its own replacement
    rw [GoString.toValidRune, if_neg hvalid] at hself
    subst hself
    exact hvalid rfl
  · rw [henc]
    apply GoString.complete_of_all
    simp only [IsEscape, List.mem_cons, Prod.mk.injEq, List.not_mem_nil, or_false] at hesc
    rcases hesc with ⟨-, rfl⟩ | ⟨-, rfl⟩ | ⟨-, rfl⟩ | ⟨-, rfl⟩ <;> rfl
  · rw [henc]
    apply GoString.complete_of_ascii
    intro x hx
    rcases List.mem_cons.mp hx with rfl | hx
    · decide
    · rcases List.mem_cons.mp hx with rfl | hx
      · decide
      · exact GoString.toNat_lt_of_isHexDigit (hhex x hx)

theorem complete_char (h : c.toNat < 0x80) (ht : Complete t) : Complete (c :: t) :=
  (GoString.complete_of_ascii (t := [c]) (by simpa using h)).append ht

theorem complete_encodeString (s : GoString) : Complete (encodeString s) := by
  have hbody : Complete (encodeBody s) := GoString.complete_flatMap fun r => complete_encodeRune
  exact complete_char (by decide) (hbody.append (complete_char (by decide) GoString.complete_nil))

theorem complete_encodeNumber (n : Int) : Complete (encodeNumber n) := by
  have hdigits : Complete (GoString.formatUint n.natAbs) := by
    apply GoString.complete_of_ascii
    intro c hc
    have hdigit := (GoString.denotes_formatUint n.natAbs).2.1 c hc
    exact GoString.toNat_lt_of_isHexDigit (by simp [GoString.isHexDigit, hdigit])
  rw [encodeNumber]
  split
  · exact complete_char (by decide) hdigits
  · exact hdigits

mutual
theorem complete_encode (v : Value) : Complete v.encode := by
  match v with
  | .string s => exact complete_encodeString s
  | .number n => exact complete_encodeNumber n
  | .bool true => exact GoString.complete_of_all rfl
  | .bool false => exact GoString.complete_of_all rfl
  | .object members => exact complete_char (by decide) (complete_encodeMembers members)

theorem complete_encodeMembers (members : Members) : Complete members.encode := by
  match members with
  | .nil => exact GoString.complete_of_all rfl
  | .cons key value .nil =>
    apply (complete_encodeString key).append
    apply complete_char (by decide)
    exact (complete_encode value).append (complete_char (by decide) GoString.complete_nil)
  | .cons key value (.cons key' value' members) =>
    rw [encode_cons key value (fun h => by cases h)]
    apply (complete_encodeString key).append
    apply complete_char (by decide)
    apply (complete_encode value).append
    exact complete_char (by decide) (complete_encodeMembers (.cons key' value' members))
end

/-- A valid value is read back as it is. -/
theorem decode_of_valid {v : Value} (h : v.valid) : decode v.encode = some v := by
  rw [decode_encode, toValid_of_valid v h]

theorem readAt_encode {v : Value} (h : v.valid) (path : List GoString) :
    readAt path v.encode = v.find? path := by
  rw [readAt, decode_of_valid h, Option.bind_some]

end Json
