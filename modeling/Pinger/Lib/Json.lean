import Pinger.Lib.Bytes

/-! # JSON texts of strings

The texts that `json.Marshal` writes for strings and for objects of strings, and a decoder of such
texts. The encoder goes from rune to rune: it writes a rune as it is, or behind a backslash, and a
byte that begins no rune as the replacement character. A text without such a byte is valid. -/

namespace GoString

/-! ## Runes -/

/-- The runes of a text, `skip` bytes into it. -/
def runesAt : (skip : Nat) → GoString → List GoString
  | _, [] => []
  | 0, c :: s => (c :: s.take (runeTail c s)) :: runesAt (runeTail c s) s
  | skip + 1, _ :: s => runesAt skip s

def runes (s : GoString) : List GoString := runesAt 0 s

theorem runesAt_zero (c : Char) (s : GoString) :
    runesAt 0 (c :: s) = (c :: s.take (runeTail c s)) :: runesAt (runeTail c s) s := rfl

theorem runesAt_succ (skip : Nat) (c : Char) (s : GoString) :
    runesAt (skip + 1) (c :: s) = runesAt skip s := rfl

/-- The bytes of a rune: one byte, or several outside ASCII. -/
def IsRune (r : GoString) : Prop := (∃ c, r = [c]) ∨ (2 ≤ r.length ∧ ∀ c ∈ r, 0x80 ≤ c.toNat)

/-- The tail of a rune whose first byte says that `n` bytes follow. -/
def tailOf (s : GoString) (n lo hi : Nat) : Nat :=
  match s with
  | c :: s => if contByte lo hi c ∧ (s.take (n - 1)).length = n - 1 ∧
      (s.take (n - 1)).all (contByte 0x80 0xBF) then n else 0
  | [] => 0

/-- The first byte `b` says how the tail is found: there is none, or it is that of a lead byte. -/
def LedBy (b : Nat) (tail : GoString → Nat) : Prop :=
  (∀ s, tail s = 0) ∨
    0x80 ≤ b ∧ ∃ n lo hi, 0 < n ∧ 0x80 ≤ lo ∧ ∀ s, tail s = tailOf s n lo hi

theorem LedBy.ite {p : Prop} [Decidable p] (hf : p → LedBy b f) (hg : LedBy b g) :
    LedBy b fun s => if p then f s else g s := by
  by_cases hp : p
  · simpa only [if_pos hp] using hf hp
  · simpa only [if_neg hp] using hg

theorem runeTail_ledBy (c : Char) : LedBy c.toNat (runeTail c) := by
  have lead : ∀ n lo hi, 0x80 ≤ c.toNat → 0 < n → 0x80 ≤ lo →
      LedBy c.toNat fun s => tailOf s n lo hi :=
    fun n lo hi hc hn hlo => .inr ⟨hc, n, lo, hi, hn, hlo, fun _ => rfl⟩
  have hnone : LedBy c.toNat fun _ => 0 := .inl fun _ => rfl
  exact .ite (fun h => lead 1 0x80 0xBF (by omega) (by decide) (by decide)) <|
    .ite (fun h => lead 2 0xA0 0xBF (by omega) (by decide) (by decide)) <|
    .ite (fun h => lead 2 0x80 0x9F (by omega) (by decide) (by decide)) <|
    .ite (fun h => lead 2 0x80 0xBF (by omega) (by decide) (by decide)) <|
    .ite (fun h => lead 3 0x90 0xBF (by omega) (by decide) (by decide)) <|
    .ite (fun h => lead 3 0x80 0xBF (by omega) (by decide) (by decide)) <|
    .ite (fun h => lead 3 0x80 0x8F (by omega) (by decide) (by decide)) hnone

theorem tailOf_spec (hn : 0 < n) (hlo : 0x80 ≤ lo) (h : tailOf s n lo hi ≠ 0) :
    tailOf s n lo hi = n ∧ n ≤ s.length ∧ ∀ c ∈ s.take n, 0x80 ≤ c.toNat := by
  obtain ⟨n, rfl⟩ : ∃ m, n = m + 1 := ⟨n - 1, by omega⟩
  cases s with
  | nil => exact absurd rfl h
  | cons c s =>
    rw [tailOf, Nat.add_sub_cancel] at h ⊢
    split at h
    next hc =>
      obtain ⟨hfirst, hlen, hall⟩ := hc
      have hc : 0x80 ≤ c.toNat := by
        rw [contByte, Bool.and_eq_true, decide_eq_true_eq] at hfirst
        omega
      refine ⟨if_pos ⟨hfirst, hlen, hall⟩, ?_, ?_⟩
      · rw [List.length_take] at hlen
        rw [List.length_cons]
        omega
      · intro d hd
        rw [List.take_succ_cons, List.mem_cons] at hd
        rcases hd with rfl | hd
        · exact hc
        · have hd := List.all_eq_true.mp hall d hd
          rw [contByte, Bool.and_eq_true, decide_eq_true_eq] at hd
          exact hd.1
    next => exact absurd rfl h

/-- A tail is within the text, and its bytes are outside ASCII. -/
theorem runeTail_spec (h : runeTail c s ≠ 0) : 0x80 ≤ c.toNat ∧ runeTail c s ≤ s.length ∧
    ∀ d ∈ s.take (runeTail c s), 0x80 ≤ d.toNat := by
  rcases runeTail_ledBy c with hnone | ⟨hc, n, lo, hi, hn, hlo, heq⟩
  · exact absurd (hnone s) h
  · rw [heq] at h ⊢
    obtain ⟨htail, hlen, hall⟩ := tailOf_spec hn hlo h
    rw [htail]
    exact ⟨hc, hlen, hall⟩

theorem runeTail_le (c : Char) (s : GoString) : runeTail c s ≤ s.length := by
  by_cases h : runeTail c s = 0
  · omega
  · exact (runeTail_spec h).2.1

theorem runeTail_of_lt (h : c.toNat < 0x80) (s : GoString) : runeTail c s = 0 := by
  by_contra hne
  have := (runeTail_spec hne).1
  omega

/-- A byte of ASCII belongs to no tail. -/
theorem runeTail_append (hsep : sep.toNat < 0x80) (c : Char) (a b : GoString) :
    runeTail c (a ++ sep :: b) = runeTail c a := by
  have hcont : ∀ lo hi, 0x80 ≤ lo → contByte lo hi sep = false := by
    intro lo hi hlo
    rw [contByte, Bool.and_eq_false_iff]
    exact .inl (decide_eq_false (by omega))
  rcases runeTail_ledBy c with hnone | ⟨hc, n, lo, hi, hn, hlo, heq⟩
  · rw [hnone, hnone]
  · rw [heq, heq]
    cases a with
    | nil => simp [tailOf, hcont lo hi hlo]
    | cons d a =>
      rw [List.cons_append]
      simp only [tailOf]
      rcases Nat.lt_or_ge a.length (n - 1) with hlt | hge
      · -- the tail would reach the separator
        have hmem : sep ∈ (a ++ sep :: b).take (n - 1) := by
          rw [List.take_append, List.take_of_length_le (by omega)]
          obtain ⟨m, hm⟩ : ∃ m, n - 1 - a.length = m + 1 := ⟨n - 1 - a.length - 1, by omega⟩
          rw [hm, List.take_succ_cons]
          exact List.mem_append_right a List.mem_cons_self
        rw [if_neg, if_neg]
        · rintro ⟨-, hlen, -⟩
          rw [List.length_take] at hlen
          omega
        · rintro ⟨-, -, hall⟩
          have := List.all_eq_true.mp hall sep hmem
          rw [hcont _ _ (by decide)] at this
          cases this
      · rw [List.take_append_of_le_length hge]

theorem runesAt_append (hsep : sep.toNat < 0x80) (b : GoString) (h : skip ≤ a.length) :
    runesAt skip (a ++ sep :: b) = runesAt skip a ++ [sep] :: runes b := by
  induction a generalizing skip with
  | nil =>
    obtain rfl : skip = 0 := Nat.le_zero.mp h
    rw [List.nil_append, runesAt_zero, runeTail_of_lt hsep]
    rfl
  | cons c a ih =>
    cases skip with
    | zero =>
      have hle := runeTail_le c a
      rw [List.cons_append, runesAt_zero, runesAt_zero, runeTail_append hsep, ih hle,
        List.take_append_of_le_length hle]
      rfl
    | succ skip =>
      rw [List.cons_append, runesAt_succ, runesAt_succ]
      exact ih (by simpa using h)

/-- The runes before and after a byte of ASCII. -/
theorem runes_append (hsep : sep.toNat < 0x80) (a b : GoString) :
    runes (a ++ sep :: b) = runes a ++ [sep] :: runes b := runesAt_append hsep b (Nat.zero_le _)

theorem flatten_runesAt (h : skip ≤ s.length) : (runesAt skip s).flatten = s.drop skip := by
  induction s generalizing skip with
  | nil => cases skip <;> rfl
  | cons c s ih =>
    cases skip with
    | zero =>
      rw [runesAt_zero, List.flatten_cons, ih (runeTail_le c s), List.cons_append,
        List.take_append_drop]
      rfl
    | succ skip =>
      rw [runesAt_succ, ih (by simpa using h), List.drop_succ_cons]

/-- The runes make up the text. -/
theorem flatten_runes (s : GoString) : (runes s).flatten = s := flatten_runesAt (Nat.zero_le _)

/-- A byte of ASCII is a rune of its own. -/
theorem IsRune.eq_singleton (h : IsRune r) (hc : c ∈ r) (hlt : c.toNat < 0x80) : r = [c] := by
  rcases h with ⟨d, rfl⟩ | ⟨-, hall⟩
  · rw [List.mem_singleton.mp hc]
  · have := hall c hc
    omega

theorem IsRune.ne_nil (h : IsRune r) : r ≠ [] := by
  rintro rfl
  rcases h with ⟨c, hc⟩ | ⟨hlen, -⟩
  · cases hc
  · cases hlen

theorem isRune_of_mem_runesAt (h : r ∈ runesAt skip s) : IsRune r := by
  induction s generalizing skip with
  | nil => cases skip <;> cases h
  | cons c s ih =>
    cases skip with
    | zero =>
      rcases List.mem_cons.mp h with rfl | h
      · by_cases htail : runeTail c s = 0
        · exact .inl ⟨c, by rw [htail, List.take_zero]⟩
        · obtain ⟨hc, hlen, hall⟩ := runeTail_spec htail
          refine .inr ⟨?_, ?_⟩
          · rw [List.length_cons, List.length_take]
            omega
          · intro d hd
            rcases List.mem_cons.mp hd with rfl | hd
            · exact hc
            · exact hall d hd
      · exact ih h
    | succ skip => exact ih h

theorem isRune_of_mem (h : r ∈ runes s) : IsRune r := isRune_of_mem_runesAt h

/-- The rune is not a byte on its own outside ASCII. -/
def validRune : GoString → Bool
  | [c] => c.toNat < 0x80
  | _ => true

/-- `utf8.ValidString`. -/
def validString (s : GoString) : Bool := (runes s).all validRune

theorem validString_append (hsep : sep.toNat < 0x80) (a b : GoString) :
    validString (a ++ sep :: b) = (validString a && validString b) := by
  have hone : validRune [sep] = true := decide_eq_true hsep
  rw [validString, runes_append hsep, List.all_append, List.all_cons, hone, Bool.true_and]
  rfl

/-- The replacement character for a byte that begins no rune. -/
def replacement : GoString := ['\xEF', '\xBF', '\xBD']

def toValidRune (r : GoString) : GoString := if validRune r then r else replacement

/-- `strings.ToValidUTF8` with the replacement character. -/
def toValid (s : GoString) : GoString := (runes s).flatMap toValidRune

theorem toValid_eq_self (h : validString s) : toValid s = s := by
  have hall : ∀ r ∈ runes s, toValidRune r = r := fun r hr => if_pos (List.all_eq_true.mp h r hr)
  rw [toValid, List.flatMap_def, List.map_congr_left hall, List.map_id', flatten_runes]

theorem validString_of_ascii (h : ∀ c ∈ s, c.toNat < 0x80) : validString s := by
  refine List.all_eq_true.mpr fun r hr => ?_
  unfold validRune
  split
  next c =>
    have hc : c ∈ s := by
      rw [← flatten_runes s]
      exact List.mem_flatten.mpr ⟨[c], hr, List.mem_singleton_self c⟩
    exact decide_eq_true (h c hc)
  next => rfl

/-- A replacement character is longer than the byte that it replaces. -/
theorem length_toValidRune (hr : IsRune r) : r.length ≤ (toValidRune r).length ∧
    (r.length = (toValidRune r).length → validRune r) := by
  unfold toValidRune
  split
  next hvalid => exact ⟨Nat.le_refl _, fun _ => hvalid⟩
  next hvalid =>
    rcases hr with ⟨c, rfl⟩ | ⟨hlen, -⟩
    · exact ⟨Nat.le_add_left 1 2, fun h => by cases h⟩
    · unfold validRune at hvalid
      split at hvalid
      · cases Nat.lt_irrefl 1 hlen
      · cases hvalid rfl

theorem length_toValidRunes {rs : List GoString} (hrs : ∀ r ∈ rs, IsRune r) :
    rs.flatten.length ≤ (rs.flatMap toValidRune).length ∧
      (rs.flatten.length = (rs.flatMap toValidRune).length → rs.all validRune) := by
  induction rs with
  | nil => exact ⟨Nat.le_refl _, fun _ => rfl⟩
  | cons r rs ih =>
    obtain ⟨hle, hvalid⟩ := ih fun r h => hrs r (List.mem_cons_of_mem _ h)
    obtain ⟨hle', hvalid'⟩ := length_toValidRune (hrs r List.mem_cons_self)
    rw [List.flatten_cons, List.flatMap_cons, List.length_append, List.length_append]
    refine ⟨Nat.add_le_add hle' hle, fun heq => ?_⟩
    rw [List.all_cons, hvalid' (by omega), hvalid (by omega)]
    rfl

theorem toValid_eq_self_iff : toValid s = s ↔ validString s := by
  refine ⟨fun h => ?_, toValid_eq_self⟩
  have hlen := (length_toValidRunes fun _ => isRune_of_mem (s := s)).2
  rw [flatten_runes] at hlen
  exact hlen (congrArg List.length h.symm)

end GoString

namespace Json

open GoString (lit runes)

/-! ## Encoding -/

def hexDigit (n : Nat) : Char := n.digitChar

/-- A byte of ASCII as `json.Marshal` writes it. -/
def escape (c : Char) : GoString :=
  if c = '\\' ∨ c = '"' then ['\\', c]
  else if c = '\n' then ['\\', 'n']
  else if c = '\r' then ['\\', 'r']
  else if c.toNat < 0x20 ∨ c = '<' ∨ c = '>' ∨ c = '&' then
    ['\\', 'u', '0', '0', hexDigit (c.toNat / 16), hexDigit (c.toNat % 16)]
  else [c]

def encodeRune : GoString → GoString
  | [c] => if c.toNat < 0x80 then escape c else lit "\\ufffd"
  | r =>
    if r = ['\xE2', '\x80', '\xA8'] then lit "\\u2028"
    else if r = ['\xE2', '\x80', '\xA9'] then lit "\\u2029"
    else r

def encodeBody (s : GoString) : GoString := (runes s).flatMap encodeRune

def encodeString (s : GoString) : GoString := '"' :: encodeBody s ++ ['"']

def encodeMember (member : GoString × GoString) : GoString :=
  encodeString member.1 ++ ':' :: encodeString member.2

/-- An object with these members in this order. -/
def encodeObject (members : List (GoString × GoString)) : GoString :=
  '\x7b' :: [','].intercalate (members.map encodeMember) ++ ['\x7d']

/-! ## Decoding -/

def hexValue (c : Char) : Option Nat :=
  if '0' ≤ c ∧ c ≤ '9' then some (c.toNat - 48)
  else if 'a' ≤ c ∧ c ≤ 'f' then some (c.toNat - 87)
  else if 'A' ≤ c ∧ c ≤ 'F' then some (c.toNat - 55)
  else none

/-- The bytes of a character of the basic plane that is no surrogate. -/
def utf8 (n : Nat) : Option GoString :=
  if n < 0x80 then some [Char.ofNat n]
  else if n < 0x800 then some [Char.ofNat (0xC0 + n / 64), Char.ofNat (0x80 + n % 64)]
  else if 0xD800 ≤ n ∧ n < 0xE000 then none
  else
    some [Char.ofNat (0xE0 + n / 4096), Char.ofNat (0x80 + n / 64 % 64), Char.ofNat (0x80 + n % 64)]

/-- The text of `\u` and four digits. -/
def decodeUnicode (a b c d : Char) : Option GoString := do
  let a ← hexValue a
  let b ← hexValue b
  let c ← hexValue c
  let d ← hexValue d
  utf8 (((a * 16 + b) * 16 + c) * 16 + d)

/-- The character behind a backslash. -/
def unescape : Char → Option Char
  | '"' => some '"'
  | '\\' => some '\\'
  | '/' => some '/'
  | 'b' => some '\x08'
  | 'f' => some '\x0C'
  | 'n' => some '\n'
  | 'r' => some '\r'
  | 't' => some '\t'
  | _ => none

/-- Text in front of what has been decoded. -/
def prepend (text : GoString) (decoded : GoString × GoString) : GoString × GoString :=
  (text ++ decoded.1, decoded.2)

/-- A string up to its closing quote, and what follows. -/
def decodeBody : GoString → Option (GoString × GoString)
  | [] => none
  | '"' :: s => some ([], s)
  | '\\' :: 'u' :: a :: b :: c :: d :: s =>
    (decodeUnicode a b c d).bind fun text => (decodeBody s).map (prepend text)
  | '\\' :: e :: s => (unescape e).bind fun c => (decodeBody s).map (prepend [c])
  | c :: s => if c.toNat < 0x20 ∨ c = '\\' then none else (decodeBody s).map (prepend [c])

def decodeString : GoString → Option (GoString × GoString)
  | '"' :: s => decodeBody s
  | _ => none

def decodeMember (s : GoString) : Option ((GoString × GoString) × GoString) :=
  match decodeString s with
  | some (key, ':' :: s) => (decodeString s).map fun (value, s) => ((key, value), s)
  | _ => none

/-- At most `n` members and the closing brace. -/
def decodeMembers : Nat → GoString → Option (List (GoString × GoString))
  | 0, _ => none
  | n + 1, s =>
    match decodeMember s with
    | some (member, ['\x7d']) => some [member]
    | some (member, ',' :: s) => (decodeMembers n s).map (member :: ·)
    | _ => none

/-- An object of strings, without blanks. -/
def decodeObject : GoString → Option (List (GoString × GoString))
  | ['\x7b', '\x7d'] => some []
  | '\x7b' :: s => decodeMembers s.length s
  | _ => none

example : decodeObject (encodeObject [(lit "a", lit "x\ny\"\\<"), (lit "b", [])]) =
    some [(lit "a", lit "x\ny\"\\<"), (lit "b", [])] := by decide +kernel

/-! ## The encoding of a rune

A rune is encoded in one of three ways: as it is, behind a backslash, or as `\u` and digits. -/

/-- The byte stands for itself in a string. -/
def Literal (c : Char) : Prop := 0x20 ≤ c.toNat ∧ c ≠ '"' ∧ c ≠ '\\'

instance (c : Char) : Decidable (Literal c) :=
  inferInstanceAs (Decidable (0x20 ≤ c.toNat ∧ c ≠ '"' ∧ c ≠ '\\'))

theorem literal_of_le (h : 0x80 ≤ c.toNat) : Literal c := by
  refine ⟨by omega, ?_, ?_⟩ <;> rintro rfl <;> exact absurd h (by decide)

theorem decodeUnicode_escape : ∀ n < 128,
    decodeUnicode '0' '0' (hexDigit (n / 16)) (hexDigit (n % 16)) = some [Char.ofNat n] := by
  decide

theorem isHexDigit_hexDigit : ∀ n < 16, GoString.isHexDigit (hexDigit n) := by decide

/-- The escapes of one letter. -/
def IsEscape (c e : Char) : Prop :=
  (c, e) ∈ [('"', '"'), ('\\', '\\'), ('\n', 'n'), ('\r', 'r')]

instance (c e : Char) : Decidable (IsEscape c e) := inferInstanceAs (Decidable (_ ∈ _))

theorem escape_cases (h : c.toNat < 0x80) : (escape c = [c] ∧ Literal c) ∨
    (∃ e, IsEscape c e ∧ escape c = ['\\', e]) ∨
    ∃ x y, escape c = ['\\', 'u', '0', '0', x, y] ∧ decodeUnicode '0' '0' x y = some [c] ∧
      GoString.isHexDigit x ∧ GoString.isHexDigit y ∧ c ≠ '\n' ∧ c ≠ '\r' := by
  unfold escape
  split_ifs with hquote hnl hcr hu
  · rcases hquote with rfl | rfl
    · exact .inr (.inl ⟨_, by decide, rfl⟩)
    · exact .inr (.inl ⟨_, by decide, rfl⟩)
  · subst hnl
    exact .inr (.inl ⟨_, by decide, rfl⟩)
  · subst hcr
    exact .inr (.inl ⟨_, by decide, rfl⟩)
  · refine .inr (.inr ⟨_, _, rfl, ?_, ?_, ?_, hnl, hcr⟩)
    · rw [decodeUnicode_escape _ h, Char.ofNat_toNat]
    · exact isHexDigit_hexDigit _ (by omega)
    · exact isHexDigit_hexDigit _ (by omega)
  · rw [not_or] at hquote hu
    exact .inl ⟨rfl, by omega, hquote.2, hquote.1⟩

theorem encodeRune_cases (hr : GoString.IsRune r) :
    (encodeRune r = r ∧ GoString.toValidRune r = r ∧ ∀ c ∈ r, Literal c) ∨
    (∃ c e, r = [c] ∧ IsEscape c e ∧ encodeRune r = ['\\', e]) ∨
    ∃ a b c d, encodeRune r = ['\\', 'u', a, b, c, d] ∧
      decodeUnicode a b c d = some (GoString.toValidRune r) ∧
      (∀ x ∈ [a, b, c, d], GoString.isHexDigit x) ∧
      '\n' ∉ GoString.toValidRune r ∧ '\r' ∉ GoString.toValidRune r := by
  rcases hr with ⟨c, rfl⟩ | ⟨hlen, hall⟩
  · rcases Nat.lt_or_ge c.toNat 0x80 with hc | hc
    · have hvalid : GoString.toValidRune [c] = [c] := if_pos (decide_eq_true hc)
      have henc : encodeRune [c] = escape c := if_pos hc
      rw [hvalid, henc]
      rcases escape_cases hc with ⟨he, hl⟩ | ⟨e, hesc, he⟩ | ⟨x, y, he, hdec, hx, hy, hnl, hcr⟩
      · exact .inl ⟨he, rfl, fun d hd => List.mem_singleton.mp hd ▸ hl⟩
      · exact .inr (.inl ⟨c, e, rfl, hesc, he⟩)
      · refine .inr (.inr ⟨'0', '0', x, y, he, hdec, ?_, ?_, ?_⟩)
        · simp [hx, hy, show GoString.isHexDigit '0' = true by decide]
        · simpa using hnl.symm
        · simpa using hcr.symm
    · have hvalid : GoString.toValidRune [c] = GoString.replacement :=
        if_neg (by simpa [GoString.validRune] using hc)
      have henc : encodeRune [c] = lit "\\ufffd" := if_neg (by omega)
      rw [hvalid, henc]
      exact .inr (.inr
        ⟨'f', 'f', 'f', 'd', rfl, by decide, List.all_eq_true.mp rfl, by decide, by decide⟩)
  · have hvalid : GoString.toValidRune r = r := by
      rw [GoString.toValidRune, if_pos]
      unfold GoString.validRune
      split
      · cases Nat.lt_irrefl 1 hlen
      · rfl
    rw [hvalid]
    unfold encodeRune
    split
    · cases Nat.lt_irrefl 1 hlen
    · split_ifs with hline hparagraph
      · subst hline
        exact .inr (.inr
          ⟨'2', '0', '2', '8', rfl, by decide, List.all_eq_true.mp rfl, by decide, by decide⟩)
      · subst hparagraph
        exact .inr (.inr
          ⟨'2', '0', '2', '9', rfl, by decide, List.all_eq_true.mp rfl, by decide, by decide⟩)
      · exact .inl ⟨rfl, rfl, fun c hc => literal_of_le (hall c hc)⟩

/-! ## No control characters -/

/-- The text has no control characters. -/
def Printable (s : GoString) : Prop := ∀ c ∈ s, 0x20 ≤ c.toNat

instance (s : GoString) : Decidable (Printable s) := s.decidableBAll _

theorem Printable.append (ha : Printable a) (hb : Printable b) : Printable (a ++ b) :=
  fun c hc => (List.mem_append.mp hc).elim (ha c) (hb c)

theorem isHexDigit_of_lt : ∀ n < 0x20, GoString.isHexDigit (Char.ofNat n) = false := by decide

theorem le_of_isHexDigit (h : GoString.isHexDigit c) : 0x20 ≤ c.toNat := by
  by_contra hlt
  have := isHexDigit_of_lt c.toNat (by omega)
  rw [Char.ofNat_toNat, h] at this
  cases this

theorem encodeRune_printable (hr : GoString.IsRune r) : Printable (encodeRune r) := by
  rcases encodeRune_cases hr with ⟨henc, -, hlit⟩ | ⟨c, e, -, hesc, henc⟩ |
    ⟨a, b, c, d, henc, -, hhex, -⟩
  · rw [henc]
    exact fun c hc => (hlit c hc).1
  · rw [henc]
    simp only [IsEscape, List.mem_cons, Prod.mk.injEq, List.not_mem_nil, or_false] at hesc
    rcases hesc with ⟨-, rfl⟩ | ⟨-, rfl⟩ | ⟨-, rfl⟩ | ⟨-, rfl⟩ <;> decide
  · rw [henc]
    exact Printable.append (a := ['\\', 'u']) (by decide) fun x hx => le_of_isHexDigit (hhex x hx)

theorem encodeString_printable (s : GoString) : Printable (encodeString s) := by
  have hbody : Printable (encodeBody s) := by
    intro c hc
    obtain ⟨r, hr, hc⟩ := List.mem_flatMap.mp hc
    exact encodeRune_printable (GoString.isRune_of_mem hr) c hc
  exact Printable.append (a := ['"']) (by decide) (hbody.append (by decide))

theorem intercalate_printable {texts : List GoString} (h : ∀ s ∈ texts, Printable s) :
    Printable ([','].intercalate texts) := by
  induction texts with
  | nil => exact fun _ hc => nomatch hc
  | cons s texts ih =>
    have hs := h s List.mem_cons_self
    have ih := ih fun t ht => h t (List.mem_cons_of_mem s ht)
    cases texts with
    | nil => rwa [List.intercalate_singleton]
    | cons t texts =>
      rw [List.intercalate_cons_cons]
      exact (hs.append (by decide)).append ih

/-- An encoded object has no control characters, so no breaks. -/
theorem encodeObject_printable (members : List (GoString × GoString)) :
    Printable (encodeObject members) := by
  have hopen : Printable ['\x7b'] := by decide
  refine hopen.append (.append (intercalate_printable ?_) (by decide))
  intro s hs
  obtain ⟨member, -, rfl⟩ := List.mem_map.mp hs
  exact (encodeString_printable _).append
    (.append (a := [':']) (by decide) (encodeString_printable _))

/-! ## Decoding the parts of a string -/

theorem decodeBody_unicode (a b c d : Char) (s : GoString) :
    decodeBody ('\\' :: 'u' :: a :: b :: c :: d :: s) =
      (decodeUnicode a b c d).bind fun text => (decodeBody s).map (prepend text) := rfl

theorem decodeBody_escape (h : e ≠ 'u') (s : GoString) :
    decodeBody ('\\' :: e :: s) =
      (unescape e).bind fun c => (decodeBody s).map (prepend [c]) := by
  simp [decodeBody, h]

theorem decodeBody_literal (h : Literal c) (s : GoString) :
    decodeBody (c :: s) = (decodeBody s).map (prepend [c]) := by
  obtain ⟨hle, hquote, hback⟩ := h
  have hlt : ¬c.toNat < 0x20 := by omega
  simp [decodeBody, hback, hlt]

theorem decodeBody_literals (h : ∀ c ∈ r, Literal c) (s : GoString) :
    decodeBody (r ++ s) = (decodeBody s).map (prepend r) := by
  induction r with
  | nil => exact Option.map_id'.symm
  | cons c r ih =>
    rw [List.cons_append, decodeBody_literal (h c List.mem_cons_self),
      ih fun d hd => h d (List.mem_cons_of_mem c hd), Option.map_map]
    rfl

/-! ## Decoding the members of an object -/

theorem decodeObject_members (h : s ≠ ['\x7d']) :
    decodeObject ('\x7b' :: s) = decodeMembers s.length s := by
  unfold decodeObject
  split
  next heq => exact absurd (List.cons.inj heq).2 h
  next heq => rw [(List.cons.inj heq).2]
  next hno => exact absurd rfl (hno s)

theorem decodeMembers_none (h : decodeMember s = none) : decodeMembers (n + 1) s = none := by
  rw [decodeMembers, h]

theorem decodeMembers_last (h : decodeMember s = some (member, ['\x7d'])) :
    decodeMembers (n + 1) s = some [member] := by
  rw [decodeMembers, h]
  rfl

theorem decodeMembers_more (h : decodeMember s = some (member, ',' :: s')) :
    decodeMembers (n + 1) s = (decodeMembers n s').map (member :: ·) := by
  rw [decodeMembers, h]
  rfl

/-! ## Decoding what was encoded -/

theorem toValidRune_of_isEscape (h : IsEscape c e) : GoString.toValidRune [c] = [c] := by
  simp only [IsEscape, List.mem_cons, Prod.mk.injEq, List.not_mem_nil, or_false] at h
  rcases h with ⟨rfl, -⟩ | ⟨rfl, -⟩ | ⟨rfl, -⟩ | ⟨rfl, -⟩ <;> rfl

theorem unescape_of_isEscape (h : IsEscape c e) : e ≠ 'u' ∧ unescape e = some c := by
  simp only [IsEscape, List.mem_cons, Prod.mk.injEq, List.not_mem_nil, or_false] at h
  rcases h with ⟨rfl, rfl⟩ | ⟨rfl, rfl⟩ | ⟨rfl, rfl⟩ | ⟨rfl, rfl⟩ <;> exact ⟨by decide, rfl⟩

theorem decodeBody_encodeBody {rs : List GoString} (hrs : ∀ r ∈ rs, GoString.IsRune r) (rest : GoString) :
    decodeBody (rs.flatMap encodeRune ++ '"' :: rest) =
      some (rs.flatMap GoString.toValidRune, rest) := by
  induction rs with
  | nil => rfl
  | cons r rs ih =>
    have ih := ih fun r h => hrs r (List.mem_cons_of_mem _ h)
    rw [List.flatMap_cons, List.flatMap_cons, List.append_assoc]
    rcases encodeRune_cases (hrs r List.mem_cons_self) with ⟨henc, hvalid, hlit⟩ |
      ⟨c, e, rfl, hesc, henc⟩ | ⟨a, b, c, d, henc, hdec, -⟩
    · rw [henc, hvalid, decodeBody_literals hlit, ih]
      rfl
    · obtain ⟨hu, hunescape⟩ := unescape_of_isEscape hesc
      rw [henc, toValidRune_of_isEscape hesc, List.cons_append, List.singleton_append,
        decodeBody_escape hu, hunescape, Option.bind_some, ih]
      rfl
    · have htext : ['\\', 'u', a, b, c, d] ++ (rs.flatMap encodeRune ++ '"' :: rest) =
          '\\' :: 'u' :: a :: b :: c :: d :: (rs.flatMap encodeRune ++ '"' :: rest) := rfl
      rw [henc, htext, decodeBody_unicode, hdec, Option.bind_some, ih]
      rfl

theorem decodeString_encodeString (s rest : GoString) :
    decodeString (encodeString s ++ rest) = some (GoString.toValid s, rest) := by
  have htext : encodeString s ++ rest = '"' :: (encodeBody s ++ '"' :: rest) := by
    simp [encodeString]
  rw [htext]
  exact decodeBody_encodeBody (fun _ => GoString.isRune_of_mem) rest

/-- The member with every byte that begins no rune replaced. -/
def validMember (member : GoString × GoString) : GoString × GoString :=
  (GoString.toValid member.1, GoString.toValid member.2)

theorem decodeMember_encodeMember (member : GoString × GoString) (rest : GoString) :
    decodeMember (encodeMember member ++ rest) = some (validMember member, rest) := by
  have hvalue := decodeString_encodeString member.2 rest
  rw [encodeMember, List.append_assoc, decodeMember, decodeString_encodeString, List.cons_append]
  simp only [hvalue]
  rfl

theorem decodeMembers_encode {members : List (GoString × GoString)} (hne : members ≠ [])
    (hn : members.length ≤ n) :
    decodeMembers n ([','].intercalate (members.map encodeMember) ++ ['\x7d']) =
      some (members.map validMember) := by
  induction members generalizing n with
  | nil => exact absurd rfl hne
  | cons member members ih =>
    cases n with
    | zero => cases hn
    | succ n =>
      cases members with
      | nil =>
        rw [List.map_singleton, List.intercalate_singleton,
          decodeMembers_last (decodeMember_encodeMember member _)]
        rfl
      | cons member' members =>
        have ih := ih (List.cons_ne_nil _ _) (Nat.le_of_succ_le_succ hn)
        rw [List.map_cons, List.intercalate_cons_of_ne_nil (by simp), List.append_assoc,
          List.append_assoc, List.singleton_append,
          decodeMembers_more (decodeMember_encodeMember member _), ih]
        rfl

/-- A text has a byte for each member. -/
theorem length_members_le {members : List (GoString × GoString)} (s : GoString) :
    members.length ≤ ([','].intercalate (members.map encodeMember) ++ s).length := by
  induction members with
  | nil => exact Nat.zero_le _
  | cons member members ih =>
    have hpos : 0 < (encodeMember member).length := by simp [encodeMember]
    cases members with
    | nil => simp [List.intercalate_singleton]; omega
    | cons member' members =>
      rw [List.map_cons, List.intercalate_cons_of_ne_nil (by simp)]
      simp only [List.length_append, List.length_cons] at ih ⊢
      omega

/-- The text of an object is read back as its members. -/
theorem decodeObject_encodeObject (members : List (GoString × GoString)) :
    decodeObject (encodeObject members) = some (members.map validMember) := by
  rw [encodeObject, List.cons_append]
  cases members with
  | nil => rfl
  | cons member members =>
    rw [decodeObject_members, decodeMembers_encode (List.cons_ne_nil _ _) (length_members_le _)]
    intro h
    have hempty := List.append_left_eq_self.mp h
    have hlen : (member :: members).length ≤ _ := length_members_le []
    rw [hempty] at hlen
    exact Nat.not_succ_le_zero _ hlen

/-! ## A character that stands for itself -/

/-- A character that is written as it is, and that no escape is written with. -/
structure Verbatim (c : Char) : Prop where
  ascii : c.toNat < 0x80
  encode : encodeRune [c] = [c]
  escape : c ∉ ['\\', '"', 'n', 'r', 'u', ':', ',', '\x7b', '\x7d']
  hex : GoString.isHexDigit c = false

theorem mem_encodeRune (hc : Verbatim c) (hr : GoString.IsRune r) : c ∈ encodeRune r ↔ c ∈ r := by
  constructor
  · intro hmem
    rcases encodeRune_cases hr with ⟨henc, -⟩ | ⟨d, e, rfl, hesc, henc⟩ |
      ⟨x₁, x₂, x₃, x₄, henc, -, hhex, -⟩
    · rwa [henc] at hmem
    · have hescape := hc.escape
      simp only [IsEscape, List.mem_cons, Prod.mk.injEq, List.not_mem_nil, or_false] at hesc
      rw [henc] at hmem
      simp only [List.mem_cons, List.not_mem_nil, or_false, not_or] at hmem hescape
      rcases hmem with rfl | rfl
      · exact absurd rfl hescape.1
      · rcases hesc with ⟨-, rfl⟩ | ⟨-, rfl⟩ | ⟨-, rfl⟩ | ⟨-, rfl⟩ <;> simp at hescape
    · have hescape := hc.escape
      rw [henc] at hmem
      rcases List.mem_cons.mp hmem with rfl | hmem
      · simp at hescape
      rcases List.mem_cons.mp hmem with rfl | hmem
      · simp at hescape
      have := hhex c hmem
      rw [hc.hex] at this
      cases this
  · intro hmem
    rw [hr.eq_singleton hmem hc.ascii, hc.encode]
    exact List.mem_singleton_self c

theorem mem_encodeString (hc : Verbatim c) (s : GoString) : c ∈ encodeString s ↔ c ∈ s := by
  have hbody : c ∈ encodeBody s ↔ c ∈ s := by
    rw [encodeBody, List.mem_flatMap, ← GoString.flatten_runes s, GoString.flatten_runes s]
    conv_rhs => rw [← GoString.flatten_runes s, List.mem_flatten]
    exact exists_congr fun r => and_congr_right fun hr =>
      mem_encodeRune hc (GoString.isRune_of_mem hr)
  have hquote : c ≠ '"' := fun e => hc.escape (by simp [e])
  rw [encodeString, List.mem_append, List.mem_cons, hbody]
  simp [hquote]

theorem mem_encodeMember (hc : Verbatim c) (member : GoString × GoString) :
    c ∈ encodeMember member ↔ c ∈ member.1 ∨ c ∈ member.2 := by
  have hcolon : c ≠ ':' := fun e => hc.escape (by simp [e])
  rw [encodeMember, List.mem_append, List.mem_cons, mem_encodeString hc, mem_encodeString hc,
    or_iff_right (a := c = ':') hcolon]

theorem mem_intercalate {sep : α} (h : c ≠ sep) (texts : List (List α)) :
    c ∈ [sep].intercalate texts ↔ ∃ text ∈ texts, c ∈ text := by
  induction texts with
  | nil => simp [List.intercalate]
  | cons text texts ih =>
    by_cases htexts : texts = []
    · simp [htexts, List.intercalate_singleton]
    · rw [List.intercalate_cons_of_ne_nil htexts]
      simp [h, ih]

/-- A character is in the text of an object when it is in a key or in a value. -/
theorem mem_encodeObject (hc : Verbatim c) (members : List (GoString × GoString)) :
    c ∈ encodeObject members ↔ ∃ member ∈ members, c ∈ member.1 ∨ c ∈ member.2 := by
  have hopen : c ≠ '\x7b' := fun e => hc.escape (by simp [e])
  have hclose : c ≠ '\x7d' := fun e => hc.escape (by simp [e])
  have hcomma : c ≠ ',' := fun e => hc.escape (by simp [e])
  simp only [encodeObject, List.mem_append, List.mem_cons, mem_intercalate hcomma, List.mem_map,
    hopen, hclose, List.not_mem_nil, or_false, false_or, exists_exists_and_eq_and,
    mem_encodeMember hc]

end Json
