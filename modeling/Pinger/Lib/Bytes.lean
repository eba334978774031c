import Mathlib.Data.Nat.Digits.Defs

/-! # Byte strings

A string is the list of its bytes, each byte written as the character with that code. The
operations are those of the Go packages `strings`, `strconv` and `encoding/base64`. -/

/-- A byte string. -/
abbrev GoString := List Char

namespace GoString

/-- The byte string of an ASCII literal. -/
abbrev lit (s : String) : GoString := s.toList

/-- `strings.Split(s, sep)` for a one-byte separator: the parts between the separators, so the
result is never empty. -/
def split (sep : Char) : GoString → List GoString
  | [] => [[]]
  | c :: cs =>
    match split sep cs with
    | [] => [[]]
    | part :: parts => if c = sep then [] :: part :: parts else (c :: part) :: parts

/-- `strings.Contains`. -/
def contains (sub : GoString) : GoString → Bool
  | [] => sub.isEmpty
  | c :: cs => sub.isPrefixOf (c :: cs) || contains sub cs

def isDigit (c : Char) : Bool := '0' ≤ c && c ≤ '9'

/-- The value of a non-empty string of decimal digits. -/
def parseDigits (s : GoString) : Option Nat :=
  if s = [] then none
  else s.foldl (fun acc c =>
    acc.bind fun n => if isDigit c then some (10 * n + (c.toNat - '0'.toNat)) else none) (some 0)

/-- `strconv.Atoi` on a 64-bit platform: an optional sign and digits, in the range of `int`. -/
def atoi : GoString → Option Int
  | '-' :: s => (parseDigits s).bind fun n => if n ≤ 2 ^ 63 then some (-(n : Int)) else none
  | '+' :: s => (parseDigits s).bind fun n => if n < 2 ^ 63 then some (n : Int) else none
  | s => (parseDigits s).bind fun n => if n < 2 ^ 63 then some (n : Int) else none

/-- The conversion `uint32(v)`. -/
def toUint32 (v : Int) : Nat := (v % 2 ^ 32).toNat

/-- `strconv.FormatUint(n, 10)`. -/
def formatUint (n : Nat) : GoString := Nat.toDigits 10 n

def isAlnum (c : Char) : Bool := isDigit c || ('a' ≤ c && c ≤ 'z') || ('A' ≤ c && c ≤ 'Z')

/-- `strings.HasPrefix`. -/
def hasPrefix (s pre : GoString) : Bool := pre.isPrefixOf s

/-! ## Runes -/

/-- A continuation byte of UTF-8, from `lo` on and up to `hi`. -/
def contByte (lo hi : Nat) (c : Char) : Bool := lo ≤ c.toNat && c.toNat ≤ hi

/-- The number of bytes after the first that belong to the first rune of a text. A byte that does
not begin a valid encoding is a rune of its own. -/
def runeTail (c : Char) (s : GoString) : Nat :=
  let b := c.toNat
  let more (n lo hi : Nat) : Nat :=
    match s with
    | c₁ :: s => if contByte lo hi c₁ ∧ (s.take (n - 1)).length = n - 1 ∧
        (s.take (n - 1)).all (contByte 0x80 0xBF) then n else 0
    | [] => 0
  if 0xC2 ≤ b ∧ b ≤ 0xDF then more 1 0x80 0xBF
  else if b = 0xE0 then more 2 0xA0 0xBF
  else if b = 0xED then more 2 0x80 0x9F
  else if 0xE1 ≤ b ∧ b ≤ 0xEF then more 2 0x80 0xBF
  else if b = 0xF0 then more 3 0x90 0xBF
  else if 0xF1 ≤ b ∧ b ≤ 0xF3 then more 3 0x80 0xBF
  else if b = 0xF4 then more 3 0x80 0x8F
  else 0

/-- The runes of a text, `skip` bytes into it. -/
def runesFrom : (skip : Nat) → GoString → Nat
  | _, [] => 0
  | 0, c :: s => runesFrom (runeTail c s) s + 1
  | skip + 1, _ :: s => runesFrom skip s

/-- `utf8.RuneCountInString`. -/
def runeCount (s : GoString) : Nat := runesFrom 0 s

/-! ## Letter case

Go folds case by rune. The only runes outside ASCII that fold to an ASCII letter are the long s
and the Kelvin sign, here as their UTF-8 bytes, so the comparison with an ASCII text is exact. -/

def isUpper (c : Char) : Bool := 'A' ≤ c && c ≤ 'Z'
def isLower (c : Char) : Bool := 'a' ≤ c && c ≤ 'z'

/-- `strings.ToUpper` of an ASCII text. -/
def toUpper (s : GoString) : GoString :=
  s.map fun c => if isLower c then Char.ofNat (c.toNat - 32) else c

def foldCase : GoString → GoString
  | '\xC5' :: '\xBF' :: s => 's' :: foldCase s
  | '\xE2' :: '\x84' :: '\xAA' :: s => 'k' :: foldCase s
  | c :: s => (if isUpper c then Char.ofNat (c.toNat + 32) else c) :: foldCase s
  | [] => []

/-- `strings.EqualFold(s, t)` for an ASCII text `t`. -/
def equalFold (s t : GoString) : Bool := foldCase s = foldCase t

/-! ## Hexadecimal -/

def isHexDigit (c : Char) : Bool := isDigit c || ('a' ≤ c && c ≤ 'f') || ('A' ≤ c && c ≤ 'F')

/-- `hex.DecodeString` succeeds. -/
def isHex (s : GoString) : Bool := s.length % 2 = 0 && s.all isHexDigit

/-- `hex.EncodeToString`. -/
def hexEncode (s : GoString) : GoString :=
  s.flatMap fun c => [Nat.digitChar (c.toNat / 16), Nat.digitChar (c.toNat % 16)]

/-! ## Base 64 -/

/-- The value of a character of the standard alphabet. -/
def base64Value (c : Char) : Option Nat :=
  if 'A' ≤ c && c ≤ 'Z' then some (c.toNat - 'A'.toNat)
  else if 'a' ≤ c && c ≤ 'z' then some (c.toNat - 'a'.toNat + 26)
  else if isDigit c then some (c.toNat - '0'.toNat + 52)
  else if c = '+' then some 62
  else if c = '/' then some 63
  else none

/-- The three bytes of four sextets. -/
def base64Bytes (x y z w : Nat) : GoString :=
  let n := ((x * 64 + y) * 64 + z) * 64 + w
  [Char.ofNat (n / 65536), Char.ofNat (n / 256 % 256), Char.ofNat (n % 256)]

/-- Decode quantum by quantum. Padding may only close the last quantum. -/
def base64Quanta : GoString → Option GoString
  | [] => some []
  | a :: b :: c :: d :: rest => do
    let x ← base64Value a
    let y ← base64Value b
    if c = '=' then
      if d = '=' ∧ rest = [] then some ((base64Bytes x y 0 0).take 1) else none
    else
      let z ← base64Value c
      if d = '=' then
        if rest = [] then some ((base64Bytes x y z 0).take 2) else none
      else
        let w ← base64Value d
        let more ← base64Quanta rest
        some (base64Bytes x y z w ++ more)
  | _ => none

/-- `base64.StdEncoding.DecodeString`, which skips line breaks. -/
def base64Decode (s : GoString) : Option GoString :=
  base64Quanta (s.filter fun c => c ≠ '\r' ∧ c ≠ '\n')

/-- The character of a sextet. -/
def base64Char (n : Nat) : Char :=
  if n < 26 then Char.ofNat (n + 'A'.toNat)
  else if n < 52 then Char.ofNat (n - 26 + 'a'.toNat)
  else if n < 62 then Char.ofNat (n - 52 + '0'.toNat)
  else if n = 62 then '+'
  else '/'

/-- The four characters of three bytes. -/
def base64Quantum (a b c : Nat) : GoString :=
  let n := (a * 256 + b) * 256 + c
  [base64Char (n / 262144), base64Char (n / 4096 % 64), base64Char (n / 64 % 64),
    base64Char (n % 64)]

/-- `base64.StdEncoding.EncodeToString`. -/
def base64Encode : GoString → GoString
  | [] => []
  | [a] => (base64Quantum a.toNat 0 0).take 2 ++ ['=', '=']
  | [a, b] => (base64Quantum a.toNat b.toNat 0).take 3 ++ ['=']
  | a :: b :: c :: rest => base64Quantum a.toNat b.toNat c.toNat ++ base64Encode rest

/-- The characters are bytes. -/
def IsBytes (s : GoString) : Prop := ∀ c ∈ s, c.toNat < 256

theorem base64Value_base64Char : ∀ n < 64, base64Value (base64Char n) = some n := by decide

theorem base64Char_ne_pad : ∀ n < 64, base64Char n ≠ '=' := by decide

theorem base64Char_not_break : ∀ n < 64, base64Char n ≠ '\r' ∧ base64Char n ≠ '\n' := by decide

/-- The sextets of three bytes give the bytes back. -/
theorem base64Bytes_sextets {a b c : Nat} (hb : b < 256) (hc : c < 256) :
    let n := (a * 256 + b) * 256 + c
    base64Bytes (n / 262144) (n / 4096 % 64) (n / 64 % 64) (n % 64) =
      [Char.ofNat a, Char.ofNat b, Char.ofNat c] := by
  intro n
  have hn : ((n / 262144 * 64 + n / 4096 % 64) * 64 + n / 64 % 64) * 64 + n % 64 = n := by omega
  have h₁ : n / 65536 = a := by omega
  have h₂ : n / 256 % 256 = b := by omega
  have h₃ : n % 256 = c := by omega
  simp only [base64Bytes, hn, h₁, h₂, h₃]

theorem base64Quanta_quantum (hx : x < 64) (hy : y < 64) (hz : z < 64) (hw : w < 64) :
    base64Quanta (base64Char x :: base64Char y :: base64Char z :: base64Char w :: rest) =
      (base64Quanta rest).map (base64Bytes x y z w ++ ·) := by
  simp only [base64Quanta, base64Value_base64Char _ hx, base64Value_base64Char _ hy,
    base64Value_base64Char _ hz, base64Value_base64Char _ hw, if_neg (base64Char_ne_pad _ hz),
    if_neg (base64Char_ne_pad _ hw)]
  cases base64Quanta rest <;> rfl

theorem base64Quanta_base64Encode (h : IsBytes s) : base64Quanta (base64Encode s) = some s := by
  induction s using base64Encode.induct with
  | case1 => rfl
  | case2 a =>
    have ha : a.toNat < 256 := h a (by simp)
    have hbytes := base64Bytes_sextets (a := a.toNat) (show 0 < 256 by decide) (show 0 < 256 by decide)
    generalize hn : (a.toNat * 256 + 0) * 256 + 0 = n at hbytes
    have hz : n / 64 % 64 = 0 := by omega
    have hw : n % 64 = 0 := by omega
    simp only [hz, hw] at hbytes
    simp only [base64Encode, base64Quantum, hn, List.take_succ_cons, List.take_zero,
      List.cons_append, List.nil_append, base64Quanta,
      base64Value_base64Char (n / 262144) (by omega),
      base64Value_base64Char (n / 4096 % 64) (by omega)]
    simp [hbytes]
  | case3 a b =>
    have ha : a.toNat < 256 := h a (by simp)
    have hb : b.toNat < 256 := h b (by simp)
    have hbytes := base64Bytes_sextets (a := a.toNat) hb (show 0 < 256 by decide)
    generalize hn : (a.toNat * 256 + b.toNat) * 256 + 0 = n at hbytes
    have hw : n % 64 = 0 := by omega
    simp only [hw] at hbytes
    simp only [base64Encode, base64Quantum, hn, List.take_succ_cons, List.take_zero,
      List.cons_append, List.nil_append, base64Quanta,
      base64Value_base64Char (n / 262144) (by omega),
      base64Value_base64Char (n / 4096 % 64) (by omega),
      base64Value_base64Char (n / 64 % 64) (by omega),
      if_neg (base64Char_ne_pad (n / 64 % 64) (by omega))]
    simp [hbytes]
  | case4 a b c rest ih =>
    have ha : a.toNat < 256 := h a (by simp)
    have hb : b.toNat < 256 := h b (by simp)
    have hc : c.toNat < 256 := h c (by simp)
    have hrest := ih fun d hd => h d (by simp [hd])
    have hbytes := base64Bytes_sextets (a := a.toNat) hb hc
    simp only [base64Encode, base64Quantum, List.cons_append, List.nil_append]
    generalize hn : (a.toNat * 256 + b.toNat) * 256 + c.toNat = n at hbytes ⊢
    rw [base64Quanta_quantum (by omega) (by omega) (by omega) (by omega), hrest, hbytes]
    simp

theorem base64Quantum_not_break (ha : a < 256) (hb : b < 256) (hc : c < 256) :
    ∀ d ∈ base64Quantum a b c, d ≠ '\r' ∧ d ≠ '\n' := by
  intro d hd
  simp only [base64Quantum, List.mem_cons, List.not_mem_nil, or_false] at hd
  rcases hd with rfl | rfl | rfl | rfl <;> exact base64Char_not_break _ (by omega)

/-- The encoding has no line breaks, so decoding skips nothing of it. -/
theorem base64Encode_not_break (h : IsBytes s) : ∀ d ∈ base64Encode s, d ≠ '\r' ∧ d ≠ '\n' := by
  have hpad : '=' ≠ '\r' ∧ '=' ≠ '\n' := by decide
  induction s using base64Encode.induct with
  | case1 => simp [base64Encode]
  | case2 a =>
    have hq := base64Quantum_not_break (h a (by simp)) (show 0 < 256 by decide)
      (show 0 < 256 by decide)
    intro d hd
    rcases List.mem_append.mp hd with hd | hd
    · exact hq d (List.mem_of_mem_take hd)
    · have : d = '=' := by simpa using hd
      exact this ▸ hpad
  | case3 a b =>
    have hq := base64Quantum_not_break (h a (by simp)) (h b (by simp)) (show 0 < 256 by decide)
    intro d hd
    rcases List.mem_append.mp hd with hd | hd
    · exact hq d (List.mem_of_mem_take hd)
    · have : d = '=' := by simpa using hd
      exact this ▸ hpad
  | case4 a b c rest ih =>
    have hq := base64Quantum_not_break (h a (by simp)) (h b (by simp)) (h c (by simp))
    intro d hd
    rcases List.mem_append.mp hd with hd | hd
    · exact hq d hd
    · exact ih (fun e he => h e (by simp [he])) d hd

theorem base64Decode_base64Encode (h : IsBytes s) : base64Decode (base64Encode s) = some s := by
  rw [base64Decode, List.filter_eq_self.mpr fun c hc => by
    simpa using base64Encode_not_break h c hc]
  exact base64Quanta_base64Encode h

/-! ## Lengths and characters of the encodings -/

theorem hexEncode_length (s : GoString) : (hexEncode s).length = 2 * s.length := by
  induction s with
  | nil => rfl
  | cons c s ih =>
    rw [hexEncode, List.flatMap_cons, List.length_append, ← hexEncode, ih, List.length_cons]
    simp only [List.length_cons, List.length_nil]
    omega

theorem isHexDigit_digitChar : ∀ n < 16, isHexDigit n.digitChar := by decide

theorem isHexDigit_hexEncode (h : IsBytes s) : (hexEncode s).all isHexDigit := by
  refine List.all_eq_true.mpr fun d hd => ?_
  obtain ⟨c, hc, hd⟩ := List.mem_flatMap.mp hd
  have hlt := h c hc
  simp only [List.mem_cons, List.not_mem_nil, or_false] at hd
  rcases hd with rfl | rfl
  · exact isHexDigit_digitChar _ (by omega)
  · exact isHexDigit_digitChar _ (by omega)

theorem isHex_hexEncode (h : IsBytes s) : isHex (hexEncode s) := by
  rw [isHex, hexEncode_length, isHexDigit_hexEncode h, Nat.mul_mod_right]
  rfl

theorem length_toUpper (s : GoString) : (toUpper s).length = s.length := List.length_map ..

theorem toNat_lt_of_isLower (h : isLower c) : c.toNat < 128 := by
  simp only [isLower, Bool.and_eq_true, decide_eq_true_eq] at h
  exact Nat.lt_of_le_of_lt (show c.toNat ≤ 'z'.toNat from h.2) (by decide)

theorem toNat_lt_of_isHexDigit (h : isHexDigit c) : c.toNat < 128 := by
  simp only [isHexDigit, isDigit, Bool.or_eq_true, Bool.and_eq_true, decide_eq_true_eq] at h
  rcases h with (h | h) | h
  · exact Nat.lt_of_le_of_lt (show c.toNat ≤ '9'.toNat from h.2) (by decide)
  · exact Nat.lt_of_le_of_lt (show c.toNat ≤ 'f'.toNat from h.2) (by decide)
  · exact Nat.lt_of_le_of_lt (show c.toNat ≤ 'F'.toNat from h.2) (by decide)

/-- The upper-case form of a character. -/
theorem upper_cases : ∀ n < 128, let c := Char.ofNat n
    let u := if isLower c then Char.ofNat (c.toNat - 32) else c
    isLower u = false ∧ isHexDigit u = isHexDigit c ∧
      (isHexDigit c → isDigit u || ('A' ≤ u && u ≤ 'F')) := by decide

theorem toUpper_toUpper (s : GoString) : toUpper (toUpper s) = toUpper s := by
  simp only [toUpper, List.map_map]
  refine List.map_congr_left fun c _ => ?_
  show (if isLower (if isLower c then _ else c) then _ else _) = _
  cases hc : isLower c with
  | false => simp [hc]
  | true =>
    have := (upper_cases c.toNat (toNat_lt_of_isLower hc)).1
    rw [Char.ofNat_toNat] at this
    simp only [hc, if_true] at this ⊢
    simp [this]

/-- The case of the letters does not matter to whether a text is hexadecimal. -/
theorem isHex_toUpper (s : GoString) : isHex (toUpper s) = isHex s := by
  rw [isHex, isHex, length_toUpper, toUpper, List.all_map]
  congr 1
  refine congrArg s.all (funext fun c => ?_)
  show isHexDigit (if isLower c then _ else c) = _
  cases hc : isLower c with
  | false => rfl
  | true =>
    have := (upper_cases c.toNat (toNat_lt_of_isLower hc)).2.1
    simpa only [Char.ofNat_toNat, hc, if_true] using this

/-- The upper-case form of a hexadecimal text has the digits and the letters up to `F`. -/
theorem toUpper_of_isHex (h : isHex s) :
    (toUpper s).all fun c => isDigit c || ('A' ≤ c && c ≤ 'F') := by
  simp only [isHex, Bool.and_eq_true] at h
  refine List.all_eq_true.mpr fun u hu => ?_
  obtain ⟨c, hc, rfl⟩ := List.mem_map.mp hu
  have hdigit := List.all_eq_true.mp h.2 c hc
  have := (upper_cases c.toNat (toNat_lt_of_isHexDigit hdigit)).2.2
  rw [Char.ofNat_toNat] at this
  exact this hdigit

theorem base64Encode_length (s : GoString) :
    (base64Encode s).length = (s.length + 2) / 3 * 4 := by
  induction s using base64Encode.induct with
  | case1 => rfl
  | case2 a => simp [base64Encode, base64Quantum]
  | case3 a b => simp [base64Encode, base64Quantum]
  | case4 a b c rest ih =>
    rw [base64Encode, List.length_append, ih]
    simp only [base64Quantum, List.length_cons, List.length_nil]
    omega

/-- A character of the encoding. -/
def isBase64 (c : Char) : Bool := isAlnum c || c = '+' || c = '/' || c = '='

theorem isBase64_base64Char (n : Nat) : isBase64 (base64Char n) := by
  have hsextet : ∀ n < 64, isBase64 (base64Char n) := by decide
  rcases Nat.lt_or_ge n 64 with hlt | hge
  · exact hsextet n hlt
  · rw [base64Char, if_neg (by omega), if_neg (by omega), if_neg (by omega), if_neg (by omega)]
    decide

theorem isBase64_base64Quantum (a b c : Nat) : (base64Quantum a b c).all isBase64 := by
  simp only [base64Quantum, List.all_cons, isBase64_base64Char, List.all_nil, Bool.and_self]

theorem isBase64_base64Encode (s : GoString) : (base64Encode s).all isBase64 := by
  have htake (n : Nat) {q : GoString} (h : q.all isBase64) : (q.take n).all isBase64 :=
    List.all_eq_true.mpr fun c hc => List.all_eq_true.mp h c (List.mem_of_mem_take hc)
  have hpad : isBase64 '=' := by decide
  induction s using base64Encode.induct with
  | case1 => rfl
  | case2 a =>
    rw [base64Encode, List.all_append, htake 2 (isBase64_base64Quantum _ _ _)]
    simp [hpad]
  | case3 a b =>
    rw [base64Encode, List.all_append, htake 3 (isBase64_base64Quantum _ _ _)]
    simp [hpad]
  | case4 a b c rest ih => rw [base64Encode, List.all_append, isBase64_base64Quantum, ih]; rfl

theorem toNat_le_of_range {lo hi : Char} (h : (lo ≤ c && c ≤ hi) = true) :
    c.toNat ≤ hi.toNat := of_decide_eq_true (Bool.and_eq_true_iff.mp h).2

theorem base64Value_lt (h : base64Value c = some n) : n < 64 := by
  unfold base64Value at h
  split at h
  next hc =>
    have hle : c.toNat ≤ 90 := toNat_le_of_range hc
    cases h
    exact Nat.lt_of_le_of_lt (Nat.sub_le_sub_right hle _) (by decide)
  next =>
  split at h
  next hc =>
    have hle : c.toNat ≤ 122 := toNat_le_of_range hc
    cases h
    exact Nat.lt_of_le_of_lt (Nat.add_le_add_right (Nat.sub_le_sub_right hle _) _) (by decide)
  next =>
  split at h
  next hc =>
    have hle : c.toNat ≤ 57 := toNat_le_of_range hc
    cases h
    exact Nat.lt_of_le_of_lt (Nat.add_le_add_right (Nat.sub_le_sub_right hle _) _) (by decide)
  next =>
  split at h
  next => cases h; decide
  next =>
  split at h
  next => cases h; decide
  next => cases h

theorem toNat_ofNat_lt (h : n < 256) : (Char.ofNat n).toNat < 256 := by
  rw [Char.ofNat, dif_pos (show n.isValidChar from Or.inl (by omega))]
  exact h

theorem isBytes_base64Bytes (hx : x < 64) (hy : y < 64) (hz : z < 64) (hw : w < 64) :
    IsBytes (base64Bytes x y z w) := by
  intro c hc
  simp only [base64Bytes, List.mem_cons, List.not_mem_nil, or_false] at hc
  rcases hc with rfl | rfl | rfl
  · exact toNat_ofNat_lt (by omega)
  · exact toNat_ofNat_lt (by omega)
  · exact toNat_ofNat_lt (by omega)

theorem isBytes_base64Quanta (h : base64Quanta s = some bytes) : IsBytes bytes := by
  induction s using base64Quanta.induct generalizing bytes with
  | case1 =>
    cases h
    exact fun _ h => by cases h
  | case2 a b c d rest ih =>
    simp only [base64Quanta, Option.bind_eq_bind, Option.bind_eq_some_iff] at h
    obtain ⟨x, hx, y, hy, h⟩ := h
    have hx := base64Value_lt hx
    have hy := base64Value_lt hy
    split at h
    next =>
      split at h
      next =>
        cases h
        exact fun c hc => isBytes_base64Bytes hx hy (by decide) (by decide) c (List.mem_of_mem_take hc)
      next => cases h
    next =>
      simp only [Option.bind_eq_some_iff] at h
      obtain ⟨z, hz, h⟩ := h
      have hz := base64Value_lt hz
      split at h
      next =>
        split at h
        next =>
          cases h
          exact fun c hc => isBytes_base64Bytes hx hy hz (by decide) c (List.mem_of_mem_take hc)
        next => cases h
      next =>
        simp only [Option.bind_eq_some_iff] at h
        obtain ⟨w, hw, more, hmore, h⟩ := h
        cases h
        intro c hc
        rcases List.mem_append.mp hc with hc | hc
        · exact isBytes_base64Bytes hx hy hz (base64Value_lt hw) c hc
        · exact ih hmore c hc
  | case3 s h1 h2 =>
    unfold base64Quanta at h
    split at h
    next => exact absurd rfl h1
    next => exact absurd rfl (h2 _ _ _ _ _)
    next => cases h

/-- What is decoded are bytes. -/
theorem isBytes_base64Decode (h : base64Decode s = some bytes) : IsBytes bytes :=
  isBytes_base64Quanta h

/-! ## Parts and separators -/

theorem split_ne_nil (sep : Char) (s : GoString) : split sep s ≠ [] := by
  cases s with
  | nil => simp [split]
  | cons c s =>
    simp only [split]
    split
    · simp
    · split <;> simp

theorem split_cons (hc : c ≠ sep) (h : split sep s = part :: parts) :
    split sep (c :: s) = (c :: part) :: parts := by
  simp only [split, h, if_neg hc]

theorem split_sep (sep : Char) (s : GoString) : split sep (sep :: s) = [] :: split sep s := by
  cases h : split sep s with
  | nil => exact absurd h (split_ne_nil sep s)
  | cons part parts => simp [split, h]

/-- The parts before a separator and those after it. -/
theorem split_join (sep : Char) (a s : GoString) :
    split sep (a ++ sep :: s) = split sep a ++ split sep s := by
  induction a with
  | nil => rw [List.nil_append, split_sep]; rfl
  | cons c a ih =>
    by_cases hc : c = sep
    · rw [hc, List.cons_append, split_sep, split_sep, ih, List.cons_append]
    · obtain ⟨part, parts, ha⟩ := List.exists_cons_of_ne_nil (split_ne_nil sep a)
      rw [ha, List.cons_append] at ih
      rw [List.cons_append, split_cons hc ih, split_cons hc ha, List.cons_append]

/-- What has no separator goes to the first part of the text behind it. -/
theorem split_extend (ha : sep ∉ a) (h : split sep s = part :: parts) :
    split sep (a ++ s) = (a ++ part) :: parts := by
  induction a with
  | nil => exact h
  | cons c a ih =>
    exact split_cons (fun e => ha (e ▸ List.mem_cons_self))
      (ih fun hm => ha (List.mem_cons_of_mem c hm))

theorem split_of_not_mem (ha : sep ∉ a) : split sep a = [a] := by
  have hnil : split sep [] = [[]] := rfl
  simpa using split_extend ha hnil

/-- The first part ends at the first separator. -/
theorem split_first (ha : sep ∉ a) (s : GoString) :
    split sep (a ++ sep :: s) = a :: split sep s := by
  rw [split_join, split_of_not_mem ha]
  rfl

/-- The first separators of two equal texts are in the same place. -/
theorem first_sep_inj {sep : Char} {a a' c c' : GoString} (h : a ++ sep :: c = a' ++ sep :: c')
    (ha : sep ∉ a) (ha' : sep ∉ a') : a = a' ∧ c = c' := by
  have hparts := congrArg (split sep) h
  rw [split_first ha, split_first ha'] at hparts
  obtain rfl := (List.cons.inj hparts).1
  exact ⟨rfl, (List.cons.inj (List.append_cancel_left h)).2⟩

/-- The last separators of two equal texts are in the same place. -/
theorem last_sep_inj {sep : Char} {a a' c c' : GoString} (h : a ++ sep :: c = a' ++ sep :: c')
    (hc : sep ∉ c) (hc' : sep ∉ c') : a = a' ∧ c = c' := by
  have hreverse : c.reverse ++ sep :: a.reverse = c'.reverse ++ sep :: a'.reverse := by
    simpa using congrArg List.reverse h
  obtain ⟨hlast, hfront⟩ := first_sep_inj hreverse (by simpa using hc) (by simpa using hc')
  exact ⟨List.reverse_inj.mp hfront, List.reverse_inj.mp hlast⟩

end GoString
