import Pinger.Lib.Numeral

/-! # Network addresses

The texts of IP addresses, and of a host with a port, as the Go package `net` reads and writes them.
An address is its sixteen bytes; one of IPv4 is mapped into them. -/

namespace Net

open GoString

abbrev IP := List Nat

/-- `net.IPv4`. -/
def ipv4 (a b c d : Nat) : IP := List.replicate 10 0 ++ [0xFF, 0xFF, a, b, c, d]

/-! ## Parsing -/

/-- A decimal number at the front of a text, and the rest of the text. -/
def octet (s : GoString) : Option (Nat × GoString) :=
  (parseDigits (s.takeWhile isDigit)).bind fun n =>
    if n ≤ 0xFF then some (n, s.dropWhile isDigit) else none

/-- What follows a dot. -/
def dot : GoString → Option GoString
  | '.' :: s => some s
  | _ => none

def parseIPv4 (s : GoString) : Option IP := do
  let (a, s) ← octet s
  let (b, s) ← octet (← dot s)
  let (c, s) ← octet (← dot s)
  let (d, s) ← octet (← dot s)
  if s = [] then some (ipv4 a b c d) else none

def hexDigitValue (c : Char) : Nat :=
  if isDigit c then c.toNat - 48 else if isLower c then c.toNat - 87 else c.toNat - 55

/-- A hexadecimal number at the front of a text, and the rest of the text. -/
def hexGroup (s : GoString) : Option (Nat × GoString) :=
  let digits := s.takeWhile isHexDigit
  let n := digits.foldl (fun n c => 16 * n + hexDigitValue c) 0
  if digits = [] ∨ 0xFFFF < n then none else some (n, s.dropWhile isHexDigit)

/-- The loop of `parseIPv6`, with room for `room` groups: the bytes read, the place of the ellipsis
among them, and the text that is left. An address of IPv4 may be at the end. -/
def parseGroups : (room : Nat) → GoString → (bytes : List Nat) → (ellipsis : Option Nat) →
    Option (List Nat × Option Nat × GoString)
  | 0, s, bytes, ellipsis => some (bytes, ellipsis, s)
  | room + 1, s, bytes, ellipsis => do
    let (n, rest) ← hexGroup s
    if rest.head? = some '.' then
      if ellipsis = none ∧ bytes.length ≠ 12 ∨ 16 < bytes.length + 4 then none
      else
        let ip4 ← parseIPv4 s
        some (bytes ++ ip4.drop 12, ellipsis, [])
    else
      let bytes := bytes ++ [n / 256, n % 256]
      match rest with
      | [] => some (bytes, ellipsis, [])
      | [_] => none
      | c :: d :: rest =>
        if c ≠ ':' then none
        else if d ≠ ':' then parseGroups room (d :: rest) bytes ellipsis
        else if ellipsis.isSome then none
        else if rest = [] then some (bytes, some bytes.length, [])
        else parseGroups room rest bytes (some bytes.length)

/-- Put zeros in the place of the ellipsis. -/
def expand (bytes : List Nat) : Option Nat → Option IP
  | none => if bytes.length = 16 then some bytes else none
  | some place => some (bytes.take place ++ List.replicate (16 - bytes.length) 0 ++ bytes.drop place)

/-- What all groups make. -/
def assemble : Option (List Nat × Option Nat × GoString) → Option IP
  | some (bytes, ellipsis, []) => expand bytes ellipsis
  | _ => none

def parseIPv6 : GoString → Option IP
  | [':', ':'] => some (List.replicate 16 0)
  | ':' :: ':' :: s => assemble (parseGroups 8 s [] (some 0))
  | s => assemble (parseGroups 8 s [] none)

/-- `net.ParseIP`: the first separator tells the two forms apart. -/
def parseIP (s : GoString) : Option IP :=
  match s.find? fun c => c = '.' || c = ':' with
  | none => none
  | some c => if c = '.' then parseIPv4 s else parseIPv6 s

/-- `net.JoinHostPort`. -/
def joinHostPort (host port : GoString) : GoString :=
  if ':' ∈ host ∨ '%' ∈ host then '[' :: host ++ ']' :: ':' :: port else host ++ ':' :: port

/-! ## Networks -/

structure IPNet where
  ip : IP
  mask : List Nat

/-- `ip.To4()`, or the address itself. -/
def shorten (ip : IP) : IP :=
  if ip.length = 16 ∧ ip.take 12 = List.replicate 10 0 ++ [0xFF, 0xFF] then ip.drop 12 else ip

/-- `ipnet.Contains(ip)`. -/
def IPNet.contains (net : IPNet) (ip : IP) : Bool :=
  let network := shorten net.ip
  let mask := if net.mask.length = 16 ∧ network.length = 4 then net.mask.drop 12 else net.mask
  let ip := shorten ip
  mask.length = network.length && ip.length = network.length &&
    (List.zipWith Nat.land network mask = List.zipWith Nat.land ip mask)

/-! ## The characters of an address -/

/-- The characters of an address of IPv4. -/
def isDotted (c : Char) : Bool := isDigit c || c = '.'

def isAddressChar (c : Char) : Bool := isHexDigit c || c = '.' || c = ':'

/-- A number has been read from the front. -/
theorem octet_some (h : octet s = some (n, rest)) :
    ∃ ds, s = ds ++ rest ∧ ds ≠ [] ∧ ds.all isDigit := by
  obtain ⟨m, hm, h⟩ := Option.bind_eq_some_iff.mp h
  split at h
  next =>
    cases h
    exact ⟨_, List.takeWhile_append_dropWhile.symm, (parseDigits_eq_some.mp hm).1,
      List.all_takeWhile⟩
  next => cases h

theorem dot_some (h : dot s = some rest) : s = '.' :: rest := by
  unfold dot at h
  split at h
  next => rw [Option.some.inj h]
  next => cases h

/-- An address of IPv4 begins with a digit, and has only digits and dots. -/
theorem parseIPv4_some (h : parseIPv4 s = some ip) :
    (∃ c t, s = c :: t ∧ isDigit c) ∧ s.all isDotted := by
  simp only [parseIPv4, Option.bind_eq_bind, Option.bind_eq_some_iff, Prod.exists] at h
  obtain ⟨a, s₁, h₁, t₁, d₁, b, s₂, h₂, t₂, d₂, c, s₃, h₃, t₃, d₃, d, s₄, h₄, h⟩ := h
  split at h
  case isFalse => cases h
  case isTrue hs₄ =>
    obtain ⟨ds₁, rfl, hne, hall₁⟩ := octet_some h₁
    obtain ⟨ds₂, rfl, -, hall₂⟩ := octet_some h₂
    obtain ⟨ds₃, rfl, -, hall₃⟩ := octet_some h₃
    obtain ⟨ds₄, rfl, -, hall₄⟩ := octet_some h₄
    obtain rfl := dot_some d₁
    obtain rfl := dot_some d₂
    obtain rfl := dot_some d₃
    have hdotted : ∀ ds : GoString, ds.all isDigit → ds.all isDotted := fun ds hds =>
      List.all_eq_true.mpr fun c hc => by simp [isDotted, List.all_eq_true.mp hds c hc]
    refine ⟨?_, ?_⟩
    · cases ds₁ with
      | nil => exact absurd rfl hne
      | cons c ds₁ =>
        exact ⟨c, _, rfl, List.all_eq_true.mp hall₁ c List.mem_cons_self⟩
    · have hdot : isDotted '.' := by decide
      simp [hs₄, List.all_append, List.all_cons, hdot, hdotted _ hall₁, hdotted _ hall₂,
        hdotted _ hall₃, hdotted _ hall₄]

theorem hexGroup_some (h : hexGroup s = some (n, rest)) :
    s = s.takeWhile isHexDigit ++ rest ∧ rest = s.dropWhile isHexDigit := by
  simp only [hexGroup] at h
  split at h
  next => cases h
  next =>
    cases h
    exact ⟨List.takeWhile_append_dropWhile.symm, rfl⟩

theorem isAddressChar_of_isDotted (h : isDotted c) : isAddressChar c := by
  simp only [isDotted, Bool.or_eq_true, decide_eq_true_eq] at h
  rcases h with h | rfl
  · simp [isAddressChar, isHexDigit, h]
  · decide

/-- All groups have been read, so the text has only characters of an address. -/
theorem parseGroups_chars (h : parseGroups room s bytes e = some (bytes', e', [])) :
    s.all isAddressChar := by
  induction room generalizing s bytes e with
  | zero =>
    cases h
    rfl
  | succ room ih =>
    simp only [parseGroups, Option.bind_eq_bind, Option.bind_eq_some_iff, Prod.exists] at h
    obtain ⟨n, rest, hgroup, h⟩ := h
    split at h
    next =>
      -- the end is an address of IPv4
      split at h
      · cases h
      · obtain ⟨ip4, hip4, -⟩ := Option.bind_eq_some_iff.mp h
        exact List.all_eq_true.mpr fun c hc =>
          isAddressChar_of_isDotted (List.all_eq_true.mp (parseIPv4_some hip4).2 c hc)
    next hdot =>
      have hfront : (s.takeWhile isHexDigit).all isAddressChar :=
        List.all_eq_true.mpr fun c hc => by
          simp [isAddressChar, List.all_eq_true.mp (List.all_takeWhile (l := s)) c hc]
      rw [(hexGroup_some hgroup).1, List.all_append, hfront, Bool.true_and]
      have hcolon : isAddressChar ':' := by decide
      split at h
      · rfl
      · cases h
      next c d rest =>
        split at h
        · cases h
        next hc =>
        obtain rfl : c = ':' := not_not.mp hc
        rw [List.all_cons, hcolon, Bool.true_and]
        split at h
        · exact ih h
        next hd =>
        obtain rfl : d = ':' := not_not.mp hd
        rw [List.all_cons, hcolon, Bool.true_and]
        split at h
        · cases h
        · split at h
          next hrest => rw [hrest]; rfl
          · exact ih h

theorem assemble_some (h : assemble o = some ip) : ∃ bytes e, o = some (bytes, e, []) := by
  unfold assemble at h
  split at h
  next bytes e => exact ⟨bytes, e, rfl⟩
  next => cases h

theorem parseIPv6_chars (h : parseIPv6 s = some ip) : s.all isAddressChar := by
  unfold parseIPv6 at h
  split at h
  · decide
  · obtain ⟨bytes, e, ho⟩ := assemble_some h
    have hcolon : isAddressChar ':' := by decide
    rw [List.all_cons, List.all_cons, hcolon, Bool.true_and, Bool.true_and]
    exact parseGroups_chars ho
  · obtain ⟨bytes, e, ho⟩ := assemble_some h
    exact parseGroups_chars ho

/-! ## Telling the two forms apart -/

theorem parseIP_chars (h : parseIP s = some ip) : s.all isAddressChar := by
  unfold parseIP at h
  split at h
  · cases h
  · split at h
    · exact List.all_eq_true.mpr fun c hc =>
        isAddressChar_of_isDotted (List.all_eq_true.mp (parseIPv4_some h).2 c hc)
    · exact parseIPv6_chars h

/-- A text without separators is no address. -/
theorem parseIP_none (hdot : '.' ∉ s) (hcolon : ':' ∉ s) : parseIP s = none := by
  have hnone : s.find? (fun c => c = '.' || c = ':') = none := by
    rw [List.find?_eq_none]
    intro c hc
    simp only [Bool.or_eq_true, decide_eq_true_eq]
    rintro (rfl | rfl)
    · exact hdot hc
    · exact hcolon hc
  rw [parseIP, hnone]

theorem colon_not_dotted {s : GoString} (h : s.all isDotted) : ':' ∉ s := fun hmem =>
  absurd (List.all_eq_true.mp h ':' hmem) (by decide)

/-- What an address of IPv6 has before its first colon is no address. -/
theorem parseIP_before_colon (h : parseIP s = some ip) (hcolon : ':' ∈ s) :
    ∃ front rest, s = front ++ ':' :: rest ∧ ':' ∉ front ∧ parseIP front = none := by
  unfold parseIP at h
  split at h
  next => cases h
  next c hfind =>
    obtain ⟨hc, front, rest, rfl, hfront⟩ := List.find?_eq_some_iff_append.mp hfind
    have hne : '.' ∉ front ∧ ':' ∉ front := by
      refine ⟨fun hmem => ?_, fun hmem => ?_⟩
      · exact absurd (hfront _ hmem) (by decide)
      · exact absurd (hfront _ hmem) (by decide)
    simp only [Bool.or_eq_true, decide_eq_true_eq] at hc
    rcases hc with rfl | rfl
    · rw [if_pos rfl] at h
      exact absurd hcolon (colon_not_dotted (parseIPv4_some h).2)
    · exact ⟨front, rest, rfl, hne.2, parseIP_none hne.1 hne.2⟩

end Net
