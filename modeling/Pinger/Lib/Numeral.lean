import Pinger.Lib.Bytes

/-! # Decimal numerals

What the texts that `strconv.Atoi` accepts stand for: unsigned numerals, and numerals with one sign
in front. The meaning of a string of digits is `Nat.ofDigitChars`. -/

namespace GoString

/-! ## Numerals -/

/-- An unsigned decimal numeral for `n`. -/
def Denotes (s : GoString) (n : Nat) : Prop :=
  s ≠ [] ∧ (∀ c ∈ s, isDigit c) ∧ Nat.ofDigitChars 10 s 0 = n

theorem foldl_none (f : Nat → Char → Option Nat) (s : GoString) :
    s.foldl (fun acc c => acc.bind fun n => f n c) none = none := by
  induction s with
  | nil => rfl
  | cons c s ih => exact ih

theorem foldl_parseDigits (s : GoString) (n m : Nat) :
    s.foldl (fun acc c => acc.bind fun n =>
        if isDigit c then some (10 * n + (c.toNat - '0'.toNat)) else none) (some n) = some m ↔
      (∀ c ∈ s, isDigit c) ∧ Nat.ofDigitChars 10 s n = m := by
  induction s generalizing n with
  | nil => simp
  | cons c s ih =>
    rw [List.foldl_cons, Option.bind_some, Nat.ofDigitChars_cons, List.forall_mem_cons]
    by_cases hc : isDigit c
    · rw [if_pos hc, ih]
      simp only [hc, true_and]
    · rw [if_neg hc, foldl_none]
      simp [hc]

theorem parseDigits_eq_some : parseDigits s = some n ↔ Denotes s n := by
  unfold parseDigits
  split
  next hs => simp [Denotes, hs]
  next hs => rw [foldl_parseDigits, Denotes, and_iff_right hs]

theorem Denotes.unique (h : Denotes s n) (h' : Denotes s m) : n = m := h.2.2.symm.trans h'.2.2

/-- A numeral does not begin with a sign. -/
theorem not_denotes_cons (hc : isDigit c = false) : ¬Denotes (c :: s) n := by
  intro h
  rw [h.2.1 c List.mem_cons_self] at hc
  cases hc

theorem denotes_formatUint (n : Nat) : Denotes (formatUint n) n := by
  refine ⟨?_, fun c hc => ?_, Nat.ofDigitChars_ten_toDigits⟩
  · exact List.ne_nil_of_length_pos Nat.length_toDigits_pos
  · have h := Nat.isDigit_of_mem_toDigits (by decide) (by decide) hc
    simpa [Char.isDigit, isDigit, Char.le_def] using h

theorem formatUint_injective (h : formatUint n = formatUint m) : n = m := by
  have hn := denotes_formatUint n
  rw [h] at hn
  exact hn.unique (denotes_formatUint m)

theorem formatUint_of_lt (h : n < 10) : formatUint n = [n.digitChar] := Nat.toDigits_of_lt_base h

theorem formatUint_of_le (h : 10 ≤ n) :
    formatUint n = formatUint (n / 10) ++ [(n % 10).digitChar] :=
  Nat.toDigits_of_base_le (by decide) h

/-- The numerals that begin a numeral are those of the number without some of its last digits. -/
theorem formatUint_isPrefix_iff (hn : 0 < n) (m : Nat) :
    formatUint n <+: formatUint m ↔ ∃ k, m / 10 ^ k = n := by
  induction m using Nat.strongRecOn with
  | ind m ih =>
    rcases Nat.lt_or_ge m 10 with hm | hm
    · -- one digit: only the numeral itself, and dropping more leaves nothing
      constructor
      · intro h
        have hlen : (formatUint n).length ≤ 1 := by
          simpa only [formatUint_of_lt hm, List.length_singleton] using h.length_le
        have heq : formatUint n = formatUint m := by
          apply h.eq_of_length
          have := List.length_pos_iff.mpr (denotes_formatUint n).1
          simp only [formatUint_of_lt hm, List.length_singleton]
          omega
        exact ⟨0, by rw [formatUint_injective heq, Nat.pow_zero, Nat.div_one]⟩
      · rintro ⟨k, rfl⟩
        cases k with
        | zero => simp
        | succ k =>
          rw [Nat.pow_succ', ← Nat.div_div_eq_div_mul, Nat.div_eq_of_lt hm, Nat.zero_div] at hn
          exact absurd hn (Nat.lt_irrefl 0)
    · rw [formatUint_of_le hm, List.prefix_concat_iff, ← formatUint_of_le hm, ih _ (by omega)]
      constructor
      · rintro (h | ⟨k, h⟩)
        · exact ⟨0, by rw [formatUint_injective h, Nat.pow_zero, Nat.div_one]⟩
        · exact ⟨k + 1, by rw [Nat.pow_succ', ← Nat.div_div_eq_div_mul, h]⟩
      · rintro ⟨k, h⟩
        cases k with
        | zero => exact .inl (by rw [← h, Nat.pow_zero, Nat.div_one])
        | succ k => exact .inr ⟨k, by rw [Nat.div_div_eq_div_mul, ← Nat.pow_succ', h]⟩

theorem parseDigits_bind (b : Nat) (f : Nat → Int) :
    ((parseDigits s).bind fun n => if n < b then some (f n) else none) = some v ↔
      ∃ n, Denotes s n ∧ n < b ∧ v = f n := by
  rw [Option.bind_eq_some_iff]
  refine exists_congr fun n => ?_
  rw [parseDigits_eq_some]
  split
  next hn => simp [hn, eq_comm]
  next hn => simp [hn]

/-- The texts `strconv.Atoi` accepts: a numeral, or one with a sign. -/
theorem atoi_eq_some : atoi s = some v ↔
    (∃ n, Denotes s n ∧ n < 2 ^ 63 ∧ v = n) ∨
    (∃ t n, s = '+' :: t ∧ Denotes t n ∧ n < 2 ^ 63 ∧ v = n) ∨
    ∃ t n, s = '-' :: t ∧ Denotes t n ∧ n < 2 ^ 63 + 1 ∧ v = -n := by
  have hminus : ∀ t n, ¬Denotes ('-' :: t) n := fun t n => not_denotes_cons rfl
  have hplus : ∀ t n, ¬Denotes ('+' :: t) n := fun t n => not_denotes_cons rfl
  unfold atoi
  split
  next t =>
    simp only [← Nat.lt_succ_iff, parseDigits_bind]
    simp [hminus]
  next t =>
    rw [parseDigits_bind]
    simp [hplus]
  next hne₁ hne₂ =>
    rw [parseDigits_bind]
    constructor
    · exact .inl
    · rintro (h | ⟨t, n, rfl, -⟩ | ⟨t, n, rfl, -⟩)
      · exact h
      · exact absurd rfl (hne₂ t)
      · exact absurd rfl (hne₁ t)

end GoString
