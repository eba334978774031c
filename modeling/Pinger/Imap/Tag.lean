import Pinger.Lib.Slice
import Pinger.Imap.Status

/-! # Tags and completions

`Next` appends the counter to the slice that holds the letters of the tag, which has room for it,
and so writes into the array of that slice. The letters stay as they are, and the `i`-th call
returns them with the numeral of `i`. A completion is recognised by the tag alone, without the
space behind it, so the completion of command `j` also completes the command `i` whenever the
numeral of `i` begins that of `j`. -/

namespace Pinger.Imap

open GoString

/-! ## The tag with its memory -/

/-- What `prng.Perm(26)` returns. -/
abbrev Perm26 := { l : List Nat // l.Perm (List.range 26) }

/-- `cmdTag`, with the array its `id` shares. -/
structure TagMemory where
  id : GoSlice Char
  seq : Nat

/-- The number of letters `genNewCmdTag(n)` takes. -/
def tagLetters (n : Nat) : Nat := if n < 1 ∨ 26 < n then 5 else n

theorem tagLetters_bounds (n : Nat) : 1 ≤ tagLetters n ∧ tagLetters n ≤ 26 := by
  unfold tagLetters
  split <;> omega

def letters (n : Nat) (perm : Perm26) : GoString :=
  (perm.1.take (tagLetters n)).map fun v => Char.ofNat ('A'.toNat + v)

theorem length_letters (n : Nat) (perm : Perm26) : (letters n perm).length = tagLetters n := by
  have := perm.2.length_eq
  have := (tagLetters_bounds n).2
  simp only [letters, List.length_map, List.length_take, List.length_range] at *
  omega

/-- `make([]byte, n, n+20)`, and the letters written into it. -/
def genNewCmdTag (n : Nat) (perm : Perm26) : TagMemory where
  id :=
    { array := letters n perm ++ List.replicate 20 '\x00'
      len := tagLetters n
      len_le := by rw [List.length_append, length_letters]; exact Nat.le_add_right _ _ }
  seq := 0

/-- `Next()`: the string copies the result of `strconv.AppendUint(t.id, t.seq, 10)`, which is one
`append` of the digits. -/
def TagMemory.next (t : TagMemory) : GoString × TagMemory :=
  let seq := (t.seq + 1) % 2 ^ 64
  let r := t.id.append (formatUint seq)
  (r.2.view, { id := r.1, seq := seq })

/-- The tag after `n` calls of `Next`. -/
def TagMemory.nexts (t : TagMemory) : Nat → TagMemory
  | 0 => t
  | n + 1 => (t.nexts n).next.2

/-- What the `i`-th call of `Next` returns, counting from 1. -/
def TagMemory.issued (t : TagMemory) (i : Nat) : GoString := (t.nexts (i - 1)).next.1

/-- The tag without its memory. -/
def TagMemory.toCmdTag (t : TagMemory) : CmdTag := { id := t.id.view, seq := t.seq }

/-! ## The letters stay -/

theorem view_genNewCmdTag (n : Nat) (perm : Perm26) :
    (genNewCmdTag n perm).id.view = letters n perm := by
  have h : (letters n perm ++ List.replicate 20 '\x00').take (letters n perm).length = _ :=
    List.take_left
  rwa [length_letters] at h

theorem TagMemory.view_next (t : TagMemory) : t.next.2.id.view = t.id.view :=
  t.id.view_append_fst _

theorem TagMemory.next_fst (t : TagMemory) :
    t.next.1 = t.id.view ++ formatUint ((t.seq + 1) % 2 ^ 64) := t.id.view_append_snd _

theorem TagMemory.view_nexts (t : TagMemory) (n : Nat) : (t.nexts n).id.view = t.id.view := by
  induction n with
  | zero => rfl
  | succ n ih => exact (t.nexts n).view_next.trans ih

/-- `Next` on the memory is `Next` on the tag without it, as long as the counter does not wrap. -/
theorem TagMemory.next_toCmdTag {t : TagMemory} (h : t.seq + 1 < 2 ^ 64) (sh : Shared)
    (ht : sh.tag = t.toCmdTag) :
    sh.nextTag.1 = t.next.1 ∧ sh.nextTag.2.tag = t.next.2.toCmdTag := by
  constructor
  · rw [t.next_fst, Nat.mod_eq_of_lt h, Shared.nextTag, ht]
    rfl
  · have hseq : t.next.2.seq = t.seq + 1 := Nat.mod_eq_of_lt h
    have htag : t.next.2.toCmdTag = { id := t.id.view, seq := t.seq + 1 } :=
      congrArg₂ CmdTag.mk t.view_next hseq
    rw [htag, Shared.nextTag, ht]
    rfl

theorem seq_nexts (n : Nat) (perm : Perm26) (hi : i < 2 ^ 64) :
    ((genNewCmdTag n perm).nexts i).seq = i := by
  induction i with
  | zero => rfl
  | succ i ih =>
    rw [TagMemory.nexts, TagMemory.next, ih (Nat.lt_of_succ_lt hi)]
    exact Nat.mod_eq_of_lt hi

/-- The `i`-th tag: the letters and the numeral of `i`. -/
theorem issued_eq (n : Nat) (perm : Perm26) (h₁ : 1 ≤ i) (h₂ : i < 2 ^ 64) :
    (genNewCmdTag n perm).issued i = letters n perm ++ formatUint i := by
  rw [TagMemory.issued, TagMemory.next_fst, TagMemory.view_nexts, view_genNewCmdTag,
    seq_nexts n perm (Nat.lt_of_le_of_lt (Nat.sub_le i 1) h₂), Nat.sub_add_cancel h₁,
    Nat.mod_eq_of_lt h₂]

/-! ## Which command a completion completes -/

theorem isUpper_letter : ∀ v < 26, isUpper (Char.ofNat ('A'.toNat + v)) := by decide

theorem letters_upper (hc : c ∈ letters n perm) : isUpper c := by
  obtain ⟨v, hv, rfl⟩ := List.mem_map.mp hc
  have hv' := perm.2.mem_iff.mp (List.mem_of_mem_take hv)
  exact isUpper_letter v (List.mem_range.mp hv')

theorem isAlnum_of_isUpper (h : isUpper c) : isAlnum c := by
  have h' : ('A' ≤ c && c ≤ 'Z') = true := h
  rw [isAlnum, h', Bool.or_true]

theorem isTag_letters (n : Nat) (perm : Perm26) (i : Nat) :
    IsTag (letters n perm ++ formatUint i) := by
  obtain ⟨hne, hdigit, -⟩ := denotes_formatUint i
  refine ⟨List.append_ne_nil_of_right_ne_nil _ hne, fun c hc => ?_⟩
  rcases List.mem_append.mp hc with hc | hc
  · exact isAlnum_of_isUpper (letters_upper hc)
  · simp [isAlnum, hdigit c hc]

/-- A line with a tag is not a continuation request. -/
theorem IsTag.not_continuation (h : IsTag tag) (rest : GoString) :
    (GoString.lit "+ ").isPrefixOf (tag ++ rest) = false := by
  obtain ⟨c, t, rfl⟩ := List.exists_cons_of_ne_nil h.1
  have hplus : '+' ≠ c := fun e => h.not_mem (c := '+') rfl (e ▸ List.mem_cons_self)
  rw [List.cons_append]
  exact Bool.and_eq_false_iff.mpr (.inl (beq_eq_false_iff_ne.mpr hplus))

/-- A command with a tag takes every line that its tag begins. -/
theorem isFinalResponse_tagged (h : IsTag tag) (h' : IsTag tag') (args rest : GoString) :
    isFinalResponse (tag ++ ' ' :: args) (tag' ++ ' ' :: rest) = true ↔
      tag <+: tag' ++ ' ' :: rest := by
  rw [isFinalResponse, h'.not_continuation, Bool.false_and, Bool.false_or, split_command h,
    List.headD_cons, List.isPrefixOf_iff_prefix]

/-- No tag holds a space, so a tag that begins the line of another begins that tag. -/
theorem IsTag.isPrefix_line_iff (h : IsTag tag) (tag' rest : GoString) :
    tag <+: tag' ++ ' ' :: rest ↔ tag <+: tag' := by
  constructor
  · intro hp
    rcases List.prefix_or_prefix_of_prefix hp (List.prefix_append tag' (' ' :: rest)) with hp' | hp'
    · exact hp'
    · obtain ⟨t, rfl⟩ := hp'
      rw [List.prefix_append_right_inj] at hp
      cases t with
      | nil => simp
      | cons c t =>
        obtain ⟨rfl, -⟩ := List.cons_prefix_cons.mp hp
        exact absurd (List.mem_append_right tag' List.mem_cons_self) (h.not_mem rfl)
  · exact fun hp => hp.trans (List.prefix_append ..)

/-- The tag prefix is never altered; and of two tags, a completion of the second completes the
second command and not the first exactly when the number of the first is not that of the second
without some of its last digits (none of them when the tags are the same). -/
theorem completion_matched_iff (n : Nat) (perm : Perm26) (calls : Nat) (hcalls : calls < 2 ^ 64)
    (hi : 1 ≤ i ∧ i ≤ calls) (hj : 1 ≤ j ∧ j ≤ calls)
    (args args' rest : GoString) :
    (((genNewCmdTag n perm).nexts calls).id.view = (genNewCmdTag n perm).id.view) ∧
    ((isFinalResponse ((genNewCmdTag n perm).issued i ++ ' ' :: args)
        ((genNewCmdTag n perm).issued j ++ ' ' :: rest) = false ∧
      isFinalResponse ((genNewCmdTag n perm).issued j ++ ' ' :: args')
        ((genNewCmdTag n perm).issued j ++ ' ' :: rest) = true) ↔
    ∀ k, j / 10 ^ k ≠ i) := by
  refine ⟨TagMemory.view_nexts _ _, ?_⟩
  rw [issued_eq n perm hi.1 (Nat.lt_of_le_of_lt hi.2 hcalls),
    issued_eq n perm hj.1 (Nat.lt_of_le_of_lt hj.2 hcalls)]
  have hti := isTag_letters n perm i
  have htj := isTag_letters n perm j
  rw [← Bool.not_eq_true, isFinalResponse_tagged hti htj, isFinalResponse_tagged htj htj,
    hti.isPrefix_line_iff, List.prefix_append_right_inj, formatUint_isPrefix_iff hi.1, not_exists]
  exact and_iff_left (List.prefix_append ..)

def firstPerm : Perm26 := ⟨List.range 26, .refl _⟩

theorem completion_matched_two : (genNewCmdTag 0 firstPerm).issued 1 = GoString.lit "ABCDE1" ∧
    (genNewCmdTag 0 firstPerm).issued 20 = GoString.lit "ABCDE20" ∧
    isFinalResponse (GoString.lit "ABCDE1 IDLE") (GoString.lit "ABCDE20 OK done") = false := by
  have hj : (genNewCmdTag 0 firstPerm).issued 20 = GoString.lit "ABCDE20" := by
    rw [issued_eq _ _ (by decide) (by decide)]
    rfl
  have hi : (genNewCmdTag 0 firstPerm).issued 1 = GoString.lit "ABCDE1" := by
    rw [issued_eq _ _ (by decide) (by decide)]
    rfl
  have h := completion_matched_iff 0 firstPerm 20 (i := 1) (j := 20) (by decide)
    (by decide) (by decide) (GoString.lit "IDLE") (GoString.lit "IDLE")
    (GoString.lit "OK done")
  rw [hi, hj] at h
  refine ⟨hi, hj, (h.2.mpr ?_).1⟩
  intro k
  match k with
  | 0 => decide
  | 1 => decide
  | k + 2 =>
    rw [Nat.pow_add, Nat.mul_comm, ← Nat.div_div_eq_div_mul]
    simp

/-- The first command is completed by the completion of the tenth. -/
theorem tenth_completes_first : (genNewCmdTag 0 firstPerm).issued 1 = GoString.lit "ABCDE1" ∧
    (genNewCmdTag 0 firstPerm).issued 10 = GoString.lit "ABCDE10" ∧
    isFinalResponse (GoString.lit "ABCDE1 IDLE") (GoString.lit "ABCDE10 OK done") = true := by
  refine ⟨?_, ?_, rfl⟩
  · rw [issued_eq _ _ (by decide) (by decide)]
    rfl
  · rw [issued_eq _ _ (by decide) (by decide)]
    rfl

end Pinger.Imap
