import Pinger.Lib.Bytes

/-! # Frames of items

Numbers in a fixed number of bytes, the highest byte first, and frames of items, each with a number
that names it, its length and its data. What was written is read back. -/

namespace Wire

/-! ## Numbers -/

/-- `n` in `w` bytes. -/
def putUint : (w n : Nat) → GoString
  | 0, _ => []
  | w + 1, n => putUint w (n / 256) ++ [Char.ofNat (n % 256)]

/-- The number that the bytes write. -/
def value (s : GoString) : Nat := s.foldl (fun n c => 256 * n + c.toNat) 0

/-- The first `w` bytes, and what follows them. -/
def take (w : Nat) (s : GoString) : Option (GoString × GoString) :=
  if w ≤ s.length then some (s.take w, s.drop w) else none

def getUint (w : Nat) (s : GoString) : Option (Nat × GoString) :=
  (take w s).map fun (bytes, s) => (value bytes, s)

@[simp] theorem length_putUint (w n : Nat) : (putUint w n).length = w := by
  induction w generalizing n with
  | zero => rfl
  | succ w ih => rw [putUint, List.length_append, ih, List.length_singleton]

theorem toNat_ofNat (h : n < 256) : (Char.ofNat n).toNat = n := by
  rw [Char.ofNat, dif_pos (show n.isValidChar from .inl (by omega))]
  rfl

theorem value_append_singleton (s : GoString) (c : Char) :
    value (s ++ [c]) = 256 * value s + c.toNat := by
  rw [value, List.foldl_append]
  rfl

theorem value_putUint (h : n < 256 ^ w) : value (putUint w n) = n := by
  induction w generalizing n with
  | zero =>
    rw [Nat.pow_zero, Nat.lt_one_iff] at h
    exact h.symm
  | succ w ih =>
    have hdiv : n / 256 < 256 ^ w := by
      apply Nat.div_lt_of_lt_mul
      rwa [Nat.mul_comm, ← Nat.pow_succ]
    rw [putUint, value_append_singleton, ih hdiv, toNat_ofNat (Nat.mod_lt n (by decide))]
    exact Nat.div_add_mod n 256

theorem take_append (s t : GoString) : take s.length (s ++ t) = some (s, t) := by
  rw [take, if_pos (by simp), List.take_left, List.drop_left]

theorem take_append_of_length (h : s.length = w) (t : GoString) : take w (s ++ t) = some (s, t) :=
  h ▸ take_append s t

/-- A number is read back in front of any text. -/
theorem getUint_putUint (h : n < 256 ^ w) (s : GoString) :
    getUint w (putUint w n ++ s) = some (n, s) := by
  rw [getUint, take_append_of_length (length_putUint w n)]
  simp only [Option.map_some, value_putUint h]

/-! ## Items -/

structure Item where
  id : Nat
  data : GoString
  deriving DecidableEq, Repr

/-- The number is one byte and the length two. -/
def Item.put (item : Item) : GoString :=
  putUint 1 item.id ++ (putUint 2 item.data.length ++ item.data)

def Item.Fits (item : Item) : Prop := item.id < 256 ∧ item.data.length < 256 ^ 2

instance (item : Item) : Decidable item.Fits := inferInstanceAs (Decidable (_ ∧ _))

/-- The item at the front of a text, and what follows it. -/
def getItem (s : GoString) : Option (Item × GoString) := do
  let (id, s) ← getUint 1 s
  let (length, s) ← getUint 2 s
  let (data, s) ← take length s
  return (⟨id, data⟩, s)

/-- The items of a text, at most `n` of them. -/
def getItems (n : Nat) (s : GoString) : Option (List Item) :=
  if s = [] then some []
  else
    match n with
    | 0 => none
    | n + 1 => do
      let (item, s) ← getItem s
      let items ← getItems n s
      return item :: items

theorem getItem_put {item : Item} (h : item.Fits) (s : GoString) :
    getItem (item.put ++ s) = some (item, s) := by
  obtain ⟨hid, hlen⟩ := h
  have hidBytes : item.id < 256 ^ 1 := hid
  rw [Item.put, List.append_assoc, List.append_assoc, getItem]
  simp only [getUint_putUint hidBytes, getUint_putUint hlen, take_append, Option.bind_eq_bind,
    Option.bind_some, Option.pure_def]

theorem put_ne_nil (item : Item) (s : GoString) : item.put ++ s ≠ [] := by
  intro h
  have hlen := congrArg List.length h
  simp [Item.put] at hlen

/-- The items are read back in their order. -/
theorem getItems_put {items : List Item} (h : ∀ item ∈ items, item.Fits) (hn : items.length ≤ n) :
    getItems n (items.flatMap Item.put) = some items := by
  induction items generalizing n with
  | nil => cases n <;> rfl
  | cons item items ih =>
    obtain ⟨hitem, hitems⟩ := List.forall_mem_cons.mp h
    cases n with
    | zero => cases hn
    | succ n =>
      have hrest := ih hitems (Nat.le_of_succ_le_succ hn)
      rw [List.flatMap_cons, getItems, if_neg (put_ne_nil item _)]
      simp only [getItem_put hitem, hrest, Option.bind_eq_bind, Option.bind_some, Option.pure_def]

end Wire
