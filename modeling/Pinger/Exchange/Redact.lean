import Pinger.Exchange.Response

/-! # Redacted errors

`RedactEmailFromError` takes the value of a `User=` parameter out of a text, up to the next
ampersand. `doRequestResponse` looks for the cause of an error in the redacted text. A cause that
stands behind a `User=` with no ampersand in between is redacted too. -/

namespace Pinger.Exchange

/-! ## The scan -/

/-- The text begins with `User=`. -/
abbrev atUser (s : GoString) : Prop := GoString.lit "User=" <+: s

theorem redact_cons (h : ¬atUser (c :: cs)) : redact false (c :: cs) = c :: redact false cs := by
  rw [redact]
  rintro d ds rfl rfl
  exact h ⟨d :: ds, rfl⟩

theorem redact_user (hc : c ≠ '&') (s : GoString) :
    redact false (GoString.lit "User=" ++ c :: s) =
      GoString.lit "User=<redacted>" ++ redact true s := by
  change redact false ('U' :: 's' :: 'e' :: 'r' :: '=' :: c :: s) = _
  rw [redact, if_neg hc]

theorem redact_hidden (hc : c ≠ '&') (s : GoString) : redact true (c :: s) = redact true s := by
  rw [redact, if_neg hc]

/-- A match goes on up to the next ampersand. -/
theorem redact_true_append {u : GoString} (hu : '&' ∉ u) (s : GoString) :
    redact true (u ++ s) = redact true s := by
  induction u with
  | nil => rfl
  | cons c u ih =>
    rw [List.cons_append, redact_hidden fun h => hu (h ▸ List.mem_cons_self)]
    exact ih fun h => hu (List.mem_cons_of_mem c h)

/-- The ways in which the scan goes through a text, outside a match or inside one. -/
inductive Scan : Bool → GoString → Prop
  | nil (b) : Scan b []
  | bare : Scan false (GoString.lit "User=")
  | amp : Scan false s → Scan false (GoString.lit "User=" ++ '&' :: s)
  | user (hc : c ≠ '&') : Scan true s → Scan false (GoString.lit "User=" ++ c :: s)
  | plain (h : ¬atUser (c :: s)) : Scan false s → Scan false (c :: s)
  | next : Scan false s → Scan true ('&' :: s)
  | hidden (hc : c ≠ '&') : Scan true s → Scan true (c :: s)

theorem scan (b : Bool) (s : GoString) : Scan b s := by
  induction b, s using redact.induct with
  | case1 cs ih => exact .next ih
  | case2 c cs hc ih => exact .hidden hc ih
  | case3 cs ih => exact .amp ih
  | case4 c cs hc ih => exact .user hc ih
  | case5 c cs hno ih =>
    by_cases h : atUser (c :: cs)
    · -- a `User=` that is not followed by anything
      obtain ⟨_ | ⟨d, t⟩, ht⟩ := h
      · exact ht ▸ .bare
      · obtain ⟨rfl, rfl⟩ := List.cons.inj ht
        exact absurd rfl (hno d t rfl)
    · exact .plain h ih
  | case6 b => exact .nil b

variable {s t u p : GoString}

/-- `User=` does not overlap itself. -/
theorem atUser_append (hp : p ≠ []) (h : atUser (p ++ GoString.lit "User=" ++ t)) : atUser p := by
  match p, hp with
  | [a], _ | [a, b], _ | [a, b, c], _ | [a, b, c, d], _ =>
    simp [atUser, GoString.lit, List.cons_prefix_cons] at h
  | a :: b :: c :: d :: e :: p, _ => simpa [atUser, GoString.lit, List.cons_prefix_cons] using h

/-- The scan keeps what stands before a match, so it does not put a `User=` together. -/
theorem eq_append_of_redact {w x : GoString} (hw : 'U' ∉ w) (h : redact false s = w ++ x) :
    ∃ s', s = w ++ s' ∧ x = redact false s' := by
  induction w generalizing s with
  | nil => exact ⟨s, rfl, h.symm⟩
  | cons c w ih =>
    have hc : c ≠ 'U' := fun hc => hw (hc ▸ List.mem_cons_self)
    cases hs : scan false s with
    | nil => cases h
    | bare => exact absurd (List.cons.inj h).1.symm hc
    | amp => exact absurd (List.cons.inj h).1.symm hc
    | user hd =>
      rw [redact_user hd] at h
      exact absurd (List.cons.inj h).1.symm hc
    | plain hno =>
      rw [redact_cons hno] at h
      obtain ⟨rfl, hs⟩ := List.cons.inj h
      obtain ⟨s', rfl, rfl⟩ := ih (fun hm => hw (List.mem_cons_of_mem _ hm)) hs
      exact ⟨s', rfl, rfl⟩

theorem not_atUser_redact (h : ¬atUser (c :: s)) : ¬atUser (c :: redact false s) := by
  rintro ⟨x, hx⟩
  have hx : 'U' :: (GoString.lit "ser=" ++ x) = c :: redact false s := hx
  obtain ⟨rfl, hs⟩ := List.cons.inj hx
  obtain ⟨s', rfl, -⟩ := eq_append_of_redact (by decide) hs.symm
  exact h ⟨s', rfl⟩

/-! ## What is redacted -/

/-- The value of a parameter is not seen in the redacted text. -/
theorem redact_value (hne : u ≠ []) (hu : '&' ∉ u) (hne' : u' ≠ []) (hu' : '&' ∉ u') (b : Bool)
    (p s : GoString) :
    redact b (p ++ (GoString.lit "User=" ++ (u ++ s))) =
      redact b (p ++ (GoString.lit "User=" ++ (u' ++ s))) := by
  have htrue : redact true (u ++ s) = redact true (u' ++ s) := by
    rw [redact_true_append hu, redact_true_append hu']
  induction scan b p with
  | nil b =>
    cases b with
    | true => exact htrue
    | false =>
      obtain ⟨c, u, rfl⟩ := List.exists_cons_of_ne_nil hne
      obtain ⟨c', u', rfl⟩ := List.exists_cons_of_ne_nil hne'
      have hc : c ≠ '&' := fun h => hu (h ▸ List.mem_cons_self)
      have hc' : c' ≠ '&' := fun h => hu' (h ▸ List.mem_cons_self)
      rw [List.cons_append, redact_hidden hc, List.cons_append, redact_hidden hc'] at htrue
      change redact false (GoString.lit "User=" ++ c :: (u ++ s)) =
        redact false (GoString.lit "User=" ++ c' :: (u' ++ s))
      rw [redact_user hc, redact_user hc', htrue]
  | bare => exact congrArg (GoString.lit "User=<redacted>" ++ ·) htrue
  | amp _ ih => exact congrArg (GoString.lit "User=&" ++ ·) ih
  | @user c s hc _ ih =>
    rw [List.append_assoc, List.cons_append, redact_user hc, List.append_assoc, List.cons_append,
      redact_user hc, ih]
  | @plain c q hno _ ih =>
    have hno' : ∀ x, ¬atUser (c :: (q ++ (GoString.lit "User=" ++ x))) := fun x h =>
      hno (atUser_append (t := x) (List.cons_ne_nil c q) (by simpa using h))
    rw [List.cons_append, redact_cons (hno' _), List.cons_append, redact_cons (hno' _), ih]
  | next _ ih => exact congrArg ('&' :: ·) ih
  | hidden hc _ ih =>
    rw [List.cons_append, redact_hidden hc, List.cons_append, redact_hidden hc, ih]

theorem redact_redact (b : Bool) (s : GoString) : redact b (redact b s) = redact b s := by
  induction scan b s with
  | nil b => cases b <;> rfl
  | bare => rfl
  | amp _ ih => exact congrArg (GoString.lit "User=&" ++ ·) ih
  | user hc _ ih =>
    rw [redact_user hc]
    exact congrArg (GoString.lit "User=<redacted>" ++ ·) ih
  | plain hno _ ih => rw [redact_cons hno, redact_cons (not_atUser_redact hno), ih]
  | next _ ih => exact congrArg ('&' :: ·) ih
  | hidden hc _ ih => rw [redact_hidden hc, ih]

/-- A text without the value of a parameter is kept. -/
theorem redact_of_valueless (h : ∀ a c t, s = a ++ GoString.lit "User=" ++ c :: t → c = '&') :
    redact false s = s := by
  suffices ∀ b, Scan b s → b = false → redact b s = s from this false (scan false s) rfl
  intro b hscan hb
  induction hscan with
  | nil b => exact hb ▸ rfl
  | bare => rfl
  | @amp s _ ih =>
    refine congrArg (GoString.lit "User=&" ++ ·) (ih (fun a c t hs => ?_) rfl)
    exact h (GoString.lit "User=&" ++ a) c t (by rw [hs]; rfl)
  | @user c s hc _ _ => exact absurd (h [] c s rfl) hc
  | @plain c s hno _ ih =>
    rw [redact_cons hno, ih (fun a d t hs => h (c :: a) d t (by rw [hs]; rfl)) rfl]
  | next | hidden => cases hb

/-- What may follow a `User=` in a redacted text. -/
def Follows (t : GoString) : Prop := GoString.lit "<redacted>" <+: t ∨ t = [] ∨ ∃ t', t = '&' :: t'

/-- A `User=` behind a text without its first character is in what comes after. -/
theorem user_behind {w x a : GoString} (hw : 'U' ∉ w)
    (h : w ++ x = a ++ (GoString.lit "User=" ++ t)) :
    ∃ a', x = a' ++ (GoString.lit "User=" ++ t) := by
  induction w generalizing a with
  | nil => exact ⟨a, h⟩
  | cons c w ih =>
    cases a with
    | nil => exact absurd (List.cons.inj h).1 fun hc => hw (hc ▸ List.mem_cons_self)
    | cons d a => exact ih (fun hm => hw (List.mem_cons_of_mem c hm)) (List.cons.inj h).2

theorem follows_of_redact (b : Bool) (s : GoString) {a : GoString}
    (h : redact b s = a ++ (GoString.lit "User=" ++ t)) : Follows t := by
  induction scan b s generalizing a with
  | nil b =>
    rw [show redact b [] = [] by cases b <;> rfl] at h
    simp at h
  | bare =>
    have hlen := congrArg List.length h
    rw [List.length_append, List.length_append] at hlen
    have ht : t = [] := by
      apply List.eq_nil_of_length_eq_zero
      change 5 = a.length + (5 + t.length) at hlen
      omega
    exact .inr (.inl ht)
  | amp _ ih =>
    cases a with
    | nil =>
      have h : GoString.lit "User=" ++ '&' :: redact false _ = GoString.lit "User=" ++ t := h
      exact .inr (.inr ⟨_, (List.append_cancel_left h).symm⟩)
    | cons c a =>
      obtain ⟨a', ha⟩ := user_behind (w := GoString.lit "ser=&") (by decide) (List.cons.inj h).2
      exact ih ha
  | user hc _ ih =>
    rw [redact_user hc] at h
    cases a with
    | nil =>
      have h : GoString.lit "User=" ++ (GoString.lit "<redacted>" ++ redact true _) =
        GoString.lit "User=" ++ t := h
      exact .inl ⟨_, List.append_cancel_left h⟩
    | cons c a =>
      obtain ⟨a', ha⟩ := user_behind (w := GoString.lit "ser=<redacted>") (by decide)
        (List.cons.inj h).2
      exact ih ha
  | plain hno _ ih =>
    rw [redact_cons hno] at h
    cases a with
    | nil => exact absurd ⟨t, h.symm⟩ (not_atUser_redact hno)
    | cons c a => exact ih (List.cons.inj h).2
  | next _ ih =>
    obtain ⟨a', ha⟩ := user_behind (w := ['&']) (by decide) h
    exact ih ha
  | hidden hc _ ih =>
    rw [redact_hidden hc] at h
    exact ih h

/-- The redacted text does not depend on the value, redacting it again changes nothing, a text
without a value is kept, and no value follows a `User=` in the result. -/
theorem redaction_hides_value :
    (∀ p s u₁ u₂ : GoString, (s = [] ∨ ∃ t, s = '&' :: t) → u₁ ≠ [] → '&' ∉ u₁ → u₂ ≠ [] →
      '&' ∉ u₂ → redactEmailFromError (p ++ (GoString.lit "User=" ++ (u₁ ++ s))) =
        redactEmailFromError (p ++ (GoString.lit "User=" ++ (u₂ ++ s)))) ∧
    (∀ s, redactEmailFromError (redactEmailFromError s) = redactEmailFromError s) ∧
    (∀ s, (∀ a c t, s = a ++ GoString.lit "User=" ++ c :: t → c = '&') →
      redactEmailFromError s = s) ∧
    ∀ s a t, redactEmailFromError s = a ++ (GoString.lit "User=" ++ t) → Follows t :=
  ⟨fun p s _ _ _ hne hu hne' hu' => redact_value hne hu hne' hu' false p s, redact_redact false,
    fun _ => redact_of_valueless, fun s _ _ => follows_of_redact false s⟩

/-- Two users of one server. -/
theorem redaction_hides_user :
    redactEmailFromError (GoString.lit "/as?User=bob&Cmd=Ping") =
      redactEmailFromError (GoString.lit "/as?User=alice@a.com&Cmd=Ping") :=
  redaction_hides_value.1 (GoString.lit "/as?") (GoString.lit "&Cmd=Ping") (GoString.lit "bob")
    (GoString.lit "alice@a.com") (.inr ⟨GoString.lit "Cmd=Ping", rfl⟩) (by decide) (by decide)
    (by decide) (by decide)

/-! ## What is found in the redacted text -/

/-- An occurrence does not go over a character it does not have. -/
theorem occurrence_split {n w x a : GoString} (hm : m ∉ n) (h : a ++ (n ++ t) = w ++ m :: x) :
    (∃ a', a = w ++ m :: a' ∧ x = a' ++ (n ++ t)) ∨ n <:+: w := by
  rcases List.append_eq_append_iff.mp h with ⟨z, rfl, hz⟩ | ⟨z, rfl, hz⟩
  · -- it begins in `w`
    rcases List.append_eq_append_iff.mp hz with ⟨y, rfl, -⟩ | ⟨y, rfl, hy⟩
    · exact .inr ⟨a, y, by simp⟩
    · cases y with
      | nil => exact .inr ⟨a, [], by simp⟩
      | cons d y =>
        obtain ⟨rfl, -⟩ := List.cons.inj hy
        simp at hm
  · cases z with
    | nil =>
      cases n with
      | nil => exact .inr ⟨[], w, rfl⟩
      | cons d n =>
        obtain ⟨rfl, -⟩ := List.cons.inj hz
        simp at hm
    | cons d z =>
      obtain ⟨rfl, rfl⟩ := List.cons.inj hz
      exact .inl ⟨z, rfl, rfl⟩

theorem infix_append_cons_iff {n w x : GoString} (hm : m ∉ n) (hw : ¬n <:+: w) :
    n <:+: w ++ m :: x ↔ n <:+: x := by
  constructor
  · rintro ⟨a, t, h⟩
    rw [List.append_assoc] at h
    rcases occurrence_split hm h with ⟨a', -, rfl⟩ | hw'
    · exact ⟨a', t, by simp⟩
    · exact absurd hw' hw
  · rintro ⟨a, t, rfl⟩
    exact ⟨w ++ m :: a, t, by simp⟩

/-- What is looked for in an error: words, and nothing of a parameter. -/
structure Phrase (n : GoString) : Prop where
  space : ' ' ∈ n
  words : ∀ m ∈ n, m ≠ 'U' ∧ m ≠ '=' ∧ m ≠ '&' ∧ m ≠ '>'

instance (n : GoString) : Decidable (Phrase n) :=
  -- the instance for every character would go through all of them
  have : Decidable (∀ m ∈ n, m ≠ 'U' ∧ m ≠ '=' ∧ m ≠ '&' ∧ m ≠ '>') := n.decidableBAll _
  decidable_of_iff (' ' ∈ n ∧ _) ⟨fun h => ⟨h.1, h.2⟩, fun h => ⟨h.space, h.words⟩⟩

/-- The phrase stands in the text, and between the ampersand before it, if there is one, and the
phrase there is no `User=`. Inside a match there has to be an ampersand. -/
def ShowsFrom (b : Bool) (n s : GoString) : Prop :=
  ∃ a t, s = a ++ (n ++ t) ∧ (b = true → '&' ∈ a) ∧
    ∀ x y, a = x ++ (GoString.lit "User=" ++ y) → '&' ∈ y

abbrev Shows (n s : GoString) : Prop := ShowsFrom false n s

theorem Phrase.not_infix {n : GoString} (h : Phrase n) (hw : ' ' ∉ w) : ¬n <:+: w :=
  fun hin => hw (hin.subset h.space)

theorem not_showsFrom {n : GoString} (h : ¬n <:+: s) : ¬ShowsFrom b n s := by
  rintro ⟨a, t, rfl, -⟩
  exact h ⟨a, t, by simp⟩

/-- The first characters of a phrase are kept as long as none of them begins a `User=`. -/
theorem prefix_redact_iff {n : GoString} (hn : 'U' ∉ n) (s : GoString) :
    n <+: redact false s ↔ n <+: s := by
  induction n generalizing s with
  | nil => simp
  | cons c n ih =>
    have hc : c ≠ 'U' := fun hc => hn (hc ▸ List.mem_cons_self)
    have hn' : 'U' ∉ n := fun hm => hn (List.mem_cons_of_mem c hm)
    have hU : ∀ x, ¬c :: n <+: 'U' :: x := fun x h => hc (List.cons_prefix_cons.mp h).1
    cases hs : scan false s with
    | nil => rfl
    | bare => rfl
    | amp => exact iff_of_false (hU _) (hU _)
    | user hd =>
      rw [redact_user hd]
      exact iff_of_false (hU _) (hU _)
    | plain hno => rw [redact_cons hno, List.cons_prefix_cons, List.cons_prefix_cons, ih hn']

/-- `User=` stands at the beginning, or behind the first character. -/
theorem user_cons {a x y : GoString} (h : c :: a = x ++ (GoString.lit "User=" ++ y)) :
    (c = 'U' ∧ a = GoString.lit "ser=" ++ y) ∨ ∃ x', a = x' ++ (GoString.lit "User=" ++ y) := by
  cases x with
  | nil => exact .inl ⟨(List.cons.inj h).1, (List.cons.inj h).2⟩
  | cons d x => exact .inr ⟨x, (List.cons.inj h).2⟩

/-- Behind a `User=` the next one does not begin before the value. -/
theorem user_after {x y : GoString}
    (h : GoString.lit "User=" ++ s = x ++ (GoString.lit "User=" ++ y)) :
    y = s ∨ ∃ x', s = x' ++ (GoString.lit "User=" ++ y) := by
  have h : 'U' :: (GoString.lit "ser=" ++ s) = x ++ (GoString.lit "User=" ++ y) := h
  rcases user_cons h with ⟨-, hs⟩ | ⟨x', hs⟩
  · exact .inl (List.append_cancel_left hs).symm
  · exact .inr (user_behind (by decide) hs)

section
variable {n s : GoString}

/-- A parameter without a value hides nothing. -/
theorem showsFrom_amp_iff (hn : Phrase n) :
    ShowsFrom false n (GoString.lit "User=" ++ '&' :: s) ↔ ShowsFrom false n s := by
  have hamp : '&' ∉ n := fun h => (hn.words _ h).2.2.1 rfl
  constructor
  · rintro ⟨a, t, hs, -, hclear⟩
    rcases occurrence_split hamp hs.symm with ⟨a', rfl, rfl⟩ | hw
    · refine ⟨a', t, rfl, nofun, fun x y h => ?_⟩
      exact hclear (GoString.lit "User=" ++ '&' :: x) y (by rw [h]; simp)
    · exact absurd hw (hn.not_infix (by decide))
  · rintro ⟨a, t, rfl, -, hclear⟩
    refine ⟨GoString.lit "User=" ++ '&' :: a, t, by simp, nofun, fun x y h => ?_⟩
    rcases user_after h with rfl | ⟨x', h⟩
    · exact List.mem_cons_self
    · obtain ⟨x'', h⟩ := user_behind (w := ['&']) (by decide) h
      exact hclear x'' y h

/-- A value is inside a match from its first character on. -/
theorem showsFrom_user_iff (hn : Phrase n) (hc : c ≠ '&') :
    ShowsFrom false n (GoString.lit "User=" ++ c :: s) ↔ ShowsFrom true n s := by
  have heq : '=' ∉ n := fun h => (hn.words _ h).2.1 rfl
  constructor
  · rintro ⟨a, t, hs, -, hclear⟩
    rcases occurrence_split (w := GoString.lit "User") heq hs.symm with ⟨a₁, rfl, hcs⟩ | hw
    · have hin : '&' ∈ a₁ := hclear [] a₁ rfl
      cases a₁ with
      | nil => cases hin
      | cons d a' =>
        obtain ⟨rfl, rfl⟩ := List.cons.inj hcs
        refine ⟨a', t, rfl, fun _ => ?_, fun x y h => ?_⟩
        · exact (List.mem_cons.mp hin).resolve_left (Ne.symm hc)
        · exact hclear (GoString.lit "User=" ++ c :: x) y (by rw [h]; rfl)
    · exact absurd hw (hn.not_infix (by decide))
  · rintro ⟨a, t, rfl, hin, hclear⟩
    refine ⟨GoString.lit "User=" ++ c :: a, t, by simp, nofun, fun x y h => ?_⟩
    rcases user_after h with rfl | ⟨x', h⟩
    · exact List.mem_cons_of_mem c (hin rfl)
    · rcases user_cons h with ⟨-, rfl⟩ | ⟨x'', h⟩
      · exact (List.mem_append.mp (hin rfl)).resolve_left (by decide)
      · exact hclear x'' y h

/-- Where no parameter begins, the phrase begins there or shows further on. -/
theorem showsFrom_plain_iff (hno : ¬GoString.lit "User=" <+: c :: s) :
    ShowsFrom false n (c :: s) ↔ n <+: c :: s ∨ ShowsFrom false n s := by
  constructor
  · rintro ⟨a, t, hs, -, hclear⟩
    cases a with
    | nil => exact .inl ⟨t, hs.symm⟩
    | cons d a =>
      obtain ⟨rfl, rfl⟩ := List.cons.inj hs
      refine .inr ⟨a, t, rfl, nofun, fun x y h => ?_⟩
      exact hclear (c :: x) y (by rw [h]; simp)
  · rintro (⟨t, ht⟩ | ⟨a, t, rfl, -, hclear⟩)
    · exact ⟨[], t, ht.symm, nofun, fun x y h => by simp [GoString.lit] at h⟩
    · refine ⟨c :: a, t, rfl, nofun, fun x y h => ?_⟩
      rcases user_cons h with ⟨rfl, rfl⟩ | ⟨x', h⟩
      · exact absurd ⟨y ++ (n ++ t), by simp [GoString.lit]⟩ hno
      · exact hclear x' y h

/-- A match ends at an ampersand. -/
theorem showsFrom_next_iff (hn : Phrase n) :
    ShowsFrom true n ('&' :: s) ↔ ShowsFrom false n s := by
  have hamp : '&' ∉ n := fun h => (hn.words _ h).2.2.1 rfl
  constructor
  · rintro ⟨a, t, hs, -, hclear⟩
    rcases occurrence_split (w := []) hamp hs.symm with ⟨a', rfl, rfl⟩ | hw
    · exact ⟨a', t, rfl, nofun, fun x y h => hclear ('&' :: x) y (by rw [h]; simp)⟩
    · exact absurd hw (hn.not_infix (by simp))
  · rintro ⟨a, t, rfl, -, hclear⟩
    refine ⟨'&' :: a, t, by simp, by simp, fun x y h => ?_⟩
    obtain ⟨x', h⟩ := user_behind (w := ['&']) (by decide) h
    exact hclear x' y h

theorem showsFrom_hidden_iff (hc : c ≠ '&') :
    ShowsFrom true n (c :: s) ↔ ShowsFrom true n s := by
  constructor
  · rintro ⟨a, t, hs, hin, hclear⟩
    cases a with
    | nil => cases hin rfl
    | cons d a =>
      obtain ⟨rfl, rfl⟩ := List.cons.inj hs
      refine ⟨a, t, rfl, fun _ => ?_, fun x y h => ?_⟩
      · exact (List.mem_cons.mp (hin rfl)).resolve_left (Ne.symm hc)
      · exact hclear (c :: x) y (by rw [h]; simp)
  · rintro ⟨a, t, rfl, hin, hclear⟩
    refine ⟨c :: a, t, by simp, fun _ => List.mem_cons_of_mem c (hin rfl), fun x y h => ?_⟩
    rcases user_cons h with ⟨-, rfl⟩ | ⟨x', h⟩
    · exact (List.mem_append.mp (hin rfl)).resolve_left (by decide)
    · exact hclear x' y h

end

/-- What is found in the redacted text is what shows. -/
theorem infix_redact_iff {n : GoString} (hn : Phrase n) (b : Bool) (s : GoString) :
    n <:+: redact b s ↔ ShowsFrom b n s := by
  have hamp : '&' ∉ n := fun h => (hn.words _ h).2.2.1 rfl
  have hgt : '>' ∉ n := fun h => (hn.words _ h).2.2.2 rfl
  have hU : 'U' ∉ n := fun h => (hn.words _ h).1 rfl
  have hnil : ¬n <:+: [] := hn.not_infix (by simp)
  have huser : ¬n <:+: GoString.lit "User=" := hn.not_infix (by decide)
  have hred : ¬n <:+: GoString.lit "User=<redacted" := hn.not_infix (by decide)
  induction scan b s with
  | nil b =>
    rw [show redact b [] = [] by cases b <;> rfl]
    exact iff_of_false hnil (not_showsFrom hnil)
  | bare => exact iff_of_false huser (not_showsFrom huser)
  | @amp s _ ih =>
    have hout := infix_append_cons_iff (x := redact false s) hamp huser
    exact hout.trans (ih.trans (showsFrom_amp_iff hn).symm)
  | @user c s hc _ ih =>
    have hmark : GoString.lit "User=<redacted>" = GoString.lit "User=<redacted" ++ ['>'] := by
      decide
    rw [redact_user hc, hmark, List.append_assoc, List.singleton_append,
      infix_append_cons_iff hgt hred]
    exact ih.trans (showsFrom_user_iff hn hc).symm
  | @plain c s hno _ ih =>
    have hprefix := prefix_redact_iff hU (c :: s)
    rw [redact_cons hno] at hprefix ⊢
    rw [List.infix_cons_iff, hprefix]
    exact (or_congr_right ih).trans (showsFrom_plain_iff hno).symm
  | @next s _ ih =>
    have hout := infix_append_cons_iff (w := []) (x := redact false s) hamp hnil
    exact hout.trans (ih.trans (showsFrom_next_iff hn).symm)
  | @hidden c s hc _ ih =>
    rw [redact_hidden hc]
    exact ih.trans (showsFrom_hidden_iff hc).symm

theorem contains_iff (n s : GoString) : GoString.contains n s ↔ n <:+: s := by
  induction s with
  | nil => simp [GoString.contains]
  | cons c s ih =>
    rw [GoString.contains, Bool.or_eq_true, ih, List.infix_cons_iff, List.isPrefixOf_iff_prefix]

theorem contains_redact_iff {n : GoString} (hn : Phrase n) (s : GoString) :
    GoString.contains n (redactEmailFromError s) ↔ Shows n s :=
  (contains_iff n _).trans (infix_redact_iff hn false s)

/-! ## The cause of an error -/

def noSuchHost : GoString := GoString.lit "no such host"

def unknownAuthority : GoString := GoString.lit "certificate signed by unknown authority"

theorem phrase_noSuchHost : Phrase noSuchHost := by decide

theorem phrase_unknownAuthority : Phrase unknownAuthority := by decide

/-- The error of a request: the method, the URL and the cause. -/
def postError (url cause : GoString) : GoString :=
  GoString.lit "Post " ++ url ++ GoString.lit ": " ++ cause

/-- The error of the request is reported as `e`, and `LongPoll` asks the client to register
again. -/
def ReportedAs (pi : MailPingInformation) (cause : GoString) (e : RequestErr) : Prop :=
  respond pi (.failed (postError pi.mailServerUrl cause)) = .err e ∧
    ∀ tooFast n, verdict pi tooFast n (respond pi (.failed (postError pi.mailServerUrl cause))) =
      .send .reRegister

/-- The error of a request is reported by its cause. -/
def Reported (pi : MailPingInformation) (cause : GoString) : Prop :=
  (GoString.contains noSuchHost cause → ReportedAs pi cause .noSuchHost) ∧
    (¬GoString.contains noSuchHost cause → GoString.contains unknownAuthority cause →
      ReportedAs pi cause .unknownCertificateAuthority)

/-- The three ways in which a failed request is reported. -/
theorem respond_failed (pi : MailPingInformation) (msg : GoString) :
    respond pi (.failed msg) =
      if GoString.contains noSuchHost (redactEmailFromError msg) then .err .noSuchHost
      else if GoString.contains unknownAuthority (redactEmailFromError msg) then
        .err .unknownCertificateAuthority
      else .retry := rfl

theorem reportedAs_iff (pi : MailPingInformation) (cause : GoString) :
    (ReportedAs pi cause .noSuchHost ↔ Shows noSuchHost (postError pi.mailServerUrl cause)) ∧
    (ReportedAs pi cause .unknownCertificateAuthority ↔
      ¬Shows noSuchHost (postError pi.mailServerUrl cause) ∧
        Shows unknownAuthority (postError pi.mailServerUrl cause)) := by
  rw [← contains_redact_iff phrase_noSuchHost, ← contains_redact_iff phrase_unknownAuthority,
    ReportedAs, ReportedAs, respond_failed]
  by_cases hhost : GoString.contains noSuchHost
      (redactEmailFromError (postError pi.mailServerUrl cause))
  · simp [hhost, verdict]
  · by_cases hauth : GoString.contains unknownAuthority
        (redactEmailFromError (postError pi.mailServerUrl cause))
    · simp [hhost, hauth, verdict]
    · simp [hhost, hauth]

/-- An error is reported by its cause exactly when the cause shows: a `User=` before it is followed
by an ampersand before the cause begins. -/
theorem reported_iff (pi : MailPingInformation) (cause : GoString) :
    Reported pi cause ↔
      (GoString.contains noSuchHost cause →
        Shows noSuchHost (postError pi.mailServerUrl cause)) ∧
      (¬GoString.contains noSuchHost cause → GoString.contains unknownAuthority cause →
        ¬Shows noSuchHost (postError pi.mailServerUrl cause) ∧
          Shows unknownAuthority (postError pi.mailServerUrl cause)) := by
  obtain ⟨hhost, hauth⟩ := reportedAs_iff pi cause
  rw [Reported, hhost, hauth]

/-- A registration whose URL ends with the user. -/
def userLast : MailPingInformation where
  mailServerUrl := GoString.lit "https://mail.a.com/as?Cmd=Ping&User=bob"

/-- The name of the server cannot be resolved, and the request is tried again for ever. -/
theorem no_such_host_retried :
    GoString.contains noSuchHost (GoString.lit "dial tcp: lookup mail.a.com: no such host") ∧
      respond userLast (.failed (postError userLast.mailServerUrl
        (GoString.lit "dial tcp: lookup mail.a.com: no such host"))) = .retry ∧
      ¬Reported userLast (GoString.lit "dial tcp: lookup mail.a.com: no such host") := by
  have hin : GoString.contains noSuchHost
      (GoString.lit "dial tcp: lookup mail.a.com: no such host") := by decide +kernel
  have hretry : respond userLast (.failed (postError userLast.mailServerUrl
      (GoString.lit "dial tcp: lookup mail.a.com: no such host"))) = .retry := by rfl
  refine ⟨hin, hretry, fun h => ?_⟩
  have herr := (h.1 hin).1
  rw [hretry] at herr
  cases herr

end Pinger.Exchange
