import Pinger.Imap.Command
import Pinger.Lib.Numeral

/-! # What the parsers accept

`parseEXAMINEResponse` and `parseIDLEResponse` look at the tokens of a line by their index and leave
the number to `strconv.Atoi`. They read exactly the lines of their grammar, and panic or misread on
the others of a few kinds: an untagged line with fewer than three tokens, a `[UIDNEXT` without a
value, and a number that is signed or too large for a `uint32`. -/

namespace Pinger.Imap

open GoString (Denotes)

def star : GoString := GoString.lit "*"
def existsToken : GoString := GoString.lit "EXISTS"
def expungeToken : GoString := GoString.lit "EXPUNGE"
def uidNextToken : GoString := GoString.lit "[UIDNEXT"

theorem existsToken_ne_nil : existsToken ≠ [] := by decide
theorem expungeToken_ne_nil : expungeToken ≠ [] := by decide
theorem uidNextToken_ne_nil : uidNextToken ≠ [] := by decide
theorem uidNextToken_ne_existsToken : uidNextToken ≠ existsToken := by decide
theorem existsToken_ne_expungeToken : existsToken ≠ expungeToken := by decide

theorem processIDLE_some (sh : Shared) (o : Option Nat) (count : Nat) (token : GoString) :
    processIDLE sh o (some (count, token)) =
      if token = expungeToken then
        ({ sh with existsCount := (sh.existsCount + (2 ^ 32 - 1)) % 2 ^ 32 }, true)
      else if token = existsToken ∧ count ≠ sh.existsCount then
        sendDone { sh with hasNewEmail := true, existsCount := count } o
      else (sh, true) := rfl

theorem processEXAMINE_some (sh : Shared) (count : Nat) (token : GoString) :
    processEXAMINE sh (some (count, token)) =
      if token = existsToken then ({ sh with existsCount := count }, true)
      else if token = uidNextToken then ({ sh with uidNext := count }, true)
      else (sh, true) := rfl

/-! ## Numbers -/

/-- A numeral for a value of type `uint32`. -/
def Counts (token : GoString) (v : Nat) : Prop := Denotes token v ∧ v < 2 ^ 32

/-- A number that `strconv.Atoi` reads although it is no numeral for a `uint32`: it is too large, or
has a sign. -/
def OddNumber (token : GoString) : Prop :=
  (∃ n, Denotes token n ∧ 2 ^ 32 ≤ n ∧ n < 2 ^ 63) ∨
    ∃ c t n, token = c :: t ∧ Denotes t n ∧ (c = '+' ∧ n < 2 ^ 63 ∨ c = '-' ∧ n ≤ 2 ^ 63)

theorem OddNumber.not_counts (h : OddNumber token) (v : Nat) : ¬Counts token v := by
  rintro ⟨hd, hlt⟩
  rcases h with ⟨n, hn, hle, -⟩ | ⟨c, t, n, rfl, -, ⟨rfl, -⟩ | ⟨rfl, -⟩⟩
  · cases hn.unique hd
    omega
  · exact GoString.not_denotes_cons rfl hd
  · exact GoString.not_denotes_cons rfl hd

theorem parseCount_of_counts (h : Counts token v) : parseCount token = some v := by
  have hv : GoString.atoi token = some (v : Int) :=
    GoString.atoi_eq_some.mpr (.inl ⟨v, h.1, by have := h.2; omega, rfl⟩)
  rw [parseCount, hv, Option.map_some, GoString.toUint32]
  have := h.2
  congr 1
  omega

theorem parseCount_isSome : (parseCount token).isSome ↔ (∃ v, Counts token v) ∨ OddNumber token := by
  rw [parseCount, Option.isSome_map, Option.isSome_iff_exists]
  constructor
  · rintro ⟨v, hv⟩
    rcases GoString.atoi_eq_some.mp hv with ⟨n, hn, hlt, -⟩ | ⟨t, n, rfl, hn, hlt, -⟩ |
      ⟨t, n, rfl, hn, hlt, -⟩
    · by_cases hn' : n < 2 ^ 32
      · exact .inl ⟨n, hn, hn'⟩
      · exact .inr (.inl ⟨n, hn, by omega, hlt⟩)
    · exact .inr (.inr ⟨'+', t, n, rfl, hn, .inl ⟨rfl, hlt⟩⟩)
    · exact .inr (.inr ⟨'-', t, n, rfl, hn, .inr ⟨rfl, by omega⟩⟩)
  · rintro (⟨v, hd, hlt⟩ | ⟨n, hn, -, hlt⟩ | ⟨c, t, n, rfl, hn, ⟨rfl, hlt⟩ | ⟨rfl, hle⟩⟩)
    · exact ⟨v, GoString.atoi_eq_some.mpr (.inl ⟨v, hd, by omega, rfl⟩)⟩
    · exact ⟨n, GoString.atoi_eq_some.mpr (.inl ⟨n, hn, hlt, rfl⟩)⟩
    · exact ⟨n, GoString.atoi_eq_some.mpr (.inr (.inl ⟨t, n, rfl, hn, hlt, rfl⟩))⟩
    · exact ⟨-n, GoString.atoi_eq_some.mpr (.inr (.inr ⟨t, n, rfl, hn, by omega, rfl⟩))⟩

/-! ## Reading a line exactly -/

/-- The parser returns; it returns a count with a token when the line says so, and `(0, "")` when it
says nothing. -/
structure Exact (result : Option (Nat × GoString)) (reports : Nat → GoString → Prop) : Prop where
  returns : ∃ r, result = some r
  reports_iff : ∀ v token, token ≠ [] → (result = some (v, token) ↔ reports v token)
  otherwise : (∀ v token, ¬reports v token) → result = some (0, [])

theorem not_exact_none : ¬Exact none reports := fun h => by
  obtain ⟨r, hr⟩ := h.returns
  cases hr

theorem exact_nothing (h : ∀ v token, ¬reports v token) : Exact (some (0, [])) reports where
  returns := ⟨_, rfl⟩
  reports_iff v token hne := by
    refine ⟨fun he => ?_, fun hs => absurd hs (h v token)⟩
    cases he
    exact absurd rfl hne
  otherwise _ := rfl

/-- The result when the number is `num` and the token `token`. -/
def counted (num token : GoString) : Option (Nat × GoString) :=
  match parseCount num with
  | some n => some (n, token)
  | none => some (0, [])

/-- A line whose number is `num` is read exactly unless the number is odd. -/
theorem exact_counted (hne : token ≠ [])
    (hreports : ∀ v token', reports v token' ↔ token' = token ∧ Counts num v) :
    Exact (counted num token) reports ↔ ¬OddNumber num := by
  constructor
  · intro h hodd
    obtain ⟨v, hv⟩ := Option.isSome_iff_exists.mp (parseCount_isSome.mpr (.inr hodd))
    have hres : counted num token = some (v, token) := by rw [counted, hv]
    exact hodd.not_counts v ((hreports v token).mp ((h.reports_iff v token hne).mp hres)).2
  · intro hodd
    by_cases hc : ∃ v, Counts num v
    · obtain ⟨v, hv⟩ := hc
      have hres : counted num token = some (v, token) := by
        rw [counted, parseCount_of_counts hv]
      refine ⟨⟨_, hres⟩, fun v' token' _ => ?_, fun hno => ?_⟩
      · rw [hres, hreports]
        constructor
        · intro he
          cases he
          exact ⟨rfl, hv⟩
        · rintro ⟨rfl, hv'⟩
          rw [hv.1.unique hv'.1]
      · exact absurd ((hreports v token).mpr ⟨rfl, hv⟩) (hno v token)
    · have hnone : parseCount num = none := by
        rw [← Option.not_isSome_iff_eq_none, parseCount_isSome]
        exact not_or.mpr ⟨hc, hodd⟩
      have hres : counted num token = some (0, []) := by rw [counted, hnone]
      rw [hres]
      refine exact_nothing fun v token' hs => hc ⟨v, ((hreports v token').mp hs).2⟩

/-! ## EXAMINE -/

/-- The line reports the count `v` for `EXISTS` or `[UIDNEXT`. -/
inductive ExamineReports (response : GoString) (v : Nat) : GoString → Prop
  | exists (h : GoString.split ' ' response = star :: num :: existsToken :: rest)
      (hv : Counts num v) : ExamineReports response v existsToken
  | uidNext (h : GoString.split ' ' response = star :: x :: uidNextToken :: (num ++ [c]) :: rest)
      (hv : Counts num v) : ExamineReports response v uidNextToken

/-- The lines that `parseEXAMINEResponse` panics on or misreads, by their tokens. -/
inductive ExamineStray : List GoString → Prop
  | noToken : ExamineStray [star]
  | noKeyword : ExamineStray [star, x]
  | exists (h : OddNumber num) : ExamineStray (star :: num :: existsToken :: rest)
  | noValue : ExamineStray [star, x, uidNextToken]
  | emptyValue : ExamineStray (star :: x :: uidNextToken :: [] :: rest)
  | uidNext (h : OddNumber num) : ExamineStray (star :: x :: uidNextToken :: (num ++ [c]) :: rest)

theorem counted_eq (num token : GoString) :
    (if num = [] then some (0, []) else match parseCount num with
      | some n => some (n, token)
      | none => some (0, [])) = counted num token := by
  split
  next hn =>
    subst hn
    rfl
  next => rfl

/-- A line whose first token is no star says nothing. -/
theorem parseEXAMINE_tagged (h : GoString.split ' ' response = t :: ts) (ht : t ≠ star) :
    parseEXAMINEResponse response = some (0, []) := by
  simp only [parseEXAMINEResponse, h, List.head?_cons, Option.some.injEq]
  exact if_neg ht

theorem parseEXAMINE_short (h : GoString.split ' ' response = star :: ts) (hts : ts.length < 2) :
    parseEXAMINEResponse response = none := by
  have hts' : ts[1]? = none := List.getElem?_eq_none (by omega)
  simp only [parseEXAMINEResponse, h, List.head?_cons, List.getElem?_cons_succ, hts']
  exact if_pos rfl

theorem parseEXAMINE_long (h : GoString.split ' ' response = star :: x :: token :: rest) :
    parseEXAMINEResponse response =
      if token = existsToken then counted x token
      else if token = uidNextToken then
        (rest[0]?).bind fun t => if t = [] then none else counted t.dropLast token
      else some (0, []) := by
  simp only [parseEXAMINEResponse, h, List.head?_cons, List.getElem?_cons_succ,
    List.getElem?_cons_zero]
  refine (if_pos rfl).trans ?_
  simp only [Option.bind_eq_bind, Option.bind_some, Option.bind_none, if_true]
  refine if_congr Iff.rfl (counted_eq x token) (if_congr Iff.rfl ?_ rfl)
  exact congrArg (rest[0]?).bind
    (funext fun t => if_congr Iff.rfl rfl (counted_eq t.dropLast token))

/-- What a line that begins with a star and two more tokens reports. -/
theorem examineReports_iff (h : GoString.split ' ' response = star :: x :: token :: rest) :
    ExamineReports response v token' ↔ token' = token ∧
      (token = existsToken ∧ Counts x v ∨
        token = uidNextToken ∧ ∃ num c, rest[0]? = some (num ++ [c]) ∧ Counts num v) := by
  constructor
  · rintro (⟨h', hv⟩ | ⟨h', hv⟩)
    · cases h.symm.trans h'
      exact ⟨rfl, .inl ⟨rfl, hv⟩⟩
    · cases h.symm.trans h'
      exact ⟨rfl, .inr ⟨rfl, _, _, rfl, hv⟩⟩
  · rintro ⟨rfl, ⟨rfl, hv⟩ | ⟨rfl, num, c, hrest, hv⟩⟩
    · exact .exists h hv
    · cases rest with
      | nil => cases hrest
      | cons t rest =>
        cases hrest
        exact .uidNext h hv

theorem examineStray_iff : ExamineStray (star :: x :: token :: rest) ↔
    token = existsToken ∧ OddNumber x ∨ token = uidNextToken ∧
      (rest[0]? = none ∨ rest[0]? = some [] ∨
        ∃ num c, rest[0]? = some (num ++ [c]) ∧ OddNumber num) := by
  constructor
  · intro h
    cases h with
    | «exists» h => exact .inl ⟨rfl, h⟩
    | noValue => exact .inr ⟨rfl, .inl rfl⟩
    | emptyValue => exact .inr ⟨rfl, .inr (.inl rfl)⟩
    | uidNext h => exact .inr ⟨rfl, .inr (.inr ⟨_, _, rfl, h⟩)⟩
  · rintro (⟨rfl, h⟩ | ⟨rfl, h⟩)
    · exact .exists h
    · cases rest with
      | nil => exact .noValue
      | cons t rest =>
        rcases h with h | h | ⟨num, c, h, hodd⟩
        · cases h
        · cases h
          exact .emptyValue
        · cases h
          exact .uidNext hodd

theorem ExamineReports.long (h : ExamineReports response v token) :
    ∃ x token rest, GoString.split ' ' response = star :: x :: token :: rest := by
  cases h with
  | «exists» h => exact ⟨_, _, _, h⟩
  | uidNext h => exact ⟨_, _, _, h⟩

theorem uidNext_exact_iff
    (h : GoString.split ' ' response = star :: x :: uidNextToken :: rest) :
    Exact ((rest[0]?).bind fun t => if t = [] then none else counted t.dropLast uidNextToken)
      (ExamineReports response) ↔ ¬ExamineStray (star :: x :: uidNextToken :: rest) := by
  match rest with
  | [] => exact iff_of_false not_exact_none (not_not.mpr .noValue)
  | t :: rest =>
    rcases List.eq_nil_or_concat t with rfl | ⟨num, c, rfl⟩
    · exact iff_of_false not_exact_none (not_not.mpr .emptyValue)
    · rw [List.concat_eq_append] at h ⊢
      have hne : num ++ [c] ≠ [] := by simp
      simp only [List.getElem?_cons_zero, Option.bind_some, if_neg hne, List.dropLast_concat]
      rw [exact_counted uidNextToken_ne_nil fun v token' => ?_, examineStray_iff]
      · simp [uidNextToken_ne_existsToken]
      · rw [examineReports_iff h]
        simp [uidNextToken_ne_existsToken]

theorem examine_exact_iff (response : GoString) :
    Exact (parseEXAMINEResponse response) (ExamineReports response) ↔
      ¬ExamineStray (GoString.split ' ' response) := by
  cases h : GoString.split ' ' response with
  | nil => exact absurd h (GoString.split_ne_nil ' ' response)
  | cons t ts =>
  by_cases ht : t = star
  case neg =>
    rw [parseEXAMINE_tagged h ht]
    refine ⟨fun _ hs => ?_, fun _ => exact_nothing fun v token hr => ?_⟩
    · cases hs <;> exact ht rfl
    · obtain ⟨x, token, rest, h'⟩ := hr.long
      rw [h] at h'
      exact ht (List.cons.inj h').1
  subst ht
  match ts with
  | [] =>
    rw [parseEXAMINE_short h (by simp)]
    exact iff_of_false not_exact_none (not_not.mpr .noToken)
  | [x] =>
    rw [parseEXAMINE_short h (by simp)]
    exact iff_of_false not_exact_none (not_not.mpr .noKeyword)
  | x :: token :: rest =>
    rw [parseEXAMINE_long h]
    by_cases he : token = existsToken
    · subst he
      rw [if_pos rfl, exact_counted existsToken_ne_nil fun v token' => ?_, examineStray_iff]
      · simp only [uidNextToken_ne_existsToken.symm, true_and, false_and, or_false]
      · rw [examineReports_iff h]
        simp only [uidNextToken_ne_existsToken.symm, true_and, false_and, or_false]
    · rw [if_neg he]
      by_cases hu : token = uidNextToken
      · subst hu
        rw [if_pos rfl]
        exact uidNext_exact_iff h
      · rw [if_neg hu]
        refine iff_of_true (exact_nothing fun v token' hr => ?_) fun hs => ?_
        · rcases ((examineReports_iff h).mp hr).2 with ⟨h', -⟩ | ⟨h', -⟩
          · exact he h'
          · exact hu h'
        · rcases examineStray_iff.mp hs with ⟨h', -⟩ | ⟨h', -⟩
          · exact he h'
          · exact hu h'

/-! ## IDLE -/

/-- The keyword of a line that an `IDLE` counts by. -/
def IdleToken (token : GoString) : Prop := token = existsToken ∨ token = expungeToken

/-- The line reports the number `v` for `EXISTS` or `EXPUNGE`. -/
def IdleReports (response : GoString) (v : Nat) (token : GoString) : Prop :=
  IdleToken token ∧ ∃ num rest, GoString.split ' ' response = star :: num :: token :: rest ∧
    Counts num v

/-- The lines that `parseIDLEResponse` panics on or misreads, by their tokens. -/
inductive IdleStray : List GoString → Prop
  | noToken : IdleStray [star]
  | noKeyword : IdleStray [star, x]
  | count (h : OddNumber num) (ht : IdleToken token) : IdleStray (star :: num :: token :: rest)

theorem IdleToken.ne_nil (h : IdleToken token) : token ≠ [] := by
  rcases h with rfl | rfl
  · exact existsToken_ne_nil
  · exact expungeToken_ne_nil

theorem parseIDLE_tagged (h : GoString.split ' ' response = t :: ts) (ht : t ≠ star) :
    parseIDLEResponse response = some (0, []) := by
  simp only [parseIDLEResponse, h, List.head?_cons, Option.some.injEq]
  exact if_neg ht

theorem parseIDLE_short (h : GoString.split ' ' response = star :: ts) (hts : ts.length < 2) :
    parseIDLEResponse response = none := by
  have hts' : ts[1]? = none := List.getElem?_eq_none (by omega)
  simp only [parseIDLEResponse, h, List.head?_cons, List.getElem?_cons_succ, hts']
  exact if_pos rfl

theorem parseIDLE_counted (h : GoString.split ' ' response = star :: num :: token :: rest)
    (ht : IdleToken token) : parseIDLEResponse response = counted num token := by
  simp only [parseIDLEResponse, h, List.head?_cons, List.getElem?_cons_succ,
    List.getElem?_cons_zero]
  refine (if_pos rfl).trans ?_
  simp only [Option.bind_eq_bind, Option.bind_some]
  exact if_pos ht

theorem parseIDLE_other (h : GoString.split ' ' response = star :: num :: token :: rest)
    (ht : ¬IdleToken token) : parseIDLEResponse response = some (0, []) := by
  simp only [parseIDLEResponse, h, List.head?_cons, List.getElem?_cons_succ,
    List.getElem?_cons_zero]
  refine (if_pos rfl).trans ?_
  simp only [Option.bind_eq_bind, Option.bind_some]
  exact if_neg ht

theorem idleReports_iff (h : GoString.split ' ' response = star :: num :: token :: rest)
    (ht : IdleToken token) : IdleReports response v token' ↔ token' = token ∧ Counts num v := by
  constructor
  · rintro ⟨-, num', rest', h', hv⟩
    cases h.symm.trans h'
    exact ⟨rfl, hv⟩
  · rintro ⟨rfl, hv⟩
    exact ⟨ht, num, rest, h, hv⟩

theorem idle_exact_iff (response : GoString) :
    Exact (parseIDLEResponse response) (IdleReports response) ↔
      ¬IdleStray (GoString.split ' ' response) := by
  cases h : GoString.split ' ' response with
  | nil => exact absurd h (GoString.split_ne_nil ' ' response)
  | cons t ts =>
  by_cases ht : t = star
  case neg =>
    rw [parseIDLE_tagged h ht]
    refine ⟨fun _ hs => ?_, fun _ => exact_nothing fun v token hr => ?_⟩
    · cases hs <;> exact ht rfl
    · obtain ⟨-, num, rest, h', -⟩ := hr
      rw [h] at h'
      exact ht (List.cons.inj h').1
  subst ht
  match ts with
  | [] =>
    rw [parseIDLE_short h (by simp)]
    exact iff_of_false not_exact_none (not_not.mpr .noToken)
  | [x] =>
    rw [parseIDLE_short h (by simp)]
    exact iff_of_false not_exact_none (not_not.mpr .noKeyword)
  | num :: token :: rest =>
    by_cases ht : IdleToken token
    · rw [parseIDLE_counted h ht, exact_counted ht.ne_nil fun v token' => idleReports_iff h ht]
      refine not_congr ⟨fun hodd => .count hodd ht, fun hs => ?_⟩
      cases hs
      assumption
    · rw [parseIDLE_other h ht]
      refine iff_of_true (exact_nothing fun v token' hr => ?_) fun hs => ?_
      · obtain ⟨ht', num', rest', h', -⟩ := hr
        cases h.symm.trans h'
        exact ht ht'
      · cases hs
        exact ht ‹_›

/-! ## Both parsers -/

/-- Each parser reads a line exactly as its grammar says, for every line except those of the kinds
it panics on or misreads. -/
theorem parsers_exact_iff (response : GoString) :
    (Exact (parseEXAMINEResponse response) (ExamineReports response) ↔
      ¬ExamineStray (GoString.split ' ' response)) ∧
    (Exact (parseIDLEResponse response) (IdleReports response) ↔
      ¬IdleStray (GoString.split ' ' response)) :=
  ⟨examine_exact_iff response, idle_exact_iff response⟩

/-- An untagged line of one token makes both parsers panic, and a negative number of messages is
taken for a large one. -/
theorem short_line_panics :
    ¬Exact (parseEXAMINEResponse (GoString.lit "*")) (ExamineReports (GoString.lit "*")) ∧
      ¬Exact (parseIDLEResponse (GoString.lit "*")) (IdleReports (GoString.lit "*")) ∧
      parseEXAMINEResponse (GoString.lit "*") = none ∧ parseIDLEResponse (GoString.lit "*") = none ∧
      parseIDLEResponse (GoString.lit "* -1 EXISTS") = some (2 ^ 32 - 1, existsToken) :=
  have hexamine : parseEXAMINEResponse (GoString.lit "*") = none := by decide
  have hidle : parseIDLEResponse (GoString.lit "*") = none := by decide
  ⟨hexamine ▸ not_exact_none, hidle ▸ not_exact_none, hexamine, hidle, by decide⟩

end Pinger.Imap
