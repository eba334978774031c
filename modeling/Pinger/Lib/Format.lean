import Mathlib.Data.List.Chain
import Pinger.Lib.Json

/-! # Format texts

What the `Printf` functions of the Go package `fmt` write for a format text when there are no
arguments. A directive never finds its argument then, and a mark is written in its place. A text is
written as it is only if it has no directive: a mark is not what a directive of its length looks
like, so what follows the first directive would have to be written earlier or later than it stands
in the text, and the next percent sign is then not in its place. -/

namespace Format

open GoString (lit)

/-! ## Writing -/

def isFlag (c : Char) : Bool := c = '+' || c = '-' || c = '#' || c = ' ' || c = '0'

/-- Where a directive is read: what has been written for it, the text that follows, whether an index
has just been read, and whether all indices were good. -/
structure Directive where
  written : GoString := []
  rest : GoString
  afterIndex : Bool := false
  goodArgNum : Bool := true

namespace Directive

/-- `argNumber`: an index in brackets is never good, and one that is not closed is the bracket. -/
def argNumber (d : Directive) : Directive :=
  match d.rest with
  | '[' :: s =>
    { d with
      rest := if ']' ∈ s then (s.dropWhile (· ≠ ']')).drop 1 else s
      afterIndex := true
      goodArgNum := false }
  | _ => { d with afterIndex := false }

def width (d : Directive) : Directive :=
  match d.rest with
  | '*' :: s => { d with written := d.written ++ lit "%!(BADWIDTH)", rest := s, afterIndex := false }
  | s =>
    { d with
      rest := s.dropWhile GoString.isDigit
      goodArgNum := d.goodArgNum && !(d.afterIndex && !(s.takeWhile GoString.isDigit).isEmpty) }

def precision (d : Directive) : Directive :=
  match d.rest with
  | '.' :: s =>
    let d := argNumber { d with rest := s, goodArgNum := d.goodArgNum && !d.afterIndex }
    match d.rest with
    | '*' :: s =>
      { d with written := d.written ++ lit "%!(BADPREC)", rest := s, afterIndex := false }
    | s => { d with rest := s.dropWhile GoString.isDigit }
  | _ => d

/-- What is written for the verb, which is a rune, and the text behind it. -/
def verb (d : Directive) : GoString × GoString :=
  match d.rest with
  | [] => (d.written ++ lit "%!(NOVERB)", [])
  | c :: s =>
    if c = '%' then (d.written ++ ['%'], s)
    else
      let n := GoString.runeTail c s
      (d.written ++ '%' :: '!' :: (GoString.toValidRune (c :: s.take n) ++
        if d.goodArgNum then lit "(MISSING)" else lit "(BADINDEX)"), s.drop n)

end Directive

/-- Where the verb is read of a directive whose text begins so. -/
def toVerb (s : GoString) : Directive :=
  let d := (Directive.argNumber { rest := s.dropWhile isFlag }).width.precision
  if d.afterIndex then d else d.argNumber

/-- What is written for a directive, from the text behind its percent sign on, and the text that
follows it. -/
def directive (s : GoString) : GoString × GoString := (toVerb s).verb

/-- What is written for a format text, `skip` bytes into it. -/
def printfFrom : (skip : Nat) → GoString → GoString
  | _, [] => []
  | 0, c :: s =>
    if c = '%' then (directive s).1 ++ printfFrom (s.length - (directive s).2.length) s
    else c :: printfFrom 0 s
  | skip + 1, _ :: s => printfFrom skip s

/-- `fmt.Sprintf(format)`, and what `fmt.Fprintf(w, format)` writes. -/
def sprintf (format : GoString) : GoString := printfFrom 0 format

example : sprintf (lit "50%, %-5.[1]*d %%, %") =
    lit "50%!,(MISSING) %!(BADPREC)%!d(BADINDEX) %, %!(NOVERB)" := by decide +kernel

/-! ## How far a directive goes -/

namespace Directive

theorem argNumber_suffix (d : Directive) : d.argNumber.rest <:+ d.rest := by
  unfold argNumber
  split
  next s hs =>
    rw [hs]
    split
    · exact (List.drop_suffix 1 _).trans ((List.dropWhile_suffix _).trans (List.suffix_cons '[' s))
    · exact List.suffix_cons '[' s
  next => exact List.suffix_rfl

theorem width_suffix (d : Directive) : d.width.rest <:+ d.rest := by
  unfold width
  split
  next s hs =>
    rw [hs]
    exact List.suffix_cons '*' s
  next => exact List.dropWhile_suffix _

theorem precision_suffix (d : Directive) : d.precision.rest <:+ d.rest := by
  unfold precision
  split
  next s hs =>
    have hindex := argNumber_suffix { d with rest := s, goodArgNum := d.goodArgNum && !d.afterIndex }
    have hdot : s <:+ d.rest := hs ▸ List.suffix_cons '.' s
    dsimp only at hindex ⊢
    split
    next s' hs' => exact ((hs' ▸ List.suffix_cons '*' s').trans hindex).trans hdot
    next => exact ((List.dropWhile_suffix _).trans hindex).trans hdot
  next => exact List.suffix_rfl

/-- The verb is read, if there is one. -/
theorem verb_suffix (d : Directive) :
    d.verb.2 <:+ d.rest ∧ (d.rest ≠ [] → d.verb.2.length < d.rest.length) := by
  unfold verb
  split
  next hs => exact ⟨List.nil_suffix, fun hne => absurd hs hne⟩
  next c s hs =>
    rw [hs]
    split
    · exact ⟨List.suffix_cons c s, fun _ => Nat.lt_succ_self _⟩
    · refine ⟨(List.drop_suffix _ s).trans (List.suffix_cons c s), fun _ => ?_⟩
      rw [List.length_drop, List.length_cons]
      omega

end Directive

theorem toVerb_suffix (s : GoString) : (toVerb s).rest <:+ s := by
  have hindex := Directive.argNumber_suffix { rest := s.dropWhile isFlag }
  have hprecision := ((Directive.precision_suffix _).trans (Directive.width_suffix _)).trans hindex
  have hflags : s.dropWhile isFlag <:+ s := List.dropWhile_suffix _
  unfold toVerb
  dsimp only
  split
  · exact hprecision.trans hflags
  · exact (Directive.argNumber_suffix _).trans (hprecision.trans hflags)

theorem directive_suffix (s : GoString) : (directive s).2 <:+ s :=
  (toVerb s).verb_suffix.1.trans (toVerb_suffix s)

/-- A directive takes something of a text that is not empty. -/
theorem directive_length (h : s ≠ []) : (directive s).2.length < s.length := by
  have hle := (toVerb_suffix s).length_le
  by_cases hrest : (toVerb s).rest = []
  · have hnil := (toVerb s).verb_suffix.1.length_le
    rw [hrest] at hnil
    have := List.length_pos_of_ne_nil h
    exact Nat.lt_of_le_of_lt hnil this
  · exact Nat.lt_of_lt_of_le ((toVerb s).verb_suffix.2 hrest) hle

/-! ## What is written for a directive -/

/-- The text begins with a percent sign, and every one in it is the last character or followed by an
exclamation mark. -/
structure Mark (e : GoString) : Prop where
  head : e.head? = some '%'
  chain : e.IsChain fun c d => c = '%' → d = '!'

/-- A text without percent signs in front. -/
theorem isChain_append {t : GoString} (h : '%' ∉ s) (ht : t.IsChain fun c d => c = '%' → d = '!') :
    (s ++ t).IsChain fun c d => c = '%' → d = '!' := by
  induction s with
  | nil => exact ht
  | cons c s ih =>
    have hc : c ≠ '%' := fun e => h (e ▸ List.mem_cons_self)
    exact (ih fun hm => h (List.mem_cons_of_mem c hm)).cons fun d _ e => absurd e hc

theorem mark_bang (h : '%' ∉ s) (ht : t.IsChain fun c d => c = '%' → d = '!') :
    Mark ('%' :: '!' :: (s ++ t)) := by
  refine ⟨rfl, ?_⟩
  have hbang : '%' ∉ '!' :: s := by simpa using h
  exact (isChain_append hbang ht).cons fun d hd _ => by simpa using hd.symm

/-- The text may stand in front of a mark: the whole is a mark again. -/
def Leads (written : GoString) : Prop := ∀ t, Mark t → Mark (written ++ t)

theorem leads_nil : Leads [] := fun _ ht => ht

theorem Leads.append (hw : Leads w) (hv : Leads v) : Leads (w ++ v) := fun t ht => by
  rw [List.append_assoc]
  exact hw _ (hv t ht)

theorem leads_badWidth : Leads (lit "%!(BADWIDTH)") := fun _ ht =>
  mark_bang (s := lit "(BADWIDTH)") (by decide) ht.chain

theorem leads_badPrec : Leads (lit "%!(BADPREC)") := fun _ ht =>
  mark_bang (s := lit "(BADPREC)") (by decide) ht.chain

/-- A rune other than the percent sign has no percent sign in it. -/
theorem percent_not_mem_rune (hc : c ≠ '%') (s : GoString) :
    '%' ∉ GoString.toValidRune (c :: s.take (GoString.runeTail c s)) := by
  have hrune : '%' ∉ c :: s.take (GoString.runeTail c s) := by
    intro hmem
    rcases List.mem_cons.mp hmem with h | h
    · exact hc h.symm
    · have hne : GoString.runeTail c s ≠ 0 := by
        intro hzero
        rw [hzero] at h
        cases h
      exact absurd ((GoString.runeTail_spec hne).2.2 _ h) (by decide)
  rw [GoString.toValidRune]
  split
  · exact hrune
  · decide

namespace Directive

theorem argNumber_written (d : Directive) : d.argNumber.written = d.written := by
  unfold argNumber
  split <;> rfl

theorem width_leads {d : Directive} (h : Leads d.written) : Leads d.width.written := by
  unfold width
  split
  · exact h.append leads_badWidth
  · exact h

theorem precision_leads {d : Directive} (h : Leads d.written) : Leads d.precision.written := by
  unfold precision
  split
  next s hs =>
    have hindex : Leads (argNumber
        { d with rest := s, goodArgNum := d.goodArgNum && !d.afterIndex }).written := by
      rw [argNumber_written]
      exact h
    dsimp only at hindex ⊢
    split
    · exact hindex.append leads_badPrec
    · exact hindex
  next => exact h

theorem verb_mark {d : Directive} (h : Leads d.written) : Mark d.verb.1 := by
  unfold verb
  split
  next => exact h _ (mark_bang (s := lit "(NOVERB)") (t := []) (by decide) .nil)
  next c s hs =>
    split
    · exact h _ ⟨rfl, .singleton _⟩
    next hc =>
      refine h _ (mark_bang (percent_not_mem_rune hc s) ?_)
      split <;> decide

end Directive

theorem directive_mark (s : GoString) : Mark (directive s).1 := by
  have hprecision : Leads
      (Directive.argNumber { rest := s.dropWhile isFlag }).width.precision.written := by
    refine Directive.precision_leads (Directive.width_leads ?_)
    rw [Directive.argNumber_written]
    exact leads_nil
  refine Directive.verb_mark ?_
  unfold toVerb
  dsimp only
  split
  · exact hprecision
  · rw [Directive.argNumber_written]
    exact hprecision

theorem directive_nil : directive [] = (lit "%!(NOVERB)", []) := by decide

/-- What a mark begins with is a directive by itself. -/
theorem directive_bang (s : GoString) : directive ('!' :: s) = (lit "%!!(MISSING)", s) := rfl

/-- A directive, from the text behind its percent sign on. -/
structure Reads (s d e s' : GoString) : Prop where
  text : s = d ++ s'
  written : directive s = ('%' :: e, s')
  chain : ('%' :: e).IsChain fun c d => c = '%' → d = '!'

theorem reads (s : GoString) : ∃ d e s', Reads s d e s' := by
  obtain ⟨d, hd⟩ := directive_suffix s
  obtain ⟨hhead, hchain⟩ := directive_mark s
  obtain ⟨e, he⟩ := List.head?_eq_some_iff.mp hhead
  exact ⟨d, e, (directive s).2, hd.symm, Prod.ext he rfl, he ▸ hchain⟩

namespace Reads

variable {s d e s' : GoString}

/-- The directive is all of the text, which is empty, or is not empty itself. -/
theorem cases_text (h : Reads s d e s') : s = [] ∧ e = lit "!(NOVERB)" ∨ d ≠ [] := by
  by_cases hs : s = []
  · have hw := h.written
    rw [hs, directive_nil] at hw
    exact .inl ⟨hs, (List.cons.inj (Prod.mk.inj hw).1).2.symm⟩
  · have hlen := directive_length hs
    rw [h.written] at hlen
    refine .inr fun hd => ?_
    have htext := h.text
    rw [hd, List.nil_append] at htext
    rw [htext] at hlen
    exact Nat.lt_irrefl _ hlen

/-- The directive that begins with an exclamation mark. -/
theorem of_bang (h : Reads s ('!' :: d) e s') : d = [] ∧ e = lit "!!(MISSING)" := by
  have hw := h.written
  rw [h.text, List.cons_append, directive_bang] at hw
  obtain ⟨he, hs'⟩ := Prod.mk.inj hw
  exact ⟨List.append_left_eq_self.mp hs', (List.cons.inj he).2.symm⟩

/-- What is written has no copy of the directive behind its first percent sign. -/
theorem no_copy (h : Reads s d e s') (a b : GoString) : e ≠ a ++ '%' :: (d ++ b) := by
  intro he
  have hmem : '%' ∈ e := he ▸ List.mem_append_right a List.mem_cons_self
  rcases h.cases_text with ⟨-, hnoverb⟩ | hd
  · rw [hnoverb] at hmem
    exact absurd hmem (by decide)
  · obtain ⟨c, d, rfl⟩ := List.exists_cons_of_ne_nil hd
    have hchain := h.chain
    rw [he, ← List.cons_append, List.isChain_append] at hchain
    have hbang : c = '!' := (List.isChain_cons_cons.mp hchain.2.1).1 rfl
    subst hbang
    rw [h.of_bang.2] at hmem
    exact absurd hmem (by decide)

end Reads

/-! ## What is written for a text -/

theorem printfFrom_eq (skip : Nat) (s : GoString) : printfFrom skip s = sprintf (s.drop skip) := by
  induction s generalizing skip with
  | nil => cases skip <;> rfl
  | cons c s ih =>
    cases skip with
    | zero => rfl
    | succ skip => exact ih skip

theorem sprintf_cons (hc : c ≠ '%') (s : GoString) : sprintf (c :: s) = c :: sprintf s := by
  rw [sprintf, printfFrom, if_neg hc]
  rfl

theorem sprintf_percent (h : Reads s d e s') : sprintf ('%' :: s) = '%' :: e ++ sprintf s' := by
  rw [sprintf, printfFrom, if_pos rfl, printfFrom_eq, h.written, h.text]
  simp

/-- A front part without percent signs is written as it is. -/
theorem sprintf_append (h : '%' ∉ a) (s : GoString) : sprintf (a ++ s) = a ++ sprintf s := by
  induction a with
  | nil => rfl
  | cons c a ih =>
    rw [List.cons_append, sprintf_cons (fun e => h (e ▸ List.mem_cons_self)),
      ih fun hm => h (List.mem_cons_of_mem c hm), List.cons_append]

theorem sprintf_of_not_mem (h : '%' ∉ s) : sprintf s = s := by
  simpa [sprintf, printfFrom] using sprintf_append h []

/-- What is written does not lag behind the text. -/
theorem sprintf_ne_append (s : GoString) {w : GoString} (hw : w ≠ []) : sprintf s ≠ w ++ s := by
  induction hn : s.length using Nat.strong_induction_on generalizing s w with
  | _ n ih =>
  intro heq
  by_cases hs : '%' ∈ s
  · obtain ⟨l, r, rfl, hl⟩ := List.eq_append_cons_of_mem hs
    obtain ⟨d, e, r', hr⟩ := reads r
    rw [sprintf_append hl, sprintf_percent hr, List.cons_append] at heq
    -- the first percent sign is one of `w`
    by_cases hw' : '%' ∈ w
    · obtain ⟨w₁, w₂, rfl, hw₁⟩ := List.eq_append_cons_of_mem hw'
      rw [List.append_assoc, List.cons_append] at heq
      obtain ⟨-, htail⟩ := GoString.first_sep_inj heq hl hw₁
      have htail : e ++ sprintf r' = (w₂ ++ l ++ '%' :: d) ++ r' := by
        rw [htail, hr.text]
        simp
      rcases List.append_eq_append_iff.mp htail with ⟨x, hx, hout⟩ | ⟨x, hx, -⟩
      · by_cases hnil : x = []
        · rw [hnil, List.append_nil] at hx
          exact hr.no_copy (w₂ ++ l) [] (by rw [List.append_nil, hx])
        · have hlen : r'.length < n := by
            rw [← hn, hr.text]
            simp only [List.length_append, List.length_cons]
            omega
          exact ih r'.length hlen r' hnil rfl hout
      · exact hr.no_copy (w₂ ++ l) x (by rw [hx]; simp)
    · have hfront : '%' ∉ w ++ l := fun hm => (List.mem_append.mp hm).elim hw' hl
      rw [← List.append_assoc] at heq
      have hlen := congrArg List.length (GoString.first_sep_inj heq hl hfront).1
      rw [List.length_append] at hlen
      have := List.length_pos_of_ne_nil hw
      omega
  · rw [sprintf_of_not_mem hs] at heq
    have hlen := congrArg List.length heq
    rw [List.length_append] at hlen
    have := List.length_pos_of_ne_nil hw
    omega

/-- What is written is not ahead of the text. -/
theorem ne_append_sprintf (s : GoString) {w : GoString} (hw : w ≠ []) (hpercent : '%' ∉ w) :
    s ≠ w ++ sprintf s := by
  intro heq
  have hpos := List.length_pos_of_ne_nil hw
  by_cases hs : '%' ∈ s
  · obtain ⟨l, r, rfl, hl⟩ := List.eq_append_cons_of_mem hs
    obtain ⟨d, e, r', hr⟩ := reads r
    rw [sprintf_append hl, sprintf_percent hr, List.cons_append, ← List.append_assoc] at heq
    have hfront : '%' ∉ w ++ l := fun hm => (List.mem_append.mp hm).elim hpercent hl
    have hlen := congrArg List.length (GoString.first_sep_inj heq hl hfront).1
    rw [List.length_append] at hlen
    omega
  · rw [sprintf_of_not_mem hs] at heq
    have hlen := congrArg List.length heq
    rw [List.length_append] at hlen
    omega

/-- A text is written as it is exactly when it has no percent sign. -/
theorem sprintf_eq_self_iff : sprintf s = s ↔ '%' ∉ s := by
  refine ⟨fun heq hs => ?_, sprintf_of_not_mem⟩
  obtain ⟨l, r, rfl, hl⟩ := List.eq_append_cons_of_mem hs
  obtain ⟨d, e, r', hr⟩ := reads r
  rw [sprintf_append hl, sprintf_percent hr] at heq
  have htail : e ++ sprintf r' = d ++ r' :=
    (List.cons.inj (List.append_cancel_left heq)).2.trans hr.text
  rcases hr.cases_text with ⟨rfl, rfl⟩ | hd
  · obtain ⟨rfl, rfl⟩ := List.append_eq_nil_iff.mp hr.text.symm
    cases htail
  · cases e with
    | nil => exact sprintf_ne_append r' hd htail
    | cons c e =>
      obtain ⟨x, d, rfl⟩ := List.exists_cons_of_ne_nil hd
      have hbang : c = '!' := (List.isChain_cons_cons.mp hr.chain).1 rfl
      obtain ⟨hx, htail'⟩ := List.cons.inj htail
      obtain rfl : x = '!' := hx.symm.trans hbang
      obtain ⟨rfl, he⟩ := hr.of_bang
      obtain ⟨-, rfl⟩ := List.cons.inj he
      exact ne_append_sprintf r' (List.cons_ne_nil _ _) (by decide) htail'.symm

end Format
