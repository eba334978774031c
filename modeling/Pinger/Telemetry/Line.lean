import Mathlib.Data.Char
import Mathlib.Data.List.Lex
import Pinger.Lib.Json
import Pinger.Telemetry.Message

/-! # The line of a record

`createFilesFromMessages` encodes the fields of a record and then replaces the escapes `\r` and `\n`
in the encoded text. An escaped backslash in front of one of these letters has the same two bytes in
it, and what is left of it is no escape. -/

namespace GoString

/-- `bytes.Replace`, `skip` bytes into the text. -/
def replaceFrom (old new : GoString) : (skip : Nat) → GoString → GoString
  | _, [] => []
  | skip + 1, _ :: s => replaceFrom old new skip s
  | 0, c :: s =>
    if old.isPrefixOf (c :: s) then new ++ replaceFrom old new (old.length - 1) s
    else c :: replaceFrom old new 0 s

/-- `bytes.Replace(s, old, new, -1)` for a text `old` that is not empty. -/
def replaceAll (s old new : GoString) : GoString := replaceFrom old new 0 s

theorem replaceAll_of_not_prefix (h : old.isPrefixOf (c :: s) = false) (new : GoString) :
    replaceAll (c :: s) old new = c :: replaceAll s old new := by
  rw [replaceAll, replaceFrom, h]
  rfl

theorem replaceAll_of_ne (h : c ≠ d) (old new s : GoString) :
    replaceAll (c :: s) (d :: old) new = c :: replaceAll s (d :: old) new :=
  replaceAll_of_not_prefix (by simp [List.isPrefixOf, h.symm]) new

/-- A text of two bytes is replaced. -/
theorem replaceAll_pair (d e : Char) (new s : GoString) :
    replaceAll (d :: e :: s) [d, e] new = new ++ replaceAll s [d, e] new := by
  rw [replaceAll, replaceFrom, if_pos (by simp [List.isPrefixOf])]
  rfl

theorem mem_replaceFrom (h : c ∈ replaceFrom old new skip s) : c ∈ new ∨ c ∈ s := by
  induction s generalizing skip with
  | nil => cases skip <;> cases h
  | cons d s ih =>
    have ih : ∀ {skip}, c ∈ replaceFrom old new skip s → c ∈ new ∨ c ∈ d :: s :=
      fun h => (ih h).imp_right (List.mem_cons_of_mem d)
    cases skip with
    | zero =>
      rw [replaceFrom] at h
      split at h
      · exact (List.mem_append.mp h).elim .inl ih
      · exact (List.mem_cons.mp h).elim (fun e => .inr (e ▸ List.mem_cons_self)) ih
    | succ skip => exact ih h

end GoString

namespace Pinger.Telemetry

open GoString (lit split splitPair replaceAll)

/-! ## The line -/

def CR : GoString := ['\\', 'r']

def NL : GoString := ['\\', 'n']

/-- The fields in the order in which `json.Marshal` writes them. -/
def sortedFields (map : TelemetryLogMsgMap) : List (GoString × GoString) :=
  (map.entries.map fun field => (field.1, field.2)).insertionSort (·.1 ≤ ·.1)

def marshal (map : TelemetryLogMsgMap) : GoString := Json.encodeObject (sortedFields map)

def replaceEscapes (json : GoString) : GoString :=
  replaceAll (replaceAll json CR (lit "<CR>")) NL (lit "<NL>")

/-- What is written for a record, without the end of the line. -/
def jsonString (hostId : GoString) (now : Int) (msg : TelemetryLogMsg) : GoString :=
  replaceEscapes (marshal (toMap hostId now msg))

/-! ## The two passes -/

theorem replaceEscapes_of_ne (h : c ≠ '\\') (s : GoString) :
    replaceEscapes (c :: s) = c :: replaceEscapes s := by
  unfold replaceEscapes CR NL
  rw [GoString.replaceAll_of_ne h, GoString.replaceAll_of_ne h]

theorem replaceEscapes_append (h : '\\' ∉ a) (s : GoString) :
    replaceEscapes (a ++ s) = a ++ replaceEscapes s := by
  induction a with
  | nil => rfl
  | cons c a ih =>
    rw [List.cons_append, replaceEscapes_of_ne fun e => h (e ▸ List.mem_cons_self),
      ih fun hm => h (List.mem_cons_of_mem c hm)]
    rfl

theorem replaceEscapes_cr (s : GoString) :
    replaceEscapes ('\\' :: 'r' :: s) = lit "<CR>" ++ replaceEscapes s := by
  have hpass : replaceAll ('\\' :: 'r' :: s) CR (lit "<CR>") =
      '<' :: 'C' :: 'R' :: '>' :: replaceAll s CR (lit "<CR>") :=
    GoString.replaceAll_pair '\\' 'r' (lit "<CR>") s
  rw [replaceEscapes, hpass, NL, GoString.replaceAll_of_ne (by decide),
    GoString.replaceAll_of_ne (by decide), GoString.replaceAll_of_ne (by decide),
    GoString.replaceAll_of_ne (by decide)]
  rfl

theorem replaceEscapes_nl (s : GoString) :
    replaceEscapes ('\\' :: 'n' :: s) = lit "<NL>" ++ replaceEscapes s := by
  have hpass : replaceAll ('\\' :: 'n' :: s) CR (lit "<CR>") =
      '\\' :: 'n' :: replaceAll s CR (lit "<CR>") := by
    rw [GoString.replaceAll_of_not_prefix rfl, CR, GoString.replaceAll_of_ne (by decide)]
  rw [replaceEscapes, hpass]
  exact GoString.replaceAll_pair '\\' 'n' (lit "<NL>") _

/-- A backslash in front of another byte is left as it is, also by the second pass. -/
theorem replaceEscapes_backslash (hr : c ≠ 'r') (hn : c ≠ 'n') (s : GoString) :
    replaceEscapes ('\\' :: c :: s) = '\\' :: replaceEscapes (c :: s) := by
  have hpass : replaceAll ('\\' :: c :: s) CR (lit "<CR>") =
      '\\' :: replaceAll (c :: s) CR (lit "<CR>") :=
    GoString.replaceAll_of_not_prefix (by simp [CR, List.isPrefixOf, hr.symm]) _
  have hhead : ∃ d t, replaceAll (c :: s) CR (lit "<CR>") = d :: t ∧ d ≠ 'n' := by
    by_cases hpre : List.isPrefixOf CR (c :: s)
    · refine ⟨'<', lit "CR>" ++ GoString.replaceFrom CR (lit "<CR>") 1 s, ?_, by decide⟩
      rw [replaceAll, GoString.replaceFrom, if_pos hpre]
      rfl
    · exact ⟨c, _, GoString.replaceAll_of_not_prefix (Bool.eq_false_iff.mpr hpre) _, hn⟩
  obtain ⟨d, t, hd, hne⟩ := hhead
  rw [replaceEscapes, hpass, replaceEscapes, hd]
  exact GoString.replaceAll_of_not_prefix (by simp [NL, List.isPrefixOf, hne.symm]) _

/-! ## What a string is read back as -/

/-- The breaks of a line replaced in a text. -/
def replaceBreaks (s : GoString) : GoString :=
  s.flatMap fun c => if c = '\r' then lit "<CR>" else if c = '\n' then lit "<NL>" else [c]

/-- A backslash directly in front of an `r` or an `n`. -/
def backslashLetter : GoString → Bool
  | '\\' :: c :: s => c = 'r' || c = 'n' || backslashLetter (c :: s)
  | _ :: s => backslashLetter s
  | [] => false

theorem backslashLetter_of_ne (h : c ≠ '\\') (s : GoString) :
    backslashLetter (c :: s) = backslashLetter s := by
  cases s <;> simp [backslashLetter, h]

theorem backslashLetter_append (h : '\\' ∉ a) (s : GoString) :
    backslashLetter (a ++ s) = backslashLetter s := by
  induction a with
  | nil => rfl
  | cons c a ih =>
    rw [List.cons_append, backslashLetter_of_ne fun e => h (e ▸ List.mem_cons_self),
      ih fun hm => h (List.mem_cons_of_mem c hm)]

theorem replaceBreaks_append (a b : GoString) :
    replaceBreaks (a ++ b) = replaceBreaks a ++ replaceBreaks b := List.flatMap_append

theorem replaceBreaks_of_not_mem (hr : '\r' ∉ a) (hn : '\n' ∉ a) : replaceBreaks a = a := by
  induction a with
  | nil => rfl
  | cons c a ih =>
    rw [List.mem_cons, not_or] at hr hn
    rw [replaceBreaks, List.flatMap_cons, ← replaceBreaks, ih hr.2 hn.2, if_neg (Ne.symm hr.1),
      if_neg (Ne.symm hn.1)]
    rfl

/-- The rest of an encoded text begins with an `r` or an `n` only when the text does. -/
def Begins (X t : GoString) : Prop :=
  ∃ x s, X = x :: s ∧ (((x = 'r' ∨ x = 'n') ∧ ∃ t', t = x :: t') ∨
    (x ≠ 'r' ∧ x ≠ 'n' ∧ backslashLetter ('\\' :: t) = backslashLetter t))

/-- A rune that is encoded behind a backslash is neither letter. -/
theorem ne_letter_of_encoded {r : GoString} (hr : GoString.IsRune (c :: r))
    (henc : Json.encodeRune (c :: r) = '\\' :: s) : c ≠ 'r' ∧ c ≠ 'n' := by
  constructor
  all_goals
    rintro rfl
    rw [hr.eq_singleton List.mem_cons_self (by decide)] at henc
    exact absurd (List.cons.inj henc).1 (by decide)

variable {rs : List GoString}

theorem begins_encoded (hrs : ∀ r ∈ rs, GoString.IsRune r) (rest : GoString) :
    Begins (rs.flatMap Json.encodeRune ++ '"' :: rest) rs.flatten := by
  have hnext : ∀ c t, c ≠ 'r' → c ≠ 'n' →
      backslashLetter ('\\' :: c :: t) = backslashLetter (c :: t) := by
    intro c t hr hn
    simp [backslashLetter, hr, hn]
  cases rs with
  | nil => exact ⟨'"', rest, rfl, .inr ⟨by decide, by decide, rfl⟩⟩
  | cons r rs =>
    have hr := hrs r List.mem_cons_self
    cases r with
    | nil => exact absurd rfl hr.ne_nil
    | cons c r =>
      rw [List.flatMap_cons, List.flatten_cons]
      rcases Json.encodeRune_cases hr with ⟨henc, -, -⟩ | ⟨c', e, -, -, henc⟩ |
        ⟨x, y, z, w, henc, -⟩
      · rw [henc]
        refine ⟨c, _, rfl, ?_⟩
        by_cases hletter : c = 'r' ∨ c = 'n'
        · exact .inl ⟨hletter, _, rfl⟩
        · rw [not_or] at hletter
          exact .inr ⟨hletter.1, hletter.2, hnext _ _ hletter.1 hletter.2⟩
      all_goals
        obtain ⟨hcr, hcn⟩ := ne_letter_of_encoded hr henc
        rw [henc]
        exact ⟨'\\', _, rfl, .inr ⟨by decide, by decide, hnext _ _ hcr hcn⟩⟩

/-- The encoded text `X` of `t` is read back: as nothing when a backslash stands in front of an `r`
or an `n`, and otherwise as the valid text `u` without its breaks. -/
def ReadsBack (X t u rest : GoString) : Prop :=
  Json.decodeBody (replaceEscapes X) =
    if backslashLetter t then none else some (replaceBreaks u, rest)

namespace ReadsBack

variable {X t u : GoString}

/-- Bytes that stand for themselves are read in front of the rest. -/
theorem literals (h : ReadsBack X t u rest) {r : GoString} (hlit : ∀ c ∈ r, Json.Literal c) :
    ReadsBack (r ++ X) (r ++ t) (r ++ u) rest := by
  have hback : '\\' ∉ r := fun hm => (hlit _ hm).2.2 rfl
  have hcr : '\r' ∉ r := fun hm => absurd (hlit _ hm).1 (by decide)
  have hnl : '\n' ∉ r := fun hm => absurd (hlit _ hm).1 (by decide)
  rw [ReadsBack, replaceEscapes_append hback, backslashLetter_append hback, replaceBreaks_append,
    replaceBreaks_of_not_mem hcr hnl, Json.decodeBody_literals hlit, h]
  split <;> rfl

/-- A break is read as the text in its place. -/
theorem lineBreak (h : ReadsBack X t u rest) (hback : c ≠ '\\')
    (hescape : replaceEscapes ('\\' :: e :: X) = text ++ replaceEscapes X)
    (hlit : text.all (Json.Literal ·)) (hbreak : replaceBreaks [c] = text) :
    ReadsBack ('\\' :: e :: X) (c :: t) (c :: u) rest := by
  have hlit : ∀ c ∈ text, Json.Literal c :=
    fun c hc => of_decide_eq_true (List.all_eq_true.mp hlit c hc)
  rw [ReadsBack, hescape, Json.decodeBody_literals hlit, h, backslashLetter_of_ne hback,
    ← List.singleton_append, replaceBreaks_append, hbreak]
  split <;> rfl

/-- A backslash may begin the escape of a break with what follows it. -/
theorem backslash (h : ReadsBack X t u rest) (hX : Begins X t) :
    ReadsBack ('\\' :: '\\' :: X) ('\\' :: t) ('\\' :: u) rest := by
  rw [ReadsBack, replaceEscapes_backslash (by decide) (by decide)]
  obtain ⟨x, s, rfl, ⟨hletter, t', rfl⟩ | ⟨hr, hn, hsame⟩⟩ := hX
  · rcases hletter with rfl | rfl
    · rw [replaceEscapes_cr]; rfl
    · rw [replaceEscapes_nl]; rfl
  · rw [replaceEscapes_backslash hr hn, Json.decodeBody_escape (by decide), h, hsame]
    split <;> rfl

theorem quote (h : ReadsBack X t u rest) :
    ReadsBack ('\\' :: '"' :: X) ('"' :: t) ('"' :: u) rest := by
  rw [ReadsBack, replaceEscapes_backslash (by decide) (by decide), replaceEscapes_of_ne (by decide),
    Json.decodeBody_escape (by decide), h, backslashLetter_of_ne (by decide)]
  split <;> rfl

theorem escape (h : ReadsBack X t u rest) (hX : Begins X t) (hesc : Json.IsEscape c e) :
    ReadsBack ('\\' :: e :: X) (c :: t) (c :: u) rest := by
  simp only [Json.IsEscape, List.mem_cons, Prod.mk.injEq, List.not_mem_nil, or_false] at hesc
  rcases hesc with ⟨rfl, rfl⟩ | ⟨rfl, rfl⟩ | ⟨rfl, rfl⟩ | ⟨rfl, rfl⟩
  · exact h.quote
  · exact h.backslash hX
  · exact h.lineBreak (by decide) (replaceEscapes_nl X) (by decide) rfl
  · exact h.lineBreak (by decide) (replaceEscapes_cr X) (by decide) rfl

/-- The digits behind `\u` are read as the rune. -/
theorem unicode (h : ReadsBack X t u rest) {r v : GoString} (hback : '\\' ∉ r)
    (hdec : Json.decodeUnicode a b c d = some v)
    (hhex : ∀ x ∈ [a, b, c, d], GoString.isHexDigit x) (hnl : '\n' ∉ v) (hcr : '\r' ∉ v) :
    ReadsBack ('\\' :: 'u' :: a :: b :: c :: d :: X) (r ++ t) (v ++ u) rest := by
  have hdigits : '\\' ∉ ['u', a, b, c, d] := by
    rw [List.mem_cons, not_or]
    exact ⟨by decide, fun hm => absurd (hhex _ hm) (by decide)⟩
  have hpass : replaceEscapes ('u' :: a :: b :: c :: d :: X) =
      'u' :: a :: b :: c :: d :: replaceEscapes X := replaceEscapes_append hdigits X
  rw [ReadsBack, replaceEscapes_backslash (by decide) (by decide), hpass, Json.decodeBody_unicode,
    hdec, Option.bind_some, h, backslashLetter_append hback, replaceBreaks_append,
    replaceBreaks_of_not_mem hcr hnl]
  split <;> rfl

end ReadsBack

theorem not_mem_of_encodeRune {r : GoString} (hr : GoString.IsRune r) (hc : c.toNat < 0x80)
    (h : Json.encodeRune r ≠ Json.encodeRune [c]) : c ∉ r :=
  fun hm => h (congrArg _ (hr.eq_singleton hm hc))

/-- The runes of a string are read back. -/
theorem decodeBody_replaceEscapes (hrs : ∀ r ∈ rs, GoString.IsRune r) (rest : GoString) :
    ReadsBack (rs.flatMap Json.encodeRune ++ '"' :: rest) rs.flatten
      (rs.flatMap GoString.toValidRune) (replaceEscapes rest) := by
  induction rs with
  | nil =>
    rw [ReadsBack, List.flatMap_nil, List.nil_append, replaceEscapes_of_ne (by decide)]
    rfl
  | cons r rs ih =>
    have hr := hrs r List.mem_cons_self
    have hrs' : ∀ r ∈ rs, GoString.IsRune r := fun r h => hrs r (List.mem_cons_of_mem _ h)
    have ih := ih hrs'
    have hX := begins_encoded hrs' rest
    rw [List.flatMap_cons, List.flatten_cons, List.flatMap_cons, List.append_assoc]
    rcases Json.encodeRune_cases hr with ⟨henc, hvalid, hlit⟩ | ⟨c, e, rfl, hesc, henc⟩ |
      ⟨a, b, c, d, henc, hdec, hhex, hnl, hcr⟩
    · rw [henc, hvalid]
      exact ih.literals hlit
    · rw [henc, Json.toValidRune_of_isEscape hesc]
      exact ih.escape hX hesc
    · have hback : '\\' ∉ r := not_mem_of_encodeRune hr (by decide) <| by
        rw [henc, show Json.encodeRune ['\\'] = ['\\', '\\'] from rfl]
        simp
      rw [henc]
      exact ih.unicode hback hdec hhex hnl hcr

/-! ## What a line is read back as -/

theorem decodeString_replaceEscapes (s rest : GoString) :
    Json.decodeString (replaceEscapes (Json.encodeString s ++ rest)) =
      if backslashLetter s then none
      else some (replaceBreaks (GoString.toValid s), replaceEscapes rest) := by
  have htext : Json.encodeString s ++ rest = '"' :: (Json.encodeBody s ++ '"' :: rest) := by
    simp [Json.encodeString]
  have h := decodeBody_replaceEscapes (fun _ => GoString.isRune_of_mem (s := s)) rest
  rw [GoString.flatten_runes] at h
  rw [htext, replaceEscapes_of_ne (by decide)]
  exact h

/-- The member can be read back. -/
def Readable (member : GoString × GoString) : Prop :=
  backslashLetter member.1 = false ∧ backslashLetter member.2 = false

instance (member : GoString × GoString) : Decidable (Readable member) :=
  inferInstanceAs (Decidable (_ ∧ _))

/-- The member that is read back. -/
def readBack (member : GoString × GoString) : GoString × GoString :=
  (replaceBreaks (GoString.toValid member.1), replaceBreaks (GoString.toValid member.2))

theorem decodeMember_replaceEscapes (member : GoString × GoString) (rest : GoString) :
    Json.decodeMember (replaceEscapes (Json.encodeMember member ++ rest)) =
      if Readable member then some (readBack member, replaceEscapes rest) else none := by
  obtain ⟨key, value⟩ := member
  rw [Json.encodeMember, List.append_assoc, Json.decodeMember, decodeString_replaceEscapes]
  dsimp only [Readable, readBack]
  rw [List.cons_append, replaceEscapes_of_ne (by decide)]
  by_cases hkey : backslashLetter key
  · simp [hkey]
  · by_cases hvalue : backslashLetter value <;> simp [hkey, decodeString_replaceEscapes, hvalue]

/-- The members are read back when there is enough fuel. -/
theorem decodeMembers_replaceEscapes {members : List (GoString × GoString)} (hne : members ≠ [])
    (hn : members.length ≤ n) :
    Json.decodeMembers n (replaceEscapes
        ([','].intercalate (members.map Json.encodeMember) ++ ['\x7d'])) =
      if ∀ member ∈ members, Readable member then some (members.map readBack) else none := by
  induction members generalizing n with
  | nil => exact absurd rfl hne
  | cons member members ih =>
    cases n with
    | zero => cases hn
    | succ n =>
      cases members with
      | nil =>
        have h := decodeMember_replaceEscapes member ['\x7d']
        rw [replaceEscapes_of_ne (by decide), show replaceEscapes [] = [] from rfl] at h
        rw [List.map_singleton, List.intercalate_singleton]
        split at h
        next hm => rw [Json.decodeMembers_last h, if_pos (by simpa using hm)]; rfl
        next hm => rw [Json.decodeMembers_none h, if_neg (by simpa using hm)]
      | cons member' members =>
        have ih := ih (List.cons_ne_nil _ _) (Nat.le_of_succ_le_succ hn)
        have h := decodeMember_replaceEscapes member
          (',' :: ([','].intercalate ((member' :: members).map Json.encodeMember) ++ ['\x7d']))
        rw [replaceEscapes_of_ne (by decide)] at h
        rw [List.map_cons, List.intercalate_cons_of_ne_nil (by simp), List.append_assoc,
          List.append_assoc, List.singleton_append]
        simp only [List.forall_mem_cons (a := member)]
        split at h
        next hm =>
          simp only [Json.decodeMembers_more h, ih, hm, true_and]
          split <;> rfl
        next hm => simp only [Json.decodeMembers_none h, hm, false_and, if_false]

theorem length_replaceFrom (hold : old ≠ []) (hlen : old.length ≤ new.length) :
    s.length ≤ (GoString.replaceFrom old new skip s).length + skip := by
  induction s generalizing skip with
  | nil => exact Nat.zero_le _
  | cons c s ih =>
    cases skip with
    | zero =>
      rw [GoString.replaceFrom]
      split
      · have hpos := List.length_pos_iff.mpr hold
        have := @ih (old.length - 1)
        rw [List.length_append, List.length_cons]
        omega
      · have := @ih 0
        simp only [List.length_cons]
        omega
    | succ skip =>
      have := @ih skip
      rw [GoString.replaceFrom, List.length_cons]
      omega

theorem length_replaceAll (hold : old ≠ []) (hlen : old.length ≤ new.length) (s : GoString) :
    s.length ≤ (replaceAll s old new).length := by
  have h : s.length ≤ (GoString.replaceFrom old new 0 s).length + 0 := length_replaceFrom hold hlen
  exact h

theorem length_replaceEscapes (s : GoString) : s.length ≤ (replaceEscapes s).length :=
  (length_replaceAll (by decide) (by decide) s).trans
    (length_replaceAll (by decide) (by decide) (replaceAll s CR (lit "<CR>")))

theorem decodeObject_replaceEscapes (members : List (GoString × GoString)) :
    Json.decodeObject (replaceEscapes (Json.encodeObject members)) =
      if ∀ member ∈ members, Readable member then some (members.map readBack) else none := by
  rw [Json.encodeObject, List.cons_append, replaceEscapes_of_ne (by decide)]
  cases members with
  | nil => rfl
  | cons member members =>
    have hmembers : (member :: members).length ≤ _ := Json.length_members_le ['\x7d']
    have hlen := hmembers.trans (length_replaceEscapes _)
    have hhead : ∃ t, [','].intercalate ((member :: members).map Json.encodeMember) ++ ['\x7d'] =
        '"' :: t := by
      cases members with
      | nil => exact ⟨_, rfl⟩
      | cons member' members =>
        exact ⟨_, by rw [List.map_cons, List.map_cons, List.intercalate_cons_cons]; rfl⟩
    rw [← decodeMembers_replaceEscapes (List.cons_ne_nil _ _) hlen, Json.decodeObject_members]
    obtain ⟨t, ht⟩ := hhead
    rw [ht, replaceEscapes_of_ne (by decide)]
    exact fun h => absurd (List.cons.inj h).1 (by decide)

theorem jsonString_no_newline (hostId : GoString) (now : Int) (msg : TelemetryLogMsg) :
    '\n' ∉ jsonString hostId now msg := by
  intro h
  rcases GoString.mem_replaceFrom h with h | h
  · exact absurd h (by decide)
  · rcases GoString.mem_replaceFrom h with h | h
    · exact absurd h (by decide)
    · exact absurd (Json.encodeObject_printable _ _ h) (by decide)

/-! ## Faithful lines -/

/-- The text is read back as it was written. -/
def Plain (s : GoString) : Prop := GoString.validString s ∧ backslashLetter s = false

instance (s : GoString) : Decidable (Plain s) := inferInstanceAs (Decidable (_ ∧ _))

/-- A replacement character is longer than the byte that it replaces. -/
theorem length_toValidRune {r : GoString} (hr : GoString.IsRune r) :
    (replaceBreaks r).length ≤ (replaceBreaks (GoString.toValidRune r)).length ∧
      ((replaceBreaks r).length = (replaceBreaks (GoString.toValidRune r)).length →
        GoString.validRune r) := by
  unfold GoString.toValidRune
  split
  next h => exact ⟨Nat.le_refl _, fun _ => h⟩
  next h =>
    have hone : (replaceBreaks r).length = 1 := by
      rcases hr with ⟨c, rfl⟩ | ⟨hlen, -⟩
      · have hc : ¬c.toNat < 0x80 := by simpa [GoString.validRune] using h
        rw [replaceBreaks_of_not_mem (a := [c])]
        · rfl
        · exact fun hm => hc (List.mem_singleton.mp hm ▸ by decide)
        · exact fun hm => hc (List.mem_singleton.mp hm ▸ by decide)
      · exfalso
        apply h
        unfold GoString.validRune
        split
        · cases Nat.lt_irrefl 1 hlen
        · rfl
    have hthree : (replaceBreaks GoString.replacement).length = 3 := by decide
    omega

/-- What is read back is as long as what was written only when every rune is valid. -/
theorem length_toValidRunes (hrs : ∀ r ∈ rs, GoString.IsRune r) :
    (replaceBreaks rs.flatten).length ≤ (replaceBreaks (rs.flatMap GoString.toValidRune)).length ∧
      ((replaceBreaks rs.flatten).length =
          (replaceBreaks (rs.flatMap GoString.toValidRune)).length →
        rs.all GoString.validRune) := by
  induction rs with
  | nil => exact ⟨Nat.le_refl _, fun _ => rfl⟩
  | cons r rs ih =>
    obtain ⟨hle, hvalid⟩ := ih fun r h => hrs r (List.mem_cons_of_mem _ h)
    obtain ⟨hle', hvalid'⟩ := length_toValidRune (hrs r List.mem_cons_self)
    rw [List.flatten_cons, List.flatMap_cons, replaceBreaks_append, replaceBreaks_append,
      List.length_append, List.length_append]
    refine ⟨Nat.add_le_add hle' hle, fun heq => ?_⟩
    rw [List.all_cons, hvalid' (by omega), hvalid (by omega)]
    rfl

theorem replaceBreaks_toValid_iff :
    replaceBreaks (GoString.toValid s) = replaceBreaks s ↔ GoString.validString s := by
  constructor
  · intro h
    have hlen := (length_toValidRunes fun _ => GoString.isRune_of_mem (s := s)).2
    rw [GoString.flatten_runes] at hlen
    exact hlen (congrArg List.length h.symm)
  · exact fun h => congrArg _ (GoString.toValid_eq_self h)

/-- The line is JSON without a break, and it is read back as these fields without their breaks. -/
structure Faithful (line : GoString) (fields : List (GoString × GoString)) : Prop where
  no_newline : '\n' ∉ line
  decoded : Json.decodeObject line =
    some (fields.map fun field => (replaceBreaks field.1, replaceBreaks field.2))

/-- The line of these fields is faithful when every text is read back as it was written. -/
theorem decoded_iff {fields : List (GoString × GoString)} :
    Json.decodeObject (replaceEscapes (Json.encodeObject fields)) =
        some (fields.map fun field => (replaceBreaks field.1, replaceBreaks field.2)) ↔
      ∀ field ∈ fields, Plain field.1 ∧ Plain field.2 := by
  rw [decodeObject_replaceEscapes]
  constructor
  · intro h
    split at h
    next hread =>
      intro field hf
      have heq := List.map_inj_left.mp (Option.some.inj h) field hf
      obtain ⟨hkey, hvalue⟩ := Prod.mk.inj heq
      obtain ⟨hread, hread'⟩ := hread field hf
      exact ⟨⟨replaceBreaks_toValid_iff.mp hkey, hread⟩,
        ⟨replaceBreaks_toValid_iff.mp hvalue, hread'⟩⟩
    next => cases h
  · intro h
    rw [if_pos fun field hf => ⟨(h field hf).1.2, (h field hf).2.2⟩]
    refine congrArg some (List.map_congr_left fun field hf => ?_)
    obtain ⟨hkey, hvalue⟩ := h field hf
    rw [readBack, GoString.toValid_eq_self hkey.1, GoString.toValid_eq_self hvalue.1]

/-! ## Plain records -/

theorem mem_sortedFields {map : TelemetryLogMsgMap} :
    (key, value) ∈ sortedFields map ↔ map.lookup key = some value := by
  rw [sortedFields, List.mem_insertionSort, List.mem_map, ← Option.mem_def, AList.mem_lookup_iff]
  constructor
  · rintro ⟨⟨k, v⟩, hmem, heq⟩
    cases heq
    exact hmem
  · exact fun h => ⟨⟨key, value⟩, h, rfl⟩

theorem backslashLetter_comma (a b : GoString) :
    backslashLetter (a ++ ',' :: b) = (backslashLetter a || backslashLetter b) := by
  induction a with
  | nil => exact backslashLetter_of_ne (by decide) b
  | cons c a ih =>
    by_cases hc : c = '\\'
    · subst hc
      cases a with
      | nil => simp [backslashLetter]
      | cons d a =>
        rw [List.cons_append] at ih
        simp [backslashLetter, ih, Bool.or_assoc]
    · rw [List.cons_append, backslashLetter_of_ne hc, backslashLetter_of_ne hc, ih]

theorem plain_nil : Plain [] := by decide

theorem plain_comma_iff : Plain (a ++ ',' :: b) ↔ Plain a ∧ Plain b := by
  unfold Plain
  rw [GoString.validString_append (by decide), backslashLetter_comma, Bool.and_eq_true,
    Bool.or_eq_false_iff]
  exact and_and_and_comm

theorem plain_of_ascii (h : ∀ c ∈ s, c.toNat < 0x80 ∧ c ≠ '\\') : Plain s := by
  constructor
  · exact GoString.validString_of_ascii fun c hc => (h c hc).1
  · have hnot : '\\' ∉ s := fun hm => (h _ hm).2 rfl
    simpa [backslashLetter] using backslashLetter_append hnot []

theorem plain_digit (h : GoString.isDigit c) : c.toNat < 0x80 ∧ c ≠ '\\' := by
  rw [GoString.isDigit, Bool.and_eq_true, decide_eq_true_eq, decide_eq_true_eq] at h
  have hle : c.toNat ≤ 57 := h.2
  exact ⟨by omega, fun e => absurd (e ▸ hle) (by decide)⟩

theorem plain_stamp (t : Int) : Plain (Calendar.format Calendar.stampLayout t) := by
  refine plain_of_ascii fun c hc => ?_
  rcases Calendar.mem_format hc with h | rfl | rfl | h
  · exact plain_digit h
  · decide
  · decide
  · simp only [Calendar.stampLayout, List.mem_cons, Calendar.Std.text.injEq, reduceCtorEq, false_or,
      List.not_mem_nil, or_false] at h
    rcases h with rfl | rfl | rfl | rfl | rfl <;> decide

/-- The tokens without a key make up the rest of the message. -/
theorem plain_rawMessage_iff (tokens : List GoString) :
    Plain (collect tokens).rawMessage ↔ ∀ token ∈ tokens, '=' ∉ token → Plain token := by
  induction tokens using List.reverseRecOn with
  | nil => simp [collect, plain_nil]
  | append_singleton tokens token ih =>
    have hcollect : collect (tokens ++ [token]) = (collect tokens).token token := by
      rw [collect, List.foldl_append]
      rfl
    rw [hcollect, Collected.token, List.forall_mem_append, ← ih, List.forall_mem_singleton]
    cases hpair : splitPair '=' token with
    | none =>
      have hno := GoString.splitPair_eq_none.mp hpair
      simp only [hno, not_false_eq_true, true_imp_iff]
      split
      next hraw => rw [hraw, and_iff_right plain_nil]
      next => exact plain_comma_iff
    | some pair =>
      have hsep : '=' ∈ token := by
        by_contra hno
        rw [GoString.splitPair_eq_none.mpr hno] at hpair
        cases hpair
      simp [hsep]

/-- The field `message` is the one that the tokens set, with the rest behind it. -/
theorem plain_message_iff (tokens : List GoString) :
    (∀ value, (collect tokens).fields.lookup (lit "message") = some value → Plain value) ↔
      Plain (collect tokens).rawMessage ∧
        ∀ value, assigned (lit "message") tokens = some value → Plain value := by
  rw [← lookup_collect]
  unfold Collected.fields
  split
  next hraw => rw [hraw, and_iff_right plain_nil]
  next =>
    split
    next value hvalue => simp [hvalue, plain_comma_iff, and_comm]
    next hnone => simp [hnone]

/-- No text of the record that is shown has a byte that begins no rune, or a backslash in front of
an `r` or an `n`: of two tokens with one key only the later one is shown. -/
structure PlainRecord (hostId : GoString) (msg : TelemetryLogMsg) : Prop where
  pinger : Plain hostId
  id : Plain msg.id
  moduleName : Plain msg.moduleName
  raw : ∀ token ∈ split '|' msg.message, '=' ∉ token → Plain token
  field : ∀ key value, key ∉ recordKeys → assigned key (split '|' msg.message) = some value →
    Plain key ∧ Plain value

theorem plain_eventType (e : EventType) : Plain e.text := by cases e <;> decide

theorem plain_recordKey : ∀ key ∈ recordKeys, Plain key := by decide

theorem lookup_uploadedAt (hostId : GoString) (now : Int) (msg : TelemetryLogMsg) :
    (toMap hostId now msg).lookup (lit "uploaded_at") =
      some (Calendar.format Calendar.stampLayout (round now)) := by
  simp (disch := decide) only [toMap, AList.lookup_insert, AList.lookup_insert_ne]

/-- A value under a key of the record itself. -/
theorem PlainRecord.own (h : PlainRecord hostId msg) (hown : key ∈ recordKeys)
    (hlookup : (toMap hostId now msg).lookup key = some value) : Plain value := by
  have hrecord := toMap_hasRecord hostId now msg
  simp only [recordKeys, List.mem_cons, List.not_mem_nil, or_false] at hown
  rcases hown with rfl | rfl | rfl | rfl | rfl | rfl
  · rw [← Option.some.inj (hrecord.id.symm.trans hlookup)]
    exact h.id
  · rw [← Option.some.inj (hrecord.eventType.symm.trans hlookup)]
    exact plain_eventType _
  · rw [← Option.some.inj (hrecord.timestamp.symm.trans hlookup)]
    exact plain_stamp _
  · rw [← Option.some.inj ((lookup_uploadedAt hostId now msg).symm.trans hlookup)]
    exact plain_stamp _
  · rw [← Option.some.inj (hrecord.moduleName.symm.trans hlookup)]
    exact h.moduleName
  · rw [← Option.some.inj (hrecord.pinger.symm.trans hlookup)]
    exact h.pinger

theorem plainRecord_iff (hostId : GoString) (now : Int) (msg : TelemetryLogMsg) :
    (∀ key value, (toMap hostId now msg).lookup key = some value → Plain key ∧ Plain value) ↔
      PlainRecord hostId msg := by
  have hrecord := toMap_hasRecord hostId now msg
  have hmessage := plain_message_iff (split '|' msg.message)
  have hkey : lit "message" ∉ recordKeys := by decide
  constructor
  · intro h
    obtain ⟨hraw, hvalue⟩ := hmessage.mp fun value hv =>
      (h _ value (by rw [lookup_toMap hkey]; exact hv)).2
    refine ⟨(h _ _ hrecord.pinger).2, (h _ _ hrecord.id).2, (h _ _ hrecord.moduleName).2,
      (plain_rawMessage_iff _).mp hraw, fun key value hno hassigned => ?_⟩
    by_cases hm : key = lit "message"
    · subst hm
      exact ⟨by decide, hvalue value hassigned⟩
    · exact h key value (by rw [lookup_toMap hno, lookup_fields hm, lookup_collect, hassigned])
  · intro h key value hlookup
    by_cases hno : key ∈ recordKeys
    · exact ⟨plain_recordKey key hno, h.own hno hlookup⟩
    · rw [lookup_toMap hno] at hlookup
      by_cases hm : key = lit "message"
      · subst hm
        have hraw := (plain_rawMessage_iff _).mpr h.raw
        have hassigned := fun value hv => (h.field _ value hno hv).2
        exact ⟨by decide, hmessage.mpr ⟨hraw, hassigned⟩ value hlookup⟩
      · rw [lookup_fields hm, lookup_collect] at hlookup
        exact h.field key value hno hlookup

/-- The line of a record is faithful exactly when every text of it that is shown is valid and has no
backslash in front of an `r` or an `n`. -/
theorem line_faithful_iff (hostId : GoString) (now : Int) (msg : TelemetryLogMsg) :
    Faithful (jsonString hostId now msg) (sortedFields (toMap hostId now msg)) ↔
      PlainRecord hostId msg := by
  rw [← plainRecord_iff hostId now]
  constructor
  · intro h key value hlookup
    exact decoded_iff.mp h.decoded (key, value) (mem_sortedFields.mpr hlookup)
  · intro h
    exact ⟨jsonString_no_newline hostId now msg, decoded_iff.mpr fun (key, value) hf =>
      h key value (mem_sortedFields.mp hf)⟩

/-- A path with a backslash in front of an `r`. -/
def pathRecord : TelemetryLogMsg where
  id := lit "1"
  eventType := .error
  timestamp := 0
  moduleName := lit "pinger"
  message := lit "open C:\\run"

/-- The line of the path is no JSON. -/
theorem path_not_decoded :
    Json.decodeObject (jsonString (lit "host") 0 pathRecord) = none ∧
      ¬Faithful (jsonString (lit "host") 0 pathRecord)
        (sortedFields (toMap (lit "host") 0 pathRecord)) := by
  have hnone : Json.decodeObject (jsonString (lit "host") 0 pathRecord) = none := by decide +kernel
  refine ⟨hnone, fun h => ?_⟩
  cases hnone.symm.trans h.decoded

end Pinger.Telemetry
