import Pinger.Web.Identity

/-! # The prefix of the log

Every line that the web server logs for a client begins with the three identifiers that the client
sent. One that does not pass its validator is replaced by a fixed text. The pattern for the user id
ends in `.*`, so what the user id has after the part with the region is written as it came. -/

namespace Pinger.Web

/-- An identifier that is not valid is not written. -/
def getScrubbedLogPrefix (deviceId userId context : GoString) : GoString :=
  let sUserId := if isValidUserId userId then userId else GoString.lit "INVALID_USERID"
  let sDeviceId := if isValidDeviceId deviceId then deviceId else GoString.lit "INVALID_DEVICEID"
  let sContext := if isValidClientContext context then context else GoString.lit "INVALID_CONTEXT"
  sDeviceId ++ ':' :: sUserId ++ ':' :: sContext

/-- A letter, a digit, or a separator of the prefix. -/
def isCleanChar (c : Char) : Bool := GoString.isAlnum c || c = ':' || c = '-' || c = '_'

def Clean (s : GoString) : Prop := s.all isCleanChar

instance (s : GoString) : Decidable (Clean s) := inferInstanceAs (Decidable (_ = true))

/-- What the last part of the pattern, `.*`, takes of a user id. -/
def clientIdRest (userId : GoString) : GoString :=
  ((((userId.drop 3).dropWhile GoString.isLower).drop 1).dropWhile GoString.isDigit).drop 1
    |>.dropWhile fun c => GoString.isLower c || c = '-' || GoString.isDigit c

theorem clean_append : Clean (s ++ t) ↔ Clean s ∧ Clean t := by
  rw [Clean, List.all_append, Bool.and_eq_true]
  rfl

theorem clean_cons : Clean (c :: s) ↔ isCleanChar c ∧ Clean s := by
  rw [Clean, List.all_cons, Bool.and_eq_true]
  rfl

/-- A front part of clean characters makes no difference. -/
theorem clean_dropWhile {p : Char → Bool} (hp : ∀ c, p c → isCleanChar c) (s : GoString) :
    Clean (s.dropWhile p) ↔ Clean s := by
  have hfront : Clean (s.takeWhile p) :=
    List.all_eq_true.mpr fun c hc => hp c (List.all_eq_true.mp List.all_takeWhile c hc)
  have h := clean_append (s := s.takeWhile p) (t := s.dropWhile p)
  rw [List.takeWhile_append_dropWhile] at h
  rw [h, and_iff_right hfront]

theorem isCleanChar_of_isAlnum (h : GoString.isAlnum c) : isCleanChar c := by
  rw [isCleanChar, h]
  rfl

theorem isCleanChar_of_isLower (h : GoString.isLower c) : isCleanChar c := by
  apply isCleanChar_of_isAlnum
  simp only [GoString.isLower, Bool.and_eq_true] at h
  simp [GoString.isAlnum, h]

theorem isCleanChar_of_isDigit (h : GoString.isDigit c) : isCleanChar c := by
  apply isCleanChar_of_isAlnum
  rw [GoString.isAlnum, h]
  rfl

/-- Of a user id that matches, all but the part that `.*` takes is clean. -/
theorem clean_clientIdRest (h : clientIdRegex s) : Clean (clientIdRest s) ↔ Clean s := by
  simp only [clientIdRegex, GoString.hasPrefix, Bool.and_eq_true] at h
  obtain ⟨hus, -, h⟩ := h
  obtain ⟨s₁, rfl⟩ := List.isPrefixOf_iff_prefix.mp hus
  have hs₁ : (GoString.lit "us-" ++ s₁).drop 3 = s₁ := rfl
  rw [hs₁] at h
  rw [clientIdRest, hs₁, clean_append, and_iff_right (show Clean (GoString.lit "us-") by decide),
    ← clean_dropWhile (fun c => isCleanChar_of_isLower) s₁]
  cases hd : s₁.dropWhile GoString.isLower with
  | nil => rw [hd] at h; cases h
  | cons c s₂ =>
  rw [hd] at h
  split at h
  next heq =>
    obtain ⟨rfl, rfl⟩ := List.cons.inj heq
    simp only [Bool.and_eq_true] at h
    have h := h.2
    rw [clean_cons, and_iff_right (show isCleanChar '-' by decide), List.drop_succ_cons,
      List.drop_zero, ← clean_dropWhile (fun c => isCleanChar_of_isDigit) s₂]
    split at h
    next heq =>
      rw [heq, clean_cons, and_iff_right (show isCleanChar ':' by decide), List.drop_succ_cons,
        List.drop_zero]
      refine clean_dropWhile (fun c hc => ?_) _
      simp only [Bool.or_eq_true, decide_eq_true_eq] at hc
      rcases hc with (hc | rfl) | hc
      · exact isCleanChar_of_isLower hc
      · decide
      · exact isCleanChar_of_isDigit hc
    next => cases h
  next => cases h

theorem clean_of_isValidDeviceId (h : isValidDeviceId d) : Clean d := by
  simp only [isValidDeviceId, deviceIdRegex, GoString.hasPrefix, Bool.and_eq_true] at h
  obtain ⟨-, ⟨hncho, -⟩, hall⟩ := h
  obtain ⟨s, rfl⟩ := List.isPrefixOf_iff_prefix.mp hncho
  refine clean_append.mpr ⟨by decide, List.all_eq_true.mpr fun c hc => ?_⟩
  have hc := List.all_eq_true.mp hall c hc
  apply isCleanChar_of_isAlnum
  simp only [GoString.isUpper, Bool.or_eq_true] at hc
  rcases hc with hc | hc <;> simp [GoString.isAlnum, hc]

theorem clean_of_isValidClientContext (h : isValidClientContext c) : Clean c := by
  simp only [isValidClientContext, contextRegex, Bool.and_eq_true] at h
  exact List.all_eq_true.mpr fun x hx => isCleanChar_of_isAlnum (List.all_eq_true.mp h.2.2 x hx)

/-- The text that is written for an identifier is clean when the valid ones are. -/
theorem clean_scrubbed (valid : Bool) (hfixed : Clean fixed) :
    Clean (if valid then s else fixed) ↔ (valid → Clean s) := by
  cases valid with
  | false => exact iff_of_true hfixed fun h => by cases h
  | true => exact ⟨fun h _ => h, fun h => h rfl⟩

/-- The prefix is clean exactly when the user id is not valid, or what `.*` takes of it is clean. -/
theorem getScrubbedLogPrefix_clean_iff (deviceId userId context : GoString) :
    Clean (getScrubbedLogPrefix deviceId userId context) ↔
      (isValidUserId userId → Clean (clientIdRest userId)) := by
  have hdevice := (clean_scrubbed (isValidDeviceId deviceId)
    (show Clean (GoString.lit "INVALID_DEVICEID") by decide)).mpr clean_of_isValidDeviceId
  have hcontext := (clean_scrubbed (isValidClientContext context)
    (show Clean (GoString.lit "INVALID_CONTEXT") by decide)).mpr clean_of_isValidClientContext
  have hcolon : isCleanChar ':' := by decide
  simp only [getScrubbedLogPrefix, clean_append, clean_cons, hdevice, hcontext, hcolon, true_and,
    and_true, clean_scrubbed _ (show Clean (GoString.lit "INVALID_USERID") by decide)]
  refine forall_congr' fun hvalid => (clean_clientIdRest ?_).symm
  simp only [isValidUserId, Bool.and_eq_true] at hvalid
  exact hvalid.2

/-- A valid user id with a separator, an equals sign, a space and a verb of `Printf` in it. -/
theorem getScrubbedLogPrefix_forged :
    ¬ ∀ deviceId userId context, Clean (getScrubbedLogPrefix deviceId userId context) := by
  intro h
  have h := h [] (GoString.lit "us-east-1:a|level=ERROR %s forged by that user") []
  revert h
  decide

end Pinger.Web
