import Pinger.Lib.Bytes

/-! # The credentials of the mail server

What the web server tests of the user name and password of a registration, and of the command with
which an IMAP client logs in. -/

namespace Pinger.Web

/-- `govalidator.StringLength`. -/
def stringLength (s : GoString) (min max : Nat) : Bool :=
  min ≤ GoString.runeCount s && GoString.runeCount s ≤ max

def isValidMailServerCredentials (userName password : GoString) : Bool :=
  stringLength userName 1 64 && stringLength password 0 64

def maxImapAuthCmdSize : Nat := 10240

def imapLoginCmd : GoString := GoString.lit "LOGIN"
def imapAuthCmdPlain : GoString := GoString.lit "AUTHENTICATE PLAIN"
def imapAuthCmdXoauth2 : GoString := GoString.lit "AUTHENTICATE XOAUTH2"

def isValidIMAPAuthenticationBlob (blob : GoString) : Bool :=
  match GoString.base64Decode blob with
  | none => false
  | some decodedBlob =>
    (GoString.hasPrefix decodedBlob imapLoginCmd ||
      GoString.hasPrefix decodedBlob imapAuthCmdPlain ||
      GoString.hasPrefix decodedBlob imapAuthCmdXoauth2) &&
    decodedBlob.length ≤ maxImapAuthCmdSize

theorem isSome_of_isValidIMAPAuthenticationBlob (h : isValidIMAPAuthenticationBlob blob) :
    (GoString.base64Decode blob).isSome := by
  cases hd : GoString.base64Decode blob with
  | none => simp [isValidIMAPAuthenticationBlob, hd] at h
  | some => rfl

/-- The command that logs in begins with `LOGIN` or `AUTHENTICATE`. -/
theorem head_of_isValidIMAPAuthenticationBlob (h : isValidIMAPAuthenticationBlob blob)
    (hd : GoString.base64Decode blob = some decodedBlob) :
    ∃ c t, decodedBlob = c :: t ∧ (c = 'L' ∨ c = 'A') := by
  simp only [isValidIMAPAuthenticationBlob, hd, Bool.and_eq_true, Bool.or_eq_true] at h
  obtain ⟨(hpre | hpre) | hpre, -⟩ := h
  all_goals
    obtain ⟨t, rfl⟩ := List.isPrefixOf_iff_prefix.mp hpre
    exact ⟨_, _, rfl, by decide⟩

end Pinger.Web
