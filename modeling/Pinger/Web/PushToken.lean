import Pinger.Web.Register

/-! # Push tokens

A token is sent as the base 64 or as the hexadecimal of 32 bytes, and its length tells which. What
is made of it is the hexadecimal in upper case, which the check of a registration and the creation
of an endpoint accept, and which stays as it is when it is decoded once more. -/

namespace Pinger

/-- The digits of a token that has been decoded. -/
def isTokenDigit (c : Char) : Bool := GoString.isDigit c || ('A' ≤ c && c ≤ 'F')

theorem decodeAPNSPushToken_hex (hlen : s.length = 64) (hhex : GoString.isHex s) :
    decodeAPNSPushToken s = .ok (GoString.toUpper s) := by
  rw [decodeAPNSPushToken, if_pos hlen, if_pos hhex]

/-- What is decoded is the upper-case form of a hexadecimal text of 64 characters. -/
theorem decodeAPNSPushToken_ok (h : decodeAPNSPushToken token = .ok t) :
    ∃ s, s.length = 64 ∧ GoString.isHex s ∧ t = GoString.toUpper s := by
  rw [decodeAPNSPushToken] at h
  split at h
  next hlen =>
    split at h
    next hhex => exact ⟨token, hlen, hhex, (Except.ok.inj h).symm⟩
    next => cases h
  next =>
    split at h
    next => cases h
    next bytes hbytes =>
      split at h
      next => cases h
      next hlen =>
        exact ⟨_, not_not.mp hlen, GoString.isHex_hexEncode (GoString.isBytes_base64Decode hbytes),
          (Except.ok.inj h).symm⟩

/-- The upper-case form is decoded to itself. -/
theorem decodeAPNSPushToken_toUpper (hlen : s.length = 64) (hhex : GoString.isHex s) :
    decodeAPNSPushToken (GoString.toUpper s) = .ok (GoString.toUpper s) := by
  rw [decodeAPNSPushToken_hex ((GoString.length_toUpper s).trans hlen)
    ((GoString.isHex_toUpper s).trans hhex), GoString.toUpper_toUpper]

theorem decodeAPNSPushToken_base64 (hb : GoString.IsBytes b) (hlen : b.length = 32) :
    decodeAPNSPushToken (GoString.base64Encode b) = .ok (GoString.toUpper (GoString.hexEncode b)) := by
  have hne : (GoString.base64Encode b).length ≠ 64 := by
    rw [GoString.base64Encode_length, hlen]
    decide
  have hhex : ¬ (GoString.hexEncode b).length ≠ 64 := by
    rw [GoString.hexEncode_length, hlen]
    decide
  simp only [decodeAPNSPushToken, if_neg hne, GoString.base64Decode_base64Encode hb, if_neg hhex]

/-- The digits are among those that the pattern allows. -/
theorem pushTokenRegex_of_digits (hlen : t.length = 64) (h : t.all isTokenDigit) :
    Web.pushTokenRegex t := by
  rw [Web.pushTokenRegex, hlen]
  refine Bool.and_eq_true_iff.mpr ⟨rfl, List.all_eq_true.mpr fun c hc => ?_⟩
  have hdigit := List.all_eq_true.mp h c hc
  simp only [isTokenDigit, GoString.isUpper, Bool.or_eq_true, Bool.and_eq_true,
    decide_eq_true_eq] at hdigit ⊢
  exact hdigit.imp_right fun h =>
    ⟨h.1, Nat.le_trans (show c.toNat ≤ 'F'.toNat from h.2) (by decide)⟩

/-- The base 64 and every hexadecimal form of 32 bytes, whatever the case of its letters, are
decoded to the hexadecimal in upper case. Whatever is decoded has 64 of these digits, so it passes
the pattern and the test of its length, and is decoded to itself. -/
theorem decodeAPNSPushToken_canonical :
    (∀ b, GoString.IsBytes b → b.length = 32 →
      let canonical := GoString.toUpper (GoString.hexEncode b)
      decodeAPNSPushToken (GoString.base64Encode b) = .ok canonical ∧
        ∀ s, GoString.toUpper s = canonical → decodeAPNSPushToken s = .ok canonical) ∧
    ∀ token t, decodeAPNSPushToken token = .ok t →
      t.length = 64 ∧ t.all isTokenDigit ∧ Web.pushTokenRegex t ∧
        Web.isValidPushToken pushServiceAPNS token ∧
        (∀ di : DeviceInfo, di.pushService = pushServiceAPNS → di.pushToken = token →
          di.registerAwsToken = .ok t) ∧
        decodeAPNSPushToken t = .ok t := by
  refine ⟨fun b hb hlen => ⟨decodeAPNSPushToken_base64 hb hlen, fun s hs => ?_⟩,
    fun token t h => ?_⟩
  · have hslen : s.length = 64 := by
      rw [← GoString.length_toUpper, hs, GoString.length_toUpper, GoString.hexEncode_length, hlen]
    have hshex : GoString.isHex s := by
      rw [← GoString.isHex_toUpper, hs, GoString.isHex_toUpper]
      exact GoString.isHex_hexEncode hb
    rw [decodeAPNSPushToken_hex hslen hshex, hs]
  · obtain ⟨s, hslen, hhex, rfl⟩ := decodeAPNSPushToken_ok h
    have hlen := (GoString.length_toUpper s).trans hslen
    have hdigits : (GoString.toUpper s).all isTokenDigit := GoString.toUpper_of_isHex hhex
    have hregex := pushTokenRegex_of_digits hlen hdigits
    refine ⟨hlen, hdigits, hregex, ?_, fun di hservice htoken => ?_,
      decodeAPNSPushToken_toUpper hslen hhex⟩
    · simp only [Web.isValidPushToken, h, hregex]
      rfl
    · simp only [DeviceInfo.registerAwsToken, if_pos hservice, htoken, h, hlen, ne_eq,
        not_true_eq_false, if_false]

def tokenBytes : GoString :=
  [0xA4, 0xEB, 0x24, 0xB7, 0x18, 0xFE, 0xBB, 0xA0, 0xBF, 0xC3, 0xB4, 0xDE, 0xC3, 0x86, 0xC8, 0x12,
    0x26, 0x9F, 0x70, 0x1E, 0x19, 0x90, 0x19, 0xC3, 0x75, 0xB1, 0xB8, 0xCB, 0xFC, 0x8B, 0x2E,
    0x80].map Char.ofNat

/-- A token in base 64, and its hexadecimal in letters of both cases. -/
theorem decodeAPNSPushToken_canonical_token :
    let canonical := GoString.lit "A4EB24B718FEBBA0BFC3B4DEC386C812269F701E199019C375B1B8CBFC8B2E80"
    decodeAPNSPushToken (GoString.lit "pOsktxj+u6C/w7Tew4bIEiafcB4ZkBnDdbG4y/yLLoA=") = .ok canonical ∧
      decodeAPNSPushToken
        (GoString.lit "a4eb24b718febba0bfc3b4dec386c812269F701E199019C375B1B8CBFC8B2E80") =
          .ok canonical ∧
      decodeAPNSPushToken canonical = .ok canonical := by
  intro canonical
  have hbase64 : GoString.base64Decode
      (GoString.lit "pOsktxj+u6C/w7Tew4bIEiafcB4ZkBnDdbG4y/yLLoA=") = some tokenBytes := by decide
  obtain ⟨h64, hhex⟩ := decodeAPNSPushToken_canonical.1 tokenBytes
    (GoString.isBytes_base64Decode hbase64) (by decide)
  have hcanonical : GoString.toUpper (GoString.hexEncode tokenBytes) = canonical := by decide
  rw [hcanonical] at h64 hhex
  have h := hhex _ (show GoString.toUpper
    (GoString.lit "a4eb24b718febba0bfc3b4dec386c812269F701E199019C375B1B8CBFC8B2E80") = canonical
      by decide)
  have hencode : GoString.base64Encode tokenBytes =
      GoString.lit "pOsktxj+u6C/w7Tew4bIEiafcB4ZkBnDdbG4y/yLLoA=" := by decide
  rw [hencode] at h64
  exact ⟨h64, h, (decodeAPNSPushToken_canonical.2 _ _ h).2.2.2.2.2⟩

end Pinger
