import WinterWind.Utils.JwtVerification

/-!
# The statuses of the verifier

`JWTDecoder::read_and_verify` on any byte string: whether it returns, and when what it returns is
`STATUS_INVALID_STRING`.

* Once the token has its three segments, two things can end the call without a status. The header
  may be JSON but neither `null` nor an object, in which case `isMember` throws, and a segment of
  `2^31` characters and more may make the decoder's count overflow. The payload is parsed into the
  token and never looked at, so its shape does not matter.
* `str_split` drops an empty last segment. A token that ends with a dot is therefore taken for one
  with a dot less: `a.b.` is refused and `a.b.c.` is not.

Results:
* `readAndVerify_three`: the verifier on three segments.
* **`readAndVerify_returns_iff`**: on which tokens a status is returned, whatever the validators.
* **`splitsExactly_iff`**: on which tokens the status tells whether there are two dots.
-/

namespace WinterWind

variable {hmac : Hmac} {json : JsonLib} {d : JWTDecoder} {rawToken : Bytes} {jwt : JsonWebToken}

/-! ## Three segments -/

/-- What the verifier does with the decoded payload. -/
def verifyPayload (hmac : Hmac) (json : JsonLib) (s0 s1 s2 text : Bytes) (jwt : JsonWebToken) :
    JWTStatus × JsonWebToken :=
  let jwt' := { jwt with payload := (json.parse text jwt.payload).2 }
  if (json.parse text jwt.payload).1 = false then (.jsonParseError, jwt')
  else if expectedSignature hmac jwt.secret s0 s1 ≠ s2 then (.invalidSignature, jwt')
  else (.ok, jwt')

theorem readAndVerify_three {s0 s1 s2 : Bytes} (h : segments rawToken = [s0, s1, s2]) :
    readAndVerify hmac json d rawToken jwt = do
      let (status, jwt) ← readHeader json s0 jwt
      if status ≠ .ok then
        return (status, jwt)
      let text ← orFault .undefinedBehaviour (base64UrlDecode s1)
      return verifyPayload hmac json s0 s1 s2 text jwt := by
  have hsplit : strSplit (unpadded rawToken) 46 [] = [s0, s1, s2] := h
  unfold readAndVerify
  simp only [strRemoveSubstr_pad, orFault, hsplit, bind, Except.bind]
  cases readHeader json s0 jwt with
  | error e => rfl
  | ok r =>
    obtain ⟨status, jwt'⟩ := r
    by_cases hst : status = .ok
    · cases hdec : base64UrlDecode s1 with
      | none => simp [hst]
      | some text =>
        unfold verifyPayload expectedSignature
        simp only [hst, ne_eq, not_true_eq_false, if_false, checkClaims_null, pure, Except.pure,
          List.append_assoc]
        split
        · rfl
        · split <;> rfl
    · simp [hst, pure, Except.pure]

theorem readAndVerify_not_three (h : (segments rawToken).length ≠ 3) :
    readAndVerify hmac json d rawToken jwt = .ok (.invalidString, jwt) := by
  unfold readAndVerify
  simp only [strRemoveSubstr_pad, orFault, bind, Except.bind]
  unfold segments at h
  split
  · rename_i hseg
    rw [hseg] at h
    exact absurd rfl h
  · rfl

/-! ## Returning -/

/-- What `isMember` allows to be asked: `null` or an object. -/
def HasMembers (v : Value) : Prop := ∃ ms, v.members = .ok ms

theorem HasMembers.stringMember {v : Value} (h : HasMembers v) (key : Bytes) :
    ∃ s, v.stringMember key = .ok s := by
  obtain ⟨ms, hms⟩ := h
  unfold Value.stringMember Value.isMember Value.member
  rw [hms]
  cases hf : findMember key ms with
  | none => exact ⟨none, by simp [hf, bind, Except.bind, pure, Except.pure]⟩
  | some w => exact ⟨w.string?, by simp [hf, bind, Except.bind, pure, Except.pure]⟩

theorem hasMembers_of_stringMember {v : Value} {key : Bytes} {s : Option Bytes}
    (h : v.stringMember key = .ok s) : HasMembers v := by
  obtain ⟨b, hb, -⟩ := bind_eq_ok.mp h
  obtain ⟨ms, hms, -⟩ := bind_eq_ok.mp hb
  exact ⟨ms, hms⟩

/-- The header is read to the end iff it decodes and, once it parses, has members. -/
theorem readHeader_returns_iff {s0 : Bytes} :
    (∃ r, readHeader json s0 jwt = .ok r) ↔
      ∃ text, base64UrlDecode s0 = some text ∧
        ((json.parse text jwt.header).1 = true → HasMembers (json.parse text jwt.header).2) := by
  constructor
  · rintro ⟨r, h⟩
    obtain ⟨text, htext, h⟩ := bind_eq_ok.mp h
    refine ⟨text, orFault_eq_ok.mp htext, fun hparse => ?_⟩
    rw [hparse, if_neg (by simp)] at h
    obtain ⟨alg, halg, -⟩ := bind_eq_ok.mp h
    exact hasMembers_of_stringMember halg
  · rintro ⟨text, htext, hmembers⟩
    unfold readHeader
    simp only [htext, orFault, bind, Except.bind]
    by_cases hparse : (json.parse text jwt.header).1 = true
    · obtain ⟨alg, halg⟩ := (hmembers hparse).stringMember (ascii "alg")
      obtain ⟨typ, htyp⟩ := (hmembers hparse).stringMember (ascii "typ")
      simp only [hparse, halg, htyp, pure, Except.pure]
      cases alg with
      | none => exact ⟨_, rfl⟩
      | some name =>
        dsimp only
        split
        · exact ⟨_, rfl⟩
        · split
          · exact ⟨_, rfl⟩
          · cases algorithmOf name <;> exact ⟨_, rfl⟩
    · simp only [Bool.not_eq_true] at hparse
      simp only [hparse, if_true, pure, Except.pure]
      exact ⟨_, rfl⟩

/-- The two segments the verifier decodes: the first gives no JSON or one with members, and if it
names an algorithm the second is decoded as well. -/
structure Readable (json : JsonLib) (jwt : JsonWebToken) (s0 s1 : Bytes) : Prop where
  header : ¬Overflows s0
  members : ∀ text, base64UrlDecode s0 = some text → (json.parse text jwt.header).1 = true →
    HasMembers (json.parse text jwt.header).2
  payload : (∃ alg ms, NamesAlgorithm json s0 jwt.header alg ms) → ¬Overflows s1

theorem exists_decoded_iff {s : Bytes} :
    (∃ text, base64UrlDecode s = some text) ↔ ¬Overflows s := by
  rw [← base64DecodePriv_eq_none_iff s base64UrlChars, ← Option.ne_none_iff_exists']
  rfl

/-- **On which tokens the verifier returns a status.** -/
theorem readAndVerify_returns_iff (hmac : Hmac) (json : JsonLib) (d : JWTDecoder)
    (rawToken : Bytes) (jwt : JsonWebToken) :
    (∃ status jwt', readAndVerify hmac json d rawToken jwt = .ok (status, jwt')) ↔
      ∀ s0 s1 s2, segments rawToken = [s0, s1, s2] → Readable json jwt s0 s1 := by
  constructor
  · rintro ⟨status, jwt', h⟩ s0 s1 s2 hseg
    rw [readAndVerify_three hseg] at h
    obtain ⟨⟨st, jwt1⟩, hhead, h⟩ := bind_eq_ok.mp h
    obtain ⟨text, htext, hmembers⟩ := readHeader_returns_iff.mp ⟨_, hhead⟩
    refine ⟨exists_decoded_iff.mp ⟨text, htext⟩, fun text' htext' hparse => ?_, ?_⟩
    · obtain rfl := Option.some.inj (htext.symm.trans htext')
      exact hmembers hparse
    · rintro ⟨alg, ms, hnames⟩
      rw [readHeader_ok_iff.mpr ⟨alg, ms, hnames, rfl⟩] at hhead
      obtain ⟨rfl, -⟩ := Prod.mk.inj (Except.ok.inj hhead)
      obtain ⟨text1, htext1, -⟩ := bind_eq_ok.mp h
      exact exists_decoded_iff.mp ⟨text1, orFault_eq_ok.mp htext1⟩
  · intro hread
    by_cases hlen : (segments rawToken).length = 3
    · obtain ⟨s0, s1, s2, hseg⟩ := List.length_eq_three.mp hlen
      obtain ⟨hheader, hmembers, hpayload⟩ := hread s0 s1 s2 hseg
      obtain ⟨text, htext⟩ := exists_decoded_iff.mpr hheader
      obtain ⟨⟨st, jwt1⟩, hhead⟩ := readHeader_returns_iff.mpr ⟨text, htext, hmembers text htext⟩
      rw [readAndVerify_three hseg, hhead]
      by_cases hst : st = .ok
      · subst hst
        obtain ⟨alg, ms, hnames, -⟩ := readHeader_ok_iff.mp hhead
        obtain ⟨text1, htext1⟩ := exists_decoded_iff.mpr (hpayload ⟨alg, ms, hnames⟩)
        rw [htext1]
        exact ⟨_, _, rfl⟩
      · refine ⟨st, jwt1, ?_⟩
        simp [hst, bind, Except.bind, pure, Except.pure]
    · exact ⟨_, _, readAndVerify_not_three hlen⟩

/-- A header that is the empty array: `isMember` throws. -/
theorem not_returns_array :
    ¬∃ status jwt', readAndVerify zeroHmac
      (twoTexts (ascii "[]") (.array []) (ascii "\x7b\x7d") (.object [])) {} (ascii "W10.e30.e30")
      {} = .ok (status, jwt') := by
  rintro ⟨status, jwt', h⟩
  have hseg : segments (ascii "W10.e30.e30") = [ascii "W10", ascii "e30", ascii "e30"] := by decide
  have hdec : base64UrlDecode (ascii "W10") = some (ascii "[]") := by decide
  rw [readAndVerify_three hseg] at h
  obtain ⟨r, hhead, -⟩ := bind_eq_ok.mp h
  obtain ⟨text, htext, hmembers⟩ := readHeader_returns_iff.mp ⟨r, hhead⟩
  obtain rfl := Option.some.inj (hdec.symm.trans htext)
  obtain ⟨ms, hms⟩ := hmembers rfl
  exact absurd hms (by simp [twoTexts, Value.members])

/-! ## Splitting -/

/-- `STATUS_INVALID_STRING` says that the token, less its `=`, is not three segments between
exactly two dots. -/
def SplitsExactly (hmac : Hmac) (json : JsonLib) (d : JWTDecoder) (rawToken : Bytes)
    (jwt : JsonWebToken) : Prop :=
  (∃ jwt', readAndVerify hmac json d rawToken jwt = .ok (.invalidString, jwt')) ↔
    (unpadded rawToken).count 46 ≠ 2

theorem readHeader_ne_invalidString {s0 : Bytes} {jwt' : JsonWebToken} :
    readHeader json s0 jwt ≠ .ok (.invalidString, jwt') := by
  intro h
  obtain ⟨text, -, h⟩ := bind_eq_ok.mp h
  split at h
  · simp [pure, Except.pure] at h
  · obtain ⟨alg, -, h⟩ := bind_eq_ok.mp h
    cases alg with
    | none => simp [pure, Except.pure] at h
    | some name =>
      obtain ⟨typ, -, h⟩ := bind_eq_ok.mp h
      split at h
      · simp [pure, Except.pure] at h
      · cases ha : algorithmOf name with
        | none => simp [ha, pure, Except.pure] at h
        | some a => simp [ha, pure, Except.pure] at h

theorem verifyPayload_ne_invalidString (s0 s1 s2 text : Bytes) :
    (verifyPayload hmac json s0 s1 s2 text jwt).1 ≠ .invalidString := by
  unfold verifyPayload
  dsimp only
  split
  · simp
  · split <;> simp

/-- No check after the split returns that status. -/
theorem invalidString_iff :
    (∃ jwt', readAndVerify hmac json d rawToken jwt = .ok (.invalidString, jwt')) ↔
      (segments rawToken).length ≠ 3 := by
  constructor
  · rintro ⟨jwt', h⟩ hlen
    obtain ⟨s0, s1, s2, hseg⟩ := List.length_eq_three.mp hlen
    rw [readAndVerify_three hseg] at h
    obtain ⟨⟨st, jwt1⟩, hhead, h⟩ := bind_eq_ok.mp h
    by_cases hst : st = .ok
    · rw [hst] at h
      obtain ⟨text, -, h⟩ := bind_eq_ok.mp h
      exact verifyPayload_ne_invalidString s0 s1 s2 text (congrArg Prod.fst (Except.ok.inj h))
    · simp only [hst, ne_eq, not_false_eq_true, if_true, pure, Except.pure, Except.ok.injEq,
        Prod.mk.injEq] at h
      exact readHeader_ne_invalidString (h.1 ▸ hhead)
  · intro hlen
    exact ⟨_, readAndVerify_not_three hlen⟩

/-- **On which tokens the status tells whether there are two dots**: on those that do not end with
a dot, and on those that end with a dot and have neither two nor three. -/
theorem splitsExactly_iff (hmac : Hmac) (json : JsonLib) (d : JWTDecoder) (rawToken : Bytes)
    (jwt : JsonWebToken) :
    SplitsExactly hmac json d rawToken jwt ↔
      ((unpadded rawToken).getLast? = some 46 →
        (unpadded rawToken).count 46 ≠ 2 ∧ (unpadded rawToken).count 46 ≠ 3) := by
  unfold SplitsExactly
  rw [invalidString_iff, segments, length_strSplit]
  by_cases hnil : unpadded rawToken = []
  · simp [hnil]
  · by_cases hlast : (unpadded rawToken).getLast? = some 46
    · simp only [hlast, true_or, if_true, forall_const]
      omega
    · simp only [hlast, hnil, or_false, if_false, false_imp_iff, iff_true]
      omega

/-- Three dots, and taken for three segments. -/
theorem not_splitsExactly_trailing :
    ¬SplitsExactly zeroHmac (jsonOf .hs256 (ascii "\x7b\x7d") []) {} (ascii "e30.e30.e30.") {} := by
  unfold SplitsExactly
  rw [invalidString_iff]
  decide

end WinterWind
