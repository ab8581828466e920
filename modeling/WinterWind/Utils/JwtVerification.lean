import WinterWind.Utils.JsonWebTokens

/-!
# What an accepted token guarantees

Two properties of `JWTDecoder::read_and_verify`, for every token and every decoder.

* `SignatureSound`: the third segment is the signature under the algorithm the header names. The
  verifier stores that algorithm and then always computes HMAC-SHA256.
* `Enforced`: the reserved claims of the decoded payload have their type and pass every registered
  validator. The checks consult a variable that was never assigned.

Results:
* **`signatureSound_iff`**: signatures are sound except for the genuine tokens whose header names
  another algorithm than HS256. The lengths 43, 64 and 86 of the three signatures tell them apart.
* **`enforced_iff`**: the validators are enforced exactly on the tokens that are not genuine or
  whose payload passes them anyway; against every decoder, exactly on those without any reserved
  claim.
-/

namespace WinterWind

open Library

/-- A json library that knows the text of one header and the text of one payload. -/
def twoTexts (headerText : Bytes) (header : Value) (payloadText : Bytes) (payload : Value) :
    JsonLib where
  write v :=
    match v with
    | .object ms => if (findMember (ascii "alg") ms).isSome then headerText else payloadText
    | _ => ascii "null\n"
  parse text root :=
    if text = headerText then (true, header)
    else if text = payloadText then (true, payload)
    else (false, root)

/-- The three functions that return zero bytes. -/
def zeroHmac : Hmac where
  sha256 _ _ := List.replicate 32 0
  sha384 _ _ := List.replicate 48 0
  sha512 _ _ := List.replicate 64 0
  length_sha256 _ _ := List.length_replicate
  length_sha384 _ _ := List.length_replicate
  length_sha512 _ _ := List.length_replicate

variable {hmac : Hmac} {json : JsonLib} {d : JWTDecoder} {rawToken : Bytes} {jwt : JsonWebToken}

/-! ## The signature -/

/-- If the token is accepted, its third segment is the unpadded URL-safe base64 of the HMAC of the
first two under the function its header names. -/
def SignatureSound (hmac : Hmac) (json : JsonLib) (d : JWTDecoder) (rawToken : Bytes)
    (jwt : JsonWebToken) : Prop :=
  ∀ jwt', readAndVerify hmac json d rawToken jwt = .ok (.ok, jwt') →
    ∃ s0 s1 s2 alg, segments rawToken = [s0, s1, s2] ∧
      jwt'.header.stringMember (ascii "alg") = .ok (some (jwtAlgStr alg)) ∧
      s2 = unpadded (base64UrlEncode (hmac.of alg jwt.secret (s0 ++ ascii "." ++ s1)))

/-- The length of a digest. -/
def Algorithm.digestLength : Algorithm → Nat
  | .hs256 => 32
  | .hs384 => 48
  | .hs512 => 64

theorem length_hmac_of (hmac : Hmac) (alg : Algorithm) (key data : Bytes) :
    (hmac.of alg key data).length = alg.digestLength := by
  cases alg with
  | hs256 => exact hmac.length_sha256 key data
  | hs384 => exact hmac.length_sha384 key data
  | hs512 => exact hmac.length_sha512 key data

theorem digestLength_lt (alg : Algorithm) : alg.digestLength < 2 ^ 32 := by
  cases alg <;> decide

/-- The signatures of the three algorithms have 43, 64 and 86 characters. -/
theorem length_signature (hmac : Hmac) (alg : Algorithm) (key data : Bytes) :
    (unpadded (base64UrlEncode (hmac.of alg key data))).length =
      (4 * alg.digestLength + 2) / 3 := by
  have hlen := length_hmac_of hmac alg key data
  rw [unpadded_base64UrlEncode (hlen ▸ digestLength_lt alg), urlUnpadded, List.length_map,
    length_sextets, hlen]

theorem jwtAlgStr_injective {a b : Algorithm} (h : jwtAlgStr a = jwtAlgStr b) : a = b :=
  Option.some.inj ((algorithmOf_jwtAlgStr a).symm.trans (h ▸ algorithmOf_jwtAlgStr b))

/-- A genuine token carries an HMAC-SHA256, whose length no other algorithm's signature has. -/
theorem hs256_of_signatureSound {alg : Algorithm} {header : List (Bytes × Value)} {payload : Value}
    (hsound : SignatureSound hmac json d rawToken jwt)
    (hg : Genuine hmac json rawToken jwt alg header payload) : alg = .hs256 := by
  obtain ⟨s0, s1, s2, alg', hseg, halg, hs2⟩ :=
    hsound _ (readAndVerify_ok_iff.mpr ⟨alg, header, payload, hg, rfl⟩)
  obtain ⟨t0, t1, t2, text, hseg', hnames, -, -, ht2⟩ := hg
  obtain ⟨ms, hms, hfind⟩ := Value.stringMember_eq_some_iff.mp halg
  obtain rfl := Value.object.inj hms
  obtain rfl : alg = alg' := by
    have := hnames.alg.symm.trans hfind
    exact jwtAlgStr_injective (Value.string.inj (Option.some.inj this))
  obtain ⟨rfl, rfl, rfl⟩ : t0 = s0 ∧ t1 = s1 ∧ t2 = s2 := by
    simpa using hseg'.symm.trans hseg
  have h43 := length_signature hmac .hs256 jwt.secret (t0 ++ ascii "." ++ t1)
  have hlen := length_signature hmac alg jwt.secret (t0 ++ ascii "." ++ t1)
  rw [← hs2, ht2, expectedSignature] at hlen
  have := h43.symm.trans hlen
  cases alg with
  | hs256 => rfl
  | hs384 => exact absurd this (by decide)
  | hs512 => exact absurd this (by decide)

/-- **Signatures are sound exactly for HS256.** Every token that gets through the checks is signed
with HMAC-SHA256, so the property fails for those whose header names HS384 or HS512. -/
theorem signatureSound_iff (hmac : Hmac) (json : JsonLib) (d : JWTDecoder) (rawToken : Bytes)
    (jwt : JsonWebToken) :
    SignatureSound hmac json d rawToken jwt ↔
      ∀ alg header payload, Genuine hmac json rawToken jwt alg header payload → alg = .hs256 := by
  constructor
  · intro hsound alg header payload hg
    exact hs256_of_signatureSound hsound hg
  · intro hall jwt' hok
    obtain ⟨alg, header, payload, hg, rfl⟩ := readAndVerify_ok_iff.mp hok
    obtain rfl := hall alg header payload hg
    obtain ⟨s0, s1, s2, text, hseg, hnames, -, -, hs2⟩ := hg
    exact ⟨s0, s1, s2, .hs256, hseg,
      Value.stringMember_eq_some_iff.mpr ⟨header, rfl, hnames.alg⟩, hs2⟩

/-- The text of a header naming `alg`. -/
def headerText (alg : Algorithm) : Bytes :=
  ascii "\x7b\"alg\":\"" ++ jwtAlgStr alg ++ ascii "\",\"typ\":\"JWT\"\x7d"

/-- jsoncpp on the two texts of a token with payload `ms`, written `text`. -/
def jsonOf (alg : Algorithm) (text : Bytes) (ms : List (Bytes × Value)) : JsonLib :=
  twoTexts (headerText alg) (.object (headerMembers alg)) text (.object ms)

/-- A token naming HS384 that carries the (zero) HMAC-SHA256. -/
theorem genuine_hs384 :
    Genuine zeroHmac (jsonOf .hs384 (ascii "\x7b\x7d") [])
      (ascii "eyJhbGciOiJIUzM4NCIsInR5cCI6IkpXVCJ9.e30." ++ List.replicate 43 65) {} .hs384
      (headerMembers .hs384) (.object []) := by
  refine ⟨ascii "eyJhbGciOiJIUzM4NCIsInR5cCI6IkpXVCJ9", ascii "e30", List.replicate 43 65,
    ascii "\x7b\x7d", by decide +kernel, ?_, by decide +kernel, rfl, by decide +kernel⟩
  exact ⟨⟨headerText .hs384, by decide +kernel, rfl⟩, rfl, rfl⟩

theorem not_signatureSound_hs384 :
    ¬SignatureSound zeroHmac (jsonOf .hs384 (ascii "\x7b\x7d") []) {}
      (ascii "eyJhbGciOiJIUzM4NCIsInR5cCI6IkpXVCJ9.e30." ++ List.replicate 43 65) {} := by
  intro h
  exact absurd (hs256_of_signatureSound h genuine_hs384) (by decide)

/-! ## The claims -/

/-- A claim has its type, and every validator returns true on its value. -/
def Passes {α : Type} (read : Value → Option α) (validators : List (α → Bool)) (v : Value) : Prop :=
  ∃ a, read v = some a ∧ ∀ cb ∈ validators, cb a = true

/-- The reserved claims of a payload pass the validators of `d`. -/
structure ClaimsPass (d : JWTDecoder) (payload : List (Bytes × Value)) : Prop where
  iss : ∀ v ∈ findMember (ascii "iss") payload, Passes Value.string? d.issuerValidators v
  sub : ∀ v ∈ findMember (ascii "sub") payload, Passes Value.string? d.subjectValidators v
  exp : ∀ v ∈ findMember (ascii "exp") payload, Passes time? d.expirationTimeValidators v
  iat : ∀ v ∈ findMember (ascii "iat") payload, Passes time? d.issuedAtValidators v

/-- If the token is accepted and its payload is an object, the reserved claims pass. -/
def Enforced (hmac : Hmac) (json : JsonLib) (d : JWTDecoder) (rawToken : Bytes)
    (jwt : JsonWebToken) : Prop :=
  ∀ jwt' payload, readAndVerify hmac json d rawToken jwt = .ok (.ok, jwt') →
    jwt'.payload = .object payload → ClaimsPass d payload

/-- A decoder whose validators refuse everything. -/
def refusing : JWTDecoder where
  issuerValidators := [fun _ => false]
  subjectValidators := [fun _ => false]
  issuedAtValidators := [fun _ => false]
  expirationTimeValidators := [fun _ => false]

theorem not_passes_refusing {α : Type} (read : Value → Option α) (v : Value) :
    ¬Passes read [fun _ => false] v := by
  rintro ⟨a, -, hall⟩
  exact absurd (hall _ List.mem_cons_self) Bool.false_ne_true

theorem claimsPass_of_noReserved {payload : List (Bytes × Value)} (h : NoReserved payload) :
    ClaimsPass d payload := by
  have none_ (key : Bytes) (hkey : key ∈ reserved) (v : Value) :
      v ∉ findMember key payload := by
    rw [h key hkey]
    exact Option.not_mem_none v
  exact ⟨fun v hv => absurd hv (none_ _ (by simp [reserved]) v),
    fun v hv => absurd hv (none_ _ (by simp [reserved]) v),
    fun v hv => absurd hv (none_ _ (by simp [reserved]) v),
    fun v hv => absurd hv (none_ _ (by simp [reserved]) v)⟩

theorem noReserved_of_refusing {payload : List (Bytes × Value)}
    (h : ClaimsPass refusing payload) : NoReserved payload := by
  intro key hkey
  rw [Option.eq_none_iff_forall_not_mem]
  intro v hv
  simp only [reserved, List.mem_cons, List.not_mem_nil, or_false] at hkey
  rcases hkey with rfl | rfl | rfl | rfl
  · exact not_passes_refusing _ v (h.iss v hv)
  · exact not_passes_refusing _ v (h.exp v hv)
  · exact not_passes_refusing _ v (h.iat v hv)
  · exact not_passes_refusing _ v (h.sub v hv)

theorem enforced_iff_of_genuine :
    Enforced hmac json d rawToken jwt ↔ ∀ alg header payload,
      Genuine hmac json rawToken jwt alg header (.object payload) → ClaimsPass d payload := by
  constructor
  · intro h alg header payload hg
    exact h _ payload (readAndVerify_ok_iff.mpr ⟨alg, header, _, hg, rfl⟩) rfl
  · intro h jwt' payload hok hp
    obtain ⟨alg, header, v, hg, rfl⟩ := readAndVerify_ok_iff.mp hok
    obtain rfl : v = .object payload := hp
    exact h alg header payload hg

/-- **The validators are never consulted.** With a given decoder they are enforced iff the token
is not genuine or its claims happen to pass; with every decoder, iff it is not genuine or has no
reserved claim. -/
theorem enforced_iff (hmac : Hmac) (json : JsonLib) (rawToken : Bytes) (jwt : JsonWebToken) :
    (∀ d, Enforced hmac json d rawToken jwt ↔ ∀ alg header payload,
      Genuine hmac json rawToken jwt alg header (.object payload) → ClaimsPass d payload) ∧
    ((∀ d, Enforced hmac json d rawToken jwt) ↔ ∀ alg header payload,
      Genuine hmac json rawToken jwt alg header (.object payload) → NoReserved payload) := by
  refine ⟨fun d => enforced_iff_of_genuine, fun h alg header payload hg => ?_, fun h d => ?_⟩
  · exact noReserved_of_refusing (enforced_iff_of_genuine.mp (h refusing) alg header payload hg)
  · exact enforced_iff_of_genuine.mpr fun alg header payload hg =>
      claimsPass_of_noReserved (h alg header payload hg)

/-- A genuine token whose payload has an issuer. -/
theorem genuine_iss :
    Genuine zeroHmac
      (jsonOf .hs256 (ascii "\x7b\"iss\":\"x\"\x7d") [(ascii "iss", .string (ascii "x"))])
      (ascii "eyJhbGciOiJIUzI1NiIsInR5cCI6IkpXVCJ9.eyJpc3MiOiJ4In0." ++ List.replicate 43 65) {}
      .hs256 (headerMembers .hs256) (.object [(ascii "iss", .string (ascii "x"))]) := by
  refine ⟨ascii "eyJhbGciOiJIUzI1NiIsInR5cCI6IkpXVCJ9", ascii "eyJpc3MiOiJ4In0",
    List.replicate 43 65, ascii "\x7b\"iss\":\"x\"\x7d", by decide +kernel, ?_,
    by decide +kernel, rfl, by decide +kernel⟩
  exact ⟨⟨headerText .hs256, by decide +kernel, rfl⟩, rfl, rfl⟩

theorem not_enforced_iss :
    ¬Enforced zeroHmac
      (jsonOf .hs256 (ascii "\x7b\"iss\":\"x\"\x7d") [(ascii "iss", .string (ascii "x"))])
      refusing
      (ascii "eyJhbGciOiJIUzI1NiIsInR5cCI6IkpXVCJ9.eyJpc3MiOiJ4In0." ++ List.replicate 43 65)
      {} := by
  intro h
  have hnone := noReserved_of_refusing (enforced_iff_of_genuine.mp h _ _ _ genuine_iss)
  exact absurd (hnone (ascii "iss") List.mem_cons_self) (by simp [findMember])

end WinterWind
