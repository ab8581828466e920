import WinterWind.Utils.JwtVerification

/-!
# Generated tokens fed to the verifier

`RoundTrip` is the law a generator and a verifier are meant to satisfy: what
`JsonWebToken::get` returns is accepted by `JWTDecoder::read_and_verify` under the same secret, and
decodes to the payload with the claims the builder calls set.

Five things break it, and `roundTrip_iff` says that nothing else does:
* `sign` is called on the encodings with their padding, and the verifier signs them without; a
  header always has padding. The two agree only if the HMAC gives both texts the same digest.
* The signature is written in the standard alphabet and compared with the URL-safe one.
* The verifier computes HMAC-SHA256 for every algorithm.
* `issuedAt` raises the flag of the issuer.
* A payload text with a 6-bit group of value 62 or 63 (or of `2^31` characters and more) is cut
  when it is decoded. What is lost is more than the final newline (`decode_cut`), so it is not
  read back.
-/

namespace WinterWind

open Library

/-! ## A text through the URL-safe pair -/

/-- A text short enough to be decoded, without a 6-bit group that the decoder refuses. -/
def PlainText (s : Bytes) : Prop := (sextets s).length < 2 ^ 31 ∧ ∀ v ∈ sextets s, v < 62

theorem unpadded_base64UrlEncode_take (s : Bytes) :
    unpadded (base64UrlEncode s) = urlUnpadded (s.take (s.length % 2 ^ 32)) := by
  rw [base64UrlEncode_eq]
  exact filter_urlUnpadded _ _

theorem decode_plain {s : Bytes} (h : PlainText s) :
    base64UrlDecode (unpadded (base64UrlEncode s)) = some s := by
  have hs : s.length < 2 ^ 32 := by
    have := h.1
    rw [length_sextets] at this
    omega
  have hlen : (urlUnpadded s ++ List.replicate 0 padChar).length < 2 ^ 31 := by
    rw [List.replicate_zero, List.append_nil, urlUnpadded, List.length_map]
    exact h.1
  have hdec := base64UrlDecode_urlUnpadded hlen
  rwa [List.replicate_zero, List.append_nil, (octets_takeWhile_eq_iff s).mpr h.2,
    ← unpadded_base64UrlEncode hs] at hdec

/-- **What is lost is more than the newline.** A text that is not plain and ends with a newline
comes back, if at all, without its last two bytes. -/
theorem decode_cut {s u : Bytes} (hlast : s.getLast? = some 10) (h : ¬PlainText s)
    (hu : base64UrlDecode (unpadded (base64UrlEncode s)) = some u) :
    ∃ k, k + 2 ≤ s.length ∧ u = s.take k := by
  rw [unpadded_base64UrlEncode_take] at hu
  by_cases hlen : (urlUnpadded (s.take (s.length % 2 ^ 32))).length < 2 ^ 31
  · have hdec := base64UrlDecode_urlUnpadded (x := s.take (s.length % 2 ^ 32)) (n := 0)
      (by simpa using hlen)
    rw [List.replicate_zero, List.append_nil, hu, Option.some.injEq,
      octets_eq_take (List.takeWhile_prefix _), List.take_take] at hdec
    refine ⟨_, ?_, hdec⟩
    by_cases hs : s.length < 2 ^ 32
    · rw [Nat.mod_eq_of_lt hs, List.take_length] at hlen ⊢
      rw [urlUnpadded, List.length_map] at hlen
      have hcut := takeWhile_sextets_lt (by decide) (by decide) (by decide) hlast fun hall =>
        h ⟨hlen, hall⟩
      omega
    · omega
  · rw [not_lt] at hlen
    obtain ⟨k, hk, rfl⟩ := base64DecodePriv_long hlen hu
    have hscan := scan_urlUnpadded (s.take (s.length % 2 ^ 32)) 0
    rw [List.replicate_zero, List.append_nil] at hscan
    have hpre := (List.take_prefix k ((sextets (s.take (s.length % 2 ^ 32))).takeWhile
      (· < 62))).trans (List.takeWhile_prefix _)
    have hlt : ∀ v ∈ ((sextets (s.take (s.length % 2 ^ 32))).takeWhile (· < 62)).take k, v < 64 :=
      fun v hv => sextets_lt _ v (hpre.subset hv)
    rw [hscan, ← List.map_take, decodeChars_symbols charIndex_symbol_url _ hlt,
      octets_eq_take hpre, List.take_take]
    refine ⟨_, ?_, rfl⟩
    rw [urlUnpadded, List.length_map, length_sextets, List.length_take] at hk hlen
    rw [List.length_take]
    omega

/-! ## A signature in the two alphabets -/

theorem unpadded_base64Encode {s : Bytes} (h : s.length < 2 ^ 32) :
    unpadded (base64Encode s) = (sextets s).map (symbol base64Chars) := by
  rw [base64Encode, Nat.mod_eq_of_lt h, base64EncodePriv_eq, List.take_length]
  exact filter_symbols rfl (by decide) s _

/-- The two alphabets agree below 62, and the last two symbols of the one are not in the other. -/
theorem symbol_eq_iff :
    ∀ v < 64, ∀ w < 64, symbol base64Chars v = symbol base64UrlChars w ↔ v = w ∧ w < 62 := by
  have hagree : ∀ w < 62, symbol base64Chars w = symbol base64UrlChars w := by decide +kernel
  have hindex : ∀ w < 64, charIndex base64Chars (symbol base64UrlChars w) =
      if w < 62 then UInt8.ofNat w else 255 := by decide +kernel
  intro v hv w hw
  constructor
  · intro e
    have hsame := congrArg (charIndex base64Chars) e
    rw [charIndex_symbol_std v hv, hindex w hw, ← UInt8.toNat_inj, UInt8.toNat_ofNat'] at hsame
    split at hsame
    · rename_i hlt
      rw [UInt8.toNat_ofNat'] at hsame
      exact ⟨by omega, hlt⟩
    · have h255 : (255 : UInt8).toNat = 255 := rfl
      omega
  · rintro ⟨rfl, hlt⟩
    exact hagree v hlt

theorem map_symbol_eq_iff (vs ws : List Nat) (hv : ∀ v ∈ vs, v < 64) (hw : ∀ w ∈ ws, w < 64) :
    vs.map (symbol base64Chars) = ws.map (symbol base64UrlChars) ↔ vs = ws ∧ ∀ w ∈ ws, w < 62 := by
  induction vs generalizing ws with
  | nil =>
    cases ws with
    | nil => simp
    | cons w ws => simp
  | cons v vs ih =>
    cases ws with
    | nil => simp
    | cons w ws =>
      rw [List.forall_mem_cons] at hv hw
      rw [List.map_cons, List.map_cons, List.cons.injEq, List.cons.injEq, List.forall_mem_cons,
        symbol_eq_iff v hv.1 w hw.1, ih ws hv.2 hw.2]
      exact and_and_and_comm

/-- A standard encoding equals a URL-safe one iff both encode the same bytes and these have no
large group. -/
theorem standard_eq_url_iff {x y : Bytes} (hx : x.length < 2 ^ 32) (hy : y.length < 2 ^ 32) :
    unpadded (base64Encode x) = unpadded (base64UrlEncode y) ↔
      x = y ∧ ∀ v ∈ sextets y, v < 62 := by
  rw [unpadded_base64Encode hx, unpadded_base64UrlEncode hy, urlUnpadded,
    map_symbol_eq_iff _ _ (sextets_lt x) (sextets_lt y)]
  exact and_congr_left fun _ => ⟨sextets_injective, congrArg sextets⟩

/-! ## The claims the builder sets -/

/-- The claim a builder call is meant to set. -/
def BuilderCall.claim : BuilderCall → Bytes × Value
  | .subject s => (ascii "sub", .string s)
  | .issuer s => (ascii "iss", .string s)
  | .expirationTime t => (ascii "exp", .int t)
  | .issuedAt t => (ascii "iat", .int t)

/-- The member `key` of a payload after the claims of `calls` were added, the last call deciding. -/
def withClaims (ms : List (Bytes × Value)) (calls : List BuilderCall) (key : Bytes) :
    Option Value :=
  calls.foldl (fun v c => if key = c.claim.1 then some c.claim.2 else v) (findMember key ms)

theorem claimNames_ne :
    (ascii "sub" ≠ ascii "iss" ∧ ascii "sub" ≠ ascii "exp" ∧ ascii "sub" ≠ ascii "iat") ∧
      (ascii "iss" ≠ ascii "exp" ∧ ascii "iss" ≠ ascii "iat") ∧ ascii "exp" ≠ ascii "iat" := by
  decide

/-- One call adds its claim, unless it is `issuedAt`. -/
theorem find_finalMembers_call (jwt : JsonWebToken) (ms : List (Bytes × Value)) (key : Bytes)
    {c : BuilderCall} (hc : ∀ t, c ≠ .issuedAt t) :
    findMember key ((jwt.call c).finalMembers ms) =
      if key = c.claim.1 then some c.claim.2 else findMember key (jwt.finalMembers ms) := by
  obtain ⟨⟨h1, h2, h3⟩, ⟨h4, h5⟩, h6⟩ := claimNames_ne
  cases c with
  | issuedAt t => exact absurd rfl (hc t)
  | subject s =>
    simp only [JsonWebToken.call, JsonWebToken.finalMembers, find_insertIf, BuilderCall.claim]
    by_cases hk : key = ascii "sub"
    · simp [hk, h1, h2, h3]
    · simp [hk]
  | issuer s =>
    simp only [JsonWebToken.call, JsonWebToken.finalMembers, find_insertIf, BuilderCall.claim]
    by_cases hk : key = ascii "iss"
    · simp [hk, h4, h5]
    · simp [hk]
  | expirationTime t =>
    simp only [JsonWebToken.call, JsonWebToken.finalMembers, find_insertIf, BuilderCall.claim]
    by_cases hk : key = ascii "exp"
    · simp [hk, h6]
    · simp [hk]

theorem find_finalMembers_foldl (ms : List (Bytes × Value)) (key : Bytes) :
    ∀ (calls : List BuilderCall) (jwt : JsonWebToken), (∀ t, .issuedAt t ∉ calls) →
      findMember key ((calls.foldl JsonWebToken.call jwt).finalMembers ms) =
        calls.foldl (fun v c => if key = c.claim.1 then some c.claim.2 else v)
          (findMember key (jwt.finalMembers ms))
  | [], _, _ => rfl
  | c :: calls, jwt, h => by
    have hc : ∀ t, c ≠ .issuedAt t := fun t e => h t (e ▸ List.mem_cons_self)
    rw [List.foldl_cons, List.foldl_cons,
      find_finalMembers_foldl ms key calls _ fun t ht => h t (List.mem_cons_of_mem c ht),
      find_finalMembers_call jwt ms key hc]

/-- What the builder calls leave alone. No call raises the flag of `issuedAt`. -/
theorem foldl_call_fields : ∀ (calls : List BuilderCall) (jwt : JsonWebToken),
    (calls.foldl JsonWebToken.call jwt).algorithm = jwt.algorithm ∧
      (calls.foldl JsonWebToken.call jwt).payload = jwt.payload ∧
      (calls.foldl JsonWebToken.call jwt).secret = jwt.secret ∧
      (calls.foldl JsonWebToken.call jwt).issuedAtSet = jwt.issuedAtSet
  | [], _ => ⟨rfl, rfl, rfl, rfl⟩
  | c :: calls, jwt => by
    have h := foldl_call_fields calls (jwt.call c)
    rw [List.foldl_cons, h.1, h.2.1, h.2.2.1, h.2.2.2]
    cases c <;> exact ⟨rfl, rfl, rfl, rfl⟩

theorem withClaims_ne_none (key : Bytes) : ∀ (calls : List BuilderCall) (v : Option Value),
    (v ≠ none ∨ ∃ c ∈ calls, key = c.claim.1) →
      calls.foldl (fun v c => if key = c.claim.1 then some c.claim.2 else v) v ≠ none
  | [], v, h => by simpa using h
  | c :: calls, v, h => by
    rw [List.foldl_cons]
    refine withClaims_ne_none key calls _ ?_
    by_cases hk : key = c.claim.1
    · exact Or.inl (by simp [hk])
    · rcases h with h | ⟨c', hc', hk'⟩
      · exact Or.inl (by simpa [hk] using h)
      · rcases List.mem_cons.mp hc' with rfl | hmem
        · exact absurd hk' hk
        · exact Or.inr ⟨c', hmem, hk'⟩

/-- No call makes the generator emit `iat`. -/
theorem find_iat_finalMembers {ms : List (Bytes × Value)} (hms : NoReserved ms) (alg : Algorithm)
    (secret : Bytes) (calls : List BuilderCall) :
    findMember (ascii "iat") ((build alg (.object ms) secret calls).finalMembers ms) = none := by
  have hset := (foldl_call_fields calls
    { algorithm := alg, payload := .object ms, secret := secret }).2.2.2
  have hnone := hms (ascii "iat") (by simp [reserved])
  obtain ⟨⟨-, -, hsub⟩, ⟨-, hiss⟩, hexp⟩ := claimNames_ne
  simp only [JsonWebToken.finalMembers, find_insertIf, build, hset, hsub.symm, hiss.symm,
    hexp.symm, hnone, and_false, false_and, if_false, Bool.false_eq_true]

/-! ## The segments of a generated token -/

theorem unpadded_append (s t : Bytes) : unpadded (s ++ t) = unpadded s ++ unpadded t :=
  List.filter_append s t

theorem unpadded_unpadded (s : Bytes) : unpadded (unpadded s) = unpadded s := by
  unfold unpadded
  rw [List.filter_filter]
  simp

theorem unpadded_dot : unpadded (ascii ".") = ascii "." := by decide

theorem dot_not_mem_symbols {chars : Bytes} (hlen : chars.length = 64) (hdot : 46 ∉ chars)
    (x : Bytes) : 46 ∉ (sextets x).map (symbol chars) :=
  fun h => hdot (symbols_subset hlen x h)

theorem dot_not_mem_unpadded (s : Bytes) : 46 ∉ unpadded (base64UrlEncode s) := by
  rw [unpadded_base64UrlEncode_take]
  exact dot_not_mem_symbols rfl (by decide) _

/-- The signature of a token, without padding and in the standard alphabet. -/
theorem unpadded_signature (hmac : Hmac) (alg : Algorithm) (secret input : Bytes) :
    unpadded (base64Encode (hmac.of alg secret input)) =
      (sextets (hmac.of alg secret input)).map (symbol base64Chars) :=
  unpadded_base64Encode (length_hmac_of hmac alg secret input ▸ digestLength_lt alg)

/-- A generated token, from its three parts. -/
theorem tokenOf_eq (hmac : Hmac) (json : JsonLib) (alg : Algorithm) (secret : Bytes) (v : Value) :
    tokenOf hmac json alg secret v =
      unpadded (base64UrlEncode (json.write (.object (headerMembers alg)))) ++ ascii "." ++
        unpadded (base64UrlEncode (json.write v)) ++ ascii "." ++
        unpadded (base64Encode (hmac.of alg secret
          (signingInput json (.object (headerMembers alg)) v))) := by
  simp only [tokenOf, signingInput, unpadded_append, unpadded_dot, List.append_assoc]

/-- The segments of a generated token: the two encodings and the signature, without padding. -/
theorem segments_tokenOf (hmac : Hmac) (json : JsonLib) (alg : Algorithm) (secret : Bytes)
    (v : Value) : segments (tokenOf hmac json alg secret v) =
      [unpadded (base64UrlEncode (json.write (.object (headerMembers alg)))),
        unpadded (base64UrlEncode (json.write v)),
        unpadded (base64Encode (hmac.of alg secret
          (signingInput json (.object (headerMembers alg)) v)))] := by
  have hlen := length_hmac_of hmac alg secret (signingInput json (.object (headerMembers alg)) v)
  have hsig := unpadded_signature hmac alg secret
    (signingInput json (.object (headerMembers alg)) v)
  have htext : unpadded (tokenOf hmac json alg secret v) = [46].intercalate
      [unpadded (base64UrlEncode (json.write (.object (headerMembers alg)))),
        unpadded (base64UrlEncode (json.write v)),
        unpadded (base64Encode (hmac.of alg secret
          (signingInput json (.object (headerMembers alg)) v)))] := by
    simp only [tokenOf, unpadded_unpadded, unpadded_append, unpadded_dot, signingInput]
    simp [List.intercalate, ascii]
  rw [segments, htext]
  refine strSplit_intercalate (List.cons_ne_nil _ _) ?_ ?_
  · intro p hp
    simp only [List.mem_cons, List.not_mem_nil, or_false] at hp
    rcases hp with rfl | rfl | rfl
    · exact dot_not_mem_unpadded _
    · exact dot_not_mem_unpadded _
    · rw [hsig]
      exact dot_not_mem_symbols rfl (by decide) _
  · intro h
    have hnil : unpadded (base64Encode (hmac.of alg secret
        (signingInput json (.object (headerMembers alg)) v))) = [] := by simpa using h
    have := congrArg List.length hnil
    rw [hsig, List.length_map, length_sextets, hlen, List.length_nil] at this
    cases alg <;> simp [Algorithm.digestLength] at this

/-! ## The round trip -/

section RoundTrip

variable (hmac : Hmac) (json : JsonLib) (alg : Algorithm) (ms : List (Bytes × Value))
  (secret : Bytes) (calls : List BuilderCall)

/-- A generated token is accepted by a decoder without validators and decodes to the payload with
the claims that were set. -/
def RoundTrip : Prop :=
  ∀ result t, (build alg (.object ms) secret calls).get hmac json result = .ok (.ok, t) →
    ∃ jwt' ms', readAndVerify hmac json {} t { secret := secret } = .ok (.ok, jwt') ∧
      jwt'.payload = .object ms' ∧ ∀ key, findMember key ms' = withClaims ms calls key

/-- The payload that `get` writes. -/
def writtenPayload : Value := .object ((build alg (.object ms) secret calls).finalMembers ms)

/-- The text that `get` signs. -/
def signedText : Bytes :=
  signingInput json (.object (headerMembers alg)) (writtenPayload alg ms secret calls)

/-- The condition under which the round trip holds. -/
structure Survives : Prop where
  hs256 : alg = .hs256
  noIssuedAt : ∀ t, .issuedAt t ∉ calls
  plain : PlainText (json.write (writtenPayload alg ms secret calls))
  digest : hmac.sha256 secret (signedText json alg ms secret calls) =
    hmac.sha256 secret (unpadded (signedText json alg ms secret calls))
  small : ∀ v ∈ sextets (hmac.sha256 secret (signedText json alg ms secret calls)), v < 62

/-- The token that `get` returns. -/
def generated : Bytes :=
  unpadded (signedText json alg ms secret calls ++
    (ascii "." ++ base64Encode (hmac.of alg secret (signedText json alg ms secret calls))))

variable {hmac json alg ms secret calls}

theorem get_build (hms : NoReserved ms) (result : Bytes) :
    (build alg (.object ms) secret calls).get hmac json result =
      .ok (.ok, generated hmac json alg ms secret calls) := by
  obtain ⟨halg, hpayload, hsecret, -⟩ :=
    foldl_call_fields calls { algorithm := alg, payload := .object ms, secret := secret }
  have h : (build alg (.object ms) secret calls).get hmac json result = _ :=
    get_eq hmac json hpayload hms result
  rw [build] at h
  rw [build, h, halg, hsecret]
  rfl

theorem segments_generated : segments (generated hmac json alg ms secret calls) =
    [unpadded (base64UrlEncode (json.write (.object (headerMembers alg)))),
      unpadded (base64UrlEncode (json.write (writtenPayload alg ms secret calls))),
      unpadded (base64Encode (hmac.of alg secret (signedText json alg ms secret calls)))] :=
  segments_tokenOf hmac json alg secret _

theorem plainText_header : ∀ alg : Algorithm, PlainText (headerText alg ++ [10])
  | .hs256 => by unfold PlainText; decide +kernel
  | .hs384 => by unfold PlainText; decide +kernel
  | .hs512 => by unfold PlainText; decide +kernel

section Faithful

variable (hheader : json.write (.object (headerMembers alg)) = headerText alg ++ [10])
  (hh : json.Faithful (.object (headerMembers alg)))
  (hp : json.Faithful (writtenPayload alg ms secret calls))

include hheader hh in
theorem namesAlgorithm_generated (root : Value) {alg' : Algorithm} {header : List (Bytes × Value)} :
    NamesAlgorithm json (unpadded (base64UrlEncode (json.write (.object (headerMembers alg))))) root
      alg' header ↔ alg' = alg ∧ header = headerMembers alg := by
  have hdec := decode_plain (hheader ▸ plainText_header alg)
  constructor
  · rintro ⟨⟨text, htext, hparse⟩, halg, -⟩
    obtain rfl := Option.some.inj (hdec.symm.trans htext)
    rw [hh.inverse, Prod.mk.injEq] at hparse
    obtain rfl := Value.object.inj hparse.2
    refine ⟨jwtAlgStr_injective ?_, rfl⟩
    simpa [findMember, headerMembers, eq_comm] using halg
  · rintro ⟨rfl, rfl⟩
    exact ⟨⟨_, hdec, hh.inverse root⟩, rfl, rfl⟩

include hp in
/-- The decoded payload is the written one, and there is one only if its text is plain. -/
theorem payload_generated (root : Value) {payload : Value} :
    (∃ text, base64UrlDecode (unpadded (base64UrlEncode
        (json.write (writtenPayload alg ms secret calls)))) = some text ∧
      json.parse text root = (true, payload)) ↔
      PlainText (json.write (writtenPayload alg ms secret calls)) ∧
        payload = writtenPayload alg ms secret calls := by
  constructor
  · rintro ⟨text, htext, hparse⟩
    by_cases hplain : PlainText (json.write (writtenPayload alg ms secret calls))
    · obtain rfl := Option.some.inj ((decode_plain hplain).symm.trans htext)
      rw [hp.inverse, Prod.mk.injEq] at hparse
      exact ⟨hplain, hparse.2.symm⟩
    · obtain ⟨k, hk, rfl⟩ := decode_cut hp.newline hplain htext
      have hfalse := hp.cut k root hk
      rw [hparse] at hfalse
      exact absurd hfalse (by simp)
  · rintro ⟨hplain, rfl⟩
    exact ⟨_, decode_plain hplain, hp.inverse root⟩

/-- The verifier's signature equals the generator's iff the algorithm is HS256, the two signed texts
have one digest, and that digest has no large group. -/
theorem signature_generated (secret input input' : Bytes) :
    unpadded (base64Encode (hmac.of alg secret input)) =
        unpadded (base64UrlEncode (hmac.sha256 secret input')) ↔
      alg = .hs256 ∧ hmac.sha256 secret input = hmac.sha256 secret input' ∧
        ∀ v ∈ sextets (hmac.sha256 secret input), v < 62 := by
  have hlen := length_hmac_of hmac alg secret input
  have hlen' := hmac.length_sha256 secret input'
  rw [standard_eq_url_iff (hlen ▸ digestLength_lt alg) (by omega)]
  constructor
  · rintro ⟨heq, hsmall⟩
    rw [heq, hlen'] at hlen
    cases alg with
    | hs256 => exact ⟨rfl, heq, by rw [show hmac.sha256 secret input = _ from heq]; exact hsmall⟩
    | hs384 => exact absurd hlen (by decide)
    | hs512 => exact absurd hlen (by decide)
  · rintro ⟨rfl, heq, hsmall⟩
    exact ⟨heq, heq ▸ hsmall⟩

include hheader hh hp in
/-- When the verifier accepts a generated token, and what it decodes. -/
theorem genuine_generated_iff {alg' : Algorithm} {header : List (Bytes × Value)} {payload : Value} :
    Genuine hmac json (generated hmac json alg ms secret calls) { secret := secret } alg' header
        payload ↔
      (alg' = alg ∧ header = headerMembers alg) ∧
        (PlainText (json.write (writtenPayload alg ms secret calls)) ∧
          payload = writtenPayload alg ms secret calls) ∧
        alg = .hs256 ∧ hmac.sha256 secret (signedText json alg ms secret calls) =
          hmac.sha256 secret (unpadded (signedText json alg ms secret calls)) ∧
        ∀ v ∈ sextets (hmac.sha256 secret (signedText json alg ms secret calls)), v < 62 := by
  have htext : unpadded (signedText json alg ms secret calls) =
      unpadded (base64UrlEncode (json.write (.object (headerMembers alg)))) ++ ascii "." ++
        unpadded (base64UrlEncode (json.write (writtenPayload alg ms secret calls))) := by
    simp only [signedText, signingInput, unpadded_append, unpadded_dot]
  rw [← namesAlgorithm_generated hheader hh .null, ← payload_generated hp .null,
    ← signature_generated, htext]
  constructor
  · rintro ⟨s0, s1, s2, text, hseg, hnames, hdec, hparse, hsig⟩
    rw [segments_generated] at hseg
    obtain ⟨rfl, rfl, rfl⟩ : _ = s0 ∧ _ = s1 ∧ _ = s2 := by simpa using hseg
    exact ⟨hnames, ⟨text, hdec, hparse⟩, hsig⟩
  · rintro ⟨hnames, ⟨text, hdec, hparse⟩, hsig⟩
    exact ⟨_, _, _, text, segments_generated, hnames, hdec, hparse, hsig⟩

end Faithful

end RoundTrip

/-- **When a generated token survives the verifier.** For an object payload without reserved
members, given that jsoncpp reads back what it writes, the round trip holds iff the algorithm is
HS256, `issuedAt` was not called, the payload's text is plain, and the HMAC gives the padded and
the unpadded signing input one digest without large groups. -/
theorem roundTrip_iff (hmac : Hmac) (json : JsonLib) (alg : Algorithm) (ms : List (Bytes × Value))
    (secret : Bytes) (calls : List BuilderCall) (hms : NoReserved ms)
    (hheader : json.write (.object (headerMembers alg)) = headerText alg ++ [10])
    (hh : json.Faithful (.object (headerMembers alg)))
    (hp : json.Faithful (writtenPayload alg ms secret calls)) :
    RoundTrip hmac json alg ms secret calls ↔ Survives hmac json alg ms secret calls := by
  constructor
  · intro h
    obtain ⟨jwt', ms', hok, hpayload, hfind⟩ := h [] _ (get_build hms [])
    obtain ⟨alg', header, payload, hg, rfl⟩ := readAndVerify_ok_iff.mp hok
    obtain ⟨-, ⟨hplain, rfl⟩, halg, hdigest, hsmall⟩ := (genuine_generated_iff hheader hh hp).mp hg
    refine ⟨halg, fun t ht => ?_, hplain, hdigest, hsmall⟩
    obtain rfl : (build alg (.object ms) secret calls).finalMembers ms = ms' :=
      Value.object.inj hpayload
    refine withClaims_ne_none (ascii "iat") calls (findMember (ascii "iat") ms)
      (Or.inr ⟨_, ht, rfl⟩) ((hfind (ascii "iat")).symm.trans ?_)
    exact find_iat_finalMembers hms alg secret calls
  · rintro ⟨halg, hissued, hplain, hdigest, hsmall⟩ result t ht
    obtain rfl := (Prod.mk.inj (Except.ok.inj ((get_build hms result).symm.trans ht))).2
    have hg := (genuine_generated_iff hheader hh hp).mpr
      ⟨⟨rfl, rfl⟩, ⟨hplain, rfl⟩, halg, hdigest, hsmall⟩
    refine ⟨_, _, readAndVerify_ok_iff.mpr ⟨_, _, _, hg, rfl⟩, rfl, fun key => ?_⟩
    rw [build, find_finalMembers_foldl ms key calls _ hissued]
    rfl

/-- jsoncpp on a token naming HS256 whose payload is `ms`, written `text`. -/
def writerOf (text : Bytes) (ms : List (Bytes × Value)) : JsonLib :=
  twoTexts (headerText .hs256 ++ [10]) (.object (headerMembers .hs256)) text (.object ms)

/-- The text of the payload with subject `x`. -/
def subjectText : Bytes := ascii "\x7b\"sub\":\"x\"\x7d\n"

/-- A library of two texts, neither a prefix of the other, is faithful on both values. -/
theorem faithful_twoTexts {h p : Bytes} {hv pv v : Value} (hph : ¬p <+: h) (hhp : ¬h <+: p)
    (hv' : (twoTexts h hv p pv).write v = h ∧ v = hv ∨ (twoTexts h hv p pv).write v = p ∧ v = pv)
    (hlast : ((twoTexts h hv p pv).write v).getLast? = some 10) :
    (twoTexts h hv p pv).Faithful v := by
  have hne : p ≠ h := fun e => hph (e ▸ List.prefix_rfl)
  refine ⟨hlast, fun root => ?_, fun k root hk => ?_⟩
  · rcases hv' with ⟨hw, rfl⟩ | ⟨hw, rfl⟩
    · rw [hw]
      simp [twoTexts]
    · rw [hw]
      simp [twoTexts, hne]
  · have hnot : ∀ s, s = h ∨ s = p → k + 2 ≤ s.length → s.take k ≠ h ∧ s.take k ≠ p := by
      rintro s (rfl | rfl) hs
      · refine ⟨fun e => ?_, fun e => hph (e ▸ List.take_prefix k s)⟩
        have := congrArg List.length e
        rw [List.length_take] at this
        omega
      · refine ⟨fun e => hhp (e ▸ List.take_prefix k s), fun e => ?_⟩
        have := congrArg List.length e
        rw [List.length_take] at this
        omega
    obtain ⟨h1, h2⟩ := hnot _ (hv'.imp And.left And.left) hk
    generalize ((twoTexts h hv p pv).write v).take k = text at h1 h2
    simp [twoTexts, h1, h2]

theorem roundTrip_subject :
    RoundTrip zeroHmac (writerOf subjectText [(ascii "sub", .string (ascii "x"))]) .hs256 [] []
      [.subject (ascii "x")] :=
  (roundTrip_iff _ _ _ _ _ _ (fun _ _ => rfl) rfl
    (faithful_twoTexts (by decide +kernel) (by decide +kernel) (Or.inl ⟨rfl, rfl⟩)
      (by decide +kernel))
    (faithful_twoTexts (by decide +kernel) (by decide +kernel) (Or.inr ⟨rfl, rfl⟩)
      (by decide +kernel))).mpr
    ⟨rfl, by simp, by unfold PlainText; decide +kernel, rfl, by decide +kernel⟩

/-! ## The token of the unit test -/

/-- The payload of `jsonwebtokens_write_hs256`. -/
def testPayload : List (Bytes × Value) :=
  [(ascii "admin", .boolean true), (ascii "name", .string (ascii "John Doe"))]

/-- What is written of it once the subject is set. -/
def testText : Bytes :=
  ascii "\x7b\"admin\":true,\"name\":\"John Doe\",\"sub\":\"1234567890\"\x7d\n"

def testJson : JsonLib :=
  writerOf testText (insertMember (ascii "sub") (.string (ascii "1234567890")) testPayload)

/-- HMAC on the padded signing input of that token, and on the unpadded one. -/
def testHmac : Hmac where
  sha256 _ data :=
    if data = ascii ("eyJhbGciOiJIUzI1NiIsInR5cCI6IkpXVCJ9Cg==.eyJhZG1pbiI6dHJ1ZSwibmFtZSI6Ikpv" ++
      "aG4gRG9lIiwic3ViIjoiMTIzNDU2Nzg5MCJ9Cg==") then
      [183, 32, 169, 42, 192, 16, 28, 5, 102, 137, 196, 4, 130, 150, 168, 96, 237, 85, 25, 232,
        58, 144, 41, 133, 122, 23, 150, 210, 130, 126, 83, 176]
    else
      [61, 94, 105, 252, 253, 94, 192, 239, 43, 201, 15, 68, 30, 183, 103, 48, 13, 87, 245, 152,
        67, 172, 14, 189, 27, 181, 192, 182, 94, 145, 75, 95]
  sha384 := zeroHmac.sha384
  sha512 := zeroHmac.sha512
  length_sha256 _ _ := by split <;> rfl
  length_sha384 := zeroHmac.length_sha384
  length_sha512 := zeroHmac.length_sha512

/-- A round trip needs one digest for the two signing inputs. -/
theorem digest_of_roundTrip {hmac : Hmac} {json : JsonLib} {alg : Algorithm}
    {ms : List (Bytes × Value)} {secret : Bytes} {calls : List BuilderCall} (hms : NoReserved ms)
    (h : RoundTrip hmac json alg ms secret calls) :
    hmac.sha256 secret (signedText json alg ms secret calls) =
      hmac.sha256 secret (unpadded (signedText json alg ms secret calls)) := by
  obtain ⟨jwt', ms', hok, -, -⟩ := h [] _ (get_build hms [])
  obtain ⟨alg', header, payload, hg, -⟩ := readAndVerify_ok_iff.mp hok
  obtain ⟨s0, s1, s2, text, hseg, -, -, -, hsig⟩ := hg
  rw [segments_generated] at hseg
  obtain ⟨rfl, rfl, rfl⟩ : _ = s0 ∧ _ = s1 ∧ _ = s2 := by simpa using hseg
  obtain ⟨-, hdigest, -⟩ := (signature_generated _ _ _).mp hsig
  rw [hdigest, signedText, signingInput, unpadded_append, unpadded_append, unpadded_dot]

theorem noReserved_test : NoReserved testPayload := by
  intro key hkey
  simp only [reserved, List.mem_cons, List.not_mem_nil, or_false] at hkey
  rcases hkey with rfl | rfl | rfl | rfl <;> rfl

/-- The token that the unit test generates is not accepted. -/
theorem not_roundTrip_test : NoReserved testPayload ∧
    ¬RoundTrip testHmac testJson .hs256 testPayload (ascii "secret")
      [.subject (ascii "1234567890")] :=
  ⟨noReserved_test, fun h => absurd (digest_of_roundTrip noReserved_test h) (by decide +kernel)⟩

end WinterWind
