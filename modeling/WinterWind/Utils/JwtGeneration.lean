import WinterWind.Utils.JwtRoundTrip

/-!
# What the generator writes

Two laws of `JsonWebToken::get`, each with the exact inputs it holds for.

* `WellFormedJws`: the returned string is `h.p.s` over the URL-safe alphabet, and `s` is the
  encoded HMAC of the text `h.p` in it. `get` signs the encodings before their padding is removed,
  and writes the signature in the standard alphabet.
* `EmitsClaims`: a reserved member of the payload is refused, and otherwise the JSON encoded is the
  payload with the claims the builder calls set. `Encodes` says which JSON that is: the value whose
  text is in the token, whatever jsoncpp writes. `issuedAt` raises the flag of the issuer, so no
  sequence of calls ever emits `iat`.

Results:
* **`wellFormedJws_get_iff`**: a token is well formed iff the padded and the unpadded signing input
  have one digest and no 6-bit group of it is 62 or 63.
* **`emitsClaims_iff`**: the claims are emitted iff the payload is refused or `issuedAt` was not
  called.
-/

namespace WinterWind

open Library

/-! ## Well-formed tokens -/

/-- `h.p.s` in the URL-safe alphabet, where `s` signs the text `h.p`. -/
structure WellFormedJws (hmac : Hmac) (alg : Algorithm) (secret t : Bytes) : Prop where
  dots : t.count 46 = 2
  chars : ∀ c ∈ t, c ≠ 46 → c ∈ base64UrlChars
  signed : ∃ h p s, t = h ++ ascii "." ++ p ++ ascii "." ++ s ∧
    s = urlUnpadded (hmac.of alg secret (h ++ ascii "." ++ p))

/-- The payloads for which `get` writes a token: `null` or an object, no reserved member. -/
def Admissible (payload : Value) : Prop := ∃ ms, payload.members = .ok ms ∧ NoReserved ms

/-- The text that `get` signs. -/
def JsonWebToken.signedInput (json : JsonLib) (jwt : JsonWebToken) : Bytes :=
  signingInput json (.object (headerMembers jwt.algorithm))
    (jwt.finalPayload.toOption.getD .null)

/-- `get` returns a token, and a well-formed one. -/
def GetsJws (hmac : Hmac) (json : JsonLib) (jwt : JsonWebToken) : Prop :=
  ∀ result, ∃ t, jwt.get hmac json result = .ok (.ok, t) ∧
    WellFormedJws hmac jwt.algorithm jwt.secret t

theorem setIf_members (set : Bool) (key : Bytes) (w : Value) {v : Value}
    {ms : List (Bytes × Value)} (h : v.members = .ok ms) :
    ∃ v' ms', setIf set key w v = .ok v' ∧ v'.members = .ok ms' := by
  cases set with
  | false => exact ⟨v, ms, rfl, h⟩
  | true =>
    refine ⟨.object (insertMember key w ms), _, ?_, rfl⟩
    simp [setIf, Value.setMember, h, bind, Except.bind, pure, Except.pure]

/-- `null` becomes an object with the first claim that is set. -/
theorem finalPayload_ok {jwt : JsonWebToken} {ms : List (Bytes × Value)}
    (h : jwt.payload.members = .ok ms) : ∃ v, jwt.finalPayload = .ok v := by
  obtain ⟨v1, ms1, e1, h1⟩ := setIf_members jwt.subjectSet (ascii "sub") (.string jwt.subject) h
  obtain ⟨v2, ms2, e2, h2⟩ := setIf_members jwt.issuerSet (ascii "iss") (.string jwt.issuer) h1
  obtain ⟨v3, ms3, e3, h3⟩ :=
    setIf_members jwt.expirationTimeSet (ascii "exp") (.int jwt.expirationTime) h2
  obtain ⟨v4, ms4, e4, -⟩ := setIf_members jwt.issuedAtSet (ascii "iat") (.int jwt.issuedAt) h3
  refine ⟨v4, ?_⟩
  simp only [JsonWebToken.finalPayload, e1, e2, e3, bind, Except.bind]
  exact e4

/-- An admissible payload gives a token of a value, whose signing input is `signedInput`. -/
theorem get_admissible (hmac : Hmac) (json : JsonLib) {jwt : JsonWebToken}
    (h : Admissible jwt.payload) : ∃ v,
      jwt.signedInput json = signingInput json (.object (headerMembers jwt.algorithm)) v ∧
      ∀ result, jwt.get hmac json result =
        .ok (.ok, tokenOf hmac json jwt.algorithm jwt.secret v) := by
  obtain ⟨ms, hms, hfree⟩ := h
  obtain ⟨v, hv⟩ := finalPayload_ok hms
  refine ⟨v, ?_, get_of_finalPayload hmac json (anyMember_noReserved hms hfree) hv⟩
  rw [JsonWebToken.signedInput, hv]
  rfl

theorem unpadded_subset (s : Bytes) : ∀ c ∈ unpadded (base64UrlEncode s), c ∈ base64UrlChars := by
  rw [unpadded_base64UrlEncode_take]
  exact symbols_subset rfl _

theorem splitOn_three {h p s : Bytes} (hh : 46 ∉ h) (hp : 46 ∉ p) (hs : 46 ∉ s) :
    (h ++ ascii "." ++ p ++ ascii "." ++ s).splitOn 46 = [h, p, s] := by
  have htext : h ++ ascii "." ++ p ++ ascii "." ++ s = [46].intercalate [h, p, s] := by
    simp [List.intercalate, ascii]
  rw [htext]
  refine List.splitOn_intercalate 46 (fun q hq => ?_) (List.cons_ne_nil _ _)
  simp only [List.mem_cons, List.not_mem_nil, or_false] at hq
  rcases hq with rfl | rfl | rfl
  · exact hh
  · exact hp
  · exact hs

/-- Two texts of three dot-free parts are equal only if the parts are. -/
theorem parts_unique {h p s h' p' s' : Bytes} (hh : 46 ∉ h) (hp : 46 ∉ p) (hs : 46 ∉ s)
    (hcount : (h' ++ ascii "." ++ p' ++ ascii "." ++ s').count 46 = 2)
    (e : h ++ ascii "." ++ p ++ ascii "." ++ s = h' ++ ascii "." ++ p' ++ ascii "." ++ s') :
    h = h' ∧ p = p' ∧ s = s' := by
  have hdot : (ascii ".").count 46 = 1 := by decide
  simp only [List.count_append, hdot] at hcount
  have hh' : 46 ∉ h' := List.count_eq_zero.mp (by omega)
  have hp' : 46 ∉ p' := List.count_eq_zero.mp (by omega)
  have hs' : 46 ∉ s' := List.count_eq_zero.mp (by omega)
  have hsplit := congrArg (List.splitOn 46) e
  rw [splitOn_three hh hp hs, splitOn_three hh' hp' hs'] at hsplit
  simpa using hsplit

/-- Three dot-free parts are well formed iff the last one signs the others. -/
theorem wellFormedJws_parts_iff (hmac : Hmac) (alg : Algorithm) (secret : Bytes) {h p s : Bytes}
    (hh : 46 ∉ h) (hp : 46 ∉ p) (hs : 46 ∉ s) (hhc : ∀ c ∈ h, c ∈ base64UrlChars)
    (hpc : ∀ c ∈ p, c ∈ base64UrlChars) :
    WellFormedJws hmac alg secret (h ++ ascii "." ++ p ++ ascii "." ++ s) ↔
      s = urlUnpadded (hmac.of alg secret (h ++ ascii "." ++ p)) := by
  constructor
  · rintro ⟨hdots, -, h', p', s', e, hsigned⟩
    obtain ⟨rfl, rfl, rfl⟩ := parts_unique hh hp hs (e ▸ hdots) e
    exact hsigned
  · intro hsigned
    refine ⟨?_, fun c hc hne => ?_, h, p, s, rfl, hsigned⟩
    · have hdot : (ascii ".").count 46 = 1 := by decide
      simp only [List.count_append, hdot, List.count_eq_zero.mpr hh, List.count_eq_zero.mpr hp,
        List.count_eq_zero.mpr hs]
    · have hdot : c ∉ ascii "." := by simpa [ascii] using hne
      simp only [List.mem_append, hdot, or_false] at hc
      rcases hc with (hc | hc) | hc
      · exact hhc c hc
      · exact hpc c hc
      · rw [hsigned] at hc
        exact symbols_subset rfl _ hc

/-- **A token is well formed** iff what was signed and what is emitted have one digest, and the two
alphabets write it alike. -/
theorem wellFormedJws_tokenOf_iff (hmac : Hmac) (json : JsonLib) (alg : Algorithm)
    (secret : Bytes) (v : Value) :
    WellFormedJws hmac alg secret (tokenOf hmac json alg secret v) ↔
      let input := signingInput json (.object (headerMembers alg)) v
      hmac.of alg secret input = hmac.of alg secret (unpadded input) ∧
        ∀ g ∈ sextets (hmac.of alg secret input), g < 62 := by
  have hinput : unpadded (signingInput json (.object (headerMembers alg)) v) =
      unpadded (base64UrlEncode (json.write (.object (headerMembers alg)))) ++ ascii "." ++
        unpadded (base64UrlEncode (json.write v)) := by
    simp only [signingInput, unpadded_append, unpadded_dot]
  have hsmall (input : Bytes) : (hmac.of alg secret input).length < 2 ^ 32 :=
    length_hmac_of hmac alg secret input ▸ digestLength_lt alg
  have hfree : 46 ∉ unpadded (base64Encode
      (hmac.of alg secret (signingInput json (.object (headerMembers alg)) v))) := by
    rw [unpadded_signature hmac alg secret (signingInput json (.object (headerMembers alg)) v)]
    exact dot_not_mem_symbols rfl (by decide) _
  rw [tokenOf_eq]
  dsimp only
  rw [wellFormedJws_parts_iff hmac alg secret (dot_not_mem_unpadded _) (dot_not_mem_unpadded _)
    hfree (unpadded_subset _) (unpadded_subset _), ← hinput,
    ← unpadded_base64UrlEncode (hsmall _), standard_eq_url_iff (hsmall _) (hsmall _)]
  constructor
  · rintro ⟨hdigest, hall⟩
    exact ⟨hdigest, hdigest ▸ hall⟩
  · rintro ⟨hdigest, hall⟩
    exact ⟨hdigest, hdigest ▸ hall⟩

/-- **When `get` returns a well-formed token**: the HMAC gives the padded text that is signed and
the unpadded text that is emitted one digest, and no 6-bit group of it is 62 or 63. -/
theorem wellFormedJws_get_iff (hmac : Hmac) (json : JsonLib) (jwt : JsonWebToken)
    (h : Admissible jwt.payload) :
    GetsJws hmac json jwt ↔
      hmac.of jwt.algorithm jwt.secret (jwt.signedInput json) =
          hmac.of jwt.algorithm jwt.secret (unpadded (jwt.signedInput json)) ∧
        ∀ g ∈ sextets (hmac.of jwt.algorithm jwt.secret (jwt.signedInput json)), g < 62 := by
  obtain ⟨v, hinput, hget⟩ := get_admissible hmac json h
  have hiff := wellFormedJws_tokenOf_iff hmac json jwt.algorithm jwt.secret v
  dsimp only at hiff
  rw [hinput, ← hiff]
  constructor
  · intro hjws
    obtain ⟨t, ht, hwf⟩ := hjws []
    obtain rfl := (Prod.mk.inj (Except.ok.inj ((hget []).symm.trans ht))).2
    exact hwf
  · intro hwf result
    exact ⟨_, hget result, hwf⟩

theorem wellFormedJws_get_null : Admissible .null ∧
    GetsJws zeroHmac (writerOf subjectText [(ascii "sub", .string (ascii "x"))])
      (build .hs256 .null [] [.subject (ascii "x")]) :=
  ⟨⟨[], rfl, fun _ _ => rfl⟩,
    (wellFormedJws_get_iff _ _ _ ⟨[], rfl, fun _ _ => rfl⟩).mpr ⟨rfl, by decide +kernel⟩⟩

/-- The token of `jsonwebtokens_write_hs256`. -/
def testJwt : JsonWebToken :=
  build .hs256 (.object testPayload) (ascii "secret") [.subject (ascii "1234567890")]

/-- It carries the signature of the padded text. -/
theorem not_getsJws_test : Admissible testJwt.payload ∧ ¬GetsJws testHmac testJson testJwt := by
  refine ⟨⟨testPayload, rfl, noReserved_test⟩, fun h => ?_⟩
  obtain ⟨t, ht, hwf⟩ := h []
  have hpayload : testJwt.payload = .object testPayload := rfl
  rw [get_eq testHmac testJson hpayload noReserved_test] at ht
  obtain rfl := (Prod.mk.inj (Except.ok.inj ht)).2
  have hdigest := ((wellFormedJws_tokenOf_iff _ _ _ _ _).mp hwf).1
  exact absurd hdigest (by decide +kernel)

/-! ## The claims emitted -/

section Claims

variable (alg : Algorithm) (ms : List (Bytes × Value)) (secret : Bytes) (calls : List BuilderCall)

/-- The tokens of the builder encode the JSON object `members`: for every HMAC and every writer,
`get` returns a token whose second segment is the encoding of its text. -/
def Encodes (members : List (Bytes × Value)) : Prop :=
  ∀ hmac json result, ∃ t s0 s2,
    (build alg (.object ms) secret calls).get hmac json result = .ok (.ok, t) ∧
      segments t = [s0, unpadded (base64UrlEncode (json.write (.object members))), s2]

/-- A reserved member is refused and `result` left alone; otherwise the JSON encoded has the
payload's members and the claims of the builder calls, the last call of each deciding. -/
structure EmitsClaims : Prop where
  refused : ∀ hmac json result,
    (build alg (.object ms) secret calls).get hmac json result =
      .ok (.jwtClaimInPayload, result) ↔ ¬NoReserved ms
  emitted : NoReserved ms → ∃ members, Encodes alg ms secret calls members ∧
    ∀ key, findMember key members = withClaims ms calls key

variable {alg ms secret calls}

theorem get_reserved (hms : ¬NoReserved ms) (hmac : Hmac) (json : JsonLib) (result : Bytes) :
    (build alg (.object ms) secret calls).get hmac json result =
      .ok (.jwtClaimInPayload, result) := by
  have hpayload : (build alg (.object ms) secret calls).payload = .object ms :=
    (foldl_call_fields calls _).2.1
  have hsome : (reserved.any fun key => (findMember key ms).isSome) = true := by
    unfold NoReserved at hms
    push Not at hms
    obtain ⟨key, hkey, hne⟩ := hms
    exact List.any_eq_true.mpr ⟨key, hkey, Option.isSome_iff_ne_none.mpr hne⟩
  have hany := anyMember_members (Value.members_object ms) reserved
  rw [hsome, ← hpayload] at hany
  unfold reserved at hany
  unfold JsonWebToken.get
  simp only [hany, bind, Except.bind, if_true, pure, Except.pure]

theorem get_refused_iff (hmac : Hmac) (json : JsonLib) (result : Bytes) :
    (build alg (.object ms) secret calls).get hmac json result =
      .ok (.jwtClaimInPayload, result) ↔ ¬NoReserved ms := by
  refine ⟨fun h hms => ?_, fun hms => get_reserved hms hmac json result⟩
  rw [get_build hms result] at h
  simp at h

/-- The members that are encoded. -/
theorem encodes_finalMembers (hms : NoReserved ms) :
    Encodes alg ms secret calls ((build alg (.object ms) secret calls).finalMembers ms) :=
  fun _ _ result => ⟨_, _, _, get_build hms result, segments_generated⟩

/-- A writer that shows whether a member is there. -/
def showing (key : Bytes) : JsonLib where
  write v :=
    match v with
    | .object ms => if (findMember key ms).isSome then ascii "1" else ascii "0"
    | _ => ascii "0"
  parse _ root := (false, root)

theorem showing_injective : ∀ a b : Bool,
    unpadded (base64UrlEncode (if a then ascii "1" else ascii "0")) =
      unpadded (base64UrlEncode (if b then ascii "1" else ascii "0")) → a = b := by
  decide

/-- Which members are there can be read off the token. -/
theorem isSome_of_encodes {members : List (Bytes × Value)} (hms : NoReserved ms)
    (h : Encodes alg ms secret calls members) (key : Bytes) :
    (findMember key members).isSome =
      (findMember key ((build alg (.object ms) secret calls).finalMembers ms)).isSome := by
  obtain ⟨t, s0, s2, ht, hseg⟩ := h zeroHmac (showing key) []
  obtain ⟨t', s0', s2', ht', hseg'⟩ := encodes_finalMembers hms zeroHmac (showing key) []
  obtain rfl := (Prod.mk.inj (Except.ok.inj (ht.symm.trans ht'))).2
  rw [hseg, List.cons.injEq, List.cons.injEq] at hseg'
  exact showing_injective _ _ hseg'.2.1

theorem not_emitsClaims_issuedAt (hms : NoReserved ms) {t : Int64} (ht : .issuedAt t ∈ calls) :
    ¬EmitsClaims alg ms secret calls := by
  intro h
  obtain ⟨members, henc, hfind⟩ := h.emitted hms
  have hsome := isSome_of_encodes hms henc (ascii "iat")
  rw [find_iat_finalMembers hms alg secret calls, hfind, Option.isSome_none,
    Option.isSome_eq_false_iff, Option.isNone_iff_eq_none] at hsome
  exact withClaims_ne_none (ascii "iat") calls (findMember (ascii "iat") ms)
    (Or.inr ⟨_, ht, rfl⟩) hsome

end Claims

/-- **When the claims are emitted**: always, except for a payload without reserved members after a
call of `issuedAt`. -/
theorem emitsClaims_iff (alg : Algorithm) (ms : List (Bytes × Value)) (secret : Bytes)
    (calls : List BuilderCall) :
    EmitsClaims alg ms secret calls ↔ ¬NoReserved ms ∨ ∀ t, .issuedAt t ∉ calls := by
  constructor
  · intro h
    by_cases hms : NoReserved ms
    · exact Or.inr fun t ht => not_emitsClaims_issuedAt hms ht h
    · exact Or.inl hms
  · intro h
    refine ⟨get_refused_iff, fun hms => ?_⟩
    have hissued := h.resolve_left (not_not_intro hms)
    refine ⟨_, encodes_finalMembers hms, fun key => ?_⟩
    rw [build, find_finalMembers_foldl ms key calls _ hissued]
    rfl

theorem not_emitsClaims_iat : ¬EmitsClaims .hs256 [] [] [.issuedAt 1516239022] :=
  not_emitsClaims_issuedAt (fun _ _ => rfl) List.mem_cons_self

end WinterWind
