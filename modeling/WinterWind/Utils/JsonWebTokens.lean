import WinterWind.Utils.Base64
import WinterWind.Utils.Json
import WinterWind.Utils.StringUtils

/-!
# Json web tokens (`src/core/utils/jsonwebtokens.cpp`)

The generator `JsonWebToken::get` and the verifier `JWTDecoder::read_and_verify`.

* OpenSSL's HMAC is a parameter: three functions of the key and the data, whose results have the
  lengths `hmac.cpp` copies. jsoncpp is the parameter `JsonLib`.
* A validator is a pure predicate. The two time validators take a `time_t`, to which the claim's
  `UInt64` is converted.
* `read_and_verify` is cut at its comments: `readHeader` up to the choice of the algorithm,
  `checkClaims` for the four checks at the end. The checks consult the local variable `payload` of
  the function, which stays `null`: the decoded payload goes to `jwt.m_payload`.

Results:
* `get_of_finalPayload`: the token generated for a payload without reserved members; `get_eq` for
  an object.
* **`readAndVerify_ok_iff`**: the tokens that are accepted. `Genuine` says it in terms of the
  token's segments alone: no validator appears in it.
-/

namespace WinterWind

/-- `JsonWebToken::Algorithm`, less the bound `JWT_ALG_MAX`. -/
inductive Algorithm where
  | hs256
  | hs384
  | hs512
  deriving Repr, DecidableEq

/-- `jwt_alg_str`. -/
def jwtAlgStr : Algorithm → Bytes
  | .hs256 => ascii "HS256"
  | .hs384 => ascii "HS384"
  | .hs512 => ascii "HS512"

/-- `hmac_sha256`, `hmac_sha384` and `hmac_sha512`, from the key and the data. -/
structure Hmac where
  sha256 : Bytes → Bytes → Bytes
  sha384 : Bytes → Bytes → Bytes
  sha512 : Bytes → Bytes → Bytes
  length_sha256 : ∀ key data, (sha256 key data).length = 32
  length_sha384 : ∀ key data, (sha384 key data).length = 48
  length_sha512 : ∀ key data, (sha512 key data).length = 64

/-- The function an algorithm names. -/
def Hmac.of (hmac : Hmac) : Algorithm → Bytes → Bytes → Bytes
  | .hs256 => hmac.sha256
  | .hs384 => hmac.sha384
  | .hs512 => hmac.sha512

/-- `JsonWebToken`, with the initial values of its fields. -/
structure JsonWebToken where
  algorithm : Algorithm := .hs256
  header : Value := .null
  payload : Value := .null
  secret : Bytes := []
  issuer : Bytes := []
  issuerSet : Bool := false
  subject : Bytes := []
  subjectSet : Bool := false
  issuedAt : Int64 := 0
  issuedAtSet : Bool := false
  expirationTime : Int64 := 0
  expirationTimeSet : Bool := false

/-! ## The generator -/

/-- A call that sets a reserved claim. -/
inductive BuilderCall where
  | subject (subject : Bytes)
  | issuer (issuer : Bytes)
  | expirationTime (when_ : Int64)
  | issuedAt (when_ : Int64)
  deriving Repr, DecidableEq

/-- The builder methods. `issuedAt` raises the flag of the issuer, as the source does. -/
def JsonWebToken.call (jwt : JsonWebToken) : BuilderCall → JsonWebToken
  | .issuedAt when_ => { jwt with issuedAt := when_, issuerSet := true }
  | .expirationTime when_ => { jwt with expirationTime := when_, expirationTimeSet := true }
  | .subject subject => { jwt with subject := subject, subjectSet := true }
  | .issuer issuer => { jwt with issuer := issuer, issuerSet := true }

/-- `JsonWebToken(alg, payload, secret)` followed by builder calls. -/
def build (alg : Algorithm) (payload : Value) (secret : Bytes) (calls : List BuilderCall) :
    JsonWebToken :=
  calls.foldl JsonWebToken.call { algorithm := alg, payload := payload, secret := secret }

/-- `JsonWebToken::GenStatus`. -/
inductive GenStatus where
  | ok
  | jwtClaimInPayload
  deriving Repr, DecidableEq

/-- The loop of `get` over the reserved names: is one of them a member? -/
def anyMember (v : Value) : List Bytes → Except Fault Bool
  | [] => .ok false
  | m :: ms => do
    if ← v.isMember m then return true
    anyMember v ms

/-- `final_payload[key] = v` if the claim was set. -/
def setIf (set : Bool) (key : Bytes) (v : Value) (payload : Value) : Except Fault Value :=
  if set then payload.setMember key v else .ok payload

/-- `header`, as `get` fills it. -/
def headerValue (alg : Algorithm) : Except Fault Value := do
  let header ← Value.null.setMember (ascii "alg") (.string (jwtAlgStr alg))
  header.setMember (ascii "typ") (.string (ascii "JWT"))

/-- `final_payload`: the payload with the reserved claims whose flag is set. -/
def JsonWebToken.finalPayload (jwt : JsonWebToken) : Except Fault Value := do
  let v ← setIf jwt.subjectSet (ascii "sub") (.string jwt.subject) jwt.payload
  let v ← setIf jwt.issuerSet (ascii "iss") (.string jwt.issuer) v
  let v ← setIf jwt.expirationTimeSet (ascii "exp") (.int jwt.expirationTime) v
  setIf jwt.issuedAtSet (ascii "iat") (.int jwt.issuedAt) v

/-- `JsonWebToken::sign`. -/
def JsonWebToken.sign (hmac : Hmac) (jwt : JsonWebToken) (payload : Bytes) : Bytes :=
  match jwt.algorithm with
  | .hs256 => hmac.sha256 jwt.secret payload
  | .hs384 => hmac.sha384 jwt.secret payload
  | .hs512 => hmac.sha512 jwt.secret payload

/-- `JsonWebToken::get`: the status, and the value of `result` after the call. -/
def JsonWebToken.get (hmac : Hmac) (json : JsonLib) (jwt : JsonWebToken) (result : Bytes) :
    Except Fault (GenStatus × Bytes) := do
  if ← anyMember jwt.payload [ascii "iss", ascii "exp", ascii "iat", ascii "sub"] then
    return (.jwtClaimInPayload, result)
  let header ← headerValue jwt.algorithm
  let tmpResult := base64UrlEncode (json.write header) ++ ascii "."
  let finalPayload ← jwt.finalPayload
  let tmpResult := tmpResult ++ base64UrlEncode (json.write finalPayload)
  let signature := jwt.sign hmac tmpResult
  let tmpResult := tmpResult ++ (ascii "." ++ base64Encode signature)
  let tmpResult ← orFault .endlessLoop (strRemoveSubstr tmpResult (ascii "="))
  return (.ok, tmpResult)

/-! ## The verifier -/

/-- `JWTDecoder::JWTStatus`. -/
inductive JWTStatus where
  | ok
  | invalidString
  | invalidHeader
  | invalidAlgorithm
  | jsonParseError
  | invalidClaim
  | invalidSignature
  | issuerError
  | subjectError
  | tokenExpired
  | issuedAtError
  deriving Repr, DecidableEq

/-- `JWTDecoder`: the four lists of validators. -/
structure JWTDecoder where
  issuerValidators : List (Bytes → Bool) := []
  subjectValidators : List (Bytes → Bool) := []
  issuedAtValidators : List (Int64 → Bool) := []
  expirationTimeValidators : List (Int64 → Bool) := []

/-- The loop over `jwt_alg_str`. -/
def algorithmOf (alg : Bytes) : Option Algorithm :=
  [Algorithm.hs256, .hs384, .hs512].find? fun a => jwtAlgStr a = alg

/-- `read_and_verify` from the parsing of the header to the choice of the algorithm. -/
def readHeader (json : JsonLib) (res0 : Bytes) (jwt : JsonWebToken) :
    Except Fault (JWTStatus × JsonWebToken) := do
  let text ← orFault .undefinedBehaviour (base64UrlDecode res0)
  let jwt' := { jwt with header := (json.parse text jwt.header).2 }
  if (json.parse text jwt.header).1 = false then
    return (.jsonParseError, jwt')
  match ← jwt'.header.stringMember (ascii "alg") with
  | none => return (.invalidHeader, jwt')
  | some alg =>
    if (← jwt'.header.stringMember (ascii "typ")) ≠ some (ascii "JWT") then
      return (.invalidHeader, jwt')
    match algorithmOf alg with
    | none => return (.invalidAlgorithm, jwt')
    | some a => return (.ok, { jwt' with algorithm := a })

/-- The check of one claim: its type, then every validator. -/
def checkClaim {α : Type} (payload : Value) (key : Bytes) (read : Value → Option α)
    (validators : List (α → Bool)) (error : JWTStatus) : Except Fault JWTStatus := do
  if ← payload.isMember key then
    match read (← payload.member key) with
    | none => return .invalidClaim
    | some a => return if validators.all fun cb => cb a then .ok else error
  else
    return .ok

/-- `asUInt64()` passed as a `time_t`. -/
def time? (v : Value) : Option Int64 := v.uint64?.map UInt64.toInt64

/-- The four checks at the end of `read_and_verify`. -/
def checkClaims (d : JWTDecoder) (payload : Value) : Except Fault JWTStatus := do
  let iss ← checkClaim payload (ascii "iss") Value.string? d.issuerValidators .issuerError
  if iss ≠ .ok then return iss
  let sub ← checkClaim payload (ascii "sub") Value.string? d.subjectValidators .subjectError
  if sub ≠ .ok then return sub
  let exp ← checkClaim payload (ascii "exp") time? d.expirationTimeValidators .tokenExpired
  if exp ≠ .ok then return exp
  checkClaim payload (ascii "iat") time? d.issuedAtValidators .issuedAtError

/-- `JWTDecoder::read_and_verify`: the status, and the value of `jwt` after the call. -/
def readAndVerify (hmac : Hmac) (json : JsonLib) (d : JWTDecoder) (rawToken : Bytes)
    (jwt : JsonWebToken) : Except Fault (JWTStatus × JsonWebToken) := do
  let rawToken ← orFault .endlessLoop (strRemoveSubstr rawToken (ascii "="))
  match strSplit rawToken 46 [] with
  | [res0, res1, res2] =>
    let (status, jwt) ← readHeader json res0 jwt
    if status ≠ .ok then
      return (status, jwt)
    let payload := Value.null
    let text ← orFault .undefinedBehaviour (base64UrlDecode res1)
    let jwt' := { jwt with payload := (json.parse text jwt.payload).2 }
    if (json.parse text jwt.payload).1 = false then
      return (.jsonParseError, jwt')
    let signature := base64UrlEncode (hmac.sha256 jwt'.secret (res0 ++ ascii "." ++ res1))
    let signature ← orFault .endlessLoop (strRemoveSubstr signature (ascii "="))
    if signature ≠ res2 then
      return (.invalidSignature, jwt')
    return (← checkClaims d payload, jwt')
  | _ => return (.invalidString, jwt)

/-! ## What the generator returns -/

/-- The reserved claims. -/
def reserved : List Bytes := [ascii "iss", ascii "exp", ascii "iat", ascii "sub"]

/-- No reserved claim is a member. -/
def NoReserved (ms : List (Bytes × Value)) : Prop := ∀ key ∈ reserved, findMember key ms = none

/-- `insertMember` under a flag. -/
def insertIf (set : Bool) (key : Bytes) (v : Value) (ms : List (Bytes × Value)) :
    List (Bytes × Value) :=
  if set then insertMember key v ms else ms

theorem find_insertIf (set : Bool) (key k : Bytes) (v : Value) (ms : List (Bytes × Value)) :
    findMember k (insertIf set key v ms) =
      if set = true ∧ k = key then some v else findMember k ms := by
  cases set with
  | false => simp [insertIf]
  | true => simp [insertIf, find_insertMember]

/-- The members of `final_payload`. -/
def JsonWebToken.finalMembers (jwt : JsonWebToken) (ms : List (Bytes × Value)) :
    List (Bytes × Value) :=
  insertIf jwt.issuedAtSet (ascii "iat") (.int jwt.issuedAt) <|
    insertIf jwt.expirationTimeSet (ascii "exp") (.int jwt.expirationTime) <|
      insertIf jwt.issuerSet (ascii "iss") (.string jwt.issuer) <|
        insertIf jwt.subjectSet (ascii "sub") (.string jwt.subject) ms

/-- The members of `header`. -/
def headerMembers (alg : Algorithm) : List (Bytes × Value) :=
  [(ascii "alg", .string (jwtAlgStr alg)), (ascii "typ", .string (ascii "JWT"))]

theorem headerValue_eq (alg : Algorithm) :
    headerValue alg = .ok (.object (headerMembers alg)) := by
  have hne : ascii "typ" ≠ ascii "alg" := by decide
  have hlt : ¬ascii "typ" < ascii "alg" := by decide
  simp [headerValue, headerMembers, insertMember, hne, hlt, bind, Except.bind]

theorem setIf_object (set : Bool) (key : Bytes) (v : Value) (ms : List (Bytes × Value)) :
    setIf set key v (.object ms) = .ok (.object (insertIf set key v ms)) := by
  cases set <;> rfl

theorem finalPayload_object {jwt : JsonWebToken} {ms : List (Bytes × Value)}
    (h : jwt.payload = .object ms) : jwt.finalPayload = .ok (.object (jwt.finalMembers ms)) := by
  simp only [JsonWebToken.finalPayload, h, setIf_object, bind, Except.bind]
  rfl

theorem anyMember_members {payload : Value} {ms : List (Bytes × Value)}
    (h : payload.members = .ok ms) : ∀ keys : List Bytes,
      anyMember payload keys = .ok (keys.any fun key => (findMember key ms).isSome)
  | [] => rfl
  | key :: keys => by
    simp only [anyMember, Value.isMember, h, anyMember_members h keys, bind, Except.bind,
      pure, Except.pure, List.any_cons]
    cases findMember key ms <;> rfl

theorem sign_eq (hmac : Hmac) (jwt : JsonWebToken) (payload : Bytes) :
    jwt.sign hmac payload = hmac.of jwt.algorithm jwt.secret payload := by
  unfold JsonWebToken.sign Hmac.of
  cases jwt.algorithm <;> rfl

/-- What `get` signs: the two encodings, padding included. -/
def signingInput (json : JsonLib) (header payload : Value) : Bytes :=
  base64UrlEncode (json.write header) ++ ascii "." ++ base64UrlEncode (json.write payload)

/-- The `=` characters removed. -/
def unpadded (s : Bytes) : Bytes := s.filter (· ≠ padChar)

theorem unpadded_base64UrlEncode {s : Bytes} (h : s.length < 2 ^ 32) :
    unpadded (base64UrlEncode s) = urlUnpadded s := by
  rw [base64UrlEncode_eq, Nat.mod_eq_of_lt h, List.take_length]
  exact filter_urlUnpadded s _

theorem strRemoveSubstr_pad (s : Bytes) : strRemoveSubstr s (ascii "=") = some (unpadded s) :=
  strRemoveSubstr_singleton s padChar

/-- What `get` makes of the value it writes as payload. -/
def tokenOf (hmac : Hmac) (json : JsonLib) (alg : Algorithm) (secret : Bytes) (v : Value) : Bytes :=
  let input := signingInput json (.object (headerMembers alg)) v
  unpadded (input ++ (ascii "." ++ base64Encode (hmac.of alg secret input)))

/-- **The generated token** of a payload without reserved members. -/
theorem get_of_finalPayload (hmac : Hmac) (json : JsonLib) {jwt : JsonWebToken} {v : Value}
    (hany : anyMember jwt.payload reserved = .ok false) (hv : jwt.finalPayload = .ok v)
    (result : Bytes) :
    jwt.get hmac json result = .ok (.ok, tokenOf hmac json jwt.algorithm jwt.secret v) := by
  unfold reserved at hany
  unfold JsonWebToken.get
  simp only [hany, headerValue_eq, hv, strRemoveSubstr_pad, sign_eq, tokenOf, signingInput,
    orFault, bind, Except.bind, pure, Except.pure]
  rfl

theorem anyMember_noReserved {payload : Value} {ms : List (Bytes × Value)}
    (h : payload.members = .ok ms) (hms : NoReserved ms) :
    anyMember payload reserved = .ok false := by
  have hnone : (reserved.any fun key => (findMember key ms).isSome) = false :=
    List.any_eq_false.mpr fun key hkey => by simp [hms key hkey]
  rw [anyMember_members h, hnone]

/-- `get_of_finalPayload` for an object. -/
theorem get_eq (hmac : Hmac) (json : JsonLib) {jwt : JsonWebToken} {ms : List (Bytes × Value)}
    (h : jwt.payload = .object ms) (hms : NoReserved ms) (result : Bytes) :
    jwt.get hmac json result =
      .ok (.ok, tokenOf hmac json jwt.algorithm jwt.secret (.object (jwt.finalMembers ms))) :=
  get_of_finalPayload hmac json (anyMember_noReserved (h ▸ rfl) hms) (finalPayload_object h) result

/-! ## What the verifier accepts -/

theorem algorithmOf_jwtAlgStr : ∀ alg : Algorithm, algorithmOf (jwtAlgStr alg) = some alg
  | .hs256 => by decide
  | .hs384 => by decide
  | .hs512 => by decide

theorem algorithmOf_eq_some_iff {name : Bytes} {alg : Algorithm} :
    algorithmOf name = some alg ↔ name = jwtAlgStr alg := by
  refine ⟨fun h => ?_, fun h => h ▸ algorithmOf_jwtAlgStr alg⟩
  have hp := List.find?_some h
  exact (of_decide_eq_true hp).symm

/-- The header of a token, decoded: an object that names an algorithm and has type `JWT`. -/
structure NamesAlgorithm (json : JsonLib) (segment : Bytes) (root : Value) (alg : Algorithm)
    (ms : List (Bytes × Value)) : Prop where
  decoded : ∃ text, base64UrlDecode segment = some text ∧ json.parse text root = (true, .object ms)
  alg : findMember (ascii "alg") ms = some (.string (jwtAlgStr alg))
  typ : findMember (ascii "typ") ms = some (.string (ascii "JWT"))

theorem readHeader_ok_iff {json : JsonLib} {res0 : Bytes} {jwt jwt' : JsonWebToken} :
    readHeader json res0 jwt = .ok (.ok, jwt') ↔
      ∃ alg ms, NamesAlgorithm json res0 jwt.header alg ms ∧
        jwt' = { jwt with header := .object ms, algorithm := alg } := by
  constructor
  · intro h
    obtain ⟨text, htext, h⟩ := bind_eq_ok.mp h
    rw [orFault_eq_ok] at htext
    split at h
    · simp [pure, Except.pure] at h
    rename_i hparse
    obtain ⟨alg?, halg, h⟩ := bind_eq_ok.mp h
    cases alg? with
    | none => simp [pure, Except.pure] at h
    | some name =>
      obtain ⟨typ?, htyp, h⟩ := bind_eq_ok.mp h
      split at h
      · simp [pure, Except.pure] at h
      rename_i hjwt
      rw [not_not] at hjwt
      subst hjwt
      obtain ⟨ms, hms, hname⟩ := Value.stringMember_eq_some_iff.mp halg
      obtain ⟨ms', hms', htyp⟩ := Value.stringMember_eq_some_iff.mp htyp
      obtain rfl : ms = ms' := by simpa using hms.symm.trans hms'
      cases ha : algorithmOf name with
      | none => simp [ha, pure, Except.pure] at h
      | some alg =>
        obtain rfl := algorithmOf_eq_some_iff.mp ha
        simp only [ha, pure, Except.pure, Except.ok.injEq, Prod.mk.injEq, true_and] at h
        refine ⟨alg, ms, ⟨⟨text, htext, ?_⟩, hname, htyp⟩, ?_⟩
        · exact Prod.ext (by simpa using hparse) hms
        · rw [← h, ← hms]
  · rintro ⟨alg, ms, ⟨⟨text, htext, hparse⟩, halg, htyp⟩, rfl⟩
    have e (key : Bytes) {s : Bytes} (hs : findMember key ms = some (.string s)) :
        (Value.object ms).stringMember key = .ok (some s) :=
      Value.stringMember_eq_some_iff.mpr ⟨ms, rfl, hs⟩
    simp [readHeader, htext, hparse, e _ halg, e _ htyp, algorithmOf_jwtAlgStr, orFault, bind,
      Except.bind, pure, Except.pure]

/-- The segments `read_and_verify` splits a token into. -/
def segments (rawToken : Bytes) : List Bytes := strSplit (unpadded rawToken) 46 []

/-- What the verifier compares the third segment with. -/
def expectedSignature (hmac : Hmac) (secret s0 s1 : Bytes) : Bytes :=
  unpadded (base64UrlEncode (hmac.sha256 secret (s0 ++ ascii "." ++ s1)))

/-- A token that reaches the claim checks: three segments, a header naming `alg`, a payload that
parses, and the signature the verifier computes. -/
def Genuine (hmac : Hmac) (json : JsonLib) (rawToken : Bytes) (jwt : JsonWebToken)
    (alg : Algorithm) (header : List (Bytes × Value)) (payload : Value) : Prop :=
  ∃ s0 s1 s2 text, segments rawToken = [s0, s1, s2] ∧
    NamesAlgorithm json s0 jwt.header alg header ∧
    base64UrlDecode s1 = some text ∧ json.parse text jwt.payload = (true, payload) ∧
    s2 = expectedSignature hmac jwt.secret s0 s1

/-- The checks are run on `null`, so none of them looks at anything. -/
theorem checkClaims_null (d : JWTDecoder) : checkClaims d .null = .ok .ok := rfl

/-- **The accepted tokens** are the genuine ones, whatever the validators. -/
theorem readAndVerify_ok_iff {hmac : Hmac} {json : JsonLib} {d : JWTDecoder} {rawToken : Bytes}
    {jwt jwt' : JsonWebToken} :
    readAndVerify hmac json d rawToken jwt = .ok (.ok, jwt') ↔
      ∃ alg header payload, Genuine hmac json rawToken jwt alg header payload ∧
        jwt' = { jwt with header := .object header, algorithm := alg, payload := payload } := by
  constructor
  · intro h
    obtain ⟨raw, hraw, h⟩ := bind_eq_ok.mp h
    rw [orFault_eq_ok, strRemoveSubstr_pad, Option.some.injEq] at hraw
    subst hraw
    split at h
    · rename_i s0 s1 s2 hseg
      obtain ⟨⟨status, jwt1⟩, hhead, h⟩ := bind_eq_ok.mp h
      by_cases hst : status = .ok
      · subst hst
        obtain ⟨alg, ms, hms, rfl⟩ := readHeader_ok_iff.mp hhead
        obtain ⟨text, htext, h⟩ := bind_eq_ok.mp h
        rw [orFault_eq_ok] at htext
        dsimp only at h
        split at h
        · simp [pure, Except.pure] at h
        rename_i hparse
        obtain ⟨sig, hsig, h⟩ := bind_eq_ok.mp h
        rw [orFault_eq_ok, strRemoveSubstr_pad, Option.some.injEq] at hsig
        split at h
        · simp [pure, Except.pure] at h
        rename_i hs2
        rw [not_not] at hs2
        obtain ⟨status, hstatus, h⟩ := bind_eq_ok.mp h
        refine ⟨alg, ms, (json.parse text jwt.payload).2, ⟨s0, s1, s2, text, hseg, hms, htext, ?_,
          hs2.symm.trans hsig.symm⟩, ?_⟩
        · exact Prod.ext (by simpa using hparse) rfl
        · obtain ⟨-, rfl⟩ := Prod.mk.inj (Except.ok.inj h)
          rfl
      · simp [hst, pure, Except.pure] at h
    · simp [pure, Except.pure] at h
  · rintro ⟨alg, ms, payload, ⟨s0, s1, s2, text, hseg, hms, htext, hparse, hsig⟩, rfl⟩
    have hsplit : strSplit (unpadded rawToken) 46 [] = [s0, s1, s2] := hseg
    have hhead := readHeader_ok_iff.mpr ⟨alg, ms, hms, rfl⟩
    have heq := hsig.symm
    rw [expectedSignature, List.append_assoc] at heq
    simp [readAndVerify, strRemoveSubstr_pad, orFault, bind, Except.bind, hsplit, hhead, htext,
      hparse, heq, checkClaims_null, pure, Except.pure]

end WinterWind
