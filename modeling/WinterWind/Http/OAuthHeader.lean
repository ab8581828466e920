import WinterWind.Http.OAuthClient

/-!
# The `Authorization` header (`src/core/oauthclient.cpp`)

The last part of `append_oauth_header` writes the `oauth_` parameters into the header, in the order
of the map, with `", "` between two of them. It takes the seven parameters it assigns itself for all
there are: the separator is left out behind the seventh item, and stands behind every other.

`HeaderWellFormed` is what RFC 5849 asks for, in terms of the value each name has: the signature,
else what is staged, else what the client itself puts there.

Results:
* `mem_headerParams_iff`: what the map holds when the header is written.
* `headerLoop_seven`, `headerLoop_more`: seven items are joined, and the eighth follows the seventh
  without a separator.
* **`headerWellFormed_iff`**: the header is well formed iff no `oauth_` parameter is staged but the
  built-in ones.
-/

namespace WinterWind.Http

open Library

/-- The `oauth_` names the client assigns, the signature last. -/
def builtInNames : List Bytes :=
  [ascii "oauth_consumer_key", ascii "oauth_nonce", ascii "oauth_signature_method",
    ascii "oauth_timestamp", ascii "oauth_token", ascii "oauth_version",
    ascii "oauth_signature"]

/-- `name="value"`, escaped. -/
def headerItem (p : Bytes × Bytes) : Bytes :=
  httpStringEscape p.1 ++ ascii "=\"" ++ httpStringEscape p.2 ++ ascii "\""

namespace OAuthClient

variable (oauth : OAuthClient) (hmacSha1 : Bytes → Bytes → Bytes) (draw : Draw)
  (uri : Iteration oauth.client.uriParams) (method url : Bytes)

/-- The value of `oauth_signature`. -/
def signature : Bytes :=
  base64Encode (hmacSha1
    (httpStringEscape oauth.consumerSecret ++ ascii "&" ++ httpStringEscape oauth.accessTokenSecret)
    (signatureBase method url (oauth.parameterString draw uri)))

/-- The value of a parameter when the header is written. -/
def headerValue (name : Bytes) : Option Bytes :=
  if name = ascii "oauth_signature" then some (oauth.signature hmacSha1 draw uri method url)
  else (oauth.client.uriParams.lookup name).or ((oauth.protocolParams draw).lookup name)

/-- The header lists exactly the `oauth_` parameters, in key order, with `", "` between
consecutive ones and nowhere else. -/
def HeaderWellFormed : Prop :=
  ∃ params : List (Bytes × Bytes), Sorted params ∧
    (∀ name value, (name, value) ∈ params ↔ ascii "oauth_" <+: name ∧
      oauth.headerValue hmacSha1 draw uri method url name = some value) ∧
    (oauth.appendOauthHeader hmacSha1 draw uri method url).client.httpHeaders.lookup
        (ascii "Authorization") =
      some (ascii "OAuth " ++ (ascii ", ").intercalate (params.map headerItem))

/-- The map when the header is written. -/
def headerParams : List (Bytes × Bytes) :=
  insertEntry (ascii "oauth_signature") (oauth.signature hmacSha1 draw uri method url)
    (oauth.orderedParams draw uri)

theorem lookup_authorization :
    (oauth.appendOauthHeader hmacSha1 draw uri method url).client.httpHeaders.lookup
        (ascii "Authorization") =
      some (headerLoop (oauth.headerParams hmacSha1 draw uri method url) 0 (ascii "OAuth ")) :=
  Finmap.lookup_insert _

end OAuthClient

/-! ## The map -/

section Map

variable {oauth : OAuthClient} {hmacSha1 : Bytes → Bytes → Bytes} {draw : Draw}
  {uri : Iteration oauth.client.uriParams} {method url : Bytes}

theorem nodup_stagedPairs : ((stagedPairs uri).map Prod.fst).Nodup := by
  have h := uri.nodupKeys
  unfold List.NodupKeys List.keys at h
  rwa [stagedPairs, List.map_map]

theorem mem_map_stagedPairs_iff {name : Bytes} :
    name ∈ (stagedPairs uri).map Prod.fst ↔ name ∈ oauth.client.uriParams := by
  rw [← Finmap.lookup_isSome, Option.isSome_iff_exists, List.mem_map]
  constructor
  · rintro ⟨p, hp, rfl⟩
    exact ⟨p.2, (mem_stagedPairs uri).mp hp⟩
  · rintro ⟨value, h⟩
    exact ⟨(name, value), (mem_stagedPairs uri).mpr h, rfl⟩

/-- With distinct names, the list is read like a map. -/
theorem lookup_eq_some_iff_mem {l : List (Bytes × Bytes)} (h : (l.map Prod.fst).Nodup)
    {name value : Bytes} : l.lookup name = some value ↔ (name, value) ∈ l := by
  induction l with
  | nil => simp
  | cons p l ih =>
    obtain ⟨name', value'⟩ := p
    rw [List.map_cons, List.nodup_cons] at h
    rw [List.mem_cons, Prod.mk.injEq, ← ih h.2]
    by_cases e : name = name'
    · subst e
      have hnone : l.lookup name ≠ some value := fun hsome =>
        h.1 (List.mem_map.mpr ⟨_, (ih h.2).mp hsome, rfl⟩)
      rw [List.lookup_cons_self]
      simp [hnone, eq_comm]
    · have hbeq : (name == name') = false := beq_eq_false_iff_ne.mpr e
      simp [List.lookup_cons, hbeq, e]

theorem orderedParams_eq : oauth.orderedParams draw uri =
    (stagedPairs uri).foldl (fun m a => insertEntry a.1 a.2 m)
      ((oauth.protocolParams draw).foldl (fun m a => insertEntry a.1 a.2 m) []) :=
  List.foldl_append

theorem sorted_orderedParams : Sorted (oauth.orderedParams draw uri) :=
  sorted_foldl_insertEntry _ List.Pairwise.nil

theorem mem_orderedParams_iff {name value : Bytes} :
    (name, value) ∈ oauth.orderedParams draw uri ↔
      (oauth.client.uriParams.lookup name).or ((oauth.protocolParams draw).lookup name) =
        some value := by
  have hprotocol : ((oauth.protocolParams draw).map Prod.fst).Nodup := by
    rw [map_fst_protocolParams]
    decide
  rw [orderedParams_eq, mem_foldl_insertEntry _ (sorted_foldl_insertEntry _ List.Pairwise.nil)
    nodup_stagedPairs, mem_foldl_insertEntry _ List.Pairwise.nil hprotocol, mem_stagedPairs,
    mem_map_stagedPairs_iff, ← lookup_eq_some_iff_mem hprotocol, ← Finmap.lookup_isSome]
  cases oauth.client.uriParams.lookup name <;> simp

theorem sorted_headerParams : Sorted (oauth.headerParams hmacSha1 draw uri method url) :=
  sorted_insertEntry _ _ sorted_orderedParams

/-- **The map holds the value of every name.** -/
theorem mem_headerParams_iff {name value : Bytes} :
    (name, value) ∈ oauth.headerParams hmacSha1 draw uri method url ↔
      oauth.headerValue hmacSha1 draw uri method url name = some value := by
  unfold OAuthClient.headerParams OAuthClient.headerValue
  rw [mem_insertEntry_iff sorted_orderedParams, mem_orderedParams_iff, Prod.mk.injEq]
  by_cases h : name = ascii "oauth_signature"
  · simp [h, eq_comm]
  · simp [h]

/-- A name has a value iff it is built-in or staged. -/
theorem mem_names_iff {name : Bytes} :
    name ∈ (oauth.headerParams hmacSha1 draw uri method url).map Prod.fst ↔
      name ∈ builtInNames ∨ name ∈ oauth.client.uriParams := by
  have hbuiltIn : name ∈ builtInNames ↔ name ∈ (oauth.protocolParams draw).map Prod.fst ∨
      name = ascii "oauth_signature" := by
    rw [← List.mem_singleton, ← List.mem_append]
    rfl
  have hprotocol : ((oauth.protocolParams draw).lookup name).isSome ↔
      name ∈ (oauth.protocolParams draw).map Prod.fst := by
    rw [List.lookup_isSome_iff, List.mem_map]
    exact exists_congr fun p => and_congr_right fun _ => beq_iff_eq.trans eq_comm
  have hvalue : name ∈ (oauth.headerParams hmacSha1 draw uri method url).map Prod.fst ↔
      (oauth.headerValue hmacSha1 draw uri method url name).isSome := by
    rw [Option.isSome_iff_exists, List.mem_map]
    constructor
    · rintro ⟨p, hp, rfl⟩
      exact ⟨p.2, mem_headerParams_iff.mp hp⟩
    · rintro ⟨value, h⟩
      exact ⟨(name, value), mem_headerParams_iff.mpr h, rfl⟩
  rw [hvalue, hbuiltIn, ← hprotocol, ← Finmap.lookup_isSome, OAuthClient.headerValue]
  split
  · rename_i h
    exact iff_of_true rfl (Or.inl (Or.inr h))
  · rename_i h
    rw [Option.isSome_or, Bool.or_eq_true, or_comm]
    exact or_congr_left (or_iff_left h).symm

end Map

/-! ## The loop -/

open OAuthClient (headerLoop)

/-- A parameter the header lists. -/
def IsOAuth (p : Bytes × Bytes) : Prop := ascii "oauth_" <+: p.1

instance (p : Bytes × Bytes) : Decidable (IsOAuth p) := inferInstanceAs (Decidable (_ <+: _))

theorem take_ne_iff {p : Bytes × Bytes} :
    p.1.take (ascii "oauth_").length ≠ ascii "oauth_" ↔ ¬IsOAuth p := by
  rw [IsOAuth, List.prefix_iff_eq_take, eq_comm]

theorem headerLoop_cons {p : Bytes × Bytes} (hp : IsOAuth p) (rest : List (Bytes × Bytes))
    (pCount : UInt32) (header : Bytes) : headerLoop (p :: rest) pCount header =
      headerLoop rest (pCount + 1)
        (if pCount + 1 ≠ 7 then header ++ headerItem p ++ ascii ", "
          else header ++ headerItem p) := by
  rw [headerLoop, if_neg fun h => take_ne_iff.mp h hp]
  simp only [headerItem, List.append_assoc]

/-- The other parameters are passed over. -/
theorem headerLoop_filter (params : List (Bytes × Bytes)) : ∀ (pCount : UInt32) (header : Bytes),
    headerLoop params pCount header =
      headerLoop (params.filter fun p => IsOAuth p) pCount header := by
  induction params with
  | nil => exact fun _ _ => rfl
  | cons p params ih =>
    intro pCount header
    by_cases hp : IsOAuth p
    · rw [List.filter_cons_of_pos (by simpa using hp), headerLoop_cons hp, headerLoop_cons hp, ih]
    · rw [List.filter_cons_of_neg (by simpa using hp), headerLoop, if_pos (take_ne_iff.mpr hp), ih]

/-- What is written stays. -/
theorem prefix_headerLoop (params : List (Bytes × Bytes)) : ∀ (pCount : UInt32) (header : Bytes),
    header <+: headerLoop params pCount header := by
  induction params with
  | nil => exact fun _ _ => List.prefix_rfl
  | cons p params ih =>
    intro pCount header
    by_cases hp : IsOAuth p
    · rw [headerLoop_cons hp]
      refine List.IsPrefix.trans ?_ (ih _ _)
      split
      · exact (List.prefix_append _ _).trans (List.prefix_append _ _)
      · exact List.prefix_append _ _
    · rw [headerLoop, if_pos (take_ne_iff.mpr hp)]
      exact ih _ _

/-- The separators up to the seventh item are those of a joined list. -/
theorem headerLoop_seven (rest : List (Bytes × Bytes)) : ∀ (first : List (Bytes × Bytes))
    (header : Bytes), (∀ p ∈ first, IsOAuth p) → first.length ≤ 7 →
      headerLoop (first ++ rest) (UInt32.ofNat (7 - first.length)) header =
        headerLoop rest 7 (header ++ (ascii ", ").intercalate (first.map headerItem))
  | [], header, _, _ => by simp
  | p :: first, header, h, hlen => by
    rw [List.forall_mem_cons] at h
    rw [List.length_cons] at hlen
    have ih := fun header => headerLoop_seven rest first header h.2 (by omega)
    have hseven : UInt32.ofNat (7 - first.length) ≠ 7 ↔ first ≠ [] := by
      rw [ne_eq, show (7 : UInt32) = UInt32.ofNat 7 from rfl, ofNat_sub_eq_iff (by omega),
        ← List.length_pos_iff]
      omega
    rw [List.cons_append, headerLoop_cons h.1, List.length_cons, ofNat_sub_add_one hlen, ih]
    simp only [hseven]
    cases first with
    | nil => simp
    | cons q first => simp [List.intercalate_cons_cons]

theorem headerItem_ne_comma (p : Bytes × Bytes) (rest : Bytes) :
    ∃ c tail, headerItem p ++ rest = c :: tail ∧ c ≠ 44 := by
  unfold headerItem
  cases hname : httpStringEscape p.1 with
  | nil => exact ⟨61, _, rfl, by decide⟩
  | cons c name =>
    refine ⟨c, _, rfl, fun hcomma => ?_⟩
    have hmem : c ∈ httpStringEscape p.1 := by
      rw [hname]
      exact List.mem_cons_self
    exact not_mem_httpStringEscape p.1 (by decide) (by decide) (hcomma ▸ hmem)

/-- **Seven items, and no more, are joined as they should.** -/
theorem headerLoop_eq_iff {params : List (Bytes × Bytes)} (h : ∀ p ∈ params, IsOAuth p)
    (hlen : 7 ≤ params.length) (header : Bytes) :
    headerLoop params 0 header =
        header ++ (ascii ", ").intercalate (params.map headerItem) ↔
      params.length = 7 := by
  have htake : (params.take 7).length = 7 := by
    rw [List.length_take]
    omega
  have hseven := headerLoop_seven (params.drop 7) (params.take 7) header
    (fun p hp => h p (List.mem_of_mem_take hp)) htake.le
  rw [List.take_append_drop, htake] at hseven
  rw [show (0 : UInt32) = UInt32.ofNat (7 - 7) from rfl, hseven]
  cases hdrop : params.drop 7 with
  | nil =>
    have hle := List.drop_eq_nil_iff.mp hdrop
    rw [List.take_of_length_le hle]
    exact iff_of_true rfl (Nat.le_antisymm hle hlen)
  | cons p rest =>
    have hgt : 7 < params.length := by
      by_contra hn
      rw [List.drop_of_length_le (by omega)] at hdrop
      cases hdrop
    refine iff_of_false (fun heq => ?_) (by omega)
    have hp : IsOAuth p := h p (List.mem_of_mem_drop (hdrop ▸ List.mem_cons_self))
    -- the item of `p` follows at once on the one side, the separator on the other
    obtain ⟨tail, htail⟩ : header ++ (ascii ", ").intercalate ((params.take 7).map headerItem) ++
        headerItem p <+: headerLoop (p :: rest) 7
          (header ++ (ascii ", ").intercalate ((params.take 7).map headerItem)) := by
      rw [headerLoop_cons hp, if_pos (by decide)]
      exact (List.prefix_append _ _).trans (prefix_headerLoop _ _ _)
    have hjoin : (ascii ", ").intercalate (params.map headerItem) =
        (ascii ", ").intercalate ((params.take 7).map headerItem) ++ ascii ", " ++
          (ascii ", ").intercalate ((p :: rest).map headerItem) := by
      rw [← intercalate_append (by simp) ?_, ← List.map_append, ← hdrop, List.take_append_drop]
      refine List.ne_nil_of_length_pos ?_
      rw [List.length_map]
      omega
    obtain ⟨c, text, hitem, hcomma⟩ := headerItem_ne_comma p tail
    rw [← htail, hjoin] at heq
    simp only [List.append_assoc, List.append_cancel_left_eq, hitem] at heq
    exact hcomma (List.cons.inj heq).1

/-! ## The law -/

section Law

variable (oauth : OAuthClient) (hmacSha1 : Bytes → Bytes → Bytes) (draw : Draw)
  (uri : Iteration oauth.client.uriParams) (method url : Bytes)

/-- The parameters the header lists. -/
def oauthParams : List (Bytes × Bytes) :=
  (oauth.headerParams hmacSha1 draw uri method url).filter fun p => IsOAuth p

theorem isOAuth_of_mem {p : Bytes × Bytes}
    (h : p ∈ oauthParams oauth hmacSha1 draw uri method url) :
    IsOAuth p := of_decide_eq_true (List.mem_filter.mp h).2

theorem nodup_map_fst_oauthParams :
    ((oauthParams oauth hmacSha1 draw uri method url).map Prod.fst).Nodup :=
  Sorted.nodup (List.Pairwise.filter _ sorted_headerParams)

theorem mem_map_fst_oauthParams_iff {name : Bytes} :
    name ∈ (oauthParams oauth hmacSha1 draw uri method url).map Prod.fst ↔
      ascii "oauth_" <+: name ∧ (name ∈ builtInNames ∨ name ∈ oauth.client.uriParams) := by
  rw [← mem_names_iff, List.mem_map, List.mem_map]
  constructor
  · rintro ⟨p, hp, rfl⟩
    exact ⟨isOAuth_of_mem oauth hmacSha1 draw uri method url hp, p, (List.mem_filter.mp hp).1, rfl⟩
  · rintro ⟨hname, p, hp, rfl⟩
    exact ⟨p, List.mem_filter.mpr ⟨hp, decide_eq_true hname⟩, rfl⟩

theorem isOAuth_builtInNames : ∀ name ∈ builtInNames, ascii "oauth_" <+: name := by decide

theorem nodup_builtInNames : builtInNames.Nodup := by decide

/-- **There are seven of them, unless others are staged.** -/
theorem length_oauthParams :
    7 ≤ (oauthParams oauth hmacSha1 draw uri method url).length ∧
      ((oauthParams oauth hmacSha1 draw uri method url).length = 7 ↔
        ∀ name ∈ oauth.client.uriParams, ascii "oauth_" <+: name → name ∈ builtInNames) := by
  have hmem := @mem_map_fst_oauthParams_iff oauth hmacSha1 draw uri method url
  have hnodup := nodup_map_fst_oauthParams oauth hmacSha1 draw uri method url
  have hsub : builtInNames ⊆ (oauthParams oauth hmacSha1 draw uri method url).map Prod.fst :=
    fun name h => hmem.mpr ⟨isOAuth_builtInNames name h, Or.inl h⟩
  have hseven : builtInNames.length = 7 := rfl
  have hle := (nodup_builtInNames.subperm hsub).length_le
  rw [← List.length_map Prod.fst]
  refine ⟨hseven ▸ hle, fun hlen name hstaged hname => ?_, fun h => ?_⟩
  · have hperm := (nodup_builtInNames.subperm hsub).perm_of_length_le (by rw [hlen, hseven])
    exact hperm.mem_iff.mpr (hmem.mpr ⟨hname, Or.inr hstaged⟩)
  · have hsub' : (oauthParams oauth hmacSha1 draw uri method url).map Prod.fst ⊆ builtInNames := by
      intro name hname
      obtain ⟨hoauth, hbuiltIn | hstaged⟩ := hmem.mp hname
      · exact hbuiltIn
      · exact h name hstaged hoauth
    exact Nat.le_antisymm (hseven ▸ (hnodup.subperm hsub').length_le) (hseven ▸ hle)

/-- The header is well formed iff it lists seven parameters. -/
theorem headerWellFormed_iff_length : oauth.HeaderWellFormed hmacSha1 draw uri method url ↔
    (oauthParams oauth hmacSha1 draw uri method url).length = 7 := by
  have hlen := (length_oauthParams oauth hmacSha1 draw uri method url).1
  have hall := fun p => @isOAuth_of_mem oauth hmacSha1 draw uri method url p
  have hsorted : Sorted (oauthParams oauth hmacSha1 draw uri method url) :=
    List.Pairwise.filter _ sorted_headerParams
  have hmem : ∀ name value, (name, value) ∈ oauthParams oauth hmacSha1 draw uri method url ↔
      ascii "oauth_" <+: name ∧
        oauth.headerValue hmacSha1 draw uri method url name = some value := by
    intro name value
    rw [oauthParams, List.mem_filter, mem_headerParams_iff, and_comm, decide_eq_true_iff]
    rfl
  rw [← headerLoop_eq_iff hall hlen (ascii "OAuth "), OAuthClient.HeaderWellFormed,
    OAuthClient.lookup_authorization, headerLoop_filter]
  constructor
  · rintro ⟨params, hsorted', hmem', hlookup⟩
    obtain rfl : params = oauthParams oauth hmacSha1 draw uri method url :=
      hsorted'.eq_of_mem_iff hsorted fun p => (hmem' p.1 p.2).trans (hmem p.1 p.2).symm
    exact Option.some.inj hlookup
  · intro h
    exact ⟨_, hsorted, hmem, congrArg some h⟩

/-- **The header is well formed** iff no `oauth_` parameter is staged but the built-in ones. -/
theorem headerWellFormed_iff : oauth.HeaderWellFormed hmacSha1 draw uri method url ↔
    ∀ name ∈ oauth.client.uriParams, ascii "oauth_" <+: name → name ∈ builtInNames :=
  (headerWellFormed_iff_length oauth hmacSha1 draw uri method url).trans
    (length_oauthParams oauth hmacSha1 draw uri method url).2

end Law

/-- With `oauth_callback` staged, the eighth item follows the seventh without a separator. -/
theorem not_headerWellFormed_callback :
    ¬∀ uri, (stagedClient [⟨ascii "oauth_callback", ascii "oob", true⟩]).HeaderWellFormed
      (fun _ _ => []) ⟨[], 0⟩ uri (ascii "POST")
      (ascii "https://api.twitter.com/oauth/request_token") := by
  intro h
  obtain ⟨uri⟩ := Iteration.nonempty
    (stagedClient [⟨ascii "oauth_callback", ascii "oob", true⟩]).client.uriParams
  have hseven := (headerWellFormed_iff_length _ _ _ _ _ _).mp (h uri)
  have hstaged : ascii "oauth_callback" ∈
      (stagedClient [⟨ascii "oauth_callback", ascii "oob", true⟩]).client.uriParams :=
    Finmap.mem_insert.mpr (Or.inl rfl)
  exact absurd ((length_oauthParams _ _ _ _ _ _).2.mp hseven _ hstaged (by decide)) (by decide)

end WinterWind.Http
