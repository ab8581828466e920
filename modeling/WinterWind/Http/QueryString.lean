import WinterWind.Http.Transfers
import Mathlib.Algebra.GroupWithZero.Nat

/-!
# The query string of a request (`HTTPClient::add_uri_param`, `HTTPClient::request`)

`queryParams` reads the query component of a URL: what stands between the first `?` and a `#`,
split at `&`, each piece split at its first `=` and percent-decoded. `QueryFaithful` is the law of a
client that adds parameters to it: the URL that is sent has the parameters of the caller's URL and
then those staged, the last call for each name deciding.

* A value staged with `escape` is escaped again when it is sent.
* `request` writes a `?` before the first parameter, also behind a query.
* `kept` is what the receiver reads of an escaped string (`percentDecode_escape`).

Results:
* `queryPieces_first`, `queryPieces_second`: the pieces of a URL after a `?` was appended.
* **`queryFaithful_iff`**: the law holds iff nothing is staged, or the URL has no `?` and escaping
  what is sent keeps it.
-/

namespace WinterWind.Http

open Library

/-! ## Reading a query -/

/-- The query component of a URL. -/
def queryComponent (url : Bytes) : Bytes :=
  ((url.takeWhile (· ≠ 35)).dropWhile (· ≠ 63)).tail

/-- Its pieces; empty ones do not count. -/
def queryPieces (url : Bytes) : List Bytes := ((queryComponent url).splitOn 38).filter (· ≠ [])

/-- The name and the value of a piece, as they stand there. -/
def splitPair (s : Bytes) : Bytes × Bytes :=
  (s.takeWhile (· ≠ 61), (s.dropWhile (· ≠ 61)).tail)

/-- The parameter that a piece is read as. -/
def readPiece (s : Bytes) : Bytes × Bytes :=
  (percentDecode (splitPair s).1, percentDecode (splitPair s).2)

/-- The parameters of a URL. -/
def queryParams (url : Bytes) : List (Bytes × Bytes) := (queryPieces url).map readPiece

/-- A query appended to a URL without one. -/
theorem queryComponent_first {url q : Bytes} (hurl : 63 ∉ url) (hfrag : 35 ∉ url) (hq : 35 ∉ q) :
    queryComponent (url ++ 63 :: q) = q := by
  have hall : ∀ c ∈ url ++ 63 :: q, decide (c ≠ 35) = true := by
    intro c hc
    refine decide_eq_true fun e => ?_
    subst e
    simp [hfrag, hq] at hc
  have hdrop : ∀ c ∈ url, decide (c ≠ 63) = true := fun c hc =>
    decide_eq_true fun e => hurl (e ▸ hc)
  rw [queryComponent, List.takeWhile_eq_self_iff.mpr hall, List.dropWhile_append_of_pos hdrop]
  simp

/-- A query appended to a URL that has one. -/
theorem queryComponent_second {url q : Bytes} (hurl : 63 ∈ url) (hfrag : 35 ∉ url) (hq : 35 ∉ q) :
    queryComponent (url ++ 63 :: q) = queryComponent url ++ 63 :: q := by
  obtain ⟨l, r, rfl, hl⟩ := List.eq_append_cons_of_mem hurl
  simp only [List.mem_append, List.mem_cons, not_or] at hfrag
  have hr : 35 ∉ r ++ 63 :: q := by simp [hfrag.2.2, hq]
  rw [List.append_assoc, List.cons_append, queryComponent_first hl hfrag.1 hr,
    queryComponent_first hl hfrag.1 hfrag.2.2]

/-- The pieces a query is joined from. -/
theorem splitOn_join {f : Bytes} {fs : List Bytes} (hamp : ∀ p ∈ f :: fs, 38 ∉ p) :
    ([38].intercalate (f :: fs)).splitOn 38 = f :: fs :=
  List.splitOn_intercalate 38 hamp (List.cons_ne_nil f fs)

theorem queryPieces_first {url f : Bytes} {fs : List Bytes} (hurl : 63 ∉ url) (hfrag : 35 ∉ url)
    (hq : 35 ∉ [38].intercalate (f :: fs)) (hne : ∀ p ∈ f :: fs, p ≠ [])
    (hamp : ∀ p ∈ f :: fs, 38 ∉ p) :
    queryPieces (url ++ 63 :: [38].intercalate (f :: fs)) = f :: fs := by
  rw [queryPieces, queryComponent_first hurl hfrag hq, splitOn_join hamp, List.filter_eq_self]
  exact fun p hp => decide_eq_true (hne p hp)

theorem append_join (q t : Bytes) (fs : List Bytes) :
    q ++ [38].intercalate (t :: fs) = [38].intercalate ((q ++ t) :: fs) := by
  cases fs with
  | nil => simp
  | cons f fs => simp [List.intercalate_cons_cons]

/-- A string is split into its last piece and those before it. -/
theorem exists_splitOn (q : Bytes) : ∃ P last, q.splitOn 38 = P ++ [last] ∧
    ∀ t, 38 ∉ t → ∀ fs, (∀ p ∈ fs, 38 ∉ p) →
      (q ++ [38].intercalate (t :: fs)).splitOn 38 = P ++ (last ++ t) :: fs := by
  by_cases hmem : 38 ∈ q
  · obtain ⟨l, r, hrev, hfree⟩ := List.eq_append_cons_of_mem (List.mem_reverse.mpr hmem)
    have hq : q = r.reverse ++ 38 :: l.reverse := by simpa using congrArg List.reverse hrev
    have hl : 38 ∉ l.reverse := by simpa using hfree
    have hpiece : l.reverse.splitOn 38 = [l.reverse] := List.splitOn_eq_singleton hl
    refine ⟨r.reverse.splitOn 38, l.reverse, ?_, fun t ht fs hfs => ?_⟩
    · rw [hq, List.splitOn_append_cons_self, hpiece]
    · rw [hq, List.append_assoc, List.cons_append, List.splitOn_append_cons_self, append_join,
        splitOn_join (by simpa [hfree, ht] using hfs)]
  · refine ⟨[], q, List.splitOn_eq_singleton hmem, fun t ht fs hfs => ?_⟩
    rw [append_join, splitOn_join (by simpa [hmem, ht] using hfs)]
    rfl

/-- Behind a query, the first piece is glued to what was there. -/
theorem queryPieces_second {url f : Bytes} {fs : List Bytes} (hurl : 63 ∈ url) (hfrag : 35 ∉ url)
    (hq : 35 ∉ [38].intercalate (f :: fs)) (hne : ∀ p ∈ fs, p ≠ [])
    (hamp : ∀ p ∈ f :: fs, 38 ∉ p) : ∃ P last : _,
      queryPieces url = P ++ [last].filter (· ≠ []) ∧
      queryPieces (url ++ 63 :: [38].intercalate (f :: fs)) = P ++ (last ++ 63 :: f) :: fs := by
  rw [List.forall_mem_cons] at hamp
  obtain ⟨P, last, hlast, happ⟩ := exists_splitOn (queryComponent url)
  have hjoin : 63 :: [38].intercalate (f :: fs) = [38].intercalate ((63 :: f) :: fs) :=
    append_join [63] f fs
  have hfs : fs.filter (· ≠ []) = fs :=
    List.filter_eq_self.mpr fun p hp => decide_eq_true (hne p hp)
  refine ⟨P.filter (· ≠ []), last, ?_, ?_⟩
  · rw [queryPieces, hlast, List.filter_append]
  · rw [queryPieces, queryComponent_second hurl hfrag hq, hjoin,
      happ (63 :: f) (by simpa using hamp.1) fs hamp.2, List.filter_append,
      List.filter_cons_of_pos (by simp), hfs]

/-! ## What escaping keeps -/

/-- The bytes that `http_string_escape` encodes: `curl_easy_escape` is given the size as an `int`,
and reads a C string if that is 0. -/
def kept (s : Bytes) : Bytes :=
  if 2 ^ 31 ≤ s.length % 2 ^ 32 then []
  else if s.length % 2 ^ 32 = 0 then cStr s
  else s.take (s.length % 2 ^ 32)

/-- A string whose size keeps its value as an `int`, or becomes 0. -/
def Whole (s : Bytes) : Prop := s.length < 2 ^ 31 ∨ s.length % 2 ^ 32 = 0

theorem httpStringEscape_eq (s : Bytes) :
    httpStringEscape s = percentEncode isUnreserved (kept s) := by
  have hclean (t : Bytes) : cStr (percentEncode isUnreserved t) = percentEncode isUnreserved t :=
    cStr_of_not_mem (not_mem_percentEncode (by decide) (by decide))
  by_cases hneg : s.length % 2 ^ 32 < 2 ^ 31
  · by_cases hzero : s.length % 2 ^ 32 = 0
    · have hk : kept s = cStr s := by rw [kept, if_neg (by omega), if_pos hzero]
      unfold httpStringEscape curlEasyEscape toInt
      rw [hk, if_pos hneg, if_neg (by omega), if_pos (by omega)]
      exact hclean _
    · have hk : kept s = s.take (s.length % 2 ^ 32) := by
        rw [kept, if_neg (by omega), if_neg hzero]
      unfold httpStringEscape curlEasyEscape toInt
      rw [hk, if_pos hneg, if_neg (by omega), if_neg (by omega)]
      exact hclean _
  · have hk : kept s = [] := by rw [kept, if_pos (by omega)]
    unfold httpStringEscape curlEasyEscape toInt
    rw [hk, if_neg hneg, if_pos (by omega)]
    rfl

/-- What a receiver reads. -/
theorem percentDecode_escape (s : Bytes) : percentDecode (httpStringEscape s) = kept s := by
  rw [httpStringEscape_eq, percentDecode_percentEncode isUnreserved_percent]

/-- What is lost is nothing or `2^31` bytes and more. -/
theorem length_kept {s : Bytes} (h : 0 ∉ s) :
    kept s = s ∧ Whole s ∨ (kept s).length + 2 ^ 31 ≤ s.length ∧ ¬Whole s := by
  unfold kept Whole
  split
  · right
    rw [List.length_nil]
    omega
  · split
    · left
      exact ⟨cStr_of_not_mem h, Or.inr ‹_›⟩
    · rw [List.length_take]
      by_cases hs : s.length < 2 ^ 31
      · left
        rw [Nat.mod_eq_of_lt (by omega), List.take_length]
        exact ⟨rfl, Or.inl hs⟩
      · right
        omega

theorem kept_eq_self_iff {s : Bytes} (h : 0 ∉ s) : kept s = s ↔ Whole s := by
  rcases length_kept h with ⟨hk, hw⟩ | ⟨hlt, hw⟩
  · exact iff_of_true hk hw
  · refine iff_of_false (fun e => ?_) hw
    rw [e] at hlt
    omega

/-- What is left of a string that is cut. -/
theorem length_kept_lt {s : Bytes} (h0 : 0 ∉ s) (h : (kept s).length + 2 ^ 31 ≤ s.length) :
    (kept s).length = 0 ∨ (kept s).length = s.length % 2 ^ 32 ∧ (kept s).length < 2 ^ 31 := by
  unfold kept at h ⊢
  split
  · exact Or.inl rfl
  · split
    · rw [if_neg (by omega), if_pos (by omega), cStr_of_not_mem h0] at h
      omega
    · rw [List.length_take]
      omega

/-- An escaped string is at most three times as long as what is encoded. -/
theorem length_escape (s : Bytes) : ∃ c,
    (httpStringEscape s).length = (kept s).length + 2 * c ∧ c ≤ (kept s).length := by
  rw [httpStringEscape_eq]
  exact ⟨_, length_percentEncode _, List.countP_le_length⟩

/-- **A string that is escaped twice** is read back iff escaping leaves it alone. -/
theorem kept_escape_iff {s : Bytes} (h : 0 ∉ s) : kept (httpStringEscape s) = s ↔ Plain s := by
  have h0 : 0 ∉ httpStringEscape s := separator_not_mem_httpStringEscape s 0 (by simp)
  constructor
  · intro e
    rw [← httpStringEscape_eq_self_iff h]
    rcases length_kept h0 with ⟨hk, -⟩ | ⟨hk, -⟩
    · exact hk.symm.trans e
    -- the escape loses `2^31` bytes and more, yet `s` is what is left of it
    · exfalso
      have hshort := length_kept_lt h0 hk
      rw [e] at hshort hk
      have hwhole : kept s = s := (kept_eq_self_iff h).mpr (Or.inl (by omega))
      obtain ⟨c, hc, hle⟩ := length_escape s
      rw [hwhole] at hc hle
      omega
  · intro hp
    rw [(httpStringEscape_eq_self_iff h).mpr hp, kept_eq_self_iff h]
    exact hp.2

/-! ## The parameters staged -/

/-- A call `add_uri_param(name, value, escape)`. -/
structure UriCall where
  name : Bytes
  value : Bytes
  escape : Bool
  deriving Repr, DecidableEq

/-- The value it stages. -/
def UriCall.stored (c : UriCall) : Bytes := if c.escape then httpStringEscape c.value else c.value

/-- The calls that no later call with the same name overrides. -/
def lastCalls : List UriCall → List UriCall
  | [] => []
  | c :: rest => if ∃ c' ∈ rest, c'.name = c.name then lastCalls rest else c :: lastCalls rest

/-- The client after the calls. -/
def HTTPClient.stageUri (cli : HTTPClient) (calls : List UriCall) : HTTPClient :=
  calls.foldl (fun cli c => cli.addUriParam c.name c.value c.escape) cli

theorem uriParams_stageUri (calls : List UriCall) (cli : HTTPClient) :
    (cli.stageUri calls).uriParams =
      (calls.map fun c => (c.name, c.stored)).foldl (fun m a => m.insert a.1 a.2)
        cli.uriParams := by
  induction calls generalizing cli with
  | nil => rfl
  | cons c calls ih => exact ih (cli.addUriParam c.name c.value c.escape)

theorem mem_lastCalls {c : UriCall} : ∀ {calls : List UriCall}, c ∈ lastCalls calls → c ∈ calls
  | [], h => absurd h List.not_mem_nil
  | d :: calls, h => by
    rw [lastCalls] at h
    split at h
    · exact List.mem_cons_of_mem d (mem_lastCalls h)
    · rcases List.mem_cons.mp h with rfl | h
      · exact List.mem_cons_self
      · exact List.mem_cons_of_mem d (mem_lastCalls h)

theorem nodup_lastCalls : ∀ calls : List UriCall, ((lastCalls calls).map UriCall.name).Nodup
  | [] => List.nodup_nil
  | c :: calls => by
    rw [lastCalls]
    split
    · exact nodup_lastCalls calls
    · rename_i hlast
      rw [List.map_cons, List.nodup_cons]
      refine ⟨fun hmem => hlast ?_, nodup_lastCalls calls⟩
      obtain ⟨d, hd, e⟩ := List.mem_map.mp hmem
      exact ⟨d, mem_lastCalls hd, e⟩

/-- The parameters that are staged, each with its value. -/
def storedPairs (calls : List UriCall) : List (Σ _ : Bytes, Bytes) :=
  (lastCalls calls).map fun c => ⟨c.name, c.stored⟩

theorem nodupKeys_storedPairs (calls : List UriCall) : (storedPairs calls).NodupKeys := by
  have h := nodup_lastCalls calls
  unfold storedPairs List.NodupKeys List.keys
  rwa [List.map_map]

theorem dlookup_storedPairs (name : Bytes) : ∀ calls : List UriCall,
    (storedPairs calls).dlookup name =
      (((calls.map fun c => (c.name, c.stored)).filter fun a => a.1 = name).map
        Prod.snd).getLast?
  | [] => rfl
  | c :: calls => by
    have ih := dlookup_storedPairs name calls
    unfold storedPairs at ih ⊢
    rw [lastCalls]
    by_cases hlast : ∃ c' ∈ calls, c'.name = c.name
    · rw [if_pos hlast, ih]
      by_cases hn : c.name = name
      · obtain ⟨d, hd, e⟩ := hlast
        have hmem : (d.name, d.stored) ∈
            (calls.map fun c => (c.name, c.stored)).filter fun a => a.1 = name :=
          List.mem_filter.mpr ⟨List.mem_map.mpr ⟨d, hd, rfl⟩, decide_eq_true (e.trans hn)⟩
        obtain ⟨a, as, has⟩ := List.exists_cons_of_ne_nil (List.ne_nil_of_mem hmem)
        rw [List.map_cons, List.filter_cons_of_pos (by simpa using hn), has]
        rfl
      · rw [List.map_cons, List.filter_cons_of_neg (by simpa using hn)]
    · rw [if_neg hlast, List.map_cons, List.map_cons]
      by_cases hn : c.name = name
      · have hnone : (calls.map fun c => (c.name, c.stored)).filter (fun a => a.1 = name) = [] := by
          rw [List.filter_eq_nil_iff]
          rintro a ha hname
          obtain ⟨d, hd, rfl⟩ := List.mem_map.mp ha
          exact hlast ⟨d, hd, (of_decide_eq_true hname).trans hn.symm⟩
        rw [List.filter_cons_of_pos (by simpa using hn), hnone]
        subst hn
        exact List.dlookup_cons_eq _ _ _
      · rw [List.filter_cons_of_neg (by simpa using hn), ← ih]
        exact List.dlookup_cons_ne _ _ (Ne.symm hn)

/-- **What is sent, in whatever order**: the staged parameters, each once. -/
theorem pairs_stageUri {cli : HTTPClient} (hcli : cli.uriParams = ∅) {calls : List UriCall}
    (it : Iteration (cli.stageUri calls).uriParams) : it.pairs.Perm (storedPairs calls) := by
  refine List.lookup_ext it.nodupKeys (nodupKeys_storedPairs calls) fun name value => ?_
  rw [it.dlookup_pairs, uriParams_stageUri, lookup_foldl_last, hcli, Finmap.lookup_empty,
    Option.or_none, dlookup_storedPairs]

/-- What is staged after the calls. -/
theorem lookup_stageUri_iff {cli : HTTPClient} (hcli : cli.uriParams = ∅) {calls : List UriCall}
    {name value : Bytes} : (cli.stageUri calls).uriParams.lookup name = some value ↔
      ∃ c ∈ lastCalls calls, c.name = name ∧ c.stored = value := by
  obtain ⟨it⟩ := Iteration.nonempty (cli.stageUri calls).uriParams
  rw [← it.mem_pairs_iff, (pairs_stageUri hcli it).mem_iff, storedPairs, List.mem_map]
  simp

/-! ## The law -/

/-- With nothing staged before, the URL that is sent has the parameters of the caller's URL and
then, in some order, those of the calls. -/
def QueryFaithful (url : Bytes) (calls : List UriCall) : Prop :=
  ∀ (cli : HTTPClient) (query : Query) (orders : Orders (cli.stageUri calls)),
    cli.uriParams = ∅ → query.url = url →
      ∃ staged, staged.Perm ((lastCalls calls).map fun c => (c.name, c.value)) ∧
        queryParams ((cli.stageUri calls).sent query orders).url = queryParams url ++ staged

theorem not_mem_join {c : UInt8} (hc : c ≠ 38) : ∀ {fs : List Bytes}, (∀ f ∈ fs, c ∉ f) →
    c ∉ [38].intercalate fs
  | [], _ => by simp
  | [f], h => by simpa using h
  | f :: g :: fs, h => by
    rw [List.forall_mem_cons] at h
    have ih := not_mem_join hc h.2
    rw [List.intercalate_cons_cons]
    simp only [List.mem_append, List.mem_singleton, not_or]
    exact ⟨⟨h.1, hc⟩, ih⟩

theorem not_mem_formField {c : UInt8} (hc : isUnreserved c = false) (h37 : c ≠ 37) (h61 : c ≠ 61)
    (p : Σ _ : Bytes, Bytes) : c ∉ formField p := by
  have h1 := not_mem_httpStringEscape p.1 hc h37
  have h2 := not_mem_httpStringEscape p.2 hc h37
  simp [formField, h1, h2, h61]

/-- The URL that is sent. -/
theorem url_sent (cli : HTTPClient) {query : Query} (orders : Orders cli) (h : 0 ∉ query.url) :
    (cli.sent query orders).url =
      if orders.uri.pairs = [] then query.url
      else query.url ++ 63 :: [38].intercalate (orders.uri.pairs.map formField) := by
  have hfields : 0 ∉ [38].intercalate (orders.uri.pairs.map formField) := by
    refine not_mem_join (by decide) fun f hf => ?_
    obtain ⟨p, -, rfl⟩ := List.mem_map.mp hf
    exact not_mem_formField (by decide) (by decide) (by decide) p
  have hsent : (cli.sent query orders).url =
      cStr (HTTPClient.appendParams (ascii "?") orders.uri.pairs query.url) := rfl
  rw [hsent]
  split
  · rename_i hnil
    rw [hnil]
    exact cStr_of_not_mem h
  · rename_i hne
    have hquestion : ascii "?" = [63] := by decide
    rw [appendParams_eq _ _ _ hne, hquestion, List.append_assoc, List.singleton_append]
    exact cStr_of_not_mem (by simp [h, hfields])

theorem splitPair_formField (lead : Bytes) (hlead : 61 ∉ lead) (p : Σ _ : Bytes, Bytes) :
    splitPair (lead ++ formField p) = (lead ++ httpStringEscape p.1, httpStringEscape p.2) := by
  have h1 := separator_not_mem_httpStringEscape p.1 61 (by simp)
  have hall : ∀ c ∈ lead ++ httpStringEscape p.1, decide (c ≠ 61) = true := by
    intro c hc
    refine decide_eq_true fun e => ?_
    subst e
    rcases List.mem_append.mp hc with hc | hc
    · exact hlead hc
    · exact h1 hc
  rw [splitPair, formField, ← List.append_assoc, List.takeWhile_append_of_pos hall,
    List.dropWhile_append_of_pos hall]
  simp

/-- A name that is cut loses too much for anything else to make up for it. -/
theorem sum_length_kept : ∀ names : List Bytes, (∀ n ∈ names, 0 ∉ n) →
    (∀ n ∈ names, kept n = n) ∨
      ((names.map kept).map List.length).sum + 2 ^ 31 ≤ (names.map List.length).sum
  | [], _ => Or.inl fun _ h => absurd h List.not_mem_nil
  | n :: names, h0 => by
    rw [List.forall_mem_cons] at h0
    have ih := sum_length_kept names h0.2
    simp only [List.map_cons, List.sum_cons, List.forall_mem_cons]
    rcases length_kept h0.1 with ⟨hn, -⟩ | ⟨hn, -⟩
    · rw [hn]
      rcases ih with h | h
      · exact Or.inl ⟨rfl, h⟩
      · exact Or.inr (by omega)
    · right
      rcases ih with h | h
      · rw [List.map_congr_left h, List.map_id']
        omega
      · omega

section Law

variable {cs : List UriCall} (hnul : ∀ n ∈ cs.map UriCall.name, 0 ∉ n)

/-- What is read of the parameters, if they are all read as pieces of their own. -/
def readPairs (cs : List UriCall) : List (Bytes × Bytes) :=
  cs.map fun c => (kept c.name, kept c.stored)

theorem sum_names {l : List (Bytes × Bytes)} (h : l.Perm (cs.map fun c => (c.name, c.value))) :
    ((l.map Prod.fst).map List.length).sum = ((cs.map UriCall.name).map List.length).sum := by
  have hperm := ((h.map Prod.fst).map List.length).sum_eq
  have hfst : (cs.map fun c => (c.name, c.value)).map Prod.fst = cs.map UriCall.name := by
    rw [List.map_map]
    rfl
  rw [hperm, hfst]

include hnul in
/-- **Nothing is lost** when the parameters are read back, in any order. -/
theorem kept_of_perm (hnodup : (cs.map UriCall.name).Nodup)
    (h : (readPairs cs).Perm (cs.map fun c => (c.name, c.value))) :
    ∀ c ∈ cs, kept c.name = c.name ∧ kept c.stored = c.value := by
  have hsum := sum_names h
  have hnames : ∀ n ∈ cs.map UriCall.name, kept n = n := by
    rcases sum_length_kept _ hnul with hall | hlt
    · exact hall
    · have hfst : (readPairs cs).map Prod.fst = (cs.map UriCall.name).map kept := by
        simp [readPairs]
      rw [hfst] at hsum
      omega
  intro c hc
  have hname := hnames c.name (List.mem_map.mpr ⟨c, hc, rfl⟩)
  refine ⟨hname, ?_⟩
  obtain ⟨d, hd, e⟩ := List.mem_map.mp (h.subset (List.mem_map.mpr ⟨c, hc, rfl⟩))
  rw [hname, Prod.mk.injEq] at e
  obtain rfl : d = c := List.inj_on_of_nodup_map hnodup hd hc e.1
  exact e.2.symm

end Law

section Sent

variable {url : Bytes} {calls : List UriCall} (hurl : 0 ∉ url) (hfrag : 35 ∉ url)
  (hcalls : ∀ c ∈ calls, 0 ∉ c.name ∧ 0 ∉ c.value)

theorem lastCalls_eq_nil_iff : lastCalls calls = [] ↔ calls = [] := by
  refine ⟨fun h => ?_, fun h => by rw [h, lastCalls]⟩
  induction calls with
  | nil => rfl
  | cons c calls ih =>
    rw [lastCalls] at h
    split at h
    · rename_i hlast
      rw [ih h] at hlast
      simp at hlast
    · simp at h

/-- The fields of a request can be told apart and from the rest of the URL. -/
theorem fields_free (pairs : List (Σ _ : Bytes, Bytes)) :
    (∀ f ∈ pairs.map formField, f ≠ []) ∧ (∀ f ∈ pairs.map formField, 38 ∉ f) ∧
      35 ∉ [38].intercalate (pairs.map formField) := by
  have hall {P : Bytes → Prop} (h : ∀ p, P (formField p)) : ∀ f ∈ pairs.map formField, P f := by
    intro f hf
    obtain ⟨p, -, rfl⟩ := List.mem_map.mp hf
    exact h p
  refine ⟨hall formField_ne_nil, hall amp_not_mem_formField, not_mem_join (by decide) ?_⟩
  exact hall (P := (35 ∉ ·)) fun p => not_mem_formField (by decide) (by decide) (by decide) p

/-- The staged parameters, read as pieces of their own. -/
theorem readPiece_fields {pairs : List (Σ _ : Bytes, Bytes)}
    (hp : pairs.Perm (storedPairs calls)) :
    ((pairs.map formField).map readPiece).Perm (readPairs (lastCalls calls)) := by
  rw [List.map_map]
  refine (hp.map _).trans (List.Perm.of_eq ?_)
  unfold storedPairs readPairs
  rw [List.map_map]
  refine List.map_congr_left fun c _ => ?_
  have hpair := splitPair_formField [] List.not_mem_nil ⟨c.name, c.stored⟩
  rw [List.nil_append, List.nil_append] at hpair
  simp only [Function.comp_apply, readPiece, hpair, percentDecode_escape]

include hfrag in
/-- The parameters of a URL without a query. -/
theorem queryParams_first (hquery : 63 ∉ url) {pairs : List (Σ _ : Bytes, Bytes)}
    (hne : pairs ≠ []) :
    queryParams (url ++ 63 :: [38].intercalate (pairs.map formField)) =
      (pairs.map formField).map readPiece := by
  obtain ⟨hfne, hfamp, hffrag⟩ := fields_free pairs
  obtain ⟨p, ps, rfl⟩ := List.exists_cons_of_ne_nil hne
  rw [queryParams, List.map_cons, queryPieces_first hquery hfrag hffrag hfne hfamp]

theorem queryParams_none (hquery : 63 ∉ url) : queryParams url = [] := by
  have hdrop : (url.takeWhile (· ≠ 35)).dropWhile (· ≠ 63) = [] := by
    rw [List.dropWhile_eq_nil_iff]
    intro c hc
    exact decide_eq_true fun e => hquery (e ▸ (List.takeWhile_prefix _).subset hc)
  rw [queryParams, queryPieces, queryComponent, hdrop]
  rfl

include hfrag in
/-- **Behind a query the parameters are not read back**: either one is missing, or the name of the
first begins with a `?`. -/
theorem not_perm_second (hquery : 63 ∈ url) {p : Σ _ : Bytes, Bytes}
    {ps : List (Σ _ : Bytes, Bytes)} {cs : List UriCall}
    (hnul : ∀ n ∈ cs.map UriCall.name, 0 ∉ n)
    (hread : (((p :: ps).map formField).map readPiece).Perm (readPairs cs))
    {staged : List (Bytes × Bytes)} (hstaged : staged.Perm (cs.map fun c => (c.name, c.value))) :
    queryParams (url ++ 63 :: [38].intercalate ((p :: ps).map formField)) ≠
      queryParams url ++ staged := by
  intro h
  obtain ⟨hfne, hfamp, hffrag⟩ := fields_free (p :: ps)
  rw [List.map_cons] at hfne hfamp hffrag hread h
  rw [List.forall_mem_cons] at hfne
  obtain ⟨P, last, hold, hnew⟩ := queryPieces_second hquery hfrag hffrag hfne.2 hfamp
  rw [queryParams, queryParams, hold, hnew, List.map_append, List.map_append, List.append_assoc,
    List.append_cancel_left_eq] at h
  have hlen : staged.length = (ps.map formField).length + 1 := by
    have h1 := hstaged.length_eq
    have h2 := hread.length_eq
    simp only [List.length_map, List.length_cons, readPairs] at h1 h2 ⊢
    omega
  by_cases hlast : last = []
  · -- the pieces are as many as the parameters, but the names of the first kind are longer
    subst hlast
    rw [List.filter_cons_of_neg (by simp), List.filter_nil, List.map_nil, List.nil_append,
      List.nil_append, List.map_cons] at h
    have hnames := sum_names (h ▸ hstaged)
    have hsum := ((hread.map Prod.fst).map List.length).sum_eq
    have hfst : (readPairs cs).map Prod.fst = (cs.map UriCall.name).map kept := by
      simp [readPairs]
    have hlonger : (readPiece (63 :: formField p)).1.length =
        (readPiece (formField p)).1.length + 1 := by
      have hq := splitPair_formField [63] (by decide) p
      have hp := splitPair_formField [] List.not_mem_nil p
      rw [List.singleton_append, List.singleton_append] at hq
      rw [List.nil_append, List.nil_append] at hp
      rw [readPiece, readPiece, hq, hp, percentDecode_cons (by decide), List.length_cons]
    rw [hfst] at hsum
    simp only [List.map_cons, List.sum_cons] at hsum hnames
    rcases sum_length_kept _ hnul with hall | hlt
    · rw [List.map_congr_left hall, List.map_id'] at hsum
      omega
    · omega
  · rw [List.filter_cons_of_pos (by simpa using hlast)] at h
    have := congrArg List.length h
    simp only [List.length_append, List.length_map, List.length_cons] at this hlen
    omega

theorem pairs_ne_nil (hne : calls ≠ []) {cli : HTTPClient} (hcli : cli.uriParams = ∅)
    (orders : Orders (cli.stageUri calls)) : orders.uri.pairs ≠ [] := by
  intro h
  have hperm := pairs_stageUri hcli orders.uri
  rw [h, List.nil_perm, storedPairs, List.map_eq_nil_iff, lastCalls_eq_nil_iff] at hperm
  exact hne hperm

include hurl hfrag hcalls in
/-- What the law asks for once something is staged. -/
theorem survives_of_queryFaithful (hne : calls ≠ []) (h : QueryFaithful url calls) :
    63 ∉ url ∧ ∀ c ∈ lastCalls calls, kept c.name = c.name ∧ kept c.stored = c.value := by
  obtain ⟨orders⟩ := Orders.nonempty (HTTPClient.stageUri {} calls)
  obtain ⟨staged, hstaged, hsent⟩ := h {} { url := url } orders rfl rfl
  have hnul : ∀ n ∈ (lastCalls calls).map UriCall.name, 0 ∉ n := by
    intro n hn
    obtain ⟨c, hc, rfl⟩ := List.mem_map.mp hn
    exact (hcalls c (mem_lastCalls hc)).1
  have hread := readPiece_fields (pairs_stageUri rfl orders.uri)
  have hpairs := pairs_ne_nil hne rfl orders
  rw [url_sent _ _ hurl, if_neg hpairs] at hsent
  by_cases hquery : 63 ∈ url
  · obtain ⟨p, ps, e⟩ := List.exists_cons_of_ne_nil hpairs
    rw [e] at hread hsent
    exact absurd hsent (not_perm_second hfrag hquery hnul hread hstaged)
  · rw [queryParams_first hfrag hquery hpairs, queryParams_none hquery, List.nil_append] at hsent
    rw [hsent] at hread
    exact ⟨hquery, kept_of_perm hnul (nodup_lastCalls calls) (hread.symm.trans hstaged)⟩

include hurl in
theorem queryFaithful_nil : QueryFaithful url [] := by
  intro cli query orders hcli hq
  have hpairs := (pairs_stageUri hcli orders.uri).eq_nil
  refine ⟨[], List.Perm.refl _, ?_⟩
  rw [url_sent _ _ (hq ▸ hurl), if_pos hpairs, hq, List.append_nil]

include hurl hfrag in
theorem queryFaithful_of_survives (hne : calls ≠ []) (hquery : 63 ∉ url)
    (hall : ∀ c ∈ lastCalls calls, kept c.name = c.name ∧ kept c.stored = c.value) :
    QueryFaithful url calls := by
  intro cli query orders hcli hq
  have hread := readPiece_fields (pairs_stageUri hcli orders.uri)
  have hpairs := pairs_ne_nil hne hcli orders
  refine ⟨_, hread.trans (List.Perm.of_eq ?_), ?_⟩
  · refine List.map_congr_left fun c hc => ?_
    obtain ⟨hname, hvalue⟩ := hall c hc
    rw [hname, hvalue]
  · rw [url_sent _ _ (hq ▸ hurl), if_neg hpairs, hq, queryParams_first hfrag hquery hpairs,
      queryParams_none hquery, List.nil_append]

end Sent

/-- **When the query string is faithful.** For a URL without fragment and names and values without
NUL: nothing is staged, or the URL has no `?`, no name is cut when its size becomes an `int`, and
the value survives being escaped twice if it was staged with `escape`, once otherwise. -/
theorem queryFaithful_iff (url : Bytes) (calls : List UriCall) (hurl : 0 ∉ url) (hfrag : 35 ∉ url)
    (hcalls : ∀ c ∈ calls, 0 ∉ c.name ∧ 0 ∉ c.value) :
    QueryFaithful url calls ↔ calls = [] ∨ 63 ∉ url ∧ ∀ c ∈ lastCalls calls,
      Whole c.name ∧ if c.escape then Plain c.value else Whole c.value := by
  have hkept : ∀ c ∈ lastCalls calls, (kept c.name = c.name ∧ kept c.stored = c.value) ↔
      (Whole c.name ∧ if c.escape then Plain c.value else Whole c.value) := by
    intro c hc
    obtain ⟨hname, hvalue⟩ := hcalls c (mem_lastCalls hc)
    rw [kept_eq_self_iff hname, UriCall.stored]
    split
    · rw [kept_escape_iff hvalue]
    · rw [kept_eq_self_iff hvalue]
  by_cases hne : calls = []
  · subst hne
    exact iff_of_true (queryFaithful_nil hurl) (Or.inl rfl)
  · rw [or_iff_right hne]
    constructor
    · intro h
      obtain ⟨hquery, hall⟩ := survives_of_queryFaithful hurl hfrag hcalls hne h
      exact ⟨hquery, fun c hc => (hkept c hc).mp (hall c hc)⟩
    · rintro ⟨hquery, hall⟩
      exact queryFaithful_of_survives hurl hfrag hne hquery fun c hc =>
        (hkept c hc).mpr (hall c hc)

/-- A value that has to be escaped, staged without `escape`. -/
theorem queryFaithful_unescaped :
    QueryFaithful (ascii "http://localhost/") [⟨ascii "q", ascii "a b", false⟩] :=
  (queryFaithful_iff _ _ (by decide) (by decide) (by decide)).mpr
    (Or.inr ⟨by decide, by simp [lastCalls, Whole, ascii]⟩)

/-- The same value staged with `escape`, as is the default, is read as `a%20b`. -/
theorem not_queryFaithful_escaped :
    (0 ∉ ascii "http://localhost/" ∧ 35 ∉ ascii "http://localhost/") ∧
      ¬QueryFaithful (ascii "http://localhost/") [⟨ascii "q", ascii "a b", true⟩] := by
  refine ⟨by decide, fun h => ?_⟩
  have hall := (survives_of_queryFaithful (by decide) (by decide) (by decide) (by decide) h).2
  have hvalue := (hall ⟨ascii "q", ascii "a b", true⟩ (by decide)).2
  exact absurd hvalue (by decide)

end WinterWind.Http
