import WinterWind.Extras.GitlabRequests
import WinterWind.Library.Decimal

/-!
# Deleting projects on a server (`GitlabAPIClient::delete_projects`)

`delete_projects` searches for each name and deletes the first project found that has it. Here the
client runs against a server that keeps a list of projects, and the whole loop is compared with what
it should do to that list.

* `ProjectServer` is a healthy server: the projects it has after any requests, and its answers to
  the two kinds of requests the loop makes. A search gives the first page of what it matches. What
  it matches beyond the exact name is up to the server.
* The name is escaped when it is staged and again when it is sent, so a name that escaping changes
  is not the one the server searches for. The client does not ask for further pages. The theorem is
  about names that escaping leaves alone (`Plain`) and whose matches fit on a page.
* `deleteAll` is the loop over the list. A name that nothing matches ends it, as `get_projects` does
  not accept an empty answer; a match with another name does not.

Results:
* `sent_askProjects`, `getProject_server`: the search, as the server sees it.
* **`deleteProjects_refines`**: the client does to the server what `deleteAll` does to its list,
  with the same code, and no project with another name is touched.
-/

namespace WinterWind.Extras

open Http Library

/-- A project on the server. -/
structure ServerProject where
  id : Nat
  name : Bytes

/-- The loop of `delete_projects` over a list of projects, where a search for a name matches
`found`. -/
def deleteAll (found : Bytes → ServerProject → Bool) :
    List Bytes → List ServerProject → List ServerProject × GitlabRetCod
  | [], ps => (ps, .ok)
  | name :: names, ps =>
    if name.isEmpty then (ps, .invalidParams)
    else if ps.any (found name) then
      match ps.find? (·.name == name) with
      | none => deleteAll found names ps
      | some p => deleteAll found names (ps.filter (·.id != p.id))
    else (ps, .invalidResponse)

namespace GitlabAPIClient

/-- The URL of the search for projects with a text. -/
def searchUrl (serverUri text : Bytes) : Bytes :=
  serverUri ++ apiV3Endpoint ++ ascii "/projects" ++ ascii "?search=" ++
    percentEncode isUnreserved text

/-- The URL of the project with a number. -/
def serverProjectUrl (serverUri : Bytes) (id : Nat) : Bytes :=
  serverUri ++ apiV3Endpoint ++ ascii "/projects/" ++ ascii (toString id)

/-- A value that describes a project, as the client reads it. -/
structure Describes (realText : Option Rat → Bytes) (p : ServerProject) (v : Value) : Prop where
  complete : checkProject v = .ok true
  id : idText realText v = .ok (ascii (toString p.id))
  name : ∀ s, hasText realText (ascii "name") s v = .ok (p.name == s)

/-- A healthy server of projects, for those who send its token. A search matches what has the text
as its name. -/
structure ProjectServer (net : Net) (json : JsonLib) (realText : Option Rat → Bytes)
    (serverUri apiToken : Bytes) where
  /-- The projects after some requests. -/
  projects : List SentRequest → List ServerProject
  found : Bytes → ServerProject → Bool
  perPage : Nat
  found_name : ∀ p, found p.name p = true
  nodup : ∀ sents, ((projects sents).map ServerProject.id).Nodup
  search : ∀ sents sent text, tokenLine apiToken ∈ sent.headers → sent.customRequest = none →
    sent.postFields = none → sent.url = searchUrl serverUri text →
    projects (sents ++ [sent]) = projects sents ∧
      ∃ body vs, net.answer (sents ++ [sent]) = ⟨200, body⟩ ∧
        json.parse body .null = (true, .array vs) ∧
        List.Forall₂ (Describes realText) (((projects sents).filter (found text)).take perPage) vs
  delete : ∀ sents sent id, tokenLine apiToken ∈ sent.headers →
    sent.customRequest = some (ascii "DELETE") → sent.url = serverProjectUrl serverUri id →
    id ∈ (projects sents).map ServerProject.id →
    projects (sents ++ [sent]) = (projects sents).filter (·.id != id) ∧
      (net.answer (sents ++ [sent])).responseCode = 200

end GitlabAPIClient

/-! ## The list -/

section List

variable {found : Bytes → ServerProject → Bool}

theorem nodup_filter {ps : List ServerProject} (h : (ps.map ServerProject.id).Nodup)
    (test : ServerProject → Bool) : ((ps.filter test).map ServerProject.id).Nodup :=
  h.sublist (List.filter_sublist.map _)

/-- **What is deleted has one of the names.** -/
theorem mem_deleteAll {p : ServerProject} : ∀ {names : List Bytes} {ps : List ServerProject},
    p ∈ ps → p.name ∉ names → (ps.map ServerProject.id).Nodup →
      p ∈ (deleteAll found names ps).1
  | [], ps, hp, _, _ => hp
  | name :: names, ps, hp, hname, hnodup => by
    have hrest : p.name ∉ names := fun h => hname (List.mem_cons_of_mem name h)
    rw [deleteAll]
    split
    · exact hp
    · split
      · split
        · exact mem_deleteAll hp hrest hnodup
        · rename_i q hq
          have hmem : q ∈ ps := List.mem_of_find?_eq_some hq
          have hqname : q.name = name := by simpa using List.find?_some hq
          have hid : p.id ≠ q.id := by
            intro hid
            have hpq := List.inj_on_of_nodup_map hnodup hp hmem hid
            exact hname (hpq ▸ hqname ▸ List.mem_cons_self)
          exact mem_deleteAll (List.mem_filter.mpr ⟨hp, by simpa using hid⟩) hrest
            (nodup_filter hnodup _)
      · exact hp

theorem any_eq_filter (test : ServerProject → Bool) (ps : List ServerProject) :
    ps.any test = !(ps.filter test).isEmpty := by
  rw [Bool.eq_iff_iff, List.any_eq_true]
  simp

/-- The first project with a name is the first match with it. -/
theorem find?_matching (hfound : ∀ p, found p.name p = true) (ps : List ServerProject)
    (name : Bytes) :
    (ps.filter (found name)).find? (·.name == name) = ps.find? (·.name == name) := by
  rw [List.find?_filter]
  refine congrArg (ps.find? ·) (funext fun p => ?_)
  by_cases hname : p.name = name
  · simp [← hname, hfound p]
  · simp [hname]

end List

/-! ## The search -/

/-- One assignment to an empty map is all there is to iterate. -/
theorem pairs_insert_empty {m : UnorderedMap Bytes Bytes} (hm : m = ∅) {k v : Bytes}
    (it : Iteration (m.insert k v)) : it.pairs = [⟨k, v⟩] := by
  subst hm
  have hentries := it.enumerates
  rw [Finmap.entries_insert_of_notMem Finmap.notMem_empty] at hentries
  exact Multiset.coe_eq_singleton.mp hentries

theorem nul_not_mem_of_plain {name : Bytes} (h : Plain name) : 0 ∉ name := by
  intro hmem
  exact absurd (h.1 0 hmem) (by decide)

/-- A name that escaping leaves alone is staged and sent as it is. -/
theorem httpStringEscape_plain {name : Bytes} (h : Plain name) :
    httpStringEscape name = name ∧ percentEncode isUnreserved name = name :=
  ⟨(httpStringEscape_eq_self_iff (nul_not_mem_of_plain h)).mpr h, percentEncode_of_unreserved h.1⟩

namespace GitlabAPIClient

section Server

variable {net : Net} {json : JsonLib} {realText : Option Rat → Bytes} {g : GitlabAPIClient}
  {name : Bytes}

theorem nul_not_mem_searchUrl {serverUri : Bytes} (huri : 0 ∉ serverUri) (text : Bytes) :
    0 ∉ searchUrl serverUri text := by
  have hfixed : 0 ∉ apiV3Endpoint ∧ 0 ∉ ascii "/projects" ∧ 0 ∉ ascii "?search=" := by decide
  simp only [searchUrl, List.mem_append, not_or]
  exact ⟨⟨⟨⟨huri, hfixed.1⟩, hfixed.2.1⟩, hfixed.2.2⟩,
    not_mem_percentEncode (by decide) (by decide)⟩

theorem nul_not_mem_serverProjectUrl {serverUri : Bytes} (huri : 0 ∉ serverUri) (id : Nat) :
    0 ∉ serverProjectUrl serverUri id := by
  have hfixed : 0 ∉ apiV3Endpoint ∧ 0 ∉ ascii "/projects/" := by decide
  have hid : ascii (toString id) = decimal id := by
    change (Nat.repr id).toList.map _ = _
    rw [Nat.toList_repr, map_toDigits]
  have hnul : 0 ∉ decimal id := fun h => absurd (isDigit_of_mem_decimal h) (by decide)
  simp only [serverProjectUrl, hid, List.mem_append, not_or]
  exact ⟨⟨⟨huri, hfixed.1⟩, hfixed.2⟩, hnul⟩

/-- **The request of a search**, as it is sent. -/
theorem sent_askProjects (hg : OnlyToken g) (huri : 0 ∉ g.serverUri) (hname : name.isEmpty = false)
    (hplain : Plain name) :
    ∃ sent, tokenLine g.apiToken ∈ sent.headers ∧ sent.customRequest = none ∧
      sent.postFields = none ∧ sent.url = searchUrl g.serverUri name ∧
      (g.askProjects net json name .standard).1.1.transfers.sent = g.transfers.sent ++ [sent] ∧
      (g.askProjects net json name .standard).1.1.httpCode =
        (net.answer (g.transfers.sent ++ [sent])).responseCode ∧
      ((g.askProjects net json name .standard).2, (g.askProjects net json name .standard).1.2) =
        json.parse (net.answer (g.transfers.sent ++ [sent])).written .null := by
  let query : Query := { url := g.serverUri ++ apiV3Endpoint ++ ascii "/projects" ++ [] }
  let t := g.transfers.addUriParam (ascii "search") name true
  let staged := (t.addHttpHeader (ascii "PRIVATE-TOKEN") g.apiToken).prepareJsonQuery
  have hask : g.askProjects net json name .standard =
      let r := (t.addHttpHeader (ascii "PRIVATE-TOKEN") g.apiToken).getJson net json query .null
      (({ serverUri := g.serverUri
          apiToken := g.apiToken
          transfers := r.1
          uriParams_eq := rfl
          formParams_eq := rfl }, r.2.2), r.2.1) := by
    simp only [askProjects, hname, endpointSuffix]
    rfl
  refine ⟨staged.next net query, ?_, rfl, ?_, ?_, by rw [hask]; rfl, by rw [hask]; rfl, ?_⟩
  · exact (authenticated_next_json (t := t.addHttpHeader (ascii "PRIVATE-TOKEN") g.apiToken) hg
      (prefix_endpoint g _ _) rfl rfl).token
  · exact Transfers.postFields_next (t := staged) g.formParams_eq
  · have hpairs := pairs_insert_empty g.uriParams_eq
      (net.orders staged.sent.length staged.client).uri
    have hsearch : httpStringEscape (ascii "search") = ascii "search" := by decide
    change cStr (HTTPClient.appendParams (ascii "?")
      (net.orders staged.sent.length staged.client).uri.pairs query.url) = _
    rw [hpairs]
    dsimp only [HTTPClient.appendParams]
    obtain ⟨hescape, hencode⟩ := httpStringEscape_plain hplain
    rw [hsearch, if_pos rfl, hescape, hescape,
      ← cStr_of_not_mem (nul_not_mem_searchUrl huri name)]
    simp only [query, searchUrl, hencode, List.append_nil, List.append_assoc]
    rfl
  · rw [hask]
    rfl

theorem checkAll_describes {ps : List ServerProject} {vs : List Value}
    (h : List.Forall₂ (Describes realText) ps vs) : checkAll checkProject vs = .ok true := by
  induction h with
  | nil => rfl
  | cons hp _ ih =>
    rw [checkAll, hp.complete]
    exact ih

/-- The first value with a name describes the first project with it. -/
theorem findFirst_describes {ps : List ServerProject} {vs : List Value}
    (h : List.Forall₂ (Describes realText) ps vs) (name : Bytes) :
    match ps.find? (·.name == name) with
    | none => findFirst (hasText realText (ascii "name") name) vs = .ok none
    | some p => ∃ v, findFirst (hasText realText (ascii "name") name) vs = .ok (some v) ∧
        Describes realText p v := by
  induction h with
  | nil => rfl
  | @cons p v ps vs hp _ ih =>
    rw [List.find?_cons]
    simp only [findFirst, hp.name name, bind, Except.bind]
    cases p.name == name with
    | true => exact ⟨v, rfl, hp⟩
    | false => exact ih

variable {serverUri apiToken : Bytes}

/-- A client of the server, with nothing but its token staged. -/
structure ClientOf (serverUri apiToken : Bytes) (g : GitlabAPIClient) : Prop where
  serverUri_eq : g.serverUri = serverUri
  apiToken_eq : g.apiToken = apiToken
  staged : OnlyToken g

theorem ClientOf.of_keeps {n : Nat} {g' : GitlabAPIClient} (hg : ClientOf serverUri apiToken g)
    (h : Keeps n g g') : ClientOf serverUri apiToken g' :=
  ⟨h.serverUri.trans hg.serverUri_eq, h.apiToken.trans hg.apiToken_eq, h.staged hg.staged⟩

/-- What `get_project` should give, where a search for the name matches `found`. -/
def Finds (realText : Option Rat → Bytes) (found : ServerProject → Bool) (name : Bytes)
    (ps : List ServerProject) (l : Lookup) : Prop :=
  if ps.any found then
    match ps.find? (·.name == name) with
    | none => l.code = .ok .notFound
    | some p => l.code = .ok .ok ∧ idText realText l.result = .ok (ascii (toString p.id))
  else l.code = .ok .invalidResponse

/-- **`get_project` on the server** changes nothing, and finds the first project with the name. -/
theorem getProject_server (server : ProjectServer net json realText serverUri apiToken)
    (hg : ClientOf serverUri apiToken g) (huri : 0 ∉ serverUri) (hname : name.isEmpty = false)
    (hplain : Plain name)
    (hpage : ((server.projects g.transfers.sent).filter (server.found name)).length ≤
      server.perPage) :
    let l := g.getProject net json realText name .null .standard
    server.projects l.client.transfers.sent = server.projects g.transfers.sent ∧
      Finds realText (server.found name) name (server.projects g.transfers.sent) l := by
  obtain ⟨rfl, rfl, hstaged⟩ := hg
  obtain ⟨sent, htoken, hcustom, hfields, hurl, hsent, hcode, hparsed⟩ :=
    @sent_askProjects net json g name hstaged huri hname hplain
  obtain ⟨hkept, body, vs, hanswer, hparse, hdescribes⟩ :=
    server.search g.transfers.sent sent _ htoken hcustom hfields hurl
  rw [List.take_of_length_le hpage] at hdescribes
  rw [hanswer] at hcode hparsed
  rw [hparse, Prod.mk.injEq] at hparsed
  let client := (g.askProjects net json name .standard).1.1
  have hlist : g.getProjects net json name .null .standard =
      if vs.isEmpty then ⟨client, .ok .invalidResponse, .null⟩
      else ⟨client, .ok .ok, .array vs⟩ := by
    simp only [getProjects, hparsed.1, listed, hcode, hparsed.2, isArray, Value.empty,
      Value.children, checkAll_describes hdescribes]
    cases vs.isEmpty <;> rfl
  have hget : g.getProject net json realText name .null .standard =
      searched (hasText realText (ascii "name") name)
        (g.getProjects net json name .null .standard) .null := by
    simp only [getProject, hname]
    rfl
  constructor
  · rw [hget, client_searched, hlist, ← hkept, ← hsent]
    split <;> rfl
  · have hfirst := findFirst_describes hdescribes name
    rw [hget, hlist, Finds, any_eq_filter, ← find?_matching server.found_name]
    generalize (server.projects g.transfers.sent).filter _ = matching at hdescribes hfirst ⊢
    cases hdescribes with
    | nil => rfl
    | @cons p v ps vs hp hps =>
      cases hfind : (p :: ps).find? (·.name == name) with
      | none =>
        rw [hfind] at hfirst
        simp only [searched, List.isEmpty_cons, Bool.false_eq_true, if_false, Value.children,
          hfirst]
        rfl
      | some q =>
        rw [hfind] at hfirst
        obtain ⟨w, hw, hq⟩ := hfirst
        simp only [searched, List.isEmpty_cons, Bool.false_eq_true, if_false, Value.children, hw]
        exact ⟨rfl, hq.id⟩

/-- **`delete_project` on the server** removes the project with the name. -/
theorem deleteProject_server (server : ProjectServer net json realText serverUri apiToken)
    (hg : ClientOf serverUri apiToken g) (huri : 0 ∉ serverUri) (hname : name.isEmpty = false)
    (hplain : Plain name)
    (hpage : ((server.projects g.transfers.sent).filter (server.found name)).length ≤
      server.perPage) :
    let ps := server.projects g.transfers.sent
    let r := g.deleteProject net json realText name
    if ps.any (server.found name) then
      match ps.find? (·.name == name) with
      | none => r.2 = .ok .notFound ∧ server.projects r.1.transfers.sent = ps
      | some p =>
        r.2 = .ok .ok ∧ server.projects r.1.transfers.sent = ps.filter (·.id != p.id)
    else r.2 = .ok .invalidResponse ∧ server.projects r.1.transfers.sent = ps := by
  obtain ⟨hkept, hfinds⟩ := getProject_server server hg huri hname hplain hpage
  have hclient : ClientOf serverUri apiToken
      (g.getProject net json realText name .null .standard).client :=
    hg.of_keeps (keeps_search (keeps_getProjects name .null .standard))
  unfold deleteProject
  generalize g.getProject net json realText name .null .standard = l at hkept hfinds hclient
  unfold Finds at hfinds
  dsimp only
  split at hfinds
  · rename_i hany
    rw [if_pos hany]
    split at hfinds
    · rename_i hfind
      simp only [deleteFound, hfinds]
      exact ⟨rfl, hkept⟩
    · rename_i p hfind
      obtain ⟨hcode, hid⟩ := hfinds
      obtain ⟨huri', htoken', hstaged⟩ := hclient
      let query : Query :=
        { url := l.client.serverUri ++ apiV3Endpoint ++ ascii "/projects/" ++ ascii (toString p.id)
          method := .delete }
      let sent := l.client.addToken.transfers.next net query
      have htoken : tokenLine apiToken ∈ sent.headers := by
        have hprefix := prefix_endpoint l.client (ascii "/projects/") (ascii (toString p.id))
        refine htoken' ▸ (authenticated_next ?_
          (fun header value h => .inl (hstaged.addToken header value h)) hprefix rfl).token
        rw [lookup_headers_addToken, if_pos rfl]
        rfl
      have hurl : sent.url = serverProjectUrl serverUri p.id := by
        rw [url_next (t := l.client.addToken.transfers) l.client.uriParams_eq]
        rw [← huri'] at huri ⊢
        exact cStr_of_not_mem (nul_not_mem_serverProjectUrl huri p.id)
      have hmem : p.id ∈ (server.projects l.client.transfers.sent).map ServerProject.id := by
        rw [hkept]
        exact List.mem_map_of_mem (List.mem_of_find?_eq_some hfind)
      obtain ⟨hremoved, hanswer⟩ :=
        server.delete l.client.transfers.sent sent p.id htoken rfl hurl hmem
      have hdelete : deleteFound net realText (ascii "/projects/") l =
          change net l.client query 200 .invalidResponse := by
        simp only [deleteFound, hcode, hid]
        rfl
      have hsuccess : (l.client.addToken.request net query).httpCode = 200 := hanswer
      rw [hdelete, change]
      dsimp only
      rw [if_pos hsuccess]
      exact ⟨rfl, hkept ▸ hremoved⟩
  · rename_i hany
    rw [if_neg hany]
    simp only [deleteFound, hfinds]
    exact ⟨rfl, hkept⟩

/-- **The loop on the server** is the loop over its projects. -/
theorem deleteProjects_server (server : ProjectServer net json realText serverUri apiToken)
    (huri : 0 ∉ serverUri) : ∀ (names : List Bytes) (g : GitlabAPIClient),
      ClientOf serverUri apiToken g → (∀ name ∈ names, Plain name) →
      (∀ name ∈ names, ((server.projects g.transfers.sent).filter (server.found name)).length ≤
        server.perPage) →
      let r := g.deleteProjects net json realText names
      let listed := deleteAll server.found names (server.projects g.transfers.sent)
      r.2 = .ok listed.2 ∧ server.projects r.1.transfers.sent = listed.1
  | [], g, _, _, _ => ⟨rfl, rfl⟩
  | name :: names, g, hg, hplain, hpage => by
    obtain ⟨hplain, hplains⟩ := List.forall_mem_cons.mp hplain
    obtain ⟨hpage, hpages⟩ := List.forall_mem_cons.mp hpage
    have hkeeps : Keeps 1 g (g.deleteProject net json realText name).1 :=
      keeps_deleteFound (keeps_search (keeps_getProjects name .null .standard))
    have ih := deleteProjects_server server huri names _ (hg.of_keeps hkeeps) hplains
    dsimp only
    rw [deleteAll]
    split
    · rename_i hempty
      have hrefused : g.deleteProject net json realText name = (g, .ok .invalidParams) := by
        simp only [deleteProject, getProject, if_pos hempty]
        rfl
      simp only [deleteProjects, deleteEach, hrefused]
      exact ⟨rfl, rfl⟩
    · rename_i hname
      have hfirst :=
        deleteProject_server server hg huri (Bool.eq_false_iff.mpr hname) hplain hpage
      unfold deleteProjects at ih ⊢
      rw [deleteEach]
      generalize g.deleteProject net json realText name = r at hfirst ih
      obtain ⟨g', code⟩ := r
      dsimp only at hfirst ih
      split at hfirst
      · rename_i hany
        rw [if_pos hany]
        split at hfirst
        · obtain ⟨rfl, hsame⟩ := hfirst
          rw [hsame] at ih
          exact ih hpages
        · obtain ⟨rfl, hremoved⟩ := hfirst
          rw [hremoved] at ih
          -- the matches of the other names have not become more
          exact ih fun other hother => (((List.filter_sublist).filter _).length_le).trans
            (hpages other hother)
      · rename_i hany
        obtain ⟨rfl, hsame⟩ := hfirst
        rw [if_neg hany]
        exact ⟨rfl, hsame⟩

/-- **`delete_projects` on a server.** The client does to the projects of the server what the loop
does to the list of them, with the same code, and no project with another name is touched; for names
that escaping leaves alone and whose matches fit on a page. -/
theorem deleteProjects_refines (server : ProjectServer net json realText serverUri apiToken)
    (huri : 0 ∉ serverUri) (names : List Bytes) (g : GitlabAPIClient)
    (hg : ClientOf serverUri apiToken g) (hplain : ∀ name ∈ names, Plain name)
    (hpage : ∀ name ∈ names,
      ((server.projects g.transfers.sent).filter (server.found name)).length ≤ server.perPage) :
    let r := g.deleteProjects net json realText names
    let before := server.projects g.transfers.sent
    let after := server.projects r.1.transfers.sent
    r.2 = .ok (deleteAll server.found names before).2 ∧
      after = (deleteAll server.found names before).1 ∧
      ∀ p ∈ before, p.name ∉ names → p ∈ after := by
  obtain ⟨hcode, hafter⟩ := deleteProjects_server server huri names g hg hplain hpage
  refine ⟨hcode, hafter, fun p hp hname => ?_⟩
  rw [hafter]
  exact mem_deleteAll hp hname (server.nodup _)

end Server

/-! ## A server of one project -/

def soleProject : ServerProject := ⟨7, ascii "winterwind"⟩

/-- The value that describes it. -/
def soleValue : Value :=
  .object
    [(ascii "http_url_to_repo", .string (ascii "https://gitlab.com/w.git")), (ascii "id", .int 7),
      (ascii "name", .string (ascii "winterwind")),
      (ascii "namespace", .object [(ascii "id", .int 1), (ascii "name", .string (ascii "w"))])]

/-- A reader that takes `1` for the array with that value, and all else for an empty array. -/
def soleJson : JsonLib where
  write _ := []
  parse text _ := (true, .array (if text = ascii "1" then [soleValue] else []))

/-- The project is there until it is deleted. -/
def soleProjects (sents : List SentRequest) : List ServerProject :=
  if sents.any (fun sent => sent.customRequest == some (ascii "DELETE") &&
      sent.url == serverProjectUrl (ascii "https://gitlab.com") 7) then []
  else [soleProject]

def soleNet (orders : Nat → (cli : HTTPClient) → Orders cli) : Net where
  orders := orders
  answer sents := ⟨200, if (soleProjects sents).isEmpty then [] else ascii "1"⟩

theorem describes_sole : Describes (fun _ => []) soleProject soleValue where
  complete := by decide
  id := by decide
  name _ := rfl

theorem soleProjects_concat (sents : List SentRequest) (sent : SentRequest) :
    soleProjects (sents ++ [sent]) =
      if sent.customRequest == some (ascii "DELETE") &&
        sent.url == serverProjectUrl (ascii "https://gitlab.com") 7 then []
      else soleProjects sents := by
  unfold soleProjects
  simp only [List.any_append, List.any_cons, List.any_nil, Bool.or_false, Bool.or_eq_true]
  by_cases hnow : (sent.customRequest == some (ascii "DELETE") &&
    sent.url == serverProjectUrl (ascii "https://gitlab.com") 7) = true
  · rw [if_pos (Or.inr hnow), if_pos hnow]
  · rw [if_neg hnow]
    simp only [hnow, Bool.false_eq_true, or_false]

/-- The server, whose searches match every project. -/
def soleServer (orders : Nat → (cli : HTTPClient) → Orders cli) :
    ProjectServer (soleNet orders) soleJson (fun _ => []) (ascii "https://gitlab.com")
      (ascii "token") where
  projects := soleProjects
  found _ _ := true
  perPage := 20
  found_name _ := rfl
  nodup sents := by
    unfold soleProjects
    split <;> simp
  search sents sent text _ hcustom _ _ := by
    have hsame : soleProjects (sents ++ [sent]) = soleProjects sents := by
      rw [soleProjects_concat, hcustom]
      rfl
    refine ⟨hsame, _, _, rfl, rfl, ?_⟩
    rw [hsame, List.filter_true]
    unfold soleProjects
    split
    · exact .nil
    · exact .cons describes_sole .nil
  delete sents sent id _ hcustom hurl hid := by
    refine ⟨?_, rfl⟩
    have hsole : soleProjects sents = [soleProject] := by
      unfold soleProjects at hid ⊢
      split
      · rename_i hgone
        rw [if_pos hgone] at hid
        exact absurd hid List.not_mem_nil
      · rfl
    rw [hsole] at hid
    obtain rfl := List.mem_singleton.mp hid
    rw [soleProjects_concat, hcustom, hurl, hsole]
    rfl

/-- Its project is deleted. -/
theorem deleteProjects_refines_sole : ∃ orders : Nat → (cli : HTTPClient) → Orders cli,
    let r := (construct (ascii "https://gitlab.com") (ascii "token")).deleteProjects
      (soleNet orders) soleJson (fun _ => []) [ascii "winterwind"]
    r.2 = .ok .ok ∧ soleProjects r.1.transfers.sent = [] := by
  let orders : Nat → (cli : HTTPClient) → Orders cli := fun _ cli => (Orders.nonempty cli).some
  obtain ⟨hcode, hafter, -⟩ := deleteProjects_refines (soleServer orders) (by decide)
    [ascii "winterwind"] (construct (ascii "https://gitlab.com") (ascii "token"))
    ⟨rfl, rfl, onlyToken_of_empty rfl⟩
    (List.forall_mem_singleton.mpr ⟨List.all_eq_true.mp rfl, Or.inl (by decide)⟩)
    (List.forall_mem_singleton.mpr (by decide))
  exact ⟨orders, hcode, hafter⟩

end GitlabAPIClient

end WinterWind.Extras
