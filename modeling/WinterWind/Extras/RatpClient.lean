import WinterWind.Library.Runs
import WinterWind.Utils.StringUtils

/-!
# The RATP client (`src/extras/ratpclient.cpp`)

`RATPClient::get_next_trains` and its cache of schedules, one entry for a line and a stop.

* The page is what `HTTPClient::request` reads for the URL, an input of each call; what
  `XMLParser::parse` finds in a page under an XPath is the parameter `tags`.
* `time(NULL)` is read twice: on entry, for the age of a cached entry, and after the page was
  fetched and parsed, for the time of the new one. The second reading is the time of the fetch.
* The assertions on the line and the direction end the program, so such a call has no result. The
  result is a reference into the cache; it is read here when the call returns.

`step` is a client and the history of its calls: every page fetched and every answer given.

Results:
* `step_move`: a call is a hit, a fetch that finds nothing, or a fetch that fills the entry.
* **`transparent_of_sameDirection`**: as long as no call finds a fresh entry that was filled for
  the other direction, every answer comes from a page fetched for the same line, stop and
  direction within `RATP_CACHE_TIME` seconds.
-/

namespace WinterWind.Extras

open Library

/-- `RATPClient::Line`. -/
inductive Line where
  | lineRerA
  | lineRerB
  | ratpLineMax
  deriving Repr, DecidableEq

/-- `RATPSchedule`. -/
structure RATPSchedule where
  destination : Bytes := []
  hour : Bytes := []
  deriving Repr, DecidableEq

/-- `RATPStop`. -/
structure RATPStop where
  trainStop : Bytes := []
  entryTime : Int := 0
  schedules : List RATPSchedule := []
  deriving Repr, DecidableEq

/-- `RATPClient`. -/
structure RATPClient where
  stopCache : UnorderedMap Line (UnorderedMap Bytes RATPStop) := ∅

/-- A page that was read, and for whom. -/
structure Fetch where
  line : Line
  stop : Bytes
  direction : UInt8
  url : Bytes
  xpath : Bytes
  time : Int
  page : Bytes
  deriving Repr, DecidableEq

def urlRer : Bytes :=
  ascii ("https://www.ratp.fr/horaires?networks=rer&line_busratp=&name_line_busratp=" ++
    "&id_line_busratp=&line_noctilien=&name_line_noctilien=&id_line_noctilien=&type=now" ++
    "&op=Rechercher&stop_point_rer=")

def xpathRerDir1 : Bytes :=
  ascii ("/html/body/div[1]/main/div[1]/div/div[1]/div[1]/div/div/div/div[4]/div[2]/ul/li" ++
    "/span[position() = 2 or position() = 3]")

def xpathRerDir2 : Bytes :=
  ascii ("/html/body/div[1]/main/div[1]/div/div[1]/div[1]/div/div/div/div[4]/div[3]/ul/li" ++
    "/span[position() = 2 or position() = 3]")

/-- `RATP_CACHE_TIME`. -/
def ratpCacheTime : Nat := 60

/-- The URL of a stop: its blanks are written `+`. -/
def url (line : Line) (stop : Bytes) : Bytes :=
  urlRer ++ stop.map (fun c => if c = 32 then 43 else c) ++ ascii "&line_rer=" ++
    match line with
    | .lineRerA => ascii "A"
    | .lineRerB => ascii "B"
    | .ratpLineMax => []

def xpathRer (direction : UInt8) : Bytes := if direction = 1 then xpathRerDir1 else xpathRerDir2

/-- A value of the page without its white space around and its line breaks. -/
def cleaned (s : Bytes) : Bytes := (trim s).filter (· ≠ 10)

/-- The loop that reads the schedules: values at an even offset are destinations, the others
hours. -/
def readSchedules (offset : UInt16) (tmp : RATPSchedule) (schedules : List RATPSchedule) :
    List Bytes → List RATPSchedule
  | [] => schedules
  | s :: res =>
    if offset % 2 = 0 then
      readSchedules (offset + 1) { destination := cleaned s } schedules res
    else
      let tmp := { tmp with hour := cleaned s }
      readSchedules (offset + 1) tmp (schedules ++ [tmp]) res

variable (tags : Bytes → Bytes → List Bytes)

/-- The schedules parsed from a page. -/
def schedulesOf (page xpath : Bytes) : List RATPSchedule :=
  readSchedules 0 {} [] (tags page xpath)

/-- The arguments of a call, the two readings of the clock, and the page the site answers. -/
structure GetNextTrains where
  line : Line
  stop : Bytes
  direction : UInt8
  now : Int
  stored : Int
  page : Bytes
  deriving Repr, DecidableEq

/-- The page a call reads. -/
def GetNextTrains.fetch (call : GetNextTrains) : Fetch where
  line := call.line
  stop := call.stop
  direction := call.direction
  url := url call.line call.stop
  xpath := xpathRer call.direction
  time := call.stored
  page := call.page

/-- The entry is fresh at `now`. -/
def RATPStop.fresh (entry : RATPStop) (now : Int) : Bool :=
  decide (now - entry.entryTime < ratpCacheTime)

/-- `RATPClient::get_next_trains`, its assertions apart: the answer, the client, and the page that
was read, if any. -/
def RATPClient.getNextTrains (c : RATPClient) (call : GetNextTrains) :
    List RATPSchedule × RATPClient × Option Fetch :=
  let stops := (c.stopCache.lookup call.line).getD ∅
  let c := { c with stopCache := c.stopCache.insert call.line stops }
  match (stops.lookup call.stop).filter (·.fresh call.now) with
  | some entry => (entry.schedules, c, none)
  | none =>
    if (tags call.page call.fetch.xpath).isEmpty then ([], c, some call.fetch)
    else
      let entry := { (stops.lookup call.stop).getD { trainStop := call.stop } with
        entryTime := call.stored
        schedules := schedulesOf tags call.page call.fetch.xpath }
      (entry.schedules,
        { c with stopCache := c.stopCache.insert call.line (stops.insert call.stop entry) },
        some call.fetch)

/-- The cached entry of a line and a stop. -/
def RATPClient.entry (c : RATPClient) (line : Line) (stop : Bytes) : Option RATPStop :=
  (c.stopCache.lookup line).bind (·.lookup stop)

theorem lookup_stops (c : RATPClient) (line : Line) (stop : Bytes) :
    ((c.stopCache.lookup line).getD ∅).lookup stop = c.entry line stop := by
  unfold RATPClient.entry
  cases c.stopCache.lookup line <;> rfl

/-- Replacing the entries of one line. -/
theorem entry_insert (c : RATPClient) (line : Line) (stops : UnorderedMap Bytes RATPStop)
    (line' : Line) (stop : Bytes) :
    { c with stopCache := c.stopCache.insert line stops }.entry line' stop =
      if line' = line then stops.lookup stop else c.entry line' stop := by
  unfold RATPClient.entry
  by_cases hline : line' = line
  · subst hline
    rw [if_pos rfl, Finmap.lookup_insert, Option.bind_some]
  · rw [if_neg hline, Finmap.lookup_insert_of_ne _ hline]

/-- Making sure that a line has a map changes no entry. -/
theorem entry_insert_stops (c : RATPClient) (line : Line) :
    { c with stopCache :=
        c.stopCache.insert line ((c.stopCache.lookup line).getD ∅) }.entry = c.entry := by
  funext line' stop
  rw [entry_insert]
  split
  · rename_i hline
    rw [hline, lookup_stops]
  · rfl

/-- **What a call does.** It finds a fresh entry and answers it; or it reads a page in which
nothing is found, answers nothing and leaves the entries as they were; or it fills the entry of its
line and stop from the page and answers that. -/
theorem getNextTrains_cases (c : RATPClient) (call : GetNextTrains) :
    (∃ entry, c.entry call.line call.stop = some entry ∧ entry.fresh call.now = true ∧
        (c.getNextTrains tags call).2.1.entry = c.entry ∧
        (c.getNextTrains tags call).1 = entry.schedules ∧
        (c.getNextTrains tags call).2.2 = none) ∨
      (tags call.page call.fetch.xpath = [] ∧
        (c.getNextTrains tags call).2.1.entry = c.entry ∧
        (c.getNextTrains tags call).1 = [] ∧
        (c.getNextTrains tags call).2.2 = some call.fetch) ∨
      (tags call.page call.fetch.xpath ≠ [] ∧ ∃ entry, entry.entryTime = call.stored ∧
        entry.schedules = schedulesOf tags call.page call.fetch.xpath ∧
        (∀ line stop, (c.getNextTrains tags call).2.1.entry line stop =
          if line = call.line ∧ stop = call.stop then some entry else c.entry line stop) ∧
        (c.getNextTrains tags call).1 = entry.schedules ∧
        (c.getNextTrains tags call).2.2 = some call.fetch) := by
  unfold RATPClient.getNextTrains
  simp only [lookup_stops]
  split
  · rename_i entry hfilter
    obtain ⟨hentry, hfresh⟩ := Option.filter_eq_some_iff.mp hfilter
    exact Or.inl ⟨entry, hentry, hfresh, entry_insert_stops c call.line, rfl, rfl⟩
  · by_cases htags : tags call.page call.fetch.xpath = []
    · rw [if_pos (List.isEmpty_iff.mpr htags)]
      exact Or.inr (Or.inl ⟨htags, entry_insert_stops c call.line, rfl, rfl⟩)
    · rw [if_neg (fun hempty => htags (List.isEmpty_iff.mp hempty))]
      refine Or.inr (Or.inr ⟨htags, { (c.entry call.line call.stop).getD { trainStop := call.stop }
        with entryTime := call.stored, schedules := schedulesOf tags call.page call.fetch.xpath },
        rfl, rfl, fun line stop => ?_, rfl, rfl⟩)
      simp only
      rw [entry_insert, entry_insert_stops]
      by_cases hline : line = call.line
      · subst hline
        by_cases hstop : stop = call.stop
        · rw [hstop, if_pos rfl, if_pos ⟨rfl, rfl⟩, Finmap.lookup_insert]
        · rw [if_pos rfl, if_neg (fun h => hstop h.2), Finmap.lookup_insert_of_ne _ hstop,
            lookup_stops]
      · rw [if_neg hline, if_neg (fun h => hline h.1)]

/-! ## Histories -/

/-- An answer of `get_next_trains`. -/
structure Answer where
  line : Line
  stop : Bytes
  direction : UInt8
  time : Int
  schedules : List RATPSchedule
  deriving Repr, DecidableEq

/-- A client, the time of its last call, and its history, newest first. -/
structure History where
  client : RATPClient := {}
  clock : Int
  fetches : List Fetch := []
  answers : List Answer := []

namespace History

/-- A new client at some time. -/
def start (clock : Int) : History := { clock := clock }

/-- A call, when its assertions hold and the clock does not go back. -/
def step (s : History) (call : GetNextTrains) : Option History :=
  if call.line ≠ .ratpLineMax ∧ 0 < call.direction ∧ call.direction < 3 ∧
      s.clock ≤ call.now ∧ call.now ≤ call.stored then
    match s.client.getNextTrains tags call with
    | (schedules, client, fetch) =>
      let time := if fetch.isSome then call.stored else call.now
      some {
        client := client
        clock := time
        fetches := fetch.toList ++ s.fetches
        answers := ⟨call.line, call.stop, call.direction, time, schedules⟩ :: s.answers }
  else none

/-- The last page for a line and a stop in which something was found. -/
def filledBy (s : History) (line : Line) (stop : Bytes) : Option Fetch :=
  s.fetches.find? fun f => f.line = line ∧ f.stop = stop ∧ tags f.page f.xpath ≠ []

/-- Every answer that is not empty was parsed from a page fetched for the same line, stop and
direction no more than `RATP_CACHE_TIME` seconds earlier. -/
def Transparent (s : History) : Prop :=
  ∀ a ∈ s.answers, a.schedules ≠ [] → ∃ f ∈ s.fetches,
    f.line = a.line ∧ f.stop = a.stop ∧ f.direction = a.direction ∧ f.time ≤ a.time ∧
      a.time - f.time ≤ ratpCacheTime ∧ a.schedules = schedulesOf tags f.page f.xpath

/-- The condition on a call: if it finds a fresh entry with schedules, the entry was filled for
the direction it asks for. -/
def SameDirection (s : History) (call : GetNextTrains) : Prop :=
  ∀ entry ∈ s.client.entry call.line call.stop, entry.fresh call.now = true → entry.schedules ≠ [] →
    ∀ f ∈ s.filledBy tags call.line call.stop, f.direction = call.direction

/-! ## What a call does -/

variable {tags}

/-- What the history records of an answer. -/
def answerOf (call : GetNextTrains) (time : Int) (schedules : List RATPSchedule) : Answer :=
  ⟨call.line, call.stop, call.direction, time, schedules⟩

/-- What a step does to the clock and the history, from what the call does. -/
theorem step_cases {s s' : History} {call : GetNextTrains} (h : s.step tags call = some s') :
    s.clock ≤ call.now ∧ call.now ≤ call.stored ∧
      ((∃ entry, s.client.entry call.line call.stop = some entry ∧
          entry.fresh call.now = true ∧ s'.client.entry = s.client.entry ∧
          s'.clock = call.now ∧ s'.fetches = s.fetches ∧
          s'.answers = answerOf call call.now entry.schedules :: s.answers) ∨
        (tags call.page call.fetch.xpath = [] ∧ s'.client.entry = s.client.entry ∧
          s'.clock = call.stored ∧ s'.fetches = call.fetch :: s.fetches ∧
          s'.answers = answerOf call call.stored [] :: s.answers) ∨
        (tags call.page call.fetch.xpath ≠ [] ∧ ∃ entry, entry.entryTime = call.stored ∧
          entry.schedules = schedulesOf tags call.page call.fetch.xpath ∧
          (∀ line stop, s'.client.entry line stop =
            if line = call.line ∧ stop = call.stop then some entry
            else s.client.entry line stop) ∧
          s'.clock = call.stored ∧ s'.fetches = call.fetch :: s.fetches ∧
          s'.answers = answerOf call call.stored entry.schedules :: s.answers)) := by
  simp only [step] at h
  split at h
  · rename_i hassert
    obtain rfl := Option.some.inj h
    refine ⟨hassert.2.2.2.1, hassert.2.2.2.2, ?_⟩
    rcases getNextTrains_cases tags s.client call with
      ⟨entry, hentry, hfresh, hsame, hanswer, hfetch⟩ | ⟨htags, hsame, hanswer, hfetch⟩ |
        ⟨htags, entry, htime, hschedules, hentry, hanswer, hfetch⟩
    · exact Or.inl ⟨entry, hentry, hfresh, hsame, by simp [hfetch], by simp [hfetch],
        by simp [hfetch, hanswer, answerOf]⟩
    · exact Or.inr (Or.inl ⟨htags, hsame, by simp [hfetch], by simp [hfetch],
        by simp [hfetch, hanswer, answerOf]⟩)
    · exact Or.inr (Or.inr ⟨htags, entry, htime, hschedules, hentry, by simp [hfetch],
        by simp [hfetch], by simp [hfetch, hanswer, answerOf]⟩)
  · cases h

/-! ## Transparency -/

/-- The answers are transparent, and every entry holds the schedules of the last page that filled
it, with the time of that page. -/
structure Faithful (tags : Bytes → Bytes → List Bytes) (s : History) : Prop where
  transparent : s.Transparent tags
  filled : ∀ line stop entry, s.client.entry line stop = some entry →
    ∃ f, s.filledBy tags line stop = some f ∧ f.time = entry.entryTime ∧ f.time ≤ s.clock ∧
      entry.schedules = schedulesOf tags f.page f.xpath

theorem faithful_start (clock : Int) : (start clock).Faithful tags where
  transparent _ ha := absurd ha List.not_mem_nil
  filled line stop entry hentry := by
    simp [start, RATPClient.entry] at hentry

/-- The page that filled an entry is one of the line and the stop. -/
theorem filledBy_spec {s : History} {line : Line} {stop : Bytes} {f : Fetch}
    (h : s.filledBy tags line stop = some f) : f ∈ s.fetches ∧ f.line = line ∧ f.stop = stop := by
  have hspec := List.find?_some h
  simp only [decide_eq_true_eq] at hspec
  exact ⟨List.mem_of_find?_eq_some h, hspec.1, hspec.2.1⟩

/-- Another page fills its own line and stop, if something is found in it. -/
theorem filledBy_cons {s s' : History} {f : Fetch} (hfetches : s'.fetches = f :: s.fetches)
    (line : Line) (stop : Bytes) :
    s'.filledBy tags line stop =
      if f.line = line ∧ f.stop = stop ∧ tags f.page f.xpath ≠ [] then some f
      else s.filledBy tags line stop := by
  unfold filledBy
  rw [hfetches, List.find?_cons]
  split <;> simp_all

/-- More pages keep the answers transparent. -/
theorem transparent_cons {s s' : History} {a : Answer} (hs : s.Transparent tags)
    (hanswers : s'.answers = a :: s.answers) (hfetches : ∀ f ∈ s.fetches, f ∈ s'.fetches)
    (ha : a.schedules ≠ [] → ∃ f ∈ s'.fetches, f.line = a.line ∧ f.stop = a.stop ∧
      f.direction = a.direction ∧ f.time ≤ a.time ∧ a.time - f.time ≤ ratpCacheTime ∧
      a.schedules = schedulesOf tags f.page f.xpath) : s'.Transparent tags := by
  intro b hb hne
  rw [hanswers, List.mem_cons] at hb
  rcases hb with rfl | hb
  · exact ha hne
  · obtain ⟨f, hf, hspec⟩ := hs b hb hne
    exact ⟨f, hfetches f hf, hspec⟩

/-- An entry that no page filled again. -/
theorem filled_kept {s s' : History} (hs : s.Faithful tags) {line : Line} {stop : Bytes}
    {entry : RATPStop} (hentry : s.client.entry line stop = some entry)
    (hsame : s'.filledBy tags line stop = s.filledBy tags line stop) (hclock : s.clock ≤ s'.clock) :
    ∃ f, s'.filledBy tags line stop = some f ∧ f.time = entry.entryTime ∧ f.time ≤ s'.clock ∧
      entry.schedules = schedulesOf tags f.page f.xpath := by
  obtain ⟨f, hfilled, htime, hle, hschedules⟩ := hs.filled line stop entry hentry
  exact ⟨f, hsame.trans hfilled, htime, hle.trans hclock, hschedules⟩

/-- A call that meets the condition. -/
theorem faithful_step {s s' : History} {call : GetNextTrains} (hs : s.Faithful tags)
    (h : s.step tags call = some s') (hok : s.SameDirection tags call) : s'.Faithful tags := by
  obtain ⟨hclock, hstored, ⟨entry, hentry, hfresh, hsame, htime, hfetches, hanswers⟩ |
    ⟨htags, hsame, htime, hfetches, hanswers⟩ |
    ⟨htags, entry, hentryTime, hschedules, hentry, htime, hfetches, hanswers⟩⟩ := step_cases h
  · -- The entry found was filled for the direction asked for.
    have hsub : ∀ f ∈ s.fetches, f ∈ s'.fetches := fun f hf => hfetches.symm ▸ hf
    obtain ⟨f, hfilled, hftime, hfclock, hfschedules⟩ := hs.filled _ _ _ hentry
    obtain ⟨hf, hline, hstop⟩ := filledBy_spec hfilled
    refine ⟨transparent_cons hs.transparent hanswers hsub fun hne => ?_, ?_⟩
    · have hage : call.now - entry.entryTime < ratpCacheTime := of_decide_eq_true hfresh
      refine ⟨f, hsub f hf, hline, hstop, hok entry hentry hfresh hne f hfilled, ?_, ?_,
        hfschedules⟩
      · exact hfclock.trans hclock
      · rw [hftime]
        exact hage.le
    · intro line stop entry' hentry'
      rw [hsame] at hentry'
      refine filled_kept hs hentry' ?_ (htime ▸ hclock)
      unfold filledBy
      rw [hfetches]
  · -- Nothing is found, so the answer is empty and the page fills no entry.
    have hsub : ∀ f ∈ s.fetches, f ∈ s'.fetches := fun f hf =>
      hfetches.symm ▸ List.mem_cons_of_mem _ hf
    refine ⟨transparent_cons hs.transparent hanswers hsub fun hne => absurd rfl hne, ?_⟩
    intro line stop entry' hentry'
    rw [hsame] at hentry'
    refine filled_kept hs hentry' ?_ (htime ▸ hclock.trans hstored)
    rw [filledBy_cons hfetches, if_neg fun h => h.2.2 htags]
  · -- The page is the one of the answer and of the entry.
    have hsub : ∀ f ∈ s.fetches, f ∈ s'.fetches := fun f hf =>
      hfetches.symm ▸ List.mem_cons_of_mem _ hf
    refine ⟨transparent_cons hs.transparent hanswers hsub fun _ => ?_, ?_⟩
    · refine ⟨call.fetch, hfetches.symm ▸ List.mem_cons_self, rfl, rfl, rfl, le_refl _, ?_,
        hschedules⟩
      simp [answerOf, GetNextTrains.fetch, ratpCacheTime]
    · intro line stop entry' hentry'
      rw [hentry] at hentry'
      by_cases hsame : line = call.line ∧ stop = call.stop
      · rw [if_pos hsame] at hentry'
        obtain rfl := Option.some.inj hentry'
        rw [filledBy_cons hfetches, if_pos ⟨hsame.1.symm, hsame.2.symm, htags⟩]
        exact ⟨call.fetch, rfl, hentryTime.symm, htime.ge, hschedules⟩
      · rw [if_neg hsame] at hentry'
        refine filled_kept hs hentry' ?_ (htime ▸ hclock.trans hstored)
        rw [filledBy_cons hfetches, if_neg fun h => hsame ⟨h.1.symm, h.2.1.symm⟩]

/-- **The cache is transparent** in every state of a run in which no call finds a fresh entry that
was filled for the other direction. -/
theorem transparent_of_sameDirection (tags : Bytes → Bytes → List Bytes) (clock : Int)
    (calls : List GetNextTrains) (h : Always (step tags) (SameDirection tags) (start clock) calls) :
    Everywhere (step tags) (Transparent tags) (start clock) calls :=
  everywhere_of_always (fun _ hs => hs.transparent) (fun _ _ _ => faithful_step)
    (faithful_start clock) h

/-- Nanterre, with one train in each direction. -/
def nanterre (_ xpath : Bytes) : List Bytes :=
  if xpath = xpathRerDir1 then [ascii "Cergy", ascii "2 mn"] else [ascii "Boissy", ascii "7 mn"]

/-- A call for Nanterre. -/
def callNanterre (direction : UInt8) (now : Int) : GetNextTrains :=
  ⟨.lineRerA, ascii "Nanterre", direction, now, now, []⟩

set_option maxRecDepth 8000 in
/-- Two calls for the same direction within a minute. -/
theorem transparent_same :
    Everywhere (step nanterre) (Transparent nanterre) (start 0)
      [callNanterre 1 0, callNanterre 1 10] := by
  refine transparent_of_sameDirection _ 0 _ ?_
  refine always_cons rfl ?_ (always_cons rfl ?_ trivial)
  · intro entry hentry
    simp [start, RATPClient.entry] at hentry
  · intro entry _ _ _ f hf
    obtain rfl := Option.some.inj hf
    rfl

set_option maxRecDepth 8000 in
/-- The second call, for the other direction, gets the schedules of the first. -/
theorem not_transparent_direction :
    ¬ Everywhere (step nanterre) (Transparent nanterre) (start 0)
      [callNanterre 1 0, callNanterre 2 10] := by
  rw [everywhere_iff_reached]
  intro h
  have hs := h _ _ (List.prefix_refl _) rfl
  obtain ⟨f, hf, -, -, hdirection, -⟩ := hs _ List.mem_cons_self (by decide)
  obtain rfl := List.mem_singleton.mp hf
  exact absurd hdirection (by decide)

end History

end WinterWind.Extras
