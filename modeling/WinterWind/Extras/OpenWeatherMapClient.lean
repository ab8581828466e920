import WinterWind.Utils.Numerals
import WinterWind.Http.Transfers

/-!
# The OpenWeatherMap client (`src/extras/openweathermapclient.cpp`)

`OpenWeatherMapClient::get`: the query, the reading of the status, and the assignments to the fields
of `result`.

* The status is `readCode`: what `cod` says if it is text, and what the member `code` says, `null`
  if there is none, if `cod` is a number.
* `fill` makes the assignments in the order of the source, each after what it reads was converted,
  until a conversion throws. `Json::LogicError` is all that the body can throw, and it is caught.
* A temperature is of a type of its own, and `rounded` is `std::round(v.asFloat() * 100) / 100`.

Results:
* `fill_eq_self_iff`: when the assignments before one that throws leave `result` as it is.
* `readFields_iff`: when none of them throws.
* **`get_right_iff`**: when `get` reads the status right and fails without a change.
-/

namespace WinterWind.Extras

open Http Library

/-- `OpenWeatherMapReturnCode`. -/
inductive OpenWeatherMapReturnCode where
  | ok
  | forbidden
  | unknown
  | invalidRequest
  | invalidResponse
  deriving Repr, DecidableEq

/-- `Weather`, with temperatures in `F`. -/
@[ext]
structure Weather (F : Type) where
  city : Bytes := []
  weatherDesc : Bytes := []
  temperature : F
  humidity : UInt8 := 0
  sunrise : Int := 0
  sunset : Int := 0
  deriving Repr, DecidableEq

/-- The fields of a `Weather`. -/
inductive WeatherField where
  | temperature
  | weatherDesc
  | humidity
  | sunrise
  | sunset
  | city
  deriving Repr, DecidableEq

/-- A value for a field. -/
inductive Assignment (F : Type) where
  | temperature (v : F)
  | weatherDesc (v : Bytes)
  | humidity (v : UInt8)
  | sunrise (v : Int)
  | sunset (v : Int)
  | city (v : Bytes)

namespace Assignment

variable {F : Type}

def field : Assignment F → WeatherField
  | temperature _ => .temperature
  | weatherDesc _ => .weatherDesc
  | humidity _ => .humidity
  | sunrise _ => .sunrise
  | sunset _ => .sunset
  | city _ => .city

def apply (w : Weather F) : Assignment F → Weather F
  | temperature v => { w with temperature := v }
  | weatherDesc v => { w with weatherDesc := v }
  | humidity v => { w with humidity := v }
  | sunrise v => { w with sunrise := v }
  | sunset v => { w with sunset := v }
  | city v => { w with city := v }

theorem apply_self (a : Assignment F) (w : Weather F) : a.apply (a.apply w) = a.apply w := by
  cases a <;> rfl

/-- An assignment to another field does not decide whether `a` is made already. -/
theorem apply_apply_iff {a b : Assignment F} (h : b.field ≠ a.field) (w : Weather F) :
    a.apply (b.apply w) = b.apply w ↔ a.apply w = w := by
  cases a <;> cases b <;> simp_all [apply, field, Weather.ext_iff]

theorem apply_foldl_iff {a : Assignment F} {l : List (Assignment F)}
    (h : ∀ b ∈ l, b.field ≠ a.field) (w : Weather F) :
    a.apply (l.foldl apply w) = l.foldl apply w ↔ a.apply w = w := by
  induction l generalizing w with
  | nil => rfl
  | cons b l ih =>
    obtain ⟨hb, hl⟩ := List.forall_mem_cons.mp h
    rw [List.foldl_cons, ih hl, apply_apply_iff hb]

/-- **Assignments to distinct fields** change nothing iff none of them does. -/
theorem foldl_eq_self_iff {l : List (Assignment F)} (h : l.Pairwise fun a b => b.field ≠ a.field)
    (w : Weather F) : l.foldl apply w = w ↔ ∀ a ∈ l, a.apply w = w := by
  induction l generalizing w with
  | nil => exact iff_of_true rfl nofun
  | cons a l ih =>
    obtain ⟨ha, hl⟩ := List.pairwise_cons.mp h
    rw [List.foldl_cons, List.forall_mem_cons]
    constructor
    · intro hself
      -- `a` is made at the end, which is where it began
      have haw : a.apply w = w := by
        have hend := (apply_foldl_iff ha (a.apply w)).mpr (apply_self a w)
        rwa [hself] at hend
      rw [haw] at hself
      exact ⟨haw, (ih hl w).mp hself⟩
    · rintro ⟨haw, hrest⟩
      rw [haw]
      exact (ih hl w).mpr hrest

end Assignment

/-- `OpenWeatherMapClient`. -/
structure OpenWeatherMapClient where
  apiKey : Bytes
  transfers : Transfers

namespace OpenWeatherMapClient

/-! ## Reading the answer -/

/-- The number that the `switch` is about, or the code that is returned before it. -/
def readCode (res : Value) : Except Fault (Except OpenWeatherMapReturnCode UInt32) := do
  if ← res.isMember (ascii "cod") then
    let cod ← res.member (ascii "cod")
    if cod.uint?.isSome then
      -- the member is called `cod`, but it is `code` that is read
      return .ok (UInt32.ofNat (← (← res.member (ascii "code")).asUInt))
    match cod.string? with
    | some s => return .ok (atoi (cStr s)).toUInt32
    | none => return .error .invalidResponse
  else return .error .invalidRequest

/-- `res.isMember("main") && res["main"].isMember("temp")`. -/
def hasTemperature (res : Value) : Except Fault Bool := do
  if ← res.isMember (ascii "main") then
    (← res.member (ascii "main")).isMember (ascii "temp")
  else return false

/-- The description of the first element of `weather`, if it has one. -/
def description (res : Value) : Except Fault (Option Bytes) := do
  if ← res.isMember (ascii "weather") then
    match ← res.member (ascii "weather") with
    | .array (first :: _) => first.stringMember (ascii "main")
    | _ => return none
  else return none

/-- `res["main"]["humidity"]`, if it is there. -/
def humidity (res : Value) : Except Fault (Option UInt8) := do
  let main ← res.member (ascii "main")
  if ← main.isMember (ascii "humidity") then
    return some (UInt8.ofNat (← (← main.member (ascii "humidity")).asUInt))
  else return none

/-- `res["sys"][key]`, if the hours of the sun are there. -/
def sunAt (key : Bytes) (res : Value) : Except Fault (Option Int) := do
  if ← res.isMember (ascii "sys") then
    let sys ← res.member (ascii "sys")
    if ← sys.isMember (ascii "sunrise") then
      if ← sys.isMember (ascii "sunset") then
        return some (← (← sys.member key).asInt)
      else return none
    else return none
  else return none

section Get

variable {F : Type} (rounded : Option Rat → F)

/-- What `get` assigns to a field, if anything. -/
def reading (city : Bytes) (res : Value) : WeatherField → Except Fault (Option (Assignment F))
  | .temperature => do
    let temp ← (← res.member (ascii "main")).member (ascii "temp")
    return some (.temperature (rounded (← temp.asDouble)))
  | .weatherDesc => do return (← description res).map .weatherDesc
  | .humidity => do return (← humidity res).map .humidity
  | .sunrise => do return (← sunAt (ascii "sunrise") res).map .sunrise
  | .sunset => do return (← sunAt (ascii "sunset") res).map .sunset
  | .city => .ok (some (.city city))

/-- The order in which `get` assigns the fields. -/
def fieldOrder : List WeatherField :=
  [.temperature, .weatherDesc, .humidity, .sunrise, .sunset, .city]

/-- The assignments to some fields, up to the first one that throws. -/
def fill (city : Bytes) (res : Value) (w : Weather F) :
    List WeatherField → OpenWeatherMapReturnCode × Weather F
  | [] => (.ok, w)
  | f :: fields =>
    match reading rounded city res f with
    | .error _ => (.invalidResponse, w)
    | .ok none => fill city res w fields
    | .ok (some a) => fill city res (a.apply w) fields

/-- The `switch`, and what comes after it. -/
def conclude (city : Bytes) (res : Value) (result : Weather F) (rcode : UInt32) :
    OpenWeatherMapReturnCode × Weather F :=
  if rcode = 200 then
    match hasTemperature res with
    | .ok true => fill rounded city res result fieldOrder
    | _ => (.invalidResponse, result)
  else if rcode = 401 then (.forbidden, result)
  else (.unknown, result)

/-- What the body makes of the answer: the code, and `result` after it. -/
def readAnswer (city : Bytes) (res : Value) (result : Weather F) :
    OpenWeatherMapReturnCode × Weather F :=
  match readCode res with
  | .error _ => (.invalidResponse, result)
  | .ok (.error rc) => (rc, result)
  | .ok (.ok rcode) => conclude rounded city res result rcode

variable (net : Net) (json : JsonLib)

/-- The query for a city. -/
def cityQuery (c : OpenWeatherMapClient) (city : Bytes) : Query where
  url := ascii "http://api.openweathermap.org/data/2.5/weather?mode=json&APPID=" ++ c.apiKey ++
    ascii "&units=metric&q=" ++ httpStringEscape city

/-- What `_get_json` returns, and its `res`. -/
def answer (c : OpenWeatherMapClient) (city : Bytes) : Bool × Value :=
  (c.transfers.getJson net json (c.cityQuery city) .null).2

/-- `OpenWeatherMapClient::get`: the client, the code, and `result` after it. -/
def get (c : OpenWeatherMapClient) (city : Bytes) (result : Weather F) :
    OpenWeatherMapClient × OpenWeatherMapReturnCode × Weather F :=
  let r := c.transfers.getJson net json (c.cityQuery city) .null
  ({ c with transfers := r.1 },
    if r.2.1 then readAnswer rounded city r.2.2 result else (.invalidResponse, result))

end Get

/-! ## What is asked of `get` -/

/-- `cod` is the number `n`, or its decimal text. -/
def Denotes (cod : Value) (n : UInt64) : Prop :=
  cod.uint64? = some n ∨ cod = .string (decimal n.toNat)

/-- The fields that `get` reads can be converted, and the temperature is there. -/
structure Usable (ms : List (Bytes × Value)) : Prop where
  main : ∃ main, findMember (ascii "main") ms = some (.object main) ∧
    (∃ t, findMember (ascii "temp") main = some t ∧ ∃ r, t.asDouble = .ok r) ∧
    ∀ h, findMember (ascii "humidity") main = some h → ∃ n, h.asUInt = .ok n
  weather : ∀ w ws, findMember (ascii "weather") ms = some (.array (w :: ws)) →
    ∃ o, w.members = .ok o
  sys : ∀ s, findMember (ascii "sys") ms = some s → ∃ o, s.members = .ok o ∧
    ∀ rise set, findMember (ascii "sunrise") o = some rise →
      findMember (ascii "sunset") o = some set →
        (∃ t, rise.asInt = .ok t) ∧ ∃ t, set.asInt = .ok t

section Claims

variable {F : Type} (rounded : Option Rat → F) (net : Net) (json : JsonLib)
  (c : OpenWeatherMapClient) (city : Bytes) (result : Weather F) (ms : List (Bytes × Value))

/-- What a call with the answer `ms` must do. The answer to another call may differ from it in how
`cod` denotes its number. -/
structure Right : Prop where
  sameCode : ∀ cod n, findMember (ascii "cod") ms = some cod → Denotes cod n →
    ∀ cod', Denotes cod' n → ∀ net' json',
      answer net' json' c city = (true, .object (insertMember (ascii "cod") cod' ms)) →
        (get rounded net' json' c city result).2.1 = (get rounded net json c city result).2.1
  ok : ∀ cod, findMember (ascii "cod") ms = some cod → Denotes cod 200 → Usable ms →
    (get rounded net json c city result).2.1 = .ok
  unchanged : (get rounded net json c city result).2.1 ≠ .ok →
    (get rounded net json c city result).2.2 = result

/-- What `get` goes on with if `cod` is the number `n`, if anything. -/
def numberStatus (n : UInt64) : Option UInt32 :=
  if n.toNat < 2 ^ 32 then
    (((findMember (ascii "code") ms).getD .null).asUInt.map UInt32.ofNat).toOption
  else none

/-- What it goes on with if `cod` is the text of `n`. -/
def textStatus (n : UInt64) : UInt32 := (atoi (decimal n.toNat)).toUInt32

/-- The two lead to the same code. -/
def Agree (n : UInt64) : Prop :=
  match numberStatus ms n with
  | some k => (k = 200 ↔ textStatus n = 200) ∧ (k = 401 ↔ textStatus n = 401)
  | none => textStatus n = 200 ∧ ¬Usable ms

/-- If the assignment to a field is the first that throws, those before it assign what `result` has
already. -/
def KeepsOnThrow (res : Value) : Prop :=
  ∀ before f after, fieldOrder = before ++ f :: after →
    (∀ g ∈ before, ∃ o, reading rounded city res g = .ok o) →
      (∃ fault, reading rounded city res f = .error fault) →
        ∀ g ∈ before, ∀ a, reading rounded city res g = .ok (some a) → a.apply result = result

/-- When it does that. -/
structure HoldsWhen : Prop where
  agree : ∀ cod n, findMember (ascii "cod") ms = some cod → Denotes cod n → Agree ms n
  keeps : readCode (.object ms) = .ok (.ok 200) → hasTemperature (.object ms) = .ok true →
    KeepsOnThrow rounded city result (.object ms)

end Claims

/-! ## The assignments -/

section Fill

variable {F : Type} {rounded : Option Rat → F} {city : Bytes} {res : Value}

theorem field_of_reading {f : WeatherField} {a : Assignment F}
    (h : reading rounded city res f = .ok (some a)) : a.field = f := by
  have hmap : ∀ {α : Type} {x : Except Fault (Option α)} {make : α → Assignment F},
      (do return (← x).map make) = (.ok (some a) : Except Fault (Option (Assignment F))) →
        ∃ v, a = make v := by
    intro α x make h
    obtain ⟨o, -, h⟩ := bind_eq_ok.mp h
    obtain ⟨v, -, rfl⟩ := Option.map_eq_some_iff.mp (Except.ok.inj h)
    exact ⟨v, rfl⟩
  cases f with
  | temperature =>
    obtain ⟨main, -, h⟩ := bind_eq_ok.mp h
    obtain ⟨temp, -, h⟩ := bind_eq_ok.mp h
    obtain ⟨r, -, h⟩ := bind_eq_ok.mp h
    obtain rfl := Option.some.inj (Except.ok.inj h)
    rfl
  | city =>
    obtain rfl := Option.some.inj (Except.ok.inj h)
    rfl
  | weatherDesc | humidity | sunrise | sunset =>
    obtain ⟨v, rfl⟩ := hmap h
    rfl

/-- The assignment to a field, if it is made. -/
def made (rounded : Option Rat → F) (city : Bytes) (res : Value) (f : WeatherField) :
    Option (Assignment F) :=
  match reading rounded city res f with
  | .ok o => o
  | .error _ => none

theorem made_eq_some {f : WeatherField} {a : Assignment F} :
    made rounded city res f = some a ↔ reading rounded city res f = .ok (some a) := by
  unfold made
  cases reading rounded city res f <;> simp

/-- The assignments before the first one that throws are made. -/
theorem fill_append {before : List WeatherField}
    (h : ∀ g ∈ before, ∃ o, reading rounded city res g = .ok o) (after : List WeatherField)
    (w : Weather F) :
    fill rounded city res w (before ++ after) =
      fill rounded city res ((before.filterMap (made rounded city res)).foldl Assignment.apply w)
        after := by
  induction before generalizing w with
  | nil => rfl
  | cons g before ih =>
    obtain ⟨⟨o, ho⟩, hrest⟩ := List.forall_mem_cons.mp h
    have hmade : made rounded city res g = o := by rw [made, ho]
    rw [List.cons_append, fill, ho, List.filterMap_cons, hmade]
    cases o with
    | none => exact ih hrest w
    | some a => exact ih hrest (a.apply w)

theorem fill_of_returns {fields : List WeatherField}
    (h : ∀ g ∈ fields, ∃ o, reading rounded city res g = .ok o) (w : Weather F) :
    (fill rounded city res w fields).1 = .ok := by
  rw [← List.append_nil fields, fill_append h]
  rfl

theorem fill_of_throws {before after : List WeatherField} {f : WeatherField} {fault : Fault}
    (h : ∀ g ∈ before, ∃ o, reading rounded city res g = .ok o)
    (hf : reading rounded city res f = .error fault) (w : Weather F) :
    fill rounded city res w (before ++ f :: after) = (.invalidResponse,
      (before.filterMap (made rounded city res)).foldl Assignment.apply w) := by
  rw [fill_append h, fill, hf]

variable (rounded city res) in
/-- All the assignments can be made, or there is a first one that throws. -/
theorem returns_or_throws (fields : List WeatherField) :
    (∀ g ∈ fields, ∃ o, reading rounded city res g = .ok o) ∨
      ∃ before f after, fields = before ++ f :: after ∧
        (∀ g ∈ before, ∃ o, reading rounded city res g = .ok o) ∧
          ∃ fault, reading rounded city res f = .error fault := by
  induction fields with
  | nil => exact .inl nofun
  | cons g fields ih =>
    cases hg : reading rounded city res g with
    | error fault => exact .inr ⟨[], g, fields, rfl, nofun, fault, hg⟩
    | ok o =>
      rcases ih with hall | ⟨before, f, after, rfl, hbefore, hf⟩
      · exact .inl (List.forall_mem_cons.mpr ⟨⟨o, hg⟩, hall⟩)
      · exact .inr ⟨g :: before, f, after, rfl, List.forall_mem_cons.mpr ⟨⟨o, hg⟩, hbefore⟩, hf⟩

theorem pairwise_made {fields : List WeatherField} (h : fields.Nodup) :
    (fields.filterMap (made rounded city res)).Pairwise fun a b => b.field ≠ a.field := by
  refine List.Pairwise.filterMap _ (fun f f' hne a ha b hb => ?_) h
  rw [field_of_reading (made_eq_some.mp ha), field_of_reading (made_eq_some.mp hb)]
  exact hne.symm

/-- **A failure leaves `result` as it is** iff what is assigned before it is there already. -/
theorem fill_eq_self_iff (result : Weather F) :
    ((fill rounded city res result fieldOrder).1 ≠ .ok →
        (fill rounded city res result fieldOrder).2 = result) ↔
      KeepsOnThrow rounded city result res := by
  have hself : ∀ before f after, fieldOrder = before ++ f :: after →
      ((before.filterMap (made rounded city res)).foldl Assignment.apply result = result ↔
        ∀ g ∈ before, ∀ a, reading rounded city res g = .ok (some a) →
          a.apply result = result) := by
    intro before f after horder
    have hnodup : before.Nodup := by
      have hall : fieldOrder.Nodup := by decide
      rw [horder] at hall
      exact hall.of_append_left
    rw [Assignment.foldl_eq_self_iff (pairwise_made hnodup)]
    constructor
    · intro h g hg a ha
      exact h a (List.mem_filterMap.mpr ⟨g, hg, made_eq_some.mpr ha⟩)
    · intro h a ha
      obtain ⟨g, hg, hmade⟩ := List.mem_filterMap.mp ha
      exact h g hg a (made_eq_some.mp hmade)
  constructor
  · rintro h before f after horder hbefore ⟨fault, hf⟩
    have hfill : fill rounded city res result (before ++ f :: after) = _ :=
      fill_of_throws hbefore hf result
    rw [← horder] at hfill
    rw [hfill] at h
    exact (hself before f after horder).mp (h nofun)
  · intro h hne
    rcases returns_or_throws rounded city res fieldOrder with
      hall | ⟨before, f, after, horder, hbefore, hf⟩
    · exact absurd (fill_of_returns hall result) hne
    · obtain ⟨fault, hfault⟩ := hf
      rw [horder, fill_of_throws hbefore hfault]
      exact (hself before f after horder).mpr (h before f after horder hbefore ⟨fault, hfault⟩)

end Fill

/-! ## When they can be made -/

section Readings

variable {F : Type} {rounded : Option Rat → F} {city : Bytes} {ms : List (Bytes × Value)}

theorem hasTemperature_iff : hasTemperature (.object ms) = .ok true ↔
    ∃ main t, findMember (ascii "main") ms = some (.object main) ∧
      findMember (ascii "temp") main = some t := by
  unfold hasTemperature
  rw [Value.isMember_object, Value.member_object]
  cases hmain : findMember (ascii "main") ms with
  | none => exact iff_of_false nofun nofun
  | some v =>
    cases v with
    | object main =>
      simp only [bind, Except.bind, Option.isSome_some, if_true, Option.getD_some,
        Value.isMember_object, Except.ok.injEq, Option.isSome_iff_exists, Option.some.injEq,
        Value.object.injEq]
      exact ⟨fun ⟨t, ht⟩ => ⟨main, t, rfl, ht⟩, fun ⟨_, t, rfl, ht⟩ => ⟨t, ht⟩⟩
    | _ => exact iff_of_false nofun nofun

theorem description_returns : (∃ o, description (.object ms) = .ok o) ↔
    ∀ w ws, findMember (ascii "weather") ms = some (.array (w :: ws)) → ∃ o, w.members = .ok o := by
  unfold description
  rw [Value.isMember_object, Value.member_object]
  cases hweather : findMember (ascii "weather") ms with
  | none => exact iff_of_true ⟨none, rfl⟩ fun w ws h => by cases h
  | some v =>
    cases v with
    | array vs =>
      cases vs with
      | nil => exact iff_of_true ⟨none, rfl⟩ fun w ws h => by cases h
      | cons w ws =>
        change (∃ d, w.stringMember (ascii "main") = .ok d) ↔ _
        constructor
        · rintro ⟨o, ho⟩ w' ws' heq
          obtain ⟨rfl, rfl⟩ := List.cons.inj (Value.array.inj (Option.some.inj heq))
          obtain ⟨b, hb, -⟩ := bind_eq_ok.mp ho
          exact Value.members_of_isMember hb
        · intro h
          obtain ⟨o, ho⟩ := h w ws rfl
          rw [Value.stringMember, Value.isMember_of_members ho, Value.member_of_members ho]
          cases findMember (ascii "main") o with
          | none => exact ⟨none, rfl⟩
          | some v => exact ⟨v.string?, rfl⟩
    | _ => exact iff_of_true ⟨none, rfl⟩ fun w ws h => by cases h

theorem humidity_returns {main : List (Bytes × Value)}
    (hmain : findMember (ascii "main") ms = some (.object main)) :
    (∃ o, humidity (.object ms) = .ok o) ↔
      ∀ h, findMember (ascii "humidity") main = some h → ∃ n, h.asUInt = .ok n := by
  unfold humidity
  rw [Value.member_object, hmain]
  change (∃ o, (do
    if ← (Value.object main).isMember (ascii "humidity") then
      return some (UInt8.ofNat
        (← (← (Value.object main).member (ascii "humidity")).asUInt))
    else return none) = .ok o) ↔ _
  rw [Value.isMember_object, Value.member_object]
  cases findMember (ascii "humidity") main with
  | none => exact iff_of_true ⟨none, rfl⟩ nofun
  | some h =>
    change (∃ o, (do return some (UInt8.ofNat (← h.asUInt))) = .ok o) ↔ _
    rw [map_returns (f := fun n => some (UInt8.ofNat n))]
    exact ⟨fun hn _ heq => Option.some.inj heq ▸ hn, fun hn => hn h rfl⟩

theorem sunAt_of_sys {sys : Value} (key : Bytes)
    (hfind : findMember (ascii "sys") ms = some sys) : sunAt key (.object ms) = (do
      if ← sys.isMember (ascii "sunrise") then
        if ← sys.isMember (ascii "sunset") then
          return some (← (← sys.member key).asInt)
        else return none
      else return none) := by
  unfold sunAt
  rw [Value.isMember_object, Value.member_object, hfind]
  rfl

/-- The hours of the sun are read if both of them are there. -/
theorem sunAt_of_members {sys : Value} {o : List (Bytes × Value)} (key : Bytes)
    (hfind : findMember (ascii "sys") ms = some sys) (ho : sys.members = .ok o) :
    sunAt key (.object ms) =
      if (findMember (ascii "sunrise") o).isSome && (findMember (ascii "sunset") o).isSome then do
        return some (← ((findMember key o).getD .null).asInt)
      else .ok none := by
  rw [sunAt_of_sys key hfind]
  simp only [Value.isMember_of_members ho, Value.member_of_members ho]
  cases findMember (ascii "sunrise") o <;> cases findMember (ascii "sunset") o <;> rfl

theorem members_of_sunAt {sys : Value} {key : Bytes} {t : Option Int}
    (hfind : findMember (ascii "sys") ms = some sys) (h : sunAt key (.object ms) = .ok t) :
    ∃ o, sys.members = .ok o := by
  rw [sunAt_of_sys key hfind] at h
  obtain ⟨b, hb, -⟩ := bind_eq_ok.mp h
  exact Value.members_of_isMember hb

theorem sunAt_returns (key : Bytes) : (∃ o, sunAt key (.object ms) = .ok o) ↔
    ∀ s, findMember (ascii "sys") ms = some s → ∃ o, s.members = .ok o ∧
      ∀ rise set, findMember (ascii "sunrise") o = some rise →
        findMember (ascii "sunset") o = some set →
          ∃ t, ((findMember key o).getD .null).asInt = .ok t := by
  constructor
  · rintro ⟨hour, hhour⟩ sys hfind
    obtain ⟨o, ho⟩ := members_of_sunAt hfind hhour
    refine ⟨o, ho, fun rise set hrise hset => ?_⟩
    rw [sunAt_of_members key hfind ho, hrise, hset] at hhour
    obtain ⟨t, ht, -⟩ := bind_eq_ok.mp hhour
    exact ⟨t, ht⟩
  · intro h
    cases hfind : findMember (ascii "sys") ms with
    | none =>
      refine ⟨none, ?_⟩
      rw [sunAt, Value.isMember_object, hfind]
      rfl
    | some sys =>
      obtain ⟨o, ho, htimes⟩ := h sys hfind
      rw [sunAt_of_members key hfind ho]
      split
      · rename_i hboth
        obtain ⟨hrise, hset⟩ := Bool.and_eq_true_iff.mp hboth
        obtain ⟨rise, hrise⟩ := Option.isSome_iff_exists.mp hrise
        obtain ⟨set, hset⟩ := Option.isSome_iff_exists.mp hset
        exact map_returns.mpr (htimes rise set hrise hset)
      · exact ⟨none, rfl⟩

/-- Both hours of the sun. -/
theorem sun_returns : ((∃ o, sunAt (ascii "sunrise") (.object ms) = .ok o) ∧
      ∃ o, sunAt (ascii "sunset") (.object ms) = .ok o) ↔
    ∀ s, findMember (ascii "sys") ms = some s → ∃ o, s.members = .ok o ∧
      ∀ rise set, findMember (ascii "sunrise") o = some rise →
        findMember (ascii "sunset") o = some set →
          (∃ t, rise.asInt = .ok t) ∧ ∃ t, set.asInt = .ok t := by
  rw [sunAt_returns, sunAt_returns, ← forall₂_and]
  refine forall₂_congr fun sys _ => ?_
  constructor
  · rintro ⟨⟨o, ho, hrise⟩, o', ho', hset⟩
    obtain rfl := Except.ok.inj (ho.symm.trans ho')
    refine ⟨o, ho, fun rise set hfindRise hfindSet => ?_⟩
    have hr := hrise rise set hfindRise hfindSet
    have hs := hset rise set hfindRise hfindSet
    rw [hfindRise] at hr
    rw [hfindSet] at hs
    exact ⟨hr, hs⟩
  · rintro ⟨o, ho, hboth⟩
    refine ⟨⟨o, ho, fun rise set hfindRise hfindSet => ?_⟩,
      o, ho, fun rise set hfindRise hfindSet => ?_⟩
    · rw [hfindRise]
      exact (hboth rise set hfindRise hfindSet).1
    · rw [hfindSet]
      exact (hboth rise set hfindRise hfindSet).2

theorem temperature_returns {main : List (Bytes × Value)} {temp : Value}
    (hmain : findMember (ascii "main") ms = some (.object main))
    (htemp : findMember (ascii "temp") main = some temp) :
    (∃ o, reading rounded city (.object ms) .temperature = .ok o) ↔
      ∃ r, temp.asDouble = .ok r := by
  rw [reading, Value.member_object, hmain]
  change (∃ o, (do
    let temp ← (Value.object main).member (ascii "temp")
    return some (Assignment.temperature (rounded (← temp.asDouble)))) = .ok o) ↔ _
  rw [Value.member_object, htemp]
  exact map_returns (f := fun r => some (Assignment.temperature (rounded r)))

/-- **Usable answers** are those with a temperature for which no assignment throws. -/
theorem readFields_iff : hasTemperature (.object ms) = .ok true ∧
    (∀ f ∈ fieldOrder, ∃ o, reading rounded city (.object ms) f = .ok o) ↔ Usable ms := by
  constructor
  · rintro ⟨hhas, hall⟩
    obtain ⟨main, temp, hmain, htemp⟩ := hasTemperature_iff.mp hhas
    have hread : ∀ f, ∃ o, reading rounded city (.object ms) f = .ok o := fun f =>
      hall f (by cases f <;> decide)
    exact {
      main := ⟨main, hmain,
        ⟨temp, htemp, (temperature_returns hmain htemp).mp (hread .temperature)⟩,
        (humidity_returns hmain).mp (map_returns.mp (hread .humidity))⟩
      weather := description_returns.mp (map_returns.mp (hread .weatherDesc))
      sys := sun_returns.mp
        ⟨map_returns.mp (hread .sunrise), map_returns.mp (hread .sunset)⟩ }
  · intro husable
    obtain ⟨main, hmain, ⟨temp, htemp, hconverts⟩, hhumidity⟩ := husable.main
    obtain ⟨hrise, hset⟩ := sun_returns.mpr husable.sys
    refine ⟨hasTemperature_iff.mpr ⟨main, temp, hmain, htemp⟩, fun f _ => ?_⟩
    cases f with
    | temperature => exact (temperature_returns hmain htemp).mpr hconverts
    | weatherDesc => exact map_returns.mpr (description_returns.mpr husable.weather)
    | humidity => exact map_returns.mpr ((humidity_returns hmain).mpr hhumidity)
    | sunrise => exact map_returns.mpr hrise
    | sunset => exact map_returns.mpr hset
    | city => exact ⟨_, rfl⟩

end Readings

/-! ## The codes -/

open Classical in
/-- The code that a status leads to. -/
noncomputable def verdict (ms : List (Bytes × Value)) (k : UInt32) : OpenWeatherMapReturnCode :=
  if k = 200 then if Usable ms then .ok else .invalidResponse
  else if k = 401 then .forbidden
  else .unknown

section Codes

variable {F : Type} {rounded : Option Rat → F} {city : Bytes} {ms : List (Bytes × Value)}
  {result : Weather F} {cod : Value} {n : UInt64}

theorem conclude_fst (k : UInt32) :
    (conclude rounded city (.object ms) result k).1 = verdict ms k := by
  unfold conclude verdict
  split
  · split
    · rename_i htemp
      by_cases husable : Usable ms
      · rw [if_pos husable]
        exact fill_of_returns (readFields_iff.mpr husable).2 result
      · rw [if_neg husable]
        rcases returns_or_throws rounded city (.object ms) fieldOrder with
          hall | ⟨before, f, after, horder, hbefore, _, hf⟩
        · exact absurd (readFields_iff.mp ⟨htemp, hall⟩) husable
        · rw [horder, fill_of_throws hbefore hf]
    · rename_i htemp
      have hnot : ¬Usable ms := fun husable => by
        have hread : _ ∧ (∀ f ∈ fieldOrder, ∃ o, reading rounded city (.object ms) f = .ok o) :=
          readFields_iff.mpr husable
        exact htemp hread.1
      rw [if_neg hnot]
  · split <;> rfl

/-- Two statuses that lead to one code. -/
theorem agree_iff : Agree ms n ↔
    (numberStatus ms n).elim .invalidResponse (verdict ms) = verdict ms (textStatus n) := by
  unfold Agree verdict
  cases numberStatus ms n with
  | none =>
    simp only [Option.elim_none]
    by_cases h200 : textStatus n = 200
    · rw [if_pos h200]
      by_cases husable : Usable ms <;> simp [h200, husable]
    · rw [if_neg h200]
      by_cases h401 : textStatus n = 401 <;> simp [h200, h401]
  | some k =>
    simp only [Option.elim_some]
    split_ifs <;> simp_all

theorem readAnswer_of_number (hcod : findMember (ascii "cod") ms = some cod)
    (h : cod.uint64? = some n) :
    (readAnswer rounded city (.object ms) result).1 =
      (numberStatus ms n).elim .invalidResponse (verdict ms) := by
  have hstring : cod.string? = none := by
    cases cod with
    | string s => cases h
    | _ => rfl
  unfold readAnswer readCode numberStatus
  simp only [Value.isMember_object, Value.member_object, hcod, Value.uint?_of_uint64? h, hstring,
    bind, Except.bind, pure, Except.pure, Option.isSome_some, if_true, Option.getD_some]
  by_cases hlt : n.toNat < 2 ^ 32
  · simp only [hlt, if_true, Option.isSome_some]
    cases ((findMember (ascii "code") ms).getD .null).asUInt with
    | error fault => rfl
    | ok k => exact conclude_fst (UInt32.ofNat k)
  · simp only [hlt, if_false]
    rfl

theorem cStr_decimal (n : Nat) : cStr (decimal n) = decimal n := by
  refine cStr_of_not_mem fun h => ?_
  cases isDigit_of_mem_decimal h

theorem readAnswer_of_text (hcod : findMember (ascii "cod") ms = some (.string (decimal n.toNat))) :
    (readAnswer rounded city (.object ms) result).1 = verdict ms (textStatus n) := by
  unfold readAnswer readCode textStatus
  simp only [Value.isMember_object, Value.member_object, hcod, bind, Except.bind, pure, Except.pure,
    Option.isSome_some, if_true, Option.getD_some, Value.uint?, Option.isSome_none, Value.string?,
    cStr_decimal]
  exact conclude_fst _

end Codes

/-! ## When `get` is right -/

section Claims

variable {F : Type} {rounded : Option Rat → F} {net : Net} {json : JsonLib}
  {c : OpenWeatherMapClient} {city : Bytes} {result : Weather F} {ms : List (Bytes × Value)}
  {cod : Value} {n : UInt64}

theorem get_of_answer {v : Value} (h : answer net json c city = (true, v)) :
    (get rounded net json c city result).2 = readAnswer rounded city v result := by
  have hpair : (c.transfers.getJson net json (c.cityQuery city) .null).2 = (true, v) := h
  simp only [get, hpair, if_true]

/-- A member of another name than `cod`. -/
theorem find_insert_cod {key : Bytes} (h : key ≠ ascii "cod") (cod : Value) :
    findMember key (insertMember (ascii "cod") cod ms) = findMember key ms := by
  rw [find_insertMember, if_neg h]

theorem usable_insert_cod (cod : Value) :
    Usable (insertMember (ascii "cod") cod ms) ↔ Usable ms := by
  have hmain : ascii "main" ≠ ascii "cod" := by decide
  have hweather : ascii "weather" ≠ ascii "cod" := by decide
  have hsys : ascii "sys" ≠ ascii "cod" := by decide
  constructor
  · rintro ⟨main, weather, sys⟩
    rw [find_insert_cod hmain] at main
    rw [find_insert_cod hweather] at weather
    rw [find_insert_cod hsys] at sys
    exact ⟨main, weather, sys⟩
  · rintro ⟨main, weather, sys⟩
    rw [← find_insert_cod hmain cod] at main
    rw [← find_insert_cod hweather cod] at weather
    rw [← find_insert_cod hsys cod] at sys
    exact ⟨main, weather, sys⟩

open Classical in
theorem verdict_insert_cod (cod : Value) :
    verdict (insertMember (ascii "cod") cod ms) = verdict ms := by
  funext k
  exact if_congr Iff.rfl (if_congr (usable_insert_cod cod) rfl rfl) rfl

theorem numberStatus_insert_cod (cod : Value) (n : UInt64) :
    numberStatus (insertMember (ascii "cod") cod ms) n = numberStatus ms n := by
  rw [numberStatus, find_insert_cod (by decide), numberStatus]

/-- The code of a call whose answer is `ms` but for `cod`, which is a number. -/
theorem code_of_number (hn : cod.uint64? = some n)
    (h : answer net json c city = (true, .object (insertMember (ascii "cod") cod ms))) :
    (get rounded net json c city result).2.1 =
      (numberStatus ms n).elim .invalidResponse (verdict ms) := by
  have hcod : findMember (ascii "cod") (insertMember (ascii "cod") cod ms) = some cod := by
    rw [find_insertMember, if_pos rfl]
  rw [get_of_answer h, readAnswer_of_number hcod hn, numberStatus_insert_cod, verdict_insert_cod]

/-- The same, if it is text. -/
theorem code_of_text (h : answer net json c city =
      (true, .object (insertMember (ascii "cod") (.string (decimal n.toNat)) ms))) :
    (get rounded net json c city result).2.1 = verdict ms (textStatus n) := by
  have hcod : findMember (ascii "cod")
      (insertMember (ascii "cod") (.string (decimal n.toNat)) ms) =
        some (.string (decimal n.toNat)) := by
    rw [find_insertMember, if_pos rfl]
  rw [get_of_answer h, readAnswer_of_text hcod, verdict_insert_cod]

/-- The reader that finds one value in every text. -/
def alwaysJson (v : Value) : JsonLib where
  write _ := []
  parse _ _ := (true, v)

/-- **The two forms of `cod` agree** iff what they make `get` go on with does. -/
theorem sameCode_iff (h : answer net json c city = (true, .object ms))
    (hcod : findMember (ascii "cod") ms = some cod) (hn : Denotes cod n) :
    (∀ cod', Denotes cod' n → ∀ net' json',
      answer net' json' c city = (true, .object (insertMember (ascii "cod") cod' ms)) →
        (get rounded net' json' c city result).2.1 = (get rounded net json c city result).2.1) ↔
      Agree ms n := by
  rw [agree_iff]
  rcases hn with hn | rfl
  · have hcode : (get rounded net json c city result).2.1 =
        (numberStatus ms n).elim .invalidResponse (verdict ms) := by
      rw [get_of_answer h, readAnswer_of_number hcod hn]
    rw [hcode]
    constructor
    · intro hsame
      rw [← hsame _ (.inr rfl) net (alwaysJson _) rfl]
      exact code_of_text rfl
    · rintro hagree cod' (hn' | rfl) net' json' h'
      · exact code_of_number hn' h'
      · rw [code_of_text h', hagree]
  · have hcode : (get rounded net json c city result).2.1 = verdict ms (textStatus n) := by
      rw [get_of_answer h, readAnswer_of_text hcod]
    rw [hcode]
    constructor
    · intro hsame
      rw [← hsame (.uint n) (.inl rfl) net (alwaysJson _) rfl]
      exact (code_of_number rfl rfl).symm
    · rintro hagree cod' (hn' | rfl) net' json' h'
      · rw [code_of_number hn' h', hagree]
      · exact code_of_text h'

theorem textStatus_200 : textStatus 200 = 200 := by decide +kernel

/-- Where the two forms agree, 200 is read as 200. -/
theorem code_of_agree (h : answer net json c city = (true, .object ms))
    (hcod : findMember (ascii "cod") ms = some cod) (hn : Denotes cod 200) (husable : Usable ms)
    (hagree : Agree ms 200) : (get rounded net json c city result).2.1 = .ok := by
  have hverdict : verdict ms (textStatus 200) = .ok := by
    rw [textStatus_200, verdict, if_pos rfl, if_pos husable]
  rw [get_of_answer h]
  rcases hn with hn | rfl
  · rw [readAnswer_of_number hcod hn, agree_iff.mp hagree, hverdict]
  · exact (readAnswer_of_text (n := 200) hcod).trans hverdict

theorem unchanged_iff (h : answer net json c city = (true, .object ms)) :
    ((get rounded net json c city result).2.1 ≠ .ok →
        (get rounded net json c city result).2.2 = result) ↔
      (readCode (.object ms) = .ok (.ok 200) → hasTemperature (.object ms) = .ok true →
        KeepsOnThrow rounded city result (.object ms)) := by
  rw [get_of_answer h, readAnswer]
  split
  · rename_i hread
    exact iff_of_true (fun _ => rfl) fun h200 => nomatch hread.symm.trans h200
  · rename_i hread
    exact iff_of_true (fun _ => rfl) fun h200 => nomatch hread.symm.trans h200
  · rename_i k hread
    rw [hread, conclude]
    split
    · rename_i hk
      subst hk
      split
      · rename_i htemp
        rw [fill_eq_self_iff]
        exact ⟨fun hkeeps _ _ => hkeeps, fun hkeeps => hkeeps rfl htemp⟩
      · rename_i htemp
        exact iff_of_true (fun _ => rfl) fun _ htrue => absurd htrue htemp
    · rename_i hk
      refine iff_of_true (fun _ => ?_) fun h200 => ?_
      · split <;> rfl
      · exact absurd (Except.ok.inj (Except.ok.inj h200)) hk

end Claims

/-- **When `get` is right** about an answer that is an object: a number in `cod` is not contradicted
by `code`, where it is looked up, and nothing new was assigned before a conversion throws. -/
theorem get_right_iff {F : Type} (rounded : Option Rat → F) (net : Net) (json : JsonLib)
    (c : OpenWeatherMapClient) (city : Bytes) (result : Weather F) :
    (∀ ms, answer net json c city = (true, .object ms) →
        Right rounded net json c city result ms) ↔
      ∀ ms, answer net json c city = (true, .object ms) → HoldsWhen rounded city result ms := by
  refine forall_congr' fun ms => imp_congr_right fun h => ?_
  constructor
  · intro hright
    refine ⟨fun cod n hcod hn => ?_, (unchanged_iff h).mp hright.unchanged⟩
    exact (sameCode_iff h hcod hn).mp (hright.sameCode cod n hcod hn)
  · intro hwhen
    refine ⟨fun cod n hcod hn => ?_, fun cod hcod hn husable => ?_,
      (unchanged_iff h).mpr hwhen.keeps⟩
    · exact (sameCode_iff h hcod hn).mpr (hwhen.agree cod n hcod hn)
    · exact code_of_agree h hcod hn husable (hwhen.agree cod 200 hcod hn)

/-- An answer with a temperature. -/
def sunnyMembers : List (Bytes × Value) :=
  [(ascii "cod", .int 200), (ascii "main", .object [(ascii "temp", .int 20)])]

/-- `get` calls a good answer unknown: there is no `code` in it. -/
theorem not_right_number :
    ∃ orders, ¬∀ ms, answer ⟨orders, fun _ => ⟨200, []⟩⟩ (alwaysJson (.object sunnyMembers))
        ⟨ascii "key", ⟨{}, []⟩⟩ (ascii "Paris") = (true, .object ms) →
      Right id ⟨orders, fun _ => ⟨200, []⟩⟩ (alwaysJson (.object sunnyMembers))
        ⟨ascii "key", ⟨{}, []⟩⟩ (ascii "Paris") { temperature := none } ms := by
  refine ⟨fun _ cli => (Orders.nonempty cli).some, fun h => ?_⟩
  have husable : Usable sunnyMembers := by
    refine ⟨⟨_, rfl, ⟨.int 20, rfl, some 20, rfl⟩, ?_⟩, ?_, ?_⟩
    · intro humidity hfind
      cases hfind
    · intro first rest hfind
      cases hfind
    · intro sys hfind
      cases hfind
  have hok := (h sunnyMembers rfl).ok (.int 200) rfl (.inl (by decide)) husable
  cases hok

end OpenWeatherMapClient

end WinterWind.Extras
