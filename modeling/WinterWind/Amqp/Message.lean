import WinterWind.Amqp.Channel
import WinterWind.Utils.Numerals

/-!
# Message properties (`src/core/amqp/message.cpp`)

The properties of a `Message`: its setters, its getters, and the constructor that copies a message
received from the broker.

* `BasicProperties` is librabbitmq's `amqp_basic_properties_t`, less the headers: one bit of `flags`
  for each property that is present. `basic_publish` hands it over as it is.
* `amqp_cstring_bytes` measures with `strlen`, so `TO_AMQP_STR` keeps a string up to its first NUL
  (`toAmqpStr`). What `amqp_bytes_malloc_dup` allocates is its copy; freeing it is left out.
* The expiration is kept as its decimal text and read with `atoll`, which gives the nearest `long`.
* `Datum` is a value as the caller sees it, text or number, so that the thirteen properties have one
  statement.

Results:
* `look_runSetters`: what a sequence of setters leaves for a property is what its last one wrote.
* `look_ofAmqpMessage`: the copy of a received message has the properties that message has.
* **`survives_iff`**: the properties survive exactly when no string last set for one has a NUL and
  the expiration last set is below `2^63`.
-/

namespace WinterWind.Amqp

open Library

/-! ## The message -/

/-- `amqp_basic_properties_t`, less the headers. -/
structure BasicProperties where
  flags : UInt32 := 0
  contentType : Bytes := []
  contentEncoding : Bytes := []
  deliveryMode : UInt8 := 0
  priority : UInt8 := 0
  correlationId : Bytes := []
  replyTo : Bytes := []
  expiration : Bytes := []
  messageId : Bytes := []
  timestamp : UInt64 := 0
  type : Bytes := []
  userId : Bytes := []
  appId : Bytes := []
  clusterId : Bytes := []
  deriving Repr, DecidableEq

/-- The properties a `Message` supports. -/
inductive Property where
  | contentType
  | contentEncoding
  | deliveryMode
  | priority
  | correlationId
  | replyTo
  | expiration
  | messageId
  | timestamp
  | type
  | userId
  | appId
  | clusterId
  deriving Repr, DecidableEq

/-- `AMQP_BASIC_CONTENT_TYPE_FLAG` and so on. -/
def Property.flag : Property → UInt32
  | contentType => 0x8000
  | contentEncoding => 0x4000
  | deliveryMode => 0x1000
  | priority => 0x800
  | correlationId => 0x400
  | replyTo => 0x200
  | expiration => 0x100
  | messageId => 0x80
  | timestamp => 0x40
  | type => 0x20
  | userId => 0x10
  | appId => 0x8
  | clusterId => 0x4

/-- `Message`. -/
structure BasicMessage extends Message where
  properties : BasicProperties := {}
  deriving Repr, DecidableEq

/-- `amqp_message_t`. -/
structure AmqpMessage where
  body : Bytes
  properties : BasicProperties
  deriving Repr, DecidableEq

/-- `TO_AMQP_STR` -/
def toAmqpStr (s : Bytes) : Bytes := cStr s

namespace BasicMessage

/-- The common part of the setters. -/
def setProperty (p : Property) (update : BasicProperties → BasicProperties) (m : BasicMessage) :
    BasicMessage :=
  { m with properties := update { m.properties with flags := m.properties.flags ||| p.flag } }

/-- The test of the getters. -/
def hasProperty (m : BasicMessage) (p : Property) : Bool := m.properties.flags &&& p.flag != 0

def setMandatory (m : BasicMessage) (mandatory : Bool) : BasicMessage :=
  { m with mandatory := mandatory }

def setImmediate (m : BasicMessage) (immediate : Bool) : BasicMessage :=
  { m with immediate := immediate }

def setContentType (m : BasicMessage) (contentType : Bytes) : BasicMessage :=
  m.setProperty .contentType fun ps => { ps with contentType := toAmqpStr contentType }

def getContentType (m : BasicMessage) : Bytes :=
  if m.hasProperty .contentType then m.properties.contentType else []

def setContentEncoding (m : BasicMessage) (contentEncoding : Bytes) : BasicMessage :=
  m.setProperty .contentEncoding fun ps => { ps with contentEncoding := toAmqpStr contentEncoding }

def getContentEncoding (m : BasicMessage) : Bytes :=
  if m.hasProperty .contentEncoding then m.properties.contentEncoding else []

def setDeliveryMode (m : BasicMessage) (deliveryMode : UInt8) : BasicMessage :=
  m.setProperty .deliveryMode fun ps => { ps with deliveryMode := deliveryMode }

/-- The default is `UINT8_MAX`. -/
def getDeliveryMode (m : BasicMessage) : UInt8 :=
  if m.hasProperty .deliveryMode then m.properties.deliveryMode else 255

def setPriority (m : BasicMessage) (priority : UInt8) : BasicMessage :=
  m.setProperty .priority fun ps => { ps with priority := priority }

/-- The default is `UINT8_MAX`. -/
def getPriority (m : BasicMessage) : UInt8 :=
  if m.hasProperty .priority then m.properties.priority else 255

def setCorrelationId (m : BasicMessage) (correlationId : Bytes) : BasicMessage :=
  m.setProperty .correlationId fun ps => { ps with correlationId := toAmqpStr correlationId }

def getCorrelationId (m : BasicMessage) : Bytes :=
  if m.hasProperty .correlationId then m.properties.correlationId else []

def setReplyTo (m : BasicMessage) (replyTo : Bytes) : BasicMessage :=
  m.setProperty .replyTo fun ps => { ps with replyTo := toAmqpStr replyTo }

def getReplyTo (m : BasicMessage) : Bytes :=
  if m.hasProperty .replyTo then m.properties.replyTo else []

/-- The private `set_expiration(const std::string &)`. -/
def setExpirationText (m : BasicMessage) (expiration : Bytes) : BasicMessage :=
  m.setProperty .expiration fun ps => { ps with expiration := toAmqpStr expiration }

def setExpiration (m : BasicMessage) (expirationMs : UInt64) : BasicMessage :=
  m.setExpirationText (decimal expirationMs.toNat)

def getExpiration (m : BasicMessage) : Int64 :=
  if m.hasProperty .expiration then atoll (cStr m.properties.expiration) else 0

def setMessageId (m : BasicMessage) (messageId : Bytes) : BasicMessage :=
  m.setProperty .messageId fun ps => { ps with messageId := toAmqpStr messageId }

def getMessageId (m : BasicMessage) : Bytes :=
  if m.hasProperty .messageId then m.properties.messageId else []

def setTimestamp (m : BasicMessage) (timestamp : Int64) : BasicMessage :=
  m.setProperty .timestamp fun ps => { ps with timestamp := timestamp.toUInt64 }

def getTimestamp (m : BasicMessage) : Int64 :=
  if m.hasProperty .timestamp then m.properties.timestamp.toInt64 else 0

def setType (m : BasicMessage) (type : Bytes) : BasicMessage :=
  m.setProperty .type fun ps => { ps with type := toAmqpStr type }

def getType (m : BasicMessage) : Bytes :=
  if m.hasProperty .type then m.properties.type else []

def setUserId (m : BasicMessage) (userId : Bytes) : BasicMessage :=
  m.setProperty .userId fun ps => { ps with userId := toAmqpStr userId }

def getUserId (m : BasicMessage) : Bytes :=
  if m.hasProperty .userId then m.properties.userId else []

def setAppId (m : BasicMessage) (appId : Bytes) : BasicMessage :=
  m.setProperty .appId fun ps => { ps with appId := toAmqpStr appId }

def getAppId (m : BasicMessage) : Bytes :=
  if m.hasProperty .appId then m.properties.appId else []

def setClusterId (m : BasicMessage) (clusterId : Bytes) : BasicMessage :=
  m.setProperty .clusterId fun ps => { ps with clusterId := toAmqpStr clusterId }

def getClusterId (m : BasicMessage) : Bytes :=
  if m.hasProperty .clusterId then m.properties.clusterId else []

/-- What `basic_publish` sends. -/
def toAmqpMessage (m : BasicMessage) : AmqpMessage := ⟨m.data, m.properties⟩

/-- A line of `Message(amqp_message_t *)`: the property is copied if it is present. -/
def copyIf (wire : AmqpMessage) (p : Property) (set : BasicMessage → BasicMessage)
    (m : BasicMessage) : BasicMessage :=
  if wire.properties.flags &&& p.flag != 0 then set m else m

/-- `Message::Message(amqp_message_t *)` -/
def ofAmqpMessage (wire : AmqpMessage) : BasicMessage :=
  let m : BasicMessage := { data := wire.body }
  let m := copyIf wire .contentType (·.setContentType wire.properties.contentType) m
  let m := copyIf wire .contentEncoding (·.setContentEncoding wire.properties.contentEncoding) m
  let m := copyIf wire .deliveryMode (·.setDeliveryMode wire.properties.deliveryMode) m
  let m := copyIf wire .priority (·.setPriority wire.properties.priority) m
  let m := copyIf wire .correlationId (·.setCorrelationId wire.properties.correlationId) m
  let m := copyIf wire .replyTo (·.setReplyTo wire.properties.replyTo) m
  let m := copyIf wire .expiration (·.setExpirationText wire.properties.expiration) m
  let m := copyIf wire .messageId (·.setMessageId wire.properties.messageId) m
  let m := copyIf wire .timestamp (·.setTimestamp wire.properties.timestamp.toInt64) m
  let m := copyIf wire .type (·.setType wire.properties.type) m
  let m := copyIf wire .userId (·.setUserId wire.properties.userId) m
  let m := copyIf wire .appId (·.setAppId wire.properties.appId) m
  let m := copyIf wire .clusterId (·.setClusterId wire.properties.clusterId) m
  m

end BasicMessage

/-! ## Setters and getters at once -/

/-- A value as the caller of a setter or a getter sees it. -/
inductive Datum where
  | text (s : Bytes)
  | number (n : Int)
  deriving Repr, DecidableEq

/-- The documented default of a getter. -/
def Property.default : Property → Datum
  | deliveryMode => .number 255
  | priority => .number 255
  | expiration => .number 0
  | timestamp => .number 0
  | _ => .text []

/-- The getter of a property. -/
def BasicMessage.get (m : BasicMessage) : Property → Datum
  | .contentType => .text m.getContentType
  | .contentEncoding => .text m.getContentEncoding
  | .deliveryMode => .number m.getDeliveryMode.toNat
  | .priority => .number m.getPriority.toNat
  | .correlationId => .text m.getCorrelationId
  | .replyTo => .text m.getReplyTo
  | .expiration => .number m.getExpiration.toInt
  | .messageId => .text m.getMessageId
  | .timestamp => .number m.getTimestamp.toInt
  | .type => .text m.getType
  | .userId => .text m.getUserId
  | .appId => .text m.getAppId
  | .clusterId => .text m.getClusterId

/-- A call of a setter. -/
inductive Setter where
  | setMandatory (mandatory : Bool)
  | setImmediate (immediate : Bool)
  | setContentType (contentType : Bytes)
  | setContentEncoding (contentEncoding : Bytes)
  | setDeliveryMode (deliveryMode : UInt8)
  | setPriority (priority : UInt8)
  | setCorrelationId (correlationId : Bytes)
  | setReplyTo (replyTo : Bytes)
  | setExpiration (expirationMs : UInt64)
  | setMessageId (messageId : Bytes)
  | setTimestamp (timestamp : Int64)
  | setType (type : Bytes)
  | setUserId (userId : Bytes)
  | setAppId (appId : Bytes)
  | setClusterId (clusterId : Bytes)

namespace Setter

def apply (m : BasicMessage) : Setter → BasicMessage
  | setMandatory mandatory => m.setMandatory mandatory
  | setImmediate immediate => m.setImmediate immediate
  | setContentType contentType => m.setContentType contentType
  | setContentEncoding contentEncoding => m.setContentEncoding contentEncoding
  | setDeliveryMode deliveryMode => m.setDeliveryMode deliveryMode
  | setPriority priority => m.setPriority priority
  | setCorrelationId correlationId => m.setCorrelationId correlationId
  | setReplyTo replyTo => m.setReplyTo replyTo
  | setExpiration expirationMs => m.setExpiration expirationMs
  | setMessageId messageId => m.setMessageId messageId
  | setTimestamp timestamp => m.setTimestamp timestamp
  | setType type => m.setType type
  | setUserId userId => m.setUserId userId
  | setAppId appId => m.setAppId appId
  | setClusterId clusterId => m.setClusterId clusterId

/-- The property a call sets and the value it sets it to. -/
def value : Setter → Option (Property × Datum)
  | setMandatory _ => none
  | setImmediate _ => none
  | setContentType contentType => some (.contentType, .text contentType)
  | setContentEncoding contentEncoding => some (.contentEncoding, .text contentEncoding)
  | setDeliveryMode deliveryMode => some (.deliveryMode, .number deliveryMode.toNat)
  | setPriority priority => some (.priority, .number priority.toNat)
  | setCorrelationId correlationId => some (.correlationId, .text correlationId)
  | setReplyTo replyTo => some (.replyTo, .text replyTo)
  | setExpiration expirationMs => some (.expiration, .number expirationMs.toNat)
  | setMessageId messageId => some (.messageId, .text messageId)
  | setTimestamp timestamp => some (.timestamp, .number timestamp.toInt)
  | setType type => some (.type, .text type)
  | setUserId userId => some (.userId, .text userId)
  | setAppId appId => some (.appId, .text appId)
  | setClusterId clusterId => some (.clusterId, .text clusterId)

/-- The value a call sets `p` to. -/
def valueOf (p : Property) (c : Setter) : Option Datum :=
  c.value.bind fun v => if v.1 = p then some v.2 else none

end Setter

/-- The value last set for `p`. -/
def lastSet (p : Property) (calls : List Setter) : Option Datum :=
  (calls.filterMap (Setter.valueOf p)).getLast?

/-- A message with `body`, after `calls`. -/
def runSetters (body : Bytes) (calls : List Setter) : BasicMessage :=
  calls.foldl Setter.apply { data := body }

/-- The properties set by `calls` are read back, from the message and from its copy on the other
side. -/
structure Survives (body : Bytes) (calls : List Setter) : Prop where
  getters : ∀ p, (runSetters body calls).get p = (lastSet p calls).getD p.default
  data : (BasicMessage.ofAmqpMessage (runSetters body calls).toAmqpMessage).data = body
  copied : ∀ p, (BasicMessage.ofAmqpMessage (runSetters body calls).toAmqpMessage).get p =
    (runSetters body calls).get p

/-! ## What a message holds -/

/-- The field of a property, whether it is present or not. -/
def Property.raw (ps : BasicProperties) : Property → Datum
  | contentType => .text ps.contentType
  | contentEncoding => .text ps.contentEncoding
  | deliveryMode => .number ps.deliveryMode.toNat
  | priority => .number ps.priority.toNat
  | correlationId => .text ps.correlationId
  | replyTo => .text ps.replyTo
  | expiration => .text ps.expiration
  | messageId => .text ps.messageId
  | timestamp => .number ps.timestamp.toInt64.toInt
  | type => .text ps.type
  | userId => .text ps.userId
  | appId => .text ps.appId
  | clusterId => .text ps.clusterId

/-- The field of a property that is present. -/
def BasicMessage.look (m : BasicMessage) (p : Property) : Option Datum :=
  if m.hasProperty p then some (p.raw m.properties) else none

/-- `f` sets the field of `p` to `d` and nothing else. -/
def Assigns (f : BasicMessage → BasicMessage) (p : Property) (d : Datum) : Prop :=
  ∀ m, (f m).data = m.data ∧ ∀ q, (f m).look q = if q = p then some d else m.look q

theorem flag_and_flag {p q : Property} (h : q ≠ p) : p.flag &&& q.flag = 0 := by
  cases p <;> cases q <;> first | rfl | exact absurd rfl h

theorem or_and_flag_of_ne {flags : UInt32} {p q : Property} (h : q ≠ p) :
    (flags ||| p.flag) &&& q.flag = flags &&& q.flag := by
  have hdistrib : (flags ||| p.flag) &&& q.flag = (flags &&& q.flag) ||| (p.flag &&& q.flag) :=
    UInt32.toBitVec_inj.mp (by simp [BitVec.and_or_distrib_right])
  rw [hdistrib, flag_and_flag h, UInt32.or_zero]

theorem or_and_flag_ne_zero (flags : UInt32) (p : Property) :
    ((flags ||| p.flag) &&& p.flag != 0) = true := by
  have habsorb : (flags ||| p.flag) &&& p.flag = p.flag := by
    refine UInt32.toBitVec_inj.mp (BitVec.eq_of_getElem_eq fun i hi => ?_)
    simp only [UInt32.toBitVec_and, UInt32.toBitVec_or, BitVec.getElem_and, BitVec.getElem_or]
    cases flags.toBitVec[i] <;> cases p.flag.toBitVec[i] <;> rfl
  rw [habsorb]
  cases p <;> rfl

theorem raw_flags (ps : BasicProperties) (flags : UInt32) (p : Property) :
    p.raw { ps with flags := flags } = p.raw ps := by
  cases p <;> rfl

/-- **The setters are independent.** A setter sets its own field and flag. -/
theorem assigns_setProperty {p : Property} {update : BasicProperties → BasicProperties} {d : Datum}
    (hflags : ∀ ps, (update ps).flags = ps.flags) (hraw : ∀ ps, p.raw (update ps) = d)
    (hother : ∀ ps q, q ≠ p → q.raw (update ps) = q.raw ps) :
    Assigns (BasicMessage.setProperty p update) p d := by
  intro m
  refine ⟨rfl, fun q => ?_⟩
  unfold BasicMessage.look BasicMessage.hasProperty
  by_cases h : q = p
  · subst h
    simp only [BasicMessage.setProperty, hflags, hraw, or_and_flag_ne_zero, if_true]
  · simp only [BasicMessage.setProperty, hflags, or_and_flag_of_ne h, hother _ q h, raw_flags,
      if_neg h]

/-- The field a setter writes for a value. -/
def Property.written : Property → Datum → Datum
  | expiration, .number n => .text (decimal n.toNat)
  | _, .text s => .text (cStr s)
  | _, d => d

theorem assigns_setExpirationText (expiration : Bytes) :
    Assigns (·.setExpirationText expiration) .expiration (.text (cStr expiration)) := by
  refine assigns_setProperty (fun _ => rfl) (fun _ => rfl) fun ps q h => ?_
  cases q <;> first | rfl | exact absurd rfl h

theorem nul_not_mem_decimal (n : Nat) : 0 ∉ decimal n :=
  fun h => absurd (isDigit_of_mem_decimal h) (by decide)

/-- Every setter of a property writes its field alone. -/
theorem assigns_apply {c : Setter} {p : Property} {d : Datum} (h : c.value = some (p, d)) :
    Assigns (Setter.apply · c) p (p.written d) := by
  cases c with
  | setMandatory mandatory => cases h
  | setImmediate immediate => cases h
  | setExpiration expirationMs =>
    obtain ⟨rfl, rfl⟩ := Prod.mk.inj (Option.some.inj h)
    have hassigns := assigns_setExpirationText (decimal expirationMs.toNat)
    rw [cStr_of_not_mem (nul_not_mem_decimal _)] at hassigns
    exact hassigns
  | setTimestamp timestamp =>
    obtain ⟨rfl, rfl⟩ := Prod.mk.inj (Option.some.inj h)
    refine assigns_setProperty (fun _ => rfl) (fun ps => ?_) fun ps q hq => ?_
    · exact congrArg (fun t : Int64 => Datum.number t.toInt) (Int64.toInt64_toUInt64 timestamp)
    · cases q <;> first | rfl | exact absurd rfl hq
  | _ =>
    obtain ⟨rfl, rfl⟩ := Prod.mk.inj (Option.some.inj h)
    refine assigns_setProperty (fun _ => rfl) (fun _ => rfl) fun ps q hq => ?_
    cases q <;> first | rfl | exact absurd rfl hq

/-- A setter of something else leaves the properties alone. -/
theorem look_apply_of_none {c : Setter} (h : c.value = none) (m : BasicMessage) :
    (Setter.apply m c).data = m.data ∧ ∀ q, (Setter.apply m c).look q = m.look q := by
  cases c with
  | setMandatory mandatory => exact ⟨rfl, fun _ => rfl⟩
  | setImmediate immediate => exact ⟨rfl, fun _ => rfl⟩
  | _ => cases h

/-! ## What a sequence of setters leaves -/

theorem lastSet_append (p : Property) (calls : List Setter) (c : Setter) :
    lastSet p (calls ++ [c]) = (c.valueOf p).or (lastSet p calls) := by
  unfold lastSet
  rw [List.filterMap_append]
  cases h : c.valueOf p with
  | none => rw [List.filterMap_cons_none h, List.filterMap_nil, List.append_nil, Option.none_or]
  | some d =>
    rw [List.filterMap_cons_some h, List.filterMap_nil, List.getLast?_concat, Option.some_or]

theorem look_fresh (body : Bytes) (p : Property) :
    BasicMessage.look { data := body } p = none := by
  have hflags : BasicMessage.hasProperty { data := body } p = false := by
    simp [BasicMessage.hasProperty]
  unfold BasicMessage.look
  rw [hflags]
  rfl

/-- **The last setter of a property decides.** -/
theorem look_runSetters (body : Bytes) (calls : List Setter) :
    (runSetters body calls).data = body ∧
      ∀ p, (runSetters body calls).look p = (lastSet p calls).map p.written := by
  induction calls using List.reverseRecOn with
  | nil => exact ⟨rfl, look_fresh body⟩
  | append_singleton calls c ih =>
    obtain ⟨hdata, hlook⟩ := ih
    have hrun : runSetters body (calls ++ [c]) = Setter.apply (runSetters body calls) c := by
      unfold runSetters
      rw [List.foldl_append, List.foldl_cons, List.foldl_nil]
    rw [hrun]
    cases hvalue : c.value with
    | none =>
      obtain ⟨hdata', hlook'⟩ := look_apply_of_none hvalue (runSetters body calls)
      refine ⟨hdata'.trans hdata, fun p => ?_⟩
      rw [hlook', hlook, lastSet_append, Setter.valueOf, hvalue, Option.bind_none, Option.none_or]
    | some v =>
      obtain ⟨hdata', hlook'⟩ := assigns_apply hvalue (runSetters body calls)
      refine ⟨hdata'.trans hdata, fun p => ?_⟩
      rw [hlook', lastSet_append, Setter.valueOf, hvalue, Option.bind_some]
      by_cases h : p = v.1
      · rw [if_pos h, if_pos h.symm, h]
        rfl
      · rw [if_neg h, if_neg (Ne.symm h), Option.none_or, hlook]

/-! ## What a getter makes of it -/

/-- What the getter of a property returns for its field. -/
def Property.decoded : Property → Option Datum → Datum
  | expiration, some (.text s) => .number (atoll (cStr s)).toInt
  | p, d => d.getD p.default

theorem get_eq (m : BasicMessage) (p : Property) : m.get p = p.decoded (m.look p) := by
  unfold BasicMessage.look
  cases p with
  | deliveryMode =>
    simp only [BasicMessage.get, BasicMessage.getDeliveryMode]
    split <;> rfl
  | priority =>
    simp only [BasicMessage.get, BasicMessage.getPriority]
    split <;> rfl
  | expiration =>
    simp only [BasicMessage.get, BasicMessage.getExpiration]
    split <;> rfl
  | timestamp =>
    simp only [BasicMessage.get, BasicMessage.getTimestamp]
    split <;> rfl
  | _ =>
    simp only [BasicMessage.get, BasicMessage.getContentType, BasicMessage.getContentEncoding,
      BasicMessage.getCorrelationId, BasicMessage.getReplyTo, BasicMessage.getMessageId,
      BasicMessage.getType, BasicMessage.getUserId, BasicMessage.getAppId,
      BasicMessage.getClusterId]
    split <;> rfl

/-- The numeral of an expiration is read back as the number it stands for, or the nearest that
fits. -/
theorem atoll_decimal (n : Nat) : (atoll (decimal n)).toInt = min n (2 ^ 63 - 1) := by
  have hread : (atoll (decimal n)).toInt = clampLong n := toInt_atoll n
  rw [hread, clampLong]
  omega

/-- The values a setter of a property can be given. -/
def Property.Admits : Property → Datum → Prop
  | expiration, d => ∃ ms : UInt64, d = .number ms.toNat
  | deliveryMode, d => ∃ n, d = .number n
  | priority, d => ∃ n, d = .number n
  | timestamp, d => ∃ n, d = .number n
  | _, d => ∃ s, d = .text s

/-- The values that survive: strings without NUL, and expirations that fit. -/
def Property.Faithful (p : Property) : Datum → Prop
  | .text s => 0 ∉ s
  | .number n => p = .expiration → n < 2 ^ 63

theorem admits_of_value {c : Setter} {p : Property} {d : Datum} (h : c.value = some (p, d)) :
    p.Admits d := by
  cases c with
  | setMandatory mandatory => cases h
  | setImmediate immediate => cases h
  | _ =>
    obtain ⟨rfl, rfl⟩ := Prod.mk.inj (Option.some.inj h)
    exact ⟨_, rfl⟩

theorem admits_of_lastSet {p : Property} {calls : List Setter} {d : Datum}
    (h : lastSet p calls = some d) : p.Admits d := by
  obtain ⟨c, -, hc⟩ := List.mem_filterMap.mp (List.mem_of_getLast? h)
  obtain ⟨v, hv, hd⟩ := Option.bind_eq_some_iff.mp hc
  split at hd
  · rename_i hp
    obtain rfl := Option.some.inj hd
    subst hp
    exact admits_of_value hv
  · cases hd

theorem text_cStr_iff (s : Bytes) : Datum.text (cStr s) = .text s ↔ 0 ∉ s := by
  refine ⟨fun h hmem => ?_, fun h => by rw [cStr_of_not_mem h]⟩
  have heq : cStr s = s := Datum.text.inj h
  exact not_mem_cStr s (heq.symm ▸ hmem)

/-- **What a getter returns for a value that was set.** -/
theorem decoded_written_iff {p : Property} {d : Datum} (h : p.Admits d) :
    p.decoded (some (p.written d)) = d ↔ p.Faithful d := by
  cases p with
  | expiration =>
    obtain ⟨ms, rfl⟩ := h
    simp only [Property.written, Property.decoded, Property.Faithful, forall_const,
      Int.toNat_natCast]
    rw [cStr_of_not_mem (nul_not_mem_decimal _), atoll_decimal, Datum.number.injEq]
    omega
  | deliveryMode | priority | timestamp =>
    obtain ⟨n, rfl⟩ := h
    exact ⟨fun _ => nofun, fun _ => rfl⟩
  | _ =>
    obtain ⟨s, rfl⟩ := h
    exact text_cStr_iff s

/-! ## The copy -/

/-- A field once it has been copied. -/
def Datum.recoded : Datum → Datum
  | text s => .text (cStr s)
  | number n => .number n

/-- A field of a received message that is present, once copied. -/
def AmqpMessage.look (wire : AmqpMessage) (p : Property) : Option Datum :=
  if wire.properties.flags &&& p.flag != 0 then some (p.raw wire.properties).recoded else none

/-- The copy has the properties `done` of the message, and no others. -/
def Copied (wire : AmqpMessage) (done : List Property) (m : BasicMessage) : Prop :=
  m.data = wire.body ∧ ∀ q, m.look q = if q ∈ done then wire.look q else none

theorem copied_copyIf {wire : AmqpMessage} {done : List Property} {m : BasicMessage} {p : Property}
    {set : BasicMessage → BasicMessage} (h : Copied wire done m)
    (hset : Assigns set p (p.raw wire.properties).recoded) :
    Copied wire (p :: done) (BasicMessage.copyIf wire p set m) := by
  unfold BasicMessage.copyIf
  obtain ⟨hdata, hlook⟩ := h
  split
  · rename_i hp
    refine ⟨(hset m).1.trans hdata, fun q => ?_⟩
    rw [(hset m).2 q, hlook]
    by_cases hq : q = p
    · subst hq
      rw [if_pos rfl, if_pos List.mem_cons_self, AmqpMessage.look, if_pos hp]
    · simp only [hq, if_false, List.mem_cons, false_or]
  · rename_i hp
    refine ⟨hdata, fun q => ?_⟩
    rw [hlook]
    by_cases hq : q = p
    · subst hq
      rw [if_pos List.mem_cons_self, AmqpMessage.look, if_neg hp]
      split <;> rfl
    · simp only [hq, List.mem_cons, false_or]

/-- **The copying constructor.** The copy of a received message has its body, and its properties
as far as they are C strings. -/
theorem look_ofAmqpMessage (wire : AmqpMessage) :
    (BasicMessage.ofAmqpMessage wire).data = wire.body ∧
      ∀ p, (BasicMessage.ofAmqpMessage wire).look p = wire.look p := by
  have h : Copied wire [] { data := wire.body } := ⟨rfl, look_fresh wire.body⟩
  replace h := copied_copyIf h (assigns_apply (c := .setContentType _) rfl)
  replace h := copied_copyIf h (assigns_apply (c := .setContentEncoding _) rfl)
  replace h := copied_copyIf h (assigns_apply (c := .setDeliveryMode _) rfl)
  replace h := copied_copyIf h (assigns_apply (c := .setPriority _) rfl)
  replace h := copied_copyIf h (assigns_apply (c := .setCorrelationId _) rfl)
  replace h := copied_copyIf h (assigns_apply (c := .setReplyTo _) rfl)
  replace h := copied_copyIf h (assigns_setExpirationText _)
  replace h := copied_copyIf h (assigns_apply (c := .setMessageId _) rfl)
  replace h := copied_copyIf h (assigns_apply (c := .setTimestamp _) rfl)
  replace h := copied_copyIf h (assigns_apply (c := .setType _) rfl)
  replace h := copied_copyIf h (assigns_apply (c := .setUserId _) rfl)
  replace h := copied_copyIf h (assigns_apply (c := .setAppId _) rfl)
  replace h := copied_copyIf h (assigns_apply (c := .setClusterId _) rfl)
  obtain ⟨hdata, hlook⟩ := h
  refine ⟨hdata, fun p => (hlook p).trans (if_pos ?_)⟩
  cases p <;> decide

theorem recoded_written {p : Property} {d : Datum} (h : p.Admits d) :
    (p.written d).recoded = p.written d := by
  cases p with
  | expiration =>
    obtain ⟨ms, rfl⟩ := h
    exact congrArg Datum.text (cStr_of_not_mem (nul_not_mem_decimal _))
  | deliveryMode | priority | timestamp =>
    obtain ⟨n, rfl⟩ := h
    rfl
  | _ =>
    obtain ⟨s, rfl⟩ := h
    exact congrArg Datum.text (cStr_of_not_mem (not_mem_cStr s))

theorem look_toAmqpMessage (m : BasicMessage) (p : Property) :
    m.toAmqpMessage.look p = (m.look p).map Datum.recoded := by
  unfold AmqpMessage.look BasicMessage.look BasicMessage.hasProperty
  cases h : m.properties.flags &&& p.flag != 0 <;> simp [BasicMessage.toAmqpMessage, h]

/-- The copy of a published message holds what the message holds: a setter leaves no NUL behind. -/
theorem look_copy (body : Bytes) (calls : List Setter) (p : Property) :
    (BasicMessage.ofAmqpMessage (runSetters body calls).toAmqpMessage).look p =
      (runSetters body calls).look p := by
  rw [(look_ofAmqpMessage _).2, look_toAmqpMessage, (look_runSetters body calls).2]
  cases hlast : lastSet p calls with
  | none => rfl
  | some d => exact congrArg some (recoded_written (admits_of_lastSet hlast))

/-! ## What survives -/

/-- **Which message properties survive.** Every getter returns the value last set for its property,
or the default if there is none, on the message and on its copy with the same body, exactly when no
string last set for a property has a NUL and the expiration last set, if any, is below `2^63`. -/
theorem survives_iff (body : Bytes) (calls : List Setter) :
    Survives body calls ↔ ∀ p d, lastSet p calls = some d → p.Faithful d := by
  constructor
  · intro h p d hlast
    have hget := h.getters p
    rw [get_eq, (look_runSetters body calls).2, hlast] at hget
    exact (decoded_written_iff (admits_of_lastSet hlast)).mp hget
  · intro h
    refine ⟨fun p => ?_, ?_, fun p => ?_⟩
    · rw [get_eq, (look_runSetters body calls).2]
      cases hlast : lastSet p calls with
      | none => cases p <;> rfl
      | some d => exact (decoded_written_iff (admits_of_lastSet hlast)).mpr (h p d hlast)
    · rw [(look_ofAmqpMessage _).1]
      exact (look_runSetters body calls).1
    · rw [get_eq, get_eq, look_copy]

/-- A correlation id of the two bytes `a` and NUL is read back as `a`. -/
theorem not_survives_nul : ¬ Survives [] [.setCorrelationId [97, 0]] := by
  intro h
  exact absurd (h.getters .correlationId) (by decide)

end WinterWind.Amqp
