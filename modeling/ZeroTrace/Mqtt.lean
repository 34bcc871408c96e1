import ZeroTrace.L7ProtocolInfo
import ZeroTrace.SliceReads
import ZeroTrace.TracedExec

/-!
# Parsing MQTT

`parse_mqtt_info` reads the packets of a payload one after the other;
`check_protocol` tells whether the first is a CONNECT packet.  A parser leaves
a part of its input and returns a value, or fails.  Only one place can panic:
`parse_connect_packet` skips the byte of flags behind the protocol level
without a look at what is there.

Every turn of the loop takes the type and the length of a packet, so a run
ends; and it panics if and only if it comes to a CONNECT packet that stops
right behind its protocol level.
-/

namespace ZeroTrace.Mqtt

open RustExec Slices TracedExec

inductive QualityOfService where
  | atMostOnce
  | atLeastOnce
  | exactlyOnce
  deriving DecidableEq

inductive PacketKind where
  | connect
  | connack
  | publish (dup : Bool) (qos : QualityOfService) (retain : Bool)
  | puback
  | pubrec
  | pubrel
  | pubcomp
  | subscribe
  | suback
  | unsubscribe
  | unsuback
  | pingreq
  | pingresp
  | disconnect
  deriving DecidableEq

/-- What a parser leaves of its input, and its value. -/
abbrev Parsed (α : Type) := Option (Bytes × α)

def mqttQualityOfService : Nat → Option QualityOfService
  | 0 => some .atMostOnce
  | 1 => some .atLeastOnce
  | 2 => some .exactlyOnce
  | _ => none

/-- `mqtt_packet_kind`, from the two halves of the first byte. -/
def mqttPacketKind (upper lower : Nat) : Option PacketKind :=
  match upper, lower with
  | 1, 0 => some .connect
  | 2, 0 => some .connack
  | 3, _ =>
    (mqttQualityOfService (lower / 2 % 4)).map fun qos =>
      .publish (lower.testBit 3) qos (lower.testBit 0)
  | 4, 0 => some .puback
  | 5, 0 => some .pubrec
  | 6, 2 => some .pubrel
  | 7, 0 => some .pubcomp
  | 8, 2 => some .subscribe
  | 9, 0 => some .suback
  | 10, 2 => some .unsubscribe
  | 11, 0 => some .unsuback
  | 12, 0 => some .pingreq
  | 13, 0 => some .pingresp
  | 14, 0 => some .disconnect
  | _, _ => none

/-- The loop of `decode_variable_length`: seven bits of a byte, at most four bytes. -/
def decodeVariableLength (len shift : Nat) : Bytes → Parsed Nat
  | [] => none
  | byte :: input =>
    let len := len + (byte.toNat % 128) <<< shift
    if byte.toNat < 128 then some (input, len)
    else if shift + 7 > 21 then none
    else decodeVariableLength len (shift + 7) input

/-- `mqtt_fixed_header`: the type of a packet and its remaining length. -/
def mqttFixedHeader : Bytes → Parsed (PacketKind × Nat)
  | [] => none
  | byte :: input =>
    (mqttPacketKind (byte.toNat / 16) (byte.toNat % 16)).bind fun kind =>
      (decodeVariableLength 0 0 input).map fun r => (r.1, kind, r.2)

def beU16 : Bytes → Parsed Nat
  | high :: low :: input => some (input, high.toNat * 256 + low.toNat)
  | _ => none

def controlCharacters (c : Char) : Bool :=
  ('\x01' ≤ c && c ≤ '\x1f') || ('\x7f' ≤ c && c ≤ '\u009f')

def mqttString (input : Bytes) : Parsed String :=
  (beU16 input).bind fun r =>
    if r.1.length < r.2 then none
    else
      (String.fromUTF8? ⟨((r.1.take r.2).map UInt8.ofBitVec).toArray⟩).bind fun s =>
        if s.toList.any controlCharacters then none else some (r.1.drop r.2, s)

/-- `parse_connect_packet`: the protocol level and the client. -/
def parseConnectPacket (input : Bytes) : Exec (Option (Nat × String)) :=
  match mqttString input with
  | none => .ok none
  | some (input, protocolName) =>
    if protocolName ≠ "MQTT" then .ok none
    else
      match input with
      | [] => .ok none
      | protocolLevel :: input =>
        sliceFrom input 1 >>= fun input =>
          .ok ((beU16 input).bind fun r =>
            (mqttString r.1).map fun r => (protocolLevel.toNat, r.2))

def parseConnackPacket : Bytes → Option Nat
  | flags :: code :: _ => if 2 ≤ flags.toNat then none else some code.toNat
  | _ => none

/-- The values of `many1`.  A parser takes bytes, so there is fuel for all. -/
def many {α : Type} (parse : Bytes → Parsed α) : Nat → Bytes → List α
  | 0, _ => []
  | fuel + 1, input =>
    match parse input with
    | none => []
    | some (input, a) => a :: many parse fuel input

/-- `subscription_request`: a topic and its quality. -/
def subscriptionRequest (input : Bytes) : Parsed (String × Int) :=
  (mqttString input).bind fun r =>
    match r.1 with
    | [] => none
    | qos :: input =>
      (mqttQualityOfService qos.toNat).map fun _ => (input, r.2, (qos.toNat : Int))

/-- `MqttInfo`, without what `parse_payload` fills in. -/
structure MqttInfo where
  clientId : Option String := none
  version : Nat := 0
  pktType : PacketKind := .disconnect
  reqMsgSize : Option Nat := none
  resMsgSize : Option Nat := none
  subscribeTopics : Option (List (String × Int)) := none
  publishTopic : Option String := none
  code : Option Nat := none
  status : L7ResponseStatus := .ok
  endpoint : Option String := none

def MqttInfo.generateEndpoint (info : MqttInfo) : Option String :=
  match info.pktType with
  | .publish _ _ _ => info.publishTopic
  | .subscribe | .unsubscribe =>
    info.subscribeTopics.map fun topics => ",".intercalate (topics.map Prod.fst)
  | _ => none

structure MqttLog where
  msgType : LogMessageType
  status : L7ResponseStatus
  version : Nat

def parseStatusCode : Nat → L7ResponseStatus
  | 0 => .ok
  | 1 | 2 | 4 | 5 => .clientError
  | 3 => .serverError
  | _ => .parseFailed

variable (log : MqttLog) (parseLog : Bool)

/-- A packet other than CONNECT: the log and the info, or nothing if it fails. -/
def parseOther (kind : PacketKind) (size : Nat) (input : Bytes) : Option (MqttLog × MqttInfo) :=
  let request : MqttInfo := { pktType := kind, version := log.version, reqMsgSize := some size }
  let response : MqttInfo := { pktType := kind, version := log.version, resMsgSize := some size }
  let topics (parse : Bytes → Parsed (String × Int)) : Option (MqttLog × MqttInfo) :=
    (beU16 input).bind fun r =>
      match many parse r.1.length r.1 with
      | [] => none
      | found =>
        some ({ log with msgType := .request }, { request with subscribeTopics := some found })
  match kind with
  | .connack =>
    (parseConnackPacket input).map fun code =>
      ({ log with msgType := .response, status := parseStatusCode code },
        { response with code := some code })
  | .publish dup qos _ =>
    (mqttString input).bind fun r =>
      if dup = true ∧ qos = .atMostOnce then none
      else if qos = .atMostOnce then
        some ({ log with msgType := .response }, { response with publishTopic := some r.2 })
      else some ({ log with msgType := .request }, { request with publishTopic := some r.2 })
  | .subscribe => topics subscriptionRequest
  | .unsubscribe => topics fun input => (mqttString input).map fun r => (r.1, r.2, -1)
  | .pingreq | .pubrel => some ({ log with msgType := .request }, request)
  | .disconnect => some ({ log with msgType := .session }, response)
  | _ => some ({ log with msgType := .response }, response)

/-- The data of a CONNECT packet, which are noted, and what is read of them. -/
def connectPacket (size : Nat) (input : Bytes) : Traced Bytes (Option (Nat × String)) :=
  if input.length < size then .pure none
  else
    Traced.tell (input.take size) >>= fun _ => Traced.lift (parseConnectPacket (input.take size))

def parsePacket (kind : PacketKind) (size : Nat) (input : Bytes) :
    Traced Bytes (Option (MqttLog × MqttInfo)) :=
  if kind = .connect then
    connectPacket size input >>= fun r =>
      .pure (r.map fun (version, clientId) =>
        ({ log with msgType := .request, version := version },
          { clientId := clientId, version := version, reqMsgSize := size, pktType := kind }))
  else .pure (parseOther log kind size input)

/-- The loop of `parse_mqtt_info`, and what it returns.  A packet that fails leaves the log. -/
def parsePackets (parseLog : Bool) : Nat → MqttLog → Bytes → List MqttInfo →
    Traced Bytes (MqttLog × Option (List MqttInfo))
  | 0, _, _, _ => .outOfFuel
  | fuel + 1, log, payload, infos =>
    match mqttFixedHeader payload with
    | none => .pure (log, none)
    | some (input, kind, size) =>
      parsePacket log kind size input >>= fun r =>
        match r with
        | none => .pure (log, none)
        | some (log, info) =>
          let info := { info with status := log.status }
          let infos :=
            if parseLog then infos ++ [{ info with endpoint := info.generateEndpoint }] else infos
          if input.length ≤ size then
            .pure (log, if parseLog = true ∧ infos = [] then none else some infos)
          else
            Traced.lift (sliceFrom input size) >>= fun payload =>
              parsePackets parseLog fuel log payload infos

def parseMqttInfo (payload : Bytes) (parseLog : Bool) :
    Traced Bytes (MqttLog × Option (List MqttInfo)) :=
  if log.version ≠ 0 ∧ log.version ≠ 4 then .pure (log, none)
  else parsePackets parseLog (payload.length + 1) log payload []

/-- `check_protocol`, for a payload of TCP or not. -/
def checkProtocol (isTcp : Bool) (payload : Bytes) : Traced Bytes Bool :=
  if isTcp = false then .pure false
  else
    match mqttFixedHeader payload with
    | some (input, .connect, size) =>
      connectPacket size input >>= fun r => .pure (r.any fun r => 3 ≤ r.1 ∧ r.1 ≤ 5)
    | _ => .pure false

/-- A CONNECT packet that does not stop right behind its protocol level. -/
def SafeConnect (data : Bytes) : Prop :=
  ∀ input, mqttString data = some (input, "MQTT") → input.length ≠ 1

theorem parseConnectPacket_settles (data : Bytes) :
    Settles (SafeConnect data) (parseConnectPacket data) fun _ => True := by
  unfold parseConnectPacket SafeConnect
  cases mqttString data with
  | none => exact .ok (by simp) trivial
  | some r =>
    obtain ⟨input, name⟩ := r
    dsimp only
    split
    next hname => exact .ok (fun _ h => absurd (by cases h; rfl) hname) trivial
    rename_i hname
    rw [not_not] at hname
    subst hname
    match input with
    | [] => exact .ok (fun _ h => by cases h; decide) trivial
    | [level] => exact .error (fun h => h _ rfl rfl) (by decide)
    | level :: flags :: input => exact .ok (fun _ h => by cases h; simp) trivial

theorem connectPacket_total (size : Nat) (input : Bytes) :
    Total SafeConnect (connectPacket size input) := by
  unfold connectPacket
  split
  · exact .pure
  have hsettles := parseConnectPacket_settles (input.take size)
  refine ⟨?_, hsettles.ne_outOfFuel⟩
  by_cases hsafe : SafeConnect (input.take size)
  · obtain ⟨r, hr, -⟩ := hsettles.exists_ok hsafe
    rw [hr]
    exact .tell_bind hsafe (.pure trivial)
  · exact .event_not_safe hsafe (hsettles.crashes hsafe)

theorem decodeVariableLength_lt {len shift value : Nat} {input rest : Bytes}
    (h : decodeVariableLength len shift input = some (rest, value)) :
    rest.length < input.length := by
  induction input generalizing len shift with
  | nil => cases h
  | cons byte input ih =>
    rw [decodeVariableLength] at h
    split_ifs at h
    · cases h
      exact Nat.lt_succ_self _
    · exact (ih h).trans (Nat.lt_succ_self _)

theorem mqttFixedHeader_lt {payload input : Bytes} {header : PacketKind × Nat}
    (h : mqttFixedHeader payload = some (input, header)) : input.length < payload.length := by
  cases payload with
  | nil => cases h
  | cons byte payload =>
    obtain ⟨kind, -, hlength⟩ := Option.bind_eq_some_iff.mp h
    obtain ⟨r, hr, heq⟩ := Option.map_eq_some_iff.mp hlength
    cases heq
    exact (decodeVariableLength_lt hr).trans (Nat.lt_succ_self _)

theorem parsePacket_total (kind : PacketKind) (size : Nat) (input : Bytes) :
    Total SafeConnect (parsePacket log kind size input) := by
  unfold parsePacket
  split
  · exact (connectPacket_total size input).bind fun _ => .pure
  · exact .pure

/-- **The packets of a payload.**  What is left gets shorter with each of them. -/
theorem parsePackets_total {fuel : Nat} {payload : Bytes}
    (h : payload.length < fuel) (log : MqttLog) (infos : List MqttInfo) :
    Total SafeConnect (parsePackets parseLog fuel log payload infos) := by
  induction fuel generalizing log payload infos with
  | zero => exact absurd h (Nat.not_lt_zero _)
  | succ fuel ih =>
    unfold parsePackets
    cases hheader : mqttFixedHeader payload with
    | none => exact .pure
    | some r =>
      obtain ⟨input, kind, size⟩ := r
      have hlt := mqttFixedHeader_lt hheader
      refine (parsePacket_total log kind size input).bind fun r => ?_
      cases r with
      | none => exact .pure
      | some r =>
        dsimp only
        split
        · exact .pure
        next hmore =>
          rw [lift_bind_of_ok (sliceFrom_ok (by omega))]
          exact ih (by rw [List.length_drop]; omega) _ _

/-- **No panics.**  Parsing and checking a payload comes to an end, and does not panic if and
only if no CONNECT packet that is come to stops right behind its protocol level. -/
theorem mqtt_no_panic_iff (payload : Bytes) (parseLog isTcp : Bool) :
    ((parseMqttInfo log payload parseLog).result ≠ .error .outOfFuel ∧
      ((∀ data ∈ (parseMqttInfo log payload parseLog).log, SafeConnect data) ↔
        ¬ Crashes (parseMqttInfo log payload parseLog).result)) ∧
    (checkProtocol isTcp payload).result ≠ .error .outOfFuel ∧
      ((∀ data ∈ (checkProtocol isTcp payload).log, SafeConnect data) ↔
        ¬ Crashes (checkProtocol isTcp payload).result) := by
  have hinfo : Total SafeConnect (parseMqttInfo log payload parseLog) := by
    unfold parseMqttInfo
    split
    · exact .pure
    · exact parsePackets_total parseLog (Nat.lt_succ_self _) log []
  have hcheck : Total SafeConnect (checkProtocol isTcp payload) := by
    unfold checkProtocol
    split
    · exact .pure
    split
    · exact (connectPacket_total _ _).bind fun _ => .pure
    · exact .pure
  exact ⟨⟨hinfo.2, hinfo.1.iff⟩, hcheck.2, hcheck.1.iff⟩

/-- A CONNECT packet of protocol level 4 that stops there panics. -/
theorem connect_without_flags_panics :
    (checkProtocol true [0x10, 7, 0, 4, 77, 81, 84, 84, 4]).result = .error .outOfBounds := by
  decide +kernel

end ZeroTrace.Mqtt
