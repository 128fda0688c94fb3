import Mathlib.Algebra.Group.Nat.Defs
import Warren.Publisher.Encode.Headers

/-!
A message on its way to the broker and back (`publisher.go`, `message.go`, `types.go`). What
`uuid.NewV7`, the clock, the codec and the propagator give is left open. A copy of a map is the map
itself.
-/

namespace Encode

-- `h[k] = v`
def set : Headers → String → Value → Headers
  | [], k, v => [(k, v)]
  | e :: h, k, v => if e.1 = k then (k, v) :: h else e :: set h k v

-- `maps.Copy(dst, src)`
def copy (dst src : Headers) : Headers := src.foldl (fun h e => set h e.1 e.2) dst

abbrev DeliveryMode := UInt8

def persistent : DeliveryMode := 0

def transient : DeliveryMode := 1

def wire (d : DeliveryMode) : UInt8 := if d = transient then 1 else 2

def deliveryModeFromWire (w : UInt8) : DeliveryMode := if w = 2 then persistent else transient

-- durations are in nanoseconds, and the zero time is 0
structure Message (M : Type) where
  body : Option M
  messageID : String
  correlationID : String
  replyTo : String
  type : String
  appID : String
  userID : String
  contentType : String
  contentEncoding : String
  headers : Headers
  priority : UInt8
  timestamp : Int
  expiration : Int64
  deliveryMode : DeliveryMode
  delay : Int64

abbrev Body := List UInt8

-- `amqp091.Publishing`
structure Publishing where
  contentType : String
  contentEncoding : String
  headers : Headers
  deliveryMode : UInt8
  priority : UInt8
  messageId : String
  correlationId : String
  replyTo : String
  type : String
  appId : String
  userId : String
  timestamp : Int
  expiration : String
  body : Body

structure Codec (M : Type) where
  contentType : String
  -- with the headers and the content type of a `HeaderCodec`; a panic is an error
  safeEncodeBody : M → Except String (Body × Headers × String)

structure Publisher (M : Type) where
  codec : Codec M
  stampUserID : Bool
  authUser : String
  maxMessageSizeBytes : Int
  onReturn : Bool

structure Env where
  newV7 : Except String String
  now : Int

variable {M : Type}

def reject (violated : Prop) [Decidable violated] (format : String) (args : List Arg)
    : Except Err Unit :=
  if violated then .error ⟨.invalidMessage, format, args⟩ else .ok ()

def checked : Option Err × Headers → Except Err Headers
  | (some err, _) => .error err
  | (none, h) => .ok h

def milliseconds (d : Int64) : Int64 := d / 1000000

def maxInt32 : Int64 := 2147483647

def defaultID (env : Env) (messageID : String) : Except Err String :=
  if messageID = "" then
    env.newV7.mapError (⟨.invalidMessage, "failed to generate message ID: %w", [.text ·]⟩)
  else
    .ok messageID

def Message.applyDefaults (env : Env) (c : Codec M) (m : Message M) : Except Err (Message M) := do
  let messageID ← defaultID env m.messageID
  pure { m with
    messageID
    timestamp := if m.timestamp = 0 then env.now else m.timestamp
    contentType := if m.contentType = "" then c.contentType else m.contentType }

def merge (headers ceHeaders : Headers) : Except Err Headers :=
  if ceHeaders = [] then .ok headers else copy headers <$> checked (validateHeaders ceHeaders)

def encodeMsg (env : Env) (p : Publisher M) (msg : Message M) : Except Err (Message M × Body) := do
  let msg ← msg.applyDefaults env p.codec
  let headers ← checked (validateHeaders msg.headers)
  let userID := if p.stampUserID ∧ msg.userID = "" then p.authUser else msg.userID
  reject (userID ≠ "" ∧ p.authUser ≠ "" ∧ userID ≠ p.authUser)
    "UserID field does not match the authenticated connection identity" []
  match msg.body with
  | none => .error ⟨.invalidMessage, "Body must not be nil", []⟩
  | some b =>
    reject (milliseconds msg.delay < 0 ∨ maxInt32 < milliseconds msg.delay)
      "Delay %s is out of the x-delay range [0, %d] ms (~24.8 days)"
      [.duration msg.delay, .number maxInt32.toInt]
    reject (msg.expiration ≠ 0 ∧ milliseconds msg.expiration ≤ 0)
      ("Expiration %s is not a valid TTL: it must be at least 1ms (a sub-millisecond duration "
        ++ "rounds to 0 = immediate expiry; a negative duration is invalid)")
      [.duration msg.expiration]
    let (body, ceHeaders, ceContentType) ←
      (p.codec.safeEncodeBody b).mapError (⟨.invalidMessage, "%w", [.text ·]⟩)
    let merged ← merge headers ceHeaders
    if 0 < p.maxMessageSizeBytes ∧ p.maxMessageSizeBytes < body.length then
      .error ⟨.messageTooLarge, "encoded body is %d bytes (cap %d)",
        [.number body.length, .number p.maxMessageSizeBytes]⟩
    else
      pure ({ msg with
        userID
        headers := merged
        contentType := if ceContentType = "" then msg.contentType else ceContentType }, body)

-- `trace` is what the propagator writes for a context that carries a live span
def injectTrace (trace : Option (List (String × String))) (headers : Headers) : Headers :=
  match trace with
  | none => headers
  | some pairs =>
    let out := copy headers (pairs.map fun e => (e.1, .leaf (.scalar (.string e.2))))
    copy out (headers.filter fun e => e.1 = "traceparent" ∨ e.1 = "tracestate")

def formatExpiration (d : Int64) : String := if 0 < d then toString (milliseconds d).toInt else ""

def buildPublishing (msg : Message M) (body : Body) : Publishing where
  contentType := msg.contentType
  contentEncoding := msg.contentEncoding
  headers :=
    if 0 < msg.delay then
      set msg.headers "x-delay" (.leaf (.scalar (.int32 (milliseconds msg.delay).toInt32)))
    else
      msg.headers
  deliveryMode := wire msg.deliveryMode
  priority := msg.priority
  messageId := msg.messageID
  correlationId := msg.correlationID
  replyTo := msg.replyTo
  type := msg.type
  appId := msg.appID
  userId := msg.userID
  timestamp := msg.timestamp
  expiration := formatExpiration msg.expiration
  body

-- `amqp091.Return`, with the properties of what was published
structure AmqpReturn extends Publishing where
  replyCode : UInt16
  replyText : String
  exchange : String
  routingKey : String

structure ReturnedProperties where
  contentType : String
  contentEncoding : String
  headers : Headers
  deliveryMode : DeliveryMode
  priority : UInt8
  correlationID : String
  replyTo : String
  expiration : Int64
  messageID : String
  timestamp : Int
  type : String
  userID : String
  appID : String

structure Return where
  replyCode : UInt16
  replyText : String
  exchange : String
  routingKey : String
  properties : ReturnedProperties

def sign : List Char → Bool × List Char
  | '-' :: cs => (true, cs)
  | '+' :: cs => (false, cs)
  | cs => (false, cs)

-- `strconv.ParseInt(s, 10, 64)`, `none` is an error
def parseInt (s : String) : Option Int64 :=
  let (negative, digits) := sign s.toList
  let n := Nat.ofDigitChars 10 digits 0
  if digits = [] ∨ digits.any (!·.isDigit) then
    none
  else if negative then
    if n ≤ 2 ^ 63 then some (.ofInt (-n)) else none
  else
    if n < 2 ^ 63 then some (.ofInt n) else none

def parseExpiration (ms : String) : Int64 :=
  if ms = "" then 0 else (parseInt ms).elim 0 (· * 1000000)

def callOnReturn (p : Publisher M) (r : AmqpReturn) : Option Return :=
  if p.onReturn then
    some {
      replyCode := r.replyCode
      replyText := r.replyText
      exchange := r.exchange
      routingKey := r.routingKey
      properties := {
        contentType := r.contentType
        contentEncoding := r.contentEncoding
        headers := r.headers
        deliveryMode := deliveryModeFromWire r.deliveryMode
        priority := r.priority
        correlationID := r.correlationId
        replyTo := r.replyTo
        expiration := parseExpiration r.expiration
        messageID := r.messageId
        timestamp := r.timestamp
        type := r.type
        userID := r.userId
        appID := r.appId } }
  else
    none

end Encode
