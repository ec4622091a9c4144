import Portask.Kafka.ProcessorBridge

/-! # AMQP publishes as messages -/

namespace Portask.Amqp

open Lib Portask.Types Kafka

structure MessageProperties where
  contentType : GoString := []
  contentEncoding : GoString := []
  deliveryMode : UInt8 := 0
  priority : UInt8 := 0
  correlationID : GoString := []
  replyTo : GoString := []
  messageID : GoString := []
  userID : GoString := []
  appID : GoString := []

/-- The texts that are copied if they are not empty, then the numbers that are printed if
    they are positive. -/
def MessageProperties.metadata (properties : MessageProperties) : List (GoString × GoString) :=
  [(ascii "content_type", properties.contentType),
    (ascii "content_encoding", properties.contentEncoding),
    (ascii "correlation_id", properties.correlationID),
    (ascii "reply_to", properties.replyTo),
    (ascii "message_id", properties.messageID),
    (ascii "app_id", properties.appID),
    (ascii "user_id", properties.userID)].filter (fun entry => entry.2 ≠ []) ++
  ([(ascii "priority", properties.priority),
    (ascii "delivery_mode", properties.deliveryMode)].filter
    (fun entry => 0 < entry.2)).map (fun entry => (entry.1, GoString.decimal entry.2.toNat))

/-- The assignments of `entries` to a map, in order. -/
def assign (map : GoString → Option GoString) (entries : List (GoString × GoString)) :
    GoString → Option GoString :=
  entries.foldl (fun map entry => Function.update map entry.1 (some entry.2)) map

/-- `pooled` is the message that `GetMessage` gives, `id` the number that `NextAMQPID` gives and
    `now` the time. A payload without capacity stays nil for an empty body. -/
def translatePublish (pooled : PortaskMessage) (id : UInt64) (now : Int)
    (exchange routingKey : GoString)
    (body : List UInt8) (properties : Option MessageProperties) : Except String PortaskMessage :=
  if routingKey = [] then .error "routing key cannot be empty"
  else
    let metadata := pooled.metadata.getD (fun _ => none)
    .ok { pooled with
      id := GoString.decimal id.toNat
      topic := if exchange = [] then routingKey else exchange ++ ascii "." ++ routingKey
      partition := 0
      payload := if body = [] then pooled.payload.map (fun _ => []) else some body
      timestamp := now
      ttl := 0
      headers := some (pooled.headers.getD (fun _ => none))
      metadata := some (assign metadata
        ([(ascii "source", ascii "amqp"), (ascii "protocol", ascii "amqp-0.9.1"),
          (ascii "exchange", exchange), (ascii "routing_key", routingKey)] ++
          (properties.map MessageProperties.metadata).getD [])) }

end Portask.Amqp
