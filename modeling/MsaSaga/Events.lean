import Mathlib.Data.List.Basic

/-!
# Event envelope, topics and consumer groups

Every event is the `BaseEvent` envelope of `common/events` together with the body fields
the services write or read. An event travels as JSON, and a consumer decodes it into the
struct of its topic, so a decoded event is modelled as one flat record: a field that the
sender did not set reads as Go's zero value. Event and correlation ids come from
`uuid.New().String()`; the model draws them from one counter, which keeps them fresh, and
an idempotency key built from an id stays injective because a UUID string has a fixed shape.
The clock readings that a query sorts on, the `created_at` of outbox rows and payments, are
drawn from the same counter. Each reading is larger than every earlier one, so readings compare
in the order they were taken.

The topic of a published message is the `event_type` column of its outbox row. Each service
subscribes its consumer group to a fixed list of topics (`cmd/main.go`).
-/
namespace MsaSaga.Events

/-- The twelve `EventType` constants; each names one bus topic. -/
inductive EventType where
  | orderCreated | orderCompleted | orderCanceled | orderFailed
  | paymentCompleted | paymentFailed | paymentRefunded
  | stockReserved | stockReservationFailed | stockRestored
  | deliveryStarted | deliveryFailed
  deriving DecidableEq, Repr

/-- The topic names, as the `EventType` string values. -/
def EventType.topic : EventType → String
  | .orderCreated => "order.created.v1"
  | .orderCompleted => "order.completed.v1"
  | .orderCanceled => "order.canceled.v1"
  | .orderFailed => "order.failed.v1"
  | .paymentCompleted => "payment.completed.v1"
  | .paymentFailed => "payment.failed.v1"
  | .paymentRefunded => "payment.refunded.v1"
  | .stockReserved => "stock.reserved.v1"
  | .stockReservationFailed => "stock.reservation_failed.v1"
  | .stockRestored => "stock.restored.v1"
  | .deliveryStarted => "delivery.started.v1"
  | .deliveryFailed => "delivery.failed.v1"

/-- A decoded event. `schemaVersion` (always 1), `occurredAt`, `paymentType` and `address`
are constants or clock readings that no handler reads, and are left out. -/
structure Event where
  eventId : Nat
  eventType : EventType
  correlationId : Nat
  orderId : Nat
  userId : Int := 0
  amount : Int := 0
  quantity : Int := 0
  paymentId : Nat := 0
  reservationId : Nat := 0
  deliveryId : Nat := 0
  reason : String := ""
  deriving DecidableEq, Repr

/-- The four consumer groups, one per service. -/
inductive Group where
  | order | payment | inventory | delivery
  deriving DecidableEq, Repr

def Group.all : List Group := [.order, .payment, .inventory, .delivery]

/-- The topics each group subscribes to. The Delivery service's `main` is not part of the
sources; its single topic is the one its handler serves. -/
def Group.topics : Group → List EventType
  | .order => [.paymentCompleted, .paymentFailed, .stockReserved, .stockReservationFailed,
      .deliveryStarted, .deliveryFailed]
  | .payment => [.orderCreated, .stockReservationFailed]
  | .inventory => [.paymentCompleted, .paymentRefunded]
  | .delivery => [.stockReserved]

/-- `messaging.Message` as a consumer sees it: the topic and the decoded payload. -/
structure Message where
  topic : EventType
  payload : Event
  deriving DecidableEq, Repr

end MsaSaga.Events
