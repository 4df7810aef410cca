import MsaSaga.OrderService
import MsaSaga.PaymentService
import MsaSaga.InventoryService
import MsaSaga.DeliveryService

/-!
# The choreography as one transition system

The four services, the bus and the consumer groups' marks. A step is one of: a `POST /orders`
request entering `CreateOrder`; one call of an execution in flight, with its outcome; a
process stopping an execution between two calls; an outbox relay publishing a `PENDING` row,
with the `MarkSent` after it succeeding or not; a consumer group starting on any published
message of a topic it subscribes to, again and in any order; a Redis key expiring.

`ConsumeClaim` marks a message once its handler has returned, whatever it returned. The
relay is the body of its loop for one row: the publish, then `MarkSent`, whose error is only
logged. Partition keys, batching and the scan order are the relay's business and are not
part of this system; a consumer may take any published message.
-/
namespace MsaSaga.System
open Events Schema OrderService PaymentService InventoryService DeliveryService

/-- The whole system. `uuid` is the next fresh value of `uuid.New()` and of the clock. -/
structure Sys where
  order : OrderSvc := {}
  payment : PaymentSvc := {}
  inventory : InventorySvc := {}
  delivery : DeliverySvc := {}
  bus : List Message := []
  consumed : List (Group × Nat) := []
  uuid : Nat := 0
  deriving DecidableEq, Repr

/-- A system with no orders yet and the given `inventory` table. -/
def Sys.init (inventory : List InventoryRow) : Sys :=
  { inventory := { db := { inventory } } }

inductive Service where
  | order | payment | inventory | delivery
  deriving DecidableEq, Repr

def Service.all : List Service := [.order, .payment, .inventory, .delivery]

/-- The outbox table of a service. -/
def Sys.outbox (s : Sys) : Service → List OutboxRow
  | .order => s.order.db.outbox
  | .payment => s.payment.db.outbox
  | .inventory => s.inventory.db.outbox
  | .delivery => s.delivery.db.outbox

/-- Replace the outbox table of a service. -/
def Sys.setOutbox (s : Sys) : Service → List OutboxRow → Sys
  | .order, o => { s with order := { s.order with db := { s.order.db with outbox := o } } }
  | .payment, o => { s with payment := { s.payment with db := { s.payment.db with outbox := o } } }
  | .inventory, o =>
      { s with inventory := { s.inventory with db := { s.inventory.db with outbox := o } } }
  | .delivery, o =>
      { s with delivery := { s.delivery with db := { s.delivery.db with outbox := o } } }

inductive Action where
  | request (cmd : CreateOrderCommand)
  | call (svc : Service) (j : Nat) (ok : Bool)
  | crash (svc : Service) (j : Nat)
  | publish (svc : Service) (id : Nat) (marked : Bool)
  | deliver (g : Group) (i : Nat)
  | expire (svc : Service) (eventId : Nat)
  deriving DecidableEq, Repr

/-- The mark `ConsumeClaim` leaves for group `g` once a handler returned. -/
def marks (g : Group) (fin : Option Nat) : List (Group × Nat) := fin.toList.map (g, ·)

/-- One call of execution `j` of service `svc`, with outcome `ok`. -/
def Sys.call (s : Sys) : Service → Nat → Bool → Option Sys
  | .order, j, ok => (s.order.call j ok s.uuid).map fun r =>
      { s with order := r.1, uuid := r.2.1, consumed := s.consumed ++ marks .order r.2.2 }
  | .payment, j, ok => (s.payment.call j ok s.uuid).map fun r =>
      { s with payment := r.1, uuid := r.2.1, consumed := s.consumed ++ marks .payment r.2.2 }
  | .inventory, j, ok => (s.inventory.call j ok s.uuid).map fun r =>
      { s with inventory := r.1, uuid := r.2.1, consumed := s.consumed ++ marks .inventory r.2.2 }
  | .delivery, j, ok => (s.delivery.call j ok s.uuid).map fun r =>
      { s with delivery := r.1, uuid := r.2.1, consumed := s.consumed ++ marks .delivery r.2.2 }

/-- The number of executions in flight in a service. -/
def Sys.running (s : Sys) : Service → Nat
  | .order => s.order.threads.length
  | .payment => s.payment.threads.length
  | .inventory => s.inventory.threads.length
  | .delivery => s.delivery.threads.length

/-- The process running execution `j` stops: its transaction is gone, its message unmarked. -/
def Sys.crash (s : Sys) : Service → Nat → Sys
  | .order, j => { s with order := s.order.crash j }
  | .payment, j => { s with payment := s.payment.crash j }
  | .inventory, j => { s with inventory := s.inventory.crash j }
  | .delivery, j => { s with delivery := s.delivery.crash j }

/-- Consumer group `g` starts on message `i`. -/
def Sys.deliver (s : Sys) (g : Group) (i : Nat) (m : Message) : Sys :=
  match g with
  | .order => { s with order := s.order.deliver i m }
  | .payment => { s with payment := s.payment.deliver i m }
  | .inventory => { s with inventory := s.inventory.deliver i m }
  | .delivery => { s with delivery := s.delivery.deliver i m }

/-- A Redis key of a service expires or is lost. -/
def Sys.expire (s : Sys) : Service → Nat → Sys
  | .order, k => { s with order := s.order.expire k }
  | .payment, k => { s with payment := s.payment.expire k }
  | .inventory, k => { s with inventory := s.inventory.expire k }
  | .delivery, k => { s with delivery := s.delivery.expire k }

/-- The relay's loop body on row `r` of service `svc`, once `Publish` has returned `nil`: the
row's event goes on the bus, and `MarkSent` of its id marks it `SENT` if `marked`. -/
def Sys.publishRow (s : Sys) (svc : Service) (r : OutboxRow) (marked : Bool) : Sys :=
  { (if marked then s.setOutbox svc (markSent r.id (s.outbox svc)) else s) with
    bus := s.bus ++ [⟨r.eventType, r.payload⟩] }

/-- One step of the system; `none` when the action is not enabled. -/
def Sys.step (s : Sys) : Action → Option Sys
  | .request cmd => some { s with order := s.order.request cmd }
  | .call svc j ok => s.call svc j ok
  | .crash svc j => if j < s.running svc then some (s.crash svc j) else none
  | .publish svc id marked =>
      ((s.outbox svc).find? fun r => r.id = id ∧ r.status = .pending).map fun r =>
        { (if marked then s.setOutbox svc (markSent id (s.outbox svc)) else s) with
          bus := s.bus ++ [⟨r.eventType, r.payload⟩] }
  | .deliver g i => (s.bus[i]?.filter (·.topic ∈ g.topics)).map (s.deliver g i)
  | .expire svc k => some (s.expire svc k)

/-- The publish step is the loop body on the first `PENDING` row with the id. -/
theorem Sys.step_publish {s s' : Sys} {svc : Service} {id : Nat} {marked : Bool} :
    s.step (.publish svc id marked) = some s' ↔
      ∃ r, (s.outbox svc).find? (fun r => r.id = id ∧ r.status = .pending) = some r ∧
        s' = s.publishRow svc r marked := by
  simp only [Sys.step, Option.map_eq_some']
  refine exists_congr fun r => and_congr_right fun hr => ?_
  have : r.id = id := (by simpa using List.find?_some hr : r.id = id ∧ _).1
  rw [Sys.publishRow, this, eq_comm]

/-- The states the system reaches from an initial inventory. -/
def Reachable (inventory : List InventoryRow) : Sys → Prop :=
  Reach Sys.step (Sys.init inventory)

/-- The Inventory service inside the system is a run of the service on its own: each step
of the system is a step of the service or leaves it as it was. -/
theorem Reachable.inventory {inv : List InventoryRow} {s : Sys} (h : Reachable inv s) :
    InventorySvc.Reachable inv s.inventory := by
  refine Reach.map Sys.inventory (fun s a s' ha => ?_) h
  cases a with
  | request cmd => cases ha; exact .inl rfl
  | call svc j ok =>
      cases svc <;> simp only [Sys.step, Sys.call, Option.map_eq_some'] at ha <;>
        obtain ⟨r, hr, rfl⟩ := ha
      case call.inventory.intro.intro => exact .inr ⟨.call j ok s.uuid, by simp [InventorySvc.step, hr]⟩
      all_goals exact .inl rfl
  | crash svc j =>
      simp only [Sys.step, Option.ite_none_right_eq_some, Option.some.injEq] at ha
      obtain ⟨-, rfl⟩ := ha
      cases svc
      case inventory => exact .inr ⟨.crash j, rfl⟩
      all_goals exact .inl rfl
  | publish svc id marked =>
      simp only [Sys.step, Option.map_eq_some'] at ha
      obtain ⟨r, -, rfl⟩ := ha
      cases marked
      · exact .inl rfl
      · cases svc
        case inventory => exact .inr ⟨.markSent id, rfl⟩
        all_goals exact .inl rfl
  | deliver g i =>
      simp only [Sys.step, Option.map_eq_some'] at ha
      obtain ⟨m, -, rfl⟩ := ha
      cases g
      case inventory => exact .inr ⟨.deliver i m, rfl⟩
      all_goals exact .inl rfl
  | expire svc k =>
      cases ha
      cases svc
      case inventory => exact .inr ⟨.expire k, rfl⟩
      all_goals exact .inl rfl

/-- Nothing is left to do: every outbox row is `SENT`, every published message is marked by
every group subscribed to its topic, and no execution is in flight. -/
def Sys.Quiescent (s : Sys) : Prop :=
  (∀ svc ∈ Service.all, s.running svc = 0 ∧ ∀ r ∈ s.outbox svc, r.status = .sent) ∧
  ∀ i (h : i < s.bus.length), ∀ g ∈ Group.all, s.bus[i].topic ∈ g.topics → (g, i) ∈ s.consumed

instance (s : Sys) : Decidable s.Quiescent := inferInstanceAs (Decidable (_ ∧ _))

end MsaSaga.System
