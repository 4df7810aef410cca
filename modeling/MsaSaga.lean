import MsaSaga.Events
import MsaSaga.Schema
import MsaSaga.OrderService
import MsaSaga.PaymentService
import MsaSaga.InventoryService
import MsaSaga.InventoryLedger
import MsaSaga.DeliveryService
import MsaSaga.System
import MsaSaga.OrderStateMachine
import MsaSaga.OutboxAtomicity
import MsaSaga.Executions
import MsaSaga.Lineage
import MsaSaga.Uniqueness
import MsaSaga.FreshIds
import MsaSaga.Orderly
import MsaSaga.Progress
import MsaSaga.Keys
import MsaSaga.Relay
import MsaSaga.Clock
import MsaSaga.Consume
import MsaSaga.RelayLatency
import MsaSaga.PaymentLedger
import MsaSaga.Amounts
import MsaSaga.OrderVersions
import MsaSaga.HttpApi
import MsaSaga.SharedStore
import MsaSaga.PaymentStatuses
import MsaSaga.WrittenEvents
import MsaSaga.StatusCauses
import MsaSaga.Choreography
import MsaSaga.Compensation
