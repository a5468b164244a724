import Registrar.Text.Blank
import Registrar.Text.LowerCase
import Registrar.Keyed
import Registrar.Binary64
import Registrar.Binary64.Shortest
import Registrar.Text.Bytes
import Registrar.Json
import Registrar.Json.Numeral
import Registrar.Json.Printer
import Registrar.Json.Reader
import Registrar.Id
import Registrar.Time.Calendar
import Registrar.Time.Instant
import Registrar.Time.Rfc3339
import Registrar.Context
import Registrar.Email
import Registrar.Event
import Registrar.History
import Registrar.User
import Registrar.Store
import Registrar.Store.Transaction
import Registrar.UnitOfWork
import Registrar.Dispatch.Dispatcher
import Registrar.Outbox.Processor
import Registrar.Outbox.Writer
import Registrar.Config
import Registrar.Outbox.Worker
import Registrar.Bus
import Registrar.Accounts.Error
import Registrar.Accounts.Hasher
import Registrar.Accounts.Message
import Registrar.Accounts.Repository
import Registrar.Accounts.Service
import Registrar.Accounts.Unreachable
import Registrar.Accounts.Assembly
import Registrar.Bus.Foreign
import Registrar.Rehearsal
import Registrar.Json.Lookup
import Registrar.Rehearsal.Script
import Registrar.Store.Clients
import Registrar.UnitOfWork.Hall
import Registrar.Rehearsal.Messages
import Registrar.Proofs.Accounts.Atomicity
import Registrar.Proofs.Accounts.Chronicle
import Registrar.Proofs.Accounts.EmailIndex
import Registrar.Proofs.Accounts.LostUpdate
import Registrar.Proofs.Outbox.Age
import Registrar.Proofs.Accounts.EventLog
import Registrar.Proofs.Store.Isolation
import Registrar.Proofs.Outbox.Rows
import Registrar.Proofs.Dispatch.Journal
import Registrar.Proofs.Outbox.Lease
import Registrar.Proofs.Outbox.Passes
import Registrar.Proofs.Outbox.Delivery
import Registrar.Proofs.Accounts.Refinement
import Registrar.Proofs.Outbox.LifeCycle
import Registrar.Proofs.Outbox.Batching
import Registrar.Proofs.UnitOfWork.Bodies
import Registrar.Proofs.Bus.Measured
import Registrar.Proofs.Bus.Routing
import Registrar.Proofs.Accounts.Secrecy
import Registrar.Proofs.Outbox.Queue
import Registrar.Proofs.Outbox.Selection
import Registrar.Proofs.Outbox.Traces
import Registrar.Proofs.Outbox.Marking
import Registrar.Proofs.Outbox.Interruption
import Registrar.Proofs.UnitOfWork.Roster
import Registrar.Proofs.UnitOfWork.Turns
import Registrar.Proofs.Accounts.SecondWrite
import Registrar.Proofs.Accounts.TakenAddress
import Registrar.Proofs.Dispatch.Reports
import Registrar.Proofs.Dispatch.Agreement
import Registrar.Proofs.Dispatch.Succession
import Registrar.Proofs.Bus.Nesting
import Registrar.Proofs.User.Bookkeeping
import Registrar.Proofs.Text.Spelling
import Registrar.Proofs.Accounts.Spellings
import Registrar.Proofs.Context.Kinship
import Registrar.Proofs.Store.ReadBack
import Registrar.Proofs.Text.Numeral
import Registrar.Proofs.Config
import Registrar.Proofs.Outbox.Bursts
import Registrar.Proofs.Time.Order
import Registrar.Proofs.Time.Sum
import Registrar.Proofs.Outbox.LeaseEnd
