import PimDm.Foundation.Heap
import PimDm.Foundation.ListLoop
import PimDm.Foundation.Program
import PimDm.Source.Inet
import PimDm.Source.State
import PimDm.Source.Callout
import PimDm.Source.Vif
import PimDm.Source.PimOutput
import PimDm.Source.Mrt
import PimDm.Source.Pim
import PimDm.Source.Igmp
import PimDm.Foundation.Transition
import PimDm.Foundation.Effects
import PimDm.Source.Machine
import PimDm.Effect.Update
import PimDm.Effect.Handlers
import PimDm.Effect.Receivers
import PimDm.Foundation.ListView
import PimDm.Routing.Table
import PimDm.Refinement.Models
import PimDm.Refinement.Forwarding
import PimDm.Refinement.Lists
import PimDm.Refinement.Entries
import PimDm.Routing.Entries
import PimDm.Refinement.Messages
import PimDm.Refinement.Steps
import PimDm.Routing.Mirror
import PimDm.Property.Session
import PimDm.Property.KernelMirror
import PimDm.Routing.Outgoing
import PimDm.Routing.Invariants
import PimDm.Effect.Alarms
import PimDm.Property.Outgoing
import PimDm.Property.Representation
import PimDm.Refinement.OneSource
import PimDm.Property.PruneOverride
import PimDm.Property.GraftAck
import PimDm.Refinement.Signals
import PimDm.Property.Signalling
import PimDm.Refinement.Packets
import PimDm.Refinement.Asserts
import PimDm.Property.Election
import PimDm.Effect.Agenda
import PimDm.Refinement.Roles
import PimDm.Property.Querier
import PimDm.Property.History
import PimDm.Property.SilentQuerier
import PimDm.Refinement.GroupRecords
import PimDm.Refinement.Membership
import PimDm.Refinement.MembershipSteps
import PimDm.Property.LastMember
import PimDm.Refinement.Neighbors
import PimDm.Property.Lifetime
import PimDm.Refinement.Expiry
import PimDm.Property.Keepalive
import PimDm.Refinement.Stirring
import PimDm.Source.Input
import PimDm.Property.BadInput
import PimDm.Foundation.Course
import PimDm.Source.Reading
import PimDm.Refinement.Cursor
import PimDm.Refinement.Courses
import PimDm.Refinement.Stale
import PimDm.Property.PacketBounds
import PimDm.Foundation.Broadcast
import PimDm.Refinement.Echoes
import PimDm.Property.PruneEcho
import PimDm.Refinement.Wire
import PimDm.Property.RoundTrip
import PimDm.Property.Checksum
import PimDm.Property.StaleBytes
import PimDm.Foundation.Ballot
import PimDm.Property.SmallestQuerier
import PimDm.Property.Cancellation
import PimDm.Refinement.Checks
import PimDm.Property.PeriodicCheck
import PimDm.Property.Retirement
import PimDm.Refinement.Overhearing
import PimDm.Property.JoinOverride
import PimDm.Property.HoldTime
import PimDm.Foundation.Layout
import PimDm.Refinement.Decoding
import PimDm.Property.Decoding
import PimDm.Foundation.Completion
import PimDm.Refinement.Completion
import PimDm.Property.NeighborRefresh
import PimDm.Property.LeafRemoval
import PimDm.Refinement.NewEntry
import PimDm.Property.InitialOutgoing
import PimDm.Property.NeighborRemoval
import PimDm.Property.HelloOptions
import PimDm.Property.MalformedHello
import PimDm.Property.AssertLoser
import PimDm.Property.UpstreamAsserts
import PimDm.Property.GroupLists
import PimDm.Refinement.Grafts
import PimDm.Property.GraftDecoding
import PimDm.Source.Interfaces
import PimDm.Property.Lookups
import PimDm.Property.Numbering
import PimDm.Foundation.While
import PimDm.Source.Kern
import PimDm.Property.ReceiveBuffer
import PimDm.Property.Deadlines
import PimDm.Property.Clock
import PimDm.Foundation.Tickets
import PimDm.Refinement.Ownership
import PimDm.Refinement.EntryTimers
import PimDm.Refinement.RoleTimers
import PimDm.Property.TimerKeeping
import PimDm.Property.TableRefinement
import PimDm.Refinement.Emissions
import PimDm.Refinement.Recurrence
import PimDm.Property.Heartbeat
import PimDm.Foundation.Verdict
import PimDm.Refinement.Progress
import PimDm.Refinement.BufferWalks
import PimDm.Property.Faults
import PimDm.Property.Interoperation
import PimDm.Property.QuerierLan
import PimDm.Foundation.Lease
import PimDm.Routing.Copies
import PimDm.Refinement.Upkeep
import PimDm.Property.SoftState
import PimDm.Property.SilentNeighbors
