import VersionedSite.Bundle.Build
import VersionedSite.Http.Sending
import VersionedSite.Log.Line
import VersionedSite.Proofs.OrderedMap
import VersionedSite.Proofs.Store.Listing
import VersionedSite.Proofs.Store.Additions
import VersionedSite.Proofs.Store.Assigned
import VersionedSite.Proofs.Store.Contents
import VersionedSite.Proofs.Store.Evolution
import VersionedSite.Proofs.Service.Outcome
import VersionedSite.Proofs.Service.History
import VersionedSite.Proofs.Service.Interleaving
import VersionedSite.Proofs.Service.Allocation
import VersionedSite.Proofs.Service.Writer
import VersionedSite.Proofs.Service.Account
import VersionedSite.Proofs.Service.Serialization
import VersionedSite.Proofs.Imports.Walk
import VersionedSite.Proofs.Include.Directive
import VersionedSite.Proofs.Include.Evaluation
import VersionedSite.Proofs.Include.Limits
import VersionedSite.Proofs.Include.Replacement
import VersionedSite.Proofs.Text.Lowercase
import VersionedSite.Proofs.Path
import VersionedSite.Proofs.Destination
import VersionedSite.Proofs.PendingSaves
import VersionedSite.Proofs.Service.Fitness
import VersionedSite.Proofs.Service.Ownership
import VersionedSite.Proofs.Http.Exchange
import VersionedSite.Proofs.Service.Composition
import VersionedSite.Proofs.Http.Ownership
import VersionedSite.Proofs.Service.Publishing
import VersionedSite.Proofs.Http.Publication
import VersionedSite.Proofs.Service.Reliance
import VersionedSite.Proofs.Service.Immutability
import VersionedSite.Proofs.Quota.Limiter
import VersionedSite.Proofs.Service.Failure
import VersionedSite.Proofs.Number.Rounding
import VersionedSite.Proofs.Clock
import VersionedSite.Proofs.Service.Repetition
import VersionedSite.Proofs.Bundle.Snapshot
import VersionedSite.Proofs.Quota.Agreement
import VersionedSite.Proofs.Json.Reading
import VersionedSite.Proofs.Number.Exact
import VersionedSite.Proofs.PreviewToken
import VersionedSite.Proofs.Service.Filled
import VersionedSite.Proofs.Service.Rendering
import VersionedSite.Proofs.Http.Preview
import VersionedSite.Proofs.Http.Shell
import VersionedSite.Proofs.Quota.Traffic
import VersionedSite.Proofs.Service.Turns
import VersionedSite.Proofs.Service.FirstOwner
import VersionedSite.Proofs.Service.Retention
import VersionedSite.Proofs.Service.Entry
import VersionedSite.Proofs.Imports.Distance
import VersionedSite.Proofs.Include.Degradation
import VersionedSite.Proofs.Imports.Components
import VersionedSite.Proofs.Imports.Confinement
import VersionedSite.Proofs.PreviewToken.Refusal
import VersionedSite.Proofs.Quota.Admission
import VersionedSite.Proofs.Markup.Stability
import VersionedSite.Proofs.Markup.Closing
import VersionedSite.Proofs.Quota.Independence
import VersionedSite.Proofs.PendingSaves.Lookup
import VersionedSite.Proofs.Service.Precedence
import VersionedSite.Proofs.Markup.Enclosure
import VersionedSite.Proofs.Markup.Changes
import VersionedSite.Proofs.Bundle.Sandbox
import VersionedSite.Proofs.Bundle.Complaint
import VersionedSite.Proofs.Distinct
import VersionedSite.Proofs.Imports.Lookup
import VersionedSite.Proofs.Imports.Extraction
import VersionedSite.Proofs.Service.Warning
