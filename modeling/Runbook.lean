import Runbook.Delay
import Runbook.Document.Reader
import Runbook.Log.Setup
import Runbook.Proofs.Capacity
import Runbook.Proofs.Permission
import Runbook.Proofs.Refinement
import Runbook.Proofs.Requests
import Runbook.Proofs.Shutdown
import Runbook.Rehearsal.Transcript
import Runbook.Rehearsal.Trick
import Runbook.Site
import Runbook.Step.Record
import Runbook.Web.Interface
import Runbook.Proofs.Itinerary
import Runbook.Proofs.Progress
import Runbook.Proofs.Headway
import Runbook.Proofs.Cancellation
import Runbook.Proofs.Verdict
import Runbook.Proofs.Editing
import Runbook.Proofs.Coherence
import Runbook.Proofs.Containment
import Runbook.Proofs.Isolation
import Runbook.Proofs.Decisions
import Runbook.Proofs.Provenance
import Runbook.Proofs.Lifecycle
import Runbook.Proofs.Malformed
import Runbook.Proofs.Confirmation
import Runbook.Proofs.Rejections
import Runbook.Proofs.Bystanders
import Runbook.Proofs.Broadcast
import Runbook.Proofs.Halting
import Runbook.Proofs.Statistics
import Runbook.Proofs.Enclosure
import Runbook.Proofs.Subscription
import Runbook.Proofs.Junction
import Runbook.Proofs.Rounds
import Runbook.Proofs.Recency
import Runbook.Proofs.Substitution
import Runbook.Proofs.Comparison
import Runbook.Proofs.Limits
import Runbook.Proofs.Grants
import Runbook.Proofs.Encoding
import Runbook.Proofs.Storing
import Runbook.Proofs.Spelling
import Runbook.Proofs.Display
import Runbook.Proofs.Waitlist
import Runbook.Proofs.Inventory
import Runbook.Proofs.Pauses
