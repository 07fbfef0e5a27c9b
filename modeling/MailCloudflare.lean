import MailCloudflare.Base.Transition
import MailCloudflare.Base.Keyed
import MailCloudflare.Base.Unicode
import MailCloudflare.Base.JavaScript
import MailCloudflare.Base.Python
import MailCloudflare.Base.Percent
import MailCloudflare.Base.Rfc5322
import MailCloudflare.Base.Snapshot
import MailCloudflare.Base.Dict
import MailCloudflare.Base.Trim
import MailCloudflare.Base.Radix
import MailCloudflare.Base.Program
import MailCloudflare.Base.Base64
import MailCloudflare.Base.PythonValues
import MailCloudflare.Base.Json
import MailCloudflare.Base.Url
import MailCloudflare.Base.Retry
import MailCloudflare.Worker.Backoff
import MailCloudflare.Worker.Config
import MailCloudflare.Worker.Rfc822
import MailCloudflare.Worker.Sign
import MailCloudflare.Worker.Ulid
import MailCloudflare.Worker.Inbox
import MailCloudflare.Worker.Deliver
import MailCloudflare.Worker.World
import MailCloudflare.Worker.Step
import MailCloudflare.Worker.Http
import MailCloudflare.Worker.Ops
import MailCloudflare.Worker.Served
import MailCloudflare.Odoo.Prepare
import MailCloudflare.Odoo.Signature
import MailCloudflare.Odoo.Inbound
import MailCloudflare.Odoo.Recipients
import MailCloudflare.Odoo.Headers
import MailCloudflare.Odoo.Content
import MailCloudflare.Odoo.Payload
import MailCloudflare.Odoo.Session
import MailCloudflare.Odoo.Servers
import MailCloudflare.Odoo.Webhook
import MailCloudflare.Odoo.MailServer
import MailCloudflare.Deployment.Network
import MailCloudflare.Deployment.Answer
import MailCloudflare.Proofs.Queue
import MailCloudflare.Proofs.Step
import MailCloudflare.Proofs.Frame
import MailCloudflare.Proofs.RowChange
import MailCloudflare.Proofs.RowInvariant
import MailCloudflare.Proofs.Alarm
import MailCloudflare.Proofs.InFlight
import MailCloudflare.Proofs.NoLoss
import MailCloudflare.Proofs.Purge
import MailCloudflare.Proofs.Accounting
import MailCloudflare.Proofs.Spin
import MailCloudflare.Proofs.Starvation
import MailCloudflare.Proofs.Signature
import MailCloudflare.Proofs.Dedup
import MailCloudflare.Proofs.Envelope
import MailCloudflare.Proofs.Prepare
import MailCloudflare.Proofs.Recipients
import MailCloudflare.Proofs.Headers
import MailCloudflare.Proofs.References
import MailCloudflare.Proofs.HeaderValues
import MailCloudflare.Proofs.Ulid
import MailCloudflare.Proofs.Timestamps
import MailCloudflare.Proofs.Ops
import MailCloudflare.Proofs.Credentials
import MailCloudflare.Proofs.Content
import MailCloudflare.Proofs.Session
import MailCloudflare.Proofs.Failures
import MailCloudflare.Proofs.Reached
import MailCloudflare.Proofs.Answers
import MailCloudflare.Proofs.Arrival
import MailCloudflare.Proofs.Logged
import MailCloudflare.Proofs.Provenance
import MailCloudflare.Proofs.Delivery
import MailCloudflare.Proofs.Recorded
import MailCloudflare.Proofs.Rejection
import MailCloudflare.Proofs.Retention
import MailCloudflare.Proofs.Recovery
import MailCloudflare.Proofs.Pacing
import MailCloudflare.Proofs.Wire
import MailCloudflare.Proofs.Webhook
import MailCloudflare.Proofs.Confirm
import MailCloudflare.Proofs.Outbound
import MailCloudflare.Proofs.ConnectionTest
import MailCloudflare.Proofs.Served
