/-
The two ends of a deployment, and the network between them.

The Worker and Odoo each do what their own model says.  The network may lose a POST, hand
it over long after the Worker has given up on it, hand it over more than once, and lose or
replace the answer; and anybody may POST to the webhook.  So requests come to Odoo as they
please, and what an answer says is the network's to choose.  The one thing asked of it is
that a 2xx is not made up on the way (`Relays`): a proxy that cannot reach Odoo
answers with something else.
-/
import MailCloudflare.Odoo.Webhook
import MailCloudflare.Worker.Step

namespace MailCloudflare

open Unicode JavaScript Python

/-! ### A request on the wire -/

/-- HTTP whitespace, which `fetch` takes off both ends of a header value. -/
def isHttpSpace (c : Char) : Bool := c = '\t' || c = '\n' || c = '\r' || c = ' '

/-- How the path of a URL is routed: the `<string:key>` of the webhook's route. -/
structure Network where
  webhookKey : Units → Str

/-- The URL is split and its path routed; no other path leads to the handler. -/
def routedNetwork : Network where
  webhookKey := fun url =>
    ((urlsplit (fun _ => true) (charactersOf url)).bind fun parts => routedKey parts.path).getD []

/-- A request of the Worker as Odoo's handler finds it. -/
def Network.arrival (network : Network) (request : Request) : InboundRequest where
  key := network.webhookKey request.url
  headers := request.headers.map fun header =>
    (headerText header.1, stripBy isHttpSpace (headerText header.2))
  body := request.body

/-! ### Both ends -/

structure Deployment where
  worker : World
  odoo : OdooWorld

def Deployment.init : Deployment := ⟨.init, .init⟩

inductive DeploymentAction
  | worker (a : Action)
  | odoo (a : OdooAction)

def deploymentStep (env : Worker) (odoo : Odoo) (d : Deployment) :
    DeploymentAction → Option Deployment
  | .worker a => (step env d.worker a).map fun w => { d with worker := w }
  | .odoo a => (odooStep odoo d.odoo a).map fun w => { d with odoo := w }

/-- The request the Worker has POSTed last. -/
def lastPosted : List Event → Option Request
  | [] => none
  | .posted _ _ request :: _ => some request
  | _ :: rest => lastPosted rest

/-- A status in `which` that reaches the Worker is the answer Odoo has given to the request. -/
def Relays (network : Network) (which : Nat → Prop) (d : Deployment) : DeploymentAction → Prop
  | .worker (.fetched (.response status) _) => which status →
      ∃ request ∈ lastPosted d.worker.history, ∃ answer ∈ d.odoo.answers,
        answer.request = network.arrival request ∧ answer.response.status = status
  | _ => True

/-- The statuses that say a message has been delivered. -/
def IsSuccess (status : Nat) : Prop := 200 ≤ status ∧ status < 300

instance : DecidablePred IsSuccess := fun status =>
  inferInstanceAs (Decidable (200 ≤ status ∧ status < 300))

end MailCloudflare
