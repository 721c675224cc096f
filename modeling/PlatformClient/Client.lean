/-
  Clients, and how one is built.

  A client (`HyperClient`) is a configuration and a service.  A builder (`HyperClientBuilder`)
  collects settings, layers, and whether the default layers are wanted; then the service is, from the
  inside out,

  1. the transport for the configuration,
  2. the default layers if they are wanted — logging of summaries —
  3. the layers added, in the order they were added, so that the last one is the outermost.

  When the builder was told what does not matter: settings, layers and the wish for defaults do not
  depend on each other.
-/
import PlatformClient.Config
import PlatformClient.Service
import PlatformClient.Url.Parser

namespace PlatformClient

/-! ## Calls -/

namespace Service

/-- Send a request and map the response (`execute_mapped`). -/
def callMapped (s : Service) (request : Request) (m : Mapper) : Run Response := do
  let response ← s.call request
  m.map response

/-- A URL in writing, as a run. -/
def parseUrl (url : String) : Run Url := Run.of ((Url.parse url).mapError Error.invalidUrl)

/-- Get what a URL names. -/
def get (s : Service) (url : String) : Run Response := do
  let url ← parseUrl url
  s.call (.new .get url)

/-- Delete what a URL names. -/
def delete (s : Service) (url : String) : Run Response := do
  let url ← parseUrl url
  s.call (.new .delete url)

/-- Post a payload, as JSON, to a URL. -/
def postJson (s : Service) (url : String) (p : Json.Payload) : Run Response := do
  let url ← parseUrl url
  let request ← Run.of ((Request.new .post url).json p)
  s.call request

end Service

/-! ## Clients -/

/-- A client: always ready, whatever its layers say. -/
structure Client where
  config : Config
  stack : Service

namespace Client

/-- The client as a service (`execute`). -/
def service (c : Client) : Service := { ready := .ok (), call := c.stack.call }

/-- The client without any layer. -/
def ofConfig (transport : Config → Service) (config : Config) : Client :=
  ⟨config, transport config⟩

/-- A client in writing. -/
def describe (c : Client) : String := "HyperClient \x7b config: " ++ c.config.describe ++ ", .. \x7d"

end Client

/-! ## Builders -/

/-- What a client is to be built from. -/
structure Builder where
  settings : Settings
  layers : List Layer
  defaults : Bool

namespace Builder

/-- A step of a builder: one of the calls that are chained on it. -/
inductive Step where
  | set (s : Setting)
  | layer (l : Layer)
  | defaults (wanted : Bool)

/-- The builder before any step. -/
def new : Builder := ⟨.none, [], false⟩

/-- Take a step. -/
def step (b : Builder) : Step → Builder
  | .set s => { b with settings := b.settings.set s }
  | .layer l => { b with layers := b.layers ++ [l] }
  | .defaults wanted => { b with defaults := wanted }

/-- The builder after steps. -/
def ofSteps (steps : List Step) : Builder := steps.foldl step new

/-- The layers that every client gets if its builder is told so; the clock is that of the layer
    which logs. -/
def defaultLayers (clock : Clock) : List Layer := [.logging (.summary clock)]

/-- All layers, the innermost first. -/
def stack (clock : Clock) (b : Builder) : List Layer :=
  (if b.defaults then defaultLayers clock else []) ++ b.layers

/-- Build the client: a transport for its configuration, behind its layers. -/
def build (transport : Config → Service) (clock : Clock) (b : Builder) : Client :=
  let config := b.settings.config
  ⟨config, (transport config).behind (b.stack clock)⟩

/-- A builder in writing. -/
def describe (b : Builder) : String :=
  describeRecord "HyperClientBuilder" [
    ("config", b.settings.describe),
    ("layers_count", Nat.repr b.layers.length),
    ("use_defaults", if b.defaults then "true" else "false")]

end Builder

end PlatformClient
