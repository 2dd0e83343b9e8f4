import Yascheduler.Application.ManageNode
import Yascheduler.Async.Trace
import Yascheduler.Infra.Providers.Hetzner
import Yascheduler.Infra.Providers.UpcloudCreation
import Yascheduler.Infra.Providers.VastAI
import Yascheduler.Infra.Providers.Vultr

/-!
# The adapters

An adapter calls the creation of its provider with the configuration of that
provider. The five configurations have the jump host of their machines in
common, and so do the remote defaults.

The machines of a cloud may only be reachable over a jump host. Three fields tell
which, and there are two places they can come from. That all three come from the
same place is not enforced by any type: each adapter copies them one by one.
-/

namespace Yascheduler

open Async

/-- `jump_host`, `jump_port` and `jump_username` of a configuration. The clouds and
the remote defaults have the same three. -/
structure JumpConfig where
  host : Option String
  port : Nat
  username : Option String
deriving DecidableEq

/-- The three fields as a node has them. A node always has a port and a username,
with or without a jump host. -/
structure JumpFields where
  host : Option String
  port : Nat
  username : String
deriving DecidableEq

/-- The fields that this configuration gives to a node. A missing username, and an
empty one as well, is `root`. -/
def JumpConfig.fields (c : JumpConfig) : JumpFields :=
  { host := c.host, port := c.port, username := strOr c.username "root" }

/-- The configuration sets both the host and the username. With only one of them it
is half-set. -/
def JumpConfig.isSet (c : JumpConfig) : Bool := strOr c.host "" ≠ "" ∧ strOr c.username "" ≠ ""

def CloudCreateNodeDTO.jumpFields (dto : CloudCreateNodeDTO) : JumpFields :=
  { host := dto.jumpHost, port := dto.jumpPort, username := dto.jumpUsername }

def Node.jumpFields (node : Node) : JumpFields :=
  { host := node.jumpHost, port := node.jumpPort, username := node.jumpUsername }

/-- The remote defaults. -/
def Settings.jumpConfig (cfg : Settings) : JumpConfig :=
  { host := cfg.jumpHost, port := cfg.jumpPort, username := cfg.jumpUsername }

/-- `ConfigCloud`. Each adapter reads a configuration of its own type, with the
three fields in it. -/
inductive ConfigCloud where
  | azure (cfg : Azure.Config)
  | hetzner (cfg : Http.Hetzner.Config)
  | upcloud (cfg : Upcloud.Creation.Config)
  | vastai (cfg : Http.VastAI.Config)
  | vultr (cfg : Http.Vultr.Config)

namespace ConfigCloud

def jumpConfig : ConfigCloud → JumpConfig
  | azure cfg => { host := cfg.jumpHost, port := cfg.jumpPort, username := cfg.jumpUsername }
  | hetzner cfg => { host := cfg.jumpHost, port := cfg.jumpPort, username := cfg.jumpUsername }
  | upcloud cfg => { host := cfg.jumpHost, port := cfg.jumpPort, username := cfg.jumpUsername }
  | vastai cfg => { host := cfg.jumpHost, port := cfg.jumpPort, username := cfg.jumpUsername }
  | vultr cfg => { host := cfg.jumpHost, port := cfg.jumpPort, username := cfg.jumpUsername }

/-- **`create_node`** of the adapter can return this. What the provider answers on
the way is left open, so it is a relation. -/
def Creates : ConfigCloud → CloudCreateNodeDTO → Prop
  | azure cfg, dto =>
    ∃ cloudConfig tr, Finishes (Azure.createNode cfg cloudConfig) tr (.ok dto)
  | hetzner cfg, dto =>
    ∃ second fuel tr, Finishes (Http.Hetzner.createNode cfg second fuel) tr (.ok dto)
  | upcloud cfg, dto =>
    ∃ cloudConfig tr, Finishes (Upcloud.Creation.createNodeSync cfg cloudConfig) tr (.ok dto)
  | vastai cfg, dto => ∃ cloudConfig second fuel tr,
    Finishes (Http.VastAI.createNode cfg cloudConfig second fuel) tr (.ok dto)
  | vultr cfg, dto =>
    ∃ second fuel tr, Finishes (Http.Vultr.createNode cfg second fuel) tr (.ok dto)

end ConfigCloud

end Yascheduler
