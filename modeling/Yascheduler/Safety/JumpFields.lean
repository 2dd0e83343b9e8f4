import Yascheduler.Application.Reservation
import Yascheduler.Infra.CloudAdapters
import Yascheduler.Safety.Provisioning

/-!
# Where the jump host of a node comes from

A node is reached through a jump host, whose address, port and username belong
together: they are taken from the configuration of the cloud if it sets the host
and the username, and from the remote defaults otherwise.

Each provider answers with the three fields of its own configuration, complete
or not, and `allocate` copies them. The remote defaults are never looked at.

The three have to be taken from one place. A host with the username of another
host is no jump host at all, and a connection through it fails or, worse, reaches
a machine that was not meant. So the law is about the three fields together, and
a provider that answers with half of its own configuration and nothing else is
not excused by the half being right.

It is stated of what `allocate` returns, for every provider and every run in
which it does. What a provider answers with is what some run of its `create_node`
returns, so nothing is assumed of the adapters but their code.
-/

namespace Yascheduler

open Async Store

/-- Where the fields of a cloud node have to come from: all three from the cloud if
it sets a jump host with its user, and otherwise all three from the remote defaults.
-/
def jumpSource (cfg : Settings) (config : ConfigCloud) : JumpConfig :=
  if config.jumpConfig.isSet then config.jumpConfig else cfg.jumpConfig

/-- Every VM is created by its provider, under these configurations. It is the
provider's own program that creates it, with any answers. -/
def AnswersFrom (configs : String → ConfigCloud) (tr : Trace sig) : Prop :=
  ∀ a dto, .op (.createNode a) (.ok dto) ∈ tr → (configs a).Creates dto

/-! ## The providers

The five creations fill in their answer in five places, and each takes the
three fields of its own configuration as they are. They are looked at through
what they can return, whatever the provider answers on the way. -/

/-- A text that is empty counts as none. -/
theorem filter_getD_eq_strOr (x : Option String) (y : String) :
    (x.filter (· ≠ "")).getD y = strOr x y := by
  cases x with
  | none => rfl
  | some s =>
    show (Option.filter _ (some s)).getD y = if s = "" then y else s
    by_cases hs : s = ""
    · rw [if_pos hs, Option.filter_some_neg (by simpa using hs)]
      rfl
    · rw [if_neg hs, Option.filter_some_pos (by simpa using hs)]
      rfl

/-- What is returned has the fields of the configuration, whether or not they are
all set there. -/
def Stamps (c : JumpConfig) (dto : CloudCreateNodeDTO) : Prop := dto.jumpFields = c.fields

/-- It is enough to look at the three fields. -/
theorem stamps_of {c : JumpConfig} {dto : CloudCreateNodeDTO} (hhost : dto.jumpHost = c.host)
    (hport : dto.jumpPort = c.port)
    (husername : dto.jumpUsername = (c.username.filter (· ≠ "")).getD "root") : Stamps c dto := by
  rw [filter_getD_eq_strOr] at husername
  show JumpFields.mk _ _ _ = JumpFields.mk _ _ _
  rw [hhost, hport, husername]

theorem returns_azure (cfg : Azure.Config) (cloudConfig : Option Azure.CloudInitConfig) :
    Returns (Stamps (ConfigCloud.azure cfg).jumpConfig) (Azure.createNode cfg cloudConfig) :=
  returns_then fun _ => returns_then fun _ => returns_then fun _ => returns_then fun _ =>
    stamps_of rfl rfl rfl

theorem returns_hetzner (cfg : Http.Hetzner.Config) (second fuel : Nat) :
    Returns (Stamps (ConfigCloud.hetzner cfg).jumpConfig)
      (Http.Hetzner.createNode cfg second fuel) := by
  refine returns_then fun _ => returns_then fun _ => returns_asyncWith fun _ =>
    returns_then fun _ => returns_then fun _ => returns_then fun _ => returns_then fun server => ?_
  split
  · exact returns_then fun _ => trivial
  · exact stamps_of rfl rfl rfl

theorem returns_upcloud (cfg : Upcloud.Creation.Config)
    (cloudConfig : Option Azure.CloudInitConfig) :
    Returns (Stamps (ConfigCloud.upcloud cfg).jumpConfig)
      (Upcloud.Creation.createNodeSync cfg cloudConfig) :=
  returns_then fun _ => returns_then fun _ => returns_then fun _ => returns_then fun _ =>
    returns_then fun _ => returns_then fun _ => stamps_of rfl rfl rfl

theorem returns_vastai (cfg : Http.VastAI.Config) (cloudConfig : Option Azure.CloudInitConfig)
    (second fuel : Nat) :
    Returns (Stamps (ConfigCloud.vastai cfg).jumpConfig)
      (Http.VastAI.createNode cfg cloudConfig second fuel) :=
  returns_then fun _ => returns_then fun _ => stamps_of rfl rfl rfl

theorem returns_vultr (cfg : Http.Vultr.Config) (second fuel : Nat) :
    Returns (Stamps (ConfigCloud.vultr cfg).jumpConfig)
      (Http.Vultr.createNode cfg second fuel) := by
  refine returns_then fun _ => returns_then fun _ => returns_then fun _ =>
    returns_asyncWith fun _ => returns_then fun _ => returns_then fun _ => ?_
  refine returns_tryCatch ?_ fun _ => returns_then fun _ => trivial
  exact returns_then fun _ => returns_then fun _ => stamps_of rfl rfl rfl

/-- **Every provider stamps its own configuration**, half-set or not. The five
programs do so in five places. -/
theorem ConfigCloud.Creates.stamps {config : ConfigCloud} {dto : CloudCreateNodeDTO}
    (h : config.Creates dto) : Stamps config.jumpConfig dto := by
  cases config with
  | azure cfg =>
    obtain ⟨cloudConfig, _, h⟩ := h
    exact (returns_azure cfg cloudConfig).finishes h
  | hetzner cfg =>
    obtain ⟨second, fuel, _, h⟩ := h
    exact (returns_hetzner cfg second fuel).finishes h
  | upcloud cfg =>
    obtain ⟨cloudConfig, _, h⟩ := h
    exact (returns_upcloud cfg cloudConfig).finishes h
  | vastai cfg =>
    obtain ⟨cloudConfig, second, fuel, _, h⟩ := h
    exact (returns_vastai cfg cloudConfig second fuel).finishes h
  | vultr cfg =>
    obtain ⟨second, fuel, _, h⟩ := h
    exact (returns_vultr cfg second fuel).finishes h

/-! ## The provisioner

What `allocate` returns has the fields of the answer. So the law holds exactly
if the answer happens to agree with the source that was meant: if the cloud
sets both fields, or if its three fields are those of the defaults anyway. -/

/-- A node that is returned has the fields of an answer of its provider. Nothing is
put in their place afterwards. -/
theorem finishes_cloudsAllocate {cfg : Settings} {provider : String} {node node' : Node}
    {tr : Trace sig} (h : Finishes (cloudsAllocate cfg provider node) tr (.ok node')) :
    ∃ dto, .op (.createNode provider) (.ok dto) ∈ tr ∧ node'.jumpFields = dto.jumpFields := by
  unfold cloudsAllocate at h
  split at h
  · cases h.2
  · cases h.2
  · rename_i adapter config hadapter _
    obtain rfl : provider = adapter := Settings.adapters_name (Dict.mem_of_get hadapter)
    rcases finishes_asyncWith.mp h with ⟨_, he, -⟩ | ⟨_, r₀, tr₁, tr₂, tr₃, rx, rfl, -, hbody, -, hr⟩
    · cases he
    · have hr₀ : r₀ = .ok node' := by
        cases rx with
        | error e => cases hr
        | ok u => exact hr.symm
      subst hr₀
      obtain ⟨hcreated, -⟩ := finishes_createVm hbody
      cases hcreated with
      | @vm dto tr' _ =>
        refine ⟨dto, List.mem_append_right _ (List.mem_append_left _ ?_), rfl⟩
        exact List.mem_cons_of_mem _ List.mem_cons_self

/-- **The fields come from the right source** if the configuration of the cloud sets
both the host and the username, or is no different from the remote defaults;
otherwise they do not. -/
theorem jumpFields_eq_source_iff {cfg : Settings} {provider : String} {node node' : Node}
    {tr : Trace sig} {configs : String → ConfigCloud}
    (h : Finishes (cloudsAllocate cfg provider node) tr (.ok node'))
    (hanswers : AnswersFrom configs tr) :
    node'.jumpFields = (jumpSource cfg (configs provider)).fields ↔
      (configs provider).jumpConfig.isSet ∨
        (configs provider).jumpConfig.fields = cfg.jumpConfig.fields := by
  obtain ⟨dto, hdto, hnode⟩ := finishes_cloudsAllocate h
  have hstamps : dto.jumpFields = (configs provider).jumpConfig.fields :=
    (hanswers provider dto hdto).stamps
  rw [hnode, hstamps]
  unfold jumpSource
  by_cases hset : (configs provider).jumpConfig.isSet = true
  · rw [if_pos hset]
    exact ⟨fun _ => .inl hset, fun _ => rfl⟩
  · rw [if_neg hset]
    exact ⟨.inr, fun h => h.resolve_left hset⟩

/-! ## Two machines at UpCloud -/

namespace JumpHost

def tmp : Node := { nodeId := 1, enabled := false }

/-- The remote defaults have a jump host. -/
def settings : Settings :=
  { clouds := [{ name := "upcloud", maxNodes := 2 }]
    jumpHost := some "gate"
    jumpPort := 2222
    jumpUsername := some "jump" }

/-- The server that is asked for. -/
def server : Upcloud.Creation.ServerRequest :=
  { coreNumber := 8
    memoryAmount := 4096
    hostname := "yascheduler-abcdefgh"
    zone := "uk-lon1"
    storageDevices := [("Debian 10.0", 40)]
    loginUser := { username := "root", sshKeys := ["ssh-rsa AAAA"], createPassword := false }
    userData := none }

/-- The server is created. -/
def creation : Trace Upcloud.Creation.sig :=
  [.op (.sdk .getClient) (.ok ()), .call .exportPublicKey (.ok "ssh-rsa AAAA"),
    .call .rndLetters "abcdefgh",
    .op (.createServer server) (.ok { uuid := "u-1", publicIp := some "10.0.0.1" }),
    .call (.getPublicIp { uuid := "u-1", publicIp := some "10.0.0.1" }) (.ok (some "10.0.0.1"))]

/-- The configuration of the cloud has a jump host, and perhaps a username. -/
def config (username : Option String) : Upcloud.Creation.Config :=
  { jumpHost := some "bastion", jumpUsername := username }

/-- What `create_node` returns. -/
def dto (username : Option String) : CloudCreateNodeDTO :=
  Upcloud.Creation.created (config username) "10.0.0.1"

/-- The machine is set up. -/
def setup (username : Option String) : Trace sig :=
  [.op (.slotAcquire "upcloud") (.ok ()), .op .sshKey (.ok ()),
   .op (.createNode "upcloud") (.ok (dto username)), .op .listPrivateKeys (.ok ()),
   .op (.connectMachine (tmp.withVm (dto username) "upcloud")) (.ok ⟨1, 1⟩),
   .op (.setupNode ⟨1, 1⟩) (.ok ()), .call (.slotRelease "upcloud") ()]

def node (username : Option String) : Node :=
  { tmp.withVm (dto username) "upcloud" with enabled := true }

theorem finishes_setup (username : Option String) :
    Finishes (cloudsAllocate settings "upcloud" tmp) (setup username) (.ok (node username)) :=
  ⟨_, _, rfl, _, _, rfl, _, _, rfl, _, _, rfl, _, _, rfl, _, _, rfl, _, _, rfl, rfl, rfl⟩

theorem creates (username : Option String) :
    ConfigCloud.Creates (.upcloud (config username)) (dto username) :=
  ⟨none, creation, _, _, rfl, _, _, rfl, _, _, rfl, _, _, rfl, _, _, rfl, rfl, rfl⟩

theorem answersFrom_setup (username : Option String) :
    AnswersFrom (fun _ => .upcloud (config username)) (setup username) := by
  intro a d hd
  obtain ⟨-, rfl⟩ : a = "upcloud" ∧ d = dto username := by
    simpa [setup] using hd
  exact creates username

end JumpHost

/-- The cloud sets the host and the username. -/
theorem jumpFields_complete :
    (JumpHost.node (some "hop")).jumpFields = { host := some "bastion", port := 22, username := "hop" } :=
  (jumpFields_eq_source_iff (JumpHost.finishes_setup (some "hop"))
    (JumpHost.answersFrom_setup (some "hop"))).mpr (.inl (by decide))

/-- The cloud sets the host only: the node has it, with a username that comes from
neither configuration. -/
theorem not_jumpFields_incomplete : ∃ cfg provider node node' tr configs,
    Finishes (cloudsAllocate cfg provider node) tr (.ok node') ∧ AnswersFrom configs tr ∧
      node'.jumpFields ≠ (jumpSource cfg (configs provider)).fields :=
  ⟨_, _, _, _, _, _, JumpHost.finishes_setup none, JumpHost.answersFrom_setup none, by decide⟩

end Yascheduler
