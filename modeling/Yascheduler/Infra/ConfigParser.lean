import Yascheduler.Codec.Interpolation
import Yascheduler.Codec.Text
import Yascheduler.Domain
import Yascheduler.Infra.Providers.Azure
import Yascheduler.Store.Dict

/-!
# The clouds of the configuration

All providers share the section `[clouds]`: an option belongs to the provider
that its name begins with. What a provider can be told is a table of fields,
each with its kind and its default, and of the intervals its numbers have to be
in.

The providers that are mentioned are a set, so the order in which they are
visited is not determined; here it is an argument. The section is what
`ConfigParser` has read: its options in lower case, with the values as they
stand in the file. They are interpolated whenever one is read, so a value that
nobody reads may be malformed, and the user name that is inherited, which is
written into the section first, is checked when it is written and interpolated
when it is read. `float`, `str` of a float, `str.lower` and the files are those
of Python.
-/

namespace Yascheduler.ConfigParser

open Store

/-! ## Fields

An option that is missing gives its field the default, and a field without a
default is required. What an option means that is there and empty depends on
the kind: it is a text like any other, but a required field takes it for
missing, and no number is read from it. -/

/-- A `float`. The comparisons of the intervals let a `nan` through, which is why it
has a place here. -/
inductive Number where
  | nan
  | inf (positive : Bool)
  | rat (q : Rat)
deriving DecidableEq

/-- The value of a field. Its kind decides which of them it is. -/
inductive Value where
  | none
  | str (s : String)
  | int (n : Int)
  | float (x : Number)
  | bool (b : Bool)
  | image (reference : Azure.ImageReference)
deriving DecidableEq

/-- What the parser uses of Python: `float(s)`, `str(x)`, `s.lower()`, and the texts
of files, if there are any. Nothing is assumed of them but what a result says. -/
structure Env where
  float : String → Option Number
  lower : String → String
  showFloat : Number → String
  file : String → Option (Except String String)

/-- The type of a field and its default. A field without a default is required, and
may not be empty. -/
inductive Kind where
  | required
  | text (default : Option String)
  | int (default : Int)
  | float (default : Rat)
  | bool (default : Bool)
  | image
  | script
deriving DecidableEq

/-- `BOOLEAN_STATES`. -/
def booleanStates : Dict String Bool :=
  [("1", true), ("yes", true), ("true", true), ("on", true), ("0", false), ("no", false),
    ("false", false), ("off", false)]

/-- `AzureImageReference.from_urn`. -/
def fromUrn (urn : String) : Except String Azure.ImageReference :=
  match urn.toList.splitOn ':' with
  | [publisher, offer, sku, version] =>
    .ok { publisher := String.ofList publisher
          offer := String.ofList offer
          sku := String.ofList sku
          version := String.ofList version }
  | _ :: _ :: _ :: _ :: _ => .error "AzureImageReference() takes 4 arguments"
  | _ => .error "`Image reference URN should be in format publisher:offer:sku:version"

/-- One turn of the loop of `_read_fields`, with `_require_str`,
`_coerce_azure_image` and `_coerce_onstart_script`. The error names the option and
not the field. -/
def readField (env : Env) (key : String) (value : Option String) : Kind → Except String Value
  | .required =>
    if value.getD "" = "" then .error (key ++ " is required") else .ok (.str (value.getD ""))
  | .text default =>
    .ok (match value.or default with
      | some s => .str s
      | none => .none)
  | .int default =>
    match value with
    | none => .ok (.int default)
    | some s =>
      match Text.int s.toList with
      | some n => .ok (.int n)
      | none => .error "invalid literal for int()"
  | .float default =>
    match value with
    | none => .ok (.float (.rat default))
    | some s =>
      match env.float s with
      | some x => .ok (.float x)
      | none => .error "could not convert string to float"
  | .bool default =>
    match value with
    | none => .ok (.bool default)
    | some s =>
      match booleanStates.get (env.lower s) with
      | some b => .ok (.bool b)
      | none => .error ("Not a boolean: " ++ s)
  | .image =>
    if value.getD "" = "" then .ok (.image {}) else (fromUrn (value.getD "")).map .image
  | .script =>
    if value.getD "" = "" then .ok .none
    else
      match env.file (value.getD "") with
      | none =>
        .error (key ++ " must be a readable file path or empty, got " ++ value.getD "")
      | some text => text.map .str

/-! ## Intervals

An interval may be open on one side. The comparisons are the ones of the
source, two separate ones with `<` and `>`, and a value that is no number
passes both of them. -/

/-- `value < bottom`. A `nan` is not below anything, -/
def Value.below (bottom : Int) : Value → Bool
  | .int n => n < bottom
  | .float (.rat q) => q.blt (Rat.ofInt bottom)
  | .float (.inf positive) => !positive
  | _ => false

/-- `value > top`. It is not above anything either. -/
def Value.above (top : Int) : Value → Bool
  | .int n => top < n
  | .float (.rat q) => (Rat.ofInt top).blt q
  | .float (.inf positive) => positive
  | _ => false

/-- The text of a number, for the message. -/
def Value.text (env : Env) : Value → String
  | .int n => toString n
  | .float x => env.showFloat x
  | _ => ""

/-- A field with its interval. Without an upper bound the interval is open. -/
structure Check where
  field : String
  bottom : Int
  top : Option Int := none
deriving DecidableEq

/-- `validate_interval`. The lower bound is checked first. -/
def validateInterval (env : Env) (name : String) (value : Value) (bottom : Int)
    (top : Option Int) : Except String Unit :=
  if value.below bottom then
    .error (name ++ " must be >= " ++ toString bottom ++ ", got " ++ value.text env)
  else
    match top with
    | none => .ok ()
    | some top =>
      if value.above top then
        .error (name ++ " must be <= " ++ toString top ++ ", got " ++ value.text env)
      else .ok ()

/-! ## Providers

The providers are data. Each has its fields and its intervals, and what differs
between them beyond that is one flag. The options keep the names of earlier
versions where they had others. -/

/-- `_CloudSpec`: the fields of the configuration, its intervals, and whether the
user may be root. The providers differ in nothing else, so there is one parser for
all. -/
structure CloudSpec where
  fields : List (String × Kind)
  checks : List Check
  bansRoot : Bool := false

/-- `MAX_PORT`. -/
def maxPort : Int := 65535

/-- `ConfigCloudAzure`. -/
def configCloudAzure : CloudSpec where
  fields :=
    [("tenant_id", .required), ("client_id", .required), ("client_secret", .required),
      ("subscription_id", .required), ("resource_group", .text "yascheduler-rg"),
      ("location", .text "westeurope"), ("vnet", .text "yascheduler-vnet"),
      ("subnet", .text "yascheduler-subnet"), ("nsg", .text "yascheduler-nsg"),
      ("vm_image", .image), ("vm_size", .text "Standard_B1s"), ("max_nodes", .int 10),
      ("username", .text "yascheduler"), ("priority", .int 0), ("idle_tolerance", .int 300),
      ("connect_grace", .int 120), ("package_upgrade", .bool true),
      ("jump_username", .text none), ("jump_host", .text none), ("jump_port", .int 22),
      ("label", .text "yascheduler")]
  checks :=
    [{ field := "max_nodes", bottom := 0 }, { field := "idle_tolerance", bottom := 1 },
      { field := "connect_grace", bottom := 1 },
      { field := "jump_port", bottom := 1, top := maxPort }]
  bansRoot := true

/-- `ConfigCloudHetzner`. -/
def configCloudHetzner : CloudSpec where
  fields :=
    [("token", .required), ("max_nodes", .int 10), ("username", .text "root"),
      ("priority", .int 0), ("server_type", .text "cx52"), ("location", .text "fsn1"),
      ("image_name", .text "debian-13"), ("idle_tolerance", .int 120),
      ("connect_grace", .int 60), ("package_upgrade", .bool true),
      ("jump_username", .text none), ("jump_host", .text none), ("jump_port", .int 22),
      ("label", .text "yascheduler")]
  checks :=
    [{ field := "max_nodes", bottom := 0 }, { field := "idle_tolerance", bottom := 1 },
      { field := "connect_grace", bottom := 1 },
      { field := "jump_port", bottom := 1, top := maxPort }]

/-- `ConfigCloudUpcloud`. -/
def configCloudUpcloud : CloudSpec where
  fields :=
    [("login", .required), ("password", .required), ("max_nodes", .int 10),
      ("username", .text "root"), ("priority", .int 0), ("idle_tolerance", .int 120),
      ("connect_grace", .int 60), ("package_upgrade", .bool true),
      ("jump_username", .text none), ("jump_host", .text none), ("jump_port", .int 22),
      ("label", .text "yascheduler")]
  checks :=
    [{ field := "max_nodes", bottom := 0 }, { field := "idle_tolerance", bottom := 1 },
      { field := "connect_grace", bottom := 1 },
      { field := "jump_port", bottom := 1, top := maxPort }]

/-- `ConfigCloudVastAI`. -/
def configCloudVastAI : CloudSpec where
  fields :=
    [("api_key", .required), ("image", .text "pytorch/pytorch:2.2.2-cuda12.1-cudnn8-devel"),
      ("disk_gb", .int 80), ("min_vram_mb", .int 81920), ("num_gpus", .int 1),
      ("max_price_per_hr", .float (3 / 2)), ("max_nodes", .int 10), ("priority", .int 0),
      ("idle_tolerance", .int 300), ("connect_grace", .int 300), ("package_upgrade", .bool true),
      ("onstart_script", .script), ("docker_options", .text none), ("jump_username", .text none),
      ("jump_host", .text none), ("jump_port", .int 22), ("label", .text "yascheduler")]
  checks :=
    [{ field := "disk_gb", bottom := 1 }, { field := "min_vram_mb", bottom := 1024 },
      { field := "num_gpus", bottom := 1 }, { field := "max_price_per_hr", bottom := 0 },
      { field := "max_nodes", bottom := 0 }, { field := "idle_tolerance", bottom := 1 },
      { field := "connect_grace", bottom := 1 },
      { field := "jump_port", bottom := 1, top := maxPort }]

/-- `ConfigCloudVultr`. -/
def configCloudVultr : CloudSpec where
  fields :=
    [("api_key", .required), ("location", .text "ams"),
      ("server_type", .text "vbm-24c-256gb-amd"), ("image_name", .int 2136),
      ("need_raid", .bool true), ("max_nodes", .int 10), ("username", .text "root"),
      ("priority", .int 0), ("idle_tolerance", .int 1800), ("connect_grace", .int 300),
      ("package_upgrade", .bool true), ("jump_username", .text none),
      ("jump_host", .text none), ("jump_port", .int 22), ("label", .text "yascheduler")]
  checks :=
    [{ field := "image_name", bottom := 1 }, { field := "max_nodes", bottom := 0 },
      { field := "idle_tolerance", bottom := 1 }, { field := "connect_grace", bottom := 1 },
      { field := "jump_port", bottom := 1, top := maxPort }]

/-- `_CLOUD_SPECS`. -/
def cloudSpecs : Dict String CloudSpec :=
  [("az", configCloudAzure), ("hetzner", configCloudHetzner), ("upcloud", configCloudUpcloud),
    ("vastai", configCloudVastAI), ("vultr", configCloudVultr)]

/-- `_CLOUD_ALIASES`. -/
def cloudAliases : Dict String String :=
  [("username", "user"), ("jump_username", "jump_user"), ("vm_size", "size"),
    ("vm_image", "image")]

/-- The option of a field. Some options have an older name than the field. -/
def optionOf (provider field : String) : String :=
  provider ++ "_" ++ (cloudAliases.get field).getD field

/-! ## The section

A provider counts as mentioned if some option begins with its name, whatever
the rest of the option is. The section may name a user for all of them, which
is inherited where a provider has none of its own. It is written into the
section for that, through the same parser, and so it has to be a value that
this parser accepts. -/

/-- A configuration of a provider that was parsed. It is a mapping here, because the
providers are data. -/
structure ConfigCloud where
  provider : String
  values : Dict String Value
deriving DecidableEq

/-- An integer of a configuration. -/
def ConfigCloud.int (c : ConfigCloud) (field : String) : Int :=
  match c.values.get field with
  | some (.int n) => n
  | _ => 0

/-- What the scheduling core reads of it. Where a field is missing it is zero, but
the parser has filled in all of them. -/
def ConfigCloud.config (c : ConfigCloud) : CloudConfig where
  name := c.provider
  maxNodes := c.int "max_nodes"
  idleTolerance := (c.int "idle_tolerance").toNat
  connectGrace := (c.int "connect_grace").toNat
  priority := c.int "priority"

/-- The error of an interpolation. -/
def interpolationError : Interpolation.Error → String
  | .depth => "InterpolationDepthError"
  | .missing name => "InterpolationMissingOptionError: " ++ String.ofList name
  | .malformed => "InterpolationSyntaxError"

/-- `sec.get(key)`, of a section with these values. The value is interpolated when
it is read, and not when the file is. -/
def getOption (env : Env) (raw : String → Option String) (key : String) :
    Except String (Option String) :=
  match raw key with
  | none => .ok none
  | some v =>
    let lookup := fun name => (raw (env.lower (String.ofList name))).map (·.toList)
    match Interpolation.interpolate lookup Interpolation.maxDepth v.toList with
    | .ok s => .ok (some (String.ofList s))
    | .error e => .error (interpolationError e)

/-- `_read_fields`, of a section. -/
def readFields (env : Env) (get : String → Except String (Option String)) (provider : String)
    (fields : List (String × Kind)) : Except String (Dict String Value) :=
  fields.mapM fun f => do
    let value ← get (optionOf provider f.1)
    let v ← readField env (optionOf provider f.1) value f.2
    return (f.1, v)

/-- `__post_init__`: the intervals, in the order of the source, up to the first that
a value lies outside of. -/
def postInit (env : Env) (c : ConfigCloud) (checks : List Check) : Except String Unit :=
  checks.forM fun k =>
    validateInterval env (c.provider ++ "_" ++ k.field) ((c.values.get k.field).getD .none)
      k.bottom k.top

/-- **`parse_cloud_section`.** The fields are read before any interval is looked at,
so a number that cannot be read is reported first. -/
def parseCloudSection (env : Env) (get : String → Except String (Option String))
    (provider : String) (spec : CloudSpec) : Except String ConfigCloud := do
  let values ← readFields env get provider spec.fields
  postInit env { provider := provider, values := values } spec.checks
  return { provider := provider, values := values }

/-- The option that names the user. -/
def userKey (provider : String) : String := provider ++ "_user"

/-- `_ban_root_user`. It is asked before a user is inherited, so of the one in the
section. -/
def banRootUser (env : Env) (sec : Dict String String) (provider : String) :
    Except String Unit := do
  let user ← getOption env sec.get (userKey provider)
  if user = some "root" then .error "Root user is forbidden on Azure" else .ok ()

/-- `pre_check`. -/
def preCheck (env : Env) (sec : Dict String String) (provider : String) (spec : CloudSpec) :
    Except String Unit :=
  if spec.bansRoot then banRootUser env sec provider else .ok ()

/-- The user is inherited, unless there is one. The parser of the file refuses a
name with a stray percent sign when it is set, and interpolates the others when they
are read. -/
def inheritUser (username : String) (sec : Dict String String) (provider : String) :
    Except String (Dict String String) :=
  if (sec.get (userKey provider)).isSome then .ok sec
  else if Interpolation.settable username.toList then
    .ok (sec.set (userKey provider) username)
  else .error ("invalid interpolation syntax in " ++ username)

/-- What the name of an option begins with. -/
def providerOf (name : String) : String := String.ofList (name.toList.takeWhile (· ≠ '_'))

/-- The providers that are mentioned. -/
def cloudPrefixes (sec : Dict String String) : List String :=
  (sec.map fun e => providerOf e.1).dedup

/-- The mentioned providers that are known. The others are passed over. -/
def knownClouds (order : List String) : List (String × CloudSpec) :=
  order.filterMap fun provider => (cloudSpecs.get provider).map fun spec => (provider, spec)

/-- **`parse_clouds`**, with the order in which the set of the providers is
iterated. -/
def parseClouds (env : Env) (sec : Dict String String) (username : String)
    (order : List String) : Except String (List ConfigCloud) := do
  (knownClouds order).forM fun e => preCheck env sec e.1 e.2
  let inherited ← order.foldlM (inheritUser username) sec
  (knownClouds order).mapM fun e => parseCloudSection env (getOption env inherited.get) e.1 e.2

end Yascheduler.ConfigParser
