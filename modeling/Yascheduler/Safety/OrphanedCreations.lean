import Yascheduler.Infra.Providers.Vultr
import Yascheduler.Safety.CreationLaw

/-!
# A failed creation leaves no orphan

Both providers reconcile a creation that fails, and each has a way of its own
to miss an instance.

A listing that is not of the shape the client expects is an error to both, and
so is the answer to the request. So an instance that is only ever told of in
such a response is found by neither, although its id was there to be read.

Hetzner misses more. Its clean-up says that it never raises, but nothing
catches what interrupts it; and when the request has returned a server without
an address, the id is dropped and the server looked for by its label, as if no
id were known. Vultr catches whatever its clean-up raises, and deletes by the
id that the request returned.
-/

namespace Yascheduler.Http

open Async

/-! ## The creations, without their clean-up

That the error of a creation is kept needs a notion of its own error: the one
that the same creation would raise on the same answers if it had no clean-up at
all. So the creations are written down a second time, without it. They are used
for nothing else. -/

namespace Hetzner

/-- What is sent to create a server. -/
def serverData (cfg : Config) (userData : String) (sshKeyId : Value) (label : String) : Value :=
  .dict [("name", .str label), ("server_type", .str cfg.serverType),
    ("image", .str cfg.imageName), ("ssh_keys", .list [sshKeyId]), ("user_data", .str userData),
    ("location", .str cfg.location), ("labels", .dict [(reconcileLabelKey, .str label)])]

/-- Creating the server, once the key is known. -/
def order (cfg : Config) (userData : String) (sshKeyId : Value) : Script CloudCreateNodeDTO := do
  let label ← getRndName cfg.label
  let server ← createServer (serverData cfg userData sshKeyId label)
  if serverIp server = "" then
    raise (.api none)
  else
    return created cfg server

/-- `hetzner_create_node` without its clean-up. -/
def plain (cfg : Config) (fuel : Nat) : Script CloudCreateNodeDTO := do
  let _ ← fallible .publicKey Call.ans_publicKey
  let userData ← fallible .userData Call.ans_userData
  let keyName ← fallible .keyName Call.ans_keyName
  let sshKeyId ← ensureSshKey fuel keyName
  order cfg userData sshKeyId

end Hetzner

namespace Vultr

/-- What is sent to create an instance. -/
def bareMetalData (cfg : Config) (label userData sshKeyId : String) : Value :=
  .dict [("region", .str cfg.location), ("plan", .str cfg.serverType),
    ("os_id", .int cfg.imageName), ("label", .str label), ("hostname", .str label),
    ("sshkey_id", .list [.str sshKeyId]), ("user_data", .str userData),
    ("enable_ipv6", .bool true)]

/-- Waiting for an instance that was created. -/
def activate (cfg : Config) (second fuel : Nat) (instanceId : String) :
    Script CloudCreateNodeDTO := do
  let now ← call .time
  let ipAddr ← pollActive instanceId (now + pollTimeout * second) fuel
  return created cfg instanceId ipAddr

/-- Creating the instance, once the key is known. -/
def order (cfg : Config) (second fuel : Nat) (label userData sshKeyId : String) :
    Script CloudCreateNodeDTO := do
  let bm ← createBareMetal (bareMetalData cfg label userData sshKeyId)
  activate cfg second fuel (bm.getStr "id")

/-- `vultr_create_node` without its clean-up. -/
def plain (cfg : Config) (second fuel : Nat) : Script CloudCreateNodeDTO := do
  let label ← getRndName cfg.label
  let _ ← fallible .publicKey Call.ans_publicKey
  let userData ← fallible .userData Call.ans_userData
  let sshKeyId ← getSshKeyId fuel
  order cfg second fuel label userData sshKeyId

end Vultr

/-! ## The law

The law itself is that of `CreationLaw`. Here it is filled in for the two
providers, with the label, the responses that tell of an instance and the
constants of each. What the two need in order to obey it is different, and is
the condition of the result. -/

/-- The creation of a server. -/
def Hetzner.law (cfg : Config) (fuel : Nat) : Law where
  api := api
  plain := plain cfg fuel
  base := cfg.label
  pages := servers
  single := "server"
  several := "servers"
  -- the API selects the servers with the label
  labelled _ _ := true
  pick _ server := some (serverId server)
  -- a server that was returned is looked for by its label
  keeps _ := none
  listing := listOrphan fuel
  maxListings := reconcileAttempts
  maxDeletes := reconcileAttempts * api.deleteAttempts

/-- The creation of an instance. -/
def Vultr.law (cfg : Config) (second fuel : Nat) : Law where
  api := api
  plain := plain cfg second fuel
  base := cfg.label
  pages := bareMetals
  single := "bare_metal"
  several := "bare_metals"
  labelled label bm := (bm.get "label").any fun l => match l with
    | .str l => l = label
    | _ => false
  pick := withLabel
  keeps value := (bareMetal value).map (·.getStr "id")
  listing := listOrphan fuel
  maxListings := reconcileAttempts
  maxDeletes := api.deleteAttempts

/-- A creation, at one of the two providers. The result is stated once, for either.
-/
inductive Creation where
  | hetzner (cfg : Hetzner.Config)
  | vultr (cfg : Vultr.Config)

namespace Creation

/-- The program of the provider. -/
def createNode (second fuel : Nat) : Creation → Script CloudCreateNodeDTO
  | hetzner cfg => Hetzner.createNode cfg second fuel
  | vultr cfg => Vultr.createNode cfg second fuel

/-- What it differs in from the other. -/
def law (second fuel : Nat) : Creation → Law
  | hetzner cfg => Hetzner.law cfg fuel
  | vultr cfg => Vultr.law cfg second fuel

/-- A wait, a deletion or a question for the server is cancelled only when the
creation request was, in the same way. Vultr need not care: its clean-up is guarded
as a whole. -/
def Uncancelled (tr : Trace sig) : Creation → Prop
  | hetzner _ => ∀ a ∈ tr, ∀ e, interrupt a = some e →
      ∃ b ∈ tr, Hetzner.api.posted b = some (.error e)
  | vultr _ => True

/-- **What a creation needs**: its clean-up is not interrupted, if it minds, and
every instance that a response shows is shown by one that the client reads. Both are
about the answers, and not about what the creation makes of them. -/
def Undisturbed (second fuel : Nat) (tr : Trace sig) (c : Creation) : Prop :=
  c.Uncancelled tr ∧ (c.law second fuel).Readable tr

end Creation

/-! ## The key

Before a creation sends its request it asks for keys, or creates one. None of
this has to do with instances, and it cannot be confused with them since the
paths are different. -/

/-- A script asks for keys only, if every answer comes from outside. -/
abbrev OnKeys {α : Type} (path : String) (x : Script α) : Prop :=
  Sees (fun a => fromOutside a → onKeys path a) x

section OnKeys

variable {path : String}

/-- A page of a listing of keys asks for keys only. -/
theorem onKeys_of_isListing {a : Answer sig} (h : isListing path a = true) : onKeys path a := by
  match a, h with
  | .op (.request req) ans, h =>
    simp only [isListing, Bool.and_eq_true, decide_eq_true_eq, Bool.not_eq_true',
      List.isEmpty_eq_false_iff] at h
    obtain ⟨⟨hget, hpath⟩, hparams⟩ := h
    exact ⟨hpath, by simp [hget], fun _ => hparams⟩

theorem onKeys_fallible {c : Call} (h : c.Ans = Except Exc String) (hc : c ≠ .rndLetters) :
    OnKeys path (fallible c h) :=
  sees_bind (sees_sync fun _ _ => hc) fun _ => sees_ofExcept _

theorem onKeys_findItem {α : Type} (pages : Pages) {pick : Value → Option α} {fuel : Nat}
    {params : List (String × Value)} (hparams : params ≠ []) :
    OnKeys pages.path (findItem pages pick fuel params) :=
  fun tr r h a ha hout => onKeys_of_isListing (sees_findItem hparams tr r h a ha hout)

theorem onKeys_post (data : Option Value) :
    OnKeys path (request { method := .post, path, data }) :=
  sees_request fun _ _ => ⟨rfl, (nomatch ·), (nomatch ·)⟩

theorem Hetzner.onKeys_ensureSshKey (fuel : Nat) (keyName : String) :
    OnKeys "ssh_keys" (Hetzner.ensureSshKey fuel keyName) := by
  refine sees_bind (sees_bind (onKeys_fallible rfl (by rintro ⟨⟩)) fun fingerprint =>
    onKeys_findItem Hetzner.sshKeys (List.append_ne_nil_of_left_ne_nil
      (List.cons_ne_nil _ _) _)) fun found => ?_
  cases found with
  | some keyId => exact sees_ret keyId
  | none =>
    refine sees_bind (onKeys_fallible rfl (by rintro ⟨⟩)) fun pubKey =>
      sees_bind (sees_bind (onKeys_post _) fun resp => ?_) fun key => sees_ret _
    split
    · exact sees_ret _
    · exact sees_throw _

theorem Vultr.onKeys_getSshKeyId (fuel : Nat) : OnKeys "ssh-keys" (Vultr.getSshKeyId fuel) := by
  refine sees_bind (onKeys_fallible rfl (by rintro ⟨⟩)) fun keyName =>
    sees_bind (onKeys_fallible rfl (by rintro ⟨⟩)) fun pubKey =>
      sees_asyncWith (sees_op fun _ _ => trivial) (fun _ => ?_) fun _ _ =>
        sees_sync (by rintro _ _ ⟨⟩)
  refine sees_bind (onKeys_findItem Vultr.sshKeys (List.cons_ne_nil _ _)) fun found => ?_
  cases found with
  | some keyId => exact sees_ret keyId
  | none =>
    refine sees_bind (onKeys_post _) fun resp => ?_
    split
    · exact sees_ret _
    · exact sees_throw _

end OnKeys

/-! ## The clean-up at Hetzner

The bounds and the interruptions of a deletion are those of `Reconciling`. What
is added is that a clean-up that finds an orphan deletes it a number of times,
with waits in between, and any of these may be interrupted. -/

namespace Hetzner

variable {second fuel : Nat} {id : String}

theorem interruptible_deleteOrphan (attempts : List Nat) :
    Interruptible (deleteOrphan second fuel id attempts) := by
  induction attempts with
  | nil => exact interruptible_ret ()
  | cons attempt attempts ih =>
    refine interruptible_bind (interruptible_deleteAndVerify api second fuel id) fun gone => ?_
    cases gone with
    | true => exact interruptible_ret ()
    | false =>
      show Interruptible (if attempt < reconcileAttempts then
        Co.bind (perform (.sleep reconcileInterval)) fun _ => deleteOrphan second fuel id attempts
        else deleteOrphan second fuel id attempts)
      exact interruptible_ite (interruptible_bind (interruptible_sleep _) fun _ => ih) ih

theorem sees_deleteOrphan (attempts : List Nat) :
    Sees (onResource api id) (deleteOrphan second fuel id attempts) := by
  induction attempts with
  | nil => exact sees_ret ()
  | cons attempt attempts ih =>
    refine sees_bind (sees_deleteAndVerify api second fuel id) fun gone => ?_
    cases gone with
    | true => exact sees_ret ()
    | false =>
      show Sees _ (if attempt < reconcileAttempts then _ else _)
      split
      · exact sees_bind (sees_op fun _ => trivial) fun _ => ih
      · exact ih

theorem length_deletes_deleteOrphan {attempts : List Nat} {tr : Trace sig} {r : Except Exc Unit}
    (h : Finishes (deleteOrphan second fuel id attempts) tr r) :
    (deletes tr).length ≤ attempts.length * api.deleteAttempts := by
  induction attempts generalizing tr with
  | nil =>
    obtain ⟨rfl, -⟩ := h
    exact Nat.zero_le _
  | cons attempt attempts ih =>
    rcases finishes_bind.mp h with ⟨e, rfl, h₁⟩ | ⟨gone, tr₁, tr₂, rfl, h₁, h₂⟩
    · exact (length_deletes_deleteAndVerify h₁).trans (Nat.le_mul_of_pos_left _ (Nat.succ_pos _))
    have hrest : (deletes tr₂).length ≤ attempts.length * api.deleteAttempts := by
      match gone, h₂ with
      | true, h₂ =>
        obtain ⟨rfl, -⟩ := h₂
        exact Nat.zero_le _
      | false, h₂ =>
        change Finishes (if attempt < reconcileAttempts then
          Co.bind (perform (.sleep reconcileInterval)) fun _ =>
            deleteOrphan second fuel id attempts
          else deleteOrphan second fuel id attempts) tr₂ r at h₂
        split at h₂
        · rcases finishes_bind.mp h₂ with ⟨_, -, hs⟩ | ⟨_, tr₃, tr₄, rfl, hs, hgo⟩
          · obtain rfl := finishes_op.mp hs
            exact Nat.zero_le _
          · obtain rfl := finishes_op.mp hs
            show (deletes tr₄).length ≤ _
            exact ih hgo
        · exact ih h₂
    rw [deletes_append, List.length_append, List.length_cons, Nat.succ_mul, Nat.add_comm]
    exact Nat.add_le_add hrest (length_deletes_deleteAndVerify h₁)

theorem deletion_deleteOrphan {tr : Trace sig} {r : Except Exc Unit}
    (h : Finishes (deleteOrphan second fuel id (List.range' 1 reconcileAttempts)) tr r) :
    api.Deletion id (reconcileAttempts * api.deleteAttempts) tr where
  issued := by
    rcases finishes_bind.mp h with ⟨e, rfl, h₁⟩ | ⟨gone, tr₁, tr₂, rfl, h₁, -⟩
    · exact issued_deleteAndVerify h₁ (by decide)
    · obtain ⟨ans, hmem⟩ := issued_deleteAndVerify h₁ (by decide)
      exact ⟨ans, List.mem_append_left _ hmem⟩
  only := sees_deleteOrphan _ tr r h
  bounded := length_deletes_deleteOrphan h

end Hetzner

/-! ## Up to the request

A run is taken apart from the left: the letters or the keys, the user-data, and
then the request. Each of these steps may fail, but in a run in which the
request was sent they have not, so each lemma has one case only. -/

/-- The session is closed at the end. -/
theorem finishes_closing {α : Type} {body : Script α} {tr : Trace sig} {r : Except Exc α}
    (h : Finishes (Co.asyncWith (S := sig) (pure ()) (fun _ _ => perform .close) fun _ => body) tr r)
    (hout : FromOutside tr) : ∃ tr', tr = tr' ++ [.op .close (.ok ())] ∧ Finishes body tr' r := by
  rcases finishes_asyncWith.mp h with ⟨e, -, -, hpure⟩ | ⟨_, r₀, _, tr', tr₃, rx, rfl, ⟨rfl, -⟩,
    hbody, hclose, rfl⟩
  · cases hpure
  obtain rfl := finishes_op.mp hclose
  match rx, hout with
  | .ok (), _ => exact ⟨tr', rfl, hbody⟩
  | .error e, hout =>
    have hnot : False := hout (.op .close (.error e))
      (List.mem_append_right tr' List.mem_cons_self)
    exact hnot.elim

/-- The letters are drawn first. -/
theorem finishes_getRndName {α : Type} {base : String} {f : String → Script α} {tr : Trace sig}
    {r : Except Exc α} : Finishes (Co.bind (getRndName base) f) tr r ↔
      ∃ l rest, tr = .call .rndLetters l :: rest ∧ Finishes (f (base ++ "-" ++ l)) rest r :=
  Iff.rfl

/-- A clean-up before an error is raised: its own error is raised instead. -/
theorem finishes_cleanup {α : Type} {x : Script Unit} {e₀ : Exc} {tr : Trace sig}
    {r : Except Exc α} : Finishes (Co.bind x fun _ => (raise e₀ : Script α)) tr r ↔
      ∃ r₁, Finishes x tr r₁ ∧ r = r₁.bind fun _ => .error e₀ := by
  rw [finishes_bind]
  constructor
  · rintro (⟨e, rfl, h⟩ | ⟨_, tr₁, tr₂, rfl, h, rfl, rfl⟩)
    · exact ⟨.error e, h, rfl⟩
    · exact ⟨.ok (), (List.append_nil tr₁).symm ▸ h, rfl⟩
  · rintro ⟨e | _, h, rfl⟩
    · exact .inl ⟨e, rfl, h⟩
    · exact .inr ⟨(), tr, [], (List.append_nil tr).symm, h, rfl, rfl⟩

theorem finishes_discard {α : Type} {x : Script α} {tr : Trace sig} {r : Except Exc Unit}
    (h : Finishes (Co.bind x fun _ => (Co.ret () : Script Unit)) tr r) :
    ∃ r₀, Finishes x tr r₀ := by
  rcases finishes_bind.mp h with ⟨e, -, hx⟩ | ⟨a, tr₁, tr₂, rfl, hx, rfl, -⟩
  · exact ⟨.error e, hx⟩
  · exact ⟨.ok a, (List.append_nil tr₁).symm ▸ hx⟩

section Sent

variable {api : Api} {path : String} {tr tr' : Trace sig}

/-- Keys are not what is created. -/
theorem Api.Sent.right (h : api.Sent (tr ++ tr')) (hkeys : ∀ a ∈ tr, onKeys path a)
    (hpath : path ≠ api.resource) : api.Sent tr' := by
  obtain ⟨a, ha, hposted⟩ := h
  rcases List.mem_append.mp ha with ha | ha
  · exact absurd (Api.neutral_onKeys (hkeys a ha) hpath).posted hposted
  · exact ⟨a, ha, hposted⟩

theorem not_sent_nil : ¬api.Sent [] := by
  rintro ⟨a, ha, -⟩
  cases ha

theorem not_sent_close : ¬api.Sent [.op .close (.ok ())] := by
  rintro ⟨a, ha, hposted⟩
  obtain rfl := List.mem_singleton.mp ha
  exact hposted rfl

/-- A step before the request: it ends normally. -/
theorem Api.Sent.step {α β : Type} {x : Script α} {f : α → Script β} {r : Except Exc β}
    (hsent : api.Sent (tr ++ tr')) (h : Finishes (Co.bind x f) tr r) (hout : FromOutside tr)
    (hkeys : OnKeys path x) (hpath : path ≠ api.resource) (hrest : ¬api.Sent tr') :
    ∃ a tr₁ tr₂, tr = tr₁ ++ tr₂ ∧ (∀ a ∈ tr₁, onKeys path a) ∧ Finishes x tr₁ (.ok a) ∧
      Finishes (f a) tr₂ r ∧ api.Sent (tr₂ ++ tr') ∧ FromOutside tr₂ := by
  rcases finishes_bind.mp h with ⟨e, -, h₁⟩ | ⟨a, tr₁, tr₂, rfl, h₁, h₂⟩
  · exact absurd (hsent.right (fun a ha => hkeys tr _ h₁ a ha (hout a ha)) hpath) hrest
  · have hon : ∀ a ∈ tr₁, onKeys path a := fun a ha => hkeys tr₁ _ h₁ a ha (hout.left a ha)
    rw [List.append_assoc] at hsent
    exact ⟨a, tr₁, tr₂, rfl, hon, h₁, h₂, hsent.right hon hpath, hout.right⟩

end Sent

namespace Hetzner

/-- Creating the server, once the key is known, with the clean-up. -/
def deliver (cfg : Config) (second fuel : Nat) (userData : String) (sshKeyId : Value) :
    Script CloudCreateNodeDTO := do
  let label ← getRndName cfg.label
  let server ← Co.tryCatch (createServer (serverData cfg userData sshKeyId label)) fun err => do
    reconcileOrphanByLabel second fuel label
    raise err
  if serverIp server = "" then do
    reconcileOrphanByLabel second fuel label
    raise (.api none)
  else
    return created cfg server

theorem finishes_createNode {cfg : Config} {second fuel : Nat} {tr : Trace sig}
    {r : Except Exc CloudCreateNodeDTO} (h : Finishes (createNode cfg second fuel) tr r)
    (hout : FromOutside tr) (hsent : api.Sent tr) :
    ∃ pre userData sshKeyId tr', tr = pre ++ (tr' ++ [.op .close (.ok ())]) ∧
      (∀ a ∈ pre, onKeys "ssh_keys" a) ∧
      (∀ tr₀ r₀, Finishes (order cfg userData sshKeyId) tr₀ r₀ →
        Finishes (plain cfg fuel) (pre ++ tr₀) r₀) ∧
      Finishes (deliver cfg second fuel userData sshKeyId) tr' r := by
  have hpath : "ssh_keys" ≠ api.resource := by decide
  rw [← List.append_nil tr] at hsent
  obtain ⟨pubKey, t₁, t', rfl, on₁, h₁, h', hsent, hout⟩ :=
    hsent.step h hout (onKeys_fallible rfl (nomatch ·)) hpath not_sent_nil
  obtain ⟨userData, t₂, t'', rfl, on₂, h₂, h'', hsent, hout⟩ :=
    hsent.step h' hout (onKeys_fallible rfl (nomatch ·)) hpath not_sent_nil
  obtain ⟨body, rfl, hbody⟩ := finishes_closing h'' hout
  rw [List.append_nil] at hsent
  obtain ⟨keyName, t₃, t₃', rfl, on₃, h₃, hbody, hsent, hout⟩ :=
    hsent.step hbody hout.left (onKeys_fallible rfl (nomatch ·)) hpath not_sent_close
  obtain ⟨sshKeyId, t₄, tr', rfl, on₄, h₄, hdeliver, -, -⟩ :=
    hsent.step hbody hout (onKeys_ensureSshKey fuel keyName) hpath not_sent_close
  refine ⟨t₁ ++ (t₂ ++ (t₃ ++ t₄)), userData, sshKeyId, tr', ?_, ?_, fun tr₀ r₀ horder => ?_,
    hdeliver⟩
  · simp only [List.append_assoc]
  · simp only [List.forall_mem_append]
    exact ⟨on₁, on₂, on₃, on₄⟩
  · simp only [List.append_assoc]
    exact finishes_bind.mpr (.inr ⟨pubKey, _, _, rfl, h₁, finishes_bind.mpr (.inr ⟨userData, _, _,
      rfl, h₂, finishes_bind.mpr (.inr ⟨keyName, _, _, rfl, h₃, finishes_bind.mpr (.inr ⟨sshKeyId,
        _, _, rfl, h₄, horder⟩)⟩)⟩)⟩)

/-- The request to create a server. -/
def postReq (cfg : Config) (userData : String) (sshKeyId : Value) (label : String) : Request :=
  { method := .post, path := "servers", data := some (serverData cfg userData sshKeyId label) }

theorem finishes_createServer {data : Value} {tr : Trace sig} {r : Except Exc Value} :
    Finishes (createServer data) tr r ↔ ∃ ans, tr = [.op (.request
      { method := .post, path := "servers", data := some data }) ans] ∧
        r = api.got (outcome ans) := @finishes_requestItem api _ _ _

/-- Creating the server with the label. -/
theorem finishes_order {cfg : Config} {userData : String} {sshKeyId : Value} {l : String}
    {ans : Except Exc Response} {e₀ : Exc}
    (h : api.got (outcome ans) = .error e₀ ∨ e₀ = .api none ∧
      ∃ server, api.got (outcome ans) = .ok server ∧ serverIp server = "") :
    Finishes (order cfg userData sshKeyId) [.call .rndLetters l,
      .op (.request (postReq cfg userData sshKeyId (cfg.label ++ "-" ++ l))) ans]
      (.error e₀) := by
  refine finishes_getRndName.mpr ⟨l, _, rfl, finishes_bind.mpr ?_⟩
  rcases h with herror | ⟨rfl, server, hserver, hip⟩
  · exact .inl ⟨e₀, rfl, finishes_createServer.mpr ⟨ans, rfl, herror.symm⟩⟩
  · refine .inr ⟨server, _, [], rfl, finishes_createServer.mpr ⟨ans, rfl, hserver.symm⟩, ?_⟩
    rw [if_pos hip]
    exact ⟨rfl, rfl⟩

/-- A creation that fails: the request, the clean-up, and the error of either. -/
theorem finishes_deliver {cfg : Config} {second fuel : Nat} {userData : String} {sshKeyId : Value}
    {tr : Trace sig} {e : Exc}
    (h : Finishes (deliver cfg second fuel userData sshKeyId) tr (.error e)) :
    ∃ l ans cleanup r₁ e₀, tr = .call .rndLetters l ::
        .op (.request (postReq cfg userData sshKeyId (cfg.label ++ "-" ++ l))) ans :: cleanup ∧
      Finishes (reconcileOrphanByLabel second fuel (cfg.label ++ "-" ++ l)) cleanup r₁ ∧
      (Except.error e : Except Exc CloudCreateNodeDTO) = r₁.bind (fun _ => .error e₀) ∧
      (api.got (outcome ans) = .error e₀ ∨ e₀ = .api none ∧
        ∃ server, api.got (outcome ans) = .ok server ∧ serverIp server = "") := by
  obtain ⟨l, tr', rfl, hgo⟩ := finishes_getRndName.mp h
  refine ⟨l, ?_⟩
  rcases finishes_bind.mp hgo with ⟨e', he', hfail⟩ | ⟨server, t₁, t₂, rfl, hserver, hrest⟩
  · cases he'
    rcases finishes_tryCatch.mp hfail with ⟨_, hok, -⟩ | ⟨e₀, t₁, cleanup, rfl, hcreate, hclean⟩
    · cases hok
    obtain ⟨ans, rfl, hans⟩ := finishes_createServer.mp hcreate
    obtain ⟨r₁, hr₁, he⟩ := finishes_cleanup.mp hclean
    refine ⟨ans, cleanup, r₁, e₀, rfl, hr₁, ?_, .inl hans.symm⟩
    cases r₁ with
    | ok u => exact congrArg Except.error (Except.error.inj he)
    | error e₁ => exact congrArg Except.error (Except.error.inj he)
  · rcases finishes_tryCatch.mp hserver with ⟨_, hok, hcreate⟩ | ⟨e₀, t₃, t₄, rfl, -, hclean⟩
    · cases hok
      obtain ⟨ans, rfl, hans⟩ := finishes_createServer.mp hcreate
      change Finishes (if serverIp server = "" then Co.bind (reconcileOrphanByLabel second fuel
        (cfg.label ++ "-" ++ l)) fun _ => raise (.api none) else Co.ret (created cfg server)) t₂
        (.error e) at hrest
      split at hrest
      · next hip =>
        obtain ⟨r₁, hr₁, he⟩ := finishes_cleanup.mp hrest
        exact ⟨ans, t₂, r₁, .api none, rfl, hr₁, he, .inr ⟨rfl, server, hans.symm, hip⟩⟩
      · cases hrest.2
    · obtain ⟨r₁, -, he⟩ := finishes_cleanup.mp hclean
      cases r₁ <;> cases he

/-! ### The clean-up -/

theorem lists_orphan (cfg : Config) (fuel : Nat) (label : String) :
    Lists api.resource ((law cfg fuel).finds label) (listOrphan fuel label) := by
  have hparams : firstPage "label_selector" (reconcileLabelKey ++ "=" ++ label) ≠ [] :=
    List.append_ne_nil_of_left_ne_nil (List.cons_ne_nil _ _) _
  exact @lists_findItem servers _ fuel _ hparams

theorem cleansUp_reconcile (cfg : Config) {second fuel : Nat} {label : String} {tr : Trace sig}
    {r : Except Exc Unit} (h : Finishes (reconcileOrphanByLabel second fuel label) tr r)
    (hout : FromOutside tr) : (law cfg fuel).CleansUp label none tr := by
  have hlists := lists_orphan cfg fuel label
  rcases finishes_bind.mp h with ⟨e, rfl, hlocate⟩ | ⟨found, tr₁, tr₂, rfl, hlocate, hdelete⟩
  · rw [← List.append_nil tr]
    exact (finishes_locate hlists hlocate hout).cleansUp (fun _ hr => nomatch hr) fun _ => rfl
  · refine (finishes_locate hlists hlocate hout.left).cleansUp (fun id hr => ?_) fun hr => ?_
    · cases hr
      exact deletion_deleteOrphan hdelete
    · cases found with
      | some id => exact absurd rfl (hr id)
      | none => exact hdelete.1

theorem interruptible_reconcile (second fuel : Nat) (label : String) :
    Interruptible (reconcileOrphanByLabel second fuel label) := by
  refine interruptible_bind (interruptible_locate (lists_orphan {} fuel label) _) fun found => ?_
  cases found with
  | none => exact interruptible_ret ()
  | some id => exact interruptible_deleteOrphan _

/-! ### The law -/

/-- A server has an id. -/
theorem instanceId_of_isApiServer {server : Value} (h : isApiServer server = true) :
    instanceId server = some (serverId server) := by
  unfold isApiServer at h
  simp only [Bool.and_eq_true] at h
  obtain ⟨⟨⟨hid, -⟩, -⟩, -⟩ := h
  unfold instanceId serverId
  cases hget : server.get "id" with
  | none =>
    rw [hget] at hid
    cases hid
  | some id =>
    rw [hget] at hid
    cases id with
    | int n => rfl
    | bool b => rfl
    | _ => cases hid

/-- A creation that fails is a failed request and its clean-up. -/
theorem fails_createNode {cfg : Config} {second fuel : Nat} {tr : Trace sig} {e : Exc}
    (h : Finishes (createNode cfg second fuel) tr (.error e)) (hout : FromOutside tr)
    (hsent : api.Sent tr) : ∃ before post cleanup o r₁ e₀,
      tr = runOf before post [] cleanup ∧ (law cfg fuel).Fails before post [] o e₀ ∧
      (∀ a ∈ before ++ [post], interrupt a = none) ∧
      Finishes (reconcileOrphanByLabel second fuel ((law cfg fuel).label tr)) cleanup r₁ ∧
      (Except.error e : Except Exc CloudCreateNodeDTO) = r₁.bind (fun _ => .error e₀) ∧
      (api.got o = .error e₀ ∨ e₀ = .api none ∧ ∃ value, o = .ok value) := by
  obtain ⟨pre, userData, sshKeyId, tr', rfl, hpre, hplain, hdeliver⟩ :=
    finishes_createNode h hout hsent
  obtain ⟨l, ans, cleanup, r₁, e₀, rfl, hclean, he, hgot⟩ := finishes_deliver hdeliver
  refine ⟨pre ++ [.call .rndLetters l], _, cleanup, outcome ans, r₁, e₀,
    (List.append_assoc pre [_] _).symm, ⟨?_, rfl, fun _ ha => (nomatch ha), ?_⟩, ?_, ?_, he, ?_⟩
  · have hpath : "ssh_keys" ≠ api.resource := by decide
    rw [List.forall_mem_append]
    exact ⟨fun a ha => Api.neutral_onKeys (hpre a ha) hpath,
      List.forall_mem_singleton.mpr ⟨rfl, rfl, rfl⟩⟩
  · rw [List.append_assoc]
    exact hplain _ _ (finishes_order hgot)
  · simp only [List.forall_mem_append, List.forall_mem_singleton]
    exact ⟨⟨fun a ha => interrupt_onKeys (hpre a ha), rfl⟩, rfl⟩
  · show Finishes (reconcileOrphanByLabel second fuel (cfg.label ++ "-" ++ letters _)) cleanup r₁
    rw [letters_append hpre]
    exact hclean
  · refine hgot.imp_right fun ⟨he₀, server, hserver, _⟩ => ⟨he₀, ?_⟩
    cases ho : outcome ans with
    | ok value => exact ⟨value, rfl⟩
    | error e' =>
      rw [ho] at hserver
      cases hserver

/-- The error of an interruption is no `Exception`. -/
theorem isException_interrupt {a : Answer sig} {e : Exc} (hout : fromOutside a)
    (he : interrupt a = some e) : e.isException = false := by
  match a, hout, he with
  | .op (.sleep _) (.error e'), hout, he => exact Option.some.inj he ▸ hout
  | .op (.request req) ans, _, he =>
    simp only [interrupt] at he
    split at he
    · split at he
      · cases he
        rfl
      · cases he
    · cases he

/-- The error of the creation leaves if and only if whatever interrupts the
clean-up is that error. -/
theorem original_iff {cfg : Config} {second fuel : Nat} {before cleanup : Trace sig}
    {post : Answer sig} {o : Except Exc Value} {label : String} {r₁ : Except Exc Unit} {e e₀ : Exc}
    (hfails : (law cfg fuel).Fails before post [] o e₀)
    (hquiet : ∀ a ∈ before ++ [post], interrupt a = none)
    (hclean : Finishes (reconcileOrphanByLabel second fuel label) cleanup r₁)
    (hout : FromOutside cleanup)
    (he : (Except.error e : Except Exc CloudCreateNodeDTO) = r₁.bind (fun _ => .error e₀))
    (hgot : api.got o = .error e₀ ∨ e₀ = .api none ∧ ∃ value, o = .ok value) :
    e = e₀ ↔ ∀ a ∈ runOf before post [] cleanup, ∀ e', interrupt a = some e' →
      ∃ b ∈ runOf before post [] cleanup, api.posted b = some (.error e') := by
  have hraised := interruptible_reconcile second fuel label cleanup r₁ hclean hout
  have hnone : ∀ b ∈ cleanup, api.posted b = none := (cleansUp_reconcile cfg hclean hout).posted
  constructor
  · rintro rfl a ha e' ha'
    -- the interruption is one of the clean-up, which raises it
    have hmem : a ∈ cleanup := by
      rcases mem_runOf.mp ha with ha | rfl | ha | ha | rfl
      · rw [hquiet a (List.mem_append_left _ ha)] at ha'
        cases ha'
      · rw [hquiet a (List.mem_append_right _ List.mem_cons_self)] at ha'
        cases ha'
      · cases ha
      · exact ha
      · cases ha'
    have hbase := isException_interrupt (hout a hmem) ha'
    cases r₁ with
    | ok u =>
      rw [hraised a hmem] at ha'
      cases ha'
    | error e₁ =>
      obtain rfl : e = e₁ := Except.error.inj he
      obtain rfl := hraised.eq_of_mem hmem ha'
      refine ⟨post, mem_runOf.mpr (.inr (.inl rfl)), hfails.posted.trans (congrArg some ?_)⟩
      rcases hgot with hgot | ⟨rfl, -⟩
      · rcases got_eq_error hgot with ho | rfl
        · exact ho
        · cases hbase
      · cases hbase
  · intro hall
    cases r₁ with
    | ok u => exact Except.error.inj he
    | error e₁ =>
      obtain rfl : e = e₁ := Except.error.inj he
      obtain ⟨good, bad, rfl, -, hbad⟩ := hraised
      have hmem : bad ∈ good ++ [bad] := List.mem_append_right _ List.mem_cons_self
      obtain ⟨b, hb, hposted⟩ := hall bad (mem_runOf.mpr (.inr (.inr (.inr (.inl hmem))))) e hbad
      have hpost : b = post := hfails.eq_post hnone hb (hposted ▸ Option.some_ne_none _)
      obtain rfl : o = .error e := by
        rw [hpost, show api.posted post = some o from hfails.posted] at hposted
        exact Option.some.inj hposted
      rcases hgot with hgot | ⟨-, value, hvalue⟩
      · exact Except.error.inj hgot
      · cases hvalue

/-- The servers of a listing are those in its body: nothing else that can be
gone through has the shape of a server. -/
theorem sound (cfg : Config) (fuel : Nat) : (law cfg fuel).Sound where
  listed := by
    intro label value items item id hitems hitem hpick
    change apiServers value = .ok items at hitems
    obtain rfl := Option.some.inj hpick
    unfold apiServers at hitems
    split at hitems
    · cases hitems
    · next servers hservers =>
      split at hitems
      · cases hitems
      · next all hiter =>
        split at hitems
        · next hshape =>
          obtain rfl := Except.ok.inj hitems
          have hserver := List.all_eq_true.mp hshape item hitem
          refine ⟨all, ?_, hitem, rfl, instanceId_of_isApiServer hserver⟩
          -- the keys of a `dict`, and the characters of a string, are no servers
          cases servers with
          | list servers =>
            obtain rfl := Option.some.inj hiter
            exact hservers
          | dict fields =>
            obtain rfl := Option.some.inj hiter
            obtain ⟨field, -, rfl⟩ := List.mem_map.mp hitem
            cases hserver
          | str text =>
            obtain rfl := Option.some.inj hiter
            obtain ⟨c, -, rfl⟩ := List.mem_map.mp hitem
            cases hserver
          | _ => cases hiter
        · cases hitems
  created := by
    rintro value id ⟨⟩

theorem obeyed_iff {cfg : Config} {second fuel : Nat} {tr : Trace sig} {mine : String} {e : Exc}
    (h : Finishes (createNode cfg second fuel) tr (.error e)) (hout : FromOutside tr)
    (hsent : api.Sent tr) (hunique : (law cfg fuel).Unique tr mine) :
    (law cfg fuel).Obeyed tr mine e ↔ (Creation.hetzner cfg).Undisturbed second fuel tr := by
  obtain ⟨before, post, cleanup, o, r₁, e₀, rfl, hfails, hquiet, hclean, he, hgot⟩ :=
    fails_createNode h hout hsent
  have houtc : FromOutside cleanup := fun a ha =>
    hout a (mem_runOf.mpr (.inr (.inr (.inr (.inl ha)))))
  have hkept : (law cfg fuel).kept post = none := by
    unfold Law.kept
    split <;> rfl
  rw [hfails.obeyed_iff (sound cfg fuel) rfl (cleansUp_reconcile cfg hclean houtc) hkept hunique,
    original_iff hfails hquiet hclean houtc he hgot]
  rfl

end Hetzner

namespace Vultr

/-! ## Vultr

The creation at Vultr fails in two ways. If the request fails, the instance is
looked for by its label. If it succeeds and the instance never becomes active,
it is deleted by its id. In both cases the clean-up is inside a handler for
everything, so that its own error never leaves. -/

/-- Creating the instance, once the key is known, with the clean-up. -/
def deliver (cfg : Config) (second fuel : Nat) (label userData sshKeyId : String) :
    Script CloudCreateNodeDTO := do
  let bm ← Co.tryCatch (createBareMetal (bareMetalData cfg label userData sshKeyId)) fun err => do
    Co.tryCatch (reconcileOrphanByLabel second fuel label) fun _ => pure ()
    raise err
  Co.tryCatch (activate cfg second fuel (bm.getStr "id")) fun err => do
    Co.tryCatch (do let _ ← deleteAndVerify second fuel (bm.getStr "id")) fun _ => pure ()
    raise err

theorem finishes_createNode {cfg : Config} {second fuel : Nat} {tr : Trace sig}
    {r : Except Exc CloudCreateNodeDTO} (h : Finishes (createNode cfg second fuel) tr r)
    (hout : FromOutside tr) (hsent : api.Sent tr) :
    ∃ l pre userData sshKeyId tr', tr = .call .rndLetters l ::
        (pre ++ (tr' ++ [.op .close (.ok ())])) ∧
      (∀ a ∈ pre, onKeys "ssh-keys" a) ∧
      (∀ tr₀ r₀, Finishes (order cfg second fuel (cfg.label ++ "-" ++ l) userData sshKeyId) tr₀ r₀ →
        Finishes (plain cfg second fuel) (.call .rndLetters l :: (pre ++ tr₀)) r₀) ∧
      Finishes (deliver cfg second fuel (cfg.label ++ "-" ++ l) userData sshKeyId) tr' r := by
  have hpath : "ssh-keys" ≠ api.resource := by decide
  obtain ⟨l, rest, rfl, hrest⟩ := finishes_getRndName.mp h
  have hsent : api.Sent (rest ++ []) := by
    obtain ⟨a, ha, hposted⟩ := hsent
    rw [List.append_nil]
    rcases List.mem_cons.mp ha with rfl | ha
    · exact absurd rfl hposted
    · exact ⟨a, ha, hposted⟩
  have hout : FromOutside rest := fun a ha => hout a (List.mem_cons_of_mem _ ha)
  obtain ⟨pubKey, t₁, t', rfl, on₁, h₁, h', hsent, hout⟩ :=
    hsent.step hrest hout (onKeys_fallible rfl (nomatch ·)) hpath not_sent_nil
  obtain ⟨userData, t₂, t'', rfl, on₂, h₂, h'', hsent, hout⟩ :=
    hsent.step h' hout (onKeys_fallible rfl (nomatch ·)) hpath not_sent_nil
  obtain ⟨body, rfl, hbody⟩ := finishes_closing h'' hout
  rw [List.append_nil] at hsent
  obtain ⟨sshKeyId, t₃, tr', rfl, on₃, h₃, hdeliver, -, -⟩ :=
    hsent.step hbody hout.left (onKeys_getSshKeyId fuel) hpath not_sent_close
  refine ⟨l, t₁ ++ (t₂ ++ t₃), userData, sshKeyId, tr', ?_, ?_, fun tr₀ r₀ horder => ?_, hdeliver⟩
  · simp only [List.append_assoc]
  · simp only [List.forall_mem_append]
    exact ⟨on₁, on₂, on₃⟩
  · simp only [List.append_assoc]
    exact finishes_getRndName.mpr ⟨l, _, rfl, finishes_bind.mpr (.inr ⟨pubKey, _, _, rfl, h₁,
      finishes_bind.mpr (.inr ⟨userData, _, _, rfl, h₂, finishes_bind.mpr (.inr ⟨sshKeyId, _, _, rfl,
        h₃, horder⟩)⟩)⟩)⟩

/-- The request to create an instance. -/
def postReq (cfg : Config) (label userData sshKeyId : String) : Request :=
  { method := .post, path := "bare-metals", data := some (bareMetalData cfg label userData sshKeyId) }

theorem finishes_createBareMetal {data : Value} {tr : Trace sig} {r : Except Exc Value} :
    Finishes (createBareMetal data) tr r ↔ ∃ ans, tr = [.op (.request
      { method := .post, path := "bare-metals", data := some data }) ans] ∧
        r = api.got (outcome ans) := @finishes_requestItem api _ _ _

/-- How the creation fails, and what is done then: the request failed, and the
instance is looked for, or the instance was waited for, and is deleted. -/
theorem finishes_deliver {cfg : Config} {second fuel : Nat} {label userData sshKeyId : String}
    {tr : Trace sig} {e : Exc}
    (h : Finishes (deliver cfg second fuel label userData sshKeyId) tr (.error e)) :
    ∃ ans late cleanup, tr = .op (.request (postReq cfg label userData sshKeyId)) ans ::
        (late ++ cleanup) ∧
      (api.got (outcome ans) = .error e ∧ late = [] ∧
          (∃ r₁, Finishes (reconcileOrphanByLabel second fuel label) cleanup r₁) ∨
        ∃ bm, api.got (outcome ans) = .ok bm ∧
          Finishes (activate cfg second fuel (bm.getStr "id")) late (.error e) ∧
          ∃ r₁, Finishes (Co.bind (deleteAndVerify second fuel (bm.getStr "id")) fun _ =>
            (Co.ret () : Script Unit)) cleanup r₁) := by
  rcases finishes_bind.mp h with ⟨e', he', hfail⟩ | ⟨bm, t₁, t₂, rfl, hpost, hrest⟩
  · cases he'
    rcases finishes_tryCatch.mp hfail with ⟨_, hok, -⟩ | ⟨e₀, t₁, cleanup, rfl, hcreate, hclean⟩
    · cases hok
    obtain ⟨ans, rfl, hans⟩ := finishes_createBareMetal.mp hcreate
    obtain ⟨r₁, hignored, he⟩ := finishes_cleanup.mp hclean
    obtain ⟨rfl, hreconcile⟩ := finishes_ignore.mp hignored
    obtain rfl := Except.error.inj he
    exact ⟨ans, [], cleanup, rfl, .inl ⟨hans.symm, rfl, hreconcile⟩⟩
  · rcases finishes_tryCatch.mp hpost with ⟨_, hok, hcreate⟩ | ⟨e₀, t₃, t₄, rfl, -, hclean⟩
    · cases hok
      obtain ⟨ans, rfl, hans⟩ := finishes_createBareMetal.mp hcreate
      rcases finishes_tryCatch.mp hrest with ⟨_, hok, -⟩ | ⟨e₀, late, cleanup, rfl, hlate, hclean⟩
      · cases hok
      obtain ⟨r₁, hignored, he⟩ := finishes_cleanup.mp hclean
      obtain ⟨rfl, hdelete⟩ := finishes_ignore.mp hignored
      obtain rfl := Except.error.inj he
      exact ⟨ans, late, cleanup, rfl, .inr ⟨bm, hans.symm, hlate, hdelete⟩⟩
    · obtain ⟨r₁, -, he⟩ := finishes_cleanup.mp hclean
      cases r₁ <;> cases he

/-- Waiting for the instance creates and deletes nothing. -/
theorem neutral_pollActive (instanceId : String) (deadline fuel : Nat) :
    Sees api.Neutral (pollActive instanceId deadline fuel) := by
  have hother : ∀ {a : Answer sig}, (∀ req ans, a ≠ .op (.request req) ans) → api.Neutral a :=
    api.neutral_of_request
  induction fuel with
  | zero => exact sees_bind (sees_op fun _ => hother fun _ _ h => nomatch h) fun v => v.elim
  | succ fuel ih =>
    have hagain : Sees api.Neutral (Co.bind (perform (.sleep pollInterval)) fun _ =>
        pollActive instanceId deadline fuel) :=
      sees_bind (sees_op fun _ => hother fun _ _ h => nomatch h) fun _ => ih
    refine sees_bind (sees_sync fun _ => hother fun _ _ h => nomatch h) fun now => ?_
    show Sees _ (if now < deadline then _ else _)
    split
    · refine sees_attempt_bind (fun tr r h a ha => ?_) fun r => ?_
      · obtain ⟨ans, rfl, -⟩ := finishes_getItem.mp h
        exact List.mem_singleton.mp ha ▸ Api.neutral_getReq
      · match r with
        | .error err =>
          show Sees _ (if err.transient then _ else raise err)
          split
          · exact hagain
          · exact sees_throw _
        | .ok bm =>
          show Sees _ (if _ then _ else _)
          split
          · exact sees_ret _
          · exact hagain
    · exact sees_throw _

theorem lists_orphan (cfg : Config) (second fuel : Nat) (label : String) :
    Lists api.resource ((law cfg second fuel).finds label) (listOrphan fuel label) :=
  @lists_findItem bareMetals _ fuel _ (List.cons_ne_nil _ _)

theorem cleansUp_reconcile (cfg : Config) {second fuel : Nat} {label : String} {tr : Trace sig}
    {r : Except Exc Unit} (h : Finishes (reconcileOrphanByLabel second fuel label) tr r)
    (hout : FromOutside tr) : (law cfg second fuel).CleansUp label none tr := by
  have hlists := lists_orphan cfg second fuel label
  rcases finishes_bind.mp h with ⟨e, rfl, hlocate⟩ | ⟨found, tr₁, tr₂, rfl, hlocate, hdelete⟩
  · rw [← List.append_nil tr]
    exact (finishes_locate hlists hlocate hout).cleansUp (fun _ hr => nomatch hr) fun _ => rfl
  · refine (finishes_locate hlists hlocate hout.left).cleansUp (fun id hr => ?_) fun hr => ?_
    · cases hr
      obtain ⟨r₀, hdelete⟩ := finishes_discard hdelete
      exact deletion_deleteAndVerify hdelete (Nat.succ_pos 2)
    · cases found with
      | some id => exact absurd rfl (hr id)
      | none => exact hdelete.1

/-- The id of what the request returned is kept. -/
theorem kept_post {cfg : Config} {second fuel : Nat} {label userData sshKeyId : String}
    (ans : Except Exc Response) : (law cfg second fuel).kept
      (.op (.request (postReq cfg label userData sshKeyId)) ans) =
        (api.got (outcome ans)).toOption.map fun bm : Value => bm.getStr "id" := by
  have hposted : api.posted (.op (.request (postReq cfg label userData sshKeyId)) ans) =
      some (outcome ans) := rfl
  rw [Law.kept, show (law cfg second fuel).api = api from rfl, hposted]
  cases outcome ans with
  | error e => rfl
  | ok value =>
    simp only [Api.got, Except.bind]
    show Option.map _ (api.item value) = _
    cases api.item value <;> rfl

/-- An instance has an id. -/
theorem instanceId_of_isBareMetal {bm : Value} (h : isBareMetal bm = true) :
    instanceId bm = some (bm.getStr "id") := by
  unfold isBareMetal at h
  simp only [Bool.and_eq_true] at h
  obtain ⟨⟨⟨hid, -⟩, -⟩, -⟩ := h
  unfold instanceId Value.getStr
  cases hget : bm.get "id" with
  | none =>
    rw [hget] at hid
    cases hid
  | some id =>
    rw [hget] at hid
    cases id with
    | str id => rfl
    | _ => cases hid

theorem sound (cfg : Config) (second fuel : Nat) : (law cfg second fuel).Sound where
  listed := by
    intro label value items item id hitems hitem hpick
    change bareMetalsOf value = .ok items at hitems
    change withLabel label item = some id at hpick
    unfold bareMetalsOf at hitems
    split at hitems
    · next bms hbms =>
      split at hitems
      · obtain rfl := Except.ok.inj hitems
        refine ⟨bms, hbms, hitem, ?_⟩
        unfold withLabel at hpick
        split at hpick
        · next l id' hlabel hid =>
          split at hpick
          · next hmatch =>
            obtain rfl := Option.some.inj hpick
            simp only [Bool.and_eq_true, decide_eq_true_eq] at hmatch
            obtain ⟨rfl, -⟩ := hmatch
            refine ⟨?_, ?_⟩
            · show (item.get "label").any _ = true
              rw [hlabel]
              exact decide_eq_true rfl
            · rw [instanceId, hid]
              rfl
          · cases hpick
        · cases hpick
      · cases hitems
    · cases hitems
  created := by
    intro value id hkeeps
    obtain ⟨bm, hbm, rfl⟩ := Option.map_eq_some_iff.mp hkeeps
    obtain ⟨hget, hshape⟩ := Option.filter_eq_some_iff.mp hbm
    rw [show (law cfg second fuel).single = "bare_metal" from rfl, hget]
    exact instanceId_of_isBareMetal hshape

/-- Vultr obeys the law if and only if it can read what it is shown. -/
theorem obeyed_iff {cfg : Config} {second fuel : Nat} {tr : Trace sig} {mine : String} {e : Exc}
    (h : Finishes (createNode cfg second fuel) tr (.error e)) (hout : FromOutside tr)
    (hsent : api.Sent tr) (hunique : (law cfg second fuel).Unique tr mine) :
    (law cfg second fuel).Obeyed tr mine e ↔ (law cfg second fuel).Readable tr := by
  obtain ⟨l, pre, userData, sshKeyId, tr', rfl, hpre, hplain, hdeliver⟩ :=
    finishes_createNode h hout hsent
  obtain ⟨ans, late, cleanup, rfl, hend⟩ := finishes_deliver hdeliver
  -- the run, in its parts
  have hrun : Answer.call (S := sig) .rndLetters l :: (pre ++ (.op (.request
      (postReq cfg (cfg.label ++ "-" ++ l) userData sshKeyId)) ans :: (late ++ cleanup) ++
        [.op .close (.ok ())])) = runOf (.call .rndLetters l :: pre) (.op (.request
          (postReq cfg (cfg.label ++ "-" ++ l) userData sshKeyId)) ans) late cleanup := by
    simp [runOf]
  rw [hrun] at hunique hout ⊢
  have houtc : FromOutside cleanup := fun a ha =>
    hout a (mem_runOf.mpr (.inr (.inr (.inr (.inl ha)))))
  have hearly : ∀ a ∈ Answer.call (S := sig) .rndLetters l :: pre, api.Neutral a :=
    List.forall_mem_cons.mpr ⟨⟨rfl, rfl, rfl⟩, fun a ha => Api.neutral_onKeys (hpre a ha) (by decide)⟩
  rcases hend with ⟨herror, rfl, r₁, hreconcile⟩ | ⟨bm, hgot, hactivate, r₁, hdelete⟩
  · have hfails : (law cfg second fuel).Fails (.call .rndLetters l :: pre) (.op (.request
        (postReq cfg (cfg.label ++ "-" ++ l) userData sshKeyId)) ans) [] (outcome ans) e :=
      ⟨hearly, rfl, List.forall_mem_nil _, hplain _ _ (finishes_bind.mpr (.inl ⟨e, rfl,
        finishes_createBareMetal.mpr ⟨ans, rfl, herror.symm⟩⟩))⟩
    have hkept : (law cfg second fuel).kept (.op (.request
        (postReq cfg (cfg.label ++ "-" ++ l) userData sshKeyId)) ans) = none := by
      rw [kept_post, herror]
      rfl
    rw [hfails.obeyed_iff (sound cfg second fuel) rfl (cleansUp_reconcile cfg hreconcile houtc)
      hkept hunique]
    exact and_iff_right rfl
  · have hlate : ∀ a ∈ late, api.Neutral a :=
      (sees_bind (sees_sync fun _ => ⟨rfl, rfl, rfl⟩) fun now => sees_bind
        (neutral_pollActive _ _ fuel) fun ipAddr => sees_ret _ :
          Sees api.Neutral (activate cfg second fuel (bm.getStr "id"))) late _ hactivate
    have hfails : (law cfg second fuel).Fails (.call .rndLetters l :: pre) (.op (.request
        (postReq cfg (cfg.label ++ "-" ++ l) userData sshKeyId)) ans) late (outcome ans) e :=
      ⟨hearly, rfl, hlate, hplain _ _ (finishes_bind.mpr (.inr ⟨bm, [_], late, rfl,
        finishes_createBareMetal.mpr ⟨ans, rfl, hgot.symm⟩, hactivate⟩))⟩
    obtain ⟨r₀, hdelete⟩ := finishes_discard hdelete
    have hclean : ∀ label,
        (law cfg second fuel).CleansUp label (some (bm.getStr "id")) cleanup := fun label =>
      Api.Deletion.cleansUp (deletion_deleteAndVerify hdelete (Nat.succ_pos 2))
    have hkept : (law cfg second fuel).kept (.op (.request
        (postReq cfg (cfg.label ++ "-" ++ l) userData sshKeyId)) ans) = some (bm.getStr "id") := by
      rw [kept_post, hgot]
      rfl
    rw [hfails.obeyed_iff (sound cfg second fuel) rfl (hclean _) hkept hunique]
    exact and_iff_right rfl

end Vultr

/-! ## Both -/

/-- **A failed creation does what it is to do if and only if** it is
undisturbed. -/
theorem Creation.obeyed_iff_undisturbed {c : Creation} {second fuel : Nat} {tr : Trace sig}
    {mine : String} {e : Exc} (h : Finishes (c.createNode second fuel) tr (.error e))
    (hout : FromOutside tr) (hsent : (c.law second fuel).api.Sent tr)
    (hunique : (c.law second fuel).Unique tr mine) :
    (c.law second fuel).Obeyed tr mine e ↔ c.Undisturbed second fuel tr := by
  cases c with
  | hetzner cfg => exact Hetzner.obeyed_iff h hout hsent hunique
  | vultr cfg => exact (Vultr.obeyed_iff h hout hsent hunique).trans (and_iff_right trivial).symm

/-! ## Three creations at Hetzner

In the first one the clean-up is disturbed and nothing is lost: a listing that
is cancelled is tried again. In the second a cancellation meets a wait. The
third one is not disturbed at all, and misses a server whose id it was told. -/

namespace Hetzner

/-- A key, as it is listed. -/
def listedKey : Value :=
  .dict [("id", .int 7), ("name", .str "yascheduler"), ("fingerprint", .str "aa:bb")]

/-- The server, as it is listed. -/
def listedServer : Value :=
  .dict [("id", .int 42), ("name", .str "yascheduler-x"), ("labels", .dict []),
    ("public_net", .dict [("ipv4", .dict [("ip", .str "10.0.0.1")])])]

/-- A page with items and nothing after it. -/
def page (key : String) (items : List Value) : Except Exc Response :=
  .ok { status := 200, text := .ok (.json (.dict [(key, .list items), ("meta", .dict [])])) }

/-- Up to the request for the server: the key is known already. -/
def keyKnown : Trace sig :=
  [.call .publicKey (.ok "ssh-ed25519 AAAA"),
    .call .userData (.ok "#cloud-config"),
    .call .keyName (.ok "yascheduler"),
    .call .fingerprint (.ok "aa:bb"),
    .op (.request { method := .get, path := "ssh_keys",
                    params := firstPage "fingerprint" ("aa:bb".dropPrefix "MD5:").toString })
      (page "ssh_keys" [listedKey]),
    .call .rndLetters "x"]

/-- A listing of the servers with the label. -/
def listReq : Request :=
  { method := .get, path := "servers",
    params := firstPage "label_selector" (reconcileLabelKey ++ "=" ++ ("yascheduler" ++ "-" ++ "x")) }

/-- The instances that are known, one after another. -/
theorem unique_of_known {law : Law} {tr : Trace sig} {mine : String} (known : List String)
    (h : tr.flatMap (fun a => law.shows (law.label tr) a ++ (law.returns a).toList) = known)
    (hmine : ∀ id ∈ known, id = mine) : law.Unique tr mine := by
  subst h
  rintro id ⟨a, ha, hid⟩
  refine hmine id (List.mem_flatMap.mpr ⟨a, ha, List.mem_append.mpr ?_⟩)
  exact hid.imp_right Option.mem_toList.mpr

/-- The connection breaks, and a listing is cancelled. The second one shows the
server, and it is deleted. -/
def brokenThenFound : Trace sig := keyKnown ++
  [.op (.request (postReq {} "#cloud-config" (.int 7) ("yascheduler" ++ "-" ++ "x")))
      (.error (.client "ServerDisconnectedError")),
    .op (.request listReq) (.error (.base "CancelledError")),
    .op (.sleep 10) (.ok ()),
    .op (.request listReq) (page "servers" [listedServer]),
    .op (.request (api.deleteReq "42")) (.ok { status := 404, text := .ok .empty }),
    .op .close (.ok ())]

/-- The server is deleted, and the error is that of the broken connection. -/
theorem obeyed_brokenThenFound :
    ((Creation.hetzner {}).law 1 5).Obeyed brokenThenFound "42" (.api none) := by
  have h : Finishes ((Creation.hetzner {}).createNode 1 5) brokenThenFound (.error (.api none)) :=
    ⟨_, _, rfl, _, _, rfl, _, _, rfl, _, _, rfl, _, _, rfl, _, _, rfl, _, _, rfl, _, _, rfl,
      _, _, rfl, _, _, rfl, _, _, rfl, _, _, rfl, rfl, rfl⟩
  have hout : FromOutside brokenThenFound := by
    simp [FromOutside, brokenThenFound, keyKnown, fromOutside, page, Exc.outside, Exc.isException]
  have hsent : api.Sent brokenThenFound :=
    ⟨_, List.mem_append_right keyKnown List.mem_cons_self, Option.some_ne_none _⟩
  have hunique : (law {} 5).Unique brokenThenFound "42" :=
    unique_of_known ["42"] rfl fun id hid => List.mem_singleton.mp hid
  refine (Creation.obeyed_iff_undisturbed h hout hsent hunique).mpr ⟨?_, ?_⟩
  · have hnone : brokenThenFound.filterMap interrupt = [] := rfl
    intro a ha e he
    rw [List.filterMap_eq_nil_iff.mp hnone a ha] at he
    cases he
  · intro id hid
    obtain rfl := hunique id hid
    exact ⟨_, List.mem_append_right keyKnown (.tail _ (.tail _ (.tail _ (.head _)))),
      .inl List.mem_cons_self⟩

/-- The connection breaks, and the wait after the first listing is
cancelled. -/
def cancelledWait : Trace sig := keyKnown ++
  [.op (.request (postReq {} "#cloud-config" (.int 7) ("yascheduler" ++ "-" ++ "x")))
      (.error (.client "ServerDisconnectedError")),
    .op (.request listReq) (page "servers" []),
    .op (.sleep 10) (.error (.base "CancelledError")),
    .op .close (.ok ())]

/-- What leaves is not the error of the creation, but the cancellation of its
clean-up. -/
theorem not_obeyed_cancelledWait : ∃ c tr mine e,
    Finishes (Creation.createNode 1 5 c) tr (.error e) ∧ FromOutside tr ∧
      (c.law 1 5).api.Sent tr ∧ (c.law 1 5).Unique tr mine ∧ ¬(c.law 1 5).Obeyed tr mine e := by
  refine ⟨.hetzner {}, cancelledWait, "42", .base "CancelledError", ?_, ?_, ?_, ?_,
    fun hobeyed => ?_⟩
  · exact ⟨_, _, rfl, _, _, rfl, _, _, rfl, _, _, rfl, _, _, rfl, _, _, rfl, _, _, rfl, _, _, rfl,
      _, _, rfl, _, _, rfl, rfl, rfl⟩
  · simp [FromOutside, cancelledWait, keyKnown, fromOutside, page, Exc.outside, Exc.isException]
  · exact ⟨_, List.mem_append_right keyKnown List.mem_cons_self, Option.some_ne_none _⟩
  · exact unique_of_known [] rfl fun id hid => nomatch hid
  · obtain ⟨tr₁, tr₂, heq, hplain⟩ := hobeyed.original
    have hbroken : Finishes (plain {} 5) (cancelledWait.take 7) (.error (.api none)) :=
      ⟨_, _, rfl, _, _, rfl, _, _, rfl, _, _, rfl, _, _, rfl, _, _, rfl, _, _, rfl, rfl, rfl⟩
    have hsame := (hplain.unique hbroken
      (heq.symm.trans (List.take_append_drop 7 cancelledWait).symm)).2.1
    cases hsame

/-- The server has no address, and no listing shows it. -/
def withoutAddress : Trace sig := keyKnown ++
  .op (.request (postReq {} "#cloud-config" (.int 7) ("yascheduler" ++ "-" ++ "x")))
      (.ok { status := 201, text := .ok (.json (.dict [("server", .dict [("id", .int 42),
        ("name", .str "yascheduler-x"), ("labels", .dict []),
        ("public_net", .dict [("ipv4", .dict [("ip", .str "")])])])])) }) ::
  (List.replicate 4 [.op (.request listReq) (page "servers" []), .op (.sleep 10) (.ok ())]).flatten ++
  [.op (.request listReq) (page "servers" []), .op .close (.ok ())]

/-- Its id was returned, and it is not deleted: a response without an address is not
of the shape that the client expects, and so its id is not read. -/
theorem not_obeyed_withoutAddress : ∃ c tr mine e,
    Finishes (Creation.createNode 1 5 c) tr (.error e) ∧ FromOutside tr ∧
      (c.law 1 5).api.Sent tr ∧ (c.law 1 5).Unique tr mine ∧ ¬(c.law 1 5).Obeyed tr mine e := by
  refine ⟨.hetzner {}, withoutAddress, "42", .api none, ?_, ?_, ?_, ?_, fun hobeyed => ?_⟩
  · exact ⟨_, _, rfl, _, _, rfl, _, _, rfl, _, _, rfl, _, _, rfl, _, _, rfl, _, _, rfl, _, _, rfl,
      _, _, rfl, _, _, rfl, _, _, rfl, _, _, rfl, _, _, rfl, _, _, rfl, _, _, rfl, _, _, rfl,
      _, _, rfl, rfl, rfl⟩
  · simp [FromOutside, withoutAddress, keyKnown, fromOutside, page, List.replicate]
  · exact ⟨_, List.mem_append_left _ (List.mem_append_right keyKnown List.mem_cons_self),
      Option.some_ne_none _⟩
  · exact unique_of_known ["42"] rfl fun id hid => List.mem_singleton.mp hid
  · have hnone : deletes withoutAddress = [] := rfl
    obtain ⟨ans, hmem⟩ := hobeyed.deleted "42" ⟨_, List.mem_append_left _
      (List.mem_append_right keyKnown List.mem_cons_self), .inr rfl⟩
    have hdelete := List.filterMap_eq_nil_iff.mp hnone _ hmem
    cases hdelete

end Hetzner

end Yascheduler.Http
