import Yascheduler.Async.Trace
import Yascheduler.Infra.CloudProvisioner

/-!
# A VM is provisioned or removed

Once `create_node` has returned, a VM is running and billed. `allocate` then
connects to it, waits for cloud-init, sets the machine up – and whatever goes
wrong there, cancellation included, disconnects the node and deletes the VM
before the error leaves. Both steps of the teardown are guarded, so that
neither keeps the other from being tried, or replaces the error.

The provisioner is taken apart along its traces: a trace of the setup ends
with its first failure, and a trace of the teardown has the two steps in it,
whatever they are answered.

## Which error leaves

A teardown can fail as well, in two places, and its errors are swallowed: what
leaves is the error of the setup. Its text is the one of the step that failed,
with the original text behind it, and for a cancellation it is the cancellation.
So the law names the error, not only its class – that some `CloudSetupError`
leaves would also be true of a teardown that has replaced it.
-/

namespace Yascheduler

open Store Async

/-! ## Reading a trace

The error that leaves is a function of the answers: the first answer at which
the setup fails, with the text of the step it belongs to. It is computed here,
so that the law can say which error it is without referring to the code that
raises it. -/

/-- A step of a teardown. There are two, and their order is part of the law. -/
inductive Teardown where
  | disconnect (n : NodeId)
  | delete (provider externalId : String)
deriving DecidableEq

/-- The answer is one to a step of a teardown. -/
def teardownStep : Answer sig → Option Teardown
  | .call (.popSession n) _ => some (.disconnect n)
  | .op (.deleteNode provider externalId) _ => some (.delete provider externalId)
  | _ => none

/-- The steps of a teardown that were tried, in order. -/
def teardowns (tr : Trace sig) : List Teardown := tr.filterMap teardownStep

/-- The answer tells that a VM was created. -/
def creation : Answer sig → Option (String × CloudCreateNodeDTO)
  | .op (.createNode provider) (.ok dto) => some (provider, dto)
  | _ => none

/-- The VM that was created. -/
def created (tr : Trace sig) : Option (String × CloudCreateNodeDTO) := tr.findSome? creation

/-- `try: …  except Exception as e: raise g(e)`, as a function of the error. -/
def wrapped (g : Exc → Exc) (e : Exc) : Exc := if e.isException then g e else e

/-- **What leaves `_setup_vm`** because of this answer. Each step has its own
text, which ends with that of the original error; an exit code of cloud-init other
than clean and degraded is an error without an original. -/
def setupFailure (cfg : Settings) (node : Node) (adapter : String) :
    Answer sig → Option Exc
  | .op .listPrivateKeys (.error e) => some e
  | .op (.connectMachine _) (.error e) => some (wrapped (fun e =>
      .cloudSetup ("SSH connect to " ++ node.hostname ++ " failed: " ++ e.str)) e)
  | .op (.cloudInit _) (.error e) => some (wrapped (cloudInitError cfg node adapter) e)
  | .op (.cloudInit _) (.ok result) =>
    if result.exitCode ≠ 2 ∧ result.exitCode ≠ 0 then some (cloudInitFailed node result)
    else none
  | .op (.setupNode _) (.error e) => some (wrapped (fun e =>
      .cloudSetup ("Setup node " ++ node.hostname ++ " failed: " ++ e.str)) e)
  | _ => none

/-- The answer is about a slot of a provider. -/
def onSlot : Answer sig → Bool
  | .op (.slotAcquire _) _ => true
  | .call (.slotRelease _) _ => true
  | _ => false

/-- What an error of `_setup_vm` becomes when it leaves `allocate`: an ordinary
exception is a `CloudSetupError`, everything else is itself. -/
def leaving : Exc → Exc
  | .cloudSetup m => .cloudSetup m
  | .cancelled => .cancelled
  | .control name => .control name
  | e => .cloudSetup ("Setup node error: " ++ e.str)

/-- **The law of a provisioning**, in terms of what it is answered and how it
ends. -/
structure Provisioned (cfg : Settings) (node : Node) (tr : Trace sig)
    (r : Except Exc Node) : Prop where
  /-- a slot that is taken is given back, last of all -/
  slot : ∀ a, .op (.slotAcquire a) (.ok ()) ∈ tr → ∃ inner,
    tr = .op (.slotAcquire a) (.ok ()) :: (inner ++ [.call (.slotRelease a) ()]) ∧
      ∀ b ∈ inner, onSlot b = false
  /-- a VM that is not handed over is removed: the node is disconnected, then
  the VM is deleted, each once -/
  removed : ∀ a dto e, created tr = some (a, dto) → r = .error e →
    teardowns tr = [.disconnect node.nodeId, .delete a dto.externalId]
  /-- the error is that of the first step that failed, with its text, whatever the
  teardown after it was answered -/
  error : ∀ a dto e, created tr = some (a, dto) → r = .error e →
    ∃ before good bad after e₀,
      tr = before ++ .op (.createNode a) (.ok dto) :: (good ++ bad :: after) ∧
        (∀ b ∈ good, setupFailure cfg (node.withVm dto a) a b = none) ∧
        setupFailure cfg (node.withVm dto a) a bad = some e₀ ∧ e = leaving e₀
  /-- a VM that is handed over is not touched, and the node says how to reach
  it -/
  success : ∀ node', r = .ok node' → teardowns tr = [] ∧ ∃ a dto,
    created tr = some (a, dto) ∧ node' = { node with
      enabled := true
      hostname := dto.hostname
      externalId := some dto.externalId
      cloud := some a
      username := dto.username
      port := dto.port
      jumpHost := dto.jumpHost
      jumpPort := dto.jumpPort
      jumpUsername := dto.jumpUsername }

/-! ## The setup

The setup is a sequence of steps, each with a handler that gives the error a
text. A handler that only raises another error keeps the property that a
program ends with its first failure, and this is all that has to be known of
it. -/

/-- A handler that raises another error wraps the one it was given. -/
theorem exceptException_raise {α : Type} (x : Prog α) (g : Exc → Exc) :
    (exceptException x fun e => raise (g e)) = Co.tryCatch x fun e => .throw (wrapped g e) := by
  unfold exceptException wrapped
  refine congrArg (Co.tryCatch x) (funext fun e => ?_)
  split <;> rfl

/-- An awaited step with its handler. -/
theorem failsFast_reraise {failure : Answer sig → Option Exc} {o : Op} {g : Exc → Exc}
    (hok : ∀ a, failure (.op o (.ok a)) = none)
    (herr : ∀ e, failure (.op o (.error e)) = some (wrapped g e)) :
    FailsFast failure Eq (exceptException (await o) fun e => raise (g e)) := by
  rw [exceptException_raise]
  intro tr r hends
  rcases finishes_tryCatch.mp hends with ⟨a, rfl, h⟩ | ⟨e, tr₁, tr₂, rfl, h, rfl, rfl⟩
  · obtain rfl := finishes_op.mp h
    refine ⟨fun _ _ b hb => ?_, fun _ he => nomatch he⟩
    exact List.mem_singleton.mp hb ▸ hok a
  · obtain rfl := finishes_op.mp h
    refine ⟨fun _ he => (nomatch he), fun e' he => ?_⟩
    cases he
    exact ⟨[], _, _, rfl, fun _ hb => (nomatch hb), herr e, rfl⟩

section

variable (cfg : Settings) (node : Node) (adapter : String)

/-- Connecting fails in its own words. -/
theorem failsFast_connectToVm :
    FailsFast (setupFailure cfg node adapter) Eq (connectToVm node) :=
  failsFast_bind (failsFast_op (fun _ => rfl) (fun _ => rfl) fun _ => rfl) fun _ =>
    failsFast_reraise (fun _ => rfl) fun _ => rfl

/-- The wait for cloud-init. -/
def waitCloudInit (s : SessionId) : Prog Unit :=
  if cfg.needsCloudInit adapter then
    Co.bind (exceptException (await (.cloudInit s)) fun e =>
      raise (cloudInitError cfg node adapter e)) fun result =>
      if result.exitCode ≠ 2 ∧ result.exitCode ≠ 0 then raise (cloudInitFailed node result)
      else .ret ()
  else .ret ()

/-- **The setup, step by step.** Written so that each step has its handler around it,
which is how it fails with its own text. -/
theorem setupVm_eq : setupVm cfg node adapter = Co.bind (connectToVm node) fun s =>
    Co.bind (waitCloudInit cfg node adapter s) fun _ =>
      Co.bind (exceptException (await (.setupNode s)) fun e =>
        raise (.cloudSetup ("Setup node " ++ node.hostname ++ " failed: " ++ e.str))) fun _ =>
        .ret { node with enabled := true } := by
  unfold setupVm waitCloudInit
  refine congrArg (Co.bind (connectToVm node)) (funext fun s => ?_)
  split
  · rw [Co.bind_assoc]
    refine congrArg (Co.bind _) (funext fun result => ?_)
    split <;> rfl
  · rfl

/-- So does the wait for cloud-init, which may time out, raise, or report an exit
code. -/
theorem failsFast_waitCloudInit (s : SessionId) :
    FailsFast (setupFailure cfg node adapter) Eq (waitCloudInit cfg node adapter s) := by
  unfold waitCloudInit
  split
  case isFalse => exact failsFast_ret ()
  intro tr r hends
  rw [exceptException_raise] at hends
  rcases finishes_bind.mp hends with ⟨e, rfl, h⟩ | ⟨result, tr₁, tr₂, rfl, h₁, h₂⟩
  · -- the command could not be run
    rcases finishes_tryCatch.mp h with ⟨_, he, -⟩ | ⟨e₀, tr₁, tr₂, rfl, h₁, rfl, he⟩
    · cases he
    · obtain rfl := finishes_op.mp h₁
      cases he
      refine ⟨fun _ he => (nomatch he), fun e he => ?_⟩
      cases he
      exact ⟨[], _, _, rfl, fun _ hb => (nomatch hb), rfl, rfl⟩
  · rcases finishes_tryCatch.mp h₁ with ⟨_, he, h₁⟩ | ⟨_, _, _, -, -, -, he⟩
    · cases he
      obtain rfl := finishes_op.mp h₁
      split at h₂
      · -- it tells that cloud-init failed
        rename_i hcode
        obtain ⟨rfl, rfl⟩ := h₂
        refine ⟨fun _ he => (nomatch he), fun e he => ?_⟩
        cases he
        exact ⟨[], _, _, rfl, fun _ hb => (nomatch hb), if_pos hcode, rfl⟩
      · rename_i hcode
        obtain ⟨rfl, rfl⟩ := h₂
        refine ⟨fun _ _ b hb => ?_, fun e he => (nomatch he)⟩
        obtain rfl := List.mem_singleton.mp hb
        exact if_neg hcode
    · cases he

/-- **The setup ends with its first failure**, in the words of the step. So the
error that leaves can be read from the answers, without the program. -/
theorem failsFast_setupVm :
    FailsFast (setupFailure cfg node adapter) Eq (setupVm cfg node adapter) := by
  rw [setupVm_eq]
  refine failsFast_bind (failsFast_connectToVm cfg node adapter) fun s => ?_
  refine failsFast_bind (failsFast_waitCloudInit cfg node adapter s) fun _ => ?_
  exact failsFast_bind (failsFast_reraise (fun _ => rfl) fun _ => rfl) fun _ => failsFast_ret _

end

/-- A setup that succeeds enables the node, and changes nothing else of it. -/
theorem returns_setupVm (cfg : Settings) (node : Node) (adapter : String) :
    Returns (fun node' => node' = { node with enabled := true }) (setupVm cfg node adapter) := by
  rw [setupVm_eq]
  exact returns_then fun _ => returns_then fun _ => returns_then fun _ => rfl

/-- What the setup is answered. -/
theorem sees_setupVm {q : Answer sig → Prop} (cfg : Settings) (node : Node) (adapter : String)
    (hkeys : ∀ r, q (.op .listPrivateKeys r)) (hconn : ∀ n r, q (.op (.connectMachine n) r))
    (hinit : ∀ s r, q (.op (.cloudInit s) r)) (hsetup : ∀ s r, q (.op (.setupNode s) r)) :
    Sees q (setupVm cfg node adapter) := by
  have hreraise : ∀ {α : Type} {x : Prog α} {g : Exc → Exc}, Sees q x →
      Sees q (exceptException x fun e => raise (g e)) := by
    intro α x g hx
    refine sees_tryCatch hx fun e => ?_
    split <;> exact sees_throw _
  rw [setupVm_eq]
  refine sees_bind (sees_bind (sees_op hkeys) fun _ => hreraise (sees_op (hconn node)))
    fun s => sees_bind ?_ fun _ => sees_bind (hreraise (sees_op (hsetup s))) fun _ => sees_ret _
  unfold waitCloudInit
  split
  · refine sees_bind (hreraise (sees_op (hinit s))) fun code => ?_
    split
    · exact sees_throw _
    · exact sees_ret _
  · exact sees_ret _

/-! ## The teardown

The teardown is told the error and ends with it. Inside, each of the two steps
is tried under a handler for everything, including a cancellation, because the
second must not depend on how the first one goes. -/

/-- What closing a session is answered. -/
theorem sees_closeSession {q : Answer sig → Prop} (s : SessionId)
    (hmark : ∀ a, q (.call (.markClosed s) a)) (hconn : ∀ a, q (.call (.closeConn s) a))
    (hmonitor : ∀ r, q (.op (.monitorEnd s) r)) (hwait : ∀ r, q (.op (.waitClosed s) r)) :
    Sees q (closeSession s) := by
  refine sees_bind (sees_sync hmark) fun wasOpen => ?_
  have hclose : Sees q (do
      let wasOpen ← ask (.closeConn s)
      if wasOpen then
        await (.waitClosed s)) := by
    refine sees_bind (sees_sync hconn) fun open_ => ?_
    split
    · exact sees_op hwait
    · exact sees_ret ()
  cases wasOpen with
  | none => exact sees_ret ()
  | some monitored =>
    show Sees _ (if monitored then _ else _)
    split
    · refine sees_bind (sees_tryCatch (sees_op hmonitor) fun e => ?_) fun _ => hclose
      split
      · exact sees_ret ()
      · exact sees_throw e
    · exact hclose

/-- Disconnecting a node starts with taking its session out of the registry. -/
theorem finishes_disconnect {n : NodeId} {tr : Trace sig} {r : Except Exc Unit}
    (h : Finishes (disconnect n) tr r) : ∃ found rest,
      tr = .call (.popSession n) found :: rest ∧
        ∀ b ∈ rest, teardownStep b = none ∧ onSlot b = false ∧ creation b = none := by
  obtain ⟨found, rest, rfl, hrest⟩ := h
  refine ⟨found, rest, rfl, ?_⟩
  cases found with
  | none => exact sees_ret () rest r hrest
  | some s =>
    exact sees_closeSession s (fun _ => ⟨rfl, rfl, rfl⟩) (fun _ => ⟨rfl, rfl, rfl⟩)
      (fun _ => ⟨rfl, rfl, rfl⟩) (fun _ => ⟨rfl, rfl, rfl⟩) rest r hrest

/-- **A teardown tries both steps**, and ends with the error it was told. An error
of a step is only logged, a cancellation included: otherwise it would replace the
error that matters. -/
theorem finishes_teardownVm {adapter : String} {node : Node} {dto : CloudCreateNodeDTO} {e : Exc}
    {tr : Trace sig} {r : Except Exc Node} (h : Finishes (teardownVm adapter node dto e) tr r) :
    r = .error (leaving e) ∧
      teardowns tr = [.disconnect node.nodeId, .delete adapter dto.externalId] ∧
      ∀ b ∈ tr, onSlot b = false ∧ creation b = none := by
  rcases finishes_bind.mp h with ⟨e', -, h⟩ | ⟨u, tr₁, tr₂, rfl, h₁, h₂⟩
  · cases (finishes_ignore.mp h).1
  obtain ⟨-, r₁, h₁⟩ := finishes_ignore.mp h₁
  rcases finishes_bind.mp h₂ with ⟨e', -, h⟩ | ⟨u', tr₃, tr₄, rfl, h₃, h₄⟩
  · cases (finishes_ignore.mp h).1
  obtain ⟨-, r₃, h₃⟩ := finishes_ignore.mp h₃
  obtain rfl := finishes_op.mp h₃
  obtain ⟨found, rest, rfl, hrest⟩ := finishes_disconnect h₁
  have hlast : tr₄ = [] ∧ r = .error (leaving e) := by
    cases e <;> exact h₄
  obtain ⟨rfl, rfl⟩ := hlast
  refine ⟨rfl, ?_, ?_⟩
  · have hnone : rest.filterMap teardownStep = [] :=
      List.filterMap_eq_nil_iff.mpr fun b hb => (hrest b hb).1
    unfold teardowns
    simp only [List.filterMap_append, List.filterMap_cons, teardownStep, hnone]
    rfl
  · intro b hb
    simp only [List.cons_append, List.mem_cons, List.mem_append, List.not_mem_nil, or_false] at hb
    rcases hb with rfl | hb | rfl
    · exact ⟨rfl, rfl⟩
    · exact (hrest b hb).2
    · exact ⟨rfl, rfl⟩

/-! ## The creation

Before `create_node` has returned there is no VM that `allocate` could delete.
What a failed request leaves behind at the provider is the business of the
request, and it is looked at where the providers are (`OrphanedCreations`,
`AzureCreation`, `RentedInstances`). -/

/-- The part of `allocate` that creates the VM. -/
def requestVm (adapter : String) : Prog CloudCreateNodeDTO :=
  exceptException (do await .sshKey; await (.createNode adapter)) fun e =>
    raise (.cloudAllocate ("Create node error: " ++ e.str))

/-- A VM is created, or nothing was done that would have to be undone. -/
theorem finishes_requestVm {adapter : String} {tr : Trace sig}
    {r : Except Exc CloudCreateNodeDTO} (h : Finishes (requestVm adapter) tr r) :
    (∃ dto, r = .ok dto ∧
      tr = [.op .sshKey (.ok ()), .op (.createNode adapter) (.ok dto)]) ∨
    (∃ e, r = .error e) ∧
      ∀ b ∈ tr, creation b = none ∧ teardownStep b = none ∧ onSlot b = false := by
  unfold requestVm at h
  rw [exceptException_raise] at h
  rcases finishes_tryCatch.mp h with ⟨dto, rfl, hreq⟩ | ⟨e, tr₁, tr₂, rfl, hreq, rfl, rfl⟩
  · rcases finishes_bind.mp hreq with ⟨_, he, -⟩ | ⟨u, tr₁, tr₂, rfl, h₁, h₂⟩
    · cases he
    · obtain rfl := finishes_op.mp h₁
      obtain rfl := finishes_op.mp h₂
      exact .inl ⟨dto, rfl, rfl⟩
  · refine .inr ⟨⟨_, rfl⟩, fun b hb => ?_⟩
    rw [List.append_nil] at hb
    rcases finishes_bind.mp hreq with ⟨_, -, hkey⟩ | ⟨u, tr₂, tr₃, rfl, h₁, h₂⟩
    · obtain rfl := finishes_op.mp hkey
      obtain rfl := List.mem_singleton.mp hb
      exact ⟨rfl, rfl, rfl⟩
    · obtain rfl := finishes_op.mp h₁
      obtain rfl := finishes_op.mp h₂
      simp only [List.cons_append, List.nil_append, List.mem_cons, List.not_mem_nil,
        or_false] at hb
      rcases hb with rfl | rfl <;> exact ⟨rfl, rfl, rfl⟩

/-- What a provisioning has done under its slot. The cases are those of its end, with
what was torn down in each. -/
inductive Created (cfg : Settings) (adapter : String) (node : Node) :
    Trace sig → Except Exc Node → Prop where
  /-- no VM was created -/
  | nothing {tr e} (h : ∀ b ∈ tr, creation b = none ∧ teardownStep b = none) :
      Created cfg adapter node tr (.error e)
  /-- a VM was created and set up -/
  | vm {dto tr} (h : ∀ b ∈ tr, teardownStep b = none) :
      Created cfg adapter node
        (.op .sshKey (.ok ()) :: .op (.createNode adapter) (.ok dto) :: tr)
        (.ok { node.withVm dto adapter with enabled := true })
  /-- a VM was created and removed -/
  | removed {dto good bad tr e₀}
      (hgood : ∀ b ∈ good, setupFailure cfg (node.withVm dto adapter) adapter b = none)
      (hquiet : ∀ b ∈ good ++ [bad], teardownStep b = none)
      (hbad : setupFailure cfg (node.withVm dto adapter) adapter bad = some e₀)
      (h : teardowns tr = [.disconnect node.nodeId, .delete adapter dto.externalId]) :
      Created cfg adapter node (.op .sshKey (.ok ()) ::
        .op (.createNode adapter) (.ok dto) :: (good ++ bad :: tr)) (.error (leaving e₀))

/-- These are all the ways a provisioning can go. -/
theorem finishes_createVm {cfg : Settings} {adapter : String} {node : Node} {tr : Trace sig}
    {r : Except Exc Node} (h : Finishes (createVm cfg adapter node) tr r) :
    Created cfg adapter node tr r ∧ ∀ b ∈ tr, onSlot b = false := by
  have hsetup : ∀ dto, Sees (fun b => teardownStep b = none ∧ onSlot b = false)
      (setupVm cfg (node.withVm dto adapter) adapter) := fun dto =>
    sees_setupVm cfg _ adapter (fun _ => ⟨rfl, rfl⟩) (fun _ _ => ⟨rfl, rfl⟩)
      (fun _ _ => ⟨rfl, rfl⟩) fun _ _ => ⟨rfl, rfl⟩
  rcases finishes_bind.mp h with ⟨e, rfl, hreq⟩ | ⟨dto, tr₁, tr₂, rfl, hreq, hguard⟩
  · rcases finishes_requestVm hreq with ⟨_, he, -⟩ | ⟨-, hquiet⟩
    · cases he
    · exact ⟨.nothing fun b hb => ⟨(hquiet b hb).1, (hquiet b hb).2.1⟩,
        fun b hb => (hquiet b hb).2.2⟩
  · rcases finishes_requestVm hreq with ⟨dto', hdto, rfl⟩ | ⟨⟨_, he⟩, -⟩
    case inr => cases he
    cases hdto
    have hslot : ∀ tr, (∀ b ∈ tr, onSlot b = false) →
        ∀ b ∈ .op .sshKey (.ok ()) :: .op (.createNode adapter) (.ok dto) :: tr,
          onSlot b = false := by
      intro tr htr b hb
      simp only [List.mem_cons] at hb
      rcases hb with rfl | rfl | hb
      · rfl
      · rfl
      · exact htr b hb
    rcases finishes_tryCatch.mp hguard with ⟨node', rfl, hok⟩ | ⟨e, tr₃, tr₄, rfl, hfail, hdown⟩
    · obtain rfl := (returns_setupVm cfg _ adapter).finishes hok
      exact ⟨.vm fun b hb => (hsetup dto tr₂ _ hok b hb).1,
        hslot tr₂ fun b hb => (hsetup dto tr₂ _ hok b hb).2⟩
    · obtain ⟨good, bad, e₀, rfl, hgood, hbad, rfl⟩ :=
        (failsFast_setupVm cfg _ adapter tr₃ _ hfail).2 e rfl
      obtain ⟨rfl, hsteps, hquiet⟩ := finishes_teardownVm hdown
      have hinner := hslot (good ++ [bad] ++ tr₄) fun b hb =>
        (List.mem_append.mp hb).elim (fun hb => (hsetup dto _ _ hfail b hb).2)
          fun hb => (hquiet b hb).1
      rw [List.append_assoc] at hinner ⊢
      exact ⟨.removed hgood (fun b hb => (hsetup dto _ _ hfail b hb).1) hbad hsteps, hinner⟩

/-! ## The law -/

/-- The steps of two parts, one after the other. -/
theorem teardowns_append (tr tr' : Trace sig) :
    teardowns (tr ++ tr') = teardowns tr ++ teardowns tr' := List.filterMap_append

/-- A part without such steps has none. -/
theorem teardowns_quiet {tr : Trace sig} (h : ∀ b ∈ tr, teardownStep b = none) :
    teardowns tr = [] := List.filterMap_eq_nil_iff.mpr h

/-- Taking the slot and giving it back creates nothing. -/
theorem created_quiet {adapter : String} {tr : Trace sig} (h : ∀ b ∈ tr, creation b = none) :
    created (.op (.slotAcquire adapter) (.ok ()) ::
      (tr ++ [.call (.slotRelease adapter) ()])) = none := by
  refine List.findSome?_eq_none_iff.mpr fun b hb => ?_
  simp only [List.mem_cons, List.mem_append, List.not_mem_nil, or_false] at hb
  rcases hb with rfl | hb | rfl
  · rfl
  · exact h b hb
  · rfl

/-- What was done under the slot, with the slot around it. -/
theorem Created.provisioned {cfg : Settings} {adapter : String} {node : Node}
    {inner : Trace sig} {r : Except Exc Node} (h : Created cfg adapter node inner r)
    (hslot : ∀ b ∈ inner, onSlot b = false) :
    Provisioned cfg node (.op (.slotAcquire adapter) (.ok ()) ::
      (inner ++ [.call (.slotRelease adapter) ()])) r where
  slot a ha := by
    have hhead : (.op (.slotAcquire a) (.ok ()) : Answer sig) =
        .op (.slotAcquire adapter) (.ok ()) := by
      rcases List.mem_cons.mp ha with ha | ha
      · exact ha
      · rcases List.mem_append.mp ha with ha | ha
        · exact nomatch hslot _ ha
        · cases List.mem_singleton.mp ha
    cases hhead
    exact ⟨inner, rfl, hslot⟩
  removed a dto e hcreated hr := by
    cases h with
    | nothing hquiet =>
      rw [created_quiet fun b hb => (hquiet b hb).1] at hcreated
      cases hcreated
    | vm => cases hr
    | @removed dto' good bad tr' _ _ hquiet _ hsteps =>
      cases hcreated
      refine (teardowns_append (.op (.slotAcquire adapter) (.ok ()) :: .op .sshKey (.ok ()) ::
        .op (.createNode adapter) (.ok dto) :: (good ++ bad :: tr')) _).trans ?_
      show teardowns (good ++ bad :: tr') ++ [] = _
      rw [List.append_nil, List.append_cons, teardowns_append, teardowns_quiet hquiet]
      exact hsteps
  error a dto e hcreated hr := by
    cases h with
    | nothing hquiet =>
      rw [created_quiet fun b hb => (hquiet b hb).1] at hcreated
      cases hcreated
    | vm => cases hr
    | @removed dto' good bad tr' e₀ hgood _ hbad =>
      cases hcreated
      cases hr
      refine ⟨[.op (.slotAcquire adapter) (.ok ()), .op .sshKey (.ok ())], good, bad,
        tr' ++ [.call (.slotRelease adapter) ()], e₀, ?_, hgood, hbad, rfl⟩
      simp
  success node' hr := by
    cases h with
    | nothing => cases hr
    | @vm dto tr' hquiet =>
      cases hr
      refine ⟨?_, adapter, dto, rfl, rfl⟩
      refine (teardowns_append (.op (.slotAcquire adapter) (.ok ()) :: .op .sshKey (.ok ()) ::
        .op (.createNode adapter) (.ok dto) :: tr') _).trans ?_
      show teardowns tr' ++ [] = _
      rw [List.append_nil, teardowns_quiet hquiet]
    | removed => cases hr

/-- **A VM is handed over or removed**, whatever happens on the way. The slot is
given back in either case, and the error that leaves is the one that ended the
setup. -/
theorem allocate_provisioned (cfg : Settings) (provider : String) (node : Node)
    (tr : Trace sig) (r : Except Exc Node)
    (h : Finishes (cloudsAllocate cfg provider node) tr r) : Provisioned cfg node tr r := by
  have hnothing : ∀ e, r = .error e → (∀ b ∈ tr, creation b = none) →
      (∀ a, .op (.slotAcquire a) (.ok ()) ∉ tr) → Provisioned cfg node tr r := by
    rintro e rfl hquiet hslot
    exact
      { slot := fun a ha => absurd ha (hslot a)
        removed := fun _ _ _ hc => nomatch (List.findSome?_eq_none_iff.mpr hquiet).symm.trans hc
        error := fun _ _ _ hc => nomatch (List.findSome?_eq_none_iff.mpr hquiet).symm.trans hc
        success := fun _ he => nomatch he }
  unfold cloudsAllocate at h
  split at h
  · obtain ⟨rfl, rfl⟩ := h
    exact hnothing _ rfl (fun _ hb => nomatch hb) fun _ hb => nomatch hb
  · obtain ⟨rfl, rfl⟩ := h
    exact hnothing _ rfl (fun _ hb => nomatch hb) fun _ hb => nomatch hb
  · rename_i adapter config _ _
    rcases finishes_asyncWith.mp h with
      ⟨e, rfl, henter⟩ | ⟨u, r₀, tr₁, tr₂, tr₃, rx, rfl, henter, hbody, hexit, rfl⟩
    · obtain rfl := finishes_op.mp henter
      refine hnothing e rfl (fun b hb => ?_) fun a hb => ?_
      · exact List.mem_singleton.mp hb ▸ rfl
      · cases List.mem_singleton.mp hb
    · obtain rfl := finishes_op.mp henter
      obtain ⟨hcreated, hslot⟩ := finishes_createVm hbody
      obtain ⟨v, rfl, rfl⟩ := finishes_sync.mp hexit
      exact hcreated.provisioned hslot

namespace Provisioning

def cfg : Settings := { clouds := [{ name := "hetzner", maxNodes := 2 }] }

def tmp : Node := { nodeId := 1, enabled := false }

def vm : CloudCreateNodeDTO := { hostname := "10.0.0.1", externalId := "vm-1" }

/-- Nobody can connect to the VM, and it cannot be deleted either. -/
def unreachable : Trace sig :=
  [.op (.slotAcquire "hetzner") (.ok ()), .op .sshKey (.ok ()),
   .op (.createNode "hetzner") (.ok vm), .op .listPrivateKeys (.ok ()),
   .op (.connectMachine (tmp.withVm vm "hetzner")) (.error (.timeout "timed out")),
   .call (.popSession 1) none, .op (.deleteNode "hetzner" "vm-1") (.error .cancelled),
   .call (.slotRelease "hetzner") ()]

end Provisioning

/-- The error of the connection leaves, although the deletion is cancelled: what was
told to the teardown is what it ends with. -/
theorem allocate_unreachable :
    Provisioned Provisioning.cfg Provisioning.tmp Provisioning.unreachable
      (.error (.cloudSetup "SSH connect to 10.0.0.1 failed: timed out")) := by
  refine allocate_provisioned Provisioning.cfg "hetzner" Provisioning.tmp _ _ ?_
  exact ⟨_, _, rfl, _, _, rfl, _, _, rfl, _, _, rfl, _, _, rfl, _, _, rfl, _, _, rfl, _, _, rfl,
    rfl, rfl⟩

end Yascheduler
