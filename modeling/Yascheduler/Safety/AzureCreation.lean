import Yascheduler.Infra.Providers.Azure
import Yascheduler.Async.Trace

/-!
# What a failed Azure creation leaves behind

The clean-up guards the virtual machine only: from its request on, whatever
fails, both resources are deleted, and the clean-up hides no error. But the NIC
is accepted long before. Waiting for it, finding its address, tagging it and
building the parameters of the machine all come before the guard, so an error
in between leaves the NIC behind.

## What counts as left behind

A resource counts from the moment its request is accepted until its deletion is
asked for, whatever the deletion comes to. That is what the code can do, and it
is why the result is an equivalence: for the machine the guard does it always,
and for the NIC exactly if nothing fails before the guard.

The address of the NIC plays a role because a NIC without one is an error of the
code and not of Azure: no operation fails there, and the creation ends all the
same.
-/

namespace Yascheduler.Azure

open Async

/-! ## What a trace tells

The creation and the deletion of a resource are accepted long before they are
done, and the code waits for them in a second operation. What counts here are
the acceptances. They are answers, so both the resources and what became of
them are read from the trace. -/

/-- A resource: its group and its name. Azure has no other identifiers that the code
uses. -/
abbrev Resource := String × String

/-- The NIC whose creation is accepted with an answer. -/
def acceptedNic : Answer sig → Option Resource
  | .op (.beginCreateNic group name _) (.ok _) => some (group, name)
  | _ => none

/-- The machine whose creation is accepted. -/
def acceptedVm : Answer sig → Option Resource
  | .op (.beginCreateVm group name _) (.ok _) => some (group, name)
  | _ => none

/-- The NIC whose deletion is issued, whatever becomes of it. -/
def deletedNic : Answer sig → Option Resource
  | .op (.beginDeleteNic group name) _ => some (group, name)
  | _ => none

/-- The machine whose deletion is issued. -/
def deletedVm : Answer sig → Option Resource
  | .op (.beginDeleteVm group name) _ => some (group, name)
  | _ => none

/-- The error a failed answer makes, or a NIC without an address. A NIC without an
address is an error that the code raises itself. -/
def failure : Answer sig → Option Error
  | .op .nicResult (.ok nic) => if nic.ipAddr = none then some (.runtime noIpMessage) else none
  | .op _ (.error e) => some e
  | .call .exportPublicKey (.error e) => some e
  | .call (.renderBase64 _) (.error e) => some e
  | _ => none

/-- The steps between the request of the NIC and that of the machine. They stand
before the `try`, so nothing is cleaned up after them. -/
def between : Answer sig → Bool
  | .op .nicWait _ | .op .nicResult _ | .op (.updateTags ..) _ => true
  | .call .exportPublicKey _ | .call (.renderBase64 _) _ => true
  | _ => false

/-- Nothing is created or deleted. -/
def Silent (a : Answer sig) : Prop :=
  acceptedNic a = none ∧ acceptedVm a = none ∧ deletedNic a = none ∧ deletedVm a = none

/-- A step in between fails. -/
def FailsBetween (tr : Trace sig) : Prop := ∃ a ∈ tr, between a = true ∧ failure a ≠ none

instance (tr : Trace sig) : Decidable (FailsBetween tr) :=
  inferInstanceAs (Decidable (∃ a ∈ tr, between a = true ∧ failure a ≠ none))

/-- Azure gives a NIC the name it was requested with. The clean-up deletes it by the
name that was answered. -/
def KeepsName (tr : Trace sig) : Prop :=
  ∀ nic, .op .nicResult (.ok nic) ∈ tr → ∀ r ∈ tr.filterMap acceptedNic, nic.name = r.2

/-- **A creation leaves nothing behind.** For everything that was accepted a
deletion is issued, if the creation fails; whether Azure deletes it is not asked. -/
structure LeavesNothing (tr : Trace sig) (r : Except Error CloudCreateNodeDTO) : Prop where
  nics : ∀ e, r = .error e → ∀ nic ∈ tr.filterMap acceptedNic, nic ∈ tr.filterMap deletedNic
  vms : ∀ e, r = .error e → ∀ vm ∈ tr.filterMap acceptedVm, vm ∈ tr.filterMap deletedVm
  /-- a machine is deleted before its NIC -/
  vmFirst : ∀ before a after, tr = before ++ a :: after → deletedNic a ≠ none →
    ∀ vm ∈ tr.filterMap acceptedVm, vm ∈ before.filterMap deletedVm
  /-- the error is that of the step that failed first -/
  original : ∀ e, r = .error e → tr.findSome? failure = some e

/-! ## The steps up to the guard

There are no handlers before the guard, so the creation ends with its first
failure there. The failures are collected by `failure`, in one definition for
all operations, so it is enough to know that one of them is found between the
two requests. -/

theorem failsFast_fallible {c : Call} (h : sig.Ans c = Except Error String)
    (hfailure : ∀ a, failure (.call c a) = Co.errorOf (S := sig) (h ▸ a)) :
    FailsFast failure Eq (fallible c h) := by
  intro tr r hends
  rcases finishes_bind.mp hends with ⟨e, -, h₁⟩ | ⟨a, tr₁, tr₂, rfl, h₁, h₂⟩
  · obtain ⟨_, -, he⟩ := finishes_sync.mp h₁
    cases he
  · obtain ⟨a', rfl, ha⟩ := finishes_sync.mp h₁
    cases ha
    obtain ⟨rfl, rfl⟩ := (finishes_ofExcept _).mp h₂
    have ha := hfailure a
    constructor
    · rintro text hok b hb
      obtain rfl := List.mem_singleton.mp hb
      rw [ha, hok]
      rfl
    · rintro e herr
      refine ⟨[], _, e, rfl, fun _ hb => (nomatch hb), ?_, rfl⟩
      rw [ha, herr]
      rfl

/-- An operation fails with the error of its answer. -/
theorem failsFast_perform {o : Op} (h : o ≠ .nicResult) : FailsFast failure Eq (perform o) := by
  refine failsFast_op (fun a => ?_) (fun e => ?_) fun e => rfl
  · cases o <;> first | rfl | exact absurd rfl h
  · cases o <;> rfl

/-- Requesting the NIC fails with its first failure. -/
theorem failsFast_requestNic (cfg : Config) (vmName : String) :
    FailsFast failure Eq (requestNic cfg vmName) := by
  refine failsFast_bind (failsFast_bind ?_ fun _ => failsFast_bind ?_ fun _ => failsFast_ret _)
    fun _ => ?_
  all_goals exact failsFast_perform fun ho => nomatch ho

/-- The NIC and its address. -/
theorem failsFast_awaitNic (cfg : Config) : FailsFast failure Eq (awaitNic cfg) := by
  refine failsFast_bind (failsFast_perform (by rintro ⟨⟩)) fun _ => ?_
  intro tr r hends
  rcases finishes_bind.mp hends with ⟨e, rfl, h₁⟩ | ⟨nic, tr₁, tr₂, rfl, h₁, h₂⟩
  · obtain rfl := finishes_op.mp h₁
    refine ⟨by rintro _ ⟨⟩, fun e' he => ?_⟩
    cases he
    exact ⟨[], _, e, rfl, by rintro _ ⟨⟩, rfl, rfl⟩
  · obtain rfl := finishes_op.mp h₁
    cases haddr : nic.ipAddr with
    | none =>
      rw [haddr] at h₂
      obtain ⟨rfl, rfl⟩ := h₂
      refine ⟨by rintro _ ⟨⟩, fun e he => ?_⟩
      cases he
      exact ⟨[], _, _, rfl, by rintro _ ⟨⟩, if_pos haddr, rfl⟩
    | some ipAddr =>
      rw [haddr] at h₂
      have hnone : failure (.op .nicResult (.ok nic)) = none :=
        if_neg fun h => by rw [haddr] at h; cases h
      have htags : FailsFast failure Eq _ := failsFast_bind
        (failsFast_perform (o := .updateTags cfg.resourceGroup nic.name [(idTagName, ipAddr)])
          (by rintro ⟨⟩)) fun _ => failsFast_ret (nic, ipAddr)
      obtain ⟨hok, herr⟩ := htags tr₂ r h₂
      refine ⟨fun a ha b hb => ?_, fun e he => ?_⟩
      · rcases List.mem_cons.mp hb with rfl | hb
        · exact hnone
        · exact hok a ha b hb
      · obtain ⟨good, bad, e₀, rfl, hgood, hbad, hkept⟩ := herr e he
        refine ⟨_ :: good, bad, e₀, rfl, fun b hb => ?_, hbad, hkept⟩
        rcases List.mem_cons.mp hb with rfl | hb
        · exact hnone
        · exact hgood b hb

/-- So does computing the parameters, -/
theorem failsFast_createVmParams (cfg : Config) (vmName : String) (nic : Nic)
    (tags : List (String × String)) (cloudConfig : Option CloudInitConfig) :
    FailsFast failure Eq (createVmParams cfg vmName nic tags cloudConfig) := by
  refine failsFast_bind (failsFast_fallible rfl fun a => ?_) fun _ =>
    failsFast_bind ?_ fun _ => failsFast_ret _
  · cases a <;> rfl
  · cases cloudConfig with
    | none => exact failsFast_ret none
    | some cloudConfig =>
      refine failsFast_bind (failsFast_fallible rfl fun a => ?_) fun _ => failsFast_ret _
      cases a <;> rfl

/-- and so does creating the machine. -/
theorem failsFast_createVm (cfg : Config) (vmName : String) (vmParams : VmParams) :
    FailsFast failure Eq (createVm cfg vmName vmParams) := by
  refine failsFast_bind ?_ fun _ => failsFast_bind ?_ fun _ => ?_
  all_goals exact failsFast_perform fun ho => nomatch ho

/-- What is done between the request of the NIC and that of the machine. -/
def prepareVm (cfg : Config) (vmName : String) (cloudConfig : Option CloudInitConfig) :
    Script (Nic × String × VmParams) :=
  Co.bind (awaitNic cfg) fun (nic, ipAddr) =>
    Co.bind (createVmParams cfg vmName nic [(idTagName, ipAddr)] cloudConfig) fun vmParams =>
      Co.ret (nic, ipAddr, vmParams)

/-- Everything in between fails with its first failure, so a failure there is the
error that leaves. -/
theorem failsFast_prepareVm (cfg : Config) (vmName : String)
    (cloudConfig : Option CloudInitConfig) :
    FailsFast failure Eq (prepareVm cfg vmName cloudConfig) :=
  failsFast_bind (failsFast_awaitNic cfg) fun _ =>
    failsFast_bind (failsFast_createVmParams cfg vmName _ _ cloudConfig) fun _ => failsFast_ret _

/-- All of it is in between. -/
theorem between_prepareVm (cfg : Config) (vmName : String)
    (cloudConfig : Option CloudInitConfig) :
    Sees (fun a => between a = true) (prepareVm cfg vmName cloudConfig) := by
  have hfallible : ∀ c (h : sig.Ans c = Except Error String),
      (∀ a, between (.call c a) = true) → Sees (fun a => between a = true) (fallible c h) := by
    intro c h hc tr r hends a ha
    have hsees := sees_sync (q := fun a => between a = true) hc
    rcases finishes_bind.mp hends with ⟨e, -, h₁⟩ | ⟨b, tr₁, tr₂, rfl, h₁, h₂⟩
    · exact hsees tr _ h₁ a ha
    · obtain ⟨rfl, -⟩ := (finishes_ofExcept _).mp h₂
      rw [List.append_nil] at ha
      exact hsees tr₁ _ h₁ a ha
  refine sees_bind (sees_bind (sees_op fun _ => rfl) fun _ => sees_bind (sees_op fun _ => rfl)
    fun nic => ?_) fun _ => sees_bind (sees_bind (hfallible _ rfl fun _ => rfl) fun _ =>
      sees_bind ?_ fun _ => sees_ret _) fun _ => sees_ret _
  · cases nic.ipAddr with
    | none => exact sees_throw _
    | some ipAddr => exact sees_bind (sees_op fun _ => rfl) fun _ => sees_ret _
  · cases cloudConfig with
    | none => exact sees_ret _
    | some cloudConfig => exact sees_bind (hfallible _ rfl fun _ => rfl) fun _ => sees_ret _

/-! ## The guard

The guard is the `try` around the request of the machine. Its handler deletes
both resources, under a handler of its own for each deletion, and raises again
what it was given. Where the guard begins is decided by the source, and it is
the whole reason for the result. -/

/-- The guarded creation of the machine. -/
def guardedVm (cfg : Config) (vmName : String) (nic : Nic) (vmParams : VmParams) : Script Unit :=
  Co.tryCatch (createVm cfg vmName vmParams) fun exc =>
    Co.bind (cleanupVmAndNic cfg vmName nic.name) fun _ => raise exc

/-- The steps of a creation, cut where the NIC is accepted and where the guard
begins. -/
theorem createNode_eq (cfg : Config) (cloudConfig : Option CloudInitConfig) :
    createNode cfg cloudConfig =
      Co.bind (getRndName cfg.label) fun vmName => Co.bind (requestNic cfg vmName) fun _ =>
        Co.bind (prepareVm cfg vmName cloudConfig) fun p =>
          Co.bind (guardedVm cfg vmName p.1 p.2.2) fun _ => Co.ret (created cfg p.2.1) := by
  simp only [createNode, createNic, prepareVm, guardedVm, Co.bind_eq, Co.bind_assoc, Co.pure_eq]
  rfl

/-- Nothing is created or deleted in between. -/
theorem silent_of_between {a : Answer sig} (h : between a = true) : Silent a := by
  match a, h with
  | .op .nicWait _, _ => exact ⟨rfl, rfl, rfl, rfl⟩
  | .op .nicResult _, _ => exact ⟨rfl, rfl, rfl, rfl⟩
  | .op (.updateTags ..) _, _ => exact ⟨rfl, rfl, rfl, rfl⟩
  | .call .exportPublicKey _, _ => exact ⟨rfl, rfl, rfl, rfl⟩
  | .call (.renderBase64 _) _, _ => exact ⟨rfl, rfl, rfl, rfl⟩

/-- The request of the NIC is refused, or accepted in the end. -/
theorem finishes_requestNic {cfg : Config} {vmName : String} {tr : Trace sig}
    {r : Except Error Unit} (h : Finishes (requestNic cfg vmName) tr r) :
    ∃ pre, (∀ a ∈ pre, Silent a ∧ between a = false) ∧
      ((∃ e, r = .error e ∧ tr = pre) ∨ r = .ok () ∧ ∃ params,
        tr = pre ++ [.op (.beginCreateNic cfg.resourceGroup (nicName vmName) params) (.ok ())]) := by
  have hfetch : Sees (fun a => Silent a ∧ between a = false) (fetchNetworkResources cfg) :=
    sees_bind (sees_op fun _ => ⟨⟨rfl, rfl, rfl, rfl⟩, rfl⟩) fun _ =>
      sees_bind (sees_op fun _ => ⟨⟨rfl, rfl, rfl, rfl⟩, rfl⟩) fun _ => sees_ret _
  rcases finishes_bind.mp h with ⟨e, rfl, h₁⟩ | ⟨p, tr₁, tr₂, rfl, h₁, h₂⟩
  · exact ⟨tr, hfetch tr _ h₁, .inl ⟨e, rfl, rfl⟩⟩
  · have hpre := hfetch tr₁ _ h₁
    obtain rfl := finishes_op.mp h₂
    cases r with
    | ok u => exact ⟨tr₁, hpre, .inr ⟨rfl, _, rfl⟩⟩
    | error e =>
      refine ⟨_, fun a ha => ?_, .inl ⟨e, rfl, rfl⟩⟩
      rcases List.mem_append.mp ha with ha | ha
      · exact hpre a ha
      · obtain rfl := List.mem_singleton.mp ha
        exact ⟨⟨rfl, rfl, rfl, rfl⟩, rfl⟩

/-- The only machine that is requested. -/
theorem sees_createVm (cfg : Config) (vmName : String) (vmParams : VmParams) :
    Sees (fun a => between a = false ∧ acceptedNic a = none ∧ deletedNic a = none ∧
      deletedVm a = none ∧ ∀ vm, acceptedVm a = some vm → vm = (cfg.resourceGroup, vmName))
      (createVm cfg vmName vmParams) := by
  refine sees_bind (sees_op fun r => ⟨rfl, rfl, rfl, rfl, fun vm hvm => ?_⟩) fun _ =>
    sees_bind (sees_op fun _ => ⟨rfl, rfl, rfl, rfl, fun _ hvm => nomatch hvm⟩) fun _ =>
      sees_op fun _ => ⟨rfl, rfl, rfl, rfl, fun _ hvm => nomatch hvm⟩
  cases r <;> cases hvm
  rfl

/-- Two operations: the first is asked for whatever happens. -/
theorem finishes_pair {o o' : Op} {tr : Trace sig} {r : Except Error o'.Res}
    (h : Finishes (Co.bind (perform o) fun _ => perform o') tr r) :
    ∃ x rest, tr = .op o x :: rest ∧ ∀ a ∈ rest, ∃ y, a = .op o' y := by
  rcases finishes_bind.mp h with ⟨e, rfl, h₁⟩ | ⟨a, tr₁, tr₂, rfl, h₁, h₂⟩
  · exact ⟨_, [], finishes_op.mp h₁, fun _ ha => nomatch ha⟩
  · obtain rfl := finishes_op.mp h₁
    obtain rfl := finishes_op.mp h₂
    exact ⟨_, _, rfl, fun b hb => ⟨r, List.mem_singleton.mp hb⟩⟩

/-- The clean-up issues both deletions, the machine first, and raises nothing. The
NIC cannot be deleted while the machine has it. -/
theorem finishes_cleanupVmAndNic {cfg : Config} {vmName nicName : String} {tr : Trace sig}
    {r : Except Error Unit} (h : Finishes (cleanupVmAndNic cfg vmName nicName) tr r) :
    r = .ok () ∧ ∃ x y rest, tr = .op (.beginDeleteVm cfg.resourceGroup vmName) x :: rest ∧
      .op (.beginDeleteNic cfg.resourceGroup nicName) y ∈ rest ∧
      ∀ a ∈ rest, between a = false ∧ acceptedNic a = none ∧ acceptedVm a = none := by
  rcases finishes_bind.mp h with ⟨e, -, h₁⟩ | ⟨_, tr₁, tr₂, rfl, h₁, h₂⟩
  · cases (finishes_ignore.mp h₁).1
  obtain ⟨-, r₁, hvm⟩ := finishes_ignore.mp h₁
  obtain ⟨rfl, r₂, hnic⟩ := finishes_ignore.mp h₂
  obtain ⟨x, rest₁, rfl, hrest₁⟩ := finishes_pair hvm
  obtain ⟨y, rest₂, rfl, hrest₂⟩ := finishes_pair hnic
  refine ⟨rfl, x, y, _, rfl, List.mem_append_right _ List.mem_cons_self, fun a ha => ?_⟩
  rcases List.mem_append.mp ha with ha | ha
  · obtain ⟨z, rfl⟩ := hrest₁ a ha
    exact ⟨rfl, rfl, rfl⟩
  · rcases List.mem_cons.mp ha with rfl | ha
    · exact ⟨rfl, rfl, rfl⟩
    · obtain ⟨z, rfl⟩ := hrest₂ a ha
      exact ⟨rfl, rfl, rfl⟩

/-! ## The whole creation

The two parts are put together. If something fails before the guard, the NIC is
there and its deletion is not in the trace, because nothing in that part
deletes anything. If nothing does, whatever fails is inside the guard. -/

/-- What comes first stands before what is of another kind. -/
theorem mem_before {α : Type} {p : α → Prop} {pre rest before after : List α} {d a : α}
    (heq : pre ++ d :: rest = before ++ a :: after) (hpre : ∀ x ∈ pre, ¬p x) (hd : ¬p d)
    (ha : p a) : d ∈ before := by
  obtain ⟨mid, rfl, hmid⟩ := split_later heq fun hmem => hpre a hmem ha
  cases mid with
  | nil =>
    cases hmid
    exact absurd ha hd
  | cons b mid =>
    obtain ⟨rfl, -⟩ := List.cons.inj hmid
    exact List.mem_append_right _ List.mem_cons_self

/-- A coroutine that ends with its first failure: the failure is found. -/
theorem findSome?_failure {α : Type} {x : Script α} {tr : Trace sig} {r : Except Error α}
    (hx : FailsFast failure Eq x) (h : Finishes x tr r) :
    tr.findSome? failure = Co.errorOf (S := sig) r := by
  cases r with
  | ok a => exact List.findSome?_eq_none_iff.mpr ((hx tr _ h).1 a rfl)
  | error e =>
    obtain ⟨good, bad, e₀, rfl, hgood, hbad, rfl⟩ := (hx tr _ h).2 e rfl
    rw [List.findSome?_append, List.findSome?_eq_none_iff.mpr hgood]
    simp [hbad, Co.errorOf]

/-- What comes before the guarded steps, up to the acceptance of the NIC. Apart from
the NIC nothing is accepted in it, and nothing fails. -/
structure Head (cfg : Config) (vmName : String) (head : Trace sig) : Prop where
  nic : head.filterMap acceptedNic = [(cfg.resourceGroup, nicName vmName)]
  quiet : ∀ a ∈ head, acceptedVm a = none ∧ deletedNic a = none ∧ deletedVm a = none ∧
    between a = false ∧ failure a = none

/-- The NIC is refused, and nothing has happened; or it is accepted. -/
theorem finishes_head {α : Type} {cfg : Config} {k : String → Script α} {tr : Trace sig}
    {r : Except Error α} (h : Finishes (Co.bind (getRndName cfg.label) fun vmName =>
      Co.bind (requestNic cfg vmName) fun _ => k vmName) tr r) :
    (∃ e, r = .error e ∧ tr.findSome? failure = some e ∧ ∀ a ∈ tr, Silent a ∧ between a = false) ∨
      ∃ vmName head tl, tr = head ++ tl ∧ Head cfg vmName head ∧ Finishes (k vmName) tl r := by
  rcases finishes_bind.mp h with ⟨e, -, h₀⟩ | ⟨vmName, tr₀, rest, rfl, h₀, h₁⟩
  · rcases finishes_bind.mp h₀ with ⟨_, -, hsync⟩ | ⟨_, _, _, -, -, hret⟩
    · obtain ⟨_, -, he⟩ := finishes_sync.mp hsync
      cases he
    · cases hret.2
  have hname : Sees (fun a => Silent a ∧ between a = false ∧ failure a = none)
      (getRndName cfg.label) :=
    sees_bind (sees_sync fun _ => ⟨⟨rfl, rfl, rfl, rfl⟩, rfl, rfl⟩) fun _ => sees_ret _
  have hquiet := hname tr₀ _ h₀
  have hnone : tr₀.findSome? failure = none :=
    List.findSome?_eq_none_iff.mpr fun a ha => (hquiet a ha).2.2
  rcases finishes_bind.mp h₁ with ⟨e, rfl, h₂⟩ | ⟨_, tr₁, tl, rfl, h₂, h₃⟩
  · refine .inl ⟨e, rfl, ?_, fun a ha => ?_⟩
    · rw [List.findSome?_append, hnone, findSome?_failure (failsFast_requestNic cfg vmName) h₂]
      rfl
    · obtain ⟨pre, hpre, ⟨_, -, rfl⟩ | ⟨hr, -⟩⟩ := finishes_requestNic h₂
      · rcases List.mem_append.mp ha with ha | ha
        · exact ⟨(hquiet a ha).1, (hquiet a ha).2.1⟩
        · exact hpre a ha
      · cases hr
  · obtain ⟨pre, hpre, ⟨_, he, -⟩ | ⟨-, params, rfl⟩⟩ := finishes_requestNic h₂
    · cases he
    have hok := (failsFast_requestNic cfg vmName _ _ h₂).1 _ rfl
    refine .inr ⟨vmName, _, tl, (List.append_assoc ..).symm, ⟨?_, fun a ha => ?_⟩, h₃⟩
    · rw [List.filterMap_append, List.filterMap_append,
        List.filterMap_eq_nil_iff.mpr fun a ha => (hquiet a ha).1.1,
        List.filterMap_eq_nil_iff.mpr fun a ha => (hpre a ha).1.1]
      rfl
    · rcases List.mem_append.mp ha with ha | ha
      · obtain ⟨⟨-, h₁, h₂, h₃⟩, h₄, h₅⟩ := hquiet a ha
        exact ⟨h₁, h₂, h₃, h₄, h₅⟩
      · have hfailure := hok a ha
        rcases List.mem_append.mp ha with ha | ha
        · obtain ⟨⟨-, h₁, h₂, h₃⟩, h₄⟩ := hpre a ha
          exact ⟨h₁, h₂, h₃, h₄, hfailure⟩
        · obtain rfl := List.mem_singleton.mp ha
          exact ⟨rfl, rfl, rfl, rfl, rfl⟩

/-- The NIC that is returned is the one the SDK has answered. -/
theorem finishes_awaitNic {cfg : Config} {tr : Trace sig} {p : Nic × String}
    (h : Finishes (awaitNic cfg) tr (.ok p)) : .op .nicResult (.ok p.1) ∈ tr := by
  rcases finishes_bind.mp h with ⟨e, he, -⟩ | ⟨_, tr₁, tr₂, rfl, h₁, h₂⟩
  · cases he
  rcases finishes_bind.mp h₂ with ⟨e, he, -⟩ | ⟨nic, tr₃, tr₄, rfl, h₃, h₄⟩
  · cases he
  obtain rfl := finishes_op.mp h₃
  have hnic : p.1 = nic := by
    cases haddr : nic.ipAddr with
    | none =>
      rw [haddr] at h₄
      cases h₄.2
    | some ipAddr =>
      rw [haddr] at h₄
      rcases finishes_bind.mp h₄ with ⟨e, he, -⟩ | ⟨_, _, _, -, -, hret⟩
      · cases he
      · cases hret.2
        rfl
  rw [hnic]
  exact List.mem_append_right _ List.mem_cons_self

/-- The machine is there, or its error is raised after the clean-up. -/
theorem finishes_guardedVm {cfg : Config} {vmName : String} {nic : Nic} {vmParams : VmParams}
    {tr : Trace sig} {r : Except Error Unit}
    (h : Finishes (guardedVm cfg vmName nic vmParams) tr r) :
    (r = .ok () ∧ Finishes (createVm cfg vmName vmParams) tr r) ∨
      ∃ e tr₁ tr₂, r = .error e ∧ tr = tr₁ ++ tr₂ ∧
        Finishes (createVm cfg vmName vmParams) tr₁ r ∧
        Finishes (cleanupVmAndNic cfg vmName nic.name) tr₂ (.ok ()) := by
  rcases finishes_tryCatch.mp h with ⟨_, rfl, h₁⟩ | ⟨e, tr₁, tr₂, rfl, h₁, h₂⟩
  · exact .inl ⟨rfl, h₁⟩
  · rcases finishes_bind.mp h₂ with ⟨_, -, h₃⟩ | ⟨_, tr₃, tr₄, rfl, h₃, rfl, rfl⟩
    · cases (finishes_cleanupVmAndNic h₃).1
    · rw [List.append_nil]
      exact .inr ⟨e, tr₁, tr₃, rfl, rfl, h₁, h₃⟩

/-- Nothing fails in between when the NIC is prepared and the rest is not in
between. -/
theorem not_failsBetween {cfg : Config} {vmName : String} {head trP rest : Trace sig}
    (hhead : Head cfg vmName head) (hprepared : ∀ a ∈ trP, failure a = none)
    (hrest : ∀ a ∈ rest, between a = false) : ¬FailsBetween (head ++ (trP ++ rest)) := by
  rintro ⟨a, ha, hbetween, hfailure⟩
  rcases List.mem_append.mp ha with ha | ha
  · exact hfailure (hhead.quiet a ha).2.2.2.2
  rcases List.mem_append.mp ha with ha | ha
  · exact hfailure (hprepared a ha)
  · rw [hrest a ha] at hbetween
    cases hbetween

/-- From the guard on, nothing is left behind, whatever fails and whether or not it
is a cancellation. -/
theorem leavesNothing_of_guarded {cfg : Config} {vmName : String} {nic : Nic} {vmParams : VmParams}
    {head trP rest : Trace sig} {r : Except Error Unit} (dto : CloudCreateNodeDTO)
    (hhead : Head cfg vmName head) (hprepared : ∀ a ∈ trP, Silent a ∧ failure a = none)
    (hname : nic.name = nicName vmName)
    (h : Finishes (guardedVm cfg vmName nic vmParams) rest r) :
    LeavesNothing (head ++ (trP ++ rest)) (r.map fun _ => dto) ∧
      ∀ a ∈ rest, between a = false := by
  rcases finishes_guardedVm h with ⟨rfl, hvm⟩ | ⟨e, trV, trC, rfl, rfl, hvm, hclean⟩
  · have hsees := sees_createVm cfg vmName vmParams rest _ hvm
    refine ⟨⟨fun _ he => (nomatch he), fun _ he => (nomatch he), ?_, fun _ he => (nomatch he)⟩,
      fun a ha => (hsees a ha).1⟩
    rintro before a after heq ha
    have hmem : a ∈ head ++ (trP ++ rest) := heq ▸ List.mem_append_right _ List.mem_cons_self
    refine absurd ?_ ha
    rcases List.mem_append.mp hmem with hmem | hmem
    · exact (hhead.quiet a hmem).2.1
    rcases List.mem_append.mp hmem with hmem | hmem
    · exact (hprepared a hmem).1.2.2.1
    · exact (hsees a hmem).2.2.1
  · have hsees := sees_createVm cfg vmName vmParams trV _ hvm
    obtain ⟨-, x, y, trN, rfl, hnic, hrest⟩ := finishes_cleanupVmAndNic hclean
    have hafter : ∀ a ∈ trP ++ (trV ++ .op (.beginDeleteVm cfg.resourceGroup vmName) x :: trN),
        acceptedNic a = none ∧ ∀ vm, acceptedVm a = some vm → vm = (cfg.resourceGroup, vmName) := by
      intro a ha
      rcases List.mem_append.mp ha with ha | ha
      · obtain ⟨⟨hnone, hnone', -, -⟩, -⟩ := hprepared a ha
        exact ⟨hnone, fun vm hvm => by rw [hnone'] at hvm; cases hvm⟩
      rcases List.mem_append.mp ha with ha | ha
      · obtain ⟨-, hnone, -, -, hvm⟩ := hsees a ha
        exact ⟨hnone, hvm⟩
      rcases List.mem_cons.mp ha with rfl | ha
      · exact ⟨rfl, fun _ hvm => nomatch hvm⟩
      · obtain ⟨-, hnone, hnone'⟩ := hrest a ha
        exact ⟨hnone, fun vm hvm => by rw [hnone'] at hvm; cases hvm⟩
    have hvms : ∀ vm ∈ (head ++ (trP ++ (trV ++
        .op (.beginDeleteVm cfg.resourceGroup vmName) x :: trN))).filterMap acceptedVm,
        vm = (cfg.resourceGroup, vmName) := by
      intro vm hmem
      obtain ⟨a, ha, haccepted⟩ := List.mem_filterMap.mp hmem
      rcases List.mem_append.mp ha with ha | ha
      · rw [(hhead.quiet a ha).1] at haccepted
        cases haccepted
      · exact (hafter a ha).2 vm haccepted
    refine ⟨⟨fun _ _ n hn => ?_, fun _ _ vm hvm => ?_, fun before a after heq ha vm hvm => ?_,
      fun e' he => ?_⟩, fun a ha => ?_⟩
    · rw [List.filterMap_append, hhead.nic,
        List.filterMap_eq_nil_iff.mpr fun a ha => (hafter a ha).1] at hn
      obtain rfl := List.mem_singleton.mp hn
      rw [← hname]
      exact List.mem_filterMap.mpr ⟨_, List.mem_append_right _ (List.mem_append_right _
        (List.mem_append_right _ (List.mem_cons_of_mem _ hnic))), rfl⟩
    · rw [hvms vm hvm]
      exact List.mem_filterMap.mpr ⟨_, List.mem_append_right _ (List.mem_append_right _
        (List.mem_append_right _ List.mem_cons_self)), rfl⟩
    · rw [hvms vm hvm]
      have hfirst : ∀ a ∈ head ++ (trP ++ trV), ¬deletedNic a ≠ none := by
        intro a ha hdeleted
        rcases List.mem_append.mp ha with ha | ha
        · exact hdeleted (hhead.quiet a ha).2.1
        rcases List.mem_append.mp ha with ha | ha
        · exact hdeleted (hprepared a ha).1.2.2.1
        · exact hdeleted (hsees a ha).2.2.1
      rw [← List.append_assoc trP, ← List.append_assoc head] at heq
      exact List.mem_filterMap.mpr ⟨_, mem_before heq hfirst (fun hdeleted => hdeleted rfl) ha, rfl⟩
    · cases he
      have hnone : ∀ a ∈ head ++ trP, failure a = none := fun a ha =>
        (List.mem_append.mp ha).elim (fun ha => (hhead.quiet a ha).2.2.2.2)
          fun ha => (hprepared a ha).2
      rw [← List.append_assoc, List.findSome?_append, List.findSome?_eq_none_iff.mpr hnone,
        Option.none_or, List.findSome?_append,
        findSome?_failure (failsFast_createVm cfg vmName vmParams) hvm]
      rfl
    · rcases List.mem_append.mp ha with ha | ha
      · exact (hsees a ha).1
      rcases List.mem_cons.mp ha with rfl | ha
      · rfl
      · exact (hrest a ha).1

/-- **A creation leaves nothing behind if and only if** no step fails between the
request of the NIC and that of the machine. -/
theorem leavesNothing_iff {cfg : Config} {cloudConfig : Option CloudInitConfig} {tr : Trace sig}
    {r : Except Error CloudCreateNodeDTO} (h : Finishes (createNode cfg cloudConfig) tr r)
    (hname : KeepsName tr) : LeavesNothing tr r ↔ ¬FailsBetween tr := by
  rw [createNode_eq] at h
  obtain ⟨e, rfl, horiginal, hquiet⟩ | ⟨vmName, head, tl, rfl, hhead, h₁⟩ := finishes_head h
  · -- the NIC is refused
    have hnics := List.filterMap_eq_nil_iff.mpr fun a ha => (hquiet a ha).1.1
    have hvms := List.filterMap_eq_nil_iff.mpr fun a ha => (hquiet a ha).1.2.1
    constructor
    · rintro - ⟨a, ha, hbetween, -⟩
      rw [(hquiet a ha).2] at hbetween
      cases hbetween
    · refine fun _ => ⟨fun _ _ => ?_, fun _ _ => ?_, fun _ _ _ _ _ => ?_, ?_⟩
      · rw [hnics]
        exact fun _ h => nomatch h
      · rw [hvms]
        exact fun _ h => nomatch h
      · rw [hvms]
        exact fun _ h => nomatch h
      · rintro _ he
        cases he
        exact horiginal
  have hvmsHead := List.filterMap_eq_nil_iff.mpr fun a ha => (hhead.quiet a ha).1
  rcases finishes_bind.mp h₁ with ⟨e, rfl, h₂⟩ | ⟨⟨nic, ipAddr, vmParams⟩, trP, rest, rfl, h₂, h₃⟩
  · -- a step in between fails
    have hbetween := between_prepareVm cfg vmName cloudConfig tl _ h₂
    constructor
    · intro hleaves
      have hnic := hleaves.nics e rfl (cfg.resourceGroup, nicName vmName) (by
        rw [List.filterMap_append, hhead.nic]
        exact List.mem_append_left _ List.mem_cons_self)
      rw [List.filterMap_append,
        List.filterMap_eq_nil_iff.mpr fun a ha => (hhead.quiet a ha).2.1,
        List.filterMap_eq_nil_iff.mpr fun a ha => (silent_of_between (hbetween a ha)).2.2.1] at hnic
      cases hnic
    · obtain ⟨good, bad, e₀, rfl, -, hbad, -⟩ :=
        (failsFast_prepareVm cfg vmName cloudConfig tl _ h₂).2 e rfl
      have hmem : bad ∈ good ++ [bad] := List.mem_append_right _ List.mem_cons_self
      intro hnot
      refine absurd ⟨bad, List.mem_append_right _ hmem, hbetween bad hmem, ?_⟩ hnot
      rw [hbad]
      exact Option.some_ne_none e₀
  · have hbetween := between_prepareVm cfg vmName cloudConfig trP _ h₂
    have hprepared := (failsFast_prepareVm cfg vmName cloudConfig trP _ h₂).1 _ rfl
    have hnic : nic.name = nicName vmName := by
      rcases finishes_bind.mp h₂ with ⟨_, he, -⟩ | ⟨p, tr₁, tr₂, rfl, hawait, hparams⟩
      · cases he
      rcases finishes_bind.mp hparams with ⟨_, he, -⟩ | ⟨_, _, _, -, -, hret⟩
      · cases he
      cases hret.2
      refine hname _ (List.mem_append_right _ (List.mem_append_left _ (List.mem_append_left _
        (finishes_awaitNic hawait)))) (cfg.resourceGroup, nicName vmName) ?_
      rw [List.filterMap_append, hhead.nic]
      exact List.mem_append_left _ List.mem_cons_self
    have hguarded : ∃ r', Finishes (guardedVm cfg vmName nic vmParams) rest r' ∧
        r = r'.map fun _ => created cfg ipAddr := by
      rcases finishes_bind.mp h₃ with ⟨e, rfl, h₄⟩ | ⟨_, tr₁, tr₂, rfl, h₄, rfl, rfl⟩
      · exact ⟨_, h₄, rfl⟩
      · rw [List.append_nil]
        exact ⟨_, h₄, rfl⟩
    obtain ⟨r', h₄, rfl⟩ := hguarded
    obtain ⟨hleaves, hrest⟩ := leavesNothing_of_guarded (created cfg ipAddr) hhead
      (fun a ha => ⟨silent_of_between (hbetween a ha), hprepared a ha⟩) hnic h₄
    exact ⟨fun _ => not_failsBetween hhead hprepared hrest, fun _ => hleaves⟩

/-! ## Two failed creations

Tagging the NIC is the step in the middle: the NIC was accepted, and the
machine is not requested yet. The other run fails as late as possible, and the
deletions fail with it; they are issued nonetheless. -/

def nic : Nic :=
  { id := "nic", name := "yascheduler-abcdefgh-nic", ipConfigurations := [some "10.0.0.4"] }

/-- The parameters of the NIC, and of the machine. -/
def nicParams : NicParams :=
  { name := "yascheduler-abcdefgh-nic"
    location := "westeurope"
    ipConfigName := "yascheduler-abcdefgh-nic-ip-config"
    subnet := "subnet"
    networkSecurityGroup := "nsg" }

def vmParams : VmParams :=
  { location := "westeurope"
    tags := [(idTagName, "10.0.0.4")]
    vmSize := "Standard_B1s"
    imageReference := {}
    networkInterface := "nic"
    computerName := "yascheduler-abc"
    adminUsername := "yascheduler"
    customData := none
    keyPath := "/home/yascheduler/.ssh/authorized_keys"
    keyData := "ssh-rsa AAAA" }

/-- The NIC is accepted. -/
def acceptance : Trace sig :=
  [.call .rndLetters "abcdefgh",
    .op (.getSubnet "yascheduler-rg" "yascheduler-vnet" "yascheduler-subnet") (.ok "subnet"),
    .op (.getNsg "yascheduler-rg" "yascheduler-nsg") (.ok "nsg"),
    .op (.beginCreateNic "yascheduler-rg" "yascheduler-abcdefgh-nic" nicParams) (.ok ())]

/-- The machine is accepted, but waiting for it is cancelled; so is the
deletion of the machine, and that of the NIC fails. -/
def cancelledVm : Trace sig := acceptance ++
  [.op .nicWait (.ok ()), .op .nicResult (.ok nic),
    .op (.updateTags "yascheduler-rg" "yascheduler-abcdefgh-nic" [(idTagName, "10.0.0.4")]) (.ok ()),
    .call .exportPublicKey (.ok "ssh-rsa AAAA"),
    .op (.beginCreateVm "yascheduler-rg" "yascheduler-abcdefgh" vmParams) (.ok ()),
    .op .vmWait (.error .cancelled),
    .op (.beginDeleteVm "yascheduler-rg" "yascheduler-abcdefgh") (.error .cancelled),
    .op (.beginDeleteNic "yascheduler-rg" "yascheduler-abcdefgh-nic") (.error (.azure "NicInUse"))]

/-- Both deletions are issued, although neither succeeds. -/
theorem leavesNothing_cancelledVm : LeavesNothing cancelledVm (.error .cancelled) := by
  have h : Finishes (createNode {} none) cancelledVm (.error .cancelled) :=
    ⟨_, _, rfl, _, _, rfl, _, _, rfl, _, _, rfl, _, _, rfl, _, _, rfl, _, _, rfl, _, _, rfl,
      _, _, rfl, _, _, rfl, _, _, rfl, _, _, rfl, rfl, rfl⟩
  refine (leavesNothing_iff h ?_).mpr (by decide)
  intro n hn res hres
  obtain rfl := List.mem_singleton.mp hres
  have hnic : n = nic := by simpa [cancelledVm, acceptance] using hn
  rw [hnic]
  rfl

/-- Tagging the NIC fails: it was accepted, and nobody deletes it. -/
theorem not_leavesNothing_updateTags : ∃ tr r, Finishes (createNode {} none) tr r ∧
    KeepsName tr ∧ ¬LeavesNothing tr r := by
  refine ⟨acceptance ++ [.op .nicWait (.ok ()), .op .nicResult (.ok nic),
    .op (.updateTags "yascheduler-rg" "yascheduler-abcdefgh-nic" [(idTagName, "10.0.0.4")])
      (.error (.azure "ServiceUnavailable"))], .error (.azure "ServiceUnavailable"), ?_, ?_, ?_⟩
  · exact ⟨_, _, rfl, _, _, rfl, _, _, rfl, _, _, rfl, _, _, rfl, _, _, rfl, _, _, rfl, rfl, rfl⟩
  · intro n hn res hres
    obtain rfl := List.mem_singleton.mp hres
    have hnic : n = nic := by simpa [acceptance] using hn
    rw [hnic]
    rfl
  · intro hleaves
    have h := hleaves.nics _ rfl ("yascheduler-rg", "yascheduler-abcdefgh-nic") List.mem_cons_self
    cases h

end Yascheduler.Azure
