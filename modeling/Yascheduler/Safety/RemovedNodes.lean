import Yascheduler.Application.Reservation

/-!
# Rows and the VMs behind them

The row of a cloud node is what the scheduler knows of a VM that is billed. So
`deallocate_node` and `abandon_node` delete the VM before they remove the row,
and keep the row if the deletion raises. But the provisioner has no adapter for
a provider that `make_daemon` left out – one whose `max_nodes` is not positive
any more, or whose SDK is gone – and then it returns without doing anything.
Its callers take that for a deletion.

The law is about the order of two events in one execution, so it can be decided
on the trace: a row is removed for good only if the adapter has deleted its VM
before. It is stated for a node that has a VM, under a provider and an
identifier.
-/

namespace Yascheduler

open Store Async Footprint

/-! ## The law

The law is about the order of two things in a trace: before the statement that
removes a row for good, its VM must have been deleted. A trace that removes no
row obeys it, so a deletion that fails does no harm. -/

/-- The adapter of the provider has deleted the VM. That the call returned is all
that the scheduler knows of it. -/
def vmDeleted (provider externalId : String) : Answer sig :=
  .op (.deleteNode provider externalId) (.ok ())

/-- A DELETE has found the row of the node. If it finds none there is nothing to
lose. -/
def rowFound (c : Nat) (n : NodeId) : Answer sig := .op (.sql c (.nodeRemove n)) (.ok true)

/-- **The law of a removal**: if a DELETE finds the row, and its transaction goes on
to COMMIT, then the VM was deleted before. Without the row there is nobody left who
knows the VM, and it goes on to cost money. -/
def RemovesAfterDeletion (node : Node) (provider externalId : String) (x : Prog Unit) : Prop :=
  ∀ tr r, Finishes x tr r → ∀ before c after, tr = before ++ rowFound c node.nodeId :: after →
    (∃ rc, .op (.commit c) rc ∈ after) → vmDeleted provider externalId ∈ before

/-- The provider is one of the daemon: `max_nodes` is positive and the adapter is
found. Both are needed, since a provider is left out of the maps without one of
them. -/
def Settings.Provides (cfg : Settings) (provider : String) : Prop :=
  ∃ c ∈ cfg.activeClouds, c.name = provider

/-! ## The maps of the daemon

The provisioner finds an adapter and a configuration for a provider in maps
that were made once. A provider is in them if its limit is positive and its SDK
is installed. Any other has no adapter. -/

/-- What is put into a map one after the other is found there, if the keys differ.
-/
theorem get_foldl_set {V : Type} (f : CloudConfig → V) (cs : List CloudConfig) (d : Dict String V)
    (provider : String) :
    ((cs.foldl (fun d c => Dict.set d c.name (f c)) d).get provider).isSome = true ↔
      (d.get provider).isSome = true ∨ ∃ c ∈ cs, c.name = provider := by
  induction cs generalizing d with
  | nil => simp
  | cons c cs ih =>
    rw [List.foldl_cons, ih, Dict.get_set]
    by_cases h : c.name = provider
    · simp [h]
    · simp [h, Ne.symm h]

namespace Settings

variable {cfg : Settings} {provider : String}

/-- A provider of the daemon has an adapter, under its own name. -/
theorem adapters_get (h : cfg.Provides provider) : cfg.adapters.get provider = some provider := by
  obtain ⟨adapter, hget⟩ := Option.isSome_iff_exists.mp
    ((get_foldl_set (·.name) cfg.activeClouds [] provider).mpr (.inr h))
  exact hget.trans (congrArg some (adapters_name (Dict.mem_of_get hget)).symm)

/-- A provider of the daemon has a configuration. -/
theorem configs_get (h : cfg.Provides provider) : ∃ c, cfg.configs.get provider = some c :=
  Option.isSome_iff_exists.mp
    ((get_foldl_set (fun c => c) cfg.activeClouds [] provider).mpr (.inr h))

/-- Any other provider has no adapter. -/
theorem adapters_get_none (h : ¬cfg.Provides provider) : cfg.adapters.get provider = none := by
  refine Option.not_isSome_iff_eq_none.mp fun hsome => h ?_
  exact ((get_foldl_set (·.name) cfg.activeClouds [] provider).mp hsome).resolve_left
    Bool.false_ne_true

end Settings

/-! ## What the provisioner does

With an adapter, `deallocate` returns only after the deletion has been made, so
what comes after it in the use case comes after the deletion. Without one it
returns at once, and what comes after it is the same. -/

section

variable {cfg : Settings} {node : Node} {provider externalId : String}

/-- With an adapter the VM is deleted. -/
theorem cloudsDeallocate_provides (hc : node.cloud = some provider)
    (hx : node.externalId = some externalId) (h : cfg.Provides provider) :
    cloudsDeallocate cfg node = await (.deleteNode provider externalId) := by
  obtain ⟨c, hconfig⟩ := Settings.configs_get h
  simp only [cloudsDeallocate, hc, Settings.adapters_get h, hconfig, hx]

/-- Without one nothing is done, and this is not said: the call returns as if the VM
had been deleted. -/
theorem cloudsDeallocate_not_provides (hc : node.cloud = some provider)
    (h : ¬cfg.Provides provider) : cloudsDeallocate cfg node = pure () := by
  simp only [cloudsDeallocate, hc, Settings.adapters_get_none h]

/-- Every DELETE that finds the row comes after the deletion of the VM. Stated for
the parts of a program, so that it can be put together along its steps. -/
abbrev Careful (node : Node) (provider externalId : String) (x : Prog Unit) : Prop :=
  Precedes (· = vmDeleted provider externalId) (fun a => ∃ c, a = rowFound c node.nodeId) x

theorem Careful.removesAfterDeletion {x : Prog Unit} (h : Careful node provider externalId x) :
    RemovesAfterDeletion node provider externalId x := by
  intro tr r hends before c after htr _
  obtain ⟨_, hb, rfl⟩ := h tr r hends before _ after htr ⟨c, rfl⟩
  exact hb

/-- What removes no row is careful. -/
theorem careful_of_inside {K : Set Effect} {x : Prog Unit} (hx : (scope K).Inside ∅ x)
    (hK : Effect.removeNode ∉ K) : Careful node provider externalId x := by
  refine precedes_of_sees fun tr r hends a ha => ?_
  rintro ⟨c, rfl⟩
  exact hK (hx.admits tr r hends _ ha .removeNode rfl)

/-- **With an adapter, what follows the deletion may remove the row.** The deletion
has returned, so whatever comes after it comes after a deleted VM. -/
theorem careful_deletion (cfg : Settings) (row : Prog Unit) (hc : node.cloud = some provider)
    (hext : node.externalId = some externalId) (h : cfg.Provides provider) :
    Careful node provider externalId
      (Co.bind (disableNode cfg node.nodeId) fun _ =>
        Co.bind (cloudsDeallocate cfg node) fun _ => row) := by
  refine precedes_bind ?_ fun _ => precedes_bind_of_done ?_ ?_
  · exact careful_of_inside (K := {.disableNode}) (inside_disableNode cfg _ rfl) (by simp)
  · exact careful_of_inside (K := {.deleteVm}) (inside_cloudsDeallocate cfg node rfl) (by simp)
  · intro tr a hends
    rw [cloudsDeallocate_provides hc hext h] at hends
    obtain rfl := finishes_op.mp hends
    exact ⟨_, List.mem_singleton_self _, rfl⟩

theorem careful_teardownNode (hc : node.cloud = some provider)
    (hext : node.externalId = some externalId) (hne : provider ≠ "") (h : cfg.Provides provider) :
    Careful node provider externalId (teardownNode cfg node) := by
  have hcloud : node.hasCloud = true := by
    rw [NewNode.hasCloud, hc]
    exact bne_iff_ne.mpr hne
  have hrest : Careful node provider externalId (do
      if node.hasCloud then
        disableNode cfg node.nodeId
        cloudsDeallocate cfg node
      removeNodeRow cfg node.nodeId : Prog Unit) := by
    rw [hcloud]
    exact careful_deletion cfg _ hc hext h
  refine precedes_bind (precedes_of_sees (sees_sync (by rintro _ ⟨_, ⟨⟩⟩))) fun connected => ?_
  cases connected with
  | true =>
    refine precedes_bind ?_ fun _ => hrest
    exact careful_of_inside (K := {.dropSession}) (inside_disconnect _ rfl) (by simp)
  | false => exact hrest

theorem careful_deallocateNode (hc : node.cloud = some provider)
    (hext : node.externalId = some externalId) (hne : provider ≠ "") (h : cfg.Provides provider) :
    Careful node provider externalId (deallocateNode cfg node) := by
  have hteardown := careful_teardownNode hc hext hne h
  refine precedes_bind (precedes_of_sees (sees_sync fun _ => nofun)) fun s => ?_
  cases s with
  | none => exact hteardown
  | some s =>
    refine precedes_bind (precedes_of_sees (sees_sync fun _ => nofun)) fun state => ?_
    split
    · exact precedes_of_sees (sees_ret ())
    · exact hteardown

theorem careful_abandonNode (hc : node.cloud = some provider)
    (hext : node.externalId = some externalId) (h : cfg.Provides provider) :
    Careful node provider externalId (abandonNode cfg node) := by
  refine precedes_tryFinally ?_ ?_
  · rw [hc]
    exact careful_deletion cfg _ hc hext h
  · exact sees_bind (sees_sync fun _ => nofun) fun _ => sees_ret ()

/-! ## Without an adapter -/

/-- A transaction of one statement, in which nothing fails. -/
def transaction (st : Answer sig) : Trace sig :=
  [.op .connect (.ok 1), .op (.begin 1) (.ok ()), st, .op (.commit 1) (.ok ()),
    .call (.savedTake 1) [], .call (.savedClear 1) (), .op (.close 1) (.ok ())]

theorem finishes_disableNode (cfg : Settings) (n : NodeId) :
    Finishes (disableNode cfg n) (transaction (.op (.sql 1 (.nodeDisable n)) (.ok true)))
      (.ok ()) :=
  ⟨_, _, rfl, _, _, rfl, _, _, rfl, _, _, rfl, _, _, rfl, _, _, rfl, _, _, rfl, rfl, rfl⟩

theorem finishes_removeNodeRow (cfg : Settings) (n : NodeId) :
    Finishes (removeNodeRow cfg n) (transaction (rowFound 1 n)) (.ok ()) :=
  ⟨_, _, rfl, _, _, rfl, _, _, rfl, _, _, rfl, _, _, rfl, _, _, rfl, _, _, rfl, rfl, rfl⟩

theorem finishes_abandonRow (cfg : Settings) (n : NodeId) :
    Finishes (abandonRow cfg n) (transaction (rowFound 1 n)) (.ok ()) :=
  ⟨_, _, rfl, _, _, rfl, _, _, rfl, _, _, rfl, _, _, rfl, _, _, rfl, _, _, rfl, rfl, rfl⟩

/-- A run that ends with the transaction of the DELETE and has no deletion before it
breaks the law. -/
theorem not_removesAfterDeletion {x : Prog Unit} (tr after : Trace sig) {r : Except Exc Unit}
    (h : Finishes x (tr ++ (transaction (rowFound 1 node.nodeId) ++ after)) r)
    (hno : vmDeleted provider externalId ∉ tr) :
    ¬RemovesAfterDeletion node provider externalId x := by
  intro hlaw
  have hmem := hlaw _ r h (tr ++ [.op .connect (.ok 1), .op (.begin 1) (.ok ())]) 1
    ([.op (.commit 1) (.ok ()), .call (.savedTake 1) [], .call (.savedClear 1) (),
      .op (.close 1) (.ok ())] ++ after) (by simp [transaction]) ⟨.ok (), by simp⟩
  rcases List.mem_append.mp hmem with hmem | hmem
  · exact hno hmem
  · simp [vmDeleted] at hmem

/-- A node that is not connected goes at once. -/
theorem finishes_deallocateNode (cfg : Settings) (node : Node) {tr : Trace sig}
    {r : Except Exc Unit}
    (h : Finishes (do
      if node.hasCloud then
        disableNode cfg node.nodeId
        cloudsDeallocate cfg node
      removeNodeRow cfg node.nodeId : Prog Unit) tr r) :
    Finishes (deallocateNode cfg node)
      (.call (.getSession node.nodeId) none :: .call (.contains node.nodeId) false :: tr) r :=
  ⟨none, _, rfl, false, tr, rfl, h⟩

/-- Without an adapter the row of a node is removed after it is disabled. -/
theorem finishes_disable_remove {row : Prog Unit} (hc : node.cloud = some provider)
    (h : ¬cfg.Provides provider)
    (hrow : Finishes row (transaction (rowFound 1 node.nodeId)) (.ok ())) :
    Finishes (Co.bind (disableNode cfg node.nodeId) fun _ =>
        Co.bind (cloudsDeallocate cfg node) fun _ => row)
      (transaction (.op (.sql 1 (.nodeDisable node.nodeId)) (.ok true)) ++
        transaction (rowFound 1 node.nodeId)) (.ok ()) := by
  rw [cloudsDeallocate_not_provides hc h]
  exact finishes_bind.mpr (.inr ⟨(), _, _, rfl, finishes_disableNode cfg node.nodeId, hrow⟩)

/-- **The row goes without its VM** if the daemon does not have the
provider. -/
theorem not_deallocateNode_removesAfterDeletion (hc : node.cloud = some provider)
    (h : provider = "" ∨ ¬cfg.Provides provider) :
    ¬RemovesAfterDeletion node provider externalId (deallocateNode cfg node) := by
  by_cases hempty : provider = ""
  · have hcloud : node.hasCloud = false := by
      rw [NewNode.hasCloud, hc, hempty]
      rfl
    have hends := finishes_deallocateNode cfg node (by
      rw [hcloud]
      exact finishes_removeNodeRow cfg node.nodeId)
    exact not_removesAfterDeletion [.call (.getSession node.nodeId) none,
      .call (.contains node.nodeId) false] [] hends (by simp [vmDeleted])
  · have hcloud : node.hasCloud = true := by
      rw [NewNode.hasCloud, hc]
      exact bne_iff_ne.mpr hempty
    have hends := finishes_deallocateNode cfg node (by
      rw [hcloud]
      exact finishes_disable_remove hc (h.resolve_left hempty)
        (finishes_removeNodeRow cfg node.nodeId))
    refine not_removesAfterDeletion (.call (.getSession node.nodeId) none ::
      .call (.contains node.nodeId) false ::
        transaction (.op (.sql 1 (.nodeDisable node.nodeId)) (.ok true))) [] hends ?_
    simp [transaction, vmDeleted]

theorem not_abandonNode_removesAfterDeletion (hc : node.cloud = some provider)
    (h : ¬cfg.Provides provider) :
    ¬RemovesAfterDeletion node provider externalId (abandonNode cfg node) := by
  have hbody := finishes_disable_remove hc h (finishes_abandonRow cfg node.nodeId)
  have hends : Finishes (abandonNode cfg node)
      (transaction (.op (.sql 1 (.nodeDisable node.nodeId)) (.ok true)) ++
        (transaction (rowFound 1 node.nodeId) ++
          [.call (.trackerDiscardByNode node.nodeId) 0])) (.ok ()) := by
    unfold abandonNode
    rw [hc]
    exact finishes_tryFinally.mpr ⟨_, _, [_], .ok (), (List.append_assoc ..).symm, hbody,
      ⟨0, _, rfl, rfl, rfl⟩, rfl⟩
  refine not_removesAfterDeletion _ _ hends ?_
  simp [transaction, vmDeleted]

end

/-! ## The law holds of the providers of the daemon -/

/-- **A row is removed after its VM was deleted, if the daemon has the provider.**
It holds for both use cases that remove rows, and it fails for both in the same way:
neither asks whether there was an adapter. -/
theorem removesAfterDeletion_iff (cfg : Settings) (node : Node) {provider externalId : String}
    (hc : node.cloud = some provider) (hext : node.externalId = some externalId) :
    (RemovesAfterDeletion node provider externalId (deallocateNode cfg node) ∧
      RemovesAfterDeletion node provider externalId (abandonNode cfg node)) ↔
      provider ≠ "" ∧ cfg.Provides provider := by
  constructor
  · rintro ⟨hdealloc, -⟩
    by_contra h
    refine not_deallocateNode_removesAfterDeletion hc ?_ hdealloc
    exact (not_and_or.mp h).imp_left Decidable.not_not.mp
  · rintro ⟨hne, h⟩
    exact ⟨(careful_deallocateNode hc hext hne h).removesAfterDeletion,
      (careful_abandonNode hc hext h).removesAfterDeletion⟩

/-- A node of a provider that is in use, on a path that removes its row. -/
theorem removesAfterDeletion_inUse :
    RemovesAfterDeletion { nodeId := 1, cloud := some "hetzner", externalId := some "7" }
      "hetzner" "7" (deallocateNode { clouds := [{ name := "hetzner", maxNodes := 1 }] }
        { nodeId := 1, cloud := some "hetzner", externalId := some "7" }) :=
  ((removesAfterDeletion_iff { clouds := [{ name := "hetzner", maxNodes := 1 }] }
    { nodeId := 1, cloud := some "hetzner", externalId := some "7" } rfl rfl).mpr
      ⟨by decide, { name := "hetzner", maxNodes := 1 }, by decide, rfl⟩).1

/-- A provider that is turned off with `max_nodes = 0` keeps its VMs, and loses its
rows. To turn it off is what an operator does who wants no new VMs, and it is then
that the old ones are to be torn down. -/
theorem not_removesAfterDeletion_turnedOff :
    ¬∀ (cfg : Settings) (node : Node) (provider externalId : String),
      node.cloud = some provider → node.externalId = some externalId →
        RemovesAfterDeletion node provider externalId (deallocateNode cfg node) ∧
          RemovesAfterDeletion node provider externalId (abandonNode cfg node) := by
  intro h
  have hlaw := (h { clouds := [{ name := "hetzner", maxNodes := 0 }] }
    { nodeId := 1, cloud := some "hetzner", externalId := some "7" } "hetzner" "7" rfl rfl).2
  refine not_abandonNode_removesAfterDeletion rfl ?_ hlaw
  rintro ⟨c, hc, -⟩
  exact List.not_mem_nil hc

end Yascheduler
