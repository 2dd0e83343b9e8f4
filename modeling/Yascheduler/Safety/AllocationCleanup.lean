import Yascheduler.Safety.Provisioning
import Yascheduler.Application.Answers
import Yascheduler.Application.Reservation

/-!
# What an allocation leaves behind

The cloud section of `allocate_task` inserts a temporary row, has a VM created
and makes the row its node. If it ends in any other way, its `finally` takes
the task out of the tracker and removes the temporary row again, and a VM that
was handed to it is deleted.

The `finally` knows the row from what `_select_and_insert_tmp` returns. So
there is a gap: the row is committed some awaits before this function returns,
and if one of these is cancelled, or the COMMIT reports an error although it
took effect, nobody knows of the row any more.

## What is cleaned up, and what only tried

The code cannot promise that a row is gone: the statement that removes it may fail
like any other. What it can promise is that the removal was run, whatever became
of it, and the same goes for the deletion of a VM. So the law asks for the attempt,
which is also what distinguishes a path that forgets the row from one that does
not succeed.

A COMMIT that reports an error may have taken effect (`late`). Nothing in the code
can know, so the law is stated for both cases, and in one of them the gap is
wider.
-/

namespace Yascheduler

open Store Async Footprint

/-! ## The law -/

/-- The trace ends with a run of a part. What has happened before is left open, so
that a path can be described by what it does last. -/
def EndsWith {α : Type} (x : Prog α) (r : Except Exc α) (tr : Trace sig) : Prop :=
  ∃ before part, tr = before ++ part ∧ Finishes x part r

theorem EndsWith.append {α : Type} {x : Prog α} {r : Except Exc α} {tr : Trace sig}
    (h : EndsWith x r tr) (before : Trace sig) : EndsWith x r (before ++ tr) := by
  obtain ⟨before', part, rfl, hends⟩ := h
  exact ⟨before ++ before', part, (List.append_assoc ..).symm, hends⟩

/-- The transaction that removes the temporary row. It is run on its own connection,
after the one that has inserted the row is closed. -/
def removeTmp (cfg : Settings) (n : NodeId) : Prog Unit :=
  Uow.within fun c => do
    Nodes.remove c n
    Uow.commit cfg c

/-- The transaction that makes the row a node. -/
def persistNode (cfg : Settings) (node : Node) : Prog Unit :=
  Uow.within fun c => do
    Nodes.update c node
    Uow.commit cfg c

/-- **The temporary row is committed**: its INSERT is followed by a COMMIT, and this
returns, or it took effect all the same. The second case is a connection that is
lost after the server has committed and before it has said so. -/
def TmpCommitted (late : Prop) (n : NodeId) (tr : Trace sig) : Prop :=
  ∃ before c row tmp rc after,
    tr = before ++ .op (.sql c (.nodeInsert row)) (.ok tmp) :: .op (.commit c) rc :: after ∧
      tmp.nodeId = n ∧ (rc = .ok () ∨ late)

/-- The path ends with an enabled node that is persisted. -/
def Persisted (cfg : Settings) (tr : Trace sig) : Prop :=
  ∃ node : Node, node.enabled = true ∧ EndsWith (persistNode cfg node) (.ok ()) tr

/-- **Nothing is left behind**: no entry of the task in the tracker, no temporary
row – its removal was run, whatever became of it – and no VM. That the removal takes
effect cannot be asked for: it may meet a database that is down. -/
structure CleanedUp (cfg : Settings) (t : TaskId) (late : Prop) (tr : Trace sig) : Prop where
  entry : ∃ before after, tr = before ++ .call (.trackerDiscard t) () :: after ∧
    ∀ added, .call (.trackerAdd t) added ∉ after
  tmp : ∀ n, TmpCommitted late n tr → ∃ r, EndsWith (removeTmp cfg n) r tr
  vm : ∀ adapter dto, .op (.createNode adapter) (.ok dto) ∈ tr →
    ∃ r, .op (.deleteNode adapter dto.externalId) r ∈ tr

/-- **The gap**: the row is committed, and its selection raises. The name of the row
is returned by the same call, so the handler outside knows no row to remove. -/
def Lost (cfg : Settings) (engine : Engine) (late : Prop) (tr : Trace sig) : Prop :=
  ∃ selection rest e n, tr = selection ++ rest ∧
    Finishes (selectAndInsertTmp cfg engine) selection (.error e) ∧ TmpCommitted late n tr

/-! ## The selection

The selection inserts the row, commits it and returns its name. The result
rests on the order of the three, and on what stands between the second and the
third: a connection is closed there, and the lock is given back. -/

/-- The answer to an INSERT that succeeds. -/
def insertedNode : Answer sig → Option Node
  | .op (.sql _ (.nodeInsert _)) (.ok tmp) => some tmp
  | _ => none

theorem unspecific_insertedNode : Unspecific fun a => insertedNode a = none where
  op o r h := by
    cases o with
    | sql c st => cases h
    | _ => rfl
  savedTake _ _ := rfl
  savedClear _ _ := rfl

/-- A part in which nothing is inserted has no answer to an INSERT. -/
theorem notMem_of_sees {α : Type} {x : Prog α} {tr : Trace sig} {r : Except Exc α}
    (hx : Sees (fun a => insertedNode a = none) x) (h : Finishes x tr r) {a : Answer sig}
    {tmp : Node} (hins : insertedNode a = some tmp) : a ∉ tr := fun ha => by
  rw [hx tr r h a ha] at hins
  cases hins

theorem sees_selectProvider {q : Answer sig → Prop} (cfg : Settings) (platforms : List String)
    (counts : Dict String Nat) (h : ∀ p a, q (.call (.slotsTaken p) a)) :
    Sees q (selectProvider cfg platforms counts) := by
  unfold selectProvider
  split
  · exact sees_ret _
  · exact sees_bind (sees_sync fun a => h _ a) fun _ => sees_ret _

/-- What an INSERT of a row is answered. -/
def Inserts (a : Answer sig) : Prop := ∃ tmp, insertedNode a = some tmp

theorem sees_not_inserts {α : Type} {x : Prog α}
    (h : Sees (fun a => insertedNode a = none) x) : Sees (fun a => ¬Inserts a) x :=
  h.mono fun a ha ⟨tmp, htmp⟩ => by
    rw [ha] at htmp
    cases htmp

/-- **An INSERT in a selection** comes after the nodes were listed on the same
connection and a provider was selected for them; and it is what is selected. This is
why the row is about the right provider: the number of its nodes was read under the
same lock. -/
theorem split_selectAndInsertTmp {cfg : Settings} {engine : Engine} {before after : Trace sig}
    {a : Answer sig} {tmp : Node} {r : Except Exc (Option (String × Node))}
    (h : Finishes (selectAndInsertTmp cfg engine) (before ++ a :: after) r)
    (hins : insertedNode a = some tmp) :
    ∃ c nodes provider tr₁ tr₂,
      before = tr₁ ++ .op (.sql c .nodeListAll) (.ok nodes) :: tr₂ ∧
      Finishes (selectProvider cfg engine.platforms (countNodesByCloud nodes)) tr₂
        (.ok (some provider)) ∧
      a = .op (.sql c (.nodeInsert { cloud := some provider, enabled := false })) (.ok tmp) ∧
      ∀ selected, r = .ok selected → selected = some (provider, tmp) := by
  have ha : Inserts a := ⟨tmp, hins⟩
  have hq := unspecific_insertedNode
  -- inside the lock and the unit of work
  obtain ⟨_, r₁, t₁, t₂, _, rfl, hbody, hr₁⟩ := h.asyncWith_split ha
    (sees_not_inserts (sees_op fun _ => rfl)) fun _ _ => sees_not_inserts (sees_sync fun _ => rfl)
  obtain ⟨c, r₂, t₃, t₄, _, rfl, hwork, hr₂⟩ := hbody.asyncWith_split ha
    (sees_not_inserts (sees_enter hq)) fun c e => sees_not_inserts (sees_exit hq c e)
  obtain ⟨nodes, t₅, t₆, rfl, hlist, hselect⟩ := hwork.bind_split ha
    (sees_not_inserts (sees_op fun _ => rfl))
  obtain ⟨found, t₇, t₈, rfl, hfound, hinsert⟩ := hselect.bind_split ha
    (sees_not_inserts (sees_selectProvider cfg _ _ fun _ _ => rfl))
  obtain rfl := finishes_op.mp hlist
  cases found with
  | none =>
    obtain ⟨hnil, -⟩ := hinsert
    simp at hnil
  | some provider =>
    obtain ⟨answer, rest, htr, hrest⟩ := hinsert
    -- nothing is inserted after the answer to the INSERT
    have hnot : a ∉ rest := by
      cases answer with
      | error e =>
        obtain ⟨rfl, -⟩ := hrest
        exact List.not_mem_nil
      | ok node =>
        exact notMem_of_sees (sees_bind (sees_commit hq cfg c) fun _ => sees_ret _) hrest hins
    cases t₈ with
    | cons b t₈ =>
      obtain ⟨-, rfl⟩ := List.cons.inj htr
      exact absurd (List.mem_append_right t₈ List.mem_cons_self) hnot
    | nil =>
      obtain ⟨rfl, -⟩ := List.cons.inj htr
      cases answer with
      | error e => cases hins
      | ok node =>
        cases hins
        refine ⟨c, nodes, provider, t₁ ++ t₃, t₇, by simp, hfound, rfl, fun selected hr => ?_⟩
        rw [hr₂ _ (hr₁ _ hr)] at hrest
        change Finishes (Co.bind (Uow.commit cfg c) fun _ => .ret (some (provider, tmp))) _ _ at hrest
        obtain ⟨_, _, _, _, _, hreturn⟩ := hrest.bind_ok
        exact Except.ok.inj hreturn.2

/-- What is selected is what was inserted. -/
theorem finishes_selectAndInsertTmp {cfg : Settings} {engine : Engine} {tr : Trace sig}
    {selected : Option (String × Node)}
    (h : Finishes (selectAndInsertTmp cfg engine) tr (.ok selected)) {a : Answer sig}
    (ha : a ∈ tr) {tmp : Node} (hins : insertedNode a = some tmp) :
    selected.map (·.2) = some tmp := by
  obtain ⟨before, after, rfl⟩ := List.append_of_mem ha
  obtain ⟨c, nodes, provider, _, _, -, -, -, hsel⟩ := split_selectAndInsertTmp h hins
  rw [hsel _ rfl]
  rfl

/-! ## The last part of a trace -/

/-- The answer is not about entries of the tracker that come or go. -/
def offTracker : Answer sig → Prop
  | .call (.trackerAdd _) _ => False
  | .call (.trackerDiscard _) _ => False
  | _ => True

theorem unspecific_offTracker : Unspecific offTracker :=
  ⟨fun _ _ _ => trivial, fun _ _ => trivial, fun _ _ => trivial⟩

theorem sees_mustMatch {q : Answer sig → Prop} (n : NodeId) (found : Bool) :
    Sees q (Nodes.mustMatch n found) := by
  unfold Nodes.mustMatch
  split
  · exact sees_ret ()
  · exact sees_throw _

theorem sees_removeTmp (cfg : Settings) (n : NodeId) : Sees offTracker (removeTmp cfg n) :=
  sees_within unspecific_offTracker fun c =>
    sees_bind (sees_bind (sees_op fun _ => trivial) fun found => sees_mustMatch n found) fun _ =>
      sees_commit unspecific_offTracker cfg c

theorem sees_persistNode (cfg : Settings) (node : Node) :
    Sees offTracker (persistNode cfg node) :=
  sees_within unspecific_offTracker fun c =>
    sees_bind (sees_bind (sees_op fun _ => trivial) fun found => sees_mustMatch _ found) fun _ =>
      sees_commit unspecific_offTracker cfg c

/-- A trace that ends with a discarded entry does not end with a
transaction. -/
theorem not_endsWith {α : Type} {body : Nat → Prog α} {r : Except Exc α} {tr : Trace sig}
    (hsees : Sees offTracker (Uow.within body)) (t : TaskId) :
    ¬EndsWith (Uow.within body) r (tr ++ [.call (.trackerDiscard t) ()]) := by
  rintro ⟨before, part, heq, hends⟩
  rcases List.eq_nil_or_concat part with rfl | ⟨init, last, rfl⟩
  · obtain ⟨a, rest, hnil, -⟩ := hends
    cases hnil
  · rw [List.concat_eq_append, ← List.append_assoc] at heq
    obtain ⟨-, hlast⟩ := List.append_inj' heq rfl
    obtain rfl := (List.cons.inj hlast).1
    exact hsees _ r hends (.call (.trackerDiscard t) ()) (by simp)

/-! ## The VM

A VM has an owner at every moment: `create_node` until it returns, then the
provisioner, and after its return the use case. Each of them deletes it if it
cannot hand it on. The lemmas follow the VM from one to the next. -/

section

variable {cfg : Settings} {node : Node} {adapter : String} {dto : CloudCreateNodeDTO}
  {tr : Trace sig}

/-- A deletion among the steps of a teardown was asked for. -/
theorem mem_of_mem_teardowns {externalId : String}
    (h : .delete adapter externalId ∈ teardowns tr) :
    ∃ r, .op (.deleteNode adapter externalId) r ∈ tr := by
  obtain ⟨a, ha, hstep⟩ := List.mem_filterMap.mp h
  unfold teardownStep at hstep
  split at hstep
  · cases hstep
  · cases hstep
    exact ⟨_, ha⟩
  · cases hstep

/-- **A VM that is created is deleted, or handed over as a node.** The handler
around the connection to the machine deletes it, also if it is left by a
cancellation. -/
theorem finishes_createVm_vm {name : String} {r : Except Exc Node}
    (h : Finishes (createVm cfg name node) tr r)
    (hvm : .op (.createNode adapter) (.ok dto) ∈ tr) :
    adapter = name ∧ ((∃ e rd, r = .error e ∧ .op (.deleteNode adapter dto.externalId) rd ∈ tr) ∨
      r = .ok { node.withVm dto adapter with enabled := true }) := by
  have hcreation : creation (.op (.createNode adapter) (.ok dto)) = some (adapter, dto) := rfl
  rcases finishes_bind.mp h with ⟨e, rfl, hreq⟩ | ⟨dto', tr₁, tr₂, rfl, hreq, hguard⟩
  · rcases finishes_requestVm hreq with ⟨_, he, -⟩ | ⟨-, hquiet⟩
    · cases he
    · rw [(hquiet _ hvm).1] at hcreation
      cases hcreation
  · rcases finishes_requestVm hreq with ⟨_, hdto, rfl⟩ | ⟨⟨_, he⟩, -⟩
    case inr => cases he
    cases hdto
    have hsetup := sees_setupVm (q := fun b => creation b = none) cfg (node.withVm dto' name) name
      (fun _ => rfl) (fun _ _ => rfl) (fun _ _ => rfl) fun _ _ => rfl
    -- the only creation is that of the request
    have hhere : (.op (.createNode adapter) (.ok dto) : Answer sig) ∉ tr₂ →
        adapter = name ∧ dto = dto' := fun hno => by
      rcases List.mem_append.mp hvm with hvm | hvm
      · rcases List.mem_cons.mp hvm with he | hvm
        · cases he
        · cases List.mem_singleton.mp hvm
          exact ⟨rfl, rfl⟩
      · exact absurd hvm hno
    rcases finishes_tryCatch.mp hguard with ⟨node', rfl, hok⟩ | ⟨e, tr₃, tr₄, rfl, hfail, hdown⟩
    · obtain rfl := (returns_setupVm cfg _ name).finishes hok
      obtain ⟨rfl, rfl⟩ := hhere fun hmem => by
        rw [hsetup _ _ hok _ hmem] at hcreation
        cases hcreation
      exact ⟨rfl, .inr rfl⟩
    · obtain ⟨rfl, hsteps, hquiet⟩ := finishes_teardownVm hdown
      obtain ⟨rfl, rfl⟩ := hhere fun hmem => by
        rcases List.mem_append.mp hmem with hmem | hmem
        · rw [hsetup _ _ hfail _ hmem] at hcreation
          cases hcreation
        · rw [(hquiet _ hmem).2] at hcreation
          cases hcreation
      have hdelete : .delete adapter dto.externalId ∈ teardowns tr₄ := by
        rw [hsteps]
        exact List.mem_cons_of_mem _ List.mem_cons_self
      obtain ⟨rd, hrd⟩ := mem_of_mem_teardowns hdelete
      exact ⟨rfl, .inl ⟨_, rd, rfl, List.mem_append_right _ (List.mem_append_right _ hrd)⟩⟩

/-- The provisioner does so as well, and a node it hands over can be given
back to it. -/
theorem finishes_cloudsAllocate_vm {name : String} {r : Except Exc Node}
    (h : Finishes (cloudsAllocate cfg name node) tr r)
    (hvm : .op (.createNode adapter) (.ok dto) ∈ tr) :
    (∃ e rd, r = .error e ∧ .op (.deleteNode adapter dto.externalId) rd ∈ tr) ∨
      ∃ node', r = .ok node' ∧
        cloudsDeallocate cfg node' = await (.deleteNode adapter dto.externalId) := by
  unfold cloudsAllocate at h
  split at h
  · obtain ⟨rfl, -⟩ := h
    cases hvm
  · obtain ⟨rfl, -⟩ := h
    cases hvm
  next found config hfound hconfig =>
    obtain rfl : name = found := Settings.adapters_name (Dict.mem_of_get hfound)
    rcases finishes_asyncWith.mp h with
      ⟨e, rfl, henter⟩ | ⟨u, r₀, tr₁, tr₂, tr₃, rx, rfl, henter, hbody, hexit, rfl⟩
    · obtain rfl := finishes_op.mp henter
      cases List.mem_singleton.mp hvm
    · obtain rfl := finishes_op.mp henter
      obtain ⟨v, rfl, rfl⟩ := finishes_sync.mp hexit
      have hinner : .op (.createNode adapter) (.ok dto) ∈ tr₂ := by simpa using hvm
      obtain ⟨rfl, ⟨e, rd, rfl, hrd⟩ | rfl⟩ := finishes_createVm_vm hbody hinner
      · exact .inl ⟨e, rd, rfl, by simp [hrd]⟩
      · refine .inr ⟨_, rfl, ?_⟩
        simp only [cloudsDeallocate, Node.withVm, hfound, hconfig]

/-- A node that is persisted was persisted by the transaction. -/
theorem finishes_persist_ok {n : NodeId}
    (h : Finishes (persistNodeWithCleanup cfg node n) tr (.ok ())) :
    Finishes (persistNode cfg node) tr (.ok ()) := by
  rcases finishes_tryCatch.mp h with ⟨_, _, h⟩ | ⟨e, tr₁, tr₂, rfl, -, h⟩
  · exact h
  · -- the handler raises
    obtain ⟨_, _, _, -, -, h⟩ := h.bind_ok
    obtain ⟨_, _, _, -, -, h⟩ := h.bind_ok
    cases h.2

/-- If it is not persisted its VM is deleted. This includes a transaction whose
COMMIT fails: the row may then be there all the same, and point to no VM. -/
theorem finishes_persist_error {n : NodeId} {e : Exc} {externalId : String}
    (h : Finishes (persistNodeWithCleanup cfg node n) tr (.error e))
    (hvm : cloudsDeallocate cfg node = await (.deleteNode adapter externalId)) :
    ∃ rd, .op (.deleteNode adapter externalId) rd ∈ tr := by
  have hdelete {tr : Trace sig} {r : Except Exc Unit}
      (h : Finishes (exceptException (cloudsDeallocate cfg node) fun _ => pure ()) tr r) :
      ∃ rd, .op (.deleteNode adapter externalId) rd ∈ tr := by
    rw [hvm] at h
    rcases finishes_tryCatch.mp h with ⟨_, _, h⟩ | ⟨e, tr₁, tr₂, rfl, h, -⟩
    · obtain rfl := finishes_op.mp h
      exact ⟨_, List.mem_singleton_self _⟩
    · obtain rfl := finishes_op.mp h
      exact ⟨_, List.mem_cons_self⟩
  rcases finishes_tryCatch.mp h with ⟨_, he, -⟩ | ⟨e, tr₁, tr₂, rfl, -, h⟩
  · cases he
  · rcases finishes_bind.mp h with ⟨_, -, h⟩ | ⟨_, tr₃, tr₄, rfl, h, -⟩
    · obtain ⟨rd, hrd⟩ := hdelete h
      exact ⟨rd, List.mem_append_right _ hrd⟩
    · obtain ⟨rd, hrd⟩ := hdelete h
      exact ⟨rd, List.mem_append_right _ (List.mem_append_left _ hrd)⟩

end

/-! ## The parts of the cloud section

The section is taken apart at its handlers. The `finally` for the tracker is
outside of everything, so it is always passed; the handler for the row is
inside, and is passed from the moment when its name is known. -/

/-- The part after the selection. From here on the name of the row is known, so
every way out passes a removal. -/
def provision (cfg : Settings) (name : String) (tmp : Node) : Prog Unit := do
  let node ← allocateCloudNode cfg name tmp
  persistNodeWithCleanup cfg node tmp.nodeId

section

variable {cfg : Settings} {engine : Engine} {task : TodoTask} {name : String} {tmp : Node}
  {tr : Trace sig}

/-- A node that is handed over is enabled. -/
theorem returns_cloudsAllocate :
    Returns (fun node => node.enabled = true) (cloudsAllocate cfg name tmp) := by
  unfold cloudsAllocate
  split
  · trivial
  · trivial
  · refine returns_asyncWith fun _ => returns_then fun dto => returns_tryCatch ?_ fun e => ?_
    · exact (returns_setupVm cfg _ _).mono fun node hnode => hnode ▸ rfl
    · refine returns_then fun _ => returns_then fun _ => ?_
      split <;> trivial

/-- What is not an INSERT inserts nothing. -/
theorem sees_insertedNode {α : Type} {x : Prog α}
    (h : (scope {k | k ≠ .insertNode}).Inside ∅ x) : Sees (fun a => insertedNode a = none) x := by
  intro tr r hends a ha
  have hadmits := h.admits tr r hends a ha
  unfold insertedNode
  split
  · exact absurd rfl (hadmits .insertNode rfl)
  · rfl

theorem inside_provision : (scope {k | k ≠ .insertNode}).Inside ∅ (provision cfg name tmp) := by
  have hcleanup : (scope {k | k ≠ .insertNode}).Inside ∅ (cleanupTmpNode cfg tmp.nodeId) :=
    inside_cleanupTmpNode cfg _ nofun
  refine inside_bind (inside_exceptException (inside_cloudsAllocate cfg name tmp nofun nofun)
    fun _ => inside_bind hcleanup fun _ => trivial) fun node => inside_tryCatch ?_ fun _ => ?_
  · exact inside_transaction cfg fun c => inside_update (Set.mem_insert c ∅) node nofun
  · exact inside_bind (inside_exceptException (inside_cloudsDeallocate cfg node nofun)
      fun _ => trivial) fun _ => inside_bind hcleanup fun _ => trivial

/-- Cleaning up runs the removal. -/
theorem finishes_cleanupTmpNode {n : NodeId} {r : Except Exc Unit}
    (h : Finishes (cleanupTmpNode cfg n) tr r) : ∃ r', Finishes (removeTmp cfg n) tr r' := by
  rcases finishes_tryCatch.mp h with ⟨a, -, h⟩ | ⟨e, tr₁, tr₂, rfl, h, hrest⟩
  · exact ⟨_, h⟩
  · have hnil : tr₂ = [] := by
      split at hrest
      · exact hrest.1
      · exact hrest.1
    rw [hnil, List.append_nil]
    exact ⟨_, h⟩

theorem unspecific_creation : Unspecific fun a => creation a = none where
  op o r h := by
    cases o with
    | createNode p => cases h
    | _ => rfl
  savedTake _ _ := rfl
  savedClear _ _ := rfl

theorem sees_cleanupTmpNode {q : Answer sig → Prop} (hq : Unspecific q)
    (hsql : ∀ c st r, q (.op (.sql c st) r)) (n : NodeId) : Sees q (cleanupTmpNode cfg n) :=
  sees_exceptException (sees_within hq fun c =>
    sees_bind (sees_bind (sees_op (hsql c _)) fun found => sees_mustMatch n found) fun _ =>
      sees_commit hq cfg c) fun _ => sees_ret ()

/-- With the temporary row removed after an error, nothing changes about the
VM. -/
theorem finishes_allocateCloudNode_vm {r : Except Exc Node} {adapter : String}
    {dto : CloudCreateNodeDTO} (h : Finishes (allocateCloudNode cfg name tmp) tr r)
    (hvm : .op (.createNode adapter) (.ok dto) ∈ tr) :
    (∃ e rd, r = .error e ∧ .op (.deleteNode adapter dto.externalId) rd ∈ tr) ∨
      ∃ node, r = .ok node ∧
        cloudsDeallocate cfg node = await (.deleteNode adapter dto.externalId) := by
  rcases finishes_tryCatch.mp h with ⟨node, rfl, h₁⟩ | ⟨e, tr₁, tr₂, rfl, h₁, h₂⟩
  · exact finishes_cloudsAllocate_vm h₁ hvm
  · have hrest : Sees (fun a => creation a = none) (if Exc.isException e then
        (do cleanupTmpNode cfg tmp.nodeId; raise e : Prog Node) else raise e) := by
      split
      · exact sees_bind (sees_cleanupTmpNode unspecific_creation (fun _ _ _ => rfl) _) fun _ =>
          sees_throw e
      · exact sees_throw e
    have hraise : ∀ node, r ≠ .ok node := by
      rintro node rfl
      split at h₂
      · obtain ⟨_, _, _, -, -, h₂⟩ := h₂.bind_ok
        cases h₂.2
      · cases h₂.2
    have hvm₁ := (List.mem_append.mp hvm).resolve_right fun hmem =>
      nomatch (hrest tr₂ r h₂ _ hmem : some (adapter, dto) = none)
    rcases finishes_cloudsAllocate_vm h₁ hvm₁ with ⟨e', rd, -, hrd⟩ | ⟨_, he, -⟩
    · cases r with
      | ok node => exact absurd rfl (hraise node)
      | error e'' => exact .inl ⟨e'', rd, rfl, List.mem_append_left _ hrd⟩
    · cases he

/-- A node that is allocated is enabled. -/
theorem returns_allocateCloudNode :
    Returns (fun node => node.enabled = true) (allocateCloudNode cfg name tmp) := by
  refine returns_tryCatch returns_cloudsAllocate fun e => ?_
  split
  · exact returns_then fun _ => trivial
  · trivial

/-- **What the part after the selection leaves**: a node that is persisted, or an
error and no VM. There is no third way, since both the creation and the transaction
delete what they do not hand over. -/
theorem finishes_provision {r : Except Exc Unit} (h : Finishes (provision cfg name tmp) tr r) :
    (r = .ok () → Persisted cfg tr) ∧
      ∀ e, r = .error e → ∀ adapter dto, .op (.createNode adapter) (.ok dto) ∈ tr →
        ∃ rd, .op (.deleteNode adapter dto.externalId) rd ∈ tr := by
  constructor
  · rintro rfl
    obtain ⟨node, tr₁, tr₂, rfl, h₁, h₂⟩ := h.bind_ok
    exact ⟨node, returns_allocateCloudNode.finishes h₁, tr₁, tr₂, rfl, finishes_persist_ok h₂⟩
  · rintro e rfl adapter dto hvm
    rcases finishes_bind.mp h with ⟨e', -, h₁⟩ | ⟨node, tr₁, tr₂, rfl, h₁, h₂⟩
    · rcases finishes_allocateCloudNode_vm h₁ hvm with ⟨_, rd, -, hrd⟩ | ⟨_, he, -⟩
      · exact ⟨rd, hrd⟩
      · cases he
    · have hpersist : Sees (fun a => creation a = none)
          (persistNodeWithCleanup cfg node tmp.nodeId) := by
        refine sees_tryCatch (sees_within unspecific_creation fun c => sees_bind (sees_bind
          (sees_op fun _ => rfl) fun found => sees_mustMatch _ found) fun _ =>
            sees_commit unspecific_creation cfg c) fun e => ?_
        refine sees_bind (sees_exceptException ?_ fun _ => sees_ret ()) fun _ =>
          sees_bind (sees_cleanupTmpNode unspecific_creation (fun _ _ _ => rfl) _) fun _ =>
            sees_throw e
        unfold cloudsDeallocate
        split
        · exact sees_ret ()
        · split
          · exact sees_op fun _ => rfl
          · exact sees_ret ()
      have hvm₁ := (List.mem_append.mp hvm).resolve_right fun hmem =>
        nomatch (hpersist tr₂ _ h₂ _ hmem : some (adapter, dto) = none)
      rcases finishes_allocateCloudNode_vm h₁ hvm₁ with ⟨_, _, he, -⟩ | ⟨node', he, hdeal⟩
      · cases he
      · cases he
        obtain ⟨rd, hrd⟩ := finishes_persist_error h₂ hdeal
        exact ⟨rd, List.mem_append_right _ hrd⟩

/-- **The runs of the cloud section**, once the task is in the tracker: no provider
has room, the selection raises, or there is a row and the part after it runs. -/
inductive CloudRun (cfg : Settings) (engine : Engine) (task : TodoTask) : Trace sig → Prop
  /-- the selection raises -/
  | raised {sel e} (h : Finishes (selectAndInsertTmp cfg engine) sel (.error e)) :
      CloudRun cfg engine task (sel ++ [.call (.trackerDiscard task.taskId) ()])
  /-- no provider has room -/
  | refused {sel} (h : Finishes (selectAndInsertTmp cfg engine) sel (.ok none)) :
      CloudRun cfg engine task (sel ++ [.call (.trackerDiscard task.taskId) ()])
  /-- a node is persisted -/
  | provisioned {sel name tmp part}
      (h : Finishes (selectAndInsertTmp cfg engine) sel (.ok (some (name, tmp))))
      (hpart : Finishes (provision cfg name tmp) part (.ok ())) :
      CloudRun cfg engine task
        (sel ++ .call (.trackerSetNode task.taskId tmp.nodeId) () :: part)
  /-- something fails, and the temporary row is removed -/
  | failed {sel name tmp part e clean r}
      (h : Finishes (selectAndInsertTmp cfg engine) sel (.ok (some (name, tmp))))
      (hpart : Finishes (provision cfg name tmp) part (.error e))
      (hclean : Finishes (cleanupTmpNode cfg tmp.nodeId) clean r) :
      CloudRun cfg engine task (sel ++ .call (.trackerSetNode task.taskId tmp.nodeId) () ::
        (part ++ .call (.trackerDiscard task.taskId) () :: clean))

/-- There are no others. -/
theorem finishes_allocateCloud {r : Except Exc Bool}
    (h : Finishes (allocateCloud cfg engine task)
      (.call (.trackerAdd task.taskId) true :: tr) r) : CloudRun cfg engine task tr := by
  obtain ⟨added, rest, heq, h⟩ := h
  cases heq
  change Finishes (Co.bind (cloudSection cfg engine task) _) tr r at h
  have hend {tr : Trace sig} {r₀ : Except Exc Unit} {r : Except Exc Bool}
      (h : Finishes (do Co.ofExcept (S := sig) r₀; return false : Prog Bool) tr r) : tr = [] := by
    cases r₀ <;> exact h.1
  rcases finishes_bind.mp h with ⟨e, -, hsection⟩ | ⟨out, tr₁, tr₂, rfl, hsection, hrest⟩
  · -- the section reports its errors, and raises none
    obtain ⟨r₀, t₁, t₂, rfl, -, h₂⟩ := finishes_attempt_bind.mp hsection
    split at h₂
    · cases h₂.2
    · cases h₂.2
    · obtain ⟨_, t₃, rfl, h₂⟩ := h₂
      obtain ⟨_, _, _, -, -, h₂⟩ := finishes_attempt_bind.mp h₂
      cases h₂.2
  · obtain ⟨r₀, t₁, t₂, rfl, h₁, h₂⟩ := finishes_attempt_bind.mp hsection
    split at h₂
    · obtain ⟨rfl, hout⟩ := h₂
      cases hout
      obtain ⟨_, t₃, rfl, hrest⟩ := hrest
      obtain rfl := hend hrest
      rw [List.append_nil]
      exact .raised h₁
    · obtain ⟨rfl, hout⟩ := h₂
      cases hout
      obtain ⟨_, t₃, rfl, hrest⟩ := hrest
      obtain rfl := hend hrest
      rw [List.append_nil]
      exact .refused h₁
    next name tmp =>
      obtain ⟨_, t₃, rfl, h₂⟩ := h₂
      obtain ⟨r₁, t₄, t₅, rfl, h₄, h₅⟩ := finishes_attempt_bind.mp h₂
      obtain ⟨rfl, hout⟩ := h₅
      cases hout
      cases r₁ with
      | ok u =>
        obtain rfl := hend hrest
        rw [List.append_nil, List.append_nil]
        exact .provisioned h₁ h₄
      | error e =>
        obtain ⟨_, t₆, rfl, hrest⟩ := hrest
        change Finishes (Co.bind (cleanupTmpNode cfg tmp.nodeId) _) t₆ r at hrest
        rw [List.append_nil, List.append_assoc, List.cons_append]
        rcases finishes_bind.mp hrest with ⟨_, -, hclean⟩ | ⟨_, t₇, t₈, rfl, hclean, hrest⟩
        · exact .failed h₁ h₄ hclean
        · obtain rfl := hend hrest
          rw [List.append_nil]
          exact .failed h₁ h₄ hclean

/-! ## What the runs leave

There are three kinds of runs. Without a provider there is nothing to leave,
and with a name the row is removed. What remains are the runs whose selection
raises, and they leave a row if and only if it was committed by then. So the
condition is exact. -/

theorem sees_selectAndInsertTmp (cfg : Settings) (engine : Engine) :
    Sees (fun a => creation a = none) (selectAndInsertTmp cfg engine) := by
  refine sees_asyncWith (sees_op fun _ => rfl) (fun _ => ?_) fun _ _ => sees_sync fun _ => rfl
  refine sees_within unspecific_creation fun c => sees_bind (sees_op fun _ => rfl) fun nodes =>
    sees_bind (sees_selectProvider cfg _ _ fun _ _ => rfl) fun name => ?_
  cases name with
  | none => exact sees_ret none
  | some name =>
    exact sees_bind (sees_op fun _ => rfl) fun tmp =>
      sees_bind (sees_commit unspecific_creation cfg c) fun _ => sees_ret _

/-- A row that is committed was inserted. -/
theorem TmpCommitted.mem {late : Prop} {n : NodeId} (h : TmpCommitted late n tr) :
    ∃ a ∈ tr, ∃ tmp, insertedNode a = some tmp ∧ tmp.nodeId = n := by
  obtain ⟨before, c, row, tmp, rc, after, rfl, hn, -⟩ := h
  exact ⟨_, List.mem_append_right before List.mem_cons_self, tmp, rfl, hn⟩

/-- If no provider has room, there was nothing to clean up. -/
theorem cleanedUp_refused {late : Prop} {sel : Trace sig}
    (h : Finishes (selectAndInsertTmp cfg engine) sel (.ok none)) :
    CleanedUp cfg task.taskId late (sel ++ [.call (.trackerDiscard task.taskId) ()]) where
  entry := ⟨sel, [], rfl, fun _ hno => nomatch hno⟩
  tmp n hn := by
    obtain ⟨a, ha, tmp, hins, -⟩ := hn.mem
    rcases List.mem_append.mp ha with ha | ha
    · cases finishes_selectAndInsertTmp h ha hins
    · obtain rfl := List.mem_singleton.mp ha
      cases hins
  vm adapter dto hvm := by
    rcases List.mem_append.mp hvm with hvm | hvm
    · exact nomatch (sees_selectAndInsertTmp cfg engine sel _ h _ hvm : some (adapter, dto) = none)
    · cases List.mem_singleton.mp hvm

/-- **What fails after the selection is cleaned up.** The tracker is cleaned in any
case, and the removal of the row stands in a handler that a cancellation reaches as
well. -/
theorem cleanedUp_failed {late : Prop} {sel part clean : Trace sig} {e : Exc}
    {r : Except Exc Unit}
    (h : Finishes (selectAndInsertTmp cfg engine) sel (.ok (some (name, tmp))))
    (hpart : Finishes (provision cfg name tmp) part (.error e))
    (hclean : Finishes (cleanupTmpNode cfg tmp.nodeId) clean r) :
    CleanedUp cfg task.taskId late (sel ++ .call (.trackerSetNode task.taskId tmp.nodeId) () ::
      (part ++ .call (.trackerDiscard task.taskId) () :: clean)) where
  entry := by
    refine ⟨sel ++ .call (.trackerSetNode task.taskId tmp.nodeId) () :: part, clean, by simp, ?_⟩
    exact fun added hadd =>
      sees_cleanupTmpNode unspecific_offTracker (fun _ _ _ => trivial) _ clean r hclean _ hadd
  tmp n hn := by
    obtain ⟨a, ha, tmp', hins, rfl⟩ := hn.mem
    have hpart' : a ∉ part := notMem_of_sees (sees_insertedNode inside_provision) hpart hins
    have hclean' : a ∉ clean := notMem_of_sees
      (sees_insertedNode (inside_cleanupTmpNode cfg tmp.nodeId nofun)) hclean hins
    have hsel : a ∈ sel := by
      simp only [List.mem_append, List.mem_cons] at ha
      rcases ha with ha | rfl | ha | rfl | ha
      · exact ha
      · cases hins
      · exact absurd ha hpart'
      · cases hins
      · exact absurd ha hclean'
    cases finishes_selectAndInsertTmp h hsel hins
    obtain ⟨r', hremove⟩ := finishes_cleanupTmpNode hclean
    refine ⟨r', ?_⟩
    rw [List.append_cons, ← List.append_assoc, List.append_cons]
    exact EndsWith.append ⟨[], clean, rfl, hremove⟩ _
  vm adapter dto hvm := by
    have hsel : (.op (.createNode adapter) (.ok dto) : Answer sig) ∉ sel := fun hmem =>
      nomatch (sees_selectAndInsertTmp cfg engine sel _ h _ hmem : some (adapter, dto) = none)
    have hclean' : (.op (.createNode adapter) (.ok dto) : Answer sig) ∉ clean := fun hmem =>
      nomatch (sees_cleanupTmpNode unspecific_creation (fun _ _ _ => rfl) _ clean r hclean _ hmem :
        some (adapter, dto) = none)
    simp only [List.mem_append, List.mem_cons] at hvm
    rcases hvm with hvm | hvm | hvm | hvm | hvm
    · exact absurd hvm hsel
    · cases hvm
    · obtain ⟨rd, hrd⟩ := (finishes_provision hpart).2 e rfl adapter dto hvm
      exact ⟨rd, by simp [hrd]⟩
    · cases hvm
    · exact absurd hvm hclean'

/-- **The cloud section cleans up after itself, unless the row is lost in the gap.**
`late` says whether a COMMIT that reports an error took effect. In the gap the row
is in the database and counts against the capacity of its provider, and its
identifier is in no variable that a handler could look at. -/
theorem cleanedUp_iff (cfg : Settings) (engine : Engine) (task : TodoTask) (late : Prop)
    {tr : Trace sig} {r : Except Exc Bool}
    (h : Finishes (allocateCloud cfg engine task)
      (.call (.trackerAdd task.taskId) true :: tr) r) :
    (¬Persisted cfg tr → CleanedUp cfg task.taskId late tr) ↔ ¬Lost cfg engine late tr := by
  -- a selection that returns has not raised
  have hunique {sel rest : Trace sig} {selected : Option (String × Node)}
      (h : Finishes (selectAndInsertTmp cfg engine) sel (.ok selected)) (htr : tr = sel ++ rest) :
      ¬Lost cfg engine late tr := by
    rintro ⟨sel', rest', e, n, htr', hraise, -⟩
    cases (h.unique hraise (htr.symm.trans htr')).2.1
  cases finishes_allocateCloud h with
  | @raised sel e hsel =>
    have hpersist : ¬Persisted cfg (sel ++ [.call (.trackerDiscard task.taskId) ()]) :=
      fun ⟨node, _, hends⟩ => not_endsWith (sees_persistNode cfg node) _ hends
    constructor
    · rintro hlaw ⟨_, _, _, n, -, -, hn⟩
      obtain ⟨_, hends⟩ := (hlaw hpersist).tmp n hn
      exact not_endsWith (sees_removeTmp cfg n) _ hends
    · intro hlost _
      refine ⟨⟨sel, [], rfl, fun _ hno => nomatch hno⟩, fun n hn => ?_, fun adapter dto hvm => ?_⟩
      · exact absurd ⟨sel, _, e, n, rfl, hsel, hn⟩ hlost
      · rcases List.mem_append.mp hvm with hvm | hvm
        · exact nomatch (sees_selectAndInsertTmp cfg engine sel _ hsel _ hvm :
            some (adapter, dto) = none)
        · cases List.mem_singleton.mp hvm
  | refused hsel => exact iff_of_true (fun _ => cleanedUp_refused hsel) (hunique hsel rfl)
  | provisioned hsel hpart =>
    refine iff_of_true (fun hno => absurd ?_ hno) (hunique hsel rfl)
    obtain ⟨node, henabled, hends⟩ := (finishes_provision hpart).1 rfl
    rw [List.append_cons]
    exact ⟨node, henabled, hends.append _⟩
  | failed hsel hpart hclean =>
    exact iff_of_true (fun _ => cleanedUp_failed hsel hpart hclean) (hunique hsel rfl)

end

/-! ## The gap

Closing a connection is an await like any other, and it may be cancelled. The
example is a cancellation that arrives there: everything that was to be done in
the transaction is done, and the caller does not learn of it. -/

namespace Gap

def cfg : Settings := { clouds := [{ name := "hetzner", maxNodes := 1 }] }

def engine : Engine := { name := "pcrystal", platforms := ["debian"] }

def task : TodoTask := { taskId := 1, engine := "pcrystal", state := {} }

def tmp : Node := { nodeId := 1, cloud := some "hetzner", enabled := false }

/-- The row is committed, and the closing of its unit of work is cancelled. -/
def selection : Trace sig :=
  [.op .lockAcquire (.ok ()), .op .connect (.ok 1), .op (.begin 1) (.ok ()),
   .op (.sql 1 .nodeListAll) (.ok []), .call (.slotsTaken "hetzner") 0,
   .op (.sql 1 (.nodeInsert { cloud := some "hetzner", enabled := false })) (.ok tmp),
   .op (.commit 1) (.ok ()), .call (.savedTake 1) [], .call (.savedClear 1) (),
   .op (.close 1) (.error .cancelled), .call .lockRelease ()]

theorem finishes_section : Finishes (allocateCloud cfg engine task)
    (.call (.trackerAdd 1) true :: (selection ++ [.call (.trackerDiscard 1) ()]))
    (.error .cancelled) :=
  ⟨_, _, rfl, _, _, rfl, _, _, rfl, _, _, rfl, _, _, rfl, _, _, rfl, _, _, rfl, _, _, rfl, _, _,
    rfl, _, _, rfl, _, _, rfl, _, _, rfl, _, _, rfl, rfl, rfl⟩

/-! ## A VM that cannot be reached

Here both the row and the VM are there before anything fails, and neither is
left. The row is removed twice, by the helper and by the `finally` behind it,
and the second removal finds nothing, which is no error. -/

def dto : CloudCreateNodeDTO := { externalId := "7", hostname := "10.0.0.1" }

/-- The row is committed, and its provider is selected. -/
def selected : Trace sig :=
  selection.take 9 ++ [.op (.close 1) (.ok ()), .call .lockRelease ()]

/-- A VM is created, and deleted when nobody answers there. -/
def unreachable : Trace sig :=
  [.op (.slotAcquire "hetzner") (.ok ()), .op .sshKey (.ok ()),
   .op (.createNode "hetzner") (.ok dto), .op .listPrivateKeys (.ok ()),
   .op (.connectMachine (tmp.withVm dto "hetzner")) (.error (.os "refused")),
   .call (.popSession 1) none, .op (.deleteNode "hetzner" "7") (.ok ()),
   .call (.slotRelease "hetzner") ()]

def unreachableError : Exc := .cloudSetup "SSH connect to 10.0.0.1 failed: refused"

/-- The row is removed. -/
def removed : Trace sig :=
  [.op .connect (.ok 2), .op (.begin 2) (.ok ()), .op (.sql 2 (.nodeRemove 1)) (.ok true),
   .op (.commit 2) (.ok ()), .call (.savedTake 2) [], .call (.savedClear 2) (),
   .op (.close 2) (.ok ())]

/-- The second removal finds no row. -/
def removedAlready : Trace sig :=
  [.op .connect (.ok 3), .op (.begin 3) (.ok ()), .op (.sql 3 (.nodeRemove 1)) (.ok false),
   .op (.rollback 3) (.ok ()), .call (.savedClear 3) (), .op (.close 3) (.ok ())]

def cleaned : Trace sig :=
  selected ++ .call (.trackerSetNode 1 1) () ::
    (unreachable ++ removed ++ .call (.trackerDiscard 1) () :: removedAlready)

theorem finishes_selected :
    Finishes (selectAndInsertTmp cfg engine) selected (.ok (some ("hetzner", tmp))) :=
  ⟨_, _, rfl, _, _, rfl, _, _, rfl, _, _, rfl, _, _, rfl, _, _, rfl, _, _, rfl, _, _, rfl, _, _,
    rfl, _, _, rfl, _, _, rfl, rfl, rfl⟩

theorem finishes_unreachable :
    Finishes (cloudsAllocate cfg "hetzner" tmp) unreachable (.error unreachableError) :=
  ⟨_, _, rfl, _, _, rfl, _, _, rfl, _, _, rfl, _, _, rfl, _, _, rfl, _, _, rfl, _, _, rfl, rfl, rfl⟩

theorem finishes_removed : Finishes (cleanupTmpNode cfg 1) removed (.ok ()) :=
  ⟨_, _, rfl, _, _, rfl, _, _, rfl, _, _, rfl, _, _, rfl, _, _, rfl, _, _, rfl, rfl, rfl⟩

theorem finishes_removedAlready : Finishes (cleanupTmpNode cfg 1) removedAlready (.ok ()) :=
  ⟨_, _, rfl, _, _, rfl, _, _, rfl, _, _, rfl, _, _, rfl, _, _, rfl, rfl, rfl⟩

theorem finishes_cleaned : Finishes (allocateCloud cfg engine task)
    (.call (.trackerAdd 1) true :: cleaned) (.error unreachableError) := by
  have hnode : Finishes (allocateCloudNode cfg "hetzner" tmp) (unreachable ++ removed)
      (.error unreachableError) :=
    finishes_tryCatch.mpr (.inr ⟨_, unreachable, removed, rfl, finishes_unreachable,
      finishes_bind.mpr (.inr ⟨(), removed, [], rfl, finishes_removed, rfl, rfl⟩)⟩)
  have hsection : Finishes (cloudSection cfg engine task)
      (selected ++ .call (.trackerSetNode 1 1) () :: (unreachable ++ removed))
      (.ok (.error unreachableError, false, some 1)) :=
    finishes_attempt_bind.mpr ⟨_, selected, _, rfl, finishes_selected, (), _, rfl,
      finishes_attempt_bind.mpr ⟨_, unreachable ++ removed, [], rfl,
        finishes_bind.mpr (.inl ⟨_, rfl, hnode⟩), rfl, rfl⟩⟩
  refine ⟨true, cleaned, rfl, ?_⟩
  show Finishes (Co.bind (cloudSection cfg engine task) _) _ _
  refine finishes_bind.mpr (.inr ⟨_, _, _, ?_, hsection, (), removedAlready, rfl, ?_⟩)
  · simp [cleaned, task]
  · show Finishes (Co.bind (cleanupTmpNode cfg 1) _) _ _
    exact finishes_bind.mpr (.inr ⟨(), removedAlready, [], rfl, finishes_removedAlready, rfl, rfl⟩)

/-- The VM that was created is not persisted. -/
theorem not_persisted_cleaned : ¬Persisted cfg cleaned := by
  rintro ⟨node, -, before, part, heq, hends⟩
  rcases finishes_asyncWith.mp hends with ⟨_, he, -⟩ | ⟨c, _, _, _, _, _, rfl, -, hbody, -, -⟩
  · cases he
  · -- the transaction begins with an UPDATE
    obtain ⟨r, rest, rfl, -⟩ := hbody
    have hmem : (.op (.sql c (.nodeUpdate node)) r : Answer sig) ∈ cleaned := by
      rw [heq]
      simp
    simp [cleaned, selected, selection, unreachable, removed, removedAlready] at hmem

end Gap

/-- The row is committed and the VM created, and neither stays. Nobody answers on
the machine, so the provisioner deletes it and raises, and the row is removed on the
way out. -/
theorem cleanedUp_unreachable : TmpCommitted False 1 Gap.cleaned ∧
    .op (.createNode "hetzner") (.ok Gap.dto) ∈ Gap.cleaned ∧
    CleanedUp Gap.cfg 1 False Gap.cleaned := by
  refine ⟨⟨Gap.selection.take 5, 1, _, Gap.tmp, .ok (), _, rfl, rfl, .inl rfl⟩,
    List.mem_append_right _ (.tail _ (.tail _ (.tail _ (.head _)))),
    (cleanedUp_iff Gap.cfg Gap.engine Gap.task False Gap.finishes_cleaned).mpr ?_
      Gap.not_persisted_cleaned⟩
  rintro ⟨sel, rest, e, n, heq, hraise, -⟩
  cases (Gap.finishes_selected.unique hraise heq).2.1

/-- **A cancellation in the gap leaves the row behind.** It arrives while the
connection is being closed, after the COMMIT. The safety net for a cancellation is
reached, but the identifier it looks at is not set yet. -/
theorem not_cleanedUp_cancelledClose :
    ¬∀ (cfg : Settings) (engine : Engine) (task : TodoTask) (late : Prop) (tr : Trace sig)
      (r : Except Exc Bool), Finishes (allocateCloud cfg engine task)
        (.call (.trackerAdd task.taskId) true :: tr) r →
      ¬Persisted cfg tr → CleanedUp cfg task.taskId late tr := by
  intro h
  have hclean := h Gap.cfg Gap.engine Gap.task False _ _ Gap.finishes_section
    fun ⟨node, _, hends⟩ => not_endsWith (sees_persistNode _ node) 1 hends
  have hn : TmpCommitted False 1 (Gap.selection ++ [.call (.trackerDiscard 1) ()]) :=
    ⟨Gap.selection.take 5, 1, _, Gap.tmp, .ok (), _, rfl, rfl, .inl rfl⟩
  obtain ⟨_, hends⟩ := hclean.tmp 1 hn
  exact not_endsWith (sees_removeTmp _ 1) 1 hends

end Yascheduler
