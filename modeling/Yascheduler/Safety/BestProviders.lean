import Yascheduler.Safety.AllocationCleanup
import Yascheduler.Safety.RemovedNodes

/-!
# Which provider gets the node

A node is requested from the best provider: of those that have room and support a
platform of the engine, the first of the highest priority. Which one this is depends
on the rows as they were counted under the allocation lock. If the slots of this
provider are taken, nothing is requested – no other provider is asked instead.

The code sorts the providers by their priority and takes the first. That this is
the *best* one in the sense above depends on the sort being stable: among equals
the order of the configuration decides, and a user can rely on it. So the first
section says what the head of a stable sort is, without saying how it was sorted.

That no other provider is asked when the slots of the best one are taken is not
an oversight of the model. The task is offered again in the next cycle.
-/

namespace Yascheduler

open Store Async Footprint

/-! ## The first of the highest -/

section

variable {α : Type} {l l₁ l₂ : List α} {x : α}

theorem le_of_first {key : α → Int} (hless : ∀ y ∈ l₁, key y < key x)
    (hle : ∀ y ∈ l₂, key y ≤ key x) : ∀ y ∈ l₁ ++ x :: l₂, key y ≤ key x := by
  intro y hy
  rcases List.mem_append.mp hy with hy | hy
  · exact (hless y hy).le
  · rcases List.mem_cons.mp hy with rfl | hy
    · exact le_rfl
    · exact hle y hy

/-- **The head of a stable descending sort** is the first of the highest. By
induction on the list, along the insertions. -/
theorem head?_insertionSort_eq_some_iff (key : α → Int) :
    (l.insertionSort fun a b => key a ≥ key b).head? = some x ↔
      ∃ l₁ l₂, l = l₁ ++ x :: l₂ ∧ (∀ y ∈ l₁, key y < key x) ∧ ∀ y ∈ l₂, key y ≤ key x := by
  induction l generalizing x with
  | nil => simp
  | cons a l ih =>
    rw [List.insertionSort_cons]
    cases hs : l.insertionSort fun a b => key a ≥ key b with
    | nil =>
      obtain rfl : l = [] := List.perm_nil.mp (hs ▸ (List.perm_insertionSort _ l).symm)
      constructor
      · intro h
        cases h
        exact ⟨[], [], rfl, by simp, by simp⟩
      · rintro ⟨l₁, l₂, h, -, -⟩
        cases l₁ with
        | nil =>
          cases h
          rfl
        | cons c l₁ => simp at h
    | cons b sorted =>
      rw [hs] at ih
      obtain ⟨l₁, l₂, hl, hless, hle⟩ := ih.mp rfl
      have hb : b ∈ l := hl ▸ List.mem_append_right l₁ List.mem_cons_self
      have hmax : ∀ y ∈ l, key y ≤ key b := hl ▸ le_of_first hless hle
      rw [List.orderedInsert_cons]
      split
      · -- the new element comes first
        rename_i hab
        constructor
        · intro h
          cases h
          exact ⟨[], l, rfl, by simp, fun y hy => (hmax y hy).trans hab⟩
        · rintro ⟨m₁, m₂, hm, hless', -⟩
          cases m₁ with
          | nil =>
            cases hm
            rfl
          | cons c m₁ =>
            obtain ⟨rfl, rfl⟩ := List.cons.inj hm
            have hx := hmax x (List.mem_append_right m₁ List.mem_cons_self)
            exact absurd (hless' a List.mem_cons_self) (not_lt.mpr (hx.trans hab))
      · rename_i hab
        rw [show (b :: List.orderedInsert (fun a b => key a ≥ key b) a sorted).head? =
          (b :: sorted).head? from rfl, ih]
        constructor
        · rintro ⟨m₁, m₂, hm, hless', hle'⟩
          have hbx : key b ≤ key x := le_of_first hless' hle' b (hm ▸ hb)
          exact ⟨a :: m₁, m₂, congrArg (a :: ·) hm,
            List.forall_mem_cons.mpr ⟨(not_le.mp hab).trans_le hbx, hless'⟩, hle'⟩
        · rintro ⟨m₁, m₂, hm, hless', hle'⟩
          cases m₁ with
          | nil =>
            obtain ⟨rfl, rfl⟩ := List.cons.inj hm
            exact absurd (hle' b hb) hab
          | cons c m₁ =>
            obtain ⟨rfl, rfl⟩ := List.cons.inj hm
            exact ⟨m₁, m₂, rfl, fun y hy => hless' y (List.mem_cons_of_mem _ hy), hle'⟩

end

/-! ## The best provider

The candidates are the adapters of the daemon, each with its configuration, and
the code filters and sorts them. What is meant is a statement about the
configuration: the provider is suitable, and no suitable one is better. The two
agree since the names are distinct, so that an adapter has one configuration.
-/

namespace Settings

variable {cfg : Settings}

/-- The provider could take one more node for one of the platforms. Each of the three
is tested by the code in a place of its own. -/
structure Suitable (cfg : Settings) (platforms : List String) (nodes : List Node)
    (c : CloudConfig) : Prop where
  resolves : cfg.resolves c.name = true
  room : (nodesOf c.name nodes : Int) < c.maxNodes
  supported : ∃ p ∈ platforms, cfg.supports c.name p = true

/-- **The best provider**: it is suitable, those before it that are suitable have a
lower priority, and those after it have no higher one. It is said of the
configuration as it is written, without any sorting. -/
def Best (cfg : Settings) (platforms : List String) (nodes : List Node)
    (provider : String) : Prop :=
  ∃ before c after, cfg.clouds = before ++ c :: after ∧ c.name = provider ∧
    cfg.Suitable platforms nodes c ∧
    (∀ c' ∈ before, cfg.Suitable platforms nodes c' → c'.priority < c.priority) ∧
    ∀ c' ∈ after, cfg.Suitable platforms nodes c' → c'.priority ≤ c.priority

/-- With distinct names nothing is overwritten. -/
theorem foldl_set_eq_map {V : Type} {f : CloudConfig → V} {cs : List CloudConfig}
    {d : Dict String V} (hnodup : (cs.map (·.name)).Nodup)
    (hnew : ∀ c ∈ cs, ∀ e ∈ d, e.1 ≠ c.name) :
    cs.foldl (fun d c => Dict.set d c.name (f c)) d = d ++ cs.map fun c => (c.name, f c) := by
  induction cs generalizing d with
  | nil => simp
  | cons c cs ih =>
    rw [List.map_cons, List.nodup_cons] at hnodup
    rw [List.foldl_cons, Dict.set_of_notMem _ (hnew c List.mem_cons_self), ih hnodup.2,
      List.append_assoc]
    · rfl
    · intro c' hc' e he
      rcases List.mem_append.mp he with he | he
      · exact hnew c' (List.mem_cons_of_mem c hc') e he
      · obtain rfl := List.mem_singleton.mp he
        exact fun h => hnodup.1 (List.mem_map.mpr ⟨c', hc', h.symm⟩)

open Classical in
/-- The suitable providers are sorted by their priorities. -/
theorem selectProviderPure_eq (hcfg : cfg.CloudsParsed) (platforms : List String)
    (nodes : List Node) :
    cfg.selectProviderPure platforms (countNodesByCloud nodes) =
      (((cfg.clouds.filterMap fun c =>
        if cfg.Suitable platforms nodes c then some (c.name, c.priority) else none).insertionSort
          fun a b => a.2 ≥ b.2).head?).map (·.1) := by
  have hnodup : (cfg.activeClouds.map (·.name)).Nodup :=
    hcfg.nodup.sublist (List.Sublist.map _ List.filter_sublist)
  have hadapters : cfg.adapters = cfg.activeClouds.map fun c => (c.name, c.name) :=
    foldl_set_eq_map hnodup (by simp)
  unfold selectProviderPure
  rw [hadapters, List.filterMap_map, activeClouds, List.filterMap_filter]
  refine congrArg (fun l : List (String × Int) =>
    ((l.insertionSort fun a b => a.2 ≥ b.2).head?).map (·.1)) ?_
  refine List.filterMap_congr fun c hc => ?_
  have hname := hcfg.named c hc
  by_cases hactive : (decide (0 < c.maxNodes) && cfg.resolves c.name) = true
  · have hget : cfg.configs.get c.name = some c := by
      have hprovides : cfg.Provides c.name := ⟨c, List.mem_filter.mpr ⟨hc, hactive⟩, rfl⟩
      obtain ⟨c', hget⟩ := configs_get hprovides
      obtain ⟨hc', hn⟩ := configs_name hget
      rw [hget, List.inj_on_of_nodup_map hcfg.nodup hc' hc hn]
    have hres : cfg.resolves c.name = true := (Bool.and_eq_true _ _ ▸ hactive).2
    rw [if_pos hactive]
    simp only [Function.comp, hget, get_countNodesByCloud hname]
    by_cases hroom : c.maxNodes ≤ (nodesOf c.name nodes : Int)
    · rw [if_pos hroom, if_neg fun h => not_lt.mpr hroom h.room]
    · rw [if_neg hroom]
      by_cases hany : cfg.supportsAny c.name platforms = true
      · rw [if_pos hany, if_pos ⟨hres, not_le.mp hroom, List.any_eq_true.mp hany⟩]
      · rw [if_neg hany, if_neg fun h => hany (List.any_eq_true.mpr h.supported)]
  · rw [if_neg hactive, if_neg]
    intro h
    refine hactive (Bool.and_eq_true _ _ ▸ ⟨decide_eq_true ?_, h.resolves⟩)
    exact (Int.natCast_nonneg _).trans_lt h.room

open Classical in
/-- **The provider that is selected is the best one.** The maps of the daemon have
the providers in the order of the configuration, since their names are distinct. -/
theorem selectProviderPure_eq_some_iff (hcfg : cfg.CloudsParsed) {platforms : List String}
    {nodes : List Node} {provider : String} :
    cfg.selectProviderPure platforms (countNodesByCloud nodes) = some provider ↔
      cfg.Best platforms nodes provider := by
  rw [selectProviderPure_eq hcfg, Option.map_eq_some_iff]
  simp only [head?_insertionSort_eq_some_iff fun a : String × Int => a.2]
  generalize hf : (fun c : CloudConfig => if cfg.Suitable platforms nodes c then
    some (c.name, c.priority) else none) = f
  have hsome : ∀ {c x}, f c = some x ↔
      cfg.Suitable platforms nodes c ∧ (c.name, c.priority) = x := by
    intro c x
    subst hf
    by_cases h : cfg.Suitable platforms nodes c <;> simp [h]
  have hmem : ∀ (P : Int → Prop) {cs : List CloudConfig}, (∀ y ∈ cs.filterMap f, P y.2) ↔
      ∀ c ∈ cs, cfg.Suitable platforms nodes c → P c.priority := by
    intro P cs
    simp only [List.mem_filterMap, hsome]
    exact ⟨fun h c hc hs => h _ ⟨c, hc, hs, rfl⟩, fun h y ⟨c, hc, hs, hy⟩ => hy ▸ h c hc hs⟩
  constructor
  · rintro ⟨x, ⟨l₁, l₂, hl, hless, hle⟩, rfl⟩
    obtain ⟨before, rest, hclouds, rfl, hrest⟩ := List.filterMap_eq_append_iff.mp hl
    obtain ⟨skipped, c, after, rfl, hskip, hc, rfl⟩ := List.filterMap_eq_cons_iff.mp hrest
    obtain ⟨hsuitable, rfl⟩ := hsome.mp hc
    refine ⟨before ++ skipped, c, after, by rw [hclouds, List.append_assoc], rfl, hsuitable, ?_,
      (hmem (· ≤ c.priority)).mp hle⟩
    intro c' hc' hs
    rcases List.mem_append.mp hc' with hc' | hc'
    · exact (hmem (· < c.priority)).mp hless c' hc' hs
    · exact absurd (hskip c' hc') (by rw [hsome.mpr ⟨hs, rfl⟩]; exact nofun)
  · rintro ⟨before, c, after, hclouds, rfl, hc, hless, hle⟩
    refine ⟨(c.name, c.priority), ⟨before.filterMap f, after.filterMap f, ?_,
      (hmem (· < c.priority)).mpr hless, (hmem (· ≤ c.priority)).mpr hle⟩, rfl⟩
    rw [hclouds, List.filterMap_append, List.filterMap_cons_some (hsome.mpr ⟨hc, rfl⟩)]

end Settings

/-! ## The choice

The count, the selection and the insertion happen under one lock and on one
connection, and the order matters: the provider is the best one for the rows
that were counted, and these are the rows as they are until the lock is given
back. -/

section

variable {cfg : Settings} {engine : Engine} {before after : Trace sig}

/-- **A provider is chosen**: the nodes are listed, the provider is the best one for
them, and not all of its slots are taken. The three happen in this order, on one
connection and under one lock. -/
structure Chosen (cfg : Settings) (platforms : List String) (c : Nat) (provider : String)
    (tr : Trace sig) : Prop where
  best : ∃ nodes, .op (.sql c .nodeListAll) (.ok nodes) ∈ tr ∧
    cfg.Best platforms nodes provider
  slots : ∃ taken, .call (.slotsTaken provider) taken ∈ tr ∧ taken < cfg.opLimit provider

/-- What was answered before does not matter. -/
theorem Chosen.later {platforms : List String} {c : Nat} {provider : String}
    {tr tr' : Trace sig} (h : Chosen cfg platforms c provider tr) :
    Chosen cfg platforms c provider (tr' ++ tr) where
  best := let ⟨nodes, hnodes, hbest⟩ := h.best
    ⟨nodes, List.mem_append_right tr' hnodes, hbest⟩
  slots := let ⟨taken, htaken, hlt⟩ := h.slots
    ⟨taken, List.mem_append_right tr' htaken, hlt⟩

/-- What is selected is the best provider, and a slot of it is free. -/
theorem finishes_selectProvider (hcfg : cfg.CloudsParsed) {platforms : List String}
    {nodes : List Node} {provider : String} {tr : Trace sig}
    (h : Finishes (selectProvider cfg platforms (countNodesByCloud nodes)) tr
      (.ok (some provider))) :
    cfg.Best platforms nodes provider ∧
      ∃ taken, tr = [.call (.slotsTaken provider) taken] ∧ taken < cfg.opLimit provider := by
  unfold selectProvider at h
  split at h
  · cases h.2
  next adapter hadapter =>
    obtain ⟨taken, rest, rfl, rfl, hr⟩ := h
    split at hr
    · cases hr
    · rename_i hfree
      cases hr
      exact ⟨(Settings.selectProviderPure_eq_some_iff hcfg).mp hadapter, taken, rfl,
        not_le.mp hfree⟩

/-- **The temporary row is one of the chosen provider.** It is inserted on the
connection on which the nodes were counted. -/
theorem chosen_selectAndInsertTmp (hcfg : cfg.CloudsParsed) {c : Nat} {row : NewNode} {tmp : Node}
    {r : Except Exc (Option (String × Node))}
    (h : Finishes (selectAndInsertTmp cfg engine)
      (before ++ .op (.sql c (.nodeInsert row)) (.ok tmp) :: after) r) :
    ∃ provider, row = { cloud := some provider, enabled := false } ∧
      Chosen cfg engine.platforms c provider before ∧
      ∀ name tmp', r = .ok (some (name, tmp')) → name = provider := by
  obtain ⟨c, nodes, provider, tr₁, tr₂, rfl, hselect, ⟨⟩, hsel⟩ := split_selectAndInsertTmp h rfl
  obtain ⟨hbest, taken, rfl, hfree⟩ := finishes_selectProvider hcfg hselect
  refine ⟨provider, rfl, ⟨⟨nodes, by simp, hbest⟩, taken, by simp, hfree⟩, fun name tmp' hr => ?_⟩
  cases hsel _ hr
  rfl

/-- A VM is asked for only from this provider. -/
def Asks (name : String) : Answer sig → Prop
  | .op (.createNode adapter) _ => adapter = name
  | _ => True

section

variable {name : String}

theorem unspecific_asks (name : String) : Unspecific (Asks name) where
  op o r h := by
    cases o with
    | createNode adapter => cases h
    | _ => trivial
  savedTake _ _ := trivial
  savedClear _ _ := trivial

theorem asks_cleanupTmpNode (n : NodeId) : Sees (Asks name) (cleanupTmpNode cfg n) :=
  sees_cleanupTmpNode (unspecific_asks name) (fun _ _ _ => trivial) n

/-- The selection asks nobody for a VM. -/
theorem asks_selectAndInsertTmp : Sees (Asks name) (selectAndInsertTmp cfg engine) := by
  have hq := unspecific_asks name
  refine sees_asyncWith (sees_op fun _ => trivial) (fun _ => ?_) fun _ _ =>
    sees_sync fun _ => trivial
  refine sees_within hq fun c => sees_bind (sees_op fun _ => trivial) fun nodes =>
    sees_bind (sees_selectProvider cfg _ _ fun _ _ => trivial) fun found => ?_
  cases found with
  | none => exact sees_ret none
  | some provider =>
    exact sees_bind (sees_op fun _ => trivial) fun tmp =>
      sees_bind (sees_commit hq cfg c) fun _ => sees_ret _

theorem asks_disconnect (n : NodeId) : Sees (Asks name) (disconnect n) := by
  refine sees_bind (sees_sync fun _ => trivial) fun found => ?_
  cases found with
  | none => exact sees_ret ()
  | some s =>
    exact sees_closeSession s (fun _ => trivial) (fun _ => trivial) (fun _ => trivial)
      (fun _ => trivial)

/-- A VM is asked for from the adapter that was resolved. -/
theorem asks_createVm (node : Node) : Sees (Asks name) (createVm cfg name node) := by
  refine sees_bind (sees_exceptException (sees_bind (sees_op fun _ => trivial) fun _ =>
    sees_op fun _ => rfl) fun e => sees_throw _) fun dto => ?_
  refine sees_tryCatch (sees_setupVm cfg _ name (fun _ => trivial)
    (fun _ _ => trivial) (fun _ _ => trivial)
    fun _ _ => trivial) fun e => ?_
  refine sees_bind (sees_tryCatch (asks_disconnect _) fun _ => sees_ret ()) fun _ =>
    sees_bind (sees_tryCatch (sees_op fun _ => trivial) fun _ => sees_ret ()) fun _ => ?_
  split <;> exact sees_throw _

/-- The provisioner asks the provider it is told. -/
theorem asks_cloudsAllocate (node : Node) : Sees (Asks name) (cloudsAllocate cfg name node) := by
  unfold cloudsAllocate
  split
  · exact sees_throw _
  · exact sees_throw _
  next found config hfound hconfig =>
    obtain rfl : name = found := Settings.adapters_name (Dict.mem_of_get hfound)
    exact sees_asyncWith (sees_op fun _ => trivial) (fun _ => asks_createVm node)
      fun _ _ => sees_sync fun _ => trivial

/-- After the selection nobody else is asked. -/
theorem asks_provision (tmp : Node) : Sees (Asks name) (provision cfg name tmp) := by
  have hq := unspecific_asks name
  have hclean : ∀ {α : Type} (e : Exc), Sees (Asks name)
      (do cleanupTmpNode cfg tmp.nodeId; raise e : Prog α) :=
    fun _ => sees_bind (asks_cleanupTmpNode _) fun _ => sees_throw _
  refine sees_bind (sees_exceptException (asks_cloudsAllocate tmp) hclean) fun node => ?_
  refine sees_tryCatch (sees_within hq fun c => sees_bind (sees_bind
    (sees_op fun _ => trivial) fun found => sees_mustMatch _ found) fun _ =>
      sees_commit hq cfg c) fun e => ?_
  refine sees_bind (sees_exceptException ?_ fun _ => sees_ret ()) fun _ => hclean e
  unfold cloudsDeallocate
  split
  · exact sees_ret ()
  · split
    · exact sees_op fun _ => trivial
    · exact sees_ret ()

end

/-- **In the cloud section** the chosen provider is reserved, and asked. It is one
name that is passed to both. -/
theorem chosen_allocateCloud (hcfg : cfg.CloudsParsed) {task : TodoTask} {c : Nat} {row : NewNode}
    {tmp : Node} {r : Except Exc Bool}
    (h : Finishes (allocateCloud cfg engine task)
      (before ++ .op (.sql c (.nodeInsert row)) (.ok tmp) :: after) r) :
    ∃ provider, row = { cloud := some provider, enabled := false } ∧
      Chosen cfg engine.platforms c provider before ∧ ∀ a ∈ after, Asks provider a := by
  have hins : Inserts (.op (.sql c (.nodeInsert row)) (.ok tmp)) := ⟨tmp, rfl⟩
  have hadded := h
  obtain ⟨added, t₁, t₂, rfl, hadd, hsection⟩ := h.bind_split hins
    (sees_not_inserts (sees_sync fun _ => rfl))
  obtain ⟨answered, rfl, heq⟩ := finishes_sync.mp hadd
  obtain rfl : added = answered := Except.ok.inj heq
  cases added with
  | false =>
    obtain ⟨hnil, -⟩ := hsection
    simp at hnil
  | true =>
    have hrun : CloudRun cfg engine task
        (t₂ ++ .op (.sql c (.nodeInsert row)) (.ok tmp) :: after) := finishes_allocateCloud hadded
    -- the row is inserted by the selection, and the rest asks its provider
    have hsplit {sel rest : Trace sig} {r : Except Exc (Option (String × Node))}
        (hsel : Finishes (selectAndInsertTmp cfg engine) sel r)
        (heq : sel ++ rest = t₂ ++ .op (.sql c (.nodeInsert row)) (.ok tmp) :: after)
        (hrest : ∀ a ∈ rest, insertedNode a = none)
        (hasks : ∀ provider, (∀ name tmp', r = .ok (some (name, tmp')) → name = provider) →
          ∀ a ∈ rest, Asks provider a) :
        ∃ provider, row = { cloud := some provider, enabled := false } ∧
          Chosen cfg engine.platforms c provider ([.call (.trackerAdd task.taskId) true] ++ t₂) ∧
            ∀ a ∈ after, Asks provider a := by
      obtain ⟨mid, rfl⟩ := split_earlier heq fun hmem => nomatch (hrest _ hmem : some tmp = none)
      obtain ⟨provider, hrow, hchosen, hname⟩ := chosen_selectAndInsertTmp hcfg hsel
      rw [List.append_assoc, List.append_cancel_left_eq] at heq
      obtain rfl : mid ++ rest = after := (List.cons.inj heq).2
      refine ⟨provider, hrow, hchosen.later, fun a ha => ?_⟩
      rcases List.mem_append.mp ha with ha | ha
      · exact asks_selectAndInsertTmp _ _ hsel a
          (List.mem_append_right t₂ (List.mem_cons_of_mem _ ha))
      · exact hasks provider hname a ha
    generalize htr : t₂ ++ .op (.sql c (.nodeInsert row)) (.ok tmp) :: after = tr at hrun
    cases hrun with
    | raised hsel => exact hsplit hsel htr.symm (by simp [insertedNode]) (by simp [Asks])
    | refused hsel => exact hsplit hsel htr.symm (by simp [insertedNode]) (by simp [Asks])
    | @provisioned sel name tmp' part hsel hpart =>
      refine hsplit hsel htr.symm ?_ fun provider hname => ?_
      · exact List.forall_mem_cons.mpr ⟨rfl, sees_insertedNode inside_provision _ _ hpart⟩
      · obtain rfl := hname name tmp' rfl
        exact List.forall_mem_cons.mpr ⟨trivial, asks_provision tmp' _ _ hpart⟩
    | @failed sel name tmp' part e clean r hsel hpart hclean =>
      refine hsplit hsel htr.symm ?_ fun provider hname => ?_
      · exact List.forall_mem_cons.mpr ⟨rfl, List.forall_mem_append.mpr
          ⟨sees_insertedNode inside_provision _ _ hpart, List.forall_mem_cons.mpr ⟨rfl,
            sees_insertedNode (inside_cleanupTmpNode cfg _ nofun) _ _ hclean⟩⟩⟩
      · obtain rfl := hname name tmp' rfl
        exact List.forall_mem_cons.mpr ⟨trivial, List.forall_mem_append.mpr
          ⟨asks_provision tmp' _ _ hpart, List.forall_mem_cons.mpr
            ⟨trivial, asks_cleanupTmpNode _ _ _ hclean⟩⟩⟩

/-! ## The use case

A task is only offered to a cloud when it is loaded and its engine is known.
What is shown here is that these come first, and that no part of the use case
asks any provider for a VM except the one that was chosen. -/

/-- The task is loaded, and its engine is known. -/
def Offered (cfg : Settings) (t : TaskId) (engine : Engine) (tr : Trace sig) : Prop :=
  ∃ c row task, .op (.sql c (.taskGet t .toDo)) (.ok (some row)) ∈ tr ∧
    row.todo? = some task ∧ cfg.engines.getNonempty task.engine = some engine

/-- An engine that is returned is the one of the task. -/
theorem returns_validateEngine (task : TodoTask) :
    Returns (fun engine => ∀ e, engine = some e → cfg.engines.getNonempty task.engine = some e)
      (validateEngine cfg task) := by
  unfold validateEngine
  split
  next engine hengine =>
    rintro e ⟨⟩
    exact hengine
  · exact returns_then fun _ => nofun

/-- A task that is loaded was a row. -/
theorem finishes_getTodo {t : TaskId} {task : TodoTask} {tr : Trace sig}
    (h : Finishes (Uow.within fun c => Tasks.getTodo c t) tr (.ok (some task))) :
    ∃ c row, .op (.sql c (.taskGet t .toDo)) (.ok (some row)) ∈ tr ∧ row.todo? = some task := by
  obtain ⟨c, t₁, t₂, t₃, rfl, -, hget, -⟩ := h.asyncWith_ok
  obtain ⟨row, t₄, t₅, rfl, hop, -, hrow⟩ := hget.bind_ok
  obtain rfl := finishes_op.mp hop
  obtain ⟨row, rfl, htask⟩ := Option.bind_eq_some_iff.mp (Except.ok.inj hrow).symm
  exact ⟨c, row, by simp, htask⟩

/-- **A node is requested from the best provider.** In whatever way the offer of a
task goes: if it inserts a temporary row, then the task was loaded and has a known
engine, the row reserves a place at the best provider for this engine and the nodes
that were just listed on the same connection, this provider had a free slot, and it
is the only one that is asked for a VM. -/
theorem bestProviderAsked (hcfg : cfg.CloudsParsed) {t : TaskId} {c : Nat} {row : NewNode}
    {tmp : Node} {r : Except Exc Bool}
    (h : Finishes (allocateTask cfg t)
      (before ++ .op (.sql c (.nodeInsert row)) (.ok tmp) :: after) r) :
    ∃ engine provider, Offered cfg t engine before ∧
      row = { cloud := some provider, enabled := false } ∧
      Chosen cfg engine.platforms c provider before ∧ ∀ a ∈ after, Asks provider a := by
  have hins : Inserts (.op (.sql c (.nodeInsert row)) (.ok tmp)) := ⟨tmp, rfl⟩
  have hinside {α : Type} {x : Prog α} (hx : (scope {k | k ≠ .insertNode}).Inside ∅ x) :
      Sees (fun a => ¬Inserts a) x := sees_not_inserts (sees_insertedNode hx)
  obtain ⟨found, t₁, t₂, rfl, hfound, hvalidate⟩ := h.bind_split hins
    (hinside (inside_within fun c => inside_getTodo (Set.mem_insert c ∅) t))
  cases found with
  | none =>
    obtain ⟨hnil, -⟩ := hvalidate
    simp at hnil
  | some task =>
    obtain ⟨found, t₃, t₄, rfl, hengine, hmachines⟩ := hvalidate.bind_split hins
      (hinside (inside_validateEngine cfg task nofun))
    cases found with
    | none =>
      obtain ⟨hnil, -⟩ := hmachines
      simp at hnil
    | some engine =>
      obtain ⟨started, t₅, t₆, rfl, -, hcloud⟩ := hmachines.bind_split hins
        (hinside (inside_allocateFreeMachine cfg engine task nofun nofun nofun nofun nofun nofun))
      cases started with
      | true =>
        obtain ⟨hnil, -⟩ := hcloud
        simp at hnil
      | false =>
        change Finishes (if engine.platforms.isEmpty then pure false
          else allocateCloud cfg engine task) _ _ at hcloud
        split at hcloud
        · obtain ⟨hnil, -⟩ := hcloud
          simp at hnil
        · obtain ⟨provider, hrow, hchosen, hasks⟩ := chosen_allocateCloud hcfg hcloud
          obtain ⟨c', row', hget, htask⟩ := finishes_getTodo hfound
          have hknown := (returns_validateEngine task).finishes hengine engine rfl
          exact ⟨engine, provider, ⟨c', row', task, List.mem_append_left _ hget, htask, hknown⟩,
            hrow, .later (.later (.later hchosen)), hasks⟩

end

namespace BestProviders

/-- One provider is full, and two with room have the same priority. -/
def cfg : Settings where
  engines := [("pcrystal", { name := "pcrystal", platforms := ["debian"] })]
  clouds := [{ name := "hetzner", maxNodes := 1, priority := 2 },
    { name := "upcloud", maxNodes := 2, priority := 1 },
    { name := "vultr", maxNodes := 2, priority := 1 }]

def row : AnyTask := { taskId := 1, engine := "pcrystal", state := .todo {} }

def machine : Node := { nodeId := 1, cloud := some "hetzner" }

def tmp : Node := { nodeId := 2, cloud := some "upcloud", enabled := false }

/-- The task is loaded, no machine is free, and the nodes are counted. -/
def before : Trace sig :=
  [.op .connect (.ok 1), .op (.begin 1) (.ok ()), .op (.sql 1 (.taskGet 1 .toDo)) (.ok (some row)),
    .op (.close 1) (.ok ()), .op .connect (.ok 2), .op (.begin 2) (.ok ()),
    .op (.sql 2 (.taskList .running none)) (.ok []), .op (.sql 2 .nodeListEnabled) (.ok []),
    .op (.close 2) (.ok ()), .call (.listFree (some ["debian"])) [],
    .call (.trackerAdd 1) true, .op .lockAcquire (.ok ()), .op .connect (.ok 3),
    .op (.begin 3) (.ok ()), .op (.sql 3 .nodeListAll) (.ok [machine]),
    .call (.slotsTaken "upcloud") 0]

/-- The transaction is cancelled. -/
def after : Trace sig :=
  [.op (.commit 3) (.error .cancelled), .op (.rollback 3) (.ok ()), .call (.savedClear 3) (),
    .op (.close 3) (.ok ()), .call .lockRelease (), .call (.trackerDiscard 1) ()]

theorem finishes_allocateTask : Finishes (allocateTask cfg 1)
    (before ++ .op (.sql 3 (.nodeInsert { cloud := some "upcloud", enabled := false }))
      (.ok tmp) :: after) (.error .cancelled) :=
  ⟨_, _, rfl, _, _, rfl, _, _, rfl, _, _, rfl, _, _, rfl, _, _, rfl, _, _, rfl, _, _, rfl, _, _,
    rfl, _, _, rfl, _, _, rfl, _, _, rfl, _, _, rfl, _, _, rfl, _, _, rfl, _, _, rfl, _, _, rfl, _,
    _, rfl, _, _, rfl, _, _, rfl, _, _, rfl, _, _, rfl, _, _, rfl, rfl, rfl⟩

theorem cloudsParsed : cfg.CloudsParsed where
  nodup := by decide
  named := by decide

end BestProviders

/-- The first of the two with room is chosen. The one with the highest priority is
full, and the other of the two comes later. -/
theorem bestProviderAsked_full : ∃ engine provider,
    Offered BestProviders.cfg 1 engine BestProviders.before ∧
      ({ cloud := some "upcloud", enabled := false } : NewNode) =
        { cloud := some provider, enabled := false } ∧
      Chosen BestProviders.cfg engine.platforms 3 provider BestProviders.before ∧
        ∀ a ∈ BestProviders.after, Asks provider a :=
  bestProviderAsked BestProviders.cloudsParsed BestProviders.finishes_allocateTask

end Yascheduler
