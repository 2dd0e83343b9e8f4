import Yascheduler.Application.Footprints
import Yascheduler.Application.Rules

/-!
# The protocol of a reservation

A daemon reserves capacity for a cloud node by inserting a placeholder row.
It counts the rows of each provider, picks a provider with room for one more
and inserts the row, all under the allocation lock and in one transaction;
the lock is given back after the transaction has ended. Outside of this, rows
with a cloud are only updated, by the coroutine that has inserted them, and
keep their cloud.

## What is counted, and when

The number of nodes of a provider is read in one statement and used in another.
In between it may become smaller, when a node is removed, but never larger: that
takes the allocation lock, and whoever has counted is holding it. So what a
coroutine knows after its count is an upper bound, and this is what the local
state keeps – the nodes as they were read, for as long as the transaction is
open that has read them.

A coroutine also knows which rows it has inserted itself, with which provider.
It is this that lets it update a row later without the lock: the update of a
row of its own changes no count.
-/

namespace Yascheduler

open Store Async Footprint

/-! ## Counting nodes and selecting a provider

The selection is among the providers that can serve the engine and have room.
What a reservation needs of it is only that there is room for one more at the
provider it returns. The counts come from the rows that were listed, and a row
that reserves a place is counted like any other. -/

/-- The number of nodes of a provider. -/
def nodesOf (provider : String) (nodes : List Node) : Nat :=
  nodes.countP (·.cloud = some provider)

/-- There is room for one more node of the provider. -/
def Settings.Room (cfg : Settings) (nodes : List Node) (provider : String) : Prop :=
  ∀ c ∈ cfg.clouds, c.name = provider → (nodesOf provider nodes : Int) < c.maxNodes

/-- What `parse_clouds` returns: every provider at most once, under its
prefix. -/
structure Settings.CloudsParsed (cfg : Settings) : Prop where
  nodup : (cfg.clouds.map (·.name)).Nodup
  named : ∀ c ∈ cfg.clouds, c.name ≠ ""

/-- **The counts are those of the nodes.** The code counts by a loop over the rows,
with a dictionary. -/
theorem get_countNodesByCloud {provider : String} (h : provider ≠ "") (nodes : List Node) :
    ((countNodesByCloud nodes).get provider).getD 0 = nodesOf provider nodes := by
  have hfold : ∀ (nodes : List Node) (counts : Dict String Nat),
      ((nodes.foldl (fun counts n =>
        if n.hasCloud then
          let cloud := n.cloud.getD ""
          counts.set cloud ((counts.get cloud).getD 0 + 1)
        else counts) counts).get provider).getD 0 =
          (counts.get provider).getD 0 + nodesOf provider nodes := by
    intro nodes
    induction nodes with
    | nil => intro counts; rfl
    | cons n nodes ih =>
      intro counts
      rw [List.foldl_cons, ih]
      unfold nodesOf
      rw [List.countP_cons]
      cases hn : n.cloud with
      | none => simp [NewNode.hasCloud, hn]
      | some cloud =>
        by_cases hc : cloud = provider
        · subst hc
          simp [NewNode.hasCloud, hn, h]
          omega
        · by_cases he : cloud = ""
          · simp [NewNode.hasCloud, hn, he, Ne.symm h]
          · simp [NewNode.hasCloud, hn, he, hc, Ne.symm hc]
  unfold countNodesByCloud
  rw [hfold]
  simp

namespace Settings

variable {cfg : Settings}

/-- An adapter is found under its own name. -/
theorem adapters_name {a : String × String} (h : a ∈ cfg.adapters) : a.1 = a.2 := by
  have hfold : ∀ (clouds : List CloudConfig) (d : Dict String String),
      (∀ a ∈ d, a.1 = a.2) →
      ∀ a ∈ clouds.foldl (fun d c => Dict.set d c.name c.name) d, a.1 = a.2 := by
    intro clouds
    induction clouds with
    | nil => exact fun d hd => hd
    | cons c clouds ih =>
      refine fun d hd => ih _ fun a ha => ?_
      rcases Dict.mem_set ha with rfl | ha
      · rfl
      · exact hd a ha
  exact hfold _ [] (fun _ h => nomatch h) a h

/-- A configuration is found under its own name. -/
theorem configs_name {provider : String} {c : CloudConfig}
    (h : cfg.configs.get provider = some c) : c ∈ cfg.clouds ∧ c.name = provider := by
  have hfold : ∀ (clouds : List CloudConfig) (d : Dict String CloudConfig),
      (clouds.foldl (fun d c => Dict.set d c.name c) d).get provider = some c →
      c ∈ clouds ∧ c.name = provider ∨ d.get provider = some c := by
    intro clouds
    induction clouds with
    | nil => exact fun d hd => .inr hd
    | cons c' clouds ih =>
      intro d hd
      rcases ih _ hd with ⟨hc, hn⟩ | hset
      · exact .inl ⟨List.mem_cons_of_mem c' hc, hn⟩
      · rw [Dict.get_set] at hset
        split at hset
        · rename_i hp
          cases hset
          exact .inl ⟨List.mem_cons_self, hp.symm⟩
        · exact .inr hset
  rcases hfold _ [] h with ⟨hc, hn⟩ | hnil
  · exact ⟨List.mem_of_mem_filter hc, hn⟩
  · cases hnil

/-- **A provider that is selected has room for one more node.** It was not left out,
and it has a configuration under its own name with the limit in it. -/
theorem selectProviderPure_room (hcfg : cfg.CloudsParsed) {platforms : List String}
    {nodes : List Node} {provider : String}
    (h : cfg.selectProviderPure platforms (countNodesByCloud nodes) = some provider) :
    cfg.Room nodes provider := by
  obtain ⟨a, ha, rfl⟩ := Option.map_eq_some_iff.mp h
  have hmem := (List.perm_insertionSort _ _).mem_iff.mp (List.mem_of_mem_head? ha)
  obtain ⟨e, he, hsuitable⟩ := List.mem_filterMap.mp hmem
  rw [adapters_name he] at hsuitable
  split at hsuitable
  · cases hsuitable
  · rename_i config hconfig
    obtain ⟨hc, hn⟩ := configs_name hconfig
    split at hsuitable
    · cases hsuitable
    · rename_i hroom
      split at hsuitable
      · cases hsuitable
        rw [get_countNodesByCloud (hn ▸ hcfg.named config hc)] at hroom
        intro c' hc' hn'
        rw [List.inj_on_of_nodup_map hcfg.nodup hc' hc (hn'.trans hn.symm)]
        exact Int.not_le.mp hroom
      · cases hsuitable

end Settings

/-! ## Local states

The phases are the places between which another coroutine may run: before the
rows are listed, between the list and the insertion, and between the insertion
and the COMMIT. All but the first are under the lock, and it is the lock, and
not the transaction, that keeps others from inserting. -/

/-- How far a reservation has come. The number is that of the connection that it is
made on. -/
inductive ReservePhase where
  /-- the allocation lock is not held -/
  | idle
  | locked
  /-- a connection is opened, and nothing is written on it -/
  | opened (c : Nat)
  /-- the nodes are listed -/
  | counted (c : Nat) (nodes : List Node)
  /-- the placeholder row is inserted -/
  | inserted (c : Nat) (provider : String)

/-- The local state of a coroutine that reserves capacity. The rows it has inserted
are remembered for good, because it may update them later. -/
structure ReserveState where
  phase : ReservePhase := .idle
  /-- the connections on which a row with a cloud was inserted -/
  inserts : List Nat := []
  /-- the rows inserted so far, with their cloud -/
  own : List (NodeId × Option String) := []

namespace ReserveState

/-- A connection is opened under the lock. -/
def opened (l : ReserveState) (c : Nat) : ReserveState :=
  match l.phase with
  | .locked => { l with phase := .opened c }
  | _ => l

/-- The nodes are listed under the lock. -/
def counted (l : ReserveState) (c : Nat) (nodes : List Node) : ReserveState :=
  match l.phase with
  | .opened c' => if c' = c then { l with phase := .counted c nodes } else l
  | _ => l

/-- A row is inserted, as far as the coroutine can tell. -/
def inserted (l : ReserveState) (c : Nat) (row : NewNode) (r : Except Exc Node) :
    ReserveState where
  phase := match row.cloud, r with
    | none, _ => l.phase
    | some provider, .ok _ => .inserted c provider
    | some _, .error _ => .locked
  inserts := if row.cloud.isSome then c :: l.inserts else l.inserts
  own := match r with
    | .ok node => (node.nodeId, row.cloud) :: l.own
    | .error _ => l.own

/-- The reservation is over, but for the lock. -/
def ended (l : ReserveState) : ReserveState :=
  match l.phase with
  | .inserted _ _ => { l with phase := .locked }
  | _ => l

/-- COMMIT has ended. -/
def committed (l : ReserveState) (c : Nat) : ReserveState :=
  match l.phase with
  | .inserted c' _ => if c' = c then { l with phase := .locked } else l
  | _ => l

/-- **What an event does to the local state.** -/
def step : Event sig → ReserveState → ReserveState
  | .performed .lockAcquire _ (.ok _), l => { l with phase := .locked }
  | .interrupted .lockAcquire, l | .call .lockRelease _, l => { l with phase := .idle }
  | .performed .connect _ (.ok c), l => l.opened c
  | .performed (.sql c .nodeListAll) _ (.ok nodes), l => l.counted c nodes
  | .performed (.sql c (.nodeInsert row)) _ r, l => l.inserted c row r
  | .interrupted (.sql _ (.nodeInsert _)), l => l.ended
  | .performed (.commit c) _ _, l => l.committed c
  | _, l => l

/-! ## The protocol

A row with a cloud may be inserted under the lock, after a count in the same
transaction, and while there is room by this count. A row without one is not
counted, and may be inserted whenever the coroutine is not in the middle of a
reservation; this is what `yasetnode` does. -/

/-- When a row may be inserted: one with a cloud only under the lock, while
there is room. -/
def MayInsert (cfg : Settings) (l : ReserveState) (c : Nat) (row : NewNode) : Prop :=
  match row.cloud with
  | none => l.phase = .idle
  | some provider => c ∉ l.inserts ∧
      ∃ nodes, l.phase = .counted c nodes ∧ cfg.Room nodes provider

/-- When an operation may be awaited. -/
def awaitPre (cfg : Settings) (l : ReserveState) : Op → Prop
  | .lockAcquire => l.phase = .idle
  | .sql c (.nodeInsert row) => l.MayInsert cfg c row
  | .sql _ (.nodeUpdate node) => l.phase = .idle ∧ (node.nodeId, node.cloud) ∈ l.own
  | .sql _ (.nodeDisable _) | .sql _ (.nodeRemove _) => l.phase = .idle
  | .commit c => c ∈ l.inserts → ∃ provider, l.phase = .inserted c provider
  | _ => True

/-- When a call may be made. -/
def callPre (l : ReserveState) : Call → Prop
  | .lockRelease => l.phase ≠ .idle
  | _ => True

/-- What may come back. -/
def opRes (l : ReserveState) : (o : Op) → Except Exc o.Res → Prop
  | .connect, r => ∀ c, r = .ok c → c ∉ l.inserts
  | .sql _ (.nodeInsert row), r => ∀ node, r = .ok node → node.cloud = row.cloud
  | _, _ => True

end ReserveState

open ReserveState in
/-- **The protocol of a reservation.** It demands that the lock is given back in the
end. -/
def reserveProtocol (cfg : Settings) : Protocol sig ReserveState where
  init := {}
  step := ReserveState.step
  callPre c l := l.callPre c
  awaitPre o l := l.awaitPre cfg o
  opRes o l _ r := l.opRes o r

/-! ## Programs that reserve nothing

A coroutine that does not hold the lock has no count to keep, and nothing it
does changes one of its own. Removing nodes is passive as well: the count of
others may become smaller, and theirs is an upper bound. -/

/-- The effects that are no part of a reservation. -/
def Effect.passive : Effect → Prop
  | .insertNode | .updateNode | .lock => False
  | _ => True

namespace ReserveState

variable {cfg : Settings} {l : ReserveState} {K : Set Effect} {α : Type}

theorem opened_idle (h : l.phase = .idle) (c : Nat) : l.opened c = l := by
  unfold opened
  rw [h]

theorem counted_idle (h : l.phase = .idle) (c : Nat) (nodes : List Node) :
    l.counted c nodes = l := by
  unfold counted
  rw [h]

theorem committed_idle (h : l.phase = .idle) (c : Nat) : l.committed c = l := by
  unfold committed
  rw [h]

theorem ended_idle (h : l.phase = .idle) : l.ended = l := by
  unfold ended
  rw [h]

/-- **A program with passive effects only** takes no part in a reservation. It may
run while the lock is held by somebody else, or by nobody. -/
theorem ignored (hK : ∀ e ∈ K, e.passive) (hl : l.phase = .idle) :
    (scope K).Ignored (reserveProtocol cfg) {c | c ∈ l.inserts} l where
  rest := trivial
  call c hcall := by
    have hk : ∀ e, c.effect = some e → e.passive := fun e he => hK e (hcall e he)
    cases c with
    | lockRelease => exact (hk _ rfl).elim
    | _ => exact ⟨trivial, fun _ _ => rfl⟩
  op o ho huse := by
    have hk : ∀ e, o.effect = some e → e.passive := fun e he => hK e (ho e he)
    cases o with
    | lockAcquire => exact (hk _ rfl).elim
    | connect =>
      refine ⟨trivial, fun ch r _ => ?_, rfl⟩
      cases r with
      | ok c => exact opened_idle hl c
      | error e => rfl
    | sql c st =>
      cases st with
      | nodeInsert row => exact (hk _ rfl).elim
      | nodeUpdate node => exact (hk _ rfl).elim
      | nodeDisable n => exact ⟨hl, fun _ _ _ => rfl, rfl⟩
      | nodeRemove n => exact ⟨hl, fun _ _ _ => rfl, rfl⟩
      | nodeListAll =>
        refine ⟨trivial, fun ch r _ => ?_, rfl⟩
        cases r with
        | ok nodes => exact counted_idle hl c nodes
        | error e => rfl
      | _ => exact ⟨trivial, fun _ _ _ => rfl, rfl⟩
    | commit c =>
      exact ⟨fun h => absurd h (huse c rfl), fun _ _ _ => committed_idle hl c, rfl⟩
    | _ => exact ⟨trivial, fun _ _ _ => rfl, rfl⟩
  opens o ch a c ho hr hopen := by
    cases o with
    | connect =>
      cases hopen
      exact hr _ rfl
    | _ => cases hopen

/-- A program with passive effects only keeps the lock free. -/
theorem passive_keeps {x : Prog α} (hK : ∀ e ∈ K, e.passive)
    (hx : (scope K).Inside ∅ x) :
    Keeps (reserveProtocol cfg).logic (fun l => l.phase = .idle) x := by
  intro l hl
  refine wp_mono ((ignored hK hl).wp_closed hx) ?_
  rintro r l' rfl
  exact hl

/-! ## The reservation

The transaction and the lock are nested the way they must be: the lock is taken
first and given back last, after the COMMIT or the ROLLBACK has ended. If it
were given back inside the transaction, another coroutine could count before
the new row is visible to it.

A COMMIT whose answer is an error may have taken effect, and the row is then in
the table although the coroutine goes on as if it were not. This does no harm
to the others, since they count what is there. -/

/-- An operation that leaves every local state alone. -/
theorem same_op {o : Op} (hpre : l.awaitPre cfg o)
    (hdone : ∀ ch r, step (.performed o ch r) l = l) (hint : step (.interrupted o) l = l) :
    Keeps (reserveProtocol cfg).logic (· = l) (await o) := by
  rintro l' rfl
  exact Protocol.wp_op.mpr ⟨⟨hpre, trivial⟩, fun ch r _ => hdone ch r,
    fun ch r _ => (congrArg (step (.interrupted o)) (hdone ch r)).trans hint, hint⟩

/-- A call that leaves every local state alone. -/
theorem same_sync {c : Call} (hpre : l.callPre c) (hstep : ∀ r, step (.call c r) l = l) :
    Keeps (reserveProtocol cfg).logic (· = l) (ask c) := by
  rintro l' rfl
  exact Protocol.wp_sync.mpr ⟨hpre, fun r _ => hstep r⟩

/-- Leaving a unit of work is no part of a reservation. -/
theorem exit_same (c : Nat) (e : Option Exc) :
    Keeps (reserveProtocol cfg).logic (· = l) (Uow.exit c e) := by
  have hclose : Keeps (reserveProtocol cfg).logic (· = l) (suppress (await (.close c))) :=
    keeps_suppress (same_op trivial (fun _ _ => rfl) rfl)
  unfold Uow.exit
  cases e with
  | none => exact hclose
  | some e =>
    exact keeps_bind (keeps_suppress (keeps_bind
      (same_op trivial (fun _ _ => rfl) rfl) fun _ => same_sync trivial fun _ => rfl))
      fun _ => hclose

/-- Nor is the delivery of events. -/
theorem publish_same (settings : Settings) (c : Nat) :
    Keeps (reserveProtocol cfg).logic (· = l) (suppress (Uow.publishEvents settings c)) := by
  have hdispatch : ∀ es, Keeps (reserveProtocol cfg).logic (· = l)
      (Uow.dispatch settings es) := by
    intro es
    induction es with
    | nil => exact keeps_ret _
    | cons e es ih =>
      unfold Uow.dispatch
      split
      · exact keeps_bind (keeps_suppress (same_op trivial (fun _ _ => rfl) rfl)) fun _ => ih
      · exact ih
  exact keeps_suppress (keeps_bind (same_sync trivial fun _ => rfl) fun tasks =>
    keeps_bind (hdispatch _) fun _ => same_sync trivial fun _ => rfl)

/-- The lock is held, and the rows inserted so far include these. -/
def Holding (own : List (NodeId × Option String)) (l : ReserveState) : Prop :=
  l.phase ≠ .idle ∧ own ⊆ l.own

/-- Opening a unit of work under the lock. -/
theorem enter_locked (hl : l.phase = .locked) :
    wp (reserveProtocol cfg).logic Uow.enter (fun r l' => Holding l.own l' ∧
      ∀ c, r = .ok c → l' = { l with phase := .opened c } ∧ c ∉ l.inserts) l := by
  have hopened : ∀ c, l.opened c = { l with phase := .opened c } := by
    intro c
    unfold opened
    rw [hl]
  have hlocked : Holding l.own l := ⟨by rw [hl]; exact nofun, fun _ h => h⟩
  have hopen : ∀ c, Holding l.own { l with phase := .opened c } :=
    fun c => ⟨nofun, fun _ h => h⟩
  unfold Uow.enter
  rw [Co.bind_eq, wp_bind]
  refine Protocol.wp_op.mpr ⟨⟨trivial, trivial⟩, fun ch r hr => ?_, fun ch r hr => ?_,
    hlocked, nofun⟩
  · cases r with
    | error e => exact ⟨hlocked, nofun⟩
    | ok c =>
      show wp _ (Co.tryCatch _ _) _ (l.opened c)
      have hbegin : Keeps (reserveProtocol cfg).logic (· = { l with phase := .opened c })
          (await (.begin c)) := same_op trivial (fun _ _ => rfl) rfl
      have hclose : Keeps (reserveProtocol cfg).logic (· = { l with phase := .opened c })
          (suppress (await (.close c))) :=
        keeps_suppress (same_op trivial (fun _ _ => rfl) rfl)
      rw [hopened, wp_tryCatch, Co.bind_eq, wp_bind]
      refine hbegin.wp rfl ?_
      rintro (e | u) l' rfl
      · show wp _ (Co.bind (suppress (await (.close c))) fun _ => raise e) _ _
        rw [wp_bind]
        refine hclose.wp rfl ?_
        rintro (_ | _) l' rfl <;> exact ⟨hopen c, nofun⟩
      · refine ⟨hopen c, ?_⟩
        rintro c' ⟨⟩
        exact ⟨rfl, hr c rfl⟩
  · cases r with
    | error e => exact ⟨hlocked, nofun⟩
    | ok c =>
      refine ⟨?_, nofun⟩
      show Holding l.own (l.opened c)
      rw [hopened]
      exact hopen c

/-- Selecting a provider changes nothing, and selects one that has room. -/
theorem selectProvider_same (hcfg : cfg.CloudsParsed) (platforms : List String)
    (nodes : List Node) : wp (reserveProtocol cfg).logic
      (selectProvider cfg platforms (countNodesByCloud nodes))
      (fun r l' => l' = l ∧ ∀ provider, r = .ok (some provider) → cfg.Room nodes provider)
      l := by
  unfold selectProvider
  split
  · exact ⟨rfl, nofun⟩
  · rename_i adapter hadapter
    rw [Co.bind_eq, wp_bind]
    refine Protocol.wp_sync.mpr ⟨trivial, fun taken _ => ⟨rfl, ?_⟩⟩
    intro provider hprovider
    have hname := Except.ok.inj hprovider
    split at hname
    · cases hname
    · cases hname
      exact Settings.selectProviderPure_room hcfg hadapter

/-- COMMIT ends the reservation. -/
theorem commit_inserted {c : Nat} {provider : String} (settings : Settings)
    (hl : l.phase = .inserted c provider) :
    wp (reserveProtocol cfg).logic (Uow.commit settings c) (fun _ => Holding l.own) l := by
  have hcommitted : Holding l.own (l.committed c) := by
    unfold committed
    rw [hl]
    dsimp only
    rw [if_pos rfl]
    exact ⟨nofun, fun _ h => h⟩
  have hinserted : Holding l.own l := ⟨by rw [hl]; exact nofun, fun _ h => h⟩
  unfold Uow.commit
  rw [Co.bind_eq, wp_bind]
  refine Protocol.wp_op.mpr ⟨⟨fun _ => ⟨provider, hl⟩, trivial⟩, fun ch r _ => ?_,
    fun ch r _ => hcommitted, hinserted⟩
  cases r with
  | error e => exact hcommitted
  | ok u =>
    refine (publish_same settings c).wp rfl ?_
    rintro r l' rfl
    exact hcommitted

/-- The row that a selection reports is one of these. -/
def Reports (own : List (NodeId × Option String)) (r : Except Exc (Option (String × Node))) :
    Prop :=
  ∀ name tmp, r = .ok (some (name, tmp)) → (tmp.nodeId, some name) ∈ own

theorem reports_error {own : List (NodeId × Option String)} {e : Exc} :
    Reports own (.error e) := by
  rintro _ _ ⟨⟩

theorem reports_none {own : List (NodeId × Option String)} : Reports own (.ok none) := by
  rintro _ _ ⟨⟩

/-- **The transaction of a reservation.** Its count, its selection and its row are on
one connection. -/
theorem reserve_locked (hcfg : cfg.CloudsParsed) (platforms : List String) {c : Nat}
    (hl : l.phase = .opened c) (hc : c ∉ l.inserts) :
    wp (reserveProtocol cfg).logic (do
        let nodes ← Nodes.listAll c
        match ← selectProvider cfg platforms (countNodesByCloud nodes) with
        | none => return none
        | some name =>
          let tmp ← Nodes.insert c { cloud := some name, enabled := false }
          Uow.commit cfg c
          return some (name, tmp))
      (fun r l' => l'.phase ≠ .idle ∧ Reports l'.own r) l := by
  have hne : l.phase ≠ .idle := by
    rw [hl]
    exact nofun
  have hcounted : ∀ nodes, l.counted c nodes = { l with phase := .counted c nodes } := by
    intro nodes
    unfold counted
    rw [hl]
    exact if_pos rfl
  rw [Co.bind_eq, wp_bind]
  refine Protocol.wp_op.mpr ⟨⟨trivial, trivial⟩, fun ch r _ => ?_, fun ch r _ => ?_,
    hne, reports_error⟩
  · cases r with
    | error e => exact ⟨hne, reports_error⟩
    | ok nodes =>
      show wp _ (Co.bind (selectProvider cfg platforms (countNodesByCloud nodes)) _) _
        (l.counted c nodes)
      rw [hcounted, wp_bind]
      refine wp_mono (selectProvider_same hcfg platforms nodes) ?_
      rintro (e | _ | name) l' ⟨rfl, hroom⟩
      · exact ⟨nofun, reports_error⟩
      · exact ⟨nofun, reports_none⟩
      · show wp _ (Co.bind (Nodes.insert c _) _) _ _
        rw [wp_bind]
        refine Protocol.wp_op.mpr ⟨⟨⟨hc, nodes, rfl, hroom name rfl⟩, trivial⟩,
          fun ch r _ => ?_, fun ch r _ => ?_, nofun, reports_error⟩
        · cases r with
          | error e => exact ⟨nofun, reports_error⟩
          | ok tmp =>
            rw [onOk_ok, Co.bind_eq, wp_bind]
            refine wp_mono (commit_inserted cfg rfl) ?_
            rintro (e | u) l' ⟨hphase, hown⟩
            · exact ⟨hphase, reports_error⟩
            · refine ⟨hphase, ?_⟩
              rintro name' tmp' ⟨⟩
              exact hown List.mem_cons_self
        · cases r <;> exact ⟨nofun, reports_error⟩
  · cases r with
    | error e => exact ⟨hne, reports_error⟩
    | ok nodes =>
      refine ⟨?_, reports_error⟩
      show (l.counted c nodes).phase ≠ .idle
      rw [hcounted]
      exact nofun

/-- **A reservation** takes the lock and gives it back. It does so on every way out,
cancellations included. -/
theorem selectAndInsertTmp_spec (hcfg : cfg.CloudsParsed) (engine : Engine)
    (hl : l.phase = .idle) :
    wp (reserveProtocol cfg).logic (selectAndInsertTmp cfg engine)
      (fun r l' => l'.phase = .idle ∧ Reports l'.own r) l := by
  unfold selectAndInsertTmp
  rw [wp_asyncWith]
  refine Protocol.wp_op.mpr ⟨⟨hl, trivial⟩, fun ch r _ => ?_, fun ch r _ => ⟨rfl, reports_error⟩,
    rfl, reports_error⟩
  cases r with
  | error e => exact ⟨hl, reports_error⟩
  | ok u =>
    -- whatever happens under the lock, it is given back
    have hbody : wp (reserveProtocol cfg).logic (Uow.within fun c => do
        let nodes ← Nodes.listAll c
        match ← selectProvider cfg engine.platforms (countNodesByCloud nodes) with
        | none => return none
        | some name =>
          let tmp ← Nodes.insert c { cloud := some name, enabled := false }
          Uow.commit cfg c
          return some (name, tmp))
        (fun r l' => l'.phase ≠ .idle ∧ Reports l'.own r)
        { l with phase := .locked } := by
      unfold Uow.within
      rw [wp_asyncWith]
      refine wp_mono (enter_locked rfl) ?_
      rintro (e | c) l₁ ⟨⟨hphase, -⟩, hopen⟩
      · exact ⟨hphase, reports_error⟩
      · obtain ⟨rfl, hc⟩ := hopen c rfl
        refine wp_mono (reserve_locked hcfg engine.platforms rfl hc) ?_
        rintro r l₂ ⟨hphase, hown⟩
        refine (exit_same c _).wp rfl ?_
        rintro (e | u) l₃ rfl
        · exact ⟨hphase, reports_error⟩
        · exact ⟨hphase, hown⟩
    refine wp_mono hbody ?_
    rintro r l' ⟨hphase, hown⟩
    exact Protocol.wp_sync.mpr ⟨hphase, fun _ _ => ⟨rfl, hown⟩⟩

/-! ## The row of a node from the cloud

Once the VM is there, its address is written to the row that was reserved for
it. The update does not change the provider, so no count changes; this is what
makes it safe without the lock. -/

/-- **A provisioned node** is the row it was provisioned for, and keeps its
provider. -/
theorem cloudsAllocate_returns (cfg : Settings) (provider : String) (node : Node) :
    Returns (fun n => n.nodeId = node.nodeId ∧ n.cloud = some provider)
      (cloudsAllocate cfg provider node) := by
  have hsetup : ∀ adapter (vm : Node), Returns
      (fun n => n.nodeId = vm.nodeId ∧ n.cloud = vm.cloud) (setupVm cfg vm adapter) := by
    intro adapter vm
    refine returns_then fun s => ?_
    have hdone : Returns (fun n => n.nodeId = vm.nodeId ∧ n.cloud = vm.cloud) (do
        exceptException (await (.setupNode s)) fun e =>
          raise (.cloudSetup ("Setup node " ++ vm.hostname ++ " failed: " ++ e.str))
        return { vm with enabled := true } : Prog Node) :=
      returns_then fun _ => ⟨rfl, rfl⟩
    split
    · refine returns_then fun code => ?_
      split
      · exact returns_then fun _ => hdone
      · exact hdone
    · exact hdone
  have hteardown : ∀ adapter (vm : Node) dto e {Q}, Returns Q (teardownVm adapter vm dto e) := by
    intro adapter vm dto e Q
    refine returns_then fun _ => returns_then fun _ => ?_
    split <;> trivial
  unfold cloudsAllocate
  split
  · trivial
  · trivial
  · rename_i adapter _ hadapter _
    obtain rfl : provider = adapter := Settings.adapters_name (Dict.mem_of_get hadapter)
    exact returns_asyncWith fun _ => returns_then fun dto =>
      returns_tryCatch (hsetup _ (node.withVm dto provider)) fun e => hteardown _ _ _ _

/-- **Updating a row it has inserted** is no part of a reservation. The provider is
the one it was inserted with. -/
theorem update_same (settings : Settings) {node : Node} (hl : l.phase = .idle)
    (hown : (node.nodeId, node.cloud) ∈ l.own) :
    wp (reserveProtocol cfg).logic
      (Uow.within fun c => do Nodes.update c node; Uow.commit settings c)
      (fun _ l' => l' = l) l := by
  have hign : (scope ∅).Ignored (reserveProtocol cfg) {c | c ∈ l.inserts} l :=
    ignored (fun _ h => h.elim) hl
  refine ignored_within hign fun c hc => ?_
  have hcommit : (scope ∅).Inside {c} (Uow.commit settings c) :=
    inside_commit settings (Set.mem_singleton c)
  have hupdate : Keeps (reserveProtocol cfg).logic (· = l) (Nodes.update c node) :=
    keeps_bind (same_op ⟨hl, hown⟩ (fun _ _ => rfl) rfl) fun found => by
      cases found with
      | true => exact keeps_ret _
      | false => exact keeps_throw _
  rw [Co.bind_eq, wp_bind]
  refine hupdate.wp rfl ?_
  rintro (e | u) l' rfl
  · rfl
  · exact hign.wp hcommit fun n hn => hn ▸ hc

/-- **The cloud section** gives the lock back, and updates only the row it has
reserved. -/
theorem cloudSection_keeps (hcfg : cfg.CloudsParsed) (engine : Engine) (task : TodoTask) :
    Keeps (reserveProtocol cfg).logic (fun l => l.phase = .idle)
      (cloudSection cfg engine task) := by
  have hpassive : ∀ {α : Type} {x : Prog α} {l : ReserveState}, l.phase = .idle →
      (scope {.removeNode, .deleteVm, .dropSession}).Inside ∅ x →
      wp (reserveProtocol cfg).logic x (fun _ l' => l' = l) l := by
    intro α x l hl hx
    refine (ignored ?_ hl).wp_closed hx
    rintro e (rfl | rfl | rfl) <;> trivial
  have hcleanup : ∀ (n : NodeId), (scope {.removeNode, .deleteVm, .dropSession}).Inside ∅
      (cleanupTmpNode cfg n) := fun n => inside_cleanupTmpNode cfg n (by simp)
  intro l hl
  unfold cloudSection
  rw [Co.bind_eq, wp_bind, wp_attempt]
  refine wp_mono (selectAndInsertTmp_spec hcfg engine hl) ?_
  rintro (e | _ | ⟨name, tmp⟩) l₁ ⟨hl₁, hown⟩
  · exact hl₁
  · exact hl₁
  · have htmp := hown name tmp rfl
    rw [onOk_ok]
    show wp _ (Co.bind (ask (.trackerSetNode task.taskId tmp.nodeId)) _) _ l₁
    rw [wp_bind]
    refine Protocol.wp_sync.mpr ⟨trivial, fun _ _ => ?_⟩
    show wp _ (Co.bind (Co.attempt (Co.bind (allocateCloudNode cfg name tmp) fun node =>
      persistNodeWithCleanup cfg node tmp.nodeId)) _) _ l₁
    rw [wp_bind, wp_attempt, wp_bind]
    have hallocate : wp (reserveProtocol cfg).logic (allocateCloudNode cfg name tmp)
        (fun r l' => l' = l₁ ∧ ∀ node, r = .ok node →
          node.nodeId = tmp.nodeId ∧ node.cloud = some name) l₁ := by
      have hreturns : Returns (fun n => n.nodeId = tmp.nodeId ∧ n.cloud = some name)
          (allocateCloudNode cfg name tmp) :=
        returns_tryCatch (cloudsAllocate_returns cfg name tmp) fun e => by
          split
          · exact returns_then fun _ => trivial
          · trivial
      exact hreturns.wp (hpassive hl₁ (inside_exceptException
        (inside_cloudsAllocate cfg name tmp (by simp) (by simp)) fun _ =>
          inside_bind (hcleanup _) fun _ => trivial))
    refine wp_mono hallocate ?_
    rintro (e | node) l₂ ⟨rfl, hnode⟩
    · exact hl₁
    · obtain ⟨hid, hcloud⟩ := hnode node rfl
      have hfailed : ∀ e, (scope {.removeNode, .deleteVm, .dropSession}).Inside ∅ (do
          exceptException (cloudsDeallocate cfg node) fun _ => pure ()
          cleanupTmpNode cfg tmp.nodeId
          raise e : Prog Unit) :=
        fun e => inside_bind (inside_exceptException
          (inside_cloudsDeallocate cfg node (by simp)) fun _ => trivial) fun _ =>
            inside_bind (hcleanup tmp.nodeId) fun _ => trivial
      rw [onOk_ok]
      unfold persistNodeWithCleanup
      rw [wp_tryCatch]
      refine wp_mono (update_same cfg hl₁ (by rw [hid, hcloud]; exact htmp)) ?_
      rintro (e | u) l₃ rfl
      · refine wp_mono (hpassive hl₁ (hfailed e)) ?_
        rintro (_ | _) _ rfl <;> exact hl₁
      · exact hl₁

/-! ## Every job obeys the protocol -/

theorem allocateCloud_keeps (hcfg : cfg.CloudsParsed) (engine : Engine) (task : TodoTask) :
    Keeps (reserveProtocol cfg).logic (fun l => l.phase = .idle)
      (allocateCloud cfg engine task) := by
  have hplain : ∀ {c : Call}, c.effect = none →
      Keeps (reserveProtocol cfg).logic (fun l => l.phase = .idle) (ask c) :=
    fun hc => passive_keeps (fun _ h => h.elim) (inside_plainAsk (K := ∅) hc)
  have hcleanup : ∀ n, Keeps (reserveProtocol cfg).logic (fun l => l.phase = .idle)
      (cleanupTmpNode cfg n) := fun n => by
    refine passive_keeps (K := {.removeNode}) ?_ (inside_cleanupTmpNode cfg n (by simp))
    rintro e rfl
    trivial
  refine keeps_bind (hplain rfl) fun added => ?_
  have hend : ∀ r : Except Exc Unit, Keeps (reserveProtocol cfg).logic
      (fun l => l.phase = .idle) (do Co.ofExcept (S := sig) r; return false : Prog Bool) :=
    fun r => keeps_bind (keeps_ofExcept (S := sig) r) fun _ => keeps_ret _
  cases added with
  | false => exact keeps_ret _
  | true =>
    refine keeps_bind (cloudSection_keeps hcfg engine task) fun out => ?_
    obtain ⟨r, allocated, tmp⟩ := out
    cases allocated with
    | true => exact hend r
    | false =>
      refine keeps_bind (hplain rfl) fun _ => ?_
      cases tmp with
      | none => exact hend r
      | some n => exact keeps_bind (hcleanup n) fun _ => hend r

theorem allocateTask_keeps (hcfg : cfg.CloudsParsed) (t : TaskId) :
    Keeps (reserveProtocol cfg).logic (fun l => l.phase = .idle) (allocateTask cfg t) := by
  let K : Set Effect := {.claim, .reject, .occupy, .release, .upload, .spawn, .startCheck}
  have hpassive : ∀ {α : Type} {x : Prog α}, (scope K).Inside ∅ x →
      Keeps (reserveProtocol cfg).logic (fun l => l.phase = .idle) x := by
    intro α x hx
    refine passive_keeps ?_ hx
    rintro e (rfl | rfl | rfl | rfl | rfl | rfl | rfl) <;> trivial
  refine keeps_bind (hpassive (inside_within fun c =>
    inside_getTodo (Set.mem_insert c ∅) t)) fun task => ?_
  cases task with
  | none => exact keeps_ret _
  | some task =>
    refine keeps_bind (hpassive (inside_validateEngine cfg task (by simp [K])))
      fun engine => ?_
    cases engine with
    | none => exact keeps_ret _
    | some engine =>
      refine keeps_bind (hpassive (inside_allocateFreeMachine cfg engine task (by simp [K])
        (by simp [K]) (by simp [K]) (by simp [K]) (by simp [K]) (by simp [K])))
        fun started => ?_
      cases started with
      | true => exact keeps_ret _
      | false =>
        show Keeps _ _ (if engine.platforms.isEmpty then pure false
          else allocateCloud cfg engine task)
        split
        · exact keeps_ret _
        · exact allocateCloud_keeps hcfg engine task

/-- The row that an insertion returns is one of these. -/
def Returned (own : List (NodeId × Option String)) (r : Except Exc Node) : Prop :=
  ∀ tmp, r = .ok tmp → (tmp.nodeId, tmp.cloud) ∈ own

theorem returned_error {own : List (NodeId × Option String)} {e : Exc} :
    Returned own (.error e) := by
  rintro _ ⟨⟩

/-- The row that `yasetnode` adds has no cloud. -/
theorem addNode_keeps (settings : Settings) (spec : HostSpec) (skipSetup : Bool) :
    Keeps (reserveProtocol cfg).logic (fun l => l.phase = .idle)
      (addNode settings spec skipSetup) := by
  have hpassive : ∀ {α : Type} {x : Prog α} {l : ReserveState}, l.phase = .idle →
      (scope {.removeNode, .dropSession}).Inside ∅ x →
      wp (reserveProtocol cfg).logic x (fun _ l' => l' = l) l := by
    intro α x l hl hx
    refine (ignored ?_ hl).wp_closed hx
    rintro e (rfl | rfl) <;> trivial
  intro l hl
  have hinsert : wp (reserveProtocol cfg).logic (Uow.within fun c => do
      let tmp ← Nodes.insert c (tmpNodeOf settings spec)
      Uow.commit settings c
      return tmp)
      (fun r l' => l'.phase = .idle ∧ Returned l'.own r) l := by
    unfold Uow.within
    rw [wp_asyncWith]
    refine wp_mono (ignored_enter (ignored (fun _ h => h.elim) hl :
      (scope ∅).Ignored (reserveProtocol cfg) {c | c ∈ l.inserts} l)) ?_
    rintro (e | c) l₁ ⟨rfl, hc⟩
    · exact ⟨hl, returned_error⟩
    · have hc : c ∉ l₁.inserts := hc c rfl
      have hexit : ∀ {r : Except Exc Node} {l' : ReserveState}, l'.phase = .idle →
          Returned l'.own r →
          wp (reserveProtocol cfg).logic (Uow.exit c (Co.errorOf (S := sig) r))
            (onOk (fun _ l' => l'.phase = .idle ∧ Returned l'.own r)
              fun r l' => l'.phase = .idle ∧ Returned l'.own r) l' := by
        intro r l' hl' hown
        refine (exit_same c _).wp rfl ?_
        rintro (e | u) l'' rfl
        · exact ⟨hl', returned_error⟩
        · exact ⟨hl', hown⟩
      have hended : ∀ {l : ReserveState}, l.phase = .idle → l.ended.phase = .idle :=
        fun h => (congrArg phase (ended_idle h)).trans h
      rw [onOk_ok, Co.bind_eq, wp_bind]
      refine Protocol.wp_op.mpr ⟨⟨hl, trivial⟩, fun ch r hr => ?_,
        fun ch r hr => ?_, hexit (hended hl) returned_error⟩
      · cases r with
        | error e => exact hexit hl returned_error
        | ok tmp =>
          have hidle : (l₁.inserted c (tmpNodeOf settings spec) (.ok tmp)).phase = .idle := hl
          have hign : (scope ∅).Ignored (reserveProtocol cfg) {c | c ∈ l₁.inserts}
              (l₁.inserted c (tmpNodeOf settings spec) (.ok tmp)) :=
            ignored (fun _ h => h.elim) hidle
          have hcommit : (scope ∅).Inside {c} (Uow.commit settings c) :=
            inside_commit settings (Set.mem_singleton c)
          rw [onOk_ok, Co.bind_eq, wp_bind]
          refine wp_mono (hign.wp hcommit fun n hn => hn ▸ hc) ?_
          rintro (e | u) l₂ rfl
          · exact hexit hl returned_error
          · refine hexit hl ?_
            rintro tmp' ⟨⟩
            rw [hr tmp rfl]
            exact List.mem_cons_self
      · refine hexit ?_ returned_error
        show (l₁.inserted c (tmpNodeOf settings spec) r).ended.phase = .idle
        exact hended (by cases r <;> exact hl)
  unfold addNode
  rw [Co.bind_eq, wp_bind]
  refine wp_mono hinsert ?_
  rintro (e | tmp) l₁ ⟨hl₁, hown⟩
  · exact hl₁
  · have htmp := hown tmp rfl
    have hupdate : wp (reserveProtocol cfg).logic (Uow.within fun c => do
        Nodes.update c { tmp with enabled := true }
        Uow.commit settings c) (fun _ l' => l' = l₁) l₁ := update_same settings hl₁ htmp
    have hrest : wp (reserveProtocol cfg).logic (do
        let s ← connectNewNode settings tmp
        if !skipSetup then
          await (.setupNode s)
        Uow.within fun c => do
          Nodes.update c { tmp with enabled := true }
          Uow.commit settings c) (fun _ l' => l' = l₁) l₁ := by
      rw [Co.bind_eq, wp_bind]
      refine wp_mono (hpassive hl₁ (inside_exceptException (inside_plainAwait rfl rfl)
        fun e => inside_bind (inside_suppress
          (inside_removeTransaction settings _ (by simp))) fun _ => trivial)) ?_
      rintro (e | s) l₂ rfl
      · rfl
      · cases skipSetup with
        | true => exact hupdate
        | false =>
          show wp _ (Co.bind (await (.setupNode s)) _) _ l₂
          rw [wp_bind]
          refine wp_mono (hpassive hl₁ (inside_plainAwait rfl rfl)) ?_
          rintro (e | u) l₃ rfl
          · rfl
          · exact hupdate
    rw [onOk_ok, wp_tryFinally]
    refine wp_mono hrest ?_
    rintro r l₂ rfl
    refine wp_mono (hpassive hl₁ (inside_disconnect _ (by simp))) ?_
    rintro (_ | _) l₃ rfl <;> exact hl₁

/-- **Every job obeys the protocol of a reservation.** Those that insert or update
nothing do so by their effects. -/
theorem program_runs (hcfg : cfg.CloudsParsed) (j : Job) :
    (reserveProtocol cfg).Runs (j.program cfg) (reserveProtocol cfg).init := by
  have hkeeps : Keeps (reserveProtocol cfg).logic (fun l => l.phase = .idle)
      (j.program cfg) := by
    have hquiet : (∀ e ∈ j.effects, e.passive) → Keeps (reserveProtocol cfg).logic
        (fun l => l.phase = .idle) (j.program cfg) :=
      fun h => passive_keeps h (inside_program cfg j)
    cases j with
    | allocateWorker =>
      have hget : Keeps (reserveProtocol cfg).logic (fun l => l.phase = .idle)
          (await (.queueGet .allocate)) :=
        passive_keeps (fun _ h => h.elim) (inside_plainAwait (K := ∅) rfl rfl)
      have hdone : ∀ id, Keeps (reserveProtocol cfg).logic (fun l => l.phase = .idle)
          (ask (.itemDone .allocate id)) :=
        fun id => passive_keeps (fun _ h => h.elim) (inside_plainAsk (K := ∅) rfl)
      exact keeps_bind hget fun task => keeps_tryFinally
        (keeps_exceptException (keeps_exceptException
          (keeps_bind (allocateTask_keeps hcfg task.taskId) fun _ => keeps_ret _)
          fun _ => keeps_ret _) fun _ => keeps_ret _) (hdone _)
    | addNode spec skipSetup => exact addNode_keeps cfg spec skipSetup
    | _ =>
      refine hquiet fun e he => ?_
      cases e <;> simp [Job.effects] at he <;> trivial
  exact hkeeps.wp rfl fun _ _ _ => ⟨trivial, trivial⟩

end ReserveState

end Yascheduler
