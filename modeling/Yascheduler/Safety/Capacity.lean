import Yascheduler.Application.NodeChanges
import Yascheduler.Application.Reservation
import Yascheduler.Safety.Booking
import Mathlib.Data.Finset.Card

/-!
# The capacity of the providers

The nodes of a provider are counted in one statement, a placeholder for one
more is inserted in another, and a third makes the placeholder a node, in a
transaction of its own. What keeps the count right in between is the
allocation lock: it is held from the count until the placeholder is committed,
and nothing outside of it adds a row to a provider – a row that is updated
keeps its provider, and is there to be updated only once it is committed or
by the transaction that has inserted it.

The lock is memory of a daemon, so this is about a database on which one
daemon allocates.

## What the proof is about

A bound on a number of rows is kept by showing who can make the number grow. In a
whole run that is only a commit of an inserted row, since a row that is not
committed is seen by nobody, and an update keeps the provider. So the invariant
speaks of the one coroutine that is about to commit one: as long as it holds the
lock, the nodes it has counted are at least those there are.

The condition is about processes and not about coroutines. Several workers of
one daemon may allocate at the same time, and so may command line tools, which
insert rows without a provider.
-/

namespace Yascheduler

open Store Async ReserveState

/-! ## The nodes of a provider

What must not exceed the capacity is the number of committed rows. The daemon
counts rows too, but what it counts are those that it sees, and some of them
may be gone when it inserts its own. The difference is to the safe side. -/

namespace Database

/-- The nodes of a provider: all rows with its name, whatever else they say. -/
def cloudNodes (db : Database) (provider : String) : Finset NodeId :=
  (db.nodeIds.filter fun n => (db.nodes.rows n).any (·.cloud = some provider)).toFinset

/-- No provider has more nodes than it may have. A row counts before its VM exists,
and until it is removed. -/
def WithinCapacity (db : Database) (cfg : Settings) : Prop :=
  ∀ c ∈ cfg.clouds, ((db.cloudNodes c.name).card : Int) ≤ c.maxNodes

/-- No transaction is open on the nodes, and identifiers that have not been
handed out are free. -/
structure NodesAtRest (db : Database) : Prop where
  unlocked : ∀ n, db.nodes.locks n = none
  fresh : ∀ n : NodeId, db.lastNode < n.value → db.nodes.rows n = none

/-- A value of a row: the committed one, or one that a transaction has written. A
count has to be safe whichever of the open transactions is committed. -/
def NodeVersion (db : Database) (n : NodeId) (row : NewNode) : Prop :=
  db.nodes.rows n = some row ∨ ∃ o, db.nodes.locks n = some (o, some row)

variable {db db' : Database} {provider : String}

/-- A node of a provider has a row with its name. -/
theorem mem_cloudNodes {n : NodeId} : n ∈ db.cloudNodes provider ↔
    n.value ≤ db.lastNode ∧ ∃ row, db.nodes.rows n = some row ∧ row.cloud = some provider := by
  unfold cloudNodes
  rw [List.mem_toFinset, List.mem_filter, mem_nodeIds, Option.any_eq_true]
  simp only [decide_eq_true_eq]

/-- What a transaction that has written nothing lists is what there is. Read
committed is enough for it, since the listing is a single statement. -/
theorem card_cloudNodes {c : Conn} (h : ∀ n v, db.nodes.locks n ≠ some (c, v)) :
    (db.cloudNodes provider).card = nodesOf provider (db.visibleNodes c) := by
  unfold cloudNodes nodesOf visibleNodes
  rw [List.toFinset_card_of_nodup ((nodup_nodeIds db).filter _), ← List.countP_eq_length_filter,
    List.countP_filterMap]
  refine List.countP_congr fun n _ => ?_
  rw [RowStore.read_of_unused _ h]
  cases db.nodes.rows n <;> rfl

/-- A row a transaction reads is a value of the row. -/
theorem version_of_read {c : Conn} {n : NodeId} {row : NewNode}
    (h : db.nodes.read c n = some row) : db.NodeVersion n row := by
  by_cases hr : db.nodes.read c n = db.nodes.rows n
  · exact .inl (hr.symm.trans h)
  · exact .inr ⟨c, by rw [RowStore.locked_of_read_ne _ hr, h]⟩

end Database

/-- Only one daemon allocates: the locks of the other processes are not used. An
`asyncio.Lock` keeps the coroutines of one process apart, and no others. -/
def AllocatesIn (p : Nat) : StepCondition := fun _ _ e =>
  ∀ x ch u, e = .thread x (.performed .lockAcquire ch (.ok u)) → x.proc = p

/-! ## What an event does to a reservation

The table is for the invariant: which event can begin a reservation, which can
end it, and which can insert a row in it. What comes of an insertion is the
part to look at, since its commit is the only event that adds a node. -/

/-- The reservation a coroutine is making, as a log tells. It begins with the lock
and ends when this is given back. -/
abbrev reserves (cfg : Settings) (log : Log) (x : Tid) : ReserveState :=
  (reserveProtocol cfg).localState log x

/-- Whether an event gives the lock back or inserts a row. -/
def reserving : Event sig → Bool
  | .call .lockRelease _ | .performed (.sql _ (.nodeInsert _)) _ _ => true
  | _ => false

/-- The connection an event commits on. -/
def commits : Event sig → Option Nat
  | .performed (.commit c) _ _ => some c
  | _ => none

/-- How an event can change the local state. Only a few events do, and the invariant
is proved from this table. -/
inductive ReserveChange (l : ReserveState) : Event sig → ReserveState → Prop where
  | same {ev} (hev : reserving ev = false)
      (hcommit : ∀ c provider, l.phase = .inserted c provider → commits ev ≠ some c) :
      ReserveChange l ev l
  | locked {ch u} :
      ReserveChange l (.performed .lockAcquire ch (.ok u)) { l with phase := .locked }
  | released {ev} : ReserveChange l ev { l with phase := .idle }
  | opened {c ch} (hl : l.phase = .locked) :
      ReserveChange l (.performed .connect ch (.ok c)) { l with phase := .opened c }
  | counted {c ch nodes} (hl : l.phase = .opened c) :
      ReserveChange l (.performed (.sql c .nodeListAll) ch (.ok nodes))
        { l with phase := .counted c nodes }
  | inserted {c row ch r} :
      ReserveChange l (.performed (.sql c (.nodeInsert row)) ch r) (l.inserted c row r)
  | ended {ev c provider} (hl : l.phase = .inserted c provider) (hev : reserving ev = false) :
      ReserveChange l ev { l with phase := .locked }

/-- An event that commits nothing. -/
theorem ReserveChange.silent {ev : Event sig} {l : ReserveState} (hev : reserving ev = false)
    (hcommits : commits ev = none) : ReserveChange l ev l :=
  .same hev fun c _ _ h => by
    rw [hcommits] at h
    cases h

/-- These are all the ways. -/
theorem reserve_change (ev : Event sig) (l : ReserveState) :
    ReserveChange l ev (ReserveState.step ev l) := by
  cases ev with
  | call c r =>
    cases c with
    | lockRelease => exact .released
    | _ => exact .silent rfl rfl
  | reaped ch => exact .silent rfl rfl
  | interrupted o =>
    cases o with
    | lockAcquire => exact .released
    | sql c st =>
      cases st with
      | nodeInsert row =>
        show ReserveChange l _ l.ended
        unfold ReserveState.ended
        split
        · rename_i hl
          exact .ended hl rfl
        · exact .silent rfl rfl
      | _ => exact .silent rfl rfl
    | _ => exact .silent rfl rfl
  | performed o ch r =>
    cases o with
    | lockAcquire =>
      cases r with
      | ok u => exact .locked
      | error e => exact .silent rfl rfl
    | connect =>
      cases r with
      | error e => exact .silent rfl rfl
      | ok c =>
        show ReserveChange l _ (l.opened c)
        unfold ReserveState.opened
        split
        · rename_i hl
          exact .opened hl
        · exact .silent rfl rfl
    | sql c st =>
      cases st with
      | nodeInsert row => exact .inserted
      | nodeListAll =>
        cases r with
        | error e => exact .silent rfl rfl
        | ok nodes =>
          show ReserveChange l _ (l.counted c nodes)
          unfold ReserveState.counted
          split
          · rename_i c' hl
            split
            · rename_i hc
              subst hc
              exact .counted hl
            · exact .silent rfl rfl
          · exact .silent rfl rfl
      | _ => exact .silent rfl rfl
    | commit c =>
      show ReserveChange l _ (l.committed c)
      unfold ReserveState.committed
      split
      · rename_i c' provider hl
        split
        · exact .ended hl rfl
        · rename_i hc
          refine .same rfl ?_
          rintro c'' provider' hl' ⟨⟩
          rw [hl] at hl'
          cases hl'
          exact hc rfl
      · rename_i hne
        refine .same rfl ?_
        rintro c'' provider' hl' ⟨⟩
        exact hne _ _ hl'
    | _ => exact .silent rfl rfl

/-- **What an insertion leads to**, when it may be made: the row that was counted
for is inserted, or nothing is. -/
theorem inserted_phase {cfg : Settings} {l : ReserveState} {c : Nat} {row : NewNode}
    (hpre : l.MayInsert cfg c row) (r : Except Exc Node) :
    (l.inserted c row r).phase = .idle ∨ ∃ provider nodes, row.cloud = some provider ∧
      l.phase = .counted c nodes ∧ cfg.Room nodes provider ∧
      ((l.inserted c row r).phase = .locked ∨
        (l.inserted c row r).phase = .inserted c provider) := by
  unfold MayInsert at hpre
  unfold ReserveState.inserted
  cases hrow : row.cloud with
  | none =>
    rw [hrow] at hpre
    exact .inl hpre
  | some provider =>
    rw [hrow] at hpre
    obtain ⟨-, nodes, hphase, hroom⟩ := hpre
    refine .inr ⟨provider, nodes, rfl, hphase, hroom, ?_⟩
    cases r with
    | ok node => exact .inr rfl
    | error e => exact .inl rfl

/-- What is known of the event of an entry. -/
theorem event_of_entry {e : Entry sig Tid World.Env} {x : Tid} {ev : Event sig}
    {Q : Event sig → Prop} (he : e = .thread x ev) (h : Q ev) :
    ∀ ev', e = .thread x ev' → Q ev' := by
  rintro ev' he'
  rw [he] at he'
  injection he' with _ hev
  exact hev ▸ h

/-! ## The invariant

Three things are kept together. One coroutine at a time makes a reservation,
because of the lock. Its count is an upper bound of the nodes of each provider,
as long as it has not committed. And a row that anybody has written has the
provider that was inserted, so that no update can turn a node of one provider
into one of another. -/

/-- The connection of a reservation that has not written yet. -/
def ReservePhase.reading : ReservePhase → Option Nat
  | .opened c | .counted c _ => some c
  | _ => none

/-- **What the count rests on.** Whoever counts holds the lock; nobody else inserts
a row in the meantime; and a row that others rewrite keeps its provider. -/
structure Reserved (cfg : Settings) (p : Nat) (w : World) (log : Log) : Prop where
  /-- identifiers that have not been handed out are free -/
  fresh : ∀ n : NodeId, w.db.lastNode < n.value →
    w.db.nodes.rows n = none ∧ w.db.nodes.locks n = none
  /-- so are the numbers of connections -/
  serial : ∀ n x c v, w.db.nodes.locks n = some (⟨x, c⟩, v) → c ≤ w.db.lastConn
  numbered : ∀ x, ∀ c ∈ (reserves cfg log x).inserts, c ≤ w.db.lastConn
  /-- a reservation is made under the lock -/
  holder : ∀ x, (reserves cfg log x).phase ≠ .idle →
    x.proc = p ∧ (w.procs p).allocationLock = true
  /-- one coroutine at a time makes one -/
  alone : ∀ x y, (reserves cfg log x).phase ≠ .idle →
    (reserves cfg log y).phase ≠ .idle → x = y
  /-- a row keeps the provider it was inserted with -/
  own : ∀ x n cloud, (n, cloud) ∈ (reserves cfg log x).own →
    n.value ≤ w.db.lastNode ∧ ∀ row, w.db.NodeVersion n row → row.cloud = cloud
  /-- what is written for a provider is its row already, or is inserted -/
  pending : ∀ n x c row provider, w.db.nodes.locks n = some (⟨x, c⟩, some row) →
    row.cloud = some provider →
    n ∈ w.db.cloudNodes provider ∨ c ∈ (reserves cfg log x).inserts
  /-- the nodes are counted before anything is written -/
  clean : ∀ x c, (reserves cfg log x).phase.reading = some c →
    ∀ n v, w.db.nodes.locks n ≠ some (⟨x, c⟩, v)
  /-- while they are counted, they do not become more -/
  counted : ∀ x c nodes provider, (reserves cfg log x).phase = .counted c nodes →
    (w.db.cloudNodes provider).card ≤ nodesOf provider nodes
  /-- one row is inserted, and there is room for it -/
  placed : ∀ x c provider, (reserves cfg log x).phase = .inserted c provider →
    (∃ n₀, ∀ n v, w.db.nodes.locks n = some (⟨x, c⟩, v) →
      n = n₀ ∧ ∃ row, v = some row ∧ row.cloud = some provider) ∧
    ∀ k ∈ cfg.clouds, k.name = provider →
      ((w.db.cloudNodes provider).card : Int) + 1 ≤ k.maxNodes
  capacity : w.db.WithinCapacity cfg

/-- A committed row was a value of the row before. A COMMIT makes no new values, it
chooses one. -/
theorem NodeStep.of_rows {w w' : World} {e : Entry sig Tid World.Env}
    (h : NodeStep w w' e) {n : NodeId} {row : NewNode}
    (hrow : w'.db.nodes.rows n = some row) : w.db.NodeVersion n row := by
  rcases h.rows with hr | ⟨x, c, ch, r, -, -, hr⟩
  · exact .inl (hr ▸ hrow)
  · rw [hr] at hrow
    exact Database.version_of_read hrow

namespace Reserved

variable {cfg : Settings} {p : Nat} {w w' : World} {log : Log}
  {e : Entry sig Tid World.Env}

/-- At the beginning nobody makes a reservation. -/
theorem start (hrest : w.db.NodesAtRest) (hcap : w.db.WithinCapacity cfg) :
    Reserved cfg p w [] where
  fresh n hn := ⟨hrest.fresh n hn, hrest.unlocked n⟩
  serial n x c v hl := by
    rw [hrest.unlocked] at hl
    cases hl
  numbered x c hc := absurd hc List.not_mem_nil
  holder x hx := absurd rfl hx
  alone x y hx := absurd rfl hx
  own x n cloud h := absurd h List.not_mem_nil
  pending n x c row provider hl := by
    rw [hrest.unlocked] at hl
    cases hl
  clean x c h := nomatch h
  counted x c nodes provider h := nomatch h
  placed x c provider h := nomatch h
  capacity := hcap

/-- The entry is one of the coroutine, or leaves its local state alone. -/
theorem change_at (cfg : Settings) (log : Log) (e : Entry sig Tid World.Env) (y : Tid) :
    ((∀ ev, e ≠ .thread y ev) ∧ reserves cfg (e :: log) y = reserves cfg log y) ∨
    ∃ ev, e = .thread y ev ∧
      ReserveChange (reserves cfg log y) ev (reserves cfg (e :: log) y) := by
  cases e with
  | env e =>
    refine .inl ⟨fun ev h => ?_, rfl⟩
    injection h
  | thread x ev =>
    by_cases hxy : x = y
    · subst hxy
      refine .inr ⟨ev, rfl, ?_⟩
      unfold reserves
      rw [Protocol.localState_self]
      exact reserve_change ev _
    · refine .inl ⟨fun ev' h => ?_, (reserveProtocol cfg).localState_ne log ev hxy⟩
      injection h with hx
      exact hxy hx

/-- Nothing is forgotten about the rows that were inserted. -/
theorem inserts_mono (cfg : Settings) (log : Log) (e : Entry sig Tid World.Env) (y : Tid) :
    (reserves cfg log y).inserts ⊆ (reserves cfg (e :: log) y).inserts := by
  intro c hc
  rcases change_at cfg log e y with ⟨-, hsame⟩ | ⟨ev, -, hchange⟩
  · rwa [hsame]
  · generalize reserves cfg (e :: log) y = l' at hchange ⊢
    cases hchange with
    | @inserted c' row ch r =>
      show c ∈ if row.cloud.isSome then c' :: _ else _
      split
      · exact List.mem_cons_of_mem _ hc
      · exact hc
    | _ => exact hc

/-- **A row is inserted, or rewritten with its provider** by somebody who makes no
reservation. A node never moves to another provider, which is what makes a count of
names safe. -/
theorem lock_step (h : Reserved cfg p w log)
    (hap : Happens (system fun _ => cfg) (reserveProtocol cfg) w log e w') {n : NodeId}
    {x : Tid} {c : Nat} {v : Option NewNode}
    (hl : w'.db.nodes.locks n = some (⟨x, c⟩, v)) :
    w.db.nodes.locks n = some (⟨x, c⟩, v) ∨ ∃ ev, e = .thread x ev ∧ c ≤ w.db.lastConn ∧
      ((∃ row ch r, ev = .performed (.sql c (.nodeInsert row)) ch r ∧ n = w.db.nextNode ∧
        v = some row) ∨
      (reserving ev = false ∧ commits ev = none ∧ (reserves cfg log x).phase = .idle ∧
        ∃ row, w.db.nodes.read ⟨x, c⟩ n = some row ∧
          ∀ row', v = some row' → row'.cloud = row.cloud)) := by
  rcases (nodeStep hap).locks n _ v hl with hold | ⟨x', c', op, ch, r, rfl, ho, hc, hw⟩
  · exact .inl hold
  · cases ho
    have hpre := hap.of_performed.1
    refine .inr ⟨_, rfl, hc, ?_⟩
    cases hw with
    | @inserted row hlast => exact .inl ⟨row, ch, r, rfl, rfl, rfl⟩
    | @updated node row hread =>
      obtain ⟨hidle, hown⟩ : (reserves cfg log x).phase = .idle ∧
        (node.nodeId, node.cloud) ∈ (reserves cfg log x).own := hpre
      refine .inr ⟨rfl, rfl, hidle, row, hread, ?_⟩
      rintro row' ⟨⟩
      exact ((h.own x _ _ hown).2 row (Database.version_of_read hread)).symm
    | disabled row hread =>
      refine .inr ⟨rfl, rfl, hpre, row, hread, ?_⟩
      rintro row' ⟨⟩
      rfl
    | removed row hread => exact .inr ⟨rfl, rfl, hpre, row, hread, nofun⟩

/-- A value of a row has the provider of one it had before, or is that of a new row.
So the nodes of a provider become more by insertions only. -/
theorem version_step (h : Reserved cfg p w log)
    (hap : Happens (system fun _ => cfg) (reserveProtocol cfg) w log e w') {n : NodeId}
    {row : NewNode} (hv : w'.db.NodeVersion n row) :
    (∃ row₀, w.db.NodeVersion n row₀ ∧ row.cloud = row₀.cloud) ∨
    ∃ x c ch r, e = .thread x (.performed (.sql c (.nodeInsert row)) ch r) ∧
      n = w.db.nextNode := by
  rcases hv with hrow | ⟨⟨x, c⟩, hl⟩
  · exact .inl ⟨row, (nodeStep hap).of_rows hrow, rfl⟩
  · rcases h.lock_step hap hl with hold | ⟨ev, rfl, -, ⟨row', ch, r, rfl, hn, hrow⟩ |
      ⟨-, -, -, row₀, hread, hcloud⟩⟩
    · exact .inl ⟨row, .inr ⟨_, hold⟩, rfl⟩
    · cases hrow
      exact .inr ⟨x, c, ch, r, rfl, hn⟩
    · exact .inl ⟨row₀, Database.version_of_read hread, hcloud row rfl⟩

/-- A row that exists has been given its identifier. -/
theorem known (h : Reserved cfg p w log) {n : NodeId} {row : NewNode}
    (hv : w.db.NodeVersion n row) : n.value ≤ w.db.lastNode := by
  by_contra hn
  obtain ⟨hrow, hlock⟩ := h.fresh n (Nat.lt_of_not_le hn)
  rcases hv with hr | ⟨o, hl⟩
  · rw [hrow] at hr
    cases hr
  · rw [hlock] at hl
    cases hl

/-- A row that a connection reads for a provider is its row, or was inserted on the
connection. -/
theorem covered (h : Reserved cfg p w log) {x : Tid} {c : Nat} {n : NodeId} {row : NewNode}
    {provider : String} (hread : w.db.nodes.read ⟨x, c⟩ n = some row)
    (hcloud : row.cloud = some provider) :
    n ∈ w.db.cloudNodes provider ∨ c ∈ (reserves cfg log x).inserts := by
  by_cases hr : w.db.nodes.read ⟨x, c⟩ n = w.db.nodes.rows n
  · have hrow : w.db.nodes.rows n = some row := hr.symm.trans hread
    exact .inl (Database.mem_cloudNodes.mpr ⟨h.known (.inl hrow), row, hrow, hcloud⟩)
  · have hl := RowStore.locked_of_read_ne _ hr
    rw [hread] at hl
    exact h.pending n x c row provider hl hcloud

/-- **A provider gets one more node** only when a reservation is committed.
Deletions and updates may happen at any time, but they make room or leave it. -/
theorem grows (h : Reserved cfg p w log)
    (hap : Happens (system fun _ => cfg) (reserveProtocol cfg) w log e w')
    (provider : String) :
    (w'.db.cloudNodes provider).card ≤ (w.db.cloudNodes provider).card ∨
    ∃ x c ev, e = .thread x ev ∧ commits ev = some c ∧
      (reserves cfg log x).phase = .inserted c provider ∧
      (w'.db.cloudNodes provider).card ≤ (w.db.cloudNodes provider).card + 1 := by
  rcases (nodeStep hap).rows with hrows | ⟨x, c, ch, r, rfl, -, hrows⟩
  · refine .inl (Finset.card_le_card fun n hn => ?_)
    obtain ⟨-, row, hrow, hcloud⟩ := Database.mem_cloudNodes.mp hn
    rw [hrows] at hrow
    exact Database.mem_cloudNodes.mpr ⟨h.known (.inl hrow), row, hrow, hcloud⟩
  · have hpre : c ∈ (reserves cfg log x).inserts →
      ∃ provider, (reserves cfg log x).phase = .inserted c provider := hap.of_performed.1
    have hread : ∀ n ∈ w'.db.cloudNodes provider, ∃ row,
        w.db.nodes.read ⟨x, c⟩ n = some row ∧ row.cloud = some provider := by
      intro n hn
      obtain ⟨-, row, hrow, hcloud⟩ := Database.mem_cloudNodes.mp hn
      exact ⟨row, (congrFun hrows n).symm.trans hrow, hcloud⟩
    by_cases hphase : (reserves cfg log x).phase = .inserted c provider
    · -- all that is new is the row that was inserted
      obtain ⟨n₀, hplaced⟩ := (h.placed x c provider hphase).1
      refine .inr ⟨x, c, _, rfl, rfl, hphase, ?_⟩
      refine (Finset.card_le_card fun n hn => ?_).trans (Finset.card_insert_le n₀ _)
      obtain ⟨row, hr, hcloud⟩ := hread n hn
      rw [Finset.mem_insert]
      by_cases hsame : w.db.nodes.read ⟨x, c⟩ n = w.db.nodes.rows n
      · have hrow : w.db.nodes.rows n = some row := hsame.symm.trans hr
        exact .inr (Database.mem_cloudNodes.mpr ⟨h.known (.inl hrow), row, hrow, hcloud⟩)
      · exact .inl (hplaced n _ (RowStore.locked_of_read_ne _ hsame)).1
    · refine .inl (Finset.card_le_card fun n hn => ?_)
      obtain ⟨row, hr, hcloud⟩ := hread n hn
      rcases h.covered hr hcloud with hmem | hin
      · exact hmem
      · -- what was inserted on the connection is for another provider
        obtain ⟨provider', hphase'⟩ := hpre hin
        obtain ⟨n₀, hplaced⟩ := (h.placed x c provider' hphase').1
        by_cases hsame : w.db.nodes.read ⟨x, c⟩ n = w.db.nodes.rows n
        · have hrow : w.db.nodes.rows n = some row := hsame.symm.trans hr
          exact Database.mem_cloudNodes.mpr ⟨h.known (.inl hrow), row, hrow, hcloud⟩
        · have hl := RowStore.locked_of_read_ne _ hsame
          rw [hr] at hl
          obtain ⟨-, row', hrow', hcloud'⟩ := hplaced n _ hl
          cases hrow'
          rw [hcloud] at hcloud'
          cases hcloud'
          exact absurd hphase' hphase

/-! ## One step

A step may be one of the coroutine that makes the reservation, or one of
somebody else. The steps of others can only lower a count. Its own are few: it
lists, it inserts, it commits; and with the commit the number of nodes becomes
at most the count and one, for which there was room. -/

/-- **Who is making a reservation** was making it, or has just been given the lock.
Nobody slips in otherwise. -/
theorem active_step (hap : Happens (system fun _ => cfg) (reserveProtocol cfg) w log e w')
    {y : Tid} (hy : (reserves cfg (e :: log) y).phase ≠ .idle) :
    (reserves cfg log y).phase ≠ .idle ∧ (∀ r, e ≠ .thread y (.call .lockRelease r)) ∨
    ∃ ch u, e = .thread y (.performed .lockAcquire ch (.ok u)) := by
  have hquiet : ∀ {ev}, e = .thread y ev → reserving ev = false →
      ∀ r, e ≠ .thread y (.call .lockRelease r) := by
    rintro ev rfl hev r he
    injection he with _ hev'
    subst hev'
    cases hev
  have hcurrent : ∀ {o : Op} {ch : Choice} {r' : Except Exc o.Res},
      e = .thread y (.performed o ch r') → ∀ r, e ≠ .thread y (.call .lockRelease r) := by
    rintro o ch r' rfl r he
    injection he with _ hev
    cases hev
  rcases change_at cfg log e y with ⟨hother, hsame⟩ | ⟨ev, he, hchange⟩
  · exact .inl ⟨hsame ▸ hy, fun r => hother _⟩
  · generalize reserves cfg (e :: log) y = l' at hchange hy
    cases hchange with
    | same hev => exact .inl ⟨hy, hquiet he hev⟩
    | locked => exact .inr ⟨_, _, he⟩
    | released => exact absurd rfl hy
    | opened hl => exact .inl ⟨hl ▸ nofun, hcurrent he⟩
    | counted hl => exact .inl ⟨hl ▸ nofun, hcurrent he⟩
    | ended hl hev => exact .inl ⟨hl ▸ nofun, hquiet he hev⟩
    | @inserted c row ch r =>
      refine .inl ⟨?_, hcurrent he⟩
      subst he
      have hpre : (reserves cfg log y).MayInsert cfg c row := hap.of_performed.1
      rcases inserted_phase hpre r with hidle | ⟨provider, nodes, -, hphase, -⟩
      · exact absurd hidle hy
      · rw [hphase]
        exact nofun

/-- Whoever has just been given the lock is the only one: everyone who makes a
reservation holds it, and it was free. -/
theorem acquired (h : Reserved cfg p w log) {x : Tid} {ch : Choice} {u : Unit}
    (hap : Happens (system fun _ => cfg) (reserveProtocol cfg) w log
      (.thread x (.performed .lockAcquire ch (.ok u))) w') (hx : x.proc = p) :
    (w'.procs p).allocationLock = true ∧ ∀ y, (reserves cfg log y).phase = .idle := by
  have hperf : w.perform (fun _ => cfg) x .lockAcquire ch = some (.ok u, w') :=
    hap.of_performed.2.1
  have hch : ch.effective = true := by
    rcases World.perform_cases hperf with ⟨hch, -⟩ | ⟨-, -, _, he, -⟩
    · exact hch
    · cases he
  obtain ⟨hfree, hheld⟩ := World.perform_lockAcquire hperf hch
  rw [hx] at hfree hheld
  refine ⟨hheld, fun y => ?_⟩
  by_contra hy
  rw [(h.holder y hy).2] at hfree
  cases hfree

/-- Who makes a reservation belongs to the process, and its lock is taken. -/
theorem holder_step (h : Reserved cfg p w log)
    (hap : Happens (system fun _ => cfg) (reserveProtocol cfg) w log e w')
    (hC : AllocatesIn p w log e) (y : Tid) (hy : (reserves cfg (e :: log) y).phase ≠ .idle) :
    y.proc = p ∧ (w'.procs p).allocationLock = true := by
  rcases active_step hap hy with ⟨hact, hno⟩ | ⟨ch, u, rfl⟩
  · obtain ⟨hproc, hlock⟩ := h.holder y hact
    refine ⟨hproc, ?_⟩
    cases lockChange hap p with
    | same hsame => rw [hsame, hlock]
    | acquired _ hfree =>
      rw [hlock] at hfree
      cases hfree
    | @released x r =>
      have hx : (reserves cfg log x).phase ≠ .idle := hap.of_call.1
      obtain rfl : x = y := h.alone x y hx hact
      exact absurd rfl (hno r)
  · have hproc := hC y ch u rfl
    exact ⟨hproc, (h.acquired hap hproc).1⟩

/-- **At most one coroutine makes a reservation** at any time. Whoever begins one has
just been given the lock, which somebody else would hold otherwise. -/
theorem alone_step (h : Reserved cfg p w log)
    (hap : Happens (system fun _ => cfg) (reserveProtocol cfg) w log e w')
    (hC : AllocatesIn p w log e) (y z : Tid)
    (hy : (reserves cfg (e :: log) y).phase ≠ .idle)
    (hz : (reserves cfg (e :: log) z).phase ≠ .idle) : y = z := by
  rcases active_step hap hy with ⟨hact, -⟩ | ⟨ch, u, rfl⟩
  · rcases active_step hap hz with ⟨hact', -⟩ | ⟨ch, u, rfl⟩
    · exact h.alone y z hact hact'
    · exact absurd ((h.acquired hap (hC z ch u rfl)).2 y) hact
  · rcases active_step hap hz with ⟨hact', -⟩ | ⟨ch', u', he⟩
    · exact absurd ((h.acquired hap (hC y ch u rfl)).2 z) hact'
    · injection he

/-- What a coroutine has inserted keeps the provider it was inserted for. -/
theorem own_step (h : Reserved cfg p w log)
    (hap : Happens (system fun _ => cfg) (reserveProtocol cfg) w log e w') (y : Tid)
    (n : NodeId) (cloud : Option String) (hn : (n, cloud) ∈ (reserves cfg (e :: log) y).own) :
    n.value ≤ w'.db.lastNode ∧ ∀ row, w'.db.NodeVersion n row → row.cloud = cloud := by
  have hold : (n, cloud) ∈ (reserves cfg log y).own →
      n.value ≤ w'.db.lastNode ∧ ∀ row, w'.db.NodeVersion n row → row.cloud = cloud := by
    intro hmem
    obtain ⟨hle, hver⟩ := h.own y n cloud hmem
    refine ⟨hle.trans (nodeStep hap).lastNode, fun row hrow => ?_⟩
    rcases h.version_step hap hrow with ⟨row₀, hrow₀, hcloud⟩ | ⟨x, c, ch, r, -, rfl⟩
    · rw [hcloud, hver row₀ hrow₀]
    · exact absurd hle (Nat.not_succ_le_self _)
  rcases change_at cfg log e y with ⟨-, hsame⟩ | ⟨ev, rfl, hchange⟩
  · exact hold (hsame ▸ hn)
  · generalize reserves cfg (.thread y ev :: log) y = l' at hchange hn
    cases hchange with
    | @inserted c row ch r =>
      cases r with
      | error e => exact hold hn
      | ok node =>
        rcases List.mem_cons.mp hn with heq | hmem
        · obtain ⟨rfl, hlast⟩ := World.perform_nodeInsert hap.of_performed.2.1
          cases heq
          refine ⟨hlast.ge, fun row' hrow' => ?_⟩
          rcases h.version_step hap hrow' with ⟨row₀, hrow₀, -⟩ | ⟨x, c', ch', r', he, -⟩
          · exact absurd (h.known hrow₀) (Nat.not_succ_le_self _)
          · injection he with _ hev
            injection hev with ho
            cases ho
            rfl
        · exact hold hmem
    | _ => exact hold hn

/-- A row stays with its provider while a transaction has written it for the
same provider. -/
theorem cloudNodes_locked
    (hap : Happens (system fun _ => cfg) (reserveProtocol cfg) w log e w') {n : NodeId}
    {o : Conn} {row : NewNode} {provider : String} (hmem : n ∈ w.db.cloudNodes provider)
    (hl : w.db.nodes.locks n = some (o, some row)) (hcloud : row.cloud = some provider) :
    n ∈ w'.db.cloudNodes provider := by
  obtain ⟨hle, row₀, hrow₀, hcloud₀⟩ := Database.mem_cloudNodes.mp hmem
  refine Database.mem_cloudNodes.mpr ⟨hle.trans (nodeStep hap).lastNode, ?_⟩
  rcases (nodeStep hap).rows with hrows | ⟨x, c, ch, r, -, -, hrows⟩
  · exact ⟨row₀, by rw [hrows, hrow₀], hcloud₀⟩
  · by_cases ho : o = ⟨x, c⟩
    · subst ho
      exact ⟨row, by rw [hrows, RowStore.read_of_locked _ hl], hcloud⟩
    · exact ⟨row₀, by rw [hrows, RowStore.read_of_other _ hl ho, hrow₀], hcloud₀⟩

theorem pending_step (h : Reserved cfg p w log)
    (hap : Happens (system fun _ => cfg) (reserveProtocol cfg) w log e w') (n : NodeId)
    (x : Tid) (c : Nat) (row : NewNode) (provider : String)
    (hl : w'.db.nodes.locks n = some (⟨x, c⟩, some row)) (hcloud : row.cloud = some provider) :
    n ∈ w'.db.cloudNodes provider ∨ c ∈ (reserves cfg (e :: log) x).inserts := by
  have hmono := inserts_mono cfg log e x
  rcases h.lock_step hap hl with hold | ⟨ev, rfl, -, ⟨row', ch, r, rfl, -, hrow⟩ |
    ⟨-, hcommit, -, row₀, hread, hkeep⟩⟩
  · rcases h.pending n x c row provider hold hcloud with hmem | hin
    · exact .inl (cloudNodes_locked hap hmem hold hcloud)
    · exact .inr (hmono hin)
  · cases hrow
    refine .inr ?_
    unfold reserves
    rw [Protocol.localState_self]
    show c ∈ if row.cloud.isSome then c :: _ else _
    rw [hcloud]
    exact List.mem_cons_self
  · rcases h.covered hread ((hkeep row rfl).symm.trans hcloud) with hmem | hin
    · -- the statement is no COMMIT, so the row is still there
      obtain ⟨hle, row₁, hrow₁, hcloud₁⟩ := Database.mem_cloudNodes.mp hmem
      refine .inl (Database.mem_cloudNodes.mpr
        ⟨hle.trans (nodeStep hap).lastNode, row₁, ?_, hcloud₁⟩)
      rcases (nodeStep hap).rows with hrows | ⟨x', c', ch, r, he, -, -⟩
      · rw [hrows, hrow₁]
      · injection he with _ hev
        subst hev
        cases hcommit
    · exact .inr (hmono hin)

/-- A connection of a coroutine that makes a reservation gets a lock from an
insertion only. -/
theorem lock_active (h : Reserved cfg p w log)
    (hap : Happens (system fun _ => cfg) (reserveProtocol cfg) w log e w') {y : Tid}
    (hy : (reserves cfg log y).phase ≠ .idle)
    (hquiet : ∀ ev, e = .thread y ev → reserving ev = false) {n : NodeId} {c : Nat}
    {v : Option NewNode} (hl : w'.db.nodes.locks n = some (⟨y, c⟩, v)) :
    w.db.nodes.locks n = some (⟨y, c⟩, v) := by
  rcases h.lock_step hap hl with hold | ⟨ev, he, -, ⟨row, ch, r, rfl, -⟩ | ⟨-, -, hidle, -⟩⟩
  · exact hold
  · exact nomatch hquiet _ he
  · exact absurd hidle hy

theorem clean_step (h : Reserved cfg p w log)
    (hap : Happens (system fun _ => cfg) (reserveProtocol cfg) w log e w') (y : Tid) (c : Nat)
    (hy : (reserves cfg (e :: log) y).phase.reading = some c) (n : NodeId)
    (v : Option NewNode) : w'.db.nodes.locks n ≠ some (⟨y, c⟩, v) := by
  have hold : (reserves cfg log y).phase.reading = some c →
      (∀ ev, e = .thread y ev → reserving ev = false) →
      w'.db.nodes.locks n ≠ some (⟨y, c⟩, v) := by
    intro hreading hquiet hl
    refine h.clean y c hreading n v (h.lock_active hap ?_ hquiet hl)
    intro hidle
    rw [hidle] at hreading
    cases hreading
  rcases change_at cfg log e y with ⟨hother, hsame⟩ | ⟨ev, he, hchange⟩
  · exact hold (hsame ▸ hy) fun ev he => absurd he (hother ev)
  · generalize reserves cfg (e :: log) y = l' at hchange hy
    cases hchange with
    | same hev => exact hold hy (event_of_entry he hev)
    | locked => cases hy
    | released => cases hy
    | ended => cases hy
    | @opened c' ch hl' =>
      cases hy
      intro hl
      have hlock := h.lock_active hap (hl' ▸ nofun) (event_of_entry he rfl) hl
      subst he
      have hnew : w.db.lastConn < c := World.perform_connect hap.of_performed.2.1
      exact absurd (h.serial n y c v hlock) (Nat.not_le_of_lt hnew)
    | counted hl' => exact hold (by rw [hl']; exact hy) (event_of_entry he rfl)
    | @inserted c' row ch r =>
      subst he
      have hpre : (reserves cfg log y).MayInsert cfg c' row := hap.of_performed.1
      rcases inserted_phase hpre r with hp | ⟨provider, nodes, -, -, -, hp | hp⟩ <;>
      · rw [hp] at hy
        cases hy

/-- The nodes of a provider do not become more while somebody else makes a
reservation. -/
theorem stays (h : Reserved cfg p w log)
    (hap : Happens (system fun _ => cfg) (reserveProtocol cfg) w log e w') {y : Tid}
    (hy : (reserves cfg log y).phase ≠ .idle)
    (hcommit : ∀ ev c provider, e = .thread y ev →
      (reserves cfg log y).phase = .inserted c provider → commits ev ≠ some c)
    (provider : String) :
    (w'.db.cloudNodes provider).card ≤ (w.db.cloudNodes provider).card := by
  rcases h.grows hap provider with hle | ⟨x, c, ev, he, hc, hphase, -⟩
  · exact hle
  · obtain rfl : x = y := h.alone x y (hphase ▸ nofun) hy
    exact absurd hc (hcommit ev c provider he hphase)

theorem counted_step (h : Reserved cfg p w log)
    (hap : Happens (system fun _ => cfg) (reserveProtocol cfg) w log e w') (y : Tid) (c : Nat)
    (nodes : List Node) (provider : String)
    (hy : (reserves cfg (e :: log) y).phase = .counted c nodes) :
    (w'.db.cloudNodes provider).card ≤ nodesOf provider nodes := by
  have hold : (reserves cfg log y).phase = .counted c nodes →
      (w'.db.cloudNodes provider).card ≤ nodesOf provider nodes := by
    intro hphase
    have hact : (reserves cfg log y).phase ≠ .idle := hphase ▸ nofun
    refine (h.stays hap hact ?_ provider).trans (h.counted y c nodes provider hphase)
    intro ev c' provider' _ hphase'
    rw [hphase] at hphase'
    cases hphase'
  rcases change_at cfg log e y with ⟨-, hsame⟩ | ⟨ev, rfl, hchange⟩
  · exact hold (hsame ▸ hy)
  · generalize reserves cfg (.thread y ev :: log) y = l' at hchange hy
    cases hchange with
    | same => exact hold hy
    | locked => cases hy
    | released => cases hy
    | ended => cases hy
    | opened => cases hy
    | @counted c' ch nodes' hl' =>
      cases hy
      have hact : (reserves cfg log y).phase ≠ .idle := hl' ▸ nofun
      refine (h.stays hap hact ?_ provider).trans ?_
      · intro ev c'' provider' _ hphase'
        rw [hl'] at hphase'
        cases hphase'
      · rw [World.perform_listAll hap.of_performed.2.1]
        exact (Database.card_cloudNodes (h.clean y c (by rw [hl']; rfl))).le
    | @inserted c' row ch r =>
      have hpre : (reserves cfg log y).MayInsert cfg c' row := hap.of_performed.1
      rcases inserted_phase hpre r with hp | ⟨provider, nodes, -, -, -, hp | hp⟩ <;>
      · rw [hp] at hy
        cases hy

theorem placed_step (h : Reserved cfg p w log)
    (hap : Happens (system fun _ => cfg) (reserveProtocol cfg) w log e w') (y : Tid) (c : Nat)
    (provider : String) (hy : (reserves cfg (e :: log) y).phase = .inserted c provider) :
    (∃ n₀, ∀ n v, w'.db.nodes.locks n = some (⟨y, c⟩, v) →
      n = n₀ ∧ ∃ row, v = some row ∧ row.cloud = some provider) ∧
    ∀ k ∈ cfg.clouds, k.name = provider →
      ((w'.db.cloudNodes provider).card : Int) + 1 ≤ k.maxNodes := by
  have hold : (reserves cfg log y).phase = .inserted c provider →
      (∀ ev, e = .thread y ev → reserving ev = false ∧ commits ev ≠ some c) →
      (∃ n₀, ∀ n v, w'.db.nodes.locks n = some (⟨y, c⟩, v) →
        n = n₀ ∧ ∃ row, v = some row ∧ row.cloud = some provider) ∧
      ∀ k ∈ cfg.clouds, k.name = provider →
        ((w'.db.cloudNodes provider).card : Int) + 1 ≤ k.maxNodes := by
    intro hphase hquiet
    have hact : (reserves cfg log y).phase ≠ .idle := hphase ▸ nofun
    obtain ⟨⟨n₀, hplaced⟩, hroom⟩ := h.placed y c provider hphase
    refine ⟨⟨n₀, fun n v hl => hplaced n v ?_⟩, fun k hk hname => ?_⟩
    · exact h.lock_active hap hact (fun ev he => (hquiet ev he).1) hl
    · have hstays : (w'.db.cloudNodes provider).card ≤ (w.db.cloudNodes provider).card := by
        refine h.stays hap hact (fun ev c' provider' he hphase' => ?_) provider
        rw [hphase] at hphase'
        cases hphase'
        exact (hquiet ev he).2
      have := hroom k hk hname
      omega
  rcases change_at cfg log e y with ⟨hother, hsame⟩ | ⟨ev, he, hchange⟩
  · exact hold (hsame ▸ hy) fun ev he => absurd he (hother ev)
  · generalize reserves cfg (e :: log) y = l' at hchange hy
    cases hchange with
    | same hev hcommit =>
      exact hold hy (event_of_entry (Q := fun ev => reserving ev = false ∧ commits ev ≠ some c)
        he ⟨hev, hcommit c provider hy⟩)
    | locked => cases hy
    | released => cases hy
    | ended => cases hy
    | opened => cases hy
    | counted => cases hy
    | @inserted c' row ch r =>
      subst he
      have hpre : (reserves cfg log y).MayInsert cfg c' row := hap.of_performed.1
      rcases inserted_phase hpre r with hp | ⟨provider', nodes, hcloud, hphase, hroom, hp | hp⟩
      · rw [hp] at hy
        cases hy
      · rw [hp] at hy
        cases hy
      · rw [hp] at hy
        cases hy
        have hact : (reserves cfg log y).phase ≠ .idle := hphase ▸ nofun
        refine ⟨⟨w.db.nextNode, fun n v hl => ?_⟩, fun k hk hname => ?_⟩
        · -- there was no lock before, so this is the one of the row
          rcases h.lock_step hap hl with hbefore | ⟨ev, he, -, ⟨row', ch', r', rfl, hn, hv⟩ |
            ⟨-, -, hidle, -⟩⟩
          · exact absurd hbefore (h.clean y c (by rw [hphase]; rfl) n v)
          · injection he with _ hev
            injection hev with ho
            cases ho
            exact ⟨hn, row, hv, hcloud⟩
          · rw [hphase] at hidle
            cases hidle
        · have hstays : (w'.db.cloudNodes provider).card ≤
              (w.db.cloudNodes provider).card := by
            refine h.stays hap hact (fun ev c' provider' _ hphase' => ?_) provider
            rw [hphase] at hphase'
            cases hphase'
          have hcounted := h.counted y c nodes provider hphase
          have hlt := hroom k hk hname
          omega

theorem fresh_step (h : Reserved cfg p w log)
    (hap : Happens (system fun _ => cfg) (reserveProtocol cfg) w log e w') (n : NodeId)
    (hn : w'.db.lastNode < n.value) :
    w'.db.nodes.rows n = none ∧ w'.db.nodes.locks n = none := by
  have hs := nodeStep hap
  have hbefore : w.db.lastNode < n.value := hs.lastNode.trans_lt hn
  constructor
  · cases hrow : w'.db.nodes.rows n with
    | none => rfl
    | some row => exact absurd (h.known (hs.of_rows hrow)) (Nat.not_le_of_lt hbefore)
  · cases hl : w'.db.nodes.locks n with
    | none => rfl
    | some lock =>
      obtain ⟨o, v⟩ := lock
      rcases hs.locks n o v hl with hold | ⟨x, c, op, ch, r, -, -, -, hw⟩
      · rw [(h.fresh n hbefore).2] at hold
        cases hold
      · cases hw with
        | inserted hlast => exact absurd hn (by rw [hlast]; exact Nat.lt_irrefl _)
        | updated row hread | disabled row hread | removed row hread =>
          exact absurd (h.known (Database.version_of_read hread)) (Nat.not_le_of_lt hbefore)

theorem serial_step (h : Reserved cfg p w log)
    (hap : Happens (system fun _ => cfg) (reserveProtocol cfg) w log e w') (n : NodeId)
    (x : Tid) (c : Nat) (v : Option NewNode)
    (hl : w'.db.nodes.locks n = some (⟨x, c⟩, v)) : c ≤ w'.db.lastConn := by
  refine le_trans ?_ (nodeStep hap).lastConn
  rcases h.lock_step hap hl with hold | ⟨-, -, hc, -⟩
  · exact h.serial n x c v hold
  · exact hc

theorem numbered_step (h : Reserved cfg p w log)
    (hap : Happens (system fun _ => cfg) (reserveProtocol cfg) w log e w') (x : Tid) (c : Nat)
    (hc : c ∈ (reserves cfg (e :: log) x).inserts) : c ≤ w'.db.lastConn := by
  refine le_trans ?_ (nodeStep hap).lastConn
  rcases change_at cfg log e x with ⟨-, hsame⟩ | ⟨ev, rfl, hchange⟩
  · exact h.numbered x c (hsame ▸ hc)
  · generalize reserves cfg (.thread x ev :: log) x = l' at hchange hc
    cases hchange with
    | @inserted c' row ch r =>
      have hc : c ∈ if row.cloud.isSome then c' :: (reserves cfg log x).inserts
        else (reserves cfg log x).inserts := hc
      split at hc
      · rcases List.mem_cons.mp hc with rfl | hin
        · exact World.perform_conn hap.of_performed.2.1 rfl
        · exact h.numbered x c hin
      · exact h.numbered x c hc
    | _ => exact h.numbered x c hc

/-- **No step exceeds the capacity.** A step that adds a node commits the
reservation, and there was room for the row that it has inserted. -/
theorem capacity_step (h : Reserved cfg p w log)
    (hap : Happens (system fun _ => cfg) (reserveProtocol cfg) w log e w') :
    w'.db.WithinCapacity cfg := by
  intro k hk
  have hbefore := h.capacity k hk
  rcases h.grows hap k.name with hle | ⟨x, c, ev, -, -, hphase, hle⟩
  · omega
  · have hroom := (h.placed x c k.name hphase).2 k hk rfl
    omega

/-- **Every step keeps the invariant.** One field after the other, each from what the
step can change. -/
theorem sound (hcfg : cfg.CloudsParsed) (p : Nat) :
    Sound (system fun _ => cfg) (reserveProtocol cfg) (AllocatesIn p) (Reserved cfg p) where
  jobs x j := program_runs hcfg j
  step w log e w' h hap hC := by
    refine ⟨?_, ?_⟩
    · cases e with
      | env e => trivial
      | thread x ev =>
        cases ev with
        | performed o ch r =>
          have hperf := hap.of_performed.2.1
          cases o with
          | connect =>
            rintro c rfl hin
            have hnew : w.db.lastConn < c := World.perform_connect hperf
            exact absurd (h.numbered x c hin) (Nat.not_le_of_lt hnew)
          | sql c st =>
            cases st with
            | nodeInsert row =>
              rintro node rfl
              rw [(World.perform_nodeInsert hperf).1]
            | _ => trivial
          | _ => trivial
        | _ => trivial
    · exact
        { fresh := h.fresh_step hap
          serial := h.serial_step hap
          numbered := h.numbered_step hap
          holder := h.holder_step hap hC
          alone := h.alone_step hap hC
          own := h.own_step hap
          pending := h.pending_step hap
          clean := h.clean_step hap
          counted := h.counted_step hap
          placed := h.placed_step hap
          capacity := h.capacity_step hap }

end Reserved

/-- **The capacity is never exceeded.** Whatever else runs and whatever fails,
the nodes of no provider become more than it may have. -/
theorem capacityKept {cfg : Settings} {p : Nat} {w : World} {q : State}
    (hcfg : cfg.CloudsParsed) (hrest : w.db.NodesAtRest) (hcap : w.db.WithinCapacity cfg)
    (hrun : Run (fun _ => cfg) (AllocatesIn p) (State.initial w) q) :
    q.world.db.WithinCapacity cfg :=
  ((Reserved.sound hcfg p).invariant hrun (Pool.obeys_start w)
    (Reserved.start hrest hcap)).2.capacity

/-! ## A run with one place

The lock is what the second worker waits for, and it counts when it gets it. It
sees the row that the first one has committed in the meantime, and reserves
nothing. -/

namespace Capacity

/-- One provider, with one node at most. -/
def settings : Settings where
  engines := [("pcrystal", Booking.engine)]
  clouds := [{ name := "hetzner", maxNodes := 1 }]

/-- No node, and two tasks in the allocation queue. -/
def world : World where
  db := .ofLists
    [{ engine := "pcrystal", check := fieldCheck_toDo },
      { engine := "pcrystal", check := fieldCheck_toDo }] []
  procs _ := { ({} : Memory) with
    queues := fun
      | .allocate => { queue := [(1, Booking.todo 1), (2, Booking.todo 2)] }
      | .connMachine | .deallocate | .consume => {} }

/-- The second worker waits for the lock when the first one commits its row. -/
def script : List (Move sig Tid Job World.Env) :=
  [.act (.spawn ⟨0, 1⟩ .allocateWorker), .drive ⟨0, 1⟩ 33,
   .act (.spawn ⟨0, 2⟩ .allocateWorker), .drive ⟨0, 2⟩ 22,
   .drive ⟨0, 1⟩ 8, .drive ⟨0, 2⟩ 13]

/-- The first worker has reserved the only place, and the second one has found
none. -/
def full (q : State) : Bool :=
  (q.world.db.cloudNodes "hetzner").card = 1 && match q.threads ⟨0, 1⟩, q.threads ⟨0, 2⟩ with
    | some (.waiting (.slotAcquire _) _), some (.finished _) => true
    | _, _ => false

theorem script_full : ((oneProcess.play (system fun _ => settings) script
    (State.initial world)).map full) = some true := by
  decide +kernel

end Capacity

/-- Two workers that compete for the only place. -/
theorem capacityKept_full : ∃ q,
    Run (fun _ => Capacity.settings) (AllocatesIn 0) (State.initial Capacity.world) q ∧
      Capacity.full q = true ∧ q.world.db.WithinCapacity Capacity.settings := by
  obtain ⟨q, hrun, hq⟩ := Script.exists_of_play Capacity.script_full
  have hrun' : Run (fun _ => Capacity.settings) (AllocatesIn 0)
      (State.initial Capacity.world) q :=
    hrun.mono fun _ _ _ h x _ _ he => oneProcess_condition h x _ he
  refine ⟨q, hrun', hq, capacityKept (p := 0) ⟨by decide, by decide⟩
    ⟨fun _ => rfl, fun _ _ => rfl⟩ ?_ hrun'⟩
  intro c hc
  rw [List.mem_singleton.mp hc]
  decide

end Yascheduler
