import Yascheduler.Infra.SshRepository

/-!
# What a connect leaves behind

A connection that is opened has to end in one of two ways: it is registered
with its session, or it is closed. Nothing in `connect` closes a connection. So
whenever a step after the opening fails, the connection it used stays open, and
when a session is registered in the place of another one, the latter is dropped
as it is.

Whether a session is closed is not whether its connection is. A session closes
by `_close`, which marks it, ends its monitor and closes the connection if that
is still open; a connection that the machine or the network has dropped leaves
a session that is not closed, whose monitor goes on. The two are told apart
below, because it is the session that a new one must not silently replace.

Why an equivalence and not a list of the leaks: that nothing fails between the
opening and the registration, and that every session that is replaced was
closed before, is all that `connect` relies on. Nothing else has to hold, and
none of it is ensured by `connect` itself.
-/

namespace Yascheduler.Ssh

open Async Store

/-! ## The world of a connect

Three things are kept of the world: which session is registered under a node,
which connections are open, and which sessions are closed. A run tells of them
by few of its answers, the *events*, and the world after the run is computed
from these. -/

/-- What is registered, which connections are open, and which sessions are closed. A
session is known by its connection, which it never shares. That a session is closed
and that its connection is are two things: a connection may be dropped by the
machine. -/
structure World where
  sessions : Dict NodeId Session
  isOpen : ConnId → Bool
  /-- `_closed` of the session over a connection -/
  isClosed : ConnId → Bool

/-- What an answer tells about connections and sessions. All other answers tell
nothing. -/
inductive Event where
  | opened (conn : ConnId)
  /-- a step fails that uses an open connection -/
  | failed
  | registered (nodeId : NodeId) (session : Session)
  | sessionClosed (session : Session)
  | closed (conn : ConnId)
deriving DecidableEq

def event : Answer sig → Option Event
  | .op (.connect _) (.ok conn) => some (.opened conn)
  | .op (.detectPlatform _) (.error _) => some .failed
  | .op (.getCpuCores ..) (.error _) => some .failed
  | .call (.initPaths ..) (.error _) => some .failed
  | .call (.register nodeId session) _ => some (.registered nodeId session)
  | .call (.closeSession session) _ => some (.sessionClosed session)
  | .call (.closeConn conn) _ => some (.closed conn)
  | _ => none

/-- The events of a run, in order. -/
def events (tr : Trace sig) : List Event := tr.filterMap event

def World.see (w : World) : Event → World
  | .opened conn => { w with isOpen := Function.update w.isOpen conn true }
  | .failed => w
  | .registered nodeId session => { w with
      sessions := w.sessions.set nodeId session
      isClosed := Function.update w.isClosed session.conn false }
  | .sessionClosed session => { w with isClosed := Function.update w.isClosed session.conn true }
  | .closed conn => { w with isOpen := Function.update w.isOpen conn false }

/-- The world after a run. -/
def World.after (w : World) (tr : Trace sig) : World := (events tr).foldl World.see w

/-- The connections that a run opens. -/
def opened (tr : Trace sig) : List ConnId :=
  (events tr).filterMap fun
    | .opened conn => some conn
    | _ => none

/-- **Nothing is leaked.** A connection that is open and that no registered session
has is one that nobody closes any more. -/
structure LeaksNothing (node : Node) (w : World) (tr : Trace sig) (r : Except Exc Session) :
    Prop where
  /-- a connect that fails registers nothing, and closes what it opened -/
  failed : ∀ e, r = .error e → (w.after tr).sessions = w.sessions ∧
    ∀ conn ∈ opened tr, (w.after tr).isOpen conn = false
  /-- one that succeeds registers its session, and closes all other connections -/
  connected : ∀ s, r = .ok s → (w.after tr).sessions = w.sessions.set node.nodeId s ∧
    s.conn ∈ opened tr ∧ ∀ conn ∈ opened tr, (w.after tr).isOpen conn = decide (conn = s.conn)
  /-- the session in whose place it is registered is closed -/
  replaced : ∀ s, r = .ok s → ∀ s₀, w.sessions.get node.nodeId = some s₀ →
    (w.after tr).isClosed s₀.conn = true

/-- Every connection that is opened is a new one. This is what the library promises
that opens them. -/
structure Fresh (w : World) (tr : Trace sig) : Prop where
  nodup : (opened tr).Nodup
  unused : ∀ conn ∈ opened tr, ∀ nodeId s, w.sessions.get nodeId = some s → s.conn ≠ conn

/-- No step fails that uses an open connection, and no session that is not closed is
there when a connection is opened. The first would leave the connection, the second
the session, with nobody to close it. -/
structure Undisturbed (node : Node) (w : World) (tr : Trace sig) : Prop where
  succeeds : .failed ∉ events tr
  unregistered : opened tr ≠ [] → ∀ s₀, w.sessions.get node.nodeId = some s₀ →
    w.isClosed s₀.conn = true

/-! ## The attempts

Retries are nested, an inner one around the opening and an outer one around
everything. What they do to the world adds up: each attempt of the outer one
that fails after its opening leaves one connection behind, and the inner one
leaves none, since an opening that fails has opened nothing. -/

/-- What two runs tell, one after the other. -/
theorem events_append (tr tr' : Trace sig) : events (tr ++ tr') = events tr ++ events tr' :=
  List.filterMap_append

/-- Answers that tell nothing can be left out. -/
theorem events_quiet {tr : Trace sig} (h : ∀ a ∈ tr, event a = none) : events tr = [] :=
  List.filterMap_eq_nil_iff.mpr h

/-- Neither the clock nor a wait tells anything. -/
theorem quiet_loop : loop.Quiet fun a => event a = none where
  time := sees_sync fun _ => rfl
  sleep _ := sees_op fun _ => rfl
  diverge := sees_op fun _ => rfl

/-- Computing options tells nothing. -/
theorem sees_options {α : Type} {c : Call} (h : c.Ans = Except Exc α)
    (hc : ∀ r, event (.call c r) = none) : Sees (fun a => event a = none) (fallible c h) :=
  sees_bind (sees_sync hc) fun _ => sees_ofExcept _

/-- What opening a connection leaves. -/
def opening : Except Exc ConnId → List Event
  | .ok conn => [.opened conn]
  | .error _ => []

/-- Opening a connection leaves it, or nothing. -/
theorem events_openOnce {node : Node} {args : ConnectArgs} {tunnel : Option Leg} {tr : Trace sig}
    {r : Except Exc ConnId} (h : Finishes (openOnce node args tunnel) tr r) :
    events tr = opening r := by
  have hoptions := sees_options (c := .connOptions
    { leg := { host := node.hostname, port := node.port, username := node.username }
      tunnel
      clientKeys := args.clientKeys
      connectTimeout := args.connectTimeout }) rfl fun _ => rfl
  rcases finishes_bind.mp h with ⟨e, rfl, h₁⟩ | ⟨_, tr₁, tr₂, rfl, h₁, h₂⟩
  · exact events_quiet (hoptions tr _ h₁)
  · obtain rfl := finishes_op.mp h₂
    rw [events_append, events_quiet (hoptions tr₁ _ h₁)]
    cases r <;> rfl

/-- So does opening it with retries, since an attempt that fails has opened none. -/
theorem events_openConnection {fuel : Nat} {node : Node} {args : ConnectArgs}
    {tunnel : Option Leg} {tr : Trace sig} {r : Except Exc ConnId}
    (h : Finishes (openConnection fuel node args tunnel) tr r) : events tr = opening r := by
  refine Finishes.retry (P := fun tr r => events tr = opening r) quiet_loop
    (fun tr e hquiet => events_quiet hquiet) (fun tr₁ tr₂ e r h₁ h₂ => ?_)
    (fun tr r h => events_openOnce h) h
  rw [events_append, h₁, h₂]
  rfl

/-- A connection is adopted, or a step fails. -/
theorem events_adopt {node : Node} {args : ConnectArgs} {conn : ConnId} {tr : Trace sig}
    {r : Except Exc Session} (h : Finishes (adopt node args conn) tr r) :
    (∃ s, r = .ok s ∧ s.conn = conn ∧ events tr = [.registered node.nodeId s]) ∨
      (∃ e, r = .error e) ∧ events tr = [.failed] := by
  obtain ⟨detected, tr₁, rfl, h⟩ := h
  cases detected with
  | error e =>
    obtain ⟨rfl, rfl⟩ := h
    exact .inr ⟨⟨e, rfl⟩, rfl⟩
  | ok platform =>
    obtain ⟨paths, tr₂, rfl, h⟩ := h
    cases paths with
    | error e =>
      obtain ⟨rfl, rfl⟩ := h
      exact .inr ⟨⟨e, rfl⟩, rfl⟩
    | ok dirs =>
      obtain ⟨cores, tr₃, rfl, h⟩ := h
      cases cores with
      | error e =>
        obtain ⟨rfl, rfl⟩ := h
        exact .inr ⟨⟨e, rfl⟩, rfl⟩
      | ok ncpus =>
        obtain ⟨freeSince, tr₄, rfl, _, tr₅, rfl, rfl, rfl⟩ := h
        exact .inl ⟨_, rfl, rfl, rfl⟩

/-- Connections that are opened and left behind. There is one for each attempt that
has failed after it was opened. -/
def lost (conns : List ConnId) : List Event := conns.flatMap fun conn => [.opened conn, .failed]

/-- What the last attempt leaves. -/
def leaving (node : Node) : Except Exc Session → List Event
  | .ok s => [.opened s.conn, .registered node.nodeId s]
  | .error _ => []

/-- An attempt leaves at most one connection behind. -/
theorem events_connectOnce {fuel : Nat} {node : Node} {args : ConnectArgs} {tr : Trace sig}
    {r : Except Exc Session} (h : Finishes (connectOnce fuel node args) tr r) :
    ∃ conns, events tr = lost conns ++ leaving node r := by
  have htunnel : Sees (fun a => event a = none) (buildTunnelOptions node) := by
    unfold buildTunnelOptions
    split
    · exact sees_ret none
    · exact sees_ret none
    · exact sees_bind (sees_options rfl fun _ => rfl) fun _ => sees_ret _
  rcases finishes_bind.mp h with ⟨e, rfl, h₁⟩ | ⟨tunnel, tr₁, tr', rfl, h₁, h'⟩
  · exact ⟨[], events_quiet (htunnel tr _ h₁)⟩
  rw [events_append, events_quiet (htunnel tr₁ _ h₁), List.nil_append]
  rcases finishes_bind.mp h' with ⟨e, rfl, h₂⟩ | ⟨conn, tr₂, tr₃, rfl, h₂, h₃⟩
  · exact ⟨[], events_openConnection h₂⟩
  rw [events_append, events_openConnection h₂]
  rcases events_adopt h₃ with ⟨s, rfl, rfl, hevents⟩ | ⟨⟨e, rfl⟩, hevents⟩
  · exact ⟨[], by rw [hevents]; rfl⟩
  · exact ⟨[conn], by rw [hevents]; rfl⟩

/-- They add up over the attempts. -/
theorem lost_append (conns conns' : List ConnId) :
    lost (conns ++ conns') = lost conns ++ lost conns' := List.flatMap_append

/-- **What a connect leaves**: connections that are left behind, and the session in
the end. By induction on the attempts of the retry. -/
theorem events_connect {fuel : Nat} {node : Node} {args : ConnectArgs} {tr : Trace sig}
    {r : Except Exc Session} (h : Finishes (connect fuel node args) tr r) :
    ∃ conns, events tr = lost conns ++ leaving node r := by
  have himpl : ∀ tr r, Finishes (connectImpl fuel node args) tr r →
      ∃ conns, events tr = lost conns ++ leaving node r := by
    intro tr r himpl
    refine Finishes.retry (P := fun tr r => ∃ conns, events tr = lost conns ++ leaving node r)
      quiet_loop (fun tr e hquiet => ⟨[], events_quiet hquiet⟩)
      (fun tr₁ tr₂ e r h₁ h₂ => ?_) (fun tr r h => events_connectOnce h) himpl
    obtain ⟨conns₁, h₁⟩ := h₁
    obtain ⟨conns₂, h₂⟩ := h₂
    refine ⟨conns₁ ++ conns₂, ?_⟩
    rw [events_append, h₁, h₂, lost_append]
    simp [leaving]
  rcases finishes_tryCatch.mp h with ⟨s, rfl, h₁⟩ | ⟨e, tr₁, tr₂, rfl, h₁, h₂⟩
  · exact himpl tr _ h₁
  · obtain ⟨rfl, e', rfl⟩ : tr₂ = [] ∧ ∃ e', r = .error e' := by
      cases e <;> exact ⟨h₂.1, _, h₂.2⟩
    rw [List.append_nil]
    exact himpl tr₁ (.error e) h₁

/-! ## The law

With what an attempt leaves behind computed, the law is looked at from both
sides. A connect that fails leaks nothing exactly if nothing was left behind.
One that succeeds must in addition not have replaced a session that is not
closed. -/

/-- The connections that are left behind stay open. -/
theorem see_lost (conns : List ConnId) (w : World) :
    (lost conns).foldl World.see w =
      { w with isOpen := fun conn => decide (conn ∈ conns) || w.isOpen conn } := by
  induction conns generalizing w with
  | nil => simp [lost]
  | cons conn conns ih =>
    show (lost conns).foldl World.see ((w.see (.opened conn)).see .failed) = _
    rw [ih]
    refine congrArg (World.mk w.sessions · w.isClosed) (funext fun conn' => ?_)
    show (decide (conn' ∈ conns) || Function.update w.isOpen conn true conn') = _
    by_cases hconn : conn' = conn <;> simp [hconn]

/-- A step has failed if a connection was left behind. -/
@[simp] theorem failed_mem_lost {conns : List ConnId} : .failed ∈ lost conns ↔ conns ≠ [] := by
  cases conns <;> simp [lost]

/-- These are the connections that were opened. -/
@[simp] theorem opened_lost (conns : List ConnId) : ((lost conns).filterMap fun
    | .opened conn => some conn
    | _ => none) = conns := by
  induction conns with
  | nil => rfl
  | cons conn conns ih =>
    show conn :: (lost conns).filterMap _ = _
    rw [ih]

section

variable {fuel : Nat} {node : Node} {args : ConnectArgs} {w : World} {tr : Trace sig}

/-- The law of a connect that fails. -/
theorem leaksNothing_error_iff {e : Exc} {conns : List ConnId} (h : events tr = lost conns) :
    LeaksNothing node w tr (.error e) ↔ Undisturbed node w tr := by
  have hopened : opened tr = conns := by rw [opened, h, opened_lost]
  have hafter : w.after tr = _ := (congrArg (List.foldl World.see w) h).trans (see_lost conns w)
  constructor
  · intro hlaw
    -- what is left behind would have to be closed
    have hnil : conns = [] := by
      refine List.eq_nil_iff_forall_not_mem.mpr fun conn hconn => ?_
      have hclosed := (hlaw.failed e rfl).2 conn (hopened ▸ hconn)
      rw [hafter] at hclosed
      simp [hconn] at hclosed
    subst hnil
    exact ⟨by simp [h], fun hne => absurd hopened hne⟩
  · intro hcond
    have hnil : conns = [] := by
      have hfailed := hcond.succeeds
      rwa [h, failed_mem_lost, not_not] at hfailed
    subst hnil
    refine ⟨fun _ _ => ⟨by rw [hafter], ?_⟩, fun _ he => (nomatch he), fun _ he => (nomatch he)⟩
    rw [hopened]
    exact fun _ hconn => nomatch hconn

/-- The law of a connect that succeeds. -/
theorem leaksNothing_ok_iff {s : Session} {conns : List ConnId} (hfresh : Fresh w tr)
    (h : events tr = lost conns ++ [.opened s.conn, .registered node.nodeId s]) :
    LeaksNothing node w tr (.ok s) ↔ Undisturbed node w tr := by
  have hopened : opened tr = conns ++ [s.conn] := by
    rw [opened, h, List.filterMap_append, opened_lost]
    rfl
  have hafter : w.after tr = _ := congrArg (List.foldl World.see w) h
  rw [List.foldl_append, see_lost] at hafter
  have hsessions : (w.after tr).sessions = w.sessions.set node.nodeId s := by
    rw [hafter]
    rfl
  have hopen : ∀ conn, (w.after tr).isOpen conn =
      (decide (conn = s.conn ∨ conn ∈ conns) || w.isOpen conn) := by
    intro conn
    rw [hafter]
    show Function.update (fun conn => decide (conn ∈ conns) || w.isOpen conn) s.conn true conn = _
    by_cases hconn : conn = s.conn <;> simp [hconn]
  -- the session that is replaced is another one, which nothing here closes
  have hreplaced : ∀ s₀, w.sessions.get node.nodeId = some s₀ →
      (w.after tr).isClosed s₀.conn = w.isClosed s₀.conn := by
    intro s₀ hs₀
    have hne : s₀.conn ≠ s.conn :=
      hfresh.unused s.conn (by rw [hopened]; simp) node.nodeId s₀ hs₀
    rw [hafter]
    exact Function.update_of_ne hne false w.isClosed
  constructor
  · intro hlaw
    have hnil : conns = [] := by
      refine List.eq_nil_iff_forall_not_mem.mpr fun conn hconn => ?_
      have hclosed := (hlaw.connected s rfl).2.2 conn (by rw [hopened]; simp [hconn])
      rw [hopen] at hclosed
      have hnodup := hfresh.nodup
      rw [hopened, List.nodup_append] at hnodup
      have hne : conn ≠ s.conn := hnodup.2.2 conn hconn s.conn List.mem_cons_self
      simp [hconn, hne] at hclosed
    subst hnil
    refine ⟨by simp [h, lost], fun _ s₀ hs₀ => ?_⟩
    rw [← hreplaced s₀ hs₀]
    exact hlaw.replaced s rfl s₀ hs₀
  · intro hcond
    have hnil : conns = [] := by
      have hfailed := hcond.succeeds
      rw [h] at hfailed
      simpa using hfailed
    subst hnil
    have hne : opened tr ≠ [] := by simp [hopened]
    refine ⟨fun _ he => (nomatch he), ?_, ?_⟩
    · intro s' hs'
      cases hs'
      refine ⟨hsessions, by simp [hopened], fun conn hconn => ?_⟩
      rw [hopened] at hconn
      obtain rfl := List.mem_singleton.mp hconn
      simp [hopen]
    · intro s' hs' s₀ hs₀
      cases hs'
      rw [hreplaced s₀ hs₀]
      exact hcond.unregistered hne s₀ hs₀

/-- **A connect leaks nothing if and only if** no step fails after the connection it
uses was opened, and no session that is not closed is registered under the node when
a connection is opened. It holds however often the connect is retried, and for a
connect that fails as well as for one that succeeds. -/
theorem connect_leaksNothing_iff {r : Except Exc Session}
    (h : Finishes (connect fuel node args) tr r) (hfresh : Fresh w tr) :
    LeaksNothing node w tr r ↔ Undisturbed node w tr := by
  obtain ⟨conns, hevents⟩ := events_connect h
  cases r with
  | error e => exact leaksNothing_error_iff (hevents.trans (List.append_nil _))
  | ok s => exact leaksNothing_ok_iff hfresh hevents

end

/-! ## A machine that is connected again

A machine that was disconnected has a closed session, and connecting it again
is what the law allows. An unknown platform is an error after the opening, and
so a leak. -/

namespace Reconnect

def node : Node := { nodeId := 1, hostname := "10.0.0.1", enabled := true }

def opts : ConnOptions :=
  { leg := { host := "10.0.0.1", port := 22, username := "root" }
    tunnel := none
    clientKeys := []
    connectTimeout := none }

/-- The session over a connection. -/
def session (conn : ConnId) : Session :=
  { hostname := "10.0.0.1"
    conn
    nodeId := 1
    adapter := "linux"
    platforms := ["linux"]
    freeSince := 0
    dirs := { data := some "data", engines := some "data/engines", tasks := some "data/tasks" }
    ncpus := 4 }

/-- Another machine is connected over `5`. The first session of this one, over
`3`, was closed when the machine was disconnected, and is no longer registered. -/
def world : World :=
  { sessions := [(2, { session 5 with nodeId := 2, hostname := "10.0.0.2" })]
    isOpen := fun conn => decide (conn = 5)
    isClosed := fun conn => decide (conn = 3) }

/-- The machine has dropped its connection, but the session over it is still
registered. -/
def dropped : World :=
  { sessions := [(1, session 5)], isOpen := fun _ => false, isClosed := fun _ => false }

/-- The connection is opened, and adopted. -/
def adopted : Trace sig :=
  [.call .time 0, .call .time 0, .call (.connOptions opts) (.ok ()), .op (.connect opts) (.ok 7),
    .op (.detectPlatform 7) (.ok ("linux", ["linux"])),
    .call (.initPaths "linux" {}) (.ok (session 7).dirs), .op (.getCpuCores "linux" 7) (.ok 4),
    .call .monotonic 0, .call (.register 1 (session 7)) ()]

theorem finishes_adopted : Finishes (connect 1 node {}) adopted (.ok (session 7)) :=
  ⟨_, _, rfl, _, _, rfl, _, _, rfl, _, _, rfl, _, _, rfl, _, _, rfl, _, _, rfl, _, _, rfl, _, _, rfl,
    rfl, rfl⟩

/-- The connection is opened, but no platform matches. -/
def unknownPlatform : Trace sig :=
  [.call .time 0, .call .time 0, .call (.connOptions opts) (.ok ()), .op (.connect opts) (.ok 7),
    .op (.detectPlatform 7) (.error (.other "PlatformGuessFailedError"))]

theorem finishes_unknownPlatform : Finishes (connect 1 node {}) unknownPlatform
    (.error (.other "PlatformGuessFailedError")) :=
  ⟨_, _, rfl, _, _, rfl, _, _, rfl, _, _, rfl, _, _, rfl, rfl, rfl⟩

/-- A new connection is opened, and no other. -/
theorem fresh_of_opened {w : World} {tr : Trace sig} (h : opened tr = [7])
    (hw : ∀ p ∈ w.sessions, p.2.conn ≠ 7) : Fresh w tr := by
  refine ⟨by rw [h]; decide, fun conn hconn nodeId s hs => ?_⟩
  obtain rfl := List.mem_singleton.mp (h ▸ hconn)
  exact hw _ (Dict.mem_of_get hs)

end Reconnect

open Reconnect in
/-- The machine is connected again after it was disconnected. -/
theorem leaksNothing_adopted : LeaksNothing node world adopted (.ok (session 7)) :=
  (connect_leaksNothing_iff finishes_adopted (fresh_of_opened rfl (by decide))).mpr
    ⟨by decide, fun _ _ hs₀ => nomatch hs₀⟩

open Reconnect in
-- the same run in the place of a session whose connection was dropped: it is
-- replaced although it is not closed
example : ¬LeaksNothing node dropped adopted (.ok (session 7)) :=
  fun hlaw => Bool.false_ne_true (hlaw.replaced _ rfl (session 5) rfl)

open Reconnect in
/-- The connection to a machine of an unknown platform stays open: the error is
raised after the connection was opened, and nothing in between closes it. -/
theorem not_leaksNothing_unknownPlatform : ∃ fuel node args w tr r,
    Finishes (connect fuel node args) tr r ∧ Fresh w tr ∧ ¬LeaksNothing node w tr r := by
  refine ⟨1, node, {}, world, unknownPlatform, _, finishes_unknownPlatform,
    fresh_of_opened rfl (by decide), ?_⟩
  intro hlaw
  exact absurd ((hlaw.failed _ rfl).2 7 (by decide)) (by decide)

end Yascheduler.Ssh
