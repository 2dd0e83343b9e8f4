import Yascheduler.Application.Footprints
import Yascheduler.Async.Shared

/-!
# Nodes that cannot be connected

An attempt to connect a cloud node that fails notes the time, unless an
earlier failure of the node is noted already; connecting the node and
abandoning it forget what is noted. A single time for each node is all that is
kept of the failures – and it is enough: the clock does not go back, so if any
failure since then lies a grace period back, the first one does.

The attempts on other nodes, and whatever else the daemon does, may happen at
any time in between: they do not touch what is noted of this node.

## One number for a history

The law is about the whole history of a node: an attempt abandons it if and only
if it fails and there was a failure a grace period ago, and the node was neither
connected nor abandoned since.
The code keeps one time. That this is enough is the invariant – what is noted is
the time of the first failure since the node was last connected or abandoned –
and it needs nothing of the clock but that it does not go back.

The time that is compared is read after the attempt. An attempt may take long,
and a failure counts from when it was noticed.
-/

namespace Yascheduler

open Store Async Shared

/-! ## Attempts

An attempt is looked at through its answers: how the connection ended, and when
the clock was read. From these it can be told whether it failed and whether it
abandoned its node, and the history of a node is a list of such attempts. -/

/-- One execution of `_connect_machine_consumer`. -/
abbrev Attempt := Execution sig Node

/-- The memory of the daemon; nobody but the attempts on the node touches its timer.
Other coroutines may do with the rest of the memory what they want. -/
def graceMemory (n : NodeId) : Shared sig Memory where
  call now m c := m.call now c
  rely m m' := m'.connectFailures.get n = m.connectFailures.get n

/-- The trace begins with a `MachineConnectionError`. A directory of keys that does
not exist is turned into one. -/
def connectionError : Trace sig → Bool
  | .op .listPrivateKeys (.error (.fileNotFound _)) :: _ => true
  | .op .listPrivateKeys (.error (.machineConnection _ _ _)) :: _ => true
  | .op .listPrivateKeys (.ok _) ::
      .op (.connectMachine _) (.error (.machineConnection _ _ _)) :: _ => true
  | _ => false

/-- The trace begins with a connection. -/
def connection : Trace sig → Bool
  | .op .listPrivateKeys (.ok _) :: .op (.connectMachine _) (.ok _) :: _ => true
  | _ => false

/-- The tracker entries of a node are discarded. -/
def isDiscard : Answer sig → Bool
  | .call (.trackerDiscardByNode _) _ => true
  | _ => false

/-- The time of noting a failure. -/
def notingTime : Nat × Answer sig → Option Nat
  | (t, .call (.failureSetdefault _) _) => some t
  | _ => none

/-- The time of a decision. -/
def decisionTime : Nat × Answer sig → Option Nat
  | (t, .call .monotonic _) => some t
  | _ => none

namespace Attempt

/-- The attempt is one on the node. -/
def of (n : NodeId) (x : Attempt) : Bool := x.job.nodeId = n

/-- The attempt ended in a `MachineConnectionError`. -/
def failed (x : Attempt) : Bool := connectionError x.trace

/-- The node connected. -/
def connected (x : Attempt) : Bool := connection x.trace

/-- The attempt called `abandon_node`, which discards the tracker entries of
the node whatever happens. -/
def abandons (x : Attempt) : Bool := x.trace.any isDiscard

/-- When the failure was noted. -/
def failedAt (x : Attempt) : Option Nat := x.answers.findSome? notingTime

/-- When it was decided whether to go on. -/
def decidedAt (x : Attempt) : Option Nat := x.answers.findSome? decisionTime

/-- The node connected, or was abandoned. An abandonment that is cancelled is none:
the loop ends with it. -/
def clears (x : Attempt) : Bool :=
  x.connected || (x.abandons && x.result.isOk)

end Attempt

/-- **A failure of the node lies a grace period back**, and it has neither connected
nor been abandoned in between. It is said of the history, and knows no timer. -/
def OutOfGrace (cfg : Settings) (n : NodeId) (before : List Attempt) (a : Attempt) : Prop :=
  ∃ cloud t older b later t₀, a.job.cloud = some cloud ∧ a.decidedAt = some t ∧
    before ++ [a] = older ++ b :: later ∧
    (b.of n = true ∧ b.failed = true ∧ b.failedAt = some t₀) ∧
    t₀ + connectGraceFor cfg cloud ≤ t ∧
    ∀ c ∈ (b :: later).dropLast, c.of n = true → c.clears = false

/-! ## What an attempt can come to

The consumer loads the keys, connects, and then notes, clears or decides. Each
end is one of a few, and for each the answers say what was done to the timer.
That an abandonment was called is seen from the tracker, whose entries are
discarded on every way out of it. -/

/-- The answer of an operation. -/
def isOp : Answer sig → Bool
  | .op _ _ => true
  | .call _ _ => false

/-- The part of the consumer that loads the private keys. -/
def loadKeys (node : Node) : Prog Unit :=
  Co.tryCatch (await .listPrivateKeys) fun e => match e with
    | .fileNotFound _ => raise (.machineConnection node.nodeId node.hostname
        "keys_dir does not exist")
    | e => raise e

/-- The part of the consumer that connects. -/
def connectBody (node : Node) : Prog Unit := do
  loadKeys node
  let _ ← await (.connectMachine node)
  ask (.failurePop node.nodeId)

/-- What the consumer does about an error. -/
def onError (cfg : Settings) (node : Node) (e : Exc) : Prog Unit :=
  match e with
  | .machineConnection _ _ _ => onConnectionError cfg node
  | _ => pure ()

/-- The consumer is made of these two parts. -/
theorem connectMachineConsumer_eq (cfg : Settings) (node : Node) :
    connectMachineConsumer cfg node = exceptException (connectBody node) (onError cfg node) :=
  rfl

/-- The error is a `MachineConnectionError`. -/
def Exc.isConnection : Exc → Bool
  | .machineConnection _ _ _ => true
  | _ => false

section Cases

variable {cfg : Settings} {node : Node} {tr : Trace sig} {r : Except Exc Unit}

/-- The keys are loaded, or an error is raised, which is a connection error if the
directory is missing. -/
theorem finishes_loadKeys (h : Finishes (loadKeys node) tr r) :
    (r = .ok () ∧ tr = [.op .listPrivateKeys (.ok ())]) ∨
    ∃ e e', r = .error e' ∧ tr = [.op .listPrivateKeys (.error e)] ∧
      ∀ rest, connectionError (.op .listPrivateKeys (.error e) :: rest) = e'.isConnection := by
  rcases finishes_tryCatch.mp h with ⟨a, rfl, hok⟩ | ⟨e, tr₁, tr₂, rfl, herr, hraise⟩
  · exact .inl ⟨rfl, finishes_op.mp hok⟩
  · obtain rfl := finishes_op.mp herr
    refine .inr ⟨e, ?_⟩
    cases e <;> exact ⟨_, hraise.2, by rw [hraise.1]; rfl, fun _ => rfl⟩

/-- The node connects, or one of the two steps raises. -/
theorem finishes_connectBody (h : Finishes (connectBody node) tr r) :
    (r = .ok () ∧ ∃ s, tr = [.op .listPrivateKeys (.ok ()), .op (.connectMachine node) (.ok s),
      .call (.failurePop node.nodeId) ()]) ∨
    ∃ e, r = .error e ∧ (∀ a ∈ tr, isOp a = true) ∧
      ∀ rest, connection (tr ++ rest) = false ∧
        connectionError (tr ++ rest) = e.isConnection := by
  rcases finishes_bind.mp h with ⟨e, rfl, hkeys⟩ | ⟨u, tr₁, tr₂, rfl, hkeys, hrest⟩
  · rcases finishes_loadKeys hkeys with ⟨he, -⟩ | ⟨e₀, e', he, rfl, hconn⟩
    · cases he
    · cases he
      exact .inr ⟨e, rfl, fun a ha => List.mem_singleton.mp ha ▸ rfl, fun rest => ⟨rfl, hconn rest⟩⟩
  rcases finishes_loadKeys hkeys with ⟨-, rfl⟩ | ⟨_, _, he, -⟩
  case inr => cases he
  rcases finishes_bind.mp hrest with ⟨e, rfl, hc⟩ | ⟨s, tr₃, tr₄, rfl, hc, hpop⟩
  · obtain rfl := finishes_op.mp hc
    refine .inr ⟨e, rfl, fun a ha => ?_, fun rest => ⟨rfl, by cases e <;> rfl⟩⟩
    simp only [List.cons_append, List.nil_append, List.mem_cons, List.not_mem_nil,
      or_false] at ha
    rcases ha with rfl | rfl <;> rfl
  · obtain rfl := finishes_op.mp hc
    obtain ⟨-, rfl, rfl⟩ := finishes_sync.mp hpop
    exact .inl ⟨rfl, s, rfl⟩

/-- **What an attempt comes to**: a connection, or an error that is answered. An
error of another kind is logged, and touches no timer. -/
theorem attempt_cases (h : Finishes (connectMachineConsumer cfg node) tr r) :
    (r = .ok () ∧ ∃ s, tr = [.op .listPrivateKeys (.ok ()), .op (.connectMachine node) (.ok s),
      .call (.failurePop node.nodeId) ()]) ∨
    ∃ tr₁ tr₂, tr = tr₁ ++ tr₂ ∧ (∀ a ∈ tr₁, isOp a = true) ∧ connection tr = false ∧
      ((connectionError tr = true ∧ Finishes (onConnectionError cfg node) tr₂ r) ∨
        connectionError tr = false ∧ tr₂ = []) := by
  rw [connectMachineConsumer_eq] at h
  rcases finishes_tryCatch.mp h with ⟨a, rfl, hok⟩ | ⟨e, tr₁, tr₂, rfl, herr, hhandler⟩
  · rcases finishes_connectBody hok with hconn | ⟨_, he, -⟩
    · exact .inl hconn
    · cases he
  · rcases finishes_connectBody herr with ⟨he, -⟩ | ⟨e', he, hops, hshape⟩
    · cases he
    · cases he
      refine .inr ⟨tr₁, tr₂, rfl, hops, (hshape tr₂).1, ?_⟩
      rw [(hshape tr₂).2]
      cases e with
      | machineConnection n host msg => exact .inl ⟨rfl, hhandler⟩
      | _ => exact .inr ⟨rfl, hhandler.1⟩

/-- A connection error of a cloud node is noted, and followed by the abandonment of
the node when the grace period is over. A node without a cloud is not abandoned. -/
theorem finishes_onConnectionError (h : Finishes (onConnectionError cfg node) tr r) :
    (node.cloud = none ∧ tr = [] ∧ r = .ok ()) ∨
    ∃ cloud since now rest, node.cloud = some cloud ∧
      tr = .call (.failureSetdefault node.nodeId) since :: .call .monotonic now :: rest ∧
      ((now - since < connectGraceFor cfg cloud ∧ rest = [] ∧ r = .ok ()) ∨
        ¬ now - since < connectGraceFor cfg cloud ∧
          ∃ rest₁ r₁, Finishes (abandonNode cfg node) rest₁ r₁ ∧
            ((r = .ok () ∧ rest = rest₁ ++ [.call (.failurePop node.nodeId) ()]) ∨
              (∃ e, r = .error e) ∧ rest = rest₁)) := by
  unfold onConnectionError at h
  cases hcloud : node.cloud with
  | none =>
    rw [hcloud] at h
    exact .inl ⟨rfl, h⟩
  | some cloud =>
    rw [hcloud] at h
    obtain ⟨since, rest, rfl, h⟩ := h
    obtain ⟨now, rest, rfl, h⟩ := h
    refine .inr ⟨cloud, since, now, rest, rfl, rfl, ?_⟩
    change Finishes (if now - since < connectGraceFor cfg cloud then _ else _) rest r at h
    split at h
    · rename_i hgrace
      exact .inl ⟨hgrace, h⟩
    · rename_i hgrace
      refine .inr ⟨hgrace, ?_⟩
      rcases finishes_bind.mp h with ⟨e, rfl, habandon⟩ | ⟨u, tr₁, tr₂, rfl, habandon, hpop⟩
      · rcases finishes_tryCatch.mp habandon with ⟨_, he, -⟩ | ⟨e', tr₁, tr₂, rfl, herr, hraise⟩
        · cases he
        · split at hraise
          · exact nomatch hraise.2
          · obtain ⟨rfl, -⟩ := hraise
            exact ⟨tr₁, _, herr, .inr ⟨⟨e, rfl⟩, List.append_nil _⟩⟩
      · obtain ⟨-, rfl, rfl⟩ := finishes_sync.mp hpop
        rcases finishes_tryCatch.mp habandon with ⟨_, -, hok⟩ | ⟨e', tr₃, tr₄, rfl, herr, hret⟩
        · exact ⟨tr₁, _, hok, .inl ⟨rfl, rfl⟩⟩
        · split at hret
          · obtain ⟨rfl, -⟩ := hret
            exact ⟨tr₃, _, herr, .inl ⟨rfl, by rw [List.append_nil]⟩⟩
          · exact nomatch hret.2

/-- `abandon_node` discards the tracker entries of the node. -/
theorem discards_abandonNode (h : Finishes (abandonNode cfg node) tr r) :
    ∃ k, .call (.trackerDiscardByNode node.nodeId) k ∈ tr := by
  obtain ⟨r₀, tr₁, tr₂, rf, rfl, -, hdiscard, -⟩ := finishes_tryFinally.mp h
  obtain ⟨k, rest, rfl, -⟩ := hdiscard
  exact ⟨k, List.mem_append_right _ List.mem_cons_self⟩

end Cases

/-! ## The timer

In the memory of the daemon the timer of the node is changed by its own
attempts only. So between two attempts it stays, and what an attempt finds is
what the one before has left. -/

section Timer

variable {cfg : Settings} {node : Node} {n : NodeId} {m m' : Memory}

/-- What is asked of the memory but setting and clearing a timer leaves the timers
alone. -/
theorem call_connectFailures {c : Call} (h : c.effect ≠ some .timer) (now : Nat)
    (m : Memory) : (m.call now c).2.connectFailures = m.connectFailures := by
  cases c with
  | failureSetdefault n | failurePop n => exact absurd rfl h
  | occupy s | trackerAdd t | trackerSetNode t n =>
    simp only [Memory.call]
    split <;> rfl
  | _ => rfl

/-- Setting and clearing the timer of another node leaves the timer alone. -/
theorem call_timer_ne {n' : NodeId} (hn : n ≠ n') {c : Call}
    (h : c = .failureSetdefault n' ∨ c = .failurePop n' ∨ c.effect ≠ some .timer)
    (now : Nat) (m : Memory) :
    (m.call now c).2.connectFailures.get n = m.connectFailures.get n := by
  rcases h with rfl | rfl | h
  · simp only [Memory.call]
    split
    · rfl
    · exact Dict.get_set_ne _ _ hn
  · exact Dict.get_pop_ne _ hn
  · rw [call_connectFailures h]

/-- What no call of the trace changes is the same after it. -/
theorem serves_timer {tr : Timed sig} (h : ∀ c a, .call c a ∈ tr.map Prod.snd → ∀ now m,
      (Memory.call m now c).2.connectFailures.get n = m.connectFailures.get n)
    (hserves : (graceMemory n).Serves m tr m') :
    m'.connectFailures.get n = m.connectFailures.get n :=
  hserves.keeps (f := fun m => m.connectFailures.get n)
    (fun now c a ha m => h c a (List.mem_map_of_mem (f := Prod.snd) ha) now m)
    fun m m' (h : m'.connectFailures.get n = m.connectFailures.get n) => h

/-- While a program only awaits, the timer is the same. -/
theorem serves_ops {tr : Timed sig} (h : ∀ a ∈ tr.map Prod.snd, isOp a = true)
    (hserves : (graceMemory n).Serves m tr m') :
    m'.connectFailures.get n = m.connectFailures.get n :=
  serves_timer (fun _ _ ha => nomatch h _ ha) hserves

/-- The abandonment of a node touches no timer. It is cleared by its caller
afterwards. -/
theorem calls_abandonNode {tr : Trace sig} {r : Except Exc Unit}
    (h : Finishes (abandonNode cfg node) tr r) {c : Call} {a : c.Ans}
    (ha : .call c a ∈ tr) : c.effect ≠ some .timer := by
  have hinside : (scope {.disableNode, .deleteVm, .removeNode}).Inside ∅
      (abandonNode cfg node) :=
    inside_abandonNode cfg node (by simp) (by simp) (by simp)
  intro he
  have hmem := hinside.sees tr r h _ ha c a rfl .timer he
  simp at hmem

/-- An attempt touches no timer but that of its node. -/
theorem calls_attempt {tr : Trace sig} {r : Except Exc Unit}
    (h : Finishes (connectMachineConsumer cfg node) tr r) {c : Call} {a : c.Ans}
    (ha : .call c a ∈ tr) : c = .failureSetdefault node.nodeId ∨
      c = .failurePop node.nodeId ∨ c.effect ≠ some .timer := by
  rcases attempt_cases h with ⟨-, s, rfl⟩ | ⟨tr₁, tr₂, rfl, hops, -, hrest⟩
  · have hc : c = .failurePop node.nodeId ∧ HEq a () := by simpa using ha
    exact .inr (.inl hc.1)
  rcases List.mem_append.mp ha with ha | ha
  · exact nomatch hops _ ha
  rcases hrest with ⟨-, h⟩ | ⟨-, rfl⟩
  case inr => cases ha
  rcases finishes_onConnectionError h with
    ⟨-, rfl, -⟩ | ⟨cloud, since, now, rest, -, rfl, hgrace⟩
  · cases ha
  rw [List.mem_cons, List.mem_cons] at ha
  rcases ha with ha | ha | ha
  · cases ha
    exact .inl rfl
  · cases ha
    exact .inr (.inr fun he => nomatch he)
  rcases hgrace with ⟨-, rfl, -⟩ | ⟨-, rest₁, r₁, habandon, ⟨-, rfl⟩ | ⟨-, rfl⟩⟩
  · cases ha
  · rcases List.mem_append.mp ha with ha | ha
    · exact .inr (.inr (calls_abandonNode habandon ha))
    · have hc : c = .failurePop node.nodeId ∧ HEq a () := by simpa using ha
      exact .inr (.inl hc.1)
  · exact .inr (.inr (calls_abandonNode habandon ha))

/-- **What an attempt does** to the timer of its node, and when it abandons the
node. The timer before and the timer after are all that links an attempt to the
others. -/
structure Attempt.Does (cfg : Settings) (x : Attempt) (f f' : Option Nat) : Prop where
  after : f' = if x.clears then none else f.or x.failedAt
  abandons : x.abandons = true ↔ ∃ cloud t₀ t since, x.job.cloud = some cloud ∧
    x.failedAt = some t₀ ∧ x.decidedAt = some t ∧ f.or (some t₀) = some since ∧
      ¬ t - since < connectGraceFor cfg cloud
  noted : x.failedAt.isSome = true ↔ x.failed = true ∧ x.job.cloud.isSome = true
  decided : ∀ t₀ t, x.failedAt = some t₀ → x.decidedAt = some t →
    x.answers.Pairwise (fun a b => a.1 ≤ b.1) → t₀ ≤ t

theorem any_isDiscard_ops {tr : Trace sig} (h : ∀ a ∈ tr, isOp a = true) :
    tr.any isDiscard = false := by
  refine List.any_eq_false.mpr fun a ha => ?_
  cases a with
  | call c r => exact nomatch h _ ha
  | op o r => exact Bool.false_ne_true

/-- An attempt that notes nothing. -/
theorem does_nothing {x : Attempt} {f : Option Nat} (hops : ∀ a ∈ x.trace, isOp a = true)
    (hconn : x.connected = false) (hfailed : x.failed = false ∨ x.job.cloud = none) :
    x.Does cfg f f := by
  have hquiet : x.abandons = false := any_isDiscard_ops hops
  have hnone : x.failedAt = none := by
    refine List.findSome?_eq_none_iff.mpr fun a ha => ?_
    obtain ⟨t, c | o⟩ := a
    · exact nomatch hops _ (List.mem_map_of_mem (f := Prod.snd) ha)
    · rfl
  constructor
  · rw [Attempt.clears, hconn, hquiet, hnone, Option.or_none]
    rfl
  · rw [hquiet, hnone]
    simp
  · rw [hnone]
    rcases hfailed with h | h <;> simp [h]
  · rw [hnone]
    exact fun _ _ h => nomatch h

/-- Noting a failure answers the time of the first one. A later failure does not set
the timer again, so the grace period is not begun anew. -/
theorem failureSetdefault_spec (now : Nat) (m : Memory) :
    (m.connectFailures.get n).or (some now) = some (m.call now (.failureSetdefault n)).1 ∧
    (m.call now (.failureSetdefault n)).2.connectFailures.get n =
      some (m.call now (.failureSetdefault n)).1 := by
  simp only [Memory.call]
  cases hget : m.connectFailures.get n with
  | none => exact ⟨rfl, Dict.get_set_self _ _ _⟩
  | some since => exact ⟨rfl, hget⟩

/-- Nothing is noted or decided while a program only awaits. -/
theorem findSome?_ops {l : Timed sig} (h : ∀ a ∈ l.map Prod.snd, isOp a = true) :
    l.findSome? notingTime = none ∧ l.findSome? decisionTime = none := by
  constructor <;>
  · refine List.findSome?_eq_none_iff.mpr fun a ha => ?_
    obtain ⟨t, c | o⟩ := a
    · exact nomatch h _ (List.mem_map_of_mem (f := Prod.snd) ha)
    · rfl

/-- An attempt that notes a failure. -/
theorem does_noted {x : Attempt} {f f' : Option Nat} {cloud : String} {t₀ t since : Nat}
    {l₁ l₂ : Timed sig} (hcloud : x.job.cloud = some cloud) (hconn : x.connected = false)
    (hfailed : x.failed = true) (hops : ∀ a ∈ l₁.map Prod.snd, isOp a = true)
    (hanswers : x.answers = l₁ ++ (t₀, .call (.failureSetdefault x.job.nodeId) since) ::
      (t, .call .monotonic t) :: l₂)
    (hsince : f.or (some t₀) = some since)
    (habandons : x.abandons = true ↔ ¬ t - since < connectGraceFor cfg cloud)
    (hafter : f' = if x.abandons && x.result.isOk then none else some since) :
    x.Does cfg f f' := by
  have hnoted : x.failedAt = some t₀ := by
    rw [Attempt.failedAt, hanswers, List.findSome?_append, (findSome?_ops hops).1]
    rfl
  have hdecided : x.decidedAt = some t := by
    rw [Attempt.decidedAt, hanswers, List.findSome?_append, (findSome?_ops hops).2]
    rfl
  constructor
  · rw [hafter, hnoted, hsince, Attempt.clears, hconn, Bool.false_or]
  · rw [habandons]
    constructor
    · exact fun hlate => ⟨cloud, t₀, t, since, hcloud, hnoted, hdecided, hsince, hlate⟩
    · rintro ⟨cloud', t₀', t', since', hcloud', hnoted', hdecided', hsince', hlate⟩
      obtain rfl := Option.some.inj (hcloud.symm.trans hcloud')
      obtain rfl := Option.some.inj (hnoted.symm.trans hnoted')
      obtain rfl := Option.some.inj (hdecided.symm.trans hdecided')
      obtain rfl := Option.some.inj (hsince.symm.trans hsince')
      exact hlate
  · rw [hnoted, hcloud, hfailed]
    simp
  · intro t₀' t' hnoted' hdecided' hclock
    obtain rfl := Option.some.inj (hnoted.symm.trans hnoted')
    obtain rfl := Option.some.inj (hdecided.symm.trans hdecided')
    rw [hanswers] at hclock
    have hrest := (List.pairwise_append.mp hclock).2.1
    exact (List.pairwise_cons.mp hrest).1 _ List.mem_cons_self

theorem attempt_does {x : Attempt} {m₁ : Memory} (hn : x.of n = true)
    (hends : Finishes (connectMachineConsumer cfg x.job) x.trace x.result)
    (hserves : (graceMemory n).Serves m x.answers m₁) :
    x.Does cfg (m.connectFailures.get n) (m₁.connectFailures.get n) := by
  obtain rfl := of_decide_eq_true hn
  rcases attempt_cases hends with ⟨hok, s, htr⟩ | ⟨tr₁, tr₂, htr, hops, hconn, herr⟩
  · -- the node connects
    obtain ⟨⟨t₁, _⟩, l₁, hanswers, rfl, hl₁⟩ := List.map_eq_cons_iff.mp htr
    obtain ⟨⟨t₂, _⟩, l₂, rfl, rfl, hl₂⟩ := List.map_eq_cons_iff.mp hl₁
    obtain ⟨⟨t₃, _⟩, l₃, rfl, rfl, hl₃⟩ := List.map_eq_cons_iff.mp hl₂
    obtain rfl := List.map_eq_nil_iff.mp hl₃
    have hconn : x.connected = true := by rw [Attempt.connected, htr]; rfl
    have hquiet : x.abandons = false := by rw [Attempt.abandons, htr]; rfl
    have hfailed : x.failed = false := by rw [Attempt.failed, htr]; rfl
    have hnone : x.failedAt = none := by rw [Attempt.failedAt, hanswers]; rfl
    rw [hanswers] at hserves
    obtain ⟨m₂, -, m₃, -, -, rfl⟩ := hserves
    constructor
    · rw [Attempt.clears, hconn]
      exact Dict.get_pop_self _ _
    · rw [hquiet, hnone]
      simp
    · rw [hnone, hfailed]
      simp
    · rw [hnone]
      rintro _ _ ⟨⟩
  obtain ⟨l₁, l₂, hanswers, rfl, rfl⟩ := List.map_eq_append_iff.mp htr
  rw [hanswers] at hserves
  obtain ⟨m₂, hserves₁, hserves₂⟩ := serves_append.mp hserves
  have hsame := serves_ops hops hserves₁
  have hquiet : l₂ = [] → x.failed = false ∨ x.job.cloud = none →
      x.Does cfg (m.connectFailures.get x.job.nodeId) (m₁.connectFailures.get x.job.nodeId) := by
    rintro rfl hcond
    obtain rfl := hserves₂
    rw [hsame]
    refine does_nothing (fun a ha => ?_) hconn hcond
    rw [htr, List.map_nil, List.append_nil] at ha
    exact hops a ha
  rcases herr with ⟨hfailed, h⟩ | ⟨hfailed, hnil⟩
  case inr => exact hquiet (List.map_eq_nil_iff.mp hnil) (.inl hfailed)
  rcases finishes_onConnectionError h with
    ⟨hstatic, hnil, -⟩ | ⟨cloud, since, now, rest, hcloud, hl₂, hgrace⟩
  · exact hquiet (List.map_eq_nil_iff.mp hnil) (.inr hstatic)
  obtain ⟨⟨t₀, _⟩, l₃, rfl, rfl, hl₃⟩ := List.map_eq_cons_iff.mp hl₂
  obtain ⟨⟨t, _⟩, l₄, rfl, rfl, rfl⟩ := List.map_eq_cons_iff.mp hl₃
  obtain ⟨rfl, rfl, hserves₄⟩ := hserves₂
  obtain ⟨hsince, htimer⟩ := failureSetdefault_spec (n := x.job.nodeId) t₀ m₂
  rw [hsame] at hsince
  have hops' : (l₁.map Prod.snd).any isDiscard = false := any_isDiscard_ops hops
  rcases hgrace with ⟨hgrace, hnil, -⟩ | ⟨hgrace, rest₁, r₁, habandon, hend⟩
  · -- one more attempt
    obtain rfl := List.map_eq_nil_iff.mp hnil
    obtain rfl := hserves₄
    have hquiet : x.abandons = false := by
      rw [Attempt.abandons, htr, List.any_append, hops']
      rfl
    refine does_noted hcloud hconn hfailed hops hanswers hsince ?_ ?_
    · rw [hquiet]
      exact iff_of_false Bool.false_ne_true (not_not.mpr hgrace)
    · rw [hquiet]
      exact htimer
  · obtain ⟨k, hk⟩ := discards_abandonNode habandon
    have hrest : ∀ l, l₄.map Prod.snd = rest₁ ++ l → x.abandons = true := by
      intro l hl
      refine List.any_eq_true.mpr ⟨.call (.trackerDiscardByNode x.job.nodeId) k, ?_, rfl⟩
      rw [htr]
      refine List.mem_append_right _ (List.mem_cons_of_mem _ (List.mem_cons_of_mem _ ?_))
      rw [hl]
      exact List.mem_append_left _ hk
    have hneutral : ∀ c a, .call c a ∈ rest₁ → ∀ now m,
        (Memory.call m now c).2.connectFailures.get x.job.nodeId =
          m.connectFailures.get x.job.nodeId := by
      intro c a ha now m
      rw [call_connectFailures (calls_abandonNode habandon ha)]
    rcases hend with ⟨hok, hl₄⟩ | ⟨⟨e, he⟩, hl₄⟩
    · -- the node was abandoned, and the timer is cleared
      have habandons := hrest _ hl₄
      refine does_noted hcloud hconn hfailed hops hanswers hsince
        (iff_of_true habandons hgrace) ?_
      obtain ⟨l₅, l₆, rfl, -, hl₆⟩ := List.map_eq_append_iff.mp hl₄
      obtain ⟨⟨t₅, _⟩, l₇, rfl, rfl, hnil⟩ := List.map_eq_cons_iff.mp hl₆
      obtain rfl := List.map_eq_nil_iff.mp hnil
      obtain ⟨m₃, -, -, rfl⟩ := serves_append.mp hserves₄
      rw [habandons, hok]
      exact Dict.get_pop_self _ _
    · -- the abandonment was cut short
      have habandons := hrest [] (by rw [hl₄, List.append_nil])
      refine does_noted hcloud hconn hfailed hops hanswers hsince
        (iff_of_true habandons hgrace) ?_
      rw [← hl₄] at hneutral
      rw [habandons, he]
      exact (serves_timer hneutral hserves₄).trans htimer

end Timer

/-! ## Runs of attempts

The invariant connects the timer with the history: there is a time if and only
if the node has failed since it was last connected or abandoned, and it is the
time of the first such failure. Since the clock does not go back, the first
failure is a grace period old if any of them is. -/

/-- What is noted of a node: the first failure since it last connected or was
abandoned. -/
def pendingFailure (n : NodeId) (attempts : List Attempt) : Option Nat :=
  attempts.foldl (fun f x => if x.of n then if x.clears then none else f.or x.failedAt else f) none

/-- The clock does not go back. -/
def ClockOrder (attempts : List Attempt) : Prop :=
  (attempts.flatMap Execution.answers).Pairwise fun a b => a.1 ≤ b.1

section Runs

variable {cfg : Settings} {n : NodeId} {m m' : Memory} {attempts older later : List Attempt}
  {x b : Attempt} {t₀ : Nat}

theorem pendingFailure_concat : pendingFailure n (attempts ++ [x]) =
    if x.of n then if x.clears then none else (pendingFailure n attempts).or x.failedAt
    else pendingFailure n attempts := by
  unfold pendingFailure
  rw [List.foldl_append]
  rfl

/-- The timer of a node is the failure that is pending. -/
theorem connectFailures_eq_pendingFailure
    (h : (graceMemory n).Executes (connectMachineConsumer cfg) m attempts m')
    (h0 : m.connectFailures.get n = none) :
    m'.connectFailures.get n = pendingFailure n attempts := by
  refine h.induction_on (I := fun attempts m => m.connectFailures.get n = pendingFailure n attempts) h0
    fun before x m m₁ m₂ hI hends hserves hrely => ?_
  change m₂.connectFailures.get n = m₁.connectFailures.get n at hrely
  rw [hrely, pendingFailure_concat, ← hI]
  cases hn : Attempt.of n x with
  | true => exact (attempt_does hn hends hserves).after
  | false =>
    have hne : n ≠ x.job.nodeId := fun h => of_decide_eq_false hn h.symm
    exact serves_timer (fun c a ha now m => call_timer_ne hne (calls_attempt hends ha) now m)
      hserves

/-- What is pending is the failure of an attempt, after which nothing cleared
it. -/
theorem exists_of_pendingFailure (h : pendingFailure n attempts = some t₀) : ∃ older b later,
    attempts = older ++ b :: later ∧ b.of n = true ∧ b.failedAt = some t₀ ∧
      ∀ c ∈ b :: later, c.of n = true → c.clears = false := by
  induction attempts using List.reverseRecOn with
  | nil => cases h
  | append_singleton attempts x ih =>
    have hlast : pendingFailure n attempts = some t₀ → (x.of n = true → x.clears = false) →
        ∃ older b later, attempts ++ [x] = older ++ b :: later ∧ b.of n = true ∧
          b.failedAt = some t₀ ∧ ∀ c ∈ b :: later, c.of n = true → c.clears = false := by
      intro hpending hx
      obtain ⟨older, b, later, rfl, hb, hb₀, hclears⟩ := ih hpending
      refine ⟨older, b, later ++ [x], by simp, hb, hb₀, fun c hc => ?_⟩
      rw [← List.cons_append, List.mem_append, List.mem_singleton] at hc
      rcases hc with hc | rfl
      · exact hclears c hc
      · exact hx
    rw [pendingFailure_concat] at h
    cases hn : x.of n with
    | false =>
      rw [hn] at h
      exact hlast h fun hx => nomatch hn.symm.trans hx
    | true =>
      cases hc : x.clears with
      | true =>
        rw [hn, hc] at h
        cases h
      | false =>
        rw [hn, hc] at h
        rcases Option.or_eq_some_iff.mp h with hpending | ⟨-, hx⟩
        · exact hlast hpending fun _ => hc
        · refine ⟨attempts, x, [], rfl, hn, hx, fun c hmem _ => ?_⟩
          rw [List.mem_singleton.mp hmem, hc]

theorem ClockOrder.left {later : List Attempt} (h : ClockOrder (attempts ++ later)) :
    ClockOrder attempts := by
  unfold ClockOrder at h
  rw [List.flatMap_append] at h
  exact (List.pairwise_append.mp h).1

theorem exists_answer_of_failedAt (h : x.failedAt = some t₀) : ∃ a ∈ x.answers, a.1 = t₀ := by
  obtain ⟨a, ha, hnoted⟩ := List.exists_of_findSome?_eq_some h
  refine ⟨a, ha, ?_⟩
  unfold notingTime at hnoted
  split at hnoted
  · exact Option.some.inj hnoted
  · cases hnoted

/-- Failures are noted in the order of the attempts. -/
theorem failedAt_le {t : Nat} (hclock : ClockOrder (older ++ b :: later)) (hx : x ∈ older)
    (hx₀ : x.failedAt = some t) (hb₀ : b.failedAt = some t₀) : t ≤ t₀ := by
  obtain ⟨a, ha, rfl⟩ := exists_answer_of_failedAt hx₀
  obtain ⟨a', ha', rfl⟩ := exists_answer_of_failedAt hb₀
  unfold ClockOrder at hclock
  rw [List.flatMap_append] at hclock
  refine (List.pairwise_append.mp hclock).2.2 a (List.mem_flatMap.mpr ⟨x, hx, ha⟩) a' ?_
  exact List.mem_flatMap.mpr ⟨b, List.mem_cons_self, ha'⟩

/-- What is pending at a failure is no later. -/
theorem pendingFailure_le (hclock : ClockOrder (older ++ b :: later)) (hb₀ : b.failedAt = some t₀) :
    ∃ since, (pendingFailure n older).or (some t₀) = some since ∧ since ≤ t₀ := by
  cases hpending : pendingFailure n older with
  | none => exact ⟨t₀, rfl, le_rfl⟩
  | some since =>
    obtain ⟨first, c, rest, rfl, -, hc, -⟩ := exists_of_pendingFailure hpending
    exact ⟨since, rfl, failedAt_le hclock (List.mem_append_right _ List.mem_cons_self) hc hb₀⟩

/-- **A failure that nothing cleared** is still pending, or an earlier one is. In
both cases there is a time on the timer, which is not later. -/
theorem pendingFailure_kept (hclock : ClockOrder (older ++ b :: later)) (hb : b.of n = true)
    (hb₀ : b.failedAt = some t₀) (hclears : ∀ c ∈ b :: later, c.of n = true → c.clears = false) :
    ∃ since, pendingFailure n (older ++ b :: later) = some since ∧ since ≤ t₀ := by
  induction later using List.reverseRecOn with
  | nil =>
    obtain ⟨since, hsince, hle⟩ := pendingFailure_le (n := n) hclock hb₀
    refine ⟨since, ?_, hle⟩
    rw [pendingFailure_concat, hb, hclears b List.mem_cons_self hb, hb₀]
    exact hsince
  | append_singleton later x ih =>
    have hsplit : older ++ b :: (later ++ [x]) = (older ++ b :: later) ++ [x] := by simp
    rw [hsplit] at hclock ⊢
    obtain ⟨since, hsince, hle⟩ := ih hclock.left fun c hc => hclears c (by
      rw [← List.cons_append]
      exact List.mem_append_left _ hc)
    refine ⟨since, ?_, hle⟩
    rw [pendingFailure_concat, hsince]
    cases hn : x.of n with
    | false => rfl
    | true =>
      rw [hclears x (by simp) hn]
      rfl

/-- The failures of cloud nodes are noted, and no others. -/
theorem isSome_failedAt_iff
    (h : (graceMemory n).Executes (connectMachineConsumer cfg) m attempts m')
    (hx : x ∈ attempts) (hn : x.of n = true) :
    x.failedAt.isSome = true ↔ x.failed = true ∧ x.job.cloud.isSome = true := by
  obtain ⟨before, after, rfl⟩ := List.append_of_mem hx
  obtain ⟨m₁, -, m₂, m₃, hends, hserves, -, -⟩ := executes_append.mp h
  exact (attempt_does hn hends hserves).noted

/-- **When a node is abandoned**: when an attempt on a cloud node fails, and a
failure with neither a connection nor an abandonment since lies a grace period back.
It holds for any times that do not run backwards, and whatever the abandonment comes
to. -/
theorem abandons_iff_outOfGrace
    (h : (graceMemory n).Executes (connectMachineConsumer cfg) m attempts m')
    (h0 : m.connectFailures.get n = none) (hclock : ClockOrder attempts)
    {before after : List Attempt} {a : Attempt} (hattempts : attempts = before ++ a :: after)
    (hn : a.of n = true) :
    a.abandons = true ↔ a.failed = true ∧ OutOfGrace cfg n before a := by
  subst hattempts
  obtain ⟨m₁, hbefore, m₂, m₃, hends, hserves, -, -⟩ := executes_append.mp h
  have hdoes := attempt_does hn hends hserves
  rw [connectFailures_eq_pendingFailure hbefore h0] at hdoes
  have hours : a.answers.Pairwise fun a b => a.1 ≤ b.1 := by
    unfold ClockOrder at hclock
    rw [List.flatMap_append, List.flatMap_cons] at hclock
    exact (List.pairwise_append.mp (List.pairwise_append.mp hclock).2.1).1
  rw [hdoes.abandons]
  constructor
  · rintro ⟨cloud, t₀, t, since, hcloud, hnoted, hdecided, hsince, hlate⟩
    have ht : t₀ ≤ t := hdoes.decided t₀ t hnoted hdecided hours
    have hfailed := (hdoes.noted.mp (by rw [hnoted]; rfl)).1
    refine ⟨hfailed, ?_⟩
    rcases Option.or_eq_some_iff.mp hsince with hpending | ⟨-, he⟩
    · -- an earlier failure
      obtain ⟨older, b, later, rfl, hb, hb₀, hclears⟩ := exists_of_pendingFailure hpending
      have hle : since ≤ t₀ :=
        failedAt_le hclock (List.mem_append_right _ List.mem_cons_self) hb₀ hnoted
      have hbfailed : b.failed = true :=
        ((isSome_failedAt_iff hbefore (by simp) hb).mp (by rw [hb₀]; rfl)).1
      refine ⟨cloud, t, older, b, later ++ [a], since, hcloud, hdecided, by simp,
        ⟨hb, hbfailed, hb₀⟩, by omega, ?_⟩
      rw [← List.cons_append, List.dropLast_concat]
      exact hclears
    · -- the failure itself
      cases he
      exact ⟨cloud, t, before, a, [], t₀, hcloud, hdecided, rfl, ⟨hn, hfailed, hnoted⟩,
        by omega, fun c hc => nomatch hc⟩
  · rintro ⟨hfailed, cloud, t, older, b, later, t₀, hcloud, hdecided, hsplit, ⟨hb, -, hb₀⟩,
      hlate, hclears⟩
    have hsome : a.failedAt.isSome = true := hdoes.noted.mpr ⟨hfailed, by rw [hcloud]; rfl⟩
    obtain ⟨t₁, hnoted⟩ := Option.isSome_iff_exists.mp hsome
    have hpending : ∃ since, (pendingFailure n before).or (some t₁) = some since ∧ since ≤ t₀ := by
      rcases List.eq_nil_or_concat later with rfl | ⟨rest, y, rfl⟩
      · obtain ⟨rfl, hlast⟩ := List.append_inj' hsplit rfl
        cases hlast
        cases hnoted.symm.trans hb₀
        exact pendingFailure_le hclock hnoted
      · rw [List.concat_eq_append] at hsplit hclears
        rw [← List.cons_append, ← List.append_assoc] at hsplit
        obtain ⟨rfl, hlast⟩ := List.append_inj' hsplit rfl
        rw [← List.cons_append, List.dropLast_concat] at hclears
        obtain ⟨since, hsince, hle⟩ := pendingFailure_kept hclock.left hb hb₀ hclears
        exact ⟨since, by rw [hsince]; rfl, hle⟩
    obtain ⟨since, hsince, hle⟩ := hpending
    exact ⟨cloud, t₁, t, since, hcloud, hnoted, hdecided, hsince, by omega⟩

end Runs

namespace ConnectGrace

def n : NodeId := ⟨1, Nat.one_pos⟩

def node : Node where
  nodeId := n
  hostname := "10.0.0.1"
  cloud := some "hetzner"

def refused : Exc := .machineConnection n "10.0.0.1" "refused"

/-- A failure that is noted. -/
def first : Attempt where
  job := node
  answers := [(0, .op .listPrivateKeys (.ok ())), (9, .op (.connectMachine node) (.error refused)),
    (10, .call (.failureSetdefault n) (10 : Nat)), (10, .call .monotonic (10 : Nat))]
  result := .ok ()

/-- Another one, two minutes later. -/
def second : Attempt where
  job := node
  answers := [(120, .op .listPrivateKeys (.ok ())),
    (129, .op (.connectMachine node) (.error refused)),
    (130, .call (.failureSetdefault n) (10 : Nat)), (130, .call .monotonic (130 : Nat)),
    (131, .op .connect (.error (.database "down"))),
    (131, .call (.trackerDiscardByNode n) (0 : Nat)), (131, .call (.failurePop n) ())]
  result := .ok ()

theorem executes : (graceMemory n).Executes (connectMachineConsumer {}) {} [first, second] {} := by
  have hfirst : Finishes (connectMachineConsumer {} first.job) first.trace first.result :=
    ⟨_, _, rfl, _, _, rfl, _, _, rfl, _, _, rfl, rfl, rfl⟩
  have hsecond : Finishes (connectMachineConsumer {} second.job) second.trace second.result :=
    ⟨_, _, rfl, _, _, rfl, _, _, rfl, _, _, rfl, _, _, rfl, _, _, rfl, _, _, rfl, rfl, rfl⟩
  exact ⟨_, { connectFailures := [(n, 10)] }, hfirst,
    ⟨{}, rfl, {}, rfl, rfl, rfl, rfl⟩, rfl, _, _, hsecond,
    ⟨{ connectFailures := [(n, 10)] }, rfl, { connectFailures := [(n, 10)] }, rfl, rfl, rfl,
      { connectFailures := [(n, 10)] }, rfl, rfl, rfl, rfl⟩, rfl, rfl⟩

end ConnectGrace

/-- The second of two failures two minutes apart abandons the node. -/
theorem abandons_second : ConnectGrace.second.abandons = true ↔
    ConnectGrace.second.failed = true ∧
      OutOfGrace {} ConnectGrace.n [ConnectGrace.first] ConnectGrace.second := by
  have hclock : ClockOrder [ConnectGrace.first, ConnectGrace.second] := by
    unfold ClockOrder
    decide
  have hsplit : [ConnectGrace.first, ConnectGrace.second] =
    [ConnectGrace.first] ++ ConnectGrace.second :: [] := rfl
  exact abandons_iff_outOfGrace ConnectGrace.executes rfl hclock hsplit rfl

end Yascheduler
