import Yascheduler.Application.StartInvariant
import Yascheduler.Async.Script

/-!
# Who may run on a node

At most one running task for each node: `show_nodes` prints the one task of a
node, and a start looks for machines that are not busy. But which nodes are
busy is read once, long before the machine is occupied, and what is looked at
again is only the occupancy flag in memory, which a monitor clears as soon as
the process has ended – before the task is consumed. So the invariant holds
exactly as long as no start occupies a machine of a node in use.

The condition looks at the state before a machine is occupied, and at nothing
else. It is what a check at that moment could ask for: that no task runs on the
node, and that no other start is on its way there. The second half cannot be seen
in the database, since such a start has not committed anything yet.
-/

namespace Yascheduler

open Store Async StartState

/-- **No two RUNNING tasks share a node.** It is said of the rows alone, so that it
is a property of what any reader of the database can see, whichever process it
belongs to. -/
def Database.NoDoubleBooking (db : Database) : Prop :=
  ∀ t t' n row row', db.tasks.rows t = some row → db.tasks.rows t' = some row' →
    row.RunsOn n → row'.RunsOn n → t = t'

/-- No committed task is RUNNING on the node. What an open transaction is about to
commit is not counted: nobody else can see it yet. -/
def Database.Vacant (db : Database) (n : NodeId) : Prop :=
  ∀ t row, db.tasks.rows t = some row → ¬ row.RunsOn n

/-- A start has occupied a machine of the node, and its claim is open. This is what
the rows do not show: the task is still TO_DO for everybody else. -/
def StartsOn (log : Log) (x : Tid) (n : NodeId) : Prop :=
  ∃ s, (starts log x).phase.live = some s ∧ s.node = n

/-- **Machines are occupied while their node is vacant**, and while no other start
on it has got that far. The code tests neither at this point; it relies on what it
has read before, and on the flag that `occupy` sets. -/
def OccupiesVacant : StepCondition := fun w log e =>
  ∀ x s, e = .thread x (.call (.occupy s) (.ok ())) →
    w.db.Vacant s.node ∧ ∀ y, ¬ StartsOn log y s.node

/-! ## The invariant

What the rows say is not inductive: a commit makes a task RUNNING, and whether
its node was free must be known before. So the starts that have occupied a
machine are looked at together with the running tasks, and a node may have one
of either kind. The condition is what keeps a second start from joining them.
-/

/-- A start comes to be on a node only by occupying one of its machines. Whatever
else it does, it was there before. -/
theorem startsOn_cons {log : Log} {e : Entry sig Tid World.Env} {y : Tid} {n : NodeId}
    (h : StartsOn (e :: log) y n) :
    StartsOn log y n ∨ ∃ s, s.node = n ∧ e = .thread y (.call (.occupy s) (.ok ())) := by
  obtain ⟨s, hs, hn⟩ := h
  cases e with
  | env e => exact .inl ⟨s, hs, hn⟩
  | thread x ev =>
    by_cases hxy : x = y
    · subst hxy
      rw [starts_self] at hs
      rcases live_step hs with hs | rfl
      · exact .inl ⟨s, hs, hn⟩
      · exact .inr ⟨s, hn, rfl⟩
    · rw [starts_ne _ _ hxy] at hs
      exact .inl ⟨s, hs, hn⟩

/-- **What double booking would have to break.** A start that has occupied a machine
is alone on its node. It has to be known together with the claims, since a commit
turns the claim of a start into a running task. -/
structure Booked (w : World) (log : Log) : Prop where
  claims : ClaimsHold w log
  single : w.db.NoDoubleBooking
  vacant : ∀ x n, StartsOn log x n → w.db.Vacant n
  alone : ∀ x y n, StartsOn log x n → StartsOn log y n → x = y

/-- **Nothing that happens breaks it.** Either no row changes, and all that can be
new is that a machine is occupied; or a claim is committed, and the new running task
is that of the start that was alone on the node. -/
theorem booked_sound (cfg : Nat → Settings) :
    Sound (system cfg) startProtocol OccupiesVacant Booked where
  jobs x j := program_runs (cfg x.proc) j
  step w log e w' h hap hC := by
    obtain ⟨hans, hclaims⟩ := h.claims.step hap
    refine ⟨hans, ?_⟩
    rcases rows_step hap with hrows | ⟨x, c, ch, r, rfl, hch, hpre, htasks⟩
    · -- no row changed: all that can be new is an occupied machine
      have hvac : ∀ n, w.db.Vacant n → w'.db.Vacant n := by
        intro n hn t row hrow
        rw [hrows] at hrow
        exact hn t row hrow
      refine ⟨hclaims, ?_, fun x n hx => ?_, fun x y n hx hy => ?_⟩
      · intro t t' n row row' hrow hrow'
        rw [hrows] at hrow hrow'
        exact h.single t t' n row row' hrow hrow'
      · rcases startsOn_cons hx with hx | ⟨s, rfl, rfl⟩
        · exact hvac n (h.vacant x n hx)
        · exact hvac _ (hC x s rfl).1
      · rcases startsOn_cons hx with hx₀ | ⟨s, rfl, rfl⟩ <;>
          rcases startsOn_cons hy with hy₀ | ⟨s', hs', he⟩
        · exact h.alone x y n hx₀ hy₀
        · subst hs'
          exact absurd hx₀ ((hC y s' he).2 x)
        · exact absurd hy₀ ((hC x s rfl).2 y)
        · cases he
          rfl
    · -- a commit: the task it starts is alone on its node
      have hnew : ∀ {t n row}, w'.db.tasks.rows t = some row → row.RunsOn n →
          w.db.tasks.rows t = some row ∨
            ∃ s, (starts log x).phase = .spawned c t s ∧ s.node = n := by
        intro t n row hrow hrun
        rw [htasks] at hrow
        exact h.claims.running_of_commit hpre hrow hrun
      have hon : ∀ {t s}, (starts log x).phase = .spawned c t s → StartsOn log x s.node :=
        fun {t s} hph => ⟨s, by rw [hph]; rfl, rfl⟩
      have hkeep : ∀ {y n}, StartsOn (.thread x (.performed (.commit c) ch r) :: log) y n →
          StartsOn log y n := by
        intro y n hy
        rcases startsOn_cons hy with hy | ⟨s, -, he⟩
        · exact hy
        · cases he
      refine ⟨hclaims, ?_, fun y n hy t row hrow hrun => ?_,
        fun y z n hy hz => h.alone y z n (hkeep hy) (hkeep hz)⟩
      · intro t t' n row row' hrow hrow' hrun hrun'
        rcases hnew hrow hrun with hold | ⟨s, hph, rfl⟩ <;>
          rcases hnew hrow' hrun' with hold' | ⟨s', hph', hs'⟩
        · exact h.single t t' n row row' hold hold' hrun hrun'
        · subst hs'
          exact absurd hrun (h.vacant x _ (hon hph') t row hold)
        · exact absurd hrun' (h.vacant x _ (hon hph) t' row' hold')
        · rw [hph] at hph'
          cases hph'
          rfl
      · rcases hnew hrow hrun with hold | ⟨s, hph, rfl⟩
        · exact h.vacant y n (hkeep hy) t row hold hrun
        · -- the start on that node is the one that is committed here
          cases h.alone x y _ (hon hph) (hkeep hy)
          obtain ⟨s', hs', -⟩ := hy
          rw [starts_self, step_commit] at hs'
          unfold StartState.committed at hs'
          rw [hph] at hs'
          dsimp only at hs'
          rw [if_pos rfl, hch] at hs'
          cases hs'

/-- **No double booking.** In a run in which machines are occupied while their
node is vacant, no two RUNNING tasks ever share a node. -/
theorem noDoubleBooking {cfg : Nat → Settings} {w : World} {q : State}
    (hlocks : ∀ t, w.db.tasks.locks t = none) (hsingle : w.db.NoDoubleBooking)
    (hrun : Run cfg OccupiesVacant (State.initial w) q) :
    q.world.db.NoDoubleBooking := by
  have hstart : Booked w [] :=
    ⟨.start w hlocks, hsingle, fun x n ⟨s, hs, _⟩ => (nomatch hs),
      fun x y n ⟨s, hs, _⟩ => (nomatch hs)⟩
  exact ((booked_sound cfg).invariant hrun (Pool.obeys_start w) hstart).2.single

/-- What is to be looked at when a machine of a node is occupied, if there are no
other tasks and no other workers. Unlike the condition itself it can be decided,
which is what a script needs that checks its own steps. -/
structure VacantAmong (ts : List TaskId) (xs : List Tid) (w : World) (log : Log) (x : Tid)
    (n : NodeId) : Prop where
  known : x ∈ xs
  vacant : ∀ t ∈ ts, ∀ row, w.db.tasks.rows t = some row → ¬ row.RunsOn n
  alone : ∀ y ∈ xs, ¬ StartsOn log y n

/-- **What is looked at is enough.** The scheduler creates no task, and nobody is
on a node who has not occupied a machine. -/
theorem occupiesVacant_of_among {cfg : Nat → Settings} {C : StepCondition} {w : World}
    {q : State} {ts : List TaskId} {xs : List Tid}
    (hlocks : ∀ t, w.db.tasks.locks t = none)
    (honly : ∀ t ∉ ts, w.db.tasks.rows t = none)
    (hlooks : ∀ w log x s, C w log (.thread x (.call (.occupy s) (.ok ()))) →
      VacantAmong ts xs w log x s.node)
    (hrun : Run cfg C (State.initial w) q) :
    Run cfg OccupiesVacant (State.initial w) q := by
  have hsound : Sound (system cfg) startProtocol C fun w log => ClaimsHold w log ∧
      w.db.TasksIn {t | t ∈ ts} ∧ ∀ y n, StartsOn log y n → y ∈ xs := by
    refine ⟨fun x j => program_runs (cfg x.proc) j, fun w log e w' ⟨hclaims, hin, hstarts⟩ hap hC =>
      ⟨(hclaims.step hap).1, (hclaims.step hap).2, tasksIn_step hin hap, fun y n hy => ?_⟩⟩
    rcases startsOn_cons hy with hy | ⟨s, -, rfl⟩
    · exact hstarts y n hy
    · exact (hlooks w log y s hC).known
  refine hsound.steps ?_ hrun (Pool.obeys_start w)
    ⟨.start w hlocks, fun t ht => ⟨honly t ht, hlocks t⟩, fun y n ⟨s, hs, _⟩ => nomatch hs⟩
  rintro w log e w' ⟨-, hin, hstarts⟩ hap hC x s rfl
  have hlook := hlooks w log x s hC
  refine ⟨fun t row hrow => ?_, fun y hy => hlook.alone y (hstarts y _ hy) hy⟩
  by_cases ht : t ∈ ts
  · exact hlook.vacant t ht row hrow
  · rw [(hin t ht).1] at hrow
    cases hrow

/-! ## A run in which it fails

Nothing fails in this run, and nothing is lost. The second worker has read
which machines are free before the first one starts its task there, and when it
goes on, the process of the first task has ended and the machine is FREE again.
The row of that task is still RUNNING, because nobody has consumed it yet. -/

/-- Tasks that are all TO_DO are on no node. -/
theorem Database.noDoubleBooking_ofLists {tasks : List TaskRow} {nodes : List NewNode}
    (h : ∀ row ∈ tasks, row.status = .toDo) : (Database.ofLists tasks nodes).NoDoubleBooking := by
  intro t t' n row row' hrow _ hon
  have htodo := h row (List.mem_of_getElem? hrow)
  rw [hon.1] at htodo
  cases htodo

namespace Booking

def engine : Engine := { name := "pcrystal", checkPname := some "Pcrystal", platforms := ["debian"] }

def settings : Nat → Settings := fun _ => { engines := [("pcrystal", engine)] }

def session : SessionId := ⟨1, 0⟩

def todo (t : TaskId) : TodoTask := { taskId := t, engine := "pcrystal", state := {} }

/-- One machine, and two tasks in the allocation queue. -/
def world : World where
  db := .ofLists
    [{ engine := "pcrystal", check := fieldCheck_toDo },
      { engine := "pcrystal", check := fieldCheck_toDo }]
    [{ hostname := "10.0.0.1", ncpus := some 4 }]
  procs _ := { Memory.ofSessions
      [(session, { machine := { nodeId := 1, platforms := ["debian"] } })] with
    queues := fun
      | .allocate => { queue := [(2, todo 2), (1, todo 1)] }
      | .connMachine | .deallocate | .consume => {} }

/-- The second worker reads which machines are free, then waits; the first one
starts its task there; the process ends and the monitor frees the machine; the
second worker goes on. Its snapshot of the database is older than the task that is
running there now, and nothing makes it look again. -/
def script : List (Move sig Tid Job World.Env) :=
  [.act (.spawn ⟨0, 2⟩ .allocateWorker), .drive ⟨0, 2⟩ 22,
   .act (.spawn ⟨0, 1⟩ .allocateWorker), .drive ⟨0, 1⟩ 62,
   .act (.env (.check 0 session engine (some false) none)),
   .act (.env (.react 0 session)), .drive ⟨0, 2⟩ 30]

/-- The node of both tasks is the same. -/
def doubleBooked (q : State) : Bool :=
  (q.world.db.tasks.rows 1).any (·.RunsOn 1) && (q.world.db.tasks.rows 2).any (·.RunsOn 1)

/-- The script can be played from the beginning to its end. -/
theorem script_plays : ((oneProcess.play (system settings) script
    (State.initial world)).map doubleBooked) = some true := by
  decide +kernel

end Booking

/-- **Double booking is reached in one process**, without any failure and without
any second daemon: it takes two allocation workers and a process that ends early. -/
theorem doubleBooking_reachable : ¬ ∀ (cfg : Nat → Settings) (p : Nat) (w : World)
    (q : State), (∀ t, w.db.tasks.locks t = none) → w.db.NoDoubleBooking →
    Run cfg (OneProcess p) (State.initial w) q → q.world.db.NoDoubleBooking := by
  intro h
  obtain ⟨q, hrun, hq⟩ := Script.exists_of_play Booking.script_plays
  have hsingle : Booking.world.db.NoDoubleBooking :=
    Database.noDoubleBooking_ofLists (by simp)
  have hnone := h Booking.settings 0 Booking.world q (fun _ => rfl) hsingle
    (hrun.mono fun _ _ _ => oneProcess_condition)
  simp only [Booking.doubleBooked, Bool.and_eq_true, Option.any_eq_true,
    decide_eq_true_eq] at hq
  obtain ⟨⟨row, hrow, hr⟩, row', hrow', hr'⟩ := hq
  exact absurd (hnone 1 2 1 row row' hrow hrow' hr hr') (by decide)

namespace Booking

/-- One machine, and one task in the allocation queue. Other modules use it for runs
in which there is nobody to disturb. -/
def quietWorld : World where
  db := .ofLists [{ engine := "pcrystal" }] [{ hostname := "10.0.0.1", ncpus := some 4 }]
  procs _ := { Memory.ofSessions
      [(session, { machine := { nodeId := 1, platforms := ["debian"] } })] with
    queues := fun
      | .allocate => { queue := [(1, todo 1)] }
      | .connMachine | .deallocate | .consume => {} }

/-- Two machines, and two tasks in the allocation queue. -/
def pairWorld : World where
  db := .ofLists
    [{ engine := "pcrystal", check := fieldCheck_toDo },
      { engine := "pcrystal", check := fieldCheck_toDo }]
    [{ hostname := "10.0.0.1", ncpus := some 4 }, { hostname := "10.0.0.2", ncpus := some 4 }]
  procs _ := { Memory.ofSessions
      [(session, { machine := { nodeId := 1, platforms := ["debian"] } }),
       (⟨2, 1⟩, { machine := { nodeId := 2, platforms := ["debian"] } })] with
    queues := fun
      | .allocate => { queue := [(2, todo 2), (1, todo 1)] }
      | .connMachine | .deallocate | .consume => {} }

def workers : List Tid := [⟨0, 1⟩, ⟨0, 2⟩]

/-- A script in which each machine is looked at when it is occupied. -/
def looking : Script sig World Tid World.Env where
  reply := usualReply
  check w log e := match e with
    | .thread x (.call (.occupy s) (.ok ())) =>
      workers.contains x &&
      [1, 2].all (fun t => (w.db.tasks.rows t).all fun row => !decide (row.RunsOn s.node)) &&
      workers.all fun y => (starts log y).phase.live.all fun s' => s'.node != s.node
    | _ => true

/-- What the script looks at is what is asked for, among its own tasks and workers.
-/
theorem looking_condition {w : World} {log : Log} {x : Tid} {s : SessionId}
    (h : looking.condition w log (.thread x (.call (.occupy s) (.ok ())))) :
    VacantAmong [1, 2] workers w log x s.node := by
  simp only [Script.condition, looking, Bool.and_eq_true, List.all_eq_true,
    List.contains_iff_mem] at h
  obtain ⟨⟨hknown, hvacant⟩, halone⟩ := h
  refine ⟨hknown, fun t ht row hrow => ?_, fun y hy ⟨s', hs', hn⟩ => ?_⟩
  · have hfree := hvacant t ht
    rw [hrow] at hfree
    simpa using hfree
  · have hother := halone y hy
    rw [hs'] at hother
    simp [hn] at hother

/-- Both tasks run, each on a machine of its own. -/
def bothStarted (q : State) : Bool :=
  (q.world.db.tasks.rows 1).any (·.RunsOn 1) && (q.world.db.tasks.rows 2).any (·.RunsOn 2)

/-- Both workers find both machines free; the first one starts its task, and the
second one finds the machine busy and goes on to the other. -/
theorem looking_plays : ((looking.play (system settings)
    [.act (.spawn ⟨0, 2⟩ .allocateWorker), .drive ⟨0, 2⟩ 22,
      .act (.spawn ⟨0, 1⟩ .allocateWorker), .drive ⟨0, 1⟩ 62, .drive ⟨0, 2⟩ 61]
    (State.initial pairWorld)).map bothStarted) = some true := by
  decide +kernel

end Booking

/-- Two tasks that are started on two machines at the same time. Both workers have
seen both machines as free, so it is the flag of the first one that sends the second
worker on, and the condition holds for both. -/
theorem noDoubleBooking_start : ∃ q,
    Run Booking.settings OccupiesVacant (State.initial Booking.pairWorld) q ∧
      Booking.bothStarted q = true ∧ q.world.db.NoDoubleBooking := by
  obtain ⟨q, hrun, hq⟩ := Script.exists_of_play Booking.looking_plays
  have honly : ∀ t ∉ [1, 2], Booking.pairWorld.db.tasks.rows t = none := by
    rintro ⟨k, hk⟩ ht
    have hk' : 2 ≤ k - 1 := by
      have h₁ : k ≠ 1 := fun he => ht (by subst he; exact List.mem_cons_self)
      have h₂ : k ≠ 2 := fun he => ht (by subst he; exact List.mem_cons_of_mem _ List.mem_cons_self)
      omega
    exact List.getElem?_eq_none hk'
  have hrun' := occupiesVacant_of_among (fun _ => rfl) honly
    (fun _ _ _ _ => Booking.looking_condition) hrun
  exact ⟨q, hrun', hq,
    noDoubleBooking (fun _ => rfl) (Database.noDoubleBooking_ofLists (by simp)) hrun'⟩

end Yascheduler
