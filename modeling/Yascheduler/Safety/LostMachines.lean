import Yascheduler.Application.Footprints
import Yascheduler.Async.Shared

/-!
# Tasks whose machine is gone

A tick of the consume loop that finds no session for the node of a task
counts a miss, and the task is abandoned when more than twenty are counted. A
machine that reconnects does not start the count again: the counter of a task
is never reset, so what is counted is not how long the machine has been gone
but how often it was missed altogether.

For a task whose machine stays away it is the same. A task whose machine came
back is abandoned for misses that were over, unless it is never missed more
than twenty times in all (`abandonsLost_iff`).

The counter is a number for each task in the memory of a daemon, and every worker
adds to the same one. So a run is looked at as a sequence of ticks, whoever has
made them, and each tick either finds the machine or misses it. The misses of a
task are what the counter says (`tick_spec`), and nothing but a tick changes it.
-/

namespace Yascheduler

open Store Async Shared

/-! ## Ticks

Two numbers can be read from a sequence of ticks: how often the machine was
missed, and how often in succession at the end. The code keeps the first and
its documentation speaks of the second. They are the same until the machine has
come back after a miss. -/

/-- One execution of `_task_consumer_consumer`. -/
abbrev Tick := Execution sig RunningTask

/-- The memory of the daemon; whatever else happens, the ticks of other tasks
included, has nothing to do with the counter of the task. So it may be left open
what that is. -/
def missMemory (t : TaskId) : Shared sig Memory where
  call now m c := m.call now c
  rely m m' := m'.machineNotFound t = m.machineNotFound t

/-- The tick is one of the task. -/
def Tick.of (t : TaskId) (x : Tick) : Bool := x.job.taskId = t

/-- The tick found no session for the node of its task. It is the first thing a tick
asks. -/
def Tick.absent (x : Tick) : Bool :=
  match x.trace with
  | .call (.getSession _) none :: _ => true
  | _ => false

/-- The tick took the machine to be gone for good: without a session, the
transaction that abandons the task is all there is to await. Whether that succeeds
is not asked. -/
def Tick.abandons (x : Tick) : Prop :=
  x.absent = true ∧ ∃ o r, .op o r ∈ x.trace

/-- How often the machine of a task was missed. This is what the code counts. -/
def misses (t : TaskId) (ticks : List Tick) : Nat :=
  ticks.countP fun x => x.of t && x.absent

/-- How many of the last ticks of a task missed its machine, one after the other.
This is what it is documented to count. -/
def streak (t : TaskId) (ticks : List Tick) : Nat :=
  ticks.foldl (fun k x => if x.of t then if x.absent then k + 1 else 0 else k) 0

/-- **A task is abandoned only after more than twenty consecutive misses.** The
ticks of other tasks may come in between. -/
def AbandonsLost (t : TaskId) (ticks : List Tick) : Prop :=
  ∀ before x after, ticks = before ++ x :: after → x.of t = true → x.abandons →
    20 < streak t (before ++ [x])

/-- The machine of the task was missed, and came back. Before that the two counts
are the same. -/
def CameBack (t : TaskId) (ticks : List Tick) : Prop :=
  ∃ first gone between back last, ticks = first ++ gone :: (between ++ back :: last) ∧
    (gone.of t = true ∧ gone.absent = true) ∧ back.of t = true ∧ back.absent = false

/-- Whenever the machine of a task is missed after it came back, it has been missed
at most twenty times altogether. It is a condition on what the ticks find, and not
on what they do about it. -/
def FewMisses (t : TaskId) (ticks : List Tick) : Prop :=
  ∀ before x after, ticks = before ++ x :: after → x.of t = true → x.absent = true →
    CameBack t before → misses t (before ++ [x]) ≤ 20

/-! ## Counting

How the two counts develop with one more tick is all that is used of them. As
long as the machine has not come back the streak has all the misses in it, and
after that it has those since, which are fewer. -/

section

variable {t : TaskId} {ticks : List Tick} {x : Tick}

/-- One more tick counts if it misses the machine. -/
theorem misses_concat : misses t (ticks ++ [x]) =
    misses t ticks + if x.of t && x.absent then 1 else 0 := by
  unfold misses
  rw [List.countP_append, List.countP_singleton]

/-- One miss more than later on. -/
theorem misses_lt {gone : Tick} (first : List Tick) {later rest : List Tick}
    (hgone : gone.of t = true ∧ gone.absent = true) (hlater : later.Sublist rest) :
    misses t later < misses t (first ++ gone :: rest) := by
  have hcount := hlater.countP_le (p := fun x => x.of t && x.absent)
  unfold misses
  rw [List.countP_append, List.countP_cons_of_pos (by simp [hgone])]
  omega

/-- One more tick continues the streak, ends it, or is one of another task. -/
theorem streak_concat : streak t (ticks ++ [x]) =
    if x.of t then if x.absent then streak t ticks + 1 else 0 else streak t ticks := by
  unfold streak
  rw [List.foldl_append]
  rfl

/-- Before the machine has come back once, every miss is one of the streak. By
induction on the ticks, since a session before the first miss ends no streak. -/
theorem streak_eq_misses (h : ¬ CameBack t ticks) : streak t ticks = misses t ticks := by
  induction ticks using List.reverseRecOn with
  | nil => rfl
  | append_singleton ticks y ih =>
    have hbefore : ¬ CameBack t ticks := by
      rintro ⟨first, gone, between, back, last, rfl, hgone, hback⟩
      exact h ⟨first, gone, between, back, last ++ [y], by simp, hgone, hback⟩
    rw [misses_concat, streak_concat, ih hbefore]
    cases ht : y.of t with
    | false => simp
    | true =>
      cases ha : y.absent with
      | true => simp
      | false =>
        -- the machine is there, so it was never missed
        have hnone : misses t ticks = 0 := by
          by_contra hne
          obtain ⟨gone, hmem, hgone⟩ := List.countP_pos_iff.mp (Nat.pos_of_ne_zero hne)
          obtain ⟨first, between, rfl⟩ := List.append_of_mem hmem
          exact h ⟨first, gone, between, y, [], by simp, by simpa using hgone, ht, ha⟩
        simp [hnone]

/-- After the machine has come back, the streak is at most what was missed since.
This is all that is needed of it there. -/
theorem streak_le_misses (first : List Tick) {back : Tick} (later : List Tick)
    (ht : back.of t = true) (ha : back.absent = false) :
    streak t (first ++ back :: later) ≤ misses t later := by
  induction later using List.reverseRecOn with
  | nil => rw [streak_concat, ht, ha]; exact Nat.zero_le _
  | append_singleton later y ih =>
    rw [← List.cons_append, ← List.append_assoc, streak_concat, misses_concat]
    cases hy : y.of t with
    | false => simpa using ih
    | true =>
      cases y.absent with
      | true => simpa using ih
      | false => simp

/-- The misses are reached one by one. So there is a tick with exactly one miss more
than allowed. -/
theorem exists_miss {k : Nat} (hpos : 0 < k) (hk : k ≤ misses t ticks) :
    ∃ before y after, ticks = before ++ y :: after ∧ y.of t = true ∧ y.absent = true ∧
      misses t (before ++ [y]) = k := by
  induction ticks using List.reverseRecOn with
  | nil => exact absurd hk (Nat.not_le.mpr hpos)
  | append_singleton ticks y ih =>
    by_cases hearly : k ≤ misses t ticks
    · obtain ⟨before, z, after, rfl, hz⟩ := ih hearly
      exact ⟨before, z, after ++ [y], by simp, hz⟩
    · rw [misses_concat] at hk
      have hmiss : (y.of t && y.absent) = true := by
        by_contra hne
        rw [if_neg hne] at hk
        exact hearly hk
      rw [if_pos hmiss] at hk
      obtain ⟨ht, ha⟩ := Bool.and_eq_true_iff.mp hmiss
      refine ⟨ticks, y, [], rfl, ht, ha, ?_⟩
      rw [misses_concat, if_pos hmiss]
      omega

end

/-! ## What a tick does

The first thing that a tick does is to ask for the session, and with this
answer it is known which of two branches it takes. Only the branch without a
session touches the counter. The other one can be passed over as a whole,
whatever happens in it. -/

/-- What is asked of the memory but the count of a miss leaves the counters alone.
There is no call that resets one. -/
theorem call_machineNotFound {c : Call} (h : ∀ t, c ≠ .notFoundUpdate t) (now : Nat)
    (m : Memory) : (m.call now c).2.machineNotFound = m.machineNotFound := by
  cases c with
  | notFoundUpdate t => exact absurd rfl (h t)
  | occupy s | trackerAdd t | trackerSetNode t n | failureSetdefault n =>
    simp only [Memory.call]
    split <;> rfl
  | _ => rfl

/-- A program that counts no miss leaves the counter alone. -/
theorem serves_machineNotFound {α : Type} {x : Prog α} {K : Set Effect} {t : TaskId}
    (hx : (scope K).Inside ∅ x) (hK : .miss ∉ K) {tr : Timed sig} {r : Except Exc α}
    (hends : Finishes x (tr.map Prod.snd) r) {m m' : Memory}
    (hserves : (missMemory t).Serves m tr m') : m'.machineNotFound t = m.machineNotFound t := by
  refine hserves.keeps (f := fun m => m.machineNotFound t) (fun now c a ha m => ?_)
    fun m m' (h : m'.machineNotFound t = m.machineNotFound t) => h
  refine congrFun (call_machineNotFound (fun t' he => hK ?_) now m) t
  have hcall := hx.sees _ _ hends (.call c a) (List.mem_map_of_mem (f := Prod.snd) ha) c a rfl
  exact hcall .miss (he ▸ rfl)

/-- The abandonment of a task awaits something. -/
theorem exists_op_abandonTask {cfg : Settings} {task : RunningTask} {tr : Trace sig}
    {r : Except Exc Unit} (h : Finishes (abandonTask cfg task) tr r) :
    ∃ o a, .op o a ∈ tr := by
  obtain ⟨k, hk⟩ : ∃ k, abandonTask cfg task = .await .connect k := ⟨_, rfl⟩
  rw [hk] at h
  obtain ⟨a, rest, rfl, -⟩ := h
  exact ⟨_, a, List.mem_cons_self⟩

section Tick

variable {cfg : Settings} {t : TaskId} {m m₁ : Memory} {x : Tick}

/-- **What a tick does**: it counts a miss of its task when there is no session, and
abandons the task when more than twenty are counted. Everything about runs follows
from this by induction. -/
theorem tick_spec (hends : Finishes (taskConsumerConsumer cfg x.job) x.trace x.result)
    (hserves : (missMemory t).Serves m x.answers m₁) :
    m₁.machineNotFound t = m.machineNotFound t + (if x.of t && x.absent then 1 else 0) ∧
    (x.of t = true → (x.abandons ↔ x.absent = true ∧ 20 < m.machineNotFound t + 1)) := by
  rw [taskConsumerConsumer_eq] at hends
  obtain ⟨found, rest, htr, hrest⟩ := hends
  obtain ⟨⟨now, _⟩, tr, hanswers, rfl, rfl⟩ := List.map_eq_cons_iff.mp htr
  rw [hanswers] at hserves
  cases found with
  | some s =>
    have habsent : x.absent = false := by rw [Tick.absent, htr]
    have hsame : m₁.machineNotFound t = m.machineNotFound t :=
      serves_machineNotFound (K := {.fetch, .finish, .markStarted, .startCheck})
        (inside_consumeAt cfg x.job s (by simp) (by simp) (by simp) (by simp)) (by simp)
        hrest hserves.2
    refine ⟨by rw [hsame, habsent, Bool.and_false]; rfl, fun _ => ?_⟩
    simp [Tick.abandons, habsent]
  | none =>
    have habsent : x.absent = true := by rw [Tick.absent, htr]
    change Finishes (machineGone cfg x.job) _ _ at hrest
    rw [machineGone_eq] at hrest
    obtain ⟨count, rest, htr₁, hrest⟩ := hrest
    obtain ⟨⟨now₁, _⟩, tr, rfl, rfl, rfl⟩ := List.map_eq_cons_iff.mp htr₁
    obtain ⟨-, rfl, hserves⟩ := hserves
    replace hrest : Finishes (if 20 < m.machineNotFound x.job.taskId + 1
      then abandonTask cfg x.job else .ret ()) (tr.map Prod.snd) x.result := hrest
    have hbump : (m.bumpNotFound x.job.taskId).machineNotFound t =
        m.machineNotFound t + if x.of t && x.absent then 1 else 0 := by
      show Function.update m.machineNotFound x.job.taskId
        (m.machineNotFound x.job.taskId + 1) t = _
      rw [habsent, Bool.and_true]
      by_cases ht : x.job.taskId = t
      · subst ht
        simp [Tick.of]
      · simp [Tick.of, ht, Function.update_of_ne (Ne.symm ht)]
    by_cases hgone : 20 < m.machineNotFound x.job.taskId + 1
    · rw [if_pos hgone] at hrest
      have hsame := serves_machineNotFound (K := {.finish})
        (inside_abandonTask cfg x.job (by simp)) (by simp) hrest hserves
      refine ⟨hsame.trans hbump, fun ht => ?_⟩
      obtain rfl := of_decide_eq_true ht
      refine ⟨fun _ => ⟨habsent, hgone⟩, fun _ => ⟨habsent, ?_⟩⟩
      obtain ⟨o, a, ha⟩ := exists_op_abandonTask hrest
      rw [htr]
      exact ⟨o, a, by simp [ha]⟩
    · rw [if_neg hgone] at hrest
      obtain ⟨hnil, -⟩ := hrest
      obtain rfl := List.map_eq_nil_iff.mp hnil
      obtain rfl := hserves
      refine ⟨hbump, fun ht => ?_⟩
      obtain rfl := of_decide_eq_true ht
      refine ⟨fun h => ?_, fun h => absurd h.2 hgone⟩
      obtain ⟨-, o, a, ha⟩ := h
      rw [htr] at ha
      simp at ha

end Tick

/-! ## Runs of ticks

Between the ticks of a task anything may happen, the ticks of other tasks
included, but nothing that changes its counter. So the counter is the number of
its misses, by induction on the ticks, and the comparison with the limit is one
of counts. -/

section Runs

variable {cfg : Settings} {t : TaskId} {m m' : Memory} {ticks : List Tick}

/-- The counter of a task is the number of its misses. A machine that comes back
leaves it where it is. -/
theorem machineNotFound_eq_misses
    (h : (missMemory t).Executes (taskConsumerConsumer cfg) m ticks m')
    (h0 : m.machineNotFound t = 0) : m'.machineNotFound t = misses t ticks := by
  refine h.induction_on (I := fun ticks m => m.machineNotFound t = misses t ticks) h0
    fun before x m m₁ m₂ hI hends hserves hrely => ?_
  change m₂.machineNotFound t = m₁.machineNotFound t at hrely
  rw [hrely, (tick_spec hends hserves).1, misses_concat, hI]

/-- **When a tick abandons its task**: when the machine has been missed more
than twenty times in all. -/
theorem abandons_iff (h : (missMemory t).Executes (taskConsumerConsumer cfg) m ticks m')
    (h0 : m.machineNotFound t = 0) {before after : List Tick} {x : Tick}
    (hticks : ticks = before ++ x :: after) (hx : x.of t = true) :
    x.abandons ↔ x.absent = true ∧ 20 < misses t (before ++ [x]) := by
  subst hticks
  obtain ⟨m₁, hbefore, m₂, m₃, hends, hserves, -, -⟩ := executes_append.mp h
  rw [(tick_spec hends hserves).2 hx, machineNotFound_eq_misses hbefore h0, misses_concat, hx]
  refine and_congr_right fun ha => ?_
  rw [ha]
  rfl

/-- **Machines that come back.** A task is abandoned only after more than twenty
consecutive misses if and only if it is not missed more than twenty times in all
once its machine came back. A machine that never comes back is abandoned in time
either way. -/
theorem abandonsLost_iff
    (h : (missMemory t).Executes (taskConsumerConsumer cfg) m ticks m')
    (h0 : m.machineNotFound t = 0) : AbandonsLost t ticks ↔ FewMisses t ticks := by
  constructor
  · intro hlost before x after hticks hx ha hback
    by_contra hmany
    rw [not_le] at hmany
    have hstreak := hlost before x after hticks hx
      ((abandons_iff h h0 hticks hx).mpr ⟨ha, hmany⟩)
    obtain ⟨first, gone, between, back, last, rfl, hgone, ht, hpresent⟩ := hback
    -- what was missed since counts alone, the twentieth time too
    have hsince : 20 < misses t (last ++ [x]) := by
      refine hstreak.trans_le ?_
      have := streak_le_misses (first ++ gone :: between) (last ++ [x]) ht hpresent
      simpa using this
    obtain ⟨mid, y, rest, hlast, hy, hya, hmid⟩ :=
      exists_miss (k := 20) (by decide) hsince.le
    have hsplit : ticks = (first ++ gone :: (between ++ back :: mid)) ++ y :: (rest ++ after) := by
      rw [hticks]
      have := congrArg (· ++ after) hlast
      simp only [List.append_assoc, List.cons_append, List.nil_append] at this ⊢
      rw [this]
    have hcount : 20 < misses t ((first ++ gone :: (between ++ back :: mid)) ++ [y]) := by
      have := misses_lt first hgone
        (List.sublist_append_right (between ++ [back]) (mid ++ [y]))
      simpa [hmid] using this
    have hlate := hlost _ y _ hsplit hy ((abandons_iff h h0 hsplit hy).mpr ⟨hya, hcount⟩)
    refine absurd hlate (Nat.not_lt.mpr ?_)
    have := streak_le_misses (first ++ gone :: between) (mid ++ [y]) ht hpresent
    simpa [hmid] using this
  · intro hfew before x after hticks hx habandons
    obtain ⟨ha, hmany⟩ := (abandons_iff h h0 hticks hx).mp habandons
    have hback : ¬ CameBack t before :=
      fun hback => absurd hmany (Nat.not_lt.mpr (hfew before x after hticks hx ha hback))
    rw [misses_concat, hx, ha] at hmany
    rw [streak_concat, hx, ha, streak_eq_misses hback]
    exact hmany

end Runs

/-! ## A machine that comes back -/

namespace LostMachines

def cfg : Settings := { webhooks := false }

def t : TaskId := ⟨1, Nat.one_pos⟩

def n : NodeId := ⟨1, Nat.one_pos⟩

def task : RunningTask where
  taskId := t
  engine := "pcrystal"
  state := { allocatedNodeId := n, remoteFolder := "tasks/1" }

def session : SessionId := { node := n, serial := 0 }

/-- The memory after so many misses. -/
def counted (k : Nat) : Memory :=
  { machineNotFound := Function.update (fun _ => 0) t k }

/-- A miss, when there were so many before. -/
def missed (k : Nat) : Tick where
  job := task
  answers := [(k, .call (.getSession n) none), (k, .call (.notFoundUpdate t) (k + 1 : Nat))]
  result := .ok ()

/-- The machine is back. -/
def present : Tick where
  job := task
  answers := [(20, .call (.getSession n) (some session)), (20, .call (.startedContains n) false),
    (20, .call (.machineState session) .free), (20, .call (.startedContains n) false)]
  result := .ok ()

/-- One more miss, and the task is abandoned. -/
def last : Tick where
  job := task
  answers := [(21, .call (.getSession n) none), (21, .call (.notFoundUpdate t) (21 : Nat)),
    (21, .op .connect (.ok (0 : Nat))), (21, .op (.begin 0) (.ok ())),
    (21, .op (.sql 0 (.taskUpdate task.abandon.anyDone none)) (.ok true)),
    (21, .call (.savedAppend 0 task.abandon.anyDone) ()), (21, .op (.commit 0) (.ok ())),
    (21, .call (.savedTake 0) [task.abandon.anyDone]), (21, .call (.savedClear 0) ()),
    (21, .op (.close 0) (.ok ())), (21, .call (.trackerDiscard t) ())]
  result := .ok ()

def ticks : List Tick := (List.range 19).map missed ++ [missed 19, present, last]

theorem update_counted (k : Nat) : Function.update (counted k).machineNotFound t (k + 1) =
    (counted (k + 1)).machineNotFound :=
  Function.update_idem ..

theorem count_counted (k : Nat) : (counted k).machineNotFound t = k := by
  show Function.update (fun _ => 0) t k t = k
  rw [Function.update_self]

/-- Awaiting changes nothing by itself. -/
theorem serves_op {m m' : Memory} {now : Nat} {o : Op} {r : Except Exc o.Res}
    {tr : Timed sig} (h : (missMemory t).Serves m tr m') :
    (missMemory t).Serves m ((now, .op o r) :: tr) m' :=
  ⟨m, rfl, h⟩

/-- One more miss, after which anything but the counters may change. -/
theorem executes_miss {k : Nat} {m' : Memory} (hk : k < 20)
    (hm : m'.machineNotFound t = k + 1) :
    (missMemory t).Executes (taskConsumerConsumer cfg) (counted k) [missed k] m' := by
  have hfew : ¬ 20 < k + 1 := by omega
  refine ⟨(counted k).bumpNotFound t, m', ⟨none, _, rfl, k + 1, [], rfl, ?_⟩,
    ⟨rfl, ?_, rfl⟩, ?_, rfl⟩
  · show Finishes (if 20 < k + 1 then _ else _) _ _
    rw [if_neg hfew]
    exact ⟨rfl, rfl⟩
  · show k + 1 = (counted k).machineNotFound t + 1
    rw [count_counted]
  · show m'.machineNotFound t =
      Function.update (counted k).machineNotFound t ((counted k).machineNotFound t + 1) t
    rw [hm, Function.update_self, count_counted]

/-- So many misses, one after the other. -/
theorem executes_missed {k : Nat} (hk : k < 20) :
    (missMemory t).Executes (taskConsumerConsumer cfg) (counted 0)
      ((List.range k).map missed) (counted k) := by
  induction k with
  | zero => rfl
  | succ k ih =>
    rw [List.range_succ, List.map_append]
    exact executes_append.mpr ⟨counted k, ih (Nat.lt_of_succ_lt hk),
      executes_miss (Nat.lt_of_succ_lt hk) rfl⟩

/-- What the last tick asks is answered so, and the counters are those after one
more miss. -/
theorem serves_last : ∃ m₁, (missMemory t).Serves (counted 20) last.answers m₁ ∧
    m₁.machineNotFound = (counted 21).machineNotFound := by
  have hcount : 21 = (counted 20).machineNotFound t + 1 := by rw [count_counted]
  have htaken : [task.abandon.anyDone] = (((counted 20).bumpNotFound t).modifySaved 0
      (· ++ [task.abandon.anyDone])).savedTasks 0 := rfl
  refine ⟨_, ⟨rfl, hcount, serves_op (serves_op (serves_op ⟨rfl, serves_op ⟨htaken, rfl,
    serves_op ⟨rfl, rfl⟩⟩⟩))⟩, ?_⟩
  show Function.update (counted 20).machineNotFound t ((counted 20).machineNotFound t + 1) = _
  rw [count_counted, update_counted]

/-- The misses, the return and the last miss are a run. -/
theorem executes_ticks :
    (missMemory t).Executes (taskConsumerConsumer cfg) (counted 0) ticks (counted 21) := by
  obtain ⟨m₁, hserves, hm⟩ := serves_last
  have hlast : Finishes (taskConsumerConsumer cfg last.job) last.trace last.result :=
    ⟨_, _, rfl, _, _, rfl, _, _, rfl, _, _, rfl, _, _, rfl, _, _, rfl, _, _, rfl, _, _, rfl,
      _, _, rfl, _, _, rfl, _, _, rfl, rfl, rfl⟩
  have hpresent : Finishes (taskConsumerConsumer cfg present.job) present.trace present.result :=
    ⟨_, _, rfl, _, _, rfl, _, _, rfl, _, _, rfl, rfl, rfl⟩
  have hback : (missMemory t).Executes (taskConsumerConsumer cfg)
      { counted 20 with registry := [(n, session)] } [present, last] (counted 21) :=
    ⟨_, counted 20, hpresent, ⟨rfl, rfl, rfl, rfl, rfl⟩, rfl, m₁, counted 21, hlast, hserves,
      (congrFun hm t).symm, rfl⟩
  have hmiss : (missMemory t).Executes (taskConsumerConsumer cfg) (counted 19) [missed 19]
      { counted 20 with registry := [(n, session)] } := executes_miss (by decide) rfl
  exact executes_append.mpr ⟨counted 19, executes_missed (by decide),
    executes_append.mpr ⟨_, hmiss, hback⟩⟩

end LostMachines

/-- The theorem at a machine that comes back after twenty misses. -/
theorem abandonsLost_ticks : AbandonsLost LostMachines.t LostMachines.ticks ↔
    FewMisses LostMachines.t LostMachines.ticks :=
  abandonsLost_iff LostMachines.executes_ticks (LostMachines.count_counted 0)

/-- A task is abandoned for a single miss: its machine was missed twenty times
before it was seen again. -/
theorem abandonsLost_back :
    (missMemory LostMachines.t).Executes (taskConsumerConsumer LostMachines.cfg) {}
        LostMachines.ticks (LostMachines.counted 21) ∧
      ¬ AbandonsLost LostMachines.t LostMachines.ticks := by
  have hrun := LostMachines.executes_ticks
  have hzero : LostMachines.counted 0 = {} := by
    unfold LostMachines.counted
    rw [Function.update_eq_self_iff.mpr rfl]
  refine ⟨hzero ▸ hrun, fun h => ?_⟩
  have hlast := h _ LostMachines.last []
    (show LostMachines.ticks = ((List.range 19).map LostMachines.missed ++
      [LostMachines.missed 19, LostMachines.present]) ++ [LostMachines.last] by
        simp [LostMachines.ticks]) rfl ⟨rfl, _, _, by
          show Answer.op Op.connect (.ok (0 : Nat)) ∈ LostMachines.last.trace
          simp [LostMachines.last, Execution.trace]⟩
  exact absurd hlast (by decide +kernel)

end Yascheduler
