import Yascheduler.Async.Footprint
import Yascheduler.Async.Invariant

/-!
# A coroutine on its own

When the outside world answers by a function of its state, there is one trace
of a coroutine, and `Solo.exec` computes it. The runs of a pool contain these
executions: a coroutine that nobody disturbs ends just as `exec` says
(`Solo.steps`).

That something happens can not be said of all runs, since a run may leave out
whatever a program was about to do. What can be said is that it happens when
nobody disturbs the program: nobody else runs in between, and every operation
ends as the outside world usually ends it. The end is then a function of the
world, and a statement about it is about this one execution.

`Solo.exec` is partial. It has no value where an operation cannot be resolved in
the world as it is – a lock that is taken, a queue that is full – and where that
is so is often the interesting part of a statement.
-/

namespace Async

open Co hiding bind

variable {S : Sig} {α β ρ : Type} {tr : Trace S} {r : Except S.Err α}

/-! ## Executions

The answers of the outside world depend on its state, so that a row that was
written is read again, and on nothing else. The rules are those of a big-step
semantics, one for each combinator, and a program is executed by rewriting with
them. -/

/-- **An outside world that answers by a function of its state.** It is for
statements about what a program does when nobody disturbs it. -/
structure Solo (S : Sig) (W : Type) where
  call : W → (c : S.Call) → S.Ans c × W
  /-- nothing, if the operation is never resolved -/
  perform : W → (o : S.Op) → Option (Except S.Err (S.Res o) × W)

namespace Solo

variable {W : Type} (E : Solo S W)

/-- The outcome, the trace, and the state of the outside world after it. It is
computed, so what a program does there can be rewritten step by step. -/
def exec : Co S α → W → Option (Except S.Err α × Trace S × W)
  | .ret a, w => some (.ok a, [], w)
  | .throw e, w => some (.error e, [], w)
  | .call c k, w =>
    let a := E.call w c
    (exec (k a.1) a.2).map fun e => (e.1, .call c a.1 :: e.2.1, e.2.2)
  | .await o k, w =>
    (E.perform w o).bind fun a =>
      (exec (k a.1) a.2).map fun e => (e.1, .op o a.1 :: e.2.1, e.2.2)

variable {E} {w w' : W}

variable {tr' : Trace S} {w'' : W}

/-- An operation that is resolved. -/
theorem exec_op {o : S.Op} {r : Except S.Err (S.Res o)} (h : E.perform w o = some (r, w')) :
    E.exec (op o) w = some (r, [.op o r], w') := by
  show (E.perform w o).bind _ = _
  rw [h]
  cases r <;> rfl

/-- **The second part starts where the first one ends**, and comes to no end if
that does not. -/
theorem exec_bind_ok {x : Co S α} {f : α → Co S β} {a : α}
    (hx : E.exec x w = some (.ok a, tr, w')) :
    E.exec (Co.bind x f) w = (E.exec (f a) w').map fun e => (e.1, tr ++ e.2.1, e.2.2) := by
  induction x generalizing w tr with
  | ret b =>
    cases hx
    exact Option.map_id'.symm
  | throw e => cases hx
  | call c k ih =>
    obtain ⟨⟨r₁, tr₁, w₁⟩, he, hr⟩ := Option.map_eq_some_iff.mp hx
    cases hr
    show (E.exec (Co.bind (k _) f) _).map _ = _
    rw [ih _ he, Option.map_map]
    rfl
  | await o k ih =>
    obtain ⟨b, hb, hk⟩ := Option.bind_eq_some_iff.mp hx
    obtain ⟨⟨r₁, tr₁, w₁⟩, he, hr⟩ := Option.map_eq_some_iff.mp hk
    cases hr
    show (E.perform w o).bind _ = _
    rw [hb]
    show (E.exec (Co.bind (k _) f) _).map _ = _
    rw [ih _ he, Option.map_map]
    rfl

/-- Two parts that end. -/
theorem exec_bind {x : Co S α} {f : α → Co S β} {a : α} {r : Except S.Err β}
    (hx : E.exec x w = some (.ok a, tr, w')) (hf : E.exec (f a) w' = some (r, tr', w'')) :
    E.exec (Co.bind x f) w = some (r, tr ++ tr', w'') := by
  rw [exec_bind_ok hx, hf]
  rfl

/-- An attempt that ends. -/
theorem exec_attempt {x : Co S α} (hx : E.exec x w = some (r, tr, w')) :
    E.exec (attempt x) w = some (.ok r, tr, w') := by
  induction x generalizing w tr with
  | ret b =>
    cases hx
    rfl
  | throw e =>
    cases hx
    rfl
  | call c k ih =>
    obtain ⟨⟨r₁, tr₁, w₁⟩, he, hr⟩ := Option.map_eq_some_iff.mp hx
    cases hr
    show (E.exec (attempt (k _)) _).map _ = _
    rw [ih _ he]
    rfl
  | await o k ih =>
    obtain ⟨b, hb, hk⟩ := Option.bind_eq_some_iff.mp hx
    obtain ⟨⟨r₁, tr₁, w₁⟩, he, hr⟩ := Option.map_eq_some_iff.mp hk
    cases hr
    show (E.perform w o).bind _ = _
    rw [hb]
    show (E.exec (attempt (k _)) _).map _ = _
    rw [ih _ he]
    rfl

/-- Nothing is asked for. -/
theorem exec_ofExcept (r : Except S.Err α) : E.exec (ofExcept r) w = some (r, [], w) := by
  cases r <;> rfl

/-- A guarded part that ends normally. -/
theorem exec_tryCatch {x : Co S α} {h : S.Err → Co S α} {a : α}
    (hx : E.exec x w = some (.ok a, tr, w')) :
    E.exec (tryCatch x h) w = some (.ok a, tr, w') := by
  unfold Co.tryCatch
  rw [← List.append_nil tr]
  exact exec_bind (exec_attempt hx) (rfl : E.exec (.ret a) w' = some (.ok a, [], w'))

/-- A context that is entered, and left normally. -/
theorem exec_asyncWith {enter : Co S ρ} {exit : ρ → Option S.Err → Co S Unit}
    {body : ρ → Co S α} {v : ρ} {tr₁ tr₂ tr₃ : Trace S} {w₁ w₂ w₃ : W}
    (h₁ : E.exec enter w = some (.ok v, tr₁, w₁)) (h₂ : E.exec (body v) w₁ = some (r, tr₂, w₂))
    (h₃ : E.exec (exit v (errorOf r)) w₂ = some (.ok (), tr₃, w₃)) :
    E.exec (asyncWith enter exit body) w = some (r, tr₁ ++ (tr₂ ++ tr₃), w₃) := by
  have hlast := exec_bind (f := fun _ => ofExcept r) h₃ (exec_ofExcept r)
  rw [List.append_nil] at hlast
  exact exec_bind h₁ (exec_bind (exec_attempt h₂) hlast)

/-! ## Outcomes

The trace of an execution is long and seldom of interest; the outcome says what
is left of the world. It is nothing where the program waits for something that
does not come. -/

/-- The outcome, and the state of the outside world after it; nothing, if the
coroutine waits for an operation that is never resolved. -/
def outcome (E : Solo S W) (x : Co S α) (w : W) : Option (Except S.Err α × W) :=
  (E.exec x w).map fun e => (e.1, e.2.2)

/-- The outcome is that of the execution. -/
theorem outcome_of_exec {x : Co S α} (h : E.exec x w = some (r, tr, w')) :
    E.outcome x w = some (r, w') := by
  unfold outcome
  rw [h]
  rfl

/-- After a first part it is a matter of the second. -/
theorem outcome_bind {x : Co S α} {f : α → Co S β} {a : α}
    (hx : E.outcome x w = some (.ok a, w')) :
    E.outcome (Co.bind x f) w = E.outcome (f a) w' := by
  obtain ⟨⟨r, tr, w₁⟩, he, hr⟩ := Option.map_eq_some_iff.mp hx
  cases hr
  unfold outcome
  rw [exec_bind_ok he, Option.map_map]
  rfl

/-- A first part that comes to no end. -/
theorem exec_bind_none {x : Co S α} {f : α → Co S β} (hx : E.exec x w = none) :
    E.exec (Co.bind x f) w = none := by
  induction x generalizing w with
  | ret b => cases hx
  | throw e => cases hx
  | call c k ih => exact Option.map_eq_none_iff.mpr (ih _ (Option.map_eq_none_iff.mp hx))
  | await o k ih =>
    have hx' : (E.perform w o).bind (fun a =>
      (E.exec (k a.1) a.2).map fun e => (e.1, .op o a.1 :: e.2.1, e.2.2)) = none := hx
    show (E.perform w o).bind _ = none
    cases hp : E.perform w o with
    | none => rfl
    | some a =>
      rw [hp] at hx'
      exact Option.map_eq_none_iff.mpr (ih _ (Option.map_eq_none_iff.mp hx'))

theorem outcome_bind_none {x : Co S α} {f : α → Co S β} (hx : E.outcome x w = none) :
    E.outcome (Co.bind x f) w = none :=
  Option.map_eq_none_iff.mpr (exec_bind_none (Option.map_eq_none_iff.mp hx))

/-- **Two outside worlds that answer alike inside a footprint** execute the
programs inside it alike. -/
theorem exec_of_inside {N : Type} {F : Footprint S N} {G : Solo S W} {own : Set N}
    (hcall : ∀ w c, F.call c → G.call w c = E.call w c)
    (hperform : ∀ w o, F.op o → G.perform w o = E.perform w o) {x : Co S α}
    (hx : F.Inside own x) : G.exec x w = E.exec x w := by
  induction x generalizing w own with
  | ret a => rfl
  | throw e => rfl
  | call c k ih =>
    show (G.exec (k _) _).map _ = (E.exec (k _) _).map _
    rw [hcall w c hx.1, ih _ (hx.2 _)]
  | await o k ih =>
    show (G.perform w o).bind _ = (E.perform w o).bind _
    rw [hperform w o hx.1.1]
    refine Option.bind_congr fun a _ => ?_
    rw [ih _ (hx.2 _)]

end Solo

/-! ## Executions as runs of the pool

An execution is a computation outside of the pool. It says something about the
system only because the pool can do the same: it starts the job, resolves each
of its operations as the execution does, and resumes it at once. The proof
follows the tree of the program, as the execution does. -/

section

variable {W T Λ J V : Type} [DecidableEq T] [DecidableEq Λ] {H : Host S W T Λ J V}
  {p : Pool S W T Λ V} {t : T}

/-- The world as a coroutine meets it that nobody disturbs: every operation is
resolved as `reply` says. -/
def Host.solo (H : Host S W T Λ J V) (t : T) (reply : S.Op → S.Choice) : Solo S W where
  call w c := H.call w t c
  perform w o := H.perform w t o (reply o)

/-- The coroutine has come to a point of its program, and its loop is not busy
with another one. -/
structure Pool.At (H : Host S W T Λ J V) (p : Pool S W T Λ V) (t : T) (x : Co S Unit)
    (w : W) : Prop where
  thread : p.threads t = some (.settle x)
  current : p.current (H.loop t) = if (Thread.settle x).isRunning then some t else none
  world : p.world = w

/-- A coroutine that is put somewhere is there. -/
theorem Pool.At.put (x : Co S Unit) : (p.put H t (.settle x)).At H t x p.world where
  thread := p.put_threads_self H t _
  current := p.put_current_self H t _
  world := rfl

/-- **A coroutine that nobody disturbs ends as its execution says.** So what is
computed of it is a run of the pool, and not only a story about the program. -/
theorem Solo.steps {reply : S.Op → S.Choice} {x : Co S Unit} {r : Except S.Err Unit}
    {w w' : W} (h : (H.solo t reply).exec x w = some (r, tr, w')) (hp : p.At H t x w) :
    ∃ q, Steps H (fun _ _ _ => True) p q ∧ q.threads t = some (.finished r) ∧
      q.world = w' := by
  obtain rfl := hp.world
  induction x generalizing p tr with
  | ret a =>
    cases h
    exact ⟨p, .refl p, hp.thread, rfl⟩
  | throw e =>
    cases h
    exact ⟨p, .refl p, hp.thread, rfl⟩
  | call c k ih =>
    obtain ⟨⟨r₁, tr₁, w₁⟩, he, hr⟩ := Option.map_eq_some_iff.mp h
    cases hr
    let a := H.call p.world t c
    let p₁ := (p.record a.2 (.thread t (.call c a.1))).put H t (.settle (k a.1))
    have hstep : p.step H (.exec t) = some p₁ := by
      simp only [Pool.step, hp.thread, Thread.settle]
      rfl
    obtain ⟨q, hq, hend⟩ := ih a.1 (p := p₁) he (Pool.At.put _)
    exact ⟨q, (Steps.tail _ (.refl p) hstep fun _ _ => trivial).trans hq, hend⟩
  | await o k ih =>
    obtain ⟨⟨a, w₀⟩, hperf, hk⟩ := Option.bind_eq_some_iff.mp h
    obtain ⟨⟨r₁, tr₁, w₁⟩, he, hr⟩ := Option.map_eq_some_iff.mp hk
    cases hr
    have hidle : p.current (H.loop t) = none := hp.current
    -- the operation is resolved, and the loop resumes the coroutine
    let p₁ : Pool S W T Λ V := { p.record w₀ (.thread t (.performed o (reply o) a)) with
      threads := Function.update p.threads t (some (.ready o a k)) }
    have hstep₁ : p.step H (.perform t (reply o)) = some p₁ := by
      have hperf' : H.perform p.world t o (reply o) = some (a, w₀) := hperf
      simp only [Pool.step, hp.thread, Thread.settle, hidle, Option.isNone_none, Bool.or_true,
        if_true, hperf', Option.map_some, p₁]
    have hstep₂ : p₁.step H (.resume t) = some (p₁.put H t (.settle (k a))) := by
      have hthread : p₁.threads t = some (.ready o a k) := Function.update_self ..
      have hcurrent : p₁.current (H.loop t) = none := hidle
      simp only [Pool.step, hthread, hcurrent]
    obtain ⟨q, hq, hend⟩ := ih a (p := p₁.put H t (.settle (k a))) he (Pool.At.put _)
    refine ⟨q, ((Steps.tail _ (.refl p) hstep₁ fun _ _ => trivial).trans ?_).trans hq, hend⟩
    exact .tail _ (.refl p₁) hstep₂ fun _ _ => trivial

/-- **A job that nobody disturbs** is a run of the pool. It begins with the creation
of the coroutine and ends when it has ended. -/
theorem Solo.job_steps {reply : S.Op → S.Choice} {j : J} {r : Except S.Err Unit} {w' : W}
    (h : (H.solo t reply).exec (H.program t j) p.world = some (r, tr, w'))
    (hnew : p.threads t = none) (hidle : p.current (H.loop t) = none) :
    ∃ q, Steps H (fun _ _ _ => True) p q ∧ q.threads t = some (.finished r) ∧
      q.world = w' := by
  have hspawn : p.step H (.spawn t j) = some (p.put H t (.settle (H.program t j))) := by
    simp only [Pool.step, hnew, hidle]
  obtain ⟨q, hq, hend⟩ := Solo.steps h (p := p.put H t _) (Pool.At.put _)
  exact ⟨q, (Steps.tail _ (.refl p) hspawn fun _ _ => trivial).trans hq, hend⟩

end

end Async
