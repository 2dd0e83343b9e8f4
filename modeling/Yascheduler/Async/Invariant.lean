import Yascheduler.Async.Pool

/-!
# Invariants of interleaved runs

The local state of a coroutine is computed from its own entries of the log,
so nothing another coroutine does can change it. A pool *obeys* a protocol
when every coroutine, wherever it stands, still satisfies the weakest
precondition of what is left of its program; this is kept by every step as
soon as the programs of the jobs obey the protocol from their start.

What can happen next is then independent of the programs: a call made in a
local state that allows it, an operation resolved in a local state that
allows it, a cancellation, a reclaimed resource, an event of the environment.
`Happens` says this once, `Sound` is what an invariance proof has to show
about it, and `Sound.invariant` is the induction over the run.

## Two programs in one

A coroutine whose operation is resolved is not resumed at once, and may be
cancelled in between. So what is left of it is one of two programs: the one that
goes on with the result, and the one that goes on with the cancellation, in the
local state before the operation. It obeys the protocol if both do, and which of
them it was is known only when it is resumed. This is why `Thread.Obeys` asks
for two preconditions of a coroutine that is ready, and why `Awaited` still
knows of the operation after it was resolved.
-/

namespace Async

open Co hiding bind

variable {S : Sig} {L W T Λ J E : Type} [DecidableEq T] [DecidableEq Λ]

namespace Protocol

variable (P : Protocol S L)

/-- The local state of a coroutine after the entries of a log. -/
def localState (log : List (Entry S T E)) (t : T) : L :=
  log.foldr (fun e l => match e with
    | .thread t' ev => if t' = t then P.step ev l else l
    | .env _ => l) P.init

@[simp] theorem localState_nil (t : T) :
    P.localState ([] : List (Entry S T E)) t = P.init := rfl

@[simp] theorem localState_env (log : List (Entry S T E)) (e : E) (t : T) :
    P.localState (.env e :: log) t = P.localState log t := rfl

@[simp] theorem localState_self (log : List (Entry S T E)) (ev : Event S) (t : T) :
    P.localState (.thread t ev :: log) t = P.step ev (P.localState log t) :=
  if_pos rfl

@[simp] theorem localState_ne (log : List (Entry S T E)) (ev : Event S)
    {t t' : T} (h : t' ≠ t) :
    P.localState (.thread t' ev :: log) t = P.localState log t :=
  if_neg h

/-- A coroutine that has done nothing is in the initial local state. -/
theorem localState_of_absent {log : List (Entry S T E)} {t : T}
    (h : ∀ ev, .thread t ev ∉ log) : P.localState log t = P.init := by
  induction log with
  | nil => rfl
  | cons e log ih =>
    have hlog : P.localState log t = P.init :=
      ih fun ev hev => h ev (List.mem_cons_of_mem _ hev)
    cases e with
    | env e => exact hlog
    | thread t' ev =>
      have ht : t' ≠ t := by
        rintro rfl
        exact h ev List.mem_cons_self
      rw [P.localState_ne _ _ ht]
      exact hlog

end Protocol

/-- The operation is being awaited, or was resolved by the latest event. A
cancellation may come in both cases. -/
def Protocol.Awaited (P : Protocol S L) (o : S.Op) (l : L) : Prop :=
  P.awaitPre o l ∨
    ∃ ch r l₀, P.awaitPre o l₀ ∧ l = P.step (.performed o ch r) l₀

/-- What is left of the program of a coroutine obeys the protocol. A result that
waits may still be replaced by a cancellation, so both continuations have to. -/
def Thread.Obeys (P : Protocol S L) (l : L) : Thread S → Prop
  | .running c k => P.Runs (.call c k) l
  | .waiting o k => P.Runs (.await o k) l
  | .ready o r k => P.rest l ∧ P.Runs (k r) l ∧
      P.Runs (k (.error S.cancelled)) (P.step (.interrupted o) l) ∧ P.Awaited o l
  | .cancelling _ k => P.rest l ∧ P.Runs (k (.error S.cancelled)) l
  | .finished _ => P.rest l ∧ P.post l

/-- **Every coroutine of the pool obeys the protocol.** It is said of where each of
them stands, with what is left of its program. -/
structure Pool.Obeys (H : Host S W T Λ J E) (P : Protocol S L)
    (p : Pool S W T Λ E) : Prop where
  thread : ∀ t th, p.threads t = some th → th.Obeys P (P.localState p.log t)
  unborn : ∀ t, p.threads t = none → P.localState p.log t = P.init
  busy : ∀ t c k, p.threads t = some (.running c k) → p.current (H.loop t) = some t

variable {H : Host S W T Λ J E} {P : Protocol S L} {p q : Pool S W T Λ E}

omit [DecidableEq Λ] in
/-- Nothing has been started. -/
theorem Pool.obeys_start (w : W) : (Pool.start w : Pool S W T Λ E).Obeys H P where
  thread _ _ h := by cases h
  unborn _ _ := rfl
  busy _ _ _ h := by cases h

/-- What is left of a program obeys the protocol wherever it is cut. -/
theorem Thread.settle_obeys {x : Co S Unit} {l : L} (h : P.Runs x l) :
    (Thread.settle x).Obeys P l := by
  cases x <;> exact h

theorem Thread.settle_running {x : Co S Unit} {c : S.Call} {k}
    (h : Thread.settle x = .running c k) : (Thread.settle x).isRunning = true := by
  rw [h]
  rfl

omit [DecidableEq Λ] in
/-- A coroutine that is not the one its loop is running is at rest. -/
theorem Pool.Obeys.rest (h : p.Obeys H P) {t : T}
    (ht : p.current (H.loop t) ≠ some t) : P.rest (P.localState p.log t) := by
  cases hth : p.threads t with
  | none => rw [h.unborn t hth]; exact P.rest_init
  | some th =>
    have hobs := h.thread t th hth
    cases th with
    | running c k => exact absurd (h.busy t c k hth) ht
    | waiting o k => exact hobs.1.2
    | ready o r k => exact hobs.1
    | cancelling o k => exact hobs.1
    | finished r => exact hobs.1

/-- Putting a coroutine that obeys the protocol in the place of another. -/
theorem Pool.Obeys.put {t : T} {x : Co S Unit}
    (hother : ∀ t' th, t' ≠ t → p.threads t' = some th →
      th.Obeys P (P.localState p.log t'))
    (hunborn : ∀ t', t' ≠ t → p.threads t' = none → P.localState p.log t' = P.init)
    (hbusy : ∀ t' c k, t' ≠ t → p.threads t' = some (.running c k) →
      p.current (H.loop t') = some t')
    (hcur : ∀ t', p.current (H.loop t) = some t' → t' = t)
    (hx : P.Runs x (P.localState p.log t)) :
    (p.put H t (.settle x)).Obeys H P where
  thread t' th h := by
    by_cases htt : t' = t
    · subst htt
      rw [Pool.put_threads_self, Option.some.injEq] at h
      rw [← h]
      exact Thread.settle_obeys hx
    · rw [Pool.put_threads_ne _ _ _ _ htt] at h
      exact hother t' th htt h
  unborn t' h := by
    by_cases htt : t' = t
    · subst htt
      rw [Pool.put_threads_self] at h
      cases h
    · rw [Pool.put_threads_ne _ _ _ _ htt] at h
      exact hunborn t' htt h
  busy t' c k h := by
    by_cases htt : t' = t
    · subst htt
      rw [Pool.put_threads_self, Option.some.injEq] at h
      rw [Pool.put_current_self, if_pos (Thread.settle_running h)]
    · rw [Pool.put_threads_ne _ _ _ _ htt] at h
      have hc := hbusy t' c k htt h
      by_cases hl : H.loop t' = H.loop t
      · rw [hl] at hc
        exact absurd (hcur t' hc) htt
      · rw [Pool.put_current_ne _ _ _ _ hl]
        exact hc

omit [DecidableEq Λ] in
/-- Replacing a suspended coroutine by another suspended form of it, and
recording an entry about it. -/
theorem Pool.Obeys.suspend (h : p.Obeys H P) {t : T} {th : Thread S}
    (w : W) (ev : Event S) (hr : th.isRunning = false)
    (hth : th.Obeys P (P.step ev (P.localState p.log t))) :
    Pool.Obeys H P { p.record w (.thread t ev) with
      threads := Function.update p.threads t (some th) } where
  thread t' th' h' := by
    by_cases htt : t' = t
    · subst htt
      simp only [Function.update_self, Option.some.injEq] at h'
      subst h'
      rw [Pool.record_log, P.localState_self]
      exact hth
    · simp only [Function.update_of_ne htt] at h'
      rw [Pool.record_log, P.localState_ne _ _ (Ne.symm htt)]
      exact h.thread t' th' h'
  unborn t' h' := by
    by_cases htt : t' = t
    · subst htt
      simp only [Function.update_self, reduceCtorEq] at h'
    · simp only [Function.update_of_ne htt] at h'
      rw [Pool.record_log, P.localState_ne _ _ (Ne.symm htt)]
      exact h.unborn t' h'
  busy t' c k h' := by
    by_cases htt : t' = t
    · subst htt
      simp only [Function.update_self, Option.some.injEq] at h'
      subst h'
      cases hr
    · simp only [Function.update_of_ne htt] at h'
      exact h.busy t' c k h'

/-! ## What can happen

Most of what a pool does is scheduling: which coroutine goes on, and from
where. None of that is seen by an invariant of the world. So the actions are
turned into what they record, and a proof about the world meets each call, each
operation and each event of the environment once.

The lemmas come one for each action. They say that what is left of the program
still obeys the protocol, which is a matter of following its tree by one node,
and that what was recorded is allowed. -/

/-- **What can happen next** in a world, after a log, if every coroutine obeys the
protocol: an entry of the log, and the world after it. No program is mentioned any
more, so an invariant is proved without looking at programs. -/
inductive Happens (H : Host S W T Λ J E) (P : Protocol S L) (w : W)
    (log : List (Entry S T E)) : Entry S T E → W → Prop where
  /-- a coroutine that may make the call makes it; the others of its loop are
  at rest -/
  | call (t : T) (c : S.Call) (hpre : P.callPre c (P.localState log t))
      (hrest : ∀ t', t' ≠ t → H.loop t' = H.loop t → P.rest (P.localState log t')) :
      Happens H P w log (.thread t (.call c (H.call w t c).1)) (H.call w t c).2
  /-- an operation that may be awaited is resolved, on its loop only while
  everything there is at rest -/
  | perform (t : T) (o : S.Op) (ch : S.Choice) (r : Except S.Err (S.Res o)) (w' : W)
      (hpre : P.awaitPre o (P.localState log t)) (hself : P.rest (P.localState log t))
      (hrest : H.offLoop o = false → ∀ t', H.loop t' = H.loop t →
        P.rest (P.localState log t'))
      (hperf : H.perform w t o ch = some (r, w')) :
      Happens H P w log (.thread t (.performed o ch r)) w'
  /-- a coroutine is cancelled that awaits the operation -/
  | interrupt (t : T) (o : S.Op) (hwait : P.Awaited o (P.localState log t)) :
      Happens H P w log (.thread t (.interrupted o)) w
  /-- a coroutine that has ended is reclaimed -/
  | reap (t : T) (ch : S.Choice) (w' : W) (hself : P.rest (P.localState log t))
      (hpost : P.post (P.localState log t)) (hreap : H.reap w t ch = some w') :
      Happens H P w log (.thread t (.reaped ch)) w'
  | env (e : E) (w' : W)
      (hrest : ∀ ℓ, H.envLoop e = some ℓ → ∀ t, H.loop t = ℓ →
        P.rest (P.localState log t))
      (henv : H.env w e = some w') : Happens H P w log (.env e) w'

omit [DecidableEq Λ] in
/-- What is known of a call that happens. -/
theorem Happens.of_call {w w' : W} {log : List (Entry S T E)} {t : T} {c : S.Call}
    {r : S.Ans c} (h : Happens H P w log (.thread t (.call c r)) w') :
    P.callPre c (P.localState log t) ∧ r = (H.call w t c).1 ∧ w' = (H.call w t c).2 ∧
      ∀ t', t' ≠ t → H.loop t' = H.loop t → P.rest (P.localState log t') := by
  generalize he : Entry.thread t (.call c r) = e at h
  cases h with
  | call t' c' hpre hrest =>
    injection he with ht hev
    injection hev with hc hr
    subst ht hc
    exact ⟨hpre, eq_of_heq hr, rfl, hrest⟩
  | _ => cases he

omit [DecidableEq Λ] in
/-- What is known of an operation that is resolved. -/
theorem Happens.of_performed {w w' : W} {log : List (Entry S T E)} {t : T} {o : S.Op}
    {ch : S.Choice} {r : Except S.Err (S.Res o)}
    (h : Happens H P w log (.thread t (.performed o ch r)) w') :
    P.awaitPre o (P.localState log t) ∧ H.perform w t o ch = some (r, w') ∧
      (H.offLoop o = false → ∀ t', H.loop t' = H.loop t →
        P.rest (P.localState log t')) := by
  cases h with
  | perform _ _ _ _ _ hpre _ hrest hperf => exact ⟨hpre, hperf, hrest⟩

/-- The protocol allows the event in the local state. -/
def Protocol.Allows (P : Protocol S L) (l : L) : Event S → Prop
  | .call c _ => P.callPre c l
  | .performed o _ _ => P.awaitPre o l
  | .interrupted o => P.Awaited o l
  | .reaped _ => P.post l

omit [DecidableEq Λ] in
/-- Only what is allowed can happen. -/
theorem Happens.allows {w w' : W} {log : List (Entry S T E)} {t : T} {ev : Event S}
    (h : Happens H P w log (.thread t ev) w') : P.Allows (P.localState log t) ev := by
  cases h with
  | call _ c hpre _ => exact hpre
  | perform _ o ch r _ hpre _ _ _ => exact hpre
  | interrupt _ o hwait => exact hwait
  | reap _ ch _ _ hpost _ => exact hpost

/-- The answer of an entry is one the protocol expects. -/
def Protocol.Answers (P : Protocol S L) (log : List (Entry S T E)) :
    Entry S T E → Prop
  | .thread t (.call c r) => P.callAns c (P.localState log t) r
  | .thread t (.performed o ch r) => P.opRes o (P.localState log t) ch r
  | _ => True

/-- **What a step leads to**: the coroutines still obey the protocol, and what is
recorded, if anything is, can happen. -/
def Pool.Obeys.Leads (H : Host S W T Λ J E) (P : Protocol S L) (p q : Pool S W T Λ E) : Prop :=
  q.Obeys H P ∧ (q.world = p.world ∧ q.log = p.log ∨
    ∃ e, q.log = e :: p.log ∧ Happens H P p.world p.log e q.world)

section

variable (hp : p.Obeys H P)
include hp

/-- A coroutine starts to run, or goes on, on a loop that is idle. -/
theorem Pool.Obeys.put_idle {t : T} {x : Co S Unit} (hcur : p.current (H.loop t) = none)
    (hx : P.Runs x (P.localState p.log t)) : Leads H P p (p.put H t (.settle x)) :=
  ⟨Pool.Obeys.put (fun t' th _ => hp.thread t' th) (fun t' _ => hp.unborn t')
    (fun t' c k _ => hp.busy t' c k) (fun t' h => by rw [hcur] at h; cases h) hx, .inl ⟨rfl, rfl⟩⟩

/-- A coroutine is created, and runs up to its first call or await. -/
theorem Pool.Obeys.step_spawn {t : T} {j : J} (hjob : P.Runs (H.program t j) P.init)
    (hstep : p.step H (.spawn t j) = some q) : Leads H P p q := by
  simp only [Pool.step] at hstep
  split at hstep <;> cases hstep
  rename_i hth hcur
  refine hp.put_idle hcur ?_
  rw [hp.unborn t hth]
  exact hjob

/-- A coroutine goes on with a result. -/
theorem Pool.Obeys.step_resume {t : T} (hstep : p.step H (.resume t) = some q) :
    Leads H P p q := by
  simp only [Pool.step] at hstep
  split at hstep <;> cases hstep
  · rename_i o r k hth hcur
    exact hp.put_idle hcur (hp.thread t _ hth).2.1
  · rename_i o k hth hcur
    exact hp.put_idle hcur (hp.thread t _ hth).2

/-- A coroutine is cancelled where it waits. -/
theorem Pool.Obeys.step_interrupt {t : T} (hstep : p.step H (.interrupt t) = some q) :
    Leads H P p q := by
  simp only [Pool.step] at hstep
  split at hstep <;> cases hstep
  · rename_i o k hth
    have hrun := hp.thread t _ hth
    refine ⟨hp.suspend p.world _ rfl ⟨?_, ?_⟩, .inr ⟨_, rfl, .interrupt t o (.inl hrun.1.1)⟩⟩
    · exact P.rest_step _ _ (fun c r h => by cases h) hrun.1.2
    · exact hrun.2 _ _ (.inr ⟨rfl, rfl⟩)
  · rename_i o r k hth
    have hrun := hp.thread t _ hth
    refine ⟨hp.suspend p.world _ rfl ⟨?_, hrun.2.2.1⟩,
      .inr ⟨_, rfl, .interrupt t o hrun.2.2.2⟩⟩
    exact P.rest_step _ _ (fun c r h => by cases h) hrun.1

/-- A resource that an ended coroutine has left behind is reclaimed. -/
theorem Pool.Obeys.step_reap {t : T} {ch : S.Choice} (hstep : p.step H (.reap t ch) = some q) :
    Leads H P p q := by
  simp only [Pool.step] at hstep
  split at hstep
  · rename_i r hth
    obtain ⟨w', hre, hq⟩ := Option.map_eq_some_iff.mp hstep
    cases hq
    have hrest := hp.thread t _ hth
    have hend : Thread.Obeys P (P.step (.reaped ch) (P.localState p.log t)) (.finished r) :=
      ⟨P.rest_step _ _ (fun c r h => by cases h) hrest.1, P.post_reaped _ _ hrest.2⟩
    have hkeep := hp.suspend w' (.reaped ch) rfl hend
    rw [← hth, Function.update_eq_self] at hkeep
    exact ⟨hkeep, .inr ⟨_, rfl, .reap t ch w' hrest.1 hrest.2 hre⟩⟩
  · cases hstep

/-- Something happens outside. -/
theorem Pool.Obeys.step_env {e : E} (hstep : p.step H (.env e) = some q) : Leads H P p q := by
  simp only [Pool.step] at hstep
  split at hstep
  · rename_i hloop
    obtain ⟨w', he, hq⟩ := Option.map_eq_some_iff.mp hstep
    cases hq
    refine ⟨⟨fun t th h => ?_, fun t h => ?_, hp.busy⟩, .inr ⟨_, rfl, .env e w' ?_ he⟩⟩
    · exact hp.thread t th h
    · exact hp.unborn t h
    · intro ℓ hℓ t ht
      rw [hℓ] at hloop
      refine hp.rest ?_
      rw [ht, Option.isNone_iff_eq_none.mp hloop]
      exact fun h => by cases h
  · cases hstep

variable (hans : ∀ e w', q.log = e :: p.log → Happens H P p.world p.log e w' →
  P.Answers p.log e)
include hans

/-- A coroutine makes its call. -/
theorem Pool.Obeys.step_exec {t : T} (hstep : p.step H (.exec t) = some q) :
    Leads H P p q := by
  simp only [Pool.step] at hstep
  split at hstep <;> cases hstep
  rename_i c k hth
  have hrun := hp.thread t _ hth
  have hcur := hp.busy t c k hth
  have hhap : Happens H P p.world p.log (.thread t (.call c (H.call p.world t c).1))
      (H.call p.world t c).2 := by
    refine .call t c hrun.1 fun t' ht' hl => hp.rest ?_
    rw [hl, hcur]
    exact fun h => ht' (Option.some.inj h).symm
  refine ⟨Pool.Obeys.put ?_ ?_ (fun t' c k _ => hp.busy t' c k) ?_ ?_, .inr ⟨_, rfl, hhap⟩⟩
  · intro t' th ht' h
    rw [Pool.record_log, P.localState_ne _ _ (Ne.symm ht')]
    exact hp.thread t' th h
  · intro t' ht' h
    rw [Pool.record_log, P.localState_ne _ _ (Ne.symm ht')]
    exact hp.unborn t' h
  · intro t' h
    exact Option.some.inj (h.symm.trans hcur)
  · rw [Pool.record_log, P.localState_self]
    exact hrun.2 _ _ ⟨hans _ _ rfl hhap, rfl⟩

/-- What a coroutine awaits is resolved. -/
theorem Pool.Obeys.step_perform {t : T} {ch : S.Choice}
    (hstep : p.step H (.perform t ch) = some q) : Leads H P p q := by
  simp only [Pool.step] at hstep
  split at hstep
  · rename_i o k hth
    split at hstep
    · rename_i hloop
      obtain ⟨⟨r, w'⟩, hperf, hq⟩ := Option.map_eq_some_iff.mp hstep
      cases hq
      have hrun := hp.thread t _ hth
      have hidle : p.current (H.loop t) = none → ∀ t', H.loop t' = H.loop t →
          P.rest (P.localState p.log t') := by
        intro hcur t' hl
        refine hp.rest ?_
        rw [hl, hcur]
        exact fun h => by cases h
      have hhap : Happens H P p.world p.log (.thread t (.performed o ch r)) w' :=
        .perform t o ch r w' hrun.1.1 hrun.1.2 (fun ho => hidle (by simpa [ho] using hloop)) hperf
      have hres : P.opRes o (P.localState p.log t) ch r := hans _ _ rfl hhap
      refine ⟨hp.suspend w' _ rfl ⟨?_, ?_, ?_, ?_⟩, .inr ⟨_, rfl, hhap⟩⟩
      · exact P.rest_step _ _ (fun c r h => by cases h) hrun.1.2
      · exact hrun.2 _ _ (.inl ⟨ch, r, hres, .inl ⟨rfl, rfl⟩⟩)
      · exact hrun.2 _ _ (.inl ⟨ch, r, hres, .inr ⟨rfl, rfl⟩⟩)
      · exact .inr ⟨ch, r, _, hrun.1.1, rfl⟩
    · cases hstep
  · cases hstep

end

/-- **One step of the pool** records nothing and leaves the world alone, or
records something that can happen; and the protocol is still obeyed. -/
theorem Pool.Obeys.step (hp : p.Obeys H P)
    (hjobs : ∀ t j, P.Runs (H.program t j) P.init) {a : Action S T J E}
    (hstep : p.step H a = some q)
    (hans : ∀ e w', q.log = e :: p.log → Happens H P p.world p.log e w' →
      P.Answers p.log e) :
    q.Obeys H P ∧ (q.world = p.world ∧ q.log = p.log ∨
      ∃ e, q.log = e :: p.log ∧ Happens H P p.world p.log e q.world) := by
  cases a with
  | spawn t j => exact hp.step_spawn (hjobs t j) hstep
  | exec t => exact hp.step_exec hans hstep
  | perform t ch => exact hp.step_perform hans hstep
  | interrupt t => exact hp.step_interrupt hstep
  | resume t => exact hp.step_resume hstep
  | reap t ch => exact hp.step_reap hstep
  | env e => exact hp.step_env hstep

/-! ## The invariant rule

There are three conclusions that one may want of a run, and each has a rule:
that something holds in every state, that every step meets a condition, and
that the world only moves in one direction. They share their premises, so a
proof that has shown `Sound` gets all three. -/

/-- **The obligations of an invariance proof**: the programs obey the protocol, and
whatever can happen under the condition is answered as the protocol expects and
keeps the invariant. The first is about programs and no worlds, the second about
worlds and no programs. -/
structure Sound (H : Host S W T Λ J E) (P : Protocol S L)
    (C : W → List (Entry S T E) → Entry S T E → Prop)
    (I : W → List (Entry S T E) → Prop) : Prop where
  jobs : ∀ t j, P.Runs (H.program t j) P.init
  step : ∀ w log e w', I w log → Happens H P w log e w' → C w log e →
    P.Answers log e ∧ I w' (e :: log)

namespace Sound

variable {C C' : W → List (Entry S T E) → Entry S T E → Prop}
  {I : W → List (Entry S T E) → Prop}

/-- One step of the pool keeps the protocol and the invariant, and what it
records can happen. -/
theorem step_pool (hs : Sound H P C I) {a : Action S T J E}
    (hp : p.Obeys H P) (hI : I p.world p.log) (hstep : p.step H a = some q)
    (hC : ∀ e, q.log = e :: p.log → C p.world p.log e) :
    (q.Obeys H P ∧ I q.world q.log) ∧
      ∀ e, q.log = e :: p.log → Happens H P p.world p.log e q.world := by
  obtain ⟨hq, hrec⟩ := hp.step hs.jobs hstep fun e w' he hhap =>
    (hs.step _ _ e w' hI hhap (hC e he)).1
  rcases hrec with ⟨hw, hlog⟩ | ⟨e, he, hhap⟩
  · rw [hw, hlog]
    exact ⟨⟨hq, hI⟩, fun e he => absurd he.symm (List.cons_ne_self e p.log)⟩
  · refine ⟨⟨hq, ?_⟩, fun e' he' => ?_⟩
    · rw [he]
      exact (hs.step _ _ e _ hI hhap (hC e he)).2
    · rw [he] at he'
      cases he'
      exact hhap

/-- **The invariant rule.** In a run whose steps all meet the condition, the
protocol is obeyed and the invariant holds in every state. By induction on the run.
-/
theorem invariant (hs : Sound H P C I) (h : Steps H C p q)
    (hp : p.Obeys H P) (hI : I p.world p.log) :
    q.Obeys H P ∧ I q.world q.log := by
  induction h with
  | refl => exact ⟨hp, hI⟩
  | tail a _ hstep hC ih => exact (hs.step_pool ih.1 ih.2 hstep hC).1

/-- **The step rule.** In a run whose steps all meet the condition, they also meet
whatever follows from the invariant for what can happen. So a condition that is
easier to check may stand in for another one. -/
theorem steps (hs : Sound H P C I)
    (hC' : ∀ w log e w', I w log → Happens H P w log e w' → C w log e → C' w log e)
    (h : Steps H C p q) (hp : p.Obeys H P) (hI : I p.world p.log) :
    Steps H C' p q := by
  induction h with
  | refl => exact .refl _
  | tail a h hstep hC ih =>
    obtain ⟨hobs, hinv⟩ := hs.invariant h hp hI
    refine .tail a ih hstep fun e he => ?_
    exact hC' _ _ e _ hinv ((hs.step_pool hobs hinv hstep hC).2 e he) (hC e he)

/-- **The order rule.** In a run whose steps all meet the condition, the world only
moves along an order that every step respects. It relates any two states of a run.
-/
theorem moves (hs : Sound H P C I) {R : W → W → Prop} (hrefl : ∀ w, R w w)
    (htrans : ∀ u v w, R u v → R v w → R u w)
    (hR : ∀ w log e w', I w log → Happens H P w log e w' → C w log e → R w w')
    (h : Steps H C p q) (hp : p.Obeys H P) (hI : I p.world p.log) :
    R p.world q.world := by
  induction h with
  | refl => exact hrefl _
  | tail a h hstep hC ih =>
    obtain ⟨hobs, hinv⟩ := hs.invariant h hp hI
    obtain ⟨-, hrec⟩ := hobs.step hs.jobs hstep fun e w' he hhap =>
      (hs.step _ _ e w' hinv hhap (hC e he)).1
    rcases hrec with ⟨hw, -⟩ | ⟨e, he, hhap⟩
    · rw [hw]
      exact ih
    · exact htrans _ _ _ ih (hR _ _ e _ hinv hhap (hC e he))

end Sound

/-! ## Runs

The condition of a run may look at the log before each step. With the whole log
in hand, it may look at what comes later as well: that an entry is one of those
of the final log is a condition on it. This is how an assumption about a whole
run, such as that each host was named by somebody, becomes one about its steps.
-/

variable {C : W → List (Entry S T E) → Entry S T E → Prop}

/-- Two runs, one after the other. -/
theorem Steps.trans {p q r : Pool S W T Λ E} (h : Steps H C p q)
    (h' : Steps H C q r) : Steps H C p r := by
  induction h' with
  | refl => exact h
  | tail a _ hstep hC ih => exact .tail a ih hstep hC

/-- A run under a condition is a run under any weaker one. -/
theorem Steps.mono {C' : W → List (Entry S T E) → Entry S T E → Prop}
    (h : Steps H C p q) (hC : ∀ w log e, C w log e → C' w log e) :
    Steps H C' p q := by
  induction h with
  | refl => exact .refl _
  | tail a _ hstep hc ih => exact .tail a ih hstep fun e he => hC _ _ _ (hc e he)

/-- Nothing is erased from the log. -/
theorem Pool.step_log {a : Action S T J E} (h : p.step H a = some q) : p.log ⊆ q.log := by
  cases a with
  | env e =>
    simp only [Pool.step] at h
    split at h
    · obtain ⟨w, -, rfl⟩ := Option.map_eq_some_iff.mp h
      exact List.subset_cons_self _ _
    · cases h
  | perform t ch =>
    simp only [Pool.step] at h
    split at h
    · split at h
      · obtain ⟨a, -, rfl⟩ := Option.map_eq_some_iff.mp h
        exact List.subset_cons_self _ _
      · cases h
    · cases h
  | reap t ch =>
    simp only [Pool.step] at h
    split at h
    · obtain ⟨w, -, rfl⟩ := Option.map_eq_some_iff.mp h
      exact List.subset_cons_self _ _
    · cases h
  | exec t | interrupt t =>
    simp only [Pool.step] at h
    split at h <;> cases h <;> exact List.subset_cons_self _ _
  | spawn t j | resume t =>
    simp only [Pool.step] at h
    split at h <;> cases h <;> exact List.Subset.refl _

/-- **A run is one whose steps all record an entry of its final log.** What is
assumed of each entry may therefore refer to what the whole run has
recorded. -/
theorem Steps.logged (h : Steps H C p q) : Steps H (fun _ _ e => e ∈ q.log) p q := by
  induction h with
  | refl => exact .refl _
  | tail a _ hstep _ ih =>
    refine .tail a (ih.mono fun _ _ e he => Pool.step_log hstep he) hstep fun e he => ?_
    rw [he]
    exact List.mem_cons_self

end Async
