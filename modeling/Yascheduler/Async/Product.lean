import Yascheduler.Async.Invariant

/-!
# Two protocols at once

Protocols compose: a program that obeys each of two protocols obeys both at
the same time, and the local state of the pair is the pair of the local
states. So a protocol can be stated about one aspect of the programs, proved
by itself, and used together with others in one invariance proof.

Without this, a result that needs what two protocols know would have to be
proved about a third protocol that knows both, and every program would have to
be verified against it again. The projections of a local state are those of the
factors (`prod_localState`), and obeying the product is obeying both, so a proof
about a program is never done twice.

The second factor is often one that forbids nothing and only remembers: a
*watch*. Every program obeys it, and it serves to state what a run has done.
-/

namespace Async

variable {S : Sig} {L L' α : Type}

namespace Protocol

/-- **Two protocols at once.** The second one may rely on nothing of the first, so
each can be used without the other. -/
def prod (P : Protocol S L) (P' : Protocol S L') : Protocol S (L × L') where
  init := (P.init, P'.init)
  step e l := (P.step e l.1, P'.step e l.2)
  callPre c l := P.callPre c l.1 ∧ P'.callPre c l.2
  callAns c l r := P.callAns c l.1 r ∧ P'.callAns c l.2 r
  awaitPre o l := P.awaitPre o l.1 ∧ P'.awaitPre o l.2
  opRes o l ch r := P.opRes o l.1 ch r ∧ P'.opRes o l.2 ch r
  rest l := P.rest l.1 ∧ P'.rest l.2
  post l := P.post l.1 ∧ P'.post l.2
  rest_init := ⟨P.rest_init, P'.rest_init⟩
  rest_step e l he h := ⟨P.rest_step e l.1 he h.1, P'.rest_step e l.2 he h.2⟩
  post_reaped ch l h := ⟨P.post_reaped ch l.1 h.1, P'.post_reaped ch l.2 h.2⟩

variable {P : Protocol S L} {P' : Protocol S L'}

/-- A program that meets both preconditions meets both at once. -/
theorem prod_wp {x : Co S α} {Q : Except S.Err α → L → Prop}
    {Q' : Except S.Err α → L' → Prop} {l : L} {l' : L'}
    (h : wp P.logic x Q l) (h' : wp P'.logic x Q' l') :
    wp (P.prod P').logic x (fun r m => Q r m.1 ∧ Q' r m.2) (l, l') := by
  induction x generalizing l l' with
  | ret a => exact ⟨h, h'⟩
  | throw e => exact ⟨h, h'⟩
  | call c k ih =>
    refine ⟨⟨h.1, h'.1⟩, ?_⟩
    rintro r m ⟨⟨hr, hr'⟩, rfl⟩
    exact ih r (h.2 r _ ⟨hr, rfl⟩) (h'.2 r _ ⟨hr', rfl⟩)
  | await o k ih =>
    refine ⟨⟨⟨h.1.1, h'.1.1⟩, h.1.2, h'.1.2⟩, ?_⟩
    rintro r m (⟨ch, r₀, ⟨hr, hr'⟩, (⟨rfl, rfl⟩ | ⟨rfl, rfl⟩)⟩ | ⟨rfl, rfl⟩)
    · exact ih _ (h.2 _ _ (.inl ⟨ch, r, hr, .inl ⟨rfl, rfl⟩⟩))
        (h'.2 _ _ (.inl ⟨ch, r, hr', .inl ⟨rfl, rfl⟩⟩))
    · exact ih _ (h.2 _ _ (.inl ⟨ch, r₀, hr, .inr ⟨rfl, rfl⟩⟩))
        (h'.2 _ _ (.inl ⟨ch, r₀, hr', .inr ⟨rfl, rfl⟩⟩))
    · exact ih _ (h.2 _ _ (.inr ⟨rfl, rfl⟩)) (h'.2 _ _ (.inr ⟨rfl, rfl⟩))

/-- **A protocol that only watches.** Every program obeys it. It is a history
variable, computed from the events. -/
def watch (init : L) (step : Event S → L → L) : Protocol S L where
  init := init
  step := step

/-- It asks for nothing, -/
theorem watch_runs {init : L} {step : Event S → L → L} (x : Co S Unit) (l : L) :
    (watch init step).Runs x l := by
  unfold Runs
  induction x generalizing l with
  | ret a => exact ⟨trivial, trivial⟩
  | throw e => exact ⟨trivial, trivial⟩
  | call c k ih => exact ⟨trivial, fun r l' _ => ih r l'⟩
  | await o k ih => exact ⟨⟨trivial, trivial⟩, fun r l' _ => ih r l'⟩

/-- and expects nothing. -/
theorem watch_answers {T E : Type} [DecidableEq T] {init : L} {step : Event S → L → L}
    (log : List (Entry S T E)) (e : Entry S T E) : (watch init step).Answers log e := by
  cases e with
  | env e => trivial
  | thread t ev => cases ev <;> trivial

/-- **A program that obeys each protocol obeys both.** The two proofs are put
together along the tree of the program. -/
theorem Runs.prod {x : Co S Unit} (h : P.Runs x P.init) (h' : P'.Runs x P'.init) :
    (P.prod P').Runs x (P.prod P').init :=
  wp_mono (prod_wp h h') fun _ _ hm =>
    ⟨⟨hm.1.1, hm.2.1⟩, hm.1.2, hm.2.2⟩

variable {T E : Type} [DecidableEq T]

/-- The local state is that of each. -/
@[simp] theorem prod_localState (log : List (Entry S T E)) (t : T) :
    (P.prod P').localState log t = (P.localState log t, P'.localState log t) := by
  induction log with
  | nil => rfl
  | cons e log ih =>
    cases e with
    | env e => exact ih
    | thread t' ev =>
      by_cases h : t' = t
      · subst h
        simp only [localState_self, ih]
        rfl
      · simp only [localState_ne _ _ _ h, ih]

end Protocol

/-- An operation awaited under both protocols is awaited under each. -/
theorem Protocol.Awaited.both {P : Protocol S L} {P' : Protocol S L'} {o : S.Op}
    {l : L × L'} (h : (P.prod P').Awaited o l) : P.Awaited o l.1 ∧ P'.Awaited o l.2 := by
  rcases h with hpre | ⟨ch, r, l₀, hpre, rfl⟩
  · exact ⟨.inl hpre.1, .inl hpre.2⟩
  · exact ⟨.inr ⟨ch, r, l₀.1, hpre.1, rfl⟩, .inr ⟨ch, r, l₀.2, hpre.2, rfl⟩⟩

variable {W T Λ J E : Type} [DecidableEq T] {H : Host S W T Λ J E}
  {P : Protocol S L} {P' : Protocol S L'} {w w' : W} {log : List (Entry S T E)}
  {e : Entry S T E}

/-- What can happen under both protocols can happen under the first. -/
theorem Happens.fst (h : Happens H (P.prod P') w log e w') : Happens H P w log e w' := by
  cases h with
  | call t c hpre hrest =>
    simp only [Protocol.prod_localState] at hpre hrest
    exact .call t c hpre.1 fun t' ht' hl => (hrest t' ht' hl).1
  | perform t o ch r w' hpre hself hrest hperf =>
    simp only [Protocol.prod_localState] at hpre hself hrest
    exact .perform t o ch r w' hpre.1 hself.1 (fun ho t' hl => (hrest ho t' hl).1) hperf
  | interrupt t o hwait =>
    rw [Protocol.prod_localState] at hwait
    exact .interrupt t o hwait.both.1
  | reap t ch w' hself hpost hreap =>
    simp only [Protocol.prod_localState] at hself hpost
    exact .reap t ch w' hself.1 hpost.1 hreap
  | env e w' hrest henv =>
    simp only [Protocol.prod_localState] at hrest
    exact .env e w' (fun ℓ hℓ t ht => (hrest ℓ hℓ t ht).1) henv

/-- What can happen under both protocols can happen under the second. -/
theorem Happens.snd (h : Happens H (P.prod P') w log e w') : Happens H P' w log e w' := by
  cases h with
  | call t c hpre hrest =>
    simp only [Protocol.prod_localState] at hpre hrest
    exact .call t c hpre.2 fun t' ht' hl => (hrest t' ht' hl).2
  | perform t o ch r w' hpre hself hrest hperf =>
    simp only [Protocol.prod_localState] at hpre hself hrest
    exact .perform t o ch r w' hpre.2 hself.2 (fun ho t' hl => (hrest ho t' hl).2) hperf
  | interrupt t o hwait =>
    rw [Protocol.prod_localState] at hwait
    exact .interrupt t o hwait.both.2
  | reap t ch w' hself hpost hreap =>
    simp only [Protocol.prod_localState] at hself hpost
    exact .reap t ch w' hself.2 hpost.2 hreap
  | env e w' hrest henv =>
    simp only [Protocol.prod_localState] at hrest
    exact .env e w' (fun ℓ hℓ t ht => (hrest ℓ hℓ t ht).2) henv

/-- An answer that both expect. -/
theorem Protocol.Answers.prod (h : P.Answers log e) (h' : P'.Answers log e) :
    (P.prod P').Answers log e := by
  cases e with
  | env e => trivial
  | thread t ev =>
    cases ev with
    | call c r =>
      show (P.prod P').callAns c ((P.prod P').localState log t) r
      rw [prod_localState]
      exact ⟨h, h'⟩
    | performed o ch r =>
      show (P.prod P').opRes o ((P.prod P').localState log t) ch r
      rw [prod_localState]
      exact ⟨h, h'⟩
    | interrupted o => trivial
    | reaped ch => trivial

end Async
