import Yascheduler.Async.Footprint
import Yascheduler.Async.Invariant

/-!
# Contracts

Some properties of a system need no memory of what a coroutine has done: they
say that only data of a certain kind is ever passed on. A *contract* names
this data – what a program may put into its calls and its operations, and what
it may rely on in the answers. A program that is only given such data passes
on only such data; the world that only receives such data hands out only such
data; so neither can be the first to break the contract, in any interleaving.

`Meets` is the side of the programs, closed under every way of putting
programs together, and `Honoured` the whole agreement. The rule that puts the
two sides together is `Honoured.run`.
-/

namespace Async

open Co hiding bind

variable {S : Sig} {α β ρ : Type}

/-- **A contract**: the calls and operations a program may issue, and the answers it
may rely on. It is a protocol without a local state, for facts about data that hold
at any time. -/
structure Contract (S : Sig) where
  call : S.Call → Prop := fun _ => True
  ans : (c : S.Call) → S.Ans c → Prop := fun _ _ => True
  op : S.Op → Prop := fun _ => True
  res : (o : S.Op) → S.Res o → Prop := fun _ _ => True

namespace Contract

variable (D : Contract S)

/-- **The program meets the contract**, and what it returns satisfies `Q`. An error
may come back at any time, and nothing is relied on then. -/
def Meets (Q : α → Prop) : Co S α → Prop
  | .ret a => Q a
  | .throw _ => True
  | .call c k => D.call c ∧ ∀ r, D.ans c r → Meets Q (k r)
  | .await o k => D.op o ∧ (∀ a, D.res o a → Meets Q (k (.ok a))) ∧
      ∀ e, Meets Q (k (.error e))

variable {D} {Q : α → Prop} {R : β → Prop}

/-! ## Closure

A contract is met by the parts of a program, and so by the whole. What a part
returns is handed on to the next one with what is known of it, and this is the
only thing that is handed on: an error carries nothing, so a handler has to
meet the contract by itself. -/

@[simp] theorem meets_ret (a : α) : D.Meets Q (.ret a) ↔ Q a := Iff.rfl

@[simp] theorem meets_throw (e : S.Err) : D.Meets Q (.throw e) := trivial

/-- What it returns may be weakened. -/
theorem Meets.mono {Q' : α → Prop} {x : Co S α} (hx : D.Meets Q x) (h : ∀ a, Q a → Q' a) :
    D.Meets Q' x := by
  induction x with
  | ret a => exact h a hx
  | throw e => trivial
  | call c k ih => exact ⟨hx.1, fun r hr => ih r (hx.2 r hr)⟩
  | await o k ih =>
    exact ⟨hx.1, fun a ha => ih _ (hx.2.1 a ha), fun e => ih _ (hx.2.2 e)⟩

/-- A call returns what the contract says of its answer. -/
theorem meets_sync {c : S.Call} (hc : D.call c) : D.Meets (D.ans c) (sync c) :=
  ⟨hc, fun _ hr => hr⟩

/-- So does an operation. -/
theorem meets_op {o : S.Op} (ho : D.op o) : D.Meets (D.res o) (Co.op o) :=
  ⟨ho, fun _ ha => ha, fun _ => trivial⟩

theorem meets_ofExcept {r : Except S.Err α} (h : ∀ a, r = .ok a → Q a) :
    D.Meets Q (ofExcept r) := by
  cases r with
  | ok a => exact h a rfl
  | error e => trivial

/-- What the first part returns may be relied on in the second. -/
theorem meets_bind {x : Co S α} {f : α → Co S β} (hx : D.Meets Q x)
    (hf : ∀ a, Q a → D.Meets R (f a)) : D.Meets R (Co.bind x f) := by
  induction x with
  | ret a => exact hf a hx
  | throw e => trivial
  | call c k ih => exact ⟨hx.1, fun r hr => ih r (hx.2 r hr)⟩
  | await o k ih =>
    exact ⟨hx.1, fun a ha => ih _ (hx.2.1 a ha), fun e => ih _ (hx.2.2 e)⟩

theorem meets_attempt {x : Co S α} (hx : D.Meets Q x) :
    D.Meets (fun r => ∀ a, r = .ok a → Q a) (attempt x) := by
  induction x with
  | ret a => exact fun b hb => Except.ok.inj hb ▸ hx
  | throw e => rintro b ⟨⟩
  | call c k ih => exact ⟨hx.1, fun r hr => ih r (hx.2 r hr)⟩
  | await o k ih =>
    exact ⟨hx.1, fun a ha => ih _ (hx.2.1 a ha), fun e => ih _ (hx.2.2 e)⟩

theorem meets_tryCatch {x : Co S α} {h : S.Err → Co S α} (hx : D.Meets Q x)
    (hh : ∀ e, D.Meets Q (h e)) : D.Meets Q (tryCatch x h) := by
  refine meets_bind (meets_attempt hx) fun r hr => ?_
  cases r with
  | ok a => exact hr a rfl
  | error e => exact hh e

theorem meets_tryFinally {x : Co S α} {f : Co S Unit} {P : Unit → Prop}
    (hx : D.Meets Q x) (hf : D.Meets P f) : D.Meets Q (tryFinally x f) :=
  meets_bind (meets_attempt hx) fun _ hr => meets_bind hf fun _ _ => meets_ofExcept hr

theorem meets_asyncWith {enter : Co S ρ} {exit : ρ → Option S.Err → Co S Unit}
    {body : ρ → Co S α} {P : ρ → Prop} (henter : D.Meets P enter)
    (hexit : ∀ v e, P v → D.Meets (fun _ => True) (exit v e))
    (hbody : ∀ v, P v → D.Meets Q (body v)) : D.Meets Q (asyncWith enter exit body) :=
  meets_bind henter fun v hv => meets_bind (meets_attempt (hbody v hv)) fun r hr =>
    meets_bind (hexit v (errorOf r) hv) fun _ _ => meets_ofExcept hr

/-- **Who stays inside a footprint meets a contract** that asks for no more than the
footprint admits. The answers may be anything, since nothing is relied on. -/
theorem meets_of_inside {N : Type} {F : Footprint S N} {own : Set N} {x : Co S α}
    (hx : F.Inside own x) (hcall : ∀ c, F.call c → D.call c) (hop : ∀ o, F.op o → D.op o) :
    D.Meets (fun _ => True) x := by
  induction x generalizing own with
  | ret a => trivial
  | throw e => trivial
  | call c k ih => exact ⟨hcall c hx.1, fun r _ => ih r (hx.2 r)⟩
  | await o k ih =>
    exact ⟨hop o hx.1.1, fun a _ => ih _ (hx.2 (.ok a)), fun e => ih _ (hx.2 (.error e))⟩

/-! ## The contract as a protocol -/

/-- The protocol of a contract. It remembers nothing. -/
def protocol (D : Contract S) : Protocol S Unit where
  init := ()
  step _ _ := ()
  callPre c _ := D.call c
  callAns c _ r := D.ans c r
  awaitPre o _ := D.op o
  opRes o _ _ r := ∀ a, r = .ok a → D.res o a

/-- **Who meets the contract obeys its protocol.** So an invariance proof may use
contracts and protocols alike. -/
theorem Meets.runs {x : Co S Unit} {Q : Unit → Prop} (hx : D.Meets Q x) (l : Unit) :
    D.protocol.Runs x l := by
  unfold Protocol.Runs
  induction x generalizing l with
  | ret a => exact ⟨trivial, trivial⟩
  | throw e => exact ⟨trivial, trivial⟩
  | call c k ih =>
    refine ⟨hx.1, ?_⟩
    rintro r l' ⟨hr, rfl⟩
    exact ih r (hx.2 r hr) _
  | await o k ih =>
    refine ⟨⟨hx.1, trivial⟩, ?_⟩
    rintro r l' (⟨ch, r₀, hr, (⟨rfl, rfl⟩ | ⟨rfl, rfl⟩)⟩ | ⟨rfl, rfl⟩)
    · cases r with
      | ok a => exact ih _ (hx.2.1 a (hr a rfl)) _
      | error e => exact ih _ (hx.2.2 e) _
    · exact ih _ (hx.2.2 _) _
    · exact ih _ (hx.2.2 _) _

/-! ## Both sides

The programs rely on the answers and the world relies on the questions. This
would be a circle if both were assumed for a whole run. But an answer is given
to a question that was asked before it, and the question to answers that were
given before that, so each side only relies on the earlier steps of the other.
-/

variable {W T Λ J E : Type} [DecidableEq T] {H : Host S W T Λ J E}

/-- **The contract is honoured**: the programs meet it, and a world with `I` that is
asked only what the contract allows answers as the contract says and keeps `I` – as
long as the outside world resolves the operations as `A` says. -/
structure Honoured (H : Host S W T Λ J E) (D : Contract S) (I : W → Prop)
    (A : Entry S T E → Prop) : Prop where
  program : ∀ t j, D.Meets (fun _ => True) (H.program t j)
  call : ∀ w t c, I w → D.call c → D.ans c (H.call w t c).1 ∧ I (H.call w t c).2
  perform : ∀ w t o ch r w', A (.thread t (.performed o ch r)) → I w → D.op o →
    H.perform w t o ch = some (r, w') → (∀ a, r = .ok a → D.res o a) ∧ I w'
  reap : ∀ w t ch w', I w → H.reap w t ch = some w' → I w'
  env : ∀ w e w', I w → H.env w e = some w' → I w'

namespace Honoured

variable {I : W → Prop} {A : Entry S T E → Prop}
  {C : W → List (Entry S T E) → Entry S T E → Prop}

/-- So the obligations of an invariance proof are met, with the property of the
world as the invariant. -/
theorem sound (h : Honoured H D I A) (hA : ∀ w log e, C w log e → A e) :
    Sound H D.protocol C fun w _ => I w where
  jobs t j := (h.program t j).runs ()
  step w log e w' hI hap hC := by
    cases hap with
    | call t c hpre => exact h.call w t c hI hpre
    | perform t o ch r w' hpre _ _ hperf =>
      exact h.perform w t o ch r w' (hA _ _ _ hC) hI hpre hperf
    | interrupt t o => exact ⟨trivial, hI⟩
    | reap t ch w' _ _ hreap => exact ⟨trivial, h.reap w t ch w' hI hreap⟩
    | env e w' _ henv => exact ⟨trivial, h.env w e w' hI henv⟩

/-- **Nobody is the first to break a contract.** In every run that meets the
assumption, the world keeps its side, and every operation that is awaited is one the
contract allows. The two sides rely on each other, and it is the order of the steps
that makes this no circle. -/
theorem run [DecidableEq Λ] {w : W} {q : Pool S W T Λ E} (h : Honoured H D I A)
    (hA : ∀ w log e, C w log e → A e) (hrun : Steps H C (Pool.start w) q) (hI : I w) :
    I q.world ∧ ∀ t o k, q.threads t = some (.waiting o k) → D.op o := by
  obtain ⟨hobs, hinv⟩ := (h.sound hA).invariant hrun (Pool.obeys_start w) hI
  exact ⟨hinv, fun t o k hth => (hobs.thread t _ hth).1.1⟩

end Honoured

end Contract

end Async
