import Yascheduler.Async.Pool
import Yascheduler.Async.Trace
import Mathlib.Data.Set.Basic

/-!
# Footprints

Most programs have nothing to do with most protocols. What such a program
may do is described by a *footprint*: the calls it makes, the operations it
awaits, and the resources it uses – only those it has opened itself. Whether
a program stays inside a footprint is a property of its tree alone, it is
closed under every way of putting programs together, and it need not be
proved again for each protocol: a protocol that takes no notice of anything
in the footprint is obeyed, and its local state stays as it was.
-/

namespace Async

open Co hiding bind

variable {S : Sig} {N L α β ρ : Type}

/-- **A footprint**: calls and operations a program may issue, the resource an
operation uses, and the resource that a result opens. It is what has to be known of
a program whose local state is the business of others. -/
structure Footprint (S : Sig) (N : Type) where
  call : S.Call → Prop
  op : S.Op → Prop
  uses : S.Op → Option N
  opens : (o : S.Op) → S.Res o → Option N

namespace Footprint

/-- The resources a program owns after a result. -/
def gain (F : Footprint S N) (own : Set N) (o : S.Op) :
    Except S.Err (S.Res o) → Set N
  | .ok a => {n | n ∈ own ∨ F.opens o a = some n}
  | .error _ => own

/-- **The program stays inside the footprint**, given the resources it owns. It owns
those it has opened itself, and no others. -/
def Inside (F : Footprint S N) : Set N → Co S α → Prop
  | _, .ret _ => True
  | _, .throw _ => True
  | own, .call c k => F.call c ∧ ∀ r, Inside F own (k r)
  | own, .await o k => (F.op o ∧ ∀ n, F.uses o = some n → n ∈ own) ∧
      ∀ r, Inside F (F.gain own o r) (k r)

variable {F F' : Footprint S N} {own own' : Set N}

/-- Nothing is lost by a result. -/
theorem subset_gain (o : S.Op) (r : Except S.Err (S.Res o)) :
    own ⊆ F.gain own o r := by
  intro n hn
  cases r with
  | ok a => exact .inl hn
  | error e => exact hn

/-- Who owns more owns more after it. -/
theorem gain_mono (h : own ⊆ own') (o : S.Op) (r : Except S.Err (S.Res o)) :
    F.gain own o r ⊆ F.gain own' o r := by
  intro n hn
  cases r with
  | ok a => exact hn.imp (fun hn => h hn) id
  | error e => exact h hn

/-- Owning more does no harm. -/
theorem Inside.mono {x : Co S α} (hx : F.Inside own x) (h : own ⊆ own') :
    F.Inside own' x := by
  induction x generalizing own own' with
  | ret a => trivial
  | throw e => trivial
  | call c k ih => exact ⟨hx.1, fun r => ih r (hx.2 r) h⟩
  | await o k ih =>
    exact ⟨⟨hx.1.1, fun n hn => h (hx.1.2 n hn)⟩,
      fun r => ih r (hx.2 r) (gain_mono h o r)⟩

/-! ## Closure

A resource belongs to the program from the answer that opens it to the end. It
is never given back as far as the footprint goes: a program may use a
connection that it has closed, and it is the outside world that will refuse it.
-/

@[simp] theorem inside_ret (a : α) : F.Inside own (.ret a) := trivial

@[simp] theorem inside_throw (e : S.Err) : F.Inside own (.throw e : Co S α) :=
  trivial

@[simp] theorem inside_ofExcept (r : Except S.Err α) :
    F.Inside own (ofExcept r) := by
  cases r <;> trivial

@[simp] theorem inside_sync {c : S.Call} : F.Inside own (sync c) ↔ F.call c :=
  ⟨fun h => h.1, fun h => ⟨h, fun _ => trivial⟩⟩

@[simp] theorem inside_op {o : S.Op} : F.Inside own (Co.op o) ↔
    F.op o ∧ ∀ n, F.uses o = some n → n ∈ own :=
  ⟨fun h => h.1, fun h => ⟨h, fun r => inside_ofExcept r⟩⟩

/-- Both parts stay inside; the second one owns what the first has opened. -/
theorem inside_bind {x : Co S α} {f : α → Co S β} (hx : F.Inside own x)
    (hf : ∀ a, F.Inside own (f a)) : F.Inside own (Co.bind x f) := by
  induction x generalizing own with
  | ret a => exact hf a
  | throw e => trivial
  | call c k ih => exact ⟨hx.1, fun r => ih r (hx.2 r) hf⟩
  | await o k ih =>
    exact ⟨hx.1, fun r => ih r (hx.2 r) fun a => (hf a).mono (subset_gain o r)⟩

theorem inside_attempt {x : Co S α} (hx : F.Inside own x) :
    F.Inside own (attempt x) := by
  induction x generalizing own with
  | ret a => trivial
  | throw e => trivial
  | call c k ih => exact ⟨hx.1, fun r => ih r (hx.2 r)⟩
  | await o k ih => exact ⟨hx.1, fun r => ih r (hx.2 r)⟩

/-- So do a part and its handler. -/
theorem inside_tryCatch {x : Co S α} {h : S.Err → Co S α} (hx : F.Inside own x)
    (hh : ∀ e, F.Inside own (h e)) : F.Inside own (tryCatch x h) := by
  refine inside_bind (inside_attempt hx) fun r => ?_
  cases r with
  | ok a => trivial
  | error e => exact hh e

theorem inside_tryFinally {x : Co S α} {f : Co S Unit} (hx : F.Inside own x)
    (hf : F.Inside own f) : F.Inside own (tryFinally x f) :=
  inside_bind (inside_attempt hx) fun r => inside_bind hf fun _ => inside_ofExcept r

/-- And a context, with its two ends. -/
theorem inside_asyncWith {enter : Co S ρ} {exit : ρ → Option S.Err → Co S Unit}
    {body : ρ → Co S α} (henter : F.Inside own enter)
    (hexit : ∀ v e, F.Inside own (exit v e)) (hbody : ∀ v, F.Inside own (body v)) :
    F.Inside own (asyncWith enter exit body) :=
  inside_bind henter fun v => inside_bind (inside_attempt (hbody v)) fun r =>
    inside_bind (hexit v (errorOf r)) fun _ => inside_ofExcept r

/-- The footprint admits the call or the operation that is answered. -/
def Admits (F : Footprint S N) : Answer S → Prop
  | .call c _ => F.call c
  | .op o _ => F.op o

/-- **Inside a footprint only what it admits is answered.** It turns a statement
about the program into one about its traces. -/
theorem Inside.admits {x : Co S α} (hx : F.Inside own x) : Sees F.Admits x := by
  intro tr r hends a ha
  induction x generalizing own tr with
  | ret b =>
    obtain ⟨rfl, -⟩ := hends
    cases ha
  | throw e =>
    obtain ⟨rfl, -⟩ := hends
    cases ha
  | call c k ih =>
    obtain ⟨v, rest, rfl, hrest⟩ := hends
    rcases List.mem_cons.mp ha with rfl | ha
    · exact hx.1
    · exact ih v (hx.2 v) rest hrest ha
  | await o k ih =>
    obtain ⟨v, rest, rfl, hrest⟩ := hends
    rcases List.mem_cons.mp ha with rfl | ha
    · exact hx.1.1
    · exact ih v (hx.2 v) rest hrest ha

/-! ## Protocols that take no notice

This is where footprints pay. For a protocol one shows, once, which effects it
takes no notice of; for a program one shows, once, which effects it has. That a
program is none of a protocol's business is then a matter of two sets of
effects, and neither the program nor the protocol is unfolded for it. -/

/-- In the local state `l`, which is about the resources `D`, the protocol allows
everything in the footprint that does not concern these, and takes no notice of it.
-/
structure Ignored (F : Footprint S N) (P : Protocol S L) (D : Set N) (l : L) :
    Prop where
  rest : P.rest l
  call : ∀ c, F.call c →
    P.callPre c l ∧ ∀ r, P.callAns c l r → P.step (.call c r) l = l
  op : ∀ o, F.op o → (∀ n, F.uses o = some n → n ∉ D) → P.awaitPre o l ∧
    (∀ ch r, P.opRes o l ch r → P.step (.performed o ch r) l = l) ∧
    P.step (.interrupted o) l = l
  opens : ∀ o ch a n, F.op o → P.opRes o l ch (.ok a) → F.opens o a = some n →
    n ∉ D

/-- **A program inside an ignored footprint leaves the local state alone.** This is
the frame rule: it is proved once, and no such program is stepped through. -/
theorem Ignored.wp {P : Protocol S L} {D : Set N} {l : L} (h : F.Ignored P D l)
    {x : Co S α} (hx : F.Inside own x) (hown : ∀ n ∈ own, n ∉ D) :
    wp P.logic x (fun _ l' => l' = l) l := by
  induction x generalizing own with
  | ret a => rfl
  | throw e => rfl
  | call c k ih =>
    refine ⟨(h.call c hx.1).1, ?_⟩
    rintro r l' ⟨hr, rfl⟩
    rw [(h.call c hx.1).2 r hr]
    exact ih r (hx.2 r) hown
  | await o k ih =>
    obtain ⟨hpre, hdone, hint⟩ :=
      h.op o hx.1.1 fun n hn => hown n (hx.1.2 n hn)
    refine ⟨⟨hpre, h.rest⟩, ?_⟩
    rintro r l' (⟨ch, r₀, hr, (⟨rfl, rfl⟩ | ⟨rfl, rfl⟩)⟩ | ⟨rfl, rfl⟩)
    · rw [hdone ch r hr]
      refine ih r (hx.2 r) ?_
      cases r with
      | ok a =>
        rintro n (hn | hn)
        · exact hown n hn
        · exact h.opens o ch a n hx.1.1 hr hn
      | error e => exact hown
    · rw [hdone ch r₀ hr, hint]
      exact ih _ (hx.2 _) hown
    · rw [hint]
      exact ih _ (hx.2 _) hown

/-- The same for a program that starts with no resources. -/
theorem Ignored.wp_closed {P : Protocol S L} {D : Set N} {l : L}
    (h : F.Ignored P D l) {x : Co S α} (hx : F.Inside ∅ x) :
    Async.wp P.logic x (fun _ l' => l' = l) l :=
  h.wp hx fun n hn => absurd hn (Set.notMem_empty n)

/-- A program inside an ignored footprint may run from its start. -/
theorem Ignored.runs {P : Protocol S L} {D : Set N} {l : L} (h : F.Ignored P D l)
    {x : Co S Unit} (hx : F.Inside ∅ x) (hpost : P.post l) : P.Runs x l := by
  refine wp_mono (h.wp_closed hx) ?_
  rintro r l' rfl
  exact ⟨h.rest, hpost⟩

end Footprint

end Async
