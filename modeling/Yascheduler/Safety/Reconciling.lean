import Yascheduler.Safety.VerifiedDeletion

/-!
# Looking for an orphan, and deleting it

After a failed creation the instances are listed, a number of times, until one
shows the orphan; then it is deleted. A listing may fail in any way, and be
cancelled; the attempts go on. What ends them early is an error of a wait, and
what ends a deletion early is a cancellation. These are the *interruptions*: the
answers that make the clean-up raise.

## Why interruptions are a notion of their own

The clean-up catches what it expects, so most answers only make it go on. What it
does not catch ends it wherever it is, and it is the same answers at both
providers: an error of a wait, and a cancellation of a request. Everything that is
said here of an attempt is said as long as it is not interrupted, and an
interruption is the one answer that the error of a creation can be replaced by.
-/

namespace Yascheduler.Http

open Async

/-! ## What an answer says

Answers come from outside, and they are exceptions of the session,
cancellations or responses. What is not among them is an error of the program
itself, such as a missing key: these are no answers, and they are raised by the
code where they arise. -/

/-- An exception of the session, or a cancellation. -/
def Exc.outside : Exc → Bool
  | .client _ | .other _ | .base _ => true
  | _ => false

/-- Requests fail with an exception of the session, or are cancelled; a wait is
cancelled. The session is closed, and every loop ends. -/
def fromOutside : Answer sig → Prop
  | .op (.request _) (.error e) => e.outside = true
  | .op (.request _) (.ok resp) => ∀ e, resp.text = .error e → e.outside = true
  | .op (.sleep _) (.error e) | .op .lockAcquire (.error e) => e.isException = false
  | .op .close (.error _) | .op .diverge _ => False
  | _ => True

/-- All answers of a trace are of this kind. -/
def FromOutside (tr : Trace sig) : Prop := ∀ a ∈ tr, fromOutside a

/-- A request for a page of a listing. -/
def isListing (path : String) : Answer sig → Bool
  | .op (.request req) _ => req.method = .get && req.path = path && !req.params.isEmpty
  | _ => false

/-- The items of a page that are picked. -/
def picked {α : Type} (pages : Pages) (pick : Value → Option α) : Answer sig → List α
  | .op (.request req) ans =>
    if isListing pages.path (.op (.request req) ans) then
      match (outcome ans).bind pages.items with
      | .ok items => items.filterMap pick
      | .error _ => []
    else []
  | _ => []

/-- The error of an interrupted wait, deletion or question for a resource. The
handlers of these three do not catch it, whereas a listing is guarded by its caller.
-/
def interrupt : Answer sig → Option Exc
  | .op (.sleep _) (.error e) => some e
  | .op (.request req) ans =>
    if req.method = .delete || req.method = .get && req.params.isEmpty then
      match outcome ans with
      | .error (.base name) => some (.base name)
      | _ => none
    else none
  | _ => none

/-- It holds of the first part of a trace. -/
theorem FromOutside.left {tr tr' : Trace sig} (h : FromOutside (tr ++ tr')) : FromOutside tr :=
  fun a ha => h a (List.mem_append_left _ ha)

/-- And of the second. -/
theorem FromOutside.right {tr tr' : Trace sig} (h : FromOutside (tr ++ tr')) : FromOutside tr' :=
  fun a ha => h a (List.mem_append_right _ ha)

/-! ## A listing

A listing is a request for each page, until one shows what is looked for. It
ends because the pages do, or the fuel; what it has found is found on one of
the pages it has asked for. -/

/-- A page is asked for. -/
theorem isListing_of_params {path : String} {params : List (String × Value)}
    {ans : Except Exc Response} (h : params ≠ []) :
    isListing path (.op (.request { method := .get, path, params }) ans) = true := by
  cases params with
  | nil => exact absurd rfl h
  | cons param params => simp [isListing]

/-- A request with a parameter has parameters, which is how a page of a listing is
told from a question for a resource. -/
theorem setParam_ne_nil (key : String) (value : Value) (params : List (String × Value)) :
    setParam key value params ≠ [] := List.append_ne_nil_of_right_ne_nil _ (List.cons_ne_nil _ _)

/-- A page of a listing: an item is picked, or the next page is asked for, if any.
-/
theorem finishes_findItem_succ {α : Type} {pages : Pages} {pick : Value → Option α} {fuel : Nat}
    {params : List (String × Value)} {tr : Trace sig} {r : Except Exc (Option α)}
    (hparams : params ≠ []) (h : Finishes (findItem pages pick (fuel + 1) params) tr r) :
    ∃ ans rest, tr = .op (.request { method := .get, path := pages.path, params }) ans :: rest ∧
      ((∃ a, rest = [] ∧ r = .ok (some a) ∧ a ∈ picked pages pick
          (.op (.request { method := .get, path := pages.path, params }) ans)) ∨
        picked pages pick (.op (.request { method := .get, path := pages.path, params }) ans) =
          [] ∧ (rest = [] ∧ (∀ a, r ≠ .ok (some a)) ∨
            ∃ page, Finishes (findItem pages pick fuel (setParam pages.pageParam page params))
              rest r)) := by
  have hpicked : ∀ ans o, o = outcome ans → picked pages pick
      (.op (.request { method := .get, path := pages.path, params }) ans) =
        ((o.bind pages.items).toOption.getD []).filterMap pick := by
    rintro ans o rfl
    refine (if_pos (isListing_of_params hparams)).trans ?_
    cases (outcome ans).bind pages.items <;> rfl
  rcases finishes_bind.mp h with ⟨e, rfl, h₁⟩ | ⟨resp, tr₁, tr₂, rfl, h₁, h₂⟩
  · obtain ⟨ans, rfl, he⟩ := finishes_request.mp h₁
    refine ⟨ans, [], rfl, .inr ⟨?_, .inl ⟨rfl, by rintro a ⟨⟩⟩⟩⟩
    exact hpicked ans _ he
  obtain ⟨ans, rfl, hresp⟩ := finishes_request.mp h₁
  refine ⟨ans, tr₂, rfl, ?_⟩
  rw [hpicked ans _ hresp, show (Except.ok resp).bind pages.items = pages.items resp from rfl]
  rcases finishes_bind.mp h₂ with ⟨e, rfl, h₃⟩ | ⟨items, tr₃, tr₄, rfl, h₃, h₄⟩
  · obtain ⟨rfl, he⟩ := (finishes_ofExcept _).mp h₃
    rw [← he]
    exact .inr ⟨rfl, .inl ⟨rfl, by rintro a ⟨⟩⟩⟩
  obtain ⟨rfl, hitems⟩ := (finishes_ofExcept _).mp h₃
  rw [← hitems]
  cases hfind : items.findSome? pick with
  | some a =>
    rw [hfind] at h₄
    obtain ⟨rfl, rfl⟩ := h₄
    obtain ⟨item, hitem, ha⟩ := List.exists_of_findSome?_eq_some hfind
    exact .inl ⟨a, rfl, rfl, List.mem_filterMap.mpr ⟨item, hitem, ha⟩⟩
  | none =>
    rw [hfind] at h₄
    refine .inr ⟨List.filterMap_eq_nil_iff.mpr (List.findSome?_eq_none_iff.mp hfind), ?_⟩
    rcases finishes_bind.mp h₄ with ⟨e, rfl, h₅⟩ | ⟨next, tr₅, tr₆, rfl, h₅, h₆⟩
    · obtain ⟨rfl, -⟩ := (finishes_ofExcept _).mp h₅
      exact .inl ⟨rfl, by rintro a ⟨⟩⟩
    obtain ⟨rfl, -⟩ := (finishes_ofExcept _).mp h₅
    cases next with
    | none =>
      obtain ⟨rfl, rfl⟩ := h₆
      exact .inl ⟨rfl, by rintro a ⟨⟩⟩
    | some page => exact .inr ⟨page, h₆⟩

theorem sees_request {q : Answer sig → Prop} {req : Request}
    (h : ∀ ans, q (.op (.request req) ans)) : Sees q (request req) := by
  intro tr r hends a ha
  obtain ⟨ans, rfl, -⟩ := finishes_request.mp hends
  exact List.mem_singleton.mp ha ▸ h ans

/-- Only pages are asked for. -/
theorem sees_findItem {α : Type} {pages : Pages} {pick : Value → Option α} {fuel : Nat}
    {params : List (String × Value)} (hparams : params ≠ []) :
    Sees (fun a => fromOutside a → isListing pages.path a = true)
      (findItem pages pick fuel params) := by
  induction fuel generalizing params with
  | zero => exact sees_bind (sees_op fun _ hout => hout.elim) fun v => v.elim
  | succ fuel ih =>
    refine sees_bind (sees_request fun _ _ => isListing_of_params hparams) fun resp =>
      sees_bind (sees_ofExcept _) fun items => ?_
    split
    · exact sees_ret _
    · refine sees_bind (sees_ofExcept _) fun next => ?_
      cases next with
      | none => exact sees_ret none
      | some page => exact ih (setParam_ne_nil _ _ _)

/-- A listing finds what one of its pages shows, and nothing if no page does. By
induction on the pages. -/
theorem finishes_findItem {α : Type} {pages : Pages} {pick : Value → Option α} {fuel : Nat}
    {params : List (String × Value)} {tr : Trace sig} {r : Except Exc (Option α)}
    (hparams : params ≠ []) (h : Finishes (findItem pages pick fuel params) tr r)
    (hout : FromOutside tr) :
    (∃ a, r = .ok (some a) ∧ ∃ b ∈ tr, a ∈ picked pages pick b) ∨
      (∀ a, r ≠ .ok (some a)) ∧ ∀ b ∈ tr, picked pages pick b = [] := by
  induction fuel generalizing params tr with
  | zero =>
    obtain ⟨ans, rest, rfl, -⟩ := h
    exact (hout _ List.mem_cons_self).elim
  | succ fuel ih =>
    obtain ⟨ans, rest, rfl, ⟨a, rfl, rfl, ha⟩ | ⟨hnone, ⟨rfl, hr⟩ | ⟨page, h'⟩⟩⟩ :=
      finishes_findItem_succ hparams h
    · exact .inl ⟨a, rfl, _, List.mem_cons_self, ha⟩
    · refine .inr ⟨hr, List.forall_mem_cons.mpr ⟨hnone, fun _ ha => nomatch ha⟩⟩
    · rcases ih (setParam_ne_nil _ _ _) h' (fun a ha => hout a (List.mem_cons_of_mem _ ha)) with
        ⟨a, rfl, b, hb, ha⟩ | ⟨hr, hrest⟩
      · exact .inl ⟨a, rfl, b, List.mem_cons_of_mem _ hb, ha⟩
      · exact .inr ⟨hr, List.forall_mem_cons.mpr ⟨hnone, hrest⟩⟩

/-! ## Interruptions

A clean-up is a composition of requests, waits and clock readings, under
handlers for exceptions. Being interruptible is kept by each of these, so it is
proved like a type: by a lemma for each construct, and none about the whole. -/

/-- A page of a listing interrupts nothing. -/
theorem interrupt_of_isListing {path : String} {a : Answer sig} (h : isListing path a = true) :
    interrupt a = none := by
  match a, h with
  | .op (.request req) ans, h =>
    simp only [isListing, Bool.and_eq_true, decide_eq_true_eq, Bool.not_eq_true'] at h
    obtain ⟨⟨hget, -⟩, hparams⟩ := h
    simp [interrupt, hget, hparams]

/-- Nothing was interrupted, or the last answer is the interruption that is raised.
-/
def Raised {α : Type} (tr : Trace sig) : Except Exc α → Prop
  | .ok _ => ∀ b ∈ tr, interrupt b = none
  | .error e => ∃ good bad, tr = good ++ [bad] ∧ (∀ b ∈ good, interrupt b = none) ∧
      interrupt bad = some e

/-- **Only an interruption makes it raise**, and each one does. It is kept by the
ways in which programs are put together, so it is proved along the program. -/
def Interruptible {α : Type} (x : Script α) : Prop :=
  ∀ tr r, Finishes x tr r → FromOutside tr → Raised tr r

section Interruptible

variable {α β : Type}

theorem Raised.append {tr tr' : Trace sig} {r : Except Exc α} (h : ∀ b ∈ tr, interrupt b = none)
    (h' : Raised tr' r) : Raised (tr ++ tr') r := by
  cases r with
  | ok a => exact fun b hb => (List.mem_append.mp hb).elim (h b) (h' b)
  | error e =>
    obtain ⟨good, bad, rfl, hgood, hbad⟩ := h'
    exact ⟨tr ++ good, bad, (List.append_assoc ..).symm,
      fun b hb => (List.mem_append.mp hb).elim (h b) (hgood b), hbad⟩

/-- The interruption that is raised is the only one. -/
theorem Raised.eq_of_mem {tr : Trace sig} {e e' : Exc} {a : Answer sig}
    (h : Raised tr (.error e : Except Exc α)) (ha : a ∈ tr) (he : interrupt a = some e') :
    e' = e := by
  obtain ⟨good, bad, rfl, hgood, hbad⟩ := h
  rcases List.mem_append.mp ha with ha | ha
  · rw [hgood a ha] at he
    cases he
  · rw [List.mem_singleton.mp ha, hbad] at he
    exact (Option.some.inj he).symm

/-- What returns is not interrupted. -/
theorem interruptible_ret (a : α) : Interruptible (.ret a : Script α) := by
  rintro tr r ⟨rfl, rfl⟩ -
  exact fun _ hb => nomatch hb

/-- A wait may be. -/
theorem interruptible_sleep (seconds : Nat) : Interruptible (perform (.sleep seconds)) := by
  intro tr r h _
  obtain rfl := finishes_op.mp h
  cases r with
  | ok u => exact fun b hb => List.mem_singleton.mp hb ▸ rfl
  | error e => exact ⟨[], _, rfl, fun _ hb => (nomatch hb), rfl⟩

/-- Looking at the clock is not. -/
theorem interruptible_time : Interruptible (call .time) := by
  intro tr r h _
  obtain ⟨t, rfl, rfl⟩ := finishes_sync.mp h
  exact fun b hb => List.mem_singleton.mp hb ▸ rfl

/-- One after the other. -/
theorem interruptible_bind {x : Script α} {f : α → Script β} (hx : Interruptible x)
    (hf : ∀ a, Interruptible (f a)) : Interruptible (Co.bind x f) := by
  intro tr r h hout
  rcases finishes_bind.mp h with ⟨e, rfl, h₁⟩ | ⟨a, tr₁, tr₂, rfl, h₁, h₂⟩
  · exact hx tr _ h₁ hout
  · exact Raised.append (hx tr₁ _ h₁ hout.left) (hf a tr₂ r h₂ hout.right)

/-- After an attempt: it was not interrupted, or the interruption is raised. -/
theorem interruptible_attempt_bind {x : Script α} {f : Except Exc α → Script β}
    (hx : ∀ tr r, Finishes x tr r → FromOutside tr →
      (∀ b ∈ tr, interrupt b = none) ∧ Interruptible (f r) ∨
        ∃ e, Raised tr (.error e : Except Exc β) ∧ f r = raise e) :
    Interruptible (Co.bind (Co.attempt x) f) := by
  intro tr r h hout
  obtain ⟨r₀, tr₁, tr₂, rfl, h₁, h₂⟩ := finishes_attempt_bind.mp h
  rcases hx tr₁ r₀ h₁ hout.left with ⟨hclean, hf⟩ | ⟨e, hraised, hraise⟩
  · exact Raised.append hclean (hf tr₂ r h₂ hout.right)
  · rw [hraise] at h₂
    obtain ⟨rfl, rfl⟩ := h₂
    rw [List.append_nil]
    exact hraised

/-- One or the other. -/
theorem interruptible_ite {p : Prop} [Decidable p] {x y : Script α} (hx : Interruptible x)
    (hy : Interruptible y) : Interruptible (if p then x else y) := by
  split
  · exact hx
  · exact hy

end Interruptible

/-- An exception that is no `Exception`. -/
theorem eq_base_of_isException {e : Exc} (h : e.isException = false) : ∃ name, e = .base name := by
  cases e with
  | base name => exact ⟨name, rfl⟩
  | _ => cases h

/-- A deletion, or a question for the resource: it is interrupted if it is
cancelled. -/
theorem interrupt_request {req : Request} {ans : Except Exc Response}
    (h : (req.method = .delete || req.method = .get && req.params.isEmpty) = true) :
    interrupt (.op (.request req) ans) = match outcome ans with
      | .error (.base name) => some (.base name)
      | _ => none := if_pos h

/-- A deletion is tried again after an exception, but not after an interruption. -/
theorem interruptible_tryDelete (api : Api) (id : String) (attempts : List Nat) :
    Interruptible (tryDelete api id attempts) := by
  induction attempts with
  | nil => exact interruptible_ret none
  | cons attempt attempts ih =>
    refine interruptible_attempt_bind fun tr r h _ => ?_
    obtain ⟨ans, rfl, rfl⟩ := finishes_deleteItem.mp h
    have hinterrupt : interrupt (.op (.request (api.deleteReq id)) ans) = _ :=
      interrupt_request rfl
    cases hout : outcome ans with
    | ok value =>
      rw [hout] at hinterrupt
      exact .inl ⟨fun b hb => List.mem_singleton.mp hb ▸ hinterrupt, interruptible_ret none⟩
    | error e =>
      rw [hout] at hinterrupt
      show _ ∧ Interruptible (if e.isNotFound then Co.ret (some true)
        else if e.transient && attempt < api.deleteAttempts then
          Co.bind (perform (.sleep api.deleteInterval)) fun _ => tryDelete api id attempts
        else if e.isException then Co.ret (some false) else raise e) ∨ _
      cases hexc : e.isException with
      | true =>
        refine .inl ⟨fun b hb => ?_, interruptible_ite (interruptible_ret _) (interruptible_ite
          (interruptible_bind (interruptible_sleep _) fun _ => ih) (interruptible_ret _))⟩
        obtain rfl := List.mem_singleton.mp hb
        rw [hinterrupt]
        cases e with
        | base name => cases hexc
        | _ => rfl
      | false =>
        obtain ⟨name, rfl⟩ := eq_base_of_isException hexc
        exact .inr ⟨_, ⟨[], _, rfl, fun _ hb => (nomatch hb), hinterrupt⟩, rfl⟩

/-- So is the question whether the resource is gone. -/
theorem interruptible_verifyGone (api : Api) (id : String) (deadline fuel : Nat) :
    Interruptible (verifyGone api id deadline fuel) := by
  induction fuel with
  | zero =>
    rintro tr r ⟨ans, rest, rfl, -⟩ hout
    exact (hout _ List.mem_cons_self).elim
  | succ fuel ih =>
    have hagain := interruptible_bind (interruptible_sleep api.verifyInterval) fun _ => ih
    refine interruptible_bind interruptible_time fun now =>
      interruptible_ite (interruptible_attempt_bind fun tr r h _ => ?_) (interruptible_ret false)
    obtain ⟨ans, rfl, rfl⟩ := finishes_getItem.mp h
    have hinterrupt : interrupt (.op (.request (api.getReq id)) ans) = _ := interrupt_request rfl
    cases hgot : api.got (outcome ans) with
    | ok value =>
      refine .inl ⟨fun b hb => ?_, hagain⟩
      obtain rfl := List.mem_singleton.mp hb
      rw [hinterrupt]
      cases hout : outcome ans with
      | ok value => rfl
      | error e =>
        rw [hout] at hgot
        cases hgot
    | error e =>
      show _ ∧ Interruptible (if e.isNotFound then Co.ret true else if e.isException then _
        else raise e) ∨ _
      cases hexc : e.isException with
      | true =>
        refine .inl ⟨fun b hb => ?_, interruptible_ite (interruptible_ret _) hagain⟩
        obtain rfl := List.mem_singleton.mp hb
        rw [hinterrupt]
        cases hout : outcome ans with
        | ok value => rfl
        | error e' =>
          rw [hout] at hgot
          cases hgot
          cases e with
          | base name => cases hexc
          | _ => rfl
      | false =>
        obtain ⟨name, rfl⟩ := eq_base_of_isException hexc
        rcases got_eq_error hgot with hout | hout
        · rw [hout] at hinterrupt
          exact .inr ⟨_, ⟨[], _, rfl, fun _ hb => (nomatch hb), hinterrupt⟩, rfl⟩
        · cases hout

/-- So are both together. By a lemma for each way of putting programs together. -/
theorem interruptible_deleteAndVerify (api : Api) (second fuel : Nat) (id : String) :
    Interruptible (deleteAndVerify api second fuel id) := by
  refine interruptible_bind (interruptible_tryDelete api id _) fun v => ?_
  cases v with
  | some gone => exact interruptible_ret gone
  | none => exact interruptible_bind interruptible_time fun _ => interruptible_verifyGone api id _ fuel

/-! ## A deletion

The law counts deletions, and it forbids those of other instances. Both can be
seen from the requests of the deletion: it sends at most one for each attempt,
all to the path of one resource, and its verification sends none. -/

/-- Only one resource is asked for, and deleted. -/
def onResource (api : Api) (id : String) : Answer sig → Prop
  | .op (.request req) _ => req = api.deleteReq id ∨ req = api.getReq id
  | .op (.sleep _) _ | .op .diverge _ | .call .time _ => True
  | _ => False

/-- No other resource is concerned. -/
theorem sees_deleteAndVerify (api : Api) (second fuel : Nat) (id : String) :
    Sees (onResource api id) (deleteAndVerify api second fuel id) := by
  have htry : Sees (onResource api id)
      (tryDelete api id (List.range' 1 api.deleteAttempts)) := by
    intro tr r h a ha
    match a, sees_tryDelete api id _ tr r h a ha with
    | .op (.request req) _, hreq => exact .inl hreq
    | .op (.sleep _) _, _ => trivial
  have hverify : ∀ deadline, Sees (onResource api id) (verifyGone api id deadline fuel) := by
    intro deadline tr r h a ha
    match a, sees_verifyGone api id deadline fuel tr r h a ha with
    | .op (.request req) _, hreq => exact .inr hreq
    | .op (.sleep _) _, _ => trivial
    | .op .diverge _, _ => trivial
    | .call .time _, _ => trivial
  refine sees_bind htry fun v => ?_
  cases v with
  | some gone => exact sees_ret gone
  | none => exact sees_bind (sees_sync fun _ => trivial) fun _ => hverify _

/-- It is deleted first of all. -/
theorem issued_deleteAndVerify {api : Api} {second fuel : Nat} {id : String} {tr : Trace sig}
    {r : Except Exc Bool} (h : Finishes (deleteAndVerify api second fuel id) tr r)
    (hattempts : 0 < api.deleteAttempts) : ∃ ans, .op (.request (api.deleteReq id)) ans ∈ tr := by
  have htry : ∀ {tr : Trace sig} {r : Except Exc (Option Bool)},
      Finishes (tryDelete api id (List.range' 1 api.deleteAttempts)) tr r →
        ∃ ans, .op (.request (api.deleteReq id)) ans ∈ tr := by
    intro tr r h
    obtain ⟨n, hn⟩ := Nat.exists_eq_succ_of_ne_zero (Nat.ne_of_gt hattempts)
    rw [hn, List.range'_succ] at h
    obtain ⟨r₀, tr₁, tr₂, rfl, h₁, -⟩ := finishes_attempt_bind.mp h
    obtain ⟨ans, rfl, -⟩ := finishes_deleteItem.mp h₁
    exact ⟨ans, List.mem_cons_self⟩
  rcases finishes_bind.mp h with ⟨e, rfl, h₁⟩ | ⟨v, tr₁, tr₂, rfl, h₁, -⟩
  · exact htry h₁
  · obtain ⟨ans, hmem⟩ := htry h₁
    exact ⟨ans, List.mem_append_left _ hmem⟩

/-- There is at most one request for each attempt. -/
theorem length_deletes_tryDelete {api : Api} {id : String} {attempts : List Nat}
    {tr : Trace sig} {r : Except Exc (Option Bool)}
    (h : Finishes (tryDelete api id attempts) tr r) : (deletes tr).length ≤ attempts.length := by
  induction attempts generalizing tr with
  | nil =>
    obtain ⟨rfl, -⟩ := h
    exact Nat.le_refl 0
  | cons attempt attempts ih =>
    obtain ⟨r₀, tr₁, tr₂, rfl, h₁, h₂⟩ := finishes_attempt_bind.mp h
    obtain ⟨ans, rfl, rfl⟩ := finishes_deleteItem.mp h₁
    refine Nat.succ_le_succ (?_ : (deletes tr₂).length ≤ attempts.length)
    cases hout : outcome ans with
    | ok value =>
      rw [hout] at h₂
      obtain ⟨rfl, -⟩ := h₂
      exact Nat.zero_le _
    | error e =>
      rw [hout] at h₂
      change Finishes (if e.isNotFound then Co.ret (some true)
        else if e.transient && attempt < api.deleteAttempts then
          Co.bind (perform (.sleep api.deleteInterval)) fun _ => tryDelete api id attempts
        else if e.isException then Co.ret (some false) else raise e) tr₂ r at h₂
      split at h₂
      · obtain ⟨rfl, -⟩ := h₂
        exact Nat.zero_le _
      split at h₂
      · rcases finishes_bind.mp h₂ with ⟨_, -, hs⟩ | ⟨_, tr₃, tr₄, rfl, hs, hrest⟩
        · obtain rfl := finishes_op.mp hs
          exact Nat.zero_le _
        · obtain rfl := finishes_op.mp hs
          show (deletes tr₄).length ≤ _
          exact ih hrest
      split at h₂
      all_goals
        obtain ⟨rfl, -⟩ := h₂
        exact Nat.zero_le _

/-- Verifying deletes nothing. -/
theorem length_deletes_deleteAndVerify {api : Api} {second fuel : Nat} {id : String}
    {tr : Trace sig} {r : Except Exc Bool}
    (h : Finishes (deleteAndVerify api second fuel id) tr r) :
    (deletes tr).length ≤ api.deleteAttempts := by
  rcases finishes_bind.mp h with ⟨e, rfl, h₁⟩ | ⟨v, tr₁, tr₂, rfl, h₁, h₂⟩
  · have hlen := length_deletes_tryDelete h₁
    rw [List.length_range'] at hlen
    exact hlen
  · rw [deletes_append, List.length_append]
    have hlen := length_deletes_tryDelete h₁
    rw [List.length_range'] at hlen
    have hnone : deletes tr₂ = [] := by
      cases v with
      | some gone =>
        obtain ⟨rfl, -⟩ := h₂
        rfl
      | none =>
        obtain ⟨t, rest, rfl, hverify⟩ := h₂
        show deletes rest = []
        exact deletes_onVerify (sees_verifyGone api id _ fuel rest r hverify)
    rw [hnone]
    exact hlen

/-! ## The attempts to find the orphan

The orphan may be shown late, so the listing is repeated. A listing that fails
tells nothing, and counts as one that has shown nothing. What remains of all
attempts is whether some listing has shown the orphan, and how many there were.
-/

/-- A listing at a path: it asks for pages, and finds what they show. -/
structure Lists (path : String) (shows : Answer sig → List String)
    (listing : Script (Option String)) : Prop where
  asks : ∀ tr r, Finishes listing tr r → FromOutside tr → ∀ a ∈ tr, isListing path a = true
  finds : ∀ tr r, Finishes listing tr r → FromOutside tr →
    (∃ id, r = .ok (some id) ∧ ∃ a ∈ tr, id ∈ shows a) ∨
      (∀ id, r ≠ .ok (some id)) ∧ ∀ a ∈ tr, shows a = []
  /-- a wait shows nothing -/
  waits : ∀ seconds ans, shows (.op (.sleep seconds) ans) = []

/-- Going through the pages is such a listing. -/
theorem lists_findItem {pages : Pages} {pick : Value → Option String} {fuel : Nat}
    {params : List (String × Value)} (hparams : params ≠ []) :
    Lists pages.path (picked pages pick) (findItem pages pick fuel params) where
  asks _ _ h hout a ha := sees_findItem hparams _ _ h a ha (hout a ha)
  finds _ _ h hout := finishes_findItem hparams h hout
  waits _ _ := rfl

section Locate

variable {path : String} {shows : Answer sig → List String} {listing : Script (Option String)}
  {attempts interval : Nat}

/-- What the attempts leave: at most so many listings, and waits. -/
structure Located (path : String) (shows : Answer sig → List String)
    (listing : Script (Option String)) (n : Nat) (tr : Trace sig)
    (r : Except Exc (Option String)) : Prop where
  runs : ∃ runs : List (Trace sig), runs.length ≤ n ∧
    (∀ run ∈ runs, ∃ r, Finishes listing run r) ∧ tr.filter (isListing path) = runs.flatten
  asks : ∀ a ∈ tr, isListing path a = true ∨ ∃ seconds ans, a = .op (.sleep seconds) ans
  finds : (∃ id, r = .ok (some id) ∧ ∃ a ∈ tr, id ∈ shows a) ∨
    (∀ id, r ≠ .ok (some id)) ∧ ∀ a ∈ tr, shows a = []

/-- Locating an orphan is interrupted only in its waits: a listing that fails is
tried again. -/
theorem interruptible_locate (hlists : Lists path shows listing) (l : List Nat) :
    Interruptible (locate attempts interval listing l) := by
  induction l with
  | nil => exact interruptible_ret none
  | cons attempt l ih =>
    refine interruptible_attempt_bind fun tr r h hout => .inl ⟨fun b hb =>
      interrupt_of_isListing (hlists.asks tr r h hout b hb), ?_⟩
    have hwait := interruptible_bind (interruptible_sleep interval) fun _ => ih
    match r with
    | .ok (some id) => exact interruptible_ret _
    | .ok none => exact interruptible_ite hwait ih
    | .error e => exact interruptible_ite hwait (interruptible_ret _)

/-- Only waits: nothing is listed. -/
theorem Located.of_waits (hlists : Lists path shows listing) {n : Nat} {tr : Trace sig}
    {r : Except Exc (Option String)} (hwaits : ∀ a ∈ tr, ∃ seconds ans, a = .op (.sleep seconds) ans)
    (hr : ∀ id, r ≠ .ok (some id)) : Located path shows listing n tr r where
  runs := by
    refine ⟨[], Nat.zero_le n, fun _ hrun => (nomatch hrun), List.filter_eq_nil_iff.mpr ?_⟩
    intro a ha
    obtain ⟨seconds, ans, rfl⟩ := hwaits a ha
    exact Bool.false_ne_true
  asks a ha := .inr (hwaits a ha)
  finds := by
    refine .inr ⟨hr, fun a ha => ?_⟩
    obtain ⟨seconds, ans, rfl⟩ := hwaits a ha
    exact hlists.waits seconds ans

/-- One more listing, before the others. -/
theorem Located.cons (hlists : Lists path shows listing) {n : Nat} {run tr : Trace sig}
    {r₀ r : Except Exc (Option String)} (hrun : Finishes listing run r₀) (hout : FromOutside run)
    (hnone : ∀ id, r₀ ≠ .ok (some id)) (h : Located path shows listing n tr r) :
    Located path shows listing (n + 1) (run ++ tr) r where
  runs := by
    obtain ⟨runs, hlen, hruns, hfilter⟩ := h.runs
    refine ⟨run :: runs, Nat.succ_le_succ hlen, List.forall_mem_cons.mpr ⟨⟨r₀, hrun⟩, hruns⟩, ?_⟩
    rw [List.filter_append, List.filter_eq_self.mpr (hlists.asks run r₀ hrun hout), hfilter]
    rfl
  asks a ha := (List.mem_append.mp ha).elim (fun ha => .inl (hlists.asks run r₀ hrun hout a ha))
    (h.asks a)
  finds := by
    rcases hlists.finds run r₀ hrun hout with ⟨id, rfl, -⟩ | ⟨-, hshows⟩
    · exact absurd rfl (hnone id)
    rcases h.finds with ⟨id, rfl, a, ha, hid⟩ | ⟨hr, hrest⟩
    · exact .inl ⟨id, rfl, a, List.mem_append_right _ ha, hid⟩
    · exact .inr ⟨hr, fun a ha => (List.mem_append.mp ha).elim (hshows a) (hrest a)⟩

/-- A wait, before the others. -/
theorem Located.wait (hlists : Lists path shows listing) {n seconds : Nat} {tr : Trace sig}
    {r : Except Exc (Option String)} (h : Located path shows listing n tr r) :
    Located path shows listing n (.op (.sleep seconds) (.ok ()) :: tr) r where
  runs := h.runs
  asks := List.forall_mem_cons.mpr ⟨.inr ⟨seconds, _, rfl⟩, h.asks⟩
  finds := by
    rcases h.finds with ⟨id, rfl, a, ha, hid⟩ | ⟨hr, hrest⟩
    · exact .inl ⟨id, rfl, a, List.mem_cons_of_mem _ ha, hid⟩
    · exact .inr ⟨hr, List.forall_mem_cons.mpr ⟨hlists.waits seconds _, hrest⟩⟩

/-- **The attempts find the orphan if and only if a listing shows it.** By induction
on the attempts. -/
theorem finishes_locate (hlists : Lists path shows listing) {l : List Nat} {tr : Trace sig}
    {r : Except Exc (Option String)}
    (h : Finishes (locate attempts interval listing l) tr r) (hout : FromOutside tr) :
    Located path shows listing l.length tr r := by
  induction l generalizing tr with
  | nil =>
    obtain ⟨rfl, rfl⟩ := h
    exact .of_waits hlists (fun _ ha => nomatch ha) fun _ hr => nomatch hr
  | cons attempt l ih =>
    obtain ⟨r₀, run, rest, rfl, hrun, hrest⟩ := finishes_attempt_bind.mp h
    have hwait : Finishes (Co.bind (perform (.sleep interval)) fun _ =>
        locate attempts interval listing l) rest r → Located path shows listing l.length rest r := by
      intro hwait
      rcases finishes_bind.mp hwait with ⟨e, rfl, hs⟩ | ⟨_, tr₁, tr₂, rfl, hs, hgo⟩
      · obtain rfl := finishes_op.mp hs
        exact .of_waits hlists (fun a ha => ⟨_, _, List.mem_singleton.mp ha⟩) fun _ hr => nomatch hr
      · obtain rfl := finishes_op.mp hs
        exact (ih hgo hout.right.right).wait hlists
    match r₀, hrun, hrest with
    | .ok (some id), hrun, hrest =>
      obtain ⟨rfl, rfl⟩ := hrest
      have hasks := hlists.asks run _ hrun hout.left
      rw [List.append_nil]
      refine ⟨⟨[run], Nat.succ_le_succ (Nat.zero_le _), ?_, ?_⟩, fun a ha => .inl (hasks a ha), ?_⟩
      · exact List.forall_mem_singleton.mpr ⟨_, hrun⟩
      · rw [List.filter_eq_self.mpr hasks]
        exact (List.append_nil run).symm
      · exact hlists.finds run _ hrun hout.left
    | .ok none, hrun, hrest =>
      refine .cons hlists hrun hout.left (fun _ hr => nomatch hr) ?_
      change Finishes (if attempt < attempts then _ else _) rest r at hrest
      split at hrest
      · exact hwait hrest
      · exact ih hrest hout.right
    | .error e, hrun, hrest =>
      refine .cons hlists hrun hout.left (fun _ hr => nomatch hr) ?_
      change Finishes (if attempt < attempts then _ else Co.ret none) rest r at hrest
      split at hrest
      · exact hwait hrest
      · obtain ⟨rfl, rfl⟩ := hrest
        exact .of_waits hlists (fun _ ha => nomatch ha) fun _ hr => nomatch hr

end Locate

end Yascheduler.Http
