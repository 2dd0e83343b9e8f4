import Yascheduler.Infra.Providers.Hetzner
import Yascheduler.Async.Trace

/-!
# A verified deletion

A resource is gone when the API answers 404, to a deletion or to a question for
it, and `_delete_and_verify` is to return `True` then and only then. But the
client reads the body of an error before it makes the error, for the message.
When the body of a 404 cannot be read, the status is lost with it: the 404 is a
transport error, or no error of the API at all. So the verdict is right unless
there was a 404 and none that could be read.

## Two ways to be gone

The deletion itself may be answered with 404, and so may a question for the
resource afterwards. Either ends the whole thing, and neither can be left out: a
provider may accept a deletion and finish it later, and it may forget a resource
before it was asked.

## The clock

The verification ends when its time is over, and time is an answer like any
other. So that it ends at all needs a clock that goes on (`Ticks`), and with one
it needs no fairness of the API: it may answer anything, any number of times.

What the two providers do is the same code under other names. It is verified
once, for a client that can be either, and carried over by renaming the requests
(`readdress`).
-/

namespace Yascheduler.Http

open Async

/-! ## What an answer says

The API knows whether the resource is gone, and the client knows what it could
read. Both are functions of an answer. The verdict is to follow the first, and
can only follow the second. -/

/-- The error of a request, as the client raises it. What it raises for a broken
connection or a body that is no JSON has no status. -/
def Exc.wrap : Exc → Exc
  | .jsonDecode | .client _ => .api none
  | exc => exc

/-- The value of a response that was read. -/
def Text.load : Text → Except Exc Value
  | .empty => .ok .null
  | .json value => .ok value
  | .notJson => .error .jsonDecode
  | .unloadable name => .error (.other name)

/-- What the client makes of the answer to a request. The body is read before the
status is looked at, so a body that cannot be read hides the status. -/
def outcome : Except Exc Response → Except Exc Value
  | .error e => .error e.wrap
  | .ok resp =>
    match resp.text with
    | .error e => .error e.wrap
    | .ok text =>
      if 400 ≤ resp.status then .error (.api (some resp.status)) else text.load.mapError Exc.wrap

/-- A request is answered 404. -/
def answered404 : Answer sig → Bool
  | .op (.request _) (.ok resp) => resp.status = notFound
  | _ => false

/-- A request is answered 404, and the body can be read. Only such a 404 reaches the
code as one. -/
def readable404 : Answer sig → Bool
  | .op (.request _) (.ok resp) => resp.status = notFound && resp.text.isOk
  | _ => false

/-- What the deletions that were issued came to. -/
def deletes (tr : Trace sig) : List (Except Exc Value) :=
  tr.filterMap fun a => match a with
    | .op (.request req) ans => if req.method = .delete then some (outcome ans) else none
    | _ => none

/-- An exception of the session, and no one else's. -/
def Exc.fromSession : Exc → Bool
  | .client _ | .other _ => true
  | _ => false

/-- Only requests fail, and only with an exception of the session. -/
def fromApi : Answer sig → Prop
  | .op (.request _) (.error e) => e.fromSession = true
  | .op (.request _) (.ok resp) => ∀ e, resp.text = .error e → e.fromSession = true
  | .op .diverge _ => True
  | .op _ (.error _) => False
  | _ => True

/-- The API answers in any way, and nothing else fails. -/
def FromApi (tr : Trace sig) : Prop := ∀ a ∈ tr, fromApi a

/-- The clock after an answer, at least. -/
def after (now : Nat) : Answer sig → Nat
  | .call .time t => t
  | .op (.sleep _) (.ok _) => now + 1
  | _ => now

/-- **The clock advances at each sleep**, and never goes back. Otherwise the
verification might not end. -/
def Ticks : Nat → Trace sig → Prop
  | _, [] => True
  | now, a :: tr => now ≤ after now a ∧ Ticks (after now a) tr

/-- The request to delete a resource. -/
def Api.deleteReq (api : Api) (id : String) : Request := { method := .delete, path := api.path id }

/-- The request for a resource. -/
def Api.getReq (api : Api) (id : String) : Request := { method := .get, path := api.path id }

/-- A deletion that failed for good. -/
def Permanent (o : Except Exc Value) : Prop :=
  ∃ e, o = .error e ∧ e.isNotFound = false ∧ e.transient = false

/-- A deletion failed for good, or the last that is allowed failed. Then nothing is
verified. -/
def GaveUp (attempts : Nat) (outs : List (Except Exc Value)) : Prop :=
  (∃ o ∈ outs, Permanent o) ∨
    outs.length = attempts ∧ ∃ before e, outs = before ++ [.error e] ∧ e.isNotFound = false

/-- The two clients make the same attempts and take the same time. What they differ
in is where they send their requests, and the shapes they expect. -/
structure Api.SameConstants (api other : Api) : Prop where
  deleteAttempts : api.deleteAttempts = other.deleteAttempts
  deleteInterval : api.deleteInterval = other.deleteInterval
  verifyTimeout : api.verifyTimeout = other.verifyTimeout
  verifyInterval : api.verifyInterval = other.verifyInterval

/-- The same answer, to a request for another path. -/
def readdress (path : String) : Answer sig → Answer sig
  | .op (.request req) ans => .op (.request { req with path }) ans
  | a => a

/-- **A deletion is verified.** It ends, raises nothing, stays within its bounds,
and says that the resource is gone exactly if it was answered so. -/
structure Verified (api : Api) (second fuel : Nat) (id : String) (tr : Trace sig)
    (r : Except Exc Bool) : Prop where
  terminates : ∀ ans, .op .diverge ans ∉ tr
  /-- nothing is raised -/
  returns : ∃ gone, r = .ok gone
  bounded : (deletes tr).length ≤ api.deleteAttempts
  gone : r = .ok true ↔ ∃ a ∈ tr, answered404 a = true
  /-- it gives up without a verification -/
  givesUp : r = .ok false ∧ (∀ t, .call .time t ∉ tr) ↔ GaveUp api.deleteAttempts (deletes tr)
  /-- the deletion of a node raises if this returns `False` -/
  node : ∀ gone, r = .ok gone → ∀ r', Finishes (deleteNode api second fuel id)
    (tr ++ [.op .close (.ok ())]) r' ↔ r' = if gone then .ok () else .error (.api none)
  /-- another client gives the same verdict -/
  agrees : ∀ other id', api.SameConstants other →
    Finishes (deleteAndVerify other second fuel id') (tr.map (readdress (other.path id'))) r

/-! ## Requests -/

/-- What is done with the response. -/
def consume (ans : Except Exc Response) : Script Value :=
  Co.tryCatch (Co.bind (Co.ofExcept (S := sig) ans) fun resp =>
    if 400 ≤ resp.status then
      Co.bind resp.read fun _ => raise (.api (some resp.status))
    else Co.bind resp.read fun text => Co.ofExcept (S := sig) text.load) fun exc => raise exc.wrap

/-- It comes to the outcome of the answer, and awaits nothing. -/
theorem finishes_consume {ans : Except Exc Response} {tr : Trace sig} {r : Except Exc Value} :
    Finishes (consume ans) tr r ↔ tr = [] ∧ r = outcome ans := by
  match ans with
  | .error e => exact Iff.rfl
  | .ok { status, text := .error e } =>
    show Finishes (Co.tryCatch (if 400 ≤ status then raise e else raise e) _) tr r ↔ _
    rw [ite_id]
    exact Iff.rfl
  | .ok { status, text := .ok text } =>
    show Finishes (Co.tryCatch (if 400 ≤ status then raise (.api (some status))
      else Co.ofExcept (S := sig) text.load) _) tr r ↔ tr = [] ∧ r = if 400 ≤ status then
        .error (.api (some status)) else text.load.mapError Exc.wrap
    split
    · exact Iff.rfl
    · cases text <;> exact Iff.rfl

/-- A request is one await, and what is done with the response. -/
theorem request_eq (req : Request) : request req = .await (.request req) consume := by
  show Co.await _ _ = _
  congr 1
  funext ans
  match ans with
  | .error e => cases e <;> rfl
  | .ok { status, text := .error e } =>
    show Co.tryCatch (if 400 ≤ status then raise e else raise e) _ =
      Co.tryCatch (if 400 ≤ status then raise e else raise e) _
    rw [ite_id]
    cases e <;> rfl
  | .ok { status, text := .ok text } =>
    show Co.tryCatch (if 400 ≤ status then _ else _) _ =
      Co.tryCatch (if 400 ≤ status then raise (.api (some status)) else Co.ofExcept (S := sig) text.load) _
    split
    · rfl
    · cases text <;> rfl

/-- A request has one answer, and its outcome is that of the answer. -/
theorem finishes_request {req : Request} {tr : Trace sig} {r : Except Exc Value} :
    Finishes (request req) tr r ↔ ∃ ans, tr = [.op (.request req) ans] ∧ r = outcome ans := by
  rw [request_eq]
  constructor
  · rintro ⟨ans, rest, rfl, h⟩
    obtain ⟨rfl, rfl⟩ := finishes_consume.mp h
    exact ⟨ans, rfl, rfl⟩
  · rintro ⟨ans, rfl, rfl⟩
    exact ⟨ans, [], rfl, finishes_consume.mpr ⟨rfl, rfl⟩⟩

/-- So has a deletion. -/
theorem finishes_deleteItem {api : Api} {id : String} {tr : Trace sig} {r : Except Exc Unit} :
    Finishes (deleteItem api id) tr r ↔ ∃ ans, tr = [.op (.request (api.deleteReq id)) ans] ∧
      r = (outcome ans).map fun _ => () := by
  constructor
  · intro h
    rcases finishes_bind.mp h with ⟨e, rfl, h₁⟩ | ⟨value, tr₁, tr₂, rfl, h₁, rfl, rfl⟩
    · obtain ⟨ans, rfl, he⟩ := finishes_request.mp h₁
      exact ⟨ans, rfl, by rw [← he]; rfl⟩
    · obtain ⟨ans, rfl, hvalue⟩ := finishes_request.mp h₁
      exact ⟨ans, List.append_nil _, by rw [← hvalue]; rfl⟩
  · rintro ⟨ans, rfl, rfl⟩
    refine finishes_bind.mpr ?_
    cases hans : outcome ans with
    | error e => exact .inl ⟨e, rfl, finishes_request.mpr ⟨ans, rfl, hans.symm⟩⟩
    | ok value =>
      exact .inr ⟨value, _, [], rfl, finishes_request.mpr ⟨ans, rfl, hans.symm⟩, rfl, rfl⟩

/-- The outcome of asking for a resource. -/
def Api.got (api : Api) (o : Except Exc Value) : Except Exc Value :=
  o.bind fun value =>
    match api.item value with
    | some item => .ok item
    | none => .error (.api none)

/-- A request whose response is to hold a resource. -/
theorem finishes_requestItem {api : Api} {req : Request} {tr : Trace sig}
    {r : Except Exc Value} : Finishes (Co.bind (request req) fun value =>
      match api.item value with
      | some item => Co.ret item
      | none => raise (.api none)) tr r ↔
      ∃ ans, tr = [.op (.request req) ans] ∧ r = api.got (outcome ans) := by
  have hitem : ∀ {value : Value} {tr : Trace sig} {r : Except Exc Value},
      Finishes (match api.item value with
        | some item => Co.ret item
        | none => raise (.api none) : Script Value) tr r ↔ tr = [] ∧ r = api.got (.ok value) := by
    intro value tr r
    show _ ↔ tr = [] ∧ r = match api.item value with | some item => _ | none => _
    cases api.item value <;> exact Iff.rfl
  constructor
  · intro h
    rcases finishes_bind.mp h with ⟨e, rfl, h₁⟩ | ⟨value, tr₁, tr₂, rfl, h₁, h₂⟩
    · obtain ⟨ans, rfl, he⟩ := finishes_request.mp h₁
      exact ⟨ans, rfl, by rw [← he]; rfl⟩
    · obtain ⟨ans, rfl, hvalue⟩ := finishes_request.mp h₁
      obtain ⟨rfl, rfl⟩ := hitem.mp h₂
      exact ⟨ans, List.append_nil _, by rw [← hvalue]⟩
  · rintro ⟨ans, rfl, rfl⟩
    refine finishes_bind.mpr ?_
    cases hans : outcome ans with
    | error e => exact .inl ⟨e, rfl, finishes_request.mpr ⟨ans, rfl, hans.symm⟩⟩
    | ok value =>
      exact .inr ⟨value, _, [], rfl, finishes_request.mpr ⟨ans, rfl, hans.symm⟩,
        hitem.mpr ⟨rfl, rfl⟩⟩

/-- And a question for a resource. -/
theorem finishes_getItem {api : Api} {id : String} {tr : Trace sig} {r : Except Exc Value} :
    Finishes (getItem api id) tr r ↔ ∃ ans, tr = [.op (.request (api.getReq id)) ans] ∧
      r = api.got (outcome ans) := finishes_requestItem

/-! ## What is readable -/

/-- An exception of the session is no 404 to the client. -/
theorem wrap_fromSession {e : Exc} (h : e.fromSession = true) :
    e.wrap.isNotFound = false ∧ e.wrap.isException = true := by
  cases e with
  | client name => exact ⟨rfl, rfl⟩
  | other name => exact ⟨rfl, rfl⟩
  | api status => cases h
  | jsonDecode => cases h
  | base name => cases h

/-- Neither is a body that is not loaded. -/
theorem wrap_load {text : Text} {e : Exc} (h : text.load.mapError Exc.wrap = .error e) :
    e.isNotFound = false ∧ e.isException = true := by
  cases text <;> cases h <;> exact ⟨rfl, rfl⟩

/-- The error is that of a 404 if and only if the 404 can be read. -/
theorem readable404_iff {req : Request} {ans : Except Exc Response}
    (h : fromApi (.op (.request req) ans)) : readable404 (.op (.request req) ans) = true ↔
      ∃ e, outcome ans = .error e ∧ e.isNotFound = true := by
  match ans, h with
  | .error e, h =>
    refine ⟨fun hread => (nomatch hread), fun ⟨e', he, hnot⟩ => ?_⟩
    cases he
    rw [(wrap_fromSession h).1] at hnot
    cases hnot
  | .ok { status, text := .error e }, h =>
    refine ⟨fun hread => ?_, fun ⟨e', he, hnot⟩ => ?_⟩
    · cases (Bool.and_eq_true_iff.mp hread).2
    · cases he
      rw [(wrap_fromSession (h e rfl)).1] at hnot
      cases hnot
  | .ok { status, text := .ok text }, h =>
    constructor
    · intro hread
      obtain rfl : status = notFound := of_decide_eq_true (Bool.and_eq_true_iff.mp hread).1
      exact ⟨.api (some notFound), rfl, by decide⟩
    · rintro ⟨e, he, hnot⟩
      change (if 400 ≤ status then _ else _) = _ at he
      split at he
      · cases he
        have hstatus : Exc.api (some status) = .api (some notFound) := of_decide_eq_true hnot
        cases hstatus
        rfl
      · rw [(wrap_load he).1] at hnot
        cases hnot

/-- A request raises no `BaseException`. -/
theorem isException_outcome {req : Request} {ans : Except Exc Response}
    (h : fromApi (.op (.request req) ans)) {e : Exc} (he : outcome ans = .error e) :
    e.isException = true := by
  match ans, h with
  | .error e', h =>
    cases he
    exact (wrap_fromSession h).2
  | .ok { status, text := .error e' }, h =>
    cases he
    exact (wrap_fromSession (h e' rfl)).2
  | .ok { status, text := .ok text }, h =>
    change (if 400 ≤ status then _ else _) = _ at he
    split at he
    · cases he
      rfl
    · exact (wrap_load he).2

/-- A 404 is not transient. -/
theorem transient_of_isNotFound {e : Exc} (h : e.isNotFound = true) : e.transient = false := by
  obtain rfl : e = .api (some notFound) := of_decide_eq_true h
  decide

/-! ## The attempts to delete

An attempt is repeated after an error that may pass. The attempts end with one
that was accepted, with a 404, or with an error that does not pass or comes too
often; `Tries` has a case for each. -/

/-- How the attempts to delete end, when `n` are allowed. What the attempts came to
is an index, so that it can be compared with the answers. -/
inductive Tries (n : Nat) : List (Except Exc Value) → Option Bool → Prop where
  | accepted (errs : List Exc) {value : Value} (hlen : errs.length < n)
      (h : ∀ e ∈ errs, e.transient = true) : Tries n (errs.map .error ++ [.ok value]) none
  | gone (errs : List Exc) {e : Exc} (hlen : errs.length < n) (h : ∀ e ∈ errs, e.transient = true)
      (he : e.isNotFound = true) : Tries n (errs.map .error ++ [.error e]) (some true)
  | refused (errs : List Exc) {e : Exc} (hlen : errs.length < n)
      (h : ∀ e ∈ errs, e.transient = true) (hnot : e.isNotFound = false)
      (he : e.transient = false) : Tries n (errs.map .error ++ [.error e]) (some false)
  | exhausted (errs : List Exc) {e : Exc} (hlen : errs.length + 1 = n)
      (h : ∀ e ∈ errs, e.transient = true) (he : e.transient = true) :
      Tries n (errs.map .error ++ [.error e]) (some false)
  | none (hn : n = 0) : Tries n [] none

/-- One more attempt that may be repeated, before the others. -/
theorem Tries.cons {n : Nat} {outs : List (Except Exc Value)} {v : Option Bool} {e : Exc}
    (h : Tries n outs v) (hn : 0 < n) (he : e.transient = true) :
    Tries (n + 1) (.error e :: outs) v := by
  have hall : ∀ {errs : List Exc}, (∀ e ∈ errs, e.transient = true) →
      ∀ e' ∈ e :: errs, e'.transient = true := fun h => List.forall_mem_cons.mpr ⟨he, h⟩
  cases h with
  | accepted errs hlen h => exact .accepted (e :: errs) (Nat.succ_lt_succ hlen) (hall h)
  | gone errs hlen h hnot => exact .gone (e :: errs) (Nat.succ_lt_succ hlen) (hall h) hnot
  | refused errs hlen h hnot hlast =>
    exact .refused (e :: errs) (Nat.succ_lt_succ hlen) (hall h) hnot hlast
  | exhausted errs hlen h hlast =>
    exact .exhausted (e :: errs) (congrArg (· + 1) hlen) (hall h) hlast
  | none hzero => exact absurd hzero (Nat.ne_of_gt hn)

/-- It holds of the first part of a trace. -/
theorem FromApi.left {tr tr' : Trace sig} (h : FromApi (tr ++ tr')) : FromApi tr :=
  fun a ha => h a (List.mem_append_left _ ha)

/-- And of the second. -/
theorem FromApi.right {tr tr' : Trace sig} (h : FromApi (tr ++ tr')) : FromApi tr' :=
  fun a ha => h a (List.mem_append_right _ ha)

/-- A sleep is not interrupted. -/
theorem finishes_sleep {seconds : Nat} {tr : Trace sig} {r : Except Exc Unit}
    (h : Finishes (perform (.sleep seconds)) tr r) (hapi : FromApi tr) :
    r = .ok () ∧ tr = [.op (.sleep seconds) (.ok ())] := by
  obtain rfl := finishes_op.mp h
  cases r with
  | ok u => exact ⟨rfl, rfl⟩
  | error e => exact (hapi _ List.mem_cons_self).elim

/-- The deletions of two parts, one after the other. -/
theorem deletes_append (tr tr' : Trace sig) : deletes (tr ++ tr') = deletes tr ++ deletes tr' :=
  List.filterMap_append

/-- The attempts end in one of these ways. By induction on the attempts. -/
theorem finishes_tryDelete {api : Api} {id : String} {k m : Nat} {tr : Trace sig}
    {r : Except Exc (Option Bool)} (hk : k + m = api.deleteAttempts + 1)
    (h : Finishes (tryDelete api id (List.range' k m)) tr r) (hapi : FromApi tr) :
    ∃ v, r = .ok v ∧ Tries m (deletes tr) v := by
  induction m generalizing k tr with
  | zero =>
    obtain ⟨rfl, rfl⟩ := h
    exact ⟨none, rfl, .none rfl⟩
  | succ m ih =>
    rw [List.range'_succ] at h
    obtain ⟨r₀, tr₁, tr₂, rfl, h₁, h₂⟩ := finishes_attempt_bind.mp h
    obtain ⟨ans, rfl, rfl⟩ := finishes_deleteItem.mp h₁
    rw [deletes_append]
    show ∃ v, r = .ok v ∧ Tries (m + 1) (outcome ans :: deletes tr₂) v
    have hans := hapi.left _ List.mem_cons_self
    cases hout : outcome ans with
    | ok value =>
      rw [hout] at h₂
      obtain ⟨rfl, rfl⟩ := h₂
      exact ⟨none, rfl, .accepted [] (Nat.succ_pos m) fun _ he => nomatch he⟩
    | error e =>
      rw [hout] at h₂
      change Finishes (if e.isNotFound then Co.ret (some true)
        else if e.transient && k < api.deleteAttempts then
          Co.bind (perform (.sleep api.deleteInterval)) fun _ =>
            tryDelete api id (List.range' (k + 1) m)
        else if e.isException then Co.ret (some false) else raise e) tr₂ r at h₂
      cases hnot : e.isNotFound with
      | true =>
        rw [hnot] at h₂
        obtain ⟨rfl, rfl⟩ := h₂
        exact ⟨_, rfl, .gone [] (Nat.succ_pos m) (fun _ he => nomatch he) hnot⟩
      | false =>
        rw [hnot, isException_outcome hans hout] at h₂
        cases htransient : e.transient with
        | false =>
          rw [htransient] at h₂
          obtain ⟨rfl, rfl⟩ := h₂
          exact ⟨_, rfl, .refused [] (Nat.succ_pos m) (fun _ he => nomatch he) hnot htransient⟩
        | true =>
          rw [htransient, Bool.true_and] at h₂
          by_cases hlt : k < api.deleteAttempts
          · rw [decide_eq_true hlt] at h₂
            rcases finishes_bind.mp h₂ with ⟨_, rfl, hsleep⟩ | ⟨_, tr₃, tr₄, rfl, hsleep, hrest⟩
            · cases (finishes_sleep hsleep hapi.right).1
            · obtain ⟨-, rfl⟩ := finishes_sleep hsleep hapi.right.left
              obtain ⟨v, rfl, htries⟩ := ih (by omega) hrest hapi.right.right
              exact ⟨v, rfl, htries.cons (by omega) htransient⟩
          · rw [decide_eq_false hlt] at h₂
            obtain ⟨rfl, rfl⟩ := h₂
            exact ⟨_, rfl, .exhausted [] (by show 0 + 1 = m + 1; omega) (fun _ he => nomatch he) htransient⟩

/-- There are no more than allowed. -/
theorem Tries.length_le {n : Nat} {outs : List (Except Exc Value)} {v : Option Bool}
    (h : Tries n outs v) : outs.length ≤ n := by
  cases h with
  | none => exact Nat.zero_le n
  | exhausted errs hlen =>
    rw [List.length_append, List.length_map]
    exact Nat.le_of_eq hlen
  | accepted errs hlen | gone errs hlen | refused errs hlen =>
    rw [List.length_append, List.length_map]
    exact hlen

/-- An outcome that is not the last is a transient error. -/
theorem mem_tried {errs : List Exc} {last o : Except Exc Value}
    (h : ∀ e ∈ errs, e.transient = true) (ho : o ∈ errs.map .error ++ [last]) :
    o = last ∨ ∃ e, o = .error e ∧ e.transient = true ∧ e.isNotFound = false := by
  rcases List.mem_append.mp ho with ho | ho
  · obtain ⟨e, he, rfl⟩ := List.mem_map.mp ho
    refine .inr ⟨e, rfl, h e he, Bool.eq_false_iff.mpr fun hnot => ?_⟩
    exact absurd (h e he) (Bool.eq_false_iff.mp (transient_of_isNotFound hnot))
  · exact .inl (List.mem_singleton.mp ho)

/-- They say that the resource is gone if one of them was told so, -/
theorem Tries.gone_iff {n : Nat} {outs : List (Except Exc Value)} {v : Option Bool}
    (h : Tries n outs v) :
    v = some true ↔ ∃ o ∈ outs, ∃ e, o = .error e ∧ e.isNotFound = true := by
  have hlast : ∀ {errs : List Exc} {last : Except Exc Value}, (∀ e ∈ errs, e.transient = true) →
      ((∃ o ∈ errs.map .error ++ [last], ∃ e, o = .error e ∧ e.isNotFound = true) ↔
        ∃ e, last = .error e ∧ e.isNotFound = true) := by
    intro errs last h
    constructor
    · rintro ⟨o, ho, e, rfl, hnot⟩
      rcases mem_tried h ho with rfl | ⟨e', he, -, hnot'⟩
      · exact ⟨e, rfl, hnot⟩
      · cases he
        rw [hnot] at hnot'
        cases hnot'
    · rintro ⟨e, rfl, hnot⟩
      exact ⟨_, List.mem_append_right _ List.mem_cons_self, e, rfl, hnot⟩
  cases h with
  | none => exact ⟨fun hv => (nomatch hv), fun ⟨_, ho, _⟩ => nomatch ho⟩
  | accepted errs hlen h =>
    rw [hlast h]
    exact ⟨fun hv => (nomatch hv), fun ⟨_, he, _⟩ => nomatch he⟩
  | gone errs hlen h hnot =>
    rw [hlast h]
    exact ⟨fun _ => ⟨_, rfl, hnot⟩, fun _ => rfl⟩
  | refused errs hlen h hnot =>
    rw [hlast h]
    refine ⟨fun hv => (nomatch hv), fun ⟨e, he, hnot'⟩ => ?_⟩
    cases he
    rw [hnot] at hnot'
    cases hnot'
  | exhausted errs hlen h htransient =>
    rw [hlast h]
    refine ⟨fun hv => (nomatch hv), fun ⟨e, he, hnot⟩ => ?_⟩
    cases he
    rw [transient_of_isNotFound hnot] at htransient
    cases htransient

/-- and give up if one has failed for good, or the last one has failed. -/
theorem Tries.gaveUp_iff {n : Nat} {outs : List (Except Exc Value)} {v : Option Bool}
    (h : Tries n outs v) : v = some false ↔ GaveUp n outs := by
  have hlast : ∀ {errs : List Exc} {last : Except Exc Value}, (∀ e ∈ errs, e.transient = true) →
      (GaveUp n (errs.map .error ++ [last]) ↔ Permanent last ∨
        errs.length + 1 = n ∧ ∃ e, last = .error e ∧ e.isNotFound = false) := by
    intro errs last h
    have hlen : (errs.map Except.error ++ [last]).length = errs.length + 1 := by
      rw [List.length_append, List.length_map]
      rfl
    refine or_congr ⟨?_, fun hp => ⟨_, List.mem_append_right _ List.mem_cons_self, hp⟩⟩ ?_
    · rintro ⟨o, ho, e, rfl, hnot, htransient⟩
      rcases mem_tried h ho with rfl | ⟨e', he, htransient', -⟩
      · exact ⟨e, rfl, hnot, htransient⟩
      · cases he
        rw [htransient] at htransient'
        cases htransient'
    · rw [hlen]
      refine and_congr_right fun _ => ⟨?_, ?_⟩
      · rintro ⟨before, e, heq, hnot⟩
        exact ⟨e, List.singleton_inj.mp (List.append_inj' heq rfl).2, hnot⟩
      · rintro ⟨e, rfl, hnot⟩
        exact ⟨_, e, rfl, hnot⟩
  cases h with
  | none hn =>
    refine ⟨fun hv => (nomatch hv), ?_⟩
    rintro (⟨_, ho, -⟩ | ⟨-, before, e, heq, -⟩)
    · cases ho
    · exact absurd heq (List.append_ne_nil_of_right_ne_nil _ (List.cons_ne_nil _ _)).symm
  | accepted errs hlen h =>
    rw [hlast h]
    refine ⟨fun hv => (nomatch hv), ?_⟩
    rintro (⟨e, he, -⟩ | ⟨-, e, he, -⟩) <;> cases he
  | gone errs hlen h hnot =>
    rw [hlast h]
    refine ⟨fun hv => (nomatch hv), ?_⟩
    rintro (⟨e, he, hnot', -⟩ | ⟨-, e, he, hnot'⟩) <;> cases he <;> rw [hnot] at hnot' <;>
      cases hnot'
  | refused errs hlen h hnot htransient =>
    rw [hlast h]
    exact ⟨fun _ => .inl ⟨_, rfl, hnot, htransient⟩, fun _ => rfl⟩
  | exhausted errs hlen h htransient =>
    rw [hlast h]
    refine ⟨fun _ => .inr ⟨hlen, _, rfl, Bool.eq_false_iff.mpr fun hnot => ?_⟩, fun _ => rfl⟩
    rw [transient_of_isNotFound hnot] at htransient
    cases htransient

/-! ## The clock -/

/-- A clock that advances from a time advances from an earlier one. -/
theorem Ticks.mono {now earlier : Nat} {tr : Trace sig} (h : Ticks now tr) (hle : earlier ≤ now) :
    Ticks earlier tr := by
  induction tr generalizing now earlier with
  | nil => trivial
  | cons a tr ih =>
    have hafter : earlier ≤ after earlier a ∧ after earlier a ≤ after now a := by
      have hnow := h.1
      match a with
      | .call .time t => exact ⟨Nat.le_trans hle hnow, Nat.le_refl t⟩
      | .op (.sleep seconds) (.ok ()) => exact ⟨Nat.le_succ _, Nat.succ_le_succ hle⟩
      | .op (.sleep _) (.error _) | .op (.request _) _ | .op .lockAcquire _ | .op .close _
      | .op .diverge _ | .call .rndLetters _ | .call .publicKey _ | .call .fingerprint _
      | .call .keyName _ | .call .userData _ | .call .lockRelease _ =>
        exact ⟨Nat.le_refl _, hle⟩
    exact ⟨hafter.1, ih h.2 hafter.2⟩

/-- It also advances in the second part of a trace. -/
theorem Ticks.right {now : Nat} {tr tr' : Trace sig} (h : Ticks now (tr ++ tr')) :
    Ticks now tr' := by
  induction tr generalizing now with
  | nil => exact h
  | cons a tr ih => exact (ih h.2).mono h.1

/-! ## The verification

The loop asks until it is told 404 or its time is over. Every turn ends with a
sleep, after which the clock is later, so there are not more turns than there
is time for, and this is what the fuel has to be enough for. -/

/-- An error of the answer for a resource: its own, or that of its shape. -/
theorem got_eq_error {api : Api} {o : Except Exc Value} {e : Exc} (h : api.got o = .error e) :
    o = .error e ∨ e = .api none := by
  cases o with
  | error e' =>
    cases h
    exact .inl rfl
  | ok value =>
    change (match api.item value with | some item => _ | none => _) = _ at h
    cases hitem : api.item value with
    | some item =>
      rw [hitem] at h
      cases h
    | none =>
      rw [hitem] at h
      cases h
      exact .inr rfl

/-- A question for the resource: a 404 that can be read ends the verification. -/
theorem finishes_poll {api : Api} {id : String} {again : Script Bool} {tr : Trace sig}
    {r : Except Exc Bool} (h : Finishes (Co.bind (Co.attempt (getItem api id)) fun
      | .ok _ => again
      | .error err =>
        if err.isNotFound then Co.ret true else if err.isException then again else raise err) tr r)
    (hapi : FromApi tr) : ∃ ans rest, tr = .op (.request (api.getReq id)) ans :: rest ∧
      (readable404 (.op (.request (api.getReq id)) ans) = true ∧ rest = [] ∧ r = .ok true ∨
        readable404 (.op (.request (api.getReq id)) ans) = false ∧ Finishes again rest r) := by
  obtain ⟨r₀, tr₁, rest, rfl, h₁, h₂⟩ := finishes_attempt_bind.mp h
  obtain ⟨ans, rfl, rfl⟩ := finishes_getItem.mp h₁
  have hans := hapi.left _ List.mem_cons_self
  refine ⟨ans, rest, rfl, ?_⟩
  cases hgot : api.got (outcome ans) with
  | ok value =>
    rw [hgot] at h₂
    refine .inr ⟨Bool.eq_false_iff.mpr fun hread => ?_, h₂⟩
    obtain ⟨e, he, -⟩ := (readable404_iff hans).mp hread
    rw [he] at hgot
    cases hgot
  | error e =>
    rw [hgot] at h₂
    cases hnot : e.isNotFound with
    | true =>
      simp only [hnot, if_true] at h₂
      obtain ⟨rfl, rfl⟩ := h₂
      rcases got_eq_error hgot with he | rfl
      · exact .inl ⟨(readable404_iff hans).mpr ⟨e, he, hnot⟩, rfl, rfl⟩
      · cases hnot
    | false =>
      have hexception : e.isException = true := by
        rcases got_eq_error hgot with he | rfl
        · exact isException_outcome hans he
        · rfl
      simp only [hnot, hexception, if_true, Bool.false_eq_true, if_false] at h₂
      refine .inr ⟨Bool.eq_false_iff.mpr fun hread => ?_, h₂⟩
      obtain ⟨e', he, hnot'⟩ := (readable404_iff hans).mp hread
      rw [he] at hgot
      cases hgot
      rw [hnot'] at hnot
      cases hnot

/-- The clock ends the verification, if a 404 does not. By induction on the
questions, of which there are no more than there is time for. -/
theorem finishes_verifyGone {api : Api} {id : String} {deadline fuel now : Nat} {tr : Trace sig}
    {r : Except Exc Bool} (h : Finishes (verifyGone api id deadline fuel) tr r)
    (hapi : FromApi tr) (hticks : Ticks now tr) (hnow : now ≤ deadline)
    (hfuel : deadline < now + fuel) : (∀ ans, .op .diverge ans ∉ tr) ∧
      ∃ gone, r = .ok gone ∧ (gone = true ↔ ∃ a ∈ tr, readable404 a = true) := by
  induction fuel generalizing now tr with
  | zero => exact absurd hfuel (Nat.not_lt_of_le hnow)
  | succ fuel ih =>
    obtain ⟨t, rest, rfl, h⟩ := h
    change Finishes (if t < deadline then _ else Co.ret false) rest r at h
    by_cases hlt : t < deadline
    · rw [if_pos hlt] at h
      have hrest : FromApi rest := fun a ha => hapi a (List.mem_cons_of_mem _ ha)
      obtain ⟨ans, rest, rfl, ⟨hread, rfl, rfl⟩ | ⟨hread, hagain⟩⟩ := finishes_poll h hrest
      · refine ⟨fun ans' hmem => by simp at hmem, true, rfl, fun _ => ?_, fun _ => rfl⟩
        exact ⟨_, List.mem_cons_of_mem _ List.mem_cons_self, hread⟩
      replace hrest : FromApi rest := fun a ha => hrest a (List.mem_cons_of_mem _ ha)
      rcases finishes_bind.mp hagain with ⟨_, rfl, hsleep⟩ | ⟨_, tr₁, rest, rfl, hsleep, hverify⟩
      · cases (finishes_sleep hsleep hrest).1
      obtain ⟨-, rfl⟩ := finishes_sleep hsleep hrest.left
      -- the clock is past `t` by now
      have hpast : Ticks (t + 1) rest := hticks.2.2.2
      have hle : now ≤ t := hticks.1
      obtain ⟨hdiverge, gone, rfl, hgone⟩ := ih hverify hrest.right hpast hlt (by omega)
      refine ⟨fun ans' hmem => ?_, gone, rfl, hgone.trans ⟨?_, ?_⟩⟩
      · simp [hdiverge ans'] at hmem
      · rintro ⟨a, ha, hread⟩
        exact ⟨a, List.mem_cons_of_mem _ (List.mem_cons_of_mem _ (List.mem_cons_of_mem _ ha)), hread⟩
      · rintro ⟨a, ha, hread'⟩
        rcases List.mem_cons.mp ha with rfl | ha
        · cases hread'
        rcases List.mem_cons.mp ha with rfl | ha
        · rw [hread] at hread'
          cases hread'
        rcases List.mem_cons.mp ha with rfl | ha
        · cases hread'
        · exact ⟨a, ha, hread'⟩
    · rw [if_neg hlt] at h
      obtain ⟨rfl, rfl⟩ := h
      refine ⟨fun ans hmem => by simp at hmem, false, rfl, fun hf => (nomatch hf), ?_⟩
      rintro ⟨a, ha, hread⟩
      obtain rfl := List.mem_singleton.mp ha
      cases hread

/-! ## Both phases

Which phase an answer belongs to can be seen from its request. So a statement
about all deletions is one about the first phase, and a statement about
questions is one about the second. -/

/-- Nothing but the deletion is asked for. -/
def onDelete (api : Api) (id : String) : Answer sig → Prop
  | .op (.request req) _ => req = api.deleteReq id
  | .op (.sleep _) _ => True
  | _ => False

/-- Nothing but the resource is asked for. -/
def onVerify (api : Api) (id : String) : Answer sig → Prop
  | .op (.request req) _ => req = api.getReq id
  | .op (.sleep _) _ | .op .diverge _ | .call .time _ => True
  | _ => False

/-- The attempts ask for nothing else. -/
theorem sees_tryDelete (api : Api) (id : String) (attempts : List Nat) :
    Sees (onDelete api id) (tryDelete api id attempts) := by
  induction attempts with
  | nil => exact sees_ret none
  | cons attempt attempts ih =>
    refine sees_attempt_bind (fun tr r h a ha => ?_) fun r => ?_
    · obtain ⟨ans, rfl, -⟩ := finishes_deleteItem.mp h
      obtain rfl := List.mem_singleton.mp ha
      rfl
    · match r with
      | .ok () => exact sees_ret none
      | .error err =>
        show Sees _ (if err.isNotFound then Co.ret (some true)
          else if err.transient && attempt < api.deleteAttempts then
            Co.bind (perform (.sleep api.deleteInterval)) fun _ => tryDelete api id attempts
          else if err.isException then Co.ret (some false) else raise err)
        split
        · exact sees_ret _
        split
        · exact sees_bind (sees_op fun _ => trivial) fun _ => ih
        split
        · exact sees_ret _
        · exact sees_throw _

/-- Neither does the verification. -/
theorem sees_verifyGone (api : Api) (id : String) (deadline fuel : Nat) :
    Sees (onVerify api id) (verifyGone api id deadline fuel) := by
  induction fuel with
  | zero => exact sees_bind (sees_op fun _ => trivial) fun v => v.elim
  | succ fuel ih =>
    have hagain : Sees (onVerify api id) (Co.bind (perform (.sleep api.verifyInterval)) fun _ =>
        verifyGone api id deadline fuel) := sees_bind (sees_op fun _ => trivial) fun _ => ih
    refine sees_bind (sees_sync fun _ => trivial) fun now => ?_
    show Sees _ (if now < deadline then _ else _)
    split
    · refine sees_attempt_bind (fun tr r h a ha => ?_) fun r => ?_
      · obtain ⟨ans, rfl, -⟩ := finishes_getItem.mp h
        obtain rfl := List.mem_singleton.mp ha
        rfl
      · match r with
        | .ok _ => exact hagain
        | .error err =>
          show Sees _ (if err.isNotFound then Co.ret true else if err.isException then _
            else raise err)
          split
          · exact sees_ret _
          split
          · exact hagain
          · exact sees_throw _
    · exact sees_ret _

/-- A deletion comes to a 404 if and only if one can be read. -/
theorem deletes_notFound_iff {api : Api} {id : String} {tr : Trace sig}
    (hdelete : ∀ a ∈ tr, onDelete api id a) (hapi : FromApi tr) :
    (∃ o ∈ deletes tr, ∃ e, o = .error e ∧ e.isNotFound = true) ↔
      ∃ a ∈ tr, readable404 a = true := by
  constructor
  · rintro ⟨o, ho, hnot⟩
    obtain ⟨a, ha, hout⟩ := List.mem_filterMap.mp ho
    match a, hdelete a ha with
    | .op (.request req) ans, hreq =>
      cases hreq
      cases hout
      exact ⟨_, ha, (readable404_iff (hapi _ ha)).mpr hnot⟩
    | .op (.sleep _) _, _ => cases hout
  · rintro ⟨a, ha, hread⟩
    match a, hdelete a ha with
    | .op (.request req) ans, hreq =>
      cases hreq
      refine ⟨outcome ans, List.mem_filterMap.mpr ⟨_, ha, rfl⟩, ?_⟩
      exact (readable404_iff (hapi _ ha)).mp hread
    | .op (.sleep _) _, _ => cases hread

/-- The verification deletes nothing. -/
theorem deletes_onVerify {api : Api} {id : String} {tr : Trace sig}
    (hverify : ∀ a ∈ tr, onVerify api id a) : deletes tr = [] := by
  refine List.filterMap_eq_nil_iff.mpr fun a ha => ?_
  match a, hverify a ha with
  | .op (.request req) ans, hreq =>
    cases hreq
    rfl
  | .op (.sleep _) _, _ => rfl
  | .op .diverge _, _ => rfl
  | .call .time _, _ => rfl

/-- What a deletion comes to, phase by phase. -/
theorem finishes_deleteAndVerify {api : Api} {second fuel now : Nat} {id : String}
    {tr : Trace sig} {r : Except Exc Bool}
    (h : Finishes (deleteAndVerify api second fuel id) tr r) (hapi : FromApi tr)
    (hticks : Ticks now tr) (hfuel : api.verifyTimeout * second < fuel) :
    ∃ v gone, r = .ok gone ∧ Tries api.deleteAttempts (deletes tr) v ∧
      (∀ ans, .op .diverge ans ∉ tr) ∧ (gone = true ↔ ∃ a ∈ tr, readable404 a = true) ∧
      match v with
      | some v => gone = v ∧ ∀ t, .call .time t ∉ tr
      | none => ∃ t, .call .time t ∈ tr := by
  rcases finishes_bind.mp h with ⟨e, rfl, h₁⟩ | ⟨v, tr₁, tr₂, rfl, h₁, h₂⟩
  · obtain ⟨_, he, -⟩ := finishes_tryDelete (Nat.add_comm 1 _) h₁ hapi
    cases he
  have hdelete := sees_tryDelete api id _ tr₁ _ h₁
  obtain ⟨_, hv, htries⟩ := finishes_tryDelete (Nat.add_comm 1 _) h₁ hapi.left
  cases hv
  have hfound := deletes_notFound_iff hdelete hapi.left
  have hdiverge : ∀ ans, .op .diverge ans ∉ tr₁ := fun ans hmem => hdelete _ hmem
  cases v with
  | some gone =>
    obtain ⟨rfl, rfl⟩ := h₂
    rw [List.append_nil]
    refine ⟨some gone, gone, rfl, htries, hdiverge, ?_, rfl, fun t hmem => hdelete _ hmem⟩
    rw [← hfound, ← htries.gone_iff, Option.some.injEq]
  | none =>
    obtain ⟨t, rest, rfl, hverify⟩ := h₂
    have hrest := sees_verifyGone api id _ fuel rest _ hverify
    have hclock := hticks.right
    obtain ⟨hdiverge', gone, rfl, hgone⟩ := finishes_verifyGone hverify
      (fun a ha => hapi.right a (List.mem_cons_of_mem _ ha)) hclock.2 (Nat.le_add_right ..)
      (Nat.add_lt_add_left hfuel t)
    refine ⟨none, gone, rfl, ?_, fun ans hmem => ?_, hgone.trans ⟨?_, ?_⟩,
      t, List.mem_append_right _ List.mem_cons_self⟩
    · rw [deletes_append]
      show Tries _ (deletes tr₁ ++ deletes rest) none
      rw [deletes_onVerify hrest, List.append_nil]
      exact htries
    · rcases List.mem_append.mp hmem with hmem | hmem
      · exact hdiverge ans hmem
      · rcases List.mem_cons.mp hmem with heq | hmem
        · cases heq
        · exact hdiverge' ans hmem
    · rintro ⟨a, ha, hread⟩
      exact ⟨a, List.mem_append_right _ (List.mem_cons_of_mem _ ha), hread⟩
    · rintro ⟨a, ha, hread⟩
      rcases List.mem_append.mp ha with ha | ha
      · cases htries.gone_iff.mpr (hfound.mpr ⟨a, ha, hread⟩)
      · rcases List.mem_cons.mp ha with rfl | ha
        · cases hread
        · exact ⟨a, ha, hread⟩

/-! ## Two clients

What is left of the client when its names are taken away are the constants and
the handling of errors. With the same constants, the answers of one run are
those of the other up to the path they were asked for. -/

/-- The attempts of the other client are the same. -/
theorem mirrors_tryDelete {api other : Api} (hsame : api.SameConstants other) (id id' : String)
    (attempts : List Nat) : Mirrors (readdress (other.path id')) (tryDelete api id attempts)
      (tryDelete other id' attempts) := by
  induction attempts with
  | nil => exact mirrors_ret none
  | cons attempt attempts ih =>
    refine mirrors_attempt_bind fun tr r h => ?_
    obtain ⟨ans, rfl, rfl⟩ := finishes_deleteItem.mp h
    refine ⟨_, finishes_deleteItem.mpr ⟨ans, rfl, rfl⟩, ?_⟩
    cases outcome ans with
    | ok value => exact mirrors_ret none
    | error e =>
      show Mirrors _ (if e.isNotFound then Co.ret (some true)
        else if e.transient && attempt < api.deleteAttempts then
          Co.bind (perform (.sleep api.deleteInterval)) fun _ => tryDelete api id attempts
        else if e.isException then Co.ret (some false) else raise e)
        (if e.isNotFound then Co.ret (some true)
        else if e.transient && attempt < other.deleteAttempts then
          Co.bind (perform (.sleep other.deleteInterval)) fun _ => tryDelete other id' attempts
        else if e.isException then Co.ret (some false) else raise e)
      rw [← hsame.deleteAttempts, ← hsame.deleteInterval]
      exact mirrors_ite (mirrors_ret _) (mirrors_ite
        (mirrors_bind (mirrors_op fun _ => rfl) fun _ => ih)
        (mirrors_ite (mirrors_ret _) (mirrors_throw (S := sig) e)))

/-- So is its verification. What shape a resource has does not matter: a wrong
one is no 404. -/
theorem mirrors_verifyGone {api other : Api} (hsame : api.SameConstants other) (id id' : String)
    (deadline fuel : Nat) : Mirrors (readdress (other.path id')) (verifyGone api id deadline fuel)
      (verifyGone other id' deadline fuel) := by
  induction fuel with
  | zero => exact mirrors_bind (mirrors_op fun _ => rfl) fun v => v.elim
  | succ fuel ih =>
    have hagain : Mirrors (readdress (other.path id'))
        (Co.bind (perform (.sleep api.verifyInterval)) fun _ => verifyGone api id deadline fuel)
        (Co.bind (perform (.sleep other.verifyInterval)) fun _ =>
          verifyGone other id' deadline fuel) := by
      rw [← hsame.verifyInterval]
      exact mirrors_bind (mirrors_op fun _ => rfl) fun _ => ih
    refine mirrors_bind (mirrors_sync fun _ => rfl) fun now =>
      mirrors_ite (mirrors_attempt_bind fun tr r h => ?_) (mirrors_ret false)
    obtain ⟨ans, rfl, rfl⟩ := finishes_getItem.mp h
    refine ⟨_, finishes_getItem.mpr ⟨ans, rfl, rfl⟩, ?_⟩
    cases outcome ans with
    | error e =>
      exact mirrors_ite (mirrors_ret true) (mirrors_ite hagain (mirrors_throw (S := sig) e))
    | ok value =>
      show Mirrors _ (match (match api.item value with | some item => _ | none => _ :
          Except Exc Value) with | .ok _ => _ | .error err => _)
        (match (match other.item value with | some item => _ | none => _ : Except Exc Value) with
          | .ok _ => _ | .error err => _)
      cases api.item value <;> cases other.item value <;> exact hagain

/-- **Two clients with the same constants give the same verdict.** The second one is
run on the answers of the first, sent from its own paths. -/
theorem mirrors_deleteAndVerify {api other : Api} (hsame : api.SameConstants other)
    (second fuel : Nat) (id id' : String) : Mirrors (readdress (other.path id'))
      (deleteAndVerify api second fuel id) (deleteAndVerify other second fuel id') := by
  unfold deleteAndVerify
  rw [← hsame.deleteAttempts, ← hsame.verifyTimeout]
  refine mirrors_bind (mirrors_tryDelete hsame id id' _) fun v => ?_
  cases v with
  | some gone => exact mirrors_ret gone
  | none =>
    exact mirrors_bind (mirrors_sync fun _ => rfl) fun now => mirrors_verifyGone hsame id id' _ fuel

/-! ## The verdict

The two directions of the result are not alike. If every 404 can be read, the
first one ends the run and the verdict is right. If one cannot be read the run
goes on, and it is still right if another one comes that can be. -/

/-- A deletion of a node raises if the resource is not gone. -/
theorem finishes_deleteNode {api : Api} {second fuel : Nat} {id : String} {tr : Trace sig}
    {gone : Bool} (h : Finishes (deleteAndVerify api second fuel id) tr (.ok gone))
    (r' : Except Exc Unit) :
    Finishes (deleteNode api second fuel id) (tr ++ [.op .close (.ok ())]) r' ↔
      r' = if gone then .ok () else .error (.api none) := by
  have hend : Finishes (deleteNode api second fuel id) (tr ++ [.op .close (.ok ())])
      (if gone then .ok () else .error (.api none)) := by
    refine finishes_bind.mpr (.inr ⟨gone, tr ++ [.op .close (.ok ())], [],
      (List.append_nil _).symm, finishes_asyncWith.mpr (.inr ?_), ?_⟩)
    · exact ⟨(), .ok gone, [], tr, _, .ok (), rfl, ⟨rfl, rfl⟩, h, finishes_op.mpr rfl, rfl⟩
    · cases gone <;> exact ⟨rfl, rfl⟩
  constructor
  · intro h'
    have heq : tr ++ [.op .close (.ok ())] ++ [] = tr ++ [.op .close (.ok ())] ++ [] := rfl
    exact (h'.unique hend heq).2.1
  · rintro rfl
    exact hend

/-- **A deletion is verified if and only if** some 404 can be read when there is
one. A 404 that cannot be read is retried, and so may be followed by one that can.
-/
theorem verified_iff {api : Api} {second fuel now : Nat} {id : String} {tr : Trace sig}
    {r : Except Exc Bool} (h : Finishes (deleteAndVerify api second fuel id) tr r)
    (hapi : FromApi tr) (hticks : Ticks now tr) (hfuel : api.verifyTimeout * second < fuel) :
    Verified api second fuel id tr r ↔
      ((∃ a ∈ tr, answered404 a = true) → ∃ a ∈ tr, readable404 a = true) := by
  obtain ⟨v, gone, rfl, htries, hdiverge, hgone, hphases⟩ :=
    finishes_deleteAndVerify h hapi hticks hfuel
  have hanswered : (∃ a ∈ tr, readable404 a = true) → ∃ a ∈ tr, answered404 a = true := by
    rintro ⟨a, ha, hread⟩
    refine ⟨a, ha, ?_⟩
    match a, hread with
    | .op (.request _) (.ok resp), hread => exact (Bool.and_eq_true_iff.mp hread).1
  constructor
  · intro hverified hthere
    have hok : Except.ok (ε := Exc) gone = .ok true := hverified.gone.mpr hthere
    exact hgone.mp (Except.ok.inj hok)
  · intro hreadable
    refine ⟨hdiverge, ⟨gone, rfl⟩, htries.length_le, ?_, ?_, ?_, ?_⟩
    · rw [Except.ok.injEq, hgone]
      exact ⟨hanswered, hreadable⟩
    · rw [← htries.gaveUp_iff, Except.ok.injEq]
      cases v with
      | some v =>
        obtain ⟨rfl, htime⟩ := hphases
        rw [Option.some.injEq]
        exact ⟨fun hfalse => hfalse.1, fun hfalse => ⟨hfalse, htime⟩⟩
      | none =>
        obtain ⟨t, htime⟩ := hphases
        exact ⟨fun hfalse => absurd htime (hfalse.2 t), fun hv => nomatch hv⟩
    · intro gone' hgone' r'
      cases hgone'
      exact finishes_deleteNode h r'
    · exact fun other id' hsame => mirrors_deleteAndVerify hsame second fuel id id' tr _ h

/-! ## Two deletions of a server -/

/-- The deletion is accepted, and the server is gone the second time it is asked
for. -/
def acceptedThenGone : Trace sig :=
  [.op (.request (Hetzner.api.deleteReq "42")) (.ok { status := 204, text := .ok .empty }),
    .call .time 7,
    .call .time 7,
    .op (.request (Hetzner.api.getReq "42")) (.error (.client "ServerDisconnectedError")),
    .op (.sleep 5) (.ok ()),
    .call .time 12,
    .op (.request (Hetzner.api.getReq "42")) (.ok { status := 404, text := .ok .notJson })]

/-- It says that the server is gone. -/
theorem verified_acceptedThenGone :
    Verified Hetzner.api 1 121 "42" acceptedThenGone (.ok true) := by
  have h : Finishes (deleteAndVerify Hetzner.api 1 121 "42") acceptedThenGone (.ok true) :=
    ⟨_, _, rfl, _, _, rfl, _, _, rfl, _, _, rfl, _, _, rfl, _, _, rfl, _, _, rfl, rfl, rfl⟩
  have hapi : FromApi acceptedThenGone := by
    simp [FromApi, acceptedThenGone, fromApi, Exc.fromSession]
  have hticks : Ticks 0 acceptedThenGone := by
    simp [Ticks, acceptedThenGone, after]
  refine (verified_iff h hapi hticks (by decide)).mpr fun _ => ?_
  exact ⟨_, List.mem_of_getLast? rfl, rfl⟩

/-- The body of a 404 is not UTF-8: the server is gone, and the deletion says that
it is not. The error of decoding has no status. -/
theorem not_verified_undecodable : ∃ tr r,
    Finishes (deleteAndVerify Hetzner.api 1 121 "42") tr r ∧ FromApi tr ∧ Ticks 0 tr ∧
      ¬Verified Hetzner.api 1 121 "42" tr r := by
  refine ⟨[.op (.request (Hetzner.api.deleteReq "42"))
    (.ok { status := 404, text := .error (.other "UnicodeDecodeError") })], .ok false, ?_, ?_, ?_,
    fun hverified => ?_⟩
  · exact ⟨_, _, rfl, rfl, rfl⟩
  · simp [FromApi, fromApi, Exc.fromSession]
  · simp [Ticks, after]
  · have hok := hverified.gone.mpr ⟨_, List.mem_cons_self, rfl⟩
    cases hok

end Yascheduler.Http
