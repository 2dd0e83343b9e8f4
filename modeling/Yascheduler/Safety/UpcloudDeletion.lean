import Yascheduler.Infra.Providers.Upcloud
import Yascheduler.Async.Trace

/-!
# What an UpCloud deletion reports

An attempt to destroy the server ends in one of three ways: the server is
destroyed, it does not exist, or there is another error and one more attempt.
The error is carried from attempt to attempt, and a server that turns out not
to exist ends the attempts without clearing it. So the deletion reports the
truth unless an attempt fails before another one finds the server gone.

## What the truth is

A deletion that raises says that the server may still be there, and one that
returns says that it is not. The first is what a caller acts on: it keeps the row
and comes back to it. If the server is gone by then, coming back does no harm,
but until it is found out the row counts against the capacity of the provider.

The attempts to destroy the server are what this is about. An error of another
step leaves at once and as it is, and says nothing about the server.
-/

namespace Yascheduler.Upcloud

open Async

/-- How an attempt to destroy a server ends. -/
abbrev Outcome := Except ApiError Unit

/-- The server is gone after the attempt. -/
def gone : Outcome → Bool
  | .ok _ => true
  | .error e => e.notFound

/-- The outcomes of the attempts, in order. -/
def outcomes (tr : Trace sig) : List Outcome :=
  tr.filterMap fun a => match a with
    | .op (.destroy _) (.ok _) => some (.ok ())
    | .op (.destroy _) (.error (.api e)) => some (.error e)
    | _ => none

/-- The servers that were listed. -/
def listed (tr : Trace sig) : List Server :=
  tr.flatMap fun a => match a with
    | .op .getServers (.ok servers) => servers
    | _ => []

/-- Only destroying a server fails, and only with an error of the API. What else may
fail leaves the deletion at once. -/
def OnlyDestroyFails (tr : Trace sig) : Prop :=
  ∀ o e, .op o (.error e) ∈ tr → ∃ server exc, o = .destroy server ∧ e = .api exc

/-- **A deletion reports the truth.** Its caller removes the row of the node only if
it returns. -/
structure ReportsTruth (externalId : String) (tr : Trace sig) (r : Except Error Unit) :
    Prop where
  /-- it returns if no server matches, or one is gone -/
  returns : r = .ok () ↔
    (∀ server ∈ listed tr, server.publicIp ≠ some externalId) ∨
      ∃ o ∈ outcomes tr, gone o = true
  /-- otherwise it raises the last error -/
  raises : ∀ e, r = .error e → ∃ before exc, outcomes tr = before ++ [.error exc] ∧ e = .api exc
  /-- there is no attempt after the server is gone -/
  stops : ∀ before o after, outcomes tr = before ++ o :: after → gone o = true → after = []
  bounded : (outcomes tr).length ≤ deleteAttempts
  /-- the storages of a server that was destroyed are destroyed -/
  storages : r = .ok () → ∀ server, .op (.destroy server) (.ok ()) ∈ tr →
    ∀ storage ∈ server.storageDevices, .op (.destroyStorage storage) (.ok ()) ∈ tr

/-- An attempt finds the server gone when another one has failed before. Then the
variable for the error still has the one of the attempt before. -/
def GoneLate (outs : List Outcome) : Prop :=
  ∃ first before exc, outs = first :: before ++ [.error exc] ∧ exc.notFound = true

/-! ## The attempts

The loop keeps the error of its last failed attempt in a variable. An attempt
that finds the server gone leaves the loop, and the variable keeps what it had.
So how the attempts end is told by their outcomes and by the value of this
variable, which are two different things. -/

/-- It holds of the first part of a trace. -/
theorem OnlyDestroyFails.left {tr tr' : Trace sig} (h : OnlyDestroyFails (tr ++ tr')) :
    OnlyDestroyFails tr := fun o e he => h o e (List.mem_append_left _ he)

/-- And of the second. -/
theorem OnlyDestroyFails.right {tr tr' : Trace sig} (h : OnlyDestroyFails (tr ++ tr')) :
    OnlyDestroyFails tr' := fun o e he => h o e (List.mem_append_right _ he)

/-- The outcomes of two parts, one after the other. -/
theorem outcomes_append (tr tr' : Trace sig) :
    outcomes (tr ++ tr') = outcomes tr ++ outcomes tr' := List.filterMap_append

/-- An operation that is not a destruction returns. -/
theorem finishes_benign {o : Op} {tr : Trace sig} {r : Except Error o.Res}
    (h : Finishes (perform o) tr r) (hbenign : OnlyDestroyFails tr)
    (ho : ∀ server, o ≠ .destroy server) : ∃ a, r = .ok a ∧ tr = [.op o (.ok a)] := by
  obtain rfl := finishes_op.mp h
  cases r with
  | ok a => exact ⟨a, rfl, rfl⟩
  | error e =>
    obtain ⟨server, -, he, -⟩ := hbenign o e List.mem_cons_self
    exact absurd he (ho server)

/-- How the attempts end: all of them fail, or the last finds the server gone. -/
inductive Attempts (err : Option ApiError) (n : Nat) :
    List Outcome → Except Error (Option ApiError × Bool) → Prop where
  | failed (excs : List ApiError) (hlen : excs.length = n) (h : ∀ exc ∈ excs, exc.notFound = false) :
      Attempts err n (excs.map .error) (.ok (excs.getLast?.or err, false))
  | destroyed (excs : List ApiError) (hlen : excs.length < n)
      (h : ∀ exc ∈ excs, exc.notFound = false) :
      Attempts err n (excs.map .error ++ [.ok ()]) (.ok (none, false))
  | missing (excs : List ApiError) {exc : ApiError} (hlen : excs.length < n)
      (h : ∀ exc ∈ excs, exc.notFound = false) (hexc : exc.notFound = true) :
      Attempts err n (excs.map .error ++ [.error exc]) (.ok (excs.getLast?.or err, true))

/-- The last error, after one more. -/
theorem getLast?_or_cons (excs : List ApiError) (exc : ApiError) (err : Option ApiError) :
    (exc :: excs).getLast?.or err = excs.getLast?.or (some exc) := by
  rw [List.getLast?_cons]
  cases excs.getLast? <;> rfl

/-- One more attempt that fails, before the others. -/
theorem Attempts.cons {err : Option ApiError} {n : Nat} {outs : List Outcome}
    {r : Except Error (Option ApiError × Bool)} {exc : ApiError}
    (h : Attempts (some exc) n outs r) (hexc : exc.notFound = false) :
    Attempts err (n + 1) (.error exc :: outs) r := by
  have hall : ∀ {excs : List ApiError}, (∀ e ∈ excs, e.notFound = false) →
      ∀ e ∈ exc :: excs, e.notFound = false := by
    intro excs hexcs e he
    rcases List.mem_cons.mp he with rfl | he
    · exact hexc
    · exact hexcs e he
  cases h with
  | failed excs hlen h =>
    rw [← getLast?_or_cons]
    exact .failed _ (by rw [List.length_cons, hlen]) (hall h)
  | destroyed excs hlen h => exact .destroyed _ (Nat.succ_lt_succ hlen) (hall h)
  | missing excs hlen h hlast =>
    rw [← getLast?_or_cons]
    exact .missing _ (Nat.succ_lt_succ hlen) (hall h) hlast

/-- The attempts raise nothing themselves. -/
theorem Attempts.eq_ok {err : Option ApiError} {n : Nat} {outs : List Outcome}
    {r : Except Error (Option ApiError × Bool)} (h : Attempts err n outs r) :
    ∃ out, r = .ok out := by
  cases h <;> exact ⟨_, rfl⟩

/-- The attempts end in one of these ways. By induction on the attempts. -/
theorem finishes_destroyServer {server : Server} {attempts : List Nat} {err : Option ApiError}
    {tr : Trace sig} {r : Except Error (Option ApiError × Bool)}
    (h : Finishes (destroyServer server attempts err) tr r) (hbenign : OnlyDestroyFails tr) :
    Attempts err attempts.length (outcomes tr) r := by
  induction attempts generalizing err tr with
  | nil =>
    obtain ⟨rfl, rfl⟩ := h
    exact .failed [] rfl fun _ he => nomatch he
  | cons attempt attempts ih =>
    obtain ⟨r₀, tr₁, tr₂, rfl, h₁, h₂⟩ := finishes_attempt_bind.mp h
    obtain rfl := finishes_op.mp h₁
    cases r₀ with
    | ok u =>
      obtain ⟨rfl, rfl⟩ := h₂
      exact .destroyed [] (Nat.succ_pos _) fun _ he => nomatch he
    | error e =>
      obtain ⟨server', exc, -, rfl⟩ := hbenign _ e List.mem_cons_self
      rw [outcomes_append]
      show Attempts err _ (.error exc :: outcomes tr₂) r
      change Finishes (if exc.notFound then _ else _) tr₂ r at h₂
      cases hexc : exc.notFound with
      | true =>
        rw [hexc] at h₂
        obtain ⟨rfl, rfl⟩ := h₂
        exact .missing [] (Nat.succ_pos _) (fun _ he => nomatch he) hexc
      | false =>
        rw [hexc] at h₂
        refine Attempts.cons ?_ hexc
        change Finishes (if attempt < deleteAttempts then
          Co.bind (perform (.sleep deleteInterval)) fun _ => destroyServer server attempts (some exc)
          else destroyServer server attempts (some exc)) tr₂ r at h₂
        split at h₂
        · rcases finishes_bind.mp h₂ with ⟨e, rfl, hsleep⟩ | ⟨u, tr₃, tr₄, rfl, hsleep, hrest⟩
          · obtain ⟨_, he, -⟩ := finishes_benign hsleep hbenign.right fun _ ho => nomatch ho
            cases he
          · obtain ⟨_, -, rfl⟩ :=
              finishes_benign hsleep hbenign.right.left fun _ ho => nomatch ho
            show Attempts _ _ (outcomes tr₄) r
            exact ih hrest hbenign.right.right
        · exact ih h₂ hbenign.right

/-! ## The deletion

Around the attempts the deletion looks for the server, stops it and destroys
its storages. These steps are not repeated, and an error of one of them leaves
at once. They matter here only because the outcomes of the attempts have to be
found among all the answers. -/

/-- A storage is destroyed for each of them. -/
theorem finishes_destroyStorages {storages : List String} {tr : Trace sig}
    {r : Except Error Unit} (h : Finishes (destroyStorages storages) tr r)
    (hbenign : OnlyDestroyFails tr) : r = .ok () ∧ outcomes tr = [] ∧
      ∀ storage ∈ storages, .op (.destroyStorage storage) (.ok ()) ∈ tr := by
  induction storages generalizing tr with
  | nil =>
    obtain ⟨rfl, rfl⟩ := h
    exact ⟨rfl, rfl, fun _ hs => nomatch hs⟩
  | cons storage storages ih =>
    rcases finishes_bind.mp h with ⟨e, rfl, h₁⟩ | ⟨u, tr₁, tr₂, rfl, h₁, h₂⟩
    · obtain ⟨_, he, -⟩ := finishes_benign h₁ hbenign fun _ ho => nomatch ho
      cases he
    · obtain ⟨_, -, rfl⟩ := finishes_benign h₁ hbenign.left fun _ ho => nomatch ho
      obtain ⟨rfl, houts, hall⟩ := ih h₂ hbenign.right
      refine ⟨rfl, houts, fun s hs => ?_⟩
      rcases List.mem_cons.mp hs with rfl | hs
      · exact List.mem_cons_self
      · exact List.mem_append_right _ (hall s hs)

/-- Nothing is listed while a server is deleted, and no other is destroyed. -/
def onServer (server : Server) : Answer sig → Prop
  | .op .getServers _ => False
  | .op (.destroy s) _ => s = server
  | _ => True

/-- No other server is concerned. -/
theorem sees_deleteServer (server : Server) : Sees (onServer server) (deleteServer server) := by
  have hattempts : ∀ attempts err, Sees (onServer server) (destroyServer server attempts err) := by
    intro attempts
    induction attempts with
    | nil => exact fun err => sees_ret _
    | cons attempt attempts ih =>
      intro err
      refine sees_attempt_bind (sees_op fun _ => rfl) fun r => ?_
      match r with
      | .ok () => exact sees_ret _
      | .error (.other name) => exact sees_throw _
      | .error (.api exc) =>
        show Sees _ (if exc.notFound then _ else if attempt < deleteAttempts then
          Co.bind (perform (.sleep deleteInterval)) fun _ => destroyServer server attempts (some exc)
          else destroyServer server attempts (some exc))
        split
        · exact sees_ret _
        · split
          · exact sees_bind (sees_op fun _ => trivial) fun _ => ih _
          · exact ih _
  have hstorages : ∀ storages, Sees (onServer server) (destroyStorages storages) := by
    intro storages
    induction storages with
    | nil => exact sees_ret _
    | cons storage storages ih => exact sees_bind (sees_op fun _ => trivial) fun _ => ih
  refine sees_bind (sees_op fun _ => trivial) fun _ => sees_bind (sees_op fun _ => trivial)
    fun _ => sees_bind (hattempts _ _) fun out => ?_
  obtain ⟨err, serverGone⟩ := out
  cases err with
  | some e => exact sees_throw _
  | none =>
    cases serverGone with
    | true => exact sees_ret _
    | false => exact hstorages _

/-- The outcome of the attempts decides how the deletion of a server ends. -/
theorem finishes_deleteServer {server : Server} {tr : Trace sig} {r : Except Error Unit}
    (h : Finishes (deleteServer server) tr r) (hbenign : OnlyDestroyFails tr) :
    ∃ err serverGone, Attempts none deleteAttempts (outcomes tr) (.ok (err, serverGone)) ∧
      (∀ e, err = some e → r = .error (.api e)) ∧
      (err = none → r = .ok () ∧ (serverGone = false →
        ∀ storage ∈ server.storageDevices, .op (.destroyStorage storage) (.ok ()) ∈ tr)) := by
  rcases finishes_bind.mp h with ⟨e, rfl, h₁⟩ | ⟨_, tr₁, tr₂, rfl, h₁, h₂⟩
  · obtain ⟨_, he, -⟩ := finishes_benign h₁ hbenign fun _ ho => nomatch ho
    cases he
  obtain ⟨_, -, rfl⟩ := finishes_benign h₁ hbenign.left fun _ ho => nomatch ho
  have hbenign₂ := hbenign.right
  rcases finishes_bind.mp h₂ with ⟨e, rfl, h₃⟩ | ⟨_, tr₃, tr₄, rfl, h₃, h₄⟩
  · obtain ⟨_, he, -⟩ := finishes_benign h₃ hbenign₂ fun _ ho => nomatch ho
    cases he
  obtain ⟨_, -, rfl⟩ := finishes_benign h₃ hbenign₂.left fun _ ho => nomatch ho
  have hbenign₄ := hbenign₂.right
  rcases finishes_bind.mp h₄ with ⟨e, rfl, h₅⟩ | ⟨⟨err, serverGone⟩, tr₅, tr₆, rfl, h₅, h₆⟩
  · obtain ⟨_, he⟩ := (finishes_destroyServer h₅ hbenign₄).eq_ok
    cases he
  have hattempts := finishes_destroyServer h₅ hbenign₄.left
  rw [List.length_range'] at hattempts
  have houts : outcomes tr₆ = [] → outcomes
      ([.op (.stop server) (.ok ())] ++ ([.op (.sleep stopWaitSeconds) (.ok ())] ++ (tr₅ ++ tr₆))) =
        outcomes tr₅ := by
    intro hnil
    show outcomes (tr₅ ++ tr₆) = _
    rw [outcomes_append, hnil, List.append_nil]
  refine ⟨err, serverGone, ?_⟩
  cases err with
  | some e =>
    obtain ⟨rfl, rfl⟩ := h₆
    rw [houts rfl]
    exact ⟨hattempts, fun e' he => by cases he; rfl, fun he => nomatch he⟩
  | none =>
    cases serverGone with
    | true =>
      obtain ⟨rfl, rfl⟩ := h₆
      rw [houts rfl]
      exact ⟨hattempts, fun _ he => (nomatch he), fun _ => ⟨rfl, fun hgone => nomatch hgone⟩⟩
    | false =>
      obtain ⟨rfl, hnil, hall⟩ := finishes_destroyStorages h₆ hbenign₄.right
      rw [houts hnil]
      refine ⟨hattempts, fun _ he => (nomatch he), fun _ => ⟨rfl, fun _ storage hs => ?_⟩⟩
      exact List.mem_append_right _ (List.mem_append_right _ (List.mem_append_right _ (hall storage hs)))

/-- No server matches, or the first that does is deleted. -/
theorem finishes_deleteFirst {externalId : String} {servers : List Server} {tr : Trace sig}
    {r : Except Error Unit} (h : Finishes (deleteFirst externalId servers) tr r) :
    ((∀ server ∈ servers, server.publicIp ≠ some externalId) ∧ tr = [] ∧ r = .ok ()) ∨
      ∃ server ∈ servers, server.publicIp = some externalId ∧
        Finishes (deleteServer server) tr r := by
  induction servers with
  | nil => exact .inl ⟨fun _ hs => (nomatch hs), h.1, h.2⟩
  | cons server servers ih =>
    unfold deleteFirst at h
    split at h
    · next hip => exact .inr ⟨server, List.mem_cons_self, hip, h⟩
    · next hip =>
      rcases ih h with ⟨hnone, rfl, rfl⟩ | ⟨server', hmem, hip', h'⟩
      · refine .inl ⟨fun s hs => ?_, rfl, rfl⟩
        rcases List.mem_cons.mp hs with rfl | hs
        · exact hip
        · exact hnone s hs
      · exact .inr ⟨server', List.mem_cons_of_mem _ hmem, hip', h'⟩

/-- The servers are listed once, before anything else. -/
theorem finishes_deleteNodeSync {externalId : String} {tr : Trace sig} {r : Except Error Unit}
    (h : Finishes (deleteNodeSync externalId) tr r) (hbenign : OnlyDestroyFails tr) :
    ∃ servers tr', tr = .op .getClient (.ok ()) :: .op .getServers (.ok servers) :: tr' ∧
      OnlyDestroyFails tr' ∧ Finishes (deleteFirst externalId servers) tr' r := by
  rcases finishes_bind.mp h with ⟨e, rfl, h₁⟩ | ⟨_, tr₁, tr₂, rfl, h₁, h₂⟩
  · obtain ⟨_, he, -⟩ := finishes_benign h₁ hbenign fun _ ho => nomatch ho
    cases he
  obtain ⟨_, -, rfl⟩ := finishes_benign h₁ hbenign.left fun _ ho => nomatch ho
  rcases finishes_bind.mp h₂ with ⟨e, rfl, h₃⟩ | ⟨servers, tr₃, tr₄, rfl, h₃, h₄⟩
  · obtain ⟨_, he, -⟩ := finishes_benign h₃ hbenign.right fun _ ho => nomatch ho
    cases he
  obtain ⟨_, hok, rfl⟩ := finishes_benign h₃ hbenign.right.left fun _ ho => nomatch ho
  cases hok
  exact ⟨servers, tr₄, rfl, hbenign.right.right, h₄⟩

/-! ## The report

A deletion that raises has an error in the variable after the loop, and it is
true if the last attempt failed. The case in which the two part is that of a
server that is gone after an attempt that failed. -/

theorem destroyed_mem_outcomes {server : Server} {tr : Trace sig}
    (h : .op (.destroy server) (.ok ()) ∈ tr) : .ok () ∈ outcomes tr :=
  List.mem_filterMap.mpr ⟨_, h, rfl⟩

/-- No errors but the last outcome: what comes after the server is gone. -/
theorem nothing_after_gone {excs : List ApiError} (last : List Outcome)
    (hlast : last.length ≤ 1) (h : ∀ exc ∈ excs, exc.notFound = false)
    {before after : List Outcome} {o : Outcome}
    (heq : excs.map .error ++ last = before ++ o :: after) (ho : gone o = true) : after = [] := by
  induction excs generalizing before with
  | nil =>
    have hlen := congrArg List.length heq
    rw [List.map_nil, List.nil_append, List.length_append, List.length_cons] at hlen
    exact List.length_eq_zero_iff.mp (by omega)
  | cons exc excs ih =>
    cases before with
    | nil =>
      obtain ⟨rfl, -⟩ := List.cons.inj heq
      exact absurd ho (Bool.eq_false_iff.mp (h exc List.mem_cons_self))
    | cons o' before =>
      exact ih (fun e he => h e (List.mem_cons_of_mem _ he)) (List.cons.inj heq).2

/-- Errors other than the missing server do not say that it is gone. -/
theorem errors_not_gone {excs : List ApiError} (h : ∀ exc ∈ excs, exc.notFound = false) :
    ∀ o ∈ (excs.map .error : List Outcome), gone o = false := by
  intro o ho
  obtain ⟨exc, hexc, rfl⟩ := List.mem_map.mp ho
  exact h exc hexc

/-- A server that is gone late leaves the error of the attempts before. -/
theorem Attempts.err_of_goneLate {n : Nat} {outs : List Outcome} {err : Option ApiError}
    {serverGone : Bool} (h : Attempts none n outs (.ok (err, serverGone))) (hlate : GoneLate outs) :
    ∃ e, err = some e := by
  obtain ⟨first, before, exc, rfl, hexc⟩ := hlate
  have hgone : ∃ o ∈ first :: before ++ [.error exc], gone o = true :=
    ⟨_, List.mem_append_right _ List.mem_cons_self, hexc⟩
  generalize houts : first :: before ++ [.error exc] = outs at h hgone
  generalize hr : Except.ok (err, serverGone) = r at h
  cases h with
  | failed excs hlen h =>
    obtain ⟨o, ho, hgone⟩ := hgone
    exact absurd hgone (Bool.eq_false_iff.mp (errors_not_gone h o ho))
  | destroyed excs hlen h => cases (List.append_inj' houts rfl).2
  | missing excs hlen h hlast =>
    obtain ⟨hexcs, -⟩ := List.append_inj' houts rfl
    cases excs with
    | nil => cases hexcs
    | cons e excs =>
      cases hr
      rw [List.getLast?_cons]
      exact ⟨_, rfl⟩

/-- Otherwise the error is that of the last attempt, if the server is not gone
by then. -/
theorem Attempts.err_of_not_goneLate {n : Nat} {outs : List Outcome} {err : Option ApiError}
    {serverGone : Bool} (h : Attempts none (n + 1) outs (.ok (err, serverGone)))
    (hlate : ¬GoneLate outs) :
    (∃ before e, err = some e ∧ outs = before ++ [.error e] ∧ ∀ o ∈ outs, gone o = false) ∨
      err = none ∧ (∃ o ∈ outs, gone o = true) ∧ (.ok () ∈ outs → serverGone = false) := by
  generalize hr : Except.ok (err, serverGone) = r at h
  cases h with
  | failed excs hlen h =>
    cases hr
    have hne : excs ≠ [] := fun hnil => by rw [hnil] at hlen; cases hlen
    refine .inl ⟨excs.dropLast.map .error, excs.getLast hne, ?_, ?_, errors_not_gone h⟩
    · rw [List.getLast?_eq_some_getLast hne]
      rfl
    · show _ = _ ++ [excs.getLast hne].map Except.error
      rw [← List.map_append, List.dropLast_concat_getLast hne]
  | destroyed excs hlen h =>
    cases hr
    exact .inr ⟨rfl, ⟨.ok (), List.mem_append_right _ List.mem_cons_self, rfl⟩, fun _ => rfl⟩
  | missing excs hlen h hlast =>
    cases hr
    cases excs with
    | cons e excs => exact absurd ⟨.error e, excs.map .error, _, rfl, hlast⟩ hlate
    | nil =>
      refine .inr ⟨rfl, ⟨_, List.mem_cons_self, hlast⟩, fun hok => ?_⟩
      cases List.mem_singleton.mp hok

/-- The attempts stop when the server is gone, and are bounded. -/
theorem Attempts.stops {err : Option ApiError} {n : Nat} {outs : List Outcome}
    {r : Except Error (Option ApiError × Bool)} (h : Attempts err n outs r) :
    outs.length ≤ n ∧ ∀ before o after, outs = before ++ o :: after → gone o = true → after = [] := by
  cases h with
  | failed excs hlen h =>
    refine ⟨by rw [List.length_map]; exact Nat.le_of_eq hlen, fun before o after heq ho => ?_⟩
    exact nothing_after_gone [] (Nat.zero_le 1) h (by rw [List.append_nil, heq]) ho
  | destroyed excs hlen h =>
    refine ⟨by rw [List.length_append, List.length_map]; exact hlen, fun before o after heq ho => ?_⟩
    exact nothing_after_gone [_] (Nat.le_refl 1) h heq ho
  | missing excs hlen h hlast =>
    refine ⟨by rw [List.length_append, List.length_map]; exact hlen, fun before o after heq ho => ?_⟩
    exact nothing_after_gone [_] (Nat.le_refl 1) h heq ho

/-- The server that is deleted tells what is listed and destroyed. -/
theorem listed_of_onServer {server : Server} {tr : Trace sig}
    (h : ∀ a ∈ tr, onServer server a) : listed tr = [] := by
  refine List.flatMap_eq_nil_iff.mpr fun a ha => ?_
  match a, h a ha with
  | .op (.stop _) _, _ => rfl
  | .op (.sleep _) _, _ => rfl
  | .op (.destroy _) _, _ => rfl
  | .op (.destroyStorage _) _, _ => rfl
  | .op .getClient _, _ => rfl

/-- **A deletion reports the truth if and only if** no attempt finds the server gone
after another one has failed. A server that is gone at once, or destroyed late, is
reported as it should be. -/
theorem reportsTruth_iff {externalId : String} {tr : Trace sig} {r : Except Error Unit}
    (h : Finishes (deleteNodeSync externalId) tr r) (hbenign : OnlyDestroyFails tr) :
    ReportsTruth externalId tr r ↔ ¬GoneLate (outcomes tr) := by
  obtain ⟨servers, tr', rfl, hbenign', h'⟩ := finishes_deleteNodeSync h hbenign
  rcases finishes_deleteFirst h' with ⟨hnone, rfl, rfl⟩ | ⟨server, hmem, hip, hdelete⟩
  · have hlisted : listed [.op .getClient (.ok ()), .op .getServers (.ok servers)] = servers :=
      List.append_nil servers
    refine ⟨fun _ ⟨_, _, _, he, _⟩ => (nomatch he), fun _ => ?_⟩
    refine ⟨⟨fun _ => .inl (by rw [hlisted]; exact hnone), fun _ => rfl⟩, fun e he => (nomatch he),
      fun before o after he _ => ?_, Nat.zero_le _, fun _ server hs => ?_⟩
    · exact absurd (congrArg List.length he) (by simp [outcomes])
    · exact absurd hs (by simp)
  · have hsees := sees_deleteServer server tr' r hdelete
    obtain ⟨err, serverGone, hattempts, hraise, hreturn⟩ :=
      finishes_deleteServer hdelete hbenign'
    have hlisted : listed (.op .getClient (.ok ()) :: .op .getServers (.ok servers) :: tr') =
        servers := by
      show servers ++ listed tr' = servers
      rw [listed_of_onServer hsees, List.append_nil]
    have hmatch : ¬∀ s ∈ servers, s.publicIp ≠ some externalId := fun hnone => hnone _ hmem hip
    constructor
    · intro htruth hlate
      obtain ⟨e, rfl⟩ := hattempts.err_of_goneLate hlate
      obtain ⟨first, before, exc, hlast, hexc⟩ := hlate
      have hok := htruth.returns.mpr
        (.inr ⟨.error exc, hlast ▸ List.mem_append_right _ List.mem_cons_self, hexc⟩)
      rw [hraise e rfl] at hok
      cases hok
    · intro hlate
      have hstops := hattempts.stops
      rcases hattempts.err_of_not_goneLate hlate with
        ⟨before, e, rfl, hlast, hnone⟩ | ⟨rfl, hgone, hdestroyed⟩
      · obtain rfl := hraise e rfl
        refine ⟨⟨fun he => (nomatch he), ?_⟩, fun e' he => ?_, hstops.2, hstops.1,
          fun he => (nomatch he)⟩
        · rintro (hno | ⟨o, ho, hgone⟩)
          · exact absurd (hlisted ▸ hno) hmatch
          · exact absurd hgone (Bool.eq_false_iff.mp (hnone o ho))
        · cases he
          exact ⟨before, e, hlast, rfl⟩
      · obtain ⟨rfl, hstorages⟩ := hreturn rfl
        refine ⟨⟨fun _ => .inr hgone, fun _ => rfl⟩, fun e he => (nomatch he), hstops.2, hstops.1,
          fun _ s hs storage hstorage => ?_⟩
        replace hs : .op (.destroy s) (.ok ()) ∈ tr' := by simpa using hs
        obtain rfl : s = server := hsees _ hs
        have hall := hstorages (hdestroyed (destroyed_mem_outcomes hs)) storage hstorage
        exact List.mem_cons_of_mem _ (List.mem_cons_of_mem _ hall)

/-! ## Two attempts -/

def node : Server := { uuid := "00c2", publicIp := some "10.0.0.1", storageDevices := ["01d4"] }

def busy : ApiError := { errorCode := "SERVER_STATE_ILLEGAL" }

def missing : ApiError := { errorCode := "SERVER_NOT_FOUND" }

/-- The server is stopped; an attempt to destroy it fails, and another one
ends in `out`. -/
def twoAttempts (out : Outcome) : Trace sig :=
  [.op .getClient (.ok ()), .op .getServers (.ok [node]), .op (.stop node) (.ok ()),
    .op (.sleep 20) (.ok ()), .op (.destroy node) (.error (.api busy)), .op (.sleep 5) (.ok ()),
    .op (.destroy node) (out.mapError .api)]

theorem mapError_ok (u : Unit) : (.ok u : Outcome).mapError Error.api = .ok u := rfl

theorem mapError_error (e : ApiError) : (.error e : Outcome).mapError Error.api = .error (.api e) :=
  rfl

/-- The first attempt fails, and the second destroys the server. -/
theorem reportsTruth_destroyed :
    ReportsTruth "10.0.0.1" (twoAttempts (.ok ()) ++ [.op (.destroyStorage "01d4") (.ok ())])
      (.ok ()) := by
  refine (reportsTruth_iff ?_ ?_).mpr ?_
  · exact ⟨_, _, rfl, _, _, rfl, _, _, rfl, _, _, rfl, _, _, rfl, _, _, rfl, _, _, rfl, _, _, rfl,
      rfl, rfl⟩
  · intro o e he
    simp only [twoAttempts, mapError_ok, List.cons_append, List.nil_append, List.mem_cons,
      List.not_mem_nil, or_false, Answer.op.injEq] at he
    grind
  · rintro ⟨first, before, exc, heq, -⟩
    replace heq : [.error busy] ++ [.ok ()] = first :: before ++ [.error exc] := heq
    cases (List.append_inj' heq rfl).2

/-- The server is gone, and the deletion raises the error of the attempt before. So
the row of the node stays, and the next deletion finds no server. -/
theorem not_reportsTruth_missing : ∃ tr r, Finishes (deleteNodeSync "10.0.0.1") tr r ∧
    OnlyDestroyFails tr ∧ ¬ReportsTruth "10.0.0.1" tr r := by
  refine ⟨twoAttempts (.error missing), .error (.api busy), ?_, ?_, fun htruth => ?_⟩
  · exact ⟨_, _, rfl, _, _, rfl, _, _, rfl, _, _, rfl, _, _, rfl, _, _, rfl, _, _, rfl, rfl, rfl⟩
  · intro o e he
    simp only [twoAttempts, mapError_error, List.mem_cons, List.not_mem_nil, or_false,
      Answer.op.injEq] at he
    grind
  · have hmem : .error missing ∈ outcomes (twoAttempts (.error missing)) := by
      simp [twoAttempts, outcomes, mapError_error]
    have hok := htruth.returns.mpr (.inr ⟨_, hmem, rfl⟩)
    cases hok

end Yascheduler.Upcloud
