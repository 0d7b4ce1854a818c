import Bindings.Proofs.Metadata.Documents
import Bindings.Proofs.Request.Identity
import Bindings.Proofs.Request.Source

/-!
# Requests for guarded handles

A release function is looked up twice: by the name that its handle is asked for when the handle is
described, and by its simple name when the handle is declared. The second look-up finds the same function,
or several ones if the handle was asked for by a full name. Where it finds the function, a request for the
handle fails only if the production of the function fails, now or before.
-/

namespace Bindings
open Bindings.Metadata

variable {env : Environment} {α β : Type} {s t u : State} {id : TransactionId} {name : String}
  {handle : GuardedHandle} {release : Function}

/-! ## Two look-ups -/

/-- A function that a name finds is found by its simple name as well, unless the name is its full name and
    several functions with the simple name apply. -/
theorem releaseOf_again (consistent : env.index.Consistent) (found : env.releaseOf name = .ok release) :
    env.releaseOf release.name = .ok release ∨ name = release.full ∧ name ≠ release.name ∧
      ∃ n, 2 ≤ n ∧ env.releaseOf release.name = .error (.fault (.ambiguousVariants n release.name)) := by
  obtain ⟨member, fits⟩ := mem_of_select found
  obtain ⟨_, held, same⟩ := List.mem_filterMap.mp member
  obtain rfl := Definition.function?_eq_some_iff.mp same
  have again : release ∈ env.index.findFunctions release.name :=
    List.mem_filterMap.mpr ⟨_, Index.mem_lookup (consistent.lookup held), rfl⟩
  refine (select_of_applies release.name again fits).imp_right fun ⟨n, several, ambiguous⟩ => ?_
  have other : name ≠ release.name := by
    rintro rfl
    cases found.symm.trans ambiguous
  exact ⟨((consistent.findFunctions_named member).resolve_left other.symm).symm, other, n, several, ambiguous⟩

/-- Where the second look-up finds a function, a handle is declared after this function is asked for. -/
theorem guardedHandleDecl_eq (again : env.releaseOf handle.releaseFunction = .ok release) (links : Links)
    (s : State) : guardedHandleDecl links handle env s =
      (do
        links.demand (.function release)
        return Declaration.guardedHandle handle env.visibility : Gen Declaration) env s := by
  unfold guardedHandleDecl
  rw [Gen.read_bind, Gen.platform_bind, Gen.bind_eq, show select _ _ _ _ = _ from again]
  rfl

/-- Where the second look-up fails a handle is not declared. -/
theorem guardedHandleDecl_error {error : SelectionError}
    (ambiguous : env.releaseOf handle.releaseFunction = .error error) (links : Links) (s : State) :
    guardedHandleDecl links handle env s = .error (.ofSelection error) s := by
  unfold guardedHandleDecl
  rw [Gen.read_bind, Gen.platform_bind, Gen.bind_eq, show select _ _ _ _ = _ from ambiguous]
  rfl

/-- Where a handle cannot be declared its release function could not be produced. -/
theorem declarationsOf_handle_error (again : env.releaseOf handle.releaseFunction = .ok release)
    {links : Links} {e : Failure} (failed : declarationsOf links (.guardedHandle handle) env s = .error e t) :
    links.demand (.function release) env s = .error e t := by
  change (do return [← guardedHandleDecl links handle] : Gen _) env s = _ at failed
  rw [Gen.bind_eq, guardedHandleDecl_eq again, Gen.bind_eq] at failed
  cases asked : links.demand (.function release) env s with
  | ok a u =>
    rw [asked] at failed
    cases failed
  | error other u =>
    rw [asked] at failed
    cases failed
    rfl

/-- The state after a computation, whether it fails or not. -/
def Gen.after (x : Gen α) (env : Environment) (s : State) : State :=
  match x env s with
  | .ok _ t | .error _ t => t

theorem Gen.Leads.after {x : Gen α} {Q : State → Prop} (leads : Gen.Leads env s x (fun _ => Q) Q) :
    Q (x.after env s) := by
  unfold Gen.Leads at leads
  unfold Gen.after
  cases ended : x env s with
  | ok a t =>
    rw [ended] at leads
    exact leads
  | error e t =>
    rw [ended] at leads
    exact leads

/-! ## Failures of handles -/

/-- A failure that is recorded for a handle is recorded for the function that releases it, too. -/
def State.Ties (env : Environment) (s : State) : Prop :=
  ∀ handle release failure, handle.Backed env → env.releaseOf handle.releaseFunction = .ok release →
    s.ledger.failures.get? (Entity.guardedHandle handle).key = some failure →
      s.ledger.failures.get? (Entity.function release).key = some failure

theorem State.Ties.alike (ties : s.Ties env) (failures : t.ledger.failures = s.ledger.failures) :
    t.Ties env := by
  rw [State.Ties, failures]
  exact ties

theorem State.Ties.empty : State.Ties env {} := by
  intro _ _ _ _ _ found
  cases found

/-- Closing an outermost transaction leaves what is recorded. -/
theorem State.Ties.inTransaction (rest : s.AtRest) {x : Gen α}
    (leads : Gen.Leads env s.begun x (fun _ t => t.Ties env) fun t => t.Ties env) :
    Gen.Leads env s (inTransaction x) (fun _ t => t.Ties env) fun t => t.Ties env := by
  unfold Gen.Leads at leads ⊢
  rw [inTransaction_eq rest]
  cases ended : x env s.begun with
  | ok a t =>
    rw [ended] at leads
    dsimp only
    cases committed : t.ledger.commit s.ledger.transactions.size with
    | ok l => exact leads.alike (Ledger.commit_failures committed)
    | error e => exact leads.alike rfl
  | error e t =>
    rw [ended] at leads
    exact leads.alike (Ledger.rollback_failures _ _)

/-- A structural failure with which an entity that is asked for fails is recorded for it, and speaks of the
    entity that it began with. -/
theorem demand_recorded {depth : Nat} {e : Entity} {failure : StructuralFailure} (inside : s.In id)
    (recalls : s.Recalls) (ended : (Links.upTo depth).demand e env s = .error (.structural failure) t) :
    t.ledger.failures.get? e.key = some failure ∧ ∃ root, failure.key = some root := by
  cases depth with
  | zero => cases ended
  | succ depth =>
    change produce e.key _ env s = _ at ended
    obtain ⟨outcome, recorded⟩ : Outcome id s (produce e.key _ env s) ∧ _ :=
      produce_outcome (declarationsOf_runs .cancelled depth e) inside
    have held := recorded failure t ended recalls
    rw [ended] at outcome
    obtain ⟨path, fails⟩ := outcome recalls
    refine ⟨held, ?_⟩
    rcases fails.begins with ⟨-, rfl⟩ | ⟨root, owned, -⟩
    · -- nothing was recorded, so the failure is one that was remembered
      have same : t.ledger.failures.get? e.key = s.ledger.failures.get? e.key := by
        rw [Table.get?, fails.failures, List.map_nil, List.append_nil, Table.get?]
      obtain ⟨root, owned, -⟩ := recalls.attributed e.key failure (same ▸ held)
      exact ⟨root, owned⟩
    · exact ⟨root, owned⟩

theorem StructuralFailure.attributedTo_owned {failure : StructuralFailure} {root : EntityKey}
    (owned : failure.key = some root) (key : EntityKey) : failure.attributedTo key = failure := by
  rw [attributedTo, owned]
  obtain ⟨fault, own⟩ := failure
  cases owned
  rfl

/-- In every open transaction a computation that fails keeps handles tied to their release functions. -/
structure Tied (U : Upkeep env) (P : α → Prop) (x : Gen α) : Prop where
  traces : Traces U P x
  fails : ∀ {id s e t}, s.In id → U.Holds s → s.Recalls → s.Ties env → x env s = .error e t → t.Ties env

section
variable {U : Upkeep env} {P : α → Prop} {Q : β → Prop}

theorem Tied.leads {x : Gen α} (tied : Tied U P x) (inside : s.In id) (holds : U.Holds s)
    (recalls : s.Recalls) (ties : s.Ties env) :
    Gen.Leads env s x (fun _ t => t.Ties env) fun t => t.Ties env := by
  have traced := tied.traces id s inside holds
  unfold Gen.Leads at traced ⊢
  cases ended : x env s with
  | ok a t =>
    rw [ended] at traced
    obtain ⟨-, -, -, more, produces, -⟩ := traced
    exact ties.alike produces.failures
  | error e t => exact tied.fails inside holds recalls ties ended

theorem Tied.congr {x y : Gen α} (same : ∀ s, x env s = y env s) (tied : Tied U P y) : Tied U P x where
  traces := .congr same tied.traces
  fails inside holds recalls ties ended := tied.fails inside holds recalls ties (same _ ▸ ended)

/-- A question apart from the ledger records nothing. -/
theorem Tied.asking {x : Gen α} (secluded : Gen.Secluded env x) (traces : Traces U P x) : Tied U P x where
  traces := traces
  fails {_ s _ _} _ _ _ ties ended := by
    obtain ⟨result, m, _, ends⟩ := secluded s.memory
    rw [ends s rfl] at ended
    cases result with
    | ok a => cases ended
    | error e =>
      cases ended
      exact ties.alike rfl

theorem Tied.pure {a : α} (holds : P a) : Tied U P (Pure.pure a : Gen α) := .asking (.pure a) (.pure holds)

theorem Tied.throw (e : Failure) : Tied U P (throw e : Gen α) where
  traces := .throw e
  fails _ _ _ ties ended := by
    cases ended
    exact ties

theorem Tied.bind {x : Gen α} {f : α → Gen β} (first : Tied U P x) (rest : ∀ a, P a → Tied U Q (f a)) :
    Tied U Q (x >>= f) where
  traces := .bind first.traces fun a holds => (rest a holds).traces
  fails {id s _ _} inside holds recalls ties ended := by
    have traced := first.traces id s inside holds
    rw [Gen.Leads] at traced
    rw [Gen.bind_eq] at ended
    cases ran : x env s with
    | error e t =>
      rw [ran] at ended
      cases ended
      exact first.fails inside holds recalls ties ran
    | ok a t =>
      rw [ran] at traced ended
      obtain ⟨kept, known, -, more, produces, -⟩ := traced
      exact (rest a known).fails (produces.inside inside) kept (produces.recalls inside recalls)
        (ties.alike produces.failures) ended

/-- While a delegate is expanded handles stay tied. -/
theorem Tied.expansion {x : Gen α} (name : String) (tied : Tied U P x) : Tied U P (inExpansion name x) where
  traces := .expansion name tied.traces
  fails {_ s _ _} inside holds recalls ties ended := by
    rw [inExpansion_eq] at ended
    split at ended
    · cases ended
      exact ties
    · rw [Gen.ensuring_eq] at ended
      cases ran : x env { s with expanding := name :: s.expanding } with
      | ok a t =>
        rw [ran] at ended
        cases ended
      | error e t =>
        rw [ran] at ended
        cases ended
        have kept := tied.fails (inside.expansion (name :: s.expanding)) (U.alike holds rfl)
          ⟨recalls.told, recalls.attributed⟩ (ties.alike rfl) ran
        exact kept.alike rfl

end

section
variable {U : Upkeep env} (consistent : env.index.Consistent)
include consistent

/-- What is recorded for an entity keeps handles tied: a handle fails as its release function does. -/
theorem State.Ties.failing (ties : s.Ties env) {e : Entity} (offered : e.Offered env)
    {failure : StructuralFailure} (own : ∀ handle release, e = .guardedHandle handle →
      env.releaseOf handle.releaseFunction = .ok release →
        s.ledger.failures.get? (Entity.function release).key = some failure) :
    (s.failing id e.key failure).Ties env := by
  intro handle release other backed again found
  change (s.ledger.failures.putNew e.key failure).get? _ = some other at found
  change (s.ledger.failures.putNew e.key failure).get? _ = some other
  rw [Table.get?_putNew] at found ⊢
  have held : s.ledger.failures.get? (Entity.function release).key = some other := by
    split at found
    · next same =>
      -- the key tells the handle, so the two have the same release function
      obtain ⟨handle', rfl, space, name⟩ := Entity.eq_guardedHandle same
      obtain rfl := offered.handle_backed.eq consistent backed space name
      cases before : s.ledger.failures.get? (Entity.guardedHandle handle').key with
      | some earlier =>
        rw [before] at found
        cases found
        exact ties handle' release _ backed again before
      | none =>
        rw [before] at found
        cases found
        exact own handle' release rfl again
    · exact ties handle release other backed again found
  split
  · next same =>
    rw [same, held]
    rfl
  · exact held

theorem Tied.produce {e : Entity} {depth : Nat} (offered : e.Offered env)
    (tied : Tied U (fun _ => True) (declarationsOf (Links.upTo depth) e)) :
    Tied U (fun _ => True) (produce e.key (declarationsOf (Links.upTo depth) e)) where
  traces := .produce offered tied.traces
  fails {id s _ _} inside holds recalls ties ended := by
    rw [produce_eq inside] at ended
    cases known : s.entry e.key with
    | committed declarations | inFlight =>
      rw [known] at ended
      cases ended
    | failed failure =>
      rw [known] at ended
      cases ended
      exact ties
    | notStarted =>
      simp only [known] at ended
      split at ended
      · cases ended
      · have insideM := inside.marked e.key
        have holdsM : U.Holds (s.marked id e.key) := U.alike holds rfl
        have recallsM := recalls.marked inside known
        cases ran : declarationsOf (Links.upTo depth) e env (s.marked id e.key) with
        | ok declarations u =>
          have insideU := (tied.traces.ended insideM holdsM ran).1
          simp only [ran, insideU.complete_eq] at ended
          cases ended
        | error failure u =>
          have before := tied.fails insideM holdsM recallsM (ties.alike rfl) ran
          rw [ran] at ended
          cases failure with
          | structural failure =>
            cases ended
            refine before.failing consistent offered fun handle release same again => ?_
            subst same
            -- a handle is declared after its release function, so it was the function that failed
            obtain ⟨recorded, root, owned⟩ :=
              demand_recorded insideM recallsM (declarationsOf_handle_error again ran)
            rw [failure.attributedTo_owned owned]
            exact recorded
          | platformMismatch | input | cancelled | ledger | badLimit | depthExceeded =>
            cases ended
            exact before.alike rfl

/-- Computations that keep handles tied to their release functions. -/
def Comparison.tying (U : Upkeep env) : Comparison env :=
  .offered consistent (fun x _ => Tied U (fun _ => True) x)
    (fun left _ tied => .congr left tied)
    (fun _ => .pure trivial)
    (fun _ => .throw _)
    (fun first rest => .bind first fun a _ => rest a)
    (fun chosen => .asking (isConforming_secluded _) (.conforming chosen))
    (fun chosen => .asking (isManagedType_secluded _ true) (.managed chosen))
    (fun name _ _ rest => .bind (.asking (guardedHandle?_secluded name)
      (.asking (guardedHandle?_secluded name) (guardedHandle?_recalling name) (U.handle name))) rest)

theorem tied_linked (U : Upkeep env) (depth : Nat) :
    (Comparison.tying consistent U).Linked (Links.upTo depth) (Links.upTo depth) := by
  induction depth with
  | zero => exact ⟨fun _ _ => .throw _, fun _ _ => .throw _⟩
  | succ depth ih =>
    refine ⟨fun e offered => ?_, fun t _ => ?_⟩
    · exact .produce consistent offered (declarationsOf_matches (C := .tying consistent U) ih offered)
    · exact .expansion t.full (delegateType_matches ih t)

/-! ## Sweeps -/

/-- What holds in a sweep between two candidates. -/
structure Fastened (U : Upkeep env) (id : TransactionId) (s : State) : Prop extends Tracked U id s where
  recalls : s.Recalls
  ties : s.Ties env

theorem Fastened.candidate (depth : Nat) (fastened : Fastened U id s) {c : Candidate} (offers : Offers env c) :
    Gen.Leads env s (sweepCandidate (Links.upTo depth) c) (fun _ => Fastened U id) (Fastened U id) := by
  have calm := U.calm fastened.grounded.holds
  have tracked := fastened.toTracked.candidate consistent depth offers
  have poised :=
    (Poised.candidate env .cancelled depth ⟨fastened.toGathers, fastened.recalls, calm⟩ c).2
  have tied : Tied U _ ((Links.upTo depth).candidate c) :=
    candidate_matches (tied_linked consistent U depth) fun d chosen => .candidate offers chosen
  have inside := split_in s id
  have kept := tied.leads inside (U.alike fastened.grounded.holds rfl)
    (fastened.recalls.alike fastened.split_entry rfl) (fastened.ties.alike rfl)
  have traced := tied.traces _ _ inside (U.alike fastened.grounded.holds rfl)
  unfold Gen.Leads at tracked kept traced ⊢
  rw [sweepCandidate_eq, inSavepoint_eq fastened.toIn] at tracked poised ⊢
  cases ended : (Links.upTo depth).candidate c env (s.split id) with
  | ok a t =>
    rw [ended] at tracked poised kept traced
    obtain ⟨-, -, -, more, produces, -⟩ := traced
    obtain ⟨l, committed, -, -, -, failures⟩ := fastened.toGathers.fold produces
    simp only [committed] at tracked poised ⊢
    exact ⟨tracked, poised.recalls, fastened.ties.alike failures⟩
  | error e t =>
    rw [ended] at tracked poised kept
    have ties : State.Ties env { t with
        ledger := t.ledger.rollback s.ledger.transactions.size, current := some id } :=
      kept.alike (Ledger.rollback_failures _ _)
    dsimp only at tracked poised ⊢
    cases concluded : e.conclusion c with
    | ok outcome =>
      rw [concluded] at tracked poised
      exact ⟨tracked, poised.recalls, ties⟩
    | error other =>
      rw [concluded] at tracked poised
      exact ⟨tracked, poised.1.recalls, ties⟩

/-! ## Requests -/

/-- What holds between requests. -/
structure Composed (U : Upkeep env) (s : State) : Prop where
  rest : s.AtRest
  recalls : s.Recalls
  grounded : Grounded U s
  ties : s.Ties env

theorem Composed.work {cancel : Cancellation} {work : Work} (offered : work.Offered env cancel)
    (depth : Nat) (composed : Composed U s) :
    Gen.Leads env s.begun (work.run (Links.upTo depth)) (fun _ t => t.Ties env) fun t => t.Ties env := by
  have linked := tied_linked consistent U depth
  have recalls := composed.recalls.alike (begun_entry composed.rest) rfl
  have once : ∀ {x : Gen Unit}, Tied U (fun _ => True) x →
      Gen.Leads env s.begun x (fun _ t => t.Ties env) fun t => t.Ties env := fun tied =>
    tied.leads (begun_in s) (U.alike composed.grounded.holds rfl) recalls (composed.ties.alike rfl)
  cases work with
  | name text =>
    have tied : Tied U _ ((Links.upTo depth).name text) := name_matches linked (groupsOf_regular text)
    exact once (tied.bind fun _ _ => .pure trivial)
  | template t =>
    obtain ⟨name, held⟩ := offered
    have tied : Tied U _ ((Links.upTo depth).demand (.template t)) := linked.demand _ (.template held)
    exact once tied
  | sweep candidates other =>
    have begun : Fastened U s.ledger.transactions.size s.begun :=
      ⟨⟨begun_gathers s, composed.grounded.alike rfl (begun_entry composed.rest)⟩, recalls,
        composed.ties.alike rfl⟩
    have swept := sweepFrom_leads other 0 (fun c member _ fastened =>
      fastened.candidate consistent depth (offered.1 c member)) begun
    exact .bind (swept.imp (fun _ _ kept => kept) fun _ kept => kept.ties) fun _ _ kept =>
      .pure kept.ties

theorem Composed.after (composed : Composed U s) (r : PublicRequest) : Composed U (r.after env s) := by
  have rest := composed.rest
  have safe : (Discipline.any env).Safe s := safe_any rest.calm
  refine ⟨(after_advances rest safe r).rest, (run_records rest composed.recalls .cancelled r).2.2,
    composed.grounded.after consistent rest r, ?_⟩
  have leads : Gen.Leads env s r.run (fun _ t => t.Ties env) fun t => t.Ties env := by
    unfold Gen.Leads
    rw [run_eq rest, PublicRequest.runOn, Gen.read_bind]
    cases asked : r.work env with
    | error e => exact composed.ties
    | ok work =>
      exact State.Ties.inTransaction rest (composed.work consistent (work_gives r work asked) env.depth)
  exact PublicRequest.after_leads leads

omit consistent in
/-- Closing an outermost transaction leaves what has failed remembered. -/
theorem State.Recalls.inTransaction (rest : s.AtRest) (recalls : s.Recalls) {x y : Gen α}
    (runs : Runs env x y) (ends : (Discipline.any env).Ends s.begun x fun _ _ => True) :
    Gen.Leads env s (inTransaction x) (fun _ => State.Recalls) State.Recalls := by
  have turns := (inTransaction_turns rest (safe_any rest.calm) fun _ => ends).leads
  have inside := begun_in s
  have gathers := begun_gathers s
  have begun := recalls.alike (begun_entry rest) rfl
  have outcome := (runs _ _ inside).1
  unfold Gen.Leads at turns ⊢
  rw [inTransaction_eq rest] at turns ⊢
  cases ended : x env s.begun with
  | ok a t =>
    rw [ended] at outcome turns
    obtain ⟨more, produces⟩ := outcome
    have gathersT := (gathers.produced produces).1
    obtain ⟨l, closed, failures, committed⟩ := gathersT.commit
    simp only [closed] at turns ⊢
    exact turns.rest.recalls_iff.mpr
      ((gathersT.layered.recalls_iff.mp (produces.recalls inside begun)).commit failures committed)
  | error e t =>
    rw [ended] at outcome turns
    have failures := Ledger.rollback_failures t.ledger s.ledger.transactions.size
    have committed := Ledger.rollback_committed t.ledger s.ledger.transactions.size
    dsimp only at turns ⊢
    have recallsT := outcome.recalls gathers begun (fun _ => rfl) rfl (committed.symm.trans turns.2)
    exact turns.1.rest.recalls_iff.mpr (recallsT.durable.alike failures committed)

omit consistent in
/-- A computation in a transaction of its own leaves a composed state composed. -/
theorem Composed.transaction (composed : Composed U s) {x y : Gen α} {P : α → Prop} (runs : Runs env x y)
    (tied : Tied U P x) (ends : (Discipline.any env).Ends s.begun x fun _ _ => True) :
    Gen.Leads env s (inTransaction x) (fun _ => Composed U) (Composed U) := by
  obtain ⟨rest, recalls, grounded, ties⟩ := composed
  have begun : Tracked U s.ledger.transactions.size s.begun :=
    ⟨begun_gathers s, grounded.alike rfl (begun_entry rest)⟩
  have rested := (inTransaction_turns rest (safe_any rest.calm) fun _ => ends).leads
  have recalled := recalls.inTransaction rest runs ends
  have sourced := grounded.inTransaction rest ends (begun.traced tied.traces)
  have still := State.Ties.inTransaction rest (tied.leads begun.toIn begun.grounded.holds
    (recalls.alike (begun_entry rest) rfl) (ties.alike rfl))
  unfold Gen.Leads at rested recalled sourced still ⊢
  cases ended : inTransaction x env s with
  | ok a t =>
    rw [ended] at rested recalled sourced still
    exact ⟨rested.rest, recalled, sourced, still⟩
  | error e t =>
    rw [ended] at rested recalled sourced still
    exact ⟨rested.1.rest, recalled, sourced, still⟩

omit consistent in
theorem requestHandle_eq (name : String) (s : State) : requestHandle name env s =
    inTransaction ((Links.upTo env.depth).guardedHandle name) env s := by
  unfold requestHandle
  rw [Gen.bind_eq, sessionLinks_eq]

theorem Composed.requestHandled (composed : Composed U s) (name : String) :
    Gen.Leads env s (requestHandle name) (fun _ => Composed U) (Composed U) := by
  have tied : Tied U _ ((Links.upTo env.depth).guardedHandle name) :=
    guardedHandle_matches (tied_linked consistent U env.depth) name
  have runs : Runs env ((Links.upTo env.depth).guardedHandle name) _ :=
    guardedHandle_matches (watched_linked .cancelled env.depth) name
  have sound : (Discipline.any env).Sound s.begun := (safe_any composed.rest.calm).begun
  have leads : Gen.Leads env s (inTransaction ((Links.upTo env.depth).guardedHandle name)) _ _ :=
    composed.transaction runs tied
      ((guardedHandle_ends (upTo_sound _ env.depth) sound name).imp fun _ _ _ _ => trivial)
  rw [Gen.Leads, requestHandle_eq]
  exact leads

end

/-! ## Sessions -/

/-- What is asked of a session: a request, or the handle that a release function backs. -/
inductive Errand
  | request (r : PublicRequest)
  | handle (name : String)

/-- The state after an errand, whether it fails or not. -/
def Errand.after (env : Environment) (s : State) : Errand → State
  | .request r => r.after env s
  | .handle name => (requestHandle name).after env s

/-- The state of a session after errands, one after the other. -/
def Environment.running (env : Environment) (errands : List Errand) : State :=
  errands.foldl (Errand.after env) {}

theorem running_composed {U : Upkeep env} (consistent : env.index.Consistent) (holds : U.Holds {})
    (errands : List Errand) : Composed U (env.running errands) := by
  have all : ∀ (errands : List Errand) (s : State), Composed U s →
      Composed U (errands.foldl (Errand.after env) s) := by
    intro errands
    induction errands with
    | nil => exact fun _ composed => composed
    | cons errand errands ih =>
      refine fun s composed => ih _ ?_
      cases errand with
      | request r => exact composed.after consistent r
      | handle name => exact (composed.requestHandled consistent name).after
  exact all errands {} ⟨.empty, .empty, .init holds, .empty⟩

/-! ## Requests for handles -/

/-- How a request for a handle fails with its release function: the failure is recorded for the function,
    or it is another one that the function raised when it was asked for, in the transaction of the request
    and while the handle was being produced. -/
inductive ReleaseFails (env : Environment) (s : State) (handle : GuardedHandle) (release : Function) :
    Failure → State → Prop
  | recorded {failure : StructuralFailure} {t : State}
      (held : t.ledger.failures.get? (Entity.function release).key = some failure) :
      ReleaseFails env s handle release (.structural failure) t
  | raised {e : Failure} {t u : State} {depth : Nat} {handles : Table String (Option GuardedHandle)}
      (other : ∀ failure, e ≠ .structural failure) (level : env.depth = depth + 1)
      (asked : (Links.upTo depth).demand (.function release) env ({ s.begun with handles }.marked
        s.ledger.transactions.size (Entity.guardedHandle handle).key) = .error e u) :
      ReleaseFails env s handle release e t

/-- A handle that cannot be produced has a release function that cannot be produced. -/
theorem demand_handle_fails (inside : s.In id) (recalls : s.Recalls) (ties : s.Ties env)
    (backed : handle.Backed env) (again : env.releaseOf handle.releaseFunction = .ok release) {depth : Nat}
    {e : Failure} (failed : (Links.upTo (depth + 1)).demand (.guardedHandle handle) env s = .error e t) :
    (∃ failure, e = .structural failure ∧
        t.ledger.failures.get? (Entity.function release).key = some failure) ∨
      (∀ failure, e ≠ .structural failure) ∧ ∃ v, (Links.upTo depth).demand (.function release) env
        (s.marked id (Entity.guardedHandle handle).key) = .error e v := by
  change produce _ _ env s = _ at failed
  rw [produce_eq inside] at failed
  cases known : s.entry (Entity.guardedHandle handle).key with
  | committed declarations | inFlight =>
    rw [known] at failed
    cases failed
  | failed failure =>
    rw [known] at failed
    cases failed
    exact .inl ⟨failure, rfl, ties handle release failure backed again ((recalls.told _ _).mp known)⟩
  | notStarted =>
    simp only [known] at failed
    split at failed
    · cases failed
    · cases ran : declarationsOf (Links.upTo depth) (.guardedHandle handle) env
          (s.marked id (Entity.guardedHandle handle).key) with
      | ok declarations u =>
        obtain ⟨outcome, -⟩ := declarationsOf_runs .cancelled depth _ id _ (inside.marked _)
        rw [ran] at outcome failed
        obtain ⟨more, produces⟩ := outcome
        simp only [(produces.inside (inside.marked _)).complete_eq] at failed
        cases failed
      | error other u =>
        have asked := declarationsOf_handle_error again ran
        rw [ran] at failed
        cases other with
        | structural failure =>
          cases failed
          obtain ⟨held, root, owned⟩ :=
            demand_recorded (inside.marked _) (recalls.marked inside known) asked
          refine .inl ⟨_, rfl, ?_⟩
          rw [failure.attributedTo_owned owned]
          change (u.ledger.failures.putNew _ failure).get? _ = _
          rw [Table.get?_putNew]
          split
          · next same =>
            rw [same, held]
            rfl
          · exact held
        | platformMismatch | input | cancelled | ledger | badLimit | depthExceeded =>
          cases failed
          exact .inr ⟨fun _ => Failure.noConfusion, u, asked⟩

/-- What a name finds is known, or found out, and remembered. -/
theorem guardedHandle?_eq (faithful : s.Faithful env) {answer : Option GuardedHandle}
    (builds : ∀ u, buildHandle name env u = .ok answer u) :
    ∃ handles, guardedHandle? name env s = .ok answer { s with handles } := by
  unfold guardedHandle?
  rw [Gen.get_bind]
  cases known : s.handles.get? name with
  | some other =>
    cases (builds {}).symm.trans (faithful name other known {})
    exact ⟨s.handles, rfl⟩
  | none =>
    dsimp only
    rw [Gen.bind_eq, builds s]
    exact ⟨_, rfl⟩

/-- A transaction fails as what is done in it does. -/
theorem Composed.transaction_fails {U : Upkeep env} {P : α → Prop} {x : Gen α} (composed : Composed U s)
    (traces : Traces U P x) {e : Failure} (failed : inTransaction x env s = .error e t) :
    ∃ u, x env s.begun = .error e u ∧ t.ledger.failures = u.ledger.failures := by
  have traced := traces _ _ (begun_in s) (U.alike composed.grounded.holds rfl)
  unfold Gen.Leads at traced
  rw [inTransaction_eq composed.rest] at failed
  cases ended : x env s.begun with
  | ok a u =>
    rw [ended] at traced failed
    -- what has been produced can always be committed
    obtain ⟨-, -, -, more, produces, -⟩ := traced
    obtain ⟨l, closed, -⟩ := ((begun_gathers s).produced produces).1.commit
    simp only [closed] at failed
    cases failed
  | error other u =>
    rw [ended] at failed
    cases failed
    exact ⟨u, rfl, Ledger.rollback_failures _ _⟩

/-- In a composed state a request for a handle fails with its release function, where the look-ups agree. -/
theorem Composed.handle_fails (consistent : env.index.Consistent) (composed : Composed (.faithful env) s)
    (builds : Builds env name handle) (again : env.releaseOf handle.releaseFunction = .ok release)
    {e : Failure} (failed : requestHandle name env s = .error e t) :
    ReleaseFails env s handle release e t := by
  obtain ⟨depth, level⟩ : ∃ depth, env.depth = depth + 1 := ⟨_, rfl⟩
  have traces : Traces (.faithful env) _ ((Links.upTo env.depth).guardedHandle name) :=
    guardedHandle_matches (traced_linked consistent _ env.depth) name
  rw [requestHandle_eq] at failed
  obtain ⟨u, asked, failures⟩ := composed.transaction_fails traces failed
  rw [level] at asked
  obtain ⟨handles, found⟩ := guardedHandle?_eq (s := s.begun) composed.grounded.holds.2 builds
  unfold Links.guardedHandle at asked
  rw [Gen.read_bind] at asked
  split at asked
  · cases asked
  rw [Gen.bind_eq, found] at asked
  dsimp only at asked
  rw [Gen.bind_eq] at asked
  cases ended : (Links.upTo (depth + 1)).demand (.guardedHandle handle) env { s.begun with handles } with
  | ok a v =>
    rw [ended] at asked
    cases asked
  | error other v =>
    rw [ended] at asked
    cases asked
    have inside : State.In { s.begun with handles } s.ledger.transactions.size :=
      ⟨(begun_in s).current, (begun_in s).opened⟩
    have recalls : State.Recalls { s.begun with handles } :=
      composed.recalls.alike (begun_entry composed.rest) rfl
    have ties : State.Ties env { s.begun with handles } := composed.ties.alike rfl
    rcases demand_handle_fails inside recalls ties ⟨name, builds⟩ again ended with
      ⟨failure, rfl, held⟩ | ⟨other, w, demanded⟩
    · exact .recorded (failures ▸ held)
    · exact .raised other level demanded

/-- In every session, the function that a handle was made of is found again when the handle is declared, and
    asked for, so that a request for the handle fails only with this function, unless the handle is asked for
    by the full name of the function and several functions with its simple name apply. -/
theorem running_releases {roots : List Markup.Element} (built : Index.ofDocuments roots = .ok env.index)
    (errands : List Errand) (builds : Builds env name handle) : ∃ release,
      env.releaseOf name = .ok release ∧ (∀ s, handleOfRelease release env s = .ok (some handle) s) ∧
        (env.releaseOf handle.releaseFunction = .ok release ∧
            (∀ links s, guardedHandleDecl links handle env s =
              (do
                links.demand (.function release)
                return Declaration.guardedHandle handle env.visibility : Gen Declaration) env s) ∧
            (∀ e t, requestHandle name env (env.running errands) = .error e t →
              ReleaseFails env (env.running errands) handle release e t) ∨
          name = release.full ∧ name ≠ release.name ∧ ∃ n, 2 ≤ n ∧
            env.releaseOf handle.releaseFunction = .error (.fault (.ambiguousVariants n release.name)) ∧
            ∀ links s, guardedHandleDecl links handle env s =
              .error (.structural { fault := .ambiguousVariants n release.name }) s) := by
  have consistent := Index.ofDocuments_consistent built
  have begins : (Upkeep.faithful env).Holds {} := ⟨⟨rfl, rfl, rfl⟩, nofun⟩
  have composed := running_composed consistent begins errands
  obtain ⟨release, found, owned, made⟩ := builds.releaseOf
  have second : env.releaseOf handle.releaseFunction = env.releaseOf release.name :=
    congrArg env.releaseOf owned.releaseFunction
  refine ⟨release, found, made, (releaseOf_again consistent found).imp ?_ ?_⟩
  · intro same
    have again := second.trans same
    exact ⟨again, guardedHandleDecl_eq again, fun _ _ => composed.handle_fails consistent builds again⟩
  · rintro ⟨full, other, n, several, ambiguous⟩
    have again := second.trans ambiguous
    exact ⟨full, other, n, several, again, guardedHandleDecl_error again⟩

/-- A function that releases what it is given. -/
def closingIn (space name : String) : Markup.Element :=
  oneNamespace space [
    ⟨"function", [("name", name), ("module", "thing"), ("returns", "bool")], "", [
      ⟨"param", [("name", "thing"), ("type", "isize")], "", []⟩]⟩]

/-- The full name is that of the only function with the simple name, and another handle was asked for. -/
theorem running_releases_full :
    let env := Environment.reading [closingIn "A" "Close", closingIn "B" "Shut"]
    ∃ handle release, Builds env "A.Close" handle ∧ handle.name = "CloseSafeHandle" ∧
      env.releaseOf "A.Close" = .ok release ∧ (∀ s, handleOfRelease release env s = .ok (some handle) s) ∧
      env.releaseOf handle.releaseFunction = .ok release ∧
      (∀ links s, guardedHandleDecl links handle env s =
        (do
          links.demand (.function release)
          return Declaration.guardedHandle handle env.visibility : Gen Declaration) env s) ∧
      ∀ e t, requestHandle "A.Close" env (env.running [.handle "Shut"]) = .error e t →
        ReleaseFails env (env.running [.handle "Shut"]) handle release e t := by
  intro env
  have built : Index.ofDocuments [closingIn "A" "Close", closingIn "B" "Shut"] = .ok env.index :=
    reading_built (by decide +kernel)
  have backed : (backed? env "A.Close").any (fun handle => handle.name = "CloseSafeHandle" &&
      (env.releaseOf handle.releaseFunction).toOption.isSome) = true := by decide +kernel
  obtain ⟨handle, found, checked⟩ := (Option.any_eq_true _ _).mp backed
  simp only [Bool.and_eq_true, decide_eq_true_eq] at checked
  have builds := backed?_eq_some found
  obtain ⟨release, chosen, made, asks | ⟨-, -, n, -, ambiguous, -⟩⟩ :=
    running_releases built [.handle "Shut"] builds
  · exact ⟨handle, release, builds, checked.1, chosen, made, asks⟩
  · rw [ambiguous] at checked
    cases checked.2

/-- The handle that a name finds, and the failure of a request for it in a new session. -/
def refused? (env : Environment) (name : String) : Option (GuardedHandle × StructuralFailure) :=
  match backed? env name, requestHandle name env {} with
  | some handle, .error (.structural failure) _ => some (handle, failure)
  | _, _ => none

theorem refused?_eq_some {failure : StructuralFailure} (found : refused? env name = some (handle, failure)) :
    Builds env name handle ∧ ∃ t, requestHandle name env {} = .error (.structural failure) t := by
  unfold refused? at found
  split at found
  · next backed failed =>
    cases found
    exact ⟨backed?_eq_some backed, _, failed⟩
  · cases found

/-- Two functions with one simple name apply, so the handle of the one that was asked for cannot be declared,
    though this function can be produced. -/
theorem handle_refused :
    let env := Environment.reading [closingIn "A" "Close", closingIn "B" "Close"]
    ∃ handle t decls, Builds env "A.Close" handle ∧ requestHandle "A.Close" env {} = .error (.structural
        { fault := .ambiguousVariants 2 "Close", key := some (Entity.guardedHandle handle).key }) t ∧
      (env.releaseOf "A.Close").toOption.map (Entity.key <| .function ·) =
        some ⟨.function, ⟨"A", "Close"⟩, false⟩ ∧
      (env.session [.byName "A.Close"]).ledger.committed.get? ⟨.function, ⟨"A", "Close"⟩, false⟩ =
        some decls := by
  intro env
  have refused : (refused? env "A.Close").any (fun (handle, failure) => failure =
      { fault := .ambiguousVariants 2 "Close", key := some (Entity.guardedHandle handle).key }) = true := by
    decide +kernel
  have named : (env.releaseOf "A.Close").toOption.map (Entity.key <| .function ·) =
      some ⟨.function, ⟨"A", "Close"⟩, false⟩ := by decide +kernel
  have produced : ((env.session [.byName "A.Close"]).ledger.committed.get?
      ⟨.function, ⟨"A", "Close"⟩, false⟩).isSome = true := by decide +kernel
  obtain ⟨⟨handle, failure⟩, found, checked⟩ := (Option.any_eq_true _ _).mp refused
  obtain rfl := decide_eq_true_eq.mp checked
  obtain ⟨builds, t, failed⟩ := refused?_eq_some found
  obtain ⟨decls, durable⟩ := Option.isSome_iff_exists.mp produced
  exact ⟨handle, t, decls, builds, failed, named, durable⟩

end Bindings
