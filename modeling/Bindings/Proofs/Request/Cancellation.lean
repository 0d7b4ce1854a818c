import Bindings.Proofs.Generation.Repetition
import Bindings.Proofs.Request.Settlement

/-!
# Sweeps that are cancelled

What a sweep has recorded and remembers by the time it is cancelled makes no difference when it is run
again. Of the candidates before that, one that was produced finds nothing of what it needs among the
failures that are recorded by now, so it is produced again, and one that failed has its failure
recorded. After these candidates the sweep is where it was when it was cancelled.
-/

namespace Bindings
open Bindings.Metadata

variable {env : Environment} {s t u v x y later : State} {id other : TransactionId} {c : Candidate}
  {outcome : CandidateOutcome} {outcomes : List CandidateOutcome} {candidates : List Candidate}
  {cancel : Cancellation} {depth index n : Nat}

/-! ## Parts of a sweep -/

/-- A sweep of two rows of candidates sweeps one row after the other. -/
theorem sweepFrom_append (links : Links) (cancel : Cancellation) (index : Nat)
    (front back : List Candidate) (s : State) :
    sweepFrom links cancel index (front ++ back) env s =
      match sweepFrom links cancel index front env s with
      | .error e t => .error e t
      | .ok outcomes t => match sweepFrom links cancel (index + front.length) back env t with
        | .error e u => .error e u
        | .ok others u => .ok (outcomes ++ others) u := by
  induction front generalizing index s with
  | nil =>
    change sweepFrom links cancel index back env s = match sweepFrom links cancel index back env s with
      | .error e u => .error e u
      | .ok others u => .ok others u
    cases sweepFrom links cancel index back env s <;> rfl
  | cons c front ih =>
    rw [List.cons_append, sweepFrom_cons, sweepFrom_cons]
    by_cases stopped : cancel.any (· ≤ index)
    · rw [if_pos stopped, if_pos stopped]
    · rw [if_neg stopped, if_neg stopped]
      cases sweepCandidate links c env s with
      | error e t => rfl
      | ok outcome t =>
        dsimp only
        rw [ih, show index + (c :: front).length = index + 1 + front.length by
          rw [List.length_cons]; omega]
        cases sweepFrom links cancel (index + 1) front env t with
        | error e u => rfl
        | ok outcomes u =>
          dsimp only
          cases sweepFrom links cancel (index + 1 + front.length) back env u <;> rfl

/-- Up to the candidate of the number a sweep is not stopped. -/
theorem sweepFrom_unstopped (links : Links) (index : Nat) (front : List Candidate) (s : State) :
    sweepFrom links (some (index + front.length)) index front env s =
      sweepFrom links none index front env s := by
  induction front generalizing index s with
  | nil => rfl
  | cons c front ih =>
    have unstopped : ¬ (some (index + (c :: front).length)).any (· ≤ index) := by
      simp
    have untold : ¬ (none : Cancellation).any (· ≤ index) := by simp
    rw [sweepFrom_cons, sweepFrom_cons, if_neg unstopped, if_neg untold,
      show index + (c :: front).length = index + 1 + front.length by rw [List.length_cons]; omega]
    cases sweepCandidate links c env s with
    | error e t => rfl
    | ok outcome t =>
      dsimp only
      rw [ih]

/-- The candidates of a sweep are swept before a number and from it on, and the sweep that is cancelled
    at the number ends where the candidates before it have ended. -/
theorem sweepFrom_cancelled {links : Links} (early : n < candidates.length)
    (swept : sweepFrom links none 0 candidates env s = .ok outcomes t) :
    ∃ front back first last u, candidates = front ++ back ∧ outcomes = first ++ last ∧
      sweepFrom links none 0 front env s = .ok first u ∧
      sweepFrom links none front.length back env u = .ok last t ∧
      sweepFrom links (some n) 0 candidates env s = .error .cancelled u := by
  obtain ⟨front, c, back, rfl, rfl⟩ :
      ∃ front c back, candidates = front ++ c :: back ∧ n = 0 + front.length := by
    refine ⟨candidates.take n, candidates[n], candidates.drop (n + 1), ?_, ?_⟩
    · rw [List.getElem_cons_drop, List.take_append_drop]
    · rw [List.length_take]
      omega
  have stopped : (some (0 + front.length)).any (· ≤ 0 + front.length) := by simp
  rw [sweepFrom_append] at swept
  rw [sweepFrom_append, sweepFrom_unstopped]
  cases before : sweepFrom links none 0 front env s with
  | error e u =>
    rw [before] at swept
    cases swept
  | ok first u =>
    simp only [before, Nat.zero_add] at swept
    cases after : sweepFrom links none front.length (c :: back) env u with
    | error e v =>
      rw [after] at swept
      cases swept
    | ok last v =>
      simp only [after, EStateM.Result.ok.injEq] at swept
      obtain ⟨rfl, rfl⟩ := swept
      refine ⟨front, c :: back, first, last, u, rfl, rfl, before, after, ?_⟩
      dsimp only
      rw [sweepFrom_cons, if_pos stopped]

/-! ## Rehearsals -/

/-- In a sweep that is run again as much has been completed as in the first one, and all is remembered
    and recorded that is in a later state. -/
structure Rehearses (later : State) (id other : TransactionId) (s x : State) : Prop where
  poised : Poised id s
  opposite : Poised other x
  earlier : s.ledger.failures.entries <+: later.ledger.failures.entries
  pending : x.pending = s.pending
  committed : x.ledger.committed = s.ledger.committed
  failures : x.ledger.failures = later.ledger.failures
  expanding : x.expanding = s.expanding
  memory : x.memory = later.memory

section
variable (rehearses : Rehearses later id other s x)
include rehearses

/-- As much is known of what has not failed later. -/
theorem Rehearses.entry {key : EntityKey} (unfailed : later.ledger.failures.get? key = none) :
    x.entry key = s.entry key := by
  refine rehearses.poised.layered.entry_eq rehearses.opposite.layered rehearses.pending
    rehearses.committed ?_
  rw [rehearses.failures, unfailed]
  cases failed : s.ledger.failures.get? key with
  | none => rfl
  | some failure =>
    rw [Table.get?_of_prefix rehearses.earlier failed] at unfailed
    cases unfailed

/-- The savepoint of a candidate repeats that of the first sweep. -/
theorem Rehearses.split : Repeats later s.ledger.transactions.size x.ledger.transactions.size
    (s.split id) (x.split other) where
  inside := split_in s id
  opposite := split_in x other
  memory := rehearses.memory
  failures := rehearses.failures
  expanding := rehearses.expanding
  pending := by rw [split_pending, split_pending]
  entry key unfailed := by
    rw [rehearses.opposite.split_entry, rehearses.poised.split_entry, rehearses.entry unfailed]

/-- The sweep goes on in the same way as the first one. -/
theorem Rehearses.rejoins {after : State} {more : List Completion} (first : Rejoins id s u t more)
    (again : Rejoins other x v y more)
    (earlier : t.ledger.failures.entries <+: after.ledger.failures.entries)
    (failures : v.ledger.failures = after.ledger.failures) (memory : v.memory = after.memory) :
    Rehearses after id other t y where
  poised := first.poised
  opposite := again.poised
  earlier := earlier
  pending := by rw [again.pending, first.pending, rehearses.pending]
  committed := by rw [again.committed, first.committed, rehearses.committed]
  failures := again.failures.trans failures
  expanding := by rw [again.expanding, first.expanding, rehearses.expanding]
  memory := again.memory.trans memory

/-- A candidate that has ended in the first sweep ends in the same way, without anything new to be
    remembered or recorded, where what has become of the first one has outlasted. -/
theorem Rehearses.candidate (swept : sweepCandidate (Links.upTo (depth + 1)) c env s = .ok outcome t)
    (unskipped : ∀ name, outcome ≠ .skipped name) (outlasts : Outlasts t later)
    (earlier : t.ledger.failures.entries <+: later.ledger.failures.entries) :
    ∃ y, sweepCandidate (Links.upTo (depth + 1)) c env x = .ok outcome y ∧
      Rehearses later id other t y := by
  have poised := rehearses.poised
  have decides := poised.decides swept unskipped
  have repeatable : Repeatable env ((Links.upTo (depth + 1)).candidate c) _ :=
    candidate_matches (repeating_linked (depth + 1)) fun _ _ => trivial
  have calm : (s.split id).Calm := poised.calm.alike rfl
  rcases poised.candidate_cases swept with
    ⟨u, ended, rfl, rejoins, _, entry⟩ | ⟨e, u, _, concluded, rejoins⟩
  · have outlastsU : Outlasts u later := by
      refine ⟨outlasts.toRetains.alike rejoins.memory.symm rfl, fun key known => outlasts.spared key ?_⟩
      rwa [State.Knows, entry]
    obtain ⟨v, again, repeats⟩ := repeatable.again calm rehearses.split ended outlastsU
    obtain ⟨y, producedAgain, rejoinsAgain, _⟩ := rehearses.opposite.produces again
    rw [repeats.pending] at rejoinsAgain
    exact ⟨y, producedAgain,
      rehearses.rejoins rejoins rejoinsAgain earlier repeats.failures repeats.memory⟩
  · -- the failure has been recorded by now, so nothing is looked for again
    have decidesAgain : x.Decides env c outcome := by
      cases decides with
      | produced => cases e <;> cases concluded
      | recorded asked recorded =>
        refine .recorded asked ?_
        rw [rehearses.failures]
        exact Table.get?_of_prefix earlier recorded
      | nothing asked => exact .nothing asked
    obtain ⟨y, again, rejoinsAgain⟩ := rehearses.opposite.again depth decidesAgain
    exact ⟨y, again, rehearses.rejoins rejoins rejoinsAgain earlier rehearses.failures rehearses.memory⟩

end

/-- A candidate of a sweep forgets nothing. -/
theorem Poised.candidate_retains (poised : Poised id s)
    (swept : sweepCandidate (Links.upTo depth) c env s = .ok outcome t) : Retains s t := by
  have repeatable : Repeatable env ((Links.upTo depth).candidate c) _ :=
    candidate_matches (repeating_linked depth) fun _ _ => trivial
  have retains := repeatable.retains _ (s.split id) (split_in s id) (poised.calm.alike rfl)
  rw [Gen.Leads] at retains
  rcases poised.candidate_cases swept with ⟨u, ended, _, rejoins, _⟩ | ⟨e, u, ended, _, rejoins⟩
  · rw [ended] at retains
    exact retains.alike rfl rejoins.memory
  · rw [ended] at retains
    exact retains.alike rfl rejoins.memory

/-- A sweep forgets nothing, and nothing fails in it that was known. -/
theorem Poised.outlasts (poised : Poised id s)
    (swept : sweepFrom (Links.upTo depth) cancel index candidates env s = .ok outcomes t) :
    Outlasts s t := by
  have retains : Retains s t := by
    induction candidates generalizing index s outcomes with
    | nil =>
      obtain ⟨_, rfl⟩ := Gen.pure_ok swept
      exact .refl poised.calm
    | cons c rest ih =>
      obtain ⟨_, outcome, u, others, first, after, rfl⟩ := sweepFrom_cons_ok swept
      have poisedU := poised.after first
      exact (poised.candidate_retains first).trans (ih poisedU after)
  obtain ⟨poisedT, grown⟩ := poised.grows swept
  refine ⟨retains, fun key known => ?_⟩
  cases failed : t.ledger.failures.get? key with
  | none => rfl
  | some failure =>
    have known := grown.carries.knows key known
    rw [State.Knows, (poisedT.recalls.told key failure).mpr failed] at known
    cases known

/-- Candidates that have ended in the first sweep end in the same way. -/
theorem Rehearses.sweep (rehearses : Rehearses later id other s x)
    (swept : sweepFrom (Links.upTo (depth + 1)) none index candidates env s = .ok outcomes later)
    (unskipped : skippedOf outcomes = []) :
    ∃ y, sweepFrom (Links.upTo (depth + 1)) none index candidates env x = .ok outcomes y ∧
      Rehearses later id other later y := by
  induction candidates generalizing index s x outcomes with
  | nil =>
    obtain ⟨rfl, rfl⟩ := Gen.pure_ok swept
    exact ⟨x, rfl, rehearses⟩
  | cons c rest ih =>
    obtain ⟨unstopped, outcome, u, others, first, after, rfl⟩ := sweepFrom_cons_ok swept
    obtain ⟨produced, unskipped⟩ := skippedOf_cons unskipped
    have poisedU := rehearses.poised.after first
    have grown := (poisedU.grows after).2
    obtain ⟨v, again, rehearsesV⟩ :=
      rehearses.candidate first produced (poisedU.outlasts after) grown.failures
    obtain ⟨y, againLater, rehearsesY⟩ := ih rehearsesV after unskipped
    refine ⟨y, ?_, rehearsesY⟩
    rw [sweepFrom_cons, if_neg unstopped, again]
    simp only [againLater]

/-- Where all is remembered and recorded as in the first sweep, the savepoint of a candidate mirrors that
    of the first sweep. -/
theorem Rehearses.mirrors (rehearses : Rehearses s id other s x) :
    Mirrors s.ledger.transactions.size x.ledger.transactions.size (s.split id) (x.split other) where
  failures := rehearses.failures
  expanding := rehearses.expanding
  memory := rehearses.memory
  inside := split_in s id
  opposite := split_in x other
  entry key := by
    rw [rehearses.opposite.split_entry, rehearses.poised.split_entry]
    exact rehearses.poised.layered.entry_eq rehearses.opposite.layered rehearses.pending
      rehearses.committed (by rw [rehearses.failures])
  pending := by rw [split_pending, split_pending]

/-- Where all is remembered and recorded as in the first sweep, a candidate ends in the same way, and
    again all is remembered and recorded as in the first sweep. -/
theorem Rehearses.next (rehearses : Rehearses s id other s x)
    (swept : sweepCandidate (Links.upTo depth) c env s = .ok outcome t) :
    ∃ y, sweepCandidate (Links.upTo depth) c env x = .ok outcome y ∧ Rehearses t id other t y := by
  have poised := rehearses.poised
  have alike : EndAlike _ _ ((Links.upTo depth).candidate c env (s.split id))
      ((Links.upTo depth).candidate c env (x.split other)) :=
    candidate_matches (mirrored_linked depth) (fun _ _ => trivial) _ _ _ _ rehearses.mirrors
  rcases poised.candidate_cases swept with
    ⟨u, ended, rfl, rejoins, _⟩ | ⟨e, u, ended, concluded, rejoins⟩
  · cases again : (Links.upTo depth).candidate c env (x.split other) with
    | error e v =>
      rw [ended, again] at alike
      exact alike.elim
    | ok b v =>
      rw [ended, again] at alike
      obtain ⟨_, after⟩ := alike
      obtain ⟨y, producedAgain, rejoinsAgain, _⟩ := rehearses.opposite.produces again
      rw [after.pending] at rejoinsAgain
      exact ⟨y, producedAgain, rehearses.rejoins rejoins rejoinsAgain (List.prefix_refl _)
        (after.failures.trans rejoins.failures.symm) (after.memory.trans rejoins.memory.symm)⟩
  · cases again : (Links.upTo depth).candidate c env (x.split other) with
    | ok b v =>
      rw [ended, again] at alike
      exact alike.elim
    | error f v =>
      rw [ended, again] at alike
      obtain ⟨rfl, after⟩ := alike
      obtain ⟨y, failedAgain, rejoinsAgain⟩ := rehearses.opposite.fails again concluded
      exact ⟨y, failedAgain, rehearses.rejoins rejoins rejoinsAgain (List.prefix_refl _)
        (after.failures.trans rejoins.failures.symm) (after.memory.trans rejoins.memory.symm)⟩

/-- A sweep goes on as the first one has. -/
theorem Rehearses.onward (rehearses : Rehearses s id other s x)
    (swept : sweepFrom (Links.upTo depth) cancel index candidates env s = .ok outcomes t) :
    ∃ y, sweepFrom (Links.upTo depth) cancel index candidates env x = .ok outcomes y ∧
      Rehearses t id other t y := by
  induction candidates generalizing index s x outcomes with
  | nil =>
    obtain ⟨rfl, rfl⟩ := Gen.pure_ok swept
    exact ⟨x, rfl, rehearses⟩
  | cons c rest ih =>
    obtain ⟨unstopped, outcome, u, others, first, after, rfl⟩ := sweepFrom_cons_ok swept
    obtain ⟨v, again, rehearsesV⟩ := rehearses.next first
    obtain ⟨y, againLater, rehearsesY⟩ := ih rehearsesV after
    refine ⟨y, ?_, rehearsesY⟩
    rw [sweepFrom_cons, if_neg unstopped, again]
    simp only [againLater]

/-! ## Sweeps that are run again -/

/-- A sweep that is cancelled leaves the durable record as it was, and what it has recorded and
    remembers. -/
theorem sweep_cancelled (rest : s.AtRest) (recalls : s.Recalls) {front : List Candidate}
    (swept : sweepFrom (Links.upTo env.depth) none 0 front env s.begun = .ok outcomes u)
    (stopped : sweepFrom (Links.upTo env.depth) (some n) 0 candidates env s.begun = .error .cancelled u) :
    ∃ t, sweep candidates (some n) env s = .error .cancelled t ∧ t.AtRest ∧ t.Recalls ∧
      t.ledger.committed = s.ledger.committed ∧
      Rehearses u s.ledger.transactions.size t.ledger.transactions.size s.begun t.begun := by
  have begun := Poised.begun rest recalls
  obtain ⟨poised, grown⟩ := begun.grows swept
  have safe : (Discipline.any env).Safe u := safe_any poised.calm
  obtain ⟨advances, committed⟩ := grown.toKeeps.rollback rest safe
  have failures := Ledger.rollback_failures u.ledger s.ledger.transactions.size
  have recallsT : State.Recalls
      { u with ledger := u.ledger.rollback s.ledger.transactions.size, current := none } := by
    have before := (poised.layered.recalls_iff.mp poised.recalls).durable
    exact advances.rest.recalls_iff.mpr (before.alike failures (Ledger.rollback_committed _ _))
  refine ⟨_, ?_, advances.rest, recallsT, committed, begun, Poised.begun advances.rest recallsT,
    grown.failures, ?_, committed, failures, grown.expanding, rfl⟩
  · rw [sweep_eq rest, stopped]
  · rw [begun_pending, begun_pending]

/-- A sweep that returns its report, with no candidate skipped, does the same when it is run again
    after it has been cancelled. -/
theorem sweep_resumes {report : SweepReport} (rest : s.AtRest) (recalls : s.Recalls)
    (returns : sweep candidates none env s = .ok report t) (unskipped : report.skippedPlatform = [])
    (early : n < candidates.length) :
    ∃ u v, sweep candidates (some n) env s = .error .cancelled u ∧
      u.ledger.committed = s.ledger.committed ∧ sweep candidates none env u = .ok report v ∧
      v.ledger.committed = t.ledger.committed ∧ v.ledger.failures = t.ledger.failures := by
  obtain ⟨outcomes, w, swept, rfl, _, closes⟩ := sweep_returned rest recalls returns
  obtain ⟨front, back, first, last, middle, rfl, rfl, before, after, stopped⟩ :=
    sweepFrom_cancelled early swept
  obtain ⟨u, cancelled, restU, recallsU, committed, rehearses⟩ :=
    sweep_cancelled rest recalls before stopped
  have unskippedFirst : skippedOf first = [] :=
    (List.append_eq_nil_iff.mp ((List.filterMap_append ..).symm.trans unskipped)).1
  -- the candidates before the check find what the first sweep has left, the others what it has found
  obtain ⟨x, again, rehearsesX⟩ : ∃ x, sweepFrom (Links.upTo env.depth) none 0 front env u.begun =
      .ok first x ∧ Rehearses middle _ _ middle x := rehearses.sweep before unskippedFirst
  obtain ⟨y, onward, rehearsesY⟩ := rehearsesX.onward after
  have sweptAgain : sweepFrom (Links.upTo env.depth) none 0 (front ++ back) env u.begun =
      .ok (first ++ last) y := by
    rw [sweepFrom_append, again]
    simp only [Nat.zero_add, onward]
  obtain ⟨v, returned, _, closesAgain⟩ := sweep_closes restU recallsU sweptAgain
  rw [rehearsesY.pending] at returned
  refine ⟨u, v, cancelled, committed, returned, ?_, ?_⟩
  · rw [closesAgain.committed, closes.committed, rehearsesY.pending, rehearsesY.committed]
  · rw [closesAgain.failures, closes.failures, rehearsesY.failures]

/-- Cancelling a sweep does no harm. From a state between requests, a sweep that would return its report
    with no candidate skipped leaves the durable record as it was if it is cancelled at any check, and
    when it is run again it returns that report, and the same is durable and has failed as if it had
    not been cancelled. -/
theorem cancelled_sweep_resumes (rest : s.AtRest) (recalls : s.Recalls) (r : SweepRequest)
    {report : SweepReport} (returns : r.run none env s = .ok report t)
    (unskipped : report.skippedPlatform = []) (early : n < report.candidateCount) :
    ∃ u v, r.run (some n) env s = .error .cancelled u ∧ u.ledger.committed = s.ledger.committed ∧
      r.run none env u = .ok report v ∧ v.ledger.committed = t.ledger.committed ∧
      v.ledger.failures = t.ledger.failures := by
  rcases r.run_sweeps env with ⟨e, fails⟩ | ⟨candidates, sweeps⟩
  · rw [fails] at returns
    cases returns
  · simp only [sweeps] at returns ⊢
    obtain ⟨outcomes, w, _, reported, _⟩ := sweep_returned rest recalls returns
    rw [reported] at early
    exact sweep_resumes rest recalls returns unskipped early

/-- A module of a function that fails and another one, cancelled between the two: the failure is recorded
    by the time that the sweep is run again. -/
theorem cancelled_sweep_resumes_module :
    let env := Environment.reading [mixedDocument]
    let thing := SweepRequest.ofModule "thing"
    State.AtRest {} ∧ State.Recalls {} ∧ ∃ report t, thing.run none env {} = .ok report t ∧
      report.skippedPlatform = [] ∧ 1 < report.candidateCount ∧
      report.failures.map (·.1) = ["Ns.Break"] ∧
      ∃ u v, thing.run (some 1) env {} = .error .cancelled u ∧ u.ledger.committed = {} ∧
        thing.run none env u = .ok report v ∧ v.ledger.committed = t.ledger.committed ∧
        v.ledger.failures = t.ledger.failures := by
  intro env thing
  have run : thing.run none env {} = _ :=
    requestModule_sorted (by decide +kernel) rfl (by decide +kernel)
  have swept : Gen.gives env {} (thing.run none) (fun report => report.skippedPlatform = [] ∧
      1 < report.candidateCount ∧ report.failures.map (·.1) = ["Ns.Break"]) = true := by
    rw [Gen.gives, run]
    decide +kernel
  obtain ⟨report, t, returns, shape⟩ := Gen.gives_ok swept
  obtain ⟨unskipped, early, failed⟩ := of_decide_eq_true shape
  exact ⟨.empty, .empty, report, t, returns, unskipped, early, failed,
    cancelled_sweep_resumes .empty .empty thing returns unskipped early⟩

end Bindings
