import Bindings.Proofs.Request.Apart
import Bindings.Proofs.Request.Order

/-!
# Reports of sweeps

A sweep goes on after each candidate that has ended in its savepoint, with what the candidate has
completed or with nothing of it, and returns its report once all candidates have ended. What it has
found known and recorded is known and recorded after it.
-/

namespace Bindings
open Bindings.Metadata Bindings.Text

variable {env : Environment} {s t u v x : State} {id : TransactionId} {c : Candidate}
  {outcome : CandidateOutcome} {outcomes : List CandidateOutcome} {candidates : List Candidate}
  {cancel : Cancellation} {depth index : Nat}

/-! ## Running a sweep -/

theorem sweepFrom_cons (links : Links) (cancel : Cancellation) (index : Nat) (c : Candidate)
    (rest : List Candidate) (s : State) :
    sweepFrom links cancel index (c :: rest) env s =
      if cancel.any (· ≤ index) then .error .cancelled s
      else match sweepCandidate links c env s with
        | .error e t => .error e t
        | .ok outcome t => match sweepFrom links cancel (index + 1) rest env t with
          | .error e u => .error e u
          | .ok outcomes u => .ok (outcome :: outcomes) u := by
  rw [sweepFrom, Gen.bind_eq, checkCancelled_eq]
  by_cases stopped : cancel.any (· ≤ index)
  · rw [if_pos stopped, if_pos stopped]
  · rw [if_neg stopped, if_neg stopped]
    dsimp only
    rw [Gen.bind_eq]
    cases sweepCandidate links c env s with
    | error e t => rfl
    | ok outcome t =>
      dsimp only
      rw [Gen.bind_eq]
      cases sweepFrom links cancel (index + 1) rest env t <;> rfl

/-- A sweep that has ended was not stopped, and each of its candidates has an outcome. -/
theorem sweepFrom_cons_ok {links : Links} {rest : List Candidate}
    (swept : sweepFrom links cancel index (c :: rest) env s = .ok outcomes t) :
    ¬ cancel.any (· ≤ index) ∧ ∃ outcome u others, sweepCandidate links c env s = .ok outcome u ∧
      sweepFrom links cancel (index + 1) rest env u = .ok others t ∧ outcomes = outcome :: others := by
  rw [sweepFrom_cons] at swept
  by_cases stopped : cancel.any (· ≤ index)
  · rw [if_pos stopped] at swept
    cases swept
  · refine ⟨stopped, ?_⟩
    rw [if_neg stopped] at swept
    cases first : sweepCandidate links c env s with
    | error e u =>
      rw [first] at swept
      cases swept
    | ok outcome u =>
      cases later : sweepFrom links cancel (index + 1) rest env u with
      | error e v =>
        simp only [first, later] at swept
        cases swept
      | ok others v =>
        simp only [first, later, EStateM.Result.ok.injEq] at swept
        obtain ⟨rfl, rfl⟩ := swept
        exact ⟨outcome, u, others, rfl, later, rfl⟩

/-- The report on the outcomes of candidates. -/
def SweepReport.on (candidates : List Candidate) (outcomes : List CandidateOutcome) (committed : Int) :
    SweepReport where
  candidateCount := candidates.length
  committedCount := committed
  skippedPlatform := skippedOf outcomes
  failures := failuresOf outcomes

/-- A computation in a transaction of its own, with what it has completed counted. -/
theorem counted_transaction_eq {α : Type} (rest : s.AtRest) {body : Gen α}
    (stays : ∀ a t, body env s.begun = .ok a t → t.current = some s.ledger.transactions.size) :
    inTransaction (counted body) env s = match body env s.begun with
      | .error e t => .error e
          { t with ledger := t.ledger.rollback s.ledger.transactions.size, current := none }
      | .ok a t => match t.ledger.commit s.ledger.transactions.size with
        | .error e => .error (.ledger e) { t with current := none }
        | .ok l => .ok (a, t.pending.length) { t with ledger := l, current := none } := by
  have nothing : (s.begun.ledger.pendingOf s.ledger.transactions.size).length = 0 :=
    congrArg List.length (begun_pending s)
  rw [inTransaction_eq rest, counted_eq rfl stays]
  cases ended : body env s.begun with
  | error e t => rfl
  | ok a t =>
    have pending : t.pending = t.ledger.pendingOf s.ledger.transactions.size := by
      rw [State.pending, stays a t ended]
    dsimp only
    cases t.ledger.commit s.ledger.transactions.size with
    | error e => rfl
    | ok l =>
      rw [pending, nothing]
      rfl

/-- A sweep in its transaction. -/
theorem sweep_eq (rest : s.AtRest) (candidates : List Candidate) (cancel : Cancellation) :
    sweep candidates cancel env s =
      match sweepFrom (Links.upTo env.depth) cancel 0 candidates env s.begun with
      | .error e t => .error e
          { t with ledger := t.ledger.rollback s.ledger.transactions.size, current := none }
      | .ok outcomes t => match t.ledger.commit s.ledger.transactions.size with
        | .error e => .error (.ledger e) { t with current := none }
        | .ok l => .ok (.on candidates outcomes t.pending.length)
            { t with ledger := l, current := none } := by
  have ends : Discipline.Ends _ s.begun (sweepFrom (Links.upTo env.depth) cancel 0 candidates) _ :=
    sweepFrom_ends (upTo_sound (.any env) env.depth) cancel 0 (fun _ _ _ _ => trivial)
      (safe_any rest.calm).begun
  have stays : ∀ outcomes t, sweepFrom (Links.upTo env.depth) cancel 0 candidates env s.begun =
      .ok outcomes t → t.current = some s.ledger.transactions.size := by
    intro outcomes t swept
    rw [Discipline.Ends, Gen.Leads, swept] at ends
    exact ends.2.1.current
  unfold sweep
  rw [Gen.bind_eq, sessionLinks_eq]
  dsimp only
  rw [Gen.bind_eq, counted_transaction_eq rest stays]
  cases sweepFrom (Links.upTo env.depth) cancel 0 candidates env s.begun with
  | error e t => rfl
  | ok outcomes t =>
    dsimp only
    cases t.ledger.commit s.ledger.transactions.size <;> rfl

/-! ## One candidate -/

/-- A sweep goes on after a candidate that has ended in a savepoint: what the candidate has completed is
    added to what is gathered, and what it has recorded and remembers is kept. -/
structure Rejoins (id : TransactionId) (s ended t : State) (more : List Completion) : Prop where
  poised : Poised id t
  pending : t.pending = s.pending ++ more
  committed : t.ledger.committed = s.ledger.committed
  failures : t.ledger.failures = ended.ledger.failures
  expanding : t.expanding = s.expanding
  memory : t.memory = ended.memory

/-- A candidate that has done nothing in its savepoint has recorded and remembers nothing. -/
theorem Rejoins.unsplit {more : List Completion} (rejoins : Rejoins id s (s.split id) t more) :
    Rejoins id s s t more where
  poised := rejoins.poised
  pending := rejoins.pending
  committed := rejoins.committed
  failures := rejoins.failures
  expanding := rejoins.expanding
  memory := rejoins.memory

/-- A candidate that is produced in its savepoint is produced in the sweep. -/
theorem Poised.produces (poised : Poised id s)
    (ended : (Links.upTo depth).candidate c env (s.split id) = .ok () u) :
    ∃ t, sweepCandidate (Links.upTo depth) c env s = .ok .produced t ∧
      Rejoins id s u t u.pending ∧ u.ledger.failures = s.ledger.failures ∧
      ∀ key, t.entry key = u.entry key := by
  have runs : Runs env ((Links.upTo depth).candidate c) _ := candidate_runs .cancelled depth c
  have outcome := (runs _ _ (split_in s id)).1
  have ends : Discipline.Ends _ (s.split id) ((Links.upTo depth).candidate c) _ :=
    candidate_ends (upTo_sound (.any env) depth) ((safe_any poised.calm).split id) fun _ _ => trivial
  rw [ended] at outcome
  rw [Discipline.Ends, Gen.Leads, ended] at ends
  obtain ⟨more, produces⟩ := outcome
  have added : u.pending = more := by
    rw [produces.pending (split_in s id), split_pending, List.nil_append]
  obtain ⟨l, closed, gathers, pending, committed, failures⟩ := poised.toGathers.fold produces
  have after := (poised.candidate env .cancelled depth c).2
  have swept : sweepCandidate (Links.upTo depth) c env s =
      .ok .produced { u with ledger := l, current := some id } := by
    rw [sweepCandidate_eq, inSavepoint_eq poised.toIn, ended]
    simp only [closed]
  rw [swept] at after
  have before : u.ledger.failures = s.ledger.failures := produces.failures
  have rejoins : Rejoins id s u { u with ledger := l, current := some id } u.pending :=
    ⟨after, added ▸ pending, committed, failures.trans before.symm, ends.2.1.expanding, rfl⟩
  exact ⟨_, swept, rejoins, before,
    poised.toGathers.fold_entry produces gathers pending committed failures⟩

/-- A candidate that fails in its savepoint leaves nothing in the sweep but what it has recorded. -/
theorem Poised.fails (poised : Poised id s) {e : Failure}
    (ended : (Links.upTo depth).candidate c env (s.split id) = .error e u)
    (concluded : e.conclusion c = .ok outcome) :
    ∃ t, sweepCandidate (Links.upTo depth) c env s = .ok outcome t ∧ Rejoins id s u t [] := by
  have ends : Discipline.Ends _ (s.split id) ((Links.upTo depth).candidate c) _ :=
    candidate_ends (upTo_sound (.any env) depth) ((safe_any poised.calm).split id) fun _ _ => trivial
  rw [Discipline.Ends, Gen.Leads, ended] at ends
  obtain ⟨_, pending, committed, failures⟩ := poised.toGathers.unfold ends.2 rfl
  have after := (poised.candidate env .cancelled depth c).2
  have swept : sweepCandidate (Links.upTo depth) c env s = .ok outcome { u with
      ledger := u.ledger.rollback s.ledger.transactions.size, current := some id } := by
    rw [sweepCandidate_eq, inSavepoint_eq poised.toIn, ended]
    simp only [concluded]
    rfl
  rw [swept] at after
  exact ⟨_, swept, after, by rw [pending, List.append_nil], committed, failures, ends.2.expanding, rfl⟩

/-- A candidate of a sweep has ended in its savepoint, and the sweep goes on after it. -/
theorem Poised.candidate_cases (poised : Poised id s)
    (swept : sweepCandidate (Links.upTo depth) c env s = .ok outcome t) :
    (∃ u, (Links.upTo depth).candidate c env (s.split id) = .ok () u ∧ outcome = .produced ∧
      Rejoins id s u t u.pending ∧ u.ledger.failures = s.ledger.failures ∧
      ∀ key, t.entry key = u.entry key) ∨
    ∃ e u, (Links.upTo depth).candidate c env (s.split id) = .error e u ∧
      e.conclusion c = .ok outcome ∧ Rejoins id s u t [] := by
  cases ended : (Links.upTo depth).candidate c env (s.split id) with
  | ok a u =>
    obtain ⟨t', produced, rejoins⟩ := poised.produces ended
    obtain ⟨rfl, rfl⟩ := EStateM.Result.ok.inj (produced.symm.trans swept)
    exact .inl ⟨u, rfl, rfl, rejoins⟩
  | error e u =>
    cases concluded : e.conclusion c with
    | error other =>
      rw [sweepCandidate_eq, inSavepoint_eq poised.toIn, ended] at swept
      simp only [concluded] at swept
      cases swept
    | ok found =>
      obtain ⟨t', failed, rejoins⟩ := poised.fails ended concluded
      obtain ⟨rfl, rfl⟩ := EStateM.Result.ok.inj (failed.symm.trans swept)
      exact .inr ⟨e, u, rfl, concluded, rejoins⟩

theorem Poised.after (poised : Poised id s)
    (swept : sweepCandidate (Links.upTo depth) c env s = .ok outcome t) : Poised id t := by
  rcases poised.candidate_cases swept with ⟨_, _, _, rejoins, _⟩ | ⟨_, _, _, _, rejoins⟩
  · exact rejoins.poised
  · exact rejoins.poised

/-! ## Many candidates -/

theorem Poised.sound (poised : Poised id s) : (Discipline.any env).Sound s where
  toSafe := safe_any poised.calm
  distinct other x current found := by
    obtain rfl := Option.some.inj (poised.current.symm.trans current)
    obtain ⟨y, foundY, _, distinct, _⟩ := poised.notes
    obtain rfl := Option.some.inj (found.symm.trans foundY)
    exact distinct

/-- What a part of a sweep finds known and recorded is known and recorded after it. -/
theorem Poised.grows (poised : Poised id s)
    (swept : sweepFrom (Links.upTo depth) cancel index candidates env s = .ok outcomes t) :
    Poised id t ∧ Extends s t := by
  have ends := (poised.sweep env .cancelled depth cancel index candidates).2
  have grown : Discipline.Ends _ s (sweepFrom (Links.upTo depth) cancel index candidates) _ :=
    sweepFrom_ends (upTo_sound (.any env) depth) cancel index (fun _ _ _ _ => trivial) poised.sound
  rw [swept] at ends
  rw [Discipline.Ends, Gen.Leads, swept] at grown
  exact ⟨ends, grown.2.1.toExtends⟩

/-- Where as much has been completed and is durable, as much is known of what has failed alike. -/
theorem State.Layered.entry_eq (layered : s.Layered) (other : t.Layered) (pending : t.pending = s.pending)
    (committed : t.ledger.committed = s.ledger.committed) {key : EntityKey}
    (failed : t.ledger.failures.get? key = s.ledger.failures.get? key) : t.entry key = s.entry key := by
  rw [layered, other, pending, Ledger.entry, Ledger.entry, committed, failed]

/-! ## Sweeps -/

/-- The state at rest that a transaction leaves once it is committed. -/
structure Closes (s t : State) : Prop where
  rest : t.AtRest
  recalls : t.Recalls
  entry : ∀ key, t.entry key = s.entry key
  failures : t.ledger.failures = s.ledger.failures
  committed : t.ledger.committed =
    s.pending.foldl (fun table c => table.putNew c.1 c.2) s.ledger.committed

/-- A sweep whose candidates have all ended returns its report. -/
theorem sweep_closes (rest : s.AtRest) (recalls : s.Recalls)
    (swept : sweepFrom (Links.upTo env.depth) cancel 0 candidates env s.begun = .ok outcomes u) :
    ∃ t, sweep candidates cancel env s = .ok (.on candidates outcomes u.pending.length) t ∧
      Poised s.ledger.transactions.size u ∧ Closes u t := by
  have poised := ((Poised.begun rest recalls).grows swept).1
  have ends : Discipline.Ends _ s.begun (sweepFrom (Links.upTo env.depth) cancel 0 candidates) _ :=
    sweepFrom_ends (upTo_sound (.any env) env.depth) cancel 0 (fun _ _ _ _ => trivial)
      (safe_any rest.calm).begun
  rw [Discipline.Ends, Gen.Leads, swept] at ends
  obtain ⟨sound, grown, _⟩ := ends
  obtain ⟨l, closed, failures, committed⟩ := poised.toGathers.commit
  obtain ⟨l', closed', advances⟩ := grown.commit rest sound
  obtain rfl := Except.ok.inj (closed.symm.trans closed')
  refine ⟨{ u with ledger := l, current := none }, ?_, poised, advances.rest, ?_, fun key => ?_,
    failures, committed⟩
  · rw [sweep_eq rest, swept]
    simp only [closed]
  · exact advances.rest.recalls_iff.mpr
      ((poised.layered.recalls_iff.mp poised.recalls).commit failures committed)
  · exact poised.toGathers.entry_commit failures committed key

/-- All candidates of a sweep that has returned its report have ended. -/
theorem sweep_returned {report : SweepReport} (rest : s.AtRest) (recalls : s.Recalls)
    (returns : sweep candidates cancel env s = .ok report t) :
    ∃ outcomes u, sweepFrom (Links.upTo env.depth) cancel 0 candidates env s.begun = .ok outcomes u ∧
      report = .on candidates outcomes u.pending.length ∧ Poised s.ledger.transactions.size u ∧
      Closes u t := by
  cases swept : sweepFrom (Links.upTo env.depth) cancel 0 candidates env s.begun with
  | error e u =>
    rw [sweep_eq rest, swept] at returns
    cases returns
  | ok outcomes u =>
    obtain ⟨t', returned, poised, closes⟩ := sweep_closes rest recalls swept
    obtain ⟨rfl, rfl⟩ := EStateM.Result.ok.inj (returned.symm.trans returns)
    exact ⟨outcomes, u, rfl, rfl, poised, closes⟩

/-! ## Requests that report -/

/-- A request for the candidates of a sweep. -/
inductive SweepRequest
  | everyIn (space : String)
  | ofModule (module : String)
  | constants (start : String)
  | all

/-- Runs a request for the candidates of a sweep. -/
def SweepRequest.run (cancel : Cancellation) : SweepRequest → Gen SweepReport
  | everyIn space => requestNamespace space cancel
  | ofModule module => requestModule module cancel
  | constants start => requestPrefix start cancel
  | all => requestAll cancel

/-- The candidates of a request for them. -/
def SweepRequest.candidatesIn (env : Environment) : SweepRequest → List Candidate
  | everyIn space => ((env.index.namespaces.get? space).map (namespaceCandidates env.options space)).getD []
  | ofModule module => moduleCandidates env.options (env.index.functionsInModule module)
  | constants start =>
    if withoutStars start = "" then []
    else byFullName ((env.index.constantsWithPrefix (withoutStars start)).map .constant)
  | all => allCandidates env

/-- A request for the candidates of a sweep sweeps them, or has none and always fails at once. -/
theorem SweepRequest.run_candidates (env : Environment) (r : SweepRequest) :
    (r.candidatesIn env = [] ∧ ∃ e, ∀ cancel s, r.run cancel env s = .error e s) ∨
      ∀ cancel s, r.run cancel env s = sweep (r.candidatesIn env) cancel env s := by
  cases r with
  | everyIn space =>
    simp only [SweepRequest.run, SweepRequest.candidatesIn, requestNamespace, Gen.read_bind]
    cases env.index.namespaces.get? space with
    | none => exact .inl ⟨rfl, _, fun _ _ => rfl⟩
    | some members => exact .inr fun _ _ => rfl
  | ofModule module =>
    simp only [SweepRequest.run, SweepRequest.candidatesIn, requestModule, Gen.read_bind]
    cases env.index.functionsInModule module with
    | nil => exact .inl ⟨by simp [moduleCandidates, byFullName, inKeyOrder], _, fun _ _ => rfl⟩
    | cons f functions => exact .inr fun _ _ => rfl
  | constants start =>
    simp only [SweepRequest.run, SweepRequest.candidatesIn, requestPrefix]
    by_cases nothing : withoutStars start = ""
    · simp only [if_pos nothing]
      exact .inl ⟨trivial, _, fun _ _ => rfl⟩
    · simp only [if_neg nothing, Gen.read_bind]
      cases env.index.constantsWithPrefix (withoutStars start) with
      | nil => exact .inl ⟨by simp [byFullName, inKeyOrder], _, fun _ _ => rfl⟩
      | cons c constants => exact .inr fun _ _ => rfl
  | all => exact .inr fun _ _ => rfl

/-- A request for the candidates of a sweep always fails at once, or sweeps the same candidates in every
    state. -/
theorem SweepRequest.run_sweeps (env : Environment) (r : SweepRequest) :
    (∃ e, ∀ cancel s, r.run cancel env s = .error e s) ∨
      ∃ candidates, ∀ cancel s, r.run cancel env s = sweep candidates cancel env s :=
  (r.run_candidates env).imp And.right fun sweeps => ⟨_, sweeps⟩

/-- Entries that are in the order of their keys are not moved. -/
theorem inKeyOrder_sorted {ν : Type} {table : Table String ν}
    (sorted : table.entries.Pairwise fun a b => !(b.1 < a.1)) : inKeyOrder table = table.entries :=
  List.mergeSort_of_pairwise sorted

/-- The candidates of a module whose functions are in the order of their names. -/
theorem candidatesIn_sorted {module : String} {groups : List Candidate}
    (grouped : (((env.index.functionsInModule module).map Definition.function).foldl
      (fun groups d => groups.push d.full d) ({} : Table String (List Definition))).entries = groups)
    (sorted : groups.Pairwise fun a b => !(b.1 < a.1)) :
    (SweepRequest.ofModule module).candidatesIn env = groups.filter fun (full, _) =>
      !isSuppressedNarrow env.options (lastSegment full) (groups.map fun (full, _) => lastSegment full) := by
  subst grouped
  have candidates : byFullName ((env.index.functionsInModule module).map .function) = _ :=
    inKeyOrder_sorted sorted
  simp only [SweepRequest.candidatesIn, moduleCandidates, candidates]

/-- A sweep of a module whose functions are in the order of their names. -/
theorem requestModule_sorted {module : String} {groups : List Candidate}
    (filled : (env.index.functionsInModule module).isEmpty = false)
    (grouped : (((env.index.functionsInModule module).map Definition.function).foldl
      (fun groups d => groups.push d.full d) ({} : Table String (List Definition))).entries = groups)
    (sorted : groups.Pairwise fun a b => !(b.1 < a.1)) :
    requestModule module cancel env s = sweep (groups.filter fun (full, _) =>
      !isSuppressedNarrow env.options (lastSegment full) (groups.map fun (full, _) => lastSegment full))
        cancel env s := by
  rw [← candidatesIn_sorted grouped sorted, SweepRequest.candidatesIn]
  unfold requestModule
  rw [Gen.read_bind]
  cases listed : env.index.functionsInModule module with
  | nil =>
    rw [listed] at filled
    cases filled
  | cons f functions => rfl

/-- Whether a computation gives a result that has a property. -/
def Gen.gives {α : Type} (env : Environment) (s : State) (x : Gen α) (property : α → Bool) : Bool :=
  match x env s with
  | .ok a _ => property a
  | .error .. => false

theorem Gen.gives_ok {α : Type} {x : Gen α} {property : α → Bool}
    (given : Gen.gives env s x property = true) : ∃ a t, x env s = .ok a t ∧ property a = true := by
  unfold Gen.gives at given
  cases ended : x env s with
  | error e t =>
    rw [ended] at given
    cases given
  | ok a t =>
    rw [ended] at given
    exact ⟨a, t, rfl, given⟩

end Bindings
