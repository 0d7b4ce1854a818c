import Bindings.Proofs.Generation.Mirror
import Bindings.Proofs.Request.Gathering
import Bindings.Proofs.Request.Record

/-!
# Sweeps and single candidates

A sweep that returns its report has done what its candidates do one after the other, each in an
outermost transaction of its own: the same becomes durable in the same order, the same failures
are recorded, and the same candidates are skipped or fail.
-/

namespace Bindings
open Bindings.Metadata

variable {env : Environment} {s t u v : State} {id : TransactionId}

/-! ## One candidate after the other -/

/-- Has one candidate produced in an outermost transaction. -/
def candidateAlone (links : Links) (candidate : Candidate) : Gen CandidateOutcome := do
  match ← Gen.attempt (inTransaction (links.candidate candidate)) with
  | .ok _ => return .produced
  | .error (.platformMismatch ..) => return .skipped candidate.1
  | .error (.structural failure) => return .failed candidate.1 failure.fault.message
  | .error other => throw other

/-- Has candidates produced one after the other, each in an outermost transaction. -/
def sweepAlone (candidates : List Candidate) : Gen (List CandidateOutcome) := do
  let links ← sessionLinks
  candidates.mapM (candidateAlone links)

theorem candidateAlone_eq (links : Links) (c : Candidate) (s : State) :
    candidateAlone links c env s = match inTransaction (links.candidate c) env s with
      | .ok _ t => .ok .produced t
      | .error e t => Gen.ended (e.conclusion c) t := by
  unfold candidateAlone
  rw [Gen.bind_eq, Gen.attempt_eq]
  cases inTransaction (links.candidate c) env s with
  | ok a t => rfl
  | error e t => cases e <;> rfl

/-! ## Keeping pace -/

/-- In the transaction of a sweep as much is gathered as has become durable without it. -/
structure Paces (id : TransactionId) (s u : State) : Prop extends Agrees s u where
  gathers : s.Gathers id
  rest : u.AtRest
  committed : u.ledger.committed =
    s.pending.foldl (fun table c => table.putNew c.1 c.2) s.ledger.committed

/-- At the beginning of a sweep nothing is gathered. -/
theorem Paces.begun (rest : s.AtRest) : Paces s.ledger.transactions.size s.begun s where
  failures := rfl
  expanding := rfl
  memory := rfl
  gathers := begun_gathers s
  rest := rest
  committed := by rw [begun_pending]; rfl

theorem Paces.calm (paces : Paces id s u) : s.Calm := by
  have same : u.analysis = s.analysis := congrArg Memory.analysis paces.memory
  exact paces.rest.calm.alike same.symm

/-- A savepoint of the sweep mirrors a new outermost transaction. -/
theorem Paces.mirrors (paces : Paces id s u) :
    Mirrors s.ledger.transactions.size u.ledger.transactions.size (s.split id) u.begun where
  failures := paces.failures
  expanding := paces.expanding
  memory := paces.memory
  inside := split_in s id
  opposite := begun_in u
  entry key := by
    rw [begun_entry paces.rest, paces.gathers.split_entry]
    simp only [State.entry, paces.rest.current]
    exact paces.gathers.entry_commit paces.failures paces.committed key
  pending := by rw [begun_pending, split_pending]

section
variable {depth : Nat} (c : Candidate)

/-- A candidate that has been produced keeps pace. -/
theorem Paces.produced (paces : Paces id s u)
    (ended : (Links.upTo depth).candidate c env (s.split id) = .ok () t)
    (alone : (Links.upTo depth).candidate c env u.begun = .ok () v)
    (mirrors : Mirrors s.ledger.transactions.size u.ledger.transactions.size t v) :
    ∃ l m, t.ledger.commit s.ledger.transactions.size = .ok l ∧
      v.ledger.commit u.ledger.transactions.size = .ok m ∧
      (State.AtRest { v with ledger := m, current := none } →
        Paces id { t with ledger := l, current := some id } { v with ledger := m, current := none }) := by
  have runs : Runs env ((Links.upTo depth).candidate c) _ := candidate_runs .cancelled depth c
  have outcome := (runs _ _ (split_in s id)).1
  have outcomeAlone := (runs _ _ (begun_in u)).1
  rw [ended] at outcome
  rw [alone] at outcomeAlone
  obtain ⟨more, produces⟩ := outcome
  obtain ⟨others, producesAlone⟩ := outcomeAlone
  obtain ⟨l, committed, gathers, pending, durable, failures⟩ := paces.gathers.fold produces
  obtain ⟨gathersAlone, pendingAlone⟩ := (begun_gathers u).produced producesAlone
  obtain ⟨m, committedAlone, failuresAlone, durableAlone⟩ := gathersAlone.commit
  have same : v.pending = more := by
    rw [mirrors.pending, produces.pending (split_in s id), split_pending, List.nil_append]
  refine ⟨l, m, committed, committedAlone, fun rest => {
    failures := ?_, expanding := mirrors.expanding, memory := mirrors.memory, gathers, rest
    committed := ?_ }⟩
  · change m.failures = l.failures
    rw [failuresAlone, producesAlone.failures, failures]
    exact paces.failures
  · change m.committed = List.foldl _ l.committed _
    rw [durableAlone, producesAlone.committed, same, pending, durable, List.foldl_append,
      ← paces.committed]
    rfl

/-- A candidate that fails keeps pace: nothing but failures is left of it. -/
theorem Paces.failed (paces : Paces id s u) (kept : Keeps (s.split id) t)
    (agrees : Agrees t v) {l : Ledger} (failures : l.failures = v.ledger.failures)
    (committed : l.committed = u.ledger.committed)
    (rest : State.AtRest { v with ledger := l, current := none }) :
    Paces id { t with
        ledger := t.ledger.rollback s.ledger.transactions.size, current := some id }
      { v with ledger := l, current := none } := by
  obtain ⟨gathers, pending, durable, recorded⟩ := paces.gathers.unfold kept rfl
  exact {
    failures := failures.trans (agrees.failures.trans recorded.symm)
    expanding := agrees.expanding
    memory := agrees.memory
    gathers, rest
    committed := by
      rw [pending, durable]
      exact committed.trans paces.committed }

/-- One candidate in a sweep keeps pace with the candidate alone. -/
theorem Paces.candidate (paces : Paces id s u) {outcome : CandidateOutcome}
    (swept : sweepCandidate (Links.upTo depth) c env s = .ok outcome t) :
    ∃ v, candidateAlone (Links.upTo depth) c env u = .ok outcome v ∧ Paces id t v := by
  have alike : EndAlike _ _ ((Links.upTo depth).candidate c env (s.split id))
      ((Links.upTo depth).candidate c env u.begun) :=
    candidate_matches (mirrored_linked depth) (fun _ _ => trivial) _ _ _ _ paces.mirrors
  have turns : Discipline.Turns _ u (inTransaction ((Links.upTo depth).candidate c)) :=
    inTransaction_turns paces.rest (safe_any paces.rest.calm) fun inside =>
      candidate_ends (upTo_sound (.any env) depth) inside fun _ _ => trivial
  have leads := turns.leads
  have ends : Discipline.Ends _ (s.split id) ((Links.upTo depth).candidate c) _ :=
    candidate_ends (upTo_sound (.any env) depth) ((safe_any paces.calm).split id) fun _ _ => trivial
  rw [Gen.Leads, inTransaction_eq paces.rest] at leads
  rw [sweepCandidate_eq, inSavepoint_eq paces.gathers.toIn] at swept
  rw [candidateAlone_eq, inTransaction_eq paces.rest]
  unfold Discipline.Ends Gen.Leads at ends
  cases ended : (Links.upTo depth).candidate c env (s.split id) with
  | ok a t' =>
    cases alone : (Links.upTo depth).candidate c env u.begun with
    | error e v' =>
      rw [ended, alone] at alike
      exact alike.elim
    | ok b v' =>
      rw [ended, alone] at alike
      obtain ⟨l, m, committed, committedAlone, keeps⟩ := paces.produced c ended alone alike.2
      simp only [ended, committed, EStateM.Result.ok.injEq] at swept
      simp only [alone, committedAlone] at leads ⊢
      obtain ⟨rfl, rfl⟩ := swept
      exact ⟨_, rfl, keeps leads.rest⟩
  | error e t' =>
    cases alone : (Links.upTo depth).candidate c env u.begun with
    | ok b v' =>
      rw [ended, alone] at alike
      exact alike.elim
    | error f v' =>
      rw [ended, alone] at alike
      obtain ⟨rfl, agrees⟩ := alike
      rw [ended] at ends
      simp only [ended] at swept
      simp only [alone] at leads ⊢
      have keeps := paces.failed ends.2 agrees (Ledger.rollback_failures _ _) leads.2 leads.1.rest
      cases concluded : e.conclusion c with
      | error other =>
        rw [concluded] at swept
        cases swept
      | ok found =>
        rw [concluded] at swept
        obtain ⟨rfl, rfl⟩ := EStateM.Result.ok.inj swept
        exact ⟨_, rfl, keeps⟩

/-- The candidates of a sweep keep pace with the candidates alone. -/
theorem Paces.candidates (cancel : Cancellation) (candidates : List Candidate) (index : Nat)
    (paces : Paces id s u) {outcomes : List CandidateOutcome}
    (swept : sweepFrom (Links.upTo depth) cancel index candidates env s = .ok outcomes t) :
    ∃ v, candidates.mapM (candidateAlone (Links.upTo depth)) env u = .ok outcomes v ∧
      Paces id t v := by
  induction candidates generalizing index s u outcomes with
  | nil =>
    obtain ⟨rfl, rfl⟩ := Gen.pure_ok swept
    rw [List.mapM_nil]
    exact ⟨u, rfl, paces⟩
  | cons c rest ih =>
    unfold sweepFrom at swept
    obtain ⟨_, r, checked, running⟩ := Gen.bind_ok swept
    obtain ⟨rfl, _⟩ := (checkCancelled_fixed cancel index).everywhere checked
    obtain ⟨outcome, s', first, following⟩ := Gen.bind_ok running
    obtain ⟨others, t', later, ending⟩ := Gen.bind_ok following
    obtain ⟨rfl, rfl⟩ := Gen.pure_ok ending
    obtain ⟨u', alone, paces'⟩ := paces.candidate c first
    obtain ⟨v, aloneLater, pacesLater⟩ := ih (index + 1) paces' later
    refine ⟨v, ?_, pacesLater⟩
    rw [List.mapM_cons, Gen.bind_eq, alone]
    change (List.mapM _ rest >>= _ : Gen _) env u' = _
    rw [Gen.bind_eq, aloneLater]
    rfl

end

/-! ## Sweeps -/

/-- What is counted is done as it is without counting. -/
theorem counted_ok {α : Type} {body : Gen α} {a : α × Int}
    (ended : counted body env s = .ok a t) : body env s = .ok a.1 t := by
  have counts : ∀ {n : Nat} {s u : State}, pendingCount env s = .ok n u → u = s := by
    intro n s u counted
    rw [pendingCount_eq] at counted
    cases current : s.current with
    | none => rw [current] at counted; cases counted
    | some id => rw [current] at counted; cases counted; rfl
  unfold counted at ended
  obtain ⟨_, u, first, running⟩ := Gen.bind_ok ended
  obtain rfl := counts first
  obtain ⟨b, v, ran, ending⟩ := Gen.bind_ok running
  obtain ⟨_, w, last, finished⟩ := Gen.bind_ok ending
  obtain rfl := counts last
  obtain ⟨rfl, rfl⟩ := Gen.pure_ok finished
  exact ran

/-- A sweep that returns a report leaves what its candidates leave one after the other, each in an
    outermost transaction of its own, and tells of the same candidates. -/
theorem sweep_apart (env : Environment) (s : State) (rest : s.AtRest) (candidates : List Candidate)
    (cancel : Cancellation) (report : SweepReport) (t : State)
    (returns : sweep candidates cancel env s = .ok report t) :
    ∃ outcomes u, sweepAlone candidates env s = .ok outcomes u ∧
      u.ledger.committed = t.ledger.committed ∧ Agrees t u ∧
      report.skippedPlatform = skippedOf outcomes ∧ report.failures = failuresOf outcomes := by
  unfold sweep at returns
  obtain ⟨_, _, read, running⟩ := Gen.bind_ok returns
  obtain ⟨rfl, rfl⟩ := EStateM.Result.ok.inj read
  obtain ⟨⟨outcomes, committed⟩, r, ran, ending⟩ := Gen.bind_ok running
  obtain ⟨rfl, rfl⟩ := Gen.pure_ok ending
  rw [inTransaction_eq rest] at ran
  cases swept : counted (sweepFrom (Links.upTo env.depth) cancel 0 candidates) env s.begun with
  | error e v =>
    rw [swept] at ran
    cases ran
  | ok found v =>
    obtain ⟨u, alone, paces⟩ := (Paces.begun rest).candidates cancel candidates 0 (counted_ok swept)
    obtain ⟨l, closed, failures, durable⟩ := paces.gathers.commit
    simp only [swept, closed, EStateM.Result.ok.injEq] at ran
    obtain ⟨rfl, rfl⟩ := ran
    refine ⟨_, u, ?_, paces.committed.trans durable.symm, ?_, rfl, rfl⟩
    · rw [sweepAlone, Gen.bind_eq, sessionLinks_eq]
      exact alone
    · exact ⟨paces.failures.trans failures.symm, paces.expanding, paces.memory⟩

/-- A struct that holds an unknown type, functions that need it and another struct, and a struct of
    another platform. -/
def mixedDocument : Markup.Element :=
  oneNamespace "Ns" [
    ⟨"struct", [("name", "POINT")], "", [⟨"field", [("name", "x"), ("type", "i4")], "", []⟩]⟩,
    ⟨"struct", [("name", "BROKEN")], "",
      [⟨"field", [("name", "at"), ("type", "POINT")], "", []⟩,
        ⟨"field", [("name", "lost"), ("type", "NOWHERE")], "", []⟩]⟩,
    ⟨"struct", [("name", "CONTEXT"), ("arch", "arm64")], "", []⟩,
    ⟨"function", [("name", "Break"), ("module", "thing")], "",
      [⟨"param", [("name", "broken"), ("type", "BROKEN*")], "", []⟩]⟩,
    ⟨"function", [("name", "Draw"), ("module", "thing")], "",
      [⟨"param", [("name", "point"), ("type", "POINT*")], "", []⟩]⟩]

/-- The definitions of some full names as candidates. -/
def Environment.candidatesOf (env : Environment) (names : List String) : List Candidate :=
  names.map fun name => (name, env.index.lookup name)

/-- A sweep in which candidates fail and are skipped leaves what the candidates leave alone. -/
theorem sweep_apart_mixed :
    let env := Environment.reading [mixedDocument]
    let candidates := env.candidatesOf ["Ns.Draw", "Ns.Break", "Ns.CONTEXT", "Ns.BROKEN", "Ns.POINT"]
    ∃ report t, sweep candidates none env {} = .ok report t ∧
      report.skippedPlatform = ["Ns.CONTEXT"] ∧
      report.failures.map (·.1) = ["Ns.Break", "Ns.BROKEN"] ∧
      State.AtRest {} ∧
      ∃ outcomes u, sweepAlone candidates env {} = .ok outcomes u ∧
        u.ledger.committed = t.ledger.committed ∧ Agrees t u ∧
        report.skippedPlatform = skippedOf outcomes ∧ report.failures = failuresOf outcomes := by
  intro env candidates
  have swept : (match sweep candidates none env {} with
      | .ok report _ => decide (report.skippedPlatform = ["Ns.CONTEXT"] ∧
          report.failures.map (·.1) = ["Ns.Break", "Ns.BROKEN"])
      | .error .. => false) = true := by decide +kernel
  cases ended : sweep candidates none env {} with
  | error e t =>
    rw [ended] at swept
    cases swept
  | ok report t =>
    rw [ended] at swept
    have swept := of_decide_eq_true swept
    exact ⟨report, t, rfl, swept.1, swept.2, .empty, sweep_apart _ {} .empty _ none report t ended⟩

end Bindings
