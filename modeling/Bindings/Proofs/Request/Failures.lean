import Bindings.Proofs.Request.Work

/-!
# Failures that are remembered

Between requests no entity is both durable and failed, and a failure that is recorded is one of
an entity that has failed in the same way. What has failed fails again without being produced,
and a request records a structural failure for all entities whose production it went through,
and nothing else.
-/

namespace Bindings
open Bindings.Metadata

variable {env : Environment} {α β : Type} {s t u : State} {id : TransactionId}

/-! ## What has failed -/

/-- Each failure is one of the entity that it began with, and what has failed is neither durable
    nor among some completions. -/
structure Ledger.Recalls (l : Ledger) (pending : List Completion) : Prop where
  attributed : l.Attributed
  apart : ∀ key failure, l.failures.get? key = some failure →
    Table.lookupIn key pending = none ∧ l.committed.get? key = none

theorem Ledger.Recalls.alike {l m : Ledger} {pending : List Completion} (recalls : l.Recalls pending)
    (failures : m.failures = l.failures) (committed : m.committed = l.committed) :
    m.Recalls pending where
  attributed := by
    rw [Ledger.Attributed, failures]
    exact recalls.attributed
  apart key failure found := by
    rw [committed]
    exact recalls.apart key failure (failures ▸ found)

theorem Ledger.Recalls.durable {l : Ledger} {pending : List Completion} (recalls : l.Recalls pending) :
    l.Recalls [] where
  attributed := recalls.attributed
  apart key failure found := ⟨rfl, (recalls.apart key failure found).2⟩

/-- Completions that have not failed become durable. -/
theorem Ledger.Recalls.commit {l m : Ledger} {pending : List Completion} (recalls : l.Recalls pending)
    (failures : m.failures = l.failures)
    (committed : m.committed = pending.foldl (fun table c => table.putNew c.1 c.2) l.committed) :
    m.Recalls [] where
  attributed := by
    rw [Ledger.Attributed, failures]
    exact recalls.attributed
  apart key failure found := by
    obtain ⟨pending, durable⟩ := recalls.apart key failure (failures ▸ found)
    rw [committed, Table.get?_foldl_putNew, pending, durable]
    exact ⟨rfl, rfl⟩

/-- What is known of an entity is what has been completed, and else the durable record. -/
def State.Layered (s : State) : Prop :=
  ∀ key, s.entry key = ((Table.lookupIn key s.pending).map .committed).getD (s.ledger.entry key)

/-- Exactly what has failed is known to have failed if nothing of it has been completed. -/
theorem State.Layered.recalls_iff (layered : s.Layered) :
    s.Recalls ↔ s.ledger.Recalls s.pending := by
  constructor
  · intro recalls
    refine ⟨recalls.attributed, fun key failure found => ?_⟩
    have failed := (recalls.told key failure).mpr found
    rw [layered] at failed
    cases completed : Table.lookupIn key s.pending with
    | some declarations =>
      rw [completed] at failed
      cases failed
    | none =>
      rw [completed] at failed
      refine ⟨rfl, ?_⟩
      cases durable : s.ledger.committed.get? key with
      | none => rfl
      | some declarations => simp [Ledger.entry, durable] at failed
  · intro recalls
    refine ⟨fun key failure => ?_, recalls.attributed⟩
    rw [layered]
    cases found : s.ledger.failures.get? key with
    | some other =>
      obtain ⟨completed, durable⟩ := recalls.apart key other found
      simp [completed, Ledger.entry, durable, found]
    | none =>
      refine ⟨fun failed => ?_, fun found => by cases found⟩
      cases completed : Table.lookupIn key s.pending <;>
        cases durable : s.ledger.committed.get? key <;>
          simp [completed, Ledger.entry, durable, found] at failed

theorem State.AtRest.layered (rest : s.AtRest) : s.Layered := by
  intro key
  simp only [State.entry, State.pending, rest.current]
  rfl

theorem State.Gathers.layered (gathers : s.Gathers id) : s.Layered := gathers.entry

theorem State.AtRest.recalls_iff (rest : s.AtRest) : s.Recalls ↔ s.ledger.Recalls [] := by
  have nothing : s.pending = [] := by simp [State.pending, rest.current]
  rw [rest.layered.recalls_iff, nothing]

/-- In a new session nothing has failed. -/
theorem State.Recalls.empty : State.Recalls {} := by
  refine State.AtRest.empty.recalls_iff.mpr ⟨?_, ?_⟩
  · intro key failure found
    cases found
  · intro key failure found
    cases found

theorem State.Recalls.alike (recalls : s.Recalls) (entry : ∀ key, t.entry key = s.entry key)
    (failures : t.ledger.failures = s.ledger.failures) : t.Recalls where
  told key failure := by rw [entry, failures, recalls.told]
  attributed := by
    rw [Ledger.Attributed, failures]
    exact recalls.attributed

/-! ## Failures in a transaction -/

/-- What has failed in a gathering transaction has not been completed in it. -/
theorem Fails.recalls (gathers : s.Gathers id) (recalls : s.Recalls) {path : List EntityKey}
    {failure : StructuralFailure} (fails : Fails s t path failure)
    (committed : t.ledger.committed = s.ledger.committed) : t.ledger.Recalls s.pending := by
  have before := gathers.layered.recalls_iff.mp recalls
  have origin : ∀ key other, t.ledger.failures.get? key = some other →
      s.ledger.failures.get? key = some other ∨ key ∈ path ∧ failure = other := by
    intro key other found
    rw [Table.get?, fails.failures, Table.lookupIn_append, Table.lookupIn_map,
      Option.or_eq_some_iff] at found
    rcases found with old | ⟨_, new⟩
    · exact .inl old
    · split at new
      · next member => exact .inr ⟨member, Option.some.inj new⟩
      · cases new
  refine ⟨fun key other found => ?_, fun key other found => ?_⟩
  · rcases origin key other found with old | ⟨member, rfl⟩
    · obtain ⟨root, owned, there⟩ := before.attributed key other old
      exact ⟨root, owned, Table.get?_of_prefix ⟨_, fails.failures.symm⟩ there⟩
    · rcases fails.begins with ⟨_, rfl⟩ | begins
      · cases member
      · exact begins
  · rw [committed]
    rcases origin key other found with old | ⟨member, rfl⟩
    · exact before.apart key other old
    · exact gathers.notStarted (fails.fresh key member)

/-- What a computation that fails has recorded, seen from a state that knows the same. -/
theorem Outcome.recalls (gathers : s.Gathers id) (recalls : s.Recalls) {outer : TransactionId}
    {e : Failure} (outcome : Outcome outer u (.error e t : EStateM.Result Failure State α))
    (entry : ∀ key, u.entry key = s.entry key) (failures : u.ledger.failures = s.ledger.failures)
    (committed : t.ledger.committed = s.ledger.committed) : t.ledger.Recalls s.pending := by
  have before := gathers.layered.recalls_iff.mp recalls
  cases e with
  | structural failure =>
    obtain ⟨path, fails⟩ := outcome (recalls.alike entry failures)
    have seen : Fails s t path failure := {
      failures := by rw [fails.failures, failures]
      distinct := fails.distinct
      fresh := fun key member => (entry key).symm.trans (fails.fresh key member)
      begins := fails.begins }
    exact seen.recalls gathers recalls committed
  | platformMismatch | input | cancelled | ledger | badLimit | depthExceeded =>
    exact before.alike (Eq.trans outcome failures) committed

/-! ## Sweeps -/

/-- The transaction of a sweep between two candidates. -/
structure Poised (id : TransactionId) (s : State) : Prop extends s.Gathers id where
  recalls : s.Recalls
  calm : s.Calm

theorem Poised.begun (rest : s.AtRest) (recalls : s.Recalls) :
    Poised s.ledger.transactions.size s.begun where
  toGathers := begun_gathers s
  recalls := recalls.alike (begun_entry rest) rfl
  calm := rest.calm.alike rfl

/-- How a part of a sweep ends: not with a structural failure. -/
def Poised.Ends (id : TransactionId) : EStateM.Result Failure State α → Prop
  | .ok _ t => Poised id t
  | .error e t => Poised id t ∧ ∀ failure, e ≠ .structural failure

theorem Failure.conclusion_error {e other : Failure} {c : Candidate}
    (concluded : e.conclusion c = .error other) : ∀ failure, other ≠ .structural failure := by
  rintro failure rfl
  cases e <;> cases concluded

section
variable (env) (alarm : Failure) (depth : Nat)

/-- A candidate that has been produced leaves the transaction of the sweep poised. -/
theorem Poised.produced (poised : Poised id s) {more : List Completion}
    (produces : Produces s.ledger.transactions.size (s.split id) t more) (calm : t.Calm) :
    ∃ l, t.ledger.commit s.ledger.transactions.size = .ok l ∧
      Poised id { t with ledger := l, current := some id } := by
  obtain ⟨l, closed, gathers, pending, committed, failures⟩ := poised.toGathers.fold produces
  refine ⟨l, closed, gathers, gathers.layered.recalls_iff.mpr ?_, calm.alike rfl⟩
  have before := poised.layered.recalls_iff.mp poised.recalls
  rw [pending]
  refine ⟨(before.alike failures committed).attributed, fun key failure found => ?_⟩
  have found : s.ledger.failures.get? key = some failure := failures ▸ found
  obtain ⟨completed, durable⟩ := before.apart key failure found
  refine ⟨?_, committed ▸ durable⟩
  rw [Table.lookupIn_append, completed, Option.none_or]
  cases late : Table.lookupIn key more with
  | none => rfl
  | some declarations =>
    have fresh := produces.fresh _ (Table.mem_of_lookupIn late)
    rw [poised.toIn.split_entry] at fresh
    rw [poised.recalls.unfailed fresh] at found
    cases found

/-- A candidate that fails leaves the transaction of the sweep poised. -/
theorem Poised.failed (poised : Poised id s) {e : Failure}
    (outcome : Outcome s.ledger.transactions.size (s.split id)
      (.error e t : EStateM.Result Failure State α))
    (kept : Keeps (s.split id) t) (calm : t.Calm) :
    Poised id { t with
      ledger := t.ledger.rollback s.ledger.transactions.size, current := some id } := by
  obtain ⟨gathers, pending, committed, failures⟩ := poised.toGathers.unfold kept rfl
  refine ⟨gathers, gathers.layered.recalls_iff.mpr ?_, calm.alike rfl⟩
  rw [pending]
  have recalls := outcome.recalls poised.toGathers poised.recalls poised.split_entry rfl kept.committed
  exact recalls.alike failures (committed.trans kept.committed.symm)

/-- A candidate of a sweep is not told from one whose productions are watched. -/
theorem Poised.candidate (poised : Poised id s) (c : Candidate) :
    sweepCandidate (Links.around (watch alarm) depth) c env s =
        sweepCandidate (Links.upTo depth) c env s ∧
      Poised.Ends id (sweepCandidate (Links.upTo depth) c env s) := by
  obtain ⟨outcome, alike⟩ := candidate_runs alarm depth c _ _ (split_in s id)
  have ends : Discipline.Ends _ (s.split id) ((Links.upTo depth).candidate c) _ :=
    candidate_ends (upTo_sound (.any env) depth) ((safe_any poised.calm).split id) fun _ _ => trivial
  have alike := alike (poised.recalls.alike poised.split_entry rfl)
  refine ⟨?_, ?_⟩
  · rw [sweepCandidate_eq, sweepCandidate_eq, inSavepoint_eq poised.toIn,
      inSavepoint_eq poised.toIn, alike]
  · rw [sweepCandidate_eq, inSavepoint_eq poised.toIn]
    unfold Discipline.Ends Gen.Leads at ends
    cases ended : (Links.upTo depth).candidate c env (s.split id) with
    | ok a t =>
      rw [ended] at ends outcome
      obtain ⟨more, produces⟩ := outcome
      obtain ⟨l, closed, after⟩ := poised.produced produces ends.1.toSafe.calm
      simp only [closed]
      exact after
    | error e t =>
      rw [ended] at ends outcome
      have after := poised.failed outcome ends.2 ends.1.calm
      dsimp only
      cases concluded : e.conclusion c with
      | ok found => exact after
      | error other => exact ⟨after, Failure.conclusion_error concluded⟩

/-- A sweep is not told from one in which all productions are watched. -/
theorem Poised.sweep (poised : Poised id s) (cancel : Cancellation) (index : Nat)
    (candidates : List Candidate) :
    sweepFrom (Links.around (watch alarm) depth) cancel index candidates env s =
        sweepFrom (Links.upTo depth) cancel index candidates env s ∧
      Poised.Ends id (sweepFrom (Links.upTo depth) cancel index candidates env s) := by
  induction candidates generalizing index s with
  | nil => exact ⟨rfl, poised⟩
  | cons c rest ih =>
    obtain ⟨alike, ends⟩ := poised.candidate env alarm depth c
    unfold sweepFrom
    rw [Gen.bind_eq, Gen.bind_eq, checkCancelled_eq]
    by_cases stopped : cancel.any (· ≤ index)
    · rw [if_pos stopped]
      exact ⟨rfl, poised, fun _ same => by cases same⟩
    · rw [if_neg stopped]
      dsimp only
      rw [Gen.bind_eq, Gen.bind_eq, alike]
      cases ended : sweepCandidate (Links.upTo depth) c env s with
      | error e t =>
        rw [ended] at ends
        exact ⟨rfl, ends⟩
      | ok outcome t =>
        rw [ended] at ends
        obtain ⟨alikeLater, endsLater⟩ := ih ends (index + 1)
        dsimp only
        rw [Gen.bind_eq, Gen.bind_eq, alikeLater]
        refine ⟨rfl, ?_⟩
        cases swept : sweepFrom (Links.upTo depth) cancel (index + 1) rest env t with
        | error e u =>
          rw [swept] at endsLater
          exact endsLater
        | ok outcomes u =>
          rw [swept] at endsLater
          exact endsLater

end

/-! ## Requests -/

/-- How a request ends that starts in a state: a structural failure that leaves it has been
    recorded for all entities whose production it went through, and a request that is not for the
    candidates of a sweep records nothing else. -/
def Tells (s : State) (work : Except Failure Work) : EStateM.Result Failure State Unit → Prop
  | .error (.structural failure) t => ∃ path, Fails s t path failure
  | .error _ t | .ok _ t =>
    (∀ candidates cancel, work ≠ .ok (.sweep candidates cancel)) →
      t.ledger.failures = s.ledger.failures

/-- Work is not told from work in which all productions are watched. -/
theorem work_records (env : Environment) (rest : s.AtRest) (recalls : s.Recalls) (alarm : Failure) (work : Work) :
    work.run (Links.around (watch alarm) env.depth) env s.begun =
        work.run (Links.upTo env.depth) env s.begun ∧
      Tells s.begun (.ok work) (work.run (Links.upTo env.depth) env s.begun) ∧
      match work.run (Links.upTo env.depth) env s.begun with
        | .ok _ t => t.Gathers s.ledger.transactions.size ∧ t.Recalls
        | .error _ t => t.ledger.committed = s.ledger.committed → t.ledger.Recalls [] := by
  have poised := Poised.begun rest recalls
  have single : ∀ {x y : Gen Unit}, Runs env x y → y env s.begun = x env s.begun ∧
      Tells s.begun (.ok work) (x env s.begun) ∧ match x env s.begun with
        | .ok _ t => t.Gathers s.ledger.transactions.size ∧ t.Recalls
        | .error _ t => t.ledger.committed = s.ledger.committed → t.ledger.Recalls [] := by
    intro x y runs
    obtain ⟨outcome, alike⟩ := runs _ _ (begun_in s)
    refine ⟨alike poised.recalls, ?_⟩
    cases ended : x env s.begun with
    | ok a t =>
      rw [ended] at outcome
      obtain ⟨more, produces⟩ := outcome
      exact ⟨fun _ => produces.failures, (poised.toGathers.produced produces).1,
        produces.recalls (begun_in s) poised.recalls⟩
    | error e t =>
      rw [ended] at outcome
      refine ⟨?_, fun committed =>
        (outcome.recalls poised.toGathers poised.recalls (fun _ => rfl) rfl committed).durable⟩
      cases e with
      | structural failure => exact outcome poised.recalls
      | platformMismatch | input | cancelled | ledger | badLimit | depthExceeded =>
        exact fun _ => outcome
  have linked : (Comparison.outcomes env).Linked _ _ := watched_linked alarm env.depth
  cases work with
  | name text => exact single (.bind (name_matches linked (groupsOf_fixed text)) fun _ => .secluded (.pure _))
  | template template => exact single (linked.demand _ trivial)
  | sweep candidates cancel =>
    obtain ⟨alike, ends⟩ := poised.sweep env alarm env.depth cancel 0 candidates
    simp only [Work.run]
    rw [Gen.bind_eq, Gen.bind_eq, alike]
    cases ended : sweepFrom (Links.upTo env.depth) cancel 0 candidates env s.begun with
    | ok outcomes t =>
      rw [ended] at ends
      exact ⟨rfl, fun single => absurd rfl (single candidates cancel), ends.toGathers, ends.recalls⟩
    | error e t =>
      rw [ended] at ends
      refine ⟨rfl, ?_, fun _ => (ends.1.layered.recalls_iff.mp ends.1.recalls).durable⟩
      cases e with
      | structural failure => exact absurd rfl (ends.2 failure)
      | platformMismatch | input | cancelled | ledger | badLimit | depthExceeded =>
        exact fun single => absurd rfl (single candidates cancel)

/-- What a request records stays recorded when its transaction is closed. -/
theorem Tells.closed (rest : s.AtRest) {work : Except Failure Work} {e : Failure} {u : State}
    (tells : Tells s.begun work (.error e t)) (failures : u.ledger.failures = t.ledger.failures) :
    Tells s work (.error e u) := by
  cases e with
  | structural failure =>
    obtain ⟨path, fails⟩ := tells
    exact ⟨path, by rw [failures, fails.failures]; rfl, fails.distinct,
      fun key member => (begun_entry rest key).symm.trans (fails.fresh key member),
      failures ▸ fails.begins⟩
  | platformMismatch | input | cancelled | ledger | badLimit | depthExceeded =>
    exact fun single => failures.trans (tells single)

/-- A request is not told from one in which all productions are watched. -/
theorem run_records (rest : s.AtRest) (recalls : s.Recalls) (alarm : Failure) (r : PublicRequest) :
    r.runOn (Links.around (watch alarm) env.depth) env s = r.run env s ∧
      Tells s (r.work env) (r.run env s) ∧ (r.after env s).Recalls := by
  have safe : (Discipline.any env).Safe s := safe_any rest.calm
  have advances := after_advances rest safe r
  have turns := (run_turns rest safe r).leads
  unfold Gen.Leads at turns
  unfold PublicRequest.after at advances ⊢
  rw [run_eq rest] at advances turns ⊢
  simp only [PublicRequest.runOn, Gen.read_bind] at advances turns ⊢
  cases asked : r.work env with
  | error e =>
    obtain ⟨problem, rfl⟩ := work_refuses r e asked
    exact ⟨rfl, fun _ => rfl, recalls⟩
  | ok work =>
    obtain ⟨alike, tells, records⟩ := work_records env rest recalls alarm work
    simp only [asked] at advances turns ⊢
    rw [inTransaction_eq rest] at advances turns ⊢
    rw [inTransaction_eq rest, alike]
    refine ⟨rfl, ?_⟩
    cases ended : work.run (Links.upTo env.depth) env s.begun with
    | ok a t =>
      rw [ended] at tells records
      obtain ⟨gathers, recallsT⟩ := records
      obtain ⟨l, closed, failures, committed⟩ := gathers.commit
      simp only [ended, closed] at advances ⊢
      refine ⟨fun single => failures.trans (tells single), ?_⟩
      exact advances.rest.recalls_iff.mpr
        ((gathers.layered.recalls_iff.mp recallsT).commit failures committed)
    | error e t =>
      rw [ended] at tells records
      simp only [ended] at advances turns ⊢
      have failures := Ledger.rollback_failures t.ledger s.ledger.transactions.size
      refine ⟨tells.closed rest failures, advances.rest.recalls_iff.mpr ?_⟩
      have committed := Ledger.rollback_committed t.ledger s.ledger.transactions.size
      exact (records (committed.symm.trans turns.2)).alike failures committed

/-! ## Sessions -/

/-- What holds of failures in a state between requests. -/
structure State.Remembers (env : Environment) (s : State) : Prop where
  /-- No durable entity has failed. -/
  apart : ∀ key ∈ s.ledger.committed.keys, key ∉ s.ledger.failures.keys
  /-- The entity of each failure has failed with the same failure. -/
  attributed : ∀ key failure, s.ledger.failures.get? key = some failure →
    ∃ root, failure.key = some root ∧ s.ledger.failures.get? root = some failure
  /-- What has failed fails again in the same way, whatever would produce it. -/
  again : ∀ key failure, s.ledger.failures.get? key = some failure →
    ∃ t, ∀ producer, inTransaction (produce key producer) env s = .error (.structural failure) t
  /-- While a request runs nothing that has failed is produced, a structural failure is recorded
      for each entity whose production it goes through, and a production that ends in another way
      records nothing: no alarm is raised, whatever alarm it is. -/
  watched : ∀ alarm (r : PublicRequest),
    r.runOn (Links.around (watch alarm) env.depth) env s = r.run env s
  /-- A structural failure that leaves a request is recorded for what had not been started, and
      nothing else is recorded; nor is anything by a request for one name or template that ends in
      another way. -/
  tells : ∀ r : PublicRequest, Tells s (r.work env) (r.run env s)

theorem State.Recalls.remembers (recalls : s.Recalls) (rest : s.AtRest) : s.Remembers env where
  apart key durable failed := by
    cases found : s.ledger.failures.get? key with
    | none => exact (Table.get?_eq_none_iff _ key).mp found failed
    | some failure =>
      have apart := (rest.recalls_iff.mp recalls).apart key failure found
      exact (Table.get?_eq_none_iff _ key).mp apart.2 durable
  attributed := recalls.attributed
  again key failure found := by
    refine ⟨{ s.begun with
      ledger := s.begun.ledger.rollback s.ledger.transactions.size, current := none },
      fun producer => ?_⟩
    rw [inTransaction_eq rest, produce_eq (begun_in s), begun_entry rest,
      (recalls.told key failure).mpr found]
  watched alarm r := (run_records rest recalls alarm r).1
  tells r := (run_records rest recalls .cancelled r).2.1

theorem foldl_recalls (requests : List PublicRequest) (rest : s.AtRest) (recalls : s.Recalls) :
    (requests.foldl (PublicRequest.after env) s).Recalls := by
  induction requests generalizing s with
  | nil => exact recalls
  | cons r requests ih =>
    have safe : (Discipline.any env).Safe s := safe_any rest.calm
    exact ih (after_advances rest safe r).rest
      (run_records rest recalls .cancelled r).2.2

theorem session_recalls (env : Environment) (requests : List PublicRequest) :
    (env.session requests).Recalls :=
  foldl_recalls requests .empty .empty

/-- A session remembers failures: between requests what is durable and what has failed are apart,
    each failure belongs to an entity that has failed with it, and it stays recorded whatever is
    requested later, so that the entity fails again and is not produced. -/
theorem session_remembers (env : Environment) (requests later : List PublicRequest) :
    (env.session requests).Remembers env ∧
      ∀ key failure, (env.session requests).ledger.failures.get? key = some failure →
        (env.session (requests ++ later)).ledger.failures.get? key = some failure := by
  have advances := session_advances (.any env) requests
  refine ⟨(session_recalls env requests).remembers advances.rest, fun key failure found => ?_⟩
  have further := foldl_advances later advances.rest advances.safe
  rw [Environment.session, List.foldl_append]
  exact Table.get?_of_prefix further.failures found

end Bindings
