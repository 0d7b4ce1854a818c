import Bindings.Proofs.Generation.Inspection
import Bindings.Proofs.Request.Termination

/-!
# What requests commit

The ledger is orderly at each point of a request, so nothing is lost when a transaction is committed:
what a report says has been committed is by how much the durable record has grown, and several lines
together commit the sum of what their reports say.
-/

namespace Bindings
open Bindings.Metadata Bindings.Text

variable {env : Environment} {α β : Type} {s t : State} {id : TransactionId}

/-! ## Inspected requests -/

/-- Has one candidate produced in a savepoint, inspected outside of it and inside. -/
noncomputable def inspectedCandidate (alarm : Failure) (links : Links) (c : Candidate) :
    Gen CandidateOutcome := do
  match ← Gen.attempt (inspecting alarm (inSavepoint (inspecting alarm (links.candidate c)))) with
  | .ok _ => return .produced
  | .error e =>
    match e.conclusion c with
    | .ok outcome => return outcome
    | .error other => throw other

/-- Has the candidates from a number on produced, with inspections. -/
noncomputable def inspectedSweep (alarm : Failure) (links : Links) (cancel : Cancellation) :
    Nat → List Candidate → Gen (List CandidateOutcome)
  | _, [] => return []
  | index, candidate :: rest => do
    checkCancelled cancel index
    let outcome ← inspectedCandidate alarm links candidate
    return outcome :: (← inspectedSweep alarm links cancel (index + 1) rest)

/-- Does the work on inspected links. -/
noncomputable def Work.inspected (alarm : Failure) (links : Links) : Work → Gen Unit
  | .sweep candidates cancel => do let _ ← inspectedSweep alarm links cancel 0 candidates
  | work => work.run links

/-- Does the work of a request in a transaction, with inspections of the ledger outside of the
    transaction and inside, outside of each savepoint and inside, and before and after each
    production and each producer. -/
noncomputable def PublicRequest.inspected (alarm : Failure) (r : PublicRequest) : Gen Unit := do
  let env ← read
  match r.work env with
  | .ok work =>
    inspecting alarm (inTransaction (inspecting alarm
      (work.inspected alarm (Links.inspected alarm env.depth))))
  | .error e => throw e

/-! ## Savepoints -/

theorem split_transactions {i : TransactionId} (s : State) (outer : TransactionId)
    (older : i ≠ s.ledger.transactions.size) :
    (s.split outer).ledger.transactions[i]? = s.ledger.transactions[i]? := by
  simp [State.split, Array.getElem?_push, older]

/-- A savepoint that has just been opened is tidy. -/
theorem Tidy.split (tidy : Tidy id s) : Tidy s.ledger.transactions.size (s.split id) := by
  have there := isOpen_bound tidy.opened
  have old : ∀ i, (s.split id).ledger.isOpen i = true → i ≠ s.ledger.transactions.size →
      s.ledger.isOpen i = true := by
    intro i opened older
    rwa [Ledger.isOpen, split_transactions s id older] at opened
  have same : ∀ i, i < s.ledger.transactions.size →
      (s.split id).ledger.chain i = s.ledger.chain i :=
    fun i lower => Ledger.chain_same fun j low =>
      split_transactions s id (Nat.ne_of_lt (Nat.lt_of_le_of_lt low lower))
  have new : (s.split id).ledger.transactions[s.ledger.transactions.size]? = some { parent := some id } := by
    simp [State.split]
  refine {
    toIn := split_in s id
    newest := fun i opened => ?_
    older := fun i opened lower => ?_
    below := fun x found => ?_
    fits := fun x found => ?_ }
  · by_cases fresh : i = s.ledger.transactions.size
    · exact Nat.le_of_eq fresh
    · exact Nat.le_trans (tidy.newest i (old i opened fresh)) (Nat.le_of_lt there)
  · rw [same i lower]
    exact tidy.laid (old i opened (Nat.ne_of_lt lower))
  · obtain rfl := Option.some.inj (found.symm.trans new)
    rw [Ledger.under, if_pos there, same id there]
    exact tidy.laid tidy.opened
  · obtain rfl := Option.some.inj (found.symm.trans new)
    exact .new (some id)

/-- After a savepoint has been closed the transaction below it is tidy. -/
theorem Tidy.resume (tidy : Tidy id s) (stays : Stays s.ledger.transactions.size (s.split id) t)
    {below : Option TransactionId} (others : below = none ∨ below = some id) {l : Ledger}
    (shuts : t.ledger.Shuts s.ledger.transactions.size below l)
    (committed : l.committed = t.ledger.committed)
    (here : ∀ p x, s.ledger.transactions[id]? = some p →
      t.ledger.transactions[s.ledger.transactions.size]? = some x →
        p.Fits s.ledger.committed (s.ledger.under id p.parent) →
          ∃ y, l.transactions[id]? = some y ∧ y.parent = p.parent ∧ y.closed = p.closed ∧
            y.Fits s.ledger.committed (s.ledger.under id p.parent)) :
    Tidy id { t with ledger := l, current := some id } := by
  have there := isOpen_bound tidy.opened
  have same : ∀ i, i ≠ s.ledger.transactions.size → i ≠ id →
      l.transactions[i]? = s.ledger.transactions[i]? := by
    intro i old other
    rw [shuts.others i old, stays.others i old, split_transactions s id old]
    rcases others with rfl | rfl
    · simp
    · exact fun eq => other (Option.some.inj eq).symm
  obtain ⟨x, found, _⟩ := stays.tidy.toIn.found
  refine tidy.follow tidy.current.symm (committed.trans stays.committed) (fun i opened => ?_)
    (fun i lower => same i (Nat.ne_of_lt (Nat.lt_trans lower there)) (Nat.ne_of_lt lower))
    fun p foundP fits => here p x foundP found fits
  by_cases last : i = s.ledger.transactions.size
  · subst last
    obtain ⟨y, foundY, closed⟩ := (Ledger.isOpen_iff l _).mp opened
    rw [shuts.closed y foundY] at closed
    cases closed
  · by_cases own : i = id
    · exact Nat.le_of_eq own
    · refine tidy.newest i ?_
      change l.isOpen i = true at opened
      rwa [Ledger.isOpen, same i last own] at opened

/-- A tidy transaction with one entry for each key, in a state that is calm. -/
structure Clean (env : Environment) (id : TransactionId) (s : State) : Prop extends Tidy id s where
  sound : (Discipline.any env).Sound s

/-- A computation leaves the transaction clean, and is not told from one that is inspected. -/
def Clears (env : Environment) (id : TransactionId) (s : State) (x y : Gen α) : Prop :=
  y env s = x env s ∧ Gen.Leads env s x (fun _ => Clean env id) (Clean env id)

theorem Clears.pure (clean : Clean env id s) (a : α) : Clears env id s (pure a) (pure a) := ⟨rfl, clean⟩

theorem Clears.bind {x y : Gen α} {f g : α → Gen β} (first : Clears env id s x y)
    (rest : ∀ a t, Clean env id t → Clears env id t (f a) (g a)) :
    Clears env id s (x >>= f) (y >>= g) := by
  obtain ⟨alike, leads⟩ := first
  refine ⟨?_, .bind leads fun a t clean => (rest a t clean).2⟩
  rw [Gen.bind_eq, Gen.bind_eq, alike]
  unfold Gen.Leads at leads
  cases ended : x env s with
  | error e t => rfl
  | ok a t =>
    rw [ended] at leads
    exact (rest a t leads).1

section
variable (alarm : Failure) (depth : Nat)

/-- A savepoint that is committed leaves the transaction below it clean. -/
theorem Clean.fold (clean : Clean env id s) (stays : Stays s.ledger.transactions.size (s.split id) t)
    (sound : (Discipline.any env).Sound t) (grown : (Discipline.any env).Grows (s.split id) t) :
    ∃ l, t.ledger.commit s.ledger.transactions.size = .ok l ∧
      Clean env id { t with ledger := l, current := some id } := by
  have there := isOpen_bound clean.opened
  obtain ⟨x, found, parent, opened⟩ := grown.toKeeps.savepoint
  obtain ⟨l, committed, folds⟩ := Ledger.commit_savepoint found opened parent (Nat.ne_of_gt there)
  refine ⟨l, committed, clean.toTidy.resume stays (.inr rfl) folds.toShuts folds.committed ?_,
    (grown.fold clean.current there clean.sound sound folds).1⟩
  intro p y foundP foundY fits
  have below : t.ledger.transactions[id]? = some p :=
    (stays.others id (Nat.ne_of_lt there)).trans
      ((split_transactions s id (Nat.ne_of_lt there)).trans foundP)
  have under : t.ledger.under id p.parent = s.ledger.under id p.parent := by
    refine Ledger.under_same (fun i lower => ?_) _
    have older := Nat.ne_of_lt (Nat.lt_trans lower there)
    rw [stays.others i older, split_transactions s id older]
  have above := stays.tidy.fits y foundY
  have parentY : y.parent = some id := Option.some.inj (found.symm.trans foundY) ▸ parent
  rw [parentY, Ledger.under, if_pos there, Ledger.chain_eq below, under, stays.committed] at above
  refine ⟨p.absorb y, folds.below y p foundY below, rfl, rfl, fits.absorb above ?_⟩
  exact sound.distinct _ y stays.tidy.current foundY

/-- A savepoint that is rolled back leaves the transaction below it clean. -/
theorem Clean.unfold (clean : Clean env id s) (stays : Stays s.ledger.transactions.size (s.split id) t)
    (safe : (Discipline.any env).Safe t) (kept : Keeps (s.split id) t) :
    Clean env id
      { t with ledger := t.ledger.rollback s.ledger.transactions.size, current := some id } := by
  have there := isOpen_bound clean.opened
  have old := Nat.ne_of_lt there
  obtain ⟨x, found, parent, opened⟩ := kept.savepoint
  obtain ⟨shuts, active, committed⟩ := Ledger.rollback_savepoint found opened parent
  refine ⟨clean.toTidy.resume stays (.inl rfl) shuts committed fun p y foundP _ fits => ?_,
    (kept.unfold clean.current there clean.sound safe shuts active committed).1⟩
  refine ⟨p, ?_, rfl, rfl, fits⟩
  rw [shuts.untouched old, stays.others id old, split_transactions s id old, foundP]

/-- What is done in a savepoint leaves the transaction clean, and is not told from what is inspected. -/
theorem Clean.savepoint (clean : Clean env id s) {x y : Gen α} (tidies : Tidies env x y)
    (ends : (Discipline.any env).Ends (s.split id) x fun _ _ => True) :
    Clears env id s (inSavepoint x) (inspecting alarm (inSavepoint (inspecting alarm y))) := by
  obtain ⟨alike, stays⟩ := (tidies.inspecting alarm) _ _ clean.toTidy.split
  have closes : Gen.Leads env s (inSavepoint x) (fun _ => Clean env id) (Clean env id) := by
    unfold Discipline.Ends Gen.Leads at ends
    unfold Gen.Leads at stays ⊢
    rw [inSavepoint_eq clean.toIn]
    cases ended : x env (s.split id) with
    | ok a t =>
      rw [ended] at ends stays
      obtain ⟨l, committed, after⟩ := clean.fold stays ends.1 ends.2.1
      simp only [committed]
      exact after
    | error e t =>
      rw [ended] at ends stays
      exact clean.unfold stays ends.1 ends.2
  have inner : inSavepoint (inspecting alarm y) env s = inSavepoint x env s := by
    rw [inSavepoint_eq clean.toIn, inSavepoint_eq clean.toIn, alike]
  refine ⟨?_, closes⟩
  rw [inspecting_eq alarm clean.orderly, inner]
  rw [Gen.Leads, inner]
  exact closes.imp (fun _ _ clean => clean.orderly) fun _ clean => clean.orderly

/-- A candidate of a sweep leaves the transaction clean, and is not told from one that is inspected. -/
theorem Clean.candidate (clean : Clean env id s) (c : Candidate) :
    Clears env id s (sweepCandidate (Links.upTo depth) c)
      (inspectedCandidate alarm (Links.inspected alarm depth) c) := by
  have matched : Tidies env ((Links.upTo depth).candidate c) _ :=
    candidate_matches (inspected_linked alarm depth) fun _ _ => trivial
  obtain ⟨alike, leads⟩ := clean.savepoint alarm matched
    (candidate_ends (upTo_sound _ depth) (clean.sound.toSafe.split id) fun _ _ => trivial)
  unfold Clears inspectedCandidate Gen.Leads
  rw [Gen.bind_eq, Gen.attempt_eq, alike, sweepCandidate_eq]
  unfold Gen.Leads at leads
  cases ended : inSavepoint ((Links.upTo depth).candidate c) env s with
  | ok a t =>
    rw [ended] at leads
    exact ⟨rfl, leads⟩
  | error e t =>
    rw [ended] at leads
    dsimp only
    cases e.conclusion c with
    | ok outcome => exact ⟨rfl, leads⟩
    | error other => exact ⟨rfl, leads⟩

/-- A sweep leaves the transaction clean if each candidate does. -/
theorem Clean.sweep (clean : Clean env id s) (cancel : Cancellation) (index : Nat)
    (candidates : List Candidate) :
    Clears env id s (sweepFrom (Links.upTo depth) cancel index candidates)
      (inspectedSweep alarm (Links.inspected alarm depth) cancel index candidates) := by
  induction candidates generalizing index s with
  | nil => exact .pure clean _
  | cons c rest ih =>
    unfold inspectedSweep sweepFrom
    have checked : Clears env id s (checkCancelled cancel index) (checkCancelled cancel index) :=
      ⟨rfl, .steady (checkCancelled_fixed cancel index) (fun _ _ => clean) clean⟩
    refine .bind checked fun _ t clean => ?_
    refine .bind (clean.candidate alarm depth c) fun outcome u clean => ?_
    exact .bind (ih clean (index + 1)) fun outcomes v clean => .pure clean _

/-- Work leaves the transaction clean, and is not told from work that is inspected. -/
theorem Clean.work (clean : Clean env id s) (work : Work) :
    work.inspected alarm (Links.inspected alarm depth) env s = work.run (Links.upTo depth) env s ∧
      Gen.Leads env s (work.run (Links.upTo depth)) (fun _ => Tidy id) (Tidy id) := by
  have linked : (Comparison.tidy env).Linked _ _ := inspected_linked alarm depth
  cases work with
  | name text =>
    have matched : Tidies env ((Links.upTo depth).name text) _ := name_matches linked (groupsOf_fixed text)
    obtain ⟨alike, leads⟩ := (matched.bind fun _ => .secluded (.pure ())) id s clean.toTidy
    exact ⟨alike, leads.imp (fun _ _ stays => stays.tidy) fun _ stays => stays.tidy⟩
  | template t =>
    have matched : Tidies env ((Links.upTo depth).demand (.template t)) _ := linked.demand _ trivial
    obtain ⟨alike, leads⟩ := matched id s clean.toTidy
    exact ⟨alike, leads.imp (fun _ _ stays => stays.tidy) fun _ stays => stays.tidy⟩
  | sweep candidates cancel =>
    have swept := clean.sweep alarm depth cancel 0 candidates
    obtain ⟨alike, leads⟩ := swept.bind fun _ _ clean => .pure clean ()
    exact ⟨alike, leads.imp (fun _ _ clean => clean.toTidy) fun _ clean => clean.toTidy⟩

end

/-! ## Requests -/

/-- At rest no transaction is open. -/
theorem State.AtRest.orderly (rest : s.AtRest) : s.ledger.Orderly := by
  intro id opened
  obtain ⟨x, found, opened⟩ := (Ledger.isOpen_iff _ id).mp opened
  rw [rest.closed id x found] at opened
  cases opened

/-- An outermost transaction that has just been opened is clean. -/
theorem Clean.begun (rest : s.AtRest) : Clean env s.ledger.transactions.size s.begun := by
  have new : s.begun.ledger.transactions[s.ledger.transactions.size]? = some {} := by simp [State.begun]
  have old : ∀ i, i ≠ s.ledger.transactions.size → s.begun.ledger.isOpen i = false := by
    intro i older
    have same : s.begun.ledger.transactions[i]? = s.ledger.transactions[i]? := by
      simp [State.begun, Array.getElem?_push, older]
    rw [Ledger.isOpen, same]
    cases found : s.ledger.transactions[i]? with
    | none => rfl
    | some x => simp [rest.closed i x found]
  refine {
    toIn := begun_in s
    newest := fun i opened => ?_
    older := fun i opened lower => ?_
    below := fun x found => ?_
    fits := fun x found => ?_
    sound := (safe_any rest.calm).begun }
  · by_cases last : i = s.ledger.transactions.size
    · exact Nat.le_of_eq last
    · rw [old i last] at opened
      cases opened
  · rw [old i (Nat.ne_of_lt lower)] at opened
    cases opened
  · obtain rfl := Option.some.inj (found.symm.trans new)
    exact ⟨.nil, by simp [Ledger.under]⟩
  · obtain rfl := Option.some.inj (found.symm.trans new)
    exact .new none

/-- A request is not told from one that is inspected. -/
theorem run_inspected (rest : s.AtRest) (alarm : Failure) (r : PublicRequest) :
    r.inspected alarm env s = r.run env s := by
  rw [run_eq rest]
  unfold PublicRequest.inspected PublicRequest.runOn
  rw [Gen.read_bind, Gen.read_bind]
  cases asked : r.work env with
  | error e => rfl
  | ok work =>
    have ends : (Discipline.any env).Ends s.begun (work.run (Links.upTo env.depth)) fun _ _ => True :=
      Work.ends (upTo_sound _ env.depth) (safe_any rest.calm).begun (work_gives r work asked)
    have clean : Clean env s.ledger.transactions.size s.begun := .begun rest
    obtain ⟨alike, leads⟩ := clean.work alarm env.depth work
    have inner : inTransaction (inspecting alarm (work.inspected alarm (Links.inspected alarm env.depth))) env s =
        inTransaction (work.run (Links.upTo env.depth)) env s := by
      have body : inspecting alarm (work.inspected alarm (Links.inspected alarm env.depth)) env s.begun =
          work.run (Links.upTo env.depth) env s.begun := by
        rw [inspecting_eq alarm clean.orderly, alike]
        rw [Gen.Leads, alike]
        exact leads.imp (fun _ _ tidy => tidy.orderly) fun _ tidy => tidy.orderly
      rw [inTransaction_eq rest, inTransaction_eq rest, body]
    have turns := (inTransaction_turns rest (safe_any rest.calm) fun _ => ends).leads
    dsimp only
    rw [inspecting_eq alarm rest.orderly, inner]
    rw [Gen.Leads, inner]
    exact turns.imp (fun _ _ advances => advances.rest.orderly) fun _ advances => advances.1.rest.orderly

/-! ## Counts -/

/-- What a report says has been committed is by how much the durable record has grown. -/
def Counts (env : Environment) (s : State) (x : Gen SweepReport) : Prop :=
  ∀ report t, x env s = .ok report t →
    (t.ledger.committed.size : Int) = s.ledger.committed.size + report.committedCount

theorem Counts.throw (e : Failure) : Counts env s (throw e) := by
  intro report t ended
  cases ended

theorem Counts.read {f : Environment → Gen SweepReport} (counts : Counts env s (f env)) :
    Counts env s (read >>= f) := by
  unfold Counts
  rw [Gen.read_bind]
  exact counts

theorem Counts.links {f : Links → Gen SweepReport} (counts : Counts env s (f (Links.upTo env.depth))) :
    Counts env s (sessionLinks >>= f) := by
  unfold Counts
  rw [Gen.bind_eq, sessionLinks_eq]
  exact counts

theorem Counts.valid {name : String} {f : String → Gen SweepReport}
    (counts : Counts env s (f (strip name))) : Counts env s (validName name >>= f) := by
  unfold validName
  split
  · exact counts
  · exact .throw _

/-- An outermost transaction commits all that it has completed. -/
theorem Tidy.commit (tidy : Tidy id s) {x : Transaction} (found : s.ledger.transactions[id]? = some x)
    (parent : x.parent = none) (active : s.ledger.active = some id) :
    ∃ l, s.ledger.commit id = .ok l ∧ l.committed.size = s.ledger.committed.size + x.pending.length := by
  obtain ⟨y, foundY, opened⟩ := tidy.toIn.found
  obtain rfl := Option.some.inj (found.symm.trans foundY)
  obtain ⟨l, committed, _, _, durable⟩ := Ledger.commit_outermost found opened parent active
  refine ⟨l, committed, ?_⟩
  have fits := tidy.fits x found
  have fresh : ∀ e ∈ x.pending, s.ledger.committed.get? e.1 = none := by
    intro e member
    obtain ⟨declarations, held⟩ := fits.exact.noted (List.mem_map_of_mem member)
    exact (fits.apart e.1 (by simp [held])).2
  rw [durable, Table.size, Table.entries_foldl_putNew fits.distinct fresh, List.length_append]
  rfl

/-- What a computation in a transaction of its own commits is counted. -/
theorem Counts.counted (rest : s.AtRest) {body : Gen α} {f : α × Int → Gen SweepReport}
    (said : ∀ made, ∃ report, f made = pure report ∧ report.committedCount = made.2)
    (leads : Gen.Leads env s.begun body (fun _ => Tidy s.ledger.transactions.size)
      (Tidy s.ledger.transactions.size))
    (ends : (Discipline.any env).Ends s.begun body fun _ _ => True) :
    Counts env s (inTransaction (counted body) >>= f) := by
  intro result u made
  obtain ⟨⟨a, n⟩, v, ran, made⟩ := Gen.bind_ok made
  obtain ⟨report, same, count⟩ := said (a, n)
  rw [same] at made
  obtain ⟨rfl, rfl⟩ := Gen.pure_ok made
  rw [count]
  have current : ∀ a t, body env s.begun = .ok a t → t.current = some s.ledger.transactions.size := by
    intro a t ended
    rw [Discipline.Ends, Gen.Leads, ended] at ends
    exact ends.2.1.current
  rw [inTransaction_eq rest, counted_eq rfl current] at ran
  unfold Discipline.Ends Gen.Leads at ends
  unfold Gen.Leads at leads
  cases ended : body env s.begun with
  | error e t =>
    rw [ended] at ran
    cases ran
  | ok b t =>
    rw [ended] at ran ends leads
    obtain ⟨_, grown, _⟩ := ends
    obtain ⟨x, found, parent, opened⟩ := grown.toKeeps.outermost
    obtain ⟨l, committed, size⟩ := leads.commit found parent grown.active
    simp only [committed] at ran
    cases ran
    have early : s.begun.ledger.pendingOf s.ledger.transactions.size = [] := begun_pending s
    have late : t.ledger.pendingOf s.ledger.transactions.size = x.pending := by
      simp [Ledger.pendingOf, found]
    have before : t.ledger.committed = s.ledger.committed := grown.committed
    rw [early, late, size, before]
    simp

section
variable (rest : s.AtRest)
include rest

theorem sweep_counts (candidates : List Candidate) (cancel : Cancellation) :
    Counts env s (sweep candidates cancel) := by
  have clean : Clean env s.ledger.transactions.size s.begun := .begun rest
  have leads := (clean.sweep .cancelled env.depth cancel 0 candidates).2
  unfold sweep
  refine .links (.counted rest (fun _ => ⟨_, rfl, rfl⟩) (leads.imp (fun _ _ clean => clean.toTidy) fun _ clean =>
    clean.toTidy) ?_)
  exact sweepFrom_ends (upTo_sound _ env.depth) cancel 0 (fun _ _ _ _ => trivial) (safe_any rest.calm).begun

theorem requestNamespace_counts (space : String) (cancel : Cancellation) :
    Counts env s (requestNamespace space cancel) := by
  unfold requestNamespace
  refine .read ?_
  split
  · exact .throw _
  · exact sweep_counts rest _ cancel

theorem requestModule_counts (module : String) (cancel : Cancellation) :
    Counts env s (requestModule module cancel) := by
  unfold requestModule
  refine .read ?_
  split
  · exact .throw _
  · exact sweep_counts rest _ cancel

theorem requestPrefix_counts (start : String) (cancel : Cancellation) :
    Counts env s (requestPrefix start cancel) := by
  unfold requestPrefix
  dsimp only
  split
  · exact .throw _
  · refine .read ?_
    split
    · exact .throw _
    · exact sweep_counts rest _ cancel

theorem requestAll_counts (cancel : Cancellation) : Counts env s (requestAll cancel) := by
  unfold requestAll
  exact .read (sweep_counts rest _ cancel)

theorem request_counts (line : String) (cancel : Cancellation) :
    Counts env s (request line cancel) := by
  unfold request
  dsimp only
  split
  · exact requestModule_counts rest _ cancel
  · split
    · exact requestPrefix_counts rest _ cancel
    · refine .valid (.read ?_)
      split
      · exact requestNamespace_counts rest _ cancel
      · have clean : Clean env s.ledger.transactions.size s.begun := .begun rest
        have linked : (Comparison.tidy env).Linked _ _ := inspected_linked .cancelled env.depth
        have matched : Tidies env ((Links.upTo env.depth).name (strip (strip line))) _ :=
          name_matches linked (groupsOf_fixed _)
        refine .links (.counted rest (fun _ => ⟨_, rfl, rfl⟩) ((matched _ _ clean.toTidy).2.imp
          (fun _ _ stays => stays.tidy) fun _ stays => stays.tidy) ?_)
        exact name_ends (upTo_sound _ env.depth) (safe_any rest.calm).begun _

end

/-! ## Several lines -/

/-- The outcome of a line is either a report or an error. -/
def RequestOutcome.Decided (o : RequestOutcome) : Prop :=
  o.report.isSome = true ∧ o.error = none ∨ o.report = none ∧ o.error.isSome = true

/-- How much the reports of outcomes say has been committed. -/
def committedCount (outcomes : List RequestOutcome) : Int :=
  (outcomes.filterMap (·.report)).foldr (·.committedCount + ·) 0

theorem committedCount_cons (o : RequestOutcome) (outcomes : List RequestOutcome) :
    committedCount (o :: outcomes) = committedCount [o] + committedCount outcomes := by
  unfold committedCount
  cases report : o.report <;> simp [report]

section
variable (consistent : env.index.Consistent)
include consistent

/-- A request line that cannot be cancelled fails for a regular reason, if it fails. -/
theorem request_regular (rest : s.AtRest) (safe : (Discipline.backing env).Safe s) {line : String}
    {e : Failure} (failed : request line none env s = .error e t) : e.Regular := by
  have ran : (PublicRequest.line line none).run env s = .error e t := by
    change (request line none >>= fun _ => pure ()) env s = _
    rw [Gen.bind_eq, failed]
  rcases (run_follows consistent .cancelled rest safe (.line line none)).ends with
    ⟨a, u, ended⟩ | ⟨f, u, ended, due⟩
  · rw [ran] at ended
    cases ended
  · rw [ran] at ended
    cases ended
    exact due.resolve_right fun stopped => nomatch stopped.2

/-- A request line has an outcome, and its report says what it has committed. -/
theorem runRequest_ok (rest : s.AtRest) (safe : (Discipline.backing env).Safe s) (line : String) :
    ∃ o t, runRequest line env s = .ok o t ∧ (Discipline.backing env).Advances s t ∧
      o.request = line ∧ o.Decided ∧
        (t.ledger.committed.size : Int) = s.ledger.committed.size + committedCount [o] := by
  obtain ⟨turns⟩ := request_turns rest safe line none
  have counts : Counts env s _ := request_counts rest line none
  have regular : ∀ e t, request line none env s = .error e t → e.Regular :=
    fun e t failed => request_regular consistent rest safe failed
  unfold runRequest
  rw [Gen.bind_eq, Gen.attempt_eq]
  unfold Gen.Leads at turns
  cases ended : request line none env s with
  | ok report t =>
    rw [ended] at turns
    have count := counts report t ended
    dsimp only
    cases report.notFound with
    | nil => exact ⟨_, t, rfl, turns, rfl, .inl ⟨rfl, rfl⟩, by simpa [committedCount] using count⟩
    | cons name more =>
      exact ⟨_, t, rfl, turns, rfl, .inl ⟨rfl, rfl⟩, by simpa [committedCount] using count⟩
  | error e t =>
    rw [ended] at turns
    obtain ⟨advances, same⟩ := turns
    cases e with
    | input problem =>
      dsimp only
      cases problem.candidates with
      | nil => exact ⟨_, t, rfl, advances, rfl, .inr ⟨rfl, rfl⟩, by simp [committedCount, same]⟩
      | cons name more =>
        exact ⟨_, t, rfl, advances, rfl, .inr ⟨rfl, rfl⟩, by simp [committedCount, same]⟩
    | platformMismatch name platform architectures =>
      refine ⟨_, t, rfl, advances, rfl, .inr ⟨rfl, rfl⟩, ?_⟩
      simp [committedCount, same]
    | structural failure =>
      refine ⟨_, t, rfl, advances, rfl, .inr ⟨rfl, rfl⟩, ?_⟩
      simp [committedCount, same]
    | cancelled | ledger | badLimit | depthExceeded => exact (regular _ t ended).elim

/-- Request lines have one outcome each, in their order, and their reports say what they commit. -/
theorem runRequests_ok (rest : s.AtRest) (safe : (Discipline.backing env).Safe s) (lines : List String) :
    ∃ outcomes t, runRequests lines env s = .ok outcomes t ∧ outcomes.map (·.request) = lines ∧
      (∀ o ∈ outcomes, o.Decided) ∧
        (t.ledger.committed.size : Int) = s.ledger.committed.size + committedCount outcomes := by
  induction lines generalizing s with
  | nil => exact ⟨[], s, rfl, rfl, by simp, by simp [committedCount]⟩
  | cons line lines ih =>
    obtain ⟨o, t, ran, advances, own, decided, count⟩ := runRequest_ok consistent rest safe line
    obtain ⟨outcomes, u, later, requests, all, counts⟩ := ih advances.rest advances.safe
    refine ⟨o :: outcomes, u, ?_, by rw [List.map_cons, own, requests], ?_, ?_⟩
    · unfold runRequests at later ⊢
      rw [List.mapM_cons, Gen.bind_eq, ran]
      dsimp only
      rw [Gen.bind_eq, later]
      rfl
    · intro other member
      rcases List.mem_cons.mp member with rfl | further
      · exact decided
      · exact all other further
    · rw [committedCount_cons, counts, count]
      omega

end

/-! ## Sessions -/

/-- The report of a request, if it is one with a report. -/
def PublicRequest.report : PublicRequest → Option (Gen SweepReport)
  | line text cancel => some (request text cancel)
  | everyIn space cancel => some (requestNamespace space cancel)
  | ofModule module cancel => some (requestModule module cancel)
  | constants start cancel => some (requestPrefix start cancel)
  | all cancel => some (requestAll cancel)
  | byName _ | inlineFunction _ => none

/-- What holds of the ledger of a session, and of what requests say that they commit, in a state
    between requests. -/
structure State.Tallies (env : Environment) (s : State) : Prop where
  /-- At each point of a request the ledger is orderly: no alarm is raised, whatever alarm it is. -/
  inspected : ∀ alarm (r : PublicRequest), r.inspected alarm env s = r.run env s
  /-- A request that returns a report commits as many entities as the report says. -/
  reports : ∀ (r : PublicRequest) x, r.report = some x → Counts env s x
  /-- Request lines have one outcome each, in their order, each with a report or an error, and they
      commit as many entities as all reports together say. -/
  lines : ∀ lines, ∃ outcomes t, runRequests lines env s = .ok outcomes t ∧
    outcomes.map (·.request) = lines ∧ (∀ o ∈ outcomes, o.Decided) ∧
      (t.ledger.committed.size : Int) = s.ledger.committed.size + committedCount outcomes

/-- In every session on documents nothing is lost between completion and commit: the ledger is orderly
    at all points, and counts of what has been committed are right. -/
theorem session_tallies {roots : List Markup.Element}
    (built : Index.ofDocuments roots = .ok env.index) (requests : List PublicRequest) :
    (env.session requests).Tallies env := by
  have consistent := Index.ofDocuments_consistent built
  obtain ⟨rest, safe⟩ : _ ∧ _ :=
    have advances := session_advances (.backing env) requests
    ⟨advances.rest, advances.safe⟩
  refine {
    inspected := run_inspected rest
    reports := fun r x same => ?_
    lines := runRequests_ok consistent rest safe }
  unfold PublicRequest.report at same
  cases r with
  | line text cancel => exact Option.some.inj same ▸ request_counts rest text cancel
  | everyIn space cancel => exact Option.some.inj same ▸ requestNamespace_counts rest space cancel
  | ofModule module cancel => exact Option.some.inj same ▸ requestModule_counts rest module cancel
  | constants start cancel => exact Option.some.inj same ▸ requestPrefix_counts rest start cancel
  | all cancel => exact Option.some.inj same ▸ requestAll_counts rest cancel
  | byName name => cases same
  | inlineFunction name => cases same

/-- A session in which a request has failed. -/
theorem session_tallies_knot :
    Index.ofDocuments [knotDocument] = .ok (Environment.reading [knotDocument]).index ∧
      ((Environment.reading [knotDocument]).session [.byName "NODE"]).Tallies
        (Environment.reading [knotDocument]) := by
  have built : Index.ofDocuments [knotDocument] = .ok (Environment.reading [knotDocument]).index :=
    reading_built (by decide +kernel)
  exact ⟨built, session_tallies built _⟩

end Bindings
