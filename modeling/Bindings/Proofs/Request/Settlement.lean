import Mathlib.Data.List.Forall2
import Bindings.Proofs.Request.Reporting

/-!
# Reports that are settled

What is known of the entity that a candidate asks for decides how the candidate ends, and a sweep
leaves all its candidates decided. So a sweep that has returned its report returns the same report
again, and nothing is produced by then, and so does a line that asks for one name.
-/

namespace Bindings
open Bindings.Metadata Bindings.Text

variable {env : Environment} {s t u x : State} {id : TransactionId} {c : Candidate}
  {outcome : CandidateOutcome} {outcomes : List CandidateOutcome} {candidates : List Candidate}
  {cancel : Cancellation} {depth index : Nat}

/-! ## Decided candidates -/

/-- What is known of the entity that a candidate asks for decides how the candidate ends. -/
inductive State.Decides (env : Environment) (s : State) (c : Candidate) : CandidateOutcome → Prop
  | produced {e : Entity} (asked : env.askedBy c = .ok e) (known : s.Knows e.key) :
      s.Decides env c .produced
  | recorded {e : Entity} {failure : StructuralFailure} (asked : env.askedBy c = .ok e)
      (failed : s.ledger.failures.get? e.key = some failure) :
      s.Decides env c (.failed c.1 failure.fault.message)
  | nothing {failure : StructuralFailure} (asked : env.askedBy c = .error (.structural failure)) :
      s.Decides env c (.failed c.1 failure.fault.message)

/-- What is decided stays decided where all that is known is known, and nothing that is recorded is lost. -/
theorem State.Decides.later (decides : s.Decides env c outcome)
    (knows : ∀ key, s.Knows key → t.Knows key)
    (recorded : s.ledger.failures.entries <+: t.ledger.failures.entries) : t.Decides env c outcome := by
  cases decides with
  | produced asked known => exact .produced asked (knows _ known)
  | recorded asked failed => exact .recorded asked (Table.get?_of_prefix recorded failed)
  | nothing asked => exact .nothing asked

/-- A candidate of a sweep is decided once it has ended, unless it is skipped. -/
theorem Poised.decides (poised : Poised id s)
    (swept : sweepCandidate (Links.upTo (depth + 1)) c env s = .ok outcome t)
    (unskipped : ∀ name, outcome ≠ .skipped name) : t.Decides env c outcome := by
  rcases poised.candidate_cases swept with
    ⟨u, ended, rfl, rejoins, _, entry⟩ | ⟨e, u, ended, concluded, rejoins⟩
  · rw [candidate_eq] at ended
    cases asked : env.askedBy c with
    | error e =>
      rw [asked] at ended
      cases ended
    | ok e =>
      have settles := demand_settles env depth (split_in s id) e
      rw [asked, Links.ask] at ended
      rw [ended] at settles
      exact .produced asked (by rw [State.Knows, entry]; exact settles.2)
  · cases e with
    | platformMismatch =>
      cases concluded
      exact absurd rfl (unskipped _)
    | input | cancelled | ledger | badLimit | depthExceeded => cases concluded
    | structural failure =>
      cases concluded
      rw [candidate_eq] at ended
      cases asked : env.askedBy c with
      | error e =>
        rw [asked] at ended
        cases ended
        exact .nothing asked
      | ok e =>
        have settles := demand_settles env depth (split_in s id) e
        rw [asked, Links.ask] at ended
        rw [ended] at settles
        refine .recorded asked ?_
        rw [rejoins.failures]
        exact settles (poised.recalls.alike poised.split_entry rfl)

/-- A decided candidate ends as it is decided, and nothing changes. -/
theorem Poised.again (poised : Poised id s) (depth : Nat) (decides : s.Decides env c outcome) :
    ∃ t, sweepCandidate (Links.upTo (depth + 1)) c env s = .ok outcome t ∧ Rejoins id s s t [] := by
  have candidate : (Links.upTo (depth + 1)).candidate c env (s.split id) = _ := candidate_eq _ c _
  cases decides with
  | produced asked known =>
    rw [asked] at candidate
    have ended : (Links.upTo (depth + 1)).candidate c env (s.split id) = .ok () (s.split id) := by
      rw [candidate]
      change produce _ _ env (s.split id) = _
      rw [produce_eq (split_in s id), poised.split_entry]
      rcases (s.knows_iff _).mp known with flying | ⟨declarations, produced⟩
      · rw [flying]
      · rw [produced]
    obtain ⟨t, swept, rejoins, _⟩ := poised.produces ended
    rw [split_pending] at rejoins
    exact ⟨t, swept, rejoins.unsplit⟩
  | @recorded e failure asked failed =>
    rw [asked] at candidate
    have ended : (Links.upTo (depth + 1)).candidate c env (s.split id) =
        .error (.structural failure) (s.split id) := by
      rw [candidate]
      change produce _ _ env (s.split id) = _
      rw [produce_eq (split_in s id), poised.split_entry, (poised.recalls.told e.key failure).mpr failed]
    obtain ⟨t, swept, rejoins⟩ := poised.fails ended rfl
    exact ⟨t, swept, rejoins.unsplit⟩
  | nothing asked =>
    rw [asked] at candidate
    obtain ⟨t, swept, rejoins⟩ := poised.fails candidate rfl
    exact ⟨t, swept, rejoins.unsplit⟩

/-! ## Decided sweeps -/

/-- Nothing has changed that is known. -/
theorem Rejoins.entry (rejoins : Rejoins id s s t []) (poised : Poised id s) (key : EntityKey) :
    t.entry key = s.entry key :=
  poised.layered.entry_eq rejoins.poised.layered (rejoins.pending.trans (List.append_nil _))
    rejoins.committed (by rw [rejoins.failures])

theorem Rejoins.trans (first : Rejoins id s s t []) (second : Rejoins id t t u []) :
    Rejoins id s s u [] where
  poised := second.poised
  pending := by rw [second.pending, first.pending, List.append_nil]
  committed := second.committed.trans first.committed
  failures := second.failures.trans first.failures
  expanding := second.expanding.trans first.expanding
  memory := second.memory.trans first.memory

theorem skippedOf_cons (unskipped : skippedOf (outcome :: outcomes) = []) :
    (∀ name, outcome ≠ .skipped name) ∧ skippedOf outcomes = [] := by
  cases outcome with
  | skipped name => cases unskipped
  | produced | failed name message => exact ⟨nofun, unskipped⟩

/-- The candidates of a sweep are decided after it, unless some are skipped. -/
theorem Poised.sweep_decides (poised : Poised id s)
    (swept : sweepFrom (Links.upTo (depth + 1)) cancel index candidates env s = .ok outcomes t)
    (unskipped : skippedOf outcomes = []) : List.Forall₂ (t.Decides env) candidates outcomes := by
  induction candidates generalizing index s outcomes with
  | nil =>
    obtain ⟨rfl, _⟩ := Gen.pure_ok swept
    exact .nil
  | cons c rest ih =>
    obtain ⟨_, outcome, u, others, first, later, rfl⟩ := sweepFrom_cons_ok swept
    obtain ⟨produced, unskipped⟩ := skippedOf_cons unskipped
    have poisedU := poised.after first
    have grown := (poisedU.grows later).2
    exact .cons ((poised.decides first produced).later grown.carries.knows grown.failures)
      (ih poisedU later unskipped)

/-- Decided candidates end as they are decided, and nothing changes. -/
theorem Poised.sweep_again (poised : Poised id x)
    (decided : List.Forall₂ (x.Decides env) candidates outcomes)
    (swept : sweepFrom (Links.upTo (depth + 1)) cancel index candidates env s = .ok outcomes t) :
    ∃ y, sweepFrom (Links.upTo (depth + 1)) cancel index candidates env x = .ok outcomes y ∧
      Rejoins id x x y [] := by
  induction candidates generalizing index s x outcomes with
  | nil =>
    cases decided
    exact ⟨x, rfl, poised, (List.append_nil _).symm, rfl, rfl, rfl, rfl⟩
  | cons c rest ih =>
    obtain ⟨unstopped, outcome, u, others, _, later, rfl⟩ := sweepFrom_cons_ok swept
    cases decided with
    | cons here there =>
    obtain ⟨y, again, rejoins⟩ := poised.again depth here
    have decided : List.Forall₂ (y.Decides env) rest others := by
      refine there.imp fun c outcome decides => decides.later (fun key known => ?_) ?_
      · rwa [State.Knows, rejoins.entry poised]
      · exact ⟨[], by rw [List.append_nil, rejoins.failures]⟩
    obtain ⟨z, againLater, rejoinsLater⟩ := ih rejoins.poised decided later
    refine ⟨z, ?_, rejoins.trans rejoinsLater⟩
    rw [sweepFrom_cons, if_neg unstopped, again]
    simp only [againLater]

/-- A sweep that has returned its report, with no candidate skipped, returns the same report again, but
    that nothing is produced by then. -/
theorem sweep_again {report : SweepReport} (rest : s.AtRest) (recalls : s.Recalls)
    (returns : sweep candidates cancel env s = .ok report t) (unskipped : report.skippedPlatform = []) :
    ∃ u, sweep candidates cancel env t = .ok { report with committedCount := 0 } u ∧
      u.ledger.committed = t.ledger.committed ∧ u.ledger.failures = t.ledger.failures := by
  obtain ⟨outcomes, w, swept, rfl, poised, closes⟩ := sweep_returned rest recalls returns
  have decided : List.Forall₂ (t.begun.Decides env) candidates outcomes := by
    refine ((Poised.begun rest recalls).sweep_decides swept unskipped).imp fun c outcome decides =>
      decides.later (fun key known => ?_) ?_
    · rwa [State.Knows, begun_entry closes.rest, closes.entry]
    · exact ⟨[], (List.append_nil _).trans (congrArg Table.entries closes.failures.symm)⟩
  obtain ⟨y, again, rejoins⟩ := (Poised.begun closes.rest closes.recalls).sweep_again decided swept
  obtain ⟨v, returned, _, closesAgain⟩ := sweep_closes closes.rest closes.recalls again
  have nothing : y.pending = [] := by rw [rejoins.pending, begun_pending, List.append_nil]
  refine ⟨v, ?_, ?_, closesAgain.failures.trans rejoins.failures⟩
  · rw [returned, nothing]
    rfl
  · rw [closesAgain.committed, nothing]
    exact rejoins.committed

/-! ## Names -/

section
variable {name : String} {asked : List (Except Failure Entity)} {answer : Bool}
  (asks : ∀ links s, Links.name links name env s =
    (asked.forM links.ask >>= fun _ => pure answer : Gen Bool) env s)
include asks

/-- What a name asks for, in a transaction of its own and counted. -/
theorem named_eq (rest : s.AtRest) :
    inTransaction (counted ((Links.upTo env.depth).name name)) env s =
      match asked.forM (Links.upTo env.depth).ask env s.begun with
      | .error e t => .error e
          { t with ledger := t.ledger.rollback s.ledger.transactions.size, current := none }
      | .ok _ t => match t.ledger.commit s.ledger.transactions.size with
        | .error e => .error (.ledger e) { t with current := none }
        | .ok l => .ok (answer, t.pending.length) { t with ledger := l, current := none } := by
  have stays : ∀ a t, (Links.upTo env.depth).name name env s.begun = .ok a t →
      t.current = some s.ledger.transactions.size := by
    intro a t named
    have ends := name_ends (upTo_sound (.any env) env.depth) (safe_any rest.calm).begun name
    rw [Discipline.Ends, Gen.Leads, named] at ends
    exact ends.2.1.current
  rw [counted_transaction_eq rest stays, asks, Gen.bind_eq]
  cases asked.forM (Links.upTo env.depth).ask env s.begun <;> rfl

/-- What a name has asked for is known, and is not produced when it is asked for again. -/
theorem named_again {found : Bool} {committed : Int} (rest : s.AtRest)
    (ended : inTransaction (counted ((Links.upTo env.depth).name name)) env s = .ok (found, committed) t) :
    ∃ u, inTransaction (counted ((Links.upTo env.depth).name name)) env t = .ok (found, 0) u ∧
      u.ledger.committed = t.ledger.committed ∧ u.ledger.failures = t.ledger.failures := by
  have turns := (inTransaction_turns rest (safe_any rest.calm) fun inside =>
    counted_ends inside fun _ sound => name_ends (upTo_sound (.any env) env.depth) sound name).leads
  rw [Gen.Leads, ended] at turns
  have restT := turns.rest
  rw [named_eq asks rest] at ended
  have produced : inTransaction (asked.forM (Links.upTo env.depth).ask) env s = .ok () t ∧
      found = answer := by
    rw [inTransaction_eq rest]
    cases inside : asked.forM (Links.upTo env.depth).ask env s.begun with
    | error e w =>
      rw [inside] at ended
      cases ended
    | ok a w =>
      cases closed : w.ledger.commit s.ledger.transactions.size with
      | error e =>
        simp only [inside, closed] at ended
        cases ended
      | ok l =>
        simp only [inside, closed] at ended
        cases ended
        simp only [closed, and_self]
  obtain ⟨produced, rfl⟩ := produced
  have again : asked.forM (Links.upTo env.depth).ask env t.begun = .ok () t.begun := by
    refine asks_again (begun_in t) fun a member => ?_
    obtain ⟨e, declarations, same, found⟩ := asked_durable rest produced a member
    have known : t.entry e.key = .committed declarations := (restT.produced_iff e.key _).mpr found
    exact ⟨e, declarations, same, (begun_entry restT e.key).trans known⟩
  obtain ⟨l, closed, failures, committed⟩ := (begun_gathers t).commit
  rw [begun_pending] at committed
  refine ⟨{ t.begun with ledger := l, current := none }, ?_, committed, failures⟩
  rw [named_eq asks restT, again]
  simp only [closed, begun_pending]
  rfl

end

/-- What a name has been found to stand for is found again, and nothing is produced by then. -/
theorem name_again {found : Bool} {committed : Int} (rest : s.AtRest) (name : String)
    (ended : inTransaction (counted ((Links.upTo env.depth).name name)) env s = .ok (found, committed) t) :
    ∃ u, inTransaction (counted ((Links.upTo env.depth).name name)) env t = .ok (found, 0) u ∧
      u.ledger.committed = t.ledger.committed ∧ u.ledger.failures = t.ledger.failures := by
  rcases name_asks env name with ⟨e, fails⟩ | ⟨asked, answer, asks⟩
  · have nothing : ∀ a t, (Links.upTo env.depth).name name env s.begun = .ok a t →
        t.current = some s.ledger.transactions.size := by
      intro a t named
      rw [fails] at named
      cases named
    rw [counted_transaction_eq rest nothing, fails] at ended
    cases ended
  · exact named_again asks rest ended

/-- What a line reports that asks for a name. -/
def SweepReport.named (name : String) (found : Bool) (committed : Int) : SweepReport where
  candidateCount := if found then 1 else 0
  committedCount := committed
  notFound := if found then [] else [name]

/-- Whether a line asks for one name: it has no star at its end and is no namespace. -/
def Environment.asksOne (env : Environment) (line : String) : Bool :=
  !ends "*" (strip line) && !env.index.hasNamespace (strip (strip line))

theorem request_named {line : String} (one : env.asksOne line = true) (s : State) :
    request line cancel env s =
      if Request.isDottedName (strip (strip line)).toList then
        match inTransaction (counted ((Links.upTo env.depth).name (strip (strip line)))) env s with
        | .ok (found, committed) t => .ok (.named (strip (strip line)) found committed) t
        | .error e t => .error e t
      else .error (.input (.invalidName (strip line))) s := by
  simp only [Environment.asksOne, Bool.and_eq_true, Bool.not_eq_true'] at one
  obtain ⟨starless, single⟩ := one
  have pointless : ends ".*" (strip line) = false := by
    by_contra starred
    rw [Bool.not_eq_false, ends, List.isSuffixOf_iff_suffix] at starred
    have star : "*".toList <:+ (strip line).toList := List.IsSuffix.trans ⟨['.'], rfl⟩ starred
    rw [ends, List.isSuffixOf_iff_suffix.mpr star] at starless
    cases starless
  unfold request
  simp only [pointless, starless, Bool.false_eq_true, if_false]
  unfold validName
  by_cases dotted : Request.isDottedName (strip (strip line)).toList
  · simp only [if_pos dotted]
    change (if env.index.hasNamespace (strip (strip line)) then _ else _ : Gen SweepReport) env s = _
    rw [single, if_neg Bool.false_ne_true, Gen.bind_eq, sessionLinks_eq]
    dsimp only
    rw [Gen.bind_eq]
    cases inTransaction (counted ((Links.upTo env.depth).name (strip (strip line)))) env s <;> rfl
  · simp only [if_neg dotted]
    rfl

/-! ## Requests that report -/

/-- A request that has returned its report is settled: asked again at once, it returns the same report,
    but that nothing is produced by then, and what is durable and what has failed stays as it is. This
    holds of a sweep that skips no candidate, and of a line that asks for one name, in each state
    between requests (`session_advances` and `session_recalls` tell that these are all at rest, and
    recall what has failed). -/
theorem reports_settle (env : Environment) (rest : s.AtRest) (recalls : s.Recalls) :
    (∀ (r : SweepRequest) cancel report t, r.run cancel env s = .ok report t →
      report.skippedPlatform = [] →
      ∃ u, r.run cancel env t = .ok { report with committedCount := 0 } u ∧
        u.ledger.committed = t.ledger.committed ∧ u.ledger.failures = t.ledger.failures) ∧
    ∀ line cancel report t, env.asksOne line = true → request line cancel env s = .ok report t →
      ∃ u, request line cancel env t = .ok { report with committedCount := 0 } u ∧
        u.ledger.committed = t.ledger.committed ∧ u.ledger.failures = t.ledger.failures := by
  constructor
  · intro r cancel report t returns unskipped
    rcases r.run_sweeps env with ⟨e, fails⟩ | ⟨candidates, sweeps⟩
    · rw [fails] at returns
      cases returns
    · rw [sweeps] at returns
      rw [sweeps]
      exact sweep_again rest recalls returns unskipped
  · intro line cancel report t one returns
    rw [request_named one] at returns
    by_cases dotted : Request.isDottedName (strip (strip line)).toList
    · rw [if_pos dotted] at returns
      cases ended : inTransaction (counted ((Links.upTo env.depth).name (strip (strip line)))) env s with
      | error e u =>
        rw [ended] at returns
        cases returns
      | ok found u =>
        rw [ended] at returns
        obtain ⟨rfl, rfl⟩ := EStateM.Result.ok.inj returns
        obtain ⟨v, again, unaltered⟩ := name_again rest _ ended
        refine ⟨v, ?_, unaltered⟩
        rw [request_named one, if_pos dotted, again]
        rfl
    · rw [if_neg dotted] at returns
      cases returns

/-- A module of a function that fails and another one is swept again, and the function that does not
    fail is asked for again. -/
theorem reports_settle_module :
    let env := Environment.reading [mixedDocument]
    let thing := SweepRequest.ofModule "thing"
    State.AtRest {} ∧ State.Recalls {} ∧
      (∃ report t u, thing.run none env {} = .ok report t ∧ report.skippedPlatform = [] ∧
        report.committedCount = 2 ∧ report.failures.map (·.1) = ["Ns.Break"] ∧
        thing.run none env t = .ok { report with committedCount := 0 } u ∧
        u.ledger.committed = t.ledger.committed ∧ u.ledger.failures = t.ledger.failures) ∧
      ∃ report t u, env.asksOne "Draw" = true ∧ request "Draw" none env {} = .ok report t ∧
        report.committedCount = 2 ∧
        request "Draw" none env t = .ok { report with committedCount := 0 } u ∧
        u.ledger.committed = t.ledger.committed ∧ u.ledger.failures = t.ledger.failures := by
  intro env thing
  obtain ⟨sweeps, lines⟩ := reports_settle env .empty .empty
  refine ⟨.empty, .empty, ?_, ?_⟩
  · have run : thing.run none env {} = _ :=
      requestModule_sorted (by decide +kernel) rfl (by decide +kernel)
    have swept : Gen.gives env {} (thing.run none) (fun report => report.skippedPlatform = [] ∧
        report.committedCount = 2 ∧ report.failures.map (·.1) = ["Ns.Break"]) = true := by
      rw [Gen.gives, run]
      decide +kernel
    obtain ⟨report, t, returns, shape⟩ := Gen.gives_ok swept
    obtain ⟨unskipped, committed, failed⟩ := of_decide_eq_true shape
    obtain ⟨u, again⟩ := sweeps thing none report t returns unskipped
    exact ⟨report, t, u, returns, unskipped, committed, failed, again⟩
  · have one : env.asksOne "Draw" = true := by decide +kernel
    have asked : Gen.gives env {} (request "Draw" none) (·.committedCount = 2) = true := by decide +kernel
    obtain ⟨report, t, returns, committed⟩ := Gen.gives_ok asked
    obtain ⟨u, again⟩ := lines "Draw" none report t one returns
    exact ⟨report, t, u, one, returns, of_decide_eq_true committed, again⟩

end Bindings
