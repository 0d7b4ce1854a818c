import Bindings.Proofs.Generation.Source
import Bindings.Proofs.Request.Failures
import Bindings.Proofs.Request.Termination

/-!
# Where durable declarations come from

Whatever a session has committed has a source: the producer of an entity gave the declarations, in an
open transaction and with a memory that was right. This holds inside of requests at any time, and
rolling back leaves it so.
-/

namespace Bindings
open Bindings.Metadata

variable {env : Environment} {U : Upkeep env} {α : Type} {s t : State} {id : TransactionId}

/-! ## Sources in a state -/

/-- What is remembered is right, and what has been produced has a source. -/
structure Grounded (U : Upkeep env) (s : State) : Prop where
  holds : U.Holds s
  sources : ∀ key declarations, s.entry key = .committed declarations → Sourced U s (key, declarations)

/-- In a new session nothing has been produced. -/
theorem Grounded.init (holds : U.Holds {}) : Grounded U {} where
  holds := holds
  sources key declarations found := by
    have nothing : State.entry {} key = .notStarted := rfl
    rw [nothing] at found
    cases found

theorem Grounded.alike (grounded : Grounded U s) (memory : t.memory = s.memory)
    (entry : ∀ key, t.entry key = s.entry key) : Grounded U t where
  holds := U.alike grounded.holds memory
  sources key declarations found := by
    rw [entry] at found
    refine (grounded.sources key declarations found).later (.of_memory (fun other known => ?_) memory)
    rwa [State.Knows, entry]

/-- More is produced from sources. -/
theorem Grounded.produced (grounded : Grounded U s) (inside : s.In id) (carries : Carries s t)
    {more : List Completion} (produces : Produces id s t more) (holds : U.Holds t)
    (sourced : ∀ c ∈ more, Sourced U t c) : Grounded U t where
  holds := holds
  sources key declarations found := by
    rw [produces.entry inside] at found
    cases completed : Table.lookupIn key more with
    | some others =>
      rw [completed] at found
      obtain rfl := Entry.committed.inj found
      exact sourced _ (Table.mem_of_lookupIn completed)
    | none =>
      rw [completed] at found
      exact (grounded.sources key declarations found).later carries

/-- What is produced is among the completions, or it is durable. -/
theorem State.Layered.entry_eq_committed_iff (layered : s.Layered) {key : EntityKey}
    {declarations : List Declaration} : s.entry key = .committed declarations ↔
      (Table.lookupIn key s.pending).or (s.ledger.committed.get? key) = some declarations := by
  rw [layered]
  cases Table.lookupIn key s.pending with
  | some others => simp
  | none =>
    cases durable : s.ledger.committed.get? key with
    | some others => simp [Ledger.entry, durable]
    | none => cases failed : s.ledger.failures.get? key <;> simp [Ledger.entry, durable, failed]

theorem State.Layered.knows_iff (layered : s.Layered) {key : EntityKey} :
    s.Knows key ↔ ∃ declarations, s.entry key = .committed declarations := by
  have landed : s.entry key ≠ .inFlight := by
    rw [layered]
    cases Table.lookupIn key s.pending with
    | some others => simp
    | none =>
      cases durable : s.ledger.committed.get? key with
      | some others => simp [Ledger.entry, durable]
      | none => cases failed : s.ledger.failures.get? key <;> simp [Ledger.entry, durable, failed]
  simp [State.knows_iff, landed]

/-- Sources depend on completions, on the durable record and on answers, not on failures. -/
theorem Grounded.layered (grounded : Grounded U s) (before : s.Layered) (after : t.Layered)
    (pending : t.pending = s.pending) (committed : t.ledger.committed = s.ledger.committed)
    (conforms : ∀ d answer, s.Conforms d answer → t.Conforms d answer)
    (judges : ∀ d verdict, s.Judges d verdict → t.Judges d verdict) (holds : U.Holds t) :
    Grounded U t := by
  have same : ∀ key declarations,
      t.entry key = .committed declarations ↔ s.entry key = .committed declarations := by
    intro key declarations
    rw [before.entry_eq_committed_iff, after.entry_eq_committed_iff, pending, committed]
  have knows : ∀ key, s.Knows key → t.Knows key := by
    intro key known
    obtain ⟨others, produced⟩ := before.knows_iff.mp known
    exact after.knows_iff.mpr ⟨others, (same key others).mpr produced⟩
  exact ⟨holds, fun key declarations found =>
    (grounded.sources key declarations ((same key declarations).mp found)).later ⟨knows, conforms, judges⟩⟩

/-! ## Sweeps -/

/-- What holds in a sweep between two candidates. -/
structure Tracked (U : Upkeep env) (id : TransactionId) (s : State) : Prop extends s.Gathers id where
  grounded : Grounded U s

/-- A sweep keeps what each of its candidates keeps. -/
theorem sweepFrom_leads {I : State → Prop} {links : Links} (cancel : Cancellation) (index : Nat)
    {candidates : List Candidate} (each : ∀ c ∈ candidates, ∀ s, I s →
      Gen.Leads env s (sweepCandidate links c) (fun _ => I) I) (holds : I s) :
    Gen.Leads env s (sweepFrom links cancel index candidates) (fun _ => I) I := by
  induction candidates generalizing index s with
  | nil => exact holds
  | cons c rest ih =>
    unfold sweepFrom
    refine .bind (.steady (checkCancelled_fixed cancel index) (Q := fun _ => I) (fun _ _ => holds) holds) ?_
    intro _ t holds
    refine .bind (each c (by simp) t holds) fun outcome u holds => ?_
    refine .bind (ih (index + 1) (fun c member => each c (List.mem_cons_of_mem _ member)) holds) ?_
    exact fun outcomes v holds => .pure holds

/-- A candidate that has been produced leaves the sweep tracked. -/
theorem Tracked.produced (tracked : Tracked U id s) (carries : Carries (s.split id) t)
    {more : List Completion} (produces : Produces s.ledger.transactions.size (s.split id) t more)
    (holds : U.Holds t) (sourced : ∀ c ∈ more, Sourced U t c) :
    ∃ l, t.ledger.commit s.ledger.transactions.size = .ok l ∧
      Tracked U id { t with ledger := l, current := some id } := by
  obtain ⟨l, committed, gathers, pending, durable, failures⟩ := tracked.toGathers.fold produces
  have inside := split_in s id
  have grounded : Grounded U (s.split id) := tracked.grounded.alike rfl tracked.toIn.split_entry
  exact ⟨l, committed, gathers, (grounded.produced inside carries produces holds sourced).alike rfl
    (tracked.toGathers.fold_entry produces gathers pending durable failures)⟩

section
variable (consistent : env.index.Consistent)
include consistent

/-- A candidate of a sweep leaves it tracked. -/
theorem Tracked.candidate (depth : Nat) (tracked : Tracked U id s) {c : Candidate} (offers : Offers env c) :
    Gen.Leads env s (sweepCandidate (Links.upTo depth) c) (fun _ => Tracked U id) (Tracked U id) := by
  have traces : Traces U _ ((Links.upTo depth).candidate c) :=
    candidate_matches (traced_linked consistent U depth) fun d chosen => .candidate offers chosen
  have leads := traces _ _ (split_in s id) (U.alike tracked.grounded.holds rfl)
  have ends : Discipline.Ends _ (s.split id) ((Links.upTo depth).candidate c) _ :=
    candidate_ends (upTo_sound (.any env) depth)
      ((safe_any (U.calm tracked.grounded.holds)).split id) fun _ _ => trivial
  unfold Discipline.Ends Gen.Leads at ends
  unfold Gen.Leads at leads ⊢
  rw [sweepCandidate_eq, inSavepoint_eq tracked.toIn]
  cases ended : (Links.upTo depth).candidate c env (s.split id) with
  | ok a t =>
    rw [ended] at leads
    obtain ⟨holds, _, carries, more, produces, sourced⟩ := leads
    obtain ⟨l, committed, after⟩ := tracked.produced carries produces holds sourced
    simp only [committed]
    exact after
  | error e t =>
    rw [ended] at leads ends
    obtain ⟨gathers, pending, committed, _⟩ := tracked.toGathers.unfold ends.2 rfl
    have after : Tracked U id { t with
        ledger := t.ledger.rollback s.ledger.transactions.size, current := some id } :=
      ⟨gathers, tracked.grounded.layered tracked.layered gathers.layered pending committed
        ends.2.conforms ends.2.judges (U.alike leads rfl)⟩
    dsimp only
    cases e.conclusion c with
    | ok outcome => exact after
    | error other => exact after

end

/-! ## Requests -/

/-- What a computation in a transaction produces has a source. -/
theorem Tracked.traced {x : Gen α} {P : α → Prop} (traces : Traces U P x) (tracked : Tracked U id s) :
    Gen.Leads env s x (fun _ => Tracked U id) U.Holds := by
  refine (traces id s tracked.toIn tracked.grounded.holds).imp ?_ fun _ holds => holds
  rintro _ t ⟨holds, _, carries, more, produces, sourced⟩
  exact ⟨(tracked.toGathers.produced produces).1,
    tracked.grounded.produced tracked.toIn carries produces holds sourced⟩

section
variable (consistent : env.index.Consistent)
include consistent

/-- What work in a transaction produces has a source. -/
theorem Tracked.work {cancel : Cancellation} {work : Work} (offered : work.Offered env cancel)
    (depth : Nat) (tracked : Tracked U id s) :
    Gen.Leads env s (work.run (Links.upTo depth)) (fun _ => Tracked U id) U.Holds := by
  have linked := traced_linked consistent U depth
  cases work with
  | name text =>
    have traces : Traces U _ ((Links.upTo depth).name text) := name_matches linked (groupsOf_regular text)
    exact tracked.traced (P := fun _ => True) (traces.bind fun _ _ => .pure trivial)
  | template t =>
    obtain ⟨name, held⟩ := offered
    have traces : Traces U _ ((Links.upTo depth).demand (.template t)) :=
      linked.demand _ (.template held)
    exact tracked.traced traces
  | sweep candidates other =>
    have swept : Gen.Leads env s (sweepFrom (Links.upTo depth) other 0 candidates)
        (fun _ => Tracked U id) (Tracked U id) :=
      sweepFrom_leads other 0 (fun c member _ tracked => tracked.candidate consistent depth
        (offered.1 c member)) tracked
    exact .bind (swept.imp (fun _ _ tracked => tracked) fun _ tracked => tracked.grounded.holds)
      fun _ _ tracked => .pure tracked

omit consistent in
/-- Closing an outermost transaction leaves what is durable with its sources. -/
theorem Grounded.inTransaction (rest : s.AtRest) (grounded : Grounded U s) {x : Gen α}
    (ends : (Discipline.any env).Ends s.begun x fun _ _ => True)
    (leads : Gen.Leads env s.begun x (fun _ => Tracked U s.ledger.transactions.size) U.Holds) :
    Gen.Leads env s (inTransaction x) (fun _ => Grounded U) (Grounded U) := by
  have turns := (inTransaction_turns rest (safe_any rest.calm) fun _ => ends).leads
  unfold Discipline.Ends at ends
  unfold Gen.Leads at leads ends turns ⊢
  rw [inTransaction_eq rest] at turns ⊢
  cases ended : x env s.begun with
  | ok a t =>
    rw [ended] at leads
    obtain ⟨l, committed, failures, durable⟩ := leads.toGathers.commit
    simp only [committed]
    exact leads.grounded.alike rfl (leads.toGathers.entry_commit failures durable)
  | error e t =>
    rw [ended] at leads ends turns
    dsimp only at turns ⊢
    refine grounded.layered rest.layered turns.1.rest.layered ?_ turns.2 ends.2.conforms ends.2.judges
      (U.alike leads rfl)
    simp [State.pending, rest.current]

omit consistent in
/-- After a request there is what it leads to, whether it fails or not. -/
theorem PublicRequest.after_leads {r : PublicRequest} {Q : State → Prop}
    (leads : Gen.Leads env s r.run (fun _ => Q) Q) : Q (r.after env s) := by
  unfold Gen.Leads at leads
  unfold PublicRequest.after
  cases ended : r.run env s with
  | ok a t | error e t =>
    rw [ended] at leads
    exact leads

/-- After a request all that is durable has a source, whether the request fails or not. -/
theorem Grounded.after (rest : s.AtRest) (grounded : Grounded U s) (r : PublicRequest) :
    Grounded U (r.after env s) := by
  refine PublicRequest.after_leads ?_
  unfold Gen.Leads
  rw [run_eq rest, PublicRequest.runOn, Gen.read_bind]
  cases asked : r.work env with
  | error e => exact grounded
  | ok work =>
    have begun : Tracked U s.ledger.transactions.size s.begun :=
      ⟨begun_gathers s, grounded.alike rfl (begun_entry rest)⟩
    have offered := work_gives r work asked
    exact grounded.inTransaction rest
      (Work.ends (upTo_sound _ env.depth) (safe_any rest.calm).begun offered)
      (begun.work consistent offered env.depth)

/-- All that a session has made durable has a source. -/
theorem session_grounded (holds : U.Holds {}) (requests : List PublicRequest) :
    Grounded U (env.session requests) := by
  have all : ∀ (requests : List PublicRequest) (s : State), s.AtRest → Grounded U s →
      Grounded U (requests.foldl (PublicRequest.after env) s) := by
    intro requests
    induction requests with
    | nil => exact fun _ _ grounded => grounded
    | cons r requests ih =>
      intro s rest grounded
      have safe : (Discipline.any env).Safe s := safe_any rest.calm
      exact ih _ (after_advances rest safe r).rest (grounded.after consistent rest r)
  exact all requests {} .empty (.init holds)

theorem session_sourced (holds : U.Holds {}) (requests : List PublicRequest) {key : EntityKey}
    {declarations : List Declaration}
    (found : (env.session requests).ledger.committed.get? key = some declarations) :
    Sourced U (env.session requests) (key, declarations) := by
  have rest := (session_advances (.any env) requests).rest
  exact (session_grounded consistent holds requests).sources key declarations
    ((rest.produced_iff key declarations).mpr found)

end
end Bindings
