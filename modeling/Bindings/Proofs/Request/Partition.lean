import Bindings.Proofs.Request.Confinement
import Bindings.Proofs.Request.Source
import Bindings.Proofs.Request.Tally

/-!
# Turns of a sweep

The candidates of a sweep have their turns one after the other. A candidate that is produced adds what
its production has completed to what becomes durable, and nothing else does. What a failed candidate
asks for is not durable after the sweep. What a skipped candidate asks for is not durable at its turn,
but a candidate that comes later may have it produced.
-/

namespace Bindings
open Bindings.Metadata

variable {env : Environment} {s t u v : State} {id : TransactionId} {c : Candidate}
  {outcome : CandidateOutcome} {outcomes : List CandidateOutcome} {candidates : List Candidate}
  {cancel : Cancellation} {index : Nat}

/-! ## Turns -/

/-- How a candidate of a sweep has ended, and what its production has completed. -/
structure Turn where
  outcome : CandidateOutcome
  share : List Completion

/-- The keys of what a candidate has completed. -/
def Turn.keys (turn : Turn) : List EntityKey := turn.share.map (·.1)

/-- A candidate of a sweep has its turn. What it completes is added to what the sweep has completed, and
    that is nothing unless the candidate is produced. -/
structure Turn.Leads (env : Environment) (c : Candidate) (turn : Turn) (s t : State) : Prop where
  ends : sweepCandidate (Links.upTo env.depth) c env s = .ok turn.outcome t
  adds : t.pending = s.pending ++ turn.share
  silent : turn.outcome ≠ .produced → turn.share = []
  committed : t.ledger.committed = s.ledger.committed

/-- Candidates of a sweep have their turns one after the other. -/
inductive Course (env : Environment) : State → List Candidate → List Turn → State → Prop
  | nil (s : State) : Course env s [] [] s
  | cons {s t u : State} {c : Candidate} {rest : List Candidate} {turn : Turn} {turns : List Turn}
      (leads : turn.Leads env c s t) (later : Course env t rest turns u) :
      Course env s (c :: rest) (turn :: turns) u

namespace Course
variable {turns : List Turn}

theorem length (course : Course env s candidates turns u) : turns.length = candidates.length := by
  induction course with
  | nil => rfl
  | cons _ _ ih => simp [ih]

theorem committed (course : Course env s candidates turns u) :
    u.ledger.committed = s.ledger.committed := by
  induction course with
  | nil => rfl
  | cons leads _ ih => exact ih.trans leads.committed

theorem pending (course : Course env s candidates turns u) :
    u.pending = s.pending ++ turns.flatMap (·.share) := by
  induction course with
  | nil => simp
  | cons leads _ ih => rw [ih, leads.adds, List.append_assoc, List.flatMap_cons]

theorem silent (course : Course env s candidates turns u) {turn : Turn} (member : turn ∈ turns)
    (unproduced : turn.outcome ≠ .produced) : turn.share = [] := by
  induction course with
  | nil => cases member
  | cons leads _ ih =>
    rcases List.mem_cons.mp member with rfl | later
    · exact leads.silent unproduced
    · exact ih later

end Course

/-- A candidate that has ended in a sweep has had its turn. -/
theorem Poised.turn (poised : Poised id s)
    (swept : sweepCandidate (Links.upTo env.depth) c env s = .ok outcome t) :
    ∃ share, Turn.Leads env c ⟨outcome, share⟩ s t := by
  rcases poised.candidate_cases swept with ⟨w, _, rfl, rejoins, _⟩ | ⟨_, _, _, _, rejoins⟩
  · exact ⟨w.pending, swept, rejoins.pending, fun unproduced => absurd rfl unproduced, rejoins.committed⟩
  · exact ⟨[], swept, rejoins.pending, fun _ => rfl, rejoins.committed⟩

/-! ## Known keys -/

/-- What is known has been completed, or is durable. -/
theorem State.Layered.knows_mem (layered : s.Layered) (key : EntityKey) :
    s.Knows key ↔ key ∈ s.pending.map (·.1) ∨ key ∈ s.ledger.committed.keys := by
  rw [layered.knows_iff, layered key]
  cases completed : Table.lookupIn key s.pending with
  | some declarations =>
    have there : key ∈ s.pending.map (·.1) := List.mem_map_of_mem (Table.mem_of_lookupIn completed)
    simp [there]
  | none =>
    have absent : key ∉ s.pending.map (·.1) := (Table.lookupIn_eq_none_iff key _).mp completed
    cases found : s.ledger.committed.get? key with
    | some declarations =>
      have there : key ∈ s.ledger.committed.keys := List.mem_map_of_mem (Table.mem_of_lookupIn found)
      simp [Ledger.entry, found, there]
    | none =>
      have missing : key ∉ s.ledger.committed.keys := (Table.get?_eq_none_iff _ key).mp found
      cases failed : s.ledger.failures.get? key <;> simp [Ledger.entry, found, failed, absent, missing]

/-- What a candidate has failed with is of nothing that is known. -/
theorem State.Decides.unknown (recalls : s.Recalls) {name message : String}
    (decides : s.Decides env c (.failed name message)) :
    ∀ e, env.askedBy c = .ok e → ¬ s.Knows e.key := by
  intro e asked known
  cases decides with
  | nothing failed => cases asked.symm.trans failed
  | recorded other failed =>
    obtain rfl := Except.ok.inj (asked.symm.trans other)
    rw [State.Knows, (recalls.told e.key _).mpr failed] at known
    cases known

/-- A candidate that is skipped asks for nothing that is known at its turn. -/
theorem Poised.skipped_unknown (poised : Poised id s) {name : String}
    (swept : sweepCandidate (Links.upTo env.depth) c env s = .ok (.skipped name) t) :
    ∀ e, env.askedBy c = .ok e → ¬ s.Knows e.key := by
  intro e asked known
  obtain ⟨_, produced, _⟩ := poised.again _ (.produced asked known)
  cases produced.symm.trans swept

/-! ## After the sweep -/

/-- How a candidate stands after a sweep, with the turns after its own, where some keys are held. -/
inductive Turn.Stands (env : Environment) (Held : EntityKey → Prop) (later : List Turn) (c : Candidate) :
    Turn → Prop
  | produced {e : Entity} {share : List Completion} (asked : env.askedBy c = .ok e) (held : Held e.key) :
      Stands env Held later c ⟨.produced, share⟩
  | failed (message : String) (never : ∀ e, env.askedBy c = .ok e → ¬ Held e.key) :
      Stands env Held later c ⟨.failed c.1 message, []⟩
  | skipped (overtaken : ∀ e, env.askedBy c = .ok e → Held e.key →
        ∃ turn ∈ later, turn.outcome = .produced ∧ e.key ∈ turn.keys) :
      Stands env Held later c ⟨.skipped c.1, []⟩

theorem Turn.Stands.congr {Held Kept : EntityKey → Prop} (same : ∀ key, Held key ↔ Kept key)
    {later : List Turn} {turn : Turn} (stands : turn.Stands env Held later c) :
    turn.Stands env Kept later c := by
  obtain rfl : Held = Kept := funext fun key => propext (same key)
  exact stands

/-- What a skipped candidate asks for is completed by a later candidate if it is known in the end. -/
theorem Course.overtaken {turns : List Turn} (course : Course env s candidates turns u)
    (layered : s.Layered) (ended : u.Layered) {key : EntityKey} (unknown : ¬ s.Knows key)
    (known : u.Knows key) : ∃ turn ∈ turns, turn.outcome = .produced ∧ key ∈ turn.keys := by
  rw [layered.knows_mem, not_or] at unknown
  rw [ended.knows_mem, course.pending, course.committed, List.map_append, List.mem_append] at known
  obtain ⟨completion, shared, rfl⟩ :=
    List.mem_map.mp ((known.resolve_right unknown.2).resolve_left unknown.1)
  obtain ⟨turn, member, inside⟩ := List.mem_flatMap.mp shared
  refine ⟨turn, member, ?_, List.mem_map_of_mem inside⟩
  by_contra unproduced
  rw [course.silent member unproduced] at inside
  cases inside

/-- A candidate that has had its turn stands as it has ended, whatever the sweep has come to since. -/
theorem Poised.stands (poised : Poised id s) {turn : Turn} {turns : List Turn} {rest : List Candidate}
    (leads : turn.Leads env c s t) (course : Course env t rest turns u) (ended : Poised id u)
    (grown : Extends t u) : turn.Stands env u.Knows turns c := by
  obtain ⟨outcome, share⟩ := turn
  have poisedT := poised.after leads.ends
  have whole : Course env s (c :: rest) (⟨outcome, share⟩ :: turns) u := .cons leads course
  cases poised.concludes leads.ends with
  | produced asked held => exact .produced asked (grown.carries.knows _ held)
  | failed message =>
    obtain rfl : share = [] := leads.silent nofun
    have decides := (poised.decides leads.ends nofun).later grown.carries.knows grown.failures
    exact .failed message (decides.unknown ended.recalls)
  | skipped =>
    obtain rfl : share = [] := leads.silent nofun
    refine .skipped fun e asked known => ?_
    have unknown := poised.skipped_unknown leads.ends e asked
    obtain ⟨turn, member, produced, completed⟩ :=
      whole.overtaken poised.layered ended.layered unknown known
    rcases List.mem_cons.mp member with rfl | later
    · cases produced
    · exact ⟨turn, later, produced, completed⟩

/-- All candidates of a sweep have their turns, and stand as they have ended. -/
theorem Poised.course (poised : Poised id s)
    (swept : sweepFrom (Links.upTo env.depth) cancel index candidates env s = .ok outcomes u) :
    ∃ turns, Course env s candidates turns u ∧ turns.map (·.outcome) = outcomes ∧
      ∀ i c (turn : Turn), candidates[i]? = some c → turns[i]? = some turn →
        turn.Stands env u.Knows (turns.drop (i + 1)) c := by
  induction candidates generalizing index s outcomes with
  | nil =>
    obtain ⟨rfl, rfl⟩ := Gen.pure_ok swept
    exact ⟨[], .nil s, rfl, fun i c turn found => by simp at found⟩
  | cons c rest ih =>
    obtain ⟨_, outcome, t, others, first, later, rfl⟩ := sweepFrom_cons_ok swept
    have poisedT := poised.after first
    obtain ⟨ended, grown⟩ := poisedT.grows later
    obtain ⟨share, leads⟩ := poised.turn first
    obtain ⟨turns, course, rfl, stands⟩ := ih poisedT later
    refine ⟨⟨outcome, share⟩ :: turns, .cons leads course, rfl, fun i d turn found had => ?_⟩
    cases i with
    | zero =>
      cases found
      cases had
      exact poised.stands leads course ended grown
    | succ i => exact stands i d turn found had

/-! ## Reports -/

/-- A report divides the candidates of a sweep by their turns. Skipped ones and failed ones are listed in
    their order. What becomes durable is what the candidates have completed at their turns. Each candidate
    stands in one of three ways: what it asks for is durable, or it is listed as failed and what it asks
    for is not durable, or it is listed as skipped. What a skipped candidate asks for is not durable
    either, unless a candidate that has been produced later has completed it. -/
structure SweepReport.Divides (env : Environment) (s t : State) (candidates : List Candidate)
    (turns : List Turn) (report : SweepReport) : Prop where
  course : ∃ u, Course env s.begun candidates turns u ∧ Closes u t
  count : turns.length = candidates.length
  skipped : report.skippedPlatform = skippedOf (turns.map (·.outcome))
  failures : report.failures = failuresOf (turns.map (·.outcome))
  added : t.ledger.committed.entries = s.ledger.committed.entries ++ turns.flatMap (·.share)
  silent : ∀ turn ∈ turns, turn.outcome ≠ .produced → turn.share = []
  stands : ∀ i c (turn : Turn), candidates[i]? = some c → turns[i]? = some turn →
    turn.Stands env (· ∈ t.ledger.committed.keys) (turns.drop (i + 1)) c

/-- What an outermost transaction has completed becomes durable, each thing once. -/
theorem Closes.added (closes : Closes u t) (poised : Poised id u) (tidy : Tidy id u) :
    t.ledger.committed.entries = u.ledger.committed.entries ++ u.pending := by
  obtain ⟨x, found, _⟩ := poised.toGathers.notes
  have distinct : (u.pending.map (·.1)).Nodup := by
    rw [poised.pending_eq found]
    exact (tidy.fits x found).distinct
  rw [closes.committed, Table.entries_foldl_putNew distinct poised.fresh]

/-- A sweep that returns its report divides its candidates by their turns. -/
theorem sweep_divides (rest : s.AtRest) (recalls : s.Recalls) (candidates : List Candidate)
    (cancel : Cancellation) (report : SweepReport) (t : State)
    (returns : sweep candidates cancel env s = .ok report t) :
    ∃ turns, report.Divides env s t candidates turns := by
  obtain ⟨outcomes, u, swept, rfl, poised, closes⟩ := sweep_returned rest recalls returns
  obtain ⟨turns, course, rfl, stands⟩ := (Poised.begun rest recalls).course swept
  have clean : Clean env s.ledger.transactions.size s.begun := .begun rest
  have tidy : Tidy s.ledger.transactions.size u := by
    have leads := (clean.sweep .cancelled env.depth cancel 0 candidates).2
    rw [Gen.Leads, swept] at leads
    exact leads.toTidy
  have known : ∀ key, u.Knows key ↔ key ∈ t.ledger.committed.keys := by
    intro key
    rw [poised.layered.knows_mem, Table.keys, Table.keys, closes.added poised tidy, List.map_append,
      List.mem_append, or_comm]
  refine ⟨turns, ⟨u, course, closes⟩, course.length, rfl, rfl, ?_, fun turn => course.silent,
    fun i c turn found had => (stands i c turn found had).congr known⟩
  rw [closes.added poised tidy, course.pending, course.committed, begun_pending]
  rfl

/-- A sweep with candidates of all three ways: two are produced, two fail and one is skipped. -/
theorem sweep_divides_mixed :
    let env := Environment.reading [mixedDocument]
    let candidates := env.candidatesOf ["Ns.Draw", "Ns.Break", "Ns.CONTEXT", "Ns.BROKEN", "Ns.POINT"]
    State.AtRest {} ∧ State.Recalls {} ∧ ∃ report t, sweep candidates none env {} = .ok report t ∧
      report.skippedPlatform = ["Ns.CONTEXT"] ∧
      report.failures.map (·.1) = ["Ns.Break", "Ns.BROKEN"] ∧
      ∃ turns, report.Divides env {} t candidates turns := by
  intro env candidates
  have swept : Gen.gives env {} (sweep candidates none) (fun report =>
      report.skippedPlatform = ["Ns.CONTEXT"] ∧
        report.failures.map (·.1) = ["Ns.Break", "Ns.BROKEN"]) = true := by decide +kernel
  obtain ⟨report, t, returns, shape⟩ := Gen.gives_ok swept
  obtain ⟨skipped, failed⟩ := of_decide_eq_true shape
  exact ⟨.empty, .empty, report, t, returns, skipped, failed,
    sweep_divides .empty .empty candidates none report t returns⟩

/-- Two structs that hold each other, where the field of one is of a type of another platform that is
    replaced by its name, and the other one holds a delegate. -/
def replacedDocuments : List Markup.Element := [
  oneNamespace "Windows.Win32.Foundation" [⟨"struct", [("name", "Guid"), ("arch", "arm64")], "", []⟩],
  oneNamespace "Ns" [
    ⟨"struct", [("name", "HEAD")], "",
      [⟨"field", [("name", "tail"), ("type", "TAIL")], "", []⟩,
        ⟨"field", [("name", "call"), ("type", "CALL")], "", []⟩]⟩,
    ⟨"struct", [("name", "TAIL")], "",
      [⟨"field", [("name", "head"), ("type", "HEAD")], "", []⟩,
        ⟨"field", [("name", "id"), ("type", "Windows.Win32.Foundation.Guid")], "", []⟩]⟩,
    ⟨"delegate", [("name", "CALL"), ("returns", "void")], "", []⟩]]

/-- The key of what a candidate asks for. -/
def Environment.keyAskedBy? (env : Environment) (c : Candidate) : Option EntityKey :=
  (env.askedBy c).toOption.map Entity.key

theorem Environment.keyAskedBy?_eq_some {key : EntityKey} (found : env.keyAskedBy? c = some key) :
    ∃ e, env.askedBy c = .ok e ∧ e.key = key := by
  unfold Environment.keyAskedBy? at found
  cases asked : env.askedBy c with
  | error e =>
    rw [asked] at found
    cases found
  | ok e =>
    rw [asked] at found
    exact ⟨e, rfl, Option.some.inj found⟩

/-- A candidate is listed as skipped, and what it asks for is durable after the sweep: the candidate
    after it has had it produced. -/
theorem skipped_durable :
    let env := Environment.reading replacedDocuments
    let candidates := env.candidatesOf ["Ns.CALL", "Ns.HEAD", "Ns.TAIL"]
    State.AtRest {} ∧ State.Recalls {} ∧ ∃ report t c e, sweep candidates none env {} = .ok report t ∧
      candidates[1]? = some c ∧ env.askedBy c = .ok e ∧ report.skippedPlatform = [c.1] ∧
      e.key ∈ t.ledger.committed.keys := by
  intro env candidates
  have head : candidates[1]?.bind env.keyAskedBy? = some ⟨.type, ⟨"Ns", "HEAD"⟩, false⟩ := by
    decide +kernel
  obtain ⟨c, second, asked⟩ := Option.bind_eq_some_iff.mp head
  obtain ⟨e, asked, key⟩ := Environment.keyAskedBy?_eq_some asked
  have named : candidates[1]?.map (·.1) = some "Ns.HEAD" := by decide +kernel
  have swept : (match sweep candidates none env {} with
      | .ok report t => decide (report.skippedPlatform = ["Ns.HEAD"] ∧
          ⟨.type, ⟨"Ns", "HEAD"⟩, false⟩ ∈ t.ledger.committed.keys)
      | .error .. => false) = true := by decide +kernel
  have name : c.1 = "Ns.HEAD" := by
    rw [second] at named
    exact Option.some.inj named
  cases ended : sweep candidates none env {} with
  | error e t =>
    rw [ended] at swept
    cases swept
  | ok report t =>
    rw [ended] at swept
    obtain ⟨skipped, durable⟩ := of_decide_eq_true swept
    refine ⟨.empty, .empty, report, t, c, e, rfl, second, asked, ?_, key ▸ durable⟩
    rw [skipped, name]

end Bindings
