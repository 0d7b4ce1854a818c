import Bindings.Proofs.Request.Settlement
import Bindings.Proofs.Request.Termination

/-!
# Failures stay with their candidates

Whatever a candidate of a sweep comes to, a failure that is due to the metadata is caught where the
candidate ends, and the sweep goes on. Only what is asked for can be at fault otherwise, and in the
production of an entity only a template asks for names: a sweep that is not cancelled returns its
report, unless a name that a template requires belongs to several namespaces.
-/

namespace Bindings
open Bindings.Metadata Bindings.Text

variable {env : Environment} {α β : Type} {s t : State} {id : TransactionId}

/-! ## Failures of a kind -/

/-- A computation fails in no state but for a reason that is fine. -/
def Gen.Raises (Fine : Failure → Prop) (env : Environment) (x : Gen α) : Prop :=
  ∀ s e t, x env s = .error e t → Fine e

namespace Gen.Raises
variable {Fine : Failure → Prop} {x : Gen α}

theorem congr {y : Gen α} (alike : ∀ s, x env s = y env s) (raises : Gen.Raises Fine env y) :
    Gen.Raises Fine env x :=
  fun s e t failed => raises s e t ((alike s).symm.trans failed)

theorem apart (apart : Gen.Apart Fine env x) : Gen.Raises Fine env x := by
  intro s e t failed
  obtain ⟨result, n, fine, ends⟩ := apart s.memory
  rw [ends s rfl] at failed
  cases result with
  | ok a => cases failed
  | error f =>
    cases failed
    exact fine e rfl

theorem imp {Allowed : Failure → Prop} (raises : Gen.Raises Fine env x) (implies : ∀ e, Fine e → Allowed e) :
    Gen.Raises Allowed env x :=
  fun s e t failed => implies e (raises s e t failed)

theorem pure (a : α) : Gen.Raises Fine env (pure a : Gen α) := apart (.pure a)

theorem throw {e : Failure} (fine : Fine e) : Gen.Raises Fine env (throw e : Gen α) := apart (.throw fine)

theorem bind {f : α → Gen β} (first : Gen.Raises Fine env x) (rest : ∀ a, Gen.Raises Fine env (f a)) :
    Gen.Raises Fine env (x >>= f) := by
  intro s e t failed
  rw [Gen.bind_eq] at failed
  cases ended : x env s with
  | error f u =>
    rw [ended] at failed
    cases failed
    exact first s e t ended
  | ok a u =>
    rw [ended] at failed
    exact rest a u e t failed

theorem read {f : Environment → Gen α} (rest : Gen.Raises Fine env (f env)) :
    Gen.Raises Fine env (read >>= f) := rest

theorem get {f : State → Gen α} (rest : ∀ s, Gen.Raises Fine env (f s)) :
    Gen.Raises Fine env (get >>= f) :=
  fun s => rest s s

theorem modify (change : State → State) : Gen.Raises Fine env (modify change : Gen Unit) := by
  intro s e t failed
  cases failed

/-- What has failed may be raised again. -/
theorem attempt {Caught : Failure → Prop} {f : Except Failure α → Gen β} (first : Gen.Raises Caught env x)
    (onOk : ∀ a, Gen.Raises Fine env (f (.ok a)))
    (onFailed : ∀ e, Caught e → Gen.Raises Fine env (f (.error e))) :
    Gen.Raises Fine env (Gen.attempt x >>= f) := by
  intro s e t failed
  rw [Gen.bind_eq, Gen.attempt_eq] at failed
  cases ended : x env s with
  | error f u =>
    rw [ended] at failed
    exact onFailed f (first s f u ended) u e t failed
  | ok a u =>
    rw [ended] at failed
    exact onOk a u e t failed

theorem ensuring (raises : Gen.Raises Fine env x) (after : State → State) :
    Gen.Raises Fine env (Gen.ensuring x after) := by
  intro s e t failed
  rw [Gen.ensuring_eq] at failed
  cases ended : x env s with
  | error f u =>
    rw [ended] at failed
    cases failed
    exact raises s e u ended
  | ok a u =>
    rw [ended] at failed
    cases failed

section
variable (refused : ∀ error, Fine (.ledger error))
include refused

theorem onLedger (step : Ledger → Except LedgerError (α × Ledger)) :
    Gen.Raises Fine env (Gen.onLedger step) := by
  unfold Gen.onLedger
  refine .get fun s => ?_
  split
  · exact .bind (.modify _) fun _ => .pure _
  · exact .throw (refused _)

theorem currentTransaction : Gen.Raises Fine env currentTransaction := by
  unfold Bindings.currentTransaction
  refine .get fun s => ?_
  split
  · exact .pure _
  · exact .throw (refused _)

theorem runIn (raises : Gen.Raises Fine env x) (id : TransactionId) (outer : Option TransactionId) :
    Gen.Raises Fine env (runIn id outer x) := by
  unfold Bindings.runIn
  refine .bind (.modify _) fun _ => .attempt raises (fun a => ?_) fun e fine => ?_
  · exact .bind (.ensuring (.onLedger refused _) _) fun _ => .pure _
  · exact .bind (.modify _) fun _ => .throw fine

theorem inSavepoint (raises : Gen.Raises Fine env x) : Gen.Raises Fine env (inSavepoint x) := by
  unfold Bindings.inSavepoint
  exact .bind (.currentTransaction refused) fun _ => .bind (.onLedger refused _) fun _ =>
    .runIn refused raises _ _

theorem inTransaction (raises : Gen.Raises Fine env x) : Gen.Raises Fine env (inTransaction x) := by
  unfold Bindings.inTransaction
  refine .get fun s => ?_
  split
  · exact raises
  · exact .bind (.onLedger refused _) fun _ => .runIn refused raises _ _

theorem counted (raises : Gen.Raises Fine env x) : Gen.Raises Fine env (counted x) := by
  have count : Gen.Raises Fine env pendingCount :=
    .bind (.currentTransaction refused) fun _ => .get fun _ => .pure _
  unfold Bindings.counted
  exact .bind count fun _ => .bind raises fun _ => .bind count fun _ => .pure _

end

end Gen.Raises

/-! ## Requirements -/

/-- Something is wrong with a name that a template of the catalog requires. -/
def Environment.Unclear (env : Environment) (problem : InputProblem) : Prop :=
  ∃ name template requirement, env.templates.get? name = some template ∧
    requirement ∈ template.requires ∧ ∀ s, groupsOf requirement env s = .error (.input problem) s

/-- A failure that is due to what is asked for only if a template asks for it. -/
def Environment.Confines (env : Environment) : Failure → Prop
  | .input problem => env.Unclear problem
  | .structural _ | .platformMismatch .. | .cancelled | .ledger _ | .badLimit _ | .depthExceeded => True

theorem Failure.Unasked.confined {e : Failure} (unasked : e.Unasked) : env.Confines e := by
  cases e with
  | input problem => exact absurd rfl (unasked.unasked problem)
  | structural | platformMismatch | cancelled | ledger | badLimit | depthExceeded => trivial

theorem confines_requirement {name requirement : String} {template : Template}
    (held : env.templates.get? name = some template) (member : requirement ∈ template.requires) :
    Gen.Constant env.Confines env (groupsOf requirement) := by
  have constant : Gen.Constant Failure.Ambiguous env (groupsOf requirement) := groupsOf_constant requirement
  obtain ⟨result, ambiguous, always⟩ := constant
  refine ⟨result, fun e same => ?_, always⟩
  obtain ⟨other, names, rfl⟩ := ambiguous e same
  subst same
  exact ⟨name, template, requirement, held, member, always⟩

/-! ## Production -/

namespace Gen.Raises

theorem fault (f : Fault) : Gen.Raises env.Confines env (Gen.fault f : Gen α) := .throw trivial

theorem expansion {x : Gen α} (raises : Gen.Raises env.Confines env x) (name : String) :
    Gen.Raises env.Confines env (inExpansion name x) := by
  intro s e t failed
  rw [inExpansion_eq] at failed
  split at failed
  · exact Gen.Raises.fault _ s e t failed
  · exact raises.ensuring _ _ e t failed

theorem produce {x : Gen (List Declaration)} (raises : Gen.Raises env.Confines env x) (key : EntityKey) :
    Gen.Raises env.Confines env (produce key x) := by
  have step : ∀ step, Gen.Raises env.Confines env (Gen.stepLedger step) :=
    fun step => .onLedger (fun _ => trivial) _
  unfold Bindings.produce
  refine .bind (.currentTransaction fun _ => trivial) fun id => .get fun s => ?_
  split
  · exact .pure _
  · exact .pure _
  · exact .throw trivial
  · refine .read ?_
    split
    · exact step _
    · refine .bind (step _) fun _ => .attempt raises (fun declarations => step _) fun e fine => ?_
      unfold settleEntity
      split
      · exact step _
      · exact .bind (.modify _) fun _ => .throw trivial
      · next other _ same =>
        cases same
        exact .bind (.modify _) fun _ => .throw fine

end Gen.Raises

/-- Where production fails because of what is asked for, a template asks for it. -/
def Comparison.confining (env : Environment) : Comparison env where
  Match x _ := Gen.Raises env.Confines env x
  Listed _ := True
  Asked e := ∀ template, e = .template template → ∃ name, env.templates.get? name = some template
  Fine := env.Confines
  plain_fine plain := plain.unasked.confined
  listed_means _ := trivial
  listed_asked _ := trivial
  asked_type _ _ := nofun
  asked_chosen {_ d} _ _ := by cases d <;> nofun
  asked_release _ := nofun
  asked_template held := by
    rintro _ ⟨⟩
    exact ⟨_, held⟩
  asked_inlineArray _ _ _ := nofun
  congr left _ raises := .congr left raises
  pure := .pure
  throw := .throw
  bind := .bind
  required asked member := (asked _ rfl).elim fun _ held => confines_requirement held member
  chained _ := (baseChain_unasked _).weaken fun _ unasked => unasked.confined
  conforming _ := .apart ((isConforming_apart _).weaken fun _ unasked => unasked.confined)
  managed _ := .apart ((isManagedType_apart _ true).weaken fun _ unasked => unasked.confined)
  handle name _ _ rest := .bind (.apart ((guardedHandle?_apart name).weaken
    fun _ unasked => unasked.confined)) fun answer => rest answer fun _ _ => nofun

theorem confining_linked (depth : Nat) :
    (Comparison.confining env).Linked (Links.upTo depth) (Links.upTo depth) := by
  have linked : (Comparison.confining env).Linked (Links.upTo depth)
      (Links.around (fun _ body => body) depth) :=
    around_linked (.confining env) trivial (fun key _ _ raises => raises.produce key)
      (fun name _ _ raises => raises.expansion name) depth
  rwa [around_nothing] at linked

theorem candidate_confined (depth : Nat) (c : Candidate) :
    Gen.Raises env.Confines env ((Links.upTo depth).candidate c) :=
  candidate_matches (confining_linked depth) fun d _ => by cases d <;> nofun

/-! ## Sweeps -/

/-- A failure that ends a sweep: none that is due to the metadata. -/
def Environment.Escapes (env : Environment) : Failure → Prop
  | .structural _ | .platformMismatch .. => False
  | .input problem => env.Unclear problem
  | .cancelled | .ledger _ | .badLimit _ | .depthExceeded => True

/-- What is not caught where a candidate ends is due to what a template asks for. -/
theorem sweepCandidate_raises (depth : Nat) (c : Candidate) :
    Gen.Raises env.Escapes env (sweepCandidate (Links.upTo depth) c) := by
  unfold sweepCandidate
  refine .attempt ((candidate_confined depth c).inSavepoint fun _ => trivial) (fun _ => .pure _) fun e fine => ?_
  cases e with
  | structural failure => exact .pure _
  | platformMismatch name platform architectures => exact .pure _
  | input problem => exact .throw fine
  | cancelled | ledger | badLimit | depthExceeded => exact .throw trivial

theorem sweepFrom_raises (depth : Nat) (cancel : Cancellation) (index : Nat) (candidates : List Candidate) :
    Gen.Raises env.Escapes env (sweepFrom (Links.upTo depth) cancel index candidates) := by
  induction candidates generalizing index with
  | nil => exact .pure _
  | cons c rest ih =>
    have check : Gen.Raises env.Escapes env (checkCancelled cancel index) := by
      unfold checkCancelled
      split
      · exact .throw trivial
      · exact .pure _
    unfold sweepFrom
    exact .bind check fun _ => .bind (sweepCandidate_raises depth c) fun _ =>
      .bind (ih (index + 1)) fun _ => .pure _

/-- How a candidate ends in a sweep: what it asks for is held, or the candidate is listed. -/
inductive Concludes (env : Environment) (Held : EntityKey → Prop) (c : Candidate) : CandidateOutcome → Prop
  | produced {e : Entity} (asked : env.askedBy c = .ok e) (held : Held e.key) : Concludes env Held c .produced
  | skipped : Concludes env Held c (.skipped c.1)
  | failed (message : String) : Concludes env Held c (.failed c.1 message)

section
variable {c : Candidate} {outcome : CandidateOutcome} {outcomes : List CandidateOutcome}
  {candidates : List Candidate} {cancel : Cancellation} {depth index : Nat}

theorem Concludes.imp {Held Kept : EntityKey → Prop} (concludes : Concludes env Held c outcome)
    (implies : ∀ key, Held key → Kept key) : Concludes env Kept c outcome := by
  cases concludes with
  | produced asked held => exact .produced asked (implies _ held)
  | skipped => exact .skipped
  | failed message => exact .failed message

theorem Poised.concludes (poised : Poised id s)
    (swept : sweepCandidate (Links.upTo (depth + 1)) c env s = .ok outcome t) :
    Concludes env t.Knows c outcome := by
  rcases poised.candidate_cases swept with ⟨_, _, rfl, _⟩ | ⟨e, _, _, concluded, _⟩
  · have decides := poised.decides swept nofun
    cases decides with
    | produced asked known => exact .produced asked known
  · cases e with
    | structural failure =>
      cases concluded
      exact .failed _
    | platformMismatch name platform architectures =>
      cases concluded
      exact .skipped
    | input | cancelled | ledger | badLimit | depthExceeded => cases concluded

/-- Each candidate of a sweep has been produced or is listed once the sweep has gone through all. -/
theorem Poised.sweep_concludes (poised : Poised id s)
    (swept : sweepFrom (Links.upTo (depth + 1)) cancel index candidates env s = .ok outcomes t) :
    List.Forall₂ (Concludes env t.Knows) candidates outcomes := by
  induction candidates generalizing index s outcomes with
  | nil =>
    obtain ⟨rfl, _⟩ := Gen.pure_ok swept
    exact .nil
  | cons c rest ih =>
    obtain ⟨_, outcome, u, others, first, later, rfl⟩ := sweepFrom_cons_ok swept
    have poisedU := poised.after first
    have grown := (poisedU.grows later).2
    exact .cons ((poised.concludes first).imp grown.carries.knows) (ih poisedU later)

/-- A report accounts for all candidates of a sweep. Each candidate has an outcome: what it asks for is
    durable, or it is listed under its name, as skipped or with why it has failed. The outcomes and what is
    durable are those of the candidates one after the other, each in a transaction of its own. -/
structure SweepReport.Accounts (env : Environment) (s t : State) (candidates : List Candidate)
    (outcomes : List CandidateOutcome) (report : SweepReport) : Prop where
  count : report.candidateCount = candidates.length
  skipped : report.skippedPlatform = skippedOf outcomes
  failures : report.failures = failuresOf outcomes
  each : List.Forall₂ (Concludes env fun key => ∃ ds, t.ledger.committed.get? key = some ds)
    candidates outcomes
  alone : ∃ u, sweepAlone candidates env s = .ok outcomes u ∧ u.ledger.committed = t.ledger.committed

/-- A sweep of what is offered returns its report, or a template asks for a name that is ambiguous. -/
theorem sweep_reports (consistent : env.index.Consistent) (rest : s.AtRest) (recalls : s.Recalls)
    (safe : (Discipline.backing env).Safe s) (offered : ∀ c ∈ candidates, Offers env c) :
    (∃ report outcomes t, sweep candidates none env s = .ok report t ∧
      report.Accounts env s t candidates outcomes) ∨
    ∃ problem t, sweep candidates none env s = .error (.input problem) t ∧ env.Unclear problem := by
  rcases ((Vacant.begun rest safe).sweep consistent .cancelled none 0 offered).ends with
    ⟨outcomes, u, swept⟩ | ⟨e, u, swept, due⟩
  · obtain ⟨t, returned, poised, closes⟩ := sweep_closes rest recalls swept
    obtain ⟨v, alone, paces⟩ := (Paces.begun rest).candidates none candidates 0 swept
    refine .inl ⟨_, outcomes, t, returned, rfl, rfl, rfl, ?_, v, ?_, ?_⟩
    · refine ((Poised.begun rest recalls).sweep_concludes swept).imp fun c outcome concludes =>
        concludes.imp fun key known => (closes.rest.knows_iff key).mp ?_
      rwa [State.Knows, closes.entry]
    · rw [sweepAlone, Gen.bind_eq, sessionLinks_eq]
      exact alone
    · rw [paces.committed, closes.committed]
  · have escapes := sweepFrom_raises _ _ _ _ _ _ _ swept
    obtain regular | ⟨-, stopped⟩ := due
    · refine .inr ?_
      cases e with
      | input problem => exact ⟨problem, _, by rw [sweep_eq rest, swept], escapes⟩
      | structural | platformMismatch => exact escapes.elim
      | cancelled | ledger | badLimit | depthExceeded => exact regular.elim
    · cases stopped

end

/-! ## Requests for sweeps -/

theorem SweepRequest.candidatesIn_offered (r : SweepRequest) : ∀ c ∈ r.candidatesIn env, Offers env c := by
  intro c member
  cases r with
  | everyIn space =>
    simp only [SweepRequest.candidatesIn] at member
    cases found : env.index.namespaces.get? space with
    | none =>
      rw [found] at member
      cases member
    | some members =>
      rw [found] at member
      exact .inNamespace (Table.mem_of_lookupIn found) member
  | ofModule module => exact .inModule member
  | constants start =>
    simp only [SweepRequest.candidatesIn] at member
    by_cases nothing : withoutStars start = ""
    · rw [if_pos nothing] at member
      cases member
    · rw [if_neg nothing] at member
      exact .withPrefix member
  | all =>
    obtain ⟨⟨space, members⟩, held, inside⟩ := List.mem_flatMap.mp member
    exact .inNamespace (List.mem_mergeSort.mp held) inside

/-- Whatever goes wrong in a candidate of a sweep that is not cancelled, and however deep, in every state
    between requests the sweep returns a report, and that accounts for all candidates. There is one
    exception: a name that a template requires and that belongs to several namespaces ends the sweep. -/
theorem sweeps_report {roots : List Markup.Element} (built : Index.ofDocuments roots = .ok env.index)
    (requests : List PublicRequest) (r : SweepRequest) (some : r.candidatesIn env ≠ []) :
    (∃ report outcomes t, r.run none env (env.session requests) = .ok report t ∧
      report.Accounts env (env.session requests) t (r.candidatesIn env) outcomes) ∨
    ∃ problem t, r.run none env (env.session requests) = .error (.input problem) t ∧
      env.Unclear problem := by
  have advances := session_advances (.backing env) requests
  have sweeps := (r.run_candidates env).resolve_left fun none => some none.1
  rw [sweeps]
  exact sweep_reports (Index.ofDocuments_consistent built) advances.rest (session_recalls env requests)
    advances.safe r.candidatesIn_offered

/-- A module of a function that fails and another one is accounted for. -/
theorem sweeps_report_mixed :
    let env := Environment.reading [mixedDocument]
    let thing := SweepRequest.ofModule "thing"
    Index.ofDocuments [mixedDocument] = .ok env.index ∧ thing.candidatesIn env ≠ [] ∧
      ∃ report outcomes t, thing.run none env (env.session []) = .ok report t ∧
        report.failures.map (·.1) = ["Ns.Break"] ∧
        report.Accounts env (env.session []) t (thing.candidatesIn env) outcomes := by
  intro env thing
  have built : Index.ofDocuments [mixedDocument] = .ok env.index := reading_built (by decide +kernel)
  have candidates : thing.candidatesIn env = _ := candidatesIn_sorted rfl (by decide +kernel)
  have some : thing.candidatesIn env ≠ [] := by
    rw [candidates]
    decide +kernel
  refine ⟨built, some, ?_⟩
  have run : thing.run none env (env.session []) = _ :=
    requestModule_sorted (by decide +kernel) rfl (by decide +kernel)
  have swept : Gen.gives env (env.session []) (thing.run none)
      (fun report => report.failures.map (·.1) = ["Ns.Break"]) = true := by
    rw [Gen.gives, run]
    decide +kernel
  obtain ⟨report, t, returns, failed⟩ := Gen.gives_ok swept
  rcases sweeps_report built [] thing some with
    ⟨other, outcomes, u, returned, accounts⟩ | ⟨problem, u, refused, _⟩
  · obtain ⟨rfl, rfl⟩ := EStateM.Result.ok.inj (returns.symm.trans returned)
    exact ⟨report, outcomes, t, returns, of_decide_eq_true failed, accounts⟩
  · cases returns.symm.trans refused

/-- A struct of one name in two namespaces, and a module of two functions. -/
def unclearDocuments : List Markup.Element := [
  oneNamespace "A" [⟨"struct", [("name", "DUP")], "", []⟩],
  oneNamespace "B" [⟨"struct", [("name", "DUP")], "", []⟩],
  oneNamespace "Ns" [
    ⟨"function", [("name", "Draw"), ("module", "thing")], "",
      [⟨"param", [("name", "brush"), ("type", "BRUSH")], "", []⟩]⟩,
    ⟨"function", [("name", "Erase"), ("module", "thing")], "", []⟩]]

/-- A session with a template that requires the struct without its namespace. -/
def unclearSession : Environment where
  index := (Environment.reading unclearDocuments).index
  templates := .ofTemplates [
    { name := "BRUSH", kind := .special, space := "Ns", body := "struct BRUSH", requires := ["DUP"] }]

/-- The name that a computation finds to be ambiguous. -/
def Gen.ambiguousName? (env : Environment) (s : State) (x : Gen α) : Option String :=
  match x env s with
  | .error (.input (.ambiguous name _)) _ => some name
  | _ => none

theorem Gen.ambiguousName?_eq_some {x : Gen α} {name : String}
    (found : Gen.ambiguousName? env s x = some name) :
    ∃ names t, x env s = .error (.input (.ambiguous name names)) t := by
  unfold Gen.ambiguousName? at found
  split at found
  · obtain rfl := Option.some.inj found
    exact ⟨_, _, by assumption⟩
  · cases found

/-- One function comes to the template and ends the sweep of the module, although the other one can be
    produced. -/
theorem sweep_unclear :
    let env := unclearSession
    let thing := SweepRequest.ofModule "thing"
    Index.ofDocuments unclearDocuments = .ok env.index ∧ thing.candidatesIn env ≠ [] ∧
      (∃ names t, thing.run none env (env.session []) = .error (.input (.ambiguous "DUP" names)) t) ∧
      ∃ t, requestByName "Ns.Erase" env (env.session []) = .ok true t := by
  intro env thing
  have candidates : thing.candidatesIn env = _ := candidatesIn_sorted rfl (by decide +kernel)
  have run : thing.run none env (env.session []) = _ :=
    requestModule_sorted (by decide +kernel) rfl (by decide +kernel)
  refine ⟨reading_built (by decide +kernel), ?_, Gen.ambiguousName?_eq_some ?_, ?_⟩
  · rw [candidates]
    decide +kernel
  · rw [Gen.ambiguousName?, run]
    decide +kernel
  · have asked : Gen.gives env (env.session []) (requestByName "Ns.Erase") id = true := by decide +kernel
    obtain ⟨found, t, returns, rfl⟩ := Gen.gives_ok asked
    exact ⟨t, returns⟩

end Bindings
