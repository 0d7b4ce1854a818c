import Bindings.Proofs.Request.Failures
import Bindings.Proofs.Request.Record

/-!
# Orders of requests

Once a name has been requested its answer is settled: whatever is requested later, the name is
produced again if it was, and fails again if it failed. What is requested before that can make a
difference, where an entity is reached again through a delegate that is being expanded.
-/

namespace Bindings
open Bindings.Metadata Bindings.Text

variable {env : Environment} {s t v : State} {id : TransactionId}

/-! ## What a name asks for -/

/-- Has an entity produced, or fails if there is none. -/
def Links.ask (links : Links) : Except Failure Entity → Gen Unit
  | .ok e => links.demand e
  | .error e => throw e

theorem asks_cons (links : Links) (a : Except Failure Entity) (asked : List (Except Failure Entity))
    (s : State) : (a :: asked).forM links.ask env s = match links.ask a env s with
      | .ok _ t => asked.forM links.ask env t
      | .error e t => .error e t := by
  change (links.ask a >>= fun _ => asked.forM links.ask : Gen Unit) env s = _
  rw [Gen.bind_eq]
  cases links.ask a env s <;> rfl

/-- The entity that a candidate asks for, unless there is none for the platform. -/
def Environment.askedBy (env : Environment) (c : Candidate) : Except Failure Entity :=
  match select (·.architectures) c.2 env.options.platformName? c.1 with
  | .ok chosen => .ok (.ofDefinition chosen)
  | .error e => .error (.ofSelection e)

theorem candidate_eq (links : Links) (c : Candidate) (s : State) :
    links.candidate c env s = links.ask (env.askedBy c) env s := by
  have read : Gen.platform env s = .ok env.options.platformName? s := rfl
  unfold Links.candidate Environment.askedBy
  rw [Gen.bind_eq, read]
  dsimp only
  rw [Gen.bind_eq]
  cases select (·.architectures) c.2 env.options.platformName? c.1 <;> rfl

theorem candidates_eq (links : Links) (groups : List Candidate) (s : State) :
    groups.forM links.candidate env s = (groups.map env.askedBy).forM links.ask env s := by
  induction groups generalizing s with
  | nil => rfl
  | cons c groups ih =>
    change (links.candidate c >>= fun _ => groups.forM links.candidate : Gen Unit) env s =
      (links.ask (env.askedBy c) >>= fun _ => (groups.map env.askedBy).forM links.ask : Gen Unit) env s
    rw [Gen.bind_eq, Gen.bind_eq, candidate_eq]
    cases links.ask (env.askedBy c) env s with
    | error e t => rfl
    | ok a t => exact ih t

/-- What a name asks for does not depend on the state. -/
theorem name_asks (env : Environment) (name : String) :
    (∃ e : Failure, ∀ links s, Links.name links name env s = .error e s) ∨
      ∃ (asked : List (Except Failure Entity)) (found : Bool), ∀ links s,
        Links.name links name env s = (asked.forM links.ask >>= fun _ => pure found : Gen Bool) env s := by
  have constant : Gen.Constant Failure.Ambiguous env (groupsOf name) := groupsOf_constant name
  obtain ⟨groups, _, always⟩ := constant
  unfold Links.name
  cases groups with
  | error e => exact .inl ⟨e, fun links s => by rw [Gen.bind_eq, always]; rfl⟩
  | ok groups =>
    refine .inr ?_
    simp only [Gen.bind_eq, always, Gen.ended]
    cases groups with
    | nil =>
      simp only [Gen.read_bind]
      cases env.templates.get? (lastSegment name) with
      | none => exact ⟨[], false, fun _ _ => rfl⟩
      | some template =>
        refine ⟨[.ok (.template template)], true, fun links s => ?_⟩
        change (links.demand (.template template) >>= fun _ => pure true : Gen Bool) env s = _
        rw [Gen.bind_eq, asks_cons]
        simp only [Links.ask]
        cases links.demand (.template template) env s <;> rfl
    | cons c groups =>
      refine ⟨(c :: groups).map env.askedBy, true, fun links s => ?_⟩
      rw [← candidates_eq]
      exact Gen.bind_eq _ _ env s

/-! ## What is asked for once more -/

section
variable {depth : Nat} {asked : List (Except Failure Entity)}

theorem demand_settles (env : Environment) (depth : Nat) (inside : s.In id) (e : Entity) :
    match (Links.upTo (depth + 1)).demand e env s with
      | .ok _ t => (∃ more, Produces id s t more) ∧ t.Knows e.key
      | .error (.structural failure) t => s.Recalls → t.ledger.failures.get? e.key = some failure
      | .error _ _ => True := by
  have runs : Runs env (declarationsOf (Links.upTo depth) e) _ := declarationsOf_runs .cancelled depth e
  obtain ⟨outcome, recorded⟩ : Outcome id s (produce e.key _ env s) ∧ _ := produce_outcome runs inside
  change match produce e.key (declarationsOf (Links.upTo depth) e) env s with
    | .ok _ t => _
    | .error (.structural failure) t => _
    | .error _ _ => True
  cases ended : produce e.key (declarationsOf (Links.upTo depth) e) env s with
  | ok a t =>
    rw [ended] at outcome
    exact ⟨outcome, produce_known runs inside ended⟩
  | error e t =>
    cases e with
    | structural failure => exact recorded failure t ended
    | platformMismatch | input | cancelled | ledger | badLimit | depthExceeded => trivial

/-- All that is asked for is known if nothing fails. -/
theorem asks_known (inside : s.In id) (ended : asked.forM (Links.upTo (depth + 1)).ask env s = .ok () t) :
    (∃ more, Produces id s t more) ∧ ∀ a ∈ asked, ∃ e, a = .ok e ∧ t.Knows e.key := by
  induction asked generalizing s with
  | nil =>
    cases ended
    exact ⟨⟨[], .same rfl rfl⟩, fun a member => by cases member⟩
  | cons a asked ih =>
    rw [asks_cons] at ended
    cases a with
    | error e => cases ended
    | ok e =>
      have settles := demand_settles env depth inside e
      simp only [Links.ask] at ended
      cases first : (Links.upTo (depth + 1)).demand e env s with
      | error e u =>
        rw [first] at ended
        cases ended
      | ok b u =>
        rw [first] at ended settles
        obtain ⟨⟨more, produces⟩, known⟩ := settles
        have insideU := produces.inside inside
        obtain ⟨⟨later, producesLater⟩, others⟩ := ih insideU ended
        refine ⟨⟨_, produces.trans producesLater inside⟩, fun a member => ?_⟩
        rcases List.mem_cons.mp member with rfl | there
        · exact ⟨e, rfl, producesLater.knows insideU _ known⟩
        · exact others a there

/-- Something of what is asked for has failed, or is nothing, if there is a structural failure. -/
theorem asks_failed (inside : s.In id) (recalls : s.Recalls) {failure : StructuralFailure}
    (ended : asked.forM (Links.upTo (depth + 1)).ask env s = .error (.structural failure) t) :
    ∃ a ∈ asked, ∀ e, a = .ok e → t.ledger.failures.get? e.key = some failure := by
  induction asked generalizing s with
  | nil => cases ended
  | cons a asked ih =>
    rw [asks_cons] at ended
    cases a with
    | error e => exact ⟨.error e, by simp, fun _ same => by cases same⟩
    | ok e =>
      have settles := demand_settles env depth inside e
      simp only [Links.ask] at ended
      cases first : (Links.upTo (depth + 1)).demand e env s with
      | error e u =>
        rw [first] at ended settles
        cases ended
        refine ⟨.ok e, by simp, fun _ same => ?_⟩
        cases same
        exact settles recalls
      | ok b u =>
        rw [first] at ended settles
        obtain ⟨⟨more, produces⟩, _⟩ := settles
        obtain ⟨a, member, failed⟩ := ih (produces.inside inside) (produces.recalls inside recalls) ended
        exact ⟨a, List.mem_cons_of_mem _ member, failed⟩

/-- What is asked for once more is known and not produced. -/
theorem asks_again (inside : s.In id)
    (durable : ∀ a ∈ asked, ∃ e declarations, a = .ok e ∧ s.entry e.key = .committed declarations) :
    asked.forM (Links.upTo (depth + 1)).ask env s = .ok () s := by
  induction asked with
  | nil => rfl
  | cons a asked ih =>
    obtain ⟨e, declarations, rfl, known⟩ := durable a (by simp)
    have known : (Links.upTo (depth + 1)).ask (.ok e) env s = .ok () s := by
      change produce e.key (declarationsOf (Links.upTo depth) e) env s = _
      rw [produce_eq inside, known]
    rw [asks_cons, known]
    exact ih fun a member => durable a (List.mem_cons_of_mem _ member)

/-- What is asked for fails if something of it has failed before. -/
theorem asks_fail_again (inside : s.In id) (recalls : s.Recalls) (failed : ∃ a ∈ asked, ∀ e, a = .ok e →
      ∃ failure, s.ledger.failures.get? e.key = some failure) :
    ∃ e t, asked.forM (Links.upTo (depth + 1)).ask env s = .error e t := by
  induction asked generalizing s with
  | nil =>
    obtain ⟨a, member, _⟩ := failed
    cases member
  | cons a asked ih =>
    rw [asks_cons]
    cases a with
    | error e => exact ⟨e, s, rfl⟩
    | ok e =>
      have settles := demand_settles env depth inside e
      simp only [Links.ask]
      cases first : (Links.upTo (depth + 1)).demand e env s with
      | error e u => exact ⟨e, u, rfl⟩
      | ok b u =>
        rw [first] at settles
        obtain ⟨⟨more, produces⟩, _⟩ := settles
        refine ih (produces.inside inside) (produces.recalls inside recalls) ?_
        obtain ⟨a, member, failed⟩ := failed
        rcases List.mem_cons.mp member with rfl | there
        · obtain ⟨failure, found⟩ := failed e rfl
          have again : produce e.key (declarationsOf (Links.upTo depth) e) env s =
              .error (.structural failure) s := by
            rw [produce_eq inside, (recalls.told e.key failure).mpr found]
          exact absurd (first.symm.trans again) nofun
        · rw [produces.failures]
          exact ⟨a, there, failed⟩

end

/-! ## Requests for a name -/

/-- A request returns, and does not fail. -/
def PublicRequest.returns (env : Environment) (s : State) (r : PublicRequest) : Bool :=
  match r.run env s with
  | .ok .. => true
  | .error .. => false

section
variable {asked : List (Except Failure Entity)} (rest : s.AtRest)
include rest

/-- What has been asked for in a transaction is durable once it is committed. -/
theorem asked_durable (ended : inTransaction (asked.forM (Links.upTo env.depth).ask) env s = .ok () t) :
    ∀ a ∈ asked, ∃ e declarations, a = .ok e ∧ t.ledger.committed.get? e.key = some declarations := by
  rw [inTransaction_eq rest] at ended
  cases inside : asked.forM (Links.upTo env.depth).ask env s.begun with
  | error e u =>
    rw [inside] at ended
    cases ended
  | ok a u =>
    obtain ⟨⟨more, produces⟩, known⟩ := asks_known (begun_in s) inside
    have gathers := ((begun_gathers s).produced produces).1
    obtain ⟨l, closed, failures, committed⟩ := gathers.commit
    simp only [inside, closed, EStateM.Result.ok.injEq, true_and] at ended
    subst ended
    intro a member
    obtain ⟨e, same, known⟩ := known a member
    have entry := gathers.entry_commit failures committed e.key
    rw [State.knows_iff, ← entry] at known
    cases durable : l.committed.get? e.key with
    | some declarations => exact ⟨e, declarations, same, durable⟩
    | none => cases failed : l.failures.get? e.key <;> simp [Ledger.entry, durable, failed] at known

/-- A structural failure in a transaction is recorded for something that was asked for. -/
theorem asked_recorded (recalls : s.Recalls) {failure : StructuralFailure}
    (ended : inTransaction (asked.forM (Links.upTo env.depth).ask) env s =
      .error (.structural failure) t) :
    ∃ a ∈ asked, ∀ e, a = .ok e → t.ledger.failures.get? e.key = some failure := by
  rw [inTransaction_eq rest] at ended
  cases inside : asked.forM (Links.upTo env.depth).ask env s.begun with
  | ok a u =>
    rw [inside] at ended
    dsimp only at ended
    split at ended <;> cases ended
  | error e u =>
    rw [inside] at ended
    cases ended
    rw [Ledger.rollback_failures]
    exact asks_failed (begun_in s) (recalls.alike (begun_entry rest) rfl) inside

theorem durable_again (env : Environment) (durable : ∀ a ∈ asked, ∃ e declarations, a = .ok e ∧
      s.ledger.committed.get? e.key = some declarations) :
    ∃ t, inTransaction (asked.forM (Links.upTo env.depth).ask) env s = .ok () t := by
  have again : asked.forM (Links.upTo env.depth).ask env s.begun = .ok () s.begun := by
    refine asks_again (begun_in s) fun a member => ?_
    obtain ⟨e, declarations, same, found⟩ := durable a member
    exact ⟨e, declarations, same, (begun_entry rest e.key).trans ((rest.produced_iff e.key _).mpr found)⟩
  obtain ⟨l, closed, _⟩ := (begun_gathers s).commit
  rw [inTransaction_eq rest, again]
  simp only [closed]
  exact ⟨_, rfl⟩

theorem failed_again (env : Environment) (recalls : s.Recalls) (failed : ∃ a ∈ asked, ∀ e, a = .ok e →
      ∃ failure, s.ledger.failures.get? e.key = some failure) :
    ∃ e t, inTransaction (asked.forM (Links.upTo env.depth).ask) env s = .error e t := by
  obtain ⟨e, t, ended⟩ :
      ∃ e t, asked.forM (Links.upTo env.depth).ask env s.begun = .error e t :=
    asks_fail_again (begun_in s) (recalls.alike (begun_entry rest) rfl) failed
  rw [inTransaction_eq rest, ended]
  exact ⟨_, _, rfl⟩

end

/-- A request for a name that is no namespace always fails at once, or asks for the same in every
    state. -/
theorem byName_asks (env : Environment) {name : String}
    (plain : env.index.hasNamespace (strip name) = false) :
    (∀ s : State, s.AtRest → ∃ e t, (PublicRequest.byName name).run env s = .error e t) ∨
      ∃ asked : List (Except Failure Entity), ∀ s : State, s.AtRest → (PublicRequest.byName name).run env s =
        inTransaction (asked.forM (Links.upTo env.depth).ask) env s := by
  have run : ∀ s : State, s.AtRest → (PublicRequest.byName name).run env s =
      if Request.isDottedName (strip name).toList then
        inTransaction (do let _ ← (Links.upTo env.depth).name (strip name)) env s
      else .error (.input (.invalidName name)) s := by
    intro s rest
    rw [run_eq rest]
    simp only [PublicRequest.runOn, PublicRequest.work, Environment.workOnName, Gen.read_bind, plain]
    by_cases dotted : Request.isDottedName (strip name).toList
    · simp only [if_pos dotted, Bool.false_eq_true, if_false]
      rfl
    · simp only [if_neg dotted]
      rfl
  by_cases dotted : Request.isDottedName (strip name).toList
  · simp only [if_pos dotted] at run
    rcases name_asks env (strip name) with ⟨e, fails⟩ | ⟨asked, found, asks⟩
    · refine .inl fun s rest => ?_
      rw [run s rest, inTransaction_eq rest, Gen.bind_eq, fails]
      exact ⟨_, _, rfl⟩
    · refine .inr ⟨asked, fun s rest => ?_⟩
      rw [run s rest, inTransaction_eq rest, inTransaction_eq rest, Gen.bind_eq, asks, Gen.bind_eq]
      cases asked.forM (Links.upTo env.depth).ask env s.begun <;> rfl
  · simp only [if_neg dotted] at run
    exact .inl fun s rest => ⟨_, _, run s rest⟩

/-- A request for a name that returned returns again, and one that failed with a structural
    failure fails again, whatever has been requested in the meantime. -/
theorem name_settled (env : Environment) (requests later : List PublicRequest) (name : String)
    (plain : env.index.hasNamespace (strip name) = false)
    (settles : ∀ e t, (PublicRequest.byName name).run env (env.session requests) = .error e t →
      ∃ failure, e = .structural failure) :
    (PublicRequest.byName name).returns env
        (env.session (requests ++ .byName name :: later)) =
      (PublicRequest.byName name).returns env (env.session requests) := by
  have rest := (session_advances (.any env) requests).rest
  have recalls := session_recalls env requests
  have restLater := (session_advances (.any env) (requests ++ .byName name :: later)).rest
  have recallsLater := session_recalls env (requests ++ .byName name :: later)
  have safe : (Discipline.any env).Safe (env.session requests) := safe_any rest.calm
  have after := after_advances rest safe (.byName name)
  have further := foldl_advances later after.rest after.safe
  have session : env.session (requests ++ .byName name :: later) =
      later.foldl (PublicRequest.after env) ((PublicRequest.byName name).after env
        (env.session requests)) := by
    rw [Environment.session, List.foldl_append, List.foldl_cons, Environment.session]
  rw [← session, PublicRequest.after] at further
  unfold PublicRequest.returns
  rcases byName_asks env plain with fails | ⟨asked, asks⟩
  · obtain ⟨e, t, ended⟩ := fails _ rest
    obtain ⟨_, _, endedLater⟩ := fails _ restLater
    rw [ended, endedLater]
  · rw [asks _ rest] at settles further ⊢
    rw [asks _ restLater]
    cases ended : inTransaction (asked.forM (Links.upTo env.depth).ask) env (env.session requests) with
    | ok a t =>
      rw [ended] at further
      obtain ⟨_, again⟩ := durable_again restLater env fun a member => by
        obtain ⟨e, declarations, same, found⟩ := asked_durable rest ended a member
        exact ⟨e, declarations, same, Table.get?_of_prefix further.committed found⟩
      rw [again]
    | error e t =>
      rw [ended] at further
      obtain ⟨failure, rfl⟩ := settles e t ended
      obtain ⟨a, member, failed⟩ := asked_recorded rest recalls ended
      obtain ⟨_, _, again⟩ := failed_again restLater env recallsLater ⟨a, member, fun e same =>
        ⟨failure, Table.get?_of_prefix further.failures (failed e same)⟩⟩
      rw [again]

/-- Why a request fails. -/
def PublicRequest.failure? (env : Environment) (s : State) (r : PublicRequest) : Option Failure :=
  match r.run env s with
  | .ok .. => none
  | .error e _ => some e

/-- A struct with a callback that takes a pointer to the struct, and a function that takes the
    callback. -/
def callDocument : Markup.Element :=
  oneNamespace "Ns" [
    ⟨"struct", [("name", "S")], "", [⟨"field", [("name", "call"), ("type", "D")], "", []⟩]⟩,
    ⟨"delegate", [("name", "D"), ("returns", "void")], "",
      [⟨"param", [("name", "s"), ("type", "S*")], "", []⟩]⟩,
    ⟨"function", [("name", "F"), ("module", "thing")], "",
      [⟨"param", [("name", "d"), ("type", "D")], "", []⟩]⟩]

/-- A session on the callback that allows no marshaling. -/
def callSession : Environment :=
  { Environment.reading [callDocument] with options := { allowMarshaling := false } }

/-- The function fails again after the struct has been requested. -/
theorem name_settled_callback :
    callSession.index.hasNamespace (strip "F") = false ∧
      (∀ e t, (PublicRequest.byName "F").run callSession (callSession.session []) = .error e t →
        ∃ failure, e = .structural failure) ∧
      (PublicRequest.byName "F").returns callSession
          (callSession.session ([] ++ .byName "F" :: [.byName "S"])) =
        (PublicRequest.byName "F").returns callSession (callSession.session []) := by
  have plain : callSession.index.hasNamespace (strip "F") = false := by decide +kernel
  have ended : (PublicRequest.byName "F").failure? callSession {} = some (.structural
      ⟨.selfReferringDelegate "Ns.D", some ⟨.type, ⟨"Ns", "S"⟩, false⟩⟩) := by decide +kernel
  have settles : ∀ e t, (PublicRequest.byName "F").run callSession (callSession.session []) =
      .error e t → ∃ failure, e = .structural failure := by
    intro e t same
    have failed : (PublicRequest.byName "F").run callSession {} = .error e t := same
    rw [PublicRequest.failure?, failed] at ended
    exact ⟨_, Option.some.inj ended⟩
  exact ⟨plain, settles, name_settled callSession [] [.byName "S"] "F" plain settles⟩

/-- What is requested first makes a difference. The struct that can be had alone cannot be had any
    more once the function has failed, and the function that fails alone can be had once the struct
    is there. -/
theorem first_request_matters :
    Metadata.Index.ofDocuments [callDocument] = .ok callSession.index ∧
      (PublicRequest.byName "S").returns callSession {} = true ∧
      (PublicRequest.byName "S").returns callSession (callSession.session [.byName "F"]) = false ∧
      (PublicRequest.byName "F").returns callSession {} = false ∧
      (PublicRequest.byName "F").returns callSession (callSession.session [.byName "S"]) = true := by
  refine ⟨reading_built ?_, ?_, ?_, ?_, ?_⟩ <;> decide +kernel

end Bindings
