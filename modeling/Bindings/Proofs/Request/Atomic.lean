import Bindings.Proofs.Request.Transaction

/-!
# Requests are atomic

A request leads from a state at rest to a state at rest. What it commits becomes durable all at
once; a request that fails, for whatever reason and at whatever depth, leaves the durable record
as it was.
-/

namespace Bindings
open Bindings.Metadata Bindings.Text

variable {env : Environment} {D : Discipline env} {α : Type} {s t : State}

/-! ## Sweeps -/

theorem checkCancelled_fixed (cancel : Cancellation) (index : Nat) :
    Gen.Fixed env (checkCancelled cancel index) := by
  unfold checkCancelled
  split
  · exact .throw .cancelled
  · exact .pure _

theorem checkCancelled_eq (cancel : Cancellation) (index : Nat) (s : State) :
    checkCancelled cancel index env s =
      if cancel.any (· ≤ index) then .error .cancelled s else .ok () s := by
  unfold checkCancelled
  split <;> rfl

/-- A candidate that fails does not stop a sweep, unless its failure is of another sort. -/
theorem sweepCandidate_ends {links : Links} (linked : LinksSound D links) (sound : D.Sound s)
    {c : Candidate}
    (listed : ∀ d, select (·.architectures) c.2 env.options.platformName? c.1 = .ok d → D.Listed d) :
    D.Ends s (sweepCandidate links c) fun _ _ => True := by
  unfold sweepCandidate
  refine Gen.Leads.attempt ((inSavepoint_leads sound fun outer inside =>
    candidate_ends linked inside listed).imp (fun _ t ⟨soundT, grown⟩ => ?_)
      fun t ⟨soundT, grown⟩ e => ?_)
  · exact ⟨soundT, grown, trivial⟩
  · split
    · next same => cases same
    · exact ⟨soundT, grown, trivial⟩
    · exact ⟨soundT, grown, trivial⟩
    · exact ⟨soundT.toSafe, grown.toKeeps⟩

theorem sweepFrom_ends {links : Links} (linked : LinksSound D links) (cancel : Cancellation)
    (index : Nat) {candidates : List Candidate} (listed : ∀ c ∈ candidates, ∀ d,
      select (·.architectures) c.2 env.options.platformName? c.1 = .ok d → D.Listed d)
    (sound : D.Sound s) : D.Ends s (sweepFrom links cancel index candidates) fun _ _ => True := by
  induction candidates generalizing index s with
  | nil => exact .pure sound trivial
  | cons c rest ih =>
    unfold sweepFrom
    refine .bind (.steady (Q := fun _ _ => True) (checkCancelled_fixed cancel index) sound
      fun _ _ => trivial) fun _ t sound _ _ => ?_
    refine .bind (sweepCandidate_ends linked sound (listed c (by simp))) fun outcome u sound _ _ => ?_
    exact .bind (ih (index + 1) (fun c member => listed c (List.mem_cons_of_mem _ member)) sound)
      fun _ v sound _ _ => .pure sound trivial

theorem pendingCount_ends (sound : D.Sound s) : D.Ends s pendingCount fun _ _ => True := by
  unfold pendingCount
  exact .current sound fun id current => .get (.pure sound trivial)

theorem counted_ends (sound : D.Sound s) {body : Gen α}
    (ends : ∀ t, D.Sound t → D.Ends t body fun _ _ => True) :
    D.Ends s (counted body) fun _ _ => True := by
  unfold counted
  exact .bind (pendingCount_ends sound) fun _ t sound _ _ => .bind (ends t sound)
    fun _ u sound _ _ => .bind (pendingCount_ends sound) fun _ v sound _ _ => .pure sound trivial

/-! ## Requests that turn -/

theorem sessionLinks_leads (D : Discipline env) {failed : State → Prop} :
    Gen.Leads env s sessionLinks (fun links t => s = t ∧ LinksSound D links) failed := by
  unfold sessionLinks
  exact .read (.pure ⟨rfl, upTo_sound D env.depth⟩)

namespace Discipline
variable {β : Type} {x : Gen α}

theorem Turns.throw (rest : s.AtRest) (safe : D.Safe s) (e : Failure) :
    D.Turns s (throw e : Gen α) :=
  ⟨⟨.refl rest safe, rfl⟩⟩

/-- A report is made of what was done. -/
theorem Turns.report {f : α → Gen β} (turns : D.Turns s x) (steady : ∀ a, ∃ b, f a = pure b) :
    D.Turns s (x >>= f) := by
  refine ⟨Gen.Leads.bind turns.leads fun a t advances => ?_⟩
  obtain ⟨b, same⟩ := steady a
  rw [same]
  exact .pure advances

theorem Turns.read {f : Environment → Gen α} (next : D.Turns s (f env)) : D.Turns s (read >>= f) :=
  ⟨.read next.leads⟩

/-- What leaves the state alone comes first. -/
theorem Turns.after {f : α → Gen β} (rest : s.AtRest) (safe : D.Safe s) (fixed : Gen.Fixed env x)
    (next : ∀ a, D.Turns s (f a)) : D.Turns s (x >>= f) := by
  refine ⟨Gen.Leads.bind (Q := fun _ t => s = t) (.steady fixed (fun _ _ => rfl)
    ⟨.refl rest safe, rfl⟩) ?_⟩
  rintro a _ rfl
  exact (next a).leads

/-- The links of the session are read. -/
theorem Turns.links {f : Links → Gen α} (next : ∀ links, LinksSound D links → D.Turns s (f links)) :
    D.Turns s (sessionLinks >>= f) := by
  refine ⟨Gen.Leads.bind (sessionLinks_leads D) ?_⟩
  rintro links _ ⟨rfl, linked⟩
  exact (next links linked).leads

end Discipline

theorem demand_ends (sound : D.Sound s) {e : Entity} (asked : D.Asks s e) :
    D.Ends s (demand e) fun _ _ => True := by
  unfold demand
  refine Gen.Leads.bind (sessionLinks_leads D) ?_
  rintro links t ⟨rfl, linked⟩
  exact (linked.demand s e sound asked).imp fun _ _ _ _ => trivial

theorem validName_fixed (name : String) : Gen.Fixed env (validName name) := by
  unfold validName
  split
  · exact .pure _
  · exact .throw (.input _)

section
variable (rest : s.AtRest) (safe : D.Safe s)
include rest safe

theorem sweep_turns {candidates : List Candidate} (offered : ∀ c ∈ candidates, Offers env c)
    (cancel : Cancellation) : D.Turns s (sweep candidates cancel) := by
  unfold sweep
  refine .links fun links linked => ?_
  exact .report (inTransaction_turns rest safe fun inside => counted_ends inside fun t sound =>
    sweepFrom_ends linked cancel 0 (fun c member _ => D.listed_chosen (offered c member)) sound) fun _ => ⟨_, rfl⟩

theorem requestName_turns (name : String) : D.Turns s (requestName name) := by
  unfold requestName
  exact .links fun links linked => inTransaction_turns rest safe fun inside => name_ends linked inside name

theorem requestNamespace_turns (space : String) (cancel : Cancellation) :
    D.Turns s (requestNamespace space cancel) := by
  unfold requestNamespace
  refine .read ?_
  split
  · exact .throw rest safe _
  · next members found =>
    exact sweep_turns rest safe (fun c member => .inNamespace (Table.mem_of_lookupIn found) member) cancel

theorem requestModule_turns (module : String) (cancel : Cancellation) :
    D.Turns s (requestModule module cancel) := by
  unfold requestModule
  refine .read ?_
  split
  · exact .throw rest safe _
  · exact sweep_turns rest safe (fun c member => .inModule member) cancel

theorem requestPrefix_turns (start : String) (cancel : Cancellation) :
    D.Turns s (requestPrefix start cancel) := by
  unfold requestPrefix
  dsimp only
  split
  · exact .throw rest safe _
  · refine .read ?_
    split
    · exact .throw rest safe _
    · exact sweep_turns rest safe (fun c member => .withPrefix member) cancel

theorem requestAll_turns (cancel : Cancellation) : D.Turns s (requestAll cancel) := by
  unfold requestAll
  refine .read (sweep_turns rest safe (fun c member => ?_) cancel)
  obtain ⟨⟨space, members⟩, held, inside⟩ := List.mem_flatMap.mp member
  exact .inNamespace (List.mem_mergeSort.mp held) inside

theorem requestByName_turns (name : String) : D.Turns s (requestByName name) := by
  unfold requestByName
  refine .after rest safe (validName_fixed name) fun valid => .read ?_
  split
  · exact .report (requestNamespace_turns rest safe valid none) fun _ => ⟨true, rfl⟩
  · exact requestName_turns rest safe valid

theorem requestInlineFunction_turns (name : String) : D.Turns s (requestInlineFunction name) := by
  unfold requestInlineFunction
  refine .after rest safe (validName_fixed name) fun valid => .read ?_
  dsimp only
  split
  · exact .throw rest safe _
  · next template _ =>
    split
    · exact .report (inTransaction_turns rest safe fun inside => demand_ends inside trivial)
        fun _ => ⟨true, rfl⟩
    · exact .throw rest safe _

theorem request_turns (line : String) (cancel : Cancellation) : D.Turns s (request line cancel) := by
  unfold request
  dsimp only
  split
  · exact requestModule_turns rest safe _ cancel
  · split
    · exact requestPrefix_turns rest safe _ cancel
    · refine .after rest safe (validName_fixed _) fun valid => .read ?_
      split
      · exact requestNamespace_turns rest safe valid cancel
      · refine .links fun links linked => ?_
        exact .report (inTransaction_turns rest safe fun inside => counted_ends inside
          fun t sound => name_ends linked sound valid) fun _ => ⟨_, rfl⟩

end

/-! ## Public requests -/

/-- What can be requested of a session. -/
inductive PublicRequest
  | line (text : String) (cancel : Cancellation)
  | byName (name : String)
  | inlineFunction (name : String)
  | everyIn (space : String) (cancel : Cancellation)
  | ofModule (module : String) (cancel : Cancellation)
  | constants (start : String) (cancel : Cancellation)
  | all (cancel : Cancellation)

/-- Runs a request, without its report. -/
def PublicRequest.run : PublicRequest → Gen Unit
  | line text cancel => do let _ ← request text cancel
  | byName name => do let _ ← requestByName name
  | inlineFunction name => do let _ ← requestInlineFunction name
  | everyIn space cancel => do let _ ← requestNamespace space cancel
  | ofModule module cancel => do let _ ← requestModule module cancel
  | constants start cancel => do let _ ← requestPrefix start cancel
  | all cancel => do let _ ← requestAll cancel

theorem run_turns (rest : s.AtRest) (safe : D.Safe s) (r : PublicRequest) : D.Turns s r.run := by
  cases r with
  | line text cancel => exact .report (request_turns rest safe text cancel) fun _ => ⟨(), rfl⟩
  | byName name => exact .report (requestByName_turns rest safe name) fun _ => ⟨(), rfl⟩
  | inlineFunction name =>
    exact .report (requestInlineFunction_turns rest safe name) fun _ => ⟨(), rfl⟩
  | everyIn space cancel =>
    exact .report (requestNamespace_turns rest safe space cancel) fun _ => ⟨(), rfl⟩
  | ofModule module cancel =>
    exact .report (requestModule_turns rest safe module cancel) fun _ => ⟨(), rfl⟩
  | constants start cancel =>
    exact .report (requestPrefix_turns rest safe start cancel) fun _ => ⟨(), rfl⟩
  | all cancel => exact .report (requestAll_turns rest safe cancel) fun _ => ⟨(), rfl⟩

/-! ## Histories -/

/-- The state after a request, whether it fails or not. -/
def PublicRequest.after (env : Environment) (s : State) (r : PublicRequest) : State :=
  match r.run env s with
  | .ok _ t | .error _ t => t

/-- The state of a session after requests, one after the other. -/
def Environment.session (env : Environment) (requests : List PublicRequest) : State :=
  requests.foldl (PublicRequest.after env) {}

theorem after_advances (rest : s.AtRest) (safe : D.Safe s) (r : PublicRequest) :
    D.Advances s (r.after env s) := by
  have turns := (run_turns rest safe r).leads
  unfold Gen.Leads at turns
  unfold PublicRequest.after
  cases ended : r.run env s with
  | ok _ t =>
    rw [ended] at turns
    exact turns
  | error _ t =>
    rw [ended] at turns
    exact turns.1

theorem foldl_advances (requests : List PublicRequest) (rest : s.AtRest) (safe : D.Safe s) :
    D.Advances s (requests.foldl (PublicRequest.after env) s) := by
  induction requests generalizing s with
  | nil => exact .refl rest safe
  | cons r requests ih =>
    have first := after_advances rest safe r
    exact first.trans (ih first.rest first.safe)

/-- A session is at rest between requests, and all that is durable is accounted for. -/
theorem session_advances (D : Discipline env) (requests : List PublicRequest) :
    D.Advances {} (env.session requests) :=
  foldl_advances requests .empty ⟨⟨rfl, rfl, rfl⟩, nofun, nofun⟩

/-! ## Sessions on documents -/

/-- A document of one namespace. -/
def oneNamespace (space : String) (children : List Markup.Element) : Markup.Element :=
  ⟨"metadata", [], "", [⟨"namespace", [("name", space)], "", children⟩]⟩

/-- A session on documents, with no options. -/
def Environment.reading (roots : List Markup.Element) : Environment :=
  { index := (Index.ofDocuments roots).toOption.getD {} }

theorem reading_built {roots : List Markup.Element}
    (succeeds : (Index.ofDocuments roots).toOption.isSome = true) :
    Index.ofDocuments roots = .ok (Environment.reading roots).index := by
  unfold Environment.reading
  cases read : Index.ofDocuments roots with
  | ok index => rfl
  | error fault =>
    rw [read] at succeeds
    cases succeeds

/-! ## Atomicity -/

/-- A request that starts at rest ends at rest, and failures that were recorded stay. If it fails
    the durable record is as it was before, and else it has only grown. -/
theorem request_atomic (env : Environment) (s : State) (rest : s.AtRest) (r : PublicRequest) :
    match r.run env s with
    | .ok _ t => t.AtRest ∧ s.ledger.failures.entries <+: t.ledger.failures.entries ∧
        s.ledger.committed.entries <+: t.ledger.committed.entries
    | .error _ t => t.AtRest ∧ s.ledger.failures.entries <+: t.ledger.failures.entries ∧
        t.ledger.committed = s.ledger.committed := by
  have safe : (Discipline.any env).Safe s := ⟨rest.calm, fun _ _ _ => trivial, fun _ _ _ => trivial⟩
  have turns := (run_turns rest safe r).leads
  unfold Gen.Leads at turns
  cases ended : r.run env s with
  | ok _ t =>
    rw [ended] at turns
    exact ⟨turns.rest, turns.failures, turns.committed⟩
  | error _ t =>
    rw [ended] at turns
    exact ⟨turns.1.rest, turns.1.failures, turns.2⟩

/-- Functions that take structs, and one that takes a struct that is not defined after one that is. -/
def brokenDocument : Markup.Element :=
  let struct (name : String) : Markup.Element :=
    ⟨"struct", [("name", name)], "", [⟨"field", [("name", "x"), ("type", "i4")], "", []⟩]⟩
  let function (name : String) (types : List String) : Markup.Element :=
    ⟨"function", [("name", name), ("module", "thing")], "",
      types.map fun type => ⟨"param", [("name", "of" ++ type), ("type", type)], "", []⟩⟩
  oneNamespace "Ns" [struct "POINT", struct "SIZE", function "Draw" ["POINT"],
    function "Break" ["SIZE", "NOWHERE"], function "Erase" ["SIZE"]]

/-- The names of what is durable. -/
def State.durableNames (s : State) : List String := s.ledger.committed.entries.map (·.1.name.name)

/-- The names of what has failed. -/
def State.failedNames (s : State) : List String := s.ledger.failures.entries.map (·.1.name.name)

/-- A request that fails, when it has produced a struct, leaves only its failure. One that returns leaves
    what it has produced behind what was durable. -/
theorem request_atomic_broken :
    let env := Environment.reading [brokenDocument]
    let drawn := env.session [.byName "Draw"]
    let broken := env.session [.byName "Draw", .byName "Break"]
    drawn.AtRest ∧ drawn.durableNames = ["POINT", "Draw"] ∧ drawn.failedNames = [] ∧
      (∃ e t, PublicRequest.run (.byName "Break") env drawn = .error e t ∧ t.failedNames = ["Break"] ∧
        t.AtRest ∧ drawn.ledger.failures.entries <+: t.ledger.failures.entries ∧
        t.ledger.committed = drawn.ledger.committed) ∧
      broken.AtRest ∧
      ∃ t, PublicRequest.run (.byName "Erase") env broken = .ok () t ∧ t.failedNames = ["Break"] ∧
        t.durableNames = ["POINT", "Draw", "SIZE", "Erase"] ∧
        t.AtRest ∧ broken.ledger.failures.entries <+: t.ledger.failures.entries ∧
        broken.ledger.committed.entries <+: t.ledger.committed.entries := by
  intro env drawn broken
  have rest : ∀ requests, (env.session requests).AtRest := fun requests =>
    (session_advances (.any env) requests).rest
  have drew : drawn.durableNames = ["POINT", "Draw"] ∧ drawn.failedNames = [] := by decide +kernel
  have fails : (match PublicRequest.run (.byName "Break") env drawn with
      | .ok .. => false
      | .error _ t => decide (t.failedNames = ["Break"])) = true := by decide +kernel
  have returns : (match PublicRequest.run (.byName "Erase") env broken with
      | .ok _ t => decide (t.failedNames = ["Break"] ∧ t.durableNames = ["POINT", "Draw", "SIZE", "Erase"])
      | .error .. => false) = true := by decide +kernel
  refine ⟨rest _, drew.1, drew.2, ?_, rest _, ?_⟩
  · have atomic := request_atomic env drawn (rest _) (.byName "Break")
    cases ended : PublicRequest.run (.byName "Break") env drawn with
    | ok a t =>
      rw [ended] at fails
      cases fails
    | error e t =>
      rw [ended] at fails atomic
      exact ⟨e, t, rfl, of_decide_eq_true fails, atomic⟩
  · have atomic := request_atomic env broken (rest _) (.byName "Erase")
    cases ended : PublicRequest.run (.byName "Erase") env broken with
    | ok a t =>
      rw [ended] at returns atomic
      obtain ⟨failed, durable⟩ := of_decide_eq_true returns
      exact ⟨t, rfl, failed, durable, atomic⟩
    | error e t =>
      rw [ended] at returns
      cases returns

end Bindings
