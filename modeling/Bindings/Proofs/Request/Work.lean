import Bindings.Proofs.Request.Gathering

/-!
# The work of a request

Every request does one piece of work in one outermost transaction, or none when it is no good:
it asks for what a name stands for, for a template, or for the candidates of a sweep.
-/

namespace Bindings
open Bindings.Metadata Bindings.Text

variable {env : Environment} {α β : Type} {s : State}

/-! ## Work -/

/-- What a request does in its transaction. -/
inductive Work
  | name (name : String)
  | template (template : Template)
  | sweep (candidates : List Candidate) (cancel : Cancellation)

/-- Does the work on links. -/
def Work.run (links : Links) : Work → Gen Unit
  | .name text => do let _ ← links.name text
  | .template t => links.demand (.template t)
  | .sweep candidates cancel => do let _ ← sweepFrom links cancel 0 candidates

namespace Environment

/-- The work on a namespace. -/
def workOnNamespace (env : Environment) (space : String) (cancel : Cancellation) :
    Except Failure Work :=
  match env.index.namespaces.get? space with
  | none => .error (.input (.unknownNamespace space (env.suggest space 10)))
  | some members => .ok (.sweep (namespaceCandidates env.options space members) cancel)

/-- The work on a module. -/
def workOnModule (env : Environment) (module : String) (cancel : Cancellation) :
    Except Failure Work :=
  match env.index.functionsInModule module with
  | [] => .error (.input (.emptyModule module))
  | functions => .ok (.sweep (moduleCandidates env.options functions) cancel)

/-- The work on the constants that begin with a text. -/
def workOnPrefix (env : Environment) (start : String) (cancel : Cancellation) :
    Except Failure Work :=
  let stem := withoutStars start
  if stem = "" then .error (.input (.noConstants start))
  else
    match env.index.constantsWithPrefix stem with
    | [] => .error (.input (.noConstants stem))
    | constants => .ok (.sweep (byFullName (constants.map .constant)) cancel)

/-- The work on a name, or on the namespace that it is the name of. -/
def workOnName (env : Environment) (name : String) (cancel : Cancellation) : Except Failure Work :=
  if Request.isDottedName (strip name).toList then
    if env.index.hasNamespace (strip name) then env.workOnNamespace (strip name) cancel
    else .ok (.name (strip name))
  else .error (.input (.invalidName name))

/-- The work on the template of a function-like macro. -/
def workOnInlineFunction (env : Environment) (name : String) : Except Failure Work :=
  if Request.isDottedName (strip name).toList then
    match env.templates.get? (strip name) with
    | none =>
      .error (.input (.unknownInlineFunction (strip name) (similarTemplates env (strip name))))
    | some template =>
      if template.kind = .inlineFunction then .ok (.template template)
      else
        .error (.input (.unknownInlineFunction (strip name) (similarTemplates env (strip name))))
  else .error (.input (.invalidName name))

end Environment

/-- The work of a request, or why it has none. -/
def PublicRequest.work (env : Environment) : PublicRequest → Except Failure Work
  | line text cancel =>
    if ends ".*" (strip text) then env.workOnModule (dropEnd 2 (strip text)) cancel
    else if ends "*" (strip text) then env.workOnPrefix (strip text) cancel
    else env.workOnName (strip text) cancel
  | byName name => env.workOnName name none
  | inlineFunction name => env.workOnInlineFunction name
  | everyIn space cancel => env.workOnNamespace space cancel
  | ofModule module cancel => env.workOnModule module cancel
  | constants start cancel => env.workOnPrefix start cancel
  | all cancel => .ok (.sweep (allCandidates env) cancel)

/-- Does the work of a request on links in a transaction. -/
def PublicRequest.runOn (links : Links) (r : PublicRequest) : Gen Unit := do
  match r.work (← read) with
  | .ok work => inTransaction (work.run links)
  | .error e => throw e

/-! ## Refusals -/

/-- There is work, or else the input is no good. -/
def Refuses (work : Except Failure Work) : Prop :=
  ∀ e, work = .error e → ∃ problem, e = .input problem

theorem Refuses.input (problem : InputProblem) : Refuses (.error (.input problem)) := by
  rintro _ ⟨⟩
  exact ⟨problem, rfl⟩

theorem Refuses.work (work : Work) : Refuses (.ok work) := fun _ failed => by cases failed

theorem workOnNamespace_refuses (space : String) (cancel : Cancellation) :
    Refuses (env.workOnNamespace space cancel) := by
  unfold Environment.workOnNamespace
  split
  · exact .input _
  · exact .work _

theorem workOnModule_refuses (module : String) (cancel : Cancellation) :
    Refuses (env.workOnModule module cancel) := by
  unfold Environment.workOnModule
  split
  · exact .input _
  · exact .work _

theorem workOnPrefix_refuses (start : String) (cancel : Cancellation) :
    Refuses (env.workOnPrefix start cancel) := by
  unfold Environment.workOnPrefix
  dsimp only
  split
  · exact .input _
  · split
    · exact .input _
    · exact .work _

theorem workOnName_refuses (name : String) (cancel : Cancellation) :
    Refuses (env.workOnName name cancel) := by
  unfold Environment.workOnName
  split
  · split
    · exact workOnNamespace_refuses _ cancel
    · exact .work _
  · exact .input _

theorem workOnInlineFunction_refuses (name : String) : Refuses (env.workOnInlineFunction name) := by
  unfold Environment.workOnInlineFunction
  split
  · split
    · exact .input _
    · split
      · exact .work _
      · exact .input _
  · exact .input _

theorem work_refuses (r : PublicRequest) : Refuses (r.work env) := by
  unfold PublicRequest.work
  cases r with
  | line text cancel =>
    dsimp only
    split
    · exact workOnModule_refuses _ cancel
    · split
      · exact workOnPrefix_refuses _ cancel
      · exact workOnName_refuses _ cancel
  | byName name => exact workOnName_refuses name none
  | inlineFunction name => exact workOnInlineFunction_refuses name
  | everyIn space cancel => exact workOnNamespace_refuses space cancel
  | ofModule module cancel => exact workOnModule_refuses module cancel
  | constants start cancel => exact workOnPrefix_refuses start cancel
  | all cancel => exact .work _

/-! ## Ends without results -/

/-- How a computation ended, without its result. -/
def forgotten : EStateM.Result Failure State α → EStateM.Result Failure State Unit
  | .ok _ t => .ok () t
  | .error e t => .error e t

theorem forgotten_unit (r : EStateM.Result Failure State Unit) : forgotten r = r := by
  cases r <;> rfl

/-- What is made of a result does not matter. -/
theorem forgotten_bind {x : Gen α} {f : α → Gen β} (reports : ∀ a, ∃ b, f a = pure b) :
    forgotten ((x >>= f) env s) = forgotten (x env s) := by
  rw [Gen.bind_eq]
  cases x env s with
  | error e t => rfl
  | ok a t =>
    obtain ⟨b, same⟩ := reports a
    simp only [same]
    rfl

theorem forgotten_inTransaction (rest : s.AtRest) {x : Gen α} {y : Gen β}
    (alike : forgotten (x env s.begun) = forgotten (y env s.begun)) :
    forgotten (inTransaction x env s) = forgotten (inTransaction y env s) := by
  rw [inTransaction_eq rest, inTransaction_eq rest]
  cases ended : x env s.begun with
  | ok a t =>
    cases other : y env s.begun with
    | error e u =>
      rw [ended, other] at alike
      cases alike
    | ok b u =>
      rw [ended, other] at alike
      cases alike
      dsimp only
      cases t.ledger.commit s.ledger.transactions.size <;> rfl
  | error e t =>
    cases other : y env s.begun with
    | ok b u =>
      rw [ended, other] at alike
      cases alike
    | error f u =>
      rw [ended, other] at alike
      cases alike
      rfl

/-- A computation that is counted in the current transaction. -/
theorem counted_eq {id : TransactionId} (current : s.current = some id) {body : Gen α}
    (stays : ∀ a t, body env s = .ok a t → t.current = some id) :
    counted body env s = match body env s with
      | .ok a t =>
        .ok (a, ((t.ledger.pendingOf id).length : Int) - (s.ledger.pendingOf id).length) t
      | .error e t => .error e t := by
  unfold counted
  rw [Gen.bind_eq, pendingCount_eq, current]
  dsimp only
  rw [Gen.bind_eq]
  cases ended : body env s with
  | error e t => rfl
  | ok a t =>
    dsimp only
    rw [Gen.bind_eq, pendingCount_eq, stays a t ended]
    rfl

theorem forgotten_counted {id : TransactionId} (current : s.current = some id) {body : Gen α}
    (stays : ∀ a t, body env s = .ok a t → t.current = some id) :
    forgotten (counted body env s) = forgotten (body env s) := by
  rw [counted_eq current stays]
  cases body env s <;> rfl

/-! ## Requests do their work -/

/-- A computation ends as work does in a transaction, or fails at once if there is none. -/
def Does (env : Environment) (s : State) (work : Except Failure Work) (x : Gen α) : Prop :=
  forgotten (x env s) = match work with
    | .ok work => inTransaction (work.run (Links.upTo env.depth)) env s
    | .error e => .error e s

theorem Does.report {work : Except Failure Work} {x : Gen α} {f : α → Gen β}
    (does : Does env s work x) (reports : ∀ a, ∃ b, f a = pure b) : Does env s work (x >>= f) :=
  (forgotten_bind reports).trans does

/-- The links of the session are read. -/
theorem Does.links {work : Except Failure Work} {f : Links → Gen α}
    (does : Does env s work (f (Links.upTo env.depth))) : Does env s work (sessionLinks >>= f) := by
  unfold Does
  rw [Gen.bind_eq, sessionLinks_eq]
  exact does

theorem Does.read {work : Except Failure Work} {f : Environment → Gen α}
    (does : Does env s work (f env)) : Does env s work (read >>= f) := does

theorem Does.throw {e : Failure} : Does env s (.error e) (throw e : Gen α) := rfl

/-- A name is looked for if it is a dotted name. -/
theorem Does.valid {work : Except Failure Work} {name : String} {f : String → Gen α}
    (does : Does env s work (f (strip name))) :
    Does env s (if Request.isDottedName (strip name).toList then work
      else .error (.input (.invalidName name))) (validName name >>= f) := by
  unfold validName
  split
  · exact does
  · exact .throw

/-- What happens in the transaction is the work, but for its result and for counting. -/
theorem Does.inTransaction (rest : s.AtRest) {work : Work} {x : Gen α}
    (alike : forgotten (x env s.begun) = forgotten (work.run (Links.upTo env.depth) env s.begun)) :
    Does env s (.ok work) (inTransaction x) :=
  (forgotten_inTransaction rest alike).trans (forgotten_unit _)

section
variable (rest : s.AtRest)
include rest

theorem sweep_does (candidates : List Candidate) (cancel : Cancellation) :
    Does env s (.ok (.sweep candidates cancel)) (sweep candidates cancel) := by
  unfold sweep
  refine .links (.report (.inTransaction rest ?_) fun a => ⟨_, rfl⟩)
  refine (forgotten_counted rfl fun a t ended => ?_).trans (forgotten_bind fun _ => ⟨(), rfl⟩).symm
  have ends : Discipline.Ends _ s.begun
      (sweepFrom (Links.upTo env.depth) cancel 0 candidates) _ :=
    sweepFrom_ends (upTo_sound (.any env) env.depth) cancel 0 (fun _ _ _ _ => trivial)
      (safe_any rest.calm).begun
  rw [Discipline.Ends, Gen.Leads, ended] at ends
  exact ends.2.1.current

theorem requestName_does (name : String) : Does env s (.ok (.name name)) (requestName name) := by
  unfold requestName
  exact .links (.inTransaction rest (forgotten_bind fun _ => ⟨(), rfl⟩).symm)

theorem requestNamespace_does (space : String) (cancel : Cancellation) :
    Does env s (env.workOnNamespace space cancel) (requestNamespace space cancel) := by
  unfold requestNamespace Environment.workOnNamespace
  refine .read ?_
  cases env.index.namespaces.get? space with
  | none => exact .throw
  | some members => exact sweep_does rest _ cancel

theorem requestModule_does (module : String) (cancel : Cancellation) :
    Does env s (env.workOnModule module cancel) (requestModule module cancel) := by
  unfold requestModule Environment.workOnModule
  refine .read ?_
  cases env.index.functionsInModule module with
  | nil => exact .throw
  | cons f functions => exact sweep_does rest _ cancel

theorem requestPrefix_does (start : String) (cancel : Cancellation) :
    Does env s (env.workOnPrefix start cancel) (requestPrefix start cancel) := by
  unfold requestPrefix Environment.workOnPrefix
  dsimp only
  split
  · exact .throw
  · refine .read ?_
    cases env.index.constantsWithPrefix (withoutStars start) with
    | nil => exact .throw
    | cons c constants => exact sweep_does rest _ cancel

theorem requestAll_does (cancel : Cancellation) :
    Does env s (.ok (.sweep (allCandidates env) cancel)) (requestAll cancel) := by
  unfold requestAll
  exact .read (sweep_does rest _ cancel)

theorem requestByName_does (name : String) :
    Does env s (env.workOnName name none) (requestByName name) := by
  unfold requestByName
  refine .valid (.read ?_)
  split
  · exact .report (requestNamespace_does rest _ none) fun _ => ⟨true, rfl⟩
  · exact requestName_does rest _

theorem requestInlineFunction_does (name : String) :
    Does env s (env.workOnInlineFunction name) (requestInlineFunction name) := by
  unfold requestInlineFunction
  refine .valid (.read ?_)
  dsimp only
  cases env.templates.get? (strip name) with
  | none => exact .throw
  | some template =>
    dsimp only
    split
    · exact .report (.inTransaction rest rfl) fun _ => ⟨true, rfl⟩
    · exact .throw

theorem request_does (text : String) (cancel : Cancellation) :
    Does env s ((PublicRequest.line text cancel).work env) (request text cancel) := by
  unfold request PublicRequest.work
  dsimp only
  split
  · exact requestModule_does rest _ cancel
  · split
    · exact requestPrefix_does rest _ cancel
    · refine .valid (.read ?_)
      split
      · exact requestNamespace_does rest _ cancel
      · refine .links (.report (.inTransaction rest ?_) fun _ => ⟨_, rfl⟩)
        refine (forgotten_counted rfl fun a t ended => ?_).trans (forgotten_bind fun _ => ⟨(), rfl⟩).symm
        have ends := name_ends (upTo_sound (.any env) env.depth) (safe_any rest.calm).begun (strip (strip text))
        rw [Discipline.Ends, Gen.Leads, ended] at ends
        exact ends.2.1.current

/-- A request is its work in one transaction. -/
theorem run_eq (r : PublicRequest) : r.run env s = r.runOn (Links.upTo env.depth) env s := by
  have does : Does env s (r.work env) r.run := by
    cases r with
    | line text cancel => exact .report (request_does rest text cancel) fun _ => ⟨(), rfl⟩
    | byName name => exact .report (requestByName_does rest name) fun _ => ⟨(), rfl⟩
    | inlineFunction name => exact .report (requestInlineFunction_does rest name) fun _ => ⟨(), rfl⟩
    | everyIn space cancel => exact .report (requestNamespace_does rest space cancel) fun _ => ⟨(), rfl⟩
    | ofModule module cancel => exact .report (requestModule_does rest module cancel) fun _ => ⟨(), rfl⟩
    | constants start cancel => exact .report (requestPrefix_does rest start cancel) fun _ => ⟨(), rfl⟩
    | all cancel => exact .report (requestAll_does rest cancel) fun _ => ⟨(), rfl⟩
  rw [← forgotten_unit (r.run env s), does, PublicRequest.runOn, Gen.read_bind]
  cases r.work env <;> rfl

end

end Bindings
