import Bindings.Proofs.Generation.Stack
import Bindings.Proofs.Request.Record
import Bindings.Proofs.Request.Work

/-!
# Requests come to an end

However entities need each other, a request ends with a result or with a failure for a regular
reason. No bound on a depth has a part in that: the same request on links without an end, that raise
an alarm where something is begun inside itself, is not told from it.
-/

namespace Bindings
open Bindings.Metadata Bindings.Text

variable {env : Environment} {α : Type} {s t : State} {id : TransactionId}

/-! ## Work that is offered -/

/-- When a request is cancelled, if it can be. -/
def PublicRequest.cancellation : PublicRequest → Cancellation
  | line _ cancel | everyIn _ cancel | ofModule _ cancel | constants _ cancel | all cancel => cancel
  | byName _ | inlineFunction _ => none

/-- Work on what the metadata and the catalog offer. -/
def Work.Offered (env : Environment) (cancel : Cancellation) : Work → Prop
  | .name _ => True
  | .template t => ∃ name, env.templates.get? name = some t
  | .sweep candidates other => (∀ c ∈ candidates, Offers env c) ∧ other = cancel

/-- If there is work it is offered. -/
def Gives (env : Environment) (cancel : Cancellation) (made : Except Failure Work) : Prop :=
  ∀ work, made = .ok work → work.Offered env cancel

theorem Gives.error (cancel : Cancellation) (e : Failure) : Gives env cancel (.error e) := nofun

theorem Gives.work {cancel : Cancellation} {work : Work} (offered : work.Offered env cancel) :
    Gives env cancel (.ok work) := by
  rintro _ ⟨⟩
  exact offered

theorem workOnNamespace_gives (space : String) (cancel : Cancellation) :
    Gives env cancel (env.workOnNamespace space cancel) := by
  unfold Environment.workOnNamespace
  split
  · exact .error cancel _
  · next members found =>
    exact .work ⟨fun c member => .inNamespace (Table.mem_of_lookupIn found) member, rfl⟩

theorem workOnModule_gives (module : String) (cancel : Cancellation) :
    Gives env cancel (env.workOnModule module cancel) := by
  unfold Environment.workOnModule
  split
  · exact .error cancel _
  · exact .work ⟨fun c member => .inModule member, rfl⟩

theorem workOnPrefix_gives (start : String) (cancel : Cancellation) :
    Gives env cancel (env.workOnPrefix start cancel) := by
  unfold Environment.workOnPrefix
  dsimp only
  split
  · exact .error cancel _
  · split
    · exact .error cancel _
    · exact .work ⟨fun c member => .withPrefix member, rfl⟩

theorem workOnName_gives (name : String) (cancel : Cancellation) :
    Gives env cancel (env.workOnName name cancel) := by
  unfold Environment.workOnName
  split
  · split
    · exact workOnNamespace_gives _ cancel
    · exact .work trivial
  · exact .error cancel _

theorem workOnInlineFunction_gives (name : String) (cancel : Cancellation) :
    Gives env cancel (env.workOnInlineFunction name) := by
  unfold Environment.workOnInlineFunction
  split
  · split
    · exact .error cancel _
    · next template found =>
      split
      · exact .work ⟨_, found⟩
      · exact .error cancel _
  · exact .error cancel _

/-- The work of a request is on what is offered. -/
theorem work_gives (r : PublicRequest) : Gives env r.cancellation (r.work env) := by
  unfold PublicRequest.work
  cases r with
  | line text cancel =>
    dsimp only
    split
    · exact workOnModule_gives _ cancel
    · split
      · exact workOnPrefix_gives _ cancel
      · exact workOnName_gives _ cancel
  | byName name => exact workOnName_gives name none
  | inlineFunction name => exact workOnInlineFunction_gives name none
  | everyIn space cancel => exact workOnNamespace_gives space cancel
  | ofModule module cancel => exact workOnModule_gives module cancel
  | constants start cancel => exact workOnPrefix_gives start cancel
  | all cancel =>
    refine .work ⟨fun c member => ?_, rfl⟩
    obtain ⟨⟨space, members⟩, held, inside⟩ := List.mem_flatMap.mp member
    exact .inNamespace (List.mem_mergeSort.mp held) inside

/-- Work that is offered ends well. -/
theorem Work.ends {D : Discipline env} {links : Links} (linked : LinksSound D links)
    (sound : D.Sound s) {cancel : Cancellation} {work : Work} (offered : work.Offered env cancel) :
    D.Ends s (work.run links) fun _ _ => True := by
  cases work with
  | name text => exact .bind (name_ends linked sound text) fun _ _ sound _ _ => .pure sound trivial
  | template t =>
    exact (linked.demand s (.template t) sound trivial).imp fun _ _ _ _ => trivial
  | sweep candidates other =>
    refine .bind (sweepFrom_ends linked other 0 (fun c member _ => ?_) sound)
      fun _ _ sound _ _ => .pure sound trivial
    exact D.listed_chosen (offered.1 c member)

/-! ## Between productions -/

/-- A transaction in which nothing is under way. -/
structure Vacant (env : Environment) (id : TransactionId) (s : State) : Prop
    extends Running env id [] s where
  sound : (Discipline.backing env).Sound s

/-- A transaction in which nothing is under way has grown, and still nothing is. -/
theorem Vacant.grown (vacant : Vacant env id s) (sound : (Discipline.backing env).Sound t)
    (grown : (Discipline.backing env).Grows s t) : Vacant env id t where
  toIn := grown.toKeeps.inside vacant.toIn
  inFlight key := by rw [grown.inFlight, vacant.inFlight]
  expanding name := by rw [grown.expanding, vacant.expanding]
  safe := sound.toSafe
  sound := sound

theorem Vacant.begun (rest : s.AtRest) (safe : (Discipline.backing env).Safe s) :
    Vacant env s.ledger.transactions.size s.begun where
  toIn := begun_in s
  inFlight key := by
    rw [begun_entry rest]
    simp [rest.not_inFlight key]
  expanding name := by simp [State.begun, rest.expanding]
  safe := safe.begun.toSafe
  sound := safe.begun

theorem Vacant.split (vacant : Vacant env id s) :
    Running env s.ledger.transactions.size [] (s.split id) where
  toIn := split_in s id
  inFlight key := by rw [vacant.toIn.split_entry, vacant.inFlight]
  expanding := vacant.expanding
  safe := (vacant.safe.split id).toSafe

/-! ## Sweeps -/

/-- A failure that a request may end with: one for a regular reason, or a cancellation. -/
def Failure.Due (cancel : Cancellation) (e : Failure) : Prop :=
  e.Regular ∨ e = .cancelled ∧ cancel.isSome = true

section
variable (consistent : env.index.Consistent) (alarm : Failure)
include consistent

/-- The links of a session go as far as there is something to begin. -/
theorem session_linked (id : TransactionId) : (Comparison.running consistent id []).Linked
    (Links.upTo env.depth) (Links.within env alarm []) := by
  refine within_linked consistent alarm ?_
  have few := unmet_le env.frames []
  have length := frames_length env
  omega

/-- A candidate of a sweep, produced on links without an end. -/
theorem Vacant.candidate (vacant : Vacant env id s) {c : Candidate} (offers : Offers env c) :
    Follows env s (sweepCandidate (Links.upTo env.depth) c)
      (sweepCandidate (Links.within env alarm []) c) (Vacant env id) := by
  have matched : (Comparison.running consistent s.ledger.transactions.size []).Match
      ((Links.upTo env.depth).candidate c) _ :=
    candidate_matches (session_linked consistent alarm _) fun d chosen => .candidate offers chosen
  obtain ⟨alike, regular⟩ := matched _ vacant.split
  have ends : (Discipline.backing env).Ends (s.split id) ((Links.upTo env.depth).candidate c) _ :=
    candidate_ends (upTo_sound _ env.depth) (vacant.safe.split id) fun _ _ => trivial
  unfold Follows Pursues
  rw [sweepCandidate_eq, sweepCandidate_eq, inSavepoint_eq vacant.toIn, inSavepoint_eq vacant.toIn, alike]
  refine ⟨rfl, ?_⟩
  have there := isOpen_bound vacant.opened
  unfold Discipline.Ends Gen.Leads at ends
  cases ended : (Links.upTo env.depth).candidate c env (s.split id) with
  | ok a t =>
    rw [ended] at ends
    obtain ⟨sound, grown, _⟩ := ends
    obtain ⟨x, found, parent, opened⟩ := grown.toKeeps.savepoint
    obtain ⟨l, committed, folds⟩ := Ledger.commit_savepoint found opened parent (Nat.ne_of_gt there)
    obtain ⟨soundAfter, grownAfter⟩ := grown.fold vacant.current there vacant.sound sound folds
    simp only [committed]
    exact vacant.grown soundAfter grownAfter
  | error e t =>
    rw [ended] at ends regular
    obtain ⟨safe, kept⟩ := ends
    obtain ⟨x, found, parent, opened⟩ := kept.savepoint
    obtain ⟨shuts, active, committed⟩ := Ledger.rollback_savepoint found opened parent
    obtain ⟨sound, grown⟩ := kept.unfold vacant.current there vacant.sound safe shuts active committed
    have after := vacant.grown sound grown
    cases e with
    | structural failure => exact after
    | platformMismatch name platform architectures => exact after
    | input | cancelled | ledger | badLimit | depthExceeded => exact regular

/-- A sweep on links without an end. -/
theorem Vacant.sweep (cancel : Cancellation) (index : Nat) {candidates : List Candidate}
    (offered : ∀ c ∈ candidates, Offers env c) (vacant : Vacant env id s) :
    Pursues (Failure.Due cancel) env s (sweepFrom (Links.upTo env.depth) cancel index candidates)
      (sweepFrom (Links.within env alarm []) cancel index candidates) (Vacant env id) := by
  induction candidates generalizing index s with
  | nil => exact .pure vacant
  | cons c rest ih =>
    unfold sweepFrom
    have checked : Pursues (Failure.Due cancel) env s (checkCancelled cancel index) (checkCancelled cancel index)
        (Vacant env id) := by
      unfold checkCancelled
      split
      · next stopped =>
        cases cancel with
        | none => cases stopped
        | some index => exact .throw (.inr ⟨rfl, rfl⟩)
      · exact .pure vacant
    refine .bind checked fun _ t vacant => ?_
    refine .bind ((vacant.candidate consistent alarm (offered c (by simp))).weaken fun _ => .inl) ?_
    intro outcome u vacant
    exact .bind (ih (index + 1) (fun c member => offered c (List.mem_cons_of_mem _ member)) vacant)
      fun outcomes v vacant => .pure vacant

/-! ## Requests -/

/-- Work on links without an end. -/
theorem Vacant.work {cancel : Cancellation} {work : Work} (offered : work.Offered env cancel)
    (vacant : Vacant env id s) :
    Pursues (Failure.Due cancel) env s (work.run (Links.upTo env.depth))
      (work.run (Links.within env alarm [])) fun _ => True := by
  have linked := session_linked consistent alarm id
  cases work with
  | name text =>
    have matched : Follows env s _ _ _ := name_matches linked (groupsOf_regular text) s vacant.toRunning
    exact .bind (matched.weaken fun _ => .inl) fun _ _ _ => .pure trivial
  | template t =>
    obtain ⟨name, held⟩ := offered
    have matched : Follows env s _ _ _ := linked.demand _ (.template held) s vacant.toRunning
    exact (matched.weaken fun _ => .inl).imp fun _ _ => trivial
  | sweep candidates other =>
    obtain ⟨offered, rfl⟩ := offered
    exact .bind (vacant.sweep consistent alarm other 0 offered) fun _ _ _ => .pure trivial

/-- A request ends as it should, and as it does on links without an end. -/
theorem run_follows (rest : s.AtRest) (safe : (Discipline.backing env).Safe s) (r : PublicRequest) :
    Pursues (Failure.Due r.cancellation) env s r.run (r.runOn (Links.within env alarm []))
      fun _ => True := by
  refine .congr (run_eq rest r) rfl ?_
  unfold PublicRequest.runOn
  refine .read ?_
  cases asked : r.work env with
  | error e =>
    obtain ⟨problem, rfl⟩ := work_refuses r e asked
    exact .throw (.inl trivial)
  | ok work =>
    have offered := work_gives r work asked
    obtain ⟨alike, due⟩ := (Vacant.begun rest safe).work consistent alarm offered
    have ends := Work.ends (upTo_sound _ env.depth) safe.begun offered
    dsimp only
    unfold Pursues
    rw [inTransaction_eq rest, inTransaction_eq rest, alike]
    refine ⟨rfl, ?_⟩
    unfold Discipline.Ends Gen.Leads at ends
    cases ended : work.run (Links.upTo env.depth) env s.begun with
    | error e t =>
      rw [ended] at due
      exact due
    | ok a t =>
      rw [ended] at ends
      obtain ⟨sound, grown, _⟩ := ends
      obtain ⟨l, committed, _⟩ := grown.commit rest sound
      simp only [committed]

end

/-! ## Sessions -/

/-- How all that is asked of a session in a state between requests comes to an end. -/
structure State.Terminates (env : Environment) (s : State) : Prop where
  /-- A request gives a result, or fails for a regular reason or because it is cancelled. -/
  ends : ∀ r : PublicRequest, (∃ a t, r.run env s = .ok a t) ∨
    ∃ e t, r.run env s = .error e t ∧ e.Due r.cancellation
  /-- Links that are not bounded lead to the same. No production is begun inside one of the same
      entity, and no expansion inside one of the same delegate: no alarm is raised, whatever alarm
      it is. -/
  unbounded : ∀ alarm (r : PublicRequest), r.runOn (Links.within env alarm []) env s = r.run env s
  /-- Questions on managed types are asked when no type is under analysis. Then the walk is one that
      is not bounded, and enters no struct that it is on the way from. -/
  walks : ∀ alarm marshaling t, env.index.Chooses env.options.platformName? t →
    ∀ u : State, u.Calm → Follows env u (walk marshaling (env.typeCount + 2) t)
      (explore env alarm marshaling [] t) fun v => v.analysis.visiting = []
  /-- The line of the first bases of an interface is one that is not bounded. -/
  climbs : ∀ alarm t u, Follows env u (climb (env.typeCount + 2) [t.full] t)
    (ascend env alarm [t.full] t) (u = ·)
  /-- No type is on that line twice. -/
  distinct : ∀ t chain u v, climb (env.typeCount + 2) [t.full] t env u = .ok chain v →
    (t.full :: chain.map (·.full)).Nodup

/-- However entities need each other, in every session each request ends with a result or for a
    reason that the metadata, the request or a cancellation gives, and no bound has a part in it. -/
theorem session_terminates {roots : List Markup.Element}
    (built : Index.ofDocuments roots = .ok env.index) (requests : List PublicRequest) :
    (env.session requests).Terminates env := by
  have consistent := Index.ofDocuments_consistent built
  obtain ⟨rest, safe⟩ : _ ∧ _ :=
    have advances := session_advances (.backing env) requests
    ⟨advances.rest, advances.safe⟩
  refine {
    ends := fun r => (run_follows consistent .cancelled rest safe r).ends
    unbounded := fun alarm r => (run_follows consistent alarm rest safe r).1
    walks := fun alarm marshaling t chosen u calm =>
      walk_follows consistent alarm chosen (unmet_typeNames []) calm.visiting
    climbs := fun alarm t u => climb_follows consistent alarm t (unmet_typeNames _) u
    distinct := fun t chain u v ended => ?_ }
  obtain ⟨distinct, others⟩ := climb_distinct ended
  refine List.nodup_cons.mpr ⟨fun again => ?_, distinct⟩
  obtain ⟨base, member, same⟩ := List.mem_map.mp again
  exact others base member (by simp [same])

/-- A struct that points to itself and to a delegate with a parameter of that delegate, interfaces
    that derive from each other, and a handle whose release function takes the handle. -/
def knotDocument : Markup.Element :=
  oneNamespace "Ns" [
    ⟨"struct", [("name", "NODE")], "",
      [⟨"field", [("name", "next"), ("type", "NODE*")], "", []⟩,
        ⟨"field", [("name", "visit"), ("type", "VISIT")], "", []⟩]⟩,
    ⟨"delegate", [("name", "VISIT"), ("returns", "void")], "",
      [⟨"param", [("name", "node"), ("type", "NODE*")], "", []⟩,
        ⟨"param", [("name", "again"), ("type", "VISIT")], "", []⟩]⟩,
    ⟨"struct", [("name", "LOCK"), ("typedef", "true"), ("release", "Unlock")], "",
      [⟨"field", [("name", "Value"), ("type", "isize")], "", []⟩]⟩,
    ⟨"function", [("name", "Unlock"), ("module", "k"), ("returns", "bool")], "",
      [⟨"param", [("name", "lock"), ("type", "LOCK")], "", []⟩]⟩,
    interfaceElement "ILeft" [("base", "IRight")],
    interfaceElement "IRight" [("base", "ILeft")]]

theorem session_terminates_knot :
    Index.ofDocuments [knotDocument] = .ok (Environment.reading [knotDocument]).index ∧
      ((Environment.reading [knotDocument]).session [.byName "NODE", .byName "ILeft"]).Terminates
        (Environment.reading [knotDocument]) := by
  have built : Index.ofDocuments [knotDocument] = .ok (Environment.reading [knotDocument]).index :=
    reading_built (by decide +kernel)
  exact ⟨built, session_terminates built _⟩

end Bindings
