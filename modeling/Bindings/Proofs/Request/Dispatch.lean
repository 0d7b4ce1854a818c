import Bindings.Proofs.Request.Confinement
import Bindings.Proofs.Request.Line

/-!
# What lines run

A line that is accepted runs the one form that it is the text of, and its name is not looked at again:
where it fails, it is never because of a name that is no dotted name.
-/

namespace Bindings
open Bindings.Metadata Bindings.Text Bindings.Request

variable {env : Environment} {form : Form} {cancel : Cancellation}

/-! ## Forms that are run -/

/-- Requests a namespace or, if there is none of the name, what the name stands for. -/
def requestSingle (name : String) (cancel : Cancellation) : Gen SweepReport := do
  if (← read).index.hasNamespace name then requestNamespace name cancel
  else
    let links ← sessionLinks
    let (found, committed) ← inTransaction (counted (links.name name))
    return .named name found committed

/-- Requests what a form asks for. -/
def Request.Form.run (cancel : Cancellation) : Form → Gen SweepReport
  | .module name => requestModule name cancel
  | .constants stem => requestPrefix stem cancel
  | .single name => requestSingle name cancel

/-- The end of a line decides what it runs. -/
theorem request_of (line : String) (cancel : Cancellation) :
    request line cancel = match Form.of (strip line) with
      | .module name => requestModule name cancel
      | .constants _ => requestPrefix (strip line) cancel
      | .single name => validName name >>= (requestSingle · cancel) := by
  unfold request Form.of
  by_cases pointed : ends ".*" (strip line) = true
  · simp only [if_pos pointed]
  · by_cases starred : ends "*" (strip line) = true
    · simp only [if_neg pointed, if_pos starred]
    · simp only [if_neg pointed, if_neg starred]
      rfl

theorem validName_of_isDottedName {name : String} (dotted : isDottedName name.toList = true) :
    validName name = pure name := by
  have stripped : strip name = name := @Form.strip_text (.single name) dotted
  rw [validName, stripped, if_pos dotted]

/-- The line of a form runs the form. -/
theorem request_text (proper : form.Proper) (cancel : Cancellation) :
    request form.text cancel = form.run cancel := by
  rw [request_of, Form.strip_text proper, Form.of_text proper]
  cases form with
  | module name => rfl
  | constants stem =>
    obtain ⟨some, starless, -⟩ := proper
    obtain ⟨starred, plain⟩ := withoutStars_append starless
    change requestPrefix (stem ++ "*") cancel = requestPrefix stem cancel
    unfold requestPrefix
    simp only [starred, plain, if_neg some]
  | single name =>
    dsimp only
    rw [validName_of_isDottedName proper]
    rfl

/-! ## Why forms fail -/

/-- A failure that is not due to a name that is no dotted name. -/
def Failure.Legible (e : Failure) : Prop := ∀ name, e ≠ .input (.invalidName name)

theorem Failure.Ambiguous.legible {e : Failure} (ambiguous : e.Ambiguous) : e.Legible := by
  obtain ⟨name, names, rfl⟩ := ambiguous
  nofun

theorem Environment.Unclear.legible {problem : InputProblem} (unclear : env.Unclear problem) :
    (Failure.input problem).Legible := by
  obtain ⟨_, _, requirement, _, _, fails⟩ := unclear
  have constant : Gen.Constant Failure.Ambiguous env (groupsOf requirement) := groupsOf_constant requirement
  obtain ⟨result, ambiguous, always⟩ := constant
  have ended := (fails {}).symm.trans (always {})
  cases result with
  | ok groups => cases ended
  | error e =>
    cases ended
    exact (ambiguous _ rfl).legible

theorem Environment.Confines.legible {e : Failure} (confines : env.Confines e) : e.Legible := by
  cases e with
  | input problem => exact Environment.Unclear.legible confines
  | structural | platformMismatch | cancelled | ledger | badLimit | depthExceeded => nofun

theorem Environment.Escapes.legible {e : Failure} (escapes : env.Escapes e) : e.Legible := by
  cases e with
  | input problem => exact Environment.Unclear.legible escapes
  | structural | platformMismatch | cancelled | ledger | badLimit | depthExceeded => nofun

theorem sweep_legible (candidates : List Candidate) (cancel : Cancellation) :
    Gen.Raises Failure.Legible env (sweep candidates cancel) := by
  have raises : Gen.Raises env.Escapes env (sweepFrom (Links.upTo env.depth) cancel 0 candidates) :=
    sweepFrom_raises env.depth cancel 0 candidates
  have swept := raises.imp fun _ => (·.legible)
  unfold sweep sessionLinks
  exact .read (.bind (.inTransaction nofun (.counted nofun swept)) fun _ => .pure _)

theorem requestNamespace_legible (space : String) (cancel : Cancellation) :
    Gen.Raises Failure.Legible env (requestNamespace space cancel) := by
  unfold requestNamespace
  refine .read ?_
  split
  · exact .throw nofun
  · exact sweep_legible _ _

/-- Asking for what a name stands for fails because the name is ambiguous, or as production does. -/
theorem name_legible (depth : Nat) (name : String) :
    Gen.Raises Failure.Legible env ((Links.upTo depth).name name) := by
  have linked : (Comparison.confining env).Linked (Links.upTo depth) (Links.upTo depth) :=
    confining_linked depth
  have grouped : Gen.Raises Failure.Legible env (groupsOf name) := by
    intro s e t failed
    have constant : Gen.Constant Failure.Ambiguous env (groupsOf name) := groupsOf_constant name
    obtain ⟨result, ambiguous, always⟩ := constant
    rw [always] at failed
    cases result with
    | ok groups => cases failed
    | error f =>
      cases failed
      exact (ambiguous _ rfl).legible
  have candidate : ∀ c, Gen.Raises Failure.Legible env ((Links.upTo depth).candidate c) :=
    fun c => (candidate_confined depth c).imp fun _ => (·.legible)
  have candidates : ∀ groups : List Candidate,
      Gen.Raises Failure.Legible env (groups.forM (Links.upTo depth).candidate) := by
    intro groups
    induction groups with
    | nil => exact .pure _
    | cons c rest ih => exact .bind (candidate c) fun _ => ih
  unfold Links.name
  refine .bind grouped fun groups => ?_
  split
  · refine .read ?_
    split
    · exact .pure _
    · next template found =>
      have raises : Gen.Raises env.Confines env ((Links.upTo depth).demand (.template template)) :=
        linked.demand _ ((Comparison.confining env).asked_template found)
      exact .bind (raises.imp fun _ => (·.legible)) fun _ => .pure _
  · exact .bind (candidates _) fun _ => .pure _

/-- No form fails because of a name that is no dotted name. -/
theorem Request.Form.run_legible (form : Form) (cancel : Cancellation) :
    Gen.Raises Failure.Legible env (form.run cancel) := by
  cases form with
  | module name =>
    change Gen.Raises _ _ (requestModule name cancel)
    unfold requestModule
    refine .read ?_
    split
    · exact .throw nofun
    · exact sweep_legible _ _
  | constants stem =>
    change Gen.Raises _ _ (requestPrefix stem cancel)
    unfold requestPrefix
    dsimp only
    split
    · exact .throw nofun
    · refine .read ?_
      split
      · exact .throw nofun
      · exact sweep_legible _ _
  | single name =>
    change Gen.Raises _ _ (requestSingle name cancel)
    unfold requestSingle sessionLinks
    refine .read ?_
    split
    · exact requestNamespace_legible _ _
    · exact .read (.bind (.inTransaction nofun (.counted nofun (name_legible _ _))) fun _ => .pure _)

theorem begins_append (part more rest : String) : begins part (part ++ more ++ rest) = true := by
  rw [begins, List.isPrefixOf_iff_prefix, String.append_assoc, String.toList_append]
  exact List.prefix_append _ _

theorem not_begins_append {c d : Char} {part first : String} (begun : part.toList.head? = some c)
    (starts : first.toList.head? = some d) (other : c ≠ d) (rest : String) :
    ¬ begins part (first ++ rest) = true := by
  obtain ⟨_, row⟩ := List.head?_eq_some_iff.mp begun
  obtain ⟨_, line⟩ := List.head?_eq_some_iff.mp starts
  rw [begins, String.toList_append, row, line, List.isPrefixOf_iff_prefix, List.cons_append,
    List.cons_prefix_cons]
  exact fun same => other same.1

/-- The message tells whether a problem is a name that is no dotted name. -/
theorem InputProblem.begins_message (problem : InputProblem) :
    begins "Invalid API name" problem.message = true ↔ ∃ name, problem = .invalidName name := by
  have otherwise : ∀ {d : Char} {first : String} (rest : String), first.toList.head? = some d →
      'I' ≠ d → ¬ begins "Invalid API name" (first ++ rest) = true :=
    fun rest starts other => not_begins_append rfl starts other rest
  cases problem with
  | invalidName name =>
    exact iff_of_true (begins_append "Invalid API name" ": " (quoted name)) ⟨name, rfl⟩
  | ambiguous name names =>
    have whole : (InputProblem.ambiguous name names).message =
        "'" ++ (name ++ "' is ambiguous; qualify it with its namespace") := String.append_assoc ..
    rw [whole]
    exact iff_of_false (otherwise _ rfl (by decide)) nofun
  | unknownInlineFunction | unknownNamespace | emptyModule | noConstants =>
    exact iff_of_false (otherwise _ rfl (by decide)) nofun

/-! ## Accepted lines -/

/-- A text is admitted as a request: it is accepted as it is, of the forms that there may be it is the text
    of one, and this is what it runs in each session. Nothing that fails finds fault with its name. -/
structure Request.Admitted (text : String) : Prop where
  accepted : validate text = .ok text
  form : ∃ form : Form, form.Proper ∧ form.text = text ∧
    (∀ other : Form, other.Proper → other.text = text → other = form) ∧
    ∀ cancel, request text cancel = form.run cancel
  /-- The check of names lets the name of a single request through. -/
  checked : ∀ name, Form.of text = .single name → validName name = pure name
  legible : ∀ cancel env s problem t, request text cancel env s = .error (.input problem) t →
    begins "Invalid API name" problem.message = false

theorem Request.Form.admitted (proper : form.Proper) : Admitted form.text where
  accepted := validate_ok_iff.mpr ⟨(Form.strip_text proper).symm, form, proper, rfl⟩
  form := ⟨form, proper, rfl, fun _ properly same => Form.text_injective properly proper same,
    request_text proper⟩
  checked name single := by
    obtain rfl := (Form.of_text proper).symm.trans single
    exact validName_of_isDottedName proper
  legible cancel env s problem t failed := by
    rw [request_text proper] at failed
    have legible := form.run_legible cancel s _ t failed
    refine Bool.eq_false_iff.mpr fun invalid => ?_
    obtain ⟨name, rfl⟩ := problem.begins_message.mp invalid
    exact legible name rfl

/-- The request of a line that is accepted is admitted, and so are all requests of a text. -/
theorem accepted_admitted :
    (∀ line text, validate line = .ok text → Admitted text) ∧
      ∀ text requests, readLines text = .ok requests → ∀ request ∈ requests, Admitted request := by
  have single : ∀ line text, validate line = .ok text → Admitted text := by
    intro line text accepted
    obtain ⟨-, form, proper, rfl⟩ := validate_ok_iff.mp accepted
    exact form.admitted proper
  refine ⟨single, fun text requests read request member => ?_⟩
  obtain ⟨line, _, accepted⟩ := mapM_eq_ok read request member
  exact single line request accepted

/-- A line with blanks around it, and lines with a comment between them that have a module whose name is no
    identifier. -/
theorem accepted_admitted_lines :
    let text := "api-ms-win-core-file-l1-1-0.*\n// constants\n  WM_*\n\nWindows.Win32.Foundation"
    let requests := ["api-ms-win-core-file-l1-1-0.*", "WM_*", "Windows.Win32.Foundation"]
    validate "\t KERNEL32.* " = .ok "KERNEL32.*" ∧ Admitted "KERNEL32.*" ∧
      readLines text = .ok requests ∧ ∀ request ∈ requests, Admitted request := by
  intro text requests
  have accepted : validate "\t KERNEL32.* " = .ok "KERNEL32.*" := by decide +kernel
  have read : readLines text = .ok requests := by decide +kernel
  exact ⟨accepted, accepted_admitted.1 _ _ accepted, read, accepted_admitted.2 _ _ read⟩

end Bindings
