import Bindings.Proofs.Generation.Fitting

/-!
# How computations end

A computation of a session ends well when the state after it has grown by completions that are
accounted for and its result is as it should be, or when it failed and the state is kept. The
laws below follow the ways in which computations are put together.
-/

namespace Bindings

/-! ## Computations that leave the state alone -/

/-- A failure that is not yet one of an entity. -/
def Failure.Unowned (e : Failure) : Prop := ∀ failure, e = .structural failure → failure.key = none

theorem Failure.Unowned.ofFault (f : Fault) : (Failure.ofFault f).Unowned := by
  rintro _ ⟨⟩
  rfl

theorem Failure.Unowned.input (problem : InputProblem) : (Failure.input problem).Unowned := by
  rintro _ ⟨⟩

theorem Failure.Unowned.cancelled : Failure.cancelled.Unowned := by
  rintro _ ⟨⟩

theorem Failure.Unowned.depthExceeded : Failure.depthExceeded.Unowned := by
  rintro _ ⟨⟩

/-- A failure that is not yet one of an entity, and that is not due to what is asked for. -/
structure Failure.Unasked (e : Failure) : Prop where
  unowned : e.Unowned
  unasked : ∀ problem, e ≠ .input problem

theorem Failure.Unasked.depthExceeded : Failure.depthExceeded.Unasked := ⟨.depthExceeded, nofun⟩

/-- A failure for a reason in the metadata, not yet one of an entity. -/
def Failure.Plain : Failure → Prop
  | .structural failure => failure.key = none
  | .platformMismatch .. => True
  | .input _ | .cancelled | .ledger _ | .badLimit _ | .depthExceeded => False

theorem Failure.Plain.unowned {e : Failure} (plain : e.Plain) : e.Unowned := by
  rintro failure rfl
  exact plain

theorem Failure.Plain.unasked {e : Failure} (plain : e.Plain) : e.Unasked := by
  refine ⟨plain.unowned, ?_⟩
  rintro problem rfl
  exact plain

theorem Failure.Plain.ofFault (f : Fault) : (Failure.ofFault f).Plain := rfl

theorem Failure.Plain.ofSelection (e : Metadata.SelectionError) : (Failure.ofSelection e).Plain := by
  cases e with
  | fault f => exact .ofFault f
  | platformMismatch name platform architectures => trivial

/-- A failure because a name belongs to several namespaces. -/
def Failure.Ambiguous (e : Failure) : Prop := ∃ name names, e = .input (.ambiguous name names)

theorem Failure.Ambiguous.unowned {e : Failure} (ambiguous : e.Ambiguous) : e.Unowned := by
  obtain ⟨name, names, rfl⟩ := ambiguous
  exact .input _

/-- The end of a computation that leaves the state as it is. -/
def Gen.ended {α : Type} : Except Failure α → State → EStateM.Result Failure State α
  | .ok a, s => .ok a s
  | .error e, s => .error e s

/-- A computation that ends in the same way in every state, and leaves it as it is. What it may fail
    with is told. -/
def Gen.Constant {α : Type} (Fine : Failure → Prop) (env : Environment) (x : Gen α) : Prop :=
  ∃ result : Except Failure α, (∀ e, result = .error e → Fine e) ∧ ∀ s, x env s = Gen.ended result s

/-- A computation that ends in the same way in every state. If it fails, the failure is not one of
    an entity. -/
abbrev Gen.Fixed {α : Type} (env : Environment) (x : Gen α) : Prop :=
  Gen.Constant Failure.Unowned env x

/-- A computation that ends in the same way in every state. If it fails, it does so for a plain
    reason. -/
abbrev Gen.Steady {α : Type} (env : Environment) (x : Gen α) : Prop :=
  Gen.Constant Failure.Plain env x

namespace Gen
variable {α β : Type} {env : Environment}

theorem bind_eq (x : Gen α) (f : α → Gen β) (env : Environment) (s : State) :
    (x >>= f) env s = match x env s with
      | .ok a t => f a env t
      | .error e t => .error e t := by
  change EStateM.bind (x env) (fun a => f a env) s = _
  unfold EStateM.bind
  cases x env s <;> rfl

theorem get_bind (f : State → Gen α) (env : Environment) (s : State) :
    (get >>= f) env s = f s env s := rfl

theorem read_bind (f : Environment → Gen α) (env : Environment) (s : State) :
    (read >>= f) env s = f env env s := rfl

theorem platform_bind (f : Option String → Gen α) (env : Environment) (s : State) :
    (Gen.platform >>= f) env s = f env.options.platformName? env s := rfl

theorem modify_bind (change : State → State) (f : Unit → Gen α) (env : Environment) (s : State) :
    (modify change >>= f) env s = f () env (change s) := rfl

/-- A computation in two steps that succeeds does so in both. -/
theorem bind_ok {x : Gen α} {f : α → Gen β} {s u : State} {b : β}
    (ends : (x >>= f) env s = .ok b u) : ∃ a t, x env s = .ok a t ∧ f a env t = .ok b u := by
  rw [bind_eq] at ends
  cases first : x env s with
  | error e t =>
    rw [first] at ends
    cases ends
  | ok a t =>
    rw [first] at ends
    exact ⟨a, t, rfl, ends⟩

theorem pure_ok {a b : α} {s u : State} (ends : (pure a : Gen α) env s = .ok b u) : a = b ∧ s = u :=
  EStateM.Result.ok.inj ends

theorem attempt_eq (x : Gen α) (env : Environment) (s : State) :
    Gen.attempt x env s = match x env s with
      | .ok a t => .ok (.ok a) t
      | .error e t => .ok (.error e) t := rfl

theorem ensuring_eq (x : Gen α) (after : State → State) (env : Environment) (s : State) :
    Gen.ensuring x after env s = match x env s with
      | .ok a t => .ok a (after t)
      | .error e t => .error e (after t) := by
  rw [Gen.ensuring, bind_eq, attempt_eq]
  cases x env s <;> rfl

/-- How a computation ends that starts in a state. -/
def Leads (env : Environment) (s : State) (x : Gen α) (ok : α → State → Prop)
    (failed : State → Prop) : Prop :=
  match x env s with
  | .ok a t => ok a t
  | .error _ t => failed t

variable {x : Gen α} {s : State} {Q : α → State → Prop} {failed : State → Prop}

theorem Leads.bind {f : α → Gen β} {final : β → State → Prop} (first : Leads env s x Q failed)
    (rest : ∀ a t, Q a t → Leads env t (f a) final failed) : Leads env s (x >>= f) final failed := by
  unfold Leads at first ⊢
  rw [bind_eq]
  cases ended : x env s with
  | error e t =>
    rw [ended] at first
    exact first
  | ok a t =>
    rw [ended] at first
    exact rest a t first

theorem Leads.imp {weaker : α → State → Prop} {worse : State → Prop}
    (leads : Leads env s x Q failed) (onOk : ∀ a t, Q a t → weaker a t)
    (onFailed : ∀ t, failed t → worse t) : Leads env s x weaker worse := by
  unfold Leads at leads ⊢
  cases ended : x env s with
  | error e t =>
    rw [ended] at leads
    exact onFailed t leads
  | ok a t =>
    rw [ended] at leads
    exact onOk a t leads

/-- A computation that cannot fail gives a result. -/
theorem Leads.returns (leads : Leads env s x Q fun _ => False) : ∃ a t, x env s = .ok a t ∧ Q a t := by
  unfold Leads at leads
  cases ended : x env s with
  | error e t =>
    rw [ended] at leads
    exact leads.elim
  | ok a t =>
    rw [ended] at leads
    exact ⟨a, t, rfl, leads⟩

theorem Leads.any : Leads env s x (fun _ _ => True) fun _ => True := by
  unfold Leads
  split <;> trivial

theorem Leads.pure {a : α} (holds : Q a s) : Leads env s (pure a) Q failed := holds

theorem Leads.read {f : Environment → Gen β} {final : β → State → Prop}
    (rest : Leads env s (f env) final failed) : Leads env s (read >>= f) final failed := rest

theorem Leads.get {f : State → Gen β} {final : β → State → Prop}
    (rest : Leads env s (f s) final failed) : Leads env s (get >>= f) final failed := rest

theorem Leads.modify {change : State → State} {f : Unit → Gen β} {final : β → State → Prop}
    (rest : Leads env (change s) (f ()) final failed) :
    Leads env s (modify change >>= f) final failed := rest

theorem Leads.attempt {f : Except Failure α → Gen β} {final : β → State → Prop}
    (leads : Leads env s x (fun a t => Leads env t (f (.ok a)) final failed)
      (fun t => ∀ e, Leads env t (f (.error e)) final failed)) :
    Leads env s (Gen.attempt x >>= f) final failed := by
  unfold Leads at leads ⊢
  rw [bind_eq, attempt_eq]
  cases ended : x env s with
  | error e t =>
    rw [ended] at leads
    exact leads e
  | ok a t =>
    rw [ended] at leads
    exact leads

theorem Leads.ensuring {after : State → State}
    (leads : Leads env s x (fun a t => Q a (after t)) (fun t => failed (after t))) :
    Leads env s (Gen.ensuring x after) Q failed := by
  unfold Leads at leads ⊢
  rw [ensuring_eq]
  cases ended : x env s <;> rw [ended] at leads <;> exact leads

theorem Leads.steady {Fine : Failure → Prop} (steady : Constant Fine env x)
    (onOk : ∀ a, (∀ u, x env u = .ok a u) → Q a s) (onFailed : failed s) :
    Leads env s x Q failed := by
  obtain ⟨outcome, _, always⟩ := steady
  unfold Leads
  cases outcome with
  | error e =>
    rw [always s]
    exact onFailed
  | ok a =>
    rw [always s]
    exact onOk a always

section
variable {Fine : Failure → Prop}

/-- What succeeds has no failure. -/
theorem ended_ok (a : α) (e : Failure) (same : (Except.ok a : Except Failure α) = .error e) : Fine e := by
  cases same

theorem Constant.pure (a : α) : Constant Fine env (pure a : Gen α) :=
  ⟨.ok a, ended_ok a, fun _ => rfl⟩

theorem Constant.throw {e : Failure} (fine : Fine e) : Constant Fine env (throw e : Gen α) := by
  refine ⟨.error e, ?_, fun _ => rfl⟩
  rintro _ ⟨⟩
  exact fine

theorem Constant.read : Constant Fine env (read : Gen Environment) :=
  ⟨.ok env, ended_ok env, fun _ => rfl⟩

theorem Constant.bind {x : Gen α} {f : α → Gen β} (first : Constant Fine env x)
    (rest : ∀ a, Constant Fine env (f a)) : Constant Fine env (x >>= f) := by
  obtain ⟨result, fine, ends⟩ := first
  cases result with
  | error e =>
    refine ⟨.error e, ?_, fun s => by rw [bind_eq, ends]; rfl⟩
    rintro _ ⟨⟩
    exact fine e rfl
  | ok a =>
    obtain ⟨next, fineNext, endsNext⟩ := rest a
    exact ⟨next, fineNext, fun s => by rw [bind_eq, ends]; exact endsNext s⟩

/-- What a computation gives in one state it gives in all states, if it ends the same in all. -/
theorem Constant.everywhere {x : Gen α} (steady : Constant Fine env x) {s t : State} {a : α}
    (ends : x env s = .ok a t) : t = s ∧ ∀ u, x env u = .ok a u := by
  obtain ⟨result, _, always⟩ := steady
  cases result with
  | error e =>
    rw [always] at ends
    cases ends
  | ok b =>
    rw [always] at ends
    cases ends
    exact ⟨rfl, always⟩

end

theorem Constant.weaken {Fine Weaker : Failure → Prop} {x : Gen α} (constant : Constant Fine env x)
    (implies : ∀ e, Fine e → Weaker e) : Constant Weaker env x := by
  obtain ⟨result, fine, always⟩ := constant
  exact ⟨result, fun e same => implies e (fine e same), always⟩

theorem Constant.unasked {x : Gen α} (steady : Steady env x) : Constant Failure.Unasked env x :=
  steady.weaken fun _ plain => plain.unasked

theorem Constant.ofSelection (r : Except Metadata.SelectionError α) : Steady env (Gen.ofSelection r) := by
  cases r with
  | ok a => exact .pure a
  | error e => exact .throw (.ofSelection e)

theorem Constant.fault (f : Fault) : Steady env (Gen.fault f : Gen α) := .throw (.ofFault f)

theorem Constant.platform : Steady env Gen.platform := .bind .read fun _ => .pure _

end Gen

/-! ## Ending well -/

variable {env : Environment} (D : Discipline env)

namespace Discipline

/-- What is remembered is true. -/
structure Safe (s : State) : Prop where
  calm : s.Calm
  backed : ∀ name handle, s.handles.get? name = some (some handle) → D.Backed handle
  answers : ∀ name answer, s.conformance.get? name = some answer → D.Answers name answer

/-- What is remembered is true, and the current transaction has one entry for each key. -/
structure Sound (s : State) : Prop extends D.Safe s where
  distinct : ∀ id x, s.current = some id → s.ledger.transactions[id]? = some x → x.overlay.keys.Nodup

/-- The state is extended by completions that are accounted for. -/
structure Grows (s t : State) : Prop extends Extends s t where
  added : ∃ more, t.pending = s.pending ++ more ∧ (∀ c ∈ more, D.Accounts t c) ∧
    ∀ key declarations, t.entry key = .committed declarations →
      s.entry key = .committed declarations ∨ (key, declarations) ∈ more

variable {D} {s t u : State}

theorem Grows.refl (s : State) : D.Grows s s where
  toExtends := .refl s
  added := ⟨[], (List.append_nil _).symm, by simp, fun _ _ => .inl⟩

theorem Grows.trans (first : D.Grows s t) (second : D.Grows t u) : D.Grows s u where
  toExtends := first.toExtends.trans second.toExtends
  added := by
    obtain ⟨early, pending, accounted, produced⟩ := first.added
    obtain ⟨late, pending', accounted', produced'⟩ := second.added
    refine ⟨early ++ late, by rw [pending', pending, List.append_assoc], ?_, ?_⟩
    · intro c member
      rcases List.mem_append.mp member with old | new
      · exact (accounted c old).carries second.carries
      · exact accounted' c new
    · intro key declarations found
      rcases produced' key declarations found with old | new
      · exact (produced key declarations old).imp_right (List.mem_append_left late)
      · exact .inr (List.mem_append_right _ new)

/-- A computation that starts in a state ends well: with a result and a grown state as they should
    be, or with a failure and a kept state. -/
def Ends {α : Type} (D : Discipline env) (s : State) (x : Gen α) (result : α → State → Prop) : Prop :=
  Gen.Leads env s x (fun a t => D.Sound t ∧ D.Grows s t ∧ result a t) fun t => D.Safe t ∧ Keeps s t

variable {α β : Type} {x : Gen α} {Q : α → State → Prop}

theorem Ends.pure (sound : D.Sound s) {a : α} (holds : Q a s) : D.Ends s (pure a) Q :=
  ⟨sound, .refl s, holds⟩

/-- Nothing is found, so all that is found is as it should be. -/
theorem Ends.nothing {holds : α → State → Prop} (sound : D.Sound s) :
    D.Ends s (return none) fun found t => ∀ a, found = some a → holds a t := by
  refine .pure sound fun a same => ?_
  cases same

theorem Ends.throw (safe : D.Safe s) (e : Failure) : D.Ends s (throw e : Gen α) Q :=
  ⟨safe, .refl s⟩

theorem Ends.fault (safe : D.Safe s) (f : Fault) : D.Ends s (Gen.fault f : Gen α) Q :=
  ⟨safe, .refl s⟩

theorem Ends.bind {f : α → Gen β} {final : β → State → Prop} (first : D.Ends s x Q)
    (rest : ∀ a t, D.Sound t → D.Grows s t → Q a t → D.Ends t (f a) final) :
    D.Ends s (x >>= f) final := by
  refine Gen.Leads.bind first fun a t ⟨sound, grown, holds⟩ => ?_
  refine (rest a t sound grown holds).imp ?_ ?_
  · rintro b u ⟨soundU, grownU, holdsU⟩
    exact ⟨soundU, grown.trans grownU, holdsU⟩
  · rintro u ⟨safe, kept⟩
    exact ⟨safe, grown.toKeeps.trans kept⟩

theorem Ends.imp {weaker : α → State → Prop} (ends : D.Ends s x Q)
    (implies : ∀ a t, D.Grows s t → Q a t → weaker a t) : D.Ends s x weaker :=
  Gen.Leads.imp ends (fun a t ⟨sound, grown, holds⟩ => ⟨sound, grown, implies a t grown holds⟩)
    fun _ kept => kept

theorem Ends.steady {Fine : Failure → Prop} (steady : Gen.Constant Fine env x) (sound : D.Sound s)
    (holds : ∀ a, (∀ u, x env u = .ok a u) → Q a s) : D.Ends s x Q :=
  Gen.Leads.steady steady (fun a always => ⟨sound, .refl s, holds a always⟩)
    ⟨sound.toSafe, .refl s⟩

/-- The environment is read. -/
theorem Ends.read {f : Environment → Gen β} {final : β → State → Prop}
    (rest : D.Ends s (f env) final) : D.Ends s (read >>= f) final := rest

/-- The state is read. -/
theorem Ends.get {f : State → Gen β} {final : β → State → Prop}
    (rest : D.Ends s (f s) final) : D.Ends s (get >>= f) final := rest

/-- A computation is run for each element, and what holds of a result holds on. -/
theorem Ends.mapM {f : α → Gen β} {R : α → β → State → Prop} (xs : List α)
    (keeps : ∀ a b t u, Carries t u → R a b t → R a b u)
    (run : ∀ a ∈ xs, ∀ t, D.Sound t → D.Grows s t → D.Ends t (f a) (R a)) (sound : D.Sound s) :
    D.Ends s (xs.mapM f) fun ys t => ∀ y ∈ ys, ∃ x ∈ xs, R x y t := by
  induction xs generalizing s with
  | nil =>
    rw [List.mapM_nil]
    exact .pure sound (by simp)
  | cons a xs ih =>
    rw [List.mapM_cons]
    refine .bind (run a (by simp) s sound (.refl s)) fun b t sound grown here => ?_
    refine .bind (ih (fun c member u soundU grownU => ?_) sound) fun bs u sound grown' there => ?_
    · exact run c (List.mem_cons_of_mem a member) u soundU (grown.trans grownU)
    · refine .pure sound fun y member => ?_
      rcases List.mem_cons.mp member with rfl | later
      · exact ⟨a, by simp, keeps a y t u grown'.carries here⟩
      · obtain ⟨x, found, holds⟩ := there y later
        exact ⟨x, List.mem_cons_of_mem a found, holds⟩

/-- A computation is run for each element in turn. -/
theorem Ends.forM {f : α → Gen Unit} {R : α → State → Prop} (xs : List α)
    (keeps : ∀ a t u, Carries t u → R a t → R a u)
    (run : ∀ a ∈ xs, ∀ t, D.Sound t → D.Grows s t → D.Ends t (f a) fun _ => R a)
    (sound : D.Sound s) :
    D.Ends s (xs.forM f) fun _ t => ∀ x ∈ xs, R x t := by
  induction xs generalizing s with
  | nil => exact .pure sound (by simp)
  | cons a xs ih =>
    refine .bind (run a (by simp) s sound (.refl s)) fun _ t sound grown here => ?_
    refine .imp (ih (fun c member u soundU grownU => ?_) sound) fun _ u grown' there => ?_
    · exact run c (List.mem_cons_of_mem a member) u soundU (grown.trans grownU)
    · intro x member
      rcases List.mem_cons.mp member with rfl | later
      · exact keeps x t u grown'.carries here
      · exact there x later

end Discipline

/-- Nothing is asked of definitions, so a state that is calm is safe. -/
theorem safe_any {s : State} (calm : s.Calm) : (Discipline.any env).Safe s :=
  ⟨calm, fun _ _ _ => trivial, fun _ _ _ => trivial⟩

end Bindings
