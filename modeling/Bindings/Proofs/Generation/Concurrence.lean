import Bindings.Proofs.Generation.Source

/-!
# Computations that concur

Two computations in different states give the same if the questions that they ask are answered in
the same way. This is so if each question has one right answer, and it is so if both states come
before a later one that remembers what either has been answered.
-/

namespace Bindings
open Bindings.Metadata

variable {env : Environment} {α β : Type} {s t : State}

/-- A bound on the states that computations may end in. What comes before a state within the bound,
    and has been carried on to it, is within it too. -/
structure Horizon where
  Within : State → Prop
  back : ∀ {s t}, Carries s t → Within t → Within s

/-- All states. -/
def Horizon.open : Horizon := ⟨fun _ => True, fun _ _ => trivial⟩

/-- The states of which all is remembered in a later one. -/
def Horizon.before (later : State) : Horizon := ⟨fun s => Carries s later, fun first rest => first.trans rest⟩

/-- Two computations in two states whose memory is right give the same if both give a result within
    a horizon. -/
structure Concurs (U : Upkeep env) (H : Horizon) (x y : Gen α) : Prop where
  left : Traces U (fun _ => True) x
  right : Traces U (fun _ => True) y
  same : ∀ {i j s t a b u v}, s.In i → t.In j → U.Holds s → U.Holds t → x env s = .ok a u →
    y env t = .ok b v → H.Within u → H.Within v → a = b

section
variable {U : Upkeep env} {H : Horizon} {x y : Gen α}

theorem Concurs.congr {u v : Gen α} (left : ∀ s, x env s = u env s) (right : ∀ s, y env s = v env s)
    (concurs : Concurs U H u v) : Concurs U H x y where
  left := concurs.left.congr left
  right := concurs.right.congr right
  same insideS insideT holdsS holdsT endsX endsY :=
    concurs.same insideS insideT holdsS holdsT (left _ ▸ endsX) (right _ ▸ endsY)

theorem Concurs.pure (a : α) : Concurs U H (pure a : Gen α) (pure a) where
  left := .pure trivial
  right := .pure trivial
  same _ _ _ _ endsX endsY _ _ := (Gen.pure_ok endsX).1.symm.trans (Gen.pure_ok endsY).1

theorem Concurs.throw (e : Failure) : Concurs U H (throw e : Gen α) (throw e) where
  left := .throw e
  right := .throw e
  same _ _ _ _ endsX _ _ _ := by cases endsX

/-- Two computations that have no result to speak of. -/
theorem Concurs.units {x y : Gen Unit} (left : Traces U (fun _ => True) x)
    (right : Traces U (fun _ => True) y) : Concurs U H x y := ⟨left, right, fun _ _ _ _ _ _ _ _ => rfl⟩

theorem Concurs.bind {f g : α → Gen β} (first : Concurs U H x y) (rest : ∀ a, Concurs U H (f a) (g a)) :
    Concurs U H (x >>= f) (y >>= g) where
  left := .bind first.left fun a _ => (rest a).left
  right := .bind first.right fun a _ => (rest a).right
  same insideS insideT holdsS holdsT endsX endsY withinX withinY := by
    obtain ⟨a, u, firstX, endsX⟩ := Gen.bind_ok endsX
    obtain ⟨b, v, firstY, endsY⟩ := Gen.bind_ok endsY
    obtain ⟨insideU, holdsU, _⟩ := first.left.ended insideS holdsS firstX
    obtain ⟨insideV, holdsV, _⟩ := first.right.ended insideT holdsT firstY
    -- What the first part ends in is within the horizon, as the rest carries it on to its own end.
    have withinU := H.back ((rest a).left.carries insideU holdsU endsX) withinX
    have withinV := H.back ((rest b).right.carries insideV holdsV endsY) withinY
    obtain rfl := first.same insideS insideT holdsS holdsT firstX firstY withinU withinV
    exact (rest a).same insideU insideV holdsU holdsV endsX endsY withinX withinY

/-- A question that can only have one answer is asked, and the answer is known to what follows. -/
theorem Concurs.asking {P : α → Prop} {f g : α → Gen β} (traces : Traces U P x)
    (only : ∀ a b, P a → P b → a = b) (rest : ∀ a, P a → Concurs U H (f a) (g a)) :
    Concurs U H (x >>= f) (x >>= g) where
  left := .bind traces fun a known => (rest a known).left
  right := .bind traces fun a known => (rest a known).right
  same insideS insideT holdsS holdsT endsX endsY withinX withinY := by
    obtain ⟨a, u, firstX, endsX⟩ := Gen.bind_ok endsX
    obtain ⟨b, v, firstY, endsY⟩ := Gen.bind_ok endsY
    obtain ⟨insideU, holdsU, known⟩ := traces.ended insideS holdsS firstX
    obtain ⟨insideV, holdsV, other⟩ := traces.ended insideT holdsT firstY
    obtain rfl := only a b known other
    exact (rest a known).same insideU insideV holdsU holdsV endsX endsY withinX withinY

/-- A question that can only have one answer. -/
theorem Concurs.question {P : α → Prop} (traces : Traces U P x) (only : ∀ a b, P a → P b → a = b) :
    Concurs U H x x := by
  have asked : Concurs U H (x >>= Pure.pure) (x >>= Pure.pure) :=
    .asking traces only fun a _ => .pure a
  rwa [bind_pure] at asked

/-- A question whose answer is remembered, so that one later state knows the answer to both. -/
theorem Concurs.remembered {later : State} {R : State → α → Prop} (traces : Traces U (fun _ => True) x)
    (records : ∀ {s}, U.Holds s → Gen.Leads env s x (fun a t => R t a) fun _ => True)
    (carries : ∀ {s t a}, Carries s t → R s a → R t a)
    (only : ∀ {a b}, R later a → R later b → a = b) :
    Concurs U (.before later) x x where
  left := traces
  right := traces
  same _ _ holdsS holdsT endsX endsY carriesU carriesV := by
    have here := records holdsS
    have there := records holdsT
    rw [Gen.Leads, endsX] at here
    rw [Gen.Leads, endsY] at there
    exact only (carries carriesU here) (carries carriesV there)

theorem Concurs.expansion (name : String) (concurs : Concurs U H x y) :
    Concurs U H (inExpansion name x) (inExpansion name y) where
  left := concurs.left.expansion name
  right := concurs.right.expansion name
  same insideS insideT holdsS holdsT endsX endsY withinX withinY := by
    have forgets : ∀ (u : State) (expanding : List String), Carries u { u with expanding } :=
      fun u _ => .of_memory (fun _ known => known) rfl
    obtain ⟨u, ranX, rfl⟩ := inExpansion_ok endsX
    obtain ⟨v, ranY, rfl⟩ := inExpansion_ok endsY
    refine concurs.same (insideS.expansion _) (insideT.expansion _) ?_ ?_ ranX ranY
      (H.back (forgets u _) withinX) (H.back (forgets v _) withinY)
    · exact U.alike holdsS rfl
    · exact U.alike holdsT rfl

end

/-! ## Questions that concur -/

/-- The answers to the questions that are asked while declarations are made do not depend on the state
    in which they are asked. -/
structure Upkeep.Answers (U : Upkeep env) (H : Horizon) : Prop where
  conforming : ∀ {d}, env.index.Chooses env.options.platformName? d →
    Concurs U H (isConforming d) (isConforming d)
  managed : ∀ {d}, env.index.Chooses env.options.platformName? d →
    Concurs U H (isManagedType d true) (isManagedType d true)
  handle : ∀ name, Traces U (fun answer => ∀ u, buildHandle name env u = .ok answer u) (guardedHandle? name)

section
variable (consistent : env.index.Consistent) {U : Upkeep env} {H : Horizon} (answers : U.Answers H)

/-- Computations that concur. -/
def Comparison.concurring : Comparison env :=
  .offered consistent (Concurs U H)
    .congr .pure (fun {_ e} _ => .throw e) .bind answers.conforming answers.managed
    (fun name _ _ rest => .asking (answers.handle name)
      (fun _ _ here there => (EStateM.Result.ok.inj ((here {}).symm.trans (there {}))).1)
      fun answer always => rest answer fun _ same => ⟨name, same ▸ always⟩)

/-- Links of any lengths concur. -/
theorem concurring_linked (depth other : Nat) :
    (Comparison.concurring consistent answers).Linked (Links.upTo depth) (Links.upTo other) := by
  have left := traced_linked consistent U depth
  have right := traced_linked consistent U other
  refine ⟨fun e offered => .units (left.demand e offered) (right.demand e offered), fun t chosen => ?_⟩
  induction depth generalizing other t with
  | zero =>
    exact ⟨left.functionPointer t chosen, right.functionPointer t chosen,
      fun _ _ _ _ ended _ _ _ => by cases ended⟩
  | succ depth ih =>
    cases other with
    | zero =>
      exact ⟨left.functionPointer t chosen, right.functionPointer t chosen,
        fun _ _ _ _ _ ended _ _ => by cases ended⟩
    | succ other =>
      have left := traced_linked consistent U depth
      have right := traced_linked consistent U other
      have inner : (Comparison.concurring consistent answers).Linked (Links.upTo depth) (Links.upTo other) :=
        ⟨fun e offered => .units (left.demand e offered) (right.demand e offered), ih other left right⟩
      exact .expansion t.full (delegateType_matches inner t)

end

/-! ## Questions that are remembered -/

/-- The answers to questions within one session do not change. -/
theorem Upkeep.faithful_answers (later : State) : (Upkeep.faithful env).Answers (.before later) where
  conforming {d} chosen := by
    refine .remembered (R := fun t answer => t.Conforms d answer) (.conforming chosen) (fun {s} _ => ?_)
      (fun carries held => carries.conforms d _ held) fun here there => ?_
    · exact (isConforming_leads (D := .any env) (s := s) (d := d) trivial fun _ _ _ => trivial).imp
        (fun _ _ ended => ended.2) fun _ _ => trivial
    · exact Option.some.inj (here.symm.trans there)
  managed {d} chosen := by
    refine .remembered (R := fun t verdict => t.Judges d verdict) (.managed chosen) (fun {s} holds => ?_)
      (fun carries held => carries.judges d _ held) fun here there => ?_
    · have safe : (Discipline.any env).Safe s := safe_any holds.1
      exact (isManagedType_leads safe true (d := d) trivial).imp (fun _ _ ended => ended.2) fun _ _ => trivial
    · exact Option.some.inj (here.symm.trans there)
  handle name := .asking (guardedHandle?_secluded name) (guardedHandle?_recalling name) fun holds =>
    holds.2.guardedHandle? holds.1 name

end Bindings
