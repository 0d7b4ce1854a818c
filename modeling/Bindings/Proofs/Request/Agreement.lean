import Bindings.Proofs.Request.Fairness
import Bindings.Proofs.Request.Identity
import Bindings.Proofs.Request.Source

/-!
# Sessions agree

What a type, a constant, a template or a handle is declared as does not depend on what else a session
has been asked for, nor on what became of it. This needs types with full names of their own: what is
remembered of a type is remembered under its full name.
-/

namespace Bindings
open Bindings.Metadata

variable {env : Environment}

/-- Two sessions that read the same declare in the same way whatever both of them have made durable,
    but for functions and for inline arrays. -/
theorem sessions_agree {roots : List Markup.Element} {templates : List Template}
    (built : Index.ofDocuments roots = .ok env.index)
    (catalog : env.templates = Catalog.ofTemplates templates)
    (replies : Replies env (env.index.Chooses env.options.platformName?))
    (apart : ∀ t u, env.index.Chooses env.options.platformName? t →
      env.index.Chooses env.options.platformName? u → t.full = u.full → t.space = u.space)
    (history other : List PublicRequest) (key : EntityKey) (tells : key.kind.Telling)
    {first second : List Declaration}
    (here : (env.session history).ledger.committed.get? key = some first)
    (there : (env.session other).ledger.committed.get? key = some second) : first = second := by
  have consistent := Index.ofDocuments_consistent built
  have terrain : Terrain env (env.index.Chooses env.options.platformName?) := by
    refine terrain_of_chooses built (fun _ chosen => chosen) (fun t u _ holds => ?_) apart
    obtain ⟨_, _, _, _, _, _, means⟩ := holds
    exact (means.chooses consistent).1
  let U := Upkeep.fair consistent terrain replies
  have sourced : Sourced U _ (key, first) := session_sourced consistent (U := U) Fair.init history here
  have sourcedOther : Sourced U _ (key, second) := session_sourced consistent (U := U) Fair.init other there
  cases sourced with
  | elsewhere available nothing =>
    cases sourcedOther with
    | elsewhere _ nothingOther => exact nothing.trans nothingOther.symm
    | produced missing _ _ => cases available.symm.trans missing
  | produced missing own makes =>
    cases sourcedOther with
    | elsewhere available _ => cases available.symm.trans missing
    | produced _ ownOther makesOther =>
      obtain rfl := makes.offered.eq_of_key consistent catalog makesOther.offered
        (own.trans ownOther.symm) (by rw [own]; exact tells)
      obtain ⟨_, _, _, _, insideS, fairS, ran, _⟩ := makes.ran
      obtain ⟨_, _, _, _, insideT, fairT, ranOther, _⟩ := makesOther.ran
      exact Fair.declarations_eq consistent terrain replies makes.offered insideS insideT fairS fairT
        ran ranOther

/-- A struct that points to itself and holds a delegate, a handle with its release function, functions
    that take both, an interface, a constant, and a struct that holds an unknown type. -/
def sharedDocument : Markup.Element :=
  oneNamespace "Ns" [
    ⟨"struct", [("name", "NODE")], "",
      [⟨"field", [("name", "next"), ("type", "NODE*")], "", []⟩,
        ⟨"field", [("name", "visit"), ("type", "VISIT")], "", []⟩]⟩,
    ⟨"delegate", [("name", "VISIT"), ("returns", "void")], "",
      [⟨"param", [("name", "node"), ("type", "NODE*")], "", []⟩]⟩,
    ⟨"struct", [("name", "LOST")], "",
      [⟨"field", [("name", "node"), ("type", "NODE")], "", []⟩,
        ⟨"field", [("name", "at"), ("type", "NODE*")], "", []⟩,
        ⟨"field", [("name", "lost"), ("type", "NOWHERE*")], "", []⟩]⟩,
    ⟨"struct", [("name", "LOCK"), ("typedef", "true"), ("release", "Unlock")], "",
      [⟨"field", [("name", "Value"), ("type", "isize")], "", []⟩]⟩,
    ⟨"function", [("name", "Unlock"), ("module", "k"), ("returns", "bool")], "",
      [⟨"param", [("name", "lock"), ("type", "LOCK")], "", []⟩]⟩,
    ⟨"function", [("name", "Take"), ("module", "k"), ("returns", "LOCK")], "",
      [⟨"param", [("name", "node"), ("type", "NODE*")], "", []⟩]⟩,
    interfaceElement "IUnknown" [],
    interfaceElement "IThing" [("base", "IUnknown")],
    ⟨"constant", [("name", "LIMIT"), ("type", "u4"), ("value", "7")], "", []⟩]

/-- A session in which a request fails agrees with one that asks in another order. -/
theorem sessions_agree_shared :
    let env := Environment.reading [sharedDocument]
    let history := [.byName "LOST", .byName "VISIT", .byName "Take", .byName "NODE", .byName "LIMIT"]
    let other := [.byName "LIMIT", .byName "IThing", .byName "NODE", .byName "Take"]
    let shared : List EntityKey := [⟨.type, ⟨"Ns", "NODE"⟩, false⟩, ⟨.type, ⟨"Ns", "NODE"⟩, true⟩,
      ⟨.constant, ⟨"Ns", "LIMIT"⟩, false⟩, ⟨.guardedHandle, ⟨"Ns", "UnlockSafeHandle"⟩, false⟩]
    (∀ key ∈ shared, ((env.session history).ledger.committed.get? key).isSome = true ∧
      ((env.session other).ledger.committed.get? key).isSome = true) ∧
    ∀ key first second, key.kind.Telling →
      (env.session history).ledger.committed.get? key = some first →
      (env.session other).ledger.committed.get? key = some second → first = second := by
  intro env history other shared
  have built : Index.ofDocuments [sharedDocument] = .ok env.index := reading_built (by decide +kernel)
  have replies : ∀ t ∈ env.types, Gen.succeeds env (isManagedType t true) = true := by decide +kernel
  have spaces : ∀ t ∈ env.types, ∀ u ∈ env.types, t.full = u.full → t.space = u.space := by
    decide +kernel
  refine ⟨by decide +kernel, fun key first second tells here there => ?_⟩
  exact sessions_agree built rfl (fun t chosen => replies t (mem_types chosen))
    (fun t u first second => spaces t (mem_types first) u (mem_types second)) history other key
    tells here there

/-- Of two interfaces with one full name, the second is declared by the answer that the first one got,
    if that was asked about before: as a table of methods, and not as the interface that it is alone. -/
theorem sessions_differ :
    let env := Environment.reading collidingDocuments
    Index.ofDocuments collidingDocuments = .ok env.index ∧
      (∀ t ∈ env.types, ∀ marshaling, Gen.succeeds env (isManagedType t marshaling) = true) ∧
      ∃ (history other : List PublicRequest) (key : EntityKey) (first second : List Declaration),
        key.kind.Telling ∧ (env.session history).ledger.committed.get? key = some first ∧
        (env.session other).ledger.committed.get? key = some second ∧ first ≠ second := by
  intro env
  have tabled : ((env.session [.byName "B.C", .byName "D"]).ledger.committed.get?
      ⟨.type, ⟨"A.B", "C"⟩, false⟩).map (·.map (·.vtable?.isSome)) = some [true] := by decide +kernel
  have plain : ((env.session [.byName "D"]).ledger.committed.get?
      ⟨.type, ⟨"A.B", "C"⟩, false⟩).map (·.map (·.vtable?.isSome)) = some [false] := by decide +kernel
  obtain ⟨first, here, tabled⟩ := Option.map_eq_some_iff.mp tabled
  obtain ⟨second, there, plain⟩ := Option.map_eq_some_iff.mp plain
  refine ⟨reading_built (by decide +kernel), by decide +kernel, _, _, _, first, second, by decide, here,
    there, ?_⟩
  rintro rfl
  cases tabled.symm.trans plain

end Bindings
