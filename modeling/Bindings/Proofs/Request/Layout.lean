import Bindings.Proofs.Generation.Layout
import Bindings.Proofs.Request.Record
import Bindings.Proofs.Request.Source

/-!
# Tables of a session

The durable table of an interface is laid out by the slot methods of the interface, and begins with the
slots of the durable tables of its bases. This needs no more of the metadata than that the base chain
is valid: two tables of one session are made at different times, but what a question has been answered
is remembered in between.
-/

namespace Bindings
open Bindings.Metadata

variable {env : Environment} {t base : TypeDefinition} {chain : List TypeDefinition} {s u : State}

/-- The durable form of an interface was declared in some state of the session, which the session has
    carried on. -/
theorem session_form (consistent : env.index.Consistent) (requests : List PublicRequest)
    (chosen : env.index.Chooses env.options.platformName? t) {unmanaged : Bool} {decl : Declaration}
    (form : (∃ d, decl = .interface d) ∨ ∃ table, decl = .vtable table)
    (durable : (env.session requests).ledger.committed.get? (Entity.type t unmanaged).key = some [decl]) :
    ∃ depth id v w context, v.In id ∧ (Upkeep.faithful env).Holds v ∧
      projectedInterface (Links.upTo depth) t context (variantName t.name unmanaged) env v =
        .ok decl w ∧ Carries w (env.session requests) := by
  have begun : (Upkeep.faithful env).Holds {} := ⟨⟨rfl, rfl, rfl⟩, nofun⟩
  have sourced : Sourced (.faithful env) _ (_, _) := session_sourced consistent begun requests durable
  cases sourced with
  | elsewhere _ nothing => cases nothing
  | produced _ own makes =>
    obtain ⟨v, rfl, space, name⟩ := Entity.eq_type own
    obtain rfl := (makes.offered.chooses consistent).eq chosen space name
    obtain ⟨depth, id, v, w, inside, holds, ran, carries⟩ := makes.ran
    obtain ⟨context, declared⟩ := declarationsOf_form form ran
    exact ⟨depth, id, v, w, context, inside, holds, declared, carries⟩

/-- The durable table of an interface stems from the slot methods of the interface. -/
theorem session_stems (consistent : env.index.Consistent) (requests : List PublicRequest)
    (chosen : env.index.Chooses env.options.platformName? t)
    (found : baseChain t env s = .ok chain u) {unmanaged : Bool} {table : VtableStructDecl}
    (durable : (env.session requests).ledger.committed.get? (Entity.type t unmanaged).key =
      some [.vtable table]) :
    table.Stems (.faithful env) (env.session requests) (chainMethods (chain ++ [t])) := by
  obtain ⟨_, _, _, _, _, inside, holds, declared, carries⟩ :=
    session_form consistent requests chosen (.inr ⟨table, rfl⟩) durable
  obtain ⟨w, insideW, holdsW, made⟩ := projectedInterface_vtable chosen inside holds declared
  exact (vtableDecl_stems consistent insideW holdsW made (slotMethods_eq found w)).carried carries

/-- The base chain of an interface begins with that of each base in it, and so do the slot methods. If both
    are durable as tables, the slots of each table are those of the slot methods, numbered without gaps and
    forwarded to by its methods, and the slots of the interface begin with those of the base. -/
theorem session_slots {roots : List Markup.Element} (built : Index.ofDocuments roots = .ok env.index)
    (requests : List PublicRequest) (found : baseChain t env s = .ok chain u) (member : base ∈ chain) :
    (∃ front back, chain = front ++ base :: back ∧ ∀ v, baseChain base env v = .ok front v) ∧
    ∃ own all, own <+: all ∧
      (∀ v, slotMethods base env v = .ok own v ∧ slotMethods t env v = .ok all v) ∧
      (env.index.Chooses env.options.platformName? t →
        ∀ (unmanaged other : Bool) (table tableBase : VtableStructDecl),
          (env.session requests).ledger.committed.get? (Entity.type t unmanaged).key =
            some [.vtable table] →
          (env.session requests).ledger.committed.get? (Entity.type base other).key =
            some [.vtable tableBase] →
          table.LaidOut all ∧ tableBase.LaidOut own ∧ table.Continues tableBase) := by
  have consistent := Index.ofDocuments_consistent built
  obtain ⟨front, back, rfl⟩ := List.append_of_mem member
  have foundBase := baseChain_front found
  have begins : chainMethods (front ++ [base]) <+: chainMethods (front ++ base :: back ++ [t]) :=
    chainMethods_prefix ⟨back ++ [t], by simp⟩
  refine ⟨⟨front, back, rfl, foundBase⟩, _, _, begins,
    fun v => ⟨slotMethods_eq (foundBase v) v, slotMethods_eq found v⟩, ?_⟩
  intro chosen unmanaged other table tableBase durable durableBase
  obtain ⟨⟨_, means⟩, _⟩ := (baseChain_ok found).mem base (List.mem_reverse.mpr member)
  have stems := session_stems consistent requests chosen found durable
  have stemsBase := session_stems consistent requests (means.chooses consistent).1 (foundBase {}) durableBase
  exact ⟨stems.laidOut, stemsBase.laidOut,
    stems.continues consistent (Upkeep.faithful_answers _) stemsBase begins⟩

/-- Three interfaces with a struct, a delegate and an interface in their methods, that do not begin with
    the universal base. -/
def layeredDocument : Markup.Element :=
  oneNamespace "Ns" [
    ⟨"struct", [("name", "NODE")], "", [⟨"field", [("name", "next"), ("type", "NODE*")], "", []⟩]⟩,
    ⟨"delegate", [("name", "VISIT"), ("returns", "void")], "",
      [⟨"param", [("name", "node"), ("type", "NODE*")], "", []⟩]⟩,
    ⟨"interface", [("name", "IRoot")], "",
      [⟨"method", [("name", "Count"), ("returns", "u4")], "", []⟩]⟩,
    ⟨"interface", [("name", "IBase"), ("base", "IRoot")], "",
      [⟨"method", [("name", "Walk"), ("returns", "void")], "",
        [⟨"param", [("name", "first"), ("type", "NODE*")], "", []⟩,
          ⟨"param", [("name", "visit"), ("type", "VISIT")], "", []⟩]⟩]⟩,
    ⟨"interface", [("name", "IDerived"), ("base", "IBase")], "",
      [⟨"method", [("name", "Clone"), ("returns", "i4")], "",
        [⟨"param", [("name", "from"), ("type", "IBase*")], "", []⟩]⟩]⟩]

/-- The names of the slots of a table that is durable alone. -/
def slotNames? : Option (List Declaration) → Option (List String)
  | some [.vtable table] => some (table.slots.map (·.name))
  | _ => none

theorem slotNames?_eq_some {durable : Option (List Declaration)} {names : List String}
    (named : slotNames? durable = some names) :
    ∃ table, durable = some [.vtable table] ∧ table.slots.map (·.name) = names := by
  unfold slotNames? at named
  split at named
  · exact ⟨_, rfl, Option.some.inj named⟩
  · cases named

/-- The keys of the type that a reference means, and of the types in its base chain. -/
def lineKeys? (env : Environment) (reference : QualifiedName) : Option (List EntityKey) :=
  match resolve reference env {} with
  | .ok (some t) _ =>
    match baseChain t env {} with
    | .ok chain _ => some ((t :: chain).map fun d => (Entity.type d false).key)
    | .error .. => none
  | _ => none

theorem lineKeys?_eq_some {reference : QualifiedName} {keys : List EntityKey}
    (found : lineKeys? env reference = some keys) : ∃ t chain u, Means env reference t ∧
      baseChain t env {} = .ok chain u ∧ keys = (t :: chain).map fun d => (Entity.type d false).key := by
  unfold lineKeys? at found
  split at found
  · next t u resolved =>
    split at found
    · next chain v climbed =>
      exact ⟨t, chain, v, ((resolve_steady reference).everywhere resolved).2, climbed,
        (Option.some.inj found).symm⟩
    · cases found
  · cases found

/-- A session that asks for a base and then for what derives from it lays out the slots of both. -/
theorem layered_slots :
    let env := Environment.reading [layeredDocument]
    let durable := (env.session [.byName "IBase", .byName "IDerived"]).ledger.committed
    ∃ table tableBase own all,
      durable.get? ⟨.type, ⟨"Ns", "IDerived"⟩, false⟩ = some [.vtable table] ∧
      durable.get? ⟨.type, ⟨"Ns", "IBase"⟩, false⟩ = some [.vtable tableBase] ∧
      table.slots.map (·.name) = ["Count", "Walk", "Clone"] ∧
      tableBase.slots.map (·.name) = ["Count", "Walk"] ∧
      table.LaidOut all ∧ tableBase.LaidOut own ∧ table.Continues tableBase := by
  intro env durable
  have built : Index.ofDocuments [layeredDocument] = .ok env.index := reading_built (by decide +kernel)
  have held : slotNames? (durable.get? ⟨.type, ⟨"Ns", "IDerived"⟩, false⟩) =
      some ["Count", "Walk", "Clone"] := by decide +kernel
  have heldBase : slotNames? (durable.get? ⟨.type, ⟨"Ns", "IBase"⟩, false⟩) =
      some ["Count", "Walk"] := by decide +kernel
  have line : lineKeys? env ⟨"Ns", "IDerived"⟩ = some [⟨.type, ⟨"Ns", "IDerived"⟩, false⟩,
      ⟨.type, ⟨"Ns", "IRoot"⟩, false⟩, ⟨.type, ⟨"Ns", "IBase"⟩, false⟩] := by decide +kernel
  obtain ⟨table, there, names⟩ := slotNames?_eq_some held
  obtain ⟨tableBase, thereBase, namesBase⟩ := slotNames?_eq_some heldBase
  obtain ⟨t, chain, u, means, climbed, keys⟩ := lineKeys?_eq_some line
  obtain ⟨(key : _ = (Entity.type t false).key), along⟩ := List.cons.inj keys
  obtain ⟨root, rest, rfl, _, along⟩ := List.map_eq_cons_iff.mp along.symm
  obtain ⟨base, rest, rfl, (keyBase : (Entity.type base false).key = _), _⟩ :=
    List.map_eq_cons_iff.mp along
  have chosen := (means.chooses (Index.ofDocuments_consistent built)).1
  have member : base ∈ root :: base :: rest := by simp
  obtain ⟨_, own, all, _, _, tables⟩ :=
    session_slots built [.byName "IBase", .byName "IDerived"] climbed member
  refine ⟨table, tableBase, own, all, there, thereBase, names, namesBase, ?_⟩
  exact tables chosen false false table tableBase (key ▸ there) (keyBase ▸ thereBase)

end Bindings
