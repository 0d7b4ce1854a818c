import Bindings.Proofs.Generation.Plans
import Bindings.Proofs.Request.Layout

/-!
# The two forms of an interface

A true interface leaves the methods of the universal base out and tells by the name of their owner
which these are; a table of methods has them all. As long as only the root of the base chain has that
name, the true interface has exactly the slots behind those of the root, in their order
(`forms_mirror`).
-/

namespace Bindings
open Bindings.Metadata

variable {env : Environment} {t root : TypeDefinition} {chain rest : List TypeDefinition} {s u : State}
  {links : Links} {d : InterfaceDecl} {table : VtableStructDecl}

/-! ## What the forms are made of -/

theorem interfaceMethod_gives (context : Context) (owner : TypeDefinition) (m : Method)
    (isInherited : Bool) : Gen.Gives env (interfaceMethod links context owner m isInherited) fun made =>
      made.name = m.name ∧ made.isInherited = isInherited := by
  unfold interfaceMethod
  refine .bind .any fun preserved _ => ?_
  split
  · cases splitResult m.params with
    | mk params target =>
      dsimp only
      split <;> exact .bind .any fun _ _ => .bind .any fun _ _ => .pure ⟨rfl, rfl⟩
  · exact .bind .any fun _ _ => .bind .any fun _ _ => .pure ⟨rfl, rfl⟩

/-- A true interface is made of its base chain and of the methods along it, but for the interfaces
    that are called like the universal base. -/
theorem interfaceDecl_gives (found : baseChain t env s = .ok chain u) :
    Gen.Gives env (interfaceDecl links t) fun made =>
      made.bases = (chain.filter (·.name ≠ env.substitutions.universalBase)).map (·.full) ∧
      made.methods.map (fun m => (m.name, m.isInherited)) =
        ((ownedMethods chain t).filter (·.1.name ≠ env.substitutions.universalBase)).map
          fun entry => (entry.2.1.name, entry.2.2) := by
  have always := ((baseChain_fixed t).everywhere found).2
  have climbs : Gen.Gives env (baseChain t) (· = chain) := by
    intro v line w climbed
    exact (EStateM.Result.ok.inj (climbed.symm.trans (always v))).1
  have each : ∀ entry : TypeDefinition × Method × Bool, Gen.Gives env
      (interfaceMethod links { allowMarshaling := true, preferInOutRef := true } entry.1 entry.2.1
        entry.2.2) fun made => made.name = entry.2.1.name ∧ made.isInherited = entry.2.2 :=
    fun entry => interfaceMethod_gives _ entry.1 entry.2.1 entry.2.2
  unfold interfaceDecl
  refine (Judgement.all env).read (.bind climbs fun line same => ?_)
  subst same
  refine .bind .any fun _ _ => .bind (Gen.Gives.mapM each _) fun methods made => ?_
  refine .bind .any fun _ _ => .bind .any fun _ _ => .pure ⟨rfl, ?_⟩
  refine List.ext_getElem (by simp [made.1]) fun i low high => ?_
  simp only [List.length_map] at low high
  obtain ⟨name, isInherited⟩ := made.2 i _ _ (List.getElem?_eq_getElem high) (List.getElem?_eq_getElem low)
  simp [name, isInherited]

/-- The slots of a table are those of the methods along the base chain. -/
theorem vtableDecl_laidOut {name : String} (found : baseChain t env s = .ok chain u) {v w : State}
    (made : vtableDecl links t name env v = .ok table w) : table.LaidOut (chainMethods (chain ++ [t])) := by
  obtain ⟨methods, entries, slotted, filled, slots, forwarders⟩ := vtableDecl_ok made
  obtain ⟨rfl, _⟩ := EStateM.Result.ok.inj ((slotMethods_eq found v).symm.trans slotted)
  have each : ∀ entry : (TypeDefinition × Method) × Nat, Gen.Gives env
      (vtableEntry links table.receiver entry.2 entry.1.1 entry.1.2) fun made =>
        ∃ signature, made = slotEntry table.receiver entry.2 entry.1.1 entry.1.2 signature := by
    intro entry
    rw [vtableEntry_eq, map_eq_pure_bind]
    exact .bind .any fun signature _ => .pure ⟨signature, rfl⟩
  obtain ⟨length, place⟩ := Gen.Gives.mapM each _ v entries w filled
  rw [List.length_zipIdx] at length
  refine ⟨by simp [slots, length], by simp [forwarders, length], fun i owner m there => ?_⟩
  have numbered : (chainMethods (chain ++ [t])).zipIdx[i]? = some ((owner, m), i) := by simp [there]
  have inside : i < entries.length := length ▸ (List.getElem?_eq_some_iff.mp there).1
  have at' := List.getElem?_eq_getElem inside
  obtain ⟨signature, same⟩ := place i _ _ numbered at'
  rw [same] at at'
  exact ⟨_, _, by rw [slots, List.getElem?_map, at']; rfl, by rw [forwarders, List.getElem?_map, at']; rfl,
    rfl, rfl, rfl, ⟨rfl, rfl, rfl, rfl⟩⟩

/-! ## Chains over the universal base -/

/-- The base chain of an interface that reaches the universal base by its bases begins with a root of
    that name. -/
theorem Reaches.rooted (reaches : Reaches env t) (other : t.name ≠ env.substitutions.universalBase)
    (found : baseChain t env s = .ok chain u) :
    ∃ root rest, chain = root :: rest ∧ root.name = env.substitutions.universalBase := by
  obtain ⟨line, root, climbs, last, universal⟩ := reaches.resolve_left other
  obtain rfl := climbs.unique (baseChain_ok found)
  cases chain with
  | nil => cases last
  | cons first rest =>
    refine ⟨first, rest, rfl, ?_⟩
    rw [List.reverse_cons, List.getLast?_concat] at last
    rwa [Option.some.inj last]

/-- No interface is called like itself among its bases. -/
theorem baseChain_apart (found : baseChain t env s = .ok chain u) : ∀ base ∈ chain, base.full ≠ t.full := by
  intro base member same
  unfold baseChain at found
  rw [Gen.read_bind] at found
  obtain ⟨line, _, climbed, ended⟩ := Gen.bind_ok found
  obtain ⟨rfl, _⟩ := Gen.pure_ok ended
  have unmet := (climb_distinct climbed).2 base (List.mem_reverse.mp member)
  exact unmet (by simp [same])

/-- The methods of the bases and of an interface, told apart by the full names of their owners. -/
theorem ownedMethods_eq (apart : ∀ base ∈ rest, base.full ≠ t.full) :
    ownedMethods rest t =
      (chainMethods (rest ++ [t])).map fun entry => (entry.1, entry.2, decide (entry.1.full ≠ t.full)) := by
  have inherited : ∀ base ∈ rest, base.methods.map (base, ·, true) =
      (base.methods.map (base, ·)).map fun entry : TypeDefinition × Method =>
        (entry.1, entry.2, decide (entry.1.full ≠ t.full)) := by
    intro base member
    simp [apart base member]
  have own : t.methods.map (t, ·, false) =
      (t.methods.map (t, ·)).map fun entry : TypeDefinition × Method =>
        (entry.1, entry.2, decide (entry.1.full ≠ t.full)) := by
    simp
  rw [ownedMethods, chainMethods, List.flatMap_append, List.map_append, List.flatMap_singleton, own,
    List.map_flatMap]
  rw [List.flatMap_def, List.flatMap_def, List.map_congr_left inherited]

/-- Where only the root is called like the universal base, exactly its methods are left out. -/
theorem ownedMethods_filter {universal : String} (called : root.name = universal)
    (once : ∀ base ∈ rest, base.name ≠ universal) (other : t.name ≠ universal) :
    (ownedMethods (root :: rest) t).filter (·.1.name ≠ universal) = ownedMethods rest t := by
  have kept : (ownedMethods rest t).filter (·.1.name ≠ universal) = ownedMethods rest t := by
    refine List.filter_eq_self.mpr fun entry member => ?_
    rcases List.mem_append.mp member with inherited | own
    · obtain ⟨base, among, held⟩ := List.mem_flatMap.mp inherited
      obtain ⟨m, _, rfl⟩ := List.mem_map.mp held
      exact decide_eq_true (once base among)
    · obtain ⟨m, _, rfl⟩ := List.mem_map.mp own
      exact decide_eq_true other
  have dropped : (root.methods.map (root, ·, true)).filter
      (fun entry : TypeDefinition × Method × Bool => decide (entry.1.name ≠ universal)) = [] := by
    simp [called]
  rw [ownedMethods, List.flatMap_cons, List.append_assoc, List.filter_append, dropped, List.nil_append]
  exact kept

/-! ## Mirrors -/

/-- A true interface is the image of a table behind the slots of the root: its methods are the slots
    there, inherited unless the interface owns them, and its bases are what is between. -/
structure InterfaceDecl.Mirrors (d : InterfaceDecl) (table : VtableStructDecl) (t root : TypeDefinition)
    (rest : List TypeDefinition) : Prop where
  bases : d.bases = rest.map (·.full)
  dropped : (table.slots.take root.methods.length).map (fun slot => (slot.owner, slot.name)) =
    root.methods.map fun m => (root.full, m.name)
  names : d.methods.map (·.name) = (table.slots.drop root.methods.length).map (·.name)
  place : ∀ (j : Nat) m, d.methods[j]? = some m → ∃ slot,
    table.slots[root.methods.length + j]? = some slot ∧ slot.index = root.methods.length + j ∧
      slot.name = m.name ∧ (m.isInherited = true ↔ slot.owner ≠ t.full)

/-- The owners and the names of the slots of a table. -/
theorem VtableStructDecl.LaidOut.owned {methods : List (TypeDefinition × Method)}
    (laid : table.LaidOut methods) :
    table.slots.map (fun slot => (slot.owner, slot.name)) =
      methods.map fun entry => (entry.1.full, entry.2.name) := by
  refine List.ext_getElem (by simp [laid.slots]) fun i low high => ?_
  simp only [List.length_map] at low high
  obtain ⟨slot, _, there, _, _, name, owner, _⟩ := laid.place i _ _ (List.getElem?_eq_getElem high)
  have here : table.slots[i] = slot := Option.some.inj ((List.getElem?_eq_getElem low).symm.trans there)
  simp [here, name, owner]

/-- A true interface is the image of a table that is laid out by the same base chain. -/
theorem VtableStructDecl.LaidOut.mirrors (laid : table.LaidOut (chainMethods (root :: rest ++ [t])))
    (bases : d.bases = rest.map (·.full))
    (methods : d.methods.map (fun m => (m.name, m.isInherited)) =
      (chainMethods (rest ++ [t])).map fun entry => (entry.2.name, decide (entry.1.full ≠ t.full))) :
    d.Mirrors table t root rest := by
  have cut : chainMethods (root :: rest ++ [t]) = root.methods.map (root, ·) ++ chainMethods (rest ++ [t]) :=
    rfl
  have owned := laid.owned
  rw [cut, List.map_append] at owned
  have length : (root.methods.map (root, ·)).length = root.methods.length := List.length_map _
  refine ⟨bases, ?_, ?_, fun j m there => ?_⟩
  · rw [List.map_take, owned, List.take_left' (by simp)]
    simp
  · have behind : (table.slots.drop root.methods.length).map (fun slot => (slot.owner, slot.name)) =
        (chainMethods (rest ++ [t])).map fun entry => (entry.1.full, entry.2.name) := by
      rw [List.map_drop, owned, List.drop_left' (by simp)]
    calc d.methods.map (·.name)
        = (d.methods.map fun m => (m.name, m.isInherited)).map (·.1) := by simp
      _ = (chainMethods (rest ++ [t])).map (·.2.name) := by simp [methods]
      _ = ((table.slots.drop root.methods.length).map fun slot => (slot.owner, slot.name)).map (·.2) := by
          simp [behind]
      _ = (table.slots.drop root.methods.length).map (·.name) := by
          rw [List.map_map]
          rfl
  · -- the method in this place is that of the slot, past those of the root
    have pair : (d.methods.map fun m => (m.name, m.isInherited))[j]? = some (m.name, m.isInherited) := by
      simp [there]
    rw [methods, List.getElem?_map] at pair
    obtain ⟨⟨owner, called⟩, held, same⟩ := Option.map_eq_some_iff.mp pair
    obtain ⟨name, isInherited⟩ := Prod.mk.inj same
    have past : (chainMethods (root :: rest ++ [t]))[root.methods.length + j]? = some (owner, called) := by
      rw [cut, List.getElem?_append_right (by simp), length, Nat.add_sub_cancel_left, held]
    obtain ⟨slot, _, at', _, index, slotName, slotOwner, _⟩ := laid.place _ owner called past
    refine ⟨slot, at', index, slotName.trans name, ?_⟩
    rw [← isInherited, slotOwner, decide_eq_true_iff]

/-- The two forms of an interface that reaches the universal base describe the same methods, if the
    interface is not called like the universal base and its base chain has that name only at its root. -/
theorem forms_mirror (conforms : Reaches env t) (other : t.name ≠ env.substitutions.universalBase)
    (found : baseChain t env s = .ok chain u)
    (once : ∀ base ∈ chain.tail, base.name ≠ env.substitutions.universalBase) :
    ∃ root rest, chain = root :: rest ∧ root.name = env.substitutions.universalBase ∧
      ∀ (links others : Links) (name : String) (v w v' w' : State) d table,
        interfaceDecl links t env v = .ok d w → vtableDecl others t name env v' = .ok table w' →
          d.Mirrors table t root rest := by
  obtain ⟨root, rest, rfl, called⟩ := conforms.rooted other found
  have once : ∀ base ∈ rest, base.name ≠ env.substitutions.universalBase := once
  refine ⟨root, rest, rfl, called, fun links others name v w v' w' d table made tabled => ?_⟩
  obtain ⟨bases, methods⟩ := interfaceDecl_gives found v d w made
  have apart : ∀ base ∈ rest, base.full ≠ t.full :=
    fun base member => baseChain_apart found base (List.mem_cons_of_mem root member)
  refine (vtableDecl_laidOut found tabled).mirrors ?_ ?_
  · rw [bases, List.filter_cons_of_neg (by simp [called])]
    exact congrArg _ (List.filter_eq_self.mpr fun base member => decide_eq_true (once base member))
  · rw [methods, ownedMethods_filter called once other, ownedMethods_eq apart, List.map_map]
    rfl

/-! ## Sessions -/

/-- With the true interface and the table of an interface both durable in a session, or made in any
    states, the two describe the same methods: those of the true interface are, in order and by name,
    the slots behind the methods of the root, inherited unless the interface owns the slot, and its
    bases are the base chain without the root. The interface must reach the universal base, must not be
    called like it, and its base chain must have that name only at its root. -/
theorem session_forms {roots : List Markup.Element} (built : Index.ofDocuments roots = .ok env.index)
    (requests : List PublicRequest) (chosen : env.index.Chooses env.options.platformName? t)
    (conforms : Reaches env t) (other : t.name ≠ env.substitutions.universalBase)
    (found : baseChain t env s = .ok chain u)
    (once : ∀ base ∈ chain.tail, base.name ≠ env.substitutions.universalBase) :
    ∃ root rest, chain = root :: rest ∧ root.name = env.substitutions.universalBase ∧
      (∀ (links others : Links) (name : String) (v w v' w' : State) d table,
        interfaceDecl links t env v = .ok d w → vtableDecl others t name env v' = .ok table w' →
          d.Mirrors table t root rest) ∧
      ∀ (unmanaged raw : Bool) d table,
        (env.session requests).ledger.committed.get? (Entity.type t unmanaged).key =
          some [.interface d] →
        (env.session requests).ledger.committed.get? (Entity.type t raw).key = some [.vtable table] →
          d.Mirrors table t root rest := by
  obtain ⟨root, rest, line, called, mirror⟩ := forms_mirror conforms other found once
  refine ⟨root, rest, line, called, mirror, fun unmanaged raw d table durable durableRaw => ?_⟩
  have consistent := Index.ofDocuments_consistent built
  obtain ⟨_, _, _, _, _, _, _, declared, _⟩ :=
    session_form consistent requests chosen (.inl ⟨d, rfl⟩) durable
  obtain ⟨_, _, ⟨_, same, made⟩ | ⟨_, same, _⟩⟩ := projectedInterface_form declared
  · obtain rfl := Declaration.interface.inj same
    obtain ⟨_, _, _, _, _, _, _, declared, _⟩ :=
      session_form consistent requests chosen (.inr ⟨table, rfl⟩) durableRaw
    obtain ⟨_, _, ⟨_, same, _⟩ | ⟨_, same, tabled⟩⟩ := projectedInterface_form declared
    · cases same
    · obtain rfl := Declaration.vtable.inj same
      exact mirror _ _ _ _ _ _ _ d table made tabled
  · cases same

/-- Interfaces that derive from the universal base, and a struct that points to one of them and so needs
    its table. -/
def derivedDocument : Markup.Element :=
  oneNamespace "Ns" [
    ⟨"interface", [("name", "IUnknown")], "",
      [⟨"method", [("name", "Query"), ("returns", "i4")], "", []⟩,
        ⟨"method", [("name", "Release"), ("returns", "u4")], "", []⟩]⟩,
    ⟨"interface", [("name", "IBase"), ("base", "IUnknown")], "",
      [⟨"method", [("name", "Count"), ("returns", "u4")], "", []⟩]⟩,
    ⟨"interface", [("name", "IDerived"), ("base", "IBase")], "",
      [⟨"method", [("name", "Clone"), ("returns", "i4")], "", []⟩]⟩,
    ⟨"struct", [("name", "S")], "", [⟨"field", [("name", "p"), ("type", "IDerived*")], "", []⟩]⟩]

/-- The names of the methods of a true interface that is durable alone, with those that are inherited
    marked. -/
def methodNames? : Option (List Declaration) → Option (List (String × Bool))
  | some [.interface d] => some (d.methods.map fun m => (m.name, m.isInherited))
  | _ => none

theorem methodNames?_eq_some {durable : Option (List Declaration)} {names : List (String × Bool)}
    (named : methodNames? durable = some names) :
    ∃ d, durable = some [.interface d] ∧ (d.methods.map fun m => (m.name, m.isInherited)) = names := by
  unfold methodNames? at named
  split at named
  · exact ⟨_, rfl, Option.some.inj named⟩
  · cases named

/-- A session that asks for an interface and for a struct that points to it makes both its forms. -/
theorem derived_forms :
    let env := Environment.reading [derivedDocument]
    let durable := (env.session [.byName "IDerived", .byName "S"]).ledger.committed
    ∃ d table t root rest,
      durable.get? ⟨.type, ⟨"Ns", "IDerived"⟩, false⟩ = some [.interface d] ∧
      durable.get? ⟨.type, ⟨"Ns", "IDerived"⟩, true⟩ = some [.vtable table] ∧
      (d.methods.map fun m => (m.name, m.isInherited)) = [("Count", true), ("Clone", false)] ∧
      table.slots.map (·.name) = ["Query", "Release", "Count", "Clone"] ∧
      d.Mirrors table t root rest := by
  intro env durable
  have built : Index.ofDocuments [derivedDocument] = .ok env.index := reading_built (by decide +kernel)
  have universal : env.substitutions.universalBase = "IUnknown" := by decide +kernel
  have held : methodNames? (durable.get? ⟨.type, ⟨"Ns", "IDerived"⟩, false⟩) =
      some [("Count", true), ("Clone", false)] := by decide +kernel
  have heldRaw : slotNames? (durable.get? ⟨.type, ⟨"Ns", "IDerived"⟩, true⟩) =
      some ["Query", "Release", "Count", "Clone"] := by decide +kernel
  have line : lineKeys? env ⟨"Ns", "IDerived"⟩ = some [⟨.type, ⟨"Ns", "IDerived"⟩, false⟩,
      ⟨.type, ⟨"Ns", "IUnknown"⟩, false⟩, ⟨.type, ⟨"Ns", "IBase"⟩, false⟩] := by decide +kernel
  obtain ⟨d, there, names⟩ := methodNames?_eq_some held
  obtain ⟨table, thereRaw, namesRaw⟩ := slotNames?_eq_some heldRaw
  obtain ⟨t, chain, u, means, climbed, keys⟩ := lineKeys?_eq_some line
  obtain ⟨(key : _ = (Entity.type t false).key), along⟩ := List.cons.inj keys
  obtain ⟨root, rest, rfl, (keyRoot : (Entity.type root false).key = _), along⟩ :=
    List.map_eq_cons_iff.mp along.symm
  obtain ⟨base, rest, rfl, (keyBase : (Entity.type base false).key = _), along⟩ :=
    List.map_eq_cons_iff.mp along
  obtain rfl := List.map_eq_nil_iff.mp along
  have called : ∀ {x : TypeDefinition} {name : String},
      (Entity.type x false).key = ⟨.type, ⟨"Ns", name⟩, false⟩ → x.name = name :=
    fun same => congrArg (·.name.name) same
  have keyRaw : (⟨.type, ⟨"Ns", "IDerived"⟩, true⟩ : EntityKey) = (Entity.type t true).key := by
    rw [EntityKey.mk.injEq] at key ⊢
    exact ⟨rfl, key.2.1, rfl⟩
  have conforms : Reaches env t :=
    .inr ⟨_, root, baseChain_ok climbed, by simp, (called keyRoot).trans universal.symm⟩
  have other : t.name ≠ env.substitutions.universalBase := by
    rw [called key.symm, universal]
    decide
  have once : ∀ x ∈ [root, base].tail, x.name ≠ env.substitutions.universalBase := by
    intro x member
    obtain rfl := List.mem_singleton.mp member
    rw [called keyBase, universal]
    decide
  obtain ⟨root, rest, _, _, _, mirror⟩ := session_forms built [.byName "IDerived", .byName "S"]
    (means.chooses (Index.ofDocuments_consistent built)).1 conforms other climbed once
  exact ⟨d, table, t, root, rest, there, thereRaw, names, namesRaw,
    mirror false true d table (key ▸ there) (keyRaw ▸ thereRaw)⟩

end Bindings
