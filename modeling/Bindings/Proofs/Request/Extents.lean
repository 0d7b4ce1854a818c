import Bindings.Proofs.Request.Forms

/-!
# Where the lengths of arrays are found

An array that a method of a true interface is passed may have its length in another parameter, which is
told by its position. The positions are those of the metadata, and the declared parameters are those of
the metadata but for the last one if that became the result; so a length is found where the metadata has
it, unless it is the result itself.
-/

namespace Bindings
open Bindings.Metadata

variable {env : Environment} {t : TypeDefinition} {links : Links} {made : InterfaceMethodDecl} {m : Method}

/-! ## Positions in projections -/

/-- The position of the parameter that gives the length of an array. -/
def Metadata.Usage.count? (usage : Usage) : Option Int := usage.extent.bind (·.param)

/-- The position at which a marshaling has the length of an array found. -/
def positionIn? (marshalAs : Option MarshalAs) : Option Int := marshalAs.bind (·.sizeParamIndex)

/-- A projection has a length found nowhere, or at the position that is given at the place of use. -/
def Projection.FollowsUse (result : Projection) (usage : Usage) : Prop :=
  positionIn? result.marshalAs = none ∨ positionIn? result.marshalAs = usage.count?

theorem projectInterface_position (d : TypeDefinition) (context : Context) :
    Gen.Gives env (projectInterface links d context) (positionIn? ·.marshalAs = none) := by
  unfold projectInterface
  refine .bind .any fun conforming _ => ?_
  split
  · exact .bind .any fun _ _ => .pure rfl
  · exact .bind .any fun _ _ => .bind .any fun _ _ => .pure rfl

theorem projectDefinition_position (d : TypeDefinition) (context : Context) :
    Gen.Gives env (projectDefinition links d context) (positionIn? ·.marshalAs = none) := by
  unfold projectDefinition
  split
  · exact .bind .any fun _ _ => .pure rfl
  · exact .bind .any fun _ _ => .bind .any fun _ _ => .pure rfl
  · exact projectInterface_position d context
  · split
    · exact .bind .any fun _ _ => .pure rfl
    · exact .bind .any fun _ _ => .pure rfl

/-- Values of a named type have no length. -/
theorem projectName_position (reference : QualifiedName) (context : Context) (usage : Usage) :
    Gen.Gives env (projectName links reference context usage) (positionIn? ·.marshalAs = none) := by
  unfold projectName
  refine .bind .any fun _ _ => ?_
  dsimp only
  split
  · exact .pure rfl
  · split
    · exact .bind .any fun _ _ => .pure rfl
    · refine .bind .any fun found _ => ?_
      split
      · exact projectDefinition_position _ context
      · unfold projectUnknown
        refine .bind .any fun _ _ => ?_
        split
        · split
          · exact .bind .any fun _ _ => .pure rfl
          · exact .fault _
        · exact .fault _

section
variable {element : Projection} (plain : positionIn? element.marshalAs = none)
include plain

theorem projectReferred_follows (target : NativeType) (context : Context) (usage : Usage) :
    Gen.Gives env (projectReferred links target context usage element) (·.FollowsUse usage) := by
  unfold projectReferred
  dsimp only
  split
  · next extent given =>
    refine .pure (.inr ?_)
    rw [Usage.count?, given]
    rfl
  · split
    · refine .bind .any fun _ _ => ?_
      split
      · exact .pure (.inl rfl)
      · exact .pure (.inl plain)
    · refine .bind .any fun found _ => ?_
      split
      · exact .bind .any fun _ _ => .pure (.inl rfl)
      · split
        · exact .pure (.inl rfl)
        · exact .pure (.inl rfl)

theorem projectPointer_follows (target : NativeType) (context : Context) (usage : Usage) :
    Gen.Gives env (projectPointer links target context usage element) (·.FollowsUse usage) := by
  unfold projectPointer
  refine .either fun managed => ?_
  dsimp only
  split
  · exact projectReferred_follows plain target context usage
  · split
    · exact .pure (.inl rfl)
    · exact .pure (.inl rfl)

end

theorem projectFixedField_position (elementType : NativeType) (length : Int) (context : Context)
    (element : Projection) : Gen.Gives env (projectFixedField links elementType length context element)
      (positionIn? ·.marshalAs = none) := by
  unfold projectFixedField
  refine .either fun managed => ?_
  dsimp only
  split
  · exact .pure rfl
  · exact .bind .any fun _ _ => .pure rfl

theorem projectPassedArray_follows (length : Option Int) (context : Context) (usage : Usage)
    (element : Projection) : (projectPassedArray length context usage element).FollowsUse usage := by
  unfold projectPassedArray
  split
  · exact .inl rfl
  · split
    · exact .inr rfl
    · exact .inl rfl

/-- Only the place of use tells at which position a length is found: what is inside of a type has no
    position. -/
theorem project_follows (type : NativeType) (context : Context) (usage : Usage) :
    Gen.Gives env (project links type context usage) (·.FollowsUse usage) := by
  cases type with
  | primitive code =>
    unfold project
    split
    · exact .pure (.inl rfl)
    · exact .fault _
  | pointer target isConst =>
    unfold project
    dsimp only
    refine .bind (project_follows target _ { isConst }) fun element follows => ?_
    exact projectPointer_follows (follows.elim id id) target _ usage
  | array elementType lengths =>
    unfold project
    dsimp only
    split
    · refine .bind .any fun element _ => ?_
      exact (projectFixedField_position elementType _ context element).imp fun _ => .inl
    · exact .bind .any fun element _ => .pure (projectPassedArray_follows _ context usage element)
  | handle reference =>
    unfold project
    exact (projectName_position reference context usage).imp fun _ => .inl
  | function params returns =>
    unfold project
    exact .bind .any fun _ _ => .bind .any fun _ _ => .pure (.inl rfl)

/-! ## Methods -/

/-- A declared parameter is that of the metadata, and has a length found where the metadata says. -/
structure ParamDecl.Declares (r : ParamDecl) (p : Param) : Prop where
  name : r.name = p.name
  position : positionIn? r.marshalAs = none ∨ positionIn? r.marshalAs = p.usage.count?

theorem paramDecl_declares (context : Context) (p : Param) :
    Gen.Gives env (paramDecl links context p) (·.Declares p) := by
  unfold paramDecl
  split
  · exact .fault _
  · exact .bind (project_follows p.type context p.usage) fun result follows => .pure ⟨rfl, follows⟩

/-- The parameters of a method without the one that stands for the result, if there is one. -/
theorem splitResult_cases (params : List Param) :
    splitResult params = (params, none) ∨ ∃ front last target, params = front ++ [last] ∧
      resultTarget? last = some target ∧ splitResult params = (front, some target) := by
  unfold splitResult
  split
  · next target found =>
    obtain ⟨last, ends, result⟩ := Option.bind_eq_some_iff.mp found
    obtain ⟨front, rfl⟩ := List.getLast?_eq_some_iff.mp ends
    exact .inr ⟨front, last, target, rfl, result, by rw [List.dropLast_concat]⟩
  · exact .inl rfl

/-- The parameters of the metadata that a method declares: all of them, or all but the last one, which
    became the result of a method that reports its status by raising. -/
inductive InterfaceMethodDecl.Keeps (made : InterfaceMethodDecl) (m : Method) : List Param → Prop
  | all : Keeps made m m.params
  | front {front : List Param} {last : Param} {target : NativeType} (params : m.params = front ++ [last])
      (result : resultTarget? last = some target) (rewritten : made.preserveSig = false) :
      Keeps made m front

/-- A method of a true interface declares what the metadata describes. -/
structure InterfaceMethodDecl.Declares (made : InterfaceMethodDecl) (m : Method) : Prop where
  name : made.name = m.name
  params : ∃ kept, made.Keeps m kept ∧ made.params.length = kept.length ∧
    ∀ (i : Nat) p r, kept[i]? = some p → made.params[i]? = some r → r.Declares p

theorem interfaceMethod_declares (context : Context) (owner : TypeDefinition) (m : Method)
    (isInherited : Bool) :
    Gen.Gives env (interfaceMethod links context owner m isInherited) (·.Declares m) := by
  have each : ∀ params : List Param, Gen.Gives env (params.mapM (paramDecl links context)) _ :=
    Gen.Gives.mapM (paramDecl_declares context)
  unfold interfaceMethod
  refine .bind .any fun preserved _ => ?_
  split
  · rcases splitResult_cases m.params with whole | ⟨front, last, target, params, result, split⟩
    · rw [whole]
      refine .bind .any fun _ _ => .bind (each m.params) fun params declared => .pure ⟨rfl, ?_⟩
      exact ⟨m.params, .all, declared⟩
    · rw [split]
      refine .bind .any fun _ _ => .bind (each front) fun declaredParams declared => .pure ⟨rfl, ?_⟩
      exact ⟨front, .front params result rfl, declared⟩
  · refine .bind .any fun _ _ => .bind (each m.params) fun params declared => .pure ⟨rfl, ?_⟩
    exact ⟨m.params, .all, declared⟩

/-- The lengths of a method's arrays are in parameters that it has. -/
def Metadata.Method.Counted (m : Method) : Prop :=
  ∀ p ∈ m.params, ∀ n ∈ p.usage.count?, 0 ≤ n ∧ n < m.params.length

instance (m : Method) : Decidable m.Counted := inferInstanceAs (Decidable (∀ p ∈ m.params, ∀ n ∈ _, _))

/-- Where a declared method has a length found: in a declared parameter that is the one of the metadata at
    this position, or else it is the parameter that became the result. -/
inductive InterfaceMethodDecl.Finds (made : InterfaceMethodDecl) (m : Method) (n : Int) : Prop
  | declared {k : Nat} {r : ParamDecl} {p : Param} (position : n = k) (declared : made.params[k]? = some r)
      (described : m.params[k]? = some p) (same : r.name = p.name)
  | returned {last : Param} {target : NativeType} (position : n = made.params.length)
      (described : m.params[made.params.length]? = some last) (result : resultTarget? last = some target)
      (rewritten : made.preserveSig = false)

/-- A position in a marshaling is the one that the metadata gives for the same parameter, and the length is
    found there. -/
theorem InterfaceMethodDecl.Declares.finds (declares : made.Declares m) (counted : m.Counted) {i : Nat}
    {r : ParamDecl} {n : Int} (there : made.params[i]? = some r)
    (looks : positionIn? r.marshalAs = some n) :
    ∃ p, m.params[i]? = some p ∧ r.name = p.name ∧ p.usage.count? = some n ∧ made.Finds m n := by
  obtain ⟨kept, keeps, length, each⟩ := declares.params
  have inside : i < kept.length := length ▸ (List.getElem?_eq_some_iff.mp there).1
  have own := each i _ r (List.getElem?_eq_getElem inside) there
  have given : (kept[i]).usage.count? = some n :=
    (own.position.resolve_left (by simp [looks])).symm.trans looks
  -- a position among the parameters that are kept is one of the declared ones
  have declared : ∀ {k : Nat}, n = k → k < kept.length → (∀ p, kept[k]? = some p → m.params[k]? = some p) →
      made.Finds m n := by
    intro k position within described
    have keptHere := List.getElem?_eq_getElem within
    have declaredHere := List.getElem?_eq_getElem (length.symm ▸ within : k < made.params.length)
    exact .declared position declaredHere (described _ keptHere) (each k _ _ keptHere declaredHere).name
  cases keeps with
  | all =>
    obtain ⟨low, high⟩ := counted _ (List.getElem_mem inside) n given
    exact ⟨_, List.getElem?_eq_getElem inside, own.name, given,
      declared (Int.toNat_of_nonneg low).symm (by omega) fun _ => id⟩
  | @front _ last target params result rewritten =>
    have front : ∀ {k : Nat} {p : Param}, kept[k]? = some p → m.params[k]? = some p := by
      intro k p keptHere
      rw [params, List.getElem?_append_left (List.getElem?_eq_some_iff.mp keptHere).1]
      exact keptHere
    have described := front (List.getElem?_eq_getElem inside)
    obtain ⟨low, high⟩ := counted _ (List.mem_of_getElem? described) n given
    refine ⟨_, described, own.name, given, ?_⟩
    rw [params, List.length_append, List.length_singleton] at high
    by_cases dropped : n = kept.length
    · exact .returned (length ▸ dropped) (by rw [length, params, List.getElem?_concat_length]) result
        rewritten
    · exact declared (Int.toNat_of_nonneg low).symm (by omega) fun _ => front

/-! ## Interfaces -/

/-- The methods of a true interface declare those along its base chain, without the interfaces that are
    called like the universal base. -/
theorem interfaceDecl_declares : Gen.Gives env (interfaceDecl links t) fun d =>
    ∃ chain, (∀ s, baseChain t env s = .ok chain s) ∧ ∃ owned,
      owned = (ownedMethods chain t).filter (·.1.name ≠ env.substitutions.universalBase) ∧
      d.methods.length = owned.length ∧
      ∀ (i : Nat) entry made, owned[i]? = some entry → d.methods[i]? = some made →
        made.Declares entry.2.1 ∧ made.isInherited = entry.2.2 := by
  have climbs : Gen.Gives env (baseChain t) fun chain => ∀ s, baseChain t env s = .ok chain s :=
    fun _ _ _ climbed => ((baseChain_fixed t).everywhere climbed).2
  have each : ∀ entry : TypeDefinition × Method × Bool, Gen.Gives env
      (interfaceMethod links { allowMarshaling := true, preferInOutRef := true } entry.1 entry.2.1
        entry.2.2) fun made => made.Declares entry.2.1 ∧ made.isInherited = entry.2.2 :=
    fun entry s made u ran => ⟨interfaceMethod_declares _ entry.1 entry.2.1 entry.2.2 s made u ran,
      (interfaceMethod_gives _ entry.1 entry.2.1 entry.2.2 s made u ran).2⟩
  unfold interfaceDecl
  refine (Judgement.all env).read (.bind climbs fun chain always => ?_)
  refine .bind .any fun _ _ => .bind (Gen.Gives.mapM each _) fun methods made => ?_
  exact .bind .any fun _ _ => .bind .any fun _ _ => .pure ⟨chain, always, _, rfl, made⟩

/-- Every method of a durable true interface declares a method along the base chain. Each length that one
    of its arrays has found in another parameter is where the metadata has it for the same parameter: in a
    declared parameter of the same name, or in the parameter that became the result. -/
theorem session_extents {roots : List Markup.Element} (built : Index.ofDocuments roots = .ok env.index)
    (requests : List PublicRequest) (chosen : env.index.Chooses env.options.platformName? t)
    {unmanaged : Bool} {d : InterfaceDecl}
    (durable : (env.session requests).ledger.committed.get? (Entity.type t unmanaged).key =
      some [.interface d]) :
    ∃ chain, (∀ s, baseChain t env s = .ok chain s) ∧ ∃ owned,
      owned = (ownedMethods chain t).filter (·.1.name ≠ env.substitutions.universalBase) ∧
      d.methods.length = owned.length ∧
      ∀ (i : Nat) made, d.methods[i]? = some made → ∃ owner m isInherited,
        owned[i]? = some (owner, m, isInherited) ∧ made.name = m.name ∧ made.isInherited = isInherited ∧
          (m.Counted → ∀ (j : Nat) r n, made.params[j]? = some r →
            positionIn? r.marshalAs = some n → ∃ p, m.params[j]? = some p ∧ r.name = p.name ∧
              p.usage.count? = some n ∧ made.Finds m n) := by
  obtain ⟨_, _, v, w, _, _, _, declared, _⟩ :=
    session_form (Index.ofDocuments_consistent built) requests chosen (.inl ⟨d, rfl⟩) durable
  obtain ⟨_, _, ⟨_, same, made⟩ | ⟨_, same, _⟩⟩ := projectedInterface_form declared
  · obtain rfl := Declaration.interface.inj same
    obtain ⟨chain, always, owned, along, length, each⟩ := interfaceDecl_declares _ _ _ made
    refine ⟨chain, always, owned, along, length, fun i method declaredHere => ?_⟩
    have inside : i < owned.length := length ▸ (List.getElem?_eq_some_iff.mp declaredHere).1
    have there := List.getElem?_eq_getElem inside
    obtain ⟨declares, inherited⟩ := each i _ _ there declaredHere
    exact ⟨_, _, _, there, declares.name, inherited, fun counted j r n => declares.finds counted⟩
  · cases same

/-- An interface with two methods that fill an array of interfaces. The first one is told how much room
    there is, the second one tells how much it has filled. -/
def tableDocument : Markup.Element :=
  let cells (position : String) : Markup.Element :=
    ⟨"param", [("name", "cells"), ("type", "ICell*"), ("out", "true"), ("count-param", position)], "", []⟩
  let filled : Markup.Element := ⟨"param", [("name", "filled"), ("type", "u4*"), ("out", "true")], "", []⟩
  oneNamespace "Ns" [
    ⟨"interface", [("name", "IUnknown")], "", []⟩,
    ⟨"interface", [("name", "ICell"), ("base", "IUnknown")], "", []⟩,
    ⟨"interface", [("name", "ITable"), ("base", "IUnknown")], "", [
      ⟨"method", [("name", "Fetch"), ("returns", "HRESULT")], "",
        [cells "1", ⟨"param", [("name", "room"), ("type", "u4")], "", []⟩, filled]⟩,
      ⟨"method", [("name", "Drain"), ("returns", "HRESULT")], "", [cells "1", filled]⟩]⟩]

/-- The type that a reference means, and its base chain. -/
def lineOf? (env : Environment) (reference : QualifiedName) :
    Option (TypeDefinition × List TypeDefinition) :=
  (meant? env reference).bind fun t =>
    match baseChain t env {} with
    | .ok chain _ => some (t, chain)
    | .error .. => none

theorem lineOf?_eq_some {reference : QualifiedName} {chain : List TypeDefinition}
    (found : lineOf? env reference = some (t, chain)) :
    Means env reference t ∧ ∀ s, baseChain t env s = .ok chain s := by
  obtain ⟨u, meant, found⟩ := Option.bind_eq_some_iff.mp found
  split at found
  · next climbed =>
    obtain ⟨rfl, rfl⟩ := Prod.mk.inj (Option.some.inj found)
    exact ⟨meant?_eq_some meant, ((baseChain_fixed u).everywhere climbed).2⟩
  · cases found

/-- The true interface that is durable alone. -/
def soleInterface? : Option (List Declaration) → Option InterfaceDecl
  | some [.interface d] => some d
  | _ => none

theorem soleInterface?_eq_some {durable : Option (List Declaration)} {d : InterfaceDecl}
    (found : soleInterface? durable = some d) : durable = some [.interface d] := by
  unfold soleInterface? at found
  split at found
  · obtain rfl := Option.some.inj found
    rfl
  · cases found

/-- Where the methods of an interface have the lengths of their arrays found, parameter by parameter. -/
def InterfaceDecl.positions (d : InterfaceDecl) : List (List (Option Int)) :=
  d.methods.map fun made => made.params.map fun r => positionIn? r.marshalAs

/-- All lengths of the methods along a base chain are in parameters. -/
def allCounted (line : TypeDefinition × List TypeDefinition) : Bool :=
  (ownedMethods line.2 line.1).all fun entry => decide entry.2.1.Counted

/-- The interface with two methods conforms, and the lengths of its methods are in parameters. -/
theorem table_line : ∃ t root, (Entity.type t false).key = ⟨.type, ⟨"Ns", "ITable"⟩, false⟩ ∧
    Means (.reading [tableDocument]) ⟨"Ns", "ITable"⟩ t ∧
    (∀ s, baseChain t (.reading [tableDocument]) s = .ok [root] s) ∧ root.name = "IUnknown" ∧
    ∀ entry ∈ ownedMethods [root] t, entry.2.1.Counted := by
  have line : (lineOf? (.reading [tableDocument]) ⟨"Ns", "ITable"⟩).any (fun line =>
      (Entity.type line.1 false).key = ⟨.type, ⟨"Ns", "ITable"⟩, false⟩ &&
        line.2.map (·.name) = ["IUnknown"] && allCounted line) = true := by decide +kernel
  obtain ⟨⟨t, chain⟩, found, checked⟩ := (Option.any_eq_true _ _).mp line
  obtain ⟨means, along⟩ := lineOf?_eq_some found
  simp only [Bool.and_eq_true, decide_eq_true_eq] at checked
  obtain ⟨⟨key, names⟩, counted⟩ := checked
  obtain ⟨root, rest, rfl, name, none⟩ := List.map_eq_cons_iff.mp names
  obtain rfl := List.map_eq_nil_iff.mp none
  exact ⟨t, root, key, means, along, name, fun entry member =>
    of_decide_eq_true (List.all_eq_true.mp counted entry member)⟩

/-- The durable interface with two methods, and where they have the lengths of their arrays found. -/
theorem table_durable : ∃ d, ((Environment.reading [tableDocument]).session
    [.byName "ITable"]).ledger.committed.get? ⟨.type, ⟨"Ns", "ITable"⟩, false⟩ = some [.interface d] ∧
      d.positions = [[some 1, none], [some 1]] := by
  have held : (soleInterface? (((Environment.reading [tableDocument]).session
      [.byName "ITable"]).ledger.committed.get? ⟨.type, ⟨"Ns", "ITable"⟩, false⟩)).map (·.positions) =
        some [[some 1, none], [some 1]] := by decide +kernel
  obtain ⟨d, found, positions⟩ := Option.map_eq_some_iff.mp held
  exact ⟨d, soleInterface?_eq_some found, positions⟩

/-- The first method becomes one that gives how much it has filled, and has the length of its array found
    in the room that it is told. -/
theorem session_extents_fetch :
    let env := Environment.reading [tableDocument]
    ∃ t d made m, env.index.Chooses env.options.platformName? t ∧
      (env.session [.byName "ITable"]).ledger.committed.get? (Entity.type t false).key =
        some [.interface d] ∧
      d.methods[0]? = some made ∧ made.params.length = 2 ∧ m.Counted ∧ made.name = m.name ∧
      ∃ r p, made.params[0]? = some r ∧ positionIn? r.marshalAs = some 1 ∧ m.params[0]? = some p ∧
        r.name = p.name ∧ p.usage.count? = some 1 ∧ made.Finds m 1 := by
  intro env
  have built : Index.ofDocuments [tableDocument] = .ok env.index := reading_built (by decide +kernel)
  have universal : env.substitutions.universalBase = "IUnknown" := by decide +kernel
  obtain ⟨t, root, key, means, along, name, counted⟩ := table_line
  obtain ⟨d, durable, positions⟩ := table_durable
  rw [← key] at durable
  have chosen := (means.chooses (Index.ofDocuments_consistent built)).1
  obtain ⟨chain, always, owned, rfl, length, each⟩ :=
    session_extents built [.byName "ITable"] chosen durable
  obtain ⟨rfl, _⟩ := EStateM.Result.ok.inj ((along {}).symm.trans (always {}))
  obtain ⟨made, others, methods, first, _⟩ := List.map_eq_cons_iff.mp positions
  obtain ⟨r, later, params, position, more⟩ := List.map_eq_cons_iff.mp first
  obtain ⟨owner, m, isInherited, own, named, _, finds⟩ := each 0 made (by rw [methods]; rfl)
  have counts := counted _ (List.mem_filter.mp (List.mem_of_getElem? own)).1
  obtain ⟨p, described, same, given, found⟩ := finds counts 0 r 1 (by rw [params]; rfl) position
  have two : made.params.length = 2 := by
    have both := congrArg List.length first
    rwa [List.length_map] at both
  exact ⟨t, d, made, m, chosen, durable, by rw [methods]; rfl, two, counts, named, r, p,
    by rw [params]; rfl, position, described, same, given, found⟩

/-- The second method has the length of its array found in a parameter that it does not declare: how much it
    has filled became its result. -/
theorem drain_lacks_position :
    let env := Environment.reading [tableDocument]
    ∃ t chain d made r, env.index.Chooses env.options.platformName? t ∧ Reaches env t ∧
      (∀ s, baseChain t env s = .ok chain s) ∧ (∀ entry ∈ ownedMethods chain t, entry.2.1.Counted) ∧
      (env.session [.byName "ITable"]).ledger.committed.get? (Entity.type t false).key =
        some [.interface d] ∧
      made ∈ d.methods ∧ r ∈ made.params ∧ positionIn? r.marshalAs = some 1 ∧ made.params.length = 1 := by
  intro env
  have built : Index.ofDocuments [tableDocument] = .ok env.index := reading_built (by decide +kernel)
  have universal : env.substitutions.universalBase = "IUnknown" := by decide +kernel
  obtain ⟨t, root, key, means, along, name, counted⟩ := table_line
  obtain ⟨d, durable, positions⟩ := table_durable
  rw [← key] at durable
  have reaches : Reaches env t :=
    .inr ⟨_, root, baseChain_ok (along {}), by simp, name.trans universal.symm⟩
  obtain ⟨fetch, rest, methods, -, positions⟩ := List.map_eq_cons_iff.mp positions
  obtain ⟨made, others, drain, position, -⟩ := List.map_eq_cons_iff.mp positions
  obtain ⟨r, later, params, position, none⟩ := List.map_eq_cons_iff.mp position
  obtain rfl := List.map_eq_nil_iff.mp none
  exact ⟨t, [root], d, made, r, (means.chooses (Index.ofDocuments_consistent built)).1, reaches, along,
    counted, durable, by simp [methods, drain], by simp [params], position, by simp [params]⟩

end Bindings
