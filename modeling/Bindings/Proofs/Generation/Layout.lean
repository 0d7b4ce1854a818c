import Bindings.Proofs.Generation.Concurrence
import Bindings.Proofs.Generation.Slots

/-!
# The layout of tables of methods

A table has a slot for each slot method of its interface, numbered in their order, and a method that
calls the slot. Two tables that are made of methods in common, in states of one session, agree on the
slots of these but for what the slots are called on.
-/

namespace Bindings
open Bindings.Metadata

variable {env : Environment} {U : Upkeep env} {s t u later : State} {id : TransactionId} {links : Links}

/-! ## Slots -/

/-- What the slots of a table are called on: a pointer to the struct that points to the table. -/
def VtableStructDecl.receiver (table : VtableStructDecl) : TargetType :=
  .pointer (.named ⟨table.space, table.name⟩)

/-- A method forwards to a slot: it invokes the slot by its type, and passes the receiver and then its own
    parameters in their order. -/
structure ForwardingMethodDecl.Forwards (m : ForwardingMethodDecl) (receiver : TargetType)
    (slot : VtableSlot) : Prop where
  name : m.name = slot.name
  slotIndex : m.slotIndex = slot.index
  type : slot.functionType = .functionPointer (receiver :: m.params.map (·.type)) m.returnType
  call : m.call = { slotIndex := slot.index, functionType := slot.functionType
                    arguments := "this" :: m.params.map (·.name) }

/-- The slots of a table are those of the given methods, numbered without gaps, and each of them is
    called by the method in its place. -/
structure VtableStructDecl.LaidOut (table : VtableStructDecl) (methods : List (TypeDefinition × Method)) :
    Prop where
  slots : table.slots.length = methods.length
  forwarders : table.methods.length = methods.length
  place : ∀ (i : Nat) owner m, methods[i]? = some (owner, m) → ∃ slot forwarder,
    table.slots[i]? = some slot ∧ table.methods[i]? = some forwarder ∧ slot.index = i ∧
      slot.name = m.name ∧ slot.owner = owner.full ∧ forwarder.Forwards table.receiver slot

/-- The slots of a table begin with those of another one, but for what these are called on. -/
def VtableStructDecl.Continues (table base : VtableStructDecl) : Prop :=
  ∀ (i : Nat) slot, base.slots[i]? = some slot → ∃ params returns,
    slot.functionType = .functionPointer (base.receiver :: params) returns ∧
      table.slots[i]? = some { slot with
        functionType := .functionPointer (table.receiver :: params) returns }

/-! ## Signatures -/

/-- The parameters and the result that the slot of a method is called with. -/
def slotSignature (links : Links) (m : Method) : Gen (List ParamDecl × TargetType) := do
  let params ← m.params.mapM (paramDecl links .raw)
  return (params, (← project links m.returns .raw {}).type)

theorem slotSignature_matches {C : Comparison env} {others : Links} (linked : C.Linked links others)
    (m : Method) : C.Match (slotSignature links m) (slotSignature others m) :=
  C.bind (C.mapM (paramDecl_matches linked .raw) m.params) fun _ =>
    C.bind (project_matches linked m.returns .raw {}) fun _ => C.pure _

/-- A slot with a signature, and the method that forwards to it. -/
def slotEntry (self : TargetType) (index : Nat) (owner : TypeDefinition) (m : Method)
    (signature : List ParamDecl × TargetType) : VtableSlot × ForwardingMethodDecl :=
  let functionType := TargetType.functionPointer (self :: signature.1.map (·.type)) signature.2
  ({ index, name := m.name, owner := owner.full, functionType },
    { name := m.name, params := signature.1, returnType := signature.2, slotIndex := index
      call := { slotIndex := index, functionType, arguments := "this" :: signature.1.map (·.name) } })

theorem vtableEntry_eq (links : Links) (self : TargetType) (index : Nat) (owner : TypeDefinition)
    (m : Method) : vtableEntry links self index owner m =
      slotEntry self index owner m <$> slotSignature links m := by
  simp only [vtableEntry, slotSignature, slotEntry, map_eq_pure_bind, bind_assoc, pure_bind]

/-! ## Tables -/

/-- Each of many computations that were run one after another started and ended in a state that the
    last state carries on. -/
theorem Traces.mapM_ok {α β : Type} {f : α → Gen β} {xs : List α} {ys : List β}
    (each : ∀ a, Traces U (fun _ => True) (f a)) (inside : s.In id) (holds : U.Holds s)
    (ended : xs.mapM f env s = .ok ys t) :
    Carries s t ∧ ys.length = xs.length ∧ ∀ (i : Nat) a, xs[i]? = some a → ∃ b u v, ys[i]? = some b ∧
      u.In id ∧ U.Holds u ∧ f a env u = .ok b v ∧ Carries v t := by
  induction xs generalizing s ys with
  | nil =>
    rw [List.mapM_nil] at ended
    obtain ⟨rfl, rfl⟩ := Gen.pure_ok ended
    exact ⟨.refl s, rfl, by simp⟩
  | cons a xs ih =>
    rw [List.mapM_cons] at ended
    obtain ⟨b, v, first, ended⟩ := Gen.bind_ok ended
    obtain ⟨bs, w, rest, ended⟩ := Gen.bind_ok ended
    obtain ⟨rfl, rfl⟩ := Gen.pure_ok ended
    obtain ⟨insideV, holdsV, _⟩ := (each a).ended inside holds first
    obtain ⟨carries, length, more⟩ := ih insideV holdsV rest
    refine ⟨((each a).carries inside holds first).trans carries, by simp [length], fun i other there => ?_⟩
    cases i with
    | zero =>
      obtain rfl := Option.some.inj there
      exact ⟨b, s, v, rfl, inside, holds, first, carries⟩
    | succ i => exact more i other there

/-- The slots of a table were made for the given methods in states that a later one remembers. -/
structure VtableStructDecl.Stems (U : Upkeep env) (later : State) (table : VtableStructDecl)
    (methods : List (TypeDefinition × Method)) : Prop where
  slots : table.slots.length = methods.length
  forwarders : table.methods.length = methods.length
  place : ∀ (i : Nat) owner m, methods[i]? = some (owner, m) → ∃ id depth s u signature,
    s.In id ∧ U.Holds s ∧ slotSignature (Links.upTo depth) m env s = .ok signature u ∧ Carries u later ∧
      table.slots[i]? = some (slotEntry table.receiver i owner m signature).1 ∧
      table.methods[i]? = some (slotEntry table.receiver i owner m signature).2

theorem vtableDecl_ok {t : TypeDefinition} {name : String} {table : VtableStructDecl}
    (made : vtableDecl links t name env s = .ok table u) :
    ∃ methods entries, slotMethods t env s = .ok methods s ∧
      methods.zipIdx.mapM (fun entry => vtableEntry links table.receiver entry.2 entry.1.1 entry.1.2) env s =
        .ok entries u ∧
      table.slots = entries.map (·.1) ∧ table.methods = entries.map (·.2) := by
  unfold vtableDecl at made
  -- Only the entries change the state: the slot methods and the documentation are looked up.
  obtain ⟨methods, v, found, made⟩ := Gen.bind_ok made
  obtain ⟨entries, w, filled, made⟩ := Gen.bind_ok made
  rw [Gen.read_bind] at made
  obtain ⟨docs, x, read, made⟩ := Gen.bind_ok made
  obtain ⟨rfl, rfl⟩ := Gen.pure_ok made
  obtain ⟨rfl, _⟩ := (docs_steady t.name).everywhere read
  have same : v = s := by
    unfold slotMethods at found
    obtain ⟨chain, y, climbed, found⟩ := Gen.bind_ok found
    obtain ⟨_, rfl⟩ := Gen.pure_ok found
    exact ((baseChain_fixed t).everywhere climbed).1
  subst same
  exact ⟨methods, entries, found, filled, rfl, rfl⟩

/-- An interface is declared in one of its two forms, after it has been asked at most whether it
    conforms. -/
theorem projectedInterface_form {t : TypeDefinition} {context : Context} {name : String}
    {decl : Declaration} (declared : projectedInterface links t context name env s = .ok decl u) :
    ∃ v, (v = s ∨ ∃ conforming, isConforming t env s = .ok conforming v) ∧
      ((∃ d, decl = .interface d ∧ interfaceDecl links t env v = .ok d u) ∨
        ∃ table, decl = .vtable table ∧ vtableDecl links t name env v = .ok table u) := by
  have finish : ∀ {conforming : Bool} {v : State}, (if conforming = true then do
      return Declaration.interface (← interfaceDecl links t) else do
      return Declaration.vtable (← vtableDecl links t name) : Gen Declaration) env v = .ok decl u →
      (∃ d, decl = .interface d ∧ interfaceDecl links t env v = .ok d u) ∨
        ∃ table, decl = .vtable table ∧ vtableDecl links t name env v = .ok table u := by
    intro conforming v ended
    cases conforming with
    | true =>
      obtain ⟨d, _, made, ended⟩ := Gen.bind_ok ended
      obtain ⟨same, rfl⟩ := Gen.pure_ok ended
      exact .inl ⟨d, same.symm, made⟩
    | false =>
      obtain ⟨table, _, made, ended⟩ := Gen.bind_ok ended
      obtain ⟨same, rfl⟩ := Gen.pure_ok ended
      exact .inr ⟨table, same.symm, made⟩
  unfold projectedInterface at declared
  by_cases marshaling : context.allowMarshaling = true
  · rw [if_pos marshaling] at declared
    obtain ⟨conforming, v, asked, ended⟩ := Gen.bind_ok declared
    exact ⟨v, .inr ⟨conforming, asked⟩, finish ended⟩
  · rw [if_neg marshaling] at declared
    obtain ⟨conforming, v, asked, ended⟩ := Gen.bind_ok declared
    obtain ⟨rfl, rfl⟩ := Gen.pure_ok asked
    exact ⟨s, .inl rfl, finish ended⟩

/-- A table is made for an interface in a state in which nothing but an answer is new. -/
theorem projectedInterface_vtable {t : TypeDefinition} {context : Context} {name : String}
    {table : VtableStructDecl} (chosen : env.index.Chooses env.options.platformName? t) (inside : s.In id)
    (holds : U.Holds s) (declared : projectedInterface links t context name env s = .ok (.vtable table) u) :
    ∃ v, v.In id ∧ U.Holds v ∧ vtableDecl links t name env v = .ok table u := by
  obtain ⟨v, asked, ⟨_, same, _⟩ | ⟨_, same, made⟩⟩ := projectedInterface_form declared
  · cases same
  · obtain rfl := Declaration.vtable.inj same
    rcases asked with rfl | ⟨conforming, asked⟩
    · exact ⟨v, inside, holds, made⟩
    · obtain ⟨insideV, holdsV, _⟩ := (Traces.conforming chosen).ended inside holds asked
      exact ⟨v, insideV, holdsV, made⟩

/-- What a type is declared as is a true interface or a table only if the type is an interface. -/
theorem declarationsOf_form {t : TypeDefinition} {unmanaged : Bool} {decl : Declaration}
    (form : (∃ d, decl = .interface d) ∨ ∃ table, decl = .vtable table)
    (made : declarationsOf links (.type t unmanaged) env s = .ok [decl] u) :
    ∃ context, projectedInterface links t context (variantName t.name unmanaged) env s = .ok decl u := by
  obtain ⟨declaration, w, declared, made⟩ := Gen.bind_ok made
  obtain ⟨same, rfl⟩ := Gen.pure_ok made
  obtain rfl := (List.cons.inj same).1
  unfold typeDecl at declared
  cases shape : t.shape with
  | interface bases methods guid =>
    simp only [shape] at declared
    exact ⟨_, declared⟩
  | record | enum | delegate =>
    simp only [shape] at declared
    obtain ⟨_, _, _, ended⟩ := Gen.bind_ok declared
    obtain ⟨rfl, _⟩ := Gen.pure_ok ended
    obtain ⟨_, other⟩ | ⟨_, other⟩ := form <;> cases other

section
variable (consistent : env.index.Consistent)
include consistent

/-- A table of an interface stems from the slot methods of the interface. -/
theorem vtableDecl_stems {t : TypeDefinition} {name : String} {table : VtableStructDecl} {depth : Nat}
    {methods : List (TypeDefinition × Method)} (inside : s.In id) (holds : U.Holds s)
    (made : vtableDecl (Links.upTo depth) t name env s = .ok table u)
    (found : slotMethods t env s = .ok methods s) : table.Stems U u methods := by
  obtain ⟨others, entries, same, filled, slots, forwarders⟩ := vtableDecl_ok made
  obtain ⟨rfl, _⟩ := EStateM.Result.ok.inj (found.symm.trans same)
  have traced : ∀ m, Traces U (fun _ => True) (slotSignature (Links.upTo depth) m) := fun m =>
    slotSignature_matches (C := .tracing consistent U) (traced_linked consistent U depth) m
  have each : ∀ entry : (TypeDefinition × Method) × Nat, Traces U (fun _ => True)
      (vtableEntry (Links.upTo depth) table.receiver entry.2 entry.1.1 entry.1.2) := by
    intro entry
    rw [vtableEntry_eq, map_eq_pure_bind]
    exact .bind (traced _) fun _ _ => .pure trivial
  obtain ⟨_, length, place⟩ := Traces.mapM_ok each inside holds filled
  rw [List.length_zipIdx] at length
  refine ⟨by simp [slots, length], by simp [forwarders, length], fun i owner m there => ?_⟩
  have numbered : methods.zipIdx[i]? = some ((owner, m), i) := by simp [there]
  obtain ⟨entry, v, w, at', insideV, holdsV, ran, carries⟩ := place i _ numbered
  rw [vtableEntry_eq, map_eq_pure_bind] at ran
  obtain ⟨signature, x, signed, ended⟩ := Gen.bind_ok ran
  obtain ⟨rfl, rfl⟩ := Gen.pure_ok ended
  refine ⟨id, depth, v, x, signature, insideV, holdsV, signed, carries, ?_, ?_⟩
  · simp [slots, at']
  · simp [forwarders, at']

end

/-! ## What the layout is -/

theorem VtableStructDecl.Stems.laidOut {table : VtableStructDecl} {methods : List (TypeDefinition × Method)}
    (stems : table.Stems U later methods) : table.LaidOut methods where
  slots := stems.slots
  forwarders := stems.forwarders
  place i owner m there := by
    obtain ⟨_, _, _, _, signature, _, _, _, _, slot, forwarder⟩ := stems.place i owner m there
    exact ⟨_, _, slot, forwarder, rfl, rfl, rfl, ⟨rfl, rfl, rfl, rfl⟩⟩

theorem VtableStructDecl.Stems.carried {table : VtableStructDecl} {methods : List (TypeDefinition × Method)}
    (stems : table.Stems U s methods) (carries : Carries s t) : table.Stems U t methods where
  slots := stems.slots
  forwarders := stems.forwarders
  place i owner m there := by
    obtain ⟨id, depth, u, v, signature, inside, holds, signed, kept, rest⟩ := stems.place i owner m there
    exact ⟨id, depth, u, v, signature, inside, holds, signed, kept.trans carries, rest⟩

/-- Two tables of methods in common agree on the slots of these. -/
theorem VtableStructDecl.Stems.continues (consistent : env.index.Consistent)
    (answers : U.Answers (.before later)) {table base : VtableStructDecl}
    {own all : List (TypeDefinition × Method)} (stems : table.Stems U later all)
    (stemsBase : base.Stems U later own) (front : own <+: all) : table.Continues base := by
  intro i slot there
  have inside : i < own.length := stemsBase.slots ▸ (List.getElem?_eq_some_iff.mp there).1
  have held : own[i]? = some (own[i].1, own[i].2) := List.getElem?_eq_getElem inside
  -- The method in this place was projected twice, and both times before the later state.
  have heldAll : all[i]? = some (own[i].1, own[i].2) := by
    obtain ⟨more, rfl⟩ := front
    rw [List.getElem?_append_left inside, held]
  obtain ⟨_, depth, _, _, signature, insideS, holdsS, signed, carriesS, slotBase, _⟩ :=
    stemsBase.place i _ _ held
  obtain ⟨_, other, _, _, _, insideT, holdsT, signedT, carriesT, slotTable, _⟩ := stems.place i _ _ heldAll
  have concurs : Concurs U (.before later) _ _ :=
    slotSignature_matches (concurring_linked consistent answers depth other) own[i].2
  obtain rfl := concurs.same insideS insideT holdsS holdsT signed signedT carriesS carriesT
  obtain rfl := Option.some.inj (there.symm.trans slotBase)
  exact ⟨_, _, rfl, slotTable⟩

end Bindings
