import Bindings.Proofs.Generation.BaseChain
import Bindings.Proofs.Generation.Choice
import Bindings.Proofs.Generation.Handle
import Bindings.Proofs.Request.Record

/-!
# The durable record is closed

Between requests each name in a durable declaration is that of a durable declaration, unless it
was taken from the substitutions. The bases of an interface and the release function of a handle
are durable too.
-/

namespace Bindings
open Bindings.Metadata

variable {env : Environment} {D : Discipline env} {s t : State}

/-! ## Names that are known -/

/-- All names in a type that have a namespace are those of known entities. -/
def State.Covers (env : Environment) (type : TargetType) (s : State) : Prop :=
  ∀ n, type.Mentions env.substitutions.Brings n → n.space ≠ "" →
    ∃ key : EntityKey, s.Knows key ∧ key.declares = n

/-- The discipline by which all names in types are known. -/
def Discipline.named (consistent : env.index.Consistent) : Discipline env where
  Good _ type s := s.Covers env type
  Listed d := ∀ t, d = .type t → env.index.Chooses env.options.platformName? t
  Backed handle := handle.Releases env
  Answers name answer := ∃ t, t.full = name ∧
    env.index.Chooses env.options.platformName? t ∧ (answer = true ↔ Reaches env t)
  Flat _ := True
  good_carries := by
    intro _ type s t covers later n mentions space
    obtain ⟨key, known, named⟩ := covers n mentions space
    exact ⟨key, later.knows key known, named⟩
  good_weaken := id
  good_word := by
    intro _ name s n mentions space
    cases mentions
    exact absurd rfl space
  good_pointer := by
    intro _ type s
    constructor
    · intro covers n mentions space
      exact covers n (.pointer (fun own => mentions.own (.element own)) mentions) space
    · intro covers n mentions space
      cases mentions with
      | pointer _ inner => exact covers n inner space
  good_functionPointer := by
    intro _ params returns s inputs output n mentions space
    cases mentions with
    | param _ among inner => exact inputs _ among n inner space
    | returns _ inner => exact output n inner space
  good_array := by
    intro type s covers n mentions space
    cases mentions with
    | array _ inner => exact covers n inner space
  good_span := by
    intro type isReadonly s covers n mentions space
    cases mentions with
    | span _ inner => exact covers n inner space
  good_nullable := by
    intro type s covers n mentions space
    cases mentions with
    | nullable _ inner => exact covers n inner space
  good_replacement := by
    intro name type found _ s n mentions _
    exact absurd (.entry (Table.mem_of_lookupIn found)) mentions.own
  good_entity := by
    intro e _ s known _ _ n mentions _
    cases mentions
    exact ⟨e.key, known, rfl⟩
  listed_means := by
    rintro reference t means _ ⟨⟩
    exact (means.chooses consistent).1
  listed_chosen := by
    rintro c _ offers chosen t rfl
    exact offers.chooses consistent chosen
  listed_release := by
    rintro name f _ t ⟨⟩
  listed_flat _ _ _ := trivial
  flat_primitive _ := trivial
  flat_pointer _ := trivial
  flat_array _ := trivial
  flat_params _ _ _ := trivial
  flat_returns _ := trivial
  flat_nested _ _ _ _ covers := covers
  backed_built := by
    intro name handle s built
    have leads : Gen.Leads env s (buildHandle name) _ _ := buildHandle_leads name
    rw [Gen.Leads, built] at leads
    exact (leads handle rfl).1
  answers_reached := by
    intro t answer chooses reached
    exact ⟨t, rfl, chooses t rfl, reachesUniversalBase_ok (reached {})⟩

/-! ## Names -/

section
variable {roots : List Markup.Element} (alone : env.available = [])
  (consistent : env.index.Consistent) (requests : List PublicRequest)
include alone consistent

/-- Each name in a durable declaration is that of a durable declaration. -/
theorem session_names {d : Declaration} (member : d ∈ (env.session requests).ledger.declarations)
    {type : TargetType} (place : type ∈ d.types) {n : QualifiedName}
    (mentions : type.Mentions env.substitutions.Brings n) (space : n.space ≠ "") :
    ∃ other ∈ (env.session requests).ledger.declarations, other.declares = n := by
  obtain ⟨e, _, fits⟩ := session_fits (.named consistent) requests member
  obtain ⟨key, known, rfl⟩ := fits_types fits type place n mentions space
  obtain ⟨_, declarations, rfl, there, _, covers⟩ :=
    session_known (.named consistent) alone requests known
  obtain ⟨other, inside, named⟩ := covers.named
  exact ⟨other, mem_declarations.mpr ⟨_, there, inside⟩, named⟩

/-! ## Releases -/

/-- The key of the function that releases a handle. -/
def GuardedHandle.releaseKey (h : GuardedHandle) : EntityKey :=
  ⟨.function, ⟨h.releaseSpace, h.releaseFunction⟩, false⟩

/-- The release function of a durable handle is durable. -/
theorem session_releases {h : GuardedHandle} {visibility : Visibility}
    (member : .guardedHandle h visibility ∈ (env.session requests).ledger.declarations) :
    h.releaseKey ∈ (env.session requests).ledger.committedKeys := by
  obtain ⟨e, asked, fits⟩ := session_fits (.named consistent) requests member
  cases fits with
  | @guardedHandle _ _ release chosen known =>
    obtain ⟨name, found, first, owned⟩ := asked
    rw [owned.releaseFunction] at chosen
    obtain rfl := consistent.release first chosen
    have same : (Entity.function found).key = h.releaseKey := by
      rw [Entity.key, GuardedHandle.releaseKey, owned.releaseFunction, owned.releaseSpace]
    obtain ⟨_, _, _, there, _⟩ := session_known (.named consistent) alone requests known
    rw [← same]
    exact List.mem_map_of_mem there

/-! ## Bases -/

/-- The full name of a true interface. -/
def InterfaceDecl.full (i : InterfaceDecl) : String := dotted i.space i.name

/-- The full name of a table of methods. -/
def VtableStructDecl.full (v : VtableStructDecl) : String := dotted v.space v.name

/-- Types of two namespaces have a full name. -/
def Metadata.Index.Collides (index : Index) (full : String) : Prop :=
  ∃ t u, .type t ∈ index.ofName t.name ∧ .type u ∈ index.ofName u.name ∧ t.full = full ∧
    u.full = full ∧ t.space ≠ u.space

omit alone in
/-- What is remembered for the full name of a type is true of the type, unless another one has the
    same full name. -/
theorem answers_chosen {t : TypeDefinition} {answer : Bool}
    (chooses : env.index.Chooses env.options.platformName? t)
    (answers : (Discipline.named consistent).Answers t.full answer) :
    (answer = true ↔ Reaches env t) ∨ env.index.Collides t.full := by
  obtain ⟨u, same, chosen, reached⟩ := answers
  by_cases space : u.space = t.space
  · have name : u.name = t.name := by
      unfold TypeDefinition.full at same
      rw [space] at same
      exact (String.append_right_inj _).mp same
    obtain rfl := chosen.eq chooses space name
    exact .inl reached
  · exact .inr ⟨u, t, consistent.held chosen, consistent.held chooses, same, rfl, space⟩

omit alone in
/-- If an interface is remembered to conform and one above it not to, it is the universal base
    itself, or one of their full names is that of another type too. -/
theorem conforms_above {s : State} (safe : (Discipline.named consistent).Safe s)
    {t base : TypeDefinition} {chain : List TypeDefinition}
    (chooses : env.index.Chooses env.options.platformName? t) (climbs : Climbs env t chain)
    (above : base ∈ chain) (conforms : s.Conforms t true) (fails : s.Conforms base false) :
    t.name = env.substitutions.universalBase ∨ env.index.Collides t.full ∨
      env.index.Collides base.full := by
  obtain ⟨⟨reference, means⟩, _⟩ := climbs.mem base above
  rcases answers_chosen consistent chooses (safe.answers _ _ conforms) with reaches | collides
  · rcases answers_chosen consistent (means.chooses consistent).1 (safe.answers _ _ fails) with
      lower | collides
    · refine .inl (Classical.byContradiction fun apart => ?_)
      exact Bool.noConfusion (lower.mpr (climbs.reaches (reaches.mp rfl) apart base above))
    · exact .inr (.inr collides)
  · exact .inr (.inl collides)

/-- A base of a durable interface is a durable interface. It is a durable table of methods only
    below an interface that is the universal base itself, or where full names collide. -/
theorem session_bases {i : InterfaceDecl} (member : i ∈ (env.session requests).ledger.interfaces)
    {base : String} (named : base ∈ i.bases) :
    base ∈ (env.session requests).ledger.interfaces.map (·.full) ∨
      base ∈ (env.session requests).ledger.vtables.map (·.full) ∧
        (i.name = env.substitutions.universalBase ∨ env.index.Collides i.full ∨
          env.index.Collides base) := by
  obtain ⟨e, asked, fits⟩ :=
    session_fits (.named consistent) requests (mem_interfaces.mp member)
  cases fits with
  | @interface t _ shape fits =>
    obtain ⟨chain, climbed, bases, knows⟩ := fits.bases
    rw [bases] at named
    obtain ⟨b, kept, rfl⟩ := List.mem_map.mp named
    obtain ⟨inside, other⟩ := List.mem_filter.mp kept
    have climbs := baseChain_ok (climbed {})
    have above := List.mem_reverse.mpr inside
    obtain ⟨⟨reference, means⟩, isInterface⟩ := climbs.mem b above
    obtain ⟨e', declarations, key, held, listed, covers⟩ :=
      session_known (.named consistent) alone requests (knows b inside (by simpa using other))
    obtain ⟨declared, own, _⟩ := covers.named
    have there := mem_declarations.mpr ⟨_, held, own⟩
    have fitting := covers.fits declared own
    -- the type that is declared is the one in the chain
    obtain ⟨u, rfl, space, name⟩ := Entity.eq_type key
    obtain rfl := (listed.1 u rfl).eq (means.chooses consistent).1 space name
    cases fitting with
    | struct record _ => simp [TypeDefinition.isInterface, record] at isInterface
    | enum record _ _ _ => simp [TypeDefinition.isInterface, record] at isInterface
    | delegate delegate _ _ _ _ =>
      cases own : u.shape <;> simp_all [TypeDefinition.isInterface, TypeDefinition.isDelegate]
    | @interface _ j _ fitsBase =>
      refine .inl (List.mem_map.mpr ⟨j, mem_interfaces.mpr there, ?_⟩)
      rw [InterfaceDecl.full, fitsBase.space, fitsBase.name, TypeDefinition.full]
    | @vtable _ _ v table =>
      refine .inr ⟨List.mem_map.mpr ⟨v, mem_vtables.mpr there, ?_⟩, ?_⟩
      · rw [VtableStructDecl.full, table.space, table.name, TypeDefinition.full]
        rfl
      · rw [InterfaceDecl.full, fits.space, fits.name]
        rcases table.tabled with own | off | fails
        · cases own
        · rw [fits.marshaling] at off
          cases off
        · have safe := (session_advances (.named consistent) requests).safe
          exact conforms_above consistent safe (asked.1 t rfl) climbs above fits.conforms fails

end

/-! ## Closure -/

/-- A function that takes a handle, the function that releases it, and an interface. -/
def handleDocument : Markup.Element :=
  oneNamespace "Ns" [
    ⟨"struct", [("name", "HTHING"), ("typedef", "true"), ("release", "CloseThing")], "",
      [⟨"field", [("name", "Value"), ("type", "isize")], "", []⟩]⟩,
    ⟨"function", [("name", "CloseThing"), ("module", "thing"), ("returns", "bool")], "",
      [⟨"param", [("name", "thing"), ("type", "HTHING")], "", []⟩]⟩,
    ⟨"function", [("name", "OpenThing"), ("module", "thing"), ("returns", "HTHING")], "", []⟩,
    interfaceElement "IUnknown" [],
    interfaceElement "IThing" [("base", "IUnknown")]]

/-- The universal base with a base of its own. -/
def rootedDocument : Markup.Element :=
  oneNamespace "Ns" [interfaceElement "IRoot" [], interfaceElement "IUnknown" [("base", "IRoot")]]

/-- Two interfaces whose full name is "A.B.C", of which only one conforms. -/
def collidingDocuments : List Markup.Element := [
  oneNamespace "A" [interfaceElement "IRoot" [], interfaceElement "B.C" [("base", "IRoot")]],
  oneNamespace "A.B" [interfaceElement "IUnknown" [], interfaceElement "C" [("base", "IUnknown")],
    interfaceElement "D" [("base", "C")]]]

/-- A durable record is closed: whatever its declarations name is declared in it. -/
structure Ledger.Closed (env : Environment) (l : Ledger) : Prop where
  names : ∀ d ∈ l.declarations, ∀ type ∈ d.types, ∀ n, type.Mentions env.substitutions.Brings n →
    n.space ≠ "" → ∃ other ∈ l.declarations, other.declares = n
  bases : ∀ i ∈ l.interfaces, ∀ base ∈ i.bases, base ∈ l.interfaces.map (·.full) ∨
    base ∈ l.vtables.map (·.full) ∧
      (i.name = env.substitutions.universalBase ∨ env.index.Collides i.full ∨ env.index.Collides base)
  releases : ∀ h visibility, .guardedHandle h visibility ∈ l.declarations →
    h.releaseKey ∈ l.committedKeys

/-- Between the requests of a session the durable record is closed. -/
theorem session_closed (env : Environment) (alone : env.available = []) (roots : List Markup.Element)
    (built : Index.ofDocuments roots = .ok env.index) (requests : List PublicRequest) :
    (env.session requests).ledger.Closed env where
  names _ member _ place _ mentions space :=
    session_names alone (Index.ofDocuments_consistent built) requests member place mentions space
  bases _ member _ named :=
    session_bases alone (Index.ofDocuments_consistent built) requests member named
  releases _ _ member := session_releases alone (Index.ofDocuments_consistent built) requests member

/-- All that the document declares is closed. -/
theorem session_closed_handles :
    Index.ofDocuments [handleDocument] = .ok (Environment.reading [handleDocument]).index ∧
      ((Environment.reading [handleDocument]).session [.all none]).ledger.Closed
        (Environment.reading [handleDocument]) :=
  have built := reading_built (by decide +kernel)
  ⟨built, session_closed _ rfl [handleDocument] built [.all none]⟩

/-- A durable interface has a base that is none. -/
def Ledger.Dangles (l : Ledger) : Prop :=
  ∃ i ∈ l.interfaces, ∃ base ∈ i.bases, base ∉ l.interfaces.map (·.full)

instance (l : Ledger) : Decidable l.Dangles := inferInstanceAs (Decidable (∃ i ∈ l.interfaces, _))

/-- None of the exceptions for bases can be left out: below the universal base, and where a full
    name is that of two types, whichever of them is met first. -/
theorem session_bases_exceptions :
    (Index.ofDocuments [rootedDocument] = .ok (Environment.reading [rootedDocument]).index ∧
      ((Environment.reading [rootedDocument]).session [.byName "Ns.IUnknown"]).ledger.Dangles) ∧
    Index.ofDocuments collidingDocuments = .ok (Environment.reading collidingDocuments).index ∧
      ((Environment.reading collidingDocuments).session
        [.byName "B.C", .byName "D"]).ledger.Dangles ∧
      ((Environment.reading collidingDocuments).session
        [.byName "D", .byName "B.C"]).ledger.Dangles := by
  refine ⟨⟨reading_built ?_, ?_⟩, reading_built ?_, ?_, ?_⟩ <;> decide +kernel

end Bindings
