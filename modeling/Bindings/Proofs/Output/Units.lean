import Bindings.CommandLine.Run
import Bindings.Proofs.Table

/-!
# Declarations in units

Units share out declarations: each occurrence of a declaration is in one unit, and inside a unit the
declarations keep their order. No two units have the same name, so a manifest has an entry for each
unit, and a summary counts all declarations.
-/

namespace Bindings
open Bindings.CommandLine Bindings.Text

/-! ## Entries in the order of their keys -/

theorem perm_inKeyOrder {ν : Type} (table : Table String ν) :
    (inKeyOrder table).Perm table.entries :=
  List.mergeSort_perm table.entries _

/-- Keys that are all different are in a strict order. -/
theorem inKeyOrder_ascending {ν : Type} {table : Table String ν} (distinct : table.keys.Nodup) :
    ((inKeyOrder table).map (·.1)).Pairwise (· < ·) := by
  have sorted : (inKeyOrder table).Pairwise fun a b => !(b.1 < a.1) := by
    refine List.pairwise_mergeSort (fun a b c early late => ?_) (fun a b => ?_) table.entries
    · simp only [Bool.not_eq_true', decide_eq_false_iff_not, String.not_lt] at early late ⊢
      exact String.le_trans early late
    · simp only [Bool.or_eq_true, Bool.not_eq_true', decide_eq_false_iff_not, String.not_lt]
      exact String.le_total a.1 b.1
  have apart : ((inKeyOrder table).map (·.1)).Nodup :=
    ((perm_inKeyOrder table).map Prod.fst).nodup_iff.mpr distinct
  rw [List.Nodup, List.pairwise_map] at apart
  rw [List.pairwise_map]
  refine (sorted.and apart).imp ?_
  rintro a b ⟨inOrder, different⟩
  simp only [Bool.not_eq_true', decide_eq_false_iff_not, String.not_lt] at inOrder
  by_cases before : a.1 < b.1
  · exact before
  · exact absurd (String.le_antisymm inOrder (String.not_lt.mp before)) different

theorem nodup_of_ascending {names : List String} (ascending : names.Pairwise (· < ·)) : names.Nodup := by
  refine ascending.imp ?_
  rintro a _ before rfl
  exact String.lt_irrefl a before

theorem flatMap_congr_mem {α β : Type} {xs : List α} {f g : α → List β}
    (same : ∀ x ∈ xs, f x = g x) : xs.flatMap f = xs.flatMap g :=
  congrArg List.flatten (List.map_congr_left same)

/-- Values that are taken key by key are all values, if each key is taken once. -/
theorem flatMap_filter_perm {α κ : Type} [DecidableEq κ] (key : α → κ) {keys : List κ}
    (distinct : keys.Nodup) {xs : List α} (all : ∀ x ∈ xs, key x ∈ keys) :
    (keys.flatMap fun k => xs.filter (key · = k)).Perm xs := by
  induction keys generalizing xs with
  | nil =>
    cases xs with
    | nil => exact .refl _
    | cons x xs => exact absurd (all x (by simp)) List.not_mem_nil
  | cons k keys ih =>
    obtain ⟨fresh, distinct⟩ := List.nodup_cons.mp distinct
    -- the later keys take what the first one leaves
    have left : ∀ x ∈ xs.filter (fun x => !(key x = k)), key x ∈ keys := by
      intro x member
      obtain ⟨inside, other⟩ := List.mem_filter.mp member
      have other : key x ≠ k := by simpa using other
      exact (List.mem_cons.mp (all x inside)).resolve_left other
    have same : (keys.flatMap fun k' => xs.filter (key · = k')) =
        keys.flatMap fun k' => (xs.filter fun x => !(key x = k)).filter (key · = k') := by
      refine flatMap_congr_mem fun k' member => ?_
      have apart : k' ≠ k := fun same => fresh (same ▸ member)
      rw [List.filter_filter]
      refine List.filter_congr fun x _ => ?_
      by_cases taken : key x = k'
      · simp [taken, apart]
      · simp [taken]
    rw [List.flatMap_cons, same]
    exact ((ih distinct left).append_left _).trans (List.filter_append_perm _ xs)

/-! ## Units -/

/-- The name of the unit that a declaration goes to. -/
def homeOf (single : Bool) (d : Declaration) : String := if single then singleUnitName else unitName d

/-- The occurrences of declarations that go to a unit, each with its position. -/
def occurrencesIn (declarations : List Declaration) (single : Bool) (name : String) :
    List (Declaration × Nat) :=
  declarations.zipIdx.filter fun (d, _) => homeOf single d = name

/-- Units share out declarations. -/
structure SharedOut (declarations : List Declaration) (single : Bool) (units : List OutputUnit) :
    Prop where
  /-- The units are in the order of their names, and no two have the same name. -/
  ascending : (units.map (·.name)).Pairwise (· < ·)
  filled : ∀ u ∈ units, u.declarations ≠ []
  /-- A unit has its occurrences of declarations, in their order. -/
  kept : ∀ u ∈ units, u.declarations = (occurrencesIn declarations single u.name).map (·.1)
  ordered : ∀ u ∈ units, u.declarations.Sublist declarations
  /-- The units have each occurrence once. -/
  once : (units.flatMap fun u => occurrencesIn declarations single u.name).Perm declarations.zipIdx
  /-- Without a single unit, declarations are together if their units have the same name. -/
  together : single = false → ∀ u ∈ units, ∀ v ∈ units, ∀ d ∈ u.declarations, ∀ e ∈ v.declarations,
    u = v ↔ unitName d = unitName e

section
variable {declarations : List Declaration} {single : Bool} {units : List OutputUnit}

theorem occurrencesIn_declarations (declarations : List Declaration) (single : Bool) (name : String) :
    (occurrencesIn declarations single name).map (·.1) = declarations.filter (homeOf single · = name) := by
  calc (occurrencesIn declarations single name).map (·.1)
      = (declarations.zipIdx.map (·.1)).filter (homeOf single · = name) := by
        rw [List.filter_map]
        rfl
    _ = declarations.filter (homeOf single · = name) := by rw [List.zipIdx_map_fst]

/-- Units with names in a strict order share out declarations if each has the declarations that go to
    it, and no declaration goes elsewhere. -/
theorem SharedOut.of_filter (ascending : (units.map (·.name)).Pairwise (· < ·))
    (filled : ∀ u ∈ units, u.declarations ≠ [])
    (kept : ∀ u ∈ units, u.declarations = declarations.filter (homeOf single · = u.name))
    (placed : ∀ d ∈ declarations, homeOf single d ∈ units.map (·.name)) :
    SharedOut declarations single units where
  ascending := ascending
  filled := filled
  kept u member := by rw [occurrencesIn_declarations, kept u member]
  ordered u member := by
    rw [kept u member]
    exact List.filter_sublist
  once := by
    have distinct : (units.map (·.name)).Nodup :=
      nodup_of_ascending ascending
    have all : ∀ occurrence ∈ declarations.zipIdx, homeOf single occurrence.1 ∈ units.map (·.name) :=
      fun occurrence member => placed _ (List.fst_mem_of_mem_zipIdx member)
    have perm := flatMap_filter_perm (fun occurrence : Declaration × Nat => homeOf single occurrence.1)
      distinct all
    rwa [List.flatMap_map] at perm
  together apart u memberU v memberV d inU e inV := by
    have home : ∀ w ∈ units, ∀ x ∈ w.declarations, unitName x = w.name := by
      intro w member x inside
      rw [kept w member] at inside
      have goes := of_decide_eq_true (List.mem_filter.mp inside).2
      rwa [homeOf, apart, if_neg Bool.false_ne_true] at goes
    rw [home u memberU d inU, home v memberV e inV]
    constructor
    · rintro rfl
      rfl
    · intro same
      have declarations := (kept u memberU).trans (same ▸ (kept v memberV).symm)
      cases u
      cases v
      simp_all

theorem SharedOut.names_nodup (shared : SharedOut declarations single units) :
    (units.map (·.name)).Nodup :=
  nodup_of_ascending shared.ascending

/-- All units together have the declarations. -/
theorem SharedOut.whole (shared : SharedOut declarations single units) :
    (units.flatMap (·.declarations)).Perm declarations := by
  have all := shared.once.map (·.1)
  rw [List.zipIdx_map_fst, List.map_flatMap] at all
  rwa [flatMap_congr_mem shared.kept]

/-- Declarations in units by their names. -/
theorem named_sharedOut (declarations : List Declaration) :
    SharedOut declarations false ((inKeyOrder (declarations.foldl
      (fun (groups : Table String (List Declaration)) d => groups.push (unitName d) d) {})).map
        fun (name, ds) => ⟨name, ds⟩) := by
  have distinct := Table.nodup_foldl_push unitName declarations {} List.nodup_nil
  have values := Table.foldl_push_groups unitName declarations
  have filled := Table.foldl_push_filled unitName declarations
  have present := Table.mem_keys_foldl_push unitName declarations {}
  generalize declarations.foldl (fun (groups : Table String (List Declaration)) d =>
    groups.push (unitName d) d) {} = groups at *
  have entry : ∀ {e}, e ∈ inKeyOrder groups → e ∈ groups.entries := (perm_inKeyOrder groups).mem_iff.mp
  have names : ((inKeyOrder groups).map fun (name, ds) => OutputUnit.mk name ds).map (·.name) =
      (inKeyOrder groups).map (·.1) := by
    rw [List.map_map]
    rfl
  refine .of_filter ?_ ?_ ?_ ?_
  · rw [names]
    exact inKeyOrder_ascending distinct
  · intro u member
    obtain ⟨e, inside, rfl⟩ := List.mem_map.mp member
    exact filled e (entry inside)
  · intro u member
    obtain ⟨e, inside, rfl⟩ := List.mem_map.mp member
    exact values e (entry inside)
  · intro d there
    rw [names]
    exact ((perm_inKeyOrder groups).map Prod.fst).mem_iff.mpr ((present _).mpr (.inr ⟨d, there, rfl⟩))

/-- All declarations in one unit. -/
theorem single_sharedOut {declarations : List Declaration} (some : declarations ≠ []) :
    SharedOut declarations true [⟨singleUnitName, declarations⟩] := by
  refine .of_filter (by simp) ?_ ?_ ?_
  · intro u member
    rwa [List.mem_singleton.mp member]
  · intro u member
    rw [List.mem_singleton.mp member]
    exact (List.filter_eq_self.mpr (by simp [homeOf])).symm
  · intro d _
    simp [homeOf]

theorem groupUnits_sharedOut (declarations : List Declaration) (single : Bool) :
    SharedOut declarations single (groupUnits declarations single) := by
  unfold groupUnits
  by_cases nothing : declarations = []
  · subst nothing
    rw [if_pos List.isEmpty_nil]
    exact .of_filter .nil (fun _ member => absurd member List.not_mem_nil)
      (fun _ member => absurd member List.not_mem_nil) fun _ member => absurd member List.not_mem_nil
  · rw [if_neg (by simpa using nothing)]
    cases single with
    | true => exact single_sharedOut nothing
    | false => exact named_sharedOut declarations

/-! ## Manifests and summaries -/

/-- A manifest of units with names of their own has an entry for each unit. -/
theorem manifest_entries (distinct : (units.map (·.name)).Nodup) :
    (manifest units).entries = units.map fun u => (u.name, u.declarations.map manifestLine) := by
  have named : ((units.map fun u => (u.name, u.declarations.map manifestLine)).map (·.1)).Nodup := by
    rwa [List.map_map]
  have written := Table.entries_foldl_put (t := ({} : Table String (List String))) named fun _ _ => rfl
  rw [List.foldl_map] at written
  exact written

theorem declarationCount_summary (g : Generation) (outcomes : List RequestOutcome)
    (units : List OutputUnit) :
    (g.summary outcomes units).declarationCount = (units.flatMap (·.declarations)).length := by
  have counted : ∀ (units : List OutputUnit) (total : Int),
      (units.map fun u => (u.name, (u.declarations.length : Int))).foldl
        (fun total u => total + u.2) total = total + (units.flatMap (·.declarations)).length := by
    intro units
    induction units with
    | nil => simp
    | cons u units ih =>
      intro total
      rw [List.map_cons, List.foldl_cons, ih, List.flatMap_cons, List.length_append]
      omega
  have all := counted units 0
  rwa [Int.zero_add] at all

end

/-- Whatever declarations there are, in one unit or in many: the units share them out, the manifest has
    an entry for each unit with a line for each of its declarations, and the summary counts all. -/
theorem units_share (declarations : List Declaration) (single : Bool) :
    SharedOut declarations single (groupUnits declarations single) ∧
      (manifest (groupUnits declarations single)).entries =
        (groupUnits declarations single).map (fun u => (u.name, u.declarations.map manifestLine)) ∧
      ((manifest (groupUnits declarations single)).values.flatten).Perm
        (declarations.map manifestLine) ∧
      ∀ (g : Generation) outcomes,
        (g.summary outcomes (groupUnits declarations single)).declarationCount = declarations.length := by
  have shared := groupUnits_sharedOut declarations single
  have entries := manifest_entries shared.names_nodup
  refine ⟨shared, entries, ?_, fun g outcomes => ?_⟩
  · have lines := shared.whole.map manifestLine
    rw [List.map_flatMap] at lines
    rwa [Table.values, entries, List.map_map, ← List.flatMap_def]
  · rw [declarationCount_summary, shared.whole.length_eq]

end Bindings
