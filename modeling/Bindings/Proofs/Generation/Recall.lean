import Bindings.Proofs.Generation.Settling

/-!
# Questions in any session

If each question whether a type is managed is answered in a new session, it is answered in every
session whose memory is right. A walk that begins with verdicts goes where one without any goes, until
it meets a type that is managed. It may go other ways below types that do not need marshaling, but
nothing fails there.
-/

namespace Bindings
open Bindings.Metadata

variable {env : Environment} {among : TypeDefinition → Prop} {s t u v : State} {d e : TypeDefinition}
  {α β : Type}

/-! ## Answers in a new session -/

/-- Each question is answered in a new session. -/
def Replies (env : Environment) (among : TypeDefinition → Prop) : Prop :=
  ∀ d, among d → Gen.succeeds env (isManagedType d true) = true

/-- A question is answered after a walk. -/
theorem isManagedType_ok_iff {marshaling : Bool} :
    (∃ answer t, isManagedType d marshaling env s = .ok answer t) ↔
      ∃ verdict t, walk marshaling (env.typeCount + 2) d env s = .ok verdict t := by
  unfold isManagedType
  rw [Gen.read_bind, Gen.get_bind, Gen.bind_eq, Gen.ensuring_eq]
  cases walk marshaling (env.typeCount + 2) d env s with
  | ok verdict t => exact iff_of_true ⟨_, _, rfl⟩ ⟨_, _, rfl⟩
  | error e t => simp

theorem Replies.walks (replies : Replies env among) (amongD : among d) :
    ∃ verdict t, walk true (env.typeCount + 2) d env {} = .ok verdict t := by
  have succeeds := replies d amongD
  unfold Gen.succeeds at succeeds
  cases ended : isManagedType d true env {} with
  | ok answer t => exact isManagedType_ok_iff.mp ⟨answer, t, ended⟩
  | error e t =>
    rw [ended] at succeeds
    cases succeeds

/-- An interface that is asked about has a base chain. -/
theorem Replies.interface (replies : Replies env among) (amongD : among d)
    (interface : d.isInterface = true) : Gen.succeeds env (reachesUniversalBase d) = true := by
  obtain ⟨verdict, t, walked⟩ := replies.walks amongD
  cases shape : d.shape with
  | interface bases methods guid =>
    unfold walk at walked
    rw [Gen.get_bind] at walked
    simp only [shape, if_true] at walked
    obtain ⟨answer, u, conforming, _⟩ := Gen.bind_ok walked
    unfold isConforming at conforming
    rw [Gen.get_bind] at conforming
    obtain ⟨answer, v, reached, _⟩ := Gen.bind_ok conforming
    unfold Gen.succeeds
    rw [reached]
  | record r => simp [TypeDefinition.isInterface, shape] at interface
  | enum base members isFlags => simp [TypeDefinition.isInterface, shape] at interface
  | delegate returns params => simp [TypeDefinition.isInterface, shape] at interface

/-- The fields of a type that is not managed are all looked at, so what they hold is resolved. -/
theorem fields_resolved {marshaling : Bool} {visiting : List AnalysisKey}
    {step : TypeDefinition → Gen (Option Bool)} {r : Record} (terrain : Terrain env among)
    (amongD : among d) (struct : IsPlainStruct d r) (unwanted : ¬Wanted env marshaling d)
    (under : (marshaling, d.full) ∈ visiting) (goes : Answers env among among marshaling visiting step)
    (sifted : Sifted env among among marshaling visiting s) (path : s.analysis.visiting = visiting)
    {fields : List Field} (inside : ∀ f ∈ fields, f ∈ r.fields) {managed : Bool}
    (ended : anyFieldIsManaged step marshaling (marshaling, d.full) fields env s = .ok managed u) :
    ∀ f ∈ fields, ∀ reference, heldReference? f.type = some reference →
      Gen.succeeds env (resolve reference) = true := by
  induction fields generalizing s with
  | nil => simp
  | cons f rest ih =>
    obtain ⟨here, t, first, later⟩ := Gen.bind_ok ended
    have search : Searches env among among marshaling visiting d s _ _ :=
      .fieldIsManaged terrain.clearing amongD under goes sifted path
        (fun e contains => ⟨r, struct, f, inside f (by simp), contains⟩)
        fun all _ reference held => (all d amongD).resolves struct (inside f (by simp)) held
    rw [Searches, Gen.Leads, first] at search
    obtain ⟨siftedT, further, wanted, _⟩ := search
    have plain : here = false := by
      cases here with
      | false => rfl
      | true => exact absurd (wanted rfl) unwanted
    subst plain
    intro g member reference held
    rcases List.mem_cons.mp member with rfl | among
    · unfold fieldIsManaged at first
      rw [held] at first
      obtain ⟨found, v, resolved, _⟩ := Gen.bind_ok first
      unfold Gen.succeeds
      rw [((resolve_steady reference).everywhere resolved).2]
    · exact ih siftedT (further.visiting.trans path) (fun g member => inside g (List.mem_cons_of_mem f member))
        later g among reference held

/-- There are answers for a type that does not need marshaling. -/
theorem Replies.answerable (replies : Replies env among) (terrain : Terrain env among)
    (amongD : among d) (plain : ¬NeedsMarshaling env d) : Answerable env d where
  bases := replies.interface amongD
  fields r record layout f member reference held := by
    have shape : d.shape = .record r := by
      cases shape : d.shape <;> simp_all [TypeDefinition.record?]
    have struct := terrain.plain d r amongD shape layout
    obtain ⟨verdict, t, walked⟩ := replies.walks amongD
    unfold walk at walked
    rw [Gen.get_bind] at walked
    simp only [shape, layout] at walked
    change ((do
      modify (·.analyse fun a => { a with visiting := [(true, d.full)] })
      Gen.ensuring _ _ >>= _ : Gen (Option Bool))) env {} = _ at walked
    rw [Gen.modify_bind] at walked
    obtain ⟨managed, v, ended, _⟩ := Gen.bind_ok walked
    rw [Gen.ensuring_eq] at ended
    cases fields : anyFieldIsManaged (walk true (env.typeCount + 1)) true (true, d.full) r.fields env
        (State.analyse {} fun a => { a with visiting := [(true, d.full)] }) with
    | error e w =>
      rw [fields] at ended
      cases ended
    | ok managed w =>
      have begun : Sifted env among among true [(true, d.full)] {} :=
        (Settled.init.sifted terrain.clearing true).visit rfl
      refine fields_resolved terrain amongD struct (fun wanted => plain wanted.2) (by simp)
        (fun e s amongE sifted path => ?_) (begun.visits _) rfl (fun _ h => h) fields f member reference held
      exact Searches.walk terrain.clearing _ amongE sifted path (.cons ⟨.nil, by simp⟩ amongD (by simp)) (by simp)

/-! ## Below types that are not managed -/

/-- Verdicts that types are managed are right, and so is what is remembered of interfaces. -/
structure Candid (env : Environment) (among : TypeDefinition → Prop) (s : State) : Prop where
  managed : ∀ d, among d → s.Judges d true → NeedsMarshaling env d
  conformance : ∀ d, among d → d.isInterface = true → ∀ answer,
    s.conformance.get? d.full = some answer → (answer = true ↔ Reaches env d)

theorem Settled.candid (settled : Settled env among among s) : Candid env among s where
  managed d amongD judged := ((settled.verdicts d amongD true true judged).managed rfl).2
  conformance := settled.conformance

/-- Nothing has changed for types that need marshaling. -/
structure Aside (env : Environment) (among : TypeDefinition → Prop) (s t : State) : Prop where
  candid : Candid env among t
  visiting : t.analysis.visiting = s.analysis.visiting
  verdicts : ∀ d, among d → NeedsMarshaling env d →
    t.analysis.verdicts.get? (true, d.full) = s.analysis.verdicts.get? (true, d.full)

theorem Aside.refl (candid : Candid env among s) : Aside env among s s := ⟨candid, rfl, fun _ _ _ => rfl⟩

theorem Aside.trans (first : Aside env among s t) (second : Aside env among t u) : Aside env among s u where
  candid := second.candid
  visiting := second.visiting.trans first.visiting
  verdicts d amongD needs := (second.verdicts d amongD needs).trans (first.verdicts d amongD needs)

/-- A dependency does not matter for what is found. -/
theorem Candid.depend (candid : Candid env among s) (dependency owner : AnalysisKey) :
    Candid env among (s.analyse (·.depend dependency owner)) := ⟨candid.managed, candid.conformance⟩

theorem Candid.visit (candid : Candid env among s) (visiting : List AnalysisKey) :
    Candid env among (s.analyse fun a => { a with visiting }) := ⟨candid.managed, candid.conformance⟩

theorem Candid.decide (terrain : Terrain env among) (candid : Candid env among s) (amongD : among d)
    {verdict : Bool} (right : verdict = true → NeedsMarshaling env d) :
    Candid env among (s.deciding (true, d.full) verdict) where
  managed other amongOther judged := by
    have known : (s.analysis.verdicts.put (true, d.full) verdict).get? (true, other.full) = some true :=
      judged
    rw [Table.get?_put] at known
    split at known
    · next same =>
      obtain rfl := terrain.alone d other amongD amongOther (congrArg Prod.snd same)
      exact right (Option.some.inj known)
    · exact candid.managed other amongOther known
  conformance := candid.conformance

/-- A part of a walk gives a result, and changes nothing for types that need marshaling. -/
def Skirts (env : Environment) (among : TypeDefinition → Prop) (s : State) (x : Gen α) (result : α → Prop) :
    Prop :=
  Gen.Leads env s x (fun a t => Aside env among s t ∧ result a) fun _ => False

theorem Skirts.bind {x : Gen α} {f : α → Gen β} {Q : α → Prop} {final : β → Prop}
    (first : Skirts env among s x Q)
    (rest : ∀ a t, Aside env among s t → Q a → Skirts env among t (f a) final) :
    Skirts env among s (x >>= f) final := by
  refine Gen.Leads.bind first fun a t ⟨aside, holds⟩ => (rest a t aside holds).imp ?_ fun _ h => h
  rintro b u ⟨later, holdsU⟩
  exact ⟨aside.trans later, holdsU⟩

theorem Skirts.pure (candid : Candid env among s) {a : α} {Q : α → Prop} (holds : Q a) :
    Skirts env among s (pure a) Q := ⟨.refl candid, holds⟩

theorem Skirts.get {f : State → Gen α} {Q : α → Prop} (rest : Skirts env among s (f s) Q) :
    Skirts env among s (get >>= f) Q := rest

theorem Skirts.knowing {x : Gen α} {f : α → Gen β} {Q : β → Prop} {a : α}
    (always : ∀ s, x env s = .ok a s) (rest : Skirts env among s (f a) Q) :
    Skirts env among s (x >>= f) Q := by
  unfold Skirts Gen.Leads at rest ⊢
  rw [Gen.bind_eq, always s]
  exact rest

/-- An interface is found to conform or not. -/
theorem Skirts.isConforming (terrain : Terrain env among) (candid : Candid env among s)
    (amongD : among d) (interface : d.isInterface = true)
    (reaches : Gen.succeeds env (reachesUniversalBase d) = true) :
    Skirts env among s (isConforming d) fun answer => answer = true ↔ Reaches env d := by
  unfold Bindings.isConforming
  refine .get ?_
  cases found : s.conformance.get? d.full with
  | some answer => exact .pure candid (candid.conformance d amongD interface answer found)
  | none =>
    obtain ⟨answer, always⟩ := (reachesUniversalBase_fixed d).always reaches
    have right := reachesUniversalBase_ok (always s)
    refine .knowing always (Gen.Leads.modify ⟨⟨⟨candid.managed, fun other amongOther _ a known => ?_⟩, rfl,
      fun _ _ _ => rfl⟩, right⟩)
    rw [Table.get?_put] at known
    split at known
    · next same =>
      obtain rfl := terrain.alone d other amongD amongOther same
      cases known
      exact right
    · exact candid.conformance other amongOther ‹_› a known

section
variable {step : TypeDefinition → Gen (Option Bool)} {visiting : List AnalysisKey}
  {owner : AnalysisKey}

/-- What is held is not managed, as far as is known. -/
theorem unmanaged_skirts (candid : Candid env among s) {verdict : Option Bool}
    (unmanaged : verdict ≠ some true) (dependency : AnalysisKey) :
    Skirts env among s (match verdict with
      | some true => return true
      | verdict => do
        if verdict.isNone || (← get).analysis.provisional.contains dependency then
          modify (·.analyse (·.depend dependency owner))
        return false) (· = false) := by
  split
  · exact absurd rfl unmanaged
  · refine .get ?_
    dsimp only
    split
    · exact Gen.Leads.modify ⟨⟨candid.depend _ _, rfl, fun _ _ _ => rfl⟩, rfl⟩
    · exact .pure candid rfl

/-- The fields of a type that does not need marshaling hold none that does. -/
theorem Skirts.anyFieldIsManaged (fields : List Field)
    (resolves : ∀ f ∈ fields, ∀ reference, heldReference? f.type = some reference →
      ∃ found, ∀ s, resolve reference env s = .ok found s)
    (goes : ∀ f ∈ fields, ∀ e, Contains env f.type e → ∀ t, Candid env among t →
      t.analysis.visiting = visiting → Skirts env among t (step e) (· ≠ some true))
    (candid : Candid env among s) (path : s.analysis.visiting = visiting) :
    Skirts env among s (anyFieldIsManaged step true owner fields) (· = false) := by
  induction fields generalizing s with
  | nil => exact .pure candid rfl
  | cons f rest ih =>
    have here : Skirts env among s (fieldIsManaged step true owner f.type) (· = false) := by
      unfold fieldIsManaged
      split
      · exact .pure candid rfl
      · next reference held =>
        obtain ⟨found, always⟩ := resolves f (by simp) reference held
        refine .knowing always ?_
        cases found with
        | none => exact .pure candid rfl
        | some e =>
          refine .bind (goes f (by simp) e ⟨reference, held, always⟩ s candid path)
            fun verdict t aside unmanaged => ?_
          exact unmanaged_skirts aside.candid unmanaged _
    refine .bind here ?_
    rintro _ t aside rfl
    exact ih (fun g member => resolves g (List.mem_cons_of_mem f member))
      (fun g member => goes g (List.mem_cons_of_mem f member)) aside.candid (aside.visiting.trans path)

end

/-- A type is under way while a computation runs. -/
theorem Skirts.visited {key : AnalysisKey} {x : Gen α} {Q : α → Prop} (fresh : key ∉ s.analysis.visiting)
    (skirts : Skirts env among (s.analyse fun a => { a with visiting := key :: a.visiting }) x Q) :
    Skirts env among s (do
      modify (·.analyse fun a => { a with visiting := key :: a.visiting })
      Gen.ensuring x (·.analyse fun a => { a with visiting := a.visiting.filter (· ≠ key) })) Q := by
  refine Gen.Leads.modify (.ensuring (skirts.imp ?_ fun _ h => h))
  rintro _ t ⟨aside, result⟩
  refine ⟨⟨aside.candid.visit _, ?_, aside.verdicts⟩, result⟩
  have under : t.analysis.visiting = key :: s.analysis.visiting := aside.visiting
  simp only [State.analyse, under]
  exact filter_visiting fresh

/-- The verdict that a type is not managed. -/
theorem Skirts.decide (terrain : Terrain env among) (candid : Candid env among s) (amongD : among d)
    (plain : ¬NeedsMarshaling env d) :
    Skirts env among s (do
      modify (·.analyse fun a => { a with verdicts := a.verdicts.put (true, d.full) false })
      return some false) (· ≠ some true) := by
  refine Gen.Leads.modify ⟨⟨candid.decide terrain amongD nofun, rfl, fun other amongOther needs => ?_⟩, nofun⟩
  refine Table.get?_put_of_ne _ false fun same => plain ?_
  rwa [terrain.alone d other amongD amongOther (congrArg Prod.snd same)]

/-- A walk that begins at a type that does not need marshaling does not fail, and meets none that
    does. -/
theorem Skirts.walk (terrain : Terrain env among)
    (answers : ∀ d, among d → ¬NeedsMarshaling env d → Answerable env d) (depth : Nat)
    (amongD : among d) (plain : ¬NeedsMarshaling env d) (candid : Candid env among s)
    (under : UnderWay among true s.analysis.visiting)
    (deep : env.typeCount + 1 ≤ depth + s.analysis.visiting.length) :
    Skirts env among s (walk true depth d) (· ≠ some true) := by
  induction depth generalizing d s with
  | zero =>
    have few := under.length_le terrain
    omega
  | succ depth ih =>
    unfold Bindings.walk
    refine .get ?_
    dsimp only
    split
    · next verdict found =>
      refine .pure candid fun managed => plain (candid.managed d amongD ?_)
      rw [State.Judges, found, managed]
    · split
      · exact .pure candid nofun
      · next fresh =>
        have fresh : (true, d.full) ∉ s.analysis.visiting := by simpa using fresh
        split
        · rw [pure_bind]
          exact .decide terrain candid amongD plain
        · next shape =>
          exact absurd (.itself (.inl (by simp [TypeDefinition.isDelegate, shape]))) plain
        · next shape =>
          have interface : d.isInterface = true := by simp [TypeDefinition.isInterface, shape]
          refine .bind (.isConforming terrain candid amongD interface ((answers d amongD plain).bases interface))
            fun answer t aside right => ?_
          cases answer with
          | true => exact absurd (.itself (.inr ⟨interface, right.mp rfl⟩)) plain
          | false => exact .decide terrain aside.candid amongD plain
        · next r shape =>
          split
          · rw [pure_bind]
            exact .decide terrain candid amongD plain
          · next layout =>
            have struct := terrain.plain d r amongD shape (by simpa using layout)
            rw [← bind_assoc]
            refine .bind (.visited fresh (.anyFieldIsManaged r.fields
              (fun f member reference held => (answers d amongD plain).resolves struct member held)
              (fun f member e contains t candidT path => ?_) (candid.visit _)
              (rfl : _ = (true, d.full) :: s.analysis.visiting))) ?_
            · have holds : HoldsInPlace env d e := ⟨r, struct, f, member, contains⟩
              refine ih (terrain.held d e amongD holds) (fun needs => plain (.held holds needs)) candidT ?_ ?_
              · rw [path]
                exact under.cons amongD fresh
              · rw [path, List.length_cons]
                omega
            · rintro _ t aside rfl
              exact .decide terrain aside.candid amongD plain

/-! ## Walks beside each other -/

/-- A state that may have verdicts that another one has not. They agree on what is under way, and on
    each type that needs marshaling, unless the first one has it that the type is managed. -/
structure Abreast (env : Environment) (among : TypeDefinition → Prop) (visiting : List AnalysisKey)
    (s t : State) : Prop where
  left : Candid env among s
  right : Candid env among t
  leftPath : s.analysis.visiting = visiting
  rightPath : t.analysis.visiting = visiting
  verdicts : ∀ d, among d → NeedsMarshaling env d → s.Judges d true ∨
    s.analysis.verdicts.get? (true, d.full) = t.analysis.verdicts.get? (true, d.full)

section
variable {visiting : List AnalysisKey}

theorem Abreast.aside (abreast : Abreast env among visiting s t) (first : Aside env among s u)
    (second : Aside env among t v) : Abreast env among visiting u v where
  left := first.candid
  right := second.candid
  leftPath := first.visiting.trans abreast.leftPath
  rightPath := second.visiting.trans abreast.rightPath
  verdicts d amongD needs := by
    rw [State.Judges, first.verdicts d amongD needs, second.verdicts d amongD needs]
    exact abreast.verdicts d amongD needs

/-- The same verdict is noted in both. -/
theorem Abreast.decide (terrain : Terrain env among) (abreast : Abreast env among visiting s t)
    (amongD : among d) (needs : NeedsMarshaling env d) (verdict : Bool) :
    Abreast env among visiting (s.deciding (true, d.full) verdict)
      (t.deciding (true, d.full) verdict) where
  left := abreast.left.decide terrain amongD fun _ => needs
  right := abreast.right.decide terrain amongD fun _ => needs
  leftPath := abreast.leftPath
  rightPath := abreast.rightPath
  verdicts other amongOther needsOther := by
    have both : ∀ s : State, (s.deciding (true, d.full) verdict).analysis.verdicts.get? (true, other.full) =
        if (true, d.full) = (true, other.full) then some verdict
        else s.analysis.verdicts.get? (true, other.full) := fun s => Table.get?_put ..
    rw [State.Judges, both, both]
    split
    · exact .inr rfl
    · exact abreast.verdicts other amongOther needsOther

/-- Other types come under way in both. -/
theorem Abreast.visit (abreast : Abreast env among visiting s t)
    (change : List AnalysisKey → List AnalysisKey) :
    Abreast env among (change visiting)
      (s.analyse fun a => { a with visiting := change a.visiting })
      (t.analyse fun a => { a with visiting := change a.visiting }) where
  left := abreast.left.visit _
  right := abreast.right.visit _
  leftPath := congrArg change abreast.leftPath
  rightPath := congrArg change abreast.rightPath
  verdicts := abreast.verdicts

/-- A part of a walk gives a result where another one does. Either the first one has found a managed
    type, or both have found none and are abreast. -/
def Trails (env : Environment) (among : TypeDefinition → Prop) (visiting : List AnalysisKey)
    (managed : α → Bool) (s t : State) (x y : Gen α) : Prop :=
  ∀ a u, y env t = .ok a u → ∃ b v, x env s = .ok b v ∧
    (managed b = true ∨ managed a = false ∧ managed b = false ∧ Abreast env among visiting v u)

variable {managed : α → Bool} {x y : Gen α}

theorem Trails.found {b : α} (found : managed b = true) :
    Trails env among visiting managed s t (pure b) y :=
  fun _ _ _ => ⟨b, s, rfl, .inl found⟩

theorem Trails.pure {a b : α} (abreast : Abreast env among visiting s t) (left : managed b = false)
    (right : managed a = false) : Trails env among visiting managed s t (pure b) (pure a) := by
  intro _ _ ended
  obtain ⟨rfl, rfl⟩ := Gen.pure_ok ended
  exact ⟨b, s, rfl, .inr ⟨right, left, abreast⟩⟩

theorem Trails.bind {inner : List AnalysisKey} {f g : α → Gen β} {final : β → Bool}
    (first : Trails env among inner managed s t x y)
    (found : ∀ b v, managed b = true → ∃ c w, f b env v = .ok c w ∧ final c = true)
    (rest : ∀ a b u v, managed a = false → managed b = false → Abreast env among inner v u →
      Trails env among visiting final v u (f b) (g a)) :
    Trails env among visiting final s t (x >>= f) (y >>= g) := by
  intro c w ended
  obtain ⟨a, u, went, goes⟩ := Gen.bind_ok ended
  obtain ⟨b, v, followed, outcome⟩ := first a u went
  rw [Gen.bind_eq, followed]
  dsimp only
  rcases outcome with yes | ⟨no, not, abreast⟩
  · obtain ⟨c, w, ends, yes⟩ := found b v yes
    exact ⟨c, w, ends, .inl yes⟩
  · exact rest a b u v no not abreast c w goes

theorem Trails.get {f g : State → Gen α} (rest : Trails env among visiting managed s t (f s) (g t)) :
    Trails env among visiting managed s t (get >>= f) (get >>= g) := rest

theorem Trails.modify {change : State → State} {f g : Unit → Gen α}
    (rest : Trails env among visiting managed (change s) (change t) (f ()) (g ())) :
    Trails env among visiting managed s t (modify change >>= f) (modify change >>= g) := rest

/-- What reads the same in all states comes first. -/
theorem Trails.asking {Fine : Failure → Prop} {z : Gen α} {f g : α → Gen β} {final : β → Bool}
    (steady : Gen.Constant Fine env z)
    (rest : ∀ a, (∀ s, z env s = .ok a s) → Trails env among visiting final s t (f a) (g a)) :
    Trails env among visiting final s t (z >>= f) (z >>= g) := by
  intro c w ended
  obtain ⟨a, u, asked, goes⟩ := Gen.bind_ok ended
  obtain ⟨rfl, always⟩ := steady.everywhere asked
  rw [Gen.bind_eq, always s]
  exact rest a always c w goes

/-- Something is done after both, however they end. -/
theorem Trails.ensuring {inner : List AnalysisKey} {after : State → State}
    (trails : Trails env among inner managed s t x y)
    (keeps : ∀ u v, Abreast env among inner v u → Abreast env among visiting (after v) (after u)) :
    Trails env among visiting managed s t (Gen.ensuring x after) (Gen.ensuring y after) := by
  intro a u ended
  rw [Gen.ensuring_eq] at ended ⊢
  cases went : y env t with
  | error e w =>
    rw [went] at ended
    cases ended
  | ok a' w =>
    rw [went] at ended
    cases ended
    obtain ⟨b, v, followed, outcome⟩ := trails a w went
    refine ⟨b, after v, by rw [followed], outcome.imp_right ?_⟩
    rintro ⟨no, not, abreast⟩
    exact ⟨no, not, keeps _ _ abreast⟩

/-- Two walks below types that do not need marshaling. -/
theorem Trails.aside (abreast : Abreast env among visiting s t)
    (left : Skirts env among s x (managed · = false)) (right : Skirts env among t y (managed · = false)) :
    Trails env among visiting managed s t x y := by
  obtain ⟨b, v, followed, first, not⟩ := Gen.Leads.returns left
  intro a u ended
  rw [Skirts, Gen.Leads, ended] at right
  exact ⟨b, v, followed, .inr ⟨right.2, not, abreast.aside first right.1⟩⟩

/-- A type is under way while two computations run. -/
theorem visited_trails {key : AnalysisKey} (fresh : key ∉ visiting)
    (trails : Trails env among (key :: visiting) managed
      (s.analyse fun a => { a with visiting := key :: a.visiting })
      (t.analyse fun a => { a with visiting := key :: a.visiting }) x y) :
    Trails env among visiting managed s t
      (do
        modify (·.analyse fun a => { a with visiting := key :: a.visiting })
        Gen.ensuring x (·.analyse fun a => { a with visiting := a.visiting.filter (· ≠ key) }))
      (do
        modify (·.analyse fun a => { a with visiting := key :: a.visiting })
        Gen.ensuring y (·.analyse fun a => { a with visiting := a.visiting.filter (· ≠ key) })) := by
  refine .modify (.ensuring trails fun u v abreast => ?_)
  have restored := abreast.visit (·.filter (· ≠ key))
  rwa [filter_visiting fresh] at restored

variable {step : TypeDefinition → Gen (Option Bool)} {owner : AnalysisKey}

theorem Trails.fieldIsManaged {type : NativeType}
    (goes : ∀ e s t, Contains env type e → Abreast env among visiting s t →
      Trails env among visiting (· == some true) s t (step e) (step e))
    (abreast : Abreast env among visiting s t) :
    Trails env among visiting id s t (fieldIsManaged step true owner type)
      (fieldIsManaged step true owner type) := by
  unfold Bindings.fieldIsManaged
  split
  · exact .pure abreast rfl rfl
  · next reference held =>
    refine .asking (resolve_steady reference) fun found always => ?_
    split
    · exact .pure abreast rfl rfl
    · next e =>
      refine .bind (goes e s t ⟨reference, held, always⟩ abreast) (fun b v yes => ?_)
        fun a b u v no not abreast => ?_
      · obtain rfl := eq_of_beq yes
        exact ⟨true, v, rfl, rfl⟩
      · refine .aside abreast ?_ ?_
        · exact unmanaged_skirts abreast.left (by simpa using not) _
        · exact unmanaged_skirts abreast.right (by simpa using no) _

theorem Trails.anyFieldIsManaged (fields : List Field)
    (goes : ∀ f ∈ fields, ∀ e s t, Contains env f.type e → Abreast env among visiting s t →
      Trails env among visiting (· == some true) s t (step e) (step e))
    (abreast : Abreast env among visiting s t) :
    Trails env among visiting id s t (anyFieldIsManaged step true owner fields)
      (anyFieldIsManaged step true owner fields) := by
  induction fields generalizing s t with
  | nil => exact .pure abreast rfl rfl
  | cons f rest ih =>
    refine .bind (.fieldIsManaged (goes f (by simp)) abreast) (fun b v yes => ?_)
      fun a b u v no not abreast => ?_
    · obtain rfl : b = true := yes
      exact ⟨true, v, rfl, rfl⟩
    · obtain rfl : a = false := no
      obtain rfl : b = false := not
      exact ih (fun g member => goes g (List.mem_cons_of_mem f member)) abreast

/-- The same verdict is given on both sides. -/
theorem decide_trails (terrain : Terrain env among) (abreast : Abreast env among visiting s t)
    (amongD : among d) (needs : NeedsMarshaling env d) :
    Trails env among visiting (· == some true) s t
      (do
        modify (·.analyse fun a => { a with verdicts := a.verdicts.put (true, d.full) false })
        return some false)
      (do
        modify (·.analyse fun a => { a with verdicts := a.verdicts.put (true, d.full) false })
        return some false) :=
  .modify (.pure (abreast.decide terrain amongD needs false) rfl rfl)

/-- A walk that begins with verdicts gives an answer where one without them does. -/
theorem walk_trails (terrain : Terrain env among) (replies : Replies env among) (depth : Nat)
    (amongD : among d) (abreast : Abreast env among visiting s t) (under : UnderWay among true visiting)
    (deep : env.typeCount + 1 ≤ depth + visiting.length) :
    Trails env among visiting (· == some true) s t (walk true depth d) (walk true depth d) := by
  have answers : ∀ d, among d → ¬NeedsMarshaling env d → Answerable env d :=
    fun d amongD plain => replies.answerable terrain amongD plain
  induction depth generalizing d s t visiting with
  | zero =>
    have few := under.length_le terrain
    omega
  | succ depth ih =>
    by_cases needs : NeedsMarshaling env d
    · have yes : ∀ (verdict : Bool) v, verdict = true → ∃ c w, (do
          modify (·.analyse fun a => { a with verdicts := a.verdicts.put (true, d.full) verdict })
          return some verdict : Gen (Option Bool)) env v = .ok c w ∧ (c == some true) = true := by
        rintro _ v rfl
        exact ⟨some true, _, rfl, rfl⟩
      unfold walk
      refine .get ?_
      dsimp only
      rcases abreast.verdicts d amongD needs with judged | same
      · rw [judged]
        exact .found rfl
      · rw [same, abreast.leftPath, abreast.rightPath]
        split
        · next verdict found =>
          cases verdict with
          | true => exact .found rfl
          | false => exact .pure abreast rfl rfl
        · split
          · exact .pure abreast rfl rfl
          · next fresh =>
            have fresh : (true, d.full) ∉ visiting := by simpa using fresh
            split
            · rw [pure_bind]
              exact decide_trails terrain abreast amongD needs
            · rw [pure_bind]
              exact fun _ _ _ => ⟨some true, _, rfl, .inl rfl⟩
            · next shape =>
              have interface : d.isInterface = true := by simp [TypeDefinition.isInterface, shape]
              have reaches := replies.interface amongD interface
              obtain ⟨answer, v, ended, aside, right⟩ :=
                (Skirts.isConforming terrain abreast.left amongD interface reaches).returns
              obtain rfl := right.mpr (needs.reaches shape)
              intro _ _ _
              rw [if_pos rfl, Gen.bind_eq, ended]
              exact ⟨some true, _, rfl, .inl rfl⟩
            · next r shape =>
              split
              · rw [pure_bind]
                exact decide_trails terrain abreast amongD needs
              · next layout =>
                have struct := terrain.plain d r amongD shape (by simpa using layout)
                rw [← bind_assoc]
                refine .bind (visited_trails fresh (.anyFieldIsManaged r.fields
                  (fun f member e s t contains abreast => ?_) (abreast.visit ((true, d.full) :: ·)))) yes ?_
                · refine ih (terrain.held d e amongD ⟨r, struct, f, member, contains⟩) abreast
                    (under.cons amongD fresh) ?_
                  rw [List.length_cons]
                  omega
                · intro a b u v no not abreast
                  obtain rfl : a = false := no
                  obtain rfl : b = false := not
                  exact decide_trails terrain abreast amongD needs
    · have skirts : ∀ s, Candid env among s → s.analysis.visiting = visiting →
          Skirts env among s (walk true (depth + 1) d) ((· == some true) · = false) := by
        intro s candid path
        refine (Skirts.walk terrain answers (depth + 1) amongD needs candid (path ▸ under)
          (path ▸ deep)).imp (fun a t h => ⟨h.1, ?_⟩) fun _ h => h
        simpa using h.2
      exact .aside abreast (skirts s abreast.left abreast.leftPath) (skirts t abreast.right abreast.rightPath)

end

/-! ## Questions -/

/-- What is remembered when all verdicts are right is no hindrance. -/
theorem Settled.abreast (settled : Settled env among among s) : Abreast env among [] s {} where
  left := settled.candid
  right := (Settled.init : Settled env among among {}).candid
  leftPath := settled.calm.visiting
  rightPath := rfl
  verdicts d amongD needs := by
    cases found : s.analysis.verdicts.get? (true, d.full) with
    | none => exact .inr rfl
    | some verdict =>
      obtain rfl := ((settled.verdicts d amongD true verdict found).right amongD).mpr ⟨rfl, needs⟩
      exact .inl found

/-- If each question is answered in a new session, each is answered right in a session whose memory is
    right, and the memory stays right. -/
theorem Settled.replied (terrain : Terrain env among) (replies : Replies env among)
    (settled : Settled env among among s) (amongD : among d) :
    Gen.Leads env s (Bindings.isManagedType d true)
      (fun answer t => Settled env among among t ∧ (answer = true ↔ NeedsMarshaling env d))
      fun _ => False := by
  obtain ⟨verdict, u, walked⟩ := replies.walks amongD
  obtain ⟨_, v, followed, _⟩ := walk_trails terrain replies _ amongD settled.abreast ⟨.nil, by simp⟩ (by simp)
    verdict u walked
  obtain ⟨answer, t, ended⟩ := isManagedType_ok_iff.mpr ⟨_, v, followed⟩
  have right := settled.asked terrain.clearing amongD true
  rw [Gen.Leads, ended] at right ⊢
  exact ⟨right.1, (right.2.right amongD).trans (and_iff_right rfl)⟩

end Bindings
