import Bindings.Proofs.Ledger.Effect

/-!
# What becomes durable

Whatever steps are taken on a ledger in whatever order, its durable record only grows, at most
one outermost transaction is open, and the declarations of a key are those of the first
completion of the key that has become durable by the log of the run (`run_durability`). The
invariant that carries this is `Tracked`: the pending entities of each open transaction are the
completions that have reached it, in the order of their routes.
-/

namespace Bindings.Ledger
open Log

/-! ## Completions in the order of their routes -/

/-- The list holds the completions that arrive, one for each route, in the order of the routes. -/
def Enumerates (arrives : Completion → Route → Prop) (completions : List Completion) : Prop :=
  ∃ arrived : List (Route × Completion), arrived.Pairwise (fun a b => Route.Before a.1 b.1) ∧
    arrived.map (·.2) = completions ∧ ∀ route c, (route, c) ∈ arrived ↔ arrives c route

variable {arrives others : Completion → Route → Prop} {completions more : List Completion}

theorem Enumerates.congr (listed : Enumerates arrives completions)
    (same : ∀ c route, arrives c route ↔ others c route) : Enumerates others completions := by
  obtain ⟨arrived, ordered, values, members⟩ := listed
  exact ⟨arrived, ordered, values, fun route c => (members route c).trans (same c route)⟩

theorem enumerates_nil (nothing : ∀ c route, ¬ arrives c route) : Enumerates arrives [] :=
  ⟨[], .nil, rfl, fun route c => by simpa using nothing c route⟩

theorem enumerates_single (n : Nat) (c : Completion) :
    Enumerates (fun d route => d = c ∧ route = [n]) [c] :=
  ⟨[([n], c)], by simp, rfl, fun route d => by simp [and_comm]⟩

theorem Enumerates.append (listed : Enumerates arrives completions) (later : Enumerates others more)
    (before : ∀ c route d next, arrives c route → others d next → Route.Before route next) :
    Enumerates (fun c route => arrives c route ∨ others c route) (completions ++ more) := by
  obtain ⟨arrived, ordered, rfl, members⟩ := listed
  obtain ⟨added, orderedAdded, rfl, membersAdded⟩ := later
  refine ⟨arrived ++ added, ?_, List.map_append, fun route c => ?_⟩
  · refine List.pairwise_append.mpr ⟨ordered, orderedAdded, ?_⟩
    intro a first b second
    exact before _ _ _ _ ((members a.1 a.2).mp first) ((membersAdded b.1 b.2).mp second)
  · rw [List.mem_append, members, membersAdded]

/-- Completions that one step carries on together keep their order. -/
theorem Enumerates.carried (listed : Enumerates arrives completions) (n : Nat) :
    Enumerates (fun c route => ∃ rest, arrives c rest ∧ route = n :: rest) completions := by
  obtain ⟨arrived, ordered, rfl, members⟩ := listed
  refine ⟨arrived.map fun a => (n :: a.1, a.2), ?_, by simp, fun route c => ?_⟩
  · rw [List.pairwise_map]
    exact ordered.imp fun before => .cons before
  · constructor
    · intro member
      obtain ⟨a, found, same⟩ := List.mem_map.mp member
      cases same
      exact ⟨a.1, (members a.1 a.2).mp found, rfl⟩
    · rintro ⟨rest, holds, rfl⟩
      exact List.mem_map.mpr ⟨(rest, c), (members rest c).mpr holds, rfl⟩

theorem before_irrefl (route : Route) : ¬ Route.Before route route :=
  List.lex_irrefl Nat.lt_irrefl route

theorem before_asymm {a b : Route} (before : Route.Before a b) : ¬ Route.Before b a :=
  List.lex_asymm (fun h => Nat.lt_asymm h) before

/-- The first entry for a key is the completion of the key whose route comes first. -/
theorem Enumerates.lookupIn_iff (listed : Enumerates arrives completions) (key : EntityKey)
    (declarations : List Declaration) :
    Table.lookupIn key completions = some declarations ↔
      ∃ route, arrives (key, declarations) route ∧
        ∀ others other, arrives (key, others) other → ¬ Route.Before other route := by
  obtain ⟨arrived, ordered, rfl, members⟩ := listed
  simp only [← members]
  clear members
  induction arrived with
  | nil => simp [Table.lookupIn]
  | cons a rest ih =>
    obtain ⟨first, sorted⟩ := List.pairwise_cons.mp ordered
    obtain ⟨route, key', ds⟩ := a
    by_cases same : key' = key
    · subst same
      simp only [List.map_cons, Table.lookupIn, if_true, Option.some.injEq]
      constructor
      · rintro rfl
        refine ⟨route, by simp, fun others other member before => ?_⟩
        rcases List.mem_cons.mp member with here | later
        · cases here
          exact before_irrefl route before
        · exact before_asymm before (first _ later)
      · rintro ⟨other, member, least⟩
        rcases List.mem_cons.mp member with here | later
        · cases here
          rfl
        · exact absurd (first _ later) (least ds route (by simp))
    · have skip : ∀ others other, (other, (key, others)) ∈ (route, (key', ds)) :: rest ↔
          (other, (key, others)) ∈ rest := by
        intro others other
        simp [Ne.symm same]
      simp only [List.map_cons, Table.lookupIn, same, if_false, skip]
      exact ih sorted

/-! ## The invariant -/

/-- What the log of a run tells about its ledger. -/
structure Tracked (log : Log) (l : Ledger) : Prop where
  rooted : l.Rooted
  made : ∀ n id parent, log.MadeAt n id parent →
    ∃ pending closed, l.shape id = some ⟨parent, pending, closed⟩
  maker : ∀ id parent pending closed, l.shape id = some ⟨parent, pending, closed⟩ →
    ∃ n, log.MadeAt n id parent
  completed : ∀ n id c, log.CompletedAt n id c →
    ∃ parent pending closed, l.shape id = some ⟨parent, pending, closed⟩
  closed : ∀ n id, log.ClosedAt n id → ∃ parent pending, l.shape id = some ⟨parent, pending, true⟩
  closer : ∀ id parent pending, l.shape id = some ⟨parent, pending, true⟩ → ∃ n, log.ClosedAt n id
  once : ∀ m n id, log.ClosedAt m id → log.CommittedAt n id → n ≤ m
  active : ∀ id, l.active = some id ↔ ∃ pending, l.shape id = some ⟨none, pending, false⟩
  pending : ∀ id parent pending, l.shape id = some ⟨parent, pending, false⟩ →
    Enumerates (fun c route => log.Reached c id route) pending
  durable : ∃ merged, Enumerates log.Durable merged ∧
    l.committed = merged.foldl (fun t e => t.putNew e.1 e.2) {}

theorem tracked_empty : Tracked [] {} where
  rooted id parent pending closed found := by simp [shape] at found
  made n id parent line := by simp [MadeAt] at line
  maker id parent pending closed found := by simp [shape] at found
  completed n id c line := by simp [CompletedAt] at line
  closed n id line := by simp [ClosedAt, CommittedAt] at line
  closer id parent pending found := by simp [shape] at found
  once m n id line := by simp [ClosedAt, CommittedAt] at line
  active id := by simp [shape]
  pending id parent pending found := by simp [shape] at found
  durable := by
    refine ⟨[], enumerates_nil ?_, rfl⟩
    rintro c route ⟨i, m, n, id, rest, reached, begins, _⟩
    simp [BeganAt] at begins

namespace Tracked
variable {log : Log} {l next : Ledger} {step : Step} {outcome : Outcome}

/-- A completion reaches only transactions that have been made. -/
theorem reached_there (tracked : Tracked log l) {c : Completion} {id : TransactionId}
    {route : Route} (reached : log.Reached c id route) :
    ∃ parent pending closed, l.shape id = some ⟨parent, pending, closed⟩ := by
  cases reached with
  | completed completes => exact tracked.completed _ _ _ completes
  | folded arrived splits commits made later =>
    obtain ⟨pending, closed, found⟩ := tracked.made _ _ (some id) splits
    have younger := tracked.rooted _ _ _ _ found
    have there : id < l.transactions.size := Nat.lt_trans younger (shape_bound found)
    obtain ⟨⟨below, held, ended⟩, found⟩ :=
      Option.isSome_iff_exists.mp ((shape_isSome_iff l id).mpr there)
    exact ⟨below, held, ended, found⟩

/-- A transaction has one parent. -/
theorem parent_eq (tracked : Tracked log l) {n : Nat} {id : TransactionId}
    {p other : Option TransactionId} {pending : List Completion} {closed : Bool}
    (made : log.MadeAt n id p) (found : l.shape id = some ⟨other, pending, closed⟩) :
    other = p := by
  obtain ⟨pending, closed, same⟩ := tracked.made n id p made
  rw [found] at same
  cases same
  rfl

/-! ### One step -/

theorem rooted_next (tracked : Tracked log l) (effect : Effect l next step outcome) :
    next.Rooted := by
  intro id parent pending closed found
  rcases effect.before found with ⟨pending, closed, old⟩ | ⟨_, _, _, younger⟩
  · exact tracked.rooted id parent pending closed old
  · exact younger parent rfl

theorem made_next (tracked : Tracked log l) (effect : Effect l next step outcome) (n : Nat)
    (id : TransactionId) (parent : Option TransactionId)
    (line : MadeAt (log ++ [(step, outcome)]) n id parent) :
    ∃ pending closed, next.shape id = some ⟨parent, pending, closed⟩ := by
  rcases (line_append_iff ..).mp line with old | ⟨rfl, here⟩
  · obtain ⟨pending, closed, found⟩ := tracked.made n id parent old
    obtain ⟨pending, found | ⟨found, _⟩⟩ := effect.after found
    · exact ⟨pending, closed, found⟩
    · exact ⟨pending, true, found⟩
  · cases here
    exact ⟨[], false, effect.of_opening.2⟩

theorem maker_next (tracked : Tracked log l) (effect : Effect l next step outcome)
    (id : TransactionId) (parent : Option TransactionId) (pending : List Completion)
    (closed : Bool) (found : next.shape id = some ⟨parent, pending, closed⟩) :
    ∃ n, MadeAt (log ++ [(step, outcome)]) n id parent := by
  rcases effect.before found with ⟨pending, closed, old⟩ | ⟨rfl, rfl, _⟩
  · obtain ⟨n, made⟩ := tracked.maker id parent pending closed old
    exact ⟨n, line_mono _ made⟩
  · exact ⟨log.length, (line_append_iff ..).mpr (.inr ⟨rfl, rfl⟩)⟩

theorem completed_next (tracked : Tracked log l) (effect : Effect l next step outcome) (n : Nat)
    (id : TransactionId) (c : Completion) (line : CompletedAt (log ++ [(step, outcome)]) n id c) :
    ∃ parent pending closed, next.shape id = some ⟨parent, pending, closed⟩ := by
  rcases (line_append_iff ..).mp line with old | ⟨rfl, here⟩
  · obtain ⟨parent, pending, closed, found⟩ := tracked.completed n id c old
    obtain ⟨pending, found | ⟨found, _⟩⟩ := effect.after found
    · exact ⟨parent, pending, closed, found⟩
    · exact ⟨parent, pending, true, found⟩
  · cases here
    cases effect with
    | quiet silent => exact silent.elim
    | completed before after => exact ⟨_, _, _, after⟩

theorem closed_next (tracked : Tracked log l) (effect : Effect l next step outcome) (n : Nat)
    (id : TransactionId) (line : ClosedAt (log ++ [(step, outcome)]) n id) :
    ∃ parent pending, next.shape id = some ⟨parent, pending, true⟩ := by
  have kept : log.ClosedAt n id → ∃ parent pending, next.shape id = some ⟨parent, pending, true⟩ := by
    intro old
    obtain ⟨parent, pending, found⟩ := tracked.closed n id old
    obtain ⟨pending, found | ⟨found, _⟩⟩ := effect.after found
    · exact ⟨parent, pending, found⟩
    · exact ⟨parent, pending, found⟩
  rcases line with commits | rolls
  · rcases (line_append_iff ..).mp commits with old | ⟨rfl, here⟩
    · exact kept (.inl old)
    · cases here
      obtain ⟨parent, pending, _, found⟩ := effect.of_commit
      exact ⟨parent, pending, found⟩
  · rcases (line_append_iff ..).mp rolls with old | ⟨rfl, here⟩
    · exact kept (.inr old)
    · cases here
      exact effect.of_rollback

theorem closer_next (tracked : Tracked log l) (effect : Effect l next step outcome)
    (id : TransactionId) (parent : Option TransactionId) (pending : List Completion)
    (found : next.shape id = some ⟨parent, pending, true⟩) :
    ∃ n, ClosedAt (log ++ [(step, outcome)]) n id := by
  rcases effect.before found with ⟨held, closed, old⟩ | ⟨_, _, impossible, _⟩
  · cases closed with
    | true =>
      obtain ⟨n, commits | rolls⟩ := tracked.closer id parent held old
      · exact ⟨n, .inl (line_mono _ commits)⟩
      · exact ⟨n, .inr (line_mono _ rolls)⟩
    | false =>
      -- it was open before, so this step closed it
      obtain ⟨held, still | ⟨_, rfl, rfl | rfl⟩⟩ := effect.after old
      · rw [found] at still
        cases still
      · exact ⟨log.length, .inl ((line_append_iff ..).mpr (.inr ⟨rfl, rfl⟩))⟩
      · exact ⟨log.length, .inr ((line_append_iff ..).mpr (.inr ⟨rfl, rfl⟩))⟩
  · cases impossible

theorem once_next (tracked : Tracked log l) (effect : Effect l next step outcome) (m n : Nat)
    (id : TransactionId) (closes : ClosedAt (log ++ [(step, outcome)]) m id)
    (commits : CommittedAt (log ++ [(step, outcome)]) n id) : n ≤ m := by
  rcases (line_append_iff ..).mp commits with old | ⟨rfl, here⟩
  · have bound := line_lt old
    rcases closes with line | line <;> rcases (line_append_iff ..).mp line with before | ⟨rfl, _⟩
    · exact tracked.once m n id (.inl before) old
    · exact Nat.le_of_lt bound
    · exact tracked.once m n id (.inr before) old
    · exact Nat.le_of_lt bound
  · -- a commit that succeeds finds the transaction open, so nothing closed it earlier
    cases here
    obtain ⟨parent, pending, opened, _⟩ := effect.of_commit
    have fresh : ¬ log.ClosedAt m id := by
      intro old
      obtain ⟨parent, pending, found⟩ := tracked.closed m id old
      rw [opened] at found
      cases found
    rcases closes with line | line <;> rcases (line_append_iff ..).mp line with before | ⟨rfl, _⟩
    · exact absurd (.inl before) fresh
    · exact Nat.le_refl _
    · exact absurd (.inr before) fresh
    · exact Nat.le_refl _

/-- Only a completion or a commit brings completions to a transaction. -/
theorem not_arrives {e : Step × Outcome} (completes : ∀ id key ds, e ≠ (.complete id key ds, .done))
    (commits : ∀ id, e ≠ (.commit id, .done)) (c : Completion) (id : TransactionId) (route : Route) :
    ¬ log.Arrives e c id route := by
  intro arrives
  cases arrives with
  | completed line => exact completes _ _ _ line
  | folded arrived splits line => exact commits _ line

/-- The completions of a transaction to which the last line of the log brings none. -/
theorem pending_same (tracked : Tracked log l) {e : Step × Outcome} {id : TransactionId}
    {parent : Option TransactionId} {pending : List Completion}
    (found : l.shape id = some ⟨parent, pending, false⟩)
    (nothing : ∀ c route, ¬ log.Arrives e c id route) :
    Enumerates (fun c route => Reached (log ++ [e]) c id route) pending :=
  (tracked.pending id parent pending found).congr fun c route => by
    simp [reached_append_iff, nothing]

/-- Nothing has reached a transaction that a step makes. -/
theorem pending_new (tracked : Tracked log l) {e : Step × Outcome} {id : TransactionId}
    (fresh : l.shape id = none) (nothing : ∀ c route, ¬ log.Arrives e c id route) :
    Enumerates (fun c route => Reached (log ++ [e]) c id route) [] := by
  refine enumerates_nil fun c route reached => ?_
  rcases (reached_append_iff ..).mp reached with old | new
  · obtain ⟨parent, pending, closed, found⟩ := tracked.reached_there old
    rw [fresh] at found
    cases found
  · exact nothing c route new

/-- The completions of a transaction in which one more entity is completed. -/
theorem pending_completed (tracked : Tracked log l) {id : TransactionId}
    {parent : Option TransactionId} {pending : List Completion}
    (found : l.shape id = some ⟨parent, pending, false⟩) (c : Completion) :
    Enumerates (fun d route => Reached (log ++ [(.complete id c.1 c.2, .done)]) d id route)
      (pending ++ [c]) := by
  have joined := (tracked.pending id parent pending found).append (enumerates_single log.length c) ?_
  · refine joined.congr fun d route => ?_
    rw [reached_append_iff]
    refine or_congr_right ⟨?_, ?_⟩
    · rintro ⟨rfl, rfl⟩
      exact .completed rfl
    · intro arrives
      cases arrives with
      | completed line =>
        obtain ⟨_, _⟩ := d
        cases line
        exact ⟨rfl, rfl⟩
      | folded arrived splits line => cases line
  · rintro c route d _ reached ⟨_, rfl⟩
    cases reached with
    | completed completes => exact .rel (line_lt completes)
    | folded arrived splits commits made later => exact .rel (line_lt commits)

/-- The completions of a transaction into which a savepoint is committed. -/
theorem pending_folded (tracked : Tracked log l) {id child : TransactionId}
    {parent : Option TransactionId} {pending more : List Completion}
    (found : l.shape id = some ⟨parent, pending, false⟩)
    (above : l.shape child = some ⟨some id, more, false⟩) :
    Enumerates (fun c route => Reached (log ++ [(.commit child, .done)]) c id route)
      (pending ++ more) := by
  have carried := (tracked.pending child (some id) more above).carried log.length
  have joined := (tracked.pending id parent pending found).append carried ?_
  · refine joined.congr fun c route => ?_
    rw [reached_append_iff]
    refine or_congr_right ⟨?_, ?_⟩
    · rintro ⟨rest, reached, rfl⟩
      obtain ⟨i, splits⟩ := tracked.maker child (some id) more false above
      cases reached with
      | completed completes => exact .folded (.completed completes) splits rfl
      | folded arrived below commits made later =>
        exact .folded (.folded arrived below commits made later) splits rfl
    · intro arrives
      cases arrives with
      | completed line => cases line
      | folded arrived splits line =>
        cases line
        exact ⟨_, arrived, rfl⟩
  · rintro c route d _ reached ⟨rest, _, rfl⟩
    cases reached with
    | completed completes => exact .rel (line_lt completes)
    | folded arrived splits commits made later => exact .rel (line_lt commits)

theorem pending_next (tracked : Tracked log l) (effect : Effect l next step outcome)
    (id : TransactionId) (parent : Option TransactionId) (pending : List Completion)
    (found : next.shape id = some ⟨parent, pending, false⟩) :
    Enumerates (fun c route => Reached (log ++ [(step, outcome)]) c id route) pending := by
  cases effect with
  | quiet silent shapes committed active =>
    refine tracked.pending_same (shapes id ▸ found) (not_arrives ?_ ?_ · id ·)
    · rintro _ _ _ ⟨⟩
      exact silent
    · rintro _ ⟨⟩
      exact silent
  | @began fresh idle newest made others committed active =>
    have nothing : ∀ c route, ¬ log.Arrives (.begin, .opened fresh) c id route :=
      (not_arrives (by nofun) (by nofun) · id ·)
    by_cases same : id = fresh
    · subst same
      rw [made] at found
      cases found
      exact tracked.pending_new (newest ▸ shape_size l) nothing
    · exact tracked.pending_same (others id same ▸ found) nothing
  | @split below fresh there newest made others committed active =>
    have nothing : ∀ c route, ¬ log.Arrives (.savepoint below, .opened fresh) c id route :=
      (not_arrives (by nofun) (by nofun) · id ·)
    by_cases same : id = fresh
    · subst same
      rw [made] at found
      cases found
      exact tracked.pending_new (newest ▸ shape_size l) nothing
    · exact tracked.pending_same (others id same ▸ found) nothing
  | @completed target key declarations below earlier before after others committed active =>
    by_cases same : id = target
    · subst same
      rw [after] at found
      cases found
      exact tracked.pending_completed before (key, declarations)
    · refine tracked.pending_same (others id same ▸ found) fun c route arrives => ?_
      cases arrives with
      | completed line =>
        cases line
        exact same rfl
      | folded arrived splits line => cases line
  | @folded target below more before apart after changed others committed active =>
    by_cases same : id = target
    · subst same
      rw [after] at found
      cases found
    · by_cases under : id = below
      · subst under
        rw [changed] at found
        obtain ⟨⟨_, held, _⟩, shaped, same⟩ := Option.map_eq_some_iff.mp found
        cases same
        exact tracked.pending_folded shaped before
      · refine tracked.pending_same (others id same under ▸ found) fun c route arrives => ?_
        cases arrives with
        | completed line => cases line
        | folded arrived splits line =>
          cases line
          cases tracked.parent_eq (p := some id) splits before
          exact under rfl
  | @merged target more before after others committed active =>
    by_cases same : id = target
    · subst same
      rw [after] at found
      cases found
    · refine tracked.pending_same (others id same ▸ found) fun c route arrives => ?_
      cases arrives with
      | completed line => cases line
      | folded arrived splits line =>
        cases line
        cases tracked.parent_eq (p := some id) splits before
  | @discarded target below more before after others committed active =>
    by_cases same : id = target
    · subst same
      rw [after] at found
      cases found
    · exact tracked.pending_same (others id same ▸ found) (not_arrives (by nofun) (by nofun) · id ·)
  | idle before same =>
    exact tracked.pending_same (same ▸ found) (not_arrives (by nofun) (by nofun) · id ·)

theorem active_next (tracked : Tracked log l) (effect : Effect l next step outcome)
    (id : TransactionId) :
    next.active = some id ↔ ∃ pending, next.shape id = some ⟨none, pending, false⟩ := by
  cases effect with
  | quiet silent shapes committed active => rw [active, shapes]; exact tracked.active id
  | @began fresh idle newest made others committed active =>
    rw [active]
    by_cases same : id = fresh
    · subst same
      exact iff_of_true rfl ⟨[], made⟩
    · rw [others id same, ← tracked.active id, idle]
      exact iff_of_false (fun h => same (Option.some.inj h).symm) nofun
  | @split below fresh there newest made others committed active =>
    rw [active]
    by_cases same : id = fresh
    · subst same
      rw [made, tracked.active, newest, shape_size]
      simp
    · rw [others id same]
      exact tracked.active id
  | @completed target key declarations below earlier before after others committed active =>
    rw [active, tracked.active]
    by_cases same : id = target
    · subst same
      rw [before, after]
      simp
    · rw [others id same]
  | @folded target below more before apart after changed others committed active =>
    rw [active, tracked.active]
    by_cases same : id = target
    · subst same
      rw [before, after]
      simp
    · by_cases under : id = below
      · subst under
        rw [changed]
        cases l.shape id with
        | none => simp
        | some s => obtain ⟨_, _, _⟩ := s; simp
      · rw [others id same under]
  | @merged target more before after others committed active =>
    have busy := (tracked.active target).mpr ⟨more, before⟩
    rw [active, if_pos busy]
    by_cases same : id = target
    · subst same
      rw [after]
      simp
    · rw [others id same, ← tracked.active id, busy]
      exact iff_of_false nofun (fun h => same (Option.some.inj h).symm)
  | @discarded target below more before after others committed active =>
    rw [active]
    by_cases same : id = target
    · subst same
      have busy := tracked.active id
      rw [before] at busy
      rw [after]
      by_cases top : below = none
      · simp [top, busy]
      · simp [top, busy]
    · rw [others id same, ← tracked.active id]
      split
      · next released =>
        rw [released.2]
        exact iff_of_false nofun (fun h => same (Option.some.inj h).symm)
      · rfl
  | idle before same => rw [same]; exact tracked.active id

/-- A step that commits no outermost transaction makes nothing durable. -/
theorem durable_same (tracked : Tracked log l) {e : Step × Outcome}
    (other : ∀ i id, e = (.commit id, .done) → ¬ log.BeganAt i id)
    (committed : next.committed = l.committed) :
    ∃ merged, Enumerates (Durable (log ++ [e])) merged ∧
      next.committed = merged.foldl (fun t e => t.putNew e.1 e.2) {} := by
  obtain ⟨merged, listed, same⟩ := tracked.durable
  refine ⟨merged, listed.congr fun c route => ?_, committed.trans same⟩
  rw [durable_append_iff]
  refine ⟨.inl, fun h => h.elim id ?_⟩
  rintro ⟨i, m, id, rest, _, began, line, _⟩
  exact absurd began (other i id line)

theorem durable_next (tracked : Tracked log l) (effect : Effect l next step outcome) :
    ∃ merged, Enumerates (Durable (log ++ [(step, outcome)])) merged ∧
      next.committed = merged.foldl (fun t e => t.putNew e.1 e.2) {} := by
  cases effect with
  | quiet silent shapes committed active =>
    refine tracked.durable_same ?_ committed
    rintro _ _ ⟨⟩
    exact silent.elim
  | began idle newest made others committed => exact tracked.durable_same nofun committed
  | split there newest made others committed => exact tracked.durable_same nofun committed
  | completed before after others committed => exact tracked.durable_same nofun committed
  | folded before apart after changed others committed =>
    refine tracked.durable_same ?_ committed
    rintro i _ ⟨⟩ began
    cases tracked.parent_eq (p := none) began before
  | @merged target more before after others committed active =>
    obtain ⟨merged, listed, same⟩ := tracked.durable
    have carried := (tracked.pending target none more before).carried log.length
    refine ⟨merged ++ more, (listed.append carried ?_).congr fun c route => ?_, ?_⟩
    · rintro c _ d _ ⟨i, m, n, id, rest, _, _, commits, _, _, rfl⟩ ⟨other, _, rfl⟩
      exact .rel (line_lt commits)
    · rw [durable_append_iff]
      refine or_congr_right ⟨?_, ?_⟩
      · rintro ⟨rest, reached, rfl⟩
        obtain ⟨i, began⟩ := tracked.maker target none more false before
        cases reached with
        | completed completes => exact ⟨i, _, target, _, .completed completes, began, rfl, rfl⟩
        | folded arrived splits commits made later =>
          exact ⟨i, _, target, _, .folded arrived splits commits made later, began, rfl, rfl⟩
      · rintro ⟨i, m, id, rest, reached, _, line, rfl⟩
        cases line
        exact ⟨m :: rest, reached, rfl⟩
    · rw [committed, same, List.foldl_append]
  | discarded before after others committed => exact tracked.durable_same nofun committed
  | idle before same => exact tracked.durable_same nofun (congrArg _ same)

/-- Every step keeps what the log tells. -/
theorem take (tracked : Tracked log l) (step : Step) :
    Tracked (log ++ [(step, (l.take step).2)]) (l.take step).1 :=
  have effect := take_effect tracked.rooted step
  { rooted := tracked.rooted_next effect
    made := tracked.made_next effect
    maker := tracked.maker_next effect
    completed := tracked.completed_next effect
    closed := tracked.closed_next effect
    closer := tracked.closer_next effect
    once := tracked.once_next effect
    active := tracked.active_next effect
    pending := tracked.pending_next effect
    durable := tracked.durable_next effect }

/-! ### Transactions that lose what they hold -/

/-- A route ends in one transaction. -/
theorem reached_eq (tracked : Tracked log l) {c d : Completion} {id other : TransactionId}
    {route : Route} (reached : log.Reached c id route) (again : log.Reached d other route) :
    id = other := by
  cases reached with
  | completed completes =>
    cases again with
    | completed same =>
      rw [CompletedAt, completes] at same
      simp only [Option.some.injEq, Prod.mk.injEq, Step.complete.injEq] at same
      exact same.1.1
  | folded _ splits commits =>
    cases again with
    | folded _ others same =>
      rw [CommittedAt, commits] at same
      cases same
      obtain ⟨_, _, found⟩ := tracked.made _ _ (some id) splits
      cases tracked.parent_eq (p := some other) others found
      rfl

/-- A completion that came further than a transaction was carried on by a commit of it. -/
theorem reached_on (tracked : Tracked log l) {c d : Completion} {id far : TransactionId}
    {m : Nat} {rest route : Route} (reached : log.Reached c id (m :: rest))
    (on : log.Reached d far route) (through : (m :: rest) <:+ route) :
    (id = far ∧ route = m :: rest) ∨ ∃ n i parent, log.CommittedAt n id ∧ m < n ∧
      log.SplitAt i parent id ∧ log.Reached c parent (n :: m :: rest) ∧
      (n :: m :: rest) <:+ route := by
  induction on with
  | @completed n far completes =>
    have whole : m :: rest = [n] := by
      rcases List.suffix_cons_iff.mp through with whole | inside
      · exact whole
      · cases List.suffix_nil.mp inside
    rw [whole] at reached
    exact .inl ⟨tracked.reached_eq reached (.completed completes), whole.symm⟩
  | @folded i k n far child beyond arrived splits commits made later ih =>
    rcases List.suffix_cons_iff.mp through with whole | inside
    · rw [whole] at reached
      exact .inl ⟨tracked.reached_eq reached (.folded arrived splits commits made later), whole.symm⟩
    · rcases ih inside with ⟨rfl, whole⟩ | ⟨n', i', parent, commits', later', splits', next, suffix⟩
      · cases whole
        exact .inr ⟨n, i, far, commits, later, splits, .folded reached splits commits made later,
          List.suffix_refl _⟩
      · exact .inr ⟨n', i', parent, commits', later', splits', next,
          suffix.trans (List.suffix_cons _ _)⟩

/-- A completion that became durable by way of a transaction was carried on by a commit of it. -/
theorem durable_on (tracked : Tracked log l) {c d : Completion} {id : TransactionId}
    {m : Nat} {rest route : Route} (reached : log.Reached c id (m :: rest))
    (durable : log.Durable d route) (through : (m :: rest) <:+ route) :
    ∃ n, log.CommittedAt n id ∧ m < n ∧ ((∃ i, log.BeganAt i id) ∨ ∃ i parent,
      log.SplitAt i parent id ∧ log.Reached c parent (n :: m :: rest) ∧
      (n :: m :: rest) <:+ route) := by
  obtain ⟨i, k, n, top, beyond, arrived, begins, commits, made, later, rfl⟩ := durable
  obtain ⟨_, _, found⟩ := tracked.made _ _ none begins
  rcases List.suffix_cons_iff.mp through with whole | inside
  · -- the last step of the route would have carried the completion into a savepoint's parent
    cases whole
    cases reached with
    | folded _ splits same =>
      rw [CommittedAt, commits] at same
      cases same
      cases tracked.parent_eq (p := some id) splits found
  · rcases tracked.reached_on reached arrived inside with
      ⟨rfl, whole⟩ | ⟨n', i', parent, commits', later', splits', next, suffix⟩
    · cases whole
      exact ⟨n, commits, later, .inl ⟨i, begins⟩⟩
    · exact ⟨n', commits', later',
        .inr ⟨i', parent, splits', next, suffix.trans (List.suffix_cons _ _)⟩⟩

theorem not_durable_of_lost (tracked : Tracked log l) {c d : Completion} {id : TransactionId}
    {route whole : Route} (reached : log.Reached c id route) (lost : log.Lost id)
    (durable : log.Durable d whole) : ¬ route <:+ whole := by
  intro through
  obtain ⟨m, rest, rfl⟩ : ∃ m rest, route = m :: rest := by cases reached <;> exact ⟨_, _, rfl⟩
  obtain ⟨n, commits, later, onward⟩ := tracked.durable_on reached durable through
  rcases lost with never | ⟨k, rolls, first⟩ | ⟨i, parent, k, n', splits, closes, commits', early⟩
  · exact never n (.inl commits)
  · have before : n ≤ k := tracked.once k n id (.inr rolls) commits
    rcases Nat.lt_or_eq_of_le before with earlier | rfl
    · exact first n earlier commits
    · rw [CommittedAt, rolls] at commits
      cases commits
  · obtain ⟨_, _, found⟩ := tracked.made _ _ (some parent) splits
    rcases onward with ⟨_, begins⟩ | ⟨_, other, splits', next, suffix⟩
    · cases tracked.parent_eq (p := none) begins found
    · cases tracked.parent_eq (p := some other) splits' found
      -- the completion came to the parent when that had been closed
      obtain ⟨n'', commits'', later', _⟩ := tracked.durable_on next durable suffix
      have ended : n'' ≤ k := tracked.once k n'' parent closes commits''
      have same : n' ≤ n := tracked.once n n' id (.inl commits) commits'
      omega

end Tracked

/-! ## All runs -/

theorem tracked_run (steps : List Step) : Tracked (Run.of steps).log (Run.of steps).ledger := by
  have fold : ∀ r : Run, Tracked r.log r.ledger →
      Tracked (steps.foldl Run.next r).log (steps.foldl Run.next r).ledger := by
    induction steps with
    | nil => intro r tracked; exact tracked
    | cons step steps ih => intro r tracked; exact ih (r.next step) (tracked.take step)
  exact fold {} tracked_empty

/-- Completions become durable in the order of the log and stay as they are: whatever steps are
    taken in whatever order, the durable keys are distinct and only grow at the end, the
    declarations of a durable key and a recorded failure never change, the active transaction is
    the one outermost transaction that is open, and a key is durable with the declarations of its
    first completion that successful commits carried from transaction to transaction until an
    outermost one was committed. A completion in a transaction that was left open, was rolled back
    or was committed after its parent had been closed is not among them. -/
theorem run_durability (steps : List Step) :
    (Run.of steps).ledger.committedKeys.Nodup ∧
    (∀ step,
      (Run.of steps).ledger.committedKeys <+: ((Run.of steps).next step).ledger.committedKeys ∧
      (∀ key declarations, (Run.of steps).ledger.committed.get? key = some declarations →
        ((Run.of steps).next step).ledger.committed.get? key = some declarations) ∧
      ∀ key failure, (Run.of steps).ledger.failures.get? key = some failure →
        ((Run.of steps).next step).ledger.failures.get? key = some failure) ∧
    (∀ id, (Run.of steps).ledger.active = some id ↔ (Run.of steps).ledger.OpenTop id) ∧
    (∀ id other, (Run.of steps).ledger.OpenTop id → (Run.of steps).ledger.OpenTop other →
      id = other) ∧
    (∀ key declarations, (Run.of steps).ledger.committed.get? key = some declarations ↔
      (Run.of steps).log.FirstDurable key declarations) ∧
    ∀ c id route, (Run.of steps).log.Reached c id route → (Run.of steps).log.Lost id →
      ∀ whole, (Run.of steps).log.Durable c whole → ¬ route <:+ whole := by
  have tracked := tracked_run steps
  obtain ⟨merged, listed, same⟩ := tracked.durable
  have active : ∀ id, (Run.of steps).ledger.active = some id ↔ (Run.of steps).ledger.OpenTop id :=
    fun id => (tracked.active id).trans (openTop_iff ..).symm
  refine ⟨?_, fun step => ⟨?_, ?_, ?_⟩, active, fun id other one two => ?_, fun key ds => ?_, ?_⟩
  · rw [committedKeys, same]
    exact Table.nodup_foldl_putNew merged {} .nil
  · exact (take_effect tracked.rooted step).committed_entries.map _
  · intro key declarations found
    exact Table.get?_of_prefix (take_effect tracked.rooted step).committed_entries found
  · intro key failure found
    exact Table.get?_of_prefix (take_failures _ step) found
  · have first := (active id).mpr one
    rw [(active other).mpr two] at first
    exact (Option.some.inj first).symm
  · rw [same, Table.get?_foldl_putNew, Table.get?_empty, Option.none_or]
    exact listed.lookupIn_iff key ds
  · intro c id route reached lost whole durable
    exact tracked.not_durable_of_lost reached lost durable

end Bindings.Ledger
