import Bindings.Table

/-!
# Laws of tables

What each way of writing a table does to its look-ups and to the order of its keys.
-/

namespace Bindings.Table
variable {κ ν : Type} [DecidableEq κ]

/-! ## Writing one key -/

theorem lookupIn_putIn (k k' : κ) (v : ν) (entries : List (κ × ν)) :
    lookupIn k' (putIn k v entries) = if k = k' then some v else lookupIn k' entries := by
  induction entries with
  | nil => simp [putIn, lookupIn]
  | cons e rest ih =>
    by_cases same : e.1 = k
    · subst same
      by_cases asked : e.1 = k' <;> simp [putIn, lookupIn, asked]
    · by_cases asked : e.1 = k'
      · have other : k ≠ k' := fun h => same (asked.trans h.symm)
        rw [putIn, if_neg same, lookupIn, if_pos asked, if_neg other, lookupIn, if_pos asked]
      · simp [putIn, lookupIn, same, asked, ih]

@[simp] theorem get?_empty (k : κ) : ({} : Table κ ν).get? k = none := rfl

theorem get?_put (t : Table κ ν) (k k' : κ) (v : ν) :
    (t.put k v).get? k' = if k = k' then some v else t.get? k' :=
  lookupIn_putIn k k' v t.entries

@[simp] theorem get?_put_self (t : Table κ ν) (k : κ) (v : ν) : (t.put k v).get? k = some v := by
  simp [get?_put]

theorem get?_put_of_ne (t : Table κ ν) {k k' : κ} (v : ν) (other : k ≠ k') :
    (t.put k v).get? k' = t.get? k' := by
  simp [get?_put, other]

theorem get?_erase (t : Table κ ν) (k k' : κ) :
    (t.erase k).get? k' = if k = k' then none else t.get? k' := by
  obtain ⟨entries⟩ := t
  simp only [get?, erase]
  induction entries with
  | nil => simp [lookupIn]
  | cons e rest ih =>
    obtain ⟨key, value⟩ := e
    by_cases gone : key = k
    · rw [List.filter_cons_of_neg (by simpa using gone), ih, lookupIn]
      by_cases same : k = k'
      · simp [same]
      · rw [if_neg same, if_neg same, if_neg (by rw [gone]; exact same)]
    · rw [List.filter_cons_of_pos (by simpa using gone), lookupIn, lookupIn, ih]
      by_cases same : k = k'
      · simp [same, same ▸ gone]
      · simp [same]

theorem get?_putNew (t : Table κ ν) (k k' : κ) (v : ν) :
    (t.putNew k v).get? k' = if k = k' then some ((t.get? k).getD v) else t.get? k' := by
  by_cases same : k = k'
  · subst same
    cases found : t.get? k with
    | none => simp [putNew, has, found]
    | some w => simp [putNew, has, found]
  · cases found : t.get? k with
    | none => simp [putNew, has, found, get?_put, same]
    | some w => simp [putNew, has, found, same]

theorem mem_putIn {k : κ} {v : ν} {entries : List (κ × ν)} {e : κ × ν} (member : e ∈ putIn k v entries) :
    e ∈ entries ∨ e = (k, v) := by
  induction entries with
  | nil => exact .inr (List.mem_singleton.mp member)
  | cons first rest ih =>
    unfold putIn at member
    split at member
    · rcases List.mem_cons.mp member with here | later
      · exact .inr here
      · exact .inl (List.mem_cons_of_mem _ later)
    · rcases List.mem_cons.mp member with rfl | later
      · exact .inl (by simp)
      · exact (ih later).imp_left (List.mem_cons_of_mem _)

theorem mem_of_lookupIn {k : κ} {v : ν} {entries : List (κ × ν)}
    (found : lookupIn k entries = some v) : (k, v) ∈ entries := by
  induction entries with
  | nil => simp [lookupIn] at found
  | cons e rest ih =>
    by_cases same : e.1 = k
    · simp only [lookupIn, same, if_true, Option.some.injEq] at found
      subst same found
      simp
    · simp only [lookupIn, same, if_false] at found
      exact List.mem_cons_of_mem e (ih found)

theorem getD_push (t : Table κ (List ν)) (k : κ) (v : ν) (k' : κ) :
    ((t.push k v).get? k').getD [] = (t.get? k').getD [] ++ if k = k' then [v] else [] := by
  rw [push, get?_put]
  split
  · next same => rw [same]; rfl
  · simp

theorem get?_of_mem {t : Table κ ν} (distinct : t.keys.Nodup) {e : κ × ν} (member : e ∈ t.entries) :
    t.get? e.1 = some e.2 := by
  obtain ⟨entries⟩ := t
  induction entries with
  | nil => cases member
  | cons first rest ih =>
    obtain ⟨absent, distinct⟩ := List.nodup_cons.mp distinct
    rcases List.mem_cons.mp member with rfl | later
    · simp [get?, lookupIn]
    · have apart : first.1 ≠ e.1 := by
        intro same
        have there : e.1 ∈ rest.map (·.1) := List.mem_map_of_mem later
        rw [← same] at there
        exact absent there
      have found := ih distinct later
      simpa [get?, lookupIn, apart] using found

/-- What the lists of a table hold after a value is added to one of them. -/
theorem mem_push {t : Table κ (List ν)} {k : κ} {v : ν} {e : κ × List ν}
    (member : e ∈ (t.push k v).entries) :
    ∀ x ∈ e.2, e.1 = k ∧ x = v ∨ ∃ old ∈ t.entries, old.1 = e.1 ∧ x ∈ old.2 := by
  intro x held
  rcases mem_putIn member with old | rfl
  · exact .inr ⟨e, old, rfl, held⟩
  · rcases List.mem_append.mp held with old | new
    · cases found : t.get? k with
      | none => simp [found] at old
      | some values =>
        rw [found] at old
        exact .inr ⟨(k, values), mem_of_lookupIn found, rfl, old⟩
    · exact .inl ⟨rfl, List.mem_singleton.mp new⟩

/-! ## Writing many keys -/

theorem lookupIn_eq_none_iff (k : κ) (entries : List (κ × ν)) :
    lookupIn k entries = none ↔ k ∉ entries.map (·.1) := by
  induction entries with
  | nil => simp [lookupIn]
  | cons e rest ih =>
    by_cases same : e.1 = k
    · simp [lookupIn, same]
    · simp only [lookupIn, same, if_false, ih, List.map_cons, List.mem_cons, Ne.symm same, false_or]

theorem lookupIn_append (k : κ) (early late : List (κ × ν)) :
    lookupIn k (early ++ late) = (lookupIn k early).or (lookupIn k late) := by
  induction early with
  | nil => rfl
  | cons e rest ih =>
    by_cases same : e.1 = k
    · simp [lookupIn, same]
    · simpa [lookupIn, same] using ih

/-- All of some keys have the same value. -/
theorem lookupIn_map (k : κ) (keys : List κ) (v : ν) :
    lookupIn k (keys.map (·, v)) = if k ∈ keys then some v else none := by
  induction keys with
  | nil => rfl
  | cons first rest ih =>
    by_cases same : first = k
    · simp [lookupIn, same]
    · simp [lookupIn, same, Ne.symm same, ih]

/-- What a table tells once the entries of another are written over it. -/
theorem get?_foldl_put (entries : List (κ × ν)) (distinct : (entries.map (·.1)).Nodup)
    (t : Table κ ν) (k : κ) :
    (entries.foldl (fun t e => t.put e.1 e.2) t).get? k = (lookupIn k entries).or (t.get? k) := by
  induction entries generalizing t with
  | nil => simp [lookupIn]
  | cons e rest ih =>
    obtain ⟨absent, distinct⟩ := List.nodup_cons.mp distinct
    rw [List.foldl_cons, ih distinct]
    by_cases same : e.1 = k
    · subst same
      rw [(lookupIn_eq_none_iff e.1 rest).mpr absent]
      simp [lookupIn]
    · simp [lookupIn, same, get?_put]

/-- Writing entries one after the other where each key keeps the first value: a key tells what
    it told before, and else what the first entry for it says. -/
theorem get?_foldl_putNew (entries : List (κ × ν)) (t : Table κ ν) (k : κ) :
    (entries.foldl (fun t e => t.putNew e.1 e.2) t).get? k = (t.get? k).or (lookupIn k entries) := by
  induction entries generalizing t with
  | nil => simp [lookupIn]
  | cons e rest ih =>
    rw [List.foldl_cons, ih, get?_putNew]
    by_cases same : e.1 = k
    · subst same
      cases t.get? e.1 <;> simp [lookupIn]
    · simp [lookupIn, same]

/-! ## Order -/

theorem putIn_of_absent (k : κ) (v : ν) (entries : List (κ × ν)) (absent : lookupIn k entries = none) :
    putIn k v entries = entries ++ [(k, v)] := by
  induction entries with
  | nil => rfl
  | cons e rest ih =>
    by_cases same : e.1 = k
    · simp [lookupIn, same] at absent
    · simp only [lookupIn, same, ite_false] at absent
      simp [putIn, same, ih absent]

theorem entries_putNew (t : Table κ ν) (k : κ) (v : ν) :
    (t.putNew k v).entries = t.entries ++ if t.has k then [] else [(k, v)] := by
  by_cases there : t.has k
  · simp [putNew, there]
  · have absent : t.get? k = none := by simpa [has] using there
    rw [putNew, if_neg there, if_neg there]
    exact putIn_of_absent k v t.entries absent

/-- New entries of keys of their own are appended. -/
theorem entries_foldl_putNew {entries : List (κ × ν)} {t : Table κ ν}
    (distinct : (entries.map (·.1)).Nodup) (absent : ∀ e ∈ entries, t.get? e.1 = none) :
    (entries.foldl (fun t e => t.putNew e.1 e.2) t).entries = t.entries ++ entries := by
  induction entries generalizing t with
  | nil => simp
  | cons e rest ih =>
    obtain ⟨key, value⟩ := e
    rw [List.map_cons, List.nodup_cons] at distinct
    have fresh : t.has key = false := by simp [has, absent (key, value) (by simp)]
    have written : (t.putNew key value).entries = t.entries ++ [(key, value)] := by
      rw [entries_putNew, fresh]
      rfl
    rw [List.foldl_cons, ih distinct.2, written, List.append_assoc]
    · rfl
    · intro other member
      have apart : key ≠ other.1 :=
        fun same => distinct.1 (List.mem_map.mpr ⟨other, member, same.symm⟩)
      rw [get?_putNew, if_neg apart]
      exact absent other (List.mem_cons_of_mem _ member)

theorem prefix_foldl_putNew (entries : List (κ × ν)) (t : Table κ ν) :
    t.entries <+: (entries.foldl (fun t e => t.putNew e.1 e.2) t).entries := by
  induction entries generalizing t with
  | nil => exact List.prefix_refl _
  | cons e rest ih =>
    have first : t.entries <+: (t.putNew e.1 e.2).entries := by
      rw [entries_putNew]
      exact List.prefix_append _ _
    exact first.trans (ih (t.putNew e.1 e.2))

theorem mem_foldl_putNew {entries : List (κ × ν)} {t : Table κ ν} {e : κ × ν}
    (member : e ∈ (entries.foldl (fun t e => t.putNew e.1 e.2) t).entries) :
    e ∈ t.entries ∨ e ∈ entries := by
  induction entries generalizing t with
  | nil => exact .inl member
  | cons first rest ih =>
    rcases ih member with early | late
    · rw [entries_putNew] at early
      split at early
      · exact .inl (by simpa using early)
      · rcases List.mem_append.mp early with old | new
        · exact .inl old
        · exact .inr (by simp [List.mem_singleton.mp new])
    · exact .inr (List.mem_cons_of_mem first late)

/-- Look-ups that a table answers are answered in the same way when entries are added behind. -/
theorem get?_of_prefix {t u : Table κ ν} (longer : t.entries <+: u.entries) {k : κ} {v : ν}
    (found : t.get? k = some v) : u.get? k = some v := by
  obtain ⟨more, same⟩ := longer
  have extend : ∀ entries : List (κ × ν), lookupIn k entries = some v →
      lookupIn k (entries ++ more) = some v := by
    intro entries
    induction entries with
    | nil => intro h; simp [lookupIn] at h
    | cons e rest ih =>
      by_cases asked : e.1 = k
      · simp [lookupIn, asked]
      · simpa [lookupIn, asked] using ih
  rw [get?, ← same]
  exact extend t.entries found

theorem get?_eq_none_iff (t : Table κ ν) (k : κ) : t.get? k = none ↔ k ∉ t.keys :=
  lookupIn_eq_none_iff k t.entries

theorem nodup_putNew (t : Table κ ν) (distinct : t.keys.Nodup) (k : κ) (v : ν) :
    (t.putNew k v).keys.Nodup := by
  rw [keys, entries_putNew]
  by_cases there : t.has k
  · rw [if_pos there, List.append_nil]
    exact distinct
  · have absent : k ∉ t.keys := (get?_eq_none_iff t k).mp (by simpa [has] using there)
    rw [if_neg there, List.map_append, List.nodup_append]
    refine ⟨distinct, by simp, ?_⟩
    intro a member b single same
    obtain rfl := List.mem_singleton.mp single
    exact absent (same ▸ member)

theorem keys_putIn (k : κ) (v : ν) (entries : List (κ × ν)) (found : k ∈ entries.map (·.1)) :
    (putIn k v entries).map (·.1) = entries.map (·.1) := by
  induction entries with
  | nil => cases found
  | cons e rest ih =>
    by_cases same : e.1 = k
    · simp [putIn, same]
    · have later : k ∈ rest.map (·.1) := by
        rcases List.mem_cons.mp found with here | later
        · exact absurd here.symm same
        · exact later
      simp [putIn, same, ih later]

theorem nodup_put (t : Table κ ν) (distinct : t.keys.Nodup) (k : κ) (v : ν) :
    (t.put k v).keys.Nodup := by
  by_cases there : k ∈ t.keys
  · have same : (t.put k v).keys = t.keys := keys_putIn k v t.entries there
    rwa [same]
  · have absent : t.has k = false := by simpa [has] using (get?_eq_none_iff t k).mpr there
    simpa [putNew, absent] using nodup_putNew t distinct k v

theorem nodup_update (t u : Table κ ν) (distinct : t.keys.Nodup) : (t.update u).keys.Nodup := by
  obtain ⟨entries⟩ := u
  simp only [update]
  induction entries generalizing t with
  | nil => exact distinct
  | cons e rest ih => exact ih (t.put e.1 e.2) (nodup_put t distinct e.1 e.2)

theorem get?_update (t u : Table κ ν) (distinct : u.keys.Nodup) (k : κ) :
    (t.update u).get? k = (u.get? k).or (t.get? k) :=
  get?_foldl_put u.entries distinct t k

theorem nodup_foldl_putNew (entries : List (κ × ν)) (t : Table κ ν) (distinct : t.keys.Nodup) :
    (entries.foldl (fun t e => t.putNew e.1 e.2) t).keys.Nodup := by
  induction entries generalizing t with
  | nil => exact distinct
  | cons e rest ih => exact ih _ (nodup_putNew t distinct e.1 e.2)

/-! ## Values in groups -/

theorem mem_keys_put {t : Table κ ν} {k k' : κ} {v : ν} :
    k' ∈ (t.put k v).keys ↔ k = k' ∨ k' ∈ t.keys := by
  have absent := get?_eq_none_iff (t.put k v) k'
  rw [get?_put] at absent
  by_cases same : k = k'
  · rw [if_pos same] at absent
    simpa [same] using absent
  · rw [if_neg same, get?_eq_none_iff] at absent
    simpa [same] using (not_congr absent).symm

/-- Writing entries of keys of their own, and not of the table, appends them. -/
theorem entries_foldl_put {entries : List (κ × ν)} {t : Table κ ν}
    (distinct : (entries.map (·.1)).Nodup) (absent : ∀ e ∈ entries, t.get? e.1 = none) :
    (entries.foldl (fun t e => t.put e.1 e.2) t).entries = t.entries ++ entries := by
  induction entries generalizing t with
  | nil => simp
  | cons e rest ih =>
    obtain ⟨fresh, distinct⟩ := List.nodup_cons.mp distinct
    have written : (t.put e.1 e.2).entries = t.entries ++ [e] :=
      putIn_of_absent e.1 e.2 t.entries (absent e (by simp))
    rw [List.foldl_cons, ih distinct, written, List.append_assoc]
    · rfl
    · intro other member
      have apart : e.1 ≠ other.1 := fun same => fresh (List.mem_map.mpr ⟨other, member, same.symm⟩)
      rw [get?_put_of_ne t e.2 apart]
      exact absent other (List.mem_cons_of_mem _ member)

section
variable {α : Type} (key : α → κ)

theorem nodup_foldl_push (xs : List α) (t : Table κ (List α)) (distinct : t.keys.Nodup) :
    (xs.foldl (fun groups x => groups.push (key x) x) t).keys.Nodup := by
  induction xs generalizing t with
  | nil => exact distinct
  | cons x xs ih => exact ih _ (nodup_put t distinct _ _)

theorem mem_keys_foldl_push (xs : List α) (t : Table κ (List α)) (k : κ) :
    k ∈ (xs.foldl (fun groups x => groups.push (key x) x) t).keys ↔
      k ∈ t.keys ∨ ∃ x ∈ xs, key x = k := by
  induction xs generalizing t with
  | nil => simp
  | cons x xs ih =>
    rw [List.foldl_cons, ih, push, mem_keys_put]
    simp only [List.mem_cons, exists_eq_or_imp]
    rw [or_assoc, or_left_comm]

theorem getD_foldl_push (xs : List α) (t : Table κ (List α)) (k : κ) :
    ((xs.foldl (fun groups x => groups.push (key x) x) t).get? k).getD [] =
      (t.get? k).getD [] ++ xs.filter (key · = k) := by
  induction xs generalizing t with
  | nil => simp
  | cons x xs ih =>
    rw [List.foldl_cons, ih, getD_push]
    by_cases same : key x = k <;> simp [same]

/-- Values that are put in groups: each group holds the values of its key, in their order. -/
theorem foldl_push_groups (xs : List α) :
    ∀ entry ∈ (xs.foldl (fun (groups : Table κ (List α)) x => groups.push (key x) x) {}).entries,
      entry.2 = xs.filter (key · = entry.1) := by
  intro entry member
  have found := get?_of_mem (nodup_foldl_push key xs {} List.nodup_nil) member
  have held := getD_foldl_push key xs {} entry.1
  rw [found] at held
  simpa using held

/-- No group is empty. -/
theorem foldl_push_filled (xs : List α) :
    ∀ entry ∈ (xs.foldl (fun (groups : Table κ (List α)) x => groups.push (key x) x) {}).entries,
      entry.2 ≠ [] := by
  intro entry member
  rcases (mem_keys_foldl_push key xs {} entry.1).mp (List.mem_map_of_mem member) with none | some
  · cases none
  · obtain ⟨x, inside, own⟩ := some
    rw [foldl_push_groups key xs entry member]
    exact List.ne_nil_of_mem (List.mem_filter.mpr ⟨inside, decide_eq_true own⟩)

end

/-! ## Over all entries -/

/-- What a table lists over its entries, once a key is written whose entry lists more than before. -/
theorem flatMap_putIn {β : Type} {f : κ × ν → List β} {more : List β} (k : κ) (v : ν)
    (entries : List (κ × ν))
    (grows : (f (k, v)).Perm
      ((match lookupIn k entries with | some old => f (k, old) | none => []) ++ more)) :
    ((putIn k v entries).flatMap f).Perm (entries.flatMap f ++ more) := by
  induction entries with
  | nil => simpa [putIn, lookupIn] using grows
  | cons e rest ih =>
    obtain ⟨key, value⟩ := e
    by_cases same : key = k
    · subst same
      simp only [putIn, lookupIn, if_true, List.flatMap_cons] at grows ⊢
      have behind : (f (key, value) ++ more ++ rest.flatMap f).Perm
          (f (key, value) ++ (rest.flatMap f ++ more)) := by
        rw [List.append_assoc]
        exact List.perm_append_comm.append_left _
      rw [List.append_assoc]
      exact (grows.append_right _).trans behind
    · simp only [putIn, lookupIn, same, if_false, List.flatMap_cons] at grows ⊢
      rw [List.append_assoc]
      exact (ih grows).append_left _

end Bindings.Table
