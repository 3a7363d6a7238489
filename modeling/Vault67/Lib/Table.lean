/-
Tables that are written one row at a time, by primary key.

- `write`: the row with the same key is replaced, or the row is added at the end;
- `remove`: the row with a key is deleted.

A selection is left as it was exactly when neither the new row nor a replaced or removed one belongs to it, or when the
row that is written is the stored one (`filter_write_iff`, `filter_remove_iff`).
-/
import Mathlib.Tactic

namespace Vault67.Table

variable {α κ : Type*} [DecidableEq κ] (key : α → κ)

def write (row : α) (rows : List α) : List α :=
  if ∃ r ∈ rows, key r = key row then rows.map fun r => if key r = key row then row else r else rows ++ [row]

def remove (k : κ) (rows : List α) : List α := rows.filter fun r => key r ≠ k

variable {key} {row a : α} {k : κ} {rows : List α} {p : α → Bool}

@[simp] theorem mem_write : a ∈ write key row rows ↔ a = row ∨ (a ∈ rows ∧ key a ≠ key row) := by
  unfold write
  split_ifs with h
  · obtain ⟨r, hr, hk⟩ := h
    rw [List.mem_map]
    refine ⟨?_, ?_⟩
    · intro h
      obtain ⟨b, hb, rfl⟩ := h
      by_cases hbk : key b = key row
      · exact .inl (if_pos hbk)
      · rw [if_neg hbk]
        exact .inr ⟨hb, hbk⟩
    · intro h
      rcases h with rfl | ⟨ha, hak⟩
      · exact ⟨r, hr, if_pos hk⟩
      · exact ⟨a, ha, if_neg hak⟩
  · rw [List.mem_append, List.mem_singleton]
    refine ⟨?_, ?_⟩
    · intro hm
      rcases hm with ha | ha
      · exact .inr ⟨ha, fun hak => h ⟨a, ha, hak⟩⟩
      · exact .inl ha
    · intro hm
      rcases hm with ha | ⟨ha, -⟩
      · exact .inr ha
      · exact .inl ha

@[simp] theorem mem_remove : a ∈ remove key k rows ↔ a ∈ rows ∧ key a ≠ k := by
  simp [remove]

theorem nodup_write (h : (rows.map key).Nodup) : ((write key row rows).map key).Nodup := by
  unfold write
  split_ifs with hr
  · have hkeys : (rows.map fun r => if key r = key row then row else r).map key = rows.map key := by
      rw [List.map_map]
      apply List.map_congr_left
      intro r _
      by_cases hk : key r = key row
      · simp [hk]
      · simp [hk]
    rwa [hkeys]
  · rw [List.map_append, List.nodup_append']
    refine ⟨h, List.nodup_singleton _, ?_⟩
    simp only [List.map_cons, List.map_nil, List.disjoint_singleton, List.mem_map]
    exact hr

/-! ## Selections -/

theorem filter_write (hrow : p row = false) (hold : ∀ r ∈ rows, key r = key row → p r = false) :
    (write key row rows).filter p = rows.filter p := by
  unfold write
  split_ifs with h
  · clear h
    induction rows with
    | nil => rfl
    | cons r rows ih =>
      have ih := ih fun s hs => hold s (List.mem_cons_of_mem r hs)
      rw [List.map_cons]
      by_cases hk : key r = key row
      · rw [if_pos hk, List.filter_cons_of_neg (by simp [hrow]),
          List.filter_cons_of_neg (by simp [hold r List.mem_cons_self hk]), ih]
      · rw [if_neg hk, List.filter_cons, List.filter_cons, ih]
  · simp [hrow]

theorem filter_remove (hold : ∀ r ∈ rows, key r = k → p r = false) : (remove key k rows).filter p = rows.filter p := by
  rw [remove, List.filter_filter]
  apply List.filter_congr
  intro r hr
  by_cases hk : key r = k
  · simp [hold r hr hk]
  · simp [hk]

/-- rows that are all the written one already -/
theorem write_eq_self (hstored : ∃ r ∈ rows, key r = key row) (hsame : ∀ r ∈ rows, key r = key row → r = row) :
    write key row rows = rows := by
  rw [write, if_pos hstored]
  refine (List.map_congr_left fun r hr => ?_).trans (List.map_id rows)
  by_cases hk : key r = key row
  · rw [if_pos hk, hsame r hr hk, id_eq]
  · rw [if_neg hk, id_eq]

/-- a row of the selection is written over some: they were that row, or the selection is another -/
theorem eq_of_filter_map (hrow : p row = true)
    (h : (rows.map fun r => if key r = key row then row else r).filter p = rows.filter p) :
    ∀ r ∈ rows, key r = key row → r = row := by
  induction rows with
  | nil => simp
  | cons r rows ih =>
    rw [List.map_cons] at h
    by_cases hk : key r = key row
    · rw [if_pos hk, List.filter_cons_of_pos hrow] at h
      by_cases hr : p r = true
      · rw [List.filter_cons_of_pos hr] at h
        obtain ⟨hsame, h⟩ := List.cons.inj h
        exact List.forall_mem_cons.2 ⟨fun _ => hsame.symm, ih h⟩
      · -- the new selection has a row more, and no row less
        rw [List.filter_cons_of_neg hr] at h
        have hlength := congrArg List.length h
        have hle : rows.countP p ≤ (rows.map fun r => if key r = key row then row else r).countP p := by
          rw [List.countP_map]
          refine List.countP_mono_left fun s _ hs => ?_
          by_cases hsk : key s = key row
          · simp [hsk, hrow]
          · simp [hsk, hs]
        rw [List.length_cons, ← List.countP_eq_length_filter, ← List.countP_eq_length_filter] at hlength
        omega
    · rw [if_neg hk] at h
      refine List.forall_mem_cons.2 ⟨fun hk' => absurd hk' hk, ih ?_⟩
      by_cases hr : p r = true
      · rw [List.filter_cons_of_pos hr, List.filter_cons_of_pos hr] at h
        exact (List.cons.inj h).2
      · rwa [List.filter_cons_of_neg hr, List.filter_cons_of_neg hr] at h

/-- a selection is left as it was exactly when a write that concerns it, by the new row or by one that it replaces,
writes what is stored -/
theorem filter_write_iff :
    (write key row rows).filter p = rows.filter p ↔
      ((p row = true ∨ ∃ r ∈ rows, key r = key row ∧ p r = true) →
        (∃ r ∈ rows, key r = key row) ∧ ∀ r ∈ rows, key r = key row → r = row) := by
  refine ⟨fun h hconcerns => ?_, fun h => ?_⟩
  · by_cases hrow : p row = true
    · by_cases hstored : ∃ r ∈ rows, key r = key row
      · rw [write, if_pos hstored] at h
        exact ⟨hstored, eq_of_filter_map hrow h⟩
      · rw [write, if_neg hstored, List.filter_append, List.filter_cons_of_pos hrow] at h
        exact absurd (congrArg List.length h) (by simp)
    · -- a row of the selection is replaced by one outside
      obtain ⟨r, hr, hk, hpr⟩ := hconcerns.resolve_left hrow
      have hmem : r ∈ (write key row rows).filter p := by
        rw [h]
        exact List.mem_filter.2 ⟨hr, hpr⟩
      rcases mem_write.1 (List.mem_filter.1 hmem).1 with rfl | ⟨-, hne⟩
      · exact absurd hpr hrow
      · exact absurd hk hne
  · by_cases hconcerns : p row = true ∨ ∃ r ∈ rows, key r = key row ∧ p r = true
    · obtain ⟨hstored, hsame⟩ := h hconcerns
      rw [write_eq_self hstored hsame]
    · obtain ⟨hrow, hout⟩ := not_or.1 hconcerns
      exact filter_write (by simpa using hrow) fun r hr hk => by_contra fun hp => hout ⟨r, hr, hk, by simpa using hp⟩

theorem filter_remove_iff : (remove key k rows).filter p = rows.filter p ↔ ∀ r ∈ rows, key r = k → p r = false := by
  refine ⟨fun h r hr hk => ?_, filter_remove⟩
  by_contra hp
  have hmem : r ∈ (remove key k rows).filter p := by
    rw [h, List.mem_filter]
    exact ⟨hr, by simpa using hp⟩
  exact (mem_remove.1 (List.mem_filter.1 hmem).1).2 hk

end Vault67.Table
