import Mathlib.Data.List.AList

/-! Maps that are filled from a list, one entry after the other.

An entry overwrites an earlier one of the same key, so the last one stays. -/

namespace ValkeyOperator.Inserts

variable {α κ ν : Type} [DecidableEq κ] {key : α → κ} {val : α → ν} {l : List α}
  {m : AList fun _ : κ => ν} {k : κ}

theorem lookup_of_not_mem (h : ∀ a ∈ l, key a ≠ k) :
    (l.foldl (fun m a => m.insert (key a) (val a)) m).lookup k = m.lookup k := by
  induction l generalizing m with
  | nil => rfl
  | cons a rest ih =>
    obtain ⟨ha, hrest⟩ := List.forall_mem_cons.mp h
    exact (ih hrest).trans (AList.lookup_insert_ne (Ne.symm ha))

theorem lookup_of_mem (h : ∃ a ∈ l, key a = k) :
    ∃ a ∈ l, key a = k ∧
      (l.foldl (fun m a => m.insert (key a) (val a)) m).lookup k = some (val a) := by
  induction l generalizing m with
  | nil =>
    obtain ⟨a, ha, -⟩ := h
    cases ha
  | cons a rest ih =>
    by_cases hrest : ∃ b ∈ rest, key b = k
    · obtain ⟨b, hb, hkey, hlookup⟩ := ih (m := m.insert (key a) (val a)) hrest
      exact ⟨b, List.mem_cons_of_mem _ hb, hkey, hlookup⟩
    · obtain rfl : key a = k := by
        obtain ⟨b, hb, hkey⟩ := h
        rcases List.mem_cons.mp hb with rfl | hb
        · exact hkey
        · exact absurd ⟨b, hb, hkey⟩ hrest
      refine ⟨a, List.mem_cons_self, rfl, ?_⟩
      exact (lookup_of_not_mem fun b hb hkey => hrest ⟨b, hb, hkey⟩).trans (AList.lookup_insert _)

theorem mem_of_lookup {v : ν}
    (h : (l.foldl (fun m a => m.insert (key a) (val a)) m).lookup k = some v) :
    (∃ a ∈ l, key a = k ∧ val a = v) ∨ m.lookup k = some v := by
  by_cases hmem : ∃ a ∈ l, key a = k
  · obtain ⟨a, ha, hkey, hlookup⟩ := lookup_of_mem (m := m) hmem
    exact .inl ⟨a, ha, hkey, Option.some.inj (hlookup.symm.trans h)⟩
  · rw [lookup_of_not_mem fun a ha hkey => hmem ⟨a, ha, hkey⟩] at h
    exact .inr h

/-- If every key comes once, each entry stays. -/
theorem lookup_of_nodup (hkeys : (l.map key).Nodup) {a : α} (ha : a ∈ l) :
    (l.foldl (fun m a => m.insert (key a) (val a)) m).lookup (key a) = some (val a) := by
  obtain ⟨b, hb, hkey, hlookup⟩ := lookup_of_mem (m := m) ⟨a, ha, rfl⟩
  rw [hlookup, List.inj_on_of_nodup_map hkeys hb ha hkey]

theorem lookup_erases (ks : List κ) :
    (ks.foldl (fun m k => m.erase k) m).lookup k = if k ∈ ks then none else m.lookup k := by
  induction ks generalizing m with
  | nil => rfl
  | cons a rest ih =>
    rw [List.foldl_cons, ih]
    by_cases hrest : k ∈ rest
    · rw [if_pos hrest, if_pos (List.mem_cons_of_mem _ hrest)]
    · rw [if_neg hrest]
      by_cases ha : k = a
      · rw [ha, AList.lookup_erase, if_pos List.mem_cons_self]
      · have hmem : k ∉ a :: rest := fun h => (List.mem_cons.mp h).elim ha hrest
        rw [AList.lookup_erase_ne ha, if_neg hmem]

theorem lookup_map {ν' : Type} (f : ν → ν') {m' : AList fun _ : κ => ν'}
    (h : m'.lookup k = (m.lookup k).map f) :
    (l.foldl (fun m a => m.insert (key a) (f (val a))) m').lookup k =
      ((l.foldl (fun m a => m.insert (key a) (val a)) m).lookup k).map f := by
  induction l generalizing m m' with
  | nil => exact h
  | cons a rest ih =>
    refine ih ?_
    by_cases hk : k = key a
    · rw [hk, AList.lookup_insert, AList.lookup_insert]
      rfl
    · rw [AList.lookup_insert_ne hk, AList.lookup_insert_ne hk, h]

theorem lookup_congr {m' : AList fun _ : κ => ν} (h : m.lookup k = m'.lookup k) :
    (l.foldl (fun m a => m.insert (key a) (val a)) m).lookup k =
      (l.foldl (fun m a => m.insert (key a) (val a)) m').lookup k := by
  have hid : m.lookup k = (m'.lookup k).map id := by rwa [Option.map_id]
  exact (lookup_map id hid).trans (congrFun Option.map_id _)

end ValkeyOperator.Inserts
