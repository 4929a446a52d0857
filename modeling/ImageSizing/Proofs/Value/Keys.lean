import ImageSizing.Proofs.Value.Mapping

/-!
# Distinct keys

A mapping that is built pair by pair never holds two equal keys (`distinct_ofPairs`).
Entries with new keys are put at the end, one after the other, so that adding the entries of
such a mapping to one without their keys is the same as appending them:

    (∀ e ∈ m, ∀ x ∈ xs, e.1.sameKey x.1 = false) → Distinct xs →
      xs.foldl (fun m e => insertKey e.1 e.2 m) m = m ++ xs      (foldl_insertKey)

Whatever is put under a key leaves the entries alone that a condition on keys selects, if it
does not select that key (`filter_insert`).
-/

namespace ImageSizing.Mapping

/-- No key is equal to an earlier one. -/
def Distinct (m : Mapping) : Prop := m.Pairwise fun a b => a.1.sameKey b.1 = false

/-- Whether a mapping has no entry under a text key. -/
def Lacks (m : Mapping) (key : String) : Prop := ∀ e ∈ m, isKey key e.1 = false

theorem sameKey_str (key : String) (v : Value) : (Value.str key).sameKey v = isKey key v := by
  cases v with
  | str s =>
    unfold Value.sameKey isKey
    exact BEq.comm
  | _ => rfl

/-! ## New keys -/

theorem insertKey_new {key v : Value} {m : Mapping} (h : ∀ e ∈ m, e.1.sameKey key = false) :
    insertKey key v m = m ++ [(key, v)] := by
  induction m with
  | nil => rfl
  | cons e m ih =>
    obtain ⟨k, w⟩ := e
    have hk : k.sameKey key = false := h (k, w) List.mem_cons_self
    unfold insertKey
    rw [if_neg (by rw [hk]; decide), ih fun e he => h e (List.mem_cons_of_mem _ he)]
    rfl

/-- Entries with keys that are new and distinct are appended. -/
theorem foldl_insertKey {m xs : Mapping} (hnew : ∀ e ∈ m, ∀ x ∈ xs, e.1.sameKey x.1 = false)
    (hxs : Distinct xs) : xs.foldl (fun m e => insertKey e.1 e.2 m) m = m ++ xs := by
  induction xs generalizing m with
  | nil => exact (List.append_nil m).symm
  | cons x xs ih =>
    obtain ⟨hx, hrest⟩ := List.pairwise_cons.1 hxs
    have hlater : ∀ e ∈ m ++ [x], ∀ y ∈ xs, e.1.sameKey y.1 = false := by
      intro e he y hy
      rcases List.mem_append.1 he with he | he
      · exact hnew e he y (List.mem_cons_of_mem x hy)
      · cases List.mem_singleton.1 he
        exact hx y hy
    rw [List.foldl_cons, insertKey_new fun e he => hnew e he x List.mem_cons_self, ih hlater hrest,
      List.append_assoc]
    rfl

theorem Distinct.copyEntries {m : Mapping} (h : Distinct m) : Distinct (Value.copyEntries m) := by
  rw [Value.copyEntries_eq_map]
  exact List.pairwise_map.2 h

theorem Distinct.filter {m : Mapping} (h : Distinct m) (p : Value × Value → Bool) :
    Distinct (m.filter p) :=
  List.Pairwise.filter p h

theorem mem_insertKey {key v : Value} {m : Mapping} {e : Value × Value}
    (h : e ∈ insertKey key v m) : e.1 = key ∨ ∃ w, (e.1, w) ∈ m := by
  induction m with
  | nil =>
    cases List.mem_singleton.1 h
    exact .inl rfl
  | cons x m ih =>
    obtain ⟨k, w⟩ := x
    unfold insertKey at h
    split at h
    · rcases List.mem_cons.1 h with rfl | h
      · exact .inr ⟨w, List.mem_cons_self⟩
      · exact .inr ⟨e.2, List.mem_cons_of_mem _ h⟩
    · rcases List.mem_cons.1 h with rfl | h
      · exact .inr ⟨w, List.mem_cons_self⟩
      · rcases ih h with heq | ⟨w', hw'⟩
        · exact .inl heq
        · exact .inr ⟨w', List.mem_cons_of_mem _ hw'⟩

/-- A key is put where it is already, or at the end of a mapping without it. -/
theorem Distinct.insertKey {m : Mapping} (h : Distinct m) (key v : Value) :
    Distinct (insertKey key v m) := by
  induction m with
  | nil => exact List.pairwise_singleton _ _
  | cons x m ih =>
    obtain ⟨k, w⟩ := x
    obtain ⟨hk, hrest⟩ := List.pairwise_cons.1 h
    unfold Mapping.insertKey
    split
    · exact List.pairwise_cons.2 ⟨hk, hrest⟩
    · rename_i hne
      refine List.pairwise_cons.2 ⟨?_, ih hrest⟩
      intro e he
      rcases mem_insertKey he with heq | ⟨w', hw'⟩
      · rw [heq]
        exact (Bool.not_eq_true _).mp hne
      · exact hk (e.1, w') hw'

theorem Distinct.foldl_insertKey {m : Mapping} (h : Distinct m) (xs : Mapping) :
    Distinct (xs.foldl (fun m e => Mapping.insertKey e.1 e.2 m) m) := by
  induction xs generalizing m with
  | nil => exact h
  | cons x xs ih => exact ih (h.insertKey x.1 x.2)

/-- A mapping that is built pair by pair has distinct keys. -/
theorem distinct_ofPairs (pairs : List (Value × Value)) : Distinct (ofPairs pairs) :=
  Distinct.foldl_insertKey List.Pairwise.nil pairs

/-! ## Text keys -/

theorem get_of_lacks {m : Mapping} {key : String} (h : Lacks m key) : m.get key = .nothing := by
  unfold get
  induction m with
  | nil => rfl
  | cons e m ih =>
    rw [get?_cons_of_not_isKey (h e List.mem_cons_self)]
    exact ih fun e' he' => h e' (List.mem_cons_of_mem e he')

theorem lacks_insert {m : Mapping} {key key' : String} (h : Lacks m key') (hne : key' ≠ key)
    (v : Value) : Lacks (insert key v m) key' := by
  have hkey : isKey key' (.str key) = false := beq_eq_false_iff_ne.2 hne.symm
  induction m with
  | nil =>
    intro e he
    cases List.mem_singleton.1 he
    exact hkey
  | cons e m ih =>
    obtain ⟨k, w⟩ := e
    have hk : isKey key' k = false := h (k, w) List.mem_cons_self
    have hrest : Lacks m key' := fun e he => h e (List.mem_cons_of_mem _ he)
    unfold insert
    split
    · intro e he
      rcases List.mem_cons.1 he with rfl | he
      · exact hk
      · exact hrest e he
    · intro e he
      rcases List.mem_cons.1 he with rfl | he
      · exact hk
      · exact ih hrest e he

/-- Nothing else has to go with a key that is missing. -/
theorem erase_of_lacks {m : Mapping} {key : String} (h : Lacks m key) : m.erase key = m :=
  List.filter_eq_self.2 fun e he => by rw [h e he]; rfl

theorem isKey_eq_true {key : String} {k : Value} (h : isKey key k = true) : k = .str key := by
  cases k with
  | str s => rw [eq_of_beq h]
  | _ => cases h

/-- An entry that a condition on keys does not select makes no difference to those it selects. -/
theorem filter_insert {p : Value → Bool} {key : String} (hp : p (.str key) = false) (v : Value)
    (m : Mapping) : (insert key v m).filter (fun e => p e.1) = m.filter fun e => p e.1 := by
  induction m with
  | nil => simp [insert, hp]
  | cons e m ih =>
    obtain ⟨k, w⟩ := e
    unfold insert
    split
    · rename_i hk
      obtain rfl := isKey_eq_true hk
      simp [hp]
    · rw [List.filter_cons, List.filter_cons, ih]

/-- What was put under a missing key is taken away with the key. -/
theorem erase_insert {m : Mapping} {key : String} (h : Lacks m key) (v : Value) :
    (insert key v m).erase key = m := by
  have hself : (fun k => !isKey key k) (.str key) = false := by simp [isKey]
  unfold erase
  rw [filter_insert (p := fun k => !isKey key k) hself]
  exact erase_of_lacks h

end ImageSizing.Mapping
