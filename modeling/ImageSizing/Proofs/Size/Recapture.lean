import ImageSizing.Proofs.Size.Copies

/-!
# Canonical forms that are made canonical again

The canonical form of a size is a size, too, and what it is made into is its copy
(`canonical_canonical`): a snapshot that counts as present is kept, and an empty one is taken
anew and comes out empty again.  All but the sequences that a size may be, and the values in
the axes and the queue of a specification, has been copied the first time (`Unnested`), so
that for other sizes nothing changes.

The snapshot is a size as well.  It has every entry but itself, and its canonical form the same
entries as the one that it was taken of:

    canonical cfg (.map (m.erase "original")) = pure m',  m' ~ m        (perm_insert_erase)
-/

namespace ImageSizing

namespace Mapping

/-! ## One entry of a mapping -/

theorem insert_insert (key : String) (v w : Value) (m : Mapping) :
    insert key v (insert key w m) = insert key v m := by
  have hself : isKey key (.str key) = true := beq_self_eq_true key
  induction m with
  | nil =>
    show insert key v [(.str key, w)] = [(.str key, v)]
    rw [insert, if_pos hself]
  | cons e m ih =>
    obtain ⟨k, u⟩ := e
    by_cases hk : isKey key k = true
    · rw [insert, if_pos hk, insert, if_pos hk, insert, if_pos hk]
    · rw [insert, if_neg hk, insert, if_neg hk, insert, if_neg hk, ih]

/-- What is put under a key is taken away with all that stands there. -/
theorem erase_insert_eq (key : String) (v : Value) (m : Mapping) :
    (insert key v m).erase key = m.erase key := by
  have hself : (fun k => !isKey key k) (.str key) = false := by simp [isKey]
  exact filter_insert (p := fun k => !isKey key k) hself v m

theorem lacks_erase (m : Mapping) (key : String) : Lacks (m.erase key) key := by
  intro e he
  simpa using (List.mem_filter.1 he).2

theorem insert_of_lacks {m : Mapping} {key : String} (h : Lacks m key) (v : Value) :
    insert key v m = m ++ [(.str key, v)] := by
  induction m with
  | nil => rfl
  | cons e m ih =>
    obtain ⟨k, w⟩ := e
    have hk : isKey key k = false := h (k, w) List.mem_cons_self
    rw [insert, if_neg (by rw [hk]; decide), ih fun e he => h e (List.mem_cons_of_mem _ he)]
    rfl

/-- A text key that is distinct from the later ones is the only one. -/
theorem lacks_of_distinct_cons {k w : Value} {m : Mapping} {key : String}
    (h : Distinct ((k, w) :: m)) (hk : isKey key k = true) : Lacks m key := by
  intro e he
  obtain rfl := isKey_eq_true hk
  rw [← sameKey_str]
  exact (List.pairwise_cons.1 h).1 e he

/-- Put at the end or in its old place, an entry is one of the same entries. -/
theorem perm_insert_erase {m : Mapping} (h : Distinct m) (key : String) (v : Value) :
    (insert key v (m.erase key)).Perm (insert key v m) := by
  have hend : (insert key v (m.erase key)).Perm ((.str key, v) :: m.erase key) := by
    rw [insert_of_lacks (lacks_erase m key)]
    exact List.perm_append_singleton _ _
  refine hend.trans ?_
  clear hend
  induction m with
  | nil => exact List.Perm.refl _
  | cons e m ih =>
    obtain ⟨k, w⟩ := e
    by_cases hk : isKey key k = true
    · have hlacks := lacks_of_distinct_cons h hk
      have herase : Mapping.erase ((k, w) :: m) key = m := by
        unfold erase
        rw [List.filter_cons_of_neg (by simp [hk])]
        exact erase_of_lacks hlacks
      rw [herase, insert, if_pos hk, isKey_eq_true hk]
    · have herase : Mapping.erase ((k, w) :: m) key = (k, w) :: Mapping.erase m key := by
        unfold erase
        rw [List.filter_cons_of_pos (by simpa using hk)]
      rw [herase, insert, if_neg hk]
      exact (List.Perm.swap _ _ _).trans ((ih (List.pairwise_cons.1 h).2).cons _)

/-! ## Entries put in one after the other -/

/-- A text key is put in like any other. -/
theorem insert_eq_insertKey (key : String) (v : Value) (m : Mapping) :
    insert key v m = insertKey (.str key) v m := by
  have hkey : ∀ k : Value, k.sameKey (.str key) = isKey key k := by
    intro k
    cases k with
    | str s => rfl
    | _ => rfl
  induction m with
  | nil => rfl
  | cons e m ih =>
    obtain ⟨k, w⟩ := e
    rw [insert, insertKey, hkey, ih]

theorem Distinct.insert {m : Mapping} (h : Distinct m) (key : String) (v : Value) :
    Distinct (Mapping.insert key v m) := by
  rw [insert_eq_insertKey]
  exact h.insertKey _ v

theorem lacks_copyEntries {m : Mapping} {key : String} (h : Lacks m key) :
    Lacks (Value.copyEntries m) key := by
  intro e he
  rw [Value.copyEntries_eq_map] at he
  obtain ⟨x, hx, rfl⟩ := List.mem_map.1 he
  exact h x hx

theorem lacks_foldl_insertKey {m xs : Mapping} {key : String} (hm : Lacks m key)
    (hxs : Lacks xs key) : Lacks (xs.foldl (fun m e => insertKey e.1 e.2 m) m) key := by
  induction xs generalizing m with
  | nil => exact hm
  | cons x xs ih =>
    refine ih ?_ fun e he => hxs e (List.mem_cons_of_mem x he)
    intro e he
    rcases mem_insertKey he with heq | ⟨w, hw⟩
    · rw [heq]
      exact hxs x List.mem_cons_self
    · exact hm (e.1, w) hw

theorem get?_of_lacks {m : Mapping} {key : String} (h : Lacks m key) : get? key m = none := by
  induction m with
  | nil => rfl
  | cons e m ih =>
    rw [get?_cons_of_not_isKey (h e List.mem_cons_self)]
    exact ih fun e' he' => h e' (List.mem_cons_of_mem e he')

theorem get?_insertKey_of_not_isKey {key : String} {k : Value} (hk : isKey key k = false) (v : Value)
    (m : Mapping) : get? key (insertKey k v m) = get? key m := by
  induction m with
  | nil => exact get?_cons_of_not_isKey hk []
  | cons e m ih =>
    obtain ⟨k', w⟩ := e
    unfold insertKey
    by_cases hkey : isKey key k' = true
    · have hsame : k'.sameKey k = false := by rw [isKey_eq_true hkey, sameKey_str, hk]
      rw [if_neg (by rw [hsame]; decide), get?_cons_of_isKey hkey, get?_cons_of_isKey hkey]
    · have hkey' : isKey key k' = false := (Bool.not_eq_true _).mp hkey
      split
      · rw [get?_cons_of_not_isKey hkey', get?_cons_of_not_isKey hkey']
      · rw [get?_cons_of_not_isKey hkey', get?_cons_of_not_isKey hkey', ih]

/-- Under a key stands what was there, or what came last among entries with distinct keys. -/
theorem get?_foldl_insertKey {xs : Mapping} (hxs : Distinct xs) (m : Mapping) (key : String) :
    get? key (xs.foldl (fun m e => insertKey e.1 e.2 m) m) = (get? key xs).or (get? key m) := by
  induction xs generalizing m with
  | nil => rfl
  | cons x xs ih =>
    obtain ⟨k, v⟩ := x
    rw [List.foldl_cons, ih (List.pairwise_cons.1 hxs).2]
    by_cases hk : isKey key k = true
    · have hlacks := lacks_of_distinct_cons hxs hk
      obtain rfl := isKey_eq_true hk
      have hnone : get? key xs = none := get?_of_lacks hlacks
      rw [hnone, ← insert_eq_insertKey, get?_insert_self, get?_cons_of_isKey hk]
      rfl
    · have hk' : isKey key k = false := (Bool.not_eq_true _).mp hk
      rw [get?_insertKey_of_not_isKey hk', get?_cons_of_not_isKey hk']

end Mapping

namespace Value

/-! ## Copies -/

theorem copyEntries_insert (key : String) (v : Value) (m : Mapping) :
    copyEntries (Mapping.insert key v m) = Mapping.insert key v.copy (copyEntries m) := by
  induction m with
  | nil => rfl
  | cons e m ih =>
    obtain ⟨k, w⟩ := e
    show copyEntries (Mapping.insert key v ((k, w) :: m)) =
      Mapping.insert key v.copy ((k, w.copy) :: copyEntries m)
    rw [Mapping.insert, Mapping.insert]
    split
    · rfl
    · rw [← ih]
      rfl

theorem copyEntries_insertKey (key v : Value) (m : Mapping) :
    copyEntries (Mapping.insertKey key v m) = Mapping.insertKey key v.copy (copyEntries m) := by
  induction m with
  | nil => rfl
  | cons e m ih =>
    obtain ⟨k, w⟩ := e
    show copyEntries (Mapping.insertKey key v ((k, w) :: m)) =
      Mapping.insertKey key v.copy ((k, w.copy) :: copyEntries m)
    rw [Mapping.insertKey, Mapping.insertKey]
    split
    · rfl
    · rw [← ih]
      rfl

/-- Copies put into a copy give a copy. -/
theorem copyEntries_foldl_insertKey {m : Mapping} (hm : copyEntries m = m) (xs : Mapping) :
    copyEntries ((copyEntries xs).foldl (fun m e => Mapping.insertKey e.1 e.2 m) m) =
      (copyEntries xs).foldl (fun m e => Mapping.insertKey e.1 e.2 m) m := by
  induction xs generalizing m with
  | nil => exact hm
  | cons x xs ih =>
    obtain ⟨k, v⟩ := x
    refine ih (m := Mapping.insertKey k v.copy m) ?_
    rw [copyEntries_insertKey, copy_copy, hm]

theorem copyEntries_erase (m : Mapping) (key : String) :
    copyEntries (m.erase key) = Mapping.erase (copyEntries m) key :=
  (Size.filter_copyEntries (fun k => !Mapping.isKey key k) m).symm

end Value

namespace Size

/-! ## Canonical forms -/

theorem copyEntries_withSnapshot (m : Mapping) :
    Value.copyEntries (withSnapshot m) = withSnapshot (Value.copyEntries m) := by
  unfold withSnapshot
  rw [Value.get_copyEntries, Value.isTruthy_copy]
  split
  · rfl
  · rw [Value.copyEntries_insert, ← Value.copyEntries_erase]
    rfl

theorem withSnapshot_of_falsy {m : Mapping} (h : (m.get "original").isTruthy = false) :
    withSnapshot m =
      Mapping.insert "original" (.map (Value.copyEntries (Mapping.erase m "original"))) m :=
  if_neg (by rw [h]; decide)

/-- A snapshot that is there is kept, and an empty one is taken anew as it was. -/
theorem withSnapshot_withSnapshot (m : Mapping) : withSnapshot (withSnapshot m) = withSnapshot m := by
  cases h : (m.get "original").isTruthy with
  | true => rw [withSnapshot_of_truthy h, withSnapshot_of_truthy h]
  | false =>
    cases hsnapshot : ((withSnapshot m).get "original").isTruthy with
    | true => exact withSnapshot_of_truthy hsnapshot
    | false =>
      rw [withSnapshot_of_falsy hsnapshot, withSnapshot_of_falsy h, Mapping.erase_insert_eq,
        Mapping.insert_insert]

/-- The canonical form of a canonical form is its copy. -/
theorem canonical_canonical {cfg cfg' : EngineConfig} {raw : Value} {m : Mapping}
    (h : (canonical cfg raw).result = .ok m) :
    canonical cfg' (.map m) = pure (Value.copyEntries m) := by
  obtain ⟨c, _, rfl⟩ := canonical_eq_ok h
  show (pure (withSnapshot (Value.copyEntries (withSnapshot c))) : Logged Mapping) = _
  rw [copyEntries_withSnapshot, withSnapshot_withSnapshot]

end Size

namespace Value

/-! ## Sizes whose canonical form shares no sequence with them -/

/-- A name, a callable or a step. -/
def IsReference : Value → Prop
  | .str _ | .callable _ | .step _ => True
  | _ => False

/-- A dimension whose value is its own copy, as numbers are and the nothing of an axis without one. -/
def HoldsCopy : Value → Prop
  | .dim _ v => v.copy = v
  | _ => True

/-- No sequence, and no specification with one in its axes or its queue.  These are the only places
where a size is not copied. -/
def Unnested : Value → Prop
  | .list _ | .tuple _ => False
  | .spec w h fs _ _ => w.HoldsCopy ∧ h.HoldsCopy ∧ ∀ f ∈ fs, f.IsReference
  | _ => True

/-- Whether a size brings a snapshot with it. -/
def carriesSnapshot : Value → Bool
  | .map m => (Mapping.get m "original").isTruthy
  | .spec _ _ _ original extras => !original.isEmpty || (Mapping.get extras "original").isTruthy
  | _ => false

/-- No entry for a snapshot, not even for an empty one. -/
def LacksSnapshot : Value → Prop
  | .map m => Mapping.Lacks m "original"
  | .spec _ _ _ original extras => original = [] ∧ Mapping.Lacks extras "original"
  | _ => True

theorem copy_references {fs : List Value} (h : ∀ f ∈ fs, f.IsReference) :
    (Value.list fs).copy = .list fs := by
  have hitems : copyItems fs = fs := by
    induction fs with
    | nil => rfl
    | cons f fs ih =>
      have hf : f.copy = f := by
        cases f with
        | str _ | callable _ | step _ => rfl
        | _ => exact (h _ List.mem_cons_self).elim
      show f.copy :: copyItems fs = f :: fs
      rw [hf, ih fun g hg => h g (List.mem_cons_of_mem f hg)]
  exact congrArg Value.list hitems

end Value

namespace Size

/-- The axes and the extras of a specification. -/
def axesWith (width height : Value) (extras : Mapping) : Mapping :=
  (Value.copyEntries extras).foldl (fun m e => Mapping.insertKey e.1 e.2 m)
    [(.str "width", width), (.str "height", height)]

/-- The axes, the extras and the queue of a specification. -/
def queuedWith (width height : Value) (functions : List Value) (extras : Mapping) : Mapping :=
  if functions.isEmpty then axesWith width height extras
  else Mapping.insert "function" (.list functions) (axesWith width height extras)

/-- What the canonical form of a specification is made of. -/
theorem ofSpec_eq_ok {width height : Value} {fs : List Value} {o x m : Mapping}
    (h : ofSpec width height fs o x = .ok m) :
    ∃ w h', axisMapping width = .ok w ∧ axisMapping height = .ok h' ∧
      m = if o.isEmpty then queuedWith w h' fs x
        else Mapping.insert "original" (.map (Value.copyEntries o)) (queuedWith w h' fs x) := by
  unfold ofSpec at h
  cases hw : axisMapping width with
  | error f =>
    rw [hw] at h
    cases h
  | ok w =>
    cases hh : axisMapping height with
    | error f =>
      rw [hw, hh] at h
      cases h
    | ok h' =>
      rw [hw, hh] at h
      exact ⟨w, h', rfl, rfl, (Except.ok.inj h).symm⟩

theorem copy_axisMapping {axis w : Value} (haxis : axis.HoldsCopy) (h : axisMapping axis = .ok w) :
    w.copy = w := by
  cases axis with
  | dim u v =>
    cases h
    have hv : v.copy = v := haxis
    show Value.map [(.str "unit", .str u.text), (.str "value", v.copy)] = _
    rw [hv]
    rfl
  | pixels p =>
    cases h
    rfl
  | _ => cases h

section Specification

variable {w h : Value} {fs : List Value} {x : Mapping}

theorem copyEntries_queuedWith (hw : w.copy = w) (hh : h.copy = h) (hfs : ∀ f ∈ fs, f.IsReference)
    (x : Mapping) : Value.copyEntries (queuedWith w h fs x) = queuedWith w h fs x := by
  have haxes : Value.copyEntries (axesWith w h x) = axesWith w h x := by
    refine Value.copyEntries_foldl_insertKey ?_ x
    show [(Value.str "width", w.copy), (.str "height", h.copy)] = _
    rw [hw, hh]
  unfold queuedWith
  split
  · exact haxes
  · rw [Value.copyEntries_insert, Value.copy_references hfs, haxes]

theorem distinct_axesWith (w h : Value) (x : Mapping) : Mapping.Distinct (axesWith w h x) := by
  refine Mapping.Distinct.foldl_insertKey ?_ _
  refine List.pairwise_cons.2 ⟨?_, List.pairwise_singleton _ _⟩
  intro e he
  cases List.mem_singleton.1 he
  rfl

theorem distinct_queuedWith (w h : Value) (fs : List Value) (x : Mapping) :
    Mapping.Distinct (queuedWith w h fs x) := by
  unfold queuedWith
  split
  · exact distinct_axesWith w h x
  · exact (distinct_axesWith w h x).insert _ _

theorem get_original_queuedWith (hx : Mapping.Distinct x) :
    (queuedWith w h fs x).get "original" = (Mapping.get x "original").copy := by
  have haxes : (axesWith w h x).get "original" = (Mapping.get x "original").copy := by
    rw [← Value.get_copyEntries]
    unfold Mapping.get axesWith
    rw [Mapping.get?_foldl_insertKey (Mapping.Distinct.copyEntries hx)]
    exact congrArg (Option.getD · Value.nothing) Option.or_none
  unfold queuedWith
  split
  · exact haxes
  · rw [Mapping.get_insert_of_ne (by decide), haxes]

theorem lacks_original_axes (w h : Value) :
    Mapping.Lacks [(.str "width", w), (.str "height", h)] "original" := by
  intro e he
  rcases List.mem_cons.1 he with rfl | he
  · rfl
  · cases List.mem_singleton.1 he
    rfl

theorem lacks_original_queuedWith (hx : Mapping.Lacks x "original") :
    Mapping.Lacks (queuedWith w h fs x) "original" := by
  have haxes : Mapping.Lacks (axesWith w h x) "original" :=
    Mapping.lacks_foldl_insertKey (lacks_original_axes w h) (Mapping.lacks_copyEntries hx)
  unfold queuedWith
  split
  · exact haxes
  · exact Mapping.lacks_insert haxes (by decide) _

end Specification

/-! ## What a snapshot is added to -/

section Entries

variable {cfg : EngineConfig} {raw : Value} {m : Mapping}

/-- It is a copy already. -/
theorem copyEntries_entries (hraw : raw.Unnested) (h : (entries cfg raw).result = .ok m) :
    Value.copyEntries m = m := by
  cases raw with
  | map entries =>
    cases h
    exact Value.copyEntries_copyEntries entries
  | str text => rcases ofText_eq_ok h with rfl | ⟨w, h', rfl⟩ <;> rfl
  | list _ | tuple _ => exact hraw.elim
  | spec width height fs o x =>
    obtain ⟨hwidth, hheight, hfs⟩ := hraw
    obtain ⟨w, h', hw, hh, rfl⟩ := ofSpec_eq_ok (Logged.ofFaulty_result_eq_ok_iff.1 h)
    have hqueued := copyEntries_queuedWith (copy_axisMapping hwidth hw)
      (copy_axisMapping hheight hh) hfs x
    split
    · exact hqueued
    · rw [Value.copyEntries_insert, hqueued]
      exact congrArg (Mapping.insert "original" · _)
        (congrArg Value.map (Value.copyEntries_copyEntries o))
  | _ =>
    cases h
    rfl

/-- Its keys are distinct. -/
theorem distinct_entries (hkeys : raw.HasDistinctKeys) (h : (entries cfg raw).result = .ok m) :
    Mapping.Distinct m := by
  have hpair : ∀ w h : Value, Mapping.Distinct [(.str "width", w), (.str "height", h)] :=
    fun w h => distinct_axesWith w h []
  cases raw with
  | map entries =>
    cases h
    exact Mapping.Distinct.copyEntries hkeys
  | str text =>
    rcases ofText_eq_ok h with rfl | ⟨w, h', rfl⟩
    · exact List.pairwise_singleton _ _
    · exact hpair _ _
  | spec width height fs o x =>
    obtain ⟨w, h', -, -, rfl⟩ := ofSpec_eq_ok (Logged.ofFaulty_result_eq_ok_iff.1 h)
    split
    · exact distinct_queuedWith w h' fs x
    · exact (distinct_queuedWith w h' fs x).insert _ _
  | nothing =>
    cases h
    exact List.Pairwise.nil
  | _ =>
    cases h
    exact List.pairwise_singleton _ _

/-- It has a snapshot if the size carries one. -/
theorem isTruthy_original_entries (hkeys : raw.HasDistinctKeys)
    (h : (entries cfg raw).result = .ok m) :
    (m.get "original").isTruthy = raw.carriesSnapshot := by
  cases raw with
  | map entries =>
    cases h
    rw [Value.get_copyEntries, Value.isTruthy_copy]
    rfl
  | str text => rcases ofText_eq_ok h with rfl | ⟨w, h', rfl⟩ <;> rfl
  | spec width height fs o x =>
    obtain ⟨w, h', -, -, rfl⟩ := ofSpec_eq_ok (Logged.ofFaulty_result_eq_ok_iff.1 h)
    unfold Value.carriesSnapshot
    cases ho : o with
    | nil =>
      rw [if_pos List.isEmpty_nil, get_original_queuedWith hkeys, Value.isTruthy_copy]
      rfl
    | cons e o =>
      rw [if_neg (by simp), Mapping.get_insert_self]
      rfl
  | _ =>
    cases h
    rfl

/-- It has no entry for a snapshot if the size has none. -/
theorem lacks_original_entries (hraw : raw.LacksSnapshot) (h : (entries cfg raw).result = .ok m) :
    Mapping.Lacks m "original" := by
  have hwidthOnly : ∀ v, Mapping.Lacks (widthOnly v) "original" := by
    intro v e he
    cases List.mem_singleton.1 he
    rfl
  cases raw with
  | map entries =>
    cases h
    exact Mapping.lacks_copyEntries hraw
  | str text =>
    rcases ofText_eq_ok h with rfl | ⟨w, h', rfl⟩
    · exact hwidthOnly _
    · exact lacks_original_axes _ _
  | spec width height fs o x =>
    obtain ⟨rfl, hx⟩ := hraw
    obtain ⟨w, h', -, -, rfl⟩ := ofSpec_eq_ok (Logged.ofFaulty_result_eq_ok_iff.1 h)
    exact lacks_original_queuedWith hx
  | nothing =>
    cases h
    exact nofun
  | _ =>
    cases h
    exact hwidthOnly _

end Entries

/-! ## Elaborating again -/

section Again

variable {cfg : EngineConfig} {raw : Value} {m : Mapping}

/-- The canonical form of an unnested size is its own canonical form. -/
theorem canonical_canonical_of_unnested (hraw : raw.Unnested) (h : (canonical cfg raw).result = .ok m) :
    canonical cfg (.map m) = pure m := by
  obtain ⟨c, hc, rfl⟩ := canonical_eq_ok h
  rw [canonical_canonical h, copyEntries_withSnapshot, copyEntries_entries hraw hc]

/-- The snapshot of an unnested size has the same canonical form, up to the place of the snapshot. -/
theorem canonical_snapshot (hraw : raw.Unnested) (hkeys : raw.HasDistinctKeys)
    (hcarries : raw.carriesSnapshot = false) (h : (canonical cfg raw).result = .ok m) :
    m.get "original" = .map (m.erase "original") ∧
      ∃ m', canonical cfg (.map (m.erase "original")) = pure m' ∧ m'.Perm m ∧
        (raw.LacksSnapshot → m' = m) := by
  obtain ⟨c, hc, rfl⟩ := canonical_eq_ok h
  have hcopied := copyEntries_entries hraw hc
  have hfalsy : (c.get "original").isTruthy = false := by
    rw [isTruthy_original_entries hkeys hc, hcarries]
  have hsnapshot : Value.copyEntries (c.erase "original") = c.erase "original" := by
    rw [Value.copyEntries_erase, hcopied]
  have hform : withSnapshot c = Mapping.insert "original" (.map (c.erase "original")) c := by
    rw [withSnapshot_of_falsy hfalsy, hsnapshot]
  have hlacks := Mapping.lacks_erase c "original"
  have herase : (withSnapshot c).erase "original" = c.erase "original" := by
    rw [hform, Mapping.erase_insert_eq]
  have hagain : canonical cfg (.map (c.erase "original")) =
      pure (Mapping.insert "original" (.map (c.erase "original")) (c.erase "original")) := by
    show (pure (withSnapshot (Value.copyEntries (c.erase "original"))) : Logged Mapping) = _
    rw [hsnapshot, withSnapshot_of_falsy (by rw [Mapping.get_of_lacks hlacks]; rfl),
      Mapping.erase_of_lacks hlacks, hsnapshot]
  rw [herase]
  refine ⟨by rw [hform, Mapping.get_insert_self], _, hagain, ?_, ?_⟩
  · rw [hform]
    exact Mapping.perm_insert_erase (distinct_entries hkeys hc) _ _
  · intro hnone
    rw [hform, Mapping.erase_of_lacks (lacks_original_entries hnone hc)]

end Again

end Size

end ImageSizing
