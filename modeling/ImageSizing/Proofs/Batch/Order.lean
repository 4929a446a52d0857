import ImageSizing.Batch.Run

/-!
# The order of a batch

The reports of a batch are about its pairs, source after source and size after size, none
left out and none twice (`runSources_traverses`).  A batch that makes its folder gets to the
last of them, or it stops at the first pair that failed at a size without a text
(`Traverses`).
-/

namespace ImageSizing

/-- What a report is about. -/
def Report.pair (r : Report) : String × Value := (r.source, r.size)

/-- The pairs of a run that can be told. -/
def BatchRun.told (run : BatchRun) : List Report := run.reports.filter Report.isTellable

/-- A run that reports on pairs in their order: on all of them, or up to the first that
cannot be told. -/
inductive BatchRun.Traverses (run : BatchRun) (ps : List (String × Value)) : Prop
  | through (ended : run.failure = none) (order : run.reports.map Report.pair = ps)
      (tellable : ∀ r ∈ run.reports, r.isTellable = true)
  | stopped (told : List Report) (last : Report) (left : List (String × Value))
      (ended : run.failure = some (.fault .numberTooLong)) (reports : run.reports = told ++ [last])
      (order : run.reports.map Report.pair ++ left = ps)
      (tellable : ∀ r ∈ told, r.isTellable = true) (untellable : last.isTellable = false)

namespace BatchRun.Traverses

variable {run : BatchRun} {ps qs : List (String × Value)}

theorem append {before : List Report} (h : run.Traverses ps)
    (hbefore : ∀ r ∈ before, r.isTellable = true) :
    (run.append before).Traverses (before.map Report.pair ++ ps) := by
  cases h with
  | through ended order tellable =>
    refine .through ended ?_ ?_
    · show (before ++ run.reports).map Report.pair = _
      rw [List.map_append, order]
    · intro r hr
      rcases List.mem_append.1 hr with hr | hr
      · exact hbefore r hr
      · exact tellable r hr
  | stopped told last left ended reports order tellable untellable =>
    refine .stopped (before ++ told) last left ended ?_ ?_ ?_ untellable
    · show before ++ run.reports = _
      rw [reports, List.append_assoc]
    · show (before ++ run.reports).map Report.pair ++ left = _
      rw [List.map_append, List.append_assoc, order]
    · intro r hr
      rcases List.mem_append.1 hr with hr | hr
      · exact hbefore r hr
      · exact tellable r hr

/-- A run that stops early is not about the pairs that would follow. -/
theorem of_stopped {f : Failure} (h : run.Traverses ps) (hf : run.failure = some f)
    (qs : List (String × Value)) : run.Traverses (ps ++ qs) := by
  cases h with
  | through ended order tellable =>
    rw [ended] at hf
    cases hf
  | stopped told last left ended reports order tellable untellable =>
    refine .stopped told last (left ++ qs) ended reports ?_ tellable untellable
    rw [← order, List.append_assoc]

theorem of_ended (h : run.Traverses ps) (hf : run.failure = none) :
    run.reports.map Report.pair = ps ∧ ∀ r ∈ run.reports, r.isTellable = true := by
  cases h with
  | through ended order tellable => exact ⟨order, tellable⟩
  | stopped told last left ended reports order tellable untellable =>
    rw [ended] at hf
    cases hf

/-- The pair that a report is about. -/
theorem getElem?_pair (h : run.Traverses ps) {i : Nat} {r : Report} (hr : run.reports[i]? = some r) :
    ps[i]? = some r.pair := by
  have hpair : (run.reports.map Report.pair)[i]? = some r.pair := by
    rw [List.getElem?_map, hr]
    rfl
  cases h with
  | through ended order tellable => rw [← order, hpair]
  | stopped told last left ended reports order tellable untellable =>
    rw [← order, List.getElem?_append_left (List.getElem?_eq_some_iff.1 hpair).1, hpair]

theorem length_le (h : run.Traverses ps) : run.reports.length ≤ ps.length := by
  cases h with
  | through ended order tellable => exact Nat.le_of_eq (by rw [← order, List.length_map])
  | stopped told last left ended reports order tellable untellable =>
    rw [← order, List.length_append, List.length_map]
    omega

/-- All pairs are told, or all but the last, at which the run stops. -/
theorem ends (h : run.Traverses ps) :
    (run.failure = none ∧ run.told = run.reports ∧ run.reports.length = ps.length) ∨
      (run.failure = some (.fault .numberTooLong) ∧ run.reports.length ≤ ps.length ∧
        ∃ last, run.reports = run.told ++ [last] ∧ last.isTellable = false) := by
  have hlength := h.length_le
  cases h with
  | through ended order tellable =>
    refine .inl ⟨ended, List.filter_eq_self.2 tellable, ?_⟩
    rw [← order, List.length_map]
  | stopped told last left ended reports order tellable untellable =>
    refine .inr ⟨ended, hlength, last, ?_, untellable⟩
    have htold : run.told = told := by
      unfold BatchRun.told
      rw [reports, List.filter_append, List.filter_eq_self.2 tellable,
        List.filter_cons_of_neg (by rw [untellable]; exact Bool.false_ne_true), List.filter_nil,
        List.append_nil]
    rw [htold, reports]

theorem failure_eq_none_iff (h : run.Traverses ps) :
    run.failure = none ↔ ∀ r ∈ run.reports, r.isTellable = true := by
  rcases h.ends with ⟨hend, htold, -⟩ | ⟨hend, -, last, hreports, huntellable⟩
  · exact iff_of_true hend (List.filter_eq_self.1 htold)
  · refine iff_of_false (by rw [hend]; nofun) ?_
    intro hall
    have hlast := hall last (by rw [hreports]; exact List.mem_append_right _ (List.mem_singleton_self last))
    rw [huntellable] at hlast
    cases hlast

theorem getElem?_told (h : run.Traverses ps) {i : Nat} {r : Report} (hr : run.told[i]? = some r) :
    run.reports[i]? = some r := by
  rcases h.ends with ⟨-, htold, -⟩ | ⟨-, -, last, hreports, -⟩
  · rw [← htold, hr]
  · rw [hreports, List.getElem?_append_left (List.getElem?_eq_some_iff.1 hr).1, hr]

end BatchRun.Traverses

namespace Batch

variable {b : Batch}

/-- The pairs of a batch, source after source. -/
def pairs (b : Batch) (sources : List String) : List (String × Value) :=
  sources.flatMap fun source => b.options.sizes.map fun size => (source, size)

theorem pairs_cons (b : Batch) (source : String) (rest : List String) :
    b.pairs (source :: rest) =
      (b.options.sizes.map fun size => (source, size)) ++ b.pairs rest :=
  List.flatMap_cons

theorem length_pairs (b : Batch) (sources : List String) :
    (b.pairs sources).length = b.total sources := by
  unfold total
  induction sources with
  | nil => exact (Nat.zero_mul _).symm
  | cons source rest ih =>
    rw [pairs_cons, List.length_append, List.length_map, ih, List.length_cons, Nat.succ_mul,
      Nat.add_comm]

/-- Pair number `i` is that of the source and the size whose numbers are the quotient and the
remainder of `i` by the number of sizes. -/
theorem getElem?_pairs {sources : List String} {i : Nat} {source : String} {size : Value}
    (h : (b.pairs sources)[i]? = some (source, size)) :
    sources[i / b.options.sizes.length]? = some source ∧
      b.options.sizes[i % b.options.sizes.length]? = some size := by
  induction sources generalizing i with
  | nil => cases h
  | cons first rest ih =>
    have hpos : 0 < b.options.sizes.length := by
      have hlt := (List.getElem?_eq_some_iff.1 h).1
      rw [length_pairs] at hlt
      exact Nat.pos_of_mul_pos_left (Nat.zero_lt_of_lt hlt)
    rw [pairs_cons] at h
    by_cases hi : i < b.options.sizes.length
    · rw [List.getElem?_append_left (by rwa [List.length_map]), List.getElem?_map,
        List.getElem?_eq_getElem hi] at h
      cases h
      rw [Nat.div_eq_of_lt hi, Nat.mod_eq_of_lt hi]
      exact ⟨rfl, List.getElem?_eq_getElem hi⟩
    · rw [List.getElem?_append_right (by rw [List.length_map]; omega), List.length_map] at h
      obtain ⟨hsource, hsize⟩ := ih h
      rw [Nat.div_eq_sub_div hpos (by omega), Nat.mod_eq_sub_mod (by omega)]
      exact ⟨hsource, hsize⟩

/-! ## Runs -/

theorem run_made {t made : FileTree} (h : t.makeFolders b.folder = (made, none))
    (sources : List String) : b.run t sources = b.runSources made sources := by
  unfold run
  rw [h]

theorem run_unmade {t made : FileTree} {f : FileFault}
    (h : t.makeFolders b.folder = (made, some f)) (sources : List String) :
    b.run t sources = ⟨made, [], some (.fault (.file f))⟩ := by
  unfold run
  rw [h]

theorem runSizes_cons (t : FileTree) (source : String) (known : Option RealDimension) (size : Value)
    (rest : List Value) :
    b.runSizes source t known (size :: rest) =
      if (report source size (b.attempt t source known size)).isTellable then
        (b.runSizes source (b.attempt t source known size).tree
          (knownAfter t source known) rest).push (report source size (b.attempt t source known size))
      else ⟨(b.attempt t source known size).tree,
        [report source size (b.attempt t source known size)], some (.fault .numberTooLong)⟩ := rfl

theorem runSources_cons (t : FileTree) (source : String) (rest : List String) :
    b.runSources t (source :: rest) =
      match (b.runSizes source t none b.options.sizes).failure with
      | some _ => b.runSizes source t none b.options.sizes
      | none => (b.runSources (b.runSizes source t none b.options.sizes).tree rest).append
          (b.runSizes source t none b.options.sizes).reports := rfl

theorem runSizes_traverses (source : String) (t : FileTree) (known : Option RealDimension)
    (sizes : List Value) :
    (b.runSizes source t known sizes).Traverses (sizes.map fun size => (source, size)) := by
  induction sizes generalizing t known with
  | nil => exact .through rfl rfl (List.forall_mem_nil _)
  | cons size rest ih =>
    rw [runSizes_cons]
    by_cases htell : (report source size (b.attempt t source known size)).isTellable = true
    · rw [if_pos htell]
      have happend := (ih (b.attempt t source known size).tree
        (knownAfter t source known)).append (List.forall_mem_singleton.2 htell)
      exact happend
    · rw [if_neg htell]
      exact .stopped [] _ (rest.map fun size => (source, size)) rfl rfl rfl
        (List.forall_mem_nil _) (Bool.eq_false_iff.2 htell)

theorem length_runSizes_le (source : String) (t : FileTree) (known : Option RealDimension)
    (sizes : List Value) : (b.runSizes source t known sizes).reports.length ≤ sizes.length := by
  have hle := (runSizes_traverses (b := b) source t known sizes).length_le
  rwa [List.length_map] at hle

theorem length_runSizes {source : String} {t : FileTree} {known : Option RealDimension}
    {sizes : List Value} (h : (b.runSizes source t known sizes).failure = none) :
    (b.runSizes source t known sizes).reports.length = sizes.length := by
  have horder := congrArg List.length ((runSizes_traverses source t known sizes).of_ended h).1
  rwa [List.length_map, List.length_map] at horder

theorem runSources_traverses (t : FileTree) (sources : List String) :
    (b.runSources t sources).Traverses (b.pairs sources) := by
  induction sources generalizing t with
  | nil => exact .through rfl rfl (List.forall_mem_nil _)
  | cons source rest ih =>
    have hfirst := runSizes_traverses (b := b) source t none b.options.sizes
    rw [runSources_cons, pairs_cons]
    cases hended : (b.runSizes source t none b.options.sizes).failure with
    | some f => exact hfirst.of_stopped hended _
    | none =>
      obtain ⟨horder, htellable⟩ := hfirst.of_ended hended
      rw [← horder]
      exact (ih _).append htellable

/-- Reports are about the pairs of the batch. -/
theorem mem_of_report {t : FileTree} {sources : List String} {r : Report}
    (h : r ∈ (b.run t sources).reports) : r.source ∈ sources ∧ r.size ∈ b.options.sizes := by
  rcases hmade : t.makeFolders b.folder with ⟨made, _ | f⟩
  · rw [run_made hmade] at h
    obtain ⟨i, hi⟩ := List.mem_iff_getElem?.1 h
    have hpair := List.mem_of_getElem? ((runSources_traverses made sources).getElem?_pair hi)
    obtain ⟨source, hsource, hmem⟩ := List.mem_flatMap.1 hpair
    obtain ⟨size, hsize, hpair⟩ := List.mem_map.1 hmem
    cases hpair
    exact ⟨hsource, hsize⟩
  · rw [run_unmade hmade] at h
    cases h

end Batch

end ImageSizing
