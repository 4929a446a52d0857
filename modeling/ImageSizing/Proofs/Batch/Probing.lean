import ImageSizing.Proofs.Batch.Outputs

/-!
# Reading a source once

A batch reads the real dimension of a source once and keeps it for the other sizes.
`Batch.runProbing` is the plain batch beside it that reads the source for every pair.  What
is known of a source is what reading it gives (`attempt_probing`) until a pair writes over
its own source, in another size or with a save that fails (`Rereads`).  That takes a batch that
may overwrite (`Worked.apart`).  Where this happens at most at the last size of a source, the
two batches agree (`run_eq_runProbing`).
-/

namespace ImageSizing

/-- Whether a pair wrote over its own source, in another size than the source had. -/
def Report.resizesSource (u : FileTree) (r : Report) : Bool :=
  match r.outcome with
  | .ok s => decide (u.look r.source = u.look s.destination) &&
      !(s.real.width == .int s.target.width && s.real.height == .int s.target.height)
  | .error _ => false

theorem Report.resizesSource_of_ok {u : FileTree} {r : Report} {s : Saved} (h : r.outcome = .ok s) :
    r.resizesSource u = true ↔ u.look r.source = u.look s.destination ∧
      ¬(s.real.width = .int s.target.width ∧ s.real.height = .int s.target.height) := by
  unfold resizesSource
  rw [h]
  simp [imp_iff_not_or]

/-- A source that stays as it is has the real dimension that it had. -/
theorem FileTree.probe_keeps {t u : FileTree} (hk : t.Keeps u) {path : String} {real : RealDimension}
    (h : t.probe path = .ok real) : u.probe path = .ok real := by
  obtain ⟨l, p, hlook, hmake⟩ := probe_eq_ok.1 h
  exact probe_eq_ok.2 ⟨l, p, look_found hk hlook, hmake⟩

namespace Batch

/-! ## The plain batch -/

/-- Works through pairs, reading the source of each. -/
def probePairs (b : Batch) : FileTree → List (String × Value) → BatchRun
  | t, [] => ⟨t, [], none⟩
  | t, (source, size) :: rest =>
    let a := Pair.attempt b.library t b.engine b.options b.folder source size none
    let r := report source size a
    if r.isTellable then (probePairs b a.tree rest).push r
    else ⟨a.tree, [r], some (.fault .numberTooLong)⟩

/-- Makes the folder of a batch and works through all pairs, reading the source of each. -/
def runProbing (b : Batch) (t : FileTree) (sources : List String) : BatchRun :=
  match t.makeFolders b.folder with
  | (made, some f) => ⟨made, [], some (.fault (.file f))⟩
  | (made, none) => b.probePairs made (b.pairs sources)

variable {b : Batch}

/-- The pair that reads its source, of the plain batch. -/
abbrev probing (b : Batch) (t : FileTree) (source : String) (size : Value) : Attempt :=
  Pair.attempt b.library t b.engine b.options b.folder source size none

theorem probePairs_cons (t : FileTree) (source : String) (size : Value)
    (rest : List (String × Value)) :
    b.probePairs t ((source, size) :: rest) =
      if (report source size (b.probing t source size)).isTellable then
        (b.probePairs (b.probing t source size).tree rest).push
          (report source size (b.probing t source size))
      else ⟨(b.probing t source size).tree, [report source size (b.probing t source size)],
        some (.fault .numberTooLong)⟩ := rfl

/-- The pairs that follow are worked through if those before them did not stop the batch. -/
theorem probePairs_append (t : FileTree) (ps qs : List (String × Value)) :
    b.probePairs t (ps ++ qs) =
      match (b.probePairs t ps).failure with
      | some _ => b.probePairs t ps
      | none => (b.probePairs (b.probePairs t ps).tree qs).append (b.probePairs t ps).reports := by
  induction ps generalizing t with
  | nil => rfl
  | cons p rest ih =>
    obtain ⟨source, size⟩ := p
    rw [List.cons_append, probePairs_cons, probePairs_cons]
    by_cases htell : (report source size (b.probing t source size)).isTellable = true
    · rw [if_pos htell, if_pos htell, ih]
      unfold BatchRun.push
      dsimp only
      split <;> rfl
    · rw [if_neg htell, if_neg htell]

/-! ## One pair -/

/-- A pair whose source is known as it is comes to the same as one that reads it. -/
theorem attempt_probing {t : FileTree} {source : String} {known : Option RealDimension}
    (h : realOf t source known = t.probe source) (size : Value) :
    b.probing t source size = b.attempt t source known size := by
  unfold probing
  cases hprobe : t.probe source with
  | error f =>
    rw [attempt_unread (h.trans hprobe), Pair.attempt_unplanned (by rw [Pair.plan_unprobed hprobe]),
      Pair.plan_unprobed hprobe]
  | ok real =>
    rw [attempt_read (h.trans hprobe)]
    unfold Pair.attempt
    rw [Pair.plan_probed hprobe]
    rfl

/-- What is known of a source stays what reading it would give, over a pair that does not write
over the source in another size. -/
def Rereads (b : Batch) : Prop :=
  ∀ (t : FileTree) (source : String) (known : Option RealDimension) (size : Value),
    realOf t source known = t.probe source →
    (∀ s, (b.attempt t source known size).result = .ok s →
      (b.attempt t source known size).tree.look source =
        (b.attempt t source known size).tree.look s.destination →
      s.real.width = .int s.target.width ∧ s.real.height = .int s.target.height) →
    realOf (b.attempt t source known size).tree source (knownAfter t source known) =
      (b.attempt t source known size).tree.probe source

/-- A source is known as it is after a pair that did not write over it in another size. -/
theorem probe_after (hsizes : b.library.KeepsSizes) {t : FileTree} {source : String}
    {known : Option RealDimension} {size : Value} {s : Saved}
    (hknown : realOf t source known = t.probe source)
    (h : (b.attempt t source known size).result = .ok s)
    (hkept : (b.attempt t source known size).tree.look source =
      (b.attempt t source known size).tree.look s.destination →
        s.real.width = .int s.target.width ∧ s.real.height = .int s.target.height) :
    (b.attempt t source known size).tree.probe source = .ok s.real := by
  obtain ⟨here, old, hlook, hmake⟩ :=
    FileTree.probe_eq_ok.1 (hknown.symm.trans (attempt_eq_ok h).1)
  obtain ⟨there, new, hfolder, hput, hnew, hsize⟩ := attempt_put h
  obtain ⟨e, hold, hnow, -, hwalk⟩ :=
    FileTree.look_file (keepsKinds_attempt b t source known size) Entry.noConfusion hlook
  rw [hput, FileTree.at?_put t (FileTree.ne_nil_of_not_folder hfolder)] at hnow
  by_cases hsame : here = there
  · -- the picture at the source is the new one, of the size that the old one had
    rw [if_pos hsame] at hnow
    cases hnow
    obtain ⟨hwidth, hheight⟩ := hkept (by rw [hwalk, hnew, hsame])
    rw [← hsize hsizes] at hwidth hheight
    refine FileTree.probe_eq_ok.2 ⟨here, new, hwalk, ?_⟩
    have hmade := s.real.make?_axes
    rw [hwidth, hheight] at hmade
    exact hmade
  · rw [if_neg hsame, hold] at hnow
    cases hnow
    exact FileTree.probe_eq_ok.2 ⟨here, old, hwalk, hmake⟩

/-- A library that keeps sizes and fails clean leaves the source as it is known. -/
theorem rereads_of_failsClean (hclean : b.FailsClean) (hsizes : b.library.KeepsSizes) :
    b.Rereads := by
  intro t source known size hknown hkept
  cases hresult : (b.attempt t source known size).result with
  | error f =>
    rw [attempt_failed hclean hresult]
    cases hreal : realOf t source known with
    | error f' =>
      rw [knownAfter_unread hreal]
      rfl
    | ok real =>
      rw [knownAfter_read hreal, ← hknown, hreal]
      rfl
  | ok s =>
    rw [probe_after hsizes hknown hresult (hkept s hresult),
      knownAfter_read (attempt_eq_ok hresult).1]
    rfl

/-- What was there stays where files may not be overwritten. -/
theorem keeps_attempt (hb : b.options.overwrite = false) (t : FileTree) (source : String)
    (known : Option RealDimension) (size : Value) :
    t.Keeps (b.attempt t source known size).tree := by
  cases hreal : realOf t source known with
  | error f =>
    rw [attempt_unread hreal]
    exact .refl t
  | ok real =>
    rw [attempt_read hreal]
    exact Pair.keeps_attempt hb

/-- A batch that may not overwrite leaves the source as it is known, whatever its library does. -/
theorem rereads_of_kept (hb : b.options.overwrite = false) : b.Rereads := by
  intro t source known size hknown _
  cases hreal : realOf t source known with
  | error f =>
    rw [knownAfter_unread hreal]
    rfl
  | ok real =>
    rw [knownAfter_read hreal,
      FileTree.probe_keeps (keeps_attempt hb t source known size) (hknown.symm.trans hreal)]
    rfl

/-! ## One source -/

theorem runSizes_eq_probePairs (hread : b.Rereads) {t u : FileTree} {source : String}
    {known : Option RealDimension} {sizes : List Value} (hknown : realOf t source known = t.probe source)
    (hu : (b.runSizes source t known sizes).tree.KeepsKinds u)
    (hlast : ∀ i r, (b.runSizes source t known sizes).reports[i]? = some r →
      r.resizesSource u = true → i + 1 = sizes.length) :
    b.runSizes source t known sizes =
      b.probePairs t (sizes.map fun size => (source, size)) := by
  induction sizes generalizing t known with
  | nil => rfl
  | cons size rest ih =>
    rw [runSizes_cons] at hu hlast ⊢
    rw [List.map_cons, probePairs_cons, attempt_probing hknown]
    by_cases htell : (report source size (b.attempt t source known size)).isTellable = true
    · rw [if_pos htell] at hu hlast ⊢
      rw [if_pos htell]
      have hlater : ∀ i r, (b.runSizes source (b.attempt t source known size).tree
          (knownAfter t source known) rest).reports[i]? = some r →
            r.resizesSource u = true → i + 1 = rest.length := by
        intro i r hr hresizes
        exact Nat.succ.inj (hlast (i + 1) r hr hresizes)
      cases rest with
      | nil => rfl
      | cons next rest =>
        refine congrArg (BatchRun.push _) (ih (hread t source known size hknown ?_) hu hlater)
        intro s hok hsame
        by_contra hdiffers
        obtain ⟨there, new, -, -, hnew, -⟩ := attempt_put hok
        have hkinds := (runSizes_worked source (b.attempt t source known size).tree _ _).keepsKinds.trans hu
        have hplace := FileTree.look_same hkinds Entry.noConfusion (hsame.trans hnew) hnew
        have houtcome := outcome_report_of_ok source size hok
        have hlength := hlast 0 _ rfl ((Report.resizesSource_of_ok houtcome).2 ⟨hplace, hdiffers⟩)
        rw [List.length_cons, List.length_cons] at hlength
        omega
    · rw [if_neg htell, if_neg htell]

/-! ## Whole batches -/

/-- Within one source, only the last pair has a number that the number of sizes divides. -/
theorem runSizes_last {t : FileTree} {source : String} {known : Option RealDimension}
    {sizes : List Value} {i : Nat} {r : Report}
    (hr : (b.runSizes source t known sizes).reports[i]? = some r)
    (hdvd : (i + 1) % sizes.length = 0) : i + 1 = sizes.length := by
  have hi := (List.getElem?_eq_some_iff.1 hr).1
  have hlength := length_runSizes_le (b := b) source t known sizes
  have hle := Nat.le_of_dvd (Nat.succ_pos i) (Nat.dvd_of_mod_eq_zero hdvd)
  omega

/-- The pairs of the later sources are numbered on, and the number of sizes divides the number of
one exactly if it divides its number among them. -/
theorem resizesSource_later {t u : FileTree} {source : String} {later : BatchRun}
    (hended : (b.runSizes source t none b.options.sizes).failure = none)
    (hlast : ∀ i r, ((b.runSizes source t none b.options.sizes).reports ++ later.reports)[i]? =
      some r → r.resizesSource u = true → (i + 1) % b.options.sizes.length = 0) :
    ∀ i r, later.reports[i]? = some r → r.resizesSource u = true →
      (i + 1) % b.options.sizes.length = 0 := by
  intro i r hr h
  have hnumber := hlast (b.options.sizes.length + i) r ?_ h
  · rwa [Nat.add_assoc, Nat.add_mod_left] at hnumber
  · rw [← length_runSizes hended, List.getElem?_append_right (Nat.le_add_right _ _),
      Nat.add_sub_cancel_left, hr]

theorem runSources_eq_probePairs (hread : b.Rereads) {t u : FileTree} {sources : List String}
    (hu : (b.runSources t sources).tree.KeepsKinds u)
    (hlast : ∀ i r, (b.runSources t sources).reports[i]? = some r → r.resizesSource u = true →
      (i + 1) % b.options.sizes.length = 0) :
    b.runSources t sources = b.probePairs t (b.pairs sources) := by
  induction sources generalizing t with
  | nil => rfl
  | cons source rest ih =>
    rw [runSources_cons] at hu hlast ⊢
    rw [pairs_cons, probePairs_append]
    cases hfailure : (b.runSizes source t none b.options.sizes).failure with
    | some f =>
      rw [hfailure] at hu hlast
      have hsame := runSizes_eq_probePairs hread rfl hu fun i r hr h =>
        runSizes_last hr (hlast i r hr h)
      rw [← hsame, hfailure]
    | none =>
      rw [hfailure] at hu hlast
      have hkinds : (b.runSizes source t none b.options.sizes).tree.KeepsKinds u :=
        (runSources_worked _ rest).keepsKinds.trans hu
      have hsame := runSizes_eq_probePairs hread rfl hkinds fun i r hr h =>
        runSizes_last hr
          (hlast i r (List.getElem?_append_left (List.getElem?_eq_some_iff.1 hr).1 ▸ hr) h)
      rw [← hsame, hfailure]
      exact congrArg (BatchRun.append _) (ih hu (resizesSource_later hfailure hlast))

/-! ## Batches that may not overwrite -/

/-- The output of a pair that may not overwrite is apart from its source ever after. -/
theorem attempt_apart (hb : b.options.overwrite = false) {t u : FileTree} {source : String}
    {size : Value} {known : Option RealDimension} {s : Saved}
    (h : (b.attempt t source known size).result = .ok s)
    (hu : (b.attempt t source known size).tree.KeepsKinds u) :
    u.look source ≠ u.look s.destination := by
  have hkinds := (keepsKinds_attempt b t source known size).trans hu
  have hsame := (attempt_eq_ok h).2
  rw [hsame] at h hu
  obtain ⟨p, hplan, hs, picture, q, n, hopen, -, hsave⟩ := Pair.attempt_eq_ok h
  obtain ⟨here, hlook⟩ := FileTree.openPicture_eq_ok.1 hopen
  have hpath : t.hasPath s.destination = false := by
    rw [hs]
    exact Pair.plan_free hb hplan
  obtain ⟨there, stored, -, hfree, -, hnew⟩ := FileTree.savePicture_of_free hpath hsave
  obtain ⟨e, hold, -, -, hsource⟩ := FileTree.look_file hkinds Entry.noConfusion hlook
  obtain ⟨e', -, -, -, hdestination⟩ := FileTree.look_file hu Entry.noConfusion hnew
  rw [hsource, hdestination]
  intro hsame
  rw [(Place.found.inj hsame).1, hfree] at hold
  cases hold

theorem Worked.apart (hb : b.options.overwrite = false) {t u : FileTree} {rs : List Report}
    (h : Worked b t rs u) : ∀ r ∈ rs, r.resizesSource u = false := by
  intro r hr
  cases outcome : r.outcome with
  | error f =>
    unfold Report.resizesSource
    rw [outcome]
  | ok s =>
    obtain ⟨before, hattempt, hlater⟩ := h.attempted r hr s outcome
    rw [← Bool.not_eq_true, Report.resizesSource_of_ok outcome]
    exact fun ⟨hsame, _⟩ => attempt_apart hb hattempt hlater hsame

/-- A batch comes to the same as the plain batch, which reads the source for every pair, in
tree, reports and end, provided that with overwriting failed saves change nothing, the library
keeps sizes, and no pair but that of a last size leaves its source in another size than it
had. -/
theorem run_eq_runProbing (b : Batch) (t : FileTree) (sources : List String)
    (h : b.options.overwrite = true → b.library.FailsClean ∧ b.library.KeepsSizes ∧
      ∀ i r, (b.run t sources).reports[i]? = some r →
        r.resizesSource (b.run t sources).tree = true → (i + 1) % b.options.sizes.length = 0) :
    b.run t sources = b.runProbing t sources := by
  have hsteady : b.Rereads ∧ ∀ i r, (b.run t sources).reports[i]? = some r →
      r.resizesSource (b.run t sources).tree = true → (i + 1) % b.options.sizes.length = 0 := by
    cases hb : b.options.overwrite with
    | true =>
      obtain ⟨hclean, hsizes, hlast⟩ := h hb
      exact ⟨rereads_of_failsClean (.inl hclean) hsizes, hlast⟩
    | false =>
      refine ⟨rereads_of_kept hb, ?_⟩
      intro i r hr hresizes
      rw [(run_worked b t sources).apart hb r (List.mem_of_getElem? hr)] at hresizes
      cases hresizes
  obtain ⟨hread, hlast⟩ := hsteady
  unfold runProbing
  rcases hmade : t.makeFolders b.folder with ⟨made, _ | f⟩
  · rw [run_made hmade] at hlast ⊢
    exact runSources_eq_probePairs hread (.refl _) hlast
  · exact run_unmade hmade sources

/-- A batch that writes over its source, at some sizes. -/
def inPlace (sizes : List Value) : Batch :=
  ⟨{}, { sizes, nameTemplate := "{name}", overwrite := true }, ".", .plain⟩

def square : FileTree := ⟨[(["a.png"], .picture ⟨4, 4, "RGB", .png, []⟩)], []⟩

/-- The source is written over in its own size first and in another size last. -/
theorem run_eq_runProbing_inPlace :
    ((inPlace [.str "100%", .str "50%"]).run square ["a.png"]).reports.map
      (Report.resizesSource ((inPlace [.str "100%", .str "50%"]).run square ["a.png"]).tree) =
        [false, true] ∧
    (inPlace [.str "100%", .str "50%"]).run square ["a.png"] =
      (inPlace [.str "100%", .str "50%"]).runProbing square ["a.png"] := by
  have hresizes : ((inPlace [.str "100%", .str "50%"]).run square ["a.png"]).reports.map
      (Report.resizesSource ((inPlace [.str "100%", .str "50%"]).run square ["a.png"]).tree) =
        [false, true] := by decide +kernel
  refine ⟨hresizes, run_eq_runProbing _ _ _ fun _ =>
    ⟨PictureLibrary.failsClean_plain, PictureLibrary.keepsSizes_plain, ?_⟩⟩
  intro i r hr hresized
  have hi : ([false, true] : List Bool)[i]? = some true := by
    rw [← hresizes, List.getElem?_map, hr, ← hresized]
    rfl
  match i with
  | 0 => cases hi
  | 1 => rfl
  | i + 2 => cases hi

/-- Once the source is halved, what is known of it is not what it is any more. -/
theorem inPlace_differs :
    ((inPlace [.str "50%", .str "50%"]).run square ["a.png"]).saved.map Saved.target =
      [⟨2, 2⟩, ⟨2, 2⟩] ∧
    ((inPlace [.str "50%", .str "50%"]).runProbing square ["a.png"]).saved.map Saved.target =
      [⟨2, 2⟩, ⟨1, 1⟩] ∧
    (inPlace [.str "50%", .str "50%"]).run square ["a.png"] ≠
      (inPlace [.str "50%", .str "50%"]).runProbing square ["a.png"] := by
  have hcached : ((inPlace [.str "50%", .str "50%"]).run square ["a.png"]).saved.map Saved.target =
      [⟨2, 2⟩, ⟨2, 2⟩] := by decide +kernel
  have hplain : ((inPlace [.str "50%", .str "50%"]).runProbing square ["a.png"]).saved.map
      Saved.target = [⟨2, 2⟩, ⟨1, 1⟩] := by decide +kernel
  refine ⟨hcached, hplain, ?_⟩
  intro hsame
  rw [hsame, hplain] at hcached
  exact absurd hcached (by decide)

end Batch

end ImageSizing
