import ImageSizing.Batch.Pair
import ImageSizing.Proofs.Files.FreeNames
import ImageSizing.Proofs.Files.Saving

/-!
# What stands behind an output

An attempt that succeeds has gone through all of its parts: the size was resolved to pixels
that are not empty, a format and a name were found, the source was opened, and the picture
was saved (`attempt_eq_ok`).  One that fails before it saves leaves the tree as it was, and so
does one whose save fails clean (`attempt_failed`).
-/

namespace ImageSizing

open Logged

/-! ## Real dimensions -/

/-- A real dimension is made from its own axes. -/
theorem RealDimension.make?_axes (r : RealDimension) :
    make? (.ofNumber r.width) (.ofNumber r.height) = .ok r := by
  obtain ⟨width, height, hwidth, hheight⟩ := r
  have hw : (Value.ofNumber width).number? = some width := by cases width <;> rfl
  have hh : (Value.ofNumber height).number? = some height := by cases height <;> rfl
  unfold make?
  simp only [hw, hh, hwidth, hheight, dif_pos]

theorem FileTree.probe_eq_ok {t : FileTree} {path : String} {r : RealDimension} :
    t.probe path = .ok r ↔ ∃ l p, t.look path = .found l (.picture p) ∧
      RealDimension.make? (.int p.width) (.int p.height) = .ok r := by
  unfold probe
  constructor
  · intro h
    cases hopen : t.openPicture path with
    | error f =>
      rw [hopen] at h
      cases h
    | ok p =>
      obtain ⟨l, hlook⟩ := openPicture_eq_ok.1 hopen
      refine ⟨l, p, hlook, ?_⟩
      rw [hopen] at h
      change (RealDimension.make? (.int p.width) (.int p.height)).mapError _ = .ok r at h
      cases hmake : RealDimension.make? (.int p.width) (.int p.height) with
      | error f =>
        rw [hmake] at h
        cases h
      | ok made =>
        rw [hmake] at h
        cases h
        rfl
  · rintro ⟨l, p, hlook, hmake⟩
    rw [openPicture_eq_ok.2 ⟨l, hlook⟩]
    show (RealDimension.make? (.int p.width) (.int p.height)).mapError _ = .ok r
    rw [hmake]
    rfl

/-! ## Renderings -/

namespace Rendering

variable {r : Rendering} {p : Picture}

theorem andThen_of_ok (h : r.result = .ok p) (next : Picture → Rendering) :
    r.andThen next = ⟨r.calls ++ (next p).calls, (next p).result⟩ := by
  unfold andThen
  rw [h]

theorem andThen_of_error {f : ForeignFault} (h : r.result = .error f) (next : Picture → Rendering) :
    r.andThen next = ⟨r.calls, .error f⟩ := by
  unfold andThen
  rw [h]

theorem andThen_eq_ok {next : Picture → Rendering} (h : (r.andThen next).result = .ok p) :
    ∃ q, r.result = .ok q ∧ (next q).result = .ok p := by
  cases hfirst : r.result with
  | error f =>
    rw [andThen_of_error hfirst] at h
    cases h
  | ok q =>
    rw [andThen_of_ok hfirst] at h
    exact ⟨q, rfl, h⟩

end Rendering

/-- A picture that is ready to be written has the size that was asked for. -/
theorem Picture.size_rendered {library : PictureLibrary} (hsizes : library.KeepsSizes)
    {p q : Picture} {target : PixelSize} {format : PictureFormat}
    (h : (p.rendered library target format).result = .ok q) : q.size = target := by
  obtain ⟨scaled, hscaled, hconverted⟩ := Rendering.andThen_eq_ok h
  have hsame : q.size = scaled.size := by
    unfold converted at hconverted
    split at hconverted
    · exact hsizes.convert _ _ hconverted
    · cases hconverted
      rfl
  unfold Picture.scaled at hscaled
  split at hscaled
  · rename_i htarget
    cases hscaled
    rw [hsame]
    show (⟨p.width, p.height⟩ : PixelSize) = target
    rw [← htarget.1, ← htarget.2]
  · exact hsame.trans (hsizes.resize _ _ _ _ hscaled)

/-! ## Drawings -/

namespace Drawing

variable {library : PictureLibrary} {t : FileTree} {source destination : String}
  {target : PixelSize} {format : PictureFormat} {quality : Value} {p q : Picture}

theorem draw_unopened {f : FileFault} (h : t.openPicture source = .error f) :
    draw library t source destination target format quality =
      ⟨[], t, .error (.fault (.file f))⟩ := by
  unfold draw
  rw [h]

theorem draw_opened (h : t.openPicture source = .ok p) :
    draw library t source destination target format quality =
      write library t p destination target format quality := by
  unfold draw
  rw [h]

theorem write_unready {f : ForeignFault} (h : (p.rendered library target format).result = .error f) :
    write library t p destination target format quality =
      ⟨(p.rendered library target format).calls, t, .error (.fault (.file (.library f)))⟩ := by
  unfold write
  dsimp only
  rw [h]

theorem write_unencoded {f : Fault} (h : (p.rendered library target format).result = .ok q)
    (hquality : qualityFor format quality = .error f) :
    write library t p destination target format quality =
      ⟨(p.rendered library target format).calls, t, .error (.fault f)⟩ := by
  unfold write
  dsimp only
  rw [h, hquality]

theorem write_ready {n : Option Int} (h : (p.rendered library target format).result = .ok q)
    (hquality : qualityFor format quality = .ok n) :
    write library t p destination target format quality =
      ⟨(p.rendered library target format).calls ++ [.save destination format n],
        (t.savePicture library destination q format n).1,
        outcome (t.savePicture library destination q format n).2⟩ := by
  unfold write
  dsimp only
  rw [h, hquality]
  rfl

/-- What a drawing comes to: it stops before it saves, or it saves a picture that is ready, and
ends as the save does. -/
inductive Draws (library : PictureLibrary) (t : FileTree) (source destination : String)
    (target : PixelSize) (format : PictureFormat) : Drawing → Prop
  | stopped {calls : List RasterCall} {f : Failure} :
      Draws library t source destination target format ⟨calls, t, .error f⟩
  | saved {calls : List RasterCall} {p q : Picture} (n : Option Int)
      (opened : t.openPicture source = .ok p)
      (ready : (p.rendered library target format).result = .ok q) :
      Draws library t source destination target format
        ⟨calls, (t.savePicture library destination q format n).1,
          outcome (t.savePicture library destination q format n).2⟩

theorem draws_draw (library : PictureLibrary) (t : FileTree) (source destination : String)
    (target : PixelSize) (format : PictureFormat) (quality : Value) :
    Draws library t source destination target format
      (draw library t source destination target format quality) := by
  cases hopen : t.openPicture source with
  | error f =>
    rw [draw_unopened hopen]
    exact .stopped
  | ok p =>
    rw [draw_opened hopen]
    cases hready : (p.rendered library target format).result with
    | error f =>
      rw [write_unready hready]
      exact .stopped
    | ok q =>
      cases hquality : qualityFor format quality with
      | error f =>
        rw [write_unencoded hready hquality]
        exact .stopped
      | ok n =>
        rw [write_ready hready hquality]
        exact .saved n hopen hready

end Drawing

/-! ## Pairs -/

namespace Pair

variable {library : PictureLibrary} {t : FileTree} {e : Engine} {o : BatchOptions}
  {folder source : String} {size : Value} {real : RealDimension}

/-- The size of a plan in pixels. -/
def targetOf (e : Engine) (o : BatchOptions) (size : Value) (real : RealDimension) :
    Logged PixelSize := do
  e.toPixels (← e.withFunction size o.function) real

theorem checkTarget_eq_ok {p : PixelSize} {u : Unit} (h : (checkTarget p).result = .ok u) :
    0 < p.width ∧ 0 < p.height := by
  unfold checkTarget at h
  split at h
  · cases h
  · omega

theorem planFor_eq_ok {p : Plan} (h : (planFor t e o folder source size real).result = .ok p) :
    p.real = real ∧ (targetOf e o size real).result = .ok p.target ∧
      0 < p.target.width ∧ 0 < p.target.height ∧
      ∃ ext name, PictureFormat.forChoice source o.formatChoice = .ok (ext, p.format) ∧
        (e.destinationName o.nameTemplate source size).result = .ok name ∧
        p.destination = destination t o.overwrite folder name ext := by
  unfold planFor at h
  obtain ⟨given, hgiven, h⟩ := bind_result_eq_ok_iff.1 h
  obtain ⟨target, htarget, h⟩ := bind_result_eq_ok_iff.1 h
  obtain ⟨_, hcheck, h⟩ := bind_result_eq_ok_iff.1 h
  obtain ⟨⟨ext, format⟩, hformat, h⟩ := bind_result_eq_ok_iff.1 h
  obtain ⟨name, hname, h⟩ := bind_result_eq_ok_iff.1 h
  cases h
  obtain ⟨hwidth, hheight⟩ := checkTarget_eq_ok hcheck
  exact ⟨rfl, bind_result_eq_ok_iff.2 ⟨given, hgiven, htarget⟩, hwidth, hheight, ext, name,
    ofFaulty_result_eq_ok_iff.1 hformat, hname, rfl⟩

/-- Without a known real dimension the one is taken that the source has now. -/
theorem plan_probed {real : RealDimension} (h : t.probe source = .ok real) :
    plan t e o folder source size none = planFor t e o folder source size real := by
  unfold plan
  dsimp only
  rw [h]
  rfl

theorem plan_unprobed {f : Failure} (h : t.probe source = .error f) :
    plan t e o folder source size none = ⟨[], .error f⟩ := by
  unfold plan
  dsimp only
  rw [h]
  rfl

/-- A plan without a known real dimension has the one that the source has. -/
theorem plan_eq_ok {known : Option RealDimension} {p : Plan}
    (h : (plan t e o folder source size known).result = .ok p) :
    (planFor t e o folder source size p.real).result = .ok p := by
  cases known with
  | some real =>
    obtain rfl := (planFor_eq_ok h).1
    exact h
  | none =>
    cases hprobe : t.probe source with
    | error f =>
      rw [plan_unprobed hprobe] at h
      cases h
    | ok real =>
      rw [plan_probed hprobe] at h
      obtain rfl := (planFor_eq_ok h).1
      exact h

theorem destination_free (t : FileTree) (folder name ext : String) :
    t.hasPath (destination t false folder name ext) = false :=
  t.nextAvailable_free (Path.join folder (name ++ "." ++ ext))

/-- A plan that may not overwrite has a free path. -/
theorem plan_free {known : Option RealDimension} {p : Plan} (ho : o.overwrite = false)
    (h : (plan t e o folder source size known).result = .ok p) :
    t.hasPath p.destination = false := by
  obtain ⟨-, -, -, -, ext, name, -, -, hdestination⟩ := planFor_eq_ok (plan_eq_ok h)
  rw [hdestination, ho]
  exact destination_free t folder name ext

theorem attempt_unplanned {known : Option RealDimension} {f : Failure}
    (h : (plan t e o folder source size known).result = .error f) :
    attempt library t e o folder source size known =
      ⟨(plan t e o folder source size known).entries, [], t, .error f⟩ := by
  unfold attempt
  dsimp only
  rw [h]

theorem attempt_planned {known : Option RealDimension} {p : Plan}
    (h : (plan t e o folder source size known).result = .ok p) :
    attempt library t e o folder source size known =
      ⟨(plan t e o folder source size known).entries, (carryOut library t source o.quality p).calls,
        (carryOut library t source o.quality p).tree,
        (carryOut library t source o.quality p).result.map fun _ =>
          ⟨p.destination, p.real, p.target⟩⟩ := by
  unfold attempt
  dsimp only
  rw [h]

/-- What an attempt comes to: it stops before it saves, or it saves what it planned, and ends as
the save does. -/
inductive Attempts (library : PictureLibrary) (t : FileTree) (e : Engine) (o : BatchOptions)
    (folder source : String) (size : Value) (known : Option RealDimension) : Attempt → Prop
  | stopped {entries : List LogEntry} {calls : List RasterCall} {f : Failure} :
      Attempts library t e o folder source size known ⟨entries, calls, t, .error f⟩
  | saved {entries : List LogEntry} {calls : List RasterCall} {p : Plan} {picture q : Picture}
      (n : Option Int) (planned : (plan t e o folder source size known).result = .ok p)
      (opened : t.openPicture source = .ok picture)
      (ready : (picture.rendered library p.target p.format).result = .ok q) :
      Attempts library t e o folder source size known
        ⟨entries, calls, (t.savePicture library p.destination q p.format n).1,
          (Drawing.outcome (t.savePicture library p.destination q p.format n).2).map fun _ =>
            ⟨p.destination, p.real, p.target⟩⟩

theorem attempts_attempt (library : PictureLibrary) (t : FileTree) (e : Engine) (o : BatchOptions)
    (folder source : String) (size : Value) (known : Option RealDimension) :
    Attempts library t e o folder source size known
      (attempt library t e o folder source size known) := by
  cases hplan : (plan t e o folder source size known).result with
  | error f =>
    rw [attempt_unplanned hplan]
    exact .stopped
  | ok p =>
    rw [attempt_planned hplan]
    have hdraws := Drawing.draws_draw library t source p.destination p.target p.format o.quality
    unfold carryOut
    generalize Drawing.draw library t source p.destination p.target p.format o.quality = drawing
      at hdraws
    cases hdraws with
    | stopped => exact .stopped
    | saved n opened ready => exact .saved n hplan opened ready

/-- An attempt that succeeds carried out its plan. -/
theorem attempt_eq_ok {known : Option RealDimension} {s : Saved}
    (h : (attempt library t e o folder source size known).result = .ok s) :
    ∃ p, (plan t e o folder source size known).result = .ok p ∧
      s = ⟨p.destination, p.real, p.target⟩ ∧
      ∃ picture q n, t.openPicture source = .ok picture ∧
        (picture.rendered library s.target p.format).result = .ok q ∧
        t.savePicture library s.destination q p.format n =
          ((attempt library t e o folder source size known).tree, none) := by
  have hattempts := attempts_attempt library t e o folder source size known
  generalize attempt library t e o folder source size known = a at h hattempts ⊢
  cases hattempts with
  | stopped => cases h
  | @saved entries calls p picture q n planned opened ready =>
    rcases hsave : t.savePicture library p.destination q p.format n with ⟨after, _ | f⟩
    · rw [hsave] at h
      cases h
      exact ⟨p, planned, rfl, picture, q, n, opened, ready, hsave⟩
    · rw [hsave] at h
      cases h

/-- An attempt that fails leaves the tree as it was, if its save fails clean. -/
theorem attempt_failed {known : Option RealDimension} {f : Failure}
    (hclean : library.FailsClean ∨ o.overwrite = false ∧ library.LeavesNothingNew)
    (h : (attempt library t e o folder source size known).result = .error f) :
    (attempt library t e o folder source size known).tree = t := by
  have hattempts := attempts_attempt library t e o folder source size known
  generalize attempt library t e o folder source size known = a at h hattempts ⊢
  cases hattempts with
  | stopped => rfl
  | @saved entries calls p picture q n planned opened ready =>
    rcases hsave : t.savePicture library p.destination q p.format n with ⟨after, _ | fault⟩
    · rw [hsave] at h
      cases h
    · rcases hclean with hclean | ⟨ho, hclean⟩
      · exact FileTree.savePicture_failed hclean hsave
      · exact FileTree.savePicture_failed_free hclean (plan_free ho planned) hsave

/-- Whatever comes of an attempt, files stay files and folders stay folders. -/
theorem keepsKinds_attempt (library : PictureLibrary) (t : FileTree) (e : Engine)
    (o : BatchOptions) (folder source : String) (size : Value) (known : Option RealDimension) :
    t.KeepsKinds (attempt library t e o folder source size known).tree := by
  have hattempts := attempts_attempt library t e o folder source size known
  generalize attempt library t e o folder source size known = a at hattempts
  cases hattempts with
  | stopped => exact .refl t
  | saved n planned opened ready => exact FileTree.keepsKinds_savePicture library t _ _ _ n

end Pair

end ImageSizing
