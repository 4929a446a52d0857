import ImageSizing.Proofs.Files.Growth

/-!
# Saving over files

A save that succeeds puts a picture at one location, where nothing was or a file, and leaves
every other location as it was (`savePicture_eq_none`); one that fails may leave some file
there instead (`Saves`).  Folders stay folders and files stay files
(`KeepsKinds`), so that a path that led to a file leads to the same location ever after
(`look_file`); only what is there may have been replaced.
-/

namespace ImageSizing.FileTree

/-- Every folder of one tree is a folder in another, and every file is a file there, though
perhaps another one. -/
structure KeepsKinds (t u : FileTree) : Prop where
  working : u.working = t.working
  entries : ∀ loc e, t.at? loc = some e → ∃ e', u.at? loc = some e' ∧ (e' = .folder ↔ e = .folder)

theorem KeepsKinds.refl (t : FileTree) : t.KeepsKinds t := ⟨rfl, fun _ e he => ⟨e, he, Iff.rfl⟩⟩

theorem KeepsKinds.trans {t u v : FileTree} (h : t.KeepsKinds u) (h' : u.KeepsKinds v) :
    t.KeepsKinds v := by
  refine ⟨h'.working.trans h.working, ?_⟩
  intro loc e he
  obtain ⟨e', he', hkind⟩ := h.entries loc e he
  obtain ⟨e'', he'', hkind'⟩ := h'.entries loc e' he'
  exact ⟨e'', he'', hkind'.trans hkind⟩

theorem ne_nil_of_not_folder {t : FileTree} {loc : Location} (h : t.at? loc ≠ some .folder) :
    loc ≠ [] := by
  rintro rfl
  exact h rfl

theorem keepsKinds_put {t : FileTree} {loc : Location} (h : t.at? loc ≠ some .folder)
    {file : Entry} (hfile : file ≠ .folder) : t.KeepsKinds (t.put loc file) := by
  refine ⟨rfl, ?_⟩
  intro loc' e he
  rw [at?_put t (ne_nil_of_not_folder h)]
  by_cases hloc : loc' = loc
  · subst hloc
    have hold : e ≠ .folder := fun heq => h (heq ▸ he)
    exact ⟨file, if_pos rfl, iff_of_false hfile hold⟩
  · exact ⟨e, by rw [if_neg hloc, he], Iff.rfl⟩

/-! ## Paths to files -/

/-- A walk to a file ends where it ended before; the last name alone has entered something
that may be another file now. -/
theorem lookFrom_file {t u : FileTree} (hk : t.KeepsKinds u) {names : List String}
    {loc l : Location} {e : Entry} (he : e ≠ .folder)
    (h : t.lookFrom loc .folder names = .found l e) :
    ∃ e', t.at? l = some e ∧ u.at? l = some e' ∧ e' ≠ .folder ∧
      u.lookFrom loc .folder names = .found l e' := by
  induction names generalizing loc with
  | nil =>
    cases h
    exact absurd rfl he
  | cons name rest ih =>
    rcases lookFrom_cons loc .folder name with ⟨loc', hmove⟩ | ⟨place, hfound, _, hstuck⟩ | henter
    · rw [hmove] at h ⊢
      exact ih h
    · rw [hstuck] at h
      exact absurd h (hfound l e)
    · rw [henter, enter_eq_found_iff] at h
      obtain ⟨next, hat, hrest⟩ := h
      obtain ⟨next', hat', hkind⟩ := hk.entries _ next hat
      by_cases hnext : next = .folder
      · subst hnext
        obtain rfl : next' = .folder := hkind.2 rfl
        obtain ⟨e', hthere, hnow, hfile, hwalk⟩ := ih hrest
        exact ⟨e', hthere, hnow, hfile, by rw [henter, enter_eq_found_iff]; exact ⟨_, hat', hwalk⟩⟩
      · obtain ⟨rfl, rfl, rfl⟩ := eq_of_lookFrom_file hnext hrest
        have hfile : next' ≠ .folder := fun heq => hnext (hkind.1 heq)
        exact ⟨next', hat, hat', hfile, by rw [henter, enter_eq_found_iff]; exact ⟨_, hat', rfl⟩⟩

theorem lookLoosely_file {t u : FileTree} (hk : t.KeepsKinds u) {path : String} {l : Location}
    {e : Entry} (he : e ≠ .folder) (h : t.lookLoosely path = .found l e) :
    ∃ e', t.at? l = some e ∧ u.at? l = some e' ∧ e' ≠ .folder ∧ u.lookLoosely path = .found l e' := by
  rcases lookLoosely_cases path with ⟨place, hfound, _, hstuck⟩ | hnames
  · rw [hstuck] at h
    exact absurd h (hfound l e)
  · rw [hnames] at h ⊢
    rw [namesOf_congr hk.working]
    exact lookFrom_file hk he h

/-- A path to a file leads to the same location, and to the file that is there now. -/
theorem look_file {t u : FileTree} (hk : t.KeepsKinds u) {path : String} {l : Location} {e : Entry}
    (he : e ≠ .folder) (h : t.look path = .found l e) :
    ∃ e', t.at? l = some e ∧ u.at? l = some e' ∧ e' ≠ .folder ∧ u.look path = .found l e' := by
  obtain ⟨hloose, hslash⟩ := look_eq_found_iff.1 h
  obtain ⟨e', hthere, hnow, hfile, hwalk⟩ := lookLoosely_file hk he hloose
  refine ⟨e', hthere, hnow, hfile, look_eq_found_iff.2 ⟨hwalk, .inr ?_⟩⟩
  rcases hslash with hfolder | hslash
  · exact absurd hfolder he
  · exact hslash

/-- Paths to one file lead to one file ever after. -/
theorem look_same {t u : FileTree} (hk : t.KeepsKinds u) {path path' : String} {l : Location}
    {e : Entry} (he : e ≠ .folder) (h : t.look path = .found l e) (h' : t.look path' = .found l e) :
    u.look path = u.look path' := by
  obtain ⟨now, -, hat, -, hwalk⟩ := look_file hk he h
  obtain ⟨now', -, hat', -, hwalk'⟩ := look_file hk he h'
  rw [hwalk, hwalk', Option.some.inj (hat.symm.trans hat')]

/-! ## Opening and saving -/

theorem openPicture_eq_ok {t : FileTree} {path : String} {p : Picture} :
    t.openPicture path = .ok p ↔ ∃ l, t.look path = .found l (.picture p) := by
  unfold openPicture
  constructor
  · intro h
    split at h
    · rename_i l p' hlook
      cases h
      exact ⟨l, hlook⟩
    all_goals cases h
  · rintro ⟨l, hlook⟩
    rw [hlook]

/-- A file can be written where the path leads, over a file or where nothing is, and the path
leads to it. -/
theorem savePlace_eq_ok {t : FileTree} {path : String} {loc : Location}
    (h : t.savePlace path = .ok loc) :
    t.at? loc ≠ some .folder ∧ ((∃ e, t.look path = .found loc e) ∨ t.at? loc = none) ∧
      ∀ file, file ≠ .folder → (t.put loc file).look path = .found loc file := by
  unfold savePlace at h
  split at h
  · cases h
  · rename_i loc e hfile hloose hslash
    cases h
    obtain ⟨_, hat, -⟩ := lookLoosely_file (.refl t) hfile hloose
    have hfolder : t.at? loc ≠ some .folder := fun heq => hfile (Option.some.inj (hat ▸ heq))
    refine ⟨hfolder, .inl ⟨e, look_eq_found_iff.2 ⟨hloose, .inr hslash⟩⟩, ?_⟩
    intro file hnew
    obtain ⟨e', -, hnow, -, hwalk⟩ := lookLoosely_file (keepsKinds_put hfolder hnew) hfile hloose
    rw [at?_put t (ne_nil_of_not_folder hfolder), if_pos rfl] at hnow
    cases hnow
    exact look_eq_found_iff.2 ⟨hwalk, .inr hslash⟩
  · rename_i loc hloose hslash
    cases h
    have hat := at?_of_free hloose
    refine ⟨by rw [hat]; nofun, .inr hat, ?_⟩
    intro file _
    have hput := at?_put_self hat file
    exact look_eq_found_iff.2 ⟨(lookLoosely_free (keeps_put hat file) hloose).2 hput, .inr hslash⟩
  all_goals cases h

/-- What a failed save leaves is the tree as it was or some file in the place of the picture. -/
theorem leave_cases (t : FileTree) (loc : Location) (r : Remnant) :
    t.leave loc r = t ∨ ∃ file, file ≠ .folder ∧ t.leave loc r = t.put loc file := by
  cases r with
  | asBefore => exact .inl rfl
  | readable p => exact .inr ⟨.picture p, nofun, rfl⟩
  | unreadable => exact .inr ⟨.other, nofun, rfl⟩

section

variable {library : PictureLibrary} {t after : FileTree} {path : String} {p : Picture}
  {format : PictureFormat} {quality : Option Int}

/-- What a save comes to: the path is refused, or the library fails and may leave some file where
the picture was to be, or the picture is there as the library stores it. -/
inductive Saves (library : PictureLibrary) (t : FileTree) (path : String) (p : Picture)
    (format : PictureFormat) (quality : Option Int) : FileTree × Option FileFault → Prop
  | refused {f : FileFault} (place : t.savePlace path = .error f) :
      Saves library t path p format quality (t, some f)
  | failed {loc : Location} {f : ForeignFault} (place : t.savePlace path = .ok loc)
      (encoded : library.encode p format quality = .error f) :
      Saves library t path p format quality
        (t.leave loc (library.remnant (t.at? loc).isNone p format quality), some (.library f))
  | stored {loc : Location} {q : Picture} (place : t.savePlace path = .ok loc)
      (encoded : library.encode p format quality = .ok q) :
      Saves library t path p format quality (t.put loc (.picture q), none)

theorem saves_savePicture (library : PictureLibrary) (t : FileTree) (path : String) (p : Picture)
    (format : PictureFormat) (quality : Option Int) :
    Saves library t path p format quality (t.savePicture library path p format quality) := by
  unfold savePicture
  cases hplace : t.savePlace path with
  | error f => exact .refused hplace
  | ok loc =>
    dsimp only
    cases hencode : library.encode p format quality with
    | error f => exact .failed hplace hencode
    | ok stored => exact .stored hplace hencode

/-- A save that succeeds puts the picture as the library stores it where the path leads, over a
file or where nothing is, and the path leads to it. -/
theorem savePicture_eq_none (h : t.savePicture library path p format quality = (after, none)) :
    ∃ loc stored, library.encode p format quality = .ok stored ∧ t.at? loc ≠ some .folder ∧
      ((∃ e, t.look path = .found loc e) ∨ t.at? loc = none) ∧
      after = t.put loc (.picture stored) ∧ after.look path = .found loc (.picture stored) := by
  have hsaves := saves_savePicture library t path p format quality
  rw [h] at hsaves
  cases hsaves with
  | @stored loc q place encoded =>
    obtain ⟨hfolder, hover, hlook⟩ := savePlace_eq_ok place
    exact ⟨loc, q, encoded, hfolder, hover, rfl, hlook _ nofun⟩

/-- A failed save changes nothing if the library sees to it. -/
theorem savePicture_failed (hclean : library.FailsClean) {fault : FileFault}
    (h : t.savePicture library path p format quality = (after, some fault)) : after = t := by
  have hsaves := saves_savePicture library t path p format quality
  rw [h] at hsaves
  cases hsaves with
  | refused place => rfl
  | failed place encoded => rw [hclean _ _ _ _ _ encoded, leave]

/-- A failed save to a place that was free changes nothing if the library leaves nothing new. -/
theorem savePicture_failed_free (hclean : library.LeavesNothingNew)
    (hfree : t.hasPath path = false) {fault : FileFault}
    (h : t.savePicture library path p format quality = (after, some fault)) : after = t := by
  have hsaves := saves_savePicture library t path p format quality
  rw [h] at hsaves
  cases hsaves with
  | refused place => rfl
  | @failed loc f place encoded =>
    obtain ⟨-, ⟨e, hlook⟩ | hnone, -⟩ := savePlace_eq_ok place
    · rw [hasPath_iff.2 ⟨loc, e, hlook⟩] at hfree
      cases hfree
    · rw [hnone, Option.isNone_none, hclean _ _ _ _ encoded, leave]

/-- Whatever comes of a save, the tree is as it was but for some file in the place of the
picture. -/
theorem savePicture_cases (library : PictureLibrary) (t : FileTree) (path : String) (p : Picture)
    (format : PictureFormat) (quality : Option Int) :
    (t.savePicture library path p format quality).1 = t ∨
      ∃ loc file, t.savePlace path = .ok loc ∧ file ≠ .folder ∧
        (t.savePicture library path p format quality).1 = t.put loc file := by
  have hsaves := saves_savePicture library t path p format quality
  generalize t.savePicture library path p format quality = saved at hsaves ⊢
  cases hsaves with
  | refused place => exact .inl rfl
  | @failed loc f place encoded =>
    rcases leave_cases t loc (library.remnant (t.at? loc).isNone p format quality) with
      hsame | ⟨file, hfile, hput⟩
    · exact .inl hsame
    · exact .inr ⟨loc, file, place, hfile, hput⟩
  | @stored loc q place encoded => exact .inr ⟨loc, .picture q, place, nofun, rfl⟩

/-- Folders stay folders and files stay files. -/
theorem keepsKinds_savePicture (library : PictureLibrary) (t : FileTree) (path : String)
    (p : Picture) (format : PictureFormat) (quality : Option Int) :
    t.KeepsKinds (t.savePicture library path p format quality).1 := by
  rcases savePicture_cases library t path p format quality with
    hsame | ⟨loc, file, hplace, hfile, hput⟩
  · rw [hsame]
    exact .refl t
  · rw [hput]
    exact keepsKinds_put (savePlace_eq_ok hplace).1 hfile

end

end ImageSizing.FileTree
