import ImageSizing.Failure
import ImageSizing.Proofs.Files.Folders

/-!
# Trees with the same folders

A tree fills another one when all entries are still there, files perhaps replaced by other
files, and the folders are the same (`Fills`).  A path then leads to the same place as before
but for the files that have come: to a file where none was, or nowhere because a file is now
in the way (`Place.Becomes`, `look_fills`).  Opening and saving turn out alike
(`openPicture_fills`, `savePlace_fills`), up to one fault, which names the file that is in
the way (`Failure.Recurs`), and no other folders are made (`makeFolders_fills`).
-/

namespace ImageSizing

/-- A place of a tree in one that it has been filled to. -/
inductive Place.Becomes : Place → Place → Prop
  | same (p : Place) : Becomes p p
  | replaced {l : Location} {e e' : Entry} (was : e ≠ .folder) (is : e' ≠ .folder) :
      Becomes (.found l e) (.found l e')
  | filled {l : Location} {e : Entry} (is : e ≠ .folder) : Becomes (.free l) (.found l e)
  | blocked : Becomes .noFolder .belowFile

/-- A failure in a tree that has been filled: the same one, or the one of a path that led
nowhere and that a file is in the way of now. -/
inductive Failure.Recurs (u : FileTree) : Failure → Failure → Prop
  | same (f : Failure) : Recurs u f f
  | blocked {path : String} (below : u.look path = .belowFile) :
      Recurs u (.fault (.file (.notFound path))) (.fault (.file (.notDirectory path)))

namespace FileTree

/-- One tree fills another: its folders are the same, and files stay files. -/
structure Fills (t u : FileTree) : Prop where
  kinds : t.KeepsKinds u
  folders : ∀ loc, u.at? loc = some .folder → t.at? loc = some .folder

variable {t u v : FileTree}

theorem Fills.refl (t : FileTree) : t.Fills t := ⟨.refl t, fun _ h => h⟩

theorem Fills.trans (h : t.Fills u) (h' : u.Fills v) : t.Fills v :=
  ⟨h.kinds.trans h'.kinds, fun loc hv => h.folders loc (h'.folders loc hv)⟩

variable {loc : Location} {file : Entry}

/-- Putting a file where no folder is fills a tree. -/
theorem fills_put (h : t.at? loc ≠ some .folder) (hfile : file ≠ .folder) :
    t.Fills (t.put loc file) := by
  refine ⟨keepsKinds_put h hfile, ?_⟩
  intro loc' hfolder
  rw [at?_put t (ne_nil_of_not_folder h)] at hfolder
  split at hfolder
  · exact absurd (Option.some.inj hfolder) hfile
  · exact hfolder

/-- The same entry may be put into both trees. -/
theorem Fills.put (h : t.Fills u) (hloc : t.at? loc ≠ some .folder) (entry : Entry) :
    (t.put loc entry).Fills (u.put loc entry) := by
  have hne := ne_nil_of_not_folder hloc
  refine ⟨⟨h.kinds.working, ?_⟩, ?_⟩
  · intro loc' e he
    rw [at?_put t hne] at he
    rw [at?_put u hne]
    by_cases hloc : loc' = loc
    · rw [if_pos hloc] at he ⊢
      exact ⟨_, rfl, by rw [Option.some.inj he]⟩
    · rw [if_neg hloc] at he ⊢
      exact h.kinds.entries loc' e he
  · intro loc' hfolder
    rw [at?_put u hne] at hfolder
    rw [at?_put t hne]
    by_cases hloc : loc' = loc
    · rw [if_pos hloc] at hfolder ⊢
      exact hfolder
    · rw [if_neg hloc] at hfolder ⊢
      exact h.folders loc' hfolder

/-- A file that comes to a file of the fuller tree leaves that tree as full. -/
theorem Fills.put_left (h : t.Fills u) {e : Entry} (hat : u.at? loc = some e) (he : e ≠ .folder)
    (hfile : file ≠ .folder) : (t.put loc file).Fills u := by
  have hne : loc ≠ [] := by
    rintro rfl
    exact he (Option.some.inj hat).symm
  refine ⟨⟨h.kinds.working, ?_⟩, ?_⟩
  · intro loc' e' he'
    rw [at?_put t hne] at he'
    split at he'
    · rename_i hloc
      cases he'
      exact ⟨e, by rw [hloc, hat], iff_of_false he hfile⟩
    · exact h.kinds.entries loc' e' he'
  · intro loc' hfolder
    rw [at?_put t hne]
    by_cases hloc : loc' = loc
    · rw [hloc, hat] at hfolder
      exact absurd (Option.some.inj hfolder) he
    · rw [if_neg hloc]
      exact h.folders loc' hfolder

/-! ## Paths -/

/-- From a file, what a file in its place leads to. -/
theorem lookFrom_file_becomes {next next' : Entry} (hnext : next ≠ .folder) (hnext' : next' ≠ .folder)
    (loc : Location) (names : List String) :
    (t.lookFrom loc next names).Becomes (u.lookFrom loc next' names) := by
  cases names with
  | nil => exact .replaced hnext hnext'
  | cons name rest =>
    rw [lookFrom_below_file hnext, lookFrom_below_file hnext']
    exact .same _

/-- From a free place, what a file that was put there leads to. -/
theorem lookFrom_free_becomes {next : Entry} (hnext : next ≠ .folder) (loc : Location)
    (names : List String) :
    (if names.isEmpty then Place.free loc else .noFolder).Becomes (u.lookFrom loc next names) := by
  cases names with
  | nil => exact .filled hnext
  | cons name rest =>
    rw [lookFrom_below_file hnext]
    exact .blocked

theorem lookFrom_fills (h : t.Fills u) (names : List String) (loc : Location) :
    (t.lookFrom loc .folder names).Becomes (u.lookFrom loc .folder names) := by
  induction names generalizing loc with
  | nil => exact .same _
  | cons name rest ih =>
    rcases lookFrom_cons loc .folder name with ⟨loc', hmove⟩ | ⟨place, -, -, hstuck⟩ | henter
    · rw [hmove, hmove]
      exact ih loc'
    · rw [hstuck, hstuck]
      exact .same place
    · rw [henter, henter]
      unfold enter
      cases ht : t.at? (loc ++ [name]) with
      | some next =>
        obtain ⟨next', hu, hkind⟩ := h.kinds.entries _ next ht
        rw [hu]
        by_cases hnext : next = .folder
        · rw [hnext, hkind.2 hnext]
          exact ih _
        · exact lookFrom_file_becomes hnext (fun heq => hnext (hkind.1 heq)) _ _
      | none =>
        cases hu : u.at? (loc ++ [name]) with
        | none => exact .same _
        | some next =>
          have hnext : next ≠ .folder := by
            rintro rfl
            rw [h.folders _ hu] at ht
            cases ht
          exact lookFrom_free_becomes hnext _ _

theorem lookLoosely_fills (h : t.Fills u) (path : String) :
    (t.lookLoosely path).Becomes (u.lookLoosely path) := by
  rcases lookLoosely_cases path with ⟨place, -, -, hstuck⟩ | hnames
  · rw [hstuck, hstuck]
    exact .same place
  · rw [hnames, hnames, namesOf_congr h.kinds.working]
    exact lookFrom_fills h _ _

theorem look_of_file {path : String} {l : Location} {e : Entry} (he : e ≠ .folder)
    (h : t.lookLoosely path = .found l e) :
    t.look path = if Path.endsInSlash path then .belowFile else .found l e := by
  unfold look
  rw [h]
  cases e with
  | folder => exact absurd rfl he
  | _ => cases Path.endsInSlash path <;> rfl

theorem look_of_free {path : String} {l : Location} (h : t.lookLoosely path = .free l) :
    t.look path = if Path.endsInSlash path then .noFolder else .free l := by
  unfold look
  rw [h]
  cases Path.endsInSlash path <;> rfl

theorem look_of_noFolder {path : String} (h : t.lookLoosely path = .noFolder) :
    t.look path = .noFolder := by
  unfold look
  rw [h]

theorem look_of_belowFile {path : String} (h : t.lookLoosely path = .belowFile) :
    t.look path = .belowFile := by
  unfold look
  rw [h]

theorem lookLoosely_of_free {path : String} {l : Location} (h : t.look path = .free l) :
    t.lookLoosely path = .free l := by
  unfold look at h
  split at h
  · cases h
  · cases h
  · cases h
  · exact h

/-- A path leads to the same place but for the files that have come. -/
theorem look_fills (h : t.Fills u) (path : String) : (t.look path).Becomes (u.look path) := by
  have hloose := lookLoosely_fills h path
  generalize ht : t.lookLoosely path = p at hloose
  generalize hu : u.lookLoosely path = q at hloose
  cases hloose with
  | same =>
    unfold look
    rw [ht, hu]
    exact .same _
  | replaced was is =>
    rw [look_of_file was ht, look_of_file is hu]
    cases Path.endsInSlash path
    · exact .replaced was is
    · exact .same _
  | filled is =>
    rw [look_of_free ht, look_of_file is hu]
    cases Path.endsInSlash path
    · exact .filled is
    · exact .blocked
  | blocked =>
    rw [look_of_noFolder ht, look_of_belowFile hu]
    exact .blocked

/-- A file stays in the way. -/
theorem look_belowFile (h : t.Fills u) {path : String} (hbelow : t.look path = .belowFile) :
    u.look path = .belowFile := by
  have hbecomes := look_fills h path
  rw [hbelow] at hbecomes
  generalize u.look path = q at hbecomes
  cases hbecomes with
  | same => rfl

theorem Fills.recurs (h : t.Fills u) {f f' : Failure} (hr : f.Recurs t f') : f.Recurs u f' := by
  cases hr with
  | same => exact .same f
  | blocked below => exact .blocked (look_belowFile h below)

/-! ## Opening and saving -/

theorem openPicture_of_lost {path : String} (h : t.look path = .noFolder) :
    t.openPicture path = .error (.notFound path) := by
  unfold openPicture
  rw [h]
  rfl

theorem openPicture_of_blocked {path : String} (h : t.look path = .belowFile) :
    t.openPicture path = .error (.notDirectory path) := by
  unfold openPicture
  rw [h]
  rfl

/-- The file that a path leads to in the second tree is in the first tree as well. -/
def SameFile (t u : FileTree) (path : String) : Prop :=
  ∀ loc file, file ≠ .folder → u.look path = .found loc file → t.at? loc = u.at? loc

/-- A source with the same contents is opened alike. -/
theorem openPicture_fills (h : t.Fills u) {path : String} (hsame : t.SameFile u path) :
    (∃ p, t.openPicture path = .ok p ∧ u.openPicture path = .ok p) ∨
      ∃ f f', t.openPicture path = .error f ∧ u.openPicture path = .error f' ∧
        (Failure.fault (.file f)).Recurs u (.fault (.file f')) := by
  -- where the path leads to one and the same place, all is alike
  have halike : t.look path = u.look path →
      (∃ p, t.openPicture path = .ok p ∧ u.openPicture path = .ok p) ∨
        ∃ f f', t.openPicture path = .error f ∧ u.openPicture path = .error f' ∧
          (Failure.fault (.file f)).Recurs u (.fault (.file f')) := by
    intro hlook
    have hopen : t.openPicture path = u.openPicture path := by
      unfold openPicture
      rw [hlook]
    cases hresult : u.openPicture path with
    | ok p => exact .inl ⟨p, hopen.trans hresult, rfl⟩
    | error f => exact .inr ⟨f, f, hopen.trans hresult, rfl, .same _⟩
  have hbecomes := look_fills h path
  generalize ht : t.look path = p at hbecomes
  generalize hu : u.look path = q at hbecomes
  cases hbecomes with
  | same => exact halike (ht.trans hu.symm)
  | @replaced l e e' was is =>
    obtain ⟨-, hat, -⟩ := look_file (.refl t) was ht
    obtain ⟨-, hat', -⟩ := look_file (.refl u) is hu
    have heq : e = e' := Option.some.inj (by rw [← hat, ← hat', hsame l e' is hu])
    exact halike (by rw [ht, hu, heq])
  | @filled l e is =>
    -- nothing was there, and what is there now is what was there
    obtain ⟨-, hat', -⟩ := look_file (.refl u) is hu
    have hfree : t.at? l = none := at?_of_free (lookLoosely_of_free ht)
    rw [hsame l e is hu, hat'] at hfree
    cases hfree
  | blocked =>
    exact .inr ⟨_, _, openPicture_of_lost ht, openPicture_of_blocked hu, .blocked hu⟩

theorem savePlace_at_file {path : String} {l : Location} {e : Entry} (he : e ≠ .folder)
    (h : t.lookLoosely path = .found l e) :
    t.savePlace path = if Path.endsInSlash path then .error (.isDirectory path) else .ok l := by
  unfold savePlace
  rw [h]
  cases e with
  | folder => exact absurd rfl he
  | _ => cases Path.endsInSlash path <;> rfl

theorem savePlace_at_free {path : String} {l : Location} (h : t.lookLoosely path = .free l) :
    t.savePlace path = if Path.endsInSlash path then .error (.isDirectory path) else .ok l := by
  unfold savePlace
  rw [h]
  cases Path.endsInSlash path <;> rfl

/-- What can be written in a tree can be written at the same location in a fuller one, and what
cannot be written there cannot be written in the fuller one. -/
theorem savePlace_fills (h : t.Fills u) (path : String) :
    u.savePlace path = t.savePlace path ∨
      t.savePlace path = .error (.notFound path) ∧ u.savePlace path = .error (.notDirectory path) ∧
        u.look path = .belowFile := by
  have hbecomes := lookLoosely_fills h path
  generalize ht : t.lookLoosely path = place at hbecomes
  generalize hu : u.lookLoosely path = place' at hbecomes
  cases hbecomes with
  | same =>
    unfold savePlace
    rw [ht, hu]
    exact .inl rfl
  | replaced was is => exact .inl (by rw [savePlace_at_file was ht, savePlace_at_file is hu])
  | filled is => exact .inl (by rw [savePlace_at_free ht, savePlace_at_file is hu])
  | blocked =>
    refine .inr ⟨?_, ?_, look_of_belowFile hu⟩
    · unfold savePlace
      rw [ht]
      rfl
    · unfold savePlace
      rw [hu]
      rfl

/-- A library that fails clean saves the same picture at the same location in a fuller tree, or it
fails there alike. -/
theorem savePicture_fills {library : PictureLibrary} (hclean : library.FailsClean) (h : t.Fills u)
    (path : String) (p : Picture) (format : PictureFormat) (quality : Option Int) :
    (∃ loc q, t.at? loc ≠ some .folder ∧
      t.savePicture library path p format quality = (t.put loc (.picture q), none) ∧
      u.savePicture library path p format quality = (u.put loc (.picture q), none)) ∨
    ∃ f f', t.savePicture library path p format quality = (t, some f) ∧
      u.savePicture library path p format quality = (u, some f') ∧
      (Failure.fault (.file f)).Recurs u (.fault (.file f')) := by
  unfold savePicture
  rcases savePlace_fills h path with hsame | ⟨hlost, hblocked, hbelow⟩
  · rw [hsame]
    cases hplace : t.savePlace path with
    | error f => exact .inr ⟨f, f, rfl, rfl, .same _⟩
    | ok loc =>
      dsimp only
      cases hencode : library.encode p format quality with
      | ok q => exact .inl ⟨loc, q, (savePlace_eq_ok hplace).1, rfl, rfl⟩
      | error f =>
        refine .inr ⟨.library f, .library f, ?_, ?_, .same _⟩
        · rw [hclean _ _ _ _ f hencode, leave]
        · rw [hclean _ _ _ _ f hencode, leave]
  · rw [hlost, hblocked]
    exact .inr ⟨_, _, rfl, rfl, .blocked hbelow⟩

/-! ## Making folders -/

theorem free_of_fills (h : t.Fills u) {path : String} {l : Location}
    (hfree : u.lookLoosely path = .free l) : t.lookLoosely path = .free l := by
  have hbecomes := lookLoosely_fills h path
  rw [hfree] at hbecomes
  generalize t.lookLoosely path = p at hbecomes
  cases hbecomes with
  | same => rfl

theorem hasPath_fills (h : t.Fills u) {path : String} (hpath : t.hasPath path = true) :
    u.hasPath path = true := by
  obtain ⟨l, e, hlook⟩ := hasPath_iff.1 hpath
  have hbecomes := look_fills h path
  rw [hlook] at hbecomes
  generalize hu : u.look path = place at hbecomes
  cases hbecomes with
  | same => exact hasPath_iff.2 ⟨_, _, hu⟩
  | replaced was is => exact hasPath_iff.2 ⟨_, _, hu⟩

theorem needsNoParent_fills (h : t.Fills u) {path : String} (hneeds : t.needsNoParent path = true) :
    u.needsNoParent path = true := by
  unfold needsNoParent at hneeds ⊢
  rcases Bool.or_eq_true_iff.1 hneeds with hempty | hpath
  · rw [hempty, Bool.true_or]
  · rw [hasPath_fills h hpath, Bool.or_true]

/-- Where no folder is made in a tree, none is made in a fuller one. -/
theorem makeFoldersWithin_fills (h : t.Fills u) (depth : Nat) {path : String}
    (hsame : (makeFoldersWithin depth t path).1 = t) : (makeFoldersWithin depth u path).1 = u := by
  have hensure : ∀ path, (t.ensureFolder path).1 = t → (u.ensureFolder path).1 = u := by
    intro path hpath
    exact ensureFolder_of_not_free fun l hfree => not_free_of_ensureFolder hpath l (free_of_fills h hfree)
  induction depth generalizing path with
  | zero => exact hensure path hsame
  | succ depth ih =>
    cases hneeds : t.needsNoParent path with
    | true =>
      rw [makeFoldersWithin_of_needsNoParent _ hneeds] at hsame
      rw [makeFoldersWithin_of_needsNoParent _ (needsNoParent_fills h hneeds)]
      exact hensure path hsame
    | false =>
      refine makeFoldersWithin_steady (ih (makeFoldersWithin_above hneeds hsame)) ?_
      refine ensureFolder_of_not_free fun l hfree => ?_
      -- a free place would be in a folder, and that folder would need no parent
      have hreached : (t.lookLoosely path).IsReached := by
        rw [free_of_fills h hfree]
        trivial
      rw [needsNoParent_of_isFolder (isFolder_of_reached hneeds hreached)] at hneeds
      cases hneeds

/-- Where no folder is made in a tree, none is made in a fuller one. -/
theorem makeFolders_fills (h : t.Fills u) {path : String} (hsame : (t.makeFolders path).1 = t) :
    (u.makeFolders path).1 = u := makeFoldersWithin_fills h path.length hsame

end FileTree

end ImageSizing
